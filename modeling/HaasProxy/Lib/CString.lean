import Mathlib.Data.List.Basic
import Mathlib.Data.List.TakeWhile

/-!
# C strings and `sprintf` at a running offset

The idiom `Pos+=sprintf(Buf+Pos,…)` over a fixed array, as a store-by-store
model.  `CharBuffer` is what such a chain leaves behind: the memory from the
start of the array on (cells past the array's end belong to somebody else), the
running offset, and every index that was stored to.

## Main results

The two facts a client needs are about a whole chain of pieces:

* `stores_sprintfs_lt_iff` — every store of the chain is inside an array of
  `size` bytes exactly when all the text together is shorter than `size`;
* `string?_sprintfs` — and then the array holds that text.

Where single bytes are stored as well (`Buf[Pos++]=c`), no NUL follows them, and
`Fills` is what stays true from one store to the next; `printed?_of_fills` is what
`%.*s` then makes of the buffer.

## Design notes

The size of the array is no part of a `CharBuffer`.  A chain does not know it
either: it stores wherever the offset has got to, and whether that was still in
the array is asked afterwards, of the list of indices.  So a store outside is an
ordinary store here, and the statement that there is none is a statement about
the program and not about the model.

What the memory held before is a parameter (`garbage`), and nothing is assumed of
it.  A result that does not mention it, such as `string?_sprintfs`, says that the
program does not depend on what an uninitialised array happens to hold.

Text formats are byte lists; `decimal` is `%d` of a non-negative number.  A
`CString` carries the proof that it has no NUL inside, because nearly every fact
about `sprintf` and `%s` is false without that.
-/

namespace HaasProxy

/-- A C string: bytes before the terminating NUL, none of them NUL. -/
structure CString where
  bytes : List UInt8
  nulFree : 0 ∉ bytes
  deriving DecidableEq

namespace CString

@[ext] theorem ext {s t : CString} (h : s.bytes = t.bytes) : s = t := by
  cases s; cases t; cases h; rfl

/-- `s[0]`, which is the NUL of an empty string. -/
def first (s : CString) : UInt8 := s.bytes.headD 0

end CString

/-- The bytes of an ASCII literal. -/
def ascii (s : String) : List UInt8 := s.toList.map fun c => UInt8.ofNat c.toNat

/-- A separator that occurs in neither of two texts splits equal texts alike. -/
theorem eq_of_append_sep_eq {α : Type*} {sep : α} {s t x y : List α} (hs : sep ∉ s)
    (ht : sep ∉ t) (h : s ++ sep :: x = t ++ sep :: y) : s = t ∧ x = y := by
  induction s generalizing t with
  | nil =>
      cases t with
      | nil => simpa using h
      | cons b t =>
          obtain ⟨rfl, -⟩ := List.cons.inj h
          exact absurd List.mem_cons_self ht
  | cons a s ih =>
      cases t with
      | nil =>
          obtain ⟨rfl, -⟩ := List.cons.inj h
          exact absurd List.mem_cons_self hs
      | cons b t =>
          rw [List.cons_append, List.cons_append, List.cons.injEq] at h
          obtain ⟨hst, hxy⟩ := ih (fun mem => hs (List.mem_cons_of_mem _ mem))
            (fun mem => ht (List.mem_cons_of_mem _ mem)) h.2
          exact ⟨by rw [h.1, hst], hxy⟩

/-! ## Decimal output

Numerals are compared by their value, which they determine, and by the bytes that
they may consist of, which is what their neighbours in a text have to know. -/

/-- `%d` of a non-negative number. -/
def decimal (n : Nat) : List UInt8 := (Nat.toDigits 10 n).map fun c => UInt8.ofNat c.toNat

/-- A digit is the same as a character and as a byte. -/
private theorem ofNat_toNat_of_isDigit {c : Char} (h : c.isDigit) :
    Char.ofNat (UInt8.ofNat c.toNat).toNat = c := by
  have hc : c.toNat < 58 := by
    simp only [Char.isDigit, Bool.and_eq_true, decide_eq_true_eq] at h
    exact Nat.lt_succ_of_le h.2
  rw [UInt8.toNat_ofNat', Nat.mod_eq_of_lt (by omega), Char.ofNat_toNat]

/-- Decimal output is read back as the digits it was printed from. -/
theorem map_ofNat_decimal (n : Nat) :
    ((decimal n).map fun b => Char.ofNat b.toNat) = Nat.toDigits 10 n := by
  rw [decimal, List.map_map]
  conv_rhs => rw [← List.map_id (Nat.toDigits 10 n)]
  refine List.map_congr_left fun c hc => ?_
  exact ofNat_toNat_of_isDigit (Nat.isDigit_of_mem_toDigits (by omega) (by omega) hc)

theorem decimal_injective : Function.Injective decimal := by
  intro m n h
  have digits : Nat.toDigits 10 m = Nat.toDigits 10 n := by
    rw [← map_ofNat_decimal m, ← map_ofNat_decimal n, h]
  rw [← Nat.ofDigitChars_ten_toDigits (n := m), digits, Nat.ofDigitChars_ten_toDigits]

/-- Every byte of a decimal number is a digit. -/
theorem digit_of_mem_decimal {n : Nat} {b : UInt8} (h : b ∈ decimal n) :
    0x30 ≤ b ∧ b ≤ 0x39 := by
  rw [decimal, List.mem_map] at h
  obtain ⟨c, hc, rfl⟩ := h
  have digit := Nat.isDigit_of_mem_toDigits (by omega) (by omega) hc
  simp only [Char.isDigit, Bool.and_eq_true, decide_eq_true_eq] at digit
  have low : 48 ≤ c.toNat := digit.1
  have high : c.toNat ≤ 57 := digit.2
  rw [UInt8.le_iff_toNat_le, UInt8.le_iff_toNat_le, UInt8.toNat_ofNat',
    Nat.mod_eq_of_lt (by omega)]
  exact ⟨low, high⟩

/-! ## The buffer

An array of characters on the stack, with garbage in it, and the position up to which it
is written. A write behind the end is noted, not prevented. -/

/-- A `char` array being filled by `sprintf` calls at a running offset: the
memory from its first byte on, the offset, and the indices stored to so far. -/
structure CharBuffer where
  cells : Nat → UInt8
  pos : Nat
  stores : List Nat

namespace CharBuffer

/-- An uninitialised array: `garbage` is whatever the memory held. -/
def uninit (garbage : Nat → UInt8) : CharBuffer := ⟨garbage, 0, []⟩

/-- Memory after storing `out` from index `pos` on. -/
def overwrite (cells : Nat → UInt8) (pos : Nat) (out : List UInt8) (i : Nat) : UInt8 :=
  if i < pos then cells i else (out[i - pos]?).getD (cells i)

/-- `Pos+=sprintf(Buf+Pos,…)` where the format yields `out`: the bytes and the
terminating NUL are stored, the offset moves past the bytes only. -/
def sprintf (buf : CharBuffer) (out : List UInt8) : CharBuffer where
  cells := overwrite buf.cells buf.pos (out ++ [0])
  pos := buf.pos + out.length
  stores := buf.stores ++ List.range' buf.pos (out.length + 1)

/-- A chain of such calls. -/
def sprintfs (buf : CharBuffer) (pieces : List (List UInt8)) : CharBuffer :=
  pieces.foldl sprintf buf

/-- The string in the first `size` bytes, when no store left them. -/
def string? (size : Nat) (buf : CharBuffer) : Option (List UInt8) :=
  if ∀ i ∈ buf.stores, i < size then
    some (((List.range size).map buf.cells).takeWhile (· != 0))
  else none

/-- The buffer holds `text` in front of its offset and a NUL at it. -/
structure Holds (buf : CharBuffer) (text : List UInt8) : Prop where
  pos_eq : buf.pos = text.length
  cell : ∀ i (h : i < text.length), buf.cells i = text[i]
  nul : buf.cells text.length = 0

/-- What lies in front of the position is not touched. -/
theorem overwrite_lt {cells : Nat → UInt8} {pos i : Nat} {out : List UInt8} (h : i < pos) :
    overwrite cells pos out i = cells i := if_pos h

theorem overwrite_getElem {cells : Nat → UInt8} {pos i : Nat} {out : List UInt8}
    (h : i < out.length) : overwrite cells pos out (pos + i) = out[i] := by
  have hi : pos + i - pos = i := by omega
  rw [overwrite, if_neg (by omega), hi, List.getElem?_eq_getElem h, Option.getD_some]

/-- The first call on a fresh array. -/
theorem holds_sprintf_uninit (garbage : Nat → UInt8) (out : List UInt8) :
    ((uninit garbage).sprintf out).Holds out := by
  refine ⟨by simp [sprintf, uninit], fun i h => ?_, ?_⟩
  · have hi : i < (out ++ [0]).length := by
      rw [List.length_append]
      omega
    have stored : overwrite garbage 0 (out ++ [0]) (0 + i) = (out ++ [0])[i] :=
      overwrite_getElem _
    rwa [Nat.zero_add, List.getElem_append_left h] at stored
  · have last : out.length < (out ++ [0]).length := by simp
    have stored : overwrite garbage 0 (out ++ [0]) (0 + out.length) = (out ++ [0])[out.length] :=
      overwrite_getElem _
    rw [Nat.zero_add, List.getElem_append_right (Nat.le_refl _)] at stored
    simpa [CharBuffer.sprintf, uninit] using stored

/-- **One further call** appends its text. -/
theorem Holds.sprintf {buf : CharBuffer} {text : List UInt8} (holds : buf.Holds text)
    (out : List UInt8) : (buf.sprintf out).Holds (text ++ out) := by
  refine ⟨by simp [CharBuffer.sprintf, holds.pos_eq], fun i h => ?_, ?_⟩
  · rw [List.length_append] at h
    change overwrite buf.cells buf.pos (out ++ [0]) i = _
    by_cases before : i < text.length
    · rw [overwrite_lt (by rw [holds.pos_eq]; exact before), holds.cell i before,
        List.getElem_append_left before]
    · obtain ⟨k, rfl⟩ : ∃ k, i = text.length + k := ⟨i - text.length, by omega⟩
      have hk : k < out.length := by omega
      rw [holds.pos_eq, overwrite_getElem (by simp; omega), List.getElem_append_left hk,
        List.getElem_append_right (by omega)]
      simp
  · change overwrite buf.cells buf.pos (out ++ [0]) _ = 0
    rw [List.length_append, holds.pos_eq, overwrite_getElem (by simp)]
    simp

/-- A chain of `sprintf` holds all its pieces, one behind the other. -/
theorem Holds.sprintfs {buf : CharBuffer} {text : List UInt8} (holds : buf.Holds text)
    (pieces : List (List UInt8)) : (buf.sprintfs pieces).Holds (text ++ pieces.flatten) := by
  induction pieces generalizing buf text with
  | nil => simpa [CharBuffer.sprintfs] using holds
  | cons out pieces ih =>
      have := ih (holds.sprintf out)
      rwa [List.append_assoc, ← List.flatten_cons] at this

/-- A chain on a fresh array leaves the concatenation of its pieces. -/
theorem holds_sprintfs {pieces : List (List UInt8)} (ne : pieces ≠ []) (garbage : Nat → UInt8) :
    ((uninit garbage).sprintfs pieces).Holds pieces.flatten := by
  cases pieces with
  | nil => exact absurd rfl ne
  | cons out pieces => exact (holds_sprintf_uninit garbage out).sprintfs pieces

/-! ### Where a chain stores

Each piece stores its bytes and a NUL behind them, which the next piece overwrites.
The last NUL is never overwritten, so it needs a cell as well. -/

/-- One `sprintf` writes from the position on, one cell further than the text is long. -/
theorem mem_stores_sprintf {buf : CharBuffer} {out : List UInt8} {i : Nat} :
    i ∈ (buf.sprintf out).stores ↔ i ∈ buf.stores ∨ buf.pos ≤ i ∧ i ≤ buf.pos + out.length := by
  simp only [CharBuffer.sprintf, List.mem_append, List.mem_range'_1]
  exact or_congr_right (by omega)

/-- The indices a chain stores to are its own ones and an interval, without
gaps, from where it starts to the NUL it ends with. -/
theorem mem_stores_sprintfs {buf : CharBuffer} {pieces : List (List UInt8)} (ne : pieces ≠ [])
    {i : Nat} :
    i ∈ (buf.sprintfs pieces).stores ↔
      i ∈ buf.stores ∨ buf.pos ≤ i ∧ i ≤ buf.pos + pieces.flatten.length := by
  induction pieces generalizing buf with
  | nil => exact absurd rfl ne
  | cons out pieces ih =>
      change i ∈ ((buf.sprintf out).sprintfs pieces).stores ↔ _
      by_cases last : pieces = []
      · subst last
        simpa [CharBuffer.sprintfs] using mem_stores_sprintf
      · rw [ih last, mem_stores_sprintf, List.flatten_cons, List.length_append, or_assoc]
        simp only [CharBuffer.sprintf]
        exact or_congr_right (by omega)

/-- **A chain stays inside the array exactly when its text and one NUL fit.** -/
theorem stores_sprintfs_lt_iff {pieces : List (List UInt8)} (ne : pieces ≠ [])
    (garbage : Nat → UInt8) (size : Nat) :
    (∀ i ∈ ((uninit garbage).sprintfs pieces).stores, i < size) ↔
      pieces.flatten.length < size := by
  simp only [mem_stores_sprintfs ne, uninit, List.not_mem_nil, false_or]
  constructor
  · intro h
    exact h _ ⟨by omega, by omega⟩
  · rintro fits i ⟨-, hi⟩
    omega

/-! ### Reading the string back

`string?` looks for the first NUL, so what it finds is the text only if there is
none in it: this is where the pieces have to be C strings. -/

/-- The text up to the first zero byte is the text that was written, if there is room
for it and no zero byte in it. -/
theorem Holds.takeWhile_cells {buf : CharBuffer} {text : List UInt8} (holds : buf.Holds text)
    (nulFree : 0 ∉ text) {size : Nat} (fits : text.length < size) :
    ((List.range size).map buf.cells).takeWhile (· != 0) = text := by
  obtain ⟨k, rfl⟩ : ∃ k, size = text.length + (k + 1) := ⟨size - text.length - 1, by omega⟩
  have front : (List.range text.length).map buf.cells = text := by
    refine List.ext_getElem (by simp) fun i _ h => ?_
    simp [holds.cell i h]
  have back : ((List.range (k + 1)).map (text.length + ·)).map buf.cells =
      0 :: (List.range k).map fun i => buf.cells (text.length + (i + 1)) := by
    rw [List.range_succ_eq_map]
    simp [holds.nul, Function.comp_def]
  rw [List.range_add, List.map_append, front, back, List.takeWhile_append_of_pos]
  · simp
  · intro b hb
    exact bne_iff_ne.mpr fun h => nulFree (h ▸ hb)

/-- **What a chain leaves in the array**: its text, provided that fits. -/
theorem string?_sprintfs {pieces : List (List UInt8)} (ne : pieces ≠ [])
    (nulFree : 0 ∉ pieces.flatten) (garbage : Nat → UInt8) (size : Nat) :
    ((uninit garbage).sprintfs pieces).string? size =
      if pieces.flatten.length < size then some pieces.flatten else none := by
  rw [string?]
  by_cases fits : pieces.flatten.length < size
  · rw [if_pos ((stores_sprintfs_lt_iff ne garbage size).mpr fits), if_pos fits,
      (holds_sprintfs ne garbage).takeWhile_cells nulFree fits]
  · rw [if_neg (mt (stores_sprintfs_lt_iff ne garbage size).mp fits), if_neg fits]

/-! ### Single bytes

`Holds` fails after `put`, since no NUL was stored behind the byte, and `Fills` takes
its place.  Nothing that was stored lies behind the offset in either case. -/

/-- `Buf[Pos++]=c`. -/
def put (buf : CharBuffer) (c : UInt8) : CharBuffer where
  cells := overwrite buf.cells buf.pos [c]
  pos := buf.pos + 1
  stores := buf.stores ++ [buf.pos]

/-- What `%.*s` writes of the first `Pos` bytes, when no store left the array. -/
def printed? (size : Nat) (buf : CharBuffer) : Option (List UInt8) :=
  if ∀ i ∈ buf.stores, i < size then
    some (((List.range buf.pos).map buf.cells).takeWhile (· != 0))
  else none

/-- The buffer holds `text` in front of its offset, and nothing was stored behind
that. -/
structure Fills (buf : CharBuffer) (text : List UInt8) : Prop where
  pos_eq : buf.pos = text.length
  cell : ∀ i (h : i < text.length), buf.cells i = text[i]
  stores_le : ∀ i ∈ buf.stores, i ≤ text.length

section Fills

variable {buf : CharBuffer} {text : List UInt8}

theorem fills_uninit (garbage : Nat → UInt8) : (uninit garbage).Fills [] := by
  constructor
  · rfl
  · intro i h
    cases h
  · intro i mem
    cases mem

/-- What was written before stays, and what is written now stands behind it. -/
theorem Fills.overwrite_eq (fills : buf.Fills text) (out more : List UInt8) {i : Nat}
    (h : i < (text ++ out).length) :
    overwrite buf.cells buf.pos (out ++ more) i = (text ++ out)[i] := by
  by_cases before : i < text.length
  · have le : i < buf.pos := by
      rw [fills.pos_eq]
      exact before
    rw [overwrite_lt le, fills.cell i before, List.getElem_append_left before]
  · obtain ⟨k, rfl⟩ : ∃ k, i = text.length + k := ⟨i - text.length, by omega⟩
    rw [List.length_append] at h
    have inside : k < out.length := by omega
    have longer : k < (out ++ more).length := by
      rw [List.length_append]
      omega
    rw [fills.pos_eq, overwrite_getElem longer, List.getElem_append_left inside,
      List.getElem_append_right (by omega)]
    simp

/-- `sprintf` at the end of the text appends to it, and ends it with a NUL again. -/
theorem Fills.sprintf (fills : buf.Fills text) (out : List UInt8) :
    (buf.sprintf out).Fills (text ++ out) where
  pos_eq := by
    rw [List.length_append, ← fills.pos_eq]
    rfl
  cell i h := fills.overwrite_eq out [0] h
  stores_le i mem := by
    rw [List.length_append]
    rcases mem_stores_sprintf.mp mem with earlier | now
    · have le := fills.stores_le i earlier
      omega
    · rw [← fills.pos_eq]
      exact now.2

/-- So does a single character. -/
theorem Fills.put (fills : buf.Fills text) (c : UInt8) : (buf.put c).Fills (text ++ [c]) where
  pos_eq := by
    rw [List.length_append, ← fills.pos_eq]
    rfl
  cell i h := by
    have stored := fills.overwrite_eq [c] [] h
    rwa [List.append_nil] at stored
  stores_le i mem := by
    rw [List.length_append]
    rcases List.mem_append.mp mem with earlier | now
    · have le := fills.stores_le i earlier
      omega
    · obtain rfl := List.mem_singleton.mp now
      rw [fills.pos_eq]
      exact Nat.le_add_right _ _

/-- A loop of `sprintf` calls. -/
theorem Fills.foldl_sprintf {α : Type} (fills : buf.Fills text) (steps : List α)
    (out : α → List UInt8) :
    (steps.foldl (fun buf step => buf.sprintf (out step)) buf).Fills
      (text ++ steps.flatMap out) := by
  induction steps generalizing buf text with
  | nil => simpa using fills
  | cons step steps ih =>
      rw [List.foldl_cons, List.flatMap_cons, ← List.append_assoc]
      exact ih (fills.sprintf (out step))

/-- A loop that stores one byte after another. -/
theorem Fills.foldl_put {α : Type} (fills : buf.Fills text) (steps : List α) (c : α → UInt8) :
    (steps.foldl (fun buf step => buf.put (c step)) buf).Fills (text ++ steps.map c) := by
  induction steps generalizing buf text with
  | nil => simpa using fills
  | cons step steps ih =>
      have next := ih (fills.put (c step))
      rwa [List.append_assoc, List.singleton_append] at next

/-- **What a buffer that was filled prints**: all of its text, provided that fits. -/
theorem printed?_of_fills (fills : buf.Fills text) (nulFree : 0 ∉ text) {size : Nat}
    (fits : text.length < size) : buf.printed? size = some text := by
  have inside : ∀ i ∈ buf.stores, i < size := by
    intro i mem
    exact Nat.lt_of_le_of_lt (fills.stores_le i mem) fits
  have front : (List.range buf.pos).map buf.cells = text := by
    refine List.ext_getElem (by simp [fills.pos_eq]) ?_
    intro i _ h
    simp [fills.cell i h]
  rw [printed?, if_pos inside, front, List.takeWhile_eq_self_iff.mpr]
  intro b mem
  exact bne_iff_ne.mpr fun eq => nulFree (eq ▸ mem)

end Fills

end CharBuffer

end HaasProxy
