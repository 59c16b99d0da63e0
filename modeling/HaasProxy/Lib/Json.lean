import Mathlib.Data.List.Basic

/-!
# JSON texts over bytes

A decoder for JSON texts given as bytes, in the shape RFC 8259 gives the
grammar: six value forms, insignificant whitespace between tokens, string
literals with the escapes `\" \\ \/ \b \f \n \r \t \uXXXX`, and the requirement
that the whole text is UTF-8.  An object keeps its members in text order and
keeps repeated names, so "each member once" is a statement about the list.

The recursion is on a fuel argument.  Every recursive call is made on a strictly
shorter text, so the length of the text is always enough of it, and `decode`
starts from there.

## Main results

The half a client needs is about string literals:

* `chars_append` — a literal without special bytes is read back as it stands;
* `plain_of_chars` — conversely, a string that was spliced between quotes and is
  read back unchanged had no special byte, whatever stands behind it, as long as
  that is the usual `, "` of a further member.

`members_str` and `plain_of_members` are the same two facts for a whole member.

## Why the converse holds

The second one is where the work is: a decoder shortens every escape it reads,
so a literal of unchanged length had none, and the only way to run over the
closing quote is a trailing backslash, which then shows at the end.

* `Consumed` is the relation of what is taken off the text to what it stands for.
  It never lengthens (`Consumed.length_le`), and it keeps the length of a text only
  if every byte of it is plain (`Consumed.plain_of_length_eq`).
* A spliced string that ends in a backslash makes the closing quote a character of
  the literal.  The literal then goes on behind it, through the comma and the
  blank, and ends at the quote that was to open the next name.  What was decoded
  then ends in a blank and not in a backslash, so it is not the string.
-/

namespace HaasProxy.Json

/-! ## UTF-8

Only the boundaries between characters matter to a client: an ASCII byte is one on
both sides (`utf8From_append_ascii`), so a text is well formed exactly if the pieces
between its ASCII bytes are. -/

/-- What a UTF-8 reader still expects: `owed` continuation bytes, the next of
them between `low` and `high`. -/
structure Utf8State where
  owed : Nat
  low : UInt8
  high : UInt8
  deriving DecidableEq, Repr

/-- Between two characters. -/
def Utf8State.start : Utf8State := ⟨0, 0x80, 0xBF⟩

/-- The state after the first byte of a character.  The narrowed ranges after
`E0`, `ED`, `F0` and `F4` exclude overlong forms, surrogates and everything
above `U+10FFFF`. -/
def utf8Lead (b : UInt8) : Option Utf8State :=
  if b < 0x80 then some .start
  else if b < 0xC2 then none
  else if b < 0xE0 then some ⟨1, 0x80, 0xBF⟩
  else if b = 0xE0 then some ⟨2, 0xA0, 0xBF⟩
  else if b = 0xED then some ⟨2, 0x80, 0x9F⟩
  else if b < 0xF0 then some ⟨2, 0x80, 0xBF⟩
  else if b = 0xF0 then some ⟨3, 0x90, 0xBF⟩
  else if b < 0xF4 then some ⟨3, 0x80, 0xBF⟩
  else if b = 0xF4 then some ⟨3, 0x80, 0x8F⟩
  else none

/-- Read on from a state to the end of the text. -/
def utf8From : Utf8State → List UInt8 → Bool
  | st, [] => st.owed == 0
  | ⟨0, _, _⟩, b :: bs =>
      match utf8Lead b with
      | none => false
      | some st => utf8From st bs
  | ⟨n + 1, low, high⟩, b :: bs =>
      if low ≤ b ∧ b ≤ high then utf8From ⟨n, 0x80, 0xBF⟩ bs else false

/-- The text is well-formed UTF-8. -/
def utf8Valid (text : List UInt8) : Bool := utf8From .start text

/-- The ranges a reader can be in never reach down to an ASCII byte. -/
def Utf8State.Sound (st : Utf8State) : Prop := 0x80 ≤ st.low

instance (st : Utf8State) : Decidable st.Sound :=
  inferInstanceAs (Decidable (0x80 ≤ st.low))

private theorem sound_start : Utf8State.start.Sound := by decide

private theorem sound_of_utf8Lead {b : UInt8} {st : Utf8State} (h : utf8Lead b = some st) :
    st.Sound := by
  unfold utf8Lead at h
  split_ifs at h <;> cases h <;> decide

/-- **An ASCII byte is a character boundary.**  Reading a text through an ASCII
byte is reading the two sides separately. -/
private theorem utf8From_append_ascii {a : UInt8} (ascii : a < 0x80) (tail : List UInt8) :
    ∀ (text : List UInt8) (st : Utf8State), st.Sound →
      utf8From st (text ++ a :: tail) = (utf8From st text && utf8Valid tail) := by
  intro text
  induction text with
  | nil =>
      rintro ⟨n, low, high⟩ sound
      cases n with
      | zero => simp [utf8From, utf8Lead, ascii, utf8Valid]
      | succ n =>
          have below : ¬ low ≤ a := UInt8.not_le.mpr (UInt8.lt_of_lt_of_le ascii sound)
          simp [utf8From, below]
  | cons b text ih =>
      rintro ⟨n, low, high⟩ sound
      cases n with
      | zero =>
          simp only [List.cons_append, utf8From]
          cases lead : utf8Lead b with
          | none => rfl
          | some st => exact ih st (sound_of_utf8Lead lead)
      | succ n =>
          simp only [List.cons_append, utf8From]
          split
          · exact ih ⟨n, 0x80, 0xBF⟩ (UInt8.le_refl 0x80)
          · rfl

/-- A byte below 128 ends what was before it: both parts have to be valid by themselves. -/
theorem utf8Valid_append_ascii {a : UInt8} (ascii : a < 0x80) (text tail : List UInt8) :
    utf8Valid (text ++ a :: tail) = (utf8Valid text && utf8Valid tail) :=
  utf8From_append_ascii ascii tail text .start sound_start

/-- An ASCII prefix does not count. -/
theorem utf8Valid_ascii_append {pre : List UInt8} (ascii : ∀ b ∈ pre, b < 0x80)
    (text : List UInt8) : utf8Valid (pre ++ text) = utf8Valid text := by
  induction pre with
  | nil => rfl
  | cons a pre ih =>
      rw [List.forall_mem_cons] at ascii
      have split := utf8Valid_append_ascii ascii.1 [] (pre ++ text)
      rw [List.nil_append] at split
      rw [List.cons_append, split, ih ascii.2]
      rfl

theorem utf8Valid_of_ascii {text : List UInt8} (ascii : ∀ b ∈ text, b < 0x80) :
    utf8Valid text = true := by
  have h := utf8Valid_ascii_append ascii []
  rwa [List.append_nil] at h

/-! ## String literals

One character of a literal at a time: plain, an escape, or the end. -/

/-- Value of a hexadecimal digit, either case. -/
def hexDigit? (b : UInt8) : Option Nat :=
  if 0x30 ≤ b ∧ b ≤ 0x39 then some (b.toNat - 0x30)
  else if 0x41 ≤ b ∧ b ≤ 0x46 then some (b.toNat - 0x41 + 10)
  else if 0x61 ≤ b ∧ b ≤ 0x66 then some (b.toNat - 0x61 + 10)
  else none

/-- The UTF-16 code unit four hexadecimal digits name. -/
def hex4? (a b c d : UInt8) : Option Nat := do
  let a ← hexDigit? a
  let b ← hexDigit? b
  let c ← hexDigit? c
  let d ← hexDigit? d
  return ((a * 16 + b) * 16 + c) * 16 + d

/-- UTF-8 form of a code point. -/
def utf8Encode (u : Nat) : List UInt8 :=
  if u < 0x80 then [UInt8.ofNat u]
  else if u < 0x800 then [UInt8.ofNat (0xC0 + u / 64), UInt8.ofNat (0x80 + u % 64)]
  else if u < 0x10000 then
    [UInt8.ofNat (0xE0 + u / 4096), UInt8.ofNat (0x80 + u / 64 % 64),
      UInt8.ofNat (0x80 + u % 64)]
  else
    [UInt8.ofNat (0xF0 + u / 262144), UInt8.ofNat (0x80 + u / 4096 % 64),
      UInt8.ofNat (0x80 + u / 64 % 64), UInt8.ofNat (0x80 + u % 64)]

/-- The two-character escapes. -/
def escape? (e : UInt8) : Option UInt8 :=
  if e = 0x22 ∨ e = 0x5C ∨ e = 0x2F then some e
  else if e = 0x62 then some 0x08
  else if e = 0x66 then some 0x0C
  else if e = 0x6E then some 0x0A
  else if e = 0x72 then some 0x0D
  else if e = 0x74 then some 0x09
  else none

/-- A byte that stands for itself inside a string literal: neither the quote,
nor the backslash, nor a control byte. -/
def PlainByte (b : UInt8) : Prop := b ≠ 0x22 ∧ b ≠ 0x5C ∧ 0x20 ≤ b

instance (b : UInt8) : Decidable (PlainByte b) :=
  inferInstanceAs (Decidable (b ≠ 0x22 ∧ b ≠ 0x5C ∧ 0x20 ≤ b))

/-- `\uXXXX` behind its `\u`: a unit outside the surrogate range stands for
itself, a high surrogate needs a low one right behind it. -/
def unicodeEscape? : List UInt8 → Option (List UInt8 × List UInt8)
  | a :: b :: c :: d :: text =>
      match hex4? a b c d with
      | none => none
      | some u =>
          if u < 0xD800 ∨ 0xE000 ≤ u then some (utf8Encode u, text)
          else if 0xDC00 ≤ u then none
          else
            match text with
            | 0x5C :: 0x75 :: e :: f :: g :: h :: text =>
                match hex4? e f g h with
                | none => none
                | some v =>
                    if 0xDC00 ≤ v ∧ v < 0xE000 then
                      some (utf8Encode (0x10000 + (u - 0xD800) * 1024 + (v - 0xDC00)), text)
                    else none
            | _ => none
  | _ => none

/-- One character or escape of a string literal: the bytes it stands for and
the text behind it. -/
def char? : List UInt8 → Option (List UInt8 × List UInt8)
  | [] => none
  | b :: text =>
      if b = 0x5C then
        match text with
        | [] => none
        | e :: text =>
            if e = 0x75 then unicodeEscape? text
            else (escape? e).map fun c => ([c], text)
      else if PlainByte b then some ([b], text)
      else none

/-- A string literal behind its opening quote: the decoded bytes and the text
behind the closing quote. -/
def chars : Nat → List UInt8 → Option (List UInt8 × List UInt8)
  | 0, _ => none
  | _ + 1, 0x22 :: text => some ([], text)
  | n + 1, text =>
      (char? text).bind fun p => (chars n p.2).map fun q => (p.1 ++ q.1, q.2)

/-! ### Reading back what was spliced in -/

/-- A string goes on with its next character, unless that is a quote. -/
theorem chars_of_ne_quote {b : UInt8} (ne : b ≠ 0x22) (n : Nat) (text : List UInt8) :
    chars (n + 1) (b :: text) =
      (char? (b :: text)).bind fun p => (chars n p.2).map fun q => (p.1 ++ q.1, q.2) := by
  rw [chars]
  rintro text' h
  exact ne (List.cons.inj h).1

theorem char?_plain {b : UInt8} (plain : PlainByte b) (text : List UInt8) :
    char? (b :: text) = some ([b], text) := by
  simp [char?, plain, plain.2.1]

/-- **A literal of plain bytes is read back as it stands.** -/
theorem chars_append {s : List UInt8} (plain : ∀ b ∈ s, PlainByte b) (tail : List UInt8) :
    ∀ {n : Nat}, s.length < n → chars n (s ++ 0x22 :: tail) = some (s, tail) := by
  induction s with
  | nil =>
      intro n hn
      obtain ⟨m, rfl⟩ : ∃ m, n = m + 1 := ⟨n - 1, by simp at hn; omega⟩
      rfl
  | cons b s ih =>
      intro n hn
      rw [List.forall_mem_cons] at plain
      rw [List.length_cons] at hn
      obtain ⟨m, rfl⟩ : ∃ m, n = m + 1 := ⟨n - 1, by omega⟩
      rw [List.cons_append, chars_of_ne_quote plain.1.1, char?_plain plain.1]
      simp [ih plain.2 (by omega : s.length < m)]

/-- Whatever the fuel, a literal of plain bytes is read back as it stands or
not at all. -/
private theorem eq_of_chars_append {s : List UInt8} (plain : ∀ b ∈ s, PlainByte b)
    {tail : List UInt8} :
    ∀ {n : Nat} {p : List UInt8 × List UInt8},
      chars n (s ++ 0x22 :: tail) = some p → p = (s, tail) := by
  induction s with
  | nil =>
      intro n p h
      cases n with
      | zero => cases h
      | succ n => exact (Option.some.inj h).symm
  | cons b s ih =>
      intro n p h
      rw [List.forall_mem_cons] at plain
      cases n with
      | zero => cases h
      | succ n =>
          rw [List.cons_append, chars_of_ne_quote plain.1.1, char?_plain plain.1,
            Option.bind_some, Option.map_eq_some_iff] at h
          obtain ⟨q, hq, rfl⟩ := h
          rw [ih plain.2 hq]
          rfl

/-- What one step of `chars` takes off the text: the bytes it consumes against
the bytes they stand for.  Only a two-character escape may swallow a quote. -/
inductive Consumed : List UInt8 → List UInt8 → Prop where
  | plain {b : UInt8} : PlainByte b → Consumed [b] [b]
  | escape {e c : UInt8} : (e = 0x22 → c = 0x22) → Consumed [0x5C, e] [c]
  | unicode {raw decoded : List UInt8} :
      0x22 ∉ raw → decoded.length < raw.length → Consumed raw decoded

theorem ne_quote_of_hexDigit? {b : UInt8} {v : Nat} (h : hexDigit? b = some v) :
    b ≠ 0x22 := by
  rintro rfl
  cases h

theorem ne_quote_of_hex4? {a b c d : UInt8} {v : Nat} (h : hex4? a b c d = some v) :
    a ≠ 0x22 ∧ b ≠ 0x22 ∧ c ≠ 0x22 ∧ d ≠ 0x22 := by
  simp only [hex4?, Option.bind_eq_bind, Option.bind_eq_some_iff] at h
  obtain ⟨_, ha, _, hb, _, hc, _, hd, -⟩ := h
  exact ⟨ne_quote_of_hexDigit? ha, ne_quote_of_hexDigit? hb, ne_quote_of_hexDigit? hc,
    ne_quote_of_hexDigit? hd⟩

/-- A code point takes at most four bytes, which is less than any escape for it. -/
theorem length_utf8Encode_le (u : Nat) : (utf8Encode u).length ≤ 4 := by
  unfold utf8Encode
  split_ifs <;> simp

/-- An escape consumes more bytes than it stands for. -/
private theorem unicodeEscape?_consumed {text u t : List UInt8}
    (h : unicodeEscape? text = some (u, t)) :
    ∃ raw, text = raw ++ t ∧ Consumed (0x5C :: 0x75 :: raw) u := by
  unfold unicodeEscape? at h
  split at h
  · rename_i a b c d text
    cases hex : hex4? a b c d with
    | none => simp [hex] at h
    | some v =>
        obtain ⟨ha, hb, hc, hd⟩ := ne_quote_of_hex4? hex
        simp only [hex] at h
        split_ifs at h with bmp low
        · obtain ⟨rfl, rfl⟩ := Prod.mk.inj (Option.some.inj h)
          refine ⟨[a, b, c, d], rfl, .unicode ?_ ?_⟩
          · simp [ha.symm, hb.symm, hc.symm, hd.symm]
          · exact Nat.lt_of_le_of_lt (length_utf8Encode_le v) (by simp)
        · split at h
          · rename_i e f g i text
            cases hex' : hex4? e f g i with
            | none => simp [hex'] at h
            | some v' =>
                obtain ⟨he, hf, hg, hi⟩ := ne_quote_of_hex4? hex'
                simp only [hex'] at h
                split_ifs at h
                obtain ⟨rfl, rfl⟩ := Prod.mk.inj (Option.some.inj h)
                refine ⟨[a, b, c, d, 0x5C, 0x75, e, f, g, i], rfl, .unicode ?_ ?_⟩
                · simp [ha.symm, hb.symm, hc.symm, hd.symm, he.symm, hf.symm, hg.symm, hi.symm]
                · exact Nat.lt_of_le_of_lt (length_utf8Encode_le _) (by simp)
          · cases h
  · cases h

/-- The escape that stands for a quote is the one with a quote. -/
private theorem escape?_quote {c : UInt8} (h : escape? 0x22 = some c) : c = 0x22 := by
  simpa [escape?] using h.symm

/-- Every step of `chars` consumes in one of the three ways. -/
private theorem char?_consumed {text u t : List UInt8} (h : char? text = some (u, t)) :
    ∃ raw, text = raw ++ t ∧ Consumed raw u := by
  cases text with
  | nil => cases h
  | cons b text =>
      simp only [char?] at h
      split_ifs at h with backslash plain
      · subst backslash
        cases text with
        | nil => cases h
        | cons e text =>
            simp only at h
            split_ifs at h with unicode
            · subst unicode
              obtain ⟨raw, rfl, consumed⟩ := unicodeEscape?_consumed h
              exact ⟨_, rfl, consumed⟩
            · rw [Option.map_eq_some_iff] at h
              obtain ⟨c, hc, heq⟩ := h
              obtain ⟨rfl, rfl⟩ := Prod.mk.inj heq
              exact ⟨[0x5C, e], rfl, .escape fun quote => escape?_quote (quote ▸ hc)⟩
      · obtain ⟨rfl, rfl⟩ := Prod.mk.inj (Option.some.inj h)
        exact ⟨[b], rfl, .plain plain⟩

/-- What is read is no longer than what was consumed for it. -/
theorem Consumed.length_le {raw decoded : List UInt8} (h : Consumed raw decoded) :
    decoded.length ≤ raw.length := by
  cases h with
  | plain => simp
  | escape => simp
  | unicode _ short => omega

/-- If it is as long, then nothing was escaped. This is what makes the converse of
`chars_append` true. -/
theorem Consumed.plain_of_length_eq {raw decoded : List UInt8} (h : Consumed raw decoded)
    (same : decoded.length = raw.length) : ∀ b ∈ raw, PlainByte b := by
  cases h with
  | plain plain => simpa using plain
  | escape => simp at same
  | unicode _ short => omega

/-- A step that runs over a quote is the escape `\"`. -/
theorem Consumed.eq_escape_of_quote {s past decoded : List UInt8} (ne : s ≠ [])
    (h : Consumed (s ++ 0x22 :: past) decoded) :
    s = [0x5C] ∧ past = [] ∧ decoded = [0x22] := by
  obtain ⟨b, s, rfl⟩ := List.exists_cons_of_ne_nil ne
  generalize hraw : b :: s ++ 0x22 :: past = raw at h
  cases h with
  | plain =>
      have := congrArg List.length hraw
      simp at this
  | escape quote =>
      cases s with
      | nil =>
          simp only [List.cons_append, List.nil_append, List.cons.injEq] at hraw
          obtain ⟨rfl, rfl, rfl⟩ := hraw
          simp [quote rfl]
      | cons =>
          have := congrArg List.length hraw
          simp at this
  | unicode noQuote => exact absurd (hraw ▸ by simp) noQuote

/-- **What a reader makes of a spliced string.**  Reading `s ++ "\"" ++ tail`
either stops inside `s` or at the quote behind it, and then keeps the length of
`s` only if every byte of `s` is plain; or `s` ends in a backslash that turns
the quote into a character of the literal. -/
private theorem chars_splice {tail : List UInt8} :
    ∀ {n : Nat} {s v r : List UInt8}, chars n (s ++ 0x22 :: tail) = some (v, r) →
      (v.length ≤ s.length ∧ (v.length = s.length → ∀ b ∈ s, PlainByte b)) ∨
      ∃ s' v' v'' m, s = s' ++ [0x5C] ∧ v = v' ++ 0x22 :: v'' ∧ chars m tail = some (v'', r) := by
  intro n
  induction n with
  | zero => intro s v r h; cases h
  | succ n ih =>
      intro s v r h
      cases s with
      | nil =>
          obtain ⟨rfl, rfl⟩ := Prod.mk.inj (Option.some.inj h)
          exact Or.inl (by simp)
      | cons b s =>
          by_cases quote : b = 0x22
          · subst quote
            obtain ⟨rfl, rfl⟩ := Prod.mk.inj (Option.some.inj h)
            exact Or.inl (by simp)
          rw [List.cons_append, chars_of_ne_quote quote, Option.bind_eq_some_iff] at h
          obtain ⟨⟨u, t⟩, hchar, h⟩ := h
          rw [Option.map_eq_some_iff] at h
          obtain ⟨⟨w, r'⟩, hrest, heq⟩ := h
          obtain ⟨rfl, rfl⟩ := Prod.mk.inj heq
          obtain ⟨raw, hraw, consumed⟩ := char?_consumed hchar
          -- either the step stayed inside `s`, or it ran over the quote
          have split : (∃ rest, b :: s = raw ++ rest ∧ t = rest ++ 0x22 :: tail) ∨
              ∃ past, raw = b :: s ++ 0x22 :: past ∧ tail = past ++ t := by
            rw [← List.cons_append, List.append_eq_append_iff] at hraw
            rcases hraw with ⟨past, hover, htail⟩ | ⟨rest, hs, ht⟩
            · cases past with
              | nil => exact Or.inl ⟨[], by simpa using hover.symm, by simpa using htail.symm⟩
              | cons q past =>
                  rw [List.cons_append, List.cons.injEq] at htail
                  obtain ⟨rfl, htail⟩ := htail
                  exact Or.inr ⟨past, hover, htail⟩
            · exact Or.inl ⟨rest, hs, ht⟩
          rcases split with ⟨rest, hs, rfl⟩ | ⟨past, rfl, htail⟩
          · have hlen := consumed.length_le
            rw [hs]
            rcases ih hrest with ⟨hle, heq⟩ | ⟨s', v', v'', m, rfl, rfl, hm⟩
            · refine Or.inl ⟨by simp; omega, fun same => ?_⟩
              simp only [List.length_append] at same
              rw [List.forall_mem_append]
              exact ⟨consumed.plain_of_length_eq (by omega), heq (by omega)⟩
            · exact Or.inr ⟨raw ++ s', u ++ v', v'', m, by simp, by simp, hm⟩
          · obtain ⟨hs, rfl, rfl⟩ := consumed.eq_escape_of_quote (by simp)
            rw [List.nil_append] at htail
            exact Or.inr ⟨[], [], w, n, by simpa using hs, rfl, by rw [htail]; exact hrest⟩

/-- **A spliced string that is read back unchanged is plain.**  Behind its
closing quote stand a comma, a space and the quote that opens the next name, as
between any two members of an object. -/
private theorem plain_of_chars {n : Nat} {s tail r : List UInt8}
    (h : chars n (s ++ 0x22 :: 0x2C :: 0x20 :: 0x22 :: tail) = some (s, r)) :
    ∀ b ∈ s, PlainByte b := by
  rcases chars_splice h with ⟨-, same⟩ | ⟨s', v', v'', m, hs, hv, hm⟩
  · exact same rfl
  · have read : v'' = [0x2C, 0x20] := by
      have separator : ∀ b ∈ [0x2C, 0x20], PlainByte b := by decide +kernel
      exact congrArg Prod.fst (eq_of_chars_append separator hm)
    have last := congrArg List.getLast? (hs.symm.trans hv)
    simp [read] at last


/-! ## Values

The decoder, with fuel for the nesting. -/

/-- A JSON value.  A number is kept as its text. -/
inductive Value where
  | null
  | bool (b : Bool)
  | num (text : List UInt8)
  | str (s : List UInt8)
  | arr (elements : List Value)
  | obj (members : List (List UInt8 × Value))

/-- Insignificant whitespace: space, tab, line feed, carriage return. -/
def isWs (b : UInt8) : Bool := b == 0x20 || b == 0x09 || b == 0x0A || b == 0x0D

def skipWs (text : List UInt8) : List UInt8 := text.dropWhile isWs

def isDigit (b : UInt8) : Bool := 0x30 ≤ b && b ≤ 0x39

/-- One or more digits. -/
def digits? (text : List UInt8) : Option (List UInt8 × List UInt8) :=
  match text.span isDigit with
  | ([], _) => none
  | p => some p

/-- The optional fraction of a number. -/
def fraction? : List UInt8 → Option (List UInt8 × List UInt8)
  | 0x2E :: text => (digits? text).map fun p => (0x2E :: p.1, p.2)
  | text => some ([], text)

/-- The optional exponent of a number. -/
def exponent? : List UInt8 → Option (List UInt8 × List UInt8)
  | [] => some ([], [])
  | e :: text =>
      if e = 0x65 ∨ e = 0x45 then
        match text with
        | s :: rest =>
            if s = 0x2B ∨ s = 0x2D then (digits? rest).map fun p => (e :: s :: p.1, p.2)
            else (digits? text).map fun p => (e :: p.1, p.2)
        | [] => none
      else some ([], e :: text)

/-- `0`, or digits without a leading zero. -/
def integer? : List UInt8 → Option (List UInt8 × List UInt8)
  | 0x30 :: text => some ([0x30], text)
  | text => digits? text

/-- An unsigned number. -/
def unsigned? (text : List UInt8) : Option (List UInt8 × List UInt8) := do
  let (i, text) ← integer? text
  let (f, text) ← fraction? text
  let (e, text) ← exponent? text
  return (i ++ f ++ e, text)

def number? : List UInt8 → Option (List UInt8 × List UInt8)
  | 0x2D :: text => (unsigned? text).map fun p => (0x2D :: p.1, p.2)
  | text => unsigned? text

/-- `true`, `false`, `null` or a number. -/
def scalar? : List UInt8 → Option (Value × List UInt8)
  | 0x74 :: 0x72 :: 0x75 :: 0x65 :: text => some (.bool true, text)
  | 0x66 :: 0x61 :: 0x6C :: 0x73 :: 0x65 :: text => some (.bool false, text)
  | 0x6E :: 0x75 :: 0x6C :: 0x6C :: text => some (.null, text)
  | text => (number? text).map fun p => (.num p.1, p.2)

mutual

/-- A value at the front of the text. -/
def value : Nat → List UInt8 → Option (Value × List UInt8)
  | 0, _ => none
  | _ + 1, [] => none
  | n + 1, b :: text =>
      if b = 0x22 then (chars n text).map fun p => (.str p.1, p.2)
      else if b = 0x7B then
        if (skipWs text).head? = some 0x7D then some (.obj [], (skipWs text).tail)
        else (members n (skipWs text)).map fun p => (.obj p.1, p.2)
      else if b = 0x5B then
        if (skipWs text).head? = some 0x5D then some (.arr [], (skipWs text).tail)
        else (elements n (skipWs text)).map fun p => (.arr p.1, p.2)
      else scalar? (b :: text)

/-- The members of an object up to and including its closing brace. -/
def members : Nat → List UInt8 → Option (List (List UInt8 × Value) × List UInt8)
  | 0, _ => none
  | n + 1, text =>
      if text.head? = some 0x22 then
        (chars n text.tail).bind fun name =>
          if (skipWs name.2).head? = some 0x3A then
            (value n (skipWs (skipWs name.2).tail)).bind fun v =>
              if (skipWs v.2).head? = some 0x2C then
                (members n (skipWs (skipWs v.2).tail)).map fun ms =>
                  ((name.1, v.1) :: ms.1, ms.2)
              else if (skipWs v.2).head? = some 0x7D then
                some ([(name.1, v.1)], (skipWs v.2).tail)
              else none
          else none
      else none

/-- The elements of an array up to and including its closing bracket. -/
def elements : Nat → List UInt8 → Option (List Value × List UInt8)
  | 0, _ => none
  | n + 1, text =>
      (value n text).bind fun v =>
        if (skipWs v.2).head? = some 0x2C then
          (elements n (skipWs (skipWs v.2).tail)).map fun vs => (v.1 :: vs.1, vs.2)
        else if (skipWs v.2).head? = some 0x5D then some ([v.1], (skipWs v.2).tail)
        else none

end

/-- **The decoder**: the whole text is UTF-8 and is one value between
whitespace. -/
def decode (text : List UInt8) : Option Value :=
  if utf8Valid text then
    (value (text.length + 1) (skipWs text)).bind fun p =>
      if skipWs p.2 = [] then some p.1 else none
  else none

/-! ### Objects whose members are strings -/

/-- Leading whitespace is gone once a visible byte is reached. -/
theorem skipWs_cons {b : UInt8} (visible : isWs b = false) (text : List UInt8) :
    skipWs (b :: text) = b :: text := by
  simp [skipWs, visible]

theorem skipWs_space (text : List UInt8) : skipWs (0x20 :: text) = skipWs text := rfl

/-- **A member `"name": "…`** is read as its name, then the literal, then
either a comma and the other members or the closing brace. -/
theorem members_str {name : List UInt8} (plain : ∀ b ∈ name, PlainByte b) {n : Nat}
    (fuel : name.length ≤ n) (text : List UInt8) :
    members (n + 2) (0x22 :: (name ++ 0x22 :: 0x3A :: 0x20 :: 0x22 :: text)) =
      (chars n text).bind fun v =>
        if (skipWs v.2).head? = some 0x2C then
          (members (n + 1) (skipWs (skipWs v.2).tail)).map fun ms =>
            ((name, .str v.1) :: ms.1, ms.2)
        else if (skipWs v.2).head? = some 0x7D then
          some ([(name, .str v.1)], (skipWs v.2).tail)
        else none := by
  have hname := chars_append plain (0x3A :: 0x20 :: 0x22 :: text) (n := n + 1) (by omega)
  have hcolon : skipWs (0x3A :: 0x20 :: 0x22 :: text) = 0x3A :: 0x20 :: 0x22 :: text :=
    skipWs_cons (by decide) _
  have hquote : skipWs (0x20 :: 0x22 :: text) = 0x22 :: text :=
    (skipWs_space _).trans (skipWs_cons (by decide) _)
  rw [members, List.head?_cons, if_pos rfl, List.tail_cons, hname, Option.bind_some, hcolon,
    List.head?_cons, if_pos rfl, List.tail_cons, hquote, value, if_pos rfl]
  cases chars n text <;> rfl

/-- A member with a plain value, and a further member behind it. -/
theorem members_str_comma {name s : List UInt8} (plainName : ∀ b ∈ name, PlainByte b)
    (plain : ∀ b ∈ s, PlainByte b) {n : Nat} (fuelName : name.length ≤ n) (fuel : s.length < n)
    (text : List UInt8) :
    members (n + 2) (0x22 :: (name ++ 0x22 :: 0x3A :: 0x20 :: 0x22 ::
        (s ++ 0x22 :: 0x2C :: 0x20 :: 0x22 :: text))) =
      (members (n + 1) (0x22 :: text)).map fun ms => ((name, .str s) :: ms.1, ms.2) := by
  have hcomma : skipWs (0x2C :: 0x20 :: 0x22 :: text) = 0x2C :: 0x20 :: 0x22 :: text :=
    skipWs_cons (by decide) _
  have hquote : skipWs (0x20 :: 0x22 :: text) = 0x22 :: text :=
    (skipWs_space _).trans (skipWs_cons (by decide) _)
  rw [members_str plainName fuelName, chars_append plain _ fuel, Option.bind_some, hcomma,
    List.head?_cons, if_pos rfl, List.tail_cons, hquote]

/-- A member with a plain value, and the closing brace behind it. -/
theorem members_str_close {name s : List UInt8} (plainName : ∀ b ∈ name, PlainByte b)
    (plain : ∀ b ∈ s, PlainByte b) {n : Nat} (fuelName : name.length ≤ n) (fuel : s.length < n)
    (text : List UInt8) :
    members (n + 2) (0x22 :: (name ++ 0x22 :: 0x3A :: 0x20 :: 0x22 ::
        (s ++ 0x22 :: 0x20 :: 0x7D :: text))) = some ([(name, .str s)], text) := by
  have hbrace : skipWs (0x20 :: 0x7D :: text) = 0x7D :: text :=
    (skipWs_space _).trans (skipWs_cons (by decide) _)
  rw [members_str plainName fuelName, chars_append plain _ fuel, Option.bind_some, hbrace,
    List.head?_cons, if_neg (by decide), if_pos rfl, List.tail_cons]

/-- **A member that is read back with the string that was spliced into it** had
a plain one. -/
theorem plain_of_members {name s : List UInt8} (plainName : ∀ b ∈ name, PlainByte b) {n : Nat}
    (fuelName : name.length ≤ n) {text rest : List UInt8} {ms : List (List UInt8 × Value)}
    (h : members (n + 2) (0x22 :: (name ++ 0x22 :: 0x3A :: 0x20 :: 0x22 ::
        (s ++ 0x22 :: 0x2C :: 0x20 :: 0x22 :: text))) = some ((name, .str s) :: ms, rest)) :
    ∀ b ∈ s, PlainByte b := by
  rw [members_str plainName fuelName, Option.bind_eq_some_iff] at h
  obtain ⟨⟨v, r⟩, hchars, h⟩ := h
  have read : v = s := by
    split_ifs at h
    · rw [Option.map_eq_some_iff] at h
      obtain ⟨_, -, h⟩ := h
      exact Value.str.inj (Prod.mk.inj (List.cons.inj (Prod.mk.inj h).1).1).2
    · exact Value.str.inj (Prod.mk.inj (List.cons.inj (Prod.mk.inj (Option.some.inj h)).1).1).2
  exact plain_of_chars (read ▸ hchars)

/-- Reading UTF-8 across the end of one member and the name of the next. -/
theorem utf8Valid_append_member {name : List UInt8} (ascii : ∀ b ∈ name, b < 0x80)
    (s text : List UInt8) :
    utf8Valid (s ++ 0x22 :: 0x2C :: 0x20 :: 0x22 :: (name ++ 0x22 :: 0x3A :: 0x20 :: 0x22 :: text)) =
      (utf8Valid s && utf8Valid text) := by
  have between : utf8Valid (0x2C :: 0x20 :: 0x22 :: (name ++ 0x22 :: 0x3A :: 0x20 :: 0x22 :: text)) =
      utf8Valid text := by
    have all : ∀ b ∈ 0x2C :: 0x20 :: 0x22 :: (name ++ [0x22, 0x3A, 0x20, 0x22]), b < 0x80 := by
      intro b hb
      simp only [List.mem_cons, List.mem_append, List.not_mem_nil, or_false] at hb
      rcases hb with rfl | rfl | rfl | hb | rfl | rfl | rfl | rfl
      all_goals first | exact ascii _ hb | decide
    simpa using utf8Valid_ascii_append all text
  rw [utf8Valid_append_ascii (by decide), between]

/-- An object between its braces is its members. -/
theorem decode_obj {text : List UInt8} :
    decode (0x7B :: 0x20 :: 0x22 :: text) =
      if utf8Valid (0x22 :: text) then
        (members (text.length + 3) (0x22 :: text)).bind fun ms =>
          if skipWs ms.2 = [] then some (.obj ms.1) else none
      else none := by
  have hbrace : skipWs (0x7B :: 0x20 :: 0x22 :: text) = 0x7B :: 0x20 :: 0x22 :: text :=
    skipWs_cons (by decide) _
  have hquote : skipWs (0x20 :: 0x22 :: text) = 0x22 :: text :=
    (skipWs_space _).trans (skipWs_cons (by decide) _)
  have hutf8 : utf8Valid (0x7B :: 0x20 :: 0x22 :: text) = utf8Valid (0x22 :: text) :=
    utf8Valid_ascii_append (show ∀ b ∈ [0x7B, 0x20], b < 0x80 by decide +kernel) _
  have hvalue : value (text.length + 4) (0x7B :: 0x20 :: 0x22 :: text) =
      (members (text.length + 3) (0x22 :: text)).map fun p => (.obj p.1, p.2) := by
    rw [value, if_neg (by decide), if_pos rfl, hquote, List.head?_cons, if_neg (by decide)]
  rw [decode, hutf8, hbrace]
  simp only [List.length_cons, hvalue]
  cases members (text.length + 3) (0x22 :: text) <;> rfl

end HaasProxy.Json
