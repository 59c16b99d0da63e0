import HaasProxy.Lib.CString
import HaasProxy.Lib.Hex

/-!
# Hex dumps (`debug.c`)

`qhexoutput` writes a header and then a line for every 16 bytes: an offset, the bytes
in hexadecimal and the bytes as text.  The readers below take a line apart again,
with nothing but the width of its parts, and `qhexoutput_dumps` says that they find
all of the bytes.

## Design notes

The readers are defined first and know nothing of the writer: what is in front of the
colon, 16 columns of three characters, 16 characters behind a fixed separator.  `Dumps`
says what they are to find, so that the theorem says that a dump can be read, and not
that it equals some text that was derived from the code.

* `i` and `j` are `int`s, and so is their sum.  For a size below `2^31 - 16` nothing
  overflows, and this is the bound in the statements: the last line begins below the
  size, and 15 more bytes still fit in an `int`.
* The buffer of a line has 256 bytes and is not initialised.  Each line fills it from the
  beginning, and `%.*s` prints as much as was filled, so nothing else shows
  (`fills_hexLine`).
* In the last line the columns behind the data are blanks, and so are the characters.
  A reader that decodes columns stops there by itself.
-/

namespace HaasProxy

open Strtol CharBuffer

/-! ## The source -/

/-- `qoutputf` on a file: the texts written so far, one for each call, and what
`vfprintf` answers to the next. -/
def qoutputf (answers : Nat → Int) (written : List (List UInt8)) (text : List UInt8) :
    Int × List (List UInt8) :=
  (answers written.length, written ++ [text])

/-- `%d`. -/
def signed (i : Int) : List UInt8 :=
  if i < 0 then 0x2D :: decimal i.natAbs else decimal i.natAbs

/-- The header; `address` is `%p`. -/
def hexHeader (msg : CString) (size : Int) (address : List UInt8) : List UInt8 :=
  ascii "HexDebug '" ++ msg.bytes ++ ascii "': Size=" ++ signed size ++ ascii ", Data=" ++
    address ++ ascii "\n"

/-- A byte in hexadecimal, in the first inner loop.  The index is an `int`. -/
def hexColumn (data : Nat → UInt8) (size i : Int) (j : Nat) : List UInt8 :=
  if narrow (i + j) < size then
    ascii " " ++ hexadecimal 2 (data (narrow (i + j)).toNat).toNat
  else ascii "   "

/-- A byte as text, in the second inner loop. -/
def textByte (data : Nat → UInt8) (size i : Int) (j : Nat) : UInt8 :=
  if narrow (i + j) < size then
    let c := data (narrow (i + j)).toNat
    if c < 0x20 ∨ 0x7F ≤ c then 0x2E else c
  else 0x20

/-- `Buffer` at the end of the loop's body. -/
def hexLine (garbage data : Nat → UInt8) (size i : Int) : CharBuffer :=
  let buffer := (uninit garbage).sprintf (ascii "  0x" ++ hexadecimal 4 i.toNat ++ ascii ":")
  let buffer := (List.range 16).foldl (fun buffer j => buffer.sprintf (hexColumn data size i j))
    buffer
  let buffer := buffer.sprintf (ascii " = '")
  let buffer := (List.range 16).foldl (fun buffer j => buffer.put (textByte data size i j)) buffer
  buffer.sprintf (ascii "'")

/-- The loop.  There is no answer when `fuel` has run out, or when a store has left
the 256 bytes of `Buffer`. -/
def hexLoop (answers : Nat → Int) (garbage : Int → Nat → UInt8) (data : Nat → UInt8) (size : Int) :
    Nat → Int → List (List UInt8) → Option (List (List UInt8))
  | 0, _, _ => none
  | fuel + 1, i, written =>
      if i < size then
        match (hexLine (garbage i) data size i).printed? 256 with
        | none => none
        | some line =>
            let (_, written) := qoutputf answers written (line ++ ascii "\n")
            hexLoop answers garbage data size fuel (narrow (i + 16)) written
      else some written

/-- `qhexoutput`: `Back`, and what was written. -/
def qhexoutput (answers : Nat → Int) (garbage : Int → Nat → UInt8) (fuel : Nat) (msg : CString)
    (size : Int) (value : Option (Nat → UInt8)) (address : List UInt8)
    (written : List (List UInt8)) : Option (Int × List (List UInt8)) :=
  let (back, written) := qoutputf answers written (hexHeader msg size address)
  if 0 < back then
    match value with
    | none => some (back, written)
    | some data =>
        if 0 < size then
          (hexLoop answers garbage data size fuel 0 written).map fun written => (back, written)
        else some (back, written)
  else some (back, written)

/-! ## Reading a dump

By the width of the parts only.  A label is as long as the offset needs, so it is found
by its colon. -/

/-- What is in front of the colon. -/
def labelOf (line : List UInt8) : List UInt8 := line.takeWhile (· != 0x3A)

/-- The offset behind `  0x`. -/
def offsetOf (line : List UInt8) : Nat := value 16 ((labelOf line).drop 4)

/-- The 16 columns behind the colon. -/
def columnsOf (line : List UInt8) : List UInt8 := ((line.dropWhile (· != 0x3A)).drop 1).take 48

/-- The 16 characters behind the columns and ` = '`. -/
def textOf (line : List UInt8) : List UInt8 := ((line.dropWhile (· != 0x3A)).drop 53).take 16

/-- The bytes in columns of three characters, some of which are blank. -/
def decodeColumns : List UInt8 → List UInt8
  | _ :: high :: low :: columns =>
      if high = 0x20 ∧ low = 0x20 then decodeColumns columns
      else UInt8.ofNat (value 16 [high, low]) :: decodeColumns columns
  | _ => []

/-- **The lines of a complete dump** of `size` bytes. -/
structure Dumps (data : Nat → UInt8) (size : Nat) (lines : List (List UInt8)) : Prop where
  /-- One line for every sixteen bytes begun. -/
  count : lines.length = (size + 15) / 16
  /-- Each line says where its bytes begin. -/
  offset : ∀ k line, lines[k]? = some line →
    (labelOf line).take 4 = ascii "  0x" ∧ offsetOf line = 16 * k
  /-- The columns together are the data. -/
  bytes : (lines.flatMap fun line => decodeColumns (columnsOf line)) = (List.range size).map data
  /-- What is printable stands there as it is, for the rest a dot, or a blank behind the end. -/
  text : ∀ k line, lines[k]? = some line →
    textOf line = (List.range 16).map fun j =>
      if 16 * k + j < size then
        if 0x20 ≤ data (16 * k + j) ∧ data (16 * k + j) ≤ 0x7E then data (16 * k + j) else 0x2E
      else 0x20

/-! ## One line

A line is written from left to right into its buffer: the offset, sixteen columns, and the
text. Each piece has a fixed length, so it can be read back from its place. -/

section Line

variable {data : Nat → UInt8} {size : Int} {n i j k : Nat}

/-- The text of line `k`, as the loop leaves it in `Buffer`. -/
def lineText (data : Nat → UInt8) (size : Int) (k : Nat) : List UInt8 :=
  ascii "  0x" ++ hexadecimal 4 (16 * k) ++ ascii ":" ++
    (List.range 16).flatMap (hexColumn data size (16 * k : Nat)) ++ ascii " = '" ++
    (List.range 16).map (textByte data size (16 * k : Nat)) ++ ascii "'"

/-- The buffer of a line holds its text. All positions are written in order, so nothing
of what was in the buffer before shows. -/
theorem fills_hexLine (garbage : Nat → UInt8) :
    (hexLine garbage data size (16 * k : Nat)).Fills (lineText data size k) := by
  have offset := (fills_uninit garbage).sprintf
    (ascii "  0x" ++ hexadecimal 4 (16 * k) ++ ascii ":")
  have columns := offset.foldl_sprintf (List.range 16) (hexColumn data size (16 * k : Nat))
  have text := (columns.sprintf (ascii " = '")).foldl_put (List.range 16)
    (textByte data size (16 * k : Nat))
  rw [List.nil_append] at text
  exact text.sprintf (ascii "'")

/-- A number that fits in an `int` is not changed by being stored in one. -/
theorem narrow_of_small {v : Int} (low : 0 ≤ v) (high : v ≤ 2147483647) : narrow v = v := by
  unfold narrow
  rw [Int.bmod_def]
  split <;> omega

/-- A column is three bytes wide, with a value or without. -/
private theorem length_hexColumn (i : Int) : (hexColumn data size i j).length = 3 := by
  unfold hexColumn
  split
  · have two : (hexadecimal 2 (data (narrow (i + j)).toNat).toNat).length = 2 :=
      length_hexadecimal (UInt8.toNat_lt _)
    rw [List.length_append, two]
    rfl
  · rfl

theorem length_columns (i : Int) (js : List Nat) :
    (js.flatMap (hexColumn data size i)).length = 3 * js.length := by
  induction js with
  | nil => rfl
  | cons j js ih =>
      rw [List.flatMap_cons, List.length_append, length_hexColumn, ih, List.length_cons]
      omega

/-- The line with its offset and the rest apart. -/
theorem lineText_eq : lineText data size k =
    (ascii "  0x" ++ hexadecimal 4 (16 * k)) ++ 0x3A ::
      ((List.range 16).flatMap (hexColumn data size (16 * k : Nat)) ++ (ascii " = '" ++
        ((List.range 16).map (textByte data size (16 * k : Nat)) ++ ascii "'"))) := by
  simp [lineText, ascii]

/-- There is no colon in front of the columns. -/
theorem ne_colon_of_mem {b : UInt8} (mem : b ∈ ascii "  0x" ++ hexadecimal 4 n) :
    (b != 0x3A) = true := by
  rcases List.mem_append.mp mem with front | digit
  · have plain : (ascii "  0x").all (fun b => b != 0x3A) = true := by decide
    exact List.all_eq_true.mp plain b front
  · have isDigit := isDigit_of_mem_hexadecimal digit
    refine bne_iff_ne.mpr ?_
    rintro rfl
    exact absurd isDigit (by decide)

/-- The label of a line is what is in front of the colon. -/
private theorem labelOf_line {rest : List UInt8} :
    labelOf ((ascii "  0x" ++ hexadecimal 4 n) ++ 0x3A :: rest) =
      ascii "  0x" ++ hexadecimal 4 n := by
  rw [labelOf, List.takeWhile_append_of_pos fun b mem => ne_colon_of_mem mem]
  simp

theorem dropWhile_line {rest : List UInt8} :
    ((ascii "  0x" ++ hexadecimal 4 n) ++ 0x3A :: rest).dropWhile (· != 0x3A) = 0x3A :: rest := by
  rw [List.dropWhile_append_of_pos fun b mem => ne_colon_of_mem mem]
  rfl

private theorem offsetOf_line {rest : List UInt8} :
    (labelOf ((ascii "  0x" ++ hexadecimal 4 n) ++ 0x3A :: rest)).take 4 = ascii "  0x" ∧
    offsetOf ((ascii "  0x" ++ hexadecimal 4 n) ++ 0x3A :: rest) = n := by
  rw [offsetOf, labelOf_line]
  exact ⟨rfl, value_hexadecimal 4 n⟩

/-! ### The columns

Each is two digits and a blank, or three blanks. -/

/-- A byte in two digits is read back, and is not blank. -/
private theorem decodeColumns_byte (c : UInt8) (rest : List UInt8) :
    decodeColumns (ascii " " ++ hexadecimal 2 c.toNat ++ rest) = c :: decodeColumns rest := by
  have length : (hexadecimal 2 c.toNat).length = 2 := length_hexadecimal (UInt8.toNat_lt _)
  obtain ⟨high, low, eq⟩ := List.length_eq_two.mp length
  have mem : high ∈ hexadecimal 2 c.toNat := by
    rw [eq]
    exact List.mem_cons_self
  have isDigit := isDigit_of_mem_hexadecimal mem
  have read := value_hexadecimal 2 c.toNat
  rw [eq] at read ⊢
  have notBlank : ¬ (high = 0x20 ∧ low = 0x20) := by
    rintro ⟨rfl, -⟩
    exact absurd isDigit (by decide)
  change decodeColumns (0x20 :: high :: low :: rest) = _
  rw [decodeColumns, if_neg notBlank, read, UInt8.ofNat_toNat]

private theorem decodeColumns_blank (rest : List UInt8) :
    decodeColumns (ascii "   " ++ rest) = decodeColumns rest := by
  change decodeColumns (0x20 :: 0x20 :: 0x20 :: rest) = _
  rw [decodeColumns, if_pos ⟨rfl, rfl⟩]

/-- The columns of a line are read back, and the blank ones are left out. -/
private theorem decodeColumns_columns (small : n < 2147483632) (start : i < n) (js : List Nat)
    (within : ∀ j ∈ js, j < 16) :
    decodeColumns (js.flatMap (hexColumn data n i)) =
      ((js.map (i + ·)).filter (· < n)).map data := by
  induction js with
  | nil => rfl
  | cons j js ih =>
      have below := within j List.mem_cons_self
      have rest := ih fun j mem => within j (List.mem_cons_of_mem _ mem)
      have index : narrow ((i : Int) + j) = ((i + j : Nat) : Int) := by
        rw [narrow_of_small (by omega) (by omega), Int.natCast_add]
      rw [List.flatMap_cons, List.map_cons, hexColumn, index, Int.toNat_natCast]
      by_cases inside : i + j < n
      · rw [if_pos (Int.ofNat_lt.mpr inside), decodeColumns_byte, rest,
          List.filter_cons, if_pos (decide_eq_true inside), List.map_cons]
      · rw [if_neg (mt Int.ofNat_lt.mp inside), decodeColumns_blank, rest,
          List.filter_cons, if_neg (by simpa using inside)]

/-- What the text column shows of a byte: itself, a dot or a blank. -/
private theorem textByte_eq (small : n < 2147483632) (start : i < n) (below : j < 16) :
    textByte data n i j =
      if i + j < n then
        if 0x20 ≤ data (i + j) ∧ data (i + j) ≤ 0x7E then data (i + j) else 0x2E
      else 0x20 := by
  have index : narrow ((i : Int) + j) = ((i + j : Nat) : Int) := by
    rw [narrow_of_small (by omega) (by omega), Int.natCast_add]
  rw [textByte, index, Int.toNat_natCast]
  by_cases inside : i + j < n
  · rw [if_pos (Int.ofNat_lt.mpr inside), if_pos inside]
    have plain : (data (i + j) < 0x20 ∨ 0x7F ≤ data (i + j)) ↔
        ¬ (0x20 ≤ data (i + j) ∧ data (i + j) ≤ 0x7E) := by
      simp only [UInt8.lt_iff_toNat_lt, UInt8.le_iff_toNat_le, UInt8.reduceToNat]
      omega
    by_cases printable : 0x20 ≤ data (i + j) ∧ data (i + j) ≤ 0x7E
    · rw [if_pos printable]
      exact if_neg (mt plain.mp (not_not_intro printable))
    · rw [if_neg printable]
      exact if_pos (plain.mpr printable)
  · rw [if_neg (mt Int.ofNat_lt.mp inside), if_neg inside]

/-- A line is shorter than its buffer, which is 256 bytes long. -/
theorem length_lineText (small : n < 2147483632) (start : 16 * k < n) :
    (lineText data n k).length < 256 := by
  have label : (hexadecimal 4 (16 * k)).length ≤ 8 := length_hexadecimal_le (by omega) (by decide)
  have columns : ((List.range 16).flatMap (hexColumn data n (16 * k : Nat))).length = 48 :=
    length_columns _ _
  have fixed : (ascii "  0x").length = 4 ∧ (ascii ":").length = 1 ∧ (ascii " = '").length = 4 ∧
      (ascii "'").length = 1 := by decide
  simp only [lineText, List.length_append, columns, fixed, List.length_map, List.length_range]
  omega

theorem zero_notMem_hexadecimal {width : Nat} : 0 ∉ hexadecimal width n := by
  intro mem
  exact absurd (isDigit_of_mem_hexadecimal mem) (by decide)

/-- There is no zero byte in a line, so it ends where it was meant to. -/
private theorem zero_notMem_lineText : 0 ∉ lineText data size k := by
  have fixed : 0 ∉ ascii "  0x" ∧ 0 ∉ ascii ":" ∧ 0 ∉ ascii " = '" ∧ 0 ∉ ascii "'" ∧
      0 ∉ ascii " " ∧ 0 ∉ ascii "   " := by decide
  obtain ⟨front, colon, middle, last, space, blank⟩ := fixed
  have columns : 0 ∉ (List.range 16).flatMap (hexColumn data size (16 * k : Nat)) := by
    intro mem
    obtain ⟨j, -, zero⟩ := List.mem_flatMap.mp mem
    unfold hexColumn at zero
    split at zero
    · rcases List.mem_append.mp zero with zero | zero
      · exact space zero
      · exact zero_notMem_hexadecimal zero
    · exact blank zero
  have text : 0 ∉ (List.range 16).map (textByte data size (16 * k : Nat)) := by
    intro mem
    obtain ⟨j, -, zero⟩ := List.mem_map.mp mem
    unfold textByte at zero
    dsimp only at zero
    split_ifs at zero with inside control
    · exact absurd zero (by decide)
    · rw [zero] at control
      exact control (.inl (by decide))
    · exact absurd zero (by decide)
  simp only [lineText, List.mem_append, not_or]
  exact ⟨⟨⟨⟨⟨⟨front, zero_notMem_hexadecimal⟩, colon⟩, columns⟩, middle⟩, text⟩, last⟩

/-- What is printed of `Buffer`. -/
theorem printed_hexLine (garbage : Nat → UInt8) (small : n < 2147483632) (start : 16 * k < n) :
    (hexLine garbage data n (16 * k : Nat)).printed? 256 = some (lineText data n k) :=
  printed?_of_fills (fills_hexLine garbage) zero_notMem_lineText (length_lineText small start)

/-- **All writes of a line are inside its buffer.** -/
private theorem stores_hexLine (garbage : Nat → UInt8) (small : n < 2147483632)
    (start : 16 * k < n) :
    ∀ s ∈ (hexLine garbage data n (16 * k : Nat)).stores, s < 256 := by
  intro s mem
  exact Nat.lt_of_le_of_lt ((fills_hexLine garbage).stores_le s mem) (length_lineText small start)

end Line

/-! ## All lines

The loop writes the lines in order; put together, what the columns are decoded to is the
data again. -/

section Dump

variable {data : Nat → UInt8} {n k : Nat}

/-- What is written for line `k`. -/
def line (data : Nat → UInt8) (n k : Nat) : List UInt8 := lineText data n k ++ ascii "\n"

/-- **The loop** writes the lines that are left and ends. -/
theorem hexLoop_eq (answers : Nat → Int) (garbage : Int → Nat → UInt8) (small : n < 2147483632)
    (r : Nat) {fuel : Nat} (enough : r < fuel) (left : k + r = (n + 15) / 16)
    (written : List (List UInt8)) :
    hexLoop answers garbage data n fuel (16 * k : Nat) written =
      some (written ++ (List.range' k r).map (line data n)) := by
  induction r generalizing k fuel written with
  | zero =>
      obtain ⟨fuel, rfl⟩ : ∃ f, fuel = f + 1 := ⟨fuel - 1, by omega⟩
      have done : ¬ ((16 * k : Nat) : Int) < n := by omega
      rw [hexLoop, if_neg done, List.range'_zero, List.map_nil, List.append_nil]
  | succ r ih =>
      obtain ⟨fuel, rfl⟩ : ∃ f, fuel = f + 1 := ⟨fuel - 1, by omega⟩
      have start : 16 * k < n := by omega
      have next : narrow (((16 * k : Nat) : Int) + 16) = (16 * (k + 1) : Nat) := by
        rw [narrow_of_small (by omega) (by omega)]
        omega
      rw [hexLoop, if_pos (Int.ofNat_lt.mpr start), printed_hexLine _ small start, next]
      dsimp only [qoutputf]
      rw [ih (by omega) (by omega), List.range'_succ, List.map_cons, List.append_assoc,
        List.singleton_append]
      rfl

private theorem offsetOf_lineOf (k : Nat) :
    (labelOf (line data n k)).take 4 = ascii "  0x" ∧ offsetOf (line data n k) = 16 * k := by
  rw [line, lineText_eq, List.append_assoc, List.cons_append]
  exact offsetOf_line

/-- Its columns are the bytes from there on, as many as there are. -/
private theorem decode_line (small : n < 2147483632) (start : 16 * k < n) :
    decodeColumns (columnsOf (line data n k)) =
      (((List.range 16).map (16 * k + ·)).filter (· < n)).map data := by
  have length : ((List.range 16).flatMap (hexColumn data n (16 * k : Nat))).length = 48 :=
    length_columns _ _
  have below : ∀ j ∈ List.range 16, j < 16 := by
    intro j mem
    exact List.mem_range.mp mem
  rw [← decodeColumns_columns small start (List.range 16) below, columnsOf, line, lineText_eq,
    List.append_assoc, List.cons_append, dropWhile_line, List.drop_one, List.tail_cons,
    List.append_assoc, List.take_left' length]

/-- **The text column** of a line has a printable character as it is, a dot for any
other, and blanks where the data has ended. -/
private theorem textOf_line (small : n < 2147483632) (start : 16 * k < n) :
    textOf (line data n k) = (List.range 16).map fun j =>
      if 16 * k + j < n then
        if 0x20 ≤ data (16 * k + j) ∧ data (16 * k + j) ≤ 0x7E then data (16 * k + j) else 0x2E
      else 0x20 := by
  have length : ((List.range 16).flatMap (hexColumn data n (16 * k : Nat)) ++
      ascii " = '").length = 52 := by
    rw [List.length_append, length_columns]
    rfl
  have text : (List.range 16).map (textByte data n (16 * k : Nat)) = (List.range 16).map fun j =>
      if 16 * k + j < n then
        if 0x20 ≤ data (16 * k + j) ∧ data (16 * k + j) ≤ 0x7E then data (16 * k + j) else 0x2E
      else 0x20 := by
    apply List.map_congr_left
    intro j mem
    exact textByte_eq small start (List.mem_range.mp mem)
  have sixteen : ((List.range 16).map (textByte data n (16 * k : Nat))).length = 16 := by simp
  rw [textOf, line, lineText_eq, List.append_assoc, List.cons_append, dropWhile_line,
    List.drop_succ_cons, ← text, ← List.append_assoc, List.append_assoc, List.drop_left' length,
    List.append_assoc, List.take_left' sixteen]

/-- The indices below `n`, in runs of 16. -/
private theorem flatMap_runs (n m : Nat) :
    ((List.range m).flatMap fun k => ((List.range 16).map (16 * k + ·)).filter (· < n)) =
      (List.range (16 * m)).filter (· < n) := by
  induction m with
  | zero => rfl
  | succ m ih =>
      have split : List.range (16 * (m + 1)) =
          List.range (16 * m) ++ (List.range 16).map (16 * m + ·) := List.range_add
      have last : List.range (m + 1) = List.range m ++ [m] := List.range_succ
      rw [last, List.flatMap_append, ih, split, List.filter_append, List.flatMap_singleton]

/-- A bound on a range is as good as a shorter range. -/
private theorem filter_range {n m : Nat} (le : n ≤ m) :
    (List.range m).filter (· < n) = List.range n := by
  obtain ⟨d, rfl⟩ : ∃ d, m = n + d := ⟨m - n, by omega⟩
  rw [List.range_add, List.filter_append, List.filter_eq_self.mpr, List.filter_eq_nil_iff.mpr,
    List.append_nil]
  · intro i mem
    obtain ⟨j, -, rfl⟩ := List.mem_map.mp mem
    simp
  · intro i mem
    exact decide_eq_true (List.mem_range.mp mem)

/-- A line that was written is that of its number, and there is data for it. -/
theorem line_of_getElem? {text : List UInt8}
    (found : ((List.range ((n + 15) / 16)).map (line data n))[k]? = some text) :
    16 * k < n ∧ line data n k = text := by
  rw [List.getElem?_map, Option.map_eq_some_iff] at found
  obtain ⟨j, found, rfl⟩ := found
  obtain ⟨below, rfl⟩ := List.getElem?_eq_some_iff.mp found
  rw [List.length_range] at below
  rw [List.getElem_range]
  exact ⟨by omega, rfl⟩

/-- **The lines are a complete dump.** -/
theorem dumps_lines (data : Nat → UInt8) (small : n < 2147483632) :
    Dumps data n ((List.range ((n + 15) / 16)).map (line data n)) where
  count := by rw [List.length_map, List.length_range]
  offset k text found := by
    obtain ⟨-, rfl⟩ := line_of_getElem? found
    exact offsetOf_lineOf k
  bytes := by
    have each : ∀ k ∈ List.range ((n + 15) / 16), decodeColumns (columnsOf (line data n k)) =
        (((List.range 16).map (16 * k + ·)).filter (· < n)).map data := by
      intro k mem
      have below := List.mem_range.mp mem
      exact decode_line small (by omega)
    rw [List.flatMap_map, List.flatMap_congr each, ← List.map_flatMap, flatMap_runs,
      filter_range (by omega)]
  text k text found := by
    obtain ⟨start, rfl⟩ := line_of_getElem? found
    exact textOf_line small start

/-- **The hex dump is complete and reversible**: the loop ends, every store stays in
`Buffer`, and the lines behind the header are a complete dump of the bytes. -/
theorem qhexoutput_dumps (answers : Nat → Int) (garbage : Int → Nat → UInt8) (msg : CString)
    (data : Nat → UInt8) (address : List UInt8) (written : List (List UInt8)) (size : Int)
    (small : size < 2147483632) (header : 0 < answers written.length) :
    ∃ lines, Dumps data size.toNat lines ∧
      (∀ fuel, (size.toNat + 15) / 16 < fuel →
        qhexoutput answers garbage fuel msg size (some data) address written =
          some (answers written.length, written ++ hexHeader msg size address :: lines)) ∧
      ∀ k, 16 * k < size.toNat →
        ∀ s ∈ (hexLine (garbage (16 * k : Nat)) data size (16 * k : Nat)).stores, s < 256 := by
  obtain ⟨n, rfl⟩ | negative : (∃ n : Nat, size = n) ∨ size < 0 := by
    by_cases negative : size < 0
    · exact .inr negative
    · exact .inl ⟨size.toNat, by omega⟩
  · have short : n < 2147483632 := by omega
    rw [Int.toNat_natCast]
    refine ⟨_, dumps_lines data short, ?_, ?_⟩
    · intro fuel enough
      rw [qhexoutput]
      dsimp only [qoutputf]
      rw [if_pos header]
      by_cases positive : 0 < (n : Int)
      · have loop : hexLoop answers garbage data n fuel 0
            (written ++ [hexHeader msg n address]) = _ :=
          hexLoop_eq answers garbage short _ enough (Nat.zero_add _) _
        rw [if_pos positive, loop, List.range_eq_range', List.append_assoc, List.singleton_append]
        rfl
      · obtain rfl : n = 0 := by omega
        rw [if_neg positive]
        rfl
    · intro k start
      exact stores_hexLine _ short start
  · have zero : size.toNat = 0 := by omega
    rw [zero]
    refine ⟨_, dumps_lines data (by decide), ?_, ?_⟩
    · intro fuel _
      rw [qhexoutput]
      dsimp only [qoutputf]
      rw [if_pos header, if_neg (by omega)]
      rfl
    · intro k start
      exact absurd start (Nat.not_lt_zero _)

/-- A text of 17 bytes, three of them not printable. -/
def request (i : Nat) : UInt8 := (ascii "GET / HTTP/1.0\r\n\r").getD i 0

/-- The conditions can be met: 17 bytes, on two lines. -/
theorem qhexoutput_request :
    ∃ lines, Dumps request 17 lines ∧
      (∀ fuel, 2 < fuel → qhexoutput (fun _ => 40) (fun _ _ => 0xCC) fuel
        ⟨ascii "data", by decide⟩ 17 (some request) (ascii "0x5581") [] =
          some (40, hexHeader ⟨ascii "data", by decide⟩ 17 (ascii "0x5581") :: lines)) ∧
      ∀ k, 16 * k < 17 →
        ∀ s ∈ (hexLine (fun _ => 0xCC) request 17 (16 * k : Nat)).stores, s < 256 :=
  qhexoutput_dumps (fun _ => 40) (fun _ _ => 0xCC) ⟨ascii "data", by decide⟩ request
    (ascii "0x5581") [] 17 (by decide) (by decide)

end Dump

end HaasProxy
