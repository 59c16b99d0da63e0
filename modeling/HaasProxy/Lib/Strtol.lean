import Mathlib.Data.List.TakeWhile
import Mathlib.Data.Int.Order.Basic

/-!
# `strtol` with base 0

A numeral is blanks, a sign, a prefix and digits; the prefix says what the base is.
`strtol` answers the value of the longest numeral in front of a text, as near to it
as a `long` of 64 bits comes, and what follows the numeral.  Where there is none
it answers 0, and nothing has been read.

`numeral?` is the exact value of a text all of which is one numeral, and
`numeral?_eq_some_iff` says what these texts are.

## Design notes

The scanner is executable and follows the C library: skip blanks, take a sign, look
for `0x` or `0`, read digits.  `Numeral` is the grammar of the same texts, and knows
nothing of scanning.  That the two agree is what lets a caller's conditions be stated
by the grammar and computed by the scanner.

Two places need care.

* `0x` is a prefix only in front of a hexadecimal digit.  Otherwise the numeral is the
  single digit `0`, and the `x` is what follows it.
* The result is saturated to a `long` and only then stored in an `int` (`narrow`).
  The first step keeps the sign of a number, the second one does not.
-/

namespace HaasProxy.Strtol

/-! ## Texts -/

/-- `isspace`. -/
def isSpace (b : UInt8) : Bool := b == 0x20 || (0x09 ≤ b && b ≤ 0x0D)

/-- What a digit or a letter stands for. -/
def digit? (b : UInt8) : Option Nat :=
  if 0x30 ≤ b ∧ b ≤ 0x39 then some (b.toNat - 0x30)
  else if 0x61 ≤ b ∧ b ≤ 0x7A then some (b.toNat - 0x57)
  else if 0x41 ≤ b ∧ b ≤ 0x5A then some (b.toNat - 0x37)
  else none

def isDigit (base : Nat) (b : UInt8) : Bool := (digit? b).any fun d => d < base

/-- The value of digits. -/
def value (base : Nat) (digits : List UInt8) : Nat :=
  digits.foldl (fun n b => n * base + (digit? b).getD 0) 0

/-- Whether there is a minus, and what follows the sign. -/
def sign (s : List UInt8) : Bool × List UInt8 :=
  if s.head? = some 0x2D then (true, s.tail)
  else if s.head? = some 0x2B then (false, s.tail)
  else (false, s)

/-- The base, and what follows the prefix.  `0x` is a prefix only in front of a
digit. -/
def radix (s : List UInt8) : Nat × List UInt8 :=
  if s.head? = some 0x30 then
    if (s.tail.head? = some 0x78 ∨ s.tail.head? = some 0x58) ∧
        (s.tail.tail.head?).any (isDigit 16) then (16, s.tail.tail)
    else (8, s)
  else (10, s)

/-- The longest numeral in front of a text, and what follows it. -/
def scan (s : List UInt8) : Option (Int × List UInt8) :=
  let (negative, s) := sign (s.dropWhile isSpace)
  let (base, s) := radix s
  let digits := s.takeWhile (isDigit base)
  if digits = [] then none
  else
    let n : Int := value base digits
    some (if negative then -n else n, s.dropWhile (isDigit base))

/-- The `long` next to a number. -/
def saturate (v : Int) : Int := max (-9223372036854775808) (min v 9223372036854775807)

/-- `strtol(s,&p,0)`, with what `p` points to. -/
def strtol (s : List UInt8) : Int × List UInt8 :=
  match scan s with
  | none => (0, s)
  | some (v, rest) => (saturate v, rest)

/-- A `long` stored in an `int`. -/
def narrow (i : Int) : Int := i.bmod 4294967296

/-! ## Numerals

What is accepted, said without the function: blanks, a sign, a prefix for the base, and
digits up to the end of the text. -/

/-- The exact value of a text that is one numeral. -/
def numeral? (s : List UInt8) : Option Int :=
  match scan s with
  | some (v, []) => some v
  | _ => none

/-- **Texts that `strtol` reads to the end**: blanks, a sign, a prefix and digits of
the base that the prefix stands for. -/
inductive Numeral : List UInt8 → Int → Prop
  | intro (blanks sgn pre digits : List UInt8) (negative : Bool) (base : Nat)
      (spaces : ∀ b ∈ blanks, isSpace b) (digital : ∀ b ∈ digits, isDigit base b)
      (nonempty : digits ≠ [])
      (signed : sgn = [0x2D] ∧ negative = true ∨ (sgn = [0x2B] ∨ sgn = []) ∧ negative = false)
      (based : base = 16 ∧ (pre = [0x30, 0x78] ∨ pre = [0x30, 0x58]) ∨
        pre = [] ∧ (base = 8 ∧ digits.head? = some 0x30 ∨ base = 10 ∧ digits.head? ≠ some 0x30)) :
      Numeral (blanks ++ sgn ++ pre ++ digits)
        (if negative then -(value base digits : Int) else value base digits)

section Numerals

variable {s rest digits : List UInt8} {b : UInt8} {base : Nat} {v : Int}

private theorem le_of_isDigit (digit : isDigit base b) : 0x30 ≤ b := by
  unfold isDigit digit? at digit
  split_ifs at digit with dec lower upper
  · exact dec.1
  · exact UInt8.le_trans (by decide) lower.1
  · exact UInt8.le_trans (by decide) upper.1
  · cases digit

private theorem not_isSpace (le : 0x21 ≤ b) : isSpace b = false := by
  unfold isSpace
  rw [UInt8.le_iff_toNat_le] at le
  have ne : b ≠ 0x20 := by
    rintro rfl
    exact absurd le (by decide)
  have above : ¬ b ≤ 0x0D := by
    rw [UInt8.le_iff_toNat_le]
    exact fun below => absurd (Nat.le_trans le below) (by decide)
  simp [ne, above]

/-- White space in front of a text is skipped, and no more than that. -/
private theorem dropWhile_blanks {blanks : List UInt8} (spaces : ∀ b ∈ blanks, isSpace b)
    (start : ∀ b, rest.head? = some b → isSpace b = false) :
    (blanks ++ rest).dropWhile isSpace = rest := by
  rw [List.dropWhile_append_of_pos spaces]
  cases rest with
  | nil => rfl
  | cons b rest => exact List.dropWhile_cons_of_neg (by simp [start b rfl])

/-- A sign in front of a text is read, and the text is left. -/
private theorem sign_append {sgn : List UInt8} {negative : Bool}
    (signed : sgn = [0x2D] ∧ negative = true ∨ (sgn = [0x2B] ∨ sgn = []) ∧ negative = false)
    (start : ∀ b, rest.head? = some b → 0x30 ≤ b) : sign (sgn ++ rest) = (negative, rest) := by
  rcases signed with ⟨rfl, rfl⟩ | ⟨rfl | rfl, rfl⟩
  · rfl
  · rfl
  · have minus : rest.head? ≠ some 0x2D := fun eq => absurd (start _ eq) (by decide)
    have plus : rest.head? ≠ some 0x2B := fun eq => absurd (start _ eq) (by decide)
    rw [List.nil_append, sign, if_neg minus, if_neg plus]

/-- The prefix of a numeral says its base. That `0x` needs a digit behind it is why
there must be one. -/
private theorem radix_append {pre : List UInt8} (digital : ∀ b ∈ digits, isDigit base b)
    (nonempty : digits ≠ [])
    (based : base = 16 ∧ (pre = [0x30, 0x78] ∨ pre = [0x30, 0x58]) ∨
      pre = [] ∧ (base = 8 ∧ digits.head? = some 0x30 ∨ base = 10 ∧ digits.head? ≠ some 0x30)) :
    radix (pre ++ digits) = (base, digits) := by
  obtain ⟨d, ds, rfl⟩ := List.exists_cons_of_ne_nil nonempty
  rcases based with ⟨rfl, rfl | rfl⟩ | ⟨rfl, ⟨rfl, zero⟩ | ⟨rfl, other⟩⟩
  · have hex : isDigit 16 d := digital d (.head _)
    simp [radix, hex]
  · have hex : isDigit 16 d := digital d (.head _)
    simp [radix, hex]
  · obtain rfl : d = 0x30 := Option.some.inj zero
    -- no letter is an octal digit
    have letters : ¬ (ds.head? = some 0x78 ∨ ds.head? = some 0x58) := by
      rintro (eq | eq)
      · have mem := List.mem_of_mem_head? (Option.mem_def.mpr eq)
        exact absurd (digital 0x78 (.tail _ mem)) (by decide)
      · have mem := List.mem_of_mem_head? (Option.mem_def.mpr eq)
        exact absurd (digital 0x58 (.tail _ mem)) (by decide)
    rw [List.nil_append, radix, if_pos zero]
    exact if_neg fun both => letters both.1
  · rw [List.nil_append, radix, if_neg other]

/-- Texts that are one numeral are read to the end. -/
private theorem scan_of_numeral (numeral : Numeral s v) : scan s = some (v, []) := by
  obtain ⟨blanks, sgn, pre, digits, negative, base, spaces, digital, nonempty, signed, based⟩ :=
    numeral
  have start : ∀ b, (pre ++ digits).head? = some b → 0x30 ≤ b := by
    intro b eq
    rcases based with ⟨-, rfl | rfl⟩ | ⟨rfl, -⟩
    · exact Option.some.inj eq ▸ UInt8.le_refl _
    · exact Option.some.inj eq ▸ UInt8.le_refl _
    · exact le_of_isDigit (digital b (List.mem_of_mem_head? (Option.mem_def.mpr eq)))
  have first : ∀ b, (sgn ++ (pre ++ digits)).head? = some b → isSpace b = false := by
    intro b eq
    rcases signed with ⟨rfl, -⟩ | ⟨rfl | rfl, -⟩
    · exact Option.some.inj eq ▸ by decide
    · exact Option.some.inj eq ▸ by decide
    · exact not_isSpace (UInt8.le_trans (by decide) (start b eq))
  have split : blanks ++ sgn ++ pre ++ digits = blanks ++ (sgn ++ (pre ++ digits)) := by
    simp only [List.append_assoc]
  have taken : digits.takeWhile (isDigit base) = digits :=
    List.takeWhile_eq_self_iff.mpr digital
  have left : digits.dropWhile (isDigit base) = [] := List.dropWhile_eq_nil_iff.mpr digital
  rw [split, scan, dropWhile_blanks spaces first]
  simp only [sign_append signed start, radix_append digital nonempty based, taken, left,
    if_neg nonempty]

private theorem eq_sign_append (s : List UInt8) : ∃ sgn, s = sgn ++ (sign s).2 ∧
    (sgn = [0x2D] ∧ (sign s).1 = true ∨ (sgn = [0x2B] ∨ sgn = []) ∧ (sign s).1 = false) := by
  unfold sign
  split_ifs with minus plus
  · obtain ⟨t, rfl⟩ := List.head?_eq_some_iff.mp minus
    exact ⟨[0x2D], rfl, .inl ⟨rfl, rfl⟩⟩
  · obtain ⟨t, rfl⟩ := List.head?_eq_some_iff.mp plus
    exact ⟨[0x2B], rfl, .inr ⟨.inl rfl, rfl⟩⟩
  · exact ⟨[], rfl, .inr ⟨.inr rfl, rfl⟩⟩

/-- And what was read as a prefix was one, or there was none. -/
private theorem eq_radix_append (s : List UInt8) : ∃ pre, s = pre ++ (radix s).2 ∧
    ((radix s).1 = 16 ∧ (pre = [0x30, 0x78] ∨ pre = [0x30, 0x58]) ∨
      pre = [] ∧ ((radix s).1 = 8 ∧ (radix s).2.head? = some 0x30 ∨
        (radix s).1 = 10 ∧ (radix s).2.head? ≠ some 0x30)) := by
  unfold radix
  split_ifs with zero hex
  · obtain ⟨t, rfl⟩ := List.head?_eq_some_iff.mp zero
    obtain ⟨x | x, -⟩ := hex
    · obtain ⟨u, rfl⟩ := List.head?_eq_some_iff.mp x
      exact ⟨[0x30, 0x78], rfl, .inl ⟨rfl, .inl rfl⟩⟩
    · obtain ⟨u, rfl⟩ := List.head?_eq_some_iff.mp x
      exact ⟨[0x30, 0x58], rfl, .inl ⟨rfl, .inr rfl⟩⟩
  · exact ⟨[], rfl, .inr ⟨rfl, .inl ⟨rfl, zero⟩⟩⟩
  · exact ⟨[], rfl, .inr ⟨rfl, .inr ⟨rfl, zero⟩⟩⟩

/-- What is read to the end is a numeral. -/
private theorem numeral_of_scan (all : scan s = some (v, [])) : Numeral s v := by
  obtain ⟨sgn, eqSign, signed⟩ := eq_sign_append (s.dropWhile isSpace)
  obtain ⟨pre, eqPre, based⟩ := eq_radix_append (sign (s.dropWhile isSpace)).2
  simp only [scan] at all
  have none : ¬ (radix (sign (s.dropWhile isSpace)).2).2.takeWhile
      (isDigit (radix (sign (s.dropWhile isSpace)).2).1) = [] := by
    intro none
    rw [if_pos none] at all
    cases all
  rw [if_neg none] at all
  obtain ⟨rfl, left⟩ := Prod.mk.inj (Option.some.inj all)
  have digital := List.dropWhile_eq_nil_iff.mp left
  rw [List.takeWhile_eq_self_iff.mpr digital] at none ⊢
  have split : s = s.takeWhile isSpace ++ sgn ++ pre ++
      (radix (sign (s.dropWhile isSpace)).2).2 := by
    rw [List.append_assoc, ← eqPre, List.append_assoc, ← eqSign, List.takeWhile_append_dropWhile]
  have numeral := Numeral.intro (s.takeWhile isSpace) sgn pre _ _ _
    (fun b mem => List.mem_takeWhile_imp mem) digital none signed based
  rw [← split] at numeral
  exact numeral

/-- **The exact value of a text is that of the numeral it is.** -/
theorem numeral?_eq_some_iff : numeral? s = some v ↔ Numeral s v := by
  constructor
  · intro value
    unfold numeral? at value
    split at value
    · rename_i scanned
      cases value
      exact numeral_of_scan scanned
    · cases value
  · intro numeral
    rw [numeral?, scan_of_numeral numeral]

end Numerals

end HaasProxy.Strtol
