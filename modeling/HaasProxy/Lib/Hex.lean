import HaasProxy.Lib.Strtol
import Mathlib.Data.Nat.Digits.Lemmas

/-!
# Hexadecimal output

`hexadecimal width` is `%0wx`, with as many digits as the number needs and at least
`width` of them.  `value_hexadecimal` reads it back.

The width is a minimum.  A number that needs more digits gets them, and everything
behind it in a text is shifted; so the length of a numeral is a statement with a
bound on the number (`length_hexadecimal`), and its value is one without.
-/

namespace HaasProxy

open Strtol

/-- The digit that stands for `d`. -/
def hexDigit (d : Nat) : UInt8 := UInt8.ofNat (if d < 10 then 0x30 + d else 0x57 + d)

/-- `%0wx` with `w` for `width`, which is not 0. -/
def hexadecimal (width n : Nat) : List UInt8 :=
  let digits := (Nat.digits 16 n).reverse.map hexDigit
  List.replicate (width - digits.length) 0x30 ++ digits

section Hex

variable {d n : Nat} {b : UInt8}

theorem digit?_hexDigit (lt : d < 16) : digit? (hexDigit d) = some d := by
  have all : ∀ d : Fin 16, digit? (hexDigit d) = some d.val := by decide
  exact all ⟨d, lt⟩

private theorem isDigit_hexDigit (lt : d < 16) : isDigit 16 (hexDigit d) := by
  simp [isDigit, digit?_hexDigit lt, lt]

theorem isDigit_of_mem_hexadecimal {width : Nat} (mem : b ∈ hexadecimal width n) :
    isDigit 16 b := by
  rcases List.mem_append.mp mem with padding | digit
  · rw [List.eq_of_mem_replicate padding]
    decide
  · obtain ⟨d, isDigit, rfl⟩ := List.mem_map.mp digit
    exact isDigit_hexDigit (Nat.digits_lt_base (by decide) (List.mem_reverse.mp isDigit))

/-- The value of a numeral is computed from left to right. -/
theorem value_append (digits more : List UInt8) :
    value 16 (digits ++ more) =
      more.foldl (fun n b => n * 16 + (digit? b).getD 0) (value 16 digits) :=
  List.foldl_append

private theorem value_zeros (k : Nat) : value 16 (List.replicate k 0x30) = 0 := by
  induction k with
  | zero => rfl
  | succ k ih =>
      rw [List.replicate_succ', value_append, ih]
      rfl

/-- Digits in the order of their weights are the number that they were taken from. -/
private theorem value_digits (digits : List Nat) (small : ∀ d ∈ digits, d < 16) :
    value 16 (digits.reverse.map hexDigit) = Nat.ofDigits 16 digits := by
  induction digits with
  | nil => rfl
  | cons d digits ih =>
      have rest := ih fun d mem => small d (List.mem_cons_of_mem _ mem)
      have last := digit?_hexDigit (small d List.mem_cons_self)
      rw [List.reverse_cons, List.map_append, value_append, rest, Nat.ofDigits_cons]
      simp only [List.map_cons, List.map_nil, List.foldl_cons, List.foldl_nil, last,
        Option.getD_some]
      omega

/-- **Hexadecimal output is read back.** -/
theorem value_hexadecimal (width n : Nat) : value 16 (hexadecimal width n) = n := by
  have small : ∀ d ∈ Nat.digits 16 n, d < 16 := by
    intro d mem
    exact Nat.digits_lt_base (by decide) mem
  have digits := value_digits (Nat.digits 16 n) small
  rw [Nat.ofDigits_digits] at digits
  rw [hexadecimal, value_append, value_zeros]
  exact digits

/-- A number that fits in the width has a numeral of that width. -/
theorem length_hexadecimal {width : Nat} (lt : n < 16 ^ width) :
    (hexadecimal width n).length = width := by
  have le : (Nat.digits 16 n).length ≤ width := (Nat.digits_length_le_iff (by decide) n).mpr lt
  simp only [hexadecimal, List.length_append, List.length_replicate, List.length_map,
    List.length_reverse]
  omega

/-- And one that fits in more digits than the width has no more than those. -/
theorem length_hexadecimal_le {width k : Nat} (lt : n < 16 ^ k) (le : width ≤ k) :
    (hexadecimal width n).length ≤ k := by
  have digits : (Nat.digits 16 n).length ≤ k := (Nat.digits_length_le_iff (by decide) n).mpr lt
  simp only [hexadecimal, List.length_append, List.length_replicate, List.length_map,
    List.length_reverse]
  omega

end Hex

end HaasProxy
