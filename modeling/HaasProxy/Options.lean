import HaasProxy.Config
import HaasProxy.Lib.Strtol

/-!
# Numeric options (`config.c`)

`ParseInt`, `ParsePort` and what `ConfigParse` does with the argument of `-m`.
A field that holds `-1` was not given yet.  All three store what `strtol` answers
in an `int` before they look at it, so a number that is out of range may pass as
another one; `exact_iff` says when none does.

## Where an option is not exact

`Exact` asks that an argument be accepted if and only if it is a numeral whose value
is in the range of the option, and that this value be stored.  The code fails this in
three ways, and in no other.

* A number outside of the range of `int` is cut down to 32 bits.  If what is left is
  positive, or one of the modes, it is accepted as that.
* `ParsePort` compares with `i>=65535`, so the last port is refused.
* The argument of `-m` is not tested for being empty, and `strtol` reads an empty
  text as 0 with nothing left over.

The condition of `exact_iff` lists these three.  It is a condition on the argument
alone, by the independent grammar of numerals in `Lib.Strtol`.
-/

namespace HaasProxy

open Strtol

/-! ## The source -/

/-- `ParseInt`: the value afterwards, and whether it was set. -/
def parseInt (value : Int) (optarg : CString) : Int × Bool :=
  if value ≠ -1 then (value, false)
  else
    let (i, p) := strtol optarg.bytes
    let i := narrow i
    if p ≠ [] then (value, false)
    else if i ≤ 0 then (value, false)
    else (i, true)

/-- `ParsePort`. -/
def parsePort (value : Int) (optarg : CString) : Int × Bool :=
  let (i, back) := parseInt value optarg
  if back then
    if 65535 ≤ i then (value, false) else (i, true)
  else (value, false)

/-- The forward mode that an `int` stands for. -/
def forwardModeOf (i : Int) : Option ForwardMode :=
  if i = 0 then some .deny
  else if i = 1 then some .allow
  else if i = 2 then some .fake
  else if i = 3 then some .null
  else if i = 4 then some .echo
  else none

/-- The option `-m` of `ConfigParse`. -/
def parseForwardMode (mode : Option ForwardMode) (optarg : CString) : Option ForwardMode × Bool :=
  if mode ≠ none then (mode, false)
  else
    let (i, p) := strtol optarg.bytes
    let i := narrow i
    if p ≠ [] then (mode, false)
    else
      match forwardModeOf i with
      | none => (mode, false)
      | some m => (some m, true)

/-! ## What is to hold

`within?` reads an argument by the grammar of numerals, with exact arithmetic and with
nothing stored in an `int` on the way. -/

/-- The value of a numeral that is between two bounds. -/
def within? (low high : Int) (optarg : CString) : Option Int :=
  (numeral? optarg.bytes).filter fun v => low ≤ v ∧ v ≤ high

/-- What is to become of an unset `int`. -/
def settled (v : Option Int) : Int × Bool := v.elim (-1, false) fun v => (v, true)

/-- **Numeric options are accepted exactly**: each of the three succeeds on an
unset value if and only if the argument is one numeral whose exact value is in its
range, and stores that. -/
structure Exact (optarg : CString) : Prop where
  /-- `ParseInt`: from 1 to `INT_MAX`. -/
  int : parseInt (-1) optarg = settled (within? 1 2147483647 optarg)
  /-- `ParsePort`: from 1 to 65535. -/
  port : parsePort (-1) optarg = settled (within? 1 65535 optarg)
  /-- `ParseForwardMode`: the number of a mode. -/
  forwardMode : parseForwardMode none optarg =
    ((within? 0 4 optarg).bind forwardModeOf, (within? 0 4 optarg).isSome)

/-- The argument is a numeral out of the range of `int` that becomes a number from
0 on in an `int`. -/
def Wraps (optarg : CString) : Prop :=
  ∃ v, numeral? optarg.bytes = some v ∧ (v < -2147483648 ∨ 2147483647 < v) ∧
    0 ≤ narrow (saturate v)

section Exact

variable {optarg : CString}

/-- A number that fits in an `int` is stored as it is. -/
theorem narrow_of_int {v : Int} (low : -2147483648 ≤ v) (high : v ≤ 2147483647) :
    narrow (saturate v) = v := by
  unfold narrow saturate
  rw [Int.bmod_def]
  split <;> omega

theorem narrow_lt (v : Int) : narrow v ≤ 2147483647 := by
  unfold narrow
  rw [Int.bmod_def]
  split <;> omega

/-- A failure changes nothing. -/
theorem parseInt_failed {value : Int} (failed : (parseInt value optarg).2 = false) :
    (parseInt value optarg).1 = value := by
  unfold parseInt at failed ⊢
  split at failed
  · rename_i set
    rw [if_pos set]
  · rename_i unset
    rw [if_neg unset]
    dsimp only at failed ⊢
    split at failed
    · rename_i rest
      rw [if_pos rest]
    · rename_i all
      rw [if_neg all]
      split at failed
      · rename_i le
        rw [if_pos le]
      · cases failed

/-- A port that is not taken leaves the field as it was. -/
private theorem parsePort_failed {value : Int} (failed : (parsePort value optarg).2 = false) :
    (parsePort value optarg).1 = value := by
  unfold parsePort at failed ⊢
  dsimp only at failed ⊢
  split at failed
  · rename_i back
    rw [if_pos back]
    split at failed
    · rename_i above
      rw [if_pos above]
    · cases failed
  · rename_i back
    rw [if_neg back]

/-- A mode that is not taken leaves the field as it was. -/
private theorem parseForwardMode_failed {mode : Option ForwardMode}
    (failed : (parseForwardMode mode optarg).2 = false) :
    (parseForwardMode mode optarg).1 = mode := by
  unfold parseForwardMode at failed ⊢
  split at failed
  · rename_i set
    rw [if_pos set]
  · rename_i unset
    rw [if_neg unset]
    dsimp only at failed ⊢
    split at failed
    · rename_i rest
      rw [if_pos rest]
    · rename_i all
      rw [if_neg all]
      cases known : forwardModeOf (narrow (strtol optarg.bytes).1) with
      | none => rfl
      | some m =>
          rw [known] at failed
          cases failed

theorem strtol_of_numeral {v : Int} (numeral : numeral? optarg.bytes = some v) :
    strtol optarg.bytes = (saturate v, []) := by
  unfold numeral? at numeral
  split at numeral
  · rename_i scanned
    cases numeral
    rw [strtol, scanned]
  · cases numeral

/-- What `strtol` does not read to the end is empty, or something is left. -/
theorem strtol_of_none (none : numeral? optarg.bytes = none) :
    (strtol optarg.bytes).2 ≠ [] ∨ optarg.bytes = [] ∧ strtol optarg.bytes = (0, []) := by
  unfold numeral? at none
  unfold strtol
  cases scanned : scan optarg.bytes with
  | none =>
      by_cases empty : optarg.bytes = []
      · exact .inr ⟨empty, by rw [empty]⟩
      · exact .inl empty
  | some answer =>
      obtain ⟨v, rest⟩ := answer
      rw [scanned] at none
      cases rest with
      | nil => cases none
      | cons b rest => exact .inl (List.cons_ne_nil _ _)

/-! What the three do with a numeral, and with anything else. -/

/-- What `ParseInt` does with a numeral, by what is stored of it. -/
theorem parseInt_of_numeral {v : Int} (numeral : numeral? optarg.bytes = some v) :
    parseInt (-1) optarg =
      if narrow (saturate v) ≤ 0 then (-1, false) else (narrow (saturate v), true) := by
  simp [parseInt, strtol_of_numeral numeral]

theorem parseInt_of_none (none : numeral? optarg.bytes = none) :
    parseInt (-1) optarg = (-1, false) := by
  rcases strtol_of_none none with rest | ⟨-, eq⟩
  · simp [parseInt, rest]
  · simp [parseInt, eq, narrow]

theorem parsePort_of_numeral {v : Int} (numeral : numeral? optarg.bytes = some v) :
    parsePort (-1) optarg =
      if narrow (saturate v) ≤ 0 ∨ 65535 ≤ narrow (saturate v) then (-1, false)
      else (narrow (saturate v), true) := by
  rw [parsePort, parseInt_of_numeral numeral]
  by_cases le : narrow (saturate v) ≤ 0
  · simp [le]
  · by_cases above : 65535 ≤ narrow (saturate v) <;> simp [le, above]

/-- `ParsePort` refuses anything that is no numeral. -/
theorem parsePort_of_none (none : numeral? optarg.bytes = none) :
    parsePort (-1) optarg = (-1, false) := by
  rw [parsePort, parseInt_of_none none]
  rfl

/-- What becomes of the argument of `-m`, if it is a numeral. -/
theorem parseForwardMode_of_numeral {v : Int} (numeral : numeral? optarg.bytes = some v) :
    parseForwardMode none optarg =
      (forwardModeOf (narrow (saturate v)), (forwardModeOf (narrow (saturate v))).isSome) := by
  simp only [parseForwardMode, strtol_of_numeral numeral]
  cases forwardModeOf (narrow (saturate v)) <;> simp

theorem forwardModeOf_eq_none {i : Int} : forwardModeOf i = none ↔ i < 0 ∨ 4 < i := by
  unfold forwardModeOf
  split_ifs <;> simp <;> omega

theorem within?_of_numeral {v low high : Int} (numeral : numeral? optarg.bytes = some v) :
    within? low high optarg = if low ≤ v ∧ v ≤ high then some v else none := by
  rw [within?, numeral, Option.filter_some]
  simp

/-- **Without a numeral** all three refuse as they should, but for the empty argument of
`-m`. -/
private theorem exact_of_none (none : numeral? optarg.bytes = none) :
    Exact optarg ↔ optarg.bytes ≠ [] := by
  have outside (low high : Int) : within? low high optarg = Option.none := by
    rw [within?, none, Option.filter_none]
  constructor
  · rintro ⟨-, -, forwardMode⟩ empty
    have eq : strtol optarg.bytes = (0, []) := by
      rw [empty]
      rfl
    rw [outside] at forwardMode
    simp [parseForwardMode, eq, narrow, forwardModeOf] at forwardMode
  · intro some
    refine ⟨?_, ?_, ?_⟩
    · rw [parseInt_of_none none, outside]
      rfl
    · rw [parsePort_of_none none, outside]
      rfl
    · rcases strtol_of_none none with rest | ⟨empty, -⟩
      · rw [outside]
        simp [parseForwardMode, rest]
      · exact absurd empty some

/-- A numeral in the range of `int` is seen as it is. -/
private theorem exact_of_int {v : Int} (numeral : numeral? optarg.bytes = some v)
    (low : -2147483648 ≤ v) (high : v ≤ 2147483647) : Exact optarg ↔ v ≠ 65535 := by
  have same := narrow_of_int low high
  have port : parsePort (-1) optarg = settled (within? 1 65535 optarg) ↔ v ≠ 65535 := by
    rw [parsePort_of_numeral numeral, same, within?_of_numeral numeral]
    by_cases inside : 1 ≤ v ∧ v ≤ 65535
    · rw [if_pos inside]
      by_cases last : v = 65535
      · simp [last, settled]
      · have accepted : ¬ (v ≤ 0 ∨ 65535 ≤ v) := by omega
        simp [accepted, settled, last]
    · have refused : v ≤ 0 ∨ 65535 ≤ v := by omega
      have other : v ≠ 65535 := by
        rintro rfl
        exact inside ⟨by decide, by decide⟩
      simp [inside, refused, settled, other]
  refine ⟨fun exact => port.mp exact.port, fun other => ⟨?_, port.mpr other, ?_⟩⟩
  · rw [parseInt_of_numeral numeral, same, within?_of_numeral numeral]
    by_cases positive : v ≤ 0
    · have outside : ¬ (1 ≤ v ∧ v ≤ 2147483647) := by omega
      rw [if_pos positive, if_neg outside]
      rfl
    · rw [if_neg positive, if_pos ⟨by omega, high⟩]
      rfl
  · rw [parseForwardMode_of_numeral numeral, same, within?_of_numeral numeral]
    by_cases inside : 0 ≤ v ∧ v ≤ 4
    · have known : forwardModeOf v ≠ none := by
        rw [Ne, forwardModeOf_eq_none]
        omega
      rw [if_pos inside, Option.bind_some, Option.isSome_iff_ne_none.mpr known, Option.isSome_some]
    · have unknown : forwardModeOf v = none := forwardModeOf_eq_none.mpr (by omega)
      rw [if_neg inside, unknown]
      rfl

/-- A numeral out of the range of `int` is seen as another number. -/
private theorem exact_of_wide {v : Int} (numeral : numeral? optarg.bytes = some v)
    (wide : v < -2147483648 ∨ 2147483647 < v) : Exact optarg ↔ narrow (saturate v) < 0 := by
  have outside (low high : Int) (lower : 0 ≤ low) (upper : high ≤ 2147483647) :
      within? low high optarg = none := by
    rw [within?_of_numeral numeral, if_neg (by omega)]
  constructor
  · rintro ⟨int, -, forwardMode⟩
    rw [parseInt_of_numeral numeral, outside 1 2147483647 (by decide) (by decide)] at int
    rw [parseForwardMode_of_numeral numeral, outside 0 4 (by decide) (by decide)] at forwardMode
    have unknown : forwardModeOf (narrow (saturate v)) = none := congrArg Prod.fst forwardMode
    rw [forwardModeOf_eq_none] at unknown
    by_cases le : narrow (saturate v) ≤ 0
    · omega
    · rw [if_neg le] at int
      cases congrArg Prod.snd int
  · intro negative
    refine ⟨?_, ?_, ?_⟩
    · rw [parseInt_of_numeral numeral, outside 1 2147483647 (by decide) (by decide),
        if_pos (Int.le_of_lt negative)]
      rfl
    · rw [parsePort_of_numeral numeral, outside 1 65535 (by decide) (by decide),
        if_pos (.inl (Int.le_of_lt negative))]
      rfl
    · rw [parseForwardMode_of_numeral numeral, outside 0 4 (by decide) (by decide),
        forwardModeOf_eq_none.mpr (.inl negative)]
      rfl

/-- **Numeric options are accepted exactly unless one wraps**: the argument is not
out of the range of `int` and a number from 0 on in an `int`, it is not 65535, and
it is not empty. -/
theorem exact_iff (optarg : CString) :
    (Exact optarg ↔ ¬ Wraps optarg ∧ numeral? optarg.bytes ≠ some 65535 ∧ optarg.bytes ≠ []) ∧
    (∀ value, (parseInt value optarg).2 = false → (parseInt value optarg).1 = value) ∧
    (∀ value, (parsePort value optarg).2 = false → (parsePort value optarg).1 = value) ∧
    ∀ mode, (parseForwardMode mode optarg).2 = false → (parseForwardMode mode optarg).1 = mode := by
  refine ⟨?_, fun _ => parseInt_failed, fun _ => parsePort_failed, fun _ => parseForwardMode_failed⟩
  cases numeral : numeral? optarg.bytes with
  | none =>
      rw [exact_of_none numeral]
      simp [Wraps, numeral]
  | some v =>
      have nonempty : optarg.bytes ≠ [] := by
        intro empty
        rw [empty] at numeral
        cases numeral
      by_cases wide : v < -2147483648 ∨ 2147483647 < v
      · have other : v ≠ 65535 := by omega
        rw [exact_of_wide numeral wide]
        simp [Wraps, numeral, wide, other, nonempty]
      · rw [exact_of_int numeral (by omega) (by omega)]
        simp [Wraps, numeral, wide, nonempty]

end Exact

/-- The last port is refused, a number just above the range of `unsigned` is taken
for 1, and nothing at all for the mode `DENY`. -/
theorem lastPort_notExact : ¬ Exact ⟨ascii "65535", by decide⟩ ∧
    ¬ Exact ⟨ascii "4294967297", by decide⟩ ∧ ¬ Exact ⟨[], by decide⟩ := by
  refine ⟨?_, ?_, ?_⟩
  · intro exact
    exact absurd exact.port (by decide)
  · intro exact
    exact absurd exact.int (by decide)
  · intro exact
    exact absurd exact.forwardMode (by decide)

end HaasProxy
