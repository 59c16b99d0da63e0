import HaasProxy.Options

/-!
# The command line (`config.c`)

`ConfigParse` takes what `getopt` answers one after another, stops at the first
error, and fills in the defaults at the end.  What it means is said without any
order by `Valid` and `reference`: which options may occur, and what every field
becomes.  `configParse_meaning` says that this is what `ConfigParse` computes.

## Main definitions

* `configStep`, `configLoop`, `configDefaults`, `configParse` — the source;
* `Valid`, `reference` — what it is for, field by field;
* `Config.Usable` — what the proxy needs of a configuration.

## Design notes

`ConfigParse` keeps no list of the options it has seen.  A field that still holds its
mark, `-1` or `NULL`, was not given; an option whose field has lost the mark is a
second one, and an error.  So everything rests on no argument ever storing the mark:

* `parseInt` and `parsePort` refuse what is not positive, hence `-1`;
* `setString` stores a pointer that is not `NULL`;
* `parseForwardMode` stores a number between 0 and 4.

`Once` says this of a check, with nothing about the field it is for, and each of the
three is shown to be one.  The loop is then a fold that only collects arguments
(`gathered`), and the order of the options is gone.

The defaults are filled in behind the loop and by the same marks.  That an option was
given with the value of its default makes no difference, therefore, and a field with a
default is never at its mark when the program starts.
-/

namespace HaasProxy

open Strtol
open scoped List

/-! ## The source

The loop over the options, the defaults behind it, and the check that a token was given. -/

/-- The options with an argument. -/
inductive OptionName where
  | p | a | r | b | t | k | i | s | u | n | c | m
  deriving DecidableEq

/-- What `getopt` answers; `optopt` is the character of the option. -/
inductive GetoptAnswer where
  /-- `-f`, foreground. -/
  | f
  /-- `-d`, once more verbose. -/
  | d
  /-- `-h`, help. -/
  | h
  | withArgument (option : OptionName) (optarg : CString)
  /-- `':'`: the argument is missing. -/
  | missing (optopt : UInt8)
  /-- `'?'`: there is no such option, or it is `?` itself. -/
  | question (optopt : UInt8)
  deriving DecidableEq

/-- An option that sets a string. -/
def setString (field : Option CString) (optarg : CString) : Option CString × Bool :=
  if field ≠ none then (field, false) else (some optarg, true)

/-- The `switch` of `ConfigParse`; the answer is `Back`. -/
def configStep (config : Config) : GetoptAnswer → Config × Bool
  | .f => ({ config with foreground := true }, true)
  | .d => ({ config with debugLevel := config.debugLevel + 1 }, true)
  | .h => ({ config with wantHelp := true }, true)
  | .withArgument .p optarg =>
      let (value, back) := parsePort config.trapPort optarg
      ({ config with trapPort := value }, back)
  | .withArgument .a optarg =>
      let (value, back) := setString config.haasAddr optarg
      ({ config with haasAddr := value }, back)
  | .withArgument .r optarg =>
      let (value, back) := parsePort config.haasPort optarg
      ({ config with haasPort := value }, back)
  | .withArgument .b optarg =>
      let (value, back) := setString config.banner optarg
      ({ config with banner := value }, back)
  | .withArgument .t optarg =>
      let (value, back) := setString config.haasToken optarg
      ({ config with haasToken := value }, back)
  | .withArgument .k optarg =>
      let (value, back) := setString config.keysDir optarg
      ({ config with keysDir := value }, back)
  | .withArgument .i optarg =>
      let (value, back) := parseInt config.idleTimeout optarg
      ({ config with idleTimeout := value }, back)
  | .withArgument .s optarg =>
      let (value, back) := parseInt config.sessionTimeout optarg
      ({ config with sessionTimeout := value }, back)
  | .withArgument .u optarg =>
      let (value, back) := parseInt config.cpuUsage optarg
      ({ config with cpuUsage := value }, back)
  | .withArgument .n optarg =>
      let (value, back) := parseInt config.processNice optarg
      ({ config with processNice := value }, back)
  | .withArgument .c optarg =>
      let (value, back) := parseInt config.connLimit optarg
      ({ config with connLimit := value }, back)
  | .withArgument .m optarg =>
      let (value, back) := parseForwardMode config.forwardMode optarg
      ({ config with forwardMode := value }, back)
  | .missing _ => (config, false)
  | .question optopt =>
      if optopt = 0x3F then ({ config with wantHelp := true }, true) else (config, false)

/-- The loop of `ConfigParse`, which ends with the first error. -/
def configLoop (config : Config) : List GetoptAnswer → Config × Bool
  | [] => (config, true)
  | answer :: answers =>
      let (config, back) := configStep config answer
      if back then configLoop config answers else (config, false)

/-- `DEFAULT_TRAP_PORT`. -/
def defaultTrapPort : Int := 2222

/-- `DEFAULT_HAAS_HOST`. -/
def defaultHaasHost : CString := ⟨ascii "haas-app.nic.cz", by decide⟩

/-- `DEFAULT_HAAS_PORT`. -/
def defaultHaasPort : Int := 10000

/-- `DEFAULT_KEYS_FOLDER`. -/
def defaultKeysFolder : CString := ⟨ascii "/etc/HaaS/keys/", by decide⟩

/-- `DEFAULT_IDLE_TIMEOUT`. -/
def defaultIdleTimeout : Int := 30

/-- `DEFAULT_CONN_LIMIT`. -/
def defaultConnLimit : Int := 30

/-- `DEFAULT_BANNER_STR`. -/
def defaultBannerStr : CString := ⟨ascii "OpenSSH_7.2p2 Ubuntu-4ubuntu2.2", by decide⟩

/-- The end of `ConfigParse`: what was not given. -/
def configDefaults (config : Config) : Config :=
  { config with
    trapPort := if config.trapPort = -1 then defaultTrapPort else config.trapPort
    haasAddr := if config.haasAddr = none then some defaultHaasHost else config.haasAddr
    haasPort := if config.haasPort = -1 then defaultHaasPort else config.haasPort
    keysDir := if config.keysDir = none then some defaultKeysFolder else config.keysDir
    idleTimeout := if config.idleTimeout = -1 then defaultIdleTimeout else config.idleTimeout
    connLimit := if config.connLimit = -1 then defaultConnLimit else config.connLimit
    banner := if config.banner = none then some defaultBannerStr else config.banner
    forwardMode := if config.forwardMode = none then some .fake else config.forwardMode }

/-- `ConfigParse` on what `getopt` answers; `operands` says whether anything is left
of the command line behind the options. -/
def configParse (answers : List GetoptAnswer) (operands : Bool) (config : Config) :
    Config × Bool :=
  let (config, back) := configLoop config answers
  if config.wantHelp then (config, back)
  else if back then
    if operands then (config, false)
    else if config.haasToken = none then (config, false)
    else (configDefaults config, true)
  else (config, false)

/-! ## The reference

Nothing here mentions a state or an order: which arguments an option was given is a
function of the whole command line, and so is what becomes of the field. -/

/-- The arguments of an option, in the order they were given. -/
def arguments (option : OptionName) (answers : List GetoptAnswer) : List CString :=
  answers.filterMap fun answer =>
    match answer with
    | .withArgument o optarg => if o = option then some optarg else none
    | _ => none

/-- The check of the argument of an option, in isolation. -/
def OptionName.accepts (optarg : CString) : OptionName → Bool
  | p | r => (parsePort (-1) optarg).2
  | i | s | u | n | c => (parseInt (-1) optarg).2
  | m => (parseForwardMode none optarg).2
  | a | b | t | k => true

/-- Nothing but options that there are, and no help. -/
def GetoptAnswer.Plain : GetoptAnswer → Prop
  | h | missing _ | question _ => False
  | _ => True

/-- **The command lines that are valid.** -/
structure Valid (answers : List GetoptAnswer) (operands : Bool) : Prop where
  /-- No `-h`, and nothing that `getopt` complains of. -/
  plain : ∀ answer ∈ answers, answer.Plain
  /-- Nothing is left behind the options. -/
  operands : operands = false
  /-- No option is given twice. -/
  once : ∀ option, (arguments option answers).length ≤ 1
  /-- Every argument is one that its option accepts. -/
  accepted : ∀ option, ∀ optarg ∈ arguments option answers, option.accepts optarg
  /-- The token is given. -/
  token : arguments .t answers ≠ []

/-- What `ParseInt` makes of the only argument. -/
def intOf (arguments : List CString) (default : Int) : Int :=
  arguments.head?.elim default fun optarg => (parseInt (-1) optarg).1

/-- What `ParsePort` makes of the only argument. -/
def portOf (arguments : List CString) (default : Int) : Int :=
  arguments.head?.elim default fun optarg => (parsePort (-1) optarg).1

/-- What `-m` makes of the only argument. -/
def modeOf (arguments : List CString) (default : Option ForwardMode) : Option ForwardMode :=
  arguments.head?.elim default fun optarg => (parseForwardMode none optarg).1

/-- **The meaning of a valid command line.** -/
def reference (answers : List GetoptAnswer) : Config where
  wantHelp := false
  foreground := .f ∈ answers
  debugLevel := answers.count .d
  idleTimeout := intOf (arguments .i answers) defaultIdleTimeout
  sessionTimeout := intOf (arguments .s answers) (-1)
  cpuUsage := intOf (arguments .u answers) (-1)
  processNice := intOf (arguments .n answers) (-1)
  connLimit := intOf (arguments .c answers) defaultConnLimit
  trapLog := configInit.trapLog
  haasLog := configInit.haasLog
  trapPort := portOf (arguments .p answers) defaultTrapPort
  forwardMode := modeOf (arguments .m answers) (some .fake)
  banner := (arguments .b answers).head?.or (some defaultBannerStr)
  keysDir := (arguments .k answers).head?.or (some defaultKeysFolder)
  haasAddr := (arguments .a answers).head?.or (some defaultHaasHost)
  haasPort := portOf (arguments .r answers) defaultHaasPort
  haasToken := (arguments .t answers).head?

/-- What a proxy needs of its configuration. -/
structure Config.Usable (config : Config) : Prop where
  /-- A port to listen on; 65535 is not accepted. -/
  trapPort : 1 ≤ config.trapPort ∧ config.trapPort ≤ 65534
  /-- A port to connect to. -/
  haasPort : 1 ≤ config.haasPort ∧ config.haasPort ≤ 65534
  /-- A deadline that is not over at once. -/
  idleTimeout : 1 ≤ config.idleTimeout
  /-- At least one client is admitted. -/
  connLimit : 1 ≤ config.connLimit
  forwardMode : config.forwardMode ≠ none
  strings : config.trapLog ≠ none ∧ config.banner ≠ none ∧ config.keysDir ≠ none ∧
    config.haasAddr ≠ none ∧ config.haasToken ≠ none

/-! ## Fields that are given once

Several fields use the value -1, or none, for "not given", and refuse a second value. This
works as long as no accepted value is the mark itself, which is what `Once` asks for. -/

/-- A check that takes the mark `unset` for "not given": it refuses a field that was
given, and never stores the mark. -/
structure Once {α : Type} (unset : α) (check : α → CString → α × Bool) : Prop where
  /-- A second value is refused. -/
  again : ∀ value optarg, value ≠ unset → (check value optarg).2 = false
  /-- A first one that is accepted is not taken for "not given". -/
  sets : ∀ optarg, (check unset optarg).2 = true → (check unset optarg).1 ≠ unset

/-- What a field holds after its option was given with these arguments. -/
def fieldOf {α : Type} (unset : α) (check : α → CString → α × Bool) (given : List CString) : α :=
  given.head?.elim unset fun optarg => (check unset optarg).1

section Once

variable {α : Type} {unset : α} {check : α → CString → α × Bool}
variable {given : List CString} {optarg : CString}

/-- A field that was given is no longer at the mark for "not given". Without this a
second one of the same option would pass. -/
theorem Once.fieldOf_ne (once : Once unset check)
    (accepted : ∀ optarg ∈ given, (check unset optarg).2 = true) (some : given ≠ []) :
    fieldOf unset check given ≠ unset := by
  cases given with
  | nil => exact absurd rfl some
  | cons optarg given => exact once.sets optarg (accepted optarg List.mem_cons_self)

/-- A check that passes finds its field not given, and the argument passes on its
own. -/
theorem Once.unset_of_passed (once : Once unset check)
    (accepted : ∀ optarg ∈ given, (check unset optarg).2 = true)
    (passed : (check (fieldOf unset check given) optarg).2 = true) :
    given = [] ∧ (check unset optarg).2 = true := by
  by_cases empty : given = []
  · subst empty
    exact ⟨rfl, passed⟩
  · have refused := once.again _ optarg (once.fieldOf_ne accepted empty)
    rw [refused] at passed
    cases passed

/-- An integer that was stored for the first time is at least 1. -/
theorem parseInt_accepted (accepted : (parseInt (-1) optarg).2 = true) :
    1 ≤ (parseInt (-1) optarg).1 := by
  cases numeral : numeral? optarg.bytes with
  | none =>
      rw [parseInt_of_none numeral] at accepted
      cases accepted
  | some v =>
      rw [parseInt_of_numeral numeral] at accepted ⊢
      split at accepted
      · cases accepted
      · rename_i positive
        rw [if_neg positive]
        exact Int.not_le.mp positive

/-- And a port lies between 1 and 65534: the largest port is refused. -/
theorem parsePort_accepted (accepted : (parsePort (-1) optarg).2 = true) :
    1 ≤ (parsePort (-1) optarg).1 ∧ (parsePort (-1) optarg).1 ≤ 65534 := by
  cases numeral : numeral? optarg.bytes with
  | none =>
      rw [parsePort_of_none numeral] at accepted
      cases accepted
  | some v =>
      rw [parsePort_of_numeral numeral] at accepted ⊢
      split at accepted
      · cases accepted
      · rename_i inside
        rw [if_neg inside]
        dsimp only
        omega

/-- A number that was given is positive, so it is never mistaken for the mark `-1`. -/
theorem intOf_positive {default : Int}
    (accepted : ∀ optarg ∈ given, (parseInt (-1) optarg).2 = true) (some : given ≠ []) :
    1 ≤ intOf given default := by
  cases given with
  | nil => exact absurd rfl some
  | cons optarg given => exact parseInt_accepted (accepted optarg List.mem_cons_self)

/-- A port that was given is one of those below 65535. -/
theorem portOf_inside {default : Int}
    (accepted : ∀ optarg ∈ given, (parsePort (-1) optarg).2 = true) (some : given ≠ []) :
    1 ≤ portOf given default ∧ portOf given default ≤ 65534 := by
  cases given with
  | nil => exact absurd rfl some
  | cons optarg given => exact parsePort_accepted (accepted optarg List.mem_cons_self)

/-- `ParseInt` may be used for a field that is given once. -/
theorem parseInt_once : Once (-1) parseInt where
  again value optarg set := by
    rw [parseInt, if_pos set]
  sets optarg accepted := by
    have positive := parseInt_accepted accepted
    omega

theorem parsePort_once : Once (-1) parsePort where
  again value optarg set := by
    rw [parsePort, parseInt, if_pos set]
    rfl
  sets optarg accepted := by
    have positive := (parsePort_accepted accepted).1
    omega

/-- `ParseForwardMode` too, with no mode for "not given". -/
theorem parseForwardMode_once : Once none parseForwardMode where
  again mode optarg set := by
    rw [parseForwardMode, if_pos set]
  sets optarg accepted := by
    cases numeral : numeral? optarg.bytes with
    | none =>
        rcases strtol_of_none numeral with rest | ⟨-, eq⟩
        · simp [parseForwardMode, rest] at accepted
        · simp [parseForwardMode, eq, narrow, forwardModeOf]
    | some v =>
        rw [parseForwardMode_of_numeral numeral] at accepted ⊢
        exact Option.isSome_iff_ne_none.mp accepted

theorem setString_once : Once none setString where
  again field optarg set := by
    rw [setString, if_pos set]
  sets optarg accepted := by
    rw [setString, if_neg (not_not_intro rfl)]
    exact Option.some_ne_none _

end Once

/-! ## What was given so far

The state of the loop, told from the answers it has seen: what a field holds depends on
the arguments of its own option alone. -/

section Gathered

variable {answers : List GetoptAnswer} {answer : GetoptAnswer} {option : OptionName}

/-- `Config` in the loop, after these answers. -/
def gathered (answers : List GetoptAnswer) : Config where
  wantHelp := .h ∈ answers ∨ .question 0x3F ∈ answers
  foreground := .f ∈ answers
  debugLevel := answers.count .d
  idleTimeout := fieldOf (-1) parseInt (arguments .i answers)
  sessionTimeout := fieldOf (-1) parseInt (arguments .s answers)
  cpuUsage := fieldOf (-1) parseInt (arguments .u answers)
  processNice := fieldOf (-1) parseInt (arguments .n answers)
  connLimit := fieldOf (-1) parseInt (arguments .c answers)
  trapLog := configInit.trapLog
  haasLog := configInit.haasLog
  trapPort := fieldOf (-1) parsePort (arguments .p answers)
  forwardMode := fieldOf none parseForwardMode (arguments .m answers)
  banner := fieldOf none setString (arguments .b answers)
  keysDir := fieldOf none setString (arguments .k answers)
  haasAddr := fieldOf none setString (arguments .a answers)
  haasPort := fieldOf (-1) parsePort (arguments .r answers)
  haasToken := fieldOf none setString (arguments .t answers)

/-- The answers that the loop takes without an error. -/
structure Passed (answers : List GetoptAnswer) : Prop where
  /-- What `getopt` complains of, other than `-?` itself, is not there. -/
  known : ∀ answer ∈ answers, (∀ optopt, answer ≠ .missing optopt) ∧
    ∀ optopt, answer = .question optopt → optopt = 0x3F
  /-- No option is given twice. -/
  once : ∀ option, (arguments option answers).length ≤ 1
  /-- Every argument is accepted. -/
  accepted : ∀ option, ∀ optarg ∈ arguments option answers, option.accepts optarg

/-- What the loop takes next. -/
def Admits (answers : List GetoptAnswer) : GetoptAnswer → Prop
  | .withArgument option optarg => arguments option answers = [] ∧ option.accepts optarg
  | .missing _ => False
  | .question optopt => optopt = 0x3F
  | _ => True

/-- The arguments of an option are collected from left to right. -/
theorem arguments_append (option : OptionName) (answers later : List GetoptAnswer) :
    arguments option (answers ++ later) = arguments option answers ++ arguments option later :=
  List.filterMap_append

/-- An answer with an argument adds it to its own option. -/
theorem arguments_argument (option given : OptionName) (optarg : CString) :
    arguments option [.withArgument given optarg] = if given = option then [optarg] else [] := by
  unfold arguments
  split_ifs with same <;> simp [same]

theorem arguments_other (option : OptionName)
    (other : ∀ given optarg, answer ≠ .withArgument given optarg) :
    arguments option [answer] = [] := by
  cases answer with
  | withArgument given optarg => exact absurd rfl (other given optarg)
  | _ => rfl

/-- If the loop gets through all answers, it gets through the first ones. -/
theorem Passed.front {later : List GetoptAnswer} (passed : Passed (answers ++ later)) :
    Passed answers where
  known answer mem := passed.known answer (List.mem_append_left _ mem)
  once option := by
    have length := passed.once option
    rw [arguments_append, List.length_append] at length
    omega
  accepted option optarg mem := by
    refine passed.accepted option optarg ?_
    rw [arguments_append]
    exact List.mem_append_left _ mem

/-- If it gets through a list of answers, the last of them is admitted after the others. -/
theorem Passed.admits (passed : Passed (answers ++ [answer])) : Admits answers answer := by
  have known := passed.known answer (List.mem_append_right _ List.mem_cons_self)
  cases answer with
  | withArgument option optarg =>
      have eq : arguments option (answers ++ [.withArgument option optarg]) =
          arguments option answers ++ [optarg] := by
        rw [arguments_append, arguments_argument, if_pos rfl]
      have length := passed.once option
      rw [eq, List.length_append, List.length_singleton] at length
      constructor
      · exact List.eq_nil_of_length_eq_zero (by omega)
      · refine passed.accepted option optarg ?_
        rw [eq]
        exact List.mem_append_right _ List.mem_cons_self
  | missing optopt => exact absurd rfl (known.1 optopt)
  | question optopt => exact known.2 optopt rfl
  | f => trivial
  | d => trivial
  | h => trivial

/-- And conversely: an answer that is admitted may be appended. -/
theorem Passed.concat (passed : Passed answers) (admits : Admits answers answer) :
    Passed (answers ++ [answer]) where
  known a mem := by
    rcases List.mem_append.mp mem with mem | mem
    · exact passed.known a mem
    · obtain rfl := List.mem_singleton.mp mem
      constructor
      · intro optopt eq
        subst eq
        exact admits
      · intro optopt eq
        subst eq
        exact admits
  once option := by
    rw [arguments_append]
    cases answer with
    | withArgument given optarg =>
        rw [arguments_argument]
        split_ifs with same
        · subst same
          -- the option was not given before
          rw [admits.1]
          exact Nat.le_refl 1
        · rw [List.append_nil]
          exact passed.once option
    | _ =>
        rw [arguments_other option (by simp), List.append_nil]
        exact passed.once option
  accepted option optarg mem := by
    rw [arguments_append] at mem
    rcases List.mem_append.mp mem with earlier | now
    · exact passed.accepted option optarg earlier
    · cases answer with
      | withArgument given x =>
          rw [arguments_argument] at now
          by_cases same : given = option
          · rw [if_pos same] at now
            obtain rfl := List.mem_singleton.mp now
            rw [← same]
            exact admits.2
          · rw [if_neg same] at now
            cases now
      | _ =>
          rw [arguments_other option (by simp)] at now
          cases now

/-! ## The loop

One step of the loop is compared with one more answer in the reference.  The two
directions are separate lemmas, since a refused answer says nothing about the fields. -/

/-- **A step that goes on had an answer that is admitted.** Case by case, since each
option checks its own field. -/
private theorem configStep_refused (passed : Passed answers)
    (back : (configStep (gathered answers) answer).2 = true) : Admits answers answer := by
  cases answer with
  | withArgument option optarg =>
      have accepted := passed.accepted option
      cases option with
      | p => exact parsePort_once.unset_of_passed accepted back
      | r => exact parsePort_once.unset_of_passed accepted back
      | i => exact parseInt_once.unset_of_passed accepted back
      | s => exact parseInt_once.unset_of_passed accepted back
      | u => exact parseInt_once.unset_of_passed accepted back
      | n => exact parseInt_once.unset_of_passed accepted back
      | c => exact parseInt_once.unset_of_passed accepted back
      | m => exact parseForwardMode_once.unset_of_passed accepted back
      | a => exact setString_once.unset_of_passed accepted back
      | b => exact setString_once.unset_of_passed accepted back
      | t => exact setString_once.unset_of_passed accepted back
      | k => exact setString_once.unset_of_passed accepted back
  | missing optopt => cases back
  | question optopt =>
      by_cases help : optopt = 0x3F
      · exact help
      · rw [configStep, if_neg help] at back
        cases back
  | f => trivial
  | d => trivial
  | h => trivial

/-- **A step with an admitted answer** gathers it and goes on. Together with the last
lemma this makes the loop a fold that knows nothing of the order. -/
private theorem configStep_admitted (admits : Admits answers answer) :
    configStep (gathered answers) answer = (gathered (answers ++ [answer]), true) := by
  cases answer with
  | withArgument option optarg =>
      obtain ⟨empty, accepted⟩ := admits
      cases option <;>
        simp_all [configStep, gathered, arguments_append, arguments_argument, fieldOf,
          OptionName.accepts, setString]
  | missing optopt => cases admits
  | question optopt =>
      obtain rfl : optopt = 0x3F := admits
      simp [configStep, gathered, arguments_append, arguments_other]
  | _ => simp [configStep, gathered, arguments_append, arguments_other]

/-- The loop gathers what it was given, and fails where an answer is not taken. -/
theorem configLoop_gathered (later : List GetoptAnswer) (passed : Passed answers) :
    (Passed (answers ++ later) →
      configLoop (gathered answers) later = (gathered (answers ++ later), true)) ∧
    (¬ Passed (answers ++ later) → (configLoop (gathered answers) later).2 = false) := by
  induction later generalizing answers with
  | nil =>
      rw [List.append_nil]
      exact ⟨fun _ => rfl, fun not => absurd passed not⟩
  | cons answer later ih =>
      have split : answers ++ answer :: later = (answers ++ [answer]) ++ later := by simp
      rw [split, configLoop]
      by_cases admits : Admits answers answer
      · rw [configStep_admitted admits]
        exact ih (passed.concat admits)
      · constructor
        · intro all
          exact absurd all.front.admits admits
        · intro _
          have refused : (configStep (gathered answers) answer).2 = false := by
            cases back : (configStep (gathered answers) answer).2 with
            | false => rfl
            | true => exact absurd (configStep_refused passed back) admits
          simp [refused]

theorem passed_nil : Passed [] where
  known answer mem := by cases mem
  once option := Nat.zero_le 1
  accepted option optarg mem := by cases mem

/-- The loop over answers that pass gathers them all. -/
theorem configLoop_eq (passed : Passed answers) :
    configLoop configInit answers = (gathered answers, true) :=
  (configLoop_gathered answers passed_nil).1 passed

/-- And over others it fails, at the first answer that is not admitted. -/
private theorem configLoop_failed (failed : ¬ Passed answers) :
    (configLoop configInit answers).2 = false :=
  (configLoop_gathered answers passed_nil).2 failed

/-! ## The whole command line

Both directions of the equivalence: a valid command line is accepted with its meaning, and
one that is accepted is valid. -/

section Valid

variable {answers : List GetoptAnswer} {operands : Bool}

/-- The loop over the options gets through a valid command line. -/
theorem Valid.passed (valid : Valid answers operands) : Passed answers where
  known answer mem := by
    have plain := valid.plain answer mem
    constructor
    · intro optopt eq
      subst eq
      exact plain
    · intro optopt eq
      subst eq
      exact absurd plain id
  once := valid.once
  accepted := valid.accepted

theorem Valid.noHelp (valid : Valid answers operands) : (gathered answers).wantHelp = false := by
  refine decide_eq_false ?_
  rintro (mem | mem)
  · exact valid.plain _ mem
  · exact valid.plain _ mem

theorem fieldOf_setString (given : List CString) : fieldOf none setString given = given.head? := by
  cases given <;> rfl

theorem Valid.tokenGiven (valid : Valid answers operands) : (gathered answers).haasToken ≠ none :=
  setString_once.fieldOf_ne (valid.accepted .t) valid.token

/-- What the defaults make of a field that may be missing. -/
theorem Once.default {α : Type} [DecidableEq α] {unset : α} {check : α → CString → α × Bool}
    {given : List CString} (once : Once unset check)
    (accepted : ∀ optarg ∈ given, (check unset optarg).2 = true) (default : α) :
    (if fieldOf unset check given = unset then default else fieldOf unset check given) =
      given.head?.elim default fun optarg => (check unset optarg).1 := by
  cases given with
  | nil => exact if_pos rfl
  | cons optarg given => exact if_neg (once.fieldOf_ne accepted (List.cons_ne_nil _ _))

/-- Of a valid command line, the gathered fields with the defaults filled in are the
reference. Here it matters that no argument is the mark. -/
private theorem configDefaults_gathered (valid : Valid answers operands) :
    configDefaults (gathered answers) = reference answers := by
  have string (option : OptionName) (default : CString) :
      (if fieldOf none setString (arguments option answers) = none then some default
        else fieldOf none setString (arguments option answers)) =
      (arguments option answers).head?.or (some default) := by
    rw [fieldOf_setString]
    cases (arguments option answers).head? <;> simp
  simp only [configDefaults, reference, gathered, Config.mk.injEq, intOf, portOf, modeOf]
  refine ⟨valid.noHelp, trivial, trivial, parseInt_once.default (valid.accepted .i) _, rfl, rfl,
    rfl, parseInt_once.default (valid.accepted .c) _, trivial, trivial,
    parsePort_once.default (valid.accepted .p) _,
    parseForwardMode_once.default (valid.accepted .m) _, string .b _, string .k _, string .a _,
    parsePort_once.default (valid.accepted .r) _, fieldOf_setString _⟩

/-- `ConfigParse` answers 1, and nobody asked for help. -/
def Starts (result : Config × Bool) : Prop := result.2 = true ∧ result.1.wantHelp = false

/-- A valid command line is accepted, with the values of the reference. -/
theorem configParse_of_valid (valid : Valid answers operands) :
    configParse answers operands configInit = (reference answers, true) := by
  rw [configParse, configLoop_eq valid.passed, ← configDefaults_gathered valid]
  simp [valid.noHelp, valid.operands, valid.tokenGiven]

/-- And only a valid command line starts the program. -/
theorem valid_of_starts (starts : Starts (configParse answers operands configInit)) :
    Valid answers operands := by
  obtain ⟨back, help⟩ := starts
  by_cases passed : Passed answers
  · rw [configParse, configLoop_eq passed] at back help
    have noHelp : (gathered answers).wantHelp = false := by
      cases wanted : (gathered answers).wantHelp with
      | false => rfl
      | true => simp [wanted] at help
    obtain ⟨noH, noQuestion⟩ := not_or.mp (of_decide_eq_false noHelp)
    simp only [noHelp] at back
    cases operands with
    | true => cases back
    | false =>
        by_cases missing : (gathered answers).haasToken = none
        · simp [missing] at back
        · refine ⟨?_, rfl, passed.once, passed.accepted, ?_⟩
          · intro answer mem
            have known := passed.known answer mem
            cases answer with
            | h => exact noH mem
            | missing optopt => exact known.1 optopt rfl
            | question optopt =>
                rw [known.2 optopt rfl] at mem
                exact noQuestion mem
            | _ => trivial
          · intro empty
            refine missing ?_
            rw [gathered, empty]
            rfl
  · have failed := configLoop_failed passed
    rw [configParse] at back
    simp [failed] at back

/-- A valid command line leaves the proxy everything that it reads. -/
theorem reference_usable (valid : Valid answers operands) : (reference answers).Usable where
  trapPort := by
    by_cases empty : arguments .p answers = []
    · simp [reference, portOf, empty, defaultTrapPort]
    · exact portOf_inside (valid.accepted .p) empty
  haasPort := by
    by_cases empty : arguments .r answers = []
    · simp [reference, portOf, empty, defaultHaasPort]
    · exact portOf_inside (valid.accepted .r) empty
  idleTimeout := by
    by_cases empty : arguments .i answers = []
    · simp [reference, intOf, empty, defaultIdleTimeout]
    · exact intOf_positive (valid.accepted .i) empty
  connLimit := by
    by_cases empty : arguments .c answers = []
    · simp [reference, intOf, empty, defaultConnLimit]
    · exact intOf_positive (valid.accepted .c) empty
  forwardMode := by
    by_cases empty : arguments .m answers = []
    · simp [reference, modeOf, empty]
    · have known := parseForwardMode_once.fieldOf_ne (valid.accepted .m) empty
      obtain ⟨optarg, given, eq⟩ := List.exists_cons_of_ne_nil empty
      rw [eq] at known
      rw [reference, eq]
      exact known
  strings := by
    refine ⟨Option.some_ne_none _, ?_, ?_, ?_, ?_⟩
    · simp [reference]
    · simp [reference]
    · simp [reference]
    · simp [reference, valid.token]

/-! ## The order of the options

Since each field depends on its own arguments, and there is at most one of them, the order
does not matter. -/

/-- The order does not matter to an option that is given at most once. -/
theorem arguments_perm {later : List GetoptAnswer} (perm : answers ~ later)
    (once : (arguments option answers).length ≤ 1) :
    arguments option later = arguments option answers := by
  have same : arguments option answers ~ arguments option later := perm.filterMap _
  cases eq : arguments option answers with
  | nil =>
      rw [eq] at same
      exact same.nil_eq.symm
  | cons optarg given =>
      rw [eq, List.length_cons] at once
      obtain rfl : given = [] := List.eq_nil_of_length_eq_zero (by omega)
      rw [eq] at same
      exact List.perm_singleton.mp same.symm

/-- Whether the command line is valid does not depend on the order. -/
theorem Valid.perm {later : List GetoptAnswer} (valid : Valid answers operands)
    (perm : answers ~ later) : Valid later operands := by
  have same (option : OptionName) := arguments_perm perm (valid.once option)
  constructor
  · intro answer mem
    exact valid.plain answer (perm.mem_iff.mpr mem)
  · exact valid.operands
  · intro option
    rw [same]
    exact valid.once option
  · intro option
    rw [same]
    exact valid.accepted option
  · rw [same]
    exact valid.token

private theorem reference_perm {later : List GetoptAnswer} (valid : Valid answers operands)
    (perm : answers ~ later) : reference later = reference answers := by
  have same (option : OptionName) := arguments_perm perm (valid.once option)
  simp [reference, same, perm.mem_iff, perm.count_eq]

/-- **`ConfigParse` computes the meaning of its options**: it lets the program start
exactly on the command lines that are valid, the configuration is then the reference
and the proxy can use it, and the order of the options plays no part. -/
theorem configParse_meaning (answers : List GetoptAnswer) (operands : Bool) :
    (Starts (configParse answers operands configInit) ↔ Valid answers operands) ∧
    (Valid answers operands →
      configParse answers operands configInit = (reference answers, true) ∧
      (reference answers).Usable) ∧
    ∀ later, answers ~ later →
      (Starts (configParse later operands configInit) ↔
        Starts (configParse answers operands configInit)) ∧
      (Starts (configParse answers operands configInit) →
        configParse later operands configInit = configParse answers operands configInit) := by
  have starts (given : List GetoptAnswer) :
      Starts (configParse given operands configInit) ↔ Valid given operands := by
    constructor
    · exact valid_of_starts
    · intro valid
      rw [configParse_of_valid valid]
      exact ⟨rfl, rfl⟩
  refine ⟨starts answers, fun valid => ⟨configParse_of_valid valid, reference_usable valid⟩, ?_⟩
  intro later perm
  rw [starts, starts]
  refine ⟨⟨fun valid => valid.perm perm.symm, fun valid => valid.perm perm⟩, ?_⟩
  intro valid
  rw [configParse_of_valid valid, configParse_of_valid (valid.perm perm), reference_perm valid perm]

end Valid

end Gathered

end HaasProxy
