import HaasProxy.ConfigParse

/-!
# Every configuration has a command line (`config.c`)

`configParse_meaning` says what a command line means.  Here is the other direction:
`commandLine` writes a configuration as options, and `ConfigParse` reads them back as this
configuration.  The configurations that can be had so are the `Expressible` ones, and no
command line gives another.

## Design notes

The two halves of `commandLine_roundTrip` are an equivalence between configurations and
the command lines that start the program, up to what the latter leave open: the order of
the options, and the spelling of a number.

* What is expressible is decided field by field, and the bounds are those of the checks:
  a positive `int`, a port below 65535, one of the five modes.  The session timeout, the
  CPU limit and the niceness may be absent, and then keep their mark.
* A number is written in decimal, without a sign and without a leading zero, since
  `strtol` with base 0 would read the latter as octal (`head?_decimal`).
* An option whose field is at its default is written nevertheless.  The line is longer
  than it need be, and the proof does not depend on the defaults.
-/

namespace HaasProxy

open Strtol

/-! ## Decimal numerals

`decimal` is defined by the digits of a number, and `strtol` by the text; here the
one is read back by the other. -/

section Decimal

theorem digit?_digitChar : ∀ d < 10, digit? (UInt8.ofNat (Nat.digitChar d).toNat) = some d := by
  decide

theorem decimal_of_lt {n : Nat} (small : n < 10) :
    decimal n = [UInt8.ofNat (Nat.digitChar n).toNat] := by
  rw [decimal, Nat.toDigits_of_lt_base small]
  rfl

/-- The numeral of a larger one ends with its last digit. -/
theorem decimal_of_le {n : Nat} (large : 10 ≤ n) :
    decimal n = decimal (n / 10) ++ [UInt8.ofNat (Nat.digitChar (n % 10)).toNat] := by
  rw [decimal, Nat.toDigits_of_base_le (by omega) large, List.map_append]
  rfl

theorem decimal_ne_nil (n : Nat) : decimal n ≠ [] := by
  simp [decimal, Nat.toDigits_ne_nil]

/-- The digits of a number have its value. -/
private theorem value_decimal (n : Nat) : value 10 (decimal n) = n := by
  induction n using Nat.strongRecOn with
  | ind n ih =>
      by_cases small : n < 10
      · rw [decimal_of_lt small]
        simp [value, digit?_digitChar n small]
      · have ih := ih (n / 10) (by omega)
        rw [decimal_of_le (by omega), value, List.foldl_append, ← value, ih]
        simp only [List.foldl_cons, List.foldl_nil,
          digit?_digitChar (n % 10) (Nat.mod_lt n (by omega)), Option.getD_some]
        omega

/-- A positive number's numeral does not begin with a zero, which `strtol` would take
for octal. -/
private theorem head?_decimal {n : Nat} (positive : 0 < n) : (decimal n).head? ≠ some 0x30 := by
  induction n using Nat.strongRecOn with
  | ind n ih =>
      by_cases small : n < 10
      · have nonzero : ∀ d < 10, 0 < d → UInt8.ofNat (Nat.digitChar d).toNat ≠ 0x30 := by decide
        rw [decimal_of_lt small]
        simpa using nonzero n small positive
      · rw [decimal_of_le (by omega), List.head?_append_of_ne_nil _ (decimal_ne_nil _)]
        exact ih (n / 10) (by omega) (by omega)

private theorem isDigit_of_mem_decimal {n : Nat} {b : UInt8} (mem : b ∈ decimal n) :
    isDigit 10 b = true := by
  have digit := digit_of_mem_decimal mem
  have high : b.toNat ≤ 57 := UInt8.le_iff_toNat_le.mp digit.2
  rw [isDigit, digit?, if_pos digit]
  exact decide_eq_true (by omega)

/-- What is printed with `%d` is read as what it was. -/
private theorem numeral?_decimal {n : Nat} (positive : 0 < n) :
    numeral? (decimal n) = some (n : Int) := by
  have numeral := Numeral.intro [] [] [] (decimal n) false 10 nofun
    (fun b mem => isDigit_of_mem_decimal mem) (decimal_ne_nil n) (.inr ⟨.inr rfl, rfl⟩)
    (.inr ⟨rfl, .inr ⟨rfl, head?_decimal positive⟩⟩)
  rw [value_decimal] at numeral
  exact numeral?_eq_some_iff.mpr numeral

end Decimal

/-- A number as an argument. -/
def CString.ofNat (n : Nat) : CString where
  bytes := decimal n
  nulFree := fun mem => absurd (digit_of_mem_decimal mem).1 (by decide)

/-! ## Configurations as command lines

Each field is written as its option with its argument, in a fixed order, and nothing is
written for a number that is not set.  What is written is read back one option at a time. -/

/-- The configurations that can be written. -/
structure Config.Expressible (config : Config) : Prop where
  noHelp : config.wantHelp = false
  debugLevel : 0 ≤ config.debugLevel
  idleTimeout : 1 ≤ config.idleTimeout ∧ config.idleTimeout ≤ 2147483647
  sessionTimeout : config.sessionTimeout = -1 ∨
    1 ≤ config.sessionTimeout ∧ config.sessionTimeout ≤ 2147483647
  cpuUsage : config.cpuUsage = -1 ∨ 1 ≤ config.cpuUsage ∧ config.cpuUsage ≤ 2147483647
  processNice : config.processNice = -1 ∨ 1 ≤ config.processNice ∧ config.processNice ≤ 2147483647
  connLimit : 1 ≤ config.connLimit ∧ config.connLimit ≤ 2147483647
  trapLog : config.trapLog = configInit.trapLog
  haasLog : config.haasLog = configInit.haasLog
  trapPort : 1 ≤ config.trapPort ∧ config.trapPort ≤ 65534
  forwardMode : config.forwardMode ≠ none
  strings : config.banner ≠ none ∧ config.keysDir ≠ none ∧ config.haasAddr ≠ none ∧
    config.haasToken ≠ none
  haasPort : 1 ≤ config.haasPort ∧ config.haasPort ≤ 65534

/-- The number of a forward mode. -/
def ForwardMode.number : ForwardMode → Nat
  | deny => 0
  | allow => 1
  | fake => 2
  | null => 3
  | echo => 4

/-- A number, if it is given. -/
def argumentOf (v : Int) : Option CString := if v = -1 then none else some (.ofNat v.toNat)

/-- The argument an option gets. -/
def Config.argument (config : Config) : OptionName → Option CString
  | .p => argumentOf config.trapPort
  | .a => config.haasAddr
  | .r => argumentOf config.haasPort
  | .b => config.banner
  | .t => config.haasToken
  | .k => config.keysDir
  | .i => argumentOf config.idleTimeout
  | .s => argumentOf config.sessionTimeout
  | .u => argumentOf config.cpuUsage
  | .n => argumentOf config.processNice
  | .c => argumentOf config.connLimit
  | .m => config.forwardMode.map fun mode => .ofNat mode.number

/-- The options with an argument, each once. -/
def optionNames : List OptionName := [.p, .a, .r, .b, .t, .k, .i, .s, .u, .n, .c, .m]

/-- **A configuration as a command line.** -/
def commandLine (config : Config) : List GetoptAnswer :=
  (if config.foreground then [.f] else []) ++ List.replicate config.debugLevel.toNat .d ++
    optionNames.flatMap fun option => (config.argument option).toList.map (.withArgument option)

section CommandLine

variable {config : Config} {option : OptionName}

/-- An option that is written once has one argument. -/
private theorem arguments_given (option given : OptionName) (optarg : Option CString) :
    arguments option (optarg.toList.map (.withArgument given)) =
      if given = option then optarg.toList else [] := by
  cases optarg with
  | none => simp [arguments]
  | some optarg => exact arguments_argument option given optarg

/-- The switches contribute no argument of any option. -/
private theorem arguments_switches (option : OptionName) (config : Config) :
    arguments option ((if config.foreground then [.f] else []) ++
      List.replicate config.debugLevel.toNat .d) = [] := by
  have repeated (n : Nat) : arguments option (List.replicate n .d) = [] := by
    induction n with
    | zero => rfl
    | succ n ih =>
        rw [List.replicate_succ, ← List.singleton_append, arguments_append, ih, List.append_nil]
        rfl
  rw [arguments_append, repeated, List.append_nil]
  split <;> rfl

/-- The arguments of an option are those that the configuration asks for. Each option is
written at most once, so nothing is lost. -/
theorem arguments_commandLine (config : Config) (option : OptionName) :
    arguments option (commandLine config) = (config.argument option).toList := by
  rw [commandLine, arguments_append, arguments_switches, List.nil_append]
  simp only [optionNames, List.flatMap_cons, List.flatMap_nil, arguments_append, arguments_given,
    List.append_nil]
  cases option <;> simp

/-! What the checks make of the numbers. -/

/-- A positive number is read back from its numeral. -/
theorem numeral?_ofNat {v : Int} (positive : 1 ≤ v) :
    numeral? (CString.ofNat v.toNat).bytes = some v := by
  have printed := numeral?_decimal (n := v.toNat) (by omega)
  rw [Int.toNat_of_nonneg (by omega)] at printed
  exact printed

/-- `ParseInt` takes the numerals of what fits in an `int`. -/
theorem parseInt_ofNat {v : Int} (inside : 1 ≤ v ∧ v ≤ 2147483647) :
    parseInt (-1) (.ofNat v.toNat) = (v, true) := by
  have same := narrow_of_int (v := v) (by omega) inside.2
  rw [parseInt_of_numeral (numeral?_ofNat inside.1), same, if_neg (by omega)]

theorem parsePort_ofNat {v : Int} (inside : 1 ≤ v ∧ v ≤ 65534) :
    parsePort (-1) (.ofNat v.toNat) = (v, true) := by
  have same := narrow_of_int (v := v) (by omega) (by omega)
  rw [parsePort_of_numeral (numeral?_ofNat inside.1), same, if_neg (by omega)]

theorem parseForwardMode_number (mode : ForwardMode) :
    parseForwardMode none (.ofNat mode.number) = (some mode, true) := by
  cases mode <;> decide +kernel

/-- What an option that takes a number stores of it. -/
theorem elim_argumentOf {check : Int → CString → Int × Bool} {v default : Int}
    (read : check (-1) (.ofNat v.toNat) = (v, true)) :
    ((argumentOf v).toList.head?.elim default fun optarg => (check (-1) optarg).1) =
      if v = -1 then default else v := by
  rw [argumentOf]
  split
  · rfl
  · rw [Option.toList_some, List.head?_cons, Option.elim_some, read]

/-- A number that is given is one that its check reads. -/
theorem accepts_argumentOf {check : Int → CString → Int × Bool} {v : Int} {optarg : CString}
    (read : v ≠ -1 → check (-1) (.ofNat v.toNat) = (v, true))
    (mem : optarg ∈ (argumentOf v).toList) : (check (-1) optarg).2 = true := by
  rw [argumentOf] at mem
  split at mem
  · cases mem
  · rename_i given
    obtain rfl := List.mem_singleton.mp mem
    rw [read given]

/-! ## Back to the configuration

First the fields that are switches, then those with an argument; and in the other
direction, what a valid command line means can be written. -/

private theorem mem_commandLine {answer : GetoptAnswer} (mem : answer ∈ commandLine config) :
    answer = .f ∨ answer = .d ∨ ∃ option optarg, answer = .withArgument option optarg := by
  simp only [commandLine, List.mem_append, List.mem_flatMap, List.mem_map] at mem
  rcases mem with (mem | mem) | ⟨option, -, optarg, -, eq⟩
  · split at mem
    · exact .inl (List.mem_singleton.mp mem)
    · cases mem
  · exact .inr (.inl (List.eq_of_mem_replicate mem))
  · exact .inr (.inr ⟨option, optarg, eq.symm⟩)

/-- It asks for the foreground if the configuration does. -/
private theorem foreground_commandLine (config : Config) :
    .f ∈ commandLine config ↔ config.foreground = true := by
  simp [commandLine, List.mem_replicate]

private theorem debugLevel_commandLine (config : Config) :
    (commandLine config).count .d = config.debugLevel.toNat := by
  have options : (optionNames.flatMap fun option =>
      (config.argument option).toList.map (GetoptAnswer.withArgument option)).count .d = 0 := by
    simp [List.count_eq_zero]
  have switch : (if config.foreground then [GetoptAnswer.f] else []).count .d = 0 := by
    split <;> rfl
  rw [commandLine, List.count_append, List.count_append, options, switch, List.count_replicate_self]
  omega

variable (expressible : config.Expressible)

include expressible

/-- Whatever argument the command line gives for an option is one that the option
accepts. -/
theorem Config.Expressible.accepted (option : OptionName) {optarg : CString}
    (mem : optarg ∈ (config.argument option).toList) : option.accepts optarg = true := by
  have int {v : Int} (inside : v = -1 ∨ 1 ≤ v ∧ v ≤ 2147483647) (given : v ≠ -1) :
      parseInt (-1) (.ofNat v.toNat) = (v, true) := parseInt_ofNat (inside.resolve_left given)
  cases option with
  | p => exact accepts_argumentOf (fun _ => parsePort_ofNat expressible.trapPort) mem
  | r => exact accepts_argumentOf (fun _ => parsePort_ofNat expressible.haasPort) mem
  | i => exact accepts_argumentOf (int (.inr expressible.idleTimeout)) mem
  | s => exact accepts_argumentOf (int expressible.sessionTimeout) mem
  | u => exact accepts_argumentOf (int expressible.cpuUsage) mem
  | n => exact accepts_argumentOf (int expressible.processNice) mem
  | c => exact accepts_argumentOf (int (.inr expressible.connLimit)) mem
  | m =>
      obtain ⟨mode, eq⟩ := Option.ne_none_iff_exists'.mp expressible.forwardMode
      rw [Config.argument, eq] at mem
      obtain rfl := List.mem_singleton.mp mem
      rw [OptionName.accepts, parseForwardMode_number]
  | a => rfl
  | b => rfl
  | t => rfl
  | k => rfl

/-- So the command line is a valid one. -/
theorem Config.Expressible.valid : Valid (commandLine config) false where
  plain answer mem := by
    rcases mem_commandLine mem with rfl | rfl | ⟨option, optarg, rfl⟩
    · trivial
    · trivial
    · trivial
  operands := rfl
  once option := by
    rw [arguments_commandLine]
    exact Option.length_toList_le
  accepted option optarg mem := by
    rw [arguments_commandLine] at mem
    exact expressible.accepted option mem
  token := by
    rw [arguments_commandLine]
    obtain ⟨token, eq⟩ := Option.ne_none_iff_exists'.mp expressible.strings.2.2.2
    rw [Config.argument, eq]
    exact List.cons_ne_nil _ _

/-- **And it means the configuration it was made from**, field by field: what a field
was given is read back, and where nothing was given it has its default. -/
theorem Config.Expressible.reference_commandLine : reference (commandLine config) = config := by
  have int {v : Int} (default : Int) (inside : v = -1 ∨ 1 ≤ v ∧ v ≤ 2147483647) :
      intOf (argumentOf v).toList default = if v = -1 then default else v := by
    by_cases given : v = -1
    · rw [given]
      rfl
    · exact elim_argumentOf (parseInt_ofNat (inside.resolve_left given))
  have port {v : Int} (default : Int) (inside : 1 ≤ v ∧ v ≤ 65534) :
      portOf (argumentOf v).toList default = v := by
    rw [portOf, elim_argumentOf (parsePort_ofNat inside), if_neg (by omega)]
  have string {field : Option CString} (default : CString) (given : field ≠ none) :
      field.toList.head?.or (some default) = field := by
    obtain ⟨s, eq⟩ := Option.ne_none_iff_exists'.mp given
    rw [eq]
    rfl
  have mode : modeOf (config.argument .m).toList (some .fake) = config.forwardMode := by
    obtain ⟨mode, eq⟩ := Option.ne_none_iff_exists'.mp expressible.forwardMode
    rw [Config.argument, eq, Option.map_some, Option.toList_some, modeOf, List.head?_cons,
      Option.elim_some, parseForwardMode_number]
  rw [Config.argument] at mode
  have positive {v : Int} (default : Int) (inside : 1 ≤ v ∧ v ≤ 2147483647) :
      intOf (argumentOf v).toList default = v := by
    rw [int default (.inr inside), if_neg (by omega)]
  have optional {v : Int} (inside : v = -1 ∨ 1 ≤ v ∧ v ≤ 2147483647) :
      intOf (argumentOf v).toList (-1) = v := by
    rw [int (-1) inside]
    exact ite_eq_right_iff.mpr Eq.symm
  have foreground : decide (GetoptAnswer.f ∈ commandLine config) = config.foreground := by
    rw [Bool.eq_iff_iff, decide_eq_true_iff]
    exact foreground_commandLine config
  have debugLevel : ((commandLine config).count .d : Int) = config.debugLevel := by
    rw [debugLevel_commandLine, Int.toNat_of_nonneg expressible.debugLevel]
  obtain ⟨banner, keysDir, haasAddr, haasToken⟩ := expressible.strings
  simp only [reference, arguments_commandLine, mode, foreground, debugLevel, Config.argument,
    positive _ expressible.idleTimeout, optional expressible.sessionTimeout,
    optional expressible.cpuUsage, optional expressible.processNice,
    positive _ expressible.connLimit, port _ expressible.trapPort, port _ expressible.haasPort,
    string _ banner, string _ keysDir, string _ haasAddr]
  have token : config.haasToken.toList.head? = config.haasToken := by
    cases config.haasToken <;> rfl
  rw [token, ← expressible.noHelp, ← expressible.trapLog, ← expressible.haasLog]

end CommandLine

section Expressible

/-- A number that is read is in the range of `int`. -/
private theorem parseInt_le (optarg : CString) : (parseInt (-1) optarg).1 ≤ 2147483647 := by
  cases numeral : numeral? optarg.bytes with
  | none =>
      rw [parseInt_of_none numeral]
      decide
  | some v =>
      rw [parseInt_of_numeral numeral]
      split
      · decide
      · exact narrow_lt _

/-- A number that was given fits in an `int`, since `ParseInt` has read it. -/
theorem intOf_inside {given : List CString} {default : Int}
    (accepted : ∀ optarg ∈ given, (parseInt (-1) optarg).2 = true) :
    intOf given default = default ∨ 1 ≤ intOf given default ∧ intOf given default ≤ 2147483647 := by
  cases given with
  | nil => exact .inl rfl
  | cons optarg given =>
      exact .inr ⟨parseInt_accepted (accepted optarg List.mem_cons_self), parseInt_le optarg⟩

/-- What `ConfigParse` lets start can be written. -/
theorem Valid.expressible {answers : List GetoptAnswer} {operands : Bool}
    (valid : Valid answers operands) : (reference answers).Expressible := by
  have usable := reference_usable valid
  have within (option : OptionName) {default : Int} (inside : 1 ≤ default ∧ default ≤ 2147483647)
      (accepted : ∀ optarg ∈ arguments option answers, (parseInt (-1) optarg).2 = true) :
      1 ≤ intOf (arguments option answers) default ∧
        intOf (arguments option answers) default ≤ 2147483647 := by
    rcases intOf_inside accepted with eq | inside
    · rw [eq]
      exact inside
    · exact inside
  exact
    { noHelp := rfl
      debugLevel := Int.natCast_nonneg _
      idleTimeout := within .i (by decide) (valid.accepted .i)
      sessionTimeout := intOf_inside (valid.accepted .s)
      cpuUsage := intOf_inside (valid.accepted .u)
      processNice := intOf_inside (valid.accepted .n)
      connLimit := within .c (by decide) (valid.accepted .c)
      trapLog := rfl
      haasLog := rfl
      trapPort := usable.trapPort
      forwardMode := usable.forwardMode
      strings := usable.strings.2
      haasPort := usable.haasPort }

end Expressible

/-- **Every configuration has a command line**: what `ConfigParse` lets start is what is
expressible, and the configuration is read back as it is from the line that is written of
it. -/
theorem commandLine_roundTrip (config : Config) :
    (config.Expressible ↔ config.wantHelp = false ∧
      ∃ answers operands, configParse answers operands configInit = (config, true)) ∧
    (config.Expressible ↔ config.wantHelp = false ∧
      configParse (commandLine config) false configInit = (config, true)) := by
  have written (expressible : config.Expressible) :
      configParse (commandLine config) false configInit = (config, true) := by
    rw [configParse_of_valid expressible.valid, expressible.reference_commandLine]
  have read {answers : List GetoptAnswer} {operands : Bool} (noHelp : config.wantHelp = false)
      (parsed : configParse answers operands configInit = (config, true)) :
      config.Expressible := by
    have starts : Starts (configParse answers operands configInit) := by
      rw [parsed]
      exact ⟨rfl, noHelp⟩
    have valid := valid_of_starts starts
    rw [configParse_of_valid valid] at parsed
    obtain rfl := congrArg Prod.fst parsed
    exact valid.expressible
  refine ⟨⟨fun expressible => ?_, ?_⟩, ⟨fun expressible => ?_, ?_⟩⟩
  · exact ⟨expressible.noHelp, _, _, written expressible⟩
  · rintro ⟨noHelp, answers, operands, parsed⟩
    exact read noHelp parsed
  · exact ⟨expressible.noHelp, written expressible⟩
  · rintro ⟨noHelp, parsed⟩
    exact read noHelp parsed

end HaasProxy
