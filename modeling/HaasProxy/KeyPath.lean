import HaasProxy.CommandLine

/-!
# The paths of the host keys (`ProxyProcess`, `proxy.c`)

`ProxyProcess` prints the directory of the option `-k` into a local array, looks whether
it ends with a slash, and prints the names of the keys behind it, each over the one
before.  Nothing on the way restricts the directory: an empty one has no last character,
and a long one leaves the array.  `keyPaths_anyDirectory` has the exact conditions.

## Design notes

* For an empty directory `KeyPath[Pos-1]` is the byte in front of the array.  The model
  has no answer there, and does not pretend that the byte is one thing or another.
* The names have the same length, so the NUL of one name falls on that of the one
  before, and no rest of it is left.  `Leads` states only what does not depend on this:
  the directory is in front of the offset, and behind it may be anything.
* Whether the array is left is decided by the longest text, a slash and a name behind the
  directory.  A directory that fits without its slash may be too long with it.
-/

namespace HaasProxy

open CharBuffer

/-! ## The source -/

/-- `sizeof(KeyPath)`. -/
def keyPathSize : Nat := 1024

/-- The names of the keys; the last is there where libssh has the option. -/
def keyNames (ecdsa : Bool) : List (List UInt8) :=
  [ascii "ssh_host_dsa_key", ascii "ssh_host_rsa_key"] ++
    if ecdsa then [ascii "ssh_host_ecc_key"] else []

/-- `KeyPath` after `sprintf(KeyPath+Pos,…)`, which leaves `Pos` where it is. -/
def printKey (keyPath : CharBuffer) (name : List UInt8) : CharBuffer :=
  { keyPath.sprintf name with pos := keyPath.pos }

/-- What `ssh_bind_options_set` is given for the names, one after another; none when a
store has left `KeyPath`. -/
def printKeys (keyPath : CharBuffer) : List (List UInt8) → Option (List (List UInt8))
  | [] => some []
  | name :: names => do
      let keyPath := printKey keyPath name
      let path ← keyPath.string? keyPathSize
      let paths ← printKeys keyPath names
      return path :: paths

/-- The paths of the keys; `garbage` is what the stack held. -/
def keyPaths (garbage : Nat → UInt8) (ecdsa : Bool) (keysDir : CString) :
    Option (List (List UInt8)) :=
  let keyPath := (uninit garbage).sprintf keysDir.bytes
  -- `KeyPath[Pos-1]` is in front of the array
  if keyPath.pos = 0 then none
  else
    let keyPath := if keyPath.cells (keyPath.pos - 1) ≠ 0x2F then keyPath.put 0x2F else keyPath
    printKeys keyPath (keyNames ecdsa)

/-! ## What is to come out -/

/-- A directory with one slash behind it. -/
def slashed (dir : List UInt8) : List UInt8 :=
  if dir.getLast? = some 0x2F then dir else dir ++ [0x2F]

/-- A directory has a last character, and with a slash and the longest name it leaves
room for the NUL. -/
def CString.Roomy (keysDir : CString) : Prop :=
  keysDir.bytes ≠ [] ∧ (slashed keysDir.bytes).length + 16 < keyPathSize

instance (keysDir : CString) : Decidable keysDir.Roomy :=
  inferInstanceAs (Decidable (_ ∧ _))

section KeyPath

variable {keyPath : CharBuffer} {dir name : List UInt8} {garbage : Nat → UInt8}
variable {ecdsa : Bool} {names : List (List UInt8)}

/-! ## Behind a directory

A name is printed without moving the offset, so it is always the directory that the next
name is printed behind. -/

/-- The array holds a directory in front of its offset, whatever is behind that. -/
structure Leads (keyPath : CharBuffer) (dir : List UInt8) : Prop where
  pos_eq : keyPath.pos = dir.length
  cell : ∀ i (h : i < dir.length), keyPath.cells i = dir[i]

/-- As far as the contents go, nothing was stored behind the directory. -/
theorem Leads.fills (leads : Leads keyPath dir) : { keyPath with stores := [] }.Fills dir where
  pos_eq := leads.pos_eq
  cell := leads.cell
  stores_le i mem := by cases mem

/-- Printing a name behind the directory leaves the directory where it is, for the next
name. -/
theorem Leads.printKey (leads : Leads keyPath dir) (name : List UInt8) :
    Leads (printKey keyPath name) dir where
  pos_eq := leads.pos_eq
  cell i h := by
    rw [← leads.cell i h]
    exact overwrite_lt (by rw [leads.pos_eq]; exact h)

/-- A name is read behind the directory. -/
theorem Leads.holds (leads : Leads keyPath dir) (name : List UInt8) :
    (keyPath.sprintf name).Holds (dir ++ name) where
  pos_eq := by
    rw [List.length_append, ← leads.pos_eq]
    rfl
  cell i h := leads.fills.overwrite_eq name [0] h
  nul := by
    have last := leads.fills.overwrite_eq (name ++ [0]) [] (i := (dir ++ name).length) (by simp)
    rw [List.append_nil] at last
    rw [sprintf]
    dsimp only
    rw [last]
    simp

/-- A name is stored behind the directory, and a zero byte behind the name. -/
theorem mem_stores_printKey {i : Nat} (leads : Leads keyPath dir) :
    i ∈ (printKey keyPath name).stores ↔
      i ∈ keyPath.stores ∨ dir.length ≤ i ∧ i ≤ dir.length + name.length := by
  rw [← leads.pos_eq]
  exact mem_stores_sprintf

/-- A name that fits is read behind the directory. -/
private theorem string?_printKey (leads : Leads keyPath dir) (noNul : 0 ∉ dir ++ name)
    (inside : ∀ i ∈ (printKey keyPath name).stores, i < keyPathSize)
    (fits : (dir ++ name).length < keyPathSize) :
    (printKey keyPath name).string? keyPathSize = some (dir ++ name) := by
  rw [string?, if_pos inside]
  exact congrArg some ((leads.holds name).takeWhile_cells noNul fits)

/-- A name that does not fit leaves the array. -/
private theorem string?_printKey_none (leads : Leads keyPath dir)
    (long : keyPathSize ≤ dir.length + name.length) :
    (printKey keyPath name).string? keyPathSize = none := by
  rw [string?, if_neg]
  intro inside
  have last := inside _ ((mem_stores_printKey leads).mpr (.inr ⟨by omega, Nat.le_refl _⟩))
  omega

/-- Each name is printed behind the directory, and takes nothing from the next. -/
theorem printKeys_eq (leads : Leads keyPath dir) (noNul : 0 ∉ dir)
    (inside : ∀ i ∈ keyPath.stores, i < keyPathSize)
    (fit : ∀ name ∈ names, 0 ∉ name ∧ dir.length + name.length < keyPathSize) :
    printKeys keyPath names = some (names.map (dir ++ ·)) := by
  induction names generalizing keyPath with
  | nil => rfl
  | cons name names ih =>
      have first := fit name List.mem_cons_self
      have both : 0 ∉ dir ++ name := by simp [noNul, first.1]
      have next : ∀ i ∈ (printKey keyPath name).stores, i < keyPathSize := by
        intro i mem
        rcases (mem_stores_printKey leads).mp mem with earlier | now
        · exact inside i earlier
        · omega
      have rest := ih (leads.printKey name) next
        (fun other mem => fit other (List.mem_cons_of_mem _ mem))
      have fits : (dir ++ name).length < keyPathSize := by
        rw [List.length_append]
        exact first.2
      rw [printKeys, string?_printKey leads both next fits, rest]
      rfl

/-! ## The directory

The path of a key is the directory, a slash if it has none at the end, and the name of the
key. The last character is looked at in the buffer, so it has to be one that was written. -/

/-- The last byte of the directory is what `KeyPath[Pos-1]` reads. -/
private theorem getLast?_eq (leads : Leads keyPath dir) (nonempty : dir ≠ []) :
    dir.getLast? = some (keyPath.cells (keyPath.pos - 1)) := by
  have inside : dir.length - 1 < dir.length := by
    have positive := List.length_pos_iff.mpr nonempty
    omega
  rw [List.getLast?_eq_getElem?, leads.pos_eq, leads.cell _ inside, List.getElem?_eq_getElem inside]

/-- The directory is printed into an array of which nothing is known. -/
theorem leads_sprintf (garbage : Nat → UInt8) (dir : List UInt8) :
    Leads ((uninit garbage).sprintf dir) dir where
  pos_eq := (holds_sprintf_uninit garbage dir).pos_eq
  cell := (holds_sprintf_uninit garbage dir).cell

theorem Leads.put (leads : Leads keyPath dir) (c : UInt8) :
    Leads (keyPath.put c) (dir ++ [c]) where
  pos_eq := (leads.fills.put c).pos_eq
  cell := (leads.fills.put c).cell

/-- The directory gets its slash, and no store goes beyond the NUL behind it. -/
private theorem leads_slashed (garbage : Nat → UInt8) (nonempty : dir ≠ []) :
    let keyPath := (uninit garbage).sprintf dir
    let keyPath := if keyPath.cells (keyPath.pos - 1) ≠ 0x2F then keyPath.put 0x2F else keyPath
    Leads keyPath (slashed dir) ∧ ∀ i ∈ keyPath.stores, i ≤ (slashed dir).length := by
  have leads := leads_sprintf garbage dir
  have last := getLast?_eq leads nonempty
  have stored : ∀ i ∈ ((uninit garbage).sprintf dir).stores, i ≤ dir.length := by
    intro i mem
    have eq : i ∈ (uninit garbage).stores ∨ 0 ≤ i ∧ i ≤ 0 + dir.length := mem_stores_sprintf.mp mem
    rcases eq with earlier | now
    · cases earlier
    · omega
  dsimp only
  rw [slashed, last]
  by_cases slash : ((uninit garbage).sprintf dir).cells
      (((uninit garbage).sprintf dir).pos - 1) = 0x2F
  · rw [if_neg (not_not_intro slash), if_pos (congrArg some slash)]
    exact ⟨leads, stored⟩
  · rw [if_pos slash, if_neg (fun eq => slash (Option.some.inj eq))]
    refine ⟨leads.put 0x2F, ?_⟩
    intro i mem
    rw [List.length_append]
    rcases List.mem_append.mp mem with earlier | now
    · have le := stored i earlier
      omega
    · obtain rfl := List.mem_singleton.mp now
      rw [leads.pos_eq]
      omega

/-- The names are of one length, and without zero bytes. -/
private theorem length_keyName (mem : name ∈ keyNames ecdsa) : name.length = 16 ∧ 0 ∉ name := by
  revert name
  cases ecdsa <;> decide

private theorem zero_notMem_slashed (noNul : 0 ∉ dir) : 0 ∉ slashed dir := by
  rw [slashed]
  split
  · exact noNul
  · simp [noNul]

/-- **The paths of the keys**: they are there exactly when the directory is not empty and
fits with a slash and a name, and then each is the directory, one slash and the name,
whatever the stack held. -/
theorem keyPaths_eq (garbage : Nat → UInt8) (ecdsa : Bool) (keysDir : CString) :
    keyPaths garbage ecdsa keysDir =
      if keysDir.Roomy then some ((keyNames ecdsa).map (slashed keysDir.bytes ++ ·)) else none := by
  have pos : ((uninit garbage).sprintf keysDir.bytes).pos = keysDir.bytes.length :=
    (leads_sprintf garbage keysDir.bytes).pos_eq
  rw [keyPaths]
  by_cases empty : keysDir.bytes = []
  · have noRoom : ¬ keysDir.Roomy := fun roomy => roomy.1 empty
    rw [if_neg noRoom]
    refine if_pos ?_
    rw [pos, empty]
    rfl
  · obtain ⟨leads, stores⟩ := leads_slashed garbage empty
    have positive : ((uninit garbage).sprintf keysDir.bytes).pos ≠ 0 := by
      rw [pos]
      exact mt List.eq_nil_of_length_eq_zero empty
    dsimp only
    rw [if_neg positive]
    by_cases fits : (slashed keysDir.bytes).length + 16 < keyPathSize
    · have roomy : keysDir.Roomy := ⟨empty, fits⟩
      rw [if_pos roomy]
      refine printKeys_eq leads (zero_notMem_slashed keysDir.nulFree) ?_ ?_
      · intro i mem
        have le := stores i mem
        omega
      · intro name mem
        obtain ⟨length, noNul⟩ := length_keyName mem
        exact ⟨noNul, by omega⟩
    · have noRoom : ¬ keysDir.Roomy := fun roomy => fits roomy.2
      have long : keyPathSize ≤
          (slashed keysDir.bytes).length + (ascii "ssh_host_dsa_key").length := Nat.not_lt.mp fits
      rw [if_neg noRoom, keyNames, List.cons_append, printKeys]
      simp only [string?_printKey_none leads long]
      rfl

/-- Nothing on the command line restricts the directory. -/
theorem exists_commandLine (keysDir : CString) : ∃ answers config,
    configParse answers false configInit = (config, true) ∧ config.keysDir = some keysDir := by
  have trapPort : 1 ≤ defaultTrapPort ∧ defaultTrapPort ≤ 65534 := by decide
  have haasPort : 1 ≤ defaultHaasPort ∧ defaultHaasPort ≤ 65534 := by decide
  have timeout : 1 ≤ defaultIdleTimeout ∧ defaultIdleTimeout ≤ 2147483647 := by decide
  have limit : 1 ≤ defaultConnLimit ∧ defaultConnLimit ≤ 2147483647 := by decide
  let config : Config :=
    { configDefaults { configInit with haasToken := some (.ofNat 0) } with keysDir := some keysDir }
  have expressible : config.Expressible :=
    { noHelp := rfl
      debugLevel := Int.le_refl 0
      idleTimeout := timeout
      sessionTimeout := .inl rfl
      cpuUsage := .inl rfl
      processNice := .inl rfl
      connLimit := limit
      trapLog := rfl
      haasLog := rfl
      trapPort := trapPort
      forwardMode := Option.some_ne_none _
      strings := ⟨Option.some_ne_none _, Option.some_ne_none _, Option.some_ne_none _,
        Option.some_ne_none _⟩
      haasPort := haasPort }
  refine ⟨commandLine config, config, ?_, rfl⟩
  rw [configParse_of_valid expressible.valid, expressible.reference_commandLine]

end KeyPath

/-- **The host keys**: any directory may be given on the command line, and the paths of
the keys are built inside of their array exactly for the directories that have a last
character and fit. -/
theorem keyPaths_anyDirectory (garbage : Nat → UInt8) (ecdsa : Bool) (keysDir : CString) :
    (∃ answers config, configParse answers false configInit = (config, true) ∧
      config.keysDir = some keysDir) ∧
    keyPaths garbage ecdsa keysDir =
      if keysDir.Roomy then some ((keyNames ecdsa).map (slashed keysDir.bytes ++ ·)) else none :=
  ⟨exists_commandLine keysDir, keyPaths_eq garbage ecdsa keysDir⟩

/-- The directory that is taken where none is given fits. -/
example : defaultKeysFolder.Roomy := by decide

end HaasProxy
