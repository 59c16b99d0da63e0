import HaasProxy.Descriptors
import Mathlib.Data.Bool.Basic

/-!
# Who serves the clients (`main.c`)

What is true of all processes of the program, in every order of their steps, whatever the
system calls answer and whoever is killed.

At most one of them is the main process, and what its loop does is a run of the machine
`master`: what is known of the master carries over to the program (`clientsWithin`).  It
counts its children right, so that there are never more processes that serve a client than
`ConnLimit`.  Each of them holds the connection that it serves, and no other
(`clientsApart`).

## Main results

* `clientsWithin` — the main process, its loop and its count;
* `clientsApart` — what a process that serves a client has, and that no two share any of it.

## Design notes

Two models meet here.  The machine `master` has no processes: it counts children, and its
actions say that one of them has exited.  The family of processes has the children
themselves.  `Refines` says that the variables of the loop are in a state the machine
reaches, and `KidsCounted` that the machine's count is the number of members that are
there.  The bound on the children is then that of the machine.

That a connection belongs to one process is a count as well: `claims` is true of the process
that has accepted it until it forks, and of the child from then on, so at every step it is
kept or handed on (`Lib.Family`, the rule for what only one member can have).
-/

namespace HaasProxy

namespace Process

variable {answers : List GetoptAnswer} {operands : Bool} {start : Files}
variable {connections connections' : List SockAddrIn}
variable {p p' : Process} {child : Option Process} {reply : Reply} {event : Event}

/-! ## The configuration

What `ConfigParse` has read does not change any more, and every child inherits it. -/

/-- Behind `ConfigParse` nobody goes on but with what it has accepted. -/
structure Configured (answers : List GetoptAnswer) (operands : Bool) (p : Process) : Prop where
  /-- It has the configuration of the command line, or has not read that yet. -/
  config : p.config = (configParse answers operands configInit).1 ∨ p.config = configInit
  /-- Unless it has not read that yet or has ended, what it has read was accepted. -/
  accepted : p.place ≠ .parse → (∀ code, p.place ≠ .ended code) →
    Starts (configParse answers operands configInit) ∧
      p.config = (configParse answers operands configInit).1

/-- The program is started with the configuration of `ConfigInit`. -/
private theorem configured_initial (start : Files) : (initial start).Configured answers operands :=
  ⟨.inr rfl, fun beyond => absurd rfl beyond⟩

/-- Nobody but `ConfigParse` changes the configuration. -/
theorem Configured.congr (h : p.Configured answers operands) (config : p'.config = p.config)
    (beyond : p.place ≠ .parse) (alive : ∀ code, p.place ≠ .ended code) :
    p'.Configured answers operands := by
  obtain ⟨starts, parsed⟩ := h.accepted beyond alive
  exact ⟨.inl (config.trans parsed), fun _ _ => ⟨starts, config.trans parsed⟩⟩

/-- Behind `ConfigParse` the process returns, or goes on as it should. -/
private theorem startup_parse (step : p.startup answers operands .parse reply = some (p', child)) :
    child = none ∧ ((∃ code, p'.place = .ended code) ∨
      Starts (configParse answers operands configInit)) := by
  cases reply <;> simp only [startup, reduceCtorEq] at step
  split_ifs at step with failed help <;> cases step
  · exact ⟨rfl, .inl ⟨_, rfl⟩⟩
  · exact ⟨rfl, .inl ⟨_, rfl⟩⟩
  · exact ⟨rfl, .inr ⟨by simpa using failed, by simpa using help⟩⟩
  · exact ⟨rfl, .inr ⟨by simpa using failed, by simpa using help⟩⟩

/-- Each step of a process keeps this, for itself and for the child it may get. -/
private theorem configured_step (h : p.Configured answers operands) (alive : p.hasEnded = false)
    (step : p.step answers operands connections event = some (connections', p', child)) :
    p'.Configured answers operands ∧ ∀ c ∈ child, c.Configured answers operands := by
  have notEnded (code : Option Nat) : p.place ≠ .ended code := by
    intro ended
    simp [hasEnded, ended] at alive
  rcases step_cases step with ⟨-, rfl, rfl, rfl⟩ | ⟨sig, -, rfl, rfl, -, eq⟩ | ⟨reply, -, parts⟩
  · exact ⟨⟨h.config, fun _ goesOn => absurd rfl (goesOn none)⟩, fun c mem => by cases mem⟩
  · rw [eq]
    exact ⟨⟨h.config, h.accepted⟩, fun c mem => by cases mem⟩
  · rcases parts with ⟨here, taken⟩ | ⟨last, rfl, rfl, taken⟩ | ⟨-, -, rfl, taken⟩
    · obtain ⟨outcome, -, config, -, -, -, -, becomes⟩ := loopStep_spec taken
      have beyond : p.place ≠ .parse := by simp [here]
      refine ⟨h.congr config beyond notEnded, fun c mem => ?_⟩
      rcases becomes with ⟨-, -, -, -, -, -, rfl, -⟩ | ⟨-, ⟨-, rfl⟩ | ⟨-, -, -, -, rfl⟩⟩
      · cases mem
      · cases mem
      · cases mem
        exact h.congr rfl beyond notEnded
    · obtain ⟨-, -, config, -⟩ := lastStep_spec taken
      have beyond : p.place ≠ .parse := by
        intro parse
        simp [parse, Place.last] at last
      exact ⟨h.congr config beyond notEnded, fun c mem => by cases mem⟩
    · obtain ⟨-, -, config, -, kids⟩ := startup_spec taken
      rcases config with ⟨parse, config⟩ | ⟨beyond, config⟩
      · rw [parse] at taken
        obtain ⟨rfl, starts⟩ := startup_parse taken
        refine ⟨⟨.inl config, fun _ goesOn => ⟨starts.resolve_left ?_, config⟩⟩,
          fun c mem => by cases mem⟩
        rintro ⟨code, ended⟩
        exact goesOn code ended
      · refine ⟨h.congr config beyond notEnded, fun c mem => ?_⟩
        rcases kids with ⟨rfl, -⟩ | ⟨-, -, c', given, -, -, -, config', -⟩
        · cases mem
        · obtain rfl := Option.mem_unique mem given
          exact h.congr config' beyond notEnded

/-! ## The loop is the master

The steps of the parent inside of its loop, together with signals and the ends of its
children, are a run of `master`. So what holds in every run of that machine holds of the
program. -/

/-- The variables of the loop are in a state that the machine `master` reaches; in front of
`ConfigParse` there were only signals. -/
def Refines (p : Process) : Prop :=
  p.role = .main → ∃ as, (HaasProxy.master p.config).run as = some p.master ∧
    (p.place = .parse → ∀ a ∈ as, ∃ sig, a = .signal sig)

/-- Signals do to the master what they do, whatever the configuration. -/
private theorem runFrom_signals {config config' : Config} {s : Master} {as : List Action}
    (signals : ∀ a ∈ as, ∃ sig, a = .signal sig) :
    (HaasProxy.master config).runFrom s as = (HaasProxy.master config').runFrom s as := by
  induction as generalizing s with
  | nil => rfl
  | cons a as ih =>
      obtain ⟨sig, rfl⟩ := signals a List.mem_cons_self
      rw [Machine.runFrom_cons, Machine.runFrom_cons]
      exact congrArg _ (funext fun _ => ih fun a mem => signals a (List.mem_cons_of_mem _ mem))

theorem run_concat {config : Config} {s s' : Master} {as : List Action} {a : Action}
    (run : (HaasProxy.master config).run as = some s) (step : s.step config a = some s') :
    (HaasProxy.master config).run (as ++ [a]) = some s' := by
  rw [Machine.run] at run ⊢
  rw [Machine.runFrom_append, run]
  exact (congrArg (Option.bind · _) step : _)

/-- The process that is started has run the machine for no steps. -/
theorem refines_initial (start : Files) : (initial start).Refines :=
  fun _ => ⟨[], rfl, fun _ a mem => by cases mem⟩

/-- **Simulation.** A step of a process is a step of the machine `master`, or leaves alone what
the machine is about.  Nothing is asked of a child that serves a client; the one that
`daemonize` goes on in has run the machine as far as its parent. -/
theorem refines_step (h : p.Refines)
    (step : p.step answers operands connections event = some (connections', p', child)) :
    p'.Refines ∧ ∀ c ∈ child, c.Refines := by
  rcases step_cases step with ⟨-, rfl, rfl, rfl⟩ | ⟨sig, -, rfl, rfl, handled, eq⟩ | ⟨reply, -, parts⟩
  · refine ⟨fun main => ?_, fun c mem => by cases mem⟩
    obtain ⟨as, run, -⟩ := h main
    exact ⟨as, run, fun parse => by cases parse⟩
  · refine ⟨fun main => ?_, fun c mem => by cases mem⟩
    rw [eq] at main
    obtain ⟨as, run, signals⟩ := h main
    rw [eq]
    refine ⟨as ++ [.signal sig], run_concat run handled, fun parse a mem => ?_⟩
    rcases List.mem_append.mp mem with earlier | now
    · exact signals parse a earlier
    · exact ⟨sig, List.mem_singleton.mp now⟩
  · rcases parts with ⟨here, taken⟩ | ⟨last, rfl, rfl, taken⟩ | ⟨-, -, rfl, taken⟩
    · -- the loop: one more step of the master, unless this is its child
      obtain ⟨outcome, stepped, config, role, -, -, place, becomes⟩ := loopStep_spec taken
      refine ⟨fun main => ?_, fun c mem => ?_⟩
      · obtain ⟨as, run, -⟩ := h (role.symm.trans main)
        rw [config]
        refine ⟨as ++ [.main outcome], run_concat (a := .main outcome) run stepped, fun parse => ?_⟩
        rw [place] at parse
        unfold placeOf at parse
        split at parse <;> cases parse
      · rcases becomes with ⟨-, -, -, -, -, -, rfl, -⟩ | ⟨-, ⟨-, rfl⟩ | ⟨-, -, -, -, rfl⟩⟩
        · cases mem
        · cases mem
        · cases mem
          exact fun main => by cases main
    · obtain ⟨master, role, config, -, -, -, -, place⟩ := lastStep_spec taken
      refine ⟨fun main => ?_, fun c mem => by cases mem⟩
      obtain ⟨as, run, -⟩ := h (role.symm.trans main)
      rw [master, config]
      exact ⟨as, run, fun parse => absurd parse place⟩
    · -- in front of the loop the variables stay as they are, and only signals have come
      obtain ⟨master, -, config, place, kids⟩ := startup_spec taken
      refine ⟨fun main => ?_, fun c mem main => ?_⟩
      · have was : p.role = .main := by
          rcases kids with ⟨-, role⟩ | ⟨-, left, -⟩
          · exact role.symm.trans main
          · cases left.symm.trans main
        obtain ⟨as, run, signals⟩ := h was
        refine ⟨as, ?_, fun parse => absurd parse place⟩
        rw [master, ← run]
        rcases config with ⟨parse, -⟩ | ⟨-, config⟩
        · exact runFrom_signals (signals parse)
        · rw [config]
      · rcases kids with ⟨rfl, -⟩ | ⟨-, -, c', given, role, master', -, config', at_⟩
        · cases mem
        · obtain rfl := Option.mem_unique mem given
          obtain ⟨as, run, -⟩ := h (role.symm.trans main)
          rw [master', config']
          refine ⟨as, run, fun parse => ?_⟩
          rcases at_ with at_ | at_ <;> cases at_.symm.trans parse

/-- The death of a child is a step of the machine as well. -/
theorem Refines.bereave (h : p.Refines) (tabled : p.Tabled start connections) (c : Process) :
    (Process.bereave c p).Refines := by
  unfold Process.bereave
  split
  · intro main
    obtain ⟨as, run, signals⟩ := h main
    cases told : p.master.step p.config .childExit with
    | none => exact ⟨as, run, signals⟩
    | some master =>
        refine ⟨as ++ [.childExit], run_concat run told, fun parse => ?_⟩
        -- there are no children yet
        have place : p.place = .parse := parse
        simp only [Tabled, place] at tabled
        simp [Master.step, tabled.1.running] at told
  · exact h

/-! ## Who has what -/

/-- It serves a client. -/
def isClient (p : Process) : Bool :=
  match p.role with
  | .client _ => true
  | _ => false

/-- How many processes serve a client, as the main process sees it. -/
def kids (p : Process) : Nat := if p.role = .main then p.master.running else 0

/-- Between `accept()` and `fork()`. -/
def pending : Pc → Bool
  | .admission _ | .fork _ => true
  | _ => false

/-- It is the process of a connection, or the one that will fork it. -/
def claims (connection : Nat) (connections : List SockAddrIn) (p : Process) : Bool :=
  match p.role with
  | .client served => served = connection
  | .main => connections.length ≤ connection || (pending p.master.pc && p.connection = connection)
  | .left => false

/-- All that is known of a process. -/
structure Sound (answers : List GetoptAnswer) (operands : Bool) (start : Files)
    (connections : List SockAddrIn) (p : Process) : Prop where
  /-- Its descriptor table is what the source says where it stands. -/
  tabled : p.Tabled start connections
  /-- Its configuration is that of the command line. -/
  configured : p.Configured answers operands
  /-- Its loop is a run of the loop alone. -/
  refines : p.Refines

/-- What is true of all processes is true of the first. -/
private theorem sound_initial (start : Files) : (initial start).Sound answers operands start [] :=
  ⟨tabled_initial start, configured_initial start, refines_initial start⟩

/-- A step of a process keeps what is sound about it, about a child it forks, and about
every process that has no part in the step: connections are only added at the end of the
list. -/
private theorem sound_step (h : p.Sound answers operands start connections)
    (alive : p.hasEnded = false)
    (step : p.step answers operands connections event = some (connections', p', child)) :
    p'.Sound answers operands start connections' ∧
      (∀ c ∈ child, c.Sound answers operands start connections') ∧
      ∀ q : Process, q.Sound answers operands start connections →
        q.Sound answers operands start connections' := by
  obtain ⟨tabled, tabledKid, others⟩ := tabled_step h.tabled step
  obtain ⟨configured, configuredKid⟩ := configured_step h.configured alive step
  obtain ⟨refines, refinesKid⟩ := refines_step h.refines step
  exact ⟨⟨tabled, configured, refines⟩,
    fun c mem => ⟨tabledKid c mem, configuredKid c mem, refinesKid c mem⟩,
    fun q sound => ⟨others q sound.tabled, sound.configured, sound.refines⟩⟩

/-- A parent that is told of the death of a child is as sound as before. -/
theorem Sound.bereave (h : p.Sound answers operands start connections) (c : Process) :
    (Process.bereave c p).Sound answers operands start connections := by
  refine ⟨h.tabled.bereave c, ?_, h.refines.bereave h.tabled c⟩
  unfold Process.bereave
  split
  · exact ⟨h.configured.config, h.configured.accepted⟩
  · exact h.configured

/-! ## Counting children

A death is told to the parent in the step that ends the child, as an exited child that was
not waited for yet.  What the handler makes of it comes later. -/

/-- Only `fork()` makes a child. -/
theorem running_mainStep {config : Config} {s s' : Master} {outcome : Outcome}
    (step : s.mainStep config s.pc outcome = some s') :
    s'.running = s.running + (if outcome = .forked then 1 else 0) := by
  generalize s.pc = pc at step
  unfold Master.mainStep at step
  cases pc <;> cases outcome <;> simp only [reduceCtorEq] at step
  case blocked.selectReady =>
    split_ifs at step <;> cases step <;> rfl
  all_goals
    cases step
    rfl

/-- How many children a process has is counted by its role and its `running`. -/
theorem kids_congr (role : p'.role = p.role) (running : p'.master.running = p.master.running) :
    p'.kids = p.kids := by
  rw [kids, kids, role, running]

theorem isClient_congr (role : p'.role = p.role) : p'.isClient = p.isClient := by
  rw [isClient, isClient, role]

/-- **The main process counts right.** Where it forks, the child becomes one that serves
a client and `running` goes up by one; no other step does either. This is what the
library's theorem about families needs of the program. -/
theorem countsKids : (processes answers operands).CountsKids
    (Process.Sound answers operands start) Process.isClient Process.kids where
  step := by
    intro connections p event connections' p' child sound _ step
    rcases step_cases step with ⟨-, -, rfl, rfl⟩ | ⟨sig, -, -, rfl, handled, eq⟩ | ⟨reply, -, parts⟩
    · exact ⟨rfl, rfl, fun c mem => by cases mem⟩
    · -- a signal reaps zombies, which are not among the running
      have running : p'.master.running = p.master.running := by
        have same := (sigHandler_spec sig p.master).2.2.2.2.2.1
        simp only [Master.step] at handled
        split at handled <;> rw [← Option.some.inj handled] <;> exact same
      have role : p'.role = p.role := by rw [eq]
      exact ⟨kids_congr role running, isClient_congr role, fun c mem => by cases mem⟩
    · -- in the loop, behind it, or in front of it
      rcases parts with ⟨here, taken⟩ | ⟨last, -, rfl, taken⟩ | ⟨-, -, -, taken⟩
      · obtain ⟨outcome, stepped, -, role, -, -, -, becomes⟩ := loopStep_spec taken
        have main : p.role = .main := by
          have tabled := sound.tabled
          simp only [Tabled, here] at tabled
          exact tabled.1
        have running := running_mainStep stepped
        refine ⟨?_, isClient_congr role, ?_⟩
        · rw [kids, kids, role, if_pos main, if_pos main, running]
          rcases becomes with ⟨-, -, -, -, rfl, -, rfl, -⟩ | ⟨-, ⟨other, rfl⟩ | ⟨-, -, rfl, -, rfl⟩⟩
          · rfl
          · rw [if_neg other]
            rfl
          · rfl
        · rcases becomes with ⟨-, -, -, -, -, -, rfl, -⟩ | ⟨-, ⟨-, rfl⟩ | ⟨-, -, -, -, rfl⟩⟩
          · exact fun c mem => by cases mem
          · exact fun c mem => by cases mem
          · rintro c ⟨⟩
            exact ⟨rfl, rfl⟩
      · obtain ⟨master, role, -⟩ := lastStep_spec taken
        exact ⟨kids_congr role (by rw [master]), isClient_congr role, fun c mem => by cases mem⟩
      · obtain ⟨master, -, -, -, children⟩ := startup_spec taken
        rcases children with ⟨rfl, role⟩ | ⟨forks, left, c, given, role, same, -, -, at_⟩
        · exact ⟨kids_congr role (by rw [master]), isClient_congr role, fun c mem => by cases mem⟩
        · have fresh : p.Fresh := by
            have tabled := sound.tabled
            rcases forks with here | here <;> simp only [Tabled, here] at tabled <;> exact tabled.1
          obtain rfl := Option.mem_def.mp given
          have kidsC : c.kids = 0 := by rw [kids, role, fresh.role, if_pos rfl, same, fresh.running]
          refine ⟨?_, ?_, ?_⟩
          · simp [kids, left, fresh.role, fresh.running, isClient, role]
          · simp [isClient, left, fresh.role]
          · rintro c' ⟨⟩
            refine ⟨?_, kidsC⟩
            rcases at_ with at_ | at_ <;> simp [processes, hasEnded, at_]
  bereave := by
    intro c p
    simp only [processes, Process.bereave]
    cases role : c.role with
    | client connection =>
        refine ⟨?_, rfl, rfl⟩
        have gone : ((p.master.step p.config .childExit).getD p.master).running =
            p.master.running - 1 := by
          simp only [Master.step]
          split <;> simp [*]
        by_cases main : p.role = .main
        · simp [kids, main, gone, isClient, role]
        · simp [kids, main]
    | main => exact ⟨by simp [isClient, role], rfl, rfl⟩
    | left => exact ⟨by simp [isClient, role], rfl, rfl⟩

/-! ## What only one process has

The role of the main process, and each of the connections. -/

/-- It is the main process, or was. -/
def isMain (p : Process) : Bool := p.role = .main

/-- The role of the main process is handed on, as in `daemonize`, and never doubled. -/
private theorem isMain_step (step : p.step answers operands connections event =
    some (connections', p', child)) :
    p'.isMain.toNat + (child.elim false isMain).toNat ≤ p.isMain.toNat := by
  rcases step_cases step with ⟨-, -, rfl, rfl⟩ | ⟨sig, -, -, rfl, -, eq⟩ | ⟨reply, -, parts⟩
  · exact Nat.le_refl _
  · rw [eq]
    exact Nat.le_refl _
  · rcases parts with ⟨-, taken⟩ | ⟨-, -, rfl, taken⟩ | ⟨-, -, -, taken⟩
    · obtain ⟨outcome, -, -, role, -, -, -, becomes⟩ := loopStep_spec taken
      rcases becomes with ⟨-, -, -, -, -, -, rfl, -⟩ | ⟨-, ⟨-, rfl⟩ | ⟨-, -, -, -, rfl⟩⟩ <;>
        simp [isMain, role, clientChild]
    · obtain ⟨-, role, -⟩ := lastStep_spec taken
      simp [isMain, role]
    · obtain ⟨-, -, -, -, children⟩ := startup_spec taken
      rcases children with ⟨rfl, role⟩ | ⟨-, left, c, given, role, -⟩
      · simp [isMain, role]
      · obtain rfl := Option.mem_def.mp given
        simp [isMain, left, role]

/-- A connection that waits to be handed on is held. -/
private theorem holdsClient_of_pending {pc : Pc} (before : pending pc = true) :
    holdsClient pc = true := by
  cases pc <;> first | rfl | cases before

/-- What waits now has waited before, or was accepted by this step. -/
private theorem pending_mainStep {config : Config} {s s' : Master} {outcome : Outcome}
    (step : s.mainStep config s.pc outcome = some s') (after : pending s'.pc = true) :
    pending s.pc = true ∨ ∃ console, s.pc = .accept console := by
  generalize s.pc = pc at step
  unfold Master.mainStep at step
  cases pc <;> cases outcome <;> simp only [reduceCtorEq] at step
  case accept.accepted console | accept.acceptFailed console _ => exact .inr ⟨console, rfl⟩
  case admission.none | fork.forked | fork.forkFailed => exact .inl rfl
  case countChild.none console =>
    cases step
    cases console <;> simp [pending, Pc.afterAccept] at after
  case blocked.selectReady =>
    split_ifs at step <;> cases step <;> simp [pending] at after
  case acceptErrno.none console =>
    cases step
    by_cases interrupted : s.errno = .eintr <;> cases console <;>
      simp [pending, Pc.afterAccept, interrupted] at after
  all_goals
    cases step
    (try split_ifs at after) <;> simp [pending] at after

/-- A claim on a connection depends on the role, the number and whether the connection
waits. -/
theorem claims_congr {connection : Nat} (role : p'.role = p.role)
    (number : p'.connection = p.connection)
    (pc : pending p'.master.pc = true → pending p.master.pc = true)
    (claimed : p'.claims connection connections = true) : p.claims connection connections = true := by
  unfold claims at claimed ⊢
  rw [role, number] at claimed
  cases role : p.role with
  | main =>
      simp only [role, Bool.or_eq_true, Bool.and_eq_true] at claimed ⊢
      exact claimed.imp id (And.imp_left pc)
  | _ => simpa only [role] using claimed

/-- A process keeps its claim to a connection, hands it on to its child, or drops it. -/
theorem claims_step (connection : Nat) (tabled : p.Tabled start connections)
    (step : p.step answers operands connections event = some (connections', p', child)) :
    (p'.claims connection connections').toNat +
      (child.elim false (claims connection connections')).toNat ≤
      (p.claims connection connections).toNat ∧
    ∀ q : Process, claims connection connections' q = true →
      claims connection connections q = true := by
  have keeps (role : p'.role = p.role) (number : p'.connection = p.connection)
      (pc : pending p'.master.pc = true → pending p.master.pc = true) :
      (p'.claims connection connections).toNat ≤ (p.claims connection connections).toNat :=
    Bool.toNat_le_toNat (Bool.le_iff_imp.mpr (claims_congr role number pc))
  rcases step_cases step with ⟨-, rfl, rfl, rfl⟩ | ⟨sig, -, rfl, rfl, handled, eq⟩ | ⟨reply, -, parts⟩
  · exact ⟨Nat.le_refl _, fun q => id⟩
  · refine ⟨keeps (by rw [eq]) (by rw [eq]) ?_, fun q => id⟩
    simp only [Master.step] at handled
    split at handled <;> rw [← Option.some.inj handled]
    · exact fun pending => by cases pending
    · rw [(sigHandler_spec sig p.master).1]
      exact id
  · rcases parts with ⟨here, taken⟩ | ⟨-, rfl, rfl, taken⟩ | ⟨-, -, rfl, taken⟩
    · obtain ⟨outcome, stepped, -, role, -, -, -, becomes⟩ := loopStep_spec taken
      simp only [Tabled, here] at tabled
      obtain ⟨main, -, socket, -, -, held, -⟩ := tabled
      rcases becomes with ⟨console, descriptor, sin, pc, -, pc', rfl, accepts⟩ | ⟨goesOn, forks⟩
      · -- a client is accepted: the claim on its connection was the one on all later ones
        have grown : connections'.length = connections.length + 1 := by simp [accepts.grown]
        refine ⟨?_, fun q claimed => ?_⟩
        · refine Bool.toNat_le_toNat (Bool.le_iff_imp.mpr fun claimed => ?_)
          simp only [claims, role, main, pc', pc, pending, accepts.number, grown, Bool.true_and,
            Bool.false_and, Bool.or_false, Bool.or_eq_true, decide_eq_true_eq] at claimed ⊢
          omega
        · unfold claims at claimed ⊢
          cases other : q.role with
          | main =>
              simp only [other, grown, Bool.or_eq_true, decide_eq_true_eq] at claimed ⊢
              exact claimed.imp (fun later => by omega) id
          | _ => simpa only [other] using claimed
      · -- no new connection; a child that is forked takes over its parent's claim
        rw [goesOn.same]
        refine ⟨?_, fun q => id⟩
        rcases forks with ⟨-, rfl⟩ | ⟨console, pc, -, pc', rfl⟩
        · refine keeps role goesOn.number fun after => ?_
          rcases pending_mainStep stepped after with before | ⟨console, pc⟩
          · exact before
          · have holds := goesOn.holds (holdsClient_of_pending after)
            rw [pc] at holds
            cases holds
        · obtain ⟨-, sin, at_, -⟩ := held (by rw [pc]; rfl)
          have known := (List.getElem?_eq_some_iff.mp at_).1
          have notLater : connections.length ≤ connection → p.connection ≠ connection := by omega
          by_cases later : connections.length ≤ connection
          · simp [claims, role, main, pc', pc, pending, later, clientChild, notLater later]
          · simp [claims, role, main, pc', pc, pending, later, clientChild]
    · obtain ⟨master, role, -, number, -⟩ := lastStep_spec taken
      exact ⟨keeps role number (by rw [master]; exact id), fun q => id⟩
    · obtain ⟨master, number, -, -, children⟩ := startup_spec taken
      refine ⟨?_, fun q => id⟩
      rcases children with ⟨rfl, role⟩ | ⟨-, left, c, given, role, master', number', -⟩
      · exact keeps role number (by rw [master]; exact id)
      · obtain rfl := Option.mem_def.mp given
        simp [claims, left, role, master', number']

end Process

/-! ## The whole program

Three invariants of the family: what each process knows, how many children the parent has,
and who holds which connection. -/

section Program

variable {answers : List GetoptAnswer} {operands : Bool} {start : Files}
variable {as : List (Nat × Process.Event)} {f : Family (List SockAddrIn) Process}

/-- What is known of all processes. -/
structure FamilySound (answers : List GetoptAnswer) (operands : Bool) (start : Files)
    (f : Family (List SockAddrIn) Process) : Prop where
  /-- Each process by itself. -/
  sound : ∀ m ∈ f.members, m.self.Sound answers operands start f.common
  /-- Everybody counts as many children as there are. -/
  kids : (processes answers operands).KidsCounted Process.isClient Process.kids f.members
  /-- At most one process runs the loop. -/
  main : (f.members.countP fun m => m.self.isMain) ≤ 1
  /-- At most one process serves a connection, or is about to. -/
  claims : ∀ connection, (f.members.countP fun m => m.self.claims connection f.common) ≤ 1

/-- At first there is the one process, with the files that it was started with. -/
private theorem familySound_initial (start : Files) :
    FamilySound answers operands start ⟨[], [⟨none, .initial start⟩]⟩ where
  sound := by
    intro m mem
    obtain rfl := List.mem_singleton.mp mem
    exact Process.sound_initial start
  kids := by
    refine ⟨?_, ?_, ?_⟩
    · intro i m at_
      have first : i = 0 := by
        have := (List.getElem?_eq_some_iff.mp at_).1
        simpa using this
      subst first
      obtain rfl : _ = m := by simpa using at_
      rfl
    · intro i m j at_ parent
      obtain rfl := List.mem_singleton.mp (List.mem_of_getElem? at_)
      cases parent
    · intro m mem client
      obtain rfl := List.mem_singleton.mp mem
      cases client
  main := by simp [Process.isMain, Process.initial]
  claims connection := List.countP_le_length

/-- **All runs.** By induction, over the steps of all processes in any order. -/
theorem familySound_of_run (run : (program answers operands start).run as = some f) :
    FamilySound answers operands start f := by
  refine Machine.inv_of_run (m := program answers operands start) (familySound_initial start) ?_ run
  intro f a f' all step
  refine ⟨?_, Breed.kids_of_step Process.countsKids all.sound all.kids step, ?_, fun connection => ?_⟩
  · exact Breed.forall_of_step (P := Process.Sound answers operands start)
      (fun _ _ _ _ _ _ sound alive step => Process.sound_step sound alive step)
      (fun _ c _ sound => sound.bereave c) all.sound step
  · refine (Breed.countP_le_of_step (P := fun _ _ => True) (fun _ => Process.isMain)
      (fun _ _ _ _ _ _ _ _ step => ⟨Process.isMain_step step, fun q => id⟩) ?_
      (fun _ _ => trivial) step).trans all.main
    intro connections c p main
    simp only [processes, Process.bereave] at main
    split at main <;> exact main
  · refine (Breed.countP_le_of_step (P := Process.Sound answers operands start)
      (Process.claims connection)
      (fun _ _ _ _ _ _ sound _ step => Process.claims_step connection sound.tabled step) ?_
      all.sound step).trans (all.claims connection)
    intro connections c p
    refine Process.claims_congr ?_ ?_ ?_
    all_goals
      simp only [processes, Process.bereave]
      split
    · rfl
    · rfl
    · rfl
    · rfl
    · simp only [Master.step]
      split <;> exact id
    · exact id

/-- The processes that serve a client at the moment. -/
def livingClients (f : Family (List SockAddrIn) Process) : Nat :=
  f.members.countP fun m => m.self.isClient && !m.self.hasEnded

/-- The main process has no more children than the limit, by what is known of the
machine. -/
private theorem running_le {p : Process} (sound : p.Sound answers operands start f.common)
    (main : p.role = .main) :
    (p.master.running : Int) ≤ max (configParse answers operands configInit).1.connLimit 0 := by
  obtain ⟨as, run, -⟩ := sound.refines main
  have limit := (Machine.inv_of_run (P := Master.Inv p.config) (inv_initial p.config)
    (fun _ _ _ inv step => Master.inv_step inv step) run).limit
  rcases sound.configured.config with parsed | unset
  · rw [parsed] at limit
    exact limit
  · rw [unset] at limit
    have unlimited : configInit.connLimit ≤ 0 := by decide
    exact limit.trans (max_le (unlimited.trans (Int.le_max_right _ _)) (Int.le_max_right _ _))

/-- **The main process and its clients**, in every run of the program.  At most one process
is the main one, its loop is the machine `master`, and it counts right: the processes that
serve a client are as many as it says, and not more than `ConnLimit`. -/
theorem clientsWithin (run : (program answers operands start).run as = some f) :
    (f.members.countP fun m => m.self.isMain) ≤ 1 ∧
    (∀ m ∈ f.members, m.self.role = .main →
      (∃ as, (master m.self.config).run as = some m.self.master) ∧
        livingClients f = m.self.master.running) ∧
    (livingClients f : Int) ≤ max (configParse answers operands configInit).1.connLimit 0 := by
  have all := familySound_of_run run
  have able : ∀ m ∈ f.members, 0 < m.self.kids → m.self.isMain = true := by
    intro m _ some
    by_contra other
    simp only [Process.isMain, decide_eq_true_eq] at other
    simp [Process.kids, other] at some
  have count (m : Member Process) (mem : m ∈ f.members) (main : m.self.role = .main) :
      livingClients f = m.self.master.running := by
    have kids := all.kids.countP_eq all.main able mem (decide_eq_true main)
    rw [Process.kids, if_pos main] at kids
    exact kids
  refine ⟨all.main, fun m mem main => ⟨?_, count m mem main⟩, ?_⟩
  · obtain ⟨as, run, -⟩ := (all.sound m mem).refines main
    exact ⟨as, run⟩
  · by_cases any : livingClients f = 0
    · rw [any]
      exact Int.le_max_right _ _
    · obtain ⟨c, mem, living⟩ := List.countP_pos_iff.mp (Nat.pos_of_ne_zero any)
      obtain ⟨j, q, -, at_, some⟩ := all.kids.parent_of_living mem living
      have mem := List.mem_of_getElem? at_
      have main : q.self.role = .main := by simpa [Process.isMain] using able q mem some
      rw [count q mem main]
      exact running_le (all.sound q mem) main

/-- A process that got past `ConfigParse` has the values of the reference. -/
theorem configured_reference {p : Process} (sound : p.Sound answers operands start f.common)
    (beyond : p.place ≠ .parse) (alive : ∀ code, p.place ≠ .ended code) :
    Valid answers operands ∧ p.config = reference answers := by
  obtain ⟨starts, config⟩ := sound.configured.accepted beyond alive
  have valid := valid_of_starts starts
  exact ⟨valid, by rw [config, configParse_of_valid valid]⟩

/-- **Every client on its own**, in every run of the program.  A process that enters
`ProxyProcess` has a configuration that the command line gives, the address of its client,
and no descriptor but its client's and those of the base; no other process serves this
connection.  The main process holds no client while it waits, and what comes to its end
without serving a client has closed what it opened. -/
theorem clientsApart (run : (program answers operands start).run as = some f) :
    (∀ m ∈ f.members, m.self.place = .proxyProcess →
      (Valid answers operands ∧ m.self.config = reference answers) ∧ m.self.Settled start ∧
      ∃ connection descriptor sin, m.self.role = .client connection ∧
        f.common[connection]? = some sin ∧ m.self.sin = some sin ∧
        m.self.childSock = some descriptor ∧ m.self.base descriptor = none ∧
        m.self.files = m.self.base.put descriptor (.client connection)) ∧
    (∀ connection, (f.members.countP fun m => m.self.role = .client connection) ≤ 1) ∧
    (∀ m ∈ f.members, m.self.place = .loop → Process.holdsClient m.self.master.pc = false →
      m.self.Settled start ∧
      ∃ socket, m.self.masterSock = some socket ∧ m.self.base socket = none ∧
        m.self.files = m.self.base.put socket (.server (.listening m.self.config.trapPort))) ∧
    ∀ m ∈ f.members, ∀ code, m.self.place = .ended (some code) → m.self.isClient = false →
      m.self.files = m.self.base := by
  have all := familySound_of_run run
  refine ⟨fun m mem here => ?_, fun connection => ?_, fun m mem here bare => ?_,
    fun m mem code here notClient => ?_⟩
  · have sound := all.sound m mem
    have tabled := sound.tabled
    simp only [Process.Tabled, here] at tabled
    obtain ⟨role, settled, -, ⟨descriptor, opened, free, files⟩, sin, at_, peer⟩ := tabled
    refine ⟨configured_reference sound (by simp [here]) (by simp [here]), settled, ?_⟩
    exact ⟨_, descriptor, sin, role, at_, peer, opened, free, files⟩
  · refine (List.countP_mono_left fun m _ role => ?_).trans (all.claims connection)
    rw [Process.claims, of_decide_eq_true role]
    exact decide_eq_true rfl
  · have sound := all.sound m mem
    have tabled := sound.tabled
    simp only [Process.Tabled, here] at tabled
    obtain ⟨-, settled, socket, sock, free, -, files⟩ := tabled
    obtain ⟨valid, config⟩ := configured_reference sound (by simp [here]) (by simp [here])
    have port : m.self.config.trapPort % 65536 = m.self.config.trapPort := by
      have := (reference_usable valid).trapPort
      rw [config]
      omega
    exact ⟨settled, socket, sock, free, by rw [files bare, Process.listens, port]⟩
  · have tabled := (all.sound m mem).tabled
    simp only [Process.Tabled, here] at tabled
    refine tabled (Option.some_ne_none code) fun connection client => ?_
    simp [Process.isClient, client] at notClient

end Program

/-! ## An example -/

/-- The program is started in the foreground with its standard descriptors, and a client
comes while another one is served. -/
def twoAtOnce : List (Nat × Process.Event) :=
  let next (i : Nat) (reply : Reply) : Nat × Process.Event := (i, .go reply)
  let comes (descriptor : Nat) : List (Nat × Process.Event) :=
    [next 0 (.loop .none), next 0 (.loop .none), next 0 (.loop (.selectReady true false)),
      next 0 (.accepted descriptor ⟨(192, 0, 2, 1), 0xC0, 0x00⟩), next 0 (.loop .none),
      next 0 .forked, next 0 (.loop .none)]
  [next 0 .done, next 0 (.opened 3), next 0 .done, next 0 .done, next 0 .done] ++
    comes 4 ++ comes 4 ++ [next 2 .done, next 1 .done]

/-- The standard descriptors. -/
def standardFiles : Files := fun i => if i < 3 then some (.inherited i) else none

/-- `-f -t root` -/
def foregroundAnswers : List GetoptAnswer := [.f, .withArgument .t .root]

theorem twoAtOnce_runs :
    ((program foregroundAnswers false standardFiles).run twoAtOnce).isSome := by
  decide +kernel

/-- The conditions can be met: two clients that are served at the same time. -/
theorem clientsWithin_twoAtOnce :
    let f := ((program foregroundAnswers false standardFiles).run twoAtOnce).get twoAtOnce_runs
    livingClients f = 2 ∧
      (f.members.countP fun m => m.self.isMain) ≤ 1 ∧
      (livingClients f : Int) ≤
        max (configParse foregroundAnswers false configInit).1.connLimit 0 :=
  have within := clientsWithin (Option.some_get twoAtOnce_runs).symm
  ⟨by decide +kernel, within.1, within.2.2⟩

/-- Both clients have the descriptor 4, each in its own process. -/
theorem clientsApart_twoAtOnce :
    let f := ((program foregroundAnswers false standardFiles).run twoAtOnce).get twoAtOnce_runs
    (f.members.map fun m => (m.self.files 3, m.self.files 4)) =
        [(some (.server (.listening 2222)), none), (none, some (.client 0)),
          (none, some (.client 1))] ∧
      ∀ connection, (f.members.countP fun m => m.self.role = .client connection) ≤ 1 :=
  ⟨by decide +kernel, (clientsApart (Option.some_get twoAtOnce_runs).symm).2.1⟩

end HaasProxy
