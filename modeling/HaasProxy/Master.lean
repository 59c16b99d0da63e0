import HaasProxy.Config
import HaasProxy.Lib.Machine

/-!
# The master loop (`main.c`)

`main`'s accept loop and `SigHandler` as one machine.  `main` advances by its
elementary steps: one access to a volatile variable, one system call or one test
at a time.  `SigHandler` runs to completion between any two of them, and a child
may exit at any moment.  What a system call returns is the label of the step.

Deaths are counted in two tombs: the handler buries in `GraveYard[CurrTomb]`,
and the drain block switches `CurrTomb` before it reads and burns the other one.
The fields below `zombies` are ghosts: no step reads them, they say in the model
what happened so far.

A signal that arrives inside `select()` makes it return `-1` with `EINTR`; at
every other point of the loop it leaves no trace but what the handler does.

## Main results

* `deaths_accounted` — no death is lost or counted twice, in any interleaving;
* `refusals_upToDate_iff` — when a refusal knows of all deaths there were.

## Why no death is lost

The handler and the drain touch the same two counters without a lock.  What makes this
work is the order of the drain's accesses, and `Master.TombsOk` spells it out, one clause
for each place inside of the block.

* `CurrTomb` is switched before the other tomb is read.  From the switch on the handler
  buries elsewhere, so what is read is what is burnt.
* The other tomb is empty whenever `CurrTomb` is switched to it, since the last drain
  has burnt it.
* The count that was read is held in a variable until it is subtracted.  It is one term of
  the balance meanwhile (`Master.held`), as is the child that `fork()` has returned and
  `ChildCount` does not count yet (`Master.uncounted`).

## Why a refusal may be wrong all the same

The drain stands in the branch of `select()` that was interrupted.  A child that dies
anywhere else in the loop is buried, and stays buried until a later signal interrupts
`select()`; up to then it counts.  `Master.SelectOk` says that nothing is counted off
between the entry into `select()` and the admission test, so what a refusal knows is
decided at the former.
-/

namespace HaasProxy

/-- The signals `main` installs `SigHandler` for. -/
inductive Signal where
  | pipe
  | int
  | hup
  | chld
  deriving DecidableEq, Repr

/-- The values of `errno` the loop tells apart. -/
inductive Errno where
  | zero
  | eintr
  | echild
  | other (code : Nat)
  deriving DecidableEq, Repr

/-- An index into `GraveYard`: `false` is 0 and `true` is 1. -/
abbrev Tomb := Bool

/-- Why the loop was left. -/
inductive ExitReason where
  /-- A signal has set `ShouldStop`. -/
  | shouldStop
  /-- `select()` failed, and not because of a signal. -/
  | selectFailed
  /-- ESC was pressed in the foreground, or the console could not be read. -/
  | console
  deriving DecidableEq, Repr

/-- Where `main` stands: the elementary step it takes next.  `console` is what
`FD_ISSET(0,&FDSet)` will answer later in the iteration, and a tomb is an index
that was read but not used yet. -/
inductive Pc where
  /-- `ShouldStop` is tested. -/
  | whileTest
  /-- `select()` is about to be entered. -/
  | select
  /-- It has been. -/
  | blocked
  /-- It failed, and `errno` is looked at. -/
  | selectErrno
  /-- The index of the tomb in use is read ... -/
  | tombIndex
  /-- ... and what is in it. -/
  | tombTest (index : Tomb)
  /-- The index is put aside. -/
  | remember
  /-- The tombs are switched: the index is read once more ... -/
  | switchLoad
  /-- ... and the other one stored. -/
  | switchStore (index : Tomb)
  /-- The deaths in the tomb put aside are read. -/
  | readDead
  /-- It is emptied. -/
  | burn
  /-- They are taken off `ChildCount`. -/
  | subtract
  /-- A client is accepted. -/
  | accept (console : Bool)
  /-- That failed, and `errno` is looked at. -/
  | acceptErrno (console : Bool)
  /-- `ChildCount` is compared with the limit. -/
  | admission (console : Bool)
  /-- A child is made. -/
  | fork (console : Bool)
  /-- It is counted. -/
  | countChild (console : Bool)
  /-- A key is read. -/
  | consoleRead
  /-- That failed, and `errno` is looked at. -/
  | consoleErrno
  /-- The loop was left. -/
  | exited (reason : ExitReason)
  deriving DecidableEq, Repr

/-- What was the case when `select()` was entered. -/
structure Census where
  /-- Deaths the handler had buried. -/
  registered : Nat
  /-- Those of them that were still in a tomb. -/
  waiting : Nat
  running : Nat
  zombies : Nat
  deriving DecidableEq, Repr

/-- `main`'s variables, the handler's globals, the children, and ghosts. -/
structure Master where
  pc : Pc
  /-- Set by the handler, read by the loop. -/
  shouldStop : Bool
  errno : Errno
  /-- Which of the two tombs the handler buries in. -/
  currTomb : Tomb
  /-- The deaths in each of them. -/
  graveYard : Tomb → Nat
  /-- The tomb that was in use before the switch. -/
  prevTomb : Tomb
  /-- What was read from it. -/
  deadCount : Nat
  /-- What the loop believes to be running. -/
  childCount : Int
  /-- Children that have not exited. -/
  running : Nat
  /-- Children that have exited and were not reaped yet. -/
  zombies : Nat
  /-- Ghost: successful `fork()` calls so far. -/
  forked : Nat
  /-- Ghost: deaths `SigHandler` has buried so far. -/
  registered : Nat
  /-- Ghost: deaths already subtracted from `ChildCount`. -/
  subtracted : Nat
  /-- Ghost: the situation at the last entry into `select()`. -/
  atSelect : Census

/-- Before the loop. -/
def Master.initial : Master where
  pc := .whileTest
  shouldStop := false
  errno := .zero
  currTomb := false
  graveYard := fun _ => 0
  prevTomb := false
  deadCount := 0
  childCount := 0
  running := 0
  zombies := 0
  forked := 0
  registered := 0
  subtracted := 0
  atSelect := ⟨0, 0, 0, 0⟩

/-! ## The signal handler

It is installed for several signals and reaps only for one.  It is run to its end here, as
signals of the same kind are blocked meanwhile; another kind only sets `ShouldStop`. -/

/-- `GraveYard[CurrTomb]+=1` for a child `waitpid` has just handed over. -/
def Master.bury (s : Master) : Master :=
  { s with
    zombies := s.zombies - 1
    graveYard := Function.update s.graveYard s.currTomb (s.graveYard s.currTomb + 1)
    registered := s.registered + 1 }

/-- `waitpid(-1,&Status,WNOHANG)` with nobody to reap: `0` while children run,
`-1` with `ECHILD` when there are none. -/
def Master.nobody (s : Master) : Master :=
  if s.running = 0 then { s with errno := .echild } else s

/-- The handler's loop over `waitpid`: it ends when nobody is left to reap, so
the fuel is the number of zombies and one. -/
def Master.reap : Nat → Master → Master
  | 0, s => s
  | n + 1, s => if s.zombies = 0 then s.nobody else Master.reap n s.bury

/-- `SigHandler`. -/
def Master.sigHandler (sig : Signal) (s : Master) : Master :=
  let s := if sig = .hup ∨ sig = .int then { s with shouldStop := true } else s
  if sig = .chld then s.reap (s.zombies + 1) else s

/-! ## The loop

The steps of `main`, by the place of the loop it is at and by what the system call there
answers. Between two of them the handler may run, and a child may die. -/

/-- What the system call `main` waits for returns, if its next step is one. -/
inductive Outcome where
  | none
  | selectFailed (errno : Errno)
  | selectTimeout
  | selectReady (master console : Bool)
  | accepted
  | acceptFailed (errno : Errno)
  | forked
  | forkFailed
  | readByte (byte : UInt8)
  | readEof
  | readFailed (errno : Errno)
  deriving DecidableEq, Repr

/-- After the listening socket was served. -/
def Pc.afterAccept (console : Bool) : Pc := if console then .consoleRead else .whileTest

def Master.census (s : Master) : Census where
  registered := s.registered
  waiting := s.graveYard false + s.graveYard true
  running := s.running
  zombies := s.zombies

/-- One elementary step of `main`; the child's side of `fork()` is not part of
the master. -/
def Master.mainStep (config : Config) (s : Master) : Pc → Outcome → Option Master
  -- while(!ShouldStop)
  | .whileTest, .none =>
      some { s with pc := if s.shouldStop then .exited .shouldStop else .select }
  -- i=select(Max,&FDSet,0,0,&Tv);
  | .select, .none => some { s with pc := .blocked, atSelect := s.census }
  | .blocked, .selectFailed e => some { s with pc := .selectErrno, errno := e }
  | .blocked, .selectTimeout => some { s with pc := .whileTest }
  | .blocked, .selectReady master console =>
      let console := console && config.foreground
      if master then some { s with pc := .accept console }
      else if console then some { s with pc := .consoleRead }
      else none
  -- if (errno!=EINTR) break;
  | .selectErrno, .none =>
      some { s with pc := if s.errno = .eintr then .tombIndex else .exited .selectFailed }
  -- if (GraveYard[CurrTomb])
  | .tombIndex, .none => some { s with pc := .tombTest s.currTomb }
  | .tombTest index, .none =>
      some { s with pc := if s.graveYard index ≠ 0 then .remember else .whileTest }
  -- PrevTomb=CurrTomb;
  | .remember, .none => some { s with pc := .switchLoad, prevTomb := s.currTomb }
  -- CurrTomb^=1;
  | .switchLoad, .none => some { s with pc := .switchStore !s.currTomb }
  | .switchStore index, .none => some { s with pc := .readDead, currTomb := index }
  -- DeadCount=GraveYard[PrevTomb];
  | .readDead, .none => some { s with pc := .burn, deadCount := s.graveYard s.prevTomb }
  -- GraveYard[PrevTomb]=0;
  | .burn, .none =>
      some { s with pc := .subtract, graveYard := Function.update s.graveYard s.prevTomb 0 }
  -- ChildCount-=DeadCount;
  | .subtract, .none =>
      some { s with
        pc := .whileTest
        childCount := s.childCount - s.deadCount
        subtracted := s.subtracted + s.deadCount }
  -- ChildSock=accept(MasterSock,…), again after EINTR
  | .accept console, .accepted => some { s with pc := .admission console }
  | .accept console, .acceptFailed e => some { s with pc := .acceptErrno console, errno := e }
  | .acceptErrno console, .none =>
      some { s with pc := if s.errno = .eintr then .accept console else .afterAccept console }
  -- if (ChildCount>=Config.ConnLimit) close(ChildSock);
  | .admission console, .none =>
      some { s with
        pc := if s.childCount ≥ config.connLimit then .afterAccept console else .fork console }
  -- Pid=fork();
  | .fork console, .forkFailed => some { s with pc := .afterAccept console }
  | .fork console, .forked =>
      some { s with
        pc := .countChild console
        running := s.running + 1
        forked := s.forked + 1 }
  -- ChildCount+=1;
  | .countChild console, .none =>
      some { s with pc := .afterAccept console, childCount := s.childCount + 1 }
  -- ProcessConsole(0): ESC, end of file and errors leave the loop
  | .consoleRead, .readByte byte =>
      some { s with pc := if byte = 0x1B then .exited .console else .whileTest }
  | .consoleRead, .readEof => some { s with pc := .exited .console }
  | .consoleRead, .readFailed e => some { s with pc := .consoleErrno, errno := e }
  | .consoleErrno, .none =>
      some { s with pc := if s.errno = .eintr then .consoleRead else .exited .console }
  | _, _ => none

/-- What can happen next. -/
inductive Action where
  /-- `main` takes its next elementary step. -/
  | main (outcome : Outcome)
  /-- A signal is delivered and `SigHandler` runs. -/
  | signal (sig : Signal)
  /-- A running child exits. -/
  | childExit
  deriving DecidableEq, Repr

/-- One step of the master and its children. -/
def Master.step (config : Config) (s : Master) : Action → Option Master
  | .main outcome => s.mainStep config s.pc outcome
  | .signal sig =>
      if s.pc = .blocked then
        some { s.sigHandler sig with pc := .selectErrno, errno := .eintr }
      else some (s.sigHandler sig)
  | .childExit =>
      if s.running = 0 then none
      else some { s with running := s.running - 1, zombies := s.zombies + 1 }

/-- The master as a machine. -/
def master (config : Config) : Machine Master Action where
  init := .initial
  step := Master.step config

/-! ## What the handler does -/

/-- **A run of the handler for `SIGCHLD`** buries every zombie in the tomb
`CurrTomb` names, and ends with `ECHILD` in `errno` when no child is left. -/
theorem reap_eq (s : Master) :
    s.reap (s.zombies + 1) =
      { s with
        zombies := 0
        graveYard := Function.update s.graveYard s.currTomb (s.graveYard s.currTomb + s.zombies)
        registered := s.registered + s.zombies
        errno := if s.running = 0 then .echild else s.errno } := by
  suffices ∀ (n : Nat) (s : Master), s.zombies = n →
      s.reap (n + 1) =
        { s with
          zombies := 0
          graveYard := Function.update s.graveYard s.currTomb (s.graveYard s.currTomb + n)
          registered := s.registered + n
          errno := if s.running = 0 then .echild else s.errno } from this s.zombies s rfl
  intro n
  induction n with
  | zero =>
      intro s hz
      have same : Function.update s.graveYard s.currTomb (s.graveYard s.currTomb) =
          s.graveYard := Function.update_eq_self _ _
      simp only [Master.reap, if_pos hz, Master.nobody, Nat.add_zero, same]
      split <;> simp [← hz]
  | succ n ih =>
      intro s hz
      have bury := ih s.bury (by simp [Master.bury, hz])
      have tomb : s.graveYard s.currTomb + 1 + n = s.graveYard s.currTomb + (n + 1) := by omega
      have count : s.registered + 1 + n = s.registered + (n + 1) := by omega
      rw [Master.reap, if_neg (by omega), bury]
      simp only [Master.bury, Function.update_self, Function.update_idem, tomb, count]
      rfl

/-- What a signal leaves alone, and what it may add to. -/
theorem sigHandler_spec (sig : Signal) (s : Master) :
    let s' := s.sigHandler sig
    let dead := if sig = .chld then s.zombies else 0
    s'.pc = s.pc ∧ s'.currTomb = s.currTomb ∧ s'.prevTomb = s.prevTomb ∧
      s'.deadCount = s.deadCount ∧ s'.childCount = s.childCount ∧ s'.running = s.running ∧
      s'.forked = s.forked ∧ s'.subtracted = s.subtracted ∧ s'.atSelect = s.atSelect ∧
      s'.registered = s.registered + dead ∧ s'.zombies + dead = s.zombies ∧
      s'.graveYard s.currTomb = s.graveYard s.currTomb + dead ∧
      s'.graveYard (!s.currTomb) = s.graveYard (!s.currTomb) := by
  have other : (!s.currTomb) ≠ s.currTomb := by cases s.currTomb <;> decide
  cases sig <;> simp [Master.sigHandler, reap_eq, other]

/-! ## Nothing is lost

The balance of the deaths and that of the children, at every place of the loop. -/

/-- Inside the `if (GraveYard[CurrTomb])` block. -/
def Pc.InDrain : Pc → Prop
  | .remember | .switchLoad | .switchStore _ | .readDead | .burn | .subtract => True
  | _ => False

/-- Deaths that left the tombs and were not subtracted yet: `DeadCount` between
the burning and the subtraction. -/
def Master.held (s : Master) : Nat :=
  match s.pc with
  | .subtract => s.deadCount
  | _ => 0

/-- Children `fork()` has returned and `ChildCount` does not count yet. -/
def Master.uncounted (s : Master) : Nat :=
  match s.pc with
  | .countChild _ => 1
  | _ => 0

/-- What the drain block relies on at each of its steps.  The other tomb is
empty except between the switch and the burning, where `PrevTomb` is that tomb. -/
def Master.TombsOk (s : Master) : Prop :=
  match s.pc with
  | .tombTest index => index = s.currTomb ∧ s.graveYard (!s.currTomb) = 0
  | .switchLoad => s.prevTomb = s.currTomb ∧ s.graveYard (!s.currTomb) = 0
  | .switchStore index =>
      index = (!s.currTomb) ∧ s.prevTomb = s.currTomb ∧ s.graveYard (!s.currTomb) = 0
  | .readDead => s.prevTomb = !s.currTomb
  | .burn => s.prevTomb = (!s.currTomb) ∧ s.deadCount = s.graveYard (!s.currTomb)
  | _ => s.graveYard (!s.currTomb) = 0

/-- The accounting of deaths. -/
structure Master.Inv (config : Config) (s : Master) : Prop where
  /-- Every child that was forked is running, a zombie, or buried. -/
  reaped : s.registered + s.running + s.zombies = s.forked
  /-- A death that was buried is in a tomb, was read from one, or was subtracted. -/
  buried : s.registered =
    s.subtracted + s.graveYard s.currTomb + s.graveYard (!s.currTomb) + s.held
  /-- `ChildCount` lags behind the forks by what was subtracted and the one not counted yet. -/
  counted : s.childCount + s.subtracted + s.uncounted = s.forked
  /-- What the drain relies on, wherever it stands. -/
  tombs : s.TombsOk
  /-- There are never more running children than the limit. -/
  limit : (s.running : Int) ≤ max config.connLimit 0
  /-- A fork was admitted. -/
  room : ∀ console, s.pc = .fork console → s.childCount < config.connLimit

/-- The master starts without children, and with both tombs empty. -/
theorem inv_initial (config : Config) : Master.initial.Inv config where
  reaped := rfl
  buried := rfl
  counted := rfl
  tombs := rfl
  limit := Int.le_max_right _ _
  room := by simp [Master.initial]

/-- **The handler** buries as many children as it reaps. Whatever the master was doing,
it goes on with it, so this is asked at every place of the loop. -/
private theorem inv_sigHandler {config : Config} {s : Master} (h : s.Inv config) (sig : Signal) :
    (s.sigHandler sig).Inv config := by
  obtain ⟨pc, curr, prev, dead, count, running, forked, subtracted, -, registered, zombies, tomb,
    other⟩ := sigHandler_spec sig s
  have held : (s.sigHandler sig).held = s.held := by rw [Master.held, Master.held, pc, dead]
  have uncounted : (s.sigHandler sig).uncounted = s.uncounted := by
    rw [Master.uncounted, Master.uncounted, pc]
  refine ⟨?_, ?_, ?_, ?_, ?_, ?_⟩
  · have := h.reaped
    omega
  · have := h.buried
    rw [held, curr, tomb, other]
    omega
  · rw [uncounted, count, subtracted, forked]
    exact h.counted
  · have := h.tombs
    simp only [Master.TombsOk, pc, curr, prev, dead, other] at this ⊢
    exact this
  · rw [running]
    exact h.limit
  · rw [pc, count]
    exact h.room

namespace Master

variable {config : Config} {s s' : Master}

/-- **One step of `main` keeps the accounting.**  The cases are those of the
source, in its order; only the drain block, `fork()` and the count behind it
touch a quantity of the invariant. -/
theorem inv_mainStep {outcome : Outcome} (h : s.Inv config)
    (step : s.mainStep config s.pc outcome = some s') : s'.Inv config := by
  obtain ⟨reaped, buried, counted, tombs, limit, room⟩ := h
  generalize here : s.pc = pc at step
  unfold mainStep at step
  cases pc <;> cases outcome <;> simp only [reduceCtorEq] at step
  all_goals simp only [held, uncounted, TombsOk, here] at buried counted tombs
  case whileTest.none | selectErrno.none =>
    cases step
    split <;> exact ⟨reaped, buried, counted, tombs, limit, nofun⟩
  case select.none | blocked.selectFailed | blocked.selectTimeout | accept.accepted
      | accept.acceptFailed | consoleRead.readEof | consoleRead.readFailed =>
    cases step
    exact ⟨reaped, buried, counted, tombs, limit, nofun⟩
  case blocked.selectReady =>
    split_ifs at step <;> cases step <;> exact ⟨reaped, buried, counted, tombs, limit, nofun⟩
  case consoleRead.readByte | consoleErrno.none =>
    cases step
    split <;> exact ⟨reaped, buried, counted, tombs, limit, nofun⟩
  case acceptErrno.none console =>
    cases step
    cases console <;> split <;> exact ⟨reaped, buried, counted, tombs, limit, nofun⟩
  case fork.forkFailed console =>
    cases step
    cases console <;> exact ⟨reaped, buried, counted, tombs, limit, nofun⟩
  case admission.none console =>
    cases step
    split
    · cases console <;> exact ⟨reaped, buried, counted, tombs, limit, nofun⟩
    · rename_i below
      exact ⟨reaped, buried, counted, tombs, limit, fun _ _ => Int.not_le.mp below⟩
  -- the drain block
  case tombIndex.none | remember.none | switchLoad.none =>
    cases step
    exact ⟨reaped, buried, counted, ⟨rfl, tombs⟩, limit, nofun⟩
  case tombTest.none =>
    cases step
    split <;> exact ⟨reaped, buried, counted, tombs.2, limit, nofun⟩
  case switchStore.none index =>
    obtain ⟨rfl, prev, empty⟩ := tombs
    cases step
    refine ⟨reaped, ?_, counted, ?_, limit, nofun⟩
    · simp only [held, Bool.not_not]
      omega
    · simp only [TombsOk, Bool.not_not]
      exact prev
  case readDead.none =>
    cases step
    exact ⟨reaped, buried, counted, ⟨tombs, by rw [tombs]⟩, limit, nofun⟩
  case burn.none =>
    obtain ⟨prev, dead⟩ := tombs
    have other : s.currTomb ≠ !s.currTomb := by cases s.currTomb <;> decide
    cases step
    refine ⟨reaped, ?_, counted, ?_, limit, nofun⟩
    · simp only [held, prev, Function.update_self, Function.update_of_ne other]
      omega
    · simp only [TombsOk, prev, Function.update_self]
  case subtract.none =>
    cases step
    refine ⟨reaped, ?_, ?_, tombs, limit, nofun⟩
    · simp only [held]
      omega
    · simp only [uncounted]
      omega
  -- `fork()` and the count
  case fork.forked console =>
    have admitted := room console here
    cases step
    refine ⟨?_, buried, ?_, tombs, ?_, nofun⟩
    · simp only
      omega
    · simp only [uncounted]
      omega
    · simp only
      omega
  case countChild.none console =>
    cases step
    cases console
    all_goals
      refine ⟨reaped, buried, ?_, tombs, limit, nofun⟩
      change s.childCount + 1 + s.subtracted + (0 : Nat) = s.forked
      omega

/-- **Any elementary step**: one of `main`, a signal, or the end of a child. -/
theorem inv_step {action : Action} (h : s.Inv config) (step : s.step config action = some s') :
    s'.Inv config := by
  cases action with
  | main outcome => exact inv_mainStep h step
  | signal sig =>
      have handled := inv_sigHandler h sig
      simp only [Master.step] at step
      split at step
      · rename_i blocked
        cases step
        -- `select()` returns from one plain place to another
        have pc : (s.sigHandler sig).pc = .blocked := (sigHandler_spec sig s).1.trans blocked
        obtain ⟨reaped, buried, counted, tombs, limit, room⟩ := handled
        simp only [held, uncounted, TombsOk, pc] at buried counted tombs
        exact ⟨reaped, buried, counted, tombs, limit, nofun⟩
      · cases step
        exact handled
  | childExit =>
      obtain ⟨reaped, buried, counted, tombs, limit, room⟩ := h
      simp only [Master.step] at step
      split at step
      · cases step
      · rename_i some
        cases step
        refine ⟨?_, buried, counted, tombs, ?_, room⟩
        · simp only
          omega
        · simp only
          omega

end Master

/-- The accounting holds wherever a run ends. -/
theorem inv_of_run_master {config : Config} {as : List Action} {s : Master}
    (run : (master config).run as = some s) : s.Inv config :=
  Machine.inv_of_run (inv_initial config) (fun _ _ _ => Master.inv_step) run

/-- **No child death is lost or counted twice.**  Whatever the interleaving, the
children reaped so far are the deaths subtracted from `ChildCount` and those
still in the two tombs or in `DeadCount`; outside the drain block the tomb that
is not in use is empty; the count at the admission test is at least the number
of running children, and that number never exceeds the limit. -/
theorem deaths_accounted {config : Config} {as : List Action} {s : Master}
    (run : (master config).run as = some s) :
    (s.forked : Int) - (s.running + s.zombies) =
        s.subtracted + s.graveYard false + s.graveYard true + s.held ∧
      (¬ s.pc.InDrain → s.graveYard (!s.currTomb) = 0) ∧
      (∀ console, s.pc = .admission console → (s.running : Int) ≤ s.childCount) ∧
      (s.running : Int) ≤ max config.connLimit 0 := by
  have h := inv_of_run_master run
  have reaped := h.reaped
  have buried := h.buried
  have both : s.graveYard s.currTomb + s.graveYard (!s.currTomb) =
      s.graveYard false + s.graveYard true := by
    cases s.currTomb <;> simp [Nat.add_comm]
  refine ⟨by omega, fun outside => ?_, fun console here => ?_, h.limit⟩
  · have tombs := h.tombs
    unfold Master.TombsOk at tombs
    split at tombs
    case h_1 => exact tombs.2
    case h_6 => exact tombs
    all_goals
      rename_i here
      rw [here] at outside
      exact absurd trivial outside
  · have counted := h.counted
    have held : s.held = 0 := by rw [Master.held, here]
    have uncounted : s.uncounted = 0 := by rw [Master.uncounted, here]
    omega

/-- A configuration that admits a single client. -/
def singleClient : Config := { configInit with connLimit := 1 }

/-- A client is served, and its proxy dies while `main` waits in `select()`. -/
def servedAndDead : List Action :=
  [.main .none, .main .none, .main (.selectReady true false), .main .accepted, .main .none,
    .main .forked, .main .none, .main .none, .main .none, .childExit, .signal .chld]

/-- The conditions can be met: a client that was served and whose child has died. -/
theorem deaths_accounted_servedAndDead :
    let s := ((master singleClient).run servedAndDead).get rfl
    (s.forked : Int) - (s.running + s.zombies) =
        s.subtracted + s.graveYard false + s.graveYard true + s.held ∧
      (s.running : Int) ≤ max singleClient.connLimit 0 := by
  have ran : (master singleClient).run servedAndDead =
      some (((master singleClient).run servedAndDead).get rfl) := (Option.some_get rfl).symm
  have accounted := deaths_accounted ran
  exact ⟨accounted.1, accounted.2.2.2⟩

/-! ## Refused connections

A refusal is a step of the machine, so all of them are spoken of as the transitions of a
run. -/

/-- `main` closes an accepted socket because `ChildCount>=Config.ConnLimit`. -/
def Refuses (config : Config) (t : Master × Action × Master) : Prop :=
  t.2.1 = .main .none ∧
    ∃ console, t.1.pc = .admission console ∧ config.connLimit ≤ t.1.childCount

/-- What `main` should know when it refuses: the deaths registered before this
iteration's `select()` are subtracted, and if there were no others then the
limit was really reached. -/
def Master.UpToDate (config : Config) (s : Master) : Prop :=
  s.atSelect.registered ≤ s.subtracted ∧
    (s.atSelect.zombies = 0 → config.connLimit ≤ s.atSelect.running)

instance (config : Config) (t : Master × Action × Master) : Decidable (Refuses config t) :=
  inferInstanceAs (Decidable (_ ∧ ∃ _ : Bool, _ ∧ _))

instance (config : Config) (s : Master) : Decidable (s.UpToDate config) :=
  inferInstanceAs (Decidable (_ ∧ (_ → _)))

/-- From the entry into `select()` to the admission test nothing is subtracted
and nobody is forked. -/
def Master.SelectOk (s : Master) : Prop :=
  match s.pc with
  | .blocked | .accept _ | .acceptErrno _ | .admission _ =>
      s.atSelect.registered = s.subtracted + s.atSelect.waiting ∧
        s.atSelect.registered + s.atSelect.running + s.atSelect.zombies = s.forked
  | _ => True

namespace Master

variable {config : Config} {s s' : Master}

/-- The handler keeps what is known when `select()` is entered: it only writes to the
current tomb, and only out of `main`'s drain. -/
private theorem selectOk_sigHandler (h : s.SelectOk) (sig : Signal) :
    (s.sigHandler sig).SelectOk := by
  obtain ⟨pc, -, -, -, -, -, forked, subtracted, atSelect, -⟩ := sigHandler_spec sig s
  simp only [SelectOk, pc, atSelect, subtracted, forked] at h ⊢
  exact h

/-- Every step of `main` leaves behind what `select()` needs: a step into `select()`
comes from the check of the graveyard or from the drain, and no other step touches it. -/
private theorem selectOk_mainStep {outcome : Outcome} (inv : s.Inv config) (h : s.SelectOk)
    (step : s.mainStep config s.pc outcome = some s') : s'.SelectOk := by
  generalize here : s.pc = pc at step
  unfold mainStep at step
  cases pc <;> cases outcome <;> simp only [reduceCtorEq] at step
  all_goals simp only [SelectOk, here] at h
  -- `select()` is entered with the accounting of `Inv`
  case select.none =>
    have buried := inv.buried
    have both : s.graveYard s.currTomb + s.graveYard (!s.currTomb) =
        s.graveYard false + s.graveYard true := by
      cases s.currTomb <;> simp [Nat.add_comm]
    simp only [held, here] at buried
    cases step
    refine ⟨?_, inv.reaped⟩
    simp only [census]
    omega
  case blocked.selectReady =>
    split_ifs at step <;> cases step
    · exact h
    · trivial
  case accept.accepted | accept.acceptFailed =>
    cases step
    exact h
  case acceptErrno.none console =>
    cases step
    cases console <;> split_ifs <;> first | exact h | trivial
  case admission.none console | fork.forkFailed console | countChild.none console =>
    cases step
    cases console <;> simp only [SelectOk, Pc.afterAccept] <;> split_ifs <;> trivial
  all_goals
    cases step
    simp only [SelectOk]
    try split_ifs <;> trivial

/-- **What a refusal knows.**  At the admission test of a reachable state the
deaths registered before `select()` are subtracted exactly if both tombs were
empty then. -/
theorem upToDate_iff {console : Bool} (inv : s.Inv config) (ok : s.SelectOk)
    (here : s.pc = .admission console) (full : config.connLimit ≤ s.childCount) :
    s.UpToDate config ↔ s.atSelect.waiting = 0 := by
  have counted := inv.counted
  have uncounted : s.uncounted = 0 := by rw [uncounted, here]
  simp only [SelectOk, here] at ok
  obtain ⟨registered, census⟩ := ok
  constructor
  · rintro ⟨known, -⟩
    omega
  · intro empty
    exact ⟨by omega, fun settled => by omega⟩

end Master

/-- So both hold in front of every step of every run. -/
private theorem selectOk_of_mem_transitions {config : Config} {as : List Action}
    {t : Master × Action × Master} (mem : t ∈ (master config).transitions as) :
    t.1.Inv config ∧ t.1.SelectOk := by
  refine (Machine.inv_of_mem_transitions (P := fun s => s.Inv config ∧ s.SelectOk)
    ⟨inv_initial config, trivial⟩ ?_ mem).1
  rintro s action s' ⟨inv, ok⟩ step
  refine ⟨Master.inv_step inv step, ?_⟩
  cases action with
  | main outcome => exact Master.selectOk_mainStep inv ok step
  | signal sig =>
      have handled := Master.selectOk_sigHandler ok sig
      simp only [master, Master.step] at step
      split at step <;> cases step
      · trivial
      · exact handled
  | childExit =>
      simp only [master, Master.step] at step
      split at step <;> cases step
      exact ok

/-- **When refusals are justified.**  In every run, all refusals know the deaths
registered before their iteration's `select()` exactly if no refusal happens in
an iteration whose `select()` was entered with a death waiting in a tomb.  Only
the interrupted `select()` leads to the drain block, so a death buried elsewhere
in the loop waits until some later signal interrupts it. -/
theorem refusals_upToDate_iff (config : Config) (as : List Action) :
    (∀ t ∈ (master config).transitions as, Refuses config t → t.1.UpToDate config) ↔
      ∀ t ∈ (master config).transitions as, Refuses config t → t.1.atSelect.waiting = 0 := by
  refine forall₂_congr fun t mem => forall_congr' ?_
  rintro ⟨-, console, here, full⟩
  obtain ⟨inv, ok⟩ := selectOk_of_mem_transitions mem
  exact Master.upToDate_iff inv ok here full

/-- The only child dies and is buried just before the loop test; `select()` then
reports the next client, who is refused, and so is the one after. -/
def refusedTwice : List Action :=
  [.main .none, .main .none, .main (.selectReady true false), .main .accepted, .main .none,
    .main .forked, .main .none, .childExit, .signal .chld,
    .main .none, .main .none, .main (.selectReady true false), .main .accepted, .main .none,
    .main .none, .main .none, .main (.selectReady true false), .main .accepted, .main .none]

/-- **A client is refused although there is room**: the child before it has died, and
was not counted off, since `select()` was not interrupted by its signal. -/
theorem refusedTwice_not_upToDate :
    ¬ ∀ t ∈ (master singleClient).transitions refusedTwice,
        Refuses singleClient t → t.1.UpToDate singleClient := by
  decide

end HaasProxy
