import HaasProxy.Interrupted

/-!
# How soon the master stops (`main.c`)

`SIGINT` and `SIGHUP` set `ShouldStop`, which `main` reads at the top of its loop only.
So the iteration that is under way is finished first, and if it has just begun then
`select()` is entered once more.

`stopsSoon` bounds what `main` still does: it takes a dozen steps, and two more for each
interruption of `accept()` or of the `read()` of the console.  It waits in `select()`
at most once, and serves at most one more client.

## Main definitions and results

* `Master.stepsLeft` — the steps that `main` has still to take;
* `stepsLeft_step` — each one it takes is one less, unless a call was interrupted;
* `once_step` — what happens at most once;
* `stopsSoon` — the result.

## Design notes

`stepsLeft` is a potential.  It goes down with each step of `main`, and what others do, a
signal, a death, does not raise it.  An interruption of `accept()` costs two steps more, the
test of `errno` and the next call; nothing bounds how often that happens, so the bound
counts these interruptions.

`beforeSelect` and `beforeFork` are places that the loop leaves and comes back to only at its
top, where it stops instead.  That each is left once is what makes `select()` and `fork()`
happen at most once.
-/

namespace HaasProxy

/-! ## What is left of an iteration

The potential of a place of the loop: the number of steps until the test of `ShouldStop`.
A call that is interrupted is made anew, which costs two steps; the handler by itself
costs none. -/

/-- The steps to the end of the loop, when `ShouldStop` is set and nothing is interrupted. -/
def Pc.stepsLeft : Pc → Nat
  | .exited _ => 0
  | .whileTest => 1
  | .consoleErrno => 1
  | .consoleRead => 2
  | .countChild _ => 3
  | .acceptErrno _ => 3
  | .fork _ => 4
  | .admission _ => 5
  | .accept _ => 6
  -- the drain block
  | .subtract => 2
  | .burn => 3
  | .readDead => 4
  | .switchStore _ => 5
  | .switchLoad => 6
  | .remember => 7
  | .tombTest _ => 8
  | .tombIndex => 9
  | .selectErrno => 10
  | .blocked => 11
  | .select => 12

/-- A call that was interrupted is made again. -/
def Master.stepsLeft (s : Master) : Nat :=
  s.pc.stepsLeft + match s.pc with
    | .acceptErrno _ => if s.errno = .eintr then 4 else 0
    | .consoleErrno => if s.errno = .eintr then 2 else 0
    | _ => 0

/-- `main` takes a step. -/
def Action.byMain : Action → Bool
  | .main _ => true
  | _ => false

/-- `accept()`, or the `read()` of the console, is interrupted. -/
def Action.interrupts : Action → Bool
  | .main (.acceptFailed .eintr) | .main (.readFailed .eintr) => true
  | _ => false

/-- `select()` has not been left, in this iteration. -/
def Pc.beforeSelect : Pc → Bool
  | .select => true
  | _ => false

/-- `fork()` has not been called, in this iteration. -/
def Pc.beforeFork : Pc → Bool
  | .select | .blocked | .accept _ | .acceptErrno _ | .admission _ | .fork _ => true
  | _ => false

section Stopping

variable {config : Config} {s s' : Master} {a : Action}

/-- **A step of `main`** goes on to the end of the loop, or was interrupted. -/
theorem stepsLeft_mainStep {outcome : Outcome} (stop : s.shouldStop = true)
    (step : s.mainStep config s.pc outcome = some s') :
    1 + s'.stepsLeft ≤ s.stepsLeft + 2 * (Action.main outcome).interrupts.toNat := by
  generalize here : s.pc = pc at step
  unfold Master.mainStep at step
  cases pc <;> cases outcome <;> simp only [reduceCtorEq] at step
  case whileTest.none =>
    cases step
    simp [Master.stepsLeft, Pc.stepsLeft, here, stop]
  case selectErrno.none | tombTest.none | consoleRead.readByte =>
    cases step
    split <;> (simp [Master.stepsLeft, Pc.stepsLeft, here]; try omega)
  case blocked.selectReady =>
    split_ifs at step
    · cases step
      simp [Master.stepsLeft, Pc.stepsLeft, here]
      omega
    · cases step
      simp [Master.stepsLeft, Pc.stepsLeft, here]
      omega
  -- the calls that are made again
  case accept.acceptFailed console e =>
    cases step
    cases e <;> simp [Master.stepsLeft, Pc.stepsLeft, here, Action.interrupts]
  case consoleRead.readFailed e =>
    cases step
    cases e <;> simp [Master.stepsLeft, Pc.stepsLeft, here, Action.interrupts]
  case acceptErrno.none console =>
    cases step
    by_cases interrupted : s.errno = .eintr
    · simp [Master.stepsLeft, Pc.stepsLeft, here, interrupted]
    · cases console <;> simp [Master.stepsLeft, Pc.stepsLeft, Pc.afterAccept, here, interrupted]
      omega
  case consoleErrno.none =>
    cases step
    by_cases interrupted : s.errno = .eintr
    · simp [Master.stepsLeft, Pc.stepsLeft, here, interrupted]
    · simp [Master.stepsLeft, Pc.stepsLeft, here, interrupted]
  case admission.none console =>
    cases step
    cases console <;> split <;> simp [Master.stepsLeft, Pc.stepsLeft, Pc.afterAccept, here] <;> omega
  case fork.forkFailed console | countChild.none console =>
    cases step
    cases console <;> simp [Master.stepsLeft, Pc.stepsLeft, Pc.afterAccept, here] <;> omega
  all_goals
    cases step
    simp [Master.stepsLeft, Pc.stepsLeft, here] <;> omega

/-- Nobody takes `ShouldStop` back. -/
theorem shouldStop_mainStep {outcome : Outcome} (stop : s.shouldStop = true)
    (step : s.mainStep config s.pc outcome = some s') : s'.shouldStop = true := by
  generalize s.pc = pc at step
  unfold Master.mainStep at step
  cases pc <;> cases outcome <;> simp only [reduceCtorEq] at step
  case blocked.selectReady =>
    split_ifs at step <;> cases step <;> exact stop
  all_goals
    cases step
    exact stop

/-- A signal does not delay the end. -/
theorem stepsLeft_sigHandler (sig : Signal) : (s.sigHandler sig).stepsLeft ≤ s.stepsLeft := by
  have pc := (sigHandler_spec sig s).1
  unfold Master.stepsLeft
  rw [pc, errno_sigHandler]
  split
  · split_ifs <;> simp_all
  · split_ifs <;> simp_all
  · exact Nat.le_refl _

/-- **One step**, of `main` or of anybody else. -/
theorem stepsLeft_step (stop : s.shouldStop = true) (step : s.step config a = some s') :
    s'.shouldStop = true ∧
      a.byMain.toNat + s'.stepsLeft ≤ s.stepsLeft + 2 * a.interrupts.toNat := by
  cases a with
  | main outcome => exact ⟨shouldStop_mainStep stop step, stepsLeft_mainStep stop step⟩
  | signal sig =>
      simp only [Master.step] at step
      split at step
      case isTrue blocked =>
        cases step
        refine ⟨shouldStop_sigHandler sig stop, ?_⟩
        simp [Master.stepsLeft, Pc.stepsLeft, blocked, Action.byMain]
        omega
      case isFalse =>
        cases step
        refine ⟨shouldStop_sigHandler sig stop, ?_⟩
        simpa [Action.byMain] using Nat.le_add_right_of_le (stepsLeft_sigHandler sig)
  | childExit =>
      simp only [Master.step] at step
      split at step
      · cases step
      · cases step
        exact ⟨stop, by simp [Master.stepsLeft, Action.byMain]⟩

private theorem stepsLeft_le (s : Master) : s.stepsLeft ≤ 12 := by
  unfold Master.stepsLeft
  cases s.pc
  case acceptErrno | consoleErrno =>
    simp only [Pc.stepsLeft]
    split_ifs <;> omega
  all_goals
    simp [Pc.stepsLeft]

/-! ## What happens once

Two kinds of steps cannot come twice before the test: the entry into `select()` and the
fork. -/

/-- `select()` is entered. -/
def enters (t : Master × Action × Master) : Bool := t.1.pc.beforeSelect && t.2.1.byMain

/-- A client gets a child. -/
def serves (t : Master × Action × Master) : Bool := t.2.1 = .main .forked

/-- `main` gets to `select()` and to `fork()` from the top of the loop only. -/
theorem once_mainStep {outcome : Outcome} (stop : s.shouldStop = true)
    (step : s.mainStep config s.pc outcome = some s') :
    s'.pc.beforeSelect = false ∧
      (serves (s, .main outcome, s')).toNat + s'.pc.beforeFork.toNat ≤ s.pc.beforeFork.toNat := by
  generalize s.pc = pc at step
  unfold Master.mainStep at step
  cases pc <;> cases outcome <;> simp only [reduceCtorEq] at step
  case whileTest.none =>
    cases step
    simp [stop, Pc.beforeSelect, Pc.beforeFork, serves]
  case blocked.selectReady =>
    split_ifs at step <;> cases step <;> simp [Pc.beforeSelect, Pc.beforeFork, serves]
  case selectErrno.none | tombTest.none | consoleRead.readByte | consoleErrno.none =>
    cases step
    split <;> simp [Pc.beforeSelect, Pc.beforeFork, serves]
  case acceptErrno.none console | admission.none console =>
    cases step
    cases console <;> split <;> simp [Pc.afterAccept, Pc.beforeSelect, Pc.beforeFork, serves]
  case fork.forkFailed console | countChild.none console =>
    cases step
    cases console <;> simp [Pc.afterAccept, Pc.beforeSelect, Pc.beforeFork, serves]
  all_goals
    cases step
    simp [Pc.beforeSelect, Pc.beforeFork, serves]

/-- **The step.** Once it has been told to stop, the master enters `select()` at most
once more, and starts at most one child: each uses up a place that it does not come back
to. -/
theorem once_step (stop : s.shouldStop = true) (step : s.step config a = some s') :
    (enters (s, a, s')).toNat + s'.pc.beforeSelect.toNat ≤ s.pc.beforeSelect.toNat ∧
      (serves (s, a, s')).toNat + s'.pc.beforeFork.toNat ≤ s.pc.beforeFork.toNat := by
  cases a with
  | main outcome =>
      obtain ⟨left, once⟩ := once_mainStep stop step
      exact ⟨by simp [enters, Action.byMain, left], once⟩
  | signal sig =>
      simp only [Master.step] at step
      split at step
      case isTrue blocked =>
        cases step
        simp [enters, serves, Pc.beforeSelect, Pc.beforeFork, Action.byMain]
      case isFalse =>
        cases step
        simp [enters, serves, Action.byMain, (sigHandler_spec sig s).1]
  | childExit =>
      simp only [Master.step] at step
      split at step
      · cases step
      · cases step
        simp [enters, serves, Action.byMain]

/-- `main` never gets stuck: whatever a call answers, one of its answers is modelled. -/
theorem exists_mainStep (goesOn : ∀ reason, s.pc ≠ .exited reason) :
    ∃ outcome t, s.step config (.main outcome) = some t := by
  unfold Master.step
  simp only []
  generalize s.pc = pc at goesOn
  cases pc
  case exited reason => exact absurd rfl (goesOn reason)
  case blocked => exact ⟨.selectTimeout, _, rfl⟩
  case accept => exact ⟨.accepted, _, rfl⟩
  case fork => exact ⟨.forkFailed, _, rfl⟩
  case consoleRead => exact ⟨.readEof, _, rfl⟩
  all_goals
    exact ⟨.none, _, rfl⟩

/-- **The master stops soon** after `ShouldStop` was set, wherever it stood and whatever
signals and deaths come in between: there is a bound on its steps, with two more for
each call that is interrupted. At most once it still enters `select()`, at most one more
child is forked, and as long as it has not left the loop it has a step to make. -/
theorem stopsSoon {as : List Action} (stop : s.shouldStop = true)
    (run : (master config).runFrom s as = some s') :
    let steps := (master config).transitionsFrom s as
    (steps.countP fun t => t.2.1.byMain) ≤ 12 + 2 * steps.countP (fun t => t.2.1.interrupts) ∧
      steps.countP enters ≤ 1 ∧ steps.countP serves ≤ 1 ∧
      ((∀ reason, s'.pc ≠ .exited reason) →
        ∃ outcome t, s'.step config (.main outcome) = some t) := by
  have goesOn : ∀ s a s', s.shouldStop = true → (master config).step s a = some s' →
      s'.shouldStop = true := fun s a s' stop step => (stepsLeft_step stop step).1
  have paid := Machine.countP_le_of_runFrom (m := master config) (P := fun s => s.shouldStop = true)
    (fun t => t.2.1.byMain) (fun t => t.2.1.interrupts) Master.stepsLeft 2
    (fun s a s' stop step => stepsLeft_step stop step) stop run
  have entered := Machine.countP_le_potential enters (fun s => s.pc.beforeSelect.toNat)
    (fun s a s' stop step => ⟨goesOn s a s' stop step, (once_step stop step).1⟩) stop run
  have served := Machine.countP_le_potential serves (fun s => s.pc.beforeFork.toNat)
    (fun s a s' stop step => ⟨goesOn s a s' stop step, (once_step stop step).2⟩) stop run
  refine ⟨?_, entered.trans (Bool.toNat_le _), served.trans (Bool.toNat_le _), exists_mainStep⟩
  have left := stepsLeft_le s
  omega

end Stopping

/-- `SIGINT` arrives between the first test of `ShouldStop` and `select()`. -/
def justTold : Master := Master.initial.sigHandler .int |> fun s => { s with pc := .select }

/-- A client comes nevertheless; `accept()` is interrupted once, and the child dies. -/
def lastClient : List Action :=
  [.main .none, .main (.selectReady true false), .main (.acceptFailed .eintr), .main .none,
    .main .accepted, .main .none, .main .forked, .childExit, .signal .chld, .main .none, .main .none]

/-- The conditions can be met: a last client is served behind the signal. -/
theorem stopsSoon_lastClient :
    let s := ((master singleClient).runFrom justTold lastClient).get rfl
    let steps := (master singleClient).transitionsFrom justTold lastClient
    s.pc = .exited .shouldStop ∧ steps.length = 11 ∧
      (steps.countP fun t => t.2.1.byMain) ≤ 12 + 2 * steps.countP (fun t => t.2.1.interrupts) ∧
      steps.countP enters ≤ 1 ∧ steps.countP serves ≤ 1 :=
  have run : (master singleClient).runFrom justTold lastClient = some _ :=
    (Option.some_get rfl).symm
  have soon := stopsSoon rfl run
  ⟨rfl, rfl, soon.1, soon.2.1, soon.2.2.1⟩

end HaasProxy
