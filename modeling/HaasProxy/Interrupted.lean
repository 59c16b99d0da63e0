import HaasProxy.Master

/-!
# Why the master stops (`main.c`)

The loop of `main` is left for three reasons, and two of them are found out from
`errno`: `select()` failed, or reading the console failed, with something else than
`EINTR`.  `SigHandler` runs in between as well, and its `waitpid` leaves `ECHILD` in
`errno` once no child is left.

`rightlyLeft_of_kept` says that the loop is left for a right reason in every run in
which no `EINTR` is overwritten between the call that ended with it and the test;
`bothDead_notRightlyLeft` is a run in which one is.

## Main definitions and results

* `Master.RightlyLeft` — the reasons, as the calls have answered them;
* `Overwrites` — a signal destroys an answer that was not tested yet;
* `informed_mainStep`, `informed_signal` — what `main` knows of the last answer;
* `rightlyLeft_of_kept` — the result.

## Design notes

**The reasons are those of the run.**  `lastAnswer` looks at the actions, and not at `errno`: it
is what the call has answered, whatever became of that.  The model's `errno` is what `main`
tests.  The two agree as long as nothing comes in between, which is what
`Master.Informed` says at each place of the loop.

**Why one signal is not enough.**  `SigHandler` calls `waitpid` until it answers something else
than a process.  With a child still running that is 0, which leaves `errno` alone; with
none left it is -1, and `errno` becomes `ECHILD`.  So it takes an interruption, and the death
of the last child between that and the test.
-/

namespace HaasProxy

/-! ## The reasons to leave the loop -/

/-- What `select()` or the `read()` of the console answers in a step.  A signal inside
`select()` makes it answer `EINTR`. -/
def answer? : Master × Action × Master → Option Outcome
  | (s, .main outcome, _) =>
      if s.pc = .blocked ∨ s.pc = .consoleRead then some outcome else none
  | (s, .signal _, _) => if s.pc = .blocked then some (.selectFailed .eintr) else none
  | (_, .childExit, _) => none

/-- The last of these answers. -/
def lastAnswer (steps : List (Master × Action × Master)) : Option Outcome :=
  (steps.filterMap answer?).getLast?

/-- `ProcessConsole` is asked to stop: ESC, the end of the file, or an error that is
not an interruption. -/
def Outcome.StopsConsole : Outcome → Prop
  | .readByte byte => byte = 0x1B
  | .readEof => True
  | .readFailed e => e ≠ .eintr
  | _ => False

/-- **The loop was left for a right reason**, if it was left: `ShouldStop` was set, or
`select()` itself failed with an error other than `EINTR`, or the console asked for it
in foreground mode. -/
def Master.RightlyLeft (config : Config) (steps : List (Master × Action × Master)) (s : Master) :
    Prop :=
  match s.pc with
  | .exited .shouldStop => s.shouldStop = true
  | .exited .selectFailed => ∃ e, lastAnswer steps = some (.selectFailed e) ∧ e ≠ .eintr
  | .exited .console =>
      config.foreground = true ∧ ∃ outcome, lastAnswer steps = some outcome ∧ outcome.StopsConsole
  | _ => True

/-- A step overwrites an `EINTR` that `main` has not tested yet: `SIGCHLD` arrives
between the return of `select()`, or of the `read()` of the console, and the test of
`errno`, and no child is running any more. -/
def Overwrites (t : Master × Action × Master) : Prop :=
  t.2.1 = .signal .chld ∧ (t.1.pc = .selectErrno ∨ t.1.pc = .consoleErrno) ∧
    t.1.errno = .eintr ∧ t.1.running = 0

/-! ## What `main` knows

At each place of the loop something is known of the answer that led there, and `errno`
still shows whether it was `EINTR`. A signal that comes in between may change `errno`, and
it is the condition that keeps it from doing so where it matters. -/

section Kept

variable {config : Config} {steps : List (Master × Action × Master)} {s s' : Master}

/-- What is true of the last answer, at each place of the loop. -/
def Master.Informed (config : Config) (answer : Option Outcome) (s : Master) : Prop :=
  match s.pc with
  | .selectErrno => ∃ e, answer = some (.selectFailed e) ∧ (e = .eintr → s.errno = .eintr)
  | .accept console | .acceptErrno console | .admission console | .fork console
  | .countChild console => console = true → config.foreground = true
  | .consoleRead => config.foreground = true
  | .consoleErrno =>
      config.foreground = true ∧ ∃ e, answer = some (.readFailed e) ∧ (e = .eintr → s.errno = .eintr)
  | .exited .shouldStop => s.shouldStop = true
  | .exited .selectFailed => ∃ e, answer = some (.selectFailed e) ∧ e ≠ .eintr
  | .exited .console => config.foreground = true ∧ ∃ outcome, answer = some outcome ∧
    outcome.StopsConsole
  | _ => True

private theorem lastAnswer_concat (steps : List (Master × Action × Master))
    (t : Master × Action × Master) :
    lastAnswer (steps ++ [t]) = (answer? t).or (lastAnswer steps) := by
  unfold lastAnswer
  rw [List.filterMap_append]
  cases answered : answer? t with
  | none => simp [answered]
  | some outcome => simp [answered]

/-- The handler sets `errno` where `waitpid` finds no child, which is how it can get to
`main`. -/
theorem errno_sigHandler (sig : Signal) (s : Master) :
    (s.sigHandler sig).errno =
      if sig = .chld ∧ s.running = 0 then .echild else s.errno := by
  cases sig <;> simp [Master.sigHandler, reap_eq]

theorem shouldStop_sigHandler (sig : Signal) (stop : s.shouldStop = true) :
    (s.sigHandler sig).shouldStop = true := by
  cases sig <;> simp [Master.sigHandler, reap_eq, stop]

/-- Behind the listening socket the console is looked at in foreground mode only. -/
theorem informed_afterAccept {answer : Option Outcome} {console : Bool}
    (foreground : console = true → config.foreground = true) (after : s'.pc = .afterAccept console) :
    s'.Informed config answer := by
  unfold Master.Informed
  rw [after]
  cases console with
  | false => trivial
  | true => exact foreground rfl

/-- **One step of `main`.**  Only the tests of `errno`, and what comes before them,
depend on an answer. -/
theorem informed_mainStep {answer : Option Outcome} {outcome : Outcome}
    (informed : s.Informed config answer) (step : s.mainStep config s.pc outcome = some s') :
    s'.Informed config ((answer? (s, .main outcome, s')).or answer) := by
  unfold answer?
  generalize here : s.pc = pc at step
  unfold Master.mainStep at step
  cases pc <;> cases outcome <;> simp only [reduceCtorEq] at step
  all_goals
    simp only [Master.Informed, here] at informed
    simp only [here, reduceCtorEq, or_self, or_true, true_or, if_true, if_false, Option.none_or,
      Option.some_or]
  case whileTest.none =>
    cases step
    by_cases stop : s.shouldStop = true
    · simp only [Master.Informed, stop, if_true]
    · simp only [Master.Informed, stop]
      trivial
  -- the answer is what `errno` is set to, and was not touched yet
  case blocked.selectFailed e =>
    cases step
    exact ⟨e, rfl, id⟩
  case blocked.selectReady served console =>
    split_ifs at step with accepts reads
    · cases step
      intro console
      exact (Bool.and_eq_true_iff.mp console).2
    · cases step
      exact (Bool.and_eq_true_iff.mp reads).2
  -- `errno` is that of the answer, unless a signal has overwritten an `EINTR`
  case selectErrno.none =>
    obtain ⟨e, answered, kept⟩ := informed
    cases step
    by_cases interrupted : s.errno = .eintr
    · simp only [Master.Informed, interrupted, if_true]
    · simp only [Master.Informed, interrupted, if_false]
      exact ⟨e, answered, mt kept interrupted⟩
  case consoleErrno.none =>
    obtain ⟨foreground, e, answered, kept⟩ := informed
    cases step
    by_cases interrupted : s.errno = .eintr
    · simp only [Master.Informed, interrupted, if_true]
      exact foreground
    · simp only [Master.Informed, interrupted, if_false]
      exact ⟨foreground, _, answered, mt kept interrupted⟩
  -- only ESC is a reason to stop
  case consoleRead.readByte byte =>
    cases step
    by_cases escape : byte = 0x1B
    · simp only [Master.Informed, escape, if_true]
      exact ⟨informed, _, rfl, rfl⟩
    · simp only [Master.Informed, escape, if_false]
  case consoleRead.readEof =>
    cases step
    exact ⟨informed, _, rfl, trivial⟩
  case consoleRead.readFailed e =>
    cases step
    exact ⟨informed, e, rfl, id⟩
  -- between `select()` and the console it is known that the console is to be read
  case accept.accepted | accept.acceptFailed | fork.forked =>
    cases step
    exact informed
  case fork.forkFailed | countChild.none =>
    cases step
    exact informed_afterAccept informed rfl
  case acceptErrno.none =>
    cases step
    by_cases interrupted : s.errno = .eintr
    · simp only [interrupted, if_true]
      exact informed
    · simp only [interrupted, if_false]
      exact informed_afterAccept informed rfl
  case admission.none =>
    cases step
    by_cases full : s.childCount ≥ config.connLimit
    · simp only [full, if_true]
      exact informed_afterAccept informed rfl
    · simp only [full, if_false]
      exact informed
  case tombTest.none =>
    cases step
    unfold Master.Informed
    dsimp only
    split_ifs <;> trivial
  all_goals
    cases step
    trivial

/-- **A signal** changes what `main` is about to test only by overwriting it. -/
theorem informed_signal {answer : Option Outcome} (sig : Signal)
    (kept : ¬ Overwrites (s, .signal sig, s')) (informed : s.Informed config answer)
    (step : s.step config (.signal sig) = some s') :
    s'.Informed config ((answer? (s, .signal sig, s')).or answer) := by
  simp only [Master.step] at step
  by_cases blocked : s.pc = .blocked
  · rw [if_pos blocked] at step
    cases step
    simp only [answer?, blocked, if_true, Option.some_or]
    exact ⟨.eintr, rfl, fun _ => rfl⟩
  · rw [if_neg blocked] at step
    obtain rfl : s.sigHandler sig = s' := Option.some.inj step
    have pc := (sigHandler_spec sig s).1
    have errno (untested : s.pc = .selectErrno ∨ s.pc = .consoleErrno)
        (interrupted : s.errno = .eintr) : (s.sigHandler sig).errno = .eintr := by
      rw [errno_sigHandler, if_neg, interrupted]
      rintro ⟨rfl, childless⟩
      exact kept ⟨rfl, untested, interrupted, childless⟩
    simp only [answer?, blocked, if_false, Option.none_or]
    unfold Master.Informed at informed ⊢
    rw [pc]
    cases here : s.pc with
    | selectErrno =>
        rw [here] at informed
        obtain ⟨e, answered, kept⟩ := informed
        exact ⟨e, answered, fun eq => errno (.inl here) (kept eq)⟩
    | consoleErrno =>
        rw [here] at informed
        obtain ⟨foreground, e, answered, kept⟩ := informed
        exact ⟨foreground, e, answered, fun eq => errno (.inr here) (kept eq)⟩
    | exited reason =>
        rw [here] at informed
        cases reason with
        | shouldStop => exact shouldStop_sigHandler sig informed
        | selectFailed => exact informed
        | console => exact informed
    | _ =>
        rw [here] at informed
        exact informed

/-- **The master stops for a right reason** in every run in which no `EINTR` is
overwritten before it was tested. The reasons are those that the calls have answered in
the run, not what the variables show in the end. Signals and deaths come in any order;
the one that does harm is a `SIGCHLD` between the return of the call and the test, with
no child left to wait for. -/
theorem rightlyLeft_of_kept {as : List Action} (run : (master config).run as = some s)
    (kept : ∀ t ∈ (master config).transitions as, ¬ Overwrites t) :
    s.RightlyLeft config ((master config).transitions as) := by
  have start : (master config).init.Informed config (lastAnswer []) := trivial
  have informed := Machine.inv_of_run_history
    (P := fun steps s => (∀ t ∈ steps, ¬ Overwrites t) → s.Informed config (lastAnswer steps))
    (fun _ => start) ?_ run kept
  · unfold Master.Informed at informed
    unfold Master.RightlyLeft
    cases here : s.pc with
    | exited reason =>
        rw [here] at informed
        cases reason with
        | shouldStop => exact informed
        | selectFailed => exact informed
        | console => exact informed
    | _ => trivial
  · intro steps s action s' earlier step kept
    have informed := earlier fun t mem => kept t (List.mem_append_left _ mem)
    have now := kept (s, action, s') (List.mem_append_right _ List.mem_cons_self)
    rw [lastAnswer_concat]
    cases action with
    | main outcome => exact informed_mainStep informed step
    | signal sig => exact informed_signal sig now informed step
    | childExit =>
        simp only [master, Master.step] at step
        split at step
        · cases step
        · cases step
          exact informed

end Kept

instance (t : Master × Action × Master) : Decidable (Overwrites t) :=
  inferInstanceAs (Decidable (_ ∧ _))

/-- The death of the only client is drained, and then the master is asked to stop. -/
def drainedAndStopped : List Action :=
  servedAndDead ++ List.replicate 9 (.main .none) ++ [.signal .int, .main .none]

/-- The conditions can be met: a master that drains its tombs and is then told to stop. -/
theorem rightlyLeft_drainedAndStopped :
    (((master singleClient).run drainedAndStopped).get rfl).RightlyLeft singleClient
      ((master singleClient).transitions drainedAndStopped) :=
  rightlyLeft_of_kept (Option.some_get rfl).symm (by decide +kernel)

/-- A configuration that admits two clients. -/
def twoClients : Config := { configInit with connLimit := 2 }

/-- A client comes and is served. -/
def served : List Action :=
  [.main .none, .main .none, .main (.selectReady true false), .main .accepted, .main .none,
    .main .forked, .main .none]

/-- Two clients are served.  The death of the one interrupts `select()`, and the other
dies before `main` has tested `errno`. -/
def bothDead : List Action :=
  served ++ served ++
    [.main .none, .main .none, .childExit, .signal .chld, .childExit, .signal .chld, .main .none]

/-- The loop is left because `select()` is said to have failed, and it was only
interrupted. -/
theorem bothDead_notRightlyLeft :
    (((master twoClients).run bothDead).get rfl).pc = .exited .selectFailed ∧
    lastAnswer ((master twoClients).transitions bothDead) = some (.selectFailed .eintr) ∧
    ¬ (((master twoClients).run bothDead).get rfl).RightlyLeft twoClients
      ((master twoClients).transitions bothDead) := by
  have interrupted : lastAnswer ((master twoClients).transitions bothDead) =
      some (.selectFailed .eintr) := by rfl
  refine ⟨rfl, interrupted, ?_⟩
  intro rightly
  obtain ⟨e, answered, other⟩ : ∃ e, lastAnswer ((master twoClients).transitions bothDead) =
      some (.selectFailed e) ∧ e ≠ .eintr := rightly
  rw [interrupted] at answered
  cases answered
  exact other rfl

end HaasProxy
