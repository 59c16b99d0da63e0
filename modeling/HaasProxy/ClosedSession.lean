import HaasProxy.SessionState
import HaasProxy.Waiting

/-!
# Waiting on a closed session

When either side closes the session channel a callback sets `Context->Closed`.
Both loops test it in one place, after `ssh_event_dopoll` has returned, and not
when that was interrupted.  `Entry.HeedsClose` says what is left to stop a loop
that finds the flag set anywhere else.

## Main results

* `notClosed_of_waits` — no loop waits on a closed session;
* `notClosed_of_heedsClose` — the result, for every run.

## Design notes

There are three ways past the test: the flag was set before the first loop is entered, the
wait was interrupted, and the flag is set by a callback while the second loop polls or
flushes.  `endsClosed` has one case for each.  The last one is tested for behind
the second flush, since that is the last call before the wait.
-/

namespace HaasProxy

/-- Where control returns to `ProxyProcess` and `Closed` may be set, some other
test stops the loop before it waits. -/
def Entry.endsClosed (w : World) (e : Entry) : Bool :=
  match e.action with
  | .returned (.handleKeyExchange _) => e.answer = sshOk → LoginStops w (e.before.enterLogin w)
  | .returned (.eventDopoll _) =>
      e.before.stage = .login → e.answer = sshEintr → LoginStops w e.before
  | .returned (.blockingFlush session) =>
      session ≠ some e.before.context.trapSession → TimeUp w e.before
  | _ => true

/-- **What makes up for the missing tests** once the session is closed. -/
def Entry.HeedsClose (w : World) (e : Entry) : Prop :=
  e.before.context.closed = true → e.endsClosed w = true

instance (w : World) (e : Entry) : Decidable (e.HeedsClose w) :=
  inferInstanceAs (Decidable (_ → _))

section Steps

variable {w : World} {serial : Prop} {h l : List Entry} {s s' : Proxy}

/-- **No loop waits on a closed session.** -/
theorem notClosed_of_waits {time : Int} (waits : Waits w h s time)
    (heeds : ∀ e ∈ h, e.HeedsClose w) (numbered : ∀ e ∈ h, e.before.Numbered) :
    s.context.closed = false := by
  by_contra open_
  have closed := eq_true_of_ne_false open_
  cases waits with
  | @login h top s time here goesOn usage eq left =>
      have closed : top.context.closed = true := by rwa [eq] at closed
      have goesOn := not_loginStops goesOn usage eq left
      cases here with
      | @first h k a top session exchanged ok added same fresh eq =>
          have entered : top = k.before.enterLogin w := by
            rw [eq, same]
            rfl
          rw [entered] at closed goesOn
          have ends := heeds k (List.mem_append_right h (.head _)) closed
          simp only [Entry.endsClosed, exchanged] at ends
          exact goesOn (of_decide_eq_true ends ok)
      | @next h r timeout returned stage noError again =>
          have ends := heeds r (List.mem_append_right h (.head _)) closed
          simp only [Entry.endsClosed, returned] at ends
          rcases again with interrupted | ⟨notClosed, -⟩
          · exact goesOn (of_decide_eq_true ends stage interrupted)
          · exact Bool.false_ne_true (notClosed.symm.trans closed)
  | @relay h l top time g f e session here goesOn noWait noEvent reaped noneClosed flushes asked same
      flushed stage left =>
      have memF : f ∈ h ++ (l ++ [f]) := by simp
      have memE : e ∈ h ++ (l ++ [f]) := by simp [asked]
      have ends := heeds f memF closed
      simp only [Entry.endsClosed, flushed] at ends
      have other : session ≠ some f.before.context.trapSession := by
        rw [← same, (numbered f memF).trapSession, ← (numbered e memE).trapSession]
        exact (numbered e memE).ne
      rw [timeLeft_of_timeUp (of_decide_eq_true ends other)] at left
      cases left

end Steps

/-- **A closed session is not waited on**, in every run in which another test stops the
loop wherever `Closed` is not tested. The places are the entry of the first loop, a wait
of either loop that was interrupted, and the flush in the second one. All others have
the test behind them. -/
theorem notClosed_of_heedsClose (w : World) (fuel depth : Nat)
    (heeds : ∀ e ∈ (proxyRun w fuel depth).log, e.HeedsClose w) :
    ∀ e ∈ (proxyRun w fuel depth).log, ∀ timeout, e.action = .call (.eventDopoll timeout) →
      e.before.context.closed = false := by
  refine ((path_proxyRun w fuel depth).restrict (A := fun e => e.HeedsClose w)
    (by simpa using heeds)).forall_entries (I := Numbering) (fun h s l s' numbering first =>
      ⟨numbering_advance numbering first.1, ?_⟩) numbering_initial
  intro e mem timeout wait
  have warranted := warranted first.1 e mem
  simp only [Warranted, wait] at warranted
  rw [warranted.2]
  show s.context.closed = false
  exact notClosed_of_waits warranted.1 (fun e mem => first.2 e (List.mem_append_left l mem))
    numbering.before

/-- The condition is met by a client that closes its channel after it got a shell. -/
theorem notClosed_terminalAndShell :
    (∀ e ∈ (proxyRun terminalAndShell 3 1).log, ∀ timeout,
      e.action = .call (.eventDopoll timeout) → e.before.context.closed = false) ∧
    ∃ e ∈ (proxyRun terminalAndShell 3 1).log, ∃ timeout ∈ [30000],
      e.action = .returned (.eventDopoll timeout) ∧ e.before.context.closed = true :=
  ⟨notClosed_of_heedsClose terminalAndShell 3 1 (by decide +kernel), by decide +kernel⟩

/-- The client closes its session channel while its session is flushed. -/
def closedWhileFlushed : World :=
  .scripted .echo [(13, 2)] [(6, loginAndChannel), (28, [.channel 0 .close])]

/-- The loop waits for events all the same. -/
theorem closedWhileFlushed_waitedOn :
    (¬ ∀ e ∈ (proxyRun closedWhileFlushed 1 1).log, ∀ timeout,
      e.action = .call (.eventDopoll timeout) → e.before.context.closed = false) ∧
    ∃ e ∈ (proxyRun closedWhileFlushed 1 1).log, ∃ timeout ∈ [30000],
      e.action = .call (.eventDopoll timeout) ∧ e.before.context.closed = true := by
  have waited : ∃ e ∈ (proxyRun closedWhileFlushed 1 1).log, ∃ timeout ∈ [30000],
      e.action = .call (.eventDopoll timeout) ∧ e.before.context.closed = true := by decide +kernel
  refine ⟨fun kept => ?_, waited⟩
  obtain ⟨e, mem, timeout, -, wait, closed⟩ := waited
  exact Bool.false_ne_true ((kept e mem timeout wait).symm.trans closed)

end HaasProxy
