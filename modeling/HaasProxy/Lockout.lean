import HaasProxy.Waiting

/-!
# The lockout after too many passwords

After `MAX_RETRIES` failed passwords a session is locked out: `TrapAuthPassword`
disconnects it and sets `Context->Error`.  Nothing else reads the counter or the
flag.  `TrapAuthPassword` goes on calling `HaasConnect` for passwords that arrive
later, and the loops of `ProxyProcess` test a variable of their own.

`Entry.Respects` and `Proxy.Sticks` are what the lockout is to mean;
`Entry.Heeds` says which deliveries and answers make up for the missing tests.
When a loop waits, `Waits` says which tests it has made since control returned to
it, and there the answers made up for the missing one.

## Main results

* `not_lockedOut_of_waits` — no loop waits for a session that is locked out;
* `respects_advance` — the step;
* `lockout_of_heeds` — the result, for every run.

## Design notes

**What is asked of an entry.**  While the session is locked out: no password is delivered,
and where control returns to a loop, something else ends it before it waits.  These are the
places in which the source could have tested `Context->Error`.  All of them are conditions
on what the peer sends and on what is answered, not on what the proxy does with it.

**Why it has to be every entry.**  The counter goes up in a callback, which may be delivered
by any call that handles packets.  So the lockout begins in the middle of a loop, or of
another callback, and the next test is wherever the code comes next.
-/

namespace HaasProxy

open Traced

/-- `MAX_RETRIES` passwords have failed. -/
def Context.LockedOut (c : Context) : Prop := maxRetries ≤ c.retries

instance (c : Context) : Decidable c.LockedOut := inferInstanceAs (Decidable (_ ≤ _))

/-- No password arrives, or control returns to `ProxyProcess` and some other
test ends the loop it is in. -/
def Entry.ends (w : World) (e : Entry) : Bool :=
  match e.action with
  | .enter (.authPassword ..) => false
  | .returned (.handleKeyExchange _) => e.answer = sshOk → LoginStops w (e.before.enterLogin w)
  | .returned (.eventDopoll _) => e.before.stage = .login →
      e.answer = sshError ∨
        e.answer ≠ sshEintr ∧ (e.before.context.closed = true ∨
          e.before.context.trapChannel ≠ none ∧ e.before.context.authenticated = true) ∨
        LoginStops w e.before
  | .returned (.blockingFlush session) =>
      session ≠ some e.before.context.trapSession → TimeUp w e.before
  | _ => true

/-- **What makes up for the missing tests** once the session is locked out. -/
def Entry.Heeds (w : World) (e : Entry) : Prop := e.before.context.LockedOut → e.ends w = true

instance (w : World) (e : Entry) : Decidable (e.Heeds w) := inferInstanceAs (Decidable (_ → _))

/-- What is asked of every entry: no login at the backend, no wait for events,
and no success. -/
def Entry.Respects (e : Entry) : Prop :=
  e.before.context.LockedOut →
    e.action ≠ .call .new ∧ (∀ timeout, e.action ≠ .call (.eventDopoll timeout)) ∧
      ∀ user password, e.action = .leave (.authPassword user password) →
        e.answer ≠ sshAuthSuccess

/-- What is asked of a state and a later one: `HaasSession` and `Authenticated`
stay unset. -/
def Proxy.Sticks (s s' : Proxy) : Prop :=
  s.context.LockedOut →
    (s.context.haasSession = none → s'.context.haasSession = none) ∧
      (s.context.authenticated = false → s'.context.authenticated = false)

/-! ## Steps

As long as the condition holds no password is tried for a session that is locked out, so
neither `HaasSession` nor `Authenticated` is set for it, and no loop comes to wait. -/

section Steps

variable {w : World} {serial : Prop} {h l : List Entry} {s s' : Proxy}

/-- Where a password is being tried, the session is not locked out. -/
theorem not_lockedOut_of_attempted (heeds : ∀ e ∈ h, e.Heeds w) {c : Context}
    (attempted : Attempted h c) : ¬ c.LockedOut := by
  obtain ⟨⟨before, action, answer⟩, known, ⟨user, password, rfl⟩, rfl⟩ := attempted
  intro locked
  exact Bool.false_ne_true (heeds _ known locked)

/-- Nothing is unlocked if both fields are what they were. -/
theorem sticks_of_eq {a b : Proxy} (haasSession : b.context.haasSession = a.context.haasSession)
    (authenticated : b.context.authenticated = a.context.authenticated) : a.Sticks b :=
  fun _ => ⟨haasSession.trans, authenticated.trans⟩

theorem Proxy.Sticks.trans {a b c : Proxy} (first : a.Sticks b) (second : b.Sticks c)
    (locked : b.context.LockedOut) : a.Sticks c := by
  intro locked₀
  obtain ⟨noSession, unauthenticated⟩ := first locked₀
  obtain ⟨noSession', unauthenticated'⟩ := second locked
  exact ⟨fun unset => noSession' (noSession unset),
    fun unset => unauthenticated' (unauthenticated unset)⟩

/-- Nothing takes the lockout back, and a session that is locked out is not
logged in. -/
theorem sticks_advance (heeds : ∀ e ∈ h, e.Heeds w) (advance : Advance w serial h s l s')
    (locked : s.context.LockedOut) : s'.context.LockedOut ∧ s.Sticks s' := by
  cases recontext advance with
  | failed attempted => exact absurd locked (not_lockedOut_of_attempted heeds attempted)
  | loggedIn session attempted => exact absurd locked (not_lockedOut_of_attempted heeds attempted)
  | grant nested r eq | once r channel first eq =>
      unfold Proxy.Sticks
      rw [eq]
      cases r <;> exact ⟨locked, fun _ => ⟨fun unset => unset, fun unset => unset⟩⟩
  | same eq | idle _ _ _ eq | limit eq | closed eq | error eq | adopt _ _ _ eq | pool _ eq =>
      unfold Proxy.Sticks
      rw [eq]
      exact ⟨locked, fun _ => ⟨fun unset => unset, fun unset => unset⟩⟩

/-- **No loop waits for a session that is locked out.** -/
theorem not_lockedOut_of_waits {time : Int} (waits : Waits w h s time)
    (heeds : ∀ e ∈ h, e.Heeds w) (numbered : ∀ e ∈ h, e.before.Numbered) :
    ¬ s.context.LockedOut := by
  intro locked
  cases waits with
  | @login h top s time here goesOn usage eq left =>
      have locked : top.context.LockedOut := by rwa [eq] at locked
      have goesOn := not_loginStops goesOn usage eq left
      cases here with
      | @first h k a top session exchanged ok added same fresh eq =>
          have entered : top = k.before.enterLogin w := by
            rw [eq, same]
            rfl
          rw [entered] at locked goesOn
          have ends := heeds k (List.mem_append_right h (.head _)) locked
          simp only [Entry.ends, exchanged] at ends
          exact goesOn (of_decide_eq_true ends ok)
      | @next h r timeout returned stage noError again =>
          have ends := heeds r (List.mem_append_right h (.head _)) locked
          simp only [Entry.ends, returned] at ends
          rcases of_decide_eq_true ends stage with error | ⟨noIntr, ended⟩ | stops
          · exact noError error
          · rcases again.resolve_left noIntr with ⟨notClosed, notReady⟩
            rcases ended with isClosed | ready
            · exact Bool.false_ne_true (notClosed.symm.trans isClosed)
            · exact notReady ready
          · exact goesOn stops
  | @relay h l top time g f e session here goesOn noWait noEvent reaped noneClosed flushes asked same
      flushed stage left =>
      have memF : f ∈ h ++ (l ++ [f]) := by simp
      have memE : e ∈ h ++ (l ++ [f]) := by simp [asked]
      have ends := heeds f memF locked
      simp only [Entry.ends, flushed] at ends
      have other : session ≠ some f.before.context.trapSession := by
        rw [← same, (numbered f memF).trapSession, ← (numbered e memE).trapSession]
        exact (numbered e memE).ne
      rw [timeLeft_of_timeUp (of_decide_eq_true ends other)] at left
      cases left

/-- **The step.** Each entry that could log in or ask the backend was logged behind a
look at the number of tries, or the condition excludes it. -/
private theorem respects_advance (heeds : ∀ e ∈ h, e.Heeds w)
    (numbered : ∀ e ∈ h, e.before.Numbered)
    (advance : Advance w serial h s l s') : ∀ e ∈ l, e.Respects := by
  intro e mem locked
  have warranted := warranted advance e mem
  obtain ⟨⟨timer, context⟩, -⟩ := within_of_advance advance e mem
  have locked : s.context.LockedOut := by rwa [context] at locked
  refine ⟨fun new => ?_, fun timeout wait => ?_, fun user password left success => ?_⟩
  · simp only [Warranted, new] at warranted
    exact not_lockedOut_of_attempted heeds warranted locked
  · simp only [Warranted, wait] at warranted
    exact not_lockedOut_of_waits warranted.1 heeds numbered locked
  · simp only [Warranted, left] at warranted
    rcases warranted with ⟨denied | ⟨c, attempted, same⟩, -⟩ | ⟨ch, event, no⟩
    · exact absurd (denied.symm.trans success) (by decide)
    · refine not_lockedOut_of_attempted heeds attempted ?_
      rw [context] at same
      rwa [Context.LockedOut, ← same]
    · cases no

end Steps

/-! ## Runs

The invariant over a run, and two runs: one in which the client is locked out, and one in
which a fourth password gets through. -/

/-- **The lockout holds** in every run that makes up for the missing tests: with
`MAX_RETRIES` failed passwords there is no further login at the backend and no
success, `HaasSession` and `Authenticated` stay unset, and `ProxyProcess` does
not wait for events again. -/
theorem lockout_of_heeds (w : World) (fuel depth : Nat)
    (heeds : ∀ e ∈ (proxyRun w fuel depth).log, e.Heeds w) :
    (∀ e ∈ (proxyRun w fuel depth).log, e.Respects) ∧
      ((proxyRun w fuel depth).log.map (fun e => e.before) ++
        [(proxyRun w fuel depth).state]).Pairwise Proxy.Sticks := by
  have path := (path_proxyRun w fuel depth).restrict (A := fun e => e.Heeds w) (by simpa using heeds)
  constructor
  · refine path.forall_entries (I := Numbering) (fun h s l s' numbering first => ⟨?_, ?_⟩)
      numbering_initial
    · exact numbering_advance numbering first.1
    · exact respects_advance (fun e mem => first.2 e (List.mem_append_left l mem)) numbering.before
        first.1
  · have ordered := path.ordered (fun e => e.before)
      (R := fun s s' => s.context.LockedOut → s'.context.LockedOut ∧ s.Sticks s')
      (fun s locked => ⟨locked, sticks_of_eq rfl rfl⟩) ?_ fun h s l s' first => ?_
    · exact ordered.imp fun sticks locked => (sticks locked).2 locked
    · intro a b c first second locked
      obtain ⟨locked', sticks⟩ := first locked
      obtain ⟨locked'', sticks'⟩ := second locked'
      exact ⟨locked'', sticks.trans sticks' locked'⟩
    · have heeds : ∀ e ∈ h, e.Heeds w := fun e mem => first.2 e (List.mem_append_left l mem)
      refine pairwise_of_advance first.1 (fun a b here there locked => ?_) fun a here locked => ?_
      · obtain ⟨⟨timer, context⟩, -⟩ := here
        obtain ⟨⟨timer', context'⟩, -⟩ := there
        rw [Context.LockedOut, context] at locked
        exact ⟨by rwa [context'], sticks_of_eq (by rw [context, context']) (by rw [context, context'])⟩
      · obtain ⟨⟨timer, context⟩, -⟩ := here
        rw [Context.LockedOut, context] at locked
        obtain ⟨after, sticks⟩ := sticks_advance heeds first.1 locked
        refine ⟨after, ?_⟩
        unfold Proxy.Sticks at sticks ⊢
        rwa [context]

/-- Three passwords fail, and the disconnected session has `ssh_event_dopoll`
fail. -/
def threePasswords : World :=
  .scripted .echo [(6, sshError)] [(6, [somePassword, somePassword, somePassword])]

/-- The condition is met by three passwords that are refused. -/
theorem lockout_threePasswords :
    (∀ e ∈ (proxyRun threePasswords 2 1).log, e.Respects) ∧
      ((proxyRun threePasswords 2 1).log.map (fun e => e.before) ++
        [(proxyRun threePasswords 2 1).state]).Pairwise Proxy.Sticks :=
  lockout_of_heeds threePasswords 2 1 (by decide +kernel)

/-- Four passwords arrive together, and the backend accepts the last one. -/
def fourPasswords : World :=
  .scripted .echo [(44, 2)]
    [(6, [somePassword, somePassword, somePassword, somePassword])]

/-- After the third password the session is locked out; with the fourth it is
logged in, and waited on again. -/
theorem fourPasswords_notRespected :
    (¬ ∀ e ∈ (proxyRun fourPasswords 2 1).log, e.Respects) ∧
    (∃ e ∈ (proxyRun fourPasswords 2 1).log, e.before.context.LockedOut ∧
      e.action = .call .new) ∧
    (∃ e ∈ (proxyRun fourPasswords 2 1).log, e.before.context.LockedOut ∧
      e.action = .leave somePassword ∧ e.answer = sshAuthSuccess) ∧
    (∃ e ∈ (proxyRun fourPasswords 2 1).log, e.before.context.LockedOut ∧
      ∃ timeout ∈ [30000], e.action = .call (.eventDopoll timeout)) ∧
    (∃ e ∈ (proxyRun fourPasswords 2 1).log, e.before.context.LockedOut ∧
      e.before.context.haasSession = none ∧ e.before.context.authenticated = false) ∧
    (proxyRun fourPasswords 2 1).state.context.haasSession ≠ none ∧
    (proxyRun fourPasswords 2 1).state.context.authenticated = true := by
  have again : ∃ e ∈ (proxyRun fourPasswords 2 1).log, e.before.context.LockedOut ∧
      e.action = .call .new := by decide +kernel
  refine ⟨fun respects => ?_, again, by decide +kernel⟩
  obtain ⟨e, mem, locked, new⟩ := again
  exact (respects e mem locked).1 new

end HaasProxy
