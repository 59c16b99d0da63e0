import HaasProxy.Waiting

/-!
# The deadlines

`TimerGet` works on milliseconds in an `int`.  From 2³¹ of them on the result is
of no use (`timerLeft_eq` says what it is below), and as both the reading and the
deadline are rounded down, it may be more than what is left by less than a
millisecond.  `Proxy.Measured` says where neither happens.

## Main definitions and results

* `remaining` — what is left until a deadline, in microseconds;
* `Enforced` — a loop waits no longer than that, and gives up only when it is over;
* `Proxy.Measured` — the deadlines fit, and the readings round as they should;
* `timerLeft_eq`, `timeLeft_of_fits` — what is computed where they fit;
* `le_remaining_iff`, `remaining_lt` — the two halves of `Enforced`, for one computation;
* `armed_of_advance` — where the deadlines come from;
* `enforced_of_measured` — the result;
* `fits_of_timeouts` — they fit wherever the timeouts do not exceed 2147483 seconds.

## Design notes

**Two scales.**  The source has milliseconds; what is asked of it is stated in microseconds,
which is what `gettimeofday` answers.  `millis` and `micros` relate the two, and the
difference between them is the last three digits: `Timeval.Rounds` compares those of a reading
with those of a deadline.

**Where the time is computed.**  `Entry.computes` names the state in which a loop reads the
clock, by the entry behind which it comes there.  So what is assumed of the readings is about
the clock and the timers in that state, and not about the result.

**Two readings.**  The idle timer and the session timer are each compared with a reading of
their own.  What is waited for is the smaller one of two differences that were taken at
different times.  `Limited` says that the second one was taken at all.
-/

namespace HaasProxy

/-! ## Milliseconds and microseconds

Division by 1000, rounded down, and the 32 bits of an `int`. -/

namespace Timeval

/-- The milliseconds of a point in time. -/
def millis (t : Timeval) : Int := t.sec * 1000 + (t.usec / 1000 : Nat)

/-- The microseconds of a point in time. -/
def micros (t : Timeval) : Int := t.sec * 1000000 + t.usec

/-- A `timeval` of `gettimeofday`. -/
def Normal (t : Timeval) : Prop := t.usec < 1000000

/-- A point in time is a number of whole milliseconds, and some microseconds. -/
theorem micros_eq (t : Timeval) : t.micros = t.millis * 1000 + (t.usec % 1000 : Nat) := by
  unfold micros millis
  omega

private theorem millis_later (t : Timeval) (sec : Int) :
    (t.later sec).millis = t.millis + sec * 1000 := by
  unfold millis later
  simp only
  omega

end Timeval

/-- What fits into an `int` is stored as it is. -/
private theorem toInt32_of_fits {x : Int} (least : -2147483648 ≤ x) (most : x < 2147483648) :
    toInt32 x = x := by
  unfold toInt32
  rw [Int.bmod_def]
  split <;> omega

/-- The steps of `TimerGet` in an `int` are one. -/
theorem timerLeft_of_before {timer now : Timeval} (before : timerBefore now timer = true) :
    timerLeft timer now = toInt32 (timer.millis - now.millis) := by
  simp only [timerLeft, before, if_true, toInt32, Int.bmod_sub_bmod, Int.bmod_mul_bmod,
    Int.bmod_add_bmod, Timeval.millis]
  congr 1
  omega

/-- `timercmp` compares microseconds. -/
theorem timerBefore_iff {now timer : Timeval} (normal : timer.Normal) (normal' : now.Normal) :
    timerBefore now timer = true ↔ now.micros < timer.micros := by
  unfold Timeval.Normal at normal normal'
  unfold timerBefore Timeval.micros
  split
  · rw [decide_eq_true_iff]
    omega
  · rw [decide_eq_true_iff]
    omega

/-- **What `TimerGet` computes** while the milliseconds left fit into an `int`:
these, or 0 when there are none. -/
theorem timerLeft_eq {timer now : Timeval} (normal : timer.Normal) (normal' : now.Normal)
    (fits : timer.millis - now.millis < 2147483648) :
    timerLeft timer now = max (timer.millis - now.millis) 0 := by
  have later := timer.micros_eq
  have earlier := now.micros_eq
  have compared := timerBefore_iff normal normal'
  by_cases before : timerBefore now timer = true
  · have left := compared.mp before
    rw [timerLeft_of_before before, toInt32_of_fits (by omega) fits]
    omega
  · have passed : ¬ now.micros < timer.micros := fun left => before (compared.mpr left)
    rw [timerLeft, if_neg before]
    omega

/-- What is left until a deadline, in microseconds. -/
def remaining (timer now : Timeval) : Int := timer.micros - now.micros

/-- A reading is rounded down by no more than its deadline is. -/
def Timeval.Rounds (timer now : Timeval) : Prop := now.usec % 1000 ≤ timer.usec % 1000

instance (timer now : Timeval) : Decidable (timer.Rounds now) := inferInstanceAs (Decidable (_ ≤ _))

/-- What is left, in microseconds: the difference in milliseconds, up to less than one
of them either way. -/
theorem remaining_eq (timer now : Timeval) : remaining timer now =
    (timer.millis - now.millis) * 1000 + (timer.usec % 1000 : Nat) - (now.usec % 1000 : Nat) := by
  rw [remaining, timer.micros_eq, now.micros_eq]
  omega

/-! ## What is to hold

A deadline is looked at once in each turn of the loops, when the time left is computed.
What is to hold is said about these points. -/

/-- The first loop is at its top in `s`; if its tests let it go on, it computes
the time to wait in the state given. -/
def Proxy.computesLogin (w : World) (s : Proxy) : Option Proxy :=
  if w.shouldStop s.tick = false ∧ (0 < w.config.cpuUsage →
      (w.usage (s.tick + 1)).elim false (fun sec => sec ≤ w.config.cpuUsage) = true) then
    some { s with tick := s.tick + 1 + if 0 < w.config.cpuUsage then 1 else 0 }
  else none

/-- Where control returns to `ProxyProcess` and a loop goes on to compute the time
to wait, the state in which it does. -/
def Entry.computes (w : World) (e : Entry) : Option Proxy :=
  match e.action with
  | .returned (.handleKeyExchange _) =>
      if e.answer = sshOk then (e.before.enterLogin w).computesLogin w else none
  | .returned (.eventDopoll _) =>
      if e.before.stage = .login ∧ e.answer ≠ sshError ∧ (e.answer = sshEintr ∨
          e.before.context.closed = false ∧
            ¬ (e.before.context.trapChannel ≠ none ∧ e.before.context.authenticated = true)) then
        e.before.computesLogin w
      else none
  | .returned (.blockingFlush session) =>
      if e.before.stage = .relay ∧ session ≠ some e.before.context.trapSession then some e.before
      else none
  | _ => none

/-- **The deadlines are enforced**: a loop waits for some time, and no longer than
what is left until each deadline when it is read, and it gives up only when there
is less than a millisecond. -/
structure Enforced (w : World) (log : List Entry) : Prop where
  /-- The time is positive and ends before both deadlines do. -/
  waits : ∀ e ∈ log, ∀ time, e.action = .call (.eventDopoll time) →
    ∃ s : Proxy, e.before = { s with tick := s.tick + w.readings + 1 } ∧ 0 < time ∧
      time * 1000 ≤ remaining s.context.idleTimer (w.clock s.tick) ∧
      (0 < w.config.sessionTimeout →
        time * 1000 ≤ remaining s.context.sessionTimer (w.clock (s.tick + 1)))
  /-- When the loop gives up, a deadline is less than a millisecond away. -/
  leaves : ∀ e ∈ log, ∀ s, e.computes w = some s → (waitTime w s).value = .ok none →
    remaining s.context.idleTimer (w.clock s.tick) < 1000 ∨
      timerLeft s.context.idleTimer (w.clock s.tick) ≠ 0 ∧ 0 < w.config.sessionTimeout ∧
        remaining s.context.sessionTimer (w.clock (s.tick + 1)) < 1000

/-- The milliseconds until the idle deadline when it is read next. -/
def Proxy.idleLeft (w : World) (s : Proxy) : Int :=
  s.context.idleTimer.millis - (w.clock s.tick).millis

/-- The milliseconds until the session deadline when it is read after that. -/
def Proxy.sessionLeft (w : World) (s : Proxy) : Int :=
  s.context.sessionTimer.millis - (w.clock (s.tick + 1)).millis

/-- The session deadline is read, after the idle deadline. -/
def Proxy.Limited (w : World) (s : Proxy) : Prop := 0 < w.config.sessionTimeout ∧ 0 < s.idleLeft w

/-- What is read of the deadlines fits into an `int`. -/
def Proxy.Fits (w : World) (s : Proxy) : Prop :=
  s.idleLeft w < 2147483648 ∧ (s.Limited w → s.sessionLeft w < 2147483648)

/-- The reading of the nearer deadline is rounded down by no more than the
deadline. -/
def Proxy.Rounds (w : World) (s : Proxy) : Prop :=
  (0 < s.idleLeft w → (s.Limited w → s.idleLeft w ≤ s.sessionLeft w) →
    s.context.idleTimer.Rounds (w.clock s.tick)) ∧
  (s.Limited w → 0 < s.sessionLeft w → s.sessionLeft w ≤ s.idleLeft w →
    s.context.sessionTimer.Rounds (w.clock (s.tick + 1)))

/-- **The deadlines are measured well.** -/
def Proxy.Measured (w : World) (s : Proxy) : Prop := s.Fits w ∧ s.Rounds w

instance (w : World) (s : Proxy) : Decidable (s.Limited w) := inferInstanceAs (Decidable (_ ∧ _))

instance (w : World) (s : Proxy) : Decidable (s.Fits w) := inferInstanceAs (Decidable (_ ∧ _))

instance (w : World) (s : Proxy) : Decidable (s.Rounds w) := inferInstanceAs (Decidable (_ ∧ _))

instance (w : World) (s : Proxy) : Decidable (s.Measured w) := inferInstanceAs (Decidable (_ ∧ _))

/-! ## One computation

In one state, with no run around it. -/

section Computation

variable {w : World} {s : Proxy}

/-- Both timers come from readings of the clock. -/
structure Proxy.Normal (s : Proxy) : Prop where
  idleTimer : s.context.idleTimer.Normal
  sessionTimer : s.context.sessionTimer.Normal

/-- The readings of the loops, as one function of the state. -/
theorem value_waitTime (w : World) (s : Proxy) : (waitTime w s).value = .ok (timeLeft w s) := by
  have idle : idleTimerGet w s =
      ⟨[], s.tock, .ok (timerLeft s.context.idleTimer (w.clock s.tick))⟩ := rfl
  rw [waitTime, Traced.bind_of_ok idle, timeLeft]
  by_cases up : timerLeft s.context.idleTimer (w.clock s.tick) = 0
  · rw [if_pos up, if_pos up]
    rfl
  · rw [if_neg up, if_neg up]
    by_cases limited : 0 < w.config.sessionTimeout
    · rw [if_pos limited, if_pos limited]
      rfl
    · rw [if_neg limited, if_neg limited]
      rfl

/-- **The time to wait** where the deadlines fit: the milliseconds until the nearer
one. -/
theorem timeLeft_of_fits (normal : s.Normal) (clock : ∀ t, (w.clock t).Normal)
    (fits : s.Fits w) : timeLeft w s =
      if s.idleLeft w ≤ 0 then none
      else if 0 < w.config.sessionTimeout then
        if s.sessionLeft w ≤ 0 then none else some (min (s.idleLeft w) (s.sessionLeft w))
      else some (s.idleLeft w) := by
  have idle : timerLeft s.context.idleTimer (w.clock s.tick) = max (s.idleLeft w) 0 :=
    timerLeft_eq normal.idleTimer (clock _) fits.1
  unfold timeLeft
  rw [idle]
  by_cases up : s.idleLeft w ≤ 0
  · rw [if_pos up, if_pos (max_eq_right up)]
  · have left : 0 < s.idleLeft w := Int.not_le.mp up
    rw [if_neg up, max_eq_left left.le, if_neg left.ne']
    by_cases limited : 0 < w.config.sessionTimeout
    · have session : timerLeft s.context.sessionTimer (w.clock (s.tick + 1)) =
          max (s.sessionLeft w) 0 :=
        timerLeft_eq normal.sessionTimer (clock _) (fits.2 ⟨limited, left⟩)
      rw [if_pos limited, if_pos limited, session]
      by_cases up : s.sessionLeft w ≤ 0
      · rw [if_pos up, if_pos (max_eq_right up)]
      · have left : 0 < s.sessionLeft w := Int.not_le.mp up
        rw [if_neg up, max_eq_left left.le, if_neg left.ne', min_comm, min_def_lt]
    · rw [if_neg limited, if_neg limited]

/-- **A time to wait is no longer than what is left** exactly if the reading of the
nearer deadline rounds as it should. -/
private theorem le_remaining_iff (normal : s.Normal) (clock : ∀ t, (w.clock t).Normal)
    (fits : s.Fits w) :
    (∀ time, timeLeft w s = some time →
      0 < time ∧ time * 1000 ≤ remaining s.context.idleTimer (w.clock s.tick) ∧
        (0 < w.config.sessionTimeout →
          time * 1000 ≤ remaining s.context.sessionTimer (w.clock (s.tick + 1)))) ↔
      s.Rounds w := by
  rw [timeLeft_of_fits normal clock fits]
  have idle : remaining s.context.idleTimer (w.clock s.tick) = s.idleLeft w * 1000 +
      (s.context.idleTimer.usec % 1000 : Nat) - ((w.clock s.tick).usec % 1000 : Nat) :=
    remaining_eq _ _
  have session : remaining s.context.sessionTimer (w.clock (s.tick + 1)) = s.sessionLeft w * 1000 +
      (s.context.sessionTimer.usec % 1000 : Nat) - ((w.clock (s.tick + 1)).usec % 1000 : Nat) :=
    remaining_eq _ _
  unfold Proxy.Rounds Timeval.Rounds Proxy.Limited
  constructor
  · intro enforced
    refine ⟨fun left nearer => ?_, fun limited left nearer => ?_⟩
    · rw [if_neg (Int.not_le.mpr left)] at enforced
      by_cases limited : 0 < w.config.sessionTimeout
      · have le := nearer ⟨limited, left⟩
        rw [if_pos limited, if_neg (by omega), min_eq_left le] at enforced
        have fine := (enforced _ rfl).2.1
        omega
      · rw [if_neg limited] at enforced
        have fine := (enforced _ rfl).2.1
        omega
    · rw [if_neg (Int.not_le.mpr limited.2), if_pos limited.1, if_neg (Int.not_le.mpr left),
        min_eq_right nearer] at enforced
      have fine := (enforced _ rfl).2.2 limited.1
      omega
  · rintro ⟨idleRounds, sessionRounds⟩ time left
    split_ifs at left <;> cases left <;> omega

/-- **A loop that gives up** has less than a millisecond left. -/
private theorem remaining_lt (normal : s.Normal) (clock : ∀ t, (w.clock t).Normal)
    (fits : s.Fits w) (left : timeLeft w s = none) :
    remaining s.context.idleTimer (w.clock s.tick) < 1000 ∨
      timerLeft s.context.idleTimer (w.clock s.tick) ≠ 0 ∧ 0 < w.config.sessionTimeout ∧
        remaining s.context.sessionTimer (w.clock (s.tick + 1)) < 1000 := by
  rw [timeLeft_of_fits normal clock fits] at left
  have idle : remaining s.context.idleTimer (w.clock s.tick) = s.idleLeft w * 1000 +
      (s.context.idleTimer.usec % 1000 : Nat) - ((w.clock s.tick).usec % 1000 : Nat) :=
    remaining_eq _ _
  have session : remaining s.context.sessionTimer (w.clock (s.tick + 1)) = s.sessionLeft w * 1000 +
      (s.context.sessionTimer.usec % 1000 : Nat) - ((w.clock (s.tick + 1)).usec % 1000 : Nat) :=
    remaining_eq _ _
  have read : timerLeft s.context.idleTimer (w.clock s.tick) = max (s.idleLeft w) 0 :=
    timerLeft_eq normal.idleTimer (clock _) fits.1
  split_ifs at left with up limited up'
  · left
    omega
  · right
    exact ⟨by omega, limited, by omega⟩

end Computation

/-! ## Runs

Two invariants: both timers run while a loop does, and every time that is computed was
computed from a clock reading of the run. -/

section Runs

variable {w : World} {serial : Prop} {h l : List Entry} {s s' t : Proxy}

/-- Control returns to `ProxyProcess` between the steps. -/
theorem before_of_computes (advance : Advance w serial h s l s') :
    ∀ e ∈ l, ∀ t, e.computes w = some t → e.before = s := by
  cases advance with
  | change change =>
      cases change with
      | once _ _ r => cases r <;> simp [Entry.computes, OnceRequest.call]
      | register _ _ offered pointer cell added stored pair filled _ mid =>
          intro e mem
          obtain ⟨-, ⟨allocation, action⟩ | ⟨ch, action⟩⟩ := mid e mem <;>
            simp [Entry.computes, action]
      | _ => simp [Entry.computes, relayLog, byeLog]
  | _ => simp [Entry.computes, byeLog]

/-- What is computed with after an entry. -/
theorem computes_cases {e : Entry} (computes : e.computes w = some t) :
    t.context = e.before.context ∨ t.context = (e.before.enterLogin w).context := by
  have login (top : Proxy) (computes : top.computesLogin w = some t) : t.context = top.context := by
    obtain ⟨-, eq⟩ := Option.ite_none_right_eq_some.mp computes
    cases eq
    rfl
  unfold Entry.computes at computes
  split at computes
  · split_ifs at computes
    exact .inr (login _ computes)
  · split_ifs at computes
    exact .inl (login _ computes)
  · split_ifs at computes
    cases computes
    exact .inl rfl
  · cases computes

/-- Every timer comes from a reading of the clock. -/
theorem normal_advance (clock : ∀ t, (w.clock t).Normal) (normal : s.Normal)
    (advance : Advance w serial h s l s') : s'.Normal := by
  obtain ⟨idleTimer, sessionTimer⟩ := normal
  cases recontext advance with
  | grant _ r eq | once r _ _ eq =>
      cases r <;> exact ⟨by rw [eq]; exact idleTimer, by rw [eq]; exact sessionTimer⟩
  | idle t _ _ eq =>
      refine ⟨?_, ?_⟩
      · rw [eq]
        exact clock t
      · rw [eq]
        exact sessionTimer
  | limit eq =>
      refine ⟨?_, ?_⟩
      · rw [eq]
        exact idleTimer
      · rw [eq]
        exact clock s.tick
  | same eq | closed eq | failed _ eq | error eq | loggedIn _ _ _ _ eq | adopt _ _ _ eq
  | pool _ eq => exact ⟨by rw [eq]; exact idleTimer, by rw [eq]; exact sessionTimer⟩

/-- The deadlines that are computed are normal if the clock's readings are. -/
private theorem normal_of_computes (clock : ∀ t, (w.clock t).Normal) (fuel depth : Nat) :
    ∀ e ∈ (proxyRun w fuel depth).log, ∀ t, e.computes w = some t → t.Normal := by
  refine (path_proxyRun w fuel depth).forall_entries (I := fun _ s => s.Normal)
    (fun h s l s' normal advance => ⟨normal_advance clock normal advance, ?_⟩)
    ⟨show 0 < 1000000 by decide, show 0 < 1000000 by decide⟩
  intro e mem t computes
  have here := before_of_computes advance e mem t computes
  obtain ⟨idleTimer, sessionTimer⟩ := normal
  rcases computes_cases computes with same | entered
  · rw [here] at same
    exact ⟨by rw [same]; exact idleTimer, by rw [same]; exact sessionTimer⟩
  · rw [here] at entered
    refine ⟨?_, ?_⟩
    · rw [entered]
      exact clock _
    · rw [entered]
      show (if 0 < w.config.sessionTimeout then (w.clock (s.tick + 2)).later w.config.sessionTimeout
        else s.context.sessionTimer).Normal
      split
      · exact clock _
      · exact sessionTimer

/-- **A loop waits for the time it has computed** where control returned to it. -/
theorem computes_of_waits {time : Int} (waits : Waits w h t time)
    (numbered : ∀ e ∈ h, e.before.Numbered) : ∃ k ∈ h, ∃ s, k.computes w = some s ∧
      timeLeft w s = some time ∧ t = { s with tick := s.tick + w.readings } := by
  cases waits with
  | @login h top s time here goesOn usage eq left =>
      have computes : top.computesLogin w = some s := by
        rw [eq]
        exact if_pos ⟨goesOn, usage⟩
      cases here with
      | @first h k a top session exchanged ok added same fresh entered =>
          have entered : top = k.before.enterLogin w := by
            rw [entered, same]
            rfl
          refine ⟨k, List.mem_append_right h (.head _), s, ?_, left, rfl⟩
          simp only [Entry.computes, exchanged, ok, if_true]
          rwa [← entered]
      | @next h r timeout returned stage noError again =>
          refine ⟨r, List.mem_append_right h (.head _), s, ?_, left, rfl⟩
          simp only [Entry.computes, returned]
          rwa [if_pos ⟨stage, noError, again⟩]
  | @relay h l top time g f e session here goesOn noWait noEvent reaped noneClosed flushes asked same
      flushed stage left =>
      have memF : f ∈ h ++ (l ++ [f]) := by simp
      have memE : e ∈ h ++ (l ++ [f]) := by simp [asked]
      have other : session ≠ some f.before.context.trapSession := by
        rw [← same, (numbered f memF).trapSession, ← (numbered e memE).trapSession]
        exact (numbered e memE).ne
      refine ⟨f, memF, f.before, ?_, left, rfl⟩
      simp only [Entry.computes, flushed]
      rw [if_pos ⟨stage, other⟩]

/-- A wait returns in the state it was entered in: callbacks have run before. -/
theorem before_of_woken (advance : Advance w serial h s l s') :
    ∀ e ∈ l, ∀ timeout, e.action = .returned (.eventDopoll timeout) → e.before = s := by
  cases advance with
  | change change =>
      intro e mem timeout returned
      exact absurd ⟨timeout, .inr returned⟩ (not_aboutWait_of_change change e mem)
  | event _ _ i about => rcases about with rfl | rfl <;> simp
  | _ => simp [byeLog]

/-- Both timers run from a reading of the clock that was made before. -/
structure Proxy.Armed (w : World) (s : Proxy) : Prop where
  idleTimer : ∃ t ≤ s.tick, s.context.idleTimer = (w.clock t).later w.config.idleTimeout
  /-- Where there is no limit the timer was never started. -/
  sessionTimer : 0 < w.config.sessionTimeout →
    ∃ t ≤ s.tick, s.context.sessionTimer = (w.clock t).later w.config.sessionTimeout

/-- The timers are armed as long as they stay what they are, and time goes on. -/
theorem armed_of_context (armed : s.Armed w) (le : s.tick ≤ s'.tick)
    (idleTimer : s'.context.idleTimer = s.context.idleTimer)
    (sessionTimer : s'.context.sessionTimer = s.context.sessionTimer) : s'.Armed w := by
  obtain ⟨⟨t, past, idle⟩, session⟩ := armed
  refine ⟨⟨t, past.trans le, idleTimer.trans idle⟩, fun limited => ?_⟩
  obtain ⟨t, past, session⟩ := session limited
  exact ⟨t, past.trans le, sessionTimer.trans session⟩

/-- **The step.** The idle timer is set to a reading of the clock and the timeout; the
session timer is set once. -/
private theorem armed_of_advance (armed : s.Armed w) (advance : Advance w serial h s l s') :
    s'.Armed w := by
  have le := tick_of_advance advance
  cases recontext advance with
  | grant _ r eq | once r _ _ eq =>
      cases r <;> exact armed_of_context armed le (by rw [eq]; rfl) (by rw [eq]; rfl)
  | idle t since until_ eq =>
      refine ⟨⟨t, until_.le, by rw [eq]⟩, fun limited => ?_⟩
      obtain ⟨t, past, session⟩ := armed.sessionTimer limited
      exact ⟨t, past.trans le, by rw [eq, ← session]⟩
  | limit eq until_ =>
      obtain ⟨t, past, idle⟩ := armed.idleTimer
      exact ⟨⟨t, past.trans le, by rw [eq, ← idle]⟩, fun _ => ⟨s.tick, le, by rw [eq]⟩⟩
  | same eq | closed eq | failed _ eq | error eq | loggedIn _ _ _ _ eq | adopt _ _ _ eq
  | pool _ eq => exact armed_of_context armed le (by rw [eq]) (by rw [eq])

/-- The invariant: both timers run while a loop does. -/
structure Ticking (w : World) (h : List Entry) (s : Proxy) : Prop where
  here : s.stage = .login ∨ s.stage = .relay → s.Armed w
  /-- So they did whenever the first loop came back from a wait. -/
  woken : ∀ e ∈ h, ∀ timeout, e.action = .returned (.eventDopoll timeout) →
    e.before.stage = .login → e.before.Armed w

/-- Both are armed when the loop for the login is entered. -/
private theorem armed_of_loginTop (ticking : Ticking w h t) (top : LoginTop w h s) : s.Armed w := by
  cases top with
  | first exchanged ok added same fresh eq =>
      rw [eq]
      refine ⟨⟨_, Nat.le_add_right _ _, rfl⟩, fun limited => ⟨_, ?_, if_pos limited⟩⟩
      simp [World.readings, limited]
  | @next h r timeout returned stage =>
      exact ticking.woken r (List.mem_append_right h (.head _)) timeout returned stage

/-- Both timers stay armed: a step inside of a loop leaves them as they are or sets them
anew, and the login loop is entered with both set. -/
private theorem ticking_advance (ticking : Ticking w h s) (advance : Advance w serial h s l s') :
    Ticking w (h ++ l) s' := by
  refine ⟨?_, ?_⟩
  · intro serving
    by_cases before : s.stage = .login ∨ s.stage = .relay
    · exact armed_of_advance (ticking.here before) advance
    · cases advance with
      | login _ _ top =>
          exact armed_of_context (armed_of_loginTop ticking top) (Nat.le_refl _) rfl rfl
      | relay _ _ top login => exact absurd (.inl login) before
      | change change =>
          rw [stage_of_change change] at serving
          exact absurd serving before
      | teardown => simp at serving
      | _ => exact absurd serving before
  · intro e mem timeout returned login
    rcases List.mem_append.mp mem with mem | mem
    · exact ticking.woken e mem timeout returned login
    · rw [before_of_woken advance e mem timeout returned] at login ⊢
      exact ticking.here (.inl login)

/-- A loop computes the time to wait with both timers running. -/
theorem armed_of_computes {e : Entry} (computes : e.computes w = some t)
    (here : e.before.stage = .login ∨ e.before.stage = .relay → e.before.Armed w) : t.Armed w := by
  have login (top : Proxy) (armed : top.Armed w) (computes : top.computesLogin w = some t) :
      t.Armed w := by
    obtain ⟨-, eq⟩ := Option.ite_none_right_eq_some.mp computes
    cases eq
    refine armed_of_context armed ?_ rfl rfl
    exact (Nat.le_succ _).trans (Nat.le_add_right _ _)
  unfold Entry.computes at computes
  split at computes
  · split_ifs at computes
    refine login _ ⟨⟨e.before.tick + 1, Nat.le_add_right _ _, rfl⟩, fun limited => ?_⟩ computes
    refine ⟨e.before.tick + 2, ?_, if_pos limited⟩
    simp [Proxy.enterLogin, World.readings, limited]
  · split_ifs at computes with goesOn
    exact login _ (here (.inl goesOn.1)) computes
  · split_ifs at computes with flushed
    cases computes
    exact here (.inr flushed.1)
  · cases computes

/-- What is left until a deadline was no less when the timer was set. -/
theorem left_le {timer now set : Timeval} {sec : Int} (eq : timer = set.later sec)
    (le : set.micros ≤ now.micros) : timer.millis - now.millis ≤ sec * 1000 := by
  have first := set.micros_eq
  have second := now.micros_eq
  rw [eq, Timeval.millis_later]
  omega

/-- **A deadline is never further away than its timeout**: up to 2147483 seconds,
what a loop reads of it fits into an `int`. -/
theorem fits_of_timeouts (w : World)
    (clock : ∀ t t', t ≤ t' → (w.clock t).micros ≤ (w.clock t').micros)
    (idleTimeout : w.config.idleTimeout ≤ 2147483) (sessionTimeout : w.config.sessionTimeout ≤ 2147483)
    (fuel depth : Nat) : ∀ e ∈ (proxyRun w fuel depth).log, ∀ s, e.computes w = some s →
      s.Fits w := by
  have armed : ∀ e ∈ (proxyRun w fuel depth).log, ∀ s, e.computes w = some s → s.Armed w := by
    refine (path_proxyRun w fuel depth).forall_entries (I := Ticking w)
      (fun h s l s' ticking advance => ⟨ticking_advance ticking advance, ?_⟩)
      ⟨by simp [Proxy.initial], List.forall_mem_nil _⟩
    intro e mem t computes
    refine armed_of_computes computes ?_
    rw [before_of_computes advance e mem t computes]
    exact ticking.here
  intro e mem s computes
  obtain ⟨⟨t, past, idle⟩, session⟩ := armed e mem s computes
  refine ⟨?_, fun limited => ?_⟩
  · have le := left_le idle (clock t s.tick past)
    unfold Proxy.idleLeft
    omega
  · obtain ⟨t, past, session⟩ := session limited.1
    have le := left_le session (clock t (s.tick + 1) (past.trans (Nat.le_add_right _ 1)))
    unfold Proxy.sessionLeft
    omega

/-- **The deadlines are enforced** in every run in which what is read of them fits into
an `int`, and the reading of the nearer one is rounded down by no more than the
deadline. `TimerGet` answers milliseconds in an `int`: from 2^31 on they are negative,
and a negative time makes `ssh_event_dopoll` wait without a limit. The clock is any one
whose microseconds are below a second. -/
theorem enforced_of_measured (w : World) (clock : ∀ t, (w.clock t).Normal) (fuel depth : Nat)
    (measured : ∀ e ∈ (proxyRun w fuel depth).log, (e.computes w).all fun s => s.Measured w) :
    Enforced w (proxyRun w fuel depth).log := by
  have normal := normal_of_computes clock fuel depth
  have known : ∀ e ∈ (proxyRun w fuel depth).log, ∀ s, e.computes w = some s →
      s.Normal ∧ s.Measured w := by
    intro e mem s computes
    have here := measured e mem
    rw [computes] at here
    exact ⟨normal e mem s computes, of_decide_eq_true here⟩
  refine ⟨?_, ?_⟩
  · refine ((path_proxyRun w fuel depth).restrict (A := fun e => ∀ s, e.computes w = some s →
      s.Normal ∧ s.Measured w) (by simpa using known)).forall_entries (I := Numbering)
      (fun h s l s' numbering first => ⟨numbering_advance numbering first.1, ?_⟩) numbering_initial
    intro e mem time wait
    have warranted := warranted first.1 e mem
    simp only [Warranted, wait] at warranted
    obtain ⟨waits, before⟩ := warranted
    obtain ⟨k, memK, s₀, computes, left, rfl⟩ := computes_of_waits waits numbering.before
    obtain ⟨normal, measured⟩ := first.2 k (List.mem_append_left l memK) s₀ computes
    exact ⟨s₀, before, (le_remaining_iff normal clock measured.1).mpr measured.2 time left⟩
  · intro e mem s computes none
    obtain ⟨normal, measured⟩ := known e mem s computes
    rw [value_waitTime] at none
    exact remaining_lt normal clock measured.1 (Except.ok.inj none)

/-- A client that sends nothing, with 30 seconds for that and 20 seconds in all. -/
def silentClient : World :=
  let quiet := World.scripted .echo [] []
  { quiet with
    config := { quiet.config with sessionTimeout := 20 }
    clock := fun t => ⟨100 + t, 500⟩ }

/-- The condition is met by a client that is silent until its time is up. -/
theorem enforced_silentClient :
    Enforced silentClient (proxyRun silentClient 9 1).log ∧
      (proxyRun silentClient 9 1).value = .ok () ∧
      ∃ e ∈ (proxyRun silentClient 9 1).log, e.action = .call (.eventDopoll 17000) :=
  ⟨enforced_of_measured silentClient (fun _ => show 500 < 1000000 by decide) 9 1
    (by decide +kernel), by decide +kernel, by decide +kernel⟩

/-- The client may send nothing for 2147484 seconds. -/
def farDeadline : World :=
  let quiet := World.scripted .echo [] []
  { quiet with config := { quiet.config with idleTimeout := 2147484 } }

/-- A negative time makes `ssh_event_dopoll` wait forever. -/
theorem farDeadline_notEnforced :
    ¬ Enforced farDeadline (proxyRun farDeadline 1 1).log ∧
      ∃ e ∈ (proxyRun farDeadline 1 1).log, e.action = .call (.eventDopoll (-2147483296)) := by
  have waits : ∃ e ∈ (proxyRun farDeadline 1 1).log,
      e.action = .call (.eventDopoll (-2147483296)) := by decide +kernel
  refine ⟨fun enforced => ?_, waits⟩
  obtain ⟨e, mem, wait⟩ := waits
  obtain ⟨s, -, positive, -⟩ := enforced.waits e mem _ wait
  exact absurd positive (by decide)

end Runs

end HaasProxy
