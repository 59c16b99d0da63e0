import HaasProxy.Transitions.Inversion

/-!
# Where the loops stop

Both loops of `ProxyProcess` make some tests and compute a time before they wait
for events.  `LoginStops` and `TimeUp` say when these end the loop, in terms of
the readings that are taken from there on; where a loop does wait, they were
false.

## Design notes

The readings are numbered.  So a test that a loop is about to make can be looked up in the
world before it is made, and a condition on a run can be stated where control returns to
the loop.  The conditions of `Lockout.lean` and `ClosedSession.lean` are of this kind.

`enterLogin` is the state in which the first loop is entered, computed from where the key
exchange returned: three readings and two timers later.
-/

namespace HaasProxy

/-- One of the deadlines is over when `IdleTimerGet` and `TimerGet` are called
next. -/
def TimeUp (w : World) (s : Proxy) : Prop :=
  timerLeft s.context.idleTimer (w.clock s.tick) = 0 ∨
    0 < w.config.sessionTimeout ∧ timerLeft s.context.sessionTimer (w.clock (s.tick + 1)) = 0

/-- One of the tests in front of `ssh_event_dopoll` stops the first loop. -/
def LoginStops (w : World) (s : Proxy) : Prop :=
  w.shouldStop s.tick = true ∨
    0 < w.config.cpuUsage ∧
      (w.usage (s.tick + 1)).elim false (fun sec => sec ≤ w.config.cpuUsage) = false ∨
    TimeUp w { s with tick := s.tick + 1 + if 0 < w.config.cpuUsage then 1 else 0 }

instance (w : World) (s : Proxy) : Decidable (TimeUp w s) := inferInstanceAs (Decidable (_ ∨ _))

instance (w : World) (s : Proxy) : Decidable (LoginStops w s) :=
  inferInstanceAs (Decidable (_ ∨ _))

/-- The state in which the first loop is entered after the key exchange. -/
def Proxy.enterLogin (w : World) (s : Proxy) : Proxy :=
  { s.tock with
    stage := .login
    tick := s.tick + 1 + w.readings
    context := { s.context with
      idleTimer := (w.clock (s.tick + 1)).later w.config.idleTimeout
      sessionTimer :=
        if 0 < w.config.sessionTimeout then (w.clock (s.tick + 2)).later w.config.sessionTimeout
        else s.context.sessionTimer } }

/-- A loop waits. -/
def Interaction.waits : Interaction → Bool
  | call (.eventDopoll _) => true
  | _ => false

section Stops

variable {w : World} {serial : Prop} {h l l₁ l₂ : List Entry} {s s' : Proxy} {e : Entry}

/-- When the time is up there is nothing left to wait. -/
theorem timeLeft_of_timeUp (up : TimeUp w s) : timeLeft w s = none := by
  unfold timeLeft
  rcases up with idle | ⟨limited, session⟩
  · exact if_pos idle
  · by_cases idle : timerLeft s.context.idleTimer (w.clock s.tick) = 0
    · exact if_pos idle
    · simp only [if_neg idle, if_pos limited, if_pos session]

/-- The loop for the login goes on only if nothing has stopped it. -/
theorem not_loginStops {top : Proxy} {time : Int} (goesOn : w.shouldStop top.tick = false)
    (usage : 0 < w.config.cpuUsage → w.UsageOk (top.tick + 1))
    (eq : s = { top with tick := top.tick + 1 + if 0 < w.config.cpuUsage then 1 else 0 })
    (left : timeLeft w s = some time) : ¬ LoginStops w top := by
  rintro (stop | ⟨limited, exceeded⟩ | up)
  · exact Bool.false_ne_true (goesOn.symm.trans stop)
  · exact Bool.false_ne_true (exceeded.symm.trans (usage limited))
  · rw [eq, timeLeft_of_timeUp up] at left
    cases left

/-- **A loop waits** in a step of its own. -/
theorem waits_of_advance (advance : Advance w serial h s l s') (split : l = l₁ ++ e :: l₂)
    (waits : e.action.waits = true) :
    l₁ = [] ∧ ∃ time, Waits w h s time ∧ e.before = s.tock := by
  obtain ⟨time, wait⟩ : ∃ time, e.action = .call (.eventDopoll time) := by
    unfold Interaction.waits at waits
    split at waits
    · exact ⟨_, ‹_›⟩
    · cases waits
  have mem : e ∈ l := split ▸ List.mem_append_right l₁ List.mem_cons_self
  have warranted := warranted advance e mem
  simp only [Warranted, wait] at warranted
  refine ⟨?_, time, warranted⟩
  cases advance with
  | change change => exact absurd ⟨time, .inl wait⟩ (not_aboutWait_of_change change e mem)
  | wait | woken | event =>
      cases l₁ with
      | nil => rfl
      | cons a l₁ => simp at split
  | bye _ _ session i j => simp [byeLog] at mem; rcases mem with rfl | rfl <;> cases wait
  | _ => cases mem

end Stops

end HaasProxy
