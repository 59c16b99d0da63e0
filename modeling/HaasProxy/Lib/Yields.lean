import HaasProxy.Lib.Traced

/-!
# What a program has done when it returns

`Yields m s Q` says that `Q` holds of the log, the value and the state of `m` if it
returns from `s`; of a run that stops it says nothing.  Unlike in `Ensures`, the
postcondition is about the log as a whole, and those of parts are about their own
part of it.

This is the form for statements that balance something over a whole run, such as that
as many objects were given back as the log says.  They need not hold in the middle of a
function, only where it returns; and a run that faults is one of which nothing of the
kind is claimed, so that a fault need not be shown to be impossible first.
-/

namespace HaasProxy

namespace Traced

variable {ω ε σ α β : Type}

/-- If the program returns, then with a log, a value and a state in `Q`. -/
def Yields (m : Traced ω ε σ α) (s : σ) (Q : List ω → α → σ → Prop) : Prop :=
  ∀ log s' a, m s = ⟨log, s', .ok a⟩ → Q log a s'

section Yields

variable {m : Traced ω ε σ α} {k : α → Traced ω ε σ β} {s : σ} {P P' : List ω → α → σ → Prop}
  {Q : List ω → β → σ → Prop}

theorem yields_mono (h : Yields m s P) (post : ∀ log a s', P log a s' → P' log a s') :
    Yields m s P' := fun log s' a run => post log a s' (h log s' a run)

/-- The run is known. -/
theorem yields_of_run {log : List ω} {s' : σ} {a : α} (run : m s = ⟨log, s', .ok a⟩)
    (h : P log a s') : Yields m s P := by
  intro _ _ _ same
  cases run.symm.trans same
  exact h

/-- The program stops. -/
theorem yields_of_error {log : List ω} {s' : σ} {e : ε} (run : m s = ⟨log, s', .error e⟩) :
    Yields m s P := by
  intro _ _ _ same
  cases run.symm.trans same

theorem yields_pure {a : α} (h : P [] a s) : Yields (pure a : Traced ω ε σ α) s P :=
  yields_of_run rfl h

/-- **Sequencing.** -/
theorem yields_bind (first : Yields m s P)
    (next : ∀ log a s', P log a s' → Yields (k a) s' fun log' => Q (log ++ log')) :
    Yields (m >>= k) s Q := by
  rcases run : m s with ⟨log, s', e | a⟩
  · exact yields_of_error (bind_of_error run)
  · intro log' s'' b run'
    rw [bind_of_ok run] at run'
    injection run' with logs state value
    subst logs
    exact next log a s' (first log s' a run) _ s'' b (by rw [← state, ← value])

/-- A program that returns in front of another one. -/
theorem yields_bind_of_ok {log : List ω} {s' : σ} {a : α} (run : m s = ⟨log, s', .ok a⟩)
    (next : Yields (k a) s' fun log' => Q (log ++ log')) : Yields (m >>= k) s Q := by
  refine yields_bind (P := fun log' b s'' => log' = log ∧ b = a ∧ s'' = s')
    (yields_of_run run ⟨rfl, rfl, rfl⟩) ?_
  rintro _ _ _ ⟨rfl, rfl, rfl⟩
  exact next

theorem yields_tell_bind {e : σ → ω} {k : Unit → Traced ω ε σ β}
    (next : Yields (k ()) s fun log => Q (e s :: log)) : Yields (tell e >>= k) s Q :=
  yields_bind_of_ok rfl next

theorem yields_get_bind {k : σ → Traced ω ε σ β} (next : Yields (k s) s Q) :
    Yields (get >>= k) s Q := yields_bind_of_ok rfl next

theorem yields_ite {c : Prop} [Decidable c] {m' : Traced ω ε σ α} (pos : c → Yields m s P)
    (neg : ¬ c → Yields m' s P) : Yields (if c then m else m') s P := by
  split
  · exact pos ‹c›
  · exact neg ‹¬ c›

theorem yields_when {c : Prop} [Decidable c] {m : Traced ω ε σ Unit} {P : List ω → Unit → σ → Prop}
    (pos : c → Yields m s P) (neg : ¬ c → P [] () s) : Yields (when c m) s P :=
  yields_ite pos fun not => yields_pure (neg not)

/-- **Iteration until an answer**: what holds of all that was logged so far. -/
theorem yields_loop {exhausted : ε} {body : α → Traced ω ε σ (α ⊕ β)} {I : List ω → α → σ → Prop}
    (step : ∀ h a s, I h a s → Yields (body a) s fun l next s' =>
      match next with
      | .inl a' => I (h ++ l) a' s'
      | .inr b => Q (h ++ l) b s') (fuel : Nat) {h : List ω} {a : α} (start : I h a s) :
    Yields (loop exhausted body fuel a) s fun l => Q (h ++ l) := by
  induction fuel generalizing h a s with
  | zero => exact yields_of_error rfl
  | succ fuel ih =>
      refine yields_bind (step h a s start) ?_
      rintro l (a' | b) s' post
      · refine yields_mono (ih post) fun l' b s'' last => ?_
        rwa [List.append_assoc] at last
      · refine yields_pure ?_
        rwa [List.append_nil]

end Yields

end Traced

end HaasProxy
