import HaasProxy.Lib.Traced

/-!
# Programs with enough fuel

A program that iterates is run with a bound on the number of iterations.  `Settles`
says that the bound does not matter once it is large enough: the run is always the same
one, and it has not been cut short.

The rules follow the combinators.  That a loop settles is shown with a well-founded
measure of the counter and the state, which every iteration makes smaller; iterations
may have loops of their own that use the same bound.

## Design notes

The bound is existential and depends on the state that the program starts from.
Nothing better can be asked where the environment decides how often a loop goes
round.  What is asked is that the bound be one for the whole program: a sequence of
loops, and a loop in a loop, use the same fuel, and `settles_bind` and
`settles_loop` take the largest of the bounds of their parts.

That the run is one and the same for all larger bounds is more than termination.
It says that the fuel is no part of the behaviour, so that a theorem about all
values of it is a theorem about the program without it.
-/

namespace HaasProxy

namespace Traced

variable {ω ε σ α β : Type} {exhausted : ε}

/-- **With enough fuel there is one run**, which is not cut short, and which ends in `Q` if
it returns. -/
def Settles (exhausted : ε) (m : Nat → Traced ω ε σ α) (s : σ) (Q : α → σ → Prop) : Prop :=
  ∃ n r, (∀ fuel ≥ n, m fuel s = r) ∧ r.value ≠ .error exhausted ∧
    ∀ a, r.value = .ok a → Q a r.state

section Rules

variable {m : Nat → Traced ω ε σ α} {k : Nat → α → Traced ω ε σ β} {s : σ} {P : α → σ → Prop}
  {Q : β → σ → Prop}

/-- A program without loops. -/
theorem settles_const {m : Traced ω ε σ α} (ends : (m s).value ≠ .error exhausted)
    (post : ∀ a, (m s).value = .ok a → P a (m s).state) : Settles exhausted (fun _ => m) s P :=
  ⟨0, m s, fun _ _ => rfl, ends, post⟩

theorem settles_pure {a : α} (post : P a s) :
    Settles exhausted (fun _ => (pure a : Traced ω ε σ α)) s P := by
  refine settles_const nofun ?_
  rintro _ ⟨⟩
  exact post

theorem settles_mono (settles : Settles exhausted m s P) {P' : α → σ → Prop}
    (post : ∀ a s', P a s' → P' a s') : Settles exhausted m s P' := by
  obtain ⟨n, r, run, ends, holds⟩ := settles
  exact ⟨n, r, run, ends, fun a ok => post a r.state (holds a ok)⟩

/-- **Sequencing**: the larger one of two bounds is enough. -/
theorem settles_bind (first : Settles exhausted m s P)
    (next : ∀ a s', P a s' → Settles exhausted (fun fuel => k fuel a) s' Q) :
    Settles exhausted (fun fuel => m fuel >>= k fuel) s Q := by
  obtain ⟨n, ⟨log, s', value⟩, run, ends, holds⟩ := first
  cases value with
  | error e => exact ⟨n, ⟨log, s', .error e⟩, fun fuel enough => bind_of_error (run fuel enough),
      fun same => ends (by injection same with same; rw [same]), nofun⟩
  | ok a =>
      obtain ⟨n', r, run', ends', holds'⟩ := next a s' (holds a rfl)
      refine ⟨max n n', ⟨log ++ r.log, r.state, r.value⟩, ?_, ends', holds'⟩
      intro fuel enough
      have rest : k fuel a s' = r := run' fuel (Nat.le_trans (Nat.le_max_right n n') enough)
      refine (bind_of_ok (run fuel (Nat.le_trans (Nat.le_max_left n n') enough))).trans ?_
      rw [rest]

theorem settles_ite {c : Prop} [Decidable c] {m' : Nat → Traced ω ε σ α}
    (pos : c → Settles exhausted m s P) (neg : ¬ c → Settles exhausted m' s P) :
    Settles exhausted (fun fuel => if c then m fuel else m' fuel) s P := by
  by_cases h : c
  · simpa only [if_pos h] using pos h
  · simpa only [if_neg h] using neg h

theorem settles_when {c : Prop} [Decidable c] {m : Nat → Traced ω ε σ Unit}
    {P : Unit → σ → Prop} (pos : c → Settles exhausted m s P) (neg : ¬ c → P () s) :
    Settles exhausted (fun fuel => when c (m fuel)) s P :=
  settles_ite pos fun not => settles_pure (neg not)

/-- The state in front of a program. -/
theorem settles_get_bind {k : Nat → σ → Traced ω ε σ β}
    (next : Settles exhausted (fun fuel => k fuel s) s Q) :
    Settles exhausted (fun fuel => get >>= k fuel) s Q := by
  have read : Settles exhausted (fun _ => (get : Traced ω ε σ σ)) s fun a s' => a = s ∧ s' = s := by
    refine settles_const nofun ?_
    rintro _ ⟨⟩
    exact ⟨rfl, rfl⟩
  refine settles_bind read ?_
  rintro _ _ ⟨rfl, rfl⟩
  exact next

/-- **Iteration**: every iteration settles, and keeps the invariant and makes the measure
smaller unless it is the last one. -/
theorem settles_loop {body : Nat → α → Traced ω ε σ (α ⊕ β)} {μ : Type} {r : μ → μ → Prop}
    (wf : WellFounded r) (measure : α → σ → μ) {I : α → σ → Prop}
    (step : ∀ a s, I a s → Settles exhausted (fun fuel => body fuel a) s fun next s' =>
      match next with
      | .inl a' => I a' s' ∧ r (measure a' s') (measure a s)
      | .inr b => Q b s')
    (a : α) (s : σ) (start : I a s) :
    Settles exhausted (fun fuel => loop exhausted (body fuel) fuel a) s Q := by
  -- The loop counts down one bound while the body keeps the other.
  suffices two : ∃ n r, (∀ fuel ≥ n, ∀ count ≥ n, loop exhausted (body fuel) count a s = r) ∧
      r.value ≠ .error exhausted ∧ ∀ b, r.value = .ok b → Q b r.state by
    obtain ⟨n, r, run, rest⟩ := two
    exact ⟨n, r, fun fuel enough => run fuel enough fuel enough, rest⟩
  induction eq : measure a s using wf.induction generalizing a s with
  | _ x ih =>
      obtain ⟨n, ⟨log, s', value⟩, run, ends, holds⟩ := step a s start
      have positive {count b : Nat} (more : count ≥ b + 1) : ∃ rest ≥ b, count = rest + 1 := by
        obtain ⟨rest, rfl⟩ := Nat.exists_eq_succ_of_ne_zero (Nat.ne_zero_of_lt more)
        exact ⟨rest, by omega, rfl⟩
      rcases value with e | (a' | b)
      · refine ⟨n + 1, ⟨log, s', .error e⟩, ?_,
          fun same => ends (by injection same with same; rw [same]), nofun⟩
        intro fuel enough count more
        obtain ⟨count, -, rfl⟩ := positive more
        exact bind_of_error (run fuel (by omega))
      · -- One iteration, and then the rest of the loop from there.
        obtain ⟨keeps, less⟩ := holds (.inl a') rfl
        obtain ⟨n', r', run', ends', holds'⟩ := ih _ (eq ▸ less) a' s' keeps rfl
        refine ⟨max n n' + 1, ⟨log ++ r'.log, r'.state, r'.value⟩, ?_, ends', holds'⟩
        intro fuel enough count more
        obtain ⟨count, most, rfl⟩ := positive more
        refine (bind_of_ok (run fuel (by omega))).trans ?_
        have rest := run' fuel (by omega) count (by omega)
        simp only [rest]
      · refine ⟨n + 1, ⟨log, s', .ok b⟩, ?_, nofun, ?_⟩
        · intro fuel enough count more
          obtain ⟨count, -, rfl⟩ := positive more
          refine (bind_of_ok (run fuel (by omega))).trans ?_
          show (⟨log ++ [], s', .ok b⟩ : Run ω ε σ β) = _
          rw [List.append_nil]
        · rintro _ ⟨⟩
          exact holds (.inr b) rfl

end Rules

end Traced

end HaasProxy
