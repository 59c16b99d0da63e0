import Mathlib.Data.List.Basic

/-!
# Machines and their runs

A machine is an initial state and a partial step function over labelled actions;
an action that is not enabled has no successor.  A run is a list of actions, and
everything about it is computed: `run` is the state it ends in, `transitions`
the steps it takes on the way.

## Main results

Invariants are proved once per step and transported by these rules:

* `inv_of_run` — for the states a run reaches;
* `inv_of_mem_transitions` — for what is said about each of its steps;
* `inv_of_run_history` — for an invariant that speaks of the steps taken so far;
* `countP_le_of_runFrom` — for a bound on how often something happens.

## Design notes

The step function is partial and not a relation, so a run is determined by its
actions and a concrete one is evaluated by `decide`.  Whatever the environment may
choose is part of an action: which process goes on, what a system call answers, when
a signal comes.  Quantifying over the list of actions is quantifying over all of
that at once.

The potential rule counts steps that cost against steps that are credited.  With
nothing to credit it is a bound on the length of runs.
-/

namespace HaasProxy

universe u v

/-- A labelled transition system with a partial step function. -/
structure Machine (σ : Type u) (α : Type v) where
  init : σ
  step : σ → α → Option σ

namespace Machine

variable {σ : Type u} {α : Type v} (m : Machine σ α)

/-- The state a run ends in, if every action is enabled in turn. -/
def runFrom : σ → List α → Option σ
  | s, [] => some s
  | s, a :: as => (m.step s a).bind fun s' => runFrom s' as

def run (as : List α) : Option σ := m.runFrom m.init as

/-- The steps of a run, each with the state before it and the state after it. -/
def transitionsFrom : σ → List α → List (σ × α × σ)
  | _, [] => []
  | s, a :: as =>
      match m.step s a with
      | none => []
      | some s' => (s, a, s') :: transitionsFrom s' as

def transitions (as : List α) : List (σ × α × σ) := m.transitionsFrom m.init as

@[simp] theorem runFrom_nil (s : σ) : m.runFrom s [] = some s := rfl

/-- The first action is taken, and the others follow. -/
theorem runFrom_cons (s : σ) (a : α) (as : List α) :
    m.runFrom s (a :: as) = (m.step s a).bind fun s' => m.runFrom s' as := rfl

/-- Runs compose. -/
theorem runFrom_append (s : σ) (as bs : List α) :
    m.runFrom s (as ++ bs) = (m.runFrom s as).bind fun s' => m.runFrom s' bs := by
  induction as generalizing s with
  | nil => rfl
  | cons a as ih =>
      rw [List.cons_append, runFrom_cons, runFrom_cons]
      cases m.step s a with
      | none => rfl
      | some s' => exact ih s'

section Invariant

variable {m} {P : σ → Prop}

/-- An invariant of the step is one of runs, by induction on the actions. -/
theorem inv_of_runFrom (step : ∀ s a s', P s → m.step s a = some s' → P s') :
    ∀ {as : List α} {s s' : σ}, P s → m.runFrom s as = some s' → P s' := by
  intro as
  induction as with
  | nil =>
      intro s s' hs h
      exact Option.some.inj h ▸ hs
  | cons a as ih =>
      intro s s' hs h
      rw [runFrom_cons, Option.bind_eq_some_iff] at h
      obtain ⟨t, ht, h⟩ := h
      exact ih (step s a t hs ht) h

/-- **The invariant rule**: what holds initially and is preserved by every step
holds wherever a run ends. -/
theorem inv_of_run (init : P m.init) (step : ∀ s a s', P s → m.step s a = some s' → P s')
    {as : List α} {s : σ} (h : m.run as = some s) : P s :=
  inv_of_runFrom step init h

/-- It holds in front of every step of a run, which is a step of the machine. -/
theorem inv_of_mem_transitionsFrom (step : ∀ s a s', P s → m.step s a = some s' → P s') :
    ∀ {as : List α} {s : σ}, P s → ∀ t ∈ m.transitionsFrom s as,
      P t.1 ∧ m.step t.1 t.2.1 = some t.2.2 := by
  intro as
  induction as with
  | nil => intro s _ t ht; cases ht
  | cons a as ih =>
      intro s hs t ht
      rw [transitionsFrom] at ht
      cases hstep : m.step s a with
      | none => simp [hstep] at ht
      | some s' =>
          simp only [hstep, List.mem_cons] at ht
          rcases ht with rfl | ht
          · exact ⟨hs, hstep⟩
          · exact ih (step s a s' hs hstep) t ht

/-- The invariant rule at the steps of a run: each starts in the invariant and
is a step of the machine. -/
theorem inv_of_mem_transitions (init : P m.init)
    (step : ∀ s a s', P s → m.step s a = some s' → P s') {as : List α}
    {t : σ × α × σ} (h : t ∈ m.transitions as) : P t.1 ∧ m.step t.1 t.2.1 = some t.2.2 :=
  inv_of_mem_transitionsFrom step init t h

/-- The invariant rule with the history of the run: `P` may speak of the steps that
were taken on the way to a state. -/
theorem inv_of_run_history {P : List (σ × α × σ) → σ → Prop} (init : P [] m.init)
    (step : ∀ ts s a s', P ts s → m.step s a = some s' → P (ts ++ [(s, a, s')]) s')
    {as : List α} {s : σ} (h : m.run as = some s) : P (m.transitions as) s := by
  have history : ∀ (as : List α) (ts : List (σ × α × σ)) (s s' : σ), P ts s →
      m.runFrom s as = some s' → P (ts ++ m.transitionsFrom s as) s' := by
    intro as
    induction as with
    | nil =>
        intro ts s s' hs h
        obtain rfl : s = s' := Option.some.inj h
        rw [transitionsFrom, List.append_nil]
        exact hs
    | cons a as ih =>
        intro ts s s' hs h
        rw [runFrom_cons, Option.bind_eq_some_iff] at h
        obtain ⟨t, ht, h⟩ := h
        have next := ih (ts ++ [(s, a, t)]) t s' (step ts s a t hs ht) h
        rw [List.append_assoc, List.singleton_append] at next
        simp only [transitionsFrom, ht]
        exact next
  exact history as [] m.init s init h

/-- **The potential rule**: a step that costs is paid for by the potential, and one that is
credited may raise it.  So many steps of a run cost, at most. -/
theorem countP_le_of_runFrom (cost credit : σ × α × σ → Bool) (potential : σ → Nat) (k : Nat)
    (step : ∀ s a s', P s → m.step s a = some s' → P s' ∧
      (cost (s, a, s')).toNat + potential s' ≤ potential s + k * (credit (s, a, s')).toNat) :
    ∀ {as : List α} {s s' : σ}, P s → m.runFrom s as = some s' →
      (m.transitionsFrom s as).countP cost + potential s' ≤
        potential s + k * (m.transitionsFrom s as).countP credit := by
  intro as
  induction as with
  | nil =>
      intro s s' _ h
      obtain rfl : s = s' := Option.some.inj h
      simp [transitionsFrom]
  | cons a as ih =>
      intro s s' hs h
      rw [runFrom_cons, Option.bind_eq_some_iff] at h
      obtain ⟨t, ht, h⟩ := h
      obtain ⟨kept, paid⟩ := step s a t hs ht
      have rest := ih kept h
      have head (p : σ × α × σ → Bool) : (m.transitionsFrom s (a :: as)).countP p =
          (m.transitionsFrom t as).countP p + (p (s, a, t)).toNat := by
        simp only [transitionsFrom, ht, List.countP_cons]
        cases p (s, a, t) <;> rfl
      rw [head cost, head credit, Nat.mul_add]
      omega

/-- What is paid for by the potential alone. -/
theorem countP_le_potential (cost : σ × α × σ → Bool) (potential : σ → Nat)
    (step : ∀ s a s', P s → m.step s a = some s' → P s' ∧
      (cost (s, a, s')).toNat + potential s' ≤ potential s)
    {as : List α} {s s' : σ} (hs : P s) (h : m.runFrom s as = some s') :
    (m.transitionsFrom s as).countP cost ≤ potential s := by
  have paid := countP_le_of_runFrom cost cost potential 0
    (fun s a s' hs h => by simpa using step s a s' hs h) hs h
  omega

end Invariant

end Machine

end HaasProxy
