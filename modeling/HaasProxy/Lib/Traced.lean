import Mathlib.Data.List.Basic

/-!
# Programs that leave a log

`Traced ω ε σ α` is the monad of programs over a state `σ` that may stop with an
`ε` and that append entries `ω` to a log.  The state and the log of a stopped
program are kept.

A program is reasoned about from a state, with a postcondition and with
`Terms`: what the log's entries are assumed to say about the environment, what
they are to say about the program, and what holds where the program stops.
`Ensures` combines them.  Its rules follow the combinators: `ensures_bind`,
`ensures_tell`, `ensures_when`, and for iteration `ensures_loop` and
`ensures_each`, each carrying an invariant.

## Main definitions

* `Traced` — the monad, with `get`, `modify`, `tell` and `stop` as its commands and
  `when`, `whenSome`, `each` and `loop` as its control flow;
* `Ensures` — partial correctness with assumptions about the log;
* `Returns` — total correctness: the program returns, with a log, a value and a state.

## Design notes

The log is a result and not a part of the state, so that a program cannot read it.
Whatever a proof says about the log is therefore no hidden input of the program.

An assumption about the environment is one about an entry, and it is available from
the moment the entry is made: `ensures_tell` asks for the guarantee and for the rest of
the program under it.  It is not available before, so a program cannot be shown correct
by something that only turns out later.

`Ensures` says nothing about a run that violates an assumption from there on.  This is
what makes it possible to assume of all entries at once, at the end, what was assumed
of each at its time.
-/

namespace HaasProxy

/-- What a program leaves behind. -/
structure Run (ω ε σ α : Type) where
  log : List ω
  state : σ
  value : Except ε α

/-- Programs with a state, a way to stop and a log. -/
def Traced (ω ε σ α : Type) : Type := σ → Run ω ε σ α

namespace Traced

variable {ω ε σ α β : Type}

instance : Monad (Traced ω ε σ) where
  pure a := fun s => ⟨[], s, .ok a⟩
  bind m k := fun s =>
    match m s with
    | ⟨log, s', .error e⟩ => ⟨log, s', .error e⟩
    | ⟨log, s', .ok a⟩ =>
        match k a s' with
        | ⟨log', s'', value⟩ => ⟨log ++ log', s'', value⟩

/-- The state. -/
def get : Traced ω ε σ σ := fun s => ⟨[], s, .ok s⟩

/-- What `f` makes of the state. -/
def gets (f : σ → α) : Traced ω ε σ α := fun s => ⟨[], s, .ok (f s)⟩

/-- Update the state. -/
def modify (f : σ → σ) : Traced ω ε σ Unit := fun s => ⟨[], f s, .ok ()⟩

/-- Append what `f` makes of the state to the log. -/
def tell (f : σ → ω) : Traced ω ε σ Unit := fun s => ⟨[f s], s, .ok ()⟩

/-- Stop. -/
def stop (e : ε) : Traced ω ε σ α := fun s => ⟨[], s, .error e⟩

/-- Go on with a value, or stop. -/
def ofExcept (x : Except ε α) : Traced ω ε σ α := fun s => ⟨[], s, x⟩

/-- Run a program only if a condition holds. -/
def when (c : Prop) [Decidable c] (m : Traced ω ε σ Unit) : Traced ω ε σ Unit :=
  if c then m else pure ()

/-- Run a program on the object of a pointer, if there is one. -/
def whenSome (o : Option α) (f : α → Traced ω ε σ Unit) : Traced ω ε σ Unit :=
  match o with
  | none => pure ()
  | some a => f a

/-- Run a body on the counter it returns until it answers, at most `fuel`
times. -/
def loop (exhausted : ε) (body : α → Traced ω ε σ (α ⊕ β)) : Nat → α → Traced ω ε σ β
  | 0, _ => stop exhausted
  | fuel + 1, a => do
      match ← body a with
      | .inl a => loop exhausted body fuel a
      | .inr b => pure b

/-- Run a body for each element of a list. -/
def each (xs : List α) (body : α → Traced ω ε σ Unit) : Traced ω ε σ Unit :=
  match xs with
  | [] => pure ()
  | x :: xs => do
      body x
      each xs body

/-! ## Reasoning

`Ensures` for what the program guarantees as long as its environment does, and
`Returns` for programs whose run is known. -/

/-- The terms a program runs under: what is assumed of the log's entries, what
they guarantee, and what holds where the program stops. -/
structure Terms (ω ε σ : Type) where
  assumes : ω → Prop
  guarantees : ω → Prop
  stops : ε → σ → Prop

/-- From `s`, and as long as the log is as assumed, the program guarantees its
log and ends in `Q`, or stops as agreed. -/
def Ensures (t : Terms ω ε σ) (m : Traced ω ε σ α) (s : σ) (Q : α → σ → Prop) : Prop :=
  (∀ w ∈ (m s).log, t.assumes w) →
    (∀ w ∈ (m s).log, t.guarantees w) ∧
      match (m s).value with
      | .ok a => Q a (m s).state
      | .error e => t.stops e (m s).state

section Rules

variable {t : Terms ω ε σ} {m : Traced ω ε σ α} {k : α → Traced ω ε σ β} {s : σ}
  {P : α → σ → Prop} {Q : β → σ → Prop}

/-- Returning logs nothing, so only the promise is left. -/
theorem ensures_pure {a : α} (h : P a s) : Ensures t (pure a) s P := fun _ => ⟨nofun, h⟩

theorem ensures_mono (h : Ensures t m s P) {P' : α → σ → Prop} (post : ∀ a s', P a s' → P' a s') :
    Ensures t m s P' := by
  intro assumed
  obtain ⟨guaranteed, ends⟩ := h assumed
  refine ⟨guaranteed, ?_⟩
  split at ends
  · exact post _ _ ends
  · exact ends

/-- **Sequencing.** -/
theorem ensures_bind (h : Ensures t m s P) (next : ∀ a s', P a s' → Ensures t (k a) s' Q) :
    Ensures t (m >>= k) s Q := by
  rcases hm : m s with ⟨log, s', value⟩
  have bound : (m >>= k) s =
      match m s with
      | ⟨log, s', .error e⟩ => ⟨log, s', .error e⟩
      | ⟨log, s', .ok a⟩ =>
          match k a s' with
          | ⟨log', s'', value⟩ => ⟨log ++ log', s'', value⟩ := rfl
  unfold Ensures at h ⊢
  rw [hm] at h
  rw [bound, hm]
  cases value with
  | error e => exact h
  | ok a =>
      intro assumed
      simp only [List.mem_append] at assumed ⊢
      obtain ⟨guaranteed, ends⟩ := h fun w mem => assumed w (.inl mem)
      obtain ⟨guaranteed', ends'⟩ := next a s' ends fun w mem => assumed w (.inr mem)
      exact ⟨fun w mem => mem.elim (guaranteed w) (guaranteed' w), ends'⟩

theorem ensures_get {P : σ → σ → Prop} (h : P s s) : Ensures t get s P := fun _ => ⟨nofun, h⟩

theorem ensures_gets {f : σ → α} (h : P (f s) s) : Ensures t (gets f) s P := fun _ => ⟨nofun, h⟩

/-- An update, with the promise about the new state. -/
theorem ensures_modify {f : σ → σ} {P : Unit → σ → Prop} (h : P () (f s)) :
    Ensures t (modify f) s P := fun _ => ⟨nofun, h⟩

/-- An entry. What is assumed of it may be used both for what it has to guarantee and
for what is promised. -/
theorem ensures_tell {f : σ → ω} {P : Unit → σ → Prop}
    (h : t.assumes (f s) → t.guarantees (f s) ∧ P () s) : Ensures t (tell f) s P := by
  intro assumed
  obtain ⟨guaranteed, ends⟩ := h (assumed _ (.head _))
  refine ⟨?_, ends⟩
  rintro w (_ | ⟨_, ⟨⟩⟩)
  exact guaranteed

theorem ensures_stop {e : ε} (h : t.stops e s) : Ensures t (stop e) s P := fun _ => ⟨nofun, h⟩

theorem ensures_ofExcept {a : α} {x : Except ε α} (ok : x = .ok a) (h : P a s) :
    Ensures t (ofExcept x) s P := by
  subst ok
  exact fun _ => ⟨nofun, h⟩

theorem ensures_ite {c : Prop} [Decidable c] {m' : Traced ω ε σ α}
    (pos : c → Ensures t m s P) (neg : ¬ c → Ensures t m' s P) :
    Ensures t (if c then m else m') s P := by
  split
  · exact pos ‹c›
  · exact neg ‹¬ c›

/-- A statement under a condition, whose absence must promise the same. -/
theorem ensures_when {c : Prop} [Decidable c] {m : Traced ω ε σ Unit} {P : Unit → σ → Prop}
    (pos : c → Ensures t m s P) (neg : ¬ c → P () s) : Ensures t (when c m) s P :=
  ensures_ite pos fun not => ensures_pure (neg not)

theorem ensures_whenSome {o : Option α} {f : α → Traced ω ε σ Unit} {P : Unit → σ → Prop}
    (null : o = none → P () s) (object : ∀ a, o = some a → Ensures t (f a) s P) :
    Ensures t (whenSome o f) s P := by
  cases o with
  | none => exact ensures_pure (null rfl)
  | some a => exact object a rfl

/-! Reading and updating the state in front of a program. -/

/-- Sequences that begin with one of the commands above are so common that each has a
rule of its own. -/
theorem ensures_pure_bind {a : α} (h : Ensures t (k a) s Q) : Ensures t (pure a >>= k) s Q :=
  ensures_bind (ensures_pure (P := fun a s' => Ensures t (k a) s' Q) h) fun _ _ h => h

theorem ensures_get_bind {k : σ → Traced ω ε σ β} (h : Ensures t (k s) s Q) :
    Ensures t (get >>= k) s Q :=
  ensures_bind (ensures_get (P := fun a s' => Ensures t (k a) s' Q) h) fun _ _ h => h

theorem ensures_gets_bind {f : σ → α} (h : Ensures t (k (f s)) s Q) :
    Ensures t (gets f >>= k) s Q :=
  ensures_bind (ensures_gets (P := fun a s' => Ensures t (k a) s' Q) h) fun _ _ h => h

theorem ensures_modify_bind {f : σ → σ} {k : Unit → Traced ω ε σ β}
    (h : Ensures t (k ()) (f s) Q) : Ensures t (modify f >>= k) s Q :=
  ensures_bind (ensures_modify (P := fun a s' => Ensures t (k a) s' Q) h) fun _ _ h => h

/-- An entry in front of a program, which may use what is assumed of the entry. -/
theorem ensures_tell_bind {f : σ → ω} {k : Unit → Traced ω ε σ β}
    (h : t.assumes (f s) → t.guarantees (f s) ∧ Ensures t (k ()) s Q) :
    Ensures t (tell f >>= k) s Q :=
  ensures_bind (ensures_tell (P := fun a s' => Ensures t (k a) s' Q) h) fun _ _ h => h

/-- A value that is known to be there, in front of a program. -/
theorem ensures_ofExcept_bind {a : α} {x : Except ε α} (ok : x = .ok a)
    (h : Ensures t (k a) s Q) : Ensures t (ofExcept x >>= k) s Q :=
  ensures_bind (ensures_ofExcept (P := fun a s' => Ensures t (k a) s' Q) ok h) fun _ _ h => h

/-- **Iteration until an answer**: the body keeps the invariant, and answers in
the postcondition. -/
theorem ensures_loop {I : α → σ → Prop} {exhausted : ε} {body : α → Traced ω ε σ (α ⊕ β)}
    (step : ∀ a s, I a s → Ensures t (body a) s fun answer s' =>
      match answer with
      | .inl a => I a s'
      | .inr b => Q b s')
    (exhausts : ∀ a s, I a s → t.stops exhausted s) (fuel : Nat) {a : α} (start : I a s) :
    Ensures t (loop exhausted body fuel a) s Q := by
  induction fuel generalizing a s with
  | zero => exact ensures_stop (exhausts a s start)
  | succ fuel ih =>
      refine ensures_bind (step a s start) ?_
      rintro (a | b) s' post
      · exact ih post
      · exact ensures_pure post

/-- **Iteration over a list.** -/
theorem ensures_each {I : σ → Prop} {xs : List α} {body : α → Traced ω ε σ Unit} (start : I s)
    (step : ∀ x ∈ xs, ∀ s, I s → Ensures t (body x) s fun _ => I) :
    Ensures t (each xs body) s fun _ => I := by
  induction xs generalizing s with
  | nil => exact ensures_pure start
  | cons x xs ih =>
      refine ensures_bind (step x (.head _) s start) fun _ s' post => ?_
      exact ih post fun y mem => step y (.tail _ mem)

end Rules

/-! ## Programs that return

The judgement for programs that are known to come to an end, and what is then known of
log, answer and state. The rule for loops asks for a bound on the number of turns. -/

/-- The program returns, with a log, a value and a state in `Q`. -/
def Returns (m : Traced ω ε σ α) (s : σ) (Q : List ω → α → σ → Prop) : Prop :=
  ∃ log s' a, m s = ⟨log, s', .ok a⟩ ∧ Q log a s'

section Returns

variable {m : Traced ω ε σ α} {k : α → Traced ω ε σ β} {s : σ} {P : List ω → α → σ → Prop}
  {Q : List ω → β → σ → Prop}

/-- What a sequence comes to when its first program returns. -/
theorem bind_of_ok {log : List ω} {s' : σ} {a : α} (h : m s = ⟨log, s', .ok a⟩) :
    (m >>= k) s = ⟨log ++ (k a s').log, (k a s').state, (k a s').value⟩ := by
  have bound : (m >>= k) s =
      match m s with
      | ⟨log, s', .error e⟩ => ⟨log, s', .error e⟩
      | ⟨log, s', .ok a⟩ =>
          match k a s' with
          | ⟨log', s'', value⟩ => ⟨log ++ log', s'', value⟩ := rfl
  rw [bound, h]

theorem bind_of_error {log : List ω} {s' : σ} {e : ε} (h : m s = ⟨log, s', .error e⟩) :
    (m >>= k) s = ⟨log, s', .error e⟩ := by
  have bound : (m >>= k) s =
      match m s with
      | ⟨log, s', .error e⟩ => ⟨log, s', .error e⟩
      | ⟨log, s', .ok a⟩ =>
          match k a s' with
          | ⟨log', s'', value⟩ => ⟨log ++ log', s'', value⟩ := rfl
  rw [bound, h]

theorem returns_pure {a : α} (h : P [] a s) : Returns (pure a : Traced ω ε σ α) s P :=
  ⟨[], s, a, rfl, h⟩

theorem returns_mono (h : Returns m s P) {P' : List ω → α → σ → Prop}
    (post : ∀ log a s', P log a s' → P' log a s') : Returns m s P' := by
  obtain ⟨log, s', a, run, holds⟩ := h
  exact ⟨log, s', a, run, post log a s' holds⟩

/-- A sequence whose first program comes to a known end. -/
theorem returns_bind_of_ok {log : List ω} {s' : σ} {a : α} (run : m s = ⟨log, s', .ok a⟩)
    (h : Returns (k a) s' fun log' => Q (log ++ log')) : Returns (m >>= k) s Q := by
  obtain ⟨log', s'', b, run', holds'⟩ := h
  exact ⟨log ++ log', s'', b, by rw [bind_of_ok run, run'], holds'⟩

/-- A sequence whose first program returns; the promise is about both logs together. -/
theorem returns_bind (h : Returns m s P)
    (next : ∀ log a s', P log a s' → Returns (k a) s' fun log' => Q (log ++ log')) :
    Returns (m >>= k) s Q := by
  obtain ⟨log, s', a, run, holds⟩ := h
  exact returns_bind_of_ok run (next log a s' holds)

theorem returns_pure_bind {a : α} (h : Returns (k a) s Q) :
    Returns (pure a >>= k : Traced ω ε σ β) s Q :=
  returns_bind (P := fun log b s' => log = [] ∧ b = a ∧ s' = s) (returns_pure ⟨rfl, rfl, rfl⟩)
    fun _ _ _ post => by
      obtain ⟨rfl, rfl, rfl⟩ := post
      exact h

theorem returns_get_bind {k : σ → Traced ω ε σ β} (h : Returns (k s) s Q) :
    Returns (get >>= k) s Q :=
  returns_bind (P := fun log a s' => log = [] ∧ a = s ∧ s' = s) ⟨[], s, s, rfl, rfl, rfl, rfl⟩
    fun _ _ _ post => by
      obtain ⟨rfl, rfl, rfl⟩ := post
      exact h

theorem returns_gets_bind {f : σ → α} (h : Returns (k (f s)) s Q) : Returns (gets f >>= k) s Q :=
  returns_bind (P := fun log a s' => log = [] ∧ a = f s ∧ s' = s) ⟨[], s, f s, rfl, rfl, rfl, rfl⟩
    fun _ _ _ post => by
      obtain ⟨rfl, rfl, rfl⟩ := post
      exact h

/-- A value that is known to be there, in front of a program. -/
theorem returns_ofExcept_bind {a : α} {x : Except ε α} (ok : x = .ok a)
    (h : Returns (k a) s Q) : Returns (ofExcept x >>= k) s Q := by
  subst ok
  exact returns_bind (P := fun log b s' => log = [] ∧ b = a ∧ s' = s) ⟨[], s, a, rfl, rfl, rfl, rfl⟩
    fun _ _ _ post => by
      obtain ⟨rfl, rfl, rfl⟩ := post
      exact h

theorem returns_when {c : Prop} [Decidable c] {m : Traced ω ε σ Unit} {P : List ω → Unit → σ → Prop}
    (pos : c → Returns m s P) (neg : ¬ c → P [] () s) : Returns (when c m) s P := by
  unfold when
  split
  · exact pos ‹c›
  · exact returns_pure (neg ‹¬ c›)

/-- **A loop over the numbers below `n`**: what holds after the first `i` of them. -/
theorem returns_each_range {body : Nat → Traced ω ε σ Unit} {I : Nat → List ω → σ → Prop} {n : Nat}
    (step : ∀ i < n, ∀ h s, I i h s → Returns (body i) s fun l _ s' => I (i + 1) (h ++ l) s')
    (start : I 0 [] s) : Returns (each (List.range n) body) s fun l _ s' => I n l s' := by
  have rest (k i : Nat) (h : List ω) (s : σ) (sum : i + k = n) (here : I i h s) :
      Returns (each (List.range' i k) body) s fun l _ s' => I n (h ++ l) s' := by
    induction k generalizing i h s with
    | zero =>
        refine returns_pure ?_
        rw [List.append_nil]
        exact sum ▸ here
    | succ k ih =>
        refine returns_bind (step i (by omega) h s here) fun l _ s' next => ?_
        refine returns_mono (ih (i + 1) (h ++ l) s' (by omega) next) fun l' _ s'' last => ?_
        rwa [← List.append_assoc]
  rw [List.range_eq_range']
  exact rest n 0 [] s (Nat.zero_add n) start

/-- **A loop that ends**: each iteration keeps the invariant and makes the measure smaller, or
is the last one. -/
theorem returns_loop {exhausted : ε} {body : α → Traced ω ε σ (α ⊕ β)} {μ : Type}
    {r : μ → μ → Prop} (wf : WellFounded r) (measure : σ → μ) {I : List ω → α → σ → Prop}
    (step : ∀ h a s, I h a s → Returns (body a) s fun l next s' =>
      match next with
      | .inl a' => I (h ++ l) a' s' ∧ r (measure s') (measure s)
      | .inr b => Q (h ++ l) b s')
    (h : List ω) (a : α) (s : σ) (start : I h a s) :
    ∃ n, ∀ fuel ≥ n, Returns (loop exhausted body fuel a) s fun l => Q (h ++ l) := by
  induction eq : measure s using wf.induction generalizing h a s with
  | _ m ih =>
      obtain ⟨l, s', next, run, post⟩ := step h a s start
      cases next with
      | inl a' =>
          obtain ⟨keeps, less⟩ := post
          obtain ⟨n, returns⟩ := ih _ (eq ▸ less) (h ++ l) a' s' keeps rfl
          refine ⟨n + 1, fun fuel enough => ?_⟩
          obtain ⟨fuel, rfl⟩ := Nat.exists_eq_succ_of_ne_zero (Nat.ne_zero_of_lt enough)
          refine returns_bind_of_ok run ?_
          refine returns_mono (returns fuel (by omega)) fun l' b s'' last => ?_
          rwa [← List.append_assoc]
      | inr b =>
          refine ⟨1, fun fuel enough => ?_⟩
          obtain ⟨fuel, rfl⟩ := Nat.exists_eq_succ_of_ne_zero (Nat.ne_zero_of_lt enough)
          refine returns_bind_of_ok run (returns_pure ?_)
          rwa [List.append_nil]

end Returns

end Traced

end HaasProxy
