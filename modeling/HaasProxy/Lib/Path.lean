import HaasProxy.Lib.Traced

/-!
# Programs as paths

`Steps` say what may happen after a history in a state: some entries are logged,
and the state becomes another one.  A step may be a single update, or a stretch
of a program in which an invariant does not hold for a while.  A `Path` is steps
one after another, and a program that `Follows` the steps takes no others,
wherever it stops.

What is to hold of all runs of a program is then a matter of the steps alone:
`Path.inv` carries an invariant of history and state along, `Path.inv_entries`
says what holds of every entry after its history, and `Path.ordered` compares any
two states of a run.  `Path.restrict` is for runs of which something is assumed.

## Main definitions

* `Path` — steps one after another, with the log they leave;
* `Follows` — a program, from one history and one state, with what it promises
  where it returns;
* `Walks` — the same from everywhere, with no promise;
* `Amid`, `Trails` — a program that begins or ends within a step.

## Design notes

The history is part of a step, so a step may depend on everything that was logged
before it.  This is what makes a precondition such as "the backend has accepted this
password" expressible without a ghost variable in the state: it is an entry of the
history.

A path is followed wherever the program stops.  A fault in the middle of a function
ends the path there, and all that was proved of the steps so far holds of the run.
So `Follows` promises nothing about values of a program that stops, and everything
about its log.

`restrict` is the rule that conditions on a run come in through.  A condition on
all entries of the run is one on the entries of each step, and it is handed to the
proof of the step as a hypothesis; the induction over the run never sees it.
-/

namespace HaasProxy

/-- What may be logged, and what the state may become, after a history in a
state. -/
abbrev Steps (ω σ : Type) := List ω → σ → List ω → σ → Prop

/-- Every entry is as it should be after those before it. -/
def Throughout {ω : Type} (P : List ω → ω → Prop) (h : List ω) : Prop :=
  ∀ l₁ w l₂, h = l₁ ++ w :: l₂ → P l₁ w

/-- There is no entry in an empty history that could be amiss. -/
theorem throughout_nil {ω : Type} {P : List ω → ω → Prop} : Throughout P [] := by
  intro l₁ w l₂ split
  cases l₁ <;> cases split

/-- A history continued: its entries are as they should be, and so are the new ones
after it. -/
theorem throughout_append {ω : Type} {P : List ω → ω → Prop} {h l : List ω}
    (first : Throughout P h) (next : Throughout (fun l₁ => P (h ++ l₁)) l) :
    Throughout P (h ++ l) := by
  intro l₁ w l₂ split
  rcases List.append_eq_append_iff.mp split with ⟨middle, rfl, eq⟩ | ⟨middle, eq, eq'⟩
  · exact next middle w l₂ eq
  · cases middle with
    | nil =>
        -- the entry is the first of what follows
        have here : P (h ++ []) w := next [] w l₂ eq'.symm
        rwa [List.append_nil, eq, List.append_nil] at here
    | cons x middle =>
        obtain ⟨rfl, rfl⟩ := List.cons.inj eq'
        exact first l₁ w middle eq

/-- An earlier history has no other entries than the later one. -/
theorem throughout_of_append {ω : Type} {P : List ω → ω → Prop} {h l : List ω}
    (all : Throughout P (h ++ l)) : Throughout P h := by
  intro l₁ w l₂ split
  apply all l₁ w (l₂ ++ l)
  rw [split, List.append_assoc, List.cons_append]

instance {ω : Type} {P : List ω → ω → Prop} [∀ l w, Decidable (P l w)] (h : List ω) :
    Decidable (Throughout P h) :=
  decidable_of_iff (∀ i : Fin h.length, P (h.take i) (h.get i)) <| by
    constructor
    · intro each l₁ w l₂ split
      have here := each ⟨l₁.length, by simp [split]⟩
      simpa [split] using here
    · intro all i
      apply all _ _ (h.drop (i + 1))
      rw [List.get_eq_getElem, List.getElem_cons_drop, List.take_append_drop]

/-- Steps one after another, from a history and a state, with what they log. -/
inductive Path {ω σ : Type} (step : Steps ω σ) : List ω → σ → List ω → σ → Prop
  | refl (h : List ω) (s : σ) : Path step h s [] s
  | step {h l l' : List ω} {s s' s'' : σ} (first : step h s l s')
      (rest : Path step (h ++ l) s' l' s'') : Path step h s (l ++ l') s''

namespace Path

variable {ω σ : Type} {step : Steps ω σ} {h l l' : List ω} {s s' s'' : σ}

/-- Two paths make one. The induction is on the first, whose steps come in front. -/
theorem append (p : Path step h s l s') (q : Path step (h ++ l) s' l' s'') :
    Path step h s (l ++ l') s'' := by
  induction p with
  | refl h s => rwa [List.append_nil] at q
  | step first rest ih =>
      rw [List.append_assoc]
      refine .step first (ih ?_)
      rwa [List.append_assoc]

theorem of_step (first : step h s l s') : Path step h s l s' := by
  have path := Path.step first (.refl (h ++ l) s')
  rwa [List.append_nil] at path

/-- A last step that logs nothing. -/
theorem quiet (p : Path step h s l s') (last : step (h ++ l) s' [] s'') : Path step h s l s'' := by
  have path := p.append (.of_step last)
  rwa [List.append_nil] at path

/-- Steps that allow more. -/
theorem mono {step' : Steps ω σ} (p : Path step h s l s')
    (weaken : ∀ h s l s', step h s l s' → step' h s l s') : Path step' h s l s' := by
  induction p with
  | refl h s => exact .refl h s
  | step first _ ih => exact .step (weaken _ _ _ _ first) ih

/-- What is known of the history at the end, and of every earlier one with it, is known at
each step. -/
theorem restrict_history {A : List ω → Prop} (p : Path step h s l s')
    (earlier : ∀ h l, A (h ++ l) → A h) (known : A (h ++ l)) :
    Path (fun h s l s' => step h s l s' ∧ A (h ++ l)) h s l s' := by
  induction p with
  | refl h s => exact .refl h s
  | step first rest ih =>
      rw [← List.append_assoc] at known
      exact .step ⟨first, earlier _ _ known⟩ (ih known)

/-- What is known of the entries of a path is known of those of its steps. -/
theorem restrict {A : ω → Prop} (p : Path step h s l s') (known : ∀ w ∈ h ++ l, A w) :
    Path (fun h s l s' => step h s l s' ∧ ∀ w ∈ h ++ l, A w) h s l s' := by
  refine p.restrict_history (A := fun h => ∀ w ∈ h, A w) ?_ known
  intro h l all w mem
  exact all w (List.mem_append_left l mem)

variable {I : List ω → σ → Prop}

/-- **What every step keeps, a path keeps.** -/
theorem inv (p : Path step h s l s') (keeps : ∀ h s l s', I h s → step h s l s' → I (h ++ l) s')
    (start : I h s) : I (h ++ l) s' := by
  induction p with
  | refl h s => rwa [List.append_nil]
  | step first rest ih =>
      have kept := ih (keeps _ _ _ _ start first)
      rwa [List.append_assoc] at kept

/-- **What every step keeps, a path keeps, and every entry** is as it should be
after its history if those of a step are. -/
theorem inv_entries {P : List ω → ω → Prop} (p : Path step h s l s')
    (each : ∀ h s l s', I h s → step h s l s' →
      I (h ++ l) s' ∧ Throughout (fun l₁ => P (h ++ l₁)) l)
    (start : I h s) : I (h ++ l) s' ∧ Throughout (fun l₁ => P (h ++ l₁)) l := by
  induction p with
  | refl h s => exact ⟨by rwa [List.append_nil], throughout_nil⟩
  | @step h l l' s s' s'' first rest ih =>
      obtain ⟨kept, here⟩ := each _ _ _ _ start first
      obtain ⟨ends, later⟩ := ih kept
      refine ⟨by rwa [← List.append_assoc], throughout_append here ?_⟩
      simpa only [List.append_assoc] using later

/-- What holds of the entries of every step holds of all entries. -/
theorem forall_entries {P : ω → Prop} (p : Path step h s l s')
    (each : ∀ h s l s', I h s → step h s l s' → I (h ++ l) s' ∧ ∀ w ∈ l, P w) (start : I h s) :
    ∀ w ∈ l, P w := by
  have walked := p.inv_entries (P := fun _ w => P w) (fun h s l s' here first => by
    obtain ⟨kept, entries⟩ := each h s l s' here first
    refine ⟨kept, ?_⟩
    intro l₁ w l₂ split
    exact entries w (split ▸ List.mem_append_right l₁ (.head l₂))) start
  intro w mem
  obtain ⟨l₁, l₂, split⟩ := List.append_of_mem mem
  exact walked.2 l₁ w l₂ split

/-- Any two states of a path are in order, the first one included. -/
private theorem ordered_from {R : σ → σ → Prop} (before : ω → σ) (p : Path step h s l s')
    (refl : ∀ s, R s s) (trans : ∀ a b c, R a b → R b c → R a c)
    (each : ∀ h s l s', step h s l s' → (s :: (l.map before ++ [s'])).Pairwise R) :
    (s :: (l.map before ++ [s'])).Pairwise R := by
  induction p with
  | refl h s => simp [refl]
  | @step h l l' s s' s'' first rest ih =>
      have front := each _ _ _ _ first
      rw [List.pairwise_cons] at ih
      rw [List.map_append, List.append_assoc, ← List.cons_append, List.pairwise_append]
      rw [← List.cons_append, List.pairwise_append] at front
      obtain ⟨inside, -, reaches⟩ := front
      refine ⟨inside, ih.2, ?_⟩
      intro a ha b hb
      exact trans a s' b (reaches a ha s' (.head _)) (ih.1 b hb)

/-- **Any two states of a path are in order** if those of a step are. -/
theorem ordered {R : σ → σ → Prop} (before : ω → σ) (p : Path step h s l s')
    (refl : ∀ s, R s s) (trans : ∀ a b c, R a b → R b c → R a c)
    (each : ∀ h s l s', step h s l s' → (s :: (l.map before ++ [s'])).Pairwise R) :
    (l.map before ++ [s']).Pairwise R :=
  (List.pairwise_cons.mp (p.ordered_from before refl trans each)).2

end Path

namespace Traced

variable {ω ε σ α β γ : Type}

/-- Sequencing is associative. -/
theorem bind_assoc (m : Traced ω ε σ α) (k : α → Traced ω ε σ β) (k' : β → Traced ω ε σ γ) :
    (m >>= k >>= k') = m >>= fun a => k a >>= k' := by
  funext s
  rcases hm : m s with ⟨log, s', e | a⟩
  · rw [bind_of_error hm, bind_of_error (bind_of_error hm)]
  · rcases hk : k a s' with ⟨log', s'', e | b⟩
    · rw [bind_of_ok hm, bind_of_error hk]
      have both : (m >>= k) s = ⟨log ++ log', s'', .error e⟩ := by rw [bind_of_ok hm, hk]
      rw [bind_of_error both]
    · rw [bind_of_ok hm, bind_of_ok hk]
      have both : (m >>= k) s = ⟨log ++ log', s'', .ok b⟩ := by rw [bind_of_ok hm, hk]
      rw [bind_of_ok both, List.append_assoc]

/-- Nothing comes after the last command of a program that returns nothing. -/
theorem bind_pure_unit (m : Traced ω ε σ Unit) (a : Unit) : (m >>= fun _ => pure a) = m := by
  funext s
  rcases hm : m s with ⟨log, s', e | b⟩
  · rw [bind_of_error hm]
  · rw [bind_of_ok hm]
    show (⟨log ++ [], s', .ok a⟩ : Run ω ε σ Unit) = _
    rw [List.append_nil]

/-- Reading the state makes no difference. -/
theorem get_bind_const (m : Traced ω ε σ α) : (get >>= fun _ => m) = m := rfl

/-- After the history, and from the state, the program takes steps only, and if
it returns it returns in `Q`. -/
def Follows (step : Steps ω σ) (m : Traced ω ε σ α) (h : List ω) (s : σ)
    (Q : α → List ω → σ → Prop) : Prop :=
  Path step h s (m s).log (m s).state ∧
    ∀ a, (m s).value = .ok a → Q a (h ++ (m s).log) (m s).state

/-- The program follows the steps from everywhere. -/
def Walks (step : Steps ω σ) (m : Traced ω ε σ α) : Prop :=
  ∀ h s, Follows step m h s fun _ _ _ => True

section Rules

variable {step : Steps ω σ} {m : Traced ω ε σ α} {k : α → Traced ω ε σ β} {h : List ω} {s : σ}
  {P : α → List ω → σ → Prop} {Q : β → List ω → σ → Prop}

theorem follows_pure {a : α} (post : P a h s) : Follows step (pure a : Traced ω ε σ α) h s P := by
  refine ⟨.refl h s, ?_⟩
  intro b value
  cases value
  rwa [show (pure a : Traced ω ε σ α) s = ⟨[], s, .ok a⟩ from rfl, List.append_nil]

/-- Stopping takes no step either, and promises nothing. -/
theorem follows_stop {e : ε} : Follows step (stop e : Traced ω ε σ α) h s P := ⟨.refl h s, nofun⟩

theorem follows_ofExcept {x : Except ε α} (post : ∀ a, x = .ok a → P a h s) :
    Follows step (ofExcept x : Traced ω ε σ α) h s P := by
  refine ⟨.refl h s, ?_⟩
  intro a value
  have post := post a value
  rwa [show (ofExcept x : Traced ω ε σ α) s = ⟨[], s, x⟩ from rfl, List.append_nil]

theorem follows_mono (first : Follows step m h s P) {P' : α → List ω → σ → Prop}
    (post : ∀ a h' s', P a h' s' → P' a h' s') : Follows step m h s P' :=
  ⟨first.1, fun a value => post a _ _ (first.2 a value)⟩

/-- A run that is known. -/
theorem follows_of_path {l : List ω} {s' : σ} {a : α} (run : m s = ⟨l, s', .ok a⟩)
    (path : Path step h s l s') (post : P a (h ++ l) s') : Follows step m h s P := by
  unfold Follows
  rw [run]
  refine ⟨path, ?_⟩
  intro b value
  cases value
  exact post

/-- A run that stops. -/
theorem follows_of_error {l : List ω} {s' : σ} {e : ε} (run : m s = ⟨l, s', .error e⟩)
    (path : Path step h s l s') : Follows step m h s P := by
  unfold Follows
  rw [run]
  exact ⟨path, nofun⟩

/-- **A stretch of a program as one step.** -/
theorem follows_run {l : List ω} {s' : σ} {a : α} (run : m s = ⟨l, s', .ok a⟩)
    (first : step h s l s') (post : P a (h ++ l) s') : Follows step m h s P :=
  follows_of_path run (.of_step first) post

/-- **Sequencing.** -/
theorem follows_bind (first : Follows step m h s P)
    (next : ∀ a h' s', P a h' s' → Follows step (k a) h' s' Q) : Follows step (m >>= k) h s Q := by
  unfold Follows at first ⊢
  rcases hm : m s with ⟨log, s', e | a⟩
  · rw [bind_of_error hm]
    rw [hm] at first
    exact ⟨first.1, nofun⟩
  · rw [bind_of_ok hm]
    rw [hm] at first
    obtain ⟨path, post⟩ := first
    obtain ⟨path', post'⟩ := next a _ s' (post a rfl)
    refine ⟨path.append path', ?_⟩
    intro b value
    rw [← List.append_assoc]
    exact post' b value

/-- A run that is known in front of a program. -/
theorem follows_path_bind {l : List ω} {s' : σ} {a : α} (run : m s = ⟨l, s', .ok a⟩)
    (path : Path step h s l s') (next : Follows step (k a) (h ++ l) s' Q) :
    Follows step (m >>= k) h s Q := by
  refine follows_bind (P := fun b h' s'' => b = a ∧ h' = h ++ l ∧ s'' = s')
    (follows_of_path run path ⟨rfl, rfl, rfl⟩) ?_
  rintro _ _ _ ⟨rfl, rfl, rfl⟩
  exact next

/-- Reading the state is no step; the program goes on from what was read. -/
theorem follows_get_bind {k : σ → Traced ω ε σ β} (next : Follows step (k s) h s Q) :
    Follows step (get >>= k) h s Q := by
  unfold Follows at next ⊢
  rwa [bind_of_ok (show (get : Traced ω ε σ σ) s = ⟨[], s, .ok s⟩ from rfl), List.nil_append]

theorem follows_gets {f : σ → α} (post : P (f s) h s) :
    Follows step (gets f : Traced ω ε σ α) h s P := by
  refine ⟨.refl h s, ?_⟩
  intro a value
  cases value
  rwa [show (gets f : Traced ω ε σ α) s = ⟨[], s, .ok (f s)⟩ from rfl, List.append_nil]

theorem follows_modify {f : σ → σ} {P : Unit → List ω → σ → Prop} (first : step h s [] (f s))
    (post : P () h (f s)) : Follows step (modify f : Traced ω ε σ Unit) h s P :=
  follows_run rfl first (by rwa [List.append_nil])

theorem follows_tell {f : σ → ω} {P : Unit → List ω → σ → Prop} (first : step h s [f s] s)
    (post : P () (h ++ [f s]) s) : Follows step (tell f : Traced ω ε σ Unit) h s P :=
  follows_run rfl first post

theorem follows_ite {c : Prop} [Decidable c] {m' : Traced ω ε σ α} (pos : c → Follows step m h s P)
    (neg : ¬ c → Follows step m' h s P) : Follows step (if c then m else m') h s P := by
  split
  · exact pos ‹c›
  · exact neg ‹¬ c›

/-- A statement under a condition, whose absence must promise the same. -/
theorem follows_when {c : Prop} [Decidable c] {m : Traced ω ε σ Unit}
    {P : Unit → List ω → σ → Prop} (pos : c → Follows step m h s P) (neg : ¬ c → P () h s) :
    Follows step (when c m) h s P :=
  follows_ite pos fun no => follows_pure (neg no)

/-- **Iteration until an answer.** -/
theorem follows_loop {I : α → List ω → σ → Prop} {exhausted : ε}
    {body : α → Traced ω ε σ (α ⊕ β)}
    (each : ∀ a h s, I a h s → Follows step (body a) h s fun answer h' s' =>
      match answer with
      | .inl a => I a h' s'
      | .inr b => Q b h' s')
    (fuel : Nat) {a : α} (start : I a h s) : Follows step (loop exhausted body fuel a) h s Q := by
  induction fuel generalizing a h s with
  | zero => exact follows_stop
  | succ fuel ih =>
      refine follows_bind (each a h s start) ?_
      rintro (a | b) h' s' post
      · exact ih post
      · exact follows_pure post

/-- What the steps keep, the program keeps. -/
theorem Follows.keeps (first : Follows step m h s P) {I : List ω → σ → Prop}
    (keeps : ∀ h s l s', I h s → step h s l s' → I (h ++ l) s') (start : I h s) :
    Follows step m h s fun a h' s' => P a h' s' ∧ I h' s' :=
  ⟨first.1, fun a value => ⟨first.2 a value, first.1.inv keeps start⟩⟩

/-- The path the program has taken. -/
theorem Follows.path (first : Follows step m h s P) :
    Follows step m h s fun a h' s' => P a h' s' ∧ ∃ l, h' = h ++ l ∧ Path step h s l s' :=
  ⟨first.1, fun a value => ⟨first.2 a value, _, rfl, first.1⟩⟩

/-- Steps that allow more. -/
theorem Follows.weaken {step' : Steps ω σ} (first : Follows step m h s P)
    (weaken : ∀ h s l s', step h s l s' → step' h s l s') : Follows step' m h s P :=
  ⟨first.1.mono weaken, first.2⟩

/-- Whatever the program does, its history continues the one before. -/
theorem follows_walks_bind (first : Walks step m)
    (next : ∀ a l s', Path step h s l s' → Follows step (k a) (h ++ l) s' Q) :
    Follows step (m >>= k) h s Q := by
  refine follows_bind (first h s).path ?_
  rintro a _ s' ⟨-, l, rfl, path⟩
  exact next a l s' path

/-! From everywhere. -/

/-- Whatever else is promised, a program that follows the steps from each place walks. -/
theorem walks_of_follows {Q : List ω → σ → α → List ω → σ → Prop}
    (first : ∀ h s, Follows step m h s (Q h s)) : Walks step m := fun h s =>
  follows_mono (first h s) fun _ _ _ _ => trivial

theorem walks_pure {a : α} : Walks step (pure a : Traced ω ε σ α) := fun _ _ => follows_pure trivial

theorem walks_ofExcept {x : Except ε α} : Walks step (ofExcept x : Traced ω ε σ α) := fun _ _ =>
  follows_ofExcept fun _ _ => trivial

/-- The second program may start anywhere, so nothing has to be known of the first. -/
theorem walks_bind (first : Walks step m) (next : ∀ a, Walks step (k a)) :
    Walks step (m >>= k) := fun h s =>
  follows_bind (first h s) fun a h' s' _ => next a h' s'

theorem walks_get : Walks step (get : Traced ω ε σ σ) := fun h s =>
  ⟨.refl h s, fun _ _ => trivial⟩

theorem walks_gets {f : σ → α} : Walks step (gets f : Traced ω ε σ α) := fun _ _ =>
  follows_gets trivial

theorem walks_modify {f : σ → σ} (first : ∀ h s, step h s [] (f s)) :
    Walks step (modify f : Traced ω ε σ Unit) := fun h s => follows_modify (first h s) trivial

theorem walks_tell {f : σ → ω} (first : ∀ h s, step h s [f s] s) :
    Walks step (tell f : Traced ω ε σ Unit) := fun h s => follows_tell (first h s) trivial

theorem walks_ite {c : Prop} [Decidable c] {m' : Traced ω ε σ α} (pos : Walks step m)
    (neg : Walks step m') : Walks step (if c then m else m') := fun h s =>
  follows_ite (fun _ => pos h s) fun _ => neg h s

theorem walks_when {c : Prop} [Decidable c] {m : Traced ω ε σ Unit} (first : Walks step m) :
    Walks step (when c m) := walks_ite first walks_pure

theorem walks_whenSome {o : Option α} {f : α → Traced ω ε σ Unit} (each : ∀ a, Walks step (f a)) :
    Walks step (whenSome o f) := by
  cases o with
  | none => exact walks_pure
  | some a => exact each a

theorem walks_each {xs : List α} {body : α → Traced ω ε σ Unit} (first : ∀ a, Walks step (body a)) :
    Walks step (each xs body) := by
  induction xs with
  | nil => exact walks_pure
  | cons x xs ih => exact walks_bind (first x) fun _ => ih

end Rules

/-! ## Steps that take several lines

A program may be in the middle of a step: `Amid` says what has been logged and
what the state is since the step began.  A function that ends in the middle of a
step `Trails` behind. -/

/-- Since the history and the state, `l` was logged and the state has become
`s'`; with what the program does from there on, that is a path. -/
def Amid (step : Steps ω σ) (m : Traced ω ε σ α) (h : List ω) (s : σ) (l : List ω) (s' : σ)
    (Q : α → List ω → σ → Prop) : Prop :=
  Path step h s (l ++ (m s').log) (m s').state ∧
    ∀ a, (m s').value = .ok a → Q a (h ++ (l ++ (m s').log)) (m s').state

/-- The program follows the steps, but where it returns it has updated the state
once more. -/
def Trails (step : Steps ω σ) (m : Traced ω ε σ α) (h : List ω) (s : σ)
    (Q : α → List ω → σ → σ → Prop) : Prop :=
  ∃ s', Path step h s (m s).log s' ∧
    match (m s).value with
    | .ok a => Q a (h ++ (m s).log) s' (m s).state
    | .error _ => s' = (m s).state

section Stretches

variable {step : Steps ω σ} {m : Traced ω ε σ α} {k : α → Traced ω ε σ β} {h l : List ω}
  {s s' : σ} {P : α → List ω → σ → Prop} {Q : β → List ω → σ → Prop}

/-- At the beginning of a step nothing of it has been logged. -/
theorem follows_of_amid (amid : Amid step m h s [] s P) : Follows step m h s P := amid

/-- And the other way round: a program may be looked at as if it were amid a step that
has just begun. -/
theorem amid_of_follows (follows : Follows step m h s P) : Amid step m h s [] s P := follows

/-- The step is complete. -/
theorem amid_step (first : step h s l s') (next : Follows step m (h ++ l) s' P) :
    Amid step m h s l s' P := by
  refine ⟨.step first next.1, ?_⟩
  rw [← List.append_assoc]
  exact next.2

/-- Amid a step a program runs to a known end, and the step is not complete yet. -/
theorem amid_bind {l' : List ω} {s'' : σ} {a : α} (run : m s' = ⟨l', s'', .ok a⟩)
    (next : Amid step (k a) h s (l ++ l') s'' Q) : Amid step (m >>= k) h s l s' Q := by
  unfold Amid at next ⊢
  rw [bind_of_ok run]
  rwa [List.append_assoc] at next

/-- The step is completed by the first program, and the second one follows the steps. -/
theorem amid_follows_bind (amid : Amid step m h s l s' P)
    (next : ∀ a h' s', P a h' s' → Follows step (k a) h' s' Q) :
    Amid step (m >>= k) h s l s' Q := by
  unfold Amid at amid ⊢
  rcases hm : m s' with ⟨log, s'', e | a⟩
  · rw [bind_of_error hm]
    rw [hm] at amid
    exact ⟨amid.1, nofun⟩
  · rw [bind_of_ok hm]
    rw [hm] at amid
    obtain ⟨path, post⟩ := next a _ s'' (amid.2 a rfl)
    refine ⟨?_, ?_⟩
    · rw [← List.append_assoc]
      exact amid.1.append path
    · intro b value
      rw [← List.append_assoc, ← List.append_assoc, List.append_assoc h]
      exact post b value

/-- A program that follows the steps, in front of one that trails. -/
theorem trails_bind {R : β → List ω → σ → σ → Prop} (first : Follows step m h s P)
    (next : ∀ a h' s', P a h' s' → Trails step (k a) h' s' R) : Trails step (m >>= k) h s R := by
  unfold Follows at first
  unfold Trails
  rcases hm : m s with ⟨log, s', e | a⟩
  · rw [bind_of_error hm]
    rw [hm] at first
    exact ⟨s', first.1, rfl⟩
  · rw [bind_of_ok hm]
    rw [hm] at first
    obtain ⟨s'', path, ends⟩ := next a _ s' (first.2 a rfl)
    refine ⟨s'', first.1.append path, ?_⟩
    rwa [List.append_assoc] at ends

theorem trails_path_bind {R : β → List ω → σ → σ → Prop} {a : α}
    (run : m s = ⟨l, s', .ok a⟩) (path : Path step h s l s')
    (next : Trails step (k a) (h ++ l) s' R) : Trails step (m >>= k) h s R := by
  refine trails_bind (P := fun b h' s'' => b = a ∧ h' = h ++ l ∧ s'' = s')
    (follows_of_path run path ⟨rfl, rfl, rfl⟩) ?_
  rintro _ _ _ ⟨rfl, rfl, rfl⟩
  exact next

/-- A program that follows the steps to its end trails by nothing. -/
theorem trails_of_follows (first : Follows step m h s P) :
    Trails step m h s fun a h' s' s'' => s' = s'' ∧ P a h' s' := by
  refine ⟨_, first.1, ?_⟩
  split
  · exact ⟨rfl, first.2 _ ‹_›⟩
  · rfl

/-- The last update is the one that the steps are behind. -/
theorem trails_modify {f : σ → σ} {a : β} {R : β → List ω → σ → σ → Prop} (post : R a h s (f s)) :
    Trails step (modify f >>= fun _ => pure a : Traced ω ε σ β) h s R := by
  have run : (modify f >>= fun _ => pure a : Traced ω ε σ β) s = ⟨[], f s, .ok a⟩ := rfl
  refine ⟨s, ?_, ?_⟩
  · rw [run]
    exact .refl h s
  · rw [run]
    rwa [List.append_nil]

theorem trails_mono {R R' : α → List ω → σ → σ → Prop} (first : Trails step m h s R)
    (post : ∀ a h' s' s'', R a h' s' s'' → R' a h' s' s'') : Trails step m h s R' := by
  obtain ⟨s', path, ends⟩ := first
  refine ⟨s', path, ?_⟩
  split at ends
  · exact post _ _ _ _ ends
  · exact ends

/-- What trails behind is caught up with. -/
theorem follows_trails_bind {R : α → List ω → σ → σ → Prop} (first : Trails step m h s R)
    (next : ∀ a h' s' s'', R a h' s' s'' → Amid step (k a) h' s' [] s'' Q) :
    Follows step (m >>= k) h s Q := by
  obtain ⟨s', path, ends⟩ := first
  unfold Follows
  rcases hm : m s with ⟨log, s'', e | a⟩
  · rw [bind_of_error hm]
    rw [hm] at path ends
    cases ends
    exact ⟨path, nofun⟩
  · rw [bind_of_ok hm]
    rw [hm] at path ends
    obtain ⟨rest, post⟩ := next a _ s' s'' ends
    refine ⟨path.append rest, ?_⟩
    rw [← List.append_assoc]
    exact post

end Stretches

end Traced

end HaasProxy
