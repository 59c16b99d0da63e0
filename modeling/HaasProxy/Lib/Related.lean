import HaasProxy.Lib.Traced

/-!
# Programs built alike

A program is `Plain` when its entries, from where it starts, are of a kind and its
state goes from one to another as it may.  A `Congruence` relates a plain program to
itself, and programs that are built of related ones in the same way; what a program and
another one have in common, or what is true of a single program, are both of this form.

A program with an argument that is another program is then related to itself when
its arguments are, and that is shown once for all congruences.

## Design notes

The relation is between programs, and not between runs, so two programs that are
related need not take the same steps: it is up to the congruence what it makes of
them.  Three kinds occur.

* *Agreement*: both programs have the same runs, from the states of some set.
* *A property of one program*: the second program is not looked at.  The rules of a
  congruence are then those of a logic for that property.
* *A property that a part of the program shows*: the second program is the part.

`Plain` asks for the entries to be in `P` from where the program starts, and not from
where they are logged.  In a sequence the second program starts elsewhere, and `K`
has to say that nothing of what `P` looks at has changed meanwhile.
-/

namespace HaasProxy

namespace Traced

variable {ω ε σ α β : Type}

/-- From every state the entries of the program are in `P`, and `K` relates the states. -/
def Plain (P : σ → ω → Prop) (K : σ → σ → Prop) (m : Traced ω ε σ α) : Prop :=
  ∀ s, (∀ e ∈ (m s).log, P s e) ∧ K s (m s).state

section Plain

variable {P : σ → ω → Prop} {K : σ → σ → Prop} {m : Traced ω ε σ α} {k : α → Traced ω ε σ β}

theorem plain_pure (refl : ∀ s, K s s) {a : α} : Plain P K (pure a : Traced ω ε σ α) := fun s =>
  ⟨List.forall_mem_nil _, refl s⟩

theorem plain_stop (refl : ∀ s, K s s) {e : ε} : Plain P K (stop e : Traced ω ε σ α) := fun s =>
  ⟨List.forall_mem_nil _, refl s⟩

theorem plain_ofExcept (refl : ∀ s, K s s) {x : Except ε α} :
    Plain P K (ofExcept x : Traced ω ε σ α) := fun s => ⟨List.forall_mem_nil _, refl s⟩

theorem plain_get (refl : ∀ s, K s s) : Plain P K (get : Traced ω ε σ σ) := fun s =>
  ⟨List.forall_mem_nil _, refl s⟩

theorem plain_gets (refl : ∀ s, K s s) {f : σ → α} : Plain P K (gets f : Traced ω ε σ α) := fun s =>
  ⟨List.forall_mem_nil _, refl s⟩

theorem plain_modify {f : σ → σ} (keeps : ∀ s, K s (f s)) :
    Plain P K (modify f : Traced ω ε σ Unit) := fun s => ⟨List.forall_mem_nil _, keeps s⟩

theorem plain_tell (refl : ∀ s, K s s) {f : σ → ω} (entry : ∀ s, P s (f s)) :
    Plain P K (tell f : Traced ω ε σ Unit) := by
  intro s
  refine ⟨?_, refl s⟩
  intro e mem
  obtain rfl := List.mem_singleton.mp mem
  exact entry s

/-- The rule of sequence. The entries of the second program are in `P` from where it
starts, and have to be from where the first one did: this is what `shift` is for. -/
theorem plain_bind (trans : ∀ a b c, K a b → K b c → K a c)
    (shift : ∀ a b e, K a b → P b e → P a e) (first : Plain P K m)
    (next : ∀ a, Plain P K (k a)) : Plain P K (m >>= k) := by
  intro s
  obtain ⟨entries, keeps⟩ := first s
  rcases run : m s with ⟨log, s', e | a⟩
  · rw [run] at entries keeps
    rw [bind_of_error run]
    exact ⟨entries, keeps⟩
  · rw [run] at entries keeps
    rw [bind_of_ok run]
    obtain ⟨entries', keeps'⟩ := next a s'
    refine ⟨?_, trans _ _ _ keeps keeps'⟩
    intro e mem
    rcases List.mem_append.mp mem with earlier | later
    · exact entries e earlier
    · exact shift _ _ e keeps (entries' e later)

theorem plain_ite {c : Prop} [Decidable c] {m' : Traced ω ε σ α} (pos : Plain P K m)
    (neg : Plain P K m') : Plain P K (if c then m else m') := by
  split
  · exact pos
  · exact neg

end Plain

/-- A relation between programs that plain programs and sequences keep. -/
structure Congruence (P : σ → ω → Prop) (K : σ → σ → Prop)
    (R : ∀ α : Type, Traced ω ε σ α → Traced ω ε σ α → Prop) : Prop where
  refl : ∀ s, K s s
  trans : ∀ a b c, K a b → K b c → K a c
  plain : ∀ {α : Type} {m : Traced ω ε σ α}, Plain P K m → R α m m
  bind : ∀ {α β : Type} {m m' : Traced ω ε σ α} {k k' : α → Traced ω ε σ β},
    R α m m' → (∀ a, R β (k a) (k' a)) → R β (m >>= k) (m' >>= k')

/-- Both programs take the same branch, since they test the same. -/
theorem related_ite {R : ∀ α : Type, Traced ω ε σ α → Traced ω ε σ α → Prop} {p : Prop}
    [Decidable p] {m m' n n' : Traced ω ε σ α} (pos : R α m m') (neg : R α n n') :
    R α (if p then m else n) (if p then m' else n') := by
  split
  · exact pos
  · exact neg

namespace Congruence

variable {P : σ → ω → Prop} {K : σ → σ → Prop}
  {R : ∀ α : Type, Traced ω ε σ α → Traced ω ε σ α → Prop} (c : Congruence P K R)

include c

theorem pure (a : α) : R α (Pure.pure a) (Pure.pure a) := c.plain (plain_pure c.refl)

/-- Both read the state. They go on from what each has read, which is why `bind` asks
for related programs at every value. -/
theorem get : R σ Traced.get Traced.get := c.plain (plain_get c.refl)

theorem gets (f : σ → α) : R α (Traced.gets f) (Traced.gets f) := c.plain (plain_gets c.refl)

theorem stop (e : ε) : R α (Traced.stop e) (Traced.stop e) := c.plain (plain_stop c.refl)

theorem ofExcept (x : Except ε α) : R α (Traced.ofExcept x) (Traced.ofExcept x) :=
  c.plain (plain_ofExcept c.refl)

/-- Both update the state in the same way, within `K`. -/
theorem modify {f : σ → σ} (keeps : ∀ s, K s (f s)) : R Unit (Traced.modify f) (Traced.modify f) :=
  c.plain (plain_modify keeps)

theorem tell {f : σ → ω} (entry : ∀ s, P s (f s)) : R Unit (Traced.tell f) (Traced.tell f) :=
  c.plain (plain_tell c.refl entry)

theorem when {p : Prop} [Decidable p] {m m' : Traced ω ε σ Unit} (first : R Unit m m') :
    R Unit (Traced.when p m) (Traced.when p m') := related_ite first (c.pure ())

theorem whenSome {o : Option α} {f f' : α → Traced ω ε σ Unit} (each : ∀ a, R Unit (f a) (f' a)) :
    R Unit (Traced.whenSome o f) (Traced.whenSome o f') := by
  cases o with
  | none => exact c.pure ()
  | some a => exact each a

/-- Two loops with related bodies, by induction on the fuel. -/
theorem loop {exhausted : ε} {body body' : α → Traced ω ε σ (α ⊕ β)}
    (each : ∀ a, R (α ⊕ β) (body a) (body' a)) (fuel : Nat) (a : α) :
    R β (Traced.loop exhausted body fuel a) (Traced.loop exhausted body' fuel a) := by
  induction fuel generalizing a with
  | zero => exact c.stop exhausted
  | succ fuel ih =>
      apply c.bind (each a)
      intro answer
      cases answer with
      | inl a => exact ih a
      | inr b => exact c.pure b

theorem each {xs : List α} {body body' : α → Traced ω ε σ Unit}
    (first : ∀ a, R Unit (body a) (body' a)) : R Unit (Traced.each xs body) (Traced.each xs body') := by
  induction xs with
  | nil => exact c.pure ()
  | cons x xs ih => exact c.bind (first x) fun _ => ih

end Congruence

end Traced

end HaasProxy
