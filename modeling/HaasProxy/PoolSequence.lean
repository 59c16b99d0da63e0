import HaasProxy.FwPool

/-!
# A pool is a sequence of pairs

What the pool functions are for: a sequence to which items are added at the end,
and from which one is removed by moving the last one over it.  `PoolStep` says this
of a call, in terms of the sequence before and after it, and `poolSequence_runs`
that every sequence of calls does so while additions are granted.

## Design notes

The abstract sequence is computed from the slots (`FwPool.sequence`), so that the
statement can be read without `Holds`; that the two agree for a pool in order is
`sequence_eq`.

A removal reorders.  What is true of any sequence of calls is therefore said with
multisets: what is in the pool is what was added, without what was removed.  What a
single call does to the order is in `PoolStep`, since a caller that removes while it
goes through the pool depends on it.
-/

namespace HaasProxy

open scoped List

/-! ## The sequence

What the pool holds, as a list in the order of the array. Taking an item out puts the last
one in its place. -/

/-- What is found at an index. -/
def itemAt {α : Type} (xs : List α) (index : Int) : Option α :=
  if 0 ≤ index then xs[index.toNat]? else none

/-- The items in the slots from 0 to `Used-1`. -/
def FwPool.sequence {α : Type} (pool : FwPool α) : List α :=
  (pool.slots.take pool.used).filterMap id

/-- **A call on a sequence of pairs**, some of which are `NULL`: what it answers,
and what the sequence is afterwards. -/
structure PoolStep {β : Type} (xs : List (Option β)) (call : PoolCall (Option β))
    (answer : PoolAnswer (Option β)) (xs' : List (Option β)) : Prop where
  /-- How many items there are. -/
  count : call = .count → answer = .index xs.length ∧ xs' = xs
  /-- The item at an index, or none. -/
  get : ∀ index, call = .get index → answer = .item (itemAt xs index) ∧ xs' = xs
  /-- The item is appended, and is found where the answer says. -/
  add : ∀ granted item, call = .add granted item →
    answer = .index xs.length ∧ xs' = xs ++ [item] ∧ itemAt xs' xs.length = some item
  /-- This item is gone, and of the others only the last one has moved. -/
  remove : ∀ index item, call = .remove index → itemAt xs index = some item →
    answer = .index 1 ∧ xs ~ item :: xs' ∧
      ∀ j : Nat, j + 1 < xs.length → (j : Int) ≠ index → xs'[j]? = xs[j]?
  /-- Nothing happens. -/
  invalid : ∀ index, call = .remove index → itemAt xs index = none →
    answer = .index 0 ∧ xs' = xs
  /-- Looking for a closed item changes nothing. -/
  search : ∀ closed, call = .findClosed closed → xs' = xs
  /-- The first closed item, or -1 where there is none. -/
  findClosed : ∀ closed : β → Bool, call = .findClosed (fun item => item.any closed) →
    (∃ (k : Nat) (b : β), answer = .index k ∧ xs[k]? = some (some b) ∧ closed b ∧
        ∀ j < k, ∀ b', xs[j]? = some (some b') → ¬ closed b') ∨
      answer = .index (-1) ∧ ∀ b, some b ∈ xs → ¬ closed b

/-- What a call adds. -/
def PoolCall.added {α : Type} : PoolCall α → List α
  | add _ item => [item]
  | _ => []

/-- What a call removes: what `FwPoolGet` finds at the index. -/
def PoolCall.removed {α : Type} (pool : Except Fault (Option (FwPool α))) : PoolCall α → List α
  | remove index =>
      match pool.bind fun pool => fwPoolGet pool index with
      | .ok (some item) => [item]
      | _ => []
  | _ => []

section Specification

variable {α β : Type} {pool : FwPool α} {xs : List α}

/-- The sequence of a pool is the list that it holds. -/
theorem sequence_eq (h : pool.Holds xs) : pool.sequence = xs := by
  rw [FwPool.sequence, h.items, List.filterMap_map]
  exact List.filterMap_some

/-- `FwPoolGet` answers by the sequence, at any index. -/
theorem fwPoolGet_sequence (h : pool.Holds xs) (index : Int) :
    fwPoolGet (some pool) index = .ok (itemAt xs index) := by
  by_cases valid : 0 ≤ index
  · obtain ⟨i, rfl⟩ := Int.eq_ofNat_of_zero_le valid
    rw [itemAt, if_pos valid]
    exact fwPoolGet_eq h i
  · rw [itemAt, if_neg valid]
    exact fwPoolGet_invalid h (.inl (Int.not_le.mp valid))

private theorem itemAt_eq_some {index : Int} {a : α} (found : itemAt xs index = some a) :
    ∃ i : Nat, index = i ∧ ∃ hi : i < xs.length, xs[i] = a := by
  rw [itemAt] at found
  split_ifs at found with valid
  obtain ⟨i, rfl⟩ := Int.eq_ofNat_of_zero_le valid
  exact ⟨i, rfl, List.getElem?_eq_some_iff.mp found⟩

private theorem itemAt_eq_none {index : Int} (none : itemAt xs index = none) :
    index < 0 ∨ xs.length ≤ index := by
  rw [itemAt] at none
  split_ifs at none with valid
  · have outside := List.getElem?_eq_none_iff.mp none
    omega
  · omega

/-- Removal moves the last item at most. -/
private theorem getElem?_swapRemove {i j : Nat} (inside : j + 1 < xs.length) (ne : j ≠ i) :
    (swapRemove xs i)[j]? = xs[j]? := by
  obtain rfl | ⟨l, last, split⟩ := xs.eq_nil_or_concat
  · exact absurd inside (Nat.not_lt_zero _)
  rw [List.concat_eq_append] at split
  subst split
  rw [List.length_append, List.length_singleton] at inside
  have below : j < l.length := by omega
  rw [swapRemove_append, List.getElem?_set_ne ne.symm, List.getElem?_append_left below]

end Specification

section Steps

variable {β : Type} {pool : FwPool (Option β)} {xs : List (Option β)}

/-- The first closed item. -/
private theorem findIdx?_closed (closed : β → Bool) :
    (∃ (k : Nat) (b : β), xs.findIdx? (fun item => item.any closed) = some k ∧
      xs[k]? = some (some b) ∧ closed b ∧ ∀ j < k, ∀ b', xs[j]? = some (some b') → ¬ closed b') ∨
    xs.findIdx? (fun item => item.any closed) = none ∧ ∀ b, some b ∈ xs → ¬ closed b := by
  cases found : xs.findIdx? fun item => item.any closed with
  | none =>
      refine .inr ⟨rfl, ?_⟩
      intro b mem isClosed
      have open_ := List.findIdx?_eq_none_iff.mp found (some b) mem
      rw [Option.any_some, isClosed] at open_
      cases open_
  | some k =>
      obtain ⟨hk, isClosed, before⟩ := List.findIdx?_eq_some_iff_getElem.mp found
      obtain ⟨b, here, isClosed⟩ := (Option.any_eq_true _ _).mp isClosed
      refine .inl ⟨k, b, rfl, ?_, isClosed, ?_⟩
      · rw [List.getElem?_eq_getElem hk, here]
      · intro j below b' there isClosed'
        obtain ⟨hj, eq⟩ := List.getElem?_eq_some_iff.mp there
        refine before j below ?_
        rw [eq, Option.any_some, isClosed']

/-- **A call does what it is for.** -/
theorem poolStep_of_run (h : pool.Holds xs) {call : PoolCall (Option β)}
    (noInit : ∀ granted, call ≠ .init granted) (grows : ¬ call.GrowthRefused (some pool)) :
    ∃ answer pool' xs', call.run (some pool) = .ok (answer, some pool') ∧ pool'.Holds xs' ∧
      PoolStep xs call answer xs' := by
  cases call with
  -- one case for each function, and in it the clauses that are about other functions are void
  | init granted => exact absurd rfl (noInit granted)
  | count =>
      refine ⟨.index xs.length, pool, xs, ?_, h, by simp, by simp, by simp, by simp, by simp,
        by simp, by simp⟩
      rw [PoolCall.run, fwPoolCount, h.used]
  | get index =>
      refine ⟨.item (itemAt xs index), pool, xs, ?_, h, by simp, ?_, by simp, by simp, by simp,
        by simp, by simp⟩
      · rw [PoolCall.run, fwPoolGet_sequence h]
        rfl
      · rintro _ ⟨⟩
        exact ⟨rfl, rfl⟩
  | add granted item =>
      obtain ⟨pool', added, held⟩ :=
        fwPoolAdd_eq h (fun refused => grows ⟨pool, rfl, refused⟩) item
      refine ⟨.index xs.length, pool', xs ++ [item], ?_, held, by simp, by simp, ?_, by simp,
        by simp, by simp, by simp⟩
      · rw [PoolCall.run, added]
        rfl
      · rintro _ _ ⟨⟩
        refine ⟨rfl, rfl, ?_⟩
        simp [itemAt]
  | remove index =>
      cases found : itemAt xs index with
      | none =>
          refine ⟨.index 0, pool, xs, ?_, h, by simp, by simp, by simp, ?_, ?_,
            by simp, by simp⟩
          · rw [PoolCall.run, fwPoolRemove_invalid h (itemAt_eq_none found)]
            rfl
          · rintro _ item ⟨⟩ there
            cases found.symm.trans there
          · rintro _ ⟨⟩ -
            exact ⟨rfl, rfl⟩
      | some item =>
          obtain ⟨i, rfl, hi, here⟩ := itemAt_eq_some found
          obtain ⟨pool', removed, held⟩ := fwPoolRemove_eq h hi
          refine ⟨.index 1, pool', swapRemove xs i, ?_, held, by simp, by simp, by simp, ?_, ?_,
            by simp, by simp⟩
          · rw [PoolCall.run, removed]
            rfl
          · rintro _ item' ⟨⟩ there
            obtain rfl : item = item' := Option.some.inj (found.symm.trans there)
            refine ⟨rfl, here ▸ swapRemove_perm hi, ?_⟩
            intro j inside ne
            exact getElem?_swapRemove inside fun same => ne (congrArg Nat.cast same)
          · rintro _ ⟨⟩ none
            cases found.symm.trans none
  | findClosed closed =>
      have found := fwPoolFindClosed_eq h (fun a _ => (rfl : Except.ok (closed a) = _))
      refine ⟨_, pool, xs, by rw [PoolCall.run, found]; rfl, h, by simp, by simp, by simp, by simp,
        by simp, fun _ _ => rfl, ?_⟩
      rintro closed' ⟨⟩
      rcases findIdx?_closed closed' with ⟨k, b, eq, here, isClosed, before⟩ | ⟨eq, none⟩
      · rw [eq]
        exact .inl ⟨k, b, rfl, here, isClosed, before⟩
      · rw [eq]
        exact .inr ⟨rfl, none⟩

end Steps

/-! ## Sequences of calls

By induction over the calls, the multiset of the items is what was added without what was
removed. -/

section Runs

variable {β : Type}

/-- What a call adds and removes. -/
theorem perm_of_poolStep {xs xs' : List (Option β)} {call : PoolCall (Option β)}
    {answer : PoolAnswer (Option β)} {pool : FwPool (Option β)} (h : pool.Holds xs)
    (noInit : ∀ granted, call ≠ .init granted) (step : PoolStep xs call answer xs') :
    xs ++ call.added ~ call.removed (.ok (some pool)) ++ xs' := by
  cases call with
  | init granted => exact absurd rfl (noInit granted)
  | count => simp [PoolCall.added, PoolCall.removed, (step.count rfl).2]
  | get index => simp [PoolCall.added, PoolCall.removed, (step.get index rfl).2]
  | findClosed closed => simp [PoolCall.added, PoolCall.removed, step.search closed rfl]
  | add granted item => simp [PoolCall.added, PoolCall.removed, (step.add granted item rfl).2.1]
  | remove index =>
      have found : (Except.ok (some pool)).bind (fun pool => fwPoolGet pool index) =
          .ok (itemAt xs index) := fwPoolGet_sequence h index
      simp only [PoolCall.added, PoolCall.removed, List.append_nil, found]
      cases there : itemAt xs index with
      | none => simp [(step.invalid index rfl there).2]
      | some item => exact (step.remove index item rfl there).2.1

/-- The calls of a sequence are made one after another: the first answer, and then those
from the pool it leaves. -/
theorem transitionsFrom_of_run {pool pool' : FwPool (Option β)} {call : PoolCall (Option β)}
    {answer : PoolAnswer (Option β)} (run : call.run (some pool) = .ok (answer, some pool'))
    (calls : List (PoolCall (Option β))) :
    (poolMachine (Option β)).transitionsFrom (.ok (some pool)) (call :: calls) =
      (.ok (some pool), call, .ok (some pool')) ::
        (poolMachine (Option β)).transitionsFrom (.ok (some pool')) calls := by
  rw [Machine.transitionsFrom]
  simp only [poolMachine, run]
  rfl

private theorem runFrom_of_run {pool pool' : FwPool (Option β)} {call : PoolCall (Option β)}
    {answer : PoolAnswer (Option β)} (run : call.run (some pool) = .ok (answer, some pool'))
    (calls : List (PoolCall (Option β))) :
    (poolMachine (Option β)).runFrom (.ok (some pool)) (call :: calls) =
      (poolMachine (Option β)).runFrom (.ok (some pool')) calls := by
  rw [Machine.runFrom_cons]
  simp only [poolMachine, run]
  rfl

/-- From a pool in order. -/
theorem runs_of_holds (calls : List (PoolCall (Option β))) {pool : FwPool (Option β)}
    {xs : List (Option β)} (h : pool.Holds xs)
    (noInit : ∀ call ∈ calls, ∀ granted, call ≠ .init granted)
    (grows : ∀ t ∈ (poolMachine (Option β)).transitionsFrom (.ok (some pool)) calls,
      ∀ pool, t.1 = .ok pool → ¬ t.2.1.GrowthRefused pool) :
    (∃ pool', (poolMachine (Option β)).runFrom (.ok (some pool)) calls = some (.ok (some pool')) ∧
      xs ++ calls.flatMap PoolCall.added ~
        ((poolMachine (Option β)).transitionsFrom (.ok (some pool)) calls).flatMap
          (fun t => t.2.1.removed t.1) ++ pool'.sequence) ∧
    ∀ t ∈ (poolMachine (Option β)).transitionsFrom (.ok (some pool)) calls,
      ∃ pool pool' answer, t.1 = .ok (some pool) ∧
        t.2.1.run (some pool) = .ok (answer, some pool') ∧
        PoolStep pool.sequence t.2.1 answer pool'.sequence ∧
        ∀ index, fwPoolGet (some pool') index = .ok (itemAt pool'.sequence index) := by
  induction calls generalizing pool xs with
  | nil =>
      refine ⟨⟨pool, rfl, ?_⟩, List.forall_mem_nil _⟩
      simp [Machine.transitionsFrom, sequence_eq h]
  | cons call calls ih =>
      -- whatever the call does, it is the first transition
      have first : ∀ s, (poolMachine (Option β)).step (.ok (some pool)) call = some s →
          (.ok (some pool), call, s) ∈
            (poolMachine (Option β)).transitionsFrom (.ok (some pool)) (call :: calls) := by
        intro s eq
        rw [Machine.transitionsFrom, eq]
        exact .head _
      have granted : ¬ call.GrowthRefused (some pool) :=
        grows _ (first _ rfl) (some pool) rfl
      obtain ⟨answer, pool', xs', run, h', step⟩ :=
        poolStep_of_run h (noInit call (.head _)) granted
      rw [transitionsFrom_of_run run, runFrom_of_run run]
      rw [transitionsFrom_of_run run] at grows
      obtain ⟨⟨last, run', perm⟩, each⟩ := ih h'
        (fun call mem => noInit call (.tail _ mem)) fun t mem => grows t (.tail _ mem)
      constructor
      · refine ⟨last, run', ?_⟩
        rw [List.flatMap_cons, List.flatMap_cons, List.append_assoc, ← List.append_assoc]
        calc xs ++ call.added ++ calls.flatMap PoolCall.added
          _ ~ call.removed (.ok (some pool)) ++ xs' ++ calls.flatMap PoolCall.added :=
            (perm_of_poolStep h (noInit call (.head _)) step).append_right _
          _ = call.removed (.ok (some pool)) ++ (xs' ++ calls.flatMap PoolCall.added) :=
            List.append_assoc ..
          _ ~ _ := perm.append_left _
      · rw [List.forall_mem_cons]
        refine ⟨⟨pool, pool', answer, rfl, run, ?_, ?_⟩, each⟩
        · rwa [sequence_eq h, sequence_eq h']
        · rw [sequence_eq h']
          exact fwPoolGet_sequence h'

/-- **The pool functions are those of a sequence of pairs.**  Where no addition is
refused the growth it needs, every sequence of calls on a new pool returns, each
call does to the items in the slots from 0 to `Used-1` what it is for, `FwPoolGet`
finds them there, and what was added is what is there and what was removed. -/
theorem poolSequence_runs (calls : List (PoolCall (Option β)))
    (noInit : ∀ call ∈ calls, ∀ granted, call ≠ .init granted)
    (grows : ∀ t ∈ (poolMachine (Option β)).transitionsFrom (.ok (fwPoolInit true)) calls,
      ∀ pool, t.1 = .ok pool → ¬ t.2.1.GrowthRefused pool) :
    (∃ pool, (poolMachine (Option β)).runFrom (.ok (fwPoolInit true)) calls =
        some (.ok (some pool)) ∧
      calls.flatMap PoolCall.added ~
        ((poolMachine (Option β)).transitionsFrom (.ok (fwPoolInit true)) calls).flatMap
          (fun t => t.2.1.removed t.1) ++ pool.sequence) ∧
    ∀ t ∈ (poolMachine (Option β)).transitionsFrom (.ok (fwPoolInit true)) calls,
      ∃ pool pool' answer, t.1 = .ok (some pool) ∧
        t.2.1.run (some pool) = .ok (answer, some pool') ∧
        PoolStep pool.sequence t.2.1 answer pool'.sequence ∧
        ∀ index, fwPoolGet (some pool') index = .ok (itemAt pool'.sequence index) := by
  have empty : (⟨0, 0, none⟩ : FwPool (Option β)).Holds [] := ⟨rfl, Nat.le_refl _, rfl, rfl⟩
  exact runs_of_holds calls empty noInit grows

end Runs

instance {α : Type} (pool : Option (FwPool α)) (call : PoolCall α) :
    Decidable (call.GrowthRefused pool) :=
  match call with
  | .add granted _ =>
      match pool with
      | none => isFalse (by simp [PoolCall.GrowthRefused])
      | some p => decidable_of_iff (p.Refused granted) (by simp [PoolCall.GrowthRefused])
  | .init _ | .count | .get _ | .remove _ | .findClosed _ => isFalse id

/-- A pair is added behind a `NULL`, and the `NULL` is removed. -/
theorem poolSequence_threeCalls :
    ∃ pool, (poolMachine (Option Nat)).runFrom (.ok (fwPoolInit true))
        [.add true none, .add true (some 5), .remove 0] = some (.ok (some pool)) ∧
      [none, some 5] ~ none :: pool.sequence := by
  refine (poolSequence_runs ([.add true none, .add true (some 5), .remove 0] :
    List (PoolCall (Option Nat))) ?_ ?_).1
  · simp
  · have granted : ∀ t ∈ (poolMachine (Option Nat)).transitionsFrom (.ok (fwPoolInit true))
        [.add true none, .add true (some 5), .remove 0],
        t.1.toOption.all fun pool => ¬ t.2.1.GrowthRefused pool := by decide
    intro t mem pool before
    have here := granted t mem
    rw [before] at here
    exact of_decide_eq_true here

end HaasProxy
