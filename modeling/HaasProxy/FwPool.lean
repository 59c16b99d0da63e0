import HaasProxy.Lib.Heap
import HaasProxy.Lib.Machine
import Mathlib.Data.List.Perm.Basic
import Mathlib.Data.List.ReduceOption

/-!
# The pool of forwards (`fw_pool.c`)

A pool is an array that grows by ten slots at a time and drops an item by moving
the last one over it.  The functions are generic in the items.  A pool pointer
is an `Option`, `none` being `NULL`; what `realloc` answers is an argument of
`fwPoolAdd`.  An access outside the array is a `Fault`.

`Holds` relates a pool to the list of its items, and every operation is
specified against that list.  The main results are about arbitrary sequences of
calls (`boundsKept_iff`): the bounds are kept exactly as long as no growth of a
full pool is refused, because the test before storing is `Used<=Alloc`.

## Design notes

* Slots that were never written are `none`, and reading one is a fault like reading
  outside of the array.  So "reads only what was written" needs no statement of its own.
* Items may themselves be `NULL` pointers: the proxy stores whatever `FwPairAlloc`
  answers.  The functions here are generic, so this is the `Option` in the proxy's use
  of them and not a case in each proof.
* `Holds` fixes the length of the array to `Alloc`.  A weaker relation would do for
  reading; it is needed for growing, where the old slots are copied.

## Where the code goes wrong

`FwPoolAdd` grows a full pool, and if that fails it still gets to the test in front of the
store.  That test is `Used<=Alloc` where `Used<Alloc` is meant, so it is passed by the
full pool, and the item is stored one slot behind the array.  `fwPoolAdd_refused` is this
one case, `fwPoolAdd_eq` all others.
-/

namespace HaasProxy

open scoped List

/-- `POOL_ALLOC_SIZE`. -/
def poolAllocSize : Nat := 10

/-- The largest `int`. -/
def intMax : Nat := 2147483647

/-- `struct _t_Fw_Pool_`.  `Items` is `NULL` or an array of slots, some of which
were never written. -/
structure FwPool (α : Type) where
  /-- Number of items. -/
  used : Nat
  /-- Number of slots. -/
  alloc : Nat
  items : Option (List (Option α))
  deriving DecidableEq

namespace FwPool

variable {α : Type}

/-- What `Items` points to. -/
def slots (pool : FwPool α) : List (Option α) := pool.items.getD []

/-- `Items[i]`, read. -/
def load (pool : FwPool α) (i : Nat) : Except Fault α :=
  match pool.slots[i]? with
  | none => .error (.outOfBounds i)
  | some none => .error (.uninitialised i)
  | some (some a) => .ok a

/-- `Items[i]=a`. -/
def store (pool : FwPool α) (i : Nat) (a : α) : Except Fault (FwPool α) :=
  if i < pool.slots.length then .ok { pool with items := some (pool.slots.set i (some a)) }
  else .error (.outOfBounds i)

/-- `Pool->Used>=Pool->Alloc`. -/
def IsFull (pool : FwPool α) : Prop := pool.alloc ≤ pool.used

instance (pool : FwPool α) : Decidable pool.IsFull := inferInstanceAs (Decidable (_ ≤ _))

/-- The `realloc` of `FwPoolAdd`.  A size that leaves the `int` range becomes a
request no allocator grants. -/
def grow (granted : Bool) (pool : FwPool α) : Option (FwPool α) :=
  let size := pool.alloc + poolAllocSize
  if granted ∧ size ≤ intMax then
    some { pool with
      alloc := size
      items := some (pool.slots ++ List.replicate poolAllocSize none) }
  else none

end FwPool

section Source

variable {α : Type}

/-- `FwPoolInit`. -/
def fwPoolInit (granted : Bool) : Option (FwPool α) :=
  if granted then some { used := 0, alloc := 0, items := none } else none

/-- `FwPoolCount`. -/
def fwPoolCount : Option (FwPool α) → Int
  | none => -1
  | some pool => pool.used

/-- `FwPoolGet`. -/
def fwPoolGet (pool : Option (FwPool α)) (index : Int) : Except Fault (Option α) :=
  match pool with
  | none => .ok none
  | some pool =>
      if 0 ≤ index ∧ index < pool.used then (pool.load index.toNat).map some else .ok none

/-- `FwPoolAdd`. -/
def fwPoolAdd (granted : Bool) (item : α) :
    Option (FwPool α) → Except Fault (Int × Option (FwPool α))
  | none => .ok (-1, none)
  | some pool =>
      let pool := if pool.IsFull then (pool.grow granted).getD pool else pool
      if pool.used ≤ pool.alloc then
        (pool.store pool.used item).map fun stored =>
          (pool.used, some { stored with used := pool.used + 1 })
      else .ok (-1, some pool)

/-- `FwPoolRemove`. -/
def fwPoolRemove (index : Int) : Option (FwPool α) → Except Fault (Int × Option (FwPool α))
  | none => .ok (0, none)
  | some pool =>
      if 0 ≤ index ∧ index < pool.used then
        let pool := { pool with used := pool.used - 1 }
        -- not last ...
        if index < pool.used then do
          let last ← pool.load pool.used
          let pool ← pool.store index.toNat last
          return (1, some pool)
        else .ok (1, some pool)
      else .ok (0, some pool)

/-- The loop of `FwPoolFindClosed`: `n` items are left to look at, from `i` on.
`closed` reads `Item->Closed` unless the item is `NULL`. -/
def findClosedFrom (closed : α → Except Fault Bool) (pool : FwPool α) :
    Nat → Nat → Except Fault Int
  | 0, _ => .ok (-1)
  | n + 1, i => do
      let item ← pool.load i
      if ← closed item then return i else findClosedFrom closed pool n (i + 1)

/-- `FwPoolFindClosed`. -/
def fwPoolFindClosed (closed : α → Except Fault Bool) : Option (FwPool α) → Except Fault Int
  | none => .ok (-1)
  | some pool => findClosedFrom closed pool pool.used 0

end Source

/-! ## The list a pool holds

The specification of each function, against the list.  What follows about sequences of
calls uses these and never unfolds a function. -/

/-- Removal by moving the last item over the removed one. -/
def swapRemove {α : Type} (xs : List α) (i : Nat) : List α :=
  match xs.getLast? with
  | none => []
  | some last => (xs.set i last).dropLast

/-- Removing from a list with a last element puts that one in its place. -/
theorem swapRemove_append {α : Type} (l : List α) (last : α) (i : Nat) :
    swapRemove (l ++ [last]) i = l.set i last := by
  rw [swapRemove, List.getLast?_concat]
  simp only [List.set_append]
  split
  · exact List.dropLast_concat
  · have same : [last].set (i - l.length) last = [last] := by cases i - l.length <;> rfl
    rw [same, List.dropLast_concat, List.set_eq_of_length_le (Nat.not_lt.mp ‹_›)]

/-- Nothing but the removed item is lost. -/
theorem swapRemove_perm {α : Type} {xs : List α} {i : Nat} (hi : i < xs.length) :
    xs.Perm (xs[i] :: swapRemove xs i) := by
  obtain rfl | ⟨l, last, split⟩ := xs.eq_nil_or_concat
  · exact absurd hi (Nat.not_lt_zero _)
  rw [List.concat_eq_append] at split
  subst split
  rw [swapRemove_append]
  by_cases inner : i < l.length
  · rw [List.getElem_append_left inner]
    calc l ++ [last]
      _ ~ last :: l := List.perm_append_singleton ..
      _ ~ last :: l[i] :: l.eraseIdx i := (List.getElem_cons_eraseIdx_perm inner).symm.cons _
      _ ~ l[i] :: last :: l.eraseIdx i := .swap ..
      _ ~ l[i] :: l.set i last := (List.set_perm_cons_eraseIdx inner last).symm.cons _
  · have isLast : i = l.length := by
      rw [List.length_append, List.length_singleton] at hi
      omega
    subst isLast
    rw [List.getElem_concat_length rfl, List.set_eq_of_length_le (Nat.le_refl _)]
    exact List.perm_append_singleton ..

namespace FwPool

variable {α : Type} {pool : FwPool α} {xs : List α}

/-- **What a pool in order is**: the items are a list, its length is `Used`, and
the array has exactly `Alloc` slots. -/
structure Holds (pool : FwPool α) (xs : List α) : Prop where
  /-- `Used` counts the items. -/
  used : pool.used = xs.length
  /-- There are no more of them than slots. -/
  room : pool.used ≤ pool.alloc
  /-- The array has as many slots as `Alloc` says. -/
  slots : pool.slots.length = pool.alloc
  /-- The items are in front, in order. -/
  items : pool.slots.take pool.used = xs.map some

/-- The slots below `Used` hold the items of the list. -/
private theorem getElem?_slots (h : pool.Holds xs) {i : Nat} (hi : i < xs.length) :
    pool.slots[i]? = some (some xs[i]) := by
  have taken : (pool.slots.take pool.used)[i]? = (xs.map some)[i]? := by rw [h.items]
  rw [List.getElem?_take_of_lt (by rw [h.used]; exact hi)] at taken
  rw [taken, List.getElem?_map, List.getElem?_eq_getElem hi, Option.map_some]

theorem load_eq (h : pool.Holds xs) {i : Nat} (hi : i < xs.length) : pool.load i = .ok xs[i] := by
  rw [load, getElem?_slots h hi]

/-- Any slot of the array is written without a fault. -/
theorem store_eq {i : Nat} (hi : i < pool.slots.length) (a : α) :
    pool.store i a = .ok { pool with items := some (pool.slots.set i (some a)) } :=
  if_pos hi

/-- Overwriting an item. -/
theorem holds_set (h : pool.Holds xs) {i : Nat} (hi : i < xs.length) (a : α) :
    ∃ pool', pool.store i a = .ok pool' ∧ pool'.Holds (xs.set i a) := by
  have used := h.used
  have room := h.room
  have slots := h.slots
  refine ⟨_, store_eq (by omega) a, by simp [used], room, by simpa [FwPool.slots] using slots, ?_⟩
  show List.take pool.used (pool.slots.set i (some a)) = _
  rw [List.take_set, h.items, List.map_set]

/-- Growing keeps the items and makes room for one more. -/
private theorem holds_grow (h : pool.Holds xs) {granted : Bool} {pool' : FwPool α}
    (grown : pool.grow granted = some pool') :
    pool'.Holds xs ∧ pool'.used < pool'.alloc := by
  simp only [grow] at grown
  split_ifs at grown
  cases grown
  have room := h.room
  have slots := h.slots
  refine ⟨⟨h.used, ?_, ?_, ?_⟩, ?_⟩
  · exact Nat.le_add_right_of_le room
  · simp [FwPool.slots, ← slots]
  · show List.take pool.used (pool.slots ++ _) = _
    rw [List.take_append_of_le_length (by omega), h.items]
  · exact Nat.lt_of_le_of_lt room (Nat.lt_add_of_pos_right (by decide))

/-- Storing behind the last item appends. -/
private theorem holds_append (h : pool.Holds xs) (room : pool.used < pool.alloc) (a : α) :
    ({ pool with
      items := some (pool.slots.set pool.used (some a))
      used := pool.used + 1 } : FwPool α).Holds (xs ++ [a]) := by
  have slots := h.slots
  refine ⟨by simp [h.used], room, by simp [FwPool.slots, ← slots], ?_⟩
  show List.take (pool.used + 1) (pool.slots.set pool.used (some a)) = _
  rw [List.take_set, List.take_add_one, h.items, List.getElem?_eq_getElem (by omega)]
  simp [h.used]

/-! Emptying a pool slot by slot: the items in front of an index are `NULL`. -/

section Emptied

variable {β : Type} {items more : List (Option β)} {i : Nat}
  (emptied : ∀ j < i, ∀ item, items[j]? = some item → item = none)

include emptied

/-- One more slot had no item. -/
theorem emptied_succ (here : items[i]? = some none) :
    ∀ j < i + 1, ∀ item, items[j]? = some item → item = none := by
  intro j lt item eq
  rcases Nat.lt_succ_iff_lt_or_eq.mp lt with lt | rfl
  · exact emptied j lt item eq
  · exact (Option.some.inj (here.symm.trans eq)).symm

/-- One more slot is overwritten, of a pool to which items have been appended meanwhile. -/
theorem emptied_set (bound : i < items.length) :
    ∀ j < i + 1, ∀ item, ((items ++ more).set i none)[j]? = some item → item = none := by
  intro j lt item eq
  rcases Nat.lt_succ_iff_lt_or_eq.mp lt with lt | rfl
  · rw [List.getElem?_set_ne (by omega), List.getElem?_append_left (by omega)] at eq
    exact emptied j lt item eq
  · rw [List.getElem?_set_self (by rw [List.length_append]; omega)] at eq
    exact (Option.some.inj eq).symm

/-- When all slots were gone through there is nothing left. -/
theorem reduceOption_of_emptied (all : items.length ≤ i) : items.reduceOption = [] := by
  rw [List.eq_nil_iff_forall_not_mem]
  intro b mem
  obtain ⟨j, eq⟩ := List.getElem?_of_mem (List.reduceOption_mem_iff.mp mem)
  have lt := (List.getElem?_eq_some_iff.mp eq).1
  cases emptied j (by omega) _ eq

end Emptied

end FwPool

section Specification

variable {α : Type} {pool : FwPool α} {xs : List α}

/-- A full pool whose growth is refused. -/
def FwPool.Refused (granted : Bool) (pool : FwPool α) : Prop :=
  pool.IsFull ∧ pool.grow granted = none

instance (granted : Bool) (pool : FwPool α) : Decidable (pool.Refused granted) :=
  decidable_of_iff (pool.IsFull ∧ (pool.grow granted).isNone) (by simp [FwPool.Refused])

/-- A pool that is not full, or may grow, is not refused. -/
theorem FwPool.not_refused (granted : pool.IsFull → pool.alloc + poolAllocSize ≤ intMax) :
    ¬ pool.Refused true := by
  rintro ⟨full, none⟩
  rw [FwPool.grow, if_pos ⟨rfl, granted full⟩] at none
  cases none

/-- **`FwPoolAdd` appends** when there is room or room can be made. -/
theorem fwPoolAdd_eq (h : pool.Holds xs) {granted : Bool} (grows : ¬ pool.Refused granted)
    (item : α) :
    ∃ pool', fwPoolAdd granted item (some pool) = .ok (xs.length, some pool') ∧
      pool'.Holds (xs ++ [item]) := by
  obtain ⟨grown, isGrown, held, room⟩ :
      ∃ grown, (if pool.IsFull then (pool.grow granted).getD pool else pool) = grown ∧
        grown.Holds xs ∧ grown.used < grown.alloc := by
    by_cases full : pool.IsFull
    · cases hgrow : pool.grow granted with
      | none => exact absurd ⟨full, hgrow⟩ grows
      | some grown => exact ⟨grown, by rw [if_pos full]; rfl, FwPool.holds_grow h hgrow⟩
    · exact ⟨pool, if_neg full, h, Nat.not_le.mp full⟩
  have slots := held.slots
  refine ⟨_, ?_, FwPool.holds_append held room item⟩
  simp only [fwPoolAdd, isGrown]
  rw [if_pos (Nat.le_of_lt room), FwPool.store_eq (by omega)]
  simp [Except.map, held.used]

/-- **`FwPoolAdd` on a full pool that cannot grow** stores behind the array: the
test is `Used<=Alloc`. -/
theorem fwPoolAdd_refused (h : pool.Holds xs) {granted : Bool} (refused : pool.Refused granted)
    (item : α) : fwPoolAdd granted item (some pool) = .error (.outOfBounds pool.used) := by
  obtain ⟨full, none⟩ := refused
  have slots := h.slots
  have overrun : ¬ pool.used < pool.slots.length := by
    rw [slots]
    exact Nat.not_lt.mpr full
  simp only [fwPoolAdd, if_pos full, none, Option.getD_none]
  rw [if_pos h.room, FwPool.store, if_neg overrun]
  rfl

theorem fwPoolGet_eq (h : pool.Holds xs) (i : Nat) : fwPoolGet (some pool) i = .ok xs[i]? := by
  have used := h.used
  simp only [fwPoolGet]
  split_ifs with valid
  · have hi : i < xs.length := by omega
    rw [Int.toNat_natCast, FwPool.load_eq h hi, List.getElem?_eq_getElem hi]
    rfl
  · rw [List.getElem?_eq_none (by omega)]

/-- And NULL at an index where there is none, a negative one included. -/
theorem fwPoolGet_invalid (h : pool.Holds xs) {index : Int}
    (invalid : index < 0 ∨ xs.length ≤ index) : fwPoolGet (some pool) index = .ok none := by
  have used := h.used
  exact if_neg (by omega)

/-- **`FwPoolRemove` moves the last item over the removed one.** -/
theorem fwPoolRemove_eq (h : pool.Holds xs) {i : Nat} (hi : i < xs.length) :
    ∃ pool', fwPoolRemove i (some pool) = .ok (1, some pool') ∧ pool'.Holds (swapRemove xs i) := by
  have used := h.used
  have room := h.room
  have slots := h.slots
  have last : pool.used - 1 < xs.length := by omega
  have removed : swapRemove xs i = (xs.set i xs[pool.used - 1]).take (pool.used - 1) := by
    have getLast : xs.getLast? = some xs[pool.used - 1] := by
      rw [List.getLast?_eq_getElem?, List.getElem?_eq_getElem (by omega)]
      simp only [used]
    rw [swapRemove, getLast]
    simp only [List.dropLast_eq_take, List.length_set, used]
  have length : (swapRemove xs i).length = pool.used - 1 := by
    rw [removed, List.length_take, List.length_set]
    omega
  have kept : List.take (pool.used - 1) pool.slots = List.take (pool.used - 1) (xs.map some) := by
    rw [← h.items, List.take_take, Nat.min_eq_left (Nat.sub_le _ _)]
  simp only [fwPoolRemove]
  rw [if_pos (by omega)]
  split_ifs with inner
  · have load : FwPool.load { pool with used := pool.used - 1 } (pool.used - 1) =
        .ok xs[pool.used - 1] := FwPool.load_eq h last
    rw [load, Int.toNat_natCast]
    simp only [bind, Except.bind]
    rw [FwPool.store_eq (by show i < pool.slots.length; omega)]
    refine ⟨_, rfl, length.symm, by simp only; omega, by simpa [FwPool.slots] using slots, ?_⟩
    show List.take (pool.used - 1) (pool.slots.set i (some xs[pool.used - 1])) = _
    rw [List.take_set, kept, removed, List.map_take, List.map_set, List.take_set]
  · have same : xs.set i xs[pool.used - 1] = xs := by
      have : i = pool.used - 1 := by omega
      subst this
      exact List.set_getElem_self last
    refine ⟨_, rfl, length.symm, by simp only; omega, slots, ?_⟩
    show List.take (pool.used - 1) pool.slots = _
    rw [kept, removed, same, List.map_take]

/-- `FwPoolRemove` at such an index does nothing and says so. -/
theorem fwPoolRemove_invalid (h : pool.Holds xs) {index : Int}
    (invalid : index < 0 ∨ xs.length ≤ index) :
    fwPoolRemove index (some pool) = .ok (0, some pool) := by
  have used := h.used
  exact if_neg (by omega)

/-- The loop of `FwPoolFindClosed` from the `i`-th item on. The induction is on how many
items are left. -/
private theorem findClosedFrom_eq (h : pool.Holds xs) {closed : α → Except Fault Bool}
    {isClosed : α → Bool} (reads : ∀ a ∈ xs, closed a = .ok (isClosed a)) (n i : Nat)
    (len : i + n = xs.length) :
    findClosedFrom closed pool n i =
      .ok (((xs.drop i).findIdx? isClosed).elim (-1) fun k => (i + k : Nat)) := by
  induction n generalizing i with
  | zero =>
      rw [List.drop_eq_nil_of_le (by omega)]
      rfl
  | succ n ih =>
      have hi : i < xs.length := by omega
      rw [findClosedFrom, FwPool.load_eq h hi, List.drop_eq_getElem_cons hi, List.findIdx?_cons]
      simp only [bind, Except.bind, reads _ (List.getElem_mem hi)]
      cases isClosed xs[i] with
      | true => rfl
      | false =>
          rw [if_neg Bool.false_ne_true, if_neg Bool.false_ne_true, ih (i + 1) (by omega)]
          cases (xs.drop (i + 1)).findIdx? isClosed with
          | none => rfl
          | some k => simp [Nat.add_assoc, Int.add_comm 1]

/-- **`FwPoolFindClosed` finds the first closed item.** -/
theorem fwPoolFindClosed_eq (h : pool.Holds xs) {closed : α → Except Fault Bool}
    {isClosed : α → Bool} (reads : ∀ a ∈ xs, closed a = .ok (isClosed a)) :
    fwPoolFindClosed closed (some pool) =
      .ok ((xs.findIdx? isClosed).elim (-1) fun k => (k : Nat)) := by
  have found := findClosedFrom_eq h reads pool.used 0 (by rw [h.used, Nat.zero_add])
  simpa [fwPoolFindClosed] using found

/-! What is known of any pool where a function has returned. -/

theorem FwPool.load_of_grow {granted : Bool} {pool' : FwPool α} {k : Nat} {a : α}
    (grown : pool.grow granted = some pool') (loaded : pool'.load k = .ok a) :
    pool'.used = pool.used ∧ pool.load k = .ok a := by
  simp only [FwPool.grow] at grown
  split_ifs at grown
  cases grown
  refine ⟨rfl, ?_⟩
  unfold FwPool.load at loaded ⊢
  simp only [FwPool.slots, Option.getD_some, List.getElem?_append] at loaded ⊢
  split_ifs at loaded
  · exact loaded
  · rw [List.getElem?_replicate] at loaded
    split_ifs at loaded

theorem FwPool.store_inv {pool' : FwPool α} {i : Nat} {a : α}
    (stored : pool.store i a = .ok pool') :
    pool' = { pool with items := some (pool.slots.set i (some a)) } := by
  unfold FwPool.store at stored
  split_ifs at stored
  exact (Except.ok.inj stored).symm

/-- What is read after a write is what was written, or what was there. -/
theorem FwPool.load_of_set {k i : Nat} {a b : α}
    (loaded : FwPool.load { pool with items := some (pool.slots.set i (some a)) } k = .ok b) :
    k = i ∧ b = a ∨ k ≠ i ∧ pool.load k = .ok b := by
  unfold FwPool.load at loaded ⊢
  simp only [FwPool.slots, Option.getD_some, List.getElem?_set] at loaded ⊢
  split_ifs at loaded with same inside
  · exact .inl ⟨same.symm, (Except.ok.inj loaded).symm⟩
  · exact .inr ⟨Ne.symm same, loaded⟩

/-- What `FwPoolAdd` has written. -/
theorem fwPoolAdd_inv {granted : Bool} {item : α} {index : Int} {contents : Option (FwPool α)}
    (added : fwPoolAdd granted item (some pool) = .ok (index, contents)) :
    ∃ pool', contents = some pool' ∧ ∀ k a, k < pool'.used → pool'.load k = .ok a →
      index ≠ -1 ∧ a = item ∨ k < pool.used ∧ pool.load k = .ok a := by
  simp only [fwPoolAdd] at added
  obtain ⟨grown, eq, used, loads⟩ : ∃ grown,
      (if pool.IsFull then (pool.grow granted).getD pool else pool) = grown ∧
        grown.used = pool.used ∧ ∀ k a, grown.load k = .ok a → pool.load k = .ok a := by
    by_cases full : pool.IsFull
    · rw [if_pos full]
      cases grow : pool.grow granted with
      | none => exact ⟨pool, rfl, rfl, fun _ _ loaded => loaded⟩
      | some grown =>
          refine ⟨grown, rfl, ?_, fun k a loaded => (FwPool.load_of_grow grow loaded).2⟩
          simp only [FwPool.grow] at grow
          split_ifs at grow
          cases grow
          rfl
    · exact ⟨pool, if_neg full, rfl, fun _ _ loaded => loaded⟩
  rw [eq] at added
  by_cases room : grown.used ≤ grown.alloc
  · rw [if_pos room] at added
    cases store : grown.store grown.used item with
    | error _ =>
        rw [store] at added
        cases added
    | ok stored =>
        rw [store] at added
        cases added
        refine ⟨_, rfl, ?_⟩
        intro k a lt loaded
        rw [FwPool.store_inv store] at loaded
        have below : k < grown.used + 1 := lt
        rcases FwPool.load_of_set loaded with ⟨-, rfl⟩ | ⟨inner, loaded⟩
        · exact .inl ⟨by omega, rfl⟩
        · exact .inr ⟨by omega, loads k a loaded⟩
  · rw [if_neg room] at added
    cases added
    refine ⟨grown, rfl, ?_⟩
    intro k a lt loaded
    exact .inr ⟨used ▸ lt, loads k a loaded⟩

/-- A new pool is empty. -/
theorem FwPool.holds_of_init {granted : Bool} (init : fwPoolInit granted = some pool) :
    pool.Holds [] := by
  unfold fwPoolInit at init
  split_ifs at init
  cases init
  exact ⟨rfl, Nat.le_refl _, rfl, rfl⟩

theorem fwPoolAdd_some {granted : Bool} {item : α} {index : Int} {contents : Option (FwPool α)}
    (added : fwPoolAdd granted item (some pool) = .ok (index, contents)) :
    ∃ pool', contents = some pool' := by
  obtain ⟨pool', eq, -⟩ := fwPoolAdd_inv added
  exact ⟨pool', eq⟩

/-- What `FwPoolRemove` has left. -/
private theorem fwPoolRemove_inv {index removed : Int} {contents : Option (FwPool α)}
    (eq : fwPoolRemove index (some pool) = .ok (removed, contents)) :
    ∃ pool', contents = some pool' ∧ ∀ k a, k < pool'.used → pool'.load k = .ok a →
      ∃ j < pool.used, pool.load j = .ok a := by
  simp only [fwPoolRemove] at eq
  split_ifs at eq with valid inner
  · cases load : FwPool.load { pool with used := pool.used - 1 } (pool.used - 1) with
    | error _ =>
        rw [load] at eq
        cases eq
    | ok last =>
        rw [load] at eq
        cases store : FwPool.store { pool with used := pool.used - 1 } index.toNat last with
        | error _ =>
            simp only [bind, Except.bind, store] at eq
            cases eq
        | ok stored =>
            simp only [bind, Except.bind, store] at eq
            cases eq
            refine ⟨stored, rfl, ?_⟩
            rw [FwPool.store_inv store]
            intro k a lt loaded
            rcases FwPool.load_of_set loaded with ⟨-, rfl⟩ | ⟨-, loaded⟩
            · exact ⟨pool.used - 1, by omega, load⟩
            · exact ⟨k, Nat.lt_of_lt_of_le lt (Nat.sub_le _ _), loaded⟩
  · cases eq
    exact ⟨_, rfl, fun k a lt loaded => ⟨k, Nat.lt_of_lt_of_le lt (Nat.sub_le _ _), loaded⟩⟩
  · cases eq
    exact ⟨_, rfl, fun k a lt loaded => ⟨k, lt, loaded⟩⟩

theorem fwPoolRemove_some {index removed : Int} {contents : Option (FwPool α)}
    (eq : fwPoolRemove index (some pool) = .ok (removed, contents)) :
    ∃ pool', contents = some pool' := by
  obtain ⟨pool', same, -⟩ := fwPoolRemove_inv eq
  exact ⟨pool', same⟩

/-- What the search of `FwPoolFindClosed` has read. -/
theorem findClosedFrom_read {closed : α → Except Fault Bool} {n i : Nat} {index : Int}
    (found : findClosedFrom closed pool n i = .ok index) :
    (index < 0 ∧ ∀ k, i ≤ k → k < i + n → ∃ a, pool.load k = .ok a ∧ closed a = .ok false) ∨
      ∃ k a, index = (k : Nat) ∧ k < i + n ∧ pool.load k = .ok a ∧ closed a = .ok true := by
  induction n generalizing i with
  | zero =>
      cases found
      exact .inl ⟨by decide, fun k le lt => absurd lt (Nat.not_lt.mpr le)⟩
  | succ n ih =>
      cases load : pool.load i with
      | error _ =>
          rw [findClosedFrom, load] at found
          cases found
      | ok a =>
          cases answer : closed a with
          | error _ =>
              rw [findClosedFrom, load] at found
              simp only [bind, Except.bind, answer] at found
              cases found
          | ok isClosed =>
              rw [findClosedFrom, load] at found
              simp only [bind, Except.bind, answer] at found
              cases isClosed with
              | true =>
                  cases found
                  exact .inr ⟨i, a, rfl, by omega, load, answer⟩
              | false =>
                  rcases ih found with ⟨neg, rest⟩ | ⟨k, b, eq, lt, loaded, isClosed⟩
                  · refine .inl ⟨neg, ?_⟩
                    intro k le lt
                    rcases Nat.eq_or_lt_of_le le with rfl | above
                    · exact ⟨a, load, answer⟩
                    · exact rest k above (by omega)
                  · exact .inr ⟨k, b, eq, by omega, loaded, isClosed⟩

end Specification

/-! ## Sequences of calls

A machine whose actions are calls.  Whether `realloc` grants a growth is part of the call,
so a statement about all sequences is one about all allocators. -/

/-- A call of one of the pool functions; `closed` says which items are closed. -/
inductive PoolCall (α : Type) where
  /-- `FwPoolInit`, with memory for the items or without. -/
  | init (granted : Bool)
  /-- `FwPoolCount`. -/
  | count
  /-- `FwPoolGet`. -/
  | get (index : Int)
  /-- `FwPoolAdd`, with memory for a full pool to grow or without. -/
  | add (granted : Bool) (item : α)
  /-- `FwPoolRemove`. -/
  | remove (index : Int)
  /-- `FwPoolFindClosed`. -/
  | findClosed (closed : α → Bool)

/-- What a call returns. -/
inductive PoolAnswer (α : Type) where
  /-- Nothing, but for `FwPoolInit`. -/
  | done
  /-- An index, a count, or whether it worked. -/
  | index (i : Int)
  /-- What `FwPoolGet` returns. -/
  | item (a : Option α)
  deriving DecidableEq

namespace PoolCall

variable {α : Type}

/-- A call on the pool the pointer designates; `FwPoolInit` makes it designate
the new pool. -/
def run (pool : Option (FwPool α)) : PoolCall α →
    Except Fault (PoolAnswer α × Option (FwPool α))
  | init granted => .ok (.done, fwPoolInit granted)
  | count => .ok (.index (fwPoolCount pool), pool)
  | get index => (fwPoolGet pool index).map fun a => (.item a, pool)
  | add granted item => (fwPoolAdd granted item pool).map fun r => (.index r.1, r.2)
  | remove index => (fwPoolRemove index pool).map fun r => (.index r.1, r.2)
  | findClosed closed =>
      (fwPoolFindClosed (fun a => .ok (closed a)) pool).map fun i => (.index i, pool)

/-- `FwPoolAdd` finds its pool full and `realloc` does not grow it. -/
def GrowthRefused (pool : Option (FwPool α)) : PoolCall α → Prop
  | add granted _ => ∃ p, pool = some p ∧ p.Refused granted
  | _ => False

end PoolCall

/-- `Used` is at most `Alloc` and `Items` has exactly `Alloc` slots. -/
def FwPool.Bounded {α : Type} (pool : FwPool α) : Prop :=
  pool.used ≤ pool.alloc ∧ pool.slots.length = pool.alloc

/-- What is asked of a call: it touches no slot outside the array, leaves the
pool within its bounds, and if it is an addition whose growth is refused it
returns `-1` and changes nothing. -/
def PoolCall.KeepsBounds {α : Type} (pool : Option (FwPool α)) (call : PoolCall α) : Prop :=
  ∃ answer pool', call.run pool = .ok (answer, pool') ∧ (∀ p, pool' = some p → p.Bounded) ∧
    (call.GrowthRefused pool → answer = .index (-1) ∧ pool' = pool)

/-- Calls one after another, on a pool pointer that starts as `NULL`.  After a
fault there is no next call. -/
def poolMachine (α : Type) : Machine (Except Fault (Option (FwPool α))) (PoolCall α) where
  init := .ok none
  step pool call :=
    match pool with
    | .error _ => none
    | .ok pool => some ((call.run pool).map Prod.snd)

/-- A pool pointer in order: `NULL`, or a pool that holds some list. -/
def PoolOk {α : Type} (pool : Option (FwPool α)) : Prop :=
  ∀ p, pool = some p → ∃ xs, p.Holds xs

theorem FwPool.Holds.bounded {α : Type} {pool : FwPool α} {xs : List α} (h : pool.Holds xs) :
    pool.Bounded :=
  ⟨h.room, h.slots⟩

section Runs

variable {α : Type} {pool : Option (FwPool α)}

theorem poolOk_none : PoolOk (none : Option (FwPool α)) := nofun

theorem poolOk_some {p : FwPool α} {xs : List α} (h : p.Holds xs) : PoolOk (some p) := by
  rintro q ⟨⟩
  exact ⟨xs, h⟩

/-- **One call keeps a pool in order** unless its growth is refused. -/
theorem run_eq_ok {call : PoolCall α} (ok : PoolOk pool) (grows : ¬ call.GrowthRefused pool) :
    ∃ answer pool', call.run pool = .ok (answer, pool') ∧ PoolOk pool' := by
  cases call with
  | init granted =>
      refine ⟨_, _, rfl, ?_⟩
      cases granted
      · exact poolOk_none
      · exact poolOk_some (⟨rfl, Nat.le_refl _, rfl, rfl⟩ : FwPool.Holds _ [])
  | count => exact ⟨_, _, rfl, ok⟩
  | get index =>
      obtain _ | p := pool
      · exact ⟨_, _, rfl, ok⟩
      obtain ⟨xs, h⟩ := ok p rfl
      obtain ⟨a, read⟩ : ∃ a, fwPoolGet (some p) index = .ok a := by
        by_cases valid : 0 ≤ index
        · obtain ⟨i, rfl⟩ := Int.eq_ofNat_of_zero_le valid
          exact ⟨_, fwPoolGet_eq h i⟩
        · exact ⟨_, fwPoolGet_invalid h (.inl (Int.not_le.mp valid))⟩
      exact ⟨_, _, by rw [PoolCall.run, read]; rfl, ok⟩
  | add granted item =>
      obtain _ | p := pool
      · exact ⟨_, _, rfl, ok⟩
      obtain ⟨xs, h⟩ := ok p rfl
      obtain ⟨p', added, held⟩ :=
        fwPoolAdd_eq h (fun refused => grows ⟨p, rfl, refused⟩) item
      exact ⟨_, _, by rw [PoolCall.run, added]; rfl, poolOk_some held⟩
  | remove index =>
      obtain _ | p := pool
      · exact ⟨_, _, rfl, ok⟩
      obtain ⟨xs, h⟩ := ok p rfl
      by_cases invalid : index < 0 ∨ xs.length ≤ index
      · exact ⟨_, _, by rw [PoolCall.run, fwPoolRemove_invalid h invalid]; rfl, ok⟩
      · obtain ⟨i, rfl⟩ := Int.eq_ofNat_of_zero_le (a := index) (by omega)
        obtain ⟨p', removed, held⟩ := fwPoolRemove_eq h (i := i) (by omega)
        exact ⟨_, _, by rw [PoolCall.run, removed]; rfl, poolOk_some held⟩
  | findClosed closed =>
      obtain _ | p := pool
      · exact ⟨_, _, rfl, ok⟩
      obtain ⟨xs, h⟩ := ok p rfl
      have found := fwPoolFindClosed_eq h (fun a _ => (rfl : Except.ok (closed a) = _))
      exact ⟨_, _, by rw [PoolCall.run, found]; rfl, ok⟩

/-- **A refused growth faults**: the item is stored behind the array. -/
theorem run_eq_error {call : PoolCall α} (ok : PoolOk pool) (refused : call.GrowthRefused pool) :
    ∃ fault, call.run pool = .error fault := by
  cases call with
  | add granted item =>
      obtain ⟨p, rfl, full⟩ := refused
      obtain ⟨xs, h⟩ := ok p rfl
      exact ⟨_, by rw [PoolCall.run, fwPoolAdd_refused h full]; rfl⟩
  | _ => exact refused.elim

/-- **One call** on a pool in order keeps the bounds exactly if it is no addition whose
growth is refused. -/
private theorem keepsBounds_iff {call : PoolCall α} (ok : PoolOk pool) :
    call.KeepsBounds pool ↔ ¬ call.GrowthRefused pool := by
  constructor
  · rintro ⟨answer, pool', run, -⟩ refused
    obtain ⟨fault, run'⟩ := run_eq_error ok refused
    rw [run] at run'
    cases run'
  · intro grows
    obtain ⟨answer, pool', run, ok'⟩ := run_eq_ok ok grows
    refine ⟨answer, pool', run, fun p hp => ?_, fun refused => absurd refused grows⟩
    obtain ⟨xs, h⟩ := ok' p hp
    exact h.bounded

/-- Wherever a sequence of calls stands, the pool is in order or a fault has
happened. -/
theorem poolOk_of_mem_transitions {calls : List (PoolCall α)} {t}
    (mem : t ∈ (poolMachine α).transitions calls) (before : t.1 = .ok pool) : PoolOk pool := by
  have inv := (Machine.inv_of_mem_transitions (m := poolMachine α)
    (P := fun s => ∀ pool, s = .ok pool → PoolOk pool) ?_ ?_ mem).1
  · exact inv pool before
  · rintro _ ⟨⟩
    exact poolOk_none
  · rintro s call s' inv step after rfl
    obtain _ | pool := s
    · cases step
    · simp only [poolMachine, Option.some.injEq] at step
      by_cases refused : call.GrowthRefused pool
      · obtain ⟨fault, run⟩ := run_eq_error (inv pool rfl) refused
        rw [run] at step
        cases step
      · obtain ⟨answer, pool', run, ok⟩ := run_eq_ok (inv pool rfl) refused
        rw [run] at step
        cases step
        exact ok

/-- **The pool's bounds under allocation failure.**  For every sequence of
calls, all of them keep the bounds exactly if no addition to a full pool has its
growth refused; where one has, it stores outside the array. -/
theorem boundsKept_iff (calls : List (PoolCall α)) :
    (∀ t ∈ (poolMachine α).transitions calls, ∀ pool, t.1 = .ok pool →
        t.2.1.KeepsBounds pool) ↔
      ∀ t ∈ (poolMachine α).transitions calls, ∀ pool, t.1 = .ok pool →
        ¬ t.2.1.GrowthRefused pool := by
  refine forall₂_congr fun t mem => forall₂_congr fun pool before => ?_
  exact keepsBounds_iff (poolOk_of_mem_transitions mem before)

end Runs

/-- The first addition ever made, and no memory: `Items` is still `NULL`. -/
theorem emptyPool_not_boundsKept :
    ¬ ∀ t ∈ (poolMachine Nat).transitions [.init true, .add false 7], ∀ pool, t.1 = .ok pool →
        t.2.1.KeepsBounds pool := by
  intro kept
  obtain ⟨answer, pool', run, -⟩ := kept _ (.tail _ (.head _)) _ rfl
  cases run

end HaasProxy
