import Mathlib.Logic.Function.Basic

/-!
# Faults and heaps

`Fault` is what a C program does instead of returning: it reads or writes where
it has no object.  A `Heap` hands out addresses that were never used before, so
a pointer that outlives its object is told apart from every later pointer, and
reading through it is a fault.

The rules are the usual ones: `load_alloc_self`, `load_store_self` and
`load_free_self` say what an operation does at its own address, the `_of_ne`
rules that it does nothing elsewhere.

## Design notes

A real allocator uses addresses again, so a program with a dangling pointer may
read another object there instead of faulting.  Here it faults, always.  This is
the stricter reading: a program that is shown to have no fault has no dangling
read in any allocator, and what it does cannot depend on which addresses it got.

`store` at an address without an object changes nothing, and `load` there is the
fault.  Programs read an object before they overwrite a part of it, so they fault
before they could store.
-/

namespace HaasProxy

universe u

/-- What goes wrong in C without a return value. -/
inductive Fault where
  /-- An element outside its array. -/
  | outOfBounds (index : Nat)
  /-- An element that was never written. -/
  | uninitialised (index : Nat)
  /-- An object behind a null pointer. -/
  | nullPointer
  /-- An object that was freed. -/
  | useAfterFree
  deriving DecidableEq, Repr

/-- Objects by address; addresses from `next` on were never handed out. -/
@[ext]
structure Heap (α : Type u) where
  next : Nat
  cell : Nat → Option α
  fresh : ∀ p, next ≤ p → cell p = none

namespace Heap

variable {α : Type u} (h : Heap α) {p q : Nat} {a : α}

/-- Nothing is allocated yet. -/
def empty : Heap α := ⟨0, fun _ => none, fun _ _ => rfl⟩

/-- The heap after a new object was put at `h.next`. -/
def alloc (a : α) : Heap α where
  next := h.next + 1
  cell := Function.update h.cell h.next (some a)
  fresh p hp := by
    rw [Function.update_of_ne (by omega)]
    exact h.fresh p (by omega)

/-- The object at an address. -/
def load (p : Nat) : Except Fault α :=
  match h.cell p with
  | none => .error .useAfterFree
  | some a => .ok a

/-- Overwrite the object at an address, if there is one. -/
def store (p : Nat) (a : α) : Heap α where
  next := h.next
  cell := if (h.cell p).isSome then Function.update h.cell p (some a) else h.cell
  fresh q hq := by
    split
    · rename_i some
      have below : q ≠ p := by
        rintro rfl
        rw [h.fresh q hq] at some
        cases some
      rw [Function.update_of_ne below]
      exact h.fresh q hq
    · exact h.fresh q hq

/-- Give an object back. -/
def free (p : Nat) : Heap α where
  next := h.next
  cell := Function.update h.cell p none
  fresh q hq := by
    by_cases same : q = p
    · rw [same, Function.update_self]
    · rw [Function.update_of_ne same]
      exact h.fresh q hq

theorem lt_next_of_cell (ha : h.cell p = some a) : p < h.next := by
  by_contra above
  rw [h.fresh p (Nat.not_lt.mp above)] at ha
  cases ha

@[simp] theorem cell_empty (p : Nat) : (empty : Heap α).cell p = none := rfl

@[simp] theorem next_alloc : (h.alloc a).next = h.next + 1 := rfl

@[simp] theorem next_store : (h.store p a).next = h.next := rfl

/-- Freeing does not take one back, so it is never used again. -/
@[simp] theorem next_free : (h.free p).next = h.next := rfl

@[simp] theorem cell_alloc_self : (h.alloc a).cell h.next = some a :=
  Function.update_self ..

theorem cell_alloc_of_ne (ne : q ≠ h.next) : (h.alloc a).cell q = h.cell q :=
  Function.update_of_ne ne ..

theorem cell_store_self {b : α} (hb : h.cell p = some b) : (h.store p a).cell p = some a := by
  simp [store, hb]

theorem cell_store_of_ne (ne : q ≠ p) : (h.store p a).cell q = h.cell q := by
  unfold store
  split
  · exact Function.update_of_ne ne ..
  · rfl

/-- Nothing is put where there is no object. -/
theorem cell_store_of_none (gone : h.cell q = none) : (h.store p a).cell q = none := by
  by_cases same : q = p
  · subst same
    simp [store, gone]
  · rw [cell_store_of_ne h same, gone]

@[simp] theorem cell_free_self : (h.free p).cell p = none := Function.update_self ..

theorem cell_free_of_ne (ne : q ≠ p) : (h.free p).cell q = h.cell q :=
  Function.update_of_ne ne ..

/-- What was just allocated is overwritten. -/
@[simp] theorem store_alloc (b : α) : (h.alloc a).store h.next b = h.alloc b := by
  ext1
  · rfl
  · funext q
    by_cases same : q = h.next
    · rw [same, cell_store_self _ h.cell_alloc_self, cell_alloc_self]
    · rw [cell_store_of_ne _ same, cell_alloc_of_ne _ same, cell_alloc_of_ne _ same]

theorem load_of_cell (ha : h.cell p = some a) : h.load p = .ok a := by
  rw [load, ha]

/-- What can be read from a pointer is what its cell holds. -/
theorem cell_of_load (loaded : h.load p = .ok a) : h.cell p = some a := by
  rw [load] at loaded
  cases cell : h.cell p with
  | none =>
      rw [cell] at loaded
      cases loaded
  | some b =>
      rw [cell] at loaded
      cases loaded
      rfl

end Heap

end HaasProxy
