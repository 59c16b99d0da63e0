import Mathlib.Data.List.Basic

/-!
# Pipes that hold what was not accepted

Data arrives at one end of a pipe and is offered at the other, which may accept
less than it is offered.  What was not accepted is held and offered again.  A pipe
`Flows` if what has arrived is what was accepted and after it what is held, and it
`Passes` while it is not known yet what of the held data was accepted.

The two are needed because data is offered by a call that takes its time.  In front of
the call and behind its answer the pipe flows.  In between the receiver may have the
data already, while whoever holds it has not heard so; then only the order of the data
is known.
-/

namespace HaasProxy.Pipe

variable {α : Type} {received accepted held : List α}

/-- What has arrived is what was accepted, and after it what is held. -/
def Flows (received accepted held : List α) : Prop := received = accepted ++ held

/-- What has arrived is what was accepted, and after it data that is held still. -/
def Passes (received accepted held : List α) : Prop :=
  ∃ rest, received = accepted ++ rest ∧ rest <:+ held

theorem flows_unused : Flows held [] held := rfl

/-- More arrives. -/
theorem Flows.arrive (flows : Flows received accepted held) (bytes : List α) :
    Flows (received ++ bytes) accepted (held ++ bytes) := by
  unfold Flows at flows ⊢
  rw [flows, List.append_assoc]

/-- Some of it is accepted, and no longer held. -/
theorem Flows.pass (flows : Flows received accepted held) (n : Nat) :
    Flows received (accepted ++ held.take n) (held.drop n) := by
  unfold Flows at flows ⊢
  rw [List.append_assoc, List.take_append_drop, flows]

/-- Some of it was accepted just now. -/
theorem Flows.passing (flows : Flows received accepted held) (n : Nat) :
    Passes received (accepted ++ held.take n) held :=
  ⟨held.drop n, flows.pass n, List.drop_suffix n held⟩

theorem Flows.passes (flows : Flows received accepted held) : Passes received accepted held :=
  ⟨held, flows, List.suffix_refl held⟩

/-- Everything was accepted if nothing is held. -/
theorem Flows.accepted_eq_iff (flows : Flows received accepted held) :
    accepted = received ↔ held = [] := by
  unfold Flows at flows
  rw [flows, List.self_eq_append_right]

end HaasProxy.Pipe
