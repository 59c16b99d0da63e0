import HaasProxy.SessionState

/-!
# No channel before authentication

A client is given a channel by `TrapNewChannel`, or by `TrapMessageCallback` when
it asks for a direct forward.  Neither tests `Authenticated`.  The first one, and
the second one in `ALLOW` mode, need a channel of the backend, and there is none
before a password was accepted.  In the other modes the second one accepts at
once, and `Entry.Premature` says when that is too early.

## Design notes

The protection is indirect.  `ssh_channel_new` is called with `Context->HaasSession`, and
libssh answers `NULL` for a session that is `NULL`; so no channel of the backend, and with
it no channel for the client.  `Consistent` in `HaasProxy.SessionState` says that a
backend session is there exactly if the client is authenticated, which turns the one
into the other.

In the modes that accept without the backend nothing of the kind is in the way.  The condition
is about requests that arrive without authentication in those modes, hence about what the
client sends; it does not mention what becomes of them.
-/

namespace HaasProxy

/-- The client is given a channel: a request for a direct forward is accepted, or
`TrapNewChannel` returns a channel. -/
def Entry.Admits (e : Entry) : Prop :=
  e.action = .call .openReplyAccept ∨ e.action = .leave .newChannel ∧ e.answer ≠ 0

instance (e : Entry) : Decidable e.Admits := inferInstanceAs (Decidable (_ ∨ _ ∧ ¬ _))

/-- A request for a direct forward arrives. -/
def Interaction.opensForward : Interaction → Bool
  | .enter (.trapMessage (some (.directTcpip ..))) => true
  | _ => false

/-- A direct forward is requested without authentication, and the backend is not
asked for a channel to accept it. -/
def Entry.Premature (w : World) (e : Entry) : Prop :=
  w.config.forwardMode ≠ some .allow ∧ w.config.forwardMode ≠ some .deny ∧
    e.before.context.authenticated = false ∧ e.action.opensForward = true

instance (w : World) (e : Entry) : Decidable (e.Premature w) :=
  inferInstanceAs (Decidable (¬ _ ∧ ¬ _ ∧ _ = false ∧ _ = true))

section Steps

variable {w : World} {serial : Prop} {h l : List Entry} {s s' : Proxy}

/-- Where a direct forward may be accepted, the client is authenticated. -/
theorem authenticated_of_acceptable (kept : Kept h s) (timely : ∀ e ∈ h, ¬ e.Premature w)
    (acceptable : Acceptable w h s.context) : s.context.authenticated = true := by
  rcases acceptable with ⟨-, e, mem, set⟩ | ⟨notAllow, notDeny, e, mem, arrival, same⟩
  · exact kept.consistent.authenticated.mpr (kept.stays e mem set)
  · obtain ⟨originator, originatorPort, destination, destinationPort, enter⟩ := arrival
    by_contra no
    refine timely e mem ⟨notAllow, notDeny, ?_, ?_⟩
    · rw [same]
      exact eq_false_of_ne_true no
    · rw [enter]
      rfl

/-- **The step.** What admits a client stands behind a login, since the requests that
come before it are excluded by the condition. -/
private theorem admits_advance (kept : Kept h s) (timely : ∀ e ∈ h, ¬ e.Premature w)
    (advance : Advance w serial h s l s') :
    ∀ e ∈ l, e.Admits → e.before.context.authenticated = true := by
  intro e mem admits
  have warranted := warranted advance e mem
  obtain ⟨consistent, -⟩ := kept.within (within_of_advance advance e mem)
  rcases admits with accept | ⟨leave, channel⟩
  · simp only [Warranted, accept] at warranted
    obtain ⟨acceptable, before⟩ := warranted
    rw [before]
    show s.context.authenticated = true
    exact authenticated_of_acceptable kept timely acceptable
  · simp only [Warranted, leave] at warranted
    rcases warranted with ⟨answered, -⟩ | ⟨ch, event, no⟩
    · have haasChannel := consistent.channels.mp (answered channel)
      exact consistent.authenticated.mpr (consistent.session haasChannel)
    · cases no

end Steps

/-- **No channel before authentication**, in every run in which direct forwards are not
requested too early. A session channel, and a forward in `ALLOW` mode, need a channel of
the backend, and there is none before a password was accepted. In the other modes
`TrapMessageCallback` accepts at once, and it is these requests that the condition is
about. -/
theorem authenticated_of_admits (w : World) (fuel depth : Nat)
    (timely : ∀ e ∈ (proxyRun w fuel depth).log, ¬ e.Premature w) :
    ∀ e ∈ (proxyRun w fuel depth).log, e.Admits → e.before.context.authenticated = true := by
  refine ((path_proxyRun w fuel depth).restrict (A := fun e => ¬ e.Premature w)
    (by simpa using timely)).forall_entries (I := Kept) (fun h s l s' kept first => ⟨?_, ?_⟩)
    kept_initial
  · exact kept_advance kept first.1
  · exact admits_advance kept (fun e mem => first.2 e (List.mem_append_left l mem)) first.1

/-- A session in which the client logs in, opens a session channel and asks for a
forward in `ECHO` mode. -/
def loginThenForward : World :=
  .scripted .echo [(13, 2)] [(6, loginAndChannel ++ [requestForward])]

/-- The condition is met by a client that logs in and then asks for a forward. -/
theorem authenticated_loginThenForward :
    (∀ e ∈ (proxyRun loginThenForward 1 1).log, e.Admits →
      e.before.context.authenticated = true) ∧
    (∃ e ∈ (proxyRun loginThenForward 1 1).log, e.action = .call .openReplyAccept) ∧
    ∃ e ∈ (proxyRun loginThenForward 1 1).log, e.action = .leave .newChannel ∧ e.answer ≠ 0 :=
  ⟨authenticated_of_admits loginThenForward 1 1 (by decide +kernel), by decide +kernel⟩

/-- The first thing the client does is to ask for a forward. -/
def forwardFirst : World := .scripted .echo [] [(6, [requestForward])]

/-- The request is accepted, and the forward is set up. -/
theorem forwardFirst_admitted :
    (¬ ∀ e ∈ (proxyRun forwardFirst 1 1).log, e.Admits → e.before.context.authenticated = true) ∧
    (∃ e ∈ (proxyRun forwardFirst 1 1).log, e.action = .call .openReplyAccept ∧
      e.answer = sshOk ∧ e.before.context.authenticated = false) ∧
    ((proxyRun forwardFirst 1 1).state.context.haasSession = none) := by
  have accepted : ∃ e ∈ (proxyRun forwardFirst 1 1).log, e.action = .call .openReplyAccept ∧
      e.answer = sshOk ∧ e.before.context.authenticated = false := by decide +kernel
  refine ⟨fun kept => ?_, accepted, by decide +kernel⟩
  obtain ⟨e, mem, accept, -, unset⟩ := accepted
  exact Bool.false_ne_true (unset.symm.trans (kept e mem (.inl accept)))

end HaasProxy
