import HaasProxy.SessionState
import HaasProxy.Transitions.Channels

/-!
# One session of the backend

`HaasConnect` sets `Context->HaasSession` without looking whether it is set.
Everything that was obtained for the session before belongs to the old one from
then on, and nobody frees that any more.  Where the backend accepts one password
only, the session is the same one from the login to the teardown: `Backed` carries
that along a run, and `oneBackend_of_single` puts together what follows.

## Main definitions and results

* `Entry.Replaces` — a password is accepted while there is a session already;
* `OneSession` — what one session of the backend means for a run;
* `backed_advance` — the session stays;
* `belonging_advance` — what was obtained for it belongs to it;
* `returnedOnce_of_tornDown` — the teardown gives it back once;
* `oneSession_of_single` — the result.

## Design notes

**Sessions are numbers.**  `ssh_new` answers the next one, so a session that is obtained later
is another one.  That a session was not given back is said of its number, and
`Unreturned.fresh` says that numbers do not come again.

**What belongs to a session.**  A channel has the session it was obtained from for as long as
libssh keeps it.  It is never compared with the context again.  So the session of the
context and that of a channel agree because both are what they were when the channel was
obtained, and this is an invariant of the history.

**The teardown as a whole.**  That the session is given back exactly once is about the last
part of a run, in which the forwards, the session of the backend and that of the client are
given up one after another.  `Intact` is what is known up to there, and `TornDown` what
happens then.
-/

namespace HaasProxy

/-! ## What is to hold

Of an entry, of a state, and of a run. -/

/-- A try to log in at the backend. -/
def Interaction.logsIn : Interaction → Bool
  | .call (.userauthPassword ..) => true
  | _ => false

/-- The backend accepts a password while there is a session of it already. -/
def Entry.Replaces (e : Entry) : Prop :=
  e.action.logsIn = true ∧ e.answer = sshAuthSuccess ∧ e.before.context.haasSession ≠ none

instance (e : Entry) : Decidable e.Replaces := inferInstanceAs (Decidable (_ ∧ _))

/-- What is kept of the channel belongs to the session of the backend. -/
def Proxy.OfBackend (s : Proxy) (ch : ChannelId) : Prop :=
  ∀ c, s.channels.cell ch = some c → s.context.haasSession = some c.session

/-- `HaasChannel` and the channels to the destinations of the pairs in the pool
belong to the session of the backend. -/
structure Proxy.OneBackend (s : Proxy) : Prop where
  /-- The channel of the session. -/
  haasChannel : ∀ ch, s.context.haasChannel = some ch → s.OfBackend ch
  /-- The channels of the forwards. -/
  destiny : ∀ p ∈ s.items, ∀ pair, s.pairs.cell p = some pair →
    ∀ ch, pair.destiny.channel = some ch → s.OfBackend ch

/-- The states of a run in which something is logged, and the last one. -/
def Run.states (run : Run Entry Stop Proxy Unit) : List Proxy :=
  run.log.map (fun e => e.before) ++ [run.state]

/-- What was done, in the order it was. -/
def actions (l : List Entry) : List Interaction := l.map fun e => e.action

/-- **A run has one session of the backend**: it stays, what is the backend's
belongs to it, it is the session taken in and out of the event besides the
client's, and by the end it was disconnected and freed once. -/
structure OneSession (run : Run Entry Stop Proxy Unit) : Prop where
  /-- The session of the backend does not change once it is there. -/
  stays : run.states.Pairwise fun s s' => ∀ session,
    s.context.haasSession = some session → s'.context.haasSession = some session
  /-- What is the backend's belongs to it. -/
  belongs : ∀ s ∈ run.states, s.OneBackend
  /-- What is added to the event besides the client's session is what is removed. -/
  event : ∀ e ∈ run.log, ∀ e' ∈ run.log, ∀ session session',
    e.action = .call (.eventAddSession session) →
    e'.action = .call (.eventRemoveSession session') →
    session ≠ some e.before.context.trapSession →
    session' ≠ some e'.before.context.trapSession → session = session' ∧ session ≠ none
  /-- By the end it was disconnected once and freed once. -/
  returned : run.value = .ok () → ∀ s ∈ run.states, ∀ session,
    s.context.haasSession = some session →
      (actions run.log).count (.call (.disconnect session)) = 1 ∧
        (actions run.log).count (.call (.free session)) = 1

/-! ## The session stays

Once `HaasSession` is set, only another accepted login stores over it. So it is the same
up to the teardown in a run in which one password is accepted. -/

section Stays

variable {w : World} {serial : Prop} {h l : List Entry} {s s' t : Proxy} {session : SessionId}

/-- A password was accepted for the first time. -/
theorem haasSession_of_accepted (accepted : Accepted h s.context session)
    (single : ∀ e ∈ h, ¬ e.Replaces) : s.context.haasSession = none := by
  obtain ⟨e, mem, ⟨password, login⟩, success, context⟩ := accepted
  by_contra set
  refine single e mem ⟨?_, success, ?_⟩
  · rw [login]
    rfl
  · rwa [context]

/-- The session of the backend is what it was, or a new one was logged in. -/
theorem login_of_advance (advance : Advance w serial h s l s') :
    s'.context.haasSession = s.context.haasSession ∨
      ∃ session, s'.context.haasSession = some session ∧ NewSession h s.context session ∧
        Accepted h s.context session ∧ l = [] := by
  cases recontext advance with
  | grant _ r eq | once r _ _ eq =>
      rw [eq]
      exact .inl (r.fields_grant s.context).1
  | loggedIn session attempted obtained accepted eq quiet =>
      rw [eq]
      exact .inr ⟨session, rfl, obtained, accepted, quiet⟩
  | same eq | idle _ _ _ eq | limit eq | closed eq | failed _ eq | error eq | adopt _ _ _ eq
  | pool _ eq =>
      rw [eq]
      exact .inl rfl

/-- The backend session stays the same where none replaces another. -/
theorem haasSession_of_advance (single : ∀ e ∈ h ++ l, ¬ e.Replaces)
    (advance : Advance w serial h s l s') (set : s.context.haasSession = some session) :
    s'.context.haasSession = some session := by
  rcases login_of_advance advance with same | ⟨session', -, -, accepted, -⟩
  · exact same.trans set
  · have unset := haasSession_of_accepted accepted fun e mem =>
      single e (List.mem_append_left l mem)
    cases unset.symm.trans set

/-- What may happen within a step does not change it either. -/
theorem Within.haasSession (within : Within s t) :
    t.context.haasSession = s.context.haasSession := by
  obtain ⟨⟨timer, context⟩, -⟩ := within
  rw [context]

/-- The invariant: the session of the backend is the one it has always been. -/
structure Backed (h : List Entry) (s : Proxy) : Prop where
  /-- The sessions are told apart by their numbers. -/
  numbering : Numbering h s
  kept : Kept h s
  /-- What an earlier state held as the backend's session is still that. -/
  stays : ∀ e ∈ h, ∀ session, e.before.context.haasSession = some session →
    s.context.haasSession = some session

theorem backed_initial : Backed [] Proxy.initial :=
  ⟨numbering_initial, kept_initial, List.forall_mem_nil _⟩

/-- **The step**, where one session of the backend is all there is. -/
theorem backed_advance (backed : Backed h s) (single : ∀ e ∈ h ++ l, ¬ e.Replaces)
    (advance : Advance w serial h s l s') : Backed (h ++ l) s' := by
  refine ⟨numbering_advance backed.numbering advance, kept_advance backed.kept advance, ?_⟩
  intro e mem session set
  refine haasSession_of_advance single advance ?_
  rcases List.mem_append.mp mem with mem | mem
  · exact backed.stays e mem session set
  · rwa [(within_of_advance advance e mem).haasSession] at set

end Stays

/-! ## What belongs to it

The channels on the side of the backend belong to the session they were made from. While
that is `HaasSession`, what is stored in the context and in the pairs belongs to it. -/

section Belongs

variable {w : World} {serial : Prop} {h l : List Entry} {s s' : Proxy} {session : SessionId}
  {ch : ChannelId}

/-- The channel was obtained for the session. -/
def Proxy.Belongs (s : Proxy) (session : SessionId) (ch : ChannelId) : Prop :=
  ch < s.channels.next ∧ ∀ c, s.channels.cell ch = some c → c.session = session

/-- A channel that belongs to the backend session is one of the backend. -/
theorem Proxy.Belongs.ofBackend (belongs : s.Belongs session ch)
    (set : s.context.haasSession = some session) : s.OfBackend ch := by
  intro c cell
  rw [set, belongs.2 c cell]

/-- A channel belongs to the session it was obtained from, as long as there is one. -/
theorem belongs_of_advance (belongs : s.Belongs session ch) (advance : Advance w serial h s l s') :
    s'.Belongs session ch := by
  refine ⟨Nat.lt_of_lt_of_le belongs.1 (nextChannel_of_advance advance), ?_⟩
  intro c' cell'
  rcases inherits_of_advance advance with ⟨inherits, -⟩ | ⟨session', rfl, -⟩
  · obtain ⟨c, cell, same⟩ := inherits ch c' cell'
    rw [same]
    exact belongs.2 c cell
  · have old : ch ≠ s.channels.next := Nat.ne_of_lt belongs.1
    exact belongs.2 c' ((s.channels.cell_alloc_of_ne old).symm.trans cell')

/-- The invariant: every channel of the backend that was obtained belongs to its
session still. -/
structure Belonging (h : List Entry) (s : Proxy) : Prop where
  haasChannel : ∀ ch, s.context.haasChannel = some ch →
    ∃ session, s.context.haasSession = some session ∧ s.Belongs session ch
  destiny : ∀ p pair, s.pairs.cell p = some pair → ∀ ch, pair.destiny.channel = some ch →
    ∃ session, s.context.haasSession = some session ∧ s.Belongs session ch
  /-- A channel that was obtained from the backend belongs to it for as long as it is there. -/
  obtained : ∀ e ∈ h, ∀ session, e.action = .call (.channelNew session) → e.answer = sshOk →
    e.before.context.haasSession = some session → s.Belongs session e.before.channels.next

private theorem belonging_initial : Belonging [] Proxy.initial :=
  ⟨nofun, nofun, List.forall_mem_nil _⟩

/-- A channel that was obtained for the backend earlier. -/
theorem belongs_of_obtained (backed : Backed h s) (belonging : Belonging h s) {e : Entry}
    (mem : e ∈ h) (new : e.action = .call (.channelNew session)) (ok : e.answer = sshOk)
    (set : e.before.context.haasSession = some session) (next : e.before.channels.next = ch) :
    ∃ session, s.context.haasSession = some session ∧ s.Belongs session ch := by
  subst next
  exact ⟨session, backed.stays e mem session set, belonging.obtained e mem session new ok set⟩

/-- A channel to the destination of a forward was obtained from the backend session. -/
theorem belongs_of_offered (backed : Backed h s) (belonging : Belonging h s) {src : ChannelId}
    (offered : Offered w serial h s src (some ch)) :
    ∃ session, s.context.haasSession = some session ∧ s.Belongs session ch := by
  obtain ⟨h₀, e, rfl, -, -, -, ⟨-, e', mem, session, new, ok, set, eq, -⟩ | ⟨-, none⟩⟩ := offered
  · cases eq
    exact belongs_of_obtained backed belonging (List.mem_append_left _ mem) new ok set rfl
  · cases none

/-- **The step.** Each way in which a channel gets to be the session's or a forward's
was behind an entry that obtained it from the backend session. -/
private theorem belonging_advance (backed : Backed h s) (belonging : Belonging h s)
    (single : ∀ e ∈ h ++ l, ¬ e.Replaces) (advance : Advance w serial h s l s') :
    Belonging (h ++ l) s' := by
  have moves {ch : ChannelId}
      (here : ∃ session, s.context.haasSession = some session ∧ s.Belongs session ch) :
      ∃ session, s'.context.haasSession = some session ∧ s'.Belongs session ch := by
    obtain ⟨session, set, belongs⟩ := here
    exact ⟨session, haasSession_of_advance single advance set, belongs_of_advance belongs advance⟩
  refine ⟨?_, ?_, ?_⟩
  · intro ch set
    refine moves ?_
    cases recontext advance with
    | grant _ r eq | once r _ _ eq =>
        rw [eq, (r.fields_grant s.context).2.2.1] at set
        exact belonging.haasChannel ch set
    | adopt trapChannel haasChannel obtained eq =>
        rw [eq] at set
        cases set
        obtain ⟨-, -, e, mem, session, -, -, -, -, new, ok, next, set, -⟩ := obtained
        exact belongs_of_obtained backed belonging mem new ok set next
    | same eq | idle _ _ _ eq | limit eq | closed eq | failed _ eq | error eq
    | loggedIn _ _ _ _ eq | pool _ eq =>
        rw [eq] at set
        exact belonging.haasChannel ch set
  · intro p pair cell ch destiny
    refine moves ?_
    rcases destiny_of_advance advance cell destiny with ⟨old, cell, destiny⟩ | ⟨src, offered⟩
    · exact belonging.destiny p old cell ch destiny
    · exact belongs_of_offered backed belonging offered
  · intro e mem session new ok set
    rcases List.mem_append.mp mem with mem | mem
    · exact belongs_of_advance (belonging.obtained e mem session new ok set) advance
    · rcases inherits_of_advance advance with ⟨-, fails⟩ | ⟨session', rfl, rfl | ⟨rfl, -⟩⟩
      · exact absurd ok (fails e mem session new)
      · rw [List.mem_singleton.mp mem] at new ⊢
        cases new
        refine ⟨Nat.lt_succ_self _, ?_⟩
        intro c cell
        cases (s.channels.cell_alloc_self).symm.trans cell
        rfl
      · rw [List.mem_singleton.mp mem] at new
        cases new

/-- Everything is the backend's where something is logged. -/
theorem oneBackend_of_entry (backed : Backed h s) (belonging : Belonging h s)
    (advance : Advance w serial h s l s') {e : Entry} (mem : e ∈ l) : e.before.OneBackend := by
  have within := within_of_advance advance e mem
  have here {ch : ChannelId}
      (here : ∃ session, s.context.haasSession = some session ∧ s.Belongs session ch) :
      e.before.OfBackend ch := by
    obtain ⟨session, set, -, belongs⟩ := here
    intro c' cell'
    obtain ⟨c, cell, same⟩ := inherits_of_entry advance e mem ch c' cell'
    rw [within.haasSession, set, same, belongs c cell]
  refine ⟨?_, ?_⟩
  · intro ch set
    obtain ⟨⟨timer, context⟩, -⟩ := within
    rw [context] at set
    exact here (belonging.haasChannel ch set)
  · intro p _ pair cell ch destiny
    rcases destiny_of_entry advance mem cell destiny with ⟨old, cell, destiny⟩ | ⟨src, offered⟩
    · exact here (belonging.destiny p old cell ch destiny)
    · exact here (belongs_of_offered backed belonging offered)

private theorem oneBackend_of_belonging (belonging : Belonging h s) : s.OneBackend := by
  refine ⟨?_, ?_⟩
  · intro ch set
    obtain ⟨session, set, belongs⟩ := belonging.haasChannel ch set
    exact belongs.ofBackend set
  · intro p _ pair cell ch destiny
    obtain ⟨session, set, belongs⟩ := belonging.destiny p pair cell ch destiny
    exact belongs.ofBackend set

end Belongs

/-! ## Giving sessions back

`HaasConnect` gives back what it has just obtained when the backend refuses the password, so
sessions are given back in the middle of a run as well. -/

section Returned

variable {w : World} {serial : Prop} {h l : List Entry} {s s' : Proxy} {session : SessionId}

/-- Callbacks give back the client's session, or one that is not in use. -/
theorem returns_of_change (change : Change w serial h s l s') :
    ∀ e ∈ l, ∀ session, e.action.Returns session →
      session = s.context.trapSession ∨ NewSession h s.context session := by
  unfold Interaction.Returns
  cases change with
  | call _ _ c i licensed =>
      rw [List.forall_mem_singleton]
      rintro session (eq | eq)
      · cases eq
        exact .inl licensed
      · cases eq
        exact False.elim licensed
  | giveUp _ _ session' i j obtained =>
      simp only [byeLog, List.forall_mem_cons]
      refine ⟨?_, ?_, List.forall_mem_nil _⟩
      · rintro session (eq | eq) <;> cases eq
        exact .inr obtained
      · rintro session (eq | eq) <;> cases eq
        exact .inr obtained
  | once _ _ r => cases r <;> simp [OnceRequest.call]
  | register _ _ offered pointer cell added stored pair filled _ mid =>
      intro e mem
      obtain ⟨-, ⟨allocation, action⟩ | ⟨ch, action⟩⟩ := mid e mem <;> simp [action]
  | _ => simp [relayLog]

/-- The teardown is the last stage. -/
theorem serving_of_advance (advance : Advance w serial h s l s') (serving : s'.stage ≠ .teardown) :
    s.stage ≠ .teardown := by
  cases advance with
  | change change => rwa [stage_of_change change] at serving
  | login _ _ _ before => exact before
  | relay _ _ _ login =>
      rw [login]
      nofun
  | teardown => exact absurd rfl serving
  | _ => exact serving

/-- `ProxyProcess` gives back nothing before the teardown. -/
theorem returns_of_advance (serving : s.stage ≠ .teardown) (advance : Advance w serial h s l s') :
    ∀ e ∈ l, ∀ session, e.action.Returns session →
      session = s.context.trapSession ∨ NewSession h s.context session := by
  intro e mem session returns
  have warranted := warranted advance e mem
  rcases returns with action | action
  · simp only [Warranted, action, serving, or_false] at warranted
    exact warranted
  · simp only [Warranted, action, serving, or_false] at warranted
    exact .inr warranted

/-- A session that was obtained in the context is not that of the context. -/
theorem newSession_ne (numbering : Numbering h s) (obtained : NewSession h s.context session) :
    s.context.haasSession ≠ some session := by
  obtain ⟨h₀, e, h₁, rfl, -, -, rfl, context, -⟩ := obtained
  intro set
  rw [← context] at set
  have numbered := numbering.before e (List.mem_append_right h₀ (.head h₁))
  exact Nat.lt_irrefl _ (numbered.haasSession _ set).2

/-- The invariant: the session of the backend was not given back. -/
structure Unreturned (h : List Entry) (s : Proxy) : Prop where
  /-- What was given back had been obtained. -/
  below : ∀ e ∈ h, ∀ session, e.action.Returns session → session < s.sessions
  /-- `ssh_new` returns a session that was never given back. -/
  fresh : Throughout (fun h₀ e => e.action = .call .new → e.answer = sshOk →
    ∀ e' ∈ h₀, ¬ e'.action.Returns e.before.sessions) h
  /-- That of the backend was not. -/
  inUse : ∀ session, s.context.haasSession = some session → ∀ e ∈ h, ¬ e.action.Returns session

private theorem unreturned_initial : Unreturned [] Proxy.initial :=
  ⟨List.forall_mem_nil _, throughout_nil, nofun⟩

/-- A session is given back only where it was tried and refused, or in the teardown. -/
theorem unreturned_advance (numbering : Numbering h s) (unreturned : Unreturned h s)
    (advance : Advance w serial h s l s') (returns : ∀ e ∈ l, ∀ session, e.action.Returns session →
      session = s.context.trapSession ∨ NewSession h s.context session) :
    Unreturned (h ++ l) s' := by
  have le : s.sessions ≤ s'.sessions := by
    rcases sessions_of_advance advance with ⟨same, -⟩ | ⟨more, -⟩ <;> omega
  refine ⟨?_, throughout_append unreturned.fresh ?_, ?_⟩
  · intro e mem session given
    refine Nat.lt_of_lt_of_le ?_ le
    rcases List.mem_append.mp mem with mem | mem
    · exact unreturned.below e mem session given
    · rcases returns e mem session given with rfl | ⟨h₀, e', h₁, rfl, new, ok, rfl, -⟩
      · rw [numbering.here.trapSession]
        exact numbering.here.one_le
      · exact numbering.new e' (List.mem_append_right h₀ (.head h₁)) new ok
  · intro l₁ e l₂ split new ok e' mem' given
    rcases sessions_of_advance advance with ⟨-, fails⟩ | ⟨-, eq⟩
    · exact fails e (split ▸ List.mem_append_right l₁ (.head l₂)) new ok
    · -- the call of `ssh_new` is all there is in the step
      rw [eq] at split
      rcases List.append_eq_singleton_iff.mp split.symm with ⟨rfl, here⟩ | ⟨-, no⟩
      · obtain ⟨rfl, -⟩ := List.cons.inj here
        rw [List.append_nil] at mem'
        exact Nat.lt_irrefl _ (unreturned.below e' mem' _ given)
      · cases no
  · intro session set e mem given
    rcases login_of_advance advance with same | ⟨session', set', obtained, -, rfl⟩
    · rw [same] at set
      rcases List.mem_append.mp mem with mem | mem
      · exact unreturned.inUse session set e mem given
      · rcases returns e mem session given with rfl | obtained
        · exact numbering.here.ne set
        · exact newSession_ne numbering obtained set
    · rw [List.append_nil] at mem
      cases set.symm.trans set'
      obtain ⟨h₀, new, h₁, rfl, action, ok, rfl, -, untouched⟩ := obtained
      rcases List.mem_append.mp mem with mem | mem
      · exact unreturned.fresh h₀ new h₁ rfl action ok e mem given
      · rcases List.mem_cons.mp mem with rfl | mem
        · unfold Interaction.Returns at given
          rw [action] at given
          rcases given with no | no <;> cases no
        · exact untouched e mem given

end Returned

/-! ## The teardown

The last part of `ProxyProcess` takes no session and obtains none; each session that is
stored is disconnected and freed in it once. -/

section Teardown

variable {w : World} {serial : Prop} {h l : List Entry} {s s' : Proxy} {session : SessionId}

/-- A session that is not given back is not disconnected or freed. -/
theorem count_actions_eq_zero {a : Interaction} (returns : a.Returns session)
    (none : ∀ e ∈ l, ¬ e.action.Returns session) : (actions l).count a = 0 := by
  refine List.count_eq_zero.mpr ?_
  intro mem
  obtain ⟨e, known, rfl⟩ := List.mem_map.mp mem
  exact none e known returns

/-- The invariants of a run until the session of the backend is given back. -/
def Intact (h : List Entry) (s : Proxy) : Prop := Backed h s ∧ Unreturned h s

theorem intact_of_changes (path : Path (Change w serial) h s l s') (intact : Intact h s)
    (single : ∀ e ∈ h ++ l, ¬ e.Replaces) : Intact (h ++ l) s' := by
  refine (path.restrict single).inv (fun h s l s' intact first => ?_) intact
  have advance := Advance.change first.1
  exact ⟨backed_advance intact.1 first.2 advance,
    unreturned_advance intact.1.numbering intact.2 advance (returns_of_change first.1)⟩

/-- The stage is left alone by callbacks. -/
theorem stage_of_changes (path : Path (Change w serial) h s l s') : s'.stage = s.stage :=
  path.inv (I := fun _ t => t.stage = s.stage)
    (fun _ _ _ _ same change => (stage_of_change change).trans same) rfl

/-- Callbacks do not give back the session of the backend. -/
theorem inUse_of_changes (path : Path (Change w serial) h s l s') (backed : Backed h s)
    (single : ∀ e ∈ h ++ l, ¬ e.Replaces) (set : s.context.haasSession = some session) :
    (Backed (h ++ l) s' ∧ s'.context.haasSession = some session) ∧
      ∀ e ∈ l, ¬ e.action.Returns session := by
  have restricted := path.restrict single
  have each (h l : List Entry) (s s' : Proxy)
      (inv : Backed h s ∧ s.context.haasSession = some session)
      (first : Change w serial h s l s' ∧ ∀ e ∈ h ++ l, ¬ e.Replaces) :
      (Backed (h ++ l) s' ∧ s'.context.haasSession = some session) ∧
        ∀ e ∈ l, ¬ e.action.Returns session := by
    have advance := Advance.change first.1
    refine ⟨⟨backed_advance inv.1 first.2 advance, haasSession_of_advance first.2 advance inv.2⟩, ?_⟩
    intro e mem given
    rcases returns_of_change first.1 e mem session given with rfl | obtained
    · exact inv.1.numbering.here.ne inv.2
    · exact newSession_ne inv.1.numbering obtained inv.2
  refine ⟨restricted.inv (I := fun h s => Backed h s ∧ s.context.haasSession = some session)
    (fun h s l s' inv first => (each h l s s' inv first).1) ⟨backed, set⟩, ?_⟩
  exact restricted.forall_entries (fun h s l s' inv first => each h l s s' inv first) ⟨backed, set⟩

/-- What is disconnected and freed at once. -/
theorem count_byeLog {a : Interaction} (returns : a.Returns session) (s : Proxy)
    (other : SessionId) (i j : Int) :
    (actions (byeLog s other i j)).count a = if other = session then 1 else 0 := by
  rcases returns with rfl | rfl <;> simp [actions, byeLog, List.count_cons]

/-- **The teardown gives back the session of the backend once**, if it was not
given back before. -/
theorem returnedOnce_of_tornDown (torn : TornDown w serial h s l s') (intact : Intact h s)
    (single : ∀ e ∈ l, ¬ e.Replaces) (set : s'.context.haasSession = some session)
    {a : Interaction} (returns : a.Returns session) : (actions l).count a = 1 := by
  obtain ⟨l₀, s₀, l₁, s₁, b, s₂, l₂, s₃, b', rfl, torndown, path₀, path₁, still₁, bye, path₂,
    still₂, bye'⟩ := torn
  have single₃ := (List.forall_mem_append.mp single).1
  have single₂ := (List.forall_mem_append.mp single₃).1
  have single₁ := (List.forall_mem_append.mp single₂).1
  have single₀ := (List.forall_mem_append.mp single₁).1
  have intact₀ := intact_of_changes path₀ intact single₀
  cases haasSession : s₀.context.haasSession with
  | none =>
      -- then there are no channels either, and nothing to be called back for
      have consistent := intact₀.1.kept.consistent
      have noHaas : s₀.context.haasChannel = none := by
        by_contra some
        exact consistent.session some haasSession
      have noTrap : s₀.context.trapChannel = none := by
        by_contra some
        exact consistent.channels.mp some noHaas
      obtain ⟨rfl, rfl⟩ := still₁ noHaas
      rw [haasSession] at bye
      cases bye
      obtain ⟨rfl, rfl⟩ := still₂ noTrap
      cases bye'
      cases haasSession.symm.trans set
  | some kept =>
      have intact₁ := intact_of_changes path₁ intact₀ single₁
      have set₁ := (inUse_of_changes path₁ intact₀.1 single₁ haasSession).1.2
      rw [haasSession] at bye
      cases bye with
      | some _ _ i j =>
          have advance : Advance w serial (h ++ l₀ ++ l₁) s₁ (byeLog s₁ kept i j) s₁.tock.tock :=
            .bye _ s₁ kept i j ((stage_of_changes path₁).trans torndown)
          have backed₂ := backed_advance intact₁.1 single₂ advance
          have set₂ := haasSession_of_advance single₂ advance set₁
          obtain ⟨⟨backed₃, set₃⟩, quiet⟩ := inUse_of_changes path₂ backed₂ single₃ set₂
          cases bye' with
          | some _ _ i' j' =>
              obtain rfl : kept = session := Option.some.inj (set₃.symm.trans set)
              have client : s₁.tock.tock.context.trapSession ≠ kept := by
                intro same
                exact backed₂.numbering.here.ne (set₂.trans (congrArg some same.symm))
              simp only [actions, List.map_append, List.count_append]
              have before := count_actions_eq_zero returns (intact₁.2.inUse kept set₁)
              simp only [actions, List.map_append, List.count_append] at before
              rw [before]
              have once := count_byeLog returns s₁ kept i j
              have between := count_actions_eq_zero returns quiet
              have other := count_byeLog returns s₃ s₁.tock.tock.context.trapSession i' j'
              rw [if_pos rfl] at once
              rw [if_neg client] at other
              unfold actions at once between other
              rw [once, between, other]

end Teardown

/-! ## Runs

The condition makes the logins of a run one login, and the results above are put together
for it. -/

section Runs

variable {w : World} {fuel depth : Nat}

/-- The session of the backend stays where it is. -/
theorem stays_of_single (single : ∀ e ∈ (proxyRun w fuel depth).log, ¬ e.Replaces) :
    (proxyRun w fuel depth).states.Pairwise fun s s' => ∀ session,
      s.context.haasSession = some session → s'.context.haasSession = some session := by
  have path := (path_proxyRun w fuel depth).restrict (A := fun e => ¬ e.Replaces)
    (by simpa using single)
  refine path.ordered (fun e => e.before) ?_ ?_ fun h s l s' first => ?_
  · intro s session set
    exact set
  · intro a b c first second session set
    exact second session (first session set)
  · refine pairwise_of_advance first.1 ?_ ?_
    · intro a b here there session set
      rw [here.haasSession] at set
      rwa [there.haasSession]
    · intro a here session set
      rw [here.haasSession] at set
      exact haasSession_of_advance first.2 first.1 set

/-- If it stays it is the same one in any two states. -/
theorem same_of_stays {states : List Proxy} (stays : states.Pairwise fun s s' => ∀ session,
      s.context.haasSession = some session → s'.context.haasSession = some session)
    {s s' : Proxy} (mem : s ∈ states) (mem' : s' ∈ states) (set : s.context.haasSession ≠ none)
    (set' : s'.context.haasSession ≠ none) : s.context.haasSession = s'.context.haasSession := by
  have one (a b : Proxy) (keeps : ∀ session, a.context.haasSession = some session →
      b.context.haasSession = some session) (set : a.context.haasSession ≠ none) :
      a.context.haasSession = b.context.haasSession := by
    obtain ⟨session, is⟩ := Option.ne_none_iff_exists'.mp set
    rw [is, keeps session is]
  refine List.Pairwise.forall_of_forall_of_flip (R := fun s s' => s.context.haasSession ≠ none →
    s'.context.haasSession ≠ none → s.context.haasSession = s'.context.haasSession) ?_ ?_ ?_ mem
    mem' set set'
  · intro s _ _ _
    rfl
  · refine stays.imp ?_
    intro a b keeps set _
    exact one a b keeps set
  · refine stays.imp ?_
    intro a b keeps _ set
    exact (one a b keeps set).symm

/-- What is taken in and out of the event, besides the client's session. -/
theorem event_of_run (single : ∀ e ∈ (proxyRun w fuel depth).log, ¬ e.Replaces) :
    ∀ e ∈ (proxyRun w fuel depth).log, ∀ session,
      e.action = .call (.eventAddSession session) ∨
        e.action = .call (.eventRemoveSession session) →
      session ≠ some e.before.context.trapSession →
        e.before.context.haasSession = session ∧ session ≠ none := by
  refine ((path_proxyRun w fuel depth).restrict (A := fun e => ¬ e.Replaces)
    (by simpa using single)).forall_entries (I := Backed) (fun h s l s' backed first =>
      ⟨backed_advance backed first.2 first.1, ?_⟩) backed_initial
  intro e mem session about other
  have within := within_of_advance first.1 e mem
  have warranted := warranted first.1 e mem
  have which : session = some s.context.trapSession ∨ session = s.context.haasSession ∧
      (s.context.authenticated = true ∨ s.stage = .relay) := by
    rcases about with action | action <;> simpa only [Warranted, action] using warranted
  rw [within.haasSession]
  rcases which with client | ⟨rfl, served⟩
  · obtain ⟨⟨timer, context⟩, -⟩ := within
    rw [context] at other
    exact absurd client other
  · have consistent := backed.kept.consistent
    refine ⟨rfl, ?_⟩
    rcases served with authenticated | relay
    · exact consistent.authenticated.mp authenticated
    · exact consistent.session (consistent.channels.mp (backed.kept.relay relay))

/-- **There is one session of the backend** in every run in which the backend accepts no
password while there is a session of it already. The channels that are opened, what is
stored in pairs, the event and the teardown are then all about that session, which is
disconnected and freed once. Without the condition `HaasConnect` stores over the pointer
of the first session, and nobody frees that. -/
theorem oneSession_of_single (w : World) (fuel depth : Nat)
    (single : ∀ e ∈ (proxyRun w fuel depth).log, ¬ e.Replaces) :
    OneSession (proxyRun w fuel depth) := by
  have stays := stays_of_single single
  have path := (path_proxyRun w fuel depth).restrict (A := fun e => ¬ e.Replaces)
    (by simpa using single)
  refine ⟨stays, ?_, ?_, ?_⟩
  · -- what belongs to the session, in every state that is logged and in the last one
    have each := path.inv_entries (I := fun h s => Backed h s ∧ Belonging h s)
      (P := fun _ e => e.before.OneBackend) (fun h s l s' inv first =>
        ⟨⟨backed_advance inv.1 first.2 first.1, belonging_advance inv.1 inv.2 first.2 first.1⟩, ?_⟩)
      ⟨backed_initial, belonging_initial⟩
    · intro s mem
      rcases List.mem_append.mp mem with mem | mem
      · obtain ⟨e, known, rfl⟩ := List.mem_map.mp mem
        obtain ⟨l₁, l₂, split⟩ := List.append_of_mem known
        exact each.2 l₁ e l₂ split
      · rw [List.mem_singleton.mp mem]
        exact oneBackend_of_belonging each.1.2
    · intro l₁ e l₂ split
      exact oneBackend_of_entry inv.1 inv.2 first.1 (split ▸ List.mem_append_right l₁ (.head l₂))
  · intro e mem e' mem' session session' added removed other other'
    -- both sessions of the event were that of the context when they were added and removed
    obtain ⟨set, there⟩ := event_of_run single e mem session (.inl added) other
    obtain ⟨set', there'⟩ := event_of_run single e' mem' session' (.inr removed) other'
    refine ⟨?_, there⟩
    rw [← set, ← set']
    refine same_of_stays stays (List.mem_append_left _ (List.mem_map_of_mem mem))
      (List.mem_append_left _ (List.mem_map_of_mem mem')) ?_ ?_
    · rwa [set]
    · rwa [set']
  · intro returns s mem session set
    -- a run that returns has gone through the teardown, with the session of its last state
    obtain ⟨h, s₀, path₀, serving, torn⟩ := tornDown_proxyRun returns
    have last : (proxyRun w fuel depth).state.context.haasSession = some session := by
      rcases List.mem_append.mp mem with mem | mem
      · exact (List.pairwise_append.mp stays).2.2 s mem _ (.head _) session set
      · rwa [← List.mem_singleton.mp mem]
    have single₀ : ∀ e ∈ h, ¬ e.Replaces := by
      intro e mem
      obtain ⟨l₀, s₁, l₁, s₂, b, s₃, l₂, s₄, b', split, -⟩ := torn
      refine single e ?_
      rw [split]
      simp [mem]
    have intact := (path₀.restrict (A := fun e => ¬ e.Replaces) (by simpa using single₀)).inv
      (I := fun h s => Backed h s ∧ (s.stage ≠ .teardown → Unreturned h s))
      (fun h s l s' inv first => ⟨backed_advance inv.1 first.2 first.1, fun serving => ?_⟩)
      ⟨backed_initial, fun _ => unreturned_initial⟩
    · have here : Intact h { s₀ with stage := .teardown } := by
        obtain ⟨backed, unreturned⟩ := intact
        obtain ⟨below, fresh, inUse⟩ := unreturned serving
        have last : Advance w (depth ≤ 1) h s₀ [] { s₀ with stage := .teardown } :=
          .teardown h s₀ serving
        have entered := backed_advance backed (by simpa using single₀) last
        rw [List.append_nil] at entered
        exact ⟨entered, below, fresh, inUse⟩
      exact ⟨returnedOnce_of_tornDown torn here single last (.inl rfl),
        returnedOnce_of_tornDown torn here single last (.inr rfl)⟩
    · have before := serving_of_advance first.1 serving
      exact unreturned_advance inv.1.numbering (inv.2 before) first.1
        (returns_of_advance before first.1)

/-- The condition is met by a run with a terminal and a shell, which ends. -/
theorem oneSession_terminalAndShell :
    OneSession (proxyRun terminalAndShell 3 1) ∧
      (proxyRun terminalAndShell 3 1).value = .ok () ∧
      (proxyRun terminalAndShell 3 1).state.context.haasSession = some 1 :=
  ⟨oneSession_of_single terminalAndShell 3 1 (by decide +kernel), by decide +kernel,
    by decide +kernel⟩

/-- A client sends its password twice, and the backend accepts both. -/
def twoPasswords : World :=
  .scripted .echo [(13, 2), (22, 2)]
    [(6, [somePassword, somePassword, .newChannel]), (40, [.channel 0 .close])]

/-- The first session is replaced, and nobody gives it back. -/
theorem twoPasswords_notOneSession :
    ¬ OneSession (proxyRun twoPasswords 2 1) ∧ (proxyRun twoPasswords 2 1).value = .ok () ∧
      ∀ e ∈ (proxyRun twoPasswords 2 1).log,
        e.action ≠ .call (.disconnect 1) ∧ e.action ≠ .call (.free 1) := by
  have returns : (proxyRun twoPasswords 2 1).value = .ok () := by decide +kernel
  have first : ∃ e ∈ (proxyRun twoPasswords 2 1).log, e.before.context.haasSession = some 1 := by
    decide +kernel
  have leaked : ∀ e ∈ (proxyRun twoPasswords 2 1).log,
      e.action ≠ .call (.disconnect 1) ∧ e.action ≠ .call (.free 1) := by decide +kernel
  refine ⟨fun one => ?_, returns, leaked⟩
  obtain ⟨e, mem, set⟩ := first
  have once := (one.returned returns e.before
    (List.mem_append_left _ (List.mem_map_of_mem mem)) 1 set).1
  have never : (actions (proxyRun twoPasswords 2 1).log).count (.call (.disconnect 1)) = 0 := by
    refine List.count_eq_zero.mpr ?_
    intro known
    obtain ⟨e, mem, action⟩ := List.mem_map.mp known
    exact (leaked e mem).1 action
  cases never.symm.trans once

end Runs

end HaasProxy
