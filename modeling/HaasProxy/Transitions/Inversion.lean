import HaasProxy.Transitions.Process

/-!
# What is known of a step

Most of what is to hold of a session is about its context.  `Recontext` says what
a step may do to it and what the code knew where it did so, and `recontext` that
no step does anything else.  `Warranted` says what an entry of the log tells about
the step it was logged in.

A session is known by its number: by `Numbering` the client's is 0 and the backend's
another one, and `numbering_advance` says that every step keeps this.

## Main results

* `recontext` — what a step does to the context, in eleven cases;
* `warranted` — what is logged is logged for a reason;
* `numbering_advance` — the sessions keep their numbers.

## Design notes

These are the two directions in which a proof uses a step.  From the context: a flag was
false and is true now, what has happened?  `recontext` leaves one or two cases.  From the log:
there is an entry about a session, why?  `warranted` gives the premise of the step it was
logged in.  Neither mentions the constructors of `Change`.
-/

namespace HaasProxy

/-- What a step does to the context. -/
inductive Recontext (w : World) (serial : Prop) (h : List Entry) (s : Proxy) (l : List Entry)
    (s' : Proxy) : Prop
  /-- It leaves the context alone. -/
  | same (eq : s'.context = s.context)
  /-- It sets the idle timer by the clock. -/
  | idle (t : Nat) (since : s.tick ≤ t) (until_ : t < s'.tick)
      (eq : s'.context =
        { s.context with idleTimer := (w.clock t).later w.config.idleTimeout })
  /-- It starts the session timer. -/
  | limit (eq : s'.context =
        { s.context with sessionTimer := (w.clock s.tick).later w.config.sessionTimeout })
      (until_ : s.tick < s'.tick)
  /-- It marks the context as closed. -/
  | closed (eq : s'.context = { s.context with closed := true })
  /-- It sets a flag, and callbacks nest. -/
  | grant (nested : ¬ serial) (r : OnceRequest) (eq : s'.context = r.grant s.context)
      (quiet : l = [])
  /-- A request was passed on for the first time, and was granted. -/
  | once (r : OnceRequest) {ch : ChannelId} (channel : s.context.haasChannel = some ch)
      (first : r.granted s.context = false) (eq : s'.context = r.grant s.context)
      (asked : l = [⟨s.tock, .call (r.call ch), sshOk⟩, ⟨s.tock, .returned (r.call ch), sshOk⟩])
  /-- It counts an attempt that was being made. -/
  | failed (attempted : Attempted h s.context)
      (eq : s'.context = { s.context with retries := s.context.retries + 1 })
  /-- It records that too many attempts have failed. -/
  | error (eq : s'.context = { s.context with error := true })
  /-- It stores a session that is new and that has accepted the password. -/
  | loggedIn (session : SessionId) (attempted : Attempted h s.context)
      (obtained : NewSession h s.context session) (accepted : Accepted h s.context session)
      (eq : s'.context =
        { s.context with haasSession := some session, authenticated := true }) (quiet : l = [])
  /-- It stores both session channels, which were obtained together. -/
  | adopt (trapChannel haasChannel : ChannelId)
      (obtained : BothObtained serial h s trapChannel haasChannel)
      (eq : s'.context =
        { s.context with trapChannel := some trapChannel, haasChannel := some haasChannel })
  /-- It stores the pool. -/
  | pool (pointer : Option PoolId) (eq : s'.context = { s.context with forwardPool := pointer })

section Steps

variable {w : World} {serial : Prop} {h l : List Entry} {s s' t : Proxy}

/-- No call to libssh changes the proxy's own context. -/
@[simp] theorem context_effect (c : Call) (i : Int) (s : Proxy) :
    (c.effect i s).context = s.context := by
  cases c with
  | setCallbacks | write => exact s.context_updateChannel _ _
  | new | channelNew | openReplyAccept => simp only [Call.effect]; split <;> rfl
  | sendEof =>
      simp only [Call.effect]
      split
      · exact s.context_updateChannel _ _
      · rfl
  | _ => rfl

namespace Proxy

@[simp] theorem tick_updateChannel (s : Proxy) (ch : ChannelId) (f : Channel → Channel) :
    (s.updateChannel ch f).tick = s.tick := by
  unfold updateChannel
  split <;> rfl

@[simp] theorem context_tock (s : Proxy) : s.tock.context = s.context := rfl

@[simp] theorem tick_tock (s : Proxy) : s.tock.tick = s.tick + 1 := rfl

end Proxy

/-- The effect of a call takes no time: that was taken by the call. -/
@[simp] theorem tick_effect (c : Call) (i : Int) (s : Proxy) : (c.effect i s).tick = s.tick := by
  cases c with
  | setCallbacks | write => exact s.tick_updateChannel _ _
  | new | channelNew | openReplyAccept => simp only [Call.effect]; split <;> rfl
  | sendEof =>
      simp only [Call.effect]
      split
      · exact s.tick_updateChannel _ _
      · rfl
  | _ => rfl

/-- What a change does to the context, by cases of the change. In most of them it is
nothing, or the idle timer. -/
private theorem recontext_of_change (change : Change w serial h s l s') :
    Recontext w serial h s l s' := by
  cases change with
  | idle => exact .idle s.tick (Nat.le_refl _) (Nat.lt_succ_self _) rfl
  | closed => exact .closed rfl
  | grant _ _ nested r => exact .grant nested r rfl rfl
  | once _ _ r i channel first =>
      split
      · rename_i ok
        rw [ok]
        exact .once r channel first rfl rfl
      · exact .same rfl
  | failed _ _ attempted => exact .failed attempted rfl
  | error => exact .error rfl
  | loggedIn _ _ session attempted obtained accepted =>
      exact .loggedIn session attempted obtained accepted rfl rfl
  | adopt _ _ trapChannel haasChannel i j obtained first second =>
      refine .adopt trapChannel haasChannel obtained ?_
      rw [second, first]
      simp
  | relay =>
      refine .idle (s.tick + 1) (by omega) ?_ ?_
      · simp [Proxy.relayed, Proxy.idled]
      · simp [Proxy.relayed, Proxy.idled]
  | discard _ _ isStderr bytes cell callbacks outlet answer waited =>
      rcases waited with rfl | ⟨b, rfl⟩
      · exact .same (Proxy.context_updateChannel _ _ _)
      · refine .idle s.tick (Nat.le_refl _) ?_ ?_
        · simp [Proxy.idled]
        · simp [Proxy.idled]
  | reap _ _ pointer cell item eq loaded closed out => exact .same (by rw [out])
  | _ => exact .same (by simp [Proxy.filling])

/-- **A step does no more to the context.** -/
theorem recontext (advance : Advance w serial h s l s') : Recontext w serial h s l s' := by
  cases advance with
  | change change => exact recontext_of_change change
  | limit => exact .limit rfl (Nat.lt_succ_self _)
  | usePool _ _ pointer => exact .pool pointer rfl
  | _ => exact .same rfl

/-- What is logged in a step is logged in a state that differs in little. -/
theorem within_of_advance (advance : Advance w serial h s l s') : ∀ e ∈ l, Within s e.before := by
  have here := within_refl s
  cases advance with
  | change change => exact within_of_change change
  | _ => simp [byeLog, here, here.tock, here.tock.tock]

/-- The states of a step are in order if the states that differ in little are, and
the one after the step comes after them. -/
theorem pairwise_of_advance {R : Proxy → Proxy → Prop} (advance : Advance w serial h s l s')
    (inside : ∀ a b, Within s a → Within s b → R a b) (after : ∀ a, Within s a → R a s') :
    (s :: (l.map (fun e => e.before) ++ [s'])).Pairwise R := by
  have within : ∀ a ∈ s :: l.map (fun e => e.before), Within s a := by
    intro a mem
    rcases List.mem_cons.mp mem with rfl | mem
    · exact within_refl a
    · obtain ⟨e, known, rfl⟩ := List.mem_map.mp mem
      exact within_of_advance advance e known
  rw [← List.cons_append, List.pairwise_append]
  refine ⟨List.pairwise_of_forall_mem_list fun a ha b hb => inside a b (within a ha) (within b hb),
    List.pairwise_singleton _ _, ?_⟩
  intro a ha b hb
  rw [List.mem_singleton.mp hb]
  exact after a (within a ha)

/-- The interactions with the world are counted up. -/
theorem tick_of_advance (advance : Advance w serial h s l s') : s.tick ≤ s'.tick := by
  have next : s.tick ≤ s.tick + 1 := Nat.le_succ _
  cases advance with
  | change change =>
      cases change with
      | once => split <;> exact next
      | adopt _ _ trapChannel haasChannel i j obtained first second =>
          rw [second, first]
          simp only [tick_effect, Proxy.tick_tock]
          omega
      | relay =>
          simp only [Proxy.relayed, Proxy.idled, Proxy.tick_updateChannel, Proxy.tick_tock,
            tick_effect]
          omega
      | discard _ _ isStderr bytes cell callbacks outlet answer waited =>
          rw [Proxy.tick_updateChannel]
          rcases waited with rfl | ⟨b, rfl⟩
          · exact Nat.le_refl _
          · exact next
      | register _ _ offered pointer cell added stored pair filled _ mid t later => exact later
      | reap _ _ pointer cell item eq loaded closed out => rw [out]
      | giveUp => exact Nat.le_add_right _ 2
      | _ => simp [Proxy.idled]
  | bye => exact Nat.le_add_right _ 2
  | wait | event | limit => exact next
  | _ => exact Nat.le_refl _

/-- Sessions are only counted up, by calls of `ssh_new`. -/
theorem sessions_of_advance (advance : Advance w serial h s l s') :
    s'.sessions = s.sessions ∧ (∀ e ∈ l, e.action = .call .new → e.answer ≠ sshOk) ∨
      s'.sessions = s.sessions + 1 ∧ l = [⟨s.tock, .call .new, sshOk⟩] := by
  cases advance with
  | change change =>
      cases change with
      | call _ _ c i licensed =>
          -- only `ssh_new` that succeeds counts
          by_cases new : c = .new ∧ i = sshOk
          · obtain ⟨rfl, rfl⟩ := new
            exact .inr ⟨rfl, rfl⟩
          · refine .inl ⟨?_, by simpa using fun isNew ok => new ⟨isNew, ok⟩⟩
            cases c with
            | new =>
                have refused : i ≠ sshOk := fun ok => new ⟨rfl, ok⟩
                simp [Call.effect, if_neg refused, Proxy.tock]
            | setCallbacks | write => exact Proxy.sessions_updateChannel _ _ _
            | channelNew | openReplyAccept => simp only [Call.effect]; split <;> rfl
            | sendEof =>
                simp only [Call.effect]
                split
                · exact Proxy.sessions_updateChannel _ _ _
                · rfl
            | _ => rfl
      | once _ _ r => exact .inl ⟨by split <;> rfl, by cases r <;> simp [OnceRequest.call]⟩
      | adopt _ _ trapChannel haasChannel i j obtained first second =>
          refine .inl ⟨?_, by simp⟩
          rw [second, first]
          simp [Call.effect, Proxy.tock]
      | relay =>
          exact .inl ⟨by simp [Proxy.relayed, Proxy.idled, Proxy.tock, Call.effect],
            by simp [relayLog]⟩
      | discard _ _ isStderr bytes cell callbacks outlet answer waited =>
          refine .inl ⟨?_, by simp⟩
          rw [Proxy.sessions_updateChannel]
          rcases waited with rfl | ⟨b, rfl⟩ <;> rfl
      | register _ _ offered pointer cell added stored pair filled _ mid =>
          refine .inl ⟨rfl, fun e mem new => ?_⟩
          obtain ⟨-, ⟨allocation, action⟩ | ⟨ch, action⟩⟩ := mid e mem <;>
            cases new.symm.trans action
      | reap _ _ pointer cell item eq loaded closed out =>
          exact .inl ⟨by rw [out], by simp⟩
      | _ => exact .inl ⟨by simp [Proxy.tock, Proxy.idled], by simp [byeLog]⟩
  | event _ _ i about =>
      refine .inl ⟨rfl, ?_⟩
      rcases about with rfl | rfl <;> simp
  | _ => exact .inl ⟨rfl, by simp [byeLog]⟩

/-! ## From the log to the step -/

/-- Why an entry is logged after the history `h` in the state `s`. -/
def Warranted (w : World) (h : List Entry) (s : Proxy) (e : Entry) : Prop :=
  match e.action with
  | .call .new => Attempted h s.context
  | .call .openReplyAccept => Acceptable w h s.context ∧ e.before = s.tock
  | .call (.eventDopoll time) => Waits w h s time ∧ e.before = s.tock
  | .call (.eventAddSession session) | .call (.eventRemoveSession session) =>
      session = some s.context.trapSession ∨ session = s.context.haasSession ∧
        (s.context.authenticated = true ∨ s.stage = .relay)
  | .call (.disconnect session) =>
      session = s.context.trapSession ∨ NewSession h s.context session ∨ s.stage = .teardown
  | .call (.free session) => NewSession h s.context session ∨ s.stage = .teardown
  | .leave cb => Answered h e.before e.answer cb ∧ e.before.context = s.context ∨
      ∃ ch event, cb = .channel ch event
  | _ => True

/-- A call that was licensed is warranted by its licence. -/
private theorem warranted_of_licensed {c : Call} {i : Int} (licensed : Licensed w serial h s c) :
    Warranted w h s ⟨s.tock, .call c, i⟩ := by
  cases c <;> first
    | trivial
    | exact False.elim licensed
    | exact licensed
    | exact ⟨licensed, rfl⟩
    | exact .inl licensed

/-- **Every entry of a change** is warranted by what the change was made for. -/
private theorem warranted_of_change (change : Change w serial h s l s') :
    ∀ e ∈ l, Warranted w h s e := by
  cases change with
  | call _ _ c i licensed => simpa using warranted_of_licensed licensed
  | giveUp _ _ session i j obtained => simp [byeLog, Warranted, obtained]
  | leave _ _ cb back answered => simp [Warranted, answered]
  | once _ _ r => cases r <;> simp [Warranted, OnceRequest.call]
  | register _ _ offered pointer cell added stored pair filled _ mid =>
      intro e mem
      obtain ⟨-, ⟨allocation, action⟩ | ⟨ch, action⟩⟩ := mid e mem <;> simp [Warranted, action]
  | _ => simp [relayLog, Warranted]

/-- **What is logged is logged for a reason.** -/
theorem warranted (advance : Advance w serial h s l s') : ∀ e ∈ l, Warranted w h s e := by
  cases advance with
  | change change => exact warranted_of_change change
  | wait _ _ time i waits => simp [Warranted, waits]
  | event _ _ i about which => rcases about with rfl | rfl <;> simp [Warranted, which]
  | bye _ _ session i j torndown => simp [byeLog, Warranted, torndown]
  | _ => simp [Warranted]

/-! ## The numbers of the sessions

A session is known by its number, and one that is obtained gets a number that was not used
before. -/

/-- The client's session is number 0, the backend's another one that `ssh_new`
has returned. -/
structure Proxy.Numbered (s : Proxy) : Prop where
  trapSession : s.context.trapSession = 0
  one_le : 1 ≤ s.sessions
  /-- The session of the backend comes behind the client's. -/
  haasSession : ∀ session, s.context.haasSession = some session → 1 ≤ session ∧ session < s.sessions

namespace Proxy.Numbered

theorem ne (numbered : s.Numbered) : s.context.haasSession ≠ some s.context.trapSession := by
  intro same
  have range := numbered.haasSession _ same
  rw [numbered.trapSession] at range
  exact Nat.not_succ_le_zero 0 range.1

/-- Numbering is about the sessions in the context and how many there were, which
nothing within a step changes. -/
theorem within (numbered : s.Numbered) (within : Within s t) : t.Numbered := by
  obtain ⟨⟨timer, context⟩, -, sessions⟩ := within
  refine ⟨?_, ?_, ?_⟩
  · rw [context]
    exact numbered.trapSession
  · rw [sessions]
    exact numbered.one_le
  · rw [context, sessions]
    exact numbered.haasSession

end Proxy.Numbered

/-- The sessions in a history are numbered, and so is the state. -/
structure Numbering (h : List Entry) (s : Proxy) : Prop where
  here : s.Numbered
  before : ∀ e ∈ h, e.before.Numbered
  /-- Whatever `ssh_new` has returned so far is below the number of the next session. -/
  new : ∀ e ∈ h, e.action = .call .new → e.answer = sshOk → e.before.sessions < s.sessions

/-- **The step.** A session that becomes the backend's was new, so its number is not the
client's. -/
theorem numbering_advance (numbering : Numbering h s) (advance : Advance w serial h s l s') :
    Numbering (h ++ l) s' := by
  obtain ⟨here, before, new⟩ := numbering
  have within := within_of_advance advance
  have le : s.sessions ≤ s'.sessions := by
    rcases sessions_of_advance advance with ⟨same, -⟩ | ⟨more, -⟩ <;> omega
  refine ⟨⟨?_, Nat.le_trans here.one_le le, ?_⟩, ?_, ?_⟩
  · have trapSession := here.trapSession
    cases recontext advance with
    | grant nested r eq | once r channel first eq =>
        rw [eq]
        cases r <;> exact trapSession
    | same eq | idle _ _ _ eq | limit eq | closed eq | failed _ eq | error eq
    | loggedIn _ _ _ _ eq | adopt _ _ _ eq | pool _ eq =>
        rw [eq]
        exact trapSession
  · have kept (session : SessionId) (eq : s.context.haasSession = some session) :
        1 ≤ session ∧ session < s'.sessions := by
      obtain ⟨above, below⟩ := here.haasSession session eq
      exact ⟨above, Nat.lt_of_lt_of_le below le⟩
    cases recontext advance with
    | grant nested r eq | once r channel first eq =>
        rw [eq]
        cases r <;> exact kept
    -- the session was returned by an earlier `ssh_new`
    | loggedIn session attempted obtained accepted eq =>
        rw [eq]
        rintro _ ⟨⟩
        obtain ⟨h₀, e, h₁, split, action, answer, rfl, -⟩ := obtained
        have mem : e ∈ h := split ▸ List.mem_append_right h₀ (.head h₁)
        exact ⟨(before e mem).one_le, Nat.lt_of_lt_of_le (new e mem action answer) le⟩
    | same eq | idle _ _ _ eq | limit eq | closed eq | failed _ eq | error eq
    | adopt _ _ _ eq | pool _ eq =>
        rw [eq]
        exact kept
  · intro e mem
    exact (List.mem_append.mp mem).elim (before e) fun mem => here.within (within e mem)
  · intro e mem action ok
    rcases List.mem_append.mp mem with mem | mem
    · exact Nat.lt_of_lt_of_le (new e mem action ok) le
    · rcases sessions_of_advance advance with ⟨-, fails⟩ | ⟨more, eq⟩
      · exact absurd ok (fails e mem action)
      · rw [eq] at mem
        rw [List.mem_singleton.mp mem, more]
        exact Nat.lt_succ_self _

/-- At first there is the client's session, which has the number 0. -/
theorem numbering_initial : Numbering [] Proxy.initial :=
  ⟨⟨rfl, Nat.le_refl _, nofun⟩, List.forall_mem_nil _, List.forall_mem_nil _⟩

end Steps

end HaasProxy
