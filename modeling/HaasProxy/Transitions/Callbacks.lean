import HaasProxy.Transitions.Forwards

/-!
# Callbacks as steps

Every callback makes the changes of `Change` and no others.  A login, the
registration of both session channels and, while callbacks do not nest, a request
that is passed on once and data that is passed on are each one step.

## Main results

* `follows_data` — data is passed on in one step, while callbacks do not nest;
* `walks_deliver` — a callback makes changes only, whichever it is;
* `walks_dispatchWithin` — so do callbacks in any order and nested to any depth, and those
  that are serial make the serial ones.

## Design notes

**Serial or not.**  `serial` stands for the dispatcher being one that makes no callbacks of
its own, which is depth 1.  Then whatever a callback has read is still so when it comes back
from a call.  The lemmas about the stretches are about this dispatcher, and the general ones
take the same code apart into single updates.

**Why the password is a stretch of its own.**  Between the arrival of a password and the
answer stored, `HaasConnect` makes a dozen calls, none of which handles packets.
`Reads` says that of a program, `Continues` of two points of its run, and `Connected` what is
known when it succeeds.  The steps `loggedIn`, `failed` and `giveUp` get their premises
from there.
-/

namespace HaasProxy

open Traced

/-! ## A password

`HaasConnect` handles no packets, so the context stays as it was when the
password arrived until the answer of the backend is stored. -/

section Password

variable {w : World} {serial : Prop} {dispatch : Nat → ProxyM Unit} {h h' h'' : List Entry}
  {s s' s'' : Proxy} {α β : Type}

/-- The history went on, no session was given back, and the context is as it
was. -/
structure Continues (h : List Entry) (s : Proxy) (h' : List Entry) (s' : Proxy) : Prop where
  /-- What was logged meanwhile gives no session back. -/
  more : ∃ l, h' = h ++ l ∧ ∀ e ∈ l, ∀ session, ¬ e.action.Returns session
  context : s'.context = s.context

theorem continues_refl (h : List Entry) (s : Proxy) : Continues h s h s :=
  ⟨⟨[], (List.append_nil h).symm, List.forall_mem_nil _⟩, rfl⟩

/-- What was added, and that no session was given back, adds up. -/
theorem Continues.trans (first : Continues h s h' s') (second : Continues h' s' h'' s'') :
    Continues h s h'' s'' := by
  obtain ⟨l, rfl, none⟩ := first.more
  obtain ⟨l', rfl, none'⟩ := second.more
  refine ⟨⟨l ++ l', List.append_assoc h l l', ?_⟩, second.context.trans first.context⟩
  intro e mem
  exact (List.mem_append.mp mem).elim (none e) (none' e)

theorem Continues.mem (keeps : Continues h s h' s') {e : Entry} (mem : e ∈ h) : e ∈ h' := by
  obtain ⟨l, rfl, -⟩ := keeps.more
  exact List.mem_append_left l mem

/-- The program makes changes, and the context stays as it is. -/
def Reads (w : World) (serial : Prop) (m : ProxyM α) : Prop :=
  ∀ h s, Follows (Change w serial) m h s fun _ => Continues h s

theorem reads_pure {a : α} : Reads w serial (pure a) := fun h s => follows_pure (continues_refl h s)

/-- The rule of sequence, for programs that leave the context as it is. -/
theorem reads_bind {m : ProxyM α} {k : α → ProxyM β} (first : Reads w serial m)
    (next : ∀ a, Reads w serial (k a)) : Reads w serial (m >>= k) := fun h s =>
  follows_bind (first h s) fun a h' s' keeps =>
    follows_mono (next a h' s') fun _ _ _ => keeps.trans

private theorem reads_ite {c : Prop} [Decidable c] {m m' : ProxyM α} (pos : Reads w serial m)
    (neg : Reads w serial m') : Reads w serial (if c then m else m') := fun h s =>
  follows_ite (fun _ => pos h s) fun _ => neg h s

private theorem reads_when {c : Prop} [Decidable c] {m : ProxyM Unit} (first : Reads w serial m) :
    Reads w serial (when c m) := reads_ite first reads_pure

/-- A call that handles no packets leaves the context as it is. -/
theorem follows_quietRead {c : Call} (quiet : ¬ c.Dispatches) (ordinary : c.Ordinary) :
    Follows (Change w serial) (call w dispatch c) h s fun i h' s' =>
      (∃ e ∈ h', e.action = .call c ∧ e.answer = i ∧ e.before.context = s.context) ∧
        Continues h s h' s' := by
  refine follows_mono (follows_quietCall quiet (licensed_of_ordinary ordinary)
    fun i => (effect_of_ordinary ordinary i s.tock).symm) ?_
  rintro i _ _ ⟨rfl, rfl⟩
  refine ⟨⟨_, List.mem_append_right h (.head _), rfl, rfl, rfl⟩, ⟨_, rfl, ?_⟩, ?_⟩
  · intro e mem session
    rw [List.mem_singleton.mp mem]
    rintro (eq | eq)
    · cases eq
      exact ordinary
    · cases eq
      exact ordinary
  · rw [effect_of_ordinary ordinary]
    rfl

/-- A call that handles no packets, hence makes no callbacks that could change the
context. -/
theorem reads_call {c : Call} (quiet : ¬ c.Dispatches) (ordinary : c.Ordinary) :
    Reads w serial (call w dispatch c) := fun _ _ =>
  follows_mono (follows_quietRead quiet ordinary) fun _ _ _ => And.right

/-- `HaasAuthenticate`: where it succeeds the backend has accepted. -/
theorem follows_haasAuthenticate {session : SessionId} {password : List UInt8} :
    Follows (Change w serial) (haasAuthenticate w dispatch session password) h s fun i h' s' =>
      Continues h s h' s' ∧ (0 < i → Accepted h' s'.context session) := by
  have quiet : ¬ (Call.userauthNone session).Dispatches := fun no => no
  have quiet' : ¬ (Call.userauthList session).Dispatches := fun no => no
  have quiet'' : ¬ (Call.userauthPassword session password).Dispatches := fun no => no
  refine follows_bind (reads_call quiet trivial h s) fun _ h₁ s₁ keeps₁ => ?_
  refine follows_ite (fun _ => follows_pure ⟨keeps₁, nofun⟩) fun _ => ?_
  refine follows_bind (reads_call quiet' trivial h₁ s₁) fun _ h₂ s₂ keeps₂ => ?_
  have keeps := keeps₁.trans keeps₂
  refine follows_ite (fun _ => follows_pure ⟨keeps, nofun⟩) fun _ => ?_
  refine follows_bind (follows_quietRead quiet'' trivial) ?_
  rintro i h₃ s₃ ⟨⟨e, mem, action, answer, context⟩, keeps₃⟩
  refine follows_pure ⟨keeps.trans keeps₃, fun success => ?_⟩
  refine ⟨e, mem, ⟨password, action⟩, ?_, context.trans keeps₃.context.symm⟩
  by_contra failed
  rw [if_neg (answer ▸ failed)] at success
  exact absurd success (by decide)

/-- The session that `ssh_new()` gave is still the one that is tried: no other was made
or given back meanwhile. -/
private theorem newSession_of_continues {session : SessionId}
    (obtained : NewSession h s.context session)
    (keeps : Continues h s h' s') : NewSession h' s'.context session := by
  obtain ⟨h₀, e, h₁, rfl, action, ok, sessions, context, kept⟩ := obtained
  obtain ⟨l, rfl, none⟩ := keeps.more
  refine ⟨h₀, e, h₁ ++ l, by simp, action, ok, sessions, context.trans keeps.context.symm, ?_⟩
  intro e' mem
  exact (List.mem_append.mp mem).elim (kept e') fun mem => none e' mem session

/-- That a password was tried stays true of a longer history. -/
theorem attempted_of_continues (attempted : Attempted h s.context) (keeps : Continues h s h' s') :
    Attempted h' s'.context := by
  obtain ⟨e, mem, action, context⟩ := attempted
  exact ⟨e, keeps.mem mem, action, context.trans keeps.context.symm⟩

/-- `ssh_new`. -/
theorem follows_sshNew (attempted : Attempted h s.context) :
    Follows (Change w serial) (sshNew w dispatch) h s fun session h' s' =>
      Continues h s h' s' ∧ ∀ id, session = some id → NewSession h' s'.context id := by
  refine follows_bind (follows_gets (P := fun id h' s' => id = s.sessions ∧ h' = h ∧ s' = s)
    ⟨rfl, rfl, rfl⟩) ?_
  rintro _ h s ⟨rfl, rfl, rfl⟩
  have quiet : ¬ Call.new.Dispatches := fun no => no
  refine follows_bind (follows_quietCall quiet attempted fun _ => rfl) ?_
  rintro i _ _ ⟨rfl, rfl⟩
  have context : (Call.new.effect i s.tock).context = s.context := by
    simp only [Call.effect]
    split <;> rfl
  refine follows_pure ⟨⟨⟨_, rfl, ?_⟩, context⟩, fun id obtained => ?_⟩
  · intro e mem session
    rw [List.mem_singleton.mp mem]
    rintro (eq | eq) <;> cases eq
  · split at obtained
    · cases obtained
      exact ⟨h, _, [], rfl, rfl, ‹i = sshOk›, rfl, context.symm, List.forall_mem_nil _⟩
    · cases obtained

/-- What `HaasConnect` has done where it succeeded: it has stored a session whose
password the backend has accepted. -/
def Connected (h : List Entry) (s s' : Proxy) : Prop :=
  ∃ session, Attempted h s.context ∧ NewSession h s.context session ∧
    Accepted h s.context session ∧
    s' = { s with context := { s.context with haasSession := some session } }

/-- `HaasConnect`: on success the context gets the session, and nothing else. -/
theorem trails_haasConnect {user password : CString} (attempted : Attempted h s.context) :
    Trails (Change w serial) (haasConnect w dispatch user password) h s fun i h' s' s'' =>
      s'.context = s.context ∧
        (i = 0 ∧ s'' = s' ∧ Attempted h' s'.context ∨ i ≠ 0 ∧ Connected h' s' s'') := by
  -- where nothing comes of it the password is still being tried
  have failed {h' : List Entry} {s' : Proxy} (tried : Attempted h' s'.context)
      (same : s'.context = s.context) :
      Trails (Change w serial) (pure 0 : ProxyM Int) h' s' fun i h' s' s'' =>
        s'.context = s.context ∧
          (i = 0 ∧ s'' = s' ∧ Attempted h' s'.context ∨ i ≠ 0 ∧ Connected h' s' s'') := by
    refine trails_mono (trails_of_follows (follows_pure (P := fun i h' s' => i = 0 ∧
      s'.context = s.context ∧ Attempted h' s'.context) ⟨rfl, same, tried⟩)) ?_
    rintro _ h' s' _ ⟨rfl, rfl, same, tried⟩
    exact ⟨same, .inl ⟨rfl, rfl, tried⟩⟩
  refine trails_bind (follows_sshNew attempted) fun session h₁ s₁ opened => ?_
  obtain ⟨keeps₁, obtained⟩ := opened
  cases session with
  | none => exact failed (attempted_of_continues attempted keeps₁) keeps₁.context
  | some session =>
      -- none of these calls handles packets
      have quiet (c : Call) (host : c = .optionsSetHost session w.config.haasAddr ∨
          c = .optionsSetPort session w.config.haasPort ∨ c = .optionsSetTimeout session 60 ∨
          c = .optionsSetUser session user ∨ (∃ level, c = .optionsSetLog session level) ∨
          c = .connect session) : Reads w serial (call w dispatch c) := by
        rcases host with rfl | rfl | rfl | rfl | ⟨level, rfl⟩ | rfl <;>
          exact reads_call (fun no => no) trivial
      have logLevel : Reads w serial (whenSome w.config.haasLog fun level => do
          let _ ← call w dispatch (.optionsSetLog session level)) := by
        cases w.config.haasLog with
        | none => exact reads_pure
        | some level => exact reads_bind (quiet _ (by simp)) fun _ => reads_pure
      refine trails_bind (quiet _ (by simp) h₁ s₁) fun _ h₂ s₂ keeps₂ => ?_
      refine trails_bind (quiet _ (by simp) h₂ s₂) fun _ h₃ s₃ keeps₃ => ?_
      refine trails_bind (quiet _ (by simp) h₃ s₃) fun _ h₄ s₄ keeps₄ => ?_
      refine trails_bind (reads_when (reads_bind (quiet (.optionsSetUser session user) (by simp))
        fun _ => reads_pure) h₄ s₄) fun _ h₅ s₅ keeps₅ => ?_
      refine trails_bind (logLevel h₅ s₅) fun _ h₆ s₆ keeps₆ => ?_
      refine trails_bind (quiet (.connect session) (by simp) h₆ s₆) fun i h₇ s₇ keeps₇ => ?_
      have since := keeps₂.trans (keeps₃.trans (keeps₄.trans (keeps₅.trans (keeps₆.trans keeps₇))))
      refine trails_bind (P := fun i h' s' => Continues h₇ s₇ h' s' ∧
        (0 < i → Accepted h' s'.context session)) ?_ ?_
      · refine follows_ite (fun _ => follows_pure ⟨continues_refl _ _, nofun⟩) fun _ => ?_
        split
        · exact follows_stop
        · exact follows_haasAuthenticate
      rintro i h₈ s₈ ⟨keeps₈, accepted⟩
      have new := newSession_of_continues (obtained session rfl) (since.trans keeps₈)
      have keeps := keeps₁.trans (since.trans keeps₈)
      -- the session is stored, or given back
      by_cases success : 0 < i
      · rw [if_pos success]
        refine trails_modify ⟨keeps.context, .inr ⟨by decide, session, ?_⟩⟩
        exact ⟨attempted_of_continues attempted keeps, new, accepted success, rfl⟩
      · rw [if_neg success]
        refine trails_path_bind run_sshDisconnectFree (.of_step (.giveUp h₈ s₈ session _ _ new))
          (failed ?_ keeps.context)
        obtain ⟨e, mem, action, context⟩ := attempted_of_continues attempted keeps
        exact ⟨e, List.mem_append_left _ mem, action, context⟩

/-- `TrapAuthPassword`: where it does not deny, the attempt is not counted. -/
theorem follows_trapAuthPassword {user password : CString} (attempted : Attempted h s.context) :
    Follows (Change w serial) (trapAuthPassword w dispatch user password) h s fun back _ s' =>
      back = sshAuthDenied ∨ s'.context.retries = s.context.retries := by
  refine follows_trails_bind (trails_haasConnect attempted) ?_
  rintro i h₁ s₁ s₂ ⟨same, ⟨rfl, rfl, tried⟩ | ⟨success, session, tried, new, accepted, rfl⟩⟩
  · refine amid_of_follows (follows_bind (P := fun back _ _ => back = sshAuthDenied) ?_ ?_)
    · rw [if_neg (not_not.mpr rfl)]
      refine follows_bind (follows_modify (P := fun _ _ _ => True)
        (.failed h₁ s₂ tried) trivial) fun _ h₂ s₃ _ => ?_
      refine follows_get_bind (follows_bind (follows_when (P := fun _ _ _ => True) (fun _ => ?_)
        fun _ => trivial) fun _ _ _ _ => follows_pure rfl)
      have quiet : ¬ (Call.disconnect s₃.context.trapSession).Dispatches := fun no => no
      refine follows_bind (follows_quietCall quiet rfl fun _ => rfl) fun _ h₄ s₄ _ => ?_
      exact follows_modify (.error h₄ s₄) trivial
    · rintro _ h₂ s₃ rfl
      exact follows_bind (walks_idleTimerReset h₂ s₃) fun _ _ _ _ => follows_pure (.inl rfl)
  · rw [if_pos success]
    -- the session is stored and the client authenticated in one step
    refine amid_bind (rfl : (modifyContext _ >>= fun _ => pure sshAuthSuccess : ProxyM Int) _ = _)
      (amid_step (.loggedIn h₁ s₁ session tried new accepted) ?_)
    refine follows_bind follows_idleTimerReset ?_
    rintro _ _ _ ⟨rfl, rfl⟩
    have retries : s₁.context.retries = s.context.retries := by rw [same]
    exact follows_pure (.inr retries)

/-- A password arrives. -/
theorem walks_password {user password : CString} : Walks (Change w serial)
    (logged (.authPassword user password) (trapAuthPassword w dispatch user password)) := by
  intro h s
  refine follows_bind (follows_tell (P := fun _ h' s' => Attempted h' s'.context)
    (.enter h s (.authPassword user password)) ?_) fun _ h₁ s₁ attempted => ?_
  · exact ⟨_, List.mem_append_right h (.head _), ⟨user, password, rfl⟩, rfl⟩
  refine follows_bind (follows_trapAuthPassword attempted).path ?_
  rintro back _ s₂ ⟨post, l, rfl, -⟩
  refine follows_bind (follows_tell (P := fun _ _ _ => True) (.leave _ s₂ _ back ?_) trivial)
    fun _ _ _ _ => follows_pure trivial
  refine post.imp_right fun same => ⟨s₁.context, ?_, same⟩
  obtain ⟨e, mem, action, context⟩ := attempted
  exact ⟨e, List.mem_append_left l mem, action, context⟩

end Password

/-! ## Requests and notices

Each shape of a callback is one lemma, with the call and the change of the context as its
parameters. -/

section Requests

variable {w : World} {serial : Prop} {dispatch : Nat → ProxyM Unit} {h : List Entry} {s : Proxy}
  (hd : ∀ t, Walks (Change w serial) (dispatch t)) (still : serial → ∀ t, dispatch t = pure ())

/-- Without a channel to pass it on to, a request is not granted and nothing happens. -/
theorem run_passOn_none {channel : Context → Option ChannelId} {c : ChannelId → Call}
    (null : channel s.context = none) : passOn w dispatch channel c s = ⟨[], s, .ok false⟩ := by
  unfold passOn
  rw [bind_of_ok (rfl : (get : ProxyM Proxy) s = ⟨[], s, .ok s⟩)]
  simp only [null]
  rfl

/-- A request while callbacks do not nest. -/
theorem run_passOn_some {channel : Context → Option ChannelId} {c : ChannelId → Call}
    {ch : ChannelId} (alone : ∀ t, dispatch t = pure ()) (set : channel s.context = some ch)
    (dispatches : (c ch).Dispatches) :
    passOn w dispatch channel c s =
      ⟨[⟨s.tock, .call (c ch), w.answer s.tick⟩, ⟨s.tock, .returned (c ch), w.answer s.tick⟩],
        s.tock, .ok (w.answer s.tick = sshOk)⟩ := by
  unfold passOn
  rw [bind_of_ok (rfl : (get : ProxyM Proxy) s = ⟨[], s, .ok s⟩)]
  simp only [set, call]
  rw [bind_of_ok (run_callWith_still dispatches alone)]
  rfl

theorem walks_passOn {channel : Context → Option ChannelId} {c : ChannelId → Call}
    (calls : ∀ ch, Walks (Change w serial) (call w dispatch (c ch))) :
    Walks (Change w serial) (passOn w dispatch channel c) := by
  refine walks_bind walks_get fun s => ?_
  cases channel s.context with
  | none => exact walks_pure
  | some ch => exact walks_bind (calls ch) fun _ => walks_pure

include hd

/-- A request that is passed on each time makes the call and resets the timer. -/
theorem walks_passOnEach {c : ChannelId → Call} (ordinary : ∀ ch, (c ch).Ordinary) :
    Walks (Change w serial) (passOnEach w dispatch c) :=
  walks_bind (walks_passOn fun ch => walks_call hd (ordinary ch)) fun _ =>
    walks_bind walks_idleTimerReset fun _ => walks_pure

theorem walks_passNotice {channel : Context → Option ChannelId} {c : ChannelId → Call}
    (ordinary : ∀ ch, (c ch).Ordinary) :
    Walks (Change w serial) (passNotice w dispatch channel c) :=
  walks_bind (walks_passOn fun ch => walks_call hd (ordinary ch)) fun _ => walks_idleTimerReset

/-- The size of the window is passed on if there is a terminal. -/
theorem walks_trapChannelPtyWindowChange {width height pxwidth pwheight : Int} :
    Walks (Change w serial)
      (trapChannelPtyWindowChange w dispatch width height pxwidth pwheight) :=
  walks_bind walks_get fun _ =>
    walks_bind (walks_ite (walks_passOn fun _ => walks_call hd trivial) walks_pure) fun _ =>
    walks_bind walks_idleTimerReset fun _ => walks_pure

omit hd in
/-- The requests that are granted once wait for the backend, so libssh may make
callbacks meanwhile. -/
theorem OnceRequest.dispatches (r : OnceRequest) (ch : ChannelId) : (r.call ch).Dispatches := by
  cases r <;> trivial

omit hd in
/-- Where callbacks nest nothing more is asked of them. -/
theorem OnceRequest.licensed (r : OnceRequest) (nested : ¬ serial) (ch : ChannelId) :
    Licensed w serial h s (r.call ch) := by
  cases r <;> exact nested

omit hd in
/-- Their calls have no effect on the state of the proxy; the grant is noted by the
callback. -/
theorem OnceRequest.effect (r : OnceRequest) (ch : ChannelId) (i : Int) (s : Proxy) :
    (r.call ch).effect i s = s := by
  cases r <;> rfl

include still in
/-- A request that is passed on until it is granted once. -/
theorem walks_passOnOnce (r : OnceRequest) :
    Walks (Change w serial) (passOnOnce w dispatch r.granted r.grant r.call) := by
  intro h s
  refine follows_get_bind (follows_bind (P := fun _ _ _ => True)
    (follows_when (fun first => ?_) fun _ => trivial) fun _ h' s' _ => ?_)
  · by_cases alone : serial
    · cases channel : s.context.haasChannel with
      | none =>
          refine follows_path_bind (run_passOn_none channel) (.refl h s) ?_
          exact follows_when nofun fun _ => trivial
      | some ch =>
          -- the answer is looked at before anything else happens
          have asked := run_passOn_some (w := w) (c := r.call) (still alone) channel (r.dispatches ch)
          have run : (do
              let ok ← passOn w dispatch (fun c => c.haasChannel) r.call
              when ok (modifyContext r.grant)) s =
            ⟨[⟨s.tock, .call (r.call ch), w.answer s.tick⟩,
              ⟨s.tock, .returned (r.call ch), w.answer s.tick⟩],
              if w.answer s.tick = sshOk then { s.tock with context := r.grant s.context }
              else s.tock, .ok ()⟩ := by
            rw [bind_of_ok asked]
            by_cases ok : w.answer s.tick = sshOk
            · simp only [when, ok]
              rfl
            · simp only [when, ok]
              rfl
          exact follows_run run (.once h s r _ channel (eq_false_of_ne_true first)) trivial
    · refine follows_bind (walks_passOn (fun ch => walks_callWith hd
        (fun _ _ => r.licensed alone ch) fun i s => (r.effect ch i s.tock).symm) h s)
        fun ok h₁ s₁ _ => ?_
      exact walks_when (walks_modify fun h s => .grant h s alone r) h₁ s₁
  · exact follows_get_bind (follows_bind (walks_idleTimerReset h' s') fun _ _ _ _ =>
      follows_pure trivial)

end Requests

/-! ## The session channels

The request obtains two channels and stores them; where one of them cannot be had, what
was obtained is freed. -/

section SessionChannels

variable {w : World} {serial : Prop} {dispatch : Nat → ProxyM Unit} {h : List Entry} {s : Proxy}
  (hd : ∀ t, Walks (Change w serial) (dispatch t)) (still : serial → ∀ t, dispatch t = pure ())

include hd

/-- A channel that came to nothing is closed and freed, with the session not blocking. -/
theorem walks_closeUnused {session : Context → Option SessionId} {ch : ChannelId} :
    Walks (Change w serial) (closeUnused w dispatch session ch) :=
  walks_bind walks_get fun _ =>
    walks_bind walks_sshIsBlocking fun _ =>
    walks_bind walks_sshSetBlocking fun _ =>
    walks_bind (walks_call hd trivial) fun _ =>
    walks_bind (walks_sshChannelFree hd) fun _ =>
    walks_bind walks_get fun _ => walks_sshSetBlocking

include still in
/-- `TrapNewChannel`, right after the client's channel was obtained. -/
theorem follows_openBackend {e : Entry} (last : e ∈ h)
    (call : e.action = .call (.channelNew e.before.context.trapSession)) (ok : e.answer = sshOk)
    (null : e.before.context.trapChannel = none)
    (same : s = e.before.obtain e.before.context.trapSession) :
    Follows (Change w serial) (openBackend w dispatch e.before.channels.next) h s
      fun _ _ _ => True := by
  refine follows_get_bind (follows_bind (follows_sshChannelNew fun owner eq => .inr eq) ?_)
  rintro haasChannel _ s₁ (rfl | ⟨owner, set, rfl, rfl, rfl⟩)
  · exact follows_pure trivial
  refine follows_bind (follows_nestedCall hd still (c := .openSession _) trivial trivial
    fun _ => rfl) ?_
  rintro i _ s₂ ⟨l, rfl, exact_⟩
  refine follows_ite (fun _ => ?_) fun _ => ?_
  · exact follows_bind (walks_closeUnused hd _ _) fun _ _ _ _ => follows_pure trivial
  refine follows_of_amid (amid_bind run_sshSetChannelCallbacks (amid_bind run_sshSetChannelCallbacks
    (amid_bind (rfl : (modify _ : ProxyM Unit) _ = _)
      (amid_step (.adopt _ s₂ e.before.channels.next s.channels.next _ _ ?_ rfl rfl)
        (follows_pure trivial)))))
  refine ⟨e, ?_, ⟨s.tock, .call (.channelNew owner), sshOk⟩, ?_, owner, call, ok, rfl, null, rfl,
    rfl, rfl, set, fun alone => ⟨⟨s.tick + 1, ?_⟩, ⟨_, exact_ alone⟩⟩⟩
  · simp [last]
  · simp
  · rw [same]
    rfl

include still in
/-- `TrapNewChannel` answers with the channel of the context. -/
theorem follows_trapNewChannel :
    Follows (Change w serial) (trapNewChannel w dispatch) h s fun ch _ s' =>
      ch = s'.context.trapChannel := by
  have leaves (h' : List Entry) (s' : Proxy) : Follows (Change w serial) (do
      let s ← get
      idleTimerReset w
      pure s.context.trapChannel) h' s' fun ch _ s' => ch = s'.context.trapChannel := by
    refine follows_get_bind (follows_bind follows_idleTimerReset ?_)
    rintro _ _ _ ⟨rfl, rfl⟩
    exact follows_pure rfl
  refine follows_get_bind (follows_bind (P := fun _ _ _ => True) (follows_when (fun null => ?_)
    fun _ => trivial) fun _ h' s' _ => leaves h' s')
  refine follows_bind (follows_sshChannelNew fun owner eq => .inl (Option.some.inj eq).symm) ?_
  rintro trapChannel _ s₁ (rfl | ⟨owner, set, rfl, rfl, rfl⟩)
  · exact follows_pure trivial
  cases set
  refine follows_bind (follows_openBackend hd still (e := ⟨s.tock,
    .call (.channelNew s.context.trapSession), sshOk⟩) (List.mem_append_right h (.head _)) rfl rfl
    null rfl) fun kept h' s' _ => ?_
  exact walks_when (walks_closeUnused hd) h' s'

end SessionChannels

/-! ## Data

While callbacks do not nest a data callback runs in one of three ways: it passes
what is buffered on to its outlet, it has no outlet, or it stops because its pair
was freed. -/

section Data

variable {w : World} {dispatch : Nat → ProxyM Unit} {s : Proxy} {ch out : ChannelId}
  {table : ChannelCallbacks} {isStderr : Bool} {data : List UInt8}

/-- How a data callback runs while callbacks do not nest. -/
inductive DataRun (w : World) (s : Proxy) (ch : ChannelId) (table : ChannelCallbacks)
    (isStderr : Bool) (data : List UInt8) : Run Entry Stop Proxy Int → Prop
  /-- The data is written to the outlet, and the answer is what was accepted. -/
  | passed {out : ChannelId} (i : Int) (during after : SessionId → Bool)
      (outlet : s.outlet w ch table = some out) :
      DataRun w s ch table isStderr data
        ⟨[⟨{ s.tock with blocking := during }, .call (.write out isStderr data), i⟩,
          ⟨(Call.write out isStderr data).effect i { s.tock with blocking := during },
            .returned (.write out isStderr data), i⟩],
          ({ (Call.write out isStderr data).effect i { s.tock with blocking := during } with
            blocking := after } : Proxy).idled w,
          .ok (writeResult (s.channels.cell out) i data)⟩
  /-- There is no outlet, and nothing is written. -/
  | dropped {back : Int} {s' : Proxy} (outlet : s.outlet w ch table = none)
      (answer : back = sshError ∨ w.config.forwardMode = some .null ∧ back = data.length ∧
        ∃ p, table = .forwardChannelCB p)
      (waited : s' = s ∨ ∃ b, s' = ({ s with blocking := b } : Proxy).idled w) :
      DataRun w s ch table isStderr data ⟨[], s', .ok back⟩
  /-- The pair of the channel was freed. -/
  | stopped (stop : Stop) : DataRun w s ch table isStderr data ⟨[], s, .error stop⟩

theorem run_idleTimerReset : idleTimerReset w s = ⟨[], s.idled w, .ok ()⟩ := rfl

variable (w dispatch s isStderr data) in
/-- A write in which the session is not blocking. -/
theorem run_writeNonblocking (alone : ∀ t, dispatch t = pure ())
    (session : Context → Option SessionId) (out : ChannelId) :
    ∃ during after, writeNonblocking w dispatch session (some out) isStderr data s =
      ⟨[⟨{ s.tock with blocking := during }, .call (.write out isStderr data), w.answer s.tick⟩,
        ⟨(Call.write out isStderr data).effect (w.answer s.tick) { s.tock with blocking := during },
          .returned (.write out isStderr data), w.answer s.tick⟩],
        { (Call.write out isStderr data).effect (w.answer s.tick)
          { s.tock with blocking := during } with blocking := after },
        .ok (writeResult (s.channels.cell out) (w.answer s.tick) data)⟩ := by
  obtain ⟨during, unblocked⟩ := run_sshSetBlocking (session s.context) false s
  have written : sshChannelWrite w dispatch (some out) isStderr data { s with blocking := during } =
      ⟨[⟨{ s.tock with blocking := during }, .call (.write out isStderr data), w.answer s.tick⟩,
        ⟨(Call.write out isStderr data).effect (w.answer s.tick) { s.tock with blocking := during },
          .returned (.write out isStderr data), w.answer s.tick⟩],
        (Call.write out isStderr data).effect (w.answer s.tick) { s.tock with blocking := during },
        .ok (writeResult (s.channels.cell out) (w.answer s.tick) data)⟩ := by
    have called : callWith w dispatch (.write out isStderr data)
        (Call.write out isStderr data).effect { s with blocking := during } = _ :=
      run_callWith_still trivial alone
    show (gets (fun s : Proxy => s.channels.cell out) >>= fun c =>
      callWith w dispatch (.write out isStderr data) (Call.write out isStderr data).effect >>=
        fun i => pure (writeResult c i data)) { s with blocking := during } = _
    rw [bind_of_ok (rfl : gets (fun s : Proxy => s.channels.cell out) _ = ⟨[], _, .ok _⟩),
      bind_of_ok called]
    rfl
  obtain ⟨after, restored⟩ := run_sshSetBlocking
    (session ((Call.write out isStderr data).effect (w.answer s.tick)
      { s.tock with blocking := during }).context)
    ((session s.context).elim false s.blocking)
    ((Call.write out isStderr data).effect (w.answer s.tick) { s.tock with blocking := during })
  have got (s : Proxy) : (get : ProxyM Proxy) s = ⟨[], s, .ok s⟩ := rfl
  have asked : sshIsBlocking (session s.context) s =
      ⟨[], s, .ok ((session s.context).elim false s.blocking)⟩ := rfl
  refine ⟨during, after, ?_⟩
  unfold writeNonblocking
  rw [bind_of_ok (got s), bind_of_ok asked, bind_of_ok unblocked, bind_of_ok written,
    bind_of_ok (got _), bind_of_ok restored]
  rfl

variable (w dispatch s isStderr data) in
/-- A write to no channel. -/
theorem run_writeNonblocking_none (session : Context → Option SessionId) :
    ∃ b, writeNonblocking w dispatch session none isStderr data s =
      ⟨[], { s with blocking := b }, .ok sshError⟩ := by
  obtain ⟨during, unblocked⟩ := run_sshSetBlocking (session s.context) false s
  obtain ⟨after, restored⟩ := run_sshSetBlocking (session s.context)
    ((session s.context).elim false s.blocking) { s with blocking := during }
  have got (s : Proxy) : (get : ProxyM Proxy) s = ⟨[], s, .ok s⟩ := rfl
  have asked : sshIsBlocking (session s.context) s =
      ⟨[], s, .ok ((session s.context).elim false s.blocking)⟩ := rfl
  have written (s : Proxy) : sshChannelWrite w dispatch none isStderr data s =
      ⟨[], s, .ok sshError⟩ := rfl
  refine ⟨after, ?_⟩
  unfold writeNonblocking
  rw [bind_of_ok (got s), bind_of_ok asked, bind_of_ok unblocked, bind_of_ok (written _),
    bind_of_ok (got _), bind_of_ok restored]
  rfl

/-- Writing to the outlet, and setting the idle timer. -/
theorem dataRun_write (alone : ∀ t, dispatch t = pure ())
    (session : Context → Option SessionId) {channel : Option ChannelId}
    (outlet : s.outlet w ch table = channel) :
    DataRun w s ch table isStderr data ((do
      let back ← writeNonblocking w dispatch session channel isStderr data
      idleTimerReset w
      pure back) s) := by
  cases channel with
  | none =>
      obtain ⟨b, run⟩ := run_writeNonblocking_none w dispatch s isStderr data session
      rw [bind_of_ok run]
      exact .dropped outlet (.inl rfl) (.inr ⟨b, rfl⟩)
  | some out =>
      obtain ⟨during, after, run⟩ := run_writeNonblocking w dispatch s isStderr data alone session out
      rw [bind_of_ok run]
      exact .passed _ during after outlet

/-- `TrapChannelDataCallback` and `HaasChannelDataCallback`. -/
theorem dataRun_relayData (alone : ∀ t, dispatch t = pure ())
    {session : Context → Option SessionId} {channel : Context → Option ChannelId}
    (outlet : s.outlet w ch table = channel s.context) :
    DataRun w s ch table isStderr data (relayData w dispatch session channel isStderr data s) := by
  unfold relayData
  rw [bind_of_ok (rfl : (get : ProxyM Proxy) s = ⟨[], s, .ok s⟩)]
  cases set : channel s.context with
  | none =>
      rw [set] at outlet
      exact .dropped outlet (.inl rfl) (.inr ⟨s.blocking, rfl⟩)
  | some out =>
      rw [set] at outlet
      exact dataRun_write alone session outlet

/-- `ForwardChannelDataCallback`. -/
theorem dataRun_forwardChannelDataCallback (alone : ∀ t, dispatch t = pure ())
    {session : SessionId} {p : PairId} :
    DataRun w s ch (.forwardChannelCB p) isStderr data
      (forwardChannelDataCallback w dispatch session ch isStderr data p s) := by
  have got (s : Proxy) : (get : ProxyM Proxy) s = ⟨[], s, .ok s⟩ := rfl
  unfold forwardChannelDataCallback
  cases cell : s.pairs.cell p with
  | none =>
      rw [bind_of_error (run_loadPair_of_none cell)]
      exact .stopped _
  | some pair =>
      rw [bind_of_ok (run_loadPair cell)]
      cases context : pair.context with
      | none =>
          refine .dropped ?_ (.inl rfl) (.inl rfl)
          simp [Proxy.outlet, cell, context]
      | some _ =>
          simp only [bind_of_ok (got s)]
          -- what the three modes that pass nothing on have in common
          have drops {back : Int} (outlet : s.outlet w ch (.forwardChannelCB p) = none)
              (answer : back = sshError ∨ w.config.forwardMode = some .null ∧ back = data.length) :
              DataRun w s ch (.forwardChannelCB p) isStderr data ⟨[], s.idled w, .ok back⟩ :=
            .dropped outlet (answer.imp_right fun both => ⟨both.1, both.2, p, rfl⟩)
              (.inr ⟨s.blocking, rfl⟩)
          cases mode : w.config.forwardMode with
          | none => exact drops (by simp [Proxy.outlet, cell, mode]) (.inl rfl)
          | some forwardMode =>
              cases forwardMode with
              | allow | echo =>
                  refine dataRun_write alone _ ?_
                  simp [Proxy.outlet, cell, context, mode]
              | null => exact drops (by simp [Proxy.outlet, cell, mode]) (.inr ⟨mode, rfl⟩)
              | deny | fake => exact drops (by simp [Proxy.outlet, cell, mode]) (.inl rfl)

end Data

/-! ## Delivery

The callbacks are taken one by one as `deliver` makes them, and then the depth by
induction. -/

section Delivery

variable {w : World} {serial : Prop} {dispatch : Nat → ProxyM Unit} {h : List Entry} {s : Proxy}
  (hd : ∀ t, Walks (Change w serial) (dispatch t)) (still : serial → ∀ t, dispatch t = pure ())

/-- A callback whose answer is not restricted. -/
theorem walks_logged {cb : Callback} {m : ProxyM Int} (answers : ∀ h s back, Answered h s back cb)
    (body : Walks (Change w serial) m) : Walks (Change w serial) (logged cb m) :=
  walks_bind (walks_tell fun h s => .enter h s cb) fun _ => walks_bind body fun back =>
    walks_bind (walks_tell fun h s => .leave h s cb back (answers h s back)) fun _ => walks_pure

/-- A callback that returns leaves its entry, what its body logged, and its return. -/
theorem run_logged {cb : Callback} {m : ProxyM Int} {l : List Entry} {s' : Proxy} {back : Int}
    (run : m s = ⟨l, s', .ok back⟩) :
    logged cb m s = ⟨⟨s, .enter cb, 0⟩ :: (l ++ [⟨s', .leave cb, back⟩]), s', .ok back⟩ := by
  unfold logged
  rw [bind_of_ok (rfl : (tell fun s => ⟨s, .enter cb, 0⟩ : ProxyM Unit) s = ⟨[_], s, .ok ()⟩),
    bind_of_ok run]
  rfl

/-- A callback that stops does not return. -/
theorem run_logged_of_error {cb : Callback} {m : ProxyM Int} {l : List Entry} {s' : Proxy}
    {e : Stop}
    (run : m s = ⟨l, s', .error e⟩) :
    logged cb m s = ⟨⟨s, .enter cb, 0⟩ :: l, s', .error e⟩ := by
  unfold logged
  rw [bind_of_ok (rfl : (tell fun s => ⟨s, .enter cb, 0⟩ : ProxyM Unit) s = ⟨[_], s, .ok ()⟩),
    bind_of_error run]
  rfl

/-- What happens on a channel without data leaves its buffers as they are. -/
private theorem consume_eq_arrive {event : ChannelEvent}
    (other : ∀ isStderr bytes, event ≠ .data isStderr bytes)
    (back : Int) : (fun c : Channel => c.consume back event) = fun c => c.arrive event := by
  funext c
  cases event with
  | data isStderr bytes => exact absurd rfl (other isStderr bytes)
  | _ => rfl

/-- **Data is passed on in one step** while callbacks do not nest. -/
theorem follows_data {ch : ChannelId} {c : Channel} {table : ChannelCallbacks} {isStderr : Bool}
    {bytes : List UInt8} {m : ProxyM Int} (cell : s.channels.cell ch = some c)
    (callbacks : c.callbacks = some table)
    (data : DataRun w s ch table isStderr (c.buffered isStderr) (m s)) :
    Follows (Change w serial) (do
      let back ← logged (.channel ch (.data isStderr bytes)) m
      modify fun s => s.updateChannel ch fun c => c.consume back (.data isStderr bytes)) h s
        fun _ _ _ => True := by
  rcases ran : m s with ⟨l, s', value⟩
  rw [ran] at data
  cases data with
  | passed i during after outlet =>
      exact follows_run (bind_of_ok (run_logged ran))
        (.relay h s isStderr bytes i during after cell callbacks outlet rfl) trivial
  | dropped outlet answer waited =>
      exact follows_run (bind_of_ok (run_logged ran))
        (.discard h s isStderr bytes cell callbacks outlet answer waited) trivial
  | stopped stop =>
      have fails : logged (.channel ch (.data isStderr bytes)) m s =
          ⟨[⟨s, .enter (.channel ch (.data isStderr bytes)), 0⟩], s, .error stop⟩ := by
        unfold logged
        rw [bind_of_ok (rfl : (tell fun s => ⟨s, .enter (.channel ch (.data isStderr bytes)), 0⟩ :
          ProxyM Unit) s = ⟨[_], s, .ok ()⟩), bind_of_error ran]
        rfl
      exact follows_of_error (bind_of_error fails) (.of_step (.enter h s _))

/-- A data callback. -/
theorem dataRun_channelCallback (alone : ∀ t, dispatch t = pure ()) {ch : ChannelId} {c : Channel}
    {table : ChannelCallbacks} {isStderr : Bool} {bytes : List UInt8} {m : ProxyM Int}
    (callback : channelCallback w dispatch ch c table (.data isStderr bytes) = some m) :
    DataRun w s ch table isStderr (c.buffered isStderr) (m s) := by
  cases table with
  | trapChannelCB =>
      cases callback
      exact dataRun_relayData alone rfl
  | haasChannelCB =>
      cases callback
      exact dataRun_relayData alone rfl
  | forwardChannelCB p =>
      cases callback
      exact dataRun_forwardChannelDataCallback alone

include hd

/-- A write where callbacks nest: the modes, the call and the modes again are changes of
their own. -/
theorem walks_writeNonblocking (nested : ¬ serial) {session : Context → Option SessionId}
    {ch : Option ChannelId} {isStderr : Bool} {data : List UInt8} :
    Walks (Change w serial) (writeNonblocking w dispatch session ch isStderr data) :=
  walks_bind walks_get fun _ =>
    walks_bind walks_sshIsBlocking fun _ =>
    walks_bind walks_sshSetBlocking fun _ =>
    walks_bind (walks_sshChannelWrite hd nested) fun _ =>
    walks_bind walks_get fun _ => walks_bind walks_sshSetBlocking fun _ => walks_pure

/-- Data is relayed by such a write. While callbacks do not nest it is one step, which
comes first in the file. -/
theorem walks_relayData (nested : ¬ serial) {session : Context → Option SessionId}
    {channel : Context → Option ChannelId} {isStderr : Bool} {data : List UInt8} :
    Walks (Change w serial) (relayData w dispatch session channel isStderr data) := by
  refine walks_bind walks_get fun s => walks_bind ?_ fun _ =>
    walks_bind walks_idleTimerReset fun _ => walks_pure
  cases channel s.context with
  | none => exact walks_pure
  | some ch => exact walks_writeNonblocking hd nested

/-- The data callback of a pair takes steps of the machine only: the write to the other
end, the echo, and the reset of the timer. -/
theorem walks_forwardChannelDataCallback (nested : ¬ serial) {session : SessionId} {ch : ChannelId}
    {isStderr : Bool} {data : List UInt8} {p : PairId} : Walks (Change w serial)
      (forwardChannelDataCallback w dispatch session ch isStderr data p) := by
  refine walks_bind walks_loadPair fun pair => ?_
  split
  · exact walks_pure
  · refine walks_bind walks_get fun _ => walks_bind ?_ fun _ =>
      walks_bind walks_idleTimerReset fun _ => walks_pure
    split
    · exact walks_writeNonblocking hd nested
    · exact walks_writeNonblocking hd nested
    · exact walks_pure
    · exact walks_pure

theorem walks_relayEof {channel : Context → Option ChannelId} :
    Walks (Change w serial) (relayEof w dispatch channel) :=
  walks_bind walks_get fun _ =>
    walks_bind (walks_whenSome fun _ => walks_bind (walks_sshChannelSendEof hd) fun _ =>
      walks_pure) fun _ => walks_idleTimerReset

theorem walks_forwardChannelEofCallback {ch : ChannelId} {p : PairId} :
    Walks (Change w serial) (forwardChannelEofCallback w dispatch ch p) := by
  refine walks_bind walks_loadPair fun pair => ?_
  split
  · exact walks_pure
  · exact walks_bind walks_get fun _ =>
      walks_bind (walks_when (walks_bind (walks_sshChannelSendEof hd) fun _ => walks_pure))
        fun _ => walks_idleTimerReset

include still in
/-- Everything but data, and but the end of a forward. -/
theorem walks_channelCallback {ch : ChannelId} {c : Channel} {table : ChannelCallbacks}
    {event : ChannelEvent} {m : ProxyM Int}
    (callback : channelCallback w dispatch ch c table event = some m)
    (data : (∃ isStderr bytes, event = .data isStderr bytes) → ¬ serial)
    (close : event = .close → ∀ p, table ≠ .forwardChannelCB p) :
    Walks (Change w serial) m := by
  have answerless {m : ProxyM Unit} (walks : Walks (Change w serial) m) :
      Walks (Change w serial) (answerless m) := walks_bind walks fun _ => walks_pure
  have timer : Walks (Change w serial) (idleTimerReset w) := walks_idleTimerReset
  have closed : Walks (Change w serial)
      (modifyContext fun c => { c with closed := true }) := walks_modify .closed
  unfold channelCallback at callback
  split at callback <;> cases callback
  · exact walks_passOnOnce hd still (.pty _ _ _)
  · exact walks_trapChannelPtyWindowChange hd
  · exact walks_passOnOnce hd still .shell
  · exact walks_passOnEach hd fun _ => trivial
  · exact walks_passOnEach hd fun _ => trivial
  · exact walks_bind timer fun _ => walks_pure
  · exact answerless timer
  · exact answerless timer
  · exact answerless (walks_passNotice hd fun _ => trivial)
  · exact answerless (walks_passNotice hd fun _ => trivial)
  · exact answerless (walks_passNotice hd fun _ => trivial)
  · exact walks_relayData hd (data ⟨_, _, rfl⟩)
  · exact answerless (walks_relayEof hd)
  · exact answerless closed
  · exact answerless (walks_passNotice hd fun _ => trivial)
  · exact answerless (walks_passNotice hd fun _ => trivial)
  · exact answerless (walks_passNotice hd fun _ => trivial)
  · exact walks_relayData hd (data ⟨_, _, rfl⟩)
  · exact answerless (walks_relayEof hd)
  · exact answerless closed
  · exact walks_forwardChannelDataCallback hd (data ⟨_, _, rfl⟩)
  · exact answerless (walks_forwardChannelEofCallback hd)
  · exact absurd rfl (close rfl _)

omit hd in
/-- A channel of a forward is closed: the pair is marked. -/
theorem follows_forwardClosed {ch : ChannelId} {c : Channel} {p : PairId}
    (cell : s.channels.cell ch = some c) (callbacks : c.callbacks = some (.forwardChannelCB p)) :
    Follows (Change w serial)
      (logged (.channel ch .close) (answerless (forwardChannelCloseCallback p))) h s
        fun _ _ _ => True := by
  refine follows_bind (follows_tell (P := fun _ h' s' => s' = s ∧
    h' = h ++ [⟨s, .enter (.channel ch .close), 0⟩]) (.enter h s _) ⟨rfl, rfl⟩) ?_
  rintro _ _ _ ⟨rfl, rfl⟩
  refine follows_bind (P := fun _ _ _ => True) (follows_bind (P := fun _ _ _ => True)
    (follows_modifyPair (fun pair found => .mark _ _ found (.inr ?_)) fun _ _ => trivial)
    fun _ _ _ _ => follows_pure trivial) fun back h' s' _ => ?_
  · exact ⟨h, _, ch, c, rfl, rfl, rfl, cell, callbacks⟩
  · exact follows_bind (follows_tell (P := fun _ _ _ => True) (.leave h' s' _ back trivial) trivial)
      fun _ _ _ _ => follows_pure trivial

include still in
/-- An event is delivered on a channel by a callback of its table. What arrives and what
is taken out of the buffer are changes as well, where they are not part of a step. -/
theorem walks_deliverChannel {ch : ChannelId} {event : ChannelEvent} :
    Walks (Change w serial) (deliverChannel w dispatch ch event) := by
  have answers (event : ChannelEvent) (h : List Entry) (s : Proxy) (back : Int) :
      Answered h s back (.channel ch event) := trivial
  refine walks_bind (walks_modify fun h s => .arrive h s ch event) fun _ h s => ?_
  refine follows_get_bind ?_
  cases cell : s.channels.cell ch with
  | none => exact walks_pure h s
  | some c =>
      cases called : c.callbacks.bind fun table => channelCallback w dispatch ch c table event with
      | none =>
          simp only [called]
          exact walks_pure h s
      | some m =>
          obtain ⟨table, callbacks, callback⟩ := Option.bind_eq_some_iff.mp called
          simp only [called]
          by_cases isData : ∃ isStderr bytes, event = .data isStderr bytes
          · obtain ⟨isStderr, bytes, rfl⟩ := isData
            by_cases alone : serial
            · exact follows_data cell callbacks (dataRun_channelCallback (still alone) callback)
            · exact walks_bind (walks_logged (answers _)
                (walks_channelCallback hd still callback (fun _ => alone) nofun)) (fun back =>
                  walks_modify fun h s => .consume h s alone ch back _) h s
          · have consumed (back : Int) : Walks (Change w serial)
                (modify fun s => s.updateChannel ch fun c => c.consume back event : ProxyM Unit) := by
              rw [consume_eq_arrive fun isStderr bytes eq => isData ⟨isStderr, bytes, eq⟩]
              exact walks_modify fun h s => .arrive h s ch event
            by_cases ends : event = .close ∧ ∃ p, table = .forwardChannelCB p
            · obtain ⟨rfl, p, rfl⟩ := ends
              cases callback
              exact follows_bind (follows_forwardClosed cell callbacks) fun back h' s' _ =>
                consumed back h' s'
            · exact walks_bind (walks_logged (answers _)
                (walks_channelCallback hd still callback (absurd · isData)
                  fun close p eq => ends ⟨close, p, eq⟩)) consumed h s

include still in
/-- A request for a direct forward arrives, or another message. -/
theorem walks_trapMessage {msg : Option Message} : Walks (Change w serial)
    (logged (.trapMessage msg) (trapMessageCallback w dispatch msg)) := by
  intro h s
  refine follows_bind (follows_tell (P := fun _ h' s' => s' = s ∧
    h' = h ++ [⟨s, .enter (.trapMessage msg), 0⟩]) (.enter h s _) ⟨rfl, rfl⟩) ?_
  rintro _ _ _ ⟨rfl, rfl⟩
  refine follows_bind (P := fun _ _ _ => True) (follows_bind (P := fun _ _ _ => True) ?_
    fun back h' s' _ => ?_) fun back h' s' _ => ?_
  · split
    · refine follows_forwardOpen hd still ⟨_, List.mem_append_right h (.head _), ?_, rfl⟩
      exact ⟨_, _, _, _, rfl⟩
    · exact follows_pure trivial
  · exact follows_bind (walks_idleTimerReset h' s') fun _ _ _ _ => follows_pure trivial
  · exact follows_bind (follows_tell (P := fun _ _ _ => True) (.leave h' s' _ back trivial) trivial)
      fun _ _ _ _ => follows_pure trivial

include still in
/-- The client asks for a session channel. -/
theorem walks_newChannel : Walks (Change w serial) (logged .newChannel (do
    let ch ← trapNewChannel w dispatch
    pure (ch.elim 0 fun ch => ch + 1))) := by
  intro h s
  refine follows_bind (follows_tell (P := fun _ _ _ => True) (.enter h s .newChannel) trivial)
    fun _ h₁ s₁ _ => ?_
  refine follows_bind (P := fun back _ s' => back ≠ 0 → s'.context.trapChannel ≠ none)
    (follows_bind (follows_trapNewChannel hd still) ?_) fun back h₂ s₂ answers => ?_
  · rintro _ h₂ s₂ rfl
    refine follows_pure fun answered null => answered ?_
    rw [null]
    rfl
  · exact follows_bind (follows_tell (P := fun _ _ _ => True) (.leave h₂ s₂ _ back answers) trivial)
      fun _ _ _ _ => follows_pure trivial

include still in
/-- **A callback makes changes only**, whichever it is. -/
theorem walks_deliver {cb : Callback} : Walks (Change w serial) (deliver w dispatch cb) := by
  have denied : Walks (Change w serial) (trapAuthDenied w) :=
    walks_bind walks_idleTimerReset fun _ => walks_pure
  cases cb with
  | authPassword user password => exact walks_bind walks_password fun _ => walks_pure
  | authNone user => exact walks_bind (walks_logged (fun _ _ _ => trivial) denied) fun _ => walks_pure
  | authPubkey user signatureState =>
      exact walks_bind (walks_logged (fun _ _ _ => trivial) denied) fun _ => walks_pure
  | authGssapiMic user principal =>
      exact walks_bind (walks_logged (fun _ _ _ => trivial) denied) fun _ => walks_pure
  | serviceRequest service =>
      exact walks_bind (walks_logged (fun _ _ _ => trivial)
        (walks_bind walks_idleTimerReset fun _ => walks_pure)) fun _ => walks_pure
  | newChannel => exact walks_bind (walks_newChannel hd still) fun _ => walks_pure
  | trapMessage msg => exact walks_bind (walks_trapMessage hd still) fun _ => walks_pure
  | haasMessage msg =>
      exact walks_bind (walks_logged (fun _ _ _ => trivial)
        (walks_bind walks_idleTimerReset fun _ => walks_pure)) fun _ => walks_pure
  | channel ch event => exact walks_deliverChannel hd still

end Delivery

/-- **Callbacks make changes**, nested to any depth; serial ones while the depth
is 1. -/
theorem walks_dispatchWithin {w : World} {serial : Prop} (depth : Nat)
    (alone : serial → depth ≤ 1) (t : Nat) :
    Walks (Change w serial) (dispatchWithin w depth t) := by
  induction depth generalizing t with
  | zero => exact walks_pure
  | succ depth ih =>
      refine walks_each fun _ => walks_deliver (ih fun yes => ?_) fun yes t => ?_
      · have := alone yes
        omega
      · have none : depth = 0 := by
          have := alone yes
          omega
        subst none
        rfl

end HaasProxy
