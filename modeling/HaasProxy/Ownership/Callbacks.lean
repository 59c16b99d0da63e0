import HaasProxy.Ownership.Invariant

/-!
# Callbacks keep ownership

What has to be assumed of a run (`Harmless`), what every entry of its log then
says (`Lawful`), and that each callback keeps `Proxy.Inv` and only changes what
`Frame` allows, whatever callbacks libssh makes while it runs.

The proofs follow the code.  `Goes` is the judgement they are about; its rules
are `goes_bind` and one rule for each way of talking to libssh.

## Main definitions and results

* `Harmless` — what is asked of an entry, in the state it is made in;
* `Lawful` — what every entry shows;
* `Goes`, `Keeps` — the judgements;
* `goes_trapNewChannel`, `goes_forwardOpen`, `ensures_fwPairRelease` — the three places where
  channels are obtained or freed;
* `goes_deliver`, `keeps_dispatchWithin` — any callback, nested to any depth.

## Design notes

**Assumption and guarantee.**  `ownershipTerms` asks every entry of the log to be `Harmless`
and promises every entry to be `Lawful`, up to the first one that is not harmless.  The
promise is made entry by entry, so a run that does harm later has kept the law until then.

**What each assumption is for.**

* A refused forward: `TrapMessageCallback` frees the channel twice.
* A full pool that cannot grow: the item is stored behind the array.
* A second session channel: `TrapNewChannel` stores over the one from the first request,
  whose owner is gone then.
* The teardown: a request for a forward would put a pair into a pool that is freed, and what
  is passed on would go to a channel that is.

**Why the rules are about a state.**  `Goes` starts from one state, since most functions are
entered with something in hand: a channel in a local variable, a pair that nobody else
knows.  `Keeps` is for those that are not, which are the ones a dispatcher may run.
-/

namespace HaasProxy

open Traced Proxy

/-- What a request, data or the end of a stream on the client's channel is
passed on for: all events that `TrapChannelCB` hands to `HaasChannel`. -/
def ChannelEvent.PassedOn : ChannelEvent → Prop
  | subsystemRequest _ | authAgent | x11 .. | close => False
  | _ => True

/-- The callback does not reach for what the teardown has freed: the pool, by a
request for a forward, or `HaasChannel`, by something that is passed on to it. -/
def Callback.Spares (s : Proxy) : Callback → Prop
  | trapMessage (some (.directTcpip ..)) => s.PoolAlive
  | channel ch event =>
      event.PassedOn → ∀ c, s.channels.cell ch = some c → c.callbacks = some .trapChannelCB →
        ∀ haas, s.context.haasChannel = some haas → haas ∉ s.freed
  | _ => True

/-- **What is asked of a run.**  The backend refuses no forward, a full pool can
grow, no `TrapNewChannel` stores its channels over those of another one that ran
meanwhile, and the callbacks made during the teardown spare what is freed. -/
def Harmless (e : Entry) : Prop :=
  match e.action with
  | .call (.openForward ..) => e.answer = sshOk
  | .alloc .items => e.answer = 1 ∧ ∀ id, e.before.context.forwardPool = some id →
      ∀ pool, e.before.pools.cell id = some pool → pool.alloc + poolAllocSize ≤ intMax
  | .call (.setCallbacks _ .trapChannelCB) => e.before.context.trapChannel = none
  | .enter cb => cb.Spares e.before
  | _ => True

/-- `FwPairAlloc` succeeds. -/
def PairAllocated (e : Entry) : Prop := e.action = .alloc .fwPair → e.answer = 1

instance (s : Proxy) : Decidable s.PoolAlive :=
  inferInstanceAs (Decidable (∀ id ∈ s.context.forwardPool, s.pools.cell id ≠ none))

instance (event : ChannelEvent) : Decidable event.PassedOn := by
  unfold ChannelEvent.PassedOn
  split <;> infer_instance

instance (s : Proxy) (cb : Callback) : Decidable (cb.Spares s) := by
  unfold Callback.Spares
  split
  · infer_instance
  · exact inferInstanceAs (Decidable (_ → ∀ c ∈ s.channels.cell _, _ →
      ∀ haas ∈ s.context.haasChannel, haas ∉ s.freed))
  · infer_instance

instance (e : Entry) : Decidable (Harmless e) := by
  unfold Harmless
  split
  · infer_instance
  · exact inferInstanceAs (Decidable (e.answer = 1 ∧ ∀ id ∈ e.before.context.forwardPool,
      ∀ pool ∈ e.before.pools.cell id, pool.alloc + poolAllocSize ≤ intMax))
  · infer_instance
  · infer_instance
  · infer_instance

instance (e : Entry) : Decidable (PairAllocated e) :=
  inferInstanceAs (Decidable (e.action = .alloc .fwPair → e.answer = 1))

/-- **What every interaction shows.**  A call is never about a channel that was
freed, and every channel that was obtained and not freed has one owner. -/
structure Lawful (e : Entry) : Prop where
  /-- No call is about a channel that was freed. -/
  unfreed : ∀ c ch, e.action = .call c → c.channel? = some ch → ch ∉ e.before.freed
  /-- A channel that was obtained and not freed has one owner. -/
  owned : ∀ ch, ch < e.before.channels.next → ch ∉ e.before.freed →
    e.before.owners.count ch = 1

/-- The terms of a run; it stops early only when the bound on the iterations is
reached or there is no token. -/
def ownershipTerms (w : World) : Terms Entry Stop Proxy where
  assumes e := Harmless e ∧ PairAllocated e
  guarantees := Lawful
  stops e _ := e = .exhausted ∨ e = .fault .nullPointer ∧ w.config.haasToken = none

/-- The program keeps the invariant, and the frame. -/
def Goes {α : Type} (w : World) (except : List PairId) (m : ProxyM α) (s : Proxy) : Prop :=
  Ensures (ownershipTerms w) m s fun _ s' => s'.Inv ∧ Frame except s s'

/-- The program goes from wherever the invariant holds. -/
def Keeps {α : Type} (w : World) (m : ProxyM α) : Prop := ∀ s, s.Inv → Goes w [] m s

/-- An entry that is logged where the invariant holds is lawful if the call in it is
about no channel that was freed. Everything else that `Lawful` asks for is part of the
invariant. -/
theorem lawful_of_inv {s : Proxy} (h : s.Inv) {action : Interaction} {answer : Int}
    (unfreed : ∀ c ch, action = .call c → c.channel? = some ch → ch ∉ s.freed) :
    Lawful ⟨s, action, answer⟩ :=
  ⟨unfreed, fun _ lt unfreed => h.owners_count lt unfreed⟩

section Rules

variable {w : World} {except : List PairId} {α β : Type} {m : ProxyM α} {k : α → ProxyM β}
  {s s' : Proxy}

theorem goes_pure {a : α} (h : s.Inv) : Goes w except (pure a) s :=
  ensures_pure ⟨h, .refl except s⟩

/-- The second program starts from any state that the first may leave, and all that is
known of that state is the invariant and the frame. This is why the frame has to say
which channels are still live and which pairs were left alone. -/
theorem goes_bind (first : Goes w except m s)
    (next : ∀ a s', s'.Inv → Frame except s s' → Goes w except (k a) s') :
    Goes w except (m >>= k) s := by
  refine ensures_bind first ?_
  rintro a s' ⟨h, f⟩
  exact ensures_mono (next a s' h f) fun _ _ post => ⟨post.1, f.trans post.2⟩

/-- A step that changes nothing ownership is about. -/
theorem goes_modify {f : Proxy → Proxy} (h : s.Inv) (same : Same s (f s)) :
    Goes w except (modify f) s :=
  ensures_modify ⟨same.inv h, same.frame except⟩

/-- The state is read. -/
theorem goes_get {k : Proxy → ProxyM β} (next : Goes w except (k s) s) :
    Goes w except (get >>= k) s := ensures_get_bind next

/-- An entry is written. That it is harmless may be used to show that it is lawful,
since a run in which it is not has ended its promises. -/
theorem goes_tell {f : Proxy → Entry} (h : s.Inv)
    (lawful : (ownershipTerms w).assumes (f s) → Lawful (f s)) : Goes w except (tell f) s :=
  ensures_tell fun assumed => ⟨lawful assumed, h, .refl except s⟩

theorem goes_when {c : Prop} [Decidable c] {m : ProxyM Unit} (h : s.Inv)
    (pos : c → Goes w except m s) : Goes w except (when c m) s :=
  ensures_when pos fun _ => ⟨h, .refl except s⟩

theorem goes_whenSome {o : Option α} {f : α → ProxyM Unit} (h : s.Inv)
    (object : ∀ a, o = some a → Goes w except (f a) s) : Goes w except (whenSome o f) s :=
  ensures_whenSome (fun _ => ⟨h, .refl except s⟩) object

theorem goes_ite {c : Prop} [Decidable c] {m' : ProxyM α} (pos : c → Goes w except m s)
    (neg : ¬ c → Goes w except m' s) : Goes w except (if c then m else m') s :=
  ensures_ite pos neg

theorem same_tick (s : Proxy) (t : Nat) : Same s { s with tick := t } := by
  constructor <;> rfl

theorem goes_nextTick (h : s.Inv) : Goes w except nextTick s :=
  ensures_nextTick ⟨(same_tick s _).inv h, (same_tick s _).frame except⟩

/-- An allocation takes a tick and an entry; what is done with the memory comes later. -/
theorem goes_allocate {allocation : Allocation} (h : s.Inv) :
    Goes w except (allocate w allocation) s :=
  goes_bind (goes_nextTick h) fun _ _ h _ =>
    goes_bind (goes_tell h fun _ => lawful_of_inv h nofun) fun _ _ h _ => goes_pure h

end Rules

/-! ## Talking to libssh

The rules.  Whatever libssh calls back meanwhile keeps the invariant and the frame, so this
is what is known behind every call, and no more. -/

theorem same_tock (s : Proxy) : Same s s.tock := by constructor <;> rfl

section Libssh

variable {w : World} {dispatch : Nat → ProxyM Unit} {except : List PairId} {s s₀ : Proxy}
  {chs : List ChannelId} {c : Call} {effect : Int → Proxy → Proxy} {Q : Int → Proxy → Prop}

theorem Frame.tock {s s' : Proxy} (f : Frame except s s') : Frame except s s'.tock :=
  f.trans ((same_tock s').frame except)

/-- A call about no freed channel is lawful at the tick at which it is logged. -/
theorem lawful_call (h : s.Inv) (unfreed : ∀ ch, c.channel? = some ch → ch ∉ s.freed)
    (answer : Int) : Lawful ⟨s.tock, .call c, answer⟩ := by
  refine lawful_of_inv ((same_tock s).inv h) fun c' ch eq about => ?_
  cases eq
  exact unfreed ch about

/-- A call that handles no packets. -/
theorem ensures_callWith_quiet (quiet : ¬ c.Dispatches)
    (lawful : Lawful ⟨s.tock, .call c, w.answer s.tick⟩)
    (next : (ownershipTerms w).assumes ⟨s.tock, .call c, w.answer s.tick⟩ →
      Q (w.answer s.tick) (effect (w.answer s.tick) s.tock)) :
    Ensures (ownershipTerms w) (callWith w dispatch c effect) s Q := by
  refine ensures_bind (ensures_nextTick (Q := fun t s' => t = s.tick ∧ s' = s.tock) ⟨rfl, rfl⟩) ?_
  rintro t s' ⟨rfl, rfl⟩
  refine ensures_tell_bind fun assumed => ⟨lawful, ensures_modify_bind ?_⟩
  exact ensures_bind (ensures_when (fun dispatches => absurd dispatches quiet) fun _ => next assumed)
    fun _ _ post => ensures_pure post

variable (hd : ∀ t, Keeps w (dispatch t))

include hd

/-- A call that may handle packets: what libssh does at once leaves the
invariant in place, and the callbacks keep the frame. -/
theorem ensures_callWith (h : s.Inv) (unfreed : ∀ ch, c.channel? = some ch → ch ∉ s.freed)
    (inv : (effect (w.answer s.tick) s.tock).Inv)
    (next : (ownershipTerms w).assumes ⟨s.tock, .call c, w.answer s.tick⟩ →
      ∀ s', s'.Inv → Frame [] (effect (w.answer s.tick) s.tock) s' → Q (w.answer s.tick) s') :
    Ensures (ownershipTerms w) (callWith w dispatch c effect) s Q := by
  refine ensures_bind (ensures_nextTick (Q := fun t s' => t = s.tick ∧ s' = s.tock) ⟨rfl, rfl⟩) ?_
  rintro t s' ⟨rfl, rfl⟩
  refine ensures_tell_bind fun assumed => ⟨lawful_call h unfreed _, ensures_modify_bind ?_⟩
  refine ensures_bind (P := fun _ s' => Q (w.answer s.tick) s') (ensures_when (fun _ => ?_)
    fun _ => next assumed _ inv (.refl [] _)) fun _ _ post => ensures_pure post
  refine ensures_bind (hd _ _ inv) ?_
  rintro _ s' ⟨h', f'⟩
  exact ensures_tell fun _ => ⟨lawful_of_inv h' nofun, next assumed s' h' f'⟩

/-- **A call of libssh.** libssh may run any callbacks meanwhile, for which the
assumption about `dispatch` speaks, so not more than the invariant and the frame is
known afterwards. -/
theorem goes_call (h : s.Inv) (unfreed : ∀ ch, c.channel? = some ch → ch ∉ s.freed) :
    Goes w except (call w dispatch c) s :=
  ensures_callWith hd h unfreed ((same_tock s).inv h) fun _ _ h' f =>
    ⟨h', (((same_tock s).frame []).trans f).weaken⟩

/-- A call on the channel that a variable names. The variable must not name a freed one. -/
theorem goes_onChannel {o : Option ChannelId} {c : ChannelId → Call} (h : s.Inv)
    (live : ∀ ch, o = some ch → ch ∉ s.freed) (about : ∀ ch, (c ch).channel? = some ch) :
    Goes w except (onChannel w dispatch o c) s := by
  cases o with
  | none => exact goes_pure h
  | some ch =>
      refine goes_call hd h fun ch' eq => ?_
      cases (about ch).symm.trans eq
      exact live ch rfl

omit hd

/-- Whether a session blocks has nothing to do with who owns what. -/
theorem same_setBlocking (s : Proxy) (session : Option SessionId) (blocking : Bool) :
    Same s (session.elim s fun id =>
      { s with blocking := Function.update s.blocking id blocking }) := by
  cases session <;> constructor <;> rfl

theorem goes_sshSetBlocking {session : Option SessionId} {blocking : Bool} (h : s.Inv) :
    Goes w except (sshSetBlocking session blocking) s :=
  goes_modify h (same_setBlocking s session blocking)

/-- A call that returns a new channel: it goes to a local variable. -/
theorem ensures_obtainBy {session : SessionId} {Q : Option ChannelId → Proxy → Prop}
    (quiet : ¬ c.Dispatches) (none : c.channel? = none) (h : s.Inv)
    (f : Frame except (s₀.push chs) s)
    (post : ∀ o s', s'.Inv → Frame except (s₀.push (o.toList ++ chs)) s' → Q o s') :
    Ensures (ownershipTerms w) (obtainBy w dispatch c session) s Q := by
  refine ensures_gets_bind (ensures_bind (ensures_callWith_quiet (Q := fun i s' =>
    s' = if i = sshOk then s.tock.obtain session else s.tock) quiet (lawful_call h ?_ _)
      fun _ => rfl) ?_)
  · rw [none]
    nofun
  · rintro i _ rfl
    refine ensures_pure ?_
    split
    · exact post _ _ (inv_obtain ((same_tock s).inv h) session) (f.tock.obtain session)
    · exact post _ _ ((same_tock s).inv h) f.tock

/-- `ssh_channel_new()` gives a channel that nobody else has. It is pushed onto the
local channels here, and stays there until it is handed to its owner; the callbacks made
meanwhile cannot know it. -/
theorem ensures_sshChannelNew {session : Option SessionId} {Q : Option ChannelId → Proxy → Prop}
    (h : s.Inv) (f : Frame except (s₀.push chs) s)
    (post : ∀ o s', s'.Inv → Frame except (s₀.push (o.toList ++ chs)) s' → Q o s') :
    Ensures (ownershipTerms w) (sshChannelNew w dispatch session) s Q := by
  cases session with
  | none => exact ensures_pure (post none s h f)
  | some session => exact ensures_obtainBy (by simp [Call.Dispatches]) rfl h f post

/-- The first channel of a callback. -/
theorem ensures_firstChannel {session : Option SessionId} (h : s.Inv) :
    Ensures (ownershipTerms w) (sshChannelNew w dispatch session) s fun o s' =>
      s'.Inv ∧ Frame [] (s.push o.toList) s' := by
  have f : Frame [] (s.push []) s := .refl [] s
  exact ensures_sshChannelNew h f fun o _ h f => ⟨h, by rwa [List.append_nil] at f⟩

/-- `ssh_channel_free()` of a channel that was not freed yet: this is where a second
free would show. -/
theorem ensures_sshChannelFree {ch : ChannelId} {Q : Unit → Proxy → Prop} (h : s.Inv)
    (unfreed : ch ∉ s.freed) (post : Q () (s.tock.freeChannel ch)) :
    Ensures (ownershipTerms w) (sshChannelFree w dispatch (some ch)) s Q := by
  refine ensures_bind (ensures_callWith_quiet (Q := fun _ => Q ()) (by simp [Call.Dispatches])
    (lawful_call h ?_ _) fun _ => post) fun _ _ post => ensures_pure post
  rintro _ ⟨⟩
  exact unfreed

/-- A change to the record of a channel leaves the context alone. -/
@[simp] theorem context_updateChannel (s : Proxy) (ch : ChannelId) (f : Channel → Channel) :
    (s.updateChannel ch f).context = s.context := by
  rw [(updateChannel_eq s ch f).1]

/-- The state after `ssh_set_channel_callbacks`. -/
def Proxy.register (s : Proxy) (ch : ChannelId) (cb : ChannelCallbacks) : Proxy :=
  s.tock.updateChannel ch fun c => { c with callbacks := some cb }

/-- Registering callbacks on a channel leaves the context alone. -/
@[simp] theorem context_register (s : Proxy) (ch : ChannelId) (cb : ChannelCallbacks) :
    (s.register ch cb).context = s.context := context_updateChannel ..

/-- Registering callbacks changes no pair, frees nothing and makes nothing. -/
theorem frame_register (except : List PairId) (s : Proxy) (ch : ChannelId)
    (cb : ChannelCallbacks) : Frame except s (s.register ch cb) :=
  ((same_tock s).frame except).trans (.updateChannel except _ _ _)

/-- A table that is not about a pair. -/
theorem inv_register (h : s.Inv) {ch : ChannelId} {cb : ChannelCallbacks}
    (noPair : ∀ p, cb ≠ .forwardChannelCB p) : (s.register ch cb).Inv :=
  inv_updateChannel ((same_tock s).inv h) fun _ p _ eq =>
    absurd (Option.some.inj eq) (noPair p)

/-- The callbacks of a live channel are set. If they are the client's, there is no
client channel yet, by what is asked of a run. -/
theorem ensures_sshSetChannelCallbacks {ch : ChannelId} {cb : ChannelCallbacks}
    {Q : Unit → Proxy → Prop} (h : s.Inv) (unfreed : ch ∉ s.freed)
    (post : (cb = .trapChannelCB → s.context.trapChannel = none) → Q () (s.register ch cb)) :
    Ensures (ownershipTerms w) (sshSetChannelCallbacks w dispatch (some ch) cb) s Q := by
  refine ensures_bind (ensures_callWith_quiet (Q := fun _ => Q ()) id (lawful_call h ?_ _)
    fun assumed => post ?_) fun _ _ post => ensures_pure post
  · rintro _ ⟨⟩
    exact unfreed
  · rintro rfl
    exact assumed.1

/-- The channel of a local variable is freed. -/
theorem ensures_freeLocal {ch : ChannelId} {before after : List ChannelId} (h : s.Inv)
    (f : Frame except (s₀.push (before ++ ch :: after)) s) {Q : Unit → Proxy → Prop}
    (post : ∀ s', s'.Inv → Frame except (s₀.push (before ++ after)) s' → Q () s') :
    Ensures (ownershipTerms w) (sshChannelFree w dispatch (some ch)) s Q := by
  have mem : ch ∈ s.locals := by
    rw [f.locals]
    simp [Proxy.push]
  have first : ch ∉ before := by
    intro early
    have one := (h.of_mem_locals mem).2.2.2.1
    rw [f.locals] at one
    simp only [Proxy.push, List.count_append, List.count_cons_self] at one
    have := List.count_pos_iff.mpr early
    omega
  obtain ⟨unfreed, notContext, -⟩ := h.of_mem_locals mem
  refine ensures_sshChannelFree h unfreed (post _ (inv_freeChannel ((same_tock s).inv h) mem) ?_)
  exact (f.tock.pop first).trans (.freeChannel except notContext)

/-- Something libssh keeps about a channel changes, but not its callbacks. -/
theorem inv_keepCallbacks {ch : ChannelId} {f : Channel → Channel} (h : s.Inv)
    (same : ∀ c, (f c).callbacks = c.callbacks) : (s.updateChannel ch f).Inv :=
  inv_updateChannel h fun c p cell callbacks =>
    h.registered ch c p cell ((same c).symm.trans callbacks)

/-- A channel's record may be changed in anything but its callbacks. -/
theorem goes_keepCallbacks {ch : ChannelId} {f : Channel → Channel} (h : s.Inv)
    (same : ∀ c, (f c).callbacks = c.callbacks) :
    Goes w except (modify fun s => s.updateChannel ch f) s :=
  ensures_modify ⟨inv_keepCallbacks h same, .updateChannel except s ch f⟩

include hd

/-- `ssh_channel_write()` on a channel that is not freed. -/
theorem goes_sshChannelWrite {o : Option ChannelId} {isStderr : Bool} {data : List UInt8}
    (h : s.Inv) (live : ∀ ch, o = some ch → ch ∉ s.freed) :
    Goes w except (sshChannelWrite w dispatch o isStderr data) s := by
  cases o with
  | none => exact goes_pure h
  | some ch =>
      refine ensures_gets_bind (ensures_bind (ensures_callWith (Q := fun _ s' =>
        s'.Inv ∧ Frame [] s s') hd h ?_ ?_ ?_) fun _ s' post => ?_)
      · rintro _ ⟨⟩
        exact live ch rfl
      · exact inv_keepCallbacks ((same_tock s).inv h) fun _ => rfl
      · exact fun _ s' h' f =>
          ⟨h', (((same_tock s).frame []).trans (.updateChannel [] _ _ _)).trans f⟩
      · exact ensures_pure ⟨post.1, post.2.weaken⟩

/-- `ssh_channel_send_eof()` on a channel that is not freed. -/
theorem goes_sshChannelSendEof {o : Option ChannelId} (h : s.Inv)
    (live : ∀ ch, o = some ch → ch ∉ s.freed) :
    Goes w except (sshChannelSendEof w dispatch o) s := by
  cases o with
  | none => exact goes_pure h
  | some ch =>
      have effect : ∀ i : Int, (if i = sshOk then s.tock.updateChannel ch fun c =>
          { c with eofSent := true } else s.tock).Inv ∧
          Frame [] s (if i = sshOk then s.tock.updateChannel ch fun c =>
            { c with eofSent := true } else s.tock) := by
        intro i
        split
        · exact ⟨inv_keepCallbacks ((same_tock s).inv h) fun _ => rfl,
            ((same_tock s).frame []).trans (.updateChannel [] _ _ _)⟩
        · exact ⟨(same_tock s).inv h, (same_tock s).frame []⟩
      refine ensures_callWith (c := .sendEof ch) (Q := fun _ s' => s'.Inv ∧ Frame except s s') hd h
        ?_ ?_ fun _ s' h' f => ?_
      · rintro _ ⟨⟩
        exact live ch rfl
      · exact (effect (w.answer s.tick)).1
      · exact ⟨h', ((effect (w.answer s.tick)).2.trans f).weaken⟩

end Libssh

/-! ## Timers, notices and data

Functions that obtain nothing and free nothing. What they need is that the channel they
use is live, which is so as long as the owner is there. -/

section Relay

variable {w : World} {dispatch : Nat → ProxyM Unit} {except : List PairId} {s : Proxy}

theorem goes_gettimeofday (h : s.Inv) : Goes w except (gettimeofday w) s :=
  goes_bind (goes_nextTick h) fun _ _ h _ => goes_pure h

theorem goes_timerStart {sec : Int} (h : s.Inv) : Goes w except (timerStart w sec) s :=
  goes_bind (goes_gettimeofday h) fun _ _ h _ => goes_pure h

theorem goes_timerGet {timer : Timeval} (h : s.Inv) : Goes w except (timerGet w timer) s :=
  goes_bind (goes_gettimeofday h) fun _ _ h _ => goes_pure h

/-- The fields of the context ownership is not about. -/
theorem goes_modifyContext {f : Context → Context} (h : s.Inv)
    (same : (f s.context).trapSession = s.context.trapSession ∧
      (f s.context).trapChannel = s.context.trapChannel ∧
      (f s.context).haasChannel = s.context.haasChannel ∧
      (f s.context).forwardPool = s.context.forwardPool) :
    Goes w except (modifyContext f) s :=
  goes_modify h
    { locals := rfl
      releasing := rfl
      trapSession := same.1
      trapChannel := same.2.1
      haasChannel := same.2.2.1
      forwardPool := same.2.2.2
      pairs := rfl
      pools := rfl
      channels := rfl
      freed := rfl }

theorem goes_idleTimerReset (h : s.Inv) : Goes w except (idleTimerReset w) s :=
  goes_bind (goes_timerStart h) fun _ _ h _ => goes_modifyContext h ⟨rfl, rfl, rfl, rfl⟩

/-- A computation, then the idle timer, then an answer. -/
theorem goes_thenReset {α β : Type} {m : ProxyM α} {g : α → β} (first : Goes w except m s) :
    Goes w except (m >>= fun a => idleTimerReset w >>= fun _ => pure (g a)) s :=
  goes_bind first fun _ _ h _ =>
    goes_bind (goes_idleTimerReset h) fun _ _ h _ => goes_pure h

variable (hd : ∀ t, Keeps w (dispatch t))

include hd

/-- A request is passed on to a channel of the context that is live. -/
theorem goes_passOn {channel : Context → Option ChannelId} {c : ChannelId → Call} (h : s.Inv)
    (live : LiveIn s channel) (about : ∀ ch, (c ch).channel? = some ch) :
    Goes w except (passOn w dispatch channel c) s := by
  refine goes_get ?_
  split
  · exact goes_pure h
  · rename_i ch eq
    refine goes_bind (goes_call hd h fun ch' eq' => ?_) fun _ _ h _ => goes_pure h
    cases (about ch).symm.trans eq'
    exact live ch eq

/-- A request that is granted once: the grant may not touch the channels and the
sessions. -/
theorem goes_passOnOnce {granted : Context → Bool} {grant : Context → Context}
    {c : ChannelId → Call} (h : s.Inv) (live : LiveIn s fun c => c.haasChannel)
    (about : ∀ ch, (c ch).channel? = some ch)
    (same : ∀ c : Context, (grant c).trapSession = c.trapSession ∧
      (grant c).trapChannel = c.trapChannel ∧ (grant c).haasChannel = c.haasChannel ∧
      (grant c).forwardPool = c.forwardPool) :
    Goes w except (passOnOnce w dispatch granted grant c) s := by
  refine goes_get (goes_bind (goes_when h fun _ => ?_) fun _ s h _ => ?_)
  · exact goes_bind (goes_passOn hd h live about) fun _ s h _ =>
      goes_when h fun _ => goes_modifyContext h (same s.context)
  · exact goes_get (goes_bind (goes_idleTimerReset h) fun _ _ h _ => goes_pure h)

theorem goes_passOnEach {c : ChannelId → Call} (h : s.Inv)
    (live : LiveIn s fun c => c.haasChannel) (about : ∀ ch, (c ch).channel? = some ch) :
    Goes w except (passOnEach w dispatch c) s :=
  goes_thenReset (goes_passOn hd h live about)

theorem goes_passNotice {channel : Context → Option ChannelId} {c : ChannelId → Call} (h : s.Inv)
    (live : LiveIn s channel) (about : ∀ ch, (c ch).channel? = some ch) :
    Goes w except (passNotice w dispatch channel c) s :=
  goes_bind (goes_passOn hd h live about) fun _ _ h _ => goes_idleTimerReset h

/-- A write between setting the session nonblocking and setting it back. The channel was
live in front of it, and a callback made meanwhile frees none that somebody else owns. -/
theorem goes_writeNonblocking {session : Context → Option SessionId} {o : Option ChannelId}
    {isStderr : Bool} {data : List UInt8} (h : s.Inv) (live : ∀ ch, o = some ch → ch ∉ s.freed) :
    Goes w except (writeNonblocking w dispatch session o isStderr data) s := by
  have same := same_setBlocking s (session s.context) false
  refine goes_get (ensures_gets_bind (ensures_modify_bind ?_))
  refine ensures_mono (goes_bind (goes_sshChannelWrite hd (same.inv h) fun ch eq => ?_)
    fun _ _ h _ => goes_get (goes_bind (goes_sshSetBlocking h) fun _ _ h _ => goes_pure h))
    fun _ _ post => ⟨post.1, (same.frame except).trans post.2⟩
  rw [same.freed]
  exact live ch eq

/-- Data on a session channel is written to the other session channel, which is live by
assumption. -/
theorem goes_relayData {session : Context → Option SessionId}
    {channel : Context → Option ChannelId} {isStderr : Bool} {data : List UInt8} (h : s.Inv)
    (live : LiveIn s channel) :
    Goes w except (relayData w dispatch session channel isStderr data) s := by
  refine goes_get (goes_thenReset ?_)
  split
  · exact goes_pure h
  · rename_i ch eq
    refine goes_writeNonblocking hd h ?_
    rintro _ ⟨⟩
    exact live ch eq

theorem goes_relayEof {channel : Context → Option ChannelId} (h : s.Inv)
    (live : LiveIn s channel) : Goes w except (relayEof w dispatch channel) s := by
  refine goes_get (goes_bind ?_ fun _ _ h _ => goes_idleTimerReset h)
  refine goes_whenSome h fun ch eq => ?_
  refine goes_bind (goes_sshChannelSendEof hd h ?_) fun _ _ h _ => goes_pure h
  rintro _ ⟨⟩
  exact live ch eq

end Relay

/-! ## The backend and the channels of the session

A session channel goes from a local variable to the context, and one that is not needed is
freed. The callbacks that come in between find it in the local variable. -/

section Backend

variable {w : World} {dispatch : Nat → ProxyM Unit} {except : List PairId} {s s₀ : Proxy}
  {chs : List ChannelId}

/-- A login that is denied resets the idle timer and no more. -/
theorem goes_trapAuthDenied (h : s.Inv) : Goes w except (trapAuthDenied w) s :=
  goes_bind (goes_idleTimerReset h) fun _ _ h _ => goes_pure h

theorem goes_trapServiceRequest {service : CString} (h : s.Inv) :
    Goes w except (trapServiceRequest w service) s :=
  goes_bind (goes_idleTimerReset h) fun _ _ h _ => goes_pure h

theorem goes_haasMessageCallback {msg : Option Message} (h : s.Inv) :
    Goes w except (haasMessageCallback w msg) s :=
  goes_bind (goes_idleTimerReset h) fun _ _ h _ => goes_pure h

variable (hd : ∀ t, Keeps w (dispatch t))

include hd

/-- A call that is not about a channel. -/
theorem goes_sessionCall {c : Call} (none : c.channel? = none) (h : s.Inv) :
    Goes w except (call w dispatch c) s := by
  refine goes_call hd h ?_
  rw [none]
  nofun

omit hd in
/-- A session that is obtained is one that was never there before. -/
theorem goes_sshNew (h : s.Inv) : Goes w except (sshNew w dispatch) s := by
  have unfreed (ch : ChannelId) (about : Call.new.channel? = some ch) : ch ∉ s.freed :=
    nomatch about
  refine ensures_gets_bind (goes_bind (ensures_callWith_quiet
    (Q := fun _ s' => s'.Inv ∧ Frame except s s') (by simp [Call.Dispatches])
    (lawful_call h unfreed _) fun _ => ?_) fun _ _ h _ => goes_pure h)
  split
  · have same : Same s { s.tock with sessions := s.tock.sessions + 1 } := by constructor <;> rfl
    exact ⟨same.inv h, same.frame except⟩
  · exact ⟨(same_tock s).inv h, (same_tock s).frame except⟩

/-- `ssh_disconnect()` and `ssh_free()` are calls about no channel. -/
theorem goes_sshDisconnectFree {session : SessionId} (h : s.Inv) :
    Goes w except (sshDisconnectFree w dispatch session) s :=
  goes_bind (goes_sessionCall hd rfl h) fun _ _ h _ =>
    goes_bind (goes_sessionCall hd rfl h) fun _ _ h _ => goes_pure h

theorem goes_haasAuthenticate {session : SessionId} {password : List UInt8} (h : s.Inv) :
    Goes w except (haasAuthenticate w dispatch session password) s :=
  goes_bind (goes_sessionCall hd rfl h) fun _ _ h _ =>
    goes_ite (fun _ => goes_pure h) fun _ =>
      goes_bind (goes_sessionCall hd rfl h) fun _ _ h _ =>
        goes_ite (fun _ => goes_pure h) fun _ =>
          goes_bind (goes_sessionCall hd rfl h) fun _ _ h _ => goes_pure h

/-- `HaasConnect` touches no channel, and all it changes in the context is the backend
session. -/
theorem goes_haasConnect {user password : CString} (h : s.Inv) :
    Goes w except (haasConnect w dispatch user password) s := by
  refine goes_bind (goes_sshNew h) fun session s h _ => ?_
  split
  · exact goes_pure h
  refine goes_bind (goes_sessionCall hd rfl h) fun _ s h _ =>
    goes_bind (goes_sessionCall hd rfl h) fun _ s h _ =>
    goes_bind (goes_sessionCall hd rfl h) fun _ s h _ =>
    goes_bind (goes_when h fun _ => ?_) fun _ s h _ =>
    goes_bind (goes_whenSome h fun _ _ => ?_) fun _ s h _ =>
    goes_bind (goes_sessionCall hd rfl h) fun _ s h _ =>
    goes_bind (goes_ite (fun _ => goes_pure h) fun _ => ?_) fun _ s h _ =>
    goes_ite (fun _ => ?_) fun _ => ?_
  · exact goes_bind (goes_sessionCall hd rfl h) fun _ _ h _ => goes_pure h
  · exact goes_bind (goes_sessionCall hd rfl h) fun _ _ h _ => goes_pure h
  · split
    · rename_i noToken
      exact ensures_stop (Or.inr ⟨rfl, noToken⟩)
    · exact goes_haasAuthenticate hd h
  · exact goes_bind (goes_modifyContext h ⟨rfl, rfl, rfl, rfl⟩) fun _ _ h _ => goes_pure h
  · exact goes_bind (goes_sshDisconnectFree hd h) fun _ _ h _ => goes_pure h

theorem goes_trapAuthPassword {user password : CString} (h : s.Inv) :
    Goes w except (trapAuthPassword w dispatch user password) s := by
  refine goes_bind (goes_haasConnect hd h) fun i s h _ => goes_thenReset ?_
  refine goes_ite (fun _ => ?_) fun _ => ?_
  · exact goes_bind (goes_modifyContext h ⟨rfl, rfl, rfl, rfl⟩) fun _ _ h _ => goes_pure h
  · refine goes_bind (goes_modifyContext h ⟨rfl, rfl, rfl, rfl⟩) fun _ s h _ =>
      goes_get (goes_bind (goes_when h fun _ => ?_) fun _ _ h _ => goes_pure h)
    exact goes_bind (goes_sessionCall hd rfl h) fun _ _ h _ =>
      goes_modifyContext h ⟨rfl, rfl, rfl, rfl⟩

/-- A channel that was not handed over is closed and freed. -/
theorem ensures_closeUnused {session : Context → Option SessionId} {ch : ChannelId} (h : s.Inv)
    (f : Frame [] (s₀.push (ch :: chs)) s) :
    Ensures (ownershipTerms w) (closeUnused w dispatch session ch) s fun _ s' =>
      s'.Inv ∧ Frame [] (s₀.push chs) s' := by
  have same := same_setBlocking s (session s.context) false
  refine ensures_get_bind (ensures_gets_bind (ensures_modify_bind ?_))
  have h := same.inv h
  have f := f.trans (same.frame [])
  have mem : ch ∈ (s₀.push (ch :: chs)).locals := List.mem_append_left _ (.head _)
  refine ensures_bind (goes_call hd h ?_ : Goes w [] _ _) fun _ s₁ post₁ => ?_
  · rintro _ ⟨⟩
    exact (h.of_mem_locals (f.locals ▸ mem)).1
  obtain ⟨h₁, f₁⟩ := post₁
  have onTop : Frame [] (s₀.push ([] ++ ch :: chs)) s₁ := f.trans f₁
  refine ensures_bind (ensures_freeLocal h₁ onTop
    (Q := fun _ s' => s'.Inv ∧ Frame [] (s₀.push chs) s') fun s' h' f' => ⟨h', f'⟩) ?_
  rintro _ s₂ ⟨h₂, f₂⟩
  exact ensures_mono (goes_get (goes_sshSetBlocking h₂)) fun _ _ post =>
    ⟨post.1, f₂.trans post.2⟩

omit hd in
/-- Both channels go from local variables to the context. -/
private theorem storeContext {trapChannel haasChannel : ChannelId} (h : s.Inv)
    (f : Frame [] (s₀.push [haasChannel, trapChannel]) s) (unset : s.context.trapChannel = none) :
    let s' : Proxy := { s with
      context := { s.context with
        trapChannel := some trapChannel
        haasChannel := some haasChannel }
      locals := (s.locals.erase trapChannel).erase haasChannel }
    s'.Inv ∧ Frame [] s₀ s' := by
  have locals : s.locals = haasChannel :: trapChannel :: s₀.locals := f.locals
  have haasMem : haasChannel ∈ s.locals := by simp [locals]
  have trapMem : trapChannel ∈ s.locals := by simp [locals]
  have ne : trapChannel ≠ haasChannel := by
    rintro rfl
    have one := (h.of_mem_locals haasMem).2.2.2.1
    rw [locals, List.count_cons_self, List.count_cons_self] at one
    omega
  have unsetHaas : s.context.haasChannel = none := h.both.mp unset
  refine ⟨inv_storeContext h unset ne trapMem haasMem, ?_⟩
  exact
    { locals := by
        show (s.locals.erase trapChannel).erase haasChannel = s₀.locals
        rw [locals, List.erase_cons_tail (by simpa using ne.symm), List.erase_cons_head,
          List.erase_cons_head]
      releasing := f.releasing
      trapSession := f.trapSession
      forwardPool := f.forwardPool
      trap := fun ch set => nomatch unset.symm.trans (f.trap ch set)
      haas := fun ch set => nomatch unsetHaas.symm.trans (f.haas ch set)
      freed := f.freed
      backend := fun _ => by
        rintro _ ⟨⟩
        exact (h.of_mem_locals haasMem).1
      pairs := f.pairs
      pool := f.pool
      noPool := f.noPool }

/-- Both channels go to the context, or the backend's is gone again. -/
theorem ensures_openBackend {trapChannel : ChannelId} (h : s.Inv)
    (f : Frame [] (s₀.push [trapChannel]) s) :
    Ensures (ownershipTerms w) (openBackend w dispatch trapChannel) s fun kept s' =>
      s'.Inv ∧ Frame [] (if kept then s₀ else s₀.push [trapChannel]) s' := by
  refine ensures_get_bind (ensures_bind (ensures_sshChannelNew h f
    (Q := fun o s' => s'.Inv ∧ Frame [] (s₀.push (o.toList ++ [trapChannel])) s')
    fun _ _ h f => ⟨h, f⟩) ?_)
  rintro o s ⟨h, f⟩
  obtain _ | haasChannel := o
  · exact ensures_pure ⟨h, f⟩
  have haasMem {s : Proxy} (f : Frame [] (s₀.push [haasChannel, trapChannel]) s) :
      haasChannel ∈ s.locals := f.locals ▸ List.mem_append_left _ (.head _)
  have trapMem {s : Proxy} (f : Frame [] (s₀.push [haasChannel, trapChannel]) s) :
      trapChannel ∈ s.locals := f.locals ▸ List.mem_append_left _ (.tail _ (.head _))
  refine ensures_bind (goes_call hd h ?_ : Goes w [] _ _) fun i s₁ post₁ => ?_
  · rintro _ ⟨⟩
    exact (h.of_mem_locals (haasMem f)).1
  obtain ⟨h₁, f₁⟩ := post₁
  replace f₁ := f.trans f₁
  refine ensures_ite (fun _ => ?_) fun _ => ?_
  · exact ensures_bind (ensures_closeUnused hd h₁ f₁) fun _ _ post => ensures_pure post
  refine ensures_bind (ensures_sshSetChannelCallbacks h₁ (h₁.of_mem_locals (trapMem f₁)).1
    (Q := fun _ s' => s' = s₁.register trapChannel .trapChannelCB ∧
      s₁.context.trapChannel = none) fun unset => ⟨rfl, unset rfl⟩) ?_
  rintro _ _ ⟨rfl, unset⟩
  have h₂ : (s₁.register trapChannel .trapChannelCB).Inv := inv_register h₁ nofun
  have f₂ := f₁.trans (frame_register [] s₁ trapChannel .trapChannelCB)
  refine ensures_bind (ensures_sshSetChannelCallbacks h₂ (h₂.of_mem_locals (haasMem f₂)).1
    (Q := fun _ s' => s' = (s₁.register trapChannel .trapChannelCB).register haasChannel
      .haasChannelCB) fun _ => rfl) ?_
  rintro _ _ rfl
  have h₃ : ((s₁.register trapChannel .trapChannelCB).register haasChannel .haasChannelCB).Inv :=
    inv_register h₂ nofun
  have f₃ := f₂.trans (frame_register [] _ haasChannel .haasChannelCB)
  have unset : ((s₁.register trapChannel .trapChannelCB).register haasChannel
      .haasChannelCB).context.trapChannel = none := by
    rw [context_register, context_register]
    exact unset
  exact ensures_modify_bind (ensures_pure (storeContext h₃ f₃ unset))

/-- **`TrapNewChannel`.** The client's channel and the backend's are local until both
are stored in the context, which is the one step in which two owners change at once.
Where the backend's cannot be opened, the client's is freed by the one who made it. -/
theorem goes_trapNewChannel (h : s.Inv) : Goes w [] (trapNewChannel w dispatch) s := by
  refine goes_get (goes_bind (goes_when h fun _ => ?_) fun _ s h _ =>
    goes_get (goes_bind (goes_idleTimerReset h) fun _ _ h _ => goes_pure h))
  refine ensures_bind (ensures_firstChannel h) ?_
  rintro o s₁ ⟨h₁, f₁⟩
  obtain _ | trapChannel := o
  · exact ensures_pure ⟨h₁, f₁⟩
  refine ensures_bind (ensures_openBackend hd h₁ f₁) ?_
  rintro kept s₂ ⟨h₂, f₂⟩
  cases kept
  · exact ensures_when (fun _ => ensures_closeUnused hd h₂ f₂)
      fun not => absurd Bool.false_ne_true not
  · exact ensures_when (fun kept => absurd rfl kept) fun _ => ⟨h₂, f₂⟩

end Backend

/-! ## Pairs

From the ends of a pair to the pair, and to the pool.  A pair on its way out of the pool is
held by a ghost. -/

section Pairs

variable {w : World} {dispatch : Nat → ProxyM Unit} {except : List PairId} {s s₀ : Proxy}
  {chs : List ChannelId} {p : PairId} {pair : FwPair}

/-- To fill in a pair changes nothing but that pair. -/
theorem Frame.storePair (s : Proxy) (p : PairId) (pair : FwPair) :
    Frame [p] s { s with pairs := s.pairs.store p pair } where
  locals := rfl
  releasing := rfl
  trapSession := rfl
  forwardPool := rfl
  trap _ h := h
  haas _ h := h
  freed _ h := h
  backend h := h
  pairs q ne old cell :=
    ⟨old, (s.pairs.cell_store_of_ne (List.ne_of_not_mem_cons ne)).trans cell, rfl, rfl, rfl⟩
  pool _ pool _ h holds := ⟨pool, [], h, by rwa [List.append_nil]⟩
  noPool _ h := h

/-- The code around does not know a pair that is new. -/
theorem Frame.ofNew {s s' : Proxy} (f : Frame [p] s s') (new : s.pairs.cell p = none) :
    Frame [] s s' :=
  { f with
    pairs := fun q _ old cell => f.pairs q (fun mem => by
      rw [List.mem_singleton] at mem
      subst mem
      cases new.symm.trans cell) old cell }

/-- Who holds a pair goes on holding it. -/
theorem Frame.heldPairs {s s' : Proxy} (f : Frame except s s') (h : s.Inv) (mem : p ∈ s.heldPairs) :
    p ∈ s'.heldPairs := by
  rw [Proxy.heldPairs, List.mem_append] at mem ⊢
  rw [f.releasing]
  refine mem.imp_left fun mem => ?_
  rw [items] at mem
  cases pointer : s.context.forwardPool with
  | none => simp [pointer] at mem
  | some pid =>
      cases cell : s.pools.cell pid with
      | none => simp [pointer, cell] at mem
      | some pool =>
          obtain ⟨xs, holds⟩ := h.pool pid pool pointer cell
          obtain ⟨pool', ys, cell', holds'⟩ := f.pool pid pool xs cell holds
          rw [← items, items_eq pointer cell holds] at mem
          rw [items_eq (f.forwardPool.trans pointer) cell' holds', List.reduceOption_append]
          exact List.mem_append_left _ mem

theorem ensures_loadPair {t : Terms Entry Stop Proxy} {β : Type} {k : FwPair → ProxyM β}
    {Q : β → Proxy → Prop} (cell : s.pairs.cell p = some pair) (next : Ensures t (k pair) s Q) :
    Ensures t (loadPair p >>= k) s Q := by
  have loaded : Ensures t (loadPair p) s fun a s' => a = pair ∧ s' = s :=
    ensures_get_bind (ensures_ofExcept (by rw [s.pairs.load_of_cell cell]; rfl) ⟨rfl, rfl⟩)
  refine ensures_bind loaded ?_
  rintro _ _ ⟨rfl, rfl⟩
  exact next

/-- A pair that is there is changed without a fault. -/
theorem ensures_modifyPair {t : Terms Entry Stop Proxy} {f : FwPair → FwPair}
    {Q : Unit → Proxy → Prop} (cell : s.pairs.cell p = some pair)
    (post : Q () { s with pairs := s.pairs.store p (f pair) }) :
    Ensures t (modifyPair p f) s Q :=
  ensures_loadPair cell (ensures_modify post)

/-- The channel of an endpoint is one of the channels of the pair. -/
theorem mem_channels {e : End} {ch : ChannelId} (channel : (pair.endpoint e).channel = some ch) :
    ch ∈ pair.channels := by
  cases e <;> simp only [FwPair.endpoint] at channel <;> simp [FwPair.channels, channel]

theorem channels_eq_nil (source : (pair.endpoint .source).channel = none)
    (destiny : (pair.endpoint .destiny).channel = none) : pair.channels = [] := by
  simp only [FwPair.endpoint] at source destiny
  simp [FwPair.channels, source, destiny]

/-- A pair keeps its channels if the endpoint that is written keeps its own. -/
theorem channels_setEndpoint (pair : FwPair) (e : End) {endpoint : FwEndpoint}
    (same : endpoint.channel = (pair.endpoint e).channel) :
    (pair.setEndpoint e endpoint).channels = pair.channels := by
  cases e <;> simp only [FwPair.endpoint] at same <;>
    simp [FwPair.setEndpoint, FwPair.channels, same]

/-- What a frame keeps of a pair at each end. -/
theorem Frame.endpoint {s s' : Proxy} (f : Frame [] s s') (cell : s.pairs.cell p = some pair) :
    ∃ pair', s'.pairs.cell p = some pair' ∧ (∀ e, pair'.endpoint e = pair.endpoint e) ∧
      pair'.channels = pair.channels ∧ pair'.context = pair.context := by
  obtain ⟨pair', cell', source, destiny, context⟩ := f.pairs p (List.not_mem_nil) pair cell
  refine ⟨pair', cell', fun e => ?_, by simp [FwPair.channels, source, destiny], context⟩
  cases e
  · exact source
  · exact destiny

/-- The channel at an end of a pair is freed, and the end is empty again. -/
theorem Frame.freeEnd {ch : ChannelId} {pairs : Heap FwPair} (notContext : ch ∉ s.contextChannels)
    (notLocal : ch ∉ s.locals) (others : ∀ q, q ≠ p → pairs.cell q = s.pairs.cell q) :
    Frame [p] s { s.freeChannel ch with pairs := pairs } where
  locals := List.erase_of_not_mem notLocal
  releasing := rfl
  trapSession := rfl
  forwardPool := rfl
  trap _ h := h
  haas _ h := h
  freed _ h := .tail _ h
  backend h c set := by
    refine List.not_mem_cons_of_ne_of_not_mem ?_ (h c set)
    rintro rfl
    exact notContext (mem_contextChannels_iff.mpr (.inr set))
  pairs q ne old cell :=
    ⟨old, (others q (List.ne_of_not_mem_cons ne)).trans cell, rfl, rfl, rfl⟩
  pool _ pool _ h holds := ⟨pool, [], h, by rwa [List.append_nil]⟩
  noPool _ h := h

variable (hd : ∀ t, Keeps w (dispatch t))

include hd

/-- **`FwEndpointDone`**: the channel is closed and freed. -/
theorem ensures_fwEndpointDone (e : End) (h : s.Inv) (cell : s.pairs.cell p = some pair)
    (held : pair.channels ≠ [] → p ∈ s.heldPairs) :
    Ensures (ownershipTerms w) (fwEndpointDone w dispatch p e) s fun _ s' =>
      s'.Inv ∧ Frame [p] s s' ∧ ∃ pair', s'.pairs.cell p = some pair' ∧
        (pair'.endpoint e).channel = none ∧
        ∀ e', e' ≠ e → (pair'.endpoint e').channel = (pair.endpoint e').channel := by
  have forget : (pair.setEndpoint e { pair.endpoint e with addr := none, port := 0 }).channels =
      pair.channels := channels_setEndpoint pair e rfl
  refine ensures_bind (ensures_modifyPair (Q := fun _ s' => s' = { s with
    pairs := s.pairs.store p
      (pair.setEndpoint e { pair.endpoint e with addr := none, port := 0 }) }) cell rfl) ?_
  rintro _ s₁ eq₁
  have h₁ : s₁.Inv := eq₁ ▸ inv_storePair h cell forget
  have f₁ : Frame [p] s s₁ := eq₁ ▸ .storePair s p _
  have cell₁ : s₁.pairs.cell p =
      some (pair.setEndpoint e { pair.endpoint e with addr := none, port := 0 }) := by
    rw [eq₁]
    exact s.pairs.cell_store_self cell
  have held₁ : pair.channels ≠ [] → p ∈ s₁.heldPairs := fun some => f₁.heldPairs h (held some)
  refine ensures_loadPair cell₁ (ensures_when (fun isSome => ?_) fun isNone => ?_)
  -- without a channel only the address is forgotten
  case refine_2 =>
    rw [FwPair.endpoint_setEndpoint, not_not] at isNone
    refine ⟨h₁, f₁, _, cell₁, by rw [FwPair.endpoint_setEndpoint]; exact isNone, fun e' ne => ?_⟩
    rw [FwPair.endpoint_setEndpoint_of_ne _ _ ne]
  rw [FwPair.endpoint_setEndpoint] at isSome ⊢
  obtain ⟨ch, channel⟩ := Option.ne_none_iff_exists'.mp isSome
  rw [channel]
  have mem : p ∈ s₁.heldPairs := held₁ (List.ne_nil_of_mem (mem_channels channel))
  have live {s' : Proxy} (h' : s'.Inv) (f' : Frame [] s₁ s') :
      ch ∉ s'.freed ∧ ch ∉ s'.contextChannels ∧ ch ∉ s'.locals := by
    obtain ⟨pair', cell', -, channels, -⟩ := f'.endpoint cell₁
    have atEnd : ch ∈ s'.pairChannels p := by
      rw [pairChannels_eq cell', channels, forget]
      exact mem_channels channel
    obtain ⟨unfreed, notContext, notLocal, -⟩ :=
      h'.of_mem_pairChannels (f'.heldPairs h₁ mem) atEnd
    exact ⟨unfreed, notContext, notLocal⟩
  have onIt {s' : Proxy} {c : ChannelId → Call} (about : ∀ ch, (c ch).channel? = some ch)
      (h' : s'.Inv) (f' : Frame [] s₁ s') : Goes w [] (onChannel w dispatch (some ch) c) s' := by
    refine goes_onChannel hd h' ?_ about
    rintro _ ⟨⟩
    exact (live h' f').1
  refine ensures_bind (onIt (fun _ => rfl) h₁ (.refl [] s₁)) ?_
  rintro isOpen s₂ ⟨h₂, f₂⟩
  refine ensures_bind (goes_when h₂ fun _ =>
    goes_bind (onIt (fun _ => rfl) h₂ f₂) fun _ _ h _ => goes_pure h) ?_
  rintro _ s₃ ⟨h₃, f₃⟩
  replace f₃ := f₂.trans f₃
  obtain ⟨pair₃, cell₃, ends₃, -, -⟩ := f₃.endpoint cell₁
  obtain ⟨unfreed, notContext, notLocal⟩ := live h₃ f₃
  have channel₃ : (pair₃.endpoint e).channel = some ch := by
    rw [ends₃ e, FwPair.endpoint_setEndpoint]
    exact channel
  refine ensures_loadPair cell₃ ?_
  rw [channel₃]
  refine ensures_bind (ensures_sshChannelFree (Q := fun _ s' => s' = s₃.tock.freeChannel ch) h₃
    unfreed rfl) ?_
  rintro _ _ rfl
  have cell₄ : (s₃.tock.freeChannel ch).pairs.cell p = some pair₃ := cell₃
  have empty : ({ pair₃.endpoint e with channel := none } : FwEndpoint).channel = none := rfl
  refine ensures_modifyPair cell₄ ⟨?_, ?_, _, s₃.pairs.cell_store_self cell₃, ?_, ?_⟩
  · exact inv_freeEnd ((same_tock s₃).inv h₃) cell₃ (f₃.heldPairs h₁ mem) channel₃ empty rfl
  · exact ((f₁.trans f₃.weaken).trans ((same_tock s₃).frame [p])).trans
      (.freeEnd (s := s₃.tock) notContext notLocal fun q ne => s₃.pairs.cell_store_of_ne ne)
  · rw [FwPair.endpoint_setEndpoint]
  · intro e' ne
    rw [FwPair.endpoint_setEndpoint_of_ne _ _ ne, ends₃ e', FwPair.endpoint_setEndpoint_of_ne _ _ ne]

/-- **`FwPairRelease`**: both channels are closed and freed before the pair is. -/
theorem ensures_fwPairRelease {Q : Unit → Proxy → Prop} (h : s.Inv)
    (cell : s.pairs.cell p = some pair) (held : pair.channels ≠ [] → p ∈ s.heldPairs)
    (post : ∀ s' pair', s'.Inv → Frame [p] s s' → s'.pairs.cell p = some pair' →
      pair'.channels = [] → Q () { s' with pairs := s'.pairs.free p }) :
    Ensures (ownershipTerms w) (fwPairRelease w dispatch p) s Q := by
  refine ensures_tell_bind fun _ => ⟨lawful_of_inv h nofun, ?_⟩
  refine ensures_bind (ensures_modifyPair (Q := fun _ s' => s' = { s with
    pairs := s.pairs.store p { pair with context := none, closed := false } }) cell rfl) ?_
  rintro _ s₁ eq₁
  have h₁ : s₁.Inv := eq₁ ▸ inv_storePair h cell rfl
  have f₁ : Frame [p] s s₁ := eq₁ ▸ .storePair s p _
  have cell₁ : s₁.pairs.cell p = some { pair with context := none, closed := false } := by
    rw [eq₁]
    exact s.pairs.cell_store_self cell
  refine ensures_bind (ensures_fwEndpointDone hd .source h₁ cell₁ fun some =>
    f₁.heldPairs h (held some)) ?_
  rintro _ s₂ ⟨h₂, f₂, pair₂, cell₂, source₂, other₂⟩
  replace f₂ := f₁.trans f₂
  have destiny₂ : (pair₂.endpoint .destiny).channel = (pair.endpoint .destiny).channel :=
    other₂ .destiny nofun
  refine ensures_bind (ensures_fwEndpointDone hd .destiny h₂ cell₂ fun some => ?_) ?_
  · refine f₂.heldPairs h (held fun none => some (channels_eq_nil source₂ ?_))
    rw [destiny₂]
    exact Option.toList_eq_nil_iff.mp (List.append_eq_nil_iff.mp none).2
  rintro _ s₃ ⟨h₃, f₃, pair₃, cell₃, destiny₃, other₃⟩
  have source₃ : (pair₃.endpoint .source).channel = none :=
    (other₃ .source nofun).trans source₂
  exact ensures_modify (post s₃ pair₃ h₃ (f₂.trans f₃) cell₃ (channels_eq_nil source₃ destiny₃))

omit hd

/-- `FwEndpointDone` without a channel. -/
theorem ensures_fwEndpointDone_empty {t : Terms Entry Stop Proxy} {e : End}
    (cell : s.pairs.cell p = some pair) (empty : (pair.endpoint e).channel = none) :
    Ensures t (fwEndpointDone w dispatch p e) s fun _ s' => s' = { s with
      pairs := s.pairs.store p
        (pair.setEndpoint e { pair.endpoint e with addr := none, port := 0 }) } := by
  refine ensures_bind (ensures_modifyPair (Q := fun _ s' => s' = { s with
    pairs := s.pairs.store p
      (pair.setEndpoint e { pair.endpoint e with addr := none, port := 0 }) }) cell rfl) ?_
  rintro _ _ rfl
  refine ensures_loadPair (s.pairs.cell_store_self cell) (ensures_when (fun isSome => ?_)
    fun _ => rfl)
  rw [FwPair.endpoint_setEndpoint] at isSome
  exact absurd empty isSome

/-- `FwPairRelease` without channels: only the pair goes. -/
theorem ensures_fwPairRelease_empty {Q : Unit → Proxy → Prop} (h : s.Inv)
    (cell : s.pairs.cell p = some pair) (channels : pair.channels = [])
    (post : ∀ pairs : Heap FwPair, (∀ q, q ≠ p → pairs.cell q = s.pairs.cell q) →
      Q () { s with pairs := pairs }) :
    Ensures (ownershipTerms w) (fwPairRelease w dispatch p) s Q := by
  refine ensures_tell_bind fun _ => ⟨lawful_of_inv h nofun, ?_⟩
  have source : pair.source.channel = none :=
    Option.toList_eq_nil_iff.mp (List.append_eq_nil_iff.mp channels).1
  have destiny : pair.destiny.channel = none :=
    Option.toList_eq_nil_iff.mp (List.append_eq_nil_iff.mp channels).2
  refine ensures_bind (ensures_modifyPair (Q := fun _ s' => s' = { s with
    pairs := s.pairs.store p { pair with context := none, closed := false } }) cell rfl) ?_
  rintro _ _ rfl
  have cell₁ := s.pairs.cell_store_self (a := { pair with context := none, closed := false }) cell
  refine ensures_bind (ensures_fwEndpointDone_empty (e := .source) cell₁ source) ?_
  rintro _ _ rfl
  have cell₂ := Heap.cell_store_self _ (a := { pair with
    context := none
    closed := false
    source := { pair.source with addr := none, port := 0 } }) cell₁
  refine ensures_bind (ensures_fwEndpointDone_empty (e := .destiny) cell₂ destiny) ?_
  rintro _ _ rfl
  refine ensures_modify (post _ fun q ne => ?_)
  rw [Heap.cell_free_of_ne _ ne, Heap.cell_store_of_ne _ ne, Heap.cell_store_of_ne _ ne,
    Heap.cell_store_of_ne _ ne]

/-- **`FwPairAlloc`**: a pair nobody holds yet. -/
theorem ensures_fwPairAlloc {Q : Option PairId → Proxy → Prop} (h : s.Inv)
    (post : ∀ p pair s', s'.Inv → Frame [] s s' → s.pairs.cell p = none →
      s'.pairs.cell p = some pair → pair.channels = [] → p ∉ s'.heldPairs → Q (some p) s') :
    Ensures (ownershipTerms w) (fwPairAlloc w) s Q := by
  have same := same_tock s
  refine ensures_bind (P := fun granted s' => granted = true ∧ s' = s.tock) ?_ ?_
  · refine ensures_bind (ensures_nextTick (Q := fun t s' => t = s.tick ∧ s' = s.tock)
      ⟨rfl, rfl⟩) ?_
    rintro _ _ ⟨rfl, rfl⟩
    refine ensures_tell_bind fun assumed => ⟨lawful_of_inv (same.inv h) nofun, ensures_pure ⟨?_, rfl⟩⟩
    have granted := assumed.2 rfl
    by_contra refused
    simp [Bool.not_eq_true _ ▸ refused] at granted
  rintro _ _ ⟨rfl, rfl⟩
  have new : s.pairs.cell s.pairs.next = none := s.pairs.fresh _ (Nat.le_refl _)
  refine ensures_gets_bind (ensures_bind (ensures_when (P := fun _ s' => s' = { s.tock with
    pairs := s.pairs.alloc
      { context := none
        closed := false
        source := fwEndpointInit
        destiny := fwEndpointInit
        userdata := s.pairs.next } }) (fun _ => ensures_modify rfl) fun not => absurd rfl not) ?_)
  rintro _ s' eq
  refine ensures_pure (post _ _ s' ?_ ?_ new (by rw [eq]; exact s.pairs.cell_alloc_self) rfl ?_)
  · rw [eq]
    exact inv_allocPair (same.inv h)
  · rw [eq]
    exact
      { Frame.refl [] s with
        pairs := fun q _ old cell => ⟨old, (s.pairs.cell_alloc_of_ne
          (Nat.ne_of_lt (s.pairs.lt_next_of_cell cell))).trans cell, rfl, rfl, rfl⟩ }
  · rw [eq]
    intro mem
    obtain ⟨old, cell⟩ := h.allocated s.pairs.next mem
    cases new.symm.trans cell

/-- A pool that is there is read without a fault. -/
theorem ensures_loadPool {t : Terms Entry Stop Proxy} {β : Type} {pid : PoolId}
    {pool : FwPool (Option PairId)} {k : Option (FwPool (Option PairId)) → ProxyM β}
    {Q : β → Proxy → Prop} (cell : s.pools.cell pid = some pool)
    (next : Ensures t (k (some pool)) s Q) : Ensures t (loadPool (some pid) >>= k) s Q := by
  have loaded : Ensures t (loadPool (some pid)) s fun a s' => a = some pool ∧ s' = s :=
    ensures_get_bind (ensures_ofExcept_bind (by rw [s.pools.load_of_cell cell]; rfl)
      (ensures_pure ⟨rfl, rfl⟩))
  refine ensures_bind loaded ?_
  rintro _ _ ⟨rfl, rfl⟩
  exact next

/-- A pool is overwritten with one that holds more. -/
theorem Frame.storePool {pid : PoolId} {pool pool' : FwPool (Option PairId)}
    {xs ys : List (Option PairId)} (cell : s.pools.cell pid = some pool) (holds : pool.Holds xs)
    (holds' : pool'.Holds (xs ++ ys)) :
    Frame except s { s with pools := s.pools.store pid pool' } :=
  { Frame.refl except s with
    pool := fun q old zs hq hzs => by
      by_cases same : q = pid
      · subst same
        cases cell.symm.trans hq
        refine ⟨pool', ys, s.pools.cell_store_self cell, ?_⟩
        have eq : zs = xs := (List.map_inj_right fun _ _ => Option.some.inj).mp
          (hzs.items.symm.trans holds.items)
        rw [eq]
        exact holds'
      · exact ⟨old, [], (s.pools.cell_store_of_ne same).trans hq, by rwa [List.append_nil]⟩
    noPool := fun q hq => by
      have ne : q ≠ pid := by
        rintro rfl
        cases cell.symm.trans hq
      exact (s.pools.cell_store_of_ne ne).trans hq }

/-- **`FwPoolAdd`** of a pair without channels: it is in the pool, unless there
is no pool. -/
theorem ensures_poolAdd {Q : Int → Proxy → Prop} (h : s.Inv)
    (alive : s.PoolAlive)
    (cell : s.pairs.cell p = some pair) (channels : pair.channels = []) (unheld : p ∉ s.heldPairs)
    (noPool : s.context.forwardPool = none → Q (-1) s)
    (added : ∀ (n : Nat) s', s'.Inv → Frame [] s s' → s'.pairs = s.pairs → p ∈ s'.heldPairs →
      Q n s') :
    Ensures (ownershipTerms w) (poolAdd w s.context.forwardPool (some p)) s Q := by
  cases pointer : s.context.forwardPool with
  | none => exact ensures_pure (noPool pointer)
  | some pid =>
      obtain ⟨pool, pcell⟩ := Option.ne_none_iff_exists'.mp (alive pid pointer)
      obtain ⟨xs, holds⟩ := h.pool pid pool pointer pcell
      refine ensures_loadPool pcell (ensures_bind (P := fun granted s' => Same s s' ∧
        granted = true ∧ (pool.IsFull → pool.alloc + poolAllocSize ≤ intMax)) ?_ ?_)
      · refine ensures_ite (fun full => ?_) fun room => ensures_pure ⟨?_, rfl, fun full => ?_⟩
        · refine ensures_bind (ensures_nextTick (Q := fun t s' => t = s.tick ∧ s' = s.tock)
            ⟨rfl, rfl⟩) ?_
          rintro _ _ ⟨rfl, rfl⟩
          refine ensures_tell_bind fun assumed =>
            ⟨lawful_of_inv ((same_tock s).inv h) nofun, ensures_pure ⟨same_tock s, ?_, fun _ => ?_⟩⟩
          · have granted := assumed.1.1
            by_contra refused
            simp [Bool.not_eq_true _ ▸ refused] at granted
          · exact assumed.1.2 pid pointer pool pcell
        · constructor <;> rfl
        · simp [full] at room
      rintro _ s₁ ⟨same, rfl, size⟩
      obtain ⟨pool', ok, holds'⟩ := fwPoolAdd_eq holds (FwPool.not_refused size) (some p)
      refine ensures_ofExcept_bind (a := (_, _)) (by rw [ok]; rfl) ?_
      refine ensures_modify_bind (k := fun _ => pure _) (ensures_pure ?_)
      have pcell₁ : s₁.pools.cell pid = some pool := same.pools ▸ pcell
      have unheld₁ : p ∉ s₁.heldPairs := same.heldPairs ▸ unheld
      obtain ⟨inv, perm⟩ := inv_poolAdd (same.inv h) (same.forwardPool.trans pointer) pcell₁ holds
        holds' unheld₁ (same.pairs ▸ cell) channels rfl
      exact added _ _ inv ((same.frame []).trans (.storePool pcell₁ holds holds')) same.pairs
        (perm.mem_iff.mpr (.head _))

end Pairs

/-! ## Forwards

`TrapMessageCallback`, by what becomes of the channel of the request: refused, without a
pair, and with one. -/

section Forwards

variable {w : World} {dispatch : Nat → ProxyM Unit} {s s₀ : Proxy} {p : PairId} {pair : FwPair}
  {originator destination : CString} {originatorPort destinationPort : Int}

/-- A change at an end of a pair that takes a channel from a local variable, or
takes none. -/
private theorem moveToEnd {e : End} (endpoint : FwEndpoint) {after : List ChannelId} (h : s.Inv)
    (f : Frame [p] (s₀.push (endpoint.channel.toList ++ after)) s)
    (cell : s.pairs.cell p = some pair) (mem : p ∈ s.heldPairs)
    (empty : (pair.endpoint e).channel = none) :
    let s' : Proxy := { s with
      pairs := s.pairs.store p (pair.setEndpoint e endpoint)
      locals := endpoint.channel.elim s.locals s.locals.erase }
    s'.Inv ∧ Frame [p] (s₀.push after) s' := by
  intro s'
  cases channel : endpoint.channel with
  | none =>
      have eq : s' = { s with pairs := s.pairs.store p (pair.setEndpoint e endpoint) } := by
        simp only [s', channel, Option.elim_none]
      rw [channel, Option.toList_none, List.nil_append] at f
      rw [eq]
      exact ⟨inv_storePair h cell (channels_setEndpoint pair e (channel.trans empty.symm)),
        f.trans (.storePair s p _)⟩
  | some ch =>
      have eq : s' = { s with
          pairs := s.pairs.store p (pair.setEndpoint e endpoint)
          locals := s.locals.erase ch } := by
        simp only [s', channel, Option.elim_some]
      rw [channel, Option.toList_some, List.singleton_append] at f
      have isLocal : ch ∈ s.locals := by
        rw [f.locals]
        simp [Proxy.push]
      refine ⟨inv_moveToEnd h cell mem empty channel isLocal eq, ?_⟩
      rw [eq]
      exact f.popHead.trans (.storePair (s.pop ch) p _)

/-- An end of a pair is filled in, and takes the channel of a local variable. -/
theorem ensures_fillEnd {α : Type} {e : End} {addr : CString} {port : Int}
    {channel : Option ChannelId} {after : List ChannelId} {k : ProxyM α}
    {Q : α → Proxy → Prop} (h : s.Inv)
    (f : Frame [p] (s₀.push (channel.toList ++ after)) s)
    (cell : s.pairs.cell p = some pair) (mem : p ∈ s.heldPairs)
    (empty : (pair.endpoint e).channel = none)
    (next : ∀ s' pair', s'.Inv → Frame [p] (s₀.push after) s' →
      s'.pairs.cell p = some pair' → p ∈ s'.heldPairs → (pair'.endpoint e).channel = channel →
      (∀ e', e' ≠ e → (pair'.endpoint e').channel = (pair.endpoint e').channel) →
      Ensures (ownershipTerms w) k s' Q) :
    Ensures (ownershipTerms w) (do
      let strdup ← allocate w .strdup
      modifyEndpoint p e fun _ =>
        { addr := if strdup then some addr else none, port := port, channel := channel }
      modify fun s => { s with locals := channel.elim s.locals s.locals.erase }
      k) s Q := by
  have allocated : Goes w [] (allocate w .strdup) s := goes_allocate h
  refine ensures_bind allocated ?_
  rintro strdup s₁ ⟨h₁, f₁⟩
  obtain ⟨pair₁, cell₁, ends₁, -⟩ := f₁.endpoint cell
  have mem₁ := f₁.heldPairs h mem
  have empty₁ : (pair₁.endpoint e).channel = none := by
    rw [ends₁]
    exact empty
  let endpoint : FwEndpoint :=
    { addr := if strdup then some addr else none
      port := port
      channel := channel }
  obtain ⟨h₂, f₂⟩ := moveToEnd endpoint h₁ (f.trans f₁.weaken) cell₁ mem₁ empty₁
  refine ensures_bind (ensures_modifyPair (Q := fun _ s' => s' = { s₁ with
    pairs := s₁.pairs.store p (pair₁.setEndpoint e endpoint) }) cell₁ rfl) ?_
  rintro _ _ rfl
  refine ensures_modify_bind (next _ _ h₂ f₂ (s₁.pairs.cell_store_self cell₁) mem₁ ?_ ?_)
  · rw [FwPair.endpoint_setEndpoint]
  · intro e' ne
    rw [FwPair.endpoint_setEndpoint_of_ne _ _ ne, ends₁]

/-- A pair is registered for a channel of its own. -/
theorem inv_registerPair {ch : ChannelId} (h : s.Inv) (mem : p ∈ s.heldPairs)
    (cell : s.pairs.cell p = some pair) (atEnd : ch ∈ pair.channels) :
    (s.register ch (.forwardChannelCB p)).Inv := by
  refine inv_updateChannel ((same_tock s).inv h) fun _ q _ eq => ?_
  cases Option.some.inj eq
  refine ⟨mem, ?_⟩
  rw [pairChannels_eq (s := s.tock) cell]
  exact atEnd

variable (hd : ∀ t, Keeps w (dispatch t))

include hd

/-- The channel to the destination, if there is one, is in a local variable. -/
theorem ensures_forwardConnect (h : s.Inv) :
    Ensures (ownershipTerms w)
      (forwardConnect w dispatch originator originatorPort destination destinationPort) s
      fun r s' => s'.Inv ∧ Frame [] (s.push r.1.toList) s' ∧ (r.2 = false → r.1 = none) := by
  refine ensures_ite (fun _ => ensures_pure ⟨h, .refl [] s, nofun⟩) fun _ => ?_
  refine ensures_get_bind (ensures_bind (ensures_firstChannel h) ?_)
  rintro o s₁ ⟨h₁, f₁⟩
  obtain _ | ch := o
  · exact ensures_pure ⟨h₁, f₁, fun _ => rfl⟩
  have isLocal : ch ∈ s₁.locals := f₁.locals ▸ List.mem_append_left _ (.head _)
  refine ensures_bind (ensures_callWith (Q := fun i s' => i = sshOk ∧ s'.Inv ∧
    Frame [] (s.push [ch]) s') hd h₁ ?_ ((same_tock s₁).inv h₁) fun assumed s' h' f' =>
      ⟨assumed.1, h', (f₁.tock).trans f'⟩) ?_
  · rintro _ ⟨⟩
    exact (h₁.of_mem_locals isLocal).1
  rintro _ s₂ ⟨rfl, h₂, f₂⟩
  exact ensures_ite (fun refused => absurd rfl refused) fun _ => ensures_pure ⟨h₂, f₂, nofun⟩

omit hd in
/-- **A pair no pool has taken is released.**

Its ends are empty, so nothing but its own memory is given back, and both channels stay in
the local variables. -/
theorem ensures_forwardRegister_refused {src : ChannelId} {dst : Option ChannelId} (h : s.Inv)
    (f : Frame [] (s₀.push (src :: dst.toList)) s) (new₀ : s₀.pairs.cell p = none)
    (cell : s.pairs.cell p = some pair) (channels : pair.channels = [])
    (unheld : p ∉ s.heldPairs) :
    Ensures (ownershipTerms w) (do
      whenSome (some p) (fwPairRelease w dispatch)
      pure true) s
      fun close s' => s'.Inv ∧ Frame [] (if close then s₀.push (src :: dst.toList) else s₀) s' := by
  refine ensures_bind (ensures_whenSome (P := fun _ s' => s'.Inv ∧
    Frame [] (s₀.push (src :: dst.toList)) s') nofun ?_) fun _ _ post => ensures_pure post
  rintro _ ⟨⟩
  refine ensures_fwPairRelease_empty h cell channels fun pairs same => ⟨?_, ?_⟩
  · refine inv_pairs h fun q hq old cell => ⟨old, (same q ?_).trans cell, rfl⟩
    rintro rfl
    exact unheld hq
  · refine { f with pairs := fun q known old before => ?_ }
    obtain ⟨pair', cell', ends⟩ := f.pairs q known old before
    refine ⟨pair', (same q ?_).trans cell', ends⟩
    rintro rfl
    cases new₀.symm.trans before

omit hd in
/-- A channel of a pair that is held gets the table of the pair. -/
theorem ensures_registerPair {ch : ChannelId} (h : s.Inv) (mem : p ∈ s.heldPairs)
    (cell : s.pairs.cell p = some pair) (atEnd : ch ∈ pair.channels) :
    Ensures (ownershipTerms w) (sshSetChannelCallbacks w dispatch (some ch)
      (.forwardChannelCB p)) s fun _ s' => s' = s.register ch (.forwardChannelCB p) ∧ s'.Inv := by
  refine ensures_sshSetChannelCallbacks h (h.of_mem_pairChannels mem ?_).1 fun _ =>
    ⟨rfl, inv_registerPair h mem cell atEnd⟩
  rw [pairChannels_eq cell]
  exact atEnd

omit hd in
/-- **A pair in the pool takes over both channels.**

They leave the local variables as the ends of the pair are filled in, the source first, and
both are the pair's when it is registered as what they call back into. -/
theorem ensures_forwardRegister_stored {src : ChannelId} {dst : Option ChannelId} (h : s.Inv)
    (f : Frame [] (s₀.push (src :: dst.toList)) s) (new₀ : s₀.pairs.cell p = none)
    (cell : s.pairs.cell p = some pair) (channels : pair.channels = []) (mem : p ∈ s.heldPairs) :
    Ensures (ownershipTerms w) (do
      modifyPair p fun pair => { pair with context := some .proxyProcess }
      let strdup ← allocate w .strdup
      modifyEndpoint p .source fun _ =>
        { addr := if strdup then some originator else none
          port := originatorPort
          channel := some src }
      modify fun s => { s with locals := (some src).elim s.locals s.locals.erase }
      let strdup ← allocate w .strdup
      modifyEndpoint p .destiny fun _ =>
        { addr := if strdup then some destination else none
          port := destinationPort
          channel := dst }
      modify fun s => { s with locals := dst.elim s.locals s.locals.erase }
      sshSetChannelCallbacks w dispatch (some src) (.forwardChannelCB p)
      when (dst ≠ none) do
        sshSetChannelCallbacks w dispatch dst (.forwardChannelCB p)
      pure false) s
      fun close s' => s'.Inv ∧ Frame [] (if close then s₀.push (src :: dst.toList) else s₀) s' := by
  -- Pair->Context=Context;
  refine ensures_bind (ensures_modifyPair (Q := fun _ s' => s' = { s with
    pairs := s.pairs.store p { pair with context := some .proxyProcess } }) cell rfl) ?_
  rintro _ s₁ eq₁
  have h₁ : s₁.Inv := eq₁ ▸ inv_storePair h cell rfl
  have f₁ : Frame [p] s s₁ := eq₁ ▸ .storePair s p _
  have cell₁ : s₁.pairs.cell p = some { pair with context := some .proxyProcess } := by
    rw [eq₁]
    exact s.pairs.cell_store_self cell
  have mem₁ := f₁.heldPairs h mem
  have source₁ : (FwPair.endpoint { pair with context := some .proxyProcess } .source).channel =
      none := Option.toList_eq_nil_iff.mp (List.append_eq_nil_iff.mp channels).1
  have destiny₁ : (FwPair.endpoint { pair with context := some .proxyProcess } .destiny).channel =
      none := Option.toList_eq_nil_iff.mp (List.append_eq_nil_iff.mp channels).2
  -- Pair->Source and Pair->Destiny
  refine ensures_fillEnd h₁ (f.weaken.trans f₁) cell₁ mem₁
    source₁ fun s₂ pair₂ h₂ f₂ cell₂ mem₂ source₂ others₂ => ?_
  have f₂ : Frame [p] (s₀.push (dst.toList ++ [])) s₂ := by
    rw [List.append_nil]
    exact f₂
  refine ensures_fillEnd h₂ f₂ cell₂ mem₂
    ((others₂ .destiny nofun).trans destiny₁) fun s₃ pair₃ h₃ f₃ cell₃ mem₃ destiny₃ others₃ => ?_
  have source₃ := (others₃ .source nofun).trans source₂
  -- both channels are registered with the pair
  refine ensures_bind (ensures_registerPair h₃ mem₃ cell₃ (mem_channels source₃)) ?_
  rintro _ s₄ ⟨eq₄, h₄⟩
  have f₄ : Frame [] s₃ s₄ := eq₄ ▸ frame_register [] s₃ src _
  have cell₄ : s₄.pairs.cell p = some pair₃ := by
    rw [eq₄, Proxy.register, (updateChannel_eq ..).1]
    exact cell₃
  refine ensures_bind (P := fun _ s' => s'.Inv ∧ Frame [] s₃ s') (ensures_when (fun _ => ?_)
    fun _ => ⟨h₄, f₄⟩) fun _ s' post =>
      ensures_pure ⟨post.1, (f₃.trans post.2.weaken).ofNew new₀⟩
  obtain ⟨ch, rfl⟩ := Option.ne_none_iff_exists'.mp ‹dst ≠ none›
  refine ensures_mono (ensures_registerPair h₄ (f₄.heldPairs h₃ mem₃) cell₄
    (mem_channels destiny₃)) ?_
  rintro _ _ ⟨rfl, h₅⟩
  exact ⟨h₅, f₄.trans (frame_register [] s₄ ch _)⟩

omit hd in
/-- **The insertion into the pool**: the pair owns both channels, or the local
variables still do. -/
theorem ensures_forwardRegister {src : ChannelId} {dst : Option ChannelId} (h : s.Inv)
    (f : Frame [] (s₀.push (src :: dst.toList)) s)
    (alive : s.PoolAlive) :
    Ensures (ownershipTerms w)
      (forwardRegister w dispatch originator originatorPort destination destinationPort (some src)
        dst) s
      fun close s' => s'.Inv ∧ Frame [] (if close then s₀.push (src :: dst.toList) else s₀) s' := by
  refine ensures_bind (ensures_fwPairAlloc h (Q := fun o s' => ∃ p pair, o = some p ∧ s'.Inv ∧
    Frame [] s s' ∧ s.pairs.cell p = none ∧ s'.pairs.cell p = some pair ∧ pair.channels = [] ∧
      p ∉ s'.heldPairs) fun p pair s' h f new cell channels unheld =>
        ⟨p, pair, rfl, h, f, new, cell, channels, unheld⟩) ?_
  rintro _ s₁ ⟨p, pair, rfl, h₁, f₁, new, cell₁, channels, unheld⟩
  have new₀ : s₀.pairs.cell p = none := by
    by_contra some
    obtain ⟨old, cell⟩ := Option.ne_none_iff_exists'.mp some
    obtain ⟨pair', cell', -⟩ := f.pairs p (List.not_mem_nil) old cell
    cases new.symm.trans cell'
  have alive₁ := f₁.poolAlive h.pool alive
  replace f₁ := f.trans f₁
  refine ensures_get_bind (ensures_bind (ensures_poolAdd h₁ alive₁ cell₁ channels unheld
    (Q := fun index s' => (index = -1 ∧ s' = s₁) ∨ (index ≠ -1 ∧ s'.Inv ∧ Frame [] s₁ s' ∧
      s'.pairs = s₁.pairs ∧ p ∈ s'.heldPairs)) (fun _ => .inl ⟨rfl, rfl⟩)
    fun n s' h f same mem => .inr ⟨by omega, h, f, same, mem⟩) ?_)
  rintro index s₂ (⟨rfl, rfl⟩ | ⟨valid, h₂, f₂, same₂, mem₂⟩)
  · refine ensures_ite (fun not => absurd rfl not) fun _ => ?_
    exact ensures_forwardRegister_refused h₁ f₁ new₀ cell₁ channels unheld
  · refine ensures_ite (fun _ => ?_) fun not => absurd valid not
    exact ensures_forwardRegister_stored h₂ (f₁.trans f₂) new₀ (same₂ ▸ cell₁) channels mem₂

/-- The channel of a local variable is closed and freed. -/
theorem ensures_closeLocal {α : Type} {o : Option ChannelId} {before : List ChannelId}
    {k : ProxyM α} {Q : α → Proxy → Prop} (h : s.Inv)
    (f : Frame [] (s₀.push (before ++ o.toList)) s)
    (next : ∀ s', s'.Inv → Frame [] (s₀.push before) s' → Ensures (ownershipTerms w) k s' Q) :
    Ensures (ownershipTerms w) (do
      let _ ← onChannel w dispatch o .close
      sshChannelFree w dispatch o
      k) s Q := by
  have closed : Goes w [] (onChannel w dispatch o .close) s := by
    refine goes_onChannel hd h ?_ fun _ => rfl
    rintro ch rfl
    exact (h.of_mem_locals (by simp [f.locals, Proxy.push])).1
  refine ensures_bind closed ?_
  rintro _ s₁ ⟨h₁, f₁⟩
  replace f₁ := f.trans f₁
  obtain _ | ch := o
  · rw [Option.toList_none, List.append_nil] at f₁
    exact ensures_bind (ensures_pure (P := fun _ s' => s' = s₁) rfl) fun _ _ eq =>
      eq ▸ next s₁ h₁ f₁
  · refine ensures_bind (ensures_freeLocal h₁ f₁ (Q := fun _ s' => s'.Inv ∧
      Frame [] (s₀.push before) s') fun s' h' f' => ⟨h', by rwa [List.append_nil] at f'⟩) ?_
    rintro _ s' ⟨h', f'⟩
    exact next s' h' f'

/-- Both channels are closed and freed. -/
theorem ensures_forwardClose {src dst : Option ChannelId} (h : s.Inv)
    (f : Frame [] (s₀.push (src.toList ++ dst.toList)) s) :
    Ensures (ownershipTerms w) (forwardClose w dispatch src dst) s fun _ s' =>
      s'.Inv ∧ Frame [] s₀ s' := by
  refine ensures_bind (P := fun _ s' => s'.Inv ∧ Frame [] (s₀.push src.toList) s')
    (ensures_when (fun _ => ?_) fun isNone => ?_) ?_
  · have same := same_setBlocking s s.context.haasSession false
    refine ensures_get_bind (ensures_gets_bind (ensures_modify_bind ?_))
    refine ensures_closeLocal hd (same.inv h) (f.trans (same.frame [])) fun s₁ h₁ f₁ => ?_
    exact ensures_mono (goes_get (goes_sshSetBlocking h₁)) fun _ _ post =>
      ⟨post.1, f₁.trans post.2⟩
  · rw [not_not.mp isNone, Option.toList_none, List.append_nil] at f
    exact ⟨h, f⟩
  rintro _ s₁ ⟨h₁, f₁⟩
  have same := same_setBlocking s₁ (some s₁.context.trapSession) false
  refine ensures_get_bind (ensures_gets_bind (ensures_modify_bind ?_))
  replace h₁ := same.inv h₁
  replace f₁ := f₁.trans (same.frame [])
  have refused {s : Proxy} (h : s.Inv) (f : Frame [] (s₀.push src.toList) s) : Goes w []
      (onChannel w dispatch src fun ch => .requestSendExitStatus ch econnrefused) s := by
    refine goes_onChannel hd h ?_ fun _ => rfl
    rintro ch rfl
    exact (h.of_mem_locals (by simp [f.locals, Proxy.push])).1
  refine ensures_bind (refused h₁ f₁) ?_
  rintro _ s₂ ⟨h₂, f₂⟩
  have onTop : Frame [] (s₀.push ([] ++ src.toList)) s₂ := f₁.trans f₂
  refine ensures_closeLocal hd h₂ onTop fun s₃ h₃ f₃ => ?_
  exact ensures_mono (goes_sshSetBlocking h₃) fun _ _ post => ⟨post.1, f₃.trans post.2⟩

/-- **A request for a forward**: both channels go to a pair in the pool, or they
are freed. -/
theorem goes_forwardOpen (h : s.Inv) (alive : s.PoolAlive) :
    Goes w [] (forwardOpen w dispatch originator originatorPort destination destinationPort) s := by
  refine goes_ite (fun _ => goes_pure h) fun _ => ensures_bind (ensures_forwardConnect hd h) ?_
  rintro ⟨dst, accept⟩ s₁ ⟨h₁, f₁, refused⟩
  refine ensures_bind (P := fun src s' => s'.Inv ∧ Frame [] (s.push (src.toList ++ dst.toList)) s')
    ?_ ?_
  · cases accept with
    | false => exact ensures_pure ⟨h₁, f₁⟩
    | true => exact ensures_gets_bind (ensures_obtainBy (by simp [Call.Dispatches]) rfl h₁ f₁
        fun _ _ h f => ⟨h, f⟩)
  rintro src s₂ ⟨h₂, f₂⟩
  have alive₂ : s₂.PoolAlive := f₂.poolAlive h.pool alive
  refine ensures_bind (P := fun close s' => s'.Inv ∧
    Frame [] (if close then s.push (src.toList ++ dst.toList) else s) s') ?_ ?_
  · refine ensures_ite (fun _ => ensures_pure ⟨h₂, f₂⟩) fun not => ?_
    rw [not_or] at not
    obtain ⟨ch, rfl⟩ := Option.ne_none_iff_exists'.mp not.1
    exact ensures_forwardRegister h₂ f₂ alive₂
  rintro close s₃ ⟨h₃, f₃⟩
  refine ensures_bind (P := fun _ s' => s'.Inv ∧ Frame [] s s') ?_ fun _ _ post =>
    ensures_pure post
  cases close with
  | false => exact ensures_when (fun close => absurd close Bool.false_ne_true) fun _ => ⟨h₃, f₃⟩
  | true => exact ensures_when (fun _ => ensures_forwardClose hd h₃ f₃) fun not => absurd rfl not

/-- `TrapMessageCallback` keeps ownership if the pool is still alive where a forward is
asked for. Past the release of the pool the context still points to it, and this is what
`Callback.Spares` excludes. -/
theorem goes_trapMessageCallback {msg : Option Message} (h : s.Inv)
    (alive : ∀ originator originatorPort destination destinationPort,
      msg = some (.directTcpip originator originatorPort destination destinationPort) →
        s.PoolAlive) :
    Goes w [] (trapMessageCallback w dispatch msg) s := by
  refine goes_thenReset ?_
  split
  · exact goes_forwardOpen hd h (alive _ _ _ _ rfl)
  · exact goes_pure h

omit hd in
/-- The pair a channel is registered for, and its other end. -/
theorem otherEnd_live {ch : ChannelId} {c : Channel} (h : s.Inv)
    (cell : s.channels.cell ch = some c) (callbacks : c.callbacks = some (.forwardChannelCB p)) :
    ∃ pair, s.pairs.cell p = some pair ∧ ∀ context other, (pair.otherEnd ch context).1 = some other →
      other ∉ s.freed := by
  obtain ⟨held, -⟩ := h.registered ch c p cell callbacks
  obtain ⟨pair, pcell⟩ := h.allocated p held
  refine ⟨pair, pcell, fun context other eq => (h.of_mem_pairChannels held (?_ : other ∈ _)).1⟩
  rw [pairChannels_eq pcell]
  unfold FwPair.otherEnd at eq
  split at eq
  · exact mem_channels (e := .destiny) eq
  · exact mem_channels (e := .source) eq

/-- The data of a forward goes to the other end of its pair. The channel's callbacks
name the pair, and by the invariant a channel that does so belongs to it, so the pair is
there. -/
theorem goes_forwardChannelDataCallback {ch : ChannelId} {c : Channel} {session : SessionId}
    {isStderr : Bool} {data : List UInt8} (h : s.Inv) (cell : s.channels.cell ch = some c)
    (callbacks : c.callbacks = some (.forwardChannelCB p)) :
    Goes w [] (forwardChannelDataCallback w dispatch session ch isStderr data p) s := by
  obtain ⟨pair, pcell, live⟩ := otherEnd_live h cell callbacks
  refine ensures_loadPair pcell ?_
  split
  · exact goes_pure h
  refine goes_get (goes_thenReset ?_)
  split
  · exact goes_writeNonblocking hd h (live s.context)
  · refine goes_writeNonblocking hd h ?_
    rintro _ ⟨⟩
    exact h.live ch c cell
  · exact goes_pure h
  · exact goes_pure h

/-- The end of the data of a forward, by the same argument. -/
theorem goes_forwardChannelEofCallback {ch : ChannelId} {c : Channel} (h : s.Inv)
    (cell : s.channels.cell ch = some c)
    (callbacks : c.callbacks = some (.forwardChannelCB p)) :
    Goes w [] (forwardChannelEofCallback w dispatch ch p) s := by
  obtain ⟨pair, pcell, live⟩ := otherEnd_live h cell callbacks
  refine ensures_loadPair pcell ?_
  split
  · exact goes_pure h
  refine goes_get (goes_bind (goes_when h fun _ => ?_) fun _ _ h _ => goes_idleTimerReset h)
  exact goes_bind (goes_sshChannelSendEof hd h (live s.context)) fun _ _ h _ => goes_pure h

omit hd in
/-- Marking a pair as closed is nothing a frame forbids. -/
theorem goes_forwardChannelCloseCallback (h : s.Inv) (cell : s.pairs.cell p = some pair) :
    Goes w [] (forwardChannelCloseCallback p) s := by
  refine ensures_modifyPair cell ⟨inv_storePair h cell rfl, ?_⟩
  refine
    { Frame.refl [] s with
      pairs := fun q _ old hq => ?_ }
  by_cases same : q = p
  · subst same
    cases cell.symm.trans hq
    exact ⟨_, s.pairs.cell_store_self cell, rfl, rfl, rfl⟩
  · exact ⟨old, (s.pairs.cell_store_of_ne same).trans hq, rfl, rfl, rfl⟩

end Forwards

/-! ## libssh makes a callback

The table of a channel leads to a callback of the session or of a pair; in either case the
invariant says what is there when it begins. -/

section Deliver

variable {w : World} {dispatch : Nat → ProxyM Unit} {s : Proxy}

theorem goes_answerless {m : ProxyM Unit} (first : Goes w [] m s) : Goes w [] (answerless m) s :=
  goes_bind first fun _ _ h _ => goes_pure h

variable (hd : ∀ t, Keeps w (dispatch t))

include hd

/-- **The tables.**  What is passed on finds `HaasChannel` live, by assumption,
and `TrapChannel`, by the invariant. -/
theorem goes_channelCallback {ch : ChannelId} {c : Channel} {table : ChannelCallbacks}
    {event : ChannelEvent} {m : ProxyM Int} (h : s.Inv) (cell : s.channels.cell ch = some c)
    (callbacks : c.callbacks = some table) (spares : (Callback.channel ch event).Spares s)
    (eq : channelCallback w dispatch ch c table event = some m) : Goes w [] m s := by
  have trap : LiveIn s fun c => c.trapChannel := h.trapLive
  -- by the invariant a pair that is called back into is there
  have forwarded {p : PairId} (about : table = .forwardChannelCB p) :
      ∃ pair, s.pairs.cell p = some pair :=
    h.allocated p (h.registered ch c p cell (about ▸ callbacks)).1
  cases table with
  | trapChannelCB =>
      -- that `HaasChannel` is live is what has to be assumed
      have haas (passed : event.PassedOn) : LiveIn s fun c => c.haasChannel :=
        spares passed c cell callbacks
      cases event <;> cases eq
      case ptyRequest.refl =>
        exact goes_passOnOnce hd h (haas trivial) (fun _ => rfl) fun _ => ⟨rfl, rfl, rfl, rfl⟩
      case ptyWindowChange.refl =>
        refine goes_get (goes_thenReset (goes_ite (fun _ => ?_) fun _ => goes_pure h))
        exact goes_passOn hd h (haas trivial) fun _ => rfl
      case shellRequest.refl =>
        exact goes_passOnOnce hd h (haas trivial) (fun _ => rfl) fun _ => ⟨rfl, rfl, rfl, rfl⟩
      case execRequest.refl => exact goes_passOnEach hd h (haas trivial) fun _ => rfl
      case envRequest.refl => exact goes_passOnEach hd h (haas trivial) fun _ => rfl
      case subsystemRequest.refl =>
        exact goes_bind (goes_idleTimerReset h) fun _ _ h _ => goes_pure h
      case authAgent.refl => exact goes_answerless (goes_idleTimerReset h)
      case x11.refl => exact goes_answerless (goes_idleTimerReset h)
      case signal.refl =>
        exact goes_answerless (goes_passNotice hd h (haas trivial) fun _ => rfl)
      case exitSignal.refl =>
        exact goes_answerless (goes_passNotice hd h (haas trivial) fun _ => rfl)
      case exitStatus.refl =>
        exact goes_answerless (goes_passNotice hd h (haas trivial) fun _ => rfl)
      case data.refl => exact goes_relayData hd h (haas trivial)
      case eof.refl => exact goes_answerless (goes_relayEof hd h (haas trivial))
      case close.refl => exact goes_answerless (goes_modifyContext h ⟨rfl, rfl, rfl, rfl⟩)
  | haasChannelCB =>
      cases event <;> cases eq
      case signal.refl => exact goes_answerless (goes_passNotice hd h trap fun _ => rfl)
      case exitSignal.refl => exact goes_answerless (goes_passNotice hd h trap fun _ => rfl)
      case exitStatus.refl => exact goes_answerless (goes_passNotice hd h trap fun _ => rfl)
      case data.refl => exact goes_relayData hd h trap
      case eof.refl => exact goes_answerless (goes_relayEof hd h trap)
      case close.refl => exact goes_answerless (goes_modifyContext h ⟨rfl, rfl, rfl, rfl⟩)
  | forwardChannelCB p =>
      obtain ⟨pair, pcell⟩ := forwarded rfl
      cases event <;> cases eq
      case data.refl => exact goes_forwardChannelDataCallback hd h cell callbacks
      case eof.refl => exact goes_answerless (goes_forwardChannelEofCallback hd h cell callbacks)
      case close.refl => exact goes_answerless (goes_forwardChannelCloseCallback h pcell)

omit hd in
/-- A callback between its two entries in the log. -/
theorem goes_logged {cb : Callback} {m : ProxyM Int} (h : s.Inv)
    (go : cb.Spares s → Goes w [] m s) : Goes w [] (logged cb m) s := by
  refine ensures_tell_bind fun assumed => ⟨lawful_of_inv h nofun, ?_⟩
  refine goes_bind (go assumed.1) fun _ s' h' _ => ?_
  exact goes_bind (goes_tell h' fun _ => lawful_of_inv h' nofun) fun _ _ h _ => goes_pure h

/-- An event is delivered on a channel: which callback that is depends on the table the
channel has at that moment. -/
theorem goes_deliverChannel {ch : ChannelId} {event : ChannelEvent} (h : s.Inv) :
    Goes w [] (deliverChannel w dispatch ch event) s := by
  refine goes_bind (goes_keepCallbacks h fun c => callbacks_arrive c event) fun _ s h _ =>
    goes_get ?_
  split
  · exact goes_pure h
  rename_i c cell
  split
  · exact goes_pure h
  rename_i m found
  obtain ⟨table, callbacks, eq⟩ := Option.bind_eq_some_iff.mp found
  refine goes_bind (goes_logged h fun spares =>
    goes_channelCallback hd h cell callbacks spares eq) fun _ s h _ => ?_
  exact goes_keepCallbacks h fun c => callbacks_consume c _ event

/-- **Any callback keeps ownership.** -/
theorem goes_deliver {cb : Callback} (h : s.Inv) : Goes w [] (deliver w dispatch cb) s := by
  have answers {cb : Callback} {m : ProxyM Int} (go : cb.Spares s → Goes w [] m s) :
      Goes w [] (logged cb m >>= fun _ => pure ()) s :=
    goes_bind (goes_logged h go) fun _ _ h _ => goes_pure h
  cases cb with
  | channel ch event => exact goes_deliverChannel hd h
  | authNone => exact answers fun _ => goes_trapAuthDenied h
  | authPassword => exact answers fun _ => goes_trapAuthPassword hd h
  | authPubkey => exact answers fun _ => goes_trapAuthDenied h
  | authGssapiMic => exact answers fun _ => goes_trapAuthDenied h
  | serviceRequest => exact answers fun _ => goes_trapServiceRequest h
  | newChannel =>
      exact answers fun _ => goes_bind (goes_trapNewChannel hd h) fun _ _ h _ => goes_pure h
  | trapMessage msg =>
      refine answers fun spares => goes_trapMessageCallback hd h ?_
      rintro _ _ _ _ rfl
      exact spares
  | haasMessage => exact answers fun _ => goes_haasMessageCallback h

end Deliver

/-- **Callbacks nested to any depth keep ownership.** -/
theorem keeps_dispatchWithin (w : World) (depth t : Nat) : Keeps w (dispatchWithin w depth t) := by
  induction depth generalizing t with
  | zero => exact fun s h => goes_pure h
  | succ depth ih =>
      intro s h
      refine ensures_each (I := fun s' => s'.Inv ∧ Frame [] s s') ⟨h, .refl [] s⟩ ?_
      rintro cb _ s' ⟨h', f'⟩
      exact ensures_mono (goes_deliver ih h') fun _ _ post => ⟨post.1, f'.trans post.2⟩

end HaasProxy
