import HaasProxy.Process
import HaasProxy.Lib.Path

/-!
# What the proxy's programs are composed of

A property of programs that is `Composed` holds of the few commands all functions of
the proxy are made of, and of what is made of them: reading the state, updates that let
no time pass and leave the idle timer alone, ticks, faults, and entries of the log.  It is
shown here, function by function in the order of the source, that it then holds of them
all.

The idle timer is set anew where a callback ends, and where a session is taken into the
event.  What is true of programs that end by setting it is a second property.

Which calls of libssh a function may make by itself is `World.MayCall`.  The callbacks
on a channel make other calls as well, to pass on what they were made for; they come
last, for properties that hold of any call.

## Main definitions and results

* `World.MayCall` — the calls the proxy makes by itself, with what is known of their arguments;
* `Composed`, `ComposedFreely` — what a property has to hold of;
* `OfTable` — how a callback on a channel is made;
* `composed_callWithEffect` — a call, with the callbacks it delivers;
* `composed_fromKeyExchange` — `ProxyProcess` from the key exchange on;
* `composed_deliver`, `composed_channelCallback` — a callback, and one on a channel;
* `composed_dispatchWithin` — callbacks nested to any depth;
* `freely_proxyProcess` — all of it, where pairs and pools do not matter.

## Design notes

**How this differs from `Uniform`.**  A congruence relates the program of one mode with that of
another, and is about what changes between them.  Here is one program, and a property of what it
does by itself: that it speaks, that it keeps accounts, that it attends to the timer.
For such a property there is more to know, which calls are made and when the timer is set.

**The two properties.**  `R` is said of any piece of a program, `B` of a piece whose last statement
that matters is `IdleTimerReset`.  The rules say how they mix: a piece with `R` in front of
one with `B` is a `B`, and a `B` remains one when only its answer is computed behind it.  So that
every callback ends by setting the timer is read off its text.

**Pairs and pools.**  The commands that put a pair into the pool, take one out or release one
are left out of `Composed`.  The functions that do so are hypotheses of the results, to be
shown for each property by itself.

**Registration.**  That a channel comes to call back into a pair happens in one place only.
`RegistersForwards` says whether the property holds of that, so that all others can rely
on no channel getting a table.
-/

namespace HaasProxy

open Traced

/-- **The calls of libssh** that the proxy makes by itself, and not to pass on what
arrives on a channel.  Nobody is connected to anything but in `ALLOW` mode, the backend
is the configured one, and it is offered credentials as `HaasConnect` forms them. -/
def World.MayCall (w : World) : Call → Prop
  | .optionsSetHost _ host => host = w.config.haasAddr
  | .optionsSetPort _ port => port = w.config.haasPort
  | .optionsSetTimeout _ seconds => seconds = 60
  | .optionsSetUser .. => w.config.foreground = true
  | .optionsSetLog _ level => w.config.haasLog = some level
  | .userauthPassword _ text => ∃ password haasToken, w.config.haasToken = some haasToken ∧
      text = (Credential.pieces ⟨password, haasToken, w.sin⟩).flatten
  | .openForward .. => w.config.forwardMode = some .allow
  | .openReplyAccept => w.config.forwardMode ≠ some .deny
  | .requestSendExitStatus _ status => status = econnrefused
  | .write .. | .requestPtySize .. | .changePtySize .. | .requestShell _ | .requestExec ..
  | .requestEnv .. | .requestSendSignal .. | .requestSendExitSignal .. => False
  | _ => True

/-- A session is taken into the event.  The proxy sets the idle timer when it has done so. -/
def Call.watches : Call → Bool
  | eventAddSession _ => true
  | _ => false

/-- The calls that are not followed by setting the idle timer. -/
def World.Makes (w : World) (c : Call) : Prop := w.MayCall c ∧ c.watches = false

/-- No time has passed, and the idle timer is what it was. -/
structure Timeless (s s' : Proxy) : Prop where
  tick : s'.tick = s.tick
  idleTimer : s'.context.idleTimer = s.context.idleTimer

/-- Besides, no pair was changed, and neither was a pool or which of them is the session's.
No channel has come to call back into a pair: that is done by `TrapMessageCallback` alone,
where it registers a forward. -/
structure Aside (s s' : Proxy) : Prop extends Timeless s s' where
  pairs : s'.pairs = s.pairs
  pools : s'.pools = s.pools
  /-- The session keeps its pool. -/
  forwardPool : s'.context.forwardPool = s.context.forwardPool
  /-- A channel may lose its table, or be freed; it does not get one. -/
  forgets : Forgets s s'

/-- A property `R` of programs that holds of commands of the proxy and of what is composed of
them, and `B` of those that end by setting the idle timer.  Where pairs or a pool come and go,
or a pair loses its context, that is not said. -/
structure Composed (w : World) (R B : ∀ α : Type, ProxyM α → Prop) : Prop where
  /-- Doing nothing. -/
  pure : ∀ {α : Type} (a : α), R α (pure a)
  /-- One program after another. -/
  bind : ∀ {α β : Type} {m : ProxyM α} {k : α → ProxyM β},
    R α m → (∀ a, R β (k a)) → R β (m >>= k)
  /-- Reading the state. -/
  get : R Proxy get
  /-- Stopping for good. -/
  fault : ∀ {α : Type} (fault : Fault), R α (stop (.fault fault))
  /-- An interaction takes a number. -/
  nextTick : R Nat nextTick
  /-- A change that leaves time, pairs and pools aside. -/
  modify : ∀ {f : Proxy → Proxy}, (∀ s, Aside s (f s)) → R Unit (modify f)
  /-- A change of one pair that does not take its context. -/
  modifyPair : ∀ p f, (∀ pair, (f pair).context = none → pair.context = none) →
    R Unit (modifyPair p f)
  /-- Asking for memory. -/
  alloc : ∀ allocation i, R Unit (tell fun s => ⟨s, .alloc allocation, i⟩)
  /-- A call that may be made. -/
  call : ∀ c i, w.Makes c → R Unit (tell fun s => ⟨s, .call c, i⟩)
  /-- A call that returns. -/
  returned : ∀ c i, R Unit (tell fun s => ⟨s, .returned c, i⟩)
  /-- `IdleTimerReset` ends by setting the idle timer. -/
  reset : B Unit (idleTimerReset w)
  /-- So does whatever is in front of something that does. -/
  before : ∀ {α β : Type} {m : ProxyM α} {k : α → ProxyM β},
    R α m → (∀ a, B β (k a)) → B β (m >>= k)
  /-- The answer may still be computed from what it returned. -/
  after : ∀ {α β : Type} {m : ProxyM α} (f : α → β), B α m → B β (m >>= fun a => Pure.pure (f a))
  /-- A session taken into the event, with the timer set right behind it. -/
  watch : ∀ {α : Type} {dispatch : Nat → ProxyM Unit} {session : Option SessionId}
    {k : Unit → ProxyM α}, R α (k ()) →
      R α (HaasProxy.call w dispatch (.eventAddSession session) >>= fun _ => idleTimerReset w >>= k)

/-- A property that does not depend on the pairs and the pools. -/
structure ComposedFreely (w : World) (R B : ∀ α : Type, ProxyM α → Prop) : Prop
    extends Composed w R B where
  /-- Any change that takes no time. -/
  change : ∀ {f : Proxy → Proxy}, (∀ s, Timeless s (f s)) → R Unit (HaasProxy.Traced.modify f)
  /-- Any change of a pair. -/
  changePair : ∀ p f, R Unit (HaasProxy.modifyPair p f)
  /-- A release is logged. -/
  release : ∀ p, R Unit (tell fun s => ⟨s, .release p, 0⟩)

/-- **How the callbacks on a channel are made**, by the table and the event.  Only a closed channel
leaves the idle timer alone, and a pair that has no context. -/
inductive OfTable (R B : ∀ α : Type, ProxyM α → Prop) :
    ChannelCallbacks → ChannelEvent → ProxyM Int → Prop
  /-- Of any table: the channel was closed. -/
  | close {table : ChannelCallbacks} {m : ProxyM Int} (closes : R Int m) :
      OfTable R B table .close m
  /-- Of a table of the session. -/
  | session {table : ChannelCallbacks} {event : ChannelEvent} {m : ProxyM Int}
      (other : event ≠ .close) (session : ∀ p, table ≠ .forwardChannelCB p) (resets : B Int m) :
      OfTable R B table event m
  /-- Of the table of the forwards, which looks up the pair first. -/
  | forward {event : ChannelEvent} {p : PairId} {a : Int} {k : FwPair → ProxyM Int}
      (other : event ≠ .close) (resets : ∀ pair, B Int (k pair)) :
      OfTable R B (.forwardChannelCB p) event
        (loadPair p >>= fun pair => if pair.context = none then pure a else k pair)

/-- A pair that is there is changed. -/
theorem run_modifyPair_cases (p : PairId) (f : FwPair → FwPair) (s : Proxy) :
    modifyPair p f s = ⟨[], s, .error (.fault .useAfterFree)⟩ ∨ ∃ pair, s.pairs.cell p = some pair ∧
      modifyPair p f s = ⟨[], { s with pairs := s.pairs.store p (f pair) }, .ok ()⟩ := by
  cases cell : s.pairs.cell p with
  | none => exact .inl (bind_of_error (run_loadPair_of_none cell))
  | some pair => exact .inr ⟨pair, rfl, run_modifyPair cell⟩

/-- `ProxyProcess` from the key exchange on. -/
def fromKeyExchange (w : World) (dispatch : Nat → ProxyM Unit) (fuel : Nat) : ProxyM Unit := do
  let s ← get
  let i ← call w dispatch (.handleKeyExchange s.context.trapSession)
  when (i = sshOk) do
    serve w dispatch fuel
  teardown w dispatch fuel

/-- `ProxyProcess` opens the pool of the session if the forward mode asks for one, and
goes on from the key exchange. The pool is the one thing that not every composed
property survives, so it is split off here. -/
theorem proxyProcess_eq (w : World) (dispatch : Nat → ProxyM Unit) (fuel : Nat) :
    proxyProcess w dispatch fuel =
      when (w.config.forwardMode ≠ some .deny ∧ w.config.forwardMode ≠ some .fake)
        (poolInit w >>= fun pool => modifyContext fun c => { c with forwardPool := pool }) >>=
      fun _ => fromKeyExchange w dispatch fuel := rfl

/-- Whether the property holds of the registration of a forward. -/
def RegistersForwards (w : World) (R : ∀ α : Type, ProxyM α → Prop)
    (dispatch : Nat → ProxyM Unit) : Prop :=
  ∀ originator originatorPort destination destinationPort src dst,
    R Bool (forwardRegister w dispatch originator originatorPort destination destinationPort src dst)

section Composed

variable {w : World} {R B : ∀ α : Type, ProxyM α → Prop} (c : Composed w R B)
  {dispatch : Nat → ProxyM Unit}

/-! ## Calls

A call is a tick, an entry, an effect, the callbacks, and another entry. -/

section Commands

variable {α : Type}

include c

/-- What is computed from the state alone composes: it reads and returns. -/
theorem composed_gets (f : Proxy → α) : R α (gets f) := c.bind c.get fun s => c.pure (f s)

omit c in
/-- A branch composes if both ways do; each may use what was tested. -/
theorem composed_ite {p : Prop} [Decidable p] {m m' : ProxyM α} (pos : p → R α m)
    (neg : ¬ p → R α m') : R α (if p then m else m') := by
  split
  · exact pos ‹p›
  · exact neg ‹¬ p›

/-- A statement under a condition, with nothing in the other branch. -/
theorem composed_when {p : Prop} [Decidable p] {m : ProxyM Unit} (first : p → R Unit m) :
    R Unit (when p m) := composed_ite first fun _ => c.pure ()

/-- A statement under the test for a NULL pointer; it may use that the pointer is the
one tested. -/
theorem composed_whenSome {o : Option α} {f : α → ProxyM Unit}
    (some_ : ∀ a, o = some a → R Unit (f a)) :
    R Unit (whenSome o f) := by
  cases o with
  | none => exact c.pure ()
  | some a => exact some_ a rfl

/-- A `for` over a list whose body composes. The induction is on the list, and no bound
is needed. -/
theorem composed_each {xs : List α} {body : α → ProxyM Unit} (first : ∀ a, R Unit (body a)) :
    R Unit (each xs body) := by
  induction xs with
  | nil => exact c.pure ()
  | cons x xs ih => exact c.bind (first x) fun _ => ih

/-- A loop, if the property holds of a program that gives up. -/
theorem composed_loop {β : Type} {body : α → ProxyM (α ⊕ β)} (givesUp : R β (stop .exhausted))
    (step : ∀ a, R (α ⊕ β) (body a)) (fuel : Nat) (a : α) :
    R β (loop .exhausted body fuel a) := by
  induction fuel generalizing a with
  | zero => exact givesUp
  | succ fuel ih =>
      apply c.bind (step a)
      intro next
      cases next with
      | inl a => exact ih a
      | inr b => exact c.pure b

/-- What may be an access to memory that is gone: a value is returned, a fault stops the
program. -/
theorem composed_orFault {x : Except Fault α} : R α (orFault x) := by
  cases x with
  | error fault => exact c.fault fault
  | ok a => exact c.pure a

/-- The context may be changed in any field but the idle timer and the pool of the
session. The callbacks set `Closed`, `Retries`, the sessions and the channels in this
way. -/
theorem composed_modifyContext {f : Context → Context}
    (keeps : ∀ c, (f c).idleTimer = c.idleTimer ∧ (f c).forwardPool = c.forwardPool) :
    R Unit (modifyContext f) :=
  c.modify fun s => ⟨⟨rfl, (keeps s.context).1⟩, rfl, rfl, (keeps s.context).2, fun _ _ => id⟩

/-- An allocation takes a tick and is logged, granted or not. -/
theorem composed_allocate {allocation : Allocation} : R Bool (allocate w allocation) := by
  apply c.bind c.nextTick
  intro t
  exact c.bind (c.alloc allocation _) fun _ => c.pure _

theorem composed_gettimeofday : R Timeval (gettimeofday w) :=
  c.bind c.nextTick fun t => c.pure (w.clock t)

/-- `TimerStart` reads the clock and adds the seconds; where the result goes is its
caller's affair. -/
theorem composed_timerStart {sec : Int} : R Timeval (timerStart w sec) :=
  c.bind (composed_gettimeofday c) fun _ => c.pure _

theorem composed_timerGet {timer : Timeval} : R Int (timerGet w timer) :=
  c.bind (composed_gettimeofday c) fun _ => c.pure _

/-- A callback sets the idle timer and returns. -/
theorem composed_idle (a : α) : B α (idleTimerReset w >>= fun _ => pure a) :=
  c.after (fun _ => a) c.reset

theorem composed_sshIsBlocking {session : Option SessionId} :
    R Bool (sshIsBlocking session) := composed_gets c _

/-- Setting the mode changes neither the time nor what the pairs are. -/
theorem composed_sshSetBlocking {session : Option SessionId} {blocking : Bool} :
    R Unit (sshSetBlocking session blocking) := by
  apply c.modify
  intro s
  cases session <;> exact ⟨⟨rfl, rfl⟩, rfl, rfl, rfl, .of_channels rfl⟩

end Commands

/-- A state without change forgets nothing and gains nothing. -/
theorem Forgets.refl (s : Proxy) : Forgets s s := .of_channels rfl

theorem Aside.refl (s : Proxy) : Aside s s := ⟨⟨rfl, rfl⟩, rfl, rfl, rfl, .refl s⟩

/-- A change to a channel takes no time, whatever it is: the channels are no part of the
context. -/
theorem timeless_updateChannel (s : Proxy) (ch : ChannelId) (f : Channel → Channel) :
    Timeless s (s.updateChannel ch f) := by
  unfold Proxy.updateChannel
  split <;> exact ⟨rfl, rfl⟩

/-- A channel is changed, and does not come to call back into a pair. -/
theorem aside_updateChannel (s : Proxy) (ch : ChannelId) (f : Channel → Channel)
    (forgets : Forgets s (s.updateChannel ch f)) : Aside s (s.updateChannel ch f) := by
  refine ⟨timeless_updateChannel s ch f, ?_, ?_, ?_, forgets⟩ <;>
    unfold Proxy.updateChannel <;> split <;> rfl

/-- What arrives on a channel is noted in its buffer. The channel keeps its table of
callbacks, so it calls back into no other pair than before. -/
theorem aside_arrive (s : Proxy) (ch : ChannelId) (event : ChannelEvent) :
    Aside s (s.updateChannel ch fun c => c.arrive event) :=
  aside_updateChannel s ch _ ((Forgets.refl s).arrive ch event)

/-- What a callback has taken from the buffer of its channel; the table stays. -/
theorem aside_consume (s : Proxy) (ch : ChannelId) (back : Int) (event : ChannelEvent) :
    Aside s (s.updateChannel ch fun c => c.consume back event) :=
  aside_updateChannel s ch _ ((Forgets.refl s).consume ch back event)

/-- A new channel has no table yet, hence calls back into no pair. -/
private theorem aside_obtain (s : Proxy) (session : SessionId) : Aside s (s.obtain session) :=
  ⟨⟨rfl, rfl⟩, rfl, rfl, rfl, (Forgets.refl s).obtain session⟩

private theorem aside_freeChannel (s : Proxy) (ch : ChannelId) : Aside s (s.freeChannel ch) :=
  ⟨⟨rfl, rfl⟩, rfl, rfl, rfl, (Forgets.refl s).freeChannel ch⟩

variable (hd : ∀ t, R Unit (dispatch t))

include c hd

/-- **A call** that is told of, and has an effect, as may be. -/
theorem composed_callWithEffect {a : Call} {effect : Int → Proxy → Proxy}
    (told : ∀ i, R Unit (tell fun s => ⟨s, .call a, i⟩))
    (does : ∀ i, R Unit (modify (effect i))) : R Int (callWith w dispatch a effect) := by
  apply c.bind c.nextTick
  intro t
  apply c.bind (told _)
  intro _
  apply c.bind (does _)
  intro _
  refine c.bind (composed_when c fun _ => ?_) fun _ => c.pure _
  exact c.bind (hd t) fun _ => c.returned a _

/-- **A call** that does nothing to pairs at once. -/
theorem composed_callWith {a : Call} {effect : Int → Proxy → Proxy}
    (told : ∀ i, R Unit (tell fun s => ⟨s, .call a, i⟩))
    (aside : ∀ i s, Aside s (effect i s)) : R Int (callWith w dispatch a effect) :=
  composed_callWithEffect c hd told fun i => c.modify fun s => aside i s

/-- A call of libssh that the proxy may make: it is logged, libssh runs the callbacks it
has to run, and the return is logged with its answer. What the callbacks do is the
assumption about `dispatch`. -/
theorem composed_call {a : Call} (makes : w.Makes a) : R Int (call w dispatch a) :=
  composed_callWith c hd (fun i => c.call a i makes) fun _ s => .refl s

/-- A call on a channel that may be NULL, which libssh answers with an error. -/
theorem composed_onChannel {ch : Option ChannelId} {a : ChannelId → Call}
    (makes : ∀ ch, w.Makes (a ch)) : R Int (onChannel w dispatch ch a) := by
  cases ch with
  | none => exact c.pure _
  | some ch => exact composed_call c hd (makes ch)

/-- `ssh_new()`, with the number of the new session as the only change. -/
theorem composed_sshNew : R (Option SessionId) (sshNew w dispatch) := by
  apply c.bind (composed_gets c _)
  intro id
  refine c.bind (composed_callWith c hd (fun i => c.call _ i ⟨by trivial, rfl⟩) ?_) fun _ =>
    c.pure _
  intro i s
  split <;> exact ⟨⟨rfl, rfl⟩, rfl, rfl, rfl, .of_channels rfl⟩

/-- `ssh_disconnect()` and `ssh_free()`; both are calls like any other. -/
theorem composed_sshDisconnectFree {session : SessionId} :
    R Unit (sshDisconnectFree w dispatch session) := by
  apply c.bind (composed_call c hd ⟨by trivial, rfl⟩)
  intro _
  exact c.bind (composed_call c hd ⟨by trivial, rfl⟩) fun _ => c.pure ()

/-- A call that yields a channel, if libssh answers with one. -/
theorem composed_obtainBy {a : Call} {session : SessionId} (makes : w.Makes a) :
    R (Option ChannelId) (obtainBy w dispatch a session) := by
  apply c.bind (composed_gets c _)
  intro ch
  refine c.bind (composed_callWith c hd (fun i => c.call a i makes) ?_) fun _ => c.pure _
  intro i s
  split
  · exact aside_obtain s session
  · exact .refl s

/-- `ssh_channel_new()` on a session, or NULL without one. -/
theorem composed_sshChannelNew {session : Option SessionId} :
    R (Option ChannelId) (sshChannelNew w dispatch session) := by
  cases session with
  | none => exact c.pure none
  | some id => exact composed_obtainBy c hd ⟨by trivial, rfl⟩

/-- Accepting the client's request for a channel. It is not among the calls that the
proxy makes in `DENY` mode, so the mode is an assumption here and is tested in
`forwardOpen`. -/
theorem composed_openReplyAccept (may : w.config.forwardMode ≠ some .deny) :
    R (Option ChannelId) (sshMessageChannelRequestOpenReplyAccept w dispatch) :=
  c.bind (composed_gets c _) fun _ => composed_obtainBy c hd ⟨by exact may, rfl⟩

/-- A table is registered, if the property holds of that. -/
theorem composed_setTable {ch : Option ChannelId} {cb : ChannelCallbacks}
    (sets : ∀ ch, R Unit (modify fun s =>
      s.updateChannel ch fun c => { c with callbacks := some cb })) :
    R Unit (sshSetChannelCallbacks w dispatch ch cb) := by
  apply composed_whenSome c
  intro ch _
  exact c.bind (composed_callWithEffect c hd (fun i => c.call _ i ⟨by trivial, rfl⟩)
    fun _ => sets ch) fun _ => c.pure ()

/-- The table of a session channel is registered. -/
theorem composed_sshSetChannelCallbacks {ch : Option ChannelId} {cb : ChannelCallbacks}
    (other : ∀ p, cb ≠ .forwardChannelCB p) : R Unit (sshSetChannelCallbacks w dispatch ch cb) :=
  composed_setTable c hd fun ch => c.modify fun s =>
    aside_updateChannel s ch _ ((Forgets.refl s).updateChannel ch fun _ p calls =>
      absurd (Option.some.inj calls) (other p))

/-- `ssh_channel_free()`: the call first, and then the channel is gone. -/
theorem composed_sshChannelFree {ch : Option ChannelId} :
    R Unit (sshChannelFree w dispatch ch) := by
  apply composed_whenSome c
  intro ch _
  refine c.bind (composed_callWith c hd (fun i => c.call _ i ⟨by trivial, rfl⟩) ?_) fun _ =>
    c.pure ()
  intro _ s
  exact aside_freeChannel s ch

/-- `ssh_channel_send_eof()`, which notes that it was sent. -/
theorem composed_sshChannelSendEof {ch : Option ChannelId} :
    R Int (sshChannelSendEof w dispatch ch) := by
  cases ch with
  | none => exact c.pure _
  | some ch =>
      have aside (i : Int) (s : Proxy) : Aside s (if i = sshOk then
          s.updateChannel ch fun c => { c with eofSent := true } else s) := by
        split
        · exact aside_updateChannel s ch _ ((Forgets.refl s).updateChannel ch fun _ _ => id)
        · exact .refl s
      exact composed_callWith c hd (fun i => c.call _ i ⟨by trivial, rfl⟩) aside

/-! ## Pairs and the pool -/

section Pool

omit hd

/-- Reading a pair, or the fault of reading one that was released. -/
theorem composed_loadPair {p : PairId} : R FwPair (loadPair p) :=
  c.bind c.get fun _ => composed_orFault c

/-- An end of a pair is changed, and the pair keeps its context. -/
theorem composed_modifyEndpoint {p : PairId} {e : End} {f : FwEndpoint → FwEndpoint} :
    R Unit (modifyEndpoint p e f) := by
  refine c.modifyPair p _ fun pair none => ?_
  cases e <;> exact none

/-- Reading a pool through a pointer that may be NULL. -/
theorem composed_loadPool {pool : Option PoolId} :
    R (Option (FwPool (Option PairId))) (loadPool pool) := by
  cases pool with
  | none => exact c.pure none
  | some id =>
      apply c.bind c.get
      intro s
      exact c.bind (composed_orFault c) fun _ => c.pure _

theorem composed_poolCount {pool : Option PoolId} : R Int (poolCount pool) :=
  c.bind (composed_loadPool c) fun _ => c.pure _

theorem composed_poolGet {pool : Option PoolId} {index : Int} :
    R (Option PairId) (poolGet pool index) := by
  apply c.bind (composed_loadPool c)
  intro contents
  exact c.bind (composed_orFault c) fun _ => c.pure _

/-- `FwPoolFindClosed` reads the pool and the pairs in it. -/
theorem composed_poolFindClosed {pool : Option PoolId} : R Int (poolFindClosed pool) := by
  apply c.bind (composed_loadPool c)
  intro contents
  exact c.bind c.get fun _ => composed_orFault c

end Pool

/-- `FwEndpointDone` closes and frees the channel of an endpoint and forgets it. It
writes into the pair, but never into its context, so it is a change of `modifyPair`'s
kind. -/
theorem composed_fwEndpointDone {p : PairId} {e : End} :
    R Unit (fwEndpointDone w dispatch p e) := by
  apply c.bind (composed_modifyEndpoint c)
  intro _
  apply c.bind (composed_loadPair c)
  intro pair
  apply composed_when c
  intro _
  apply c.bind (composed_onChannel c hd fun _ => ⟨by trivial, rfl⟩)
  intro isOpen
  refine c.bind (composed_when c fun _ => ?_) fun _ => ?_
  · exact c.bind (composed_onChannel c hd fun _ => ⟨by trivial, rfl⟩) fun _ => c.pure ()
  · apply c.bind (composed_loadPair c)
    intro pair
    exact c.bind (composed_sshChannelFree c hd) fun _ => composed_modifyEndpoint c

/-! ## `HandleForwards` -/

/-- One endpoint of a pair is polled, if it has a channel. -/
theorem composed_pollEndpoint {p : PairId} {e : End} : R Unit (pollEndpoint w dispatch p e) := by
  apply c.bind (composed_loadPair c)
  intro pair
  apply composed_when c
  intro _
  apply c.bind (composed_onChannel c hd fun _ => ⟨by trivial, rfl⟩)
  intro len
  exact composed_when c fun _ => c.modifyPair p _ fun _ => id

/-- Both endpoints of the pair in a slot are polled. -/
theorem composed_pollForward {i : Nat} : R Unit (pollForward w dispatch i) := by
  apply c.bind c.get
  intro s
  apply c.bind (composed_poolGet c)
  intro pair
  apply composed_whenSome c
  intro p _
  exact c.bind (composed_pollEndpoint c hd) fun _ => composed_pollEndpoint c hd

/-- `HandleForwards` polls every pair and then reaps the closed ones. What reaping does
to the pairs is left to whoever uses this, and so is what holds where the bound on the
loop is too small. -/
theorem composed_handleForwards (reaps : R (Unit ⊕ Unit) (reapForward w dispatch))
    (givesUp : R Unit (stop .exhausted)) {fuel : Nat} :
    R Unit (handleForwards w dispatch fuel) := by
  apply c.bind c.get
  intro s
  apply c.bind (composed_poolCount c)
  intro count
  apply composed_when c
  intro _
  apply c.bind (composed_each c fun _ => composed_pollForward c hd)
  intro _
  exact composed_loop c givesUp (fun _ => reaps) fuel ()

/-! ## Direct forwards

From the connection of a channel up to `TrapMessageCallback`. Registering a pair is the
one piece that is taken for granted. -/

/-- In `ALLOW` mode a channel to the destination is opened on the backend session, and
freed again if that fails. The mode is tested in front of `openForward`, which is what
`World.MayCall` asks. -/
theorem composed_forwardConnect {originator : CString} {originatorPort : Int}
    {destination : CString} {destinationPort : Int} :
    R (Option ChannelId × Bool)
      (forwardConnect w dispatch originator originatorPort destination destinationPort) := by
  refine composed_ite (fun _ => c.pure _) fun allow => ?_
  apply c.bind c.get
  intro s
  apply c.bind (composed_sshChannelNew c hd)
  intro dst
  cases dst with
  | none => exact c.pure _
  | some ch =>
      apply c.bind (composed_call c hd ⟨by exact not_not.mp allow, rfl⟩)
      intro i
      refine composed_ite (fun _ => ?_) fun _ => c.pure _
      exact c.bind (composed_sshChannelFree c hd) fun _ => c.pure _

/-- The ends of a pair are filled in, and its channels come to call back into it.  What is left
of `TrapMessageCallback` once the new pair has a context. -/
theorem composed_fillPair {p : PairId} {originator destination : CString}
    {originatorPort destinationPort : Int} {src dst : Option ChannelId}
    (sets : ∀ ch, R Unit (modify fun s =>
      s.updateChannel ch fun c => { c with callbacks := some (.forwardChannelCB p) })) :
    R Bool (do
      let strdup ← allocate w .strdup
      modifyEndpoint p .source fun _ =>
        { addr := if strdup then some originator else none
          port := originatorPort
          channel := src }
      modify fun s => { s with locals := src.elim s.locals s.locals.erase }
      let strdup ← allocate w .strdup
      modifyEndpoint p .destiny fun _ =>
        { addr := if strdup then some destination else none
          port := destinationPort
          channel := dst }
      modify fun s => { s with locals := dst.elim s.locals s.locals.erase }
      sshSetChannelCallbacks w dispatch src (.forwardChannelCB p)
      when (dst ≠ none) do
        sshSetChannelCallbacks w dispatch dst (.forwardChannelCB p)
      Pure.pure false) := by
  have locals (f : Proxy → List ChannelId) :
      R Unit (modify fun s : Proxy => { s with locals := f s }) :=
    c.modify fun _ => ⟨⟨rfl, rfl⟩, rfl, rfl, rfl, .of_channels rfl⟩
  apply c.bind (composed_allocate c)
  intro strdup
  apply c.bind (composed_modifyEndpoint c)
  intro _
  apply c.bind (locals _)
  intro _
  apply c.bind (composed_allocate c)
  intro strdup
  apply c.bind (composed_modifyEndpoint c)
  intro _
  apply c.bind (locals _)
  intro _
  apply c.bind (composed_setTable c hd sets)
  intro _
  exact c.bind (composed_when c fun _ => composed_setTable c hd sets) fun _ => c.pure false

/-- Both channels of a forward that could not be registered are closed and freed. -/
theorem composed_forwardClose {src dst : Option ChannelId} :
    R Unit (forwardClose w dispatch src dst) := by
  refine c.bind (composed_when c fun _ => ?_) fun _ => ?_
  · apply c.bind c.get
    intro s
    apply c.bind (composed_sshIsBlocking c)
    intro blocking
    apply c.bind (composed_sshSetBlocking c)
    intro _
    apply c.bind (composed_onChannel c hd fun _ => ⟨by trivial, rfl⟩)
    intro _
    apply c.bind (composed_sshChannelFree c hd)
    intro _
    exact c.bind c.get fun _ => composed_sshSetBlocking c
  · apply c.bind c.get
    intro s
    apply c.bind (composed_sshIsBlocking c)
    intro blocking
    apply c.bind (composed_sshSetBlocking c)
    intro _
    apply c.bind (composed_onChannel c hd fun _ => ⟨by rfl, rfl⟩)
    intro _
    apply c.bind (composed_onChannel c hd fun _ => ⟨by trivial, rfl⟩)
    intro _
    exact c.bind (composed_sshChannelFree c hd) fun _ => composed_sshSetBlocking c

/-- A request for a forward that the mode does not deny: the destination is connected,
the request accepted and the pair registered, or everything is closed. Registration is
the only step that makes a pair, and it is an assumption here. -/
theorem composed_forwardOpen (registers : RegistersForwards w R dispatch) {originator : CString}
    {originatorPort : Int}
    {destination : CString} {destinationPort : Int} :
    R Int (forwardOpen w dispatch originator originatorPort destination destinationPort) := by
  refine composed_ite (fun _ => c.pure _) fun notDeny => ?_
  apply c.bind (composed_forwardConnect c hd)
  intro connected
  apply c.bind (composed_ite (fun _ => composed_openReplyAccept c hd notDeny) fun _ => c.pure none)
  intro src
  apply c.bind (composed_ite (fun _ => c.pure true) fun _ => registers ..)
  intro close
  exact c.bind (composed_when c fun _ => composed_forwardClose c hd) fun _ => c.pure _

/-- `TrapMessageCallback` resets the idle timer last, whatever the message was. -/
theorem composed_trapMessageCallback (registers : RegistersForwards w R dispatch)
    {msg : Option Message} :
    B Int (trapMessageCallback w dispatch msg) := by
  refine c.before ?_ fun back => composed_idle c back
  split
  · exact composed_forwardOpen c hd registers
  · exact c.pure 1

/-! ## Logging in, and a session channel

`HaasConnect` goes through libssh from `ssh_new` on, and every way out of it either stores
the session or gives it back. -/

/-- `HaasAuthenticate` tries the password it is given. It is given the text that
`HaasConnect` has formed, which is why the credential stands in the statement. -/
theorem composed_haasAuthenticate {session : SessionId} {password haasToken : CString}
    (token : w.config.haasToken = some haasToken) :
    R Int (haasAuthenticate w dispatch session
      (Credential.pieces ⟨password, haasToken, w.sin⟩).flatten) := by
  apply c.bind (composed_call c hd ⟨by trivial, rfl⟩)
  intro ret
  refine composed_ite (fun _ => c.pure 0) fun _ => ?_
  apply c.bind (composed_call c hd ⟨by trivial, rfl⟩)
  intro method
  refine composed_ite (fun _ => c.pure 0) fun _ => ?_
  exact c.bind (composed_call c hd ⟨by exact ⟨password, haasToken, token, rfl⟩, rfl⟩) fun _ => c.pure _

/-- `HaasConnect` from `ssh_new` to the login. Each option it sets carries the value of
the configuration that `World.MayCall` names, the user only in the foreground. -/
theorem composed_haasConnect {user password : CString} :
    R Int (haasConnect w dispatch user password) := by
  apply c.bind (composed_sshNew c hd)
  intro session
  cases session with
  | none => exact c.pure 0
  | some session =>
      apply c.bind (composed_call c hd ⟨by rfl, rfl⟩)
      intro _
      apply c.bind (composed_call c hd ⟨by rfl, rfl⟩)
      intro _
      apply c.bind (composed_call c hd ⟨by rfl, rfl⟩)
      intro _
      apply c.bind (composed_when c fun foreground =>
        c.bind (composed_call c hd ⟨by exact foreground, rfl⟩) fun _ => c.pure ())
      intro _
      apply c.bind (composed_whenSome c fun level log =>
        c.bind (composed_call c hd ⟨by exact log, rfl⟩) fun _ => c.pure ())
      intro _
      apply c.bind (composed_call c hd ⟨by trivial, rfl⟩)
      intro i
      refine c.bind (composed_ite (fun _ => c.pure 0) fun _ => ?_) fun i => ?_
      · cases token : w.config.haasToken with
        | none => exact c.fault _
        | some haasToken => exact composed_haasAuthenticate c hd token
      · refine composed_ite (fun _ => ?_) fun _ => ?_
        · exact c.bind (composed_modifyContext c fun _ => by exact ⟨rfl, rfl⟩) fun _ => c.pure 1
        · exact c.bind (composed_sshDisconnectFree c hd) fun _ => c.pure 0

omit hd in
/-- A login that is denied without a look at it resets the idle timer. -/
theorem composed_trapAuthDenied : B Int (trapAuthDenied w) := composed_idle c _

/-- `TrapAuthPassword` connects to the backend, or counts a failure, and resets the idle
timer last. -/
theorem composed_trapAuthPassword {user password : CString} :
    B Int (trapAuthPassword w dispatch user password) := by
  apply c.before (composed_haasConnect c hd)
  intro i
  refine c.before (composed_ite (fun _ => ?_) fun _ => ?_) fun back => composed_idle c back
  · exact c.bind (composed_modifyContext c fun _ => by exact ⟨rfl, rfl⟩) fun _ => c.pure _
  · apply c.bind (composed_modifyContext c fun _ => by exact ⟨rfl, rfl⟩)
    intro _
    apply c.bind c.get
    intro s
    refine c.bind (composed_when c fun _ => ?_) fun _ => c.pure _
    exact c.bind (composed_call c hd ⟨by trivial, rfl⟩) fun _ =>
      composed_modifyContext c fun _ => by exact ⟨rfl, rfl⟩

/-- A backend channel that came to nothing is closed and freed. -/
theorem composed_closeUnused {session : Context → Option SessionId} {ch : ChannelId} :
    R Unit (closeUnused w dispatch session ch) := by
  apply c.bind c.get
  intro s
  apply c.bind (composed_sshIsBlocking c)
  intro blocking
  apply c.bind (composed_sshSetBlocking c)
  intro _
  apply c.bind (composed_call c hd ⟨by trivial, rfl⟩)
  intro _
  apply c.bind (composed_sshChannelFree c hd)
  intro _
  exact c.bind c.get fun _ => composed_sshSetBlocking c

/-- The backend's session channel is opened for the client's. -/
theorem composed_openBackend {trapChannel : ChannelId} :
    R Bool (openBackend w dispatch trapChannel) := by
  apply c.bind c.get
  intro s
  apply c.bind (composed_sshChannelNew c hd)
  intro haasChannel
  cases haasChannel with
  | none => exact c.pure false
  | some haasChannel =>
      apply c.bind (composed_call c hd ⟨by trivial, rfl⟩)
      intro i
      refine composed_ite (fun _ => ?_) fun _ => ?_
      · exact c.bind (composed_closeUnused c hd) fun _ => c.pure false
      · apply c.bind (composed_sshSetChannelCallbacks c hd (by simp))
        intro _
        apply c.bind (composed_sshSetChannelCallbacks c hd (by simp))
        intro _
        exact c.bind (c.modify fun _ => by exact ⟨⟨rfl, rfl⟩, rfl, rfl, rfl, .of_channels rfl⟩)
          fun _ => c.pure true

/-- `TrapNewChannel` ends by resetting the idle timer, with a channel or without. -/
theorem composed_trapNewChannel : B (Option ChannelId) (trapNewChannel w dispatch) := by
  apply c.before c.get
  intro s
  refine c.before (composed_when c fun _ => ?_) fun _ => ?_
  · apply c.bind (composed_sshChannelNew c hd)
    intro trapChannel
    apply composed_whenSome c
    intro trapChannel _
    apply c.bind (composed_openBackend c hd)
    intro kept
    exact composed_when c fun _ => composed_closeUnused c hd
  · apply c.before c.get
    intro s
    exact composed_idle c _

/-! ## `ProxyProcess`

The loops are composed of their turns, so a property of one turn that survives repetition
is one of the loop, for any fuel. -/

section Readings

omit hd

/-- A look at `ShouldStop` takes a tick, since a signal may have come. -/
theorem composed_readShouldStop : R Bool (readShouldStop w) := c.bind c.nextTick fun _ => c.pure _

/-- `CheckUsage` reads the resource usage if there is a limit. -/
theorem composed_checkUsage : R Bool (checkUsage w) :=
  composed_ite (fun _ => c.bind c.nextTick fun _ => c.pure _) fun _ => c.pure true

/-- The time to wait is computed from the timers and the clock. -/
theorem composed_waitTime : R (Option Int) (waitTime w) := by
  apply c.bind (c.bind c.get fun s => composed_timerGet c)
  intro time
  refine composed_ite (fun _ => c.pure none) fun _ => ?_
  refine composed_ite (fun _ => ?_) fun _ => c.pure _
  apply c.bind c.get
  intro s
  exact c.bind (composed_timerGet c) fun _ => c.pure _

/-- How far `ProxyProcess` is, which only proofs read. -/
theorem composed_enterStage {stage : Stage} : R Unit (enterStage stage) :=
  c.modify fun _ => by exact ⟨⟨rfl, rfl⟩, rfl, rfl, rfl, .of_channels rfl⟩

end Readings

/-- One round of the loop that waits for a login: the checks, `ssh_event_dopoll`, and
what its answer and the context say about going on. -/
theorem composed_waitLoginStep : R (Unit ⊕ Bool) (waitLoginStep w dispatch) := by
  apply c.bind (composed_readShouldStop c)
  intro shouldStop
  refine composed_ite (fun _ => c.pure _) fun _ => ?_
  apply c.bind (composed_checkUsage c)
  intro usage
  refine composed_ite (fun _ => c.pure _) fun _ => ?_
  apply c.bind (composed_waitTime c)
  intro time
  cases time with
  | none => exact c.pure _
  | some time =>
      apply c.bind (composed_call c hd ⟨by trivial, rfl⟩)
      intro ret
      refine composed_ite (fun _ => c.pure _) fun _ => ?_
      refine composed_ite (fun _ => c.pure _) fun _ => ?_
      apply c.bind c.get
      intro s
      refine composed_ite (fun _ => c.pure _) fun _ => ?_
      exact composed_ite (fun _ => c.pure _) fun _ => c.pure _

/-- One round of the relaying loop; `HandleForwards` in it is why reaping is an
assumption. -/
theorem composed_relayStep (reaps : R (Unit ⊕ Unit) (reapForward w dispatch))
    (givesUp : R Unit (stop .exhausted)) {fuel : Nat} :
    R (Unit ⊕ Unit) (relayStep w dispatch fuel) := by
  apply c.bind (composed_readShouldStop c)
  intro shouldStop
  refine composed_ite (fun _ => c.pure _) fun _ => ?_
  apply c.bind c.get
  intro s
  apply c.bind (composed_onChannel c hd fun _ => ⟨by trivial, rfl⟩)
  intro _
  apply c.bind c.get
  intro s
  apply c.bind (composed_onChannel c hd fun _ => ⟨by trivial, rfl⟩)
  intro _
  apply c.bind c.get
  intro s
  apply c.bind (composed_when c fun _ => composed_handleForwards c hd reaps givesUp)
  intro _
  apply c.bind c.get
  intro s
  apply c.bind (composed_call c hd ⟨by trivial, rfl⟩)
  intro _
  apply c.bind c.get
  intro s
  apply c.bind (composed_call c hd ⟨by trivial, rfl⟩)
  intro _
  apply c.bind (composed_waitTime c)
  intro time
  cases time with
  | none => exact c.pure _
  | some time =>
      apply c.bind (composed_call c hd ⟨by trivial, rfl⟩)
      intro ret
      refine composed_ite (fun _ => c.pure _) fun _ => ?_
      refine composed_ite (fun _ => c.pure _) fun _ => ?_
      exact c.bind c.get fun _ => c.pure _

/-- From the event to the end of the relaying loop. The sessions are taken into the
event in front of a reset of the idle timer, which is the one place where `watch` is
used. -/
theorem composed_serve (reaps : R (Unit ⊕ Unit) (reapForward w dispatch))
    (givesUp : ∀ α : Type, R α (stop .exhausted)) {fuel : Nat} :
    R Unit (serve w dispatch fuel) := by
  apply c.bind c.get
  intro s
  apply c.watch
  refine c.bind (composed_when c fun _ => ?_) fun _ => ?_
  · exact c.bind (composed_timerStart c) fun _ => composed_modifyContext c fun _ => by exact ⟨rfl, rfl⟩
  · apply c.bind (composed_enterStage c)
    intro _
    apply c.bind (composed_loop c (givesUp _) (fun _ => composed_waitLoginStep c hd) fuel ())
    intro error
    refine c.bind (composed_when c fun _ => ?_) fun _ => ?_
    · apply c.bind (composed_readShouldStop c)
      intro shouldStop
      apply c.bind c.get
      intro s
      apply composed_when c
      intro _
      apply c.watch
      apply c.bind (composed_enterStage c)
      intro _
      apply c.bind
        (composed_loop c (givesUp _) (fun _ => composed_relayStep c hd reaps (givesUp _)) fuel ())
      intro _
      apply c.bind c.get
      intro s
      exact c.bind (composed_call c hd ⟨by trivial, rfl⟩) fun _ => c.pure ()
    · apply c.bind c.get
      intro s
      exact c.bind (composed_call c hd ⟨by trivial, rfl⟩) fun _ => c.pure ()

/-- `SessionClose` closes a channel that is still open, frees it, and frees its session. -/
theorem composed_sessionClose {session : Option SessionId} {channel : Option ChannelId} :
    R Unit (sessionClose w dispatch session channel) := by
  refine c.bind (composed_when c fun _ => ?_) fun _ =>
    composed_whenSome c fun session _ => composed_sshDisconnectFree c hd
  apply c.bind (composed_onChannel c hd fun _ => ⟨by trivial, rfl⟩)
  intro isOpen
  refine c.bind (composed_when c fun _ => ?_) fun _ => composed_sshChannelFree c hd
  apply c.bind (composed_onChannel c hd fun _ => ⟨by trivial, rfl⟩)
  intro _
  apply c.bind (composed_sshChannelSendEof c hd)
  intro _
  exact c.bind (composed_onChannel c hd fun _ => ⟨by trivial, rfl⟩) fun _ => c.pure ()

/-- The end of `ProxyProcess`. It composes if draining the pool does: the sessions are
closed by `SessionClose` alone. -/
theorem composed_teardown {fuel : Nat} (drains : R Unit (get >>= fun s =>
      when (s.context.forwardPool ≠ none) (fwPoolDone w dispatch fuel s.context.forwardPool))) :
    R Unit (teardown w dispatch fuel) := by
  apply c.bind (composed_enterStage c)
  intro _
  rw [← bind_assoc]
  apply c.bind drains
  intro _
  apply c.bind c.get
  intro s
  apply c.bind (composed_sessionClose c hd)
  intro _
  exact c.bind c.get fun _ => composed_sessionClose c hd

/-- **`ProxyProcess`** from the key exchange on. -/
theorem composed_fromKeyExchange {fuel : Nat} (reaps : R (Unit ⊕ Unit) (reapForward w dispatch))
    (drains : R Unit (get >>= fun s =>
      when (s.context.forwardPool ≠ none) (fwPoolDone w dispatch fuel s.context.forwardPool)))
    (givesUp : ∀ α : Type, R α (stop .exhausted)) : R Unit (fromKeyExchange w dispatch fuel) := by
  apply c.bind c.get
  intro s
  apply c.bind (composed_call c hd ⟨by trivial, rfl⟩)
  intro i
  apply c.bind (composed_when c fun _ => composed_serve c hd reaps givesUp)
  intro _
  exact composed_teardown c hd drains

/-! ## Callbacks

A callback is an entry, a program, and another entry.  The programs of the table come
below. -/

/-- **A callback**: what is true of what happens on channels, and of callbacks that are
logged when the property holds of them, is true of it. -/
theorem composed_deliver (registers : RegistersForwards w R dispatch) {P : ProxyM Unit → Prop}
    (channel : ∀ ch event, P (deliverChannel w dispatch ch event))
    (logs : ∀ cb m, (∀ ch event, cb ≠ .channel ch event) → B Int m →
      P (logged cb m >>= fun _ => pure ())) (cb : Callback) : P (deliver w dispatch cb) := by
  cases cb with
  | authNone user => exact logs _ _ nofun (composed_trapAuthDenied c)
  | authPassword user password => exact logs _ _ nofun (composed_trapAuthPassword c hd)
  | authPubkey user signatureState => exact logs _ _ nofun (composed_trapAuthDenied c)
  | authGssapiMic user principal => exact logs _ _ nofun (composed_trapAuthDenied c)
  | serviceRequest service =>
      exact logs _ _ nofun (composed_idle c 0)
  | newChannel => exact logs _ _ nofun (c.after _ (composed_trapNewChannel c hd))
  | trapMessage msg => exact logs _ _ nofun (composed_trapMessageCallback c hd registers)
  | haasMessage msg => exact logs _ _ nofun (composed_idle c 1)
  | channel ch event => exact channel ch event

/-! ## Callbacks on a channel

They may make any call, so what is true of them has to be true of any call. -/

section Forward

omit c hd

/-- `ForwardChannelDataCallback`, for a pair that has a context. -/
def forwardData (w : World) (dispatch : Nat → ProxyM Unit) (session : SessionId) (ch : ChannelId)
    (isStderr : Bool) (data : List UInt8) (pair : FwPair) : ProxyM Int := do
  let s ← get
  let back ←
    (match w.config.forwardMode with
    | some .allow =>
        writeNonblocking w dispatch (fun _ => (pair.otherEnd ch s.context).2)
          (pair.otherEnd ch s.context).1 isStderr data
    | some .echo => writeNonblocking w dispatch (fun _ => some session) (some ch) isStderr data
    | some .null => pure data.length
    | _ => pure sshError)
  idleTimerReset w
  pure back

/-- `ForwardChannelEofCallback`, for a pair that has a context. -/
def forwardEof (w : World) (dispatch : Nat → ProxyM Unit) (ch : ChannelId) (pair : FwPair) :
    ProxyM Unit := do
  let s ← get
  when (w.config.forwardMode = some .allow) do
    let _ ← sshChannelSendEof w dispatch (pair.otherEnd ch s.context).1
  idleTimerReset w

/-- The data callback of a forward reads its pair and gives up if the pair has no
context; all else is `forwardData`. -/
private theorem forwardChannelDataCallback_eq {session : SessionId} {ch : ChannelId}
    {isStderr : Bool}
    {data : List UInt8} {p : PairId} :
    forwardChannelDataCallback w dispatch session ch isStderr data p = loadPair p >>= fun pair =>
      if pair.context = none then pure sshError
      else forwardData w dispatch session ch isStderr data pair := by
  unfold forwardChannelDataCallback
  congr 1
  funext pair
  cases pair.context <;> rfl

/-- The same for the end of the data, where giving up is answered like the rest. -/
private theorem forwardChannelEofCallback_eq {ch : ChannelId} {p : PairId} :
    answerless (forwardChannelEofCallback w dispatch ch p) = loadPair p >>= fun pair =>
      if pair.context = none then pure 0 else forwardEof w dispatch ch pair >>= fun _ => pure 0 := by
  unfold answerless forwardChannelEofCallback
  rw [bind_assoc]
  congr 1
  funext pair
  cases pair.context <;> rfl

end Forward

section OnChannels

variable (told : ∀ a i, a.watches = false → R Unit (tell fun s => ⟨s, .call a, i⟩))

include told

/-- What arrives on one channel is passed on to the other, if there is one, by a call
that watches nothing. -/
theorem composed_passOn {channel : Context → Option ChannelId} {a : ChannelId → Call}
    (other : ∀ ch, (a ch).watches = false) : R Bool (passOn w dispatch channel a) := by
  apply c.bind c.get
  intro s
  cases channel s.context with
  | none => exact c.pure false
  | some ch =>
    have asked := composed_callWith c hd (fun i => told _ i (other ch)) fun _ s => .refl s
    exact c.bind asked fun _ => c.pure _

/-- A request that is granted once. The grant is noted in the context, outside of the
idle timer and the pool, and the timer is reset last. -/
theorem composed_passOnOnce {granted : Context → Bool} {grant : Context → Context}
    {a : ChannelId → Call}
    (keeps : ∀ c, (grant c).idleTimer = c.idleTimer ∧ (grant c).forwardPool = c.forwardPool)
    (other : ∀ ch, (a ch).watches = false) : B Int (passOnOnce w dispatch granted grant a) := by
  apply c.before c.get
  intro s
  refine c.before (composed_when c fun _ => ?_) fun _ => ?_
  · exact c.bind (composed_passOn c hd told other) fun _ =>
      composed_when c fun _ => composed_modifyContext c keeps
  · exact c.before c.get fun s => composed_idle c _

theorem composed_passOnEach {a : ChannelId → Call} (other : ∀ ch, (a ch).watches = false) :
    B Int (passOnEach w dispatch a) :=
  c.before (composed_passOn c hd told other) fun _ => composed_idle c _

theorem composed_passNotice {channel : Context → Option ChannelId} {a : ChannelId → Call}
    (other : ∀ ch, (a ch).watches = false) : B Unit (passNotice w dispatch channel a) :=
  c.before (composed_passOn c hd told other) fun _ => c.reset

/-- The new size of the client's window is passed on if there is a terminal to resize. -/
theorem composed_trapChannelPtyWindowChange {width height pxwidth pwheight : Int} :
    B Int (trapChannelPtyWindowChange w dispatch width height pxwidth pwheight) := by
  apply c.before c.get
  intro s
  apply c.before (composed_ite (fun _ => composed_passOn c hd told fun _ => rfl) fun _ => c.pure false)
  intro ok
  exact composed_idle c _

theorem composed_sshChannelWrite {ch : Option ChannelId} {isStderr : Bool} {data : List UInt8} :
    R Int (sshChannelWrite w dispatch ch isStderr data) := by
  cases ch with
  | none => exact c.pure _
  | some ch =>
      apply c.bind (composed_gets c _)
      intro out
      refine c.bind (composed_callWith c hd (fun i => told _ i rfl) fun _ s => ?_) fun _ => c.pure _
      exact aside_updateChannel s ch _ ((Forgets.refl s).updateChannel ch fun _ _ => id)

/-- The session is made nonblocking for a write, and is set back to what it was. -/
theorem composed_writeNonblocking {session : Context → Option SessionId} {ch : Option ChannelId}
    {isStderr : Bool} {data : List UInt8} :
    R Int (writeNonblocking w dispatch session ch isStderr data) := by
  apply c.bind c.get
  intro s
  apply c.bind (composed_sshIsBlocking c)
  intro blocking
  apply c.bind (composed_sshSetBlocking c)
  intro _
  apply c.bind (composed_sshChannelWrite c hd told)
  intro back
  apply c.bind c.get
  intro s
  exact c.bind (composed_sshSetBlocking c) fun _ => c.pure _

/-- Data is relayed to the other channel, and the idle timer reset. -/
theorem composed_relayData {session : Context → Option SessionId}
    {channel : Context → Option ChannelId} {isStderr : Bool} {data : List UInt8} :
    B Int (relayData w dispatch session channel isStderr data) := by
  apply c.before c.get
  intro s
  refine c.before ?_ fun back => composed_idle c back
  cases channel s.context with
  | none => exact c.pure _
  | some ch => exact composed_writeNonblocking c hd told

omit told in
/-- The end of the data is relayed to the other channel, and the idle timer reset. -/
theorem composed_relayEof {channel : Context → Option ChannelId} :
    B Unit (relayEof w dispatch channel) := by
  apply c.before c.get
  intro s
  refine c.before (composed_whenSome c fun ch _ => ?_) fun _ => c.reset
  exact c.bind (composed_sshChannelSendEof c hd) fun _ => c.pure ()

/-- The data of a forward goes to the other end of its pair, and the idle timer is reset. -/
theorem composed_forwardData {session : SessionId} {ch : ChannelId} {isStderr : Bool}
    {data : List UInt8} (pair : FwPair) :
    B Int (forwardData w dispatch session ch isStderr data pair) := by
  apply c.before c.get
  intro s
  refine c.before ?_ fun back => composed_idle c back
  cases w.config.forwardMode with
  | none => exact c.pure _
  | some mode =>
      cases mode with
      | allow => exact composed_writeNonblocking c hd told
      | echo => exact composed_writeNonblocking c hd told
      | null => exact c.pure _
      | deny => exact c.pure _
      | fake => exact c.pure _

omit told in
/-- The end of the data of a forward, likewise; the pair remembers nothing of it. -/
theorem composed_forwardEof {ch : ChannelId} (pair : FwPair) :
    B Unit (forwardEof w dispatch ch pair) := by
  apply c.before c.get
  intro s
  refine c.before (composed_when c fun _ => ?_) fun _ => c.reset
  exact c.bind (composed_sshChannelSendEof c hd) fun _ => c.pure ()

/-- **What a table of channel callbacks has for an event**: the idle timer is set in the end,
but when the channel closes, and for a pair that has no context any more. -/
theorem composed_channelCallback {ch : ChannelId} {channel : Channel} {table : ChannelCallbacks}
    {event : ChannelEvent} {m : ProxyM Int}
    (callback : channelCallback w dispatch ch channel table event = some m) :
    OfTable R B table event m := by
  -- three bodies that several events share
  have notice {out : Context → Option ChannelId} {a : ChannelId → Call}
      (other : ∀ ch, (a ch).watches = false) : B Int (answerless (passNotice w dispatch out a)) :=
    c.after _ (composed_passNotice c hd told other)
  have eof {out : Context → Option ChannelId} : B Int (answerless (relayEof w dispatch out)) :=
    c.after _ (composed_relayEof c hd)
  have close : R Int (answerless (modifyContext fun c => { c with closed := true })) :=
    c.bind (composed_modifyContext c fun _ => by exact ⟨rfl, rfl⟩) fun _ => c.pure 0
  cases table with
  | trapChannelCB =>
      have session {event : ChannelEvent} {m : ProxyM Int} (other : event ≠ .close)
          (body : B Int m) : OfTable R B .trapChannelCB event m := .session other (by simp) body
      cases event with
      | ptyRequest =>
          cases callback
          exact session (by simp)
            (composed_passOnOnce c hd told (fun _ => by exact ⟨rfl, rfl⟩) fun _ => rfl)
      | ptyWindowChange =>
          cases callback
          exact session (by simp) (composed_trapChannelPtyWindowChange c hd told)
      | shellRequest =>
          cases callback
          exact session (by simp)
            (composed_passOnOnce c hd told (fun _ => by exact ⟨rfl, rfl⟩) fun _ => rfl)
      | execRequest | envRequest =>
          cases callback
          exact session (by simp) (composed_passOnEach c hd told fun _ => rfl)
      | subsystemRequest | authAgent | x11 =>
          cases callback
          exact session (by simp) (composed_idle c _)
      | signal | exitSignal | exitStatus =>
          cases callback
          exact session (by simp) (notice fun _ => rfl)
      | data =>
          cases callback
          exact session (by simp) (composed_relayData c hd told)
      | eof =>
          cases callback
          exact session (by simp) eof
      | close =>
          cases callback
          exact .close close
  | haasChannelCB =>
      have session {event : ChannelEvent} {m : ProxyM Int} (other : event ≠ .close)
          (body : B Int m) : OfTable R B .haasChannelCB event m := .session other (by simp) body
      cases event with
      | signal | exitSignal | exitStatus =>
          cases callback
          exact session (by simp) (notice fun _ => rfl)
      | data =>
          cases callback
          exact session (by simp) (composed_relayData c hd told)
      | eof =>
          cases callback
          exact session (by simp) eof
      | close =>
          cases callback
          exact .close close
      -- the table has nothing for these
      | _ => cases callback
  | forwardChannelCB p =>
      cases event with
      | data isStderr bytes =>
          cases callback
          rw [forwardChannelDataCallback_eq]
          exact .forward (by simp) (composed_forwardData c hd told)
      | eof =>
          cases callback
          rw [forwardChannelEofCallback_eq]
          exact .forward (by simp) fun pair => c.after (fun _ => 0) (composed_forwardEof c hd pair)
      | close =>
          cases callback
          exact .close (c.bind (c.modifyPair p _ fun _ => id) fun _ => c.pure 0)
      | _ => cases callback

/-- The same for a property of which it does not matter whether the timer is set. -/
theorem composed_channelCallback_weak (weak : ∀ {α : Type} {m : ProxyM α}, B α m → R α m)
    {ch : ChannelId} {channel : Channel} {table : ChannelCallbacks} {event : ChannelEvent}
    {m : ProxyM Int} (callback : channelCallback w dispatch ch channel table event = some m) :
    R Int m := by
  cases composed_channelCallback c hd told callback with
  | close closes => exact closes
  | session _ _ resets => exact weak resets
  | forward _ resets =>
      exact c.bind (composed_loadPair c) fun pair =>
        composed_ite (fun _ => c.pure _) fun _ => weak (resets pair)

/-- libssh delivers an event of a channel: it notes what arrived, runs the callback that
the channel's table names, and takes what that has consumed out of the buffer. -/
theorem composed_deliverChannel (weak : ∀ {α : Type} {m : ProxyM α}, B α m → R α m)
    (logs : ∀ ch event m, R Int m → R Int (logged (.channel ch event) m)) (ch : ChannelId)
    (event : ChannelEvent) : R Unit (deliverChannel w dispatch ch event) := by
  apply c.bind (c.modify fun s => aside_arrive s ch event)
  intro _
  apply c.bind c.get
  intro s
  cases s.channels.cell ch with
  | none => exact c.pure ()
  | some channel =>
      cases callback : channel.callbacks.bind fun table =>
          channelCallback w dispatch ch channel table event with
      | none =>
          simp only [callback]
          exact c.pure ()
      | some m =>
          simp only [callback]
          obtain ⟨table, -, callback⟩ := Option.bind_eq_some_iff.mp callback
          apply c.bind (logs ch event m (composed_channelCallback_weak c hd told weak callback))
          intro back
          exact c.modify fun s => aside_consume s ch back event

end OnChannels

omit hd in
/-- **The dispatcher**, for a property that holds of all calls and callbacks. -/
theorem composed_dispatchWithin
    (registers : ∀ dispatch, (∀ t, R Unit (dispatch t)) → RegistersForwards w R dispatch)
    (weak : ∀ {α : Type} {m : ProxyM α}, B α m → R α m)
    (told : ∀ a i, a.watches = false → R Unit (tell fun s => ⟨s, .call a, i⟩))
    (logs : ∀ cb m, R Int m → R Int (logged cb m)) (depth t : Nat) :
    R Unit (dispatchWithin w depth t) := by
  induction depth generalizing t with
  | zero => exact c.pure ()
  | succ depth ih =>
      apply composed_each c
      refine composed_deliver c ih (registers _ ih)
        (composed_deliverChannel c ih told weak fun _ _ => logs _) ?_
      intro cb m _ body
      exact c.bind (logs cb m (weak body)) fun _ => c.pure ()

end Composed

/-! ## Properties that do not depend on pairs and pools

If a property also holds of the commands that change a pair or a pool, the hypotheses on
the functions that do so are met. -/

section Freely

variable {w : World} {R B : ∀ α : Type, ProxyM α → Prop} (c : ComposedFreely w R B)
  {dispatch : Nat → ProxyM Unit}

include c

/-- `FwPairAlloc` makes a new pair, which a free property does not mind. -/
theorem freely_fwPairAlloc : R (Option PairId) (fwPairAlloc w) := by
  have basic := c.toComposed
  apply c.bind (composed_allocate basic)
  intro granted
  apply c.bind (composed_gets basic _)
  intro p
  refine c.bind (composed_when basic fun _ => c.change fun _ => ?_) fun _ => c.pure _
  exact ⟨rfl, rfl⟩

theorem freely_storePool {pool : Option PoolId} {contents : Option (FwPool (Option PairId))} :
    R Unit (storePool pool contents) := by
  cases pool with
  | none => exact c.pure ()
  | some id =>
      cases contents with
      | none => exact c.pure ()
      | some contents => exact c.change fun _ => by exact ⟨rfl, rfl⟩

theorem freely_poolInit : R (Option PoolId) (poolInit w) := by
  have basic := c.toComposed
  apply c.bind (composed_allocate basic)
  intro granted
  apply c.bind (composed_gets basic _)
  intro id
  cases fwPoolInit granted with
  | none => exact c.pure none
  | some contents => exact c.bind (c.change fun _ => by exact ⟨rfl, rfl⟩) fun _ => c.pure _

/-- The pool of the session is made and noted in the context. -/
theorem freely_opens :
    R Unit (poolInit w >>= fun pool => modifyContext fun c => { c with forwardPool := pool }) :=
  c.bind (freely_poolInit c) fun _ => c.change fun _ => by exact ⟨rfl, rfl⟩

theorem freely_poolAdd {pool : Option PoolId} {item : Option PairId} :
    R Int (poolAdd w pool item) := by
  have basic := c.toComposed
  apply c.bind (composed_loadPool basic)
  intro contents
  apply c.bind (composed_ite (fun _ => composed_allocate basic) fun _ => c.pure true)
  intro granted
  apply c.bind (composed_orFault basic)
  intro added
  exact c.bind (freely_storePool c) fun _ => c.pure _

theorem freely_poolRemove {pool : Option PoolId} {index : Int} :
    R Int (poolRemove pool index) := by
  have basic := c.toComposed
  apply c.bind (composed_loadPool basic)
  intro contents
  apply c.bind (composed_orFault basic)
  intro removed
  exact c.bind (freely_storePool c) fun _ => c.pure _

variable (hd : ∀ t, R Unit (dispatch t))

include hd

/-- `FwPairRelease` ends both endpoints and gives the pair back. -/
theorem freely_fwPairRelease {p : PairId} : R Unit (fwPairRelease w dispatch p) := by
  have basic := c.toComposed
  apply c.bind (c.release p)
  intro _
  apply c.bind (c.changePair p _)
  intro _
  apply c.bind (composed_fwEndpointDone basic hd)
  intro _
  exact c.bind (composed_fwEndpointDone basic hd) fun _ => c.change fun _ => by exact ⟨rfl, rfl⟩

/-- Registration allocates a pair, fills in both ends, hangs the callbacks on the
channels and adds the pair to the pool. This is the step that `forwardOpen` leaves open. -/
theorem freely_forwardRegister : RegistersForwards w R dispatch := by
  have basic := c.toComposed
  intro originator originatorPort destination destinationPort src dst
  apply c.bind (freely_fwPairAlloc c)
  intro pair
  apply c.bind c.get
  intro s
  apply c.bind (freely_poolAdd c)
  intro index
  refine composed_ite (fun _ => ?_) fun _ => ?_
  · cases pair with
    | none => exact c.fault _
    | some p =>
        have table (ch : ChannelId) : R Unit (HaasProxy.Traced.modify fun s =>
            s.updateChannel ch fun c => { c with callbacks := some (.forwardChannelCB p) }) :=
          c.change fun s => timeless_updateChannel s ch _
        exact c.bind (c.changePair p _) fun _ => composed_fillPair basic hd table
  · exact c.bind (composed_whenSome basic fun p _ => freely_fwPairRelease c hd) fun _ => c.pure true

/-- A turn of the loop that empties the pool: the item is read, released, and its slot
cleared. -/
theorem freely_poolDoneStep {id : PoolId} {i : Nat} :
    R (Nat ⊕ Unit) (poolDoneStep w dispatch id i) := by
  have basic := c.toComposed
  apply c.bind (composed_loadPool basic)
  intro pool
  cases pool with
  | none => exact c.pure _
  | some pool =>
      refine composed_ite (fun _ => ?_) fun _ => c.pure _
      apply c.bind (composed_orFault basic)
      intro item
      refine c.bind (composed_whenSome basic fun p _ => ?_) fun _ => c.pure _
      apply c.bind (freely_fwPairRelease c hd)
      intro _
      apply c.bind c.get
      intro s
      apply c.bind (composed_orFault basic)
      intro pool
      exact c.bind (composed_orFault basic) fun _ => freely_storePool c

/-- `FwPoolDone` releases one pair after the other and then the pool. -/
theorem freely_fwPoolDone (givesUp : R Unit (stop .exhausted)) {fuel : Nat}
    {pool : Option PoolId} : R Unit (fwPoolDone w dispatch fuel pool) := by
  have basic := c.toComposed
  cases pool with
  | none => exact c.pure ()
  | some id =>
      apply c.bind c.get
      intro s
      apply c.bind (composed_orFault basic)
      intro contents
      refine c.bind (composed_when basic fun _ => ?_) fun _ => c.change fun _ => by exact ⟨rfl, rfl⟩
      exact composed_loop basic givesUp (fun _ => freely_poolDoneStep c hd) fuel 0

/-- A closed pair is taken out of the pool and released. -/
theorem freely_reapForward : R (Unit ⊕ Unit) (reapForward w dispatch) := by
  have basic := c.toComposed
  apply c.bind c.get
  intro s
  apply c.bind (composed_poolFindClosed basic)
  intro index
  refine composed_ite (fun _ => c.pure _) fun _ => ?_
  apply c.bind (composed_poolGet basic)
  intro pair
  apply c.bind (freely_poolRemove c)
  intro _
  refine c.bind (composed_whenSome basic fun p _ => ?_) fun _ => c.pure _
  apply c.bind (c.change fun _ => by exact ⟨rfl, rfl⟩)
  intro _
  exact c.bind (freely_fwPairRelease c hd) fun _ => c.change fun _ => by exact ⟨rfl, rfl⟩

/-- **`ProxyProcess`**, over a dispatcher that the property holds of. -/
theorem freely_proxyProcess (givesUp : ∀ α : Type, R α (stop .exhausted)) {fuel : Nat} :
    R Unit (proxyProcess w dispatch fuel) := by
  have basic := c.toComposed
  rw [proxyProcess_eq]
  apply c.bind (composed_when basic fun _ => freely_opens c)
  intro _
  refine composed_fromKeyExchange basic hd (freely_reapForward c hd) ?_ givesUp
  exact c.bind c.get fun _ => composed_when basic fun _ => freely_fwPoolDone c hd (givesUp _)

end Freely

end HaasProxy
