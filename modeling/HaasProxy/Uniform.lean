import HaasProxy.Process
import HaasProxy.Transitions.Handling
import HaasProxy.Lib.Related

/-!
# What the proxy is built of

The callbacks and `ProxyProcess` as programs over a dispatcher, for every
`Congruence`: they are related when the dispatchers are, in a world and in the same
one in another running mode.  The three pieces that are not built of plain ones are
taken for granted here: a login, a session channel, and the callback itself.

`Related` collects what a congruence needs for them, and `related_proxyProcess` is the
result.

## Main definitions and results

* `World.withMode` — the world in another running mode;
* `Quiet` — what nearly all functions leave as it is;
* `Uniform` — a congruence for programs of the proxy;
* `Related` — what is taken for granted;
* `related_callWith`, `related_deliver`, `related_dispatchWithin`, `related_proxyProcess` — a
  call, a callback, callbacks nested to any depth, and `ProxyProcess`.

## Design notes

**One pass over the program for several theorems.**  A property that relates two runs, or one
run with itself, and that goes through sequences and calls, does not need to know what the
functions of the proxy do.  It needs that they are put together from pieces it can
handle.  This file takes the program apart once, for an arbitrary property of that kind.
What uses it:

* `RunningMode.lean`: two runs are the same;
* `BlockingModes.lean`: a program restores the flags of the sessions;
* `HalfClose.lean`: data is written as soon as it arrives;
* `SessionChannels.lean`: requests for a channel are balanced.

**Two programs, or one.**  `R` relates a program with its counterpart in the other mode.  Where
the property is about a single program both are the same, in the same mode, and `R` says
something of the first.

**What a function may do on the way.**  Its own changes of the state are to be ones that `K`
allows, and its own entries ones that `P` allows.  `Quiet` is what nearly all of them
satisfy: they leave the sessions, their channels and their modes alone.  What does not,
is what `Related` asks for.

**The lemmas follow the source.**  There is one for each function, in the order of
`Forward.lean`, `Callbacks.lean` and `Process.lean`, and its proof has the function's
shape: a `bind` for each statement, a case for each branch.
-/

namespace HaasProxy

open Traced

/-- The world in another running mode. -/
def World.withMode (w : World) (foreground : Bool) (debugLevel : Int) : World :=
  { w with config := { w.config with foreground := foreground, debugLevel := debugLevel } }

/-- The sessions and their channels. -/
def Context.sessions (c : Context) :
    SessionId × Option ChannelId × Option SessionId × Option ChannelId :=
  (c.trapSession, c.trapChannel, c.haasSession, c.haasChannel)

/-- A session that is known as long as the context has the same sessions. -/
def OfSessions (session : Context → Option SessionId) : Prop :=
  ∀ c c' : Context, c'.trapSession = c.trapSession → c'.haasSession = c.haasSession →
    session c' = session c

theorem ofSessions_haasSession : OfSessions fun c => c.haasSession := fun _ _ _ same => same

theorem ofSessions_trapSession : OfSessions fun c => some c.trapSession := fun _ _ same _ =>
  congrArg some same

/-- A session that is known outright, and not looked up, is the same in any context. -/
theorem ofSessions_const (session : Option SessionId) : OfSessions fun _ => session :=
  fun _ _ _ _ => rfl

/-- What nearly all functions leave as it is: the sessions and their channels, and
whether the sessions block. -/
structure Quiet (s t : Proxy) : Prop where
  sessions : t.context.sessions = s.context.sessions
  blocking : t.blocking = s.blocking

theorem Quiet.refl (s : Proxy) : Quiet s s := ⟨rfl, rfl⟩

/-- Data is written to a channel. -/
def Call.isWrite : Call → Bool
  | write .. => true
  | _ => false

/-- What is not logged of everything: callbacks, and data that is written. -/
def Interaction.isSpecial : Interaction → Bool
  | enter _ | leave _ => true
  | call c => c.isWrite
  | _ => false

/-- A stretch in which a session does not block. -/
def nonblocking {α : Type} (session : Context → Option SessionId) (m : ProxyM α) : ProxyM α := do
  let s ← get
  let blocking ← sshIsBlocking (session s.context)
  sshSetBlocking (session s.context) false
  let a ← m
  let s ← get
  sshSetBlocking (session s.context) blocking
  pure a

/-- A congruence for programs of the proxy: whatever is quiet is plain, and a session that
does not block for a while makes no difference. -/
structure Uniform (P : Proxy → Entry → Prop) (K : Proxy → Proxy → Prop)
    (R : ∀ α : Type, ProxyM α → ProxyM α → Prop) : Prop extends Congruence P K R where
  /-- A change that leaves the sessions and their modes alone is one that `K` allows. -/
  still : ∀ s t, Quiet s t → K s t
  /-- An entry that is not special may be logged as it is. -/
  usual : ∀ e : Entry, e.action.isSpecial = false → P e.before e
  /-- Related programs are related also while a session does not block. -/
  nonblocking : ∀ {α : Type} {m m' : ProxyM α} {session : Context → Option SessionId},
    OfSessions session → R α m m' → R α (nonblocking session m) (nonblocking session m')

section Uniform

variable {P : Proxy → Entry → Prop} {K : Proxy → Proxy → Prop}
  {R : ∀ α : Type, ProxyM α → ProxyM α → Prop} (u : Uniform P K R) {w : World}
  {foreground : Bool} {debugLevel : Int} {dispatch dispatch' : Nat → ProxyM Unit}

/-! ## Calls

A call is an entry, an effect, and the callbacks it delivers, which are related by
assumption. -/

section Plain

include u

/-- A quiet change is related to itself, for every congruence of this kind. -/
theorem related_still {f : Proxy → Proxy} (quiet : ∀ s, Quiet s (f s)) :
    R Unit (modify f) (modify f) := u.modify fun s => u.still s (f s) (quiet s)

/-- What is logged on both sides is the same entry but for the state in front of it, so
it has to be one of those that nobody looks into. -/
theorem related_tell {action : Interaction} {answer : Int} (usual : action.isSpecial = false) :
    R Unit (tell fun s => ⟨s, action, answer⟩) (tell fun s => ⟨s, action, answer⟩) :=
  u.tell fun s => u.usual ⟨s, action, answer⟩ usual

/-- Time goes on by one on both sides; the sessions do not notice. -/
theorem related_nextTick : R Nat nextTick nextTick := by
  apply u.bind (u.gets _)
  intro t
  refine u.bind (related_still u ?_) fun _ => u.pure t
  intro s
  exact ⟨rfl, rfl⟩

/-- A change of the context that leaves the sessions and their channels alone is quiet. -/
theorem related_modifyContext {f : Context → Context} (keeps : ∀ c, (f c).sessions = c.sessions) :
    R Unit (modifyContext f) (modifyContext f) :=
  related_still u fun s => ⟨keeps s.context, rfl⟩

/-- Both sides stop at the same fault, or go on with the same value. -/
theorem related_orFault {α : Type} {x : Except Fault α} : R α (orFault x) (orFault x) :=
  u.ofExcept _

/-- An allocation is granted by the tick alone, which both sides share. -/
theorem related_allocate {allocation : Allocation} :
    R Bool (allocate w allocation) (allocate w allocation) := by
  apply u.bind (related_nextTick u)
  intro t
  apply u.bind (related_tell u rfl)
  intro _
  exact u.pure _

/-- The clock is read at the same tick on both sides, and is the same clock in either
mode. -/
theorem related_gettimeofday : R Timeval (gettimeofday w) (gettimeofday w) := by
  apply u.bind (related_nextTick u)
  intro t
  exact u.pure _

theorem related_timerStart {sec : Int} : R Timeval (timerStart w sec) (timerStart w sec) := by
  apply u.bind (related_gettimeofday u)
  intro now
  exact u.pure _

/-- And so does `TimerGet`, besides the timer it is asked about. -/
theorem related_timerGet {timer : Timeval} : R Int (timerGet w timer) (timerGet w timer) := by
  apply u.bind (related_gettimeofday u)
  intro now
  exact u.pure _

/-- The idle timer is part of the context, but not of the sessions. -/
theorem related_idleTimerReset : R Unit (idleTimerReset w) (idleTimerReset w) := by
  apply u.bind (related_timerStart u)
  intro timer
  exact related_modifyContext u fun _ => rfl

end Plain

/-- Whatever is done to the record of a channel is quiet: which channels the sessions
have is noted in the context. -/
theorem quiet_updateChannel (s : Proxy) (ch : ChannelId) (f : Channel → Channel) :
    Quiet s (s.updateChannel ch f) := by
  unfold Proxy.updateChannel
  split
  · exact .refl s
  · exact ⟨rfl, rfl⟩

variable (hd : ∀ t, R Unit (dispatch t) (dispatch' t))

include u hd

/-- **A call.** -/
theorem related_callWith {c : Call} {effect : Int → Proxy → Proxy} (other : c.isWrite = false)
    (quiet : ∀ i s, Quiet s (effect i s)) :
    R Int (callWith w dispatch c effect)
      (callWith (w.withMode foreground debugLevel) dispatch' c effect) := by
  apply u.bind (related_nextTick u)
  intro t
  refine u.bind (related_tell u other) fun _ => ?_
  apply u.bind (related_still u fun s => quiet _ s)
  intro _
  refine u.bind (u.when ?_) fun _ => u.pure _
  apply u.bind (hd t)
  intro _
  exact related_tell u rfl

/-- A call of libssh that writes no data. Its answer is taken from the world by the
tick, hence is the same on both sides; the callbacks it runs are related by assumption. -/
theorem related_call {c : Call} (other : c.isWrite = false) :
    R Int (call w dispatch c) (call (w.withMode foreground debugLevel) dispatch' c) :=
  related_callWith u hd other fun _ s => .refl s

theorem related_onChannel {ch : Option ChannelId} {c : ChannelId → Call}
    (other : ∀ ch, (c ch).isWrite = false) :
    R Int (onChannel w dispatch ch c)
      (onChannel (w.withMode foreground debugLevel) dispatch' ch c) := by
  cases ch with
  | none => exact u.pure _
  | some ch => exact related_call u hd (other ch)

/-- A call that yields a channel: the new channel has the same number on both sides. -/
theorem related_obtainBy {c : Call} {session : SessionId} (other : c.isWrite = false) :
    R (Option ChannelId) (obtainBy w dispatch c session)
      (obtainBy (w.withMode foreground debugLevel) dispatch' c session) := by
  apply u.bind (u.gets _)
  intro ch
  refine u.bind (related_callWith u hd other fun i s => ?_) fun _ => u.pure _
  split
  · exact ⟨rfl, rfl⟩
  · exact .refl s

theorem related_sshChannelNew {session : Option SessionId} :
    R (Option ChannelId) (sshChannelNew w dispatch session)
      (sshChannelNew (w.withMode foreground debugLevel) dispatch' session) := by
  cases session with
  | none => exact u.pure _
  | some id => exact related_obtainBy u hd rfl

/-- Accepting a request of the client for a channel. -/
theorem related_openReplyAccept :
    R (Option ChannelId) (sshMessageChannelRequestOpenReplyAccept w dispatch)
      (sshMessageChannelRequestOpenReplyAccept (w.withMode foreground debugLevel) dispatch') := by
  apply u.bind (u.gets _)
  intro session
  exact related_obtainBy u hd rfl

/-- Which callbacks a channel has is part of its record. -/
theorem related_sshSetChannelCallbacks {ch : Option ChannelId} {cb : ChannelCallbacks} :
    R Unit (sshSetChannelCallbacks w dispatch ch cb)
      (sshSetChannelCallbacks (w.withMode foreground debugLevel) dispatch' ch cb) := by
  apply u.whenSome
  intro ch
  exact u.bind (related_callWith u hd rfl fun _ s => quiet_updateChannel s ch _) fun _ => u.pure ()

/-- `ssh_channel_free()`; the fault of a second one happens on both sides or on none. -/
theorem related_sshChannelFree {ch : Option ChannelId} :
    R Unit (sshChannelFree w dispatch ch)
      (sshChannelFree (w.withMode foreground debugLevel) dispatch' ch) := by
  apply u.whenSome
  intro ch
  exact u.bind (related_callWith u hd rfl fun _ s => ⟨rfl, rfl⟩) fun _ => u.pure ()

theorem related_sshChannelSendEof {ch : Option ChannelId} :
    R Int (sshChannelSendEof w dispatch ch)
      (sshChannelSendEof (w.withMode foreground debugLevel) dispatch' ch) := by
  cases ch with
  | none => exact u.pure _
  | some ch =>
      have keeps (i : Int) (s : Proxy) : Quiet s ((Call.sendEof ch).effect i s) := by
        unfold Call.effect
        dsimp only
        split
        · exact quiet_updateChannel s ch _
        · exact .refl s
      exact related_callWith u hd rfl keeps

/-! ## Pairs and the pool

Pairs and pools are no sessions, so a piece that only changes these is quiet. -/

omit hd in
theorem related_loadPair {p : PairId} : R FwPair (loadPair p) (loadPair p) := by
  apply u.bind u.get
  intro s
  exact related_orFault u

omit hd in
/-- The pairs are no part of what the sessions are, so any change to one is quiet. -/
theorem related_modifyPair {p : PairId} {f : FwPair → FwPair} :
    R Unit (modifyPair p f) (modifyPair p f) := by
  apply u.bind (related_loadPair u)
  intro pair
  exact related_still u fun s => ⟨rfl, rfl⟩

/-- `FwEndpointDone`, by the endpoint's channel and then its address. -/
theorem related_fwEndpointDone {p : PairId} {e : End} :
    R Unit (fwEndpointDone w dispatch p e)
      (fwEndpointDone (w.withMode foreground debugLevel) dispatch' p e) := by
  apply u.bind (related_modifyPair u)
  intro _
  apply u.bind (related_loadPair u)
  intro pair
  apply u.when
  apply u.bind (related_onChannel u hd fun _ => rfl)
  intro isOpen
  refine u.bind (u.when ?_) fun _ => ?_
  · exact u.bind (related_onChannel u hd fun _ => rfl) fun _ => u.pure ()
  · apply u.bind (related_loadPair u)
    intro pair
    apply u.bind (related_sshChannelFree u hd)
    intro _
    exact related_modifyPair u

/-- `FwPairRelease` ends both endpoints and gives the pair back. -/
theorem related_fwPairRelease {p : PairId} :
    R Unit (fwPairRelease w dispatch p)
      (fwPairRelease (w.withMode foreground debugLevel) dispatch' p) := by
  apply u.bind (related_tell u rfl)
  intro _
  apply u.bind (related_modifyPair u)
  intro _
  apply u.bind (related_fwEndpointDone u hd)
  intro _
  apply u.bind (related_fwEndpointDone u hd)
  intro _
  exact related_still u fun s => ⟨rfl, rfl⟩

omit hd in
/-- `FwPairAlloc`: both sides are granted the memory or both are not. -/
theorem related_fwPairAlloc : R (Option PairId) (fwPairAlloc w) (fwPairAlloc w) := by
  apply u.bind (related_allocate u)
  intro granted
  apply u.bind (u.gets _)
  intro p
  refine u.bind (u.when (related_still u ?_)) fun _ => u.pure _
  intro s
  exact ⟨rfl, rfl⟩

omit hd in
theorem related_loadPool {pool : Option PoolId} :
    R (Option (FwPool (Option PairId))) (loadPool pool) (loadPool pool) := by
  cases pool with
  | none => exact u.pure none
  | some id =>
      apply u.bind u.get
      intro s
      exact u.bind (related_orFault u) fun _ => u.pure _

omit hd in
theorem related_storePool {pool : Option PoolId} {contents : Option (FwPool (Option PairId))} :
    R Unit (storePool pool contents) (storePool pool contents) := by
  cases pool with
  | none => exact u.pure ()
  | some id =>
      cases contents with
      | none => exact u.pure ()
      | some contents => exact related_still u fun s => ⟨rfl, rfl⟩

omit hd in
theorem related_poolInit : R (Option PoolId) (poolInit w) (poolInit w) := by
  apply u.bind (related_allocate u)
  intro granted
  apply u.bind (u.gets _)
  intro id
  cases fwPoolInit granted with
  | none => exact u.pure none
  | some contents =>
      refine u.bind (related_still u ?_) fun _ => u.pure _
      intro s
      exact ⟨rfl, rfl⟩

omit hd in
theorem related_poolGet {pool : Option PoolId} {index : Int} :
    R (Option PairId) (poolGet pool index) (poolGet pool index) := by
  apply u.bind (related_loadPool u)
  intro contents
  exact u.bind (related_orFault u) fun _ => u.pure _

omit hd in
/-- `FwPoolAdd`, whose `realloc` is granted by the tick. -/
theorem related_poolAdd {pool : Option PoolId} {item : Option PairId} :
    R Int (poolAdd w pool item) (poolAdd w pool item) := by
  apply u.bind (related_loadPool u)
  intro contents
  apply u.bind (related_ite (related_allocate u) (u.pure true))
  intro granted
  apply u.bind (related_orFault u)
  intro added
  exact u.bind (related_storePool u) fun _ => u.pure _

omit hd in
theorem related_poolRemove {pool : Option PoolId} {index : Int} :
    R Int (poolRemove pool index) (poolRemove pool index) := by
  apply u.bind (related_loadPool u)
  intro contents
  apply u.bind (related_orFault u)
  intro removed
  exact u.bind (related_storePool u) fun _ => u.pure _

omit hd in
/-- `FwPoolFindClosed` reads the pairs of the pool, which are the same on both sides. -/
theorem related_poolFindClosed {pool : Option PoolId} :
    R Int (poolFindClosed pool) (poolFindClosed pool) := by
  apply u.bind (related_loadPool u)
  intro contents
  apply u.bind u.get
  intro s
  exact related_orFault u

/-- A turn of the loop that empties the pool is the same turn in both worlds. -/
theorem related_poolDoneStep {id : PoolId} {i : Nat} :
    R (Nat ⊕ Unit) (poolDoneStep w dispatch id i)
      (poolDoneStep (w.withMode foreground debugLevel) dispatch' id i) := by
  apply u.bind (related_loadPool u)
  intro pool
  cases pool with
  | none => exact u.pure _
  | some pool =>
      apply related_ite
      · apply u.bind (related_orFault u)
        intro item
        refine u.bind (u.whenSome fun p => ?_) fun _ => u.pure _
        apply u.bind (related_fwPairRelease u hd)
        intro _
        apply u.bind u.get
        intro s
        apply u.bind (related_orFault u)
        intro pool
        apply u.bind (related_orFault u)
        intro pool
        exact related_storePool u
      · exact u.pure _

/-- `FwPoolDone`: the rounds are related, and so are the loops. -/
theorem related_fwPoolDone {fuel : Nat} {pool : Option PoolId} :
    R Unit (fwPoolDone w dispatch fuel pool)
      (fwPoolDone (w.withMode foreground debugLevel) dispatch' fuel pool) := by
  cases pool with
  | none => exact u.pure ()
  | some id =>
      apply u.bind u.get
      intro s
      apply u.bind (related_orFault u)
      intro contents
      refine u.bind (u.when (u.loop (fun i => related_poolDoneStep u hd) fuel 0)) fun _ => ?_
      exact related_still u fun s => ⟨rfl, rfl⟩

/-! ## `HandleForwards` -/

theorem related_pollEndpoint {p : PairId} {e : End} :
    R Unit (pollEndpoint w dispatch p e)
      (pollEndpoint (w.withMode foreground debugLevel) dispatch' p e) := by
  apply u.bind (related_loadPair u)
  intro pair
  apply u.when
  apply u.bind (related_onChannel u hd fun _ => rfl)
  intro len
  exact u.when (related_modifyPair u)

/-- Both endpoints of the pair in a slot are polled. -/
theorem related_pollForward {i : Nat} :
    R Unit (pollForward w dispatch i)
      (pollForward (w.withMode foreground debugLevel) dispatch' i) := by
  apply u.bind u.get
  intro s
  apply u.bind (related_poolGet u)
  intro pair
  apply u.whenSome
  intro p
  exact u.bind (related_pollEndpoint u hd) fun _ => related_pollEndpoint u hd

/-- One round of reaping: the pair is found, taken out and released. -/
theorem related_reapForward :
    R (Unit ⊕ Unit) (reapForward w dispatch)
      (reapForward (w.withMode foreground debugLevel) dispatch') := by
  apply u.bind u.get
  intro s
  apply u.bind (related_poolFindClosed u)
  intro index
  apply related_ite
  · exact u.pure _
  · apply u.bind (related_poolGet u)
    intro pair
    apply u.bind (related_poolRemove u)
    intro _
    refine u.bind (u.whenSome fun p => ?_) fun _ => u.pure _
    refine u.bind (related_still u ?_) fun _ => ?_
    · intro s
      exact ⟨rfl, rfl⟩
    · apply u.bind (related_fwPairRelease u hd)
      intro _
      exact related_still u fun s => ⟨rfl, rfl⟩

theorem related_handleForwards {fuel : Nat} :
    R Unit (handleForwards w dispatch fuel)
      (handleForwards (w.withMode foreground debugLevel) dispatch' fuel) := by
  apply u.bind u.get
  intro s
  apply u.bind (u.bind (related_loadPool u) fun contents => u.pure _)
  intro count
  apply u.when
  apply u.bind (u.each fun i => related_pollForward u hd)
  intro _
  exact u.loop (fun _ => related_reapForward u hd) fuel ()

/-! ## Direct forwards

Which of the functions below are called depends on the forwarding mode, which is the same
in both worlds. -/

/-- The connection to the destination of a forward. The mode of forwarding is tested,
which is not the running mode. -/
theorem related_forwardConnect {originator : CString} {originatorPort : Int}
    {destination : CString} {destinationPort : Int} :
    R (Option ChannelId × Bool)
      (forwardConnect w dispatch originator originatorPort destination destinationPort)
      (forwardConnect (w.withMode foreground debugLevel) dispatch' originator originatorPort
        destination destinationPort) := by
  apply related_ite
  · exact u.pure _
  · apply u.bind u.get
    intro s
    apply u.bind (related_sshChannelNew u hd)
    intro dst
    cases dst with
    | none => exact u.pure _
    | some ch =>
        apply u.bind (related_call u hd rfl)
        intro i
        apply related_ite
        · exact u.bind (related_sshChannelFree u hd) fun _ => u.pure _
        · exact u.pure _

omit hd in
theorem related_modifyLocals {f : Proxy → List ChannelId} :
    R Unit (Traced.modify fun s => { s with locals := f s })
      (Traced.modify fun s => { s with locals := f s }) :=
  related_still u fun _ => ⟨rfl, rfl⟩

/-- The registration of a forward, with its three ways out: no pair, no place in the
pool, and the forward that works. -/
theorem related_forwardRegister {originator : CString} {originatorPort : Int}
    {destination : CString} {destinationPort : Int} {src dst : Option ChannelId} :
    R Bool (forwardRegister w dispatch originator originatorPort destination destinationPort src dst)
      (forwardRegister (w.withMode foreground debugLevel) dispatch' originator originatorPort
        destination destinationPort src dst) := by
  apply u.bind (related_fwPairAlloc u)
  intro pair
  apply u.bind u.get
  intro s
  apply u.bind (related_poolAdd u)
  intro index
  apply related_ite
  · cases pair with
    | none => exact u.stop _
    | some p =>
        apply u.bind (related_modifyPair u)
        intro _
        apply u.bind (related_allocate u)
        intro strdup
        apply u.bind (related_modifyPair u)
        intro _
        apply u.bind (related_modifyLocals u)
        intro _
        apply u.bind (related_allocate u)
        intro strdup
        apply u.bind (related_modifyPair u)
        intro _
        apply u.bind (related_modifyLocals u)
        intro _
        apply u.bind (related_sshSetChannelCallbacks u hd)
        intro _
        apply u.bind (u.when (related_sshSetChannelCallbacks u hd))
        intro _
        exact u.pure false
  · exact u.bind (u.whenSome fun p => related_fwPairRelease u hd) fun _ => u.pure true

omit u hd in
/-- `forwardClose` is two stretches in which a session does not block, each around
closing and freeing one channel. -/
theorem forwardClose_eq {src dst : Option ChannelId} : forwardClose w dispatch src dst = (do
    when (dst ≠ none) (nonblocking (fun c => c.haasSession) do
      let _ ← onChannel w dispatch dst .close
      sshChannelFree w dispatch dst)
    let s ← get
    nonblocking (fun _ => some s.context.trapSession) do
      let _ ← onChannel w dispatch src fun ch => .requestSendExitStatus ch econnrefused
      let _ ← onChannel w dispatch src .close
      sshChannelFree w dispatch src) := by
  simp only [forwardClose, nonblocking, bind_assoc, bind_pure_unit, get_bind_const]

/-- So it is related to itself, whatever becomes of the blocking. -/
theorem related_forwardClose {src dst : Option ChannelId} :
    R Unit (forwardClose w dispatch src dst)
      (forwardClose (w.withMode foreground debugLevel) dispatch' src dst) := by
  rw [forwardClose_eq, forwardClose_eq]
  refine u.bind (u.when ?_) fun _ => u.bind u.get fun s => ?_
  · apply u.nonblocking ofSessions_haasSession
    exact u.bind (related_onChannel u hd fun _ => rfl) fun _ => related_sshChannelFree u hd
  · apply u.nonblocking (ofSessions_const _)
    apply u.bind (related_onChannel u hd fun _ => rfl)
    intro _
    exact u.bind (related_onChannel u hd fun _ => rfl) fun _ => related_sshChannelFree u hd

/-- A request for a forward, from the connection to the registration. -/
theorem related_forwardOpen {originator : CString} {originatorPort : Int}
    {destination : CString} {destinationPort : Int} :
    R Int (forwardOpen w dispatch originator originatorPort destination destinationPort)
      (forwardOpen (w.withMode foreground debugLevel) dispatch' originator originatorPort
        destination destinationPort) := by
  apply related_ite
  · exact u.pure _
  · apply u.bind (related_forwardConnect u hd)
    intro connected
    apply u.bind (related_ite (related_openReplyAccept u hd) (u.pure none))
    intro src
    apply u.bind (related_ite (u.pure true) (related_forwardRegister u hd))
    intro close
    exact u.bind (u.when (related_forwardClose u hd)) fun _ => u.pure _

/-- `TrapMessageCallback`, by the message and the mode of forwarding. -/
theorem related_trapMessageCallback {msg : Option Message} :
    R Int (trapMessageCallback w dispatch msg)
      (trapMessageCallback (w.withMode foreground debugLevel) dispatch' msg) := by
  refine u.bind ?_ fun back => u.bind (related_idleTimerReset u) fun _ => u.pure back
  split
  · exact related_forwardOpen u hd
  · exact u.pure 1

/-! ## What is passed on

Requests and data of a session, and of a forward, each while the other session does not
block. -/

/-- A request is passed on to the backend's channel, if there is one. -/
theorem related_passOn {channel : Context → Option ChannelId} {c : ChannelId → Call}
    (other : ∀ ch, (c ch).isWrite = false) :
    R Bool (passOn w dispatch channel c)
      (passOn (w.withMode foreground debugLevel) dispatch' channel c) := by
  apply u.bind u.get
  intro s
  cases channel s.context with
  | none => exact u.pure false
  | some ch => exact u.bind (related_call u hd (other ch)) fun _ => u.pure _

/-- So is a request that is granted once: the flag that notes it is no session and no
name. -/
theorem related_passOnOnce {granted : Context → Bool} {grant : Context → Context}
    {c : ChannelId → Call} (other : ∀ ch, (c ch).isWrite = false)
    (keeps : ∀ c, (grant c).sessions = c.sessions) :
    R Int (passOnOnce w dispatch granted grant c)
      (passOnOnce (w.withMode foreground debugLevel) dispatch' granted grant c) := by
  apply u.bind u.get
  intro s
  refine u.bind (u.when ?_) fun _ => ?_
  · apply u.bind (related_passOn u hd other)
    intro ok
    exact u.when (related_modifyContext u keeps)
  · apply u.bind u.get
    intro s
    exact u.bind (related_idleTimerReset u) fun _ => u.pure _

theorem related_passOnEach {c : ChannelId → Call} (other : ∀ ch, (c ch).isWrite = false) :
    R Int (passOnEach w dispatch c)
      (passOnEach (w.withMode foreground debugLevel) dispatch' c) := by
  apply u.bind (related_passOn u hd other)
  intro ok
  exact u.bind (related_idleTimerReset u) fun _ => u.pure _

theorem related_passNotice {channel : Context → Option ChannelId} {c : ChannelId → Call}
    (other : ∀ ch, (c ch).isWrite = false) :
    R Unit (passNotice w dispatch channel c)
      (passNotice (w.withMode foreground debugLevel) dispatch' channel c) := by
  apply u.bind (related_passOn u hd other)
  intro _
  exact related_idleTimerReset u

/-- The size of the window is passed on when there is a terminal. -/
theorem related_trapChannelPtyWindowChange {width height pxwidth pwheight : Int} :
    R Int (trapChannelPtyWindowChange w dispatch width height pxwidth pwheight)
      (trapChannelPtyWindowChange (w.withMode foreground debugLevel) dispatch' width height pxwidth
        pwheight) := by
  apply u.bind u.get
  intro s
  apply u.bind (related_ite (related_passOn u hd fun _ => rfl) (u.pure false))
  intro ok
  exact u.bind (related_idleTimerReset u) fun _ => u.pure _

omit hd in
/-- Data is relayed by a write, which is taken for granted: what a congruence makes of a
stretch without blocking around a write differs from case to case. -/
theorem related_relayData (write : ∀ session channel isStderr data,
      R Int (writeNonblocking w dispatch session channel isStderr data)
        (writeNonblocking (w.withMode foreground debugLevel) dispatch' session channel isStderr data))
    {session : Context → Option SessionId}
    {channel : Context → Option ChannelId} {isStderr : Bool} {data : List UInt8} :
    R Int (relayData w dispatch session channel isStderr data)
      (relayData (w.withMode foreground debugLevel) dispatch' session channel isStderr data) := by
  apply u.bind u.get
  intro s
  refine u.bind ?_ fun back => u.bind (related_idleTimerReset u) fun _ => u.pure back
  cases channel s.context with
  | none => exact u.pure sshError
  | some ch => exact write _ _ _ _

theorem related_relayEof {channel : Context → Option ChannelId} :
    R Unit (relayEof w dispatch channel)
      (relayEof (w.withMode foreground debugLevel) dispatch' channel) := by
  apply u.bind u.get
  intro s
  refine u.bind (u.whenSome fun ch => ?_) fun _ => related_idleTimerReset u
  exact u.bind (related_sshChannelSendEof u hd) fun _ => u.pure ()

omit hd in
/-- The data of a forward is written to the other end of its pair, under the same
assumption about writes. -/
theorem related_forwardChannelDataCallback (write : ∀ session channel isStderr data,
      R Int (writeNonblocking w dispatch session channel isStderr data)
        (writeNonblocking (w.withMode foreground debugLevel) dispatch' session channel isStderr data))
    {session : SessionId} {ch : ChannelId}
    {isStderr : Bool} {data : List UInt8} {p : PairId} :
    R Int (forwardChannelDataCallback w dispatch session ch isStderr data p)
      (forwardChannelDataCallback (w.withMode foreground debugLevel) dispatch' session ch isStderr
        data p) := by
  apply u.bind (related_loadPair u)
  intro pair
  cases pair.context with
  | none => exact u.pure sshError
  | some reference =>
      apply u.bind u.get
      intro s
      refine u.bind ?_ fun back => u.bind (related_idleTimerReset u) fun _ => u.pure back
      have same : (w.withMode foreground debugLevel).config.forwardMode = w.config.forwardMode := rfl
      rw [same]
      cases w.config.forwardMode with
      | none => exact u.pure sshError
      | some mode =>
          cases mode with
          | allow => exact write _ _ _ _
          | echo => exact write _ _ _ _
          | null => exact u.pure _
          | deny => exact u.pure sshError
          | fake => exact u.pure sshError

theorem related_forwardChannelEofCallback {ch : ChannelId} {p : PairId} :
    R Unit (forwardChannelEofCallback w dispatch ch p)
      (forwardChannelEofCallback (w.withMode foreground debugLevel) dispatch' ch p) := by
  apply u.bind (related_loadPair u)
  intro pair
  cases pair.context with
  | none => exact u.pure ()
  | some reference =>
      apply u.bind u.get
      intro s
      refine u.bind (u.when ?_) fun _ => related_idleTimerReset u
      exact u.bind (related_sshChannelSendEof u hd) fun _ => u.pure ()

omit u hd in
/-- A channel that came to nothing is closed and freed in a stretch without blocking. -/
theorem closeUnused_eq {session : Context → Option SessionId} {ch : ChannelId} :
    closeUnused w dispatch session ch = nonblocking session (do
      let _ ← call w dispatch (.close ch)
      sshChannelFree w dispatch (some ch)) := by
  simp only [closeUnused, nonblocking, bind_assoc, bind_pure_unit]

theorem related_closeUnused {session : Context → Option SessionId} {ch : ChannelId}
    (same : OfSessions session) :
    R Unit (closeUnused w dispatch session ch)
      (closeUnused (w.withMode foreground debugLevel) dispatch' session ch) := by
  rw [closeUnused_eq, closeUnused_eq]
  apply u.nonblocking same
  exact u.bind (related_call u hd rfl) fun _ => related_sshChannelFree u hd

/-- The channels of a request go to the context. -/
def Proxy.adopt (s : Proxy) (trapChannel haasChannel : ChannelId) : Proxy :=
  { s with
    context := { s.context with
      trapChannel := some trapChannel
      haasChannel := some haasChannel }
    locals := (s.locals.erase trapChannel).erase haasChannel }

/-- A session channel, if what goes to the context is related to itself. -/
theorem related_openBackend {trapChannel : ChannelId}
    (adopt : ∀ trapChannel haasChannel : ChannelId,
      R Unit (Traced.modify fun s => s.adopt trapChannel haasChannel)
        (Traced.modify fun s => s.adopt trapChannel haasChannel)) :
    R Bool (openBackend w dispatch trapChannel)
      (openBackend (w.withMode foreground debugLevel) dispatch' trapChannel) := by
  apply u.bind u.get
  intro s
  apply u.bind (related_sshChannelNew u hd)
  intro haasChannel
  cases haasChannel with
  | none => exact u.pure false
  | some haasChannel =>
      apply u.bind (related_call u hd rfl)
      intro i
      apply related_ite
      · exact u.bind (related_closeUnused u hd ofSessions_haasSession) fun _ => u.pure false
      · apply u.bind (related_sshSetChannelCallbacks u hd)
        intro _
        apply u.bind (related_sshSetChannelCallbacks u hd)
        intro _
        exact u.bind (adopt trapChannel haasChannel) fun _ => u.pure true

/-- `TrapNewChannel`, apart from the moment at which both channels become the session's.
That step changes the sessions, so it is not quiet, and is an assumption. -/
theorem related_trapNewChannel
    (adopt : ∀ trapChannel haasChannel : ChannelId,
      R Unit (Traced.modify fun s => s.adopt trapChannel haasChannel)
        (Traced.modify fun s => s.adopt trapChannel haasChannel)) :
    R (Option ChannelId) (trapNewChannel w dispatch)
      (trapNewChannel (w.withMode foreground debugLevel) dispatch') := by
  apply u.bind u.get
  intro s
  refine u.bind (u.when ?_) fun _ => ?_
  · apply u.bind (related_sshChannelNew u hd)
    intro trapChannel
    apply u.whenSome
    intro trapChannel
    apply u.bind (related_openBackend u hd adopt)
    intro kept
    exact u.when (related_closeUnused u hd ofSessions_trapSession)
  · apply u.bind u.get
    intro s
    exact u.bind (related_idleTimerReset u) fun _ => u.pure _

/-! ## A password

Where the running mode matters: `HaasConnect` sets the user's name in foreground mode
only. It is therefore taken for granted, for each property by itself. -/

/-- `ssh_new()`; the next session has the same number on both sides. -/
theorem related_sshNew :
    R (Option SessionId) (sshNew w dispatch)
      (sshNew (w.withMode foreground debugLevel) dispatch') := by
  apply u.bind (u.gets _)
  intro id
  refine u.bind (related_callWith u hd rfl fun i s => ?_) fun _ => u.pure _
  split
  · exact ⟨rfl, rfl⟩
  · exact .refl s

theorem related_sshDisconnectFree {session : SessionId} :
    R Unit (sshDisconnectFree w dispatch session)
      (sshDisconnectFree (w.withMode foreground debugLevel) dispatch' session) := by
  apply u.bind (related_call u hd rfl)
  intro _
  exact u.bind (related_call u hd rfl) fun _ => u.pure ()

theorem related_haasAuthenticate {session : SessionId} {password : List UInt8} :
    R Int (haasAuthenticate w dispatch session password)
      (haasAuthenticate (w.withMode foreground debugLevel) dispatch' session password) := by
  apply u.bind (related_call u hd rfl)
  intro ret
  apply related_ite (u.pure 0)
  apply u.bind (related_call u hd rfl)
  intro method
  apply related_ite (u.pure 0)
  exact u.bind (related_call u hd rfl) fun _ => u.pure _

/-- A login in the same running mode, if a new session is related to itself. -/
theorem related_haasConnect (same : foreground = w.config.foreground)
    (accept : ∀ session, R Unit (modifyContext fun c => { c with haasSession := some session })
      (modifyContext fun c => { c with haasSession := some session })) {user password : CString} :
    R Int (haasConnect w dispatch user password)
      (haasConnect (w.withMode foreground debugLevel) dispatch' user password) := by
  subst same
  apply u.bind (related_sshNew u hd)
  intro session
  cases session with
  | none => exact u.pure 0
  | some session =>
      apply u.bind (related_call u hd rfl)
      intro _
      apply u.bind (related_call u hd rfl)
      intro _
      apply u.bind (related_call u hd rfl)
      intro _
      apply u.bind (u.when (u.bind (related_call u hd rfl) fun _ => u.pure ()))
      intro _
      apply u.bind (u.whenSome fun level => u.bind (related_call u hd rfl) fun _ => u.pure ())
      intro _
      apply u.bind (related_call u hd rfl)
      intro i
      refine u.bind (related_ite (u.pure 0) ?_) fun i => ?_
      · have token : (w.withMode w.config.foreground debugLevel).config.haasToken =
          w.config.haasToken := rfl
        rw [token]
        cases w.config.haasToken with
        | none => exact u.stop _
        | some haasToken => exact related_haasAuthenticate u hd
      · apply related_ite
        · exact u.bind (accept session) fun _ => u.pure 1
        · exact u.bind (related_sshDisconnectFree u hd) fun _ => u.pure 0

/-- `TrapAuthPassword` around a login, which is an assumption: this is where the running
mode is read. -/
theorem related_trapAuthPassword {user password : CString}
    (login : R Int (haasConnect w dispatch user password)
      (haasConnect (w.withMode foreground debugLevel) dispatch' user password)) :
    R Int (trapAuthPassword w dispatch user password)
      (trapAuthPassword (w.withMode foreground debugLevel) dispatch' user password) := by
  apply u.bind login
  intro i
  refine u.bind (related_ite ?_ ?_) fun back => u.bind (related_idleTimerReset u) fun _ => u.pure back
  · exact u.bind (related_modifyContext u fun _ => rfl) fun _ => u.pure _
  · refine u.bind (related_modifyContext u ?_) fun _ => u.bind u.get fun s => ?_
    · intro c
      rfl
    refine u.bind (u.when ?_) fun _ => u.pure _
    apply u.bind (related_call u hd rfl)
    intro _
    exact related_modifyContext u fun _ => rfl

end Uniform

/-! ## Callbacks

Requests for a session channel and data are taken for granted, as logins are. All other
callbacks are taken apart here. -/

/-- Neither a request for a session channel, nor data. -/
def Callback.isUsual : Callback → Bool
  | newChannel | channel _ (.data ..) => false
  | _ => true

/-- What a congruence is to relate by itself: logins, requests for a session channel,
data, and what is logged of any other callback. -/
structure Related (R : ∀ α : Type, ProxyM α → ProxyM α → Prop) (w : World) (foreground : Bool)
    (debugLevel : Int) (dispatch dispatch' : Nat → ProxyM Unit) : Prop where
  /-- The callbacks libssh makes meanwhile. -/
  nested : ∀ t, R Unit (dispatch t) (dispatch' t)
  /-- `HaasConnect`. -/
  login : ∀ user password, R Int (haasConnect w dispatch user password)
    (haasConnect (w.withMode foreground debugLevel) dispatch' user password)
  /-- A write while the session does not block. -/
  write : ∀ session channel isStderr data,
    R Int (writeNonblocking w dispatch session channel isStderr data)
      (writeNonblocking (w.withMode foreground debugLevel) dispatch' session channel isStderr data)
  /-- `TrapNewChannel`. -/
  newChannel : R Unit (deliver w dispatch .newChannel)
    (deliver (w.withMode foreground debugLevel) dispatch' .newChannel)
  /-- The data callbacks. -/
  data : ∀ ch isStderr bytes, R Unit (deliverChannel w dispatch ch (.data isStderr bytes))
    (deliverChannel (w.withMode foreground debugLevel) dispatch' ch (.data isStderr bytes))
  /-- What is logged where any other callback is entered and left. -/
  logged : ∀ cb m m', cb.isUsual = true → R Int m m' → R Int (logged cb m) (logged cb m')

section Callbacks

variable {P : Proxy → Entry → Prop} {K : Proxy → Proxy → Prop}
  {R : ∀ α : Type, ProxyM α → ProxyM α → Prop} (u : Uniform P K R) {w : World}
  {foreground : Bool} {debugLevel : Int} {dispatch dispatch' : Nat → ProxyM Unit}
  (hd : ∀ t, R Unit (dispatch t) (dispatch' t))
  (write : ∀ session channel isStderr data,
    R Int (writeNonblocking w dispatch session channel isStderr data)
      (writeNonblocking (w.withMode foreground debugLevel) dispatch' session channel isStderr data))
  (r : Related R w foreground debugLevel dispatch dispatch')

include u

theorem related_answerless {m m' : ProxyM Unit} (first : R Unit m m') :
    R Int (answerless m) (answerless m') := u.bind first fun _ => u.pure 0

include hd write

/-- A table has related functions for an event, or none in both worlds. -/
theorem related_channelCallback {ch : ChannelId} {c : Channel} {table : ChannelCallbacks}
    {event : ChannelEvent} :
    Option.Rel (R Int) (channelCallback w dispatch ch c table event)
      (channelCallback (w.withMode foreground debugLevel) dispatch' ch c table event) := by
  cases table with
  | trapChannelCB =>
      cases event with
      | ptyRequest => exact .some (related_passOnOnce u hd (fun _ => rfl) fun _ => rfl)
      | ptyWindowChange => exact .some (related_trapChannelPtyWindowChange u hd)
      | shellRequest => exact .some (related_passOnOnce u hd (fun _ => rfl) fun _ => rfl)
      | execRequest => exact .some (related_passOnEach u hd fun _ => rfl)
      | envRequest => exact .some (related_passOnEach u hd fun _ => rfl)
      | subsystemRequest => exact .some (u.bind (related_idleTimerReset u) fun _ => u.pure _)
      | authAgent => exact .some (related_answerless u (related_idleTimerReset u))
      | x11 => exact .some (related_answerless u (related_idleTimerReset u))
      | signal => exact .some (related_answerless u (related_passNotice u hd fun _ => rfl))
      | exitSignal => exact .some (related_answerless u (related_passNotice u hd fun _ => rfl))
      | exitStatus => exact .some (related_answerless u (related_passNotice u hd fun _ => rfl))
      | data => exact .some (related_relayData u write)
      | eof => exact .some (related_answerless u (related_relayEof u hd))
      | close =>
          exact .some (related_answerless u (related_modifyContext u fun _ => rfl))
  | haasChannelCB =>
      cases event with
      | signal => exact .some (related_answerless u (related_passNotice u hd fun _ => rfl))
      | exitSignal => exact .some (related_answerless u (related_passNotice u hd fun _ => rfl))
      | exitStatus => exact .some (related_answerless u (related_passNotice u hd fun _ => rfl))
      | data => exact .some (related_relayData u write)
      | eof => exact .some (related_answerless u (related_relayEof u hd))
      | close =>
          exact .some (related_answerless u (related_modifyContext u fun _ => rfl))
      | _ => exact .none
  | forwardChannelCB p =>
      cases event with
      | data => exact .some (related_forwardChannelDataCallback u write)
      | eof => exact .some (related_answerless u (related_forwardChannelEofCallback u hd))
      | close => exact .some (related_answerless u (related_modifyPair u))
      | _ => exact .none

omit hd write in
theorem related_updateChannel {ch : ChannelId} {f : Channel → Channel} :
    R Unit (Traced.modify fun s => s.updateChannel ch f)
      (Traced.modify fun s => s.updateChannel ch f) :=
  related_still u fun s => quiet_updateChannel s ch f

/-- Something happens on a channel, if what is logged of that is related. -/
theorem related_deliverChannel {ch : ChannelId} {event : ChannelEvent}
    (logs : ∀ m m', R Int m m' → R Int (logged (.channel ch event) m)
      (logged (.channel ch event) m')) :
    R Unit (deliverChannel w dispatch ch event)
      (deliverChannel (w.withMode foreground debugLevel) dispatch' ch event) := by
  apply u.bind (related_updateChannel u)
  intro _
  apply u.bind u.get
  intro s
  cases s.channels.cell ch with
  | none => exact u.pure ()
  | some c =>
      cases callbacks : c.callbacks with
      | none =>
          simp only [callbacks, Option.bind_none]
          exact u.pure ()
      | some table =>
          simp only [callbacks, Option.bind_some]
          have both : Option.Rel (R Int) (channelCallback w dispatch ch c table event)
              (channelCallback (w.withMode foreground debugLevel) dispatch' ch c table event) :=
            related_channelCallback u hd write
          generalize channelCallback w dispatch ch c table event = m at both ⊢
          generalize channelCallback (w.withMode foreground debugLevel) dispatch' ch c table event =
            m' at both ⊢
          cases both with
          | none => exact u.pure ()
          | some first =>
              apply u.bind (logs _ _ first)
              intro back
              exact related_updateChannel u

include r

omit hd write in
/-- **A callback.** -/
theorem related_deliver {cb : Callback} :
    R Unit (deliver w dispatch cb) (deliver (w.withMode foreground debugLevel) dispatch' cb) := by
  have denied : R Int (trapAuthDenied w) (trapAuthDenied w) :=
    u.bind (related_idleTimerReset u) fun _ => u.pure _
  have logged {cb : Callback} {m m' : ProxyM Int} (usual : cb.isUsual = true) (first : R Int m m') :
      R Unit (logged cb m >>= fun _ => pure ()) (logged cb m' >>= fun _ => pure ()) :=
    u.bind (r.logged cb m m' usual first) fun _ => u.pure ()
  cases cb with
  | authNone user => exact logged rfl denied
  | authPassword user password =>
      exact logged rfl (related_trapAuthPassword u r.nested (r.login user password))
  | authPubkey user signatureState => exact logged rfl denied
  | authGssapiMic user principal => exact logged rfl denied
  | serviceRequest service =>
      exact logged rfl (u.bind (related_idleTimerReset u) fun _ => u.pure _)
  | newChannel => exact r.newChannel
  | trapMessage msg => exact logged rfl (related_trapMessageCallback u r.nested)
  | haasMessage msg =>
      exact logged rfl (u.bind (related_idleTimerReset u) fun _ => u.pure _)
  | channel ch event =>
      cases usual : (Callback.channel ch event).isUsual with
      | true =>
          exact related_deliverChannel u r.nested r.write fun m m' => r.logged _ m m' usual
      | false =>
          cases event with
          | data isStderr bytes => exact r.data ch isStderr bytes
          | _ => cases usual

end Callbacks

/-! ## `ProxyProcess`

With the callbacks of any depth related, both loops and the teardown are put together. -/

section Process

variable {P : Proxy → Entry → Prop} {K : Proxy → Proxy → Prop}
  {R : ∀ α : Type, ProxyM α → ProxyM α → Prop} (u : Uniform P K R) {w : World}
  {foreground : Bool} {debugLevel : Int}

section Nested

include u

/-- **The dispatchers**, when what a congruence is to relate by itself is related at
every depth. -/
theorem related_dispatchWithin
    (each : ∀ dispatch dispatch', (∀ t, R Unit (dispatch t) (dispatch' t)) →
      Related R w foreground debugLevel dispatch dispatch') (depth t : Nat) :
    R Unit (dispatchWithin w depth t)
      (dispatchWithin (w.withMode foreground debugLevel) depth t) := by
  induction depth generalizing t with
  | zero => exact u.pure ()
  | succ depth ih => exact u.each fun cb => related_deliver u (each _ _ ih)

end Nested

variable {dispatch dispatch' : Nat → ProxyM Unit} (hd : ∀ t, R Unit (dispatch t) (dispatch' t))

include u

/-- The time to wait, from the timers and the clock. -/
theorem related_waitTime : R (Option Int) (waitTime w) (waitTime w) := by
  apply u.bind (u.bind u.get fun s => related_timerGet u)
  intro time
  apply related_ite (u.pure none)
  apply related_ite
  · apply u.bind u.get
    intro s
    exact u.bind (related_timerGet u) fun _ => u.pure _
  · exact u.pure _

theorem related_readShouldStop : R Bool (readShouldStop w) (readShouldStop w) := by
  apply u.bind (related_nextTick u)
  intro t
  exact u.pure _

theorem related_checkUsage : R Bool (checkUsage w) (checkUsage w) := by
  apply related_ite
  · apply u.bind (related_nextTick u)
    intro t
    exact u.pure _
  · exact u.pure true

include hd

/-- A turn of the login loop: the same deadlines, the same wait, and the same tests
afterwards. -/
theorem related_waitLoginStep :
    R (Unit ⊕ Bool) (waitLoginStep w dispatch)
      (waitLoginStep (w.withMode foreground debugLevel) dispatch') := by
  apply u.bind (related_readShouldStop u)
  intro shouldStop
  apply related_ite (u.pure _)
  apply u.bind (related_checkUsage u)
  intro usage
  apply related_ite (u.pure _)
  apply u.bind (related_waitTime u)
  intro time
  cases time with
  | none => exact u.pure _
  | some time =>
      apply u.bind (related_call u hd rfl)
      intro ret
      apply related_ite (u.pure _)
      apply related_ite (u.pure _)
      apply u.bind u.get
      intro s
      apply related_ite (u.pure _)
      exact related_ite (u.pure _) (u.pure _)

/-- A turn of the relay loop: the flush, the deadlines, the wait and the pass over the
pairs, each of them the same in both worlds. -/
theorem related_relayStep {fuel : Nat} :
    R (Unit ⊕ Unit) (relayStep w dispatch fuel)
      (relayStep (w.withMode foreground debugLevel) dispatch' fuel) := by
  apply u.bind (related_readShouldStop u)
  intro shouldStop
  apply related_ite (u.pure _)
  apply u.bind u.get
  intro s
  apply u.bind (related_onChannel u hd fun _ => rfl)
  intro _
  apply u.bind u.get
  intro s
  apply u.bind (related_onChannel u hd fun _ => rfl)
  intro _
  apply u.bind u.get
  intro s
  apply u.bind (u.when (related_handleForwards u hd))
  intro _
  apply u.bind u.get
  intro s
  apply u.bind (related_call u hd rfl)
  intro _
  apply u.bind u.get
  intro s
  apply u.bind (related_call u hd rfl)
  intro _
  apply u.bind (related_waitTime u)
  intro time
  cases time with
  | none => exact u.pure _
  | some time =>
      apply u.bind (related_call u hd rfl)
      intro ret
      apply related_ite (u.pure _)
      apply related_ite (u.pure _)
      apply u.bind u.get
      intro s
      exact u.pure _

omit hd in
theorem related_enterStage {stage : Stage} : R Unit (enterStage stage) (enterStage stage) :=
  related_still u fun _ => ⟨rfl, rfl⟩

/-- **Both loops**: the event is the same, and so are the sessions that are taken into
it. -/
theorem related_serve {fuel : Nat} :
    R Unit (serve w dispatch fuel) (serve (w.withMode foreground debugLevel) dispatch' fuel) := by
  apply u.bind u.get
  intro s
  apply u.bind (related_call u hd rfl)
  intro _
  apply u.bind (related_idleTimerReset u)
  intro _
  refine u.bind (u.when ?_) fun _ => ?_
  · apply u.bind (related_timerStart u)
    intro timer
    exact related_modifyContext u fun _ => rfl
  · apply u.bind (related_enterStage u)
    intro _
    apply u.bind (u.loop (fun _ => related_waitLoginStep u hd) fuel ())
    intro error
    refine u.bind (u.when ?_) fun _ => ?_
    · apply u.bind (related_readShouldStop u)
      intro shouldStop
      apply u.bind u.get
      intro s
      apply u.when
      apply u.bind (related_call u hd rfl)
      intro _
      apply u.bind (related_idleTimerReset u)
      intro _
      apply u.bind (related_enterStage u)
      intro _
      apply u.bind (u.loop (fun _ => related_relayStep u hd) fuel ())
      intro _
      apply u.bind u.get
      intro s
      exact u.bind (related_call u hd rfl) fun _ => u.pure ()
    · apply u.bind u.get
      intro s
      exact u.bind (related_call u hd rfl) fun _ => u.pure ()

/-- The close of a session and of its channel. -/
theorem related_sessionClose {session : Option SessionId} {channel : Option ChannelId} :
    R Unit (sessionClose w dispatch session channel)
      (sessionClose (w.withMode foreground debugLevel) dispatch' session channel) := by
  refine u.bind (u.when ?_) fun _ => u.whenSome fun session => related_sshDisconnectFree u hd
  apply u.bind (related_onChannel u hd fun _ => rfl)
  intro isOpen
  refine u.bind (u.when ?_) fun _ => related_sshChannelFree u hd
  apply u.bind (related_onChannel u hd fun _ => rfl)
  intro _
  apply u.bind (related_sshChannelSendEof u hd)
  intro _
  exact u.bind (related_onChannel u hd fun _ => rfl) fun _ => u.pure ()

/-- What `ProxyProcess` takes down behind the loops is the same, in the same order. -/
theorem related_teardown {fuel : Nat} :
    R Unit (teardown w dispatch fuel)
      (teardown (w.withMode foreground debugLevel) dispatch' fuel) := by
  apply u.bind (related_enterStage u)
  intro _
  apply u.bind u.get
  intro s
  apply u.bind (u.when (related_fwPoolDone u hd))
  intro _
  apply u.bind u.get
  intro s
  apply u.bind (related_sessionClose u hd)
  intro _
  apply u.bind u.get
  intro s
  exact related_sessionClose u hd

/-- **`ProxyProcess`** is related to itself when the dispatchers are related. -/
theorem related_proxyProcess {fuel : Nat} :
    R Unit (proxyProcess w dispatch fuel)
      (proxyProcess (w.withMode foreground debugLevel) dispatch' fuel) := by
  refine u.bind (u.when ?_) fun _ => ?_
  · apply u.bind (related_poolInit u)
    intro pool
    exact related_modifyContext u fun _ => rfl
  · apply u.bind u.get
    intro s
    apply u.bind (related_call u hd rfl)
    intro i
    apply u.bind (u.when (related_serve u hd))
    intro _
    exact related_teardown u hd

end Process

/-! ## Congruences that mind the session channels

Where the property says something of the session channels, the two functions that change
them are related in a state in which they are known. -/

namespace SameChannels

theorem refl (s : Proxy) : SameChannels s s := by
  constructor <;> rfl

/-- What two steps leave alone, both together leave alone. -/
theorem trans {a b c : Proxy} (first : SameChannels a b) (second : SameChannels b c) :
    SameChannels a c := by
  constructor
  · rw [second.trapSession, first.trapSession]
  · rw [second.trapChannel, first.trapChannel]
  · rw [second.haasChannel, first.haasChannel]

/-- A quiet change leaves the sessions' channels as they are, since they are in the
context. -/
theorem of_quiet {s t : Proxy} (quiet : Quiet s t) : SameChannels s t where
  trapSession := congrArg (fun sessions => sessions.1) quiet.sessions
  trapChannel := congrArg (fun sessions => sessions.2.1) quiet.sessions
  haasChannel := congrArg (fun sessions => sessions.2.2.2) quiet.sessions

end SameChannels

/-- The entry is not about a callback, and the session channels are still those of
`s`. -/
structure Own (s : Proxy) (e : Entry) : Prop where
  /-- It is something the proxy does by itself. -/
  own : ∀ cb, e.action ≠ .enter cb ∧ e.action ≠ .leave cb
  same : SameChannels s e.before

section Own

variable {R : ∀ α : Type, ProxyM α → ProxyM α → Prop} (c : Congruence Own SameChannels R)

include c

/-- Whether a session blocks is nothing to mind. -/
theorem related_sshSetBlocking {session : Option SessionId} {blocking : Bool} :
    R Unit (sshSetBlocking session blocking) (sshSetBlocking session blocking) := by
  apply c.modify
  intro s
  cases session with
  | none => exact .refl s
  | some id => exact ⟨rfl, rfl, rfl⟩

/-- Setting the mode and setting it back makes no difference to a congruence that does
not look at the modes. -/
theorem related_nonblocking {α : Type} {m m' : ProxyM α} {session : Context → Option SessionId}
    (inner : R α m m') : R α (nonblocking session m) (nonblocking session m') := by
  apply c.bind c.get
  intro s
  apply c.bind (c.gets _)
  intro blocking
  apply c.bind (related_sshSetBlocking c)
  intro _
  apply c.bind inner
  intro a
  apply c.bind c.get
  intro s
  exact c.bind (related_sshSetBlocking c) fun _ => c.pure a

/-- A congruence that looks at the channels of the sessions, and not at the modes, is of
the kind that this module asks for. -/
theorem uniform_of_congruence : Uniform Own SameChannels R where
  toCongruence := c
  still _ _ := .of_quiet
  usual e usual := by
    refine ⟨fun cb => ⟨?_, ?_⟩, .refl e.before⟩
    · intro enter
      rw [enter] at usual
      cases usual
    · intro leave
      rw [leave] at usual
      cases usual
  nonblocking _ := related_nonblocking c

/-- Nor is what is written. -/
theorem related_writeNonblocking {w : World} {foreground : Bool} {debugLevel : Int}
    {dispatch dispatch' : Nat → ProxyM Unit} (hd : ∀ t, R Unit (dispatch t) (dispatch' t))
    (session : Context → Option SessionId) (ch : Option ChannelId) (isStderr : Bool)
    (data : List UInt8) :
    R Int (writeNonblocking w dispatch session ch isStderr data)
      (writeNonblocking (w.withMode foreground debugLevel) dispatch' session ch isStderr data) := by
  apply related_nonblocking c
  cases ch with
  | none => exact c.pure _
  | some ch =>
      have told {action : Interaction} {answer : Int}
          (own : ∀ cb, action ≠ .enter cb ∧ action ≠ .leave cb) :
          R Unit (tell fun s => ⟨s, action, answer⟩) (tell fun s => ⟨s, action, answer⟩) :=
        c.tell fun s => ⟨own, .refl s⟩
      apply c.bind (c.gets _)
      intro channel
      refine c.bind ?_ fun _ => c.pure _
      apply c.bind (related_nextTick (uniform_of_congruence c))
      intro t
      apply c.bind (told (by simp))
      intro _
      apply c.bind (related_updateChannel (uniform_of_congruence c))
      intro _
      refine c.bind (c.when ?_) fun _ => c.pure _
      apply c.bind (hd t)
      intro _
      exact told (by simp)

end Own

end HaasProxy
