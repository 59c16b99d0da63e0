import HaasProxy.Lib.Path
import HaasProxy.Ownership.Invariant

/-!
# The steps of a session

`Change` lists what callbacks and calls of libssh do to the state and to the log,
one constructor for each kind of update, with what the code knows where it makes
it.  `Advance` adds what only `ProxyProcess` does.  What the code knows from an
earlier answer is an entry of the history.

Most steps are a single update.  Some are a stretch of the code that libssh does
not interrupt and in the middle of which an invariant would not hold: a login, a
pair that is put into the pool, a pair that is taken out of it.  Two more are
such stretches only while callbacks do not nest, when they are `serial`: a
request that is passed on once, and data that is passed on.

## Main definitions

* `Call.effect` — what a call does at once, in the state;
* `Licensed`, `Answered` — when a callback makes a call, and what it answers;
* `Registering`, `Released`, `Marked` — the reasons for the steps about pairs;
* `Change` — the steps of callbacks and of calls;
* `LoginTop`, `RelayTop`, `Waits` — what is known where a loop waits;
* `Advance` — the steps of `ProxyProcess`.

## Design notes

**The program is read once.**  `Callbacks.lean` and `Process.lean` of this directory show
that a run makes these steps and no others.  Every invariant of a session is proved
against the constructors below, and never unfolds the program.  When a function of the
source changes, the constructors that describe it change, and the one proof that it makes
them.

**The reasons are part of the step.**  A constructor has the facts the code has tested as
premises: that a channel is offered, that a session is new, that the loop has made its
tests since the last wait.  They are stated about the history, since what the code knows is
an answer it got, and callbacks may have come in between.  How much such a premise can
say depends on that, and where callbacks do not nest it says more: that is what the
parameter `serial` is for.

**No step is about more than it changes.**  What a step leaves alone is not said, but
visible: the new state is an update of the old one.

**Stretches.**  A login changes `HaasSession` and `Authenticated` in two statements, and
between them the context is not consistent; nothing can be called back there.  Such
statements are one step.  The entries that are logged inside of a stretch are logged in
states the step has to describe (`relayLog`, `Registering`).
-/

namespace HaasProxy

open Traced

/-! ## Calls

What a call does to the state by itself, and who may make it.  The callbacks it delivers
are steps of their own behind it. -/

/-- What a call does at once, when it answers `i`. -/
def Call.effect : Call → Int → Proxy → Proxy
  | new, i, s => if i = sshOk then { s with sessions := s.sessions + 1 } else s
  | channelNew session, i, s => if i = sshOk then s.obtain session else s
  | openReplyAccept, i, s => if i = sshOk then s.obtain s.context.trapSession else s
  | setCallbacks ch cb, _, s => s.updateChannel ch fun c => { c with callbacks := some cb }
  | channelFree ch, _, s => s.freeChannel ch
  | sendEof ch, i, s =>
      if i = sshOk then s.updateChannel ch fun c => { c with eofSent := true } else s
  | write ch isStderr data, i, s =>
      s.updateChannel ch fun c =>
        { c with
          accepted := Function.update c.accepted isStderr
            (c.accepted isStderr ++ data.take (writeResult (some c) i data).toNat) }
  | _, _, s => s

/-- In the context `c` a password is being tried. -/
def Attempted (h : List Entry) (c : Context) : Prop :=
  ∃ e ∈ h, (∃ user password, e.action = .enter (.authPassword user password)) ∧
    e.before.context = c

/-- A session is given back to libssh. -/
def Interaction.Returns (a : Interaction) (session : SessionId) : Prop :=
  a = .call (.disconnect session) ∨ a = .call (.free session)

/-- `ssh_new` has returned `session`, which was not given back since, and the
context is still as it was then. -/
def NewSession (h : List Entry) (c : Context) (session : SessionId) : Prop :=
  ∃ h₀ e h₁, h = h₀ ++ e :: h₁ ∧ e.action = .call .new ∧ e.answer = sshOk ∧
    e.before.sessions = session ∧ e.before.context = c ∧
    ∀ e' ∈ h₁, ¬ e'.action.Returns session

/-- The backend has accepted a password, and the context is still as it was
then. -/
def Accepted (h : List Entry) (c : Context) (session : SessionId) : Prop :=
  ∃ e ∈ h, (∃ password, e.action = .call (.userauthPassword session password)) ∧
    e.answer = sshAuthSuccess ∧ e.before.context = c

/-- A request for a direct forward may be accepted: the backend was asked for a
channel, or the request has just arrived. -/
def Acceptable (w : World) (h : List Entry) (c : Context) : Prop :=
  w.config.forwardMode = some .allow ∧ (∃ e ∈ h, e.before.context.haasSession ≠ none) ∨
    w.config.forwardMode ≠ some .allow ∧ w.config.forwardMode ≠ some .deny ∧
      ∃ e ∈ h, (∃ originator originatorPort destination destinationPort, e.action =
        .enter (.trapMessage (some
          (.directTcpip originator originatorPort destination destinationPort)))) ∧
        e.before.context = c

/-- When a callback makes a call.  The loops wait and the sessions are taken in
and out of the event by `ProxyProcess` alone; sessions are freed, tables of
callbacks registered, and data and the requests for a terminal and a shell passed
on, in the steps that are about that. -/
def Licensed (w : World) (serial : Prop) (h : List Entry) (s : Proxy) : Call → Prop
  | .new => Attempted h s.context
  | .disconnect session => session = s.context.trapSession
  | .channelNew session =>
      session = s.context.trapSession ∨ s.context.haasSession = some session
  | .openReplyAccept => Acceptable w h s.context
  | .write .. | .requestPtySize .. | .requestShell .. => ¬ serial
  | .free _ | .eventDopoll _ | .eventAddSession _ | .eventRemoveSession _ | .setCallbacks .. => False
  | _ => True

/-- The calls that need no licence and do nothing at once. -/
def Call.Ordinary : Call → Prop
  | .new | .disconnect _ | .free _ | .channelNew _ | .openReplyAccept | .write ..
  | .requestPtySize .. | .requestShell .. | .eventDopoll _ | .eventAddSession _
  | .eventRemoveSession _ | .setCallbacks .. | .channelFree _ | .sendEof _ => False
  | _ => True

theorem licensed_of_ordinary {w : World} {serial : Prop} {h : List Entry} {s : Proxy} {c : Call}
    (ordinary : c.Ordinary) : Licensed w serial h s c := by
  cases c <;> trivial

theorem effect_of_ordinary {c : Call} (ordinary : c.Ordinary) (i : Int) (s : Proxy) :
    c.effect i s = s := by
  cases c <;> first | rfl | exact False.elim ordinary

/-- When a callback answers.  The answer to a password is a denial unless the
number of failed attempts is still that from when the password arrived, and
`TrapNewChannel` answers with the channel of the context. -/
def Answered (h : List Entry) (s : Proxy) (back : Int) : Callback → Prop
  | .authPassword .. =>
      back = sshAuthDenied ∨ ∃ c, Attempted h c ∧ s.context.retries = c.retries
  | .newChannel => back ≠ 0 → s.context.trapChannel ≠ none
  | _ => True

/-! ## Timers -/

/-- A deadline from a reading of the clock. -/
def Timeval.later (now : Timeval) (sec : Int) : Timeval := { now with sec := now.sec + sec }

/-- The idle timer is set anew. -/
def Proxy.idled (w : World) (s : Proxy) : Proxy :=
  { s.tock with
    context := { s.context with idleTimer := (w.clock s.tick).later w.config.idleTimeout } }

/-! ## Requests that are passed on once

The terminal and the shell have a flag in the context, which is set when the backend
grants the request and tested before the next one.  Between the test and the flag libssh
may make callbacks. -/

/-- A request that is passed on until it is granted once. -/
inductive OnceRequest where
  /-- `ssh_channel_request_pty_size`, recorded in `HavePty`. -/
  | pty (term : CString) (x y : Int)
  /-- `ssh_channel_request_shell`, recorded in `HaveShell`. -/
  | shell

namespace OnceRequest

def granted : OnceRequest → Context → Bool
  | pty .., c => c.havePty
  | shell, c => c.haveShell

def grant : OnceRequest → Context → Context
  | pty .., c => { c with havePty := true }
  | shell, c => { c with haveShell := true }

def call : OnceRequest → ChannelId → Call
  | pty term x y, ch => .requestPtySize ch term x y
  | shell, ch => .requestShell ch

end OnceRequest

/-! ## Channels and pairs

Conditions that the cases below have in common: what was obtained for a request, what a
pair is filled in with, and why one was marked. -/

/-- `TrapNewChannel` has obtained both channels; if callbacks do not nest nothing
else has happened since. -/
def BothObtained (serial : Prop) (h : List Entry) (s : Proxy)
    (trapChannel haasChannel : ChannelId) : Prop :=
  ∃ e ∈ h, ∃ e' ∈ h, ∃ session,
    e.action = .call (.channelNew e.before.context.trapSession) ∧ e.answer = sshOk ∧
    e.before.channels.next = trapChannel ∧ e.before.context.trapChannel = none ∧
    e'.action = .call (.channelNew session) ∧ e'.answer = sshOk ∧
    e'.before.channels.next = haasChannel ∧ e'.before.context.haasSession = some session ∧
    (serial → (∃ t, e'.before = { e.before.obtain e.before.context.trapSession with tick := t }) ∧
      ∃ t, s = { e'.before.obtain session with tick := t })

/-- `TrapMessageCallback` has just accepted a channel, and in `ALLOW` mode has
obtained the one to the destination; if callbacks do not nest nothing else has
happened since. -/
def Offered (w : World) (serial : Prop) (h : List Entry) (s : Proxy) (src : ChannelId)
    (dst : Option ChannelId) : Prop :=
  ∃ h₀ e, h = h₀ ++ [e] ∧ e.action = .call .openReplyAccept ∧ e.before.channels.next = src ∧
    s = e.before.obtain e.before.context.trapSession ∧
    (w.config.forwardMode = some .allow ∧ (∃ e' ∈ h₀, ∃ session,
        e'.action = .call (.channelNew session) ∧ e'.answer = sshOk ∧
        e'.before.context.haasSession = some session ∧ dst = some e'.before.channels.next ∧
        (serial → ∃ t, e.before = { e'.before.obtain session with tick := t })) ∨
      w.config.forwardMode ≠ some .allow ∧ dst = none)

/-- `FwPairAlloc` fills in nothing but the table of callbacks. -/
def blankPair (p : PairId) : FwPair :=
  { context := none
    closed := false
    source := fwEndpointInit
    destiny := fwEndpointInit
    userdata := p }

/-- There was no memory for a pair that was to go into a pool. -/
def PairDenied (h : List Entry) (id : PoolId) : Prop :=
  ∃ e ∈ h, e.action = .alloc .fwPair ∧ e.answer = 0 ∧ e.before.context.forwardPool = some id

/-- A channel calls back into a pair. -/
def Proxy.registerPair (s : Proxy) (p : PairId) (ch : ChannelId) : Proxy :=
  s.updateChannel ch fun c => { c with callbacks := some (.forwardChannelCB p) }

/-- `s` with a new pair, some of whose channels call back into it, and with
other pools. -/
def Proxy.filling (s : Proxy) (channels : Heap Channel) (pools : Heap (FwPool (Option PairId)))
    (pair : FwPair) (tick : Nat) (locals : List ChannelId) : Proxy :=
  { s with
    channels := channels
    pools := pools
    pairs := s.pairs.alloc pair
    tick := tick
    locals := locals }

/-- Since `s` the pair `p` is being filled in; the pools become `pools`. -/
structure Registering (s : Proxy) (p : PairId) (src : ChannelId) (dst : Option ChannelId)
    (pools : Heap (FwPool (Option PairId))) (s' : Proxy) : Prop where
  context : s'.context = s.context
  stage : s'.stage = s.stage
  freed : s'.freed = s.freed
  sessions : s'.sessions = s.sessions
  /-- No other pair changes. -/
  others : ∀ q ≠ p, s'.pairs.cell q = s.pairs.cell q
  /-- The pair is open, and each of its ends is either still empty or what it will be. -/
  pair : ∀ pair, s'.pairs.cell p = some pair → pair.closed = false ∧
    (pair.source.channel = none ∨ pair.source.channel = some src) ∧
    (pair.destiny.channel = none ∨ pair.destiny.channel = dst)
  nextPair : s.pairs.next ≤ s'.pairs.next
  /-- A channel is as it was, or it has been registered with the pair. -/
  channels : ∀ ch, s'.channels.cell ch = s.channels.cell ch ∨
    s'.channels.cell ch = (s.registerPair p ch).channels.cell ch
  /-- The pool was not asked yet, or has taken the pair already. -/
  filled : s'.pools = s.pools ∨ s'.pools = pools
  /-- Nothing else was put into the pool. -/
  items : ∀ q ∈ s'.items, q = p ∨ q ∈ s.items

/-- The pair was passed to `FwPairRelease`. -/
def Released (h : List Entry) (p : PairId) : Prop :=
  ∃ e ∈ h, e.action = .release p ∧ e.before.pairs.cell p ≠ none

/-- Why a pair is marked as closed: a poll has just found the end of the stream
on a channel that was one of its ends, or one of its channels was just closed. -/
def Marked (h : List Entry) (s : Proxy) (p : PairId) : Prop :=
  (∃ h₀ r ch, h = h₀ ++ [r] ∧ r.action = .returned (.poll ch) ∧ r.answer = sshEof ∧
    r.before = s ∧ ∃ e ∈ h, ∃ pair end_, e.before.pairs.cell p = some pair ∧
      (pair.endpoint end_).channel = some ch) ∨
  ∃ h₀ e ch c, h = h₀ ++ [e] ∧ e.action = .enter (.channel ch .close) ∧ e.before = s ∧
    s.channels.cell ch = some c ∧ c.callbacks = some (.forwardChannelCB p)

/-! ## Data

The proxy passes on everything that is buffered, which may be more than what has just
arrived. -/

/-- Where the data of a channel is passed on to, by the table of its
callbacks. -/
def Proxy.outlet (w : World) (s : Proxy) (ch : ChannelId) : ChannelCallbacks → Option ChannelId
  | .trapChannelCB => s.context.haasChannel
  | .haasChannelCB => s.context.trapChannel
  | .forwardChannelCB p =>
      (s.pairs.cell p).bind fun pair =>
        if pair.context = none then none
        else
          match w.config.forwardMode with
          | some .allow => (pair.otherEnd ch s.context).1
          | some .echo => some ch
          | _ => none

/-- Data on a channel that has an outlet: the callback is entered, writes and
answers what was accepted.  The sessions may be blocking or not on the way. -/
def relayLog (w : World) (s : Proxy) (ch out : ChannelId) (isStderr : Bool)
    (bytes data : List UInt8) (i back : Int) (during after : SessionId → Bool) : List Entry :=
  let cb : Callback := .channel ch (.data isStderr bytes)
  let c : Call := .write out isStderr data
  let s₁ : Proxy := { s.tock with blocking := during }
  let s₂ : Proxy := c.effect i s₁
  let s₃ : Proxy := ({ s₂ with blocking := after } : Proxy).idled w
  [⟨s, .enter cb, 0⟩, ⟨s₁, .call c, i⟩, ⟨s₂, .returned c, i⟩, ⟨s₃, .leave cb, back⟩]

/-- The state after data was passed on, and what was accepted of it dropped. -/
def Proxy.relayed (w : World) (s : Proxy) (ch out : ChannelId) (isStderr : Bool)
    (bytes data : List UInt8) (i back : Int) (during after : SessionId → Bool) : Proxy :=
  let s₁ : Proxy := { s.tock with blocking := during }
  let s₂ : Proxy := (Call.write out isStderr data).effect i s₁
  (({ s₂ with blocking := after } : Proxy).idled w).updateChannel ch
    fun c => c.consume back (.data isStderr bytes)

/-- `ssh_disconnect` and `ssh_free`. -/
def byeLog (s : Proxy) (session : SessionId) (i j : Int) : List Entry :=
  [⟨s.tock, .call (.disconnect session), i⟩, ⟨s.tock.tock, .call (.free session), j⟩]

/-! ## Callbacks and calls

The steps that may come at any place: a statement of a callback or of a function called by
the loops. One case for each kind of statement. -/

/-- One step of a callback or a call of libssh. -/
inductive Change (w : World) (serial : Prop) : Steps Entry Proxy
  /-- Something is asked that is not logged: the clock, the kernel, a flag. -/
  | tick (h : List Entry) (s : Proxy) : Change w serial h s [] s.tock
  /-- A call is made, where the code may make it, and has its effect at once. -/
  | call (h : List Entry) (s : Proxy) (c : Call) (i : Int) (licensed : Licensed w serial h s c) :
      Change w serial h s [⟨s.tock, .call c, i⟩] (c.effect i s.tock)
  /-- A call that handled packets returns; that of a wait is a step of `ProxyProcess`. -/
  | returned (h : List Entry) (s : Proxy) (c : Call) (i : Int)
      (other : ∀ timeout, c ≠ .eventDopoll timeout) :
      Change w serial h s [⟨s, .returned c, i⟩] s
  /-- `HaasConnect` gives up a session it has just obtained. -/
  | giveUp (h : List Entry) (s : Proxy) (session : SessionId) (i j : Int)
      (obtained : NewSession h s.context session) :
      Change w serial h s (byeLog s session i j) s.tock.tock
  /-- Memory is asked for. -/
  | alloc (h : List Entry) (s : Proxy) (allocation : Allocation) (granted : Bool) :
      Change w serial h s [⟨s.tock, .alloc allocation, if granted then 1 else 0⟩] s.tock
  /-- libssh makes a callback. -/
  | enter (h : List Entry) (s : Proxy) (cb : Callback) :
      Change w serial h s [⟨s, .enter cb, 0⟩] s
  /-- A callback returns, with an answer it may give. -/
  | leave (h : List Entry) (s : Proxy) (cb : Callback) (back : Int)
      (answered : Answered h s back cb) : Change w serial h s [⟨s, .leave cb, back⟩] s
  /-- Sessions are made to block, or not to. -/
  | blocking (h : List Entry) (s : Proxy) (blocking : SessionId → Bool) :
      Change w serial h s [] { s with blocking := blocking }
  /-- The ghost of the local variables is brought up to date. -/
  | locals (h : List Entry) (s : Proxy) (locals : List ChannelId) :
      Change w serial h s [] { s with locals := locals }
  /-- The ghost of the pairs on their way out of the pool is. -/
  | releasing (h : List Entry) (s : Proxy) (releasing : List PairId) :
      Change w serial h s [] { s with releasing := releasing }
  /-- The idle timer is set anew. -/
  | idle (h : List Entry) (s : Proxy) : Change w serial h s [] (s.idled w)
  /-- The context is marked as closed: a session channel was closed. -/
  | closed (h : List Entry) (s : Proxy) :
      Change w serial h s [] { s with context := { s.context with closed := true } }
  /-- A flag of the context is set, where callbacks nest and so no more is known about it. -/
  | grant (h : List Entry) (s : Proxy) (nested : ¬ serial) (r : OnceRequest) :
      Change w serial h s [] { s with context := r.grant s.context }
  /-- A request that is passed on only until it was granted, with what comes of it. -/
  | once (h : List Entry) (s : Proxy) (r : OnceRequest) {ch : ChannelId} (i : Int)
      (channel : s.context.haasChannel = some ch) (first : r.granted s.context = false) :
      Change w serial h s
        [⟨s.tock, .call (r.call ch), i⟩, ⟨s.tock, .returned (r.call ch), i⟩]
        (if i = sshOk then { s.tock with context := r.grant s.context } else s.tock)
  /-- An attempt to log in is counted. -/
  | failed (h : List Entry) (s : Proxy) (attempted : Attempted h s.context) :
      Change w serial h s []
        { s with context := { s.context with retries := s.context.retries + 1 } }
  /-- Too many attempts have failed; the flag says so, and no loop reads it. -/
  | error (h : List Entry) (s : Proxy) :
      Change w serial h s [] { s with context := { s.context with error := true } }
  /-- A login: the session the backend has accepted becomes that of the context. -/
  | loggedIn (h : List Entry) (s : Proxy) (session : SessionId)
      (attempted : Attempted h s.context) (obtained : NewSession h s.context session)
      (accepted : Accepted h s.context session) :
      Change w serial h s []
        { s with
          context := { s.context with haasSession := some session, authenticated := true } }
  /-- Both session channels are registered and stored in the context. -/
  | adopt (h : List Entry) (s : Proxy) (trapChannel haasChannel : ChannelId) (i j : Int)
      (obtained : BothObtained serial h s trapChannel haasChannel) {s₁ s₂ : Proxy}
      (first : s₁ = (Call.setCallbacks trapChannel .trapChannelCB).effect i s.tock)
      (second : s₂ = (Call.setCallbacks haasChannel .haasChannelCB).effect j s₁.tock) :
      Change w serial h s
        [⟨s.tock, .call (.setCallbacks trapChannel .trapChannelCB), i⟩,
          ⟨s₁.tock, .call (.setCallbacks haasChannel .haasChannelCB), j⟩]
        { s₂ with
          context := { s₂.context with
            trapChannel := some trapChannel
            haasChannel := some haasChannel }
          locals := (s₂.locals.erase trapChannel).erase haasChannel }
  /-- Something arrives on a channel. -/
  | arrive (h : List Entry) (s : Proxy) (ch : ChannelId) (event : ChannelEvent) :
      Change w serial h s [] (s.updateChannel ch fun c => c.arrive event)
  /-- What a data callback has consumed is dropped, where callbacks nest. -/
  | consume (h : List Entry) (s : Proxy) (nested : ¬ serial) (ch : ChannelId) (back : Int)
      (event : ChannelEvent) :
      Change w serial h s [] (s.updateChannel ch fun c => c.consume back event)
  /-- Data is passed on, from the callback to its answer. -/
  | relay (h : List Entry) (s : Proxy) {ch out : ChannelId} {c : Channel}
      {table : ChannelCallbacks} (isStderr : Bool) (bytes : List UInt8) (i : Int)
      (during after : SessionId → Bool) (cell : s.channels.cell ch = some c)
      (callbacks : c.callbacks = some table) (outlet : s.outlet w ch table = some out)
      {back : Int}
      (answer : back = writeResult (s.channels.cell out) i (c.buffered isStderr)) :
      Change w serial h s
        (relayLog w s ch out isStderr bytes (c.buffered isStderr) i back during after)
        (s.relayed w ch out isStderr bytes (c.buffered isStderr) i back during after)
  /-- Data has no outlet: it is refused, or, in `NULL` mode, swallowed. -/
  | discard (h : List Entry) (s : Proxy) {ch : ChannelId} {c : Channel}
      {table : ChannelCallbacks} (isStderr : Bool) (bytes : List UInt8)
      (cell : s.channels.cell ch = some c) (callbacks : c.callbacks = some table)
      (outlet : s.outlet w ch table = none) {back : Int}
      (answer : back = sshError ∨
        w.config.forwardMode = some .null ∧ back = (c.buffered isStderr).length ∧
          ∃ p, table = .forwardChannelCB p)
      {s' : Proxy} (waited : s' = s ∨ ∃ b, s' = ({ s with blocking := b } : Proxy).idled w) :
      Change w serial h s
        [⟨s, .enter (.channel ch (.data isStderr bytes)), 0⟩,
          ⟨s', .leave (.channel ch (.data isStderr bytes)), back⟩]
        (s'.updateChannel ch fun c => c.consume back (.data isStderr bytes))
  /-- `FwPairAlloc` obtains a pair, blank but for its table of callbacks. -/
  | newPair (h : List Entry) (s : Proxy) :
      Change w serial h s [] { s with pairs := s.pairs.alloc (blankPair s.pairs.next) }
  /-- `FwPoolAdd` of `NULL`, because there was no memory for the pair, or of a pair it refuses. -/
  | add (h : List Entry) (s : Proxy) {id : PoolId} {pool pool' : FwPool (Option PairId)}
      {granted : Bool} {item : Option PairId} {index : Int}
      (cell : s.pools.cell id = some pool)
      (added : fwPoolAdd granted item (some pool) = .ok (index, some pool'))
      (null : item = none → PairDenied h id) (refused : item ≠ none → index = -1) :
      Change w serial h s [] { s with pools := s.pools.store id pool' }
  /-- A forward is accepted: its pair is stored in the pool, filled in, and registered. -/
  | register (h : List Entry) (s : Proxy) {src : ChannelId} {dst : Option ChannelId}
      (offered : Offered w serial h s src dst) {id : PoolId}
      {pool pool' : FwPool (Option PairId)} {granted : Bool} {index : Int}
      (pointer : s.context.forwardPool = some id) (cell : s.pools.cell id = some pool)
      (added : fwPoolAdd granted (some s.pairs.next) (some pool) = .ok (index, some pool'))
      (stored : index ≠ -1) (pair : FwPair)
      (filled : pair.context = some .proxyProcess ∧ pair.closed = false ∧
        pair.source.channel = some src ∧ pair.destiny.channel = dst)
      (l : List Entry) (mid : ∀ e ∈ l,
        Registering s s.pairs.next src dst (s.pools.store id pool') e.before ∧
        ((∃ allocation, e.action = .alloc allocation) ∨
          ∃ ch, e.action = .call (.setCallbacks ch (.forwardChannelCB s.pairs.next))))
      (t : Nat) (later : s.tick ≤ t) (locals : List ChannelId) :
      Change w serial h s l
        (s.filling (dst.elim (s.registerPair s.pairs.next src)
            ((s.registerPair s.pairs.next src).registerPair s.pairs.next)).channels
          (s.pools.store id pool') pair t locals)
  /-- A pair is marked as closed. -/
  | mark (h : List Entry) (s : Proxy) {p : PairId} {pair : FwPair}
      (cell : s.pairs.cell p = some pair) (why : Marked h s p) :
      Change w serial h s [] { s with pairs := s.pairs.store p { pair with closed := true } }
  /-- `FwPairRelease` of a pair no pool has taken, or during the teardown. -/
  | release (h : List Entry) (s : Proxy) {p : PairId} {pair : FwPair}
      (cell : s.pairs.cell p = some pair) (why : pair = blankPair p ∨ s.stage = .teardown) :
      Change w serial h s [⟨s, .release p, 0⟩]
        { s with pairs := s.pairs.store p { pair with context := none, closed := false } }
  /-- During the teardown a callback may have left a pair behind that is gone. -/
  | releaseFreed (h : List Entry) (s : Proxy) {p : PairId} (cell : s.pairs.cell p = none)
      (why : s.stage = .teardown) : Change w serial h s [⟨s, .release p, 0⟩] s
  /-- `HandleForwards` takes a closed pair out of the pool and begins to release it. -/
  | reap (h : List Entry) (s : Proxy) {id : PoolId} {pool pool' : FwPool (Option PairId)}
      {index removed : Int} {p : PairId} {pair : FwPair} {s' : Proxy}
      (pointer : s.context.forwardPool = some id) (cell : s.pools.cell id = some pool)
      (item : fwPoolGet (some pool) index = .ok (some (some p)))
      (eq : fwPoolRemove index (some pool) = .ok (removed, some pool'))
      (loaded : s.pairs.cell p = some pair) (closed : pair.closed = true)
      (out : s' = { s with pools := s.pools.store id pool', releasing := p :: s.releasing }) :
      Change w serial h s [⟨s', .release p, 0⟩]
        { s' with pairs := s.pairs.store p { pair with context := none, closed := false } }
  /-- An end of a pair that is being released is emptied. -/
  | endpoint (h : List Entry) (s : Proxy) {p : PairId} {pair : FwPair} (end_ : End)
      (endpoint : FwEndpoint) (released : Released h p) (cell : s.pairs.cell p = some pair)
      (keeps : endpoint.channel = none ∨ endpoint.channel = (pair.endpoint end_).channel) :
      Change w serial h s [] { s with pairs := s.pairs.store p (pair.setEndpoint end_ endpoint) }
  /-- The memory of such a pair is given back. -/
  | freePair (h : List Entry) (s : Proxy) {p : PairId} (released : Released h p) :
      Change w serial h s [] { s with pairs := s.pairs.free p }
  /-- A slot of the pool is overwritten during the teardown. -/
  | clear (h : List Entry) (s : Proxy) (id : PoolId) (pool : FwPool (Option PairId))
      (torndown : s.stage = .teardown) :
      Change w serial h s [] { s with pools := s.pools.store id pool }
  /-- The pool is freed. -/
  | freePool (h : List Entry) (s : Proxy) (id : PoolId) (torndown : s.stage = .teardown) :
      Change w serial h s [] { s with pools := s.pools.free id }

/-! ## The loops of `ProxyProcess`

A step in which a loop waits is warranted by all that the loop has done since it was at its
top.  So nothing has to be remembered from one step to the next to see that the tests were
made, and in which order. -/

/-- The entry is about a wait for events. -/
def Entry.AboutWait (e : Entry) : Prop :=
  ∃ timeout, e.action = .call (.eventDopoll timeout) ∨ e.action = .returned (.eventDopoll timeout)

/-- A session is taken into the event. -/
def Interaction.addsSession : Interaction → Bool
  | call (.eventAddSession _) => true
  | _ => false

/-- The time to wait that both loops compute from two readings of the clock. -/
def timeLeft (w : World) (s : Proxy) : Option Int :=
  let time := timerLeft s.context.idleTimer (w.clock s.tick)
  if time = 0 then none
  else if 0 < w.config.sessionTimeout then
    let i := timerLeft s.context.sessionTimer (w.clock (s.tick + 1))
    if i = 0 then none else some (if i < time then i else time)
  else some time

/-- The number of readings `timeLeft` takes when there is time left. -/
def World.readings (w : World) : Nat := if 0 < w.config.sessionTimeout then 2 else 1

/-- What `CheckUsage` makes of a reading of `getrusage`. -/
def World.UsageOk (w : World) (t : Nat) : Prop :=
  (w.usage t).elim false (fun sec => sec ≤ w.config.cpuUsage) = true

/-- No pair in the pool is marked as closed. -/
def Proxy.NoneClosed (s : Proxy) : Prop :=
  ∀ p ∈ s.items, ∀ pair, s.pairs.cell p = some pair → pair.closed = false

/-- The first loop is at its top: it was just entered, or a wait has returned
and nothing has ended the loop. -/
inductive LoginTop (w : World) : List Entry → Proxy → Prop
  /-- Both timers were just started, right behind the key exchange. -/
  | first {h : List Entry} {k a : Entry} {top : Proxy} {session : SessionId}
      (exchanged : k.action = .returned (.handleKeyExchange session)) (ok : k.answer = sshOk)
      (added : a.action = .call (.eventAddSession (some a.before.context.trapSession)))
      (same : a.before = k.before.tock)
      (fresh : ∀ e ∈ h ++ [k, a], ¬ e.AboutWait)
      (eq : top = { a.before with
        stage := .login
        tick := a.before.tick + w.readings
        context := { a.before.context with
          idleTimer := (w.clock a.before.tick).later w.config.idleTimeout
          sessionTimer :=
            if 0 < w.config.sessionTimeout then
              (w.clock (a.before.tick + 1)).later w.config.sessionTimeout
            else a.before.context.sessionTimer } }) :
      LoginTop w (h ++ [k, a]) top
  /-- The wait was interrupted, or there is more to wait for. -/
  | next {h : List Entry} {r : Entry} {timeout : Int}
      (returned : r.action = .returned (.eventDopoll timeout)) (stage : r.before.stage = .login)
      (noError : r.answer ≠ sshError)
      (goesOn : r.answer = sshEintr ∨ r.before.context.closed = false ∧
        ¬ (r.before.context.trapChannel ≠ none ∧ r.before.context.authenticated = true)) :
      LoginTop w (h ++ [r]) r.before

/-- The second loop is at its top. -/
inductive RelayTop (w : World) : List Entry → Proxy → Prop
  /-- The idle timer was started anew, behind the session of the backend joining the event. -/
  | first {h : List Entry} {a : Entry} {top : Proxy}
      (added : a.action = .call (.eventAddSession a.before.context.haasSession))
      (eq : top = { a.before with
        stage := .relay
        tick := a.before.tick + 1
        context := { a.before.context with
          idleTimer := (w.clock a.before.tick).later w.config.idleTimeout } }) :
      RelayTop w (h ++ [a]) top
  /-- The wait was interrupted, or nobody has closed. -/
  | next {h : List Entry} {r : Entry} {timeout : Int}
      (returned : r.action = .returned (.eventDopoll timeout)) (stage : r.before.stage = .relay)
      (noError : r.answer ≠ sshError)
      (goesOn : r.answer = sshEintr ∨ r.before.context.closed = false) :
      RelayTop w (h ++ [r]) r.before

/-- **What has happened when a loop waits**, since it was at its top.  The first
loop has made its tests.  The second one has polled, reaped the closed forwards
and flushed both sessions, and calls back into the proxy were made on the way. -/
inductive Waits (w : World) : List Entry → Proxy → Int → Prop
  /-- `ShouldStop`, the CPU usage where there is a limit, and the time that is left. -/
  | login {h : List Entry} {top s : Proxy} {time : Int} (here : LoginTop w h top)
      (goesOn : w.shouldStop top.tick = false)
      (usage : 0 < w.config.cpuUsage → w.UsageOk (top.tick + 1))
      (eq : s = { top with tick := top.tick + 1 + if 0 < w.config.cpuUsage then 1 else 0 })
      (left : timeLeft w s = some time) :
      Waits w h { s with tick := s.tick + w.readings } time
  /-- `ShouldStop`, `HandleForwards`, both flushes, and the time that is left. -/
  | relay {h l : List Entry} {top : Proxy} {time : Int} {g f e : Entry}
      {session : Option SessionId} (here : RelayTop w h top)
      (goesOn : w.shouldStop top.tick = false) (noWait : ∀ e ∈ l ++ [f], ¬ e.AboutWait)
      (noEvent : ∀ e ∈ l ++ [f], e.action.addsSession = false) (reaped : g ∈ l)
      (noneClosed : g.before.NoneClosed)
      (flushes : ∃ session, g.action = .call (.blockingFlush session)) (asked : e ∈ l)
      (same : e.before.context.haasSession = session)
      (flushed : f.action = .returned (.blockingFlush session)) (stage : f.before.stage = .relay)
      (left : timeLeft w f.before = some time) :
      Waits w (h ++ (l ++ [f])) { f.before with tick := f.before.tick + w.readings } time

/-- One step of `ProxyProcess`. -/
inductive Advance (w : World) (serial : Prop) : Steps Entry Proxy
  /-- What callbacks and calls do. -/
  | change {h : List Entry} {s : Proxy} {l : List Entry} {s' : Proxy}
      (change : Change w serial h s l s') : Advance w serial h s l s'
  /-- A loop waits for events, for as long as it has computed. -/
  | wait (h : List Entry) (s : Proxy) (time i : Int) (waits : Waits w h s time) :
      Advance w serial h s [⟨s.tock, .call (.eventDopoll time), i⟩] s.tock
  /-- The wait returns. -/
  | woken (h : List Entry) (s : Proxy) (time i : Int) :
      Advance w serial h s [⟨s, .returned (.eventDopoll time), i⟩] s
  /-- A session is taken into the event, or out of it. -/
  | event (h : List Entry) (s : Proxy) (i : Int) {c : Call} {session : Option SessionId}
      (about : c = .eventAddSession session ∨ c = .eventRemoveSession session)
      (which : session = some s.context.trapSession ∨ session = s.context.haasSession ∧
        (s.context.authenticated = true ∨ s.stage = .relay)) :
      Advance w serial h s [⟨s.tock, .call c, i⟩] s.tock
  /-- The teardown disconnects and frees a session. -/
  | bye (h : List Entry) (s : Proxy) (session : SessionId) (i j : Int)
      (torndown : s.stage = .teardown) :
      Advance w serial h s (byeLog s session i j) s.tock.tock
  /-- The first loop begins. -/
  | login (h : List Entry) (s : Proxy) (here : LoginTop w h { s with stage := .login })
      (serving : s.stage ≠ .teardown) : Advance w serial h s [] { s with stage := .login }
  /-- The second loop begins, behind a login and with a session channel. -/
  | relay (h : List Entry) (s : Proxy) (here : RelayTop w h { s with stage := .relay })
      (login : s.stage = .login) (trapChannel : s.context.trapChannel ≠ none)
      (authenticated : s.context.authenticated = true) :
      Advance w serial h s [] { s with stage := .relay }
  /-- The loops are over. -/
  | teardown (h : List Entry) (s : Proxy) (serving : s.stage ≠ .teardown) :
      Advance w serial h s [] { s with stage := .teardown }
  /-- The session timer is started. -/
  | limit (h : List Entry) (s : Proxy) :
      Advance w serial h s []
        { s.tock with
          context := { s.context with
            sessionTimer := (w.clock s.tick).later w.config.sessionTimeout } }
  /-- `FwPoolInit` has obtained a pool. -/
  | newPool (h : List Entry) (s : Proxy) {granted : Bool} {pool : FwPool (Option PairId)}
      (init : fwPoolInit granted = some pool) :
      Advance w serial h s [] { s with pools := s.pools.alloc pool }
  /-- The pool is stored in the context, or `NULL` where there was no memory. -/
  | usePool (h : List Entry) (s : Proxy) (pointer : Option PoolId)
      (unset : s.context.forwardPool = none)
      (empty : ∀ id, pointer = some id → ∃ pool, s.pools.cell id = some pool ∧ pool.Holds []) :
      Advance w serial h s [] { s with context := { s.context with forwardPool := pointer } }

end HaasProxy
