import HaasProxy.Credential
import HaasProxy.FwPool
import HaasProxy.Lib.Traced

/-!
# A client session and its libssh (`proxy.c`, `fw_pair.h`)

The state of one `ProxyProcess`: the record `tSshContext`, the pairs and the
pool on the heap, and what libssh keeps about sessions and channels as far as
the proxy can tell.

libssh answers and calls back.  A `World` says how: what the n-th interaction
answers, and which callbacks it delivers before it returns.  A libssh call takes
the dispatcher that delivers them as an argument, so that callbacks may come in
any order and nest to any depth.  Every interaction is logged with the state it
is made in.

Pointers are `Option`s, `none` being `NULL`.  libssh calls on a null channel do
nothing.  Sessions, channels, pairs and pools are numbered in the order they
were obtained.  Left out are the calls that only print or that only register a
constant table of functions, and the bind object.

## Main definitions

* `Context`, `FwPair`, `FwEndpoint`, `Timeval` — the records of the source;
* `Channel`, `Proxy` — what libssh keeps, and the whole state;
* `Call`, `Callback` — the two directions of the interface;
* `Entry`, `World` — one interaction as it is logged, and everything that decides
  what it answers;
* `callWith` — a call: a tick, an entry, its effect, and the callbacks it makes.

## Design notes

**Interactions are numbered.**  A `World` answers by the number of the interaction and not
by its arguments.  A statement about all worlds is therefore one about a libssh, a kernel,
an allocator and a clock that may do anything, also answer the same question differently
the next time.  Two runs in the same world diverge only if the program does something
different.

**Which calls deliver callbacks** is `Call.Dispatches`.  A call that handles no packets
makes none.  The calls of `HaasConnect` handle the packets of a session that has no
channel and no callbacks yet.  What can be called back is otherwise unrestricted: any
callback of the interface at any such call, also one about a channel that does not exist,
which then is not made (`deliverChannel`).

**Ghosts.**  `locals`, `releasing` and `stage` are written by the program and read by nobody
but the proofs.  They say what C keeps in variables of functions that are being executed,
which a state between two interactions would not show.

**Faults.**  Reading an object that is gone, or a slot outside of the pool, stops the
program as `Stop.fault`.  A run in which that happens is a run of the C program up to the
undefined behaviour, and everything said of its log is said of that part.
-/

namespace HaasProxy

abbrev SessionId := Nat

abbrev ChannelId := Nat

abbrev PairId := Nat

abbrev PoolId := Nat

/-! ## What libssh delivers -/

/-- An `ssh_message`, as far as the message callbacks look into it. -/
inductive Message where
  /-- `SSH_REQUEST_CHANNEL_OPEN` of subtype `SSH_CHANNEL_DIRECT_TCPIP`. -/
  | directTcpip (originator : CString) (originatorPort : Int)
      (destination : CString) (destinationPort : Int)
  /-- Any other message, of which only the type and the subtype are looked at. -/
  | other (type subtype : Int)
  deriving DecidableEq

/-- Something that happens on a channel. -/
inductive ChannelEvent where
  | ptyRequest (term : CString) (x y px py : Int)
  | ptyWindowChange (width height pxwidth pxheight : Int)
  | shellRequest
  | execRequest (command : CString)
  | envRequest (envName envValue : CString)
  | subsystemRequest (subsystem : CString)
  | authAgent
  | x11 (singleConnection : Int) (authProtocol authCookie : CString) (screenNumber : Nat)
  | signal (signal : CString)
  | exitSignal (signal : CString) (core : Int) (errMsg lang : CString)
  | exitStatus (status : Int)
  | data (isStderr : Bool) (bytes : List UInt8)
  | eof
  | close
  deriving DecidableEq

/-- A callback libssh makes. -/
inductive Callback where
  /-- `TrapAuthNone`. -/
  | authNone (user : CString)
  /-- `TrapAuthPassword`. -/
  | authPassword (user password : CString)
  /-- `TrapAuthPubkey`. -/
  | authPubkey (user : CString) (signatureState : Int)
  /-- `TrapAuthGssapiMic`. -/
  | authGssapiMic (user principal : CString)
  /-- `TrapServiceRequest`. -/
  | serviceRequest (service : CString)
  /-- `TrapNewChannel`. -/
  | newChannel
  /-- `TrapMessageCallback`, or a callback without a message. -/
  | trapMessage (msg : Option Message)
  /-- `HaasMessageCallback`. -/
  | haasMessage (msg : Option Message)
  /-- A callback of the table the channel was registered with. -/
  | channel (channel : ChannelId) (event : ChannelEvent)
  deriving DecidableEq

/-! ## What the proxy asks of libssh

One constructor for each function, with its arguments.  A call in the log can so be compared
with the callback that it passes on. -/

/-- The tables `ssh_set_channel_callbacks` is called with. -/
inductive ChannelCallbacks where
  | trapChannelCB
  | haasChannelCB
  | forwardChannelCB (userdata : PairId)
  deriving DecidableEq

/-- A call of a libssh function with its arguments. -/
inductive Call where
  /-- `ssh_new`. -/
  | new
  /-- `ssh_options_set` of `SSH_OPTIONS_HOST`; the ones below are of the other options. -/
  | optionsSetHost (session : SessionId) (host : Option CString)
  | optionsSetPort (session : SessionId) (port : Int)
  | optionsSetTimeout (session : SessionId) (seconds : Int)
  | optionsSetUser (session : SessionId) (user : CString)
  | optionsSetLog (session : SessionId) (level : CString)
  | connect (session : SessionId)
  | userauthNone (session : SessionId)
  /-- `ssh_userauth_list`, which asks the peer nothing. -/
  | userauthList (session : SessionId)
  | userauthPassword (session : SessionId) (password : List UInt8)
  | disconnect (session : SessionId)
  | free (session : SessionId)
  | handleKeyExchange (session : SessionId)
  | eventAddSession (session : Option SessionId)
  | eventRemoveSession (session : Option SessionId)
  /-- `ssh_event_dopoll`: the only call that waits for events. -/
  | eventDopoll (timeout : Int)
  | blockingFlush (session : Option SessionId)
  | channelNew (session : SessionId)
  /-- `ssh_message_channel_request_open_reply_accept`. -/
  | openReplyAccept
  /-- `ssh_channel_open_session`. -/
  | openSession (channel : ChannelId)
  /-- `ssh_channel_open_forward`. -/
  | openForward (channel : ChannelId) (destination : CString) (destinationPort : Int)
      (originator : CString) (originatorPort : Int)
  /-- `ssh_set_channel_callbacks`. -/
  | setCallbacks (channel : ChannelId) (callbacks : ChannelCallbacks)
  /-- `ssh_channel_is_open`. -/
  | isOpen (channel : ChannelId)
  /-- `ssh_channel_set_blocking`, as the teardown uses it. -/
  | setBlocking (channel : ChannelId)
  | sendEof (channel : ChannelId)
  | close (channel : ChannelId)
  | channelFree (channel : ChannelId)
  /-- `ssh_channel_poll`, of the normal stream. -/
  | poll (channel : ChannelId)
  /-- `ssh_channel_write`, or `ssh_channel_write_stderr`. -/
  | write (channel : ChannelId) (isStderr : Bool) (data : List UInt8)
  /-- `ssh_channel_request_pty_size`; the ones below are named alike. -/
  | requestPtySize (channel : ChannelId) (term : CString) (x y : Int)
  | changePtySize (channel : ChannelId) (width height : Int)
  | requestShell (channel : ChannelId)
  | requestExec (channel : ChannelId) (command : CString)
  | requestEnv (channel : ChannelId) (envName envValue : CString)
  | requestSendSignal (channel : ChannelId) (signal : CString)
  | requestSendExitSignal (channel : ChannelId) (signal : CString) (core : Int)
      (errMsg lang : CString)
  | requestSendExitStatus (channel : ChannelId) (status : Int)
  deriving DecidableEq

/-- The channel a call is about. -/
def Call.channel? : Call → Option ChannelId
  | openSession ch | openForward ch .. | setCallbacks ch _ | isOpen ch | setBlocking ch
  | sendEof ch | close ch | channelFree ch | poll ch | write ch .. | requestPtySize ch ..
  | changePtySize ch .. | requestShell ch | requestExec ch .. | requestEnv ch ..
  | requestSendSignal ch .. | requestSendExitSignal ch .. | requestSendExitStatus ch .. => some ch
  | _ => none

/-- Calls that may handle packets, and so deliver callbacks, before they return.
Those of `HaasConnect` handle the packets of a session that has no channel
yet. -/
def Call.Dispatches : Call → Prop
  | handleKeyExchange _ | eventDopoll _ | blockingFlush _ | openSession _ | openForward ..
  | sendEof _ | close _ | poll _ | write .. | requestPtySize .. | changePtySize ..
  | requestShell _ | requestExec .. | requestEnv .. | requestSendSignal ..
  | requestSendExitSignal .. | requestSendExitStatus .. => True
  | _ => False

instance (c : Call) : Decidable c.Dispatches := by
  cases c <;> simp only [Call.Dispatches] <;> infer_instance

/-! ## State

The two sessions, their channels and pairs, the pool and the timers; besides these what a
run needs to be told: the time that has passed, and what is held in local variables. -/

/-- `struct timeval`. -/
structure Timeval where
  sec : Int
  usec : Nat
  deriving DecidableEq

/-- `tFwEndpoint`. -/
structure FwEndpoint where
  /-- A copy of the string of the request, or `NULL` where there was no memory. -/
  addr : Option CString
  port : Int
  channel : Option ChannelId
  deriving DecidableEq

/-- What `Context` of a pair points to: there is one context. -/
inductive ContextRef where
  | proxyProcess
  deriving DecidableEq

/-- `tFwPair`; `userdata` is that of its `Callbacks`. -/
structure FwPair where
  /-- `NULL` from when the pair is released. -/
  context : Option ContextRef
  /-- Set by a callback or by a poll, and looked for by `FwPoolFindClosed`. -/
  closed : Bool
  /-- The client's end. -/
  source : FwEndpoint
  /-- The backend's end; its channel is `NULL` where forwards are not allowed. -/
  destiny : FwEndpoint
  userdata : PairId
  deriving DecidableEq

/-- What libssh keeps about a channel.  Both directions have two streams, the
normal one and the one for `stderr`. -/
structure Channel where
  /-- The session it was obtained from. -/
  session : SessionId
  /-- The table it was registered with, if it was. -/
  callbacks : Option ChannelCallbacks
  /-- What the peer has sent. -/
  received : Bool → List UInt8
  /-- What the data callback has not consumed of it. -/
  buffered : Bool → List UInt8
  /-- What `ssh_channel_write` has accepted. -/
  accepted : Bool → List UInt8
  /-- Whether `ssh_channel_send_eof` was called on it. -/
  eofSent : Bool

/-- `tSshContext`. -/
structure Context where
  trapSession : SessionId
  trapChannel : Option ChannelId
  /-- Failed attempts to log in. -/
  retries : Int
  /-- Set behind the last attempt. -/
  error : Bool
  /-- The backend has accepted a password. -/
  authenticated : Bool
  /-- A channel of the session was closed. -/
  closed : Bool
  /-- A terminal was granted. -/
  havePty : Bool
  /-- A shell was granted. -/
  haveShell : Bool
  /-- When the session has been idle for too long. -/
  idleTimer : Timeval
  /-- When it has taken too long. -/
  sessionTimer : Timeval
  haasSession : Option SessionId
  haasChannel : Option ChannelId
  forwardPool : Option PoolId

/-- How far `ProxyProcess` is. -/
inductive Stage where
  | keyExchange
  | login
  | relay
  | teardown
  deriving DecidableEq

/-- One `ProxyProcess` and its libssh. -/
structure Proxy where
  context : Context
  pairs : Heap FwPair
  pools : Heap (FwPool (Option PairId))
  channels : Heap Channel
  /-- The channels passed to `ssh_channel_free` so far. -/
  freed : List ChannelId
  /-- Number of sessions `ssh_new` has returned. -/
  sessions : Nat
  /-- `ssh_is_blocking`. -/
  blocking : SessionId → Bool
  /-- Number of interactions with the world so far. -/
  tick : Nat
  /-- Ghost: the channels in local variables of the running callbacks. -/
  locals : List ChannelId
  /-- Ghost: the pairs in local variables, on their way out of the pool. -/
  releasing : List PairId
  /-- Ghost. -/
  stage : Stage

/-- What memory is asked for. -/
inductive Allocation where
  /-- The pool of a session, with its first items. -/
  | fwPool
  /-- A pair. -/
  | fwPair
  /-- A copy of an address. -/
  | strdup
  /-- The growth of a full pool. -/
  | items
  deriving DecidableEq

/-- What is logged. -/
inductive Interaction where
  | call (call : Call)
  /-- A call that handled packets returns. -/
  | returned (call : Call)
  | alloc (allocation : Allocation)
  /-- `FwPairRelease` is called. -/
  | release (pair : PairId)
  /-- libssh makes a callback. -/
  | enter (callback : Callback)
  /-- The callback returns. -/
  | leave (callback : Callback)
  deriving DecidableEq

/-- An action, the state it happens in, and what it answers. -/
structure Entry where
  before : Proxy
  action : Interaction
  answer : Int

/-- Why a program stops early. -/
inductive Stop where
  /-- What the C program does next is undefined. -/
  | fault (fault : Fault)
  /-- The bound on the number of iterations was too low. -/
  | exhausted
  deriving DecidableEq

abbrev ProxyM := Traced Entry Stop Proxy

/-- Everything outside the proxy, by the number of the interaction. -/
structure World where
  config : Config
  sin : SockAddrIn
  /-- What a call answers; calls that return a pointer return one on 0. -/
  answer : Nat → Int
  /-- What a call delivers before it returns. -/
  callbacks : Nat → List Callback
  /-- `gettimeofday`. -/
  clock : Nat → Timeval
  /-- The seconds of user time of `getrusage`, if it works. -/
  usage : Nat → Option Int
  /-- Whether an allocation succeeds. -/
  granted : Nat → Bool
  /-- `ShouldStop`. -/
  shouldStop : Nat → Bool

/-- `SSH_OK`. -/
def sshOk : Int := 0

/-- `SSH_ERROR`. -/
def sshError : Int := -1

/-- `SSH_EOF`. -/
def sshEof : Int := -127

/-- `SSH_EINTR`. -/
def sshEintr : Int := 3

/-- `SSH_AUTH_SUCCESS`. -/
def sshAuthSuccess : Int := 0

/-- `SSH_AUTH_DENIED`. -/
def sshAuthDenied : Int := 1

/-- `SSH_AUTH_ERROR`. -/
def sshAuthError : Int := -1

/-- `ECONNREFUSED`. -/
def econnrefused : Int := 111

/-- `MAX_RETRIES`. -/
def maxRetries : Int := 3

section Interaction

open Traced

/-- Change the context. -/
def modifyContext (f : Context → Context) : ProxyM Unit :=
  modify fun s => { s with context := f s.context }

/-- The number of this interaction with the world. -/
def nextTick : ProxyM Nat := do
  let t ← gets fun s => s.tick
  modify fun s => { s with tick := s.tick + 1 }
  pure t

/-- The state one interaction later. -/
def Proxy.tock (s : Proxy) : Proxy := { s with tick := s.tick + 1 }

/-- A tick is an interaction nobody sees. -/
theorem ensures_nextTick {t : Terms Entry Stop Proxy} {s : Proxy} {Q : Nat → Proxy → Prop}
    (h : Q s.tick { s with tick := s.tick + 1 }) : Ensures t nextTick s Q :=
  ensures_gets_bind (ensures_modify_bind (ensures_pure h))

/-- Go on with a value, or fault. -/
def orFault {α : Type} (x : Except Fault α) : ProxyM α :=
  ofExcept (x.mapError Stop.fault)

theorem run_orFault {α : Type} {x : Except Fault α} {a : α} {s : Proxy} (ok : x = .ok a) :
    orFault x s = ⟨[], s, .ok a⟩ := by
  rw [ok]
  rfl

theorem run_orFault_error {α : Type} {x : Except Fault α} {fault : Fault} {s : Proxy}
    (error : x = .error fault) : orFault x s = ⟨[], s, .error (.fault fault)⟩ := by
  rw [error]
  rfl

variable (w : World) (dispatch : Nat → ProxyM Unit)

/-- An allocation. -/
def allocate (allocation : Allocation) : ProxyM Bool := do
  let t ← nextTick
  tell fun s => ⟨s, .alloc allocation, if w.granted t then 1 else 0⟩
  pure (w.granted t)

/-- A call with the effect libssh gives it at once, before it handles packets. -/
def callWith (c : Call) (effect : Int → Proxy → Proxy) : ProxyM Int := do
  let t ← nextTick
  tell fun s => ⟨s, .call c, w.answer t⟩
  modify (effect (w.answer t))
  when c.Dispatches do
    dispatch t
    tell fun s => ⟨s, .returned c, w.answer t⟩
  pure (w.answer t)

/-- A call that only answers. -/
def call (c : Call) : ProxyM Int := callWith w dispatch c fun _ s => s

/-- A call on a channel, which may be null. -/
def onChannel (ch : Option ChannelId) (c : ChannelId → Call) : ProxyM Int :=
  match ch with
  | none => pure sshError
  | some ch => call w dispatch (c ch)

/-! ## Sessions -/

/-- `ssh_new`. -/
def sshNew : ProxyM (Option SessionId) := do
  let id ← gets fun s => s.sessions
  let i ← callWith w dispatch .new fun i s =>
    if i = sshOk then { s with sessions := s.sessions + 1 } else s
  pure (if i = sshOk then some id else none)

/-- `ssh_is_blocking`. -/
def sshIsBlocking (session : Option SessionId) : ProxyM Bool :=
  gets fun s => session.elim false s.blocking

/-- `ssh_set_blocking`. -/
def sshSetBlocking (session : Option SessionId) (blocking : Bool) : ProxyM Unit :=
  modify fun s =>
    session.elim s fun id => { s with blocking := Function.update s.blocking id blocking }

/-- `ssh_disconnect` and `ssh_free`. -/
def sshDisconnectFree (session : SessionId) : ProxyM Unit := do
  let _ ← call w dispatch (.disconnect session)
  let _ ← call w dispatch (.free session)

/-! ## Channels

What libssh does with a channel, in the part that the proxy can see: the buffer, the
callbacks, and whether it was freed. -/

/-- Change what libssh keeps about a channel. -/
def Proxy.updateChannel (s : Proxy) (ch : ChannelId) (f : Channel → Channel) : Proxy :=
  match s.channels.cell ch with
  | none => s
  | some c => { s with channels := s.channels.store ch (f c) }

/-- A channel is changed, and no other one. -/
theorem cell_updateChannel (s : Proxy) (ch : ChannelId) (f : Channel → Channel)
    (c : ChannelId) :
    (s.updateChannel ch f).channels.cell c =
      if c = ch then (s.channels.cell c).map f else s.channels.cell c := by
  unfold Proxy.updateChannel
  cases cell : s.channels.cell ch with
  | none =>
      by_cases same : c = ch
      · simp [same, cell]
      · simp [same]
  | some info =>
      by_cases same : c = ch
      · subst same
        simp [Heap.cell_store_self _ cell, cell]
      · simp [same, Heap.cell_store_of_ne]

/-- A new channel, as yet in a local variable. -/
def Proxy.obtain (s : Proxy) (session : SessionId) : Proxy :=
  { s with
    channels := s.channels.alloc
      { session := session
        callbacks := none
        received := fun _ => []
        buffered := fun _ => []
        accepted := fun _ => []
        eofSent := false }
    locals := s.channels.next :: s.locals }

/-- A call that returns a new channel of `session` when it succeeds. -/
def obtainBy (c : Call) (session : SessionId) : ProxyM (Option ChannelId) := do
  let ch ← gets fun s => s.channels.next
  let i ← callWith w dispatch c fun i s => if i = sshOk then s.obtain session else s
  pure (if i = sshOk then some ch else none)

/-- `ssh_channel_new`; without a session there is no channel. -/
def sshChannelNew (session : Option SessionId) : ProxyM (Option ChannelId) :=
  match session with
  | none => pure none
  | some id => obtainBy w dispatch (.channelNew id) id

/-- `ssh_message_channel_request_open_reply_accept`. -/
def sshMessageChannelRequestOpenReplyAccept : ProxyM (Option ChannelId) := do
  let session ← gets fun s => s.context.trapSession
  obtainBy w dispatch .openReplyAccept session

/-- `ssh_set_channel_callbacks`. -/
def sshSetChannelCallbacks (ch : Option ChannelId) (cb : ChannelCallbacks) : ProxyM Unit :=
  whenSome ch fun ch => do
    let _ ← callWith w dispatch (.setCallbacks ch cb) fun _ s =>
      s.updateChannel ch fun c => { c with callbacks := some cb }

/-- A channel is freed; a local variable that held it is done with. -/
def Proxy.freeChannel (s : Proxy) (ch : ChannelId) : Proxy :=
  { s with
    channels := s.channels.free ch
    freed := ch :: s.freed
    locals := s.locals.erase ch }

/-- `ssh_channel_free`. -/
def sshChannelFree (ch : Option ChannelId) : ProxyM Unit :=
  whenSome ch fun ch => do
    let _ ← callWith w dispatch (.channelFree ch) fun _ s => s.freeChannel ch

/-- `ssh_channel_send_eof`. -/
def sshChannelSendEof (ch : Option ChannelId) : ProxyM Int :=
  match ch with
  | none => pure sshError
  | some ch => callWith w dispatch (.sendEof ch) fun i s =>
      if i = sshOk then s.updateChannel ch fun c => { c with eofSent := true } else s

/-- What `ssh_channel_write` returns: nothing is accepted after the end of the
stream, and never more than there is. -/
def writeResult (c : Option Channel) (answer : Int) (data : List UInt8) : Int :=
  if (c.elim true fun c => c.eofSent) then sshError
  else if answer < 0 then answer
  else min answer data.length

/-- `ssh_channel_write` and `ssh_channel_write_stderr`. -/
def sshChannelWrite (ch : Option ChannelId) (isStderr : Bool) (data : List UInt8) : ProxyM Int :=
  match ch with
  | none => pure sshError
  | some ch => do
      let c ← gets fun s => s.channels.cell ch
      let i ← callWith w dispatch (.write ch isStderr data) fun i s =>
        s.updateChannel ch fun c =>
          { c with
            accepted := Function.update c.accepted isStderr
              (c.accepted isStderr ++ data.take (writeResult (some c) i data).toNat) }
      pure (writeResult c i data)

end Interaction

/-! ## Who is called back

A channel calls back into the pair whose table it was registered with.  The pair may be
gone since then: what the channel has is a pointer. -/

/-- The channel calls back into the pair. -/
def Proxy.CallsBack (s : Proxy) (ch : ChannelId) (p : PairId) : Prop :=
  (s.channels.cell ch).bind Channel.callbacks = some (.forwardChannelCB p)

instance (s : Proxy) (ch : ChannelId) (p : PairId) : Decidable (s.CallsBack ch p) :=
  inferInstanceAs (Decidable (_ = _))

/-- What calls back into a pair in `t` did so in `s`. -/
def Forgets (s t : Proxy) : Prop := ∀ ch p, t.CallsBack ch p → s.CallsBack ch p

namespace Forgets

variable {s t : Proxy}

/-- The same channels call back into the same pairs. -/
theorem of_channels (same : t.channels = s.channels) : Forgets s t := by
  intro ch p calls
  unfold Proxy.CallsBack at calls ⊢
  rwa [same] at calls

/-- A change to a channel gives it no table of a pair that it did not have. -/
theorem updateChannel (forgets : Forgets s t) (ch : ChannelId) {f : Channel → Channel}
    (keeps : ∀ c p, (f c).callbacks = some (.forwardChannelCB p) →
      c.callbacks = some (.forwardChannelCB p)) : Forgets s (t.updateChannel ch f) := by
  intro ch' p calls
  apply forgets
  unfold Proxy.CallsBack at calls ⊢
  rw [cell_updateChannel] at calls
  split at calls
  · cases cell : t.channels.cell ch' with
    | none =>
        rw [cell] at calls
        cases calls
    | some c =>
        rw [cell] at calls
        exact keeps c p calls
  · exact calls

theorem freeChannel (forgets : Forgets s t) (ch : ChannelId) : Forgets s (t.freeChannel ch) := by
  intro ch' p calls
  apply forgets
  by_cases same : ch' = ch
  · subst same
    rw [Proxy.CallsBack, show (t.freeChannel ch').channels.cell ch' = none from
      t.channels.cell_free_self] at calls
    cases calls
  · rwa [Proxy.CallsBack, show (t.freeChannel ch).channels.cell ch' = t.channels.cell ch' from
      t.channels.cell_free_of_ne same] at calls

theorem obtain (forgets : Forgets s t) (session : SessionId) : Forgets s (t.obtain session) := by
  intro ch p calls
  apply forgets
  by_cases same : ch = t.channels.next
  · subst same
    rw [Proxy.CallsBack, show (t.obtain session).channels.cell t.channels.next = some _ from
      t.channels.cell_alloc_self] at calls
    cases calls
  · rwa [Proxy.CallsBack, show (t.obtain session).channels.cell ch = t.channels.cell ch from
      t.channels.cell_alloc_of_ne same] at calls

end Forgets

end HaasProxy
