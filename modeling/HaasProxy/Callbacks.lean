import HaasProxy.Forward

/-!
# The callbacks (`proxy.c`)

Every function the proxy registers with libssh, in the order of the source, and
`deliver`, which is libssh making one of them.  The tables of callbacks are
`trapChannelCB`, `haasChannelCB` and `forwardChannelCB`.

Many callbacks pass something on to the other side.  What they share is
`passOn` for requests and `relayData` for data.

libssh keeps what a data callback does not consume, and offers it again, with
what has arrived since, when more data arrives.

## Design notes

**One definition for a kind.**  The request callbacks of the client's channel differ in the
flag they look at, the field they set and the call they make.  `passOnOnce`, `passOnEach`
and `passNotice` have these as arguments, and each callback keeps its name and is one of
them applied to its own.  Three do something else and have bodies of their own: the window
change looks for a terminal, the subsystem request answers without passing anything on,
and the closing of a channel leaves the idle timer alone.

**Data** is offered from the buffer of the channel, all of it, and the callback says how
much it has consumed (`Channel.arrive`, `Channel.consume`).  Nothing is assumed of that
answer: one that is negative or larger than what was offered is cut to the buffer.

**Nesting.**  `dispatchWithin` runs the callbacks of an interaction with itself at a smaller
depth as the dispatcher for their calls.  At depth 0 nothing is delivered; at depth 1
callbacks come one after another.  All results are for every depth, unless they say that
they are about callbacks one after another.

**What is read when.**  The data callbacks look up the channel to write to before the write, so
what a nested callback changes meanwhile does not change where the data goes.  The session
whose mode they restore is looked up again behind it.
-/

namespace HaasProxy

open Traced

variable (w : World) (dispatch : Nat → ProxyM Unit)

/-! ## Timers

`TimerGet` computes in an `int` and may wrap; `toInt32` is where. -/

/-- A value stored in an `int`. -/
def toInt32 (x : Int) : Int := x.bmod 4294967296

/-- `gettimeofday`. -/
def gettimeofday : ProxyM Timeval := do
  let t ← nextTick
  pure (w.clock t)

/-- `TimerStart`. -/
def timerStart (sec : Int) : ProxyM Timeval := do
  let now ← gettimeofday w
  pure { now with sec := now.sec + sec }

/-- `timercmp(&Now,Timer,<)`. -/
def timerBefore (now timer : Timeval) : Bool :=
  if now.sec = timer.sec then now.usec < timer.usec else now.sec < timer.sec

/-- What `TimerGet` computes from a reading of the clock. -/
def timerLeft (timer now : Timeval) : Int :=
  if timerBefore now timer then
    let back := toInt32 timer.sec
    let back := toInt32 (back - now.sec)
    let back := toInt32 (back * 1000)
    let back := toInt32 (back + (timer.usec / 1000 : Nat))
    toInt32 (back - (now.usec / 1000 : Nat))
  else 0

/-- `TimerGet`. -/
def timerGet (timer : Timeval) : ProxyM Int := do
  let now ← gettimeofday w
  pure (timerLeft timer now)

/-- `IdleTimerReset`. -/
def idleTimerReset : ProxyM Unit := do
  let timer ← timerStart w w.config.idleTimeout
  modifyContext fun c => { c with idleTimer := timer }

/-- `IdleTimerGet`. -/
def idleTimerGet : ProxyM Int := do
  let s ← get
  timerGet w s.context.idleTimer

/-! ## Direct forwards

`TrapMessageCallback` is one long function.  It is cut at its blocks, and each piece is
named after what it is for. -/

/-- `TrapMessageCallback`, up to the reply: the channel to the destination in
`ALLOW` mode, and whether the client is to be accepted. -/
def forwardConnect (originator : CString) (originatorPort : Int) (destination : CString)
    (destinationPort : Int) : ProxyM (Option ChannelId × Bool) :=
  if w.config.forwardMode ≠ some .allow then pure (none, true)
  else do
    let s ← get
    let dst ← sshChannelNew w dispatch s.context.haasSession
    match dst with
    | none => pure (none, false)
    | some ch => do
        let i ← call w dispatch
          (.openForward ch destination destinationPort originator originatorPort)
        if i ≠ sshOk then do
          sshChannelFree w dispatch dst
          pure (dst, false)
        else pure (dst, true)

/-- `TrapMessageCallback`, the insertion of the new pair into the pool; the
answer is `Close`. -/
def forwardRegister (originator : CString) (originatorPort : Int) (destination : CString)
    (destinationPort : Int) (src dst : Option ChannelId) : ProxyM Bool := do
  let pair ← fwPairAlloc w
  let s ← get
  let index ← poolAdd w s.context.forwardPool pair
  if index ≠ -1 then do
    match pair with
    | none => stop (.fault .nullPointer)
    | some p => do
        modifyPair p fun pair => { pair with context := some .proxyProcess }
        let strdup ← allocate w .strdup
        modifyEndpoint p .source fun _ =>
          { addr := if strdup then some originator else none
            port := originatorPort
            channel := src }
        modify fun s => { s with locals := src.elim s.locals s.locals.erase }
        let strdup ← allocate w .strdup
        modifyEndpoint p .destiny fun _ =>
          { addr := if strdup then some destination else none
            port := destinationPort
            channel := dst }
        modify fun s => { s with locals := dst.elim s.locals s.locals.erase }
        sshSetChannelCallbacks w dispatch src (.forwardChannelCB p)
        when (dst ≠ none) do
          sshSetChannelCallbacks w dispatch dst (.forwardChannelCB p)
        pure false
  else do
    whenSome pair (fwPairRelease w dispatch)
    pure true

/-- `TrapMessageCallback`, the block under `if (Close)`. -/
def forwardClose (src dst : Option ChannelId) : ProxyM Unit := do
  when (dst ≠ none) do
    let s ← get
    let blocking ← sshIsBlocking s.context.haasSession
    sshSetBlocking s.context.haasSession false
    let _ ← onChannel w dispatch dst .close
    sshChannelFree w dispatch dst
    let s ← get
    sshSetBlocking s.context.haasSession blocking
  let s ← get
  let blocking ← sshIsBlocking (some s.context.trapSession)
  sshSetBlocking (some s.context.trapSession) false
  let _ ← onChannel w dispatch src fun ch => .requestSendExitStatus ch econnrefused
  let _ ← onChannel w dispatch src .close
  sshChannelFree w dispatch src
  sshSetBlocking (some s.context.trapSession) blocking

/-- `TrapMessageCallback` on a request for a direct forward. -/
def forwardOpen (originator : CString) (originatorPort : Int) (destination : CString)
    (destinationPort : Int) : ProxyM Int :=
  if w.config.forwardMode = some .deny then pure 1
  else do
    let (dst, accept) ←
      forwardConnect w dispatch originator originatorPort destination destinationPort
    let src ← (if accept then sshMessageChannelRequestOpenReplyAccept w dispatch else pure none)
    let close ←
      (if src = none ∨ w.config.forwardMode = some .fake then pure true
      else forwardRegister w dispatch originator originatorPort destination destinationPort src dst)
    when close do
      forwardClose w dispatch src dst
    pure (if accept then 0 else 1)

/-- `TrapMessageCallback`. -/
def trapMessageCallback (msg : Option Message) : ProxyM Int := do
  let back ←
    (match msg with
    | some (.directTcpip originator originatorPort destination destinationPort) =>
        forwardOpen w dispatch originator originatorPort destination destinationPort
    | _ => pure 1)
  idleTimerReset w
  pure back

/-- `HaasMessageCallback`. -/
def haasMessageCallback (_msg : Option Message) : ProxyM Int := do
  idleTimerReset w
  pure 1

/-! ## The backend -/

/-- `HaasAuthenticate`. -/
def haasAuthenticate (session : SessionId) (password : List UInt8) : ProxyM Int := do
  let ret ← call w dispatch (.userauthNone session)
  if ret = sshAuthError then pure 0
  else do
    let method ← call w dispatch (.userauthList session)
    -- Method & SSH_AUTH_METHOD_PASSWORD
    if method / 2 % 2 = 0 then pure 0
    else do
      let i ← call w dispatch (.userauthPassword session password)
      pure (if i = sshAuthSuccess then 1 else 0)

/-- `HaasConnect`.  The text of `HaasPassword` is what its pieces print; whether
it fits is the subject of `HaasProxy.Credential`. -/
def haasConnect (user password : CString) : ProxyM Int := do
  let session ← sshNew w dispatch
  match session with
  | none => pure 0
  | some session => do
      let _ ← call w dispatch (.optionsSetHost session w.config.haasAddr)
      let _ ← call w dispatch (.optionsSetPort session w.config.haasPort)
      let _ ← call w dispatch (.optionsSetTimeout session 60)
      when w.config.foreground do
        let _ ← call w dispatch (.optionsSetUser session user)
      whenSome w.config.haasLog fun level => do
        let _ ← call w dispatch (.optionsSetLog session level)
      let i ← call w dispatch (.connect session)
      let i ←
        (if i ≠ sshOk then pure 0
        else
          match w.config.haasToken with
          | none => stop (.fault .nullPointer)
          | some haasToken =>
              haasAuthenticate w dispatch session
                (Credential.pieces ⟨password, haasToken, w.sin⟩).flatten)
      if 0 < i then do
        modifyContext fun c => { c with haasSession := some session }
        pure 1
      else do
        sshDisconnectFree w dispatch session
        pure 0

/-! ## The session channel of the client

The requests and notices on `TrapChannel`, in the order of the table of callbacks. They
come in a few shapes, which are definitions of their own: passed on, passed on once, passed on each time, and passed on as a notice. -/

/-- Pass a request on to a channel, if there is one; the answer is whether it
was granted. -/
def passOn (channel : Context → Option ChannelId) (c : ChannelId → Call) : ProxyM Bool := do
  let s ← get
  match channel s.context with
  | none => pure false
  | some ch => do
      let i ← call w dispatch (c ch)
      pure (i = sshOk)

/-- A request that is passed on until it is granted once. -/
def passOnOnce (granted : Context → Bool) (grant : Context → Context) (c : ChannelId → Call) :
    ProxyM Int := do
  let s ← get
  when (¬ granted s.context) do
    let ok ← passOn w dispatch (fun c => c.haasChannel) c
    when ok (modifyContext grant)
  let s ← get
  idleTimerReset w
  pure (if granted s.context then 0 else 1)

/-- A request that is passed on to the backend each time. -/
def passOnEach (c : ChannelId → Call) : ProxyM Int := do
  let ok ← passOn w dispatch (fun c => c.haasChannel) c
  idleTimerReset w
  pure (if ok then 0 else 1)

/-- A notice that is passed on to a channel. -/
def passNotice (channel : Context → Option ChannelId) (c : ChannelId → Call) : ProxyM Unit := do
  let _ ← passOn w dispatch channel c
  idleTimerReset w

/-- `TrapChannelPtyRequest`. -/
def trapChannelPtyRequest (term : CString) (x y _px _py : Int) : ProxyM Int :=
  passOnOnce w dispatch (fun c => c.havePty) (fun c => { c with havePty := true })
    fun ch => .requestPtySize ch term x y

/-- `TrapChannelPtyWindowChange`. -/
def trapChannelPtyWindowChange (width height _pxwidth _pwheight : Int) : ProxyM Int := do
  let s ← get
  let ok ←
    (if s.context.havePty then
      passOn w dispatch (fun c => c.haasChannel) fun ch => .changePtySize ch width height
    else pure false)
  idleTimerReset w
  pure (if ok then 0 else 1)

/-- `TrapChannelShellRequest`. -/
def trapChannelShellRequest : ProxyM Int :=
  passOnOnce w dispatch (fun c => c.haveShell) (fun c => { c with haveShell := true })
    fun ch => .requestShell ch

/-- `TrapChannelExecRequest`. -/
def trapChannelExecRequest (command : CString) : ProxyM Int :=
  passOnEach w dispatch fun ch => .requestExec ch command

/-- `TrapChannelEnvRequest`. -/
def trapChannelEnvRequest (envName envValue : CString) : ProxyM Int :=
  passOnEach w dispatch fun ch => .requestEnv ch envName envValue

/-- `TrapChannelSignalCallback`. -/
def trapChannelSignalCallback (signal : CString) : ProxyM Unit :=
  passNotice w dispatch (fun c => c.haasChannel) fun ch => .requestSendSignal ch signal

/-- `TrapChannelExitSignalCallback`. -/
def trapChannelExitSignalCallback (signal : CString) (core : Int) (errMsg lang : CString) :
    ProxyM Unit :=
  passNotice w dispatch (fun c => c.haasChannel)
    fun ch => .requestSendExitSignal ch signal core errMsg lang

/-- `TrapChannelExitStatusCallback`. -/
def trapChannelExitStatusCallback (status : Int) : ProxyM Unit :=
  passNotice w dispatch (fun c => c.haasChannel) fun ch => .requestSendExitStatus ch status

/-- `TrapChannelSubsystemRequest`. -/
def trapChannelSubsystemRequest (_subsystem : CString) : ProxyM Int := do
  idleTimerReset w
  pure sshError

/-- `TrapChannelAuthAgentCallback`. -/
def trapChannelAuthAgentCallback : ProxyM Unit := idleTimerReset w

/-- `TrapChannelX11Callback`. -/
def trapChannelX11Callback : ProxyM Unit := idleTimerReset w

/-- Write to a channel with its session not blocking. -/
def writeNonblocking (session : Context → Option SessionId) (channel : Option ChannelId)
    (isStderr : Bool) (data : List UInt8) : ProxyM Int := do
  let s ← get
  let blocking ← sshIsBlocking (session s.context)
  sshSetBlocking (session s.context) false
  let back ← sshChannelWrite w dispatch channel isStderr data
  let s ← get
  sshSetBlocking (session s.context) blocking
  pure back

/-- Pass data on to the other side's channel, if there is one. -/
def relayData (session : Context → Option SessionId) (channel : Context → Option ChannelId)
    (isStderr : Bool) (data : List UInt8) : ProxyM Int := do
  let s ← get
  let back ←
    (match channel s.context with
    | none => pure sshError
    | some ch => writeNonblocking w dispatch session (some ch) isStderr data)
  idleTimerReset w
  pure back

/-- Pass the end of the stream on to the other side's channel, if there is
one. -/
def relayEof (channel : Context → Option ChannelId) : ProxyM Unit := do
  let s ← get
  whenSome (channel s.context) fun ch => do
    let _ ← sshChannelSendEof w dispatch (some ch)
  idleTimerReset w

/-- `TrapChannelDataCallback`. -/
def trapChannelDataCallback (isStderr : Bool) (data : List UInt8) : ProxyM Int :=
  relayData w dispatch (fun c => c.haasSession) (fun c => c.haasChannel) isStderr data

/-- `TrapChannelEofCallback`. -/
def trapChannelEofCallback : ProxyM Unit := relayEof w dispatch fun c => c.haasChannel

/-- `TrapChannelCloseCallback`. -/
def trapChannelCloseCallback : ProxyM Unit := modifyContext fun c => { c with closed := true }

/-! ## The session channel of the backend -/

/-- `HaasChannelSignalCallback`. -/
def haasChannelSignalCallback (signal : CString) : ProxyM Unit :=
  passNotice w dispatch (fun c => c.trapChannel) fun ch => .requestSendSignal ch signal

/-- `HaasChannelExitSignalCallback`. -/
def haasChannelExitSignalCallback (signal : CString) (core : Int) (errMsg lang : CString) :
    ProxyM Unit :=
  passNotice w dispatch (fun c => c.trapChannel)
    fun ch => .requestSendExitSignal ch signal core errMsg lang

/-- `HaasChannelExitStatusCallback`. -/
def haasChannelExitStatusCallback (status : Int) : ProxyM Unit :=
  passNotice w dispatch (fun c => c.trapChannel) fun ch => .requestSendExitStatus ch status

/-- `HaasChannelDataCallback`. -/
def haasChannelDataCallback (isStderr : Bool) (data : List UInt8) : ProxyM Int :=
  relayData w dispatch (fun c => some c.trapSession) (fun c => c.trapChannel) isStderr data

/-- `HaasChannelEofCallback`. -/
def haasChannelEofCallback : ProxyM Unit := relayEof w dispatch fun c => c.trapChannel

/-- `HaasChannelCloseCallback`. -/
def haasChannelCloseCallback : ProxyM Unit := modifyContext fun c => { c with closed := true }

/-! ## The channels of a forward -/

/-- The end of a pair that is not `channel`, and the session it belongs to. -/
def FwPair.otherEnd (pair : FwPair) (channel : ChannelId) (c : Context) :
    Option ChannelId × Option SessionId :=
  if some channel = pair.source.channel then (pair.destiny.channel, c.haasSession)
  else (pair.source.channel, some c.trapSession)

/-- `ForwardChannelDataCallback`. -/
def forwardChannelDataCallback (session : SessionId) (channel : ChannelId) (isStderr : Bool)
    (data : List UInt8) (p : PairId) : ProxyM Int := do
  let pair ← loadPair p
  match pair.context with
  | none => pure sshError
  | some _ => do
      let s ← get
      let back ←
        (match w.config.forwardMode with
        | some .allow =>
            writeNonblocking w dispatch (fun _ => (pair.otherEnd channel s.context).2)
              (pair.otherEnd channel s.context).1 isStderr data
        | some .echo =>
            writeNonblocking w dispatch (fun _ => some session) (some channel) isStderr data
        | some .null => pure data.length
        | _ => pure sshError)
      idleTimerReset w
      pure back

/-- `ForwardChannelEofCallback`. -/
def forwardChannelEofCallback (channel : ChannelId) (p : PairId) : ProxyM Unit := do
  let pair ← loadPair p
  match pair.context with
  | none => pure ()
  | some _ => do
      let s ← get
      when (w.config.forwardMode = some .allow) do
        let _ ← sshChannelSendEof w dispatch (pair.otherEnd channel s.context).1
      idleTimerReset w

/-- `ForwardChannelCloseCallback`. -/
def forwardChannelCloseCallback (p : PairId) : ProxyM Unit :=
  modifyPair p fun pair => { pair with closed := true }

/-! ## Authentication

Three of the four ways to authenticate are denied without a look at the arguments. -/

/-- `TrapAuthNone`, `TrapAuthPubkey` and `TrapAuthGssapiMic`: denied. -/
def trapAuthDenied : ProxyM Int := do
  idleTimerReset w
  pure sshAuthDenied

/-- `TrapAuthNone`. -/
def trapAuthNone (_user : CString) : ProxyM Int := trapAuthDenied w

/-- `TrapAuthPassword`. -/
def trapAuthPassword (user password : CString) : ProxyM Int := do
  let i ← haasConnect w dispatch user password
  let back ←
    (if i ≠ 0 then do
      modifyContext fun c => { c with authenticated := true }
      pure sshAuthSuccess
    else do
      modifyContext fun c => { c with retries := c.retries + 1 }
      let s ← get
      when (maxRetries ≤ s.context.retries) do
        let _ ← call w dispatch (.disconnect s.context.trapSession)
        modifyContext fun c => { c with error := true }
      pure sshAuthDenied)
  idleTimerReset w
  pure back

/-- `TrapAuthPubkey`. -/
def trapAuthPubkey (_user : CString) (_signatureState : Int) : ProxyM Int := trapAuthDenied w

/-- `TrapAuthGssapiMic`. -/
def trapAuthGssapiMic (_user _principal : CString) : ProxyM Int := trapAuthDenied w

/-- `TrapNewChannel`, closing a channel that was not handed over. -/
def closeUnused (session : Context → Option SessionId) (channel : ChannelId) : ProxyM Unit := do
  let s ← get
  let blocking ← sshIsBlocking (session s.context)
  sshSetBlocking (session s.context) false
  let _ ← call w dispatch (.close channel)
  sshChannelFree w dispatch (some channel)
  let s ← get
  sshSetBlocking (session s.context) blocking

/-- `TrapNewChannel`, once the client's channel is there: the answer is whether
both channels went to the context. -/
def openBackend (trapChannel : ChannelId) : ProxyM Bool := do
  let s ← get
  let haasChannel ← sshChannelNew w dispatch s.context.haasSession
  match haasChannel with
  | none => pure false
  | some haasChannel => do
      let i ← call w dispatch (.openSession haasChannel)
      if i ≠ sshOk then do
        closeUnused w dispatch (fun c => c.haasSession) haasChannel
        pure false
      else do
        sshSetChannelCallbacks w dispatch (some trapChannel) .trapChannelCB
        sshSetChannelCallbacks w dispatch (some haasChannel) .haasChannelCB
        modify fun s =>
          { s with
            context := { s.context with
              trapChannel := some trapChannel
              haasChannel := some haasChannel }
            locals := (s.locals.erase trapChannel).erase haasChannel }
        pure true

/-- `TrapNewChannel`. -/
def trapNewChannel : ProxyM (Option ChannelId) := do
  let s ← get
  when (s.context.trapChannel = none) do
    let trapChannel ← sshChannelNew w dispatch (some s.context.trapSession)
    whenSome trapChannel fun trapChannel => do
      let kept ← openBackend w dispatch trapChannel
      when (¬ kept) do
        closeUnused w dispatch (fun c => some c.trapSession) trapChannel
  let s ← get
  idleTimerReset w
  pure s.context.trapChannel

/-- `TrapServiceRequest`; the message it would answer is always `NULL`. -/
def trapServiceRequest (_service : CString) : ProxyM Int := do
  idleTimerReset w
  pure 0

/-! ## libssh makes a callback

Which function is called is decided by the table that the channel has at that moment, and
not by the one it had when the event arrived. -/

/-- A callback without an answer. -/
def answerless (m : ProxyM Unit) : ProxyM Int := do
  m
  pure 0

/-- The function a table of channel callbacks has for an event.  A data callback
is offered all that is buffered. -/
def channelCallback (ch : ChannelId) (c : Channel) (table : ChannelCallbacks)
    (event : ChannelEvent) : Option (ProxyM Int) :=
  match table, event with
  | .trapChannelCB, .ptyRequest term x y px py =>
      some (trapChannelPtyRequest w dispatch term x y px py)
  | .trapChannelCB, .ptyWindowChange width height pxwidth pxheight =>
      some (trapChannelPtyWindowChange w dispatch width height pxwidth pxheight)
  | .trapChannelCB, .shellRequest => some (trapChannelShellRequest w dispatch)
  | .trapChannelCB, .execRequest command => some (trapChannelExecRequest w dispatch command)
  | .trapChannelCB, .envRequest envName envValue =>
      some (trapChannelEnvRequest w dispatch envName envValue)
  | .trapChannelCB, .subsystemRequest subsystem => some (trapChannelSubsystemRequest w subsystem)
  | .trapChannelCB, .authAgent => some (answerless (trapChannelAuthAgentCallback w))
  | .trapChannelCB, .x11 .. => some (answerless (trapChannelX11Callback w))
  | .trapChannelCB, .signal signal =>
      some (answerless (trapChannelSignalCallback w dispatch signal))
  | .trapChannelCB, .exitSignal signal core errMsg lang =>
      some (answerless (trapChannelExitSignalCallback w dispatch signal core errMsg lang))
  | .trapChannelCB, .exitStatus status =>
      some (answerless (trapChannelExitStatusCallback w dispatch status))
  | .trapChannelCB, .data isStderr _ =>
      some (trapChannelDataCallback w dispatch isStderr (c.buffered isStderr))
  | .trapChannelCB, .eof => some (answerless (trapChannelEofCallback w dispatch))
  | .trapChannelCB, .close => some (answerless trapChannelCloseCallback)
  | .haasChannelCB, .signal signal =>
      some (answerless (haasChannelSignalCallback w dispatch signal))
  | .haasChannelCB, .exitSignal signal core errMsg lang =>
      some (answerless (haasChannelExitSignalCallback w dispatch signal core errMsg lang))
  | .haasChannelCB, .exitStatus status =>
      some (answerless (haasChannelExitStatusCallback w dispatch status))
  | .haasChannelCB, .data isStderr _ =>
      some (haasChannelDataCallback w dispatch isStderr (c.buffered isStderr))
  | .haasChannelCB, .eof => some (answerless (haasChannelEofCallback w dispatch))
  | .haasChannelCB, .close => some (answerless haasChannelCloseCallback)
  | .forwardChannelCB p, .data isStderr _ =>
      some (forwardChannelDataCallback w dispatch c.session ch isStderr (c.buffered isStderr) p)
  | .forwardChannelCB p, .eof => some (answerless (forwardChannelEofCallback w dispatch ch p))
  | .forwardChannelCB p, .close => some (answerless (forwardChannelCloseCallback p))
  | _, _ => none

/-- Data arrives: libssh buffers it. -/
def Channel.arrive (c : Channel) : ChannelEvent → Channel
  | .data isStderr bytes =>
      { c with
        received := Function.update c.received isStderr (c.received isStderr ++ bytes)
        buffered := Function.update c.buffered isStderr (c.buffered isStderr ++ bytes) }
  | _ => c

/-- A data callback has answered: libssh drops what was consumed. -/
def Channel.consume (c : Channel) (back : Int) : ChannelEvent → Channel
  | .data isStderr _ =>
      { c with
        buffered := Function.update c.buffered isStderr ((c.buffered isStderr).drop back.toNat) }
  | _ => c

/-- What arrives on a channel, and what is consumed of it, does not change who is called back. -/
theorem callbacks_arrive (c : Channel) (event : ChannelEvent) :
    (c.arrive event).callbacks = c.callbacks := by
  cases event <;> rfl

/-- What is taken out of a buffer does not change the table. -/
theorem callbacks_consume (c : Channel) (back : Int) (event : ChannelEvent) :
    (c.consume back event).callbacks = c.callbacks := by
  cases event <;> rfl

namespace Forgets

variable {s t : Proxy} (forgets : Forgets s t) (ch : ChannelId)

include forgets

/-- What arrives on a channel makes it call back into no other pair. -/
theorem arrive (event : ChannelEvent) : Forgets s (t.updateChannel ch fun c => c.arrive event) :=
  forgets.updateChannel ch fun c _ calls => (callbacks_arrive c event).symm.trans calls

/-- And neither does what is taken out of its buffer. -/
theorem consume (back : Int) (event : ChannelEvent) :
    Forgets s (t.updateChannel ch fun c => c.consume back event) :=
  forgets.updateChannel ch fun c _ calls => (callbacks_consume c back event).symm.trans calls

end Forgets

/-- Make a callback, and log that it is made and that it returns. -/
def logged (cb : Callback) (m : ProxyM Int) : ProxyM Int := do
  tell fun s => ⟨s, .enter cb, 0⟩
  let back ← m
  tell fun s => ⟨s, .leave cb, back⟩
  pure back

/-- Something happens on a channel. -/
def deliverChannel (ch : ChannelId) (event : ChannelEvent) : ProxyM Unit := do
  modify fun s => s.updateChannel ch fun c => c.arrive event
  let s ← get
  match s.channels.cell ch with
  | none => pure ()
  | some c =>
      match c.callbacks.bind fun table => channelCallback w dispatch ch c table event with
      | none => pure ()
      | some m => do
          let back ← logged (.channel ch event) m
          modify fun s => s.updateChannel ch fun c => c.consume back event

/-- libssh makes a callback.  The number of a channel that `TrapNewChannel`
returns is logged with one added, `NULL` being 0. -/
def deliver (cb : Callback) : ProxyM Unit :=
  match cb with
  | .channel ch event => deliverChannel w dispatch ch event
  | _ => do
      let _ ← logged cb (match cb with
        | .authNone user => trapAuthNone w user
        | .authPassword user password => trapAuthPassword w dispatch user password
        | .authPubkey user signatureState => trapAuthPubkey w user signatureState
        | .authGssapiMic user principal => trapAuthGssapiMic w user principal
        | .serviceRequest service => trapServiceRequest w service
        | .newChannel => do
            let ch ← trapNewChannel w dispatch
            pure (ch.elim 0 fun ch => ch + 1)
        | .trapMessage msg => trapMessageCallback w dispatch msg
        | .haasMessage msg => haasMessageCallback w msg
        | .channel .. => pure 0)

/-- **The dispatcher**: libssh makes the callbacks of an interaction, and these
may be interrupted in turn, up to a depth. -/
def dispatchWithin : Nat → Nat → ProxyM Unit
  | 0, _ => pure ()
  | depth + 1, t => each (w.callbacks t) (deliver w (dispatchWithin depth))

end HaasProxy
