import HaasProxy.Callbacks

/-!
# `ProxyProcess` (`proxy.c`)

One client from the key exchange to the end of its session: the loop that waits
for the login and the channel, the loop that relays, and the teardown.  The
loops run at most `fuel` times; a run that needs more stops as exhausted.

The client's session is number 0.

## Design notes

* A test of `ShouldStop` is an interaction: a signal handler may have set it, so it may
  answer differently each time.
* The tests in front of the relaying loop are made again behind the first loop, as in the
  source.  A signal between the two is a run in which a client that has logged in is not
  served.
* The first loop distinguishes why it ends (`Error`), the second one does not: nobody looks
  at `Error` behind it.
* The teardown is not interrupted by anything but callbacks.  It looks at the context again
  for each of the things that it gives back.

That the fuel does not matter is the subject of `HaasProxy.Ending`.  Elsewhere a run that
stops as exhausted is a run of which only the log so far is spoken of.
-/

namespace HaasProxy

open Traced

/-- The context before the key exchange, and a libssh that holds nothing but
the client's session. -/
def Proxy.initial : Proxy where
  context :=
    { trapSession := 0
      trapChannel := none
      retries := 0
      error := false
      authenticated := false
      closed := false
      havePty := false
      haveShell := false
      idleTimer := ⟨0, 0⟩
      sessionTimer := ⟨0, 0⟩
      haasSession := none
      haasChannel := none
      forwardPool := none }
  pairs := Heap.empty
  pools := Heap.empty
  channels := Heap.empty
  freed := []
  sessions := 1
  blocking := fun _ => true
  tick := 0
  locals := []
  releasing := []
  stage := .keyExchange

variable (w : World) (dispatch : Nat → ProxyM Unit) (fuel : Nat)

/-- A reading of `ShouldStop`. -/
def readShouldStop : ProxyM Bool := do
  let t ← nextTick
  pure (w.shouldStop t)

/-- `CheckUsage`. -/
def checkUsage : ProxyM Bool :=
  if 0 < w.config.cpuUsage then do
    let t ← nextTick
    pure ((w.usage t).elim false fun sec => sec ≤ w.config.cpuUsage)
  else pure true

/-- The time to wait that both loops compute, `none` being a timeout. -/
def waitTime : ProxyM (Option Int) := do
  let time ← idleTimerGet w
  if time = 0 then pure none
  else if 0 < w.config.sessionTimeout then do
    let s ← get
    let i ← timerGet w s.context.sessionTimer
    pure (if i = 0 then none else some (if i < time then i else time))
  else pure (some time)

/-- The first loop of `ProxyProcess`; the answer is `Error`. -/
def waitLoginStep : ProxyM (Unit ⊕ Bool) := do
  let shouldStop ← readShouldStop w
  if shouldStop then pure (.inr false)
  else do
    let usage ← checkUsage w
    if ¬ usage then pure (.inr true)
    else do
      let time ← waitTime w
      match time with
      | none => pure (.inr true)
      | some time => do
          let ret ← call w dispatch (.eventDopoll time)
          if ret = sshEintr then pure (.inl ())
          else if ret = sshError then pure (.inr true)
          else do
            let s ← get
            if s.context.closed then pure (.inr true)
            else if s.context.trapChannel ≠ none ∧ s.context.authenticated then
              pure (.inr false)
            else pure (.inl ())

/-- The second loop of `ProxyProcess`. -/
def relayStep : ProxyM (Unit ⊕ Unit) := do
  let shouldStop ← readShouldStop w
  if shouldStop then pure (.inr ())
  else do
    -- flush all pending packets ....
    let s ← get
    let _ ← onChannel w dispatch s.context.trapChannel .poll
    let s ← get
    let _ ← onChannel w dispatch s.context.haasChannel .poll
    let s ← get
    when (s.context.forwardPool ≠ none) (handleForwards w dispatch fuel)
    let s ← get
    let _ ← call w dispatch (.blockingFlush (some s.context.trapSession))
    let s ← get
    let _ ← call w dispatch (.blockingFlush s.context.haasSession)
    let time ← waitTime w
    match time with
    | none => pure (.inr ())
    | some time => do
        let ret ← call w dispatch (.eventDopoll time)
        if ret = sshEintr then pure (.inl ())
        else if ret = sshError then pure (.inr ())
        else do
          let s ← get
          pure (if s.context.closed then .inr () else .inl ())

/-- Note how far `ProxyProcess` is. -/
def enterStage (stage : Stage) : ProxyM Unit := modify fun s => { s with stage := stage }

/-- The part of `ProxyProcess` between the key exchange and the teardown. -/
def serve : ProxyM Unit := do
  let s ← get
  let _ ← call w dispatch (.eventAddSession (some s.context.trapSession))
  idleTimerReset w
  when (0 < w.config.sessionTimeout) do
    let timer ← timerStart w w.config.sessionTimeout
    modifyContext fun c => { c with sessionTimer := timer }
  enterStage .login
  let error ← loop .exhausted (fun _ => waitLoginStep w dispatch) fuel ()
  when (¬ error) do
    let shouldStop ← readShouldStop w
    let s ← get
    when (¬ shouldStop ∧ s.context.trapChannel ≠ none ∧ s.context.authenticated) do
      let _ ← call w dispatch (.eventAddSession s.context.haasSession)
      idleTimerReset w
      enterStage .relay
      loop .exhausted (fun _ => relayStep w dispatch fuel) fuel ()
      let s ← get
      let _ ← call w dispatch (.eventRemoveSession s.context.haasSession)
  let s ← get
  let _ ← call w dispatch (.eventRemoveSession (some s.context.trapSession))

/-- `SessionClose`. -/
def sessionClose (session : Option SessionId) (channel : Option ChannelId) : ProxyM Unit := do
  when (channel ≠ none) do
    let isOpen ← onChannel w dispatch channel .isOpen
    when (isOpen ≠ 0) do
      let _ ← onChannel w dispatch channel .setBlocking
      let _ ← sshChannelSendEof w dispatch channel
      let _ ← onChannel w dispatch channel .close
    sshChannelFree w dispatch channel
  whenSome session (sshDisconnectFree w dispatch)

/-- The end of `ProxyProcess`. -/
def teardown : ProxyM Unit := do
  enterStage .teardown
  let s ← get
  when (s.context.forwardPool ≠ none) do
    fwPoolDone w dispatch fuel s.context.forwardPool
  let s ← get
  sessionClose w dispatch s.context.haasSession s.context.haasChannel
  let s ← get
  sessionClose w dispatch (some s.context.trapSession) s.context.trapChannel

/-- `ProxyProcess`. -/
def proxyProcess : ProxyM Unit := do
  when (w.config.forwardMode ≠ some .deny ∧ w.config.forwardMode ≠ some .fake) do
    let pool ← poolInit w
    modifyContext fun c => { c with forwardPool := pool }
  let s ← get
  let i ← call w dispatch (.handleKeyExchange s.context.trapSession)
  when (i = sshOk) do
    serve w dispatch fuel
  teardown w dispatch fuel

/-- A run of `ProxyProcess` in a world, with callbacks nested up to a depth. -/
def proxyRun (depth : Nat) : Run Entry Stop Proxy Unit :=
  proxyProcess w (dispatchWithin w depth) fuel Proxy.initial

/-- A world that answers 0 and delivers nothing, but for what is listed by the
number of the interaction. -/
def World.scripted (forwardMode : ForwardMode) (answers : List (Nat × Int))
    (deliveries : List (Nat × List Callback)) : World where
  config :=
    { configInit with
      forwardMode := some forwardMode
      idleTimeout := 30
      haasToken := some ⟨ascii "-", by decide⟩ }
  sin := ⟨(192, 0, 2, 1), 0xC0, 0x00⟩
  answer t := (answers.lookup t).getD 0
  callbacks t := (deliveries.lookup t).getD []
  clock _ := ⟨100, 0⟩
  usage _ := none
  granted _ := true
  shouldStop _ := false

/-- A text for tests. -/
def CString.root : CString := ⟨ascii "root", by decide⟩

/-- A password. -/
def somePassword : Callback := .authPassword .root .root

/-- The client's login with a password, and its session channel. -/
def loginAndChannel : List Callback := [somePassword, .newChannel]

/-- A request for a direct forward. -/
def requestForward : Callback := .trapMessage (some (.directTcpip .root 1025 .root 80))

end HaasProxy
