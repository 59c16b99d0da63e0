import HaasProxy.ConfigParse
import HaasProxy.Lib.Family
import HaasProxy.Master
import HaasProxy.Process

/-!
# The program and its processes (`main.c`)

`main` from the command line to its end, as the processes see it that come of it: the
one that was started, the ones `daemonize` leaves behind, and the children that serve
the clients.  Each takes its elementary steps, one system call or one test at a time,
with what the call answers as the label of the step, and in any order with the steps
of the others.  The loop is the machine of `Master`, and `ProxyProcess` is `proxyRun`.

A process has a descriptor table.  A call that opens a descriptor answers one that was
free; descriptors that libraries keep for themselves, as `syslog` does, are not in the
table.  Signals run `SigHandler` in any process at any moment, and any process may be
killed.

`errno` is not followed outside of the loop, where only messages are made of it.

## Design notes

* A process that forks goes on as the parent, and the child is a new process with the same
  variables, as `fork()` has it.  What a child changes of its copy is the difference of the
  two: it has no children of its own (`clientChild`).
* The parent of a daemon has nothing left to do.  Its `role` says so, since the same place
  of `main` would otherwise look like that of a process that has failed.
* `ProxyProcess` is one step of the child, labelled with the world it runs in.  Nothing of
  what it does is visible to the other processes, and it opens no descriptor that the
  program closes.
* The loop is not written a second time.  `loopStep` takes the step of the machine
  `master` and adds what that machine leaves out, the descriptors of the connection.
-/

namespace HaasProxy

/-! ## Descriptors

What a descriptor stands for, and how far the socket behind it was set up. -/

/-- How far `CreateTCPServer` has got with its socket. -/
inductive ServerSocket where
  /-- `socket()`. -/
  | created
  /-- `SO_REUSEADDR` is set. -/
  | reusable
  /-- `bind()` to the port. -/
  | bound (port : Int)
  /-- `listen()`. -/
  | listening (port : Int)
  deriving DecidableEq

/-- What a descriptor stands for. -/
inductive File where
  /-- What the program was started with, under this descriptor. -/
  | inherited (descriptor : Nat)
  /-- `/dev/null`. -/
  | devNull
  /-- The socket of `CreateTCPServer`. -/
  | server (socket : ServerSocket)
  /-- A connection that was accepted, by its number. -/
  | client (connection : Nat)
  deriving DecidableEq

/-- A descriptor table. -/
abbrev Files := Nat → Option File

namespace Files

/-- The descriptor now stands for the file. -/
def put (files : Files) (descriptor : Nat) (file : File) : Files :=
  Function.update files descriptor (some file)

/-- `close`, which fails and changes nothing where nothing is open. -/
def close (files : Files) (descriptor : Nat) : Files :=
  Function.update files descriptor none

/-- `dup2`. -/
def dup2 (files : Files) (old new : Nat) : Files :=
  match files old with
  | none => files
  | some file => files.put new file

end Files

/-! ## Processes

A process is at a place of `main`, in the role of the parent or of a child, and knows what
it has read and opened. -/

/-- Where a process stands in `main`. -/
inductive Place where
  | parse
  | nice
  -- `daemonize`
  | fork1
  | setsid
  | fork2
  | chdir
  | openNull
  | dupNull (handle i : Nat)
  | closeNull (handle : Nat)
  -- `CreateTCPServer`
  | socket
  | reuseAddr (socket : Nat)
  | bind (socket : Nat)
  | listen (socket : Nat)
  | closeSocket (socket : Nat)
  -- the loop, and what comes behind it
  | loop
  | closeMaster
  -- the child of a client
  | childCloseMaster
  | proxyProcess
  | childClose
  /-- With what `main` returned, or without. -/
  | ended (code : Option Nat)
  deriving DecidableEq

/-- What a process has become. -/
inductive Role where
  /-- It does what the program is there for. -/
  | main
  /-- It has left that to its child, in `daemonize`. -/
  | left
  /-- It serves a connection. -/
  | client (connection : Nat)
  deriving DecidableEq

/-- The variables of `main` in a process; `none` is `-1`, or not set. -/
structure Process where
  place : Place
  config : Config
  files : Files
  masterSock : Option Nat
  childSock : Option Nat
  sin : Option SockAddrIn
  /-- The variables of the loop and of `SigHandler`. -/
  master : Master
  /-- Ghost: what the process is there for. -/
  role : Role
  /-- Ghost: the descriptors that are not those of its sockets. -/
  base : Files
  /-- Ghost: the connection that was accepted last. -/
  connection : Nat

/-- The process that is started with these descriptors. -/
def Process.initial (files : Files) : Process where
  place := .parse
  config := configInit
  files := files
  masterSock := none
  childSock := none
  sin := none
  master := .initial
  role := .main
  base := files
  connection := 0

/-- What the system call answers that a process waits for. -/
inductive Reply where
  | done
  | failed
  | value (i : Int)
  | opened (descriptor : Nat)
  | forked
  | accepted (descriptor : Nat) (sin : SockAddrIn)
  /-- Any other answer in the loop. -/
  | loop (outcome : Outcome)
  /-- `ProxyProcess` comes to its end, and leaves these descriptors. -/
  | returned (w : World) (fuel depth : Nat) (files : Files)
  /-- `ProxyProcess` accesses memory that it must not. -/
  | faulted (w : World) (fuel depth : Nat)

/-- What the loop gets to know of it. -/
def Reply.outcome : Reply → Option Outcome
  | accepted _ _ => some .accepted
  | forked => some .forked
  | loop .accepted => none
  | loop .forked => none
  | loop outcome => some outcome
  | _ => none

namespace Process

/-! ## Up to the loop

One clause for each system call and each of its answers, in the order of the source. -/

/-- `return` in `main`, behind `qdone()`. -/
def leave (p : Process) (code : Nat) : Process := { p with place := .ended (some code) }

/-- `if (!Config.Foreground)` -/
def afterNice (p : Process) : Process :=
  { p with place := if p.config.foreground then .socket else .fork1 }

/-- What `fork()` makes of the parent in `daemonize`. -/
def leftBehind (p : Process) : Process := { p.leave 0 with role := .left }

/-- `daemonize` and `CreateTCPServer`, and what is in front of them; the second process
is the child. -/
def startup (answers : List GetoptAnswer) (operands : Bool) (p : Process) :
    Place → Reply → Option (Process × Option Process)
  -- if (!ConfigParse(argc,argv,&Config)) Back=1; if (Config.WantHelp) Work=0;
  | .parse, .done =>
      let (config, back) := configParse answers operands configInit
      let p := { p with config := config }
      if back = false then some (p.leave 1, none)
      else if config.wantHelp then some (p.leave 0, none)
      else if config.processNice ≠ -1 then some ({ p with place := .nice }, none)
      else some (p.afterNice, none)
  -- if (nice(Config.ProcessNice)!=Config.ProcessNice) Back=1;
  | .nice, .value i => some (if i ≠ p.config.processNice then p.leave 1 else p.afterNice, none)
  | .fork1, .failed => some (p.leave 0, none)
  | .fork1, .forked => some (p.leftBehind, some { p with place := .setsid })
  | .setsid, .failed => some (p.leave 0, none)
  | .setsid, .done => some ({ p with place := .fork2 }, none)
  | .fork2, .failed => some (p.leave 0, none)
  | .fork2, .forked => some (p.leftBehind, some { p with place := .chdir })
  | .chdir, .failed => some (p.leave 0, none)
  | .chdir, .done => some ({ p with place := .openNull }, none)
  -- Handle=open("/dev/null",O_RDWR);
  | .openNull, .failed => some (p.leave 0, none)
  | .openNull, .opened handle =>
      if p.files handle = none then
        some ({ p with place := .dupNull handle 0, files := p.files.put handle .devNull }, none)
      else none
  -- for (i=0;i<3;i++) dup2(Handle,i);
  | .dupNull handle i, .done =>
      some ({ p with
        place := if i + 1 < 3 then .dupNull handle (i + 1) else .closeNull handle
        files := p.files.dup2 handle i }, none)
  | .closeNull handle, .done =>
      let files := p.files.close handle
      some ({ p with place := .socket, files := files, base := files }, none)
  -- if (MasterSock<0) Back=2;
  | .socket, .failed => some (p.leave 2, none)
  | .socket, .opened socket =>
      if p.files socket = none then
        some ({ p with
          place := .reuseAddr socket
          files := p.files.put socket (.server .created) }, none)
      else none
  | .reuseAddr socket, .failed | .bind socket, .failed | .listen socket, .failed =>
      some ({ p with place := .closeSocket socket }, none)
  | .reuseAddr socket, .done =>
      some ({ p with
        place := .bind socket
        files := p.files.put socket (.server .reusable) }, none)
  -- Sin.sin_port=htons(Port);
  | .bind socket, .done =>
      some ({ p with
        place := .listen socket
        files := p.files.put socket (.server (.bound (p.config.trapPort % 65536))) }, none)
  | .listen socket, .done =>
      some ({ p with
        place := .loop
        files := p.files.put socket (.server (.listening (p.config.trapPort % 65536)))
        masterSock := some socket }, none)
  | .closeSocket socket, .done => some ({ p.leave 2 with files := p.files.close socket }, none)
  | _, _ => none

/-! ## The loop -/

/-- `close(ChildSock)` -/
def closeChildSock (p : Process) : Process :=
  { p with files := p.childSock.elim p.files p.files.close }

/-- `close(MasterSock)` -/
def closeMasterSock (p : Process) : Process :=
  { p with files := p.masterSock.elim p.files p.files.close, masterSock := none }

/-- What `fork()` makes of the child of a client: it has no children itself. -/
def clientChild (p : Process) : Process :=
  { p with
    place := .childCloseMaster
    role := .client p.connection
    master := { p.master with running := 0, zombies := 0 } }

/-- The loop was left, or goes on. -/
def placeOf : Pc → Place
  | .exited _ => .closeMaster
  | _ => .loop

/-- A step of the loop: `mainStep`, and what becomes of `ChildSock`. -/
def loopStep (connections : List SockAddrIn) (p : Process) (reply : Reply) :
    Option (List SockAddrIn × Process × Option Process) := do
  let outcome ← reply.outcome
  let master ← p.master.mainStep p.config p.master.pc outcome
  let next := { p with master := master, place := placeOf master.pc }
  match p.master.pc, reply with
  | .accept _, .accepted descriptor sin =>
      if p.files descriptor = none then
        some (connections ++ [sin],
          { next with
            files := p.files.put descriptor (.client connections.length)
            childSock := some descriptor
            sin := some sin
            connection := connections.length },
          none)
      else none
  | .admission _, _ =>
      some (connections,
        if p.master.childCount ≥ p.config.connLimit then next.closeChildSock else next, none)
  | .fork _, .forked => some (connections, next, some p.clientChild)
  | .fork _, _ => some (connections, next.closeChildSock, none)
  | .countChild _, _ => some (connections, next.closeChildSock, none)
  | _, _ => some (connections, next, none)

/-! ## Behind the loop, and the child of a client -/

/-- What is outside the proxy, for the process of a client. -/
def world (p : Process) (w : World) (sin : SockAddrIn) : World :=
  { w with config := p.config, sin := sin }

def lastStep (p : Process) : Place → Reply → Option Process
  | .closeMaster, .done => some (p.closeMasterSock.leave 0)
  | .childCloseMaster, .done => some { p.closeMasterSock with place := .proxyProcess }
  -- ProxyProcess(ChildSock,&Sin,&Config);
  | .proxyProcess, .returned w fuel depth files => do
      let sin ← p.sin
      match (proxyRun (p.world w sin) fuel depth).value with
      | .ok () => some { p with place := .childClose, files := files }
      | .error _ => none
  | .proxyProcess, .faulted w fuel depth => do
      let sin ← p.sin
      match (proxyRun (p.world w sin) fuel depth).value with
      | .error (.fault _) => some { p with place := .ended none }
      | _ => none
  | .childClose, .done => some (p.closeChildSock.leave 0)
  | _, _ => none

/-! ## A step of a process -/

/-- What can happen to a process next. -/
inductive Event where
  /-- It takes its next elementary step. -/
  | go (reply : Reply)
  /-- A signal is delivered and `SigHandler` runs. -/
  | signal (sig : Signal)
  /-- It is killed. -/
  | kill

def step (answers : List GetoptAnswer) (operands : Bool) (connections : List SockAddrIn)
    (p : Process) : Event → Option (List SockAddrIn × Process × Option Process)
  | .go reply =>
      match p.place with
      | .loop => p.loopStep connections reply
      | .closeMaster | .childCloseMaster | .proxyProcess | .childClose =>
          (p.lastStep p.place reply).map fun p' => (connections, p', none)
      | place => (p.startup answers operands place reply).map fun next => (connections, next)
  | .signal sig => do
      let master ← p.master.step p.config (.signal sig)
      some (connections, { p with master := master }, none)
  | .kill => some (connections, { p with place := .ended none }, none)

/-- The kernel tells the parent of a client's process that it has ended. -/
def bereave (child p : Process) : Process :=
  match child.role with
  | .client _ => { p with master := (p.master.step p.config .childExit).getD p.master }
  | _ => p

/-- It takes no more steps. -/
def hasEnded (p : Process) : Bool :=
  match p.place with
  | .ended _ => true
  | _ => false

end Process

/-- The processes of the program; what they share are the connections that were accepted. -/
def processes (answers : List GetoptAnswer) (operands : Bool) :
    Breed (List SockAddrIn) Process Process.Event where
  step := Process.step answers operands
  ended := Process.hasEnded
  bereave := Process.bereave

/-- **The program**, from its command line and the descriptors it is started with. -/
def program (answers : List GetoptAnswer) (operands : Bool) (files : Files) :
    Machine (Family (List SockAddrIn) Process) (Nat × Process.Event) :=
  (processes answers operands).family [] (.initial files)

end HaasProxy
