import HaasProxy.ProgramSteps

/-!
# What the processes hold open (`main.c`)

What the descriptor table of a process is, at every place of `main`: `Process.Tabled`.
Besides what it was started with, or `/dev/null` in a daemon, the main process holds the
listening socket, and a connection only between `accept()` and the `close(ChildSock)`
behind `fork()`.  The child of a client holds this client's connection and nothing else
when it enters `ProxyProcess`.

## Design notes

The table is given exactly, as a function of the place, and not by what it must contain.
A descriptor that is left open somewhere would be in the table and not in the function.

* A descriptor that was opened is closed again before the place at which the table has
  forgotten it: `close_put` says that this restores the table, because the descriptor was
  free.
* `daemonize` duplicates `/dev/null` over the first three descriptors one after another, and
  the one that it was opened as may be one of them.  `duplicated` is the table in between.
* Each child inherits the table at the moment of the `fork()`.  It holds the listening
  socket too until it has closed it, which is its first step.
-/

namespace HaasProxy

namespace Process

/-! ## Tables

The descriptors a process has at each place of `main`, as equations: the ones it was
started with, with those that were opened since put in. -/

/-- In the loop of `daemonize`, `/dev/null` being open as `handle`. -/
def duplicated (start : Files) (handle i : Nat) : Files :=
  fun j => if j < i ∨ j = handle then some .devNull else start j

/-- What a daemon keeps. -/
def daemonBase (start : Files) (handle : Nat) : Files := (duplicated start handle 3).close handle

/-- The descriptors a process has when it is about to open its socket. -/
def Settled (start : Files) (p : Process) : Prop :=
  if p.config.foreground then p.base = start
  else ∃ handle, start handle = none ∧ p.base = daemonBase start handle

/-- The main process in front of its loop. -/
structure Fresh (p : Process) : Prop where
  role : p.role = .main
  pc : p.master.pc = .whileTest
  /-- It has no children. -/
  running : p.master.running = 0

/-- Besides its base a process holds a socket. -/
structure Opens (p : Process) (socket : Nat) (state : ServerSocket) : Prop where
  free : p.base socket = none
  /-- It has this one descriptor more. -/
  files : p.files = p.base.put socket (.server state)

/-- The base and the listening socket. -/
def listens (p : Process) (socket : Nat) : Files :=
  p.base.put socket (.server (.listening (p.config.trapPort % 65536)))

/-- Besides its own a process holds the connection that was accepted last. -/
structure HoldsClient (connections : List SockAddrIn) (own : Files) (p : Process) : Prop where
  /-- Its descriptor is not one of its own. -/
  held : ∃ descriptor, p.childSock = some descriptor ∧ own descriptor = none ∧
    p.files = own.put descriptor (.client p.connection)
  /-- `Sin` is who has connected. -/
  peer : ∃ sin, connections[p.connection]? = some sin ∧ p.sin = some sin

/-- **The table of a process**, by its place. -/
def Tabled (start : Files) (connections : List SockAddrIn) (p : Process) : Prop :=
  match p.place with
  | .parse | .nice => p.Fresh ∧ p.base = start ∧ p.files = start
  | .fork1 | .setsid | .fork2 | .chdir | .openNull =>
      p.Fresh ∧ p.base = start ∧ p.files = start ∧ p.config.foreground = false
  | .dupNull handle i =>
      p.Fresh ∧ p.base = start ∧ start handle = none ∧ p.config.foreground = false ∧ i < 3 ∧
        p.files = duplicated start handle i
  | .closeNull handle =>
      p.Fresh ∧ p.base = start ∧ start handle = none ∧ p.config.foreground = false ∧
        p.files = duplicated start handle 3
  | .socket => p.Fresh ∧ p.Settled start ∧ p.files = p.base
  | .reuseAddr socket => p.Fresh ∧ p.Settled start ∧ p.Opens socket .created
  | .bind socket => p.Fresh ∧ p.Settled start ∧ p.Opens socket .reusable
  | .listen socket =>
      p.Fresh ∧ p.Settled start ∧ p.Opens socket (.bound (p.config.trapPort % 65536))
  | .closeSocket socket => p.Fresh ∧ p.Settled start ∧ ∃ state, p.Opens socket state
  | .loop =>
      p.role = .main ∧ p.Settled start ∧ ∃ socket, p.masterSock = some socket ∧
        p.base socket = none ∧
        (holdsClient p.master.pc = true → p.HoldsClient connections (p.listens socket)) ∧
        (holdsClient p.master.pc = false → p.files = p.listens socket)
  | .closeMaster =>
      p.role = .main ∧ p.Settled start ∧ ∃ socket, p.masterSock = some socket ∧
        p.base socket = none ∧ p.files = p.listens socket
  | .childCloseMaster =>
      p.role = .client p.connection ∧ p.Settled start ∧ ∃ socket, p.masterSock = some socket ∧
        p.base socket = none ∧ p.HoldsClient connections (p.listens socket)
  | .proxyProcess =>
      p.role = .client p.connection ∧ p.Settled start ∧ p.masterSock = none ∧
        p.HoldsClient connections p.base
  | .childClose => p.role = .client p.connection
  | .ended code => code ≠ none → (∀ connection, p.role ≠ .client connection) → p.files = p.base

variable {answers : List GetoptAnswer} {operands : Bool} {start : Files}
variable {connections connections' : List SockAddrIn}
variable {p p' : Process} {child : Option Process} {reply : Reply} {place : Place}

/-- At first there are the descriptors that the program was started with. -/
theorem tabled_initial (start : Files) : (initial start).Tabled start [] :=
  ⟨⟨rfl, rfl, rfl⟩, rfl, rfl⟩

/-! ## Closing and duplicating -/

theorem put_put (files : Files) (descriptor : Nat) (file file' : File) :
    (files.put descriptor file).put descriptor file' = files.put descriptor file' :=
  Function.update_idem _ _ _

/-- What was opened is closed again. -/
theorem close_put {files : Files} {descriptor : Nat} (free : files descriptor = none)
    (file : File) :
    (files.put descriptor file).close descriptor = files := by
  rw [Files.put, Files.close, Function.update_idem, ← free, Function.update_eq_self]

private theorem close_put_ne {files : Files} {descriptor other : Nat} (ne : other ≠ descriptor)
    (file : File) :
    (files.put descriptor file).close other = (files.close other).put descriptor file :=
  Function.update_comm ne.symm _ _ _

/-- Before the loop of `daemonize` nothing is duplicated. -/
private theorem duplicated_zero (start : Files) (handle : Nat) :
    start.put handle .devNull = duplicated start handle 0 := by
  funext j
  by_cases own : j = handle
  · subst own
    simp [Files.put, duplicated]
  · simp [Files.put, duplicated, own]

/-- Each round of the loop of `daemonize` duplicates one more. -/
theorem dup2_duplicated (start : Files) (handle i : Nat) :
    (duplicated start handle i).dup2 handle i = duplicated start handle (i + 1) := by
  funext j
  have opened : duplicated start handle i handle = some .devNull := by simp [duplicated]
  rw [Files.dup2, opened]
  by_cases own : j = i
  · subst own
    simp [Files.put, duplicated]
  · have less : j < i + 1 ↔ j < i := by omega
    simp [Files.put, duplicated, own, less]

/-! ## One step

By groups of places: up to the loop there are three, and the loop and what is behind it
follow the lemmas of `HaasProxy.ProgramSteps`. -/

/-- It depends on the master by three facts only. -/
theorem Tabled.withMaster (h : p.Tabled start connections) {master : Master}
    (pc : p.master.pc = .whileTest → master.pc = .whileTest)
    (running : p.master.running = 0 → master.running = 0)
    (holds : holdsClient master.pc = holdsClient p.master.pc) :
    Tabled start connections { p with master := master } := by
  have fresh {place : Place} (h : p.Fresh) : Fresh { p with place := place, master := master } :=
    ⟨h.role, pc h.pc, running h.running⟩
  unfold Tabled at h ⊢
  cases here : p.place <;> simp only [here] at h ⊢
  case loop =>
    obtain ⟨role, settled, socket, sock, free, held, bare⟩ := h
    rw [holds]
    exact ⟨role, settled, socket, sock, free, fun on => ⟨(held on).held, (held on).peer⟩, bare⟩
  case childCloseMaster =>
    obtain ⟨role, settled, socket, sock, free, held⟩ := h
    exact ⟨role, settled, socket, sock, free, held.held, held.peer⟩
  case proxyProcess =>
    obtain ⟨role, settled, closed, held⟩ := h
    exact ⟨role, settled, closed, held.held, held.peer⟩
  case closeMaster | childClose | ended => exact h
  case reuseAddr | bind | listen =>
    obtain ⟨h, settled, opened⟩ := h
    exact ⟨fresh h, settled, opened.free, opened.files⟩
  case closeSocket =>
    obtain ⟨h, settled, state, opened⟩ := h
    exact ⟨fresh h, settled, state, opened.free, opened.files⟩
  all_goals exact ⟨fresh h.1, h.2⟩

/-- A signal does not touch a table. -/
theorem Tabled.signal {sig : Signal} (h : p.Tabled start connections) {master : Master}
    (step : p.master.step p.config (.signal sig) = some master) :
    Tabled start connections { p with master := master } := by
  obtain ⟨pc, -, -, -, -, running, -⟩ := sigHandler_spec sig p.master
  simp only [Master.step] at step
  split at step
  case isTrue blocked =>
    cases step
    refine h.withMaster ?_ ?_ ?_
    · intro idle
      cases blocked.symm.trans idle
    · exact fun none => running.trans none
    · rw [blocked]
      rfl
  case isFalse =>
    cases step
    refine h.withMaster ?_ ?_ ?_
    · exact fun idle => pc.trans idle
    · exact fun none => running.trans none
    · rw [pc]

theorem Tabled.bereave (h : p.Tabled start connections) (c : Process) :
    (bereave c p).Tabled start connections := by
  unfold Process.bereave
  split
  · refine h.withMaster ?_ ?_ ?_ <;> simp only [Master.step] <;> split_ifs <;> simp_all
  · exact h

/-- Nobody loses a connection by those that are accepted later. -/
theorem Tabled.mono (h : p.Tabled start connections) (more : List SockAddrIn) :
    p.Tabled start (connections ++ more) := by
  have holds {own : Files} (h : p.HoldsClient connections own) :
      p.HoldsClient (connections ++ more) own := by
    obtain ⟨held, sin, at_, peer⟩ := h
    exact ⟨held, sin, List.getElem?_append_left (List.getElem?_eq_some_iff.mp at_).1 ▸ at_, peer⟩
  unfold Tabled at h ⊢
  cases here : p.place <;> simp only [here] at h ⊢
  case loop =>
    obtain ⟨role, settled, socket, sock, free, held, bare⟩ := h
    exact ⟨role, settled, socket, sock, free, fun on => holds (held on), bare⟩
  case childCloseMaster =>
    obtain ⟨role, settled, socket, sock, free, held⟩ := h
    exact ⟨role, settled, socket, sock, free, holds held⟩
  case proxyProcess =>
    obtain ⟨role, settled, closed, held⟩ := h
    exact ⟨role, settled, closed, holds held⟩
  all_goals exact h

/-- `main` returns, holding what it held. -/
theorem tabled_ended {code : Option Nat} (ended : p.place = .ended code) (held : p.files = p.base) :
    p.Tabled start connections := by
  simp only [Tabled, ended]
  exact fun _ _ => held

/-- Whether it goes on in the foreground or not, no descriptor was opened so far. -/
theorem tabled_afterNice (fresh : p.Fresh) (base : p.base = start) (files : p.files = start) :
    p.afterNice.Tabled start connections := by
  by_cases foreground : p.config.foreground = true
  · simp only [afterNice, Tabled, Settled, foreground, if_true]
    exact ⟨⟨fresh.role, fresh.pc, fresh.running⟩, base, files.trans base.symm⟩
  · simp only [afterNice, Tabled, foreground]
    exact ⟨⟨fresh.role, fresh.pc, fresh.running⟩, base, files, trivial⟩

/-! ### Up to the loop

One lemma for each group of places: the configuration, the daemon, and the socket. -/

/-- The places where the command line is read and `nice` is called. -/
def configures : Place → Bool
  | .parse | .nice => true
  | _ => false

/-- The places of `daemonize`. -/
def daemonizes : Place → Bool
  | .fork1 | .setsid | .fork2 | .chdir | .openNull | .dupNull .. | .closeNull _ => true
  | _ => false

/-- The places where the listening socket is opened. -/
def opensSocket : Place → Bool
  | .socket | .reuseAddr _ | .bind _ | .listen _ | .closeSocket _ => true
  | _ => false

/-- **Reading the command line** opens nothing, whether the program goes on or returns. -/
theorem Tabled.configure (h : p.Tabled start connections) (group : configures p.place = true)
    (step : p.startup answers operands p.place reply = some (p', child)) :
    p'.Tabled start connections ∧ ∀ c ∈ child, c.Tabled start connections := by
  generalize here : p.place = place at step group
  unfold Process.startup at step
  simp only [Tabled, here] at h
  cases place <;> cases reply <;> simp only [reduceCtorEq, configures] at step group
  case parse.done =>
    obtain ⟨fresh, base, files⟩ := h
    have held : p.files = p.base := files.trans base.symm
    split_ifs at step <;> cases step <;> refine ⟨?_, fun c mem => by cases mem⟩
    · exact tabled_ended rfl held
    · exact tabled_ended rfl held
    · exact ⟨⟨fresh.role, fresh.pc, fresh.running⟩, base, files⟩
    · exact tabled_afterNice ⟨fresh.role, fresh.pc, fresh.running⟩ base files
  case nice.value i =>
    obtain ⟨fresh, base, files⟩ := h
    cases step
    refine ⟨?_, fun c mem => by cases mem⟩
    split
    · exact tabled_ended rfl (files.trans base.symm)
    · exact tabled_afterNice fresh base files

/-- **`daemonize`** replaces the first three descriptors by `/dev/null`, and closes the one it
has opened for that.  Both parents of the daemon return with what they held. -/
theorem Tabled.daemonize (h : p.Tabled start connections) (group : daemonizes p.place = true)
    (step : p.startup answers operands p.place reply = some (p', child)) :
    p'.Tabled start connections ∧ ∀ c ∈ child, c.Tabled start connections := by
  generalize here : p.place = place at step group
  unfold Process.startup at step
  simp only [Tabled, here] at h
  cases place <;> cases reply <;> simp only [reduceCtorEq, daemonizes] at step group
  -- the parent ends with the table it has, and the child starts with the same one
  case fork1.forked | fork2.forked =>
    obtain ⟨fresh, base, files, daemon⟩ := h
    cases step
    refine ⟨tabled_ended rfl (files.trans base.symm), ?_⟩
    rintro c ⟨⟩
    exact ⟨⟨fresh.role, fresh.pc, fresh.running⟩, base, files, daemon⟩
  case openNull.opened handle =>
    obtain ⟨fresh, base, files, daemon⟩ := h
    split_ifs at step with free
    cases step
    rw [files] at free
    refine ⟨?_, fun c mem => by cases mem⟩
    simp only [Tabled, files, base, free, daemon, duplicated_zero]
    exact ⟨⟨fresh.role, fresh.pc, fresh.running⟩, trivial, trivial, trivial, by omega, trivial⟩
  -- two rounds go on, and behind the third one 0, 1 and 2 are `/dev/null`
  case dupNull.done handle i =>
    obtain ⟨fresh, base, free, daemon, below, files⟩ := h
    cases step
    refine ⟨?_, fun c mem => by cases mem⟩
    by_cases more : i + 1 < 3
    · simp only [Tabled, more, if_true, files, dup2_duplicated]
      exact ⟨⟨fresh.role, fresh.pc, fresh.running⟩, base, free, daemon, trivial, trivial⟩
    · obtain rfl : i = 2 := by omega
      simp only [Tabled, more, if_false, files, dup2_duplicated]
      exact ⟨⟨fresh.role, fresh.pc, fresh.running⟩, base, free, daemon, trivial⟩
  case closeNull.done handle =>
    obtain ⟨fresh, base, free, daemon, files⟩ := h
    cases step
    refine ⟨?_, fun c mem => by cases mem⟩
    simp only [Tabled, Settled, daemon, files, Bool.false_eq_true, if_false]
    exact ⟨⟨fresh.role, fresh.pc, fresh.running⟩, ⟨handle, free, rfl⟩, trivial⟩
  case fork1.failed | setsid.failed | fork2.failed | chdir.failed | openNull.failed =>
    obtain ⟨fresh, base, files, daemon⟩ := h
    cases step
    exact ⟨tabled_ended rfl (files.trans base.symm), fun c mem => by cases mem⟩
  case setsid.done | chdir.done =>
    obtain ⟨fresh, base, files, daemon⟩ := h
    cases step
    refine ⟨?_, fun c mem => by cases mem⟩
    exact ⟨⟨fresh.role, fresh.pc, fresh.running⟩, base, files, daemon⟩

/-- **The socket is opened**, and closed again if it cannot be bound or listened on. -/
theorem Tabled.openSocket (h : p.Tabled start connections) (group : opensSocket p.place = true)
    (step : p.startup answers operands p.place reply = some (p', child)) :
    p'.Tabled start connections ∧ ∀ c ∈ child, c.Tabled start connections := by
  generalize here : p.place = place at step group
  unfold Process.startup at step
  simp only [Tabled, here] at h
  cases place <;> cases reply <;> simp only [reduceCtorEq, opensSocket] at step group
  case socket.opened socket =>
    obtain ⟨fresh, settled, files⟩ := h
    split_ifs at step with free
    cases step
    refine ⟨?_, fun c mem => by cases mem⟩
    exact ⟨⟨fresh.role, fresh.pc, fresh.running⟩, settled, files ▸ free,
      congrArg (Files.put · socket _) files⟩
  case listen.done socket =>
    obtain ⟨fresh, settled, opened⟩ := h
    cases step
    refine ⟨?_, fun c mem => by cases mem⟩
    simp only [Tabled, fresh.pc, holdsClient, opened.files, put_put]
    exact ⟨fresh.role, settled, socket, rfl, opened.free, (fun on => by cases on), fun _ => rfl⟩
  case closeSocket.done socket =>
    obtain ⟨fresh, settled, state, opened⟩ := h
    cases step
    refine ⟨?_, fun c mem => by cases mem⟩
    refine tabled_ended rfl ?_
    simp only [opened.files]
    exact close_put opened.free _
  case socket.failed =>
    obtain ⟨fresh, settled, files⟩ := h
    cases step
    exact ⟨tabled_ended rfl files, fun c mem => by cases mem⟩
  case reuseAddr.failed | bind.failed | listen.failed =>
    obtain ⟨fresh, settled, opened⟩ := h
    cases step
    refine ⟨?_, fun c mem => by cases mem⟩
    exact ⟨⟨fresh.role, fresh.pc, fresh.running⟩, settled, _, opened.free, opened.files⟩
  case reuseAddr.done | bind.done =>
    obtain ⟨fresh, settled, opened⟩ := h
    cases step
    refine ⟨?_, fun c mem => by cases mem⟩
    refine ⟨⟨fresh.role, fresh.pc, fresh.running⟩, settled, opened.free, ?_⟩
    simp only [opened.files, put_put]

/-- Up to the loop. -/
theorem Tabled.startup (h : p.Tabled start connections)
    (step : p.startup answers operands p.place reply = some (p', child)) :
    p'.Tabled start connections ∧ ∀ c ∈ child, c.Tabled start connections := by
  by_cases configuring : configures p.place = true
  · exact h.configure configuring step
  by_cases daemonizing : daemonizes p.place = true
  · exact h.daemonize daemonizing step
  by_cases opening : opensSocket p.place = true
  · exact h.openSocket opening step
  -- the other places are not before the loop
  exfalso
  generalize p.place = place at step configuring daemonizing opening
  unfold Process.startup at step
  cases place <;> simp [configures, daemonizes, opensSocket] at step configuring daemonizing opening

theorem Settled.congr (h : p.Settled start) (config : p'.config = p.config)
    (base : p'.base = p.base) :
    p'.Settled start := by
  unfold Settled at h ⊢
  rw [config, base]
  exact h

/-- The main process, in the loop or behind it. -/
theorem tabled_placeOf {socket : Nat} (place : p.place = placeOf p.master.pc)
    (role : p.role = .main)
    (settled : p.Settled start) (sock : p.masterSock = some socket) (free : p.base socket = none)
    (held : holdsClient p.master.pc = true → p.HoldsClient connections (p.listens socket))
    (bare : holdsClient p.master.pc = false → p.files = p.listens socket) :
    p.Tabled start connections := by
  unfold Tabled
  by_cases left : ∃ reason, p.master.pc = .exited reason
  · obtain ⟨reason, left⟩ := left
    simp only [place, left, placeOf]
    exact ⟨role, settled, socket, sock, free, bare (by rw [left]; rfl)⟩
  · have goesOn : placeOf p.master.pc = .loop := by
      unfold placeOf
      split
      · exact absurd ⟨_, by assumption⟩ left
      · rfl
    simp only [place, goesOn]
    exact ⟨role, settled, socket, sock, free, held, bare⟩

/-- In the loop. -/
theorem Tabled.loopStep (h : p.Tabled start connections) (here : p.place = .loop)
    (step : p.loopStep connections reply = some (connections', p', child)) :
    p'.Tabled start connections' ∧ ∀ c ∈ child, c.Tabled start connections' := by
  simp only [Tabled, here] at h
  obtain ⟨role, settled, socket, sock, free, held, bare⟩ := h
  obtain ⟨outcome, -, config, role', base, sock', place, becomes⟩ := loopStep_spec step
  have own : p'.listens socket = p.listens socket := by rw [listens, listens, config, base]
  have settled' : p'.Settled start := settled.congr config base
  rcases becomes with ⟨console, descriptor, sin, pc, -, pc', rfl, accepts⟩ | ⟨goesOn, forks⟩
  · refine ⟨?_, fun c mem => by cases mem⟩
    have empty : p.files = p.listens socket := bare (by rw [pc]; rfl)
    refine tabled_placeOf place (role'.trans role) settled' (sock'.trans sock) (base ▸ free)
      (fun _ => ?_) (fun off => by rw [pc'] at off; cases off)
    refine ⟨⟨descriptor, accepts.sock, ?_, ?_⟩, sin, ?_, accepts.peer⟩
    · rw [own, ← empty]
      exact accepts.free
    · rw [own, accepts.table, accepts.number, empty]
    · rw [accepts.grown, accepts.number]
      exact List.getElem?_concat_length
  · obtain ⟨rfl, table, holds, child', peer, number⟩ := goesOn
    refine ⟨?_, ?_⟩
    · refine tabled_placeOf place (role'.trans role) settled' (sock'.trans sock) (base ▸ free)
        (fun on => ?_) (fun off => ?_)
      · obtain ⟨⟨descriptor, opened, unused, files⟩, sin, at_, sin'⟩ := held (holds on)
        rw [on] at table
        refine ⟨⟨descriptor, child'.trans opened, own ▸ unused, ?_⟩, sin, number ▸ at_, peer.trans sin'⟩
        rw [own, number, ← files, table]
        simp
      · rw [own, table]
        cases on : holdsClient p.master.pc with
        | false => simp [bare on]
        | true =>
            obtain ⟨⟨descriptor, opened, unused, files⟩, -⟩ := held on
            simp [off, closeChildSock, opened, files, close_put unused]
    · intro c mem
      rcases forks with ⟨-, rfl⟩ | ⟨console, pc, -, -, rfl⟩
      · cases mem
      · cases mem
        obtain ⟨⟨descriptor, opened, unused, files⟩, peer⟩ := held (by rw [pc]; rfl)
        exact ⟨rfl, settled, socket, sock, free, ⟨descriptor, opened, unused, files⟩, peer⟩

/-- Behind the loop, and in the child of a client. -/
theorem Tabled.lastStep (h : p.Tabled start connections)
    (step : p.lastStep p.place reply = some p') : p'.Tabled start connections := by
  generalize here : p.place = place at step
  unfold Process.lastStep at step
  simp only [Tabled, here] at h
  cases place <;> cases reply <;> simp only [reduceCtorEq] at step
  case closeMaster.done =>
    obtain ⟨role, settled, socket, sock, free, files⟩ := h
    cases step
    refine tabled_ended rfl ?_
    simp only [leave, closeMasterSock, sock, Option.elim, files]
    exact close_put free _
  case childCloseMaster.done =>
    obtain ⟨role, settled, socket, sock, free, ⟨descriptor, opened, unused, files⟩, peer⟩ := h
    cases step
    have apart : socket ≠ descriptor := by
      rintro rfl
      simp [listens, Files.put] at unused
    refine ⟨role, settled, rfl, ⟨descriptor, opened, ?_, ?_⟩, peer⟩
    · simpa [closeMasterSock, listens, Files.put, apart.symm] using unused
    · simp only [closeMasterSock, sock, Option.elim, files]
      rw [close_put_ne apart, listens, close_put free]
  case proxyProcess.returned | proxyProcess.faulted =>
    obtain ⟨role, -⟩ := h
    simp only [Option.bind_eq_bind, Option.bind_eq_some_iff] at step
    obtain ⟨sin, -, step⟩ := step
    split at step <;> cases step
    first
    | exact role
    | exact fun none => absurd rfl none
  case childClose.done =>
    cases step
    exact fun _ notClient => absurd h (notClient _)

/-- **Every step of a process keeps the tables right**: its own, that of its child, and
those of the others. -/
theorem tabled_step {event : Event} (h : p.Tabled start connections)
    (step : p.step answers operands connections event = some (connections', p', child)) :
    p'.Tabled start connections' ∧ (∀ c ∈ child, c.Tabled start connections') ∧
      ∀ q : Process, q.Tabled start connections → q.Tabled start connections' := by
  rcases step_cases step with ⟨-, rfl, rfl, rfl⟩ | ⟨sig, -, rfl, rfl, handled, eq⟩ | ⟨reply, -, parts⟩
  · exact ⟨fun none => absurd rfl none, (fun c mem => by cases mem), fun q => id⟩
  · rw [eq]
    exact ⟨h.signal handled, (fun c mem => by cases mem), fun q => id⟩
  · rcases parts with ⟨here, taken⟩ | ⟨-, rfl, rfl, taken⟩ | ⟨-, -, rfl, taken⟩
    · obtain ⟨own, kid⟩ := h.loopStep here taken
      refine ⟨own, kid, fun q tabled => ?_⟩
      obtain ⟨outcome, -, -, -, -, -, -, becomes⟩ := loopStep_spec taken
      rcases becomes with ⟨console, descriptor, sin, -, -, -, -, accepts⟩ | ⟨goesOn, -⟩
      · rw [accepts.grown]
        exact tabled.mono _
      · rw [goesOn.same]
        exact tabled
    · exact ⟨h.lastStep taken, (fun c mem => by cases mem), fun q => id⟩
    · obtain ⟨own, kid⟩ := h.startup taken
      exact ⟨own, kid, fun q => id⟩

end Process

end HaasProxy
