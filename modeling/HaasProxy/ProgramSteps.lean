import HaasProxy.Program

/-!
# What a step of a process changes (`main.c`)

One lemma for each part of `main`: `startup_spec` up to the loop, `loopStep_spec` for the
loop and `lastStep_spec` for what comes behind it; `step_cases` puts them together with
signals and the end by force.

Everything in `HaasProxy.Descriptors` and `HaasProxy.Clients` starts from these.  They say
all that a step may do, the fields that stay as they are included, so that no proof about
processes looks into `startup` or `loopStep` again.
-/

namespace HaasProxy

namespace Process

variable {answers : List GetoptAnswer} {operands : Bool}
    {connections connections' : List SockAddrIn}
variable {p p' : Process} {child : Option Process} {reply : Reply} {place : Place}

/-! ## Up to the loop -/

/-- A process in front of the loop: its children, if it has any, go on for it. -/
theorem startup_spec (step : p.startup answers operands place reply = some (p', child)) :
    p'.master = p.master ∧ p'.connection = p.connection ∧
      (place = .parse ∧ p'.config = (configParse answers operands configInit).1 ∨
        place ≠ .parse ∧ p'.config = p.config) ∧
      p'.place ≠ .parse ∧
      (child = none ∧ p'.role = p.role ∨
        (place = .fork1 ∨ place = .fork2) ∧ p'.role = .left ∧
          ∃ c ∈ child, c.role = p.role ∧ c.master = p.master ∧ c.connection = p.connection ∧
            c.config = p.config ∧ (c.place = .setsid ∨ c.place = .chdir)) := by
  unfold startup at step
  cases place <;> cases reply <;> simp only [reduceCtorEq] at step
  case parse.done =>
    split_ifs at step <;> cases step <;> simp [leave, afterNice]
    split <;> simp
  case nice.value i =>
    cases step
    split <;> simp [leave, afterNice]
    split <;> simp
  case fork1.forked | fork2.forked =>
    cases step
    simp [leftBehind, leave]
  case openNull.opened handle | socket.opened socket =>
    split_ifs at step
    cases step
    simp
  case dupNull.done handle i =>
    cases step
    simp
    split <;> simp
  all_goals
    cases step
    simp [leave]

/-! ## The loop

A step of the loop accepts a connection or it does not.  In both cases the machine `master`
has taken a step, and what is said besides is about the descriptor of the connection. -/

/-- Between `accept()` and the `close(ChildSock)` of the parent. -/
def holdsClient : Pc → Bool
  | .admission _ | .fork _ | .countChild _ => true
  | _ => false

/-- What a step of the loop accepts. -/
structure Accepts (connections connections' : List SockAddrIn) (p p' : Process) (descriptor : Nat)
    (sin : SockAddrIn) : Prop where
  /-- The kernel picks a descriptor that is not in use. -/
  free : p.files descriptor = none
  /-- The connection is new, and the last one. -/
  grown : connections' = connections ++ [sin]
  /-- The table gets it, and nothing else changes. -/
  table : p'.files = p.files.put descriptor (.client connections.length)
  /-- `ChildSock` is that descriptor. -/
  sock : p'.childSock = some descriptor
  /-- `Sin` is the client. -/
  peer : p'.sin = some sin
  number : p'.connection = connections.length

/-- A step of the loop that accepts nobody. -/
structure GoesOn (connections connections' : List SockAddrIn) (p p' : Process) : Prop where
  same : connections' = connections
  /-- `ChildSock` is closed where the step was the last one about that client. -/
  table : p'.files =
    if holdsClient p.master.pc ∧ ¬ holdsClient p'.master.pc then p.closeChildSock.files else p.files
  /-- A connection that is held was held before. -/
  holds : holdsClient p'.master.pc = true → holdsClient p.master.pc = true
  sock : p'.childSock = p.childSock
  peer : p'.sin = p.sin
  number : p'.connection = p.connection

/-- A connection is accepted by a reply that says so. -/
theorem Reply.of_accepted (replied : reply.outcome = some .accepted) :
    ∃ descriptor sin, reply = .accepted descriptor sin := by
  unfold Reply.outcome at replied
  split at replied <;> simp_all

theorem Reply.of_forked (replied : reply.outcome = some .forked) : reply = .forked := by
  unfold Reply.outcome at replied
  split at replied <;> simp_all

/-- All else that the loop hears of is passed to it as it is. -/
theorem Reply.of_other {outcome : Outcome} (replied : reply.outcome = some outcome)
    (notAccepted : outcome ≠ .accepted) (notForked : outcome ≠ .forked) : reply = .loop outcome := by
  unfold Reply.outcome at replied
  split at replied <;> simp_all

/-- **A step of the loop**: the one of the master, and what becomes of the connection. -/
theorem loopStep_spec (step : p.loopStep connections reply = some (connections', p', child)) :
    ∃ outcome, p.master.mainStep p.config p.master.pc outcome = some p'.master ∧
      p'.config = p.config ∧ p'.role = p.role ∧ p'.base = p.base ∧ p'.masterSock = p.masterSock ∧
      p'.place = placeOf p'.master.pc ∧
      ((∃ console descriptor sin, p.master.pc = .accept console ∧ outcome = .accepted ∧
          p'.master.pc = .admission console ∧ child = none ∧
          Accepts connections connections' p p' descriptor sin) ∨
        GoesOn connections connections' p p' ∧
          (outcome ≠ .forked ∧ child = none ∨
            ∃ console, p.master.pc = .fork console ∧ outcome = .forked ∧
              p'.master.pc = .countChild console ∧ child = some p.clientChild)) := by
  simp only [loopStep, Option.bind_eq_bind, Option.bind_eq_some_iff] at step
  obtain ⟨outcome, replied, master, main, step⟩ := step
  refine ⟨outcome, ?_⟩
  generalize here : p.master.pc = pc at main step ⊢
  have known := main
  unfold Master.mainStep at known
  cases pc <;> cases outcome <;> simp only [reduceCtorEq] at known
  -- the two steps that matter: a client is accepted, and gets its child
  case accept.accepted console =>
    obtain ⟨descriptor, sin, rfl⟩ := Reply.of_accepted replied
    simp only [Option.ite_none_right_eq_some] at step
    obtain ⟨free, step⟩ := step
    cases known
    cases step
    exact ⟨main, rfl, rfl, rfl, rfl, rfl, .inl ⟨console, descriptor, sin, rfl, rfl, rfl, rfl,
      ⟨free, rfl, rfl, rfl, rfl, rfl⟩⟩⟩
  case fork.forked console =>
    obtain rfl := Reply.of_forked replied
    cases known
    cases step
    exact ⟨main, rfl, rfl, rfl, rfl, rfl,
      .inr ⟨⟨rfl, by simp [holdsClient], fun _ => by simp [here, holdsClient], rfl, rfl, rfl⟩,
      .inr ⟨console, rfl, rfl, rfl, rfl⟩⟩⟩
  -- in all others nobody is accepted, and the client that is held may be let go
  case accept.acceptFailed console e =>
    obtain rfl := Reply.of_other replied (by simp) (by simp)
    cases known
    cases step
    refine ⟨main, rfl, rfl, rfl, rfl, rfl, .inr ⟨?_, .inl ⟨by simp, rfl⟩⟩⟩
    constructor <;> simp [here, holdsClient]
  case admission.none console =>
    cases known
    by_cases full : p.master.childCount ≥ p.config.connLimit
    · simp only [full, if_true] at main step
      cases step
      refine ⟨main, rfl, rfl, rfl, rfl, rfl, .inr ⟨?_, .inl ⟨by simp, rfl⟩⟩⟩
      cases console <;> constructor <;> simp [here, Pc.afterAccept, holdsClient, closeChildSock]
    · simp only [full, if_false] at main step
      cases step
      refine ⟨main, rfl, rfl, rfl, rfl, rfl, .inr ⟨?_, .inl ⟨by simp, rfl⟩⟩⟩
      constructor <;> simp [here, holdsClient]
  case fork.forkFailed console =>
    obtain rfl := Reply.of_other replied (by simp) (by simp)
    cases known
    cases step
    refine ⟨main, rfl, rfl, rfl, rfl, rfl, .inr ⟨?_, .inl ⟨by simp, rfl⟩⟩⟩
    cases console <;> constructor <;> simp [here, Pc.afterAccept, holdsClient, closeChildSock]
  case countChild.none console =>
    cases known
    cases step
    refine ⟨main, rfl, rfl, rfl, rfl, rfl, .inr ⟨?_, .inl ⟨by simp, rfl⟩⟩⟩
    cases console <;> constructor <;> simp [here, Pc.afterAccept, holdsClient, closeChildSock]
  case acceptErrno.none console =>
    cases known
    cases step
    refine ⟨main, rfl, rfl, rfl, rfl, rfl, .inr ⟨?_, .inl ⟨by simp, rfl⟩⟩⟩
    cases console <;> by_cases interrupted : p.master.errno = .eintr <;> constructor <;>
      simp [here, interrupted, Pc.afterAccept, holdsClient]
  case blocked.selectReady =>
    cases step
    refine ⟨main, rfl, rfl, rfl, rfl, rfl, .inr ⟨⟨rfl, ?_, ?_, rfl, rfl, rfl⟩, .inl ⟨by simp, rfl⟩⟩⟩
    · simp [here, holdsClient]
    · split_ifs at known <;> cases known <;> simp [holdsClient]
  all_goals
    cases known
    cases step
    refine ⟨main, rfl, rfl, rfl, rfl, rfl, .inr ⟨⟨rfl, ?_, ?_, rfl, rfl, rfl⟩, .inl ⟨by simp, rfl⟩⟩⟩
    · simp [here, holdsClient]
    · (try split_ifs) <;> simp [holdsClient]

/-! ## Behind the loop -/

/-- It changes descriptors only, and where the process stands. -/
theorem lastStep_spec (step : p.lastStep place reply = some p') :
    p'.master = p.master ∧ p'.role = p.role ∧ p'.config = p.config ∧
      p'.connection = p.connection ∧ p'.sin = p.sin ∧ p'.childSock = p.childSock ∧
      p'.base = p.base ∧ p'.place ≠ .parse := by
  unfold lastStep at step
  cases place <;> cases reply <;> simp only [reduceCtorEq] at step
  case proxyProcess.returned | proxyProcess.faulted =>
    simp only [Option.bind_eq_bind, Option.bind_eq_some_iff] at step
    obtain ⟨sin, -, step⟩ := step
    split at step <;> cases step
    simp
  all_goals
    cases step
    simp [closeMasterSock, closeChildSock, leave]

/-! ## Any step -/

/-- Behind the loop, or in the child of a client. -/
def Place.last : Place → Bool
  | .closeMaster | .childCloseMaster | .proxyProcess | .childClose => true
  | _ => false

/-- **What can happen to a process.** -/
theorem step_cases {event : Event}
    (step : p.step answers operands connections event = some (connections', p', child)) :
    (event = .kill ∧ connections' = connections ∧ child = none ∧
        p' = { p with place := .ended none }) ∨
      (∃ sig, event = .signal sig ∧ connections' = connections ∧ child = none ∧
        p.master.step p.config (.signal sig) = some p'.master ∧
        p' = { p with master := p'.master }) ∨
      ∃ reply, event = .go reply ∧
        (p.place = .loop ∧ p.loopStep connections reply = some (connections', p', child) ∨
          Place.last p.place ∧ connections' = connections ∧ child = none ∧
            p.lastStep p.place reply = some p' ∨
          p.place ≠ .loop ∧ Place.last p.place = false ∧ connections' = connections ∧
            p.startup answers operands p.place reply = some (p', child)) := by
  cases event with
  | kill =>
      cases step
      exact .inl ⟨rfl, rfl, rfl, rfl⟩
  | signal sig =>
      simp only [Process.step, Option.bind_eq_bind, Option.bind_eq_some_iff] at step
      obtain ⟨master, handled, step⟩ := step
      cases step
      exact .inr (.inl ⟨sig, rfl, rfl, rfl, handled, rfl⟩)
  | go reply =>
      refine .inr (.inr ⟨reply, rfl, ?_⟩)
      simp only [Process.step] at step
      split at step
      case h_1 here => exact .inl ⟨here, step⟩
      case h_2 here | h_3 here | h_4 here | h_5 here =>
        obtain ⟨last, taken, eq⟩ := Option.map_eq_some_iff.mp step
        cases eq
        exact .inr (.inl ⟨by simp [here, Place.last], rfl, rfl, taken⟩)
      case h_6 =>
        obtain ⟨⟨next, child⟩, taken, eq⟩ := Option.map_eq_some_iff.mp step
        cases eq
        refine .inr (.inr ⟨by assumption, ?_, rfl, taken⟩)
        unfold Place.last
        split
        all_goals first | rfl | simp_all

end Process

end HaasProxy
