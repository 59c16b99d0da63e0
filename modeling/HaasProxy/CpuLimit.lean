import HaasProxy.SessionState
import HaasProxy.Waiting

/-!
# The limit on the CPU time (`proxy.c`)

`CheckUsage` compares the user time of the process with `CpuUsage`.  The first loop of
`ProxyProcess` asks it in each iteration, once it has looked at `ShouldStop`; the second
loop, which relays, does not.  So the limit holds for the whole session only if the time
is within it whenever the second loop begins an iteration: `usageHeeded_of_affords`.

## Design notes

A reading belongs to the number of the interaction at which it is taken.  `UsageHeeded`
speaks of one number in each iteration, that behind the reading of `ShouldStop`: it is where
the first loop reads the time, and where the second one could have.  `iterationStart` finds it
from the log, so it means the same for both loops.

`Affords` is a condition on what `getrusage` would have answered there.
-/

namespace HaasProxy

/-! ## Iterations -/

/-- The number of the interaction with which a loop comes to its top after this entry:
`ssh_event_dopoll` has returned, or a session was taken into the event in front of one of
the loops. -/
def Entry.top (w : World) (e : Entry) : Option Nat :=
  match e.action with
  | .returned (.eventDopoll _) => some e.before.tick
  | .call (.eventAddSession session) =>
      some (e.before.tick + if session = some e.before.context.trapSession then w.readings else 1)
  | _ => none

/-- The number with which the iteration began that goes on after a log. -/
def iterationStart (w : World) (h : List Entry) : Option Nat := (h.filterMap (Entry.top w)).getLast?

instance (w : World) (t : Nat) : Decidable (w.UsageOk t) := inferInstanceAs (Decidable (_ = true))

/-- **The limit is heeded**: where a loop waits, the user time was within the limit when the
iteration began and `ShouldStop` had been read. -/
def UsageHeeded (w : World) (log : List Entry) : Prop :=
  Throughout (fun h e => e.action.waits = true → ∃ t ∈ iterationStart w h, w.UsageOk (t + 1)) log

instance (w : World) (log : List Entry) : Decidable (UsageHeeded w log) :=
  inferInstanceAs (Decidable (Throughout _ _))

/-- The number with which the second loop comes to its top after this entry. -/
def Entry.relayTop (w : World) (e : Entry) : Option Nat :=
  match e.action with
  | .returned (.eventDopoll _) =>
      if e.before.stage = .relay ∧ e.answer ≠ sshError ∧
        (e.answer = sshEintr ∨ e.before.context.closed = false) then e.top w
      else none
  | .call (.eventAddSession session) =>
      if session = some e.before.context.trapSession then none else e.top w
  | _ => none

/-- Where the second loop comes to its top and is not told to stop, the user time is within
the limit. -/
def Entry.Affords (w : World) (e : Entry) : Prop :=
  ∀ t ∈ e.relayTop w, w.shouldStop t = false → w.UsageOk (t + 1)

instance (w : World) (e : Entry) : Decidable (e.Affords w) :=
  inferInstanceAs (Decidable (∀ t ∈ e.relayTop w, _))

section Steps

variable {w : World} {h l : List Entry} {s : Proxy}

/-- The last beginning of a round is in the later stretch if there is one. -/
theorem iterationStart_append (h l : List Entry) :
    iterationStart w (h ++ l) = (iterationStart w l).or (iterationStart w h) := by
  unfold iterationStart
  rw [List.filterMap_append, List.getLast?_append]

/-- No iteration begins while nothing is waited for and no session is taken in. -/
theorem iterationStart_quiet (noWait : ∀ e ∈ l, ¬ e.AboutWait)
    (noEvent : ∀ e ∈ l, e.action.addsSession = false) : iterationStart w l = none := by
  have none : l.filterMap (Entry.top w) = [] := by
    apply List.filterMap_eq_nil_iff.mpr
    intro e mem
    unfold Entry.top
    split
    · exact absurd ⟨_, .inr ‹_›⟩ (noWait e mem)
    · have noEvent := noEvent e mem
      rw [‹e.action = _›] at noEvent
      cases noEvent
    · rfl
  rw [iterationStart, none]
  rfl

/-- When a loop waits the time is within the limit: the first loop has asked, and the second
one is supposed to be in time. -/
theorem usageOk_of_waits {time : Int} (waits : Waits w h s time) (limited : 0 < w.config.cpuUsage)
    (affords : ∀ e ∈ h, e.Affords w) (numbered : ∀ e ∈ h, e.before.Numbered) :
    ∃ t ∈ iterationStart w h, w.UsageOk (t + 1) := by
  cases waits with
  | @login h top s time here goesOn usage eq left =>
      refine ⟨top.tick, ?_, usage limited⟩
      cases here with
      | @first h k a top session exchanged ok added same fresh eq =>
          rw [List.append_cons, iterationStart_append]
          simp [iterationStart, Entry.top, added, eq]
      | @next h r timeout returned stage noError again =>
          rw [iterationStart_append]
          simp [iterationStart, Entry.top, returned]
  | @relay h l top time g f e session here goesOn noWait noEvent reaped noneClosed flushes asked same
      flushed stage left =>
      rw [iterationStart_append, iterationStart_quiet noWait noEvent, Option.none_or]
      cases here with
      | @first h a top added eq =>
          have memA : a ∈ h ++ [a] ++ (l ++ [f]) := by simp
          have top : a.top w = some (a.before.tick + 1) := by
            simp only [Entry.top, added, if_neg (numbered a memA).ne]
          have starts : a.relayTop w = some (a.before.tick + 1) := by
            simp only [Entry.relayTop, added, if_neg (numbered a memA).ne]
            exact top
          rw [eq] at goesOn
          refine ⟨a.before.tick + 1, ?_, affords a memA _ starts goesOn⟩
          rw [iterationStart_append]
          simp [iterationStart, top]
      | @next h r timeout returned stage noError again =>
          have memR : r ∈ h ++ [r] ++ (l ++ [f]) := by simp
          have top : r.top w = some r.before.tick := by simp only [Entry.top, returned]
          have starts : r.relayTop w = some r.before.tick := by
            simp only [Entry.relayTop, returned]
            rw [if_pos ⟨stage, noError, again⟩, top]
          refine ⟨r.before.tick, ?_, affords r memR _ starts goesOn⟩
          rw [iterationStart_append]
          simp [iterationStart, top]

end Steps

/-- A limit of ten seconds, and a reading of the user time for each interaction. -/
def World.withUsage (w : World) (usage : Nat → Option Int) : World :=
  { w with
    config := { w.config with cpuUsage := 10 }
    usage := usage }

/-- A session in which the client logs in, opens a session channel and says nothing until
waiting fails. -/
def quietClient (usage : Nat → Option Int) : World :=
  (World.scripted .fake [(13, 2), (38, -1)] [(6, loginAndChannel)]).withUsage usage

end HaasProxy
