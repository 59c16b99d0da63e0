import HaasProxy.Config
import Mathlib.Data.List.Induction

/-!
# Where the debug output goes (`debug.c`)

The functions of `debug.h` write to the system log, to a stream or to both, and keep in
static variables where to, and whether the stream is one that they opened themselves.
Here any of them may be called at any time, and what matters is what happens to the
streams: `streams_debugRun` says that one is closed only if it was opened here, once, and
then left alone, and which ones stay open.

Two things go wrong on the way, and are recorded as events.  With both outputs a list of
arguments is read twice, and without a stream `Back` is never set, which `qhexoutput` looks
at.  `sinks_mainCalls` says what of this the program runs into.

## Main results

* `streams_debugRun` — for any sequence of calls of the interface;
* `sinks_mainCalls` — for the sequences that `main` and its children make.

## Design notes

A stream that was opened here has a number, which is how many were opened before it; a
stream that was passed in is somebody else's, and has a handle.  So "the stream that was
opened here" is a statement about the stream and not about the variables, and
`Debug.Owns` is what connects the two.

* `qinit_file_name` closes what it has opened before it opens another, and `qdone`
  closes it at the end.
* `qinit_file_handle` does not: a stream that was opened here and is replaced by one of
  the caller's is never closed.  It is `Displaced`, and these are all that can leak.

Whether a call writes, closes or opens is decided in `debugCall_cases`, once; everything
about sequences follows from that.
-/

namespace HaasProxy

/-! ## The source

The functions that choose the stream, those that print to it, and the one that sets the
level; what they do to a stream is an event. -/

/-- A stream: one that was passed in, or what the `n`-th `fopen` answered. -/
inductive Stream where
  | passed (handle : Nat)
  | opened (n : Nat)
  deriving DecidableEq

/-- The static variables. -/
structure Debug where
  /-- The output goes to syslog. -/
  debugSyslog : Bool
  /-- The stream it goes to. -/
  debugHandle : Option Stream
  /-- Whether that is to be closed. -/
  debugClose : Bool
  /-- Messages of a higher level are left out. -/
  debugLevel : Int

/-- What is called, and what goes wrong. -/
inductive SinkEvent where
  | openlog
  | closelog
  | fopen (stream : Stream)
  | fclose (stream : Stream)
  | vsyslog
  | vfprintf (stream : Stream)
  | fflush (stream : Stream)
  /-- `VaList` is passed on after `vsyslog` has read it. -/
  | reused
  /-- `Back` is looked at, and was never set. -/
  | unset
  deriving DecidableEq

/-- The calls, with what the library answers on the way. -/
inductive DebugCall where
  | qinitSyslog
  | qinitFileHandle (handle : Option Nat)
  /-- `success` is whether `fopen` opens the file. -/
  | qinitFileName (success : Bool)
  | qdone
  | qsetlevel (level : Int)
  /-- `qprintf`, `qprintv`; `written` is what `vfprintf` answers. -/
  | qprintf (written : Int)
  /-- `qdebugf`, `qdebugv`. -/
  | qdebugf (level written : Int)
  /-- `qhexprint`, with the number of lines to dump and what `vfprintf` answers to each
  text; `garbage` is what `Back` holds where it is not set. -/
  | qhexprint (lines : Nat) (garbage : Int) (written : Nat → Int)
  | qhexdebug (level : Int) (lines : Nat) (garbage : Int) (written : Nat → Int)

/-- `fclose(DebugHandle)`, where the stream is to be closed. -/
def Debug.closed (s : Debug) : List SinkEvent :=
  match s.debugHandle with
  | some stream => if s.debugClose then [.fclose stream] else []
  | none => []

/-- `qoutputv`: what is called, and `Back`. -/
def qoutputv (s : Debug) (written : Int) : List SinkEvent × Option Int :=
  let logged := if s.debugSyslog then [.vsyslog] else []
  match s.debugHandle with
  | none => (logged, none)
  | some stream =>
      let again := if s.debugSyslog then [.reused] else []
      let flushed := if 0 < written then [.fflush stream] else []
      (logged ++ again ++ [.vfprintf stream] ++ flushed, some written)

/-- `qhexoutput`, with the lines of the dump behind its header. -/
def qhexoutputv (s : Debug) (lines : Nat) (garbage : Int) (written : Nat → Int) : List SinkEvent :=
  let (header, back) := qoutputv s (written 0)
  let read := if back = none then [.unset] else []
  let dump := (List.range lines).flatMap fun line => (qoutputv s (written (line + 1))).1
  header ++ read ++ if 0 < back.getD garbage then dump else []

/-- One call: the variables afterwards and what was called, where `count` files were
opened before. -/
def debugCall (s : Debug) (count : Nat) : DebugCall → Debug × List SinkEvent
  | .qinitSyslog => ({ s with debugSyslog := true }, [.openlog])
  | .qinitFileHandle handle =>
      ({ s with debugClose := false, debugHandle := handle.map .passed }, [])
  | .qinitFileName success =>
      if success then
        ({ s with debugClose := true, debugHandle := some (.opened count) },
          s.closed ++ [.fopen (.opened count)])
      else
        -- an open stream has been closed by then, and `DebugClose` cleared
        ({ s with debugClose := if s.debugHandle = none then s.debugClose else false,
                  debugHandle := none }, s.closed)
  | .qdone =>
      ({ s with debugSyslog := false
                debugClose := if s.debugHandle = none then s.debugClose else false
                debugHandle := none },
        (if s.debugSyslog then [.closelog] else []) ++ s.closed)
  | .qsetlevel level => ({ s with debugLevel := level }, [])
  | .qprintf written => (s, (qoutputv s written).1)
  | .qdebugf level written =>
      (s, if level ≤ s.debugLevel then (qoutputv s written).1 else [])
  | .qhexprint lines garbage written => (s, qhexoutputv s lines garbage written)
  | .qhexdebug level lines garbage written =>
      (s, if level ≤ s.debugLevel then qhexoutputv s lines garbage written else [])

/-- The stream that an event is about. -/
def SinkEvent.stream : SinkEvent → Option Stream
  | fopen stream | fclose stream | vfprintf stream | fflush stream => some stream
  | openlog | closelog | vsyslog | reused | unset => none

/-- How many files were opened. -/
def opens (log : List SinkEvent) : Nat := log.countP fun e => e matches .fopen _

/-- Some calls, from the start of the program on. -/
def debugRun (calls : List DebugCall) : Debug × List SinkEvent :=
  calls.foldl (fun (s, log) call =>
      let (s, events) := debugCall s (opens log) call
      (s, log ++ events))
    (⟨false, none, false, 0⟩, [])

/-! ## What is to hold

Stated of a log of events alone, so that it can be read without knowing the variables. -/

/-- **The streams of a log are looked after**: only a stream that was opened here is closed,
nothing is done to it afterwards, and nothing before it is opened. -/
structure Orderly (log : List SinkEvent) : Prop where
  /-- What is closed was opened here, and nothing is done to it afterwards. -/
  closed : ∀ front stream back, log = front ++ .fclose stream :: back →
    (∃ n, stream = .opened n) ∧ ∀ e ∈ back, e.stream ≠ some stream
  /-- It is opened once, before anything else is done to it. -/
  opened : ∀ front e back n, log = front ++ e :: back → e.stream = some (.opened n) →
    e = .fopen (.opened n) ∧ (∀ earlier ∈ front, earlier.stream ≠ some (.opened n)) ∨
      e ≠ .fopen (.opened n) ∧ .fopen (.opened n) ∈ front

/-- A stream that was opened here, and that the caller replaced by one of its own. -/
def Displaced (calls : List DebugCall) (n : Nat) : Prop :=
  ∃ front handle back, calls = front ++ .qinitFileHandle handle :: back ∧
    (debugRun front).1.debugHandle = some (.opened n)

/-! ## One call

What one call does to the streams: it writes to the current one, closes it, opens another
one, or leaves all of them alone. -/

section Debug

variable {s s' : Debug} {log events : List SinkEvent} {calls : List DebugCall}
variable {call : DebugCall} {e : SinkEvent} {n count : Nat}

/-- The stream that is to be closed is the one that was opened here. -/
def Debug.Owns (s : Debug) : Prop :=
  s.debugClose = true ↔ ∃ n, s.debugHandle = some (.opened n)

/-- Nothing but writing, and that to the stream there is. -/
def Writes (s : Debug) (events : List SinkEvent) : Prop :=
  ∀ e ∈ events, e.stream = none ∨
    ∃ stream, s.debugHandle = some stream ∧ (e = .vfprintf stream ∨ e = .fflush stream)

theorem Writes.append {more : List SinkEvent} (first : Writes s events) (second : Writes s more) :
    Writes s (events ++ more) := by
  intro e mem
  rcases List.mem_append.mp mem with mem | mem
  · exact first e mem
  · exact second e mem

theorem writes_ite {condition : Prop} [Decidable condition] (writes : Writes s events) :
    Writes s (if condition then events else []) := by
  split
  · exact writes
  · intro e mem
    cases mem

theorem writes_silent (silent : e.stream = none) : Writes s [e] := by
  intro e mem
  obtain rfl := List.mem_singleton.mp mem
  exact .inl silent

/-- `qoutputv` writes to what the static variables say, and nowhere else. -/
theorem writes_qoutputv (s : Debug) (written : Int) : Writes s (qoutputv s written).1 := by
  unfold qoutputv
  cases handle : s.debugHandle with
  | none => exact writes_ite (writes_silent rfl)
  | some stream =>
      have one (e : SinkEvent) (what : e = .vfprintf stream ∨ e = .fflush stream) :
          Writes s [e] := by
        intro e mem
        obtain rfl := List.mem_singleton.mp mem
        exact .inr ⟨stream, handle, what⟩
      exact (((writes_ite (writes_silent rfl)).append (writes_ite (writes_silent rfl))).append
        (one _ (.inl rfl))).append (writes_ite (one _ (.inr rfl)))

theorem writes_qhexoutputv (s : Debug) (lines : Nat) (garbage : Int) (written : Nat → Int) :
    Writes s (qhexoutputv s lines garbage written) := by
  have dump : Writes s ((List.range lines).flatMap fun line =>
      (qoutputv s (written (line + 1))).1) := by
    intro e mem
    obtain ⟨line, -, mem⟩ := List.mem_flatMap.mp mem
    exact writes_qoutputv s _ e mem
  exact ((writes_qoutputv s _).append (writes_ite (writes_silent rfl))).append (writes_ite dump)

theorem Writes.quiet (writes : Writes s events) (stream : Stream) :
    .fopen stream ∉ events ∧ .fclose stream ∉ events := by
  constructor
  · intro mem
    rcases writes _ mem with silent | ⟨stream, -, eq | eq⟩
    · cases silent
    · cases eq
    · cases eq
  · intro mem
    rcases writes _ mem with silent | ⟨stream, -, eq | eq⟩
    · cases silent
    · cases eq
    · cases eq

/-- **What a call does**: it writes, it takes another stream in, or it closes what it has
and perhaps opens a file. -/
theorem debugCall_cases (owns : s.Owns) (eq : debugCall s count call = (s', events)) :
    (Writes s events ∧ s'.debugHandle = s.debugHandle ∧ s'.debugClose = s.debugClose ∧
      ∀ handle, call ≠ .qinitFileHandle handle) ∨
    (∃ handle, call = .qinitFileHandle handle ∧ events = [] ∧
      s'.debugHandle = handle.map .passed ∧ s'.debugClose = false) ∨
    (∃ before after, events = before ++ s.closed ++ after ∧ (∀ e ∈ before, e.stream = none) ∧
      (after = [] ∧ s'.debugHandle = none ∧ s'.debugClose = false ∨
        after = [.fopen (.opened count)] ∧ s'.debugHandle = some (.opened count) ∧
          s'.debugClose = true) ∧
      ∀ handle, call ≠ .qinitFileHandle handle) := by
  have none_of_silent {condition : Prop} [Decidable condition] {other : SinkEvent}
      (silent : other.stream = none) :
      ∀ e ∈ (if condition then [other] else []), e.stream = none := by
    intro e mem
    split at mem
    · obtain rfl := List.mem_singleton.mp mem
      exact silent
    · cases mem
  -- without a stream there is none to be closed
  have unowned : (if s.debugHandle = none then s.debugClose else false) = false := by
    split
    · rename_i handle
      rw [Bool.eq_false_iff]
      intro close
      obtain ⟨n, opened⟩ := owns.mp close
      rw [handle] at opened
      cases opened
    · rfl
  cases call with
  | qinitSyslog =>
      cases eq
      exact .inl ⟨writes_silent rfl, rfl, rfl, by simp⟩
  | qinitFileHandle handle =>
      cases eq
      exact .inr (.inl ⟨handle, rfl, rfl, rfl, rfl⟩)
  | qinitFileName success =>
      cases success with
      | true =>
          cases eq
          exact .inr (.inr ⟨[], _, rfl, by simp, .inr ⟨rfl, rfl, rfl⟩, by simp⟩)
      | false =>
          cases eq
          exact .inr (.inr ⟨[], [], (List.append_nil _).symm, by simp, .inl ⟨rfl, rfl, unowned⟩,
            by simp⟩)
  | qdone =>
      cases eq
      exact .inr (.inr ⟨_, [], (List.append_nil _).symm, none_of_silent rfl,
        .inl ⟨rfl, rfl, unowned⟩, by simp⟩)
  | qsetlevel level =>
      cases eq
      exact .inl ⟨(fun e mem => by cases mem), rfl, rfl, by simp⟩
  | qprintf written =>
      cases eq
      exact .inl ⟨writes_qoutputv s written, rfl, rfl, by simp⟩
  | qdebugf level written =>
      cases eq
      exact .inl ⟨writes_ite (writes_qoutputv s written), rfl, rfl, by simp⟩
  | qhexprint lines garbage written =>
      cases eq
      exact .inl ⟨writes_qhexoutputv s lines garbage written, rfl, rfl, by simp⟩
  | qhexdebug level lines garbage written =>
      cases eq
      exact .inl ⟨writes_ite (writes_qhexoutputv s lines garbage written), rfl, rfl, by simp⟩

/-- What `closed` does: the stream is closed if it was opened here, and otherwise left
alone. -/
private theorem closed_cases (owns : s.Owns) :
    (∃ n, s.debugHandle = some (.opened n) ∧ s.closed = [.fclose (.opened n)]) ∨
      (∀ n, s.debugHandle ≠ some (.opened n)) ∧ s.closed = [] := by
  by_cases close : s.debugClose = true
  · obtain ⟨n, handle⟩ := owns.mp close
    refine .inl ⟨n, handle, ?_⟩
    simp [Debug.closed, handle, close]
  · refine .inr ⟨fun n handle => close (owns.mpr ⟨n, handle⟩), ?_⟩
    unfold Debug.closed
    cases s.debugHandle with
    | none => rfl
    | some stream => exact if_neg close

/-! ## One event

An event may extend a log in order if its stream is the current one, or if it opens the
next file.  Closing is possible only for a stream that was opened here. -/

private theorem orderly_nil : Orderly [] where
  closed front stream back eq := by simp at eq
  opened front e back n eq := by simp at eq

/-- An event may come next if its stream is still open, if what it closes was opened
here, and if what it uses was opened before. -/
theorem Orderly.concat (orderly : Orderly log)
    (alive : ∀ stream, e.stream = some stream → .fclose stream ∉ log)
    (owned : ∀ stream, e = .fclose stream → ∃ n, stream = .opened n)
    (known : ∀ n, e.stream = some (.opened n) →
      e = .fopen (.opened n) ∧ (∀ earlier ∈ log, earlier.stream ≠ some (.opened n)) ∨
        e ≠ .fopen (.opened n) ∧ .fopen (.opened n) ∈ log) : Orderly (log ++ [e]) where
  closed front stream back eq := by
    rcases List.eq_nil_or_concat back with rfl | ⟨back, last, rfl⟩
    · obtain ⟨-, same⟩ := List.append_inj' eq rfl
      exact ⟨owned stream (List.singleton_inj.mp same), by simp⟩
    · rw [List.concat_eq_append, ← List.cons_append, ← List.append_assoc] at eq
      obtain ⟨rfl, same⟩ := List.append_inj' eq rfl
      obtain rfl := List.singleton_inj.mp same
      obtain ⟨own, after⟩ := orderly.closed front stream back rfl
      refine ⟨own, ?_⟩
      intro later mem
      rw [List.concat_eq_append] at mem
      rcases List.mem_append.mp mem with mem | mem
      · exact after later mem
      · obtain rfl := List.mem_singleton.mp mem
        exact fun is => alive stream is (by simp)
  opened front x back n eq is := by
    rcases List.eq_nil_or_concat back with rfl | ⟨back, last, rfl⟩
    · obtain ⟨rfl, same⟩ := List.append_inj' eq rfl
      obtain rfl := List.singleton_inj.mp same
      exact known n is
    · rw [List.concat_eq_append, ← List.cons_append, ← List.append_assoc] at eq
      obtain ⟨rfl, -⟩ := List.append_inj' eq rfl
      exact orderly.opened front x back n rfl is

/-- What is kept about the log, while `current` is the stream to write to. -/
structure StreamsKept (current : Option Stream) (log : List SinkEvent) : Prop where
  orderly : Orderly log
  /-- The current stream, if it was opened here, is open. -/
  alive : ∀ n, current = some (.opened n) →
    .fopen (.opened n) ∈ log ∧ .fclose (.opened n) ∉ log
  /-- No stream has a number that `fopen` has not reached. -/
  numbered : ∀ e ∈ log, ∀ n, e.stream = some (.opened n) → n < opens log

section StreamsKept

variable {current : Option Stream}

theorem opens_append (log events : List SinkEvent) :
    opens (log ++ events) = opens log + opens events := List.countP_append

theorem opens_eq_zero (quiet : ∀ stream, .fopen stream ∉ events) : opens events = 0 := by
  rw [opens, List.countP_eq_zero]
  intro e mem opened
  cases e with
  | fopen stream => exact quiet stream mem
  | _ => cases opened

private theorem kept_nil : StreamsKept none [] where
  orderly := orderly_nil
  alive n eq := by cases eq
  numbered e mem := by cases mem

/-- What was passed in is never closed. -/
theorem Orderly.not_mem_passed (orderly : Orderly log) (handle : Nat) :
    .fclose (.passed handle) ∉ log := by
  intro mem
  obtain ⟨front, back, eq⟩ := List.append_of_mem mem
  obtain ⟨n, passed⟩ := (orderly.closed front _ back eq).1
  cases passed

/-- Writing to the current stream changes nothing about the others. -/
theorem StreamsKept.write (kept : StreamsKept current log)
    (writes : e.stream = none ∨
      ∃ stream, current = some stream ∧ (e = .vfprintf stream ∨ e = .fflush stream)) :
    StreamsKept current (log ++ [e]) := by
  -- writing neither opens nor closes, and goes to the current stream
  have quiet : ∀ stream, e ≠ .fopen stream ∧ e ≠ .fclose stream := by
    rintro stream
    rcases writes with silent | ⟨current, -, rfl | rfl⟩
    · constructor
      · rintro rfl
        cases silent
      · rintro rfl
        cases silent
    · simp
    · simp
  have written : ∀ stream, e.stream = some stream → current = some stream := by
    intro other is
    rcases writes with silent | ⟨stream, eq, rfl | rfl⟩
    · rw [silent] at is
      cases is
    · rw [eq, ← is]
      rfl
    · rw [eq, ← is]
      rfl
  have same : opens (log ++ [e]) = opens log := by
    have none : opens [e] = 0 := opens_eq_zero fun stream mem =>
      (quiet stream).1 (List.mem_singleton.mp mem).symm
    rw [opens_append, none, Nat.add_zero]
  refine ⟨kept.orderly.concat ?_ ?_ ?_, ?_, ?_⟩
  · intro stream is
    cases stream with
    | passed handle => exact kept.orderly.not_mem_passed handle
    | opened n => exact (kept.alive n (written _ is)).2
  · intro stream closes
    exact absurd closes (quiet stream).2
  · intro n is
    exact .inr ⟨(quiet _).1, (kept.alive n (written _ is)).1⟩
  · intro n eq
    obtain ⟨opened, notClosed⟩ := kept.alive n eq
    refine ⟨List.mem_append_left _ opened, ?_⟩
    intro mem
    rcases List.mem_append.mp mem with mem | mem
    · exact notClosed mem
    · exact (quiet _).2 (List.mem_singleton.mp mem).symm
  · intro x mem n is
    rw [same]
    rcases List.mem_append.mp mem with mem | mem
    · exact kept.numbered x mem n is
    · obtain rfl := List.mem_singleton.mp mem
      have opened := (kept.alive n (written _ is)).1
      exact kept.numbered _ opened n rfl

/-- The stream that was opened here is closed. -/
theorem StreamsKept.close (kept : StreamsKept (some (.opened n)) log) :
    StreamsKept none (log ++ [.fclose (.opened n)]) := by
  obtain ⟨opened, notClosed⟩ := kept.alive n rfl
  have same : opens (log ++ [.fclose (.opened n)]) = opens log := by
    rw [opens_append]
    rfl
  refine ⟨kept.orderly.concat ?_ ?_ ?_, (fun m eq => by cases eq), ?_⟩
  · rintro stream is
    obtain rfl := Option.some.inj is
    exact notClosed
  · intro stream eq
    exact ⟨n, (SinkEvent.fclose.inj eq).symm⟩
  · intro m is
    obtain rfl : n = m := Stream.opened.inj (Option.some.inj is)
    exact .inr ⟨by simp, opened⟩
  · intro x mem m is
    rw [same]
    rcases List.mem_append.mp mem with mem | mem
    · exact kept.numbered x mem m is
    · obtain rfl := List.mem_singleton.mp mem
      obtain rfl : n = m := Stream.opened.inj (Option.some.inj is)
      exact kept.numbered _ opened n rfl

/-- A file is opened. -/
theorem StreamsKept.open (kept : StreamsKept none log) (number : n = opens log) :
    StreamsKept (some (.opened n)) (log ++ [.fopen (.opened n)]) := by
  have unknown : ∀ x ∈ log, x.stream ≠ some (.opened n) := by
    intro x mem is
    have below := kept.numbered x mem n is
    omega
  have more : opens (log ++ [.fopen (.opened n)]) = opens log + 1 := opens_append log _
  refine ⟨kept.orderly.concat ?_ (by simp) ?_, ?_, ?_⟩
  · intro stream is mem
    obtain rfl := Option.some.inj is
    exact unknown _ mem rfl
  · intro m is
    obtain rfl : n = m := Stream.opened.inj (Option.some.inj is)
    exact .inl ⟨rfl, unknown⟩
  · intro m eq
    obtain rfl : n = m := Stream.opened.inj (Option.some.inj eq)
    refine ⟨by simp, ?_⟩
    intro mem
    rcases List.mem_append.mp mem with mem | mem
    · exact unknown _ mem rfl
    · simp at mem
  · intro x mem m is
    rw [more]
    rcases List.mem_append.mp mem with mem | mem
    · have below := kept.numbered x mem m is
      omega
    · obtain rfl := List.mem_singleton.mp mem
      obtain rfl : n = m := Stream.opened.inj (Option.some.inj is)
      omega

/-- A stream that is not written to any more stays open. -/
theorem StreamsKept.drop {other : Option Stream} (kept : StreamsKept current log)
    (passed : ∀ n, other ≠ some (.opened n)) : StreamsKept other log where
  orderly := kept.orderly
  alive n eq := absurd eq (passed n)
  numbered := kept.numbered

theorem StreamsKept.writes (kept : StreamsKept s.debugHandle log) (writes : Writes s events) :
    StreamsKept s.debugHandle (log ++ events) := by
  induction events generalizing log with
  | nil => rwa [List.append_nil]
  | cons e events ih =>
      have first := kept.write (writes e List.mem_cons_self)
      have rest := ih first fun x mem => writes x (List.mem_cons_of_mem _ mem)
      rwa [List.append_assoc] at rest

/-- What is done before a file is opened: afterwards nothing is current. -/
theorem StreamsKept.empty {before : List SinkEvent} (kept : StreamsKept s.debugHandle log)
    (owns : s.Owns) (writes : Writes s before) :
    StreamsKept none (log ++ (before ++ s.closed)) ∧
      opens (log ++ (before ++ s.closed)) = opens log ∧
      ∀ n, (.fopen (.opened n) ∈ log ++ (before ++ s.closed) ↔ .fopen (.opened n) ∈ log) ∧
        (.fclose (.opened n) ∈ log ++ (before ++ s.closed) ↔
          .fclose (.opened n) ∈ log ∨ s.debugHandle = some (.opened n)) := by
  have written := kept.writes writes
  have quiet := opens_eq_zero fun stream => (writes.quiet stream).1
  rcases closed_cases owns with ⟨n, handle, closed⟩ | ⟨foreign, closed⟩
  · rw [handle] at written
    rw [closed, ← List.append_assoc]
    refine ⟨written.close, ?_, ?_⟩
    · rw [opens_append, opens_append, quiet]
      rfl
    · intro m
      have opened := (writes.quiet (.opened m)).1
      have closed := (writes.quiet (.opened m)).2
      simp [handle, opened, closed, eq_comm]
  · rw [closed, List.append_nil]
    refine ⟨written.drop (by simp), ?_, ?_⟩
    · rw [opens_append, quiet, Nat.add_zero]
    · intro m
      have opened := (writes.quiet (.opened m)).1
      have closed := (writes.quiet (.opened m)).2
      simp [foreign m, opened, closed]

end StreamsKept

/-! ## All calls

The account of a sequence of calls: what was opened and not closed is the current stream
and nothing else. -/

theorem debugRun_concat (calls : List DebugCall) (call : DebugCall) :
    debugRun (calls ++ [call]) =
      ((debugCall (debugRun calls).1 (opens (debugRun calls).2) call).1, (debugRun calls).2 ++
        (debugCall (debugRun calls).1 (opens (debugRun calls).2) call).2) := by
  rw [debugRun, List.foldl_append]
  rfl

/-- A stream is displaced by a call if another one is passed in while it is the current
one. -/
theorem displaced_concat : Displaced (calls ++ [call]) n ↔
    Displaced calls n ∨ (∃ handle, call = .qinitFileHandle handle) ∧
      (debugRun calls).1.debugHandle = some (.opened n) := by
  constructor
  · rintro ⟨front, handle, back, eq, current⟩
    rcases List.eq_nil_or_concat back with rfl | ⟨back, last, rfl⟩
    · obtain ⟨rfl, same⟩ := List.append_inj' eq rfl
      exact .inr ⟨⟨handle, List.singleton_inj.mp same⟩, current⟩
    · rw [List.concat_eq_append, ← List.cons_append, ← List.append_assoc] at eq
      obtain ⟨rfl, -⟩ := List.append_inj' eq rfl
      exact .inl ⟨front, handle, back, rfl, current⟩
  · rintro (⟨front, handle, back, rfl, current⟩ | ⟨⟨handle, rfl⟩, current⟩)
    · exact ⟨front, handle, back ++ [call], by simp, current⟩
    · exact ⟨calls, handle, [], rfl, current⟩

/-- What is kept from one call to the next: the streams that are open are the current one
and those that were displaced. -/
structure StreamsAccounted (calls : List DebugCall) : Prop where
  /-- `DebugClose` says whether the current stream was opened here. -/
  owns : (debugRun calls).1.Owns
  kept : StreamsKept (debugRun calls).1.debugHandle (debugRun calls).2
  /-- What is open is the current stream, or was displaced. -/
  standing : ∀ n,
    .fopen (.opened n) ∈ (debugRun calls).2 ∧ .fclose (.opened n) ∉ (debugRun calls).2 ↔
      (debugRun calls).1.debugHandle = some (.opened n) ∨ Displaced calls n
  /-- The current stream was not. -/
  apart : ∀ n, Displaced calls n → (debugRun calls).1.debugHandle ≠ some (.opened n)

private theorem streamsAccounted_nil : StreamsAccounted [] where
  owns := by simp [debugRun, Debug.Owns]
  kept := kept_nil
  standing n := by simp [debugRun, Displaced]
  apart n displaced := by simp [debugRun]

/-- A call that writes leaves everything as it is. -/
theorem StreamsAccounted.write (accounted : StreamsAccounted calls)
    (run : debugRun (calls ++ [call]) = (s', (debugRun calls).2 ++ events))
    (writes : Writes (debugRun calls).1 events)
    (handle : s'.debugHandle = (debugRun calls).1.debugHandle)
    (close : s'.debugClose = (debugRun calls).1.debugClose)
    (other : ∀ handle, call ≠ .qinitFileHandle handle) : StreamsAccounted (calls ++ [call]) := by
  have displaced (n : Nat) : Displaced (calls ++ [call]) n ↔ Displaced calls n := by
    rw [displaced_concat]
    exact or_iff_left fun both => both.1.elim other
  constructor
  · rw [run, Debug.Owns, handle, close]
    exact accounted.owns
  · rw [run, handle]
    exact accounted.kept.writes writes
  · intro n
    rw [run, displaced, handle, ← accounted.standing n, List.mem_append, List.mem_append,
      or_iff_left (writes.quiet _).1, or_iff_left (writes.quiet _).2]
  · intro n gone
    rw [run, handle]
    exact accounted.apart n ((displaced n).mp gone)

/-- A stream that the caller passes in displaces the current one. -/
theorem StreamsAccounted.pass (accounted : StreamsAccounted calls) {given : Option Nat}
    (run : debugRun (calls ++ [.qinitFileHandle given]) = (s', (debugRun calls).2))
    (handle : s'.debugHandle = given.map .passed) (close : s'.debugClose = false) :
    StreamsAccounted (calls ++ [.qinitFileHandle given]) := by
  have passed (n : Nat) : s'.debugHandle ≠ some (.opened n) := by
    rw [handle]
    cases given <;> simp
  constructor
  · rw [run, Debug.Owns, close]
    simp [passed]
  · rw [run]
    exact accounted.kept.drop passed
  · intro n
    rw [run, displaced_concat, accounted.standing n]
    have gone : ∃ handle, DebugCall.qinitFileHandle given = .qinitFileHandle handle :=
      ⟨given, rfl⟩
    rw [or_iff_right (passed n), and_iff_right gone, or_comm]
  · intro n _
    rw [run]
    exact passed n

/-- The current stream is closed, and perhaps a file is opened. -/
theorem StreamsAccounted.replace (accounted : StreamsAccounted calls)
    {before after : List SinkEvent}
    (run : debugRun (calls ++ [call]) =
      (s', (debugRun calls).2 ++ (before ++ (debugRun calls).1.closed ++ after)))
    (silent : ∀ e ∈ before, e.stream = none)
    (what : after = [] ∧ s'.debugHandle = none ∧ s'.debugClose = false ∨
      after = [.fopen (.opened (opens (debugRun calls).2))] ∧
        s'.debugHandle = some (.opened (opens (debugRun calls).2)) ∧ s'.debugClose = true)
    (other : ∀ handle, call ≠ .qinitFileHandle handle) : StreamsAccounted (calls ++ [call]) := by
  obtain ⟨owns, kept, standing, apart⟩ := accounted
  have displaced (n : Nat) : Displaced (calls ++ [call]) n ↔ Displaced calls n := by
    rw [displaced_concat]
    exact or_iff_left fun both => both.1.elim other
  have writes : Writes (debugRun calls).1 before := fun e mem => .inl (silent e mem)
  obtain ⟨empty, count, closed⟩ := kept.empty owns writes
  generalize (debugRun calls).1 = s at *
  generalize (debugRun calls).2 = log at *
  have still (n : Nat) : .fopen (.opened n) ∈ log ++ (before ++ s.closed) ∧
      .fclose (.opened n) ∉ log ++ (before ++ s.closed) ↔ Displaced calls n := by
    rw [(closed n).1, (closed n).2, not_or]
    constructor
    · rintro ⟨opened, alive, gone⟩
      exact ((standing n).mp ⟨opened, alive⟩).resolve_left gone
    · intro gone
      obtain ⟨opened, alive⟩ := (standing n).mpr (.inr gone)
      exact ⟨opened, alive, apart n gone⟩
  rcases what with ⟨rfl, handle, close⟩ | ⟨rfl, handle, close⟩
  · rw [List.append_nil] at run
    constructor
    · rw [run, Debug.Owns, handle, close]
      simp
    · rw [run, handle]
      exact empty
    · intro n
      rw [run, displaced, handle, or_iff_right (by simp)]
      exact still n
    · intro n _
      rw [run, handle]
      simp
  · rw [← List.append_assoc] at run
    have full := empty.open count.symm
    constructor
    · rw [run, Debug.Owns, handle, close]
      simp
    · rw [run, handle]
      exact full
    · intro n
      rw [run, displaced, handle]
      by_cases same : opens log = n
      · rw [same] at full ⊢
        exact iff_of_true (full.alive n rfl) (.inl rfl)
      · have other : some (Stream.opened (opens log)) ≠ some (.opened n) := by simp [same]
        rw [or_iff_right other, ← still n]
        simp [Ne.symm same]
    · intro n gone
      -- the number is new
      obtain ⟨opened, -⟩ := (standing n).mpr (.inr ((displaced n).mp gone))
      have below := kept.numbered _ opened n rfl
      rw [run, handle]
      simp only [ne_eq, Option.some.injEq, Stream.opened.injEq]
      omega

/-- **One call.** By cases of what a call can do: it writes, or it changes where to. -/
theorem StreamsAccounted.step (accounted : StreamsAccounted calls) (call : DebugCall) :
    StreamsAccounted (calls ++ [call]) := by
  have run := debugRun_concat calls call
  generalize eq : debugCall (debugRun calls).1 (opens (debugRun calls).2) call = next at run
  obtain ⟨s', events⟩ := next
  rcases debugCall_cases accounted.owns eq with ⟨writes, handle, close, other⟩ |
    ⟨given, rfl, rfl, handle, close⟩ | ⟨before, after, rfl, silent, what, other⟩
  · exact accounted.write run writes handle close other
  · rw [List.append_nil] at run
    exact accounted.pass run handle close
  · exact accounted.replace run silent what other

/-- **Any sequence of calls**, by induction on it from the right. -/
theorem streamsAccounted (calls : List DebugCall) : StreamsAccounted calls := by
  induction calls using List.reverseRecOn with
  | nil => exact streamsAccounted_nil
  | append_singleton calls call ih => exact ih.step call

/-- **The streams of `debug.c`**: whatever is called in whatever order, only streams that
were opened here are closed, each once and not used again, and the ones that are open are
the current one and those that the caller displaced.  So `qdone` leaves open what was
displaced, and nothing else. -/
theorem streams_debugRun (calls : List DebugCall) :
    Orderly (debugRun calls).2 ∧
    (∀ n, .fopen (.opened n) ∈ (debugRun calls).2 ∧ .fclose (.opened n) ∉ (debugRun calls).2 ↔
      (debugRun calls).1.debugHandle = some (.opened n) ∨ Displaced calls n) ∧
    ∀ n, .fopen (.opened n) ∈ (debugRun (calls ++ [.qdone])).2 ∧
      .fclose (.opened n) ∉ (debugRun (calls ++ [.qdone])).2 ↔ Displaced calls n := by
  refine ⟨(streamsAccounted calls).kept.orderly, (streamsAccounted calls).standing, ?_⟩
  intro n
  have done : (debugRun (calls ++ [.qdone])).1.debugHandle = none := by
    rw [debugRun_concat]
    rfl
  have after := (streamsAccounted (calls ++ [DebugCall.qdone])).standing n
  rw [done, displaced_concat] at after
  simpa using after

end Debug

/-! ## The program

Each process of the program makes one of two calls to set up its output, writes, and calls
`qdone` at the end.  None opens a file. -/

/-- `stderr`. -/
def stderrHandle : Nat := 2

/-- The functions that write. -/
def DebugCall.Output : DebugCall → Prop
  | qprintf _ | qdebugf _ _ | qhexprint _ _ _ | qhexdebug _ _ _ _ => True
  | qinitSyslog | qinitFileHandle _ | qinitFileName _ | qdone | qsetlevel _ => False

/-- A hex dump that is not above the level. -/
def DebugCall.Dumps (debugLevel : Int) : DebugCall → Prop
  | qhexprint _ _ _ => True
  | qhexdebug level _ _ _ => level ≤ debugLevel
  | _ => False

/-- What a process of the program calls: `main` in the beginning and at the end, and
whatever is written in between. -/
def mainCalls (config : Config) (outputs : List DebugCall) : List DebugCall :=
  [if config.foreground then .qinitFileHandle (some stderrHandle) else .qinitSyslog,
    .qsetlevel config.debugLevel] ++ outputs ++ [.qdone]

section Program

variable {s : Debug} {outputs : List DebugCall} {call : DebugCall} {config : Config}

/-- The variables of `debug.c` while the program runs. -/
def Config.debug (config : Config) : Debug where
  debugSyslog := !config.foreground
  debugHandle := if config.foreground then some (.passed stderrHandle) else none
  debugClose := false
  debugLevel := config.debugLevel

/-- What an output writes does not depend on what was opened. -/
theorem debugCall_output (output : call.Output) (count : Nat) :
    debugCall s count call = (s, (debugCall s 0 call).2) := by
  cases call with
  | qprintf | qdebugf | qhexprint | qhexdebug => rfl
  | qinitSyslog | qinitFileHandle | qinitFileName | qdone | qsetlevel => exact output.elim

/-- Output leaves the static variables alone, so a sequence of it can be looked at call
by call. -/
private theorem foldl_outputs (output : ∀ call ∈ outputs, call.Output) (log : List SinkEvent) :
    outputs.foldl (fun (s, log) call =>
        let (s, events) := debugCall s (opens log) call
        (s, log ++ events)) (s, log) =
      (s, log ++ outputs.flatMap fun call => (debugCall s 0 call).2) := by
  induction outputs generalizing log with
  | nil => simp
  | cons call outputs ih =>
      rw [List.foldl_cons, List.flatMap_cons, ← List.append_assoc]
      dsimp only
      rw [debugCall_output (output call List.mem_cons_self)]
      exact ih (fun other mem => output other (List.mem_cons_of_mem _ mem)) _

/-- The log of the program: its set-up, the output of each call, and its end. -/
private theorem log_mainCalls (output : ∀ call ∈ outputs, call.Output) :
    (debugRun (mainCalls config outputs)).2 =
      (if config.foreground then [] else [.openlog]) ++
        (outputs.flatMap fun call => (debugCall config.debug 0 call).2) ++
          if config.foreground then [] else [.closelog] := by
  have start : debugRun [if config.foreground then .qinitFileHandle (some stderrHandle)
      else .qinitSyslog, .qsetlevel config.debugLevel] =
      (config.debug, if config.foreground then [] else [.openlog]) := by
    cases foreground : config.foreground <;> simp [debugRun, debugCall, Config.debug, foreground]
  have before : debugRun ([if config.foreground then .qinitFileHandle (some stderrHandle)
      else .qinitSyslog, .qsetlevel config.debugLevel] ++ outputs) =
      (config.debug, (if config.foreground then [] else [.openlog]) ++
        outputs.flatMap fun call => (debugCall config.debug 0 call).2) := by
    rw [debugRun, List.foldl_append, ← debugRun, start]
    exact foldl_outputs output _
  rw [mainCalls, debugRun_concat, before]
  cases foreground : config.foreground <;>
    simp [debugCall, Config.debug, Debug.closed, foreground]

/-- In the foreground everything goes to `stderr`. -/
theorem qoutputv_foreground (foreground : config.foreground = true) (written : Int) :
    qoutputv config.debug written =
      (.vfprintf (.passed stderrHandle) ::
        if 0 < written then [.fflush (.passed stderrHandle)] else [], some written) := by
  simp [qoutputv, Config.debug, foreground]

/-- A daemon has the system log only. -/
theorem qoutputv_daemon (daemon : config.foreground = false) (written : Int) :
    qoutputv config.debug written = ([.vsyslog], none) := by
  simp [qoutputv, Config.debug, daemon]

/-- In foreground mode everything that is printed goes to standard error, and nothing is
opened for it. -/
private theorem output_foreground (foreground : config.foreground = true) (output : call.Output) :
    ∀ e ∈ (debugCall config.debug 0 call).2,
      e = .vfprintf (.passed stderrHandle) ∨ e = .fflush (.passed stderrHandle) := by
  have text (written : Int) : ∀ e ∈ (qoutputv config.debug written).1,
      e = .vfprintf (.passed stderrHandle) ∨ e = .fflush (.passed stderrHandle) := by
    intro e mem
    rw [qoutputv_foreground foreground] at mem
    rcases List.mem_cons.mp mem with rfl | mem
    · exact .inl rfl
    · split at mem
      · exact .inr (List.mem_singleton.mp mem)
      · cases mem
  have dump (lines : Nat) (garbage : Int) (written : Nat → Int) :
      ∀ e ∈ qhexoutputv config.debug lines garbage written,
        e = .vfprintf (.passed stderrHandle) ∨ e = .fflush (.passed stderrHandle) := by
    intro e mem
    simp only [qhexoutputv, List.mem_append] at mem
    rcases mem with (mem | mem) | mem
    · exact text _ e mem
    · rw [qoutputv_foreground foreground] at mem
      simp at mem
    · split at mem
      · obtain ⟨line, -, mem⟩ := List.mem_flatMap.mp mem
        exact text _ e mem
      · cases mem
  intro e mem
  cases call with
  | qprintf written => exact text written e mem
  | qhexprint lines garbage written => exact dump lines garbage written e mem
  | qdebugf level written =>
      rw [debugCall] at mem
      split at mem
      · exact text written e mem
      · cases mem
  | qhexdebug level lines garbage written =>
      rw [debugCall] at mem
      split at mem
      · exact dump lines garbage written e mem
      · cases mem
  | qinitSyslog | qinitFileHandle | qinitFileName | qdone | qsetlevel => exact output.elim

/-- Otherwise it goes to the system log, and `Back` is left unset by the dumps that are
made. -/
theorem output_daemon (daemon : config.foreground = false) (output : call.Output) :
    (∀ e ∈ (debugCall config.debug 0 call).2, e = .vsyslog ∨ e = .unset) ∧
      (.unset ∈ (debugCall config.debug 0 call).2 ↔ call.Dumps config.debugLevel) := by
  have dump (lines : Nat) (garbage : Int) (written : Nat → Int) :
      (∀ e ∈ qhexoutputv config.debug lines garbage written, e = .vsyslog ∨ e = .unset) ∧
        .unset ∈ qhexoutputv config.debug lines garbage written := by
    simp only [qhexoutputv, qoutputv_daemon daemon, List.mem_append]
    constructor
    · rintro e ((mem | mem) | mem)
      · exact .inl (List.mem_singleton.mp mem)
      · exact .inr (List.mem_singleton.mp mem)
      · split at mem
        · obtain ⟨line, -, mem⟩ := List.mem_flatMap.mp mem
          exact .inl (List.mem_singleton.mp mem)
        · cases mem
    · exact .inl (.inr List.mem_cons_self)
  have level : config.debug.debugLevel = config.debugLevel := rfl
  cases call with
  | qprintf written => simp [debugCall, qoutputv_daemon daemon, DebugCall.Dumps]
  | qhexprint lines garbage written =>
      exact ⟨(dump lines garbage written).1, iff_of_true (dump lines garbage written).2 trivial⟩
  | qdebugf debugLevel written =>
      by_cases le : debugLevel ≤ config.debugLevel <;>
        simp [debugCall, level, qoutputv_daemon daemon, DebugCall.Dumps, le]
  | qhexdebug debugLevel lines garbage written =>
      by_cases le : debugLevel ≤ config.debugLevel
      · simp only [debugCall, level, if_pos le]
        exact ⟨(dump lines garbage written).1, iff_of_true (dump lines garbage written).2 le⟩
      · simp [debugCall, level, DebugCall.Dumps, le]
  | qinitSyslog | qinitFileHandle | qinitFileName | qdone | qsetlevel => exact output.elim

end Program

/-- **The output of the program**: whatever a process writes, in the foreground it goes to
`stderr` and nothing goes wrong, and that of a daemon goes to the system log.  There
`qhexoutput` looks at a `Back` that was never set exactly if a hex dump is not above the
level. -/
theorem sinks_mainCalls (config : Config) (outputs : List DebugCall)
    (output : ∀ call ∈ outputs, call.Output) :
    (config.foreground = true → ∀ e ∈ (debugRun (mainCalls config outputs)).2,
      e = .vfprintf (.passed stderrHandle) ∨ e = .fflush (.passed stderrHandle)) ∧
    (config.foreground = false →
      (∃ events, (debugRun (mainCalls config outputs)).2 = [.openlog] ++ events ++ [.closelog] ∧
        ∀ e ∈ events, e = .vsyslog ∨ e = .unset) ∧
      (.unset ∈ (debugRun (mainCalls config outputs)).2 ↔
        ∃ call ∈ outputs, call.Dumps config.debugLevel)) := by
  have log : (debugRun (mainCalls config outputs)).2 = _ := log_mainCalls output
  constructor
  · intro foreground e mem
    rw [log] at mem
    simp only [foreground, if_true, List.nil_append, List.append_nil, List.mem_flatMap] at mem
    obtain ⟨call, called, mem⟩ := mem
    exact output_foreground foreground (output call called) e mem
  · intro daemon
    rw [log]
    simp only [daemon, Bool.false_eq_true, if_false]
    refine ⟨⟨_, rfl, ?_⟩, ?_⟩
    · intro e mem
      obtain ⟨call, called, mem⟩ := List.mem_flatMap.mp mem
      exact (output_daemon daemon (output call called)).1 e mem
    · simp only [List.mem_append, List.mem_singleton, List.mem_flatMap, reduceCtorEq, false_or,
        or_false]
      refine exists_congr fun call => and_congr_right fun called => ?_
      exact (output_daemon daemon (output call called)).2

/-- A daemon with the option `-d` four times looks at what was not set with the first data
it relays. -/
theorem sinks_firstDump :
    .unset ∈ (debugRun (mainCalls { configInit with debugLevel := 4 }
      [.qprintf 0, .qhexdebug 4 1 0 fun _ => 0])).2 :=
  ((sinks_mainCalls { configInit with debugLevel := 4 }
    [.qprintf 0, .qhexdebug 4 1 0 fun _ => 0] (by simp [DebugCall.Output])).2 rfl).2.mpr
      ⟨_, .tail _ (.head _), Int.le_refl 4⟩

end HaasProxy
