import HaasProxy.Pipes

/-!
# Relays

What the callbacks make of the data of a client and of the backend, while libssh
makes one callback after another: the session channels are relayed to each other,
a forward is a pipe of its own, and the end of a stream is passed on whether or
not the data before it was.

## Main definitions and results

* `SessionRelayed` and `sessionRelayed_proxyRun` — the relay of a session;
* `ForwardsIsolated` and `forwardsIsolated_proxyRun` — the forwards, in every mode;
* `EofInOrder`, `Drained` and `eofInOrder_iff_drained` — the end of a stream.

## Design notes

All three are read off `piped_proxyRun`, in the words of the context and of the pairs
instead of those of the wires.

The callbacks for the end of a stream look at nothing before they pass it on.  So the end
overtakes exactly what libssh still holds, which is what the far end has not accepted.
That is an equivalence and not only an implication because the pipe is exact where the
end is sent.
-/

namespace HaasProxy

/-! ## What is to hold -/

/-- **The session channels are relayed to each other**: wherever something is
logged, either has accepted the beginning of what has arrived on the other, and
libssh holds the rest. -/
def SessionRelayed (run : Run Entry Stop Proxy Unit) : Prop :=
  ∀ s ∈ run.states, ∀ trapChannel haasChannel c o,
    s.context.trapChannel = some trapChannel → s.context.haasChannel = some haasChannel →
    s.channels.cell trapChannel = some c → s.channels.cell haasChannel = some o →
    c.PipesTo o ∧ o.PipesTo c

/-- What a pair does with data: in `ALLOW` mode its ends are relayed to each other,
in `ECHO` mode the source to itself. -/
structure Proxy.PairPiped (w : World) (s : Proxy) (pair : FwPair) : Prop where
  /-- From either end to the other one. -/
  allow : w.config.forwardMode = some .allow → ∀ e ch out c o,
    (pair.endpoint e).channel = some ch → (pair.endpoint e.other).channel = some out →
    s.channels.cell ch = some c → s.channels.cell out = some o → c.PipesTo o
  /-- From the source to itself. -/
  echo : w.config.forwardMode = some .echo → ∀ ch c, pair.source.channel = some ch →
    s.channels.cell ch = some c → c.PipesTo c

/-- **Forwards are isolated**: every pair is a pipe, no channel is an end of two
pairs or of a pair and of the session, and what is written is passed on within the
pair, or within the session. -/
structure ForwardsIsolated (w : World) (run : Run Entry Stop Proxy Unit) : Prop where
  /-- In every state of the run every pair does so. -/
  piped : ∀ s ∈ run.states, ∀ p pair, s.pairs.cell p = some pair → s.PairPiped w pair
  /-- No channel is an end of two things. -/
  apart : ∀ s ∈ run.states, ∀ ch, s.channels.cell ch ≠ none →
    ∀ table table', s.Serves ch table → s.Serves ch table' → table = table'
  /-- What is written is what is held of the channel at the other end. -/
  passesOn : ∀ e ∈ run.log, e.PassesOn w

/-- The proxy sends the end of the stream of `c` to `o`, in a session or in a pair
of the `ALLOW` mode. -/
def Ends (w : World) (h : List Entry) (e : Entry) (c o : Channel) : Prop :=
  ∃ table near out, e.action = .call (.sendEof out) ∧ e.before.Wire w table near out ∧
    (w.config.forwardMode = some .allow ∨ ∀ p, table ≠ .forwardChannelCB p) ∧
    Recorded h e.before near c ∧ e.before.channels.cell out = some o

/-- **The end of a stream does not overtake its data**: where it is sent all that
has arrived was accepted. -/
def EofInOrder (w : World) (l : List Entry) : Prop :=
  Throughout (fun h e => ∀ c o, Ends w h e c o → ∀ isStderr,
    o.accepted isStderr = c.received isStderr) l

/-- Where the end of a stream is sent libssh holds nothing of it. -/
def Drained (w : World) (l : List Entry) : Prop :=
  Throughout (fun h e => ∀ c o, Ends w h e c o → ∀ isStderr, c.buffered isStderr = []) l

/-! ## The session -/

/-- **The relay of a session loses, repeats and reorders nothing.** In both directions
and on both streams: what was written to one session channel is a prefix of what arrived
on the other, at every entry of the log, and what is missing is what libssh still holds. -/
theorem sessionRelayed_proxyRun (w : World) (fuel depth : Nat) (alone : depth ≤ 1) :
    SessionRelayed (proxyRun w fuel depth) := by
  intro s mem trapChannel haasChannel c o trap haas cell cell'
  have isolated := isolated_states w fuel alone s mem
  constructor
  · exact isolated.pipes .trapChannelCB trapChannel haasChannel c o ⟨trap, haas⟩ cell cell'
  · exact isolated.pipes .haasChannelCB haasChannel trapChannel o c ⟨haas, trap⟩ cell' cell

/-- The backend accepts one byte of two, and the client's end of the stream
follows. -/
def eofAfterTwoBytes : World :=
  .scripted .allow [(13, 2), (32, 1)]
    [(6, loginAndChannel),
      (31, [.channel 0 (.data false [1, 2]), .channel 0 .eof, .channel 0 .close])]

/-- The conditions can be met: two bytes of data and their end, passed on in this order. -/
theorem sessionRelayed_eofAfterTwoBytes :
    SessionRelayed (proxyRun eofAfterTwoBytes 3 1) ∧
      ∃ e ∈ (proxyRun eofAfterTwoBytes 3 1).log, e.action = .call (.sendEof 1) ∧
        e.before.context.trapChannel = some 0 ∧ e.before.context.haasChannel = some 1 ∧
        (e.before.channels.cell 0).any (fun c => c.received false = [1, 2]) ∧
        (e.before.channels.cell 1).any (fun o => o.accepted false = [1]) :=
  ⟨sessionRelayed_proxyRun eofAfterTwoBytes 3 1 (by decide), by decide +kernel⟩

/-! ## Forwards -/

/-- Where all channels are isolated, the two of a pair are. -/
private theorem pairPiped_of_isolated {w : World} {s : Proxy} (isolated : s.Isolated w) {p : PairId}
    {pair : FwPair} (cell : s.pairs.cell p = some pair) : s.PairPiped w pair := by
  constructor
  · intro mode e ch out c o near far here there
    exact isolated.pipes (.forwardChannelCB p) ch out c o ⟨pair, cell, .inl ⟨mode, e, near, far⟩⟩
      here there
  · intro mode ch c source here
    exact isolated.pipes (.forwardChannelCB p) ch ch c c ⟨pair, cell, .inr ⟨mode, source, rfl⟩⟩
      here here

/-- **Forwards are isolated, ordered pipes**, in every state of a run and for every
pair: what was written to an end is, on each stream, a prefix of what arrived at the
other one, or at the same one in `ECHO` mode, and libssh holds the remainder. No channel
is an end of two pairs, or of a pair and the session. Data events come one after
another, which is what `depth ≤ 1` says. -/
theorem forwardsIsolated_proxyRun (w : World) (fuel depth : Nat) (alone : depth ≤ 1) :
    ForwardsIsolated w (proxyRun w fuel depth) := by
  have isolated := isolated_states w fuel alone
  refine ⟨?_, ?_, ?_⟩
  · intro s mem p pair cell
    exact pairPiped_of_isolated (isolated s mem) cell
  · intro s mem
    exact (isolated s mem).apart
  · intro e mem
    obtain ⟨l₁, l₂, split⟩ := List.append_of_mem mem
    exact ((piped_proxyRun w fuel alone).1 l₁ e l₂ split).passesOn

/-- A forward to a destination, with data both ways of which a part is
accepted. -/
def forwardBothWays : World :=
  .scripted .allow [(13, 2), (42, 1), (44, 1)]
    [(6, loginAndChannel), (31, [requestForward, .channel 3 (.data false [1, 2]),
      .channel 2 (.data true [7]), .channel 0 .close])]

/-- The conditions can be met: a forward with data both ways. -/
theorem forwardsIsolated_forwardBothWays :
    ForwardsIsolated forwardBothWays (proxyRun forwardBothWays 3 1) ∧
      ∃ e ∈ (proxyRun forwardBothWays 3 1).log, e.action = .leave (.channel 0 .close) ∧
        (e.before.pairs.cell 0).any (fun pair =>
          pair.source.channel = some 3 ∧ pair.destiny.channel = some 2) ∧
        (e.before.channels.cell 2).any (fun o => o.accepted false = [1]) ∧
        (e.before.channels.cell 3).any (fun o => o.accepted true = [7]) :=
  ⟨forwardsIsolated_proxyRun forwardBothWays 3 1 (by decide), by decide +kernel⟩

/-! ## The end of a stream -/

/-- **The end of a stream does not overtake its data exactly if nothing is held when it
is sent.** What is held are the bytes that a callback was offered and did not take,
because the write to the other end was refused or short. The proxy passes the end on as
soon as it is told of it, and looks at nothing before. -/
theorem eofInOrder_iff_drained (w : World) (fuel depth : Nat) (alone : depth ≤ 1) :
    EofInOrder w (proxyRun w fuel depth).log ↔ Drained w (proxyRun w fuel depth).log := by
  have each := (piped_proxyRun w fuel alone).1
  have flows {l₁ l₂ : List Entry} {e : Entry} {c o : Channel}
      (split : (proxyRun w fuel depth).log = l₁ ++ e :: l₂) (ends : Ends w l₁ e c o) :
      c.Flows o := by
    obtain ⟨table, near, out, action, wire, -, recorded, cell⟩ := ends
    exact (each l₁ e l₂ split).flows out action table near out c o wire recorded cell
  constructor
  · intro inOrder l₁ e l₂ split c o ends isStderr
    exact (flows split ends isStderr).accepted_eq_iff.mp (inOrder l₁ e l₂ split c o ends isStderr)
  · intro drained l₁ e l₂ split c o ends isStderr
    exact (flows split ends isStderr).accepted_eq_iff.mpr (drained l₁ e l₂ split c o ends isStderr)

/-- The backend accepts both bytes before the end of the stream. -/
def eofAfterAll : World :=
  .scripted .allow [(13, 2), (32, 2)]
    [(6, loginAndChannel),
      (31, [.channel 0 (.data false [1, 2]), .channel 0 .eof, .channel 0 .close])]

/-- The condition is met where libssh holds nothing back when the end comes. -/
theorem eofInOrder_eofAfterAll :
    (EofInOrder eofAfterAll (proxyRun eofAfterAll 3 1).log ↔
      Drained eofAfterAll (proxyRun eofAfterAll 3 1).log) ∧
      ∃ e ∈ (proxyRun eofAfterAll 3 1).log, e.action = .call (.sendEof 1) ∧
        (e.before.channels.cell 1).any (fun o => o.accepted false = [1, 2]) :=
  ⟨eofInOrder_iff_drained eofAfterAll 3 1 (by decide), by decide +kernel⟩

/-- The second byte is still held when the end of the stream is passed on. -/
theorem eofAfterTwoBytes_notInOrder :
    ¬ EofInOrder eofAfterTwoBytes (proxyRun eofAfterTwoBytes 3 1).log := by
  intro inOrder
  have overtaken : ∃ e ∈ (proxyRun eofAfterTwoBytes 3 1).log, e.action = .call (.sendEof 1) ∧
      e.before.context.trapChannel = some 0 ∧ e.before.context.haasChannel = some 1 ∧
      (e.before.channels.cell 0).any (fun c => c.received false = [1, 2]) ∧
      (e.before.channels.cell 1).any (fun o => o.accepted false = [1]) := by decide +kernel
  obtain ⟨e, mem, action, trap, haas, received, accepted⟩ := overtaken
  obtain ⟨c, cell, received⟩ := (Option.any_eq_true _ _).mp received
  obtain ⟨o, cell', accepted⟩ := (Option.any_eq_true _ _).mp accepted
  obtain ⟨l₁, l₂, split⟩ := List.append_of_mem mem
  have all := inOrder l₁ e l₂ split c o
    ⟨.trapChannelCB, 0, 1, action, ⟨trap, haas⟩, .inl rfl, .inl cell, cell'⟩ false
  rw [of_decide_eq_true received, of_decide_eq_true accepted] at all
  cases all

end HaasProxy
