import HaasProxy.Backend
import HaasProxy.Lib.Pipe
import HaasProxy.Wiring

/-!
# The wires are pipes

What a channel has accepted is what has arrived on the channel that is wired to
it, as far as the callbacks have passed it on; libssh holds the rest.  `Flowing`
carries this along a run.  While data is being passed on some of what libssh holds
was accepted already, so in between `Isolated` is all that is left of it.

## Main definitions and results

* `Channel.Flows`, `Channel.PipesTo` — the exact relation between steps, and what is left
  of it within one;
* `Proxy.Isolated` — every wire is a pipe, and no channel is of use for two of them;
* `Entry.PassesOn` — what is written is what is held at the other end of a wire;
* `flowing_advance` — a step keeps the wires pipes;
* `isolated_of_flowing`, `isolated_of_registering` — what holds in the middle of a step;
* `piped_proxyRun` — all of this, for every entry of every run.

## Design notes

**Two relations.**  Between two steps `received = accepted ++ buffered` holds for every wire
and stream.  A data callback writes first, and what it has consumed is dropped when it
returns.  So between the write and the answer the far end has accepted some of what is still
in the buffer.  `Pipe.Passes` is weak enough to hold there as well: what was accepted is a
beginning of what has arrived, and what is held is the rest from some earlier point on.

**Where the end is sent.**  An end of the stream is sent by a step of its own, so it is asked
of the exact relation.  It is also asked of a channel that was freed by then, since the far end
outlives the near one: `Recorded` is what was last known of it.

**One step moves data.**  By `Handling` only `relay` and `discard` drop anything from a buffer,
only `relay` writes, and only `arrive` adds.  For the others it is enough that channels and
wires are what they were.
-/

namespace HaasProxy

/-! ## What is to hold

Of two channels, of a state, of an entry, and of a run so far. -/

namespace Channel

/-- What has arrived on `c` is what `o` has accepted, and what is held of `c`. -/
def Flows (c o : Channel) : Prop := ∀ isStderr,
  Pipe.Flows (c.received isStderr) (o.accepted isStderr) (c.buffered isStderr)

/-- **`o` has accepted the beginning of what has arrived on `c`, and the rest is
held.** -/
def PipesTo (c o : Channel) : Prop := ∀ isStderr,
  Pipe.Passes (c.received isStderr) (o.accepted isStderr) (c.buffered isStderr)

/-- Nothing was written to the channel, and nothing read from it. -/
def Unused (c : Channel) : Prop := ∀ isStderr,
  c.accepted isStderr = [] ∧ c.buffered isStderr = c.received isStderr

/-- The data of a channel. -/
def data (c : Channel) : (Bool → List UInt8) × (Bool → List UInt8) × (Bool → List UInt8) :=
  (c.received, c.buffered, c.accepted)

end Channel

/-- The channel is what callbacks of a table are about. -/
def Proxy.Serves (s : Proxy) (ch : ChannelId) : ChannelCallbacks → Prop
  | .trapChannelCB => s.context.trapChannel = some ch
  | .haasChannelCB => s.context.haasChannel = some ch
  | .forwardChannelCB p => ∃ pair, s.pairs.cell p = some pair ∧
      ∃ e, (pair.endpoint e).channel = some ch

/-- The wires are pipes, and a channel is an end of one of them only. -/
structure Proxy.Isolated (w : World) (s : Proxy) : Prop where
  /-- The far end has accepted the beginning of what arrived at the near one, and the rest is
  held. -/
  pipes : ∀ table ch out c o, s.Wire w table ch out → s.channels.cell ch = some c →
    s.channels.cell out = some o → c.PipesTo o
  /-- A channel is of use for one table only. -/
  apart : ∀ ch, s.channels.cell ch ≠ none →
    ∀ table table', s.Serves ch table → s.Serves ch table' → table = table'

/-- **What is written to a channel is what is held of the channel wired to it.**
What a forward holds goes to the backend in `ALLOW` mode only. -/
def Entry.PassesOn (w : World) (e : Entry) : Prop :=
  ∀ out isStderr data, e.action = .call (.write out isStderr data) →
    ∃ table ch c, e.before.Wire w table ch out ∧ e.before.channels.cell ch = some c ∧
      data = c.buffered isStderr ∧
      (w.config.forwardMode ≠ some .allow → ∀ p, table = .forwardChannelCB p →
        ∀ o, e.before.channels.cell out = some o → e.before.context.haasSession ≠ some o.session)

/-- What was last known of a channel, which may be freed. -/
def Recorded (h : List Entry) (s : Proxy) (ch : ChannelId) (c : Channel) : Prop :=
  s.channels.cell ch = some c ∨ s.channels.cell ch = none ∧
    ∃ e ∈ h, e.action = .call (.channelFree ch) ∧ e.before.channels.cell ch = some c

/-- The invariant: what has arrived was passed on or is held. -/
structure Flowing (w : World) (h : List Entry) (s : Proxy) : Prop where
  /-- To a channel that calls nobody nothing was written, and what arrived on it is all held. -/
  unused : ∀ ch c, s.channels.cell ch = some c → c.callbacks = none → c.Unused
  /-- The pipe stands also where its near end was freed, as that was then. -/
  flows : ∀ table ch out c o, s.Wire w table ch out → Recorded h s ch c →
    s.channels.cell out = some o → c.Flows o
  /-- A channel that was freed does not come back. -/
  gone : ∀ e ∈ h, ∀ ch, e.action = .call (.channelFree ch) → e.before.channels.cell ch ≠ none →
    ch < s.channels.next ∧ s.channels.cell ch = none

/-! ## One step

What a step does to the pipes: data arrives and is relayed, or is discarded; a pair is
registered, and two pipes begin; an end goes, and they end. All else leaves them alone. -/

section Steps

variable {w : World} {serial : Prop} {h l : List Entry} {s s' t : Proxy}

/-- The three streams of a channel are one record here, so they are compared at once. -/
theorem Channel.data_eq {c c' : Channel} (same : c'.data = c.data) :
    c'.received = c.received ∧ c'.buffered = c.buffered ∧ c'.accepted = c.accepted :=
  ⟨congrArg Prod.fst same, congrArg (fun d => d.2.1) same, congrArg (fun d => d.2.2) same⟩

/-- What flows depends on the data. -/
theorem Channel.Flows.of_same {c o c' o' : Channel} (flows : c.Flows o)
    (received : c'.received = c.received) (buffered : c'.buffered = c.buffered)
    (accepted : o'.accepted = o.accepted) : c'.Flows o' := by
  intro isStderr
  rw [received, buffered, accepted]
  exact flows isStderr

/-- What flows is a pipe: what was accepted is a beginning of what has arrived. -/
theorem Channel.Flows.pipesTo {c o : Channel} (flows : c.Flows o) : c.PipesTo o := fun isStderr =>
  (flows isStderr).passes

/-- A step records nothing new of a channel that is freed, unless it frees it. -/
theorem recorded_of_append {ch : ChannelId} {c : Channel}
    (flowing : Flowing w h s)
    (freed : ∀ e ∈ l, e.action = .call (.channelFree ch) → e.before.channels = s.channels)
    (recorded : Recorded (h ++ l) s' ch c) :
    s'.channels.cell ch = some c ∨ s'.channels.cell ch = none ∧ Recorded h s ch c := by
  refine recorded.imp_right ?_
  rintro ⟨none, e, mem, action, there⟩
  refine ⟨none, ?_⟩
  rcases List.mem_append.mp mem with mem | mem
  · refine .inr ⟨?_, e, mem, action, there⟩
    exact (flowing.gone e mem ch action (there ▸ Option.some_ne_none c)).2
  · exact .inl (freed e mem action ▸ there)

/-- What was freed stays freed. -/
theorem gone_of_cells (flowing : Flowing w h s) (next : s.channels.next ≤ s'.channels.next)
    (cells : ∀ ch < s.channels.next, s'.channels.cell ch ≠ none → s.channels.cell ch ≠ none)
    (freed : ∀ e ∈ l, ∀ ch, e.action = .call (.channelFree ch) →
      e.before.channels = s.channels ∧ s'.channels.cell ch = none) :
    ∀ e ∈ h ++ l, ∀ ch, e.action = .call (.channelFree ch) → e.before.channels.cell ch ≠ none →
      ch < s'.channels.next ∧ s'.channels.cell ch = none := by
  intro e mem ch action there
  rcases List.mem_append.mp mem with mem | mem
  · obtain ⟨below, none⟩ := flowing.gone e mem ch action there
    refine ⟨Nat.lt_of_lt_of_le below next, ?_⟩
    by_contra there
    exact cells ch below there none
  · obtain ⟨same, none⟩ := freed e mem ch action
    obtain ⟨c, cell⟩ := Option.ne_none_iff_exists'.mp there
    rw [same] at cell
    exact ⟨Nat.lt_of_lt_of_le (s.channels.lt_next_of_cell cell) next, none⟩

/-- Where pairs are only taken apart no wire is new. -/
theorem wire_of_thins {table : ChannelCallbacks} {ch out : ChannelId} (same : SameChannels s s')
    (thins : Thins s s') (wire : s'.Wire w table ch out) : s.Wire w table ch out := by
  cases table with
  | trapChannelCB => exact ⟨same.trapChannel ▸ wire.1, same.haasChannel ▸ wire.2⟩
  | haasChannelCB => exact ⟨same.haasChannel ▸ wire.1, same.trapChannel ▸ wire.2⟩
  | forwardChannelCB p =>
      obtain ⟨pair', cell', goes⟩ := wire
      rcases thins.cells p pair' cell' with ⟨pair, cell, ends, -⟩ | ⟨-, rfl⟩
      · refine ⟨pair, cell, goes.imp ?_ ?_⟩
        · rintro ⟨mode, e, near, far⟩
          exact ⟨mode, e, ends e ch near, ends e.other out far⟩
        · rintro ⟨mode, source, same⟩
          exact ⟨mode, ends .source ch source, same⟩
      · rcases goes with ⟨-, e, near, -⟩ | ⟨-, source, -⟩
        · cases e <;> cases near
        · cases source

/-- The data is left alone. -/
theorem flowing_of_plain (wired : Wired w h s) (flowing : Flowing w h s)
    (channels : Carries Channel.record s s' ∨ ∃ session, Obtains s l session s')
    (next : s.channels.next ≤ s'.channels.next) (same : SameChannels s s') (pairs : Thins s s')
    (entries : ∀ e ∈ l, e.before.channels = s.channels ∧ e.before.pairs = s.pairs)
    (freed : ∀ e ∈ l, ∀ ch, e.action = .call (.channelFree ch) → s'.channels.cell ch = none) :
    Flowing w (h ++ l) s' := by
  -- a channel that had a number is an old one, with its data
  have old {ch : ChannelId} {c' : Channel} (below : ch < s.channels.next)
      (cell' : s'.channels.cell ch = some c') :
      ∃ c, s.channels.cell ch = some c ∧ c'.record = c.record := by
    rcases cell_of_plain channels cell' with here | ⟨rfl, -⟩
    · exact here
    · exact absurd below (Nat.lt_irrefl _)
  have data {c c' : Channel} (record : c'.record = c.record) : c'.data = c.data :=
    congrArg (fun r => r.2.2) record
  refine ⟨?_, ?_, ?_⟩
  · intro ch c' cell' unused
    rcases cell_of_plain channels cell' with ⟨c, cell, record⟩ | ⟨-, -, empty⟩
    · obtain ⟨received, buffered, accepted⟩ := c.data_eq (data record)
      intro b
      rw [received, buffered, accepted]
      exact flowing.unused ch c cell ((congrArg (fun r => r.2.1) record).symm.trans unused) b
    · intro b
      obtain ⟨received, buffered, accepted⟩ := empty b
      rw [received, buffered, accepted]
      exact ⟨rfl, rfl⟩
  · intro table ch out c' o' wire' recorded' cellOut'
    have wire := wire_of_thins same pairs wire'
    obtain ⟨registered, registeredOut⟩ := registered_of_wire wired wire
    obtain ⟨o, cellOut, recordOut⟩ := old registeredOut.1 cellOut'
    have recorded : ∃ c, Recorded h s ch c ∧ c'.record = c.record := by
      rcases recorded_of_append flowing (fun e mem _ => (entries e mem).1) recorded' with
        cell' | ⟨-, recorded⟩
      · obtain ⟨c, cell, record⟩ := old registered.1 cell'
        exact ⟨c, .inl cell, record⟩
      · exact ⟨c', recorded, rfl⟩
    obtain ⟨c, recorded, record⟩ := recorded
    obtain ⟨received, buffered, -⟩ := c.data_eq (data record)
    exact (flowing.flows table ch out c o wire recorded cellOut).of_same received buffered
      (o.data_eq (data recordOut)).2.2
  · refine gone_of_cells flowing next ?_ fun e mem ch action =>
      ⟨(entries e mem).1, freed e mem ch action⟩
    intro ch below there
    obtain ⟨c', cell'⟩ := Option.ne_none_iff_exists'.mp there
    obtain ⟨c, cell, -⟩ := old below cell'
    rw [cell]
    exact Option.some_ne_none c

/-- What a step that frees no channel does to the data of the channels. -/
theorem flowing_of_cells (flowing : Flowing w h s)
    (next : s'.channels.next = s.channels.next)
    (wires : ∀ table ch out, s'.Wire w table ch out → s.Wire w table ch out)
    (cells : ∀ ch c', s'.channels.cell ch = some c' → ∃ c, s.channels.cell ch = some c ∧
      c'.callbacks = c.callbacks ∧ (c.callbacks = none → c.Unused → c'.Unused))
    (stays : ∀ ch, s'.channels.cell ch = none → s.channels.cell ch = none)
    (flows : ∀ table ch out c' c o' o, s.Wire w table ch out → s'.channels.cell ch = some c' →
      s.channels.cell ch = some c → s'.channels.cell out = some o' → s.channels.cell out = some o →
      c.Flows o → c'.Flows o')
    (last : ∀ table ch out o' o, s.Wire w table ch out → s.channels.cell ch = none →
      s'.channels.cell out = some o' → s.channels.cell out = some o → o'.accepted = o.accepted)
    (freed : ∀ e ∈ l, ∀ ch, e.action ≠ .call (.channelFree ch)) : Flowing w (h ++ l) s' := by
  refine ⟨?_, ?_, ?_⟩
  · intro ch c' cell' unused
    obtain ⟨c, cell, callbacks, stays⟩ := cells ch c' cell'
    rw [callbacks] at unused
    exact stays unused (flowing.unused ch c cell unused)
  · intro table ch out c' o' wire' recorded' cellOut'
    have wire := wires table ch out wire'
    obtain ⟨o, cellOut, -⟩ := cells out o' cellOut'
    rcases recorded_of_append flowing (fun e mem action => absurd action (freed e mem ch))
      recorded' with cell' | ⟨none, recorded⟩
    · obtain ⟨c, cell, -⟩ := cells ch c' cell'
      exact flows table ch out c' c o' o wire cell' cell cellOut' cellOut
        (flowing.flows table ch out c o wire (.inl cell) cellOut)
    · intro b
      rw [last table ch out o' o wire (stays ch none) cellOut' cellOut]
      exact flowing.flows table ch out c' o wire recorded cellOut b
  · refine gone_of_cells flowing (Nat.le_of_eq next.symm) ?_ fun e mem ch action =>
      absurd action (freed e mem ch)
    intro ch _ there
    obtain ⟨c', cell'⟩ := Option.ne_none_iff_exists'.mp there
    obtain ⟨c, cell, -⟩ := cells ch c' cell'
    rw [cell]
    exact Option.some_ne_none c

/-- Data that arrives is held, and nothing has been accepted of it yet. -/
theorem Channel.Flows.arrive {c o : Channel} (flows : c.Flows o) (event : ChannelEvent) :
    (c.arrive event).Flows o := by
  cases event with
  | data isStderr bytes =>
      intro b
      by_cases stream : b = isStderr
      · subst stream
        simp only [Channel.arrive, Function.update_self]
        exact (flows b).arrive bytes
      · simp only [Channel.arrive, Function.update_of_ne stream]
        exact flows b
  | _ => exact flows

/-- A channel on which data arrives has still accepted none. -/
theorem Channel.Unused.arrive {c : Channel} (unused : c.Unused) (event : ChannelEvent) :
    (c.arrive event).Unused := by
  cases event with
  | data isStderr bytes =>
      intro b
      refine ⟨(unused b).1, ?_⟩
      by_cases stream : b = isStderr
      · subst stream
        simp only [Channel.arrive, Function.update_self, (unused b).2]
      · simp only [Channel.arrive, Function.update_of_ne stream, (unused b).2]
  | _ => exact unused

/-- What arrives on a channel does not change what it has accepted. -/
theorem Channel.accepted_arrive (c : Channel) (event : ChannelEvent) :
    (c.arrive event).accepted = c.accepted := by
  cases event <;> rfl

/-- Data that has arrived. -/
theorem flowing_of_arrive (flowing : Flowing w h s) (ch : ChannelId) (event : ChannelEvent) :
    Flowing w (h ++ []) (s.updateChannel ch fun c => c.arrive event) := by
  have cells (z : ChannelId) : (s.updateChannel ch fun c => c.arrive event).channels.cell z =
      (s.channels.cell z).map fun c => if z = ch then c.arrive event else c := by
    rw [cell_updateChannel]
    split
    · rfl
    · rw [Option.map_id']
  refine flowing_of_cells flowing ?_ ?_ ?_ ?_ ?_ ?_ ?_
  · simp
  · intro table x y
    exact wire_of_thins ⟨by simp, by simp, by simp⟩ (thins_of_pairs (by simp))
  · intro z c' cell'
    rw [cells] at cell'
    obtain ⟨c, cell, rfl⟩ := Option.map_eq_some_iff.mp cell'
    refine ⟨c, cell, ?_, ?_⟩
    · split
      · cases event <;> rfl
      · rfl
    · intro _ unused
      split
      · exact unused.arrive event
      · exact unused
  · intro z none
    rw [cells] at none
    exact Option.map_eq_none_iff.mp none
  · intro table x y c' c o' o wire cell' cell cellOut' cellOut flows
    rw [cells, cell] at cell'
    rw [cells, cellOut] at cellOut'
    cases cell'
    cases cellOut'
    have arrived : (if x = ch then c.arrive event else c).Flows o := by
      split
      · exact flows.arrive event
      · exact flows
    refine arrived.of_same rfl rfl ?_
    split
    · exact o.accepted_arrive event
    · rfl
  · intro table x y o' o wire none cellOut' cellOut
    rw [cells, cellOut] at cellOut'
    cases cellOut'
    split
    · exact o.accepted_arrive event
    · rfl
  · exact fun _ => nofun

/-- A channel after something was written to `out` and consumed of `ch`. -/
def Channel.relayed (c : Channel) (z ch out : ChannelId) (isStderr : Bool) (data : List UInt8)
    (i back : Int) : Channel :=
  { c with
    accepted := if z = out then
        Function.update c.accepted isStderr
          (c.accepted isStderr ++ data.take (writeResult (some c) i data).toNat)
      else c.accepted
    buffered := if z = ch then
        Function.update c.buffered isStderr ((c.buffered isStderr).drop back.toNat)
      else c.buffered }

/-- The channels after data was passed on: one has it accepted, the other one's buffer
is shorter. -/
theorem cell_relayed (ch out : ChannelId) (isStderr : Bool) (bytes data : List UInt8) (i back : Int)
    (during after : SessionId → Bool) (z : ChannelId) :
    (s.relayed w ch out isStderr bytes data i back during after).channels.cell z =
      (s.channels.cell z).map fun c => c.relayed z ch out isStderr data i back := by
  simp only [Proxy.relayed, Call.effect, Proxy.idled, Proxy.tock, cell_updateChannel,
    Channel.relayed, Channel.consume]
  by_cases far : z = out
  · by_cases near : z = ch
    · simp only [if_pos far, if_pos near, Option.map_map]
      rfl
    · simp only [if_pos far, if_neg near]
  · by_cases near : z = ch
    · simp only [if_neg far, if_pos near]
    · simp only [if_neg far, if_neg near, Option.map_id']

/-- Data that was passed on. -/
theorem flowing_of_relay (wired : Wired w h s) (flowing : Flowing w h s) {ch out : ChannelId}
    {c : Channel} {table : ChannelCallbacks} (isStderr : Bool) (bytes : List UInt8) (i : Int)
    (during after : SessionId → Bool) (cell : s.channels.cell ch = some c)
    (callbacks : c.callbacks = some table) (outlet : s.outlet w ch table = some out) {back : Int}
    (answer : back = writeResult (s.channels.cell out) i (c.buffered isStderr)) :
    Flowing w
      (h ++ relayLog w s ch out isStderr bytes (c.buffered isStderr) i back during after)
      (s.relayed w ch out isStderr bytes (c.buffered isStderr) i back during after) := by
  have wire := wire_of_outlet wired cell callbacks outlet
  refine flowing_of_cells flowing ?_ ?_ ?_ ?_ ?_ ?_ ?_
  · simp [Proxy.relayed, Proxy.idled, Proxy.tock, Call.effect]
  · intro table x y
    exact wire_of_thins ⟨by simp [Proxy.relayed, Proxy.idled], by simp [Proxy.relayed, Proxy.idled],
      by simp [Proxy.relayed, Proxy.idled]⟩
      (thins_of_pairs (by simp [Proxy.relayed, Proxy.idled, Proxy.tock, Call.effect]))
  · intro z c' cell'
    rw [cell_relayed] at cell'
    obtain ⟨c₀, cell₀, rfl⟩ := Option.map_eq_some_iff.mp cell'
    refine ⟨c₀, cell₀, rfl, ?_⟩
    intro unused untouched
    have near : z ≠ ch := by
      rintro rfl
      cases cell.symm.trans cell₀
      cases unused.symm.trans callbacks
    have far : z ≠ out := by
      rintro rfl
      cases unused.symm.trans ((registered_of_wire wired wire).2.2 c₀ cell₀)
    rw [Channel.relayed, if_neg near, if_neg far]
    exact untouched
  · intro z none
    rw [cell_relayed] at none
    exact Option.map_eq_none_iff.mp none
  · intro table' x y c' c₁ o' o wire' cell' cell₁ cellOut' cellOut flows
    rw [cell_relayed, cell₁] at cell'
    rw [cell_relayed, cellOut] at cellOut'
    cases cell'
    cases cellOut'
    -- the wire of `ch` is the one data was written to; any other one has another far end too
    by_cases same : x = ch
    · subst same
      cases cell.symm.trans cell₁
      obtain rfl : y = out := wire_functional wired wire' wire cell
      rw [cellOut] at answer
      intro b
      -- what was accepted moves from the buffer to the far end
      by_cases stream : b = isStderr
      · subst stream
        simp only [Channel.relayed, if_true, Function.update_self, ← answer]
        exact (flows b).pass _
      · simp only [Channel.relayed, if_true, Function.update_of_ne stream]
        exact flows b
    · have far : y ≠ out := by
        rintro rfl
        exact same (wire_injective wired wire' wire cellOut)
      exact flows.of_same rfl (if_neg same) (if_neg far)
  · intro table' x y o' o wire' none cellOut' cellOut
    rw [cell_relayed, cellOut] at cellOut'
    cases cellOut'
    refine if_neg ?_
    rintro rfl
    obtain rfl := wire_injective wired wire' wire cellOut
    cases cell.symm.trans none
  · simp [relayLog]

/-- Data that is not passed on stays where it is, or goes nowhere. -/
theorem flowing_of_discard (wired : Wired w h s) (flowing : Flowing w h s) {ch : ChannelId}
    {c : Channel} {table : ChannelCallbacks} (isStderr : Bool) (bytes : List UInt8)
    (cell : s.channels.cell ch = some c) (callbacks : c.callbacks = some table) {back : Int}
    (answer : back = sshError ∨
      w.config.forwardMode = some .null ∧ ∃ p, table = .forwardChannelCB p)
    (same : SameChannels s t) (pairs : t.pairs = s.pairs) (channels : t.channels = s.channels)
    (freed : ∀ e ∈ l, ∀ ch, e.action ≠ .call (.channelFree ch)) :
    Flowing w (h ++ l) (t.updateChannel ch fun c => c.consume back (.data isStderr bytes)) := by
  have cells (z : ChannelId) :
      (t.updateChannel ch fun c => c.consume back (.data isStderr bytes)).channels.cell z =
        (s.channels.cell z).map fun c =>
          if z = ch then c.consume back (.data isStderr bytes) else c := by
    rw [cell_updateChannel, channels]
    split
    · rfl
    · rw [Option.map_id']
  refine flowing_of_cells flowing ?_ ?_ ?_ ?_ ?_ ?_ freed
  · simp [channels]
  · intro table x y
    exact wire_of_thins ⟨by simp [same.trapSession], by simp [same.trapChannel],
      by simp [same.haasChannel]⟩ (thins_of_pairs (by simp [pairs]))
  · intro z c' cell'
    rw [cells] at cell'
    obtain ⟨c₀, cell₀, rfl⟩ := Option.map_eq_some_iff.mp cell'
    refine ⟨c₀, cell₀, ?_, ?_⟩
    · split <;> rfl
    · intro unused untouched
      have near : z ≠ ch := by
        rintro rfl
        cases cell.symm.trans cell₀
        cases unused.symm.trans callbacks
      rw [if_neg near]
      exact untouched
  · intro z none
    rw [cells] at none
    exact Option.map_eq_none_iff.mp none
  · intro table' x y c' c₁ o' o wire cell' cell₁ cellOut' cellOut flows
    rw [cells, cell₁] at cell'
    rw [cells, cellOut] at cellOut'
    cases cell'
    cases cellOut'
    have consumed : (if x = ch then c₁.consume back (.data isStderr bytes) else c₁).Flows o := by
      split
      · rename_i near
        subst near
        cases cell.symm.trans cell₁
        -- what is consumed goes nowhere, so there must be no wire
        rcases answer with rfl | ⟨mode, p, rfl⟩
        · -- an error consumes nothing
          have nothing : c.consume sshError (.data isStderr bytes) = c := by
            simp [Channel.consume, sshError]
          rw [nothing]
          exact flows
        · -- in `NULL` mode the channel of a forward has none
          have registered := (registered_of_wire wired wire).1.2 c cell
          obtain rfl : table' = .forwardChannelCB p :=
            Option.some.inj (registered.symm.trans callbacks)
          obtain ⟨pair, -, ⟨mode', -⟩ | ⟨mode', -⟩⟩ := wire <;> cases mode.symm.trans mode'
      · exact flows
    refine consumed.of_same rfl rfl ?_
    split <;> rfl
  · intro table' x y o' o wire none cellOut' cellOut
    rw [cells, cellOut] at cellOut'
    cases cellOut'
    split <;> rfl

/-- Channels are connected that were in no use yet. -/
theorem flowing_of_couples {new : ChannelId → Option ChannelCallbacks}
    (flowing : Flowing w h s) (couples : Couples w new s s')
    (freed : ∀ e ∈ l, ∀ ch, e.action ≠ .call (.channelFree ch)) : Flowing w (h ++ l) s' := by
  have cells {ch : ChannelId} {c' : Channel} (cell' : s'.channels.cell ch = some c') :
      ∃ c, s.channels.cell ch = some c ∧
        c' = { c with callbacks := (new ch).or c.callbacks } := by
    rw [couples.cells] at cell'
    obtain ⟨c, cell, rfl⟩ := Option.map_eq_some_iff.mp cell'
    exact ⟨c, cell, rfl⟩
  -- the channels that are connected had no table, so by the invariant they are unused
  have unused {ch : ChannelId} {c : Channel} (connected : new ch ≠ none)
      (cell : s.channels.cell ch = some c) : c.Unused := by
    obtain ⟨table, eq⟩ := Option.ne_none_iff_exists'.mp connected
    obtain ⟨c₀, cell₀, callbacks⟩ := couples.fresh ch table eq
    cases cell₀.symm.trans cell
    exact flowing.unused ch c cell callbacks
  have stays {ch : ChannelId} (gone : s'.channels.cell ch = none) :
      s.channels.cell ch = none := by
    rw [couples.cells] at gone
    exact Option.map_eq_none_iff.mp gone
  refine ⟨?_, ?_, ?_⟩
  · intro ch c' cell' callbacks
    obtain ⟨c, cell, rfl⟩ := cells cell'
    exact flowing.unused ch c cell (Option.or_eq_none_iff.mp callbacks).2
  · intro table ch out c' o' wire' recorded' cellOut'
    obtain ⟨o, cellOut, rfl⟩ := cells cellOut'
    have recorded := recorded_of_append flowing
      (fun e mem action => absurd action (freed e mem ch)) recorded'
    -- a wire is an old one, or it is new and between two unused channels
    rcases couples.wires table ch out wire' with wire | ⟨connected, connectedOut⟩
    · rcases recorded with cell' | ⟨-, recorded⟩
      · obtain ⟨c, cell, rfl⟩ := cells cell'
        exact (flowing.flows table ch out c o wire (.inl cell) cellOut).of_same rfl rfl rfl
      · exact (flowing.flows table ch out c' o wire recorded cellOut).of_same rfl rfl rfl
    · obtain ⟨table', eq⟩ := Option.ne_none_iff_exists'.mp connected
      obtain ⟨c, cell, -⟩ := couples.fresh ch table' eq
      rcases recorded with cell' | ⟨gone, -⟩
      · obtain ⟨c, cell, rfl⟩ := cells cell'
        intro b
        show Pipe.Flows (c.received b) (o.accepted b) (c.buffered b)
        rw [(unused connectedOut cellOut b).1, (unused connected cell b).2]
        exact Pipe.flows_unused
      · cases cell.symm.trans (stays gone)
  · refine gone_of_cells flowing (Nat.le_of_eq couples.next.symm) ?_ fun e mem ch action =>
      absurd action (freed e mem ch)
    intro ch _ there
    obtain ⟨c', cell'⟩ := Option.ne_none_iff_exists'.mp there
    obtain ⟨c, cell, -⟩ := cells cell'
    rw [cell]
    exact Option.some_ne_none c

/-- **A step keeps the wires pipes.** -/
theorem flowing_advance (alone : serial) (kept : Kept h s) (wired : Wired w h s)
    (flowing : Flowing w h s) (advance : Advance w serial h s l s') : Flowing w (h ++ l) s' := by
  have done : ∀ p, Released h p → ∀ pair, s.pairs.cell p = some pair → pair.context = none :=
    fun p released => (wired.released p released).2
  cases handling_of_advance alone done advance with
  | plain channels next same pairs entries unwritten freed released =>
      exact flowing_of_plain wired flowing channels next same pairs entries freed
  | arrive ch event => exact flowing_of_arrive flowing ch event
  | relay isStderr bytes i during after cell callbacks outlet answer =>
      exact flowing_of_relay wired flowing isStderr bytes i during after cell callbacks outlet answer
  | discard isStderr bytes cell callbacks answer waited =>
      refine flowing_of_discard wired flowing isStderr bytes cell callbacks answer ?_ ?_ ?_ (by simp)
      · rcases waited with rfl | ⟨b, rfl⟩ <;> exact ⟨rfl, rfl, rfl⟩
      · rcases waited with rfl | ⟨b, rfl⟩ <;> rfl
      · rcases waited with rfl | ⟨b, rfl⟩ <;> rfl
  | adopt trapChannel haasChannel i j obtained first second =>
      exact flowing_of_couples flowing
        (couples_of_adopt kept.consistent obtained first second) (by simp)
  | register offered pair used source destiny pools l mid =>
      refine flowing_of_couples flowing (couples_of_register offered source destiny) ?_
      intro e mem ch
      obtain ⟨-, ⟨allocation, action⟩ | ⟨ch, action⟩⟩ := mid e mem <;> simp [action]

private theorem flowing_initial : Flowing w [] Proxy.initial where
  unused := nofun
  flows table ch out c o wire recorded cell := by cases cell
  gone := List.forall_mem_nil _

/-! ## In the middle of a step

The states in which the entries of a step are logged are those between its first and its
last. -/

/-- A channel that serves by a table was registered with it. -/
theorem registered_of_serves (wired : Wired w h s) {ch : ChannelId} {table : ChannelCallbacks}
    (serves : s.Serves ch table) : s.Registered ch table := by
  cases table with
  | trapChannelCB => exact wired.trapChannel ch serves
  | haasChannelCB => exact wired.haasChannel ch serves
  | forwardChannelCB p =>
      obtain ⟨pair, cell, e, here⟩ := serves
      exact wired.ends p pair cell e ch here

/-- A channel serves by one table only, since it was registered with one only. -/
theorem apart_of_serves (wired : Wired w h s) {ch : ChannelId} (there : s.channels.cell ch ≠ none)
    {table table' : ChannelCallbacks} (serves : s.Serves ch table) (serves' : s.Serves ch table') :
    table = table' := by
  obtain ⟨c, cell⟩ := Option.ne_none_iff_exists'.mp there
  have here := (registered_of_serves wired serves).2 c cell
  exact Option.some.inj (here.symm.trans ((registered_of_serves wired serves').2 c cell))

/-- Which channels serve depends on the session and the pairs. -/
theorem serves_of_same {ch : ChannelId} {table : ChannelCallbacks} (same : SameChannels s t)
    (pairs : t.pairs = s.pairs) (serves : t.Serves ch table) : s.Serves ch table := by
  cases table with
  | trapChannelCB => exact same.trapChannel.symm.trans serves
  | haasChannelCB => exact same.haasChannel.symm.trans serves
  | forwardChannelCB p =>
      obtain ⟨pair, cell, here⟩ := serves
      exact ⟨pair, pairs ▸ cell, here⟩

/-- Where the wires are the same and the data is, too. -/
theorem isolated_of_data (wired : Wired w h s) (flowing : Flowing w h s) (same : SameChannels s t)
    (pairs : t.pairs = s.pairs) (carries : Carries Channel.data s t) : t.Isolated w := by
  refine ⟨?_, ?_⟩
  · intro table ch out c' o' wire' cell' cellOut'
    obtain ⟨c, cell, data⟩ := carries ch c' cell'
    obtain ⟨o, cellOut, dataOut⟩ := carries out o' cellOut'
    obtain ⟨received, buffered, -⟩ := c.data_eq data
    have wire := wire_of_thins same (thins_of_pairs pairs) wire'
    have flows := flowing.flows table ch out c o wire (.inl cell) cellOut
    exact (flows.of_same received buffered (o.data_eq dataOut).2.2).pipesTo
  · intro ch there table table' serves serves'
    obtain ⟨c', cell'⟩ := Option.ne_none_iff_exists'.mp there
    obtain ⟨c, cell, -⟩ := carries ch c' cell'
    exact apart_of_serves wired (cell ▸ Option.some_ne_none c)
      (serves_of_same same pairs serves) (serves_of_same same pairs serves')

/-- **Where everything flows, everything is isolated.** Two channels that are wired to
the same one are the same, and each is a pipe. -/
theorem isolated_of_flowing (wired : Wired w h s) (flowing : Flowing w h s) : s.Isolated w :=
  isolated_of_data wired flowing ⟨rfl, rfl, rfl⟩ rfl (.refl s)

/-- The beginning of the data was accepted. -/
def Channel.wrote (c : Channel) (isStderr : Bool) (data : List UInt8) (n : Nat) : Channel :=
  { c with accepted := Function.update c.accepted isStderr (c.accepted isStderr ++ data.take n) }

/-- What was written is not consumed yet. -/
theorem isolated_of_written (wired : Wired w h s) (flowing : Flowing w h s) {ch out : ChannelId}
    {c : Channel} {table : ChannelCallbacks} (isStderr : Bool) (n : Channel → Nat)
    (cell : s.channels.cell ch = some c) (wire : s.Wire w table ch out) (same : SameChannels s t)
    (pairs : t.pairs = s.pairs) (cells : ∀ z, t.channels.cell z = (s.channels.cell z).map fun o =>
      if z = out then o.wrote isStderr (c.buffered isStderr) (n o) else o) : t.Isolated w := by
  refine ⟨?_, ?_⟩
  · intro table' x y c' o' wire' cell' cellOut'
    rw [cells] at cell' cellOut'
    obtain ⟨c₁, cell₁, rfl⟩ := Option.map_eq_some_iff.mp cell'
    obtain ⟨o, cellOut, rfl⟩ := Option.map_eq_some_iff.mp cellOut'
    have wire₁ := wire_of_thins same (thins_of_pairs pairs) wire'
    have flows := flowing.flows table' x y c₁ o wire₁ (.inl cell₁) cellOut
    have passes : c₁.PipesTo
        (if y = out then o.wrote isStderr (c.buffered isStderr) (n o) else o) := by
      by_cases far : y = out
      · subst far
        obtain rfl : x = ch := wire_injective wired wire₁ wire cellOut
        cases cell.symm.trans cell₁
        intro b
        rw [if_pos rfl]
        by_cases stream : b = isStderr
        · subst stream
          simp only [Channel.wrote, Function.update_self]
          exact (flows b).passing _
        · simp only [Channel.wrote, Function.update_of_ne stream]
          exact (flows b).passes
      · rw [if_neg far]
        exact flows.pipesTo
    split
    · exact passes
    · exact passes
  · intro z there table table' serves serves'
    refine apart_of_serves wired ?_ (serves_of_same same pairs serves)
      (serves_of_same same pairs serves')
    intro gone
    rw [cells, gone] at there
    exact there rfl

section Registering

variable {src : ChannelId} {dst : Option ChannelId} {pools : Heap (FwPool (Option PairId))}

/-- The channels of a new pair have no table yet. -/
theorem fresh_of_mine (offered : Offered w True h s src dst) {ch : ChannelId}
    (mine : src = ch ∨ dst = some ch) : ∃ c, s.channels.cell ch = some c ∧ c.callbacks = none := by
  obtain ⟨⟨c, cell, -, callbacks⟩, destination⟩ := fresh_of_offered offered
  rcases mine with rfl | eq
  · exact ⟨c, cell, callbacks⟩
  · exact (destination ch eq).2.2

variable (registering : Registering s s.pairs.next src dst pools t)

include registering

/-- The registration of a forward leaves the data of all channels alone. -/
private theorem carries_of_registering : Carries Channel.data s t := by
  intro ch c' cell'
  rcases registering.channels ch with eq | eq
  · exact ⟨c', eq ▸ cell', rfl⟩
  · rw [eq, Proxy.registerPair, cell_updateChannel, if_pos rfl] at cell'
    obtain ⟨c, cell, rfl⟩ := Option.map_eq_some_iff.mp cell'
    exact ⟨c, cell, rfl⟩

/-- The ends of the new pair, as far as they are filled in. -/
theorem mine_of_registering {pair : FwPair} {e : End} {ch : ChannelId}
    (pairCell : t.pairs.cell s.pairs.next = some pair)
    (here : (pair.endpoint e).channel = some ch) : src = ch ∨ dst = some ch := by
  obtain ⟨-, source, destiny⟩ := registering.pair pair pairCell
  cases e with
  | source =>
      rcases source with none | eq
      · cases none.symm.trans here
      · exact .inl (Option.some.inj (eq.symm.trans here))
  | destiny =>
      rcases destiny with none | eq
      · cases none.symm.trans here
      · exact .inr (eq.symm.trans here)

/-- A channel serves what it did, or the new pair. -/
theorem serves_of_registering {ch : ChannelId} {table : ChannelCallbacks}
    (serves : t.Serves ch table) :
    s.Serves ch table ∨ table = .forwardChannelCB s.pairs.next ∧ (src = ch ∨ dst = some ch) := by
  cases table with
  | trapChannelCB | haasChannelCB =>
      refine .inl ?_
      rw [Proxy.Serves, registering.context] at serves
      exact serves
  | forwardChannelCB p =>
      obtain ⟨pair, pairCell, e, here⟩ := serves
      by_cases same : p = s.pairs.next
      · subst same
        exact .inr ⟨rfl, mine_of_registering registering pairCell here⟩
      · exact .inl ⟨pair, (registering.others p same).symm.trans pairCell, e, here⟩

/-- A wire was there before, or both its ends are of the new pair. -/
private theorem wire_of_registering {table : ChannelCallbacks} {ch out : ChannelId}
    (wire' : t.Wire w table ch out) :
    s.Wire w table ch out ∨ (src = ch ∨ dst = some ch) ∧ (src = out ∨ dst = some out) := by
  cases table with
  | trapChannelCB | haasChannelCB =>
      refine .inl ?_
      rw [Proxy.Wire, registering.context] at wire'
      exact wire'
  | forwardChannelCB p =>
      obtain ⟨pair, pairCell, goes⟩ := wire'
      by_cases same : p = s.pairs.next
      · subst same
        refine .inr ?_
        rcases goes with ⟨-, e, near, far⟩ | ⟨-, near, rfl⟩
        · exact ⟨mine_of_registering registering pairCell near,
            mine_of_registering registering pairCell far⟩
        · have here := mine_of_registering registering (e := .source) pairCell near
          exact ⟨here, here⟩
      · exact .inl ⟨pair, (registering.others p same).symm.trans pairCell, goes⟩

/-- **While a pair is filled in** its channels are in no use: nothing was read from them or
written to them, so the new wires are empty pipes. -/
theorem isolated_of_registering (wired : Wired w h s) (flowing : Flowing w h s)
    (offered : Offered w True h s src dst) : t.Isolated w := by
  have carries := carries_of_registering registering
  have unused {ch : ChannelId} {c : Channel} (mine : src = ch ∨ dst = some ch)
      (cell : s.channels.cell ch = some c) : c.Unused := by
    obtain ⟨c₀, cell₀, callbacks⟩ := fresh_of_mine offered mine
    cases cell₀.symm.trans cell
    exact flowing.unused ch c cell callbacks
  refine ⟨?_, ?_⟩
  · intro table ch out c' o' wire' cell' cellOut'
    obtain ⟨c, cell, data⟩ := carries ch c' cell'
    obtain ⟨o, cellOut, dataOut⟩ := carries out o' cellOut'
    obtain ⟨received, buffered, -⟩ := c.data_eq data
    have flows : c.Flows o := by
      rcases wire_of_registering registering wire' with wire | ⟨new, newOut⟩
      · exact flowing.flows table ch out c o wire (.inl cell) cellOut
      · intro b
        rw [(unused newOut cellOut b).1, (unused new cell b).2]
        exact Pipe.flows_unused
    exact (flows.of_same received buffered (o.data_eq dataOut).2.2).pipesTo
  · intro ch there table table' here here'
    obtain ⟨c', cell'⟩ := Option.ne_none_iff_exists'.mp there
    obtain ⟨c, cell, -⟩ := carries ch c' cell'
    have apart {table table' : ChannelCallbacks} (old : s.Serves ch table)
        (new : src = ch ∨ dst = some ch) : table = table' := by
      obtain ⟨c₀, cell₀, unused⟩ := fresh_of_mine offered new
      cases unused.symm.trans ((registered_of_serves wired old).2 c₀ cell₀)
    rcases serves_of_registering registering here with old | ⟨rfl, new⟩
    · rcases serves_of_registering registering here' with old' | ⟨-, new'⟩
      · exact apart_of_serves wired (cell ▸ Option.some_ne_none c) old old'
      · exact apart old new'
    · rcases serves_of_registering registering here' with old' | ⟨rfl, -⟩
      · exact (apart old' new).symm
      · rfl

end Registering

/-- What is to hold of an entry. -/
structure Entry.Piped (w : World) (h : List Entry) (e : Entry) : Prop where
  isolated : e.before.Isolated w
  passesOn : e.PassesOn w
  /-- Where a stream is ended, what had arrived for it has been passed on or is held. -/
  flows : ∀ ch, e.action = .call (.sendEof ch) → ∀ table near far c o,
    e.before.Wire w table near far → Recorded h e.before near c →
    e.before.channels.cell far = some o → c.Flows o

theorem piped_quiet {e : Entry} (isolated : e.before.Isolated w)
    (unwritten : ∀ ch isStderr data, e.action ≠ .call (.write ch isStderr data))
    (unended : ∀ ch, e.action ≠ .call (.sendEof ch)) : e.Piped w h where
  isolated := isolated
  passesOn out isStderr data action := absurd action (unwritten out isStderr data)
  flows ch action := absurd action (unended ch)

/-- Data is passed on in the middle of a step. -/
theorem piped_of_relay (numbered : s.Numbered) (wired : Wired w h s) (flowing : Flowing w h s)
    {ch out : ChannelId}
    {c : Channel} {table : ChannelCallbacks} (isStderr : Bool) (bytes : List UInt8) (i : Int)
    (during after : SessionId → Bool) (cell : s.channels.cell ch = some c)
    (callbacks : c.callbacks = some table) (outlet : s.outlet w ch table = some out) {back : Int} :
    ∀ e ∈ relayLog w s ch out isStderr bytes (c.buffered isStderr) i back during after,
      ∀ h', e.Piped w h' := by
  have wire := wire_of_outlet wired cell callbacks outlet
  let t : Proxy := { s.tock with blocking := during }
  have before : t.Isolated w :=
    isolated_of_data wired flowing ⟨rfl, rfl, rfl⟩ rfl (.of_channels rfl)
  have cells : ∀ z, ((Call.write out isStderr (c.buffered isStderr)).effect i t).channels.cell z =
      (s.channels.cell z).map fun o => if z = out then o.wrote isStderr (c.buffered isStderr)
        (writeResult (some o) i (c.buffered isStderr)).toNat else o := by
    intro z
    simp only [Call.effect, cell_updateChannel]
    split
    · rfl
    · rw [Option.map_id']
      rfl
  -- between the write and the answer the data is at both ends
  have written : ((Call.write out isStderr (c.buffered isStderr)).effect i t).Isolated w :=
    isolated_of_written wired flowing isStderr _ cell wire
      ⟨by simp [t, Proxy.tock], by simp [t, Proxy.tock], by simp [t, Proxy.tock]⟩
      (by simp [Call.effect, t, Proxy.tock]) cells
  have waited : (({ (Call.write out isStderr (c.buffered isStderr)).effect i t with
      blocking := after } : Proxy).idled w).Isolated w :=
    isolated_of_written wired flowing isStderr _ cell wire
      ⟨by simp [Proxy.idled, t, Proxy.tock], by simp [Proxy.idled, t, Proxy.tock],
        by simp [Proxy.idled, t, Proxy.tock]⟩
      (by simp [Call.effect, Proxy.idled, t, Proxy.tock]) cells
  simp only [relayLog, List.forall_mem_cons]
  refine ⟨?_, ?_, ?_, ?_, List.forall_mem_nil _⟩
  · intro h'
    exact piped_quiet (isolated_of_flowing wired flowing) (by simp) (by simp)
  · intro h'
    refine ⟨before, ?_, by simp⟩
    intro out' b data eq
    cases eq
    refine ⟨table, ch, c, wire, cell, rfl, ?_⟩
    -- a forward writes to the client if it writes in another mode than `ALLOW`
    rintro mode p rfl o cellOut
    obtain ⟨pair, pairCell, ⟨allow, -⟩ | ⟨-, source, rfl⟩⟩ := wire
    · exact absurd allow mode
    · rw [wired.client p pair pairCell out source o cellOut]
      exact numbered.ne
  · intro h'
    exact piped_quiet written (by simp) (by simp)
  · intro h'
    exact piped_quiet waited (by simp) (by simp)

/-- Where nothing but data is left alone. -/
theorem piped_of_plain (wired : Wired w h s) (flowing : Flowing w h s) {l₁ l₂ : List Entry}
    {e : Entry} (split : l = l₁ ++ e :: l₂)
    (entries : ∀ e ∈ l, e.before.channels = s.channels ∧ e.before.pairs = s.pairs)
    (within : Within s e.before)
    (unwritten : ∀ e ∈ l, ∀ ch isStderr data, e.action ≠ .call (.write ch isStderr data)) :
    e.Piped w (h ++ l₁) := by
  subst split
  have mem : e ∈ l₁ ++ e :: l₂ := List.mem_append_right l₁ (.head l₂)
  obtain ⟨channels, pairs⟩ := entries e mem
  have same : SameChannels s e.before := by
    obtain ⟨⟨timer, context⟩, -⟩ := within
    exact ⟨by rw [context], by rw [context], by rw [context]⟩
  refine ⟨isolated_of_data wired flowing same pairs (.of_channels channels), ?_, ?_⟩
  · intro out isStderr data action
    exact absurd action (unwritten e mem out isStderr data)
  · intro ch action table near far c o wire recorded cell
    have wire₀ := wire_of_thins same (thins_of_pairs pairs) wire
    rw [channels] at cell
    refine flowing.flows table near far c o wire₀ ?_ cell
    rcases recorded with here | ⟨gone, e', mem', action', there⟩
    · exact .inl (channels ▸ here)
    · rw [channels] at gone
      rcases List.mem_append.mp mem' with mem' | mem'
      · exact .inr ⟨gone, e', mem', action', there⟩
      · rw [(entries e' (List.mem_append_left _ mem')).1, gone] at there
        cases there

/-- **What is logged in a step is as it should be.** -/
theorem piped_of_advance (alone : serial) (numbered : s.Numbered) (kept : Kept h s)
    (wired : Wired w h s)
    (flowing : Flowing w h s) (advance : Advance w serial h s l s') :
    Throughout (fun l₁ e => e.Piped w (h ++ l₁)) l := by
  have done : ∀ p, Released h p → ∀ pair, s.pairs.cell p = some pair → pair.context = none :=
    fun p released => (wired.released p released).2
  have within := within_of_advance advance
  have here := isolated_of_flowing wired flowing
  intro l₁ e l₂ split
  have mem : e ∈ l := split ▸ List.mem_append_right l₁ (.head l₂)
  have withinHere := within e mem
  cases handling_of_advance alone done advance with
  | plain channels next same pairs entries unwritten freed released =>
      exact piped_of_plain wired flowing split entries withinHere unwritten
  | arrive ch event => cases mem
  | relay isStderr bytes i during after cell callbacks outlet answer =>
      exact piped_of_relay numbered wired flowing isStderr bytes i during after cell callbacks
        outlet e mem _
  | discard isStderr bytes cell callbacks answer waited =>
      -- the timer and the modes are no part of what is isolated
      have waitedHere : ∀ t, (t = s ∨ ∃ b, t = ({ s with blocking := b } : Proxy).idled w) →
          t.Isolated w := by
        rintro _ (rfl | ⟨b, rfl⟩)
        · exact here
        · exact isolated_of_data wired flowing ⟨rfl, rfl, rfl⟩ rfl (.of_channels rfl)
      rcases List.mem_cons.mp mem with rfl | mem
      · exact piped_quiet here (by simp) (by simp)
      · rw [List.mem_singleton.mp mem]
        exact piped_quiet (waitedHere _ waited) (by simp) (by simp)
  | adopt trapChannel haasChannel i j obtained first second =>
      rcases List.mem_cons.mp mem with rfl | mem
      · exact piped_quiet (isolated_of_data wired flowing ⟨rfl, rfl, rfl⟩ rfl (.of_channels rfl))
          (by simp) (by simp)
      · rw [List.mem_singleton.mp mem]
        refine piped_quiet (isolated_of_data wired flowing ?_ ?_ ?_) (by simp) (by simp)
        · exact ⟨by simp [first], by simp [first], by simp [first]⟩
        · simp [first, Call.effect, Proxy.tock]
        · have ticked : Carries Channel.data s s.tock := .of_channels rfl
          rw [first]
          exact ticked.updateChannel trapChannel fun _ => rfl
  | register offered pair used source destiny pools l mid =>
      obtain ⟨registering, action⟩ := mid e mem
      refine piped_quiet (isolated_of_registering registering wired flowing offered) ?_ ?_
      · obtain ⟨allocation, action⟩ | ⟨ch, action⟩ := action <;> simp [action]
      · obtain ⟨allocation, action⟩ | ⟨ch, action⟩ := action <;> simp [action]

end Steps

/-! ## Runs -/

section Runs

variable {depth : Nat}

/-- **Every entry of every run**, while callbacks do not nest: data is written to where
it belongs, in order, and the channels are isolated before each and in the end. -/
theorem piped_proxyRun (w : World) (fuel : Nat) (alone : depth ≤ 1) :
    Throughout (Entry.Piped w) (proxyRun w fuel depth).log ∧
      (proxyRun w fuel depth).state.Isolated w := by
  have walked := (path_proxyRun w fuel depth).inv_entries (P := Entry.Piped w)
    (I := fun h s => Numbering h s ∧ Kept h s ∧ Wired w h s ∧ Flowing w h s)
    (fun h s l s' inv advance => by
      obtain ⟨numbering, kept, wired, flowing⟩ := inv
      refine ⟨⟨numbering_advance numbering advance, kept_advance kept advance,
        wired_advance alone kept wired advance, flowing_advance alone kept wired flowing advance⟩,
        ?_⟩
      exact piped_of_advance alone numbering.here kept wired flowing advance)
    ⟨numbering_initial, kept_initial, wired_initial, flowing_initial⟩
  obtain ⟨⟨-, -, wired, flowing⟩, each⟩ := walked
  exact ⟨each, isolated_of_flowing wired flowing⟩

/-- So the pairs are isolated in every state of a run. -/
theorem isolated_states (w : World) (fuel : Nat) (alone : depth ≤ 1) :
    ∀ s ∈ (proxyRun w fuel depth).states, s.Isolated w := by
  obtain ⟨each, last⟩ := piped_proxyRun w fuel alone
  intro s mem
  rcases List.mem_append.mp mem with mem | mem
  · obtain ⟨e, known, rfl⟩ := List.mem_map.mp mem
    obtain ⟨l₁, l₂, split⟩ := List.append_of_mem known
    exact (each l₁ e l₂ split).isolated
  · rw [List.mem_singleton.mp mem]
    exact last

end Runs

end HaasProxy
