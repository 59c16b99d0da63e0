import HaasProxy.SessionState
import HaasProxy.Transitions.Handling

/-!
# Which channel is connected with which

All forwards share one table of callbacks.  A channel finds its pair through the
`userdata` of the table it was registered with, and the other end by comparing
itself with the source of that pair.  `Proxy.Wire` says where the data of a channel
is to go by this, and `Wired` why it is one place, and why nothing else goes there:
every channel that is referred to was registered with the table that says so, and
with no other.

This is about callbacks that come one after another.

## Main definitions and results

* `Proxy.Wire` — the wires of a state;
* `Wired` — the invariant;
* `wire_functional`, `wire_injective` — a wire leads to one channel, and nothing else leads
  there;
* `wire_of_outlet` — the callbacks follow the wires;
* `wired_of_couples` — what is connected stays told apart;
* `wired_advance` — the step.

## Design notes

**Both directions.**  That a channel refers to its table and the table to the channel are two
facts, and each is needed for the other.  From the table to the channel: data that arrives on
a registered channel goes where the pair says.  From the channel to the table: no other pair
has this channel, since it would have been registered with that one.

**Channels that are freed.**  A pointer may outlive its channel.  `Registered` speaks of the
channel only if it is still there, but in any case says that its number was given out, so
that a channel obtained later is a different one.

**The two steps that connect.**  The session channels are adopted, or a pair is registered,
which has only a source where nothing is opened at the backend.  Both are a `Couples`: some
channels that were registered with nothing get a table, and what referred to channels
before still refers to the same ones.  The invariant is kept by that, once for both.
-/

namespace HaasProxy

/-- The other end of a pair. -/
def End.other : End → End
  | .source => .destiny
  | .destiny => .source

/-- The other end of the other end is the end itself. -/
@[simp] theorem End.other_other (e : End) : e.other.other = e := by cases e <;> rfl

/-- **The wires**: the data of a channel that was registered with a table is to go
to another one, or in `ECHO` mode back to itself. -/
def Proxy.Wire (w : World) (s : Proxy) : ChannelCallbacks → ChannelId → ChannelId → Prop
  | .trapChannelCB, ch, out =>
      s.context.trapChannel = some ch ∧ s.context.haasChannel = some out
  | .haasChannelCB, ch, out =>
      s.context.haasChannel = some ch ∧ s.context.trapChannel = some out
  | .forwardChannelCB p, ch, out =>
      ∃ pair, s.pairs.cell p = some pair ∧
        (w.config.forwardMode = some .allow ∧ (∃ e, (pair.endpoint e).channel = some ch ∧
            (pair.endpoint e.other).channel = some out) ∨
          w.config.forwardMode = some .echo ∧ pair.source.channel = some ch ∧ out = ch)

/-- The table at the other end of a wire. -/
def ChannelCallbacks.partner : ChannelCallbacks → ChannelCallbacks
  | trapChannelCB => haasChannelCB
  | haasChannelCB => trapChannelCB
  | forwardChannelCB p => forwardChannelCB p

/-- A table is determined by the one at the other side. -/
theorem ChannelCallbacks.partner_injective {t t' : ChannelCallbacks}
    (same : t.partner = t'.partner) : t = t' := by
  cases t <;> cases t' <;> simp_all [partner]

/-- The channel was registered with the table, if it is still there. -/
def Proxy.Registered (s : Proxy) (ch : ChannelId) (table : ChannelCallbacks) : Prop :=
  ch < s.channels.next ∧ ∀ c, s.channels.cell ch = some c → c.callbacks = some table

/-- What was registered with a table is referred to. -/
def Proxy.Holds (s : Proxy) (ch : ChannelId) : ChannelCallbacks → Prop
  | .trapChannelCB => s.context.trapChannel = some ch
  | .haasChannelCB => s.context.haasChannel = some ch
  | .forwardChannelCB p => p < s.pairs.next ∧ ∀ pair, s.pairs.cell p = some pair →
      pair.context ≠ none → ∃ e, (pair.endpoint e).channel = some ch

/-- The invariant: channels refer to their tables, and tables to their channels. -/
structure Wired (w : World) (h : List Entry) (s : Proxy) : Prop where
  /-- The client's session channel was registered with its table. -/
  trapChannel : ∀ ch, s.context.trapChannel = some ch → s.Registered ch .trapChannelCB
  /-- So was the backend's with its own. -/
  haasChannel : ∀ ch, s.context.haasChannel = some ch → s.Registered ch .haasChannelCB
  /-- An end of a pair was registered with the pair. -/
  ends : ∀ p pair, s.pairs.cell p = some pair → ∀ e ch, (pair.endpoint e).channel = some ch →
    s.Registered ch (.forwardChannelCB p)
  /-- A pair has two different ends. -/
  apart : ∀ p pair, s.pairs.cell p = some pair → ∀ ch, pair.source.channel = some ch →
    pair.destiny.channel ≠ some ch
  /-- A pair has a channel to a destination in `ALLOW` mode only. -/
  allow : ∀ p pair, s.pairs.cell p = some pair → pair.destiny.channel ≠ none →
    w.config.forwardMode = some .allow
  /-- The source of a pair is a channel of the client's session. -/
  client : ∀ p pair, s.pairs.cell p = some pair → ∀ ch, pair.source.channel = some ch →
    ∀ c, s.channels.cell ch = some c → c.session = s.context.trapSession
  /-- The other way round: what a channel was registered with refers to the channel. -/
  holds : ∀ ch c table, s.channels.cell ch = some c → c.callbacks = some table →
    s.Holds ch table
  /-- A pair that was released is not in use any more. -/
  released : ∀ p, Released h p → p < s.pairs.next ∧
    ∀ pair, s.pairs.cell p = some pair → pair.context = none

section Wires

variable {w : World} {h : List Entry} {s : Proxy} {table table' : ChannelCallbacks}
  {ch ch' out out' : ChannelId} {c : Channel}

/-- Both ends of a wire are registered. -/
theorem registered_of_wire (wired : Wired w h s) (wire : s.Wire w table ch out) :
    s.Registered ch table ∧ s.Registered out table.partner := by
  cases table with
  | trapChannelCB => exact ⟨wired.trapChannel ch wire.1, wired.haasChannel out wire.2⟩
  | haasChannelCB => exact ⟨wired.haasChannel ch wire.1, wired.trapChannel out wire.2⟩
  | forwardChannelCB p =>
      obtain ⟨pair, cell, ⟨-, e, near, far⟩ | ⟨-, source, rfl⟩⟩ := wire
      · exact ⟨wired.ends p pair cell e ch near, wired.ends p pair cell e.other out far⟩
      · have here := wired.ends p pair cell .source out source
        exact ⟨here, here⟩

/-- The ends of a pair are different channels. -/
theorem end_of_channel (wired : Wired w h s) {p : PairId} {pair : FwPair} {e e' : End}
    (cell : s.pairs.cell p = some pair) (here : (pair.endpoint e).channel = some ch)
    (there : (pair.endpoint e').channel = some ch) : e = e' := by
  cases e <;> cases e' <;>
    first | rfl | exact absurd there (wired.apart p pair cell ch here) |
      exact absurd here (wired.apart p pair cell ch there)

/-- The wires of one table from one channel. -/
private theorem out_of_wire (wired : Wired w h s) (wire : s.Wire w table ch out)
    (wire' : s.Wire w table ch out') : out = out' := by
  cases table with
  | trapChannelCB | haasChannelCB => exact Option.some.inj (wire.2.symm.trans wire'.2)
  | forwardChannelCB p =>
      obtain ⟨pair, cell, ⟨mode, e, near, far⟩ | ⟨mode, source, rfl⟩⟩ := wire
      · obtain ⟨pair', cell', ⟨-, e', near', far'⟩ | ⟨mode', -⟩⟩ := wire'
        · obtain rfl : pair = pair' := Option.some.inj (cell.symm.trans cell')
          obtain rfl : e = e' := end_of_channel wired cell near near'
          exact Option.some.inj (far.symm.trans far')
        · cases mode.symm.trans mode'
      · obtain ⟨pair', cell', ⟨mode', -⟩ | ⟨-, -, rfl⟩⟩ := wire'
        · cases mode.symm.trans mode'
        · rfl

/-- The wires of one table to one channel. -/
private theorem from_of_wire (wired : Wired w h s) (wire : s.Wire w table ch out)
    (wire' : s.Wire w table ch' out) : ch = ch' := by
  cases table with
  | trapChannelCB | haasChannelCB => exact Option.some.inj (wire.1.symm.trans wire'.1)
  | forwardChannelCB p =>
      obtain ⟨pair, cell, ⟨mode, e, near, far⟩ | ⟨mode, source, rfl⟩⟩ := wire
      · obtain ⟨pair', cell', ⟨-, e', near', far'⟩ | ⟨mode', -⟩⟩ := wire'
        · obtain rfl : pair = pair' := Option.some.inj (cell.symm.trans cell')
          have same : e.other = e'.other := end_of_channel wired cell far far'
          obtain rfl : e = e' := by rw [← e.other_other, same, e'.other_other]
          exact Option.some.inj (near.symm.trans near')
        · cases mode.symm.trans mode'
      · obtain ⟨pair', cell', ⟨mode', -⟩ | ⟨-, -, rfl⟩⟩ := wire'
        · cases mode.symm.trans mode'
        · rfl

/-- **A wire leads to one channel.** -/
theorem wire_functional (wired : Wired w h s) (wire : s.Wire w table ch out)
    (wire' : s.Wire w table' ch out') (cell : s.channels.cell ch = some c) : out = out' := by
  have here := (registered_of_wire wired wire).1.2 c cell
  have there := (registered_of_wire wired wire').1.2 c cell
  obtain rfl : table = table' := Option.some.inj (here.symm.trans there)
  exact out_of_wire wired wire wire'

/-- **Nothing else leads there.** -/
theorem wire_injective (wired : Wired w h s) (wire : s.Wire w table ch out)
    (wire' : s.Wire w table' ch' out) (cell : s.channels.cell out = some c) : ch = ch' := by
  have here := (registered_of_wire wired wire).2.2 c cell
  have there := (registered_of_wire wired wire').2.2 c cell
  obtain rfl : table = table' := ChannelCallbacks.partner_injective
    (Option.some.inj (here.symm.trans there))
  exact from_of_wire wired wire wire'

/-- **The callbacks follow the wires.** -/
theorem wire_of_outlet (wired : Wired w h s) (cell : s.channels.cell ch = some c)
    (callbacks : c.callbacks = some table) (outlet : s.outlet w ch table = some out) :
    s.Wire w table ch out := by
  have holds := wired.holds ch c table cell callbacks
  cases table with
  | trapChannelCB => exact ⟨holds, outlet⟩
  | haasChannelCB => exact ⟨holds, outlet⟩
  | forwardChannelCB p =>
      obtain ⟨pair, pairCell, outlet⟩ := Option.bind_eq_some_iff.mp outlet
      obtain ⟨used, outlet⟩ := Option.ite_none_left_eq_some.mp outlet
      obtain ⟨e, here⟩ := holds.2 pair pairCell used
      refine ⟨pair, pairCell, ?_⟩
      cases mode : w.config.forwardMode with
      | none => simp [mode] at outlet
      | some forwardMode =>
          cases forwardMode with
          | allow =>
              simp only [mode, FwPair.otherEnd] at outlet
              refine .inl ⟨rfl, ?_⟩
              by_cases source : some ch = pair.source.channel
              · rw [if_pos source] at outlet
                exact ⟨.source, source.symm, outlet⟩
              · rw [if_neg source] at outlet
                cases e with
                | source => exact absurd here.symm source
                | destiny => exact ⟨.destiny, here, outlet⟩
          | echo =>
              simp only [mode] at outlet
              cases e with
              | source => exact .inr ⟨rfl, here, (Option.some.inj outlet).symm⟩
              | destiny =>
                  have allow := wired.allow p pair pairCell (here ▸ Option.some_ne_none ch)
                  cases mode.symm.trans allow
          | _ => simp [mode] at outlet

end Wires

section Steps

variable {w : World} {serial : Prop} {h l : List Entry} {s s' : Proxy}

/-- What was released stays released. -/
theorem released_of_thins (wired : Wired w h s) (thins : Thins s s') {p : PairId}
    (released : Released h p) : p < s'.pairs.next ∧
      ∀ pair, s'.pairs.cell p = some pair → pair.context = none := by
  obtain ⟨below, unused⟩ := wired.released p released
  refine ⟨Nat.lt_of_lt_of_le below thins.next, ?_⟩
  intro pair' cell'
  rcases thins.cells p pair' cell' with ⟨pair, cell, -, used⟩ | ⟨-, rfl⟩
  · by_contra inUse
    exact (used inUse).1 (unused pair cell)
  · rfl

/-- Nothing new is connected. -/
theorem wired_of_thins (wired : Wired w h s) (next : s.channels.next ≤ s'.channels.next)
    (cells : ∀ ch c', s'.channels.cell ch = some c' →
      (∃ c, s.channels.cell ch = some c ∧ c'.session = c.session ∧ c'.callbacks = c.callbacks) ∨
        s.channels.next ≤ ch ∧ c'.callbacks = none)
    (same : SameChannels s s') (thins : Thins s s')
    (released : ∀ e ∈ l, ∀ p, e.action = .release p → e.before.pairs.cell p ≠ none →
      p < s'.pairs.next ∧ ∀ pair, s'.pairs.cell p = some pair → pair.context = none) :
    Wired w (h ++ l) s' := by
  -- a channel keeps its table, and a new one has none
  have registered {ch : ChannelId} {table : ChannelCallbacks} (here : s.Registered ch table) :
      s'.Registered ch table := by
    refine ⟨Nat.lt_of_lt_of_le here.1 next, ?_⟩
    intro c' cell'
    rcases cells ch c' cell' with ⟨c, cell, -, eq⟩ | ⟨above, -⟩
    · rw [eq]
      exact here.2 c cell
    · exact absurd here.1 (Nat.not_lt.mpr above)
  -- a pair with a channel was there before, with the same one
  have former {p : PairId} {pair' : FwPair} (cell' : s'.pairs.cell p = some pair') {e : End}
      {ch : ChannelId} (there : (pair'.endpoint e).channel = some ch) :
      ∃ pair, s.pairs.cell p = some pair ∧ ∀ e ch, (pair'.endpoint e).channel = some ch →
        (pair.endpoint e).channel = some ch := by
    rcases thins.cells p pair' cell' with ⟨pair, cell, ends, -⟩ | ⟨-, rfl⟩
    · exact ⟨pair, cell, ends⟩
    · cases e <;> cases there
  refine ⟨?_, ?_, ?_, ?_, ?_, ?_, ?_, ?_⟩
  · intro ch here
    rw [same.trapChannel] at here
    exact registered (wired.trapChannel ch here)
  · intro ch here
    rw [same.haasChannel] at here
    exact registered (wired.haasChannel ch here)
  · intro p pair' cell' e ch here
    obtain ⟨pair, cell, ends⟩ := former cell' here
    exact registered (wired.ends p pair cell e ch (ends e ch here))
  · intro p pair' cell' ch source destiny
    obtain ⟨pair, cell, ends⟩ := former (e := .source) cell' source
    exact wired.apart p pair cell ch (ends .source ch source) (ends .destiny ch destiny)
  · intro p pair' cell' set
    obtain ⟨ch, destiny⟩ := Option.ne_none_iff_exists'.mp set
    obtain ⟨pair, cell, ends⟩ := former (e := .destiny) cell' destiny
    refine wired.allow p pair cell ?_
    show (pair.endpoint .destiny).channel ≠ none
    rw [ends .destiny ch destiny]
    exact Option.some_ne_none ch
  · intro p pair' cell' ch source c' there
    obtain ⟨pair, cell, ends⟩ := former (e := .source) cell' source
    have below := (wired.ends p pair cell .source ch (ends .source ch source)).1
    rcases cells ch c' there with ⟨c, old, session, -⟩ | ⟨above, -⟩
    · rw [session, same.trapSession]
      exact wired.client p pair cell ch (ends .source ch source) c old
    · exact absurd below (Nat.not_lt.mpr above)
  · intro ch c' table cell' callbacks
    rcases cells ch c' cell' with ⟨c, cell, -, eq⟩ | ⟨-, none⟩
    · rw [eq] at callbacks
      have holds := wired.holds ch c table cell callbacks
      cases table with
      | trapChannelCB => exact same.trapChannel.trans holds
      | haasChannelCB => exact same.haasChannel.trans holds
      | forwardChannelCB p =>
          refine ⟨Nat.lt_of_lt_of_le holds.1 thins.next, ?_⟩
          intro pair' pairCell' inUse
          rcases thins.cells p pair' pairCell' with ⟨pair, pairCell, -, used⟩ | ⟨-, rfl⟩
          · obtain ⟨was, ends⟩ := used inUse
            obtain ⟨e, here⟩ := holds.2 pair pairCell was
            exact ⟨e, (ends e).trans here⟩
          · exact absurd rfl inUse
    · cases none.symm.trans callbacks
  · intro p released'
    rcases released_of_append released' with before | ⟨e, mem, action, there⟩
    · exact released_of_thins wired thins before
    · exact released e mem p action there

/-! ### Connecting channels

A step says which channels it registers, and with what; the rest is what has not changed. -/

/-- Some channels that were in no use are registered with tables. -/
structure Connects (new : ChannelId → Option ChannelCallbacks) (s s' : Proxy) : Prop where
  next : s'.channels.next = s.channels.next
  /-- They are there, and were registered with nothing. -/
  fresh : ∀ ch table, new ch = some table →
    ∃ c, s.channels.cell ch = some c ∧ c.callbacks = none
  /-- All else about the channels stays. -/
  cells : ∀ ch, s'.channels.cell ch =
    (s.channels.cell ch).map fun c => { c with callbacks := (new ch).or c.callbacks }

/-- A channel that is registered is not connected anew. -/
theorem Connects.unused {new : ChannelId → Option ChannelCallbacks} (connects : Connects new s s')
    {ch : ChannelId} {table : ChannelCallbacks} (registered : s.Registered ch table) :
    new ch = none := by
  cases connected : new ch with
  | none => rfl
  | some table' =>
      obtain ⟨c, cell, unused⟩ := connects.fresh ch table' connected
      cases unused.symm.trans (registered.2 c cell)

theorem Connects.registered {new : ChannelId → Option ChannelCallbacks}
    (connects : Connects new s s') {ch : ChannelId} {table : ChannelCallbacks}
    (registered : s.Registered ch table) : s'.Registered ch table := by
  refine ⟨connects.next ▸ registered.1, ?_⟩
  intro c' cell'
  rw [connects.cells, connects.unused registered] at cell'
  obtain ⟨c, cell, rfl⟩ := Option.map_eq_some_iff.mp cell'
  exact registered.2 c cell

theorem Connects.connected {new : ChannelId → Option ChannelCallbacks}
    (connects : Connects new s s') {ch : ChannelId} {table : ChannelCallbacks}
    (eq : new ch = some table) : s'.Registered ch table := by
  obtain ⟨c, cell, -⟩ := connects.fresh ch table eq
  refine ⟨connects.next ▸ s.channels.lt_next_of_cell cell, ?_⟩
  intro c' cell'
  rw [connects.cells, eq] at cell'
  obtain ⟨c, cell, rfl⟩ := Option.map_eq_some_iff.mp cell'
  rfl

/-- What is registered afterwards was registered, or is connected now. -/
theorem Connects.was {new : ChannelId → Option ChannelCallbacks} (connects : Connects new s s')
    {ch : ChannelId} {c' : Channel} {table : ChannelCallbacks}
    (cell' : s'.channels.cell ch = some c') (callbacks : c'.callbacks = some table) :
    new ch = some table ∨
      ∃ c, s.channels.cell ch = some c ∧ c.callbacks = some table := by
  rw [connects.cells] at cell'
  obtain ⟨c, cell, rfl⟩ := Option.map_eq_some_iff.mp cell'
  rcases Option.or_eq_some_iff.mp callbacks with eq | ⟨-, eq⟩
  · exact .inl eq
  · exact .inr ⟨c, cell, eq⟩

/-- A new channel belongs to its session and has no callbacks yet. -/
theorem cell_obtain_self (s : Proxy) (session : SessionId) : ∃ c,
    (s.obtain session).channels.cell s.channels.next = some c ∧ c.session = session ∧
      c.callbacks = none :=
  ⟨_, s.channels.cell_alloc_self, rfl, rfl⟩

/-- The channels that were there are what they were. -/
theorem cell_obtain_of_lt (s : Proxy) (session : SessionId) {ch : ChannelId}
    (below : ch < s.channels.next) :
    (s.obtain session).channels.cell ch = s.channels.cell ch :=
  s.channels.cell_alloc_of_ne (Nat.ne_of_lt below)

/-- The channels that `TrapNewChannel` has obtained are in no use yet. -/
theorem fresh_of_bothObtained {trapChannel haasChannel : ChannelId}
    (obtained : BothObtained True h s trapChannel haasChannel) : trapChannel ≠ haasChannel ∧
      (∃ c, s.channels.cell trapChannel = some c ∧ c.callbacks = none) ∧
      ∃ c, s.channels.cell haasChannel = some c ∧ c.callbacks = none := by
  obtain ⟨e, -, e', -, session, -, -, rfl, -, -, -, rfl, -, chain⟩ := obtained
  obtain ⟨⟨t, first⟩, t', second⟩ := chain trivial
  have channels' : e'.before.channels =
      (e.before.obtain e.before.context.trapSession).channels := by rw [first]
  have channels : s.channels = (e'.before.obtain session).channels := by rw [second]
  have below : e.before.channels.next < e'.before.channels.next := by
    rw [channels']
    exact Nat.lt_succ_self _
  refine ⟨Nat.ne_of_lt below, ?_, ?_⟩
  · obtain ⟨c, cell, -, unused⟩ := cell_obtain_self e.before e.before.context.trapSession
    refine ⟨c, ?_, unused⟩
    rw [channels, cell_obtain_of_lt _ _ below, channels']
    exact cell
  · obtain ⟨c, cell, -, unused⟩ := cell_obtain_self e'.before session
    exact ⟨c, channels ▸ cell, unused⟩

/-- The channels of a forward that is offered are in no use yet. -/
theorem fresh_of_offered {src : ChannelId} {dst : Option ChannelId}
    (offered : Offered w True h s src dst) :
    (∃ c, s.channels.cell src = some c ∧ c.session = s.context.trapSession ∧
      c.callbacks = none) ∧
      ∀ ch, dst = some ch → w.config.forwardMode = some .allow ∧ src ≠ ch ∧
        ∃ c, s.channels.cell ch = some c ∧ c.callbacks = none := by
  obtain ⟨h₀, e, -, -, rfl, rfl, reached⟩ := offered
  refine ⟨cell_obtain_self _ _, ?_⟩
  rintro ch rfl
  obtain ⟨allow, e', -, session, -, -, -, eq, chain⟩ | ⟨-, none⟩ := reached
  · cases eq
    obtain ⟨t, first⟩ := chain trivial
    have channels : e.before.channels = (e'.before.obtain session).channels := by rw [first]
    have below : e'.before.channels.next < e.before.channels.next := by
      rw [channels]
      exact Nat.lt_succ_self _
    refine ⟨allow, (Nat.ne_of_lt below).symm, ?_⟩
    obtain ⟨c, cell, -, unused⟩ := cell_obtain_self e'.before session
    refine ⟨c, ?_, unused⟩
    rw [cell_obtain_of_lt _ _ below, channels]
    exact cell
  · cases none

/-- A pair whose channels are connected now. -/
structure Coupling (w : World) (new : ChannelId → Option ChannelCallbacks) (s : Proxy)
    (p : PairId) (pair : FwPair) : Prop where
  /-- The step registers its ends with it. -/
  ends : ∀ e ch, (pair.endpoint e).channel = some ch → new ch = some (.forwardChannelCB p)
  apart : ∀ ch, pair.source.channel = some ch → pair.destiny.channel ≠ some ch
  allow : pair.destiny.channel ≠ none → w.config.forwardMode = some .allow
  client : ∀ ch, pair.source.channel = some ch →
    ∀ c, s.channels.cell ch = some c → c.session = s.context.trapSession

/-- A step that connects channels. -/
structure Couples (w : World) (new : ChannelId → Option ChannelCallbacks) (s s' : Proxy) : Prop
    extends Connects new s s' where
  trapSession : s'.context.trapSession = s.context.trapSession
  trapChannel : ∀ ch, s'.context.trapChannel = some ch →
    s.context.trapChannel = some ch ∨ new ch = some .trapChannelCB
  haasChannel : ∀ ch, s'.context.haasChannel = some ch →
    s.context.haasChannel = some ch ∨ new ch = some .haasChannelCB
  nextPair : s.pairs.next ≤ s'.pairs.next
  /-- A pair is as it was, or it is new and all its ends are connected now. -/
  pairs : ∀ p pair, s'.pairs.cell p = some pair →
    s.pairs.cell p = some pair ∨ s.pairs.next ≤ p ∧ Coupling w new s p pair
  /-- What is registered now is referred to, and what was referred to still is. -/
  holds : ∀ ch table, new ch = some table ∨ s.Holds ch table → s'.Holds ch table
  /-- A wire was there before, or it is between two channels that are connected now. -/
  wires : ∀ table ch out, s'.Wire w table ch out →
    s.Wire w table ch out ∨ new ch ≠ none ∧ new out ≠ none

/-- **What is connected stays told apart.** -/
theorem wired_of_couples {new : ChannelId → Option ChannelCallbacks} (wired : Wired w h s)
    (couples : Couples w new s s') (kept : ∀ e ∈ l, ∀ p, e.action ≠ .release p) :
    Wired w (h ++ l) s' := by
  have connects := couples.toConnects
  refine ⟨?_, ?_, ?_, ?_, ?_, ?_, ?_, ?_⟩
  · intro ch here
    rcases couples.trapChannel ch here with old | fresh
    · exact connects.registered (wired.trapChannel ch old)
    · exact connects.connected fresh
  · intro ch here
    rcases couples.haasChannel ch here with old | fresh
    · exact connects.registered (wired.haasChannel ch old)
    · exact connects.connected fresh
  · intro p pair cell e ch here
    rcases couples.pairs p pair cell with old | ⟨-, coupling⟩
    · exact connects.registered (wired.ends p pair old e ch here)
    · exact connects.connected (coupling.ends e ch here)
  · intro p pair cell
    rcases couples.pairs p pair cell with old | ⟨-, coupling⟩
    · exact wired.apart p pair old
    · exact coupling.apart
  · intro p pair cell
    rcases couples.pairs p pair cell with old | ⟨-, coupling⟩
    · exact wired.allow p pair old
    · exact coupling.allow
  · intro p pair cell ch source c' cell'
    rw [connects.cells] at cell'
    obtain ⟨c, here, rfl⟩ := Option.map_eq_some_iff.mp cell'
    rw [couples.trapSession]
    rcases couples.pairs p pair cell with old | ⟨-, coupling⟩
    · exact wired.client p pair old ch source c here
    · exact coupling.client ch source c here
  · intro ch c' table cell' callbacks
    refine couples.holds ch table ?_
    exact (connects.was cell' callbacks).imp_right fun ⟨c, cell, callbacks⟩ =>
      wired.holds ch c table cell callbacks
  · intro p released'
    rcases released_of_append released' with before | ⟨e, mem, action, -⟩
    · obtain ⟨below, unused⟩ := wired.released p before
      refine ⟨Nat.lt_of_lt_of_le below couples.nextPair, ?_⟩
      intro pair cell
      rcases couples.pairs p pair cell with old | ⟨above, -⟩
      · exact unused pair old
      · exact absurd below (Nat.not_lt.mpr above)
    · exact absurd action (kept e mem p)

/-- The tables that `TrapNewChannel` registers. -/
def adopting (trapChannel haasChannel ch : ChannelId) : Option ChannelCallbacks :=
  if ch = trapChannel then some .trapChannelCB
  else if ch = haasChannel then some .haasChannelCB
  else none

/-- The tables that `TrapMessageCallback` registers for a pair. -/
def joining (p : PairId) (src : ChannelId) (dst : Option ChannelId) (ch : ChannelId) :
    Option ChannelCallbacks :=
  if ch = src ∨ dst = some ch then some (.forwardChannelCB p) else none

/-- It registers two channels, each with its own table. -/
private theorem adopting_eq_some {trapChannel haasChannel ch : ChannelId} {table : ChannelCallbacks}
    (eq : adopting trapChannel haasChannel ch = some table) :
    ch = trapChannel ∧ table = .trapChannelCB ∨ ch = haasChannel ∧ table = .haasChannelCB := by
  unfold adopting at eq
  split at eq
  · rename_i same
    exact .inl ⟨same, (Option.some.inj eq).symm⟩
  · split at eq
    · rename_i same
      exact .inr ⟨same, (Option.some.inj eq).symm⟩
    · cases eq

/-- What the two calls have done to the channels, which are different ones. -/
private theorem cell_adopting {trapChannel haasChannel : ChannelId}
    (apart : trapChannel ≠ haasChannel) {i j : Int} {s₁ s₂ : Proxy}
    (first : s₁ = (Call.setCallbacks trapChannel .trapChannelCB).effect i s.tock)
    (second : s₂ = (Call.setCallbacks haasChannel .haasChannelCB).effect j s₁.tock)
    (ch : ChannelId) :
    s₂.channels.cell ch = (s.channels.cell ch).map fun c =>
      { c with callbacks := (adopting trapChannel haasChannel ch).or c.callbacks } := by
  rw [second, first]
  simp only [Call.effect, cell_updateChannel, Proxy.tock, adopting]
  by_cases haas : ch = haasChannel
  · subst haas
    simp [apart.symm]
  · by_cases trap : ch = trapChannel
    · simp [trap, apart]
    · simp [haas, trap]

/-- **`TrapNewChannel` connects the session channels.**  There were none in the context, so no
channel loses its place there to one of the two, and the only new wires are those between
them. -/
theorem couples_of_adopt (consistent : s.context.Consistent) {trapChannel haasChannel : ChannelId}
    (obtained : BothObtained True h s trapChannel haasChannel) {i j : Int} {s₁ s₂ : Proxy}
    (first : s₁ = (Call.setCallbacks trapChannel .trapChannelCB).effect i s.tock)
    (second : s₂ = (Call.setCallbacks haasChannel .haasChannelCB).effect j s₁.tock)
    {locals : List ChannelId} :
    Couples w (adopting trapChannel haasChannel) s
      { s₂ with
        context := { s₂.context with
          trapChannel := some trapChannel
          haasChannel := some haasChannel }
        locals := locals } := by
  obtain ⟨apart, ⟨c, cell, unused⟩, c', cell', unused'⟩ := fresh_of_bothObtained obtained
  have noTrap : s.context.trapChannel = none := trapChannel_of_bothObtained trivial obtained
  have noHaas : s.context.haasChannel = none := by
    by_contra set
    exact consistent.channels.mpr set noTrap
  have pairs : s₂.pairs = s.pairs := by
    rw [second, first]
    simp [Call.effect, Proxy.tock]
  have cells := cell_adopting apart first second
  refine ⟨⟨?_, ?_, cells⟩, ?_, ?_, ?_, ?_, ?_, ?_, ?_⟩
  · rw [second, first]
    simp [Call.effect, Proxy.tock]
  · intro ch table eq
    rcases adopting_eq_some eq with ⟨rfl, -⟩ | ⟨rfl, -⟩
    · exact ⟨c, cell, unused⟩
    · exact ⟨c', cell', unused'⟩
  · rw [second, first]
    simp
  · rintro ch ⟨⟩
    exact .inr (if_pos rfl)
  · rintro ch ⟨⟩
    exact .inr ((if_neg apart.symm).trans (if_pos rfl))
  · exact Nat.le_of_eq (congrArg Heap.next pairs.symm)
  · intro p pair here
    exact .inl (pairs ▸ here)
  · rintro ch table (eq | holds)
    · rcases adopting_eq_some eq with ⟨rfl, rfl⟩ | ⟨rfl, rfl⟩ <;> rfl
    · cases table with
      | trapChannelCB => cases noTrap.symm.trans holds
      | haasChannelCB => cases noHaas.symm.trans holds
      | forwardChannelCB p =>
          obtain ⟨below, ends⟩ := holds
          show p < s₂.pairs.next ∧ ∀ pair, s₂.pairs.cell p = some pair → _
          rw [pairs]
          exact ⟨below, ends⟩
  · intro table ch out wire
    cases table with
    | trapChannelCB =>
        obtain ⟨⟨⟩, ⟨⟩⟩ := wire
        exact .inr ⟨by simp [adopting], by simp [adopting, apart.symm]⟩
    | haasChannelCB =>
        obtain ⟨⟨⟩, ⟨⟩⟩ := wire
        exact .inr ⟨by simp [adopting, apart.symm], by simp [adopting]⟩
    | forwardChannelCB p =>
        obtain ⟨pair, here, goes⟩ := wire
        exact .inl ⟨pair, pairs ▸ here, goes⟩

/-- A pair of a heap with a new one in it: an old one, or the new one. -/
theorem cell_alloc_cases {pairs : Heap FwPair} {pair pair' : FwPair} {p : PairId}
    (here : (pairs.alloc pair).cell p = some pair') :
    pairs.cell p = some pair' ∨ p = pairs.next ∧ pair' = pair := by
  by_cases same : p = pairs.next
  · subst same
    exact .inr ⟨rfl, Option.some.inj (here.symm.trans pairs.cell_alloc_self)⟩
  · exact .inl ((pairs.cell_alloc_of_ne same).symm.trans here)

section Register

variable {src : ChannelId} {dst : Option ChannelId} (offered : Offered w True h s src dst)
  {pair : FwPair} (source : pair.source.channel = some src) (destiny : pair.destiny.channel = dst)
  {pools : Heap (FwPool (Option PairId))} {t : Nat} {locals : List ChannelId}

include source destiny in
theorem joining_of_endpoint {p : PairId} {e : End} {ch : ChannelId}
    (here : (pair.endpoint e).channel = some ch) :
    joining p src dst ch = some (.forwardChannelCB p) := by
  refine if_pos ?_
  cases e with
  | source => exact .inl (Option.some.inj (here.symm.trans source))
  | destiny => exact .inr (destiny.symm.trans here)

include offered in
/-- Exactly the two channels of the pair get tables, and they had none before. -/
private theorem connects_of_register : Connects (joining s.pairs.next src dst) s
    (s.filling (dst.elim (s.registerPair s.pairs.next src)
        ((s.registerPair s.pairs.next src).registerPair s.pairs.next)).channels
      pools pair t locals) := by
  obtain ⟨⟨c, cell, session, unused⟩, destination⟩ := fresh_of_offered offered
  refine ⟨?_, ?_, ?_⟩
  · cases dst <;> simp [Proxy.filling, Proxy.registerPair]
  · intro ch table eq
    unfold joining at eq
    split at eq
    · rename_i same
      rcases same with rfl | same
      · exact ⟨c, cell, unused⟩
      · exact (destination ch same).2.2
    · cases eq
  · intro ch
    cases dst with
    | none =>
        simp only [Proxy.filling, Proxy.registerPair, Option.elim, cell_updateChannel, joining]
        by_cases same : ch = src <;> simp [same]
    | some d =>
        simp only [Proxy.filling, Proxy.registerPair, Option.elim, cell_updateChannel, joining]
        have apart : src ≠ d := (destination d rfl).2.1
        by_cases same : ch = src
        · simp [same, apart]
        · by_cases same' : ch = d
          · simp [same', apart.symm]
          · simp [same, same', Ne.symm same']

include offered source destiny in
/-- The new pair has two channels that nothing else has: one of the client, and in `ALLOW` mode
one of the backend. -/
private theorem coupling_of_register :
    Coupling w (joining s.pairs.next src dst) s s.pairs.next pair := by
  obtain ⟨⟨c, cell, session, unused⟩, destination⟩ := fresh_of_offered offered
  refine ⟨fun e ch => joining_of_endpoint source destiny, ?_, ?_, ?_⟩
  · intro ch here there
    obtain rfl : src = ch := Option.some.inj (source.symm.trans here)
    exact (destination src (destiny.symm.trans there)).2.1 rfl
  · intro set
    obtain ⟨ch, there⟩ := Option.ne_none_iff_exists'.mp set
    exact (destination ch (destiny.symm.trans there)).1
  · intro ch here c' cell'
    obtain rfl : src = ch := Option.some.inj (source.symm.trans here)
    cases cell.symm.trans cell'
    exact session

include source destiny in
/-- Who holds a channel: whoever did, and the new pair its two. -/
private theorem holds_of_register {channels : Heap Channel} {ch : ChannelId}
    {table : ChannelCallbacks}
    (either : joining s.pairs.next src dst ch = some table ∨ s.Holds ch table) :
    (s.filling channels pools pair t locals).Holds ch table := by
  rcases either with eq | holds
  · unfold joining at eq
    split at eq
    · rename_i same
      cases eq
      refine ⟨Nat.lt_succ_self _, ?_⟩
      intro pair' here _
      cases (s.pairs.cell_alloc_self).symm.trans here
      rcases same with rfl | same
      · exact ⟨.source, source⟩
      · exact ⟨.destiny, destiny.trans same⟩
    · cases eq
  · cases table with
    | trapChannelCB | haasChannelCB => exact holds
    | forwardChannelCB p =>
        obtain ⟨below, ends⟩ := holds
        refine ⟨Nat.lt_succ_of_lt below, ?_⟩
        intro pair' here
        exact ends pair' ((s.pairs.cell_alloc_of_ne (Nat.ne_of_lt below)).symm.trans here)

include source destiny in
/-- What is wired now: what was, and the two channels of the new pair. -/
private theorem wire_of_register {channels : Heap Channel} {table : ChannelCallbacks}
    {ch out : ChannelId}
    (wire : (s.filling channels pools pair t locals).Wire w table ch out) :
    s.Wire w table ch out ∨
      joining s.pairs.next src dst ch ≠ none ∧ joining s.pairs.next src dst out ≠ none := by
  have joins {e : End} {ch : ChannelId} (here : (pair.endpoint e).channel = some ch) :
      joining s.pairs.next src dst ch ≠ none := by
    rw [joining_of_endpoint source destiny here]
    exact Option.some_ne_none _
  cases table with
  | trapChannelCB | haasChannelCB => exact .inl wire
  | forwardChannelCB p =>
      obtain ⟨pair', here, goes⟩ := wire
      rcases cell_alloc_cases here with old | ⟨rfl, rfl⟩
      · exact .inl ⟨pair', old, goes⟩
      · refine .inr ?_
        rcases goes with ⟨-, e, near, far⟩ | ⟨-, near, rfl⟩
        · exact ⟨joins near, joins far⟩
        · have joined := joins (e := .source) near
          exact ⟨joined, joined⟩

include offered source destiny in
/-- **`TrapMessageCallback` connects the channels of a pair.** -/
theorem couples_of_register :
    Couples w (joining s.pairs.next src dst) s
      (s.filling (dst.elim (s.registerPair s.pairs.next src)
          ((s.registerPair s.pairs.next src).registerPair s.pairs.next)).channels
        pools pair t locals) where
  toConnects := connects_of_register offered
  trapSession := rfl
  trapChannel _ := .inl
  haasChannel _ := .inl
  nextPair := Nat.le_succ _
  pairs p pair' here := by
    rcases cell_alloc_cases here with old | ⟨rfl, rfl⟩
    · exact .inl old
    · exact .inr ⟨Nat.le_refl _, coupling_of_register offered source destiny⟩
  holds _ _ := holds_of_register source destiny
  wires _ _ _ := wire_of_register source destiny

end Register

/-- What a channel is registered for. -/
def Channel.role (c : Channel) : SessionId × Option ChannelCallbacks := (c.session, c.callbacks)

/-- Only the data of channels changes. -/
theorem wired_of_carries (wired : Wired w h s) (carries : Carries Channel.role s s')
    (next : s'.channels.next = s.channels.next) (same : SameChannels s s')
    (pairs : s'.pairs = s.pairs) (kept : ∀ e ∈ l, ∀ p, e.action ≠ .release p) :
    Wired w (h ++ l) s' := by
  refine wired_of_thins wired (Nat.le_of_eq next.symm) ?_ same (thins_of_pairs pairs) ?_
  · intro ch c' cell'
    obtain ⟨c, cell, role⟩ := carries ch c' cell'
    exact .inl ⟨c, cell, congrArg Prod.fst role, congrArg Prod.snd role⟩
  · intro e mem p action
    exact absurd action (kept e mem p)

private theorem carries_relayed (ch out : ChannelId) (isStderr : Bool) (bytes data : List UInt8)
    (i back : Int) (during after : SessionId → Bool) :
    Carries Channel.role s (s.relayed w ch out isStderr bytes data i back during after) := by
  have blocked : Carries Channel.role s { s.tock with blocking := during } := .of_channels rfl
  have written : Carries Channel.role s
      (({ (Call.write out isStderr data).effect i { s.tock with blocking := during } with
        blocking := after } : Proxy).idled w) :=
    blocked.updateChannel out fun _ => rfl
  exact written.updateChannel ch (f := fun c => c.consume back (.data isStderr bytes)) fun _ => rfl

/-- **A step keeps the wires apart.** -/
theorem wired_advance (alone : serial) (kept : Kept h s) (wired : Wired w h s)
    (advance : Advance w serial h s l s') : Wired w (h ++ l) s' := by
  have done : ∀ p, Released h p → ∀ pair, s.pairs.cell p = some pair → pair.context = none :=
    fun p released => (wired.released p released).2
  cases handling_of_advance alone done advance with
  -- nothing is connected, and pairs lose channels at most
  | plain channels next same pairs entries unwritten freed released =>
      refine wired_of_thins wired next ?_ same pairs ?_
      · intro ch c' cell'
        rcases cell_of_plain channels cell' with ⟨c, cell, record⟩ | ⟨rfl, unused, -⟩
        · exact .inl ⟨c, cell, congrArg Prod.fst record,
            congrArg (fun r => r.2.1) record⟩
        · exact .inr ⟨Nat.le_refl _, unused⟩
      · intro e mem p action there
        obtain ⟨pair, cell⟩ := Option.ne_none_iff_exists'.mp there
        rw [(entries e mem).2] at cell
        exact ⟨Nat.lt_of_lt_of_le (s.pairs.lt_next_of_cell cell) pairs.next,
          released e mem p action⟩
  | arrive ch event =>
      have carries : Carries Channel.role s (s.updateChannel ch fun c => c.arrive event) :=
        (Carries.refl s).updateChannel ch fun _ => by cases event <;> rfl
      exact wired_of_carries wired carries (by simp) ⟨by simp, by simp, by simp⟩ (by simp) (by simp)
  | relay isStderr bytes i during after =>
      exact wired_of_carries wired (carries_relayed _ _ isStderr bytes _ i _ during after)
        (by simp [Proxy.relayed, Proxy.idled, Proxy.tock, Call.effect])
        ⟨by simp [Proxy.relayed, Proxy.idled], by simp [Proxy.relayed, Proxy.idled],
          by simp [Proxy.relayed, Proxy.idled]⟩
        (by simp [Proxy.relayed, Proxy.idled, Proxy.tock, Call.effect]) (by simp [relayLog])
  | @discard ch c table isStderr bytes cell callbacks back answer s₁ waited =>
      have channels : s₁.channels = s.channels := by
        rcases waited with rfl | ⟨b, rfl⟩ <;> rfl
      have carries : Carries Channel.role s
          (s₁.updateChannel ch fun c => c.consume back (.data isStderr bytes)) :=
        (Carries.of_channels channels).updateChannel ch fun _ => rfl
      refine wired_of_carries wired carries ?_ ?_ ?_ (by simp)
      · simp [channels]
      · rcases waited with rfl | ⟨b, rfl⟩
        · exact ⟨by simp, by simp, by simp⟩
        · exact ⟨by simp [Proxy.idled], by simp [Proxy.idled], by simp [Proxy.idled]⟩
      · rcases waited with rfl | ⟨b, rfl⟩ <;> simp [Proxy.idled, Proxy.tock]
  -- the two steps that connect
  | adopt trapChannel haasChannel i j obtained first second =>
      exact wired_of_couples wired (couples_of_adopt kept.consistent obtained first second)
        (by simp)
  | register offered pair used source destiny pools l mid =>
      refine wired_of_couples wired (couples_of_register offered source destiny) ?_
      intro e mem p
      obtain ⟨-, ⟨allocation, action⟩ | ⟨ch, action⟩⟩ := mid e mem <;> simp [action]

theorem wired_initial : Wired w [] Proxy.initial where
  trapChannel := nofun
  haasChannel := nofun
  ends := nofun
  apart := nofun
  allow := nofun
  client := nofun
  holds := nofun
  released := by simp [Released]

end Steps

end HaasProxy
