import HaasProxy.Transitions.Channels

/-!
# What becomes of data

`Handling` says what a step does to the channels and to the pairs while callbacks
come one after another.  Most steps leave the data alone: at most one new channel
is obtained, and pairs are only taken apart.  What is left is data that arrives,
is passed on or is discarded, and the two steps in which channels are connected.

## Main results

* `handling_of_change`, `handling_of_advance` — every step is one of these six.

## Design notes

Of all changes and steps of `ProxyProcess` a proof about data has to look at six kinds.
The others are `plain`, and what `plain` says is what all of them have in common: nothing is
written, no pair gets a channel, no session channel changes, and the records of the channels
are those from before.  A proof that a pipe is kept is done once for it.

`Thins` is what pairs suffer otherwise.  A pair in use keeps both of its ends; one whose
context was taken from it is being released and loses them one by one.
-/

namespace HaasProxy

/-- What is kept about a channel, but for whether a stream was ended. -/
def Channel.record (c : Channel) : SessionId × Option ChannelCallbacks ×
    (Bool → List UInt8) × (Bool → List UInt8) × (Bool → List UInt8) :=
  (c.session, c.callbacks, c.received, c.buffered, c.accepted)

/-- The pairs of `t` are those of `s`, with fewer channels: a pair that is in use
is what it was, and a new one is blank. -/
structure Thins (s t : Proxy) : Prop where
  next : s.pairs.next ≤ t.pairs.next
  /-- A pair in use keeps both ends, one that is being released may lose them. -/
  cells : ∀ p pair', t.pairs.cell p = some pair' →
    (∃ pair, s.pairs.cell p = some pair ∧
      (∀ e ch, (pair'.endpoint e).channel = some ch → (pair.endpoint e).channel = some ch) ∧
      (pair'.context ≠ none → pair.context ≠ none ∧
        ∀ e, (pair'.endpoint e).channel = (pair.endpoint e).channel)) ∨
    s.pairs.next ≤ p ∧ pair' = blankPair p

theorem thins_of_pairs {s t : Proxy} (same : t.pairs = s.pairs) : Thins s t := by
  refine ⟨Nat.le_of_eq (congrArg Heap.next same.symm), ?_⟩
  intro p pair cell
  rw [same] at cell
  exact .inl ⟨pair, cell, fun _ _ there => there, fun used => ⟨used, fun _ => rfl⟩⟩

/-- The session channels of the context are the same. -/
structure SameChannels (s t : Proxy) : Prop where
  trapSession : t.context.trapSession = s.context.trapSession
  trapChannel : t.context.trapChannel = s.context.trapChannel
  haasChannel : t.context.haasChannel = s.context.haasChannel

/-- What a step does to the channels and to the pairs. -/
inductive Handling (w : World) (h : List Entry) (s : Proxy) : List Entry → Proxy → Prop
  /-- Nothing is written, at most one channel is new, and no pair has got a channel. -/
  | plain {l : List Entry} {s' : Proxy}
      (channels : Carries Channel.record s s' ∨ ∃ session, Obtains s l session s')
      (next : s.channels.next ≤ s'.channels.next) (same : SameChannels s s') (pairs : Thins s s')
      (entries : ∀ e ∈ l, e.before.channels = s.channels ∧ e.before.pairs = s.pairs)
      (unwritten : ∀ e ∈ l, ∀ ch isStderr data, e.action ≠ .call (.write ch isStderr data))
      (freed : ∀ e ∈ l, ∀ ch, e.action = .call (.channelFree ch) → s'.channels.cell ch = none)
      (released : ∀ e ∈ l, ∀ p, e.action = .release p →
        ∀ pair, s'.pairs.cell p = some pair → pair.context = none) : Handling w h s l s'
  /-- Something arrives, and nobody was told yet. -/
  | arrive (ch : ChannelId) (event : ChannelEvent) :
      Handling w h s [] (s.updateChannel ch fun c => c.arrive event)
  /-- What is buffered is passed on to the outlet. -/
  | relay {ch out : ChannelId} {c : Channel} {table : ChannelCallbacks} (isStderr : Bool)
      (bytes : List UInt8) (i : Int) (during after : SessionId → Bool)
      (cell : s.channels.cell ch = some c) (callbacks : c.callbacks = some table)
      (outlet : s.outlet w ch table = some out) {back : Int}
      (answer : back = writeResult (s.channels.cell out) i (c.buffered isStderr)) :
      Handling w h s
        (relayLog w s ch out isStderr bytes (c.buffered isStderr) i back during after)
        (s.relayed w ch out isStderr bytes (c.buffered isStderr) i back during after)
  /-- It is refused or swallowed, and what was consumed of it is dropped. -/
  | discard {ch : ChannelId} {c : Channel} {table : ChannelCallbacks} (isStderr : Bool)
      (bytes : List UInt8) (cell : s.channels.cell ch = some c)
      (callbacks : c.callbacks = some table) {back : Int}
      (answer : back = sshError ∨
        w.config.forwardMode = some .null ∧ ∃ p, table = .forwardChannelCB p)
      {s₁ : Proxy} (waited : s₁ = s ∨ ∃ b, s₁ = ({ s with blocking := b } : Proxy).idled w) :
      Handling w h s
        [⟨s, .enter (.channel ch (.data isStderr bytes)), 0⟩,
          ⟨s₁, .leave (.channel ch (.data isStderr bytes)), back⟩]
        (s₁.updateChannel ch fun c => c.consume back (.data isStderr bytes))
  /-- The session channels are connected with each other. -/
  | adopt (trapChannel haasChannel : ChannelId) (i j : Int)
      (obtained : BothObtained True h s trapChannel haasChannel) {s₁ s₂ : Proxy}
      (first : s₁ = (Call.setCallbacks trapChannel .trapChannelCB).effect i s.tock)
      (second : s₂ = (Call.setCallbacks haasChannel .haasChannelCB).effect j s₁.tock) :
      Handling w h s
        [⟨s.tock, .call (.setCallbacks trapChannel .trapChannelCB), i⟩,
          ⟨s₁.tock, .call (.setCallbacks haasChannel .haasChannelCB), j⟩]
        { s₂ with
          context := { s₂.context with
            trapChannel := some trapChannel
            haasChannel := some haasChannel }
          locals := (s₂.locals.erase trapChannel).erase haasChannel }
  /-- The ends of a new pair are connected with each other. -/
  | register {src : ChannelId} {dst : Option ChannelId} (offered : Offered w True h s src dst)
      (pair : FwPair) (used : pair.context ≠ none) (source : pair.source.channel = some src)
      (destiny : pair.destiny.channel = dst) (pools : Heap (FwPool (Option PairId)))
      (l : List Entry) (mid : ∀ e ∈ l, Registering s s.pairs.next src dst pools e.before ∧
        ((∃ allocation, e.action = .alloc allocation) ∨
          ∃ ch, e.action = .call (.setCallbacks ch (.forwardChannelCB s.pairs.next))))
      (t : Nat) (locals : List ChannelId) :
      Handling w h s l
        (s.filling (dst.elim (s.registerPair s.pairs.next src)
            ((s.registerPair s.pairs.next src).registerPair s.pairs.next)).channels
          pools pair t locals)

section Steps

variable {w : World} {serial : Prop} {h l : List Entry} {s s' : Proxy}

/-- A pair is overwritten. -/
theorem thins_of_store {p : PairId} {pair new : FwPair} (cell : s.pairs.cell p = some pair)
    (pairs : s'.pairs = s.pairs.store p new)
    (ends : ∀ e ch, (new.endpoint e).channel = some ch → (pair.endpoint e).channel = some ch)
    (used : new.context ≠ none → pair.context ≠ none ∧
      ∀ e, (new.endpoint e).channel = (pair.endpoint e).channel) : Thins s s' := by
  refine ⟨by rw [pairs, Heap.next_store], ?_⟩
  intro q pair' cell'
  rw [pairs] at cell'
  by_cases same : q = p
  · subst same
    cases (Heap.cell_store_self _ cell).symm.trans cell'
    exact .inl ⟨pair, cell, ends, used⟩
  · rw [Heap.cell_store_of_ne _ same] at cell'
    exact .inl ⟨pair', cell', fun _ _ there => there, fun used => ⟨used, fun _ => rfl⟩⟩

private theorem thins_of_free {p : PairId} (pairs : s'.pairs = s.pairs.free p) : Thins s s' := by
  refine ⟨by rw [pairs, Heap.next_free], ?_⟩
  intro q pair' cell'
  rw [pairs] at cell'
  by_cases same : q = p
  · subst same
    cases (s.pairs.cell_free_self).symm.trans cell'
  · rw [Heap.cell_free_of_ne _ same] at cell'
    exact .inl ⟨pair', cell', fun _ _ there => there, fun used => ⟨used, fun _ => rfl⟩⟩

/-- A pair that is allocated is blank, and the others stay. -/
private theorem thins_of_newPair (pairs : s'.pairs = s.pairs.alloc (blankPair s.pairs.next)) :
    Thins s s' := by
  refine ⟨?_, ?_⟩
  · rw [pairs]
    exact Nat.le_succ _
  · intro q pair' cell'
    rw [pairs] at cell'
    by_cases same : q = s.pairs.next
    · subst same
      cases (s.pairs.cell_alloc_self).symm.trans cell'
      exact .inr ⟨Nat.le_refl _, rfl⟩
    · rw [Heap.cell_alloc_of_ne _ same] at cell'
      exact .inl ⟨pair', cell', fun _ _ there => there, fun used => ⟨used, fun _ => rfl⟩⟩

/-- The channels are left alone. -/
theorem handling_of_same (channels : s'.channels = s.channels) (same : SameChannels s s')
    (pairs : Thins s s')
    (entries : ∀ e ∈ l, e.before.channels = s.channels ∧ e.before.pairs = s.pairs)
    (unwritten : ∀ e ∈ l, ∀ ch isStderr data,
      e.action ≠ .call (.write ch isStderr data) ∧ e.action ≠ .call (.channelFree ch))
    (released : ∀ e ∈ l, ∀ p, e.action = .release p →
      ∀ pair, s'.pairs.cell p = some pair → pair.context = none) : Handling w h s l s' :=
  .plain (.inl (.of_channels channels)) (Nat.le_of_eq (congrArg Heap.next channels.symm)) same
    pairs entries (fun e mem ch isStderr data => (unwritten e mem ch isStderr data).1)
    (fun e mem ch action => absurd action (unwritten e mem ch false []).2) released

/-- What a call does at once leaves the records of the channels alone, or obtains a
channel. -/
theorem carries_of_call (alone : serial) {c : Call} {i : Int} (licensed : Licensed w serial h s c) :
    Carries Channel.record s (c.effect i s.tock) ∨
      ∃ session, Obtains s [⟨s.tock, .call c, i⟩] session (c.effect i s.tock) := by
  have ticked : Carries Channel.record s s.tock := .of_channels rfl
  cases c with
  | channelNew session =>
      rcases inherits_of_call (s := s) (.channelNew session) i with ⟨-, fails⟩ | obtains
      · rw [Call.effect, if_neg (fails (.inr ⟨session, rfl⟩))]
        exact .inl ticked
      · exact .inr obtains
  | openReplyAccept =>
      rcases inherits_of_call (s := s) .openReplyAccept i with ⟨-, fails⟩ | obtains
      · rw [Call.effect, if_neg (fails (.inl rfl))]
        exact .inl ticked
      · exact .inr obtains
  | new =>
      refine .inl (.of_channels ?_)
      simp only [Call.effect]
      split <;> rfl
  | setCallbacks => exact False.elim licensed
  | write => exact absurd alone licensed
  | channelFree ch => exact .inl (ticked.freeChannel ch)
  | sendEof ch =>
      refine .inl ?_
      simp only [Call.effect]
      split
      · exact ticked.updateChannel ch fun _ => rfl
      · exact ticked
  | _ => exact .inl ticked

/-- A pair that is released is not in use any more. -/
theorem unused_of_store {t : Proxy} {p : PairId} {pair : FwPair}
    (cell : s.pairs.cell p = some pair) :
    ∀ e ∈ [(⟨t, .release p, 0⟩ : Entry)], ∀ q, e.action = .release q → ∀ pair',
      (s.pairs.store p { pair with context := none, closed := false }).cell q = some pair' →
        pair'.context = none := by
  rw [List.forall_mem_singleton]
  rintro _ ⟨⟩ pair' there
  cases (Heap.cell_store_self _ cell).symm.trans there
  rfl

/-! What was known while callbacks do not nest. -/

/-- While callbacks do not nest, what is known of both channels is known of their moment. -/
private theorem bothObtained_alone (alone : serial) {trapChannel haasChannel : ChannelId}
    (obtained : BothObtained serial h s trapChannel haasChannel) :
    BothObtained True h s trapChannel haasChannel := by
  obtain ⟨e, mem, e', mem', session, new, ok, next, unset, new', ok', next', set, chain⟩ := obtained
  exact ⟨e, mem, e', mem', session, new, ok, next, unset, new', ok', next', set,
    fun _ => chain alone⟩

private theorem offered_alone (alone : serial) {src : ChannelId} {dst : Option ChannelId}
    (offered : Offered w serial h s src dst) : Offered w True h s src dst := by
  obtain ⟨h₀, e, split, accept, next, eq, reached | closed⟩ := offered
  · obtain ⟨allow, e', mem, session, new, ok, set, dst, chain⟩ := reached
    exact ⟨h₀, e, split, accept, next, eq, .inl ⟨allow, e', mem, session, new, ok, set, dst,
      fun _ => chain alone⟩⟩
  · exact ⟨h₀, e, split, accept, next, eq, .inr closed⟩

/-- **What a step does with data** while callbacks come one after another. -/
theorem handling_of_change (alone : serial)
    (done : ∀ p, Released h p → ∀ pair, s.pairs.cell p = some pair → pair.context = none)
    (change : Change w serial h s l s') : Handling w h s l s' := by
  cases change with
  -- a call that is licensed writes no data, and frees the channel that it says
  | call _ _ c i licensed =>
      refine .plain (carries_of_call alone licensed)
        (nextChannel_of_advance (.change (.call h s c i licensed)))
        ⟨by simp, by simp, by simp⟩ (thins_of_pairs (by simp [Proxy.tock])) ?_ ?_ ?_ (by simp)
      · rw [List.forall_mem_singleton]
        exact ⟨rfl, rfl⟩
      · rw [List.forall_mem_singleton]
        rintro ch isStderr data eq
        cases eq
        exact licensed alone
      · rw [List.forall_mem_singleton]
        rintro ch eq
        cases eq
        exact Heap.cell_free_self _
  | grant _ _ nested => exact absurd alone nested
  | consume _ _ nested => exact absurd alone nested
  | once _ _ r i channel first =>
      refine handling_of_same (by split <;> rfl) ?_ (thins_of_pairs (by split <;> rfl))
        (by simp [Proxy.tock]) (by cases r <;> simp [OnceRequest.call]) (by simp)
      split
      · cases r <;> exact ⟨rfl, rfl, rfl⟩
      · exact ⟨rfl, rfl, rfl⟩
  | adopt _ _ trapChannel haasChannel i j obtained first second =>
      exact .adopt trapChannel haasChannel i j (bothObtained_alone alone obtained) first second
  | arrive _ _ ch event => exact .arrive ch event
  | relay _ _ isStderr bytes i during after cell callbacks outlet answer =>
      exact .relay isStderr bytes i during after cell callbacks outlet answer
  | discard _ _ isStderr bytes cell callbacks outlet answer waited =>
      refine .discard isStderr bytes cell callbacks ?_ waited
      exact answer.imp_right fun null => ⟨null.1, null.2.2⟩
  -- from here on only pairs change, and no pair gets a channel
  | newPair =>
      exact handling_of_same rfl ⟨rfl, rfl, rfl⟩ (thins_of_newPair rfl) (by simp) (by simp)
        (by simp)
  | register _ _ offered pointer cell added stored pair filled _ mid =>
      refine .register (offered_alone alone offered) pair ?_ filled.2.2.1 filled.2.2.2 _ _ mid _ _
      rw [filled.1]
      exact Option.some_ne_none _
  | mark _ _ cell why =>
      exact handling_of_same rfl ⟨rfl, rfl, rfl⟩ (thins_of_store cell rfl (fun _ _ there => there)
        fun used => ⟨used, fun _ => rfl⟩) (by simp) (by simp) (by simp)
  | release _ _ cell why =>
      refine handling_of_same rfl ⟨rfl, rfl, rfl⟩ (thins_of_store cell rfl (fun _ _ there => there)
        fun used => absurd rfl used) (by simp) (by simp) ?_
      exact unused_of_store cell
  | reap _ _ pointer poolCell item eq loaded closed out =>
      rw [out]
      refine handling_of_same rfl ⟨rfl, rfl, rfl⟩ (thins_of_store loaded rfl
        (fun _ _ there => there) fun used => absurd rfl used) (by simp) (by simp) ?_
      exact unused_of_store loaded
  | @endpoint _ _ p pair end_ endpoint released cell keeps =>
      refine handling_of_same rfl ⟨rfl, rfl, rfl⟩ (thins_of_store cell rfl ?_ ?_) (by simp) (by simp)
        (by simp)
      · intro e ch there
        by_cases same : e = end_
        · subst same
          rw [FwPair.endpoint_setEndpoint] at there
          rcases keeps with none | keeps
          · cases none.symm.trans there
          · rw [← keeps]
            exact there
        · rwa [FwPair.endpoint_setEndpoint_of_ne _ _ same] at there
      · intro used
        refine absurd ?_ used
        have context : (pair.setEndpoint end_ endpoint).context = pair.context := by
          cases end_ <;> rfl
        rw [context]
        exact done p released pair cell
  | releaseFreed _ _ cell =>
      refine handling_of_same rfl ⟨rfl, rfl, rfl⟩ (thins_of_pairs rfl) (by simp) (by simp) ?_
      rw [List.forall_mem_singleton]
      rintro _ ⟨⟩ pair there
      cases cell.symm.trans there
  | freePair =>
      exact handling_of_same rfl ⟨rfl, rfl, rfl⟩ (thins_of_free rfl) (by simp) (by simp) (by simp)
  | _ =>
      exact handling_of_same rfl ⟨rfl, rfl, rfl⟩ (thins_of_pairs rfl) (by simp [byeLog, Proxy.tock])
        (by simp [byeLog]) (by simp [byeLog])

/-- **The step**, while callbacks do not nest, by what it does to the channels: it
passes on data, notes what arrives, wires two of them, or leaves all that alone. -/
theorem handling_of_advance (alone : serial)
    (done : ∀ p, Released h p → ∀ pair, s.pairs.cell p = some pair → pair.context = none)
    (advance : Advance w serial h s l s') : Handling w h s l s' := by
  cases advance with
  | change change => exact handling_of_change alone done change
  | event _ _ i about =>
      refine handling_of_same rfl ⟨rfl, rfl, rfl⟩ (thins_of_pairs rfl) (by simp [Proxy.tock]) ?_
        (by simp)
      rcases about with rfl | rfl <;> simp
  | _ =>
      exact handling_of_same rfl ⟨rfl, rfl, rfl⟩ (thins_of_pairs rfl) (by simp [byeLog, Proxy.tock])
        (by simp [byeLog]) (by simp [byeLog])

/-- Where a channel comes from in a plain step. -/
theorem cell_of_plain (channels : Carries Channel.record s s' ∨ ∃ session, Obtains s l session s')
    {ch : ChannelId} {c' : Channel} (cell' : s'.channels.cell ch = some c') :
    (∃ c, s.channels.cell ch = some c ∧ c'.record = c.record) ∨
      ch = s.channels.next ∧ c'.callbacks = none ∧
        ∀ b, c'.received b = [] ∧ c'.buffered b = [] ∧ c'.accepted b = [] := by
  rcases channels with carries | ⟨session, rfl, -⟩
  · exact .inl (carries ch c' cell')
  · by_cases new : ch = s.channels.next
    · subst new
      cases (s.channels.cell_alloc_self).symm.trans cell'
      exact .inr ⟨rfl, rfl, fun _ => ⟨rfl, rfl, rfl⟩⟩
    · exact .inl ⟨c', (s.channels.cell_alloc_of_ne new).symm.trans cell', rfl⟩

end Steps

end HaasProxy
