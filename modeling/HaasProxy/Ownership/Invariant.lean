import HaasProxy.Process
import Mathlib.Algebra.Order.BigOperators.Group.List
import Mathlib.Algebra.GroupWithZero.Nat
import Mathlib.Algebra.Order.Group.Nat
import Mathlib.Data.List.ReduceOption

/-!
# Who owns a channel

Every channel the proxy obtains is to be freed exactly once, to be left alone
afterwards, and to have exactly one owner in between: a local variable of the
callback that created it, a field of the context, or an end of a pair in the
pool or on its way out of it.

`Proxy.exact` counts the owners and the `ssh_channel_free` calls of every
channel; together with a few facts about the heap it makes `Proxy.Inv`, which
holds at every interaction with the world.  `Frame` is what a callback may rely
on while libssh makes others: what the running code holds stays as it is, the
pool only grows, and the context only fills up.

## Main definitions

* `Proxy.owners` — every owner's channel, one entry an owner;
* `Proxy.Inv` — what was obtained is held once or was freed once;
* `Frame` — what may change under code that is interrupted;
* `Proxy.push`, `Proxy.pop` — a channel in one local variable more or less.

## Design notes

**Counting instead of pointing.**  An invariant that names the owner of each channel would
have to say who that is while a channel is handed over.  The count does not: the step that
stores a channel in a pair takes it off the local variables, and the sum is what it was.
Owners that appear and disappear in one step cancel out in `exact`, and most proofs below
are about two lists being permutations of each other.

**The ghosts.**  A channel that was obtained and not stored yet is owned by a local variable,
and a pair that was taken out of the pool by the loop that is releasing it.  `locals` and
`releasing` are these variables.  The program writes them where C assigns, and a state
between two interactions shows them.

**Why the frame excepts pairs.**  `FwPairRelease` handles packets while it takes a pair
apart, so callbacks run that see a pair with one end gone.  The code that takes it apart
has to know that they leave it alone, and nobody else relies on it.

**Freed pointers in the context.**  The teardown frees the session channels and leaves the
pointers where they are.  `held` does not count those, and `trapLive` says when there are
none.
-/

namespace HaasProxy

open Traced

/-- The channels at the ends of a pair. -/
def FwPair.channels (pair : FwPair) : List ChannelId :=
  pair.source.channel.toList ++ pair.destiny.channel.toList

namespace Proxy

variable (s : Proxy)

/-- The items of a pool that are not `NULL`. -/
def poolItems (pool : FwPool (Option PairId)) : List PairId :=
  (pool.slots.take pool.used).filterMap Option.join

/-- The pairs in `ForwardPool`. -/
def items : List PairId :=
  (s.context.forwardPool.bind s.pools.cell).elim [] poolItems

/-- The pairs that exist for somebody: in the pool or being released. -/
def heldPairs : List PairId := s.items ++ s.releasing

/-- The channels at the ends of the pair a pointer designates. -/
def pairChannels (p : PairId) : List ChannelId := (s.pairs.cell p).elim [] FwPair.channels

/-- `TrapChannel` and `HaasChannel`. -/
def contextChannels : List ChannelId :=
  s.context.trapChannel.toList ++ s.context.haasChannel.toList

/-- `ForwardPool` does not point to a pool that was freed. -/
def PoolAlive : Prop := ∀ id, s.context.forwardPool = some id → s.pools.cell id ≠ none

/-- The channel a field of the context holds is not freed. -/
def LiveIn (channel : Context → Option ChannelId) : Prop :=
  ∀ ch, channel s.context = some ch → ch ∉ s.freed

/-- Every owner's channel, one entry an owner. -/
def owners : List ChannelId :=
  s.locals ++ s.contextChannels ++ s.heldPairs.flatMap s.pairChannels

/-- The entries of `owners` for `ch` that are about a channel not yet freed;
only the context keeps pointers to freed channels. -/
def held (ch : ChannelId) : Nat :=
  s.locals.count ch + (s.heldPairs.map fun p => (s.pairChannels p).count ch).sum +
    if ch ∈ s.freed then 0 else s.contextChannels.count ch

/-- **The invariant**: what was obtained is held once or was freed once. -/
structure Inv : Prop where
  /-- The count: a channel that was obtained is freed once or held once, and never both. -/
  exact : ∀ ch, s.freed.count ch + s.held ch = if ch < s.channels.next then 1 else 0
  /-- libssh has no record of a channel that was freed. -/
  live : ∀ ch c, s.channels.cell ch = some c → ch ∉ s.freed
  /-- A channel that calls back into a pair is an end of it, and the pair is held. -/
  registered : ∀ ch c p, s.channels.cell ch = some c →
    c.callbacks = some (.forwardChannelCB p) → p ∈ s.heldPairs ∧ ch ∈ s.pairChannels p
  /-- The pool is in order for as long as it is there. -/
  pool : ∀ id pool, s.context.forwardPool = some id → s.pools.cell id = some pool →
    ∃ xs, pool.Holds xs
  /-- No pair is held twice. -/
  distinct : s.heldPairs.Nodup
  /-- A pair that is held is there. -/
  allocated : ∀ p ∈ s.heldPairs, ∃ pair, s.pairs.cell p = some pair
  /-- The session channels come and go together. -/
  both : s.context.trapChannel = none ↔ s.context.haasChannel = none
  /-- `TrapChannel` is not freed before the teardown leaves the context. -/
  trapLive : ∀ ch, s.context.trapChannel = some ch → ch ∉ s.freed

end Proxy

open Proxy

/-! ## Counting

How `owners` and `held` change when one of the lists they are made of does. -/

/-- Changing one summand changes the sum by as much. -/
private theorem sum_map_update {ι : Type} {l : List ι} {f g : ι → Nat} {p : ι} (nodup : l.Nodup)
    (mem : p ∈ l) (other : ∀ q ∈ l, q ≠ p → g q = f q) :
    (l.map g).sum + f p = (l.map f).sum + g p := by
  induction l with
  | nil => cases mem
  | cons q l ih =>
      rw [List.nodup_cons] at nodup
      simp only [List.map_cons, List.sum_cons]
      rcases List.mem_cons.mp mem with rfl | inner
      · have same : l.map g = l.map f := List.map_congr_left fun q hq =>
          other q (.tail _ hq) fun eq => nodup.1 (eq ▸ hq)
        rw [same]
        omega
      · have head : g q = f q := other q (.head _) fun eq => nodup.1 (eq ▸ inner)
        have tail := ih nodup.2 inner fun q hq => other q (.tail _ hq)
        omega

/-- The pairs in a pool in order are those of its list. -/
theorem items_eq {s : Proxy} {id : PoolId} {pool : FwPool (Option PairId)}
    {xs : List (Option PairId)} (pointer : s.context.forwardPool = some id)
    (cell : s.pools.cell id = some pool) (holds : pool.Holds xs) : s.items = xs.reduceOption := by
  rw [items, pointer, Option.bind_some, cell, Option.elim_some, poolItems, holds.items,
    List.filterMap_map]
  rfl

namespace Proxy.Inv

variable {s : Proxy} (h : s.Inv)

include h

private theorem not_mem_freed_of_le {ch : ChannelId} (le : s.channels.next ≤ ch) :
    ch ∉ s.freed := by
  intro mem
  have := h.exact ch
  have := List.count_pos_iff.mpr mem
  rw [if_neg (Nat.not_lt.mpr le)] at *
  omega

/-- What a local variable holds is not freed, and nobody else has it. -/
theorem of_mem_locals {ch : ChannelId} (mem : ch ∈ s.locals) :
    ch ∉ s.freed ∧ ch ∉ s.contextChannels ∧ ch < s.channels.next ∧ s.locals.count ch = 1 ∧
      (s.heldPairs.map fun p => (s.pairChannels p).count ch).sum = 0 := by
  have exact := h.exact ch
  have one := List.count_pos_iff.mpr mem
  have unfreed : ch ∉ s.freed := by
    intro freed
    have := List.count_pos_iff.mpr freed
    simp only [held, if_pos freed] at exact
    split at exact <;> omega
  simp only [held, if_neg unfreed] at exact
  split at exact
  · exact ⟨unfreed, by rw [← List.count_eq_zero]; omega, ‹_›, by omega, by omega⟩
  · omega

/-- What an end of a pair holds is not freed, and nobody else has it. -/
theorem of_mem_pairChannels {ch : ChannelId} {p : PairId} (pair : p ∈ s.heldPairs)
    (mem : ch ∈ s.pairChannels p) :
    ch ∉ s.freed ∧ ch ∉ s.contextChannels ∧ ch ∉ s.locals ∧ ch < s.channels.next ∧
      (s.pairChannels p).count ch = 1 := by
  have exact := h.exact ch
  have one := List.count_pos_iff.mpr mem
  have le : (s.pairChannels p).count ch ≤
      (s.heldPairs.map fun p => (s.pairChannels p).count ch).sum :=
    List.single_le_sum (by simp) _ (List.mem_map_of_mem pair)
  have unfreed : ch ∉ s.freed := by
    intro freed
    have := List.count_pos_iff.mpr freed
    simp only [held, if_pos freed] at exact
    split at exact <;> omega
  simp only [held, if_neg unfreed] at exact
  split at exact
  · refine ⟨unfreed, ?_, ?_, ‹_›, by omega⟩
    · rw [← List.count_eq_zero]
      omega
    · rw [← List.count_eq_zero]
      omega
  · omega

/-- What the context holds and is not freed, nobody else has. -/
theorem of_mem_contextChannels {ch : ChannelId} (mem : ch ∈ s.contextChannels)
    (unfreed : ch ∉ s.freed) :
    ch ∉ s.locals ∧ ch < s.channels.next ∧ s.contextChannels.count ch = 1 ∧
      (s.heldPairs.map fun p => (s.pairChannels p).count ch).sum = 0 := by
  have exact := h.exact ch
  have one := List.count_pos_iff.mpr mem
  rw [held, if_neg unfreed] at exact
  split at exact
  · exact ⟨by rw [← List.count_eq_zero]; omega, ‹_›, by omega, by omega⟩
  · omega

/-- Every channel that was obtained and not freed has exactly one owner. -/
theorem owners_count {ch : ChannelId} (lt : ch < s.channels.next) (unfreed : ch ∉ s.freed) :
    s.owners.count ch = 1 := by
  have exact := h.exact ch
  rw [if_pos lt, List.count_eq_zero.mpr unfreed, held, if_neg unfreed] at exact
  rw [owners, List.count_append, List.count_append, List.count_flatMap]
  have same : (List.map (List.count ch ∘ s.pairChannels) s.heldPairs) =
      s.heldPairs.map fun p => (s.pairChannels p).count ch := rfl
  rw [same]
  omega

end Proxy.Inv

/-! ## What may change under running code

`Frame` is transitive, and whoever is interrupted twice is framed twice. -/

/-- What code that is interrupted by callbacks can rely on, `except` for the
pairs it is taking apart itself. -/
structure Frame (except : List PairId) (s s' : Proxy) : Prop where
  /-- Callbacks return with their local variables gone. -/
  locals : s'.locals = s.locals
  /-- They take no pair out of the pool. -/
  releasing : s'.releasing = s.releasing
  trapSession : s'.context.trapSession = s.context.trapSession
  forwardPool : s'.context.forwardPool = s.context.forwardPool
  /-- `TrapChannel` stays once it is set. -/
  trap : ∀ ch, s.context.trapChannel = some ch → s'.context.trapChannel = some ch
  /-- So does `HaasChannel`. -/
  haas : ∀ ch, s.context.haasChannel = some ch → s'.context.haasChannel = some ch
  /-- What was freed stays so. -/
  freed : ∀ ch ∈ s.freed, ch ∈ s'.freed
  /-- A live `HaasChannel` is not freed. -/
  backend : (s.LiveIn fun c => c.haasChannel) → s'.LiveIn fun c => c.haasChannel
  /-- The ends of a pair stay what they are, whatever becomes of its mark. -/
  pairs : ∀ p ∉ except, ∀ pair, s.pairs.cell p = some pair →
    ∃ pair', s'.pairs.cell p = some pair' ∧ pair'.source = pair.source ∧
      pair'.destiny = pair.destiny ∧ pair'.context = pair.context
  /-- Items are appended to a pool only. -/
  pool : ∀ id pool xs, s.pools.cell id = some pool → pool.Holds xs →
    ∃ pool' ys, s'.pools.cell id = some pool' ∧ pool'.Holds (xs ++ ys)
  /-- A pool that is gone does not come back. -/
  noPool : ∀ id, s.pools.cell id = none → s'.pools.cell id = none

namespace Frame

variable {except : List PairId} {s s' s'' : Proxy}

/-- Where nothing has happened nothing has changed. -/
theorem refl (except : List PairId) (s : Proxy) : Frame except s s where
  locals := rfl
  releasing := rfl
  trapSession := rfl
  forwardPool := rfl
  trap _ h := h
  haas _ h := h
  freed _ h := h
  backend h := h
  pairs _ _ pair h := ⟨pair, h, rfl, rfl, rfl⟩
  pool _ pool xs h holds := ⟨pool, [], h, by rwa [List.append_nil]⟩
  noPool _ h := h

/-- Frames compose: what the first leaves alone and the second leaves alone is left
alone by both. -/
theorem trans (f : Frame except s s') (g : Frame except s' s'') : Frame except s s'' where
  locals := g.locals.trans f.locals
  releasing := g.releasing.trans f.releasing
  trapSession := g.trapSession.trans f.trapSession
  forwardPool := g.forwardPool.trans f.forwardPool
  trap ch h := g.trap ch (f.trap ch h)
  haas ch h := g.haas ch (f.haas ch h)
  freed ch h := g.freed ch (f.freed ch h)
  backend h := g.backend (f.backend h)
  pairs p hp pair h := by
    obtain ⟨pair', h', source', destiny', context'⟩ := f.pairs p hp pair h
    obtain ⟨pair'', h'', source'', destiny'', context''⟩ := g.pairs p hp pair' h'
    exact ⟨pair'', h'', source''.trans source', destiny''.trans destiny',
      context''.trans context'⟩
  pool id pool xs h holds := by
    obtain ⟨pool', ys, h', holds'⟩ := f.pool id pool xs h holds
    obtain ⟨pool'', zs, h'', holds''⟩ := g.pool id pool' _ h' holds'
    exact ⟨pool'', ys ++ zs, h'', by rwa [List.append_assoc] at holds''⟩
  noPool id h := g.noPool id (f.noPool id h)

/-- Callbacks do not free the pool. -/
theorem poolAlive (f : Frame except s s')
    (inOrder : ∀ id pool, s.context.forwardPool = some id → s.pools.cell id = some pool →
      ∃ xs, pool.Holds xs) (alive : s.PoolAlive) : s'.PoolAlive := by
  intro id pointer none
  rw [f.forwardPool] at pointer
  obtain ⟨pool, cell⟩ := Option.ne_none_iff_exists'.mp (alive id pointer)
  obtain ⟨xs, holds⟩ := inOrder id pool pointer cell
  obtain ⟨pool', ys, cell', -⟩ := f.pool id pool xs cell holds
  cases none.symm.trans cell'

/-- A frame that leaves all pairs alone leaves alone all but some. -/
theorem weaken (f : Frame [] s s') : Frame except s s' :=
  { f with pairs := fun p _ => f.pairs p (List.not_mem_nil) }

end Frame

/-- The parts of the state ownership is about are the same. -/
structure Same (s s' : Proxy) : Prop where
  locals : s'.locals = s.locals
  releasing : s'.releasing = s.releasing
  trapSession : s'.context.trapSession = s.context.trapSession
  trapChannel : s'.context.trapChannel = s.context.trapChannel
  haasChannel : s'.context.haasChannel = s.context.haasChannel
  forwardPool : s'.context.forwardPool = s.context.forwardPool
  pairs : s'.pairs = s.pairs
  pools : s'.pools = s.pools
  channels : s'.channels = s.channels
  freed : s'.freed = s.freed

namespace Same

variable {s s' : Proxy} (same : Same s s')

include same

theorem items : s'.items = s.items := by rw [Proxy.items, Proxy.items, same.forwardPool, same.pools]

theorem heldPairs : s'.heldPairs = s.heldPairs := by
  rw [Proxy.heldPairs, Proxy.heldPairs, same.items, same.releasing]

theorem pairChannels : s'.pairChannels = s.pairChannels := by
  funext p
  rw [Proxy.pairChannels, Proxy.pairChannels, same.pairs]

theorem contextChannels : s'.contextChannels = s.contextChannels := by
  rw [Proxy.contextChannels, Proxy.contextChannels, same.trapChannel, same.haasChannel]

/-- **The invariant is about nothing else**, so it holds where these parts are the same. -/
theorem inv (h : s.Inv) : s'.Inv where
  exact ch := by
    rw [held, same.freed, same.locals, same.heldPairs, same.pairChannels, same.contextChannels,
      same.channels]
    exact h.exact ch
  live := by
    rw [same.channels, same.freed]
    exact h.live
  registered := by
    rw [same.channels, same.pairChannels, same.heldPairs]
    exact h.registered
  pool := by
    rw [same.forwardPool, same.pools]
    exact h.pool
  distinct := by
    rw [same.heldPairs]
    exact h.distinct
  allocated := by
    rw [same.heldPairs, same.pairs]
    exact h.allocated
  both := by
    rw [same.trapChannel, same.haasChannel]
    exact h.both
  trapLive := by
    rw [same.trapChannel, same.freed]
    exact h.trapLive

/-- A change that nobody can own anything of is within every frame. -/
theorem frame (except : List PairId) : Frame except s s' where
  locals := same.locals
  releasing := same.releasing
  trapSession := same.trapSession
  forwardPool := same.forwardPool
  trap ch h := same.trapChannel.trans h
  haas ch h := same.haasChannel.trans h
  freed ch h := same.freed ▸ h
  backend h ch set := same.freed ▸ h ch (same.haasChannel.symm.trans set)
  pairs p _ pair h := ⟨pair, same.pairs ▸ h, rfl, rfl, rfl⟩
  pool id pool xs h holds := ⟨pool, [], same.pools ▸ h, by rwa [List.append_nil]⟩
  noPool id h := same.pools ▸ h

end Same

/-! ## Steps on channels

One lemma for each update of libssh's records: obtaining, freeing and registering. -/

section Channels

variable {s : Proxy} {ch : ChannelId}

/-- The channels of the context are the client's and the backend's. -/
theorem mem_contextChannels_iff :
    ch ∈ s.contextChannels ↔ s.context.trapChannel = some ch ∨ s.context.haasChannel = some ch := by
  simp [contextChannels]

/-- A new channel in a local variable. -/
theorem inv_obtain (h : s.Inv) (session : SessionId) : (s.obtain session).Inv where
  exact c := by
    have exact := h.exact c
    show s.freed.count c + ((s.channels.next :: s.locals).count c +
      (s.heldPairs.map fun p => (s.pairChannels p).count c).sum +
        if c ∈ s.freed then 0 else s.contextChannels.count c) =
      if c < s.channels.next + 1 then 1 else 0
    rw [held] at exact
    by_cases new : c = s.channels.next
    · subst new
      rw [if_neg (Nat.lt_irrefl _)] at exact
      rw [if_pos (Nat.lt_succ_self _), List.count_cons_self]
      omega
    · have same : c < s.channels.next + 1 ↔ c < s.channels.next :=
        ⟨fun le => Nat.lt_of_le_of_ne (Nat.le_of_lt_succ le) new, Nat.lt_succ_of_lt⟩
      rw [List.count_cons_of_ne (Ne.symm new)]
      simp only [same]
      exact exact
  live c info cell := by
    by_cases new : c = s.channels.next
    · exact h.not_mem_freed_of_le (new ▸ Nat.le_refl _)
    · exact h.live c info ((s.channels.cell_alloc_of_ne new).symm.trans cell)
  registered c info p cell callbacks := by
    by_cases new : c = s.channels.next
    · subst new
      have := s.channels.cell_alloc_self.symm.trans cell
      cases this
      cases callbacks
    · exact h.registered c info p ((s.channels.cell_alloc_of_ne new).symm.trans cell) callbacks
  pool := h.pool
  distinct := h.distinct
  allocated := h.allocated
  both := h.both
  trapLive := h.trapLive

/-- The state with more channels in local variables. -/
def Proxy.push (s : Proxy) (chs : List ChannelId) : Proxy := { s with locals := chs ++ s.locals }

/-- The state with `ch` in one local variable less. -/
def Proxy.pop (s : Proxy) (ch : ChannelId) : Proxy := { s with locals := s.locals.erase ch }

/-- A new channel becomes a local one. It is new to everybody, so nobody else can own it. -/
theorem Frame.obtain {except : List PairId} {s s' : Proxy} {chs : List ChannelId}
    (f : Frame except (s.push chs) s') (session : SessionId) :
    Frame except (s.push (s'.channels.next :: chs)) (s'.obtain session) where
  locals := congrArg (s'.channels.next :: ·) f.locals
  releasing := f.releasing
  trapSession := f.trapSession
  forwardPool := f.forwardPool
  trap := f.trap
  haas := f.haas
  freed := f.freed
  backend := f.backend
  pairs := f.pairs
  pool := f.pool
  noPool := f.noPool

/-- When a local variable is done with, the frame is that of the code around
it. -/
theorem Frame.pop {except : List PairId} {s s' : Proxy} {before after : List ChannelId}
    (f : Frame except (s.push (before ++ ch :: after)) s') (first : ch ∉ before) :
    Frame except (s.push (before ++ after)) (s'.pop ch) where
  locals := by
    show s'.locals.erase ch = before ++ after ++ s.locals
    rw [f.locals]
    show ((before ++ ch :: after) ++ s.locals).erase ch = _
    rw [List.append_assoc, List.erase_append_right _ first, List.cons_append,
      List.erase_cons_head, List.append_assoc]
  releasing := f.releasing
  trapSession := f.trapSession
  forwardPool := f.forwardPool
  trap := f.trap
  haas := f.haas
  freed := f.freed
  backend := f.backend
  pairs := f.pairs
  pool := f.pool
  noPool := f.noPool

theorem Frame.popHead {except : List PairId} {s s' : Proxy} {chs : List ChannelId}
    (f : Frame except (s.push (ch :: chs)) s') : Frame except (s.push chs) (s'.pop ch) :=
  have onTop : Frame except (s.push ([] ++ ch :: chs)) s' := f
  onTop.pop List.not_mem_nil

/-- A channel of a local variable is freed. -/
theorem inv_freeChannel (h : s.Inv) (mem : ch ∈ s.locals) : (s.freeChannel ch).Inv where
  exact c := by
    obtain ⟨unfreed, notContext, lt, one, none⟩ := h.of_mem_locals mem
    have exact := h.exact c
    show (ch :: s.freed).count c + ((s.locals.erase ch).count c + _ +
      if c ∈ ch :: s.freed then 0 else s.contextChannels.count c) = _
    by_cases same : c = ch
    · subst same
      simp only [held, if_neg unfreed] at exact
      rw [if_pos (by simp), List.count_cons_self, List.count_erase_self]
      have := List.count_eq_zero.mpr notContext
      show _ + (_ + (s.heldPairs.map fun p => (s.pairChannels p).count c).sum + _) =
        if c < s.channels.next then 1 else 0
      omega
    · rw [List.count_cons_of_ne (Ne.symm same), List.count_erase_of_ne same]
      simp only [List.mem_cons, same, false_or]
      exact exact
  live c info cell := by
    by_cases same : c = ch
    · subst same
      cases s.channels.cell_free_self.symm.trans cell
    · have old := (s.channels.cell_free_of_ne same).symm.trans cell
      exact List.not_mem_cons_of_ne_of_not_mem same (h.live c info old)
  registered c info p cell callbacks := by
    by_cases same : c = ch
    · subst same
      cases s.channels.cell_free_self.symm.trans cell
    · exact h.registered c info p ((s.channels.cell_free_of_ne same).symm.trans cell) callbacks
  pool := h.pool
  distinct := h.distinct
  allocated := h.allocated
  both := h.both
  trapLive c trap := by
    obtain ⟨-, notContext, -⟩ := h.of_mem_locals mem
    refine List.not_mem_cons_of_ne_of_not_mem ?_ (h.trapLive c trap)
    rintro rfl
    exact notContext (mem_contextChannels_iff.mpr (.inl trap))

/-- The backend's channel is freed; the context still points to it. -/
theorem inv_freeBackend (h : s.Inv) (haas : s.context.haasChannel = some ch)
    (unfreed : ch ∉ s.freed) : (s.freeChannel ch).Inv := by
  obtain ⟨notLocal, lt, one, none⟩ :=
    h.of_mem_contextChannels (mem_contextChannels_iff.mpr (.inr haas)) unfreed
  have locals : (s.freeChannel ch).locals = s.locals := List.erase_of_not_mem notLocal
  refine ⟨fun c => ?_, fun c info cell => ?_, fun c info p cell callbacks => ?_, h.pool, h.distinct,
    h.allocated, h.both, fun c trap => ?_⟩
  · have exact := h.exact c
    rw [held] at exact ⊢
    rw [locals]
    show (ch :: s.freed).count c + (s.locals.count c + (s.heldPairs.map fun p =>
      (s.pairChannels p).count c).sum + if c ∈ ch :: s.freed then 0 else _) = _
    by_cases same : c = ch
    · subst same
      rw [if_neg unfreed, one] at exact
      rw [if_pos (List.mem_cons_self ..), List.count_cons_self]
      show _ = if c < s.channels.next then 1 else 0
      omega
    · rw [List.count_cons_of_ne (Ne.symm same)]
      simp only [List.mem_cons, same, false_or]
      exact exact
  · by_cases same : c = ch
    · subst same
      cases s.channels.cell_free_self.symm.trans cell
    · have old := (s.channels.cell_free_of_ne same).symm.trans cell
      exact List.not_mem_cons_of_ne_of_not_mem same (h.live c info old)
  · by_cases same : c = ch
    · subst same
      cases s.channels.cell_free_self.symm.trans cell
    · exact h.registered c info p ((s.channels.cell_free_of_ne same).symm.trans cell) callbacks
  · refine List.not_mem_cons_of_ne_of_not_mem ?_ (h.trapLive c trap)
    rintro rfl
    have trap : s.context.trapChannel = some c := trap
    simp [contextChannels, trap, haas] at one

/-- A local channel is freed. The context must not know it, which the invariant gives
where this is used. -/
theorem Frame.freeChannel (except : List PairId) (notContext : ch ∉ s.contextChannels) :
    Frame except (s.pop ch) (s.freeChannel ch) where
  locals := rfl
  releasing := rfl
  trapSession := rfl
  forwardPool := rfl
  trap _ h := h
  haas _ h := h
  freed _ h := .tail _ h
  backend h c set := by
    refine List.not_mem_cons_of_ne_of_not_mem ?_ (h c set)
    rintro rfl
    exact notContext (mem_contextChannels_iff.mpr (.inr set))
  pairs _ _ pair h := ⟨pair, h, rfl, rfl, rfl⟩
  pool _ pool _ h holds := ⟨pool, [], h, by rwa [List.append_nil]⟩
  noPool _ h := h

/-- What is kept about a channel changes. -/
theorem updateChannel_eq (s : Proxy) (ch : ChannelId) (f : Channel → Channel) :
    s.updateChannel ch f = { s with channels := (s.updateChannel ch f).channels } ∧
      (s.updateChannel ch f).channels.next = s.channels.next := by
  unfold Proxy.updateChannel
  split <;> exact ⟨rfl, rfl⟩

/-- What is kept about a channel changes; a pair is registered only for its own
channels. -/
theorem inv_updateChannel (h : s.Inv) {f : Channel → Channel}
    (callbacks : ∀ c p, s.channels.cell ch = some c →
      (f c).callbacks = some (.forwardChannelCB p) → p ∈ s.heldPairs ∧ ch ∈ s.pairChannels p) :
    (s.updateChannel ch f).Inv := by
  obtain ⟨eq, next⟩ := updateChannel_eq s ch f
  have cell := cell_updateChannel s ch f
  rw [eq]
  refine ⟨fun c => ?_, fun c info hc => ?_, fun c info p hc cb => ?_, h.pool, h.distinct,
    h.allocated, h.both, h.trapLive⟩
  · show s.freed.count c + s.held c = if c < (s.updateChannel ch f).channels.next then 1 else 0
    rw [next]
    exact h.exact c
  · simp only [cell] at hc
    split at hc
    · rw [Option.map_eq_some_iff] at hc
      obtain ⟨old, hold, -⟩ := hc
      exact h.live c old hold
    · exact h.live c info hc
  · simp only [cell] at hc
    split at hc
    · subst_vars
      rw [Option.map_eq_some_iff] at hc
      obtain ⟨old, hold, rfl⟩ := hc
      exact callbacks old p hold cb
    · exact h.registered c info p hc cb

/-- Changing the record of a channel is within every frame. -/
theorem Frame.updateChannel (except : List PairId) (s : Proxy) (ch : ChannelId)
    (f : Channel → Channel) : Frame except s (s.updateChannel ch f) := by
  rw [(updateChannel_eq s ch f).1]
  exact
    { locals := rfl
      releasing := rfl
      trapSession := rfl
      forwardPool := rfl
      trap := fun _ h => h
      haas := fun _ h => h
      freed := fun _ h => h
      backend := fun h => h
      pairs := fun _ _ pair h => ⟨pair, h, rfl, rfl, rfl⟩
      pool := fun _ pool _ h holds => ⟨pool, [], h, by rwa [List.append_nil]⟩
      noPool := fun _ h => h }

/-- Both channels of the session go from local variables to the context. -/
theorem inv_storeContext {trapChannel haasChannel : ChannelId} (h : s.Inv)
    (unset : s.context.trapChannel = none) (ne : trapChannel ≠ haasChannel)
    (trapMem : trapChannel ∈ s.locals) (haasMem : haasChannel ∈ s.locals) :
    ({ s with
      context := { s.context with
        trapChannel := some trapChannel
        haasChannel := some haasChannel }
      locals := (s.locals.erase trapChannel).erase haasChannel } : Proxy).Inv where
  exact c := by
    have exact := h.exact c
    obtain ⟨trapUnfreed, -, -, trapOne, -⟩ := h.of_mem_locals trapMem
    obtain ⟨haasUnfreed, -, -, haasOne, -⟩ := h.of_mem_locals haasMem
    have empty : s.contextChannels = [] := by
      rw [contextChannels, unset, h.both.mp unset]
      rfl
    simp only [held, empty] at exact
    show _ + (((s.locals.erase trapChannel).erase haasChannel).count c + _ +
      if c ∈ s.freed then 0 else [trapChannel, haasChannel].count c) = _
    rw [List.count_erase, List.count_erase]
    simp only [List.count_cons, List.count_nil, beq_iff_eq, eq_comm (b := c)] at exact ⊢
    show _ + (_ + (s.heldPairs.map fun p => (s.pairChannels p).count c).sum + _) =
      if c < s.channels.next then 1 else 0
    by_cases isTrap : c = trapChannel
    · subst isTrap
      simp only [if_neg trapUnfreed, if_true, if_neg ne] at exact ⊢
      omega
    · by_cases isHaas : c = haasChannel
      · subst isHaas
        simp only [if_neg haasUnfreed, if_true, if_neg isTrap] at exact ⊢
        omega
      · simp only [if_neg isTrap, if_neg isHaas] at exact ⊢
        split_ifs at exact ⊢ <;> omega
  live := h.live
  registered := h.registered
  pool := h.pool
  distinct := h.distinct
  allocated := h.allocated
  both := by simp
  trapLive c eq := by
    cases eq
    exact (h.of_mem_locals trapMem).1

end Channels

/-! ## Steps on pairs and on the pool

A pair that is stored anew owns the channels at its ends, so these are about how the list of
all ends changes. -/

section Pairs

variable {s s' : Proxy} {p : PairId} {pair : FwPair} {ch : ChannelId}

theorem pairChannels_eq (cell : s.pairs.cell p = some pair) :
    s.pairChannels p = pair.channels := by
  rw [pairChannels, cell, Option.elim_some]

/-- Pairs and the pool change, and nobody gains or loses a channel. -/
theorem inv_of_pairs (h : s.Inv) (locals : s'.locals = s.locals)
    (context : s'.context = s.context) (channels : s'.channels = s.channels)
    (freed : s'.freed = s.freed)
    (sum : ∀ ch, (s'.heldPairs.map fun p => (s'.pairChannels p).count ch).sum =
      (s.heldPairs.map fun p => (s.pairChannels p).count ch).sum)
    (registered : ∀ p ∈ s.heldPairs, ∀ ch ∈ s.pairChannels p,
      p ∈ s'.heldPairs ∧ ch ∈ s'.pairChannels p)
    (pool : ∀ id pool, s.context.forwardPool = some id → s'.pools.cell id = some pool →
      ∃ xs, pool.Holds xs)
    (distinct : s'.heldPairs.Nodup)
    (allocated : ∀ p ∈ s'.heldPairs, ∃ pair, s'.pairs.cell p = some pair) : s'.Inv where
  exact c := by
    rw [held, sum, freed, locals, channels, contextChannels, context]
    exact h.exact c
  live := by
    rw [channels, freed]
    exact h.live
  registered c info q cell callbacks := by
    rw [channels] at cell
    obtain ⟨held, mem⟩ := h.registered c info q cell callbacks
    exact registered q held c mem
  pool := by
    rw [context]
    exact pool
  distinct := distinct
  allocated := allocated
  both := by
    rw [context]
    exact h.both
  trapLive := by
    rw [context, freed]
    exact h.trapLive

/-- Pairs change, but nobody's pair changes its channels. -/
theorem inv_pairs (h : s.Inv) {pairs : Heap FwPair}
    (channels : ∀ q ∈ s.heldPairs, ∀ pair, s.pairs.cell q = some pair →
      ∃ pair', pairs.cell q = some pair' ∧ pair'.channels = pair.channels) :
    ({ s with pairs := pairs } : Proxy).Inv := by
  have same : ∀ q ∈ s.heldPairs,
      ({ s with pairs := pairs } : Proxy).pairChannels q = s.pairChannels q := by
    intro q hq
    obtain ⟨pair, cell⟩ := h.allocated q hq
    obtain ⟨pair', cell', eq⟩ := channels q hq pair cell
    rw [pairChannels_eq cell, ← eq]
    exact pairChannels_eq cell'
  refine inv_of_pairs h rfl rfl rfl rfl (fun _ => ?_) (fun q hq c mem => ⟨hq, ?_⟩) h.pool
    h.distinct fun q hq => ?_
  · show (s.heldPairs.map _).sum = _
    rw [List.map_congr_left fun _ hq => by rw [same _ hq]]
  · rw [same q hq]
    exact mem
  · obtain ⟨pair, cell⟩ := h.allocated q hq
    obtain ⟨pair', cell', -⟩ := channels q hq pair cell
    exact ⟨pair', cell'⟩

/-- A new pair. -/
theorem inv_allocPair (h : s.Inv) : ({ s with pairs := s.pairs.alloc pair } : Proxy).Inv :=
  inv_pairs h fun _ _ old cell =>
    ⟨old, (s.pairs.cell_alloc_of_ne (Nat.ne_of_lt (s.pairs.lt_next_of_cell cell))).trans cell, rfl⟩

/-- A pair changes, but not its channels. -/
theorem inv_storePair (h : s.Inv) {pair' : FwPair} (cell : s.pairs.cell p = some pair)
    (channels : pair'.channels = pair.channels) :
    ({ s with pairs := s.pairs.store p pair' } : Proxy).Inv := by
  refine inv_pairs h fun q _ old hq => ?_
  by_cases same : q = p
  · subst same
    cases cell.symm.trans hq
    exact ⟨pair', s.pairs.cell_store_self cell, channels⟩
  · exact ⟨old, (s.pairs.cell_store_of_ne same).trans hq, rfl⟩

/-- Writing an endpoint exchanges its channel for another one, counted with
multiplicity. It is stated with sums, so that nothing has to be subtracted. -/
theorem count_setEndpoint (pair : FwPair) (e : End) (endpoint : FwEndpoint) (ch : ChannelId) :
    (pair.setEndpoint e endpoint).channels.count ch +
        (pair.endpoint e).channel.toList.count ch =
      pair.channels.count ch + endpoint.channel.toList.count ch := by
  cases e <;>
    simp only [FwPair.setEndpoint, FwPair.endpoint, FwPair.channels, List.count_append] <;> omega

section StoreEndpoint

variable {e : End} {endpoint : FwEndpoint}
  (stored : s'.pairs = s.pairs.store p (pair.setEndpoint e endpoint))

include stored

theorem cell_storeEndpoint (cell : s.pairs.cell p = some pair) :
    s'.pairs.cell p = some (pair.setEndpoint e endpoint) := by
  rw [stored]
  exact s.pairs.cell_store_self cell

/-- It has the channels of both its endpoints as they are now. -/
theorem pairChannels_storeEndpoint (cell : s.pairs.cell p = some pair) :
    s'.pairChannels p = (pair.setEndpoint e endpoint).channels :=
  pairChannels_eq (cell_storeEndpoint stored cell)

theorem pairChannels_storeEndpoint_of_ne {q : PairId} (ne : q ≠ p) :
    s'.pairChannels q = s.pairChannels q := by
  rw [pairChannels, pairChannels, stored, s.pairs.cell_store_of_ne ne]

theorem allocated_storeEndpoint (h : s.Inv) (cell : s.pairs.cell p = some pair) {q : PairId}
    (mem : q ∈ s.heldPairs) : ∃ pair, s'.pairs.cell q = some pair := by
  by_cases same : q = p
  · exact ⟨_, same ▸ cell_storeEndpoint stored cell⟩
  · rw [stored, s.pairs.cell_store_of_ne same]
    exact h.allocated q mem

/-- What an end gains or loses, everybody holds more or less. -/
theorem sum_storeEndpoint (h : s.Inv) (cell : s.pairs.cell p = some pair) (mem : p ∈ s.heldPairs)
    (ch : ChannelId) :
    (s.heldPairs.map fun p => (s'.pairChannels p).count ch).sum +
        (pair.endpoint e).channel.toList.count ch =
      (s.heldPairs.map fun p => (s.pairChannels p).count ch).sum +
        endpoint.channel.toList.count ch := by
  have update := sum_map_update (f := fun p => (s.pairChannels p).count ch)
    (g := fun p => (s'.pairChannels p).count ch) h.distinct mem
    fun q _ ne => by simp only [pairChannels_storeEndpoint_of_ne stored ne]
  have count := count_setEndpoint pair e endpoint ch
  simp only [pairChannels_storeEndpoint stored cell, pairChannels_eq cell] at update
  omega

/-- An end that is stored anew loses the channel that was there, and no other one. -/
theorem mem_pairChannels_storeEndpoint (cell : s.pairs.cell p = some pair) {q : PairId}
    {c : ChannelId} (other : (pair.endpoint e).channel ≠ some c) (old : c ∈ s.pairChannels q) :
    c ∈ s'.pairChannels q := by
  by_cases same : q = p
  · subst same
    rw [pairChannels_storeEndpoint stored cell]
    rw [pairChannels_eq cell] at old
    have count := count_setEndpoint pair e endpoint c
    have lost : (pair.endpoint e).channel.toList.count c = 0 := by
      rw [List.count_eq_zero, Option.mem_toList]
      exact other
    rw [← List.count_pos_iff] at old ⊢
    omega
  · rw [pairChannels_storeEndpoint_of_ne stored same]
    exact old

end StoreEndpoint

/-- A channel goes from a local variable to an empty end of a pair. -/
theorem inv_moveToEnd (h : s.Inv) (cell : s.pairs.cell p = some pair) (mem : p ∈ s.heldPairs)
    {e : End} (empty : (pair.endpoint e).channel = none) {endpoint : FwEndpoint}
    (channel : endpoint.channel = some ch) (isLocal : ch ∈ s.locals)
    (eq : s' = { s with
      pairs := s.pairs.store p (pair.setEndpoint e endpoint)
      locals := s.locals.erase ch }) : s'.Inv := by
  have stored : s'.pairs = s.pairs.store p (pair.setEndpoint e endpoint) := by rw [eq]
  have locals : s'.locals = s.locals.erase ch := by rw [eq]
  have heldPairs : s'.heldPairs = s.heldPairs := by
    rw [eq]
    rfl
  obtain ⟨unfreed, -, -, one, -⟩ := h.of_mem_locals isLocal
  -- what a local variable loses an end gains
  have held (c : ChannelId) : s'.held c = s.held c := by
    have sum := sum_storeEndpoint stored h cell mem c
    rw [empty, channel] at sum
    simp only [Option.toList, List.count_nil, List.count_singleton, beq_iff_eq, Nat.add_zero]
      at sum
    have rest : (if c ∈ s'.freed then 0 else s'.contextChannels.count c) =
        if c ∈ s.freed then 0 else s.contextChannels.count c := by
      rw [eq]
      rfl
    rw [Proxy.held, Proxy.held, rest, locals, heldPairs, List.count_erase]
    simp only [beq_iff_eq]
    by_cases same : ch = c
    · subst same
      simp only [if_true] at sum ⊢
      omega
    · simp only [if_neg same] at sum ⊢
      omega
  refine ⟨fun c => ?_, ?_, fun c info q hc cb => ?_, ?_, ?_, fun q hq => ?_, ?_, ?_⟩
  · rw [held, eq]
    exact h.exact c
  · rw [eq]
    exact h.live
  · obtain ⟨heldOld, old⟩ := h.registered c info q (by rwa [eq] at hc) cb
    rw [heldPairs]
    refine ⟨heldOld, mem_pairChannels_storeEndpoint stored cell ?_ old⟩
    rw [empty]
    exact (Option.some_ne_none c).symm
  · rw [eq]
    exact h.pool
  · rw [heldPairs]
    exact h.distinct
  · exact allocated_storeEndpoint stored h cell (heldPairs ▸ hq)
  · rw [eq]
    exact h.both
  · rw [eq]
    exact h.trapLive

/-- Freeing the channel at an end moves its one entry from the owners to what was freed.  Nobody
else held it, by the count before, so for every channel the sum of both is what it was. -/
private theorem count_freeEnd (h : s.Inv) (cell : s.pairs.cell p = some pair)
    (mem : p ∈ s.heldPairs)
    {e : End} (channel : (pair.endpoint e).channel = some ch) {endpoint : FwEndpoint}
    (empty : endpoint.channel = none) (unfreed : ch ∉ s.freed) (notContext : ch ∉ s.contextChannels)
    (stored : s'.pairs = s.pairs.store p (pair.setEndpoint e endpoint))
    (freed : s'.freed = ch :: s.freed) (locals : s'.locals = s.locals)
    (heldPairs : s'.heldPairs = s.heldPairs) (context : s'.context = s.context) (c : ChannelId) :
    s'.freed.count c + s'.held c = s.freed.count c + s.held c := by
  have sum := sum_storeEndpoint stored h cell mem c
  rw [empty, channel] at sum
  simp only [Option.toList, List.count_nil, Nat.add_zero, List.count_singleton, beq_iff_eq]
    at sum
  rw [Proxy.held, Proxy.held, freed, locals, heldPairs, contextChannels, contextChannels, context]
  by_cases same : ch = c
  · subst same
    rw [contextChannels, ← List.count_eq_zero] at notContext
    rw [List.count_cons_self, if_pos (List.mem_cons_self ..), if_neg unfreed, notContext]
    simp only [if_true] at sum
    omega
  · rw [List.count_cons_of_ne same]
    simp only [List.mem_cons, Ne.symm same, false_or]
    simp only [if_neg same] at sum
    omega

/-- The channel at an end of a pair is freed, and the end is empty again. -/
theorem inv_freeEnd (h : s.Inv) (cell : s.pairs.cell p = some pair) (mem : p ∈ s.heldPairs)
    {e : End} (channel : (pair.endpoint e).channel = some ch) {endpoint : FwEndpoint}
    (empty : endpoint.channel = none)
    (eq : s' = { s.freeChannel ch with
      pairs := s.pairs.store p (pair.setEndpoint e endpoint) }) : s'.Inv := by
  have stored : s'.pairs = s.pairs.store p (pair.setEndpoint e endpoint) := by rw [eq]
  have heldPairs : s'.heldPairs = s.heldPairs := by
    rw [eq]
    rfl
  have freed : s'.freed = ch :: s.freed := by
    rw [eq]
    rfl
  have channels : s'.channels = s.channels.free ch := by
    rw [eq]
    rfl
  have context : s'.context = s.context := by
    rw [eq]
    rfl
  have atEnd : ch ∈ s.pairChannels p := by
    rw [pairChannels_eq cell]
    cases e <;> simp only [FwPair.endpoint] at channel <;> simp [FwPair.channels, channel]
  obtain ⟨unfreed, notContext, notLocal, lt, one⟩ := h.of_mem_pairChannels mem atEnd
  have locals : s'.locals = s.locals := by
    rw [eq]
    exact List.erase_of_not_mem notLocal
  -- libssh's record of a channel is there only if it is another one
  have still (c : ChannelId) (info : Channel) (hc : s'.channels.cell c = some info) :
      c ≠ ch ∧ s.channels.cell c = some info := by
    rw [channels] at hc
    by_cases same : c = ch
    · subst same
      cases s.channels.cell_free_self.symm.trans hc
    · exact ⟨same, (s.channels.cell_free_of_ne same).symm.trans hc⟩
  refine ⟨fun c => ?_, fun c info hc => ?_, fun c info q hc cb => ?_, ?_, ?_, fun q hq => ?_, ?_,
    fun c trap => ?_⟩
  · rw [count_freeEnd h cell mem channel empty unfreed notContext stored freed locals heldPairs
      context, channels, Heap.next_free]
    exact h.exact c
  · obtain ⟨other, old⟩ := still c info hc
    rw [freed]
    exact List.not_mem_cons_of_ne_of_not_mem other (h.live c info old)
  · obtain ⟨other, old⟩ := still c info hc
    obtain ⟨heldOld, atOld⟩ := h.registered c info q old cb
    rw [heldPairs]
    refine ⟨heldOld, mem_pairChannels_storeEndpoint stored cell ?_ atOld⟩
    rw [channel]
    exact fun same => other (Option.some.inj same).symm
  · rw [eq]
    exact h.pool
  · rw [heldPairs]
    exact h.distinct
  · exact allocated_storeEndpoint stored h cell (heldPairs ▸ hq)
  · rw [context]
    exact h.both
  · rw [context] at trap
    rw [freed]
    refine List.not_mem_cons_of_ne_of_not_mem ?_ (h.trapLive c trap)
    rintro rfl
    exact notContext (mem_contextChannels_iff.mpr (.inl trap))

variable {pid : PoolId} {pool pool' : FwPool (Option PairId)} {xs ys : List (Option PairId)}

/-- The pairs that are held are those of the pool, and those on their way out of it. -/
theorem heldPairs_eq (pointer : s.context.forwardPool = some pid)
    (cell : s.pools.cell pid = some pool) (holds : pool.Holds xs) :
    s.heldPairs = xs.reduceOption ++ s.releasing := by
  rw [heldPairs, items_eq pointer cell holds]

/-- The pairs somebody holds once the pool is overwritten. -/
theorem heldPairs_storePool (pointer : s.context.forwardPool = some pid)
    (cell : s.pools.cell pid = some pool) (holds : pool'.Holds ys)
    (context : s'.context = s.context) (pools : s'.pools = s.pools.store pid pool') :
    s'.heldPairs = ys.reduceOption ++ s'.releasing :=
  heldPairs_eq (context ▸ pointer) (by rw [pools, s.pools.cell_store_self cell]) holds

/-- The only pool is in order after it was overwritten with one in order. -/
theorem pool_storePool (pointer : s.context.forwardPool = some pid)
    (cell : s.pools.cell pid = some pool) (holds : pool'.Holds ys)
    (pools : s'.pools = s.pools.store pid pool') (q : PoolId)
    (contents : FwPool (Option PairId)) (hq : s.context.forwardPool = some q)
    (hc : s'.pools.cell q = some contents) : ∃ xs, contents.Holds xs := by
  cases pointer.symm.trans hq
  rw [pools, s.pools.cell_store_self cell] at hc
  cases hc
  exact ⟨ys, holds⟩

/-- A pair without channels is added to the pool. -/
theorem inv_poolAdd (h : s.Inv) (pointer : s.context.forwardPool = some pid)
    (cell : s.pools.cell pid = some pool) (holds : pool.Holds xs)
    (holds' : pool'.Holds (xs ++ [some p])) (unheld : p ∉ s.heldPairs)
    (pcell : s.pairs.cell p = some pair) (channels : pair.channels = [])
    (eq : s' = { s with pools := s.pools.store pid pool' }) :
    s'.Inv ∧ s'.heldPairs.Perm (p :: s.heldPairs) := by
  have pools : s'.pools = s.pools.store pid pool' := by rw [eq]
  have pairs : s'.pairChannels = s.pairChannels := by
    rw [eq]
    rfl
  have perm : s'.heldPairs.Perm (p :: s.heldPairs) := by
    rw [heldPairs_storePool pointer cell holds' (by rw [eq]) pools, heldPairs_eq pointer cell holds,
      List.reduceOption_append, List.append_assoc, show s'.releasing = s.releasing by rw [eq]]
    exact List.perm_middle
  refine ⟨inv_of_pairs h (by rw [eq]) (by rw [eq]) (by rw [eq]) (by rw [eq]) (fun ch => ?_)
    (fun q hq c mem => ⟨perm.mem_iff.mpr (.tail _ hq), pairs ▸ mem⟩)
    (pool_storePool pointer cell holds' pools) ?_ fun q hq => ?_, perm⟩
  · rw [pairs, (perm.map _).sum_eq, List.map_cons, List.sum_cons, pairChannels_eq pcell, channels]
    exact Nat.zero_add _
  · rw [perm.nodup_iff, List.nodup_cons]
    exact ⟨unheld, h.distinct⟩
  · rw [show s'.pairs = s.pairs by rw [eq]]
    rcases List.mem_cons.mp (perm.mem_iff.mp hq) with rfl | hq
    · exact ⟨pair, pcell⟩
    · exact h.allocated q hq

/-- A pair leaves the pool to be released. -/
theorem inv_poolRemove (h : s.Inv) (pointer : s.context.forwardPool = some pid)
    (cell : s.pools.cell pid = some pool) (holds : pool.Holds xs) {i : Nat} (hi : i < xs.length)
    (removed : xs[i] = some p) (holds' : pool'.Holds (swapRemove xs i))
    (eq : s' = { s with
      pools := s.pools.store pid pool'
      releasing := p :: s.releasing }) : s'.Inv := by
  have pools : s'.pools = s.pools.store pid pool' := by rw [eq]
  have pairs : s'.pairChannels = s.pairChannels := by
    rw [eq]
    rfl
  have perm : s'.heldPairs.Perm s.heldPairs := by
    have rest : xs.reduceOption.Perm (p :: (swapRemove xs i).reduceOption) := by
      have moved := (swapRemove_perm hi).filterMap id
      rw [removed] at moved
      exact moved
    rw [heldPairs_storePool pointer cell holds' (by rw [eq]) pools, heldPairs_eq pointer cell holds,
      show s'.releasing = p :: s.releasing by rw [eq]]
    exact List.perm_middle.trans (rest.symm.append_right _)
  refine inv_of_pairs h (by rw [eq]) (by rw [eq]) (by rw [eq]) (by rw [eq]) (fun ch => ?_)
    (fun q hq c mem => ⟨perm.mem_iff.mpr hq, pairs ▸ mem⟩)
    (pool_storePool pointer cell holds' pools) ?_ fun q hq => ?_
  · rw [pairs]
    exact (perm.map _).sum_eq
  · rw [perm.nodup_iff]
    exact h.distinct
  · rw [show s'.pairs = s.pairs by rw [eq]]
    exact h.allocated q (perm.mem_iff.mp hq)

/-- A pair without channels is freed, and nobody holds it any more. -/
theorem inv_dropPair (h : s.Inv) (pcell : s.pairs.cell p = some pair)
    (channels : pair.channels = [])
    (locals : s'.locals = s.locals) (context : s'.context = s.context)
    (chans : s'.channels = s.channels) (freed : s'.freed = s.freed)
    (pairs : s'.pairs = s.pairs.free p) (perm : s.heldPairs.Perm (p :: s'.heldPairs))
    (pool : ∀ id pool, s.context.forwardPool = some id → s'.pools.cell id = some pool →
      ∃ xs, pool.Holds xs) : s'.Inv := by
  have nodup := perm.nodup_iff.mp h.distinct
  rw [List.nodup_cons] at nodup
  have other : ∀ q, q ≠ p → s'.pairChannels q = s.pairChannels q := by
    intro q ne
    rw [pairChannels, pairChannels, pairs, s.pairs.cell_free_of_ne ne]
  refine inv_of_pairs h locals context chans freed (fun ch => ?_) (fun q hq c mem => ?_) pool
    nodup.2 fun q hq => ?_
  · rw [(perm.map _).sum_eq, List.map_cons, List.sum_cons, pairChannels_eq pcell, channels,
      List.count_nil, Nat.zero_add]
    refine congrArg List.sum (List.map_congr_left fun q hq => ?_)
    rw [other q fun same => nodup.1 (same ▸ hq)]
  · have ne : q ≠ p := by
      rintro rfl
      rw [pairChannels_eq pcell, channels] at mem
      cases mem
    rw [other q ne]
    exact ⟨(List.mem_cons.mp (perm.mem_iff.mp hq)).resolve_left ne, mem⟩
  · have ne : q ≠ p := fun same => nodup.1 (same ▸ hq)
    rw [pairs, s.pairs.cell_free_of_ne ne]
    exact h.allocated q (perm.mem_iff.mpr (.tail _ hq))

/-- A pair that was taken from the pool is done with. -/
theorem inv_release (h : s.Inv) {rest : List PairId} (releasing : s.releasing = p :: rest)
    (pcell : s.pairs.cell p = some pair) (channels : pair.channels = [])
    (eq : s' = { s with pairs := s.pairs.free p, releasing := rest }) : s'.Inv := by
  refine inv_dropPair h pcell channels (by rw [eq]) (by rw [eq]) (by rw [eq]) (by rw [eq])
    (by rw [eq]) ?_ (by rw [eq]; exact h.pool)
  rw [heldPairs, heldPairs, releasing, show s'.releasing = rest by rw [eq],
    show s'.items = s.items by rw [eq]; rfl]
  exact List.perm_middle

/-- A pair is released and its slot overwritten with `NULL`. -/
theorem inv_clearSlot (h : s.Inv) (pointer : s.context.forwardPool = some pid)
    (cell : s.pools.cell pid = some pool) (holds : pool.Holds xs) {i : Nat} (hi : i < xs.length)
    (item : xs[i] = some p) (pcell : s.pairs.cell p = some pair) (channels : pair.channels = [])
    (holds' : pool'.Holds (xs.set i none))
    (eq : s' = { s with
      pairs := s.pairs.free p
      pools := s.pools.store pid pool' }) : s'.Inv := by
  have pools : s'.pools = s.pools.store pid pool' := by rw [eq]
  refine inv_dropPair h pcell channels (by rw [eq]) (by rw [eq]) (by rw [eq]) (by rw [eq])
    (by rw [eq]) ?_ (pool_storePool pointer cell holds' pools)
  have before : xs.reduceOption.Perm (p :: (xs.eraseIdx i).reduceOption) := by
    have erased := (List.getElem_cons_eraseIdx_perm hi).symm.filterMap id
    rw [item] at erased
    exact erased
  have after : (xs.set i none).reduceOption.Perm (xs.eraseIdx i).reduceOption :=
    (List.set_perm_cons_eraseIdx hi none).filterMap id
  rw [heldPairs_storePool pointer cell holds' (by rw [eq]) pools, heldPairs_eq pointer cell holds,
    show s'.releasing = s.releasing by rw [eq]]
  exact (before.trans (after.symm.cons p)).append_right _

end Pairs

end HaasProxy
