import HaasProxy.ForwardSetup
import HaasProxy.Reaping

/-!
# `HandleForwards` under callbacks (`proxy.c`)

`HandleForwards` polls the forwards and then takes the closed ones out of the pool,
and each poll and each channel that is closed on the way may deliver callbacks.
Here these are a parameter: `Interrupts` says what is relied on, that callbacks put
new pairs into the pool and mark pairs as closed, and at some time put in no more.

The pool only grows at its end while `HandleForwards` does not touch it (`PoolGrows`),
so the indices of the first loop are those of the pairs it has counted.  The second
loop searches from the start each time.  It ends because each round takes a pair
out, unless callbacks put new ones in, which happens only finitely often.

## Main definitions and results

* `Interrupts` — what callbacks may do;
* `Stretch`, `Completes` — what a part of the program does in which the pool only grows;
* `completes_pollForwards` — the first loop polls every pair that it has counted;
* `returns_reapForward` — a round of the second loop;
* `Sweeping` — the invariant of the second loop;
* `Handled` and `handleForwards_reaps` — the result;
* `interrupts_script` — a libssh that satisfies the assumption.

## Design notes

**Assuming and guaranteeing.**  What is assumed of the callbacks in `Interrupts` is what they
are shown to do in `Stretch`: put new pairs in, and mark.  A function of `HandleForwards`
is shown to do no more than that between two of its own changes to the pool, so callbacks
and the function's own statements compose to one `Stretch`.

**Why the index is safe.**  The first loop takes the number of items once, and reads each
index later.  Callbacks append, so index `i` is still that of the `i`-th pair, and what was
appended is not polled in this call.

**Why the second loop ends.**  Each round without a new pair makes the pool smaller, and from
some interaction on there are no new pairs.  Without an interaction there are none either
(`Still`).  So a round leaves less time to that moment, or fewer items.

**What became of each pair.**  `Accounted` is stated for all pairs that were in the pool at any
moment of the call, also for those that a callback has put in: they are in the pool still,
or were taken out once, closed.
-/

namespace HaasProxy

open Traced

/-! ## The log -/

/-- The channel that is polled. -/
def Interaction.polls : Interaction → Option ChannelId
  | call (.poll ch) => some ch
  | _ => none

/-- The pair that is released. -/
def Interaction.releases : Interaction → Option PairId
  | release p => some p
  | _ => none

/-- The channels that were polled. -/
def polls (h : List Entry) : List ChannelId := h.filterMap fun e => e.action.polls

/-- The pairs that were released. -/
def releases (h : List Entry) : List PairId := h.filterMap fun e => e.action.releases

@[simp] theorem polls_nil : polls [] = [] := rfl

@[simp] theorem releases_nil : releases [] = [] := rfl

/-- What is polled in two stretches is what is polled in each, in that order. -/
@[simp] theorem polls_append (h l : List Entry) : polls (h ++ l) = polls h ++ polls l :=
  List.filterMap_append

/-- What is released in two stretches is what is released in each, in that order. -/
@[simp] theorem releases_append (h l : List Entry) :
    releases (h ++ l) = releases h ++ releases l := List.filterMap_append

/-- A pair is released if an entry says so; the log tells nothing more about it. -/
theorem mem_releases {h : List Entry} {p : PairId} :
    p ∈ releases h ↔ ∃ e ∈ h, e.action = .release p := by
  rw [releases, List.mem_filterMap]
  refine exists_congr fun e => and_congr_right fun _ => ?_
  cases action : e.action with
  | release q => simp [Interaction.releases]
  | _ => simp [Interaction.releases]

/-! ## What callbacks may do -/

/-- The pool of the session is in order, no pair is in it twice, and the pairs in it are
there. -/
structure Proxy.Stocked (s : Proxy) : Prop where
  /-- The pool is in order. -/
  pool : ∀ id, s.context.forwardPool = some id →
    ∃ pool xs, s.pools.cell id = some pool ∧ pool.Holds xs
  /-- No pair is in it twice. -/
  distinct : s.items.Nodup
  /-- The pairs in it are there. -/
  allocated : ∀ p ∈ s.items, s.pairs.cell p ≠ none

/-- From `s` to `s'` new pairs were put into the pool, and the pairs are as they were but for
their marks; only those that are taken apart, in `except`, may have changed otherwise. -/
structure PoolGrows (except : List PairId) (s s' : Proxy) : Prop where
  /-- The session keeps its pool. -/
  pointer : s'.context.forwardPool = s.context.forwardPool
  /-- What is appended to it are new pairs, each once. -/
  pool : ∀ id pool xs, s.context.forwardPool = some id → s.pools.cell id = some pool →
    pool.Holds xs → ∃ pool' ys, s'.pools.cell id = some pool' ∧ pool'.Holds (xs ++ ys) ∧
      ys.reduceOption.Nodup ∧ ∀ p ∈ ys.reduceOption, s.pairs.next ≤ p ∧ s'.pairs.cell p ≠ none
  /-- A pair keeps all but its mark. -/
  pairs : ∀ p ∉ except, ∀ pair, s.pairs.cell p = some pair →
    ∃ closed, s'.pairs.cell p = some { pair with closed := closed }
  /-- What is allocated stays so. -/
  allocated : ∀ p, s.pairs.cell p ≠ none → s'.pairs.cell p ≠ none
  next : s.pairs.next ≤ s'.pairs.next
  later : s.tick ≤ s'.tick

/-- A stretch of a run in which the pool only grows and `polled` are the channels that are
polled.  What is released never was in the pool. -/
structure Stretch (except : List PairId) (polled : List ChannelId) (s : Proxy) (l : List Entry)
    (s' : Proxy) : Prop where
  grows : PoolGrows except s s'
  /-- The channels that were polled, in this order. -/
  polls : polls l = polled
  /-- What was released was obtained on the way, and is in no pool. -/
  released : ∀ p ∈ releases l, s.pairs.next ≤ p ∧ p < s'.pairs.next ∧ p ∉ s'.items
  /-- Whatever was in the pool on the way still is. -/
  shown : ∀ e ∈ l, ∀ p ∈ e.before.items, p ∈ s'.items

/-- **What callbacks may do**: put new pairs into the pool, which none does from the `last`
interaction on, and mark pairs as closed. -/
structure Interrupts (last : Nat) (dispatch : Nat → ProxyM Unit) : Prop where
  /-- They come to an end, and the pool only grows. -/
  returns : ∀ t s, s.Stocked → Returns (dispatch t) s fun l _ s' => Stretch [] [] s l s'
  /-- At some time they stop putting pairs into it. -/
  finite : ∀ t s, s.Stocked → last ≤ t → (dispatch t s).state.items = s.items

/-! ## Growth

Stretches compose, and what is allowed between them is what `PoolGrows` says. -/

section Growth

variable {except : List PairId} {polled polled' : List ChannelId} {s s' s'' : Proxy}
  {l l' : List Entry} {p : PairId}

namespace Proxy.Stocked

variable (stocked : s.Stocked)

include stocked

/-- The pool of the session, or there is none. -/
theorem cases_pool : s.context.forwardPool = none ∧ s.items = [] ∨
    ∃ id pool xs, s.context.forwardPool = some id ∧ s.pools.cell id = some pool ∧
      pool.Holds xs ∧ s.items = xs.reduceOption := by
  cases pointer : s.context.forwardPool with
  | none =>
      refine .inl ⟨rfl, ?_⟩
      rw [Proxy.items, pointer]
      rfl
  | some id =>
      obtain ⟨pool, xs, cell, holds⟩ := stocked.pool id pointer
      exact .inr ⟨id, pool, xs, rfl, cell, holds, items_eq pointer cell holds⟩

/-- The pairs in the pool were all allocated, so a pair that is allocated later is none
of them. This is how a pair is told to be new in everything below. -/
theorem lt_next (mem : p ∈ s.items) : p < s.pairs.next := by
  obtain ⟨pair, cell⟩ := Option.ne_none_iff_exists'.mp (stocked.allocated p mem)
  exact s.pairs.lt_next_of_cell cell

end Proxy.Stocked

/-- A pair that nobody takes apart keeps its channels: only its mark may change. -/
private theorem pairChannels_eq_of_grows (grows : PoolGrows except s s') (outside : p ∉ except)
    (there : s.pairs.cell p ≠ none) : s'.pairChannels p = s.pairChannels p := by
  obtain ⟨pair, cell⟩ := Option.ne_none_iff_exists'.mp there
  obtain ⟨closed, cell'⟩ := grows.pairs p outside pair cell
  rw [Proxy.pairChannels, Proxy.pairChannels, cell, cell']
  rfl

namespace PoolGrows

/-- What is in the pool afterwards. -/
theorem items (grows : PoolGrows except s s') (stocked : s.Stocked) :
    ∃ new, s'.items = s.items ++ new ∧ new.Nodup ∧
      ∀ p ∈ new, s.pairs.next ≤ p ∧ s'.pairs.cell p ≠ none := by
  rcases stocked.cases_pool with ⟨null, nothing⟩ | ⟨id, pool, xs, pointer, cell, holds, items⟩
  · refine ⟨[], ?_, List.nodup_nil, nofun⟩
    rw [nothing, Proxy.items, grows.pointer, null]
    rfl
  · obtain ⟨pool', ys, cell', holds', distinct, new⟩ := grows.pool id pool xs pointer cell holds
    refine ⟨ys.reduceOption, ?_, distinct, new⟩
    rw [items_eq (grows.pointer.trans pointer) cell' holds', items, List.reduceOption_append]

theorem mem_items (grows : PoolGrows except s s') (stocked : s.Stocked) (mem : p ∈ s.items) :
    p ∈ s'.items := by
  obtain ⟨new, items, -⟩ := grows.items stocked
  exact items ▸ List.mem_append_left new mem

/-- What was there and not in the pool is not in it afterwards. -/
theorem not_mem_items (grows : PoolGrows except s s') (stocked : s.Stocked) (outside : p ∉ s.items)
    (below : p < s.pairs.next) : p ∉ s'.items := by
  obtain ⟨new, items, -, fresh⟩ := grows.items stocked
  rw [items, List.mem_append, not_or]
  exact ⟨outside, fun mem => Nat.not_le_of_lt below (fresh p mem).1⟩

/-- What is put into a pool in order is new, there, and in it once, so the pool stays in
order. -/
theorem stocked (grows : PoolGrows except s s') (stocked : s.Stocked) : s'.Stocked := by
  obtain ⟨new, items, distinct, fresh⟩ := grows.items stocked
  refine ⟨?_, ?_, ?_⟩
  · intro id pointer
    rw [grows.pointer] at pointer
    obtain ⟨pool, xs, cell, holds⟩ := stocked.pool id pointer
    obtain ⟨pool', ys, cell', holds', -⟩ := grows.pool id pool xs pointer cell holds
    exact ⟨pool', _, cell', holds'⟩
  · rw [items, List.nodup_append]
    refine ⟨stocked.distinct, distinct, ?_⟩
    rintro p mem q memNew rfl
    exact Nat.not_le_of_lt (stocked.lt_next mem) (fresh p memNew).1
  · intro p mem
    rw [items, List.mem_append] at mem
    rcases mem with mem | mem
    · exact grows.allocated p (stocked.allocated p mem)
    · exact (fresh p mem).2

/-- Growth in two steps. The pairs of the second step are new to it, and hence not among
those of the first. -/
theorem trans (grows : PoolGrows except s s') (more : PoolGrows except s' s'') :
    PoolGrows except s s'' where
  pointer := more.pointer.trans grows.pointer
  pool id pool xs pointer cell holds := by
    obtain ⟨pool', ys, cell', holds', distinct, fresh⟩ := grows.pool id pool xs pointer cell holds
    obtain ⟨pool'', zs, cell'', holds'', distinct', fresh'⟩ :=
      more.pool id pool' _ (grows.pointer.trans pointer) cell' holds'
    refine ⟨pool'', ys ++ zs, cell'', by rwa [← List.append_assoc], ?_, ?_⟩
    · rw [List.reduceOption_append, List.nodup_append]
      refine ⟨distinct, distinct', ?_⟩
      rintro p mem q memNew rfl
      obtain ⟨pair, there⟩ := Option.ne_none_iff_exists'.mp (fresh p mem).2
      exact Nat.not_le_of_lt (s'.pairs.lt_next_of_cell there) (fresh' p memNew).1
    · intro p mem
      rw [List.reduceOption_append, List.mem_append] at mem
      rcases mem with mem | mem
      · exact (fresh p mem).imp_right (more.allocated p)
      · exact (fresh' p mem).imp_left grows.next.trans
  pairs p outside pair cell := by
    obtain ⟨closed, cell'⟩ := grows.pairs p outside pair cell
    obtain ⟨closed', cell''⟩ := more.pairs p outside _ cell'
    exact ⟨closed', cell''⟩
  allocated p there := more.allocated p (grows.allocated p there)
  next := grows.next.trans more.next
  later := grows.later.trans more.later

/-- Neither the pool nor a pair changes. -/
theorem of_same (pointer : s'.context.forwardPool = s.context.forwardPool)
    (pools : s'.pools = s.pools) (pairs : s'.pairs = s.pairs) (later : s.tick ≤ s'.tick) :
    PoolGrows except s s' where
  pointer := pointer
  pool _ pool xs _ cell holds := by
    refine ⟨pool, [], pools ▸ cell, by rwa [List.append_nil], List.nodup_nil, nofun⟩
  pairs p _ pair cell := ⟨pair.closed, pairs ▸ cell⟩
  allocated p there := pairs ▸ there
  next := Nat.le_of_eq (congrArg Heap.next pairs.symm)
  later := later

theorem refl (except : List PairId) (s : Proxy) : PoolGrows except s s :=
  of_same rfl rfl rfl (Nat.le_refl _)

/-- If no pair is taken apart, then none outside any list. -/
theorem weaken (grows : PoolGrows [] s s') : PoolGrows except s s' :=
  { grows with pairs := fun p _ => grows.pairs p List.not_mem_nil }

end PoolGrows

namespace Stretch

/-- A stretch without an entry. -/
theorem of_grows (grows : PoolGrows except s s') : Stretch except [] s [] s' where
  grows := grows
  polls := rfl
  released := by simp
  shown := by simp

theorem refl (except : List PairId) (s : Proxy) : Stretch except [] s [] s :=
  of_grows (.refl except s)

/-- **Two stretches make one.** That a pair which was released in the first is not in
the pool after the second needs that the second only puts in new ones. -/
theorem append (first : Stretch except polled s l s') (stocked : s.Stocked)
    (next : Stretch except polled' s' l' s'') :
    Stretch except (polled ++ polled') s (l ++ l') s'' where
  grows := first.grows.trans next.grows
  polls := by rw [polls_append, first.polls, next.polls]
  released p mem := by
    rw [releases_append, List.mem_append] at mem
    rcases mem with mem | mem
    · obtain ⟨new, below, outside⟩ := first.released p mem
      refine ⟨new, Nat.lt_of_lt_of_le below next.grows.next, ?_⟩
      exact next.grows.not_mem_items (first.grows.stocked stocked) outside below
    · exact (next.released p mem).imp_left first.grows.next.trans
  shown e mem p inPool := by
    rcases List.mem_append.mp mem with mem | mem
    · exact next.grows.mem_items (first.grows.stocked stocked) (first.shown e mem p inPool)
    · exact next.shown e mem p inPool

/-- A single entry that releases nothing. -/
theorem of_entry {e : Entry} (grows : PoolGrows except s s') (items : e.before.items = s'.items)
    (quiet : e.action.releases = none) : Stretch except e.action.polls.toList s [e] s' where
  grows := grows
  polls := by cases polled : e.action.polls <;> simp [HaasProxy.polls, polled]
  released := by simp [releases, quiet]
  shown := by simp [items]

end Stretch

end Growth

/-! ## Programs that are interrupted

The functions that `HandleForwards` calls, from the smallest on. -/

/-- Nothing is put into the pool from the `last` interaction on, or without an interaction. -/
def Still (last : Nat) (s s' : Proxy) : Prop :=
  last ≤ s.tick ∨ s'.tick = s.tick → s'.items = s.items

/-- The program ends, after a stretch. -/
def Completes {α : Type} (last : Nat) (except : List PairId) (polled : List ChannelId)
    (m : ProxyM α) (s : Proxy) : Prop :=
  Returns m s fun l _ s' => Stretch except polled s l s' ∧ Still last s s'

section Completes

variable {w : World} {dispatch : Nat → ProxyM Unit} {last : Nat} {except : List PairId}
  {polled polled' : List ChannelId} {α β : Type} {m : ProxyM α} {k : α → ProxyM β}
  {s s' s'' : Proxy} {p : PairId} {pair : FwPair} {ch : Option ChannelId}

/-- Each part has to be still, since whichever of the two lets time pass, the other one
begins past `last` or lets none pass. -/
theorem still_trans (still : Still last s s') (later : s.tick ≤ s'.tick)
    (still' : Still last s' s'')
    (later' : s'.tick ≤ s''.tick) : Still last s s'' := by
  intro finite
  have first : last ≤ s.tick ∨ s'.tick = s.tick := by omega
  have second : last ≤ s'.tick ∨ s''.tick = s'.tick := by omega
  exact (still' second).trans (still first)

theorem completes_pure {a : α} : Completes last except [] (pure a : ProxyM α) s :=
  returns_pure ⟨.refl except s, fun _ => rfl⟩

/-- The rule of sequence. The second program starts from a state of which it is known
that its pool is in order and has grown. -/
theorem completes_bind (stocked : s.Stocked) (first : Completes last except polled m s)
    (next : ∀ a s', s'.Stocked → PoolGrows except s s' → Completes last except polled' (k a) s') :
    Completes last except (polled ++ polled') (m >>= k) s := by
  refine returns_bind first fun l a s' ⟨stretch, still⟩ => ?_
  refine returns_mono (next a s' (stretch.grows.stocked stocked) stretch.grows) ?_
  rintro l' b s'' ⟨stretch', still'⟩
  exact ⟨stretch.append stocked stretch',
    still_trans still stretch.grows.later still' stretch'.grows.later⟩

/-- The same where nothing is polled at first. -/
theorem completes_bind_nil (stocked : s.Stocked) (first : Completes last except [] m s)
    (next : ∀ a s', s'.Stocked → PoolGrows except s s' → Completes last except polled (k a) s') :
    Completes last except polled (m >>= k) s := completes_bind stocked first next

/-- A program that logs nothing, in front of another one. -/
theorem completes_quiet_bind {a : α} (stocked : s.Stocked) (run : m s = ⟨[], s', .ok a⟩)
    (grows : PoolGrows except s s') (items : s'.items = s.items)
    (next : Completes last except polled (k a) s') : Completes last except polled (m >>= k) s := by
  refine returns_bind_of_ok run (returns_mono next ?_)
  rintro l b s'' ⟨stretch, still⟩
  exact ⟨(Stretch.of_grows grows).append stocked stretch,
    still_trans (fun _ => items) grows.later still stretch.grows.later⟩

theorem completes_when {c : Prop} [Decidable c] {m : ProxyM Unit}
    (pos : c → Completes last except polled m s) (neg : ¬ c → polled = []) :
    Completes last except polled (when c m) s := by
  refine returns_when pos fun not => ?_
  rw [neg not]
  exact ⟨.refl except s, fun _ => rfl⟩

/-! The pool. -/

section Pool

variable {id : PoolId} {pool : FwPool (Option PairId)} {xs : List (Option PairId)}

/-- `FwPoolCount` on a pool in order answers how many pairs there are. -/
theorem run_poolCount (there : s.pools.cell id = some pool) (holds : pool.Holds xs) :
    poolCount (some id) s = ⟨[], s, .ok xs.length⟩ := by
  unfold poolCount
  rw [bind_of_ok (run_loadPool there), fwPoolCount, holds.used]
  rfl

/-- `FwPoolGet` on a pool in order answers the pair in the slot, and NULL outside. -/
theorem run_poolGet (there : s.pools.cell id = some pool) (holds : pool.Holds xs) (i : Nat) :
    poolGet (some id) i s = ⟨[], s, .ok xs[i]?.join⟩ := by
  unfold poolGet
  rw [bind_of_ok (run_loadPool there), bind_of_ok (run_orFault (fwPoolGet_eq holds i))]
  rfl

/-- `FwPoolFindClosed` answers the first pair that is marked, and `-1` if there is none.
No pair that it looks at is gone. -/
theorem run_poolFindClosed (there : s.pools.cell id = some pool) (holds : pool.Holds xs)
    (allocated : ∀ p ∈ xs.reduceOption, s.pairs.cell p ≠ none) :
    poolFindClosed (some id) s =
      ⟨[], s, .ok ((xs.findIdx? s.isClosed).elim (-1) fun k => (k : Int))⟩ := by
  have reads (item : Option PairId) (mem : item ∈ xs) :
      s.itemClosed item = .ok (s.isClosed item) := by
    refine itemClosed_eq ?_
    rintro p rfl
    exact Option.ne_none_iff_exists'.mp (allocated p (List.reduceOption_mem_iff.mpr mem))
  unfold poolFindClosed
  rw [bind_of_ok (run_loadPool there), bind_of_ok (show get s = ⟨[], s, .ok s⟩ from rfl),
    run_orFault (fwPoolFindClosed_eq holds reads)]
  rfl

end Pool

/-! Pairs. -/

/-- A pair that is taken apart is overwritten, or one is marked. -/
private theorem grows_store {new : FwPair} (cell : s.pairs.cell p = some pair)
    (kept : p ∈ except ∨ ∃ closed, new = { pair with closed := closed }) :
    PoolGrows except s { s with pairs := s.pairs.store p new } where
  pointer := rfl
  pool _ pool xs _ there holds := ⟨pool, [], there, by rwa [List.append_nil], List.nodup_nil, nofun⟩
  pairs q outside pair' cell' := by
    by_cases same : q = p
    · subst same
      cases cell.symm.trans cell'
      obtain ⟨closed, rfl⟩ := kept.resolve_left outside
      exact ⟨closed, s.pairs.cell_store_self cell⟩
    · exact ⟨pair'.closed, (s.pairs.cell_store_of_ne same).trans cell'⟩
  allocated q there := by
    by_cases same : q = p
    · subst same
      rw [s.pairs.cell_store_self cell]
      nofun
    · rwa [s.pairs.cell_store_of_ne same]
  next := Nat.le_refl _
  later := Nat.le_refl _

/-- Writing into a pair completes if the pair is being taken apart, or if only the mark
is written. -/
theorem completes_modifyPair {f : FwPair → FwPair} (cell : s.pairs.cell p = some pair)
    (kept : p ∈ except ∨ ∃ closed, f pair = { pair with closed := closed }) :
    Completes last except [] (modifyPair p f) s :=
  ⟨[], _, (), run_modifyPair cell, .of_grows (grows_store cell kept), fun _ => rfl⟩

/-! Calls. -/

variable (calls : Interrupts last dispatch)

include calls

/-- **A call** and the callbacks it delivers. -/
theorem completes_callWith {c : Call} {effect : Int → Proxy → Proxy} (stocked : s.Stocked)
    (same : ∀ i s, (effect i s).context.forwardPool = s.context.forwardPool ∧
      (effect i s).pools = s.pools ∧ (effect i s).pairs = s.pairs ∧ (effect i s).tick = s.tick) :
    Completes last except (Interaction.call c).polls.toList (callWith w dispatch c effect) s := by
  obtain ⟨pointer, pools, pairs, tick⟩ := same (w.answer s.tick) s.tock
  have items : (effect (w.answer s.tick) s.tock).items = s.items := items_of_same pools pointer
  have grows : PoolGrows except s (effect (w.answer s.tick) s.tock) :=
    .of_same pointer pools pairs (tick ▸ Nat.le_succ _)
  have entry : Stretch except (Interaction.call c).polls.toList s
      [⟨s.tock, .call c, w.answer s.tick⟩] (effect (w.answer s.tick) s.tock) :=
    Stretch.of_entry (e := ⟨s.tock, .call c, w.answer s.tick⟩) grows items.symm rfl
  by_cases dispatches : c.Dispatches
  · have stocked' := grows.stocked stocked
    obtain ⟨l, s', ⟨⟩, run, stretch⟩ := calls.returns s.tick _ stocked'
    have finite := calls.finite s.tick _ stocked'
    rw [run] at finite
    have returned : Stretch except [] s' [⟨s', .returned c, w.answer s.tick⟩] s' :=
      Stretch.of_entry (e := ⟨s', .returned c, w.answer s.tick⟩) (.refl except s') rfl rfl
    refine ⟨_, s', _, run_callWith_of_dispatch dispatches run, ?_, fun still => ?_⟩
    · have nested : Stretch except [] _ l s' :=
        { stretch with grows := stretch.grows.weaken }
      have all := entry.append stocked (nested.append stocked' returned)
      rwa [List.append_nil, List.append_nil] at all
    · have later := stretch.grows.later
      rw [tick] at later
      refine (finite (still.resolve_right fun eq => ?_)).trans items
      rw [eq] at later
      exact Nat.not_succ_le_self _ later
  · exact ⟨_, _, _, run_callWith dispatches, entry, fun _ => items⟩

/-- A call on a channel polls that channel or none; the callbacks in it are the
interruption. -/
theorem completes_onChannel {c : ChannelId → Call} (stocked : s.Stocked) :
    Completes last except (ch.bind fun ch => (Interaction.call (c ch)).polls).toList
      (onChannel w dispatch ch c) s := by
  cases ch with
  | none => exact completes_pure
  | some ch => exact completes_callWith calls stocked fun _ _ => ⟨rfl, rfl, rfl, rfl⟩

/-- `ssh_channel_free` completes without asking for the state of a channel. -/
theorem completes_sshChannelFree (stocked : s.Stocked) :
    Completes last except [] (sshChannelFree w dispatch ch) s := by
  cases ch with
  | none => exact completes_pure
  | some ch =>
      have freed : Completes last except []
          (callWith w dispatch (.channelFree ch) fun _ s => s.freeChannel ch) s :=
        completes_callWith calls stocked fun _ _ => ⟨rfl, rfl, rfl, rfl⟩
      exact completes_bind stocked freed fun _ _ _ _ =>
        (completes_pure : Completes last except [] (pure ()) _)

/-! ## The first loop

The index goes up to the number of items that there were at the beginning, and callbacks
only append. So every channel of the pairs that were there is polled once, in order. -/

/-- **One end of a pair** is polled. -/
theorem completes_pollEndpoint (stocked : s.Stocked) (cell : s.pairs.cell p = some pair) (e : End) :
    Completes last [] (pair.endpoint e).channel.toList (pollEndpoint w dispatch p e) s := by
  refine completes_quiet_bind stocked (run_loadPair cell) (.refl [] s) rfl ?_
  refine completes_when (fun _ => ?_) fun null => ?_
  · have polled : ((pair.endpoint e).channel.bind fun ch =>
        (Interaction.call (.poll ch)).polls).toList = (pair.endpoint e).channel.toList := by
      cases (pair.endpoint e).channel <;> rfl
    have poll : Completes last [] (pair.endpoint e).channel.toList
        (onChannel w dispatch (pair.endpoint e).channel .poll) s :=
      polled ▸ completes_onChannel calls stocked
    rw [← List.append_nil (Option.toList _)]
    refine completes_bind stocked poll fun len s' _ grows => completes_when (fun _ => ?_) fun _ => rfl
    obtain ⟨closed, cell'⟩ := grows.pairs p List.not_mem_nil pair cell
    exact completes_modifyPair cell' (.inr ⟨true, rfl⟩)
  · rw [not_not.mp null]
    rfl

/-- **One pair** is polled, the `i`-th of those that were in the pool. -/
theorem completes_pollForward {id : PoolId} {pool : FwPool (Option PairId)}
    {xs : List (Option PairId)} {i : Nat} (stocked : s.Stocked)
    (pointer : s.context.forwardPool = some id) (there : s.pools.cell id = some pool)
    (holds : pool.Holds xs) :
    Completes last [] (xs[i]?.join.elim [] s.pairChannels) (pollForward w dispatch i) s := by
  refine completes_quiet_bind stocked (show get s = ⟨[], s, .ok s⟩ from rfl) (.refl [] s) rfl ?_
  rw [pointer]
  refine completes_quiet_bind stocked (run_poolGet there holds i) (.refl [] s) rfl ?_
  cases item : xs[i]?.join with
  | none => exact completes_pure
  | some p =>
      have mem : p ∈ s.items := by
        rw [items_eq pointer there holds, List.reduceOption_mem_iff]
        exact List.mem_of_getElem? (Option.join_eq_some_iff.mp item)
      obtain ⟨pair, cell⟩ := Option.ne_none_iff_exists'.mp (stocked.allocated p mem)
      rw [Option.elim_some, Proxy.pairChannels, cell]
      refine completes_bind stocked (completes_pollEndpoint calls stocked cell .source) ?_
      intro _ s' stocked' grows
      obtain ⟨closed, cell'⟩ := grows.pairs p List.not_mem_nil pair cell
      exact completes_pollEndpoint calls stocked' cell' .destiny

/-- **The first loop** polls every pair that it has counted, whatever is put into the pool
meanwhile. -/
theorem completes_pollForwards {id : PoolId} {pool : FwPool (Option PairId)}
    {xs : List (Option PairId)} (stocked : s.Stocked)
    (pointer : s.context.forwardPool = some id) (there : s.pools.cell id = some pool)
    (holds : pool.Holds xs) :
    Completes last [] (s.items.flatMap s.pairChannels)
      (each (List.range xs.length) (pollForward w dispatch)) s := by
  have items := items_eq pointer there holds
  have all : s.items = (xs.take xs.length).reduceOption := by rw [List.take_length, items]
  unfold Completes
  rw [all]
  refine returns_each_range (I := fun i h t =>
    Stretch [] ((xs.take i).reduceOption.flatMap s.pairChannels) s h t ∧ Still last s t)
    ?_ ⟨.refl [] s, fun _ => rfl⟩
  rintro i hi h t ⟨stretch, still⟩
  have stocked' := stretch.grows.stocked stocked
  obtain ⟨pool', ys, there', holds', -⟩ := stretch.grows.pool id pool xs pointer there holds
  refine returns_mono (completes_pollForward calls (i := i) stocked'
    (stretch.grows.pointer.trans pointer) there' holds') ?_
  rintro l _ s' ⟨stretch', still'⟩
  have polled : ((xs ++ ys)[i]?.join.elim [] t.pairChannels) =
      [xs[i]].reduceOption.flatMap s.pairChannels := by
    rw [List.getElem?_append_left hi, List.getElem?_eq_getElem hi, Option.join_some]
    cases item : xs[i] with
    | none => rfl
    | some p =>
        have mem : p ∈ s.items := by
          rw [items, List.reduceOption_mem_iff, ← item]
          exact List.getElem_mem hi
        rw [Option.elim_some, pairChannels_eq_of_grows stretch.grows List.not_mem_nil
          (stocked.allocated p mem)]
        exact (List.append_nil _).symm
  rw [polled] at stretch'
  rw [← List.take_append_getElem hi, List.reduceOption_append, List.flatMap_append]
  exact ⟨stretch.append stocked stretch',
    still_trans still stretch.grows.later still' stretch'.grows.later⟩

/-! ## The second loop

A pair has left the pool when its release begins, so callbacks that come during the release
do not find it there. -/

/-- **One end of a pair** that is taken apart. -/
theorem completes_fwEndpointDone (stocked : s.Stocked) (there : s.pairs.cell p ≠ none) (e : End) :
    Completes last [p] [] (fwEndpointDone w dispatch p e) s := by
  have mine : p ∈ [p] := .head _
  have modifies (f : FwEndpoint → FwEndpoint) {s : Proxy} (there : s.pairs.cell p ≠ none) :
      Completes last [p] [] (modifyEndpoint p e f) s := by
    obtain ⟨pair, cell⟩ := Option.ne_none_iff_exists'.mp there
    exact completes_modifyPair cell (.inl mine)
  refine completes_bind_nil stocked (modifies _ there) fun _ s₁ stocked₁ grows₁ => ?_
  have there₁ := grows₁.allocated p there
  obtain ⟨pair, cell⟩ := Option.ne_none_iff_exists'.mp there₁
  refine completes_quiet_bind stocked₁ (run_loadPair cell) (.refl [p] s₁) rfl ?_
  refine completes_when (fun _ => ?_) fun _ => rfl
  obtain ⟨ch, channel⟩ := Option.ne_none_iff_exists'.mp ‹(pair.endpoint e).channel ≠ none›
  rw [channel]
  refine completes_bind_nil stocked₁ (completes_onChannel (c := .isOpen) calls stocked₁)
    fun isOpen s₂ stocked₂ grows₂ => ?_
  refine completes_bind_nil stocked₂ (completes_when (fun _ => ?_) fun _ => rfl)
    fun _ s₃ stocked₃ grows₃ => ?_
  · exact completes_bind_nil stocked₂ (completes_onChannel (c := .close) calls stocked₂)
      fun _ _ _ _ => completes_pure
  have there₃ := grows₃.allocated p (grows₂.allocated p there₁)
  obtain ⟨pair₃, cell₃⟩ := Option.ne_none_iff_exists'.mp there₃
  refine completes_quiet_bind stocked₃ (run_loadPair cell₃) (.refl [p] s₃) rfl ?_
  exact completes_bind_nil stocked₃ (completes_sshChannelFree calls stocked₃)
    fun _ s₄ _ grows₄ => modifies _ (grows₄.allocated p there₃)

/-- **A pair** that has left the pool is released. -/
theorem returns_fwPairRelease (stocked : s.Stocked) (there : s.pairs.cell p ≠ none) :
    Returns (fwPairRelease w dispatch p) s fun l _ s'' => ∃ l' s', l = ⟨s, .release p, 0⟩ :: l' ∧
      Stretch [p] [] s l' s' ∧ Still last s s' ∧
      s'' = { s' with pairs := s'.pairs.free p } := by
  refine returns_bind_of_ok (show tell (fun s : Proxy => (⟨s, .release p, 0⟩ : Entry)) s =
    ⟨[⟨s, .release p, 0⟩], s, .ok ()⟩ from rfl) ?_
  obtain ⟨pair, cell⟩ := Option.ne_none_iff_exists'.mp there
  have mine : p ∈ [p] := .head _
  have taken : Completes last [p] [] (do
      modifyPair p fun pair => { pair with context := none, closed := false }
      fwEndpointDone w dispatch p .source
      fwEndpointDone w dispatch p .destiny) s := by
    refine completes_bind_nil stocked (completes_modifyPair cell (.inl mine))
      fun _ s₁ stocked₁ grows₁ => ?_
    have there₁ := grows₁.allocated p there
    exact completes_bind_nil stocked₁ (completes_fwEndpointDone calls stocked₁ there₁ .source)
      fun _ s₂ stocked₂ grows₂ =>
        completes_fwEndpointDone calls stocked₂ (grows₂.allocated p there₁) .destiny
  obtain ⟨l, s', ⟨⟩, run, stretch, still⟩ := taken
  have freed := bind_of_ok run (k := fun _ => modify fun s : Proxy =>
    { s with pairs := s.pairs.free p })
  simp only [bind_assoc] at freed
  refine ⟨_, _, (), freed, l, s', ?_, stretch, still, rfl⟩
  exact congrArg (List.cons _) (List.append_nil l)

/-- A closed pair leaves the pool. -/
structure Takes (s : Proxy) (p : PairId) (t : Proxy) : Prop where
  closed : s.isClosed (some p) = true
  /-- The pool has lost this pair and no other; where it stood does not matter. -/
  items : s.items.Perm (p :: t.items)
  pairs : t.pairs = s.pairs
  tick : t.tick = s.tick
  stocked : t.Stocked

omit calls in
/-- `FwPoolRemove` at the index that was found takes that pair out and leaves the
others, in another order. -/
private theorem takes_of_remove {id : PoolId} {pool pool' : FwPool (Option PairId)}
    {xs : List (Option PairId)} {i : Nat} (stocked : s.Stocked)
    (pointer : s.context.forwardPool = some id) (there : s.pools.cell id = some pool)
    (holds : pool.Holds xs) (hi : i < xs.length) (item : xs[i] = some p)
    (closed : s.isClosed (some p) = true) (holds' : pool'.Holds (swapRemove xs i)) :
    Takes s p { s with pools := s.pools.store id pool', releasing := p :: s.releasing } := by
  have there' := s.pools.cell_store_self (a := pool') there
  have items : ({ s with
      pools := s.pools.store id pool'
      releasing := p :: s.releasing } : Proxy).items = (swapRemove xs i).reduceOption :=
    items_eq (by exact pointer) there' holds'
  have perm : s.items.Perm (p :: (swapRemove xs i).reduceOption) := by
    have moved := (swapRemove_perm hi).filterMap fun item => item
    rw [item] at moved
    rw [items_eq pointer there holds]
    exact moved
  refine ⟨closed, items ▸ perm, rfl, rfl, ?_, ?_, ?_⟩
  · intro id' pointer'
    cases pointer.symm.trans pointer'
    exact ⟨pool', _, there', holds'⟩
  · rw [items]
    exact (List.nodup_cons.mp (perm.nodup_iff.mp stocked.distinct)).2
  · intro q mem
    rw [items] at mem
    exact stocked.allocated q (perm.mem_iff.mpr (.tail p mem))

/-- **A round of the second loop**: no pair is closed, or one leaves the pool and is
released. -/
theorem returns_reapForward (stocked : s.Stocked) :
    Returns (reapForward w dispatch) s fun l next s'' =>
      match next with
      | .inl _ => ∃ p t l' s', Takes s p t ∧ l = ⟨t, .release p, 0⟩ :: l' ∧
          Stretch [p] [] t l' s' ∧ Still last t s' ∧
          s'' = { s' with pairs := s'.pairs.free p, releasing := s'.releasing.tail }
      | .inr _ => l = [] ∧ s'' = s ∧ ∀ p ∈ s.items, s.isClosed (some p) = false := by
  refine returns_bind_of_ok (show get s = ⟨[], s, .ok s⟩ from rfl) ?_
  rcases stocked.cases_pool with ⟨null, nothing⟩ | ⟨id, pool, xs, pointer, there, holds, items⟩
  · have none_ : poolFindClosed none s = ⟨[], s, .ok (-1)⟩ := rfl
    rw [null]
    refine returns_bind_of_ok none_ (returns_pure ⟨rfl, rfl, ?_⟩)
    rw [nothing]
    exact List.forall_mem_nil _
  have allocated : ∀ p ∈ xs.reduceOption, s.pairs.cell p ≠ none := by
    rw [← items]
    exact stocked.allocated
  rw [pointer]
  refine returns_bind_of_ok (run_poolFindClosed there holds allocated) ?_
  -- the search is in the list that the pool holds
  cases first : xs.findIdx? s.isClosed with
  | none =>
      refine returns_pure ⟨rfl, rfl, fun p mem => ?_⟩
      rw [items, List.reduceOption_mem_iff] at mem
      exact eq_false_of_ne_true fun closed => by
        simpa [closed] using List.findIdx?_eq_none_iff.mp first _ mem
  | some k =>
      obtain ⟨hk, closed, -⟩ := List.findIdx?_eq_some_iff_getElem.mp first
      obtain ⟨p, item⟩ : ∃ p, xs[k] = some p := by
        cases item : xs[k] with
        | none => simp [item, Proxy.isClosed] at closed
        | some p => exact ⟨p, rfl⟩
      rw [item] at closed
      obtain ⟨pool', removed, holds'⟩ := fwPoolRemove_eq holds hk
      rw [Option.elim_some, if_neg (by omega)]
      refine returns_bind_of_ok (run_poolGet there holds k) ?_
      refine returns_bind_of_ok (run_poolRemove there removed) ?_
      rw [List.getElem?_eq_getElem hk, item, Option.join_some]
      -- the pair has left the pool before anything can be called back
      have takes := takes_of_remove stocked pointer there holds hk item closed holds'
      generalize eq : ({ s with
        pools := s.pools.store id pool'
        releasing := p :: s.releasing } : Proxy) = t at takes
      have there' : t.pairs.cell p ≠ none := by
        rw [takes.pairs]
        exact stocked.allocated p (takes.items.mem_iff.mpr (.head _))
      have released : Returns (whenSome (some p) fun p => do
          modify fun s => { s with releasing := p :: s.releasing }
          fwPairRelease w dispatch p
          modify fun s => { s with releasing := s.releasing.tail })
          { s with pools := s.pools.store id pool' } fun l _ s'' => ∃ l' s',
            l = ⟨t, .release p, 0⟩ :: l' ∧ Stretch [p] [] t l' s' ∧ Still last t s' ∧
            s'' = { s' with pairs := s'.pairs.free p, releasing := s'.releasing.tail } := by
        refine returns_bind_of_ok (show modify _ _ = ⟨[], t, .ok ()⟩ from eq ▸ rfl) ?_
        refine returns_bind (returns_fwPairRelease calls takes.stocked there') ?_
        rintro _ _ _ ⟨l', s', rfl, stretch, still, rfl⟩
        exact ⟨[], _, (), rfl, l', s', List.append_nil _, stretch, still, rfl⟩
      refine returns_bind released ?_
      rintro l _ s'' ⟨l', s', log, stretch, still, eq⟩
      refine returns_pure ⟨p, t, l', s', takes, ?_, stretch, still, eq⟩
      rw [List.append_nil]
      exact log

end Completes

/-! ## What becomes of the pairs

`Accounted` is what is known of a pair that was seen in the pool at some time. The
invariant of the second loop keeps it through rounds in which callbacks add pairs. -/

/-- The pair is in the pool and was not released, or it was released once, was closed then, and
is not in the pool. -/
def Accounted (h : List Entry) (s : Proxy) (p : PairId) : Prop :=
  p ∈ s.items ∧ p ∉ releases h ∨
    p ∉ s.items ∧ (releases h).count p = 1 ∧
      ∀ e ∈ h, e.action = .release p → e.before.isClosed (some p) = true

/-- **`HandleForwards` does its work**: the channels of the pairs that were in the pool are
polled, each once and in order; no closed pair is left in the pool; and of every pair that was
in the pool at some time it is known what became of it.  What else is released, a callback
has made and never put into the pool. -/
structure Handled (s : Proxy) (log : List Entry) (s' : Proxy) : Prop where
  /-- Every channel of every pair in the pool, once. -/
  polled : polls log = s.items.flatMap s.pairChannels
  /-- No closed pair is left. -/
  noneClosed : ∀ p ∈ s'.items, s'.isClosed (some p) = false
  /-- A pair that was in the pool still is, or was released once and closed. -/
  accounted : ∀ p, (p ∈ s.items ∨ ∃ e ∈ log, p ∈ e.before.items) → Accounted log s' p
  /-- What else was released is new, and was never in the pool. -/
  others : ∀ p ∈ releases log, Accounted log s' p ∨
    s.pairs.next ≤ p ∧ ∀ e ∈ log, p ∉ e.before.items

/-- **The invariant** since `HandleForwards` was called in `s₀`. -/
structure Sweeping (s₀ : Proxy) (h : List Entry) (s : Proxy) : Prop where
  /-- The pool is in order. -/
  stocked : s.Stocked
  next : s₀.pairs.next ≤ s.pairs.next
  /-- Pairs that were in the pool are below the number of the next one. -/
  shown : ∀ e ∈ h, ∀ p ∈ e.before.items, p < s.pairs.next
  /-- Whatever was in the pool still is, or was released once and closed. -/
  accounted : ∀ p, (p ∈ s₀.items ∨ ∃ e ∈ h, p ∈ e.before.items) → Accounted h s p
  /-- Nothing in the pool was released. -/
  unreleased : ∀ p ∈ s.items, p ∉ releases h
  /-- What was released had been obtained. -/
  past : ∀ p ∈ releases h, p < s.pairs.next
  /-- What else was released was never in the pool. -/
  others : ∀ p ∈ releases h, Accounted h s p ∨ s₀.pairs.next ≤ p ∧ ∀ e ∈ h, p ∉ e.before.items

namespace Sweeping

variable {s₀ s s' t : Proxy} {h l : List Entry} {except : List PairId} {polled : List ChannelId}
  {p : PairId}

/-- At the beginning every pair of the pool is accounted for by being in it. -/
theorem start (stocked : s.Stocked) : Sweeping s [] s where
  stocked := stocked
  next := Nat.le_refl _
  shown := by simp
  accounted p seen := by
    have mem : p ∈ s.items := seen.resolve_right (by simp)
    exact .inl ⟨mem, by simp⟩
  unreleased := by simp
  past := by simp
  others := by simp

section Stretch

variable (sweeping : Sweeping s₀ h s) (stretch : Stretch except polled s l s')

include sweeping stretch

/-- What was released before is not put into the pool. -/
theorem not_mem_items (released : p ∈ releases h) : p ∉ s'.items := by
  have outside : p ∉ s.items := fun inPool => sweeping.unreleased p inPool released
  exact stretch.grows.not_mem_items sweeping.stocked outside (sweeping.past p released)

/-- What is in the pool was not released. -/
theorem not_mem_releases (mem : p ∈ s'.items) : p ∉ releases (h ++ l) := by
  rw [releases_append, List.mem_append, not_or]
  exact ⟨fun before => sweeping.not_mem_items stretch before mem,
    fun now => (stretch.released p now).2.2 mem⟩

/-- A pair stays accounted for: if it was in the pool, it still is; if it was released,
it is not put back. -/
theorem accounted_stretch (accounted : Accounted h s p) : Accounted (h ++ l) s' p := by
  rcases accounted with ⟨mem, -⟩ | ⟨-, once, closed⟩
  · have mem' := stretch.grows.mem_items sweeping.stocked mem
    exact .inl ⟨mem', sweeping.not_mem_releases stretch mem'⟩
  · have before : p ∈ releases h := List.count_pos_iff.mp (by omega)
    have notNow : p ∉ releases l := fun now =>
      Nat.not_le_of_lt (sweeping.past p before) (stretch.released p now).1
    refine .inr ⟨sweeping.not_mem_items stretch before, ?_, ?_⟩
    · rw [releases_append, List.count_append, once, List.count_eq_zero_of_not_mem notNow]
    · intro e mem action
      rcases List.mem_append.mp mem with mem | mem
      · exact closed e mem action
      · exact absurd (mem_releases.mpr ⟨e, mem, action⟩) notNow

/-- **A stretch** in which the pool only grows. -/
theorem grow : Sweeping s₀ (h ++ l) s' where
  stocked := stretch.grows.stocked sweeping.stocked
  next := sweeping.next.trans stretch.grows.next
  shown e mem p inPool := by
    rcases List.mem_append.mp mem with mem | mem
    · exact Nat.lt_of_lt_of_le (sweeping.shown e mem p inPool) stretch.grows.next
    · exact (stretch.grows.stocked sweeping.stocked).lt_next (stretch.shown e mem p inPool)
  accounted p seen := by
    rcases seen with seen | ⟨e, mem, inPool⟩
    · exact sweeping.accounted_stretch stretch (sweeping.accounted p (.inl seen))
    · rcases List.mem_append.mp mem with mem | mem
      · exact sweeping.accounted_stretch stretch (sweeping.accounted p (.inr ⟨e, mem, inPool⟩))
      · have inPool' := stretch.shown e mem p inPool
        exact .inl ⟨inPool', sweeping.not_mem_releases stretch inPool'⟩
  unreleased p mem := sweeping.not_mem_releases stretch mem
  past p mem := by
    rw [releases_append, List.mem_append] at mem
    rcases mem with mem | mem
    · exact Nat.lt_of_lt_of_le (sweeping.past p mem) stretch.grows.next
    · exact (stretch.released p mem).2.1
  others p mem := by
    have outside : p ∉ s'.items := fun inPool => sweeping.not_mem_releases stretch inPool mem
    have notNow (e : Entry) (memE : e ∈ l) : p ∉ e.before.items := fun inPool =>
      outside (stretch.shown e memE p inPool)
    rw [releases_append, List.mem_append] at mem
    rcases mem with mem | mem
    · rcases sweeping.others p mem with accounted | ⟨new, never⟩
      · exact .inl (sweeping.accounted_stretch stretch accounted)
      · refine .inr ⟨new, fun e memE => ?_⟩
        exact (List.mem_append.mp memE).elim (never e) (notNow e)
    · have new := (stretch.released p mem).1
      refine .inr ⟨sweeping.next.trans new, fun e memE => ?_⟩
      rcases List.mem_append.mp memE with memE | memE
      · exact fun inPool => Nat.not_le_of_lt (sweeping.shown e memE p inPool) new
      · exact notNow e memE

end Stretch

section Take

variable (sweeping : Sweeping s₀ h s) (takes : Takes s p t)

include sweeping takes

/-- The pair that is taken is in the pool no longer, since it was in it once. -/
theorem not_mem_items_of_takes : p ∉ t.items :=
  (List.nodup_cons.mp (takes.items.nodup_iff.mp sweeping.stocked.distinct)).1

omit sweeping in
theorem mem_items_of_takes {q : PairId} (mem : q ∈ t.items) : q ∈ s.items :=
  takes.items.mem_iff.mpr (.tail p mem)

/-- A pair that stays in the pool was not released, not even now. -/
theorem not_mem_releases_of_takes {q : PairId} (mem : q ∈ t.items) :
    q ∉ releases (h ++ [⟨t, .release p, 0⟩]) := by
  rw [releases_append, List.mem_append, not_or]
  refine ⟨sweeping.unreleased q (mem_items_of_takes takes mem), ?_⟩
  intro same
  rw [List.mem_singleton.mp (show q ∈ [p] from same)] at mem
  exact sweeping.not_mem_items_of_takes takes mem

/-- Taking a pair accounts for it by its release, at which it was closed, and changes
nothing for the others. -/
theorem accounted_take {q : PairId} (accounted : Accounted h s q) :
    Accounted (h ++ [⟨t, .release p, 0⟩]) t q := by
  have released : releases (h ++ [⟨t, .release p, 0⟩]) = releases h ++ [p] := releases_append h _
  have taken : p ∈ s.items := takes.items.mem_iff.mpr (.head _)
  rcases accounted with ⟨mem, not⟩ | ⟨outside, once, closed⟩
  · rcases List.mem_cons.mp (takes.items.mem_iff.mp mem) with rfl | mem
    · refine .inr ⟨sweeping.not_mem_items_of_takes takes, ?_, ?_⟩
      · rw [released, List.count_append, List.count_eq_zero_of_not_mem not,
          List.count_singleton_self]
      · intro e memE action
        rcases List.mem_append.mp memE with memE | memE
        · exact absurd (mem_releases.mpr ⟨e, memE, action⟩) not
        · rw [List.mem_singleton.mp memE, isClosed_of_pairs takes.pairs]
          exact takes.closed
    · exact .inl ⟨mem, sweeping.not_mem_releases_of_takes takes mem⟩
  · have other : p ≠ q := by
      rintro rfl
      exact outside taken
    refine .inr ⟨fun mem => outside (mem_items_of_takes takes mem), ?_, ?_⟩
    · rw [released, List.count_append, once, List.count_singleton, if_neg (by simpa using other)]
    · intro e memE action
      rcases List.mem_append.mp memE with memE | memE
      · exact closed e memE action
      · rw [List.mem_singleton.mp memE] at action
        exact absurd (Interaction.release.inj action) other

/-- **A closed pair** leaves the pool, and its release begins. -/
theorem take : Sweeping s₀ (h ++ [⟨t, .release p, 0⟩]) t where
  stocked := takes.stocked
  next := takes.pairs ▸ sweeping.next
  shown e mem q inPool := by
    rw [takes.pairs]
    rcases List.mem_append.mp mem with mem | mem
    · exact sweeping.shown e mem q inPool
    · rw [List.mem_singleton.mp mem] at inPool
      exact sweeping.stocked.lt_next (mem_items_of_takes takes inPool)
  accounted q seen := by
    rcases seen with seen | ⟨e, mem, inPool⟩
    · exact sweeping.accounted_take takes (sweeping.accounted q (.inl seen))
    · rcases List.mem_append.mp mem with mem | mem
      · exact sweeping.accounted_take takes (sweeping.accounted q (.inr ⟨e, mem, inPool⟩))
      · rw [List.mem_singleton.mp mem] at inPool
        exact .inl ⟨inPool, sweeping.not_mem_releases_of_takes takes inPool⟩
  unreleased q mem := sweeping.not_mem_releases_of_takes takes mem
  past q mem := by
    rw [releases_append, List.mem_append] at mem
    rw [takes.pairs]
    rcases mem with mem | mem
    · exact sweeping.past q mem
    · rw [List.mem_singleton.mp (show q ∈ [p] from mem)]
      exact sweeping.stocked.lt_next (takes.items.mem_iff.mpr (.head _))
  others q mem := by
    have notNow : q ∉ t.items := fun inPool => sweeping.not_mem_releases_of_takes takes inPool mem
    rw [releases_append, List.mem_append] at mem
    rcases mem with mem | mem
    · rcases sweeping.others q mem with accounted | ⟨new, never⟩
      · exact .inl (sweeping.accounted_take takes accounted)
      · refine .inr ⟨new, fun e memE => ?_⟩
        rcases List.mem_append.mp memE with memE | memE
        · exact never e memE
        · rw [List.mem_singleton.mp memE]
          exact notNow
    · rw [List.mem_singleton.mp (show q ∈ [p] from mem)]
      have taken : p ∈ s.items := takes.items.mem_iff.mpr (.head _)
      exact .inl (sweeping.accounted_take takes (.inl ⟨taken, sweeping.unreleased p taken⟩))

end Take

/-- The memory of a pair that was released is freed. -/
theorem free (sweeping : Sweeping s₀ h s) (released : p ∈ releases h) (releasing : List PairId) :
    Sweeping s₀ h { s with pairs := s.pairs.free p, releasing := releasing } where
  stocked := by
    refine ⟨sweeping.stocked.pool, sweeping.stocked.distinct, fun q mem => ?_⟩
    have other : q ≠ p := by
      rintro rfl
      exact sweeping.unreleased q mem released
    rw [s.pairs.cell_free_of_ne other]
    exact sweeping.stocked.allocated q mem
  next := sweeping.next
  shown := sweeping.shown
  accounted := sweeping.accounted
  unreleased := sweeping.unreleased
  past := sweeping.past
  others := sweeping.others

end Sweeping

section Main

variable {w : World} {dispatch : Nat → ProxyM Unit} {last : Nat} {s₀ s s' t : Proxy}
  {h l : List Entry} {p : PairId}

/-- After a round less is to be done: a pair has left the pool, or callbacks that put pairs
into it are fewer. -/
private theorem lex_of_round (takes : Takes s p t) (stretch : Stretch [p] [] t l s')
    (still : Still last t s') :
    Prod.Lex (· < ·) (· < ·) (last - s'.tick, s'.items.length)
      (last - s.tick, s.items.length) := by
  have later := stretch.grows.later
  have length := takes.items.length_eq
  rw [List.length_cons] at length
  rw [takes.tick] at later
  rw [Prod.lex_def]
  by_cases settled : last ≤ t.tick ∨ s'.tick = t.tick
  · have items := still settled
    rw [takes.tick] at settled
    refine .inr ⟨?_, ?_⟩
    · show last - s'.tick = last - s.tick
      omega
    · show s'.items.length < s.items.length
      rw [items]
      omega
  · rw [takes.tick] at settled
    refine .inl ?_
    show last - s'.tick < last - s.tick
    omega

/-- **The second loop** ends, with no closed pair left in the pool. -/
theorem returns_reapForwards (calls : Interrupts last dispatch) (sweeping : Sweeping s₀ h s) :
    ∃ n, ∀ fuel ≥ n, Returns (loop .exhausted (fun _ => reapForward w dispatch) fuel ()) s
      fun l _ s' => Sweeping s₀ (h ++ l) s' ∧ polls (h ++ l) = polls h ∧
        ∀ p ∈ s'.items, s'.isClosed (some p) = false := by
  refine returns_loop (Nat.lt_wfRel.wf.prod_lex Nat.lt_wfRel.wf)
    (fun s => (last - s.tick, s.items.length))
    (I := fun h' _ s => Sweeping s₀ h' s ∧ polls h' = polls h)
    (Q := fun h' _ s => Sweeping s₀ h' s ∧ polls h' = polls h ∧
      ∀ p ∈ s.items, s.isClosed (some p) = false) ?_ h () s ⟨sweeping, rfl⟩
  rintro h' _ s ⟨sweeping, polled⟩
  refine returns_mono (returns_reapForward calls sweeping.stocked) fun l next s'' round => ?_
  cases next with
  | inl _ =>
      obtain ⟨p, t, l', s', takes, rfl, stretch, still, rfl⟩ := round
      have taken := (sweeping.take takes).grow stretch
      rw [List.append_assoc, List.singleton_append] at taken
      have less := lex_of_round takes stretch still
      refine ⟨⟨taken.free ?_ _, ?_⟩, less⟩
      · exact mem_releases.mpr ⟨_, List.mem_append_right h' (.head l'), rfl⟩
      · rw [polls_append, polled]
        show polls h ++ polls l' = _
        rw [stretch.polls, List.append_nil]
  | inr _ =>
      obtain ⟨rfl, rfl, noneClosed⟩ := round
      rw [List.append_nil]
      exact ⟨sweeping, polled, noneClosed⟩

/-- Without pairs there is nothing to do, and nothing is done. -/
private theorem handled_of_empty (nothing : s.items = []) : Handled s [] s where
  polled := by rw [nothing]; rfl
  noneClosed := by simp [nothing]
  accounted := by simp [nothing]
  others := by simp

/-- **`HandleForwards` reaps exactly the closed pairs**, whatever callbacks do
meanwhile. The callbacks are those of any dispatcher that keeps to the contract
`Interrupts`: they may mark pairs as closed and put new ones into the pool, but take
none out, and from some interaction on they add none. With enough fuel both loops end,
and `Handled` is what is then known of every pair. -/
theorem handleForwards_reaps (w : World) (last : Nat) (dispatch : Nat → ProxyM Unit)
    (calls : Interrupts last dispatch) (s : Proxy) (stocked : s.Stocked) :
    ∃ n, ∀ fuel ≥ n, Returns (handleForwards w dispatch fuel) s fun log _ s' =>
      Handled s log s' := by
  have got : get s = (⟨[], s, .ok s⟩ : Run Entry Stop Proxy Proxy) := rfl
  have returns_empty (count : Int) (nothing : s.items = []) (none_ : ¬ 0 < count)
      (run : poolCount s.context.forwardPool s = ⟨[], s, .ok count⟩) (fuel : Nat) :
      Returns (handleForwards w dispatch fuel) s fun log _ s' => Handled s log s' := by
    refine returns_bind_of_ok got (returns_bind_of_ok run ?_)
    exact returns_when (fun some => absurd some none_) fun _ => handled_of_empty nothing
  rcases stocked.cases_pool with ⟨null, nothing⟩ | ⟨id, pool, xs, pointer, there, holds, items⟩
  · refine ⟨0, fun fuel _ => returns_empty (-1) nothing (by decide) ?_ fuel⟩
    rw [null]
    rfl
  · have count : poolCount s.context.forwardPool s = ⟨[], s, .ok xs.length⟩ := by
      rw [pointer]
      exact run_poolCount there holds
    cases xs with
    | nil => exact ⟨0, fun fuel _ => returns_empty 0 items (by decide) count fuel⟩
    | cons x xs =>
        obtain ⟨l, t, ⟨⟩, run, stretch, still⟩ :=
          completes_pollForwards (w := w) calls stocked pointer there holds
        have sweeping := (Sweeping.start stocked).grow stretch
        rw [List.nil_append] at sweeping
        obtain ⟨n, returns⟩ := returns_reapForwards (w := w) calls sweeping
        refine ⟨n, fun fuel enough => returns_bind_of_ok got (returns_bind_of_ok count ?_)⟩
        refine returns_when (fun _ => ?_) fun none_ => absurd (by simp) none_
        rw [Int.toNat_natCast]
        refine returns_bind_of_ok run (returns_mono (returns fuel enough) ?_)
        rintro l' _ s' ⟨swept, polled, noneClosed⟩
        exact ⟨polled.trans stretch.polls, noneClosed, swept.accounted, swept.others⟩

end Main

/-! ## Callbacks as a script

Forwards that are opened and closed at given interactions, by the code of the callbacks
themselves. -/

/-- What callbacks do to the pool: a forward that is accepted is put into it, or the channel of
one is closed. -/
inductive ForwardEvent where
  /-- `TrapMessageCallback` has accepted the request, with these channels. -/
  | opened (r : ForwardRequest) (src dst : Option ChannelId)
  /-- `ForwardChannelCloseCallback`. -/
  | closed (p : PairId)

/-- The pool of the session can take another pair. -/
def Proxy.HasRoom (s : Proxy) : Prop :=
  ∃ pool ∈ s.context.forwardPool.bind s.pools.cell,
    pool.IsFull → pool.alloc + poolAllocSize ≤ intMax

instance (s : Proxy) : Decidable s.HasRoom :=
  inferInstanceAs (Decidable (∃ pool ∈ Option.bind _ _, _))

/-- The callback for an event, where the pool has room and the pair is not freed. -/
def happens (w : World) : ForwardEvent → ProxyM Unit
  | .opened r src dst => do
      let s ← get
      when s.HasRoom do
        let _ ← forwardRegister w undisturbed r.originator r.originatorPort r.destination
          r.destinationPort src dst
  | .closed p => do
      let s ← get
      when (s.pairs.cell p ≠ none) (forwardChannelCloseCallback p)

/-- The callbacks of an interaction. -/
def script (w : World) (events : Nat → List ForwardEvent) (t : Nat) : ProxyM Unit :=
  each (events t) (happens w)

section Script

variable {w : World} {last : Nat} {except : List PairId} {s s' : Proxy} {p : PairId}

theorem interrupts_undisturbed : Interrupts 0 undisturbed where
  returns _ s _ := returns_pure (.refl [] s)
  finite _ _ _ _ := rfl

theorem completes_allocate {allocation : Allocation} :
    Completes last except [] (allocate w allocation) s :=
  ⟨_, s.tock, _, run_allocate, Stretch.of_entry (e := ⟨s.tock, .alloc allocation, _⟩)
    (.of_same rfl rfl rfl (Nat.le_succ _)) rfl rfl, fun _ => rfl⟩

/-- A table of callbacks is only stored. -/
theorem completes_sshSetChannelCallbacks {ch : Option ChannelId} {cb : ChannelCallbacks}
    (stocked : s.Stocked) :
    Completes 0 except [] (sshSetChannelCallbacks w undisturbed ch cb) s := by
  cases ch with
  | none => exact completes_pure
  | some ch =>
      have called : Completes 0 except [] (callWith w undisturbed (.setCallbacks ch cb) fun _ s =>
          s.updateChannel ch fun c => { c with callbacks := some cb }) s := by
        refine completes_callWith interrupts_undisturbed stocked fun _ s => ?_
        unfold Proxy.updateChannel
        cases s.channels.cell ch <;> exact ⟨rfl, rfl, rfl, rfl⟩
      exact completes_bind stocked called fun _ _ _ _ =>
        (completes_pure : Completes 0 except [] (pure ()) _)

/-- The state in which a new pair has been allocated, and a pool holds it. -/
def Proxy.added (s : Proxy) (id : PoolId) (pool : FwPool (Option PairId)) (t : Nat) : Proxy :=
  { s.filling s.channels s.pools (blankPair s.pairs.next) (s.tick + 1) s.locals with
    tick := t
    pools := s.pools.store id pool }

section AddPair

variable {id : PoolId} {pool pool' : FwPool (Option PairId)} {xs : List (Option PairId)}
  {granted : Bool} {index : Int} {t : Nat} (pointer : s.context.forwardPool = some id)
  (there : s.pools.cell id = some pool) (holds : pool.Holds xs)
  (added : fwPoolAdd granted (some s.pairs.next) (some pool) = .ok (index, some pool'))
  (later : s.tick + 1 ≤ t)

include pointer there added later

/-- The pool grows by the new pair, which is the next one to be numbered; the pairs that were
there are not touched. -/
private theorem grows_added : PoolGrows [s.pairs.next] s (s.added id pool' t) := by
  refine ⟨rfl, ?_, ?_, ?_, Nat.le_succ _, Nat.le_of_succ_le later⟩
  · intro id' pool' xs' pointer' cell' held
    cases pointer.symm.trans pointer'
    cases there.symm.trans cell'
    refine ⟨_, [some s.pairs.next], s.pools.cell_store_self there, (holds_of_add held added).1,
      by simp, ?_⟩
    simp only [List.reduceOption_singleton, Option.toList_some, List.forall_mem_singleton]
    refine ⟨Nat.le_refl _, ?_⟩
    show (s.pairs.alloc (blankPair s.pairs.next)).cell s.pairs.next ≠ none
    rw [s.pairs.cell_alloc_self]
    exact Option.some_ne_none _
  · intro q outside pair' cell'
    have other : q ≠ s.pairs.next := by simpa using outside
    exact ⟨pair'.closed, (s.pairs.cell_alloc_of_ne other).trans cell'⟩
  · intro q there'
    obtain ⟨pair', cell'⟩ := Option.ne_none_iff_exists'.mp there'
    exact (s.pairs.cell_alloc_of_ne (s.pairs.lt_next_of_cell cell').ne).symm ▸ there'

include holds

/-- Adding a pair is a stretch: only memory was asked for, in states in which the pool was what it
was before. -/
private theorem stretch_added {l : List Entry}
    (entries : ∀ e ∈ l, (∃ allocation, e.action = .alloc allocation) ∧ e.before.items = s.items) :
    Stretch [s.pairs.next] [] s l (s.added id pool' t) := by
  have items : (s.added id pool' t).items = s.items ++ [s.pairs.next] := by
    rw [items_eq (by exact pointer) (s.pools.cell_store_self there) (holds_of_add holds added).1,
      List.reduceOption_append, items_eq pointer there holds]
    rfl
  refine ⟨grows_added pointer there added later, ?_, ?_, ?_⟩
  · refine List.filterMap_eq_nil_iff.mpr fun e mem => ?_
    obtain ⟨⟨allocation, action⟩, -⟩ := entries e mem
    rw [action]
    rfl
  · intro p released
    obtain ⟨e, mem, release⟩ := mem_releases.mp released
    obtain ⟨⟨allocation, action⟩, -⟩ := entries e mem
    cases action.symm.trans release
  · intro e mem p inPool
    rw [(entries e mem).2] at inPool
    rw [items]
    exact List.mem_append_left _ inPool

end AddPair

/-- A new pair is put into the pool, in front of a program. -/
theorem returns_addPair_bind {β : Type} {k : Option PairId → Int → ProxyM β}
    {Q : List Entry → β → Proxy → Prop} {id : PoolId} {pool : FwPool (Option PairId)}
    {xs : List (Option PairId)} (granted : ∀ t, w.granted t = true)
    (pointer : s.context.forwardPool = some id) (there : s.pools.cell id = some pool)
    (holds : pool.Holds xs) (room : pool.IsFull → pool.alloc + poolAllocSize ≤ intMax)
    (next : ∀ l index s', index ≠ -1 → s'.pairs.cell s.pairs.next ≠ none →
      Stretch [s.pairs.next] [] s l s' →
      Returns (k (some s.pairs.next) index) s' fun l' => Q (l ++ l')) :
    Returns (do
      let pair ← fwPairAlloc w
      let s ← get
      let index ← poolAdd w s.context.forwardPool pair
      k pair index) s Q := by
  have cell := s.pairs.cell_alloc_self (a := blankPair s.pairs.next)
  refine returns_bind_of_ok (run_fwPairAlloc (granted s.tick)) (returns_get_bind ?_)
  generalize eq : s.filling s.channels s.pools (blankPair s.pairs.next) (s.tick + 1) s.locals = s₁
  have pointer₁ : s₁.context.forwardPool = some id := eq ▸ pointer
  have there₁ : s₁.pools.cell id = some pool := eq ▸ there
  rw [pointer₁]
  rcases run_poolAdd w (some id) (some s.pairs.next) s₁ with ⟨l, s', stop, run, -⟩ | ⟨null, -⟩ |
    ⟨id', pool', granted', index, pool'', l, t, same, there', added, later, run, entries, -⟩
  · -- the pool has room
    obtain ⟨_, _, _, run', -⟩ := smooth_poolAdd (w := w) pointer₁ there₁
      holds fun full => ⟨granted s₁.tick, room full⟩
    cases run.symm.trans run'
  · cases null
  · cases same
    cases there₁.symm.trans there'
    subst eq
    refine returns_bind_of_ok run (returns_mono (next ([⟨s.tock, .alloc .fwPair, 1⟩] ++ l) index _
      (holds_of_add holds added).2 ?_ (stretch_added pointer there holds added later ?_))
      fun l' b s' post => ?_)
    · exact cell ▸ Option.some_ne_none _
    · intro e mem
      rcases List.mem_append.mp mem with mem | mem
      · rw [List.mem_singleton.mp mem]
        exact ⟨⟨_, rfl⟩, rfl⟩
      · obtain ⟨action, tick, state⟩ := entries e mem
        rw [state]
        exact ⟨⟨_, action⟩, items_of_same rfl rfl⟩
    · rwa [← List.append_assoc]

/-- **A forward is accepted.** -/
theorem stretch_forwardRegister (granted : ∀ t, w.granted t = true) (stocked : s.Stocked)
    (room : s.HasRoom) (r : ForwardRequest) (src dst : Option ChannelId) :
    Returns (forwardRegister w undisturbed r.originator r.originatorPort r.destination
      r.destinationPort src dst) s fun l _ s' => Stretch [] [] s l s' := by
  obtain ⟨pool, some_, grows⟩ := room
  obtain ⟨id, pointer, there⟩ := Option.bind_eq_some_iff.mp some_
  obtain ⟨pool', xs, there', holds⟩ := stocked.pool id pointer
  cases there.symm.trans there'
  refine returns_addPair_bind granted pointer there holds grows
    fun l index s₁ stored there₁ stretch => ?_
  have stocked₁ := stretch.grows.stocked stocked
  rw [if_pos stored]
  have mine : s.pairs.next ∈ [s.pairs.next] := .head _
  have modifies {f : FwPair → FwPair} {t : Proxy} (there : t.pairs.cell s.pairs.next ≠ none) :
      Completes 0 [s.pairs.next] [] (modifyPair s.pairs.next f) t := by
    obtain ⟨pair, cell⟩ := Option.ne_none_iff_exists'.mp there
    exact completes_modifyPair cell (.inl mine)
  have locals {f : Proxy → List ChannelId} {t : Proxy} :
      Completes 0 [s.pairs.next] [] (modify fun s : Proxy => { s with locals := f s }) t :=
    ⟨[], _, (), rfl, .of_grows (.of_same rfl rfl rfl (Nat.le_refl _)), fun _ => rfl⟩
  -- the pair is filled in and registered; all of it is about the new pair
  have filled : Completes 0 [s.pairs.next] [] (do
      modifyPair s.pairs.next fun pair => { pair with context := some .proxyProcess }
      let strdup ← allocate w .strdup
      modifyEndpoint s.pairs.next .source fun _ =>
        { addr := if strdup then some r.originator else none
          port := r.originatorPort
          channel := src }
      modify fun s => { s with locals := src.elim s.locals s.locals.erase }
      let strdup ← allocate w .strdup
      modifyEndpoint s.pairs.next .destiny fun _ =>
        { addr := if strdup then some r.destination else none
          port := r.destinationPort
          channel := dst }
      modify fun s => { s with locals := dst.elim s.locals s.locals.erase }
      sshSetChannelCallbacks w undisturbed src (.forwardChannelCB s.pairs.next)
      when (dst ≠ none) do
        sshSetChannelCallbacks w undisturbed dst (.forwardChannelCB s.pairs.next)
      pure false) s₁ := by
    refine completes_bind_nil stocked₁ (modifies there₁) fun _ s₂ stocked₂ grows₂ => ?_
    have there₂ := grows₂.allocated _ there₁
    refine completes_bind_nil stocked₂ completes_allocate fun _ s₃ stocked₃ grows₃ => ?_
    have there₃ := grows₃.allocated _ there₂
    refine completes_bind_nil stocked₃ (modifies there₃) fun _ s₄ stocked₄ grows₄ => ?_
    have there₄ := grows₄.allocated _ there₃
    refine completes_bind_nil stocked₄ locals fun _ s₅ stocked₅ grows₅ => ?_
    refine completes_bind_nil stocked₅ completes_allocate fun _ s₆ stocked₆ grows₆ => ?_
    have there₆ := grows₆.allocated _ (grows₅.allocated _ there₄)
    refine completes_bind_nil stocked₆ (modifies there₆) fun _ s₇ stocked₇ _ => ?_
    refine completes_bind_nil stocked₇ locals fun _ s₈ stocked₈ _ => ?_
    refine completes_bind_nil stocked₈ (completes_sshSetChannelCallbacks stocked₈)
      fun _ s₉ stocked₉ _ => ?_
    exact completes_bind_nil stocked₉ (completes_when (fun _ =>
      completes_sshSetChannelCallbacks stocked₉) fun _ => rfl) fun _ _ _ _ => completes_pure
  refine returns_mono filled fun l' _ s' ⟨stretch', _⟩ => ?_
  -- that pair was not there in `s`, so no pair that was is excepted
  have all := stretch.append stocked stretch'
  refine { all with grows := { all.grows with pairs := fun q _ pair cell => ?_ } }
  exact all.grows.pairs q (by simpa using (s.pairs.lt_next_of_cell cell).ne) pair cell

/-- One callback does what callbacks may do. -/
theorem stretch_happens (granted : ∀ t, w.granted t = true) (stocked : s.Stocked)
    (event : ForwardEvent) : Returns (happens w event) s fun l _ s' => Stretch [] [] s l s' := by
  cases event with
  | opened r src dst =>
      refine returns_get_bind (returns_when (fun room => ?_) fun _ => .refl [] s)
      refine returns_bind (stretch_forwardRegister granted stocked room r src dst) ?_
      intro l _ s' stretch
      refine returns_pure ?_
      rwa [List.append_nil]
  | closed p =>
      refine returns_get_bind (returns_when (fun there => ?_) fun _ => .refl [] s)
      obtain ⟨pair, cell⟩ := Option.ne_none_iff_exists'.mp there
      have marked : Completes 0 [] [] (forwardChannelCloseCallback p) s :=
        completes_modifyPair cell (.inr ⟨true, rfl⟩)
      exact returns_mono marked fun _ _ _ post => post.1

/-- **Scripts are callbacks**: any finite number of forwards that are accepted and closed. -/
theorem interrupts_script (granted : ∀ t, w.granted t = true) {events : Nat → List ForwardEvent}
    (finite : ∀ t, last ≤ t → events t = []) : Interrupts last (script w events) where
  returns t s stocked := by
    unfold script
    induction events t generalizing s with
    | nil => exact returns_pure (.refl [] s)
    | cons event rest ih =>
        refine returns_bind (stretch_happens granted stocked event) fun l _ s' stretch => ?_
        refine returns_mono (ih s' (stretch.grows.stocked stocked)) fun l' _ s'' stretch' => ?_
        exact stretch.append stocked stretch'
  finite t s _ late := by
    rw [script, finite t late]
    rfl

end Script

/-- A pair in use. -/
def openPair (p : PairId) (source : ChannelId) (closed : Bool) : FwPair :=
  { context := some .proxyProcess
    closed := closed
    source := { addr := none, port := 0, channel := some source }
    destiny := fwEndpointInit
    userdata := p }

/-- A pool of three pairs, the second of which is closed. -/
def threeForwards : Proxy :=
  { Proxy.initial with
    context := { Proxy.initial.context with forwardPool := some 0 }
    pools := Heap.empty.alloc ⟨3, 3, some [some (some 0), some (some 1), some (some 2)]⟩
    pairs := ((Heap.empty.alloc (openPair 0 10 false)).alloc (openPair 1 11 true)).alloc
      (openPair 2 12 false) }

/-- While the first pair is polled, which finds the end of the stream, another forward is
accepted, and the full pool grows; while the first one is released, the third one is closed. -/
def threeEvents : Nat → List ForwardEvent
  | 0 => [.opened ⟨.root, 1025, .root, 80⟩ (some 13) none]
  | 9 => [.closed 2]
  | _ => []

def threeAnswers : World := .scripted .echo [(0, sshEof), (8, 1)] []

private theorem stocked_threeForwards : threeForwards.Stocked where
  pool id pointer := by
    cases pointer
    exact ⟨_, [some 0, some 1, some 2], rfl, rfl, by decide, rfl, rfl⟩
  distinct := by decide
  allocated := by decide

/-- The conditions can be met. All three pairs are released, though only one of them was
closed at first, and the one that was put in meanwhile is all that is left. -/
theorem handleForwards_threeForwards :
    (∃ n, ∀ fuel ≥ n,
      Returns (handleForwards threeAnswers (script threeAnswers threeEvents) fuel) threeForwards
        fun log _ s' => Handled threeForwards log s') ∧
    (handleForwards threeAnswers (script threeAnswers threeEvents) 4 threeForwards).state.items =
      [3] ∧
    releases (handleForwards threeAnswers (script threeAnswers threeEvents) 4 threeForwards).log =
      [0, 1, 2] := by
  refine ⟨handleForwards_reaps threeAnswers 10 _ (interrupts_script (fun _ => rfl) ?_)
    threeForwards stocked_threeForwards, by decide +kernel, by decide +kernel⟩
  intro t late
  match t, late with
  | t + 10, _ => rfl

end HaasProxy
