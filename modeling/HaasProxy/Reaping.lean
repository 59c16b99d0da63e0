import HaasProxy.Backend
import HaasProxy.Waiting
import HaasProxy.Ownership.Run

/-!
# Closed forwards leave the pool

A pair comes into `ForwardPool` when it is new, and it leaves the pool when it is
closed; in between it stays closed once it is.  `Pooled` says what makes this so:
the pool is in order, no pair is in it twice, and none that was released.

The second loop of `ProxyProcess` reaps what is closed in each iteration, the
first one does not.  So closed forwards do not accumulate as long as there are
none whenever the first loop goes on: `reaped_of_reaps`.

## Main definitions and results

* `Reaped` — where a loop waits, nothing in the pool was closed at the wait before;
* `Entry.Reaps` — what is asked where the first loop goes on;
* `Pooled` — the invariant of the pool, and `pooled_advance`, the step;
* `Lasting` — what was closed stays closed while it is in the pool;
* `tended_advance` — the step;
* `reaped_of_reaps` — the result.

## Design notes

**Why the invariant has a source in it.**  A pair that is released because the pool refused
it is blank.  It must not be one of those in the pool, and what tells them apart is that
those have a source.

**From one wait to the next.**  `HandleForwards` leaves no closed pair, but the second loop
waits only after both flushes, and callbacks come in between.  What was closed at the wait
before was taken out, or it was not in the pool; what is closed since then is not asked
for.  So the invariant speaks of the pairs that were closed at an earlier entry, and follows
these.

**Order does not matter.**  `FwPoolRemove` moves the last item.  What is said of the pool is
said of its members.
-/

namespace HaasProxy

/-! ## What is to be reaped -/

/-- A wait has returned. -/
def Interaction.woken : Interaction → Bool
  | returned (.eventDopoll _) => true
  | _ => false

/-- Where the last wait has returned. -/
def lastWoken (h : List Entry) : Option Entry := (h.filter fun e => e.action.woken).getLast?

/-- **Closed forwards do not accumulate**: where a loop waits, no pair in the pool was closed
when the wait before returned. -/
def Reaped (log : List Entry) : Prop :=
  Throughout (fun h e => e.action.waits = true → ∀ r ∈ lastWoken h, ∀ p ∈ e.before.items,
    r.before.isClosed (some p) = false) log

instance (log : List Entry) : Decidable (Reaped log) :=
  inferInstanceAs (Decidable (Throughout _ _))

/-- Where a wait of the first loop has returned and the loop will wait again, no pair in the
pool is closed. -/
def Entry.Reaps (w : World) (e : Entry) : Prop :=
  e.action.woken = true → e.before.stage = .login → e.answer ≠ sshError →
    (e.answer = sshEintr ∨ e.before.context.closed = false ∧
      ¬ (e.before.context.trapChannel ≠ none ∧ e.before.context.authenticated = true)) →
    ¬ LoginStops w e.before → ∀ p ∈ e.before.items, e.before.isClosed (some p) = false

instance (w : World) (e : Entry) : Decidable (e.Reaps w) := inferInstanceAs (Decidable (_ → _))

/-! ## The pool

One lemma for each of the four kinds of steps that touch it. -/

/-- The pair has the same source, and it is closed if it was. -/
def Persists (s s' : Proxy) (p : PairId) : Prop :=
  ∀ pair, s.pairs.cell p = some pair → ∃ pair', s'.pairs.cell p = some pair' ∧
    pair'.source.channel = pair.source.channel ∧ (pair.closed = true → pair'.closed = true)

/-- **The invariant of the pool** before the teardown. -/
structure Pooled (h : List Entry) (s : Proxy) : Prop where
  /-- The pool is in order. -/
  holds : ∀ id pool, s.context.forwardPool = some id → s.pools.cell id = some pool →
    ∃ xs, pool.Holds xs
  /-- No pair is in it twice. -/
  distinct : s.items.Nodup
  /-- Every pair in it has a source. -/
  filled : ∀ p ∈ s.items, ∃ pair, s.pairs.cell p = some pair ∧ pair.source.channel ≠ none
  /-- None in it was released. -/
  kept : ∀ p ∈ s.items, ¬ Released h p
  /-- What was released had been obtained. -/
  past : ∀ p, Released h p → p < s.pairs.next

/-- What a step does to the pool: the pairs in it were there before, or one is new. -/
structure Repools (h : List Entry) (s : Proxy) (l : List Entry) (s' : Proxy) : Prop where
  pooled : Pooled (h ++ l) s'
  next : s.pairs.next ≤ s'.pairs.next
  /-- A pair in it was there before and keeps its mark, or it is the new one. -/
  items : ∀ p ∈ s'.items, p ∈ s.items ∧ Persists s s' p ∨ p = s.pairs.next
  /-- A pair leaves only if it is closed. -/
  kept : ∀ p ∈ s.items, p ∈ s'.items ∨ s.isClosed (some p) = true

section Steps

variable {w : World} {serial : Prop} {h l : List Entry} {s s' : Proxy} {p : PairId}

theorem persists_of_pairs (same : s'.pairs = s.pairs) : Persists s s' p := by
  intro pair cell
  exact ⟨pair, same ▸ cell, rfl, fun closed => closed⟩

theorem persists_of_cell (same : s'.pairs.cell p = s.pairs.cell p) : Persists s s' p := by
  intro pair cell
  exact ⟨pair, same.trans cell, rfl, fun closed => closed⟩

/-- A pair is overwritten. -/
theorem persists_store {q : PairId} {old new : FwPair} (was : s.pairs.cell q = some old)
    (pairs : s'.pairs = s.pairs.store q new) (source : new.source.channel = old.source.channel)
    (keeps : old.closed = true → new.closed = true) : Persists s s' p := by
  by_cases same : p = q
  · intro pair cell
    subst same
    cases was.symm.trans cell
    exact ⟨new, by rw [pairs, s.pairs.cell_store_self was], source, keeps⟩
  · exact persists_of_cell (by rw [pairs, s.pairs.cell_store_of_ne same])

/-- A pair that was closed stays closed as long as it is there. -/
private theorem isClosed_of_persists (persists : Persists s s' p)
    (closed : s.isClosed (some p) = true) :
    s'.isClosed (some p) = true := by
  rw [Proxy.isClosed, Option.bind_some] at closed ⊢
  cases cell : s.pairs.cell p with
  | none =>
      rw [cell] at closed
      cases closed
  | some pair =>
      obtain ⟨pair', cell', -, keeps⟩ := persists pair cell
      rw [cell] at closed
      rw [cell']
      exact keeps closed

theorem lt_next_of_isClosed (closed : s.isClosed (some p) = true) : p < s.pairs.next := by
  rw [Proxy.isClosed, Option.bind_some] at closed
  cases cell : s.pairs.cell p with
  | none =>
      rw [cell] at closed
      cases closed
  | some pair => exact s.pairs.lt_next_of_cell cell

theorem items_of_same (pools : s'.pools = s.pools)
    (pointer : s'.context.forwardPool = s.context.forwardPool) : s'.items = s.items := by
  rw [Proxy.items, Proxy.items, pools, pointer]

namespace Pooled

variable (pooled : Pooled h s)

include pooled

/-- A pair in the pool was allocated, so a new one is not in it. -/
theorem lt_next (mem : p ∈ s.items) : p < s.pairs.next := by
  obtain ⟨pair, cell, -⟩ := pooled.filled p mem
  exact s.pairs.lt_next_of_cell cell

/-- What is to be shown of a step. -/
theorem step (holds : ∀ id pool, s'.context.forwardPool = some id →
      s'.pools.cell id = some pool → ∃ xs, pool.Holds xs)
    (distinct : s'.items.Nodup)
    (items : ∀ p ∈ s'.items, p ∈ s.items ∧ Persists s s' p ∨ p = s.pairs.next ∧
      ∃ pair, s'.pairs.cell p = some pair ∧ pair.source.channel ≠ none)
    (kept : ∀ p ∈ s.items, p ∈ s'.items ∨ s.isClosed (some p) = true)
    (next : s.pairs.next ≤ s'.pairs.next)
    (released : ∀ e ∈ l, ∀ p, e.action = .release p → e.before.pairs.cell p ≠ none →
      p < s'.pairs.next ∧ p ∉ s'.items) :
    Repools h s l s' := by
  refine ⟨⟨holds, distinct, ?_, ?_, ?_⟩, next, ?_, kept⟩
  · intro p mem
    rcases items p mem with ⟨before, persists⟩ | ⟨-, filled⟩
    · obtain ⟨pair, cell, source⟩ := pooled.filled p before
      obtain ⟨pair', cell', same, -⟩ := persists pair cell
      exact ⟨pair', cell', same.symm ▸ source⟩
    · exact filled
  · intro p mem gone
    rcases released_of_append gone with before | ⟨e, memE, action, there⟩
    · rcases items p mem with ⟨inPool, -⟩ | ⟨rfl, -⟩
      · exact pooled.kept p inPool before
      · exact Nat.lt_irrefl _ (pooled.past _ before)
    · exact (released e memE p action there).2 mem
  · intro p gone
    rcases released_of_append gone with before | ⟨e, memE, action, there⟩
    · exact Nat.lt_of_lt_of_le (pooled.past p before) next
    · exact (released e memE p action there).1
  · intro p mem
    exact (items p mem).imp_right And.left

/-- The pool is the same. -/
theorem same (pools : s'.pools = s.pools)
    (pointer : s'.context.forwardPool = s.context.forwardPool)
    (persists : ∀ p ∈ s.items, Persists s s' p) (next : s.pairs.next ≤ s'.pairs.next)
    (released : ∀ e ∈ l, ∀ p, e.action = .release p → e.before.pairs.cell p ≠ none →
      p < s'.pairs.next ∧ p ∉ s'.items) :
    Repools h s l s' := by
  have items := items_of_same pools pointer
  refine pooled.step ?_ ?_ ?_ (fun p mem => .inl (items ▸ mem)) next released
  · intro id pool set cell
    exact pooled.holds id pool (pointer ▸ set) (pools ▸ cell)
  · rw [items]
    exact pooled.distinct
  · intro p mem
    rw [items] at mem
    exact .inl ⟨mem, persists p mem⟩

/-- Neither the pool nor a pair changes. -/
theorem untouched (pools : s'.pools = s.pools)
    (pointer : s'.context.forwardPool = s.context.forwardPool) (pairs : s'.pairs = s.pairs)
    (quiet : ∀ e ∈ l, ∀ p, e.action ≠ .release p) :
    Repools h s l s' := by
  refine pooled.same pools pointer (fun p _ => persists_of_pairs pairs) (pairs ▸ Nat.le_refl _) ?_
  intro e mem p action
  exact absurd action (quiet e mem p)

/-- Another pool changes. -/
theorem elsewhere (pointer : s'.context.forwardPool = s.context.forwardPool)
    (pairs : s'.pairs = s.pairs)
    (other : ∀ id, s.context.forwardPool = some id → s'.pools.cell id = s.pools.cell id) :
    Repools h s [] s' := by
  have items : s'.items = s.items := by
    unfold Proxy.items
    rw [pointer]
    cases set : s.context.forwardPool with
    | none => rfl
    | some id => rw [Option.bind_some, Option.bind_some, other id set]
  refine pooled.step ?_ (items ▸ pooled.distinct) ?_ (fun p mem => .inl (items ▸ mem))
    (pairs ▸ Nat.le_refl _) (by simp)
  · intro id contents pointer' cell'
    rw [pointer] at pointer'
    exact pooled.holds id contents pointer' ((other id pointer').symm.trans cell')
  · intro p mem
    exact .inl ⟨items ▸ mem, persists_of_pairs pairs⟩

/-- The pool is empty and stays so. -/
theorem emptied (pairs : s'.pairs = s.pairs) (nothing : s.items = [])
    (empty : ∀ id pool, s'.context.forwardPool = some id → s'.pools.cell id = some pool →
      pool.Holds []) :
    Repools h s [] s' := by
  have items : s'.items = [] := by
    cases pointer : s'.context.forwardPool with
    | none => rw [Proxy.items, pointer, Option.bind_none, Option.elim_none]
    | some id =>
        cases cell : s'.pools.cell id with
        | none => rw [Proxy.items, pointer, Option.bind_some, cell, Option.elim_none]
        | some pool => exact items_eq pointer cell (empty id pool pointer cell)
  refine pooled.step ?_ ?_ ?_ (by simp [nothing]) (pairs ▸ Nat.le_refl _) (by simp)
  · intro id pool pointer cell
    exact ⟨[], empty id pool pointer cell⟩
  · rw [items]
    exact List.nodup_nil
  · intro p mem
    rw [items] at mem
    cases mem

end Pooled

/-- The item that is taken out, and what is left. -/
theorem items_of_remove {id : PoolId} {pool pool' : FwPool (Option PairId)} {index removed : Int}
    {xs : List (Option PairId)} (pointer : s.context.forwardPool = some id)
    (cell : s.pools.cell id = some pool) (holds : pool.Holds xs)
    (item : fwPoolGet (some pool) index = .ok (some (some p)))
    (eq : fwPoolRemove index (some pool) = .ok (removed, some pool')) :
    ∃ ys, pool'.Holds ys ∧ s.items.Perm (p :: ys.reduceOption) := by
  have valid : 0 ≤ index ∧ index < xs.length := by
    by_contra invalid
    rw [fwPoolGet_invalid holds (by omega)] at item
    cases item
  obtain ⟨k, rfl⟩ := Int.eq_ofNat_of_zero_le valid.1
  have hk : k < xs.length := by omega
  rw [fwPoolGet_eq holds, List.getElem?_eq_getElem hk] at item
  have here : xs[k] = some p := Option.some.inj (Except.ok.inj item)
  obtain ⟨pool'', eq', held⟩ := fwPoolRemove_eq holds hk
  cases eq.symm.trans eq'
  refine ⟨_, held, ?_⟩
  have moved := (swapRemove_perm hk).filterMap fun item => item
  rw [here] at moved
  rw [items_eq pointer cell holds]
  exact moved

/-- What a pool holds after something was added. -/
theorem holds_of_add {pool pool' : FwPool (Option PairId)} {granted : Bool}
    {item : Option PairId} {index : Int} {xs : List (Option PairId)} (holds : pool.Holds xs)
    (added : fwPoolAdd granted item (some pool) = .ok (index, some pool')) :
    pool'.Holds (xs ++ [item]) ∧ index ≠ -1 := by
  by_cases refused : pool.Refused granted
  · cases added.symm.trans (fwPoolAdd_refused holds refused item)
  · obtain ⟨pool'', eq, held⟩ := fwPoolAdd_eq holds refused item
    cases added.symm.trans eq
    refine ⟨held, ?_⟩
    omega

namespace Pooled

variable (pooled : Pooled h s)

include pooled

/-- **`FwPoolAdd` stores nothing**: the item is `NULL`, or it is refused.

An entry that is `NULL` is no pair, so the pairs in the pool are the same. -/
theorem add {id : PoolId} {pool pool' : FwPool (Option PairId)} {granted : Bool}
    {item : Option PairId} {index : Int} (cell : s.pools.cell id = some pool)
    (added : fwPoolAdd granted item (some pool) = .ok (index, some pool'))
    (refused : item ≠ none → index = -1) :
    Repools h s [] { s with pools := s.pools.store id pool' } := by
  by_cases pointer : s.context.forwardPool = some id
  · obtain ⟨xs, holds⟩ := pooled.holds id pool pointer cell
    obtain ⟨holds', stored⟩ := holds_of_add holds added
    have isNull : item = none := by
      by_contra some
      exact stored (refused some)
    have cell' := s.pools.cell_store_self (a := pool') cell
    have items : ({ s with pools := s.pools.store id pool' } : Proxy).items = s.items := by
      rw [items_eq pointer cell holds, items_eq (by exact pointer) cell' holds', isNull,
        List.reduceOption_append]
      exact List.append_nil _
    refine pooled.step ?_ (items ▸ pooled.distinct) ?_ (fun p mem => .inl (items ▸ mem))
      (Nat.le_refl _) (by simp)
    · intro id' contents pointer' cell''
      cases pointer.symm.trans pointer'
      cases cell'.symm.trans cell''
      exact ⟨_, holds'⟩
    · intro p mem
      exact .inl ⟨items ▸ mem, persists_of_pairs rfl⟩
  · refine pooled.elsewhere rfl rfl fun id' pointer' => ?_
    exact s.pools.cell_store_of_ne fun same => pointer (same ▸ pointer')

/-- **A new pair is put into the pool** with its source.

It was not there before, because the pairs of the pool have been allocated; so no pair
is in the pool twice. -/
theorem register {src : ChannelId} {id : PoolId} {pool pool' : FwPool (Option PairId)}
    {granted : Bool} {index : Int} (pointer : s.context.forwardPool = some id)
    (cell : s.pools.cell id = some pool)
    (added : fwPoolAdd granted (some s.pairs.next) (some pool) = .ok (index, some pool'))
    {pair : FwPair} (source : pair.source.channel = some src) {channels : Heap Channel} {t : Nat}
    {locals : List ChannelId} (quiet : ∀ e ∈ l, ∀ p, e.action ≠ .release p) :
    Repools h s l (s.filling channels (s.pools.store id pool') pair t locals) := by
  obtain ⟨xs, holds⟩ := pooled.holds id pool pointer cell
  have holds' := (holds_of_add holds added).1
  have cell' := s.pools.cell_store_self (a := pool') cell
  have items : (s.filling channels (s.pools.store id pool') pair t locals).items =
      s.items ++ [s.pairs.next] := by
    rw [items_eq pointer cell holds, items_eq (by exact pointer) cell' holds',
      List.reduceOption_append]
    rfl
  refine pooled.step ?_ ?_ ?_ (fun p mem => ?_) (Nat.le_succ _) ?_
  · intro id' contents pointer' cell''
    cases pointer.symm.trans pointer'
    cases cell'.symm.trans cell''
    exact ⟨_, holds'⟩
  · rw [items, List.nodup_append]
    refine ⟨pooled.distinct, List.pairwise_singleton _ _, ?_⟩
    intro p mem q memQ
    rw [List.mem_singleton.mp memQ]
    exact (pooled.lt_next mem).ne
  · intro p mem
    rw [items, List.mem_append, List.mem_singleton] at mem
    rcases mem with mem | rfl
    · exact .inl ⟨mem, persists_of_cell (s.pairs.cell_alloc_of_ne (pooled.lt_next mem).ne)⟩
    · refine .inr ⟨rfl, pair, s.pairs.cell_alloc_self, ?_⟩
      rw [source]
      exact Option.some_ne_none src
  · rw [items]
    exact .inl (List.mem_append_left _ mem)
  · intro e mem p action
    exact absurd action (quiet e mem p)

/-- **A blank pair is released**, for which there was no room.

A pair in the pool has a source, so this one is none of them. -/
theorem release {q : PairId} (was : s.pairs.cell q = some (blankPair q)) (cleared : FwPair) :
    Repools h s [⟨s, .release q, 0⟩] { s with pairs := s.pairs.store q cleared } := by
  have outside : q ∉ s.items := by
    intro mem
    obtain ⟨pair', cell, source⟩ := pooled.filled q mem
    cases was.symm.trans cell
    exact source rfl
  refine pooled.same rfl rfl (fun p mem => persists_of_cell ?_) (Nat.le_refl _) ?_
  · exact s.pairs.cell_store_of_ne fun same => outside (same ▸ mem)
  · simp only [List.forall_mem_singleton, Interaction.release.injEq]
    rintro _ rfl -
    exact ⟨s.pairs.lt_next_of_cell was, outside⟩

/-- **A closed pair is reaped**: it leaves the pool, and all others stay in it.

`FwPoolRemove` moves the last item into the place of the one it takes out, so what is left
is in another order.  The pair is not in the pool any more when it is released. -/
theorem reap {id : PoolId} {pool pool' : FwPool (Option PairId)} {index removed : Int}
    {q : PairId} {pair cleared : FwPair} {releasing : List PairId}
    (pointer : s.context.forwardPool = some id) (cell : s.pools.cell id = some pool)
    (item : fwPoolGet (some pool) index = .ok (some (some q)))
    (eq : fwPoolRemove index (some pool) = .ok (removed, some pool'))
    (loaded : s.pairs.cell q = some pair) (closed : pair.closed = true) :
    Repools h s
      [⟨{ s with pools := s.pools.store id pool', releasing := releasing }, .release q, 0⟩]
      { s with
        pools := s.pools.store id pool'
        releasing := releasing
        pairs := s.pairs.store q cleared } := by
  obtain ⟨xs, holds⟩ := pooled.holds id pool pointer cell
  obtain ⟨ys, holds', perm⟩ := items_of_remove pointer cell holds item eq
  have cell' := s.pools.cell_store_self (a := pool') cell
  have items : ({ s with
      pools := s.pools.store id pool'
      releasing := releasing
      pairs := s.pairs.store q cleared } : Proxy).items = ys.reduceOption :=
    items_eq (by exact pointer) cell' holds'
  have distinct := List.nodup_cons.mp (perm.nodup_iff.mp pooled.distinct)
  refine pooled.step ?_ (items ▸ distinct.2) ?_ (fun p mem => ?_) (Nat.le_refl _) ?_
  · intro id' contents pointer' cell''
    cases pointer.symm.trans pointer'
    cases cell'.symm.trans cell''
    exact ⟨_, holds'⟩
  · intro p mem
    rw [items] at mem
    refine .inl ⟨perm.mem_iff.mpr (.tail _ mem), persists_of_cell ?_⟩
    exact s.pairs.cell_store_of_ne fun same => distinct.1 (same ▸ mem)
  · rcases List.mem_cons.mp (perm.mem_iff.mp mem) with rfl | left
    · refine .inr ?_
      rw [Proxy.isClosed, Option.bind_some, loaded]
      exact closed
    · exact .inl (items ▸ left)
  · simp only [List.forall_mem_singleton, Interaction.release.injEq]
    rintro _ rfl -
    exact ⟨s.pairs.lt_next_of_cell loaded, items ▸ distinct.1⟩

end Pooled

/-- **A step of the pool.** -/
theorem pooled_of_change (pooled : Pooled h s) (change : Change w serial h s l s')
    (serving : s.stage ≠ .teardown) :
    Repools h s l s' := by
  -- a pair in the pool is not one that is being taken apart
  have apart {q : PairId} (released : Released h q) : ∀ p ∈ s.items, p ≠ q := by
    rintro p mem rfl
    exact pooled.kept p mem released
  cases change with
  | newPair =>
      refine pooled.same rfl rfl (fun p mem => persists_of_cell ?_) (Nat.le_succ _) (by simp)
      exact s.pairs.cell_alloc_of_ne (pooled.lt_next mem).ne
  | add _ _ cell added null refused => exact pooled.add cell added refused
  | register _ _ offered pointer cell added stored pair filled _ mid =>
      refine pooled.register pointer cell added filled.2.2.1 fun e mem p action => ?_
      obtain ⟨-, ⟨allocation, other⟩ | ⟨ch, other⟩⟩ := mid e mem <;>
        cases action.symm.trans other
  | mark _ _ was why =>
      refine pooled.same rfl rfl (fun p mem => persists_store was rfl rfl fun _ => rfl)
        (Nat.le_refl _) (by simp)
  | release _ _ was why =>
      obtain rfl := why.resolve_right serving
      exact pooled.release was _
  | releaseFreed _ _ _ why => exact absurd why serving
  | reap _ _ pointer cell item eq loaded closed out =>
      rw [out]
      exact pooled.reap pointer cell item eq loaded closed
  | endpoint _ _ end_ endpoint released cell keeps =>
      refine pooled.same rfl rfl (fun p mem => persists_of_cell ?_) (Nat.le_refl _) (by simp)
      exact s.pairs.cell_store_of_ne (apart released p mem)
  | freePair _ _ released =>
      refine pooled.same rfl rfl (fun p mem => persists_of_cell ?_) (Nat.le_refl _) (by simp)
      exact s.pairs.cell_free_of_ne (apart released p mem)
  | clear _ _ _ _ torndown | freePool _ _ _ torndown => exact absurd torndown serving
  | once _ _ r =>
      refine pooled.untouched (by split <;> rfl) ?_ (by split <;> rfl) (by simp)
      split
      · cases r <;> rfl
      · rfl
  | grant _ _ nested r => exact pooled.untouched rfl (by cases r <;> rfl) rfl (by simp)
  | adopt _ _ trapChannel haasChannel i j obtained first second =>
      rw [first] at second
      rw [second]
      refine pooled.untouched ?_ ?_ ?_ (by simp) <;> simp [Proxy.tock]
  | discard _ _ isStderr bytes cell callbacks outlet answer waited =>
      rcases waited with rfl | ⟨b, rfl⟩ <;>
        refine pooled.untouched ?_ ?_ ?_ (by simp) <;> simp [Proxy.tock, Proxy.idled]
  | _ =>
      refine pooled.untouched ?_ ?_ ?_ (by simp [relayLog, byeLog]) <;>
        simp [Proxy.relayed, Proxy.idled, Proxy.tock]

/-- **The step.** The pool stays in order, and what it loses was closed: by cases of the
step, of which only four touch the pool. -/
theorem pooled_advance (pooled : Pooled h s) (advance : Advance w serial h s l s')
    (serving : s'.stage ≠ .teardown) :
    Repools h s l s' := by
  have before := serving_of_advance advance serving
  cases advance with
  | change change => exact pooled_of_change pooled change before
  | event | wait | woken => exact pooled.untouched rfl rfl rfl (by simp)
  | bye => exact pooled.untouched rfl rfl rfl (by simp [byeLog])
  | teardown => exact absurd rfl serving
  | @newPool _ _ granted pool init =>
      by_cases pointer : s.context.forwardPool = some s.pools.next
      · have nothing : s.items = [] := by
          rw [Proxy.items, pointer, Option.bind_some, s.pools.fresh _ (Nat.le_refl _)]
          rfl
        refine pooled.emptied rfl nothing ?_
        intro id contents pointer' cell
        cases pointer.symm.trans pointer'
        cases (s.pools.cell_alloc_self).symm.trans cell
        exact FwPool.holds_of_init init
      · refine pooled.elsewhere rfl rfl fun id pointer' => ?_
        exact s.pools.cell_alloc_of_ne fun same => pointer (same ▸ pointer')
  | usePool _ _ pointer unset empty =>
      have nothing : s.items = [] := by
        rw [Proxy.items, unset]
        rfl
      refine pooled.emptied rfl nothing ?_
      intro id contents pointer' cell
      obtain ⟨pool, cell', holds⟩ := empty id pointer'
      cases cell.symm.trans cell'
      exact holds
  | _ => exact pooled.untouched rfl rfl rfl (by simp)

/-! ## What is closed stays closed

The mark of a pair is taken off only when it is released, and while the loops run it has
left the pool by then. -/

/-- The waits for what was sent to a session to go out. -/
def Interaction.flushes : Interaction → Bool
  | call (.blockingFlush _) => true
  | _ => false

/-- What was closed at an entry is still closed if it is in the pool, and it was in the pool
and closed wherever a session was flushed since. -/
def Lasting (h : List Entry) (s : Proxy) : Prop :=
  ∀ h₁ r h₂, h = h₁ ++ r :: h₂ → ∀ p, r.before.isClosed (some p) = true → p < s.pairs.next ∧
    (p ∈ s.items → s.isClosed (some p) = true ∧ ∀ g ∈ h₂, g.action.flushes = true →
      p ∈ g.before.items ∧ g.before.isClosed (some p) = true)

/-- Whether a pair is closed is read from the pairs. -/
theorem isClosed_of_pairs (same : s'.pairs = s.pairs) (item : Option PairId) :
    s'.isClosed item = s.isClosed item := by
  rw [Proxy.isClosed, Proxy.isClosed, same]

/-- What is closed in the middle of a step was closed before it. -/
theorem isClosed_of_entry (advance : Advance w serial h s l s') {e : Entry} (mem : e ∈ l)
    (closed : e.before.isClosed (some p) = true) : s.isClosed (some p) = true := by
  rcases pairs_of_entry advance e mem with same | ⟨src, dst, pools, offered, registering⟩
  · rwa [isClosed_of_pairs same] at closed
  · by_cases same : p = s.pairs.next
    · subst same
      rw [Proxy.isClosed, Option.bind_some] at closed
      cases cell : e.before.pairs.cell s.pairs.next with
      | none =>
          rw [cell] at closed
          cases closed
      | some pair =>
          rw [cell, Option.elim_some, (registering.pair pair cell).1] at closed
          cases closed
    · rwa [Proxy.isClosed, Option.bind_some, registering.others p same] at closed

/-- A session is flushed in a step of its own. -/
theorem before_of_flushes (advance : Advance w serial h s l s') :
    ∀ e ∈ l, e.action.flushes = true → e.before = s.tock := by
  cases advance with
  | change change =>
      cases change with
      | register _ _ offered pointer cell added stored pair filled _ mid =>
          intro e mem
          obtain ⟨-, ⟨allocation, action⟩ | ⟨ch, action⟩⟩ := mid e mem <;>
            simp [action, Interaction.flushes]
      | _ => simp [relayLog, byeLog, Interaction.flushes]
  | _ => simp [byeLog, Interaction.flushes]

/-- A pair that was in the pool and closed when a wait returned is still so, or was
released. -/
private theorem lasting_advance (pooled : Pooled h s) (lasting : Lasting h s)
    (advance : Advance w serial h s l s') (serving : s'.stage ≠ .teardown) :
    Lasting (h ++ l) s' := by
  obtain ⟨-, next, items, -⟩ := pooled_advance pooled advance serving
  have still (p : PairId) (closed : s.isClosed (some p) = true) (mem : p ∈ s'.items) :
      p ∈ s.items ∧ s'.isClosed (some p) = true := by
    rcases items p mem with ⟨before, persists⟩ | rfl
    · exact ⟨before, isClosed_of_persists persists closed⟩
    · exact absurd (lt_next_of_isClosed closed) (Nat.lt_irrefl _)
  have flushed (p : PairId) (closed : s.isClosed (some p) = true) (mem : p ∈ s'.items) (g : Entry)
      (memG : g ∈ l) (flushes : g.action.flushes = true) :
      p ∈ g.before.items ∧ g.before.isClosed (some p) = true := by
    rw [before_of_flushes advance g memG flushes]
    exact ⟨(still p closed mem).1, closed⟩
  -- the pair was closed in the step
  have new (m : List Entry) (r : Entry) (h₂ : List Entry) (eq : l = m ++ r :: h₂) (p : PairId)
      (closed : r.before.isClosed (some p) = true) : p < s'.pairs.next ∧ (p ∈ s'.items →
        s'.isClosed (some p) = true ∧ ∀ g ∈ h₂, g.action.flushes = true →
          p ∈ g.before.items ∧ g.before.isClosed (some p) = true) := by
    have was : s.isClosed (some p) = true :=
      isClosed_of_entry advance (eq ▸ List.mem_append_right m (.head h₂)) closed
    refine ⟨Nat.lt_of_lt_of_le (lt_next_of_isClosed was) next, fun mem => ?_⟩
    refine ⟨(still p was mem).2, fun g memG flushes => ?_⟩
    exact flushed p was mem g (eq ▸ List.mem_append_right m (.tail r memG)) flushes
  intro h₁ r h₂ split p closed
  rcases List.append_eq_append_iff.mp split with ⟨m, rfl, eq⟩ | ⟨m, rfl, eq⟩
  · exact new m r h₂ eq p closed
  · cases m with
    | nil => exact new [] r h₂ eq.symm p closed
    | cons r' m =>
        obtain ⟨rfl, rfl⟩ := List.cons.inj eq
        obtain ⟨below, kept⟩ := lasting h₁ r m rfl p closed
        refine ⟨Nat.lt_of_lt_of_le below next, fun mem => ?_⟩
        have before : p ∈ s.items := by
          rcases items p mem with ⟨before, -⟩ | rfl
          · exact before
          · exact absurd below (Nat.lt_irrefl _)
        obtain ⟨was, between⟩ := kept before
        refine ⟨(still p was mem).2, fun g memG flushes => ?_⟩
        rcases List.mem_append.mp memG with memG | memG
        · exact between g memG flushes
        · exact flushed p was mem g memG flushes

/-! ## The loops

In front of each wait of the second loop there is a pass over the pool. In the first loop
there is none, which is what the condition makes up for. -/

/-- The last wait that returned stands in the history. -/
private theorem lastWoken_eq_some {r : Entry} (last : lastWoken h = some r) :
    ∃ h₁ h₂, h = h₁ ++ r :: h₂ ∧ r.action.woken = true := by
  have mem := List.mem_of_getLast? last
  obtain ⟨inH, woken⟩ := List.mem_filter.mp mem
  obtain ⟨h₁, h₂, split⟩ := List.append_of_mem inH
  exact ⟨h₁, h₂, split, woken⟩

/-- That a wait has returned is an entry about waiting. -/
theorem aboutWait_of_woken {e : Entry} (woken : e.action.woken = true) : e.AboutWait := by
  unfold Interaction.woken at woken
  split at woken
  · exact ⟨_, .inr ‹_›⟩
  · cases woken

/-- **Where a loop waits**, what was closed when the wait before returned is no longer in the
pool. -/
theorem reaped_of_waits {time : Int} (waits : Waits w h s time) (lasting : Lasting h s)
    (reaps : ∀ e ∈ h, e.Reaps w) :
    ∀ r ∈ lastWoken h, ∀ p ∈ s.items, r.before.isClosed (some p) = false := by
  intro r last p mem
  obtain ⟨h₁, h₂, split, woken⟩ := lastWoken_eq_some last
  by_contra closed
  obtain ⟨here, between⟩ := (lasting h₁ r h₂ split p (eq_true_of_ne_false closed)).2 mem
  cases waits with
  | @login h top s time at_ goesOn usage eq left =>
      cases at_ with
      | @first h k a top session exchanged ok added same fresh eq =>
          refine fresh r ?_ (aboutWait_of_woken woken)
          rw [split]
          exact List.mem_append_right h₁ (.head h₂)
      | @next h r' timeout returned stage noError again =>
          have stops := not_loginStops goesOn usage eq left
          have reaped := reaps r' (List.mem_append_right h (.head _)) (by rw [returned]; rfl) stage
            noError again stops
          rw [eq] at here mem
          exact Bool.false_ne_true ((reaped p mem).symm.trans here)
  | @relay h l top time g f e session at_ goesOn noWait noEvent memG noneClosed flushes asked same
      flushed stage left =>
      obtain ⟨flushed, action⟩ := flushes
      have after : g ∈ h₂ := by
        rcases List.append_eq_append_iff.mp split with ⟨m, rfl, eq⟩ | ⟨m, rfl, eq⟩
        · -- the wait has returned after the flush, but nothing is waited for there
          refine absurd (aboutWait_of_woken woken) (noWait r ?_)
          rw [eq]
          exact List.mem_append_right m (.head h₂)
        · cases m with
          | nil =>
              refine absurd (aboutWait_of_woken woken) (noWait r ?_)
              rw [← List.nil_append (l ++ [f]), ← eq]
              exact .head h₂
          | cons r' m =>
              obtain ⟨rfl, rfl⟩ := List.cons.inj eq
              exact List.mem_append_right m (List.mem_append_left _ memG)
      obtain ⟨inPool, wasClosed⟩ := between g after (by rw [action]; rfl)
      rw [Proxy.isClosed, Option.bind_some] at wasClosed
      cases cell : g.before.pairs.cell p with
      | none =>
          rw [cell] at wasClosed
          cases wasClosed
      | some pair =>
          rw [cell, Option.elim_some, noneClosed p inPool pair cell] at wasClosed
          cases wasClosed

/-- What is kept along a run until the teardown. -/
def Tended (h : List Entry) (s : Proxy) : Prop :=
  s.stage ≠ .teardown → Pooled h s ∧ Lasting h s

/-- **The step.** The relaying loop reaps before it waits again; the other one has
nothing to reap by assumption. -/
private theorem tended_advance (tended : Tended h s) (advance : Advance w serial h s l s') :
    Tended (h ++ l) s' := by
  intro serving
  obtain ⟨pooled, lasting⟩ := tended (serving_of_advance advance serving)
  exact ⟨(pooled_advance pooled advance serving).pooled,
    lasting_advance pooled lasting advance serving⟩

theorem tended_initial : Tended [] Proxy.initial := by
  intro _
  refine ⟨⟨nofun, List.nodup_nil, nofun, nofun, by simp [Released]⟩, ?_⟩
  intro h₁ r h₂ split
  cases h₁ <;> cases split

/-- The proxy waits in its two loops only, and both are in front of the teardown. -/
private theorem serving_of_waits {time : Int} (waits : Waits w h s time) : s.stage ≠ .teardown := by
  cases waits with
  | @login h top s time here goesOn usage eq left =>
      cases here with
      | first exchanged ok added same fresh entered =>
          rw [eq, entered]
          nofun
      | next returned stage =>
          rw [eq]
          show _ ≠ _
          rw [stage]
          nofun
  | relay here goesOn noWait noEvent reaped noneClosed flushes asked same flushed stage =>
      show _ ≠ _
      rw [stage]
      nofun

end Steps

/-- **Closed forwards do not accumulate** in runs in which no pair in the pool is closed
whenever the first loop goes on. The second loop, an interrupted wait, and the step from
one loop to the other need no condition: a pass over the pool stands in front of every
wait of the second loop. -/
theorem reaped_of_reaps (w : World) (fuel depth : Nat)
    (reaps : ∀ e ∈ (proxyRun w fuel depth).log, e.Reaps w) : Reaped (proxyRun w fuel depth).log := by
  refine (((path_proxyRun w fuel depth).restrict (A := fun e => e.Reaps w)
    (by simpa using reaps)).inv_entries (I := Tended) (P := fun h e => e.action.waits = true →
      ∀ r ∈ lastWoken h, ∀ p ∈ e.before.items, r.before.isClosed (some p) = false)
    (fun h s l s' tended first => ⟨tended_advance tended first.1, ?_⟩) tended_initial).2
  intro l₁ e l₂ split wait
  obtain ⟨rfl, time, waits, eq⟩ := waits_of_advance first.1 split wait
  rw [List.append_nil, eq]
  have lasting := (tended (serving_of_waits waits)).2
  exact reaped_of_waits (s := s) waits lasting fun e mem => first.2 e (List.mem_append_left l mem)

/-- The client opens a session channel and, while its data is relayed, a forward that it
closes again. -/
def forwardWhileRelayed : World :=
  .scripted .echo [(13, 2)]
    [(6, loginAndChannel), (31, [requestForward, .channel 2 .close])]

/-- The condition is met by a run with a forward that is closed and reaped. -/
theorem reaped_forwardWhileRelayed :
    Reaped (proxyRun forwardWhileRelayed 3 1).log ∧
    (∃ r ∈ (proxyRun forwardWhileRelayed 3 1).log, r.action.woken = true ∧
      0 ∈ r.before.items ∧ r.before.isClosed (some 0) = true) ∧
    ∃ e ∈ (proxyRun forwardWhileRelayed 3 1).log, e.action = .release 0 :=
  ⟨reaped_of_reaps forwardWhileRelayed 3 1 (by decide +kernel), by decide +kernel⟩

/-- The client logs in and opens a forward that it closes again, but no session channel. -/
def forwardOnly : World :=
  .scripted .echo [(13, 2)] [(6, [somePassword, requestForward, .channel 0 .close])]

/-- The first loop goes on waiting with the closed pair in the pool. -/
theorem forwardOnly_notReaped : ¬ Reaped (proxyRun forwardOnly 2 1).log := by
  decide +kernel

end HaasProxy
