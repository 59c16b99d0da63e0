import HaasProxy.Transitions.Calls

/-!
# Forwards as steps

The pool functions as they read and write the pool of a session, `HandleForwards`,
which reaps in one step each pair it finds closed, and `TrapMessageCallback`.
There the outcome decides which steps were taken: a pair that is put into the
pool, filled in and registered appears all at once, and one that is not accepted
by the pool is a new pair that is released.

## Main results

* `follows_handleForwards` — behind it no pair in the pool is closed;
* `run_poolAdd` — `FwPoolAdd` as it runs, by its outcome;
* `follows_forwardRegister_stored` — a pair the pool accepts is registered in one step;
* `follows_forwardConnect` — which channel to the destination there is.

## Design notes

**All at once.**  `TrapMessageCallback` puts a pair into the pool that has no channels yet
and fills it in afterwards.  In between the pool holds a pair that is of no use, and
`FwPoolFindClosed` would read it.  Nothing can, because none of the calls in between handles
packets.  The step says so by being one, and `Registering` describes the states in between
for the entries that are logged there.

**Runs as equations.**  Where a function has few outcomes, the lemma gives the run itself
(`run_poolAdd` and those below it): a log, a state and an answer.  A later proof
rewrites with it and does not look into the function.
-/

namespace HaasProxy

open Traced

/-! ## The pool

What the functions of `fw_pool.c` answer here, where the pool is behind a pointer that may
be NULL. -/

section Pool

variable {w : World} {serial : Prop} {h : List Entry} {s : Proxy} {id : PoolId}
  {pointer : Option PoolId} {pool pool' : FwPool (Option PairId)} {index removed : Int}

/-- The pool a pointer designates, if it is not `NULL`. -/
theorem follows_loadPool :
    Follows (Change w serial) (loadPool pointer) h s fun contents h' s' =>
      h' = h ∧ s' = s ∧ contents = pointer.bind s.pools.cell ∧ (contents = none → pointer = none) := by
  cases pointer with
  | none => exact follows_pure ⟨rfl, rfl, rfl, fun _ => rfl⟩
  | some id =>
      refine follows_get_bind (follows_orFault_bind fun pool loaded => ?_)
      unfold Heap.load at loaded
      split at loaded
      · cases loaded
      · rename_i cell
        cases loaded
        exact follows_pure ⟨rfl, rfl, cell.symm, nofun⟩

theorem run_loadPool (cell : s.pools.cell id = some pool) :
    loadPool (some id) s = ⟨[], s, .ok (some pool)⟩ := by
  have got : (get : ProxyM Proxy) s = ⟨[], s, .ok s⟩ := rfl
  show (get >>= fun s => orFault (s.pools.load id) >>= fun pool => pure (some pool)) s = _
  rw [bind_of_ok got, bind_of_ok (run_orFault (s.pools.load_of_cell cell))]
  rfl

/-- `FwPoolCount` answers by the contents of the pool, and changes nothing. -/
theorem follows_poolCount :
    Follows (Change w serial) (poolCount pointer) h s fun count h' s' =>
      h' = h ∧ s' = s ∧ count = fwPoolCount (pointer.bind s.pools.cell) := by
  refine follows_bind follows_loadPool ?_
  rintro contents _ _ ⟨rfl, rfl, rfl, -⟩
  exact follows_pure ⟨rfl, rfl, rfl⟩

/-- `FwPoolGet` likewise; a slot may hold NULL, which the caller cannot tell from no
slot. -/
theorem follows_poolGet :
    Follows (Change w serial) (poolGet pointer index) h s fun item h' s' =>
      h' = h ∧ s' = s ∧ ∃ found, fwPoolGet (pointer.bind s.pools.cell) index = .ok found ∧
        item = found.join := by
  refine follows_bind follows_loadPool ?_
  rintro contents _ _ ⟨rfl, rfl, rfl, -⟩
  refine follows_orFault_bind fun found got => ?_
  exact follows_pure ⟨rfl, rfl, found, got, rfl⟩

/-- The items are what can be read. -/
private theorem mem_poolItems {p : PairId} :
    p ∈ Proxy.poolItems pool ↔ ∃ k < pool.used, pool.load k = .ok (some p) := by
  unfold Proxy.poolItems
  rw [List.mem_filterMap]
  constructor
  · rintro ⟨item, mem, joined⟩
    obtain ⟨k, lt, slot⟩ := List.getElem_of_mem mem
    rw [List.length_take] at lt
    rw [List.getElem_take] at slot
    have found : item = some (some p) := by
      cases item with
      | none => cases joined
      | some item => exact congrArg some joined
    refine ⟨k, by omega, ?_⟩
    rw [FwPool.load, List.getElem?_eq_getElem (by omega), slot, found]
  · rintro ⟨k, lt, loaded⟩
    refine ⟨some (some p), ?_, rfl⟩
    unfold FwPool.load at loaded
    split at loaded <;> cases loaded
    rename_i slot
    refine List.mem_of_getElem? (i := k) ?_
    rwa [List.getElem?_take_of_lt lt]

/-- The pairs in the pool are those in a slot below `Used`. No order is needed of the
pool for this. -/
theorem mem_items {p : PairId} (pointer : s.context.forwardPool = some id)
    (cell : s.pools.cell id = some pool) :
    p ∈ s.items ↔ ∃ k < pool.used, pool.load k = .ok (some p) := by
  rw [Proxy.items, pointer, Option.bind_some, cell, Option.elim_some, mem_poolItems]

/-- What `FwPoolFindClosed` says about the items. -/
theorem follows_poolFindClosed :
    Follows (Change w serial) (poolFindClosed s.context.forwardPool) h s fun index h' s' =>
      h' = h ∧ s' = s ∧ (index < 0 ∧ s.NoneClosed ∨
        ∃ id pool p pair, s.context.forwardPool = some id ∧ s.pools.cell id = some pool ∧
          fwPoolGet (some pool) index = .ok (some (some p)) ∧ s.pairs.cell p = some pair ∧
          pair.closed = true) := by
  refine follows_bind follows_loadPool ?_
  rintro contents h s ⟨rfl, rfl, rfl, null⟩
  refine follows_get_bind (follows_orFault fun index found => ⟨rfl, rfl, ?_⟩)
  cases pointer : s.context.forwardPool with
  | none =>
      rw [pointer] at found
      cases found
      refine .inl ⟨by decide, ?_⟩
      intro p mem
      rw [Proxy.items, pointer] at mem
      cases mem
  | some id =>
      cases cell : s.pools.cell id with
      | none =>
          rw [pointer, Option.bind_some, cell] at null
          cases null rfl
      | some pool =>
          rw [pointer, Option.bind_some, cell] at found
          -- the whole pool was read, or an item was found
          rcases findClosedFrom_read found with ⟨neg, rest⟩ | ⟨k, item, rfl, lt, loaded, closed⟩
          · refine .inl ⟨neg, ?_⟩
            intro p mem pair hp
            obtain ⟨k, lt, loaded⟩ := (mem_items pointer cell).mp mem
            obtain ⟨item, loaded', answer⟩ := rest k (Nat.zero_le k) (by omega)
            cases loaded.symm.trans loaded'
            rw [Proxy.itemClosed, s.pairs.load_of_cell hp] at answer
            exact Except.ok.inj answer
          · cases item with
            | none => cases closed
            | some p =>
                cases hp : s.pairs.cell p with
                | none =>
                    rw [Proxy.itemClosed, Heap.load, hp] at closed
                    cases closed
                | some pair =>
                    rw [Proxy.itemClosed, s.pairs.load_of_cell hp] at closed
                    refine .inr ⟨id, pool, p, pair, rfl, cell, ?_, hp, Except.ok.inj closed⟩
                    rw [fwPoolGet, if_pos (by omega), Int.toNat_natCast, loaded]
                    rfl

theorem run_poolRemove (cell : s.pools.cell id = some pool)
    (eq : fwPoolRemove index (some pool) = .ok (removed, some pool')) :
    poolRemove (some id) index s =
      ⟨[], { s with pools := s.pools.store id pool' }, .ok removed⟩ := by
  unfold poolRemove
  rw [bind_of_ok (run_loadPool cell), bind_of_ok (run_orFault eq)]
  rfl

/-- Where `FwPoolRemove` reads outside of the array the run stops there. -/
theorem run_poolRemove_error {fault : Fault} (cell : s.pools.cell id = some pool)
    (eq : fwPoolRemove index (some pool) = .error fault) :
    poolRemove (some id) index s = ⟨[], s, .error (.fault fault)⟩ := by
  have stops : (orFault (fwPoolRemove index (some pool)) : ProxyM _) s =
      ⟨[], s, .error (.fault fault)⟩ := by
    rw [eq]
    rfl
  unfold poolRemove
  rw [bind_of_ok (run_loadPool cell), bind_of_error stops]
  rfl

end Pool

/-! ## `HandleForwards`

The first loop polls, the second takes closed pairs out; each turn of either is a few
steps of the machine. -/

section HandleForwards

variable {w : World} {serial : Prop} {dispatch : Nat → ProxyM Unit} {h : List Entry} {s : Proxy}
  (hd : ∀ t, Walks (Change w serial) (dispatch t))

include hd

/-- A poll that finds the end of the stream marks the pair. -/
theorem walks_pollEndpoint {p : PairId} {end_ : End} :
    Walks (Change w serial) (pollEndpoint w dispatch p end_) := by
  intro h s
  refine follows_bind (follows_loadPair (P := fun pair h' s' => h' = h ∧ s' = s ∧
    s.pairs.cell p = some pair) fun pair cell => ⟨rfl, rfl, cell⟩) ?_
  rintro pair h s ⟨rfl, rfl, cell⟩
  refine follows_when (fun _ => ?_) fun _ => trivial
  cases polled : (pair.endpoint end_).channel with
  | none =>
    exact follows_bind (P := fun len _ _ => len = sshError) (follows_pure rfl) fun len h' s' eq =>
      follows_when (fun eof => absurd (eq.symm.trans eof) (by decide)) fun _ => trivial
  | some ch =>
      refine follows_bind (follows_callWith hd (c := .poll ch) trivial trivial fun _ => rfl) ?_
      rintro len _ s' ⟨l, rfl, -⟩
      refine follows_when (fun eof => ?_) fun _ => trivial
      refine follows_modifyPair (fun pair' cell' => .mark _ _ cell' (.inl ?_)) fun _ _ => trivial
      refine ⟨h ++ ⟨s.tock, .call (.poll ch), len⟩ :: l, ⟨s', .returned (.poll ch), len⟩, ch, ?_,
        rfl, eof, rfl, ⟨s.tock, .call (.poll ch), len⟩, ?_, pair, end_, cell, polled⟩
      · simp
      · simp

/-- Polling the pair in a slot is polling each of its channels. -/
theorem walks_pollForward {i : Nat} : Walks (Change w serial) (pollForward w dispatch i) := by
  intro h s
  refine follows_get_bind (follows_bind follows_poolGet fun item h' s' _ => ?_)
  exact walks_whenSome (fun p => walks_bind (walks_pollEndpoint hd) fun _ =>
    walks_pollEndpoint hd) h' s'

/-- The second loop of `HandleForwards` ends when no pair is closed. -/
theorem follows_reapForward :
    Follows (Change w serial) (reapForward w dispatch) h s fun next _ s' =>
      next = .inr () → s'.NoneClosed := by
  refine follows_get_bind (follows_bind follows_poolFindClosed ?_)
  rintro index h s ⟨rfl, rfl, found⟩
  refine follows_ite (fun neg => ?_) fun notNeg => ?_
  · rcases found with ⟨-, none⟩ | ⟨id, pool, p, pair, -, -, item, -, -⟩
    · exact follows_pure fun _ => none
    · rw [fwPoolGet, if_neg (by omega)] at item
      cases item
  rcases found with ⟨neg, -⟩ | ⟨id, pool, p, pair, pointer, cell, item, loaded, closed⟩
  · exact absurd neg notNeg
  refine follows_bind follows_poolGet ?_
  rintro got h s ⟨rfl, rfl, found, same, rfl⟩
  rw [pointer, Option.bind_some, cell, item] at same
  cases same
  rw [pointer]
  cases eq : fwPoolRemove index (some pool) with
  | error fault =>
      exact follows_of_error (bind_of_error (run_poolRemove_error cell eq)) (.refl _ _)
  | ok out =>
      obtain ⟨removed, contents⟩ := out
      obtain ⟨pool', rfl⟩ := fwPoolRemove_some eq
      refine follows_of_amid (amid_bind (run_poolRemove cell eq) (amid_follows_bind
        (P := fun _ _ _ => True) ?_ fun _ _ _ _ =>
          follows_pure fun no => absurd no Sum.inl_ne_inr))
      -- from here on the pair is out of the pool, and closed
      refine amid_bind (rfl : (modify fun s : Proxy => { s with releasing := p :: s.releasing } :
        ProxyM Unit) _ = _) (amid_follows_bind (P := fun _ _ _ => True) ?_ fun _ _ _ _ =>
          follows_modify (.releasing _ _ _) trivial)
      refine amid_bind (rfl : (tell fun s : Proxy => ⟨s, .release p, 0⟩ : ProxyM Unit) _ = _)
        (amid_bind (run_modifyPair loaded) (amid_step
          (.reap _ _ pointer cell item eq loaded closed rfl) ?_))
      exact follows_mono (follows_takeApart hd (released_append rfl loaded)) fun _ _ _ _ => trivial

/-- **After `HandleForwards` no pair in the pool is closed.** -/
theorem follows_handleForwards {fuel : Nat} :
    Follows (Change w serial) (handleForwards w dispatch fuel) h s fun _ _ s' => s'.NoneClosed := by
  refine follows_get_bind (follows_bind follows_poolCount ?_)
  rintro count h s ⟨rfl, rfl, rfl⟩
  refine follows_when (fun _ => ?_) fun empty => ?_
  · refine follows_bind (walks_each (fun _ => walks_pollForward hd) h s) fun _ h' s' _ => ?_
    refine follows_loop (I := fun _ _ _ => True) (fun _ h s _ => ?_) fuel trivial
    refine follows_mono (follows_reapForward hd) ?_
    rintro (next | out) h' s' post
    · trivial
    · exact post rfl
  · intro p mem
    rw [Proxy.items] at mem
    cases contents : s.context.forwardPool.bind s.pools.cell with
    | none =>
        rw [contents] at mem
        cases mem
    | some pool =>
        rw [contents] at mem empty
        have used : pool.used = 0 := by
          simp only [fwPoolCount] at empty
          omega
        rw [Option.elim_some, Proxy.poolItems, used] at mem
        cases mem

end HandleForwards

/-! ## A new pair

The statements from the allocation of the pair up to its place in the pool make no
callback, so they are one step of the machine. The run of each of them is computed first. -/

section Register

variable {w : World} {serial : Prop} {dispatch : Nat → ProxyM Unit} {h : List Entry} {s : Proxy}
  {pointer : Option PoolId} {item : Option PairId}

/-- **`FwPoolAdd`, as it runs**: it stops, or there is no pool, or the pool is
overwritten after the memory for it was asked for. -/
theorem run_poolAdd (w : World) (pointer : Option PoolId) (item : Option PairId) (s : Proxy) :
    (∃ l s' stop, poolAdd w pointer item s = ⟨l, s', .error stop⟩ ∧
      ∀ serial h, Path (Change w serial) h s l s') ∨
    (pointer = none ∧ poolAdd w pointer item s = ⟨[], s, .ok (-1)⟩) ∨
    ∃ id pool granted index pool' l t, pointer = some id ∧ s.pools.cell id = some pool ∧
      fwPoolAdd granted item (some pool) = .ok (index, some pool') ∧ s.tick ≤ t ∧
      poolAdd w pointer item s =
        ⟨l, { s with tick := t, pools := s.pools.store id pool' }, .ok index⟩ ∧
      (∀ e ∈ l, e.action = .alloc .items ∧ ∃ t, e.before = { s with tick := t }) ∧
      ∀ serial h, Path (Change w serial) h s l { s with tick := t } := by
  cases pointer with
  | none => exact .inr (.inl ⟨rfl, rfl⟩)
  | some id =>
      cases cell : s.pools.cell id with
      | none =>
          have stops : loadPool (some id) s = ⟨[], s, .error (.fault .useAfterFree)⟩ := by
            have failed : (orFault (s.pools.load id) : ProxyM _) s =
                ⟨[], s, .error (.fault .useAfterFree)⟩ := by
              rw [Heap.load, cell]
              rfl
            show (get >>= fun s => orFault (s.pools.load id) >>= fun pool => pure (some pool)) s = _
            rw [bind_of_ok (rfl : (get : ProxyM Proxy) s = ⟨[], s, .ok s⟩), bind_of_error failed]
            rfl
          exact .inl ⟨[], s, _, bind_of_error stops, fun _ h => .refl h s⟩
      | some pool =>
          -- only a full pool asks for memory
          obtain ⟨l, t, granted, later, asked, entries, path⟩ : ∃ l t granted, s.tick ≤ t ∧
              (if (some pool).any (fun pool => pool.IsFull) then allocate w .items else pure true :
                ProxyM Bool) s = ⟨l, { s with tick := t }, .ok granted⟩ ∧
              (∀ e ∈ l, e.action = .alloc .items ∧ ∃ t, e.before = { s with tick := t }) ∧
              ∀ serial h, Path (Change w serial) h s l { s with tick := t } := by
            by_cases full : (some pool).any (fun pool => pool.IsFull)
            · rw [if_pos full]
              refine ⟨_, _, _, Nat.le_succ _, rfl, ?_, fun _ h => .of_step (.alloc h s .items _)⟩
              intro e mem
              rw [List.mem_singleton.mp mem]
              exact ⟨rfl, s.tick + 1, rfl⟩
            · rw [if_neg full]
              exact ⟨[], s.tick, true, Nat.le_refl _, rfl, List.forall_mem_nil _,
                fun _ h => .refl h s⟩
          cases added : fwPoolAdd granted item (some pool) with
          | error fault =>
              have stops : (orFault (fwPoolAdd granted item (some pool)) : ProxyM _)
                  { s with tick := t } = ⟨[], { s with tick := t }, .error (.fault fault)⟩ := by
                rw [added]
                rfl
              refine .inl ⟨l, { s with tick := t }, .fault fault, ?_, path⟩
              unfold poolAdd
              rw [bind_of_ok (run_loadPool cell), bind_of_ok asked, bind_of_error stops]
              simp
          | ok out =>
              obtain ⟨index, contents⟩ := out
              obtain ⟨pool', rfl⟩ := fwPoolAdd_some added
              refine .inr (.inr ⟨id, pool, granted, index, pool', l, t, rfl, cell, added, later, ?_,
                entries, path⟩)
              unfold poolAdd
              rw [bind_of_ok (run_loadPool cell), bind_of_ok asked, bind_of_ok (run_orFault added)]
              simp only [List.nil_append]
              exact congrArg (Run.mk · _ _) (List.append_nil l)

/-! The runs of the functions that fill in a new pair. -/

section Filling

variable {channels : Heap Channel} {pools : Heap (FwPool (Option PairId))} {pair : FwPair} {t : Nat}
  {locals : List ChannelId}

/-- While the new pair is filled in, a write into it changes what it is filled with. -/
theorem run_modifyPair_filling (f : FwPair → FwPair) :
    modifyPair s.pairs.next f (s.filling channels pools pair t locals) =
      ⟨[], s.filling channels pools (f pair) t locals, .ok ()⟩ := by
  have cell : (s.filling channels pools pair t locals).pairs.cell s.pairs.next = some pair :=
    s.pairs.cell_alloc_self
  rw [run_modifyPair cell]
  simp [Proxy.filling]

/-- Setting the callbacks of a channel meanwhile is one entry. -/
theorem run_setCallbacks_filling (ch : ChannelId) (p : PairId) :
    sshSetChannelCallbacks w dispatch (some ch) (.forwardChannelCB p)
      (s.filling channels pools pair t locals) =
    ⟨[⟨s.filling channels pools pair (t + 1) locals,
        .call (.setCallbacks ch (.forwardChannelCB p)), w.answer t⟩],
      s.filling (({ s with channels := channels } : Proxy).registerPair p ch).channels pools pair
        (t + 1) locals, .ok ()⟩ := by
  rw [run_sshSetChannelCallbacks]
  refine congrArg (Run.mk _ · _) ?_
  show (s.filling channels pools pair (t + 1) locals).updateChannel ch _ = _
  simp only [Proxy.registerPair, Proxy.updateChannel, Proxy.filling]
  cases channels.cell ch <;> rfl

theorem run_allocate_filling (allocation : Allocation) :
    allocate w allocation (s.filling channels pools pair t locals) =
      ⟨[⟨s.filling channels pools pair (t + 1) locals, .alloc allocation,
          if w.granted t then 1 else 0⟩],
        s.filling channels pools pair (t + 1) locals, .ok (w.granted t)⟩ := rfl

/-- What the program holds in variables is written down on the side. -/
theorem run_locals_filling (f : List ChannelId → List ChannelId) :
    (modify fun s : Proxy => { s with locals := f s.locals } : ProxyM Unit)
      (s.filling channels pools pair t locals) =
        ⟨[], s.filling channels pools pair t (f locals), .ok ()⟩ := rfl

/-- While a pair is filled in, what is logged is logged in such a state. -/
theorem registering_filling {src : ChannelId} {dst : Option ChannelId}
    {pools' : Heap (FwPool (Option PairId))} (filled : pools = s.pools ∨ pools = pools')
    (open_ : pair.closed = false)
    (source : pair.source.channel = none ∨ pair.source.channel = some src)
    (destiny : pair.destiny.channel = none ∨ pair.destiny.channel = dst)
    (cells : ∀ ch, channels.cell ch = s.channels.cell ch ∨
      channels.cell ch = (s.registerPair s.pairs.next ch).channels.cell ch)
    (items : ∀ q ∈ (s.filling channels pools pair t locals).items, q = s.pairs.next ∨ q ∈ s.items) :
    Registering s s.pairs.next src dst pools' (s.filling channels pools pair t locals) where
  context := rfl
  stage := rfl
  freed := rfl
  sessions := rfl
  others q ne := s.pairs.cell_alloc_of_ne ne
  pair pair' cell := by
    cases s.pairs.cell_alloc_self.symm.trans cell
    exact ⟨open_, source, destiny⟩
  nextPair := Nat.le_succ _
  channels := cells
  filled := filled
  items := items

end Filling

theorem run_fwPairAlloc_denied (denied : w.granted s.tick = false) :
    fwPairAlloc w s = ⟨[⟨s.tock, .alloc .fwPair, 0⟩], s.tock, .ok none⟩ := by
  have asked : allocate w .fwPair s = ⟨[⟨s.tock, .alloc .fwPair, 0⟩], s.tock, .ok false⟩ := by
    rw [run_allocate, denied]
    rfl
  unfold fwPairAlloc
  rw [bind_of_ok asked]
  rfl

/-- With memory it makes a blank pair, which is new. -/
theorem run_fwPairAlloc (granted : w.granted s.tick = true) :
    fwPairAlloc w s = ⟨[⟨s.tock, .alloc .fwPair, 1⟩],
      s.filling s.channels s.pools (blankPair s.pairs.next) (s.tick + 1) s.locals,
      .ok (some s.pairs.next)⟩ := by
  have asked : allocate w .fwPair s = ⟨[⟨s.tock, .alloc .fwPair, 1⟩], s.tock, .ok true⟩ := by
    rw [run_allocate, granted]
    rfl
  unfold fwPairAlloc
  rw [bind_of_ok asked]
  rfl

variable (hd : ∀ t, Walks (Change w serial) (dispatch t)) {originator destination : CString}
  {originatorPort destinationPort : Int} {src : ChannelId} {dst : Option ChannelId}

omit hd in
/-- Without memory for a pair nothing is registered: `NULL` is added. -/
theorem follows_forwardRegister_denied (denied : w.granted s.tick = false) :
    Follows (Change w serial) (forwardRegister w dispatch originator originatorPort destination
      destinationPort (some src) dst) h s fun _ _ _ => True := by
  refine follows_path_bind (run_fwPairAlloc_denied denied) (.of_step (.alloc h s .fwPair false))
    (follows_get_bind ?_)
  have rest (index : Int) (h' : List Entry) (s' : Proxy) : Follows (Change w serial)
      (if index ≠ -1 then stop (.fault .nullPointer) else do
        whenSome none (fwPairRelease w dispatch)
        pure true : ProxyM Bool) h' s' fun _ _ _ => True :=
    follows_ite (fun _ => follows_stop) fun _ => follows_pure trivial
  rcases run_poolAdd w s.tock.context.forwardPool none s.tock with
    ⟨l, s', stop, run, path⟩ | ⟨-, run⟩ |
    ⟨id, pool, granted, index, pool', l, t, pointer, cell, added, -, run, -, path⟩
  · exact follows_of_error (bind_of_error run) (path serial _)
  · exact follows_path_bind run (.refl _ _) (rest _ _ _)
  · refine follows_path_bind run ?_ (rest _ _ _)
    refine (path serial _).quiet (.add _ _ cell added (fun _ => ?_) (absurd rfl))
    exact ⟨_, List.mem_append_left _ (List.mem_append_right _ (.head _)), rfl, rfl, pointer⟩

include hd in
/-- A pair that the pool does not accept is released again. -/
theorem follows_forwardRegister_refused {index : Int} {l : List Entry} {s₁ s₂ : Proxy}
    (granted : w.granted s.tick = true)
    (filling : s₁ = s.filling s.channels s.pools (blankPair s.pairs.next) (s.tick + 1) s.locals)
    (run : poolAdd w s₁.context.forwardPool (some s.pairs.next) s₁ = ⟨l, s₂, .ok index⟩)
    (path : ∀ h, Path (Change w serial) h s₁ l s₂) (refused : index = -1)
    (blank : s₂.pairs.cell s.pairs.next = some (blankPair s.pairs.next)) :
    Follows (Change w serial) (forwardRegister w dispatch originator originatorPort destination
      destinationPort (some src) dst) h s fun _ _ _ => True := by
  have paired : Path (Change w serial) h s [⟨s.tock, .alloc .fwPair, 1⟩] s₁ := by
    rw [filling]
    exact (Path.of_step (.alloc h s .fwPair true)).quiet (.newPair _ s.tock)
  rw [filling] at run path paired
  refine follows_path_bind (run_fwPairAlloc granted) paired (follows_get_bind ?_)
  refine follows_path_bind run (path _) (follows_ite (absurd refused) fun _ => ?_)
  refine follows_bind (follows_fwPairRelease hd (.inl blank)) fun _ _ _ _ => follows_pure trivial

/-- What was already in the pool, and the new pair. -/
private theorem items_filling {id : PoolId} {pool pool' : FwPool (Option PairId)} {granted : Bool}
    {index : Int} (pointer : s.context.forwardPool = some id) (cell : s.pools.cell id = some pool)
    (added : fwPoolAdd granted (some s.pairs.next) (some pool) = .ok (index, some pool'))
    {channels : Heap Channel} {pair : FwPair} {t : Nat} {locals : List ChannelId} :
    ∀ q ∈ (s.filling channels (s.pools.store id pool') pair t locals).items,
      q = s.pairs.next ∨ q ∈ s.items := by
  intro q mem
  have cell' : (s.filling channels (s.pools.store id pool') pair t locals).pools.cell id =
      some pool' := s.pools.cell_store_self cell
  obtain ⟨k, lt, loaded⟩ := (mem_items (s := s.filling _ _ _ _ _) pointer cell').mp mem
  obtain ⟨_, eq, loads⟩ := fwPoolAdd_inv added
  cases eq
  rcases loads k _ lt loaded with ⟨-, new⟩ | ⟨lt, loaded⟩
  · exact .inl (Option.some.inj new)
  · exact .inr ((mem_items pointer cell).mpr ⟨k, lt, loaded⟩)

omit hd in
/-- Nothing is registered yet when memory for the pair is asked for. -/
theorem registering_tock {pools' : Heap (FwPool (Option PairId))} :
    Registering s s.pairs.next src dst pools' s.tock where
  context := rfl
  stage := rfl
  freed := rfl
  sessions := rfl
  others _ _ := rfl
  pair pair cell := by cases (s.pairs.fresh _ (Nat.le_refl _)).symm.trans cell
  nextPair := Nat.le_refl _
  channels _ := .inl rfl
  filled := .inl rfl
  items _ mem := .inr mem

omit hd in
/-- The first channel of the pair has its table, and no other one. -/
private theorem cells_registerPair (p : PairId) (ch : ChannelId) :
    (s.registerPair p src).channels.cell ch = s.channels.cell ch ∨
      (s.registerPair p src).channels.cell ch = (s.registerPair p ch).channels.cell ch := by
  by_cases same : ch = src
  · exact .inr (by rw [same])
  · exact .inl ((cell_updateChannel s src _ ch).trans (if_neg same))

section Stored

variable {id : PoolId} {pool pool' : FwPool (Option PairId)} {granted : Bool} {index : Int}
  {l : List Entry} {t : Nat} (set : s.context.forwardPool = some id)
  (cell : s.pools.cell id = some pool)
  (added : fwPoolAdd granted (some s.pairs.next) (some pool) = .ok (index, some pool'))

omit hd

include set cell added

/-- While a pair is filled in that the pool accepts, what is logged is logged in such a state:
the pool is the old one, or has the pair in it. -/
theorem registering_stored {channels : Heap Channel} {pools : Heap (FwPool (Option PairId))}
    {pair : FwPair} {t : Nat} {locals : List ChannelId} (open_ : pair.closed = false)
    (source : pair.source.channel = none ∨ pair.source.channel = some src)
    (destiny : pair.destiny.channel = none ∨ pair.destiny.channel = dst)
    (cells : ∀ ch, channels.cell ch = s.channels.cell ch ∨
      channels.cell ch = (s.registerPair s.pairs.next ch).channels.cell ch)
    (filled : pools = s.pools ∨ pools = s.pools.store id pool') :
    Registering s s.pairs.next src dst (s.pools.store id pool')
      (s.filling channels pools pair t locals) := by
  refine registering_filling filled open_ source destiny cells ?_
  rcases filled with rfl | rfl
  · exact fun q mem => .inr mem
  · exact items_filling set cell added

/-- What `FwPoolAdd` has logged was logged in front of the pair being filled in. -/
theorem registering_poolAdd (entries : ∀ e ∈ l, e.action = .alloc .items ∧ ∃ t, e.before =
      s.filling s.channels s.pools (blankPair s.pairs.next) t s.locals) (e : Entry) (mem : e ∈ l) :
    Registering s s.pairs.next src dst (s.pools.store id pool') e.before ∧
      ((∃ allocation, e.action = .alloc allocation) ∨
        ∃ ch, e.action = .call (.setCallbacks ch (.forwardChannelCB s.pairs.next))) := by
  obtain ⟨action, t, eq⟩ := entries e mem
  refine ⟨?_, .inl ⟨_, action⟩⟩
  rw [eq]
  exact registering_stored set cell added rfl (.inl rfl) (.inl rfl) (fun _ => .inl rfl)
    (.inl rfl)

/-- **A pair the pool accepts is registered in one step.**

Between its allocation and the registration of its channels nothing can happen: none of the
calls in between handles packets.  So all of it is one step `Change.register`, and what is
logged on the way is logged in states that `Registering` describes. -/
theorem follows_forwardRegister_stored (offered : Offered w serial h s src dst)
    (alloc : w.granted s.tick = true) (stored : index ≠ -1)
    (run : poolAdd w s.context.forwardPool (some s.pairs.next)
      (s.filling s.channels s.pools (blankPair s.pairs.next) (s.tick + 1) s.locals) =
        ⟨l, s.filling s.channels (s.pools.store id pool') (blankPair s.pairs.next) t s.locals,
          .ok index⟩)
    (later : s.tick ≤ t) (entries : ∀ e ∈ l, e.action = .alloc .items ∧ ∃ t, e.before =
      s.filling s.channels s.pools (blankPair s.pairs.next) t s.locals) :
    Follows (Change w serial) (forwardRegister w dispatch originator originatorPort destination
      destinationPort (some src) dst) h s fun _ _ _ => True := by
  have got (s' : Proxy) : (get : ProxyM Proxy) s' = ⟨[], s', .ok s'⟩ := rfl
  refine follows_of_amid (amid_bind (run_fwPairAlloc alloc) (amid_bind (got _) (amid_bind run ?_)))
  rw [if_pos stored]
  refine amid_bind (run_modifyPair_filling _) (amid_bind (run_allocate_filling _)
    (amid_bind (run_modifyPair_filling _)
    (amid_bind (run_locals_filling fun locals => locals.erase src)
    (amid_bind (run_allocate_filling _) (amid_bind (run_modifyPair_filling _)
    (amid_bind (run_locals_filling fun locals => dst.elim locals locals.erase)
    (amid_bind (run_setCallbacks_filling _ _) ?_)))))))
  -- every statement so far leaves `s` with a pair being filled in; what remains is one step
  have first : ({ s with channels := s.channels } : Proxy) = s := rfl
  rw [first]
  cases dst with
  | none =>
      rw [when, if_neg (not_not.mpr rfl)]
      refine amid_bind (rfl : (pure () : ProxyM Unit) _ = _) (amid_step (.register _ s offered
        set cell added stored _ ⟨rfl, rfl, rfl, rfl⟩ _ ?_ _ (by omega) _) (follows_pure trivial))
      intro e mem
      simp only [List.mem_append, List.mem_singleton, List.not_mem_nil, or_false, false_or] at mem
      rcases mem with (((rfl | mem) | rfl) | rfl) | rfl
      · exact ⟨registering_tock, .inl ⟨_, rfl⟩⟩
      · exact registering_poolAdd set cell added entries e mem
      · exact ⟨registering_stored set cell added rfl (.inl rfl) (.inl rfl) (fun _ => .inl rfl)
          (.inr rfl), .inl ⟨_, rfl⟩⟩
      · exact ⟨registering_stored set cell added rfl (.inr rfl) (.inl rfl) (fun _ => .inl rfl)
          (.inr rfl), .inl ⟨_, rfl⟩⟩
      · exact ⟨registering_stored set cell added rfl (.inr rfl) (.inr rfl) (fun _ => .inl rfl)
          (.inr rfl), .inr ⟨_, rfl⟩⟩
  | some dst =>
      have second : ({ s with channels := (s.registerPair s.pairs.next src).channels } : Proxy) =
          s.registerPair s.pairs.next src := (updateChannel_eq s src _).1.symm
      rw [when, if_pos (Option.some_ne_none dst)]
      refine amid_bind (run_setCallbacks_filling _ _) ?_
      rw [second]
      refine amid_step (.register _ s offered set cell added stored _
        ⟨rfl, rfl, rfl, rfl⟩ _ ?_ _ (by omega) _) (follows_pure trivial)
      intro e mem
      simp only [List.mem_append, List.mem_singleton, List.not_mem_nil, or_false, false_or] at mem
      rcases mem with ((((rfl | mem) | rfl) | rfl) | rfl) | rfl
      · exact ⟨registering_tock, .inl ⟨_, rfl⟩⟩
      · exact registering_poolAdd set cell added entries e mem
      · exact ⟨registering_stored set cell added rfl (.inl rfl) (.inl rfl) (fun _ => .inl rfl)
          (.inr rfl), .inl ⟨_, rfl⟩⟩
      · exact ⟨registering_stored set cell added rfl (.inr rfl) (.inl rfl) (fun _ => .inl rfl)
          (.inr rfl), .inl ⟨_, rfl⟩⟩
      · exact ⟨registering_stored set cell added rfl (.inr rfl) (.inr rfl) (fun _ => .inl rfl)
          (.inr rfl), .inr ⟨_, rfl⟩⟩
      · exact ⟨registering_stored set cell added rfl (.inr rfl) (.inr rfl) (cells_registerPair _)
          (.inr rfl), .inr ⟨_, rfl⟩⟩

end Stored

include hd in
/-- `TrapMessageCallback`, the insertion into the pool. -/
theorem follows_forwardRegister (offered : Offered w serial h s src dst) :
    Follows (Change w serial) (forwardRegister w dispatch originator originatorPort destination
      destinationPort (some src) dst) h s fun _ _ _ => True := by
  cases alloc : w.granted s.tick with
  | false => exact follows_forwardRegister_denied alloc
  | true =>
      have blank (pools : Heap (FwPool (Option PairId))) (t : Nat) :
          (s.filling s.channels pools (blankPair s.pairs.next) t s.locals).pairs.cell s.pairs.next =
            some (blankPair s.pairs.next) := s.pairs.cell_alloc_self
      rcases run_poolAdd w s.context.forwardPool (some s.pairs.next)
        (s.filling s.channels s.pools (blankPair s.pairs.next) (s.tick + 1) s.locals) with
        ⟨l, s', stop, run, path⟩ | ⟨-, run⟩ |
        ⟨id, pool, granted, index, pool', l, t, pointer, cell, added, later, run, entries, path⟩
      · have paired : Path (Change w serial) h s [⟨s.tock, .alloc .fwPair, 1⟩] _ :=
          (Path.of_step (.alloc h s .fwPair true)).quiet (.newPair _ s.tock)
        refine follows_path_bind (run_fwPairAlloc alloc) paired (follows_get_bind ?_)
        exact follows_of_error (bind_of_error run) (path serial _)
      · exact follows_forwardRegister_refused hd alloc rfl run (fun h => .refl h _) rfl (blank _ _)
      · by_cases stored : index = -1
        · refine follows_forwardRegister_refused hd alloc rfl run (fun h => ?_) stored (blank _ _)
          exact (path serial h).quiet (.add _ _ cell added nofun fun _ => stored)
        · exact follows_forwardRegister_stored pointer cell added offered alloc stored run
            (Nat.le_of_succ_le later) entries

end Register

/-! ## `TrapMessageCallback`

A request for a forward: the two channels, the connection to the destination, and the
pair. -/

section Open

variable {w : World} {serial : Prop} {dispatch : Nat → ProxyM Unit} {h : List Entry} {s : Proxy}
  {originator destination : CString} {originatorPort destinationPort : Int}
  (hd : ∀ t, Walks (Change w serial) (dispatch t)) (still : serial → ∀ t, dispatch t = pure ())

/-- The channel to the destination was opened in `ALLOW` mode; if callbacks do
not nest nothing else has happened since. -/
def Reached (w : World) (serial : Prop) (h : List Entry) (s : Proxy) (dst : Option ChannelId) :
    Prop :=
  w.config.forwardMode = some .allow ∧ ∃ e ∈ h, ∃ session,
    e.action = .call (.channelNew session) ∧ e.answer = sshOk ∧
    e.before.context.haasSession = some session ∧ dst = some e.before.channels.next ∧
    (serial → ∃ t, s = { e.before.obtain session with tick := t })

include hd

include still in
/-- **The connection to the destination.** In `ALLOW` mode a channel that is answered
was reached, and in the other modes there is none. -/
theorem follows_forwardConnect :
    Follows (Change w serial) (forwardConnect w dispatch originator originatorPort destination
      destinationPort) h s fun out h' s' => out.2 = true →
        Reached w serial h' s' out.1 ∨
          w.config.forwardMode ≠ some .allow ∧ out.1 = none ∧ h' = h ∧ s' = s := by
  refine follows_ite (fun other => follows_pure fun _ => .inr ⟨other, rfl, rfl, rfl⟩)
    fun allow => follows_get_bind ?_
  rw [not_not] at allow
  refine follows_bind (follows_sshChannelNew fun owner eq => .inr eq) ?_
  rintro dst _ s₁ (rfl | ⟨owner, set, rfl, rfl, rfl⟩)
  · exact follows_pure fun no => absurd no Bool.false_ne_true
  refine follows_bind (follows_nestedCall hd still (c := .openForward _ destination
    destinationPort originator originatorPort) trivial trivial fun _ => rfl) ?_
  rintro i _ s₂ ⟨l, rfl, exact_⟩
  refine follows_ite (fun _ => ?_) fun _ => follows_pure fun _ => .inl ⟨allow, ?_⟩
  · exact follows_bind (walks_sshChannelFree hd _ _) fun _ _ _ _ =>
      follows_pure fun no => absurd no Bool.false_ne_true
  · refine ⟨⟨s.tock, .call (.channelNew owner), sshOk⟩, ?_, owner, rfl, rfl, set, rfl,
      fun alone => ⟨_, exact_ alone⟩⟩
    exact List.mem_append_left _ (List.mem_append_right h (.head _))

/-- What is undone is closed and freed, channel by channel. -/
theorem walks_forwardClose {src dst : Option ChannelId} :
    Walks (Change w serial) (forwardClose w dispatch src dst) :=
  walks_bind (walks_when <|
    walks_bind walks_get fun _ =>
    walks_bind walks_sshIsBlocking fun _ =>
    walks_bind walks_sshSetBlocking fun _ =>
    walks_bind (walks_onChannel hd fun _ => trivial) fun _ =>
    walks_bind (walks_sshChannelFree hd) fun _ =>
    walks_bind walks_get fun _ => walks_sshSetBlocking) fun _ =>
  walks_bind walks_get fun _ =>
  walks_bind walks_sshIsBlocking fun _ =>
  walks_bind walks_sshSetBlocking fun _ =>
  walks_bind (walks_onChannel hd fun _ => trivial) fun _ =>
  walks_bind (walks_onChannel hd fun _ => trivial) fun _ =>
  walks_bind (walks_sshChannelFree hd) fun _ => walks_sshSetBlocking

include still in
/-- A request for a direct forward, which has just arrived. -/
theorem follows_forwardOpen (arrived : ∃ e ∈ h, (∃ originator originatorPort destination
    destinationPort, e.action = .enter (.trapMessage (some
      (.directTcpip originator originatorPort destination destinationPort)))) ∧
    e.before.context = s.context) :
    Follows (Change w serial) (forwardOpen w dispatch originator originatorPort destination
      destinationPort) h s fun _ _ _ => True := by
  refine follows_ite (fun _ => follows_pure trivial) fun notDeny => ?_
  refine follows_bind (follows_forwardConnect hd still) ?_
  rintro ⟨dst, accept⟩ h₁ s₁ reached
  have finish (src : Option ChannelId) (close : Bool) (h' : List Entry) (s' : Proxy) :
      Follows (Change w serial) (do
        when close do
          forwardClose w dispatch src dst
        pure (if accept then 0 else 1) : ProxyM Int) h' s' fun _ _ _ => True :=
    follows_bind (walks_when (walks_forwardClose hd) h' s') fun _ _ _ _ => follows_pure trivial
  cases accept with
  | false =>
      refine follows_bind (P := fun src _ _ => src = none) (follows_pure rfl) ?_
      rintro _ h₂ s₂ rfl
      exact follows_bind (P := fun _ _ _ => True) (follows_pure trivial) fun close h₃ s₃ _ =>
        finish none close h₃ s₃
  | true =>
      have acceptable : Acceptable w h₁ s₁.context := by
        rcases reached rfl with ⟨allow, e, mem, session, -, -, set, -⟩ | ⟨other, -, rfl, rfl⟩
        · exact .inl ⟨allow, e, mem, by rw [set]; exact Option.some_ne_none session⟩
        · exact .inr ⟨other, notDeny, arrived⟩
      refine follows_bind (follows_openReplyAccept acceptable) ?_
      rintro src _ s₂ (rfl | ⟨rfl, rfl, rfl⟩)
      · exact follows_bind (P := fun _ _ _ => True) (follows_pure trivial) fun close h₃ s₃ _ =>
          finish none close h₃ s₃
      refine follows_bind (P := fun _ _ _ => True) (follows_ite (fun _ => follows_pure trivial)
        fun _ => follows_forwardRegister hd ?_) fun close h₃ s₃ _ => finish _ close h₃ s₃
      refine ⟨h₁, _, rfl, rfl, rfl, rfl, ?_⟩
      rcases reached rfl with ⟨allow, e, mem, session, call, ok, set, same, since⟩ |
        ⟨other, same, -, -⟩
      · refine .inl ⟨allow, e, mem, session, call, ok, set, same, fun alone => ?_⟩
        obtain ⟨t, eq⟩ := since alone
        exact ⟨s₁.tick + 1, by rw [eq]; rfl⟩
      · exact .inr ⟨other, same⟩

end Open

end HaasProxy
