import HaasProxy.Ownership.Callbacks

/-!
# A run keeps ownership

From the key exchange to the end of `ProxyProcess`.  Between the callbacks of the
two loops nothing is in a local variable and the pool is there (`Calm`).
`HandleForwards` takes pairs out of the pool and releases them; the teardown
empties the pool, frees it, and then frees the channels of the session.

## Main results

* `calm_reapForward` — a closed pair leaves the pool and is released;
* `ensures_fwPoolDone` — the teardown of the pool, whatever is added to it meanwhile;
* `allFreed_teardown`, `allFreed_proxyProcess` — in the end every channel was freed;
* `channels_owned` — **the main result**: no use after free, one owner, freed once.

## Design notes

**Three phases.**  `Calm` holds between the callbacks of the loops.  `Emptied` is the
invariant of the loop in `FwPoolDone`, which overwrites the slots in front of its index and
releases what was in them: a callback may append a pair meanwhile, and the loop comes to it,
because it asks for the number of items anew each time.  `Drained` holds once the pool is
gone; then only the context holds channels, and the two `SessionClose` free those.

**Freed exactly once, at the end.**  `Proxy.Inv` says that the number of owners and of frees
is one together.  A state without owners is one in which everything was freed once:
`freed_of_drained` is that step, and nothing else has to be counted.
-/

namespace HaasProxy

open Traced Proxy

/-- The state between callbacks. -/
structure Proxy.Calm (s : Proxy) : Prop where
  inv : s.Inv
  /-- No callback is running. -/
  locals : s.locals = []
  /-- No pair is on its way out of the pool. -/
  releasing : s.releasing = []
  /-- The pool was not freed. -/
  alive : s.PoolAlive
  /-- Neither was `HaasChannel`. -/
  haasLive : s.LiveIn fun c => c.haasChannel

section Calm

variable {w : World} {dispatch : Nat → ProxyM Unit} {s s' : Proxy} {α β : Type}

/-- The client's channel is live as long as it is in the context: it is freed by the
teardown only. -/
theorem Proxy.Calm.trapLive (calm : s.Calm) : s.LiveIn fun c => c.trapChannel :=
  calm.inv.trapLive

/-- A calm state stays calm under what a callback may do. -/
theorem Frame.calm (f : Frame [] s s') (h' : s'.Inv) (calm : s.Calm) : s'.Calm where
  inv := h'
  locals := f.locals.trans calm.locals
  releasing := f.releasing.trans calm.releasing
  alive := f.poolAlive calm.inv.pool calm.alive
  haasLive := f.backend calm.haasLive

/-- The program goes from a calm state to a calm state. -/
def CalmGoes (w : World) (m : ProxyM α) (s : Proxy) : Prop :=
  Ensures (ownershipTerms w) m s fun _ s' => s'.Calm

theorem Goes.calm {m : ProxyM α} (go : Goes w [] m s) (calm : s.Calm) : CalmGoes w m s :=
  ensures_mono go fun _ _ post => post.2.calm post.1 calm

theorem calm_pure {a : α} (calm : s.Calm) : CalmGoes w (pure a) s := ensures_pure calm

theorem calm_bind {m : ProxyM α} {k : α → ProxyM β} (first : CalmGoes w m s)
    (next : ∀ a s', s'.Calm → CalmGoes w (k a) s') : CalmGoes w (m >>= k) s :=
  ensures_bind first next

theorem calm_get {k : Proxy → ProxyM α} (next : CalmGoes w (k s) s) :
    CalmGoes w (get >>= k) s := ensures_get_bind next

theorem calm_ite {c : Prop} [Decidable c] {m m' : ProxyM α} (pos : c → CalmGoes w m s)
    (neg : ¬ c → CalmGoes w m' s) : CalmGoes w (if c then m else m') s := ensures_ite pos neg

theorem calm_when {c : Prop} [Decidable c] {m : ProxyM Unit} (calm : s.Calm)
    (pos : c → CalmGoes w m s) : CalmGoes w (when c m) s := ensures_when pos fun _ => calm

/-- A loop, by induction on the fuel. Being calm is all that has to be carried from
round to round. -/
theorem calm_loop {body : ProxyM (Unit ⊕ α)} {fuel : Nat} (calm : s.Calm)
    (step : ∀ s : Proxy, s.Calm → CalmGoes w body s) :
    CalmGoes w (loop .exhausted (fun _ => body) fuel ()) s := by
  refine ensures_loop (I := fun _ s => s.Calm) (fun _ s calm => ?_) (fun _ _ _ => Or.inl rfl) fuel
    calm
  refine ensures_mono (step s calm) fun answer _ calm => ?_
  cases answer <;> exact calm

end Calm

/-! ## `HandleForwards`

A pair that is taken out of the pool has no owner for a moment, so it is noted as being
released. The callbacks that its release makes may still find its ends. -/

section HandleForwards

variable {w : World} {dispatch : Nat → ProxyM Unit} {s : Proxy} {p : PairId} {pair : FwPair}

/-- The pool of a session, or there is none. -/
theorem pool_cases (h : s.Inv) (alive : s.PoolAlive) :
    s.context.forwardPool = none ∨ ∃ id pool xs, s.context.forwardPool = some id ∧
      s.pools.cell id = some pool ∧ pool.Holds xs ∧ s.items = xs.reduceOption := by
  cases pointer : s.context.forwardPool with
  | none => exact .inl rfl
  | some id =>
      obtain ⟨pool, cell⟩ := Option.ne_none_iff_exists'.mp (alive id pointer)
      obtain ⟨xs, holds⟩ := h.pool id pool pointer cell
      exact .inr ⟨id, pool, xs, rfl, cell, holds, items_eq pointer cell holds⟩

/-- `FwPoolGet` returns an item of the pool, if anything. -/
theorem ensures_poolGet {t : Terms Entry Stop Proxy} {i : Nat} {Q : Option PairId → Proxy → Prop}
    (h : s.Inv) (alive : s.PoolAlive) (post : ∀ o, (∀ p, o = some p → p ∈ s.items) → Q o s) :
    Ensures t (poolGet s.context.forwardPool i) s Q := by
  rcases pool_cases h alive with pointer | ⟨id, pool, xs, pointer, cell, holds, items⟩
  · rw [pointer]
    exact ensures_pure_bind (ensures_ofExcept_bind rfl (ensures_pure (post none nofun)))
  · rw [pointer]
    refine ensures_loadPool cell (ensures_ofExcept_bind (a := xs[i]?) ?_ (ensures_pure (post _ ?_)))
    · rw [fwPoolGet_eq holds]
      rfl
    · intro p eq
      rw [items, List.reduceOption_mem_iff]
      exact List.mem_of_getElem? (Option.join_eq_some_iff.mp eq)

/-- What `FwPoolFindClosed` reads of an item. -/
def Proxy.isClosed (s : Proxy) (item : Option PairId) : Bool :=
  (item.bind s.pairs.cell).elim false fun pair => pair.closed

/-- The mark of a pair that is there is read without a fault. -/
theorem itemClosed_eq {item : Option PairId}
    (allocated : ∀ p, item = some p → ∃ pair, s.pairs.cell p = some pair) :
    s.itemClosed item = .ok (s.isClosed item) := by
  cases item with
  | none => rfl
  | some p =>
      obtain ⟨pair, cell⟩ := allocated p rfl
      rw [Proxy.itemClosed, s.pairs.load_of_cell cell, Proxy.isClosed, Option.bind_some, cell]
      rfl

/-- An item of the pool is held. -/
theorem mem_heldPairs_of_items (mem : p ∈ s.items) : p ∈ s.heldPairs :=
  List.mem_append_left _ mem

variable (hd : ∀ t, Keeps w (dispatch t))

include hd

/-- An endpoint of a pair that somebody holds is polled: its channel is live, since the
pair owns it. -/
theorem goes_pollEndpoint {e : End} (h : s.Inv) (held : p ∈ s.heldPairs) :
    Goes w [] (pollEndpoint w dispatch p e) s := by
  obtain ⟨pair, cell⟩ := h.allocated p held
  refine ensures_loadPair cell (goes_when h fun _ => ?_)
  have poll : Goes w [] (onChannel w dispatch (pair.endpoint e).channel .poll) s := by
    refine goes_onChannel hd h (fun ch channel => ?_) fun _ => rfl
    refine (h.of_mem_pairChannels held (?_ : ch ∈ _)).1
    rw [pairChannels_eq cell]
    exact mem_channels channel
  refine ensures_bind poll ?_
  rintro len s₁ ⟨h₁, f₁⟩
  obtain ⟨pair₁, cell₁⟩ := h₁.allocated p (f₁.heldPairs h held)
  refine ensures_mono (goes_when h₁ fun _ => goes_forwardChannelCloseCallback h₁ cell₁)
    fun _ _ post => ⟨post.1, f₁.trans post.2⟩

/-- The pair in a slot of the pool is polled; it is read again for the second endpoint,
as the first poll may have changed it. -/
theorem goes_pollForward {i : Nat} (h : s.Inv) (alive : s.PoolAlive) :
    Goes w [] (pollForward w dispatch i) s := by
  refine goes_get (ensures_bind (P := fun o s' => s' = s ∧ ∀ p, o = some p → p ∈ s.items)
    (ensures_poolGet h alive fun o mem => ⟨rfl, mem⟩) ?_)
  rintro o _ ⟨rfl, mem⟩
  refine goes_whenSome h fun p eq => ?_
  have held := mem_heldPairs_of_items (mem p eq)
  exact goes_bind (goes_pollEndpoint hd h held) fun _ _ h' f' =>
    goes_pollEndpoint hd h' (f'.heldPairs h held)

/-- A pair that has left the pool is released. -/
theorem calm_release {id : PoolId} {pool pool' : FwPool (Option PairId)}
    {xs : List (Option PairId)} {k : Nat} (calm : s.Calm)
    (pointer : s.context.forwardPool = some id) (cell : s.pools.cell id = some pool)
    (holds : pool.Holds xs) (hk : k < xs.length) (item : xs[k] = some p)
    (holds' : pool'.Holds (swapRemove xs k)) :
    CalmGoes w (whenSome (some p) fun p => do
      modify fun s => { s with releasing := p :: s.releasing }
      fwPairRelease w dispatch p
      modify fun s => { s with releasing := s.releasing.tail })
      { s with pools := s.pools.store id pool' } := by
  have h := calm.inv
  refine ensures_whenSome nofun ?_
  rintro _ ⟨⟩
  refine ensures_modify_bind ?_
  generalize eq₁ : ({ s with
    pools := s.pools.store id pool'
    releasing := p :: s.releasing } : Proxy) = s₁
  -- the pair is out of the pool and held by the loop
  have h₁ : s₁.Inv := inv_poolRemove h pointer cell holds hk item holds' eq₁.symm
  have mem₁ : p ∈ s₁.heldPairs := by
    rw [← eq₁]
    exact List.mem_append_right _ (.head _)
  obtain ⟨pair, pcell⟩ := h₁.allocated p mem₁
  refine ensures_bind (ensures_fwPairRelease hd h₁ pcell (fun _ => mem₁) (Q := fun _ s'' =>
    ∃ s' pair', s'.Inv ∧ Frame [p] s₁ s' ∧ s'.pairs.cell p = some pair' ∧ pair'.channels = [] ∧
      s'' = { s' with pairs := s'.pairs.free p }) fun s' pair' h' f' cell' channels =>
        ⟨s', pair', h', f', cell', channels, rfl⟩) ?_
  rintro _ _ ⟨s', pair', h', f', cell', channels, rfl⟩
  have releasing : s'.releasing = [p] := by
    rw [f'.releasing, ← eq₁]
    exact congrArg (p :: ·) calm.releasing
  -- behind the release nobody holds it, and everything else is as it was
  have alive₁ : s₁.PoolAlive := by
    rw [← eq₁]
    intro id' pointer' none
    cases pointer.symm.trans pointer'
    cases (s.pools.cell_store_self cell).symm.trans none
  refine ensures_modify
    { inv := inv_release h' releasing cell' channels (by simp only [releasing, List.tail_cons])
      locals := ?_
      releasing := by simp only [releasing, List.tail_cons]
      alive := f'.poolAlive h₁.pool alive₁
      haasLive := f'.backend ?_ }
  · exact f'.locals.trans (eq₁ ▸ calm.locals)
  · rw [← eq₁]
    exact calm.haasLive

/-- **The second loop**: a closed pair leaves the pool and is released. -/
theorem calm_reapForward (calm : s.Calm) : CalmGoes w (reapForward w dispatch) s := by
  have h := calm.inv
  refine calm_get ?_
  rcases pool_cases h calm.alive with pointer | ⟨id, pool, xs, pointer, cell, holds, items⟩
  · rw [pointer]
    exact ensures_bind (P := fun index s' => s' = s ∧ index = -1) (ensures_pure_bind
      (ensures_get_bind (ensures_ofExcept rfl ⟨rfl, rfl⟩))) fun _ _ ⟨eq, minus⟩ =>
        eq ▸ minus ▸ calm_pure calm
  -- no item that is read has been freed
  have reads (item : Option PairId) (mem : item ∈ xs) :
      s.itemClosed item = .ok (s.isClosed item) := by
    refine itemClosed_eq ?_
    rintro p rfl
    refine h.allocated p (mem_heldPairs_of_items ?_)
    rw [items]
    exact List.reduceOption_mem_iff.mpr mem
  rw [pointer]
  have found : Ensures (ownershipTerms w) (poolFindClosed (some id)) s fun index s' =>
      s = s' ∧ index = (xs.findIdx? s.isClosed).elim (-1 : Int) fun k => (k : Int) := by
    refine ensures_loadPool cell (ensures_get_bind (ensures_ofExcept ?_ ⟨rfl, rfl⟩))
    rw [fwPoolFindClosed_eq holds reads]
    rfl
  refine ensures_bind found ?_
  rintro _ _ ⟨rfl, rfl⟩
  cases first : xs.findIdx? s.isClosed with
  | none => exact calm_pure calm
  | some k =>
      obtain ⟨hk, closed, -⟩ := List.findIdx?_eq_some_iff_getElem.mp first
      obtain ⟨p, item⟩ : ∃ p, xs[k] = some p := by
        cases item : xs[k] with
        | none => simp [item, Proxy.isClosed] at closed
        | some p => exact ⟨p, rfl⟩
      have index : (Option.elim (some k) (-1) fun k => (k : Int)) = k := rfl
      rw [index]
      refine ensures_ite (fun negative => absurd negative (by simp)) fun _ => ?_
      -- the item at the index that was found, and then the pool without it
      have got : Ensures (ownershipTerms w) (poolGet (some id) k) s fun o s' =>
          s = s' ∧ o = some p := by
        refine ensures_loadPool cell (ensures_ofExcept_bind (a := xs[k]?) ?_ (ensures_pure ⟨rfl, ?_⟩))
        · rw [fwPoolGet_eq holds]
          rfl
        · rw [List.getElem?_eq_getElem hk, item, Option.join_some]
      refine ensures_bind got ?_
      rintro _ _ ⟨rfl, rfl⟩
      obtain ⟨pool', removed, holds'⟩ := fwPoolRemove_eq holds hk
      have out : Ensures (ownershipTerms w) (poolRemove (some id) k) s fun _ s' =>
          s' = { s with pools := s.pools.store id pool' } := by
        refine ensures_loadPool cell (ensures_ofExcept_bind (a := (1, some pool')) ?_
          (ensures_modify_bind (ensures_pure rfl)))
        rw [removed]
        rfl
      refine ensures_bind out ?_
      rintro _ _ rfl
      refine ensures_bind (P := fun _ s' => s'.Calm) ?_ fun _ _ calm => calm_pure calm
      exact calm_release hd calm pointer cell holds hk item holds'

/-- `HandleForwards` keeps calm: each round takes a pair out of the pool and holds it
until it is released. -/
theorem calm_handleForwards {fuel : Nat} (calm : s.Calm) :
    CalmGoes w (handleForwards w dispatch fuel) s := by
  refine calm_get ?_
  have counted : CalmGoes w (poolCount s.context.forwardPool) s := by
    rcases pool_cases calm.inv calm.alive with pointer | ⟨id, pool, xs, pointer, cell, -⟩
    · rw [pointer]
      exact ensures_pure_bind (calm_pure calm)
    · rw [pointer]
      exact ensures_loadPool cell (calm_pure calm)
  refine calm_bind counted fun count s calm => calm_when calm fun _ => ?_
  refine calm_bind (ensures_each calm fun i _ s calm =>
    (goes_pollForward hd calm.inv calm.alive).calm calm) fun _ s calm => ?_
  exact calm_loop calm fun s calm => calm_reapForward hd calm

end HandleForwards

/-! ## The two loops

At the top of both loops the state is `Calm`, and each turn leads back to that. -/

section Serve

variable {w : World} {dispatch : Nat → ProxyM Unit} {s : Proxy} {fuel : Nat}

/-- How far `ProxyProcess` is does not matter to the owners. -/
theorem calm_enterStage {stage : Stage} (calm : s.Calm) : CalmGoes w (enterStage stage) s := by
  have same : Same s { s with stage := stage } := by constructor <;> rfl
  exact (goes_modify calm.inv same).calm calm

theorem goes_readShouldStop (h : s.Inv) : Goes w [] (readShouldStop w) s :=
  goes_bind (goes_nextTick h) fun _ _ h _ => goes_pure h

theorem goes_checkUsage (h : s.Inv) : Goes w [] (checkUsage w) s :=
  goes_ite (fun _ => goes_bind (goes_nextTick h) fun _ _ h _ => goes_pure h) fun _ => goes_pure h

theorem goes_idleTimerGet (h : s.Inv) : Goes w [] (idleTimerGet w) s := goes_get (goes_timerGet h)

theorem goes_waitTime (h : s.Inv) : Goes w [] (waitTime w) s :=
  goes_bind (goes_idleTimerGet h) fun _ _ h _ => goes_ite (fun _ => goes_pure h) fun _ =>
    goes_ite (fun _ => goes_get (goes_bind (goes_timerGet h) fun _ _ h _ => goes_pure h))
      fun _ => goes_pure h

variable (hd : ∀ t, Keeps w (dispatch t))

include hd

/-- A round of the loop for the login, in which callbacks may do all they do. -/
theorem goes_waitLoginStep (h : s.Inv) : Goes w [] (waitLoginStep w dispatch) s := by
  refine goes_bind (goes_readShouldStop h) fun _ s h _ => goes_ite (fun _ => goes_pure h)
    fun _ => goes_bind (goes_checkUsage h) fun _ s h _ => goes_ite (fun _ => goes_pure h)
    fun _ => goes_bind (goes_waitTime h) fun time s h _ => ?_
  split
  · exact goes_pure h
  · exact goes_bind (goes_sessionCall hd rfl h) fun _ s h _ => goes_ite (fun _ => goes_pure h)
      fun _ => goes_ite (fun _ => goes_pure h) fun _ => goes_get (goes_ite (fun _ => goes_pure h)
      fun _ => goes_ite (fun _ => goes_pure h) fun _ => goes_pure h)

/-- A round of the relaying loop. Both channels it polls are in the context, so they are
live. -/
theorem calm_relayStep (calm : s.Calm) : CalmGoes w (relayStep w dispatch fuel) s := by
  have polled {s : Proxy} (calm : s.Calm) {channel : Context → Option ChannelId}
      (live : s.LiveIn channel) :
      CalmGoes w (onChannel w dispatch (channel s.context) .poll) s :=
    (goes_onChannel hd calm.inv live fun _ => rfl).calm calm
  have flushed {s : Proxy} (calm : s.Calm) (session : Option SessionId) :
      CalmGoes w (call w dispatch (.blockingFlush session)) s :=
    (goes_sessionCall hd rfl calm.inv).calm calm
  refine calm_bind ((goes_readShouldStop calm.inv).calm calm) fun _ s calm =>
    calm_ite (fun _ => calm_pure calm) fun _ => calm_get <|
    calm_bind (polled calm calm.trapLive) fun _ s calm => calm_get <|
    calm_bind (polled calm calm.haasLive) fun _ s calm => calm_get <|
    calm_bind (calm_when calm fun _ => calm_handleForwards hd calm) fun _ s calm => calm_get <|
    calm_bind (flushed calm _) fun _ s calm => calm_get <|
    calm_bind (flushed calm _) fun _ s calm =>
    calm_bind ((goes_waitTime calm.inv).calm calm) fun time s calm => ?_
  split
  · exact calm_pure calm
  · exact calm_bind ((goes_sessionCall hd rfl calm.inv).calm calm) fun _ s calm =>
      calm_ite (fun _ => calm_pure calm) fun _ => calm_ite (fun _ => calm_pure calm) fun _ =>
      calm_get (calm_pure calm)

/-- Both loops of `ProxyProcess` keep the state calm, turn by turn. -/
theorem calm_serve (calm : s.Calm) : CalmGoes w (serve w dispatch fuel) s := by
  have sessionCall {s : Proxy} (calm : s.Calm) {c : Call} (none : c.channel? = none) :
      CalmGoes w (call w dispatch c) s := (goes_sessionCall hd none calm.inv).calm calm
  refine calm_get <| calm_bind (sessionCall calm rfl) fun _ s calm =>
    calm_bind ((goes_idleTimerReset calm.inv).calm calm) fun _ s calm =>
    calm_bind (calm_when calm fun _ => ?_) fun _ s calm =>
    calm_bind (calm_enterStage calm) fun _ s calm =>
    calm_bind (calm_loop calm fun s calm => (goes_waitLoginStep hd calm.inv).calm calm)
      fun error s calm =>
    calm_bind (calm_when calm fun _ => ?_) fun _ s calm => calm_get <|
    calm_bind (sessionCall calm rfl) fun _ s calm => calm_pure calm
  · exact calm_bind ((goes_timerStart calm.inv).calm calm) fun _ s calm =>
      (goes_modifyContext calm.inv ⟨rfl, rfl, rfl, rfl⟩).calm calm
  · refine calm_bind ((goes_readShouldStop calm.inv).calm calm) fun _ s calm => calm_get <|
      calm_when calm fun _ => calm_bind (sessionCall calm rfl) fun _ s calm =>
      calm_bind ((goes_idleTimerReset calm.inv).calm calm) fun _ s calm =>
      calm_bind (calm_enterStage calm) fun _ s calm =>
      calm_bind (calm_loop calm fun s calm => calm_relayStep hd calm) fun _ s calm => calm_get <|
      calm_bind (sessionCall calm rfl) fun _ s calm => calm_pure calm

end Serve

/-! ## The teardown

From the pool to the two sessions. Nothing is obtained any more that is not released in
it, by what is assumed of the callbacks then. -/

section Teardown

variable {w : World} {dispatch : Nat → ProxyM Unit} {s : Proxy} {fuel : Nat}

/-- The pool is gone and only the context holds channels. -/
structure Proxy.Drained (s : Proxy) : Prop where
  inv : s.Inv
  locals : s.locals = []
  releasing : s.releasing = []
  /-- The pool was freed. -/
  gone : ∀ id, s.context.forwardPool = some id → s.pools.cell id = none

theorem Proxy.Drained.heldPairs (drained : s.Drained) : s.heldPairs = [] := by
  rw [Proxy.heldPairs, drained.releasing, List.append_nil, items]
  cases pointer : s.context.forwardPool with
  | none => rfl
  | some id => rw [Option.bind_some, drained.gone id pointer, Option.elim_none]

theorem Frame.drained {s' : Proxy} (f : Frame [] s s') (h' : s'.Inv) (drained : s.Drained) :
    s'.Drained where
  inv := h'
  locals := f.locals.trans drained.locals
  releasing := f.releasing.trans drained.releasing
  gone id pointer := f.noPool id (drained.gone id (f.forwardPool ▸ pointer))

/-- The first `i` slots of the pool have been overwritten with `NULL`. -/
structure Proxy.Emptied (s : Proxy) (id : PoolId) (i : Nat) : Prop where
  calm : s.Calm
  /-- The pool is still that of the context. -/
  pointer : s.context.forwardPool = some id
  /-- The slots in front of `i` hold `NULL`, whatever stands behind them. -/
  slots : ∃ pool xs, s.pools.cell id = some pool ∧ pool.Holds xs ∧
    ∀ j < i, ∀ item, xs[j]? = some item → item = none

/-- When all slots were gone through there is nothing left in the pool. -/
theorem Proxy.Emptied.items {id : PoolId} {i : Nat} (emptied : s.Emptied id i)
    (all : ∀ pool, s.pools.cell id = some pool → pool.used ≤ i) : s.items = [] := by
  obtain ⟨pool, xs, cell, holds, none⟩ := emptied.slots
  rw [items_eq emptied.pointer cell holds]
  exact FwPool.reduceOption_of_emptied none (holds.used ▸ all pool cell)

/-- **One more slot is overwritten**, behind the release of the pair that was in it.  Callbacks may
have appended pairs meanwhile, but an index in front of the old end is still the index of the
same item: so the slots up to `i` are `NULL`, those from before by assumption, and the `i`-th by
what is stored now. -/
private theorem Proxy.Emptied.clear {id : PoolId} {i : Nat} {s' s'' : Proxy} {p : PairId}
    {pair : FwPair} {pool' pool'' : FwPool (Option PairId)} {xs ys : List (Option PairId)}
    (calm : s.Calm) (pointer : s.context.forwardPool = some id)
    (empty : ∀ j < i, ∀ item, xs[j]? = some item → item = none) (hi : i < xs.length)
    (item : xs[i] = some p) (h' : s'.Inv) (f' : Frame [p] s s')
    (pcell : s'.pairs.cell p = some pair) (channels : pair.channels = [])
    (cell' : s'.pools.cell id = some pool') (holds' : pool'.Holds (xs ++ ys))
    (holds'' : pool''.Holds ((xs ++ ys).set i none))
    (eq : s'' = { s' with
      pairs := s'.pairs.free p
      pools := s'.pools.store id pool'' }) : s''.Emptied id (i + 1) := by
  have hi' : i < (xs ++ ys).length := by
    rw [List.length_append]
    omega
  have item' : (xs ++ ys)[i] = some p := by rw [List.getElem_append_left hi, item]
  have pointer' : s'.context.forwardPool = some id := f'.forwardPool.trans pointer
  have cell'' : s''.pools.cell id = some pool'' := by
    rw [eq]
    exact s'.pools.cell_store_self cell'
  refine
    { calm :=
        { inv := inv_clearSlot h' pointer' cell' holds' hi' item' pcell channels holds'' eq
          locals := ?_
          releasing := ?_
          alive := fun id' pointer' gone => ?_
          haasLive := ?_ }
      pointer := ?_
      slots := ⟨pool'', _, cell'', holds'', FwPool.emptied_set empty hi⟩ }
  · rw [eq]
    exact f'.locals.trans calm.locals
  · rw [eq]
    exact f'.releasing.trans calm.releasing
  · rw [eq] at pointer'
    cases pointer.symm.trans (f'.forwardPool ▸ pointer')
    cases cell''.symm.trans gone
  · rw [eq]
    exact f'.backend calm.haasLive
  · rw [eq]
    exact pointer'

variable (hd : ∀ t, Keeps w (dispatch t))

include hd

/-- **The loop of `FwPoolDone`**: one more pair is released, whatever is added to
the pool meanwhile. -/
theorem ensures_poolDoneStep {id : PoolId} {i : Nat} (emptied : s.Emptied id i) :
    Ensures (ownershipTerms w) (poolDoneStep w dispatch id i) s fun answer s' =>
      match answer with
      | .inl i => s'.Emptied id i
      | .inr _ => s'.Calm ∧ s'.context.forwardPool = some id ∧ s'.items = [] := by
  have calm := emptied.calm
  have h := calm.inv
  have pointer := emptied.pointer
  obtain ⟨pool, xs, cell, holds, empty⟩ := emptied.slots
  have used := holds.used
  refine ensures_loadPool cell (ensures_ite (fun lt => ?_) fun ge => ensures_pure ⟨calm, pointer,
    emptied.items fun pool' cell' => ?_⟩)
  case refine_2 =>
    cases cell.symm.trans cell'
    omega
  have hi : i < xs.length := by omega
  refine ensures_ofExcept_bind (a := xs[i]) (by rw [FwPool.load_eq holds hi]; rfl) ?_
  refine ensures_bind (P := fun _ s' => s'.Emptied id (i + 1)) ?_ fun _ _ post => ensures_pure post
  refine ensures_whenSome (fun isNone => ⟨calm, pointer, pool, xs, cell, holds, ?_⟩)
    fun p item => ?_
  · -- there is no pair in this slot
    exact FwPool.emptied_succ empty (by rw [List.getElem?_eq_getElem hi, isNone])
  have held : p ∈ s.heldPairs := by
    refine mem_heldPairs_of_items ?_
    rw [items_eq pointer cell holds, List.reduceOption_mem_iff, ← item]
    exact List.getElem_mem hi
  obtain ⟨pair, pcell⟩ := h.allocated p held
  refine ensures_bind (ensures_fwPairRelease hd h pcell (fun _ => held) (Q := fun _ s'' =>
    ∃ s' pair', s'.Inv ∧ Frame [p] s s' ∧ s'.pairs.cell p = some pair' ∧ pair'.channels = [] ∧
      s'' = { s' with pairs := s'.pairs.free p }) fun s' pair' h' f' cell' channels =>
        ⟨s', pair', h', f', cell', channels, rfl⟩) ?_
  rintro _ _ ⟨s', pair', h', f', pcell', channels, rfl⟩
  -- the slot is overwritten in the pool as it is now
  obtain ⟨pool', ys, cell', holds'⟩ := f'.pool id pool xs cell holds
  have hi' : i < (xs ++ ys).length := by
    rw [List.length_append]
    omega
  obtain ⟨pool'', stored, holds''⟩ := FwPool.holds_set holds' hi' (none : Option PairId)
  refine ensures_get_bind (ensures_ofExcept_bind (a := pool') ?_ (ensures_ofExcept_bind
    (a := pool'') ?_ (ensures_modify (.clear calm pointer empty hi item h' f' pcell' channels cell'
      holds' holds'' rfl))))
  · show Except.mapError _ (s'.pools.load id) = _
    rw [s'.pools.load_of_cell cell']
    rfl
  · rw [stored]
    rfl

omit hd in
/-- An empty pool is freed. -/
theorem drained_freePool {id : PoolId} (calm : s.Calm) (pointer : s.context.forwardPool = some id)
    (empty : s.items = []) : ({ s with pools := s.pools.free id } : Proxy).Drained := by
  have gone (id' : PoolId) (pointer' : s.context.forwardPool = some id') :
      (s.pools.free id).cell id' = none := by
    cases pointer.symm.trans pointer'
    exact s.pools.cell_free_self
  have held : ({ s with pools := s.pools.free id } : Proxy).heldPairs = s.heldPairs := by
    rw [Proxy.heldPairs, Proxy.heldPairs, empty, items, pointer, Option.bind_some,
      gone id pointer, Option.elim_none]
  have h := calm.inv
  refine ⟨inv_of_pairs h rfl rfl rfl rfl (fun ch => ?_) (fun p hp c mem => ?_)
    (fun id' pool pointer' cell => ?_) ?_ ?_, calm.locals, calm.releasing, gone⟩
  · rw [held]
    rfl
  · rw [held]
    exact ⟨hp, mem⟩
  · cases (gone id' pointer').symm.trans cell
  · rw [held]
    exact h.distinct
  · rw [held]
    exact h.allocated

/-- **`FwPoolDone`**. -/
theorem ensures_fwPoolDone {id : PoolId} (calm : s.Calm)
    (pointer : s.context.forwardPool = some id) :
    Ensures (ownershipTerms w) (fwPoolDone w dispatch fuel (some id)) s fun _ s' =>
      s'.Drained ∧ s'.LiveIn fun c => c.haasChannel := by
  obtain ⟨pool, cell⟩ := Option.ne_none_iff_exists'.mp (calm.alive id pointer)
  obtain ⟨xs, holds⟩ := calm.inv.pool id pool pointer cell
  refine ensures_get_bind
    (ensures_ofExcept_bind (a := pool) (by rw [s.pools.load_of_cell cell]; rfl) ?_)
  refine ensures_bind (P := fun _ s' => s'.Calm ∧ s'.context.forwardPool = some id ∧ s'.items = [])
    (ensures_when (fun _ => ?_) fun null => ⟨calm, pointer, ?_⟩) ?_
  · refine ensures_loop (I := fun i s => s.Emptied id i) (fun i s emptied => ?_)
      (fun _ _ _ => Or.inl rfl) fuel ⟨calm, pointer, pool, xs, cell, holds, nofun⟩
    refine ensures_mono (ensures_poolDoneStep hd emptied) fun answer _ post => ?_
    cases answer <;> exact post
  · have room := holds.room
    have slots := holds.slots
    rw [FwPool.slots, not_not.mp null] at slots
    have used := holds.used
    rw [items_eq pointer cell holds,
      List.length_eq_zero_iff.mp (by simp at slots; omega : xs.length = 0)]
    rfl
  · rintro _ s' ⟨calm', pointer', empty⟩
    exact ensures_modify ⟨drained_freePool calm' pointer' empty, calm'.haasLive⟩

/-- What `SessionClose` does to a channel before it frees it. -/
theorem ensures_sessionClose {session : Option SessionId}
    {ch : ChannelId} {Q : Unit → Proxy → Prop} (h : s.Inv)
    (live : ∀ s' : Proxy, s'.Inv → Frame [] s s' → ch ∉ s'.freed)
    (next : ∀ s' : Proxy, s'.Inv → Frame [] s s' → Ensures (ownershipTerms w)
      (whenSome session (sshDisconnectFree w dispatch)) (s'.tock.freeChannel ch) Q) :
    Ensures (ownershipTerms w) (sessionClose w dispatch session (some ch)) s Q := by
  have onIt {s' : Proxy} {c : ChannelId → Call} (about : ∀ ch, (c ch).channel? = some ch)
      (h' : s'.Inv) (f' : Frame [] s s') : Goes w [] (onChannel w dispatch (some ch) c) s' := by
    refine goes_onChannel hd h' ?_ about
    rintro _ ⟨⟩
    exact live s' h' f'
  refine ensures_bind (P := fun _ s'' => ∃ s' : Proxy, s'.Inv ∧ Frame [] s s' ∧
    s'' = s'.tock.freeChannel ch) (ensures_when (fun _ => ?_) fun null =>
      absurd (Option.some_ne_none ch) null) ?_
  · refine ensures_bind (onIt (fun _ => rfl) h (.refl [] s)) ?_
    rintro isOpen s₁ ⟨h₁, f₁⟩
    have closed : Goes w [] (when (isOpen ≠ 0) do
        let _ ← onChannel w dispatch (some ch) .setBlocking
        let _ ← sshChannelSendEof w dispatch (some ch)
        let _ ← onChannel w dispatch (some ch) .close) s₁ := by
      refine goes_when h₁ fun _ => goes_bind (onIt (fun _ => rfl) h₁ f₁) fun _ s₂ h₂ f₂ =>
        goes_bind (goes_sshChannelSendEof hd h₂ ?_) fun _ s₃ h₃ f₃ =>
        goes_bind (onIt (fun _ => rfl) h₃ ((f₁.trans f₂).trans f₃)) fun _ _ h _ => goes_pure h
      rintro _ ⟨⟩
      exact live s₂ h₂ (f₁.trans f₂)
    refine ensures_bind closed ?_
    rintro _ s₂ ⟨h₂, f₂⟩
    exact ensures_sshChannelFree h₂ (live s₂ h₂ (f₁.trans f₂)) ⟨s₂, h₂, f₁.trans f₂, rfl⟩
  · rintro _ _ ⟨s', h', f', rfl⟩
    exact next s' h' f'

omit hd in
/-- Calls about a session alone, whoever owns the channels. -/
theorem ensures_sshDisconnectFree {session : SessionId}
    (owned : ∀ ch, ch < s.channels.next → ch ∉ s.freed → s.owners.count ch = 1) :
    Ensures (ownershipTerms w) (sshDisconnectFree w dispatch session) s fun _ s' => Same s s' := by
  have lawful {s' : Proxy} (same : Same s s') {c : Call} (none : c.channel? = none)
      (answer : Int) : Lawful ⟨s', .call c, answer⟩ := by
    refine ⟨fun c' ch eq about => ?_, fun ch lt unfreed => ?_⟩
    · cases eq
      cases none.symm.trans about
    · rw [owners, same.locals, same.contextChannels, same.heldPairs, same.pairChannels]
      exact owned ch (same.channels ▸ lt) (same.freed ▸ unfreed)
  have once := same_tock s
  have twice : Same s s.tock.tock := by constructor <;> rfl
  refine ensures_bind (ensures_callWith_quiet (Q := fun _ s' => s' = s.tock)
    (by simp [Call.Dispatches]) (lawful once rfl _) fun _ => rfl) ?_
  rintro _ _ rfl
  refine ensures_bind (ensures_callWith_quiet (Q := fun _ s' => s' = s.tock.tock)
    (by simp [Call.Dispatches]) (lawful twice rfl _) fun _ => rfl) ?_
  rintro _ _ rfl
  exact ensures_pure twice

/-- `SessionClose` for the backend: `HaasChannel` is freed. -/
theorem drained_closeBackend (drained : s.Drained) (live : s.LiveIn fun c => c.haasChannel) :
    Ensures (ownershipTerms w)
      (sessionClose w dispatch s.context.haasSession s.context.haasChannel) s fun _ s' =>
      s'.Drained ∧ ∀ ch, s'.context.haasChannel = some ch → ch ∈ s'.freed := by
  cases haas : s.context.haasChannel with
  | none =>
      refine ensures_bind (P := fun _ s' => s = s') (ensures_when (fun some => absurd rfl some)
        fun _ => rfl) ?_
      rintro _ _ rfl
      refine ensures_whenSome (fun _ => ⟨drained, fun ch some => nomatch haas.symm.trans some⟩)
        fun session _ => ?_
      refine ensures_mono (ensures_sshDisconnectFree fun ch => drained.inv.owners_count) ?_
      refine fun _ s' same => ⟨(same.frame []).drained (same.inv drained.inv) drained, ?_⟩
      rw [same.haasChannel, haas]
      nofun
  | some ch =>
      refine ensures_sessionClose hd drained.inv
        (fun s' h' f' => f'.backend live ch (f'.haas ch haas)) fun s' h' f' => ?_
      have h'' := inv_freeBackend ((same_tock s').inv h') (f'.haas ch haas)
        (f'.backend live ch (f'.haas ch haas))
      have drained' := f'.drained h' drained
      have notLocal : ch ∉ s'.locals := by simp [drained'.locals]
      have drained'' : (s'.tock.freeChannel ch).Drained :=
        ⟨h'', (List.erase_of_not_mem notLocal).trans drained'.locals, drained'.releasing,
          drained'.gone⟩
      have freed (c : ChannelId) (set : (s'.tock.freeChannel ch).context.haasChannel = some c) :
          c ∈ (s'.tock.freeChannel ch).freed := by
        cases (f'.haas ch haas).symm.trans set
        exact .head _
      refine ensures_whenSome (fun _ => ⟨drained'', freed⟩) fun session _ => ?_
      refine ensures_mono (ensures_sshDisconnectFree fun ch => h''.owners_count) ?_
      refine fun _ s' same => ⟨(same.frame []).drained (same.inv h'') drained'', ?_⟩
      rw [same.haasChannel, same.freed]
      exact freed

/-- Every channel that was obtained was freed once. -/
def Proxy.AllFreed (s : Proxy) : Prop := ∀ ch, ch < s.channels.next → s.freed.count ch = 1

omit hd in
/-- What nobody holds any more was freed. -/
theorem freed_of_drained (drained : s.Drained) {ch : ChannelId} (lt : ch < s.channels.next)
    (unowned : ch ∉ s.freed → ch ∉ s.contextChannels) : s.freed.count ch = 1 := by
  have exact := drained.inv.exact ch
  rw [held, drained.locals, drained.heldPairs, if_pos lt] at exact
  simp only [List.count_nil, List.map_nil, List.sum_nil, Nat.zero_add] at exact
  split at exact
  · exact exact
  · rw [List.count_eq_zero.mpr (unowned ‹_›)] at exact
    exact exact

/-- `SessionClose` for the client: `TrapChannel` is freed, and it was the last. -/
theorem allFreed_closeClient (drained : s.Drained)
    (haas : ∀ ch, s.context.haasChannel = some ch → ch ∈ s.freed) :
    Ensures (ownershipTerms w)
      (sessionClose w dispatch (some s.context.trapSession) s.context.trapChannel) s fun _ s' =>
      s'.AllFreed := by
  have disconnect {s : Proxy} (all : s.AllFreed) {session : SessionId} : Ensures (ownershipTerms w)
      (whenSome (some session) (sshDisconnectFree w dispatch)) s fun _ s' => s'.AllFreed := by
    refine ensures_mono (ensures_sshDisconnectFree fun ch lt unfreed => ?_) fun _ s' same => ?_
    · exact absurd (List.count_pos_iff.mp (all ch lt ▸ Nat.one_pos)) unfreed
    · unfold Proxy.AllFreed
      rw [same.channels, same.freed]
      exact all
  cases trap : s.context.trapChannel with
  | none =>
      refine ensures_bind (P := fun _ s' => s = s') (ensures_when (fun some => absurd rfl some)
        fun _ => rfl) ?_
      rintro _ _ rfl
      refine disconnect fun ch lt => freed_of_drained drained lt fun _ mem => ?_
      rw [mem_contextChannels_iff, trap, drained.inv.both.mp trap] at mem
      simp at mem
  | some ch =>
      refine ensures_sessionClose hd drained.inv
        (fun s' h' f' => h'.trapLive ch (f'.trap ch trap)) fun s' h' f' => ?_
      have drained' := f'.drained h' drained
      have trap' := f'.trap ch trap
      have unfreed := h'.trapLive ch trap'
      refine disconnect fun c lt => ?_
      show (ch :: s'.freed).count c = 1
      by_cases same : c = ch
      · subst same
        rw [List.count_cons_self, List.count_eq_zero.mpr unfreed]
      · rw [List.count_cons_of_ne (Ne.symm same)]
        refine freed_of_drained drained' lt fun unfreed mem => ?_
        rcases mem_contextChannels_iff.mp mem with trap'' | haas''
        · exact same (Option.some.inj (trap''.symm.trans trap'))
        · obtain ⟨old, set⟩ : ∃ old, s.context.haasChannel = some old :=
            Option.ne_none_iff_exists'.mp fun none => by
              rw [drained.inv.both.mpr none] at trap
              cases trap
          cases haas''.symm.trans (f'.haas old set)
          exact unfreed (f'.freed c (haas c set))

/-- **The teardown frees what is left**: the pairs of the pool first, then the channels
of the session, each by its only owner. -/
theorem allFreed_teardown (calm : s.Calm) :
    Ensures (ownershipTerms w) (teardown w dispatch fuel) s fun _ s' => s'.AllFreed := by
  refine ensures_bind (calm_enterStage calm) fun _ s calm => ?_
  refine ensures_get_bind (ensures_bind (P := fun _ s' =>
    s'.Drained ∧ s'.LiveIn fun c => c.haasChannel) (ensures_when (fun _ => ?_) fun noPool => ?_) ?_)
  · obtain ⟨id, pointer⟩ := Option.ne_none_iff_exists'.mp ‹s.context.forwardPool ≠ none›
    rw [pointer]
    exact ensures_fwPoolDone hd calm pointer
  · rw [not_not] at noPool
    exact ⟨⟨calm.inv, calm.locals, calm.releasing, fun id some => nomatch noPool.symm.trans some⟩,
      calm.haasLive⟩
  rintro _ s₁ ⟨drained₁, live₁⟩
  refine ensures_get_bind (ensures_bind (drained_closeBackend hd drained₁ live₁) ?_)
  rintro _ s₂ ⟨drained₂, haas₂⟩
  exact ensures_get_bind (allFreed_closeClient hd drained₂ haas₂)

end Teardown

/-! ## `ProxyProcess`

The first state has no channels, so the invariant holds; at the end nobody owns one, so
all were freed. -/

section Process

variable {w : World} {dispatch : Nat → ProxyM Unit} {s : Proxy} {fuel : Nat}

/-- Before the key exchange there are neither channels nor pairs. -/
theorem inv_proxyInitial : Proxy.initial.Inv where
  exact _ := rfl
  live _ _ cell := nomatch cell
  registered _ _ _ cell := nomatch cell
  pool _ _ pointer := nomatch pointer
  distinct := .nil
  allocated _ mem := nomatch mem
  both := Iff.rfl
  trapLive _ trap := nomatch trap

/-- An empty pool becomes the pool of the session. -/
theorem calm_newPool {contents : FwPool (Option PairId)} (calm : s.Calm)
    (noPool : s.context.forwardPool = none) (holds : contents.Holds []) :
    ({ s with
      pools := s.pools.alloc contents
      context := { s.context with forwardPool := some s.pools.next } } : Proxy).Calm := by
  generalize eq : ({ s with
    pools := s.pools.alloc contents
    context := { s.context with forwardPool := some s.pools.next } } : Proxy) = s'
  have cell : s'.pools.cell s.pools.next = some contents := by
    rw [← eq]
    exact s.pools.cell_alloc_self
  have pointer : s'.context.forwardPool = some s.pools.next := by rw [← eq]
  have releasing : s'.releasing = s.releasing := by rw [← eq]
  -- there was no pool, and the new one is empty
  have held : s'.heldPairs = s.heldPairs := by
    rw [heldPairs_eq pointer cell holds, releasing, Proxy.heldPairs, items, noPool]
    rfl
  have h := calm.inv
  refine
    { inv := ⟨fun ch => ?_, ?_, fun ch c p => ?_, fun id pool pointer' cell' => ?_, ?_, ?_, ?_, ?_⟩
      locals := ?_
      releasing := releasing.trans calm.releasing
      alive := fun id pointer' gone => ?_
      haasLive := ?_ }
  · have exact := h.exact ch
    rw [Proxy.held] at exact ⊢
    rw [held, ← eq]
    exact exact
  · rw [← eq]
    exact h.live
  · rw [held, ← eq]
    exact h.registered ch c p
  · cases pointer.symm.trans pointer'
    cases cell.symm.trans cell'
    exact ⟨[], holds⟩
  · rw [held]
    exact h.distinct
  · rw [held, ← eq]
    exact h.allocated
  · rw [← eq]
    exact h.both
  · rw [← eq]
    exact h.trapLive
  · rw [← eq]
    exact calm.locals
  · cases pointer.symm.trans pointer'
    cases cell.symm.trans gone
  · rw [← eq]
    exact calm.haasLive

/-- `FwPoolInit` in a state without a pool. -/
theorem calm_poolInit (calm : s.Calm) (noPool : s.context.forwardPool = none) :
    CalmGoes w (do
      let pool ← poolInit w
      modifyContext fun c => { c with forwardPool := pool }) s := by
  have allocated : Goes w [] (allocate w .fwPool) s := goes_allocate calm.inv
  refine ensures_bind (P := fun pool s' => ({ s' with
    context := { s'.context with forwardPool := pool } } : Proxy).Calm) ?_ fun _ _ calm =>
      ensures_modify calm
  refine ensures_bind allocated ?_
  rintro granted s₁ ⟨h₁, f₁⟩
  have calm₁ := f₁.calm h₁ calm
  have noPool₁ : s₁.context.forwardPool = none := f₁.forwardPool.trans noPool
  refine ensures_gets_bind ?_
  split
  · have same : Same s₁ { s₁ with context := { s₁.context with forwardPool := none } } := by
      constructor <;> first | rfl | exact noPool₁.symm
    exact ensures_pure ((same.frame []).calm (same.inv h₁) calm₁)
  · rename_i contents init
    refine ensures_modify_bind (ensures_pure ?_)
    exact calm_newPool calm₁ noPool₁ (FwPool.holds_of_init init)

variable (hd : ∀ t, Keeps w (dispatch t))

include hd

/-- **Of the whole of `ProxyProcess`**, every channel was freed when it returns. -/
theorem allFreed_proxyProcess :
    Ensures (ownershipTerms w) (proxyProcess w dispatch fuel) Proxy.initial fun _ s' =>
      s'.AllFreed := by
  have calm : Proxy.initial.Calm := ⟨inv_proxyInitial, rfl, rfl, nofun, nofun⟩
  refine ensures_bind (calm_when calm fun _ => calm_poolInit calm rfl) fun _ s₁ calm₁ => ?_
  refine ensures_get_bind (ensures_bind ((goes_sessionCall hd rfl calm₁.inv).calm calm₁)
    fun i s₂ calm₂ => ?_)
  exact ensures_bind (calm_when calm₂ fun _ => calm_serve hd calm₂) fun _ s₃ calm₃ =>
    allFreed_teardown hd calm₃

end Process

/-- **Channel ownership**: in a run that is harmless and whose pairs are
allocated, no call is about a freed channel, every channel has one owner from
when it is obtained to when it is freed, and at the end every channel was freed
exactly once. -/
theorem channels_owned (w : World) (fuel depth : Nat)
    (harmless : ∀ e ∈ (proxyRun w fuel depth).log, Harmless e)
    (allocated : ∀ e ∈ (proxyRun w fuel depth).log, PairAllocated e) :
    (∀ e ∈ (proxyRun w fuel depth).log, Lawful e) ∧
      ((proxyRun w fuel depth).value = .ok () → (proxyRun w fuel depth).state.AllFreed) ∧
      ∀ e, (proxyRun w fuel depth).value = .error e →
        e = .exhausted ∨ e = .fault .nullPointer ∧ w.config.haasToken = none := by
  have ensured : Ensures (ownershipTerms w) (proxyProcess w (dispatchWithin w depth) fuel) _ _ :=
    allFreed_proxyProcess (keeps_dispatchWithin w depth)
  obtain ⟨lawful, ends⟩ := ensured fun e mem => ⟨harmless e mem, allocated e mem⟩
  refine ⟨lawful, fun ok => ?_, fun e stopped => ?_⟩
  · rw [← proxyRun, ok] at ends
    exact ends
  · rw [← proxyRun, stopped] at ends
    exact ends

/-- A session with a forward that the client closes before it closes the
session. -/
def forwardAndClose : World :=
  .scripted .allow [(13, 2)]
    [(6, loginAndChannel), (31, [requestForward]), (50, [.channel 2 .close]),
      (68, [.channel 0 .close])]

/-- The conditions can be met: a client that opens a forward and closes it. -/
theorem channels_owned_forwardAndClose :
    (∀ e ∈ (proxyRun forwardAndClose 5 1).log, Lawful e) ∧
      ((proxyRun forwardAndClose 5 1).value = .ok () →
        (proxyRun forwardAndClose 5 1).state.AllFreed) ∧
      ∀ e, (proxyRun forwardAndClose 5 1).value = .error e → e = .exhausted ∨
        e = .fault .nullPointer ∧ forwardAndClose.config.haasToken = none :=
  channels_owned forwardAndClose 5 1 (by decide +kernel) (by decide +kernel)

/-- The backend refuses the forward. -/
def refusedForward : World :=
  .scripted .allow [(13, 2), (33, sshError)]
    [(6, loginAndChannel), (31, [requestForward, .channel 0 .close])]

/-- When the backend refuses, `DstChannel` is freed where the refusal is noticed
and closed and freed once more under `if (Close)`. -/
theorem refusedForward_freedTwice :
    (∀ e ∈ (proxyRun refusedForward 5 1).log, PairAllocated e) ∧
      (proxyRun refusedForward 5 1).value.isOk ∧
      (proxyRun refusedForward 5 1).state.freed.count 2 = 2 ∧
      ∃ e ∈ (proxyRun refusedForward 5 1).log, e.action = .call (.close 2) ∧
        2 ∈ e.before.freed := by
  decide +kernel

end HaasProxy
