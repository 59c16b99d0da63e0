import HaasProxy.Session

/-!
# Forwards (`fw_pair.c`, the pool of a session, `HandleForwards`)

Pairs and the pool live on the heap.  `FwPoolAdd` and the other pool functions
are those of `HaasProxy.FwPool`, applied to the pool a pointer designates; its
items are pointers to pairs.

Releasing a pair closes its channels, and closing a channel may deliver
callbacks: everything here may be interrupted by an addition to the pool or by a
pair being marked as closed.

## Design notes

* A pair is read again after every call that may be interrupted.  The source does the
  same, since it holds a pointer; what it read before the call may have changed.
* `FwPairRelease` takes the context away from the pair first.  From then on the
  callbacks of its channels answer without touching it, and this is all that protects a
  pair that is being taken apart.
* `FwPoolDone` goes through the slots by index and `HandleForwards` searches for a closed
  pair each time.  An addition meanwhile is appended, so both still get to it.
-/

namespace HaasProxy

open Traced

/-! ## Pairs -/

/-- The two ends of a pair. -/
inductive End where
  | source
  | destiny
  deriving DecidableEq

/-- `FwEndpointInit`. -/
def fwEndpointInit : FwEndpoint := { addr := none, port := 0, channel := none }

namespace FwPair

def endpoint (pair : FwPair) : End → FwEndpoint
  | .source => pair.source
  | .destiny => pair.destiny

def setEndpoint (pair : FwPair) (e : End) (endpoint : FwEndpoint) : FwPair :=
  match e with
  | .source => { pair with source := endpoint }
  | .destiny => { pair with destiny := endpoint }

@[simp] theorem endpoint_setEndpoint (pair : FwPair) (e : End) (endpoint : FwEndpoint) :
    (pair.setEndpoint e endpoint).endpoint e = endpoint := by
  cases e <;> rfl

theorem endpoint_setEndpoint_of_ne (pair : FwPair) {e e' : End} (endpoint : FwEndpoint)
    (ne : e' ≠ e) : (pair.setEndpoint e endpoint).endpoint e' = pair.endpoint e' := by
  cases e <;> cases e' <;> first | rfl | exact absurd rfl ne

end FwPair

/-- Read a pair. -/
def loadPair (p : PairId) : ProxyM FwPair := do
  let s ← get
  orFault (s.pairs.load p)

/-- Change a pair. -/
def modifyPair (p : PairId) (f : FwPair → FwPair) : ProxyM Unit := do
  let pair ← loadPair p
  modify fun s => { s with pairs := s.pairs.store p (f pair) }

section Pairs

variable {s : Proxy} {p : PairId} {pair : FwPair}

theorem run_loadPair (cell : s.pairs.cell p = some pair) : loadPair p s = ⟨[], s, .ok pair⟩ :=
  run_orFault (s.pairs.load_of_cell cell)

theorem run_loadPair_of_none (freed : s.pairs.cell p = none) :
    loadPair p s = ⟨[], s, .error (.fault .useAfterFree)⟩ :=
  run_orFault_error (by rw [Heap.load, freed])

theorem run_modifyPair {f : FwPair → FwPair} (cell : s.pairs.cell p = some pair) :
    modifyPair p f s = ⟨[], { s with pairs := s.pairs.store p (f pair) }, .ok ()⟩ :=
  bind_of_ok (run_loadPair cell)

end Pairs

/-- Change one end of a pair. -/
def modifyEndpoint (p : PairId) (e : End) (f : FwEndpoint → FwEndpoint) : ProxyM Unit :=
  modifyPair p fun pair => pair.setEndpoint e (f (pair.endpoint e))

section Source

variable (w : World) (dispatch : Nat → ProxyM Unit)

/-- `FwEndpointDone(&Pair->Source)` and `FwEndpointDone(&Pair->Destiny)`. -/
def fwEndpointDone (p : PairId) (e : End) : ProxyM Unit := do
  modifyEndpoint p e fun endpoint => { endpoint with addr := none, port := 0 }
  let pair ← loadPair p
  when ((pair.endpoint e).channel ≠ none) do
    let isOpen ← onChannel w dispatch (pair.endpoint e).channel .isOpen
    when (isOpen ≠ 0) do
      let _ ← onChannel w dispatch (pair.endpoint e).channel .close
    let pair ← loadPair p
    sshChannelFree w dispatch (pair.endpoint e).channel
    modifyEndpoint p e fun endpoint => { endpoint with channel := none }

/-- `FwPairAlloc`. -/
def fwPairAlloc : ProxyM (Option PairId) := do
  let granted ← allocate w .fwPair
  let p ← gets fun s => s.pairs.next
  when granted do
    modify fun s =>
      { s with
        pairs := s.pairs.alloc
          { context := none
            closed := false
            source := fwEndpointInit
            destiny := fwEndpointInit
            userdata := p } }
  pure (if granted then some p else none)

/-- `FwPairRelease`, of a pair that is not `NULL`. -/
def fwPairRelease (p : PairId) : ProxyM Unit := do
  tell fun s => ⟨s, .release p, 0⟩
  modifyPair p fun pair => { pair with context := none, closed := false }
  fwEndpointDone w dispatch p .source
  fwEndpointDone w dispatch p .destiny
  modify fun s => { s with pairs := s.pairs.free p }

/-! ## The pool

Each function reads the pool through the pointer, applies the generic one, and writes the
result back.  Nothing can happen in between, as none of them calls libssh. -/

/-- The pool a pointer designates. -/
def loadPool (pool : Option PoolId) : ProxyM (Option (FwPool (Option PairId))) :=
  match pool with
  | none => pure none
  | some id => do
      let s ← get
      let pool ← orFault (s.pools.load id)
      pure (some pool)

/-- Write a pool back. -/
def storePool (pool : Option PoolId) (contents : Option (FwPool (Option PairId))) :
    ProxyM Unit :=
  match pool, contents with
  | some id, some contents => modify fun s => { s with pools := s.pools.store id contents }
  | _, _ => pure ()

/-- `FwPoolInit` for the context. -/
def poolInit : ProxyM (Option PoolId) := do
  let granted ← allocate w .fwPool
  let id ← gets fun s => s.pools.next
  match fwPoolInit granted with
  | none => pure none
  | some contents => do
      modify fun s => { s with pools := s.pools.alloc contents }
      pure (some id)

/-- `FwPoolCount` on the pool of a session. -/
def poolCount (pool : Option PoolId) : ProxyM Int := do
  let contents ← loadPool pool
  pure (fwPoolCount contents)

/-- `FwPoolGet` on the pool of a session: a pair or `NULL`. -/
def poolGet (pool : Option PoolId) (index : Int) : ProxyM (Option PairId) := do
  let contents ← loadPool pool
  let item ← orFault (fwPoolGet contents index)
  pure item.join

/-- `FwPoolAdd` on the pool of a session; only a full pool calls `realloc`. -/
def poolAdd (pool : Option PoolId) (item : Option PairId) : ProxyM Int := do
  let contents ← loadPool pool
  let granted ← (if contents.any (fun pool => pool.IsFull) then allocate w .items else pure true)
  let (index, contents) ← orFault (fwPoolAdd granted item contents)
  storePool pool contents
  pure index

/-- `FwPoolRemove` on the pool of a session. -/
def poolRemove (pool : Option PoolId) (index : Int) : ProxyM Int := do
  let contents ← loadPool pool
  let (removed, contents) ← orFault (fwPoolRemove index contents)
  storePool pool contents
  pure removed

/-- `Item!=NULL` and `Item->Closed`. -/
def Proxy.itemClosed (s : Proxy) : Option PairId → Except Fault Bool
  | none => .ok false
  | some p => (s.pairs.load p).map fun pair => pair.closed

/-- `FwPoolFindClosed` on the pool of a session. -/
def poolFindClosed (pool : Option PoolId) : ProxyM Int := do
  let contents ← loadPool pool
  let s ← get
  orFault (fwPoolFindClosed s.itemClosed contents)

/-- The loop of `FwPoolDone`, from slot `i` on. -/
def poolDoneStep (id : PoolId) (i : Nat) : ProxyM (Nat ⊕ Unit) := do
  let pool ← loadPool (some id)
  match pool with
  | none => pure (.inr ())
  | some pool =>
      if i < pool.used then do
        let item ← orFault (pool.load i)
        whenSome item fun p => do
          fwPairRelease w dispatch p
          -- Pool->Items[i]=NULL;
          let s ← get
          let pool ← orFault (s.pools.load id)
          let pool ← orFault (pool.store i none)
          storePool (some id) (some pool)
        pure (.inl (i + 1))
      else pure (.inr ())

/-- `FwPoolDone`. -/
def fwPoolDone (fuel : Nat) (pool : Option PoolId) : ProxyM Unit :=
  match pool with
  | none => pure ()
  | some id => do
      let s ← get
      let contents ← orFault (s.pools.load id)
      when (contents.items ≠ none) do
        loop .exhausted (poolDoneStep w dispatch id) fuel 0
      modify fun s => { s with pools := s.pools.free id }

/-! ## `HandleForwards` -/

/-- The part of the first loop of `HandleForwards` about one end of a pair. -/
def pollEndpoint (p : PairId) (e : End) : ProxyM Unit := do
  let pair ← loadPair p
  when ((pair.endpoint e).channel ≠ none) do
    let len ← onChannel w dispatch (pair.endpoint e).channel .poll
    when (len = sshEof) do
      modifyPair p fun pair => { pair with closed := true }

/-- The first loop of `HandleForwards`, for one index. -/
def pollForward (i : Nat) : ProxyM Unit := do
  let s ← get
  let pair ← poolGet s.context.forwardPool i
  whenSome pair fun p => do
    pollEndpoint w dispatch p .source
    pollEndpoint w dispatch p .destiny

/-- The second loop of `HandleForwards`: release one closed pair. -/
def reapForward : ProxyM (Unit ⊕ Unit) := do
  let s ← get
  let index ← poolFindClosed s.context.forwardPool
  if index < 0 then pure (.inr ())
  else do
    let pair ← poolGet s.context.forwardPool index
    let _ ← poolRemove s.context.forwardPool index
    whenSome pair fun p => do
      modify fun s => { s with releasing := p :: s.releasing }
      fwPairRelease w dispatch p
      modify fun s => { s with releasing := s.releasing.tail }
    pure (.inl ())

/-- `HandleForwards`. -/
def handleForwards (fuel : Nat) : ProxyM Unit := do
  let s ← get
  let count ← poolCount s.context.forwardPool
  when (0 < count) do
    each (List.range count.toNat) (pollForward w dispatch)
    loop .exhausted (fun _ => reapForward w dispatch) fuel ()

end Source

end HaasProxy
