import HaasProxy.Composition
import HaasProxy.Lib.Yields
import HaasProxy.Reentry

/-!
# Every pair is released once (`fw_pair.c`, `fw_pool.c`, `proxy.c`)

A pair is allocated when a forward is opened.  If it does not get into the pool it is
released at once; otherwise it leaves the pool when it is closed, and what is left in
the end goes with the pool.

`Accounts` relates two states of a run: so many pairs were freed as were released on the
way, and none is `Loose`, allocated but not in the pool, that was not so before.
Callbacks besides leave in the pool what is there (`Extends`).  Nothing is assumed of
the pairs: a run in which one is released twice does not come to its end.

## Main definitions and results

* `Loose`, `Ordered` — a pair nobody can reach, and pools in order;
* `Accounts`, `Extends` — what a part of a run leaves;
* `composed_extending`, `composed_accounting` — programs that change no pair and no pool;
* `extending_forwardRegister`, `accounting_reapForward` — a pair comes, and goes;
* `yields_poolDoneStep`, `yields_fwPoolDone` — the pool is taken down;
* `releases_proxyRun` — the result.

## Design notes

**The account is an equation.**  For each pair, what was released on the way and what was
gone before is what is gone in the end.  `gone` is 0 or 1, so no pair is released twice, and
equations of two parts of a run add up to that of the whole.

**No premise about callbacks.**  A callback that has nothing to do with pairs keeps the account
because it is composed of commands that do.  The functions that make, store, take out and
release a pair are the only ones looked at.

**Where it would go wrong.**  A pair that was released twice is loaded when it is gone, and that
stops the run.  So the result is about runs that come to their end, and says of those that it did
not happen.
-/

namespace HaasProxy

open Traced

/-! ## The account of the pairs

Of two states and the log between them. -/

namespace Proxy

variable (s : Proxy)

/-- 1 for a pair that was allocated and freed. -/
def gone (p : PairId) : Nat := if p < s.pairs.next ∧ s.pairs.cell p = none then 1 else 0

/-- The pair is allocated, but not in the pool of the session. -/
def Loose (p : PairId) : Prop := s.pairs.cell p ≠ none ∧ p ∉ s.items

/-- The pools are in order. -/
def Ordered : Prop := ∀ id pool, s.pools.cell id = some pool → ∃ xs, pool.Holds xs

end Proxy

/-- **What a part of a run leaves**, by its log: so many pairs were freed as were released, and
none is loose that was not so before. -/
structure Accounts (s : Proxy) (l : List Entry) (s' : Proxy) : Prop where
  /-- What was freed in the end was freed before, or released on the way, once each. -/
  balanced : ∀ p, (releases l).count p + s.gone p = s'.gone p
  /-- Every new pair is in the pool, or was freed. -/
  loose : ∀ p, s'.Loose p → s.Loose p
  /-- The pools are in order. -/
  ordered : s'.Ordered
  /-- The session keeps its pool. -/
  pointer : s'.context.forwardPool = s.context.forwardPool
  /-- A pool that is gone does not come back. -/
  missing : ∀ id, s.pools.cell id = none → s'.pools.cell id = none

/-- Besides, what was in a pool is still there. -/
structure Extends (s : Proxy) (l : List Entry) (s' : Proxy) : Prop extends Accounts s l s' where
  /-- Items are appended only. -/
  pool : ∀ id pool xs, s.pools.cell id = some pool → pool.Holds xs →
    ∃ pool' ys, s'.pools.cell id = some pool' ∧ pool'.Holds (xs ++ ys)

section Accounts

variable {s s' s'' : Proxy} {l l' : List Entry} {p : PairId} {pair : FwPair}

theorem gone_of_pairs (same : s'.pairs = s.pairs) (p : PairId) : s'.gone p = s.gone p := by
  rw [Proxy.gone, Proxy.gone, same]

theorem gone_of_cell (cell : s.pairs.cell p = some pair) : s.gone p = 0 := by
  rw [Proxy.gone, cell, if_neg (by simp)]

/-- A pair is overwritten. -/
private theorem gone_store (cell : s.pairs.cell p = some pair) (new : FwPair) (q : PairId) :
    ({ s with pairs := s.pairs.store p new } : Proxy).gone q = s.gone q := by
  by_cases same : q = p
  · subst same
    rw [gone_of_cell cell, gone_of_cell (s.pairs.cell_store_self cell)]
  · simp only [Proxy.gone, Heap.next_store, s.pairs.cell_store_of_ne same]

/-- A pair is freed. -/
private theorem gone_free (cell : s.pairs.cell p = some pair) (q : PairId) :
    ({ s with pairs := s.pairs.free p } : Proxy).gone q = [p].count q + s.gone q := by
  by_cases same : q = p
  · subst same
    have below := s.pairs.lt_next_of_cell cell
    rw [gone_of_cell cell, List.count_singleton_self, Proxy.gone, if_pos]
    exact ⟨below, s.pairs.cell_free_self⟩
  · rw [List.count_singleton, if_neg (by simpa using Ne.symm same), Nat.zero_add]
    simp only [Proxy.gone, Heap.next_free, s.pairs.cell_free_of_ne same]

/-- A pair is allocated. -/
private theorem gone_alloc (pair : FwPair) (q : PairId) :
    ({ s with pairs := s.pairs.alloc pair } : Proxy).gone q = s.gone q := by
  by_cases same : q = s.pairs.next
  · subst same
    rw [gone_of_cell (s := { s with pairs := s.pairs.alloc pair }) s.pairs.cell_alloc_self,
      Proxy.gone, if_neg (by simp)]
  · simp only [Proxy.gone, Heap.next_alloc, s.pairs.cell_alloc_of_ne same]
    refine if_congr (and_congr_left fun _ => ?_) rfl rfl
    exact ⟨fun lt => Nat.lt_of_le_of_ne (Nat.le_of_lt_succ lt) same, Nat.lt_succ_of_lt⟩

/-- A pool is overwritten. -/
theorem Proxy.Ordered.store {id : PoolId} {pool' : FwPool (Option PairId)}
    {ys : List (Option PairId)}
    (ordered : s.Ordered) (holds : pool'.Holds ys) :
    ({ s with pools := s.pools.store id pool' } : Proxy).Ordered := by
  intro id' contents there
  by_cases same : id' = id
  · subst same
    cases before : s.pools.cell id' with
    | none => cases (s.pools.cell_store_of_none before).symm.trans there
    | some pool =>
        cases (s.pools.cell_store_self before).symm.trans there
        exact ⟨ys, holds⟩
  · exact ordered id' contents ((s.pools.cell_store_of_ne same).symm.trans there)

namespace Accounts

theorem trans (first : Accounts s l s') (next : Accounts s' l' s'') : Accounts s (l ++ l') s'' where
  balanced p := by
    rw [releases_append, List.count_append, ← next.balanced p, ← first.balanced p]
    omega
  loose p lost := first.loose p (next.loose p lost)
  ordered := next.ordered
  pointer := next.pointer.trans first.pointer
  missing id none := next.missing id (first.missing id none)

end Accounts

namespace Extends

theorem trans (first : Extends s l s') (next : Extends s' l' s'') : Extends s (l ++ l') s'' where
  toAccounts := first.toAccounts.trans next.toAccounts
  pool id pool xs cell holds := by
    obtain ⟨pool', ys, cell', holds'⟩ := first.pool id pool xs cell holds
    obtain ⟨pool'', zs, cell'', holds''⟩ := next.pool id pool' _ cell' holds'
    exact ⟨pool'', ys ++ zs, cell'', by rwa [List.append_assoc] at holds''⟩

/-- No pair is released and no pool changes. -/
theorem of_pools (ordered : s.Ordered) (quiet : releases l = []) (gone : ∀ p, s'.gone p = s.gone p)
    (alive : ∀ p, s'.pairs.cell p ≠ none → s.pairs.cell p ≠ none) (pools : s'.pools = s.pools)
    (pointer : s'.context.forwardPool = s.context.forwardPool) : Extends s l s' where
  balanced p := by rw [quiet, gone, List.count_nil, Nat.zero_add]
  loose p lost := ⟨alive p lost.1, items_of_same pools pointer ▸ lost.2⟩
  ordered id pool cell := ordered id pool (pools ▸ cell)
  pointer := pointer
  missing id none := pools ▸ none
  pool id pool xs cell holds := ⟨pool, [], pools ▸ cell, by rwa [List.append_nil]⟩

/-- Neither a pair nor a pool changes. -/
theorem of_same (ordered : s.Ordered) (quiet : releases l = []) (pairs : s'.pairs = s.pairs)
    (pools : s'.pools = s.pools) (pointer : s'.context.forwardPool = s.context.forwardPool) :
    Extends s l s' :=
  of_pools ordered quiet (gone_of_pairs pairs) (fun _ alive => pairs ▸ alive) pools pointer

theorem refl (ordered : s.Ordered) : Extends s [] s := of_same ordered rfl rfl rfl rfl

end Extends

end Accounts

/-! ## Programs that keep the account

The smaller judgement, `Extending`, is that of programs that take nothing out of a pool.
All callbacks are of that kind. -/

/-- The program keeps the account, if it returns. -/
def Accounting {α : Type} (m : ProxyM α) : Prop :=
  ∀ s, s.Ordered → Yields m s fun l _ s' => Accounts s l s'

/-- The program leaves in the pools what is there, and keeps the account, if it returns. -/
def Extending {α : Type} (m : ProxyM α) : Prop :=
  ∀ s, s.Ordered → Yields m s fun l _ s' => Extends s l s'

section Programs

variable {w : World} {α β : Type} {m : ProxyM α} {k : α → ProxyM β}

/-- Who leaves the pool as it is keeps accounts as well. -/
theorem Extending.accounting (extending : Extending m) : Accounting m := fun s ordered =>
  yields_mono (extending s ordered) fun _ _ _ extends_ => extends_.toAccounts

theorem extending_bind (first : Extending m) (next : ∀ a, Extending (k a)) :
    Extending (m >>= k) := by
  intro s ordered
  refine yields_bind (first s ordered) fun l a s' extends_ => ?_
  exact yields_mono (next a s' extends_.ordered) fun _ _ _ next => extends_.trans next

/-- The rule of sequence, for programs that may take pairs out of the pool. -/
theorem accounting_bind (first : Accounting m) (next : ∀ a, Accounting (k a)) :
    Accounting (m >>= k) := by
  intro s ordered
  refine yields_bind (first s ordered) fun l a s' accounts => ?_
  exact yields_mono (next a s' accounts.ordered) fun _ _ _ next => accounts.trans next

/-- A program that neither releases anything nor touches a pair or a pool. -/
theorem extending_of_same (quiet : ∀ s, releases (m s).log = [])
    (pairs : ∀ s, (m s).state.pairs = s.pairs) (pools : ∀ s, (m s).state.pools = s.pools)
    (pointer : ∀ s, (m s).state.context.forwardPool = s.context.forwardPool) : Extending m := by
  intro s ordered l s' a run
  have quiet := quiet s
  have pairs := pairs s
  have pools := pools s
  have pointer := pointer s
  rw [run] at quiet pairs pools pointer
  exact .of_same ordered quiet pairs pools pointer

theorem extending_pure (a : α) : Extending (pure a : ProxyM α) :=
  extending_of_same (fun _ => rfl) (fun _ => rfl) (fun _ => rfl) fun _ => rfl

theorem extending_idleTimerReset : Extending (idleTimerReset w) :=
  extending_of_same (fun _ => rfl) (fun _ => rfl) (fun _ => rfl) fun _ => rfl

/-- A session is taken into the event, and callbacks may be made. -/
theorem extending_eventAddSession {dispatch : Nat → ProxyM Unit} {session : Option SessionId} :
    Extending (call w dispatch (.eventAddSession session)) := by
  intro s ordered
  exact yields_of_run (run_callWith (by exact id)) (.of_same ordered rfl rfl rfl rfl)

/-- The records of the channels are no pairs either. -/
private theorem extending_updateChannel (ch : ChannelId) (f : Channel → Channel) :
    Extending (modify fun s => s.updateChannel ch f) := by
  have same (s : Proxy) : (s.updateChannel ch f).pairs = s.pairs ∧
      (s.updateChannel ch f).pools = s.pools ∧
      (s.updateChannel ch f).context.forwardPool = s.context.forwardPool := by
    unfold Proxy.updateChannel
    split <;> exact ⟨rfl, rfl, rfl⟩
  exact extending_of_same (fun _ => rfl) (fun s => (same s).1) (fun s => (same s).2.1)
    fun s => (same s).2.2

/-- A pair is changed and stays allocated. -/
theorem yields_modifyPair {p : PairId} {f : FwPair → FwPair} {s : Proxy} (ordered : s.Ordered) :
    Yields (modifyPair p f) s fun l _ s' => Extends s l s' ∧ ∃ pair, s'.pairs.cell p = some pair := by
  rcases run_modifyPair_cases p f s with run | ⟨pair, cell, run⟩
  · exact yields_of_error run
  · refine yields_of_run run ⟨?_, f pair, s.pairs.cell_store_self cell⟩
    refine .of_pools ordered rfl (gone_store cell (f pair)) (fun q alive => ?_) rfl rfl
    by_cases same : q = p
    · subst same
      exact Option.ne_none_iff_exists'.mpr ⟨pair, cell⟩
    · rwa [s.pairs.cell_store_of_ne same] at alive

/-- **What the functions of the proxy do** leaves the pools in order, where these do not take
out pairs. -/
theorem composed_extending (w : World) : Composed w (fun _ => Extending) fun _ => Extending where
  pure := extending_pure
  bind := extending_bind
  get := extending_of_same (fun _ => rfl) (fun _ => rfl) (fun _ => rfl) fun _ => rfl
  fault _ _ _ := yields_of_error rfl
  nextTick := extending_of_same (fun _ => rfl) (fun _ => rfl) (fun _ => rfl) fun _ => rfl
  modify aside := extending_of_same (fun _ => rfl) (fun s => (aside s).pairs)
    (fun s => (aside s).pools) fun s => (aside s).forwardPool
  modifyPair _ _ _ _ ordered := yields_mono (yields_modifyPair ordered) fun _ _ _ => And.left
  alloc _ _ := extending_of_same (fun _ => rfl) (fun _ => rfl) (fun _ => rfl) fun _ => rfl
  call _ _ _ := extending_of_same (fun _ => rfl) (fun _ => rfl) (fun _ => rfl) fun _ => rfl
  returned _ _ := extending_of_same (fun _ => rfl) (fun _ => rfl) (fun _ => rfl) fun _ => rfl
  reset := extending_idleTimerReset
  before := extending_bind
  after f first := extending_bind first fun a => extending_pure (f a)
  watch next := extending_bind extending_eventAddSession fun _ =>
    extending_bind extending_idleTimerReset fun _ => next

/-- **Composed programs keep accounts**: they change no pair and no pool by themselves. -/
theorem composed_accounting (w : World) :
    Composed w (fun _ => Accounting) fun _ => Accounting where
  pure a := (extending_pure a).accounting
  bind := accounting_bind
  get := (composed_extending w).get.accounting
  fault fault := ((composed_extending w).fault fault).accounting
  nextTick := (composed_extending w).nextTick.accounting
  modify aside := ((composed_extending w).modify aside).accounting
  modifyPair p f keeps := ((composed_extending w).modifyPair p f keeps).accounting
  alloc allocation i := ((composed_extending w).alloc allocation i).accounting
  call c i makes := ((composed_extending w).call c i makes).accounting
  returned c i := ((composed_extending w).returned c i).accounting
  reset := extending_idleTimerReset.accounting
  before := accounting_bind
  after f first := accounting_bind first fun a => (extending_pure (f a)).accounting
  watch next := accounting_bind extending_eventAddSession.accounting fun _ =>
    accounting_bind extending_idleTimerReset.accounting fun _ => next

end Programs

/-! ## A pair is released

The release is noted when it begins, the pair is freed when it ends. In between, callbacks
keep the account of all other pairs. -/

section Release

variable {w : World} {dispatch : Nat → ProxyM Unit} {s s' : Proxy} {l : List Entry} {p : PairId}
  {pair : FwPair}

/-- A pair is freed that was there all the time since it was announced. -/
theorem Extends.release (extends_ : Extends s l s') (cell : s'.pairs.cell p = some pair) :
    Extends s (⟨s, .release p, 0⟩ :: l) { s' with pairs := s'.pairs.free p } where
  balanced q := by
    have split : releases (⟨s, .release p, 0⟩ :: l) = [p] ++ releases l := rfl
    rw [gone_free cell, ← extends_.balanced q, split, List.count_append, Nat.add_assoc]
  loose q lost := by
    obtain ⟨alive, outside⟩ := lost
    refine extends_.loose q ⟨fun none => alive ?_, outside⟩
    by_cases same : q = p
    · exact same ▸ s'.pairs.cell_free_self
    · rwa [s'.pairs.cell_free_of_ne same]
  ordered := extends_.ordered
  pointer := extends_.pointer
  missing := extends_.missing
  pool := extends_.pool

/-- Reading a pair changes nothing. -/
theorem yields_loadPair_bind {α : Type} {k : FwPair → ProxyM α} {Q : List Entry → α → Proxy → Prop}
    (next : ∀ pair, s.pairs.cell p = some pair → Yields (k pair) s Q) :
    Yields (loadPair p >>= k) s Q := by
  cases cell : s.pairs.cell p with
  | none => exact yields_of_error (bind_of_error (run_loadPair_of_none cell))
  | some pair => exact yields_bind_of_ok (run_loadPair cell) (next pair cell)

variable (hd : ∀ t, Extending (dispatch t))

include hd

/-- The end of a pair is taken apart, and the pair is still there. -/
theorem yields_fwEndpointDone {e : End} (ordered : s.Ordered) :
    Yields (fwEndpointDone w dispatch p e) s fun l _ s' =>
      Extends s l s' ∧ ∃ pair, s'.pairs.cell p = some pair := by
  have c := composed_extending w
  refine yields_bind (yields_modifyPair ordered) ?_
  rintro l₁ _ s₁ ⟨extends₁, there⟩
  refine yields_loadPair_bind fun pair _ => yields_when (fun _ => ?_) fun _ => ?_
  · have isOpen : Extending (onChannel w dispatch (pair.endpoint e).channel .isOpen) :=
      composed_onChannel c hd fun _ => ⟨by trivial, rfl⟩
    refine yields_bind (isOpen s₁ extends₁.ordered) fun l₂ isOpen s₂ extends₂ => ?_
    have closes : Extending (when (isOpen ≠ 0) do
        let _ ← onChannel w dispatch (pair.endpoint e).channel .close) :=
      composed_when c fun _ =>
        c.bind (composed_onChannel c hd fun _ => ⟨by trivial, rfl⟩) fun _ => c.pure ()
    refine yields_bind (closes s₂ extends₂.ordered) fun l₃ _ s₃ extends₃ => ?_
    refine yields_loadPair_bind fun pair _ => ?_
    have frees : Extending (sshChannelFree w dispatch (pair.endpoint e).channel) :=
      composed_sshChannelFree c hd
    refine yields_bind (frees s₃ extends₃.ordered) fun l₄ _ s₄ extends₄ => ?_
    refine yields_mono (yields_modifyPair extends₄.ordered) ?_
    rintro l₅ _ s₅ ⟨extends₅, there⟩
    have rest := extends₂.trans (extends₃.trans (extends₄.trans extends₅))
    exact ⟨extends₁.trans rest, there⟩
  · rw [List.append_nil]
    exact ⟨extends₁, there⟩

/-- **A pair is released**, and is gone. -/
theorem yields_fwPairRelease (ordered : s.Ordered) :
    Yields (fwPairRelease w dispatch p) s fun l _ s' =>
      Extends s l s' ∧ s'.pairs.cell p = none := by
  refine yields_tell_bind ?_
  refine yields_bind (yields_modifyPair ordered) ?_
  rintro l₁ _ s₁ ⟨extends₁, -⟩
  refine yields_bind (yields_fwEndpointDone hd extends₁.ordered) ?_
  rintro l₂ _ s₂ ⟨extends₂, -⟩
  refine yields_bind (yields_fwEndpointDone hd extends₂.ordered) ?_
  rintro l₃ _ s₃ ⟨extends₃, pair, cell⟩
  refine yields_of_run rfl ⟨?_, s₃.pairs.cell_free_self⟩
  rw [List.append_nil]
  exact (extends₁.trans (extends₂.trans extends₃)).release cell

end Release

/-! ## A forward is registered

A new pair is either put into the pool or released again, and the account stays balanced
in both cases. -/

section Register

variable {w : World} {dispatch : Nat → ProxyM Unit} {s s' : Proxy} {l l' : List Entry} {p : PairId}
  {pair : FwPair}

/-- What is put into the pool is in it then, if there is one. -/
theorem yields_poolAdd {item : Option PairId} (ordered : s.Ordered) :
    Yields (poolAdd w s.context.forwardPool item) s fun l index s' =>
      Extends s l s' ∧ s'.pairs = s.pairs ∧
        (index ≠ -1 → ∀ p, item = some p → p ∈ s'.items) := by
  rcases run_poolAdd w s.context.forwardPool item s with ⟨l, s', stop, run, -⟩ | ⟨-, run⟩ |
    ⟨id, pool, granted, index, pool', l, t, pointer, cell, added, -, run, entries, -⟩
  · exact yields_of_error run
  · exact yields_of_run run ⟨.refl ordered, rfl, fun added => absurd rfl added⟩
  obtain ⟨xs, holds⟩ := ordered id pool cell
  have holds' := (holds_of_add holds added).1
  have cell' := s.pools.cell_store_self (a := pool') cell
  have quiet : releases l = [] := by
    rw [releases, List.filterMap_eq_nil_iff]
    intro e mem
    rw [(entries e mem).1]
    rfl
  have items : ({ s with tick := t, pools := s.pools.store id pool' } : Proxy).items =
      s.items ++ item.toList := by
    have after : ({ s with tick := t, pools := s.pools.store id pool' } : Proxy).items = _ :=
      items_eq pointer cell' holds'
    rw [after, items_eq pointer cell holds, List.reduceOption_append]
    cases item <;> rfl
  refine yields_of_run run ⟨⟨⟨?_, ?_, ?_, rfl, ?_⟩, ?_⟩, rfl, fun _ p eq => ?_⟩
  · intro p
    rw [quiet, List.count_nil, Nat.zero_add]
    exact (gone_of_pairs rfl p).symm
  · intro p lost
    obtain ⟨alive, outside⟩ := lost
    rw [items, List.mem_append, not_or] at outside
    exact ⟨alive, outside.1⟩
  · exact ordered.store holds'
  · exact fun id' none => s.pools.cell_store_of_none none
  · intro id' contents ys there held
    by_cases same : id' = id
    · subst same
      cases cell.symm.trans there
      exact ⟨pool', _, cell', (holds_of_add held added).1⟩
    · refine ⟨contents, [], (s.pools.cell_store_of_ne same).trans there, ?_⟩
      rwa [List.append_nil]
  · rw [items, eq]
    exact List.mem_append_right _ (List.mem_singleton_self p)

/-- A pair was allocated in front of a part of a run, and in the end it is not loose. -/
theorem Extends.of_alloc (extends_ : Extends { s with pairs := s.pairs.alloc pair } l s')
    (kept : ¬ s'.Loose s.pairs.next) : Extends s l s' where
  balanced q := by rw [← extends_.balanced q, gone_alloc]
  loose q lost := by
    obtain ⟨alive, outside⟩ := extends_.loose q lost
    refine ⟨?_, outside⟩
    have other : q ≠ s.pairs.next := fun same => kept (same ▸ lost)
    rwa [s.pairs.cell_alloc_of_ne other] at alive
  ordered := extends_.ordered
  pointer := extends_.pointer
  missing := extends_.missing
  pool := extends_.pool

variable (hd : ∀ t, Extending (dispatch t))

include hd

/-- **A forward is registered**: the new pair gets into the pool, or is released. -/
theorem extending_forwardRegister : RegistersForwards w (fun _ => Extending) dispatch := by
  have c := composed_extending w
  intro originator originatorPort destination destinationPort src dst s ordered
  have ticked (i : Int) : Extends s [⟨s.tock, .alloc .fwPair, i⟩] s.tock :=
    .of_same ordered rfl rfl rfl rfl
  cases granted : w.granted s.tick with
  | false =>
      -- `NULL` is not added either, or the run ends here
      refine yields_bind_of_ok (run_fwPairAlloc_denied granted) (yields_get_bind ?_)
      refine yields_bind (yields_poolAdd (ticked 0).ordered) ?_
      rintro l index s' ⟨extends_, -⟩
      refine yields_ite (fun _ => yields_of_error rfl) fun _ => yields_pure ?_
      rw [List.append_nil]
      exact (ticked 0).trans extends_
  | true =>
      refine yields_bind_of_ok (run_fwPairAlloc granted) (yields_get_bind ?_)
      generalize eq : s.filling s.channels s.pools (blankPair s.pairs.next) (s.tick + 1) s.locals = s₁
      have ordered₁ : s₁.Ordered := eq ▸ ordered
      refine yields_bind (yields_poolAdd ordered₁) ?_
      rintro l₂ index s₂ ⟨extends₂, -, stored⟩
      have whole {l₃ : List Entry} {s₃ : Proxy} (extends₃ : Extends s₂ l₃ s₃)
          (kept : ¬ s₃.Loose s.pairs.next) :
          Extends s ([⟨s.tock, .alloc .fwPair, 1⟩] ++ (l₂ ++ l₃)) s₃ := by
        have rest := extends₂.trans extends₃
        rw [← eq] at rest
        exact (ticked 1).trans (.of_alloc (s := s.tock) rest kept)
      refine yields_ite (fun added => ?_) fun _ => ?_
      · have inPool := stored added _ rfl
        refine yields_mono ((?_ : Extending _) s₂ extends₂.ordered) fun l₃ _ s₃ extends₃ =>
          whole extends₃ fun lost => (extends₃.loose _ lost).2 inPool
        exact c.bind (c.modifyPair _ _ (by simp)) fun _ =>
          composed_fillPair c hd fun ch => extending_updateChannel ch _
      · refine yields_bind (yields_fwPairRelease hd extends₂.ordered) ?_
        rintro l₃ _ s₃ ⟨extends₃, gone⟩
        refine yields_pure ?_
        rw [List.append_nil]
        exact whole extends₃ fun lost => lost.1 gone

end Register

/-- Callbacks leave in the pools what is there. -/
theorem extending_dispatchWithin (w : World) (depth t : Nat) :
    Extending (dispatchWithin w depth t) := by
  have c := composed_extending w
  have told {f : Proxy → Entry} (quiet : ∀ s, releases [f s] = []) : Extending (tell f) :=
    extending_of_same quiet (fun _ => rfl) (fun _ => rfl) fun _ => rfl
  refine composed_dispatchWithin c (fun _ hd => extending_forwardRegister hd) id
    (fun _ _ _ => told fun _ => rfl) ?_ depth t
  intro cb m body
  apply extending_bind (told fun _ => rfl)
  intro _
  apply extending_bind body
  intro back
  exact extending_bind (told fun _ => rfl) fun _ => extending_pure back

/-! ## A pool is emptied

The loop asks for the number of items in each round.  A callback may add to it, so what it
leaves behind is said of the slots in front of its index only. -/

section Pools

variable {w : World} {dispatch : Nat → ProxyM Unit} {s s₁ s' : Proxy} {l : List Entry}
  {p : PairId} {id : PoolId} {pool pool' : FwPool (Option PairId)} {xs ys : List (Option PairId)}

theorem yields_orFault_bind {α β : Type} {x : Except Fault α} {k : α → ProxyM β}
    {Q : List Entry → β → Proxy → Prop} (next : ∀ a, x = .ok a → Yields (k a) s Q) :
    Yields (orFault x >>= k) s Q := by
  cases x with
  | error fault => exact yields_of_error (bind_of_error rfl)
  | ok a => exact yields_bind_of_ok rfl (next a rfl)

/-- A value or a fault; in a run that comes to its end it was a value. -/
theorem yields_orFault {α : Type} {x : Except Fault α} {Q : List Entry → α → Proxy → Prop}
    (post : ∀ a, x = .ok a → Q [] a s) : Yields (orFault x) s Q := by
  cases x with
  | error fault => exact yields_of_error rfl
  | ok a => exact yields_of_run rfl (post a rfl)

/-- Reading a pool changes nothing. -/
theorem yields_loadPool_bind {β : Type} {k : Option (FwPool (Option PairId)) → ProxyM β}
    {Q : List Entry → β → Proxy → Prop}
    (next : ∀ pool, s.pools.cell id = some pool → Yields (k (some pool)) s Q) :
    Yields (loadPool (some id) >>= k) s Q := by
  unfold loadPool
  rw [bind_assoc]
  refine yields_get_bind ?_
  rw [bind_assoc]
  exact yields_orFault_bind fun pool loaded =>
    yields_bind_of_ok rfl (next pool (s.pools.cell_of_load loaded))

/-- A part of a run before which something was taken out of a pool, which is not loose in the
end. -/
theorem Extends.of_remove (extends_ : Extends s₁ l s') (pairs : s₁.pairs = s.pairs)
    (pointer : s₁.context.forwardPool = s.context.forwardPool)
    (missing : ∀ id, s.pools.cell id = none → s₁.pools.cell id = none)
    (out : ∀ q, s'.Loose q → q ∈ s.items → q ∈ s₁.items) : Accounts s l s' where
  balanced q := by rw [← extends_.balanced q, gone_of_pairs pairs]
  loose q lost := by
    obtain ⟨alive, outside⟩ := extends_.loose q lost
    exact ⟨pairs ▸ alive, fun inPool => outside (out q lost inPool)⟩
  ordered := extends_.ordered
  pointer := extends_.pointer.trans pointer
  missing id none := extends_.missing id (missing id none)

/-- A pool is overwritten after a part of a run, and nothing that is allocated leaves it. -/
theorem Accounts.store (accounts : Accounts s l s₁) (holds : pool'.Holds ys)
    (kept : ∀ q, s₁.pairs.cell q ≠ none → q ∈ s₁.items →
      q ∈ ({ s₁ with pools := s₁.pools.store id pool' } : Proxy).items) :
    Accounts s l { s₁ with pools := s₁.pools.store id pool' } where
  balanced q := accounts.balanced q
  loose q lost := accounts.loose q ⟨lost.1, fun inPool => lost.2 (kept q lost.1 inPool)⟩
  ordered := accounts.ordered.store holds
  pointer := accounts.pointer
  missing id' none := s₁.pools.cell_store_of_none (accounts.missing id' none)

/-- A pool is freed after a part of a run that has left nothing in the one of the session. -/
theorem Accounts.free (accounts : Accounts s l s₁) (nothing : s₁.items = []) :
    Accounts s l { s₁ with pools := s₁.pools.free id } where
  balanced q := accounts.balanced q
  loose q lost := accounts.loose q ⟨lost.1, by rw [nothing]; exact List.not_mem_nil⟩
  ordered id' contents there := by
    by_cases same : id' = id
    · subst same
      cases s₁.pools.cell_free_self.symm.trans there
    · exact accounts.ordered id' contents ((s₁.pools.cell_free_of_ne same).symm.trans there)
  pointer := accounts.pointer
  missing id' none := by
    by_cases same : id' = id
    · exact same ▸ s₁.pools.cell_free_self
    · exact (s₁.pools.cell_free_of_ne same).trans (accounts.missing id' none)

variable (hd : ∀ t, Extending (dispatch t))

/-- What `FwPoolGet` reads is what `FwPoolRemove` takes out. -/
theorem removed_of_get {index removed : Int} {item : Option (Option PairId)}
    {contents : Option (FwPool (Option PairId))} (holds : pool.Holds xs)
    (get : fwPoolGet (some pool) index = .ok item)
    (remove : fwPoolRemove index (some pool) = .ok (removed, contents)) :
    ∃ pool' ys, contents = some pool' ∧ pool'.Holds ys ∧
      xs.reduceOption.Perm (item.join.toList ++ ys.reduceOption) := by
  by_cases valid : 0 ≤ index ∧ index < xs.length
  · obtain ⟨k, rfl⟩ := Int.eq_ofNat_of_zero_le valid.1
    have hk : k < xs.length := by omega
    rw [fwPoolGet_eq holds, List.getElem?_eq_getElem hk] at get
    cases get
    obtain ⟨pool', eq, holds'⟩ := fwPoolRemove_eq holds hk
    cases eq.symm.trans remove
    refine ⟨pool', _, rfl, holds', ?_⟩
    have moved := (swapRemove_perm hk).filterMap fun item => item
    cases item : xs[k] with
    | none =>
        rw [item] at moved
        exact moved
    | some p =>
        rw [item] at moved
        exact moved
  · have invalid : index < 0 ∨ (xs.length : Int) ≤ index := by omega
    cases (fwPoolGet_invalid holds invalid).symm.trans get
    cases (fwPoolRemove_invalid holds invalid).symm.trans remove
    exact ⟨pool, xs, rfl, holds, .refl _⟩

include hd

/-- **A closed pair leaves the pool** and is released. -/
theorem accounting_reapForward : Accounting (reapForward w dispatch) := by
  intro s ordered
  refine yields_get_bind ?_
  cases pointer : s.context.forwardPool with
  | none => exact yields_of_run rfl (Extends.refl ordered).toAccounts
  | some id =>
      have found : Yields (poolFindClosed (some id)) s fun l _ s' => l = [] ∧ s' = s :=
        yields_loadPool_bind fun pool _ => yields_get_bind (yields_orFault fun _ _ => ⟨rfl, rfl⟩)
      refine yields_bind found ?_
      rintro _ index s ⟨rfl, rfl⟩
      refine yields_ite (fun _ => yields_pure (Extends.refl ordered).toAccounts) fun _ => ?_
      have got : Yields (poolGet (some id) index) s fun l pair s' => l = [] ∧ s' = s ∧
          ∃ pool item, s.pools.cell id = some pool ∧ fwPoolGet (some pool) index = .ok item ∧
            pair = item.join :=
        yields_loadPool_bind fun pool cell => yields_orFault_bind fun item got =>
          yields_pure ⟨rfl, rfl, pool, item, cell, got, rfl⟩
      refine yields_bind got ?_
      rintro _ _ s ⟨rfl, rfl, pool, item, cell, got, rfl⟩
      obtain ⟨xs, holds⟩ := ordered id pool cell
      have removed : Yields (poolRemove (some id) index) s fun l _ s' => ∃ pool' ys, l = [] ∧
          s' = { s with pools := s.pools.store id pool' } ∧ pool'.Holds ys ∧
            xs.reduceOption.Perm (item.join.toList ++ ys.reduceOption) := by
        refine yields_loadPool_bind fun pool'' cell'' => yields_orFault_bind ?_
        rintro ⟨removed, contents⟩ remove
        cases cell.symm.trans cell''
        obtain ⟨pool', ys, rfl, holds', perm⟩ := removed_of_get holds got remove
        exact yields_of_run rfl ⟨pool', ys, rfl, rfl, holds', perm⟩
      refine yields_bind removed ?_
      rintro _ _ _ ⟨pool', ys, rfl, rfl, holds', perm⟩
      -- the pool has lost at most the item at the index
      have left {s₁ : Proxy} {q : PairId} (pools : s₁.pools = s.pools.store id pool')
          (same : s₁.context.forwardPool = some id) (mem : q ∈ ys.reduceOption) : q ∈ s₁.items := by
        rwa [items_eq same (pools ▸ s.pools.cell_store_self cell) holds']
      rw [← items_eq pointer cell holds] at perm
      refine yields_bind (P := fun l _ s' => Accounts s l s') ?_ fun l _ s' accounts =>
        yields_pure (by rwa [List.append_nil])
      cases taken : item.join with
      | none =>
          refine yields_pure ((Extends.refl (ordered.store holds')).of_remove rfl rfl
            (fun _ => s.pools.cell_store_of_none) fun q _ mem => ?_)
          rw [taken] at perm
          exact left rfl pointer (perm.mem_iff.mp mem)
      | some p =>
          refine yields_bind_of_ok rfl ?_
          refine yields_bind (yields_fwPairRelease hd (by exact ordered.store holds')) ?_
          rintro l _ s₁ ⟨extends_, gone⟩
          refine yields_of_run rfl (Extends.of_remove
            (extends_.trans (.of_same extends_.ordered rfl rfl rfl rfl)) rfl rfl
            (fun _ => s.pools.cell_store_of_none) fun q lost mem => ?_)
          rw [taken] at perm
          rcases List.mem_cons.mp (perm.mem_iff.mp mem) with rfl | mem
          · exact absurd gone lost.1
          · exact left rfl pointer mem

/-- **While the pool is taken down**: the first `i` slots have been overwritten with `NULL`. -/
structure Emptying (s₀ : Proxy) (id : PoolId) (l : List Entry) (i : Nat) (s : Proxy) : Prop where
  /-- The count of the releases is right on the way. -/
  accounts : Accounts s₀ l s
  pointer : s.context.forwardPool = some id
  /-- The slots in front of `i` hold `NULL`; behind them is what is still to be released. -/
  slots : ∃ pool xs, s.pools.cell id = some pool ∧ pool.Holds xs ∧
    ∀ j < i, ∀ item, xs[j]? = some item → item = none

omit hd in
/-- What is in the pool is behind the first `i` slots. -/
private theorem items_of_emptying {s₀ : Proxy} {i : Nat} (emptying : Emptying s₀ id l i s)
    (all : ∀ pool, s.pools.cell id = some pool → pool.used ≤ i) : s.items = [] := by
  obtain ⟨pool, xs, cell, holds, none⟩ := emptying.slots
  rw [items_eq emptying.pointer cell holds]
  exact FwPool.reduceOption_of_emptied none (holds.used ▸ all pool cell)

/-- **One more slot** is emptied, whatever is added to the pool meanwhile. -/
theorem yields_poolDoneStep {s₀ : Proxy} {h : List Entry} {i : Nat}
    (emptying : Emptying s₀ id h i s) :
    Yields (poolDoneStep w dispatch id i) s fun l next s' => match next with
      | .inl i' => Emptying s₀ id (h ++ l) i' s'
      | .inr _ => Accounts s₀ (h ++ l) s' ∧ s'.context.forwardPool = some id ∧ s'.items = [] := by
  refine yields_loadPool_bind fun pool cell => ?_
  obtain ⟨pool', xs, cell', holds, empty⟩ := emptying.slots
  cases cell.symm.trans cell'
  have used := holds.used
  refine yields_ite (fun lt => ?_) fun ge => yields_pure ?_
  · have hi : i < xs.length := by omega
    rw [FwPool.load_eq holds hi]
    refine yields_orFault_bind ?_
    rintro item ⟨⟩
    refine yields_bind (P := fun l _ s' => Emptying s₀ id (h ++ l) (i + 1) s') ?_ fun l _ s' next =>
      yields_pure (by rwa [List.append_nil])
    cases item : xs[i] with
    | none =>
        refine yields_pure ?_
        rw [List.append_nil]
        exact ⟨emptying.accounts, emptying.pointer, pool, xs, cell, holds,
          FwPool.emptied_succ empty (by rw [List.getElem?_eq_getElem hi, item])⟩
    | some p =>
        refine yields_bind (yields_fwPairRelease hd emptying.accounts.ordered) ?_
        rintro l _ s₁ ⟨extends_, gone⟩
        obtain ⟨pool₁, ys, cell₁, holds₁⟩ := extends_.pool id pool xs cell holds
        have hi₁ : i < (xs ++ ys).length := by
          rw [List.length_append]
          omega
        obtain ⟨pool₂, stored, holds₂⟩ := FwPool.holds_set holds₁ hi₁ (none : Option PairId)
        refine yields_get_bind ?_
        rw [s₁.pools.load_of_cell cell₁]
        refine yields_bind_of_ok rfl ?_
        rw [stored]
        refine yields_bind_of_ok rfl (yields_of_run rfl ?_)
        simp only [List.append_nil]
        have there : (xs ++ ys)[i] = some p := by rw [List.getElem_append_left hi, item]
        have pointer₁ := extends_.pointer.trans emptying.pointer
        have cell₂ := s₁.pools.cell_store_self (a := pool₂) cell₁
        have accounts := emptying.accounts.trans extends_.toAccounts
        -- the pair that is overwritten is gone, so no pair that is there has left the pool
        refine ⟨accounts.store holds₂ fun q alive mem => ?_, pointer₁, pool₂, _, cell₂, holds₂,
          FwPool.emptied_set empty hi⟩
        rw [items_eq pointer₁ cell₁ holds₁, List.reduceOption_mem_iff] at mem
        have after : ({ s₁ with pools := s₁.pools.store id pool₂ } : Proxy).items = _ :=
          items_eq pointer₁ cell₂ holds₂
        rw [after, List.reduceOption_mem_iff]
        obtain ⟨j, hj⟩ := List.getElem?_of_mem mem
        have other : i ≠ j := by
          rintro rfl
          rw [List.getElem?_eq_getElem hi₁, there] at hj
          cases hj
          exact alive gone
        refine List.mem_of_getElem? (i := j) ?_
        rwa [List.getElem?_set_ne other]
  · rw [List.append_nil]
    refine ⟨emptying.accounts, emptying.pointer, items_of_emptying emptying fun pool' cell' => ?_⟩
    cases cell.symm.trans cell'
    omega

/-- **The pool is taken down**: what was in it is released, and so it is not there any more. -/
theorem yields_fwPoolDone {fuel : Nat} (ordered : s.Ordered)
    (pointer : s.context.forwardPool = some id) :
    Yields (fwPoolDone w dispatch fuel (some id)) s fun l _ s' =>
      Accounts s l s' ∧ s'.pools.cell id = none := by
  refine yields_get_bind (yields_orFault_bind fun pool loaded => ?_)
  have cell := s.pools.cell_of_load loaded
  obtain ⟨xs, holds⟩ := ordered id pool cell
  have whole := (Extends.refl ordered).toAccounts
  refine yields_bind (P := fun l _ s' => Accounts s l s' ∧ s'.context.forwardPool = some id ∧
    s'.items = []) (yields_when (fun _ => ?_) fun null => ⟨whole, pointer, ?_⟩) ?_
  · refine yields_loop (I := fun l i s' => Emptying s id l i s') (Q := fun l _ s' =>
      Accounts s l s' ∧ s'.context.forwardPool = some id ∧ s'.items = []) (fun h i s' emptying => ?_)
      fuel ⟨whole, pointer, pool, xs, cell, holds, fun _ lt => absurd lt (Nat.not_lt_zero _)⟩
    refine yields_mono (yields_poolDoneStep hd emptying) ?_
    rintro l (i' | _) s'' post
    · exact post
    · exact post
  · -- there never was an array
    have slots := holds.slots
    rw [FwPool.slots, not_not.mp null] at slots
    have used := holds.used
    have room := holds.room
    have nothing : xs = [] := List.length_eq_zero_iff.mp (by simp at slots; omega)
    rw [items_eq pointer cell holds, nothing]
    rfl
  · rintro l _ s₁ ⟨accounts, pointer₁, nothing⟩
    refine yields_of_run rfl ⟨?_, s₁.pools.cell_free_self⟩
    rw [List.append_nil]
    exact accounts.free nothing

end Pools

/-! ## A run

From the first pool to none. -/

section Session

variable {w : World} {dispatch : Nat → ProxyM Unit} {s : Proxy} (hd : ∀ t, Extending (dispatch t))

include hd

/-- **The end of `ProxyProcess`**: no pool of the session is left. -/
theorem yields_teardown {fuel : Nat} (ordered : s.Ordered) :
    Yields (teardown w dispatch fuel) s fun l _ s' => Accounts s l s' ∧
      ∀ id, s.context.forwardPool = some id → s'.pools.cell id = none := by
  have c := composed_extending w
  have entered : Extending (enterStage .teardown) := composed_enterStage c
  refine yields_bind (entered s ordered) fun l₁ _ s₁ extends₁ => yields_get_bind ?_
  have drained : Yields (when (s₁.context.forwardPool ≠ none) do
      fwPoolDone w dispatch fuel s₁.context.forwardPool) s₁ fun l _ s' => Accounts s₁ l s' ∧
        ∀ id, s₁.context.forwardPool = some id → s'.pools.cell id = none := by
    refine yields_when (fun some => ?_) fun null => ?_
    · obtain ⟨id, pointer⟩ := Option.ne_none_iff_exists'.mp some
      rw [pointer]
      refine yields_mono (yields_fwPoolDone hd extends₁.ordered pointer) ?_
      rintro l _ s' ⟨accounts, gone⟩
      refine ⟨accounts, ?_⟩
      rintro _ ⟨⟩
      exact gone
    · refine ⟨(Extends.refl extends₁.ordered).toAccounts, fun id pointer => ?_⟩
      exact absurd (pointer.symm.trans (not_not.mp null)) (Option.some_ne_none id)
  refine yields_bind drained ?_
  rintro l₂ _ s₂ ⟨accounts₂, gone⟩
  refine yields_get_bind ?_
  have closes {session : Option SessionId} {channel : Option ChannelId} :
      Extending (sessionClose w dispatch session channel) := composed_sessionClose c hd
  refine yields_bind (closes s₂ accounts₂.ordered) fun l₃ _ s₃ extends₃ => yields_get_bind ?_
  refine yields_mono (closes s₃ extends₃.ordered) fun l₄ _ s₄ extends₄ => ⟨?_, fun id pointer => ?_⟩
  · exact extends₁.toAccounts.trans
      (accounts₂.trans (extends₃.toAccounts.trans extends₄.toAccounts))
  · exact extends₄.missing id (extends₃.missing id (gone id (extends₁.pointer.trans pointer)))

end Session

/-- The pool of the session is the only one. -/
theorem yields_opens {w : World} :
    Yields (when (w.config.forwardMode ≠ some .deny ∧ w.config.forwardMode ≠ some .fake)
      (poolInit w >>= fun pool => modifyContext fun c => { c with forwardPool := pool }))
      Proxy.initial fun l _ s' => releases l = [] ∧ s'.pairs = Heap.empty ∧ s'.Ordered ∧
        ∀ id, s'.pools.cell id ≠ none → s'.context.forwardPool = some id := by
  refine yields_when (fun _ => ?_) fun _ => ⟨rfl, rfl, nofun, fun _ there => absurd rfl there⟩
  have made : Yields (poolInit w) Proxy.initial fun l pool s' => releases l = [] ∧
      s'.pairs = Heap.empty ∧ s'.Ordered ∧ ∀ id, s'.pools.cell id ≠ none → pool = some id := by
    refine yields_bind_of_ok run_allocate (yields_bind_of_ok rfl ?_)
    cases w.granted Proxy.initial.tick with
    | false => exact yields_of_run rfl ⟨rfl, rfl, nofun, fun _ there => absurd rfl there⟩
    | true =>
        have empty : (⟨0, 0, none⟩ : FwPool (Option PairId)).Holds [] := FwPool.holds_of_init
          (rfl : fwPoolInit true = _)
        refine yields_bind_of_ok rfl (yields_of_run rfl ⟨rfl, rfl, ?_, ?_⟩)
        · intro id pool cell
          by_cases same : id = 0
          · subst same
            cases cell
            exact ⟨[], empty⟩
          · cases (Heap.cell_alloc_of_ne Heap.empty same).symm.trans cell
        · intro id there
          by_contra other
          refine there (Heap.cell_alloc_of_ne Heap.empty ?_)
          rintro rfl
          exact other rfl
  refine yields_bind made ?_
  rintro l pool s ⟨quiet, pairs, ordered, sole⟩
  refine yields_of_run rfl ⟨?_, pairs, ordered, sole⟩
  rwa [List.append_nil]

/-- **Every pair is released once**: a run that comes to its end has released each pair
that it has allocated, and no other, and all of them and the pools are freed. Callbacks
are nested to any depth and may come at any call, also while the pool is taken down. -/
theorem releases_proxyRun (w : World) (fuel depth : Nat)
    (ended : (proxyRun w fuel depth).value = .ok ()) :
    (releases (proxyRun w fuel depth).log).Perm
        (List.range (proxyRun w fuel depth).state.pairs.next) ∧
      (∀ p, (proxyRun w fuel depth).state.pairs.cell p = none) ∧
      ∀ id, (proxyRun w fuel depth).state.pools.cell id = none := by
  have c := composed_accounting w
  have extending := extending_dispatchWithin w depth
  have accounting (t : Nat) := (extending t).accounting
  have whole : Yields (proxyProcess w (dispatchWithin w depth) fuel) Proxy.initial fun l _ s' =>
      (∀ p, (releases l).count p = s'.gone p) ∧ (∀ p, s'.pairs.cell p = none) ∧
        ∀ id, s'.pools.cell id = none := by
    rw [proxyProcess_eq]
    refine yields_bind yields_opens ?_
    rintro l₁ _ s₁ ⟨quiet, pairs, ordered, sole⟩
    refine yields_get_bind ?_
    -- the account runs from the first pool on; in front of that there is nothing
    have exchanged : Accounting (call w (dispatchWithin w depth)
        (.handleKeyExchange s₁.context.trapSession)) := composed_call c accounting ⟨by trivial, rfl⟩
    refine yields_bind (exchanged s₁ ordered) fun l₂ i s₂ accounts₂ => ?_
    have serves : Accounting (when (i = sshOk) do serve w (dispatchWithin w depth) fuel) :=
      composed_when c fun _ => composed_serve c accounting (accounting_reapForward extending)
        fun _ _ _ => yields_of_error rfl
    refine yields_bind (serves s₂ accounts₂.ordered) fun l₃ _ s₃ accounts₃ => ?_
    refine yields_mono (yields_teardown extending accounts₃.ordered) ?_
    rintro l₄ _ s₄ ⟨accounts₄, gone⟩
    have accounts := accounts₂.trans (accounts₃.trans accounts₄)
    -- the only pool is that of the session, and it has been taken down
    have pools (id : PoolId) : s₄.pools.cell id = none := by
      by_contra there
      have pointer := sole id fun none => there (accounts.missing id none)
      exact there (gone id ((accounts₂.trans accounts₃).pointer.trans pointer))
    refine ⟨fun p => ?_, fun p => ?_, pools⟩
    · have before : s₁.gone p = 0 := by
        rw [Proxy.gone, pairs, if_neg]
        exact fun lt => Nat.not_lt_zero p lt.1
      rw [releases_append, quiet, List.nil_append, ← accounts.balanced p, before, Nat.add_zero]
    · by_contra alive
      have items : s₄.items = [] := by
        cases pointer : s₄.context.forwardPool with
        | none => rw [Proxy.items, pointer, Option.bind_none, Option.elim_none]
        | some id => rw [Proxy.items, pointer, Option.bind_some, pools id, Option.elim_none]
      have lost : s₄.Loose p := ⟨alive, by rw [items]; exact List.not_mem_nil⟩
      refine (accounts.loose p lost).1 ?_
      rw [pairs]
      exact Heap.cell_empty p
  rcases run : proxyRun w fuel depth with ⟨log, s, value⟩
  rw [run] at ended
  obtain rfl : value = .ok () := ended
  obtain ⟨counts, pairs, pools⟩ := whole log s () run
  refine ⟨List.perm_iff_count.mpr fun p => ?_, pairs, pools⟩
  rw [counts, List.nodup_range.count, Proxy.gone, pairs]
  simp

/-- The client opens two forwards and closes one of them, and the next wait fails. -/
def twoForwards : World :=
  .scripted .echo [(13, 2), (48, sshError)]
    [(6, loginAndChannel ++ [requestForward, requestForward, .channel 2 .close])]

/-- The conditions can be met: two forwards, one of which is left over in the end. -/
theorem releases_twoForwards :
    (proxyRun twoForwards 4 2).value = .ok () ∧
      (releases (proxyRun twoForwards 4 2).log).Perm [0, 1] := by
  have ended : (proxyRun twoForwards 4 2).value = .ok () := by decide +kernel
  have two : (proxyRun twoForwards 4 2).state.pairs.next = 2 := by decide +kernel
  have once := (releases_proxyRun twoForwards 4 2 ended).1
  rw [two] at once
  exact ⟨ended, once⟩

end HaasProxy
