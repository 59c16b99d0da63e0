import HaasProxy.Lib.Settling
import HaasProxy.Lib.Related
import HaasProxy.Composition
import HaasProxy.Transitions.Calls

/-!
# Every run ends (`proxy.c`)

`ProxyProcess` has four loops: the one that waits for the login, the one that relays,
the one of `HandleForwards` that releases closed pairs, and the one of `FwPoolDone`.
The last two are inside others, and all of them call libssh, which may make callbacks
that give them more to do: a pair is added to the pool that is being emptied, the idle
timer is set anew.

`settles_proxyRun` says that the proxy comes to its end nevertheless once libssh makes
no more callbacks, and the clock goes on.  The measures are lexicographic: callbacks may
do anything, but use up an interaction in which they can be made; without them a loop
over pairs has one pair less to look at, and one that waits comes closer to the
interaction at which the idle timer has run out.

## Main definitions and results

* `Onward` — time does not go back, and the program is not cut short;
* `Unmoved`, `Stays`, `Placid` — what stays as it is when there are no callbacks;
* `lex_of_stays` — the step of the measure;
* `settles_handleForwards`, `settles_fwPoolDone` — the loops over pairs;
* `Waited` — a round of a loop that waits;
* `settles_proxyRun` — the result.

## Design notes

**Loops have a bound.**  A loop of the model is cut short after a number of iterations, and
says so.  To end is that there is a bound from which on it is not cut short, and that the run
is then the same for every larger one.  `Settles` of the library is that for a program
that takes the bound as an argument.

**The measure of a loop that waits.**  Each round makes an interaction, so time passes.  The idle
timer is a deadline on a clock that goes on, so it runs out at some interaction.  A callback may
set it anew; then the deadline is a later one, but one of the interactions at which
callbacks come has gone by.

**What is asked of the world.**  From some interaction on there are no callbacks, and for each
second there is an interaction from which on the clock is past it.  Without the first a
client that never stops talking is served for ever, as it should be; without the second a
deadline is never reached.
-/

namespace HaasProxy

open Traced

/-! ## Time goes on

The number of interactions is the time that the measures are about. -/

/-- Time does not go back, and the program is not cut short. -/
def Onward {α : Type} (m : ProxyM α) : Prop :=
  ∀ s, s.tick ≤ (m s).state.tick ∧ (m s).value ≠ .error .exhausted

section Onward

variable {w : World} {α β : Type}

/-- What comes first may stop the program, but not for want of fuel, so neither does the
whole. -/
theorem onward_bind {m : ProxyM α} {k : α → ProxyM β} (first : Onward m)
    (next : ∀ a, Onward (k a)) : Onward (m >>= k) := by
  intro s
  obtain ⟨later, ends⟩ := first s
  rcases run : m s with ⟨log, s', e | a⟩
  · rw [run] at later ends
    rw [bind_of_error run]
    exact ⟨later, fun same => ends (by injection same with same; rw [same])⟩
  · rw [run] at later
    rw [bind_of_ok run]
    obtain ⟨later', ends'⟩ := next a s'
    exact ⟨later.trans later', ends'⟩

theorem onward_pure (a : α) : Onward (pure a : ProxyM α) := fun s => ⟨Nat.le_refl s.tick, nofun⟩

theorem onward_idleTimerReset : Onward (idleTimerReset w) := fun s => ⟨Nat.le_succ s.tick, nofun⟩

/-- A pair that is gone makes a fault, which is not giving up. -/
theorem onward_modifyPair (p : PairId) (f : FwPair → FwPair) : Onward (modifyPair p f) := by
  intro s
  rcases run_modifyPair_cases p f s with run | ⟨pair, -, run⟩ <;> rw [run]
  · exact ⟨Nat.le_refl s.tick, nofun⟩
  · exact ⟨Nat.le_refl s.tick, nofun⟩

/-- All that the proxy is composed of goes onward, pairs and pools included: only a loop
can be cut short. -/
theorem freely_onward (w : World) : ComposedFreely w (fun _ => Onward) fun _ => Onward where
  pure := onward_pure
  bind := onward_bind
  get s := ⟨Nat.le_refl s.tick, nofun⟩
  fault _ s := ⟨Nat.le_refl s.tick, nofun⟩
  nextTick s := ⟨Nat.le_succ s.tick, nofun⟩
  modify aside s := ⟨(aside s).tick.ge, nofun⟩
  change timeless s := ⟨(timeless s).tick.ge, nofun⟩
  modifyPair p f _ := onward_modifyPair p f
  changePair := onward_modifyPair
  alloc _ _ s := ⟨Nat.le_refl s.tick, nofun⟩
  release _ s := ⟨Nat.le_refl s.tick, nofun⟩
  call _ _ _ s := ⟨Nat.le_refl s.tick, nofun⟩
  returned _ _ s := ⟨Nat.le_refl s.tick, nofun⟩
  reset := onward_idleTimerReset
  before := onward_bind
  after f first := onward_bind first fun a => onward_pure (f a)
  watch next := by
    refine onward_bind ?_ fun _ => onward_bind onward_idleTimerReset fun _ => next
    intro s
    rw [call, run_callWith (by exact id)]
    exact ⟨Nat.le_succ s.tick, nofun⟩

/-- The same, for functions that are composed without pairs and pools coming and going. -/
theorem composed_onward (w : World) : Composed w (fun _ => Onward) fun _ => Onward :=
  (freely_onward w).toComposed

/-- Callbacks return, or fault. -/
theorem onward_dispatchWithin (w : World) (depth t : Nat) : Onward (dispatchWithin w depth t) := by
  have told {f : Proxy → Entry} : Onward (tell f) := fun s => ⟨Nat.le_refl s.tick, nofun⟩
  refine composed_dispatchWithin (composed_onward w)
    (fun _ => freely_forwardRegister (freely_onward w)) id (fun _ _ _ => told) ?_ depth t
  intro cb m body
  apply onward_bind told
  intro _
  apply onward_bind body
  intro back
  exact onward_bind told fun _ => (composed_onward w).pure back

/-- A program without loops settles. -/
theorem settles_of_onward {m : ProxyM α} (onward : Onward m) {s : Proxy} {P : α → Proxy → Prop}
    (post : ∀ a, (m s).value = .ok a → P a (m s).state) :
    Settles Stop.exhausted (fun _ => m) s P := settles_const (onward s).2 post

/-- A value or a fault; there is nothing to wait for. -/
theorem settles_orFault {x : Except Fault α} {s : Proxy} :
    Settles Stop.exhausted (fun _ => orFault x) s fun a s' => s' = s ∧ x = .ok a := by
  cases x with
  | error fault => exact settles_const nofun nofun
  | ok a =>
      refine settles_const nofun ?_
      rintro _ ⟨⟩
      exact ⟨rfl, rfl⟩

end Onward

/-! ## What stays as it is

After the last callback the context stays as it is, and what does not work on the pool
leaves it alone as well.  It also does so as long as there is no interaction at all. -/

/-- Without callbacks the context and the pools stay as they are. -/
structure Unmoved (last : Nat) (s s' : Proxy) : Prop where
  tick : s.tick ≤ s'.tick
  /-- Nothing has happened, or no callback can come any more. -/
  same : last ≤ s.tick ∨ s'.tick = s.tick → s'.context = s.context ∧ s'.pools = s.pools

/-- After the last callback the context stays as it is. -/
structure Stays (last : Nat) (s s' : Proxy) : Prop where
  tick : s.tick ≤ s'.tick
  /-- From the last callback on. -/
  context : last ≤ s.tick → s'.context = s.context

section Unmoved

variable {last : Nat} {s s' s'' : Proxy}

theorem Unmoved.refl (s : Proxy) : Unmoved last s s := ⟨Nat.le_refl _, fun _ => ⟨rfl, rfl⟩⟩

/-- Past `last` both steps leave things alone, and the time only grows, so the first was
past `last` if the second was. -/
theorem Unmoved.trans (first : Unmoved last s s') (next : Unmoved last s' s'') :
    Unmoved last s s'' where
  tick := first.tick.trans next.tick
  same := by
    have le := first.tick
    have le' := next.tick
    intro without
    obtain ⟨context, pools⟩ := first.same (by omega)
    obtain ⟨context', pools'⟩ := next.same (by omega)
    exact ⟨context'.trans context, pools'.trans pools⟩

/-- An interaction without callbacks. -/
theorem Unmoved.tock (s : Proxy) : Unmoved last s s.tock := ⟨Nat.le_succ _, fun _ => ⟨rfl, rfl⟩⟩

/-- What has not moved has in particular the context it had. -/
theorem Unmoved.stays (unmoved : Unmoved last s s') : Stays last s s' :=
  ⟨unmoved.tick, fun past => (unmoved.same (.inl past)).1⟩

theorem Stays.refl (s : Proxy) : Stays last s s := (Unmoved.refl s).stays

theorem Stays.trans (first : Stays last s s') (next : Stays last s' s'') : Stays last s s'' where
  tick := first.tick.trans next.tick
  context past :=
    (next.context (past.trans first.tick)).trans (first.context past)

end Unmoved

/-- A program that leaves the context and the pools alone, callbacks apart. -/
def Placid {α : Type} (last : Nat) (m : ProxyM α) : Prop := Plain (fun _ _ => True) (Unmoved last) m

section Placid

variable {w : World} {dispatch : Nat → ProxyM Unit} {last : Nat} {α β : Type} {m : ProxyM α}
  {k : α → ProxyM β} {p : PairId}

theorem placid_pure (a : α) : Placid last (pure a : ProxyM α) := plain_pure Unmoved.refl

theorem placid_get : Placid last (get : ProxyM Proxy) := plain_get Unmoved.refl

theorem placid_bind (first : Placid last m) (next : ∀ a, Placid last (k a)) :
    Placid last (m >>= k) :=
  plain_bind (fun _ _ _ => Unmoved.trans) (fun _ _ _ _ _ => trivial) first next

theorem placid_when {c : Prop} [Decidable c] {m : ProxyM Unit} (first : Placid last m) :
    Placid last (when c m) := plain_ite first (placid_pure ())

theorem placid_whenSome {o : Option α} {f : α → ProxyM Unit} (each : ∀ a, Placid last (f a)) :
    Placid last (whenSome o f) := by
  cases o with
  | none => exact placid_pure ()
  | some a => exact each a

theorem placid_each {xs : List α} {body : α → ProxyM Unit} (each : ∀ a, Placid last (body a)) :
    Placid last (Traced.each xs body) := by
  induction xs with
  | nil => exact placid_pure ()
  | cons x xs ih => exact placid_bind (each x) fun _ => ih

theorem placid_orFault {x : Except Fault α} : Placid last (orFault x) := plain_ofExcept Unmoved.refl

theorem placid_loadPair : Placid last (loadPair p) := placid_bind placid_get fun _ => placid_orFault

/-- Writing into a pair moves neither the pool nor the idle timer. -/
theorem placid_modifyPair {f : FwPair → FwPair} : Placid last (modifyPair p f) := by
  refine placid_bind placid_loadPair fun pair => plain_modify ?_
  exact fun s => ⟨Nat.le_refl _, fun _ => ⟨rfl, rfl⟩⟩

theorem placid_poolGet {pool : Option PoolId} {index : Int} : Placid last (poolGet pool index) := by
  apply placid_bind
  · cases pool with
    | none => exact placid_pure none
    | some id =>
        apply placid_bind placid_get
        intro s
        exact placid_bind placid_orFault fun pool => placid_pure (some pool)
  · intro contents
    exact placid_bind placid_orFault fun _ => placid_pure _

theorem placid_checkUsage : Placid last (checkUsage w) := by
  unfold checkUsage
  split
  · exact fun s => ⟨List.forall_mem_nil _, .tock s⟩
  · exact placid_pure true

variable (onward : ∀ t, Onward (dispatch t)) (quiet : ∀ t ≥ last, dispatch t = pure ())

include onward quiet

/-- **A call**: its callbacks may do anything, unless there are none. -/
theorem placid_callWith {c : Call} {effect : Int → Proxy → Proxy}
    (keeps : ∀ i s, Unmoved last s (effect i s)) (still : ∀ i s, (effect i s).tick = s.tick) :
    Placid last (callWith w dispatch c effect) := by
  intro s
  refine ⟨fun _ _ => trivial, ?_⟩
  by_cases dispatches : c.Dispatches
  · obtain ⟨later, -⟩ := onward s.tick (effect (w.answer s.tick) s.tock)
    rw [still] at later
    have tick : s.tick + 1 ≤ (callWith w dispatch c effect s).state.tick := by
      rcases run : dispatch s.tick (effect (w.answer s.tick) s.tock) with ⟨l, s', e | _⟩
      · rw [run] at later
        rw [run_callWith_of_error dispatches run]
        exact later
      · rw [run] at later
        rw [run_callWith_of_dispatch dispatches run]
        exact later
    refine ⟨by omega, fun without => ?_⟩
    have past : last ≤ s.tick := by omega
    have silent : dispatch s.tick (effect (w.answer s.tick) s.tock) =
        ⟨[], effect (w.answer s.tick) s.tock, .ok ()⟩ := by
      rw [quiet s.tick past]
      rfl
    rw [run_callWith_of_dispatch dispatches silent]
    exact ((Unmoved.tock s).trans (keeps _ _)).same (.inl past)
  · rw [run_callWith dispatches]
    exact (Unmoved.tock s).trans (keeps _ _)

/-- **A call of libssh past `last`** makes no callbacks, so it is a tick and two
entries. Before `last` nothing is promised but that the time goes on. -/
theorem placid_call {c : Call} : Placid last (call w dispatch c) :=
  placid_callWith onward quiet (fun _ s => .refl s) fun _ _ => rfl

theorem placid_onChannel {ch : Option ChannelId} {c : ChannelId → Call} :
    Placid last (onChannel w dispatch ch c) := by
  cases ch with
  | none => exact placid_pure _
  | some ch => exact placid_call onward quiet

theorem placid_sshChannelFree {ch : Option ChannelId} :
    Placid last (sshChannelFree w dispatch ch) := by
  apply placid_whenSome
  intro ch
  refine placid_bind (placid_callWith onward quiet ?_ fun _ _ => rfl) fun _ => placid_pure ()
  exact fun _ s => ⟨Nat.le_refl _, fun _ => ⟨rfl, rfl⟩⟩

/-- `FwEndpointDone` changes its pair, not the pool. -/
theorem placid_fwEndpointDone {e : End} : Placid last (fwEndpointDone w dispatch p e) := by
  apply placid_bind placid_modifyPair
  intro _
  apply placid_bind placid_loadPair
  intro pair
  apply placid_when
  apply placid_bind (placid_onChannel onward quiet)
  intro isOpen
  refine placid_bind (placid_when ?_) fun _ => ?_
  · exact placid_bind (placid_onChannel onward quiet) fun _ => placid_pure ()
  · apply placid_bind placid_loadPair
    intro pair
    exact placid_bind (placid_sshChannelFree onward quiet) fun _ => placid_modifyPair

/-- `FwPairRelease`, likewise: the pair was taken out of the pool before. -/
theorem placid_fwPairRelease : Placid last (fwPairRelease w dispatch p) := by
  apply placid_bind (plain_tell Unmoved.refl fun _ => trivial)
  intro _
  apply placid_bind placid_modifyPair
  intro _
  apply placid_bind (placid_fwEndpointDone onward quiet)
  intro _
  apply placid_bind (placid_fwEndpointDone onward quiet)
  intro _
  exact plain_modify fun s => ⟨Nat.le_refl _, fun _ => ⟨rfl, rfl⟩⟩

theorem placid_pollEndpoint {e : End} : Placid last (pollEndpoint w dispatch p e) := by
  apply placid_bind placid_loadPair
  intro pair
  apply placid_when
  apply placid_bind (placid_onChannel onward quiet)
  intro len
  exact placid_when placid_modifyPair

theorem placid_pollForward {i : Nat} : Placid last (pollForward w dispatch i) := by
  apply placid_bind placid_get
  intro s
  apply placid_bind placid_poolGet
  intro pair
  apply placid_whenSome
  intro p
  exact placid_bind (placid_pollEndpoint onward quiet) fun _ => placid_pollEndpoint onward quiet

end Placid

/-! ## The loops over pairs

The number of pairs is the second measure. -/

/-- The lexicographic order, in the form that arithmetic decides. -/
private theorem lex_lt_iff {a b a' b' : Nat} :
    Prod.Lex (· < ·) (· < ·) (a', b') (a, b) ↔ a' < a ∨ a' = a ∧ b' < b := Prod.lex_def ..

/-- **Either an interaction is used up** in which callbacks can be made, or the second measure
is smaller. -/
theorem lex_of_stays {last a b : Nat} {s s' : Proxy} (tick : s.tick ≤ s'.tick)
    (less : last ≤ s.tick ∨ s'.tick = s.tick → b < a) :
    Prod.Lex (· < ·) (· < ·) (last - s'.tick, b) (last - s.tick, a) := by
  rw [lex_lt_iff]
  by_cases without : last ≤ s.tick ∨ s'.tick = s.tick
  · exact .inr ⟨by omega, less without⟩
  · exact .inl (by omega)

/-- The order in which the two loops that wait go down. -/
theorem wellFounded_lex : WellFounded (Prod.Lex (· < ·) (· < ·) : Nat × Nat → Nat × Nat → Prop) :=
  WellFounded.prod_lex Nat.lt_wfRel.wf Nat.lt_wfRel.wf

/-- How many pairs there are in a pool. -/
def Proxy.used (s : Proxy) (pool : Option PoolId) : Nat :=
  (pool.bind s.pools.cell).elim 0 FwPool.used

section Loops

variable {w : World} {dispatch : Nat → ProxyM Unit} {last : Nat} {α : Type} {s : Proxy}

/-- What reads the pool of a session. -/
theorem settles_loadPool {pool : Option PoolId} :
    Settles Stop.exhausted (fun _ => loadPool pool) s fun contents s' =>
      s' = s ∧ contents = pool.bind s.pools.cell := by
  cases pool with
  | none => exact settles_pure ⟨rfl, rfl⟩
  | some id =>
      apply settles_get_bind
      apply settles_bind settles_orFault
      rintro contents s ⟨rfl, loaded⟩
      refine settles_pure ⟨rfl, ?_⟩
      simp only [Heap.load] at loaded
      cases cell : s.pools.cell id <;> simp_all

/-- `FwPoolFindClosed` is done at once, and the index it finds is one of the pool's. -/
theorem settles_poolFindClosed {pool : Option PoolId} :
    Settles Stop.exhausted (fun _ => poolFindClosed pool) s fun index s' =>
      s' = s ∧ (index < 0 ∨ index < s.used pool) := by
  apply settles_bind settles_loadPool
  rintro contents s ⟨rfl, rfl⟩
  apply settles_get_bind
  refine settles_mono settles_orFault ?_
  rintro index s ⟨rfl, found⟩
  refine ⟨rfl, ?_⟩
  unfold Proxy.used
  cases contents : pool.bind s.pools.cell with
  | none =>
      rw [contents] at found
      cases found
      exact .inl (by decide)
  | some pool =>
      rw [contents] at found
      rcases findClosedFrom_read found with ⟨none, -⟩ | ⟨k, a, rfl, lt, -⟩
      · exact .inl none
      · exact .inr (by simpa using lt)

theorem settles_poolGet {pool : Option PoolId} {index : Int} :
    Settles Stop.exhausted (fun _ => poolGet pool index) s fun _ s' => s' = s := by
  apply settles_bind settles_loadPool
  rintro contents s ⟨rfl, -⟩
  apply settles_bind settles_orFault
  rintro item s ⟨rfl, -⟩
  exact settles_pure rfl

/-- What `FwPoolRemove` leaves of a pool. -/
theorem used_of_remove {contents : FwPool α} {index removed : Int} {rest : Option (FwPool α)}
    (valid : 0 ≤ index ∧ index < contents.used)
    (eq : fwPoolRemove index (some contents) = .ok (removed, rest)) :
    ∃ left, rest = some left ∧ left.used = contents.used - 1 := by
  simp only [fwPoolRemove, if_pos valid] at eq
  split_ifs at eq with inner
  · cases load : FwPool.load { contents with used := contents.used - 1 } (contents.used - 1) with
    | error _ =>
        rw [load] at eq
        cases eq
    | ok item =>
        cases store : FwPool.store { contents with used := contents.used - 1 } index.toNat item with
        | error _ =>
            rw [load] at eq
            simp only [bind, Except.bind, store] at eq
            cases eq
        | ok stored =>
            rw [load] at eq
            simp only [bind, Except.bind, store] at eq
            cases eq
            refine ⟨stored, rfl, ?_⟩
            rw [FwPool.store_inv store]
  · cases eq
    exact ⟨_, rfl, rfl⟩

/-- How many pairs the pool has is what was stored last. -/
theorem used_store {id : PoolId} {contents left : FwPool (Option PairId)}
    (cell : s.pools.cell id = some contents) :
    Proxy.used { s with pools := s.pools.store id left } (some id) = left.used := by
  simp [Proxy.used, s.pools.cell_store_self cell]

/-- `FwPoolRemove` at a valid index leaves one pair less, which is what the loop of
`HandleForwards` goes down by. -/
theorem settles_poolRemove {pool : Option PoolId} {index : Int}
    (valid : 0 ≤ index ∧ index < s.used pool) :
    Settles Stop.exhausted (fun _ => poolRemove pool index) s fun _ s' =>
      s'.tick = s.tick ∧ s'.context = s.context ∧ s'.used pool < s.used pool := by
  apply settles_bind settles_loadPool
  rintro contents s ⟨rfl, rfl⟩
  apply settles_bind settles_orFault
  rintro ⟨removed, rest⟩ s ⟨rfl, eq⟩
  cases pool with
  | none => exact absurd valid (by simp only [Proxy.used, Option.bind_none, Option.elim]; omega)
  | some id =>
      cases cell : s.pools.cell id with
      | none =>
          exact absurd valid (by
            simp only [Proxy.used, Option.bind_some, cell, Option.elim]
            omega)
      | some contents =>
          have used : s.used (some id) = contents.used := by
            simp [Proxy.used, cell]
          rw [used] at valid ⊢
          rw [Option.bind_some, cell] at eq
          obtain ⟨left, rfl, less⟩ := used_of_remove valid eq
          refine settles_bind (settles_const (P := fun _ s' =>
            s' = { s with pools := s.pools.store id left }) nofun ?_) ?_
          · rintro _ ⟨⟩
            rfl
          · rintro _ _ rfl
            refine settles_pure ⟨rfl, rfl, ?_⟩
            rw [used_store cell]
            omega

variable (onward : ∀ t, Onward (dispatch t)) (quiet : ∀ t ≥ last, dispatch t = pure ())

/-- A program without loops that leaves the context and the pools alone. -/
theorem settles_of_placid {m : ProxyM α} (ends : Onward m) (placid : Placid last m) :
    Settles Stop.exhausted (fun _ => m) s fun _ s' => Unmoved last s s' :=
  settles_of_onward ends fun _ _ => (placid s).2

include onward

/-- Releasing a pair takes its time, but is not cut short. -/
theorem onward_fwPairRelease {p : PairId} : Onward (fwPairRelease w dispatch p) :=
  freely_fwPairRelease (freely_onward w) onward

include quiet

/-- **One pair less**: a round of the second loop of `HandleForwards`. -/
theorem settles_reapForward (s : Proxy) :
    Settles Stop.exhausted (fun _ => reapForward w dispatch) s fun next s' =>
      Stays last s s' ∧ (next = .inl () → Prod.Lex (· < ·) (· < ·)
        (last - s'.tick, s'.used s'.context.forwardPool)
        (last - s.tick, s.used s.context.forwardPool)) := by
  apply settles_get_bind
  apply settles_bind settles_poolFindClosed
  rintro index s ⟨rfl, found⟩
  refine settles_ite (fun _ => settles_pure ⟨.refl s, nofun⟩) fun some_ => ?_
  apply settles_bind settles_poolGet
  rintro pair s rfl
  apply settles_bind (settles_poolRemove (by omega))
  rintro _ t ⟨tick, context, less⟩
  -- a pair is out of the pool; without callbacks its release puts none in
  have released : Settles Stop.exhausted
      (fun _ => whenSome pair fun p => do
        modify fun s => { s with releasing := p :: s.releasing }
        fwPairRelease w dispatch p
        modify fun s => { s with releasing := s.releasing.tail }) t
      fun _ s' => Unmoved last t s' := by
    have ghost (f : Proxy → List PairId) :
        Placid last (modify fun s => { s with releasing := f s }) :=
      plain_modify fun s => ⟨Nat.le_refl _, fun _ => ⟨rfl, rfl⟩⟩
    have c := composed_onward w
    apply settles_of_placid
    · apply composed_whenSome c
      intro p _
      exact c.bind (c.modify fun _ => by exact ⟨⟨rfl, rfl⟩, rfl, rfl, rfl, .of_channels rfl⟩)
        fun _ => c.bind (onward_fwPairRelease onward) fun _ =>
          c.modify fun _ => by exact ⟨⟨rfl, rfl⟩, rfl, rfl, rfl, .of_channels rfl⟩
    · apply placid_whenSome
      intro p
      exact placid_bind (ghost _) fun _ =>
        placid_bind (placid_fwPairRelease onward quiet) fun _ => ghost _
  apply settles_bind released
  intro _ s' unmoved
  have later := unmoved.tick
  refine settles_pure ⟨⟨tick ▸ later, fun past => ?_⟩, fun _ => ?_⟩
  · exact (unmoved.stays.context (tick ▸ past)).trans context
  · refine lex_of_stays (tick ▸ later) fun without => ?_
    obtain ⟨same, pools⟩ := unmoved.same (by omega)
    rw [same, context]
    unfold Proxy.used at less ⊢
    rw [pools]
    exact less

/-- **`HandleForwards` comes to an end.** Callbacks may add pairs while it reaps, as
long as libssh makes any; past `last` each round has one pair less. -/
theorem settles_handleForwards (s : Proxy) :
    Settles Stop.exhausted (handleForwards w dispatch) s fun _ s' => Stays last s s' := by
  apply settles_get_bind
  have counted : Settles Stop.exhausted (fun _ => poolCount s.context.forwardPool) s
      fun _ s' => s' = s := by
    apply settles_bind settles_loadPool
    rintro contents _ ⟨rfl, -⟩
    exact settles_pure rfl
  apply settles_bind counted
  rintro count s₀ rfl
  refine settles_when (fun _ => ?_) fun _ => .refl _
  have polled : Settles Stop.exhausted
      (fun _ => each (List.range count.toNat) (pollForward w dispatch)) s₀
      fun _ s' => Unmoved last s₀ s' := by
    apply settles_of_placid
    · exact composed_each (composed_onward w) fun _ => composed_pollForward (composed_onward w) onward
    · exact placid_each fun _ => placid_pollForward onward quiet
  apply settles_bind polled
  intro _ s₁ unmoved
  -- The pool may grow in each round, but only by callbacks.
  refine settles_loop wellFounded_lex (fun _ s => (last - s.tick, s.used s.context.forwardPool))
    (I := fun _ s => Stays last s₀ s) ?_ () s₁ unmoved.stays
  intro _ s stays
  refine settles_mono (settles_reapForward onward quiet s) ?_
  rintro (_ | _) s' ⟨stays', less⟩
  · exact ⟨stays.trans stays', less rfl⟩
  · exact stays.trans stays'

/-- A round of the loop of `FwPoolDone`. -/
theorem settles_poolDoneStep (id : PoolId) (i : Nat) (s : Proxy) :
    Settles Stop.exhausted (fun _ => poolDoneStep w dispatch id i) s fun next s' =>
      match next with
      | .inl j => Prod.Lex (· < ·) (· < ·) (last - s'.tick, s'.used (some id) - j)
          (last - s.tick, s.used (some id) - i)
      | .inr _ => True := by
  apply settles_bind settles_loadPool
  rintro contents s ⟨rfl, rfl⟩
  cases cell : s.pools.cell id with
  | none =>
      rw [Option.bind_some, cell]
      exact settles_pure trivial
  | some pool =>
      rw [Option.bind_some, cell]
      have used : s.used (some id) = pool.used := by simp [Proxy.used, cell]
      refine settles_ite (fun inside => ?_) fun _ => settles_pure trivial
      apply settles_bind settles_orFault
      rintro item s ⟨rfl, -⟩
      -- without callbacks the pool has as many items behind the release as in front of it
      have emptied : Settles Stop.exhausted
          (fun _ => whenSome item fun p => do
            fwPairRelease w dispatch p
            let s ← get
            let pool ← orFault (s.pools.load id)
            let pool ← orFault (pool.store i none)
            storePool (some id) (some pool)) s
          fun _ s' => s.tick ≤ s'.tick ∧
            (last ≤ s.tick ∨ s'.tick = s.tick → s'.used (some id) = pool.used) := by
        cases item with
        | none => exact settles_pure ⟨Nat.le_refl _, fun _ => used⟩
        | some p =>
            apply settles_bind (settles_of_placid (onward_fwPairRelease onward)
              (placid_fwPairRelease onward quiet))
            intro _ s₁ unmoved
            apply settles_get_bind
            apply settles_bind settles_orFault
            rintro now s₁ ⟨rfl, loaded⟩
            apply settles_bind settles_orFault
            rintro left s₁ ⟨rfl, stored⟩
            refine settles_const nofun ?_
            rintro _ -
            refine ⟨unmoved.tick, fun without => ?_⟩
            obtain ⟨-, pools⟩ := unmoved.same without
            rw [pools, s.pools.load_of_cell cell] at loaded
            cases loaded
            show Proxy.used { s₁ with pools := s₁.pools.store id left } (some id) = _
            have there : s₁.pools.cell id = some pool := pools ▸ cell
            rw [used_store there, FwPool.store_inv stored]
      apply settles_bind emptied
      rintro _ s' ⟨tick, same⟩
      refine settles_pure (lex_of_stays tick fun without => ?_)
      rw [used, same without]
      omega

/-- **`FwPoolDone` comes to an end**, by the same measure with the index counting up to
the number of pairs. -/
theorem settles_fwPoolDone (pool : Option PoolId) (s : Proxy) :
    Settles Stop.exhausted (fun fuel => fwPoolDone w dispatch fuel pool) s fun _ _ => True := by
  cases pool with
  | none => exact settles_pure trivial
  | some id =>
      apply settles_get_bind
      apply settles_bind settles_orFault
      rintro contents s ⟨rfl, -⟩
      refine settles_bind (P := fun _ _ => True) ?_ fun _ _ _ => settles_const nofun fun _ _ => trivial
      refine settles_when (fun _ => ?_) fun _ => trivial
      refine settles_loop wellFounded_lex (fun i s => (last - s.tick, s.used (some id) - i))
        (I := fun _ _ => True) ?_ 0 s trivial
      intro i s _
      refine settles_mono (settles_poolDoneStep onward quiet id i s) ?_
      rintro (j | _) s' less
      · exact ⟨trivial, less⟩
      · trivial

end Loops

/-! ## The loops that wait

The interaction at which the timer runs out is. -/

/-- Once the clock has passed the second of a timer, nothing is left of it. -/
theorem timerLeft_of_late {timer now : Timeval} (late : timer.sec < now.sec) :
    timerLeft timer now = 0 := by
  have after : timerBefore now timer = false := by
    unfold timerBefore
    rw [if_neg (by omega)]
    simp only [decide_eq_false_iff_not]
    omega
  simp [timerLeft, after]

/-- **A round of a loop that waits**: time has passed, and without callbacks the idle timer is
what it was, and had not run out. -/
structure Waited (last : Nat) (limit : Timeval → Nat) (s s' : Proxy) : Prop where
  /-- Time has passed. -/
  passed : s.tick < s'.tick
  /-- After the last callback the context is what it was. -/
  stays : Stays last s s'
  /-- The timer had not run out when it was looked at. -/
  waiting : last ≤ s.tick → s.tick < limit s.context.idleTimer

/-- A round in which the loop waited is less in the lexicographic order: either an
interaction that could make callbacks is used up, or the limit of the idle timer is
closer. -/
theorem Waited.less {last : Nat} {limit : Timeval → Nat} {s s' : Proxy}
    (waited : Waited last limit s s') : Prod.Lex (· < ·) (· < ·)
      (last - s'.tick, limit s'.context.idleTimer - s'.tick)
      (last - s.tick, limit s.context.idleTimer - s.tick) := by
  obtain ⟨passed, stays, waiting⟩ := waited
  refine lex_of_stays stays.tick fun without => ?_
  have past : last ≤ s.tick := by omega
  have more := waiting past
  rw [stays.context past]
  omega

section Waiting

variable {w : World} {dispatch : Nat → ProxyM Unit} {last : Nat} {limit : Timeval → Nat}
  {s s₀ : Proxy}

/-- Whoever has time left has read the clock before the idle timer ran out. -/
theorem settles_waitTime : Settles Stop.exhausted (fun _ => waitTime w) s fun time s' =>
    Unmoved last s s' ∧
      (time ≠ none → timerLeft s.context.idleTimer (w.clock s.tick) ≠ 0) := by
  have idle : Settles Stop.exhausted (fun _ => idleTimerGet w) s fun time s' =>
      s' = s.tock ∧ time = timerLeft s.context.idleTimer (w.clock s.tick) := by
    refine settles_const nofun ?_
    rintro _ ⟨⟩
    exact ⟨rfl, rfl⟩
  apply settles_bind idle
  rintro time _ ⟨rfl, rfl⟩
  refine settles_ite (fun _ => settles_pure ⟨.tock s, nofun⟩) fun left => ?_
  refine settles_ite (fun _ => ?_) fun _ => settles_pure ⟨.tock s, fun _ => left⟩
  apply settles_get_bind
  have session : Settles Stop.exhausted (fun _ => timerGet w s.tock.context.sessionTimer) s.tock
      fun _ s' => s' = s.tock.tock := by
    refine settles_const nofun ?_
    rintro _ ⟨⟩
    rfl
  apply settles_bind session
  rintro i _ rfl
  exact settles_pure ⟨(Unmoved.tock s).trans (.tock _), fun _ => left⟩

theorem settles_readShouldStop :
    Settles Stop.exhausted (fun _ => readShouldStop w) s fun _ s' => s' = s.tock := by
  refine settles_const nofun ?_
  rintro _ ⟨⟩
  rfl

/-- The rounds of both loops begin with a reading of `ShouldStop`. -/
theorem waited_of_stays {s' : Proxy} (stays : Stays last s.tock s') (waiting : last ≤ s.tick →
    s.tick < limit s.context.idleTimer) : Waited last limit s s' where
  passed := stays.tick
  stays := (Unmoved.tock s).stays.trans stays
  waiting := waiting

variable (onward : ∀ t, Onward (dispatch t)) (quiet : ∀ t ≥ last, dispatch t = pure ())
  (late : ∀ timer t, limit timer ≤ t → timerLeft timer (w.clock t) = 0)

include late

/-- The timer that was read is the one the round began with. -/
theorem lt_limit_of_left {s' : Proxy} (stays : Stays last s s')
    (left : timerLeft s'.context.idleTimer (w.clock s'.tick) ≠ 0) (past : last ≤ s.tick) :
    s.tick < limit s.context.idleTimer := by
  by_contra elapsed
  rw [stays.context past] at left
  exact left (late _ _ (by have := stays.tick; omega))

include onward quiet

omit late in
/-- A call of libssh is done at once: what it dispatches is assumed to go onward, and
past `last` there is nothing to dispatch. -/
theorem settles_call {c : Call} :
    Settles Stop.exhausted (fun _ => call w dispatch c) s fun _ s' => Unmoved last s s' := by
  apply settles_of_placid _ (placid_call onward quiet)
  exact composed_callWith (composed_onward w) onward (fun _ s => ⟨Nat.le_refl s.tick, nofun⟩)
    fun _ s => .refl s

/-- A round of the loop for the login either leaves it or has waited. -/
theorem settles_waitLoginStep (s : Proxy) :
    Settles Stop.exhausted (fun _ => waitLoginStep w dispatch) s fun next s' =>
      next = .inl () → Waited last limit s s' := by
  apply settles_bind settles_readShouldStop
  rintro shouldStop _ rfl
  refine settles_ite (fun _ => settles_pure nofun) fun _ => ?_
  have usage : Settles Stop.exhausted (fun _ => checkUsage w) s.tock
      fun _ s' => Unmoved last s.tock s' :=
    settles_of_placid (composed_checkUsage (composed_onward w)) placid_checkUsage
  apply settles_bind usage
  intro usage s₁ unmoved
  refine settles_ite (fun _ => settles_pure nofun) fun _ => ?_
  apply settles_bind settles_waitTime
  rintro (_ | time) s₂ ⟨unmoved', left⟩
  · exact settles_pure nofun
  apply settles_bind (settles_call onward quiet)
  intro ret s₃ unmoved''
  have stays : Stays last s.tock s₃ := ((unmoved.trans unmoved').trans unmoved'').stays
  have waited : Waited last limit s s₃ :=
    waited_of_stays stays fun past =>
      lt_limit_of_left late ((Unmoved.tock s).trans unmoved).stays (left nofun) past
  refine settles_ite (fun _ => settles_pure fun _ => waited) fun _ => ?_
  refine settles_ite (fun _ => settles_pure nofun) fun _ => ?_
  apply settles_get_bind
  refine settles_ite (fun _ => settles_pure nofun) fun _ => ?_
  exact settles_ite (fun _ => settles_pure nofun) fun _ => settles_pure fun _ => waited

/-- A round of the relaying loop either leaves it or has waited; the loop of
`HandleForwards` in it comes to its end first. -/
theorem settles_relayStep (s : Proxy) :
    Settles Stop.exhausted (relayStep w dispatch) s fun next s' =>
      next = .inl () → Waited last limit s s' := by
  apply settles_bind settles_readShouldStop
  rintro shouldStop _ rfl
  refine settles_ite (fun _ => settles_pure nofun) fun _ => ?_
  have polls {ch : Option ChannelId} {s : Proxy} :
      Settles Stop.exhausted (fun _ => onChannel w dispatch ch .poll) s
        fun _ s' => Unmoved last s s' := by
    cases ch with
    | none => exact settles_pure (.refl s)
    | some ch => exact settles_call onward quiet
  apply settles_get_bind
  apply settles_bind polls
  intro _ s₁ unmoved₁
  apply settles_get_bind
  apply settles_bind polls
  intro _ s₂ unmoved₂
  apply settles_get_bind
  -- the only loop in a round
  have handled : Settles Stop.exhausted
      (fun fuel => when (s₂.context.forwardPool ≠ none) (handleForwards w dispatch fuel)) s₂
      fun _ s' => Stays last s₂ s' :=
    settles_when (fun _ => settles_handleForwards onward quiet s₂) fun _ => .refl s₂
  apply settles_bind handled
  intro _ s₃ stays₃
  apply settles_get_bind
  apply settles_bind (settles_call onward quiet)
  intro _ s₄ unmoved₄
  apply settles_get_bind
  apply settles_bind (settles_call onward quiet)
  intro _ s₅ unmoved₅
  -- up to the wait the idle timer is what it was, unless there were callbacks
  have flushed : Stays last s.tock s₅ :=
    ((unmoved₁.trans unmoved₂).stays.trans stays₃).trans (unmoved₄.trans unmoved₅).stays
  apply settles_bind settles_waitTime
  rintro (_ | time) s₆ ⟨unmoved₆, left⟩
  · exact settles_pure nofun
  apply settles_bind (settles_call onward quiet)
  intro ret s₇ unmoved₇
  -- the timer that was read there had not run out
  have waited : Waited last limit s s₇ :=
    waited_of_stays (flushed.trans (unmoved₆.trans unmoved₇).stays) fun past =>
      lt_limit_of_left late ((Unmoved.tock s).stays.trans flushed) (left nofun) past
  refine settles_ite (fun _ => settles_pure fun _ => waited) fun _ => ?_
  refine settles_ite (fun _ => settles_pure nofun) fun _ => ?_
  apply settles_get_bind
  refine settles_pure fun next => waited

omit onward quiet late in
/-- A loop whose rounds wait. -/
theorem settles_waiting {α : Type} {body : Nat → ProxyM (Unit ⊕ α)}
    (round : ∀ s, Settles Stop.exhausted body s fun next s' =>
      next = .inl () → Waited last limit s s') (s : Proxy) :
    Settles Stop.exhausted (fun fuel => loop .exhausted (fun _ => body fuel) fuel ()) s
      fun _ _ => True := by
  refine settles_loop wellFounded_lex
    (fun _ s => (last - s.tick, limit s.context.idleTimer - s.tick)) (I := fun _ _ => True) ?_ () s
    trivial
  intro _ s _
  refine settles_mono (round s) ?_
  rintro (_ | a) s' waited
  · exact ⟨trivial, (waited rfl).less⟩
  · trivial

/-! ## `ProxyProcess`

The bounds of its parts are put together. As more fuel than a part needs changes nothing,
the largest of them is enough for all. -/

/-- Both loops come to an end, one behind the other. -/
theorem settles_serve (s : Proxy) :
    Settles Stop.exhausted (serve w dispatch) s fun _ _ => True := by
  have c := composed_onward w
  -- what contains no loop ends by itself
  have steps {α : Type} {m : ProxyM α} {s : Proxy} (ends : Onward m) :
      Settles Stop.exhausted (fun _ => m) s fun _ _ => True :=
    settles_of_onward ends fun _ _ => trivial
  have idle {s : Proxy} : Settles Stop.exhausted (fun _ => idleTimerReset w) s fun _ _ => True :=
    steps onward_idleTimerReset
  have calls {a : Call} {s : Proxy} :
      Settles Stop.exhausted (fun _ => call w dispatch a) s fun _ _ => True :=
    settles_mono (settles_call onward quiet) fun _ _ _ => trivial
  apply settles_get_bind
  apply settles_bind calls
  intro _ s _
  apply settles_bind idle
  intro _ s _
  apply settles_bind (steps (composed_when c fun _ =>
    c.bind (composed_timerStart c) fun _ => composed_modifyContext c fun _ => by exact ⟨rfl, rfl⟩))
  intro _ s _
  apply settles_bind (steps (composed_enterStage c))
  intro _ s _
  apply settles_bind (settles_waiting
    (settles_waitLoginStep onward quiet late) s)
  intro error s _
  refine settles_bind (P := fun _ _ => True) (settles_when (fun _ => ?_) fun _ => trivial) ?_
  · apply settles_bind (steps (composed_readShouldStop c))
    intro shouldStop s _
    apply settles_get_bind
    refine settles_when (fun _ => ?_) fun _ => trivial
    apply settles_bind calls
    intro _ s _
    apply settles_bind idle
    intro _ s _
    apply settles_bind (steps (composed_enterStage c))
    intro _ s _
    apply settles_bind (settles_waiting (settles_relayStep onward quiet late) s)
    intro _ s _
    apply settles_get_bind
    apply settles_bind calls
    intro _ s _
    exact settles_pure trivial
  · intro _ s _
    apply settles_get_bind
    apply settles_bind calls
    intro _ s _
    exact settles_pure trivial

omit late in
/-- And so does the teardown, whose only loop is `FwPoolDone`. -/
theorem settles_teardown (s : Proxy) :
    Settles Stop.exhausted (teardown w dispatch) s fun _ _ => True := by
  have c := composed_onward w
  have closes {session : Option SessionId} {ch : Option ChannelId} {s : Proxy} :
      Settles Stop.exhausted (fun _ => sessionClose w dispatch session ch) s fun _ _ => True :=
    settles_of_onward (composed_sessionClose c onward) fun _ _ => trivial
  apply settles_bind (P := fun _ _ => True)
    (settles_of_onward (composed_enterStage c) fun _ _ => trivial)
  intro _ s _
  apply settles_get_bind
  apply settles_bind (P := fun _ _ => True)
    (settles_when (fun _ => settles_fwPoolDone onward quiet _ s) fun _ => trivial)
  intro _ s _
  apply settles_get_bind
  apply settles_bind closes
  intro _ s _
  apply settles_get_bind
  exact closes

/-- From any state on `ProxyProcess` comes to an end. -/
theorem settles_proxyProcess (s : Proxy) :
    Settles Stop.exhausted (proxyProcess w dispatch) s fun _ _ => True := by
  have c := composed_onward w
  apply settles_bind (P := fun _ _ => True)
    (settles_of_onward (composed_when c fun _ => freely_opens (freely_onward w)) fun _ _ => trivial)
  intro _ s _
  apply settles_get_bind
  apply settles_bind (settles_call onward quiet)
  intro i s _
  apply settles_bind (P := fun _ _ => True)
    (settles_when (fun _ => settles_serve onward quiet late s) fun _ => trivial)
  intro _ s _
  exact settles_teardown onward quiet s

end Waiting

/-- **Every run comes to its end** once libssh makes no more callbacks, if the clock
goes on: the bounds on the iterations do not matter when they are large enough. There is
one run, the same for all larger bounds, and it does not stop for want of them. The
loops that wait end at a deadline, since nothing sets the idle timer any more; those
over the pool end since nothing is added to it. -/
theorem settles_proxyRun (w : World) (depth last : Nat) (subsides : ∀ t ≥ last, w.callbacks t = [])
    (passes : ∀ sec, ∃ t₀, ∀ t ≥ t₀, sec < (w.clock t).sec) :
    ∃ n run, (∀ fuel ≥ n, proxyRun w fuel depth = run) ∧ run.value ≠ .error .exhausted := by
  choose limit late using passes
  have quiet (t : Nat) (past : t ≥ last) : dispatchWithin w depth t = pure () := by
    cases depth with
    | zero => rfl
    | succ depth =>
        unfold dispatchWithin
        rw [subsides t past]
        rfl
  have elapsed (timer : Timeval) (t : Nat) (past : limit timer.sec ≤ t) :
      timerLeft timer (w.clock t) = 0 := timerLeft_of_late (late timer.sec t past)
  obtain ⟨n, run, same, ends, -⟩ :=
    settles_proxyProcess (onward_dispatchWithin w depth) quiet elapsed Proxy.initial
  exact ⟨n, run, same, ends⟩

/-- A client that logs in and asks for a forward, and is then silent, by a clock that counts the
interactions. -/
def clientFallsSilent : World :=
  { World.scripted .echo [] [(6, [somePassword, .newChannel, requestForward])] with
    clock := fun t => ⟨t, 0⟩ }

/-- The conditions can be met: a client that logs in, asks for a forward, and is then
silent, under a clock that counts the interactions. -/
theorem settles_clientFallsSilent :
    ∃ n run, (∀ fuel ≥ n, proxyRun clientFallsSilent fuel 2 = run) ∧
      run.value ≠ .error .exhausted := by
  refine settles_proxyRun clientFallsSilent 2 7 ?_ ?_
  · intro t past
    have other : (t == 6) = false := by
      rw [beq_eq_false_iff_ne]
      omega
    simp [clientFallsSilent, World.scripted, List.lookup_cons, other]
  · intro sec
    refine ⟨sec.toNat + 1, fun t past => ?_⟩
    show sec < (t : Int)
    omega

end HaasProxy
