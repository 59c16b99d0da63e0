import HaasProxy.Composition
import HaasProxy.Deadlines
import HaasProxy.Lib.Yields

/-!
# What the idle timer counts from (`proxy.c`)

Nearly every callback ends by setting the idle timer, and so does `ProxyProcess` when it
takes a session into the event.  A callback that says that a channel was closed does not,
nor does one about a pair that is being released.

`idleTracked_proxyRun` says that whenever the proxy waits for events the idle timer is
`IdleTimeout` after the last of these: callbacks within callbacks, and those that are made
while pairs are released or data is flushed, count like any other, and nothing else
does.

## Why the last setter is activity

Whether a callback is activity is told from the state it returns in (`Entry.Active`): the
channel must not be that of a detached pair *then*.  But whether it sets the timer is
decided by a test of `Pair->Context` when it *begins*, and in between anything may be
called back.  The two agree because no callback takes the context away from a pair that
is there when it begins:

* only `FwPairRelease` does so, and a callback releases at most the pair it has just
  allocated, for which there was no room in the pool;
* a channel comes to call back into a pair only when that pair is registered, and then it
  is one that was not there before.

`Retains` is that relation between two states, and `retaining_dispatchWithin` says that all
callbacks keep it.
-/

namespace HaasProxy

open Traced

/-! ## Activity -/

/-- The channel is that of a pair that has no context any more. -/
def Proxy.detached (s : Proxy) (ch : ChannelId) : Bool :=
  match (s.channels.cell ch).bind fun c => c.callbacks with
  | some (.forwardChannelCB p) => (s.pairs.cell p).any fun pair => pair.context.isNone
  | _ => false

/-- **The reading of the clock** that belongs to an entry: the one a callback has ended with,
and the one that follows when a session was taken into the event. -/
def Entry.reading (e : Entry) : Option Nat :=
  match e.action with
  | .call (.eventAddSession _) => some e.before.tick
  | .leave (.channel _ .close) => none
  | .leave _ => some (e.before.tick - 1)
  | _ => none

/-- The entry is about activity. -/
def Entry.Active (e : Entry) : Prop :=
  e.reading ≠ none ∧ ∀ ch event, e.action = .leave (.channel ch event) → e.before.detached ch = false

/-- **The timer was set by the last activity**: some entry is about activity, with the reading
of the clock that belongs to it, and none after it is. -/
def SetBy (w : World) (h : List Entry) (timer : Timeval) : Prop :=
  ∃ l r l' t, h = l ++ r :: l' ∧ r.Active ∧ r.reading = some t ∧
    timer = (w.clock t).later w.config.idleTimeout ∧ ∀ a ∈ l', ¬ a.Active

/-- **Whenever the proxy waits** the idle timer counts from the last activity. -/
def IdleTracked (w : World) (log : List Entry) : Prop :=
  Throughout (fun h e => ∀ time, e.action = .call (.eventDopoll time) →
    SetBy w h e.before.context.idleTimer) log

/-- From `timer` to `timer'`: the last activity has set it, or there was none. -/
def Tracks (w : World) (timer : Timeval) (l : List Entry) (timer' : Timeval) : Prop :=
  SetBy w l timer' ∨ timer' = timer ∧ ∀ a ∈ l, ¬ a.Active

section Tracks

variable {w : World} {l l' : List Entry} {a b c : Timeval} {e : Entry}

/-- What happened earlier does not matter to the last activity. -/
theorem SetBy.after (set : SetBy w l' a) : SetBy w (l ++ l') a := by
  obtain ⟨before, r, after, t, rfl, active, reading, eq, quiet⟩ := set
  exact ⟨l ++ before, r, after, t, (List.append_assoc ..).symm, active, reading, eq, quiet⟩

/-- Nor does what happens later, as long as it is no activity. -/
theorem SetBy.before (set : SetBy w l a) (quiet' : ∀ a ∈ l', ¬ a.Active) : SetBy w (l ++ l') a := by
  obtain ⟨before, r, after, t, rfl, active, reading, eq, quiet⟩ := set
  refine ⟨before, r, after ++ l', t, by simp, active, reading, eq, ?_⟩
  exact List.forall_mem_append.mpr ⟨quiet, quiet'⟩

/-- Where nothing is logged the timer is what it was. -/
theorem Tracks.refl (a : Timeval) : Tracks w a [] a := .inr ⟨rfl, List.forall_mem_nil _⟩

/-- If there was activity in the second stretch, that has set the timer; otherwise it is
as the first one has left it. -/
theorem Tracks.trans (first : Tracks w a l b) (next : Tracks w b l' c) :
    Tracks w a (l ++ l') c := by
  rcases next with set | ⟨rfl, quiet'⟩
  · exact .inl set.after
  · rcases first with set | ⟨rfl, quiet⟩
    · exact .inl (set.before quiet')
    · exact .inr ⟨rfl, List.forall_mem_append.mpr ⟨quiet, quiet'⟩⟩

/-- An entry that is not about activity. -/
theorem Tracks.entry (none : e.reading = none) : Tracks w a [e] a := by
  refine .inr ⟨rfl, ?_⟩
  simp [Entry.Active, none]

/-- An entry about activity, with the reading that the timer was set by. -/
theorem Tracks.set {t : Nat} (active : e.Active) (reading : e.reading = some t)
    (eq : b = (w.clock t).later w.config.idleTimeout) : Tracks w a (l ++ [e]) b :=
  .inl ⟨l, e, [], t, rfl, active, reading, eq, List.forall_mem_nil _⟩

end Tracks

/-! ## Programs that attend to the idle timer

Two judgements about one program from one state. `Attends` is for any program; `Resets` is
for one that ends by setting the timer, and says so where it returns. A program of the
second kind, followed by the entry of its end, is of the first. -/

/-- Wherever there was a wait, the idle timer was as the log says. -/
def WaitsTracked (w : World) (s : Proxy) (log : List Entry) : Prop :=
  Throughout (fun h e => ∀ time, e.action = .call (.eventDopoll time) →
    Tracks w s.context.idleTimer h e.before.context.idleTimer) log

/-- The idle timer is as the log says, in the end and wherever there was a wait. -/
structure Attends (w : World) {α : Type} (m : ProxyM α) (s : Proxy) : Prop where
  /-- In the end it was set by the last activity, or there was none. -/
  tracks : Tracks w s.context.idleTimer (m s).log (m s).state.context.idleTimer
  /-- So it was wherever there was a wait. -/
  waits : WaitsTracked w s (m s).log

/-- The same, but that the idle timer was set in the end. -/
structure Resets (w : World) {α : Type} (m : ProxyM α) (s : Proxy) : Prop where
  /-- Where the program stops, it is as the log says. -/
  stopped : ∀ e, (m s).value = .error e →
    Tracks w s.context.idleTimer (m s).log (m s).state.context.idleTimer
  /-- Where it returns, the idle timer was set last of all. -/
  returned : ∀ a, (m s).value = .ok a → ∃ t, (m s).state.tick = t + 1 ∧
    (m s).state.context.idleTimer = (w.clock t).later w.config.idleTimeout
  /-- Wherever there was a wait on the way, it was as the log says. -/
  waits : WaitsTracked w s (m s).log

section Attends

variable {w : World} {α β : Type} {m : ProxyM α} {k : α → ProxyM β} {s s' : Proxy}
  {l l' : List Entry}

/-- A wait in the second stretch sees the timer that the first one has left, or one that
was set since. -/
theorem WaitsTracked.append (tracks : Tracks w s.context.idleTimer l s'.context.idleTimer)
    (first : WaitsTracked w s l) (next : WaitsTracked w s' l') : WaitsTracked w s (l ++ l') :=
  throughout_append first fun before e after split time asks =>
    tracks.trans (next before e after split time asks)

/-- A single entry, in a state with the same idle timer. -/
theorem waitsTracked_entry {e : Entry} (same : e.before.context.idleTimer = s.context.idleTimer) :
    WaitsTracked w s [e] := by
  intro h e' rest split time _
  cases h with
  | nil =>
      cases split
      rw [same]
      exact .refl _
  | cons _ h => simp at split

/-- A program that logs nothing and leaves the timer alone attends to it. -/
theorem attends_silent (silent : (m s).log = [])
    (keeps : (m s).state.context.idleTimer = s.context.idleTimer) : Attends w m s := by
  refine ⟨?_, ?_⟩
  · rw [silent, keeps]
    exact .refl _
  · rw [silent]
    exact throughout_nil

theorem attends_pure (a : α) (s : Proxy) : Attends w (pure a : ProxyM α) s := attends_silent rfl rfl

/-- The rule of sequence; if the first program stops, the second has nothing to attend
to. -/
theorem attends_bind (first : Attends w m s) (next : ∀ a s', Attends w (k a) s') :
    Attends w (m >>= k) s := by
  obtain ⟨tracks, waits⟩ := first
  rcases run : m s with ⟨log, s', e | a⟩
  · rw [run] at tracks waits
    refine ⟨?_, ?_⟩ <;> rw [bind_of_error run]
    · exact tracks
    · exact waits
  · rw [run] at tracks waits
    obtain ⟨tracks', waits'⟩ := next a s'
    refine ⟨?_, ?_⟩ <;> rw [bind_of_ok run]
    · exact tracks.trans tracks'
    · exact waits.append tracks waits'

/-- The state in front of a program. -/
private theorem attends_get_bind {k : Proxy → ProxyM β} (next : Attends w (k s) s) :
    Attends w (get >>= k) s := by
  have read : (get : ProxyM Proxy) s = ⟨[], s, .ok s⟩ := rfl
  obtain ⟨tracks, waits⟩ := next
  refine ⟨?_, ?_⟩ <;> rw [bind_of_ok read]
  · exact tracks
  · exact waits

/-- An entry to which no reading of the clock belongs. -/
theorem attends_tell {action : Interaction} {i : Int}
    (none : ∀ s, Entry.reading ⟨s, action, i⟩ = none)
    (s : Proxy) : Attends w (tell fun s => ⟨s, action, i⟩) s :=
  ⟨.entry (none s), waitsTracked_entry rfl⟩

/-- Setting the idle timer to the clock's reading, one tick ago. -/
theorem resets_idleTimerReset (s : Proxy) : Resets w (idleTimerReset w) s where
  stopped := nofun
  returned _ _ := ⟨s.tick, rfl, rfl⟩
  waits := throughout_nil

/-- A program may end by resetting the timer, whatever it does before. -/
theorem resets_before (first : Attends w m s) (next : ∀ a s', Resets w (k a) s') :
    Resets w (m >>= k) s := by
  obtain ⟨tracks, waits⟩ := first
  rcases run : m s with ⟨log, s', e | a⟩
  · rw [run] at tracks waits
    refine ⟨?_, ?_, ?_⟩ <;> rw [bind_of_error run]
    · exact fun _ _ => tracks
    · exact nofun
    · exact waits
  · rw [run] at tracks waits
    obtain ⟨stopped, returned, waits'⟩ := next a s'
    refine ⟨?_, ?_, ?_⟩ <;> rw [bind_of_ok run]
    · exact fun e error => tracks.trans (stopped e error)
    · exact returned
    · exact waits.append tracks waits'

/-- What is only computed from the answer changes nothing about the timer. -/
theorem resets_after (first : Resets w m s) (f : α → β) :
    Resets w (m >>= fun a => pure (f a)) s := by
  obtain ⟨stopped, returned, waits⟩ := first
  rcases run : m s with ⟨log, s', e | a⟩
  · rw [run] at stopped waits
    refine ⟨?_, ?_, ?_⟩ <;> rw [bind_of_error run]
    · exact fun _ _ => stopped e rfl
    · exact nofun
    · exact waits
  · rw [run] at returned waits
    refine ⟨?_, ?_, ?_⟩ <;> rw [bind_of_ok run]
    · exact nofun
    · exact fun _ _ => returned a rfl
    · show WaitsTracked w s (log ++ [])
      rw [List.append_nil]
      exact waits

/-- A session is taken into the event. -/
theorem attends_watch {dispatch : Nat → ProxyM Unit} {session : Option SessionId}
    {k : Unit → ProxyM α} (next : ∀ s, Attends w (k ()) s) (s : Proxy) :
    Attends w (call w dispatch (.eventAddSession session) >>= fun _ => idleTimerReset w >>= k) s := by
  have added : call w dispatch (.eventAddSession session) s =
      ⟨[⟨s.tock, .call (.eventAddSession session), w.answer s.tick⟩], s.tock,
        .ok (w.answer s.tick)⟩ := run_callWith (by exact id)
  have reset : idleTimerReset w s.tock = ⟨[], s.tock.idled w, .ok ()⟩ := rfl
  obtain ⟨tracks, waits⟩ := next (s.tock.idled w)
  have set : Tracks w s.context.idleTimer
      [⟨s.tock, .call (.eventAddSession session), w.answer s.tick⟩]
      (s.tock.idled w).context.idleTimer := .set (l := []) ⟨nofun, nofun⟩ rfl rfl
  refine ⟨?_, ?_⟩ <;> rw [bind_of_ok added, bind_of_ok reset]
  · exact set.trans tracks
  · exact (waitsTracked_entry (s := s) rfl).append set waits

/-- Writing into a pair, even one that takes away its context: whether a callback counts
is asked at its end, not here. -/
theorem attends_modifyPair (p : PairId) (f : FwPair → FwPair) (s : Proxy) :
    Attends w (modifyPair p f) s := by
  rcases run_modifyPair_cases p f s with run | ⟨pair, -, run⟩
  · exact attends_silent (by rw [run]) (by rw [run])
  · exact attends_silent (by rw [run]) (by rw [run])

/-- **What the functions of the proxy do** is known from their logs. -/
theorem composed_attends (w : World) :
    ComposedFreely w (fun _ m => ∀ s, Attends w m s) fun _ m => ∀ s, Resets w m s where
  pure := attends_pure
  bind first next s := attends_bind (first s) next
  get _ := attends_silent rfl rfl
  fault _ _ := attends_silent rfl rfl
  nextTick _ := attends_silent rfl rfl
  modify aside s := attends_silent rfl (aside s).idleTimer
  change timeless s := attends_silent rfl (timeless s).idleTimer
  modifyPair p f _ := attends_modifyPair p f
  changePair := attends_modifyPair
  alloc _ _ := attends_tell fun _ => rfl
  release _ := attends_tell fun _ => rfl
  returned _ _ := attends_tell fun _ => rfl
  call c i makes := attends_tell fun s => by
    cases c with
    | eventAddSession _ => exact absurd makes.2 (by simp [Call.watches])
    | _ => rfl
  reset := resets_idleTimerReset
  before first next s := resets_before (first s) next
  after f first s := resets_after (first s) f
  watch := attends_watch

end Attends

/-! ## Callbacks do not detach pairs

The pairs before and after a callback. One that was there keeps its context, and a channel
that calls back into a pair afterwards did so before, or calls back into a new one. -/

/-- **What callbacks leave alone**, from `s` to `s'`: a pair without a context had none before,
and a channel that calls back into a pair did so before, unless the pair is one of those from
`n` on.  In front of a callback all pairs that are there are below `n`. -/
structure Retains (n : PairId) (s s' : Proxy) : Prop where
  next : s.pairs.next ≤ s'.pairs.next
  /-- No pair loses its context. -/
  detached : ∀ p pair', s'.pairs.cell p = some pair' → pair'.context = none →
    ∃ pair, s.pairs.cell p = some pair ∧ pair.context = none
  /-- No channel is registered with an old pair. -/
  calls : ∀ ch p, s'.CallsBack ch p → s.CallsBack ch p ∨ n ≤ p

section Retains

variable {n p : PairId} {ch : ChannelId} {s s' s'' : Proxy}

/-- A channel is that of a detached pair if it calls back into one that is there without
a context. -/
theorem detached_iff : s.detached ch = true ↔
    ∃ p pair, s.CallsBack ch p ∧ s.pairs.cell p = some pair ∧ pair.context = none := by
  unfold Proxy.detached Proxy.CallsBack
  cases callbacks : (s.channels.cell ch).bind Channel.callbacks with
  | none => simp
  | some table => cases table <;> simp [Option.any_eq_true]

namespace Retains

/-- A pair that has no context in the end had none in between, hence none at first. That
pairs from `n` on are exempt carries over since the counter only goes up. -/
theorem trans (first : Retains n s s') (next : Retains n s' s'') : Retains n s s'' where
  next := first.next.trans next.next
  detached p pair'' cell none := by
    obtain ⟨pair', cell', none'⟩ := next.detached p pair'' cell none
    exact first.detached p pair' cell' none'
  calls ch p calls := by
    rcases next.calls ch p calls with calls | above
    · exact first.calls ch p calls
    · exact .inr above

/-- The pairs are what they were, and nothing new calls back into them. -/
theorem of_forgets (pairs : s'.pairs = s.pairs) (forgets : Forgets s s') : Retains n s s' where
  next := pairs ▸ Nat.le_refl _
  detached _ pair cell none := ⟨pair, pairs ▸ cell, none⟩
  calls ch p calls := .inl (forgets ch p calls)

/-- A channel comes to call back into a new pair. -/
theorem updateChannel {f : Channel → Channel} (ch : ChannelId)
    (new : ∀ c p, (f c).callbacks = some (.forwardChannelCB p) → n ≤ p) :
    Retains n s (s.updateChannel ch f) := by
  have pairs : (s.updateChannel ch f).pairs = s.pairs := by
    unfold Proxy.updateChannel
    split <;> rfl
  refine ⟨pairs ▸ Nat.le_refl _, fun p pair cell none => ⟨pair, pairs ▸ cell, none⟩, ?_⟩
  intro ch' p calls
  unfold Proxy.CallsBack at calls
  rw [cell_updateChannel] at calls
  split at calls
  · obtain ⟨c', cell, callbacks⟩ := Option.bind_eq_some_iff.mp calls
    obtain ⟨c, -, rfl⟩ := Option.map_eq_some_iff.mp cell
    exact .inr (new c p callbacks)
  · exact .inl calls

/-- A pair is overwritten, and not detached by that. -/
theorem store {pair pair' : FwPair} (cell : s.pairs.cell p = some pair)
    (keeps : pair'.context = none → pair.context = none) :
    Retains n s { s with pairs := s.pairs.store p pair' } where
  next := Nat.le_refl _
  detached q pair'' there none := by
    by_cases same : q = p
    · subst same
      cases (s.pairs.cell_store_self cell).symm.trans there
      exact ⟨pair, cell, keeps none⟩
    · exact ⟨pair'', (s.pairs.cell_store_of_ne same).symm.trans there, none⟩
  calls _ _ calls := .inl calls

/-- A pair is freed. -/
theorem free (s : Proxy) (p : PairId) : Retains n s { s with pairs := s.pairs.free p } where
  next := Nat.le_refl _
  detached q pair there none := by
    by_cases same : q = p
    · subst same
      cases s.pairs.cell_free_self.symm.trans there
    · exact ⟨pair, (s.pairs.cell_free_of_ne same).symm.trans there, none⟩
  calls _ _ calls := .inl calls

/-- A pair was allocated in front of a part of a run, and in the end it is not detached: it has
a context, or is gone. -/
theorem of_alloc {pair : FwPair} (retains : Retains n { s with pairs := s.pairs.alloc pair } s')
    (kept : ∀ pair, s'.pairs.cell s.pairs.next = some pair → pair.context ≠ none) :
    Retains n s s' where
  next := (Nat.le_succ _).trans retains.next
  detached q pair' cell none := by
    have other : q ≠ s.pairs.next := by
      rintro rfl
      exact kept pair' cell none
    obtain ⟨pair, before, none⟩ := retains.detached q pair' cell none
    exact ⟨pair, (s.pairs.cell_alloc_of_ne other).symm.trans before, none⟩
  calls := retains.calls

/-- **The channel of an attached pair** is still that of an attached pair. -/
theorem attached (retains : Retains s.pairs.next s s') (attached : s.detached ch = false) :
    s'.detached ch = false := by
  rw [Bool.eq_false_iff] at attached ⊢
  intro detached
  obtain ⟨p, pair', calls, cell, none⟩ := detached_iff.mp detached
  obtain ⟨pair, before, none⟩ := retains.detached p pair' cell none
  rcases retains.calls ch p calls with calls | above
  · exact attached (detached_iff.mpr ⟨p, pair, calls, before, none⟩)
  · exact absurd (s.pairs.lt_next_of_cell before) (Nat.not_lt.mpr above)

end Retains

end Retains

/-- The program detaches no pair, if it returns. -/
def Retaining (n : PairId) {α : Type} (m : ProxyM α) : Prop :=
  ∀ s, n ≤ s.pairs.next → Yields m s fun _ _ s' => Retains n s s'

section Retaining

variable {n : PairId} {w : World} {dispatch : Nat → ProxyM Unit} {α β : Type} {m : ProxyM α}
  {k : α → ProxyM β} {p : PairId} {s : Proxy}

/-- The rule of sequence. The second program starts with at least as many pairs as the
first, so `n` bounds those as well. -/
theorem retaining_bind (first : Retaining n m) (next : ∀ a, Retaining n (k a)) :
    Retaining n (m >>= k) := by
  intro s above
  refine yields_bind (first s above) fun _ a s' retains => ?_
  exact yields_mono (next a s' (above.trans retains.next)) fun _ _ _ next => retains.trans next

/-- A program that neither touches a pair nor registers anything. -/
theorem retaining_of_forgets (pairs : ∀ s, (m s).state.pairs = s.pairs)
    (forgets : ∀ s, Forgets s (m s).state) : Retaining n m := by
  intro s _ l s' a run
  have pairs := pairs s
  have forgets := forgets s
  rw [run] at pairs forgets
  exact .of_forgets pairs forgets

theorem retaining_pure (a : α) : Retaining n (pure a : ProxyM α) :=
  retaining_of_forgets (fun _ => rfl) Forgets.refl

theorem retaining_tell {f : Proxy → Entry} : Retaining n (tell f) :=
  retaining_of_forgets (fun _ => rfl) Forgets.refl

theorem retaining_idleTimerReset : Retaining n (idleTimerReset w) :=
  retaining_of_forgets (fun _ => rfl) fun _ => .of_channels rfl

/-- A write that takes away no context. This covers all writes into pairs but the one in
`FwPairRelease`. -/
theorem retaining_modifyPair (p : PairId) (f : FwPair → FwPair)
    (keeps : ∀ pair, (f pair).context = none → pair.context = none) :
    Retaining n (modifyPair p f) := by
  intro s _
  rcases run_modifyPair_cases p f s with run | ⟨pair, cell, run⟩
  · exact yields_of_error run
  · exact yields_of_run run (.store cell (keeps pair))

/-- **What the functions of the proxy do** detaches no pair, where none is released. -/
theorem composed_retaining (n : PairId) (w : World) :
    Composed w (fun _ => Retaining n) fun _ => Retaining n where
  pure := retaining_pure
  bind := retaining_bind
  get := retaining_of_forgets (fun _ => rfl) Forgets.refl
  fault _ _ _ := yields_of_error rfl
  nextTick := retaining_of_forgets (fun _ => rfl) fun _ => .of_channels rfl
  modify aside := retaining_of_forgets (fun s => (aside s).pairs) fun s => (aside s).forgets
  modifyPair := retaining_modifyPair
  alloc _ _ := retaining_tell
  call _ _ _ := retaining_tell
  returned _ _ := retaining_tell
  reset := retaining_idleTimerReset
  before := retaining_bind
  after f first := retaining_bind first fun a => retaining_pure (f a)
  watch next := by
    refine retaining_bind ?_ fun _ => retaining_bind retaining_idleTimerReset fun _ => next
    intro s _
    exact yields_of_run (run_callWith (by exact id)) (.of_forgets rfl (.of_channels rfl))

/-- Putting something into the pool is nothing to the pairs and the channels. -/
theorem yields_poolAdd_pairs {pool : Option PoolId} {item : Option PairId} :
    Yields (poolAdd w pool item) s fun _ _ s' => s'.pairs = s.pairs ∧ s'.channels = s.channels := by
  rcases run_poolAdd w pool item s with ⟨l, s', stop, run, -⟩ | ⟨-, run⟩ |
    ⟨id, contents, granted, index, contents', l, t, -, -, -, -, run, -⟩
  · exact yields_of_error run
  · exact yields_of_run run ⟨rfl, rfl⟩
  · exact yields_of_run run ⟨rfl, rfl⟩

variable (hd : ∀ t, Retaining n (dispatch t))

include hd

/-- **A detached pair is released**: no other pair is detached by that, and it is gone. -/
theorem retains_fwPairRelease {pair : FwPair} (above : n ≤ s.pairs.next)
    (cell : s.pairs.cell p = some pair) (detached : pair.context = none) :
    Yields (fwPairRelease w dispatch p) s fun _ _ s' =>
      Retains n s s' ∧ s'.pairs.cell p = none := by
  have c := composed_retaining n w
  refine yields_tell_bind (yields_bind_of_ok (run_modifyPair cell) ?_)
  have cleared : Retains n s { s with
      pairs := s.pairs.store p { pair with context := none, closed := false } } :=
    .store cell fun _ => detached
  refine yields_bind (composed_fwEndpointDone c hd _ above) fun _ _ s₂ source => ?_
  refine yields_bind (composed_fwEndpointDone c hd s₂ (above.trans source.next))
    fun _ _ s₃ destiny => ?_
  refine yields_of_run rfl ⟨?_, s₃.pairs.cell_free_self⟩
  exact cleared.trans (source.trans (destiny.trans (.free s₃ p)))

/-- The new pair gets a context, and is filled in. -/
theorem retains_attach {originator destination : CString} {originatorPort destinationPort : Int}
    {src dst : Option ChannelId} {pair : FwPair} (new : n ≤ p) (above : n ≤ s.pairs.next)
    (cell : s.pairs.cell p = some pair) :
    Yields (do
      modifyPair p fun pair => { pair with context := some .proxyProcess }
      let strdup ← allocate w .strdup
      modifyEndpoint p .source fun _ =>
        { addr := if strdup then some originator else none
          port := originatorPort
          channel := src }
      modify fun s => { s with locals := src.elim s.locals s.locals.erase }
      let strdup ← allocate w .strdup
      modifyEndpoint p .destiny fun _ =>
        { addr := if strdup then some destination else none
          port := destinationPort
          channel := dst }
      modify fun s => { s with locals := dst.elim s.locals s.locals.erase }
      sshSetChannelCallbacks w dispatch src (.forwardChannelCB p)
      when (dst ≠ none) do
        sshSetChannelCallbacks w dispatch dst (.forwardChannelCB p)
      pure false) s fun _ _ s' =>
      Retains n s s' ∧ ∀ pair, s'.pairs.cell p = some pair → pair.context ≠ none := by
  have c := composed_retaining n w
  refine yields_bind_of_ok (run_modifyPair cell) ?_
  have attached : Retains n s { s with
      pairs := s.pairs.store p { pair with context := some .proxyProcess } } :=
    .store cell (by simp)
  have registers (ch : ChannelId) : Retaining n (modify fun s =>
      s.updateChannel ch fun c => { c with callbacks := some (.forwardChannelCB p) }) := by
    intro s _
    refine yields_of_run rfl (.updateChannel ch fun _ q eq => ?_)
    cases eq
    exact new
  refine yields_mono (composed_fillPair c hd registers _ above) fun _ _ s' fills => ?_
  refine ⟨attached.trans fills, fun pair' there none => ?_⟩
  obtain ⟨before, cell', none⟩ := fills.detached p pair' there none
  cases (s.pairs.cell_store_self cell).symm.trans cell'
  cases none

/-- **A forward is registered**: the new pair has a context in the end, or is gone. -/
theorem retaining_forwardRegister : RegistersForwards w (fun _ => Retaining n) dispatch := by
  intro originator originatorPort destination destinationPort src dst s above
  cases granted : w.granted s.tick with
  | false =>
      refine yields_bind_of_ok (run_fwPairAlloc_denied granted) (yields_get_bind ?_)
      refine yields_bind yields_poolAdd_pairs ?_
      rintro _ index s' ⟨pairs, channels⟩
      refine yields_ite (fun _ => yields_of_error rfl) fun _ => yields_pure ?_
      exact .of_forgets pairs (.of_channels channels)
  | true =>
      refine yields_bind_of_ok (run_fwPairAlloc granted) (yields_get_bind ?_)
      refine yields_bind yields_poolAdd_pairs ?_
      rintro _ index s₂ ⟨pairs, channels⟩
      have cell : s₂.pairs.cell s.pairs.next = some (blankPair s.pairs.next) := by
        rw [pairs]
        exact s.pairs.cell_alloc_self
      have above₂ : n ≤ s₂.pairs.next := by
        rw [pairs]
        exact above.trans (Nat.le_succ _)
      have whole {s₃ : Proxy} (retains : Retains n s₂ s₃)
          (kept : ∀ pair, s₃.pairs.cell s.pairs.next = some pair → pair.context ≠ none) :
          Retains n s s₃ := by
        have allocated : Retains n { s with pairs := s.pairs.alloc (blankPair s.pairs.next) } s₂ :=
          .of_forgets pairs (.of_channels channels)
        exact .of_alloc (allocated.trans retains) kept
      refine yields_ite (fun _ => ?_) fun _ => ?_
      · refine yields_mono (retains_attach hd above above₂ cell) ?_
        rintro _ _ s₃ ⟨retains, kept⟩
        exact whole retains kept
      · refine yields_bind (retains_fwPairRelease hd above₂ cell rfl) ?_
        rintro _ _ s₃ ⟨retains, gone⟩
        refine yields_pure (whole retains fun pair there => ?_)
        cases gone.symm.trans there

omit hd in
/-- **Callbacks detach no pairs.** -/
theorem retaining_dispatchWithin (w : World) (depth t : Nat) :
    Retaining n (dispatchWithin w depth t) := by
  have c := composed_retaining n w
  refine composed_dispatchWithin c (fun _ hd => retaining_forwardRegister hd) id
    (fun _ _ _ => retaining_tell) ?_ depth t
  intro cb m body
  apply retaining_bind retaining_tell
  intro _
  apply retaining_bind body
  intro back
  exact retaining_bind retaining_tell fun _ => retaining_pure back

end Retaining

/-! ## Callbacks

Here the two halves meet: what a callback does to the timer, and the entry that says it
has ended. Between its two entries a callback is a program that `Resets`, unless its pair
is detached or the channel was closed. -/

section Callbacks

variable {w : World} {dispatch : Nat → ProxyM Unit} {m : ProxyM Int} {cb : Callback} {s : Proxy}

theorem Tracks.enter {timer timer' : Timeval} {l : List Entry} {e : Entry} (none : e.reading = none)
    (tracks : Tracks w timer l timer') : Tracks w timer (e :: l) timer' :=
  (Tracks.entry none).trans tracks

theorem waitsTracked_enter {l : List Entry} (waits : WaitsTracked w s l) :
    WaitsTracked w s (⟨s, .enter cb, 0⟩ :: l) :=
  (waitsTracked_entry (s := s) rfl).append (.entry rfl) waits

/-- The last entry is not about a wait. -/
theorem WaitsTracked.concat {l : List Entry} {e : Entry} (waits : WaitsTracked w s l)
    (other : ∀ time, e.action ≠ .call (.eventDopoll time)) : WaitsTracked w s (l ++ [e]) := by
  refine throughout_append waits ?_
  intro h e' rest split time asks
  cases h with
  | nil =>
      cases split
      exact absurd asks (other time)
  | cons _ h => simp at split

/-- A callback that sets the idle timer in the end, and is not about a detached pair then. -/
theorem attends_logged (reading : ∀ s i, Entry.reading ⟨s, .leave cb, i⟩ = some (s.tick - 1))
    (attached : ∀ back, (m s).value = .ok back → ∀ ch event, cb = .channel ch event →
      (m s).state.detached ch = false) (body : Resets w m s) : Attends w (logged cb m) s := by
  obtain ⟨stopped, returned, waits⟩ := body
  rcases run : m s with ⟨log, s', e | back⟩
  · rw [run] at stopped waits
    refine ⟨?_, ?_⟩ <;> rw [run_logged_of_error run]
    · exact (stopped e rfl).enter rfl
    · exact waitsTracked_enter waits
  · rw [run] at returned waits attached
    obtain ⟨t, tick, eq⟩ := returned back rfl
    have active : Entry.Active ⟨s', .leave cb, back⟩ := by
      refine ⟨?_, fun ch event about => ?_⟩
      · rw [reading]
        exact Option.some_ne_none _
      · cases about
        exact attached back rfl ch event rfl
    refine ⟨?_, ?_⟩ <;> rw [run_logged run]
    · refine Tracks.enter rfl (.set (t := t) active ?_ eq)
      rw [reading, tick, Nat.add_sub_cancel]
    · exact waitsTracked_enter (waits.concat nofun)

/-- A callback that is not activity. -/
theorem attends_logged_quiet (quiet : ∀ a, (m s).value = .ok a →
      ¬ Entry.Active ⟨(m s).state, .leave cb, a⟩) (body : Attends w m s) :
    Attends w (logged cb m) s := by
  obtain ⟨tracks, waits⟩ := body
  rcases run : m s with ⟨log, s', e | back⟩
  · rw [run] at tracks waits
    refine ⟨?_, ?_⟩ <;> rw [run_logged_of_error run]
    · exact tracks.enter rfl
    · exact waitsTracked_enter waits
  · rw [run] at tracks waits quiet
    refine ⟨?_, ?_⟩ <;> rw [run_logged run]
    · exact (tracks.trans (.inr ⟨rfl, by simpa using quiet back rfl⟩)).enter rfl
    · exact waitsTracked_enter (waits.concat nofun)

/-- Every callback on a channel but the closing one has read the clock one tick before
it returns. -/
theorem reading_leave {ch : ChannelId} {event : ChannelEvent} (other : event ≠ .close) (s : Proxy)
    (i : Int) : Entry.reading ⟨s, .leave (.channel ch event), i⟩ = some (s.tick - 1) := by
  cases event with
  | close => exact absurd rfl other
  | _ => rfl

/-- A channel that is not that of a detached pair in front of a callback is none after it. -/
theorem attached_of_retaining {ch : ChannelId} (retaining : Retaining s.pairs.next m)
    (attached : s.detached ch = false) (back : Int) (returned : (m s).value = .ok back) :
    (m s).state.detached ch = false := by
  rcases run : m s with ⟨log, s', value⟩
  rw [run] at returned
  obtain rfl : value = .ok back := returned
  exact (retaining s (Nat.le_refl _) log s' back run).attached attached

/-- A callback about a pair, which may be on its way out. -/
theorem attends_forward {ch : ChannelId} {event : ChannelEvent} {channel : Channel} {p : PairId}
    {a : Int} {k : FwPair → ProxyM Int} (other : event ≠ .close)
    (cell : s.channels.cell ch = some channel)
    (callbacks : channel.callbacks = some (.forwardChannelCB p))
    (resets : ∀ pair s, Resets w (k pair) s) (retaining : Retaining s.pairs.next
      (loadPair p >>= fun pair => if pair.context = none then pure a else k pair)) :
    Attends w (logged (.channel ch event)
      (loadPair p >>= fun pair => if pair.context = none then pure a else k pair)) s := by
  cases there : s.pairs.cell p with
  | none =>
      have stopped := bind_of_error (k := fun pair : FwPair =>
        if pair.context = none then (pure a : ProxyM Int) else k pair) (run_loadPair_of_none there)
      refine attends_logged_quiet ?_ (attends_silent ?_ ?_) <;> rw [stopped]
      exact nofun
  | some pair =>
      by_cases context : pair.context = none
      · have run : (loadPair p >>= fun pair => if pair.context = none then pure a else k pair) s =
            ⟨[], s, .ok a⟩ := by
          rw [bind_of_ok (run_loadPair there), if_pos context]
          rfl
        refine attends_logged_quiet ?_ (attends_silent ?_ ?_) <;> rw [run]
        rintro _ - ⟨-, attached⟩
        have detached : s.detached ch = true := by
          simp [Proxy.detached, cell, callbacks, there, context]
        exact absurd (attached ch event rfl) (by rw [detached]; decide)
      · have run : (loadPair p >>= fun pair => if pair.context = none then pure a else k pair) s =
            k pair s := by
          rw [bind_of_ok (run_loadPair there), if_neg context]
          rfl
        have attached : s.detached ch = false := by
          simp [Proxy.detached, cell, callbacks, there, Option.isSome_iff_ne_none, context]
        have after := attached_of_retaining retaining attached
        obtain ⟨stopped, returned, waits⟩ := resets pair s
        refine attends_logged (reading_leave other) ?_ ⟨?_, ?_, ?_⟩
        · rintro back ok _ _ ⟨⟩
          exact after back ok
        all_goals rw [run]
        · exact stopped
        · exact returned
        · exact waits

/-- What happens on a channel. -/
theorem attends_deliverChannel (nested : ∀ t s, Attends w (dispatch t) s)
    (retaining : ∀ n t, Retaining n (dispatch t)) (ch : ChannelId) (event : ChannelEvent)
    (s : Proxy) : Attends w (deliverChannel w dispatch ch event) s := by
  have c := composed_attends w
  have told (a : Call) (i : Int) (other : a.watches = false) (s : Proxy) :
      Attends w (tell fun s => ⟨s, .call a, i⟩) s := by
    refine attends_tell (fun s => ?_) s
    cases a with
    | eventAddSession _ => exact absurd other (by simp [Call.watches])
    | _ => rfl
  refine attends_bind (c.modify (fun s => aside_arrive s ch event) s) fun _ s => ?_
  refine attends_get_bind ?_
  cases cell : s.channels.cell ch with
  | none => exact attends_pure () s
  | some channel =>
      cases callbacks : channel.callbacks with
      | none =>
          simp only [callbacks]
          exact attends_pure () s
      | some table =>
          simp only [callbacks, Option.bind_some]
          cases callback : channelCallback w dispatch ch channel table event with
          | none => exact attends_pure () s
          | some m =>
              refine attends_bind ?_ fun back s => c.modify (fun s => aside_consume s ch back event) s
              -- what the pairs are when the callback begins, they are when it ends
              have retains : Retaining s.pairs.next m :=
                composed_channelCallback_weak (composed_retaining _ w) (retaining _)
                  (fun _ _ _ => retaining_tell) id callback
              cases composed_channelCallback c.toComposed nested told callback with
              | close closes =>
                  refine attends_logged_quiet ?_ (closes s)
                  rintro a - ⟨reading, -⟩
                  exact reading rfl
              | session other session resets =>
                  have attached : s.detached ch = false := by
                    unfold Proxy.detached
                    rw [cell, Option.bind_some, callbacks]
                    cases table with
                    | forwardChannelCB p => exact absurd rfl (session p)
                    | _ => rfl
                  refine attends_logged (reading_leave other) ?_ (resets s)
                  rintro back ok _ _ ⟨⟩
                  exact attached_of_retaining retains attached back ok
              | forward other resets => exact attends_forward other cell callbacks resets retains

/-- **Callbacks attend to the idle timer**, nested to any depth. The induction is on the
depth; what a callback retains is needed of the callbacks below it only. -/
private theorem attends_dispatchWithin (w : World) (depth t : Nat) (s : Proxy) :
    Attends w (dispatchWithin w depth t) s := by
  have c := composed_attends w
  induction depth generalizing t s with
  | zero => exact attends_pure () s
  | succ depth ih =>
      have deliver (cb : Callback) : ∀ s, Attends w (deliver w (dispatchWithin w depth) cb) s := by
        refine composed_deliver (P := fun m => ∀ s, Attends w m s) c.toComposed ih
          (freely_forwardRegister c ih)
          (attends_deliverChannel ih fun _ => retaining_dispatchWithin w depth) ?_ cb
        intro cb m other body s
        have noChannel (back : Int) (_ : (m s).value = .ok back) (ch : ChannelId)
            (event : ChannelEvent) (about : cb = .channel ch event) :
            (m s).state.detached ch = false := absurd about (other ch event)
        refine attends_bind (attends_logged (fun s i => ?_) noChannel (body s))
          fun _ => attends_pure ()
        cases cb with
        | channel ch event => exact absurd rfl (other ch event)
        | _ => rfl
      exact composed_each c.toComposed deliver s

end Callbacks

/-! ## Waits

A wait always has activity in front of it: the client's session is taken into the event
before the first loop. -/

/-- The client's session was taken into the event. -/
def Watches (h : List Entry) : Prop := ∃ a ∈ h, a.action.addsSession = true

/-- **The invariant**: it was as soon as a loop runs, and where a wait has returned to one. -/
structure Watched (h : List Entry) (s : Proxy) : Prop where
  /-- Whoever is in a loop has taken the client's session into the event. -/
  here : s.stage = .login ∨ s.stage = .relay → Watches h
  /-- So had whoever came back to one. -/
  woken : ∀ r ∈ h, ∀ time, r.action = .returned (.eventDopoll time) →
    r.before.stage = .login ∨ r.before.stage = .relay → Watches h

section Watched

variable {w : World} {serial : Prop} {h l : List Entry} {s s' : Proxy}

/-- What was taken into the event stays in the history. -/
theorem Watches.append (watches : Watches h) : Watches (h ++ l) := by
  obtain ⟨a, mem, adds⟩ := watches
  exact ⟨a, List.mem_append_left l mem, adds⟩

/-- The client's session was taken into the event by that call. -/
private theorem watches_of_call {e : Entry} {session : Option SessionId}
    (added : e.action = .call (.eventAddSession session)) (mem : e ∈ h) : Watches h :=
  ⟨e, mem, by rw [added]; rfl⟩

/-- The loop for the login is entered behind the call that takes the session into the
event, and later rounds come from a wait of that loop. -/
private theorem watches_of_loginTop (watched : Watched h s) (top : LoginTop w h s') :
    Watches h := by
  cases top with
  | first _ _ added => exact watches_of_call added (by simp)
  | @next h r time returned stage => exact watched.woken r (by simp) time returned (.inl stage)

/-- Whoever waits is in one of the loops. -/
private theorem looping_of_waits {time : Int} (waits : Waits w h s time) :
    s.stage = .login ∨ s.stage = .relay := by
  cases waits with
  | login here _ _ eq =>
      rw [eq]
      cases here with
      | first _ _ _ _ _ eq => exact .inl (by rw [eq])
      | next _ stage => exact .inl stage
  | relay _ _ _ _ _ _ _ _ _ _ stage => exact .inr stage

/-- **The step.** No step but those of the loops themselves enters them. -/
private theorem watched_advance (watched : Watched h s) (advance : Advance w serial h s l s') :
    Watched (h ++ l) s' := by
  have here (serving : s'.stage = .login ∨ s'.stage = .relay) : Watches (h ++ l) := by
    by_cases before : s.stage = .login ∨ s.stage = .relay
    · exact (watched.here before).append
    · cases advance with
      | login _ _ top => exact (watches_of_loginTop watched top).append
      | relay _ _ top login => exact absurd (.inl login) before
      | change change =>
          rw [stage_of_change change] at serving
          exact absurd serving before
      | teardown => simp at serving
      | _ => exact absurd serving before
  refine ⟨here, ?_⟩
  intro r mem time returned stage
  rcases List.mem_append.mp mem with mem | mem
  · exact (watched.woken r mem time returned stage).append
  · rw [before_of_woken advance r mem time returned] at stage
    exact (watched.here stage).append

/-- In a step there is a wait only if a loop waits. -/
theorem watches_of_advance (watched : Watched h s) (advance : Advance w serial h s l s') :
    Throughout (fun l₁ e => ∀ time, e.action = .call (.eventDopoll time) → Watches (h ++ l₁)) l := by
  intro l₁ e l₂ split time asks
  have mem : e ∈ l := by simp [split]
  cases advance with
  | wait _ _ _ _ waits => exact (watched.here (looping_of_waits waits)).append
  | change change => exact absurd ⟨time, .inl asks⟩ (not_aboutWait_of_change change e mem)
  | woken =>
      rw [List.mem_singleton.mp mem] at asks
      cases asks
  | event _ _ i about =>
      rw [List.mem_singleton.mp mem] at asks
      rcases about with rfl | rfl <;> cases asks
  | bye =>
      simp only [byeLog, List.mem_cons, List.not_mem_nil, or_false] at mem
      rcases mem with rfl | rfl <;> cases asks
  | _ => simp at mem

/-- Taking a session into the event is activity: the idle timer is set next. -/
private theorem active_of_addsSession {a : Entry} (adds : a.action.addsSession = true) :
    a.Active := by
  obtain ⟨before, action, answer⟩ := a
  cases action with
  | call c =>
      cases c with
      | eventAddSession session => exact ⟨nofun, nofun⟩
      | _ => cases adds
  | _ => cases adds

end Watched

/-- **The idle timer of every run** counts from the last activity whenever the proxy
waits. The activity is some entry of the log that `Active` holds of, with no such entry
behind it; there always is one, since a session was taken into the event. A callback
that says a channel was closed, or is about a detached pair, is none, and does not set
the timer. -/
theorem idleTracked_proxyRun (w : World) (fuel depth : Nat) :
    IdleTracked w (proxyRun w fuel depth).log := by
  have attends : Attends w (proxyProcess w (dispatchWithin w depth) fuel) Proxy.initial :=
    freely_proxyProcess (composed_attends w) (attends_dispatchWithin w depth)
      (fun _ _ => attends_silent rfl rfl) Proxy.initial
  obtain ⟨-, watched⟩ := (path_proxyRun w fuel depth).inv_entries (I := Watched)
    (P := fun h e => ∀ time, e.action = .call (.eventDopoll time) → Watches h)
    (fun _ _ _ _ watched advance =>
      ⟨watched_advance watched advance, watches_of_advance watched advance⟩)
    ⟨by simp [Proxy.initial], by simp⟩
  intro h e rest split time asks
  rcases attends.waits h e rest split time asks with set | ⟨-, quiet⟩
  · exact set
  · obtain ⟨a, mem, adds⟩ := watched h e rest split time asks
    exact absurd (active_of_addsSession adds) (quiet a mem)

end HaasProxy
