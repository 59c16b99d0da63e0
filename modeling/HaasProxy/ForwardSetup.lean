import HaasProxy.Transitions.Process

/-!
# Setting up a forward

`TrapMessageCallback` on a request for a direct forward takes six steps that may
fail, and undoes what it did when one of them does.  `AllOrNothing` is what is
asked of it, `Entry.Spoils` says which answers it does not cope with: a pair that
was not allocated is added to the pool as `NULL` before anybody looks at it, and
the growth of a full pool is refused.

`forwardSetup_iff` is about one call while libssh makes no other callbacks, for
every state with a pool in order.  `noNull_proxyRun` is about whole runs, by
the steps they are made of.

## Main definitions and results

* `ForwardRequest.Added` — a forward was set up, and nothing else changed;
* `ForwardFails` — why it was not;
* `ForwardRequest.AllOrNothing` — what is asked of one call;
* `Entry.Spoils` — the two answers that the code does not cope with;
* `allOrNothing_iff` — it is all or nothing exactly without these;
* `noNull_advance` — a step of a run adds no `NULL`, unless an answer spoils it;
* `forwardSetup_iff` — both of them.

## Design notes

**Failed and spoiled.**  Every step of setting up a forward asks something: a channel, an
answer of the peer, memory.  `Entry.Failed` is that it was refused.  The code copes with most
of that.  `Entry.Spoils` is what it does not, and there the two ways in which it goes wrong
differ:

* no memory for the pair: `FwPoolAdd` stores `NULL`, and the callback dereferences it;
* no memory for a full pool: `FwPoolAdd` stores the pair behind the array, and does not
  answer the -1 that the callback tests for.

A copy of an address that fails is neither.  The pair is filled in with a null pointer in
its place, and this is the forward that was asked for.

**The four verdicts on a log.**  The functions are put together from ones that are `Smooth`,
after which nothing has failed; `Coped`, after which something has and the state is what it
was; and those that end in a fault, `Breaks`.  The three are proved for each step in
turn, and the callback is the sequence.

**No callbacks in between.**  Most of the calls made here handle packets.  What they deliver is
left out for the first half, which compares one state with another.  The second half is
about runs in which anything is called back.
-/

namespace HaasProxy

open Traced

/-! ## What is asked

A request for a forward is all or nothing: either there is a pair with both channels in
the pool, or nothing that was obtained is left. What the request finds is a pool in order,
and no callback comes in between. -/

/-- A step fails: no channel, a refusal, or no memory. -/
def Entry.Failed (e : Entry) : Prop :=
  match e.action with
  | .call (.channelNew _) | .call (.openForward ..) | .call .openReplyAccept => e.answer ≠ sshOk
  | .alloc _ => e.answer = 0
  | _ => False

/-- There is a pool but no memory for the pair, or a full pool does not grow. -/
def Entry.Spoils (e : Entry) : Prop :=
  match e.action with
  | .alloc .fwPair => e.answer = 0 ∧ e.before.context.forwardPool ≠ none
  | .alloc .items => e.answer = 0 ∨ ∃ id, e.before.context.forwardPool = some id ∧
      ∃ pool, e.before.pools.cell id = some pool ∧ intMax < pool.alloc + poolAllocSize
  | _ => False

instance (e : Entry) : Decidable e.Spoils := by
  rcases e with ⟨before, _ | _ | (_ | _ | _ | _) | _ | _ | _, answer⟩
  case alloc.fwPair => exact inferInstanceAs (Decidable (_ ∧ _ ≠ _))
  case alloc.items =>
    exact inferInstanceAs (Decidable (answer = 0 ∨ ∃ id ∈ before.context.forwardPool,
      ∃ pool ∈ before.pools.cell id, intMax < pool.alloc + poolAllocSize))
  all_goals exact inferInstanceAs (Decidable False)

/-- The pools, the pairs and the channels are what they were: nothing was added
to the pool, and no channel is registered with a new pair. -/
structure Proxy.Unchanged (s s' : Proxy) : Prop where
  forwardPool : s'.context.forwardPool = s.context.forwardPool
  /-- The pool has the items it had. -/
  pools : s'.pools = s.pools
  pairs : s'.pairs.cell = s.pairs.cell
  /-- No channel is new, and none calls back into a new pair. -/
  channels : s'.channels.cell = s.channels.cell

/-- A request for a direct forward. -/
structure ForwardRequest where
  originator : CString
  originatorPort : Int
  destination : CString
  destinationPort : Int

/-- The message that carries the request. -/
def ForwardRequest.message (r : ForwardRequest) : Message :=
  .directTcpip r.originator r.originatorPort r.destination r.destinationPort

/-- What `strdup` made of a text: a copy, unless it failed. -/
def Duplicated (log : List Entry) (text : CString) (addr : Option CString) : Prop :=
  addr = some text ∨ addr = none ∧ ∃ e ∈ log, e.action = .alloc .strdup ∧ e.answer = 0

/-- A text that was duplicated in a log was duplicated in a longer one. -/
theorem Duplicated.mono {log log' : List Entry} {text : CString} {addr : Option CString}
    (h : Duplicated log text addr) (more : ∀ e ∈ log, e ∈ log') : Duplicated log' text addr := by
  rcases h with copied | ⟨none, e, mem, denied⟩
  · exact .inl copied
  · exact .inr ⟨none, e, more e mem, denied⟩

/-- **A forward was set up**: the new pair `p` was appended to the pool, it is
filled in, its channels are new and registered with it, and nothing else
changed. -/
structure ForwardRequest.Added (r : ForwardRequest) (w : World) (s : Proxy) (log : List Entry)
    (s' : Proxy) (id : PoolId) (p : PairId) (src : ChannelId) (dst : Option ChannelId) :
    Prop where
  /-- There is a pool, and it stays that of the session. -/
  forwardPool : s.context.forwardPool = some id ∧ s'.context.forwardPool = some id
  /-- The pair is its last item, and all items in front are what they were. -/
  appended : ∃ pool pool' xs, s.pools.cell id = some pool ∧ pool.Holds xs ∧
    s'.pools.cell id = some pool' ∧ pool'.Holds (xs ++ [some p])
  /-- Other pools stay. -/
  pools : ∀ other ≠ id, s'.pools.cell other = s.pools.cell other
  /-- The pair was obtained for the request. -/
  newPair : s.pairs.cell p = none
  /-- It holds the addresses and ports of the request, and both channels. -/
  pair : ∃ source destiny, Duplicated log r.originator source ∧
    Duplicated log r.destination destiny ∧ s'.pairs.cell p = some
      { context := some .proxyProcess
        closed := false
        source := ⟨source, r.originatorPort, some src⟩
        destiny := ⟨destiny, r.destinationPort, dst⟩
        userdata := p }
  /-- Other pairs stay. -/
  pairs : ∀ other ≠ p, s'.pairs.cell other = s.pairs.cell other
  /-- There is a channel to the destination in `ALLOW` mode only. -/
  backend : dst ≠ none ↔ w.config.forwardMode = some .allow
  /-- Both channels are new, and call back into the pair. -/
  registered : ∀ ch ∈ src :: dst.toList, s.channels.cell ch = none ∧
    ∃ c, s'.channels.cell ch = some c ∧ c.callbacks = some (.forwardChannelCB p)
  /-- Other channels stay. -/
  channels : ∀ ch ∉ src :: dst.toList, s'.channels.cell ch = s.channels.cell ch

/-- The facts about an added forward that speak of the log survive what is logged behind
it. -/
theorem ForwardRequest.Added.mono {r : ForwardRequest} {w : World} {s s' : Proxy}
    {log log' : List Entry} {id : PoolId} {p : PairId} {src : ChannelId} {dst : Option ChannelId}
    (h : r.Added w s log s' id p src dst) (more : ∀ e ∈ log, e ∈ log') :
    r.Added w s log' s' id p src dst := by
  obtain ⟨source, destiny, copied, copied', cell⟩ := h.pair
  exact { h with pair := ⟨source, destiny, copied.mono more, copied'.mono more, cell⟩ }

/-- Something is missing for a forward, or a step of setting it up fails; a text
that was not copied does not count. -/
def ForwardFails (w : World) (s : Proxy) (log : List Entry) : Prop :=
  w.config.forwardMode = some .allow ∧ s.context.haasSession = none ∨
    w.config.forwardMode ≠ some .fake ∧ s.context.forwardPool = none ∨
    ∃ e ∈ log, e.Failed ∧ e.action ≠ .alloc .strdup

/-- **All or nothing**: the callback returns; if something fails nothing has
changed, and otherwise a pair was added, except that `FAKE` never adds one. -/
def ForwardRequest.AllOrNothing (r : ForwardRequest) (w : World) (s : Proxy)
    (run : Run Entry Stop Proxy Int) : Prop :=
  run.value.isOk ∧
    (ForwardFails w s run.log ∨ w.config.forwardMode = some .fake → s.Unchanged run.state) ∧
    (¬ ForwardFails w s run.log → w.config.forwardMode ≠ some .fake →
      ∃ id p src dst, r.Added w s run.log run.state id p src dst)

/-- libssh makes no callbacks. -/
def undisturbed (_ : Nat) : ProxyM Unit := pure ()

/-- The pool of the session, if it has one, is allocated and in order. -/
def Proxy.PoolInOrder (s : Proxy) : Prop :=
  ∀ id, s.context.forwardPool = some id → ∃ pool xs, s.pools.cell id = some pool ∧ pool.Holds xs

/-! ## What is logged on the way

The verdicts on the log of a part, and how they add up when one part follows another. -/

/-- Nothing fails. -/
def Plain (log : List Entry) : Prop := ∀ e ∈ log, ¬ e.Failed ∧ ¬ e.Spoils

/-- A step fails, and the program copes. -/
def Coped (log : List Entry) : Prop :=
  (∃ e ∈ log, e.Failed ∧ e.action ≠ .alloc .strdup) ∧ ∀ e ∈ log, ¬ e.Spoils

/-- Nothing fails but the copying of texts. -/
def Fine (log : List Entry) : Prop :=
  ∀ e ∈ log, (e.Failed → e.action = .alloc .strdup) ∧ ¬ e.Spoils

/-- A stretch without failures and without what spoils is fine. -/
theorem Plain.fine {log : List Entry} (h : Plain log) : Fine log := fun e mem =>
  ⟨fun failed => absurd failed (h e mem).1, (h e mem).2⟩

theorem Fine.append {log log' : List Entry} (h : Fine log) (h' : Fine log') :
    Fine (log ++ log') := by
  intro e mem
  exact (List.mem_append.mp mem).elim (h e) (h' e)

theorem plain_nil : Plain [] := by
  intro e mem
  cases mem

theorem Plain.append {log log' : List Entry} (h : Plain log) (h' : Plain log') :
    Plain (log ++ log') := by
  intro e mem
  exact (List.mem_append.mp mem).elim (h e) (h' e)

/-- A failure that was coped with stays so if nothing fails behind it. -/
theorem Coped.append {log log' : List Entry} (h : Coped log) (h' : Plain log') :
    Coped (log ++ log') := by
  obtain ⟨⟨e, mem, failed⟩, coped⟩ := h
  refine ⟨⟨e, List.mem_append_left _ mem, failed⟩, fun e mem => ?_⟩
  exact (List.mem_append.mp mem).elim (coped e) fun mem => (h' e mem).2

/-- Nor does it matter what was plain in front of it. -/
theorem Plain.append_coped {log log' : List Entry} (h : Plain log) (h' : Coped log') :
    Coped (log ++ log') := by
  obtain ⟨⟨e, mem, failed⟩, coped⟩ := h'
  refine ⟨⟨e, List.mem_append_right _ mem, failed⟩, fun e mem => ?_⟩
  exact (List.mem_append.mp mem).elim (fun mem => (h e mem).2) (coped e)

section Undisturbed

variable {w : World} {s : Proxy} {α β : Type}

/-- The program returns, and nothing fails. -/
def Smooth (m : ProxyM α) (s : Proxy) (Q : α → Proxy → Prop) : Prop :=
  Returns m s fun log a s' => Plain log ∧ Q a s'

variable {m : ProxyM α} {k : α → ProxyM β} {P : α → Proxy → Prop} {Q : β → Proxy → Prop}

theorem smooth_pure {a : α} (h : P a s) : Smooth (pure a) s P := returns_pure ⟨plain_nil, h⟩

/-- The rule of sequence: both logs are plain, so the log of both is. -/
theorem smooth_bind (h : Smooth m s P) (next : ∀ a s', P a s' → Smooth (k a) s' Q) :
    Smooth (m >>= k) s Q :=
  returns_bind h fun _ a s' post => returns_mono (next a s' post.2) fun _ _ _ post' =>
    ⟨post.1.append post'.1, post'.2⟩

/-- A smooth program in front of one that may fail. -/
theorem returns_smooth_bind {Q : List Entry → β → Proxy → Prop} (h : Smooth m s P)
    (next : ∀ log a s', Plain log → P a s' → Returns (k a) s' fun log' => Q (log ++ log')) :
    Returns (m >>= k) s Q :=
  returns_bind h fun log a s' post => next log a s' post.1 post.2

theorem smooth_gets {f : Proxy → α} (h : P (f s) s) : Smooth (gets f) s P :=
  ⟨[], s, f s, rfl, plain_nil, h⟩

theorem smooth_get_bind {k : Proxy → ProxyM β} (h : Smooth (k s) s Q) : Smooth (get >>= k) s Q :=
  returns_get_bind h

theorem smooth_modify {f : Proxy → Proxy} {P : Unit → Proxy → Prop} (h : P () (f s)) :
    Smooth (modify f) s P := ⟨[], f s, (), rfl, plain_nil, h⟩

/-- A statement under a condition, whose absence must promise the same. -/
theorem smooth_when {c : Prop} [Decidable c] {m : ProxyM Unit} {P : Unit → Proxy → Prop}
    (pos : c → Smooth m s P) (neg : ¬ c → P () s) : Smooth (when c m) s P := by
  unfold when
  split
  · exact pos ‹c›
  · exact smooth_pure (neg ‹¬ c›)

theorem smooth_tell {f : Proxy → Entry} {P : Unit → Proxy → Prop}
    (plain : ¬ (f s).Failed ∧ ¬ (f s).Spoils) (h : P () s) : Smooth (tell f) s P := by
  refine ⟨[f s], s, (), rfl, fun e mem => ?_, h⟩
  rw [List.mem_singleton.mp mem]
  exact plain

/-- A call: the log has its answer, and that it returned. -/
theorem returns_callWith {c : Call} {effect : Int → Proxy → Proxy} :
    Returns (callWith w undisturbed c effect) s fun log i s' =>
      i = w.answer s.tick ∧ s' = effect i { s with tick := s.tick + 1 } ∧
        (∃ e ∈ log, e.action = .call c ∧ e.answer = i) ∧
        ∀ e ∈ log, e.action = .call c ∧ e.answer = i ∨ e.action = .returned c := by
  by_cases dispatches : c.Dispatches
  · refine ⟨[⟨{ s with tick := s.tick + 1 }, .call c, w.answer s.tick⟩,
      ⟨effect (w.answer s.tick) { s with tick := s.tick + 1 }, .returned c, w.answer s.tick⟩],
      effect (w.answer s.tick) { s with tick := s.tick + 1 }, w.answer s.tick, ?_, rfl, rfl, ?_, ?_⟩
    · simp only [callWith, when, if_pos dispatches]
      rfl
    · exact ⟨_, .head _, rfl, rfl⟩
    · simp
  · refine ⟨[⟨{ s with tick := s.tick + 1 }, .call c, w.answer s.tick⟩],
      effect (w.answer s.tick) { s with tick := s.tick + 1 }, w.answer s.tick, ?_, rfl, rfl, ?_, ?_⟩
    · simp only [callWith, when, if_neg dispatches]
      rfl
    · exact ⟨_, .head _, rfl, rfl⟩
    · simp

/-- The calls whose failure is dealt with. -/
def Call.Fallible : Call → Prop
  | .channelNew _ | .openForward .. | .openReplyAccept => True
  | _ => False

/-- A call counts as a failure only if it is one that a forward depends on. -/
theorem failed_call {e : Entry} {c : Call} (call : e.action = .call c) :
    e.Failed ↔ c.Fallible ∧ e.answer ≠ sshOk := by
  rw [Entry.Failed, call]
  cases c <;> simp [Call.Fallible]

/-- Without callbacks a call of libssh takes one tick and has its effect. Where it is
one that can fail, its answer has to be known to be good. -/
theorem smooth_callWith {c : Call} {effect : Int → Proxy → Proxy}
    (fine : c.Fallible → w.answer s.tick = sshOk) :
    Smooth (callWith w undisturbed c effect) s fun i s' =>
      i = w.answer s.tick ∧ s' = effect i { s with tick := s.tick + 1 } := by
  refine returns_mono returns_callWith fun log i s' post => ?_
  obtain ⟨rfl, rfl, -, all⟩ := post
  refine ⟨fun e mem => ?_, rfl, rfl⟩
  rcases all e mem with ⟨call, answer⟩ | returned
  · refine ⟨fun failed => ?_, by simp [Entry.Spoils, call]⟩
    obtain ⟨fallible, bad⟩ := (failed_call call).mp failed
    exact bad (answer.trans (fine fallible))
  · simp [Entry.Failed, Entry.Spoils, returned]

/-- A call that fails. -/
theorem coped_callWith {c : Call} {effect : Int → Proxy → Proxy} (fallible : c.Fallible)
    (bad : w.answer s.tick ≠ sshOk) :
    Returns (callWith w undisturbed c effect) s fun log i s' =>
      Coped log ∧ i = w.answer s.tick ∧ s' = effect i { s with tick := s.tick + 1 } := by
  refine returns_mono returns_callWith fun log i s' post => ?_
  obtain ⟨rfl, rfl, ⟨e, mem, call, answer⟩, all⟩ := post
  refine ⟨⟨⟨e, mem, (failed_call call).mpr ⟨fallible, answer ▸ bad⟩, by simp [call]⟩,
    fun e mem => ?_⟩, rfl, rfl⟩
  rcases all e mem with ⟨call, -⟩ | returned
  · simp [Entry.Spoils, call]
  · simp [Entry.Spoils, returned]

theorem smooth_call {c : Call} (infallible : ¬ c.Fallible) :
    Smooth (call w undisturbed c) s fun i s' =>
      i = w.answer s.tick ∧ s' = { s with tick := s.tick + 1 } :=
  smooth_callWith fun fallible => absurd fallible infallible

/-- An allocation, as it is logged. -/
theorem returns_allocate {allocation : Allocation} :
    Returns (allocate w allocation) s fun log granted s' =>
      granted = w.granted s.tick ∧ s' = { s with tick := s.tick + 1 } ∧
        log = [⟨s', .alloc allocation, if granted then 1 else 0⟩] :=
  ⟨_, _, _, rfl, rfl, rfl, rfl⟩

/-! ## The state on the way

While the request is being handled the state is that of the beginning, but for the
channels that were obtained since. `Near` lists which of them are still in use. -/

/-- Since `s₀` nothing changed but for new channels, those of `mine` being in
use. -/
structure Near (s₀ : Proxy) (mine : List ChannelId) (s : Proxy) : Prop where
  forwardPool : s.context.forwardPool = s₀.context.forwardPool
  haasSession : s.context.haasSession = s₀.context.haasSession
  pools : s.pools = s₀.pools
  pairs : s.pairs.cell = s₀.pairs.cell
  nextPair : s₀.pairs.next ≤ s.pairs.next
  next : s₀.channels.next ≤ s.channels.next
  /-- The channels in use were obtained meanwhile. -/
  fresh : ∀ ch ∈ mine, s₀.channels.cell ch = none ∧ ∃ c, s.channels.cell ch = some c
  /-- All others are what they were. -/
  channels : ∀ ch ∉ mine, s.channels.cell ch = s₀.channels.cell ch

variable {s₀ : Proxy} {mine : List ChannelId}

/-- A state is near itself, with no channel of its own made yet. -/
theorem near_refl (s : Proxy) : Near s [] s :=
  ⟨rfl, rfl, rfl, rfl, Nat.le_refl _, Nat.le_refl _, nofun, fun _ _ => rfl⟩

namespace Near

theorem tick (h : Near s₀ mine s) (t : Nat) : Near s₀ mine { s with tick := t } :=
  ⟨h.forwardPool, h.haasSession, h.pools, h.pairs, h.nextPair, h.next, h.fresh, h.channels⟩

/-- A channel that is new belongs to the request that is being served, and to nobody
before. -/
private theorem obtain_ (h : Near s₀ mine s) (session : SessionId) :
    Near s₀ (s.channels.next :: mine) (s.obtain session) := by
  refine ⟨h.forwardPool, h.haasSession, h.pools, h.pairs, h.nextPair, Nat.le_succ_of_le h.next,
    fun ch mem => ?_, fun ch notMine => ?_⟩
  · rcases List.mem_cons.mp mem with rfl | old
    · exact ⟨s₀.channels.fresh _ h.next, _, s.channels.cell_alloc_self⟩
    · obtain ⟨fresh, c, cell⟩ := h.fresh ch old
      have ne : ch ≠ s.channels.next := Nat.ne_of_lt (s.channels.lt_next_of_cell cell)
      exact ⟨fresh, c, (s.channels.cell_alloc_of_ne ne).trans cell⟩
  · rw [List.mem_cons, not_or] at notMine
    exact (s.channels.cell_alloc_of_ne notMine.1).trans (h.channels ch notMine.2)

/-- A channel of one's own may be freed again, and then it is as if it had not been. -/
theorem free (h : Near s₀ mine s) {ch : ChannelId} (fresh : s₀.channels.cell ch = none) :
    Near s₀ (mine.filter (· ≠ ch)) (s.freeChannel ch) := by
  refine ⟨h.forwardPool, h.haasSession, h.pools, h.pairs, h.nextPair, h.next, fun c mem => ?_,
    fun c notMine => ?_⟩
  · obtain ⟨mem, ne⟩ := List.mem_filter.mp mem
    obtain ⟨fresh, cell⟩ := h.fresh c mem
    exact ⟨fresh, (s.channels.cell_free_of_ne (of_decide_eq_true ne)).symm ▸ cell⟩
  · by_cases same : c = ch
    · rw [same, fresh]
      exact s.channels.cell_free_self
    · refine (s.channels.cell_free_of_ne same).trans (h.channels c fun mem => notMine ?_)
      exact List.mem_filter.mpr ⟨mem, decide_eq_true same⟩

/-- Near a state without channels of one's own is unchanged: nothing is left behind. -/
theorem unchanged (h : Near s₀ [] s) : s₀.Unchanged s where
  forwardPool := h.forwardPool
  pools := h.pools
  pairs := h.pairs
  channels := by
    funext ch
    exact h.channels ch (List.not_mem_nil)

end Near

/-- Resetting the idle timer, the last thing the callback does. -/
theorem smooth_idleTimerReset {P : Unit → Proxy → Prop}
    (h : ∀ tick timer, P () { s with
      tick := tick, context := { s.context with idleTimer := timer } }) :
    Smooth (idleTimerReset w) s P := ⟨[], _, (), rfl, plain_nil, h _ _⟩

theorem near_sshSetBlocking {session : Option SessionId} {blocking : Bool}
    (near : Near s₀ mine s) :
    Smooth (sshSetBlocking session blocking) s fun _ s' => Near s₀ mine s' := by
  refine smooth_modify ?_
  cases session with
  | none => exact near
  | some id =>
      exact ⟨near.forwardPool, near.haasSession, near.pools, near.pairs, near.nextPair, near.next,
        near.fresh, near.channels⟩

theorem near_onChannel {ch : Option ChannelId} {c : ChannelId → Call} (near : Near s₀ mine s)
    (infallible : ∀ ch, ¬ (c ch).Fallible) :
    Smooth (onChannel w undisturbed ch c) s fun _ s' => Near s₀ mine s' := by
  cases ch with
  | none => exact smooth_pure near
  | some ch =>
      refine returns_mono (smooth_call (infallible ch)) fun log i s' post => ?_
      obtain ⟨plain, -, rfl⟩ := post
      exact ⟨plain, near.tick _⟩

/-- A channel that this request has obtained is freed: it is no longer among those that
are its own. -/
theorem near_sshChannelFree {ch : Option ChannelId} (near : Near s₀ mine s)
    (fresh : ∀ c, ch = some c → s₀.channels.cell c = none) :
    Smooth (sshChannelFree w undisturbed ch) s fun _ s' =>
      Near s₀ (mine.filter (some · ≠ ch)) s' := by
  cases ch with
  | none =>
      refine smooth_pure ?_
      rw [List.filter_eq_self.mpr (by simp)]
      exact near
  | some ch =>
      refine smooth_bind (smooth_callWith False.elim) ?_
      rintro i _ ⟨-, rfl⟩
      refine smooth_pure ?_
      simpa using (near.tick (s.tick + 1)).free (fresh ch rfl)

/-! ## The steps

One lemma or two for each function that is called on the way: what it answers when nothing
fails, and what it has undone when something does. -/

section Steps

variable {r : ForwardRequest}

/-- `ssh_channel_new` and `reply_accept`: a new channel, or a failure. -/
theorem returns_obtainBy {c : Call} {session : SessionId} (near : Near s₀ mine s)
    (fallible : c.Fallible) :
    Returns (obtainBy w undisturbed c session) s fun log ch s' =>
      (ch = none ∧ Coped log ∧ Near s₀ mine s') ∨
        ∃ new ∉ mine, ch = some new ∧ Plain log ∧ Near s₀ (new :: mine) s' := by
  refine returns_gets_bind ?_
  by_cases ok : w.answer s.tick = sshOk
  · refine returns_smooth_bind (smooth_callWith fun _ => ok) ?_
    rintro log i _ plain ⟨rfl, rfl⟩
    refine returns_pure (.inr ⟨s.channels.next, fun mem => ?_, if_pos ok, ?_, ?_⟩)
    · obtain ⟨-, c, cell⟩ := near.fresh _ mem
      exact Nat.lt_irrefl _ (s.channels.lt_next_of_cell cell)
    · simpa using plain
    · rw [if_pos ok]
      exact (near.tick (s.tick + 1)).obtain_ session
  · refine returns_bind (coped_callWith fallible ok) ?_
    rintro log i _ ⟨coped, rfl, rfl⟩
    refine returns_pure (.inl ⟨if_neg ok, ?_, ?_⟩)
    · simpa using coped
    · rw [if_neg ok]
      exact near.tick _

/-- The answer of `forwardConnect`. -/
theorem returns_forwardConnect :
    Returns (forwardConnect w undisturbed r.originator r.originatorPort r.destination
      r.destinationPort) s fun log (dst, accept) s' =>
        (accept = true ∧ Plain log ∧ (dst ≠ none ↔ w.config.forwardMode = some .allow) ∧
          ¬ (w.config.forwardMode = some .allow ∧ s.context.haasSession = none) ∧
          Near s dst.toList s') ∨
        accept = false ∧ (w.config.forwardMode = some .allow ∧ s.context.haasSession = none ∧
          Plain log ∨ Coped log) ∧ Near s [] s' ∧
          ∀ ch, dst = some ch → s.channels.cell ch = none := by
  unfold forwardConnect
  split
  · -- in the other modes nothing is opened at the backend
    rename_i notAllow
    exact returns_pure (.inl ⟨rfl, plain_nil, by simp [notAllow], fun both => notAllow both.1,
      near_refl s⟩)
  rename_i allow
  rw [not_not] at allow
  refine returns_get_bind ?_
  cases session : s.context.haasSession with
  | none =>
      refine returns_smooth_bind (P := fun ch s' => ch = none ∧ s' = s) (smooth_pure ⟨rfl, rfl⟩) ?_
      rintro log _ _ plain ⟨rfl, rfl⟩
      refine returns_pure (.inr ⟨rfl, .inl ⟨allow, rfl, ?_⟩, near_refl _, nofun⟩)
      simpa using plain
  | some session =>
      refine returns_bind (returns_obtainBy (near_refl s) trivial) ?_
      rintro log ch s₁ (⟨rfl, coped, near⟩ | ⟨ch, -, rfl, plain, near⟩)
      · refine returns_pure (.inr ⟨rfl, .inr ?_, near, nofun⟩)
        simpa using coped
      have fresh := (near.fresh ch (.head _)).1
      -- the channel was obtained, and is opened or given back
      by_cases ok : w.answer s₁.tick = sshOk
      · refine returns_smooth_bind (smooth_callWith fun _ => ok) ?_
        rintro log' i _ plain' ⟨rfl, rfl⟩
        rw [if_neg (not_not.mpr ok)]
        refine returns_pure (.inl ⟨rfl, ?_, by simp [allow], by simp, near.tick _⟩)
        simpa using plain.append plain'
      · refine returns_bind (coped_callWith trivial ok) ?_
        rintro log' i _ ⟨coped, rfl, rfl⟩
        rw [if_pos ok]
        refine returns_smooth_bind (near_sshChannelFree (near.tick _) ?_) ?_
        · rintro _ ⟨⟩
          exact fresh
        intro log'' _ s₃ plain'' near₃
        refine returns_pure (.inr ⟨rfl, .inr ?_, ?_, ?_⟩)
        · simpa using plain.append_coped (coped.append plain'')
        · simpa using near₃
        · rintro _ ⟨⟩
          exact fresh

/-- The block under `if (Close)` leaves nothing behind. -/
theorem smooth_forwardClose {src dst : Option ChannelId} (near : Near s₀ mine s)
    (mineOnly : ∀ ch ∈ mine, src = some ch ∨ dst = some ch)
    (fresh : ∀ ch, src = some ch ∨ dst = some ch → s₀.channels.cell ch = none) :
    Smooth (forwardClose w undisturbed src dst) s fun _ s' => Near s₀ [] s' := by
  have closed : Smooth (when (dst ≠ none) do
      let s ← get
      let blocking ← sshIsBlocking s.context.haasSession
      sshSetBlocking s.context.haasSession false
      let _ ← onChannel w undisturbed dst .close
      sshChannelFree w undisturbed dst
      let s ← get
      sshSetBlocking s.context.haasSession blocking) s fun _ s' =>
        Near s₀ (mine.filter (some · ≠ dst)) s' := by
    refine smooth_when (fun _ => smooth_get_bind ?_) fun null => ?_
    · refine smooth_bind (smooth_gets (P := fun _ s' => Near s₀ mine s') near) fun _ s₁ near =>
        smooth_bind (near_sshSetBlocking near) fun _ s₂ near =>
        smooth_bind (near_onChannel near fun _ => id) fun _ s₃ near =>
        smooth_bind (near_sshChannelFree near fun ch is => fresh ch (.inr is)) fun _ s₄ near =>
        smooth_get_bind (near_sshSetBlocking near)
    · rw [not_not.mp null, List.filter_eq_self.mpr (by simp)]
      exact near
  refine smooth_bind closed fun _ s₁ near => smooth_get_bind ?_
  refine smooth_bind (smooth_gets (P := fun _ s' => Near s₀ _ s') near) fun _ s₂ near =>
    smooth_bind (near_sshSetBlocking near) fun _ s₃ near =>
    smooth_bind (near_onChannel near fun _ => id) fun _ s₄ near =>
    smooth_bind (near_onChannel near fun _ => id) fun _ s₅ near =>
    smooth_bind (near_sshChannelFree near fun ch is => fresh ch (.inl is)) fun _ s₆ near => ?_
  have empty : (mine.filter (some · ≠ dst)).filter (some · ≠ src) = [] := by
    rw [List.filter_filter, List.filter_eq_nil_iff]
    intro ch mem
    rcases mineOnly ch mem with rfl | rfl <;> simp
  rw [empty] at near
  exact near_sshSetBlocking near

theorem smooth_loadPair {p : PairId} {pair : FwPair} (cell : s.pairs.cell p = some pair) :
    Smooth (loadPair p) s fun a s' => a = pair ∧ s' = s :=
  ⟨[], s, pair, run_loadPair cell, plain_nil, rfl, rfl⟩

theorem smooth_modifyPair {p : PairId} {pair : FwPair} {f : FwPair → FwPair}
    (cell : s.pairs.cell p = some pair) :
    Smooth (modifyPair p f) s fun _ s' =>
      s' = { s with pairs := s.pairs.store p (f pair) } :=
  ⟨[], _, (), run_modifyPair cell, plain_nil, rfl⟩

/-- An end without a channel. -/
theorem smooth_fwEndpointDone {p : PairId} {e : End} {pair : FwPair}
    (cell : s.pairs.cell p = some pair) (noChannel : (pair.endpoint e).channel = none) :
    Smooth (fwEndpointDone w undisturbed p e) s fun _ s' =>
      s' = { s with pairs := s.pairs.store p (pair.setEndpoint e fwEndpointInit) } := by
  refine smooth_bind (smooth_modifyPair cell) ?_
  rintro _ _ rfl
  have set : ({ pair.endpoint e with addr := none, port := 0 } : FwEndpoint) = fwEndpointInit := by
    rw [fwEndpointInit, FwEndpoint.mk.injEq]
    exact ⟨rfl, rfl, noChannel⟩
  simp only [set]
  refine smooth_bind (smooth_loadPair (Heap.cell_store_self _ cell)) ?_
  rintro _ _ ⟨rfl, rfl⟩
  refine smooth_when (fun some => absurd ?_ some) fun _ => rfl
  rw [FwPair.endpoint_setEndpoint]
  rfl

/-- A pair that has no channels yet is released. -/
theorem smooth_fwPairRelease {p : PairId} {pair : FwPair} (cell : s.pairs.cell p = some pair)
    (noChannels : ∀ e, (pair.endpoint e).channel = none) :
    Smooth (fwPairRelease w undisturbed p) s fun _ s' =>
      ∃ pairs : Heap FwPair, s' = { s with pairs := pairs } ∧ pairs.next = s.pairs.next ∧
        pairs.cell = Function.update s.pairs.cell p none := by
  refine smooth_bind (smooth_tell (P := fun _ s' => s = s') ⟨id, id⟩ rfl) ?_
  rintro _ _ rfl
  refine smooth_bind (smooth_modifyPair cell) ?_
  rintro _ _ rfl
  have cell₁ := s.pairs.cell_store_self (a := { pair with context := none, closed := false }) cell
  refine smooth_bind (smooth_fwEndpointDone cell₁ (noChannels .source)) ?_
  rintro _ _ rfl
  refine smooth_bind (smooth_fwEndpointDone (Heap.cell_store_self _ cell₁)
    (noChannels .destiny)) ?_
  rintro _ _ rfl
  refine smooth_modify ⟨_, rfl, rfl, ?_⟩
  funext q
  by_cases same : q = p
  · rw [same, Heap.cell_free_self, Function.update_self]
  · rw [Heap.cell_free_of_ne _ same, Heap.cell_store_of_ne _ same, Heap.cell_store_of_ne _ same,
      Heap.cell_store_of_ne _ same, Function.update_of_ne same]

/-- `FwPairAlloc`, when there is memory. -/
theorem smooth_fwPairAlloc (granted : w.granted s.tick = true) :
    Smooth (fwPairAlloc w) s fun pair s' => pair = some s.pairs.next ∧
      s' = { s with
        tick := s.tick + 1
        pairs := s.pairs.alloc
          { context := none
            closed := false
            source := fwEndpointInit
            destiny := fwEndpointInit
            userdata := s.pairs.next } } := by
  unfold fwPairAlloc
  refine returns_bind returns_allocate ?_
  rintro log _ _ ⟨rfl, rfl, rfl⟩
  rw [granted]
  refine ⟨[], _, _, rfl, ?_, rfl, rfl⟩
  simp [Plain, Entry.Failed, Entry.Spoils]

/-- `FwPairAlloc`, when there is not. -/
theorem returns_fwPairAlloc_denied (denied : w.granted s.tick = false) :
    Returns (fwPairAlloc w) s fun log pair s' => pair = none ∧
      s' = { s with tick := s.tick + 1 } ∧ log = [⟨s', .alloc .fwPair, 0⟩] := by
  unfold fwPairAlloc
  refine returns_bind returns_allocate ?_
  rintro log _ _ ⟨rfl, rfl, rfl⟩
  rw [denied]
  exact ⟨[], _, _, rfl, rfl, rfl, rfl⟩

/-- Without a pool `FwPoolAdd` answers `-1`. -/
theorem smooth_poolAdd_none {item : Option PairId} :
    Smooth (poolAdd w none item) s fun i s' => i = -1 ∧ s' = s :=
  ⟨[], s, -1, rfl, plain_nil, rfl, rfl⟩

/-- Without a pool the new pair, if there is one, is released again. -/
theorem returns_forwardRegister_noPool {src dst : Option ChannelId} (near : Near s₀ mine s)
    (noPool : s.context.forwardPool = none) :
    Returns (forwardRegister w undisturbed r.originator r.originatorPort r.destination
      r.destinationPort src dst) s fun log close s' =>
        close = true ∧ (∀ e ∈ log, ¬ e.Spoils) ∧ Near s₀ mine s' := by
  by_cases granted : w.granted s.tick = true
  · refine returns_smooth_bind (smooth_fwPairAlloc granted) ?_
    rintro log _ _ plain ⟨rfl, rfl⟩
    refine returns_get_bind ?_
    rw [show ({ s with tick := s.tick + 1 } : Proxy).context.forwardPool = none from noPool]
    refine returns_smooth_bind smooth_poolAdd_none ?_
    rintro log' _ _ plain' ⟨rfl, rfl⟩
    rw [if_neg (not_not.mpr rfl)]
    refine returns_smooth_bind (smooth_fwPairRelease (s.pairs.cell_alloc_self)
      fun e => by cases e <;> rfl) ?_
    rintro log'' _ _ plain'' ⟨pairs, rfl, next, cells⟩
    refine returns_pure ⟨rfl, fun e mem => ?_, near.forwardPool, near.haasSession, near.pools, ?_,
      ?_, near.next, near.fresh, near.channels⟩
    · simp only [List.mem_append, List.append_nil] at mem
      rcases mem with mem | mem | mem
      · exact (plain e mem).2
      · exact (plain' e mem).2
      · exact (plain'' e mem).2
    · show pairs.cell = _
      rw [cells, ← near.pairs]
      funext q
      by_cases same : q = s.pairs.next
      · rw [same, Function.update_self, s.pairs.fresh _ (Nat.le_refl _)]
      · rw [Function.update_of_ne same, s.pairs.cell_alloc_of_ne same]
    · show s₀.pairs.next ≤ pairs.next
      rw [next]
      exact Nat.le_succ_of_le near.nextPair
  · refine returns_bind (returns_fwPairAlloc_denied (Bool.eq_false_iff.mpr granted)) ?_
    rintro log _ _ ⟨rfl, rfl, rfl⟩
    refine returns_get_bind ?_
    rw [show ({ s with tick := s.tick + 1 } : Proxy).context.forwardPool = none from noPool]
    refine returns_smooth_bind smooth_poolAdd_none ?_
    rintro log' _ _ plain' ⟨rfl, rfl⟩
    rw [if_neg (not_not.mpr rfl)]
    refine returns_smooth_bind (smooth_pure (P := fun _ s' => Near s₀ mine s') (near.tick _)) ?_
    intro log'' _ s' plain'' near'
    refine returns_pure ⟨rfl, fun e mem => ?_, near'⟩
    simp only [List.mem_append, List.append_nil, List.mem_singleton] at mem
    rcases mem with rfl | mem | mem
    · exact fun spoils => spoils.2 noPool
    · exact (plain' e mem).2
    · exact (plain'' e mem).2

/-! With a pool: the pair is there and the pool can grow, or the program does not
return. -/

/-- If the pool is full, it is granted to grow. -/
def Grows (granted : Bool) (pool : FwPool (Option PairId)) : Prop :=
  pool.IsFull → granted = true ∧ pool.alloc + poolAllocSize ≤ intMax

/-- A pool that has room, or gets it, takes the pair. -/
private theorem not_refused_of_grows {granted : Bool} {pool : FwPool (Option PairId)}
    (grows : Grows granted pool) :
    ¬ pool.Refused (if pool.IsFull then granted else true) := by
  rintro ⟨full, none⟩
  obtain ⟨rfl, le⟩ := grows full
  rw [if_pos full] at none
  exact FwPool.not_refused (fun _ => le) ⟨full, none⟩

/-- Otherwise it is full and its growth is refused, by `realloc` or because the size no
longer fits in an `int`. -/
private theorem refused_of_not_grows {granted : Bool} {pool : FwPool (Option PairId)}
    (stuck : ¬ Grows granted pool) :
    pool.IsFull ∧ pool.Refused granted ∧
      (granted = false ∨ intMax < pool.alloc + poolAllocSize) := by
  rw [Grows, Classical.not_imp, Classical.not_and_iff_not_or_not, Bool.not_eq_true, Nat.not_le]
    at stuck
  obtain ⟨full, why⟩ := stuck
  refine ⟨full, ⟨full, if_neg fun both => ?_⟩, why⟩
  rcases why with denied | above
  · exact Bool.false_ne_true (denied.symm.trans both.1)
  · exact Nat.not_le.mpr above both.2

section Pool

variable {id : PoolId} {pool : FwPool (Option PairId)} {xs : List (Option PairId)}
  {item : Option PairId}

theorem smooth_loadPool (cell : s.pools.cell id = some pool) :
    Smooth (loadPool (some id)) s fun contents s' => contents = some pool ∧ s = s' := by
  refine returns_get_bind (returns_ofExcept_bind (a := pool) ?_ (smooth_pure ⟨rfl, rfl⟩))
  rw [Heap.load_of_cell _ cell]
  rfl

/-- The `realloc` of `FwPoolAdd`. -/
theorem returns_growth {granted : Bool}
    (answer : granted = if pool.IsFull then w.granted s.tick else true) :
    Returns (if (some pool).any (fun pool => pool.IsFull) then allocate w .items else pure true) s
      fun log answer s' => answer = granted ∧ ∃ tick, s' = { s with tick := tick } ∧
        log = if pool.IsFull then [⟨s', .alloc .items, if granted then 1 else 0⟩] else [] := by
  by_cases full : pool.IsFull
  · rw [if_pos full] at answer
    rw [if_pos (by simpa using full)]
    refine returns_mono returns_allocate ?_
    rintro log _ _ ⟨rfl, rfl, rfl⟩
    exact ⟨answer.symm, _, rfl, by rw [if_pos full, answer]⟩
  · rw [if_neg full] at answer
    rw [if_neg (by simpa using full)]
    exact returns_pure ⟨answer.symm, s.tick, rfl, (if_neg full).symm⟩

/-- `FwPoolAdd` appends the pair, at the index behind the last one. -/
theorem smooth_poolAdd (pointer : s.context.forwardPool = some id)
    (cell : s.pools.cell id = some pool) (holds : pool.Holds xs)
    (grows : Grows (w.granted s.tick) pool) :
    Smooth (poolAdd w (some id) item) s fun index s' =>
      index = xs.length ∧ ∃ pool' tick, pool'.Holds (xs ++ [item]) ∧
        s' = { s with tick := tick, pools := s.pools.store id pool' } := by
  refine smooth_bind (smooth_loadPool cell) ?_
  rintro _ _ ⟨rfl, rfl⟩
  refine smooth_bind (P := fun granted s' =>
    granted = (if pool.IsFull then w.granted s.tick else true) ∧
      ∃ tick, s' = { s with tick := tick }) (returns_mono (returns_growth rfl) ?_) ?_
  · rintro log granted s' ⟨rfl, tick, rfl, rfl⟩
    refine ⟨?_, rfl, tick, rfl⟩
    by_cases full : pool.IsFull
    · obtain ⟨granted, le⟩ := grows full
      simp only [if_pos full, granted, Plain, List.mem_singleton, forall_eq]
      refine ⟨by simp [Entry.Failed], fun spoils => ?_⟩
      rcases spoils with none | ⟨id', pointer', pool', cell', above⟩
      · exact absurd none (by simp)
      · cases pointer.symm.trans pointer'
        cases cell.symm.trans cell'
        exact Nat.not_le.mpr above le
    · simp only [if_neg full]
      exact plain_nil
  rintro _ _ ⟨rfl, tick, rfl⟩
  obtain ⟨pool', added, holds'⟩ := fwPoolAdd_eq holds (not_refused_of_grows grows) item
  refine returns_ofExcept_bind (a := ((xs.length : Int), some pool')) ?_ ?_
  · rw [added]
    rfl
  refine smooth_bind (smooth_modify (P := fun _ s' => s' = { s with
    tick := tick, pools := s.pools.store id pool' }) rfl) ?_
  rintro _ _ rfl
  exact smooth_pure ⟨rfl, pool', tick, holds', rfl⟩

/-- The program does not return, and the log tells why. -/
def Breaks (m : ProxyM α) (s : Proxy) : Prop :=
  (m s).value.isOk = false ∧ ∃ e ∈ (m s).log, e.Spoils

theorem breaks_bind_left (h : Breaks m s) : Breaks (m >>= k) s := by
  unfold Breaks at h ⊢
  rcases hm : m s with ⟨log, s', e | a⟩
  · rw [bind_of_error hm]
    rwa [hm] at h
  · rw [hm] at h
    cases h.1

/-- What comes first has a known end, and what follows breaks. -/
theorem breaks_bind_of_ok {log : List Entry} {s' : Proxy} {a : α} (run : m s = ⟨log, s', .ok a⟩)
    (h : Breaks (k a) s') : Breaks (m >>= k) s := by
  obtain ⟨stopped, e, mem, spoils⟩ := h
  unfold Breaks
  rw [bind_of_ok run]
  exact ⟨stopped, e, List.mem_append_right _ mem, spoils⟩

/-- What comes first has an end of a known kind, and from any of those what follows
breaks. -/
theorem breaks_bind_right {P : List Entry → α → Proxy → Prop} (h : Returns m s P)
    (next : ∀ log a s', P log a s' → Breaks (k a) s') : Breaks (m >>= k) s := by
  obtain ⟨log, s', a, run, post⟩ := h
  exact breaks_bind_of_ok run (next log a s' post)

/-- What spoils it is in the log already. -/
theorem breaks_bind_spoilt {P : List Entry → α → Proxy → Prop} (h : Returns m s P)
    (spoilt : ∀ log a s', P log a s' → (∃ e ∈ log, e.Spoils) ∧ (k a s').value.isOk = false) :
    Breaks (m >>= k) s := by
  obtain ⟨log, s', a, run, post⟩ := h
  obtain ⟨⟨e, mem, spoils⟩, stopped⟩ := spoilt log a s' post
  unfold Breaks
  rw [bind_of_ok run]
  exact ⟨stopped, e, List.mem_append_left _ mem, spoils⟩

/-- A full pool that does not grow is written to behind its end. -/
theorem breaks_poolAdd (pointer : s.context.forwardPool = some id)
    (cell : s.pools.cell id = some pool) (holds : pool.Holds xs)
    (stuck : ¬ Grows (w.granted s.tick) pool) : Breaks (poolAdd w (some id) item) s := by
  obtain ⟨full, refused, why⟩ := refused_of_not_grows stuck
  refine breaks_bind_right (smooth_loadPool cell) ?_
  rintro _ _ _ ⟨-, rfl, rfl⟩
  have answer : w.granted s.tick = if pool.IsFull then w.granted s.tick else true := by
    rw [if_pos full]
  refine breaks_bind_spoilt (returns_growth answer) ?_
  rintro log _ _ ⟨rfl, tick, rfl, rfl⟩
  refine ⟨?_, ?_⟩
  · rw [if_pos full]
    refine ⟨_, .head _, ?_⟩
    rcases why with denied | above
    · exact .inl (by simp [denied])
    · exact .inr ⟨id, pointer, pool, cell, above⟩
  · rw [fwPoolAdd_refused holds refused]
    rfl

/-- Adding `NULL` is a mistake, or answers where it was stored. -/
theorem addNull_not_isOk {next : Int → ProxyM α} (pointer : s.context.forwardPool = some id)
    (cell : s.pools.cell id = some pool) (holds : pool.Holds xs)
    (stored : ∀ i ≠ -1, ∀ s', (next i s').value.isOk = false) :
    ((poolAdd w (some id) none >>= next) s).value.isOk = false := by
  by_cases grows : Grows (w.granted s.tick) pool
  · have added : Smooth (poolAdd w (some id) none) s _ := smooth_poolAdd pointer cell holds grows
    obtain ⟨log, s', i, run, -, rfl, -⟩ := added
    rw [bind_of_ok run]
    exact stored _ (by omega) s'
  · exact (breaks_bind_left (breaks_poolAdd pointer cell holds grows)).1

/-- A `NULL` pair is added and looked at, or not even that. -/
theorem breaks_forwardRegister {src dst : Option ChannelId}
    (pointer : s.context.forwardPool = some id) (cell : s.pools.cell id = some pool)
    (holds : pool.Holds xs)
    (bad : ¬ (w.granted s.tick = true ∧ Grows (w.granted (s.tick + 1)) pool)) :
    Breaks (forwardRegister w undisturbed r.originator r.originatorPort r.destination
      r.destinationPort src dst) s := by
  by_cases granted : w.granted s.tick = true
  · have stuck : ¬ Grows (w.granted (s.tick + 1)) pool := fun grows => bad ⟨granted, grows⟩
    refine breaks_bind_right (smooth_fwPairAlloc granted) ?_
    rintro _ _ _ ⟨-, rfl, rfl⟩
    refine breaks_bind_right (P := fun _ a s' => a = s' ∧ s' = _) ⟨[], _, _, rfl, rfl, rfl⟩ ?_
    rintro _ _ _ ⟨rfl, rfl⟩
    rw [show (_ : Proxy).context.forwardPool = some id from pointer]
    exact breaks_bind_left (breaks_poolAdd pointer cell holds stuck)
  · refine breaks_bind_spoilt (returns_fwPairAlloc_denied (Bool.eq_false_iff.mpr granted)) ?_
    rintro log _ _ ⟨rfl, rfl, rfl⟩
    refine ⟨⟨_, .head _, rfl, by simp [pointer]⟩, ?_⟩
    rw [bind_of_ok (show (get : ProxyM Proxy) _ = ⟨[], _, .ok _⟩ from rfl)]
    show ((poolAdd w s.context.forwardPool none >>= _) _).value.isOk = false
    rw [pointer]
    refine addNull_not_isOk (s := { s with tick := s.tick + 1 }) pointer cell holds ?_
    intro i stored s'
    show ((if i ≠ -1 then (stop (.fault .nullPointer) : ProxyM Bool) else do
      whenSome none (fwPairRelease w undisturbed)
      pure true) s').value.isOk = false
    rw [if_pos stored]
    rfl

/-- Since `s₁` only the pair was changed, and is `pair` now. -/
structure Filling (s₁ : Proxy) (p : PairId) (pair : FwPair) (s : Proxy) : Prop where
  context : s.context = s₁.context
  pools : s.pools = s₁.pools
  channels : s.channels = s₁.channels
  pair : s.pairs.cell p = some pair
  pairs : ∀ q ≠ p, s.pairs.cell q = s₁.pairs.cell q

variable {s₁ : Proxy} {p : PairId} {pair : FwPair}

/-- One of the writes into the pair that is being filled in. -/
theorem filling_modifyPair {f : FwPair → FwPair} (filling : Filling s₁ p pair s) :
    Smooth (modifyPair p f) s fun _ s' => Filling s₁ p (f pair) s' := by
  refine returns_mono (smooth_modifyPair filling.pair) ?_
  rintro log _ _ ⟨plain, rfl⟩
  refine ⟨plain, filling.context, filling.pools, filling.channels,
    Heap.cell_store_self _ filling.pair, fun q ne => ?_⟩
  exact (Heap.cell_store_of_ne _ ne).trans (filling.pairs q ne)

/-- What the request holds in variables does not matter to the pair. -/
theorem filling_locals {f : Proxy → List ChannelId} (filling : Filling s₁ p pair s) :
    Smooth (modify fun s => { s with locals := f s }) s fun _ s' => Filling s₁ p pair s' :=
  smooth_modify ⟨filling.context, filling.pools, filling.channels, filling.pair, filling.pairs⟩

/-- A copy of a text. -/
theorem filling_strdup (text : CString) (filling : Filling s₁ p pair s) :
    Returns (allocate w .strdup) s fun log granted s' => Fine log ∧
      Duplicated log text (if granted then some text else none) ∧ Filling s₁ p pair s' := by
  refine returns_mono returns_allocate ?_
  rintro log granted _ ⟨-, rfl, rfl⟩
  refine ⟨by simp [Fine, Entry.Spoils], ?_, filling.context, filling.pools, filling.channels,
    filling.pair, filling.pairs⟩
  cases granted with
  | true => exact .inl rfl
  | false => exact .inr ⟨rfl, _, .head _, rfl, rfl⟩

/-- The table of a new channel. -/
theorem smooth_sshSetChannelCallbacks {ch : ChannelId} {cb : ChannelCallbacks} {c : Channel}
    (cell : s.channels.cell ch = some c) :
    Smooth (sshSetChannelCallbacks w undisturbed (some ch) cb) s fun _ s' =>
      s' = { s with
        tick := s.tick + 1
        channels := s.channels.store ch { c with callbacks := some cb } } := by
  refine smooth_bind (smooth_callWith False.elim) ?_
  rintro _ _ ⟨rfl, rfl⟩
  refine smooth_pure ?_
  simp only [Proxy.updateChannel, cell]

/-- Both tables are about the pair. -/
theorem smooth_registerBoth {src : ChannelId} {dst : Option ChannelId} (distinct : dst ≠ some src)
    (cells : ∀ ch ∈ src :: dst.toList, ∃ c, s.channels.cell ch = some c) :
    Smooth (do
      sshSetChannelCallbacks w undisturbed (some src) (.forwardChannelCB p)
      when (dst ≠ none) do
        sshSetChannelCallbacks w undisturbed dst (.forwardChannelCB p)
      pure false) s fun close s' =>
        close = false ∧ s'.context = s.context ∧ s'.pools = s.pools ∧ s'.pairs = s.pairs ∧
          (∀ ch ∈ src :: dst.toList, ∃ c, s'.channels.cell ch = some c ∧
            c.callbacks = some (.forwardChannelCB p)) ∧
          ∀ ch ∉ src :: dst.toList, s'.channels.cell ch = s.channels.cell ch := by
  obtain ⟨c, cell⟩ := cells src (.head _)
  refine smooth_bind (smooth_sshSetChannelCallbacks cell) ?_
  rintro _ _ rfl
  cases dst with
  | none =>
      refine smooth_bind (smooth_when (P := fun _ s' => s' = _) (fun some => absurd rfl some)
        fun _ => rfl) ?_
      rintro _ _ rfl
      refine smooth_pure ⟨rfl, rfl, rfl, rfl, ?_, ?_⟩
      · intro ch mem
        rw [List.mem_singleton.mp mem]
        exact ⟨_, Heap.cell_store_self _ cell, rfl⟩
      · intro ch other
        exact Heap.cell_store_of_ne _ (List.ne_of_not_mem_cons other)
  | some dst =>
      obtain ⟨d, cellDst⟩ := cells dst (by simp)
      have ne : dst ≠ src := fun same => distinct (congrArg some same)
      have cellDst' := (Heap.cell_store_of_ne s.channels (a := { c with
        callbacks := some (.forwardChannelCB p) }) ne).trans cellDst
      refine smooth_bind (smooth_when (fun _ => smooth_sshSetChannelCallbacks cellDst')
        fun null => absurd (Option.some_ne_none dst) null) ?_
      rintro _ _ rfl
      refine smooth_pure ⟨rfl, rfl, rfl, rfl, ?_, ?_⟩
      · intro ch mem
        simp only [Option.toList_some, List.mem_cons, List.not_mem_nil, or_false] at mem
        rcases mem with rfl | rfl
        · exact ⟨_, (Heap.cell_store_of_ne _ ne.symm).trans (Heap.cell_store_self _ cell), rfl⟩
        · exact ⟨_, Heap.cell_store_self _ cellDst', rfl⟩
      · intro ch other
        simp only [Option.toList_some, List.mem_cons, List.not_mem_nil, or_false, not_or] at other
        exact (Heap.cell_store_of_ne _ other.2).trans (Heap.cell_store_of_ne _ other.1)

/-- **With a pool, a pair and room the forward is added.** -/
theorem returns_forwardRegister {src : ChannelId} {dst : Option ChannelId}
    (near : Near s₀ (src :: dst.toList) s) (distinct : dst ≠ some src)
    (backend : dst ≠ none ↔ w.config.forwardMode = some .allow)
    (pointer : s₀.context.forwardPool = some id) (cell : s₀.pools.cell id = some pool)
    (holds : pool.Holds xs) (granted : w.granted s.tick = true)
    (grows : Grows (w.granted (s.tick + 1)) pool) :
    Returns (forwardRegister w undisturbed r.originator r.originatorPort r.destination
      r.destinationPort (some src) dst) s fun log close s' =>
        close = false ∧ Fine log ∧ ∃ p, r.Added w s₀ log s' id p src dst := by
  have pointer' := near.forwardPool.trans pointer
  have cell' : s.pools.cell id = some pool := near.pools ▸ cell
  refine returns_smooth_bind (smooth_fwPairAlloc granted) ?_
  rintro log₁ _ _ plain₁ ⟨rfl, rfl⟩
  refine returns_get_bind ?_
  rw [show ({ s with tick := s.tick + 1 } : Proxy).context.forwardPool = some id from pointer']
  refine returns_smooth_bind (smooth_poolAdd pointer' cell' holds grows) ?_
  rintro log₂ _ _ plain₂ ⟨rfl, pool', tick, holds', rfl⟩
  rw [if_pos (by omega)]
  -- from here on only the new pair changes, and `Filling` says what it is by now
  generalize start : ({ s with
    tick := tick
    pairs := s.pairs.alloc _
    pools := s.pools.store id pool' } : Proxy) = s₁
  have filling : Filling s₁ s.pairs.next _ s₁ :=
    ⟨rfl, rfl, rfl, by rw [← start]; exact s.pairs.cell_alloc_self, fun _ _ => rfl⟩
  refine returns_smooth_bind (filling_modifyPair filling) fun log₃ _ s₃ plain₃ filling => ?_
  refine returns_bind (filling_strdup r.originator filling) ?_
  rintro log₄ strdup s₄ ⟨fine₄, source, filling⟩
  refine returns_smooth_bind (filling_modifyPair filling) fun log₅ _ s₅ plain₅ filling => ?_
  refine returns_smooth_bind (filling_locals filling) fun log₆ _ s₆ plain₆ filling => ?_
  refine returns_bind (filling_strdup r.destination filling) ?_
  rintro log₇ strdup' s₇ ⟨fine₇, destiny, filling⟩
  refine returns_smooth_bind (filling_modifyPair filling) fun log₈ _ s₈ plain₈ filling => ?_
  refine returns_smooth_bind (filling_locals filling) fun log₉ _ s₉ plain₉ filling => ?_
  -- both ends are registered at last
  have channels : s₉.channels = s.channels := by rw [filling.channels, ← start]
  refine returns_mono (smooth_registerBoth distinct fun ch mem => channels ▸ (near.fresh ch mem).2) ?_
  rintro log₁₀ _ s' ⟨plain₁₀, rfl, context, pools, pairs, registered, others⟩
  refine ⟨rfl, ?_, s.pairs.next, ?_⟩
  · exact plain₁.fine.append <| plain₂.fine.append <| plain₃.fine.append <| fine₄.append <|
      plain₅.fine.append <| plain₆.fine.append <| fine₇.append <| plain₈.fine.append <|
      plain₉.fine.append plain₁₀.fine
  -- what the last state is, by what it was at the request
  have others' (q : PairId) (ne : q ≠ s.pairs.next) : s'.pairs.cell q = s₀.pairs.cell q := by
    rw [pairs, filling.pairs q ne, ← start, ← near.pairs]
    exact s.pairs.cell_alloc_of_ne ne
  have pools' : s'.pools = s₀.pools.store id pool' := by
    rw [pools, filling.pools, ← start, ← near.pools]
  refine
    { forwardPool := ⟨pointer, ?_⟩
      appended := ⟨pool, pool', xs, cell, holds, ?_, holds'⟩
      pools := fun other ne => by rw [pools', Heap.cell_store_of_ne _ ne]
      newPair := near.pairs ▸ s.pairs.fresh _ (Nat.le_refl _)
      pair := ⟨_, _, source.mono fun e mem => ?_, destiny.mono fun e mem => ?_, ?_⟩
      pairs := others'
      backend := backend
      registered := fun ch mem => ⟨(near.fresh ch mem).1, registered ch mem⟩
      channels := fun ch other => ?_ }
  · rw [context, filling.context, ← start]
    exact pointer'
  · rw [pools', Heap.cell_store_self _ cell]
  · simp [mem]
  · simp [mem]
  · rw [pairs, filling.pair]
    rfl
  · rw [others ch other, channels, near.channels ch other]

end Pool

/-! ## The callback

The three outcomes are put together in the order in which the code tests for them. -/

/-- What is asked of a log and a last state. -/
def ForwardRequest.Outcome (r : ForwardRequest) (w : World) (s : Proxy) (log : List Entry)
    (s' : Proxy) : Prop :=
  (∀ e ∈ log, ¬ e.Spoils) ∧
    (ForwardFails w s log ∨ w.config.forwardMode = some .fake → s.Unchanged s') ∧
    (¬ ForwardFails w s log → w.config.forwardMode ≠ some .fake →
      ∃ id p src dst, r.Added w s log s' id p src dst)

/-- Channels that are closed again leave nothing changed; that is one of the two outcomes that are
asked for, where something has failed or in `FAKE` mode. -/
private theorem outcome_closed {log : List Entry} {s' : Proxy} (sound : ∀ e ∈ log, ¬ e.Spoils)
    (near : Near s [] s') (why : ForwardFails w s log ∨ w.config.forwardMode = some .fake) :
    r.Outcome w s log s' :=
  ⟨sound, fun _ => near.unchanged, fun fine notFake => absurd why (not_or.mpr ⟨fine, notFake⟩)⟩

/-- A request that failed and coped. -/
theorem Coped.outcome {log : List Entry} {s' : Proxy} (h : Coped log) (near : Near s [] s') :
    r.Outcome w s log s' :=
  outcome_closed h.2 near (.inl (.inr (.inr h.1)))

/-- A forward that was added is the other outcome.  Nothing has failed then: there is a session of
the backend where one is needed, there is a pool, and of the steps only a copy may have failed. -/
private theorem outcome_added {log : List Entry} {s' : Proxy} {id : PoolId} {p : PairId}
    {src : ChannelId} {dst : Option ChannelId} (fine : Fine log)
    (session : ¬ (w.config.forwardMode = some .allow ∧ s.context.haasSession = none))
    (pointer : s.context.forwardPool = some id) (notFake : w.config.forwardMode ≠ some .fake)
    (added : r.Added w s log s' id p src dst) : r.Outcome w s log s' := by
  have succeeds : ¬ ForwardFails w s log := by
    rintro (missing | ⟨-, missing⟩ | ⟨e, mem, failed, other⟩)
    · exact session missing
    · cases pointer.symm.trans missing
    · exact other ((fine e mem).1 failed)
  exact ⟨fun e mem => (fine e mem).2, fun failed => absurd failed (not_or.mpr ⟨succeeds, notFake⟩),
    fun _ _ => ⟨id, p, src, dst, added⟩⟩

/-- The end of `forwardOpen`, when the channels are closed again. -/
theorem returns_closing {Q : List Entry → Int → Proxy → Prop} {src dst : Option ChannelId}
    {back : Int} (near : Near s₀ mine s) (mineOnly : ∀ ch ∈ mine, src = some ch ∨ dst = some ch)
    (fresh : ∀ ch, src = some ch ∨ dst = some ch → s₀.channels.cell ch = none)
    (post : ∀ log s', Plain log → Near s₀ [] s' → Q log back s') :
    Returns (do
      when (true = true) (forwardClose w undisturbed src dst)
      pure back) s Q := by
  refine returns_smooth_bind (smooth_when (fun _ => smooth_forwardClose near mineOnly fresh)
    fun no => absurd rfl no) fun log _ s' plain near => returns_pure ?_
  exact post _ _ (by simpa using plain) near

/-- `forwardOpen`, after `forwardConnect`. -/
def forwardReply (w : World) (r : ForwardRequest) (dst : Option ChannelId) (accept : Bool) :
    ProxyM Int := do
  let src ← (if accept then sshMessageChannelRequestOpenReplyAccept w undisturbed else pure none)
  let close ←
    (if src = none ∨ w.config.forwardMode = some .fake then pure true
    else forwardRegister w undisturbed r.originator r.originatorPort r.destination
      r.destinationPort src dst)
  when close do
    forwardClose w undisturbed src dst
  pure (if accept then 0 else 1)

/-- Nobody is to be accepted: what is left of the backend's channel goes. -/
theorem returns_forwardReply_refused {dst : Option ChannelId} (near : Near s₀ [] s)
    (fresh : ∀ ch, dst = some ch → s₀.channels.cell ch = none) :
    Returns (forwardReply w r dst false) s fun log _ s' => Plain log ∧ Near s₀ [] s' := by
  refine returns_pure_bind ?_
  rw [if_pos (.inl rfl)]
  refine returns_pure_bind (returns_closing near nofun ?_ fun _ _ plain near => ⟨plain, near⟩)
  rintro ch (is | is)
  · cases is
  · exact fresh ch is

/-- **The client's channel was accepted**, and both channels are new.  In `FAKE` mode and without a
pool they are closed again.  Otherwise the registration decides: where memory is granted the
forward is added, and where it is not the callback does not return. -/
private theorem settles_accepted {src : ChannelId} {dst : Option ChannelId} {log : List Entry}
    {s₁ : Proxy} (plain : Plain log) (near : Near s₀ (src :: dst.toList) s₁)
    (distinct : dst ≠ some src) (backend : dst ≠ none ↔ w.config.forwardMode = some .allow)
    (session : ¬ (w.config.forwardMode = some .allow ∧ s₀.context.haasSession = none))
    (inOrder : s₀.PoolInOrder)
    (run : sshMessageChannelRequestOpenReplyAccept w undisturbed s = ⟨log, s₁, .ok (some src)⟩) :
    Returns (forwardReply w r dst true) s (fun log _ s' =>
      ∀ log₀, Plain log₀ → r.Outcome w s₀ (log₀ ++ log) s') ∨
    Breaks (forwardReply w r dst true) s := by
  have mineOnly (ch : ChannelId) (mem : ch ∈ src :: dst.toList) :
      some src = some ch ∨ dst = some ch := by
    rcases List.mem_cons.mp mem with rfl | mem
    · exact .inl rfl
    · exact .inr (Option.mem_toList.mp mem)
  have fresh (ch : ChannelId) (is : some src = some ch ∨ dst = some ch) :
      s₀.channels.cell ch = none := by
    rcases is with is | is
    · cases is
      exact (near.fresh src (.head _)).1
    · exact (near.fresh ch (.tail _ (Option.mem_toList.mpr is))).1
  by_cases fake : w.config.forwardMode = some .fake
  · -- accepted, and closed at once
    refine .inl (returns_bind_of_ok run ?_)
    rw [if_pos (.inr fake)]
    refine returns_pure_bind (returns_closing near mineOnly fresh ?_)
    intro log' s' plain' near' log₀ plain₀
    have all := (plain₀.append (plain.append plain'))
    exact outcome_closed (fun e mem => (all e mem).2) near' (.inr fake)
  have toRegister : ¬ (some src = none ∨ w.config.forwardMode = some .fake) := by
    rintro (null | is)
    · cases null
    · exact fake is
  cases pointer : s₀.context.forwardPool with
  | none =>
      have noPool := near.forwardPool.trans pointer
      refine .inl (returns_bind_of_ok run ?_)
      rw [if_neg toRegister]
      refine returns_bind (returns_forwardRegister_noPool (r := r) near noPool) ?_
      rintro log' _ s₂ ⟨rfl, sound, near⟩
      refine returns_closing near mineOnly fresh ?_
      intro log'' s' plain'' near' log₀ plain₀
      refine outcome_closed (fun e mem => ?_) near' (.inl (.inr (.inl ⟨fake, pointer⟩)))
      simp only [List.mem_append] at mem
      rcases mem with mem | mem | mem | mem
      · exact (plain₀ e mem).2
      · exact (plain e mem).2
      · exact sound e mem
      · exact (plain'' e mem).2
  | some id =>
      obtain ⟨pool, xs, cell, holds⟩ := inOrder id pointer
      by_cases good : w.granted s₁.tick = true ∧ Grows (w.granted (s₁.tick + 1)) pool
      · refine .inl (returns_bind_of_ok run ?_)
        rw [if_neg toRegister]
        refine returns_bind (returns_forwardRegister (r := r) near distinct backend pointer cell
          holds good.1 good.2) ?_
        rintro log' _ s₂ ⟨rfl, fine, p, added⟩
        refine returns_pure_bind (returns_pure fun log₀ plain₀ => ?_)
        exact outcome_added (plain₀.fine.append (plain.fine.append (fine.append plain_nil.fine)))
          session pointer fake (added.mono fun e mem => by simp [mem])
      · -- a pair that was not allocated, or a pool that does not grow
        refine .inr (breaks_bind_of_ok run ?_)
        rw [if_neg toRegister]
        exact breaks_bind_left (breaks_forwardRegister (near.forwardPool.trans pointer)
          (near.pools ▸ cell) holds good)

/-- The client is to be accepted. -/
theorem settles_forwardReply {dst : Option ChannelId} (near : Near s₀ dst.toList s)
    (backend : dst ≠ none ↔ w.config.forwardMode = some .allow)
    (session : ¬ (w.config.forwardMode = some .allow ∧ s₀.context.haasSession = none))
    (inOrder : s₀.PoolInOrder) :
    Returns (forwardReply w r dst true) s (fun log _ s' =>
      ∀ log₀, Plain log₀ → r.Outcome w s₀ (log₀ ++ log) s') ∨
    Breaks (forwardReply w r dst true) s := by
  have accepted : Returns (sshMessageChannelRequestOpenReplyAccept w undisturbed) s
      fun log ch s' => (ch = none ∧ Coped log ∧ Near s₀ dst.toList s') ∨
        ∃ new ∉ dst.toList, ch = some new ∧ Plain log ∧ Near s₀ (new :: dst.toList) s' :=
    returns_gets_bind (returns_obtainBy (c := .openReplyAccept) near trivial)
  obtain ⟨log, s₁, src, run, ⟨rfl, coped, near'⟩ | ⟨src, other, rfl, plain, near'⟩⟩ := accepted
  · -- no channel for the client
    refine .inl (returns_bind_of_ok run ?_)
    rw [if_pos (.inl rfl)]
    refine returns_pure_bind (returns_closing near' (by simp) ?_ ?_)
    · rintro ch (is | is)
      · cases is
      · exact (near.fresh ch (by simp [is])).1
    · intro log' s' plain' near'' log₀ plain₀
      exact (plain₀.append_coped (coped.append plain')).outcome near''
  · exact settles_accepted plain near' (fun same => other (by simp [same])) backend session inOrder
      run

/-- `forwardOpen` does what is asked, or breaks off. -/
theorem settles_forwardOpen (r : ForwardRequest) (notDeny : w.config.forwardMode ≠ some .deny)
    (inOrder : s.PoolInOrder) :
    Returns (forwardOpen w undisturbed r.originator r.originatorPort r.destination
      r.destinationPort) s (fun log _ s' => r.Outcome w s log s') ∨
    Breaks (forwardOpen w undisturbed r.originator r.originatorPort r.destination
      r.destinationPort) s := by
  unfold forwardOpen
  rw [if_neg notDeny]
  obtain ⟨log, s₁, ⟨dst, accept⟩, run, post⟩ := returns_forwardConnect (r := r) (w := w) (s := s)
  rcases post with ⟨rfl, plain, backend, session, near⟩ | ⟨rfl, failed, near, fresh⟩
  · rcases settles_forwardReply (r := r) near backend session inOrder with returns | breaks
    · exact .inl (returns_bind_of_ok run (returns_mono returns fun _ _ _ post => post log plain))
    · exact .inr (breaks_bind_of_ok run breaks)
  · refine .inl (returns_bind_of_ok run (returns_mono (returns_forwardReply_refused near fresh) ?_))
    rintro log' _ s' ⟨plain', near'⟩
    rcases failed with ⟨allow, noSession, plain⟩ | coped
    · refine ⟨fun e mem => ((plain.append plain') e mem).2, fun _ => near'.unchanged, ?_⟩
      exact fun fine => absurd (.inl ⟨allow, noSession⟩) fine
    · exact (coped.append plain').outcome near'

/-- Later entries and timers do not matter. -/
theorem ForwardRequest.Outcome.later {log log' : List Entry} (h : r.Outcome w s₀ log s)
    (plain : Plain log') (tick : Nat) (timer : Timeval) :
    r.Outcome w s₀ (log ++ log')
      { s with tick := tick, context := { s.context with idleTimer := timer } } := by
  obtain ⟨sound, unchanged, added⟩ := h
  have same : ForwardFails w s₀ (log ++ log') ↔ ForwardFails w s₀ log := by
    refine or_congr_right (or_congr_right ⟨?_, ?_⟩)
    · rintro ⟨e, mem, failed, other⟩
      refine ⟨e, (List.mem_append.mp mem).resolve_right fun mem => ?_, failed, other⟩
      exact (plain e mem).1 failed
    · rintro ⟨e, mem, failed⟩
      exact ⟨e, List.mem_append_left _ mem, failed⟩
  refine ⟨fun e mem => ?_, fun failed => ?_, fun succeeds notFake => ?_⟩
  · exact (List.mem_append.mp mem).elim (sound e) fun mem => (plain e mem).2
  · obtain ⟨forwardPool, pools, pairs, channels⟩ := unchanged (failed.imp_left same.mp)
    exact ⟨forwardPool, pools, pairs, channels⟩
  · obtain ⟨id, p, src, dst, h⟩ := added (mt same.mpr succeeds) notFake
    have h := h.mono fun e mem => List.mem_append_left log' mem
    exact ⟨id, p, src, dst, h.forwardPool, h.appended, h.pools, h.newPair, h.pair, h.pairs,
      h.backend, h.registered, h.channels⟩

/-- `TrapMessageCallback` does what is asked, or breaks off. -/
theorem settles_trapMessageCallback (r : ForwardRequest)
    (notDeny : w.config.forwardMode ≠ some .deny) (inOrder : s.PoolInOrder) :
    Returns (trapMessageCallback w undisturbed (some r.message)) s
      (fun log _ s' => r.Outcome w s log s') ∨
    Breaks (trapMessageCallback w undisturbed (some r.message)) s := by
  refine (settles_forwardOpen r notDeny inOrder).imp (fun returns => ?_) breaks_bind_left
  refine returns_bind returns fun log back s' outcome => ?_
  have reset : Smooth (idleTimerReset w) s' fun _ s'' => ∃ tick timer, s'' = { s' with
      tick := tick, context := { s'.context with idleTimer := timer } } :=
    smooth_idleTimerReset fun tick timer => ⟨tick, timer, rfl⟩
  refine returns_smooth_bind reset ?_
  rintro log' _ _ plain ⟨tick, timer, rfl⟩
  refine returns_pure ?_
  simpa using outcome.later plain tick timer

end Steps

end Undisturbed

/-- **Setting up a forward is all or nothing** exactly if no answer spoils it. -/
theorem allOrNothing_iff {w : World} {s : Proxy} (r : ForwardRequest)
    (notDeny : w.config.forwardMode ≠ some .deny) (inOrder : s.PoolInOrder) :
    r.AllOrNothing w s (trapMessageCallback w undisturbed (some r.message) s) ↔
      ∀ e ∈ (trapMessageCallback w undisturbed (some r.message) s).log, ¬ e.Spoils := by
  rcases settles_trapMessageCallback r notDeny inOrder with returns | ⟨stopped, e, mem, spoils⟩
  · obtain ⟨log, s', back, run, sound, unchanged, added⟩ := returns
    rw [run]
    exact ⟨fun _ => sound, fun _ => ⟨rfl, unchanged, added⟩⟩
  · refine ⟨fun kept => ?_, fun sound => absurd spoils (sound e mem)⟩
    cases stopped.symm.trans kept.1

/-! ## Runs

The run statement is about the pool: in a run in which no pair is denied, no item is NULL.
The equivalence is about one call. -/

/-- No pool that is in use has a `NULL` item. -/
def Proxy.NoNull (s : Proxy) : Prop :=
  s.stage ≠ .teardown → ∀ id pool, s.pools.cell id = some pool →
    ∃ xs, pool.Holds xs ∧ none ∉ xs

/-- An item is only added for a pair that was allocated. -/
theorem noNull_add {h : List Entry} {id : PoolId} {pool pool' : FwPool (Option PairId)}
    {granted : Bool} {item : Option PairId} {index : Int} {xs : List (Option PairId)}
    (sound : ∀ e ∈ h, ¬ e.Spoils) (holds : pool.Holds xs) (noNull : none ∉ xs)
    (added : fwPoolAdd granted item (some pool) = .ok (index, some pool'))
    (null : item = none → PairDenied h id) : ∃ ys, pool'.Holds ys ∧ none ∉ ys := by
  have grows : ¬ pool.Refused granted := fun refused => by
    rw [fwPoolAdd_refused holds refused] at added
    cases added
  obtain ⟨pool'', added', holds'⟩ := fwPoolAdd_eq holds grows item
  cases added.symm.trans added'
  refine ⟨_, holds', fun mem => ?_⟩
  rcases List.mem_append.mp mem with mem | mem
  · exact noNull mem
  · obtain ⟨e, known, action, denied, pointer⟩ := null (List.mem_singleton.mp mem).symm
    refine sound e known ?_
    unfold Entry.Spoils
    rw [action]
    exact ⟨denied, by simp [pointer]⟩

/-- What is left in a pool was in it. -/
theorem noNull_remove {pool pool' : FwPool (Option PairId)} {index removed : Int}
    {xs : List (Option PairId)} (holds : pool.Holds xs) (noNull : none ∉ xs)
    (eq : fwPoolRemove index (some pool) = .ok (removed, some pool')) :
    ∃ ys, pool'.Holds ys ∧ none ∉ ys := by
  by_cases invalid : index < 0 ∨ xs.length ≤ index
  · cases eq.symm.trans (fwPoolRemove_invalid holds invalid)
    exact ⟨xs, holds, noNull⟩
  · obtain ⟨i, rfl⟩ := Int.eq_ofNat_of_zero_le (a := index) (by omega)
    have valid : i < xs.length := by omega
    obtain ⟨pool'', eq', holds'⟩ := fwPoolRemove_eq holds valid
    cases eq.symm.trans eq'
    refine ⟨_, holds', fun mem => noNull ?_⟩
    exact (swapRemove_perm valid).mem_iff.mpr (.tail _ mem)

section Steps

variable {w : World} {serial : Prop} {h l : List Entry} {s s' t : Proxy}

/-- Only the pools and the stage decide whether there is a NULL in the pool. -/
theorem Proxy.NoNull.of_same (noNull : s.NoNull) (pools : t.pools = s.pools)
    (stage : t.stage = s.stage) : t.NoNull := by
  unfold Proxy.NoNull
  rw [pools, stage]
  exact noNull

/-- A pool is written back after an addition or a removal. -/
theorem Proxy.NoNull.written (noNull : s.NoNull) {id : PoolId} {pool pool' : FwPool (Option PairId)}
    (cell : s.pools.cell id = some pool)
    (kept : ∀ xs, pool.Holds xs → none ∉ xs → ∃ ys, pool'.Holds ys ∧ none ∉ ys)
    (pools : t.pools = s.pools.store id pool') (stage : t.stage = s.stage) : t.NoNull := by
  intro serving other contents cell'
  rw [stage] at serving
  rw [pools] at cell'
  by_cases same : other = id
  · subst same
    obtain ⟨xs, holds, noNull⟩ := noNull serving other pool cell
    cases (Heap.cell_store_self _ cell).symm.trans cell'
    exact kept xs holds noNull
  · rw [Heap.cell_store_of_ne _ same] at cell'
    exact noNull serving other contents cell'

/-- In a step, and after it, no pool has a `NULL` item. -/
theorem noNull_change (change : Change w serial h s l s') (sound : ∀ e ∈ h ++ l, ¬ e.Spoils)
    (noNull : s.NoNull) : (∀ e ∈ l, e.before.NoNull) ∧ s'.NoNull := by
  have known : ∀ e ∈ h, ¬ e.Spoils := fun e mem => sound e (List.mem_append_left l mem)
  have ticked : s.tock.NoNull := noNull.of_same rfl rfl
  have later : s.tock.tock.NoNull := noNull.of_same rfl rfl
  have updated (s : Proxy) (noNull : s.NoNull) (ch : ChannelId) (f : Channel → Channel) :
      (s.updateChannel ch f).NoNull :=
    noNull.of_same (s.pools_updateChannel ch f) (s.stage_updateChannel ch f)
  cases change with
  | call _ _ c i licensed =>
      refine ⟨by simpa using ticked, ?_⟩
      exact ticked.of_same (pools_effect c i s.tock) (stage_effect c i s.tock)
  | once _ _ r i channel first =>
      refine ⟨by simpa using ticked, ?_⟩
      split <;> exact ticked.of_same rfl rfl
  | adopt _ _ trapChannel haasChannel i j obtained first second =>
      rw [first] at second ⊢
      rw [second]
      refine ⟨?_, noNull.of_same (by simp [Proxy.tock]) (by simp [Proxy.tock])⟩
      simp only [List.forall_mem_cons]
      exact ⟨ticked, noNull.of_same (by simp [Proxy.tock]) (by simp [Proxy.tock]),
        List.forall_mem_nil _⟩
  | arrive | consume => exact ⟨List.forall_mem_nil _, updated _ noNull _ _⟩
  | relay _ _ isStderr bytes i during after =>
      refine ⟨?_, noNull.of_same (by simp [Proxy.relayed, Proxy.idled, Proxy.tock])
        (by simp [Proxy.relayed, Proxy.idled, Proxy.tock])⟩
      simp only [relayLog, List.forall_mem_cons]
      refine ⟨noNull, noNull.of_same rfl rfl, ?_, ?_, List.forall_mem_nil _⟩
      · exact noNull.of_same (by simp [Proxy.tock]) (by simp [Proxy.tock])
      · exact noNull.of_same (by simp [Proxy.tock, Proxy.idled]) (by simp [Proxy.tock, Proxy.idled])
  | discard _ _ isStderr bytes cell callbacks outlet answer waited =>
      rcases waited with rfl | ⟨b, rfl⟩
      · exact ⟨by simpa using noNull, updated _ noNull _ _⟩
      · have waited : (Proxy.idled w { s with blocking := b }).NoNull := noNull.of_same rfl rfl
        exact ⟨by simpa using ⟨noNull, waited⟩, updated _ waited _ _⟩
  -- only these four write to a pool
  | add _ _ cell added null =>
      refine ⟨List.forall_mem_nil _, noNull.written cell (fun xs holds noNull => ?_) rfl rfl⟩
      exact noNull_add known holds noNull added null
  | register _ _ offered pointer cell added stored pair filled _ mid =>
      have null : some s.pairs.next = none → PairDenied h 0 := fun no =>
        absurd no (Option.some_ne_none _)
      have written (t : Proxy) (pools : t.pools = _) (stage : t.stage = s.stage) : t.NoNull :=
        noNull.written cell (fun xs holds noNull => noNull_add known holds noNull added null)
          pools stage
      refine ⟨fun e mem => ?_, written _ rfl rfl⟩
      obtain ⟨registering, -⟩ := mid e mem
      rcases registering.filled with same | filled
      · exact noNull.of_same same registering.stage
      · exact written _ filled registering.stage
  | @reap _ _ id pool pool' index removed p pair t pointer cell item eq loaded closed out =>
      have removed : t.NoNull := by
        refine noNull.written cell (fun xs holds noNull => noNull_remove holds noNull eq) ?_ ?_
        · rw [out]
        · rw [out]
      exact ⟨by simpa using removed, removed.of_same rfl rfl⟩
  -- during the teardown nothing is asked
  | clear _ _ id pool torndown => exact ⟨List.forall_mem_nil _, fun serving => absurd torndown serving⟩
  | freePool _ _ id torndown =>
      exact ⟨List.forall_mem_nil _, fun serving => absurd torndown serving⟩
  | _ => exact ⟨by simp [byeLog, noNull, ticked, later],
      noNull.of_same rfl rfl⟩

/-- **The step.** Whatever advances the run adds no NULL to a pool, unless an answer
spoils it. -/
private theorem noNull_advance (advance : Advance w serial h s l s')
    (sound : ∀ e ∈ h ++ l, ¬ e.Spoils)
    (noNull : s.NoNull) : (∀ e ∈ l, e.before.NoNull) ∧ s'.NoNull := by
  have ticked : s.tock.NoNull := noNull.of_same rfl rfl
  have later : s.tock.tock.NoNull := noNull.of_same rfl rfl
  cases advance with
  | change change => exact noNull_change change sound noNull
  | wait | woken | event | bye =>
      exact ⟨by simp [byeLog, noNull, ticked, later],
        noNull.of_same rfl rfl⟩
  | login _ _ _ serving => exact ⟨List.forall_mem_nil _, fun _ => noNull serving⟩
  | relay _ _ _ login =>
      refine ⟨List.forall_mem_nil _, fun _ => noNull ?_⟩
      simp [login]
  | teardown => exact ⟨List.forall_mem_nil _, fun torndown => absurd rfl torndown⟩
  | limit | usePool => exact ⟨List.forall_mem_nil _, noNull.of_same rfl rfl⟩
  | @newPool _ _ granted pool init =>
      refine ⟨List.forall_mem_nil _, ?_⟩
      intro serving id contents cell
      by_cases new : id = s.pools.next
      · subst new
        cases (s.pools.cell_alloc_self).symm.trans cell
        exact ⟨[], FwPool.holds_of_init init, List.not_mem_nil⟩
      · rw [show ({ s with pools := s.pools.alloc pool } : Proxy).pools.cell id = _ from
          s.pools.cell_alloc_of_ne new] at cell
        exact noNull serving id contents cell

end Steps

/-- In a run in which no answer spoils a forward, there are no `NULL` items. -/
theorem noNull_proxyRun {w : World} {fuel depth : Nat}
    (sound : ∀ e ∈ (proxyRun w fuel depth).log, ¬ e.Spoils) :
    ∀ e ∈ (proxyRun w fuel depth).log, e.before.NoNull := by
  refine ((path_proxyRun w fuel depth).restrict
    (A := fun e => ¬ e.Spoils) (by rwa [List.nil_append])).forall_entries
    (I := fun _ s => s.NoNull) (fun h s l s' noNull first => ?_) fun _ _ _ cell => nomatch cell
  exact (noNull_advance first.1 first.2 noNull).symm

/-- **Forwards are set up all or nothing.** One call of `TrapMessageCallback` in a pool
in order, with no callback in between, is all or nothing exactly if no answer spoils it:
no pair for a pool that there is, or no growth for a pool that is full. In the first
case a `NULL` is put into the pool, in the second one the item is behind the array. The
second half is about runs with any callbacks: without such answers no pool has a `NULL`
item in any state that is logged. -/
theorem forwardSetup_iff (w : World) :
    (∀ (s : Proxy) (r : ForwardRequest), w.config.forwardMode ≠ some .deny → s.PoolInOrder →
      (r.AllOrNothing w s (trapMessageCallback w undisturbed (some r.message) s) ↔
        ∀ e ∈ (trapMessageCallback w undisturbed (some r.message) s).log, ¬ e.Spoils)) ∧
    ∀ fuel depth : Nat, (∀ e ∈ (proxyRun w fuel depth).log, ¬ e.Spoils) →
      ∀ e ∈ (proxyRun w fuel depth).log, e.before.NoNull :=
  ⟨fun _ r notDeny inOrder => allOrNothing_iff r notDeny inOrder, fun _ _ => noNull_proxyRun⟩

/-- A request. -/
def someForward : ForwardRequest := ⟨.root, 1025, .root, 80⟩

/-- The state after `FwPoolInit`. -/
def Proxy.pooled : Proxy :=
  { Proxy.initial with
    context := { Proxy.initial.context with forwardPool := some 0 }
    pools := Heap.empty.alloc ⟨0, 0, none⟩ }

private theorem poolInOrder_pooled : Proxy.pooled.PoolInOrder := by
  rintro _ ⟨⟩
  exact ⟨_, [], Heap.cell_alloc_self _, rfl, Nat.le_refl _, rfl, rfl⟩

/-- A session in `ECHO` mode in which two forwards are requested. -/
def echoForwards : World :=
  .scripted .echo [(13, 2)]
    [(6, loginAndChannel), (31, [requestForward, requestForward, .channel 0 .close])]

/-- The conditions can be met: a forward in `ECHO` mode that is set up, in a run of four
forwards. -/
theorem forwardSetup_echoForwards :
    (someForward.AllOrNothing echoForwards .pooled
        (trapMessageCallback echoForwards undisturbed (some someForward.message) .pooled) ↔
      ∀ e ∈ (trapMessageCallback echoForwards undisturbed (some someForward.message) .pooled).log,
        ¬ e.Spoils) ∧
    ∀ e ∈ (proxyRun echoForwards 4 1).log, e.before.NoNull :=
  ⟨(forwardSetup_iff echoForwards).1 .pooled someForward (by decide) poolInOrder_pooled,
    (forwardSetup_iff echoForwards).2 4 1 (by decide +kernel)⟩

/-- There is no memory for the pair. -/
def pairDenied : World := { World.scripted .echo [] [] with granted := fun t => t ≠ 1 }

/-- `NULL` is added to the pool and dereferenced. -/
theorem pairDenied_notAllOrNothing :
    ¬ someForward.AllOrNothing pairDenied .pooled
      (trapMessageCallback pairDenied undisturbed (some someForward.message) .pooled) ∧
    (trapMessageCallback pairDenied undisturbed (some someForward.message) .pooled).value =
      .error (.fault .nullPointer) ∧
    ((trapMessageCallback pairDenied undisturbed (some someForward.message) .pooled).state.pools.cell
      0).map (fun pool => pool.slots.take pool.used) = some [some none] := by
  refine ⟨fun kept => ?_, by decide +kernel, by decide +kernel⟩
  have stopped : (trapMessageCallback pairDenied undisturbed (some someForward.message)
      .pooled).value.isOk = false := by decide +kernel
  cases stopped.symm.trans kept.1

end HaasProxy
