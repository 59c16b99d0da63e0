import HaasProxy.Reaping
import HaasProxy.Wiring
import HaasProxy.Uniform

/-!
# Half-closed forwards (`proxy.c`)

When one end of a forward has sent all it had, `ForwardChannelEofCallback` tells the
other end, which may go on sending.  `HandleForwards` looks at the same condition:
there a poll that answers `SSH_EOF` marks the pair as closed, whatever the other end
does, and the pair is reaped.

So a forward outlives the end of one of its streams in runs in which no poll finds
that end before the pair is over anyway: `halfClosed_of_timely`.  What is passed on
meanwhile is a matter of the callbacks alone.

## Main definitions and results

* `Ended`, `GotEof` — what has been delivered to a pair so far;
* `LeftAlone`, `HalfClosed` — a pair that is not over stays, and passes on what arrives;
* `PollsLate` — the condition on what the polls find;
* `relayed_proxyRun` — what arrives at a forward is written at once;
* `Attended` — the invariant, with `attended_advance`, the step;
* `halfClosed_of_timely` — the result.

## Design notes

**Two halves.**  That data is written at once is about the data callback and nothing else: it
holds in every run, at every depth, and is proved by a congruence over the whole program.
That there is an end to write it to is about the steps.

**When a pair is over** is said by what was delivered to it, and not by its mark.  The mark is
what goes wrong: a poll sets it too early.  `Attended.closed` says that, with polls that
are late enough, the mark is set only on a pair that is over.

**The clauses of the invariant** each cover a way of losing a pair: a pair is closed, is
released, loses an end, or leaves the pool.
-/

namespace HaasProxy

open Traced

/-! ## The end of a forward -/

/-- The channel on which an event is delivered to a pair. -/
def Entry.delivered (event : ChannelEvent) (p : PairId) (e : Entry) : Option ChannelId :=
  match e.action with
  | .enter (.channel ch event') => if event' = event ∧ e.before.CallsBack ch p then some ch else none
  | _ => none

/-- The end of a stream was received from an end of the pair. -/
def GotEof (h : List Entry) (p : PairId) : Prop := ∃ e ∈ h, e.delivered .eof p ≠ none

/-- **The pair is over**: one of its ends was closed, or both streams have ended. -/
def Ended (h : List Entry) (p : PairId) : Prop :=
  (∃ e ∈ h, e.delivered .close p ≠ none) ∨
    ∃ e ∈ h, ∃ e' ∈ h, ∃ ch ∈ e.delivered .eof p, ∃ ch' ∈ e'.delivered .eof p, ch ≠ ch'

instance (h : List Entry) (p : PairId) : Decidable (GotEof h p) :=
  inferInstanceAs (Decidable (∃ e ∈ h, _))

instance (h : List Entry) (p : PairId) : Decidable (Ended h p) :=
  inferInstanceAs (Decidable ((∃ e ∈ h, _) ∨ ∃ e ∈ h, _))

/-- The pair is released because the session is over. -/
def TornApart (h : List Entry) (p : PairId) : Prop :=
  ∃ e ∈ h, e.action = .release p ∧ e.before.stage = .teardown

/-- A pair that has received the end of one stream is in the pool, and is neither marked nor
released, until it is over. -/
def LeftAlone (p : PairId) (h : List Entry) (e : Entry) : Prop :=
  GotEof h p → ¬ Ended h p → e.before.stage ≠ .teardown →
    p ∈ e.before.items ∧ e.before.isClosed (some p) = false ∧ e.action ≠ .release p

instance (p : PairId) (h : List Entry) (e : Entry) : Decidable (LeftAlone p h e) :=
  inferInstanceAs (Decidable (_ → _))

/-- **Half-closed forwards are left alone**, and what arrives at an end of a pair that is not
over is written to the other one. -/
structure HalfClosed (log : List Entry) : Prop where
  /-- A pair with one stream left stays in the pool, unmarked and unreleased. -/
  kept : ∀ p, Throughout (LeftAlone p) log
  /-- Data on an end is written to the other end at once. -/
  relayed : ∀ h e l, log = h ++ e :: l → ∀ ch isStderr bytes p,
    e.action = .enter (.channel ch (.data isStderr bytes)) → e.before.CallsBack ch p →
    ¬ Ended h p → ¬ TornApart h p →
    ∃ pair near out c, e.before.pairs.cell p = some pair ∧
      (pair.endpoint near).channel = some ch ∧ (pair.endpoint near.other).channel = some out ∧
      e.before.channels.cell ch = some c ∧
      ∃ e' l', l = e' :: l' ∧ e'.action = .call (.write out isStderr (c.buffered isStderr))

/-- The channel a poll has looked at. -/
def Interaction.polled : Interaction → Option ChannelId
  | returned (.poll ch) => some ch
  | _ => none

/-- The channel is an end of the pair. -/
def Proxy.isEndOf (s : Proxy) (ch : ChannelId) (p : PairId) : Bool :=
  (s.pairs.cell p).any fun pair => pair.source.channel = some ch ∨ pair.destiny.channel = some ch

/-- Where a poll has found the end of a stream, the pairs that the channel is or was an end
of are over. -/
def PollsLate (h : List Entry) (e : Entry) : Prop :=
  ∀ ch ∈ e.action.polled, e.answer = sshEof → ∀ p < e.before.pairs.next,
    (∃ e' ∈ h ++ [e], e'.before.isEndOf ch p = true) → Ended h p

instance (h : List Entry) (e : Entry) : Decidable (PollsLate h e) :=
  inferInstanceAs (Decidable (∀ ch ∈ e.action.polled, _))

/-! ## What is passed on

A program is prompt if each piece of data that it is told of is written by the next thing
that is logged. -/

/-- Data that arrives at a forward with an outlet is written to it at once. -/
def Entry.Relayed (w : World) (e : Entry) (next : List Entry) : Prop :=
  ∀ ch isStderr bytes p c out, e.action = .enter (.channel ch (.data isStderr bytes)) →
    e.before.channels.cell ch = some c → c.callbacks = some (.forwardChannelCB p) →
    e.before.outlet w ch (.forwardChannelCB p) = some out →
    ∃ e' l, next = e' :: l ∧ e'.action = .call (.write out isStderr (c.buffered isStderr))

/-- From `s` the program writes at once what is to be written. -/
def PromptFrom (w : World) {α : Type} (m : ProxyM α) (s : Proxy) : Prop :=
  ∀ l₁ e l₂, (m s).log = l₁ ++ e :: l₂ → e.Relayed w l₂

/-- The program writes at once what is to be written. -/
def Prompt (w : World) (α : Type) (m _m' : ProxyM α) : Prop := ∀ s, PromptFrom w m s

/-- From `s` the program begins with an interaction. -/
def Begins {α : Type} (action : Interaction) (m : ProxyM α) (s : Proxy) : Prop :=
  ∃ e l, (m s).log = e :: l ∧ e.action = action

section Prompt

variable {w : World} {α β : Type} {m : ProxyM α} {k : α → ProxyM β} {s s' : Proxy}
  {action : Interaction}

/-- What a sequence does first is what its first program does first. -/
theorem begins_bind (first : Begins action m s) : Begins action (m >>= k) s := by
  obtain ⟨e, l, log, same⟩ := first
  rcases run : m s with ⟨log', s', stop | a⟩
  · rw [run] at log
    refine ⟨e, l, ?_, same⟩
    rw [bind_of_error run]
    exact log
  · rw [run] at log
    refine ⟨e, l ++ (k a s').log, ?_, same⟩
    rw [bind_of_ok run]
    show log' ++ _ = _
    rw [show log' = e :: l from log, List.cons_append]

theorem begins_quiet_bind {a : α} (run : m s = ⟨[], s', .ok a⟩) (next : Begins action (k a) s') :
    Begins action (m >>= k) s := by
  obtain ⟨e, l, log, same⟩ := next
  refine ⟨e, l, ?_, same⟩
  rw [bind_of_ok run]
  exact log

private theorem begins_callWith {dispatch : Nat → ProxyM Unit} {c : Call}
    {effect : Int → Proxy → Proxy} :
    Begins (.call c) (callWith w dispatch c effect) s := by
  refine begins_quiet_bind (show nextTick s = ⟨[], s.tock, .ok s.tick⟩ from rfl) ?_
  exact begins_bind ⟨_, _, rfl, rfl⟩

/-- A write begins with the call: setting the mode is not logged. -/
theorem begins_writeNonblocking {dispatch : Nat → ProxyM Unit}
    {session : Context → Option SessionId} {out : ChannelId} {isStderr : Bool}
    {data : List UInt8} :
    Begins (.call (.write out isStderr data))
      (writeNonblocking w dispatch session (some out) isStderr data) s := by
  refine begins_quiet_bind (show get s = ⟨[], s, .ok s⟩ from rfl) ?_
  refine begins_quiet_bind (show sshIsBlocking (session s.context) s = ⟨[], s, .ok _⟩ from rfl) ?_
  refine begins_quiet_bind
    (show sshSetBlocking (session s.context) false s = ⟨[], _, .ok ()⟩ from rfl) ?_
  apply begins_bind
  refine begins_quiet_bind (show (gets fun s : Proxy => s.channels.cell out : ProxyM _) _ =
    ⟨[], _, .ok _⟩ from rfl) ?_
  exact begins_bind begins_callWith

/-- **The data of a forward** is written to its outlet. -/
theorem begins_forwardChannelDataCallback {dispatch : Nat → ProxyM Unit} {session : SessionId}
    {ch out : ChannelId} {isStderr : Bool} {data : List UInt8} {p : PairId}
    (outlet : s.outlet w ch (.forwardChannelCB p) = some out) :
    Begins (.call (.write out isStderr data))
      (forwardChannelDataCallback w dispatch session ch isStderr data p) s := by
  obtain ⟨pair, cell, goes⟩ := Option.bind_eq_some_iff.mp outlet
  obtain ⟨used, goes⟩ := Option.ite_none_left_eq_some.mp goes
  refine begins_quiet_bind (run_loadPair cell) ?_
  obtain ⟨reference, context⟩ := Option.ne_none_iff_exists'.mp used
  rw [context]
  refine begins_quiet_bind (show get s = ⟨[], s, .ok s⟩ from rfl) ?_
  apply begins_bind
  cases mode : w.config.forwardMode with
  | none => simp [mode] at goes
  | some forwardMode =>
      cases forwardMode with
      | allow =>
          simp only [mode] at goes ⊢
          rw [goes]
          exact begins_writeNonblocking
      | echo =>
          simp only [mode] at goes ⊢
          cases goes
          exact begins_writeNonblocking
      | _ => simp [mode] at goes

/-! A congruence. -/

/-- What follows immediately is the same in a longer log. -/
private theorem relayed_append {e : Entry} {next : List Entry} (relayed : e.Relayed w next)
    (more : List Entry) : e.Relayed w (next ++ more) := by
  intro ch isStderr bytes p c out enter cell callbacks outlet
  obtain ⟨e', l, rfl, write⟩ := relayed ch isStderr bytes p c out enter cell callbacks outlet
  exact ⟨e', l ++ more, rfl, write⟩

/-- What is no data has nothing to be written. -/
theorem relayed_of_other {e : Entry} {next : List Entry}
    (other : ∀ ch isStderr bytes, e.action ≠ .enter (.channel ch (.data isStderr bytes))) :
    e.Relayed w next := by
  intro ch isStderr bytes p c out enter
  exact absurd enter (other ch isStderr bytes)

/-- A program in which no data is delivered has nothing to be prompt about. -/
theorem promptFrom_of_other
    (other : ∀ e ∈ (m s).log, ∀ ch isStderr bytes,
      e.action ≠ .enter (.channel ch (.data isStderr bytes))) : PromptFrom w m s := by
  intro l₁ e l₂ split
  exact relayed_of_other (other e (split ▸ List.mem_append_right l₁ (.head l₂)))

/-- Programs that run promptly one after the other do so together. -/
theorem promptFrom_bind (first : PromptFrom w m s)
    (next : ∀ a s', (m s).value = .ok a → (m s).state = s' → PromptFrom w (k a) s') :
    PromptFrom w (m >>= k) s := by
  unfold PromptFrom at first ⊢
  rcases run : m s with ⟨log, s', stop | a⟩
  · rw [bind_of_error run]
    rwa [run] at first
  · rw [run] at first
    have rest := next a s' (by rw [run]) (by rw [run])
    rw [bind_of_ok run]
    intro l₁ e l₂ split
    rcases List.append_eq_append_iff.mp split with ⟨l, rfl, eq⟩ | ⟨l, rfl, eq⟩
    · exact rest l e l₂ eq
    · cases l with
      | nil => exact rest [] e l₂ eq.symm
      | cons e' l =>
          obtain ⟨rfl, rfl⟩ := List.cons.inj eq
          exact relayed_append (first l₁ e l rfl) _

theorem congruence_prompt : Congruence Own SameChannels (Prompt w) where
  refl := .refl
  trans _ _ _ := .trans
  plain plain s := by
    apply promptFrom_of_other
    intro e mem ch isStderr bytes
    exact ((plain s).1 e mem).own _ |>.1
  bind first next s := promptFrom_bind (first s) fun a s' _ _ => next a s'

/-- Being prompt has nothing to do with the modes. So every function of the proxy is
prompt if the callbacks are. -/
theorem uniform_prompt : Uniform Own SameChannels (Prompt w) :=
  uniform_of_congruence congruence_prompt

/-- A callback that does what it has to do at once. -/
theorem promptFrom_logged {cb : Callback} {m : ProxyM Int} (inner : PromptFrom w m s)
    (prompt : ∀ next, (∀ action, Begins action m s → ∃ e l, next = e :: l ∧ e.action = action) →
      (⟨s, .enter cb, 0⟩ : Entry).Relayed w next) : PromptFrom w (logged cb m) s := by
  have leaves (back : Int) (s' : Proxy) :
      PromptFrom w (tell (fun s => ⟨s, .leave cb, back⟩) >>= fun _ => pure back : ProxyM Int) s' :=
    promptFrom_of_other (by simp [bind_of_ok (show tell (fun s : Proxy =>
      (⟨s, .leave cb, back⟩ : Entry)) s' = ⟨[⟨s', .leave cb, back⟩], s', .ok ()⟩ from rfl),
      show (pure back : ProxyM Int) s' = ⟨[], s', .ok back⟩ from rfl])
  have rest : PromptFrom w (m >>= fun back => tell (fun s => ⟨s, .leave cb, back⟩) >>= fun _ =>
      pure back : ProxyM Int) s := promptFrom_bind inner fun back s' _ _ => leaves back s'
  unfold PromptFrom logged
  rw [bind_of_ok (show tell (fun s : Proxy => (⟨s, .enter cb, 0⟩ : Entry)) s =
    ⟨[⟨s, .enter cb, 0⟩], s, .ok ()⟩ from rfl)]
  intro l₁ e l₂ split
  cases l₁ with
  | nil =>
      obtain ⟨rfl, rfl⟩ := List.cons.inj split
      exact prompt _ fun action begins => begins_bind begins
  | cons e' l₁ => exact rest l₁ e l₂ (List.cons.inj split).2

theorem prompt_logged {cb : Callback} {m m' : ProxyM Int}
    (other : ∀ ch isStderr bytes, cb ≠ .channel ch (.data isStderr bytes))
    (inner : Prompt w Int m m') : Prompt w Int (logged cb m) (logged cb m') := by
  intro s
  refine promptFrom_logged (inner s) fun next _ => relayed_of_other ?_
  intro ch isStderr bytes enter
  exact other ch isStderr bytes (Interaction.enter.inj enter)

variable {dispatch dispatch' : Nat → ProxyM Unit}
  (nested : ∀ t, Prompt w Unit (dispatch t) (dispatch' t))

include nested

/-- **Data** is passed on at once. -/
theorem prompt_deliverData {ch : ChannelId} {isStderr : Bool} {bytes : List UInt8}
    (m' : ProxyM Unit) : Prompt w Unit (deliverChannel w dispatch ch (.data isStderr bytes)) m' := by
  have quiet {s : Proxy} {f : Proxy → Proxy} : PromptFrom w (modify f : ProxyM Unit) s :=
    promptFrom_of_other (List.forall_mem_nil _)
  have plain {s : Proxy} : PromptFrom w (pure () : ProxyM Unit) s :=
    promptFrom_of_other (List.forall_mem_nil _)
  have write (session : Context → Option SessionId) (out : Option ChannelId) (isStderr : Bool)
      (data : List UInt8) : Prompt w Int (writeNonblocking w dispatch session out isStderr data)
        (writeNonblocking (w.withMode true 0) dispatch' session out isStderr data) :=
    related_writeNonblocking congruence_prompt nested session out isStderr data
  intro s
  refine promptFrom_bind quiet fun _ s _ _ => ?_
  refine promptFrom_bind (promptFrom_of_other (List.forall_mem_nil _)) fun _ s' same at_ => ?_
  cases same
  cases at_
  cases cell : s.channels.cell ch with
  | none =>
      exact plain
  | some c =>
      cases callbacks : c.callbacks with
      | none =>
          simp only [callbacks, Option.bind_none]
          exact plain
      | some table =>
          simp only [callbacks, Option.bind_some]
          cases table with
          | trapChannelCB | haasChannelCB =>
              refine promptFrom_bind (promptFrom_logged (related_relayData uniform_prompt write s)
                fun next _ => ?_) fun _ _ _ _ => quiet
              intro ch' isStderr bytes p c' out enter cell' callbacks'
              cases enter
              cases cell.symm.trans cell'
              cases callbacks.symm.trans callbacks'
          | forwardChannelCB p =>
              refine promptFrom_bind (promptFrom_logged
                (related_forwardChannelDataCallback uniform_prompt write s)
                fun next begins => ?_) fun _ _ _ _ => quiet
              intro ch' isStderr bytes p c' out enter cell' callbacks' outlet
              cases enter
              cases cell.symm.trans cell'
              cases callbacks.symm.trans callbacks'
              exact begins _ (begins_forwardChannelDataCallback outlet)

/-- What is left to congruences. -/
theorem related_prompt :
    Related (Prompt w) w w.config.foreground w.config.debugLevel dispatch dispatch' where
  nested := nested
  login _ _ := related_haasConnect uniform_prompt nested rfl fun _ =>
    congruence_prompt.modify fun _ => ⟨rfl, rfl, rfl⟩
  write := related_writeNonblocking congruence_prompt nested
  newChannel := by
    have adopt (trapChannel haasChannel : ChannelId) :
        Prompt w Unit (modify fun s => s.adopt trapChannel haasChannel)
          (modify fun s => s.adopt trapChannel haasChannel) :=
      fun s => promptFrom_of_other (List.forall_mem_nil _)
    have inner : Prompt w (Option ChannelId) (trapNewChannel w dispatch)
        (trapNewChannel (w.withMode w.config.foreground w.config.debugLevel) dispatch') :=
      related_trapNewChannel uniform_prompt nested adopt
    refine congruence_prompt.bind (prompt_logged (by simp) ?_) fun _ => congruence_prompt.pure ()
    exact congruence_prompt.bind inner fun _ => congruence_prompt.pure _
  data _ _ _ := prompt_deliverData nested _
  logged cb m m' usual := prompt_logged (by rintro ch isStderr bytes rfl; cases usual)

end Prompt

/-- **In a run** what arrives at a forward is written at once. -/
theorem relayed_proxyRun (w : World) (fuel depth : Nat) (l₁ : List Entry) (e : Entry)
    (l₂ : List Entry) (split : (proxyRun w fuel depth).log = l₁ ++ e :: l₂) : e.Relayed w l₂ := by
  have nested (t : Nat) : Prompt w Unit (dispatchWithin w depth t)
      (dispatchWithin (w.withMode w.config.foreground w.config.debugLevel) depth t) :=
    related_dispatchWithin uniform_prompt (fun _ _ nested => related_prompt nested) depth t
  have prompt : Prompt w Unit (proxyProcess w (dispatchWithin w depth) fuel)
      (proxyProcess (w.withMode w.config.foreground w.config.debugLevel)
        (dispatchWithin (w.withMode w.config.foreground w.config.debugLevel) depth) fuel) :=
    related_proxyProcess uniform_prompt nested
  exact prompt Proxy.initial l₁ e l₂ split

/-! ## What becomes of a forward

By the steps, and among these only by what they do to pairs. -/

/-- The channel is an end of a pair in use, which has another end. -/
def Proxy.Connected (s : Proxy) (ch : ChannelId) (p : PairId) : Prop :=
  ∃ pair near out, s.pairs.cell p = some pair ∧ pair.context ≠ none ∧
    (pair.endpoint near).channel = some ch ∧ (pair.endpoint near.other).channel = some out

/-- **The invariant**: who calls back into a pair is connected, and the pair is in the pool,
until it is over. -/
structure Attended (h : List Entry) (s : Proxy) : Prop where
  /-- A pair is marked only when it is over. -/
  closed : ∀ p, s.isClosed (some p) = true → Ended h p
  /-- A pair that was released is out of use. -/
  released : ∀ p, Released h p → p < s.pairs.next ∧
    ∀ pair, s.pairs.cell p = some pair → pair.context = none
  /-- Who calls back into a pair is one of two ends of it. -/
  calls : ∀ ch p, s.CallsBack ch p → Ended h p ∨ TornApart h p ∨ s.Connected ch p
  /-- The pool is in order. -/
  pooled : s.stage ≠ .teardown → Pooled h s
  /-- A pair that somebody calls back into is in the pool. -/
  items : s.stage ≠ .teardown → ∀ p, (∃ ch, s.CallsBack ch p) ∨ GotEof h p →
    Ended h p ∨ p ∈ s.items

section Steps

variable {w : World} {serial : Prop} {h l l₁ l₂ : List Entry} {s s' : Proxy} {p : PairId}
  {ch : ChannelId} {e : Entry}

/-- A stream that has ended has ended in a longer history. -/
theorem ended_append (ended : Ended h p) : Ended (h ++ l) p := by
  rcases ended with ⟨e, mem, closed⟩ | ⟨e, mem, e', mem', both⟩
  · exact .inl ⟨e, List.mem_append_left l mem, closed⟩
  · exact .inr ⟨e, List.mem_append_left l mem, e', List.mem_append_left l mem', both⟩

private theorem tornApart_append (torn : TornApart h p) : TornApart (h ++ l) p := by
  obtain ⟨e, mem, release⟩ := torn
  exact ⟨e, List.mem_append_left l mem, release⟩

/-- What is delivered to a pair is a callback on a channel that calls back into it. -/
theorem delivered_eq {event : ChannelEvent} (delivered : e.delivered event p ≠ none) :
    ∃ ch, e.action = .enter (.channel ch event) ∧ e.before.CallsBack ch p := by
  unfold Entry.delivered at delivered
  split at delivered
  · rename_i ch event' enter
    by_cases here : event' = event ∧ e.before.CallsBack ch p
    · obtain ⟨rfl, calls⟩ := here
      exact ⟨ch, enter, calls⟩
    · exact absurd (if_neg here) delivered
  · exact absurd rfl delivered

/-- A callback begins with the first entry of a step, and the end of a stream is a step of
its own. -/
theorem enters_first (advance : Advance w serial h s l s') (split : l = l₁ ++ e :: l₂)
    {cb : Callback} (enter : e.action = .enter cb) :
    l₁ = [] ∧ e.before = s ∧ (∀ ch, cb = .channel ch .eof → l₂ = []) := by
  have first {a : Entry} {m : List Entry} (eq : l = a :: m) (before : a.before = s)
      (rest : ∀ b ∈ m, ∀ cb, b.action ≠ .enter cb)
      (alone : m = [] ∨ ∀ ch, a.action ≠ .enter (.channel ch .eof)) :
      l₁ = [] ∧ e.before = s ∧ (∀ ch, cb = .channel ch .eof → l₂ = []) := by
    rw [eq] at split
    cases l₁ with
    | nil =>
        obtain ⟨rfl, rfl⟩ := List.cons.inj split
        refine ⟨rfl, before, ?_⟩
        rintro ch rfl
        exact alone.resolve_right fun other => other ch enter
    | cons b l₁ =>
        obtain ⟨rfl, rfl⟩ := List.cons.inj split
        exact absurd enter (rest e (List.mem_append_right l₁ (.head l₂)) cb)
  have no_enter (other : ∀ a ∈ l, ∀ cb, a.action ≠ .enter cb) :
      l₁ = [] ∧ e.before = s ∧ (∀ ch, cb = .channel ch .eof → l₂ = []) :=
    absurd enter (other e (split ▸ List.mem_append_right l₁ (.head l₂)) cb)
  cases advance with
  | change change =>
      cases change with
      | enter => exact first rfl rfl (List.forall_mem_nil _) (.inl rfl)
      | register _ _ offered pointer cell added stored pair filled _ mid =>
          refine no_enter fun a mem cb => ?_
          obtain ⟨-, ⟨allocation, action⟩ | ⟨ch, action⟩⟩ := mid a mem <;> simp [action]
      | relay => exact first rfl rfl (by simp) (.inr (by simp))
      | discard => exact first rfl rfl (by simp) (.inr (by simp))
      | _ => exact no_enter (by simp [byeLog])
  | _ => exact no_enter (by simp [byeLog])

/-! What is closed. -/

/-- A pair is marked only when it is over. -/
theorem ended_of_marked (marked : Marked h s p) (late : Throughout PollsLate h)
    (below : p < s.pairs.next) : Ended h p := by
  rcases marked with ⟨h₀, r, ch, rfl, action, answer, rfl, e, mem, pair, end_, cell, channel⟩ |
    ⟨h₀, e, ch, c, rfl, action, rfl, cell, callbacks⟩
  · refine ended_append (late h₀ r [] rfl ch ?_ answer p below ⟨e, mem, ?_⟩)
    · rw [action]
      rfl
    · rw [Proxy.isEndOf, cell, Option.any_some, decide_eq_true_eq]
      cases end_ with
      | source => exact .inl channel
      | destiny => exact .inr channel
  · refine .inl ⟨e, List.mem_append_right h₀ (.head _), ?_⟩
    have calls : e.before.CallsBack ch p := by
      rw [Proxy.CallsBack, cell]
      exact callbacks
    rw [Entry.delivered, action]
    simp [calls]

/-- A pair that is overwritten. -/
theorem isClosed_store {q : PairId} {old new : FwPair} (was : s.pairs.cell q = some old)
    (pairs : s'.pairs = s.pairs.store q new) (closed : s'.isClosed (some p) = true) :
    p = q ∧ new.closed = true ∨ p ≠ q ∧ s.isClosed (some p) = true := by
  rw [Proxy.isClosed, Option.bind_some, pairs] at closed
  by_cases same : p = q
  · subst same
    rw [s.pairs.cell_store_self was] at closed
    exact .inl ⟨rfl, closed⟩
  · rw [s.pairs.cell_store_of_ne same] at closed
    exact .inr ⟨same, closed⟩

/-- **What is closed** was closed before or is marked. -/
theorem isClosed_of_repairs (repairs : Repairs h s l s') (closed : s'.isClosed (some p) = true) :
    s.isClosed (some p) = true ∨ Marked h s p ∧ p < s.pairs.next := by
  cases repairs with
  | same pairs => exact .inl (by rwa [isClosed_of_pairs pairs] at closed)
  | new pair pairs isOpen =>
      rw [Proxy.isClosed, Option.bind_some, pairs] at closed
      by_cases same : p = s.pairs.next
      · subst same
        rw [s.pairs.cell_alloc_self] at closed
        cases isOpen.symm.trans closed
      · rw [s.pairs.cell_alloc_of_ne same] at closed
        exact .inl closed
  | mark cell why pairs =>
      rcases isClosed_store cell pairs closed with ⟨rfl, -⟩ | ⟨-, was⟩
      · exact .inr ⟨why, s.pairs.lt_next_of_cell cell⟩
      · exact .inl was
  | release cell why pairs =>
      rcases isClosed_store cell pairs closed with ⟨rfl, not⟩ | ⟨-, was⟩
      · cases not
      · exact .inl was
  | @endpoint q pair released end_ endpoint cell pairs =>
      rcases isClosed_store cell pairs closed with ⟨rfl, still⟩ | ⟨-, was⟩
      · refine .inl ?_
        rw [Proxy.isClosed, Option.bind_some, cell]
        cases end_ <;> exact still
      · exact .inl was
  | @free q released pairs =>
      rw [Proxy.isClosed, Option.bind_some, pairs] at closed
      by_cases same : p = q
      · subst same
        rw [s.pairs.cell_free_self] at closed
        cases closed
      · rw [s.pairs.cell_free_of_ne same] at closed
        exact .inl closed

/-! What is released. -/

/-- A pair that was released is in use no more. -/
theorem released_of_repairs (repairs : Repairs h s l s')
    (before : ∀ p, Released h p → p < s.pairs.next ∧
      ∀ pair, s.pairs.cell p = some pair → pair.context = none) :
    ∀ p, Released (h ++ l) p → p < s'.pairs.next ∧
      ∀ pair, s'.pairs.cell p = some pair → pair.context = none := by
  -- the pair that is overwritten, if it was released, is in use no more
  have stored {q : PairId} {old new : FwPair} (was : s.pairs.cell q = some old)
      (pairs : s'.pairs = s.pairs.store q new)
      (context : old.context = none → new.context = none) (p : PairId) (gone : Released h p) :
      p < s'.pairs.next ∧ ∀ pair, s'.pairs.cell p = some pair → pair.context = none := by
    obtain ⟨below, unused⟩ := before p gone
    rw [pairs]
    refine ⟨below, fun pair cell => ?_⟩
    by_cases same : p = q
    · subst same
      cases (s.pairs.cell_store_self was).symm.trans cell
      exact context (unused old was)
    · exact unused pair ((s.pairs.cell_store_of_ne same).symm.trans cell)
  intro p gone
  cases repairs with
  | same pairs freed =>
      rw [pairs]
      refine before p ((released_of_append gone).resolve_right ?_)
      rintro ⟨e, mem, action, there⟩
      obtain ⟨nothing, at_, -⟩ := freed e mem p action
      exact there (at_ ▸ nothing)
  | new pair pairs isOpen quiet =>
      obtain ⟨below, unused⟩ := before p ((released_of_append gone).resolve_right (by
        rintro ⟨e, mem, action, -⟩
        exact quiet e mem p action))
      rw [pairs]
      refine ⟨Nat.lt_succ_of_lt below, fun pair' cell => ?_⟩
      exact unused pair' ((s.pairs.cell_alloc_of_ne below.ne).symm.trans cell)
  | mark cell why pairs quiet =>
      rw [quiet, List.append_nil] at gone
      exact stored cell pairs (fun unused => unused) p gone
  | release cell why pairs same stage logged =>
      rcases released_of_append gone with gone | ⟨e, mem, action, -⟩
      · exact stored cell pairs (fun _ => rfl) p gone
      · rw [logged, List.mem_singleton] at mem
        subst mem
        cases action
        rw [pairs]
        refine ⟨s.pairs.lt_next_of_cell cell, fun pair' cell' => ?_⟩
        cases (s.pairs.cell_store_self cell).symm.trans cell'
        rfl
  | endpoint released end_ endpoint cell pairs quiet =>
      rw [quiet, List.append_nil] at gone
      exact stored cell pairs (by cases end_ <;> exact fun unused => unused) p gone
  | @free q released pairs quiet =>
      rw [quiet, List.append_nil] at gone
      obtain ⟨below, unused⟩ := before p gone
      rw [pairs]
      refine ⟨below, fun pair cell => ?_⟩
      by_cases same : p = q
      · subst same
        cases (s.pairs.cell_free_self).symm.trans cell
      · exact unused pair ((s.pairs.cell_free_of_ne same).symm.trans cell)

/-! Who is connected. -/

/-- Where the pair is as it was but for the mark, its channels are connected as before. -/
theorem connected_of_cell (connected : s.Connected ch p)
    (keeps : ∀ pair, s.pairs.cell p = some pair → ∃ pair', s'.pairs.cell p = some pair' ∧
      pair'.context = pair.context ∧ ∀ near, pair'.endpoint near = pair.endpoint near) :
    s'.Connected ch p := by
  obtain ⟨pair, near, out, cell, used, here, there⟩ := connected
  obtain ⟨pair', cell', context, ends⟩ := keeps pair cell
  refine ⟨pair', near, out, cell', context ▸ used, ?_, ?_⟩
  · rw [ends near]
    exact here
  · rw [ends near.other]
    exact there

/-- **A channel that is connected** stays so until the pair is over or taken apart. -/
theorem connected_of_repairs (attended : Attended h s) (repairs : Repairs h s l s')
    (connected : s.Connected ch p) :
    s'.Connected ch p ∨ Ended h p ∨ TornApart (h ++ l) p := by
  obtain ⟨pair, near, out, cell, used, -⟩ := id connected
  -- what is done to another pair
  have elsewhere (same : s'.pairs.cell p = s.pairs.cell p) : s'.Connected ch p :=
    connected_of_cell connected fun pair cell => ⟨pair, same.trans cell, rfl, fun _ => rfl⟩
  cases repairs with
  | same pairs => exact .inl (elsewhere (by rw [pairs]))
  | new new pairs =>
      refine .inl (elsewhere ?_)
      rw [pairs, s.pairs.cell_alloc_of_ne (s.pairs.lt_next_of_cell cell).ne]
  | @mark q old was why pairs =>
      by_cases same : p = q
      · subst same
        refine .inl (connected_of_cell connected fun pair cell => ?_)
        cases was.symm.trans cell
        refine ⟨{ old with closed := true }, ?_, rfl, ?_⟩
        · rw [pairs, s.pairs.cell_store_self was]
        · rintro (_ | _) <;> rfl
      · exact .inl (elsewhere (by rw [pairs, s.pairs.cell_store_of_ne same]))
  | @release q old t was why pairs same stage logged =>
      by_cases here : p = q
      · subst here
        cases was.symm.trans cell
        -- a pair is released blank, in the teardown, or when it is closed
        rcases why with blank | torn | closed
        · rw [blank] at used
          exact absurd rfl used
        · refine .inr (.inr ⟨⟨t, .release p, 0⟩, List.mem_append_right h ?_, rfl, ?_⟩)
          · exact logged ▸ List.mem_singleton_self _
          · exact stage.trans torn
        · refine .inr (.inl (attended.closed p ?_))
          rw [Proxy.isClosed, Option.bind_some, cell]
          exact closed
      · exact .inl (elsewhere (by rw [pairs, s.pairs.cell_store_of_ne here]))
  | @endpoint q old released end_ endpoint was pairs =>
      by_cases same : p = q
      · subst same
        exact absurd ((attended.released p released).2 pair cell) used
      · exact .inl (elsewhere (by rw [pairs, s.pairs.cell_store_of_ne same]))
  | @free q released pairs =>
      by_cases same : p = q
      · subst same
        exact absurd ((attended.released p released).2 pair cell) used
      · exact .inl (elsewhere (by rw [pairs, s.pairs.cell_free_of_ne same]))

/-- The end of a stream that was received in the step came before anything else of it. -/
private theorem gotEof_of_append (advance : Advance w serial h s l s') (got : GotEof (h ++ l) p) :
    GotEof h p ∨ (∃ ch, s.CallsBack ch p) ∧ ∃ e, l = [e] := by
  obtain ⟨e, mem, delivered⟩ := got
  rcases List.mem_append.mp mem with mem | mem
  · exact .inl ⟨e, mem, delivered⟩
  · obtain ⟨ch, enter, calls⟩ := delivered_eq delivered
    obtain ⟨l₁, l₂, split⟩ := List.append_of_mem mem
    obtain ⟨rfl, rfl, alone⟩ := enters_first advance split enter
    exact .inr ⟨⟨ch, calls⟩, e, by rw [split, alone ch rfl, List.nil_append]⟩

/-! The invariant. -/

/-- A pair that is put into the pool has two channels that call back into it. -/
theorem connected_of_registers (allow : w.config.forwardMode = some .allow) {src : ChannelId}
    {dst : Option ChannelId} (registers : Registers w serial h s s' src dst)
    (end_ : ch = src ∨ dst = some ch) : s'.Connected ch s.pairs.next := by
  obtain ⟨h₀, e, -, -, -, -, ⟨-, e', -, session, -, -, -, rfl, -⟩ | ⟨other, -⟩⟩ :=
    registers.offered
  · obtain ⟨pair, cell, used, source, destiny⟩ := registers.pair
    rcases end_ with rfl | end_
    · exact ⟨pair, .source, _, cell, used, source, destiny⟩
    · cases end_
      exact ⟨pair, .destiny, src, cell, used, destiny, source⟩
  · exact absurd allow other

private theorem items_of_registers {src : ChannelId} {dst : Option ChannelId} (pooled : Pooled h s)
    (registers : Registers w serial h s s' src dst) : s.pairs.next ∈ s'.items := by
  obtain ⟨id, pool, pool', granted, index, pointer, cell, pointer', cell', added⟩ :=
    registers.item
  obtain ⟨xs, holds⟩ := pooled.holds id pool pointer cell
  rw [items_eq pointer' cell' (holds_of_add holds added).1, List.reduceOption_append]
  exact List.mem_append_right _ (List.mem_singleton_self _)

/-- **The step.** Polls come too late by assumption, and the only other steps that mark
a pair as closed or take it out of the pool are those that end the forward anyway. -/
theorem attended_advance (allow : w.config.forwardMode = some .allow) (attended : Attended h s)
    (advance : Advance w serial h s l s') (late : Throughout PollsLate h) :
    Attended (h ++ l) s' := by
  have repairs := repairs_of_advance advance
  have calls := callsBack_of_advance advance
  refine ⟨?_, released_of_repairs repairs attended.released, ?_, ?_, ?_⟩
  · intro p closed
    rcases isClosed_of_repairs repairs closed with was | ⟨marked, below⟩
    · exact ended_append (attended.closed p was)
    · exact ended_append (ended_of_marked marked late below)
  · intro ch p back
    -- for who called back into the pair before, what was known is carried over
    have old (back : s.CallsBack ch p) :
        Ended (h ++ l) p ∨ TornApart (h ++ l) p ∨ s'.Connected ch p := by
      rcases attended.calls ch p back with ended | torn | connected
      · exact .inl (ended_append ended)
      · exact .inr (.inl (tornApart_append torn))
      · rcases connected_of_repairs attended repairs connected with still | ended | torn
        · exact .inr (.inr still)
        · exact .inl (ended_append ended)
        · exact .inr (.inl torn)
    rcases calls with forgets | ⟨src, dst, registers, each⟩
    · exact old (forgets ch p back)
    · rcases each ch p back with was | ⟨rfl, end_⟩
      · exact old was
      · exact .inr (.inr (connected_of_registers allow registers end_))
  · intro serving
    have pooled := attended.pooled (serving_of_advance advance serving)
    exact (pooled_advance pooled advance serving).pooled
  · intro serving p about
    have before := serving_of_advance advance serving
    have pooled := attended.pooled before
    -- a pair leaves the pool only if it is closed, and then it is over
    have old (about : (∃ ch, s.CallsBack ch p) ∨ GotEof h p) :
        Ended (h ++ l) p ∨ p ∈ s'.items := by
      rcases attended.items before p about with ended | mem
      · exact .inl (ended_append ended)
      · rcases (pooled_advance pooled advance serving).kept p mem with still | closed
        · exact .inr still
        · exact .inl (ended_append (attended.closed p closed))
    rcases about with ⟨ch, back⟩ | got
    · rcases calls with forgets | ⟨src, dst, registers, each⟩
      · exact old (.inl ⟨ch, forgets ch p back⟩)
      · rcases each ch p back with was | ⟨rfl, -⟩
        · exact old (.inl ⟨ch, was⟩)
        · exact .inr (items_of_registers pooled registers)
    · rcases gotEof_of_append advance got with got | ⟨back, -⟩
      · exact old (.inr got)
      · exact old (.inl back)

/-- At first no channel calls back and no pair was released. -/
theorem attended_initial : Attended [] Proxy.initial where
  closed _ closed := by cases closed
  released _ released := by
    obtain ⟨e, mem, -⟩ := released
    cases mem
  calls _ _ calls := by cases calls
  pooled serving := (tended_initial serving).1
  items _ p about := by
    obtain ⟨ch, calls⟩ | ⟨e, mem, -⟩ := about
    · cases calls
    · cases mem

/-! The entries of a step. -/

/-- What is in the pool before a step is there until it is taken out. -/
theorem items_of_entry (pooled : Pooled h s) (advance : Advance w serial h s l s') (mem : e ∈ l)
    (inPool : p ∈ s.items) : p ∈ e.before.items ∨ s.isClosed (some p) = true := by
  have same (pools : e.before.pools = s.pools) :
      p ∈ e.before.items ∨ s.isClosed (some p) = true := by
    obtain ⟨timer, context⟩ := (within_of_advance advance e mem).context
    exact .inl ((items_of_same pools (by rw [context])).symm ▸ inPool)
  have every (pools : ∀ a ∈ l, a.before.pools = s.pools) :
      p ∈ e.before.items ∨ s.isClosed (some p) = true := same (pools e mem)
  cases advance with
  | change change =>
      cases change with
      | @register _ _ src dst offered id pool pool' granted index pointer cell added stored pair
          filled _ mid =>
          obtain ⟨registering, -⟩ := mid e mem
          rcases registering.filled with pools | pools
          · exact same pools
          · obtain ⟨xs, holds⟩ := pooled.holds id pool pointer cell
            have cell' : e.before.pools.cell id = some pool' := by
              rw [pools, s.pools.cell_store_self cell]
            refine .inl ?_
            rw [items_eq (registering.context ▸ pointer) cell' (holds_of_add holds added).1,
              List.reduceOption_append, ← items_eq pointer cell holds]
            exact List.mem_append_left _ inPool
      | @reap _ _ id pool pool' index removed q pair _ pointer cell item eq loaded closed out =>
          obtain ⟨xs, holds⟩ := pooled.holds id pool pointer cell
          obtain ⟨ys, holds', perm⟩ := items_of_remove pointer cell holds item eq
          obtain rfl := List.mem_singleton.mp mem
          rcases List.mem_cons.mp (perm.mem_iff.mp inPool) with rfl | left
          · refine .inr ?_
            rw [Proxy.isClosed, Option.bind_some, loaded]
            exact closed
          · refine .inl ?_
            rw [out, items_eq (by exact pointer) (s.pools.cell_store_self cell) holds']
            exact left
      | adopt _ _ trapChannel haasChannel i j obtained first second =>
          exact every (by simp [first, Proxy.tock])
      | discard _ _ isStderr bytes cell callbacks outlet answer waited =>
          refine every ?_
          rcases waited with rfl | ⟨b, rfl⟩ <;> simp [Proxy.idled, Proxy.tock]
      | _ => exact every (by simp [relayLog, byeLog, Proxy.idled, Proxy.tock])
  | _ => exact every (by simp [byeLog, Proxy.tock])

/-- What is in the pool and is not closed is not released. -/
theorem unreleased_of_repairs (pooled : Pooled h s) (repairs : Repairs h s l s')
    (serving : s.stage ≠ .teardown) (inPool : p ∈ s.items) (mem : e ∈ l)
    (release : e.action = .release p) : s.isClosed (some p) = true := by
  obtain ⟨pair, cell, source⟩ := pooled.filled p inPool
  cases repairs with
  | same pairs freed =>
      obtain ⟨nothing, -⟩ := freed e mem p release
      cases nothing.symm.trans cell
  | new pair pairs isOpen quiet => exact absurd release (quiet e mem p)
  | @release q old t was why pairs same stage logged =>
      rw [logged, List.mem_singleton] at mem
      subst mem
      cases release
      cases was.symm.trans cell
      rcases why with blank | torn | closed
      · rw [blank] at source
        exact absurd rfl source
      · exact absurd torn serving
      · rw [Proxy.isClosed, Option.bind_some, cell]
        exact closed
  | mark _ _ _ quiet | endpoint _ _ _ _ _ quiet | free _ _ quiet =>
      rw [quiet] at mem
      cases mem

/-- **A pair that is half-closed** is left alone by a step. -/
theorem leftAlone_of_advance (attended : Attended h s) (advance : Advance w serial h s l s')
    (split : l = l₁ ++ e :: l₂) : LeftAlone p (h ++ l₁) e := by
  intro got more serving
  have mem : e ∈ l := split ▸ List.mem_append_right l₁ (.head l₂)
  have open_ : ¬ Ended h p := fun ended => more (ended_append ended)
  have notClosed : s.isClosed (some p) ≠ true := fun closed => open_ (attended.closed p closed)
  rw [(within_of_advance advance e mem).stage] at serving
  have earlier : GotEof h p := by
    obtain ⟨a, memA, delivered⟩ := got
    rcases List.mem_append.mp memA with memA | memA
    · exact ⟨a, memA, delivered⟩
    · -- the end of a stream is the only entry of its step
      obtain ⟨ch, enter, -⟩ := delivered_eq delivered
      obtain ⟨m, m', eq⟩ := List.append_of_mem memA
      rw [eq, List.append_assoc, List.cons_append] at split
      have alone := (enters_first advance split enter).2.2 ch rfl
      cases (List.append_eq_nil_iff.mp alone).2
  have inPool : p ∈ s.items := (attended.items serving p (.inr earlier)).resolve_left open_
  refine ⟨(items_of_entry (attended.pooled serving) advance mem inPool).resolve_right notClosed,
    ?_, ?_⟩
  · by_contra closed
    exact notClosed (isClosed_of_entry advance mem (eq_true_of_ne_false closed))
  · intro release
    exact notClosed (unreleased_of_repairs (attended.pooled serving) (repairs_of_advance advance)
      serving inPool mem release)

/-- Data that arrives at a pair that is not over has come to a channel that is connected. -/
theorem connected_of_advance (attended : Attended h s) (advance : Advance w serial h s l s')
    (split : l = l₁ ++ e :: l₂) {isStderr : Bool} {bytes : List UInt8}
    (enter : e.action = .enter (.channel ch (.data isStderr bytes)))
    (calls : e.before.CallsBack ch p) :
    Ended (h ++ l₁) p ∨ TornApart (h ++ l₁) p ∨ e.before.Connected ch p := by
  obtain ⟨rfl, rfl, -⟩ := enters_first advance split enter
  rw [List.append_nil]
  exact attended.calls ch p calls

end Steps

/-- A channel that is connected has an outlet, the other end. -/
theorem outlet_of_connected {w : World} (allow : w.config.forwardMode = some .allow) {s : Proxy}
    {ch : ChannelId} {p : PairId} (connected : s.Connected ch p) :
    ∃ pair near out, s.pairs.cell p = some pair ∧ (pair.endpoint near).channel = some ch ∧
      (pair.endpoint near.other).channel = some out ∧
      s.outlet w ch (.forwardChannelCB p) = some out := by
  obtain ⟨pair, near, out, cell, used, here, there⟩ := connected
  have goes (out : ChannelId) (there : (pair.otherEnd ch s.context).1 = some out) :
      s.outlet w ch (.forwardChannelCB p) = some out := by
    simp only [Proxy.outlet, cell, Option.bind_some, if_neg used, allow]
    exact there
  by_cases source : pair.source.channel = some ch
  · have destiny : ∃ out, pair.destiny.channel = some out := by
      cases near with
      | source => exact ⟨out, there⟩
      | destiny => exact ⟨ch, here⟩
    obtain ⟨out, destiny⟩ := destiny
    refine ⟨pair, .source, out, cell, source, destiny, goes out ?_⟩
    rw [FwPair.otherEnd, if_pos source.symm]
    exact destiny
  · cases near with
    | source => exact absurd here source
    | destiny =>
        refine ⟨pair, .destiny, out, cell, here, there, goes out ?_⟩
        rw [FwPair.otherEnd, if_neg (Ne.symm source)]
        exact there

/-- **Half-closed forwards are left alone** in runs in which a poll finds the end of a
stream only when the pair is over. `HandleForwards` takes `SSH_EOF` from any of its
polls as the end of the pair, although the other direction may still be in use; so it is
the polls that the condition is about. What is said of the pairs is that none is marked
before it is over, and that data goes on being relayed until then. -/
theorem halfClosed_of_timely (w : World) (fuel depth : Nat)
    (allow : w.config.forwardMode = some .allow)
    (late : Throughout PollsLate (proxyRun w fuel depth).log) :
    HalfClosed (proxyRun w fuel depth).log := by
  have path := (path_proxyRun w fuel depth).restrict_history (A := Throughout PollsLate)
    (fun h l => throughout_of_append) (by simpa using late)
  have before {h l : List Entry} (all : Throughout PollsLate (h ++ l)) : Throughout PollsLate h :=
    throughout_of_append all
  refine ⟨?_, ?_⟩
  · intro p
    have kept := (path.inv_entries (I := Attended) (P := LeftAlone p)
      (fun h s l s' attended first => ⟨attended_advance allow attended first.1 (before first.2),
        fun l₁ e l₂ split => leftAlone_of_advance attended first.1 split⟩) attended_initial).2
    simpa using kept
  · have connected := (path.inv_entries (I := Attended) (P := fun h e => ∀ ch isStderr bytes p,
        e.action = .enter (.channel ch (.data isStderr bytes)) → e.before.CallsBack ch p →
        Ended h p ∨ TornApart h p ∨ e.before.Connected ch p)
      (fun h s l s' attended first => ⟨attended_advance allow attended first.1 (before first.2),
        fun l₁ e l₂ split ch isStderr bytes p enter calls =>
          connected_of_advance attended first.1 split enter calls⟩) attended_initial).2
    intro h e l split ch isStderr bytes p enter calls more whole
    have here := ((connected h e l split ch isStderr bytes p enter calls).resolve_left
      more).resolve_left whole
    obtain ⟨pair, near, out, cell, near_, far, outlet⟩ := outlet_of_connected allow here
    obtain ⟨c, there, callbacks⟩ := Option.bind_eq_some_iff.mp calls
    have relayed := relayed_proxyRun w fuel depth h e l split ch isStderr bytes p c out enter there
      callbacks outlet
    exact ⟨pair, near, out, c, cell, near_, far, there, relayed⟩

/-- The client opens a forward and ends its stream.  The destination still answers, ends its
stream too, and then both ends are found at `SSH_EOF`. -/
def answeredForward : World :=
  .scripted .allow [(13, 2), (51, sshEof), (52, sshEof)]
    [(6, loginAndChannel), (31, [requestForward, .channel 3 .eof,
      .channel 2 (.data false [72, 105]), .channel 2 .eof])]

/-- The condition is met by a client that has sent all it had and gets an answer. -/
theorem halfClosed_answeredForward :
    HalfClosed (proxyRun answeredForward 3 2).log ∧
    (∃ e ∈ (proxyRun answeredForward 3 2).log, e.action = .call (.write 3 false [72, 105])) ∧
    ∃ e ∈ (proxyRun answeredForward 3 2).log, e.action = .release 0 :=
  ⟨halfClosed_of_timely answeredForward 3 2 rfl (by decide +kernel), by decide +kernel⟩

/-- The client opens a forward and ends its stream, which is found before the destination has
answered. -/
def polledForward : World :=
  .scripted .allow [(13, 2), (47, sshEof)]
    [(6, loginAndChannel), (31, [requestForward, .channel 3 .eof])]

/-- The pair is marked and released although only one stream has ended. -/
theorem polledForward_notHalfClosed : ¬ HalfClosed (proxyRun polledForward 3 2).log := by
  intro halfClosed
  refine absurd (halfClosed.kept 0) ?_
  decide +kernel

end HaasProxy
