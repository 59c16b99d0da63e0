import HaasProxy.Transitions.Steps

/-!
# Calls as steps

What the functions make that callbacks are made of: calls of libssh, timers, and
the pairs of the forwards.  The proofs follow the code: where a function only
makes single updates and ordinary calls it `Walks`, and where what it does depends
on what it knows there is a lemma `follows_` with that knowledge.

## Main results

* `follows_callWith`, `walks_callWith` — any call, with the callbacks it delivers;
* `follows_quietCall` — a call that handles no packets.

## Design notes

Everything here is stated for a dispatcher of which only one thing is known, that it makes
changes as well.  The dispatcher that delivers callbacks nested to a depth is built from
these functions, and the induction on the depth is in `walks_dispatchWithin`.

A call that handles no packets changes the history by one entry, which the caller can
name.  What it knew before is still known behind it: this is why `HaasConnect`, which
makes only such calls, is one step.
-/

namespace HaasProxy

open Traced

section Calls

variable {w : World} {serial : Prop} {dispatch : Nat → ProxyM Unit} {h : List Entry} {s : Proxy}
  {α β : Type} {k : α → ProxyM β} {Q : β → List Entry → Proxy → Prop}

private theorem ok_of_mapError {α : Type} {x : Except Fault α} {a : α}
    (ok : x.mapError Stop.fault = .ok a) : x = .ok a := by
  cases x with
  | error _ => cases ok
  | ok b =>
      cases ok
      rfl

/-- A fault stops the program where it is, so only values have to be followed. -/
theorem follows_orFault {x : Except Fault α} {P : α → List Entry → Proxy → Prop}
    (post : ∀ a, x = .ok a → P a h s) : Follows (Change w serial) (orFault x) h s P :=
  follows_ofExcept fun a ok => post a (ok_of_mapError ok)

theorem follows_orFault_bind {x : Except Fault α}
    (next : ∀ a, x = .ok a → Follows (Change w serial) (k a) h s Q) :
    Follows (Change w serial) (orFault x >>= k) h s Q := by
  refine follows_bind (P := fun a h' s' => h' = h ∧ s' = s ∧ x = .ok a)
    (follows_orFault fun a ok => ⟨rfl, rfl, ok⟩) ?_
  rintro a _ _ ⟨rfl, rfl, ok⟩
  exact next a ok

theorem walks_orFault {x : Except Fault α} : Walks (Change w serial) (orFault x) :=
  walks_ofExcept

theorem follows_nextTick :
    Follows (Change w serial) nextTick h s fun t h' s' => t = s.tick ∧ h' = h ∧ s' = s.tock :=
  follows_run rfl (.tick h s) ⟨rfl, List.append_nil h, rfl⟩

theorem run_allocate {allocation : Allocation} :
    allocate w allocation s =
      ⟨[⟨s.tock, .alloc allocation, if w.granted s.tick then 1 else 0⟩], s.tock,
        .ok (w.granted s.tick)⟩ := rfl

/-- Setting the idle timer is a single change, with the clock read in it. -/
theorem follows_idleTimerReset :
    Follows (Change w serial) (idleTimerReset w) h s fun _ h' s' => h' = h ∧ s' = s.idled w :=
  follows_run rfl (.idle h s) ⟨List.append_nil h, rfl⟩

theorem walks_idleTimerReset : Walks (Change w serial) (idleTimerReset w) :=
  walks_of_follows fun _ _ => follows_idleTimerReset

theorem walks_sshIsBlocking {session : Option SessionId} :
    Walks (Change w serial) (sshIsBlocking session) := walks_gets

/-- `ssh_set_blocking` changes nothing else. -/
theorem run_sshSetBlocking (session : Option SessionId) (blocking : Bool) (s : Proxy) :
    ∃ b, sshSetBlocking session blocking s = ⟨[], { s with blocking := b }, .ok ()⟩ := by
  cases session with
  | none => exact ⟨s.blocking, rfl⟩
  | some id => exact ⟨_, rfl⟩

/-- The mode of a session is set, which is a change. -/
theorem walks_sshSetBlocking {session : Option SessionId} {blocking : Bool} :
    Walks (Change w serial) (sshSetBlocking session blocking) := by
  intro h s
  obtain ⟨b, run⟩ := run_sshSetBlocking session blocking s
  exact follows_run run (.blocking h s b) trivial

/-- A call that handles no packets. -/
theorem run_callWith {c : Call} {effect : Int → Proxy → Proxy} (quiet : ¬ c.Dispatches) :
    callWith w dispatch c effect s =
      ⟨[⟨s.tock, .call c, w.answer s.tick⟩], effect (w.answer s.tick) s.tock,
        .ok (w.answer s.tick)⟩ := by
  simp only [callWith, when, if_neg quiet]
  rfl

/-- A call that delivers callbacks, by what these do. -/
theorem run_callWith_of_dispatch {c : Call} {effect : Int → Proxy → Proxy} {l : List Entry}
    {s' : Proxy}
    (dispatches : c.Dispatches)
    (run : dispatch s.tick (effect (w.answer s.tick) s.tock) = ⟨l, s', .ok ()⟩) :
    callWith w dispatch c effect s = ⟨⟨s.tock, .call c, w.answer s.tick⟩ ::
      (l ++ [⟨s', .returned c, w.answer s.tick⟩]), s', .ok (w.answer s.tick)⟩ := by
  have nested : (dispatch s.tick >>= fun _ => tell fun s' : Proxy =>
      (⟨s', .returned c, w.answer s.tick⟩ : Entry)) (effect (w.answer s.tick) s.tock) =
      ⟨l ++ [⟨s', .returned c, w.answer s.tick⟩], s', .ok ()⟩ := bind_of_ok run
  simp only [callWith, when, if_pos dispatches]
  rw [bind_of_ok (show nextTick s = ⟨[], s.tock, .ok s.tick⟩ from rfl),
    bind_of_ok (show tell (fun t : Proxy => (⟨t, .call c, w.answer s.tick⟩ : Entry)) s.tock =
      ⟨[⟨s.tock, .call c, w.answer s.tick⟩], s.tock, .ok ()⟩ from rfl),
    bind_of_ok (show modify (effect (w.answer s.tick)) s.tock = ⟨[], _, .ok ()⟩ from rfl),
    bind_of_ok nested]
  simp [pure]

/-- A call whose callbacks stop. -/
theorem run_callWith_of_error {c : Call} {effect : Int → Proxy → Proxy} {l : List Entry}
    {s' : Proxy}
    {e : Stop} (dispatches : c.Dispatches)
    (run : dispatch s.tick (effect (w.answer s.tick) s.tock) = ⟨l, s', .error e⟩) :
    callWith w dispatch c effect s = ⟨⟨s.tock, .call c, w.answer s.tick⟩ :: l, s', .error e⟩ := by
  simp only [callWith, when, if_pos dispatches]
  rw [bind_of_ok (show nextTick s = ⟨[], s.tock, .ok s.tick⟩ from rfl),
    bind_of_ok (show tell (fun t : Proxy => (⟨t, .call c, w.answer s.tick⟩ : Entry)) s.tock =
      ⟨[⟨s.tock, .call c, w.answer s.tick⟩], s.tock, .ok ()⟩ from rfl),
    bind_of_ok (show modify (effect (w.answer s.tick)) s.tock = ⟨[], _, .ok ()⟩ from rfl),
    bind_of_error (bind_of_error run)]
  rfl

/-- A call while which nothing is called back. -/
theorem run_callWith_still {c : Call} {effect : Int → Proxy → Proxy} (dispatches : c.Dispatches)
    (still : ∀ t, dispatch t = pure ()) :
    callWith w dispatch c effect s =
      ⟨[⟨s.tock, .call c, w.answer s.tick⟩,
        ⟨effect (w.answer s.tick) s.tock, .returned c, w.answer s.tick⟩],
        effect (w.answer s.tick) s.tock, .ok (w.answer s.tick)⟩ := by
  simp only [callWith, when, if_pos dispatches, still]
  rfl

/-- **A call that handles no packets** is its entry and its effect, and nothing happens
in between. -/
theorem follows_quietCall {c : Call} {effect : Int → Proxy → Proxy} (quiet : ¬ c.Dispatches)
    (licensed : Licensed w serial h s c) (eff : ∀ i, effect i s.tock = c.effect i s.tock) :
    Follows (Change w serial) (callWith w dispatch c effect) h s fun i h' s' =>
      h' = h ++ [⟨s.tock, .call c, i⟩] ∧ s' = c.effect i s.tock := by
  refine follows_run (run_callWith quiet) ?_ ⟨rfl, eff _⟩
  rw [eff]
  exact .call h s c _ licensed

/-- Disconnecting and freeing a session are two entries. -/
theorem run_sshDisconnectFree {session : SessionId} :
    sshDisconnectFree w dispatch session s =
      ⟨byeLog s session (w.answer s.tick) (w.answer s.tock.tick), s.tock.tock, .ok ()⟩ := rfl

variable (hd : ∀ t, Walks (Change w serial) (dispatch t))

include hd

/-- **A call**, with what is logged when it is made and when it returns. -/
theorem follows_callWith {c : Call} {effect : Int → Proxy → Proxy} (dispatches : c.Dispatches)
    (licensed : Licensed w serial h s c) (eff : ∀ i, effect i s.tock = c.effect i s.tock) :
    Follows (Change w serial) (callWith w dispatch c effect) h s fun i h' s' =>
      ∃ l, h' = h ++ (⟨s.tock, .call c, i⟩ :: (l ++ [⟨s', .returned c, i⟩])) ∧
        Path (Change w serial) (h ++ [⟨s.tock, .call c, i⟩]) (c.effect i s.tock) l s' := by
  have noWait (timeout : Int) : c ≠ .eventDopoll timeout := by
    rintro rfl
    exact licensed
  have ticked : nextTick s = ⟨[], s.tock, .ok s.tick⟩ := rfl
  have took : (modify (effect (w.answer s.tick)) : ProxyM Unit) s.tock =
      ⟨[], c.effect (w.answer s.tick) s.tock, .ok ()⟩ := by
    rw [← eff]
    rfl
  have told : (tell fun s' => ⟨s', .call c, w.answer s.tick⟩ : ProxyM Unit) s.tock =
      ⟨[⟨s.tock, .call c, w.answer s.tick⟩], s.tock, .ok ()⟩ := rfl
  refine follows_of_amid (amid_bind ticked (amid_bind told (amid_bind took
    (amid_step (.call h s c (w.answer s.tick) licensed) ?_))))
  refine follows_bind (P := fun _ h' s' => ∃ l,
    h' = h ++ (⟨s.tock, .call c, w.answer s.tick⟩ ::
      (l ++ [⟨s', .returned c, w.answer s.tick⟩])) ∧
    Path (Change w serial) (h ++ [⟨s.tock, .call c, w.answer s.tick⟩])
      (c.effect (w.answer s.tick) s.tock) l s')
    (follows_when (fun _ => ?_) fun no => absurd dispatches no)
    fun _ _ _ post => follows_pure post
  refine follows_walks_bind (hd _) fun _ l s' path => ?_
  refine follows_tell (.returned _ _ c _ noWait) ⟨l, ?_, path⟩
  simp

/-- A call of a callback: while callbacks do not nest nothing happens before it
returns. -/
theorem follows_nestedCall (still : serial → ∀ t, dispatch t = pure ()) {c : Call}
    {effect : Int → Proxy → Proxy} (dispatches : c.Dispatches)
    (licensed : Licensed w serial h s c) (eff : ∀ i, effect i s.tock = c.effect i s.tock) :
    Follows (Change w serial) (callWith w dispatch c effect) h s fun i h' s' =>
      ∃ l, h' = h ++ (⟨s.tock, .call c, i⟩ :: (l ++ [⟨s', .returned c, i⟩])) ∧
        (serial → s' = c.effect i s.tock) := by
  by_cases alone : serial
  · have noWait (timeout : Int) : c ≠ .eventDopoll timeout := by
      rintro rfl
      exact licensed
    have path : Path (Change w serial) h s
        ([⟨s.tock, .call c, w.answer s.tick⟩] ++
          [⟨c.effect (w.answer s.tick) s.tock, .returned c, w.answer s.tick⟩])
        (c.effect (w.answer s.tick) s.tock) :=
      .step (.call h s c _ licensed) (.of_step (.returned _ _ c _ noWait))
    refine follows_of_path (run_callWith_still dispatches (still alone)) ?_ ⟨[], ?_, fun _ => ?_⟩
    · rw [eff]
      exact path
    · rfl
    · exact eff _
  · refine follows_mono (follows_callWith hd dispatches licensed eff) ?_
    rintro i h' s' ⟨l, eq, -⟩
    exact ⟨l, eq, fun serial => absurd serial alone⟩

/-- **Any call**: its entry and its effect are one change, and what libssh calls back
meanwhile are changes of their own behind it. -/
theorem walks_callWith {c : Call} {effect : Int → Proxy → Proxy}
    (licensed : ∀ h s, Licensed w serial h s c)
    (eff : ∀ i (s : Proxy), effect i s.tock = c.effect i s.tock) :
    Walks (Change w serial) (callWith w dispatch c effect) := by
  intro h s
  by_cases dispatches : c.Dispatches
  · exact follows_mono (follows_callWith hd dispatches (licensed h s) fun i => eff i s)
      fun _ _ _ _ => trivial
  · exact follows_mono (follows_quietCall dispatches (licensed h s) fun i => eff i s)
      fun _ _ _ _ => trivial

/-- An ordinary call has no effect and needs no licence. -/
theorem walks_call {c : Call} (ordinary : c.Ordinary) :
    Walks (Change w serial) (call w dispatch c) :=
  walks_callWith hd (fun _ _ => licensed_of_ordinary ordinary) fun i s =>
    (effect_of_ordinary ordinary i s.tock).symm

theorem walks_onChannel {ch : Option ChannelId} {c : ChannelId → Call}
    (ordinary : ∀ ch, (c ch).Ordinary) : Walks (Change w serial) (onChannel w dispatch ch c) := by
  cases ch with
  | none => exact walks_pure
  | some ch => exact walks_call hd (ordinary ch)

omit hd in
/-- A call that returns a new channel when it succeeds. -/
theorem follows_obtainBy {c : Call} {session : SessionId} (quiet : ¬ c.Dispatches)
    (licensed : Licensed w serial h s c)
    (eff : ∀ i, (if i = sshOk then s.tock.obtain session else s.tock) = c.effect i s.tock) :
    Follows (Change w serial) (obtainBy w dispatch c session) h s fun ch h' s' =>
      ch = none ∨ ch = some s.channels.next ∧ h' = h ++ [⟨s.tock, .call c, sshOk⟩] ∧
        s' = s.tock.obtain session := by
  refine follows_bind (follows_gets (P := fun ch h' s' =>
    ch = s.channels.next ∧ h' = h ∧ s' = s) ⟨rfl, rfl, rfl⟩) ?_
  rintro _ _ _ ⟨rfl, rfl, rfl⟩
  refine follows_bind (follows_quietCall quiet licensed eff) ?_
  rintro i _ _ ⟨rfl, rfl⟩
  refine follows_pure ?_
  by_cases ok : i = sshOk
  · rw [if_pos ok, ← eff, if_pos ok, ok]
    exact .inr ⟨rfl, rfl, rfl⟩
  · exact .inl (if_neg ok)

omit hd in
/-- `ssh_channel_new`, for a session it may be called with. -/
theorem follows_sshChannelNew {session : Option SessionId}
    (licensed : ∀ owner, session = some owner → Licensed w serial h s (.channelNew owner)) :
    Follows (Change w serial) (sshChannelNew w dispatch session) h s fun ch h' s' =>
      ch = none ∨ ∃ owner, session = some owner ∧ ch = some s.channels.next ∧
        h' = h ++ [⟨s.tock, .call (.channelNew owner), sshOk⟩] ∧ s' = s.tock.obtain owner := by
  cases session with
  | none => exact follows_pure (.inl rfl)
  | some owner =>
      have quiet : ¬ (Call.channelNew owner).Dispatches := fun no => no
      refine follows_mono (follows_obtainBy quiet (licensed owner rfl) fun _ => rfl) ?_
      intro ch h' s' post
      exact post.imp_right fun obtained => ⟨owner, rfl, obtained⟩

omit hd in
/-- The client's request is accepted, which yields a channel or fails. -/
theorem follows_openReplyAccept (acceptable : Acceptable w h s.context) :
    Follows (Change w serial) (sshMessageChannelRequestOpenReplyAccept w dispatch) h s
      fun ch h' s' => ch = none ∨ ch = some s.channels.next ∧
        h' = h ++ [⟨s.tock, .call .openReplyAccept, sshOk⟩] ∧
        s' = s.tock.obtain s.context.trapSession := by
  refine follows_bind (follows_gets (P := fun session h' s' =>
    session = s.context.trapSession ∧ h' = h ∧ s' = s) ⟨rfl, rfl, rfl⟩) ?_
  rintro _ _ _ ⟨rfl, rfl, rfl⟩
  have quiet : ¬ Call.openReplyAccept.Dispatches := fun no => no
  exact follows_obtainBy quiet acceptable fun _ => rfl

omit hd in
/-- Callbacks are set by one entry, and the record of the channel is changed. -/
theorem run_sshSetChannelCallbacks {ch : ChannelId} {cb : ChannelCallbacks} :
    sshSetChannelCallbacks w dispatch (some ch) cb s =
      ⟨[⟨s.tock, .call (.setCallbacks ch cb), w.answer s.tick⟩],
        (Call.setCallbacks ch cb).effect (w.answer s.tick) s.tock, .ok ()⟩ := rfl

theorem walks_sshChannelFree {ch : Option ChannelId} :
    Walks (Change w serial) (sshChannelFree w dispatch ch) :=
  walks_whenSome fun _ => walks_bind
    (walks_callWith hd (fun _ _ => trivial) fun _ _ => rfl) fun _ => walks_pure

theorem walks_sshChannelSendEof {ch : Option ChannelId} :
    Walks (Change w serial) (sshChannelSendEof w dispatch ch) := by
  cases ch with
  | none => exact walks_pure
  | some ch => exact walks_callWith hd (fun _ _ => trivial) fun _ _ => rfl

theorem walks_sshChannelWrite (nested : ¬ serial) {ch : Option ChannelId} {isStderr : Bool}
    {data : List UInt8} : Walks (Change w serial) (sshChannelWrite w dispatch ch isStderr data) := by
  cases ch with
  | none => exact walks_pure
  | some ch =>
      exact walks_bind walks_gets fun c => walks_bind
        (walks_callWith hd (fun _ _ => nested) fun _ _ => rfl) fun _ => walks_pure

end Calls

/-! ## Pairs and the pool

The pool is read and written through the context's pointer, and a pair is released in
steps: the mark, one end, the other end, and the memory. -/

section Pairs

variable {w : World} {serial : Prop} {dispatch : Nat → ProxyM Unit} {h : List Entry} {s : Proxy}
  {p : PairId}

/-- A pair is read if it is there, and otherwise the program stops. -/
theorem follows_loadPair {P : FwPair → List Entry → Proxy → Prop}
    (post : ∀ pair, s.pairs.cell p = some pair → P pair h s) :
    Follows (Change w serial) (loadPair p) h s P := by
  refine follows_get_bind (follows_orFault fun pair loaded => post pair ?_)
  unfold Heap.load at loaded
  split at loaded
  · cases loaded
  · rename_i cell
    cases loaded
    exact cell

theorem walks_loadPair : Walks (Change w serial) (loadPair p) :=
  walks_bind walks_get fun _ => walks_orFault

/-- A write into a pair that is there has to be a change. -/
theorem follows_modifyPair {f : FwPair → FwPair} {P : Unit → List Entry → Proxy → Prop}
    (first : ∀ pair, s.pairs.cell p = some pair →
      Change w serial h s [] { s with pairs := s.pairs.store p (f pair) })
    (post : ∀ pair, s.pairs.cell p = some pair →
      P () h { s with pairs := s.pairs.store p (f pair) }) :
    Follows (Change w serial) (modifyPair p f) h s P :=
  follows_bind (follows_loadPair (P := fun pair h' s' => h' = h ∧ s' = s ∧
    s.pairs.cell p = some pair) fun pair cell => ⟨rfl, rfl, cell⟩) fun pair _ _ loaded => by
    obtain ⟨rfl, rfl, cell⟩ := loaded
    exact follows_modify (first pair cell) (post pair cell)

theorem Released.mono {l : List Entry} (released : Released h p) : Released (h ++ l) p := by
  obtain ⟨e, mem, action⟩ := released
  exact ⟨e, List.mem_append_left l mem, action⟩

/-- What is released was released before, or by one of the new entries. -/
theorem released_of_append {l : List Entry} (released : Released (h ++ l) p) : Released h p ∨
    ∃ e ∈ l, e.action = .release p ∧ e.before.pairs.cell p ≠ none := by
  obtain ⟨e, mem, action, there⟩ := released
  exact (List.mem_append.mp mem).imp (fun mem => ⟨e, mem, action, there⟩)
    fun mem => ⟨e, mem, action, there⟩

/-- Changing an end of a pair that is being taken apart. -/
theorem follows_modifyEndpoint {end_ : End} {f : FwEndpoint → FwEndpoint} (released : Released h p)
    (keeps : ∀ endpoint, (f endpoint).channel = none ∨ (f endpoint).channel = endpoint.channel) :
    Follows (Change w serial) (modifyEndpoint p end_ f) h s fun _ h' _ => Released h' p :=
  follows_modifyPair (fun _ cell => .endpoint h s end_ _ released cell (keeps _))
    fun _ _ => released

variable (hd : ∀ t, Walks (Change w serial) (dispatch t))

include hd

/-- `FwEndpointDone` of a pair that is being released: the entry that says so stands in
the history, which is what permits the writes. -/
theorem follows_fwEndpointDone {end_ : End} (released : Released h p) :
    Follows (Change w serial) (fwEndpointDone w dispatch p end_) h s fun _ h' _ => Released h' p := by
  refine follows_bind (follows_modifyEndpoint released fun _ => .inr rfl) fun _ h₁ s₁ released => ?_
  refine follows_bind (follows_loadPair (P := fun _ h' _ => Released h' p) fun _ _ => released)
    fun _ h₂ s₂ released => ?_
  refine follows_when (fun _ => ?_) fun _ => released
  refine follows_walks_bind (walks_onChannel hd fun _ => trivial) fun isOpen l₃ s₃ _ => ?_
  refine follows_walks_bind (walks_when (walks_bind (walks_onChannel hd fun _ => trivial)
    fun _ => walks_pure)) fun _ l₄ s₄ _ => ?_
  refine follows_bind (follows_loadPair (P := fun _ h' _ => Released h' p)
    fun _ _ => released.mono.mono) fun pair h₅ s₅ released => ?_
  refine follows_walks_bind (walks_sshChannelFree hd) fun _ l₆ s₆ _ => ?_
  exact follows_modifyEndpoint released.mono fun _ => .inl rfl

/-- `FwPairRelease`, once the pair is marked as released. -/
theorem follows_takeApart (released : Released h p) :
    Follows (Change w serial) (do
      fwEndpointDone w dispatch p .source
      fwEndpointDone w dispatch p .destiny
      modify fun s => { s with pairs := s.pairs.free p }) h s fun _ h' _ => Released h' p := by
  refine follows_bind (follows_fwEndpointDone hd released) fun _ h₁ s₁ released => ?_
  refine follows_bind (follows_fwEndpointDone hd released) fun _ h₂ s₂ released => ?_
  exact follows_modify (.freePair h₂ s₂ released) released

omit hd in
theorem released_append {e : Entry} {pair : FwPair} (action : e.action = .release p)
    (cell : e.before.pairs.cell p = some pair) : Released (h ++ [e]) p := by
  refine ⟨e, List.mem_append_right h (.head _), action, ?_⟩
  rw [cell]
  exact Option.some_ne_none pair

/-- `FwPairRelease` of a pair that nobody has seen, or in the teardown. -/
theorem follows_fwPairRelease
    (why : s.pairs.cell p = some (blankPair p) ∨ s.stage = .teardown) :
    Follows (Change w serial) (fwPairRelease w dispatch p) h s fun _ h' _ => Released h' p := by
  have told : (tell fun s => ⟨s, .release p, 0⟩ : ProxyM Unit) s =
      ⟨[⟨s, .release p, 0⟩], s, .ok ()⟩ := rfl
  cases cell : s.pairs.cell p with
  | none =>
      have torndown : s.stage = .teardown := by
        rcases why with blank | torndown
        · cases cell.symm.trans blank
        · exact torndown
      refine follows_bind (follows_run told (.releaseFreed h s cell torndown)
        (P := fun _ _ s' => s' = s) rfl) ?_
      rintro _ h' _ rfl
      refine follows_bind (follows_modifyPair (P := fun _ _ _ => False)
        (fun pair found => nomatch cell.symm.trans found)
        fun pair found => nomatch cell.symm.trans found) fun _ _ _ => False.elim
  | some pair =>
      have blank : pair = blankPair p ∨ s.stage = .teardown := by
        rcases why with blank | torndown
        · exact .inl (Option.some.inj (cell.symm.trans blank))
        · exact .inr torndown
      refine follows_of_amid (amid_bind told (amid_bind (run_modifyPair cell)
        (amid_step (.release h s cell blank) ?_)))
      exact follows_takeApart hd (released_append rfl cell)

end Pairs

end HaasProxy
