import HaasProxy.Transitions.Callbacks

/-!
# `ProxyProcess` as steps

`path_proxyRun`, the result of this file, is that a run of `ProxyProcess` makes
the steps of `Advance` and no others, whatever libssh answers and delivers.  So
what is to hold in every run can be checked one constructor at a time.

A callback changes nothing about how far `ProxyProcess` is and does not wait for
events (`Within`, `not_aboutWait_of_change`); that is what the loops know of the
calls they make.

## Main results

* `within_of_change` — the entries of a change are logged in states that the step describes;
* `follows_waitLoginStep`, `follows_relayStep` — each loop comes back to its top;
* `follows_proxyProcess` — the steps of `ProxyProcess`, and the teardown as `TornDown`;
* `path_proxyRun` — a run is a path.

## Design notes

**From the top to the wait.**  A loop that waits has made its tests since it was at its top,
and callbacks have come in between.  `follows_changes` says that what comes in between are
changes, of which each leaves the stage alone and logs nothing about waiting.  So the
tests are still the last ones when `Waits` is stated.

**Both depths.**  The program is followed once, with `serial` a parameter.  `path_proxyRun`
puts in that the depth is at most one, and a proof that does not care drops it.

**Where a run stops.**  A run that reads what is gone ends there, and one that runs out of
iterations as well.  The path leads to where it stops; `TornDown` is said only of runs that
return.
-/

namespace HaasProxy

open Traced

/-! ## What a change leaves alone

The stage, and with it the place in `ProxyProcess`: a change is a step of a callback, or
of a function that the loops call. -/

namespace Proxy

variable (s : Proxy) (ch : ChannelId) (f : Channel → Channel)

/-- A change to the record of a channel leaves the context alone. -/
@[simp] theorem context_updateChannel : (s.updateChannel ch f).context = s.context := by
  unfold updateChannel
  split <;> rfl

@[simp] theorem stage_updateChannel : (s.updateChannel ch f).stage = s.stage := by
  unfold updateChannel
  split <;> rfl

@[simp] theorem pools_updateChannel : (s.updateChannel ch f).pools = s.pools := by
  unfold updateChannel
  split <;> rfl

@[simp] theorem pairs_updateChannel : (s.updateChannel ch f).pairs = s.pairs := by
  unfold updateChannel
  split <;> rfl

@[simp] theorem sessions_updateChannel : (s.updateChannel ch f).sessions = s.sessions := by
  unfold updateChannel
  split <;> rfl

end Proxy

section Within

variable {w : World} {serial : Prop} {h l : List Entry} {s s' t : Proxy}

/-- No call of libssh changes how far `ProxyProcess` is. -/
@[simp] theorem stage_effect (c : Call) (i : Int) (s : Proxy) :
    (c.effect i s).stage = s.stage := by
  cases c with
  | setCallbacks | write => exact s.stage_updateChannel _ _
  | new | channelNew | openReplyAccept => simp only [Call.effect]; split <;> rfl
  | sendEof =>
      simp only [Call.effect]
      split
      · exact s.stage_updateChannel _ _
      · rfl
  | _ => rfl

/-- The pools belong to the proxy, so no call has an effect on them. -/
@[simp] theorem pools_effect (c : Call) (i : Int) (s : Proxy) :
    (c.effect i s).pools = s.pools := by
  cases c with
  | setCallbacks | write => exact s.pools_updateChannel _ _
  | new | channelNew | openReplyAccept => simp only [Call.effect]; split <;> rfl
  | sendEof =>
      simp only [Call.effect]
      split
      · exact s.pools_updateChannel _ _
      · rfl
  | _ => rfl

/-- Nor does one change a forward pair. -/
@[simp] theorem pairs_effect (c : Call) (i : Int) (s : Proxy) :
    (c.effect i s).pairs = s.pairs := by
  cases c with
  | setCallbacks | write => exact s.pairs_updateChannel _ _
  | new | channelNew | openReplyAccept => simp only [Call.effect]; split <;> rfl
  | sendEof =>
      simp only [Call.effect]
      split
      · exact s.pairs_updateChannel _ _
      · rfl
  | _ => rfl

/-- In the middle of a step the context is as before, but for the idle timer, and
so is what `ProxyProcess` counts. -/
structure Within (s t : Proxy) : Prop where
  /-- The idle timer is all of the context that may differ. -/
  context : ∃ timer, t.context = { s.context with idleTimer := timer }
  stage : t.stage = s.stage
  sessions : t.sessions = s.sessions

theorem within_refl (s : Proxy) : Within s s := ⟨⟨s.context.idleTimer, rfl⟩, rfl, rfl⟩

namespace Within

theorem tock (within : Within s t) : Within s t.tock :=
  ⟨within.context, within.stage, within.sessions⟩

theorem idled (within : Within s t) : Within s (t.idled w) := by
  obtain ⟨timer, context⟩ := within.context
  refine ⟨⟨(w.clock t.tick).later w.config.idleTimeout, ?_⟩, within.stage, within.sessions⟩
  simp only [Proxy.idled, context]

/-- The modes of the sessions may change within a step. -/
theorem blocking (within : Within s t) (blocking : SessionId → Bool) :
    Within s { t with blocking := blocking } := ⟨within.context, within.stage, within.sessions⟩

/-- The records of the channels may change within a step. -/
theorem updateChannel (within : Within s t) (ch : ChannelId) (f : Channel → Channel) :
    Within s (t.updateChannel ch f) := by
  obtain ⟨context, stage, sessions⟩ := within
  exact ⟨by simpa using context, by simpa using stage, by simpa using sessions⟩

end Within

/-- **The entries of a change** are logged in states that differ from the one in front
of it only as `Within` allows. A proof about an entry may so use what is known of the
state that the change began in. -/
theorem within_of_change (change : Change w serial h s l s') : ∀ e ∈ l, Within s e.before := by
  have here := within_refl s
  cases change with
  | register _ _ offered pointer cell added stored pair filled _ mid =>
      intro e mem
      obtain ⟨registering, -⟩ := mid e mem
      exact ⟨⟨s.context.idleTimer, registering.context⟩, registering.stage, registering.sessions⟩
  | relay _ _ isStderr bytes i during after =>
      simp only [relayLog, List.forall_mem_cons]
      have written := (here.tock.blocking during).updateChannel
      exact ⟨here, here.tock.blocking during, written _ _, ((written _ _).blocking after).idled,
        List.forall_mem_nil _⟩
  | discard _ _ isStderr bytes cell callbacks outlet answer waited =>
      rcases waited with rfl | ⟨b, rfl⟩
      · simp [here]
      · simp [here, (here.blocking b).idled]
  | adopt _ _ trapChannel haasChannel i j obtained first second =>
      simp only [first, List.forall_mem_cons]
      exact ⟨here.tock, (here.tock.updateChannel _ _).tock, List.forall_mem_nil _⟩
  | reap _ _ pointer cell item eq loaded closed out =>
      simp only [List.forall_mem_cons, out]
      exact ⟨⟨here.context, rfl, rfl⟩, List.forall_mem_nil _⟩
  | _ => simp [byeLog, here, here.tock, here.tock.tock]

/-- No step of a callback is a wait: `ssh_event_dopoll` is called in the two loops only. -/
theorem not_aboutWait_of_change (change : Change w serial h s l s') : ∀ e ∈ l, ¬ e.AboutWait := by
  unfold Entry.AboutWait
  cases change with
  | register _ _ offered pointer cell added stored pair filled _ mid =>
      intro e mem
      obtain ⟨-, ⟨allocation, action⟩ | ⟨ch, action⟩⟩ := mid e mem <;> simp [action]
  | call _ _ c i licensed =>
      simp only [List.forall_mem_singleton, Interaction.call.injEq, reduceCtorEq, or_false]
      rintro ⟨timeout, rfl⟩
      exact licensed
  | returned _ _ c i other => simpa using other
  | once _ _ r => cases r <;> simp [OnceRequest.call]
  | _ => simp [relayLog, byeLog]

/-- Nor does one take a session into the event. -/
private theorem addsSession_of_change (change : Change w serial h s l s') :
    ∀ e ∈ l, e.action.addsSession = false := by
  cases change with
  | register _ _ offered pointer cell added stored pair filled _ mid =>
      intro e mem
      obtain ⟨-, ⟨allocation, action⟩ | ⟨ch, action⟩⟩ := mid e mem <;> rw [action] <;> rfl
  | call _ _ c i licensed =>
      simp only [List.forall_mem_singleton]
      cases c with
      | eventAddSession session => exact absurd licensed id
      | _ => rfl
  | once _ _ r => cases r <;> simp [OnceRequest.call, Interaction.addsSession]
  | _ => simp [relayLog, byeLog, Interaction.addsSession]

/-- So how far `ProxyProcess` is, is a matter of `ProxyProcess` alone. -/
theorem stage_of_change (change : Change w serial h s l s') : s'.stage = s.stage := by
  cases change with
  | once => split <;> rfl
  | discard _ _ isStderr bytes cell callbacks outlet answer waited =>
      rw [Proxy.stage_updateChannel]
      rcases waited with rfl | ⟨b, rfl⟩ <;> rfl
  | _ => simp [Proxy.relayed, Proxy.idled, Proxy.tock, Proxy.filling, *]

end Within

/-! ## Readings -/

section Readings

variable {w : World} {serial : Prop} {h : List Entry} {s : Proxy}

/-- `ShouldStop` is read at the tick that the loop has arrived at. -/
theorem follows_readShouldStop :
    Follows (Change w serial) (readShouldStop w) h s fun b h' s' =>
      b = w.shouldStop s.tick ∧ h' = h ∧ s' = s.tock := by
  refine follows_bind follows_nextTick ?_
  rintro _ _ _ ⟨rfl, rfl, rfl⟩
  exact follows_pure ⟨rfl, rfl, rfl⟩

/-- `CheckUsage` reads the usage if there is a limit, and where it agrees the usage is
within the limit. -/
theorem follows_checkUsage :
    Follows (Change w serial) (checkUsage w) h s fun b h' s' =>
      (b = true → 0 < w.config.cpuUsage → w.UsageOk s.tick) ∧ h' = h ∧
        s' = { s with tick := s.tick + if 0 < w.config.cpuUsage then 1 else 0 } := by
  refine follows_ite (fun limited => ?_) fun unlimited => ?_
  · refine follows_bind follows_nextTick ?_
    rintro _ _ _ ⟨rfl, rfl, rfl⟩
    rw [if_pos limited]
    exact follows_pure ⟨fun ok _ => ok, rfl, rfl⟩
  · rw [if_neg unlimited]
    exact follows_pure ⟨fun _ limited => absurd limited unlimited, rfl, rfl⟩

/-- What is left of a timer, by the clock at that tick. -/
theorem follows_timerGet {timer : Timeval} :
    Follows (Change w serial) (timerGet w timer) h s fun left h' s' =>
      left = timerLeft timer (w.clock s.tick) ∧ h' = h ∧ s' = s.tock := by
  refine follows_bind (follows_bind follows_nextTick ?_) fun now h' s' post => follows_pure post
  rintro _ _ _ ⟨rfl, rfl, rfl⟩
  exact follows_pure ⟨rfl, rfl, rfl⟩

/-- The time to wait, after as many readings of the clock as it takes. -/
theorem follows_waitTime :
    Follows (Change w serial) (waitTime w) h s fun time h' s' =>
      time = timeLeft w s ∧ h' = h ∧ s'.stage = s.stage ∧
        (time ≠ none → s' = { s with tick := s.tick + w.readings }) := by
  refine follows_bind (follows_get_bind follows_timerGet) ?_
  rintro _ _ _ ⟨rfl, rfl, rfl⟩
  unfold timeLeft World.readings
  refine follows_ite (fun up => follows_pure ⟨?_, rfl, rfl, fun no => absurd rfl no⟩) fun left => ?_
  · exact (if_pos up).symm
  refine follows_ite (fun limited => follows_get_bind (follows_bind follows_timerGet ?_))
    fun unlimited => follows_pure ⟨?_, rfl, rfl, fun _ => ?_⟩
  · rintro _ _ _ ⟨rfl, rfl, rfl⟩
    refine follows_pure ⟨?_, rfl, rfl, fun _ => ?_⟩
    · simp only [if_neg left, if_pos limited]
      rfl
    · rw [if_pos limited]
      rfl
  · simp only [if_neg left, if_neg unlimited]
  · rw [if_neg unlimited]
    rfl

end Readings

/-! ## The loops

Each loop is followed with its top as the invariant. The turn in which it is left ends at
the top of the next part. -/

section Loops

variable {w : World} {serial : Prop} {dispatch : Nat → ProxyM Unit} {fuel : Nat}
  {h : List Entry} {s : Proxy} {α β : Type} {m : ProxyM α} {k : α → ProxyM β}
  {P : α → List Entry → Proxy → Prop} {Q : β → List Entry → Proxy → Prop}

/-- **What callbacks and calls do** is no wait, and leaves the stage. -/
theorem follows_changes (first : Follows (Change w serial) m h s P) :
    Follows (Advance w serial) m h s fun a h' s' =>
      P a h' s' ∧ s'.stage = s.stage ∧
        ∃ l, h' = h ++ l ∧ (∀ e ∈ l, ¬ e.AboutWait ∧ e.action.addsSession = false) ∧
          Path (Change w serial) h s l s' := by
  refine (follows_mono first.path ?_).weaken fun _ _ _ _ => .change
  rintro a _ s' ⟨post, l, rfl, path⟩
  refine ⟨post, ?_, l, rfl, ?_, path⟩
  · exact path.inv (I := fun _ t => t.stage = s.stage) (fun _ _ _ _ same change =>
      (stage_of_change change).trans same) rfl
  · exact path.forall_entries (I := fun _ _ => True)
      (fun _ _ _ _ _ change => ⟨trivial, fun e mem =>
        ⟨not_aboutWait_of_change change e mem, addsSession_of_change change e mem⟩⟩) trivial

/-- **A stretch of changes in front of a program.** What the program may rely on: how
far `ProxyProcess` is stays the same, and nothing that was logged is about waiting or
takes a session in. -/
theorem follows_changes_bind (first : Follows (Change w serial) m h s P)
    (next : ∀ a l s', P a (h ++ l) s' → s'.stage = s.stage →
      (∀ e ∈ l, ¬ e.AboutWait ∧ e.action.addsSession = false) →
      Path (Change w serial) h s l s' → Follows (Advance w serial) (k a) (h ++ l) s' Q) :
    Follows (Advance w serial) (m >>= k) h s Q := by
  refine follows_bind (follows_changes first) ?_
  rintro a _ s' ⟨post, stage, l, rfl, quiet, path⟩
  exact next a l s' post stage quiet path

/-- Where the stage is all that matters. -/
theorem follows_walks (first : Walks (Change w serial) m) :
    Follows (Advance w serial) m h s fun _ _ s' => s'.stage = s.stage :=
  follows_mono (follows_changes (first h s)) fun _ _ _ post => post.2.1

variable (hd : ∀ t, Walks (Change w serial) (dispatch t))

include hd

/-- A loop waits for events. -/
theorem follows_eventDopoll {time : Int} (waits : Waits w h s time) :
    Follows (Advance w serial) (call w dispatch (.eventDopoll time)) h s fun i h' s' =>
      s'.stage = s.stage ∧ ∃ h₀, h' = h₀ ++ [⟨s', .returned (.eventDopoll time), i⟩] := by
  have ticked : nextTick s = ⟨[], s.tock, .ok s.tick⟩ := rfl
  have told : (tell fun s' => ⟨s', .call (.eventDopoll time), w.answer s.tick⟩ : ProxyM Unit)
      s.tock = ⟨[⟨s.tock, .call (.eventDopoll time), w.answer s.tick⟩], s.tock, .ok ()⟩ := rfl
  have took : (modify fun s => s : ProxyM Unit) s.tock = ⟨[], s.tock, .ok ()⟩ := rfl
  refine follows_of_amid (amid_bind ticked (amid_bind told (amid_bind took
    (amid_step (.wait h s time (w.answer s.tick) waits) ?_))))
  refine follows_bind (P := fun _ h' s' => s'.stage = s.stage ∧
    ∃ h₀, h' = h₀ ++ [⟨s', .returned (.eventDopoll time), w.answer s.tick⟩])
    (follows_when (fun _ => ?_) fun no => absurd trivial no) fun _ _ _ post => follows_pure post
  refine follows_bind (follows_walks (hd _)) fun _ h' s' stage => ?_
  exact follows_tell (.woken h' s' time _) ⟨stage, h', rfl⟩

/-- **The first loop**: it comes back to its top. -/
theorem follows_waitLoginStep (here : LoginTop w h s) (stage : s.stage = .login) :
    Follows (Advance w serial) (waitLoginStep w dispatch) h s fun next h' s' =>
      s'.stage = .login ∧ (next = .inl () → LoginTop w h' s') := by
  refine follows_bind (follows_readShouldStop.weaken fun _ _ _ _ => .change) ?_
  rintro _ h _ ⟨rfl, rfl, rfl⟩
  refine follows_ite (fun _ => follows_pure ⟨stage, nofun⟩) fun goesOn => ?_
  refine follows_bind (follows_checkUsage.weaken fun _ _ _ _ => .change) ?_
  rintro usage h _ ⟨within, rfl, rfl⟩
  refine follows_ite (fun _ => follows_pure ⟨stage, nofun⟩) fun usable => ?_
  rw [not_not] at usable
  refine follows_bind (follows_waitTime.weaken fun _ _ _ _ => .change) ?_
  rintro time h s₃ ⟨eq, rfl, stage₃, read⟩
  cases time with
  | none => exact follows_pure ⟨stage₃.trans stage, nofun⟩
  | some time =>
      cases read (Option.some_ne_none time)
      refine follows_bind (follows_eventDopoll hd (.login here (eq_false_of_ne_true goesOn)
        (within usable) rfl eq.symm)) ?_
      rintro ret _ s₄ ⟨stage₄, h₀, rfl⟩
      have login : s₄.stage = .login := stage₄.trans stage
      refine follows_ite (fun intr => follows_pure ⟨login, fun _ => ?_⟩) fun noIntr => ?_
      · have noError : sshEintr ≠ sshError := by decide
        exact .next rfl login (intr ▸ noError) (.inl intr)
      refine follows_ite (fun _ => follows_pure ⟨login, nofun⟩) fun noError => follows_get_bind ?_
      refine follows_ite (fun _ => follows_pure ⟨login, nofun⟩) fun notClosed => ?_
      refine follows_ite (fun _ => follows_pure ⟨login, nofun⟩) fun notReady => ?_
      exact follows_pure ⟨login, fun _ =>
        .next rfl login noError (.inr ⟨eq_false_of_ne_true notClosed, notReady⟩)⟩

omit hd in
private theorem noneClosed_tock {s : Proxy} (none : s.NoneClosed) : s.tock.NoneClosed := none

/-- **The second loop**: it comes back to its top. -/
theorem follows_relayStep (here : RelayTop w h s) (stage : s.stage = .relay) :
    Follows (Advance w serial) (relayStep w dispatch fuel) h s fun next h' s' =>
      s'.stage = .relay ∧ (next = .inl () → RelayTop w h' s') := by
  refine follows_bind (follows_readShouldStop.weaken fun _ _ _ _ => .change) ?_
  rintro _ h _ ⟨rfl, rfl, rfl⟩
  refine follows_ite (fun _ => follows_pure ⟨stage, nofun⟩) fun goesOn => follows_get_bind ?_
  have goesOn := eq_false_of_ne_true goesOn
  -- from the top to the wait: the entries of each part are kept, in order
  have polls {ch : Option ChannelId} : Walks (Change w serial) (onChannel w dispatch ch .poll) :=
    walks_onChannel hd fun _ => trivial
  refine follows_changes_bind (polls h s.tock) fun _ l₁ s₁ _ stage₁ quiet₁ _ => follows_get_bind ?_
  refine follows_changes_bind (polls _ s₁) fun _ l₂ s₂ _ stage₂ quiet₂ _ => follows_get_bind ?_
  refine follows_changes_bind (P := fun _ _ s' => s'.NoneClosed) ?_
    fun _ l₃ s₃ noneClosed stage₃ quiet₃ _ => follows_get_bind ?_
  · refine follows_when (fun _ => follows_handleForwards hd) fun null => ?_
    rw [not_not] at null
    intro p mem
    rw [Proxy.items, null] at mem
    cases mem
  refine follows_changes_bind (follows_callWith hd (c := .blockingFlush _) trivial trivial
    fun _ => rfl) fun i l₄ s₄ flushed stage₄ quiet₄ _ => follows_get_bind ?_
  obtain ⟨l₄', eq₄, -⟩ := flushed
  have mem₄ := List.append_cancel_left eq₄ ▸ List.mem_cons_self
  refine follows_changes_bind (follows_callWith hd (c := .blockingFlush _) trivial trivial
    fun _ => rfl) fun j l₅ s₅ flushed stage₅ quiet₅ _ => ?_
  obtain ⟨l₅', eq₅, -⟩ := flushed
  have eq₅ := List.append_cancel_left eq₅
  have split : h ++ l₁ ++ l₂ ++ l₃ ++ l₄ ++ l₅ = h ++ ((l₁ ++ l₂ ++ l₃ ++ l₄ ++
      ⟨s₄.tock, .call (.blockingFlush s₄.context.haasSession), j⟩ :: l₅') ++
      [⟨s₅, .returned (.blockingFlush s₄.context.haasSession), j⟩]) := by
    rw [eq₅]
    simp only [List.append_assoc, List.cons_append]
  have relay₅ : s₅.stage = .relay :=
    stage₅.trans (stage₄.trans (stage₃.trans (stage₂.trans (stage₁.trans stage))))
  -- the time that is left
  refine follows_bind (follows_waitTime.weaken fun _ _ _ _ => .change) ?_
  rintro time _ s₆ ⟨left, rfl, stage₆, read⟩
  cases time with
  | none => exact follows_pure ⟨stage₆.trans relay₅, nofun⟩
  | some time =>
      cases read (Option.some_ne_none time)
      -- so this is a wait that all the tests were made for
      have waits : Waits w (h ++ l₁ ++ l₂ ++ l₃ ++ l₄ ++ l₅)
          { s₅ with tick := s₅.tick + w.readings } time := by
        have quiet (e : Entry) (mem : e ∈ (l₁ ++ l₂ ++ l₃ ++ l₄ ++
            ⟨s₄.tock, .call (.blockingFlush s₄.context.haasSession), j⟩ :: l₅') ++
            [⟨s₅, .returned (.blockingFlush s₄.context.haasSession), j⟩]) :
            ¬ e.AboutWait ∧ e.action.addsSession = false := by
          have inner : e ∈ l₁ ++ l₂ ++ l₃ ++ l₄ ++ l₅ := by
            rw [eq₅]
            simpa only [List.append_assoc, List.cons_append] using mem
          simp only [List.mem_append] at inner
          rcases inner with (((mem | mem) | mem) | mem) | mem
          · exact quiet₁ e mem
          · exact quiet₂ e mem
          · exact quiet₃ e mem
          · exact quiet₄ e mem
          · exact quiet₅ e mem
        rw [split]
        refine .relay here goesOn (fun e mem => (quiet e mem).1) (fun e mem => (quiet e mem).2)
          (g := ⟨s₃.tock, .call (.blockingFlush _), i⟩)
          (List.mem_append_left _ (List.mem_append_right _ mem₄)) (noneClosed_tock noneClosed)
          ⟨_, rfl⟩ (List.mem_append_right _ (.head _)) rfl rfl relay₅ left.symm
      -- behind the wait: interrupted, failed, or back to the top
      refine follows_bind (follows_eventDopoll hd waits) ?_
      rintro ret _ s₇ ⟨stage₇, h₀, rfl⟩
      have relay : s₇.stage = .relay := stage₇.trans relay₅
      refine follows_ite (fun intr => follows_pure ⟨relay, fun _ => ?_⟩) fun noIntr => ?_
      · have noError : sshEintr ≠ sshError := by decide
        exact .next rfl relay (intr ▸ noError) (.inl intr)
      refine follows_ite (fun _ => follows_pure ⟨relay, nofun⟩) fun noError => follows_get_bind ?_
      refine follows_pure ⟨relay, fun next => .next rfl relay noError (.inr ?_)⟩
      by_contra closed
      rw [if_pos (eq_true_of_ne_false closed)] at next
      cases next

omit hd in
/-- A session is taken in or out of the event. -/
theorem follows_event {c : Call} {session : Option SessionId}
    (about : c = .eventAddSession session ∨ c = .eventRemoveSession session)
    (which : session = some s.context.trapSession ∨ session = s.context.haasSession ∧
      (s.context.authenticated = true ∨ s.stage = .relay)) :
    Follows (Advance w serial) (call w dispatch c) h s fun i h' s' =>
      h' = h ++ [⟨s.tock, .call c, i⟩] ∧ s' = s.tock := by
  have quiet : ¬ c.Dispatches := by
    rcases about with rfl | rfl <;> exact fun no => no
  exact follows_run (run_callWith quiet) (.event h s _ about which) ⟨rfl, rfl⟩

omit hd in
/-- The first loop is entered with both timers set. -/
theorem follows_enterLogin {m : ProxyM β} {k : Entry} {session : SessionId} {i : Int}
    (exchanged : k.action = .returned (.handleKeyExchange session)) (ok : k.answer = sshOk)
    (before : k.before = s) (fresh : ∀ e ∈ h ++ [k], ¬ e.AboutWait) (serving : s.stage ≠ .teardown)
    (next : ∀ h s, LoginTop w h s → s.stage = .login → Follows (Advance w serial) m h s Q) :
    Follows (Advance w serial) (do
      idleTimerReset w
      when (0 < w.config.sessionTimeout) do
        let timer ← timerStart w w.config.sessionTimeout
        modifyContext fun c => { c with sessionTimer := timer }
      enterStage .login
      m)
      (h ++ [k] ++ [⟨s.tock, .call (.eventAddSession (some s.context.trapSession)), i⟩]) s.tock Q := by
  set h₁ := h ++ [k] ++ [⟨s.tock, .call (.eventAddSession (some s.context.trapSession)), i⟩]
    with eq₁
  refine follows_bind (follows_idleTimerReset.weaken fun _ _ _ _ => .change) ?_
  rintro _ _ _ ⟨rfl, rfl⟩
  -- with both timers set, wherever the state came from, the loop is at its top
  have enters {s₃ : Proxy} (eq : ({ s₃ with stage := .login } : Proxy) = { s.tock with
      stage := .login
      tick := s.tock.tick + w.readings
      context := { s.tock.context with
        idleTimer := (w.clock s.tock.tick).later w.config.idleTimeout
        sessionTimer :=
          if 0 < w.config.sessionTimeout then
            (w.clock (s.tock.tick + 1)).later w.config.sessionTimeout
          else s.tock.context.sessionTimer } }) (serving : s₃.stage ≠ .teardown) :
      Follows (Advance w serial) (enterStage .login >>= fun _ => m) h₁ s₃ Q := by
    have here : LoginTop w h₁ { s₃ with stage := .login } := by
      rw [eq₁, List.append_assoc]
      refine .first exchanged ok (a := ⟨s.tock, _, i⟩) rfl (by rw [before]) ?_ eq
      intro e mem
      rcases List.mem_append.mp mem with mem | mem
      · exact fresh e (List.mem_append_left _ mem)
      rcases List.mem_cons.mp mem with rfl | mem
      · exact fresh e (List.mem_append_right _ (.head _))
      · rw [List.mem_singleton.mp mem]
        rintro ⟨timeout, no | no⟩ <;> cases no
    exact follows_bind (P := fun _ h' s' => LoginTop w h' s' ∧ s'.stage = .login)
      (follows_modify (.login h₁ s₃ here serving) ⟨here, rfl⟩) fun _ h' s' post =>
        next h' s' post.1 post.2
  -- the session timer is set where there is a limit
  by_cases limited : 0 < w.config.sessionTimeout
  · have run : (do
        let timer ← timerStart w w.config.sessionTimeout
        modifyContext fun c => { c with sessionTimer := timer } : ProxyM Unit) (s.tock.idled w) =
      ⟨[], { (s.tock.idled w).tock with
        context := { (s.tock.idled w).context with
          sessionTimer := (w.clock (s.tock.idled w).tick).later w.config.sessionTimeout } },
        .ok ()⟩ := rfl
    rw [when, if_pos limited]
    refine follows_path_bind run (.of_step (.limit _ _)) ?_
    rw [List.append_nil]
    refine enters ?_ serving
    simp only [World.readings, if_pos limited]
    rfl
  · rw [when, if_neg limited]
    refine follows_path_bind (l := []) rfl (.refl _ _) ?_
    rw [List.append_nil]
    refine enters ?_ serving
    simp only [World.readings, if_neg limited]
    rfl

/-- From the key exchange to the teardown. -/
theorem follows_serve {k : Entry} {session : SessionId}
    (exchanged : k.action = .returned (.handleKeyExchange session)) (ok : k.answer = sshOk)
    (before : k.before = s) (fresh : ∀ e ∈ h ++ [k], ¬ e.AboutWait) (serving : s.stage ≠ .teardown) :
    Follows (Advance w serial) (serve w dispatch fuel) (h ++ [k]) s fun _ _ s' =>
      s'.stage ≠ .teardown := by
  refine follows_get_bind (follows_bind (follows_event (.inl rfl) (.inl rfl)) ?_)
  rintro i _ _ ⟨rfl, rfl⟩
  -- the last statement, behind both loops
  have ends {h : List Entry} {s : Proxy} (serving : s.stage ≠ .teardown) :
      Follows (Advance w serial) (do
        let s ← get
        let _ ← call w dispatch (.eventRemoveSession (some s.context.trapSession))) h s
          fun _ _ s' => s'.stage ≠ .teardown := by
    refine follows_get_bind (follows_bind (follows_event (.inr rfl) (.inl rfl)) ?_)
    rintro _ _ _ ⟨rfl, rfl⟩
    exact follows_pure serving
  refine follows_enterLogin exchanged ok before fresh serving fun h s here login => ?_
  -- the first loop, with being at its top as the invariant
  refine follows_bind (P := fun _ _ s' => s'.stage = .login)
    (follows_loop (I := fun _ h s => LoginTop w h s ∧ s.stage = .login) (fun _ h s inv => ?_) fuel
      ⟨here, login⟩) fun error h₁ s₁ login => ?_
  · refine follows_mono (follows_waitLoginStep hd inv.1 inv.2) ?_
    rintro (next | error) h' s' ⟨login, top⟩
    · exact ⟨top rfl, login⟩
    · exact login
  have serving₁ : s₁.stage ≠ .teardown := by
    rw [login]
    nofun
  refine follows_bind (P := fun _ _ s' => s'.stage ≠ .teardown) (follows_when (fun _ => ?_)
    fun _ => serving₁) fun _ _ _ serving => ends serving
  refine follows_bind (follows_readShouldStop.weaken fun _ _ _ _ => .change) ?_
  rintro _ h₁ _ ⟨rfl, rfl, rfl⟩
  refine follows_get_bind (follows_when (fun ready => ?_) fun _ => serving₁)
  obtain ⟨-, trapChannel, authenticated⟩ := ready
  refine follows_bind (follows_event (.inl rfl) (.inr ⟨rfl, .inl authenticated⟩)) ?_
  rintro i _ _ ⟨rfl, rfl⟩
  refine follows_bind (follows_idleTimerReset.weaken fun _ _ _ _ => .change) ?_
  rintro _ _ _ ⟨rfl, rfl⟩
  have top := RelayTop.first (w := w) (h := h₁) (a := ⟨s₁.tock.tock, .call (.eventAddSession
    s₁.context.haasSession), i⟩) rfl rfl
  refine follows_bind (P := fun _ h' s' => RelayTop w h' s' ∧ s'.stage = .relay)
    (follows_modify (.relay _ _ top login trapChannel authenticated) ⟨top, rfl⟩) ?_
  -- the second loop, in the same way
  rintro _ h₂ s₂ ⟨here, relay⟩
  refine follows_bind (P := fun _ _ s' => s'.stage = .relay)
    (follows_loop (I := fun _ h s => RelayTop w h s ∧ s.stage = .relay) (fun _ h s inv => ?_) fuel
      ⟨here, relay⟩) fun _ h₃ s₃ relay => follows_get_bind ?_
  · refine follows_mono (follows_relayStep hd inv.1 inv.2) ?_
    rintro (next | out) h' s' ⟨relay, top⟩
    · exact ⟨top rfl, relay⟩
    · exact relay
  refine follows_bind (follows_event (.inr rfl) (.inr ⟨rfl, .inr relay⟩)) ?_
  rintro _ _ _ ⟨rfl, rfl⟩
  refine follows_pure ?_
  show s₃.stage ≠ .teardown
  rw [relay]
  nofun

end Loops

/-! ## The teardown

A fixed sequence of statements, but for the callbacks made in it and the loop over the
pool. -/

section Teardown

variable {w : World} {serial : Prop} {dispatch : Nat → ProxyM Unit} {fuel : Nat}
  {h : List Entry} {s : Proxy} {α : Type} {m : ProxyM α} {P : α → List Entry → Proxy → Prop}
  (hd : ∀ t, Walks (Change w serial) (dispatch t))

/-- A program that makes changes may also be said to stay where `ProxyProcess` is. -/
theorem follows_stage (first : Follows (Change w serial) m h s P) {stage : Stage}
    (here : s.stage = stage) :
    Follows (Change w serial) m h s fun a h' s' => P a h' s' ∧ s'.stage = stage :=
  first.keeps (I := fun _ t => t.stage = stage)
    (fun _ _ _ _ same change => (stage_of_change change).trans same) here

include hd

/-- A round of `FwPoolDone` makes changes that are made during the teardown only. -/
theorem follows_poolDoneStep {id : PoolId} {i : Nat} (torndown : s.stage = .teardown) :
    Follows (Change w serial) (poolDoneStep w dispatch id i) h s fun _ _ s' =>
      s'.stage = .teardown := by
  refine follows_bind follows_loadPool ?_
  rintro contents h s ⟨rfl, rfl, -, -⟩
  cases contents with
  | none => exact follows_pure torndown
  | some pool =>
      refine follows_ite (fun _ => follows_orFault_bind fun item _ => ?_)
        fun _ => follows_pure torndown
      refine follows_bind (P := fun _ _ s' => s'.stage = .teardown) ?_
        fun _ _ _ torndown => follows_pure torndown
      cases item with
      | none => exact follows_pure torndown
      | some p =>
          refine follows_bind (follows_stage (follows_fwPairRelease hd (.inr torndown)) torndown)
            fun _ h₁ s₁ post => follows_get_bind ?_
          refine follows_orFault_bind fun pool _ => follows_orFault_bind fun pool _ => ?_
          exact follows_modify (.clear h₁ s₁ id pool post.2) post.2

/-- The pool is emptied during the teardown, and the stage stays what it is. -/
theorem follows_fwPoolDone {pool : Option PoolId} (torndown : s.stage = .teardown) :
    Follows (Change w serial) (fwPoolDone w dispatch fuel pool) h s fun _ _ s' =>
      s'.stage = .teardown := by
  cases pool with
  | none => exact follows_pure torndown
  | some id =>
      refine follows_get_bind (follows_orFault_bind fun contents _ => ?_)
      refine follows_bind (P := fun _ _ s' => s'.stage = .teardown)
        (follows_when (fun _ => ?_) fun _ => torndown) fun _ h₁ s₁ torndown =>
          follows_modify (.freePool h₁ s₁ id torndown) torndown
      refine follows_loop (I := fun _ _ s => s.stage = .teardown) (fun i h s torndown => ?_) fuel
        torndown
      refine follows_mono (follows_poolDoneStep hd torndown) ?_
      rintro (next | out) h' s' torndown <;> exact torndown

/-- The part of `SessionClose` about the channel. -/
theorem walks_sessionClose {ch : Option ChannelId} :
    Walks (Change w serial) (when (ch ≠ none) do
      let isOpen ← onChannel w dispatch ch .isOpen
      when (isOpen ≠ 0) do
        let _ ← onChannel w dispatch ch .setBlocking
        let _ ← sshChannelSendEof w dispatch ch
        let _ ← onChannel w dispatch ch .close
      sshChannelFree w dispatch ch) :=
  walks_when <|
    walks_bind (walks_onChannel hd fun _ => trivial) fun _ =>
    walks_bind (walks_when <|
      walks_bind (walks_onChannel hd fun _ => trivial) fun _ =>
      walks_bind (walks_sshChannelSendEof hd) fun _ =>
      walks_bind (walks_onChannel hd fun _ => trivial) fun _ => walks_pure) fun _ =>
    walks_sshChannelFree hd

omit hd in
/-- A session, if there is one, is disconnected and freed. -/
inductive Bye : Option SessionId → Proxy → List Entry → Proxy → Prop
  | none (s : Proxy) : Bye none s [] s
  | some (s : Proxy) (session : SessionId) (i j : Int) :
      Bye (some session) s (byeLog s session i j) s.tock.tock

/-- `SessionClose`: callbacks may come while the channel is closed, if there is
one, and then the session goes. -/
theorem follows_sessionClose {session : Option SessionId} {ch : Option ChannelId}
    (torndown : s.stage = .teardown) :
    Follows (Advance w serial) (sessionClose w dispatch session ch) h s fun _ h' s' =>
      s'.stage = .teardown ∧ ∃ l t b, h' = h ++ l ++ b ∧ Path (Change w serial) h s l t ∧
        (ch = none → l = [] ∧ t = s) ∧ Bye session t b s' := by
  refine follows_changes_bind (P := fun _ h' t => ch = none → h' = h ∧ t = s) ?_
    fun _ l t still stage _ path => ?_
  · cases ch with
    | none => exact follows_when (fun no => absurd rfl no) fun _ _ => ⟨rfl, rfl⟩
    | some ch => exact follows_mono (walks_sessionClose hd h s) fun _ _ _ _ => nofun
  have torndown := stage.trans torndown
  have still (none : ch = none) : l = [] ∧ t = s := by
    obtain ⟨same, eq⟩ := still none
    exact ⟨List.append_right_eq_self.mp same, eq⟩
  cases session with
  | none =>
      exact follows_pure ⟨torndown, l, t, [], (List.append_nil _).symm, path, still, .none t⟩
  | some session =>
      exact follows_run run_sshDisconnectFree (.bye _ t session _ _ torndown)
        ⟨torndown, l, t, _, rfl, path, still, .some t session _ _⟩

/-- **The teardown**: forwards first, then the session of the backend that is
there by then, then the client's.  Where there is no channel to close there are
no callbacks either. -/
def TornDown (w : World) (serial : Prop) (h : List Entry) (s : Proxy) (h' : List Entry)
    (s' : Proxy) : Prop :=
  ∃ l₀ s₀ l₁ s₁ b s₂ l₂ s₃ b', h' = h ++ l₀ ++ l₁ ++ b ++ l₂ ++ b' ∧ s₀.stage = .teardown ∧
    Path (Change w serial) h s l₀ s₀ ∧ Path (Change w serial) (h ++ l₀) s₀ l₁ s₁ ∧
    (s₀.context.haasChannel = none → l₁ = [] ∧ s₁ = s₀) ∧ Bye s₀.context.haasSession s₁ b s₂ ∧
    Path (Change w serial) (h ++ l₀ ++ l₁ ++ b) s₂ l₂ s₃ ∧
    (s₂.context.trapChannel = none → l₂ = [] ∧ s₃ = s₂) ∧ Bye (some s₂.context.trapSession) s₃ b' s'

/-- The teardown from its first step to its last: the pool, the backend session, the
client's. -/
theorem follows_teardown (serving : s.stage ≠ .teardown) :
    Follows (Advance w serial) (teardown w dispatch fuel) h s fun _ h' s' =>
      TornDown w serial h { s with stage := .teardown } h' s' := by
  refine follows_bind (P := fun _ h' s' => h' = h ∧ s' = { s with stage := .teardown })
    (follows_modify (.teardown h s serving) ⟨rfl, rfl⟩) ?_
  rintro _ h _ ⟨rfl, rfl⟩
  refine follows_get_bind (follows_changes_bind (P := fun _ _ s' => s'.stage = .teardown)
    (follows_when (fun _ => follows_fwPoolDone hd rfl) fun _ => rfl)
    fun _ l₀ s₀ torndown _ _ path₀ => follows_get_bind ?_)
  refine follows_bind (follows_sessionClose hd torndown) ?_
  rintro _ _ s₂ ⟨torndown₂, l₁, s₁, b, rfl, path₁, still₁, bye⟩
  refine follows_get_bind (follows_mono (follows_sessionClose hd torndown₂) ?_)
  rintro _ _ s' ⟨-, l₂, s₃, b', rfl, path₂, still₂, bye'⟩
  exact ⟨l₀, s₀, l₁, s₁, b, s₂, l₂, s₃, b', rfl, torndown, path₀, path₁, still₁, bye, path₂,
    still₂, bye'⟩

omit hd in
/-- The pool is there before the key exchange, if the mode asks for one. -/
theorem follows_poolInit (unset : s.context.forwardPool = none) :
    Follows (Advance w serial) (do
      let pool ← poolInit w
      modifyContext fun c => { c with forwardPool := pool }) h s fun _ h' s' =>
        s'.stage = s.stage ∧ ((∀ e ∈ h, ¬ e.AboutWait) → ∀ e ∈ h', ¬ e.AboutWait) := by
  refine follows_bind (P := fun pool h' s' => s'.stage = s.stage ∧ s'.context = s.context ∧
    ((∀ e ∈ h, ¬ e.AboutWait) → ∀ e ∈ h', ¬ e.AboutWait) ∧
    ∀ id, pool = some id → ∃ contents, s'.pools.cell id = some contents ∧ contents.Holds []) ?_ ?_
  · have asked : Change w serial h s
        [⟨s.tock, .alloc .fwPool, if w.granted s.tick then 1 else 0⟩] s.tock := .alloc h s .fwPool _
    have noWait' (before : ∀ e ∈ h, ¬ e.AboutWait) :
        ∀ e ∈ h ++ [⟨s.tock, .alloc .fwPool, if w.granted s.tick then 1 else 0⟩],
          ¬ e.AboutWait := by
      intro e mem
      exact (List.mem_append.mp mem).elim (before e) (not_aboutWait_of_change asked e)
    refine follows_path_bind run_allocate (.of_step (.change asked)) ?_
    refine follows_bind (follows_gets (P := fun id h' s' => id = s.tock.pools.next ∧
      h' = h ++ [⟨s.tock, .alloc .fwPool, if w.granted s.tick then 1 else 0⟩] ∧ s' = s.tock)
      ⟨rfl, rfl, rfl⟩) ?_
    rintro _ _ _ ⟨rfl, rfl, rfl⟩
    cases init : fwPoolInit (α := Option PairId) (w.granted s.tick) with
    | none => exact follows_pure ⟨rfl, rfl, noWait', nofun⟩
    | some contents =>
        refine follows_bind (follows_modify (P := fun _ h' s' => h' =
            h ++ [⟨s.tock, .alloc .fwPool, if w.granted s.tick then 1 else 0⟩] ∧
            s' = { s.tock with pools := s.tock.pools.alloc contents })
          (.newPool _ s.tock init) ⟨rfl, rfl⟩) ?_
        rintro _ _ _ ⟨rfl, rfl⟩
        refine follows_pure ⟨rfl, rfl, noWait', ?_⟩
        rintro id ⟨⟩
        exact ⟨contents, s.tock.pools.cell_alloc_self, FwPool.holds_of_init init⟩
  · rintro pool h' s' ⟨stage, context, noWait, empty⟩
    exact follows_modify (.usePool h' s' pool (context ▸ unset) empty) ⟨stage, noWait⟩

/-- **`ProxyProcess` makes the steps of `Advance`**, and where it returns there was a
moment at which the teardown began. -/
theorem follows_proxyProcess :
    Follows (Advance w serial) (proxyProcess w dispatch fuel) [] Proxy.initial fun _ h' s' =>
      ∃ h s, Path (Advance w serial) [] Proxy.initial h s ∧ s.stage ≠ .teardown ∧
        TornDown w serial h { s with stage := .teardown } h' s' := by
  have start : ∀ e ∈ ([] : List Entry), ¬ e.AboutWait := List.forall_mem_nil _
  -- all but the teardown; it is not in the teardown when it returns
  have serves : Follows (Advance w serial) (do
      when (w.config.forwardMode ≠ some .deny ∧ w.config.forwardMode ≠ some .fake) do
        let pool ← poolInit w
        modifyContext fun c => { c with forwardPool := pool }
      let s ← get
      let i ← call w dispatch (.handleKeyExchange s.context.trapSession)
      when (i = sshOk) (serve w dispatch fuel)) [] Proxy.initial fun _ _ s' =>
        s'.stage ≠ .teardown := by
    refine follows_bind (P := fun _ h' s' => s'.stage = .keyExchange ∧ ∀ e ∈ h', ¬ e.AboutWait)
      (follows_when (fun _ => ?_) fun _ => ⟨rfl, start⟩) ?_
    · exact follows_mono (follows_poolInit rfl) fun _ _ _ post => ⟨post.1, post.2 start⟩
    rintro _ h₁ s₁ ⟨stage₁, noWait₁⟩
    refine follows_get_bind (follows_changes_bind (follows_callWith hd (c := .handleKeyExchange _)
      trivial trivial fun _ => rfl) fun i l s₂ exchanged stage₂ quiet₂ _ => ?_)
    have serving : s₂.stage ≠ .teardown := by
      rw [stage₂, stage₁]
      nofun
    obtain ⟨l', eq, -⟩ := exchanged
    have noWait : ∀ e ∈ h₁ ++ l, ¬ e.AboutWait := by
      intro e mem
      exact (List.mem_append.mp mem).elim (noWait₁ e) fun mem => (quiet₂ e mem).1
    have split : h₁ ++ l = (h₁ ++ ⟨s₁.tock, .call (.handleKeyExchange s₁.context.trapSession), i⟩ ::
        l') ++ [⟨s₂, .returned (.handleKeyExchange s₁.context.trapSession), i⟩] := by
      rw [eq]
      simp
    refine follows_when (fun ok => ?_) fun _ => serving
    rw [split] at noWait ⊢
    exact follows_serve hd rfl ok rfl noWait serving
  -- behind it, with the history cut there
  have whole := follows_bind (k := fun _ => teardown w dispatch fuel) (Q := fun _ h' s' =>
    ∃ h s, Path (Advance w serial) [] Proxy.initial h s ∧ s.stage ≠ .teardown ∧
      TornDown w serial h { s with stage := .teardown } h' s') serves.path ?_
  · simp only [bind_assoc] at whole
    exact whole
  intro _ h s post
  obtain ⟨serving, l, eq, path⟩ := post
  rw [List.nil_append] at eq
  subst eq
  refine follows_mono (follows_teardown hd serving) ?_
  intro _ h' s' tornDown
  exact ⟨h, s, path, serving, tornDown⟩

end Teardown

/-- **A run of `ProxyProcess` makes the steps of `Advance`**, whatever libssh
answers and delivers, and the serial ones while callbacks do not nest. -/
theorem path_proxyRun (w : World) (fuel depth : Nat) :
    Path (Advance w (depth ≤ 1)) [] Proxy.initial (proxyRun w fuel depth).log
      (proxyRun w fuel depth).state :=
  (follows_proxyProcess (walks_dispatchWithin depth fun alone => alone)).1

/-- A run that returns ends with the teardown. -/
theorem tornDown_proxyRun {w : World} {fuel depth : Nat}
    (returns : (proxyRun w fuel depth).value = .ok ()) :
    ∃ h s, Path (Advance w (depth ≤ 1)) [] Proxy.initial h s ∧ s.stage ≠ .teardown ∧
      TornDown w (depth ≤ 1) h { s with stage := .teardown } (proxyRun w fuel depth).log
        (proxyRun w fuel depth).state :=
  (follows_proxyProcess (walks_dispatchWithin depth fun alone => alone)).2 () returns

end HaasProxy
