import HaasProxy.Uniform

/-!
# The session channels of a client

A client asks for session channels as often as it likes, and `TrapNewChannel` handles
each request: it opens one channel to the backend, keeps it and the client's channel
in the context, and returns the latter.  A request may arrive while libssh waits for
the backend on behalf of another one, so requests nest.

Once the context has a channel, `TrapNewChannel` returns it again without opening
another, and a request that is still waiting overwrites it.  `ownChannels_of_timely`
says that every request gets a channel of its own where neither happens.

## Main definitions and results

* `handling` — the requests that are being handled after a log;
* `OwnChannels` — every request gets its own channel;
* `Timely` — when a request may arrive;
* `Requesting`, `Balanced` — the steps and programs, as far as requests are concerned;
* `requesting_trapNewChannel`, `balanced_newChannel` — one request;
* `given_step` — what has become of the requests so far;
* `ownChannels_of_timely` — the result.

## Design notes

**Requests by number.**  A request is known by how many came before it, and the ones that are
being handled are a stack, which the log determines.  `During` speaks of what happened
while the stack was such and such.  That a channel was opened for a request, and for no other
one, is that it was opened while this request was on top.

**The invariant of a request.**  While it is handled, either the context has no channel yet or
one was opened for a request further inside (`Awaits`).  With `Timely` the second does not
happen, so when the request stores its channels it is the first to do so.

**A tree, not a path.**  Requests within requests are a recursion over the depth, and
`Balanced` is what a dispatcher has to satisfy: it leaves as many pending as it found.
The steps of the loop see a request as a whole.
-/

namespace HaasProxy

open Traced

/-! ## Requests

What the log says about them. -/

/-- How many requests for a session channel there were, and which of them are being
handled, the last one first. -/
structure Requests where
  count : Nat
  pending : List Nat

/-- A request is known by the number of requests before it. -/
def Requests.after (r : Requests) (e : Entry) : Requests :=
  match e.action with
  | .enter .newChannel => ⟨r.count + 1, r.count :: r.pending⟩
  | .leave .newChannel => ⟨r.count, r.pending.tail⟩
  | _ => r

/-- The requests that are being handled after a log. -/
def handling (log : List Entry) : List Nat := (log.foldl Requests.after ⟨0, []⟩).pending

/-- The channels that `TrapNewChannel` returns, as they are logged. -/
def returnedChannels (log : List Entry) : List Int :=
  log.filterMap fun e => if e.action = .leave .newChannel ∧ e.answer ≠ 0 then some e.answer else none

/-- The log has such an entry at a moment when these requests are being handled. -/
def During (log : List Entry) (pending : List Nat) (P : Entry → Prop) : Prop :=
  ∃ h e l, log = h ++ e :: l ∧ handling h = pending ∧ P e

/-- `ssh_channel_new` returns a channel of a session. -/
def Entry.NewChannel (session : Option SessionId) (ch : ChannelId) (e : Entry) : Prop :=
  ∃ id, session = some id ∧ e.action = .call (.channelNew id) ∧ e.answer = sshOk ∧
    e.before.channels.next = ch

/-- For the last of these requests, and for no other one, the client's channel was
obtained, and a channel of the backend was obtained and opened. -/
structure OpenedFor (log : List Entry) (pending : List Nat) (trap haas : ChannelId) : Prop where
  /-- It obtained this channel of the client's session. -/
  own : During log pending fun e => e.NewChannel (some e.before.context.trapSession) trap
  /-- It obtained this channel of the backend's session. -/
  backend : During log pending fun e => e.NewChannel e.before.context.haasSession haas
  /-- It opened the latter. -/
  opened : During log pending fun e => e.action = .returned (.openSession haas) ∧ e.answer = sshOk

/-- The context pairs the channels. -/
def Context.Pairs (c : Context) (trap haas : ChannelId) : Prop :=
  c.trapChannel = some trap ∧ c.haasChannel = some haas

/-- **Every request gets its own channel**: no channel is returned twice, and one that is
returned is paired, from then on, with the channel of the backend that was opened for
the request. -/
structure OwnChannels (log : List Entry) : Prop where
  /-- No channel is returned twice. -/
  distinct : (returnedChannels log).Nodup
  /-- The pair of channels was obtained for the request, and stays together. -/
  own : ∀ h e l, log = h ++ e :: l → e.action = .leave .newChannel → e.answer ≠ 0 →
    ∃ request outer, handling h = request :: outer ∧ ∃ trap haas : ChannelId,
      e.answer = (trap : Int) + 1 ∧ OpenedFor h (request :: outer) trap haas ∧
        ∀ e' ∈ e :: l, e'.before.context.Pairs trap haas

/-- A channel to the backend is opened. -/
def Entry.Opens (e : Entry) : Prop :=
  (match e.action with
    | .returned (.openSession _) => true
    | _ => false) = true ∧ e.answer = sshOk

instance (e : Entry) : Decidable e.Opens := inferInstanceAs (Decidable (_ = true ∧ _ = _))

/-- A request arrives before the context has a channel, and the backend opens no channel
for a request that arrived while another one was being handled. -/
def Timely (h : List Entry) (e : Entry) : Prop :=
  (e.action = .enter .newChannel → e.before.context.trapChannel = none) ∧
    (e.Opens → (handling h).length ≤ 1)

instance (h : List Entry) (e : Entry) : Decidable (Timely h e) :=
  inferInstanceAs (Decidable ((_ → _ = _) ∧ (_ → _ ≤ _)))

/-! ## Logs that grow

The predicates about what happened during a request only look at the part of the log since
it arrived, so they survive when the log grows. -/

section Logs

variable {h l : List Entry} {pending : List Nat} {P : Entry → Prop}

/-- What happened while a request was being handled stays in the history. -/
theorem during_append (during : During h pending P) : During (h ++ l) pending P := by
  obtain ⟨h₀, e, h₁, split, now, holds⟩ := during
  refine ⟨h₀, e, h₁ ++ l, ?_, now, holds⟩
  rw [split, List.append_assoc, List.cons_append]

/-- An entry is logged while the requests that are pending now are. -/
theorem during_last {e : Entry} (now : handling h = pending) (holds : P e) :
    During (h ++ [e]) pending P := ⟨h, e, [], rfl, now, holds⟩

theorem during_mono {Q : Entry → Prop} (weaken : ∀ e, P e → Q e) (during : During h pending P) :
    During h pending Q := by
  obtain ⟨h₀, e, h₁, split, now, holds⟩ := during
  exact ⟨h₀, e, h₁, split, now, weaken e holds⟩

/-- The channels that were opened for a request stay so in a longer history. -/
private theorem openedFor_append {trap haas : ChannelId} (opened : OpenedFor h pending trap haas) :
    OpenedFor (h ++ l) pending trap haas where
  own := during_append opened.own
  backend := during_append opened.backend
  opened := during_append opened.opened

/-- If both channels were opened for a request, then in particular one was opened. -/
theorem opens_of_openedFor {trap haas : ChannelId}
    (opened : OpenedFor h pending trap haas) : During h pending Entry.Opens := by
  apply during_mono ?_ opened.opened
  intro e opens
  exact ⟨by rw [opens.1], opens.2⟩

/-- What is neither a request nor the end of one leaves them all pending. -/
theorem requests_append (r : Requests)
    (other : ∀ e ∈ l, e.action ≠ .enter .newChannel ∧ e.action ≠ .leave .newChannel) :
    l.foldl Requests.after r = r := by
  induction l generalizing r with
  | nil => rfl
  | cons e l ih =>
      obtain ⟨notEnter, notLeave⟩ := other e List.mem_cons_self
      have same : r.after e = r := by
        unfold Requests.after
        split
        · exact absurd ‹_› notEnter
        · exact absurd ‹_› notLeave
        · rfl
      rw [List.foldl_cons, same]
      exact ih r fun e mem => other e (List.mem_cons_of_mem _ mem)

/-- Only the beginning and the end of a request change which ones are being handled. -/
theorem handling_append
    (other : ∀ e ∈ l, e.action ≠ .enter .newChannel ∧ e.action ≠ .leave .newChannel) :
    handling (h ++ l) = handling h := by
  unfold handling
  rw [List.foldl_append, requests_append _ other]

/-- A request that arrives is handled in front of the others. -/
private theorem handling_enter {s : Proxy} {answer : Int} :
    ∃ request, handling (h ++ [⟨s, .enter .newChannel, answer⟩]) = request :: handling h := by
  unfold handling
  rw [List.foldl_append]
  exact ⟨_, rfl⟩

/-- A request that is answered is the one that arrived last. -/
theorem handling_leave {s : Proxy} {answer : Int} :
    handling (h ++ [⟨s, .leave .newChannel, answer⟩]) = (handling h).tail := by
  unfold handling
  rw [List.foldl_append]
  rfl

/-- What is returned in two stretches is what is returned in each, in that order. -/
theorem returnedChannels_append :
    returnedChannels (h ++ l) = returnedChannels h ++ returnedChannels l :=
  List.filterMap_append

end Logs

/-! ## What happens between two requests

Between the arrival of a request and its answer other requests may come, each of which is
answered first. The judgement says that the pending requests are the same at both ends,
and the session channels too unless one of them came. -/

/-- For a request that came while so many were pending a channel was opened. -/
def Nested (n : Nat) (h : List Entry) : Prop :=
  ∃ pending, n < pending.length ∧ During h pending Entry.Opens

/-- The requests that are pending, of which the last one has not put a channel into the
context. -/
structure Awaits (pending : List Nat) (h : List Entry) (s : Proxy) : Prop where
  now : handling h = pending
  /-- There is no session channel yet, unless a request came while this one was handled. -/
  unset : s.context.trapChannel = none ∨ Nested pending.length h

/-- The steps as far as the session channels are concerned: a stretch in which they stay
as they are, a request, the end of one, and the channels of a request going to the
context. -/
inductive Requesting : Steps Entry Proxy
  /-- A stretch in between. -/
  | plain {h l : List Entry} {s s' : Proxy}
      (other : ∀ e ∈ l, e.action ≠ .enter .newChannel ∧ e.action ≠ .leave .newChannel)
      (before : ∀ e ∈ l, SameChannels s e.before) (same : SameChannels s s') :
      Requesting h s l s'
  /-- A request arrives. -/
  | enter (h : List Entry) (s : Proxy) : Requesting h s [⟨s, .enter .newChannel, 0⟩] s
  /-- The last one that arrived returns, with the channel of the context. -/
  | leave {h : List Entry} {s : Proxy} {request : Nat} {outer : List Nat}
      (pending : handling h = request :: outer) :
      Requesting h s
        [⟨s, .leave .newChannel, s.context.trapChannel.elim 0 fun ch => (ch : Int) + 1⟩] s
  /-- The last one stores its channels. -/
  | adopt {h : List Entry} {s s' : Proxy} {request : Nat} {outer : List Nat}
      {trap haas : ChannelId} (awaits : Awaits (request :: outer) h s)
      (opened : OpenedFor h (request :: outer) trap haas) (pairs : s'.context.Pairs trap haas) :
      Requesting h s [] s'

/-- What a program leaves behind: the same requests are pending, and the session channels
are the same unless one was opened for a request that came while `n` were pending. -/
structure Leaves (n : Nat) (h : List Entry) (s : Proxy) (h' : List Entry) (s' : Proxy) : Prop where
  pending : handling h' = handling h
  /-- Only requests that came meanwhile change the session channels. -/
  channels : SameChannels s s' ∨ Nested n h'

/-- The program follows the steps, and leaves no request behind. -/
def Balanced (α : Type) (m _m' : ProxyM α) : Prop :=
  ∀ h s, Follows Requesting m h s fun _ h' s' => Leaves (handling h).length h s h' s'

section Balanced

variable {α β : Type} {n : Nat} {h h' l : List Entry} {s s' s'' : Proxy}

/-- A request that arrived within another one did so in a longer history as well. -/
theorem nested_append (nested : Nested n h) : Nested n (h ++ l) := by
  obtain ⟨pending, longer, during⟩ := nested
  exact ⟨pending, longer, during_append during⟩

/-- Deeper requests are nested in shallower ones too. -/
private theorem nested_mono {m : Nat} (le : m ≤ n) (nested : Nested n h) : Nested m h := by
  obtain ⟨pending, longer, during⟩ := nested
  exact ⟨pending, le.trans_lt longer, during⟩

namespace Leaves

/-- A program that leaves the channels of the session and the requests alone. -/
theorem of_same (pending : handling h' = handling h) (same : SameChannels s s') :
    Leaves n h s h' s' := ⟨pending, .inl same⟩

/-- What is true of deeper requests is true of shallower ones. -/
theorem mono {m : Nat} (le : m ≤ n) (left : Leaves n h s h' s') : Leaves m h s h' s' :=
  ⟨left.pending, left.channels.imp_right (nested_mono le)⟩

/-- One after the other. If the first one has changed the channels there was a request
within this one, and the history still says so. -/
theorem trans (first : Leaves n h s h' s') (next : Leaves n h' s' (h' ++ l) s'') :
    Leaves n h s (h' ++ l) s'' where
  pending := next.pending.trans first.pending
  channels := by
    rcases first.channels with same | nested
    · exact next.channels.imp_left same.trans
    · exact .inr (nested_append nested)

end Leaves

/-- A request awaits its channel as long as it gets none. -/
theorem Awaits.of_leaves {pending : List Nat} (awaits : Awaits pending h s)
    (left : Leaves (handling h).length h s (h ++ l) s') : Awaits pending (h ++ l) s' where
  now := left.pending.trans awaits.now
  unset := by
    rw [awaits.now] at left
    rcases left.channels with same | nested
    · rcases awaits.unset with unset | nested
      · exact .inl (same.trapChannel.trans unset)
      · exact .inr (nested_append nested)
    · exact .inr nested

/-- What is left behind by a program and one after it. -/
theorem follows_leaves_bind {i : Nat} {m : ProxyM α} {k : α → ProxyM β}
    {P : α → List Entry → Prop} (bound : n ≤ i)
    (first : Follows Requesting m h s fun a h' s' => Leaves i h s h' s' ∧ P a h')
    (next : ∀ a l s', Leaves i h s (h ++ l) s' → P a (h ++ l) →
      Follows Requesting (k a) (h ++ l) s' fun _ h'' s'' => Leaves n (h ++ l) s' h'' s'') :
    Follows Requesting (m >>= k) h s fun _ h' s' => Leaves n h s h' s' := by
  apply follows_bind first.path
  rintro a _ s' ⟨⟨left, post⟩, l, rfl, -⟩
  refine follows_mono (next a l s' left post).path ?_
  rintro b _ s'' ⟨left', l', rfl, -⟩
  exact (left.mono bound).trans left'

/-- A program that logs no requests and changes no channels leaves everything as it is. -/
theorem follows_plain {m : ProxyM α} (plain : Traced.Plain Own SameChannels m) :
    Follows Requesting m h s fun _ h' s' => Leaves n h s h' s' := by
  obtain ⟨entries, same⟩ := plain s
  have other (e : Entry) (mem : e ∈ (m s).log) :
      e.action ≠ .enter .newChannel ∧ e.action ≠ .leave .newChannel :=
    (entries e mem).own .newChannel
  refine ⟨.of_step (.plain other (fun e mem => (entries e mem).same) same), ?_⟩
  intro a _
  exact .of_same (handling_append other) same

/-- A program that is balanced, and one after it. -/
theorem follows_balanced_bind {m m' : ProxyM α} {k : α → ProxyM β}
    (bound : n ≤ (handling h).length) (first : Balanced α m m')
    (next : ∀ a l s', Leaves (handling h).length h s (h ++ l) s' →
      Follows Requesting (k a) (h ++ l) s' fun _ h'' s'' => Leaves n (h ++ l) s' h'' s'') :
    Follows Requesting (m >>= k) h s fun _ h' s' => Leaves n h s h' s' :=
  follows_leaves_bind (P := fun _ _ => True) bound
    (follows_mono (first h s) fun _ _ _ left => ⟨left, trivial⟩)
    fun a l s' left _ => next a l s' left

/-- A program in which requests come and go in pairs is a congruence, so all that is
built of such programs is one. -/
theorem congruence_balanced : Congruence Own SameChannels Balanced where
  refl := .refl
  trans _ _ _ := .trans
  plain plain _ _ := follows_plain plain
  bind first next h s := by
    apply follows_balanced_bind le_rfl first
    intro a l s' left
    rw [← left.pending]
    exact next a (h ++ l) s'

/-- And it does not look at whether sessions block. Hence every function of the proxy is
balanced, by what `Uniform` says. -/
theorem uniform_balanced : Uniform Own SameChannels Balanced :=
  uniform_of_congruence congruence_balanced

/-- A callback other than a request. -/
theorem balanced_logged {cb : Callback} {m m' : ProxyM Int} (other : cb ≠ .newChannel)
    (first : Balanced Int m m') : Balanced Int (logged cb m) (logged cb m') := by
  have told {action : Interaction} {back : Int}
      (quiet : action ≠ .enter .newChannel ∧ action ≠ .leave .newChannel) :
      Balanced Unit (tell fun s => ⟨s, action, back⟩) (tell fun s => ⟨s, action, back⟩) := by
    intro h s
    refine follows_tell (.plain ?_ ?_ (.refl s)) (.of_same (handling_append ?_) ?_)
    · simpa using quiet
    · simp [SameChannels.refl]
    · simpa using quiet
    · exact .refl s
  apply uniform_balanced.bind (told ⟨by simpa using other, by simp⟩)
  intro _
  apply uniform_balanced.bind first
  intro back
  apply uniform_balanced.bind (told ⟨by simp, by simpa using other⟩)
  intro _
  exact uniform_balanced.pure back

end Balanced

/-! ## A request

From the channel to the backend to the callback, with any requests in between. -/

theorem sameChannels_tock (s : Proxy) : SameChannels s s.tock := ⟨rfl, rfl, rfl⟩

section Request

variable {w : World} {dispatch dispatch' : Nat → ProxyM Unit} {h : List Entry} {s : Proxy}
  {request : Nat} {outer : List Nat}

/-- A channel is obtained for the last request. -/
theorem requesting_newChannel {session : Option SessionId} :
    Follows Requesting (sshChannelNew w dispatch session) h s fun ch h' s' =>
      Leaves (handling h).length h s h' s' ∧ ∀ ch', ch = some ch' →
        During h' (handling h) fun e => e.NewChannel session ch' ∧ e.before.context = s.context := by
  cases session with
  | none => exact follows_pure ⟨.of_same rfl (.refl s), by simp⟩
  | some id =>
      have quiet : ¬ (Call.channelNew id).Dispatches := fun no => no
      have run : obtainBy w dispatch (.channelNew id) id s =
          ⟨[⟨s.tock, .call (.channelNew id), w.answer s.tick⟩],
            if w.answer s.tick = sshOk then s.tock.obtain id else s.tock,
            .ok (if w.answer s.tick = sshOk then some s.channels.next else none)⟩ := by
        unfold obtainBy
        rw [bind_of_ok (show gets (fun s : Proxy => s.channels.next) s =
          ⟨[], s, .ok s.channels.next⟩ from rfl), bind_of_ok (run_callWith quiet)]
        rfl
      have other : ∀ e ∈ [(⟨s.tock, .call (.channelNew id), w.answer s.tick⟩ : Entry)],
          e.action ≠ .enter .newChannel ∧ e.action ≠ .leave .newChannel := by simp
      have same : SameChannels s
          (if w.answer s.tick = sshOk then s.tock.obtain id else s.tock) := by
        split <;> exact ⟨rfl, rfl, rfl⟩
      refine follows_run run (.plain other ?_ same) ⟨.of_same (handling_append other) same, ?_⟩
      · intro e mem
        obtain rfl := List.mem_singleton.mp mem
        exact ⟨rfl, rfl, rfl⟩
      · intro ch' got
        by_cases granted : w.answer s.tick = sshOk
        · rw [if_pos granted] at got
          exact during_last rfl ⟨⟨id, rfl, rfl, granted, Option.some.inj got⟩, rfl⟩
        · rw [if_neg granted] at got
          cases got

variable (nested : ∀ t, Balanced Unit (dispatch t) (dispatch' t))

include nested

/-- A channel is opened for the last request, whatever happens meanwhile. -/
theorem requesting_openSession {ch : ChannelId} :
    Follows Requesting (call w dispatch (.openSession ch)) h s fun i h' s' =>
      Leaves (handling h).length h s h' s' ∧ (i = sshOk →
        During h' (handling h) fun e => e.action = .returned (.openSession ch) ∧ e.answer = sshOk) := by
  let called : Entry := ⟨s.tock, .call (.openSession ch), w.answer s.tick⟩
  have plain : Requesting h s [called] s.tock :=
    .plain (by simp [called]) (by simp [called, sameChannels_tock]) (sameChannels_tock s)
  have left : Leaves (handling h).length h s (h ++ [called]) s.tock :=
    .of_same (handling_append (by simp [called])) (sameChannels_tock s)
  have ticked : nextTick s = ⟨[], s.tock, .ok s.tick⟩ := rfl
  have took : (modify fun s => s : ProxyM Unit) s.tock = ⟨[], s.tock, .ok ()⟩ := rfl
  have told : (tell fun s' => ⟨s', .call (.openSession ch), w.answer s.tick⟩ : ProxyM Unit) s.tock =
      ⟨[called], s.tock, .ok ()⟩ := rfl
  refine follows_of_amid (amid_bind ticked (amid_bind told (amid_bind took (amid_step plain ?_))))
  show Follows Requesting _ (h ++ [called]) s.tock _
  refine follows_bind (P := fun _ h' s' => Leaves (handling h).length h s h' s' ∧
    (w.answer s.tick = sshOk → During h' (handling h) fun e =>
      e.action = .returned (.openSession ch) ∧ e.answer = sshOk))
    (follows_when (fun _ => ?_) fun no => absurd trivial no) fun _ _ _ post => follows_pure post
  refine follows_bind (nested s.tick _ s.tock).path ?_
  rintro _ _ s' ⟨left', l, rfl, -⟩
  rw [left.pending] at left'
  have all := left.trans left'
  have other : ∀ e ∈ [(⟨s', .returned (.openSession ch), w.answer s.tick⟩ : Entry)],
      e.action ≠ .enter .newChannel ∧ e.action ≠ .leave .newChannel := by simp
  refine follows_tell (.plain other (by simp [SameChannels.refl]) (.refl s')) ⟨?_, ?_⟩
  · exact all.trans (.of_same (handling_append other) (.refl s'))
  · intro ok
    exact during_last all.pending ⟨rfl, ok⟩

/-- **The channels of a request**: those that go to the context are its own. -/
theorem requesting_openBackend {trap : ChannelId} (awaits : Awaits (request :: outer) h s)
    (own : During h (request :: outer) fun e =>
      e.NewChannel (some e.before.context.trapSession) trap) :
    Follows Requesting (openBackend w dispatch trap) h s fun _ h' s' =>
      Leaves outer.length h s h' s' := by
  -- outer) h' s') : :: whatever comes while the request is pending is a request within it
  have deeper {h' : List Entry} {s' : Proxy} (awaits : Awaits (request :: outer) h' s') :
      outer.length ≤ (handling h').length := by
    rw [awaits.now]
    exact Nat.le_succ _
  have closes (ch : ChannelId) : Balanced Unit (closeUnused w dispatch (fun c => c.haasSession) ch)
      (closeUnused (w.withMode true 0) dispatch' (fun c => c.haasSession) ch) :=
    related_closeUnused uniform_balanced nested ofSessions_haasSession
  have sets (ch : ChannelId) (table : ChannelCallbacks) :
      Balanced Unit (sshSetChannelCallbacks w dispatch (some ch) table)
        (sshSetChannelCallbacks (w.withMode true 0) dispatch' (some ch) table) :=
    related_sshSetChannelCallbacks uniform_balanced nested
  apply follows_get_bind
  apply follows_leaves_bind (deeper awaits) requesting_newChannel
  intro haasChannel l s₁ left backend
  have awaits₁ := awaits.of_leaves left
  cases haasChannel with
  | none => exact follows_pure (.of_same rfl (.refl s₁))
  | some haas =>
      have backend := backend haas rfl
      apply follows_leaves_bind (deeper awaits₁) (requesting_openSession nested)
      intro i l₂ s₂ left₂ opened
      have awaits₂ := awaits₁.of_leaves left₂
      apply follows_ite
      · intro _
        apply follows_balanced_bind (deeper awaits₂) (closes haas)
        intro _ l₃ s₃ left₃
        exact follows_pure (.of_same rfl (.refl s₃))
      · intro ok
        have opened := opened (not_not.mp ok)
        apply follows_balanced_bind (deeper awaits₂) (sets trap .trapChannelCB)
        intro _ l₃ s₃ left₃
        have awaits₃ := awaits₂.of_leaves left₃
        apply follows_balanced_bind (deeper awaits₃) (sets haas .haasChannelCB)
        intro _ l₄ s₄ left₄
        have awaits₄ := awaits₃.of_leaves left₄
        rw [awaits.now] at backend
        rw [awaits₁.now] at opened
        -- what was obtained on the way was obtained while this request was the last one
        have all : OpenedFor (h ++ l ++ l₂ ++ l₃ ++ l₄) (request :: outer) trap haas :=
          { own := during_append (during_append (during_append (during_append own)))
            backend := by
              refine during_append (during_append (during_append (during_mono ?_ backend)))
              intro e made
              rw [made.2]
              exact made.1
            opened := during_append (during_append opened) }
        refine follows_bind (follows_modify (.adopt awaits₄ all ⟨rfl, rfl⟩) ?_)
          fun _ _ _ left => follows_pure left
        exact ⟨rfl, .inr ⟨request :: outer, Nat.lt_succ_self _, opens_of_openedFor all⟩⟩

/-- **One request**: what it returns is the client's channel in the context at its end.
The channels that were there at first are still there, or a request within this one, or
this one itself, has changed them. -/
theorem requesting_trapNewChannel (now : handling h = request :: outer) :
    Follows Requesting (trapNewChannel w dispatch) h s fun ch h' s' =>
      Leaves outer.length h s h' s' ∧ ch = s'.context.trapChannel := by
  have closes (ch : ChannelId) :
      Balanced Unit (closeUnused w dispatch (fun c => some c.trapSession) ch)
        (closeUnused (w.withMode true 0) dispatch' (fun c => some c.trapSession) ch) :=
    related_closeUnused uniform_balanced nested ofSessions_trapSession
  have deeper : outer.length ≤ (handling h).length := by
    rw [now]
    exact Nat.le_succ _
  apply follows_get_bind
  refine follows_bind (P := fun _ h' s' => Leaves outer.length h s h' s') ?_ ?_
  · apply follows_when
    · intro unset
      -- outer) h s := ⟨now, .inl unset⟩ :: only without a session channel anything is opened
      have awaits : Awaits (request :: outer) h s := ⟨now, .inl unset⟩
      apply follows_leaves_bind deeper requesting_newChannel
      intro trapChannel l s₁ left own
      cases trapChannel with
      | none => exact follows_pure (.of_same rfl (.refl s₁))
      | some trap =>
          have own : During (h ++ l) (request :: outer) fun e =>
              e.NewChannel (some e.before.context.trapSession) trap := by
            rw [← now]
            refine during_mono ?_ (own trap rfl)
            intro e made
            rw [made.2]
            exact made.1
          refine follows_leaves_bind (P := fun _ _ => True) le_rfl
            (follows_mono (requesting_openBackend nested (awaits.of_leaves left) own)
              fun _ _ _ left => ⟨left, trivial⟩) ?_
          intro kept l₂ s₂ left₂ _
          apply follows_when
          · intro _
            refine follows_mono (closes trap _ s₂) fun _ _ _ left₃ => left₃.mono ?_
            rw [left₂.pending, left.pending]
            exact deeper
          · intro _
            exact .of_same rfl (.refl s₂)
    · intro _
      exact .of_same rfl (.refl s)
  · intro _ h' s' left
    apply follows_get_bind
    -- what is answered is the channel that the context has by now
    have run : idleTimerReset w s' = ⟨[], s'.idled w, .ok ()⟩ := rfl
    have same : SameChannels s' (s'.idled w) := ⟨rfl, rfl, rfl⟩
    refine follows_path_bind run (.of_step (.plain (by simp) (by simp) same)) ?_
    rw [List.append_nil]
    exact follows_pure ⟨⟨left.pending, left.channels.imp_left fun first => first.trans same⟩, rfl⟩

/-- **A request**, with what is logged when it arrives and when it returns. -/
theorem balanced_newChannel {foreground : Bool} {debugLevel : Int} :
    Balanced Unit (deliver w dispatch .newChannel)
      (deliver (w.withMode foreground debugLevel) dispatch' .newChannel) := by
  intro h s
  obtain ⟨request, arrived⟩ : ∃ request,
      handling (h ++ [⟨s, .enter .newChannel, 0⟩]) = request :: handling h := handling_enter
  refine follows_bind (P := fun _ h' s' => Leaves (handling h).length h s h' s') ?_
    fun _ _ _ left => follows_pure left
  refine follows_bind (P := fun _ h' s' => h' = h ++ [⟨s, .enter .newChannel, 0⟩] ∧ s = s')
    (follows_tell (.enter h s) ⟨rfl, rfl⟩) ?_
  rintro _ _ _ ⟨rfl, rfl⟩
  refine follows_bind (P := fun back h' s' => Leaves (handling h).length
    (h ++ [⟨s, .enter .newChannel, 0⟩]) s h' s' ∧
      back = s'.context.trapChannel.elim 0 fun ch => (ch : Int) + 1) ?_ ?_
  · apply follows_bind (requesting_trapNewChannel nested arrived)
    rintro ch h' s' ⟨left, rfl⟩
    exact follows_pure ⟨left, rfl⟩
  · rintro _ h' s' ⟨left, rfl⟩
    have now : handling h' = request :: handling h := left.pending.trans arrived
    refine follows_bind (follows_tell (.leave now) ?_) fun _ _ _ left => follows_pure left
    refine ⟨?_, left.channels.imp_right nested_append⟩
    rw [handling_leave, now, List.tail_cons]

end Request

/-! ## Runs

`Given` says what has become of the requests so far. The condition allows for one request
that is given a pair of channels, and those are what the context holds afterwards. -/

/-- What is left to congruences is balanced where the dispatchers are. -/
theorem related_balanced {w : World} {dispatch dispatch' : Nat → ProxyM Unit}
    (nested : ∀ t, Balanced Unit (dispatch t) (dispatch' t)) :
    Related Balanced w w.config.foreground w.config.debugLevel dispatch dispatch' where
  nested := nested
  login _ _ := related_haasConnect uniform_balanced nested rfl fun _ =>
    congruence_balanced.modify fun _ => ⟨rfl, rfl, rfl⟩
  write := related_writeNonblocking congruence_balanced nested
  newChannel := balanced_newChannel nested
  data _ _ _ := related_deliverChannel uniform_balanced nested
    (related_writeNonblocking congruence_balanced nested) fun _ _ => balanced_logged (by simp)
  logged cb m m' usual := balanced_logged (by rintro rfl; cases usual)

/-- A run is a path of requests. -/
theorem requesting_proxyRun (w : World) (fuel depth : Nat) :
    Path Requesting [] Proxy.initial (proxyRun w fuel depth).log (proxyRun w fuel depth).state := by
  have nested (t : Nat) : Balanced Unit (dispatchWithin w depth t) (dispatchWithin w depth t) :=
    related_dispatchWithin uniform_balanced (fun _ _ nested => related_balanced nested) depth t
  have balanced : Balanced Unit (proxyProcess w (dispatchWithin w depth) fuel)
      (proxyProcess (w.withMode true 0) (dispatchWithin w depth) fuel) :=
    related_proxyProcess uniform_balanced nested
  exact (balanced [] Proxy.initial).1

section Own

variable {h l : List Entry} {s s' : Proxy}

/-- Where no request is answered with a channel, none is returned. -/
theorem returnedChannels_quiet (quiet : ∀ e ∈ l, e.action ≠ .leave .newChannel ∨ e.answer = 0) :
    returnedChannels l = [] := by
  apply List.filterMap_eq_nil_iff.mpr
  intro e mem
  apply if_neg
  rintro ⟨leave, returned⟩
  rcases quiet e mem with other | null
  · exact other leave
  · exact returned null

/-- The answer of a request is one of the channels that were returned. -/
theorem mem_returnedChannels {e : Entry} (mem : e ∈ h) (leave : e.action = .leave .newChannel)
    (returned : e.answer ≠ 0) : e.answer ∈ returnedChannels h :=
  List.mem_filterMap.mpr ⟨e, mem, if_pos ⟨leave, returned⟩⟩

/-- A single request has returned with a channel, which is its own. -/
structure Returned (h : List Entry) (c : Context) (trap haas : ChannelId) (h₀ : List Entry)
    (e : Entry) (h₁ : List Entry) (request : Nat) : Prop where
  split : h = h₀ ++ e :: h₁
  leave : e.action = .leave .newChannel
  answer : e.answer = (trap : Int) + 1
  now : handling h₀ = [request]
  opened : OpenedFor h₀ [request] trap haas
  paired : ∀ e' ∈ e :: h₁, e'.before.context.Pairs trap haas
  pairs : c.Pairs trap haas
  before : returnedChannels h₀ = []
  after : returnedChannels h₁ = []

/-- What has become of the requests: none was given a channel, or the only one that is
pending was, or a single one was that has returned. -/
inductive Given (h : List Entry) (s : Proxy) : Prop
  /-- No channel was given away. -/
  | none (unset : s.context.trapChannel = none) (returned : returnedChannels h = [])
  /-- The channel is in the context, and the request has not returned. -/
  | pending {request : Nat} {trap haas : ChannelId} (now : handling h = [request])
      (opened : OpenedFor h [request] trap haas) (pairs : s.context.Pairs trap haas)
      (returned : returnedChannels h = [])
  /-- It has. -/
  | returned {trap haas : ChannelId} {h₀ h₁ : List Entry} {e : Entry} {request : Nat}
      (returned : Returned h s.context trap haas h₀ e h₁ request) (idle : handling h = [])

theorem pairs_of_same {trap haas : ChannelId} (same : SameChannels s s')
    (pairs : s.context.Pairs trap haas) : s'.context.Pairs trap haas :=
  ⟨same.trapChannel.trans pairs.1, same.haasChannel.trans pairs.2⟩

/-- No channel is opened for a request that came while another one was pending. -/
theorem length_le_one {pending : List Nat} (timely : Throughout Timely h)
    (opened : During h pending Entry.Opens) : pending.length ≤ 1 := by
  obtain ⟨h₀, e, h₁, split, rfl, opens⟩ := opened
  exact (timely h₀ e h₁ split).2 opens

/-- The invariant survives whatever is not about requests. -/
private theorem given_plain (given : Given h s)
    (other : ∀ e ∈ l, e.action ≠ .enter .newChannel ∧ e.action ≠ .leave .newChannel)
    (before : ∀ e ∈ l, SameChannels s e.before) (same : SameChannels s s') :
    Given (h ++ l) s' := by
  have quiet : returnedChannels l = [] := returnedChannels_quiet fun e mem => .inl (other e mem).2
  have pending : handling (h ++ l) = handling h := handling_append other
  cases given with
  | none unset returned =>
      refine .none (same.trapChannel.trans unset) ?_
      rw [returnedChannels_append, returned, quiet, List.append_nil]
  | pending now opened pairs returned =>
      refine .pending (pending.trans now) (openedFor_append opened) (pairs_of_same same pairs) ?_
      rw [returnedChannels_append, returned, quiet, List.append_nil]
  | @returned trap haas h₀ h₁ e request returned idle =>
      have all : Returned (h ++ l) s'.context trap haas h₀ e (h₁ ++ l) request :=
        { split := by rw [returned.split, List.append_assoc, List.cons_append]
          leave := returned.leave
          answer := returned.answer
          now := returned.now
          opened := returned.opened
          paired := by
            intro e' mem
            rcases List.mem_append.mp (List.cons_append ▸ mem) with mem | mem
            · exact returned.paired e' mem
            · exact pairs_of_same (before e' mem) returned.pairs
          pairs := pairs_of_same same returned.pairs
          before := returned.before
          after := by rw [returnedChannels_append, returned.after, quiet, List.append_nil] }
      exact .returned all (pending.trans idle)

/-- Two places of a list: they are the same, or one is before the other. -/
private theorem eq_or_of_split {α : Type} {l₁ l₂ l₁' l₂' : List α} {a b : α}
    (split : l₁ ++ a :: l₂ = l₁' ++ b :: l₂') :
    (l₁ = l₁' ∧ a = b ∧ l₂ = l₂') ∨ b ∈ l₁ ∨ b ∈ l₂ := by
  rcases List.append_eq_append_iff.mp split with ⟨middle, rfl, eq⟩ | ⟨middle, rfl, eq⟩
  · cases middle with
    | nil =>
        obtain ⟨rfl, rfl⟩ := List.cons.inj eq
        exact .inl ⟨(List.append_nil l₁).symm, rfl, rfl⟩
    | cons x middle =>
        obtain ⟨rfl, rfl⟩ := List.cons.inj eq
        exact .inr (.inr (List.mem_append_right _ List.mem_cons_self))
  · cases middle with
    | nil =>
        obtain ⟨rfl, rfl⟩ := List.cons.inj eq
        exact .inl ⟨List.append_nil l₁', rfl, rfl⟩
    | cons x middle =>
        obtain ⟨rfl, rfl⟩ := List.cons.inj eq
        exact .inr (.inl (List.mem_append_right _ List.mem_cons_self))

/-- **One step.** -/
theorem given_step (given : Given h s) (timely : Throughout Timely (h ++ l))
    (step : Requesting h s l s') : Given (h ++ l) s' := by
  cases step with
  | plain other before same => exact given_plain given other before same
  -- a request comes only while there is no session channel
  | enter =>
      have unset : s.context.trapChannel = none := (timely h _ [] rfl).1 rfl
      cases given with
      | none _ returned =>
          refine .none unset ?_
          rw [returnedChannels_append, returned, returnedChannels_quiet (by simp), List.append_nil]
      | pending _ _ pairs _ => cases unset.symm.trans pairs.1
      | returned returned _ => cases unset.symm.trans returned.pairs.1
  | leave pending =>
      cases given with
      | none unset returned =>
          refine .none unset ?_
          rw [returnedChannels_append, returned, returnedChannels_quiet (by simp [unset]),
            List.append_nil]
      | @pending request trap haas now opened pairs returned =>
          let e : Entry :=
            ⟨s, .leave .newChannel, s.context.trapChannel.elim 0 fun ch => (ch : Int) + 1⟩
          have answer : e.answer = (trap : Int) + 1 := by
            show s.context.trapChannel.elim 0 _ = _
            rw [pairs.1, Option.elim_some]
          have paired : ∀ e' ∈ [e], e'.before.context.Pairs trap haas := by
            simpa [e] using pairs
          have all : Returned (h ++ [e]) s.context trap haas h e [] request :=
            ⟨rfl, rfl, answer, now, opened, paired, pairs, returned, rfl⟩
          refine .returned all ?_
          rw [handling_leave, now, List.tail_cons]
      | returned _ idle => cases idle.symm.trans pending
  -- the channels of a request that is the only one, since the backend opened one for it
  | @adopt _ _ _ request outer trap haas awaits opened pairs =>
      rw [List.append_nil] at timely ⊢
      cases given with
      | none unset returned =>
          obtain rfl : outer = [] := by
            have alone : outer.length + 1 ≤ 1 := length_le_one timely (opens_of_openedFor opened)
            exact List.length_eq_zero_iff.mp (by omega)
          exact .pending awaits.now opened pairs returned
      | pending _ _ pairs' _ =>
          rcases awaits.unset with unset | ⟨pending, longer, during⟩
          · cases unset.symm.trans pairs'.1
          · have alone := length_le_one timely during
            rw [List.length_cons] at longer
            omega
      | returned _ idle => cases idle.symm.trans awaits.now

/-- Every request has its own channel, whatever has become of it. -/
theorem ownChannels_of_given (given : Given h s) : OwnChannels h := by
  have nothing (returned : returnedChannels h = []) : OwnChannels h := by
    refine ⟨returned ▸ List.nodup_nil, ?_⟩
    intro h₀ e l split leave answer
    have mem := mem_returnedChannels (split ▸ List.mem_append_right h₀ List.mem_cons_self) leave answer
    rw [returned] at mem
    cases mem
  cases given with
  | none _ returned => exact nothing returned
  | pending _ _ _ returned => exact nothing returned
  | @returned trap haas h₀ h₁ e request returned _ =>
      have nonzero : e.answer ≠ 0 := by
        rw [returned.answer]
        omega
      have own : returnedChannels h = [e.answer] := by
        rw [returned.split, returnedChannels_append, returned.before]
        show returnedChannels ([e] ++ h₁) = _
        rw [returnedChannels_append, returned.after]
        simp [returnedChannels, returned.leave, nonzero]
      refine ⟨own ▸ List.pairwise_singleton _ _, ?_⟩
      intro h' e' l' split leave answer
      rcases eq_or_of_split (returned.split.symm.trans split) with ⟨rfl, rfl, rfl⟩ | mem | mem
      · exact ⟨request, [], returned.now, trap, haas, returned.answer, returned.opened,
          returned.paired⟩
      · have mem := mem_returnedChannels mem leave answer
        rw [returned.before] at mem
        cases mem
      · have mem := mem_returnedChannels mem leave answer
        rw [returned.after] at mem
        cases mem

end Own

/-- **Every request gets its own channel** in runs in which none arrives once the
context has a channel, and in which the backend opens no channel for one that arrived
while another one was being handled. `TrapNewChannel` stores over what is in the
context, and answers with what is stored there at the end; so with a second request
either two share a channel, or one that was answered has lost that of the backend. -/
theorem ownChannels_of_timely (w : World) (fuel depth : Nat)
    (timely : Throughout Timely (proxyRun w fuel depth).log) :
    OwnChannels (proxyRun w fuel depth).log := by
  have given := (requesting_proxyRun w fuel depth).inv
    (I := fun h s => Throughout Timely h → Given h s)
    (fun h s l s' given step timely =>
      given_step (given (throughout_of_append timely)) timely step)
    fun _ => .none rfl rfl
  exact ownChannels_of_given (given timely)

/-- A client whose first two requests come to nothing: the backend refuses the channel of
the first one, and while it does another request arrives and is refused as well. -/
def thirdRequest : World :=
  .scripted .fake [(12, 2), (17, -1), (20, -1), (38, -1)]
    [(5, loginAndChannel ++ [.newChannel]), (17, [.newChannel])]

/-- The condition is met by a run with three requests, one of which gets a
channel. -/
theorem ownChannels_thirdRequest : OwnChannels (proxyRun thirdRequest 3 2).log ∧
    returnedChannels (proxyRun thirdRequest 3 2).log = [5] :=
  ⟨ownChannels_of_timely thirdRequest 3 2 (by decide +kernel), by decide +kernel⟩

/-- A client that asks for a second session channel. -/
def secondChannel : World := .scripted .fake [(12, 2)] [(5, loginAndChannel ++ [.newChannel])]

/-- Both requests are given the same channel. -/
theorem secondChannel_shared :
    returnedChannels (proxyRun secondChannel 1 1).log = [1, 1] ∧
      ¬ OwnChannels (proxyRun secondChannel 1 1).log := by
  have returned : returnedChannels (proxyRun secondChannel 1 1).log = [1, 1] := by decide +kernel
  refine ⟨returned, ?_⟩
  intro own
  have distinct := own.distinct
  rw [returned] at distinct
  exact absurd distinct (by decide)

end HaasProxy
