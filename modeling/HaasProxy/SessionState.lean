import HaasProxy.Transitions.Inversion

/-!
# The state of a session

Seven fields of the context are written by five callbacks, and none of these
tests what the others have written.  `Context.Consistent` says how the fields hang
together in spite of that: through null pointers that are passed on, and through
the order of the assignments.

A terminal and a shell are requested until one request is granted.  While
callbacks come one after another the flags of the context count the requests that
were granted.

## Main definitions and results

* `Context.Consistent` — what the fields say about each other;
* `kept_advance` — every step keeps the context consistent, and the session of the backend;
* `tallied_advance` — the flags count, while callbacks do not nest;
* `sessionState_proxyRun` — both, for whole runs.

## Design notes

**Why it is consistent.**  A session channel of the client is accepted only behind a channel of
the backend, and `ssh_channel_new` of a null session answers a null channel.  So the code that
never tests `Authenticated` before it opens a channel is right all the same.  The
invariant needs what the step `Change.adopt` says of the history: both channels were
obtained from the sessions that the context had then.  That these are still there is
`Kept.stays`.

**Counting grants.**  The flag is tested, the request is made, and the flag is set if it was
granted.  libssh may make callbacks during the request, and a second request would pass the
same test.  So the count is exact only while callbacks do not nest, where all three are one
step (`Change.once`).

**A new channel has no grants.**  The flags are not reset when the session channels are
adopted.  `Tallied.present` says that none was set before, and while callbacks come one
after another channels are adopted once.
-/

namespace HaasProxy

/-! ## What is to hold

Of the fields of a context, and of a log. -/

/-- What the fields of a context say about each other. -/
structure Context.Consistent (c : Context) : Prop where
  /-- A session of the backend is there exactly behind a login. -/
  authenticated : c.authenticated = true ↔ c.haasSession ≠ none
  /-- The session channels come together. -/
  channels : c.trapChannel ≠ none ↔ c.haasChannel ≠ none
  /-- They are there only with a session of the backend. -/
  session : c.haasChannel ≠ none → c.haasSession ≠ none

/-- The backend has accepted a password on its session. -/
def Vouched (h : List Entry) (c : Context) : Prop :=
  ∀ session, c.haasSession = some session →
    ∃ e ∈ h, (∃ password, e.action = .call (.userauthPassword session password)) ∧
      e.answer = sshAuthSuccess

/-- What is granted to a session channel once. -/
inductive Facility where
  /-- Recorded in `HavePty`. -/
  | terminal
  /-- Recorded in `HaveShell`. -/
  | shell
  deriving DecidableEq

/-- `HavePty` and `HaveShell`. -/
def Facility.Present (f : Facility) (c : Context) : Prop :=
  match f with
  | .terminal => c.havePty = true
  | .shell => c.haveShell = true

/-- The request an entry is, if it is one. -/
def Entry.request (e : Entry) : Option (Facility × ChannelId) :=
  match e.action with
  | .call (.requestPtySize ch ..) => some (.terminal, ch)
  | .call (.requestShell ch) => some (.shell, ch)
  | _ => none

/-- The requests for a facility that were granted on a channel. -/
def grants (h : List Entry) (f : Facility) (ch : ChannelId) : Nat :=
  h.countP fun e => e.request = some (f, ch) ∧ e.answer = sshOk

/-! ## The fields of the context

The step lemma goes by `recontext`: what happened to the context, in eleven cases. -/

section Consistent

variable {w : World} {serial : Prop} {h l : List Entry} {s s' t : Proxy}

/-- The invariant: the session of the backend, once it is there, stays. -/
structure Kept (h : List Entry) (s : Proxy) : Prop where
  consistent : s.context.Consistent
  /-- The login is in the history. -/
  vouched : Vouched h s.context
  /-- The session of the backend does not go away. -/
  stays : ∀ e ∈ h, e.before.context.haasSession ≠ none → s.context.haasSession ≠ none
  /-- The second loop runs with a session channel only. -/
  relay : s.stage = .relay → s.context.trapChannel ≠ none

/-- What the history vouches for, a longer one does. -/
theorem Vouched.mono {c : Context} (vouched : Vouched h c) : Vouched (h ++ l) c := by
  intro session set
  obtain ⟨e, mem, login⟩ := vouched session set
  exact ⟨e, List.mem_append_left l mem, login⟩

/-- A grant touches none of the fields that say which sessions and channels there are. -/
theorem OnceRequest.fields_grant (r : OnceRequest) (c : Context) :
    (r.grant c).haasSession = c.haasSession ∧ (r.grant c).trapChannel = c.trapChannel ∧
      (r.grant c).haasChannel = c.haasChannel ∧ (r.grant c).authenticated = c.authenticated := by
  cases r <;> exact ⟨rfl, rfl, rfl, rfl⟩

/-- Contexts that agree on four fields are consistent together. -/
theorem Context.Consistent.of_same {c c' : Context} (consistent : c.Consistent)
    (same : c'.haasSession = c.haasSession ∧ c'.trapChannel = c.trapChannel ∧
      c'.haasChannel = c.haasChannel ∧ c'.authenticated = c.authenticated) : c'.Consistent := by
  obtain ⟨haasSession, trapChannel, haasChannel, authenticated⟩ := same
  refine ⟨?_, ?_, ?_⟩
  · rw [authenticated, haasSession]
    exact consistent.authenticated
  · rw [trapChannel, haasChannel]
    exact consistent.channels
  · rw [haasChannel, haasSession]
    exact consistent.session

/-- The loop of the relay is entered with the client's channel only. -/
private theorem relay_of_advance (advance : Advance w serial h s l s') (relay : s'.stage = .relay) :
    s.stage = .relay ∨ s.context.trapChannel ≠ none ∧ s'.context = s.context := by
  cases advance with
  | change change => exact .inl ((stage_of_change change).symm.trans relay)
  | login | teardown => cases relay
  | relay _ _ here serving trapChannel => exact .inr ⟨trapChannel, rfl⟩
  | _ => exact .inl relay

/-- No step takes the client's channel out of the context. -/
private theorem trapChannel_of_advance (advance : Advance w serial h s l s')
    (set : s.context.trapChannel ≠ none) : s'.context.trapChannel ≠ none := by
  cases recontext advance with
  | grant _ r eq | once r _ _ eq =>
      rw [eq, (r.fields_grant s.context).2.1]
      exact set
  | adopt trapChannel haasChannel obtained eq =>
      rw [eq]
      exact Option.some_ne_none _
  | same eq | idle _ _ _ eq | limit eq | closed eq | failed _ eq | error eq
  | loggedIn _ _ _ _ eq | pool _ eq =>
      rw [eq]
      exact set

/-- What a step may do to the session of the backend, to the channels, and to
`Authenticated`. -/
theorem fields_of_advance (kept : Kept h s) (advance : Advance w serial h s l s') :
    s'.context.Consistent ∧ Vouched h s'.context ∧
      (s.context.haasSession ≠ none → s'.context.haasSession ≠ none) := by
  have unchanged {c : Context} (same : c.haasSession = s.context.haasSession ∧
      c.trapChannel = s.context.trapChannel ∧ c.haasChannel = s.context.haasChannel ∧
      c.authenticated = s.context.authenticated) : c.Consistent ∧ Vouched h c ∧
        (s.context.haasSession ≠ none → c.haasSession ≠ none) := by
    refine ⟨kept.consistent.of_same same, ?_, ?_⟩
    · unfold Vouched
      rw [same.1]
      exact kept.vouched
    · rw [same.1]
      exact fun set => set
  cases recontext advance with
  | grant _ r eq | once r _ _ eq =>
      rw [eq]
      exact unchanged (r.fields_grant s.context)
  | loggedIn session attempted obtained accepted eq =>
      rw [eq]
      refine ⟨⟨?_, kept.consistent.channels, fun _ => Option.some_ne_none _⟩, ?_,
        fun _ => Option.some_ne_none _⟩
      · exact ⟨fun _ => Option.some_ne_none _, fun _ => rfl⟩
      · rintro _ ⟨⟩
        obtain ⟨e, mem, password, answer, -⟩ := accepted
        exact ⟨e, mem, password, answer⟩
  | adopt trapChannel haasChannel obtained eq =>
      -- `ssh_channel_new` was called for the session, which has stayed since
      have set : s.context.haasSession ≠ none := by
        obtain ⟨-, -, e, mem, session, -, -, -, -, -, -, -, set, -⟩ := obtained
        refine kept.stays e mem ?_
        rw [set]
        exact Option.some_ne_none _
      rw [eq]
      refine ⟨⟨kept.consistent.authenticated, ?_, fun _ => set⟩, kept.vouched, fun set => set⟩
      exact ⟨fun _ => Option.some_ne_none _, fun _ => Option.some_ne_none _⟩
  | same eq | idle _ _ _ eq | limit eq | closed eq | failed _ eq | error eq | pool _ eq =>
      rw [eq]
      exact unchanged ⟨rfl, rfl, rfl, rfl⟩

/-- **The step.** Each of the callbacks that write the fields of the context keeps them
consistent, and so does everything else. -/
theorem kept_advance (kept : Kept h s) (advance : Advance w serial h s l s') :
    Kept (h ++ l) s' := by
  obtain ⟨consistent, vouched, stays⟩ := fields_of_advance kept advance
  refine ⟨consistent, vouched.mono, ?_, ?_⟩
  · intro e mem set
    refine stays ?_
    rcases List.mem_append.mp mem with mem | mem
    · exact kept.stays e mem set
    · obtain ⟨⟨timer, context⟩, -⟩ := within_of_advance advance e mem
      rwa [context] at set
  · intro relay
    rcases relay_of_advance advance relay with stage | ⟨set, same⟩
    · exact trapChannel_of_advance advance (kept.relay stage)
    · rwa [same]

/-- A context in which nothing is set is consistent. -/
theorem kept_initial : Kept [] Proxy.initial where
  consistent := by constructor <;> decide
  vouched := nofun
  stays := List.forall_mem_nil _
  relay := nofun

/-- What differs only in little is kept as well. -/
theorem Kept.within (kept : Kept h s) (within : Within s t) : t.context.Consistent ∧
    Vouched h t.context ∧ (t.stage = .relay → t.context.trapChannel ≠ none) := by
  obtain ⟨⟨timer, context⟩, stage, -⟩ := within
  rw [context, stage]
  exact ⟨kept.consistent.of_same ⟨rfl, rfl, rfl, rfl⟩, kept.vouched, kept.relay⟩

end Consistent

/-! ## Requests that are granted once

A grant is counted where the callback ends with it. After each callback the flag in the
context and the count agree, as long as callbacks come one after another. -/

section Requests

variable {w : World} {serial : Prop} {h l : List Entry} {s s' : Proxy}

def OnceRequest.facility : OnceRequest → Facility
  | pty .. => .terminal
  | shell => .shell

/-- A request counts as granted if its facility is there. -/
theorem OnceRequest.granted_iff (r : OnceRequest) (c : Context) :
    r.granted c = true ↔ r.facility.Present c := by
  cases r <;> exact Iff.rfl

/-- Granting it makes its own facility present and no other. -/
theorem OnceRequest.present_grant (r : OnceRequest) (c : Context) (f : Facility) :
    f.Present (r.grant c) ↔ f = r.facility ∨ f.Present c := by
  cases r <;> cases f <;> simp [OnceRequest.grant, Facility.Present, OnceRequest.facility]

/-- What a request looks like in the log. -/
theorem OnceRequest.request_call (r : OnceRequest) (ch : ChannelId) (b : Proxy) (i : Int) :
    Entry.request ⟨b, .call (r.call ch), i⟩ = some (r.facility, ch) := by
  cases r <;> rfl

/-- A step while callbacks do not nest requests nothing, or it is one request on
the channel of the context, for what was not granted before. -/
theorem requests_of_advance (alone : serial) (advance : Advance w serial h s l s') :
    (∀ e ∈ l, e.request = none) ∨
      ∃ r ch i, s.context.haasChannel = some ch ∧ r.granted s.context = false ∧
        l = [⟨s.tock, .call (OnceRequest.call r ch), i⟩,
          ⟨s.tock, .returned (OnceRequest.call r ch), i⟩] ∧
        s'.context = if i = sshOk then r.grant s.context else s.context := by
  cases advance with
  | change change =>
      cases change with
      | call _ _ c i licensed =>
          refine .inl ?_
          rw [List.forall_mem_singleton]
          cases c with
          | requestPtySize | requestShell => exact absurd alone licensed
          | _ => rfl
      | once _ _ r i channel first =>
          refine .inr ⟨r, _, i, channel, first, rfl, ?_⟩
          split <;> rfl
      | register _ _ offered pointer cell added stored pair filled _ mid =>
          refine .inl fun e mem => ?_
          obtain ⟨-, ⟨allocation, action⟩ | ⟨ch, action⟩⟩ := mid e mem <;>
            simp [Entry.request, action]
      | _ => exact .inl (by simp [Entry.request, relayLog, byeLog])
  | event _ _ i about => rcases about with rfl | rfl <;> exact .inl (by simp [Entry.request])
  | _ => exact .inl (by simp [Entry.request, byeLog])

/-- The invariant: what was requested, was requested on the channel that is in
the context now, and the flags count what was granted. -/
structure Tallied (h : List Entry) (s : Proxy) : Prop where
  /-- All requests were made on the one `HaasChannel` there is. -/
  channel : ∀ e ∈ h, ∀ f ch, e.request = some (f, ch) → s.context.haasChannel = some ch
  /-- The flag is set exactly if one request was granted, and no second one was. -/
  granted : ∀ f ch, s.context.haasChannel = some ch →
    (f.Present s.context → grants h f ch = 1) ∧ (¬ f.Present s.context → grants h f ch = 0)
  /-- A flag is set with a channel only. -/
  present : ∀ f : Facility, f.Present s.context → s.context.haasChannel ≠ none

theorem grants_append (f : Facility) (ch : ChannelId) (l' : List Entry) :
    grants (l ++ l') f ch = grants l f ch + grants l' f ch := List.countP_append

theorem grants_eq_zero {f : Facility} {ch : ChannelId} (none : ∀ e ∈ l, e.request = none) :
    grants l f ch = 0 := by
  refine List.countP_eq_zero.mpr ?_
  intro e mem
  simp [none e mem]

/-- A step that requests nothing. -/
theorem Tallied.quiet (tallied : Tallied h s) (none : ∀ e ∈ l, e.request = none)
    (haasChannel : s'.context.haasChannel = s.context.haasChannel)
    (present : ∀ f : Facility, f.Present s'.context ↔ f.Present s.context) :
    Tallied (h ++ l) s' := by
  refine ⟨?_, ?_, ?_⟩
  · intro e mem f ch request
    rw [haasChannel]
    rcases List.mem_append.mp mem with mem | mem
    · exact tallied.channel e mem f ch request
    · rw [none e mem] at request
      cases request
  · intro f ch set
    rw [haasChannel] at set
    rw [present, grants_append, grants_eq_zero none]
    exact tallied.granted f ch set
  · intro f set
    rw [haasChannel]
    exact tallied.present f ((present f).mp set)

/-- While callbacks do not nest, both channels are put into the context only
where there were none. -/
theorem trapChannel_of_bothObtained (alone : serial) {trapChannel haasChannel : ChannelId}
    (obtained : BothObtained serial h s trapChannel haasChannel) :
    s.context.trapChannel = none := by
  obtain ⟨e, -, e', -, session, -, -, -, unset, -, -, -, -, chain⟩ := obtained
  obtain ⟨⟨t, first⟩, t', second⟩ := chain alone
  rw [second]
  show e'.before.context.trapChannel = none
  rw [first]
  exact unset

/-- **New session channels start without grants.**  They are adopted where there were none, so
nothing was requested before and no flag is set: a request is made on a session channel. -/
private theorem Tallied.adopt (tallied : Tallied h s) (noRequest : ∀ e ∈ l, e.request = none)
    (unset : s.context.haasChannel = none)
    (present : ∀ f : Facility, f.Present s'.context ↔ f.Present s.context) :
    Tallied (h ++ l) s' := by
  have noRequest : ∀ e ∈ h ++ l, e.request = none := by
    intro e mem
    rcases List.mem_append.mp mem with mem | mem
    · cases request : e.request with
      | none => rfl
      | some asked =>
          rw [tallied.channel e mem asked.1 asked.2 request] at unset
          cases unset
    · exact noRequest e mem
  have absent (f : Facility) : ¬ f.Present s'.context := fun set =>
    tallied.present f ((present f).mp set) unset
  refine ⟨?_, ?_, ?_⟩
  · intro e mem f ch request
    rw [noRequest e mem] at request
    cases request
  · intro f ch _
    exact ⟨fun set => absurd set (absent f), fun _ => grants_eq_zero noRequest⟩
  · intro f set
    exact absurd set (absent f)

/-- What one request adds to the count: it counts for its own facility, on its own channel, and
only if it was granted.  The return of the call is not counted a second time. -/
private theorem grants_once (r : OnceRequest) (ch : ChannelId) (b : Proxy) (i : Int) (f : Facility)
    (ch' : ChannelId) :
    grants [⟨b, .call (r.call ch), i⟩, ⟨b, .returned (r.call ch), i⟩] f ch' =
      if f = r.facility ∧ ch' = ch ∧ i = sshOk then 1 else 0 := by
  have asked := r.request_call ch b i
  have after : Entry.request ⟨b, .returned (r.call ch), i⟩ = none := rfl
  simp only [grants, List.countP_cons, List.countP_nil, asked, after, Option.some.injEq,
    Prod.mk.injEq, reduceCtorEq, false_and, decide_false, Bool.false_eq_true, if_false,
    decide_eq_true_eq]
  grind

/-- **A request that is passed on** for what is not there yet.  If it is granted the flag is set,
and the count of its facility goes from 0 to 1; the other facility is not touched. -/
private theorem Tallied.once (tallied : Tallied h s) (r : OnceRequest) {ch : ChannelId} {i : Int}
    (channel : s.context.haasChannel = some ch) (first : r.granted s.context = false)
    (eq : s'.context = if i = sshOk then r.grant s.context else s.context) :
    Tallied (h ++ [⟨s.tock, .call (r.call ch), i⟩, ⟨s.tock, .returned (r.call ch), i⟩]) s' := by
  have absent : ¬ r.facility.Present s.context := by
    rw [← r.granted_iff, first]
    exact Bool.false_ne_true
  have haasChannel : s'.context.haasChannel = s.context.haasChannel := by
    rw [eq]
    split
    · exact (r.fields_grant s.context).2.2.1
    · rfl
  refine ⟨?_, ?_, ?_⟩
  · intro e mem f ch' request
    rw [haasChannel]
    rcases List.mem_append.mp mem with mem | mem
    · exact tallied.channel e mem f ch' request
    · rcases List.mem_cons.mp mem with rfl | mem
      · rw [r.request_call] at request
        cases request
        exact channel
      · rw [List.mem_singleton.mp mem] at request
        cases request
  · intro f ch' set
    rw [haasChannel, channel] at set
    cases set
    obtain ⟨was, wasNot⟩ := tallied.granted f ch channel
    rw [grants_append, grants_once]
    by_cases ok : i = sshOk
    · rw [eq, if_pos ok, r.present_grant]
      by_cases same : f = r.facility
      · -- the flag was not set, so nothing was granted before
        subst same
        have zero := wasNot absent
        simp [zero, ok]
      · simpa [same] using ⟨was, wasNot⟩
    · rw [eq, if_neg ok]
      simpa [ok] using ⟨was, wasNot⟩
  · intro f _
    rw [haasChannel, channel]
    exact Option.some_ne_none _

/-- **The step**, while callbacks do not nest: what is present was granted once, on the
channel that the session has. A new channel of the backend starts without grants, since
it is new. -/
private theorem tallied_advance (alone : serial) (kept : Kept h s) (tallied : Tallied h s)
    (advance : Advance w serial h s l s') : Tallied (h ++ l) s' := by
  rcases requests_of_advance alone advance with none | ⟨r, ch, i, channel, first, rfl, eq⟩
  · -- nothing is requested, so what matters is what the step does to the context
    cases recontext advance with
    | grant nested => exact absurd alone nested
    | @once r ch channel first eq asked =>
        rw [asked] at none
        have no := none _ (.head _)
        rw [r.request_call] at no
        cases no
    | adopt trapChannel haasChannel obtained eq =>
        have unset : s.context.haasChannel = Option.none := by
          by_contra set
          exact kept.consistent.channels.mpr set (trapChannel_of_bothObtained alone obtained)
        refine tallied.adopt none unset fun f => ?_
        cases f <;> simp only [Facility.Present, eq]
    | same eq | idle _ _ _ eq | limit eq | closed eq | failed _ eq | error eq
    | loggedIn _ _ _ _ eq | pool _ eq =>
        refine tallied.quiet none (by rw [eq]) fun f => ?_
        cases f <;> simp only [Facility.Present, eq]
  · exact tallied.once r channel first eq

private theorem tallied_initial : Tallied [] Proxy.initial where
  channel := List.forall_mem_nil _
  granted := nofun
  present f set := by cases f <;> cases set

end Requests

/-! ## Runs

Flags that are set stay set, and the parts of the invariant are read off at every entry of
the log. -/

section Runs

variable {w : World} {serial : Prop} {h l : List Entry} {s s' : Proxy}

/-- Flags are not taken back. -/
theorem present_of_advance (f : Facility) (advance : Advance w serial h s l s')
    (present : f.Present s.context) : f.Present s'.context := by
  cases recontext advance with
  | grant _ r eq | once r _ _ eq =>
      rw [eq, r.present_grant]
      exact .inr present
  | same eq | idle _ _ _ eq | limit eq | closed eq | failed _ eq | error eq
  | loggedIn _ _ _ _ eq | adopt _ _ _ eq | pool _ eq =>
      rw [eq]
      cases f <;> exact present

/-- What may happen within a step makes no facility present. -/
theorem present_within (f : Facility) (within : Within s s') :
    f.Present s'.context ↔ f.Present s.context := by
  obtain ⟨⟨timer, context⟩, -⟩ := within
  rw [context]
  cases f <;> exact Iff.rfl

/-- Nothing is requested where it was granted already. -/
theorem absent_of_request (alone : serial) (advance : Advance w serial h s l s') {e : Entry}
    (mem : e ∈ l) {f : Facility} {ch : ChannelId} (request : e.request = some (f, ch)) :
    ¬ f.Present e.before.context := by
  rcases requests_of_advance alone advance with none | ⟨r, ch, i, -, first, rfl, -⟩
  · rw [none e mem] at request
    cases request
  · rcases List.mem_cons.mp mem with rfl | mem
    · rw [r.request_call] at request
      cases request
      show ¬ r.facility.Present s.context
      rw [← r.granted_iff, first]
      exact Bool.false_ne_true
    · rw [List.mem_singleton.mp mem] at request
      cases request

/-- Where a callback returns the flags say what was granted. -/
theorem present_iff_of_leave (alone : serial) (tallied : Tallied h s)
    (advance : Advance w serial h s l s') {l₁ l₂ : List Entry} {e : Entry}
    (split : l = l₁ ++ e :: l₂) {cb : Callback} (leave : e.action = .leave cb) (f : Facility) :
    f.Present e.before.context ↔
      ∃ ch, e.before.context.haasChannel = some ch ∧ grants (h ++ l₁) f ch = 1 := by
  have within := within_of_advance advance e (split ▸ List.mem_append_right l₁ (.head l₂))
  have haasChannel : e.before.context.haasChannel = s.context.haasChannel := by
    obtain ⟨⟨timer, context⟩, -⟩ := within
    rw [context]
  have quiet : ∀ e' ∈ l₁, e'.request = none := by
    intro e' mem
    rcases requests_of_advance alone advance with none | ⟨r, ch, i, -, -, asked, -⟩
    · exact none e' (split ▸ List.mem_append_left _ mem)
    · have known : e ∈ l := split ▸ List.mem_append_right l₁ (.head l₂)
      rw [asked] at known
      rcases List.mem_cons.mp known with rfl | known
      · cases leave
      · rw [List.mem_singleton.mp known] at leave
        cases leave
  rw [present_within f within, haasChannel]
  constructor
  · intro present
    obtain ⟨ch, set⟩ := Option.ne_none_iff_exists'.mp (tallied.present f present)
    refine ⟨ch, set, ?_⟩
    rw [grants_append, grants_eq_zero quiet]
    exact (tallied.granted f ch set).1 present
  · rintro ⟨ch, set, one⟩
    by_contra absent
    rw [grants_append, grants_eq_zero quiet, (tallied.granted f ch set).2 absent] at one
    cases one

/-- Flags that are set stay set for the rest of the run. -/
theorem present_proxyRun (f : Facility) (w : World) (fuel depth : Nat) :
    ((proxyRun w fuel depth).log.map fun e => e.before).Pairwise fun s s' =>
      f.Present s.context → f.Present s'.context := by
  have ordered := (path_proxyRun w fuel depth).ordered (fun e => e.before)
    (R := fun s s' => f.Present s.context → f.Present s'.context) (fun _ present => present) ?_
    fun h s l s' advance => ?_
  · exact (List.pairwise_append.mp ordered).1
  · intro a b c first second present
    exact second (first present)
  · refine pairwise_of_advance advance (fun a b here there => ?_) fun a here present => ?_
    · rw [present_within f here, present_within f there]
      exact fun present => present
    · exact present_of_advance f advance ((present_within f here).mp present)

/-- **The state of a session is consistent throughout a run**: `Authenticated` is
set exactly if there is a session of the backend, and then the backend has
accepted a password on it; the two session channels are there together, and only
with that session; and the relay loop runs only with all three.  While callbacks
come one after another, each leaves `HavePty` and `HaveShell` set exactly if one
such request was granted on the backend's channel, and none follows. -/
theorem sessionState_proxyRun (w : World) (fuel depth : Nat) :
    (∀ l₁ e l₂, (proxyRun w fuel depth).log = l₁ ++ e :: l₂ →
      e.before.context.Consistent ∧ Vouched l₁ e.before.context ∧
        (e.before.stage = .relay → e.before.context.trapChannel ≠ none ∧
          e.before.context.haasChannel ≠ none ∧ e.before.context.haasSession ≠ none)) ∧
    (depth ≤ 1 → ∀ l₁ e l₂, (proxyRun w fuel depth).log = l₁ ++ e :: l₂ →
      ∀ cb, e.action = .leave cb → ∀ f : Facility,
        (f.Present e.before.context ↔
          ∃ ch, e.before.context.haasChannel = some ch ∧ grants l₁ f ch = 1) ∧
        (f.Present e.before.context → ∀ e' ∈ l₂, ∀ ch, e'.request ≠ some (f, ch))) := by
  have path := path_proxyRun w fuel depth
  constructor
  · refine (path.inv_entries (I := Kept) (P := fun h e => e.before.context.Consistent ∧
      Vouched h e.before.context ∧ (e.before.stage = .relay → e.before.context.trapChannel ≠ none ∧
        e.before.context.haasChannel ≠ none ∧ e.before.context.haasSession ≠ none))
      (fun h s l s' kept advance => ⟨kept_advance kept advance, ?_⟩) kept_initial).2
    intro l₁ e l₂ split
    obtain ⟨consistent, vouched, relay⟩ :=
      kept.within (within_of_advance advance e (split ▸ List.mem_append_right l₁ (.head l₂)))
    refine ⟨consistent, vouched.mono, fun stage => ?_⟩
    have haasChannel := consistent.channels.mp (relay stage)
    exact ⟨relay stage, haasChannel, consistent.session haasChannel⟩
  · intro alone l₁ e l₂ split cb leave f
    constructor
    · refine (path.inv_entries (I := fun h s => Kept h s ∧ Tallied h s) (P := fun h e =>
        ∀ cb, e.action = .leave cb → (f.Present e.before.context ↔
          ∃ ch, e.before.context.haasChannel = some ch ∧ grants h f ch = 1))
        (fun h s l s' inv advance => ⟨?_, ?_⟩) ⟨kept_initial, tallied_initial⟩).2 l₁ e l₂ split cb
        leave
      · exact ⟨kept_advance inv.1 advance, tallied_advance alone inv.1 inv.2 advance⟩
      · intro l₁ e l₂ split cb leave
        exact present_iff_of_leave alone inv.2 advance split leave f
    · intro present e' mem ch request
      have absent := path.forall_entries (I := fun _ _ => True) (P := fun e => ∀ f ch,
        e.request = some (f, ch) → ¬ f.Present e.before.context) (fun h s l s' _ advance =>
          ⟨trivial, fun e mem f ch request => absent_of_request alone advance mem request⟩) trivial
      have later := present_proxyRun f w fuel depth
      rw [split, List.map_append, List.pairwise_append, List.map_cons, List.pairwise_cons] at later
      refine absent e' (split ▸ List.mem_append_right l₁ (.tail e mem)) f ch request ?_
      exact later.2.1.1 e'.before (List.mem_map_of_mem mem) present

/-- A client that requests a terminal once and a shell twice. -/
def terminalAndShell : World :=
  .scripted .echo [(13, 2)] [(6, loginAndChannel), (31, [.channel 0 (.ptyRequest .root 80 24 0 0),
    .channel 0 .shellRequest, .channel 0 .shellRequest, .channel 0 .close])]

/-- The conditions can be met: a client that gets a terminal and a shell. -/
theorem sessionState_terminalAndShell :
    (∀ l₁ e l₂, (proxyRun terminalAndShell 3 1).log = l₁ ++ e :: l₂ →
      ∀ cb, e.action = .leave cb → ∀ f : Facility,
        (f.Present e.before.context ↔
          ∃ ch, e.before.context.haasChannel = some ch ∧ grants l₁ f ch = 1) ∧
        (f.Present e.before.context → ∀ e' ∈ l₂, ∀ ch, e'.request ≠ some (f, ch))) ∧
    ∃ e ∈ (proxyRun terminalAndShell 3 1).log, e.action = .leave (.channel 0 .close) ∧
      e.before.context.havePty = true ∧ e.before.context.haveShell = true :=
  ⟨(sessionState_proxyRun terminalAndShell 3 1).2 (by decide), by decide +kernel⟩

end Runs

end HaasProxy
