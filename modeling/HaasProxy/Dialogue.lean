import HaasProxy.Composition
import HaasProxy.Transitions.Callbacks

/-!
# What the proxy says, and what it passes on (`proxy.c`)

The log of a run is a conversation: libssh makes callbacks, and in these and in its
loops the proxy calls libssh, which makes further callbacks before it answers.
`Dialogue` is the grammar of such logs.  Callbacks nest; one on a channel makes the one
call that passes on what it was made for, with the same arguments, or none if there is
nothing to pass on or nobody to pass it on to, and answers by what that call answered.
All other calls are among those the proxy makes by itself.

`dialogue_proxyRun` says that every run is such a conversation, as far as it went:
nothing that is asked for is lost, asked for twice or changed on the way, nothing else
is asked for, and nobody is told but what the other side answered.

## Main definitions and results

* `Proxy.passes`, `Proxy.answers` — what a callback on a channel calls, and answers;
* `Dialogue` — the grammar;
* `Speaks` — what a program logs is a conversation;
* `composed_speaks` — so it is for whatever the functions of the proxy are composed of;
* `asks_channelCallback` — a callback on a channel makes its one call, or none;
* `dialogue_proxyRun` — the result.

## Design notes

**A specification by events.**  `passes` and `answers` are tables over the kinds of events,
which say nothing about how the callbacks are written.  A request for a command is passed on
from the client to the backend, and one the other way is not; a terminal is asked for only
until it was granted; data goes to the channel at the other end.  The callbacks of
`proxy.c` are compared with these tables, each once.

**Calls nest.**  While a call is being made libssh makes callbacks, which are conversations
themselves.  The grammar has a place for them: behind the call and in front of its
return.  There the proxy does nothing by itself, and that is what `own` distinguishes.

**Runs that stop.**  A run that reads what is gone ends in the middle of a sentence.  It is
said of it that the log can be completed: what is missing are the rest of a call, or of
a callback.
-/

namespace HaasProxy

open Traced

/-! ## What is passed on

By the state in which the callback is entered. -/

/-- The session channel that requests and notices go to, by the table of the channel they
arrive on. -/
def Context.opposite (c : Context) : ChannelCallbacks → Option ChannelId
  | .trapChannelCB => c.haasChannel
  | .haasChannelCB => c.trapChannel
  | .forwardChannelCB _ => none

/-- **What a callback on a channel calls** to pass on what it is made for.  A terminal and
a shell are asked for until they are granted once, and the size of a terminal is changed
only if there is one.  Only the client runs commands and sets variables. -/
def Proxy.passes (w : World) (s : Proxy) (ch : ChannelId) (c : Channel) (table : ChannelCallbacks) :
    ChannelEvent → Option Call
  | .ptyRequest term x y _ _ =>
      if s.context.havePty then none
      else s.context.haasChannel.map fun out => .requestPtySize out term x y
  | .ptyWindowChange width height _ _ =>
      if s.context.havePty then s.context.haasChannel.map fun out => .changePtySize out width height
      else none
  | .shellRequest =>
      if s.context.haveShell then none else s.context.haasChannel.map .requestShell
  | .execRequest command => s.context.haasChannel.map fun out => .requestExec out command
  | .envRequest envName envValue =>
      s.context.haasChannel.map fun out => .requestEnv out envName envValue
  | .signal signal => (s.context.opposite table).map fun out => .requestSendSignal out signal
  | .exitSignal signal core errMsg lang =>
      (s.context.opposite table).map fun out => .requestSendExitSignal out signal core errMsg lang
  | .exitStatus status =>
      (s.context.opposite table).map fun out => .requestSendExitStatus out status
  | .data isStderr _ =>
      (s.outlet w ch table).map fun out => .write out isStderr (c.buffered isStderr)
  | .eof =>
      match table with
      | .forwardChannelCB _ =>
          if w.config.forwardMode = some .allow then (s.outlet w ch table).map .sendEof else none
      | _ => (s.context.opposite table).map .sendEof
  | _ => none

/-- In `NULL` mode the data of a forward is swallowed. -/
def Proxy.swallows (w : World) (s : Proxy) : ChannelCallbacks → Bool
  | .forwardChannelCB p => w.config.forwardMode = some .null ∧
      ((s.pairs.cell p).bind fun pair => pair.context).isSome
  | _ => false

/-- **What a callback on a channel answers**: whether there is a terminal or a shell now,
whether the request was granted, or how much of the data was accepted.  `i` is what the
call has answered that it was passed on with. -/
def Proxy.answers (w : World) (s : Proxy) (ch : ChannelId) (c : Channel)
    (table : ChannelCallbacks) (i : Option Int) (now : Context) : ChannelEvent → Int
  | .ptyRequest .. => if now.havePty then 0 else 1
  | .shellRequest => if now.haveShell then 0 else 1
  | .ptyWindowChange .. | .execRequest _ | .envRequest .. => if i = some sshOk then 0 else 1
  | .subsystemRequest _ => sshError
  | .data isStderr _ =>
      match i with
      | some i => writeResult ((s.outlet w ch table).bind s.channels.cell) i (c.buffered isStderr)
      | none => if s.swallows w table then (c.buffered isStderr).length else sshError
  | _ => 0

/-- **A conversation**, in which the proxy does something by itself, or, where `own` is
`false`, nothing but callbacks come one after another. -/
inductive Dialogue (w : World) : Bool → List Entry → Prop
  | nil {own : Bool} : Dialogue w own []
  /-- The proxy does something by itself. -/
  | own {e : Entry} {l : List Entry}
      (other : ∀ cb, e.action ≠ .enter cb ∧ e.action ≠ .leave cb)
      (may : ∀ c, e.action = .call c → w.MayCall c) (rest : Dialogue w true l) :
      Dialogue w true (e :: l)
  /-- A callback that is not about a channel. -/
  | callback {own : Bool} {cb : Callback} {e e' : Entry} {l l' : List Entry}
      (other : ∀ ch event, cb ≠ .channel ch event) (enter : e.action = .enter cb)
      (body : Dialogue w true l) (leave : e'.action = .leave cb) (rest : Dialogue w own l') :
      Dialogue w own (e :: (l ++ e' :: l'))
  /-- A callback that passes on what it was made for. -/
  | passed {own : Bool} {ch : ChannelId} {event : ChannelEvent} {c : Channel}
      {table : ChannelCallbacks} {a : Call} {e b r e' : Entry} {l l' : List Entry}
      (enter : e.action = .enter (.channel ch event)) (cell : e.before.channels.cell ch = some c)
      (callbacks : c.callbacks = some table) (passes : e.before.passes w ch c table event = some a)
      (call : b.action = .call a) (nested : Dialogue w false l) (returned : r.action = .returned a)
      (same : r.answer = b.answer) (leave : e'.action = .leave (.channel ch event))
      (answer : e'.answer =
        e.before.answers w ch c table (some b.answer) e'.before.context event)
      (rest : Dialogue w own l') : Dialogue w own (e :: b :: (l ++ r :: e' :: l'))
  /-- A callback that does not. -/
  | kept {own : Bool} {ch : ChannelId} {event : ChannelEvent} {c : Channel}
      {table : ChannelCallbacks} {e e' : Entry} {l' : List Entry}
      (enter : e.action = .enter (.channel ch event)) (cell : e.before.channels.cell ch = some c)
      (callbacks : c.callbacks = some table) (passes : e.before.passes w ch c table event = none)
      (leave : e'.action = .leave (.channel ch event))
      (answer : e'.answer = e.before.answers w ch c table none e'.before.context event)
      (rest : Dialogue w own l') : Dialogue w own (e :: e' :: l')

namespace Dialogue

variable {w : World} {own : Bool} {l l' : List Entry}

/-- Two stretches of a dialogue are one, with the callbacks of both. -/
theorem append (first : Dialogue w own l) (next : Dialogue w own l') :
    Dialogue w own (l ++ l') := by
  induction first with
  | nil => exact next
  | own other may _ ih => exact .own other may (ih next)
  | callback other enter body leave _ _ ih =>
      rw [List.cons_append, List.append_assoc, List.cons_append]
      exact .callback other enter body leave (ih next)
  | passed enter cell callbacks passes call nested returned same leave answer _ _ ih =>
      rw [List.cons_append, List.cons_append, List.append_assoc, List.cons_append, List.cons_append]
      exact .passed enter cell callbacks passes call nested returned same leave answer (ih next)
  | kept enter cell callbacks passes leave answer _ ih =>
      exact .kept enter cell callbacks passes leave answer (ih next)

/-- Callbacks one after another are a conversation in which the proxy does nothing. -/
theorem weaken (callbacks : Dialogue w own l) : Dialogue w true l := by
  induction callbacks with
  | nil => exact .nil
  | own other may _ ih => exact .own other may ih
  | callback other enter body leave _ _ ih => exact .callback other enter body leave ih
  | passed enter cell callbacks passes call nested returned same leave answer _ _ ih =>
      exact .passed enter cell callbacks passes call nested returned same leave answer ih
  | kept enter cell callbacks passes leave answer _ ih =>
      exact .kept enter cell callbacks passes leave answer ih

end Dialogue

/-! ## Programs that speak

A conversation is put together from those of the parts of a program. -/

/-- What was logged is a conversation, as far as the run went. -/
def Run.Spoken (w : World) (own : Bool) {α : Type} (r : Run Entry Stop Proxy α) : Prop :=
  ∃ rest, Dialogue w own (r.log ++ rest) ∧ ∀ a, r.value = .ok a → rest = []

/-- What the program logs is a conversation, from wherever it starts. -/
def Speaks (w : World) (own : Bool) {α : Type} (m : ProxyM α) : Prop := ∀ s, (m s).Spoken w own

section Speaks

variable {w : World} {own : Bool} {α β : Type} {m : ProxyM α} {k : α → ProxyM β}

theorem speaks_silent (silent : ∀ s, (m s).log = []) : Speaks w own m := fun s =>
  ⟨[], by rw [silent]; exact .nil, fun _ _ => rfl⟩

theorem speaks_pure (a : α) : Speaks w own (pure a : ProxyM α) := speaks_silent fun _ => rfl

/-- The rule of sequence. If the first program stops, the conversation is over. -/
theorem speaks_bind (first : Speaks w own m) (next : ∀ a, Speaks w own (k a)) :
    Speaks w own (m >>= k) := by
  intro s
  obtain ⟨rest, spoken, ended⟩ := first s
  rcases run : m s with ⟨log, s', e | a⟩
  · rw [run] at spoken
    rw [bind_of_error run]
    exact ⟨rest, spoken, nofun⟩
  · rw [run] at spoken ended
    rw [bind_of_ok run]
    obtain rfl := ended a rfl
    obtain ⟨rest', spoken', ended'⟩ := next a s'
    refine ⟨rest', ?_, ended'⟩
    rw [List.append_nil] at spoken
    rw [List.append_assoc]
    exact spoken.append spoken'

/-- Nothing is logged any more. -/
theorem spoken_then {s : Proxy} (first : (m s).Spoken w own) (silent : ∀ a s, (k a s).log = []) :
    ((m >>= k) s).Spoken w own := by
  obtain ⟨rest, spoken, ended⟩ := first
  rcases run : m s with ⟨log, s', e | a⟩
  · rw [run] at spoken
    rw [bind_of_error run]
    exact ⟨rest, spoken, nofun⟩
  · rw [run] at spoken ended
    rw [bind_of_ok run, silent, List.append_nil]
    exact ⟨rest, spoken, fun _ _ => ended a rfl⟩

/-- Callbacks alone are a conversation among others. -/
theorem speaks_weaken (callbacks : Speaks w own m) : Speaks w true m := by
  intro s
  obtain ⟨rest, spoken, ended⟩ := callbacks s
  exact ⟨rest, spoken.weaken, ended⟩

/-- An entry that is no callback, and a call only if the proxy may make it by itself. -/
theorem speaks_tell {f : Proxy → Entry}
    (other : ∀ s cb, (f s).action ≠ .enter cb ∧ (f s).action ≠ .leave cb)
    (may : ∀ s c, (f s).action = .call c → w.MayCall c) : Speaks w true (tell f) := fun s =>
  ⟨[], .own (other s) (may s) .nil, fun _ _ => rfl⟩

theorem speaks_modifyPair {w : World} (p : PairId) (f : FwPair → FwPair) :
    Speaks w true (modifyPair p f) := by
  apply speaks_silent
  intro s
  rcases run_modifyPair_cases p f s with run | ⟨pair, -, run⟩ <;> rw [run]

/-- **What the functions of the proxy say** is a conversation. -/
theorem composed_speaks (w : World) :
    ComposedFreely w (fun _ => Speaks w true) fun _ => Speaks w true where
  pure := speaks_pure
  bind := speaks_bind
  get := speaks_silent fun _ => rfl
  fault _ := speaks_silent fun _ => rfl
  nextTick := speaks_silent fun _ => rfl
  modify _ := speaks_silent fun _ => rfl
  change _ := speaks_silent fun _ => rfl
  modifyPair p f _ := speaks_modifyPair p f
  changePair := speaks_modifyPair
  alloc _ _ := speaks_tell (by simp) (by simp)
  release _ := speaks_tell (by simp) (by simp)
  returned _ _ := speaks_tell (by simp) (by simp)
  call c i makes := by
    refine speaks_tell (by simp) ?_
    rintro s _ ⟨⟩
    exact makes.1
  reset := speaks_silent fun _ => rfl
  before := speaks_bind
  after f first := speaks_bind first fun a => speaks_pure (f a)
  watch next := by
    refine speaks_bind ?_ fun _ => speaks_bind (speaks_silent fun _ => rfl) fun _ => next
    intro s
    rw [call, run_callWith (by exact id)]
    refine ⟨[], .own (by simp) ?_ .nil, fun _ _ => rfl⟩
    rintro _ ⟨⟩
    trivial

/-- A callback that is not about a channel. -/
theorem speaks_logged {cb : Callback} {m : ProxyM Int} (other : ∀ ch event, cb ≠ .channel ch event)
    (body : Speaks w true m) : Speaks w false (logged cb m) := by
  intro s
  obtain ⟨rest, spoken, ended⟩ := body s
  rcases run : m s with ⟨log, s', e | back⟩
  · rw [run] at spoken
    rw [run_logged_of_error run]
    refine ⟨rest ++ [⟨s', .leave cb, 0⟩], ?_, nofun⟩
    rw [List.cons_append, ← List.append_assoc]
    exact .callback other rfl spoken rfl .nil
  · rw [run] at spoken ended
    obtain rfl := ended back rfl
    rw [List.append_nil] at spoken
    rw [run_logged run]
    refine ⟨[], ?_, fun _ _ => rfl⟩
    rw [List.append_nil]
    exact .callback other rfl spoken rfl .nil

end Speaks

/-! ## One call

What is common to all callbacks that pass something on. -/

/-- **The program makes one call, or none**, and logs nothing else but the callbacks that
are made meanwhile.  If it returns, it is as `Q` says of what the call has answered, the
state, and the result. -/
def Asks (dispatch : Nat → ProxyM Unit) {α : Type} (m : ProxyM α) (s : Proxy) (Q : Option Int →
    Proxy → α → Prop) : Option Call → Prop
  | none => (∃ s' e, m s = ⟨[], s', .error e⟩) ∨ ∃ s' a, m s = ⟨[], s', .ok a⟩ ∧ Q none s' a
  | some c => ∃ s₁ s₂ i t,
      (∃ l s₃ e, dispatch t s₂ = ⟨l, s₃, .error e⟩ ∧
        m s = ⟨⟨s₁, .call c, i⟩ :: l, s₃, .error e⟩) ∨
      ∃ l s₃ s' a, dispatch t s₂ = ⟨l, s₃, .ok ()⟩ ∧
        m s = ⟨⟨s₁, .call c, i⟩ :: (l ++ [⟨s₃, .returned c, i⟩]), s', .ok a⟩ ∧ Q (some i) s' a

section Asks

variable {w : World} {dispatch : Nat → ProxyM Unit} {α β : Type} {m : ProxyM α} {k : α → ProxyM β}
  {s s' : Proxy} {asked : Option Call} {P : Option Int → Proxy → α → Prop}
  {Q : Option Int → Proxy → β → Prop}

theorem asks_pure {a : α} (post : P none s a) : Asks dispatch (pure a : ProxyM α) s P none :=
  .inr ⟨s, a, rfl, post⟩

/-- In front of the call nothing is logged. -/
theorem asks_after {a : α} (run : m s = ⟨[], s', .ok a⟩) (next : Asks dispatch (k a) s' Q asked) :
    Asks dispatch (m >>= k) s Q asked := by
  unfold Asks at next ⊢
  rw [bind_of_ok run]
  exact next

/-- After the call nothing is logged. -/
theorem asks_then (first : Asks dispatch m s P asked)
    (next : ∀ i s' a, P i s' a → ∃ s'' b, k a s' = ⟨[], s'', .ok b⟩ ∧ Q i s'' b) :
    Asks dispatch (m >>= k) s Q asked := by
  cases asked with
  | none =>
      rcases first with ⟨s', e, run⟩ | ⟨s', a, run, post⟩
      · exact .inl ⟨s', e, bind_of_error run⟩
      · obtain ⟨s'', b, run', post'⟩ := next _ _ _ post
        refine .inr ⟨s'', b, ?_, post'⟩
        rw [bind_of_ok run, run']
        rfl
  | some c =>
      obtain ⟨s₁, s₂, i, t, ⟨l, s₃, e, nested, run⟩ | ⟨l, s₃, s', a, nested, run, post⟩⟩ := first
      · exact ⟨s₁, s₂, i, t, .inl ⟨l, s₃, e, nested, bind_of_error run⟩⟩
      · obtain ⟨s'', b, run', post'⟩ := next _ _ _ post
        refine ⟨s₁, s₂, i, t, .inr ⟨l, s₃, s'', b, nested, ?_, post'⟩⟩
        rw [bind_of_ok run, run']
        simp

/-- What is known at the end can be weakened. -/
theorem asks_mono (first : Asks dispatch m s P asked) {P' : Option Int → Proxy → α → Prop}
    (post : ∀ i s' a, P i s' a → P' i s' a) : Asks dispatch m s P' asked := by
  cases asked with
  | none =>
      refine first.imp_right ?_
      rintro ⟨s', a, run, holds⟩
      exact ⟨s', a, run, post _ _ _ holds⟩
  | some c =>
      obtain ⟨s₁, s₂, i, t, stopped | ⟨l, s₃, s', a, nested, run, holds⟩⟩ := first
      · exact ⟨s₁, s₂, i, t, .inl stopped⟩
      · exact ⟨s₁, s₂, i, t, .inr ⟨l, s₃, s', a, nested, run, post _ _ _ holds⟩⟩

/-- **A call.** -/
theorem asks_callWith {c : Call} {effect : Int → Proxy → Proxy} (dispatches : c.Dispatches) :
    Asks dispatch (callWith w dispatch c effect) s (fun i _ back => i = some back) (some c) := by
  refine ⟨s.tock, effect (w.answer s.tick) s.tock, w.answer s.tick, s.tick, ?_⟩
  rcases nested : dispatch s.tick (effect (w.answer s.tick) s.tock) with ⟨l, s₃, e | _⟩
  · exact .inl ⟨l, s₃, e, rfl, run_callWith_of_error dispatches nested⟩
  · exact .inr ⟨l, s₃, s₃, w.answer s.tick, rfl, run_callWith_of_dispatch dispatches nested, rfl⟩

theorem asks_get {k : Proxy → ProxyM β} (next : Asks dispatch (k s) s Q asked) :
    Asks dispatch (get >>= k) s Q asked :=
  asks_after (rfl : (get : ProxyM Proxy) s = ⟨[], s, .ok s⟩) next

/-- The idle timer is set and the result returned. -/
theorem asks_then_idle {f : α → β} (first : Asks dispatch m s P asked)
    (post : ∀ i s' a, P i s' a → Q i (s'.idled w) (f a)) :
    Asks dispatch (m >>= fun a => idleTimerReset w >>= fun _ => pure (f a)) s Q asked := by
  refine asks_then first fun i s' a holds => ⟨s'.idled w, f a, ?_, post i s' a holds⟩
  rw [bind_of_ok run_idleTimerReset]
  rfl

/-! What callbacks are made of. -/

/-- A request asks the other channel, if there is one, and is granted if that has
granted it. -/
theorem asks_passOn {channel : Context → Option ChannelId} {c : ChannelId → Call}
    (dispatches : ∀ ch, (c ch).Dispatches) :
    Asks dispatch (passOn w dispatch channel c) s (fun i _ ok => ok = decide (i = some sshOk))
      ((channel s.context).map c) := by
  apply asks_get
  cases channel s.context with
  | none => exact asks_pure rfl
  | some ch =>
      refine asks_then (asks_callWith (dispatches ch)) ?_
      rintro _ s' back rfl
      exact ⟨s', _, rfl, by simp⟩

/-- The answer to the request says whether it was granted. -/
theorem asks_passOnEach {c : ChannelId → Call} (dispatches : ∀ ch, (c ch).Dispatches) :
    Asks dispatch (passOnEach w dispatch c) s
      (fun i _ back => back = if i = some sshOk then 0 else 1) (s.context.haasChannel.map c) := by
  refine asks_then_idle (asks_passOn dispatches) ?_
  rintro i s' _ rfl
  by_cases granted : i = some sshOk <;> simp [granted]

theorem asks_passNotice {channel : Context → Option ChannelId} {c : ChannelId → Call}
    (dispatches : ∀ ch, (c ch).Dispatches) :
    Asks dispatch (answerless (passNotice w dispatch channel c)) s (fun _ _ back => back = 0)
      ((channel s.context).map c) := by
  unfold answerless passNotice
  rw [bind_assoc]
  exact asks_then_idle (asks_passOn dispatches) fun _ _ _ _ => rfl

/-- A request that is passed on until it is granted once. -/
theorem asks_passOnOnce {granted : Context → Bool} {grant : Context → Context}
    {c : ChannelId → Call} (dispatches : ∀ ch, (c ch).Dispatches)
    (still : ∀ c timer, granted { c with idleTimer := timer } = granted c) :
    Asks dispatch (passOnOnce w dispatch granted grant c) s
      (fun _ s' back => back = if granted s'.context then 0 else 1)
      (if granted s.context then none else s.context.haasChannel.map c) := by
  apply asks_get
  have ends {m : ProxyM Unit} {asked : Option Call}
      (first : Asks dispatch m s (fun _ _ _ => True) asked) :
      Asks dispatch (m >>= fun _ => get >>= fun s => idleTimerReset w >>= fun _ =>
        pure (if granted s.context then (0 : Int) else 1)) s
        (fun _ s' back => back = if granted s'.context then 0 else 1) asked := by
    refine asks_then first fun _ s' _ _ => ⟨s'.idled w, _, rfl, ?_⟩
    exact (congrArg (fun b : Bool => if b = true then (0 : Int) else 1) (still _ _)).symm
  apply ends
  by_cases already : granted s.context = true
  · rw [if_pos already, when, if_neg (not_not.mpr already)]
    exact asks_pure trivial
  · rw [if_neg already, when, if_pos already]
    refine asks_then (asks_passOn dispatches) fun _ s' ok _ => ?_
    cases ok with
    | false => exact ⟨s', (), rfl, trivial⟩
    | true => exact ⟨_, (), rfl, trivial⟩

/-- The size of the window asks for a change of the terminal's, if there is one. -/
theorem asks_windowChange {width height pxwidth pwheight : Int} :
    Asks dispatch (trapChannelPtyWindowChange w dispatch width height pxwidth pwheight) s
      (fun i _ back => back = if i = some sshOk then 0 else 1)
      (if s.context.havePty then
        s.context.haasChannel.map fun out => .changePtySize out width height
      else none) := by
  apply asks_get
  refine asks_then_idle (P := fun i _ ok => ok = decide (i = some sshOk)) ?_ ?_
  · by_cases havePty : s.context.havePty = true
    · rw [if_pos havePty, if_pos havePty]
      exact asks_passOn fun _ => trivial
    · rw [if_neg havePty, if_neg havePty]
      exact asks_pure rfl
  · rintro i s' _ rfl
    by_cases granted : i = some sshOk <;> simp [granted]

/-- Data is written to a channel. -/
theorem asks_writeNonblocking {session : Context → Option SessionId} {channel : Option ChannelId}
    {isStderr : Bool} {data : List UInt8} :
    Asks dispatch (writeNonblocking w dispatch session channel isStderr data) s
      (fun i _ back =>
        back = i.elim sshError fun i => writeResult (channel.bind s.channels.cell) i data)
      (channel.map fun out => .write out isStderr data) := by
  apply asks_get
  apply asks_after (rfl : sshIsBlocking (session s.context) s = ⟨[], s, .ok _⟩)
  obtain ⟨during, unblocked⟩ := run_sshSetBlocking (session s.context) false s
  apply asks_after unblocked
  refine asks_then (P := fun i _ back =>
    back = i.elim sshError fun i => writeResult (channel.bind s.channels.cell) i data) ?_ ?_
  · cases channel with
    | none => exact asks_pure rfl
    | some out =>
        refine asks_after (rfl : gets (fun s : Proxy => s.channels.cell out) _ = ⟨[], _, .ok _⟩) ?_
        have written : Asks dispatch (callWith w dispatch (.write out isStderr data)
            (Call.write out isStderr data).effect) { s with blocking := during }
            (fun i _ back => i = some back) (some (.write out isStderr data)) :=
          asks_callWith trivial
        refine asks_then written ?_
        rintro _ s' i rfl
        exact ⟨s', _, rfl, rfl⟩
  · rintro i s' back rfl
    obtain ⟨after, restored⟩ := run_sshSetBlocking (session s'.context)
      ((session s.context).elim false s.blocking) s'
    refine ⟨{ s' with blocking := after }, _, ?_, rfl⟩
    rw [bind_of_ok (rfl : (get : ProxyM Proxy) s' = ⟨[], s', .ok s'⟩), bind_of_ok restored]
    rfl

/-- Data asks for a write of the same data to the same stream, and answers with what was
written. -/
theorem asks_relayData {session : Context → Option SessionId}
    {channel : Context → Option ChannelId} {isStderr : Bool} {data : List UInt8} :
    Asks dispatch (relayData w dispatch session channel isStderr data) s
      (fun i _ back => back =
        i.elim sshError fun i => writeResult ((channel s.context).bind s.channels.cell) i data)
      ((channel s.context).map fun out => .write out isStderr data) := by
  apply asks_get
  refine asks_then_idle (f := id) ?_ fun _ _ _ holds => holds
  cases channel s.context with
  | none => exact asks_pure rfl
  | some out => exact asks_writeNonblocking

/-- The end of the data asks for the end of the data. -/
theorem asks_sendEof {channel : Option ChannelId} :
    Asks dispatch (sshChannelSendEof w dispatch channel) s (fun _ _ _ => True)
      (channel.map .sendEof) := by
  cases channel with
  | none => exact asks_pure trivial
  | some ch =>
      have sent : Asks dispatch (callWith w dispatch (.sendEof ch) (Call.sendEof ch).effect) s
          (fun i _ back => i = some back) (some (.sendEof ch)) := asks_callWith trivial
      exact asks_mono sent fun _ _ _ _ => trivial

/-- An end of file on a session channel is passed on to the other channel, if there is
one, by `ssh_channel_send_eof`. -/
theorem asks_relayEof {channel : Context → Option ChannelId} :
    Asks dispatch (answerless (relayEof w dispatch channel)) s (fun _ _ back => back = 0)
      ((channel s.context).map .sendEof) := by
  unfold answerless relayEof
  rw [bind_assoc]
  apply asks_get
  rw [bind_assoc]
  refine asks_then_idle (P := fun _ _ _ => True) ?_ fun _ _ _ _ => rfl
  cases channel s.context with
  | none => exact asks_pure trivial
  | some ch => exact asks_then asks_sendEof fun _ s' _ _ => ⟨s', (), rfl, trivial⟩

/-! ## The callbacks on a channel

Each of them passes on at most one call. Which one, and with which arguments, is
`Proxy.passes`; each lemma shows that the text of the callback agrees with it. -/

variable {ch : ChannelId} {c : Channel} {table : ChannelCallbacks} {event : ChannelEvent}

/-- A program that stops before it logs anything asks nothing. -/
theorem asks_stop {e : Stop} (run : m s = ⟨[], s', .error e⟩) : Asks dispatch m s P none :=
  .inl ⟨s', e, run⟩

/-- The data of a forward asks for a write to the other end of its pair. Which channel
that is was read when the callback began. -/
theorem asks_forwardChannelDataCallback {isStderr : Bool} {bytes : List UInt8} {p : PairId} :
    Asks dispatch
      (forwardChannelDataCallback w dispatch c.session ch isStderr (c.buffered isStderr) p) s
      (fun i s' back =>
        back = s.answers w ch c (.forwardChannelCB p) i s'.context (.data isStderr bytes))
      (s.passes w ch c (.forwardChannelCB p) (.data isStderr bytes)) := by
  -- where nothing is passed on
  have keeps {back : Int}
      (nothing : s.passes w ch c (.forwardChannelCB p) (.data isStderr bytes) = none)
      (answer : ∀ now, back = s.answers w ch c (.forwardChannelCB p) none now (.data isStderr bytes)) :
      Asks dispatch (pure back : ProxyM Int) s (fun i s' back =>
        back = s.answers w ch c (.forwardChannelCB p) i s'.context (.data isStderr bytes))
        (s.passes w ch c (.forwardChannelCB p) (.data isStderr bytes)) := by
    rw [nothing]
    exact asks_pure (answer _)
  cases cell : s.pairs.cell p with
  | none =>
      have nothing : s.passes w ch c (.forwardChannelCB p) (.data isStderr bytes) = none := by
        simp [Proxy.passes, Proxy.outlet, cell]
      rw [nothing]
      exact asks_stop (bind_of_error (run_loadPair_of_none cell))
  | some pair =>
      refine asks_after (run_loadPair cell) ?_
      cases context : pair.context with
      | none =>
          apply keeps
          · simp [Proxy.passes, Proxy.outlet, cell, context]
          · simp [Proxy.answers, Proxy.swallows, cell, context]
      | some _ =>
          apply asks_get
          refine asks_then_idle (f := id) (P := fun i s' back =>
            back = s.answers w ch c (.forwardChannelCB p) i s'.context (.data isStderr bytes))
            ?_ fun _ _ _ holds => holds
          cases mode : w.config.forwardMode with
          | none =>
              apply keeps
              · simp [Proxy.passes, Proxy.outlet, cell, mode]
              · simp [Proxy.answers, Proxy.swallows, mode]
          | some forwardMode =>
              cases forwardMode with
              | allow | echo =>
                  simp only [Proxy.passes, Proxy.outlet, cell, mode, context, Option.bind_some]
                  refine asks_mono asks_writeNonblocking ?_
                  rintro i s' _ rfl
                  cases i <;>
                    simp [Proxy.answers, Proxy.swallows, Proxy.outlet, cell, mode, context]
              | null =>
                  apply keeps
                  · simp [Proxy.passes, Proxy.outlet, cell, mode]
                  · simp [Proxy.answers, Proxy.swallows, cell, mode, context]
              | deny | fake =>
                  apply keeps
                  · simp [Proxy.passes, Proxy.outlet, cell, mode]
                  · simp [Proxy.answers, Proxy.swallows, mode]

/-- An end of file on the channel of a pair is passed on to the other end, if the
callback finds one there. -/
theorem asks_forwardChannelEofCallback {p : PairId} :
    Asks dispatch (answerless (forwardChannelEofCallback w dispatch ch p)) s
      (fun _ _ back => back = 0) (s.passes w ch c (.forwardChannelCB p) .eof) := by
  unfold answerless forwardChannelEofCallback
  rw [bind_assoc]
  cases cell : s.pairs.cell p with
  | none =>
      have nothing : s.passes w ch c (.forwardChannelCB p) .eof = none := by
        simp [Proxy.passes, Proxy.outlet, cell]
      rw [nothing]
      exact asks_stop (bind_of_error (run_loadPair_of_none cell))
  | some pair =>
      refine asks_after (run_loadPair cell) ?_
      cases context : pair.context with
      | none =>
          have nothing : s.passes w ch c (.forwardChannelCB p) .eof = none := by
            simp [Proxy.passes, Proxy.outlet, cell, context]
          rw [nothing]
          exact asks_pure rfl
      | some _ =>
          simp only [bind_assoc]
          apply asks_get
          refine asks_then_idle (P := fun _ _ _ => True) ?_ fun _ _ _ _ => rfl
          by_cases allow : w.config.forwardMode = some .allow
          · have passed : s.passes w ch c (.forwardChannelCB p) .eof =
                (pair.otherEnd ch s.context).1.map .sendEof := by
              simp [Proxy.passes, Proxy.outlet, cell, context, allow]
            rw [passed, when, if_pos allow]
            exact asks_then asks_sendEof fun _ s' _ _ => ⟨s', (), rfl, trivial⟩
          · have nothing : s.passes w ch c (.forwardChannelCB p) .eof = none := by
              simp [Proxy.passes, allow]
            rw [nothing, when, if_neg allow]
            exact asks_pure trivial

/-- A callback that passes nothing on. -/
theorem asks_quiet {m : ProxyM Unit} (run : m s = ⟨[], s', .ok ()⟩) :
    Asks dispatch (answerless m) s (fun _ _ back => back = 0) none :=
  asks_after run (asks_pure rfl)

/-- **A callback on a channel** makes the call that passes its event on, or none. -/
theorem asks_channelCallback {m : ProxyM Int}
    (callback : channelCallback w dispatch ch c table event = some m) :
    Asks dispatch m s (fun i s' back => back = s.answers w ch c table i s'.context event)
      (s.passes w ch c table event) := by
  cases table with
  | trapChannelCB =>
      cases event with
      | ptyRequest => cases callback; exact asks_passOnOnce (fun _ => trivial) fun _ _ => rfl
      | ptyWindowChange => cases callback; exact asks_windowChange
      | shellRequest => cases callback; exact asks_passOnOnce (fun _ => trivial) fun _ _ => rfl
      | execRequest => cases callback; exact asks_passOnEach fun _ => trivial
      | envRequest => cases callback; exact asks_passOnEach fun _ => trivial
      | subsystemRequest =>
          cases callback
          exact asks_after run_idleTimerReset (asks_pure rfl)
      | authAgent => cases callback; exact asks_quiet run_idleTimerReset
      | x11 => cases callback; exact asks_quiet run_idleTimerReset
      | signal => cases callback; exact asks_passNotice fun _ => trivial
      | exitSignal => cases callback; exact asks_passNotice fun _ => trivial
      | exitStatus => cases callback; exact asks_passNotice fun _ => trivial
      | data =>
          cases callback
          refine asks_mono asks_relayData ?_
          rintro i s' _ rfl
          cases i <;> rfl
      | eof => cases callback; exact asks_relayEof
      | close => cases callback; exact asks_quiet rfl
  | haasChannelCB =>
      cases event with
      | signal => cases callback; exact asks_passNotice fun _ => trivial
      | exitSignal => cases callback; exact asks_passNotice fun _ => trivial
      | exitStatus => cases callback; exact asks_passNotice fun _ => trivial
      | data =>
          cases callback
          refine asks_mono asks_relayData ?_
          rintro i s' _ rfl
          cases i <;> rfl
      | eof => cases callback; exact asks_relayEof
      | close => cases callback; exact asks_quiet rfl
      | _ => cases callback
  | forwardChannelCB p =>
      cases event with
      | data => cases callback; exact asks_forwardChannelDataCallback
      | eof => cases callback; exact asks_forwardChannelEofCallback
      | close =>
          cases callback
          cases cell : s.pairs.cell p with
          | none => exact asks_stop (bind_of_error (bind_of_error (run_loadPair_of_none cell)))
          | some pair => exact asks_quiet (run_modifyPair cell)
      | _ => cases callback

end Asks

/-! ## Every run is a conversation

Callbacks that libssh makes while one is being passed on are conversations of their own
within it. -/

section Delivered

variable {w : World} {own : Bool} {dispatch : Nat → ProxyM Unit} {s : Proxy} {ch : ChannelId}
  {event : ChannelEvent}

/-- A callback on a channel, over callbacks that are conversations themselves. -/
theorem spoken_logged (nested : ∀ t, Speaks w false (dispatch t)) {c : Channel}
    {table : ChannelCallbacks} {m : ProxyM Int} (cell : s.channels.cell ch = some c)
    (callbacks : c.callbacks = some table)
    (asks : Asks dispatch m s (fun i s' back => back = s.answers w ch c table i s'.context event)
      (s.passes w ch c table event)) : (logged (.channel ch event) m s).Spoken w own := by
  cases passes : s.passes w ch c table event with
  | none =>
      rw [passes] at asks
      rcases asks with ⟨s', e, run⟩ | ⟨s', back, run, answer⟩
      · rw [run_logged_of_error run]
        refine ⟨[⟨s', .leave (.channel ch event),
          s.answers w ch c table none s'.context event⟩], ?_, nofun⟩
        exact .kept rfl cell callbacks passes rfl rfl .nil
      · rw [run_logged run]
        exact ⟨[], .kept rfl cell callbacks passes rfl answer .nil, fun _ _ => rfl⟩
  | some a =>
      rw [passes] at asks
      obtain ⟨s₁, s₂, i, t, ⟨l, s₃, e, dispatched, run⟩ | ⟨l, s₃, s', back, dispatched, run, answer⟩⟩ :=
        asks
      · obtain ⟨rest, spoken, -⟩ := nested t s₂
        rw [dispatched] at spoken
        rw [run_logged_of_error run]
        refine ⟨rest ++ [⟨s₃, .returned a, i⟩, ⟨s₃, .leave (.channel ch event),
          s.answers w ch c table (some i) s₃.context event⟩], ?_, nofun⟩
        rw [List.cons_append, List.cons_append, ← List.append_assoc]
        exact .passed rfl cell callbacks passes rfl spoken rfl rfl rfl rfl .nil
      · obtain ⟨rest, spoken, ended⟩ := nested t s₂
        rw [dispatched] at spoken ended
        obtain rfl := ended () rfl
        rw [List.append_nil] at spoken
        rw [run_logged run]
        refine ⟨[], ?_, fun _ _ => rfl⟩
        rw [List.append_nil, List.cons_append, List.append_assoc, List.singleton_append]
        exact .passed rfl cell callbacks passes rfl spoken rfl rfl rfl answer .nil

/-- An event that is delivered on a channel is one callback of the grammar. -/
theorem speaks_deliverChannel (nested : ∀ t, Speaks w false (dispatch t)) :
    Speaks w own (deliverChannel w dispatch ch event) := by
  apply speaks_bind (speaks_silent fun _ => rfl)
  intro _ s
  have got : (get : ProxyM Proxy) s = ⟨[], s, .ok s⟩ := rfl
  rw [bind_of_ok got]
  show Run.Spoken w own _
  cases cell : s.channels.cell ch with
  | none => exact speaks_pure () s
  | some c =>
      cases callbacks : c.callbacks with
      | none =>
          simp only [callbacks]
          exact speaks_pure () s
      | some table =>
          simp only [callbacks, Option.bind_some]
          cases callback : channelCallback w dispatch ch c table event with
          | none => exact speaks_pure () s
          | some m =>
              exact spoken_then (spoken_logged nested cell callbacks (asks_channelCallback callback))
                fun _ _ => rfl

end Delivered

/-- The dispatcher makes callbacks one after another. -/
theorem speaks_dispatchWithin (w : World) (depth t : Nat) :
    Speaks w false (dispatchWithin w depth t) := by
  induction depth generalizing t with
  | zero => exact speaks_pure ()
  | succ depth ih =>
      have each (cbs : List Callback) :
          Speaks w false (Traced.each cbs (deliver w (dispatchWithin w depth))) := by
        induction cbs with
        | nil => exact speaks_pure ()
        | cons cb cbs rest =>
            refine speaks_bind ?_ fun _ => rest
            have c := composed_speaks w
            have hd (t : Nat) := speaks_weaken (ih t)
            refine composed_deliver c.toComposed hd (freely_forwardRegister c hd) ?_ ?_ cb
            · intro ch event
              exact speaks_deliverChannel ih
            · intro cb m other body
              exact speaks_bind (speaks_logged other body) fun _ => speaks_pure ()
      exact each (w.callbacks t)

/-- **Every run of `ProxyProcess` is a conversation**: what was logged can be completed
to one, and is one if the run has come to its end. `Dialogue` is a grammar that does not
mention the program: a callback on a channel passes on the one call that belongs to it,
with the same arguments, or none, and whatever is called back meanwhile is a
conversation by itself. -/
theorem dialogue_proxyRun (w : World) (fuel depth : Nat) :
    ∃ rest, Dialogue w true ((proxyRun w fuel depth).log ++ rest) ∧
      ((proxyRun w fuel depth).value = .ok () → rest = []) := by
  have speaks : Speaks w true (proxyProcess w (dispatchWithin w depth) fuel) :=
    freely_proxyProcess (composed_speaks w) (fun t => speaks_weaken (speaks_dispatchWithin w depth t))
      fun _ => speaks_silent fun _ => rfl
  obtain ⟨rest, spoken, ended⟩ := speaks Proxy.initial
  exact ⟨rest, spoken, ended ()⟩

end HaasProxy
