import HaasProxy.Uniform

/-!
# Whether the sessions block (`proxy.c`)

A callback that writes to a channel, or closes one, keeps the session of the channel from
blocking meanwhile: it notes whether the session blocks, clears the flag, and restores
it.  libssh may make another callback in between, which does the same, so these stretches
nest in any order.

`modesKept_iff` says what that comes to: the flags are always restored, and data is
written to a session that does not block exactly where the callback clears the flag of
the session that the channel belongs to.

## Main definitions and results

* `ModesKept` — the flags are restored, and no session blocks while data is written to it;
* `Entry.exposed` — data arrives where the wrong flag is cleared;
* `Minds` — a program restores the flags, and writes only where it may;
* `congruence_minds`, `uniform_minds` — so does whatever is built of such programs;
* `modesKept_iff` — the result, for every tree of callbacks and every state.

## Design notes

**Stretches nest.**  What is restored is what was noted, and what was noted is what the
callback found.  If everything in between restores what it finds, the two are the same.
That is an induction over the depth, and `Minds` is what the induction says of a dispatcher.

**An equivalence through a composition.**  `MindsAt` is not that nothing goes wrong, but that
something goes wrong exactly if a certain entry is in the log.  For a sequence the two
sides add up, because the second program starts with the flags the first one has restored.
`risk` is the part of a program that has not been logged yet: the write of a callback whose
entry was logged by the one who made it.
-/

namespace HaasProxy

open Traced

/-! ## The callbacks and what they write -/

/-- `TrapMessageCallback`, `TrapNewChannel` and the data callbacks. -/
def Callback.Sectioned : Callback → Prop
  | newChannel | trapMessage _ | channel _ (.data ..) => True
  | _ => False

instance (cb : Callback) : Decidable cb.Sectioned := by
  unfold Callback.Sectioned
  split <;> infer_instance

/-- The session that the data callback of a channel keeps from blocking, by the table of
the channel's callbacks. -/
def Proxy.spared (w : World) (s : Proxy) (ch : ChannelId) (c : Channel) :
    ChannelCallbacks → Option SessionId
  | .trapChannelCB => s.context.haasSession
  | .haasChannelCB => some s.context.trapSession
  | .forwardChannelCB p =>
      match w.config.forwardMode with
      | some .allow => (s.pairs.cell p).bind fun pair => (pair.otherEnd ch s.context).2
      | _ => some c.session

/-- The channel's session blocks, and will once `spared` is kept from it. -/
def Proxy.risks (s : Proxy) (out : ChannelId) (spared : Option SessionId) : Bool :=
  (s.channels.cell out).any fun target =>
    s.blocking target.session && spared ≠ some target.session

/-- Data arrives on a channel, and what its callback writes to is of a session that blocks
and is not the one the callback keeps from blocking. -/
def Entry.exposed (w : World) (e : Entry) : Bool :=
  match e.action with
  | .enter (.channel ch (.data ..)) =>
      (e.before.channels.cell ch).any fun c => c.callbacks.any fun table =>
        (e.before.outlet w ch table).any fun out => e.before.risks out (e.before.spared w ch c table)
  | _ => false

/-- Data is written to a channel of a session that blocks. -/
def Entry.blocks (e : Entry) : Bool :=
  match e.action with
  | .call (.write out ..) =>
      (e.before.channels.cell out).any fun target => e.before.blocking target.session
  | _ => false

/-- The sessions of the context are the same, and block as they did. -/
structure Restored (s t : Proxy) : Prop where
  trapSession : t.context.trapSession = s.context.trapSession
  haasSession : t.context.haasSession = s.context.haasSession
  /-- Each session blocks or does not, as it did. -/
  blocking : t.blocking = s.blocking

/-- **The modes are kept**: if the callback returns the sessions block as they did before,
and nothing was written to one that did. -/
structure ModesKept (s : Proxy) (r : Run Entry Stop Proxy Unit) : Prop where
  /-- The modes are put back by whoever changes them. -/
  restored : r.value = .ok () → Restored s r.state
  /-- While data is written the session does not block. -/
  unblocked : ∀ e ∈ r.log, e.blocks = false

/-! ## Programs that mind the modes

A program that minds the modes restores what it changes, and while it runs something is
written to a session that blocks exactly if data has arrived somewhere where it is
exposed. Entries that are neither do not matter. -/

/-- From a state, a program restores the modes, and it writes to a session that blocks
exactly if it does so by itself or data arrives where it is exposed. -/
structure MindsAt (w : World) {α : Type} (m : ProxyM α) (s : Proxy) (risk : Bool) : Prop where
  /-- Wherever the program returns. -/
  restored : ∀ a, (m s).value = .ok a → Restored s (m s).state
  /-- `risk` is whether the program writes by itself to a session that blocks. -/
  writes : (risk = false ∧ ∀ e ∈ (m s).log, e.exposed w = false) ↔
    ∀ e ∈ (m s).log, e.blocks = false

/-- From every state, and not by itself. -/
def Minds (w : World) (α : Type) (m _m' : ProxyM α) : Prop := ∀ s, MindsAt w m s false

/-- What is neither. -/
structure Inert (w : World) (e : Entry) : Prop where
  exposed : e.exposed w = false
  blocks : e.blocks = false

section Minds

variable {w : World} {α β : Type} {m : ProxyM α} {k : α → ProxyM β} {s s' : Proxy} {risk : Bool}

namespace Restored

theorem refl (s : Proxy) : Restored s s := ⟨rfl, rfl, rfl⟩

theorem trans {a b c : Proxy} (first : Restored a b) (next : Restored b c) : Restored a c where
  trapSession := next.trapSession.trans first.trapSession
  haasSession := next.haasSession.trans first.haasSession
  blocking := next.blocking.trans first.blocking

theorem of_quiet (quiet : Quiet s s') : Restored s s' where
  trapSession := congrArg (fun sessions => sessions.1) quiet.sessions
  haasSession := congrArg (fun sessions => sessions.2.2.1) quiet.sessions
  blocking := quiet.blocking

end Restored

/-- An entry that is no callback and writes no data is none of those that are asked
about. -/
private theorem inert_of_usual {e : Entry} (usual : e.action.isSpecial = false) : Inert w e := by
  constructor
  · unfold Entry.exposed
    split
    · rename_i enter
      rw [enter] at usual
      cases usual
    · rfl
  · unfold Entry.blocks
    split
    · rename_i write
      rw [write] at usual
      cases usual
    · rfl

/-- A program that logs only such entries and restores the flags minds them. -/
theorem minds_plain (plain : Traced.Plain (fun _ => Inert w) Restored m) : Minds w α m m := by
  intro s
  obtain ⟨entries, restored⟩ := plain s
  refine ⟨fun _ _ => restored, ?_⟩
  constructor
  · intro _ e mem
    exact (entries e mem).blocks
  · intro _
    exact ⟨rfl, fun e mem => (entries e mem).exposed⟩

/-- What writes by itself, and a program after it. -/
theorem mindsAt_bind (first : MindsAt w m s risk) (next : ∀ a, Minds w β (k a) (k a)) :
    MindsAt w (m >>= k) s risk := by
  rcases run : m s with ⟨log, s', e | a⟩
  · obtain ⟨-, writes⟩ := first
    rw [run] at writes
    constructor
    · rw [bind_of_error run]
      intro b value
      cases value
    · rw [bind_of_error run]
      exact writes
  · obtain ⟨restored, writes⟩ := first
    rw [run] at restored writes
    obtain ⟨restored', writes'⟩ := next a s'
    constructor
    · rw [bind_of_ok run]
      intro b value
      exact (restored a rfl).trans (restored' b value)
    · rw [bind_of_ok run]
      simp only [List.forall_mem_append]
      rw [← writes, ← writes']
      simp only [true_and]
      exact and_assoc.symm

/-- What writes by itself, after a program that does nothing of the kind. -/
theorem mindsAt_bind_of_run {a : α} {t : Proxy} (run : m s = ⟨[], t, .ok a⟩)
    (restored : Restored s t) (next : MindsAt w (k a) t risk) : MindsAt w (m >>= k) s risk := by
  obtain ⟨restored', writes⟩ := next
  constructor
  · rw [bind_of_ok run]
    intro b value
    exact restored.trans (restored' b value)
  · rw [bind_of_ok run]
    exact writes

/-- A program that stops at once. -/
theorem mindsAt_of_error {e : Stop} (run : m s = ⟨[], s, .error e⟩) : MindsAt w m s false := by
  constructor
  · rw [run]
    intro a value
    cases value
  · rw [run]
    simp

/-- **What is built of programs that mind their flags minds them.** The second program
of a sequence starts with the flags that the first one has restored. -/
theorem congruence_minds (w : World) : Congruence (fun _ => Inert w) Restored (Minds w) where
  refl := .refl
  trans _ _ _ := .trans
  plain := minds_plain
  bind first next s := mindsAt_bind (first s) fun a s => next a s

end Minds

/-! ## A stretch in which a session does not block

The flag is noted and cleared in front of it and restored behind it. The callbacks that
come in between find the flag cleared, and restore it as cleared. -/

section Stretch

variable {w : World} {α : Type} {m m' : ProxyM α} {session : Context → Option SessionId}
  {s : Proxy} {risk : Bool}

/-- `ssh_set_blocking`. -/
def Proxy.block (s : Proxy) (session : Option SessionId) (blocking : Bool) : Proxy :=
  session.elim s fun id => { s with blocking := Function.update s.blocking id blocking }

@[simp] theorem context_block (s : Proxy) (session : Option SessionId) (blocking : Bool) :
    (s.block session blocking).context = s.context := by
  cases session <;> rfl

/-- A stretch without blocking: the flag is cleared, the program runs, and the flag is
written back with the value it had at first. -/
theorem nonblocking_eq : nonblocking session m s = (m >>= fun a => get >>= fun t =>
    sshSetBlocking (session t.context) ((session s.context).elim false s.blocking) >>= fun _ =>
      pure a) (s.block (session s.context) false) := rfl

/-- Where the program returns, the flag is written back. -/
theorem run_nonblocking {log : List Entry} {t : Proxy} {a : α}
    (run : m (s.block (session s.context) false) = ⟨log, t, .ok a⟩) :
    nonblocking session m s =
      ⟨log, t.block (session t.context) ((session s.context).elim false s.blocking), .ok a⟩ := by
  rw [nonblocking_eq, bind_of_ok run]
  show (⟨log ++ [], _, _⟩ : Run Entry Stop Proxy α) = _
  rw [List.append_nil]
  rfl

/-- Where the program stops there is nobody to write the flag back. -/
theorem run_nonblocking_error {log : List Entry} {t : Proxy} {e : Stop}
    (run : m (s.block (session s.context) false) = ⟨log, t, .error e⟩) :
    nonblocking session m s = ⟨log, t, .error e⟩ := by
  rw [nonblocking_eq, bind_of_error run]

/-- The flag that was cleared is what it was. -/
private theorem restored_block {session : Option SessionId} {t : Proxy}
    (restored : Restored (s.block session false) t) :
    Restored s (t.block session (session.elim false s.blocking)) := by
  cases session with
  | none => exact restored
  | some id =>
      refine ⟨restored.trapSession, restored.haasSession, ?_⟩
      have blocking : t.blocking = Function.update s.blocking id false := restored.blocking
      show Function.update t.blocking id (s.blocking id) = s.blocking
      rw [blocking, Function.update_idem, Function.update_eq_self]

/-- Whatever happens in the stretch, the mode of the session is restored at its end. -/
theorem mindsAt_nonblocking (same : OfSessions session)
    (inner : MindsAt w m (s.block (session s.context) false) risk) :
    MindsAt w (nonblocking session m) s risk := by
  obtain ⟨restored, writes⟩ := inner
  rcases run : m (s.block (session s.context) false) with ⟨log, t, e | a⟩
  · rw [run] at writes
    constructor
    · rw [run_nonblocking_error run]
      intro b value
      cases value
    · rw [run_nonblocking_error run]
      exact writes
  · rw [run] at restored writes
    constructor
    · rw [run_nonblocking run]
      intro b _
      have restored : Restored (s.block (session s.context) false) t := restored a rfl
      have kept : session t.context = session s.context :=
        same _ _ (by simpa using restored.trapSession) (by simpa using restored.haasSession)
      show Restored s (t.block (session t.context) _)
      rw [kept]
      exact restored_block restored
    · rw [run_nonblocking run]
      exact writes

/-- **A stretch in which a session does not block** minds its flags as well: what is
written back is what was there, since the program in between has restored it. So every
function of the proxy minds them. -/
theorem uniform_minds (w : World) : Uniform (fun _ => Inert w) Restored (Minds w) where
  toCongruence := congruence_minds w
  still _ _ := .of_quiet
  usual _ := inert_of_usual
  nonblocking same inner _ := mindsAt_nonblocking same (inner _)

end Stretch

/-! ## Data

The places where data is written: both session channels, and the ends of a pair. The flag
that is cleared is that of one session, and the channel that is written to belongs to one;
whether they are the same is what makes the risk. -/

section Data

variable {w : World} {dispatch dispatch' : Nat → ProxyM Unit}
  (nested : ∀ t, Minds w Unit (dispatch t) (dispatch' t))

include nested

omit nested in
/-- Whether a write goes to a session that blocks is the same before the flag is cleared
as after, since the session that is spared does not count. -/
private theorem risks_eq {s : Proxy} {out : ChannelId} {spared : Option SessionId} :
    ((s.block spared false).channels.cell out).any
      (fun target => (s.block spared false).blocking target.session) = s.risks out spared := by
  unfold Proxy.risks
  cases spared with
  | none => simp [Proxy.block]
  | some id =>
      cases cell : s.channels.cell out with
      | none => simp [Proxy.block, cell]
      | some target =>
          by_cases spared : id = target.session
          · simp [Proxy.block, cell, spared]
          · simp [Proxy.block, cell, spared, Function.update_of_ne (Ne.symm spared)]

/-- A write, in a state in which the session to be spared does not block. -/
theorem mindsAt_sshChannelWrite {s : Proxy} {out : ChannelId} {spared : Option SessionId}
    {isStderr : Bool} {data : List UInt8} :
    MindsAt w (sshChannelWrite w dispatch (some out) isStderr data) (s.block spared false)
      (s.risks out spared) := by
  have u := uniform_minds w
  refine mindsAt_bind_of_run rfl (.refl _) (mindsAt_bind ?_ fun i => u.pure _)
  refine mindsAt_bind_of_run (t := (s.block spared false).tock) rfl ⟨rfl, rfl, rfl⟩
    (mindsAt_bind ?_ fun _ => ?_)
  · refine ⟨fun _ _ => .refl _, ?_⟩
    have one (P : Entry → Prop) (e : Entry) : (∀ e' ∈ [e], P e') ↔ P e := List.forall_mem_singleton
    show (_ ∧ ∀ e ∈ [_], _) ↔ ∀ e ∈ [_], _
    rw [one, one, ← risks_eq]
    exact and_iff_left rfl
  · apply u.bind (related_updateChannel u)
    intro _
    refine u.bind (u.when ?_) fun _ => u.pure _
    apply u.bind (nested _)
    intro _
    exact related_tell u rfl

/-- A write of data is exposed as far as the channel's session is not the one whose flag
was cleared. -/
theorem mindsAt_writeNonblocking {s : Proxy} {session : Context → Option SessionId}
    (same : OfSessions session) {out : ChannelId} {isStderr : Bool} {data : List UInt8} :
    MindsAt w (writeNonblocking w dispatch session (some out) isStderr data) s
      (s.risks out (session s.context)) :=
  mindsAt_nonblocking same (mindsAt_sshChannelWrite nested)

/-- What a data callback does, by the table of its channel's callbacks. -/
theorem mindsAt_channelCallback {s : Proxy} {ch : ChannelId} {c : Channel}
    {table : ChannelCallbacks} {isStderr : Bool} {bytes : List UInt8} {m : ProxyM Int}
    (callback : channelCallback w dispatch ch c table (.data isStderr bytes) = some m) :
    MindsAt w m s ((s.outlet w ch table).any fun out => s.risks out (s.spared w ch c table)) := by
  -- both session channels write while the session at the other end does not block
  have relay {session : Context → Option SessionId} (same : OfSessions session)
      (channel : Context → Option ChannelId) {data : List UInt8} :
      MindsAt w (relayData w dispatch session channel isStderr data) s
        ((channel s.context).any fun out => s.risks out (session s.context)) := by
    have u := uniform_minds w
    refine mindsAt_bind_of_run (t := s) rfl (.refl s) (mindsAt_bind ?_ fun back =>
      u.bind (related_idleTimerReset u) fun _ => u.pure back)
    cases channel s.context with
    | none => exact u.pure sshError s
    | some out => exact mindsAt_writeNonblocking nested same
  cases table with
  | trapChannelCB =>
      cases callback
      exact relay ofSessions_haasSession _
  | haasChannelCB =>
      cases callback
      exact relay ofSessions_trapSession _
  | forwardChannelCB p =>
      cases callback
      have u := uniform_minds w
      -- a forward writes in `ALLOW` and in `ECHO` mode only, and each of them clears one flag
      cases cell : s.pairs.cell p with
      | none =>
          simp only [Proxy.outlet, cell, Option.bind_none, Option.any_none]
          exact mindsAt_of_error (bind_of_error (run_loadPair_of_none cell))
      | some pair =>
          refine mindsAt_bind_of_run (run_loadPair cell) (.refl s) ?_
          cases context : pair.context with
          | none =>
              simp only [Proxy.outlet, cell, Option.bind_some, context, if_true, Option.any_none]
              exact u.pure sshError s
          | some reference =>
              refine mindsAt_bind_of_run (t := s) rfl (.refl s) (mindsAt_bind ?_ fun back =>
                u.bind (related_idleTimerReset u) fun _ => u.pure back)
              simp only [Proxy.outlet, Proxy.spared, cell, Option.bind_some, context,
                reduceCtorEq, if_false]
              generalize w.config.forwardMode = mode
              cases mode with
              | none => exact u.pure sshError s
              | some mode =>
                  cases mode with
                  | allow =>
                      generalize (pair.otherEnd ch s.context).1 = other
                      cases other with
                      | none =>
                          exact mindsAt_nonblocking (ofSessions_const _) (u.pure sshError _)
                      | some out => exact mindsAt_writeNonblocking nested (ofSessions_const _)
                  | echo => exact mindsAt_writeNonblocking nested (ofSessions_const _)
                  | null => exact u.pure _ s
                  | deny => exact u.pure sshError s
                  | fake => exact u.pure sshError s

/-! ## Callbacks

A callback that was logged when it began accounts for the risk of its own write. So a
callback that is delivered minds the modes, and with it all those within. -/

omit nested in
/-- A callback is entered and left; it exposes what its body risks. -/
theorem minds_logged {cb : Callback} {m : ProxyM Int} {s : Proxy} {risk : Bool}
    (exposed : (⟨s, .enter cb, 0⟩ : Entry).exposed w = risk) (body : MindsAt w m s risk) :
    MindsAt w (logged cb m) s false := by
  have left (back : Int) : Minds w Int
      (tell (fun s => ⟨s, .leave cb, back⟩) >>= fun _ => pure back)
      (tell (fun s => ⟨s, .leave cb, back⟩) >>= fun _ => pure back) :=
    (congruence_minds w).bind ((congruence_minds w).tell fun _ => ⟨rfl, rfl⟩) fun _ =>
      (congruence_minds w).pure back
  have entered : (tell (fun s => ⟨s, .enter cb, 0⟩) : ProxyM Unit) s =
      ⟨[⟨s, .enter cb, 0⟩], s, .ok ()⟩ := rfl
  obtain ⟨restored, writes⟩ := mindsAt_bind body left
  unfold logged
  constructor
  · rw [bind_of_ok entered]
    exact restored
  · rw [bind_of_ok entered]
    simp only [List.singleton_append, List.forall_mem_cons]
    rw [exposed, true_and, writes]
    exact (and_iff_right rfl).symm

/-- A request for a session channel, which writes no data. -/
theorem minds_newChannel : Minds w Int
    (do
      let ch ← trapNewChannel w dispatch
      pure (ch.elim 0 fun ch => (ch : Int) + 1)) (pure 0) := by
  have u := uniform_minds w
  have opens : Minds w (Option ChannelId) (trapNewChannel w dispatch)
      (trapNewChannel (w.withMode true 0) dispatch') :=
    related_trapNewChannel u nested fun _ _ => u.modify fun _ => ⟨rfl, rfl, rfl⟩
  exact u.bind opens fun _ => u.pure _

/-- A data callback, by the table of its channel. Without a table there is none. -/
theorem minds_deliverChannel {ch : ChannelId} {isStderr : Bool} {bytes : List UInt8} :
    Minds w Unit (deliverChannel w dispatch ch (.data isStderr bytes))
      (deliverChannel w dispatch ch (.data isStderr bytes)) := by
  have u := uniform_minds w
  apply u.bind (related_updateChannel u)
  intro _ s
  refine mindsAt_bind_of_run (t := s) rfl (.refl s) ?_
  cases cell : s.channels.cell ch with
  | none => exact u.pure () s
  | some c =>
      cases callbacks : c.callbacks with
      | none =>
          simp only [callbacks, Option.bind_none]
          exact u.pure () s
      | some table =>
          simp only [callbacks, Option.bind_some]
          cases callback : channelCallback w dispatch ch c table (.data isStderr bytes) with
          | none => exact u.pure () s
          | some m =>
              refine mindsAt_bind (minds_logged ?_ (mindsAt_channelCallback nested callback))
                fun back => related_updateChannel u
              simp only [Entry.exposed, cell, callbacks, Option.any_some]

/-- One of these callbacks minds the modes, whatever callbacks come within it. -/
theorem minds_deliver {cb : Callback} (sectioned : cb.Sectioned) :
    Minds w Unit (deliver w dispatch cb) (pure ()) := by
  have u := uniform_minds w
  have body {cb : Callback} {m m' : ProxyM Int} (other : ∀ ch isStderr bytes,
      cb ≠ .channel ch (.data isStderr bytes)) (first : Minds w Int m m') :
      Minds w Unit (logged cb m >>= fun _ => pure ()) (pure ()) := by
    intro s
    refine mindsAt_bind (minds_logged ?_ (first s)) fun _ => u.pure ()
    unfold Entry.exposed
    split
    · rename_i enter
      exact absurd (Interaction.enter.inj enter) (other _ _ _)
    · rfl
  cases cb with
  | newChannel => exact body (by simp) (minds_newChannel nested)
  | trapMessage msg =>
      have message : Minds w Int (trapMessageCallback w dispatch msg)
          (trapMessageCallback (w.withMode true 0) dispatch' msg) :=
        related_trapMessageCallback u nested
      exact body (by simp) message
  | channel ch event =>
      cases event with
      | data isStderr bytes =>
          intro s
          exact minds_deliverChannel nested s
      | _ => exact absurd sectioned id
  | _ => exact absurd sectioned id

end Data

/-- The dispatchers, when libssh makes no other callbacks. -/
theorem minds_dispatchWithin {w : World}
    (sectioned : ∀ t, ∀ cb ∈ w.callbacks t, cb.Sectioned) (depth t : Nat) :
    Minds w Unit (dispatchWithin w depth t) (dispatchWithin w depth t) := by
  have u := congruence_minds w
  induction depth generalizing t with
  | zero => exact u.pure ()
  | succ depth ih =>
      have all := sectioned t
      show Minds w Unit (each (w.callbacks t) (deliver w (dispatchWithin w depth))) _
      generalize w.callbacks t = cbs at all ⊢
      induction cbs with
      | nil => exact u.pure ()
      | cons cb cbs rest =>
          rw [List.forall_mem_cons] at all
          exact u.bind (minds_deliver ih all.1) fun _ => rest all.2

/-- **The modes are kept** by a tree of callbacks exactly if data arrives nowhere in it
where what is written is exposed. The callbacks of the tree are `TrapMessageCallback`,
`TrapNewChannel` and the data callbacks, nested to any depth and begun in any state. A
write is exposed if its channel belongs to a session that blocks, and that is not the
one whose flag the callback has cleared. -/
theorem modesKept_iff (w : World) (sectioned : ∀ t, ∀ cb ∈ w.callbacks t, cb.Sectioned)
    (depth : Nat) (s : Proxy) (cb : Callback) (outermost : cb.Sectioned) :
    ModesKept s (deliver w (dispatchWithin w depth) cb s) ↔
      ∀ e ∈ (deliver w (dispatchWithin w depth) cb s).log, e.exposed w = false := by
  obtain ⟨restored, writes⟩ := minds_deliver (minds_dispatchWithin sectioned depth) outermost s
  constructor
  · intro kept
    exact (writes.mpr kept.unblocked).2
  · intro unexposed
    exact ⟨restored (), writes.mp ⟨rfl, unexposed⟩⟩

/-- What the client sends on its session channel. -/
def clientData : Callback := .channel 0 (.data false (ascii "ls"))

/-- A client that has logged in and opened a session channel. -/
def loggedIn : Proxy := (proxyRun (.scripted .allow [(13, 2)] [(6, loginAndChannel)]) 1 1).state

/-- While what the client sent is written, the backend sends something, and while that is
written the client asks for a forward and for another session channel. -/
def fullDuplex : World :=
  .scripted .allow [] [(loggedIn.tick, [.channel 1 (.data true (ascii "root"))]),
    (loggedIn.tick + 1, [requestForward, .newChannel])]

private theorem sectioned_scripted {mode : ForwardMode} {answers : List (Nat × Int)}
    {deliveries : List (Nat × List Callback)}
    (all : ∀ delivery ∈ deliveries, ∀ cb ∈ delivery.2, cb.Sectioned) :
    ∀ t, ∀ cb ∈ (World.scripted mode answers deliveries).callbacks t, cb.Sectioned := by
  intro t cb mem
  unfold World.scripted at mem
  cases found : deliveries.lookup t with
  | none => simp [found] at mem
  | some cbs =>
      obtain ⟨l₁, l₂, split, -⟩ := List.lookup_eq_some_iff.mp found
      refine all (t, cbs) (split ▸ List.mem_append_right l₁ List.mem_cons_self) cb ?_
      simpa [found] using mem

/-- The condition is met where data goes both ways at once. -/
theorem modesKept_fullDuplex :
    ModesKept loggedIn (deliver fullDuplex (dispatchWithin fullDuplex 3) clientData loggedIn) :=
  (modesKept_iff fullDuplex (sectioned_scripted (by decide +kernel)) 3 loggedIn clientData
    (by decide)).mpr (by decide +kernel)

/-- A client that sends its password again once it has a session channel, and the backend
accepts it again. -/
def passwordAgain : World :=
  .scripted .fake [(12, 2), (27, 2)] [(5, loginAndChannel ++ [somePassword])]

/-- What the client sends then goes to a channel of the first session, which blocks. -/
theorem passwordAgain_notKept :
    ¬ ModesKept (proxyRun passwordAgain 1 1).state
      (deliver passwordAgain (dispatchWithin passwordAgain 1) clientData
        (proxyRun passwordAgain 1 1).state) := by
  have blocks : ∃ e ∈ (deliver passwordAgain (dispatchWithin passwordAgain 1) clientData
      (proxyRun passwordAgain 1 1).state).log, e.blocks = true := by decide +kernel
  intro kept
  obtain ⟨e, mem, blocks⟩ := blocks
  exact Bool.false_ne_true ((kept.unblocked e mem).symm.trans blocks)

end HaasProxy
