import HaasProxy.Uniform

/-!
# The running mode (`proxy.c`)

Two configurations that differ in `Foreground` and `DebugLevel` only.  Nothing the
proxy does depends on `DebugLevel`, and `HaasConnect` alone looks at `Foreground`: it
tells libssh the name of the user in foreground mode, and otherwise leaves libssh to
log in under the name of the local user.

So two runs are one and the same if the modes are, or if no login gets as far as
that: `sameOutside_of_unreached`.

## Main definitions and results

* `SameOutside` — the same calls, names and answers, each in the same order;
* `Entry.Prepares` — a login gets a session of libssh, so that the mode matters;
* `Agree` — two programs do the same wherever it does not;
* `agree_haasConnect` — the one function that looks at the mode;
* `proxyRun_withMode`, `sameOutside_of_unreached` — the results.

## Design notes

`Agree` is a `Uniform` congruence.  So that two runs agree is the lemma about
`HaasConnect`, and nothing has to be said of any other function.

What can be seen from outside is defined by the log, without regard to the state: which
calls are about the backend, the user name in use at each login, and what the callbacks
answer.  The runs turn out to be equal altogether.
-/

namespace HaasProxy

open Traced

/-! ## What can be seen from outside -/

/-- The call is an operation towards the backend: it is about a session other than
the client's, or about a channel of one. -/
def Call.toBackend (s : Proxy) : Call → Bool
  | optionsSetHost session _ | optionsSetPort session _ | optionsSetTimeout session _
  | connect session | userauthNone session | userauthList session | userauthPassword session _
  | disconnect session | free session | channelNew session =>
      session ≠ s.context.trapSession
  | c => (c.channel?.bind s.channels.cell).any fun c => c.session ≠ s.context.trapSession

/-- The operations towards the backend, with their arguments and in their order. -/
def backendCalls (log : List Entry) : List Call :=
  log.filterMap fun e =>
    match e.action with
    | .call c => if c.toBackend e.before then some c else none
    | _ => none

/-- The name that a session logs in under: the one set last, or that of the local
user. -/
def nameOf (session : SessionId) (log : List Entry) : Option CString :=
  (log.filterMap fun e =>
    match e.action with
    | .call (.optionsSetUser session' user) => if session' = session then some user else none
    | _ => none).getLast?

/-- The names offered to the backend, one for each attempt to log in after `before`. -/
def namesOffered (before : List Entry) : List Entry → List (Option CString)
  | [] => []
  | e :: log =>
      match e.action with
      | .call (.userauthNone session) | .call (.userauthPassword session _) =>
          nameOf session before :: namesOffered (before ++ [e]) log
      | _ => namesOffered (before ++ [e]) log

/-- What the callbacks answer, in their order. -/
def answersGiven (log : List Entry) : List (Callback × Int) :=
  log.filterMap fun e =>
    match e.action with
    | .leave cb => some (cb, e.answer)
    | _ => none

/-- **Two runs look the same from outside.** -/
structure SameOutside (log log' : List Entry) : Prop where
  /-- The operations towards it, with their arguments and in their order. -/
  calls : backendCalls log = backendCalls log'
  /-- The user names that are offered to it. -/
  names : namesOffered [] log = namesOffered [] log'
  /-- What the callbacks answer. -/
  answers : answersGiven log = answersGiven log'

/-! ## Runs in two modes

The congruence is equality of log, answer and state. The only function that is not built
of pieces that agree is `HaasConnect`, and it does as long as `ssh_new` fails or the
branch is the same. -/

/-- A login gets a session of libssh to prepare. -/
def Entry.Prepares (e : Entry) : Prop := e.action = .call .new ∧ e.answer = sshOk

instance (e : Entry) : Decidable e.Prepares := inferInstanceAs (Decidable (_ ∧ _))

/-- The programs do the same, if the modes are the same or wherever no login gets a
session. -/
def Agree (modes : Prop) (α : Type) (m m' : ProxyM α) : Prop :=
  ∀ s, (modes ∨ ∀ e ∈ (m s).log, ¬ e.Prepares) → m' s = m s

section Agree

variable {modes : Prop} {α β : Type}

theorem agree_refl (m : ProxyM α) : Agree modes α m m := fun _ _ => rfl

/-- The rule of sequence. It is enough that the second programs agree at the value and
in the state that the first ones have come to, which are the same. -/
theorem agree_bind {m m' : ProxyM α} {k k' : α → ProxyM β} (first : Agree modes α m m')
    (next : ∀ a, Agree modes β (k a) (k' a)) : Agree modes β (m >>= k) (m' >>= k') := by
  intro s unprepared
  rcases run : m s with ⟨log, s', e | a⟩
  · rw [bind_of_error run] at unprepared ⊢
    have same : m' s = m s := first s (by rwa [run])
    rw [run] at same
    exact bind_of_error same
  · rw [bind_of_ok run] at unprepared ⊢
    have same : m' s = m s := by
      apply first s
      rw [run]
      exact unprepared.imp_right fun none e mem => none e (List.mem_append_left _ mem)
    have rest : k' a s' = k a s' := by
      apply next a s'
      exact unprepared.imp_right fun none e mem => none e (List.mem_append_right _ mem)
    rw [run] at same
    rw [bind_of_ok same, rest]

theorem congruence_agree : Congruence Own SameChannels (Agree modes) where
  refl := .refl
  trans _ _ _ := .trans
  plain _ := agree_refl _
  bind := agree_bind

/-- Agreement does not look at the modes of the sessions. So every function agrees with
itself in another running mode if the login does. -/
theorem uniform_agree : Uniform Own SameChannels (Agree modes) :=
  uniform_of_congruence congruence_agree

/-- A callback that agrees does so with its entries. -/
theorem agree_logged (cb : Callback) {m m' : ProxyM Int} (first : Agree modes Int m m') :
    Agree modes Int (logged cb m) (logged cb m') := by
  apply agree_bind (agree_refl _)
  intro _
  apply agree_bind first
  intro back
  exact agree_refl _

end Agree

section Runs

variable {w : World} {foreground : Bool} {debugLevel : Int} {dispatch dispatch' : Nat → ProxyM Unit}

theorem run_sshNew (s : Proxy) : sshNew w dispatch s =
    ⟨[⟨s.tock, .call .new, w.answer s.tick⟩], Call.new.effect (w.answer s.tick) s.tock,
      .ok (if w.answer s.tick = sshOk then some s.sessions else none)⟩ := by
  have quiet : ¬ Call.new.Dispatches := id
  simp only [sshNew, callWith, when, if_neg quiet]
  rfl

/-- **A login** that gets no session does the same in both modes. -/
theorem agree_haasConnect
    (nested : ∀ t, Agree (foreground = w.config.foreground) Unit (dispatch t) (dispatch' t))
    (user password : CString) :
    Agree (foreground = w.config.foreground) Int (haasConnect w dispatch user password)
      (haasConnect (w.withMode foreground debugLevel) dispatch' user password) := by
  intro s unprepared
  rcases unprepared with same | unprepared
  · exact related_haasConnect uniform_agree nested same (fun _ => agree_refl _) s (.inl same)
  · by_cases obtained : w.answer s.tick = sshOk
    · refine absurd ⟨rfl, obtained⟩ (unprepared ⟨s.tock, .call .new, w.answer s.tick⟩ ?_)
      rw [haasConnect, bind_of_ok (run_sshNew s)]
      exact List.mem_append_left _ List.mem_cons_self
    · have nothing : sshNew w dispatch s = ⟨[⟨s.tock, .call .new, w.answer s.tick⟩],
          Call.new.effect (w.answer s.tick) s.tock, .ok none⟩ := by
        rw [run_sshNew, if_neg obtained]
      have nothing' : sshNew (w.withMode foreground debugLevel) dispatch' s =
          ⟨[⟨s.tock, .call .new, w.answer s.tick⟩],
            Call.new.effect (w.answer s.tick) s.tock, .ok none⟩ := by
        rw [run_sshNew]
        exact congrArg _ (congrArg _ (if_neg obtained))
      rw [haasConnect, haasConnect, bind_of_ok nothing, bind_of_ok nothing']

/-- What is left to congruences is related where the dispatchers are. -/
theorem related_agree
    (nested : ∀ t, Agree (foreground = w.config.foreground) Unit (dispatch t) (dispatch' t)) :
    Related (Agree (foreground = w.config.foreground)) w foreground debugLevel dispatch
      dispatch' where
  nested := nested
  login := agree_haasConnect nested
  write := related_writeNonblocking congruence_agree nested
  newChannel := by
    refine agree_bind (agree_logged _ (agree_bind ?_ fun ch => agree_refl _)) fun _ => agree_refl _
    exact related_trapNewChannel uniform_agree nested fun _ _ => agree_refl _
  data _ _ _ := related_deliverChannel uniform_agree nested
    (related_writeNonblocking congruence_agree nested) fun _ _ => agree_logged _
  logged cb m m' _ first := agree_logged cb first

/-- **Two runs are the same** if the modes are, or if no login gets a session. -/
theorem proxyRun_withMode {fuel depth : Nat}
    (unprepared : foreground = w.config.foreground ∨
      ∀ e ∈ (proxyRun w fuel depth).log, ¬ e.Prepares) :
    proxyRun (w.withMode foreground debugLevel) fuel depth = proxyRun w fuel depth := by
  have nested (t : Nat) : Agree (foreground = w.config.foreground) Unit
      (dispatchWithin w depth t) (dispatchWithin (w.withMode foreground debugLevel) depth t) :=
    related_dispatchWithin uniform_agree (fun _ _ nested => related_agree nested) depth t
  exact related_proxyProcess uniform_agree nested Proxy.initial unprepared

end Runs

/-- **The running mode does not show** in runs of the same mode, whatever the debug
level, and in runs in which no login gets as far as to prepare a session of libssh. Two
runs with the same answers are compared, and they are the same entry by entry. The one
branch on `Foreground` is the user's name in `HaasConnect`, which comes right behind
`ssh_new`. -/
theorem sameOutside_of_unreached (w : World) (fuel depth : Nat) (foreground : Bool)
    (debugLevel : Int)
    (unprepared : foreground = w.config.foreground ∨
      ∀ e ∈ (proxyRun w fuel depth).log, ¬ e.Prepares) :
    SameOutside (proxyRun w fuel depth).log
      (proxyRun (w.withMode foreground debugLevel) fuel depth).log := by
  rw [proxyRun_withMode unprepared]
  exact ⟨rfl, rfl, rfl⟩

/-- A client tries a password, and the backend refuses it; the proxy runs in the
background. -/
def inBackground : World :=
  .scripted .fake [(12, 2), (13, 2), (14, 2), (19, -1), (20, -1)] [(5, [somePassword])]

/-- The same client, when there is no memory for a session with the backend. -/
def withoutSession : World := .scripted .fake [(6, sshError)] [(5, [somePassword])]

/-- Both ways to meet the condition: the debug level alone differs, or the modes do and the
login does not get a session. -/
theorem sameOutside_inBackground :
    SameOutside (proxyRun inBackground 3 1).log
      (proxyRun (inBackground.withMode false 3) 3 1).log ∧
    SameOutside (proxyRun withoutSession 3 1).log
      (proxyRun (withoutSession.withMode true 0) 3 1).log ∧
    (∃ e ∈ (proxyRun withoutSession 3 1).log, e.action = .call .new) ∧
    withoutSession.config.foreground = false :=
  ⟨sameOutside_of_unreached inBackground 3 1 false 3 (.inl rfl),
    sameOutside_of_unreached withoutSession 3 1 true 0 (.inr (by decide +kernel)),
    by decide +kernel, rfl⟩

/-- In foreground mode the backend is offered another name. -/
theorem inBackground_notSameOutside :
    namesOffered [] (proxyRun inBackground 3 1).log = [none, none] ∧
    namesOffered [] (proxyRun (inBackground.withMode true 0) 3 1).log = [some .root, some .root] ∧
    ¬ SameOutside (proxyRun inBackground 3 1).log
      (proxyRun (inBackground.withMode true 0) 3 1).log := by
  have background : namesOffered [] (proxyRun inBackground 3 1).log = [none, none] := by
    decide +kernel
  have foreground : namesOffered [] (proxyRun (inBackground.withMode true 0) 3 1).log =
      [some .root, some .root] := by
    decide +kernel
  refine ⟨background, foreground, ?_⟩
  intro same
  have names := same.names
  rw [background, foreground] at names
  cases names

end HaasProxy
