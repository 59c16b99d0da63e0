import HaasProxy.Transitions.Inversion

/-!
# What a step does to channels and pairs

A channel belongs to the session it was obtained from for as long as it is there:
`Inherits` says that of two states, and `inherits_of_advance` that a step obtains
at most one new channel.  A pair gets a channel to the destination only where the
pair is put into the pool (`destiny_of_advance`).

## Main results

* `inherits_of_advance` — a step obtains at most one channel, the others keep their sessions;
* `repairs_of_advance` — what a step does to the pairs, in six cases;
* `callsBack_of_advance` — what calls back into a pair did so before, or the pair is new in
  the pool.

## Design notes

`Carries` is about any part `K` of what libssh keeps about a channel: its session, its table, or
its data.  A step that changes one channel carries every part that the change leaves alone,
so the lemmas about the effects of calls are proved once for all parts.

None of the lemmas assumes that callbacks do not nest.  What holds only then is in
`Handling.lean`.
-/

namespace HaasProxy

/-- Every channel of `t` was there in `s`, with the same `K`. -/
def Carries {α : Type} (K : Channel → α) (s t : Proxy) : Prop :=
  ∀ ch c', t.channels.cell ch = some c' → ∃ c, s.channels.cell ch = some c ∧ K c' = K c

namespace Carries

variable {α : Type} {K : Channel → α} {s t : Proxy}

theorem of_channels (same : t.channels = s.channels) : Carries K s t := by
  intro ch c' cell
  rw [same] at cell
  exact ⟨c', cell, rfl⟩

theorem refl (s : Proxy) : Carries K s s := .of_channels rfl

/-- A change to the record of a channel that keeps `K`. -/
theorem updateChannel (keeps : Carries K s t) (ch : ChannelId) {f : Channel → Channel}
    (same : ∀ c, K (f c) = K c) : Carries K s (t.updateChannel ch f) := by
  intro ch' c' cell
  rw [cell_updateChannel] at cell
  split at cell
  · obtain ⟨c, old, rfl⟩ := Option.map_eq_some_iff.mp cell
    obtain ⟨c₀, older, eq⟩ := keeps ch' c old
    exact ⟨c₀, older, (same c).trans eq⟩
  · exact keeps ch' c' cell

/-- A channel that is freed is not there any more, so nothing is asked of it. -/
theorem freeChannel (keeps : Carries K s t) (ch : ChannelId) : Carries K s (t.freeChannel ch) := by
  intro ch' c' cell
  by_cases same : ch' = ch
  · subst same
    cases (t.channels.cell_free_self).symm.trans cell
  · exact keeps ch' c' ((t.channels.cell_free_of_ne same).symm.trans cell)

end Carries

/-- Every channel of `t` was there in `s`, in the same session. -/
abbrev Inherits (s t : Proxy) : Prop := Carries Channel.session s t

namespace Inherits

variable {s t : Proxy}

theorem refl (s : Proxy) : Inherits s s := Carries.refl s

/-! Where the channels are the same. -/

theorem tock (inherits : Inherits s t) : Inherits s t.tock := inherits

theorem idled (inherits : Inherits s t) (w : World) : Inherits s (t.idled w) := inherits

theorem blocking (inherits : Inherits s t) (blocking : SessionId → Bool) :
    Inherits s { t with blocking := blocking } := inherits

/-! Where one channel changes. -/

/-- A channel gets callbacks, and stays with its session. -/
theorem setCallbacks (inherits : Inherits s t) (ch : ChannelId) (cb : ChannelCallbacks) (i : Int) :
    Inherits s ((Call.setCallbacks ch cb).effect i t) := inherits.updateChannel ch fun _ => rfl

theorem write (inherits : Inherits s t) (ch : ChannelId) (isStderr : Bool) (data : List UInt8)
    (i : Int) : Inherits s ((Call.write ch isStderr data).effect i t) :=
  inherits.updateChannel ch fun _ => rfl

theorem registerPair (inherits : Inherits s t) (p : PairId) (ch : ChannelId) :
    Inherits s (t.registerPair p ch) := inherits.updateChannel ch fun _ => rfl

theorem arrive (inherits : Inherits s t) (ch : ChannelId) (event : ChannelEvent) :
    Inherits s (t.updateChannel ch fun c => c.arrive event) :=
  inherits.updateChannel ch fun _ => by cases event <;> rfl

theorem consume (inherits : Inherits s t) (ch : ChannelId) (back : Int) (event : ChannelEvent) :
    Inherits s (t.updateChannel ch fun c => c.consume back event) :=
  inherits.updateChannel ch fun _ => by cases event <;> rfl

end Inherits

section Steps

variable {w : World} {serial : Prop} {h l : List Entry} {s s' : Proxy}

/-- A new channel is obtained for `session`. -/
def Obtains (s : Proxy) (l : List Entry) (session : SessionId) (s' : Proxy) : Prop :=
  s' = s.tock.obtain session ∧
    (l = [⟨s.tock, .call (.channelNew session), sshOk⟩] ∨
      l = [⟨s.tock, .call .openReplyAccept, sshOk⟩] ∧ session = s.context.trapSession)

/-- A call of libssh leaves the channels with their sessions, or obtains a new one. -/
theorem inherits_of_call (c : Call) (i : Int) :
    Inherits s (c.effect i s.tock) ∧ (c = .openReplyAccept ∨ (∃ session, c = .channelNew session) →
        i ≠ sshOk) ∨
      ∃ session, Obtains s [⟨s.tock, .call c, i⟩] session (c.effect i s.tock) := by
  have ticked : Inherits s s.tock := .of_channels rfl
  cases c with
  | channelNew session =>
      by_cases ok : i = sshOk
      · exact .inr ⟨session, by simp [Obtains, Call.effect, ok]⟩
      · refine .inl ⟨?_, fun _ => ok⟩
        rwa [Call.effect, if_neg ok]
  | openReplyAccept =>
      by_cases ok : i = sshOk
      · exact .inr ⟨s.context.trapSession, by simp [Obtains, Call.effect, ok]⟩
      · refine .inl ⟨?_, fun _ => ok⟩
        rwa [Call.effect, if_neg ok]
  | new =>
      refine .inl ⟨.of_channels ?_, by simp⟩
      simp only [Call.effect]
      split <;> rfl
  | setCallbacks ch cb => exact .inl ⟨ticked.setCallbacks ch cb i, by simp⟩
  | write ch isStderr data => exact .inl ⟨ticked.write ch isStderr data i, by simp⟩
  | channelFree ch => exact .inl ⟨ticked.freeChannel ch, by simp⟩
  | sendEof ch =>
      refine .inl ⟨?_, by simp⟩
      simp only [Call.effect]
      split
      · exact ticked.updateChannel ch fun _ => rfl
      · exact ticked
  | _ => exact .inl ⟨ticked, by simp⟩

/-- **A step obtains at most one channel**, and the others keep their sessions. -/
theorem inherits_of_change (change : Change w serial h s l s') :
    Inherits s s' ∧ (∀ e ∈ l, ∀ session, e.action = .call (.channelNew session) →
        e.answer ≠ sshOk) ∨
      ∃ session, Obtains s l session s' := by
  have ticked : Inherits s s.tock := .of_channels rfl
  cases change with
  | call _ _ c i licensed =>
      -- only `ssh_channel_new` and the acceptance of a forward obtain channels
      rcases inherits_of_call (s := s) c i with ⟨inherits, fails⟩ | obtains
      · refine .inl ⟨inherits, ?_⟩
        rw [List.forall_mem_singleton]
        intro session new
        exact fails (.inr ⟨session, Interaction.call.inj new⟩)
      · exact .inr obtains
  | once _ _ r i channel first =>
      refine .inl ⟨?_, by cases r <;> simp [OnceRequest.call]⟩
      split <;> exact ticked
  | adopt _ _ trapChannel haasChannel i j obtained first second =>
      refine .inl ⟨?_, by simp⟩
      rw [first] at second
      rw [second]
      exact (ticked.setCallbacks trapChannel .trapChannelCB i).tock.setCallbacks haasChannel
        .haasChannelCB j
  | arrive _ _ ch event => exact .inl ⟨(Inherits.refl s).arrive ch event, by simp⟩
  | consume _ _ nested ch back event => exact .inl ⟨(Inherits.refl s).consume ch back event, by simp⟩
  | @relay _ _ ch out c _ isStderr bytes i during after =>
      have blocked : Inherits s { s.tock with blocking := during } := .of_channels rfl
      have written := ((blocked.write out isStderr (c.buffered isStderr) i).blocking after).idled w
      exact .inl ⟨written.consume _ _ _, by simp [relayLog]⟩
  | discard _ _ isStderr bytes cell callbacks outlet answer waited =>
      refine .inl ⟨?_, by simp⟩
      rcases waited with rfl | ⟨b, rfl⟩
      · exact (Inherits.refl _).consume _ _ _
      · exact (((Inherits.refl s).blocking b).idled w).consume _ _ _
  | @register _ _ src dst offered _ _ _ _ _ _ _ _ _ _ _ _ mid =>
      refine .inl ⟨?_, fun e mem session new => ?_⟩
      · have first := (Inherits.refl s).registerPair s.pairs.next src
        cases dst with
        | none => exact first
        | some dst => exact first.registerPair s.pairs.next dst
      · obtain ⟨-, ⟨allocation, action⟩ | ⟨ch, action⟩⟩ := mid e mem <;>
          cases new.symm.trans action
  | reap _ _ pointer cell item eq loaded closed out =>
      exact .inl ⟨.of_channels (by rw [out]), by simp⟩
  | _ => exact .inl ⟨.of_channels rfl, by simp [byeLog]⟩

/-- **A step obtains at most one channel**, from a session that its entry names; all
other channels stay with theirs. -/
theorem inherits_of_advance (advance : Advance w serial h s l s') :
    Inherits s s' ∧ (∀ e ∈ l, ∀ session, e.action = .call (.channelNew session) →
        e.answer ≠ sshOk) ∨
      ∃ session, Obtains s l session s' := by
  cases advance with
  | change change => exact inherits_of_change change
  | event _ _ i about =>
      refine .inl ⟨.of_channels rfl, ?_⟩
      rcases about with rfl | rfl <;> simp
  | _ => exact .inl ⟨.of_channels rfl, by simp [byeLog]⟩

/-- In the middle of a step no channel is obtained. -/
theorem inherits_of_entry (advance : Advance w serial h s l s') : ∀ e ∈ l, Inherits s e.before := by
  have here := Inherits.refl s
  have ticked : Inherits s s.tock := .of_channels rfl
  have later : Inherits s s.tock.tock := .of_channels rfl
  cases advance with
  | change change =>
      cases change with
      | register _ _ offered pointer cell added stored pair filled _ mid =>
          intro e mem
          obtain ⟨registering, -⟩ := mid e mem
          intro ch c' cell
          rcases registering.channels ch with same | same
          · exact ⟨c', same ▸ cell, rfl⟩
          · rw [same] at cell
            exact (here.registerPair s.pairs.next ch) ch c' cell
      | adopt _ _ trapChannel haasChannel i j obtained first second =>
          rw [first]
          simp only [List.forall_mem_cons]
          exact ⟨ticked, (ticked.setCallbacks _ _ i).tock, List.forall_mem_nil _⟩
      | @relay _ _ ch out c _ isStderr bytes i during after =>
          have blocked : Inherits s { s.tock with blocking := during } := .of_channels rfl
          simp only [relayLog, List.forall_mem_cons]
          have written := blocked.write out isStderr (c.buffered isStderr) i
          exact ⟨here, blocked, written, (written.blocking after).idled w, List.forall_mem_nil _⟩
      | discard _ _ isStderr bytes cell callbacks outlet answer waited =>
          rcases waited with rfl | ⟨b, rfl⟩
          · simp [here]
          · simp [here, (here.blocking b).idled w]
      | reap _ _ pointer cell item eq loaded closed out =>
          rw [List.forall_mem_singleton, out]
          exact .of_channels rfl
      | _ => simp [byeLog, here, ticked, later]
  | _ => simp [byeLog, here, ticked, later]

/-! ## The destinations of the pairs

A pair gets the channel at its destination when it is filled in, and loses it when it is
released; it never gets another one. -/

/-- A pair has a channel to the destination from where it was put into the
pool. -/
theorem destiny_of_change (change : Change w serial h s l s') {p : PairId} {pair : FwPair}
    {ch : ChannelId} (cell : s'.pairs.cell p = some pair) (destiny : pair.destiny.channel = some ch) :
    (∃ pair, s.pairs.cell p = some pair ∧ pair.destiny.channel = some ch) ∨
      ∃ src, Offered w serial h s src (some ch) := by
  -- a pair that is overwritten has no other channel afterwards
  have stored {q : PairId} {old new : FwPair} (was : s.pairs.cell q = some old)
      (cell : (s.pairs.store q new).cell p = some pair)
      (keeps : new.destiny.channel = none ∨ new.destiny.channel = old.destiny.channel) :
      ∃ pair, s.pairs.cell p = some pair ∧ pair.destiny.channel = some ch := by
    by_cases same : p = q
    · subst same
      cases (Heap.cell_store_self _ was).symm.trans cell
      rcases keeps with none | keeps
      · rw [none] at destiny
        cases destiny
      · exact ⟨old, was, keeps.symm.trans destiny⟩
    · exact ⟨pair, (Heap.cell_store_of_ne _ same).symm.trans cell, destiny⟩
  have allocated {new : FwPair} (blank : new.destiny.channel = none)
      (cell : (s.pairs.alloc new).cell p = some pair) :
      ∃ pair, s.pairs.cell p = some pair ∧ pair.destiny.channel = some ch := by
    by_cases same : p = s.pairs.next
    · subst same
      cases (s.pairs.cell_alloc_self).symm.trans cell
      rw [blank] at destiny
      cases destiny
    · exact ⟨pair, (s.pairs.cell_alloc_of_ne same).symm.trans cell, destiny⟩
  have unchanged (same : s'.pairs = s.pairs) :
      ∃ pair, s.pairs.cell p = some pair ∧ pair.destiny.channel = some ch :=
    ⟨pair, same ▸ cell, destiny⟩
  cases change with
  | newPair => exact .inl (allocated rfl cell)
  | @register _ _ src dst offered _ _ _ _ _ pointer poolCell added isStored pair' filled =>
      by_cases same : p = s.pairs.next
      · subst same
        cases (s.pairs.cell_alloc_self).symm.trans cell
        rw [filled.2.2.2] at destiny
        exact .inr ⟨src, destiny ▸ offered⟩
      · exact .inl ⟨pair, (s.pairs.cell_alloc_of_ne same).symm.trans cell, destiny⟩
  | mark _ _ was why => exact .inl (stored was cell (.inr rfl))
  | release _ _ was why => exact .inl (stored was cell (.inr rfl))
  | reap _ _ pointer poolCell item eq loaded closed out =>
      rw [out] at cell
      exact .inl (stored loaded cell (.inr rfl))
  | endpoint _ _ end_ endpoint released was keeps =>
      refine .inl (stored was cell ?_)
      cases end_ with
      | source => exact .inr rfl
      | destiny => exact keeps
  | @freePair _ _ q released =>
      by_cases same : p = q
      · subst same
        cases (s.pairs.cell_free_self).symm.trans cell
      · exact .inl ⟨pair, (s.pairs.cell_free_of_ne same).symm.trans cell, destiny⟩
  | once => exact .inl (unchanged (by split <;> rfl))
  | adopt _ _ trapChannel haasChannel i j obtained first second =>
      exact .inl (unchanged (by rw [second, first]; simp [Proxy.tock]))
  | discard _ _ isStderr bytes cell callbacks outlet answer waited =>
      refine .inl (unchanged ?_)
      rw [Proxy.pairs_updateChannel]
      rcases waited with rfl | ⟨b, rfl⟩ <;> rfl
  | _ => exact .inl (unchanged (by simp [Proxy.relayed, Proxy.idled, Proxy.tock]))

/-- A channel to the destination comes into a pair where the pair is put into the pool,
and in no other step. -/
theorem destiny_of_advance (advance : Advance w serial h s l s') {p : PairId} {pair : FwPair}
    {ch : ChannelId} (cell : s'.pairs.cell p = some pair) (destiny : pair.destiny.channel = some ch) :
    (∃ pair, s.pairs.cell p = some pair ∧ pair.destiny.channel = some ch) ∨
      ∃ src, Offered w serial h s src (some ch) := by
  cases advance with
  | change change => exact destiny_of_change change cell destiny
  | _ => exact .inl ⟨pair, cell, destiny⟩

/-- In the middle of a step the pairs are what they were, unless one is being
filled in. -/
theorem pairs_of_entry (advance : Advance w serial h s l s') :
    ∀ e ∈ l, e.before.pairs = s.pairs ∨ ∃ src dst pools, Offered w serial h s src dst ∧
      Registering s s.pairs.next src dst pools e.before := by
  cases advance with
  | change change =>
      cases change with
      | register _ _ offered pointer cell added stored pair filled _ mid =>
          intro e mem
          exact .inr ⟨_, _, _, offered, (mid e mem).1⟩
      | adopt _ _ trapChannel haasChannel i j obtained first second =>
          simp [first, Proxy.tock]
      | discard _ _ isStderr bytes cell callbacks outlet answer waited =>
          rcases waited with rfl | ⟨b, rfl⟩ <;> simp [Proxy.idled, Proxy.tock]
      | reap _ _ pointer cell item eq loaded closed out => simp [out]
      | _ => simp [relayLog, byeLog, Proxy.idled, Proxy.tock]
  | _ => simp [byeLog, Proxy.tock]

/-- The same in the middle of a step. -/
theorem destiny_of_entry (advance : Advance w serial h s l s') {e : Entry} (mem : e ∈ l)
    {p : PairId} {pair : FwPair} {ch : ChannelId} (cell : e.before.pairs.cell p = some pair)
    (destiny : pair.destiny.channel = some ch) :
    (∃ pair, s.pairs.cell p = some pair ∧ pair.destiny.channel = some ch) ∨
      ∃ src, Offered w serial h s src (some ch) := by
  rcases pairs_of_entry advance e mem with same | ⟨src, dst, pools, offered, registering⟩
  · exact .inl ⟨pair, same ▸ cell, destiny⟩
  · by_cases same : p = s.pairs.next
    · subst same
      obtain ⟨-, -, none | isDst⟩ := registering.pair pair cell
      · rw [none] at destiny
        cases destiny
      · rw [isDst] at destiny
        exact .inr ⟨src, destiny ▸ offered⟩
    · exact .inl ⟨pair, (registering.others p same).symm.trans cell, destiny⟩

/-! ## The pairs

All that a step can do to a pair, and who calls back into it afterwards. -/

/-- What a step does to the pairs. -/
inductive Repairs (h : List Entry) (s : Proxy) (l : List Entry) (s' : Proxy) : Prop
  /-- The pairs are as they were; what is released was gone before. -/
  | same (pairs : s'.pairs = s.pairs)
      (freed : ∀ e ∈ l, ∀ p, e.action = .release p →
        s.pairs.cell p = none ∧ e.before = s ∧ s.stage = .teardown)
  /-- There is a new pair, and it is open. -/
  | new (pair : FwPair) (pairs : s'.pairs = s.pairs.alloc pair) (isOpen : pair.closed = false)
      (quiet : ∀ e ∈ l, ∀ p, e.action ≠ .release p)
  /-- A pair was marked as closed, for a reason. -/
  | mark {p : PairId} {pair : FwPair} (cell : s.pairs.cell p = some pair) (why : Marked h s p)
      (pairs : s'.pairs = s.pairs.store p { pair with closed := true }) (quiet : l = [])
  /-- `FwPairRelease` was called and has taken the context and the mark off the pair. -/
  | release {p : PairId} {pair : FwPair} {t : Proxy} (cell : s.pairs.cell p = some pair)
      (why : pair = blankPair p ∨ s.stage = .teardown ∨ pair.closed = true)
      (pairs : s'.pairs = s.pairs.store p { pair with context := none, closed := false })
      (same : t.pairs = s.pairs) (stage : t.stage = s.stage) (logged : l = [⟨t, .release p, 0⟩])
  /-- An end was changed, of a pair that was released before. -/
  | endpoint {p : PairId} {pair : FwPair} (released : Released h p) (end_ : End)
      (endpoint : FwEndpoint) (cell : s.pairs.cell p = some pair)
      (pairs : s'.pairs = s.pairs.store p (pair.setEndpoint end_ endpoint)) (quiet : l = [])
  /-- A pair was freed that was released before. -/
  | free {p : PairId} (released : Released h p) (pairs : s'.pairs = s.pairs.free p) (quiet : l = [])

/-- What a statement does to the pairs: each of them is one of the cases above. -/
private theorem repairs_of_change (change : Change w serial h s l s') : Repairs h s l s' := by
  have unreleased (quiet : ∀ e ∈ l, ∀ p, e.action ≠ .release p) :
      ∀ e ∈ l, ∀ p, e.action = .release p →
        s.pairs.cell p = none ∧ e.before = s ∧ s.stage = .teardown := by
    intro e mem p action
    exact absurd action (quiet e mem p)
  cases change with
  | newPair => exact .new _ rfl rfl (by simp)
  | register _ _ offered pointer cell added stored pair filled _ mid =>
      refine .new pair rfl filled.2.1 ?_
      intro e mem p
      obtain ⟨-, ⟨allocation, action⟩ | ⟨ch, action⟩⟩ := mid e mem <;> simp [action]
  | mark _ _ cell why => exact .mark cell why rfl rfl
  | release _ _ cell why => exact .release cell (why.imp_right .inl) rfl rfl rfl rfl
  | releaseFreed _ _ cell why => exact .same rfl (by simp [cell, why])
  | reap _ _ pointer cell item eq loaded closed out =>
      refine .release loaded (.inr (.inr closed)) (by rw [out]) (by rw [out]) (by rw [out]) rfl
  | endpoint _ _ end_ endpoint released cell =>
      exact .endpoint released end_ endpoint cell rfl rfl
  | freePair _ _ released => exact .free released rfl rfl
  | once _ _ r => exact .same (by split <;> rfl) (unreleased (by simp))
  | adopt _ _ trapChannel haasChannel i j obtained first second =>
      refine .same ?_ (unreleased (by simp))
      rw [second, first]
      simp [Proxy.tock]
  | discard _ _ isStderr bytes cell callbacks outlet answer waited =>
      refine .same ?_ (unreleased (by simp))
      rw [Proxy.pairs_updateChannel]
      rcases waited with rfl | ⟨b, rfl⟩ <;> rfl
  | _ =>
      refine .same ?_ (unreleased (by simp [relayLog, byeLog]))
      simp [Proxy.relayed, Proxy.idled, Proxy.tock]

/-- **What a step does to the pairs.** -/
theorem repairs_of_advance (advance : Advance w serial h s l s') : Repairs h s l s' := by
  cases advance with
  | change change => exact repairs_of_change change
  | event _ _ i about =>
      refine .same rfl ?_
      rcases about with rfl | rfl <;> simp
  | _ => exact .same rfl (by simp [byeLog])

/-- A pair is put into the pool with its channels. -/
structure Registers (w : World) (serial : Prop) (h : List Entry) (s s' : Proxy) (src : ChannelId)
    (dst : Option ChannelId) : Prop where
  /-- The channels were just obtained for the request. -/
  offered : Offered w serial h s src dst
  /-- The pair is filled in, with these channels as its ends. -/
  pair : ∃ pair, s'.pairs.cell s.pairs.next = some pair ∧ pair.context ≠ none ∧
    pair.source.channel = some src ∧ pair.destiny.channel = dst
  /-- The pool has taken it. -/
  item : ∃ id pool pool' granted index, s.context.forwardPool = some id ∧
    s.pools.cell id = some pool ∧ s'.context.forwardPool = some id ∧
    s'.pools.cell id = some pool' ∧
    fwPoolAdd granted (some s.pairs.next) (some pool) = .ok (index, some pool')

/-- A call that sets no callbacks makes no channel call back into a pair. -/
private theorem forgets_of_call (c : Call) (i : Int)
    (other : ∀ ch table, c ≠ .setCallbacks ch table) :
    Forgets s (c.effect i s.tock) := by
  have ticked : Forgets s s.tock := .of_channels rfl
  cases c with
  | setCallbacks ch table => exact absurd rfl (other ch table)
  | new =>
      simp only [Call.effect]
      split
      · exact .of_channels rfl
      · exact ticked
  | channelNew | openReplyAccept =>
      simp only [Call.effect]
      split
      · exact ticked.obtain _
      · exact ticked
  | channelFree ch => exact ticked.freeChannel ch
  | sendEof ch =>
      simp only [Call.effect]
      split
      · exact ticked.updateChannel ch fun _ _ same => same
      · exact ticked
  | write ch => exact ticked.updateChannel ch fun _ _ same => same
  | _ => exact ticked

/-- Where a channel was registered with a pair it calls back into that pair, and what any other
channel calls back into is as before. -/
private theorem callsBack_registerPair {t : Proxy} {q : ChannelId} {n p : PairId} {ch : ChannelId}
    (calls : (t.registerPair n q).CallsBack ch p) : t.CallsBack ch p ∨ p = n ∧ ch = q := by
  unfold Proxy.CallsBack at calls ⊢
  rw [Proxy.registerPair, cell_updateChannel] at calls
  split at calls
  · rename_i same
    cases there : t.channels.cell ch with
    | none =>
        rw [there] at calls
        cases calls
    | some c =>
        rw [there] at calls
        cases calls
        exact .inr ⟨rfl, same⟩
  · exact .inl calls

/-- **What calls back** into a pair did so before, or the pair is put into the pool. -/
theorem callsBack_of_change (change : Change w serial h s l s') :
    Forgets s s' ∨ ∃ src dst, Registers w serial h s s' src dst ∧
      ∀ ch p, s'.CallsBack ch p → s.CallsBack ch p ∨
        p = s.pairs.next ∧ (ch = src ∨ dst = some ch) := by
  have here : Forgets s s := .of_channels rfl
  have ticked : Forgets s s.tock := .of_channels rfl
  cases change with
  | call _ _ c i licensed =>
      refine .inl (forgets_of_call c i ?_)
      rintro ch table rfl
      exact licensed
  | once => exact .inl (by split <;> exact ticked)
  -- the tables of the session channels are about no pair
  | @adopt _ _ trapChannel haasChannel i j obtained s₁ s₂ first second =>
      have one : Forgets s s₁ := first ▸ ticked.updateChannel trapChannel fun _ _ => nofun
      have two : Forgets s s₂ :=
        second ▸ Forgets.updateChannel (t := s₁.tock) one haasChannel fun _ _ => nofun
      exact .inl two
  | arrive _ _ ch event => exact .inl (here.arrive ch event)
  | consume _ _ nested ch back event => exact .inl (here.consume ch back event)
  | @relay _ _ ch out c _ isStderr bytes i during after =>
      have blocked : Forgets s { s.tock with blocking := during } := .of_channels rfl
      have written : Forgets s ((Call.write out isStderr (c.buffered isStderr)).effect i
          { s.tock with blocking := during }) := blocked.updateChannel out fun _ _ same => same
      have idled : Forgets s (({ (Call.write out isStderr (c.buffered isStderr)).effect i
          { s.tock with blocking := during } with blocking := after } : Proxy).idled w) := written
      exact .inl (idled.consume ch _ _)
  | discard _ _ isStderr bytes cell callbacks outlet answer waited =>
      refine .inl ?_
      rcases waited with rfl | ⟨b, rfl⟩
      · exact here.consume _ _ _
      · exact Forgets.consume (.of_channels rfl) _ _ _
  | @register _ _ src dst offered id pool pool' granted index pointer cell added stored pair filled =>
      refine .inr ⟨src, dst, ⟨offered, ?_, ?_⟩, ?_⟩
      · refine ⟨pair, s.pairs.cell_alloc_self, ?_, filled.2.2⟩
        rw [filled.1]
        exact Option.some_ne_none _
      · exact ⟨id, pool, pool', granted, index, pointer, cell, pointer,
          s.pools.cell_store_self cell, added⟩
      · -- the ends of the pair are registered one after the other, the source first
        intro ch p calls
        cases dst with
        | none =>
            refine (callsBack_registerPair (t := s) calls).imp_right ?_
            rintro ⟨new, rfl⟩
            exact ⟨new, .inl rfl⟩
        | some d =>
            rcases callsBack_registerPair (t := s.registerPair s.pairs.next src) (q := d) calls with
              calls | ⟨new, rfl⟩
            · refine (callsBack_registerPair calls).imp_right ?_
              rintro ⟨new, rfl⟩
              exact ⟨new, .inl rfl⟩
            · exact .inr ⟨new, .inr rfl⟩
  | reap _ _ pointer cell item eq loaded closed out => exact .inl (.of_channels (by rw [out]))
  | _ => exact .inl (.of_channels rfl)

/-- **Which channels call back into a pair** changes by the registration of the pair
only, and then it is its own two. -/
theorem callsBack_of_advance (advance : Advance w serial h s l s') :
    Forgets s s' ∨ ∃ src dst, Registers w serial h s s' src dst ∧
      ∀ ch p, s'.CallsBack ch p → s.CallsBack ch p ∨
        p = s.pairs.next ∧ (ch = src ∨ dst = some ch) := by
  cases advance with
  | change change => exact callsBack_of_change change
  | _ => exact .inl (.of_channels rfl)

/-! ## The numbers of the channels -/

@[simp] theorem Proxy.nextChannel_updateChannel (s : Proxy) (ch : ChannelId)
    (f : Channel → Channel) : (s.updateChannel ch f).channels.next = s.channels.next :=
  (updateChannel_eq s ch f).2

/-- The number of the next channel goes up, so that a new one is never an old one. -/
theorem nextChannel_of_advance (advance : Advance w serial h s l s') :
    s.channels.next ≤ s'.channels.next := by
  cases advance with
  | change change =>
      cases change with
      | call _ _ c i licensed =>
          cases c with
          | channelNew | openReplyAccept =>
              simp only [Call.effect]
              split
              · exact Nat.le_succ _
              · exact Nat.le_refl _
          | new => simp only [Call.effect]; split <;> exact Nat.le_refl _
          | sendEof =>
              simp only [Call.effect]
              split
              · exact Nat.le_of_eq (s.tock.nextChannel_updateChannel _ _).symm
              · exact Nat.le_refl _
          | setCallbacks | write => exact Nat.le_of_eq (s.tock.nextChannel_updateChannel _ _).symm
          | _ => exact Nat.le_refl _
      | once => split <;> exact Nat.le_refl _
      | adopt _ _ trapChannel haasChannel i j obtained first second =>
          rw [second, first]
          simp [Call.effect, Proxy.tock]
      | @register _ _ src dst =>
          cases dst <;> simp [Proxy.filling, Proxy.registerPair]
      | discard _ _ isStderr bytes cell callbacks outlet answer waited =>
          rw [Proxy.nextChannel_updateChannel]
          rcases waited with rfl | ⟨b, rfl⟩ <;> exact Nat.le_refl _
      | reap _ _ pointer poolCell item eq loaded closed out => rw [out]
      | _ => simp [Proxy.relayed, Proxy.idled, Proxy.tock, Call.effect]
  | _ => exact Nat.le_refl _

end Steps

end HaasProxy
