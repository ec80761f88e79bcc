import MediaLink.Proofs.Session.Mirror
import MediaLink.Proofs.Session.Staleness
import MediaLink.Proofs.Subscription.Finding

/-! Subscriptions last: only the application changes them, and each new connection begins by telling
the provider about all of them, once and in order. -/
namespace MediaLink

/-- What a step makes of the subscriptions, if it is a call of the application. -/
def Step.wish {κ : Type} (r : Registry κ) : Step κ → Registry κ
  | .subscribe _ node options callback => if node = "" then r else r.insert node ⟨options⟩ callback
  | .unsubscribe _ node options => if node = "" then r else r.erase node options
  | _ => r

/-- The subscriptions that the application has asked for. -/
def wishes {κ : Type} (steps : List (Step κ)) : Registry κ := steps.foldl Step.wish .empty

theorem wishes_snoc {κ : Type} (steps : List (Step κ)) (s : Step κ) :
    wishes (steps ++ [s]) = s.wish (wishes steps) := List.foldl_append

/-- One subscription that a provider was told to add: the provider, the attempt and the entry. -/
abbrev Addition : Type := Provider × Token × String × Option Payload

def Act.addition? {κ : Type} : Act κ → Option Addition
  | .call p (.add token node options) _ => some (p, token, node, options)
  | _ => none

namespace World

variable {κ : Type} {u v w : World κ} {t : Transport} {e : Event κ} {rest : List (Event κ)}

/-- All that providers were told to add, oldest first. -/
def additions (w : World κ) : List Addition := w.recorded Act.addition?

/-- What a step has to tell a connected provider to add. -/
def due (w : World κ) : Step κ → List Addition
  | .subscribe _ node options _ =>
    if w.handles = 0 ∨ node = "" then []
    else w.session.live?.toList.map fun (p, token) => (p, token, node, options)
  | _ => []

/-- The subscriptions stayed as they were, no provider was told to add one, and no connection has
come about. -/
structure Steady (u v : World κ) : Prop where
  subscriptions : v.session.subscriptions = u.session.subscriptions
  additions : v.additions = u.additions
  phase : v.session.phase = .connected → u.session.phase = .connected

theorem Steady.refl (w : World κ) : Steady w w := ⟨rfl, rfl, id⟩

theorem Steady.trans (h : Steady u v) (hs : Steady v w) : Steady u w :=
  ⟨hs.subscriptions.trans h.subscriptions, hs.additions.trans h.additions,
    fun hp => h.phase (hs.phase hp)⟩

theorem steady_of_acts (acts : List (Act κ)) (h : v.history = acts ++ u.history)
    (ha : ∀ a ∈ acts, a.addition? = none)
    (hs : v.session.subscriptions = u.session.subscriptions)
    (hp : v.session.phase = .connected → u.session.phase = .connected) : Steady u v :=
  ⟨hs, recorded_same acts h ha, hp⟩

theorem steady_remark (r : Remark κ) : Steady w (w.remark r) := ⟨rfl, rfl, id⟩

theorem steady_heard (news : List (Event κ)) (remarks : List (Remark κ)) :
    Steady w (w.heard news remarks) := ⟨rfl, rfl, id⟩

theorem no_addition_unbinding {s : Session κ} {a : Act κ} (h : a ∈ unbinding s) :
    a.addition? = none := by
  obtain ⟨_, rfl⟩ := mem_unbinding h
  rfl

theorem steady_post (posting : Posting) : Steady w (w.post posting) := by
  obtain ⟨news, remarks, hp, -⟩ := w.post_eq posting
  rw [hp]
  exact steady_heard news remarks

theorem steady_enqueue (e : Event κ) : Steady w (w.enqueue e) := by
  obtain ⟨news, remarks, hp, -⟩ := w.offer_eq e (.eventDropped e)
  rw [enqueue, hp]
  exact steady_heard news remarks

theorem steady_release : Steady w w.release := by
  rw [release_eq]
  exact steady_of_acts _ rfl (fun _ => no_addition_unbinding) rfl (by simp [Session.reset])

theorem steady_failAttempt : Steady w w.failAttempt := by
  rw [failAttempt_eq]
  refine steady_of_acts (.connection .failed w.session.attempt :: unbinding w.session) rfl ?_ rfl
    (by simp [Session.reset])
  intro a ha
  rcases List.mem_cons.mp ha with rfl | ha
  · rfl
  · exact no_addition_unbinding ha

/-! Calls of the application that are not about subscriptions. -/

theorem steady_attemptConnect (hl : w.loop ≠ .closed) : Steady w (w.attemptConnect t) := by
  obtain ⟨news, remarks, hr, -⟩ :=
    requestBinding_eq t w.nextToken (w := (w.startAttempt Session.begin).1) hl
  have ha : w.attemptConnect t =
    remark (.connecting w.nextToken)
      (requestBinding t w.nextToken (w.startAttempt Session.begin).1) := rfl
  rw [ha, hr]
  exact steady_of_acts [_, _] rfl (by simp [Act.addition?]) rfl
    (by simp [remark, heard, act, startAttempt, Session.begin])

theorem steady_connect (hl : w.loop ≠ .closed) (h : w.connect t = .ok v) : Steady w v := by
  cases hp : w.session.phase with
  | disconnected =>
    simp only [connect, hp, Except.ok.injEq] at h
    exact h ▸ steady_attemptConnect hl
  | suspended =>
    simp only [connect, hp, Except.ok.injEq] at h
    subst h
    have hr : Steady w (w.remark .releasing).release := (steady_remark _).trans steady_release
    exact hr.trans (steady_attemptConnect (by rwa [release_loop]))
  | connecting => simp [connect, hp] at h
  | connected => simp [connect, hp] at h

theorem steady_tearDown : Steady w (w.tearDown t) := by
  obtain ⟨failure, news, remarks, hl, -⟩ := takeLeave_eq t (w.act (.tornDown w.session.phase))
  have hr : Steady w ((w.act (.tornDown w.session.phase)).takeLeave t) := by
    rw [hl]
    exact steady_of_acts (farewell failure w.session ++ [.tornDown w.session.phase])
      (by simp [heard, act])
      (forall_farewell (P := (·.addition? = none)) (fun _ _ => rfl) rfl) rfl id
  simp only [tearDown]
  split
  · exact hr.trans steady_release
  · exact (hr.trans steady_release).trans (steady_remark _)

theorem steady_abandon : Steady w (w.abandon t) := by
  simp only [abandon]
  split
  · exact steady_tearDown
  · exact .refl w

theorem steady_getItem {mediaId callback} (h : w.getItem mediaId callback = .ok v) :
    Steady w v := by
  by_cases hm : mediaId = ""
  · simp [getItem, hm] at h
  simp only [getItem, hm, if_false] at h
  split at h
  · cases h
    exact ⟨rfl, rfl, id⟩
  · cases h
    have hc : Steady w (remark (.notConnected mediaId) { w with requests := w.requests + 1 }) :=
      ⟨rfl, rfl, id⟩
    exact hc.trans (steady_enqueue _)

theorem steady_dropHandle : Steady w (w.dropHandle t) := by
  have hd : Steady w { w with handles := w.handles - 1 } := ⟨rfl, rfl, id⟩
  simp only [dropHandle]
  split
  · exact hd.trans steady_abandon
  · exact hd

theorem steady_finish : Steady w (w.finish t) := by
  have hf : Steady w { w with loop := .waiting } := ⟨rfl, rfl, id⟩
  simp only [finish]
  split
  · split
    · exact hf.trans steady_abandon
    · exact hf
  · exact .refl w

theorem steady_answer (result : Except RemoteFault (Option Item)) (index : Nat) :
    Steady w (w.answer result index) := by
  obtain ⟨queue, remarks, ha⟩ := w.answer_eq result index
  rw [ha]
  refine steady_of_acts _ rfl (fun a hm => ?_) rfl id
  obtain ⟨l, -, rfl⟩ := Option.map_eq_some_iff.mp (Option.mem_toList.mp hm)
  rfl

/-! Events. -/

theorem steady_requestConnect {p : Provider} {token : Token} :
    Steady w (w.requestConnect t p token) := by
  obtain ⟨news, remarks, hi, -⟩ := invoke_eq (t.call p (.connect token)) p (.connect token)
    { remark (.bound token) { w with session.provider := some p } with
      providerSinks := w.providerSinks ++ [⟨p, token⟩] }
  have ha : Steady w (heard news remarks (w.ask p token (t.call p (.connect token)).failure)) :=
    steady_of_acts [_] rfl (by simp [Act.addition?]) rfl id
  rw [requestConnect]
  simp only [remark] at hi ⊢
  rw [hi]
  split
  · exact (ha.trans (steady_remark (.connectFailed _))).trans steady_failAttempt
  · exact ha

theorem steady_onBound (p : Provider) : Steady w (w.onBound t p) := by
  simp only [onBound]
  split
  · split
    · exact steady_requestConnect
    · exact .refl w
  · have hs : Steady w (remark (.restored w.nextToken) (w.startAttempt Session.resume).1) :=
      steady_of_acts [_] rfl (by simp [Act.addition?]) rfl
        (by simp [remark, startAttempt, act, Session.resume])
    exact hs.trans steady_requestConnect
  · exact steady_remark _

theorem steady_onRefused (hurdle : Hurdle) : Steady w (w.onRefused hurdle) := by
  simp only [onRefused]
  split
  · exact steady_remark _
  · exact (steady_remark _).trans steady_failAttempt

theorem steady_onLost : Steady w w.onLost := by
  simp only [onLost]
  split
  · exact (steady_remark _).trans steady_failAttempt
  · exact steady_of_acts [_] rfl (by simp [Act.addition?]) rfl
      (by simp [notify, act, Session.suspend])
  · exact steady_remark _

theorem steady_onChildren (batch : Batch) : Steady w (w.onChildren batch) := by
  simp only [onChildren]
  split
  · exact steady_of_acts [_] rfl (by simp [Act.addition?]) rfl id
  · exact steady_remark _

theorem steady_ifCurrent (token : Token) (what : String) (go : World κ → World κ)
    (h : Steady w (go w)) : Steady w (w.ifCurrent token what go) := by
  simp only [ifCurrent]
  split
  · exact h
  · split
    · exact .refl w
    · exact steady_remark _

theorem steady_ifHeld (token : Token) (what : String) {go : World κ → World κ}
    (h : Steady w (go w)) : Steady w (w.ifHeld token what go) := by
  simp only [ifHeld]
  split
  · exact h
  · exact steady_remark _

/-- The calls that tell a provider to add these entries, oldest first. -/
def tellings (t : Transport) (p : Provider) (token : Token)
    (entries : List (String × Option Payload)) : List (Act κ) :=
  entries.map fun (node, options) =>
    .call p (.add token node options) (t.call p (.add token node options)).failure

/-- A reply was accepted, the provider was told to add every subscription, whatever it answered, and
then the application was told that it is connected. -/
structure Entered (t : Transport) (sink : ProviderSink) (reply : Reply) (p : Provider)
    (u v : World κ) : Prop where
  before : u.session.phase = .connecting
  live : v.session.live? = some (p, sink.token)
  subscriptions : v.session.subscriptions = u.session.subscriptions
  history : v.history = .connection .connected (some sink.token) ::
    ((tellings t p sink.token u.session.subscriptions.replay).reverse ++
      .accepted sink reply :: u.history)

theorem accepted_steady_or_entered {sink : ProviderSink} {reply : Reply} {p : Provider}
    (hl : w.loop ≠ .closed) (hc : w.session.isCurrent sink.token)
    (hs : w.session.provider = some p) :
    Steady w (w.onAccepted t sink reply) ∨
      Entered t sink reply p w (w.onAccepted t sink reply) := by
  have ha : w.session.attempt = some sink.token := by simpa [Session.isCurrent] using hc
  simp only [onAccepted]
  by_cases hp : w.session.phase = .connecting
  · simp only [hp, ne_eq, not_true_eq_false, if_false]
    cases SessionToken.make reply.sessionToken with
    | error fault => exact .inl ((steady_remark _).trans steady_failAttempt)
    | ok token =>
      by_cases hr : reply.root = ""
      · simp only [hr, if_true]
        exact .inl ((steady_remark _).trans steady_failAttempt)
      · simp only [hr, if_false]
        have hlive : (w.session.complete reply.root token reply.extras).live? =
            some (p, sink.token) := Session.live?_eq_some.mpr ⟨rfl, hs, ha⟩
        have hrep : replayed t (w.session.complete reply.root token reply.extras) =
            tellings t p sink.token w.session.subscriptions.replay := by
          simp only [replayed, hlive]
          rfl
        obtain ⟨news, remarks, hy, -, -⟩ := moves_replay (t := t)
          (w := remark (.connected (w.session.complete reply.root token reply.extras).root)
            (act (.accepted sink reply)
              { w with session := w.session.complete reply.root token reply.extras }))
          (s := w.session.complete reply.root token reply.extras) hl rfl
        right
        rw [hy, hrep]
        refine ⟨hp, hlive, rfl, ?_⟩
        rw [← ha]
        rfl
  · simp only [hp, ne_eq, not_false_eq_true, if_true]
    exact .inl (steady_remark _)

/-- Only a reply that accepts can make a connection. -/
theorem steady_handle (he : ∀ sink reply, e ≠ .provider sink (.accepted reply)) :
    Steady w (w.handle t e) := by
  cases e with
  | bindRefused token => exact steady_ifCurrent _ _ _ (steady_onRefused _)
  | binder sink note =>
    cases note with
    | bound p => exact steady_ifHeld _ _ (steady_onBound p)
    | unbound => exact steady_ifHeld _ _ steady_onLost
  | provider sink note =>
    cases note with
    | accepted reply => exact absurd rfl (he sink reply)
    | refused => exact steady_ifCurrent _ _ _ (steady_onRefused _)
    | children batch => exact steady_ifCurrent _ _ _ (steady_onChildren batch)
  | lost token fault =>
    exact steady_ifCurrent _ _ (fun w => (w.remark (.channelLost token fault)).onLost)
      ((steady_remark _).trans steady_onLost)
  | item request mediaId item callback =>
    exact steady_of_acts [_] rfl (by simp [Act.addition?]) rfl id
  | barrier => exact .refl w

theorem handle_steady_or_entered (hl : w.loop ≠ .closed)
    (hk : ∀ sink note, e = .provider sink note → w.session.isCurrent sink.token →
      ∃ p, w.session.provider = some p) :
    Steady w (w.handle t e) ∨ ∃ sink reply p, Entered t sink reply p w (w.handle t e) := by
  by_cases he : ∃ sink reply, e = .provider sink (.accepted reply)
  · obtain ⟨sink, reply, rfl⟩ := he
    by_cases hc : w.session.isCurrent sink.token
    · obtain ⟨p, hs⟩ := hk sink _ rfl hc
      have hh : w.handle t (.provider sink (.accepted reply)) = w.onAccepted t sink reply :=
        if_pos hc
      rw [hh]
      rcases accepted_steady_or_entered hl hc hs with h | h
      · exact .inl h
      · exact .inr ⟨sink, reply, p, h⟩
    · left
      simp only [handle, ifCurrent]
      rw [if_neg hc]
      split
      · exact .refl w
      · exact steady_remark _
  · exact .inl (steady_handle fun sink reply hs => he ⟨sink, reply, hs⟩)

theorem turn_steady_or_entered (h : w.Sound) (t : Transport) :
    Steady w (w.turn t) ∨
      ∃ sink reply p, w.handles ≠ 0 ∧ Entered t sink reply p w (w.turn t) := by
  have ht := w.turned t
  generalize w.turn t = v at ht ⊢
  cases ht with
  | busy => exact .inl (.refl w)
  | idle => exact .inl ⟨rfl, rfl, id⟩
  | ended => exact .inl ⟨rfl, rfl, id⟩
  | @handled e rest remarks hn h0 hq =>
    have hk : ∀ sink note, e = .provider sink note → w.session.isCurrent sink.token →
        ∃ p, w.session.provider = some p := by
      rintro sink note rfl hcur
      -- The sink was handed out with a connect call, so a provider is held.
      have hsink := h.queued sink note (by rw [hq]; exact List.mem_cons_self)
      exact Option.isSome_iff_exists.mp
        (h.asked sink hsink (by simpa [Session.isCurrent] using hcur))
    have hd : Steady w { w with loop := .handling, queue := rest, remarks } := ⟨rfl, rfl, id⟩
    rcases handle_steady_or_entered (t := t)
      (w := { w with loop := .handling, queue := rest, remarks }) (by simp) hk with
      hs | ⟨sink, reply, p, he⟩
    · exact .inl (hd.trans hs)
    · exact .inr ⟨sink, reply, p, h0, he.before, he.live, he.subscriptions, he.history⟩

/-! Calls about subscriptions. -/

/-- Telling a connected provider changes nothing but the record and the queue. -/
theorem told_eq (call : Token → Call) (hl : w.loop ≠ .closed)
    (hv : v = match w.session.live? with
      | some (p, token) => w.send t p (call token)
      | none => w) :
    v.session = w.session ∧
      ∃ failure, v.history = telling call failure w.session ++ w.history := by
  cases hw : w.session.live? with
  | none =>
    rw [hw] at hv
    exact ⟨by rw [hv], none, by simp [hv, telling, hw]⟩
  | some live =>
    obtain ⟨p, token⟩ := live
    obtain ⟨news, remarks, hs, -⟩ := send_eq t p (call token) hl
    simp only [hw] at hv
    rw [hv, hs]
    exact ⟨rfl, (t.call p (call token)).failure, by simp [telling, hw, heard, act]⟩

theorem subscribe_eq (hl : w.loop ≠ .closed) {node : String} (hn : node ≠ "")
    (options : Option Payload) (callback : κ) : ∃ v failure,
    w.subscribe t node options callback = .ok v ∧
      v.session = { w.session with
        subscriptions := w.session.subscriptions.insert node ⟨options⟩ callback } ∧
      v.history = telling (.add · node options) failure w.session ++ w.history := by
  let u : World κ :=
    remark (.subscribed node (w.session.subscriptions.contains node options) options)
    { w with session.subscriptions := w.session.subscriptions.insert node ⟨options⟩ callback }
  obtain ⟨hs, failure, hh⟩ := told_eq (w := u) (t := t) (.add · node options) hl rfl
  refine ⟨_, failure, ?_, hs, hh⟩
  simp only [subscribe, hn, if_false]
  split <;> simp [u, *]

theorem unsubscribe_eq (hl : w.loop ≠ .closed) {node : String} (hn : node ≠ "")
    {options : Option Payload} {key : Key} {callback : κ}
    (hf : w.session.subscriptions.find? node options = some (key, callback)) : ∃ v failure,
    w.unsubscribe t node options = .ok v ∧
      v.session = { w.session with subscriptions := w.session.subscriptions.erase node options } ∧
      v.history = telling (.remove · node key.options) failure w.session ++ w.history := by
  let u : World κ := remark (.unsubscribed node key.options)
    { w with session.subscriptions := w.session.subscriptions.erase node options }
  obtain ⟨hs, failure, hh⟩ :=
    told_eq (w := u) (t := t) (.remove · node key.options) hl rfl
  refine ⟨_, failure, ?_, hs, hh⟩
  simp only [unsubscribe, hn, if_false, hf]
  split <;> simp [u, *]

theorem additions_added {node : String} {options : Option Payload}
    {failure : Option RemoteFault}
    (h : v.history = telling (.add · node options) failure w.session ++ w.history) :
    v.additions = w.additions ++
      w.session.live?.toList.map fun (p, token) => (p, token, node, options) := by
  rw [additions, recorded_append h, ← additions, telling]
  cases w.session.live? <;> rfl

theorem additions_removed {node : String} {options : Option Payload}
    {failure : Option RemoteFault}
    (h : v.history = telling (.remove · node options) failure w.session ++ w.history) :
    v.additions = w.additions := by
  refine recorded_same _ h fun a ha => ?_
  obtain ⟨_, _, rfl⟩ := mem_telling ha
  rfl

/-! Steps. -/

/-- Without a handle nothing is alive that could call, and no handle comes back. -/
theorem handles_step (h : w.handles = 0) (s : Step κ) : (w.step s).handles = 0 := by
  cases s with
  | connect | disconnect | subscribe | unsubscribe | getItem | barrier | cloneHandle | dropHandle =>
    exact (congrArg handles (if_pos h)).trans h
  | post posting =>
    obtain ⟨news, remarks, hp, -⟩ := w.post_eq posting
    exact (congrArg handles hp).trans h
  | turn t =>
    have ht : Turned t w (w.step (.turn t)) := w.turned t
    generalize w.step (.turn t) = v at ht ⊢
    cases ht with
    | busy | idle | ended => exact h
    | handled _ _ h0 => exact absurd h h0
  | finish t =>
    by_cases hl : w.loop = .handling
    · have hf : w.finish t = abandon t { w with loop := .waiting } := (if_pos hl).trans (if_pos h)
      exact (congrArg handles hf).trans (moves_abandon.frame.2.trans h)
    · exact (congrArg handles (if_neg hl)).trans h
  | answer result index =>
    obtain ⟨queue, remarks, ha⟩ := w.answer_eq result index
    exact (congrArg handles ha).trans h

/-- A step did to the subscriptions what the application asked for, the provider was told what was
due, and no connection has come about. -/
structure Heeded (s : Step κ) (u v : World κ) : Prop where
  subscriptions : u.handles ≠ 0 → v.session.subscriptions = s.wish u.session.subscriptions
  additions : v.additions = u.additions ++ u.due s
  phase : v.session.phase = .connected → u.session.phase = .connected

theorem Steady.heeded {s : Step κ} (h : Steady u v)
    (hw : u.handles ≠ 0 → s.wish u.session.subscriptions = u.session.subscriptions)
    (hd : u.due s = []) : Heeded s u v := by
  refine ⟨fun h0 => ?_, ?_, h.phase⟩
  · rw [h.subscriptions, hw h0]
  · rw [h.additions, hd, List.append_nil]

theorem steady_withHandle {go : World κ → World κ} (h : w.handles ≠ 0 → Steady w (go w)) :
    Steady w (w.withHandle go) := by
  by_cases h0 : w.handles = 0
  · have hg : w.withHandle go = w := if_pos h0
    rw [hg]
    exact .refl w
  · have hg : w.withHandle go = go w := if_neg h0
    rw [hg]
    exact h h0

theorem steady_call {call : World κ → Except Fault (World κ)}
    (h : w.handles ≠ 0 → ∀ v, call w = .ok v → Steady w v) :
    Steady w (w.withHandle fun w => w.orSame (call w)) := by
  refine steady_withHandle fun h0 => ?_
  have hc := h h0
  cases hr : call w with
  | error fault => exact .refl w
  | ok v => exact hc v hr

theorem heeded_subscribe (hs : w.Settled) (node : String) (options : Option Payload)
    (callback : κ) : Heeded (.subscribe t node options callback) w
      (w.step (.subscribe t node options callback)) := by
  by_cases h0 : w.handles = 0
  · have hg : w.step (.subscribe t node options callback) = w := if_pos h0
    rw [hg]
    exact (Steady.refl w).heeded (fun h => absurd h0 h) (by simp [due, h0])
  have hg : w.step (.subscribe t node options callback) =
      w.orSame (w.subscribe t node options callback) := if_neg h0
  rw [hg]
  by_cases hn : node = ""
  · have hf : w.subscribe t node options callback = .error .emptyNode := if_pos hn
    rw [hf]
    exact (Steady.refl w).heeded (by simp [Step.wish, hn]) (by simp [due, hn])
  · obtain ⟨v, failure, hv, hsub, hh⟩ := subscribe_eq (t := t) (hs.open h0) hn options callback
    rw [hv]
    refine ⟨fun _ => ?_, ?_, ?_⟩
    · simp [orSame, hsub, Step.wish, hn]
    · simpa [orSame, due, h0, hn] using additions_added hh
    · simp [orSame, hsub]

theorem heeded_unsubscribe (hs : w.Settled) (hr : w.session.subscriptions.Sound) (node : String)
    (options : Option Payload) : Heeded (.unsubscribe t node options) w
      (w.step (.unsubscribe t node options)) := by
  by_cases h0 : w.handles = 0
  · have hg : w.step (.unsubscribe t node options) = w := if_pos h0
    rw [hg]
    exact (Steady.refl w).heeded (fun h => absurd h0 h) rfl
  have hg : w.step (.unsubscribe t node options) = w.orSame (w.unsubscribe t node options) :=
    if_neg h0
  rw [hg]
  by_cases hn : node = ""
  · have hf : w.unsubscribe t node options = .error .emptyNode := if_pos hn
    rw [hf]
    exact (Steady.refl w).heeded (by simp [Step.wish, hn]) rfl
  cases hf : w.session.subscriptions.find? node options with
  | none =>
    have hu : w.unsubscribe t node options = .ok (w.remark (.notSubscribed node)) := by
      simp [unsubscribe, hn, hf]
    rw [hu]
    -- What is not there is erased in vain.
    exact (steady_remark _).heeded (by simp [Step.wish, hn, hr.erase_eq_self_iff.mpr hf]) rfl
  | some entry =>
    obtain ⟨v, failure, hv, hsub, hh⟩ := unsubscribe_eq (t := t) (hs.open h0) hn hf
    rw [hv]
    refine ⟨fun _ => ?_, ?_, ?_⟩
    · simp [orSame, hsub, Step.wish, hn]
    · simpa [orSame, due] using additions_removed hh
    · simp [orSame, hsub]

theorem step_heeded_or_entered (hs : w.Settled) (h : w.Sound)
    (hr : w.session.subscriptions.Sound) (s : Step κ) : Heeded s w (w.step s) ∨
      ∃ t sink reply p, s = .turn t ∧ w.handles ≠ 0 ∧ Entered t sink reply p w (w.step s) := by
  cases s with
  | subscribe t node options callback => exact .inl (heeded_subscribe hs node options callback)
  | unsubscribe t node options => exact .inl (heeded_unsubscribe hs hr node options)
  | turn t =>
    rcases turn_steady_or_entered h t with ht | ⟨sink, reply, p, h0, ht⟩
    · exact .inl (ht.heeded (fun _ => rfl) rfl)
    · exact .inr ⟨t, sink, reply, p, rfl, h0, ht⟩
  | connect t =>
    have hc : Steady w (w.step (.connect t)) :=
      steady_call fun h0 _ => steady_connect (hs.open h0)
    exact .inl (hc.heeded (fun _ => rfl) rfl)
  | disconnect t =>
    have hc : Steady w (w.step (.disconnect t)) := steady_withHandle fun _ => steady_tearDown
    exact .inl (hc.heeded (fun _ => rfl) rfl)
  | getItem mediaId callback =>
    have hc : Steady w (w.step (.getItem mediaId callback)) := steady_call fun _ _ => steady_getItem
    exact .inl (hc.heeded (fun _ => rfl) rfl)
  | barrier =>
    have hc : Steady w (w.step .barrier) := steady_withHandle fun _ => steady_enqueue _
    exact .inl (hc.heeded (fun _ => rfl) rfl)
  | cloneHandle =>
    have hc : Steady w (w.step .cloneHandle) := steady_withHandle fun _ => ⟨rfl, rfl, id⟩
    exact .inl (hc.heeded (fun _ => rfl) rfl)
  | dropHandle t =>
    have hc : Steady w (w.step (.dropHandle t)) := steady_withHandle fun _ => steady_dropHandle
    exact .inl (hc.heeded (fun _ => rfl) rfl)
  | post posting => exact .inl ((steady_post posting).heeded (fun _ => rfl) rfl)
  | finish t => exact .inl (steady_finish.heeded (fun _ => rfl) rfl)
  | answer result index =>
    exact .inl ((steady_answer result index).heeded (fun _ => rfl) rfl)

theorem subscriptions_wished (setting : Setting) (steps : List (Step κ)) :
    ((create setting).run steps).handles ≠ 0 →
      ((create setting).run steps).session.subscriptions = wishes steps := by
  refine run_induction (P := fun steps w => w.handles ≠ 0 → w.session.subscriptions = wishes steps)
    (fun _ => rfl) (fun steps s ih hv => ?_) steps
  have h0 : ((create setting).run steps).handles ≠ 0 := fun h => hv (handles_step h s)
  rw [wishes_snoc, ← ih h0]
  rcases step_heeded_or_entered (settled_run (settled_create setting) steps)
    (sound_reachable setting steps) (mirrored_reachable setting steps).subscriptions s with
    h | ⟨t, sink, reply, p, rfl, -, h⟩
  · exact h.subscriptions h0
  · exact h.subscriptions

/-- In every run, as long as somebody holds the session, its subscriptions are what the application
asked for and nothing else. A connection comes about when a reply is accepted; the provider is then
told to add each subscription once, in order and whatever it answers, before the application hears
of the connection. Otherwise a provider is told to add a subscription only by a call that makes
one while connected. -/
theorem durable_replay_reachable (setting : Setting) (steps : List (Step κ)) (s : Step κ) :
    let w := (create setting).run steps
    (w.handles ≠ 0 → w.session.subscriptions = wishes steps) ∧
    (w.session.live?.isSome ↔ w.session.phase = .connected) ∧
    if w.session.phase ≠ .connected ∧ (w.step s).session.phase = .connected then
      ∃ t sink reply p, s = .turn t ∧ (w.step s).session.live? = some (p, sink.token) ∧
        (w.step s).history = .connection .connected (some sink.token) ::
          ((tellings t p sink.token (wishes steps).replay).reverse ++
            .accepted sink reply :: w.history)
    else (w.step s).additions = w.additions ++ w.due s := by
  intro w
  have hs : w.Sound := sound_reachable setting steps
  have hw : w.handles ≠ 0 → w.session.subscriptions = wishes steps :=
    subscriptions_wished setting steps
  refine ⟨hw, ⟨fun hl => ?_, fun hp => ?_⟩, ?_⟩
  · obtain ⟨⟨p, token⟩, hl⟩ := Option.isSome_iff_exists.mp hl
    exact (Session.live?_eq_some.mp hl).1
  · obtain ⟨p, token, hl⟩ := hs.consistent.live hp
    rw [hl]
    rfl
  rcases step_heeded_or_entered (settled_run (settled_create setting) steps) hs
    (mirrored_reachable setting steps).subscriptions s with h | ⟨t, sink, reply, p, rfl, h0, h⟩
  · rw [if_neg fun hp => hp.1 (h.phase hp.2)]
    exact h.additions
  · have hb : w.session.phase ≠ .connected := fun hp => by cases h.before.symm.trans hp
    rw [if_pos ⟨hb, (Session.live?_eq_some.mp h.live).1⟩]
    exact ⟨t, sink, reply, p, rfl, h.live, hw h0 ▸ h.history⟩

/-- Subscriptions that were made offline, with one given up under another spelling of its options,
and a provider that is gone when it is told about them. -/
theorem durable_replay_offline :
    let gone : Transport := { Transport.prompt with call := fun _ _ => ⟨some .disconnected, []⟩ }
    let steps : List (Step Unit) := [
      .subscribe .prompt "leaf" none (), .subscribe .prompt "node" none (),
      .subscribe .prompt "twig" none (), .unsubscribe .prompt "leaf" (some .empty),
      .connect .prompt, .turn .prompt, .finish .prompt]
    let last : Step Unit := .turn gone
    let w := (create ⟨⟨"package", "class"⟩, "client", none⟩).run steps
    let v := w.step last
    w.handles ≠ 0 ∧ w.session.phase ≠ .connected ∧ v.session.phase = .connected ∧
      (wishes steps).replay = [("node", none), ("twig", none)] ∧
      v.additions = [(⟨0⟩, ⟨1⟩, "node", none), (⟨0⟩, ⟨1⟩, "twig", none)] ∧
      w.session.subscriptions = wishes steps ∧
      ∃ t sink reply p, last = .turn t ∧ v.session.live? = some (p, sink.token) ∧
        v.history = .connection .connected (some sink.token) ::
          ((tellings t p sink.token (wishes steps).replay).reverse ++
            .accepted sink reply :: w.history) := by
  intro gone steps last w v
  have h0 : w.handles ≠ 0 := by decide
  have hp : w.session.phase ≠ .connected ∧ v.session.phase = .connected := ⟨by decide, rfl⟩
  obtain ⟨hw, -, he⟩ := durable_replay_reachable ⟨⟨"package", "class"⟩, "client", none⟩ steps last
  exact ⟨h0, hp.1, hp.2, rfl, rfl, hw h0, (if_pos hp).mp he⟩

end World
end MediaLink
