import MediaLink.Proofs.Session.Discipline
import MediaLink.Proofs.Session.Likeness

/-! A provider that rejects a call about a subscription leaves the session as one that accepts
it. -/
namespace MediaLink

/-- The second transport answers as the first does, but may accept calls about subscriptions that
the first rejects. -/
structure Transport.Milder (t m : Transport) : Prop where
  bind : m.bind = t.bind
  call : ∀ p c, m.call p c = t.call p c ∨
    c.IsEdit ∧ (∃ message, (t.call p c).failure = some (.rejected message)) ∧
      m.call p c = { t.call p c with failure := none }

/-- The same step with the answers of another transport. -/
def Step.under {κ : Type} (t : Transport) : Step κ → Step κ
  | .connect _ => .connect t
  | .disconnect _ => .disconnect t
  | .subscribe _ node options callback => .subscribe t node options callback
  | .unsubscribe _ node options => .unsubscribe t node options
  | .dropHandle _ => .dropHandle t
  | .turn _ => .turn t
  | .finish _ => .finish t
  | s => s

/-- A call about a subscription counts as accepted even if it was rejected. -/
def Act.pardoned {κ : Type} : Act κ → Act κ
  | .call p (.add token node options) (some (.rejected _)) =>
    .call p (.add token node options) none
  | .call p (.remove token node options) (some (.rejected _)) =>
    .call p (.remove token node options) none
  | a => a

theorem Act.pardoned_rejected {κ : Type} {c : Call} (hc : c.IsEdit) (p : Provider)
    (message : String) : pardoned (κ := κ) (.call p c (some (.rejected message))) =
      .call p c none := by
  cases c with
  | add | remove => rfl
  | connect | disconnect => exact hc.elim

theorem Act.pardoned_accepted {κ : Type} (p : Provider) (c : Call) :
    pardoned (κ := κ) (.call p c none) = .call p c none := by
  cases c <;> rfl

namespace World

variable {κ : Type} {u v w : World κ} {t m : Transport}

/-- The worlds differ only in what is on record of calls that were rejected, and in the log. -/
def Unharmed (u v : World κ) : Prop :=
  ∃ history remarks, v = { u with history, remarks } ∧
    history.map Act.pardoned = u.history.map Act.pardoned

namespace Unharmed

theorem refl (w : World κ) : Unharmed w w := ⟨w.history, w.remarks, rfl, rfl⟩

/-- What shows neither the record nor the log. -/
theorem view {α : Type} (h : Unharmed u v) (get : World κ → α)
    (hg : ∀ w history remarks, get { w with history, remarks } = get w) : get v = get u := by
  obtain ⟨history, remarks, rfl, -⟩ := h
  exact hg ..

theorem session (h : Unharmed u v) : v.session = u.session :=
  h.view World.session fun _ _ _ => rfl

/-- A change of anything but the record and the log. -/
theorem update (h : Unharmed u v) (go : World κ → World κ)
    (hg : ∀ w history remarks, go { w with history, remarks } = { go w with history, remarks })
    (hh : (go u).history = u.history) : Unharmed (go u) (go v) := by
  obtain ⟨history, remarks, rfl, hp⟩ := h
  exact ⟨history, remarks, hg .., hh ▸ hp⟩

theorem remark (h : Unharmed u v) (r : Remark κ) : Unharmed (u.remark r) v := by
  obtain ⟨history, remarks, rfl, hh⟩ := h
  exact ⟨history, remarks, rfl, hh⟩

theorem remarks (h : Unharmed u v) (r s : Remark κ) : Unharmed (u.remark r) (v.remark s) := by
  obtain ⟨history, remarks, rfl, hh⟩ := h
  exact ⟨history, s :: remarks, rfl, hh⟩

theorem act (h : Unharmed u v) {a b : Act κ} (hab : b.pardoned = a.pardoned) :
    Unharmed (u.act a) (v.act b) := by
  obtain ⟨history, remarks, rfl, hh⟩ := h
  exact ⟨b :: history, remarks, rfl, by simp [World.act, hab, hh]⟩

theorem release (h : Unharmed u v) : Unharmed u.release v.release := by
  have hs := h.update (fun w => { w with session := w.session.reset }) (fun _ _ _ => rfl) rfl
  simp only [World.release, h.session] at hs ⊢
  split
  · exact hs.act rfl
  · exact hs

def likeness : Likeness κ where
  rel := Unharmed
  bindings := Eq
  fresh _ := True
  phase h := by rw [h.session]
  attempt h := by rw [h.session]
  provider h := by rw [h.session]
  subscriptions h := by rw [h.session]
  bound h := by rw [h.session]
  holds h hab := by rw [h.session, hab]
  binderSinks h hab := by rw [h.view World.binderSinks fun _ _ _ => rfl, hab]
  providerSinks h := h.view World.providerSinks fun _ _ _ => rfl
  lookups h := h.view World.lookups fun _ _ _ => rfl
  handles h := h.view World.handles fun _ _ _ => rfl
  tokens h := h.view World.tokens fun _ _ _ => rfl
  requests h := h.view World.requests fun _ _ _ => rfl
  handling h := by rw [h.view World.loop fun _ _ _ => rfl]
  closed h := by rw [h.view World.loop fun _ _ _ => rfl]
  unused _ := trivial
  remark h := h.remarks
  act h _ _ := h.act rfl
  release h := h.release
  change {_ _ f} h _ :=
    h.update (fun w => { w with session := f w.session }) (fun _ _ _ => rfl) rfl
  append {_ _ e _} h _ he :=
    he.eq ▸ h.update (fun w => { w with queue := w.queue ++ [e] }) (fun _ _ _ => rfl) rfl
  withToken h := h.update (fun w => { w with tokens := w.tokens + 1 }) (fun _ _ _ => rfl) rfl
  withBinderSink {_ _ token} h _ :=
    h.update (fun w => { w with binderSinks := w.binderSinks ++ [token] }) (fun _ _ _ => rfl) rfl
  withProviderSink h sink :=
    h.update (fun w => { w with providerSinks := w.providerSinks ++ [sink] })
      (fun _ _ _ => rfl) rfl
  withRequests h requests := h.update (fun w => { w with requests }) (fun _ _ _ => rfl) rfl
  withLookups h lookups := h.update (fun w => { w with lookups }) (fun _ _ _ => rfl) rfl
  withHandles h handles := h.update (fun w => { w with handles }) (fun _ _ _ => rfl) rfl
  withWaiting h := h.update (fun w => { w with loop := .waiting }) (fun _ _ _ => rfl) rfl

theorem postAll (h : Unharmed u v) (posts : List Posting) :
    Unharmed (u.postAll posts) (v.postAll posts) :=
  likeness.postAll h (List.forall₂_same.mpr fun x _ => .refl (fun _ => rfl) x)

/-- A call is answered by the milder transport just as well, or it was rejected before. -/
theorem send (hm : t.Milder m) (h : Unharmed u v) (p : Provider) (c : Call) :
    Unharmed (u.send t p c) (v.send m p c) := by
  rcases hm.call p c with hs | ⟨hc, ⟨message, hf⟩, hs⟩
  · apply likeness.send h
    rw [hs]
    exact likeness.same_refl (fun _ => rfl) _
  · have ha : Act.pardoned (κ := κ) (.call p c none) =
        Act.pardoned (.call p c (some (.rejected message))) := by
      rw [Act.pardoned_rejected hc, Act.pardoned_accepted]
    have hi := (h.act ha).postAll (t.call p c).posts
    simp only [World.send, World.invoke, hs, hf, World.callFailed, RemoteFault.losesConnection,
      Bool.false_eq_true, if_false]
    exact hi.remark _

/-- Other calls are answered alike. -/
theorem answers (hm : t.Milder m) : (likeness : Likeness κ).Answers t m := by
  have hr := (likeness : Likeness κ).answers_refl (fun _ => rfl) t
  have hc : ∀ p c, ¬ c.IsEdit → m.call p c = t.call p c :=
    fun p c hc => (hm.call p c).resolve_right fun h => hc h.1
  constructor
  · rw [hm.bind]
    exact hr.granted
  · rw [hm.bind]
    exact hr.bind
  · intro p token
    rw [hc p _ id]
    exact hr.connect p token
  · intro p token
    rw [hc p _ id]
    exact hr.disconnect p token
  · exact fun p _ _ _ h => send hm h p _
  · exact fun p _ _ _ h => send hm h p _

end Unharmed

theorem unharmed_turn (hm : t.Milder m) (w : World κ) : Unharmed (w.turn t) (w.turn m) := by
  have ha : ∀ w : World κ, Unharmed (w.awake t) (w.awake m) := by
    intro w
    simp only [awake]
    split
    · exact .refl _
    · split
      · exact .refl _
      · exact Unharmed.likeness.handle (Unharmed.answers hm) (.refl _) (.refl (fun _ => rfl) _)
  simp only [turn]
  split
  · exact ha _
  · exact ha _
  · exact .refl _
  · exact .refl _

/-- A step in which providers reject calls about subscriptions leaves everything as one in which
they accept them. -/
theorem unharmed_step (hm : t.Milder m) (w : World κ) (s : Step κ) :
    Unharmed (w.step (s.under t)) (w.step (s.under m)) := by
  let L : Likeness κ := Unharmed.likeness
  have h : L.rel w w := .refl w
  have ha : L.Answers t m := Unharmed.answers hm
  cases s with
  | connect => exact L.call h (L.connect ha h)
  | disconnect => exact L.withHandle h (L.tearDown ha h)
  | subscribe _ node options callback => exact L.call h (L.subscribe ha h node options callback)
  | unsubscribe _ node options => exact L.call h (L.unsubscribe ha h node options)
  | dropHandle => exact L.withHandle h (L.dropHandle ha h)
  | turn => exact unharmed_turn hm w
  | finish => exact L.finish ha h
  | getItem | barrier | cloneHandle | post | answer => exact .refl _

theorem post_act (a : Act κ) (posting : Posting) (w : World κ) :
    (w.act a).post posting = (w.post posting).act a := by
  cases posting with
  | binder sink note =>
    by_cases hs : sink ∈ w.binderSinks <;> by_cases hl : w.loop = .closed <;>
      simp [post, offer, act, remark, hs, hl]
  | provider sink note =>
    by_cases hs : sink ∈ w.providerSinks <;> by_cases hl : w.loop = .closed <;>
      simp [post, offer, act, remark, hs, hl]

theorem postAll_act (a : Act κ) (posts : List Posting) (w : World κ) :
    (w.act a).postAll posts = (w.postAll posts).act a := by
  induction posts generalizing w with
  | nil => rfl
  | cons posting posts ih =>
    have hp := ih (w.post posting)
    rw [← post_act] at hp
    exact hp

/-- A rejected call leaves behind what the provider posted during it, the record and a remark. -/
theorem send_rejected {p : Provider} {c : Call} {message : String}
    (hf : (t.call p c).failure = some (.rejected message)) (w : World κ) :
    w.send t p c = remark (.callFailed c (.rejected message))
      (act (.call p c (some (.rejected message))) (w.postAll (t.call p c).posts)) := by
  simp only [send, invoke, hf, callFailed, RemoteFault.losesConnection, Bool.false_eq_true,
    if_false, postAll_act]

end World
end MediaLink
