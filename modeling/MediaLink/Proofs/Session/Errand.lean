import MediaLink.Proofs.Session.Runs

/-! What there is of one request for an item, and what leaves it as it is. -/
namespace MediaLink

variable {κ : Type}

/-- Whether an event brings the answer to a request. -/
def Event.answers (n : Nat) : Event κ → Bool
  | .item request .. => request == n
  | _ => false

namespace Act

/-- Whether a provider was asked for a request. -/
def looksUp (n : Nat) : Act κ → Bool
  | .lookup request .. => request == n
  | _ => false

/-- Whether the application was told the answer to a request. -/
def tells (n : Nat) : Act κ → Bool
  | .item _ request .. => request == n
  | _ => false

end Act

/-- How many requests were made, and what there is of one of them: lookups that are under way,
answers that wait, lookups that are over and answers that were given. -/
structure Errand (κ : Type) where
  made : Nat
  pending : List (Lookup κ)
  queued : List (Event κ)
  asked : List (Act κ)
  told : List (Act κ)

/-- What the application was told in answer to the request, and through which callbacks. -/
def Errand.notices (e : Errand κ) : List (κ × ItemNotice) := e.told.filterMap Act.itemNotice?

namespace World

variable {v w : World κ} {t : Transport} {n : Nat} {e : Event κ}

def errand (n : Nat) (w : World κ) : Errand κ where
  made := w.requests
  pending := w.lookups.filter fun l => l.request == n
  queued := w.queue.filter (Event.answers n)
  asked := w.history.filter (Act.looksUp n)
  told := w.history.filter (Act.tells n)

@[simp] theorem errand_remark (r : Remark κ) : (w.remark r).errand n = w.errand n := rfl

theorem errand_act {a : Act κ} (hl : a.looksUp n = false) (ht : a.tells n = false) :
    (w.act a).errand n = w.errand n := by
  simp [errand, act, hl, ht]

theorem errand_offer (he : e.answers n = false) (r : Remark κ) :
    (w.offer e r).errand n = w.errand n := by
  simp only [offer]
  split
  · rfl
  · simp [errand, he]

theorem errand_enqueue (he : e.answers n = false) : (w.enqueue e).errand n = w.errand n :=
  errand_offer he _

@[simp] theorem errand_post (posting : Posting) : (w.post posting).errand n = w.errand n := by
  cases posting with
  | binder sink note =>
    simp only [post]
    split
    · exact errand_offer rfl _
    · rfl
  | provider sink note =>
    simp only [post]
    split
    · exact errand_offer rfl _
    · rfl

@[simp] theorem errand_postAll (posts : List Posting) :
    (w.postAll posts).errand n = w.errand n := by
  induction posts generalizing w with
  | nil => rfl
  | cons posting posts ih => exact ih.trans (errand_post posting)

@[simp] theorem errand_invoke (answer : CallAnswer) (p : Provider) (call : Call) :
    (w.invoke answer p call).errand n = w.errand n :=
  (errand_postAll answer.posts).trans (errand_act rfl rfl)

@[simp] theorem errand_callFailed (call : Call) (fault : RemoteFault) :
    (w.callFailed call fault).errand n = w.errand n := by
  simp only [callFailed]
  split
  · exact errand_enqueue rfl
  · rfl

@[simp] theorem errand_send (p : Provider) (call : Call) :
    (w.send t p call).errand n = w.errand n := by
  simp only [send]
  split <;> simp

@[simp] theorem errand_release : w.release.errand n = w.errand n := by
  simp only [release]
  split
  · exact errand_act rfl rfl
  · rfl

@[simp] theorem errand_takeLeave : (w.takeLeave t).errand n = w.errand n := by
  simp only [takeLeave]
  split
  · split <;> simp
  · rfl

@[simp] theorem errand_tearDown : (w.tearDown t).errand n = w.errand n := by
  have ha : (w.act (.tornDown w.session.phase)).errand n = w.errand n := errand_act rfl rfl
  simp only [tearDown]
  split <;> simp [ha]

@[simp] theorem errand_abandon : (w.abandon t).errand n = w.errand n := by
  simp only [abandon]
  split <;> simp

theorem errand_startAttempt (begin : Session κ → Token → Session κ) :
    (w.startAttempt begin).1.errand n = w.errand n :=
  errand_act (w := { w with tokens := w.tokens + 1, session := begin w.session w.nextToken })
    rfl rfl

/-! Calls of the application. -/

theorem errand_requestBinding (token : Token) :
    (w.requestBinding t token).errand n = w.errand n := by
  have ha : (act (.bind token (t.bind token).granted)
      { w with binderSinks := w.binderSinks ++ [token] }).errand n = w.errand n :=
    errand_act rfl rfl
  simp only [requestBinding]
  split
  · simp [ha]
  · rw [errand_enqueue rfl]
    simp [ha]

@[simp] theorem errand_attemptConnect : (w.attemptConnect t).errand n = w.errand n := by
  have hb := errand_requestBinding (n := n) (t := t) (w := (w.startAttempt Session.begin).1)
    w.nextToken
  exact hb.trans (errand_startAttempt Session.begin)

theorem errand_connect : (w.orSame (w.connect t)).errand n = w.errand n := by
  simp only [connect]
  split <;> simp [orSame]

theorem errand_subscribe (node : String) (options : Option Payload) (callback : κ) :
    (w.orSame (w.subscribe t node options callback)).errand n = w.errand n := by
  simp only [subscribe]
  split
  · rfl
  · split
    · simp only [orSame, errand_send]
      rfl
    · rfl

theorem errand_unsubscribe (node : String) (options : Option Payload) :
    (w.orSame (w.unsubscribe t node options)).errand n = w.errand n := by
  simp only [unsubscribe]
  split
  · rfl
  · split
    · rfl
    · split
      · simp only [orSame, errand_send]
        rfl
      · rfl

theorem errand_withHandle {go : World κ → World κ} (h : (go w).errand n = w.errand n) :
    (w.withHandle go).errand n = w.errand n := by
  simp only [withHandle]
  split
  · rfl
  · exact h

theorem errand_dropHandle : (w.dropHandle t).errand n = w.errand n := by
  simp only [dropHandle]
  split
  · rw [errand_abandon]
    rfl
  · rfl

theorem errand_finish : (w.finish t).errand n = w.errand n := by
  simp only [finish]
  split
  · split
    · rw [errand_abandon]
      rfl
    · rfl
  · rfl

/-! Events. -/

@[simp] theorem errand_notify (notice : Notice) (attempt : Option Token) :
    (w.notify notice attempt).errand n = w.errand n :=
  errand_act rfl rfl

@[simp] theorem errand_failAttempt : w.failAttempt.errand n = w.errand n := by
  simp [failAttempt]

theorem errand_ifCurrent {token : Token} {what : String} {go : World κ → World κ}
    (h : (go w).errand n = w.errand n) : (w.ifCurrent token what go).errand n = w.errand n := by
  simp only [ifCurrent]
  split
  · exact h
  · split <;> rfl

theorem errand_ifHeld {token : Token} {what : String} {go : World κ → World κ}
    (h : (go w).errand n = w.errand n) : (w.ifHeld token what go).errand n = w.errand n := by
  simp only [ifHeld]
  split
  · exact h
  · rfl

theorem errand_requestConnect (p : Provider) (token : Token) :
    (w.requestConnect t p token).errand n = w.errand n := by
  simp only [requestConnect]
  split
  · simp only [errand_failAttempt, errand_remark, errand_invoke]
    rfl
  · simp only [errand_invoke]
    rfl

theorem errand_onBound (p : Provider) : (w.onBound t p).errand n = w.errand n := by
  simp only [onBound]
  split
  · split
    · exact errand_requestConnect _ _
    · rfl
  · rw [errand_requestConnect, errand_remark]
    exact errand_startAttempt Session.resume
  · rfl

@[simp] theorem errand_replay : (w.replay t).errand n = w.errand n := by
  simp only [replay]
  split
  · refine List.foldlRecOn (motive := fun v : World κ => v.errand n = w.errand n) _ _ rfl ?_
    intro v hv entry _
    exact (errand_send _ _).trans hv
  · rfl

theorem errand_onAccepted (sink : ProviderSink) (reply : Reply) :
    (w.onAccepted t sink reply).errand n = w.errand n := by
  simp only [onAccepted]
  split
  · rfl
  · split
    · split
      · simp
      · simp only [errand_notify, errand_replay, errand_remark]
        exact errand_act rfl rfl
    · simp

theorem errand_onRefused (hurdle : Hurdle) : (w.onRefused hurdle).errand n = w.errand n := by
  simp only [onRefused]
  split <;> simp

theorem errand_onLost : w.onLost.errand n = w.errand n := by
  simp only [onLost]
  split
  · simp
  · rw [errand_notify]
    rfl
  · rfl

theorem errand_onChildren (batch : Batch) : (w.onChildren batch).errand n = w.errand n := by
  simp only [onChildren]
  split
  · exact errand_act rfl rfl
  · rfl

/-- An event that is not an answer leaves every request as it is. -/
theorem errand_handle (he : ∀ n, e.answers n = false) : (w.handle t e).errand n = w.errand n := by
  cases e with
  | bindRefused token => exact errand_ifCurrent (errand_onRefused _)
  | binder sink note =>
    cases note with
    | bound p => exact errand_ifHeld (errand_onBound p)
    | unbound => exact errand_ifHeld errand_onLost
  | provider sink note =>
    cases note with
    | accepted reply => exact errand_ifCurrent (errand_onAccepted sink reply)
    | refused => exact errand_ifCurrent (errand_onRefused _)
    | children batch => exact errand_ifCurrent (errand_onChildren batch)
  | lost token fault =>
    simp only [handle]
    refine errand_ifCurrent ?_
    exact errand_onLost
  | item request => exact absurd (he request) (by simp [Event.answers])
  | barrier => rfl

end World
end MediaLink
