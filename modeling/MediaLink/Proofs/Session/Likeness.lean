import MediaLink.Proofs.Session.Runs
import Mathlib.Data.List.Forall2

/-! A relation between worlds that every small update keeps is kept by all that a session does. -/
namespace MediaLink

/-- The same notification through sinks of the same binding. -/
inductive Posting.Paired (names : Token → Token → Prop) : Posting → Posting → Prop where
  | binder {a b} (h : names a b) (note) : Paired names (.binder a note) (.binder b note)
  | provider (sink note) : Paired names (.provider sink note) (.provider sink note)

/-- The same event, about the same binding. -/
inductive Event.Paired {κ : Type} (names : Token → Token → Prop) :
    Event κ → Event κ → Prop where
  | binder {a b} (h : names a b) (note) : Paired names (.binder a note) (.binder b note)
  | other {e} (h : ∀ sink note, e ≠ .binder sink note) : Paired names e e

theorem Posting.Paired.refl {names : Token → Token → Prop} (hn : ∀ token, names token token) :
    ∀ x, Posting.Paired names x x
  | .binder sink note => .binder (hn sink) note
  | .provider sink note => .provider sink note

theorem Event.Paired.refl {κ : Type} {names : Token → Token → Prop}
    (hn : ∀ token, names token token) (e : Event κ) : e.Paired names e := by
  cases e with
  | binder sink note => exact .binder (hn sink) note
  | _ => exact .other (by simp)

theorem Event.Paired.eq {κ : Type} {e e' : Event κ} (h : e.Paired Eq e') : e' = e := by
  cases h with
  | binder h note => rw [h]
  | other => rfl

/-- How a session changes on its own. A new binding is named by a token of the given kind. -/
inductive Session.Change {κ : Type} (fresh : Token → Prop) :
    (Session κ → Session κ) → Prop where
  | begin {token} (h : fresh token) : Change fresh (·.begin token)
  | resume (token) : Change fresh (·.resume token)
  | ask (p : Provider) : Change fresh fun s => { s with provider := some p }
  | complete (root token extras) : Change fresh (·.complete root token extras)
  | suspend : Change fresh Session.suspend
  | subscribe (subscriptions) : Change fresh fun s => { s with subscriptions }

/-- Worlds that are alike decide alike, and stay alike whatever small thing happens to both. -/
structure Likeness (κ : Type) where
  rel : World κ → World κ → Prop
  /-- The tokens that name the same binding in both worlds. -/
  bindings : Token → Token → Prop
  /-- The tokens that name no binding in either world. -/
  fresh : Token → Prop
  -- What decisions depend on.
  phase {u v} (h : rel u v) : v.session.phase = u.session.phase
  attempt {u v} (h : rel u v) : v.session.attempt = u.session.attempt
  provider {u v} (h : rel u v) : v.session.provider = u.session.provider
  subscriptions {u v} (h : rel u v) : v.session.subscriptions = u.session.subscriptions
  bound {u v} (h : rel u v) : v.session.binding.isSome = u.session.binding.isSome
  holds {u v a b} (h : rel u v) (hab : bindings a b) : v.session.holds b = u.session.holds a
  binderSinks {u v a b} (h : rel u v) (hab : bindings a b) :
    b ∈ v.binderSinks ↔ a ∈ u.binderSinks
  providerSinks {u v} (h : rel u v) : v.providerSinks = u.providerSinks
  lookups {u v} (h : rel u v) : v.lookups = u.lookups
  handles {u v} (h : rel u v) : v.handles = u.handles
  tokens {u v} (h : rel u v) : v.tokens = u.tokens
  requests {u v} (h : rel u v) : v.requests = u.requests
  handling {u v} (h : rel u v) : v.loop = .handling ↔ u.loop = .handling
  closed {u v} (h : rel u v) : v.loop = .closed ↔ u.loop = .closed
  unused {u v} (h : rel u v) : fresh u.nextToken
  -- What happens to a world, little by little.
  remark {u v} (h : rel u v) (r r') : rel (u.remark r) (v.remark r')
  act {u v} (h : rel u v) (a) (ha : ∀ token, a ≠ .unbind token) : rel (u.act a) (v.act a)
  release {u v} (h : rel u v) : rel u.release v.release
  change {u v f} (h : rel u v) (hf : Session.Change fresh f) :
    rel { u with session := f u.session } { v with session := f v.session }
  append {u v e e'} (h : rel u v) (hl : u.loop ≠ .closed) (he : e.Paired bindings e') :
    rel { u with queue := u.queue ++ [e] } { v with queue := v.queue ++ [e'] }
  withToken {u v} (h : rel u v) :
    rel { u with tokens := u.tokens + 1 } { v with tokens := v.tokens + 1 }
  withBinderSink {u v token} (h : rel u v) (ht : fresh token) :
    rel { u with binderSinks := u.binderSinks ++ [token] }
      { v with binderSinks := v.binderSinks ++ [token] }
  withProviderSink {u v} (h : rel u v) (sink) :
    rel { u with providerSinks := u.providerSinks ++ [sink] }
      { v with providerSinks := v.providerSinks ++ [sink] }
  withRequests {u v} (h : rel u v) (requests) : rel { u with requests } { v with requests }
  withLookups {u v} (h : rel u v) (lookups) : rel { u with lookups } { v with lookups }
  withHandles {u v} (h : rel u v) (handles) : rel { u with handles } { v with handles }
  withWaiting {u v} (h : rel u v) : rel { u with loop := .waiting } { v with loop := .waiting }

namespace Likeness

variable {κ : Type} (L : Likeness κ) {u v : World κ} {t t' : Transport} {a b : CallAnswer}
  {token : Token}

/-- Answers that say the same. -/
structure Same (a b : CallAnswer) : Prop where
  failure : b.failure = a.failure
  posts : List.Forall₂ (Posting.Paired L.bindings) a.posts b.posts

/-- Transports that keep worlds alike. Calls about subscriptions may be answered in two ways, if
that makes no difference. -/
structure Answers (t t' : Transport) : Prop where
  granted : ∀ token, L.fresh token → (t'.bind token).granted = (t.bind token).granted
  bind : ∀ token, L.fresh token →
    List.Forall₂ (Posting.Paired L.bindings) (t.bind token).posts (t'.bind token).posts
  connect : ∀ p token, L.Same (t.call p (.connect token)) (t'.call p (.connect token))
  disconnect : ∀ p token, L.Same (t.call p (.disconnect token)) (t'.call p (.disconnect token))
  add : ∀ {u v} p token node options, L.rel u v →
    L.rel (u.send t p (.add token node options)) (v.send t' p (.add token node options))
  remove : ∀ {u v} p token node options, L.rel u v →
    L.rel (u.send t p (.remove token node options)) (v.send t' p (.remove token node options))

theorem same_refl (hn : ∀ token, L.bindings token token) (a : CallAnswer) : L.Same a a :=
  ⟨rfl, List.forall₂_same.mpr fun _ _ => .refl hn _⟩

theorem offer (h : L.rel u v) {e e' : Event κ} (he : e.Paired L.bindings e')
    (r r' : Remark κ) : L.rel (u.offer e r) (v.offer e' r') := by
  simp only [World.offer, L.closed h]
  split
  · exact L.remark h r r'
  · rename_i hl
    exact L.append h hl he

theorem enqueue (h : L.rel u v) (e : Event κ) (he : ∀ sink note, e ≠ .binder sink note) :
    L.rel (u.enqueue e) (v.enqueue e) :=
  L.offer h (.other he) _ _

theorem post (h : L.rel u v) {x y : Posting} (hxy : x.Paired L.bindings y) :
    L.rel (u.post x) (v.post y) := by
  cases hxy with
  | binder hab note =>
    simp only [World.post, L.binderSinks h hab]
    split
    · exact L.offer h (.binder hab note) _ _
    · exact h
  | provider sink note =>
    simp only [World.post, L.providerSinks h]
    split
    · exact L.offer h (.other (by simp)) _ _
    · exact h

theorem postAll (h : L.rel u v) {posts posts' : List Posting}
    (hp : List.Forall₂ (Posting.Paired L.bindings) posts posts') :
    L.rel (u.postAll posts) (v.postAll posts') := by
  induction hp generalizing u v with
  | nil => exact h
  | cons hxy _ ih => exact ih (L.post h hxy)

theorem invoke (h : L.rel u v) (hs : L.Same a b) (p : Provider) (call : Call) :
    L.rel (u.invoke a p call) (v.invoke b p call) := by
  rw [World.invoke, World.invoke, hs.failure]
  exact L.postAll (L.act h _ (by simp)) hs.posts

theorem callFailed (h : L.rel u v) (call : Call) (fault : RemoteFault) :
    L.rel (u.callFailed call fault) (v.callFailed call fault) := by
  simp only [World.callFailed]
  split
  · exact L.enqueue (L.remark h _ _) _ (by simp)
  · exact L.remark h _ _

theorem send (h : L.rel u v) {p : Provider} {call : Call}
    (hs : L.Same (t.call p call) (t'.call p call)) :
    L.rel (u.send t p call) (v.send t' p call) := by
  have hi := L.invoke h hs p call
  simp only [World.send, hs.failure]
  split
  · exact L.callFailed hi _ _
  · exact hi

/-- Transports that say the same keep worlds alike. -/
theorem answers_of_same
    (hg : ∀ token, L.fresh token → (t'.bind token).granted = (t.bind token).granted)
    (hb : ∀ token, L.fresh token →
      List.Forall₂ (Posting.Paired L.bindings) (t.bind token).posts (t'.bind token).posts)
    (hc : ∀ p call, L.Same (t.call p call) (t'.call p call)) : L.Answers t t' :=
  ⟨hg, hb, fun _ _ => hc _ _, fun _ _ => hc _ _, fun _ _ _ _ h => L.send h (hc _ _),
    fun _ _ _ _ h => L.send h (hc _ _)⟩

theorem answers_refl (hn : ∀ token, L.bindings token token) (t : Transport) : L.Answers t t :=
  L.answers_of_same (fun _ _ => rfl) (fun _ _ => List.forall₂_same.mpr fun _ _ => .refl hn _)
    fun _ _ => L.same_refl hn _

theorem takeLeave (ht : L.Answers t t') (h : L.rel u v) :
    L.rel (u.takeLeave t) (v.takeLeave t') := by
  simp only [World.takeLeave, L.provider h, L.attempt h]
  split
  · rename_i p token _ _
    have hs := ht.disconnect p token
    have hi := L.invoke h hs p (.disconnect token)
    simp only [hs.failure]
    split
    · exact L.remark hi _ _
    · exact hi
  · exact h

theorem tearDown (ht : L.Answers t t') (h : L.rel u v) :
    L.rel (u.tearDown t) (v.tearDown t') := by
  have hr := L.release (L.takeLeave ht (L.act h (.tornDown u.session.phase) (by simp)))
  simp only [World.tearDown, L.phase h]
  split
  · exact hr
  · exact L.remark hr _ _

theorem abandon (ht : L.Answers t t') (h : L.rel u v) :
    L.rel (u.abandon t) (v.abandon t') := by
  simp only [World.abandon, L.phase h, L.bound h]
  split
  · exact L.tearDown ht h
  · exact h

theorem nextToken (h : L.rel u v) : v.nextToken = u.nextToken := by
  rw [World.nextToken, L.tokens h, World.nextToken]

theorem startAttempt (h : L.rel u v) {begin : Session κ → Token → Session κ}
    (hb : Session.Change L.fresh fun s => begin s u.nextToken) :
    L.rel (u.startAttempt begin).1 (v.startAttempt begin).1 := by
  have ha := L.act (L.change (L.withToken h) hb) (.started u.nextToken) (by simp)
  simpa only [World.startAttempt, World.nextToken, L.tokens h] using ha

/-- The provider and the attempt to name are the same. -/
theorem live? (h : L.rel u v) : v.session.live? = u.session.live? := by
  rw [Session.live?, Session.live?, L.phase h, L.provider h, L.attempt h]

theorem isCurrent (h : L.rel u v) (token : Token) :
    v.session.isCurrent token = u.session.isCurrent token := by
  rw [Session.isCurrent, Session.isCurrent, L.attempt h]

/-! Calls of the application. -/

/-- Two calls that fail alike, or succeed with worlds that are alike. -/
def Concur : Except Fault (World κ) → Except Fault (World κ) → Prop
  | .ok u, .ok v => L.rel u v
  | .error e, .error f => e = f
  | _, _ => False

theorem requestBinding (ht : L.Answers t t') (h : L.rel u v) (hf : L.fresh token) :
    L.rel (u.requestBinding t token) (v.requestBinding t' token) := by
  have ha := L.postAll (L.act (L.withBinderSink h hf) (.bind token (t.bind token).granted)
    (by simp)) (ht.bind token hf)
  simp only [World.requestBinding, ht.granted token hf]
  split
  · exact ha
  · exact L.enqueue (L.remark ha _ _) _ (by simp)

theorem attemptConnect (ht : L.Answers t t') (h : L.rel u v) :
    L.rel (u.attemptConnect t) (v.attemptConnect t') := by
  have hf := L.unused h
  have hr : L.rel (World.requestBinding t u.nextToken (u.startAttempt Session.begin).1)
      (World.requestBinding t' v.nextToken (v.startAttempt Session.begin).1) := by
    rw [L.nextToken h]
    exact L.requestBinding ht (L.startAttempt h (.begin hf)) hf
  exact L.remark hr _ _

theorem connect (ht : L.Answers t t') (h : L.rel u v) :
    L.Concur (u.connect t) (v.connect t') := by
  simp only [World.connect, L.phase h]
  split
  · exact L.attemptConnect ht h
  · exact L.attemptConnect ht (L.release (L.remark h _ _))
  · rfl

theorem subscribe (ht : L.Answers t t') (h : L.rel u v) (node : String)
    (options : Option Payload) (callback : κ) : L.Concur
      (u.subscribe t node options callback) (v.subscribe t' node options callback) := by
  have hs := L.change h (.subscribe (u.session.subscriptions.insert node ⟨options⟩ callback))
  have hl := L.live? hs
  simp only [World.subscribe, L.subscriptions h]
  split
  · rfl
  · simp only [World.remark, hl]
    split
    · exact ht.add _ _ _ _ (L.remark hs _ _)
    · exact L.remark hs _ _

theorem unsubscribe (ht : L.Answers t t') (h : L.rel u v) (node : String)
    (options : Option Payload) : L.Concur
      (u.unsubscribe t node options) (v.unsubscribe t' node options) := by
  have hs := L.change h (.subscribe (u.session.subscriptions.erase node options))
  have hl := L.live? hs
  simp only [World.unsubscribe, L.subscriptions h]
  split
  · rfl
  · split
    · exact L.remark h _ _
    · simp only [World.remark, hl]
      split
      · exact ht.remove _ _ _ _ (L.remark hs _ _)
      · exact L.remark hs _ _

theorem getItem (h : L.rel u v) (mediaId : String) (callback : κ) :
    L.Concur (u.getItem mediaId callback) (v.getItem mediaId callback) := by
  have hr := L.withLookups (L.withRequests h (u.requests + 1)) u.lookups
  simp only [World.getItem, L.live? h, L.requests h, L.lookups h]
  split
  · rfl
  · split
    · exact L.withLookups hr _
    · exact L.enqueue (L.remark hr _ _) (.item (u.requests + 1) mediaId none callback) (by simp)

/-! Events. -/

theorem failAttempt (h : L.rel u v) : L.rel u.failAttempt v.failAttempt := by
  simp only [World.failAttempt, L.attempt h]
  exact L.act (L.release h) _ (by simp)

theorem requestConnect (ht : L.Answers t t') (h : L.rel u v) (p : Provider) (token : Token) :
    L.rel (u.requestConnect t p token) (v.requestConnect t' p token) := by
  have hs := ht.connect p token
  have hi := L.invoke (L.withProviderSink (L.remark (L.change h (.ask p)) (.bound token)
    (.bound token)) ⟨p, token⟩) hs p (.connect token)
  simp only [World.requestConnect, hs.failure]
  split
  · exact L.failAttempt (L.remark hi _ _)
  · exact hi

theorem onBound (ht : L.Answers t t') (h : L.rel u v) (p : Provider) :
    L.rel (u.onBound t p) (v.onBound t' p) := by
  have hs : L.rel
      (World.requestConnect t p u.nextToken
        (World.remark (.restored u.nextToken) (u.startAttempt Session.resume).1))
      (World.requestConnect t' p v.nextToken
        (World.remark (.restored v.nextToken) (v.startAttempt Session.resume).1)) := by
    rw [L.nextToken h]
    exact L.requestConnect ht (L.remark (L.startAttempt h (.resume _)) _ _) p _
  simp only [World.onBound, L.phase h, L.attempt h]
  split
  · split
    · exact L.requestConnect ht h p _
    · exact h
  · exact hs
  · exact L.remark h _ _

theorem replay (ht : L.Answers t t') (h : L.rel u v) : L.rel (u.replay t) (v.replay t') := by
  simp only [World.replay, L.live? h, L.subscriptions h]
  split
  · refine List.foldl_rel h fun entry _ u v h => ?_
    exact ht.add _ _ _ _ (L.remark h _ _)
  · exact h

theorem onAccepted (ht : L.Answers t t') (h : L.rel u v) (sink : ProviderSink) (reply : Reply) :
    L.rel (u.onAccepted t sink reply) (v.onAccepted t' sink reply) := by
  simp only [World.onAccepted, L.phase h]
  split
  · exact L.remark h _ _
  · split
    · split
      · exact L.failAttempt (L.remark h _ _)
      · rename_i token _ _
        have hc := L.act (L.change h (.complete reply.root token reply.extras))
          (.accepted sink reply) (by simp)
        have hr := L.replay ht (L.remark hc (.connected (some reply.root))
          (.connected (some reply.root)))
        have hn := L.act hr (.connection .connected u.session.attempt) (by simp)
        simpa only [World.notify, Session.complete, L.attempt h] using hn
    · exact L.failAttempt (L.remark h _ _)

theorem onRefused (h : L.rel u v) (hurdle : Hurdle) :
    L.rel (u.onRefused hurdle) (v.onRefused hurdle) := by
  simp only [World.onRefused, L.phase h]
  split
  · exact L.remark h _ _
  · exact L.failAttempt (L.remark h _ _)

theorem onLost (h : L.rel u v) : L.rel u.onLost v.onLost := by
  simp only [World.onLost, L.phase h, L.attempt h]
  split
  · exact L.failAttempt (L.remark h _ _)
  · exact L.act (L.change (L.remark h _ _) .suspend) _ (by simp)
  · exact L.remark h _ _

theorem onChildren (h : L.rel u v) (batch : Batch) :
    L.rel (u.onChildren batch) (v.onChildren batch) := by
  simp only [World.onChildren, L.subscriptions h]
  split
  · exact L.act h _ (by simp)
  · exact L.remark h _ _

theorem ifCurrent (h : L.rel u v) (token : Token) (what : String) {go go' : World κ → World κ}
    (hgo : L.rel (go u) (go' v)) :
    L.rel (u.ifCurrent token what go) (v.ifCurrent token what go') := by
  simp only [World.ifCurrent, L.isCurrent h, L.phase h]
  split
  · exact hgo
  · split
    · exact h
    · exact L.remark h _ _

theorem ifHeld (h : L.rel u v) {a b : Token} (hab : L.bindings a b) (what : String)
    {go go' : World κ → World κ} (hgo : L.rel (go u) (go' v)) :
    L.rel (u.ifHeld a what go) (v.ifHeld b what go') := by
  simp only [World.ifHeld, L.holds h hab]
  split
  · exact hgo
  · exact L.remark h _ _

theorem handle (ht : L.Answers t t') (h : L.rel u v) {e e' : Event κ}
    (he : e.Paired L.bindings e') : L.rel (u.handle t e) (v.handle t' e') := by
  cases he with
  | binder hab note =>
    cases note with
    | bound p => exact L.ifHeld h hab _ (L.onBound ht h p)
    | unbound => exact L.ifHeld h hab _ (L.onLost h)
  | other hb =>
    cases e with
    | binder sink note => exact absurd rfl (hb sink note)
    | bindRefused token => exact L.ifCurrent h _ _ (L.onRefused h _)
    | provider sink note =>
      cases note with
      | accepted reply => exact L.ifCurrent h _ _ (L.onAccepted ht h sink reply)
      | refused => exact L.ifCurrent h _ _ (L.onRefused h _)
      | children batch => exact L.ifCurrent h _ _ (L.onChildren h batch)
    | lost token fault =>
      simp only [World.handle]
      refine L.ifCurrent h token _ ?_
      exact L.onLost (L.remark h (.channelLost token fault) (.channelLost token fault))
    | item => exact L.act h _ (by simp)
    | barrier => exact h

/-! Steps. -/

theorem withHandle (h : L.rel u v) {go go' : World κ → World κ} (hgo : L.rel (go u) (go' v)) :
    L.rel (u.withHandle go) (v.withHandle go') := by
  simp only [World.withHandle, L.handles h]
  split
  · exact h
  · exact hgo

/-- Calls that concur keep worlds alike, whether there is a handle to call through or not. -/
theorem call (h : L.rel u v) {go go' : World κ → Except Fault (World κ)}
    (hr : L.Concur (go u) (go' v)) :
    L.rel (u.withHandle fun w => w.orSame (go w)) (v.withHandle fun w => w.orSame (go' w)) := by
  refine L.withHandle h ?_
  generalize go u = a at hr
  generalize go' v = b at hr
  cases a <;> cases b
  · exact h
  · exact hr.elim
  · exact hr.elim
  · exact hr

theorem cloneHandle (h : L.rel u v) : L.rel u.cloneHandle v.cloneHandle := by
  rw [World.cloneHandle, World.cloneHandle, L.handles h]
  exact L.withHandles h _

theorem dropHandle (ht : L.Answers t t') (h : L.rel u v) :
    L.rel (u.dropHandle t) (v.dropHandle t') := by
  have hd := L.withHandles h (u.handles - 1)
  simp only [World.dropHandle, L.handles h, ne_eq, L.handling h]
  split
  · exact L.abandon ht hd
  · exact hd

theorem finish (ht : L.Answers t t') (h : L.rel u v) : L.rel (u.finish t) (v.finish t') := by
  have hw := L.withWaiting h
  simp only [World.finish, L.handling h, L.handles h] at hw ⊢
  split
  · split
    · exact L.abandon ht hw
    · exact hw
  · exact h

theorem answer (h : L.rel u v) (result : Except RemoteFault (Option Item)) (index : Nat) :
    L.rel (u.answer result index) (v.answer result index) := by
  -- The answer is put into the queue, if there still is one.
  have hm : ∀ {u v : World κ}, L.rel u v → ∀ e : Event κ, (∀ sink note, e ≠ .binder sink note) →
      L.rel (if u.loop = .closed then u else { u with queue := u.queue ++ [e] })
        (if v.loop = .closed then v else { v with queue := v.queue ++ [e] }) := by
    intro u v h e he
    simp only [L.closed h]
    split
    · exact h
    · rename_i hl
      exact L.append h hl (.other he)
  simp only [World.answer, L.lookups h]
  cases u.lookups[index]? with
  | none => exact h
  | some l =>
    have ha := L.act (L.withLookups h (u.lookups.eraseIdx index))
      (.lookup l.request l.provider l.mediaId result) (by simp)
    cases result with
    | ok found => exact hm ha _ (by simp)
    | error fault => exact hm (L.remark ha _ _) _ (by simp)

end Likeness
end MediaLink
