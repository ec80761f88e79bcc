import MediaLink.Proofs.Session.Move

/-! What the application asks for, and what the loop handles, is made of moves. -/
namespace MediaLink.World

variable {κ : Type} {u v w : World κ} {t : Transport} {e : Event κ} {rest : List (Event κ)}

theorem moves_remark (r : Remark κ) : Moves [] w (w.remark r) := (Move.remark w _).one

theorem moves_heard {news} (remarks) (hn : ∀ e ∈ news, w.Foreign e) :
    Moves [] w (w.heard news remarks) :=
  (Move.hear hn).one.tail (.remark _ remarks)

theorem moves_post (posting : Posting) : Moves [] w (w.post posting) := by
  obtain ⟨news, remarks, hp, hn⟩ := w.post_eq posting
  rw [hp]
  exact moves_heard remarks hn

theorem moves_enqueue (hl : w.loop ≠ .closed) (he : w.Foreign e) : Moves [] w (w.enqueue e) := by
  rw [enqueue_eq e hl]
  exact moves_heard w.remarks (by simpa using he)

/-! Calls of the application. -/

theorem moves_attemptConnect (hl : w.loop ≠ .closed) (h : w.session.phase = .disconnected) :
    Moves [.start] w (w.attemptConnect t) := by
  obtain ⟨news, remarks, hr, hn⟩ :=
    requestBinding_eq t w.nextToken (w := (w.startAttempt Session.begin).1) hl
  have ha : w.attemptConnect t =
    remark (.connecting w.nextToken)
      (requestBinding t w.nextToken (w.startAttempt Session.begin).1) := rfl
  rw [ha, hr, remark_heard, heard, ← List.append_assoc]
  exact (Move.begin _ h hn).one.tail (.remark _ _)

theorem release_phase : w.release.session.phase = .disconnected := by
  simp only [release]
  split <;> rfl

theorem release_loop : w.release.loop = w.loop := by
  simp only [release]
  split <;> rfl

theorem moves_connect (hl : w.loop ≠ .closed) (h : w.connect t = .ok v) :
    Moves [.start] w v := by
  cases hp : w.session.phase with
  | disconnected =>
    simp only [connect, hp, Except.ok.injEq] at h
    exact h ▸ moves_attemptConnect hl hp
  | suspended =>
    simp only [connect, hp, Except.ok.injEq] at h
    subst h
    have hr := (moves_remark (w := w) .releasing).tail (.letGo hp)
    exact hr.trans (moves_attemptConnect (by rwa [release_loop]) release_phase)
  | connecting => simp [connect, hp] at h
  | connected => simp [connect, hp] at h

/-- Telling a connected provider about a change is one move with the change itself. -/
theorem moves_told (call : Token → Call) (hl : v.loop ≠ .closed)
    (hc : ∀ token, (call token).token = token) (hf : ∀ e, v.Foreign e → u.Foreign e)
    (hm : ∀ news remarks failure,
      Move [] (u.heard news remarks) ((v.heard news remarks).tell call failure)) :
    Moves [] u (match v.session.live? with
      | some (p, token) => v.send t p (call token)
      | none => v) := by
  cases hv : v.session.live? with
  | none =>
    have h := hm [] v.remarks none
    have ht : (v.heard [] v.remarks).tell call none = v := by
      rw [heard_nil]
      simp [tell, telling, complaint, hv]
    rw [ht] at h
    exact (moves_heard v.remarks (by simp)).tail h
  | some live =>
    obtain ⟨p, token⟩ := live
    obtain ⟨news, remarks, hs, hn⟩ := send_eq t p (call token) hl
    have h := hm news remarks (t.call p (call token)).failure
    have ht : (v.heard news remarks).tell call (t.call p (call token)).failure =
        v.send t p (call token) := by
      rw [hs, hc]
      simp [tell, telling, complaint, heard, act, hv]
    rw [ht] at h
    exact (moves_heard remarks fun e he => hf e (hn e he)).tail h

theorem moves_subscribe {node options callback} (hl : w.loop ≠ .closed)
    (h : w.subscribe t node options callback = .ok v) : Moves [] w v := by
  have hm := moves_told (t := t) (.add · node options) (u := w)
    (v := remark (.subscribed node (w.session.subscriptions.contains node options) options)
      { w with
        session.subscriptions := w.session.subscriptions.insert node ⟨options⟩ callback })
    hl (fun _ => rfl) (fun _ h => h) (fun news remarks failure =>
      .insert (w.heard news remarks) node options callback failure)
  by_cases hnode : node = ""
  · simp [subscribe, hnode] at h
  simp only [subscribe, hnode, if_false] at h
  split at h
  · rename_i hv
    cases h
    simpa only [hv] using hm
  · rename_i hv
    cases h
    simpa only [hv] using hm

theorem moves_unsubscribe {node options} (hl : w.loop ≠ .closed)
    (h : w.unsubscribe t node options = .ok v) : Moves [] w v := by
  by_cases hnode : node = ""
  · simp [unsubscribe, hnode] at h
  simp only [unsubscribe, hnode, if_false] at h
  cases hf : w.session.subscriptions.find? node options with
  | none =>
    simp only [hf, Except.ok.injEq] at h
    exact h ▸ moves_remark _
  | some entry =>
    obtain ⟨key, callback⟩ := entry
    have hm := moves_told (t := t) (.remove · node key.options) (u := w)
      (v := remark (.unsubscribed node key.options)
        { w with session.subscriptions := w.session.subscriptions.erase node options })
      hl (fun _ => rfl) (fun _ h => h) (fun news remarks failure =>
        .erase (w := w.heard news remarks) failure hf)
    simp only [hf] at h
    split at h
    · rename_i hv
      cases h
      simpa only [hv] using hm
    · rename_i hv
      cases h
      simpa only [hv] using hm

theorem moves_getItem {mediaId callback} (hl : w.loop ≠ .closed)
    (h : w.getItem mediaId callback = .ok v) : Moves [] w v := by
  by_cases hm : mediaId = ""
  · simp [getItem, hm] at h
  simp only [getItem, hm, if_false] at h
  split at h
  · cases h
    exact (Move.aside w _ _ _).one
  · cases h
    exact (Move.aside w w.lookups _ (.notConnected mediaId :: w.remarks)).one.trans
      (moves_enqueue hl trivial)

theorem takeLeave_eq (t : Transport) (w : World κ) : ∃ failure news remarks,
    w.takeLeave t =
      heard news remarks { w with history := farewell failure w.session ++ w.history } ∧
    ∀ e ∈ news, w.Foreign e := by
  simp only [takeLeave, farewell]
  cases w.session.provider with
  | none => exact ⟨none, [], w.remarks, w.heard_nil.symm, by simp⟩
  | some p =>
    cases w.session.attempt with
    | none => exact ⟨none, [], w.remarks, w.heard_nil.symm, by simp⟩
    | some token =>
      obtain ⟨news, remarks, hi, hn⟩ :=
        w.invoke_eq (t.call p (.disconnect token)) p (.disconnect token)
      simp only [hi]
      cases (t.call p (.disconnect token)).failure with
      | none => exact ⟨none, news, remarks, rfl, hn⟩
      | some fault => exact ⟨some fault, news, .disconnectFailed fault :: remarks, rfl, hn⟩

theorem moves_tearDown : Moves w.session.stops w (w.tearDown t) := by
  obtain ⟨failure, news, remarks, hl, hn⟩ := takeLeave_eq t (w.act (.tornDown w.session.phase))
  have hm : Moves w.session.stops w ((w.act (.tornDown w.session.phase)).takeLeave t).release := by
    rw [hl, release_eq]
    exact (moves_heard (w := w) remarks hn).tail (.leave (w.heard news remarks) failure)
  simp only [tearDown]
  split
  · exact hm
  · simpa only [List.append_nil] using hm.trans (moves_remark (.disconnected w.session.phase))

theorem moves_abandon : Moves w.session.stops w (w.abandon t) := by
  simp only [abandon]
  split
  · exact moves_tearDown
  · rename_i h
    have hp : w.session.phase = .disconnected := by simp_all
    simpa [Session.stops, hp] using Moves.refl w

/-! Events. -/

theorem moves_ignore (hq : w.queue = e :: rest) (h : w.session.verdict e = .ignore) (remarks) :
    Moves [] w { w with queue := rest, remarks } :=
  (Move.ignore hq h).one.tail (.remark _ remarks)

theorem moves_fail (hq : w.queue = e :: rest) (h : w.session.verdict e = .fail) (remarks) :
    Moves [] w (failAttempt { w with queue := rest, remarks }) :=
  (Move.remark w remarks).one.tail (.fail (w := { w with remarks }) hq h)

/-- What follows once a provider has been asked. -/
theorem moves_requestConnect {p : Provider} {token : Token} (h : w.session.phase = .connecting) :
    Moves [] (w.ask p token (t.call p (.connect token)).failure)
      (w.requestConnect t p token) := by
  obtain ⟨news, remarks, hi, hn⟩ := invoke_eq (t.call p (.connect token)) p (.connect token)
    { remark (.bound token) { w with session.provider := some p } with
      providerSinks := w.providerSinks ++ [⟨p, token⟩] }
  have ha : Moves [] (w.ask p token (t.call p (.connect token)).failure)
    (heard news remarks (w.ask p token (t.call p (.connect token)).failure)) :=
    moves_heard remarks hn
  rw [requestConnect]
  simp only [remark] at hi ⊢
  rw [hi]
  split
  · exact (ha.trans (moves_remark (.connectFailed _))).tail (.abort h)
  · exact ha

theorem moves_onBound {sink p} (hq : w.queue = .binder sink (.bound p) :: rest)
    (hh : w.session.holds sink) :
    Moves (if w.session.phase = .suspended then [.start] else []) w
      (onBound t p { w with queue := rest }) := by
  simp only [onBound]
  cases hp : w.session.phase with
  | connecting =>
    cases ha : w.session.attempt with
    | none => exact (Move.ignore hq (by simp [Session.verdict, hh, hp, ha])).one
    | some token =>
      have hv : w.session.verdict (.binder sink (.bound p)) = .reach p token := by
        simp [Session.verdict, hh, hp, ha]
      exact (Move.reach _ hq hv).one.trans (moves_requestConnect (w := { w with queue := rest }) hp)
  | suspended =>
    have hv : w.session.verdict (.binder sink (.bound p)) = .restore p := by
      simp [Session.verdict, hh, hp]
    exact (moves_remark (.restored w.nextToken)).trans
      ((Move.restore (w := w.remark (.restored w.nextToken)) _ hq hv).one.trans
        (moves_requestConnect (w := remark (.restored w.nextToken)
          (startAttempt Session.resume { w with queue := rest }).1) rfl))
  | disconnected => exact moves_ignore hq (by simp [Session.verdict, hh, hp]) _
  | connected => exact moves_ignore hq (by simp [Session.verdict, hh, hp]) _

theorem moves_onLost (hq : w.queue = e :: rest) (hv : w.session.verdict e = w.session.loss)
    (remarks) : Moves [] w (onLost { w with queue := rest, remarks }) := by
  simp only [onLost]
  cases hp : w.session.phase with
  | connecting => exact moves_fail hq (by simpa [Session.loss, hp] using hv) _
  | connected =>
    have hs : w.session.verdict e = .suspend := by simpa [Session.loss, hp] using hv
    exact (Move.remark w (.suspended :: remarks)).one.tail
      (.suspend (w := { w with remarks := .suspended :: remarks }) hq hs)
  | disconnected => exact moves_ignore hq (by simpa [Session.loss, hp] using hv) _
  | suspended => exact moves_ignore hq (by simpa [Session.loss, hp] using hv) _

theorem moves_onRefused {hurdle} (hq : w.queue = e :: rest)
    (hv : w.session.verdict e = if w.session.phase = .connecting then .fail else .ignore) :
    Moves [] w (onRefused hurdle { w with queue := rest }) := by
  simp only [onRefused]
  by_cases hp : w.session.phase = .connecting
  · simp only [hp, ne_eq, not_true_eq_false, if_false]
    exact moves_fail hq (by simpa [hp] using hv) _
  · simp only [hp, ne_eq, not_false_eq_true, if_true]
    exact moves_ignore hq (by simpa [hp] using hv) _

theorem moves_replay {s : Session κ} (hl : w.loop ≠ .closed) (hs : w.session = s) :
    ∃ news remarks, w.replay t =
      heard news remarks { w with history := (replayed t s).reverse ++ w.history } ∧
      (∀ e ∈ news, w.Foreign e ∨ ∃ token fault, s.attempt = some token ∧ e = .lost token fault) ∧
      ∀ p call failure, .call p call failure ∈ replayed t s →
        ∀ e ∈ echo call.token failure, e ∈ news := by
  subst hs
  simp only [replay, replayed]
  cases hv : w.session.live? with
  | none => exact ⟨[], w.remarks, w.heard_nil.symm, by simp, by simp⟩
  | some live =>
    obtain ⟨p, token⟩ := live
    obtain ⟨news, remarks, hr, hn, he⟩ := resends_eq t p token w.session.subscriptions.replay hl
    have ha : w.session.attempt = some token := by
      simp only [Session.live?] at hv
      split at hv
      · split at hv <;> simp_all
      · simp at hv
    refine ⟨news, remarks, hr, ?_, ?_⟩
    · intro e h
      rcases hn e h with hf | ⟨fault, hf⟩
      · exact .inl hf
      · exact .inr ⟨token, fault, ha, hf⟩
    · intro q call failure h e h'
      obtain ⟨⟨node, options⟩, hm, hc⟩ := List.mem_map.mp h
      cases hc
      exact he node options hm e h'

theorem moves_onAccepted {sink reply} (hl : w.loop ≠ .closed)
    (hq : w.queue = .provider sink (.accepted reply) :: rest)
    (hc : w.session.isCurrent sink.token) :
    Moves [] w (onAccepted t sink reply { w with queue := rest }) := by
  simp only [onAccepted]
  by_cases hp : w.session.phase = .connecting
  · simp only [hp, ne_eq, not_true_eq_false, if_false]
    cases hm : SessionToken.make reply.sessionToken with
    | error fault => exact moves_fail hq (by simp [Session.verdict, hp, hc, hm]) _
    | ok token =>
      by_cases hr : reply.root = ""
      · simp only [hr, if_true]
        exact moves_fail hq (by simp [Session.verdict, hp, hc, hm, hr]) _
      · simp only [hr, if_false]
        have hv : w.session.verdict (.provider sink (.accepted reply)) =
            .accept sink reply token := by
          simp [Session.verdict, hp, hc, hm, hr]
        have ha : w.session.attempt = some sink.token := by simpa [Session.isCurrent] using hc
        obtain ⟨news, remarks, hy, hn, he⟩ := moves_replay (t := t)
          (w := remark (.connected (w.session.complete reply.root token reply.extras).root)
            (act (.accepted sink reply)
              { w with
                queue := rest
                session := w.session.complete reply.root token reply.extras })) hl rfl
        have hn' : ∀ x ∈ news, w.Foreign x ∨ ∃ fault, x = .lost sink.token fault := by
          intro x hx
          rcases hn x hx with h | ⟨other, fault, h, rfl⟩
          · exact .inl h
          · exact .inr ⟨fault, by rw [Option.some.inj (ha.symm.trans h)]⟩
        rw [hy]
        exact (Move.accept t hq hv hn' he).one.tail (.remark _ remarks)
  · simp only [hp, ne_eq, not_false_eq_true, if_true]
    exact moves_ignore hq (by simp [Session.verdict, hp]) _

theorem moves_onChildren {sink batch}
    (hq : w.queue = .provider sink (.children batch) :: rest) :
    Moves [] w (onChildren batch { w with queue := rest }) := by
  have hv : w.session.verdict (.provider sink (.children batch)) = .ignore := rfl
  simp only [onChildren]
  split
  · exact (Move.ignore hq hv).one.tail (.report _ trivial)
  · exact moves_ignore hq hv _

theorem moves_ifCurrent {token what} (go : World κ → World κ) (hq : w.queue = e :: rest)
    (hgo : w.session.isCurrent token → Moves [] w (go { w with queue := rest }))
    (hv : ¬ w.session.isCurrent token → w.session.verdict e = .ignore) :
    Moves [] w (ifCurrent token what go { w with queue := rest }) := by
  simp only [ifCurrent]
  by_cases hc : w.session.isCurrent token
  · simp only [hc, if_true]
    exact hgo hc
  · simp only [hc, Bool.false_eq_true, if_false]
    split
    · exact (Move.ignore hq (hv hc)).one
    · exact moves_ignore hq (hv hc) _

theorem moves_ifHeld {token what ds} (go : World κ → World κ) (hq : w.queue = e :: rest)
    (hgo : w.session.holds token → Moves ds w (go { w with queue := rest }))
    (hv : ¬ w.session.holds token → w.session.verdict e = .ignore)
    (hd : ¬ w.session.holds token → ds = []) :
    Moves ds w (ifHeld token what go { w with queue := rest }) := by
  simp only [ifHeld]
  by_cases hh : w.session.holds token
  · simp only [hh, if_true]
    exact hgo hh
  · simp only [hh, Bool.false_eq_true, if_false, hd hh]
    exact moves_ignore hq (hv hh) _

/-- Whether an event brings back the binding of a suspended session. -/
def restores (s : Session κ) : Event κ → Bool
  | .binder sink (.bound _) => s.holds sink && s.phase = .suspended
  | _ => false

theorem moves_handle (hl : w.loop ≠ .closed) (hq : w.queue = e :: rest) :
    Moves (if restores w.session e then [.start] else []) w
      (handle t { w with queue := rest } e) := by
  cases e with
  | bindRefused token =>
    exact moves_ifCurrent _ hq (fun hc => moves_onRefused hq (by simp [Session.verdict, hc]))
      (fun hc => by simp [Session.verdict, hc])
  | binder sink note =>
    cases note with
    | bound p =>
      refine moves_ifHeld _ hq (fun hh => ?_) (fun hh => by simp [Session.verdict, hh])
        (fun hh => by simp [restores, hh])
      simpa [restores, hh] using moves_onBound hq hh
    | unbound =>
      exact moves_ifHeld _ hq (fun hh => moves_onLost hq (by simp [Session.verdict, hh]) _)
        (fun hh => by simp [Session.verdict, hh]) (fun _ => rfl)
  | provider sink note =>
    cases note with
    | accepted reply =>
      exact moves_ifCurrent _ hq (moves_onAccepted hl hq) (fun hc => by simp [Session.verdict, hc])
    | refused =>
      exact moves_ifCurrent _ hq (fun hc => moves_onRefused hq (by simp [Session.verdict, hc]))
        (fun hc => by simp [Session.verdict, hc])
    | children batch => exact moves_ifCurrent _ hq (fun _ => moves_onChildren hq) (fun _ => rfl)
  | lost token fault =>
    exact moves_ifCurrent (fun w => (w.remark (.channelLost token fault)).onLost) hq
      (fun hc => moves_onLost hq (by simp [Session.verdict, hc]) _)
      (fun hc => by simp [Session.verdict, hc])
  | item request mediaId item callback =>
    exact (Move.ignore hq rfl).one.tail (.report _ trivial)
  | barrier => exact (Move.ignore hq rfl).one

/-! Answers. -/

theorem moves_answer (result : Except RemoteFault (Option Item)) (index : Nat) :
    Moves [] w (w.answer result index) := by
  simp only [answer]
  cases w.lookups[index]? with
  | none => exact .refl w
  | some l =>
    have hm : ∀ remarks found, Moves [] w
        (if w.loop = .closed then
          act (.lookup l.request l.provider l.mediaId result)
            { w with lookups := w.lookups.eraseIdx index, remarks }
        else
          act (.lookup l.request l.provider l.mediaId result)
            { w with
              lookups := w.lookups.eraseIdx index
              queue := w.queue ++ [.item l.request l.mediaId found l.callback]
              remarks }) := by
      intro remarks found
      have ha := (Move.aside w (w.lookups.eraseIdx index) w.requests remarks).one.tail
        (.report _ (a := .lookup l.request l.provider l.mediaId result) trivial)
      have hh : ∀ e ∈ [Event.item l.request l.mediaId found l.callback], Foreign
          (act (.lookup l.request l.provider l.mediaId result)
            { w with lookups := w.lookups.eraseIdx index, remarks }) e := by
        simp [Foreign]
      split
      · exact ha
      · exact ha.tail (.hear hh)
    cases result with
    | ok item => exact hm w.remarks item
    | error fault => exact hm (.lookupFailed l.mediaId fault :: w.remarks) none

theorem answer_eq (result : Except RemoteFault (Option Item)) (index : Nat) (w : World κ) :
    ∃ queue remarks, w.answer result index =
      { w with
        queue
        remarks
        lookups := w.lookups.eraseIdx index
        history := (w.lookups[index]?.map fun l =>
          .lookup l.request l.provider l.mediaId result).toList ++ w.history } := by
  simp only [answer]
  cases hl : w.lookups[index]? with
  | none =>
    have he : w.lookups.eraseIdx index = w.lookups :=
      List.eraseIdx_of_length_le (List.getElem?_eq_none_iff.mp hl)
    exact ⟨w.queue, w.remarks, by rw [he]; rfl⟩
  | some l =>
    cases result <;> by_cases hc : w.loop = .closed <;>
      simp only [act, remark, hc, if_true, if_false] <;> exact ⟨_, _, rfl⟩

end MediaLink.World
