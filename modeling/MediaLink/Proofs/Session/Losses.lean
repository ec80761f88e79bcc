import MediaLink.Proofs.Session.Mirror
import MediaLink.Proofs.Session.Rejections

/-! A channel that is found gone is not forgotten while the session is connected over it, and a
rejected call does no harm. -/
namespace MediaLink

namespace World

variable {κ : Type} {ds : List Deed} {u v w : World κ} {e : Event κ} {rest : List (Event κ)}

/-- While connected, whatever found the channel gone still waits in the queue. What waits there
about the attempt that is alive finds the session connected. -/
structure Noted (w : World κ) : Prop where
  made : ∀ token fault, .lost token fault ∈ w.queue → token.serial ≤ w.tokens
  live : ∀ token fault, .lost token fault ∈ w.queue → w.session.attempt = some token →
    w.session.phase = .connected
  waiting : w.session.phase = .connected → ∀ p call fault, w.session.attempt = some call.token →
    call.IsEdit → .call p call (some fault) ∈ w.history → fault.losesConnection →
    .lost call.token fault ∈ w.queue

theorem noted_create (setting : Setting) : (create (κ := κ) setting).Noted := by
  constructor <;> simp [create, remark]

theorem noted_frame (loop : Loop) (handles : Nat) (h : w.Noted) : Noted { w with loop, handles } :=
  ⟨h.made, h.live, h.waiting⟩

/-- No call about a subscription was made, and the attempt is as it was. -/
theorem Noted.same (h : u.Noted) (hp : v.session.phase = u.session.phase)
    (ha : v.session.attempt = u.session.attempt) (ht : v.tokens = u.tokens)
    (hq : ∀ token fault, .lost token fault ∈ v.queue → .lost token fault ∈ u.queue)
    (hk : ∀ token fault, u.session.phase = .connected → u.session.attempt = some token →
      .lost token fault ∈ u.queue → .lost token fault ∈ v.queue)
    (hh : ∀ p call failure, call.IsEdit → .call p call failure ∈ v.history →
      .call p call failure ∈ u.history) : v.Noted := by
  refine ⟨fun token fault hm => ?_, fun token fault hm hv => ?_,
    fun hv p call fault hc he hm hf => ?_⟩
  · rw [ht]
    exact h.made token fault (hq token fault hm)
  · rw [hp]
    exact h.live token fault (hq token fault hm) (ha ▸ hv)
  · rw [hp] at hv
    rw [ha] at hc
    exact hk _ fault hv hc (h.waiting hv p call fault hc he (hh p call _ he hm) hf)

/-- No attempt is alive. -/
theorem Noted.ended (h : u.Noted) (hp : v.session.phase ≠ .connected)
    (ha : v.session.attempt = none) (ht : v.tokens = u.tokens)
    (hq : ∀ token fault, .lost token fault ∈ v.queue → .lost token fault ∈ u.queue) :
    v.Noted := by
  refine ⟨fun token fault hm => ?_, fun token fault _ hv => ?_, fun hv => absurd hv hp⟩
  · rw [ht]
    exact h.made token fault (hq token fault hm)
  · cases ha.symm.trans hv

/-- A new attempt has begun, of which nothing can be known yet. -/
theorem Noted.begun (h : u.Noted) (hp : v.session.phase ≠ .connected)
    (ha : v.session.attempt = some u.nextToken) (ht : v.tokens = u.tokens + 1)
    (hq : ∀ token fault, .lost token fault ∈ v.queue → .lost token fault ∈ u.queue) :
    v.Noted := by
  refine ⟨fun token fault hm => ?_, fun token fault hm hv => ?_, fun hv => absurd hv hp⟩
  · rw [ht]
    exact Nat.le_succ_of_le (h.made token fault (hq token fault hm))
  · have hs := h.made token fault (hq token fault hm)
    rw [← Option.some.inj (ha.symm.trans hv), nextToken] at hs
    simp only at hs
    omega

theorem Noted.failAttempt (h : w.Noted) : w.failAttempt.Noted := by
  rw [failAttempt_eq]
  exact h.ended (by simp [Session.reset]) rfl rfl fun _ _ => id

/-- The outside never tells of a lost channel by itself. -/
theorem lost_of_heard {news : List (Event κ)} {token : Token} {fault : RemoteFault}
    (hn : ∀ e ∈ news, w.Foreign e) (hm : .lost token fault ∈ w.queue ++ news) :
    .lost token fault ∈ w.queue := by
  rcases List.mem_append.mp hm with hm | hm
  · exact hm
  · exact (hn _ hm).elim

theorem mem_complaint {failure : Option RemoteFault} {s : Session κ} {token : Token}
    {fault : RemoteFault} (h : .lost token fault ∈ complaint failure s) :
    s.phase = .connected ∧ s.attempt = some token := by
  cases hl : s.live? with
  | none => simp [complaint, hl] at h
  | some live =>
    obtain ⟨p, other⟩ := live
    obtain ⟨hp, -, ha⟩ := Session.live?_eq_some.mp hl
    simp only [complaint, hl] at h
    obtain ⟨_, -, -, he⟩ := mem_echo h
    cases he
    exact ⟨hp, ha⟩

/-- A call that has just found the channel gone has said so. -/
theorem complaint_of_telling {call : Token → Call} (hc : ∀ token, (call token).token = token)
    {failure : Option RemoteFault} {s : Session κ} {p : Provider} {c : Call} {fault : RemoteFault}
    (h : .call p c (some fault) ∈ telling call failure s) (hf : fault.losesConnection) :
    .lost c.token fault ∈ complaint failure s := by
  cases hl : s.live? with
  | none => simp [telling, hl] at h
  | some live =>
    simp only [telling, hl, List.mem_singleton, Act.call.injEq] at h
    obtain ⟨-, rfl, rfl⟩ := h
    simp [complaint, hl, echo, hf, hc]

theorem noted_tell (hs : w.Sound) (h : w.Noted) {call : Token → Call}
    (hc : ∀ token, (call token).token = token) (failure : Option RemoteFault)
    (subscriptions : Registry κ) :
    ((w.withSubscriptions subscriptions).tell call failure).Noted := by
  refine ⟨fun token fault hm => ?_, fun token fault hm ha => ?_,
    fun hp p c fault ha he hm hf => ?_⟩
  · rcases List.mem_append.mp hm with hm | hm
    · exact h.made token fault hm
    · exact hs.attempt_made token (mem_complaint (s := w.session) hm).2
  · rcases List.mem_append.mp hm with hm | hm
    · exact h.live token fault hm ha
    · exact (mem_complaint (s := w.session) hm).1
  · rcases List.mem_append.mp hm with hm | hm
    · exact List.mem_append_right _ (complaint_of_telling (s := w.session) hc hm hf)
    · exact List.mem_append_left _ (h.waiting hp p c fault ha he hm hf)

/-- What is taken from the queue and ignored is not about the connection that is alive. -/
theorem lost_of_ignored (hq : w.queue = e :: rest) (hv : w.session.verdict e = .ignore)
    {token : Token} {fault : RemoteFault} (hp : w.session.phase = .connected)
    (ha : w.session.attempt = some token) (hm : .lost token fault ∈ w.queue) :
    .lost token fault ∈ rest := by
  rw [hq] at hm
  rcases List.mem_cons.mp hm with rfl | hm
  · simp [Session.verdict, Session.isCurrent, ha, Session.loss, hp] at hv
  · exact hm

theorem edit_of_mem {p : Provider} {call : Call} {failure : Option RemoteFault}
    (hc : call.IsEdit) (h : .call p call failure ∈ w.history) :
    (p, call) ∈ w.edits call.token := by
  refine List.mem_reverse.mpr (List.mem_filterMap.mpr ⟨_, h, ?_⟩)
  cases call <;> simp_all [Act.edit?, Call.IsEdit, Call.token]

/-- The provider of a session that has just been accepted hears of every subscription, and each
call that finds the channel gone is noted. -/
theorem noted_accept (hs : u.Sound) (hm : u.Mirrored) (h : u.Noted) {sink : ProviderSink}
    {s : Session κ} {t : Transport} {news : List (Event κ)} {notice before : Act κ}
    (hu : u.session.phase = .connecting) (ha : u.session.attempt = some sink.token)
    (hp : v.session.phase = .connected) (hv : v.session.attempt = some sink.token)
    (ht : v.tokens = u.tokens) (hq : v.queue = rest ++ news)
    (hr : ∀ x ∈ rest, x ∈ u.queue)
    (hh : v.history = notice :: ((replayed t s).reverse ++ before :: u.history))
    (hn : ∀ x ∈ news, u.Foreign x ∨ ∃ fault, x = .lost sink.token fault)
    (he : ∀ p call failure, .call p call failure ∈ replayed t s →
      ∀ x ∈ echo call.token failure, x ∈ news)
    (hnotice : ∀ p call failure, notice ≠ .call p call failure)
    (hbefore : ∀ p call failure, before ≠ .call p call failure) : v.Noted := by
  refine ⟨fun token fault hl => ?_, fun token fault _ _ => hp, fun _ p call fault hc hd hl hf => ?_⟩
  · rw [ht]
    rw [hq] at hl
    rcases List.mem_append.mp hl with hl | hl
    · exact h.made token fault (hr _ hl)
    · rcases hn _ hl with hx | ⟨other, hx⟩
      · exact hx.elim
      · cases hx
        exact hs.attempt_made _ ha
  · rw [hq]
    refine List.mem_append_right _ ?_
    rw [hh] at hl
    simp only [List.mem_cons, List.mem_append, List.mem_reverse] at hl
    rcases hl with hl | hl | hl | hl
    · exact absurd hl.symm (hnotice p call _)
    · exact he p call _ hl _ (by simp [echo, hf])
    · exact absurd hl.symm (hbefore p call _)
    · -- Before it was accepted the attempt was not about subscriptions yet.
      have hnone : u.edits call.token = [] :=
        hm.connecting hu _ (ha.trans (hv.symm.trans hc))
      have hmem := edit_of_mem hd hl
      rw [hnone] at hmem
      cases hmem

theorem noted_move (hm : Move ds u v) (hs : u.Sound) (hr : u.Mirrored) (h : u.Noted) :
    v.Noted := by
  cases hm with
  | aside => exact h.same rfl rfl rfl (fun _ _ => id) (fun _ _ _ _ => id) fun _ _ _ _ => id
  | hear hf =>
    exact h.same rfl rfl rfl (fun _ _ => lost_of_heard hf)
      (fun _ _ _ _ => List.mem_append_left _) fun _ _ _ _ => id
  | report _ ha =>
    refine h.same rfl rfl rfl (fun _ _ => id) (fun _ _ _ _ => id) fun p call failure _ hc => ?_
    rcases List.mem_cons.mp hc with rfl | hc
    · exact ha.elim
    · exact hc
  | close hp =>
    refine ⟨by simp, by simp, fun hc => ?_⟩
    cases hp.symm.trans hc
  | insert => exact noted_tell hs h (fun _ => rfl) _ _
  | erase => exact noted_tell hs h (fun _ => rfl) _ _
  | begin granted hp hf =>
    refine h.begun (by simp [Session.begin]) rfl rfl fun token fault hl => ?_
    simp only [List.mem_append] at hl
    rcases hl with (hl | hl) | hl
    · exact hl
    · exact (hf _ hl).elim
    · split at hl <;> simp at hl
  | letGo hp =>
    rw [release_eq]
    exact h.ended (by simp [Session.reset]) rfl rfl fun _ _ => id
  | leave => exact h.ended (by simp [Session.reset]) rfl rfl fun _ _ => id
  | abort => exact h.failAttempt
  | @fail _ e rest hq =>
    rw [failAttempt_eq]
    refine h.ended (by simp [Session.reset]) rfl rfl fun _ _ hl => ?_
    rw [hq]
    exact List.mem_cons_of_mem _ hl
  | ignore hq hv =>
    refine h.same rfl rfl rfl (fun _ _ hl => ?_) (fun _ _ hp ha => lost_of_ignored hq hv hp ha)
      fun _ _ _ _ => id
    rw [hq]
    exact List.mem_cons_of_mem _ hl
  | suspend hq =>
    refine h.ended (by simp [notify, act, Session.suspend]) rfl rfl fun _ _ hl => ?_
    rw [hq]
    exact List.mem_cons_of_mem _ hl
  | reach failure hq hv =>
    obtain ⟨hp, -⟩ := Session.verdict_reach hv
    refine h.same rfl rfl rfl (fun _ _ hl => ?_) (fun _ _ hc => ?_) fun p call failure hc hl => ?_
    · rw [hq]
      exact List.mem_cons_of_mem _ hl
    · cases hp.symm.trans hc
    · rcases List.mem_cons.mp hl with hl | hl
      · cases hl
        exact hc.elim
      · exact hl
  | restore failure hq =>
    refine h.begun (by simp [ask, startAttempt, act, Session.resume]) rfl rfl fun _ _ hl => ?_
    rw [hq]
    exact List.mem_cons_of_mem _ hl
  | accept t hq hv hn he =>
    obtain ⟨rfl, hp, ha, -⟩ := Session.verdict_accept hv
    refine noted_accept hs hr h hp ha rfl ha rfl rfl (fun x hx => ?_) rfl hn he (by simp) (by simp)
    rw [hq]
    exact List.mem_cons_of_mem _ hx

theorem noted_reachable (setting : Setting) (steps : List (Step κ)) :
    ((create setting).run steps).Noted := by
  have h : ((create setting).run steps).Mirrored ∧ ((create setting).run steps).Noted := by
    apply run_keep_sound (P := fun w => w.Mirrored ∧ w.Noted)
    · exact ⟨mirrored_create setting, noted_create setting⟩
    · intro w loop handles h
      exact ⟨mirrored_frame loop handles h.1, noted_frame loop handles h.2⟩
    · intro ds u v hm hs h
      exact ⟨mirrored_move hm hs h.1, noted_move hm hs h.1 h.2⟩
  exact h.2

/-- A lost channel that is noted suspends the connection. -/
theorem Noted.turn_lost (h : w.Noted) {token : Token} {fault : RemoteFault}
    (hn : w.next? = some (.lost token fault)) (hc : w.session.isCurrent token) (t : Transport) :
    w.session.phase = .connected ∧ (w.turn t).session = w.session.suspend ∧
      (w.turn t).history = .connection .suspended (some token) :: w.history := by
  obtain ⟨rest, remarks, hq, ht⟩ := turn_next t hn
  have ha : w.session.attempt = some token := by simpa [Session.isCurrent] using hc
  have hp := h.live token fault (by rw [hq]; exact List.mem_cons_self) ha
  rw [ht]
  simp [handle, ifCurrent, hc, onLost, hp, ha, notify, act, remark]

/-- In every run, a call about a subscription that found the channel of a connection gone still
waits in the queue to be heard; so when nothing waits, every such call of this connection was
accepted or rejected. When it is heard while its attempt is alive, the session is connected and
suspends. A rejected call leaves nothing of its own in the queue, and the session and the queue are
as if it had been accepted, at whatever place of a step it was made. -/
theorem losses_noted_reachable (setting : Setting) (steps : List (Step κ)) :
    let w := (create setting).run steps
    (w.session.phase = .connected → ∀ p call fault, w.session.attempt = some call.token →
      call.IsEdit → .call p call (some fault) ∈ w.history → fault.losesConnection →
      .lost call.token fault ∈ w.queue) ∧
    (w.queue = [] → w.session.phase = .connected → ∀ p call failure,
      w.session.attempt = some call.token → call.IsEdit → .call p call failure ∈ w.history →
      failure = none ∨ ∃ message, failure = some (.rejected message)) ∧
    (∀ t token fault, w.next? = some (.lost token fault) → w.session.isCurrent token →
      w.session.phase = .connected ∧ (w.turn t).session = w.session.suspend ∧
        (w.turn t).history = .connection .suspended (some token) :: w.history) ∧
    (∀ t p call message, (t.call p call).failure = some (.rejected message) →
      w.send t p call = remark (.callFailed call (.rejected message))
        (act (.call p call (some (.rejected message))) (w.postAll (t.call p call).posts))) ∧
    ∀ t m (s : Step κ), Transport.Milder t m →
      Unharmed (w.step (s.under t)) (w.step (s.under m)) := by
  intro w
  have h : w.Noted := noted_reachable setting steps
  refine ⟨h.waiting, fun hq hp p call failure ha hc hm => ?_,
    fun t token fault hn hc => h.turn_lost hn hc t, fun t p call message hf => send_rejected hf w,
    fun t m s hm => unharmed_step hm w s⟩
  cases failure with
  | none => exact .inl rfl
  | some fault =>
    cases fault with
    | rejected message => exact .inr ⟨message, rfl⟩
    | transport | disconnected =>
      have hl := h.waiting hp p call _ ha hc hm rfl
      rw [hq] at hl
      cases hl

/-- A prompt transport to a provider that takes no options, and is gone when it is to take none. -/
def flaky : Transport where
  bind := Transport.prompt.bind
  call
    | _, .add _ _ none => ⟨some .disconnected, []⟩
    | _, .add _ _ (some _) => ⟨some (.rejected "full"), []⟩
    | p, call => Transport.prompt.call p call

/-- A provider that rejects one subscription and is gone when it hears of the next. -/
theorem losses_noted_replay :
    let w : World Unit := (create ⟨⟨"package", "class"⟩, "client", none⟩).run [
      .subscribe flaky "leaf" (some .empty) (), .subscribe flaky "node" none (), .connect flaky,
      .turn flaky, .finish flaky, .turn flaky, .finish flaky]
    w.session.phase = .connected ∧ w.session.isCurrent ⟨1⟩ ∧
      .call ⟨0⟩ (.add ⟨1⟩ "leaf" (some .empty)) (some (.rejected "full")) ∈ w.history ∧
      .call ⟨0⟩ (.add ⟨1⟩ "node" none) (some .disconnected) ∈ w.history ∧
      .lost ⟨1⟩ .disconnected ∈ w.queue ∧ w.next? = some (.lost ⟨1⟩ .disconnected) ∧
      (w.turn flaky).session = w.session.suspend := by
  intro w
  have hm : .call ⟨0⟩ (.add ⟨1⟩ "node" none) (some .disconnected) ∈ w.history := .tail _ (.head _)
  have hn : w.next? = some (.lost ⟨1⟩ .disconnected) := rfl
  obtain ⟨hl, -, hs, -⟩ := losses_noted_reachable (κ := Unit)
    ⟨⟨"package", "class"⟩, "client", none⟩ [
      .subscribe flaky "leaf" (some .empty) (), .subscribe flaky "node" none (), .connect flaky,
      .turn flaky, .finish flaky, .turn flaky, .finish flaky]
  exact ⟨rfl, rfl, .tail _ (.tail _ (.head _)), hm,
    hl rfl ⟨0⟩ (.add ⟨1⟩ "node" none) .disconnected rfl trivial hm rfl, hn,
    (hs flaky ⟨1⟩ .disconnected hn rfl).2.1⟩

end World
end MediaLink
