import MediaLink.Proofs.Session.Runs

/-! In every phase of a session exactly the fields are set that the phase needs. -/
namespace MediaLink

/-- The fields that each phase sets and clears. -/
structure Session.Consistent {κ : Type} (s : Session κ) : Prop where
  disconnected : s.phase = .disconnected → s.attempt = none ∧ s.binding = none ∧
    s.provider = none ∧ s.root = none ∧ s.sessionToken = none ∧ s.extras = none
  connecting : s.phase = .connecting → s.attempt.isSome ∧ s.binding.isSome
  connected : s.phase = .connected → s.attempt.isSome ∧ s.binding.isSome ∧ s.provider.isSome ∧
    (∃ root, s.root = some root ∧ root ≠ "") ∧ s.sessionToken.isSome
  suspended : s.phase = .suspended → s.binding.isSome ∧ s.attempt = none ∧ s.provider = none
  served : s.provider.isSome → s.attempt.isSome

namespace Session

variable {κ : Type} {s : Session κ}

theorem consistent_reset (s : Session κ) : s.reset.Consistent := by
  constructor <;> simp [reset]

theorem consistent_begin (h : s.Consistent) (hp : s.phase = .disconnected) (token : Token) :
    (s.begin token).Consistent := by
  obtain ⟨-, -, hs, -⟩ := h.disconnected hp
  constructor <;> simp [begin, hs]

theorem consistent_resume (h : s.Consistent) (hp : s.phase = .suspended) (token : Token) :
    (s.resume token).Consistent := by
  obtain ⟨hb, -, hs⟩ := h.suspended hp
  constructor <;> simp [resume, hb, hs]

theorem consistent_asked (h : s.Consistent) (hp : s.phase = .connecting) (p : Provider) :
    Consistent { s with provider := some p } := by
  obtain ⟨ha, hb⟩ := h.connecting hp
  constructor <;> simp [hp, ha, hb]

theorem consistent_complete (h : s.Consistent) (hp : s.phase = .connecting)
    (hs : s.provider.isSome) {root : String} (hr : root ≠ "") (token : SessionToken)
    (extras : Option Payload) : (s.complete root token extras).Consistent := by
  obtain ⟨ha, hb⟩ := h.connecting hp
  constructor <;> simp [complete, ha, hb, hs, hr]

theorem consistent_suspend (h : s.Consistent) (hp : s.phase = .connected) :
    s.suspend.Consistent := by
  obtain ⟨-, hb, -⟩ := h.connected hp
  constructor <;> simp [suspend, hb]

theorem consistent_subscriptions (h : s.Consistent) (subscriptions : Registry κ) :
    Consistent { s with subscriptions } :=
  ⟨h.disconnected, h.connecting, h.connected, h.suspended, h.served⟩

theorem live?_eq_some {p : Provider} {token : Token} : s.live? = some (p, token) ↔
    s.phase = .connected ∧ s.provider = some p ∧ s.attempt = some token := by
  simp only [live?]
  by_cases hp : s.phase = .connected
  · cases s.provider <;> cases s.attempt <;> simp [hp]
  · simp [hp]

/-- A session that is connected and consistent has somebody to talk to. -/
theorem Consistent.live (h : s.Consistent) (hp : s.phase = .connected) :
    ∃ p token, s.live? = some (p, token) := by
  obtain ⟨ha, -, hs, -⟩ := h.connected hp
  obtain ⟨token, ha⟩ := Option.isSome_iff_exists.mp ha
  obtain ⟨p, hs⟩ := Option.isSome_iff_exists.mp hs
  exact ⟨p, token, by simp [live?, hp, ha, hs]⟩

end Session

namespace World

variable {κ : Type} {ds : List Deed} {u v w : World κ}

/-- What keeps a session consistent: a provider has been asked before it can answer. Whoever holds
a sink of the attempt that is alive was handed it by that attempt. -/
structure Sound (w : World κ) : Prop where
  consistent : w.session.Consistent
  attempt_made : ∀ token, w.session.attempt = some token → token.serial ≤ w.tokens
  sink_made : ∀ sink ∈ w.providerSinks, sink.token.serial ≤ w.tokens
  asked : ∀ sink ∈ w.providerSinks, w.session.attempt = some sink.token →
    w.session.provider.isSome
  queued : ∀ sink note, .provider sink note ∈ w.queue → sink ∈ w.providerSinks

theorem sound_create (setting : Setting) : (create (κ := κ) setting).Sound := by
  constructor <;> simp [create, remark]
  constructor <;> simp

/-- A sink never belongs to an attempt that is yet to be made. -/
theorem Sound.fresh (h : w.Sound) {sink : ProviderSink} (hs : sink ∈ w.providerSinks) :
    w.nextToken ≠ sink.token := by
  intro ht
  have hm := h.sink_made sink hs
  rw [← ht, nextToken] at hm
  simp only at hm
  omega

/-- What stays if the session is cleared. -/
theorem Sound.reset (h : w.Sound) {queue : List (Event κ)} {history : List (Act κ)}
    (hq : ∀ e ∈ queue, e ∈ w.queue) :
    Sound { w with session := w.session.reset, queue, history } :=
  ⟨w.session.consistent_reset, by simp [Session.reset], h.sink_made, by simp [Session.reset],
    fun sink note hm => h.queued sink note (hq _ hm)⟩

theorem sound_tell (h : w.Sound) (call : Token → Call) (failure : Option RemoteFault)
    (subscriptions : Registry κ) :
    ((w.withSubscriptions subscriptions).tell call failure).Sound := by
  refine ⟨Session.consistent_subscriptions h.consistent _, h.attempt_made, h.sink_made, h.asked, ?_⟩
  intro sink note hm
  rcases List.mem_append.mp hm with hm | hm
  · exact h.queued sink note hm
  · simp only [complaint] at hm
    split at hm
    · obtain ⟨_, -, -, he⟩ := mem_echo hm
      cases he
    · simp at hm

theorem sound_ask (h : w.Sound) {token : Token} (p : Provider) (failure : Option RemoteFault)
    (hp : w.session.phase = .connecting) (ha : w.session.attempt = some token) :
    (w.ask p token failure).Sound := by
  refine ⟨Session.consistent_asked h.consistent hp p, h.attempt_made, ?_, by simp [ask], ?_⟩
  · intro sink hs
    rcases List.mem_append.mp hs with hs | hs
    · exact h.sink_made sink hs
    · rw [List.mem_singleton.mp hs]
      exact h.attempt_made token ha
  · intro sink note hm
    exact List.mem_append_left _ (h.queued sink note hm)

theorem Sound.tail {e : Event κ} {rest : List (Event κ)} (h : w.Sound)
    (hq : w.queue = e :: rest) : Sound { w with queue := rest } :=
  ⟨h.consistent, h.attempt_made, h.sink_made, h.asked, fun sink note hm =>
    h.queued sink note (by rw [hq]; exact List.mem_cons_of_mem _ hm)⟩

theorem sound_resume (h : w.Sound) (hp : w.session.phase = .suspended) :
    (w.startAttempt Session.resume).1.Sound := by
  refine ⟨Session.consistent_resume h.consistent hp _, ?_, ?_, ?_, h.queued⟩
  · intro token ht
    cases ht
    exact Nat.le_refl _
  · intro sink hs
    exact Nat.le_succ_of_le (h.sink_made sink hs)
  · intro sink hs ht
    exact absurd (Option.some.inj ht) (h.fresh hs)

theorem sound_move (hm : Move ds u v) (h : u.Sound) : v.Sound := by
  cases hm with
  | aside => exact ⟨h.consistent, h.attempt_made, h.sink_made, h.asked, h.queued⟩
  | hear hf =>
    refine ⟨h.consistent, h.attempt_made, h.sink_made, h.asked, fun sink note hm => ?_⟩
    rcases List.mem_append.mp hm with hm | hm
    · exact h.queued sink note hm
    · exact hf _ hm
  | report => exact ⟨h.consistent, h.attempt_made, h.sink_made, h.asked, h.queued⟩
  | close hp => exact ⟨h.consistent, h.attempt_made, h.sink_made, h.asked, by simp⟩
  | insert node options callback failure => exact sound_tell h ..
  | erase failure hf => exact sound_tell h ..
  | @begin _ news granted hp hf =>
    refine ⟨Session.consistent_begin h.consistent hp _, ?_, ?_, ?_, ?_⟩
    · intro token ht
      cases ht
      exact Nat.le_refl _
    · intro sink hs
      exact Nat.le_succ_of_le (h.sink_made sink hs)
    · intro sink hs ht
      -- No sink of the new attempt has been handed out yet.
      exact absurd (Option.some.inj ht) (h.fresh hs)
    · intro sink note hm
      simp only [List.mem_append] at hm
      rcases hm with (hm | hm) | hm
      · exact h.queued sink note hm
      · exact hf _ hm
      · split at hm <;> simp at hm
  | letGo hp =>
    rw [release_eq]
    exact h.reset fun _ hm => hm
  | leave failure => exact h.reset fun _ hm => hm
  | abort hp =>
    rw [failAttempt_eq]
    exact h.reset fun _ hm => hm
  | ignore hq hv => exact h.tail hq
  | fail hq hv =>
    rw [failAttempt_eq]
    exact (h.tail hq).reset fun _ hm => hm
  | suspend hq hv =>
    have hs := h.tail hq
    exact ⟨Session.consistent_suspend h.consistent (Session.verdict_suspend hv),
      by simp [notify, act, Session.suspend], hs.sink_made,
      by simp [notify, act, Session.suspend], hs.queued⟩
  | reach failure hq hv =>
    obtain ⟨hp, ha⟩ := Session.verdict_reach hv
    exact sound_ask (h.tail hq) _ failure hp ha
  | restore failure hq hv =>
    obtain ⟨hp, -⟩ := Session.verdict_restore hv
    exact sound_ask (sound_resume (h.tail hq) hp) _ failure rfl rfl
  | @accept _ e rest sink reply token news t hq hv hn he =>
    obtain ⟨rfl, hp, ha, hr⟩ := Session.verdict_accept hv
    -- The reply came through a sink of this attempt, so a provider has been asked.
    have hs := h.asked sink (h.queued sink _ (by rw [hq]; exact List.mem_cons_self)) ha
    refine ⟨Session.consistent_complete h.consistent hp hs hr token reply.extras,
      h.attempt_made, h.sink_made, h.asked, fun sink note hm => ?_⟩
    rcases List.mem_append.mp hm with hm | hm
    · exact (h.tail hq).queued sink note hm
    · rcases hn _ hm with hf | ⟨fault, hf⟩
      · exact hf
      · cases hf

theorem sound_frame (loop : Loop) (handles : Nat) (h : w.Sound) :
    Sound { w with loop, handles } :=
  ⟨h.consistent, h.attempt_made, h.sink_made, h.asked, h.queued⟩

theorem sound_reachable (setting : Setting) (steps : List (Step κ)) :
    ((create setting).run steps).Sound :=
  run_keep (sound_create setting) sound_frame sound_move steps

/-- What every move keeps that starts in a sound world holds in every run. -/
theorem run_keep_sound {P : World κ → Prop} {setting : Setting} (h : P (create setting))
    (hf : ∀ {w : World κ} (loop handles), P w → P { w with loop, handles })
    (hm : ∀ {ds} {u v : World κ}, Move ds u v → u.Sound → P u → P v) (steps : List (Step κ)) :
    P ((create setting).run steps) := by
  have hk : ((create setting).run steps).Sound ∧ P ((create setting).run steps) := by
    apply run_keep (P := fun w => w.Sound ∧ P w)
    · exact ⟨sound_create setting, h⟩
    · intro w loop handles hw
      exact ⟨sound_frame loop handles hw.1, hf loop handles hw.2⟩
    · intro ds u v hd hu
      exact ⟨sound_move hd hu.1, hm hd hu.1 hu.2⟩
  exact hk.2

/-- No field is missing where it is read: what a session does without one never happens. -/
structure Equipped (w : World κ) : Prop where
  bound : w.session.phase = .connecting → ∃ token, w.session.attempt = some token ∧
    ∀ v : World κ, v.session = w.session → ∀ t p, v.onBound t p = v.requestConnect t p token
  replayed : ∀ sink reply, .provider sink (.accepted reply) ∈ w.queue →
    w.session.phase = .connecting → w.session.isCurrent sink.token →
    ∀ root token extras, ∃ p, ∀ v : World κ, v.session = w.session.complete root token extras →
      ∀ t, v.replay t = v.session.subscriptions.replay.foldl (resend t p sink.token) v
  live : w.session.phase = .connected → ∃ p token, w.session.live? = some (p, token) ∧
    (∀ t node options callback, node ≠ "" → ∃ v, w.subscribe t node options callback = .ok v ∧
      .call p (.add token node options) (t.call p (.add token node options)).failure ∈ v.history) ∧
    (∀ t node options key callback, node ≠ "" →
      w.session.subscriptions.find? node options = some (key, callback) →
      ∃ v, w.unsubscribe t node options = .ok v ∧
        .call p (.remove token node key.options)
          (t.call p (.remove token node key.options)).failure ∈ v.history) ∧
    ∀ mediaId callback, mediaId ≠ "" → ∃ v, w.getItem mediaId callback = .ok v ∧
      ⟨w.requests + 1, p, mediaId, callback⟩ ∈ v.lookups
  root : w.session.phase = .connected →
    ∃ root, root ≠ "" ∧ w.session.root = some root ∧ w.root = .ok root
  sessionToken : w.session.phase = .connected →
    ∃ token, w.session.sessionToken = some token ∧ w.sessionToken = .ok token

theorem Sound.bound (h : w.Sound) (hp : w.session.phase = .connecting) :
    ∃ token, w.session.attempt = some token ∧
      ∀ v : World κ, v.session = w.session → ∀ t p, v.onBound t p = v.requestConnect t p token := by
  obtain ⟨token, ha⟩ := Option.isSome_iff_exists.mp (h.consistent.connecting hp).1
  exact ⟨token, ha, fun v hv t p => by simp [onBound, hv, hp, ha]⟩

theorem Sound.replayed (h : w.Sound) {sink : ProviderSink} {reply : Reply}
    (hq : .provider sink (.accepted reply) ∈ w.queue) (hc : w.session.isCurrent sink.token)
    (root : String) (token : SessionToken) (extras : Option Payload) :
    ∃ p, ∀ v : World κ, v.session = w.session.complete root token extras →
      ∀ t, v.replay t = v.session.subscriptions.replay.foldl (resend t p sink.token) v := by
  have ha : w.session.attempt = some sink.token := by simpa [Session.isCurrent] using hc
  obtain ⟨p, hs⟩ := Option.isSome_iff_exists.mp (h.asked sink (h.queued sink _ hq) ha)
  refine ⟨p, fun v hv t => ?_⟩
  have hl : v.session.live? = some (p, sink.token) := by
    simp [hv, Session.live?, Session.complete, ha, hs]
  simp [replay, hl]

theorem subscribe_live {p : Provider} {token : Token} (hl : w.session.live? = some (p, token))
    (t : Transport) {node : String} (hn : node ≠ "") (options : Option Payload) (callback : κ) :
    ∃ v, w.subscribe t node options callback = .ok v ∧
      .call p (.add token node options) (t.call p (.add token node options)).failure ∈
        v.history := by
  have hs : Session.live? { w.session with
      subscriptions := w.session.subscriptions.insert node ⟨options⟩ callback } =
    some (p, token) := hl
  simp only [subscribe, hn, if_false, remark, hs]
  exact ⟨_, rfl, by rw [send_history]; exact List.mem_cons_self⟩

theorem unsubscribe_live {p : Provider} {token : Token}
    (hl : w.session.live? = some (p, token)) (t : Transport) {node : String} (hn : node ≠ "")
    {options : Option Payload} {key : Key} {callback : κ}
    (hf : w.session.subscriptions.find? node options = some (key, callback)) :
    ∃ v, w.unsubscribe t node options = .ok v ∧
      .call p (.remove token node key.options)
        (t.call p (.remove token node key.options)).failure ∈ v.history := by
  have hs : Session.live? { w.session with
      subscriptions := w.session.subscriptions.erase node options } = some (p, token) := hl
  simp only [unsubscribe, hn, if_false, hf, remark, hs]
  exact ⟨_, rfl, by rw [send_history]; exact List.mem_cons_self⟩

theorem getItem_live {p : Provider} {token : Token} (hl : w.session.live? = some (p, token))
    {mediaId : String} (hm : mediaId ≠ "") (callback : κ) :
    ∃ v, w.getItem mediaId callback = .ok v ∧
      ⟨w.requests + 1, p, mediaId, callback⟩ ∈ v.lookups := by
  simp only [getItem, hm, if_false, hl]
  exact ⟨_, rfl, List.mem_append_right _ List.mem_cons_self⟩

theorem Sound.equipped (h : w.Sound) : w.Equipped where
  bound := h.bound
  replayed _ _ hq _ hc := h.replayed hq hc
  live hp := by
    obtain ⟨p, token, hl⟩ := h.consistent.live hp
    exact ⟨p, token, hl, fun t _ options callback hn => subscribe_live hl t hn options callback,
      fun t _ _ _ _ hn hf => unsubscribe_live hl t hn hf,
      fun _ callback hm => getItem_live hl hm callback⟩
  root hp := by
    obtain ⟨-, -, -, ⟨root, hr, hn⟩, -⟩ := h.consistent.connected hp
    exact ⟨root, hn, hr, by simp [World.root, Session.whenConnected, hp, hr]⟩
  sessionToken hp := by
    obtain ⟨-, -, -, -, ht⟩ := h.consistent.connected hp
    obtain ⟨token, ht⟩ := Option.isSome_iff_exists.mp ht
    exact ⟨token, ht, by simp [World.sessionToken, Session.whenConnected, hp, ht, Except.bind]⟩

/-- In every run the session is consistent, and finds every field that it reads. -/
theorem consistent_equipped_reachable (setting : Setting) (steps : List (Step κ)) :
    ((create setting).run steps).session.Consistent ∧ ((create setting).run steps).Equipped := by
  have h := sound_reachable setting steps
  exact ⟨h.consistent, h.equipped⟩

end World
end MediaLink
