import MediaLink.Proofs.Session.Mirror
import MediaLink.Proofs.Session.Outcomes
import MediaLink.Proofs.Session.Staleness

/-! Who is asked to accept an attempt, who accepts it, and whom the session talks to then. A binder
may report several providers during one attempt; the session talks to the last of them. -/
namespace MediaLink

namespace Act

variable {κ : Type}

/-- The provider, if it is asked to accept the attempt. -/
def asked? (token : Token) : Act κ → Option Provider
  | .call p (.connect other) _ => if other = token then some p else none
  | _ => none

/-- The sink of a reply that was accepted for the attempt. -/
def acceptance? (token : Token) : Act κ → Option ProviderSink
  | .accepted sink _ => if sink.token = token then some sink else none
  | _ => none

/-- An act that asks a provider to accept an attempt, or accepts its reply. -/
def IsHandshake : Act κ → Prop
  | .call _ (.connect _) _ | .accepted .. => True
  | _ => False

theorem IsReport.no_handshake {a : Act κ} (h : a.IsReport) : ¬ a.IsHandshake := by
  cases a <;> simp_all [IsReport, IsHandshake]

theorem asked?_eq_none {a : Act κ} (h : ¬ a.IsHandshake) (token : Token) :
    a.asked? token = none := by
  cases a with
  | call p c failure => cases c <;> simp_all [IsHandshake, asked?]
  | _ => rfl

theorem acceptance?_eq_none {a : Act κ} (h : ¬ a.IsHandshake) (token : Token) :
    a.acceptance? token = none := by
  cases a with
  | accepted sink reply => exact absurd trivial h
  | _ => rfl

end Act

/-- A transport that takes every call and posts nothing by itself. -/
def Transport.mute : Transport where
  bind _ := ⟨true, []⟩
  call _ _ := {}

namespace World

variable {κ : Type} {ds : List Deed} {u v w : World κ} {token : Token}

/-- The providers that were asked to accept an attempt, in this order. -/
def askedOf (token : Token) (w : World κ) : List Provider := w.recorded (Act.asked? token)

/-- The sinks of the replies that were accepted for an attempt, in this order. -/
def acceptancesOf (token : Token) (w : World κ) : List ProviderSink :=
  w.recorded (Act.acceptance? token)

/-- Nobody was asked to accept an attempt, and no reply was accepted. -/
structure Unmet (u v : World κ) : Prop where
  sinks : v.providerSinks = u.providerSinks
  asked : ∀ token, v.askedOf token = u.askedOf token
  accepted : ∀ token, v.acceptancesOf token = u.acceptancesOf token

theorem unmet_of_acts (acts : List (Act κ)) (h : v.history = acts ++ u.history)
    (ha : ∀ a ∈ acts, ¬ a.IsHandshake) (hs : v.providerSinks = u.providerSinks) : Unmet u v :=
  ⟨hs, fun token => recorded_same acts h fun a hm => Act.asked?_eq_none (ha a hm) token,
    fun token => recorded_same acts h fun a hm => Act.acceptance?_eq_none (ha a hm) token⟩

/-- The provider that is held is the last that was asked to accept the attempt, and one reply has
been accepted for it once the session is connected. -/
structure Served (w : World κ) : Prop where
  sinks : ∀ sink ∈ w.providerSinks, sink.provider ∈ w.askedOf sink.token
  unmade : ∀ token, w.tokens < token.serial → w.askedOf token = [] ∧ w.acceptancesOf token = []
  held : ∀ token, w.session.attempt = some token → w.session.provider = (w.askedOf token).getLast?
  connecting : w.session.phase = .connecting → ∀ token, w.session.attempt = some token →
    w.acceptancesOf token = []
  connected : w.session.phase = .connected → ∀ token, w.session.attempt = some token →
    ∃ sink, w.acceptancesOf token = [sink] ∧ sink.provider ∈ w.askedOf token

theorem served_create (setting : Setting) : (create (κ := κ) setting).Served := by
  constructor <;> simp [create, remark, askedOf, acceptancesOf, recorded]

theorem served_frame (loop : Loop) (handles : Nat) (h : w.Served) :
    Served { w with loop, handles } :=
  ⟨h.sinks, h.unmade, h.held, h.connecting, h.connected⟩

/-- The attempt goes on as it was. -/
theorem Served.same (h : u.Served) (hm : Unmet u v) (hp : v.session.phase = u.session.phase)
    (ha : v.session.attempt = u.session.attempt)
    (hs : v.session.provider = u.session.provider) (ht : v.tokens = u.tokens) : v.Served := by
  refine ⟨fun sink hsink => ?_, fun token hlt => ?_, fun token hv => ?_, fun hc token hv => ?_,
    fun hc token hv => ?_⟩
  · rw [hm.sinks] at hsink
    rw [hm.asked]
    exact h.sinks sink hsink
  · rw [hm.asked, hm.accepted]
    exact h.unmade token (ht ▸ hlt)
  · rw [hs, hm.asked]
    exact h.held token (ha ▸ hv)
  · rw [hm.accepted]
    exact h.connecting (hp ▸ hc) token (ha ▸ hv)
  · rw [hm.accepted, hm.asked]
    exact h.connected (hp ▸ hc) token (ha ▸ hv)

/-- No attempt is alive. -/
theorem Served.ended (h : u.Served) (hm : Unmet u v) (ha : v.session.attempt = none)
    (ht : v.tokens = u.tokens) : v.Served := by
  refine ⟨fun sink hsink => ?_, fun token hlt => ?_, by simp [ha], by simp [ha], by simp [ha]⟩
  · rw [hm.sinks] at hsink
    rw [hm.asked]
    exact h.sinks sink hsink
  · rw [hm.asked, hm.accepted]
    exact h.unmade token (ht ▸ hlt)

/-- A new attempt has begun, and no provider has been asked yet. -/
theorem Served.begun (h : u.Served) (hm : Unmet u v) (hp : v.session.phase = .connecting)
    (ha : v.session.attempt = some u.nextToken) (hs : v.session.provider = none)
    (ht : v.tokens = u.tokens + 1) : v.Served := by
  obtain ⟨hq, hc⟩ := h.unmade u.nextToken (Nat.lt_succ_self _)
  refine ⟨fun sink hsink => ?_, fun token hlt => ?_, fun token hv => ?_, fun _ token hv => ?_,
    by simp [hp]⟩
  · rw [hm.sinks] at hsink
    rw [hm.asked]
    exact h.sinks sink hsink
  · rw [hm.asked, hm.accepted]
    exact h.unmade token (by omega)
  · obtain rfl := Option.some.inj (ha.symm.trans hv)
    rw [hs, hm.asked, hq]
    rfl
  · obtain rfl := Option.some.inj (ha.symm.trans hv)
    rw [hm.accepted, hc]

/-- A provider has been asked to accept the attempt that is alive. -/
theorem served_ask (hs : w.Sound) (h : w.Served) (p : Provider) (failure : Option RemoteFault)
    (hp : w.session.phase = .connecting) (ha : w.session.attempt = some token) :
    (w.ask p token failure).Served := by
  have hq : ∀ other, (w.ask p token failure).askedOf other =
      w.askedOf other ++ if token = other then [p] else [] := by
    intro other
    by_cases ho : token = other <;> simp [askedOf, recorded, ask, Act.asked?, ho]
  have hc : ∀ other, (w.ask p token failure).acceptancesOf other = w.acceptancesOf other :=
    fun other => recorded_same [_] rfl (by simp [Act.acceptance?])
  refine ⟨fun sink hsink => ?_, fun other hlt => ?_, fun other hv => ?_, fun _ other hv => ?_,
    by simp [ask, hp]⟩
  · rw [hq]
    rcases List.mem_append.mp hsink with hsink | hsink
    · exact List.mem_append_left _ (h.sinks sink hsink)
    · rw [List.mem_singleton.mp hsink]
      exact List.mem_append_right _ (by simp)
  · have hne : token ≠ other := by
      rintro rfl
      have := hs.attempt_made token ha
      simp only [ask] at hlt
      omega
    rw [hq, hc, if_neg hne, List.append_nil]
    exact h.unmade other hlt
  · obtain rfl := Option.some.inj (ha.symm.trans hv)
    rw [hq, if_pos rfl, List.getLast?_concat]
    rfl
  · rw [hc]
    exact h.connecting hp other hv

theorem unmet_failAttempt (w : World κ) : Unmet w w.failAttempt := by
  rw [failAttempt_eq]
  refine unmet_of_acts (.connection .failed w.session.attempt :: unbinding w.session) rfl ?_ rfl
  intro a ha
  rcases List.mem_cons.mp ha with rfl | ha
  · exact id
  · obtain ⟨_, rfl⟩ := mem_unbinding ha
    exact id

theorem served_failAttempt (h : w.Served) : w.failAttempt.Served :=
  h.ended (unmet_failAttempt w) (by rw [failAttempt_eq]; rfl) (by rw [failAttempt_eq])

/-- A reply to the attempt that is alive has been accepted. -/
theorem served_accept (h : u.Served) {sink : ProviderSink} {reply : Reply} (acts : List (Act κ))
    (hu : u.session.phase = .connecting) (ha : u.session.attempt = some sink.token)
    (hk : sink ∈ u.providerSinks) (hp : v.session.phase = .connected)
    (hv : v.session.attempt = u.session.attempt) (hs : v.session.provider = u.session.provider)
    (ht : v.tokens = u.tokens) (hn : v.providerSinks = u.providerSinks)
    (hh : v.history = acts ++ .accepted sink reply :: u.history)
    (hacts : ∀ a ∈ acts, ¬ a.IsHandshake) : v.Served := by
  have hq : ∀ other, v.askedOf other = u.askedOf other := by
    intro other
    refine recorded_same (acts ++ [.accepted sink reply]) (by simp [hh]) fun a hm => ?_
    rcases List.mem_append.mp hm with hm | hm
    · exact Act.asked?_eq_none (hacts a hm) other
    · rw [List.mem_singleton.mp hm]
      rfl
  have hc : ∀ other, v.acceptancesOf other =
      u.acceptancesOf other ++ if sink.token = other then [sink] else [] := by
    intro other
    have hnil : acts.filterMap (Act.acceptance? other) = [] :=
      List.filterMap_eq_nil_iff.mpr fun a hm => Act.acceptance?_eq_none (hacts a hm) other
    by_cases ho : sink.token = other <;>
      simp [acceptancesOf, recorded, hh, hnil, Act.acceptance?, ho]
  refine ⟨fun other hother => ?_, fun other hlt => ?_, fun other ho => ?_, by simp [hp],
    fun _ other ho => ?_⟩
  · rw [hn] at hother
    rw [hq]
    exact h.sinks other hother
  · have hne : sink.token ≠ other := by
      rintro rfl
      have hsink := h.sinks sink hk
      rw [(h.unmade _ (ht ▸ hlt)).1] at hsink
      cases hsink
    rw [hq, hc, if_neg hne, List.append_nil]
    exact h.unmade other (ht ▸ hlt)
  · rw [hs, hq]
    exact h.held other (hv ▸ ho)
  · obtain rfl := Option.some.inj (ha.symm.trans (hv ▸ ho))
    refine ⟨sink, ?_, ?_⟩
    · rw [hc, h.connecting hu _ ha, if_pos rfl, List.nil_append]
    · rw [hq]
      exact h.sinks sink hk

theorem served_move (hm : Move ds u v) (hs : u.Sound) (h : u.Served) : v.Served := by
  cases hm with
  | aside | hear | close | ignore =>
    exact h.same (unmet_of_acts [] rfl (by simp) rfl) rfl rfl rfl rfl
  | @report _ a ha =>
    exact h.same (unmet_of_acts [a] rfl (by simpa using ha.no_handshake) rfl) rfl rfl rfl rfl
  | insert _ node options callback failure =>
    refine h.same (unmet_of_acts _ rfl (fun a ha => ?_) rfl) rfl rfl rfl rfl
    obtain ⟨_, _, rfl⟩ := mem_telling ha
    exact id
  | @erase _ node options key callback failure hf =>
    refine h.same (unmet_of_acts _ rfl (fun a ha => ?_) rfl) rfl rfl rfl rfl
    obtain ⟨_, _, rfl⟩ := mem_telling ha
    exact id
  | begin granted hp =>
    obtain ⟨-, -, hn, -⟩ := hs.consistent.disconnected hp
    exact h.begun (unmet_of_acts [_, _] rfl (by simp [Act.IsHandshake]) rfl) rfl rfl hn rfl
  | letGo =>
    rw [release_eq]
    refine h.ended (unmet_of_acts _ rfl (fun a ha => ?_) rfl) rfl rfl
    obtain ⟨_, rfl⟩ := mem_unbinding ha
    exact id
  | leave _ failure =>
    exact h.ended (unmet_of_acts (unbinding u.session ++
      (farewell failure u.session ++ [.tornDown u.session.phase])) (by simp)
      (forall_leaving (P := (¬ ·.IsHandshake)) (fun _ => id) (fun _ _ => id) id) rfl) rfl rfl
  | abort => exact served_failAttempt h
  | @fail _ e rest =>
    exact served_failAttempt (w := { u with queue := rest })
      (h.same (unmet_of_acts [] rfl (by simp) rfl) rfl rfl rfl rfl)
  | suspend => exact h.ended (unmet_of_acts [_] rfl (by simp [Act.IsHandshake]) rfl) rfl rfl
  | @reach _ e rest p token failure hq hj =>
    obtain ⟨hp, ha⟩ := Session.verdict_reach hj
    exact served_ask (w := { u with queue := rest }) (hs.tail hq)
      (h.same (unmet_of_acts [] rfl (by simp) rfl) rfl rfl rfl rfl) p failure hp ha
  | @restore _ e rest p failure hq hj =>
    obtain ⟨hp, -⟩ := Session.verdict_restore hj
    have hn := (hs.consistent.suspended hp).2.2
    exact served_ask (sound_resume (hs.tail hq) hp)
      (h.begun (unmet_of_acts [_] rfl (by simp [Act.IsHandshake]) rfl) rfl rfl hn rfl)
      p failure rfl rfl
  | @accept _ e rest sink reply token news t hq hj =>
    obtain ⟨rfl, hp, ha, -⟩ := Session.verdict_accept hj
    have hk := hs.queued sink _ (by rw [hq]; exact List.mem_cons_self)
    refine served_accept h (.connection .connected u.session.attempt ::
      (replayed t (u.session.complete reply.root token reply.extras)).reverse) hp ha hk rfl rfl rfl
      rfl rfl rfl fun a hm => ?_
    rcases List.mem_cons.mp hm with rfl | hm
    · exact id
    · obtain ⟨_, _, _, _, _, rfl⟩ := mem_replayed (List.mem_reverse.mp hm)
      exact id

theorem served_reachable (setting : Setting) (steps : List (Step κ)) :
    ((create setting).run steps).Served :=
  run_keep_sound (served_create setting) served_frame served_move steps

/-- A stale event leaves the session as it is. -/
theorem turn_stale_session {t : Transport} {e : Event κ} (hn : w.next? = some e)
    (he : w.Stale e) : (w.turn t).session = w.session := by
  obtain ⟨rest, r, -, ht⟩ := turn_next t hn
  obtain ⟨remarks, hs⟩ := handle_stale (t := t)
    (w := { w with loop := .handling, queue := rest, remarks := r }) he
  rw [ht, hs]

/-- A note that changes the session comes from a provider that was asked to accept the attempt. -/
theorem Served.turn_provider (h : w.Served) (hs : w.Sound) {t : Transport} {sink : ProviderSink}
    {note : ProviderNote} (hn : w.next? = some (.provider sink note)) :
    (w.turn t).session = w.session ∨
      w.session.attempt = some sink.token ∧ sink.provider ∈ w.askedOf sink.token := by
  obtain ⟨rest, -, hq, -⟩ := turn_next t hn
  have hk : sink ∈ w.providerSinks := hs.queued sink note (by rw [hq]; exact List.mem_cons_self)
  by_cases hc : w.session.isCurrent sink.token
  · exact .inr ⟨by simpa [Session.isCurrent] using hc, h.sinks sink hk⟩
  · exact .inl (turn_stale_session hn ⟨hs.sink_made sink hk, hc⟩)

/-- In every run, a connected session has accepted one reply to its attempt, from a provider that
was asked for it; it talks to that provider, or to the last that was asked for the same attempt
after it, and to nobody else about its subscriptions. What a provider posts about an attempt
changes the session only while an attempt is alive that this provider was asked to accept. -/
theorem served_by_last_asked_reachable (setting : Setting) (steps : List (Step κ)) :
    let w := (create setting).run steps
    (∀ token, w.session.phase = .connected → w.session.attempt = some token →
      ∃ sink earlier later p, w.acceptancesOf token = [sink] ∧
        w.askedOf token = earlier ++ sink.provider :: later ∧
        (sink.provider :: later).getLast? = some p ∧ w.session.live? = some (p, token) ∧
        ((∀ q ∈ later, q = sink.provider) → p = sink.provider) ∧
        ∀ q call, (q, call) ∈ w.edits token → q = p) ∧
    ∀ t sink note, w.next? = some (.provider sink note) → (w.turn t).session = w.session ∨
      w.session.attempt = some sink.token ∧ sink.provider ∈ w.askedOf sink.token := by
  intro w
  have h : w.Served := served_reachable setting steps
  have hs : w.Sound := sound_reachable setting steps
  refine ⟨fun token hp ha => ?_, fun t sink note hn => h.turn_provider hs hn⟩
  obtain ⟨sink, hk, hm⟩ := h.connected hp token ha
  obtain ⟨earlier, later, hq⟩ := List.append_of_mem hm
  obtain ⟨p, other, hl⟩ := hs.consistent.live hp
  obtain ⟨-, hp', ho⟩ := Session.live?_eq_some.mp hl
  obtain rfl := Option.some.inj (ha.symm.trans ho)
  have hlast : (sink.provider :: later).getLast? = some p := by
    have hg := h.held token ha
    rw [hp', hq, List.getLast?_append, List.getLast?_cons, Option.some_or] at hg
    rw [List.getLast?_cons, hg]
  refine ⟨sink, earlier, later, p, hk, hq, hlast, hl, fun hall => ?_, fun q call he => ?_⟩
  · rcases List.mem_cons.mp (List.mem_of_getLast? hlast) with hp | hp
    · exact hp
    · exact hall p hp
  · have hheld := ((mirrored_reachable setting steps).connected hp token ha).2 (q, call) he
    exact Option.some.inj (hheld.symm.trans hp')

/-- A connection that came back with another provider. -/
theorem served_by_last_asked_restored :
    let w : World Unit := (create ⟨⟨"package", "class"⟩, "client", none⟩).run [
      .connect .prompt, .turn .prompt, .finish .prompt, .turn .prompt, .finish .prompt,
      .post (.binder ⟨1⟩ .unbound), .turn .prompt, .finish .prompt,
      .post (.binder ⟨1⟩ (.bound ⟨1⟩)), .turn .prompt, .finish .prompt, .turn .prompt]
    w.session.phase = .connected ∧ w.session.attempt = some ⟨2⟩ ∧
      w.askedOf ⟨1⟩ = [⟨0⟩] ∧ w.askedOf ⟨2⟩ = [⟨1⟩] ∧
      ∃ sink earlier later p, w.acceptancesOf ⟨2⟩ = [sink] ∧
        w.askedOf ⟨2⟩ = earlier ++ sink.provider :: later ∧
        (sink.provider :: later).getLast? = some p ∧ w.session.live? = some (p, ⟨2⟩) ∧
        ((∀ q ∈ later, q = sink.provider) → p = sink.provider) ∧
        ∀ q call, (q, call) ∈ w.edits ⟨2⟩ → q = p :=
  ⟨rfl, rfl, rfl, rfl, (served_by_last_asked_reachable _ _).1 ⟨2⟩ rfl rfl⟩

/-- A session that was bound to two providers during one attempt. The reply of the first connects
it to the second, and a refusal of the first ends what the second was asked for. -/
theorem rival_provider_answers :
    let w : World Unit := (create ⟨⟨"package", "class"⟩, "client", none⟩).run [
      .connect .mute, .post (.binder ⟨1⟩ (.bound ⟨0⟩)), .turn .mute, .finish .mute,
      .post (.binder ⟨1⟩ (.bound ⟨1⟩)), .turn .mute, .finish .mute]
    let accepted := w.run [
      .post (.provider ⟨⟨0⟩, ⟨1⟩⟩ (.accepted ⟨"root", "session", none⟩)), .turn .mute]
    let refused := w.run [.post (.provider ⟨⟨0⟩, ⟨1⟩⟩ .refused), .turn .mute]
    w.askedOf ⟨1⟩ = [⟨0⟩, ⟨1⟩] ∧ w.session.provider = some ⟨1⟩ ∧
      accepted.session.phase = .connected ∧ accepted.session.attempt = some ⟨1⟩ ∧
      accepted.acceptancesOf ⟨1⟩ = [⟨⟨0⟩, ⟨1⟩⟩] ∧ accepted.session.provider = some ⟨1⟩ ∧
      refused.session.phase = .disconnected ∧ refused.notices = [(.failed, some ⟨1⟩)] :=
  ⟨rfl, rfl, rfl, rfl, rfl, rfl, rfl, rfl⟩

end World
end MediaLink
