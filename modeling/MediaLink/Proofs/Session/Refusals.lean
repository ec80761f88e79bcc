import MediaLink.Proofs.Session.Bindings

/-! A binding that was refused never carries a connection: whatever a provider answers that was
reached over it, the refusal is heard first. -/
namespace MediaLink

namespace Event

variable {κ : Type}

/-- A reply that accepts the attempt. -/
def Accepts (token : Token) : Event κ → Prop
  | .provider sink (.accepted _) => sink.token = token
  | _ => False

end Event

/-- The attempt for which an act asks the binder, or tells the application of a connection. -/
def Act.bond? {κ : Type} : Act κ → Option Token
  | .bind token _ => some token
  | .connection .connected attempt => attempt
  | _ => none

theorem Act.IsReport.no_bond {κ : Type} {a : Act κ} (h : a.IsReport) : a.bond? = none := by
  cases a <;> simp_all [IsReport, bond?]

namespace World

variable {κ : Type} {ds : List Deed} {u v w : World κ} {token : Token} {e : Event κ}
  {queue rest : List (Event κ)}

/-- The refusal of an attempt waits, and nothing that comes before it accepts the attempt. -/
def Doomed (token : Token) (queue : List (Event κ)) : Prop :=
  ∃ first later, queue = first ++ .bindRefused token :: later ∧ ∀ e ∈ first, ¬ e.Accepts token

theorem doomed_refused (h : ∀ e ∈ queue, ¬ e.Accepts token) :
    Doomed token (queue ++ [.bindRefused token]) := ⟨queue, [], rfl, h⟩

theorem Doomed.append (h : Doomed token queue) (news : List (Event κ)) :
    Doomed token (queue ++ news) := by
  obtain ⟨first, later, rfl, hf⟩ := h
  exact ⟨first, later ++ news, by simp, hf⟩

theorem Doomed.tail (h : Doomed token (e :: rest)) (he : e ≠ .bindRefused token) :
    Doomed token rest ∧ ¬ e.Accepts token := by
  obtain ⟨first, later, hq, hf⟩ := h
  cases first with
  | nil => exact absurd (List.cons.inj hq).1 he
  | cons x first =>
    obtain ⟨rfl, rfl⟩ := List.cons.inj hq
    exact ⟨⟨first, later, rfl, fun y hy => hf y (List.mem_cons_of_mem _ hy)⟩,
      hf e List.mem_cons_self⟩

/-- The attempt is under way over its own binding, and about to fail. -/
structure Failing (token : Token) (w : World κ) : Prop where
  phase : w.session.phase = .connecting
  attempt : w.session.attempt = some token
  binding : w.session.binding = some token
  queue : Doomed token w.queue

/-- Unless the attempt ends with the event in front, its refusal still waits. -/
theorem Failing.tail (h : Failing token w) (hq : w.queue = e :: rest)
    (hv : w.session.verdict e ≠ .fail) : Doomed token rest ∧ ¬ e.Accepts token := by
  have hd := h.queue
  rw [hq] at hd
  refine hd.tail ?_
  rintro rfl
  exact hv (by simp [Session.verdict, Session.isCurrent, h.phase, h.attempt])

/-- An attempt or a binding that was refused lives only as long as its refusal waits, and no
connection is reported for it. -/
structure Barred (w : World κ) : Prop where
  made : ∀ a ∈ w.history, ∀ token, a.bond? = some token → token.serial ≤ w.tokens
  noted : ∀ token, .bindRefused token ∈ w.queue → .bind token false ∈ w.history
  failing : ∀ token, .bind token false ∈ w.history →
    w.session.attempt = some token ∨ w.session.binding = some token → w.Failing token
  untold : ∀ token, .bind token false ∈ w.history → .connection .connected (some token) ∉ w.history

theorem barred_create (setting : Setting) : (create (κ := κ) setting).Barred := by
  constructor <;> simp [create, remark]

theorem barred_frame (loop : Loop) (handles : Nat) (h : w.Barred) :
    Barred { w with loop, handles } := by
  refine ⟨h.made, h.noted, fun token hb ha => ?_, h.untold⟩
  obtain ⟨hp, ha, hb, hq⟩ := h.failing token hb ha
  exact ⟨hp, ha, hb, hq⟩

/-- No binding was asked for and no connection reported. -/
theorem Barred.quiet (h : u.Barred) (ht : u.tokens ≤ v.tokens) (acts : List (Act κ))
    (hh : v.history = acts ++ u.history) (ha : ∀ a ∈ acts, a.bond? = none)
    (hq : ∀ token, .bindRefused token ∈ v.queue → .bindRefused token ∈ u.queue)
    (hf : ∀ token, .bind token false ∈ u.history →
      v.session.attempt = some token ∨ v.session.binding = some token → v.Failing token) :
    v.Barred := by
  have hold : ∀ a ∈ v.history, ∀ token, a.bond? = some token → a ∈ u.history := by
    intro a hm token hb
    rw [hh] at hm
    refine (List.mem_append.mp hm).resolve_left fun hn => ?_
    cases (ha a hn).symm.trans hb
  refine ⟨fun a hm token hb => ?_, fun token hr => ?_, fun token hb => ?_, fun token hb hc => ?_⟩
  · exact Nat.le_trans (h.made a (hold a hm token hb) token hb) ht
  · rw [hh]
    exact List.mem_append_right _ (h.noted token (hq token hr))
  · exact hf token (hold _ hb token rfl)
  · exact h.untold token (hold _ hb token rfl) (hold _ hc token rfl)

/-- The attempt goes on as it was. -/
theorem Barred.same (h : u.Barred) (ht : v.tokens = u.tokens)
    (hp : v.session.phase = u.session.phase) (ha : v.session.attempt = u.session.attempt)
    (hb : v.session.binding = u.session.binding) (acts : List (Act κ))
    (hh : v.history = acts ++ u.history) (hacts : ∀ a ∈ acts, a.bond? = none)
    (hq : ∀ token, .bindRefused token ∈ v.queue → .bindRefused token ∈ u.queue)
    (hd : ∀ token, Failing token u → Doomed token v.queue) : v.Barred := by
  refine h.quiet (Nat.le_of_eq ht.symm) acts hh hacts hq fun token hr hv => ?_
  rw [ha, hb] at hv
  have hf := h.failing token hr hv
  exact ⟨hp.trans hf.phase, ha.trans hf.attempt, hb.trans hf.binding, hd token hf⟩

/-- No attempt is alive and no binding is held. -/
theorem Barred.ended (h : u.Barred) (ht : v.tokens = u.tokens) (ha : v.session.attempt = none)
    (hb : v.session.binding = none) (acts : List (Act κ)) (hh : v.history = acts ++ u.history)
    (hacts : ∀ a ∈ acts, a.bond? = none)
    (hq : ∀ token, .bindRefused token ∈ v.queue → .bindRefused token ∈ u.queue) : v.Barred :=
  h.quiet (Nat.le_of_eq ht.symm) acts hh hacts hq (by simp [ha, hb])

theorem no_bond_unbinding {s : Session κ} {a : Act κ} (h : a ∈ unbinding s) :
    a.bond? = none := by
  obtain ⟨_, rfl⟩ := mem_unbinding h
  rfl

theorem Barred.failAttempt (h : w.Barred) (hq : ∀ e ∈ queue, e ∈ w.queue) :
    Barred (World.failAttempt { w with queue }) := by
  rw [failAttempt_eq]
  refine h.ended rfl rfl rfl (.connection .failed w.session.attempt :: unbinding w.session) rfl ?_
    fun token hr => hq _ hr
  intro a ha
  rcases List.mem_cons.mp ha with rfl | ha
  · rfl
  · exact no_bond_unbinding ha

theorem barred_tell (h : u.Barred) (call : Token → Call) (failure : Option RemoteFault)
    (subscriptions : Registry κ) :
    ((u.withSubscriptions subscriptions).tell call failure).Barred := by
  refine h.same rfl rfl rfl rfl _ rfl (fun a ha => ?_) (fun token hr => ?_) fun token hf =>
    hf.queue.append _
  · obtain ⟨_, _, rfl⟩ := mem_telling ha
    rfl
  · refine (List.mem_append.mp hr).resolve_right fun hc => ?_
    simp only [complaint] at hc
    split at hc
    · obtain ⟨_, -, -, he⟩ := mem_echo hc
      cases he
    · cases hc

/-- What waits when an attempt begins does not accept it: nobody has a sink for it yet. -/
theorem Sound.no_accepts (h : w.Sound) (he : e ∈ w.queue ∨ ∃ sinks,
    Foreign { w with binderSinks := sinks } e) : ¬ e.Accepts w.nextToken := by
  cases e with
  | provider sink note =>
    cases note with
    | accepted reply =>
      intro ht
      have hs : sink ∈ w.providerSinks := by
        rcases he with he | ⟨_, he⟩
        · exact h.queued sink _ he
        · exact he
      exact h.fresh hs ht.symm
    | _ => exact id
  | _ => exact id

theorem barred_begin (hs : w.Sound) (h : w.Barred) {news : List (Event κ)} (granted : Bool)
    (hn : ∀ e ∈ news, Foreign { w with binderSinks := w.binderSinks ++ [w.nextToken] } e) :
    Barred { w with
      tokens := w.tokens + 1
      session := w.session.begin w.nextToken
      binderSinks := w.binderSinks ++ [w.nextToken]
      queue := w.queue ++ news ++ if granted then [] else [.bindRefused w.nextToken]
      history := .bind w.nextToken granted :: .started w.nextToken :: w.history } := by
  have hfresh : ∀ a ∈ w.history, a.bond? ≠ some w.nextToken := by
    intro a ha hb
    have hm := h.made a ha _ hb
    simp only [nextToken] at hm
    omega
  have hbind : ∀ token, Act.bind token false ∈ (.bind w.nextToken granted ::
      .started w.nextToken :: w.history : List (Act κ)) →
      token = w.nextToken ∧ granted = false ∨ .bind token false ∈ w.history := by
    intro token hb
    simp only [List.mem_cons, Act.bind.injEq, reduceCtorEq, false_or] at hb
    exact hb.imp_left fun hb => ⟨hb.1, hb.2.symm⟩
  refine ⟨fun a ha token hb => ?_, fun token hr => ?_, fun token hb ha => ?_,
    fun token hb hc => ?_⟩
  · simp only [List.mem_cons] at ha
    rcases ha with rfl | rfl | ha
    · cases hb
      exact Nat.le_refl _
    · cases hb
    · exact Nat.le_succ_of_le (h.made a ha token hb)
  · simp only [List.mem_append] at hr
    rcases hr with (hr | hr) | hr
    · exact List.mem_cons_of_mem _ (List.mem_cons_of_mem _ (h.noted token hr))
    · exact (hn _ hr).elim
    · cases granted <;> simp_all
  · -- Only the attempt that begins is alive, over its own binding.
    have ht : token = w.nextToken := by
      rcases ha with ha | ha <;> exact (Option.some.inj ha).symm
    subst ht
    rcases hbind _ hb with ⟨-, rfl⟩ | hb
    · refine ⟨rfl, rfl, rfl, doomed_refused fun e he => hs.no_accepts ?_⟩
      exact (List.mem_append.mp he).imp_right fun he => ⟨_, hn e he⟩
    · exact absurd rfl (hfresh _ hb)
  · simp only [List.mem_cons, reduceCtorEq, false_or] at hc
    rcases hbind token hb with ⟨rfl, -⟩ | hb
    · exact hfresh _ hc rfl
    · exact h.untold token hb hc

theorem barred_restore (h : u.Barred) (hq : u.queue = e :: rest)
    (hp : u.session.phase = .suspended) (p : Provider) (failure : Option RemoteFault) :
    (ask p u.nextToken failure
      (startAttempt Session.resume { u with queue := rest }).1).Barred := by
  refine h.quiet (Nat.le_succ _) [.call p (.connect u.nextToken) failure, .started u.nextToken] rfl
    (by simp [Act.bond?]) (fun token hr => ?_) fun token hb ha => ?_
  · rw [hq]
    exact List.mem_cons_of_mem _ hr
  · rcases ha with ha | ha
    · -- The attempt is new, so it cannot have been refused.
      obtain rfl := Option.some.inj ha
      have hm := h.made _ hb _ rfl
      simp only at hm
      omega
    · cases (h.failing token hb (.inr ha)).phase.symm.trans hp

/-- The refusal of an attempt would have been heard before the reply that accepts it. -/
theorem Barred.granted (h : u.Barred) {sink : ProviderSink} {reply : Reply} {token : SessionToken}
    (hq : u.queue = e :: rest) (hv : u.session.verdict e = .accept sink reply token)
    (hb : .bind sink.token false ∈ u.history) : False := by
  obtain ⟨rfl, -, ha, -⟩ := Session.verdict_accept hv
  exact ((h.failing _ hb (.inl ha)).tail hq (by simp [hv])).2 rfl

theorem barred_accept (hs : u.Sound) (h : u.Barred) {sink : ProviderSink} {reply : Reply}
    {token : SessionToken} {news : List (Event κ)} {acts : List (Act κ)}
    (hq : u.queue = e :: rest) (hv : u.session.verdict e = .accept sink reply token)
    (hacts : ∀ a ∈ acts, a.bond? = none) (hn : ∀ token, .bindRefused token ∉ news) :
    Barred { u with
      session := u.session.complete reply.root token reply.extras
      queue := rest ++ news
      history := .connection .connected u.session.attempt :: (acts ++ u.history) } := by
  obtain ⟨-, -, ha, -⟩ := Session.verdict_accept hv
  have hold : ∀ token, Act.bind token false ∈
      (.connection .connected u.session.attempt :: (acts ++ u.history) : List (Act κ)) →
      .bind token false ∈ u.history := by
    intro token hb
    simp only [List.mem_cons, reduceCtorEq, false_or, List.mem_append] at hb
    refine hb.resolve_left fun hb => ?_
    cases hacts _ hb
  refine ⟨fun a hm token hb => ?_, fun token hr => ?_, fun token hb hc => ?_, fun token hb hc => ?_⟩
  · simp only [List.mem_cons, List.mem_append] at hm
    rcases hm with rfl | hm | hm
    · exact hs.attempt_made token hb
    · cases (hacts a hm).symm.trans hb
    · exact h.made a hm token hb
  · have hr := (List.mem_append.mp hr).resolve_right (hn token)
    refine List.mem_cons_of_mem _ (List.mem_append_right _ (h.noted token ?_))
    rw [hq]
    exact List.mem_cons_of_mem _ hr
  · have hf := h.failing token (hold token hb) hc
    obtain rfl := Option.some.inj (ha.symm.trans hf.attempt)
    exact (h.granted hq hv (hold _ hb)).elim
  · simp only [List.mem_cons, Act.connection.injEq, true_and, List.mem_append] at hc
    rcases hc with hc | hc | hc
    · obtain rfl := Option.some.inj (hc.trans ha)
      exact h.granted hq hv (hold _ hb)
    · cases hacts _ hc
    · exact h.untold token (hold token hb) hc

theorem barred_move (hm : Move ds u v) (hs : u.Sound) (h : u.Barred) : v.Barred := by
  cases hm with
  | aside => exact h.same rfl rfl rfl rfl [] rfl (by simp) (fun _ => id) fun _ hf => hf.queue
  | hear hn =>
    refine h.same rfl rfl rfl rfl [] rfl (by simp) (fun token hr => ?_)
      fun _ hf => hf.queue.append _
    exact (List.mem_append.mp hr).resolve_right fun hr => hn _ hr
  | @report _ a ha =>
    exact h.same rfl rfl rfl rfl [a] rfl (by simpa using ha.no_bond) (fun _ => id)
      fun _ hf => hf.queue
  | close hp =>
    obtain ⟨ha, hb, -⟩ := hs.consistent.disconnected hp
    exact h.ended rfl ha hb [] rfl (by simp) (by simp)
  | insert node options callback failure => exact barred_tell h ..
  | erase failure hf => exact barred_tell h ..
  | begin granted hp hn => exact barred_begin hs h granted hn
  | letGo =>
    rw [release_eq]
    exact h.ended rfl rfl rfl _ rfl (fun _ => no_bond_unbinding) fun _ => id
  | leave _ failure =>
    exact h.ended rfl rfl rfl (unbinding u.session ++
      (farewell failure u.session ++ [.tornDown u.session.phase])) (by simp)
      (forall_leaving (P := (·.bond? = none)) (fun _ => rfl) (fun _ _ => rfl) rfl) fun _ => id
  | abort => exact h.failAttempt fun _ => id
  | ignore hq hv =>
    refine h.same rfl rfl rfl rfl [] rfl (by simp) (fun token hr => ?_)
      fun _ hf => (hf.tail hq (by simp [hv])).1
    rw [hq]
    exact List.mem_cons_of_mem _ hr
  | fail hq =>
    refine h.failAttempt fun x hx => ?_
    rw [hq]
    exact List.mem_cons_of_mem _ hx
  | suspend hq hv =>
    refine h.quiet (Nat.le_refl _) [_] rfl (by simp [Act.bond?]) (fun token hr => ?_)
      fun token hb ha => ?_
    · rw [hq]
      exact List.mem_cons_of_mem _ hr
    · have hn := ha.resolve_left (by simp [notify, act, Session.suspend])
      have hf := h.failing token hb (.inr hn)
      cases hf.phase.symm.trans (Session.verdict_suspend hv)
  | @reach _ e rest p token failure hq hv =>
    refine h.same rfl rfl rfl rfl [.call p (.connect token) failure] rfl (by simp [Act.bond?])
      (fun token hr => ?_) fun _ hf => (hf.tail hq (by simp [hv])).1
    rw [hq]
    exact List.mem_cons_of_mem _ hr
  | restore failure hq hv => exact barred_restore h hq (Session.verdict_restore hv).1 _ failure
  | @accept _ e rest sink reply token news t hq hv hn =>
    have hacts : ∀ a ∈ (replayed t (u.session.complete reply.root token reply.extras)).reverse ++
        [.accepted sink reply], a.bond? = none :=
      forall_accepting (P := (·.bond? = none)) (fun _ _ _ _ _ => rfl) rfl
    have hnews : ∀ token, .bindRefused token ∉ news := by
      intro other hr
      rcases hn _ hr with hf | ⟨fault, hf⟩
      · exact hf
      · cases hf
    simpa using barred_accept hs h hq hv hacts hnews

theorem barred_reachable (setting : Setting) (steps : List (Step κ)) :
    ((create setting).run steps).Barred :=
  run_keep_sound (barred_create setting) barred_frame barred_move steps

/-! What a connect call does, and what comes of its refusal. -/

/-- An attempt is under way that began with a request to the binder, and if the binder refused it
the refusal waits. -/
structure Requested (granted : Bool) (u v : World κ) : Prop where
  phase : v.session.phase = .connecting
  attempt : v.session.attempt = some u.nextToken
  binding : v.session.binding = some u.nextToken
  history : v.history =
    .bind u.nextToken granted :: .started u.nextToken :: (unbinding u.session ++ u.history)
  refused : granted = false → .bindRefused u.nextToken ∈ v.queue

theorem requested_attemptConnect (t : Transport) (hl : w.loop ≠ .closed)
    (hb : w.session.binding = none) :
    Requested (t.bind w.nextToken).granted w (w.attemptConnect t) := by
  obtain ⟨news, remarks, hr, -⟩ :=
    requestBinding_eq t w.nextToken (w := (w.startAttempt Session.begin).1) hl
  have ha : w.attemptConnect t =
    remark (.connecting w.nextToken)
      (requestBinding t w.nextToken (w.startAttempt Session.begin).1) := rfl
  rw [ha, hr]
  refine ⟨rfl, rfl, rfl, ?_, fun hg => ?_⟩
  · simp only [unbinding, hb]
    rfl
  · simp [hg, heard, remark]

theorem requested_connect {t : Transport} (hl : w.loop ≠ .closed) (hc : w.session.Consistent)
    (h : w.connect t = .ok v) : Requested (t.bind w.nextToken).granted w v := by
  cases hp : w.session.phase with
  | disconnected =>
    simp only [connect, hp, Except.ok.injEq] at h
    exact h ▸ requested_attemptConnect t hl (hc.disconnected hp).2.1
  | suspended =>
    simp only [connect, hp, Except.ok.injEq] at h
    subst h
    have hr := requested_attemptConnect t (w := (w.remark .releasing).release)
      (by rwa [release_loop]) (by rw [release_eq]; rfl)
    rw [release_eq] at hr ⊢
    exact ⟨hr.phase, hr.attempt, hr.binding, hr.history, hr.refused⟩
  | connecting => simp [connect, hp] at h
  | connected => simp [connect, hp] at h

theorem BinderCall.count_rounds (released : List Token) (held : Option Token) (token : Token) :
    (BinderCall.rounds released held).count (.unbind token) = released.count token := by
  have hh : (held.toList.map BinderCall.bind).count (.unbind token) = 0 := by
    rw [List.count_eq_zero]
    simp
  rw [BinderCall.rounds, List.count_append, hh]
  induction released with
  | nil => rfl
  | cons other released ih =>
    simp only [List.flatMap_cons, List.count_append, List.count_cons] at ih ⊢
    by_cases ho : other = token <;> simp_all [Nat.add_comm]

/-- A binding is released at most once. -/
theorem Alternating.released_once (h : w.Alternating) (hm : .unbind token ∈ w.history) :
    w.binderCalls.count (.unbind token) = 1 := by
  obtain ⟨released, hc, hd, -⟩ := h
  have hu : .unbind token ∈ w.binderCalls :=
    List.mem_reverse.mpr (List.mem_filterMap.mpr ⟨_, hm, rfl⟩)
  have hp := List.count_pos_iff.mpr hu
  rw [hc, BinderCall.count_rounds] at hp ⊢
  have hn := (List.nodup_append.mp hd).1
  have hle := List.nodup_iff_count.mp hn token
  omega

/-- The effect of a refusal that is heard in time. -/
theorem Barred.turn_refused (h : w.Barred) (hn : w.next? = some (.bindRefused token))
    (hc : w.session.isCurrent token) (t : Transport) :
    w.session.phase = .connecting ∧ w.session.binding = some token ∧
      (w.turn t).session = w.session.reset ∧
      (w.turn t).history = .connection .failed (some token) :: .unbind token :: w.history := by
  obtain ⟨rest, remarks, hq, ht⟩ := turn_next t hn
  have ha : w.session.attempt = some token := by simpa [Session.isCurrent] using hc
  have hr : .bind token false ∈ w.history := h.noted token (by rw [hq]; exact List.mem_cons_self)
  obtain ⟨hp, -, hb, -⟩ := h.failing token hr (.inl ha)
  have hf : w.turn t = World.failAttempt
      { w with
        loop := .handling
        queue := rest
        remarks := .attemptFailed .bind :: remarks } := by
    rw [ht]
    simp [handle, ifCurrent, hc, onRefused, hp, remark]
  rw [hf, failAttempt_eq]
  exact ⟨hp, hb, rfl, by simp [unbinding, hb, ha]⟩

/-- In every run, a session whose binding was refused does not become connected over it, and no
connection is reported for the attempt, whatever was posted before the refusal or is posted later.
As long as the attempt is alive when the refusal is heard, the session is still connecting; then the
binding is released, this once, and the failure is reported. A connect call reports nothing: if it
is refused, the refusal is left to the loop. -/
theorem refused_never_connected_reachable (setting : Setting) (steps : List (Step κ))
    (token : Token) (t : Transport) :
    let w := (create setting).run steps
    (.bind token false ∈ w.history →
      ¬ (w.session.phase = .connected ∧ w.session.binding = some token) ∧
        .connection .connected (some token) ∉ w.history) ∧
    (w.next? = some (.bindRefused token) → w.session.isCurrent token →
      w.session.phase = .connecting ∧ w.session.binding = some token ∧
        (w.turn t).session = w.session.reset ∧
        (w.turn t).history = .connection .failed (some token) :: .unbind token :: w.history ∧
        (w.turn t).binderCalls.count (.unbind token) = 1) ∧
    ∀ v, w.handles ≠ 0 → w.connect t = .ok v → Requested (t.bind w.nextToken).granted w v := by
  intro w
  have h : w.Barred := barred_reachable setting steps
  refine ⟨fun hb => ⟨fun ⟨hp, hh⟩ => ?_, h.untold token hb⟩, fun hn hc => ?_, fun v h0 hv => ?_⟩
  · cases (h.failing token hb (.inr hh)).phase.symm.trans hp
  · obtain ⟨hp, hb, hs, hh⟩ := h.turn_refused hn hc t
    have ha : (w.turn t).Alternating := by
      have hr := alternating_reachable setting (steps ++ [.turn t])
      rw [run_append] at hr
      exact hr
    exact ⟨hp, hb, hs, hh, ha.released_once (by simp [hh])⟩
  · exact requested_connect ((settled_run (settled_create setting) steps).open h0)
      (sound_reachable setting steps).consistent hv

/-- A binder that reports the channel and then refuses it, over which a provider accepts at once. -/
theorem refused_never_connected_hasty :
    let hasty : Transport :=
      { Transport.prompt with bind := fun token => ⟨false, [.binder token (.bound ⟨0⟩)]⟩ }
    let fresh : World Unit := create ⟨⟨"package", "class"⟩, "client", none⟩
    let w := fresh.run [.connect hasty, .turn hasty, .finish hasty]
    w.queue = [.bindRefused ⟨1⟩, .provider ⟨⟨0⟩, ⟨1⟩⟩ (.accepted ⟨"root", "session", none⟩)] ∧
      .bind ⟨1⟩ false ∈ w.history ∧ w.session.isCurrent ⟨1⟩ ∧
      ¬ (w.session.phase = .connected ∧ w.session.binding = some ⟨1⟩) ∧
      (w.turn hasty).history = .connection .failed (some ⟨1⟩) :: .unbind ⟨1⟩ :: w.history ∧
      ∃ v, fresh.connect hasty = .ok v ∧ Requested false fresh v := by
  intro hasty fresh w
  have hq : w.queue =
      [.bindRefused ⟨1⟩, .provider ⟨⟨0⟩, ⟨1⟩⟩ (.accepted ⟨"root", "session", none⟩)] := rfl
  have hb : .bind ⟨1⟩ false ∈ w.history := .tail _ (.head _)
  have hc : w.session.isCurrent ⟨1⟩ := by decide
  have hn : w.next? = some (.bindRefused ⟨1⟩) := rfl
  obtain ⟨hr, hf, -⟩ := refused_never_connected_reachable
    ⟨⟨"package", "class"⟩, "client", none⟩ [.connect hasty, .turn hasty, .finish hasty] ⟨1⟩ hasty
  obtain ⟨-, -, -, hh, -⟩ := hf hn hc
  obtain ⟨v, hv⟩ : ∃ v, fresh.connect hasty = .ok v := ⟨_, rfl⟩
  obtain ⟨-, -, ho⟩ := refused_never_connected_reachable (κ := Unit)
    ⟨⟨"package", "class"⟩, "client", none⟩ [] ⟨1⟩ hasty
  exact ⟨hq, hb, hc, (hr hb).1, hh, v, hv, ho v (by decide) hv⟩

end World
end MediaLink
