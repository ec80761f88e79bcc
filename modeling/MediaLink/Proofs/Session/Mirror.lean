import MediaLink.Proofs.Session.Consistency
import MediaLink.Proofs.Session.History
import MediaLink.Proofs.Subscription.Rebuild

/-! What a provider has been told during an attempt adds up to the subscriptions of the session. -/
namespace MediaLink

/-- What hearing a call makes of a provider's own registry. -/
def Registry.hear (r : Registry Unit) : Call → Registry Unit
  | .add _ node options => r.add (node, options)
  | .remove _ node options => r.erase node options
  | .connect _ | .disconnect _ => r

namespace Act

variable {κ : Type}

/-- The provider and the call, if the act tells it about a subscription in the given attempt. -/
def edit? (token : Token) : Act κ → Option (Provider × Call)
  | .call p (.add t node options) _ => if t = token then some (p, .add t node options) else none
  | .call p (.remove t node options) _ =>
    if t = token then some (p, .remove t node options) else none
  | _ => none

theorem IsReport.no_edit {a : Act κ} (h : a.IsReport) (token : Token) : a.edit? token = none := by
  cases a <;> simp_all [IsReport, edit?]

end Act

namespace World

variable {κ : Type} {ds : List Deed} {u v w : World κ}

/-- Every call of an attempt that was about a subscription, oldest first, whatever it returned. -/
def edits (token : Token) (w : World κ) : List (Provider × Call) := w.recorded (Act.edit? token)

/-- The registry that a provider has after the calls of an attempt. -/
def mirror (token : Token) (w : World κ) : Registry Unit :=
  (w.edits token).foldl (fun r edit => r.hear edit.2) .empty

theorem edits_same (acts : List (Act κ)) (h : v.history = acts ++ u.history)
    (ha : ∀ a ∈ acts, ∀ token, a.edit? token = none) (token : Token) :
    v.edits token = u.edits token :=
  recorded_same acts h fun a hm => ha a hm token

theorem mirror_append {edits : List (Provider × Call)} {token : Token}
    (h : v.edits token = u.edits token ++ edits) :
    v.mirror token = edits.foldl (fun r edit => r.hear edit.2) (u.mirror token) := by
  rw [mirror, h, List.foldl_append, ← mirror]

theorem mirror_same {token : Token} (h : v.edits token = u.edits token) :
    v.mirror token = u.mirror token := by
  rw [mirror, h, mirror]

theorem unbinding_no_edit {s : Session κ} {a : Act κ} (h : a ∈ unbinding s) (token : Token) :
    a.edit? token = none := by
  obtain ⟨_, rfl⟩ := mem_unbinding h
  rfl

/-- While an attempt waits its provider has heard nothing, and once it is connected the provider
that is held knows every subscription. -/
structure Mirrored (w : World κ) : Prop where
  subscriptions : w.session.subscriptions.Sound
  unmade : ∀ token, w.tokens < token.serial → w.edits token = []
  connecting : w.session.phase = .connecting → ∀ token, w.session.attempt = some token →
    w.edits token = []
  connected : w.session.phase = .connected → ∀ token, w.session.attempt = some token →
    w.mirror token = w.session.subscriptions.outline ∧
      ∀ edit ∈ w.edits token, w.session.provider = some edit.1

theorem mirrored_create (setting : Setting) : (create (κ := κ) setting).Mirrored :=
  ⟨Registry.sound_empty, fun _ _ => rfl, fun _ _ _ => rfl, by simp [create, remark]⟩

theorem mirrored_frame (loop : Loop) (handles : Nat) (h : w.Mirrored) :
    Mirrored { w with loop, handles } :=
  ⟨h.subscriptions, h.unmade, h.connecting, h.connected⟩

/-- Nobody heard about a subscription, and the attempt is as it was. -/
theorem Mirrored.same (h : u.Mirrored) (he : ∀ token, v.edits token = u.edits token)
    (hs : v.session = u.session) (ht : v.tokens = u.tokens) : v.Mirrored := by
  refine ⟨hs ▸ h.subscriptions, ?_, ?_, ?_⟩
  · intro token hm
    rw [he]
    exact h.unmade token (ht ▸ hm)
  · intro hp token ha
    rw [he]
    exact h.connecting (hs ▸ hp) token (hs ▸ ha)
  · intro hp token ha
    rw [mirror_same (he token), he, hs]
    exact h.connected (hs ▸ hp) token (hs ▸ ha)

/-- Nobody heard about a subscription, and no attempt is alive. -/
theorem Mirrored.ended (h : u.Mirrored) (he : ∀ token, v.edits token = u.edits token)
    (hs : v.session.subscriptions = u.session.subscriptions) (ht : v.tokens = u.tokens)
    (ha : v.session.attempt = none) : v.Mirrored := by
  refine ⟨hs ▸ h.subscriptions, fun token hm => ?_, by simp [ha], by simp [ha]⟩
  rw [he]
  exact h.unmade token (ht ▸ hm)

/-- Nobody heard about a subscription, and a new attempt has begun. -/
theorem Mirrored.started (h : u.Mirrored) (he : ∀ token, v.edits token = u.edits token)
    (hs : v.session.subscriptions = u.session.subscriptions) (ht : v.tokens = u.tokens + 1)
    (hp : v.session.phase = .connecting) (ha : v.session.attempt = some u.nextToken) :
    v.Mirrored := by
  refine ⟨hs ▸ h.subscriptions, ?_, ?_, by simp [hp]⟩
  · intro token hm
    rw [he]
    exact h.unmade token (by omega)
  · intro _ token hv
    rw [he, ← Option.some.inj (ha.symm.trans hv)]
    exact h.unmade _ (by simp [nextToken])

theorem mirrored_ask (h : w.Mirrored) (p : Provider) (token : Token)
    (failure : Option RemoteFault) (hp : w.session.phase = .connecting) :
    (w.ask p token failure).Mirrored := by
  have he : ∀ other, (w.ask p token failure).edits other = w.edits other :=
    edits_same [_] rfl (by simp [Act.edit?])
  refine ⟨h.subscriptions, ?_, ?_, by simp [ask, hp]⟩
  · intro other hm
    rw [he]
    exact h.unmade other hm
  · intro _ other ha
    rw [he]
    exact h.connecting hp other ha

theorem mirrored_failAttempt (h : w.Mirrored) : w.failAttempt.Mirrored := by
  rw [failAttempt_eq]
  refine h.ended (edits_same (.connection .failed w.session.attempt ::
    unbinding w.session) rfl ?_) rfl rfl rfl
  intro a ha
  rcases List.mem_cons.mp ha with rfl | ha
  · exact fun _ => rfl
  · exact unbinding_no_edit ha

/-- A change of the subscriptions that the provider, if there is one, is told about. -/
theorem mirrored_tell (hs : w.Sound) (h : w.Mirrored) (call : Token → Call)
    (he : ∀ p token failure other, (Act.call (κ := κ) p (call token) failure).edit? other =
      if token = other then some (p, call token) else none)
    {subscriptions : Registry κ} (hr : subscriptions.Sound)
    (hc : ∀ token, w.session.subscriptions.outline.hear (call token) = subscriptions.outline)
    (failure : Option RemoteFault) :
    ((w.withSubscriptions subscriptions).tell call failure).Mirrored := by
  have hh : ((w.withSubscriptions subscriptions).tell call failure).history =
      telling call failure w.session ++ w.history := rfl
  cases hl : w.session.live? with
  | none =>
    have hv : ∀ token, ((w.withSubscriptions subscriptions).tell call failure).edits token =
        w.edits token := edits_same _ hh (by simp [telling, hl])
    refine ⟨hr, ?_, ?_, ?_⟩
    · intro token hm
      rw [hv]
      exact h.unmade token hm
    · intro hp token ha
      rw [hv]
      exact h.connecting hp token ha
    · intro hp
      obtain ⟨p, token, hsome⟩ := hs.consistent.live hp
      rw [hl] at hsome
      cases hsome
  | some live =>
    obtain ⟨p, token⟩ := live
    obtain ⟨hp, hp', ha⟩ := Session.live?_eq_some.mp hl
    have hv : ∀ other, ((w.withSubscriptions subscriptions).tell call failure).edits other =
        w.edits other ++ if token = other then [(p, call token)] else [] := by
      intro other
      rw [edits, recorded_append hh, ← edits]
      by_cases ho : token = other <;> simp [telling, hl, he, ho]
    refine ⟨hr, ?_, fun hq => ?_, ?_⟩
    · intro other hm
      have hne : token ≠ other := by
        rintro rfl
        have := hs.attempt_made token ha
        simp only [tell, withSubscriptions] at hm
        omega
      simpa [hv, hne] using h.unmade other hm
    · cases hp.symm.trans hq
    · intro _ other ho
      obtain rfl : token = other := Option.some.inj (ha.symm.trans ho)
      obtain ⟨hm, hed⟩ := h.connected hp token ha
      refine ⟨?_, ?_⟩
      · rw [mirror_append (hv token), hm, if_pos rfl]
        exact hc token
      · intro edit hedit
        rw [hv] at hedit
        rcases List.mem_append.mp hedit with hedit | hedit
        · exact hed edit hedit
        · simp only [if_true, List.mem_singleton] at hedit
          rw [hedit]
          exact hp'

theorem replayed_edits {t : Transport} {s : Session κ} {p : Provider} {token : Token}
    (h : s.live? = some (p, token)) : (replayed t s).filterMap (Act.edit? token) =
      s.subscriptions.replay.map fun (node, options) => (p, .add token node options) := by
  simp [replayed, h, List.filterMap_map, Function.comp_def, Act.edit?]

theorem replayed_edits_other {t : Transport} {s : Session κ} {p : Provider}
    {token other : Token} (h : s.live? = some (p, token)) (hne : token ≠ other) :
    (replayed t s).filterMap (Act.edit? other) = [] := by
  simp [replayed, h, List.filterMap_map, Function.comp_def, Act.edit?, hne]

/-- The provider of a session that has just been accepted hears of every subscription. -/
theorem mirrored_accept (hs : u.Sound) (h : u.Mirrored) {t : Transport} {p : Provider}
    {token : Token} {notice before : Act κ} (hu : u.session.phase = .connecting)
    (ha : u.session.attempt = some token) (hl : v.session.live? = some (p, token))
    (hsub : v.session.subscriptions = u.session.subscriptions) (ht : v.tokens = u.tokens)
    (hh : v.history = notice :: ((replayed t v.session).reverse ++ before :: u.history))
    (hn : ∀ other, notice.edit? other = none) (hb : ∀ other, before.edit? other = none) :
    v.Mirrored := by
  have he : ∀ other, v.edits other = u.edits other ++
      (replayed t v.session).filterMap (Act.edit? other) := by
    intro other
    simp [edits, recorded, hh, hn, hb]
  obtain ⟨hp, hp', hv⟩ := Session.live?_eq_some.mp hl
  refine ⟨hsub ▸ h.subscriptions, fun other hm => ?_, fun hc => ?_, fun _ other ho => ?_⟩
  · have hne : token ≠ other := by
      rintro rfl
      have := hs.attempt_made token ha
      omega
    rw [he, replayed_edits_other hl hne, List.append_nil]
    exact h.unmade other (ht ▸ hm)
  · cases hp.symm.trans hc
  · obtain rfl : token = other := Option.some.inj (hv.symm.trans ho)
    have hv : v.edits token = v.session.subscriptions.replay.map
        fun (node, options) => (p, .add token node options) := by
      rw [he, h.connecting hu token ha, replayed_edits hl, List.nil_append]
    refine ⟨?_, fun edit hm => ?_⟩
    · rw [mirror, hv, List.foldl_map]
      exact (hsub ▸ h.subscriptions).rebuild
    · rw [hv] at hm
      obtain ⟨_, -, rfl⟩ := List.mem_map.mp hm
      exact hp'

theorem mirrored_move (hm : Move ds u v) (hs : u.Sound) (h : u.Mirrored) : v.Mirrored := by
  cases hm with
  | aside => exact h.same (fun _ => rfl) rfl rfl
  | hear => exact h.same (fun _ => rfl) rfl rfl
  | report _ ha => exact h.same (edits_same [_] rfl (by simpa using ha.no_edit)) rfl rfl
  | close => exact h.same (fun _ => rfl) rfl rfl
  | insert _ node options callback failure =>
    exact mirrored_tell hs h (.add · node options) (fun _ _ _ _ => rfl)
      (h.subscriptions.insert ..) (fun _ => Registry.insert_outline ..) failure
  | @erase _ node options key callback failure hf =>
    refine mirrored_tell hs h (.remove · node key.options) (fun _ _ _ _ => rfl)
      (h.subscriptions.erase ..) (fun _ => ?_) failure
    -- The provider is told the stored options, which denote the same subscription.
    rw [← Registry.erase_stored hf]
    exact Registry.erase_outline ..
  | begin granted hp =>
    exact h.started (edits_same [_, _] rfl (by simp [Act.edit?])) rfl rfl rfl rfl
  | letGo hp =>
    rw [release_eq]
    exact h.ended (edits_same _ rfl fun _ => unbinding_no_edit) rfl rfl rfl
  | leave _ failure =>
    exact h.ended (edits_same (unbinding u.session ++
      (farewell failure u.session ++ [.tornDown u.session.phase])) (by simp)
      (forall_leaving (fun _ _ => rfl) (fun _ _ _ => rfl) fun _ => rfl)) rfl rfl rfl
  | abort => exact mirrored_failAttempt h
  | @fail _ e rest =>
    exact mirrored_failAttempt (w := { u with queue := rest }) (h.same (fun _ => rfl) rfl rfl)
  | ignore => exact h.same (fun _ => rfl) rfl rfl
  | suspend =>
    exact h.ended (edits_same [_] rfl (by simp [Act.edit?])) rfl rfl rfl
  | @reach _ e rest p token failure hq hv =>
    exact mirrored_ask (w := { u with queue := rest }) (h.same (fun _ => rfl) rfl rfl) p token
      failure (Session.verdict_reach hv).1
  | restore failure hq hv =>
    exact h.started (edits_same [_, _] rfl (by simp [Act.edit?])) rfl rfl rfl rfl
  | @accept _ e rest sink reply token news t hq hv =>
    obtain ⟨rfl, hp, ha, hr⟩ := Session.verdict_accept hv
    have hp' := hs.asked sink (hs.queued sink _ (by rw [hq]; exact List.mem_cons_self)) ha
    obtain ⟨p, hp'⟩ := Option.isSome_iff_exists.mp hp'
    exact mirrored_accept hs h hp ha (Session.live?_eq_some.mpr ⟨rfl, hp', ha⟩) rfl rfl rfl
      (fun _ => rfl) (fun _ => rfl)

theorem mirrored_reachable (setting : Setting) (steps : List (Step κ)) :
    ((create setting).run steps).Mirrored := by
  have h : ((create setting).run steps).Sound ∧ ((create setting).run steps).Mirrored := by
    apply run_keep (P := fun w => w.Sound ∧ w.Mirrored)
    · exact ⟨sound_create setting, mirrored_create setting⟩
    · intro w loop handles h
      exact ⟨sound_frame loop handles h.1, mirrored_frame loop handles h.2⟩
    · intro ds u v hm h
      exact ⟨sound_move hm h.1, mirrored_move hm h.1 h.2⟩
  exact h.2

/-- While a session is connected, the provider that it holds has heard of exactly its
subscriptions, in their order, and nobody else has heard of any during this attempt. -/
theorem mirror_replay_reachable (setting : Setting) (steps : List (Step κ)) (token : Token)
    (hp : ((create setting).run steps).session.phase = .connected)
    (ha : ((create setting).run steps).session.attempt = some token) :
    (((create setting).run steps).mirror token).replay =
        ((create setting).run steps).session.subscriptions.replay ∧
      ∀ p call, (p, call) ∈ ((create setting).run steps).edits token →
        ((create setting).run steps).session.provider = some p := by
  obtain ⟨hm, he⟩ := (mirrored_reachable setting steps).connected hp token ha
  constructor
  · rw [hm]
    exact Registry.replay_outline _
  · intro p call h
    exact he (p, call) h

/-- A subscription that was made offline, made again under another spelling of its options, and
one that was given up again. -/
theorem mirror_replay_respelled :
    let w : World Unit := (create ⟨⟨"package", "class"⟩, "client", none⟩).run [
      .subscribe .prompt "node" (some .empty) (), .connect .prompt, .turn .prompt,
      .finish .prompt, .turn .prompt, .subscribe .prompt "node" none (),
      .subscribe .prompt "leaf" none (), .unsubscribe .prompt "leaf" (some .empty)]
    w.session.phase = .connected ∧ w.session.attempt = some ⟨1⟩ ∧
      (w.mirror ⟨1⟩).replay = w.session.subscriptions.replay ∧
      w.session.subscriptions.replay = [("node", some .empty)] ∧
      ∀ p call, (p, call) ∈ w.edits ⟨1⟩ → w.session.provider = some p :=
  have h := mirror_replay_reachable (κ := Unit) ⟨⟨"package", "class"⟩, "client", none⟩ [
    .subscribe .prompt "node" (some .empty) (), .connect .prompt, .turn .prompt,
    .finish .prompt, .turn .prompt, .subscribe .prompt "node" none (),
    .subscribe .prompt "leaf" none (), .unsubscribe .prompt "leaf" (some .empty)] ⟨1⟩ rfl rfl
  ⟨rfl, rfl, h.1, rfl, h.2⟩

end World
end MediaLink
