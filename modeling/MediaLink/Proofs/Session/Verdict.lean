import MediaLink.Session.Event

/-! What an event amounts to, read off the session that it meets. -/
namespace MediaLink

/-- What an event amounts to for the session that it meets. -/
inductive Verdict where
  /-- The session stays as it is. -/
  | ignore
  /-- The attempt is over. -/
  | fail
  | suspend
  /-- The attempt can ask a provider. -/
  | reach (provider : Provider) (token : Token)
  /-- The binding has come back, and a new attempt can ask a provider. -/
  | restore (provider : Provider)
  | accept (sink : ProviderSink) (reply : Reply) (sessionToken : SessionToken)

namespace Session

variable {κ : Type}

/-- What a lost channel amounts to. -/
def loss (s : Session κ) : Verdict :=
  match s.phase with
  | .connecting => .fail
  | .connected => .suspend
  | _ => .ignore

def verdict (s : Session κ) : Event κ → Verdict
  | .bindRefused token | .provider ⟨_, token⟩ .refused =>
    if s.phase = .connecting ∧ s.isCurrent token then .fail else .ignore
  | .binder sink (.bound provider) =>
    if s.holds sink then
      match s.phase, s.attempt with
      | .connecting, some token => .reach provider token
      | .suspended, _ => .restore provider
      | _, _ => .ignore
    else .ignore
  | .binder sink .unbound => if s.holds sink then s.loss else .ignore
  | .provider sink (.accepted reply) =>
    if s.phase = .connecting ∧ s.isCurrent sink.token then
      match SessionToken.make reply.sessionToken with
      | .ok token => if reply.root = "" then .fail else .accept sink reply token
      | .error _ => .fail
    else .ignore
  | .lost token _ => if s.isCurrent token then s.loss else .ignore
  | .provider _ (.children _) | .item .. | .barrier => .ignore

/-- What each verdict says about the session and the event. -/
inductive Judged {κ : Type} (s : Session κ) : Event κ → Verdict → Prop where
  | ignore (e) : Judged s e .ignore
  | fail (e) (h : s.phase = .connecting) : Judged s e .fail
  | suspend (e) (h : s.phase = .connected) : Judged s e .suspend
  | reach (sink p) {token} (h : s.phase = .connecting) (ha : s.attempt = some token) :
      Judged s (.binder sink (.bound p)) (.reach p token)
  | restore (p) {sink} (h : s.phase = .suspended) (hh : s.holds sink) :
      Judged s (.binder sink (.bound p)) (.restore p)
  | accept (token) {sink reply} (h : s.phase = .connecting) (hc : s.isCurrent sink.token)
      (hr : reply.root ≠ "") :
      Judged s (.provider sink (.accepted reply)) (.accept sink reply token)

theorem judged_loss (s : Session κ) (e : Event κ) : s.Judged e s.loss := by
  simp only [loss]
  cases hp : s.phase with
  | connecting => exact .fail e hp
  | connected => exact .suspend e hp
  | disconnected => exact .ignore e
  | suspended => exact .ignore e

theorem judged_refusal (s : Session κ) (e : Event κ) (token : Token) :
    s.Judged e (if s.phase = .connecting ∧ s.isCurrent token then .fail else .ignore) := by
  split
  · rename_i h
    exact .fail e h.1
  · exact .ignore e

theorem judged_bound (s : Session κ) (sink : Token) (p : Provider) :
    s.Judged (.binder sink (.bound p)) (s.verdict (.binder sink (.bound p))) := by
  simp only [verdict]
  split
  · rename_i hh
    split
    · rename_i hp ha
      exact .reach sink p hp ha
    · rename_i hp
      exact .restore p hp hh
    · exact .ignore _
  · exact .ignore _

theorem judged_accepted (s : Session κ) (sink : ProviderSink) (reply : Reply) :
    s.Judged (.provider sink (.accepted reply))
      (s.verdict (.provider sink (.accepted reply))) := by
  simp only [verdict]
  split
  · rename_i h
    cases SessionToken.make reply.sessionToken with
    | error fault => exact .fail _ h.1
    | ok token =>
      by_cases hr : reply.root = ""
      · simpa only [hr, if_true] using .fail _ h.1
      · simpa only [hr, if_false] using .accept token h.1 h.2 hr
  · exact .ignore _

theorem judged (s : Session κ) (e : Event κ) : s.Judged e (s.verdict e) := by
  cases e with
  | bindRefused token => exact judged_refusal ..
  | binder sink note =>
    cases note with
    | bound p => exact judged_bound ..
    | unbound =>
      simp only [verdict]
      split
      · exact judged_loss ..
      · exact .ignore _
  | provider sink note =>
    cases note with
    | accepted reply => exact judged_accepted ..
    | refused => exact judged_refusal ..
    | children batch => exact .ignore _
  | lost token fault =>
    simp only [verdict]
    split
    · exact judged_loss ..
    · exact .ignore _
  | item request mediaId item callback => exact .ignore _
  | barrier => exact .ignore _

variable {s : Session κ} {e : Event κ}

theorem verdict_fail (h : s.verdict e = .fail) : s.phase = .connecting := by
  have hj := s.judged e
  rw [h] at hj
  cases hj
  assumption

theorem verdict_suspend (h : s.verdict e = .suspend) : s.phase = .connected := by
  have hj := s.judged e
  rw [h] at hj
  cases hj
  assumption

theorem verdict_reach {p : Provider} {token : Token} (h : s.verdict e = .reach p token) :
    s.phase = .connecting ∧ s.attempt = some token := by
  have hj := s.judged e
  rw [h] at hj
  cases hj with
  | reach _ _ hp ha => exact ⟨hp, ha⟩

theorem verdict_restore {p : Provider} (h : s.verdict e = .restore p) :
    s.phase = .suspended ∧ ∃ sink, e = .binder sink (.bound p) ∧ s.holds sink := by
  have hj := s.judged e
  rw [h] at hj
  cases hj with
  | restore _ hp hh => exact ⟨hp, _, rfl, hh⟩

theorem verdict_accept {sink : ProviderSink} {reply : Reply} {token : SessionToken}
    (h : s.verdict e = .accept sink reply token) :
    e = .provider sink (.accepted reply) ∧ s.phase = .connecting ∧
      s.attempt = some sink.token ∧ reply.root ≠ "" := by
  have hj := s.judged e
  rw [h] at hj
  cases hj with
  | accept _ hp hc hr => exact ⟨rfl, hp, by simpa [isCurrent] using hc, hr⟩

end Session
end MediaLink
