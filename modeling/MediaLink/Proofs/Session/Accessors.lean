import MediaLink.Proofs.Session.Durability
import MediaLink.Proofs.Session.Outcomes
import Mathlib.Data.List.Basic

/-! What a session says about its connection is what the attempt that is alive was told first. -/
namespace MediaLink

variable {κ : Type}

/-- The reply to an attempt, if the event is one. -/
def Event.reply? (token : Token) : Event κ → Option Reply
  | .provider sink (.accepted reply) => if sink.token = token then some reply else none
  | _ => none

/-- The first reply to an attempt among some events, the oldest of which comes first. -/
def firstReply? (token : Token) (events : List (Event κ)) : Option Reply :=
  events.findSome? (Event.reply? token)

theorem firstReply?_snoc (token : Token) (events : List (Event κ)) (e : Event κ) :
    firstReply? token (events ++ [e]) = (firstReply? token events).or (e.reply? token) := by
  simp [firstReply?, List.findSome?_append]

/-- Every event that a provider posts when it accepts is a reply to its attempt. -/
theorem Event.reply?_accepted (sink : ProviderSink) (reply : Reply) (token : Token) :
    Event.reply? (κ := κ) token (.provider sink (.accepted reply)) =
      if sink.token = token then some reply else none := rfl

theorem Event.reply?_eq_none {e : Event κ} (h : ∀ sink reply, e ≠ .provider sink (.accepted reply))
    (token : Token) : e.reply? token = none := by
  cases e with
  | provider sink note =>
    cases note with
    | accepted reply => exact absurd rfl (h sink reply)
    | refused => rfl
    | children => rfl
  | _ => rfl

namespace World

variable {ds : List Deed} {u v w : World κ} {t : Transport} {e : Event κ} {s : Step κ}
  {events : List (Event κ)}

/-- The event that a step handles, if any. -/
def handled? (w : World κ) : Step κ → Option (Event κ)
  | .turn _ => w.next?
  | _ => none

/-- The events that a run handles, in order. -/
def handlings (w : World κ) : List (Step κ) → List (Event κ)
  | [] => []
  | s :: steps => (w.handled? s).toList ++ (w.step s).handlings steps

theorem handlings_snoc (w : World κ) (steps : List (Step κ)) (s : Step κ) :
    w.handlings (steps ++ [s]) = w.handlings steps ++ ((w.run steps).handled? s).toList := by
  induction steps generalizing w with
  | nil => simp [handlings, run]
  | cons a steps ih =>
    have hr : w.run (a :: steps) = (w.step a).run steps := rfl
    simp only [List.cons_append, handlings, ih, hr, List.append_assoc]

theorem handled?_eq_some (h : w.handled? s = some e) : ∃ t, s = .turn t ∧ w.next? = some e := by
  cases s with
  | turn t => exact ⟨t, rfl, h⟩
  | _ => cases h

/-! A reply and what becomes of the session. -/

theorem replay_session (hl : w.loop ≠ .closed) : (w.replay t).session = w.session := by
  obtain ⟨news, remarks, hr, -⟩ := moves_replay (t := t) hl rfl
  rw [hr]
  rfl

/-- A reply counts once, for the attempt that waits for it, and only if it is complete. -/
theorem accepted_session (hl : w.loop ≠ .closed) (sink : ProviderSink) (reply : Reply) :
    (w.handle t (.provider sink (.accepted reply))).session =
      if w.session.isCurrent sink.token ∧ w.session.phase = .connecting then
        if reply.root ≠ "" ∧ reply.sessionToken ≠ "" then
          w.session.complete reply.root ⟨reply.sessionToken⟩ reply.extras
        else w.session.reset
      else w.session := by
  by_cases hc : w.session.isCurrent sink.token
  · have hh : w.handle t (.provider sink (.accepted reply)) = w.onAccepted t sink reply :=
      if_pos hc
    rw [hh]
    by_cases hp : w.session.phase = .connecting
    · simp only [onAccepted, hc, hp, and_self, if_true, ne_eq, not_true_eq_false, if_false,
        SessionToken.make]
      by_cases ht : reply.sessionToken = ""
      · simp [ht, failAttempt_eq, remark]
      · by_cases hr : reply.root = ""
        · simp [ht, hr, failAttempt_eq, remark]
        · simp only [ht, hr, if_false, not_false_eq_true, and_self, if_true, notify, act]
          exact replay_session hl
    · simp [onAccepted, hp, remark]
  · simp only [handle, ifCurrent, hc, Bool.false_eq_true, if_false, false_and]
    split <;> rfl

theorem turn_accepted (t : Transport) {sink : ProviderSink} {reply : Reply}
    (hn : w.next? = some (.provider sink (.accepted reply))) :
    (w.turn t).session =
      if w.session.isCurrent sink.token ∧ w.session.phase = .connecting then
        if reply.root ≠ "" ∧ reply.sessionToken ≠ "" then
          w.session.complete reply.root ⟨reply.sessionToken⟩ reply.extras
        else w.session.reset
      else w.session := by
  obtain ⟨rest, remarks, -, ht⟩ := turn_next t hn
  rw [ht]
  exact accepted_session (by simp) sink reply

theorem connected_accepted (t : Transport) {sink : ProviderSink} {reply : Reply}
    (hn : w.next? = some (.provider sink (.accepted reply))) :
    w.session.phase ≠ .connected ∧ (w.turn t).session.phase = .connected ↔
      w.session.isCurrent sink.token ∧ w.session.phase = .connecting ∧
        reply.root ≠ "" ∧ reply.sessionToken ≠ "" := by
  rw [turn_accepted t hn]
  by_cases hc : w.session.isCurrent sink.token ∧ w.session.phase = .connecting
  · rw [if_pos hc]
    by_cases hr : reply.root ≠ "" ∧ reply.sessionToken ≠ ""
    · simp [hr, hc, Session.complete]
    · rw [if_neg hr]
      simp only [Session.reset, reduceCtorEq, and_false, false_iff]
      exact fun h => hr h.2.2
  · rw [if_neg hc]
    exact ⟨fun h => absurd h.2 h.1, fun h => absurd ⟨h.1, h.2.1⟩ hc⟩

/-! Without a reply. -/

/-- An attempt that began before is alive only if it was, and then it waits or is connected as it
did and was before, unless a reply came meanwhile. -/
structure Lasting (u v : World κ) : Prop where
  tokens : u.tokens ≤ v.tokens
  lasts : ∀ token, token.serial ≤ u.tokens → v.session.attempt = some token →
    u.session.attempt = some token ∧
      (v.session.phase = .connecting → u.session.phase = .connecting) ∧
      (v.session.phase = .connected → u.session.phase = .connecting ∨
        u.session.phase = .connected ∧ v.session.root = u.session.root ∧
          v.session.sessionToken = u.session.sessionToken ∧ v.session.extras = u.session.extras)

namespace Lasting

theorem trans (h : Lasting u v) (hs : Lasting v w) : Lasting u w := by
  refine ⟨Nat.le_trans h.tokens hs.tokens, fun token ht hw => ?_⟩
  obtain ⟨hv, hcv, hkv⟩ := hs.lasts token (Nat.le_trans ht h.tokens) hw
  obtain ⟨hu, hcu, hku⟩ := h.lasts token ht hv
  refine ⟨hu, fun hp => hcu (hcv hp), fun hp => ?_⟩
  rcases hkv hp with hp | ⟨hp, hr, hst, hx⟩
  · exact .inl (hcu hp)
  · refine (hku hp).imp_right fun ⟨hp, hr', hst', hx'⟩ => ?_
    exact ⟨hp, hr.trans hr', hst.trans hst', hx.trans hx'⟩

theorem same (ht : v.tokens = u.tokens) (hp : v.session.phase = u.session.phase)
    (ha : v.session.attempt = u.session.attempt) (hr : v.session.root = u.session.root)
    (hst : v.session.sessionToken = u.session.sessionToken)
    (hx : v.session.extras = u.session.extras) : Lasting u v :=
  ⟨Nat.le_of_eq ht.symm, fun _ _ hv =>
    ⟨ha ▸ hv, fun h => hp ▸ h, fun h => .inr ⟨hp ▸ h, hr, hst, hx⟩⟩⟩

theorem ended (ht : v.tokens = u.tokens) (ha : v.session.attempt = none) : Lasting u v :=
  ⟨Nat.le_of_eq ht.symm, fun _ _ hv => by cases ha.symm.trans hv⟩

theorem begun (ht : v.tokens = u.tokens + 1) (ha : v.session.attempt = some u.nextToken) :
    Lasting u v := by
  refine ⟨by omega, fun token hs hv => ?_⟩
  obtain rfl := Option.some.inj (hv.symm.trans ha)
  simp only [nextToken] at hs
  omega

end Lasting

theorem lasting_move (hm : Move ds u v) : Lasting u v := by
  cases hm with
  | begin => exact .begun rfl rfl
  | restore => exact .begun rfl rfl
  | letGo =>
    rw [release_eq]
    exact .ended rfl rfl
  | leave => exact .ended rfl rfl
  | abort | fail =>
    rw [failAttempt_eq]
    exact .ended rfl rfl
  | suspend => exact .ended rfl rfl
  | accept _ _ hv =>
    obtain ⟨-, hp, -⟩ := Session.verdict_accept hv
    exact ⟨Nat.le_refl _, fun _ _ ha => ⟨ha, fun _ => hp, fun _ => .inl hp⟩⟩
  | aside | hear | report | close | insert | erase | ignore | reach =>
    exact .same rfl rfl rfl rfl rfl rfl

theorem lasting_step (hs : w.Settled) (s : Step κ) : Lasting w (w.step s) := by
  obtain ⟨⟨loop, handles, hm⟩, -⟩ := goes_step hs s
  have hw : Lasting w { w with loop, handles } := .same rfl rfl rfl rfl rfl rfl
  exact hm.keep (fun h hv => hv.trans (lasting_move h)) hw

theorem Move.tokens (h : Move ds u v) : v.tokens = u.tokens + ds.count .start := by
  cases h.course with
  | quiet _ _ ht | letGo _ _ ht | fail _ _ ht | suspend _ _ ht | accept _ _ _ ht => exact ht
  | start _ _ _ ht => exact ht
  | stop _ ht =>
    simp only [Session.stops]
    split <;> exact ht

/-- Tokens are made for the attempts that begin, and for nothing else. -/
theorem Moves.tokens (h : Moves ds u v) : v.tokens = u.tokens + ds.count .start := by
  induction h with
  | refl => rfl
  | head hm _ ih => rw [ih, hm.tokens, List.count_append, Nat.add_assoc]

/-- No attempt begins while there is a connection. -/
theorem start_not_mem_deeds (hp : w.session.phase = .connected) (s : Step κ) :
    .start ∉ w.deeds s := by
  have hstops : .start ∉ w.session.stops := by simp [Session.stops, hp]
  have hif : ∀ (p : Prop) [Decidable p], .start ∉ if p then w.session.stops else [] := by
    intro p _
    split
    · exact hstops
    · simp
  cases s with
  | connect t => simp [deeds, connect, hp, Except.isOk, Except.toBool]
  | disconnect t => exact hif _
  | dropHandle t => exact hif _
  | finish t => exact hif _
  | turn t =>
    have hr : w.next?.any (restores w.session) = false := by
      cases w.next? with
      | none => rfl
      | some e =>
        simp only [Option.any_some]
        unfold restores
        split
        · simp [hp]
        · rfl
    simp [deeds, hr]
  | _ => simp [deeds]

theorem tokens_step (hs : w.Settled) (hp : w.session.phase = .connected) (s : Step κ) :
    (w.step s).tokens = w.tokens := by
  obtain ⟨⟨loop, handles, hm⟩, -⟩ := goes_step hs s
  have ht := hm.tokens
  rwa [List.count_eq_zero.mpr (start_not_mem_deeds hp s)] at ht

/-- Only a reply that accepts makes a connection. -/
theorem connected_before (hs : w.Settled) (h : w.Sound) (hr : w.session.subscriptions.Sound)
    (hn : ∀ sink reply, w.handled? s ≠ some (.provider sink (.accepted reply)))
    (hv : (w.step s).session.phase = .connected) : w.session.phase = .connected := by
  rcases step_heeded_or_entered hs h hr s with hh | ⟨t, sink, reply, p, rfl, -, -⟩
  · exact hh.phase hv
  · have ht : Turned t w (w.step (.turn t)) := w.turned t
    generalize w.step (.turn t) = v at ht hv
    cases ht with
    | busy | idle | ended => exact hv
    | @handled e rest remarks he =>
      have hh : Steady { w with loop := .handling, queue := rest, remarks }
          (handle t { w with loop := .handling, queue := rest, remarks } e) :=
        steady_handle fun sink reply ha => hn sink reply (ha ▸ he)
      exact hh.phase hv

/-! Runs. -/

/-- The attempt that waits had no reply so far, and the one that is connected shows its first. -/
structure Answered (events : List (Event κ)) (w : World κ) : Prop where
  made : ∀ token reply, firstReply? token events = some reply → token.serial ≤ w.tokens
  waiting : w.session.phase = .connecting → ∀ token, w.session.attempt = some token →
    firstReply? token events = none
  first : w.session.phase = .connected → ∀ token, w.session.attempt = some token →
    ∃ reply, firstReply? token events = some reply ∧ w.session.root = some reply.root ∧
      w.session.sessionToken = some ⟨reply.sessionToken⟩ ∧ w.session.extras = reply.extras

theorem answered_create (setting : Setting) : (create (κ := κ) setting).Answered [] := by
  constructor <;> simp [create, remark, firstReply?]

/-- A step that handles no reply. -/
theorem Answered.lull (h : u.Answered events) {later : List (Event κ)}
    (he : ∀ token, firstReply? token later = firstReply? token events) (hl : Lasting u v)
    (hv : ∀ token, v.session.attempt = some token → token.serial ≤ v.tokens)
    (hp : v.session.phase = .connected → u.session.phase = .connected ∧ v.tokens = u.tokens) :
    v.Answered later := by
  refine ⟨fun token reply hr => ?_, fun hc token ha => ?_, fun hc token ha => ?_⟩
  · rw [he] at hr
    exact Nat.le_trans (h.made token reply hr) hl.tokens
  · rw [he]
    cases hr : firstReply? token events with
    | none => rfl
    | some reply =>
      -- An attempt that had a reply is not new.
      obtain ⟨hu, hw, -⟩ := hl.lasts token (h.made token reply hr) ha
      cases (h.waiting (hw hc) token hu).symm.trans hr
  · obtain ⟨hu, ht⟩ := hp hc
    obtain ⟨ha, -, hk⟩ := hl.lasts token (ht ▸ hv token ha) ha
    rcases hk hc with hk | ⟨-, hr, hst, hx⟩
    · cases hk.symm.trans hu
    · rw [he, hr, hst, hx]
      exact h.first hu token ha

/-- A step that handles a reply. -/
theorem Answered.reply (h : u.Answered events) {sink : ProviderSink} {reply : Reply}
    (hm : sink.token.serial ≤ u.tokens) (ht : u.tokens ≤ v.tokens)
    (hv : v.session =
      if u.session.isCurrent sink.token ∧ u.session.phase = .connecting then
        if reply.root ≠ "" ∧ reply.sessionToken ≠ "" then
          u.session.complete reply.root ⟨reply.sessionToken⟩ reply.extras
        else u.session.reset
      else u.session) :
    v.Answered (events ++ [.provider sink (.accepted reply)]) := by
  have hmade : ∀ token r,
      firstReply? token (events ++ [.provider sink (.accepted reply)]) = some r →
        token.serial ≤ v.tokens := by
    intro token r hr
    rw [firstReply?_snoc, Option.or_eq_some_iff] at hr
    rcases hr with hr | ⟨-, hr⟩
    · exact Nat.le_trans (h.made token r hr) ht
    · rw [Event.reply?_accepted] at hr
      split at hr
      · rename_i hs
        exact hs ▸ Nat.le_trans hm ht
      · cases hr
  by_cases hc : u.session.isCurrent sink.token ∧ u.session.phase = .connecting
  · have ha : u.session.attempt = some sink.token := by simpa [Session.isCurrent] using hc.1
    rw [if_pos hc] at hv
    by_cases hr : reply.root ≠ "" ∧ reply.sessionToken ≠ ""
    · rw [if_pos hr] at hv
      refine ⟨hmade, by simp [hv, Session.complete], fun _ token htoken => ⟨reply, ?_, ?_⟩⟩
      · have hs : sink.token = token := by
          rw [hv] at htoken
          exact Option.some.inj (ha.symm.trans htoken)
        rw [firstReply?_snoc, ← hs, h.waiting hc.2 _ ha, Event.reply?_accepted, if_pos rfl]
        rfl
      · simp [hv, Session.complete]
    · rw [if_neg hr] at hv
      refine ⟨hmade, ?_, ?_⟩ <;> simp [hv, Session.reset]
  · rw [if_neg hc] at hv
    refine ⟨hmade, fun hp token ha => ?_, fun hp token ha => ?_⟩
    · rw [hv] at hp ha
      have hs : sink.token ≠ token := by
        rintro rfl
        exact hc ⟨by simp [Session.isCurrent, ha], hp⟩
      rw [firstReply?_snoc, h.waiting hp token ha, Event.reply?_accepted, if_neg hs]
      rfl
    · rw [hv] at hp ha
      obtain ⟨first, hf, hx⟩ := h.first hp token ha
      refine ⟨first, ?_, by rwa [hv]⟩
      rw [firstReply?_snoc, hf]
      rfl

theorem answered_step (hs : w.Settled) (hw : w.Sound) (hr : w.session.subscriptions.Sound)
    (hv : (w.step s).Sound) (h : w.Answered events) :
    (w.step s).Answered (events ++ (w.handled? s).toList) := by
  by_cases he : ∃ sink reply, w.handled? s = some (.provider sink (.accepted reply))
  · obtain ⟨sink, reply, he⟩ := he
    obtain ⟨t, rfl, hn⟩ := handled?_eq_some he
    obtain ⟨-, -, -, rest, hq⟩ := next?_eq_some.mp hn
    have hm := hw.sink_made sink (hw.queued sink _ (by rw [hq]; exact List.mem_cons_self))
    rw [he]
    exact h.reply hm (ages_step hs _).tokens (turn_accepted t hn)
  · have hn : ∀ sink reply, w.handled? s ≠ some (.provider sink (.accepted reply)) :=
      fun sink reply hs => he ⟨sink, reply, hs⟩
    refine h.lull (fun token => ?_) (lasting_step hs s) hv.attempt_made fun hp => ?_
    · cases hq : w.handled? s with
      | none => simp
      | some e =>
        have ha : ∀ sink reply, e ≠ .provider sink (.accepted reply) :=
          fun sink reply ha => hn sink reply (ha ▸ hq)
        simp [firstReply?_snoc, Event.reply?_eq_none ha]
    · have hc := connected_before hs hw hr hn hp
      exact ⟨hc, tokens_step hs hc s⟩

theorem answered_reachable (setting : Setting) (steps : List (Step κ)) :
    Answered ((create setting).handlings steps) ((create setting).run steps) := by
  refine run_induction (P := fun steps w => w.Answered ((create setting).handlings steps))
    (answered_create setting) (fun steps s ih => ?_) steps
  rw [handlings_snoc]
  have hv := sound_reachable setting (steps ++ [s])
  rw [run_append] at hv
  exact answered_step (settled_run (settled_create setting) steps)
    (sound_reachable setting steps) (mirrored_reachable setting steps).subscriptions hv ih

theorem Move.setting (h : Move ds u v) : v.setting = u.setting := by
  cases h <;> simp [release_eq, failAttempt_eq, tell, withSubscriptions, act, notify, ask,
    startAttempt]

theorem setting_run (setting : Setting) (steps : List (Step κ)) :
    ((create setting).run steps).setting = setting :=
  run_keep (P := fun w => w.setting = setting) rfl (fun _ _ h => h)
    (fun hm h => hm.setting.trans h) steps

/-- The requests that were sent out, oldest first. -/
def sentOut (w : World κ) : List Request := w.recorded (Act.request? w.setting)

/-- In every run, what is sent out names the component, the client and the hints that the session
was created with. -/
theorem sentOut_configured (setting : Setting) (steps : List (Step κ)) :
    ∀ r ∈ ((create setting).run steps).sentOut, ∃ token,
      r = .bind (setting.bindRequest token) ∨
        ∃ provider, r = .connect provider (setting.connectRequest token) := by
  intro r hr
  rw [sentOut, setting_run, recorded, List.mem_reverse, List.mem_filterMap] at hr
  obtain ⟨a, -, ha⟩ := hr
  unfold Act.request? at ha
  split at ha
  case h_1 token _ => exact ⟨token, .inl (Option.some.inj ha).symm⟩
  case h_2 provider token _ => exact ⟨token, .inr ⟨provider, (Option.some.inj ha).symm⟩⟩
  case h_3 => cases ha

/-- Without a connection there is nothing to say. -/
theorem accessors_untimely (hp : w.session.phase ≠ .connected) :
    w.root = .error (.untimely "root" w.session.phase) ∧
      w.sessionToken = .error (.untimely "session_token" w.session.phase) ∧
      w.extras = .error (.untimely "extras" w.session.phase) ∧
      w.component = .error (.untimely "service_component" w.session.phase) := by
  simp [root, sessionToken, extras, component, Session.whenConnected, hp, Except.bind]

/-- In every run, a reply that accepts makes a connection exactly if the attempt is alive and waits
for it and the reply names a root and a session token. While connected, the session shows what the
first reply to the attempt that is alive said, and the configured component; otherwise everything
that could be asked about the connection fails and names the phase. -/
theorem accessors_current_reachable (setting : Setting) (steps : List (Step κ)) :
    let w := (create setting).run steps
    (∀ t sink reply, w.next? = some (.provider sink (.accepted reply)) →
      (w.session.phase ≠ .connected ∧ (w.turn t).session.phase = .connected ↔
        w.session.isCurrent sink.token ∧ w.session.phase = .connecting ∧
          reply.root ≠ "" ∧ reply.sessionToken ≠ "")) ∧
    (w.session.phase = .connected → ∃ token reply, w.session.attempt = some token ∧
      firstReply? token ((create setting).handlings steps) = some reply ∧
      w.root = .ok reply.root ∧ w.sessionToken = .ok ⟨reply.sessionToken⟩ ∧
      w.extras = .ok reply.extras ∧ w.component = .ok setting.component) ∧
    (w.session.phase ≠ .connected →
      w.root = .error (.untimely "root" w.session.phase) ∧
      w.sessionToken = .error (.untimely "session_token" w.session.phase) ∧
      w.extras = .error (.untimely "extras" w.session.phase) ∧
      w.component = .error (.untimely "service_component" w.session.phase)) := by
  intro w
  refine ⟨fun t sink reply hn => connected_accepted t hn, fun hp => ?_, accessors_untimely⟩
  have h : w.Answered ((create setting).handlings steps) := answered_reachable setting steps
  have hc : w.session.Consistent := (sound_reachable setting steps).consistent
  obtain ⟨token, ha⟩ := Option.isSome_iff_exists.mp (hc.connected hp).1
  obtain ⟨reply, hf, hr, hst, hx⟩ := h.first hp token ha
  have hs : w.setting = setting := setting_run setting steps
  refine ⟨token, reply, ha, hf, ?_, ?_, ?_, ?_⟩
  · simp [root, Session.whenConnected, hp, hr]
  · simp [sessionToken, Session.whenConnected, hp, hst, Except.bind]
  · simp [extras, Session.whenConnected, hp, hx]
  · simp [component, Session.whenConnected, hp, hs]

/-- A connection that was suspended and came back, to a provider that now answers otherwise, and
twice. -/
theorem accessors_current_restored :
    let other : Transport :=
      { Transport.prompt with
        call := fun
          | p, .connect token =>
            ⟨none, [.provider ⟨p, token⟩ (.accepted ⟨"tree", "key", some .empty⟩),
              .provider ⟨p, token⟩ (.accepted ⟨"late", "spare", none⟩)]⟩
          | _, _ => {} }
    let setting : Setting := ⟨⟨"package", "class"⟩, "client", none⟩
    let lost : List (Step Unit) := [.connect .prompt, .turn .prompt, .finish .prompt,
      .turn .prompt, .finish .prompt, .post (.binder ⟨1⟩ .unbound), .turn .prompt, .finish .prompt]
    let back := lost ++ [.post (.binder ⟨1⟩ (.bound ⟨0⟩)), .turn other, .finish other]
    let again := back ++ [.turn other, .finish other, .turn other, .finish other]
    ((create setting).run lost).root = .error (.untimely "root" .suspended) ∧
      (((create setting).run back).turn other).session.phase = .connected ∧
      ((create setting).run again).session.attempt = some ⟨2⟩ ∧
      firstReply? ⟨2⟩ ((create setting).handlings again) = some ⟨"tree", "key", some .empty⟩ ∧
      ((create setting).run again).root = .ok "tree" ∧
      ((create setting).run again).extras = .ok (some .empty) := by
  intro other setting lost back again
  have hl : ((create setting).run lost).session.phase = .suspended := by decide
  have hb : ((create setting).run back).next? =
      some (.provider ⟨⟨0⟩, ⟨2⟩⟩ (.accepted ⟨"tree", "key", some .empty⟩)) := by cbv
  have hw : ((create setting).run back).session.phase = .connecting := by decide
  have hc : ((create setting).run back).session.isCurrent ⟨2⟩ := by decide
  have hp : ((create setting).run again).session.phase = .connected := by decide
  have ha : ((create setting).run again).session.attempt = some ⟨2⟩ := by decide
  have hf : firstReply? ⟨2⟩ ((create setting).handlings again) =
      some ⟨"tree", "key", some .empty⟩ := by cbv
  obtain ⟨-, -, hd⟩ := accessors_current_reachable setting lost
  obtain ⟨hr, -, -⟩ := accessors_current_reachable setting back
  obtain ⟨-, hk, -⟩ := accessors_current_reachable setting again
  obtain ⟨token, reply, ht, hr', hroot, -, hext, -⟩ := hk hp
  obtain rfl := Option.some.inj (ha.symm.trans ht)
  obtain rfl := Option.some.inj (hf.symm.trans hr')
  refine ⟨?_, ?_, ha, hf, hroot, hext⟩
  · have hd := (hd (by rw [hl]; simp)).1
    rwa [hl] at hd
  · exact ((hr other _ _ hb).mpr ⟨hc, hw, by simp, by simp⟩).2

end World
end MediaLink
