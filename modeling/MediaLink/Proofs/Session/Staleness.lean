import MediaLink.Proofs.Session.Padding

/-! Stale events do nothing: a run into whose queue they are slipped goes on as if they were not
there. -/
namespace MediaLink.World

variable {κ : Type} {ds : List Deed} {u v w x : World κ} {t : Transport} {e : Event κ}

/-- An attempt that was begun and is not alive. -/
def Over (w : World κ) (token : Token) : Prop :=
  token.serial ≤ w.tokens ∧ ¬ w.session.isCurrent token

/-- A binding that was begun and is not held. -/
def Released (w : World κ) (token : Token) : Prop :=
  token.serial ≤ w.tokens ∧ ¬ w.session.holds token

/-- An event of an attempt that is over, or of a binding that is released. -/
def Stale (w : World κ) : Event κ → Prop
  | .bindRefused token | .lost token _ => w.Over token
  | .provider sink _ => w.Over sink.token
  | .binder sink _ => w.Released sink
  | .item .. | .barrier => False

/-! What is over stays over. -/

/-- A later world: attempts and bindings that were begun before are alive only if they were. -/
structure Ages (u v : World κ) : Prop where
  tokens : u.tokens ≤ v.tokens
  attempt : ∀ token, token.serial ≤ u.tokens → v.session.attempt = some token →
    u.session.attempt = some token
  binding : ∀ token, token.serial ≤ u.tokens → v.session.binding = some token →
    u.session.binding = some token

namespace Ages

theorem refl (u : World κ) : Ages u u := ⟨Nat.le_refl _, fun _ _ h => h, fun _ _ h => h⟩

theorem trans (h : Ages u v) (hs : Ages v w) : Ages u w := by
  refine ⟨Nat.le_trans h.tokens hs.tokens, ?_, ?_⟩
  · intro token ht hw
    have hv := hs.attempt token (Nat.le_trans ht h.tokens) hw
    exact h.attempt token ht hv
  · intro token ht hw
    have hv := hs.binding token (Nat.le_trans ht h.tokens) hw
    exact h.binding token ht hv

/-- Neither a token nor a binding is new. -/
theorem same (ht : v.tokens = u.tokens)
    (ha : v.session.attempt = u.session.attempt ∨ v.session.attempt = none)
    (hb : v.session.binding = u.session.binding ∨ v.session.binding = none) : Ages u v := by
  refine ⟨Nat.le_of_eq ht.symm, fun token _ hv => ?_, fun token _ hv => ?_⟩
  · rcases ha with ha | ha
    · exact ha.symm.trans hv
    · cases ha.symm.trans hv
  · rcases hb with hb | hb
    · exact hb.symm.trans hv
    · cases hb.symm.trans hv

/-- An attempt has begun, over a binding of its own or over the one that was held. -/
theorem begun (ht : v.tokens = u.tokens + 1) (ha : v.session.attempt = some u.nextToken)
    (hb : v.session.binding = u.session.binding ∨ v.session.binding = some u.nextToken) :
    Ages u v := by
  have hn : ∀ token, token.serial ≤ u.tokens → token ≠ u.nextToken := by
    rintro token hs rfl
    simp only [nextToken] at hs
    omega
  refine ⟨by omega, fun token hs hv => ?_, fun token hs hv => ?_⟩
  · exact absurd (Option.some.inj (hv.symm.trans ha)) (hn token hs)
  · rcases hb with hb | hb
    · exact hb.symm.trans hv
    · exact absurd (Option.some.inj (hv.symm.trans hb)) (hn token hs)

end Ages

theorem ages_release (w : World κ) : Ages w w.release := by
  rw [release_eq]
  exact .same rfl (.inr rfl) (.inr rfl)

theorem ages_move (hm : Move ds u v) : Ages u v := by
  cases hm with
  | begin => exact .begun rfl rfl (.inr rfl)
  | restore => exact .begun rfl rfl (.inl rfl)
  | letGo => exact ages_release u
  | leave => exact .same rfl (.inr rfl) (.inr rfl)
  | abort | fail =>
    rw [failAttempt_eq]
    exact .same rfl (.inr rfl) (.inr rfl)
  | suspend => exact .same rfl (.inr rfl) (.inl rfl)
  | aside | hear | report | close | insert | erase | ignore | reach | accept =>
    exact .same rfl (.inl rfl) (.inl rfl)

theorem ages_step (hs : w.Settled) (s : Step κ) : Ages w (w.step s) := by
  obtain ⟨⟨loop, handles, hm⟩, -⟩ := goes_step hs s
  have hw : Ages w { w with loop, handles } := .same rfl (.inl rfl) (.inl rfl)
  exact hm.keep (fun h hv => hv.trans (ages_move h)) hw

theorem ages_run (hs : w.Settled) (steps : List (Step κ)) : Ages w (w.run steps) := by
  induction steps generalizing w with
  | nil => exact .refl w
  | cons s steps ih => exact (ages_step hs s).trans (ih (goes_step hs s).settled)

theorem Over.later {token : Token} (h : u.Over token) (ha : Ages u v) : v.Over token := by
  refine ⟨Nat.le_trans h.1 ha.tokens, fun hc => h.2 ?_⟩
  have hv : v.session.attempt = some token := by simpa [Session.isCurrent] using hc
  simpa [Session.isCurrent] using ha.attempt token h.1 hv

theorem Released.later {token : Token} (h : u.Released token) (ha : Ages u v) :
    v.Released token := by
  refine ⟨Nat.le_trans h.1 ha.tokens, fun hc => h.2 ?_⟩
  have hv : v.session.binding = some token := by simpa [Session.holds] using hc
  simpa [Session.holds] using ha.binding token h.1 hv

theorem Stale.later (h : u.Stale e) (ha : Ages u v) : v.Stale e := by
  cases e with
  | bindRefused | lost | provider => exact Over.later h ha
  | binder => exact Released.later h ha
  | item | barrier => exact h

/-! A stale event is taken from the queue, and that is all. -/

theorem ifCurrent_over {token : Token} (h : w.Over token) (what : String)
    (go : World κ → World κ) :
    ∃ remarks, w.ifCurrent token what go = { w with remarks } := by
  simp only [ifCurrent]
  rw [if_neg h.2]
  split
  · exact ⟨w.remarks, rfl⟩
  · exact ⟨_, rfl⟩

theorem ifHeld_released {token : Token} (h : w.Released token) (what : String)
    (go : World κ → World κ) : ∃ remarks, w.ifHeld token what go = { w with remarks } := by
  simp only [ifHeld]
  rw [if_neg h.2]
  exact ⟨_, rfl⟩

theorem handle_stale (h : w.Stale e) : ∃ remarks, w.handle t e = { w with remarks } := by
  cases e with
  | bindRefused => exact ifCurrent_over h _ _
  | binder sink note => cases note <;> exact ifHeld_released h _ _
  | provider sink note => cases note <;> exact ifCurrent_over h _ _
  | lost token fault =>
    exact ifCurrent_over h _ fun w => (w.remark (.channelLost token fault)).onLost
  | item | barrier => exact h.elim

theorem next?_eq_some : w.next? = some e ↔ w.handles ≠ 0 ∧ w.loop ≠ .handling ∧
    w.loop ≠ .closed ∧ ∃ rest, w.queue = e :: rest := by
  simp only [next?]
  by_cases hw : w.handles = 0 ∨ w.loop = .handling ∨ w.loop = .closed
  · simp only [hw, if_true, reduceCtorEq, false_iff]
    rintro ⟨h0, hh, hc, -⟩
    rcases hw with hw | hw | hw
    · exact h0 hw
    · exact hh hw
    · exact hc hw
  · simp only [not_or] at hw
    simp [hw, List.head?_eq_some_iff]

/-- A turn of the loop that takes a stale event, and is finished at once. -/
theorem turn_stale (hn : w.next? = some e) (he : w.Stale e) : ∃ remarks,
    (w.turn t).finish t = { w with queue := w.queue.tail, loop := .waiting, remarks } := by
  obtain ⟨h0, hh, hc, rest, hq⟩ := next?_eq_some.mp hn
  obtain ⟨r, ht⟩ := turn_eq (t := t) hh hc
  have ha := awake_cons (w := { w with loop := .waiting, remarks := r }) (t := t) h0 hq
  obtain ⟨remarks, hs⟩ := handle_stale (t := t) (w := remark (.dispatching e)
    { w with loop := .handling, queue := rest, remarks := r }) he
  refine ⟨remarks, ?_⟩
  rw [ht, ha, hs, hq]
  exact (if_pos rfl).trans (if_neg h0)

/-! A session that is gone. -/

/-- What a lookup's answer still does in a world that is gone. -/
def answered (w : World κ) : Step κ → World κ
  | .answer result index =>
    { w with
      lookups := w.lookups.eraseIdx index
      history := (w.lookups[index]?.map fun l =>
        .lookup l.request l.provider l.mediaId result).toList ++ w.history }
  | _ => w

theorem Gone.step (h : w.Gone) (s : Step κ) : ∃ queue loop remarks,
    w.step s = { w.answered s with queue, loop, remarks } ∧ loop ≠ .handling := by
  cases s with
  | connect | disconnect | subscribe | unsubscribe | getItem | barrier | cloneHandle | dropHandle =>
    exact ⟨w.queue, w.loop, w.remarks, if_pos h.1, h.2⟩
  | post posting =>
    obtain ⟨news, remarks, hp, -⟩ := w.post_eq posting
    exact ⟨_, _, _, hp, h.2⟩
  | turn t =>
    by_cases hc : w.loop = .closed
    · have ht : w.turn t = w := by simp [turn, hc]
      exact ⟨w.queue, w.loop, w.remarks, ht, h.2⟩
    · obtain ⟨r, ht⟩ := turn_eq (t := t) h.2 hc
      have ha := awake_gone (w := { w with loop := .waiting, remarks := r }) (t := t) h.1
      rcases ha with ha | ⟨s, ha⟩
      · exact ⟨w.queue, .waiting, r, ht.trans ha, by simp⟩
      · exact ⟨[], .closed, s, ht.trans ha, by simp⟩
  | finish t => exact ⟨w.queue, w.loop, w.remarks, if_neg h.2, h.2⟩
  | answer result index =>
    obtain ⟨queue, remarks, ha⟩ := w.answer_eq result index
    exact ⟨queue, w.loop, remarks, ha, h.2⟩

/-- Two worlds that are gone, and were alike before. -/
structure Ended (u v : World κ) : Prop where
  first : u.Gone
  second : v.Gone
  session : v.session = u.session
  lookups : v.lookups = u.lookups
  history : v.history = u.history

theorem Ended.step (h : Ended u v) (s : Step κ) : Ended (u.step s) (v.step s) := by
  obtain ⟨_, _, _, hu, hl⟩ := h.first.step s
  obtain ⟨_, _, _, hv, hm⟩ := h.second.step s
  rw [hu, hv]
  cases s with
  | answer result index =>
    exact ⟨⟨h.first.1, hl⟩, ⟨h.second.1, hm⟩, h.session, by simp [answered, h.lookups],
      by simp [answered, h.lookups, h.history]⟩
  | _ => exact ⟨⟨h.first.1, hl⟩, ⟨h.second.1, hm⟩, h.session, h.lookups, h.history⟩

theorem Gone.next? (h : w.Gone) : w.next? = none := by
  simp [World.next?, h.1]

/-! Two runs. -/

/-- The second world goes on as the first does, with stale events in its queue. -/
def Follows (u v : World κ) : Prop := (Alike u.Stale u v ∧ ¬ u.Gone) ∨ Ended u v

theorem Follows.of_alike (h : Alike u.Stale u v) : Follows u v := by
  by_cases hg : u.Gone
  · have hv : v.Gone := ⟨h.handles.trans hg.1, fun hl => hg.2 (h.handling.mp hl)⟩
    exact .inr ⟨hg, hv, h.session, h.lookups, h.history⟩
  · exact .inl ⟨h, hg⟩

theorem Follows.refl (hs : w.Settled) : Follows w w := by
  by_cases hl : w.loop = .closed
  · have hg : w.Gone := ⟨hs.closed hl, by simp [hl]⟩
    exact .inr ⟨hg, hg, rfl, rfl, rfl⟩
  · exact .of_alike (.refl hl)

theorem Follows.step (hs : u.Settled) (h : Follows u v) (s : Step κ)
    (hn : ∀ t, s = .turn t → v.next? = u.next?) : Follows (u.step s) (v.step s) := by
  rcases h with ⟨h, hg⟩ | h
  -- What was stale before the step is stale after it.
  · have ha := h.step hg s hn
    exact .of_alike { ha with queue := ha.queue.mono fun e he => he.later (ages_step hs s) }
  · exact .inr (h.step s)

theorem Follows.insert {first later : List (Event κ)} (h : Follows u v)
    (hq : v.queue = first ++ later) (he : u.Stale e) :
    Follows u { v with queue := first ++ e :: later } := by
  rcases h with ⟨h, hg⟩ | h
  · exact .inl ⟨{ h with queue := .insert he (hq ▸ h.queue) }, hg⟩
  · exact .inr ⟨h.first, h.second, h.session, h.lookups, h.history⟩

theorem Follows.skip (h : Follows u v) (t : Transport) (hn : v.next? = some e) (he : u.Stale e)
    (hr : Padded u.Stale u.queue v.queue.tail) : Follows u ((v.turn t).finish t) := by
  rcases h with ⟨h, hg⟩ | h
  · have hv : v.Stale e := he.later
      (.same h.tokens (.inl (by rw [h.session])) (.inl (by rw [h.session])))
    obtain ⟨remarks, ht⟩ := turn_stale (t := t) hn hv
    have hl : u.loop ≠ .handling := fun hu => (next?_eq_some.mp hn).2.1 (h.handling.mpr hu)
    rw [ht]
    exact .inl ⟨{ h with queue := hr, open_second := by simp, handling := by simp [hl] }, hg⟩
  · cases h.second.next?.symm.trans hn

/-- The runs that take the same steps, and into whose queue stale events are slipped: at any time,
at any place and in any number. When one of them comes up, the loop takes it and is done with it;
otherwise a turn of the loop takes the same event in both runs. -/
inductive Shadow (w : World κ) : List (Step κ) → World κ → Prop where
  | start : Shadow w [] w
  | insert {steps} {v : World κ} {first later e} (h : Shadow w steps v)
      (hq : v.queue = first ++ later) (he : (w.run steps).Stale e) :
      Shadow w steps { v with queue := first ++ e :: later }
  | skip {steps} {v : World κ} {e} (h : Shadow w steps v) (t : Transport)
      (hn : v.next? = some e) (he : (w.run steps).Stale e)
      (hr : Padded (w.run steps).Stale (w.run steps).queue v.queue.tail) :
      Shadow w steps ((v.turn t).finish t)
  | step {steps} {v : World κ} (h : Shadow w steps v) (s : Step κ)
      (hn : ∀ t, s = .turn t → v.next? = (w.run steps).next?) :
      Shadow w (steps ++ [s]) (v.step s)

theorem shadow_follows (hs : w.Settled) {steps : List (Step κ)} (h : Shadow w steps v) :
    Follows (w.run steps) v := by
  induction h with
  | start => exact .refl hs
  | insert _ hq he ih => exact ih.insert hq he
  | skip _ t hn he hr ih => exact ih.skip t hn he hr
  | step _ s hn ih =>
    rw [run_append]
    exact ih.step (settled_run hs _) s hn

/-- So many turns of the loop, each finished at once. -/
def dispatch (t : Transport) : Nat → World κ → World κ
  | 0, w => w
  | n + 1, w => dispatch t n ((w.turn t).finish t)

/-- The stale events in front can be taken one by one. -/
theorem shadow_ready (hs : w.Settled) {steps : List (Step κ)} (t : Transport)
    (h : Shadow w steps v) :
    ∃ n, Shadow w steps (v.dispatch t n) ∧ (v.dispatch t n).next? = (w.run steps).next? := by
  rcases shadow_follows hs h with ⟨ha, hg⟩ | he
  · by_cases hl : (w.run steps).loop = .handling
    · refine ⟨0, h, ?_⟩
      simp [dispatch, next?, hl, ha.handling]
    · have h0 : (w.run steps).handles ≠ 0 := fun h0 => hg ⟨h0, hl⟩
      -- By induction on the padding: what is in front is stale until the queues agree.
      have hp := ha.queue
      generalize hq : (w.run steps).queue = q at hp
      generalize hv : v.queue = p at hp
      induction hp generalizing v with
      | nil => exact ⟨0, h, ha.next? (by simp [hq, hv])⟩
      | keep x => exact ⟨0, h, ha.next? (by simp [hq, hv])⟩
      | @pad x hx q p hp ih =>
        have hn : v.next? = some x := next?_eq_some.mpr
          ⟨fun hv0 => h0 (ha.handles.symm.trans hv0), fun hw => hl (ha.handling.mp hw),
            ha.open_second, p, hv⟩
        have hr : Padded (w.run steps).Stale (w.run steps).queue v.queue.tail := by
          rw [hq, hv]
          exact hp
        have hs' := Shadow.skip h t hn hx hr
        have hv' : ((v.turn t).finish t).queue = p := by
          obtain ⟨remarks, ht⟩ := turn_stale (t := t) hn (hx.later
            (.same ha.tokens (.inl (by rw [ha.session])) (.inl (by rw [ha.session]))))
          rw [ht, hv]
          rfl
        rcases shadow_follows hs hs' with ⟨ha', -⟩ | he
        · obtain ⟨n, hn⟩ := ih hs' ha' hq hv'
          exact ⟨n + 1, hn⟩
        · exact absurd he.first hg
  · exact ⟨0, h, he.second.next?.trans he.first.next?.symm⟩

/-- From any world that a run reaches, a run with stale events in its queue has the same session
and does the same, and can go on by any step. An attempt that is over never comes back to life,
and a binding that was released is never held again. -/
theorem stale_inert_reachable (setting : Setting) (before steps : List (Step κ)) (v : World κ)
    (h : Shadow ((create setting).run before) steps v) :
    let w := (create setting).run before
    v.session = (w.run steps).session ∧ v.history = (w.run steps).history ∧
    (∀ t s, ∃ n, Shadow w (steps ++ [s]) ((v.dispatch t n).step s)) ∧
    (∀ token, w.Over token → (w.run steps).Over token) ∧
    ∀ token, w.Released token → (w.run steps).Released token := by
  intro w
  have hs : w.Settled := settled_run (settled_create setting) before
  have ha := ages_run hs steps
  refine ⟨?_, ?_, ?_, fun _ ho => ho.later ha, fun _ hr => hr.later ha⟩
  · rcases shadow_follows hs h with ⟨hf, -⟩ | hf
    · exact hf.session
    · exact hf.session
  · rcases shadow_follows hs h with ⟨hf, -⟩ | hf
    · exact hf.history
    · exact hf.history
  · intro t s
    obtain ⟨n, hn, hq⟩ := shadow_ready hs t h
    exact ⟨n, hn.step s fun _ _ => hq⟩

/-- A refusal that comes up after its attempt was given up, just before the next one. -/
theorem stale_inert_refusal :
    let w : World Unit := (create ⟨⟨"package", "class"⟩, "client", none⟩).run
      [.connect .prompt, .disconnect .prompt]
    let refusal : Event Unit := .provider ⟨⟨0⟩, ⟨1⟩⟩ .refused
    let v := ((turn .prompt { w with queue := refusal :: w.queue }).finish .prompt).step
      (.connect .prompt)
    Shadow w [.connect .prompt] v ∧ v.session = (w.run [.connect .prompt]).session ∧
      v.history = (w.run [.connect .prompt]).history := by
  intro w refusal v
  have he : w.Stale refusal := ⟨Nat.le_refl 1, by decide⟩
  have hi : Shadow w [] { w with queue := refusal :: w.queue } :=
    Shadow.start.insert (List.nil_append w.queue).symm he
  have hk := hi.skip .prompt rfl he (.refl w.queue)
  have hv : Shadow w [.connect .prompt] v := hk.step (.connect .prompt) (by simp)
  have h := stale_inert_reachable _ [.connect .prompt, .disconnect .prompt] _ v hv
  exact ⟨hv, h.1, h.2.1⟩

end MediaLink.World
