import MediaLink.Proofs.Session.Consistency
import MediaLink.Proofs.Session.History

/-! Every attempt has one outcome, and every connection one end: none is lost or told twice. -/
namespace MediaLink

/-- What the connection callback was told, and because of which attempt. -/
def Act.notice? {κ : Type} : Act κ → Option (Notice × Option Token)
  | .connection notice attempt => some (notice, attempt)
  | _ => none

theorem Act.IsReport.silent {κ : Type} {a : Act κ} (h : a.IsReport) : a.notice? = none := by
  cases a <;> simp_all [IsReport, notice?]

namespace World

variable {κ : Type} {ds es : List Deed} {u v w : World κ}

/-- Everything that the connection callback was told, oldest first. -/
def notices (w : World κ) : List (Notice × Option Token) := w.recorded Act.notice?

/-- How often the connection callback was told this. -/
def told (notice : Notice) (w : World κ) : Nat := w.notices.countP (·.1 = notice)

/-- What the connection callback was told because of one attempt, oldest first. -/
def toldOf (token : Token) (w : World κ) : List Notice :=
  w.notices.filterMap fun (notice, attempt) => if attempt = some token then some notice else none

theorem told_snoc {n : Notice} {a : Option Token} (h : v.notices = u.notices ++ [(n, a)])
    (notice : Notice) : v.told notice = u.told notice + if n = notice then 1 else 0 := by
  rw [told, h, List.countP_append]
  by_cases hn : n = notice <;> simp [told, hn]

theorem toldOf_snoc {n : Notice} {a : Option Token} (h : v.notices = u.notices ++ [(n, a)])
    (token : Token) :
    v.toldOf token = u.toldOf token ++ if a = some token then [n] else [] := by
  rw [toldOf, h, List.filterMap_append]
  by_cases ha : a = some token <;> simp [toldOf, ha]

theorem silent_unbinding {s : Session κ} {a : Act κ} (h : a ∈ unbinding s) :
    a.notice? = none := by
  obtain ⟨_, rfl⟩ := mem_unbinding h
  rfl

theorem notices_failAttempt (w : World κ) :
    w.failAttempt.notices = w.notices ++ [(.failed, w.session.attempt)] := by
  rw [failAttempt_eq]
  exact recorded_snoc (unbinding w.session) rfl rfl fun _ => silent_unbinding

/-- The moves as the connection callback sees them. -/
inductive Course : List Deed → World κ → World κ → Prop where
  | quiet {u v : World κ} (hp : v.session.phase = u.session.phase)
      (ha : v.session.attempt = u.session.attempt) (ht : v.tokens = u.tokens)
      (hn : v.notices = u.notices) : Course [] u v
  | start {u v : World κ} (hp : u.session.phase = .disconnected ∨ u.session.phase = .suspended)
      (hv : v.session.phase = .connecting) (ha : v.session.attempt = some u.nextToken)
      (ht : v.tokens = u.tokens + 1) (hn : v.notices = u.notices) : Course [.start] u v
  | stop {u v : World κ} (hv : v.session.phase = .disconnected) (ht : v.tokens = u.tokens)
      (hn : v.notices = u.notices) : Course u.session.stops u v
  | letGo {u v : World κ} (hp : u.session.phase = .suspended) (hv : v.session.phase = .disconnected)
      (ht : v.tokens = u.tokens) (hn : v.notices = u.notices) : Course [] u v
  | fail {u v : World κ} (hp : u.session.phase = .connecting) (hv : v.session.phase = .disconnected)
      (ht : v.tokens = u.tokens)
      (hn : v.notices = u.notices ++ [(.failed, u.session.attempt)]) : Course [] u v
  | suspend {u v : World κ} (hp : u.session.phase = .connected) (hv : v.session.phase = .suspended)
      (ht : v.tokens = u.tokens)
      (hn : v.notices = u.notices ++ [(.suspended, u.session.attempt)]) : Course [] u v
  | accept {u v : World κ} (hp : u.session.phase = .connecting) (hv : v.session.phase = .connected)
      (ha : v.session.attempt = u.session.attempt) (ht : v.tokens = u.tokens)
      (hn : v.notices = u.notices ++ [(.connected, u.session.attempt)]) : Course [] u v

theorem Move.course (hm : Move ds u v) : Course ds u v := by
  cases hm with
  | aside => exact .quiet rfl rfl rfl rfl
  | hear => exact .quiet rfl rfl rfl rfl
  | report _ ha => exact .quiet rfl rfl rfl (recorded_same [_] rfl (by simpa using ha.silent))
  | close => exact .quiet rfl rfl rfl rfl
  | insert | erase =>
    refine .quiet rfl rfl rfl (recorded_same _ rfl fun a ha => ?_)
    obtain ⟨_, _, rfl⟩ := mem_telling ha
    rfl
  | begin granted hp =>
    exact .start (.inl hp) rfl rfl rfl (recorded_same [_, _] rfl (by simp [Act.notice?]))
  | letGo hp =>
    rw [release_eq]
    exact .letGo hp rfl rfl (recorded_same _ rfl fun _ => silent_unbinding)
  | leave _ failure =>
    exact .stop rfl rfl (recorded_same (unbinding u.session ++
      (farewell failure u.session ++ [.tornDown u.session.phase])) (by simp)
      (forall_leaving (P := (·.notice? = none)) (fun _ => rfl) (fun _ _ => rfl) rfl))
  | abort hp =>
    exact .fail hp (by rw [failAttempt_eq]; rfl) (by rw [failAttempt_eq]) (notices_failAttempt u)
  | @fail _ e rest hq hv =>
    exact .fail (Session.verdict_fail hv) (by rw [failAttempt_eq]; rfl) (by rw [failAttempt_eq])
      (notices_failAttempt { u with queue := rest })
  | ignore => exact .quiet rfl rfl rfl rfl
  | suspend _ hv =>
    exact .suspend (Session.verdict_suspend hv) rfl rfl (recorded_snoc [] rfl rfl (by simp))
  | reach => exact .quiet rfl rfl rfl (recorded_same [_] rfl (by simp [Act.notice?]))
  | restore _ _ hv =>
    exact .start (.inr (Session.verdict_restore hv).1) rfl rfl rfl
      (recorded_same [_, _] rfl (by simp [Act.notice?]))
  | @accept _ e rest sink reply token news t _ hv =>
    obtain ⟨-, hp, -⟩ := Session.verdict_accept hv
    exact .accept hp rfl rfl rfl (recorded_snoc (a := .connection .connected u.session.attempt)
      ((replayed t (u.session.complete reply.root token reply.extras)).reverse ++
        [.accepted sink reply]) (by simp) rfl
      (forall_accepting (P := (·.notice? = none)) (fun _ _ _ _ _ => rfl) rfl))

/-- One if the session is in this phase. -/
def pending (phase : Phase) (w : World κ) : Nat := if w.session.phase = phase then 1 else 0

/-- The books of the deeds so far: each attempt has ended in one way or is under way, and so has
each connection. -/
structure Balanced (ds : List Deed) (w : World κ) : Prop where
  attempts : ds.count .start = w.told .connected + w.told .failed +
    ds.count (.stop .connecting) + w.pending .connecting
  connections : w.told .connected = w.told .suspended + ds.count (.stop .connected) +
    w.pending .connected

/-- A teardown stops what is under way. -/
theorem count_stops {phase : Phase} (hp : phase ≠ .disconnected) (w : World κ) :
    w.session.stops.count (.stop phase) = w.pending phase := by
  by_cases hw : w.session.phase = phase
  · simp [Session.stops, pending, hw, hp]
  · by_cases hd : w.session.phase = .disconnected
    · simp [Session.stops, pending, hd, hp.symm]
    · simp [Session.stops, pending, hw, hd]

theorem count_start_stops (s : Session κ) : s.stops.count .start = 0 := by
  rw [Session.stops]
  split <;> rfl

/-- More deeds and notices keep the books if they account for what is under way before and after:
an attempt that was pending or began is told, stopped or pending now, and so is a connection. -/
theorem Balanced.append {more : Notice → Nat} (h : Balanced ds u)
    (hm : ∀ notice, v.told notice = u.told notice + more notice)
    (ha : es.count .start + u.pending .connecting = more .connected + more .failed +
      es.count (.stop .connecting) + v.pending .connecting)
    (hc : more .connected + u.pending .connected = more .suspended +
      es.count (.stop .connected) + v.pending .connected) : Balanced (ds ++ es) v := by
  have h1 := h.attempts
  have h2 := h.connections
  constructor
  · rw [List.count_append, List.count_append, hm, hm]
    omega
  · rw [List.count_append, hm, hm]
    omega

theorem Balanced.silent (h : Balanced ds u) (hn : v.notices = u.notices)
    (ha : es.count .start + u.pending .connecting =
      es.count (.stop .connecting) + v.pending .connecting)
    (hc : u.pending .connected = es.count (.stop .connected) + v.pending .connected) :
    Balanced (ds ++ es) v := by
  have hm : ∀ notice, v.told notice = u.told notice + 0 := fun _ => by
    rw [told, hn, told, Nat.add_zero]
  exact h.append hm (by omega) (by omega)

theorem balanced_course (h : Course es u v) (hb : Balanced ds u) : Balanced (ds ++ es) v := by
  cases h with
  | quiet hp _ _ hn =>
    have hw : ∀ phase, v.pending phase = u.pending phase := fun _ => by rw [pending, hp, pending]
    exact hb.silent hn (by simp [hw]) (by simp [hw])
  | start hp hv _ _ hn =>
    have hu : u.pending .connecting = 0 ∧ u.pending .connected = 0 := by
      rcases hp with hp | hp <;> simp [pending, hp]
    have hw : v.pending .connecting = 1 ∧ v.pending .connected = 0 := by simp [pending, hv]
    exact hb.silent hn (by simp [hu, hw]) (by simp [hu, hw])
  | stop hv _ hn =>
    have hs : u.session.stops.count .start = 0 := count_start_stops u.session
    have hk : ∀ phase, phase ≠ .disconnected →
        u.session.stops.count (.stop phase) = u.pending phase := fun _ hp => count_stops hp u
    have hw : v.pending .connecting = 0 ∧ v.pending .connected = 0 := by simp [pending, hv]
    exact hb.silent hn (by simp [hs, hk, hw]) (by simp [hk, hw])
  | letGo hp hv _ hn =>
    have hu : u.pending .connecting = 0 ∧ u.pending .connected = 0 := by simp [pending, hp]
    have hw : v.pending .connecting = 0 ∧ v.pending .connected = 0 := by simp [pending, hv]
    exact hb.silent hn (by simp [hu, hw]) (by simp [hu, hw])
  | fail hp hv _ hn =>
    have hu : u.pending .connecting = 1 ∧ u.pending .connected = 0 := by simp [pending, hp]
    have hw : v.pending .connecting = 0 ∧ v.pending .connected = 0 := by simp [pending, hv]
    exact hb.append (told_snoc hn) (by simp [hu, hw]) (by simp [hu, hw])
  | suspend hp hv _ hn =>
    have hu : u.pending .connecting = 0 ∧ u.pending .connected = 1 := by simp [pending, hp]
    have hw : v.pending .connecting = 0 ∧ v.pending .connected = 0 := by simp [pending, hv]
    exact hb.append (told_snoc hn) (by simp [hu, hw]) (by simp [hu, hw])
  | accept hp hv _ _ hn =>
    have hu : u.pending .connecting = 1 ∧ u.pending .connected = 0 := by simp [pending, hp]
    have hw : v.pending .connecting = 0 ∧ v.pending .connected = 1 := by simp [pending, hv]
    exact hb.append (told_snoc hn) (by simp [hu, hw]) (by simp [hu, hw])

/-- The attempt that is alive has been told as far as the phase says; one that is not made yet has
not been told at all. -/
structure Told (w : World κ) : Prop where
  named : ∀ x ∈ w.notices, x.2.isSome
  ordered : ∀ token, w.toldOf token <+: [.failed] ∨ w.toldOf token <+: [.connected, .suspended]
  unmade : ∀ token, w.tokens < token.serial → w.toldOf token = []
  connecting : w.session.phase = .connecting → ∀ token, w.session.attempt = some token →
    w.toldOf token = []
  connected : w.session.phase = .connected → ∀ token, w.session.attempt = some token →
    w.toldOf token = [.connected]

theorem told_create (setting : Setting) : (create (κ := κ) setting).Told := by
  constructor <;> simp [create, remark, notices, toldOf, recorded]

/-- Nobody was told anything, and no attempt has come closer to an outcome. -/
theorem Told.silent (h : u.Told) (hn : v.notices = u.notices) (ht : u.tokens ≤ v.tokens)
    (hc : v.session.phase = .connecting → ∀ token, v.session.attempt = some token →
      v.toldOf token = [])
    (hk : v.session.phase = .connected → ∀ token, v.session.attempt = some token →
      v.toldOf token = [.connected]) : v.Told := by
  have ho : ∀ token, v.toldOf token = u.toldOf token := fun token => by rw [toldOf, hn, toldOf]
  refine ⟨by rw [hn]; exact h.named, fun token => by rw [ho]; exact h.ordered token, ?_, hc, hk⟩
  intro token hm
  rw [ho]
  exact h.unmade token (Nat.lt_of_le_of_lt ht hm)

/-- The attempt that was alive was told something, and so far it was told this much. -/
theorem Told.more (h : u.Told) {token : Token} {notice : Notice} {before : List Notice}
    (ha : u.session.attempt = some token) (hm : token.serial ≤ u.tokens)
    (hb : u.toldOf token = before)
    (hp : before ++ [notice] <+: [.failed] ∨ before ++ [notice] <+: [.connected, .suspended])
    (ht : v.tokens = u.tokens)
    (hn : v.notices = u.notices ++ [(notice, u.session.attempt)])
    (hc : v.session.phase ≠ .connecting)
    (hk : v.session.phase = .connected → v.session.attempt = some token ∧
      before ++ [notice] = [.connected]) : v.Told := by
  rw [ha] at hn
  have hs : v.toldOf token = before ++ [notice] := by simp [toldOf_snoc hn, hb]
  have ho : ∀ other, other ≠ token → v.toldOf other = u.toldOf other := by
    intro other hne
    simp [toldOf_snoc hn, hne.symm]
  constructor
  · intro x hx
    rw [hn] at hx
    rcases List.mem_append.mp hx with hx | hx
    · exact h.named x hx
    · rw [List.mem_singleton.mp hx]
      rfl
  · intro other
    by_cases hne : other = token
    · rw [hne, hs]
      exact hp
    · rw [ho other hne]
      exact h.ordered other
  · intro other hlt
    have hne : other ≠ token := by
      rintro rfl
      omega
    rw [ho other hne]
    exact h.unmade other (ht ▸ hlt)
  · exact fun hp => absurd hp hc
  · intro hp other hother
    obtain ⟨hv, he⟩ := hk hp
    rw [← Option.some.inj (hv.symm.trans hother), hs, he]

theorem told_course (hs : u.Sound) (hc : Course es u v) (h : u.Told) : v.Told := by
  cases hc with
  | quiet hp ha ht hn =>
    have ho : ∀ token, v.toldOf token = u.toldOf token := fun token => by rw [toldOf, hn, toldOf]
    refine h.silent hn (by omega) ?_ ?_
    · intro hv token hva
      rw [ho]
      exact h.connecting (hp ▸ hv) token (ha ▸ hva)
    · intro hv token hva
      rw [ho]
      exact h.connected (hp ▸ hv) token (ha ▸ hva)
  | start _ hv ha ht hn =>
    refine h.silent hn (by omega) (fun _ token hva => ?_) (by simp [hv])
    have he : token = u.nextToken := Option.some.inj (hva.symm.trans ha)
    rw [toldOf, hn, ← toldOf, he]
    exact h.unmade _ (by simp [nextToken])
  | stop hv ht hn => exact h.silent hn (by omega) (by simp [hv]) (by simp [hv])
  | letGo _ hv ht hn => exact h.silent hn (by omega) (by simp [hv]) (by simp [hv])
  | fail hp hv ht hn =>
    obtain ⟨token, ha⟩ := Option.isSome_iff_exists.mp (hs.consistent.connecting hp).1
    exact h.more ha (hs.attempt_made token ha) (h.connecting hp token ha) (.inl (by simp)) ht hn
      (by simp [hv]) (by simp [hv])
  | suspend hp hv ht hn =>
    obtain ⟨token, ha⟩ := Option.isSome_iff_exists.mp (hs.consistent.connected hp).1
    exact h.more ha (hs.attempt_made token ha) (h.connected hp token ha) (.inr (by simp)) ht hn
      (by simp [hv]) (by simp [hv])
  | accept hp hv ha ht hn =>
    obtain ⟨token, hu⟩ := Option.isSome_iff_exists.mp (hs.consistent.connecting hp).1
    exact h.more hu (hs.attempt_made token hu) (h.connecting hp token hu) (.inr (by simp)) ht hn
      (by simp [hv]) (fun _ => ⟨ha.trans hu, rfl⟩)

theorem balanced_reachable (setting : Setting) (steps : List (Step κ)) :
    Balanced ((create (κ := κ) setting).doings steps) ((create setting).run steps) := by
  apply run_trace
  · exact ⟨rfl, rfl⟩
  · intro ds w loop handles h
    exact ⟨h.attempts, h.connections⟩
  · intro ds es u v hm h
    exact balanced_course hm.course h

theorem told_frame (loop : Loop) (handles : Nat) (h : w.Told) : Told { w with loop, handles } :=
  ⟨h.named, h.ordered, h.unmade, h.connecting, h.connected⟩

theorem told_reachable (setting : Setting) (steps : List (Step κ)) :
    ((create setting).run steps).Told := by
  have h : ((create setting).run steps).Sound ∧ ((create setting).run steps).Told := by
    apply run_keep (P := fun w => w.Sound ∧ w.Told)
    · exact ⟨sound_create setting, told_create setting⟩
    · intro w loop handles h
      exact ⟨sound_frame loop handles h.1, told_frame loop handles h.2⟩
    · intro ds u v hm h
      exact ⟨sound_move hm h.1, told_course h.1 hm.course h.2⟩
  exact h.2

/-- In every run, an attempt that began has failed, has led to a connection, was given up or is
under way, and a connection was suspended, was given up or lasts. Each attempt is told of at most
one failure, or of one connection and then at most one suspension. -/
theorem outcomes_reachable (setting : Setting) (steps : List (Step κ)) :
    let w := (create setting).run steps
    let deeds := (create (κ := κ) setting).doings steps
    deeds.count .start = w.told .connected + w.told .failed + deeds.count (.stop .connecting) +
      (if w.session.phase = .connecting then 1 else 0) ∧
    w.told .connected = w.told .suspended + deeds.count (.stop .connected) +
      (if w.session.phase = .connected then 1 else 0) ∧
    (∀ notice attempt, (notice, attempt) ∈ w.notices → ∃ token, attempt = some token) ∧
    ∀ token, w.toldOf token <+: [.failed] ∨ w.toldOf token <+: [.connected, .suspended] := by
  intro w deeds
  have hb : Balanced deeds w := balanced_reachable setting steps
  have ht : w.Told := told_reachable setting steps
  refine ⟨hb.attempts, hb.connections, ?_, ht.ordered⟩
  intro notice attempt hx
  exact Option.isSome_iff_exists.mp (ht.named _ hx)

end World
end MediaLink
