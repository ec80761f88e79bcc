import MediaLink.Proofs.Session.Bindings
import MediaLink.Proofs.Session.Staleness

/-! Calls to providers keep to the attempt that they name: a provider is asked to accept it before
it hears anything else of it, and nobody hears of it once it is over. -/
namespace MediaLink

/-- A call about a subscription. -/
def Call.IsEdit : Call → Prop
  | .add .. | .remove .. => True
  | .connect _ | .disconnect _ => False

namespace Act

variable {κ : Type}

/-! In the lists below the newest act comes first. -/

/-- The attempt that is alive: the last that began, if nothing has ended it. -/
def alive : List (Act κ) → Option Token
  | [] => none
  | .started token :: _ => some token
  | .unbind _ :: _ | .call _ (.disconnect _) _ :: _ | .connection .failed _ :: _
  | .connection .suspended _ :: _ => none
  | _ :: older => alive older

/-- The binding that an attempt runs over: the one that was held as it began, or else its own. -/
def channel (token : Token) : List (Act κ) → Option Token
  | [] => none
  | .started other :: older =>
    if other = token then some ((holding older).getD token) else channel token older
  | _ :: older => channel token older

/-- The provider and the call, if a call names the attempt. -/
def callOf? (token : Token) : Act κ → Option (Provider × Call)
  | .call p c _ => if c.token = token then some (p, c) else none
  | _ => none

/-- No call names the attempt. -/
def Silent (token : Token) (acts : List (Act κ)) : Prop :=
  ∀ p c failure, .call p c failure ∈ acts → c.token ≠ token

/-- What must have happened before a call is made. -/
structure Permitted (older : List (Act κ)) (p : Provider) (c : Call) : Prop where
  alive : alive older = some c.token
  asked : c ≠ .connect c.token → ∃ failure, .call p (.connect c.token) failure ∈ older
  accepted : c.IsEdit → ∃ sink reply, sink.token = c.token ∧ .accepted sink reply ∈ older

/-- Every call was permitted when it was made, and no attempt began twice. -/
def Lawful : List (Act κ) → Prop
  | [] => True
  | .call p c _ :: older => Permitted older p c ∧ Lawful older
  | .started token :: older => .started token ∉ older ∧ Lawful older
  | _ :: older => Lawful older

/-- An act that neither begins nor ends an attempt. -/
def IsMild : Act κ → Prop
  | .started _ | .unbind _ | .call _ (.disconnect _) _ | .connection .failed _
  | .connection .suspended _ => False
  | _ => True

/-- An act that is not subject to the law. -/
def IsFree : Act κ → Prop
  | .started _ | .call .. => False
  | _ => True

theorem Silent.callOf? {token : Token} {acts : List (Act κ)} (h : Silent token acts) :
    ∀ a ∈ acts, a.callOf? token = none := by
  intro a ha
  cases a with
  | call p c failure => exact if_neg (h p c failure ha)
  | _ => rfl

theorem IsReport.mild {a : Act κ} (h : a.IsReport) : a.IsMild := by
  cases a <;> simp_all [IsReport, IsMild]

theorem IsReport.free {a : Act κ} (h : a.IsReport) : a.IsFree := by
  cases a <;> simp_all [IsReport, IsFree]

variable {a : Act κ} {newer older : List (Act κ)} {token : Token}

theorem alive_mild (ha : a.IsMild) : alive (a :: older) = alive older := by
  cases a with
  | call p c failure => cases c <;> first | rfl | exact ha.elim
  | connection notice attempt => cases notice <;> first | rfl | exact ha.elim
  | started | unbind => exact ha.elim
  | _ => rfl

/-- An attempt that is alive and did not begin just now was alive before. -/
theorem alive_earlier (h : alive (newer ++ older) = some token) (hn : .started token ∉ newer) :
    alive older = some token := by
  induction newer with
  | nil => exact h
  | cons a newer ih =>
    obtain ⟨ha, hn⟩ := not_or.mp (mt List.mem_cons.mpr hn)
    by_cases hm : a.IsMild
    · rw [List.cons_append, alive_mild hm] at h
      exact ih h hn
    cases a with
    | started other =>
      obtain rfl : other = token := Option.some.inj h
      exact absurd rfl ha
    | unbind => cases h
    | call p c failure => cases c <;> first | exact absurd trivial hm | cases h
    | connection notice attempt => cases notice <;> first | exact absurd trivial hm | cases h
    | _ => exact absurd trivial hm

theorem started_mem_of_alive (h : alive older = some token) : .started token ∈ older := by
  refine Classical.byContradiction fun hn => ?_
  have ha : alive (older ++ []) = some token := by rwa [List.append_nil]
  cases alive_earlier ha hn

theorem started_mem_of_channel {binding : Token} (h : channel token older = some binding) :
    .started token ∈ older := by
  induction older with
  | nil => cases h
  | cons a older ih =>
    cases a with
    | started other =>
      by_cases ho : other = token
      · rw [ho]
        exact List.mem_cons_self
      · simp only [channel, ho, if_false] at h
        exact List.mem_cons_of_mem _ (ih h)
    | _ => exact List.mem_cons_of_mem _ (ih h)

theorem channel_mild (ha : a.IsMild) : channel token (a :: older) = channel token older := by
  cases a with
  | started => exact ha.elim
  | _ => rfl

theorem Lawful.free (h : Lawful older) (ha : a.IsFree) : Lawful (a :: older) := by
  cases a <;> first | exact h | exact ha.elim

theorem Lawful.tail (h : Lawful (a :: older)) : Lawful older := by
  cases a <;> first | exact h | exact h.2

theorem Lawful.earlier (h : Lawful (newer ++ older)) : Lawful older := by
  induction newer with
  | nil => exact h
  | cons a newer ih => exact ih h.tail

/-- No call names an attempt that began and is not alive any more. -/
theorem Lawful.silent_over (h : Lawful (newer ++ older)) (hs : .started token ∈ older)
    (ha : alive older ≠ some token) : Silent token newer := by
  rintro p c failure hm rfl
  obtain ⟨late, early, rfl⟩ := List.append_of_mem hm
  rw [List.append_assoc, List.cons_append] at h
  obtain ⟨hp, hl⟩ := h.earlier
  -- It does not begin again, so it would have to be alive already.
  refine ha (alive_earlier hp.alive fun hb => ?_)
  obtain ⟨later, first, rfl⟩ := List.append_of_mem hb
  rw [List.append_assoc] at hl
  exact hl.earlier.1 (List.mem_append_right _ hs)

/-- No call names an attempt after its provider was left. -/
theorem Lawful.silent_disconnect {p : Provider} {failure : Option RemoteFault}
    (h : Lawful (newer ++ .call p (.disconnect token) failure :: older)) : Silent token newer := by
  have hs : .started token ∈ older := started_mem_of_alive h.earlier.1.alive
  exact h.silent_over (List.mem_cons_of_mem _ hs) (by simp [alive])

/-- No call names an attempt after its binding was released. -/
theorem Lawful.silent_unbind {binding : Token} (h : Lawful (newer ++ .unbind binding :: older))
    (hc : channel token older = some binding) : Silent token newer :=
  h.silent_over (List.mem_cons_of_mem _ (started_mem_of_channel hc)) (by simp [alive])

end Act

namespace World

open Act (alive channel holding Lawful Permitted Silent)

variable {κ : Type} {ds : List Deed} {u v w : World κ} {s : Session κ} {older : List (Act κ)}

/-- What is on record about the attempt that is alive. -/
structure Engaged (s : Session κ) (acts : List (Act κ)) : Prop where
  alive : alive acts = s.attempt
  channel : ∀ token, s.attempt = some token →
    ∃ binding, s.binding = some binding ∧ channel token acts = some binding
  asked : ∀ p token, s.provider = some p → s.attempt = some token →
    ∃ failure, .call p (.connect token) failure ∈ acts
  accepted : s.phase = .connected → ∀ token, s.attempt = some token →
    ∃ sink reply, sink.token = token ∧ .accepted sink reply ∈ acts

/-- A lawful record of attempts that were begun. -/
structure Ledger (tokens : Nat) (acts : List (Act κ)) : Prop where
  lawful : Lawful acts
  begun : ∀ token, .started token ∈ acts → token.serial ≤ tokens

/-- The record is lawful, and knows everything about the attempt that is alive. -/
structure Disciplined (w : World κ) : Prop where
  ledger : Ledger w.tokens w.history
  engaged : Engaged w.session w.history

theorem engaged_idle (h : s.attempt = none) (ha : alive older = none) : Engaged s older := by
  constructor <;> simp [h, ha]

theorem Engaged.mild {a : Act κ} (h : Engaged s older) (ha : a.IsMild) :
    Engaged s (a :: older) := by
  refine ⟨(Act.alive_mild ha).trans h.alive, fun token ht => ?_, fun p token hp ht => ?_,
    fun hp token ht => ?_⟩
  · rw [Act.channel_mild ha]
    exact h.channel token ht
  · obtain ⟨failure, hm⟩ := h.asked p token hp ht
    exact ⟨failure, List.mem_cons_of_mem _ hm⟩
  · obtain ⟨sink, reply, hs, hm⟩ := h.accepted hp token ht
    exact ⟨sink, reply, hs, List.mem_cons_of_mem _ hm⟩

variable {tokens : Nat} {a : Act κ} {newer : List (Act κ)} {p : Provider} {c : Call}
  {failure : Option RemoteFault}

theorem Engaged.milds (h : Engaged s older) (ha : ∀ a ∈ newer, a.IsMild) :
    Engaged s (newer ++ older) := by
  induction newer with
  | nil => exact h
  | cons a newer ih =>
    exact (ih fun b hb => ha b (List.mem_cons_of_mem _ hb)).mild (ha a List.mem_cons_self)

/-- No attempt is alive without a binding. -/
theorem Engaged.unbound (h : Engaged s older) (hb : s.binding = none) : s.attempt = none := by
  cases ha : s.attempt with
  | none => rfl
  | some token =>
    obtain ⟨binding, hs, -⟩ := h.channel token ha
    cases hb.symm.trans hs

theorem Engaged.permits_connect (h : Engaged s older) {token : Token} (ha : s.attempt = some token)
    (p : Provider) : Permitted older p (.connect token) :=
  ⟨h.alive.trans ha, fun hn => absurd rfl hn, fun he => he.elim⟩

theorem Engaged.permits_disconnect (h : Engaged s older) {token : Token}
    (hp : s.provider = some p) (ha : s.attempt = some token) :
    Permitted older p (.disconnect token) :=
  ⟨h.alive.trans ha, fun _ => h.asked p token hp ha, fun he => he.elim⟩

theorem Engaged.permits_edit (h : Engaged s older) {token : Token}
    (hl : s.live? = some (p, token)) (hc : c.token = token) : Permitted older p c := by
  obtain ⟨hp, hs, ha⟩ := Session.live?_eq_some.mp hl
  subst hc
  exact ⟨h.alive.trans ha, fun _ => h.asked p c.token hs ha, fun _ => h.accepted hp c.token ha⟩

theorem Ledger.free (h : Ledger tokens older) (ha : a.IsFree) : Ledger tokens (a :: older) := by
  refine ⟨h.lawful.free ha, fun token hm => ?_⟩
  rcases List.mem_cons.mp hm with rfl | hm
  · exact ha.elim
  · exact h.begun token hm

theorem Ledger.call (h : Ledger tokens older) (hp : Permitted older p c) :
    Ledger tokens (.call p c failure :: older) := by
  refine ⟨⟨hp, h.lawful⟩, fun token hm => ?_⟩
  rcases List.mem_cons.mp hm with hm | hm
  · cases hm
  · exact h.begun token hm

theorem Ledger.start (h : Ledger tokens older) :
    Ledger (tokens + 1) (.started ⟨tokens + 1⟩ :: older) := by
  refine ⟨⟨fun hm => ?_, h.lawful⟩, fun token hm => ?_⟩
  · have := h.begun _ hm
    simp only at this
    omega
  · rcases List.mem_cons.mp hm with hm | hm
    · cases hm
      exact Nat.le_refl _
    · exact Nat.le_succ_of_le (h.begun token hm)

theorem Ledger.unbinding (h : Ledger tokens older) (s : Session κ) :
    Ledger tokens (unbinding s ++ older) := by
  simp only [World.unbinding]
  cases s.binding with
  | none => exact h
  | some token => exact h.free trivial

theorem alive_unbinding (h : s.binding = none → alive older = none) :
    alive (unbinding s ++ older) = none := by
  simp only [World.unbinding]
  cases hb : s.binding with
  | none => exact h hb
  | some token => rfl

/-- An attempt has just begun. -/
theorem engaged_begun {token binding : Token} (ha : s.attempt = some token)
    (hp : s.phase = .connecting) (hn : s.provider = none) (hb : s.binding = some binding)
    (hh : (holding older).getD token = binding) : Engaged s (.started token :: older) := by
  refine ⟨ha.symm, fun other ho => ?_, fun p other hq => ?_, fun hc => ?_⟩
  · obtain rfl := Option.some.inj (ha.symm.trans ho)
    exact ⟨binding, hb, by simp [Act.channel, hh]⟩
  · cases hn.symm.trans hq
  · cases hp.symm.trans hc

theorem disciplined_create (setting : Setting) : (create (κ := κ) setting).Disciplined :=
  ⟨⟨trivial, by simp [create, remark]⟩, engaged_idle rfl rfl⟩

theorem disciplined_frame (loop : Loop) (handles : Nat) (h : w.Disciplined) :
    Disciplined { w with loop, handles } := ⟨h.ledger, h.engaged⟩

theorem disciplined_tell (h : w.Disciplined) (call : Token → Call)
    (hc : ∀ token, (call token).token = token)
    (hm : ∀ p token, (Act.call (κ := κ) p (call token) failure).IsMild)
    (subscriptions : Registry κ) :
    ((w.withSubscriptions subscriptions).tell call failure).Disciplined := by
  have he : Engaged { w.session with subscriptions } w.history :=
    ⟨h.engaged.alive, h.engaged.channel, h.engaged.asked, h.engaged.accepted⟩
  have hl : telling call failure { w.session with subscriptions } =
    telling call failure w.session := rfl
  simp only [tell, withSubscriptions, hl]
  cases hv : w.session.live? with
  | none =>
    have ht : telling call failure w.session = [] := by simp [telling, hv]
    rw [ht]
    exact ⟨h.ledger, he⟩
  | some live =>
    obtain ⟨p, token⟩ := live
    have ht : telling call failure w.session = [.call p (call token) failure] := by
      simp [telling, hv]
    rw [ht]
    exact ⟨h.ledger.call (h.engaged.permits_edit hv (hc token)), he.mild (hm p token)⟩

theorem disciplined_failAttempt (h : w.Disciplined) : w.failAttempt.Disciplined := by
  rw [failAttempt_eq]
  exact ⟨(h.ledger.unbinding w.session).free trivial, engaged_idle rfl rfl⟩

theorem Engaged.asks (h : Engaged s older) {token : Token} (ha : s.attempt = some token)
    (hp : s.phase = .connecting) (p : Provider) (failure : Option RemoteFault) :
    Engaged { s with provider := some p } (.call p (.connect token) failure :: older) := by
  have hm := h.mild (a := .call p (.connect token) failure) trivial
  refine ⟨hm.alive, hm.channel, fun q other hq ho => ?_, fun hc => ?_⟩
  · cases hq
    rw [← Option.some.inj (ha.symm.trans ho)]
    exact ⟨failure, List.mem_cons_self⟩
  · cases hp.symm.trans hc

theorem Engaged.accept (h : Engaged s older) {sink : ProviderSink} (reply : Reply)
    (ha : s.attempt = some sink.token) (root : String) (token : SessionToken)
    (extras : Option Payload) :
    Engaged (s.complete root token extras) (.accepted sink reply :: older) := by
  have hm := h.mild (a := .accepted sink reply) trivial
  refine ⟨hm.alive, hm.channel, hm.asked, fun _ other ho => ?_⟩
  exact ⟨sink, reply, Option.some.inj (ha.symm.trans ho), List.mem_cons_self⟩

theorem mild_replayed {t : Transport} (h : a ∈ replayed t s) : a.IsMild := by
  obtain ⟨_, _, _, _, _, rfl⟩ := mem_replayed h
  trivial

/-- A provider that has just accepted hears of the subscriptions. -/
theorem Ledger.replayed {t : Transport} (h : Ledger tokens older) (he : Engaged s older) :
    Ledger tokens ((replayed t s).reverse ++ older) := by
  cases hl : s.live? with
  | none => simpa [World.replayed, hl] using h
  | some live =>
    obtain ⟨p, token⟩ := live
    -- By induction on the calls that were made; each leaves the next one permitted.
    suffices hr : ∀ entries : List (String × Option Payload),
        Ledger tokens ((entries.map fun entry =>
            Act.call (κ := κ) p (.add token entry.1 entry.2)
              (t.call p (.add token entry.1 entry.2)).failure) ++ older) ∧
          Engaged s ((entries.map fun entry =>
            Act.call (κ := κ) p (.add token entry.1 entry.2)
              (t.call p (.add token entry.1 entry.2)).failure) ++ older) by
      simpa [World.replayed, hl, ← List.map_reverse] using (hr s.subscriptions.replay.reverse).1
    intro entries
    induction entries with
    | nil => exact ⟨h, he⟩
    | cons entry entries ih =>
      exact ⟨ih.1.call (ih.2.permits_edit hl rfl), ih.2.mild trivial⟩

theorem disciplined_move (hm : Move ds u v) (hs : u.Sound) (hu : u.Alternating)
    (h : u.Disciplined) : v.Disciplined := by
  cases hm with
  | aside | hear | close | ignore => exact ⟨h.ledger, h.engaged⟩
  | report _ ha => exact ⟨h.ledger.free ha.free, h.engaged.mild ha.mild⟩
  | insert _ node options callback failure =>
    exact disciplined_tell h (.add · node options) (fun _ => rfl) (fun _ _ => trivial) _
  | @erase _ node options key callback failure hf =>
    exact disciplined_tell h (.remove · node key.options) (fun _ => rfl) (fun _ _ => trivial) _
  | begin granted hp =>
    obtain ⟨-, hb, hn, -⟩ := hs.consistent.disconnected hp
    have he : Engaged (u.session.begin u.nextToken) (.started u.nextToken :: u.history) :=
      engaged_begun rfl rfl hn rfl (by rw [hu.holding, hb]; rfl)
    exact ⟨h.ledger.start.free trivial, he.mild trivial⟩
  | letGo =>
    rw [release_eq]
    exact ⟨h.ledger.unbinding _, engaged_idle rfl (alive_unbinding fun hb =>
      h.engaged.alive.trans (h.engaged.unbound hb))⟩
  | leave _ failure =>
    have hd := h.ledger.free (a := .tornDown u.session.phase) trivial
    have he := h.engaged.mild (a := .tornDown u.session.phase) trivial
    refine ⟨Ledger.unbinding ?_ u.session, engaged_idle rfl (alive_unbinding fun hb => ?_)⟩
    · simp only [farewell]
      split
      · rename_i p token hp ha
        exact hd.call (he.permits_disconnect hp ha)
      · exact hd
    · have ha := h.engaged.unbound hb
      have hf : farewell failure u.session = [] := by simp [farewell, ha]
      rw [hf]
      exact he.alive.trans ha
  | abort => exact disciplined_failAttempt h
  | @fail _ e rest =>
    exact disciplined_failAttempt (w := { u with queue := rest }) ⟨h.ledger, h.engaged⟩
  | suspend => exact ⟨h.ledger.free trivial, engaged_idle rfl rfl⟩
  | @reach _ e rest p token failure hq hj =>
    obtain ⟨hp, ha⟩ := Session.verdict_reach hj
    exact ⟨h.ledger.call (h.engaged.permits_connect ha p), h.engaged.asks ha hp p failure⟩
  | @restore _ e rest p failure hq hj =>
    obtain ⟨hp, sink, -, hh⟩ := Session.verdict_restore hj
    have hb : u.session.binding = some sink := by simpa [Session.holds] using hh
    have hn := (hs.consistent.suspended hp).2.2
    have he : Engaged (u.session.resume u.nextToken) (.started u.nextToken :: u.history) :=
      engaged_begun rfl rfl hn hb (by rw [hu.holding, hb]; rfl)
    exact ⟨h.ledger.start.call (he.permits_connect rfl p), he.asks rfl rfl p failure⟩
  | @accept _ e rest sink reply token news t hq hj =>
    obtain ⟨-, -, ha, -⟩ := Session.verdict_accept hj
    have he := h.engaged.accept reply ha reply.root token reply.extras
    refine ⟨Ledger.free (Ledger.replayed (h.ledger.free trivial) he) trivial,
      Engaged.mild (he.milds fun a hm => ?_) trivial⟩
    exact mild_replayed (List.mem_reverse.mp hm)

theorem disciplined_reachable (setting : Setting) (steps : List (Step κ)) :
    ((create setting).run steps).Disciplined := by
  have h : ((create setting).run steps).Alternating ∧ ((create setting).run steps).Disciplined := by
    apply run_keep_sound (P := fun w => w.Alternating ∧ w.Disciplined)
    · exact ⟨alternating_create setting, disciplined_create setting⟩
    · intro w loop handles h
      exact ⟨alternating_frame loop handles h.1, disciplined_frame loop handles h.2⟩
    · intro ds u v hm hs h
      exact ⟨alternating_traffic (hm.traffic hs) h.1, disciplined_move hm hs h.1 h.2⟩
  exact h.2

/-! An attempt that is over stays silent. -/

/-- Every call that names an attempt, oldest first, whatever it returned. -/
def callsOf (token : Token) (w : World κ) : List (Provider × Call) := w.recorded (Act.callOf? token)

/-- No act of the list calls a provider, but for the attempt that is alive or has just begun. -/
def Timely (w : World κ) (acts : List (Act κ)) : Prop :=
  ∀ p c failure, .call p c failure ∈ acts → w.session.attempt = some c.token ∨ c.token = w.nextToken

theorem timely_unbinding (w : World κ) : w.Timely (unbinding w.session) := by
  intro p c failure hm
  obtain ⟨_, ha⟩ := mem_unbinding hm
  cases ha

theorem timely_telling (call : Token → Call) (hc : ∀ token, (call token).token = token)
    (failure : Option RemoteFault) : w.Timely (telling call failure w.session) := by
  intro p c other hm
  simp only [telling] at hm
  split at hm
  · rename_i q token hl
    rw [List.mem_singleton] at hm
    cases hm
    rw [hc]
    exact .inl (Session.live?_eq_some.mp hl).2.2
  · cases hm

theorem timely_farewell (failure : Option RemoteFault) : w.Timely (farewell failure w.session) := by
  intro p c other hm
  simp only [farewell] at hm
  split at hm
  · rename_i q token hp ha
    rw [List.mem_singleton] at hm
    cases hm
    exact .inl ha
  · cases hm

theorem timely_replayed {t : Transport} {s : Session κ} (h : s.attempt = w.session.attempt) :
    w.Timely (replayed t s) := by
  intro p c other hm
  simp only [replayed] at hm
  split at hm
  · rename_i q token hl
    obtain ⟨_, -, hc⟩ := List.mem_map.mp hm
    cases hc
    exact .inl (h ▸ (Session.live?_eq_some.mp hl).2.2)
  · cases hm

theorem Move.timely (hm : Move ds u v) : ∃ acts, v.history = acts ++ u.history ∧ u.Timely acts := by
  cases hm with
  | aside | hear | close | ignore => exact ⟨[], rfl, by simp [Timely]⟩
  | @report _ a ha => exact ⟨[a], rfl, by cases a <;> simp_all [Timely, Act.IsReport]⟩
  | insert _ node options callback failure =>
    exact ⟨_, rfl, timely_telling (.add · node options) (fun _ => rfl) failure⟩
  | @erase _ node options key callback failure hf =>
    exact ⟨_, rfl, timely_telling (.remove · node key.options) (fun _ => rfl) failure⟩
  | begin => exact ⟨[_, _], rfl, by simp [Timely]⟩
  | letGo =>
    rw [release_eq]
    exact ⟨_, rfl, timely_unbinding u⟩
  | leave _ failure =>
    refine ⟨unbinding u.session ++ (farewell failure u.session ++ [.tornDown u.session.phase]),
      by simp, fun p c other hm => ?_⟩
    simp only [List.mem_append, List.mem_singleton, reduceCtorEq, or_false] at hm
    rcases hm with hm | hm
    · exact timely_unbinding u p c other hm
    · exact timely_farewell failure p c other hm
  | abort | fail =>
    rw [failAttempt_eq]
    refine ⟨.connection .failed u.session.attempt :: unbinding u.session, rfl, ?_⟩
    intro p c other hm
    rcases List.mem_cons.mp hm with hm | hm
    · cases hm
    · exact timely_unbinding u p c other hm
  | suspend => exact ⟨[_], rfl, by simp [Timely]⟩
  | @reach _ e rest p token failure hq hj =>
    refine ⟨[.call p (.connect token) failure], rfl, fun q c other hm => ?_⟩
    rw [List.mem_singleton] at hm
    cases hm
    exact .inl (Session.verdict_reach hj).2
  | @restore _ e rest p failure hq hj =>
    refine ⟨[.call p (.connect u.nextToken) failure, .started u.nextToken], rfl, ?_⟩
    intro q c other hm
    simp only [List.mem_cons, List.not_mem_nil, reduceCtorEq, or_false] at hm
    cases hm
    exact .inr rfl
  | @accept _ e rest sink reply token news t hq hj =>
    refine ⟨.connection .connected u.session.attempt ::
      ((replayed t (u.session.complete reply.root token reply.extras)).reverse ++
        [.accepted sink reply]), by simp, fun p c other hm => ?_⟩
    simp only [List.mem_cons, List.mem_append, List.mem_reverse, List.not_mem_nil, reduceCtorEq,
      or_false, false_or] at hm
    exact timely_replayed (s := u.session.complete reply.root token reply.extras) rfl p c other hm

theorem Over.silent {token : Token} (h : w.Over token) {acts : List (Act κ)} (ht : w.Timely acts) :
    Silent token acts := by
  rintro p c failure hm rfl
  rcases ht p c failure hm with ha | hn
  · exact h.2 (by simp [Session.isCurrent, ha])
  · have hle := h.1
    rw [hn] at hle
    simp only [nextToken] at hle
    omega

theorem callsOf_move {token : Token} (hm : Move ds u v) (h : u.Over token) :
    v.callsOf token = u.callsOf token := by
  obtain ⟨acts, hh, ht⟩ := hm.timely
  exact recorded_same acts hh (h.silent ht).callOf?

theorem callsOf_step {token : Token} (hs : w.Settled) (h : w.Over token) (s : Step κ) :
    (w.step s).callsOf token = w.callsOf token := by
  obtain ⟨⟨loop, handles, hm⟩, -⟩ := goes_step hs s
  have hk : (w.step s).Over token ∧ (w.step s).callsOf token = w.callsOf token := by
    apply hm.keep (P := fun v => v.Over token ∧ v.callsOf token = w.callsOf token)
    · intro ds u v hm ⟨ho, hc⟩
      exact ⟨ho.later (ages_move hm), (callsOf_move hm ho).trans hc⟩
    · exact ⟨h, rfl⟩
  exact hk.2

theorem callsOf_run {token : Token} (hs : w.Settled) (h : w.Over token) (steps : List (Step κ)) :
    (w.run steps).callsOf token = w.callsOf token := by
  induction steps generalizing w with
  | nil => rfl
  | cons s steps ih =>
    have hn := ih (goes_step hs s).settled (h.later (ages_step hs s))
    exact hn.trans (callsOf_step hs h s)

/-- In every run, a call names the attempt that is alive when it is made. A provider is asked to
accept an attempt before it hears anything else of it, and hears of a subscription only after a
reply to that attempt was accepted. Nobody hears of an attempt that is not alive any more, that a
provider was left in the name of, or whose binding was released. -/
theorem calls_disciplined_reachable (setting : Setting) (steps : List (Step κ)) (token : Token) :
    let w := (create setting).run steps
    (alive w.history = w.session.attempt ∧
      (w.session.attempt = some token → channel token w.history = w.session.binding)) ∧
    (∀ newer older p c failure, w.history = newer ++ .call p c failure :: older →
      c.token = token → alive older = some token ∧
      (c ≠ .connect token → ∃ answer, .call p (.connect token) answer ∈ older) ∧
      (c.IsEdit → ∃ sink reply, sink.token = token ∧ .accepted sink reply ∈ older)) ∧
    (∀ newer older p failure, w.history = newer ++ .call p (.disconnect token) failure :: older →
      Silent token newer) ∧
    (∀ newer older binding, w.history = newer ++ .unbind binding :: older →
      channel token older = some binding → Silent token newer) ∧
    (∀ newer older, w.history = newer ++ older → .started token ∈ older →
      alive older ≠ some token → Silent token newer) ∧
    (w.Over token → ∀ later, (w.run later).callsOf token = w.callsOf token) := by
  intro w
  have h : w.Disciplined := disciplined_reachable setting steps
  have hl : Lawful w.history := h.ledger.lawful
  refine ⟨⟨h.engaged.alive, fun ha => ?_⟩, ?_, ?_, ?_, ?_, fun ho later => ?_⟩
  · obtain ⟨binding, hb, hc⟩ := h.engaged.channel token ha
    rw [hc, hb]
  · rintro newer older p c failure hh rfl
    rw [hh] at hl
    exact ⟨hl.earlier.1.alive, hl.earlier.1.asked, hl.earlier.1.accepted⟩
  · intro newer older p failure hh
    rw [hh] at hl
    exact hl.silent_disconnect
  · intro newer older binding hh hc
    rw [hh] at hl
    exact hl.silent_unbind hc
  · intro newer older hh hs ha
    rw [hh] at hl
    exact hl.silent_over hs ha
  · exact callsOf_run (settled_run (settled_create setting) steps) ho later

/-- An attempt over a binding that came back, with a subscription, which the application gave up. -/
theorem calls_disciplined_restored :
    let w : World Unit := (create ⟨⟨"package", "class"⟩, "client", none⟩).run [
      .connect .prompt, .turn .prompt, .finish .prompt, .turn .prompt, .finish .prompt,
      .post (.binder ⟨1⟩ .unbound), .turn .prompt, .finish .prompt,
      .post (.binder ⟨1⟩ (.bound ⟨0⟩)), .turn .prompt, .finish .prompt, .turn .prompt,
      .finish .prompt, .subscribe .prompt "node" none (), .disconnect .prompt]
    w.callsOf ⟨2⟩ = [(⟨0⟩, .connect ⟨2⟩), (⟨0⟩, .add ⟨2⟩ "node" none), (⟨0⟩, .disconnect ⟨2⟩)] ∧
      channel ⟨2⟩ w.history = some ⟨1⟩ ∧ w.Over ⟨2⟩ ∧
      (w.run [.connect .prompt, .turn .prompt]).callsOf ⟨2⟩ = w.callsOf ⟨2⟩ ∧
      ∀ newer older, w.history = newer ++ .call ⟨0⟩ (.disconnect ⟨2⟩) none :: older →
        Silent ⟨2⟩ newer := by
  intro w
  have ho : w.Over ⟨2⟩ := ⟨Nat.le_refl 2, by decide⟩
  obtain ⟨-, -, hd, -, -, hl⟩ :=
    calls_disciplined_reachable (κ := Unit) ⟨⟨"package", "class"⟩, "client", none⟩ [
      .connect .prompt, .turn .prompt, .finish .prompt, .turn .prompt, .finish .prompt,
      .post (.binder ⟨1⟩ .unbound), .turn .prompt, .finish .prompt,
      .post (.binder ⟨1⟩ (.bound ⟨0⟩)), .turn .prompt, .finish .prompt, .turn .prompt,
      .finish .prompt, .subscribe .prompt "node" none (), .disconnect .prompt] ⟨2⟩
  exact ⟨rfl, rfl, ho, hl ho _, fun newer older hh => hd newer older ⟨0⟩ none hh⟩

end World
end MediaLink
