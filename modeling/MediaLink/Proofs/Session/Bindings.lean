import MediaLink.Proofs.Session.Consistency
import MediaLink.Proofs.Session.History
import MediaLink.Proofs.Session.Padding

/-! The binder is asked for one channel at a time, and each is released once before the next. -/
namespace MediaLink

/-- What a binder is asked, whatever it answers. -/
inductive BinderCall where
  | bind (token : Token)
  | unbind (token : Token)
  deriving DecidableEq

namespace BinderCall

/-- Some bindings are acquired and released in turn, and then one is acquired that is held. -/
def rounds (released : List Token) (held : Option Token) : List BinderCall :=
  released.flatMap (fun token => [.bind token, .unbind token]) ++ held.toList.map .bind

variable {released : List Token} {held : Option Token} {token : Token}

theorem rounds_acquire (released : List Token) (token : Token) :
    rounds released none ++ [.bind token] = rounds released (some token) := by
  simp [rounds]

theorem rounds_release (released : List Token) (token : Token) :
    rounds released (some token) ++ [.unbind token] = rounds (released ++ [token]) none := by
  simp [rounds]

theorem rounds_open (released : List Token) : rounds released none = [] ∨
    ∃ token, (rounds released none).getLast? = some (.unbind token) := by
  rcases released.eq_nil_or_concat with rfl | ⟨earlier, token, rfl⟩
  · exact .inl rfl
  · right
    refine ⟨token, ?_⟩
    rw [List.concat_eq_append, ← rounds_release, List.getLast?_concat]

theorem getLast?_rounds : (rounds released held).getLast? = some (.bind token) ↔
    held = some token := by
  cases held with
  | some other => simp [← rounds_acquire, eq_comm]
  | none =>
    rcases rounds_open released with h | ⟨other, h⟩ <;> simp [h]

end BinderCall

namespace Act

variable {κ : Type}

def binderCall? : Act κ → Option BinderCall
  | .bind token _ => some (.bind token)
  | .unbind token => some (.unbind token)
  | _ => none

/-- The binding that is held after some acts, the newest of which comes first. -/
def holding : List (Act κ) → Option Token
  | [] => none
  | .bind token _ :: _ => some token
  | .unbind _ :: _ => none
  | _ :: older => holding older

theorem holding_eq_some {acts : List (Act κ)} {token : Token} :
    holding acts = some token ↔ (acts.filterMap binderCall?).head? = some (.bind token) := by
  induction acts with
  | nil => simp [holding]
  | cons a acts ih => cases a <;> simp [holding, binderCall?, List.filterMap_cons, ih]

theorem IsReport.no_binderCall {a : Act κ} (h : a.IsReport) : a.binderCall? = none := by
  cases a <;> simp_all [IsReport, binderCall?]

end Act

namespace World

variable {κ : Type} {ds : List Deed} {u v w : World κ} {s : Session κ}

/-- Every call to the binder, oldest first. -/
def binderCalls (w : World κ) : List BinderCall := w.recorded Act.binderCall?

/-- A binding is released, among acts that the binder does not see. -/
theorem binderCalls_release (before after : List (Act κ))
    (h : v.history = before ++ unbinding s ++ after ++ u.history)
    (hb : ∀ a ∈ before, a.binderCall? = none) (ha : ∀ a ∈ after, a.binderCall? = none) :
    v.binderCalls = u.binderCalls ++ s.binding.toList.map .unbind := by
  have hs : ((unbinding s).filterMap Act.binderCall?).reverse =
      s.binding.toList.map .unbind := by
    simp only [unbinding]
    cases s.binding <;> rfl
  rw [binderCalls, recorded_append h, List.filterMap_append, List.filterMap_append,
    List.filterMap_eq_nil_iff.mpr hb, List.filterMap_eq_nil_iff.mpr ha]
  simpa [binderCalls] using hs

/-- The moves as the binder sees them. -/
inductive Traffic (u v : World κ) : Prop where
  | quiet (hb : v.session.binding = u.session.binding) (ht : u.tokens ≤ v.tokens)
      (hc : v.binderCalls = u.binderCalls)
  | acquire (hu : u.session.binding = none) (hb : v.session.binding = some u.nextToken)
      (ht : v.tokens = u.tokens + 1) (hc : v.binderCalls = u.binderCalls ++ [.bind u.nextToken])
  | release (hb : v.session.binding = none) (ht : v.tokens = u.tokens)
      (hc : v.binderCalls = u.binderCalls ++ u.session.binding.toList.map .unbind)

theorem traffic_failAttempt (w : World κ) : Traffic w w.failAttempt := by
  rw [failAttempt_eq]
  exact .release rfl rfl (binderCalls_release (s := w.session)
    [.connection .failed w.session.attempt] [] (by simp) (by simp [Act.binderCall?]) (by simp))

theorem Move.traffic (hm : Move ds u v) (hs : u.Sound) : Traffic u v := by
  cases hm with
  | aside | hear | close | ignore => exact .quiet rfl (Nat.le_refl _) rfl
  | report _ ha =>
    exact .quiet rfl (Nat.le_refl _) (recorded_same [_] rfl (by simpa using ha.no_binderCall))
  | insert | erase =>
    refine .quiet rfl (Nat.le_refl _) (recorded_same _ rfl fun a ha => ?_)
    obtain ⟨_, _, rfl⟩ := mem_telling ha
    rfl
  | begin granted hp =>
    exact .acquire (hs.consistent.disconnected hp).2.1 rfl rfl
      (recorded_snoc [.started u.nextToken] rfl rfl (by simp [Act.binderCall?]))
  | letGo hp =>
    rw [release_eq]
    exact .release rfl rfl
      (binderCalls_release (s := u.session) [] [] (by simp) (by simp) (by simp))
  | leave _ failure =>
    exact .release rfl rfl (binderCalls_release (s := u.session) []
      (farewell failure u.session ++ [.tornDown u.session.phase]) (by simp) (by simp)
      (forall_farewell (P := (·.binderCall? = none)) (fun _ _ => rfl) rfl))
  | abort hp => exact traffic_failAttempt u
  | @fail _ e rest hq hv =>
    obtain ⟨hb, ht, hc⟩ | ⟨hu, hb, ht, hc⟩ | ⟨hb, ht, hc⟩ :=
      traffic_failAttempt { u with queue := rest }
    · exact .quiet hb ht hc
    · exact .acquire hu hb ht hc
    · exact .release hb ht hc
  | suspend => exact .quiet rfl (Nat.le_refl _) (recorded_same [_] rfl (by simp [Act.binderCall?]))
  | reach => exact .quiet rfl (Nat.le_refl _) (recorded_same [_] rfl (by simp [Act.binderCall?]))
  | restore =>
    exact .quiet rfl (Nat.le_succ _) (recorded_same [_, _] rfl (by simp [Act.binderCall?]))
  | @accept _ e rest sink reply token news t hq hv =>
    have ha : ∀ a ∈ (replayed t (u.session.complete reply.root token reply.extras)).reverse ++
        [.accepted sink reply], a.binderCall? = none :=
      forall_accepting (P := (·.binderCall? = none)) (fun _ _ _ _ _ => rfl) rfl
    exact .quiet rfl (Nat.le_refl _) (recorded_same (.connection .connected u.session.attempt ::
      ((replayed t (u.session.complete reply.root token reply.extras)).reverse ++
        [.accepted sink reply])) (by simp) (List.forall_mem_cons.mpr ⟨rfl, ha⟩))

/-- These bindings were released; the calls to the binder are theirs and those of the binding
that is held. -/
structure Rounds (released : List Token) (w : World κ) : Prop where
  calls : w.binderCalls = BinderCall.rounds released w.session.binding
  distinct : (released ++ w.session.binding.toList).Nodup
  made : ∀ token ∈ released ++ w.session.binding.toList, token.serial ≤ w.tokens

/-- Each binding was released, once, before the next was acquired. -/
def Alternating (w : World κ) : Prop := ∃ released, w.Rounds released

theorem alternating_create (setting : Setting) : (create (κ := κ) setting).Alternating := by
  refine ⟨[], rfl, ?_, ?_⟩ <;> simp [create, remark]

theorem alternating_frame (loop : Loop) (handles : Nat) (h : w.Alternating) :
    Alternating { w with loop, handles } := by
  obtain ⟨released, hc, hd, hm⟩ := h
  exact ⟨released, hc, hd, hm⟩

theorem alternating_traffic (ht : Traffic u v) (h : u.Alternating) : v.Alternating := by
  obtain ⟨released, hc, hd, hm⟩ := h
  cases ht with
  | quiet hb ht hv =>
    refine ⟨released, ?_, ?_, fun token hr => ?_⟩
    · rw [hv, hc, hb]
    · rwa [hb]
    · rw [hb] at hr
      exact Nat.le_trans (hm token hr) ht
  | acquire hu hb ht hv =>
    rw [hu] at hc hd hm
    simp only [Option.toList_none, List.append_nil] at hd hm
    -- The token of a new binding was never used before.
    have hn : u.nextToken ∉ released := by
      intro hr
      have := hm _ hr
      simp only [nextToken] at this
      omega
    refine ⟨released, ?_, ?_, fun token hr => ?_⟩
    · rw [hv, hc, hb, BinderCall.rounds_acquire]
    · rw [hb, Option.toList_some]
      refine List.nodup_append.mpr ⟨hd, by simp, fun token hr other ho => ?_⟩
      rw [List.mem_singleton.mp ho]
      rintro rfl
      exact hn hr
    · rw [hb] at hr
      rcases List.mem_append.mp hr with hr | hr
      · exact Nat.le_trans (hm token hr) (by omega)
      · rw [Option.toList_some, List.mem_singleton] at hr
        rw [hr, ht]
        exact Nat.le_refl _
  | release hb ht hv =>
    cases hu : u.session.binding with
    | none =>
      rw [hu] at hc hd hm hv
      exact ⟨released, by simpa [hb, hc] using hv, by rwa [hb], by rwa [hb, ht]⟩
    | some token =>
      rw [hu] at hc hd hm hv
      refine ⟨released ++ [token], ?_, by simpa [hb] using hd, by simpa [hb, ht] using hm⟩
      rw [hv, hc, hb]
      exact BinderCall.rounds_release released token

theorem alternating_reachable (setting : Setting) (steps : List (Step κ)) :
    ((create setting).run steps).Alternating :=
  run_keep_sound (alternating_create setting) alternating_frame
    (fun hm hs h => alternating_traffic (hm.traffic hs) h) steps

/-- What the record says to be held is held. -/
theorem Alternating.holding (h : w.Alternating) : Act.holding w.history = w.session.binding := by
  obtain ⟨released, hc, -, -⟩ := h
  have hl : (w.history.filterMap Act.binderCall?).head? =
      (BinderCall.rounds released w.session.binding).getLast? := by
    rw [← hc, binderCalls, recorded, List.getLast?_reverse]
  ext token
  rw [Act.holding_eq_some, hl, BinderCall.getLast?_rounds]

/-- A session that nothing keeps has released its binding. -/
theorem gone_released (hs : w.Settled) (h : w.Sound) (hg : w.Gone) : w.session.binding = none :=
  (h.consistent.disconnected (hs.idle hg.1 hg.2)).2.1

/-- In every run the binder is asked to bind and to unbind in turn, each time with a token of its
own. The session holds exactly the binding that was asked for last and not released, and when
nothing keeps the session any more there is none. -/
theorem bindings_alternate_reachable (setting : Setting) (steps : List (Step κ)) :
    let w := (create setting).run steps
    (∃ released, w.binderCalls = BinderCall.rounds released w.session.binding ∧
      (released ++ w.session.binding.toList).Nodup) ∧
    (∀ token, w.session.binding = some token ↔ w.binderCalls.getLast? = some (.bind token)) ∧
    (w.Gone → w.binderCalls = [] ∨ ∃ token, w.binderCalls.getLast? = some (.unbind token)) := by
  intro w
  obtain ⟨released, hc, hd, -⟩ : w.Alternating := alternating_reachable setting steps
  refine ⟨⟨released, hc, hd⟩, fun token => ?_, fun hg => ?_⟩
  · rw [hc, BinderCall.getLast?_rounds]
  · have hb : w.session.binding = none :=
      gone_released (settled_run (settled_create setting) steps) (sound_reachable setting steps) hg
    rw [hc, hb]
    exact BinderCall.rounds_open released

/-- A connection that came back over its binding, was suspended again, gave way to a new one, and
went with the last handle. -/
theorem bindings_alternate_reconnected :
    let w : World Unit := (create ⟨⟨"package", "class"⟩, "client", none⟩).run [
      .connect .prompt, .turn .prompt, .finish .prompt, .turn .prompt, .finish .prompt,
      .post (.binder ⟨1⟩ .unbound), .turn .prompt, .finish .prompt,
      .post (.binder ⟨1⟩ (.bound ⟨0⟩)), .turn .prompt, .finish .prompt, .turn .prompt,
      .finish .prompt, .post (.binder ⟨1⟩ .unbound), .turn .prompt, .finish .prompt,
      .connect .prompt, .dropHandle .prompt]
    w.binderCalls = [.bind ⟨1⟩, .unbind ⟨1⟩, .bind ⟨3⟩, .unbind ⟨3⟩] ∧ w.Gone ∧
      (w.binderCalls = [] ∨ ∃ token, w.binderCalls.getLast? = some (.unbind token)) := by
  intro w
  have hg : w.Gone := ⟨rfl, by decide⟩
  exact ⟨rfl, hg, (bindings_alternate_reachable _ _).2.2 hg⟩

end World
end MediaLink
