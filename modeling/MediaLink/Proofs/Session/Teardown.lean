import MediaLink.Proofs.Session.Rejections
import Mathlib.Data.List.Basic

/-! A session is ended in one way, whether the application disconnects or gives up its last handle:
with the same calls, made once. After the last handle nothing is heard of the session any more. -/
namespace MediaLink

/-- The act, if the binder, a provider or the application notices it. Questions for items are left
out: they do not need the session. -/
def Act.outward? {κ : Type} : Act κ → Option (Act κ)
  | .lookup .. | .started _ | .accepted .. | .tornDown _ => none
  | a => some a

/-- A step that ends a session, or lets its loop finish what it handles. -/
def Step.Ends {κ : Type} : Step κ → Prop
  | .disconnect _ | .dropHandle _ | .finish _ => True
  | _ => False

/-- A step that lets the loop finish what it handles. -/
def Step.Finishes {κ : Type} : Step κ → Prop
  | .finish _ => True
  | _ => False

namespace Session

variable {κ : Type} {s : Session κ}

/-- The provider that is held, and the attempt in whose name it is left. -/
def farewell? (s : Session κ) : Option (Provider × Token) :=
  match s.provider, s.attempt with
  | some p, some token => some (p, token)
  | _, _ => none

/-- The calls that end a session, in order: the provider that is held is left, whatever it answers,
and the binding that is held is released. -/
def partings (t : Transport) (s : Session κ) : List (Act κ) :=
  s.farewell?.toList.map (fun (p, token) =>
      .call p (.disconnect token) (t.call p (.disconnect token)).failure) ++
    s.binding.toList.map .unbind

/-- What the provider posts while it is left. -/
def lastPosts (t : Transport) (s : Session κ) : List Posting :=
  s.farewell?.toList.flatMap fun (p, token) => (t.call p (.disconnect token)).posts

/-- A provider is left exactly if one is held. -/
theorem Consistent.farewell? (h : s.Consistent) {p : Provider} :
    (∃ token, s.farewell? = some (p, token)) ↔ s.provider = some p := by
  constructor
  · rintro ⟨token, hf⟩
    simp only [Session.farewell?] at hf
    split at hf <;> simp_all
  · intro hp
    obtain ⟨token, ha⟩ := Option.isSome_iff_exists.mp (h.served (by simp [hp]))
    exact ⟨token, by simp [Session.farewell?, hp, ha]⟩

/-- Nothing is left to be ended. -/
structure Blank (s : Session κ) : Prop where
  phase : s.phase = .disconnected
  provider : s.provider = none
  binding : s.binding = none

theorem blank_reset (s : Session κ) : s.reset.Blank := ⟨rfl, rfl, rfl⟩

theorem Consistent.blank (h : s.Consistent) (hp : s.phase = .disconnected) : s.Blank := by
  obtain ⟨-, hb, hs, -⟩ := h.disconnected hp
  exact ⟨hp, hs, hb⟩

theorem Blank.farewell? (h : s.Blank) : s.farewell? = none := by
  simp [Session.farewell?, h.provider]

theorem Blank.partings (h : s.Blank) (t : Transport) : s.partings t = [] := by
  simp [Session.partings, h.farewell?, h.binding]

theorem Blank.lastPosts (h : s.Blank) (t : Transport) : s.lastPosts t = [] := by
  simp [Session.lastPosts, h.farewell?]

theorem outward_partings (t : Transport) (s : Session κ) :
    ∀ a ∈ s.partings t, a.outward? = some a := by
  intro a ha
  simp only [Session.partings, List.mem_append, List.mem_map] at ha
  rcases ha with ⟨_, -, rfl⟩ | ⟨_, -, rfl⟩ <;> rfl

end Session

namespace World

variable {κ : Type} {u v w : World κ} {t : Transport}

/-- What was noticed outside, oldest first. -/
def outward (w : World κ) : List (Act κ) := w.recorded Act.outward?

theorem outward_same (acts : List (Act κ)) (h : v.history = acts ++ u.history)
    (ha : ∀ a ∈ acts, a.outward? = none) : v.outward = u.outward :=
  recorded_same acts h ha

/-! What a teardown does. -/

/-- The calls that end a session as they stand on record: of each kind there is at most one. -/
theorem reverse_partings (t : Transport) (s : Session κ) :
    (s.partings t).reverse = unbinding s ++ s.farewell?.toList.map fun (p, token) =>
      .call p (.disconnect token) (t.call p (.disconnect token)).failure := by
  simp only [Session.partings, unbinding]
  cases s.farewell? <;> cases s.binding <;> rfl

theorem takeLeave_partings (t : Transport) (w : World κ) : ∃ remarks,
    w.takeLeave t =
      { w.postAll (w.session.lastPosts t) with
        history := (w.session.farewell?.toList.map fun (p, token) =>
          .call p (.disconnect token) (t.call p (.disconnect token)).failure) ++ w.history
        remarks } := by
  obtain ⟨news, remarks, hp, -⟩ := w.postAll_eq (w.session.lastPosts t)
  simp only [takeLeave, Session.lastPosts, Session.farewell?] at hp ⊢
  cases hs : w.session.provider with
  | none => exact ⟨w.remarks, rfl⟩
  | some p =>
    cases ha : w.session.attempt with
    | none => exact ⟨w.remarks, rfl⟩
    | some token =>
      simp only [hs, ha, Option.toList_some, List.flatMap_singleton] at hp
      simp only [invoke, postAll_act, Option.toList_some, List.flatMap_singleton, hp]
      split <;> exact ⟨_, rfl⟩

/-- Whatever the provider answers, a teardown clears the session and makes the calls that end it.
Nothing goes to the queue but what the provider posts meanwhile. -/
theorem tearDown_partings (t : Transport) (w : World κ) : ∃ remarks,
    w.tearDown t =
      { w.postAll (w.session.lastPosts t) with
        session := w.session.reset
        history := (w.session.partings t).reverse ++ .tornDown w.session.phase :: w.history
        remarks } := by
  obtain ⟨remarks, hl⟩ := takeLeave_partings t (w.act (.tornDown w.session.phase))
  have ha : (w.act (.tornDown w.session.phase)).session = w.session := rfl
  rw [ha, postAll_act] at hl
  simp only [tearDown, hl, release_eq, reverse_partings, List.append_assoc]
  obtain ⟨news, r, hp, -⟩ := w.postAll_eq (w.session.lastPosts t)
  split
  · exact ⟨remarks, by rw [hp]; rfl⟩
  · exact ⟨_, by rw [hp]; rfl⟩

/-- The second world comes from the first by a teardown, as far as it is noticed outside. -/
structure Parted (t : Transport) (u v : World κ) : Prop where
  outward : v.outward = u.outward ++ u.session.partings t
  queue : v.queue = (u.postAll (u.session.lastPosts t)).queue

theorem outward_parted {acts : List (Act κ)} (h : v.history = acts.reverse ++ u.history)
    (ha : ∀ a ∈ acts, a.outward? = some a) : v.outward = u.outward ++ acts := by
  have hf : acts.filterMap Act.outward? = acts :=
    (List.filterMap_congr ha).trans List.filterMap_some
  rw [outward, recorded_append h, List.filterMap_reverse, List.reverse_reverse, hf, outward]

theorem parted_tearDown (t : Transport) (w : World κ) : Parted t w (w.tearDown t) := by
  obtain ⟨remarks, ht⟩ := tearDown_partings t w
  rw [ht]
  refine ⟨?_, rfl⟩
  have hw : (w.act (.tornDown w.session.phase)).outward = w.outward :=
    outward_same [_] rfl (by simp [Act.outward?])
  rw [← hw]
  exact outward_parted rfl (Session.outward_partings t w.session)

theorem parted_blank (h : w.session.Blank) (t : Transport) : Parted t w w := by
  constructor
  · rw [h.partings, List.append_nil]
  · rw [h.lastPosts]
    rfl

theorem parted_abandon (h : w.session.Consistent) (t : Transport) : Parted t w (w.abandon t) := by
  simp only [abandon]
  split
  · exact parted_tearDown t w
  · rename_i hn
    exact parted_blank (h.blank (Classical.not_not.mp (not_or.mp hn).1)) t

/-! Who holds the session, and what its loop does, is of no account for a teardown. -/

theorem post_frame (posting : Posting) (w : World κ) {loop : Loop} (handles : Nat)
    (hw : w.loop ≠ .closed) (hl : loop ≠ .closed) :
    post { w with loop, handles } posting = { w.post posting with loop, handles } := by
  cases posting <;> simp only [post, offer, hw, hl, if_false] <;> split <;> rfl

theorem postAll_frame (posts : List Posting) (w : World κ) {loop : Loop} (handles : Nat)
    (hw : w.loop ≠ .closed) (hl : loop ≠ .closed) :
    postAll posts { w with loop, handles } = { w.postAll posts with loop, handles } := by
  induction posts generalizing w with
  | nil => rfl
  | cons posting posts ih =>
    obtain ⟨news, remarks, hp, -⟩ := w.post_eq posting
    have hn := ih (w.post posting) (by rw [hp]; exact hw)
    rw [← post_frame posting w handles hw hl] at hn
    exact hn

theorem Parted.frame {loop : Loop} {handles : Nat} (hw : w.loop ≠ .closed) (hl : loop ≠ .closed)
    (h : Parted t { w with loop, handles } v) : Parted t w v := by
  refine ⟨h.outward, ?_⟩
  have hq := h.queue
  rw [postAll_frame _ w handles hw hl] at hq
  exact hq

theorem parted_dropHandle (hs : w.Settled) (hc : w.session.Consistent) (h1 : w.handles = 1)
    (hl : w.loop ≠ .handling) (t : Transport) :
    Parted t w (w.step (.dropHandle t)) ∧ (w.step (.dropHandle t)).Gone := by
  have h0 : w.handles ≠ 0 := by omega
  have hd : w.step (.dropHandle t) = abandon t { w with handles := 0 } := by
    simp [step, withHandle, dropHandle, h1, hl]
  rw [hd]
  refine ⟨.frame (hs.open h0) (hs.open h0)
    (parted_abandon (w := { w with handles := 0 }) hc t), ?_, ?_⟩
  · exact moves_abandon.frame.2
  · rw [moves_abandon.frame.1]
    exact hl

theorem parted_finish (hc : w.session.Consistent) (h0 : w.handles = 0) (hl : w.loop = .handling)
    (t : Transport) : Parted t w (w.step (.finish t)) ∧ (w.step (.finish t)).Gone := by
  have hd : w.step (.finish t) = abandon t { w with loop := .waiting } := by
    simp [step, finish, h0, hl]
  rw [hd]
  refine ⟨.frame (by simp [hl]) (by simp)
    (parted_abandon (w := { w with loop := .waiting }) hc t), ?_, ?_⟩
  · exact moves_abandon.frame.2.trans h0
  · rw [moves_abandon.frame.1]
    simp

/-! A session that nobody holds any more. -/

theorem outward_answered (w : World κ) (s : Step κ) : (w.answered s).outward = w.outward := by
  cases s with
  | answer result index =>
    refine outward_same _ rfl fun a ha => ?_
    obtain ⟨_, -, rfl⟩ := Option.map_eq_some_iff.mp (Option.mem_toList.mp ha)
    rfl
  | _ => rfl

/-- A step is not noticed outside, and it leaves the session and its loop as they were. -/
structure Unnoticed (u v : World κ) : Prop where
  handles : v.handles = u.handles
  handling : v.loop = .handling ↔ u.loop = .handling
  session : v.session = u.session
  outward : v.outward = u.outward

theorem Unnoticed.refl (w : World κ) : Unnoticed w w := ⟨rfl, .rfl, rfl, rfl⟩

theorem Unnoticed.trans (h : Unnoticed u v) (hs : Unnoticed v w) : Unnoticed u w :=
  ⟨hs.handles.trans h.handles, hs.handling.trans h.handling, hs.session.trans h.session,
    hs.outward.trans h.outward⟩

theorem unnoticed_answered (w : World κ) (s : Step κ) (queue : List (Event κ))
    (remarks : List (Remark κ)) {loop : Loop} (hl : loop = .handling ↔ w.loop = .handling) :
    Unnoticed w { w.answered s with queue, loop, remarks } := by
  refine ⟨?_, hl, ?_, w.outward_answered s⟩
  · cases s <;> rfl
  · cases s <;> rfl

/-- Without a handle nothing is noticed of a step, unless it lets the loop finish. -/
theorem unnoticed_step (h0 : w.handles = 0) {s : Step κ} (hf : w.loop = .handling → ¬ s.Finishes) :
    Unnoticed w (w.step s) := by
  by_cases hl : w.loop = .handling
  · cases s with
    | finish => exact absurd trivial (hf hl)
    | connect | disconnect | subscribe | unsubscribe | getItem | barrier | cloneHandle
    | dropHandle =>
      simp only [step, withHandle, h0, if_true]
      exact .refl w
    | post posting =>
      obtain ⟨news, remarks, hp, -⟩ := w.post_eq posting
      simp only [step, hp]
      exact ⟨rfl, .rfl, rfl, rfl⟩
    | turn t =>
      simp only [step, turn, hl]
      exact .refl w
    | answer result index =>
      obtain ⟨queue, remarks, ha⟩ := w.answer_eq result index
      simp only [step, ha]
      exact unnoticed_answered w (.answer result index) queue remarks .rfl
  · obtain ⟨queue, loop, remarks, hs, hn⟩ := Gone.step ⟨h0, hl⟩ s
    rw [hs]
    exact unnoticed_answered w s queue remarks (by simp [hl, hn])

theorem unnoticed_run (h0 : w.handles = 0) {steps : List (Step κ)}
    (hf : w.loop = .handling → ∀ s ∈ steps, ¬ s.Finishes) : Unnoticed w (w.run steps) := by
  induction steps generalizing w with
  | nil => exact .refl w
  | cons s steps ih =>
    have hs : Unnoticed w (w.step s) :=
      unnoticed_step h0 fun hl => hf hl s List.mem_cons_self
    refine hs.trans (ih (hs.handles.trans h0) fun hl r hr => ?_)
    exact hf (hs.handling.mp hl) r (List.mem_cons_of_mem _ hr)

/-! A session that has been ended. -/

theorem abandon_blank (h : w.session.Blank) (t : Transport) : w.abandon t = w := by
  simp [abandon, h.phase, h.binding]

theorem Parted.blank (h : Parted t u v) (hu : u.session.Blank) : v.outward = u.outward := by
  rw [h.outward, hu.partings, List.append_nil]

theorem session_tearDown (t : Transport) (w : World κ) :
    (w.tearDown t).session = w.session.reset := by
  obtain ⟨remarks, ht⟩ := tearDown_partings t w
  rw [ht]

/-- What has been ended is not ended again. -/
theorem blank_step (h : w.session.Blank) {s : Step κ} (hs : s.Ends) :
    (w.step s).session.Blank ∧ (w.step s).outward = w.outward := by
  cases s with
  | disconnect t =>
    simp only [step, withHandle]
    split
    · exact ⟨h, rfl⟩
    · refine ⟨?_, (parted_tearDown t w).blank h⟩
      rw [disconnect, session_tearDown]
      exact Session.blank_reset _
  | dropHandle t =>
    simp only [step, withHandle, dropHandle]
    split
    · exact ⟨h, rfl⟩
    · split
      · rw [abandon_blank (w := { w with handles := w.handles - 1 }) h]
        exact ⟨h, rfl⟩
      · exact ⟨h, rfl⟩
  | finish t =>
    simp only [step, finish]
    split
    · split
      · rw [abandon_blank (w := { w with loop := .waiting }) h]
        exact ⟨h, rfl⟩
      · exact ⟨h, rfl⟩
    · exact ⟨h, rfl⟩
  | _ => exact hs.elim

theorem blank_run (h : w.session.Blank) {steps : List (Step κ)} (hs : ∀ s ∈ steps, s.Ends) :
    (w.run steps).outward = w.outward := by
  induction steps generalizing w with
  | nil => rfl
  | cons s steps ih =>
    obtain ⟨hb, ho⟩ := blank_step h (hs s List.mem_cons_self)
    exact (ih hb fun r hr => hs r (List.mem_cons_of_mem _ hr)).trans ho

/-- In every run a session is ended by the same calls in the same order, whether the application
disconnects, gives up its last handle, or gives it up in a callback that then returns: the provider
is left, if one is held, and the binding is released, if one is held. Whatever the provider answers,
nothing is queued because of it. Once disconnected, the session is as it was made, but for its
subscriptions, and there is nothing left to be ended. Once nobody holds it, neither the application
nor the binder nor a provider hears of it, whatever is queued or posted or still looked up. -/
theorem ended_once_reachable (setting : Setting) (steps : List (Step κ)) (t : Transport) :
    let w := (create setting).run steps
    (∀ p, w.session.provider = some p ↔ ∃ token, w.session.farewell? = some (p, token)) ∧
    (w.handles ≠ 0 →
      let v := w.step (.disconnect t)
      Parted t w v ∧
      v.session =
        { (create (κ := κ) setting).session with subscriptions := w.session.subscriptions } ∧
      ∀ later, (∀ s ∈ later, s.Ends) → (v.run later).outward = v.outward) ∧
    (w.handles = 1 → w.loop ≠ .handling →
      Parted t w (w.step (.dropHandle t)) ∧ (w.step (.dropHandle t)).Gone) ∧
    (w.handles = 1 → w.loop = .handling → ∀ other meanwhile, (∀ s ∈ meanwhile, ¬ s.Finishes) →
      let u := (w.step (.dropHandle other)).run meanwhile
      u.session = w.session ∧ u.outward = w.outward ∧
        Parted t u (u.step (.finish t)) ∧ (u.step (.finish t)).Gone) ∧
    (w.Gone → ∀ later, (w.run later).outward = w.outward) := by
  intro w
  have hs : w.Settled := settled_run (settled_create setting) steps
  have hc : w.session.Consistent := (sound_reachable setting steps).consistent
  refine ⟨fun p => hc.farewell?.symm, fun h0 => ?_, fun h1 hl => parted_dropHandle hs hc h1 hl t,
    fun h1 hl other meanwhile hm => ?_, fun hg later => ?_⟩
  · have hd : w.step (.disconnect t) = w.tearDown t := if_neg h0
    simp only [hd]
    refine ⟨parted_tearDown t w, session_tearDown t w, fun later hl => blank_run ?_ hl⟩
    rw [session_tearDown]
    exact Session.blank_reset _
  · intro u
    have hd : w.step (.dropHandle other) = { w with handles := 0 } := by
      simp [step, withHandle, dropHandle, h1, hl]
    have hu : Unnoticed { w with handles := 0 } u := by
      simp only [u, hd]
      exact unnoticed_run rfl fun _ => hm
    have hlu : u.loop = .handling := hu.handling.mpr hl
    refine ⟨hu.session, hu.outward, parted_finish ?_ hu.handles hlu t⟩
    rw [hu.session]
    exact hc
  · exact (unnoticed_run hg.1 fun hl => absurd hl hg.2).outward

/-- A provider that is gone when it is left, in the callback that tells of the connection: by the
application, or with its last handle, after which the binder still posts. Before that callback, the
last handle is given up between two events, and the binder posts as well. -/
theorem ended_once_in_callback :
    let gone : Transport := ⟨Transport.prompt.bind, fun _ _ => ⟨some .disconnected, []⟩⟩
    let fresh : World Unit := create ⟨⟨"package", "class"⟩, "client", none⟩
    let before : List (Step Unit) := [.connect .prompt, .turn .prompt, .finish .prompt]
    let asked := fresh.run before
    let w := fresh.run (before ++ [.turn .prompt])
    let v := w.step (.disconnect gone)
    let u := (w.step (.dropHandle gone)).run [.post (.binder ⟨1⟩ .unbound), .turn gone]
    let dropped := fresh.run (before ++ [.dropHandle gone])
    w.handles = 1 ∧ w.loop = .handling ∧ w.session.phase = .connected ∧
      w.session.partings gone =
        [.call ⟨0⟩ (.disconnect ⟨1⟩) (some .disconnected), .unbind ⟨1⟩] ∧
      Parted gone w v ∧
      (v.run [.disconnect gone, .dropHandle gone, .finish gone]).outward = v.outward ∧
      u.outward = w.outward ∧ Parted gone u (u.step (.finish gone)) ∧
      Parted gone asked (asked.step (.dropHandle gone)) ∧ dropped.Gone ∧
      (dropped.run [.post (.binder ⟨1⟩ (.bound ⟨0⟩)), .turn gone]).outward = dropped.outward := by
  intro gone fresh before asked w v u dropped
  let setting : Setting := ⟨⟨"package", "class"⟩, "client", none⟩
  obtain ⟨-, hd, -, hl, -⟩ := ended_once_reachable setting (before ++ [.turn .prompt]) gone
  obtain ⟨hv, -, hagain⟩ := hd (by decide)
  have h1 : w.handles = 1 := by decide
  have hh : w.loop = .handling := by decide
  obtain ⟨-, ho, hp, -⟩ := hl h1 hh gone [.post (.binder ⟨1⟩ .unbound), .turn gone]
    (by simp [Step.Finishes])
  obtain ⟨-, -, hb, -⟩ := ended_once_reachable setting before gone
  obtain ⟨-, -, -, -, hs⟩ := ended_once_reachable setting (before ++ [.dropHandle gone]) gone
  have hd1 : asked.handles = 1 := by decide
  have hg : dropped.Gone := ⟨by decide, by decide⟩
  have hf : w.session.farewell? = some (⟨0⟩, ⟨1⟩) := by decide
  have hw : w.session.binding = some ⟨1⟩ := by decide
  refine ⟨h1, hh, by decide, ?_, hv, hagain _ (by simp [Step.Ends]), ho, hp,
    (hb hd1 (by decide)).1, hg, hs hg _⟩
  rw [Session.partings, hf, hw]
  rfl

end World
end MediaLink
