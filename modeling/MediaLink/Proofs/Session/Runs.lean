import MediaLink.Proofs.Session.Steps

/-! Every step of a run is made of moves, once the loop and the handles have changed. -/
namespace MediaLink
namespace World

variable {κ : Type} {u v w : World κ} {t : Transport} {e : Event κ} {rest : List (Event κ)}

/-- The event that a turn of the loop takes. -/
def next? (w : World κ) : Option (Event κ) :=
  if w.handles = 0 ∨ w.loop = .handling ∨ w.loop = .closed then none else w.queue.head?

/-- What a step does to attempts: a connect call that succeeds and a binding that comes back begin
one; disconnecting and the loss of the last handle end one on purpose. -/
def deeds (w : World κ) : Step κ → List Deed
  | .connect t => if w.handles ≠ 0 then if (w.connect t).isOk then [.start] else [] else []
  | .disconnect _ => if w.handles ≠ 0 then w.session.stops else []
  | .dropHandle _ => if w.handles = 1 ∧ w.loop ≠ .handling then w.session.stops else []
  | .finish _ => if w.handles = 0 ∧ w.loop = .handling then w.session.stops else []
  | .turn _ => if w.next?.any (restores w.session) then [.start] else []
  | _ => []

/-- A closed loop has outlived the session, and a session that nothing keeps is disconnected. -/
structure Settled (w : World κ) : Prop where
  closed : w.loop = .closed → w.handles = 0
  idle : w.handles = 0 → w.loop ≠ .handling → w.session.phase = .disconnected

theorem Settled.open (h : w.Settled) (hh : w.handles ≠ 0) : w.loop ≠ .closed :=
  fun hl => hh (h.closed hl)

theorem Settled.of_frame (hs : w.Settled) (h0 : w.handles ≠ 0)
    (h : v.loop = w.loop ∧ v.handles = w.handles) : v.Settled := by
  constructor
  · intro hl
    exact absurd (hs.closed (h.1.symm.trans hl)) h0
  · intro hh
    exact absurd (h.2.symm.trans hh) h0

theorem abandon_phase : (w.abandon t).session.phase = .disconnected := by
  simp only [abandon]
  split
  · simp only [tearDown]
    split <;> exact release_phase
  · simp_all

theorem awake_gone (h : w.handles = 0) : w.awake t = w ∨
    ∃ remarks, w.awake t = { w with loop := .closed, queue := [], remarks } := by
  simp only [awake]
  cases hq : w.queue with
  | nil =>
    by_cases hp : w.hasPosters = false
    · exact .inr ⟨.loopEnded :: w.remarks, by simp [h, hp, remark]⟩
    · exact .inl (by simp [h, hp])
  | cons e rest => exact .inr ⟨.loopEnded :: .discarded e :: w.remarks, by simp [h, remark]⟩

theorem awake_nil (h : w.handles ≠ 0) (hq : w.queue = []) : w.awake t = w := by
  simp [awake, h, hq]

theorem awake_cons (h : w.handles ≠ 0) (hq : w.queue = e :: rest) : w.awake t =
    handle t (remark (.dispatching e) { w with loop := .handling, queue := rest }) e := by
  simp [awake, h, hq]

theorem turn_eq (hh : w.loop ≠ .handling) (hc : w.loop ≠ .closed) :
    ∃ remarks, w.turn t = awake t { w with loop := .waiting, remarks } := by
  simp only [turn]
  cases hl : w.loop with
  | unstarted => exact ⟨_, rfl⟩
  | waiting =>
    have hw : w = { w with loop := .waiting } := by rw [← hl]
    exact ⟨w.remarks, congrArg (awake t) hw⟩
  | handling => exact absurd hl hh
  | closed => exact absurd hl hc

/-- What a turn of the loop comes to: nothing, a start, the end, or the effect of one event. -/
inductive Turned (t : Transport) (w : World κ) : World κ → Prop where
  | busy (h : w.loop = .handling ∨ w.loop = .closed) : Turned t w w
  | idle (remarks) (hh : w.loop ≠ .handling) (hn : w.next? = none) :
      Turned t w { w with loop := .waiting, remarks }
  | ended (remarks) (hh : w.loop ≠ .handling) (h0 : w.handles = 0) :
      Turned t w { w with loop := .closed, queue := [], remarks }
  | handled {e : Event κ} {rest : List (Event κ)} (remarks) (hn : w.next? = some e)
      (h0 : w.handles ≠ 0) (hq : w.queue = e :: rest) :
      Turned t w (handle t { w with loop := .handling, queue := rest, remarks } e)

theorem turned (t : Transport) (w : World κ) : Turned t w (w.turn t) := by
  by_cases hl : w.loop = .handling ∨ w.loop = .closed
  · have ht : w.turn t = w := by
      rcases hl with hl | hl <;> simp [turn, hl]
    rw [ht]
    exact .busy hl
  obtain ⟨hh, hc⟩ := not_or.mp hl
  obtain ⟨r, ht⟩ := turn_eq (t := t) hh hc
  rw [ht]
  by_cases h0 : w.handles = 0
  · rcases awake_gone (w := { w with loop := .waiting, remarks := r }) (t := t) h0 with ha | ⟨s, ha⟩
    · rw [ha]
      exact .idle r hh (if_pos (.inl h0))
    · rw [ha]
      exact .ended s hh h0
  · have hn : w.next? = w.queue.head? := if_neg (not_or.mpr ⟨h0, hl⟩)
    obtain hq | ⟨e, rest, hq⟩ : w.queue = [] ∨ ∃ e rest, w.queue = e :: rest := by
      cases w.queue <;> simp
    · rw [awake_nil (w := { w with loop := .waiting, remarks := r }) h0 hq]
      exact .idle r hh (by rw [hn, hq]; rfl)
    · rw [awake_cons (w := { w with loop := .waiting, remarks := r }) h0 hq]
      exact .handled (.dispatching e :: r) (by rw [hn, hq]; rfl) h0 hq

/-- A turn of the loop that takes an event has its effect. -/
theorem turn_next (t : Transport) (hn : w.next? = some e) : ∃ rest remarks,
    w.queue = e :: rest ∧
      w.turn t = handle t { w with loop := .handling, queue := rest, remarks } e := by
  have ht := w.turned t
  generalize w.turn t = v at ht ⊢
  cases ht with
  | busy h =>
    have hb : w.next? = none := if_pos (.inr h)
    cases hb.symm.trans hn
  | idle _ _ hi => cases hi.symm.trans hn
  | ended _ _ h0 =>
    have hb : w.next? = none := if_pos (.inl h0)
    cases hb.symm.trans hn
  | handled remarks he _ hq =>
    obtain rfl := Option.some.inj (he.symm.trans hn)
    exact ⟨_, remarks, hq, rfl⟩

/-- A step changes who holds the session and what the loop does, and then it is made of moves. -/
structure Goes (ds : List Deed) (w v : World κ) : Prop where
  moves : ∃ loop handles, Moves ds { w with loop, handles } v
  settled : v.Settled

theorem Goes.same (hs : w.Settled) : Goes [] w w := ⟨⟨w.loop, w.handles, .refl w⟩, hs⟩

theorem Goes.of_moves {ds : List Deed} (hs : w.Settled) (h0 : w.handles ≠ 0)
    (h : Moves ds w v) : Goes ds w v :=
  ⟨⟨w.loop, w.handles, h⟩, hs.of_frame h0 h.frame⟩

theorem goes_withHandle {ds : List Deed} (hs : w.Settled) (go : World κ → World κ)
    (h : w.handles ≠ 0 → Moves ds w (go w)) :
    Goes (if w.handles ≠ 0 then ds else []) w (w.withHandle go) := by
  by_cases h0 : w.handles = 0
  · simpa [withHandle, h0] using Goes.same hs
  · simpa [withHandle, h0] using Goes.of_moves hs h0 (h h0)

/-- A call that fails does nothing. -/
theorem goes_call {ds : List Deed} (hs : w.Settled) (call : World κ → Except Fault (World κ))
    (h : w.handles ≠ 0 → ∀ v, call w = .ok v → Moves ds w v) :
    Goes (if w.handles ≠ 0 then if (call w).isOk then ds else [] else []) w
      (w.withHandle fun w => w.orSame (call w)) := by
  refine goes_withHandle hs (fun w => w.orSame (call w)) fun h0 => ?_
  have hc := h h0
  cases hr : call w with
  | error fault => exact .refl w
  | ok v => exact hc v hr

theorem goes_quiet (hs : w.Settled) (call : World κ → Except Fault (World κ))
    (h : w.handles ≠ 0 → ∀ v, call w = .ok v → Moves [] w v) :
    Goes [] w (w.withHandle fun w => w.orSame (call w)) := by
  simpa using goes_call hs call h

theorem goes_cloneHandle (hs : w.Settled) : Goes [] w (w.withHandle cloneHandle) := by
  by_cases h0 : w.handles = 0
  · have hc : w.withHandle cloneHandle = w := if_pos h0
    rw [hc]
    exact .same hs
  · have hc : w.withHandle cloneHandle = { w with handles := w.handles + 1 } := if_neg h0
    rw [hc]
    exact ⟨⟨w.loop, w.handles + 1, .refl _⟩, fun hl => absurd hl (hs.open h0), by simp⟩

theorem goes_dropHandle (hs : w.Settled) :
    Goes (if w.handles = 1 ∧ w.loop ≠ .handling then w.session.stops else []) w
      (w.withHandle (dropHandle t)) := by
  by_cases h0 : w.handles = 0
  · have hc : w.withHandle (dropHandle t) = w := if_pos h0
    rw [hc, if_neg (by simp [h0])]
    exact .same hs
  · have hc : w.withHandle (dropHandle t) = w.dropHandle t := if_neg h0
    rw [hc]
    simp only [dropHandle]
    split
    · rename_i hl
      have hm := moves_abandon (w := { w with handles := w.handles - 1 }) (t := t)
      refine ⟨⟨w.loop, w.handles - 1, hm⟩, fun hc => ?_, fun _ _ => abandon_phase⟩
      exact absurd (hm.frame.1.symm.trans hc) (hs.open h0)
    · rename_i hl
      refine ⟨⟨w.loop, w.handles - 1, .refl _⟩, fun hc => absurd hc (hs.open h0), fun hz hh => ?_⟩
      simp only at hz
      exact absurd ⟨by omega, hh⟩ hl

theorem goes_finish (hs : w.Settled) :
    Goes (if w.handles = 0 ∧ w.loop = .handling then w.session.stops else []) w (w.finish t) := by
  by_cases hl : w.loop = .handling
  · by_cases h0 : w.handles = 0
    · have hm := moves_abandon (w := { w with loop := .waiting }) (t := t)
      have hf : w.finish t = abandon t { w with loop := .waiting } :=
        (if_pos hl).trans (if_pos h0)
      rw [hf, if_pos ⟨h0, hl⟩]
      refine ⟨⟨.waiting, w.handles, hm⟩, fun hc => ?_, fun _ _ => abandon_phase⟩
      exact absurd (hm.frame.1.symm.trans hc) (by simp)
    · have hf : w.finish t = { w with loop := .waiting } := (if_pos hl).trans (if_neg h0)
      rw [hf, if_neg fun hc => h0 hc.1]
      exact ⟨⟨.waiting, w.handles, .refl _⟩, by simp, fun hz => absurd hz h0⟩
  · have hf : w.finish t = w := if_neg hl
    rw [hf, if_neg fun hc => hl hc.2]
    exact .same hs

theorem goes_turn (hs : w.Settled) :
    Goes (if w.next?.any (restores w.session) then [.start] else []) w (w.turn t) := by
  have ht := w.turned t
  generalize w.turn t = v at ht ⊢
  cases ht with
  | busy h =>
    have hn : w.next? = none := if_pos (.inr h)
    rw [hn]
    exact .same hs
  | idle remarks hh hn =>
    rw [hn]
    exact ⟨⟨.waiting, w.handles, (Move.remark _ remarks).one⟩, by simp, fun h0 _ => hs.idle h0 hh⟩
  | ended remarks hh h0 =>
    have hn : w.next? = none := if_pos (.inl h0)
    have hm := (Move.close (w := { w with loop := .closed }) (hs.idle h0 hh)).one
    rw [hn]
    exact ⟨⟨.closed, w.handles, hm.tail (.remark _ remarks)⟩, fun _ => h0,
      fun _ _ => hs.idle h0 hh⟩
  | @handled e rest remarks hn h0 hq =>
    have hm := moves_handle (w := { w with loop := .handling, remarks }) (t := t) (by simp) hq
    have hd := (Move.remark { w with loop := .handling } remarks).one.trans hm
    rw [hn]
    refine ⟨⟨.handling, w.handles, hd⟩, fun hc => ?_, fun hz => ?_⟩
    · exact absurd (hm.frame.1.symm.trans hc) (by simp)
    · exact absurd (hm.frame.2.symm.trans hz) h0

theorem goes_post (hs : w.Settled) (posting : Posting) : Goes [] w (w.post posting) := by
  refine ⟨⟨w.loop, w.handles, moves_post posting⟩, ?_⟩
  obtain ⟨news, remarks, hp, -⟩ := w.post_eq posting
  rw [hp]
  exact ⟨hs.closed, hs.idle⟩

theorem goes_answer (hs : w.Settled) (result : Except RemoteFault (Option Item)) (index : Nat) :
    Goes [] w (w.answer result index) := by
  have hm := moves_answer (w := w) result index
  obtain ⟨queue, remarks, ha⟩ := w.answer_eq result index
  rw [ha] at hm ⊢
  exact ⟨⟨w.loop, w.handles, hm⟩, hs.closed, hs.idle⟩

theorem goes_step (hs : w.Settled) (s : Step κ) : Goes (w.deeds s) w (w.step s) := by
  cases s with
  | connect t => exact goes_call hs (connect t) fun h _ => moves_connect (hs.open h)
  | disconnect t => exact goes_withHandle hs _ fun _ => moves_tearDown
  | subscribe t node options callback =>
    exact goes_quiet hs (subscribe t node options callback) fun h _ => moves_subscribe (hs.open h)
  | unsubscribe t node options =>
    exact goes_quiet hs (unsubscribe t node options) fun h _ => moves_unsubscribe (hs.open h)
  | getItem mediaId callback =>
    exact goes_quiet hs (getItem mediaId callback) fun h _ => moves_getItem (hs.open h)
  | barrier =>
    have hb : Goes [] w (w.withHandle barrier) := by
      simpa using goes_withHandle hs barrier fun h => moves_enqueue (hs.open h) trivial
    exact hb
  | cloneHandle => exact goes_cloneHandle hs
  | dropHandle t => exact goes_dropHandle hs
  | post posting => exact goes_post hs posting
  | turn t => exact goes_turn hs
  | finish t => exact goes_finish hs
  | answer result index => exact goes_answer hs result index

theorem settled_create (setting : Setting) : (create (κ := κ) setting).Settled :=
  ⟨by simp [create, remark], by simp [create, remark]⟩

theorem run_append (w : World κ) (first later : List (Step κ)) :
    w.run (first ++ later) = (w.run first).run later := List.foldl_append

/-- What holds of no steps at first, and goes on to hold with every step that a run takes, holds of
every run and its steps. -/
theorem run_induction {P : List (Step κ) → World κ → Prop} {setting : Setting}
    (h : P [] (create setting))
    (hs : ∀ steps s, P steps ((create setting).run steps) →
      P (steps ++ [s]) (((create setting).run steps).step s))
    (steps : List (Step κ)) : P steps ((create setting).run steps) := by
  -- The last step comes off first, so the induction is on the steps backwards.
  have hr : ∀ back : List (Step κ), P back.reverse ((create setting).run back.reverse) := by
    intro back
    induction back with
    | nil => exact h
    | cons s back ih =>
      rw [List.reverse_cons, run_append]
      exact hs back.reverse s ih
  simpa using hr steps.reverse

theorem settled_run (hs : w.Settled) (steps : List (Step κ)) : (w.run steps).Settled := by
  induction steps generalizing w with
  | nil => exact hs
  | cons s steps ih => exact ih (goes_step hs s).settled

/-- What the steps of a run do to attempts, in order. -/
def doings (w : World κ) : List (Step κ) → List Deed
  | [] => []
  | s :: steps => w.deeds s ++ (w.step s).doings steps

/-- What holds at first, whoever holds the session and whatever its loop does, and what every move
keeps along with its deeds, holds in every run. -/
theorem run_trace {P : List Deed → World κ → Prop} {setting : Setting}
    (h : P [] (create setting))
    (hf : ∀ {ds} {w : World κ} (loop handles), P ds w → P ds { w with loop, handles })
    (hm : ∀ {ds es} {u v : World κ}, Move es u v → P ds u → P (ds ++ es) v)
    (steps : List (Step κ)) :
    P ((create setting).doings steps) ((create setting).run steps) := by
  -- From any settled world, with any deeds so far: the induction needs both.
  have hr : ∀ {ds} {w : World κ}, w.Settled → P ds w →
      P (ds ++ w.doings steps) (w.run steps) := by
    induction steps with
    | nil =>
      intro ds w _ hw
      simpa [doings, run] using hw
    | cons s steps ih =>
      intro ds w hs hw
      obtain ⟨⟨loop, handles, hd⟩, hn⟩ := goes_step hs s
      simpa [doings, run] using ih hn (hd.trace hm (hf loop handles hw))
  simpa using hr (settled_create setting) h

theorem run_keep {P : World κ → Prop} {setting : Setting} (h : P (create setting))
    (hf : ∀ {w : World κ} (loop handles), P w → P { w with loop, handles })
    (hm : ∀ {ds} {u v : World κ}, Move ds u v → P u → P v) (steps : List (Step κ)) :
    P ((create setting).run steps) :=
  run_trace (P := fun _ w => P w) h hf hm steps

end World

/-- A transport that binds before the bind call returns, to a provider that accepts before the
connect call returns. -/
def Transport.prompt : Transport where
  bind token := ⟨true, [.binder token (.bound ⟨0⟩)]⟩
  call p
    | .connect token => ⟨none, [.provider ⟨p, token⟩ (.accepted ⟨"root", "session", none⟩)]⟩
    | _ => {}

end MediaLink
