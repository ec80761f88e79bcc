import MediaLink.Proofs.Session.Durability
import MediaLink.Proofs.Session.Errand
import MediaLink.Proofs.Session.Staleness

/-! Every request for an item is answered once, whatever becomes of the session meanwhile. -/
namespace MediaLink

variable {κ : Type}

/-- A call for an item that succeeded. While connected it asks the provider that is held then. -/
structure Inquiry (κ : Type) where
  mediaId : String
  callback : κ
  provider : Option Provider
  deriving DecidableEq, Repr

/-- The item that a lookup has found, if any. -/
def found : Except RemoteFault (Option Item) → Option Item
  | .ok item => item
  | .error _ => none

namespace Inquiry

variable {q : Inquiry κ} {n : Nat} {e : Errand κ}

/-- Without a provider nobody is asked and there is no item. Otherwise this provider was asked,
once, and the item is what it found. -/
def Earned (q : Inquiry κ) (n : Nat) (asked : List (Act κ)) (item : Option Item) : Prop :=
  match q.provider with
  | none => asked = [] ∧ item = none
  | some p => ∃ result, asked = [.lookup n p q.mediaId result] ∧ item = found result

/-- Where a request has got to: it is under way, or its answer waits, or it was given. -/
inductive Place (q : Inquiry κ) (n : Nat) : Errand κ → Prop where
  | pending {made p} (h : q.provider = some p) :
      Place q n ⟨made, [⟨n, p, q.mediaId, q.callback⟩], [], [], []⟩
  | queued {made asked item} (h : q.Earned n asked item) :
      Place q n ⟨made, [], [.item n q.mediaId item q.callback], asked, []⟩
  | told {made asked item} (h : q.Earned n asked item) :
      Place q n ⟨made, [], [], asked, [.item q.callback n q.mediaId item]⟩

theorem Place.remade (h : q.Place n e) (made : Nat) : q.Place n { e with made } := by
  cases h with
  | pending h => exact .pending h
  | queued h => exact .queued h
  | told h => exact .told h

/-- What was told is the answer that the request has earned, told to its own callback. -/
theorem Place.heard (h : q.Place n e) : ∀ told ∈ e.notices, ∃ item,
    q.Earned n e.asked item ∧ told = (q.callback, .of q.mediaId item) := by
  cases h with
  | pending => exact List.forall_mem_nil _
  | queued => exact List.forall_mem_nil _
  | @told made asked item h =>
    intro told ht
    exact ⟨item, h, List.mem_singleton.mp ht⟩

end Inquiry

namespace World

variable {v w : World κ} {t : Transport} {e : Event κ} {qs : List (Inquiry κ)} {q : Inquiry κ}

/-- The call for an item that a step makes, if it succeeds. -/
def inquiry (w : World κ) : Step κ → List (Inquiry κ)
  | .getItem mediaId callback =>
    if w.handles ≠ 0 ∧ (w.getItem mediaId callback).isOk then
      [⟨mediaId, callback, if w.session.phase = .connected then w.session.provider else none⟩]
    else []
  | _ => []

/-- The calls for items that succeed in a run, in order. -/
def inquiries (w : World κ) : List (Step κ) → List (Inquiry κ)
  | [] => []
  | s :: steps => w.inquiry s ++ (w.step s).inquiries steps

theorem inquiries_snoc (w : World κ) (steps : List (Step κ)) (s : Step κ) :
    w.inquiries (steps ++ [s]) = w.inquiries steps ++ (w.run steps).inquiry s := by
  induction steps generalizing w with
  | nil => simp [inquiries, run]
  | cons a steps ih =>
    have hr : w.run (a :: steps) = (w.step a).run steps := rfl
    simp only [List.cons_append, inquiries, ih, hr, List.append_assoc]

/-- The requests that were made are numbered from one, and each is at its place. -/
structure Accounted (qs : List (Inquiry κ)) (w : World κ) : Prop where
  made : w.requests = qs.length
  unmade : ∀ n, w.requests < n → w.errand n = ⟨w.requests, [], [], [], []⟩
  placed : ∀ i (q : Inquiry κ), qs[i]? = some q → q.Place (i + 1) (w.errand (i + 1))

theorem accounted_create (setting : Setting) : Accounted [] (create (κ := κ) setting) :=
  ⟨rfl, fun _ _ => rfl, by simp⟩

theorem Accounted.same (h : Accounted qs w) (he : ∀ n, v.errand n = w.errand n) :
    Accounted qs v := by
  have hr : v.requests = w.requests := congrArg Errand.made (he 0)
  refine ⟨hr.trans h.made, ?_, ?_⟩
  · intro n hn
    rw [he, hr]
    exact h.unmade n (hr ▸ hn)
  · intro i q hq
    rw [he]
    exact h.placed i q hq

/-- One more request was made. -/
theorem Accounted.ask (h : Accounted qs w) (hr : v.requests = w.requests + 1)
    (ho : ∀ n, n ≠ w.requests + 1 → v.errand n = { w.errand n with made := w.requests + 1 })
    (hp : q.Place (w.requests + 1) (v.errand (w.requests + 1))) : Accounted (qs ++ [q]) v := by
  have hm := h.made
  refine ⟨?_, ?_, ?_⟩
  · rw [hr, hm, List.length_append]
    rfl
  · intro n hn
    rw [ho n (by omega), h.unmade n (by omega), hr]
  · intro i p hi
    by_cases he : i = qs.length
    · rw [he, List.getElem?_concat_length] at hi
      cases hi
      rw [he, ← hm]
      exact hp
    · have hlt : i < qs.length := by
        have hl : i < (qs ++ [q]).length := (List.getElem?_eq_some_iff.mp hi).1
        simp only [List.length_append, List.length_singleton] at hl
        omega
      rw [List.getElem?_append_left hlt] at hi
      rw [ho (i + 1) (by omega)]
      exact (h.placed i p hi).remade _

/-- One request that was made goes on to its next place. -/
theorem Accounted.advance (h : Accounted qs w) (m : Nat)
    (hm : w.errand m ≠ ⟨w.requests, [], [], [], []⟩)
    (hr : v.requests = w.requests) (ho : ∀ n, n ≠ m → v.errand n = w.errand n)
    (hp : ∀ q : Inquiry κ, q.Place m (w.errand m) → q.Place m (v.errand m)) :
    Accounted qs v := by
  have hle : m ≤ w.requests := by
    apply Nat.le_of_not_lt
    intro hlt
    exact hm (h.unmade m hlt)
  refine ⟨hr.trans h.made, ?_, ?_⟩
  · intro n hn
    rw [ho n (by omega), hr]
    exact h.unmade n (by omega)
  · intro i q hi
    by_cases he : i + 1 = m
    · subst he
      exact hp q (h.placed i q hi)
    · rw [ho (i + 1) he]
      exact h.placed i q hi

theorem getItem_asking {p : Provider} {token : Token} {mediaId : String}
    (hs : w.session.live? = some (p, token)) (hm : mediaId ≠ "") (callback : κ) :
    w.getItem mediaId callback = .ok { w with
      requests := w.requests + 1
      lookups := w.lookups ++ [⟨w.requests + 1, p, mediaId, callback⟩] } := by
  simp [getItem, hm, hs]

theorem getItem_alone {mediaId : String} (hs : w.session.live? = none) (hl : w.loop ≠ .closed)
    (hm : mediaId ≠ "") (callback : κ) :
    w.getItem mediaId callback = .ok { w with
      requests := w.requests + 1
      queue := w.queue ++ [.item (w.requests + 1) mediaId none callback]
      remarks := .notConnected mediaId :: w.remarks } := by
  simp [getItem, hm, hs, enqueue, offer, remark, hl]

/-- There is nothing of the request that is made next. -/
theorem Accounted.next (h : Accounted qs w) :
    w.lookups.filter (fun l => l.request == w.requests + 1) = [] ∧
      w.queue.filter (Event.answers (w.requests + 1)) = [] ∧
      w.history.filter (Act.looksUp (w.requests + 1)) = [] ∧
      w.history.filter (Act.tells (w.requests + 1)) = [] := by
  have hu := h.unmade (w.requests + 1) (Nat.lt_succ_self _)
  simpa only [errand, Errand.mk.injEq, true_and] using hu

theorem Accounted.ask_provider (h : Accounted qs w) (p : Provider) (mediaId : String)
    (callback : κ) : Accounted (qs ++ [⟨mediaId, callback, some p⟩])
      { w with
        requests := w.requests + 1
        lookups := w.lookups ++ [⟨w.requests + 1, p, mediaId, callback⟩] } := by
  obtain ⟨hp, hq, ha, ht⟩ := h.next
  apply h.ask rfl
  · intro n hn
    simp [errand, Ne.symm hn]
  · simp only [errand, List.filter_append, hp, hq, ha, ht]
    simpa using Inquiry.Place.pending (q := ⟨mediaId, callback, some p⟩) rfl

theorem Accounted.ask_nobody (h : Accounted qs w) (mediaId : String) (callback : κ)
    (remarks : List (Remark κ)) : Accounted (qs ++ [⟨mediaId, callback, none⟩])
      { w with
        requests := w.requests + 1
        queue := w.queue ++ [.item (w.requests + 1) mediaId none callback]
        remarks } := by
  obtain ⟨hp, hq, ha, ht⟩ := h.next
  apply h.ask rfl
  · intro n hn
    simp [errand, Event.answers, Ne.symm hn]
  · simp only [errand, List.filter_append, hp, hq, ha, ht]
    have he : Inquiry.Earned ⟨mediaId, callback, none⟩ (w.requests + 1) [] none := ⟨rfl, rfl⟩
    simpa [Event.answers] using Inquiry.Place.queued he

/-- A call for an item that succeeds is a request of its own. -/
theorem accounted_getItem (hl : w.loop ≠ .closed) (hc : w.session.Consistent)
    (h : Accounted qs w) (mediaId : String) (callback : κ) :
    Accounted (qs ++ if (w.getItem mediaId callback).isOk then
      [⟨mediaId, callback, if w.session.phase = .connected then w.session.provider else none⟩]
      else []) (w.orSame (w.getItem mediaId callback)) := by
  by_cases hm : mediaId = ""
  · have hg : w.getItem mediaId callback = .error .emptyMedia := if_pos hm
    rw [hg]
    simpa [orSame, Except.isOk, Except.toBool] using h
  cases hs : w.session.live? with
  | some live =>
    obtain ⟨p, token⟩ := live
    obtain ⟨hp, hpr, -⟩ := Session.live?_eq_some.mp hs
    rw [getItem_asking hs hm, hp, hpr]
    exact h.ask_provider p mediaId callback
  | none =>
    have hp : w.session.phase ≠ .connected := by
      intro hp
      obtain ⟨p, token, hl⟩ := hc.live hp
      cases hs.symm.trans hl
    rw [getItem_alone hs hl hm, if_neg hp]
    exact h.ask_nobody mediaId callback _

theorem answer_eq_of_open (hl : w.loop ≠ .closed) {index : Nat} {l : Lookup κ}
    (hi : w.lookups[index]? = some l) (result : Except RemoteFault (Option Item)) :
    ∃ remarks, w.answer result index =
      { w with
        lookups := w.lookups.eraseIdx index
        history := .lookup l.request l.provider l.mediaId result :: w.history
        queue := w.queue ++ [.item l.request l.mediaId (found result) l.callback]
        remarks } := by
  simp only [answer, hi]
  cases result with
  | ok item => exact ⟨w.remarks, by simp [act, hl, found]⟩
  | error fault =>
    exact ⟨.lookupFailed l.mediaId fault :: w.remarks, by simp [act, remark, hl, found]⟩

theorem lookups_split {index : Nat} {l : Lookup κ} (hi : w.lookups[index]? = some l) :
    ∃ first later, w.lookups = first ++ l :: later ∧
      w.lookups.eraseIdx index = first ++ later := by
  obtain ⟨hlt, rfl⟩ := List.getElem?_eq_some_iff.mp hi
  refine ⟨w.lookups.take index, w.lookups.drop (index + 1), ?_, ?_⟩
  · rw [← List.drop_eq_getElem_cons hlt, List.take_append_drop]
  · exact List.eraseIdx_eq_take_drop_succ ..

/-- A lookup that is over leaves its answer in the queue. -/
theorem Accounted.answered (h : Accounted qs w) {first later : List (Lookup κ)} {l : Lookup κ}
    (hw : w.lookups = first ++ l :: later) (result : Except RemoteFault (Option Item))
    (remarks : List (Remark κ)) :
    Accounted qs
      { w with
        lookups := first ++ later
        history := .lookup l.request l.provider l.mediaId result :: w.history
        queue := w.queue ++ [.item l.request l.mediaId (found result) l.callback]
        remarks } := by
  obtain ⟨n, p, mediaId, callback⟩ := l
  refine h.advance n ?_ rfl ?_ ?_
  · intro hu
    simp [errand, hw] at hu
  · intro m hn
    simp [errand, hw, Event.answers, Act.looksUp, Act.tells, Ne.symm hn]
  · intro q hq
    generalize hg : w.errand n = g at hq
    cases hq with
    | queued => simp [errand, hw] at hg
    | told => simp [errand, hw] at hg
    | pending hp =>
      simp only [errand, hw, List.filter_append, List.filter_cons, beq_self_eq_true, if_true,
        Errand.mk.injEq] at hg
      obtain ⟨-, hl, hq, ha, ht⟩ := hg
      -- This lookup is the only one of its request.
      rcases List.append_eq_singleton_iff.mp hl with ⟨hf, hs⟩ | ⟨-, hs⟩
      · obtain ⟨hs, hr⟩ := List.cons.inj hs
        cases hs
        have he : q.Earned n [.lookup n p q.mediaId result] (found result) := by
          simp [Inquiry.Earned, hp]
        simp only [errand, List.filter_append, hf, hr, hq]
        simpa [Event.answers, Act.looksUp, Act.tells, ha, ht] using Inquiry.Place.queued he
      · cases hs

theorem accounted_answer (hl : w.loop ≠ .closed) (h : Accounted qs w)
    (result : Except RemoteFault (Option Item)) (index : Nat) :
    Accounted qs (w.answer result index) := by
  cases hi : w.lookups[index]? with
  | none =>
    have ha : w.answer result index = w := by simp [answer, hi]
    rwa [ha]
  | some l =>
    obtain ⟨remarks, ha⟩ := answer_eq_of_open hl hi result
    obtain ⟨first, later, hw, he⟩ := lookups_split hi
    rw [ha, he]
    exact h.answered hw result remarks

/-- An answer that is handled is given to the application. -/
theorem accounted_told {request : Nat} {mediaId : String} {item : Option Item} {callback : κ}
    {rest : List (Event κ)} (h : Accounted qs w)
    (hq : w.queue = .item request mediaId item callback :: rest) (remarks : List (Remark κ)) :
    Accounted qs (handle t { w with loop := .handling, queue := rest, remarks }
      (.item request mediaId item callback)) := by
  refine h.advance request ?_ rfl ?_ ?_
  · intro hu
    simp [errand, hq, Event.answers] at hu
  · intro n hn
    simp [errand, handle, act, hq, Event.answers, Act.looksUp, Act.tells, Ne.symm hn]
  · intro q hp
    generalize hg : w.errand request = g at hp
    cases hp with
    | pending => simp [errand, hq, Event.answers] at hg
    | told => simp [errand, hq, Event.answers] at hg
    | queued he =>
      simp only [errand, hq, List.filter_cons, Event.answers, beq_self_eq_true, if_true,
        Errand.mk.injEq] at hg
      obtain ⟨-, hl, hw, ha, ht⟩ := hg
      obtain ⟨hs, hr⟩ := List.cons.inj hw
      cases hs
      simp only [errand, handle, act, hl, hr]
      simpa [Act.looksUp, Act.tells, ha, ht] using Inquiry.Place.told he

theorem accounted_turn (h : Accounted qs w) (hv : (w.turn t).handles ≠ 0) :
    Accounted qs (w.turn t) := by
  have ht := w.turned t
  generalize w.turn t = v at ht hv ⊢
  cases ht with
  | busy => exact h
  | idle => exact h.same fun _ => rfl
  | ended _ _ h0 => exact absurd h0 hv
  | @handled e rest remarks hn h0 hq =>
    by_cases hi : ∀ n, e.answers n = false
    · refine h.same fun n => ?_
      rw [errand_handle hi]
      simp [errand, hq, hi n]
    · cases e with
      | item request mediaId item callback => exact accounted_told h hq remarks
      | _ => exact absurd (fun _ => rfl) hi

theorem accounted_step (hs : w.Settled) (hc : w.session.Consistent) (h : Accounted qs w)
    (h0 : w.handles ≠ 0) (s : Step κ) (hv : (w.step s).handles ≠ 0) :
    Accounted (qs ++ w.inquiry s) (w.step s) := by
  have hq : ∀ v : World κ, (∀ n, v.errand n = w.errand n) → Accounted (qs ++ []) v := by
    intro v he
    rw [List.append_nil]
    exact h.same he
  cases s with
  | getItem mediaId callback =>
    have hg := accounted_getItem (hs.open h0) hc h mediaId callback
    have hw : w.step (.getItem mediaId callback) = w.orSame (w.getItem mediaId callback) :=
      if_neg h0
    rw [hw]
    simpa [inquiry, h0] using hg
  | answer result index =>
    have ha : qs ++ w.inquiry (.answer result index) = qs := List.append_nil qs
    rw [ha]
    exact accounted_answer (hs.open h0) h result index
  | turn t =>
    have ha : qs ++ w.inquiry (.turn t) = qs := List.append_nil qs
    rw [ha]
    exact accounted_turn h hv
  | connect t => exact hq _ fun n => errand_withHandle errand_connect
  | disconnect t => exact hq _ fun n => errand_withHandle errand_tearDown
  | subscribe t node options callback =>
    exact hq _ fun n => errand_withHandle (errand_subscribe node options callback)
  | unsubscribe t node options =>
    exact hq _ fun n => errand_withHandle (errand_unsubscribe node options)
  | barrier => exact hq _ fun n => errand_withHandle (errand_enqueue rfl)
  | cloneHandle => exact hq _ fun n => errand_withHandle rfl
  | dropHandle t => exact hq _ fun n => errand_withHandle errand_dropHandle
  | post posting => exact hq _ fun n => errand_post posting
  | finish t => exact hq _ fun n => errand_finish

theorem accounted_reachable (setting : Setting) (steps : List (Step κ))
    (hv : ((create setting).run steps).handles ≠ 0) :
    Accounted ((create setting).inquiries steps) ((create setting).run steps) := by
  revert hv
  refine run_induction (P := fun steps w => w.handles ≠ 0 →
    Accounted ((create setting).inquiries steps) w) (fun _ => accounted_create setting) ?_ steps
  intro steps s ih hv
  have h0 : ((create setting).run steps).handles ≠ 0 := fun h => hv (handles_step h s)
  rw [inquiries_snoc]
  exact accounted_step (settled_run (settled_create setting) steps)
    (sound_reachable setting steps).consistent (ih h0) h0 s hv

/-- What the application was told about items, oldest first, and through which callbacks. -/
def itemNotices (w : World κ) : List (κ × ItemNotice) := w.recorded Act.itemNotice?

theorem getItem_quiet (w : World κ) (mediaId : String) (callback : κ) :
    (w.step (.getItem mediaId callback)).history = w.history ∧
      (w.step (.getItem mediaId callback)).session = w.session := by
  simp only [step, withHandle]
  split
  · exact ⟨rfl, rfl⟩
  · simp only [getItem]
    split
    · exact ⟨rfl, rfl⟩
    · split
      · exact ⟨rfl, rfl⟩
      · simp only [orSame, enqueue, offer]
        split
        · exact ⟨rfl, rfl⟩
        · exact ⟨rfl, rfl⟩

theorem answer_quiet (w : World κ) (result : Except RemoteFault (Option Item)) (index : Nat) :
    (w.answer result index).session = w.session := by
  obtain ⟨queue, remarks, ha⟩ := w.answer_eq result index
  rw [ha]

/-- In every run, as long as somebody holds the session, each call for an item that has succeeded
is at one place, with nothing of it anywhere else: its lookup is under way, or one answer waits, or
one answer was given. A call that was made without a connection asks nobody and finds nothing;
otherwise the provider that was held then is asked, once, and the answer is what it found. The call
itself tells nothing, and neither a lookup that is over nor its answer changes the session. What is
told is the item or, if there is none, an error that names what was asked for. -/
theorem items_answered_once_reachable (setting : Setting) (steps : List (Step κ)) :
    let w := (create setting).run steps
    (w.handles ≠ 0 → w.requests = ((create setting).inquiries steps).length ∧
      ∀ i (q : Inquiry κ), ((create setting).inquiries steps)[i]? = some q →
        q.Place (i + 1) (w.errand (i + 1)) ∧
          ∀ told ∈ (w.errand (i + 1)).notices, ∃ item,
            q.Earned (i + 1) (w.errand (i + 1)).asked item ∧
              told = (q.callback, .of q.mediaId item)) ∧
    (∀ mediaId callback, (w.step (.getItem mediaId callback)).history = w.history ∧
      (w.step (.getItem mediaId callback)).session = w.session) ∧
    (∀ result index, (w.step (.answer result index)).session = w.session) ∧
    ∀ t request mediaId item callback, w.next? = some (.item request mediaId item callback) →
      (w.turn t).session = w.session ∧
        (w.turn t).history = .item callback request mediaId item :: w.history ∧
        (w.turn t).itemNotices = w.itemNotices ++ [(callback, .of mediaId item)] := by
  intro w
  refine ⟨fun hv => ?_, w.getItem_quiet, w.answer_quiet, ?_⟩
  · have h : Accounted ((create setting).inquiries steps) w := accounted_reachable setting steps hv
    exact ⟨h.made, fun i q hq => ⟨h.placed i q hq, (h.placed i q hq).heard⟩⟩
  · intro t request mediaId item callback hn
    obtain ⟨rest, remarks, -, ht⟩ := turn_next t hn
    rw [ht]
    exact ⟨rfl, rfl, recorded_snoc [] rfl rfl (by simp)⟩

/-- One lookup outlives its connection and fails, and one call is made after that connection. -/
theorem items_answered_once_disconnected :
    let start : World Nat := create ⟨⟨"package", "class"⟩, "client", none⟩
    let steps : List (Step Nat) := [.connect .prompt, .turn .prompt, .finish .prompt,
      .turn .prompt, .finish .prompt, .getItem "song" 7, .disconnect .prompt, .getItem "tune" 8,
      .turn .prompt, .answer (.error .disconnected) 0]
    let w := start.run steps
    w.handles ≠ 0 ∧
      start.inquiries steps = [⟨"song", 7, some ⟨0⟩⟩, ⟨"tune", 8, none⟩] ∧
      ((w.errand 1).queued.length, (w.errand 1).told.length) = (1, 0) ∧
      ((w.errand 2).queued.length, (w.errand 2).told.length) = (0, 1) ∧
      Inquiry.Place ⟨"song", 7, some ⟨0⟩⟩ 1 (w.errand 1) ∧
      Inquiry.Place ⟨"tune", 8, none⟩ 2 (w.errand 2) ∧
      ∀ told ∈ (w.errand 2).notices, told = (8, .error "tune") := by
  intro start steps w
  have hv : w.handles ≠ 0 := by decide
  obtain ⟨ha, -⟩ := items_answered_once_reachable (κ := Nat)
    ⟨⟨"package", "class"⟩, "client", none⟩ [.connect .prompt, .turn .prompt, .finish .prompt,
      .turn .prompt, .finish .prompt, .getItem "song" 7, .disconnect .prompt, .getItem "tune" 8,
      .turn .prompt, .answer (.error .disconnected) 0]
  obtain ⟨-, hp⟩ := ha hv
  have hq : start.inquiries steps = [⟨"song", 7, some ⟨0⟩⟩, ⟨"tune", 8, none⟩] := by
    decide +kernel
  obtain ⟨hs, -⟩ := hp 0 ⟨"song", 7, some ⟨0⟩⟩ (congrArg (·[0]?) hq)
  obtain ⟨ht, hn⟩ := hp 1 ⟨"tune", 8, none⟩ (congrArg (·[1]?) hq)
  refine ⟨hv, hq, by decide +kernel, by decide +kernel, hs, ht, ?_⟩
  intro told hm
  obtain ⟨item, ⟨-, rfl⟩, rfl⟩ := hn told hm
  rfl

end World
end MediaLink
