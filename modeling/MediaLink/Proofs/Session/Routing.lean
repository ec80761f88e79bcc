import MediaLink.Proofs.Session.Durability
import MediaLink.Proofs.Subscription.Finding
import Mathlib.Data.List.Induction

/-! Children that a provider pushes reach the last subscriber that asked for them, in the form that
the first one asked for. -/
namespace MediaLink

variable {κ : Type}

/-- What a step makes of the calls that stand for one subscription: the options and the callback of
each subscribe call since the subscription was given up. -/
def Step.revise (node : String) (options : Option Payload) (calls : List (Option Payload × κ)) :
    Step κ → List (Option Payload × κ)
  | .subscribe _ n given callback =>
    if n ≠ "" ∧ n = node ∧ Key.admits ⟨given⟩ options then calls ++ [(given, callback)]
    else calls
  | .unsubscribe _ n given =>
    if n ≠ "" ∧ n = node ∧ Key.admits ⟨given⟩ options then [] else calls
  | _ => calls

/-- The subscribe calls for a node and equal options that nothing has revoked, oldest first. -/
def standing (node : String) (options : Option Payload) (steps : List (Step κ)) :
    List (Option Payload × κ) :=
  steps.foldl (Step.revise node options) []

/-- The first call gives the options, the last one the callback. -/
def merged? (calls : List (Option Payload × κ)) : Option (Key × κ) :=
  match calls.head?, calls.getLast? with
  | some (stored, _), some (_, callback) => some (⟨stored⟩, callback)
  | _, _ => none

theorem standing_snoc (node : String) (options : Option Payload) (steps : List (Step κ))
    (s : Step κ) : standing node options (steps ++ [s]) = s.revise node options
      (standing node options steps) := List.foldl_append

theorem merged?_snoc (calls : List (Option Payload × κ)) (given : Option Payload)
    (callback : κ) : merged? (calls ++ [(given, callback)]) =
      some (((merged? calls).map Prod.fst).getD ⟨given⟩, callback) := by
  cases calls with
  | nil => rfl
  | cons call rest =>
    obtain ⟨last, hl⟩ : ∃ last, (call :: rest).getLast? = some last :=
      Option.isSome_iff_exists.mp (by simp)
    have hh : (call :: rest ++ [(given, callback)]).head? = some call := rfl
    rw [merged?, merged?, hh, List.getLast?_concat, hl]
    rfl

theorem sound_wishes (steps : List (Step κ)) : (wishes steps).Sound := by
  induction steps using List.reverseRecOn with
  | nil => exact Registry.sound_empty
  | append_singleton steps s ih =>
    rw [wishes_snoc]
    cases s with
    | subscribe t node options callback =>
      simp only [Step.wish]
      split
      · exact ih
      · exact ih.insert node ⟨options⟩ callback
    | unsubscribe t node options =>
      simp only [Step.wish]
      split
      · exact ih
      · exact ih.erase node options
    | _ => exact ih

/-- The subscription that is found for a node and options is the one that the calls ask for. -/
theorem find?_wishes (node : String) (options : Option Payload) (steps : List (Step κ)) :
    (wishes steps).find? node options = merged? (standing node options steps) := by
  induction steps using List.reverseRecOn with
  | nil => rfl
  | append_singleton steps s ih =>
    rw [wishes_snoc, standing_snoc]
    cases s with
    | subscribe t n given callback =>
      simp only [Step.wish, Step.revise]
      by_cases hn : n = ""
      · rw [if_pos hn, if_neg fun h => h.1 hn]
        exact ih
      · rw [if_neg hn, Registry.find?_insert, ih]
        by_cases ha : n = node ∧ Key.admits ⟨given⟩ options
        · rw [if_pos ha, if_pos ⟨hn, ha⟩, merged?_snoc]
        · rw [if_neg ha, if_neg fun h => ha h.2]
    | unsubscribe t n given =>
      simp only [Step.wish, Step.revise]
      by_cases hn : n = ""
      · rw [if_pos hn, if_neg fun h => h.1 hn]
        exact ih
      · rw [if_neg hn, (sound_wishes steps).find?_erase, ih]
        by_cases ha : n = node ∧ Key.admits ⟨given⟩ options
        · rw [if_pos ha, if_pos ⟨hn, ha⟩]
          rfl
        · rw [if_neg ha, if_neg fun h => ha h.2]
    | _ => exact ih

/-- The options are named to a subscriber that gave some. -/
theorem Key.filled?_eq_none {options : Option Payload} :
    Key.filled? options = none ↔ ∀ p, options = some p → p.isEmpty := by
  cases options <;> simp [Key.filled?]

theorem Delivery.form_loaded (d : Delivery) :
    (d.form = "loaded" ∨ d.form = "loaded_with_options") ↔ d.children.isSome := by
  obtain ⟨parent, children, options⟩ := d
  cases children <;> cases options <;> simp [form]

theorem Delivery.form_plain (d : Delivery) :
    (d.form = "loaded" ∨ d.form = "error") ↔ d.options = none := by
  obtain ⟨parent, children, options⟩ := d
  cases children <;> cases options <;> simp [form]

namespace World

variable {w : World κ}

/-- What the subscriber is told: the children as they were pushed, with its own options. -/
def routed (batch : Batch) (calls : List (Option Payload × κ)) : List (Act κ) :=
  match merged? calls with
  | some (key, callback) =>
    [.children callback ⟨batch.parent, batch.children, Key.filled? key.options⟩]
  | none => []

theorem onChildren_routed {batch : Batch} {calls : List (Option Payload × κ)}
    (h : w.session.subscriptions.find? batch.parent batch.options = merged? calls) :
    ∃ remarks, w.onChildren batch =
      { w with history := routed batch calls ++ w.history, remarks } := by
  simp only [onChildren, routed, h]
  cases merged? calls with
  | none => exact ⟨_, rfl⟩
  | some entry => exact ⟨w.remarks, rfl⟩

theorem handle_children (t : Transport) (sink : ProviderSink) {batch : Batch}
    {calls : List (Option Payload × κ)}
    (h : w.session.subscriptions.find? batch.parent batch.options = merged? calls) :
    ∃ remarks, w.handle t (.provider sink (.children batch)) =
      { w with
        history := (if w.session.isCurrent sink.token then routed batch calls else []) ++
          w.history
        remarks } := by
  simp only [handle, ifCurrent]
  by_cases hc : w.session.isCurrent sink.token
  · rw [if_pos hc, if_pos hc]
    exact onChildren_routed h
  · rw [if_neg hc, if_neg hc]
    by_cases hp : w.session.phase = .disconnected
    · exact ⟨w.remarks, if_pos hp⟩
    · exact ⟨_, if_neg hp⟩

/-- An attempt is alive only while connecting or connected. -/
theorem Sound.busy (h : w.Sound) {token : Token} (hc : w.session.isCurrent token) :
    w.session.phase = .connecting ∨ w.session.phase = .connected := by
  have ha : w.session.attempt = some token := by simpa [Session.isCurrent] using hc
  cases hp : w.session.phase with
  | connecting => exact .inl rfl
  | connected => exact .inr rfl
  | disconnected => cases ha.symm.trans (h.consistent.disconnected hp).1
  | suspended => cases ha.symm.trans (h.consistent.suspended hp).2.1

/-- In every run, children that a provider pushes are told to a subscriber only if the attempt is
the one that is alive, and to exactly one: if the last call about this node and equal options asked
for them, the callback of that call. The form and the options are those of the call that began the
subscription; node and children stay as they were pushed. Nothing else comes of the event. -/
theorem children_routed_reachable (setting : Setting) (steps : List (Step κ)) (t : Transport)
    (sink : ProviderSink) (batch : Batch) :
    let w := (create setting).run steps
    w.next? = some (.provider sink (.children batch)) →
    (∃ remarks, w.turn t =
      { w with
        loop := .handling
        queue := w.queue.tail
        history :=
          (if w.session.isCurrent sink.token then
            routed batch (standing batch.parent batch.options steps) else []) ++ w.history
        remarks }) ∧
    (w.session.isCurrent sink.token →
      w.session.phase = .connecting ∨ w.session.phase = .connected) ∧
    ∀ stored, let d : Delivery := ⟨batch.parent, batch.children, Key.filled? stored⟩
      (d.form = "loaded" ∨ d.form = "loaded_with_options" ↔ batch.children.isSome) ∧
      (d.form = "loaded" ∨ d.form = "error" ↔ ∀ p, stored = some p → p.isEmpty) ∧
      ∀ p, d.options = some p → stored = some p := by
  intro w hn
  obtain ⟨h0, -⟩ := next?_eq_some.mp hn
  have hs : w.session.subscriptions = wishes steps := subscriptions_wished setting steps h0
  refine ⟨?_, (sound_reachable setting steps).busy, ?_⟩
  · obtain ⟨rest, remarks, hq, ht⟩ := turn_next t hn
    have hf : w.session.subscriptions.find? batch.parent batch.options =
        merged? (standing batch.parent batch.options steps) := by
      rw [hs]
      exact find?_wishes batch.parent batch.options steps
    obtain ⟨after, hh⟩ := handle_children t sink
      (w := { w with loop := .handling, queue := rest, remarks }) hf
    refine ⟨after, ?_⟩
    rw [ht, hh, hq]
    rfl
  · intro stored d
    refine ⟨d.form_loaded, ?_, fun p hp => ?_⟩
    · rw [d.form_plain]
      exact Key.filled?_eq_none
    · exact (Option.filter_eq_some_iff.mp hp).1

/-- Options that name the page zero, with a sign. -/
def pageZero (negative : Bool) : Option Payload :=
  some (Payload.empty.insert Payload.pageKey (.number (.float (.zero negative))))

/-- A provider pushes children for a page that was asked for twice, the second time with the other
zero. The second callback is told, with the options of the first call. -/
theorem children_routed_respelled :
    let w : World Nat := (create ⟨⟨"package", "class"⟩, "client", none⟩).run [
      .subscribe .prompt "node" (pageZero false) 0, .subscribe .prompt "node" (pageZero true) 1,
      .connect .prompt, .turn .prompt, .finish .prompt, .turn .prompt, .finish .prompt,
      .post (.provider ⟨⟨0⟩, ⟨1⟩⟩ (.children ⟨"node", none, pageZero true⟩))]
    w.next? = some (.provider ⟨⟨0⟩, ⟨1⟩⟩ (.children ⟨"node", none, pageZero true⟩)) ∧
      (w.turn .prompt).history = .children 1 ⟨"node", none, pageZero false⟩ :: w.history := by
  intro w
  have hn : w.next? = some (.provider ⟨⟨0⟩, ⟨1⟩⟩ (.children ⟨"node", none, pageZero true⟩)) := rfl
  obtain ⟨⟨remarks, ht⟩, -⟩ := children_routed_reachable (κ := Nat)
    ⟨⟨"package", "class"⟩, "client", none⟩ [
      .subscribe .prompt "node" (pageZero false) 0, .subscribe .prompt "node" (pageZero true) 1,
      .connect .prompt, .turn .prompt, .finish .prompt, .turn .prompt, .finish .prompt,
      .post (.provider ⟨⟨0⟩, ⟨1⟩⟩ (.children ⟨"node", none, pageZero true⟩))]
    .prompt ⟨⟨0⟩, ⟨1⟩⟩ ⟨"node", none, pageZero true⟩ hn
  refine ⟨hn, ?_⟩
  rw [ht]
  rfl

end World
end MediaLink
