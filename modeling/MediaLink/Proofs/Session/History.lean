import MediaLink.Proofs.Session.Move

/-! What the moves put on record, and views of the record. -/
namespace MediaLink.World

variable {κ α : Type} {u v : World κ} {s : Session κ} {a : Act κ} {view : Act κ → Option α}

theorem mem_telling {call : Token → Call} {failure : Option RemoteFault}
    (h : a ∈ telling call failure s) : ∃ p token, a = .call p (call token) failure := by
  simp only [telling] at h
  split at h
  · exact ⟨_, _, List.mem_singleton.mp h⟩
  · cases h

theorem mem_farewell {failure : Option RemoteFault} (h : a ∈ farewell failure s) :
    ∃ p token, a = .call p (.disconnect token) failure := by
  simp only [farewell] at h
  split at h
  · exact ⟨_, _, List.mem_singleton.mp h⟩
  · cases h

theorem mem_unbinding (h : a ∈ unbinding s) : ∃ token, a = .unbind token := by
  simp only [unbinding] at h
  split at h
  · exact ⟨_, List.mem_singleton.mp h⟩
  · cases h

/-- What holds of a farewell and of the teardown it belongs to. -/
theorem forall_farewell {P : Act κ → Prop} {failure : Option RemoteFault} {phase : Phase}
    (hf : ∀ p token, P (.call p (.disconnect token) failure)) (ht : P (.tornDown phase)) :
    ∀ a ∈ farewell failure s ++ [.tornDown phase], P a := by
  intro a ha
  rcases List.mem_append.mp ha with ha | ha
  · obtain ⟨p, token, rfl⟩ := mem_farewell ha
    exact hf p token
  · rw [List.mem_singleton.mp ha]
    exact ht

/-- What holds of every act of a session that is left. -/
theorem forall_leaving {P : Act κ → Prop} {failure : Option RemoteFault} {phase : Phase}
    (hu : ∀ token, P (.unbind token)) (hf : ∀ p token, P (.call p (.disconnect token) failure))
    (ht : P (.tornDown phase)) :
    ∀ a ∈ unbinding s ++ (farewell failure s ++ [.tornDown phase]), P a := by
  intro a ha
  rcases List.mem_append.mp ha with ha | ha
  · obtain ⟨token, rfl⟩ := mem_unbinding ha
    exact hu token
  · exact forall_farewell hf ht a ha

theorem mem_replayed {t : Transport} (h : a ∈ replayed t s) :
    ∃ p token node options failure, a = .call p (.add token node options) failure := by
  simp only [replayed] at h
  split at h
  · obtain ⟨_, -, rfl⟩ := List.mem_map.mp h
    exact ⟨_, _, _, _, _, rfl⟩
  · cases h

/-- What holds of a reply that is accepted and of what the provider then hears. -/
theorem forall_accepting {P : Act κ → Prop} {t : Transport} {sink : ProviderSink} {reply : Reply}
    (hr : ∀ p token node options failure, P (.call p (.add token node options) failure))
    (ha : P (.accepted sink reply)) :
    ∀ a ∈ (replayed t s).reverse ++ [.accepted sink reply], P a := by
  intro a hm
  rcases List.mem_append.mp hm with hm | hm
  · obtain ⟨p, token, node, options, failure, rfl⟩ := mem_replayed (List.mem_reverse.mp hm)
    exact hr p token node options failure
  · rw [List.mem_singleton.mp hm]
    exact ha

/-- What a view makes of the acts on record, oldest first. -/
def recorded (view : Act κ → Option α) (w : World κ) : List α :=
  (w.history.filterMap view).reverse

theorem recorded_append {acts : List (Act κ)} (h : v.history = acts ++ u.history) :
    v.recorded view = u.recorded view ++ (acts.filterMap view).reverse := by
  simp [recorded, h]

theorem recorded_same (acts : List (Act κ)) (h : v.history = acts ++ u.history)
    (ha : ∀ a ∈ acts, view a = none) : v.recorded view = u.recorded view := by
  have hn : acts.filterMap view = [] := List.filterMap_eq_nil_iff.mpr ha
  simp [recorded_append h, hn]

/-- One act that the view shows, among others that it does not show. -/
theorem recorded_snoc {x : α} (acts : List (Act κ)) (h : v.history = a :: acts ++ u.history)
    (hx : view a = some x) (ha : ∀ a ∈ acts, view a = none) :
    v.recorded view = u.recorded view ++ [x] := by
  have hn : acts.filterMap view = [] := List.filterMap_eq_nil_iff.mpr ha
  simp [recorded_append h, hx, hn]

end MediaLink.World
