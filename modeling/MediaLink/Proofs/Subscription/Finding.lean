import MediaLink.Proofs.Subscription.Registry

/-! What is found in a registry after entries were added and erased. -/
namespace MediaLink

variable {κ : Type}

namespace EntrySet

/-- An entry of an equal key keeps its options. Nothing else that is found changes. -/
theorem find?_insert (s : EntrySet κ) (key : Key) (callback : κ) (options : Option Payload) :
    (s.insert key callback).find? options =
      if key.admits options then some (((s.find? options).map Prod.fst).getD key, callback)
      else s.find? options := by
  obtain ⟨entries⟩ := s
  simp only [insert, find?]
  induction entries with
  | nil =>
    cases ha : key.admits options with
    | true => simp [insertEntry, ha]
    | false => simp [insertEntry, ha]
  | cons entry rest ih =>
    obtain ⟨k, c⟩ := entry
    by_cases hs : k.same key
    · -- Equal keys denote the same options: the entry that changes is the one that is found.
      have hk : k.admits options = key.admits options := Key.same_congr hs ⟨options⟩
      cases ha : key.admits options with
      | true => simp [insertEntry, hs, hk, ha]
      | false => simp [insertEntry, hs, hk, ha]
    · cases hk : k.admits options with
      | true =>
        have ha : key.admits options = false := by
          rw [Bool.eq_false_iff]
          intro ha
          apply hs
          have hc := Key.same_congr_right (l := key) (m := ⟨options⟩) ha k
          exact hc.trans hk
        simp [insertEntry, hs, hk, ha]
      | false =>
        rw [insertEntry, if_neg hs]
        simp only [List.find?_cons, hk]
        exact ih

/-- An entry that is erased is not found any more. Nothing else that is found changes. -/
theorem Distinct.find?_erase {s : EntrySet κ} (h : s.Distinct) (erased options : Option Payload) :
    (s.erase erased).find? options =
      if Key.admits ⟨erased⟩ options then none else s.find? options := by
  rw [find?, h.entries_erase, List.find?_filter]
  cases ha : Key.admits ⟨erased⟩ options with
  | true =>
    -- Equal options denote the entry that was erased.
    have hs : ∀ k : Key, k.admits erased = k.admits options :=
      Key.same_congr_right (l := ⟨erased⟩) (m := ⟨options⟩) ha
    simp [hs]
  | false =>
    have hs : ∀ k : Key, k.admits options → k.admits erased = false := by
      intro k hk
      rw [Bool.eq_false_iff]
      intro he
      have hc : k.admits options = Key.admits ⟨erased⟩ options :=
        Key.same_congr (l := ⟨erased⟩) he ⟨options⟩
      exact absurd (hk.symm.trans (hc.trans ha)) (by simp)
    have hp : ∀ entry : Key × κ, (!entry.1.admits erased && entry.1.admits options) =
        entry.1.admits options := by
      intro entry
      cases hk : entry.1.admits options with
      | true => simp [hs entry.1 hk]
      | false => simp
    simp [find?, hp]

end EntrySet

namespace Registry

variable {r : Registry κ}

theorem find?_insert (r : Registry κ) (n : String) (key : Key) (callback : κ) (node : String)
    (options : Option Payload) :
    (r.insert n key callback).find? node options =
      if n = node ∧ key.admits options then
        some (((r.find? node options).map Prod.fst).getD key, callback)
      else r.find? node options := by
  rw [find?, get?_insert]
  by_cases hn : n = node
  · subst hn
    simp [EntrySet.find?_insert, find?_getD]
  · simp [hn, find?]

theorem Sound.find?_erase (h : r.Sound) (n : String) (erased : Option Payload) (node : String)
    (options : Option Payload) :
    (r.erase n erased).find? node options =
      if n = node ∧ Key.admits ⟨erased⟩ options then none else r.find? node options := by
  rw [find?, h.get?_erase]
  by_cases hn : n = node
  · subst hn
    cases hs : r.get? n with
    | none => simp [find?, hs]
    | some s =>
      have hf := (h.distinct n s hs).find?_erase erased options
      cases he : (s.erase erased).isEmpty with
      | true =>
        -- The set is empty without the entry, so nothing else was in it.
        have hz : (s.erase erased).find? options = none := by
          rw [EntrySet.isEmpty, List.isEmpty_iff] at he
          rw [EntrySet.find?, he]
          rfl
        simpa [find?, hs, Option.filter_some, he] using hz.symm.trans hf
      | false => simp [find?, hs, Option.filter_some, he, hf]
  · simp [hn, find?]

/-- A removal changes the registry if there is something to remove, and only then. -/
theorem Sound.erase_eq_self_iff (h : r.Sound) {node : String} {options : Option Payload} :
    r.erase node options = r ↔ r.find? node options = none := by
  refine ⟨fun he => ?_, erase_missing⟩
  have hf := h.find?_erase node options node options
  have hs : Key.admits ⟨options⟩ options := Key.same_refl ⟨options⟩
  rwa [he, if_pos ⟨rfl, hs⟩] at hf

end Registry
end MediaLink
