import MediaLink.Proofs.Subscription.Key
import MediaLink.Subscription.Registry
import Mathlib.Data.List.Basic

/-! What additions and removals keep of a registry: its nodes in order, and their sets. -/
namespace MediaLink

variable {κ : Type}

namespace EntrySet

variable {s : EntrySet κ}

/-- No two keys denote the same subscription. -/
def Distinct (s : EntrySet κ) : Prop := s.keys.Pairwise fun k l => k.same l = false

theorem contains_iff_any (s : EntrySet κ) (options : Option Payload) :
    s.contains options = s.keys.any (·.admits options) := by
  simp [contains, find?, keys, List.isSome_find?, Function.comp_def]

/-- A known key keeps its place; a new one goes to the end. -/
theorem keys_insert (s : EntrySet κ) (key : Key) (callback : κ) :
    (s.insert key callback).keys =
      if s.contains key.options then s.keys else s.keys ++ [key] := by
  rw [contains_iff_any]
  obtain ⟨entries⟩ := s
  simp only [keys, insert]
  induction entries with
  | nil => rfl
  | cons entry rest ih =>
    obtain ⟨k, c⟩ := entry
    cases h : k.admits key.options with
    | true => simp [insertEntry, Key.same, h]
    | false =>
      simp only [insertEntry, Key.same, h, Bool.false_eq_true, if_false, List.map_cons,
        List.any_cons, Bool.false_or, ih]
      exact apply_ite (k :: ·) ..

theorem Distinct.insert (h : s.Distinct) (key : Key) (callback : κ) :
    (s.insert key callback).Distinct := by
  rw [Distinct, keys_insert, contains_iff_any]
  split
  · exact h
  · rename_i hn
    have hnew : ∀ k ∈ s.keys, k.same key = false := by simpa [Key.same] using hn
    rw [List.pairwise_append]
    exact ⟨h, List.pairwise_singleton _ _, fun k hk l hl => List.mem_singleton.mp hl ▸ hnew k hk⟩

/-- Options denote at most one entry. -/
theorem Distinct.admits_one (h : s.Distinct) (options : Option Payload) :
    s.entries.Pairwise fun a b => a.1.admits options → b.1.admits options = false :=
  (List.pairwise_map.mp h).imp fun hd => Key.admits_other hd

/-- Erasing takes the first entry that options denote. There is no other. -/
theorem Distinct.entries_erase (h : s.Distinct) (options : Option Payload) :
    (s.erase options).entries = s.entries.filter fun entry => !entry.1.admits options := by
  have hone := h.admits_one options
  simp only [EntrySet.erase]
  generalize s.entries = entries at hone ⊢
  induction entries with
  | nil => rfl
  | cons entry rest ih =>
    obtain ⟨hn, hr⟩ := List.pairwise_cons.mp hone
    cases ha : entry.1.admits options with
    | false => simp [ha, ih hr]
    | true =>
      have hrest : rest.filter (fun entry => !entry.1.admits options) = rest := by
        rw [List.filter_eq_self]
        intro other ho
        simp [hn other ho ha]
      simp [ha, hrest]

theorem Distinct.keys_erase (h : s.Distinct) (options : Option Payload) :
    (s.erase options).keys = s.keys.filter fun key => !key.admits options := by
  simp [keys, h.entries_erase, List.filter_map, Function.comp_def]

theorem Distinct.erase (h : s.Distinct) (options : Option Payload) :
    (s.erase options).Distinct :=
  h.sublist ((List.eraseP_sublist).map Prod.fst)

theorem isEmpty_iff_keys : s.isEmpty ↔ s.keys = [] := by simp [isEmpty, keys]

theorem insert_ne_empty (s : EntrySet κ) (key : Key) (callback : κ) :
    (s.insert key callback).isEmpty = false := by
  obtain ⟨entries⟩ := s
  cases entries with
  | nil => rfl
  | cons entry rest =>
    by_cases h : entry.1.same key <;> simp [insert, insertEntry, isEmpty, h]

/-- The stored options denote the same entries as the options that found them. -/
theorem admits_stored {options : Option Payload} {key : Key} {callback : κ}
    (hf : s.find? options = some (key, callback)) (k : Key) :
    k.admits key.options = k.admits options := by
  have ha : key.admits options := List.find?_some (a := (key, callback)) hf
  exact Key.same_congr_right (m := ⟨options⟩) ha k

theorem find?_stored {options : Option Payload} {key : Key} {callback : κ}
    (hf : s.find? options = some (key, callback)) :
    s.find? key.options = some (key, callback) := by
  rw [← hf]
  simp only [find?, admits_stored hf]

theorem erase_stored {options : Option Payload} {key : Key} {callback : κ}
    (hf : s.find? options = some (key, callback)) : s.erase key.options = s.erase options := by
  simp only [erase, admits_stored hf]

theorem erase_missing {options : Option Payload} (h : s.find? options = none) :
    s.erase options = s := by
  have hn : ∀ entry ∈ s.entries, ¬ entry.1.admits options := List.find?_eq_none.mp h
  simp only [erase, List.eraseP_of_forall_not hn]

end EntrySet

namespace Registry

variable {r q : Registry κ} {node : String} {s : EntrySet κ}

theorem ext_get? (ho : r.order = q.order) (hs : ∀ node, r.get? node = q.get? node) : r = q := by
  obtain ⟨order, sets⟩ := r
  obtain ⟨order', sets'⟩ := q
  obtain rfl : order = order' := ho
  obtain rfl : sets = sets' := Std.ExtTreeMap.ext_getElem? hs
  rfl

theorem mem_sets_iff : node ∈ r.sets ↔ (r.get? node).isSome :=
  Std.ExtTreeMap.mem_iff_isSome_getElem?

@[simp]
theorem get?_empty (node : String) : (empty : Registry κ).get? node = none :=
  Std.ExtTreeMap.getElem?_empty

theorem get?_insert (r : Registry κ) (node : String) (key : Key) (callback : κ) (n : String) :
    (r.insert node key callback).get? n =
      if node = n then some (((r.get? node).getD .empty).insert key callback) else r.get? n := by
  simp [get?, insert, Std.ExtTreeMap.getElem?_insert]

/-- A known node keeps its place; a new one goes to the end. -/
theorem order_insert (r : Registry κ) (node : String) (key : Key) (callback : κ) :
    (r.insert node key callback).order =
      if (r.get? node).isSome then r.order else r.order ++ [node] := by
  simp only [insert, mem_sets_iff]

theorem find?_eq (hs : r.get? node = some s) (options : Option Payload) :
    r.find? node options = s.find? options := by simp [find?, hs]

/-- A node without a set has nothing to find. -/
theorem find?_getD (r : Registry κ) (node : String) (options : Option Payload) :
    ((r.get? node).getD .empty).find? options = r.find? node options := by
  cases hs : r.get? node with
  | none => simp [find?, hs, EntrySet.find?, EntrySet.empty]
  | some s => simp [find?, hs]

theorem contains_getD (r : Registry κ) (node : String) (options : Option Payload) :
    ((r.get? node).getD .empty).contains options = r.contains node options := by
  rw [EntrySet.contains, find?_getD, contains]

/-- The keys of a node, none if it has no set. -/
def keys (r : Registry κ) (node : String) : List Key := ((r.get? node).getD .empty).keys

theorem keys_eq (hs : r.get? node = some s) : r.keys node = s.keys := by simp [keys, hs]

theorem keys_none (hs : r.get? node = none) : r.keys node = [] := by
  simp [keys, hs, EntrySet.keys, EntrySet.empty]

theorem contains_iff_any (r : Registry κ) (node : String) (options : Option Payload) :
    r.contains node options = (r.keys node).any (·.admits options) := by
  rw [← contains_getD, EntrySet.contains_iff_any, keys]

/-- A key that is new comes last in its node. Nothing else changes. -/
theorem keys_insert (r : Registry κ) (node : String) (key : Key) (callback : κ) (n : String) :
    (r.insert node key callback).keys n =
      if node = n ∧ ¬ r.contains node key.options then r.keys n ++ [key] else r.keys n := by
  rw [keys, get?_insert]
  by_cases hn : node = n
  · subst hn
    rw [if_pos rfl, Option.getD_some, EntrySet.keys_insert, contains_getD]
    cases hc : r.contains node key.options <;> simp [keys]
  · simp [hn, keys]

theorem find?_eq_some {options : Option Payload} {entry : Key × κ} :
    r.find? node options = some entry ↔
      ∃ s, r.get? node = some s ∧ s.find? options = some entry := Option.bind_eq_some_iff

/-- To erase a subscription that does not exist changes nothing. -/
theorem erase_missing {options : Option Payload} (hf : r.find? node options = none) :
    r.erase node options = r := by
  cases hs : r.get? node with
  | none => simp [erase, hs]
  | some s =>
    rw [find?_eq hs] at hf
    simp [erase, hs, EntrySet.contains, hf]

section Present

variable {options : Option Payload} {entry : Key × κ} (hs : r.get? node = some s)
  (hf : s.find? options = some entry)

include hs hf

theorem erase_present : r.erase node options =
    if (s.erase options).isEmpty then ⟨r.order.filter (· != node), r.sets.erase node⟩
    else { r with sets := r.sets.insert node (s.erase options) } := by
  simp [erase, hs, EntrySet.contains, hf]

/-- An entry that is there goes, and its set goes with it if it was the last. -/
theorem get?_erase_present (n : String) : (r.erase node options).get? n =
    if node = n then (some (s.erase options)).filter (!·.isEmpty) else r.get? n := by
  rw [erase_present hs hf]
  cases he : (s.erase options).isEmpty with
  | true => simp [get?, Std.ExtTreeMap.getElem?_erase, Option.filter_some, he]
  | false => simp [get?, Std.ExtTreeMap.getElem?_insert, Option.filter_some, he]

theorem order_erase_present : (r.erase node options).order =
    if (s.erase options).isEmpty then r.order.filter (· != node) else r.order := by
  rw [erase_present hs hf]
  split <;> rfl

end Present

/-- The stored options denote the same subscription as the options that found it. -/
theorem erase_stored {options : Option Payload} {key : Key} {callback : κ}
    (hf : r.find? node options = some (key, callback)) :
    r.erase node key.options = r.erase node options := by
  obtain ⟨s, hs, hf⟩ := find?_eq_some.mp hf
  rw [erase_present hs hf, erase_present hs (EntrySet.find?_stored hf), EntrySet.erase_stored hf]

/-- The nodes that are listed are those that have a set, each once. No key stands twice for its
subscription, and no set is empty. -/
structure Sound (r : Registry κ) : Prop where
  nodup : r.order.Nodup
  listed : ∀ node, node ∈ r.order ↔ (r.get? node).isSome
  distinct : ∀ node s, r.get? node = some s → s.Distinct
  filled : ∀ node s, r.get? node = some s → s.isEmpty = false

theorem sound_empty : (empty : Registry κ).Sound := by
  constructor <;> simp [empty, get?]

theorem Sound.distinct_getD (h : r.Sound) (node : String) :
    ((r.get? node).getD .empty).Distinct := by
  cases hs : r.get? node with
  | none => exact .nil
  | some s => exact h.distinct node s hs

/-- A node is listed as long as it has a key. -/
theorem Sound.mem_order_iff (h : r.Sound) (node : String) :
    node ∈ r.order ↔ r.keys node ≠ [] := by
  rw [h.listed]
  cases hs : r.get? node with
  | none => simp [keys_none hs]
  | some s =>
    have hf : ¬ s.isEmpty := by simp [h.filled node s hs]
    simpa [keys_eq hs, EntrySet.isEmpty_iff_keys] using hf

theorem Sound.insert (h : r.Sound) (node : String) (key : Key) (callback : κ) :
    (r.insert node key callback).Sound := by
  refine ⟨?_, fun n => ?_, fun n t ht => ?_, fun n t ht => ?_⟩
  · rw [order_insert]
    split
    · exact h.nodup
    · rename_i hn
      have hnew : ∀ m ∈ r.order, m ≠ node := by
        rintro _ hm rfl
        exact hn ((h.listed _).mp hm)
      exact List.nodup_append.mpr ⟨h.nodup, by simp, by simpa using hnew⟩
  · rw [order_insert, get?_insert]
    by_cases hn : node = n
    · subst hn
      split <;> simp_all [h.listed node]
    · split <;> simp_all [h.listed n, Ne.symm hn]
  · rw [get?_insert] at ht
    split at ht
    · cases ht
      exact (h.distinct_getD node).insert key callback
    · exact h.distinct n t ht
  · rw [get?_insert] at ht
    split at ht
    · cases ht
      exact EntrySet.insert_ne_empty _ key callback
    · exact h.filled n t ht

/-- A set that has lost its last entry is gone. -/
theorem Sound.get?_erase (h : r.Sound) (node : String) (options : Option Payload) (n : String) :
    (r.erase node options).get? n =
      if node = n then ((r.get? node).map (·.erase options)).filter (!·.isEmpty)
      else r.get? n := by
  cases hs : r.get? node with
  | none =>
    rw [erase_missing (by simp [find?, hs])]
    split
    · rename_i hn
      exact hn ▸ hs
    · rfl
  | some s =>
    cases hf : s.find? options with
    | none =>
      have he : s.isEmpty = false := h.filled node s hs
      rw [erase_missing (by rwa [find?_eq hs])]
      split
      · rename_i hn
        simp [← hn, hs, EntrySet.erase_missing hf, Option.filter_some, he]
      · rfl
    | some entry => exact get?_erase_present hs hf n

theorem Sound.keys_erase (h : r.Sound) (node : String) (options : Option Payload) (n : String) :
    (r.erase node options).keys n =
      (r.keys n).filter fun key => !(n == node && key.admits options) := by
  rw [keys, h.get?_erase]
  by_cases hn : node = n
  · subst hn
    cases hs : r.get? node with
    | none => simp [keys_none hs, EntrySet.keys, EntrySet.empty]
    | some s =>
      have hk := (h.distinct node s hs).keys_erase options
      cases he : (s.erase options).isEmpty with
      | true =>
        -- The set is gone, and it had no more keys.
        rw [EntrySet.isEmpty_iff_keys.mp he] at hk
        simpa [keys_eq hs, Option.filter_some, he, EntrySet.keys, EntrySet.empty] using hk
      | false => simp [keys_eq hs, Option.filter_some, he, hk]
  · have hb : (n == node) = false := beq_false_of_ne (Ne.symm hn)
    simp [hn, hb, keys]

/-- The nodes that still have a set stay in order. -/
theorem Sound.order_erase (h : r.Sound) (node : String) (options : Option Payload) :
    (r.erase node options).order =
      r.order.filter fun n => ((r.erase node options).get? n).isSome := by
  have hset : ∀ n ∈ r.order, (r.get? n).isSome := fun n => (h.listed n).mp
  cases hf : r.find? node options with
  | none => rw [erase_missing hf, List.filter_eq_self.mpr hset]
  | some entry =>
    obtain ⟨s, hs, hf⟩ := find?_eq_some.mp hf
    simp only [order_erase_present hs hf, get?_erase_present hs hf]
    cases he : (s.erase options).isEmpty with
    | true =>
      refine List.filter_congr fun n hn => ?_
      by_cases hne : node = n
      · simp [hne, he]
      · simp [hne, hset n hn, Ne.symm hne]
    | false =>
      refine (List.filter_eq_self.mpr fun n hn => ?_).symm
      by_cases hne : node = n
      · simp [hne, he]
      · simp [hne, hset n hn]

/-- A set that is there afterwards is as it was, or it has lost one entry and has others. -/
theorem Sound.get?_erase_some (h : r.Sound) {options : Option Payload} {n : String}
    {t : EntrySet κ} (ht : (r.erase node options).get? n = some t) :
    ∃ s, r.get? n = some s ∧ (t = s ∨ t = s.erase options) ∧ t.isEmpty = false := by
  rw [h.get?_erase] at ht
  split at ht
  · rename_i hn
    subst hn
    obtain ⟨hm, he⟩ := Option.filter_eq_some_iff.mp ht
    obtain ⟨s, hs, rfl⟩ := Option.map_eq_some_iff.mp hm
    exact ⟨s, hs, .inr rfl, by simpa using he⟩
  · exact ⟨t, ht, .inl rfl, h.filled n t ht⟩

theorem Sound.erase (h : r.Sound) (node : String) (options : Option Payload) :
    (r.erase node options).Sound := by
  refine ⟨?_, fun n => ?_, fun n t ht => ?_, fun n t ht => ?_⟩
  · rw [h.order_erase]
    exact h.nodup.filter _
  · rw [h.order_erase, List.mem_filter]
    refine and_iff_right_of_imp fun hn => ?_
    obtain ⟨t, ht⟩ := Option.isSome_iff_exists.mp hn
    obtain ⟨s, hs, -⟩ := h.get?_erase_some ht
    exact (h.listed n).mpr (by simp [hs])
  · obtain ⟨s, hs, rfl | rfl, -⟩ := h.get?_erase_some ht
    · exact h.distinct n t hs
    · exact (h.distinct n s hs).erase options
  · obtain ⟨s, -, -, he⟩ := h.get?_erase_some ht
    exact he

theorem replay_eq (r : Registry κ) :
    r.replay = r.order.flatMap fun node => (r.keys node).map fun key => (node, key.options) := by
  rw [replay, nodes, List.filterMap_eq_flatMap_toList, List.flatMap_assoc]
  refine List.flatMap_congr fun node _ => ?_
  cases hs : r.get? node with
  | none => simp [keys_none hs]
  | some s => simp [keys_eq hs]

theorem Sound.mem_nodes (h : r.Sound) : (node, s) ∈ r.nodes ↔ r.get? node = some s := by
  simp only [nodes, List.mem_filterMap, Option.map_eq_some_iff, Prod.mk.injEq]
  constructor
  · rintro ⟨n, hn, t, ht, rfl, rfl⟩
    exact ht
  · intro hs
    exact ⟨node, (h.listed node).mpr (by simp [hs]), s, hs, rfl, rfl⟩

/-- Every node that is listed has a set, so none is passed over. -/
theorem Sound.nodes_eq (h : r.Sound) :
    r.nodes = r.order.map fun node => (node, (r.get? node).getD .empty) := by
  refine List.filterMap_eq_map_iff_forall_eq_some.mpr fun node hn => ?_
  obtain ⟨s, hs⟩ := Option.isSome_iff_exists.mp ((h.listed node).mp hn)
  simp [hs]

theorem Sound.names_nodes (h : r.Sound) : r.nodes.map Prod.fst = r.order := by
  simp [h.nodes_eq, Function.comp_def]

end Registry
end MediaLink
