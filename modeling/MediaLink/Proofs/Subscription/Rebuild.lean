import MediaLink.Proofs.Subscription.Registry

/-! A registry is rebuilt by what a provider hears of it. -/
namespace MediaLink

variable {κ : Type}

namespace EntrySet

/-- The keys alone. -/
def outline (s : EntrySet κ) : EntrySet Unit := ⟨s.entries.map fun (key, _) => (key, ())⟩

theorem keys_outline (s : EntrySet κ) : s.outline.keys = s.keys := by
  simp [outline, keys, Function.comp_def]

theorem isEmpty_outline (s : EntrySet κ) : s.outline.isEmpty = s.isEmpty := by
  simp [outline, isEmpty]

theorem find?_outline (s : EntrySet κ) (options : Option Payload) :
    s.outline.find? options = (s.find? options).map fun (key, _) => (key, ()) := by
  simp only [find?, outline, List.find?_map]
  rfl

theorem insertEntry_outline (key : Key) (callback : κ) (entries : List (Key × κ)) :
    insertEntry key () (entries.map fun (k, _) => (k, ())) =
      (insertEntry key callback entries).map fun (k, _) => (k, ()) := by
  induction entries with
  | nil => rfl
  | cons entry rest ih =>
    obtain ⟨k, c⟩ := entry
    by_cases h : k.same key <;> simp [insertEntry, h, ih]

theorem insert_outline (s : EntrySet κ) (key : Key) (callback : κ) :
    s.outline.insert key () = (s.insert key callback).outline := by
  simp [outline, insert, insertEntry_outline key callback]

theorem erase_outline (s : EntrySet κ) (options : Option Payload) :
    s.outline.erase options = (s.erase options).outline := by
  simp [outline, erase, List.eraseP_map, Function.comp_def]

theorem insertEntry_new {key : Key} {entries : List (Key × κ)}
    (h : ∀ k ∈ entries.map Prod.fst, k.same key = false) (callback : κ) :
    insertEntry key callback entries = entries ++ [(key, callback)] := by
  induction entries with
  | nil => rfl
  | cons entry rest ih =>
    have hk : entry.1.same key = false := h _ List.mem_cons_self
    simp [insertEntry, hk, ih fun k hm => h k (List.mem_cons_of_mem _ hm)]

end EntrySet

namespace Registry

variable {r : Registry κ} {node : String} {s : EntrySet κ}

/-- The keys alone. -/
def outline (r : Registry κ) : Registry Unit := ⟨r.order, r.sets.map fun _ s => s.outline⟩

@[simp]
theorem get?_outline (r : Registry κ) (node : String) :
    r.outline.get? node = (r.get? node).map EntrySet.outline :=
  Std.ExtTreeMap.getElem?_map

theorem nodes_outline (r : Registry κ) :
    r.outline.nodes = r.nodes.map fun (node, s) => (node, s.outline) := by
  simp [nodes, outline, get?, List.map_filterMap, Function.comp_def]

theorem replay_outline (r : Registry κ) : r.outline.replay = r.replay := by
  simp [replay, nodes_outline, List.flatMap_map, EntrySet.keys_outline]

theorem insert_outline (r : Registry κ) (node : String) (key : Key) (callback : κ) :
    r.outline.insert node key () = (r.insert node key callback).outline := by
  have ho : (r.outline.get? node).getD .empty = ((r.get? node).getD .empty).outline := by
    cases hs : r.get? node with
    | none => simp [hs, EntrySet.outline, EntrySet.empty]
    | some s => simp [hs]
  refine ext_get? ?_ fun n => ?_
  · simp [order_insert, outline, get?]
  · rw [get?_insert, ho, EntrySet.insert_outline _ key callback, get?_outline, get?_outline,
      get?_insert]
    split <;> rfl

theorem find?_outline (r : Registry κ) (node : String) (options : Option Payload) :
    r.outline.find? node options = (r.find? node options).map fun (key, _) => (key, ()) := by
  cases hs : r.get? node <;> simp [find?, hs, EntrySet.find?_outline]

theorem erase_outline (r : Registry κ) (node : String) (options : Option Payload) :
    r.outline.erase node options = (r.erase node options).outline := by
  cases hf : r.find? node options with
  | none => rw [erase_missing hf, erase_missing (by simp [find?_outline, hf])]
  | some entry =>
    obtain ⟨s, hs, hf⟩ := find?_eq_some.mp hf
    have ho : r.outline.get? node = some s.outline := by simp [hs]
    have hof : s.outline.find? options = some (entry.1, ()) := by
      simp [EntrySet.find?_outline, hf]
    refine ext_get? ?_ fun n => ?_
    · rw [order_erase_present ho hof, EntrySet.erase_outline, EntrySet.isEmpty_outline]
      exact (order_erase_present hs hf).symm
    · rw [get?_erase_present ho hof, get?_outline, get?_outline, get?_erase_present hs hf,
        EntrySet.erase_outline]
      split
      · simp [Option.filter_some, EntrySet.isEmpty_outline, apply_ite (Option.map EntrySet.outline)]
      · rfl

/-- One more subscription, as a provider hears of it. -/
def add (r : Registry Unit) (entry : String × Option Payload) : Registry Unit :=
  r.insert entry.1 ⟨entry.2⟩ ()

section Rebuild

variable {u : Registry Unit}

/-- More keys of a node that is known already. -/
theorem foldl_add_keys (keys : List Key) (entries : List (Key × Unit))
    (hu : u.get? node = some ⟨entries⟩)
    (hd : (entries.map Prod.fst ++ keys).Pairwise fun k l => k.same l = false) :
    let v := (keys.map fun key => (node, key.options)).foldl add u
    v.order = u.order ∧ ∀ n, v.get? n =
      if node = n then some ⟨entries ++ keys.map fun key => (key, ())⟩ else u.get? n := by
  induction keys generalizing u entries with
  | nil =>
    refine ⟨rfl, fun n => ?_⟩
    split
    · rename_i hn
      simpa [← hn] using hu
    · rfl
  | cons key keys ih =>
    have hk : ∀ k ∈ entries.map Prod.fst, k.same key = false := by
      intro k hm
      exact (List.pairwise_append.mp hd).2.2 k hm key List.mem_cons_self
    have hget : ∀ n, (add u (node, key.options)).get? n =
        if node = n then some ⟨entries ++ [(key, ())]⟩ else u.get? n := by
      intro n
      simp [add, get?_insert, hu, EntrySet.insert, EntrySet.insertEntry_new hk]
    have hadd : (add u (node, key.options)).order = u.order := by
      simp [add, order_insert, hu]
    obtain ⟨ho, hv⟩ := ih (u := add u (node, key.options)) (entries ++ [(key, ())])
      (by simp [hget]) (by simpa using hd)
    refine ⟨ho.trans hadd, fun n => ?_⟩
    rw [List.map_cons, List.foldl_cons, hv, hget]
    split <;> simp

theorem foldl_add_set (hu : u.get? node = none) (hd : s.Distinct) (hf : s.isEmpty = false) :
    let v := (s.keys.map fun key => (node, key.options)).foldl add u
    v.order = u.order ++ [node] ∧
      ∀ n, v.get? n = if node = n then some s.outline else u.get? n := by
  obtain ⟨entries⟩ := s
  cases entries with
  | nil => cases hf
  | cons entry entries =>
    have hget : ∀ n, (add u (node, entry.1.options)).get? n =
        if node = n then some ⟨[(entry.1, ())]⟩ else u.get? n := by
      intro n
      rw [add, get?_insert, hu]
      rfl
    have hfirst : (add u (node, entry.1.options)).get? node = some ⟨[(entry.1, ())]⟩ := by
      simp [hget]
    obtain ⟨ho, hv⟩ := foldl_add_keys (entries.map Prod.fst) [(entry.1, ())] hfirst hd
    refine ⟨ho.trans (by simp [add, order_insert, hu]), fun n => ?_⟩
    rw [EntrySet.keys, List.map_cons, List.map_cons, List.foldl_cons, hv, hget]
    split <;> simp [EntrySet.outline]

/-- The nodes that are left are new to the provider, so each goes to the end. -/
theorem foldl_add_nodes (nodes : List (String × EntrySet κ)) (hn : (nodes.map Prod.fst).Nodup)
    (hu : ∀ n ∈ nodes.map Prod.fst, u.get? n = none)
    (hs : ∀ n s, (n, s) ∈ nodes → s.Distinct ∧ s.isEmpty = false) :
    let v := (nodes.flatMap fun (node, s) => s.keys.map fun key =>
      (node, key.options)).foldl add u
    v.order = u.order ++ nodes.map Prod.fst ∧
      (∀ n s, (n, s) ∈ nodes → v.get? n = some s.outline) ∧
      ∀ n, n ∉ nodes.map Prod.fst → v.get? n = u.get? n := by
  induction nodes generalizing u with
  | nil => exact ⟨by simp, by simp, fun _ _ => rfl⟩
  | cons entry rest ih =>
    obtain ⟨node, s⟩ := entry
    obtain ⟨hd, hf⟩ := hs node s List.mem_cons_self
    obtain ⟨hnew, hrest⟩ := List.nodup_cons.mp hn
    obtain ⟨ho, hv⟩ := foldl_add_set (hu node List.mem_cons_self) hd hf
    have hkept : ∀ n ∈ rest.map Prod.fst, (List.foldl add u
        (s.keys.map fun key => (node, key.options))).get? n = none := by
      intro n hm
      have hne : node ≠ n := fun he => hnew (he ▸ hm)
      rw [hv, if_neg hne]
      exact hu n (List.mem_cons_of_mem _ hm)
    obtain ⟨hro, hrm, hrn⟩ := ih hrest hkept fun n t hm => hs n t (List.mem_cons_of_mem _ hm)
    rw [List.flatMap_cons, List.foldl_append]
    refine ⟨?_, fun n t hm => ?_, fun n hm => ?_⟩
    · simp [hro, ho]
    · rcases List.mem_cons.mp hm with hm | hm
      · cases hm
        rw [hrn node hnew, hv, if_pos rfl]
      · exact hrm n t hm
    · rw [List.map_cons, List.mem_cons, not_or] at hm
      rw [hrn n hm.2, hv, if_neg (Ne.symm hm.1)]

end Rebuild

/-- A provider that hears of all subscriptions, in order, knows the registry. -/
theorem Sound.rebuild {r : Registry κ} (h : r.Sound) : r.replay.foldl add .empty = r.outline := by
  obtain ⟨ho, hm, hn⟩ := foldl_add_nodes (u := .empty) r.nodes (h.names_nodes ▸ h.nodup)
    (fun _ _ => get?_empty _) fun n s hs =>
      have hs := h.mem_nodes.mp hs
      ⟨h.distinct n s hs, h.filled n s hs⟩
  rw [h.names_nodes] at ho hn
  refine ext_get? (ho.trans rfl) fun n => ?_
  rw [get?_outline]
  cases hs : r.get? n with
  | some s => exact hm n s (h.mem_nodes.mpr hs)
  | none => exact (hn n (by simp [h.listed, hs])).trans (get?_empty n)

end Registry
end MediaLink
