import MediaLink.Proofs.Subscription.Chronicle

/-! The two halves of a registry, the nodes in order and their sets, never come apart. -/
namespace MediaLink

variable {κ : Type}

namespace Registry

variable {r : Registry κ}

theorem Sound.nodeCount_eq (h : r.Sound) : r.nodeCount = r.sets.size := by
  have hm : ∀ node, node ∈ r.order ↔ node ∈ r.sets.keys := fun node => by
    rw [h.listed, Std.ExtTreeMap.mem_keys, mem_sets_iff]
  have hp := (List.perm_ext_iff_of_nodup h.nodup Std.ExtTreeMap.nodup_keys).mpr hm
  rw [nodeCount, hp.length_eq, Std.ExtTreeMap.length_keys]

theorem Sound.isEmpty_iff (h : r.Sound) : r.isEmpty ↔ ∀ node, r.get? node = none := by
  rw [isEmpty, List.isEmpty_iff, List.eq_nil_iff_forall_not_mem]
  exact forall_congr' fun node => by rw [h.listed, Option.not_isSome_iff_eq_none]

/-- A provider hears of every node. -/
theorem Sound.mem_replay (h : r.Sound) (node : String) :
    node ∈ r.order ↔ ∃ options, (node, options) ∈ r.replay := by
  simp only [replay_eq, List.mem_flatMap, List.mem_map, Prod.mk.injEq]
  constructor
  · intro hn
    obtain ⟨key, hk⟩ := List.exists_mem_of_ne_nil _ ((h.mem_order_iff node).mp hn)
    exact ⟨key.options, node, hn, key, hk, rfl, rfl⟩
  · rintro ⟨options, n, hn, key, -, rfl, -⟩
    exact hn

theorem Sound.inspect_eq (h : r.Sound) : r.inspect = Text.inspectMap (r.order.map fun node =>
    (Text.inspect node, ((r.get? node).getD .empty).inspect)) := by
  simp [inspect, h.nodes_eq, Function.comp_def]

/-- What is not erased stays, in its order. -/
theorem Sound.replay_erase (h : r.Sound) (node : String) (options : Option Payload) :
    (r.erase node options).replay =
      r.replay.filter fun (n, given) => !(n == node && Key.admits ⟨given⟩ options) := by
  rw [replay_eq, h.order_erase, flatMap_filter, replay_eq, List.filter_flatMap]
  · refine List.flatMap_congr fun n _ => ?_
    rw [h.keys_erase, List.filter_map]
    rfl
  · intro n hn
    rw [keys_none (by simpa using hn), List.map_nil]

/-- After any operations, the nodes that are listed are those that have a set, each once; no set is
empty, and no two keys of a set are equal. So all that is said of the registry agrees, and no node
is passed over. A removal that finds an entry takes it under every spelling of its options, and
nothing else: the other entries stay as they are, in their order. -/
theorem layout_from_operations (ops : List (Operation κ)) :
    let r := build ops
    (r.order.Nodup ∧ (∀ node, node ∈ r.order ↔ node ∈ r.sets) ∧
      ∀ node s, r.get? node = some s → s.isEmpty = false ∧
        s.keys.Pairwise fun k l => k.same l = false ∧ l.same k = false) ∧
    (r.nodeCount = r.sets.size ∧ (r.isEmpty ↔ r.nodeCount = 0) ∧
      (r.isEmpty ↔ ∀ node, r.get? node = none) ∧
      ∀ node, node ∈ r.order ↔ (r.get? node).isSome) ∧
    (r.nodes.map Prod.fst = r.order ∧
      (∀ node, node ∈ r.order ↔ ∃ options, (node, options) ∈ r.replay) ∧
      r.inspect = Text.inspectMap (r.order.map fun node =>
        (Text.inspect node, ((r.get? node).getD .empty).inspect))) ∧
    ∀ node options key,
      (Operation.remove node options : Operation κ).outcome r = .removed (some key) →
      let after := r.erase node options
      (∀ given, Key.same ⟨options⟩ ⟨given⟩ → after.find? node given = none) ∧
      (∀ n given, ¬ (n = node ∧ Key.same ⟨options⟩ ⟨given⟩) →
        after.find? n given = r.find? n given) ∧
      r.replay.filter (fun (n, given) => n == node && Key.same ⟨given⟩ ⟨options⟩) =
        [(node, key.options)] ∧
      after.replay =
        r.replay.filter (fun (n, given) => !(n == node && Key.same ⟨given⟩ ⟨options⟩)) ∧
      after.order = r.order.filter fun n => (after.get? n).isSome := by
  intro r
  have h : r.Sound := sound_build ops
  refine ⟨⟨h.nodup, fun node => ?_, fun node s hs => ⟨h.filled node s hs, ?_⟩⟩,
    ⟨h.nodeCount_eq, ?_, h.isEmpty_iff, h.listed⟩, ⟨h.names_nodes, h.mem_replay, h.inspect_eq⟩,
    fun node options key hk => ?_⟩
  · rw [h.listed, mem_sets_iff]
  · exact (h.distinct node s hs).imp fun hd => ⟨hd, (Key.same_comm _ _).trans hd⟩
  · rw [isEmpty, List.isEmpty_iff, nodeCount, List.length_eq_zero_iff]
  · obtain ⟨⟨stored, callback⟩, hf, rfl⟩ := Option.map_eq_some_iff.mp (Outcome.removed.inj hk)
    have hone := h.filter_replay node options
    rw [hf] at hone
    refine ⟨fun given hs => ?_, fun n given hn => ?_, hone, h.replay_erase node options,
      h.order_erase node options⟩
    · rw [h.find?_erase, if_pos ⟨rfl, hs⟩]
    · rw [h.find?_erase, if_neg fun he => hn ⟨he.1.symm, he.2⟩]

/-- An entry without options is removed under empty ones; its node stays for another page. -/
theorem layout_from_operations_respelled :
    let page := some (Payload.empty.withPage 1)
    let r : Registry Nat := build [
      .insert "album" page 1, .insert "leaf" none 2, .insert "album" none 3]
    let after := r.erase "album" (some .empty)
    (Operation.remove "album" (some .empty) : Operation Nat).outcome r =
        .removed (some ⟨none⟩) ∧
      after.replay = [("album", page), ("leaf", none)] ∧
      (∀ given, Key.same ⟨some .empty⟩ ⟨given⟩ → after.find? "album" given = none) ∧
      ∀ n given, ¬ (n = "album" ∧ Key.same ⟨some .empty⟩ ⟨given⟩) →
        after.find? n given = r.find? n given := by
  intro page r after
  have h := layout_from_operations [
    .insert "album" page 1, .insert "leaf" none 2, .insert "album" none 3]
  obtain ⟨hgone, hkept, -⟩ := h.2.2.2 "album" (some .empty) ⟨none⟩ rfl
  exact ⟨rfl, rfl, hgone, hkept⟩

end Registry
end MediaLink
