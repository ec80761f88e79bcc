import MediaLink.Json.Wire
import MediaLink.Proofs.Json.Parsing
import MediaLink.Proofs.Json.Range

/-! Values and payloads that are written are read back, as long as they do not nest too deep. -/
namespace MediaLink

namespace Json.Tree

mutual

/-- How many lists and records are open at once where a tree is deepest. -/
def nesting : Tree → Nat
  | .list items _ => nestingOfItems items + 1
  | .record members _ => nestingOfMembers members + 1
  | _ => 0

def nestingOfItems : List Tree → Nat
  | [] => 0
  | t :: ts => max t.nesting (nestingOfItems ts)

def nestingOfMembers : List (Option String × Tree) → Nat
  | [] => 0
  | (_, t) :: ms => max t.nesting (nestingOfMembers ms)

end

variable {n : Nat} {items : List Tree} {members : List (Option String × Tree)}

theorem nestingOfItems_le : nestingOfItems items ≤ n ↔ ∀ t ∈ items, t.nesting ≤ n := by
  induction items with
  | nil => simp [nestingOfItems]
  | cons t ts ih => simp [nestingOfItems, ih]

theorem nestingOfMembers_le :
    nestingOfMembers members ≤ n ↔ ∀ m ∈ members, m.2.nesting ≤ n := by
  induction members with
  | nil => simp [nestingOfMembers]
  | cons m ms ih => simp [nestingOfMembers, ih]

end Json.Tree

open Json

namespace Json

variable {α β : Type} {x : Reading α} {b : β}

theorem map_eq_ok {f : α → β} : x.map f = .ok b ↔ ∃ a, x = .ok a ∧ f a = b := by
  cases x <;> simp [Except.map]

theorem bind_eq_ok {f : α → Reading β} : x.bind f = .ok b ↔ ∃ a, x = .ok a ∧ f a = .ok b := by
  cases x <;> simp [Except.bind]

end Json

namespace Value

mutual

/-- A value without fractions. -/
def Integral : Value → Prop
  | .number (.float _) => False
  | .list items => ItemsIntegral items
  | .object members => MembersIntegral members
  | _ => True

def ItemsIntegral : List Value → Prop
  | [] => True
  | v :: vs => v.Integral ∧ ItemsIntegral vs

def MembersIntegral : Members → Prop
  | [] => True
  | (_, v) :: ms => v.Integral ∧ MembersIntegral ms

end

variable {depth : Nat} {ms : Members}

theorem membersToTrees_eq (ms : Members) :
    membersToTrees ms = ms.map fun m => (some m.1, m.2.toTree) := by
  induction ms with
  | nil => rfl
  | cons m ms ih => rw [membersToTrees, ih, List.map_cons]

theorem nesting_members_le : Tree.nestingOfMembers (membersToTrees ms) ≤ depth ↔
    ∀ m ∈ ms, m.2.toTree.nesting ≤ depth := by
  rw [Tree.nestingOfMembers_le, membersToTrees_eq, List.forall_mem_map]

mutual

theorem plain_toTree : ∀ v : Value, v.Sound → v.Integral → v.toTree.Plain
  | .null, _, _ | .bool _, _, _ | .text _, _, _ => trivial
  | .number (.integer _), hs, _ => hs
  | .list items, hs, hi => ⟨rfl, plain_items items hs hi⟩
  | .object members, hs, hi => ⟨rfl, plain_members members hs.2 hi⟩

theorem plain_items : ∀ vs : List Value, ItemsSound vs → ItemsIntegral vs →
    Tree.ArePlain (itemsToTrees vs)
  | [], _, _ => trivial
  | v :: vs, hs, hi => ⟨plain_toTree v hs.1 hi.1, plain_items vs hs.2 hi.2⟩

theorem plain_members : ∀ ms : Members, MembersSound ms → MembersIntegral ms →
    Tree.MembersPlain (membersToTrees ms)
  | [], _, _ => trivial
  | (_, v) :: ms, hs, hi => ⟨rfl, plain_toTree v hs.1 hi.1, plain_members ms hs.2 hi.2⟩

end

mutual

theorem read_toTree : ∀ (v : Value) (depth : Nat), v.Sound → v.toTree.nesting ≤ depth →
    read depth v.toTree = .ok v
  | .null, _, _, _ | .bool _, _, _, _ | .number _, _, _, _ | .text _, _, _, _ => rfl
  | .list items, depth, hs, hd => by
    simp only [toTree, Tree.nesting] at hd
    have hi := read_items items (depth - 1) hs (by omega)
    rw [toTree, read, if_neg (by omega), hi]
    rfl
  | .object members, depth, hs, hd => by
    simp only [toTree, Tree.nesting] at hd
    have hm := read_members members [] (depth - 1) hs.1 hs.2 (by omega)
    rw [toTree, read, if_neg (by omega), hm]
    rfl

theorem read_items : ∀ (vs : List Value) (depth : Nat), ItemsSound vs →
    Tree.nestingOfItems (itemsToTrees vs) ≤ depth →
    readItems depth true (itemsToTrees vs) = .ok vs
  | [], _, _, _ => rfl
  | v :: vs, depth, hs, hd => by
    simp only [itemsToTrees, Tree.nestingOfItems] at hd
    have hv := read_toTree v depth hs.1 (by omega)
    have hr := read_items vs depth hs.2 (by omega)
    simp [itemsToTrees, readItems, hv, hr, Except.map]

/-- Ascending keys go to the end one after the other. -/
theorem read_members : ∀ (ms before : Members) (depth : Nat),
    Members.Ascending (before ++ ms) → MembersSound ms →
    Tree.nestingOfMembers (membersToTrees ms) ≤ depth →
    readMembers depth true (membersToTrees ms) before = .ok (before ++ ms)
  | [], before, _, _, _, _ => by simp [membersToTrees, readMembers]
  | (k, v) :: ms, before, depth, ha, hs, hd => by
    simp only [membersToTrees, Tree.nestingOfMembers] at hd
    have hv := read_toTree v depth hs.1 (by omega)
    have hlast : before.insert k v = before ++ [(k, v)] :=
      Members.insert_last (fun m hm => (List.pairwise_append.mp ha).2.2 m hm (k, v) (by simp)) v
    have hr := read_members ms (before ++ [(k, v)]) depth (by simpa using ha) hs.2 (by omega)
    simp [membersToTrees, readMembers, hv, hlast, hr]

end

mutual

theorem read_sound : ∀ (t : Tree) (depth : Nat) (v : Value), t.Fits → read depth t = .ok v →
    v.Sound ∧ v.toTree.nesting ≤ depth
  | .null, _, _, _, h | .bool _, _, _, _, h | .text (some _), _, _, _, h => by
    cases h
    exact ⟨trivial, Nat.zero_le _⟩
  | .number (some n), _, _, hf, h => by
    cases h
    exact ⟨hf, Nat.zero_le _⟩
  | .number none, _, _, _, h | .text none, _, _, _, h | .broken, _, _, _, h => by cases h
  | .list items closed, depth, v, hf, h => by
    simp only [read] at h
    split at h
    · cases h
    · obtain ⟨vs, hr, rfl⟩ := map_eq_ok.mp h
      obtain ⟨hs, hd⟩ := items_sound items (depth - 1) closed vs hf hr
      simp only [toTree, Tree.nesting]
      exact ⟨hs, by omega⟩
  | .record members closed, depth, v, hf, h => by
    simp only [read] at h
    split at h
    · cases h
    · obtain ⟨ms, hr, rfl⟩ := map_eq_ok.mp h
      obtain ⟨ha, hm⟩ := members_sound members (depth - 1) closed [] ms hf .nil nofun hr
      have hd := nesting_members_le.mpr fun m hmem => (hm m hmem).2
      simp only [toTree, Tree.nesting]
      exact ⟨⟨ha, membersSound_iff.mpr fun m hmem => (hm m hmem).1⟩, by omega⟩

theorem items_sound : ∀ (ts : List Tree) (depth : Nat) (closed : Bool) (vs : List Value),
    Tree.AreFit ts → readItems depth closed ts = .ok vs →
    ItemsSound vs ∧ Tree.nestingOfItems (itemsToTrees vs) ≤ depth
  | [], depth, closed, vs, _, h => by
    simp only [readItems] at h
    split at h <;> cases h
    exact ⟨trivial, Nat.zero_le _⟩
  | t :: ts, depth, closed, vs, hf, h => by
    simp only [readItems] at h
    split at h
    · cases h
    · rename_i v hv
      obtain ⟨us, hr, rfl⟩ := map_eq_ok.mp h
      obtain ⟨hs, hd⟩ := read_sound t depth v hf.1 hv
      obtain ⟨hss, hds⟩ := items_sound ts depth closed us hf.2 hr
      exact ⟨⟨hs, hss⟩, Nat.max_le.mpr ⟨hd, hds⟩⟩

/-- Members are sound together with those that were read before them. -/
theorem members_sound : ∀ (ms : List (Option String × Tree)) (depth : Nat) (closed : Bool)
    (before result : Members), Tree.MembersFit ms → before.Ascending →
    (∀ m ∈ before, m.2.Sound ∧ m.2.toTree.nesting ≤ depth) →
    readMembers depth closed ms before = .ok result →
    result.Ascending ∧ ∀ m ∈ result, m.2.Sound ∧ m.2.toTree.nesting ≤ depth
  | [], depth, closed, before, result, _, ha, hb, h => by
    simp only [readMembers] at h
    split at h <;> cases h
    exact ⟨ha, hb⟩
  | (none, _) :: _, _, _, _, _, _, _, _, h => by cases h
  | (some k, t) :: ms, depth, closed, before, result, hf, ha, hb, h => by
    simp only [readMembers] at h
    split at h
    · cases h
    · rename_i v hv
      refine members_sound ms depth closed (before.insert k v) result hf.2 (ha.insert k v) ?_ h
      intro m hm
      rcases Members.mem_insert hm with rfl | hm
      · exact read_sound t depth v hf.1 hv
      · exact hb m hm

end

end Value

namespace Payload

variable {p : Payload} {depth : Nat}

def Integral (p : Payload) : Prop := Value.MembersIntegral p.members

theorem Sound.plain (h : p.Sound) (hi : p.Integral) : p.toTree.Plain :=
  ⟨rfl, Value.plain_members p.members h.values hi⟩

theorem Sound.read_toTree (h : p.Sound) (hd : p.toTree.nesting ≤ depth) :
    read depth p.toTree = .ok p := by
  simp only [toTree, Tree.nesting] at hd
  obtain ⟨d, rfl⟩ : ∃ d, depth = d + 1 := ⟨depth - 1, by omega⟩
  have hm := Value.read_members p.members [] d h.ascending h.values (by omega)
  simp only [toTree, read, hm]
  rfl

theorem read_sound {t : Tree} (hf : t.Fits) (h : read depth t = .ok p) :
    p.Sound ∧ p.toTree.nesting ≤ depth := by
  simp only [read] at h
  split at h
  · cases h
  · obtain ⟨ms, hr, rfl⟩ := map_eq_ok.mp h
    obtain ⟨ha, hm⟩ := Value.members_sound _ _ _ [] ms hf .nil nofun hr
    have hd := Value.nesting_members_le.mpr fun m hmem => (hm m hmem).2
    simp only [toTree, Tree.nesting]
    exact ⟨⟨ha, Value.membersSound_iff.mpr fun m hmem => (hm m hmem).1⟩, by omega⟩
  · cases h

end Payload

end MediaLink
