import MediaLink.Proofs.Payload.Writes
import MediaLink.Proofs.Subscription.Key
import Mathlib.Order.Monotone.Basic

/-! Keys are equal if the values written last under every name are deeply equal. -/
namespace MediaLink

namespace Binary64

variable {x y : Binary64}

/-- The exact value, in units of the least positive magnitude. -/
def value (x : Binary64) : Int := if x.negative then -(units x.rank : Int) else units x.rank

theorem units_binade (k : Nat) {r : Nat} (hr : r < Nat.pow 2 52) :
    units (Nat.pow 2 52 * (k + 1) + r) = (Nat.pow 2 52 + r) * Nat.pow 2 k := by
  have hb : Nat.pow 2 53 = 2 * Nat.pow 2 52 := by decide
  have hpos : 0 < Nat.pow 2 52 := by decide
  simp only [units, hb]
  generalize Nat.pow 2 52 = b at hr hpos ⊢
  cases k with
  | zero =>
    rw [if_pos (by omega)]
    simp
  | succ k =>
    have hle : b * 2 ≤ b * (k + 1 + 1) := Nat.mul_le_mul_left b (by omega)
    rw [if_neg (by omega), Nat.mul_add_mod, Nat.mod_eq_of_lt hr, Nat.mul_add_div hpos,
      Nat.div_eq_of_lt hr]
    rfl

/-- The next magnitude is greater, also where it begins a binade. -/
theorem units_lt_succ (rank : Nat) : units rank < units (rank + 1) := by
  have hb : Nat.pow 2 53 = 2 * Nat.pow 2 52 := by decide
  have hpos : 0 < Nat.pow 2 52 := by decide
  by_cases hs : rank < Nat.pow 2 52
  · rw [units_of_small (by omega), units_of_small (by omega)]
    exact Nat.lt_succ_self rank
  · obtain ⟨k, r, hr, rfl⟩ : ∃ k r, r < Nat.pow 2 52 ∧ rank = Nat.pow 2 52 * (k + 1) + r := by
      refine ⟨rank / Nat.pow 2 52 - 1, rank % Nat.pow 2 52, Nat.mod_lt _ hpos, ?_⟩
      have hq : 0 < rank / Nat.pow 2 52 := Nat.div_pos (not_lt.mp hs) hpos
      rw [Nat.sub_add_cancel hq, Nat.div_add_mod]
    by_cases hc : r + 1 < Nat.pow 2 52
    · rw [units_binade k hr, Nat.add_assoc, units_binade k hc]
      exact Nat.mul_lt_mul_of_pos_right (by omega) (Nat.pow_pos (by decide))
    · have hn : Nat.pow 2 52 * (k + 1) + r + 1 = Nat.pow 2 52 * (k + 1 + 1) + 0 := by
        rw [Nat.mul_add_one _ (k + 1)]
        omega
      rw [units_binade k hr, hn, units_binade (k + 1) hpos, Nat.add_zero]
      calc (Nat.pow 2 52 + r) * Nat.pow 2 k
          < (Nat.pow 2 52 * 2) * Nat.pow 2 k :=
            Nat.mul_lt_mul_of_pos_right (by omega) (Nat.pow_pos (by decide))
        _ = Nat.pow 2 52 * Nat.pow 2 (k + 1) := by
            rw [Nat.mul_assoc, Nat.mul_comm 2]
            rfl

theorem units_strictMono : StrictMono units := strictMono_nat_of_lt_succ units_lt_succ

theorem same_iff_value : x.same y ↔ x.value = y.value := by
  have h0 : units 0 = 0 := units_of_small (by decide)
  have hz : ∀ r, units r = 0 ↔ r = 0 := fun r =>
    ⟨fun h => units_strictMono.injective (h.trans h0.symm), fun h => h ▸ h0⟩
  rw [same_iff, ← units_strictMono.injective.eq_iff, ← hz]
  simp only [value]
  cases x.negative <;> cases y.negative <;> simp <;> omega

end Binary64

/-- Numbers of one kind with one value. -/
inductive Number.Equal : Number → Number → Prop where
  | integer (n : Int) : Equal (.integer n) (.integer n)
  | float {x y : Binary64} (h : x.value = y.value) : Equal (.float x) (.float y)

/-- Deep equality: lists item by item in order, objects by key. -/
inductive Value.Equal : Value → Value → Prop where
  | null : Equal .null .null
  | bool (b : Bool) : Equal (.bool b) (.bool b)
  | number {m n : Number} (h : m.Equal n) : Equal (.number m) (.number n)
  | text (s : String) : Equal (.text s) (.text s)
  | list {as bs : List Value} (h : List.Forall₂ Equal as bs) : Equal (.list as) (.list bs)
  | object {as bs : Members} (h : ∀ key, Option.Rel Equal (as.get? key) (bs.get? key)) :
    Equal (.object as) (.object bs)

theorem Number.same_iff_equal {m n : Number} : m.same n ↔ m.Equal n := by
  constructor
  · intro h
    cases m with
    | integer a =>
      cases n with
      | integer b =>
        obtain rfl : a = b := by simpa [same] using h
        exact .integer a
      | float => cases h
    | float x =>
      cases n with
      | integer => cases h
      | float y => exact .float (Binary64.same_iff_value.mp h)
  · rintro (_ | h)
    · simp [same]
    · exact Binary64.same_iff_value.mpr h

namespace Value

theorem number_equal_iff {m n : Number} : Equal (.number m) (.number n) ↔ m.Equal n :=
  ⟨fun h => by cases h; assumption, .number⟩

theorem list_equal_iff {as bs : List Value} :
    Equal (.list as) (.list bs) ↔ List.Forall₂ Equal as bs :=
  ⟨fun h => by cases h; assumption, .list⟩

theorem object_equal_iff {as bs : Members} (ha : as.Ascending) (hb : bs.Ascending) :
    Equal (.object as) (.object bs) ↔
      List.Forall₂ (fun m n => m.1 = n.1 ∧ m.2.Equal n.2) as bs := by
  rw [← ha.rel_iff hb]
  exact ⟨fun h => by cases h; assumption, .object⟩

mutual

theorem same_iff_equal : ∀ a b : Value, a.Sound → b.Sound → (same a b ↔ a.Equal b)
  | .null, b, _, _ => by
    cases b with
    | null => exact ⟨fun _ => .null, fun _ => rfl⟩
    | _ => exact ⟨nofun, nofun⟩
  | .bool a, b, _, _ => by
    cases b with
    | bool b =>
      refine ⟨fun h => ?_, fun h => by cases h; simp [same]⟩
      obtain rfl : a = b := by simpa [same] using h
      exact .bool a
    | _ => exact ⟨nofun, nofun⟩
  | .number m, b, _, _ => by
    cases b with
    | number n => rw [number_equal_iff, same, Number.same_iff_equal]
    | _ => exact ⟨nofun, nofun⟩
  | .text s, b, _, _ => by
    cases b with
    | text t =>
      refine ⟨fun h => ?_, fun h => by cases h; simp [same]⟩
      obtain rfl : s = t := by simpa [same] using h
      exact .text s
    | _ => exact ⟨nofun, nofun⟩
  | .list as, b, ha, hb => by
    cases b with
    | list bs => rw [list_equal_iff, same, sameItems_iff_equal as bs ha hb]
    | _ => exact ⟨nofun, nofun⟩
  | .object as, b, ha, hb => by
    cases b with
    | object bs =>
      rw [object_equal_iff ha.1 hb.1, same, sameMembers_iff_equal as bs ha.2 hb.2]
    | _ => exact ⟨nofun, nofun⟩

theorem sameItems_iff_equal : ∀ as bs : List Value, ItemsSound as → ItemsSound bs →
    (sameItems as bs ↔ List.Forall₂ Equal as bs)
  | [], [], _, _ => by simp [sameItems]
  | [], _ :: _, _, _ => by simp [sameItems]
  | _ :: _, [], _, _ => by simp [sameItems]
  | a :: as, b :: bs, ha, hb => by
    simp [sameItems, same_iff_equal a b ha.1 hb.1, sameItems_iff_equal as bs ha.2 hb.2]

theorem sameMembers_iff_equal : ∀ as bs : Members, MembersSound as → MembersSound bs →
    (sameMembers as bs ↔ List.Forall₂ (fun m n => m.1 = n.1 ∧ m.2.Equal n.2) as bs)
  | [], [], _, _ => by simp [sameMembers]
  | [], _ :: _, _, _ => by simp [sameMembers]
  | _ :: _, [], _, _ => by simp [sameMembers]
  | (k, a) :: as, (l, b) :: bs, ha, hb => by
    simp [sameMembers, same_iff_equal a b ha.1 hb.1, sameMembers_iff_equal as bs ha.2 hb.2]

end

end Value

/-- Sound payloads are the same if they have deeply equal values under every key. -/
theorem Payload.Sound.same_iff {p q : Payload} (hp : p.Sound) (hq : q.Sound) :
    p.same q ↔ ∀ key, Option.Rel Value.Equal (p.get? key) (q.get? key) := by
  rw [Payload.same, Value.sameMembers_iff_equal _ _ hp.values hq.values]
  exact (hp.ascending.rel_iff hq.ascending).symm

namespace Key

variable {k l : Key}

/-- The payload of a key; absent options count as none at all. -/
def payload (k : Key) : Payload := k.options.getD .empty

/-- The key that calls make, if there is a payload at all. -/
def written (ws : Option (List Write)) : Key := ⟨ws.map Payload.build⟩

theorem same_iff_payload : k.same l ↔ k.payload.same l.payload := by
  obtain ⟨_ | ⟨_ | ⟨m, ms⟩⟩⟩ := k <;> obtain ⟨_ | ⟨_ | ⟨n, ns⟩⟩⟩ := l <;> exact Iff.rfl

theorem payload_written (ws : Option (List Write)) :
    (written ws).payload = Payload.build (ws.getD []) := by
  cases ws <;> rfl

theorem same_iff_written (as bs : Option (List Write)) :
    (written as).same (written bs) ↔ ∀ key, Option.Rel Value.Equal
      (Payload.lastWritten? key (as.getD [])) (Payload.lastWritten? key (bs.getD [])) := by
  rw [same_iff_payload, payload_written, payload_written,
    (Payload.sound_build _).same_iff (Payload.sound_build _)]
  simp only [Payload.get?_build]

theorem same_equivalence : Equivalence fun k l : Key => k.same l = true where
  refl := same_refl
  symm h := same_iff_canon.mpr (same_iff_canon.mp h).symm
  trans h h' := same_iff_canon.mpr ((same_iff_canon.mp h).trans (same_iff_canon.mp h'))

theorem isDefault_eq (k : Key) : k.isDefault = k.same .default := by
  have hd : filled? Key.default.options = none := rfl
  rw [isDefault, same, admits, hd]
  cases filled? k.options <;> rfl

end Key

/-- Writes that keep their order under each key make the same payload. -/
theorem Payload.build_congr {ws vs : List Write}
    (h : ∀ key, ws.filter (·.key == key) = vs.filter (·.key == key)) : build ws = build vs := by
  refine (sound_build ws).ext (sound_build vs) fun key => ?_
  rw [get?_build, get?_build, lastWritten?, h key, lastWritten?]

namespace Key

/-- Keys of payloads that were written in any way, or are absent, are equal if under every name the
last values written are both missing or deeply equal, and each then denotes what the other one
denotes. Equality of keys is an equivalence, and those equal to the key of an absent payload are the
default ones. The order of writes under different names makes no difference. -/
theorem equality_extensional :
    (∀ as bs : Option (List Write),
      ((written as).same (written bs) ↔ ∀ key, Option.Rel Value.Equal
        (Payload.lastWritten? key (as.getD [])) (Payload.lastWritten? key (bs.getD []))) ∧
      (written as).admits (written bs).options = (written as).same (written bs) ∧
      (written bs).admits (written as).options = (written as).same (written bs)) ∧
    Equivalence (fun k l : Key => k.same l = true) ∧
    (∀ k : Key, k.isDefault = k.same .default) ∧
    ∀ ws vs : List Write, (∀ key, ws.filter (·.key == key) = vs.filter (·.key == key)) →
      Payload.build ws = Payload.build vs := by
  refine ⟨fun as bs => ⟨same_iff_written as bs, rfl, ?_⟩, same_equivalence, isDefault_eq,
    fun _ _ => Payload.build_congr⟩
  exact Bool.eq_iff_iff.mpr ⟨same_equivalence.symm, same_equivalence.symm⟩

/-- A page may be asked for before or after its size. -/
theorem equality_reordered :
    (∀ key, [Write.page 1, .pageSize 20].filter (·.key == key) =
        [Write.pageSize 20, .page 1].filter (·.key == key)) ∧
      Payload.build [.page 1, .pageSize 20] = Payload.build [.pageSize 20, .page 1] := by
  have h : ∀ key, [Write.page 1, .pageSize 20].filter (·.key == key) =
      [Write.pageSize 20, .page 1].filter (·.key == key) := by
    intro key
    by_cases hk : Payload.pageKey = key
    · subst hk
      rfl
    · simp [List.filter_cons, Write.key, hk]
  exact ⟨h, equality_extensional.2.2.2 _ _ h⟩

/-- The two zeros are equal, and no integer equals either. -/
example : (written (some [.insert "x" ⟨.number (.float (.zero true)), trivial⟩])).same
      (written (some [.insert "x" ⟨.number (.float (.zero false)), trivial⟩])) ∧
    ¬ (written (some [.insert "x" ⟨.number (.float (.zero false)), trivial⟩])).same
      (written (some [.insert "x" ⟨.number (.integer 0), by decide, by decide⟩])) := by decide

end Key
end MediaLink
