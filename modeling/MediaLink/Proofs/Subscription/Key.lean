import MediaLink.Payload

/-! Two keys are equal if they have one canonical form, from numbers upwards. -/
namespace MediaLink

/-- The two zeros have one form. -/
def Binary64.canon (x : Binary64) : Binary64 := { x with negative := x.negative && x.rank != 0 }

theorem Binary64.same_iff_canon {x y : Binary64} : x.same y ↔ x.canon = y.canon := by
  rw [same_iff]
  obtain ⟨m, r, hr⟩ := x
  obtain ⟨n, s, hs⟩ := y
  simp only [canon, Binary64.mk.injEq]
  constructor
  · rintro ⟨rfl, rfl | h⟩
    · exact ⟨rfl, rfl⟩
    · simp [h]
  · rintro ⟨h, rfl⟩
    by_cases hz : r = 0
    · exact ⟨rfl, .inr hz⟩
    · have hb : (r != 0) = true := bne_iff_ne.mpr hz
      exact ⟨rfl, .inl (by simpa only [hb, Bool.and_true] using h)⟩

def Number.canon : Number → Number
  | .integer n => .integer n
  | .float x => .float x.canon

theorem Number.same_iff_canon {m n : Number} : m.same n ↔ m.canon = n.canon := by
  cases m <;> cases n <;> simp [same, canon, Binary64.same_iff_canon]

namespace Value

mutual

def canon : Value → Value
  | .number n => .number n.canon
  | .list items => .list (canonItems items)
  | .object members => .object (canonMembers members)
  | v => v

def canonItems : List Value → List Value
  | [] => []
  | v :: vs => canon v :: canonItems vs

def canonMembers : Members → Members
  | [] => []
  | (k, v) :: ms => (k, canon v) :: canonMembers ms

end

mutual

theorem same_iff_canon : ∀ a b : Value, same a b ↔ canon a = canon b
  | .null, b => by cases b <;> simp [same, canon]
  | .bool _, b => by cases b <;> simp [same, canon]
  | .number _, b => by cases b <;> simp [same, canon, Number.same_iff_canon]
  | .text _, b => by cases b <;> simp [same, canon]
  | .list as, b => by
    cases b with
    | list bs => simpa [same, canon] using sameItems_iff_canon as bs
    | _ => simp [same, canon]
  | .object as, b => by
    cases b with
    | object bs => simpa [same, canon] using sameMembers_iff_canon as bs
    | _ => simp [same, canon]

theorem sameItems_iff_canon : ∀ as bs : List Value,
    sameItems as bs ↔ canonItems as = canonItems bs
  | [], [] => by simp [sameItems, canonItems]
  | [], _ :: _ => by simp [sameItems, canonItems]
  | _ :: _, [] => by simp [sameItems, canonItems]
  | a :: as, b :: bs => by
    simp [sameItems, canonItems, same_iff_canon a b, sameItems_iff_canon as bs]

theorem sameMembers_iff_canon : ∀ as bs : Members,
    sameMembers as bs ↔ canonMembers as = canonMembers bs
  | [], [] => by simp [sameMembers, canonMembers]
  | [], _ :: _ => by simp [sameMembers, canonMembers]
  | _ :: _, [] => by simp [sameMembers, canonMembers]
  | (k, a) :: as, (l, b) :: bs => by
    simp [sameMembers, canonMembers, same_iff_canon a b, sameMembers_iff_canon as bs]

end

end Value

namespace Key

variable {k l m : Key}

/-- The options of a key in canonical form, unless they are absent or empty. -/
def canon (k : Key) : Option Members :=
  (filled? k.options).map fun p => Value.canonMembers p.members

theorem same_iff_canon : k.same l ↔ k.canon = l.canon := by
  simp only [same, admits, canon]
  cases filled? k.options <;> cases filled? l.options <;>
    simp [Payload.same, Value.sameMembers_iff_canon]

/-- A key denotes its own subscription. -/
theorem same_refl (k : Key) : k.same k = true := same_iff_canon.mpr rfl

/-- Equal keys denote the same subscriptions. -/
theorem same_congr (h : k.same l) (m : Key) : k.same m = l.same m := by
  rw [Bool.eq_iff_iff, same_iff_canon, same_iff_canon, same_iff_canon.mp h]

theorem same_comm (k l : Key) : k.same l = l.same k := by
  rw [Bool.eq_iff_iff, same_iff_canon, same_iff_canon, eq_comm]

/-- The same options are denoted by equal keys. -/
theorem same_congr_right (h : l.same m) (k : Key) : k.same l = k.same m := by
  rw [Bool.eq_iff_iff, same_iff_canon, same_iff_canon, same_iff_canon.mp h]

/-- Of two keys that are not equal, options denote at most one. -/
theorem admits_other (h : k.same l = false) {options : Option Payload} (ha : k.admits options) :
    l.admits options = false := by
  rw [Bool.eq_false_iff]
  intro hl
  have hs := same_congr_right (l := l) (m := ⟨options⟩) hl k
  exact absurd (h.symm.trans (hs.trans ha)) (by simp)

end Key

end MediaLink
