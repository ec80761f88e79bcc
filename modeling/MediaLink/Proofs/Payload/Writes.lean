import MediaLink.Payload
import Mathlib.Data.List.Forall2
import Mathlib.Data.List.Induction
import Mathlib.Data.String.Basic

/-! A payload has the value that was last written under each key. -/
namespace MediaLink

namespace Members

variable {key : String} {value : Value} {ms as bs : Members} {R : Value → Value → Prop}

/-- The keys ascend, each key once. -/
def Ascending (ms : Members) : Prop := ms.Pairwise fun m n => m.1 < n.1

theorem mem_insert {m : String × Value} (h : m ∈ ms.insert key value) :
    m = (key, value) ∨ m ∈ ms := by
  induction ms with
  | nil => exact .inl (List.mem_singleton.mp h)
  | cons entry rest ih =>
    rw [insert] at h
    split_ifs at h with hlt heq
    · exact List.mem_cons.mp h
    · exact (List.mem_cons.mp h).imp_right (List.mem_cons_of_mem _)
    · rcases List.mem_cons.mp h with rfl | h
      · exact .inr List.mem_cons_self
      · exact (ih h).imp_right (List.mem_cons_of_mem _)

theorem Ascending.insert (h : ms.Ascending) (key : String) (value : Value) :
    Ascending (ms.insert key value) := by
  induction ms with
  | nil => exact List.pairwise_singleton ..
  | cons entry rest ih =>
    obtain ⟨hfirst, hrest⟩ := List.pairwise_cons.mp h
    rw [Members.insert]
    split_ifs with hlt heq
    · refine List.pairwise_cons.mpr ⟨fun m hm => ?_, h⟩
      rcases List.mem_cons.mp hm with rfl | hm
      · exact hlt
      · exact hlt.trans (hfirst m hm)
    · subst heq
      exact List.pairwise_cons.mpr ⟨hfirst, hrest⟩
    · refine List.pairwise_cons.mpr ⟨fun m hm => ?_, ih hrest⟩
      rcases mem_insert hm with rfl | hm
      · exact lt_of_le_of_ne (not_lt.mp hlt) (Ne.symm heq)
      · exact hfirst m hm

/-- A key above all others goes to the end. -/
theorem insert_last (h : ∀ m ∈ ms, m.1 < key) (value : Value) :
    ms.insert key value = ms ++ [(key, value)] := by
  induction ms with
  | nil => rfl
  | cons entry rest ih =>
    obtain ⟨hfirst, hrest⟩ := List.forall_mem_cons.mp h
    rw [insert, if_neg hfirst.not_gt, if_neg hfirst.ne', ih hrest]
    rfl

theorem get?_insert (ms : Members) (key : String) (value : Value) (k : String) :
    get? k (ms.insert key value) = if key = k then some value else get? k ms := by
  induction ms with
  | nil => rfl
  | cons entry rest ih =>
    obtain ⟨n, v⟩ := entry
    simp only [insert]
    by_cases hlt : key < n
    · rw [if_pos hlt]
      rfl
    · rw [if_neg hlt]
      by_cases heq : key = n
      · subst heq
        simp only [if_true, get?]
        split <;> rfl
      · simp only [if_neg heq, get?, ih]
        by_cases hk : key = k
        · subst hk
          simp [Ne.symm heq]
        · simp [hk]

theorem get?_of_lt (h : ∀ m ∈ ms, key < m.1) : get? key ms = none := by
  induction ms with
  | nil => rfl
  | cons entry rest ih =>
    obtain ⟨hfirst, hrest⟩ := List.forall_mem_cons.mp h
    rw [get?, if_neg hfirst.ne', ih hrest]

theorem get?_head (entry : String × Value) (rest : Members) :
    get? entry.1 (entry :: rest) = some entry.2 := if_pos rfl

theorem Ascending.le_of_found {m : String × Value} (h : Ascending (m :: ms))
    (hf : get? key (m :: ms) ≠ none) : m.1 ≤ key := by
  by_contra hlt
  refine hf (get?_of_lt (List.forall_mem_cons.mpr ⟨not_le.mp hlt, fun n hn => ?_⟩))
  exact (not_le.mp hlt).trans ((List.pairwise_cons.mp h).1 n hn)

/-- Each first key is found on the other side, where no key stands below the first one. -/
theorem Ascending.first_key {k l : String} {a b : Value} (ha : Ascending ((k, a) :: as))
    (hb : Ascending ((l, b) :: bs))
    (h : ∀ key, Option.Rel R (get? key ((k, a) :: as)) (get? key ((l, b) :: bs))) : k = l := by
  have hk : l ≤ k := hb.le_of_found fun hn => by
    cases hn ▸ get?_head (k, a) as ▸ h k
  have hl : k ≤ l := ha.le_of_found fun hn => by
    cases hn ▸ get?_head (l, b) bs ▸ h l
  exact le_antisymm hl hk

/-- Objects agree under every key if they agree member by member. -/
theorem Ascending.rel_iff (ha : as.Ascending) (hb : bs.Ascending) :
    (∀ key, Option.Rel R (get? key as) (get? key bs)) ↔
      List.Forall₂ (fun m n => m.1 = n.1 ∧ R m.2 n.2) as bs := by
  induction as generalizing bs with
  | nil =>
    cases bs with
    | nil => exact ⟨fun _ => .nil, fun _ _ => .none⟩
    | cons n bs =>
      refine ⟨fun h => ?_, fun h => by cases h⟩
      cases get?_head n bs ▸ h n.1
  | cons m as ih =>
    cases bs with
    | nil =>
      refine ⟨fun h => ?_, fun h => by cases h⟩
      cases get?_head m as ▸ h m.1
    | cons n bs =>
      obtain ⟨k, a⟩ := m
      obtain ⟨l, b⟩ := n
      obtain ⟨hfirst, has⟩ := List.pairwise_cons.mp ha
      obtain ⟨hfirst', hbs⟩ := List.pairwise_cons.mp hb
      constructor
      · intro h
        obtain rfl := ha.first_key hb h
        refine .cons ⟨rfl, ?_⟩ ((ih has hbs).mp fun key => ?_)
        · have hh := h k
          rw [get?_head (k, a), get?_head (k, b)] at hh
          cases hh
          assumption
        · by_cases hkey : k = key
          · subst hkey
            rw [get?_of_lt hfirst, get?_of_lt hfirst']
            exact .none
          · have hh := h key
            rwa [get?, get?, if_neg hkey, if_neg hkey] at hh
      · rintro (_ | ⟨⟨rfl, hr⟩, hrest⟩) key
        rw [get?, get?]
        split
        · exact .some hr
        · exact (ih has hbs).mpr hrest key

/-- Objects with the same value under every key are the same. -/
theorem Ascending.ext (ha : as.Ascending) (hb : bs.Ascending)
    (h : ∀ key, get? key as = get? key bs) : as = bs := by
  have hr : ∀ key, Option.Rel (· = ·) (get? key as) (get? key bs) := fun key => by
    rw [h key]
    cases get? key bs <;> constructor
    rfl
  have hf := (ha.rel_iff hb).mp hr
  exact List.forall₂_eq_eq_eq ▸ hf.imp fun m n hmn => Prod.ext hmn.1 hmn.2

end Members

/-- An integer fits 64 bits, with or without a sign. -/
def Number.Fits : Number → Prop
  | .integer n => -Nat.pow 2 63 ≤ n ∧ n < Nat.pow 2 64
  | .float _ => True

namespace Value

mutual

/-- Integers fit, and the keys of every object ascend. -/
def Sound : Value → Prop
  | .number n => n.Fits
  | .list items => ItemsSound items
  | .object members => Members.Ascending members ∧ MembersSound members
  | _ => True

def ItemsSound : List Value → Prop
  | [] => True
  | v :: vs => v.Sound ∧ ItemsSound vs

def MembersSound : Members → Prop
  | [] => True
  | (_, v) :: ms => v.Sound ∧ MembersSound ms

end

variable {key : String} {value : Value} {ms : Members}

theorem membersSound_iff : MembersSound ms ↔ ∀ m ∈ ms, m.2.Sound := by
  induction ms with
  | nil => simp [MembersSound]
  | cons m rest ih => simp [MembersSound, ih]

theorem MembersSound.insert (h : MembersSound ms) (hv : value.Sound) :
    MembersSound (ms.insert key value) := by
  rw [membersSound_iff] at h ⊢
  intro m hm
  rcases Members.mem_insert hm with rfl | hm
  · exact hv
  · exact h m hm

end Value

/-- A call that writes into a payload. -/
inductive Write where
  | insert (key : String) (value : { v : Value // v.Sound })
  | page (n : Int64)
  | pageSize (n : Int64)

namespace Write

def key : Write → String
  | insert key _ => key
  | page _ => Payload.pageKey
  | pageSize _ => Payload.pageSizeKey

def value : Write → Value
  | insert _ value => value
  | page n | pageSize n => .number (.integer n.toInt)

def apply (p : Payload) : Write → Payload
  | insert key value => p.insert key value
  | page n => p.withPage n.toInt
  | pageSize n => p.withPageSize n.toInt

theorem apply_eq (p : Payload) (w : Write) : w.apply p = p.insert w.key w.value := by
  cases w <;> rfl

theorem sound_value (w : Write) : w.value.Sound := by
  have hn : ∀ n : Int64, (Value.number (.integer n.toInt)).Sound := fun n => by
    have hl := n.le_toInt
    have hg := n.toInt_lt
    simp only [Value.Sound, Number.Fits, Nat.pow_eq]
    omega
  cases w with
  | insert _ value => exact value.2
  | page n | pageSize n => exact hn n

end Write

namespace Payload

variable {p : Payload}

/-- The keys ascend, and so they do in every value. -/
structure Sound (p : Payload) : Prop where
  ascending : p.members.Ascending
  values : Value.MembersSound p.members

theorem sound_empty : Payload.empty.Sound := ⟨.nil, trivial⟩

theorem Sound.insert (h : p.Sound) (key : String) {value : Value} (hv : value.Sound) :
    (p.insert key value).Sound := ⟨h.ascending.insert key value, h.values.insert hv⟩

/-- The payload that calls make out of nothing. -/
def build (ws : List Write) : Payload := ws.foldl Write.apply .empty

/-- The value that was written last under a key. -/
def lastWritten? (key : String) (ws : List Write) : Option Value :=
  (ws.filter (·.key == key)).getLast?.map Write.value

theorem build_snoc (ws : List Write) (w : Write) :
    build (ws ++ [w]) = (build ws).insert w.key w.value := by
  rw [build, List.foldl_append, List.foldl_cons, List.foldl_nil, Write.apply_eq, build]

theorem sound_build (ws : List Write) : (build ws).Sound := by
  induction ws using List.reverseRecOn with
  | nil => exact sound_empty
  | append_singleton ws w ih =>
    rw [build_snoc]
    exact ih.insert w.key w.sound_value

theorem get?_build (key : String) (ws : List Write) :
    (build ws).get? key = lastWritten? key ws := by
  induction ws using List.reverseRecOn with
  | nil => rfl
  | append_singleton ws w ih =>
    have hi : (build (ws ++ [w])).get? key =
        if w.key = key then some w.value else (build ws).get? key := by
      rw [build_snoc]
      exact Members.get?_insert ..
    rw [hi, ih]
    by_cases hk : w.key = key <;> simp [lastWritten?, hk]

/-- Sound payloads with the same value under every key are the same. -/
theorem Sound.ext {q : Payload} (hp : p.Sound) (hq : q.Sound)
    (h : ∀ key, p.get? key = q.get? key) : p = q := by
  obtain ⟨ms⟩ := p
  obtain ⟨ns⟩ := q
  exact congrArg Payload.mk (hp.ascending.ext hq.ascending h)

/-- Every sound payload can be written, member by member. -/
theorem Sound.exists_build (h : p.Sound) : ∃ ws, build ws = p := by
  obtain ⟨ms⟩ := p
  induction ms using List.reverseRecOn with
  | nil => exact ⟨[], rfl⟩
  | append_singleton ms m ih =>
    obtain ⟨hms, -, hlast⟩ := List.pairwise_append.mp h.ascending
    have hvalues := Value.membersSound_iff.mp h.values
    have hv : m.2.Sound := hvalues m (by simp)
    obtain ⟨ws, hws⟩ := ih ⟨hms, Value.membersSound_iff.mpr fun n hn => hvalues n (by simp [hn])⟩
    refine ⟨ws ++ [.insert m.1 ⟨m.2, hv⟩], ?_⟩
    rw [build_snoc, hws]
    exact congrArg Payload.mk (Members.insert_last (fun n hn => hlast n hn m (by simp)) m.2)

end Payload
end MediaLink
