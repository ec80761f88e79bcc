import MediaLink.Proofs.Wire.Values

/-! Formats: how values of one kind are written, and how they are read. -/
namespace MediaLink.Json

/-- A kind of values on the wire. -/
structure Format (α : Type) where
  toTree : α → Tree
  read : Reader α
  /-- The values that can be made. -/
  Made : α → Prop
  /-- What a value of this kind has to satisfy. -/
  Valid : α → Prop
  payloads : α → List Payload

namespace Format

variable {α : Type} {f : Format α}

def toText (f : Format α) (a : α) : String := (f.toTree a).toText

def ofText (f : Format α) (s : String) : Reading α := Reader.ofText f.read s

/-- The numbers of all payloads are integers. -/
def Integral (f : Format α) (a : α) : Prop := ∀ p ∈ f.payloads a, p.Integral

/-- A value that was made is read back from its text, and a value that was read from any text can be
made, is valid, and is read back from its own text. -/
structure RoundTrips (f : Format α) : Prop where
  made : ∀ a, f.Made a → f.Integral a → (f.toTree a).nesting ≤ 127 → f.ofText (f.toText a) = .ok a
  read : ∀ s a, f.ofText s = .ok a → f.Integral a →
    f.Made a ∧ f.Valid a ∧ f.ofText (f.toText a) = .ok a

/-- The same about trees. What is read nests no deeper than it may. -/
structure Faithful (f : Format α) : Prop where
  valid : ∀ a, f.Made a → f.Valid a
  plain : ∀ a, f.Made a → f.Integral a → (f.toTree a).Plain
  back : ∀ a depth, f.Made a → (f.toTree a).nesting ≤ depth → f.read depth (f.toTree a) = .ok a
  sound : ∀ t depth a, t.Fits → f.read depth t = .ok a →
    f.Made a ∧ (f.toTree a).nesting ≤ depth

theorem ofText_eq_ok {read : Reader α} {s : String} {a : α} (h : Reader.ofText read s = .ok a) :
    (Tree.read s).2 = true ∧ read deepest (Tree.read s).1 = .ok a := by
  simp only [Reader.ofText] at h
  split at h
  · rename_i b hb
    split at h
    · cases h
      exact ⟨‹_›, hb⟩
    · cases h
  · cases h
  · cases h

theorem Faithful.ofText_toText (h : f.Faithful) {a : α} (hm : f.Made a) (hi : f.Integral a)
    (hd : (f.toTree a).nesting ≤ deepest) : f.ofText (f.toText a) = .ok a := by
  have hp := h.plain a hm hi
  have hb := h.back a deepest hm hd
  simp only [ofText, Reader.ofText, toText, Tree.read_toText hp, hb]
  rfl

theorem Faithful.roundTrips (h : f.Faithful) : f.RoundTrips := by
  refine ⟨fun a hm hi hd => h.ofText_toText hm hi hd, fun s a hs hi => ?_⟩
  obtain ⟨hm, hd⟩ := h.sound _ _ a (Tree.read_fits s) (ofText_eq_ok hs).2
  exact ⟨hm, h.valid a hm, h.ofText_toText hm hi hd⟩

/-- Lists of values of one kind. -/
def list (f : Format α) : Format (List α) where
  toTree as := .list (as.map f.toTree) true
  read := Reader.list f.read
  Made as := ∀ a ∈ as, f.Made a
  Valid as := ∀ a ∈ as, f.Valid a
  payloads as := as.flatMap f.payloads

theorem items_back {read : Reader α} {tree : α → Tree} {depth : Nat} {as : List α}
    (h : ∀ a ∈ as, read depth (tree a) = .ok a) :
    Reader.items read depth true (as.map tree) = .ok as := by
  induction as with
  | nil => rfl
  | cons a as ih =>
    obtain ⟨ha, has⟩ := List.forall_mem_cons.mp h
    rw [List.map_cons, Reader.items, ha, ih has]
    rfl

theorem items_read {read : Reader α} {depth : Nat} {closed : Bool} {ts : List Tree} {as : List α}
    (h : Reader.items read depth closed ts = .ok as) :
    ∀ a ∈ as, ∃ t ∈ ts, read depth t = .ok a := by
  induction ts generalizing as with
  | nil =>
    rw [Reader.items] at h
    split at h <;> cases h
    nofun
  | cons t ts ih =>
    obtain ⟨a, ha, h⟩ := bind_eq_ok.mp h
    obtain ⟨as, has, h⟩ := bind_eq_ok.mp h
    cases h
    refine List.forall_mem_cons.mpr ⟨⟨t, List.mem_cons_self, ha⟩, fun b hb => ?_⟩
    obtain ⟨u, hu, hr⟩ := ih has b hb
    exact ⟨u, List.mem_cons_of_mem _ hu, hr⟩

theorem Faithful.list (h : f.Faithful) : f.list.Faithful where
  valid as hm a ha := h.valid a (hm a ha)
  plain as hm hi := by
    refine ⟨rfl, Tree.arePlain_iff.mpr (List.forall_mem_map.mpr fun a ha => ?_)⟩
    exact h.plain a (hm a ha) fun p hp => hi p (List.mem_flatMap.mpr ⟨a, ha, hp⟩)
  back as depth hm hd := by
    simp only [Format.list, Tree.nesting] at hd
    obtain ⟨n, rfl⟩ : ∃ n, depth = n + 1 := ⟨depth - 1, by omega⟩
    have hn := List.forall_mem_map.mp (Tree.nestingOfItems_le.mp (Nat.le_of_succ_le_succ hd))
    exact items_back fun a ha => h.back a n (hm a ha) (hn a ha)
  sound t depth as ht hr := by
    simp only [Format.list, Reader.list] at hr
    split at hr
    · cases hr
    · have hs : ∀ a ∈ as, f.Made a ∧ (f.toTree a).nesting ≤ _ := fun a ha => by
        obtain ⟨u, hu, hru⟩ := items_read hr a ha
        exact h.sound u _ a (Tree.areFit_iff.mp ht u hu) hru
      refine ⟨fun a ha => (hs a ha).1, Nat.succ_le_succ (Tree.nestingOfItems_le.mpr ?_)⟩
      exact List.forall_mem_map.mpr fun a ha => (hs a ha).2
    · cases hr

end Format

namespace Reader

variable {α β : Type} {read : Reader α} {depth : Nat} {t : Tree} {a : α}

theorem checked_eq_ok {check : α → Except Fault β} {b : β} :
    checked read check depth t = .ok b ↔ ∃ a, read depth t = .ok a ∧ check a = .ok b := by
  rw [checked, bind_eq_ok]
  refine exists_congr fun a => and_congr_right fun _ => ?_
  cases check a <;> simp

theorem option_back (hn : t ≠ .null) (h : read depth t = .ok a) :
    option read depth t = .ok (some a) := by
  rw [option]
  · rw [h]
    rfl
  · exact hn

theorem option_eq_some (h : option read depth t = .ok (some a)) : read depth t = .ok a := by
  simp only [option] at h
  split at h
  · cases h
  · obtain ⟨b, hb, he⟩ := map_eq_ok.mp h
    cases he
    exact hb

end Reader

theorem Format.Faithful.option {α : Type} {f : Format α} (h : f.Faithful) {t : Tree} {n : Nat}
    {o : Option α} (ht : t.Fits) (ho : Reader.option f.read n t = .ok o) :
    ∀ a ∈ o, f.Made a ∧ (f.toTree a).nesting ≤ n := by
  rintro a rfl
  exact h.sound t n a ht (Reader.option_eq_some ho)

/-! Records, which are read field by field. -/

theorem Tree.exists_depth {members : List (Option String × Tree)} {closed : Bool} {depth : Nat}
    (h : (Tree.record members closed).nesting ≤ depth) :
    ∃ n, depth = n + 1 ∧ ∀ m ∈ members, m.2.nesting ≤ n := by
  simp only [nesting] at h
  obtain ⟨n, rfl⟩ : ∃ n, depth = n + 1 := ⟨depth - 1, by omega⟩
  exact ⟨n, rfl, nestingOfMembers_le.mp (Nat.le_of_succ_le_succ h)⟩

theorem Tree.nesting_record_le {members : List (Option String × Tree)} {closed : Bool} {n : Nat}
    (h : ∀ m ∈ members, m.2.nesting ≤ n) : (Tree.record members closed).nesting ≤ n + 1 :=
  Nat.succ_le_succ (nestingOfMembers_le.mpr h)

namespace Shape

variable {σ : Type} {shape : Shape σ} {f : Field σ} {depth : Nat} {closed : Bool} {key : String}
  {t : Tree} {rest : List (Option String × Tree)} {draft draft' : σ}

/-- The next member is a field that is not set yet. -/
theorem byName_field (draft' : σ) (hf : shape.fields.find? (·.name == key) = some f)
    (hu : f.isSet draft = false) (hr : f.read depth t draft = .ok draft') :
    shape.byName depth closed ((some key, t) :: rest) draft =
      shape.byName depth closed rest draft' := by
  simp [byName, hf, hu, hr, Except.bind]

theorem byName_end (h : shape.fields.find? (fun f => f.required && !f.isSet draft) = none) :
    shape.byName depth true [] draft = .ok draft := by
  simp [byName, h]

/-- What a field keeps while it is read. -/
def Field.Keeps (f : Field σ) (P : Nat → σ → Prop) : Prop :=
  ∀ n t draft draft', t.Fits → P n draft → f.read n t draft = .ok draft' → P n draft'

/-- Fields are read apart from the draft and then set in it. -/
theorem Field.Keeps.of_map {α : Type} {P : Nat → σ → Prop} {name : String} {required : Bool}
    {isSet : σ → Bool} {reader : Reader α} {set : σ → α → σ}
    (h : ∀ n t draft a, t.Fits → reader n t = .ok a → P n draft → P n (set draft a)) :
    Field.Keeps ⟨name, required, isSet, fun n t d => (reader n t).map (set d)⟩ P := by
  intro n t draft draft' ht hp hr
  obtain ⟨a, ha, rfl⟩ := map_eq_ok.mp hr
  exact h n t draft a ht ha hp

def Keeps (shape : Shape σ) (P : Nat → σ → Prop) : Prop := ∀ f ∈ shape.fields, f.Keeps P

theorem Keeps.byName {P : Nat → σ → Prop} (hk : shape.Keeps P)
    {members : List (Option String × Tree)} (hm : Tree.MembersFit members) (hp : P depth draft)
    (h : shape.byName depth closed members draft = .ok draft') : P depth draft' := by
  induction members generalizing draft with
  | nil =>
    simp only [Shape.byName] at h
    split at h
    · split at h <;> cases h
      exact hp
    · cases h
  | cons m rest ih =>
    obtain ⟨key, t⟩ := m
    cases key with
    | none => cases h
    | some key =>
      simp only [Shape.byName] at h
      split at h
      · split at h
        · exact ih hm.2 hp h
        · cases h
      · rename_i f hf
        split at h
        · cases h
        · obtain ⟨next, hr, h⟩ := bind_eq_ok.mp h
          exact ih hm.2 (hk f (List.mem_of_find?_eq_some hf) _ _ _ _ hm.1 hp hr) h

theorem Keeps.byOrder {P : Nat → σ → Prop} (hk : shape.Keeps P) {length : Nat}
    {fields : List (Field σ)} (hf : ∀ f ∈ fields, f ∈ shape.fields) {items : List Tree}
    (hi : Tree.AreFit items) (hp : P depth draft)
    (h : shape.byOrder depth closed length fields items draft = .ok draft') : P depth draft' := by
  induction fields generalizing items draft with
  | nil =>
    cases items with
    | nil =>
      simp only [Shape.byOrder] at h
      split at h <;> cases h
      exact hp
    | cons => cases h
  | cons f fields ih =>
    obtain ⟨hfirst, hrest⟩ := List.forall_mem_cons.mp hf
    cases items with
    | nil =>
      simp only [Shape.byOrder] at h
      split at h
      · cases h
      · split at h
        · cases h
        · exact ih hrest hi hp h
    | cons t items =>
      obtain ⟨next, hr, h⟩ := bind_eq_ok.mp h
      exact ih hrest hi.2 (hk f hfirst _ _ _ _ hi.1 hp hr) h

/-- A record that is read opens one level, and what its fields keep holds of it. -/
theorem Keeps.read {P : Nat → σ → Prop} (hk : shape.Keeps P) (h0 : ∀ n, P n shape.empty)
    (ht : t.Fits) (h : shape.read depth t = .ok draft) : ∃ n, depth = n + 1 ∧ P n draft := by
  simp only [Shape.read] at h
  split at h
  · cases h
  · cases h
  · exact ⟨_, rfl, hk.byName ht (h0 _) h⟩
  · exact ⟨_, rfl, hk.byOrder (fun _ => id) ht (h0 _) h⟩
  · cases h

end Shape

end MediaLink.Json
