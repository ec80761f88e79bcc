import MediaLink.Json.Tree
import MediaLink.Proofs.Json.Integers

/-! Integers that are read from a text fit 64 bits, wherever they stand. -/
namespace MediaLink.Json

namespace Tree

mutual

/-- Integers that stand in a tree fit. -/
def Fits : Tree → Prop
  | .number (some n) => n.Fits
  | .list items _ => AreFit items
  | .record members _ => MembersFit members
  | _ => True

def AreFit : List Tree → Prop
  | [] => True
  | t :: ts => t.Fits ∧ AreFit ts

def MembersFit : List (Option String × Tree) → Prop
  | [] => True
  | (_, t) :: ms => t.Fits ∧ MembersFit ms

end

theorem areFit_iff {ts : List Tree} : AreFit ts ↔ ∀ t ∈ ts, t.Fits := by
  induction ts with
  | nil => simp [AreFit]
  | cons t ts ih => simp [AreFit, ih]

theorem membersFit_iff {ms : List (Option String × Tree)} :
    MembersFit ms ↔ ∀ m ∈ ms, m.2.Fits := by
  induction ms with
  | nil => simp [MembersFit]
  | cons m ms ih => simp [MembersFit, ih]

theorem forall_member_cons {k : Option String} {t : Tree} {ms : List (Option String × Tree)}
    (ht : t.Fits) (h : ∀ m ∈ ms, m.2.Fits) : ∀ m ∈ (k, t) :: ms, m.2.Fits :=
  List.forall_mem_cons.mpr ⟨ht, h⟩

/-- Frames keep what they hold last first. -/
theorem fits_list {ts : List Tree} (h : ∀ t ∈ ts, t.Fits) (closed : Bool) :
    (Tree.list ts.reverse closed).Fits :=
  areFit_iff.mpr fun t ht => h t (List.mem_reverse.mp ht)

theorem fits_record {ms : List (Option String × Tree)} (h : ∀ m ∈ ms, m.2.Fits) (closed : Bool) :
    (Tree.record ms.reverse closed).Fits :=
  membersFit_iff.mpr fun m hm => h m (List.mem_reverse.mp hm)

end Tree

def Lexeme.Fits : Lexeme → Prop
  | .number (some n) => n.Fits
  | _ => True

theorem lexeme?_fits {cs rest : List Char} {l : Lexeme} (h : lexeme? cs = some (l, rest)) :
    l.Fits := by
  unfold lexeme? at h
  split at h
  case h_10 =>
    obtain ⟨⟨ps, r⟩, -, he⟩ := Option.map_eq_some_iff.mp h
    cases he
    trivial
  case h_11 =>
    obtain ⟨⟨literal, r⟩, -, he⟩ := Option.map_eq_some_iff.mp h
    cases he
    cases hv : literal.value? with
    | none => trivial
    | some n => exact Literal.value?_fits hv
  all_goals
    cases h
    trivial

theorem lexemes_fit (cs : List Char) : ∀ l ∈ (lexemes cs).1, l.Fits := by
  fun_induction lexemes cs with
  | case1 => simp
  | case2 _ _ _ ih => exact ih
  | case3 => simp
  | case4 c rest hb l tail h ih => exact List.forall_mem_cons.mpr ⟨lexeme?_fits h, ih⟩

def Frame.Fits : Frame → Prop
  | .list items => ∀ t ∈ items, t.Fits
  | .record members _ => ∀ m ∈ members, m.2.Fits

def Place.Fits : Place → Prop
  | .value | .firstItem => True
  | .firstKey members | .key members | .colon members _ => ∀ m ∈ members, m.2.Fits
  | .after t => t.Fits

namespace Cursor

/-- The integers around a place, and those read before it, fit. -/
structure Fits (c : Cursor) : Prop where
  frames : ∀ f ∈ c.frames, f.Fits
  place : c.place.Fits

variable {c d : Cursor} {l : Lexeme} {frames : List Frame} {t : Tree}

theorem enter?_fits (hf : ∀ f ∈ frames, f.Fits) (hl : l.Fits) (h : enter? frames l = some d) :
    d.Fits := by
  cases l with
  | openList =>
    cases h
    exact ⟨List.forall_mem_cons.mpr ⟨nofun, hf⟩, trivial⟩
  | openRecord =>
    cases h
    exact ⟨hf, nofun⟩
  | number n =>
    cases h
    cases n with
    | none => exact ⟨hf, trivial⟩
    | some n => exact ⟨hf, hl⟩
  | null | bool | text =>
    cases h
    exact ⟨hf, trivial⟩
  | closeList | closeRecord | colon | comma => cases h

theorem next?_fits (hc : c.Fits) (hl : l.Fits) (h : c.next? l = some d) : d.Fits := by
  obtain ⟨frames, place⟩ := c
  obtain ⟨hf, hp⟩ := hc
  simp only [next?] at h
  split at h
  · exact enter?_fits hf hl h
  · cases h
    exact ⟨(List.forall_mem_cons.mp hf).2, trivial⟩
  · exact enter?_fits hf hl h
  · cases h
    exact ⟨hf, trivial⟩
  · cases h
    exact ⟨hf, hp⟩
  · cases h
    exact ⟨hf, hp⟩
  · cases h
    exact ⟨List.forall_mem_cons.mpr ⟨hp, hf⟩, trivial⟩
  · cases h
    obtain ⟨hfirst, hrest⟩ := List.forall_mem_cons.mp hf
    exact ⟨List.forall_mem_cons.mpr ⟨List.forall_mem_cons.mpr ⟨hp, hfirst⟩, hrest⟩, trivial⟩
  · cases h
    obtain ⟨hfirst, hrest⟩ := List.forall_mem_cons.mp hf
    exact ⟨hrest, Tree.forall_member_cons hp hfirst⟩
  · cases h
    obtain ⟨hfirst, hrest⟩ := List.forall_mem_cons.mp hf
    exact ⟨hrest, Tree.fits_list (List.forall_mem_cons.mpr ⟨hp, hfirst⟩) true⟩
  · cases h
    obtain ⟨hfirst, hrest⟩ := List.forall_mem_cons.mp hf
    exact ⟨hrest, Tree.fits_record (Tree.forall_member_cons hp hfirst) true⟩
  · cases h

theorem run_fits (hc : c.Fits) {ls : List Lexeme} (hl : ∀ l ∈ ls, l.Fits) :
    (c.run ls).1.Fits := by
  induction ls generalizing c with
  | nil => exact hc
  | cons l ls ih =>
    obtain ⟨hfirst, hrest⟩ := List.forall_mem_cons.mp hl
    rw [run]
    split
    · exact ih (next?_fits hc hfirst ‹_›) hrest
    · exact hc

theorem wrap_fits (ht : t.Fits) (hf : ∀ f ∈ frames, f.Fits) : (wrap t frames).Fits := by
  induction frames generalizing t with
  | nil => exact ht
  | cons f frames ih =>
    obtain ⟨hfirst, hrest⟩ := List.forall_mem_cons.mp hf
    cases f with
    | list items => exact ih (Tree.fits_list (List.forall_mem_cons.mpr ⟨ht, hfirst⟩) false) hrest
    | record members key =>
      exact ih (Tree.fits_record (Tree.forall_member_cons ht hfirst) false) hrest

theorem tree_fits (hc : c.Fits) : c.tree.Fits := by
  obtain ⟨frames, place⟩ := c
  obtain ⟨hf, hp⟩ := hc
  simp only [tree]
  split
  · obtain ⟨hfirst, hrest⟩ := List.forall_mem_cons.mp hf
    exact wrap_fits (Tree.fits_list hfirst false) hrest
  · exact wrap_fits trivial hf
  · exact wrap_fits trivial (List.forall_mem_cons.mp hf).2
  · trivial
  · exact wrap_fits trivial hf
  · exact wrap_fits (Tree.fits_record hp false) hf
  · exact wrap_fits (Tree.fits_record (Tree.forall_member_cons (t := .broken) trivial hp) false) hf
  · exact wrap_fits hp hf

end Cursor

/-- The integers of a tree that is read from a text fit. -/
theorem Tree.read_fits (s : String) : (Tree.read s).1.Fits :=
  Cursor.tree_fits (Cursor.run_fits (c := .start) ⟨nofun, trivial⟩ (lexemes_fit s.toList))

end MediaLink.Json
