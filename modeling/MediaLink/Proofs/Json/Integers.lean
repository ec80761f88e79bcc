import MediaLink.Json.Lexeme
import MediaLink.Proofs.Payload.Writes

/-! Integers of 64 bits on the wire. -/
namespace MediaLink

namespace Literal

theorem le_ofDigits (s : Nat) (ds : List Nat) : s ≤ ds.foldl (fun n d => n * 10 + d) s := by
  induction ds generalizing s with
  | nil => exact Nat.le_refl s
  | cons d ds ih => exact Nat.le_trans (by omega) (ih (s * 10 + d))

/-- Digits of a number that fits are all taken in. -/
theorem absorb_eq (s : Nat) (ds : List Nat)
    (h : ds.foldl (fun n d => n * 10 + d) s ≤ greatest) :
    absorb s ds = (ds.foldl (fun n d => n * 10 + d) s, []) := by
  induction ds generalizing s with
  | nil => rfl
  | cons d ds ih =>
    have hd : s * 10 + d ≤ greatest := Nat.le_trans (le_ofDigits _ ds) h
    rw [absorb, if_pos hd, ih _ h]
    rfl

theorem absorb_le {s : Nat} (h : s ≤ greatest) (ds : List Nat) : (absorb s ds).1 ≤ greatest := by
  induction ds generalizing s with
  | nil => exact h
  | cons d ds ih =>
    rw [absorb]
    split
    · exact ih ‹_›
    · exact h

/-- A literal of digits alone is a whole number as long as it fits. -/
theorem value?_digits (negative : Bool) {ds : List Nat} (h : ofDigits ds ≤ greatest) :
    value? ⟨negative, ds, none, none⟩ = whole? negative (ofDigits ds) := by
  have ha : absorb 0 ds = (ofDigits ds, []) := absorb_eq 0 ds h
  simp [value?, ha]

theorem scaled?_fits {negative : Bool} {significand : Nat} {exponent : Int} {n : Number}
    (h : scaled? negative significand exponent = some n) : n.Fits := by
  obtain ⟨x, -, rfl⟩ := Option.map_eq_some_iff.mp h
  trivial

theorem whole?_fits {negative : Bool} {m : Nat} {n : Number} (hm : m ≤ greatest)
    (h : whole? negative m = some n) : n.Fits := by
  have hg : greatest = Nat.pow 2 64 - 1 := rfl
  simp only [whole?] at h
  split at h
  · cases h
    simp only [Number.Fits, Nat.pow_eq] at hg ⊢
    omega
  · split at h
    · cases h
      simp only [Number.Fits, Nat.pow_eq] at *
      omega
    · obtain ⟨x, -, rfl⟩ := Option.map_eq_some_iff.mp h
      trivial

/-- An integer that is read from a literal fits. -/
theorem value?_fits {l : Literal} {n : Number} (h : l.value? = some n) : n.Fits := by
  have hw : (absorb 0 l.whole).1 ≤ greatest := absorb_le (Nat.zero_le _) l.whole
  simp only [value?] at h
  split at h
  · split at h
    · exact whole?_fits hw h
    · exact scaled?_fits h
  · split at h
    · exact scaled?_fits h
    · split at h
      · exact scaled?_fits h
      · split at h
        · cases h
          trivial
        · cases h

end Literal

namespace Json

/-- Nothing follows that could go on with a number. -/
def Ends (rest : List Char) : Prop :=
  ∀ c, rest.head? = some c → digit? c = none ∧ c ≠ '.' ∧ c ≠ 'e' ∧ c ≠ 'E'

variable {rest : List Char}

theorem digit?_eq {c : Char} (h : c.isDigit) : digit? c = some (c.toNat - '0'.toNat) := by
  simp only [Char.isDigit, Bool.and_eq_true, decide_eq_true_eq] at h
  exact if_pos h

theorem digits_append {cs : List Char} (hcs : ∀ c ∈ cs, c.isDigit) (h : Ends rest) :
    digits (cs ++ rest) = (cs.map fun c => c.toNat - '0'.toNat, rest) := by
  induction cs with
  | nil =>
    cases rest with
    | nil => rfl
    | cons c rest => simp [digits, (h c rfl).1]
  | cons c cs ih =>
    obtain ⟨hc, hcs⟩ := List.forall_mem_cons.mp hcs
    simp [digits, digit?_eq hc, ih hcs]

theorem ofDigits_map (cs : List Char) : Literal.ofDigits (cs.map fun c => c.toNat - '0'.toNat) =
    Nat.ofDigitChars 10 cs 0 := by
  simp only [Literal.ofDigits, Nat.ofDigitChars_eq_foldl, List.foldl_map, Nat.mul_comm]

/-- Only zero is written with a zero in front. -/
theorem head_toDigits {n : Nat} (h : 0 < n) : (Nat.toDigits 10 n).head? ≠ some '0' := by
  induction n using Nat.strongRecOn with
  | ind n ih =>
    rw [Nat.toDigits_eq_if (by decide)]
    split
    · rename_i hn
      have hd : ∀ m < 10, 0 < m → m.digitChar ≠ '0' := by decide
      simpa using hd n hn h
    · have hq := ih (n / 10) (by omega) (by omega)
      rw [List.head?_append]
      cases hc : (Nat.toDigits 10 (n / 10)).head? with
      | none => exact absurd (List.head?_eq_none_iff.mp hc) Nat.toDigits_ne_nil
      | some c => rwa [Option.some_or, ← hc]

/-- The digits of a number are read back, and what follows them is left. -/
theorem digits_toDigits (n : Nat) (h : Ends rest) : ∃ ds,
    digits (Nat.toDigits 10 n ++ rest) = (ds, rest) ∧ Literal.ofDigits ds = n ∧
      ¬ (ds = [] ∨ ds.head? = some 0 ∧ ds ≠ [0]) := by
  have hd : ∀ c ∈ Nat.toDigits 10 n, c.isDigit := fun c hc =>
    Nat.isDigit_of_mem_toDigits (by decide) (by decide) hc
  refine ⟨_, digits_append hd h, ?_, ?_⟩
  · rw [ofDigits_map, Nat.ofDigitChars_ten_toDigits]
  · rintro (hn | ⟨hz, hne⟩)
    · exact Nat.toDigits_ne_nil (List.map_eq_nil_iff.mp hn)
    · rw [List.head?_map] at hz
      obtain ⟨c, hc, hz⟩ := Option.map_eq_some_iff.mp hz
      have hge := (Char.isDigit_iff_toNat.mp (hd c (List.mem_of_head? hc))).1
      obtain rfl : c = '0' := Char.toNat_inj.mp (by omega)
      rcases Nat.eq_zero_or_pos n with rfl | hn
      · exact hne rfl
      · exact head_toDigits hn hc

theorem unsigned?_toDigits (negative : Bool) (n : Nat) (h : Ends rest) : ∃ ds,
    unsigned? negative (Nat.toDigits 10 n ++ rest) = some (⟨negative, ds, none, none⟩, rest) ∧
      Literal.ofDigits ds = n := by
  obtain ⟨ds, hds, hn, hw⟩ := digits_toDigits n h
  have hf : fraction? rest = some (none, rest) := by
    rw [fraction?]
    rintro tail rfl
    exact (h '.' rfl).2.1 rfl
  have he : exponent? rest = some (none, rest) := by
    cases rest with
    | nil => rfl
    | cons c tail =>
      obtain ⟨-, -, hl, hu⟩ := h c rfl
      rw [exponent?, if_neg (not_or.mpr ⟨hl, hu⟩)]
  refine ⟨ds, ?_, hn⟩
  simp [unsigned?, hds, hw, hf, he]

/-- What starts with a digit or a minus sign can only be a number. -/
theorem lexeme?_number {c : Char} (h : c = '-' ∨ c.isDigit) (cs : List Char) :
    lexeme? (c :: cs) = (number? (c :: cs)).map fun (l, rest) => (.number l.value?, rest) := by
  rw [lexeme?]
  all_goals
    rintro tail ht
    cases ht
    revert h
    decide

theorem number?_toDigits (n : Nat) (rest : List Char) :
    ∃ c cs, Nat.toDigits 10 n ++ rest = c :: cs ∧ c.isDigit ∧
      number? (c :: cs) = unsigned? false (c :: cs) := by
  obtain ⟨c, cs, hc⟩ := List.exists_cons_of_ne_nil (Nat.toDigits_ne_nil (n := n) (b := 10))
  have hd : c.isDigit := Nat.isDigit_of_mem_toDigits (by decide) (by decide)
    (hc ▸ List.mem_cons_self : c ∈ Nat.toDigits 10 n)
  refine ⟨c, cs ++ rest, by rw [hc, List.cons_append], hd, ?_⟩
  rw [number?]
  rintro tail ht
  cases ht
  revert hd
  decide

/-- An integer that fits is read back, and what follows it is left. -/
theorem lexeme?_integer {n : Int} (hn : (Number.integer n).Fits) (h : Ends rest) :
    lexeme? ((Number.integer n).text.toList ++ rest) =
      some (.number (some (.integer n)), rest) := by
  have hg : Literal.greatest = Nat.pow 2 64 - 1 := rfl
  obtain ⟨hl, hu⟩ := hn
  simp only [Nat.pow_eq] at hg hl hu
  have ht : (Number.integer n).text = n.repr := rfl
  rw [ht, Int.repr_eq_if]
  by_cases h0 : 0 ≤ n
  · obtain ⟨ds, hds, hv⟩ := unsigned?_toDigits false n.toNat h
    have hval : Literal.value? ⟨false, ds, none, none⟩ = some (.integer n) := by
      rw [Literal.value?_digits false (by omega), Literal.whole?, if_pos rfl, hv,
        Int.toNat_of_nonneg h0]
    obtain ⟨c, cs, hc, hd, hm⟩ := number?_toDigits n.toNat rest
    rw [hc] at hds
    rw [if_pos h0, Nat.toList_repr, hc, lexeme?_number (.inr hd), hm, hds]
    simp only [Option.map_some, hval]
  · obtain ⟨ds, hds, hv⟩ := unsigned?_toDigits true (-n).toNat h
    have hval : Literal.value? ⟨true, ds, none, none⟩ = some (.integer n) := by
      have hi : -(((-n).toNat : Nat) : Int) = n := by omega
      rw [Literal.value?_digits true (by omega), Literal.whole?, if_neg (by decide),
        if_pos (by rw [Nat.pow_eq]; omega), hv, hi]
    have hs : ("-" ++ (-n).toNat.repr).toList ++ rest =
        '-' :: (Nat.toDigits 10 (-n).toNat ++ rest) := by simp
    rw [if_neg h0, hs, lexeme?_number (.inl rfl), number?, hds]
    simp only [Option.map_some, hval]

end Json
end MediaLink
