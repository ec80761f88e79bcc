import MediaLink.Text.Quoted

/-! What is read from quoted text is what was quoted. -/
namespace MediaLink.Text

theorem unit?_control : ∀ n < 32,
    unit? '0' '0' (hexDigit (n / 16)) (hexDigit (n % 16)) = some n := by decide

theorem pieces?_lettered {e c : Char} (he : e ≠ 'u') (hc : unescape? e = some c)
    (rest : List Char) : pieces? ('\\' :: e :: rest) =
      (pieces? rest).map fun (ps, tail) => (.char c :: ps, tail) := by
  rw [pieces?, hc]
  · cases pieces? rest <;> rfl
  · exact fun _ _ _ _ _ hu _ => he hu

theorem pieces?_plain {c : Char} (hq : c ≠ '"') (hb : c ≠ '\\') (hc : ¬ c.toNat < 32)
    (rest : List Char) : pieces? (c :: rest) =
      (pieces? rest).map fun (ps, tail) => (.char c :: ps, tail) := by
  rw [pieces?]
  · exact if_neg (not_or.mpr ⟨hc, hb⟩)
  · exact hq
  · exact fun _ _ _ _ _ h _ => hb h
  · exact fun _ _ h _ => hb h

/-- A character is read back as itself, or as the number of a control. -/
theorem pieces?_encodeChar (c : Char) : ∃ p,
    (p = .char c ∨ p = .unit c.toNat ∧ c.toNat < 32) ∧
      ∀ rest, pieces? (encodeChar c ++ rest) =
        (pieces? rest).map fun (ps, tail) => (p :: ps, tail) := by
  simp only [encodeChar]
  split
  case h_8 hq hb _ _ _ _ _ =>
    split
    · rename_i h
      refine ⟨.unit c.toNat, .inr ⟨rfl, h⟩, fun rest => ?_⟩
      simp only [List.cons_append, List.nil_append, pieces?, unit?_control _ h]
      cases pieces? rest <;> rfl
    · rename_i h
      exact ⟨.char c, .inl rfl, pieces?_plain hq hb h⟩
  all_goals exact ⟨.char _, .inl rfl, pieces?_lettered (by decide) rfl⟩

theorem spell?_char (c : Char) (ps : List Piece) :
    spell? (.char c :: ps) = (spell? ps).map (c :: ·) := rfl

/-- A control is no half of a pair, so it stands for itself whatever follows. -/
theorem spell?_control {c : Char} (h : c.toNat < 32) (ps : List Piece) :
    spell? (.unit c.toNat :: ps) = (spell? ps).map (c :: ·) := by
  have hh : isHigh c.toNat = false := by simp [isHigh]; omega
  have hl : isLow c.toNat = false := by simp [isLow]; omega
  cases ps with
  | nil => simp [spell?, hh, hl]
  | cons p ps => cases p <;> simp [spell?, hh, hl]

/-- What stands between quotes is read back, and what follows is left. -/
theorem pieces?_encoded (cs rest : List Char) : ∃ ps,
    pieces? (cs.flatMap encodeChar ++ '"' :: rest) = some (ps, rest) ∧ spell? ps = some cs := by
  induction cs with
  | nil => exact ⟨[], rfl, rfl⟩
  | cons c cs ih =>
    obtain ⟨ps, hps, hs⟩ := ih
    obtain ⟨p, hp, hc⟩ := pieces?_encodeChar c
    refine ⟨p :: ps, by simp [List.flatMap_cons, hc, hps], ?_⟩
    rcases hp with rfl | ⟨rfl, hlt⟩
    · rw [spell?_char, hs, Option.map_some]
    · rw [spell?_control hlt, hs, Option.map_some]

end MediaLink.Text
