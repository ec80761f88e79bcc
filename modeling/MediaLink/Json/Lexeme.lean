import MediaLink.Number.Literal
import MediaLink.Text.Quoted

/-! The lexemes of a JSON text, read up to the first place where there is none. -/
namespace MediaLink.Json

/-- A number out of range and a text with half a surrogate pair are still lexemes, so that they can
be skipped; they carry no value. -/
inductive Lexeme where
  | null
  | bool (b : Bool)
  | number (n : Option Number)
  | text (s : Option String)
  | openList
  | closeList
  | openRecord
  | closeRecord
  | colon
  | comma
  deriving Repr

def isBlank (c : Char) : Bool := c == ' ' || c == '\n' || c == '\t' || c == '\r'

def digit? (c : Char) : Option Nat :=
  if '0' ≤ c ∧ c ≤ '9' then some (c.toNat - '0'.toNat) else none

/-- The digits in front, and what follows them. -/
def digits : List Char → List Nat × List Char
  | [] => ([], [])
  | c :: rest =>
    match digit? c with
    | some d => (d :: (digits rest).1, (digits rest).2)
    | none => ([], c :: rest)

/-- The digits after a point; none if the point stands alone. -/
def fraction? : List Char → Option (Option (List Nat) × List Char)
  | '.' :: rest =>
    match digits rest with
    | ([], _) => none
    | (ds, rest) => some (some ds, rest)
  | cs => some (none, cs)

/-- The sign in front of an exponent, true for minus, and what follows it. -/
def sign : List Char → Bool × List Char
  | '-' :: rest => (true, rest)
  | '+' :: rest => (false, rest)
  | cs => (false, cs)

/-- The exponent with its sign; none if its digits are missing. -/
def exponent? : List Char → Option (Option (Bool × List Nat) × List Char)
  | [] => some (none, [])
  | c :: rest =>
    if c = 'e' ∨ c = 'E' then
      match digits (sign rest).2 with
      | ([], _) => none
      | (ds, tail) => some (some ((sign rest).1, ds), tail)
    else some (none, c :: rest)

/-- A number after its sign. The whole part has no zero in front of other digits. -/
def unsigned? (negative : Bool) (cs : List Char) : Option (Literal × List Char) :=
  let whole := (digits cs).1
  if whole = [] ∨ (whole.head? = some 0 ∧ whole ≠ [0]) then none
  else do
    let (fraction, rest) ← fraction? (digits cs).2
    let (exponent, rest) ← exponent? rest
    some (⟨negative, whole, fraction, exponent⟩, rest)

def number? : List Char → Option (Literal × List Char)
  | '-' :: rest => unsigned? true rest
  | cs => unsigned? false cs

/-- The lexeme in front of a text without leading blanks, and what follows it. -/
def lexeme? : List Char → Option (Lexeme × List Char)
  | 'n' :: 'u' :: 'l' :: 'l' :: rest => some (.null, rest)
  | 't' :: 'r' :: 'u' :: 'e' :: rest => some (.bool true, rest)
  | 'f' :: 'a' :: 'l' :: 's' :: 'e' :: rest => some (.bool false, rest)
  | '[' :: rest => some (.openList, rest)
  | ']' :: rest => some (.closeList, rest)
  | '\x7b' :: rest => some (.openRecord, rest)
  | '\x7d' :: rest => some (.closeRecord, rest)
  | ':' :: rest => some (.colon, rest)
  | ',' :: rest => some (.comma, rest)
  | '"' :: rest =>
    (Text.pieces? rest).map fun (ps, rest) => (.text ((Text.spell? ps).map String.ofList), rest)
  | cs => (number? cs).map fun (l, rest) => (.number l.value?, rest)

theorem length_digits (cs : List Char) : (digits cs).2.length ≤ cs.length := by
  induction cs with
  | nil => simp [digits]
  | cons c rest ih =>
    unfold digits
    split
    · simp
      omega
    · simp

theorem length_digits_lt {cs : List Char} (h : (digits cs).1 ≠ []) :
    (digits cs).2.length < cs.length := by
  cases cs with
  | nil => simp [digits] at h
  | cons c rest =>
    have := length_digits rest
    unfold digits at h ⊢
    split at h
    · simp; omega
    · simp at h

theorem length_fraction {cs rest : List Char} {f : Option (List Nat)}
    (h : fraction? cs = some (f, rest)) : rest.length ≤ cs.length := by
  unfold fraction? at h
  split at h
  · rename_i tail
    have := length_digits tail
    split at h <;> simp_all
    omega
  · simp_all

theorem length_sign (cs : List Char) : (sign cs).2.length ≤ cs.length := by
  unfold sign
  split <;> simp

theorem length_exponent {cs rest : List Char} {e : Option (Bool × List Nat)}
    (h : exponent? cs = some (e, rest)) : rest.length ≤ cs.length := by
  unfold exponent? at h
  split at h
  · simp_all
  · rename_i c tail
    have h1 := length_digits (sign tail).2
    have h2 := length_sign tail
    split at h
    · split at h <;> simp_all
      omega
    · simp_all

theorem length_unsigned {b : Bool} {cs rest : List Char} {l : Literal}
    (h : unsigned? b cs = some (l, rest)) : rest.length < cs.length := by
  unfold unsigned? at h
  simp only at h
  split at h
  · simp at h
  · rename_i hw
    simp only [Option.bind_eq_bind, Option.bind_eq_some_iff] at h
    obtain ⟨⟨f, r1⟩, hf, ⟨e, r2⟩, he, h⟩ := h
    have h0 := length_digits_lt (fun hn => hw (Or.inl hn))
    have h1 := length_fraction hf
    have h2 := length_exponent he
    simp_all
    omega

theorem length_number {cs rest : List Char} {l : Literal} (h : number? cs = some (l, rest)) :
    rest.length < cs.length := by
  unfold number? at h
  split at h
  · have := length_unsigned h
    simp
    omega
  · exact length_unsigned h

theorem length_pieces {cs rest : List Char} {ps : List Text.Piece}
    (h : Text.pieces? cs = some (ps, rest)) : rest.length < cs.length := by
  fun_induction Text.pieces? cs generalizing ps rest with
  | case1 => simp at h
  | case2 => simp_all
  | case3 a b c d tail n qs r hp hu ih =>
    have := ih hp
    simp_all
    omega
  | case4 => simp at h
  | case5 e tail hne c qs r hp hu ih =>
    have := ih hp
    simp_all
    omega
  | case6 => simp at h
  | case7 => simp at h
  | case8 c tail _ _ _ _ ih =>
    simp only [Option.map_eq_some_iff] at h
    obtain ⟨⟨qs, r⟩, hp, h⟩ := h
    have := ih hp
    simp_all
    omega

theorem length_lexeme {cs rest : List Char} {t : Lexeme} (h : lexeme? cs = some (t, rest)) :
    rest.length < cs.length := by
  unfold lexeme? at h
  split at h
  case h_10 tail =>
    simp only [Option.map_eq_some_iff] at h
    obtain ⟨⟨ps, r⟩, hp, h⟩ := h
    have := length_pieces hp
    simp_all
    omega
  case h_11 =>
    simp only [Option.map_eq_some_iff] at h
    obtain ⟨⟨l, r⟩, hn, h⟩ := h
    have := length_number hn
    simp_all
  all_goals
    simp only [Option.some.injEq, Prod.mk.injEq] at h
    simp [← h.2]
    try omega

/-- The lexemes in front of the first place that starts none, and whether the text ends there. -/
def lexemes (cs : List Char) : List Lexeme × Bool :=
  match cs with
  | [] => ([], true)
  | c :: rest =>
    if isBlank c then lexemes rest
    else
      match _h : lexeme? (c :: rest) with
      | none => ([], false)
      | some (l, tail) => (l :: (lexemes tail).1, (lexemes tail).2)
  termination_by cs.length
  decreasing_by
    · simp
    · exact length_lexeme _h

end MediaLink.Json
