import MediaLink.Json.Writing
import MediaLink.Proofs.Json.Integers
import MediaLink.Proofs.Json.Quoting

/-! The text of a tree is read back as the tree. -/
namespace MediaLink.Json

namespace Tree

mutual

/-- A tree that is made to be written: nothing is missing, and its numbers are integers that fit. -/
def Plain : Tree → Prop
  | .null | .bool _ => True
  | .number (some (.integer n)) => (Number.integer n).Fits
  | .text (some _) => True
  | .list items closed => closed = true ∧ ArePlain items
  | .record members closed => closed = true ∧ MembersPlain members
  | .number none | .number (some (.float _)) | .text none | .broken => False

def ArePlain : List Tree → Prop
  | [] => True
  | t :: ts => t.Plain ∧ ArePlain ts

def MembersPlain : List (Option String × Tree) → Prop
  | [] => True
  | (k, t) :: ms => k.isSome ∧ t.Plain ∧ MembersPlain ms

end

mutual

/-- The lexemes that a tree is written in. -/
def lexed : Tree → List Lexeme
  | .null => [.null]
  | .bool b => [.bool b]
  | .number n => [.number n]
  | .text s => [.text s]
  | .list items _ => .openList :: lexedItems items ++ [.closeList]
  | .record members _ => .openRecord :: lexedMembers members ++ [.closeRecord]
  | .broken => []

def lexedItems : List Tree → List Lexeme
  | [] => []
  | [t] => t.lexed
  | t :: u :: ts => t.lexed ++ .comma :: lexedItems (u :: ts)

def lexedMembers : List (Option String × Tree) → List Lexeme
  | [] => []
  | [(k, t)] => .text k :: .colon :: t.lexed
  | (k, t) :: m :: ms => .text k :: .colon :: t.lexed ++ .comma :: lexedMembers (m :: ms)

end

theorem arePlain_iff {ts : List Tree} : ArePlain ts ↔ ∀ t ∈ ts, t.Plain := by
  induction ts with
  | nil => simp [ArePlain]
  | cons t ts ih => simp [ArePlain, ih]

theorem membersPlain_iff {ms : List (Option String × Tree)} :
    MembersPlain ms ↔ ∀ m ∈ ms, m.1.isSome ∧ m.2.Plain := by
  induction ms with
  | nil => simp [MembersPlain]
  | cons m ms ih => simp [MembersPlain, ih, and_assoc]

end Tree

variable {rest : List Char} {l : Lexeme}

theorem ends_nil : Ends [] := nofun

theorem ends_cons {c : Char} (h : digit? c = none ∧ c ≠ '.' ∧ c ≠ 'e' ∧ c ≠ 'E')
    (rest : List Char) : Ends (c :: rest) := fun _ hc => Option.some.inj hc ▸ h

theorem lexeme?_blank {c : Char} (h : isBlank c) (cs : List Char) : lexeme? (c :: cs) = none := by
  simp only [isBlank, Bool.or_eq_true, beq_iff_eq] at h
  obtain ((rfl | rfl) | rfl) | rfl := h <;> rfl

/-- The lexemes of a text that starts with one. -/
theorem lexemes_cons {cs : List Char} (h : lexeme? cs = some (l, rest)) :
    lexemes cs = (l :: (lexemes rest).1, (lexemes rest).2) := by
  cases cs with
  | nil => cases h
  | cons c tail =>
    have hb : ¬ isBlank c := fun hb => by
      rw [lexeme?_blank hb] at h
      cases h
    rw [lexemes, if_neg hb]
    split
    · rename_i hn
      cases hn.symm.trans h
    · rename_i hl
      cases hl.symm.trans h
      rfl

theorem lexemes_text (s : String) (rest : List Char) :
    lexemes (Text.encode s ++ rest) =
      (.text (some s) :: (lexemes rest).1, (lexemes rest).2) := by
  obtain ⟨ps, hp, hs⟩ := Text.pieces?_encoded s.toList rest
  apply lexemes_cons
  simp [Text.encode, lexeme?, hp, hs]

mutual

theorem lexemes_write : ∀ (t : Tree) (rest : List Char), t.Plain → Ends rest →
    lexemes (t.write ++ rest) = (t.lexed ++ (lexemes rest).1, (lexemes rest).2)
  | .null, rest, _, _ => lexemes_cons rfl
  | .bool b, rest, _, _ => by cases b <;> exact lexemes_cons rfl
  | .number (some (.integer n)), rest, hn, h => lexemes_cons (lexeme?_integer hn h)
  | .text (some s), rest, _, _ => lexemes_text s rest
  | .list items closed, rest, ht, h => by
    have hopen : lexeme? ('[' :: (Tree.writeItems items ++ ']' :: rest)) =
        some (.openList, Tree.writeItems items ++ ']' :: rest) := rfl
    have hclose : lexeme? (']' :: rest) = some (.closeList, rest) := rfl
    have hitems := lexemes_writeItems items (']' :: rest) ht.2 (ends_cons (by decide) rest)
    simp [Tree.write, Tree.lexed, lexemes_cons hopen, hitems, lexemes_cons hclose]
  | .record members closed, rest, ht, h => by
    have hopen : lexeme? ('\x7b' :: (Tree.writeMembers members ++ '\x7d' :: rest)) =
        some (.openRecord, Tree.writeMembers members ++ '\x7d' :: rest) := rfl
    have hclose : lexeme? ('\x7d' :: rest) = some (.closeRecord, rest) := rfl
    have hmembers :=
      lexemes_writeMembers members ('\x7d' :: rest) ht.2 (ends_cons (by decide) rest)
    simp [Tree.write, Tree.lexed, lexemes_cons hopen, hmembers, lexemes_cons hclose]

theorem lexemes_writeItems : ∀ (ts : List Tree) (rest : List Char), Tree.ArePlain ts → Ends rest →
    lexemes (Tree.writeItems ts ++ rest) =
      (Tree.lexedItems ts ++ (lexemes rest).1, (lexemes rest).2)
  | [], rest, _, _ => by simp [Tree.writeItems, Tree.lexedItems]
  | [t], rest, ht, h => lexemes_write t rest ht.1 h
  | t :: u :: ts, rest, ht, h => by
    have hcomma : lexeme? (',' :: (Tree.writeItems (u :: ts) ++ rest)) =
        some (.comma, Tree.writeItems (u :: ts) ++ rest) := rfl
    have hfirst := lexemes_write t (',' :: (Tree.writeItems (u :: ts) ++ rest)) ht.1
      (ends_cons (by decide) _)
    have hrest := lexemes_writeItems (u :: ts) rest ht.2 h
    simp [Tree.writeItems, Tree.lexedItems, hfirst, lexemes_cons hcomma, hrest]

theorem lexemes_writeMembers : ∀ (ms : List (Option String × Tree)) (rest : List Char),
    Tree.MembersPlain ms → Ends rest →
    lexemes (Tree.writeMembers ms ++ rest) =
      (Tree.lexedMembers ms ++ (lexemes rest).1, (lexemes rest).2)
  | [], rest, _, _ => by simp [Tree.writeMembers, Tree.lexedMembers]
  | [(some k, t)], rest, ht, h => by
    have hcolon : lexeme? (':' :: (t.write ++ rest)) = some (.colon, t.write ++ rest) := rfl
    have hvalue := lexemes_write t rest ht.2.1 h
    simp [Tree.writeMembers, Tree.lexedMembers, lexemes_text, lexemes_cons hcolon, hvalue]
  | (some k, t) :: m :: ms, rest, ht, h => by
    have hcolon : lexeme? (':' :: (t.write ++ ',' :: (Tree.writeMembers (m :: ms) ++ rest))) =
        some (.colon, t.write ++ ',' :: (Tree.writeMembers (m :: ms) ++ rest)) := rfl
    have hcomma : lexeme? (',' :: (Tree.writeMembers (m :: ms) ++ rest)) =
        some (.comma, Tree.writeMembers (m :: ms) ++ rest) := rfl
    have hvalue := lexemes_write t (',' :: (Tree.writeMembers (m :: ms) ++ rest)) ht.2.1
      (ends_cons (by decide) _)
    have hrest := lexemes_writeMembers (m :: ms) rest ht.2.2 h
    simp [Tree.writeMembers, Tree.lexedMembers, lexemes_text, lexemes_cons hcolon, hvalue,
      lexemes_cons hcomma, hrest]

end

namespace Cursor

variable {frames : List Frame} {more : List Lexeme}

theorem run_cons {c d : Cursor} (h : c.next? l = some d) (more : List Lexeme) :
    c.run (l :: more) = d.run more := by
  rw [run, h]

/-- The first item may come like any other, and so may the first member. -/
theorem run_firstItems {t : Tree} (h : t.Plain) (ts : List Tree) (frames : List Frame)
    (more : List Lexeme) : run ⟨frames, .firstItem⟩ (Tree.lexedItems (t :: ts) ++ more) =
      run ⟨frames, .value⟩ (Tree.lexedItems (t :: ts) ++ more) := by
  have hl : ∃ l tail c, t.lexed = l :: tail ∧ next? ⟨frames, .firstItem⟩ l = some c ∧
      next? ⟨frames, .value⟩ l = some c := by
    cases t with
    | broken => exact h.elim
    | _ => exact ⟨_, _, _, rfl, rfl, rfl⟩
  obtain ⟨l, tail, c, ht, hfirst, hnext⟩ := hl
  cases ts <;> simp only [Tree.lexedItems, ht, List.cons_append, run_cons hfirst, run_cons hnext]

theorem run_firstMembers (m : Option String × Tree) (ms : List (Option String × Tree))
    (frames : List Frame) (more : List Lexeme) :
    run ⟨frames, .firstKey []⟩ (Tree.lexedMembers (m :: ms) ++ more) =
      run ⟨frames, .key []⟩ (Tree.lexedMembers (m :: ms) ++ more) := by
  cases ms <;> rfl

mutual

theorem run_lexed : ∀ (t : Tree) (frames : List Frame) (more : List Lexeme), t.Plain →
    run ⟨frames, .value⟩ (t.lexed ++ more) = run ⟨frames, .after t⟩ more
  | .null, frames, more, _ => rfl
  | .bool b, frames, more, _ => rfl
  | .number (some (.integer n)), frames, more, _ => rfl
  | .text (some s), frames, more, _ => rfl
  | .list [] closed, frames, more, h => by
    obtain ⟨rfl, -⟩ := h
    rfl
  | .list (t :: ts) closed, frames, more, h => by
    obtain ⟨rfl, h⟩ := h
    have hitems := run_lexedItems (t :: ts) [] frames more nofun h
    simp only [Tree.lexed, List.cons_append, List.append_assoc, List.nil_append]
    rw [run_cons rfl, run_firstItems h.1, hitems]
    rfl
  | .record [] closed, frames, more, h => by
    obtain ⟨rfl, -⟩ := h
    rfl
  | .record (m :: ms) closed, frames, more, h => by
    obtain ⟨rfl, h⟩ := h
    have hmembers := run_lexedMembers (m :: ms) [] frames more nofun h
    simp only [Tree.lexed, List.cons_append, List.append_assoc, List.nil_append]
    rw [run_cons rfl, run_firstMembers, hmembers]
    rfl

/-- Items from a place in a list on, with what the list holds so far, last first. -/
theorem run_lexedItems : ∀ (ts before : List Tree) (frames : List Frame) (more : List Lexeme),
    ts ≠ [] → Tree.ArePlain ts →
    run ⟨.list before :: frames, .value⟩ (Tree.lexedItems ts ++ .closeList :: more) =
      run ⟨frames, .after (.list (before.reverse ++ ts) true)⟩ more
  | [], _, _, _, hn, _ => absurd rfl hn
  | [t], before, frames, more, _, h => by
    have hv := run_lexed t (.list before :: frames) (.closeList :: more) h.1
    rw [Tree.lexedItems, hv]
    simp [run, next?]
  | t :: u :: ts, before, frames, more, _, h => by
    have hv := run_lexed t (.list before :: frames)
      (.comma :: (Tree.lexedItems (u :: ts) ++ .closeList :: more)) h.1
    have hr := run_lexedItems (u :: ts) (t :: before) frames more nofun h.2
    simp only [Tree.lexedItems, List.append_assoc, List.cons_append, hv]
    rw [run_cons rfl, hr]
    simp

theorem run_lexedMembers : ∀ (ms before : List (Option String × Tree)) (frames : List Frame)
    (more : List Lexeme), ms ≠ [] → Tree.MembersPlain ms →
    run ⟨frames, .key before⟩ (Tree.lexedMembers ms ++ .closeRecord :: more) =
      run ⟨frames, .after (.record (before.reverse ++ ms) true)⟩ more
  | [], _, _, _, hn, _ => absurd rfl hn
  | [(k, t)], before, frames, more, _, h => by
    have hv := run_lexed t (.record before k :: frames) (.closeRecord :: more) h.2.1
    simp only [Tree.lexedMembers, List.cons_append]
    rw [run_cons rfl, run_cons rfl, hv]
    simp [run, next?]
  | (k, t) :: m :: ms, before, frames, more, _, h => by
    have hv := run_lexed t (.record before k :: frames)
      (.comma :: (Tree.lexedMembers (m :: ms) ++ .closeRecord :: more)) h.2.1
    have hr := run_lexedMembers (m :: ms) ((k, t) :: before) frames more nofun h.2.2
    simp only [Tree.lexedMembers, List.append_assoc, List.cons_append]
    rw [run_cons rfl, run_cons rfl, hv, run_cons rfl, hr]
    simp

end

end Cursor

/-- A tree that is written and read again is the same, and nothing is left over. -/
theorem Tree.read_toText {t : Tree} (h : t.Plain) : read t.toText = (t, true) := by
  have hl := lexemes_write t [] h ends_nil
  have hr := Cursor.run_lexed t [] [] h
  simp only [List.append_nil] at hl hr
  simp [read, toText, hl, hr, Cursor.start, lexemes, Cursor.run, Cursor.tree, Cursor.wrap]

end MediaLink.Json
