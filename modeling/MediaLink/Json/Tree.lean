import MediaLink.Json.Lexeme

/-! JSON texts as trees. A text that breaks off, or breaks the grammar, gives the tree of what came
before: every list and record that was open is marked as unclosed. -/
namespace MediaLink.Json

inductive Tree where
  | null
  | bool (b : Bool)
  | number (n : Option Number)
  | text (s : Option String)
  | list (items : List Tree) (closed : Bool)
  | record (members : List (Option String × Tree)) (closed : Bool)
  /-- Where a value should stand and none does. -/
  | broken

/-- The open lists and records around a place in a text, innermost first, each with what it holds
so far, last first. -/
inductive Frame where
  | list (items : List Tree)
  | record (members : List (Option String × Tree)) (key : Option String)

/-- What may come next at a place in a text. -/
inductive Place where
  | value
  | firstItem
  | firstKey (members : List (Option String × Tree))
  | key (members : List (Option String × Tree))
  | colon (members : List (Option String × Tree)) (key : Option String)
  /-- A value has just ended. -/
  | after (t : Tree)

structure Cursor where
  frames : List Frame
  place : Place

namespace Cursor

def start : Cursor := ⟨[], .value⟩

def scalar? : Lexeme → Option Tree
  | .null => some .null
  | .bool b => some (.bool b)
  | .number n => some (.number n)
  | .text s => some (.text s)
  | _ => none

/-- Moves over one lexeme where a value may start. -/
def enter? (frames : List Frame) : Lexeme → Option Cursor
  | .openList => some ⟨.list [] :: frames, .firstItem⟩
  | .openRecord => some ⟨frames, .firstKey []⟩
  | lexeme => (scalar? lexeme).map fun t => ⟨frames, .after t⟩

/-- Moves over one lexeme, unless the grammar does not allow it here. -/
def next? (c : Cursor) (lexeme : Lexeme) : Option Cursor :=
  match c.place, lexeme, c.frames with
  | .value, _, _ => enter? c.frames lexeme
  | .firstItem, .closeList, _ :: frames => some ⟨frames, .after (.list [] true)⟩
  | .firstItem, _, _ => enter? c.frames lexeme
  | .firstKey _, .closeRecord, _ => some { c with place := .after (.record [] true) }
  | .firstKey ms, .text k, _ => some { c with place := .colon ms k }
  | .key ms, .text k, _ => some { c with place := .colon ms k }
  | .colon ms k, .colon, frames => some ⟨.record ms k :: frames, .value⟩
  | .after t, .comma, .list ts :: frames => some ⟨.list (t :: ts) :: frames, .value⟩
  | .after t, .comma, .record ms k :: frames => some ⟨frames, .key ((k, t) :: ms)⟩
  | .after t, .closeList, .list ts :: frames =>
    some ⟨frames, .after (.list (t :: ts).reverse true)⟩
  | .after t, .closeRecord, .record ms k :: frames =>
    some ⟨frames, .after (.record ((k, t) :: ms).reverse true)⟩
  | _, _, _ => none

/-- Closes the frames around a tree, marking them as unclosed. -/
def wrap (t : Tree) : List Frame → Tree
  | [] => t
  | .list ts :: frames => wrap (.list (t :: ts).reverse false) frames
  | .record ms k :: frames => wrap (.record ((k, t) :: ms).reverse false) frames

/-- The tree read so far. -/
def tree (c : Cursor) : Tree :=
  match c.place, c.frames with
  | .value, .list ts :: frames => wrap (.list ts.reverse false) frames
  | .value, frames => wrap .broken frames
  | .firstItem, _ :: frames => wrap (.list [] false) frames
  | .firstItem, [] => .broken
  | .firstKey _, frames => wrap (.record [] false) frames
  | .key ms, frames => wrap (.record ms.reverse false) frames
  | .colon ms k, frames => wrap (.record ((k, .broken) :: ms).reverse false) frames
  | .after t, frames => wrap t frames

/-- Moves over lexemes as far as the grammar allows; true if it allowed them all. -/
def run (c : Cursor) : List Lexeme → Cursor × Bool
  | [] => (c, true)
  | lexeme :: lexemes =>
    match c.next? lexeme with
    | some c => c.run lexemes
    | none => (c, false)

end Cursor

namespace Tree

/-- The tree of a text, and whether nothing but the one value stands in the text. -/
def read (s : String) : Tree × Bool :=
  let (lexemes, all) := lexemes s.toList
  let (cursor, fits) := Cursor.start.run lexemes
  (cursor.tree, all && fits)

mutual

/-- Whether a value is complete. -/
def isWhole : Tree → Bool
  | .list items closed => closed && areWhole items
  | .record members closed => closed && membersWhole members
  | .broken => false
  | _ => true

def areWhole : List Tree → Bool
  | [] => true
  | t :: ts => t.isWhole && areWhole ts

def membersWhole : List (Option String × Tree) → Bool
  | [] => true
  | (_, t) :: ms => t.isWhole && membersWhole ms

end

end Tree
end MediaLink.Json
