import MediaLink.Json.Tree
import MediaLink.Value

/-! Trees as compact JSON text. -/
namespace MediaLink.Json.Tree

mutual

def write : Tree → List Char
  | .null => "null".toList
  | .bool b => (Text.ofBool b).toList
  | .number (some n) => n.text.toList
  | .text (some s) => Text.encode s
  | .list items _ => '[' :: writeItems items ++ [']']
  | .record members _ => '\x7b' :: writeMembers members ++ ['\x7d']
  | .number none | .text none | .broken => []

/-- Items with commas between them. -/
def writeItems : List Tree → List Char
  | [] => []
  | [t] => t.write
  | t :: u :: ts => t.write ++ ',' :: writeItems (u :: ts)

def writeMembers : List (Option String × Tree) → List Char
  | [] => []
  | [(k, t)] => Text.encode (k.getD "") ++ ':' :: t.write
  | (k, t) :: m :: ms => Text.encode (k.getD "") ++ ':' :: t.write ++ ',' :: writeMembers (m :: ms)

end

/-- The text of a tree. Trees that are made to be written are whole and have no missing values. -/
def toText (t : Tree) : String := String.ofList t.write

end MediaLink.Json.Tree
