import MediaLink.Json.Reading
import MediaLink.Json.Writing
import MediaLink.Payload

/-! Values and payloads on the wire. -/
namespace MediaLink

open Json

namespace Value

mutual

def toTree : Value → Tree
  | .null => .null
  | .bool b => .bool b
  | .number n => .number (some n)
  | .text s => .text (some s)
  | .list items => .list (itemsToTrees items) true
  | .object members => .record (membersToTrees members) true

def itemsToTrees : List Value → List Tree
  | [] => []
  | v :: vs => v.toTree :: itemsToTrees vs

def membersToTrees : List (String × Value) → List (Option String × Tree)
  | [] => []
  | (k, v) :: ms => (some k, v.toTree) :: membersToTrees ms

end

def toText (v : Value) : String := v.toTree.toText

mutual

/-- Reads any value. A repeated key keeps its last value. -/
def read (depth : Nat) : Tree → Reading Value
  | .null => .ok .null
  | .bool b => .ok (.bool b)
  | .number (some n) => .ok (.number n)
  | .text (some s) => .ok (.text s)
  | .list items closed =>
    if depth = 0 then .error .malformed
    else (readItems (depth - 1) closed items).map .list
  | .record members closed =>
    if depth = 0 then .error .malformed
    else (readMembers (depth - 1) closed members []).map .object
  | .number none | .text none | .broken => .error .malformed

def readItems (depth : Nat) (closed : Bool) : List Tree → Reading (List Value)
  | [] => if closed then .ok [] else .error .malformed
  | t :: ts =>
    match read depth t with
    | .error e => .error e
    | .ok v => (readItems depth closed ts).map (v :: ·)

def readMembers (depth : Nat) (closed : Bool) :
    List (Option String × Tree) → Members → Reading Members
  | [], members => if closed then .ok members else .error .malformed
  | (none, _) :: _, _ => .error .malformed
  | (some k, t) :: rest, members =>
    match read depth t with
    | .error e => .error e
    | .ok v => readMembers depth closed rest (members.insert k v)

end

end Value

namespace Payload

def toTree (p : Payload) : Tree := .record (Value.membersToTrees p.members) true

def toText (p : Payload) : String := p.toTree.toText

def read : Reader Payload := fun depth t =>
  match t, depth with
  | .record _ _, 0 => .error .malformed
  | .record members closed, depth + 1 =>
    (Value.readMembers depth closed members []).map Payload.mk
  | t, _ => .error (.ofKind "a map" t)

end Payload
end MediaLink
