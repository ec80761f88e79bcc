import MediaLink.Fault
import MediaLink.Json.Tree
import MediaLink.Value

/-! Why a JSON text is no value of the wanted kind. -/
namespace MediaLink.Json

/-- What stands where something else is wanted. -/
inductive Found where
  | null
  | bool (b : Bool)
  | number (n : Number)
  | text (s : String)
  | list
  | record
  deriving Repr

def Found.describe : Found → String
  | .null => "null"
  | .bool b => "boolean `" ++ Text.ofBool b ++ "`"
  | .number (.integer n) => "integer `" ++ toString n ++ "`"
  | .number (.float x) => "floating point `" ++ x.text ++ "`"
  | .text s => "string " ++ Text.inspect s
  | .list => "sequence"
  | .record => "map"

inductive Refusal where
  /-- The text breaks off or breaks the grammar. -/
  | malformed
  | missingField (field : String)
  | duplicateField (field : String)
  | wrongKind (found : Found) (wanted : String)
  | outOfRange (value : Int) (wanted : String)
  /-- A record written as a list lacks a required field. -/
  | tooShort (length : Nat) (record : String) (fields : Nat)
  /-- A record written as a list has more items than fields. -/
  | tooLong (length : Nat)
  /-- The value is complete and not valid. -/
  | invalid (fault : Fault)
  deriving Repr

namespace Refusal

/-- The message; a malformed text has none. -/
def message? : Refusal → Option String
  | .malformed => none
  | .missingField field => some ("missing field `" ++ field ++ "`")
  | .duplicateField field => some ("duplicate field `" ++ field ++ "`")
  | .wrongKind found wanted => some ("invalid type: " ++ found.describe ++ ", expected " ++ wanted)
  | .outOfRange n wanted =>
    some ("invalid value: integer `" ++ toString n ++ "`, expected " ++ wanted)
  | .tooShort n record fields =>
    some ("invalid length " ++ toString n ++ ", expected struct " ++ record ++ " with "
      ++ toString fields ++ " elements")
  | .tooLong n => some ("invalid length " ++ toString n ++ ", expected fewer elements in array")
  | .invalid fault => some fault.message

/-- The refusal of a tree whose kind is wrong, or which is no value at all. -/
def ofKind (wanted : String) : Tree → Refusal
  | .null => .wrongKind .null wanted
  | .bool b => .wrongKind (.bool b) wanted
  | .number (some n) => .wrongKind (.number n) wanted
  | .text (some s) => .wrongKind (.text s) wanted
  | .list _ _ => .wrongKind .list wanted
  | .record _ _ => .wrongKind .record wanted
  | .number none | .text none | .broken => .malformed

end Refusal
end MediaLink.Json
