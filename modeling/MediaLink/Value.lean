import MediaLink.Number
import MediaLink.Text.Inspect

/-! Values that a provider understands and this library only stores and compares. -/
namespace MediaLink

inductive Value where
  | null
  | bool (b : Bool)
  | number (n : Number)
  | text (s : String)
  | list (items : List Value)
  /-- The members stand in ascending order of their keys, each key once. -/
  | object (members : List (String × Value))
  deriving Inhabited

/-- The members of an object, in ascending order of their keys. -/
abbrev Members := List (String × Value)

namespace Members

/-- The value last written under a key. -/
def get? (key : String) : Members → Option Value
  | [] => none
  | (k, v) :: rest => if k = key then some v else get? key rest

/-- Writes a value under a key, in the key's place. -/
def insert (key : String) (value : Value) : Members → Members
  | [] => [(key, value)]
  | (k, v) :: rest =>
    if key < k then (key, value) :: (k, v) :: rest
    else if key = k then (key, value) :: rest
    else (k, v) :: insert key value rest

end Members

namespace Value

mutual

/-- Deep equality: lists item by item, objects key by key, numbers by kind and value. -/
def same : Value → Value → Bool
  | .null, .null => true
  | .bool a, .bool b => a == b
  | .number a, .number b => a.same b
  | .text a, .text b => a == b
  | .list a, .list b => sameItems a b
  | .object a, .object b => sameMembers a b
  | _, _ => false

def sameItems : List Value → List Value → Bool
  | [], [] => true
  | a :: as, b :: bs => same a b && sameItems as bs
  | _, _ => false

def sameMembers : List (String × Value) → List (String × Value) → Bool
  | [], [] => true
  | (k, a) :: as, (l, b) :: bs => k == l && same a b && sameMembers as bs
  | _, _ => false

end

mutual

/-- The diagnostic form. -/
def inspect : Value → String
  | .null => "Null"
  | .bool b => "Bool(" ++ Text.ofBool b ++ ")"
  | .number n => "Number(" ++ n.text ++ ")"
  | .text s => "String(" ++ Text.inspect s ++ ")"
  | .list items => "Array " ++ Text.inspectList (inspectItems items)
  | .object members => "Object " ++ Text.inspectMap (inspectMembers members)

def inspectItems : List Value → List String
  | [] => []
  | v :: vs => inspect v :: inspectItems vs

def inspectMembers : List (String × Value) → List (String × String)
  | [] => []
  | (k, v) :: ms => (Text.inspect k, inspect v) :: inspectMembers ms

end

/-- An integer that fits 64 bits with a sign. -/
def int64? : Value → Option Int
  | .number (.integer n) => if -Nat.pow 2 63 ≤ n ∧ n < Nat.pow 2 63 then some n else none
  | _ => none

end Value
end MediaLink
