import MediaLink.Json.Refusal

/-! Reading values of a wanted kind off a tree, from left to right. The first problem decides. -/
namespace MediaLink.Json

abbrev Reading (α : Type) := Except Refusal α

/-- How many lists and records may be open at once. -/
def deepest : Nat := 127

/-- A way to read one kind of value, given how many more lists and records may be opened. -/
abbrev Reader (α : Type) := (depth : Nat) → Tree → Reading α

namespace Reader

def text : Reader String := fun _ t =>
  match t with
  | .text (some s) => .ok s
  | t => .error (.ofKind "a string" t)

/-- A number of 32 bits without a sign. -/
def word : Reader UInt32 := fun _ t =>
  match t with
  | .number (some (.integer n)) =>
    if 0 ≤ n ∧ n < Nat.pow 2 32 then .ok (UInt32.ofNat n.toNat) else .error (.outOfRange n "u32")
  | t => .error (.ofKind "u32" t)

/-- Null stands for no value. -/
def option (read : Reader α) : Reader (Option α) := fun depth t =>
  match t with
  | .null => .ok none
  | t => (read depth t).map some

def items (read : Reader α) (depth : Nat) (closed : Bool) : List Tree → Reading (List α)
  | [] => if closed then .ok [] else .error .malformed
  | t :: ts => do
    let a ← read depth t
    let as ← items read depth closed ts
    return a :: as

def list (read : Reader α) : Reader (List α) := fun depth t =>
  match t, depth with
  | .list _ _, 0 => .error .malformed
  | .list ts closed, depth + 1 => items read depth closed ts
  | t, _ => .error (.ofKind "a sequence" t)

/-- Reads on only if the value passes a check. -/
def checked (read : Reader α) (check : α → Except Fault β) : Reader β := fun depth t =>
  (read depth t).bind fun a =>
    match check a with
    | .ok b => .ok b
    | .error fault => .error (.invalid fault)

end Reader

/-- A field of a record that is read into a draft of type `σ`. -/
structure Shape.Field (σ : Type) where
  name : String
  required : Bool
  isSet : σ → Bool
  read : Nat → Tree → σ → Reading σ

/-- A record that is read field by field, given by names or in order. -/
structure Shape (σ : Type) where
  name : String
  fields : List (Shape.Field σ)
  empty : σ

namespace Shape

/-- Takes the members of a record in the order of the text. A known field is looked at before its
value, an unknown one is only skipped. -/
def byName (shape : Shape σ) (depth : Nat) (closed : Bool) :
    List (Option String × Tree) → σ → Reading σ
  | [], draft =>
    if closed then
      match shape.fields.find? fun f => f.required && !f.isSet draft with
      | some f => .error (.missingField f.name)
      | none => .ok draft
    else .error .malformed
  | (none, _) :: _, _ => .error .malformed
  | (some key, t) :: rest, draft =>
    match shape.fields.find? (·.name == key) with
    | none => if t.isWhole then byName shape depth closed rest draft else .error .malformed
    | some f =>
      if f.isSet draft then .error (.duplicateField f.name)
      else (f.read depth t draft).bind (byName shape depth closed rest)

/-- Takes the items of a list as the fields in their order. -/
def byOrder (shape : Shape σ) (depth : Nat) (closed : Bool) (length : Nat) :
    List (Field σ) → List Tree → σ → Reading σ
  | [], [], draft => if closed then .ok draft else .error .malformed
  | [], _ :: _, _ => .error (if closed then .tooLong length else .malformed)
  | f :: fs, [], draft =>
    if !closed then .error .malformed
    else if f.required then .error (.tooShort length shape.name shape.fields.length)
    else byOrder shape depth closed length fs [] draft
  | f :: fs, t :: ts, draft =>
    (f.read depth t draft).bind (byOrder shape depth closed length fs ts)

def read (shape : Shape σ) : Reader σ := fun depth t =>
  match t, depth with
  | .record _ _, 0 | .list _ _, 0 => .error .malformed
  | .record members closed, depth + 1 => shape.byName depth closed members shape.empty
  | .list items closed, depth + 1 =>
    shape.byOrder depth closed items.length shape.fields items shape.empty
  | t, _ => .error (.ofKind ("struct " ++ shape.name) t)

end Shape

namespace Reader

/-- Reads a whole text. Too many items for a record, and anything after the value, break the
grammar here. -/
def ofText (read : Reader α) (s : String) : Reading α :=
  let (tree, all) := Tree.read s
  match read deepest tree with
  | .ok a => if all then .ok a else .error .malformed
  | .error (.tooLong _) => .error .malformed
  | .error refusal => .error refusal

end Reader
end MediaLink.Json
