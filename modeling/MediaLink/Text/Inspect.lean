import MediaLink.Text.Extending
import MediaLink.Text.Invisible

/-! The diagnostic form of text: quoted, with every character that could mislead written out. -/
namespace MediaLink.Text

def within (ranges : List (Nat × Nat)) (c : Char) : Bool :=
  ranges.any fun (first, last) => first ≤ c.toNat && c.toNat ≤ last

/-- Characters that join the one before, and would look like part of it. -/
def isJoined (c : Char) : Bool := within extending c && !within spaced c

/-- Characters written as their code point: those that join the one before, or have no form. -/
def isHidden (c : Char) : Bool :=
  if c.toNat < 127 then c.toNat < 32
  else isJoined c || within invisible c || within fillers c

example : isHidden '\u3164' ∧ isHidden '\u0301' ∧ ¬ isHidden '\uff9e' := by decide +kernel

def inspectChar (c : Char) : List Char :=
  match c with
  | '\x00' => ['\\', '0']
  | '\t' => ['\\', 't']
  | '\n' => ['\\', 'n']
  | '\r' => ['\\', 'r']
  | '"' => ['\\', '"']
  | '\\' => ['\\', '\\']
  | c =>
    if isHidden c then ['\\', 'u', '\x7b'] ++ Nat.toDigits 16 c.toNat ++ ['\x7d'] else [c]

/-- Text between quotes. -/
def inspect (s : String) : String :=
  String.ofList ('"' :: s.toList.flatMap inspectChar ++ ['"'])

/-- The form of a value that may be missing. -/
def inspectOption (form : α → String) : Option α → String
  | none => "None"
  | some a => "Some(" ++ form a ++ ")"

/-- The form of a record: its name and its fields in order. -/
def inspectRecord (name : String) (fields : List (String × String)) : String :=
  name ++ " \x7b " ++ ", ".intercalate (fields.map fun (field, form) => field ++ ": " ++ form)
    ++ " \x7d"

/-- The form of a record that keeps some of its fields to itself. -/
def inspectPartial (name : String) (fields : List (String × String)) : String :=
  name ++ " \x7b " ++ String.join (fields.map fun (field, form) => field ++ ": " ++ form ++ ", ")
    ++ ".. \x7d"

/-- The word for a truth value. -/
def ofBool (b : Bool) : String := if b then "true" else "false"

def inspectList (forms : List String) : String := "[" ++ ", ".intercalate forms ++ "]"

def inspectMap (forms : List (String × String)) : String :=
  "\x7b" ++ ", ".intercalate (forms.map fun (key, form) => key ++ ": " ++ form) ++ "\x7d"

end MediaLink.Text
