import MediaLink.Number.Printed

/-! The numbers that a value can hold. -/
namespace MediaLink

/-- An integer that fits 64 bits with or without a sign, or a finite binary fraction. -/
inductive Number where
  | integer (value : Int)
  | float (value : Binary64)
  deriving DecidableEq, Repr

namespace Number

/-- An integer never equals a fraction, whatever their values. -/
def same : Number → Number → Bool
  | .integer a, .integer b => a == b
  | .float a, .float b => a.same b
  | _, _ => false

def text : Number → String
  | .integer n => toString n
  | .float x => x.text

end Number
end MediaLink
