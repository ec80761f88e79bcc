import MediaLink.Number

/-! Numeric literals and their values. -/
namespace MediaLink

/-- The parts of a literal. The exponent carries its sign. -/
structure Literal where
  negative : Bool
  whole : List Nat
  fraction : Option (List Nat)
  exponent : Option (Bool × List Nat)
  deriving Repr

namespace Literal

/-- The largest significand that is kept. -/
def greatest : Nat := Nat.pow 2 64 - 1

/-- Takes digits into the significand while it fits, and leaves the rest. -/
def absorb : Nat → List Nat → Nat × List Nat
  | significand, [] => (significand, [])
  | significand, d :: ds =>
    if significand * 10 + d ≤ greatest then absorb (significand * 10 + d) ds
    else (significand, d :: ds)

def ofDigits (ds : List Nat) : Nat := ds.foldl (fun n d => n * 10 + d) 0

/-- The largest power of ten that is one number. -/
def widest : Nat := 308

def powerOfTen? (e : Nat) : Option Binary64 := Binary64.ofNat? (Nat.pow 10 e)

def times? (x : Binary64) (e : Nat) : Option Binary64 := (powerOfTen? e).bind x.scaleUp?

def over? (x : Binary64) (e : Nat) : Option Binary64 := (powerOfTen? e).bind x.scaleDown?

/-- `x / 10 ^ e` in steps that each round: divisions by the widest power, and one more. -/
def lowered? (x : Binary64) (e : Nat) : Option Binary64 :=
  if e ≤ widest then over? x e
  else if x.rank = 0 then some x
  else (over? x widest).bind fun y => lowered? y (e - widest)
  termination_by e
  decreasing_by unfold widest at *; omega

/-- `x * 10 ^ e`; none if the magnitude is out of range. -/
def shifted? (x : Binary64) : Int → Option Binary64
  | .ofNat e => if e ≤ widest then times? x e else if x.rank = 0 then some x else none
  | .negSucc e => lowered? x (e + 1)

def signed (negative : Bool) (x : Binary64) : Binary64 := if negative then x.neg else x

/-- An exponent beyond this is not looked at digit by digit. -/
def exponentLimit : Nat := Nat.pow 2 31 - 1

def scaled? (negative : Bool) (significand : Nat) (exponent : Int) : Option Number :=
  ((Binary64.ofNat? significand).bind (shifted? · exponent)).map
    fun x => .float (signed negative x)

/-- An integer literal stays exact where 64 bits hold it; a zero with a minus sign is a fraction. -/
def whole? (negative : Bool) (n : Nat) : Option Number :=
  if negative = false then some (.integer n)
  else if 0 < n ∧ n ≤ Nat.pow 2 63 then some (.integer (-n))
  else (Binary64.ofNat? n).map fun x => .float x.neg

/-- The value of a literal; none if it is out of range. -/
def value? (l : Literal) : Option Number :=
  let (head, dropped) := absorb 0 l.whole
  match l.fraction, l.exponent with
  | none, none =>
    if dropped.isEmpty then whole? l.negative head else scaled? l.negative head dropped.length
  | _, _ =>
    let fraction := l.fraction.getD []
    let (significand, ignored) := absorb head fraction
    let start : Int := dropped.length - (fraction.length - ignored.length : Nat)
    match l.exponent with
    | none => scaled? l.negative significand start
    | some (minus, ds) =>
      let e := ofDigits ds
      if e ≤ exponentLimit then
        scaled? l.negative significand (if minus then start - e else start + e)
      else if significand = 0 ∨ minus then some (.float (signed l.negative (.zero false)))
      else none

example : value? ⟨true, [0], none, none⟩ = some (.float (.zero true)) := by decide +kernel

end Literal
end MediaLink
