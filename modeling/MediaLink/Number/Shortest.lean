import MediaLink.Number.Binary64

/-! The fewest decimal digits that read back as a given number. -/
namespace MediaLink

/-- A positive decimal number: `coefficient * 10 ^ exponent`. -/
structure Decimal where
  coefficient : Nat
  exponent : Int
  deriving DecidableEq, Repr

namespace Binary64

/-- The number of decimal digits of a positive number. -/
def digitCount (n : Nat) : Nat := (Nat.toDigits 10 n).length

/-- The decimal exponent of a positive magnitude: the greatest `e` with `10 ^ e` not above it. -/
def leading (magnitude : Nat) : Int :=
  if scale ≤ magnitude then digitCount (magnitude / scale) - 1
  else -(digitCount ((scale + magnitude - 1) / magnitude - 1) : Int)

/-- The number on the decimal grid of spacing `10 ^ exponent` that reads back as `rank`, if there
is one: of the two grid points around the magnitude the nearer, or the even one of a tie. The
ends of the interval that rounds to `rank` belong to it when `rank` is even. -/
def onGrid? (rank : Nat) (exponent : Int) : Option Decimal :=
  let up := Nat.pow 10 (-exponent).toNat
  let down := scale * Nat.pow 10 exponent.toNat
  let here := units rank * up
  let low := (units (rank - 1) + units rank) * up
  let high := (units rank + units (rank + 1)) * up
  let readsBack (c : Nat) : Bool :=
    let point := 2 * (c * down)
    if rank % 2 = 0 then low ≤ point && point ≤ high else low < point && point < high
  let below := here / down
  let rest := 2 * (here % down)
  let preferBelow := rest < down || rest == down && below % 2 == 0
  match readsBack below, readsBack (below + 1) with
  | true, true => some ⟨if preferBelow then below else below + 1, exponent⟩
  | true, false => some ⟨below, exponent⟩
  | false, true => some ⟨below + 1, exponent⟩
  | false, false => none

/-- The first grid of `digits`, `digits + 1`, ... digits that has a point which reads back. -/
def firstGrid (rank : Nat) (top : Int) : (tries digits : Nat) → Option Decimal
  | 0, _ => none
  | tries + 1, digits =>
    match onGrid? rank (top - digits + 1) with
    | some decimal => some decimal
    | none => firstGrid rank top tries (digits + 1)

/-- The shortest decimal number that reads back as a positive magnitude. Seventeen digits always
suffice. -/
def shortest (rank : Nat) : Decimal :=
  (firstGrid rank (leading (units rank)) 17 1).getD ⟨0, 0⟩

example : shortest 1 = ⟨5, -324⟩ := by decide +kernel

end Binary64
end MediaLink
