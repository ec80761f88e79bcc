/-! Finite numbers with 53 significant bits, and exact quotients rounded to them. -/
namespace MediaLink

/-- A finite number of binary64: a sign, and the rank of its magnitude in ascending order. -/
structure Binary64 where
  negative : Bool
  rank : Nat
  rank_lt : rank < 2047 * Nat.pow 2 52
  deriving DecidableEq, Repr

namespace Binary64

/-- One, counted in units of the least positive magnitude. -/
def scale : Nat := Nat.pow 2 1074

/-- The magnitude of a rank, in units of the least positive one. -/
def units (rank : Nat) : Nat :=
  if rank < Nat.pow 2 53 then rank
  else (Nat.pow 2 52 + rank % Nat.pow 2 52) * Nat.pow 2 (rank / Nat.pow 2 52 - 1)

/-- The integer nearest to a quotient; of two nearest ones, the even one. -/
def nearest (num den : Nat) : Nat :=
  let low := num / den
  let rest := 2 * (num % den)
  if rest < den ∨ rest = den ∧ low % 2 = 0 then low else low + 1

/-- The rank nearest to `num / den` units. A carry out of the significand moves on to the next
binade by itself, because ranks count through the binades. -/
def rankOf (num den : Nat) : Nat :=
  let shift := Nat.log2 (num / den) - 52
  shift * Nat.pow 2 52 + nearest num (den * Nat.pow 2 shift)

/-- The finite number nearest to `num / den` units, if the magnitude is in range. -/
def round (negative : Bool) (num den : Nat) : Option Binary64 :=
  if h : rankOf num den < 2047 * Nat.pow 2 52 then some ⟨negative, rankOf num den, h⟩ else none

def zero (negative : Bool) : Binary64 := ⟨negative, 0, by decide⟩

def ofNat? (n : Nat) : Option Binary64 := round false (n * scale) 1

def neg (x : Binary64) : Binary64 := { x with negative := !x.negative }

/-- The rounded product of two magnitudes, with the sign of the first. -/
def scaleUp? (x y : Binary64) : Option Binary64 :=
  round x.negative (units x.rank * units y.rank) scale

/-- The rounded quotient of two magnitudes, with the sign of the first. -/
def scaleDown? (x y : Binary64) : Option Binary64 :=
  round x.negative (units x.rank * scale) (units y.rank)

/-- Equality of values: the two zeros are one value. -/
def same (x y : Binary64) : Bool :=
  x.rank == y.rank && (x.negative == y.negative || x.rank == 0)

theorem same_iff {x y : Binary64} :
    x.same y = true ↔ x.rank = y.rank ∧ (x.negative = y.negative ∨ x.rank = 0) := by
  simp [same]

theorem units_of_small {rank : Nat} (h : rank < Nat.pow 2 53) : units rank = rank := if_pos h

example : ofNat? 1 = some ⟨false, 1023 * Nat.pow 2 52, by decide⟩ := by decide +kernel

end Binary64
end MediaLink
