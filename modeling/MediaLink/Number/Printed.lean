import MediaLink.Number.Shortest

/-! The text of a number: digits, a point, and an exponent only for the very large and small. -/
namespace MediaLink

/-- How a decimal number is laid out. -/
structure Layout where
  /-- The least decimal exponent written without `e`. -/
  least : Int
  /-- The greatest decimal exponent written without `e`. -/
  greatest : Int

/-- Exponents from -5 to 15 are written out, and then there is always a point. -/
def Layout.standard : Layout := ⟨-5, 15⟩

namespace Decimal

/-- The digits of the coefficient without the zeros at its end. -/
def digits (x : Decimal) : List Char :=
  ((Nat.toDigits 10 x.coefficient).reverse.dropWhile (· == '0')).reverse

/-- The exponent of the first digit. -/
def leading (x : Decimal) : Int :=
  x.exponent + ((Nat.toDigits 10 x.coefficient).length - 1 : Nat)

def positional (digits : List Char) (leading : Int) : List Char :=
  if leading < 0 then
    ['0', '.'] ++ List.replicate ((-leading).toNat - 1) '0' ++ digits
  else
    let whole := leading.toNat + 1
    if digits.length ≤ whole then
      digits ++ List.replicate (whole - digits.length) '0' ++ ['.', '0']
    else digits.take whole ++ ['.'] ++ digits.drop whole

def scientific (digits : List Char) (leading : Int) : List Char :=
  let rest := digits.drop 1
  digits.take 1 ++ (if rest.isEmpty then [] else '.' :: rest)
    ++ ['e', if leading < 0 then '-' else '+'] ++ Nat.toDigits 10 leading.natAbs

def text (layout : Layout) (x : Decimal) : List Char :=
  if layout.least ≤ x.leading ∧ x.leading ≤ layout.greatest then
    positional x.digits x.leading
  else scientific x.digits x.leading

end Decimal

namespace Binary64

def text (x : Binary64) : String :=
  String.ofList ((if x.negative then ['-'] else [])
    ++ if x.rank = 0 then ['0', '.', '0'] else (shortest x.rank).text .standard)

end Binary64
end MediaLink
