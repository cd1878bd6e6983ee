import TokenGrammar.Binary64.Parts

/-! The shortest decimal numbers that read back as a given floating-point number. -/

namespace TokenGrammar.Binary64

/-- The coefficient times a power of ten. -/
structure Decimal where
  coefficient : Nat
  exponent : Int
  deriving DecidableEq, Repr

/-- Number of decimal digits; zero has one. -/
def digitCount (number : Nat) : Nat :=
  (Nat.toDigits 10 number).length

/-- Removes up to so many zeros from the end of the coefficient. -/
def Decimal.strip : (zeros : Nat) → Decimal → Decimal
  | 0, decimal => decimal
  | zeros + 1, decimal =>
      if decimal.coefficient % 10 = 0 ∧ decimal.coefficient ≠ 0 then
        Decimal.strip zeros ⟨decimal.coefficient / 10, decimal.exponent + 1⟩
      else decimal

/-- The real numbers that round to a floating-point number, measured in some unit: the number
itself and the bounds of the interval around it, which belong to it or not.
-/
structure Neighbourhood where
  low : Nat
  centre : Nat
  high : Nat
  closed : Bool
  deriving DecidableEq, Repr

/-- The neighbourhood of a positive number in units of a quarter of its last binary place. The
next number below is nearer than the one above iff the significand is the least one of full
precision. Ties go to even significands.
-/
def Neighbourhood.of (significand : Nat) (exponent : Int) : Neighbourhood :=
  let narrow := significand == fullSignificand && exponent != leastExponent
  { low := 4 * significand - (if narrow then 1 else 2)
    centre := 4 * significand
    high := 4 * significand + 2
    closed := significand % 2 == 0 }

/-- The same neighbourhood in a unit that many times smaller. -/
def Neighbourhood.scale (hood : Neighbourhood) (factor : Nat) : Neighbourhood :=
  { hood with
    low := hood.low * factor
    centre := hood.centre * factor
    high := hood.high * factor }

/-- The point rounds to the number. -/
def Neighbourhood.contains (hood : Neighbourhood) (point : Nat) : Bool :=
  if hood.closed then hood.low ≤ point && point ≤ hood.high
  else hood.low < point && point < hood.high

/-- Which of two decimals that are equally near is taken. -/
inductive Tie where
  | up
  | toEven
  deriving DecidableEq, Repr

/-- The multiple of the step in the neighbourhood that is nearest to its centre, given by its
factor. Only the two multiples around the centre can be.
-/
def Neighbourhood.nearest? (hood : Neighbourhood) (tie : Tie) (step : Nat) : Option Nat :=
  let below := hood.centre / step
  let down := hood.centre - below * step
  let up := (below + 1) * step - hood.centre
  match hood.contains (below * step), hood.contains ((below + 1) * step) with
  | false, false => none
  | true, false => some below
  | false, true => some (below + 1)
  | true, true =>
      if down < up then some below
      else if up < down then some (below + 1)
      else
        match tie with
        | .up => some (below + 1)
        | .toEven => some (if below % 2 = 0 then below else below + 1)

/-- The decimal with the given exponent that rounds to the number and is nearest to it. -/
def decimalAt? (tie : Tie) (significand : Nat) (exponent : Int) (place : Int) : Option Decimal :=
  let quarter := exponent - 2
  let factor := twoTo quarter.toNat * tenTo (-place).toNat
  let hood := (Neighbourhood.of significand exponent).scale factor
  let step := twoTo (-quarter).toNat * tenTo place.toNat
  (hood.nearest? tie step).map fun coefficient => ⟨coefficient, place⟩

/-- The decimal exponent just above the leading digit of a positive number. The product with
this power of ten has at least one digit before the point, whichever the number is.
-/
def leadingPlace (significand : Nat) (exponent : Int) : Int :=
  let scale : Nat := 400
  let whole := significand * twoTo exponent.toNat * tenTo scale / twoTo (-exponent).toNat
  (digitCount whole : Int) - scale

/-- The first decimal found with no fewer digits than given, in so many tries. -/
def firstDecimal (tie : Tie) (significand : Nat) (exponent : Int) (leading : Int)
    : (tries digits : Nat) → Option Decimal
  | 0, _ => none
  | tries + 1, digits =>
      (decimalAt? tie significand exponent (leading - digits)).or
        (firstDecimal tie significand exponent leading tries (digits + 1))

/-- The decimal with the fewest digits that reads back as a positive number, and of those the
nearest to it. Seventeen digits always suffice.
-/
def shortest (tie : Tie) (significand : Nat) (exponent : Int) : Decimal :=
  let leading := leadingPlace significand exponent
  ((firstDecimal tie significand exponent leading 17 1).getD ⟨0, 0⟩).strip 17

end TokenGrammar.Binary64
