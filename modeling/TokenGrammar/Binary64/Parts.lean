/-! Floating-point numbers of 64 bits, taken apart into sign, significand and exponent. -/

namespace TokenGrammar.Binary64

/-- Two to the given power. -/
def twoTo (power : Nat) : Nat :=
  Nat.pow 2 power

/-- Ten to the given power. -/
def tenTo (power : Nat) : Nat :=
  Nat.pow 10 power

/-- A number that is neither infinite nor no number at all is its significand times a power of
two.
-/
inductive Parts where
  | notANumber
  | infinite (negative : Bool)
  | finite (negative : Bool) (significand : Nat) (exponent : Int)
  deriving DecidableEq, Repr

/-- The least exponent, which belongs to the numbers closest to zero. -/
def leastExponent : Int :=
  -1074

/-- The least significand of the numbers that have full precision. -/
def fullSignificand : Nat :=
  twoTo 52

/-- The parts of the number with these bits: one of sign, eleven of exponent and 52 of fraction.
-/
def Parts.ofBits (bits : Nat) : Parts :=
  let negative := bits / twoTo 63 % 2 == 1
  let biased : Nat := bits / twoTo 52 % twoTo 11
  let fraction : Nat := bits % twoTo 52
  if biased = twoTo 11 - 1 then
    if fraction = 0 then .infinite negative else .notANumber
  else if biased = 0 then .finite negative fraction leastExponent
  else .finite negative (fullSignificand + fraction) (leastExponent + ((biased - 1 : Nat) : Int))

/-- The parts of a number. -/
def Parts.of (number : Float) : Parts :=
  .ofBits number.toBits.toNat

end TokenGrammar.Binary64
