import TokenGrammar.Binary64.Shortest

/-! The two written forms of floating-point numbers: one for readers, without exponents, and one
for data, which shows that the number is not an integer.
-/

namespace TokenGrammar.Binary64

/-- The decimal digits of a number. -/
def digitText (number : Nat) : String :=
  String.ofList (Nat.toDigits 10 number)

/-- So many zeros. -/
def zeros (count : Nat) : String :=
  String.ofList (List.replicate count '0')

/-- The decimal written with its point in place; whole numbers are followed by the given text.
-/
def Decimal.positional (whole : String) (decimal : Decimal) : String :=
  let digits := Nat.toDigits 10 decimal.coefficient
  let places := (-decimal.exponent).toNat
  if 0 ≤ decimal.exponent then
    String.ofList digits ++ zeros decimal.exponent.toNat ++ whole
  else if places < digits.length then
    String.ofList (digits.take (digits.length - places)) ++ "."
      ++ String.ofList (digits.drop (digits.length - places))
  else "0." ++ zeros (places - digits.length) ++ String.ofList digits

/-- The exponent of the first digit. -/
def Decimal.magnitude (decimal : Decimal) : Int :=
  decimal.exponent + digitCount decimal.coefficient - 1

/-- The decimal written with one digit before the point and a power of ten, which always has a
sign.
-/
def Decimal.scientific (decimal : Decimal) : String :=
  let fraction := (Nat.toDigits 10 decimal.coefficient).drop 1
  let lead := String.ofList ((Nat.toDigits 10 decimal.coefficient).take 1)
  let point := if fraction.isEmpty then "" else "." ++ String.ofList fraction
  let magnitude := decimal.magnitude
  let sign := if magnitude < 0 then "-" else "+"
  lead ++ point ++ "e" ++ sign ++ digitText magnitude.natAbs

/-- The sign in front of a number. -/
def signText (negative : Bool) : String :=
  if negative then "-" else ""

/-- The number for a reader: the shortest digits, never with an exponent, and no point if it is
whole. Of two decimals equally near the upper one is taken.
-/
def display (number : Float) : String :=
  match Parts.of number with
  | .notANumber => "NaN"
  | .infinite negative => signText negative ++ "inf"
  | .finite negative 0 _ => signText negative ++ "0"
  | .finite negative significand exponent =>
      signText negative ++ (shortest .up significand exponent).positional ""

/-- The number as data: the shortest digits, with a point or an exponent in any case. Exponents
appear from 10^16 on and below 10^-5. Of two decimals equally near the even one is taken. What is
no finite number has no such form.
-/
def dataText? (number : Float) : Option String :=
  match Parts.of number with
  | .notANumber => none
  | .infinite _ => none
  | .finite negative 0 _ => some (signText negative ++ "0.0")
  | .finite negative significand exponent =>
      let decimal := shortest .toEven significand exponent
      let text :=
        if -5 ≤ decimal.magnitude ∧ decimal.magnitude < 16 then decimal.positional ".0"
        else decimal.scientific
      some (signText negative ++ text)

end TokenGrammar.Binary64
