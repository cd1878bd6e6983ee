/-! Reading of floating-point numbers from decimal text. -/

namespace TokenGrammar.Binary64

/-- Why a text is no number. -/
inductive ReadError where
  | empty
  | malformed
  deriving DecidableEq, Repr

/-- The wording of the error. -/
def ReadError.message : ReadError → String
  | .empty => "cannot parse float from empty string"
  | .malformed => "invalid float literal"

/-- The value of decimal digits. -/
def digitsValue (digits : List Char) : Nat :=
  digits.foldl (fun value digit => value * 10 + (digit.toNat - '0'.toNat)) 0

/-- Reads the digits of an exponent with an optional sign; nothing follows them. -/
def readExponent? : List Char → Option Int
  | '-' :: digits => if isDigits digits then some (-digitsValue digits) else none
  | '+' :: digits => if isDigits digits then some (digitsValue digits) else none
  | digits => if isDigits digits then some (digitsValue digits) else none
where
  /-- There are digits and nothing else. -/
  isDigits (digits : List Char) : Bool :=
    !digits.isEmpty && digits.all Char.isDigit

/-- The floating-point number nearest to the value of the digits times a power of ten. Beyond the
range of the numbers the power does not matter, so it is not computed there.
-/
def nearest (digits : List Char) (exponent : Int) : Float :=
  let coefficient := digitsValue digits
  let leading := exponent + (digits.dropWhile (· == '0')).length
  if coefficient = 0 ∨ leading < -400 then 0.0
  else if 400 < leading then 1.0 / 0.0
  else Float.ofScientific coefficient (exponent < 0) exponent.natAbs

/-- Reads digits with an optional point among or around them and an optional exponent. -/
def readDecimal? (chars : List Char) : Option Float :=
  let (whole, rest) := chars.span Char.isDigit
  let (fraction, rest) :=
    match rest with
    | '.' :: rest => rest.span Char.isDigit
    | rest => ([], rest)
  let exponent :=
    match rest with
    | [] => some 0
    | 'e' :: rest => readExponent? rest
    | 'E' :: rest => readExponent? rest
    | _ => none
  if whole.isEmpty && fraction.isEmpty then none
  else exponent.map fun exponent => nearest (whole ++ fraction) (exponent - fraction.length)

/-- Reads the name of an infinite number or of no number, in any case. -/
def readName? (chars : List Char) : Option Float :=
  let name := String.ofList (chars.map Char.toLower)
  if name = "inf" ∨ name = "infinity" then some (1.0 / 0.0)
  else if name = "nan" then some (0.0 / 0.0)
  else none

/-- Reads a number without a sign. -/
def readUnsigned? (chars : List Char) : Option Float :=
  (readDecimal? chars).or (readName? chars)

/-- Reads a number with an optional sign. -/
def read (text : String) : Except ReadError Float :=
  let number :=
    match text.toList with
    | '-' :: rest => (readUnsigned? rest).map fun number => -number
    | '+' :: rest => readUnsigned? rest
    | chars => readUnsigned? chars
  match number with
  | some number => .ok number
  | none => .error (if text.isEmpty then .empty else .malformed)

end TokenGrammar.Binary64
