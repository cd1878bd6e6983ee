/-! Padding of a text with blanks to a width in characters. A text that is as wide already stays
as it is.
-/

namespace TokenGrammar

/-- So many blanks. -/
def blanks (count : Nat) : String :=
  String.ofList (List.replicate count ' ')

/-- Pads before the text. -/
def alignRight (width : Nat) (text : String) : String :=
  blanks (width - text.length) ++ text

/-- Pads after the text. -/
def alignLeft (width : Nat) (text : String) : String :=
  text ++ blanks (width - text.length)

/-- Pads on both sides, with the odd blank after the text. -/
def alignCenter (width : Nat) (text : String) : String :=
  let missing := width - text.length
  blanks (missing / 2) ++ text ++ blanks (missing - missing / 2)

end TokenGrammar
