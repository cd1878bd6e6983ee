import TokenGrammar.Arithmetic.Basic

/-! Chains of operations of one kind. A grammar without left recursion reads them nested to the
right; they are nested to the left here, so that subtraction and division come out right.
-/

namespace TokenGrammar.Arithmetic

/-- An operator and the operand that follows it. -/
abbrev Link := Char × Tree

mutual

/-- The links of a tree in front of other links. What is no operation of this kind is a single
operand.
-/
def linksOnto (kind : String) (operator : Char) (rest : List Link) : Tree → List Link
  | ⟨index, size, name, value⟩ =>
      if name = .named kind then
        valueLinksOnto kind operator ⟨index, size, name, value⟩ rest value
      else (operator, ⟨index, size, name, value⟩) :: rest

/-- The links of a whole tree with this value, if it is an operation. -/
def valueLinksOnto (kind : String) (operator : Char) (whole : Tree) (rest : List Link)
    : Value Node → List Link
  | .custom node => nodeLinksOnto kind operator whole rest node
  | _ => (operator, whole) :: rest

/-- The links of a whole tree with these data: those of the left operand, then those of the
right one.
-/
def nodeLinksOnto (kind : String) (operator : Char) (whole : Tree) (rest : List Link)
    : Node → List Link
  | .binary left next right => linksOnto kind operator (linksOnto kind next rest right) left
  | _ => (operator, whole) :: rest

end

/-- The operands of a chain of this kind, each with the operator in front of it; the given
operator stands in front of the first.
-/
def links (kind : String) (operator : Char) (tree : Tree) : List Link :=
  linksOnto kind operator [] tree

/-- The operation on a tree and the operand of a link, from the start of the one to the end of
the other.
-/
def operation (kind : String) (left : Tree) (link : Link) : Tree :=
  { index := left.index
    size := link.2.stop - left.index
    kind := .named kind
    value := .custom (.binary left link.1 link.2) }

/-- The operation on two operands of which the second may be a chain of the same kind: all its
operands are appended to the first one by one.
-/
def leftNested (kind : String) (left : Tree) (operator : Char) (right : Tree) : Tree :=
  (links kind operator right).foldl (operation kind) left

end TokenGrammar.Arithmetic
