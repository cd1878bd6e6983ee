import Mathlib.Data.List.TakeDrop
import TokenGrammar.Proofs.Arithmetic.Patterns

/-! Abstract arithmetic expressions: how they are written down, with any white space between their
parts, and the tree that each of them stands for, apart from positions.
-/

namespace TokenGrammar.Arithmetic

/-- Any amount of white space. -/
structure Blank where
  chars : List Char
  isBlank : IsBlank chars

/-- Decimal digits, at least one. -/
structure Digits where
  chars : List Char
  ne_nil : chars ≠ []
  isDigit : ∀ char ∈ chars, char.isDigit

/-- A decimal literal: digits, perhaps with a fraction. -/
structure Numeral where
  whole : Digits
  fraction : Option Digits

/-- A letter or an underscore, then letters, underscores and digits. -/
structure Name where
  head : Char
  tail : List Char
  head_isStart : head.isAlpha ∨ head = '_'
  tail_isPart : ∀ char ∈ tail, char.isAlphanum ∨ char = '_'

/-- An operator of the level. -/
structure Operator (level : Level) where
  sign : Char
  mem_operators : sign ∈ level.operators

mutual

/-- An assignment or a sum. -/
inductive Expression where
  | assignment (name : Name) (before after : Blank) (right : Expression)
  | sum (sum : Sum)

/-- Products with operators between them. -/
inductive Sum where
  | single (product : Product)
  | more (product : Product) (before : Blank) (operator : Operator .sum) (after : Blank)
    (rest : Sum)

/-- Atoms with operators between them. -/
inductive Product where
  | single (atom : Atom)
  | more (atom : Atom) (before : Blank) (operator : Operator .product) (after : Blank)
    (rest : Product)

/-- A literal, a name, or an expression in parentheses, of which each has white space on both of
its sides.
-/
inductive Atom where
  | numeral (numeral : Numeral)
  | name (name : Name)
  | paren (outside inside : Blank) (inner : Expression) (inside' outside' : Blank)

end

/-- The characters of a literal. -/
def Numeral.render (numeral : Numeral) : List Char :=
  numeral.whole.chars
  ++ match numeral.fraction with
    | none => []
    | some digits => '.' :: digits.chars

/-- The characters of a name. -/
def Name.render (name : Name) : List Char :=
  name.head :: name.tail

mutual

/-- The characters of an expression. -/
def Expression.render : Expression → List Char
  | .assignment name before after right =>
      name.render ++ before.chars ++ '=' :: (after.chars ++ right.render)
  | .sum sum => sum.render

/-- The characters of a sum. -/
def Sum.render : Sum → List Char
  | .single product => product.render
  | .more product before operator after rest =>
      product.render ++ before.chars ++ operator.sign :: (after.chars ++ rest.render)

/-- The characters of a product. -/
def Product.render : Product → List Char
  | .single atom => atom.render
  | .more atom before operator after rest =>
      atom.render ++ before.chars ++ operator.sign :: (after.chars ++ rest.render)

/-- The characters of an atom. -/
def Atom.render : Atom → List Char
  | .numeral numeral => numeral.render
  | .name name => name.render
  | .paren outside inside inner inside' outside' =>
      outside.chars
      ++ '(' :: (inside.chars ++ inner.render ++ inside'.chars ++ ')' :: outside'.chars)

end

/-- There is a first digit, since there is at least one. -/
theorem Digits.exists_cons (digits : Digits)
    : ∃ first others,
        digits.chars = first :: others
        ∧ first.isDigit
        ∧ ∀ char ∈ others, char.isDigit := by
  obtain ⟨first, others, hchars⟩ := List.exists_cons_of_ne_nil digits.ne_nil
  have hdigits := digits.isDigit
  rw [hchars, List.forall_mem_cons] at hdigits
  exact ⟨first, others, hchars, hdigits.1, hdigits.2⟩

/-- Digits are what comes in front of the first character that is none. -/
theorem Digits.span_isDigit (digits : Digits) {rest : List Char}
    (hrest : ∀ char ∈ rest.head?, ¬ char.isDigit)
    : (digits.chars ++ rest).span Char.isDigit = (digits.chars, rest) := by
  rw [List.span_eq_takeWhile_dropWhile, List.takeWhile_append_of_pos digits.isDigit,
    List.dropWhile_append_of_pos digits.isDigit]
  cases rest with
  | nil => simp
  | cons char rest =>
      have hchar := hrest char rfl
      simp [hchar]

theorem Digits.span_isDigit_self (digits : Digits)
    : digits.chars.span Char.isDigit = (digits.chars, []) := by
  have hspan : (digits.chars ++ []).span Char.isDigit = (digits.chars, []) :=
    digits.span_isDigit (by simp)
  rwa [List.append_nil] at hspan

theorem Numeral.exists_digit (numeral : Numeral)
    : ∃ first more, numeral.render = first :: more ∧ first.isDigit := by
  obtain ⟨first, others, hchars, hfirst, -⟩ := numeral.whole.exists_cons
  exact ⟨first, _, by rw [Numeral.render, hchars, List.cons_append], hfirst⟩

/-- A literal is the text of a floating-point number, by cases on whether it has a fraction. -/
theorem Numeral.exists_read (numeral : Numeral)
    : ∃ value, Binary64.read (String.ofList numeral.render) = .ok value := by
  have hdecimal : ∃ value, Binary64.readDecimal? numeral.render = some value := by
    rcases numeral with ⟨whole, fraction⟩
    cases fraction with
    | none =>
        simp only [render, List.append_nil, Binary64.readDecimal?, whole.span_isDigit_self]
        simp [whole.ne_nil]
    | some digits =>
        have hspan
            : (whole.chars ++ '.' :: digits.chars).span Char.isDigit
              = (whole.chars, '.' :: digits.chars) :=
          whole.span_isDigit (by simp)
        simp only [render, Binary64.readDecimal?, hspan, digits.span_isDigit_self]
        simp [whole.ne_nil]
  obtain ⟨value, hvalue⟩ := hdecimal
  obtain ⟨first, others, hchars, hfirst, -⟩ := numeral.whole.exists_cons
  have hrender : ∃ more, numeral.render = first :: more := by
    simp [render, hchars]
  obtain ⟨more, hmore⟩ := hrender
  have hminus : first ≠ '-' := by
    intro h
    subst h
    contradiction
  have hplus : first ≠ '+' := by
    intro h
    subst h
    contradiction
  refine ⟨value, ?_⟩
  rw [hmore] at hvalue ⊢
  simp [Binary64.read, Binary64.readUnsigned?, hvalue, hminus, hplus]

/-- The number that the characters of a literal are read as. -/
def Numeral.value (numeral : Numeral) : Float :=
  (Binary64.read (String.ofList numeral.render)).toOption.get <| by
    obtain ⟨value, hvalue⟩ := numeral.exists_read
    simp [hvalue, Except.toOption]

/-- The text of a literal is read as its number. -/
theorem Numeral.read_render (numeral : Numeral)
    : Binary64.read (String.ofList numeral.render) = .ok numeral.value := by
  obtain ⟨value, hvalue⟩ := numeral.exists_read
  simp [Numeral.value, hvalue, Except.toOption]

/-- The operation on a tree and the operand of a link, without a position. -/
def chained (kind : String) (left : Tree) (link : Link) : Tree :=
  ⟨0, 0, .named kind, .custom (.binary left link.1 link.2)⟩

/-- The operations on a first operand and those of the links, nested to the left. Without links,
that is the first operand.
-/
def nested (kind : String) (chain : Tree × List Link) : Tree :=
  chain.2.foldl (chained kind) chain.1

mutual

/-- The tree that an expression stands for, without positions. -/
def Expression.tree : Expression → Tree
  | .assignment name _ _ right =>
      ⟨0, 0, .named "assignment",
        .custom (.assignment (String.ofList name.render) right.tree)⟩
  | .sum sum => nested "add" sum.chain

/-- The tree of the first product of a sum, and links to those of the others. -/
def Sum.chain : Sum → Tree × List Link
  | .single product => (nested "mul" product.chain, [])
  | .more product _ operator _ rest =>
      (nested "mul" product.chain, (operator.sign, rest.chain.1) :: rest.chain.2)

/-- The tree of the first atom of a product, and links to those of the others. -/
def Product.chain : Product → Tree × List Link
  | .single atom => (atom.tree, [])
  | .more atom _ operator _ rest =>
      (atom.tree, (operator.sign, rest.chain.1) :: rest.chain.2)

/-- The tree that an atom stands for. -/
def Atom.tree : Atom → Tree
  | .numeral numeral => ⟨0, 0, .named "number", .custom (.number numeral.value)⟩
  | .name name => ⟨0, 0, .named "identifier", .text (String.ofList name.render)⟩
  | .paren _ _ inner _ _ => ⟨0, 0, .named "paren", .token inner.tree⟩

end

mutual

/-- The tree with all positions erased. -/
def unplaced : Tree → Tree
  | ⟨_, _, kind, value⟩ => ⟨0, 0, kind, unplacedValue value⟩

/-- The value with the positions in its tokens erased. -/
def unplacedValue : Value Node → Value Node
  | .token content => .token (unplaced content)
  | .tokens content => .tokens (unplacedTokens content)
  | .custom content => .custom (unplacedNode content)
  | .none => .none
  | .text content => .text content
  | .groups content => .groups content

/-- The trees with all positions erased. -/
def unplacedTokens : List Tree → List Tree
  | [] => []
  | tree :: rest => unplaced tree :: unplacedTokens rest

/-- The data with the positions in its tokens erased. -/
def unplacedNode : Node → Node
  | .number value => .number value
  | .binary left operator right => .binary (unplaced left) operator (unplaced right)
  | .assignment name right => .assignment name (unplaced right)

end

end TokenGrammar.Arithmetic
