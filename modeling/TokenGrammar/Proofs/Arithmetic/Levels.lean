import TokenGrammar.Arithmetic.Grammar

/-! The two levels of operations in arithmetic expressions, and the links of chains. -/

namespace TokenGrammar.Arithmetic

open Regex (CharSet)

/-- The kinds of atoms. -/
def atomKinds : List Kind :=
  [.named "number", .named "identifier", .named "paren"]

/-- What may follow an expression, apart from white space. -/
def closers : List Char :=
  [')']

/-- The two levels of operations: sums of products and products of atoms. -/
inductive Level where
  | sum
  | product
  deriving DecidableEq, Repr

namespace Level

/-- The kind of the operations. -/
def kind : Level → String
  | sum => "add"
  | product => "mul"

/-- The operators of the operations. -/
def operators : Level → List Char
  | sum => ['-', '+']
  | product => ['*', '/', '%']

/-- The pattern of the operators. -/
def pattern : Level → Pattern
  | sum => sumPattern
  | product => productPattern

/-- The set that the pattern uses. -/
def signs : Level → CharSet
  | sum => .union (.single '-') (.single '+')
  | product => .union (.union (.single '*') (.single '/')) (.single '%')

/-- What may follow a chain of the level, apart from white space. -/
def followers : Level → List Char
  | sum => '=' :: closers
  | product => ('=' :: closers) ++ sum.operators

/-- The kinds of the operands that a chain of the level consists of. -/
def operands : Level → List Kind
  | sum => .named "mul" :: atomKinds
  | product => atomKinds

/-- The kinds of a whole chain: that of an operation, or those of a single operand. -/
def chains (level : Level) : List Kind :=
  .named level.kind :: level.operands

/-- No atom is an operation, by cases on the level. -/
theorem ne_of_mem_atomKinds (level : Level) {kind : Kind} (h : kind ∈ atomKinds)
    : kind ≠ .named level.kind := by
  have hall : ∀ other ∈ atomKinds, other ≠ .named level.kind := by
    cases level <;> decide
  exact hall kind h

/-- No operand of a level is an operation of it, by cases on the level. -/
theorem ne_of_mem_operands {level : Level} {kind : Kind} (h : kind ∈ level.operands)
    : kind ≠ .named level.kind := by
  have hall : ∀ other ∈ level.operands, other ≠ .named level.kind := by
    cases level <;> decide
  exact hall kind h

/-- What may follow a chain is none of its operators, by evaluation for both levels. -/
theorem not_mem_operators_of_mem_followers {level : Level} {char : Char}
    (h : char ∈ level.followers)
    : char ∉ level.operators := by
  have hall : level.followers.all fun other => !level.operators.contains other := by
    cases level <;> rfl
  simpa using List.all_eq_true.mp hall char h

theorem assignment_not_mem_chains (level : Level) : .named "assignment" ∉ level.chains := by
  cases level <;> decide

end Level

section Links

variable {kind : String} {operator : Char} {tree : Tree} {rest : List Link}

theorem linksOnto_of_ne (h : tree.kind ≠ .named kind)
    : linksOnto kind operator rest tree = (operator, tree) :: rest := by
  rcases tree with ⟨index, size, name, value⟩
  rw [linksOnto, if_neg h]

/-- An operation of the kind has the links of its left operand, and then those of its right one.
-/
theorem linksOnto_operation {index size : Nat} {left right : Tree} {next : Char}
    : linksOnto kind operator rest
        ⟨index, size, .named kind, .custom (.binary left next right)⟩
      = linksOnto kind operator (linksOnto kind next rest right) left := by
  rw [linksOnto, if_pos rfl, valueLinksOnto, nodeLinksOnto]

/-- Operands that are appended one by one, and that are whole themselves, are the last links of
the chain, by induction on them. Where the operations stand does not matter.
-/
theorem linksOnto_foldl {step : Tree → Link → Tree} {links : List Link} {first : Tree}
    (hstep
      : ∀ left link,
          ∃ index size,
            step left link = ⟨index, size, .named kind, .custom (.binary left link.1 link.2)⟩)
    (hwhole : ∀ link ∈ links, ∀ rest, linksOnto kind link.1 rest link.2 = link :: rest)
    : linksOnto kind operator rest (links.foldl step first)
      = linksOnto kind operator (links ++ rest) first := by
  induction links generalizing first with
  | nil => rfl
  | cons link links ih =>
      obtain ⟨hlink, hothers⟩ := List.forall_mem_cons.mp hwhole
      obtain ⟨index, size, heq⟩ := hstep first link
      rw [List.foldl_cons, ih hothers, heq, linksOnto_operation, hlink, List.cons_append]

end Links

end TokenGrammar.Arithmetic
