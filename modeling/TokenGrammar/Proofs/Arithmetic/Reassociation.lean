import TokenGrammar.Proofs.Arithmetic.Levels

/-! Chains that are nested anew keep their operands and operators, in their order. -/

namespace TokenGrammar.Arithmetic

-----------------------------------------------------------------------------------------
-- Operands and operators of a chain
-----------------------------------------------------------------------------------------

/-- The token is an operation of the given kind. -/
def IsOperation (kind : String) (tree : Tree) : Prop :=
  ∃ index size left operator right,
    tree = ⟨index, size, .named kind, .custom (.binary left operator right)⟩

/-- The operands of a tree of operations of one kind, from left to right. -/
def terms (kind : String) : Tree → List Tree
  | ⟨index, size, name, .custom (.binary left operator right)⟩ =>
      if name = .named kind then terms kind left ++ terms kind right
      else [⟨index, size, name, .custom (.binary left operator right)⟩]
  | tree => [tree]
termination_by tree => sizeOf tree

/-- The operators between the operands of a tree of operations of one kind. -/
def operators (kind : String) : Tree → List Char
  | ⟨_, _, name, .custom (.binary left operator right)⟩ =>
      if name = .named kind then operators kind left ++ operator :: operators kind right
      else []
  | _ => []
termination_by tree => sizeOf tree

section Chains

variable {kind : String} {tree : Tree}

theorem terms_operation {index size : Nat} {left right : Tree} {operator : Char}
    : terms kind ⟨index, size, .named kind, .custom (.binary left operator right)⟩
      = terms kind left ++ terms kind right := by
  rw [terms, if_pos rfl]

theorem operators_operation {index size : Nat} {left right : Tree} {operator : Char}
    : operators kind ⟨index, size, .named kind, .custom (.binary left operator right)⟩
      = operators kind left ++ operator :: operators kind right := by
  rw [operators, if_pos rfl]

/-- What is no operation of the kind is kept whole, by cases on its value. -/
theorem terms_of_not_isOperation (h : ¬ IsOperation kind tree) : terms kind tree = [tree] := by
  unfold terms
  split
  case h_1 index size name left operator right =>
    refine if_neg fun hname => h ?_
    exact ⟨index, size, left, operator, right, by rw [hname]⟩
  case h_2 => rfl

/-- What is no operation of the kind has no operators, by cases on its value. -/
theorem operators_of_not_isOperation (h : ¬ IsOperation kind tree)
    : operators kind tree = [] := by
  unfold operators
  split
  case h_1 index size name left operator right =>
    refine if_neg fun hname => h ?_
    exact ⟨index, size, left, operator, right, by rw [hname]⟩
  case h_2 => rfl

/-- The links in front of others are those of the whole tree, if it is no operation of the kind:
then it is a single operand.
-/
theorem linksOnto_of_not_isOperation {operator : Char} {rest : List Link}
    (h : ¬ IsOperation kind tree)
    : linksOnto kind operator rest tree = (operator, tree) :: rest := by
  obtain ⟨index, size, name, value⟩ := tree
  rw [linksOnto]
  split
  case isFalse => rfl
  case isTrue hname =>
    subst hname
    cases value with
    | custom node =>
        cases node with
        | binary left next right => exact absurd ⟨index, size, left, next, right, rfl⟩ h
        | _ => rfl
    | _ => rfl

/-- Whatever holds of all trees that are no operation of the kind, and of an operation of the kind
if it does of its operands, holds of all trees.
-/
theorem operation_induction (kind : String) {motive : Tree → Prop}
    (operand : ∀ tree, ¬ IsOperation kind tree → motive tree)
    (operation
      : ∀ index size left operator right,
          motive left → motive right
          → motive ⟨index, size, .named kind, .custom (.binary left operator right)⟩)
    (tree : Tree)
    : motive tree := by
  by_cases h : IsOperation kind tree
  · obtain ⟨index, size, left, operator, right, rfl⟩ := h
    exact operation index size left operator right
      (operation_induction kind operand operation left)
      (operation_induction kind operand operation right)
  · exact operand tree h
termination_by sizeOf tree

/-- There is one operand more than there are operators, by induction on the operations of the
kind.
-/
theorem length_terms (tree : Tree)
    : (terms kind tree).length = (operators kind tree).length + 1 := by
  induction tree using operation_induction kind with
  | operand tree h => rw [terms_of_not_isOperation h, operators_of_not_isOperation h]; rfl
  | operation index size left operator right ihLeft ihRight =>
      rw [terms_operation, operators_operation, List.length_append, List.length_append,
        List.length_cons, ihLeft, ihRight]
      omega

/-- Operands of the kind are never operations of the kind themselves, by induction on these. -/
theorem not_isOperation_of_mem_terms (tree : Tree)
    : ∀ term ∈ terms kind tree, ¬ IsOperation kind term := by
  induction tree using operation_induction kind with
  | operand tree h =>
      rw [terms_of_not_isOperation h]
      intro term hterm
      rw [List.mem_singleton.mp hterm]
      exact h
  | operation index size left operator right ihLeft ihRight =>
      rw [terms_operation]
      intro term hterm
      rcases List.mem_append.mp hterm with hleft | hright
      · exact ihLeft term hleft
      · exact ihRight term hright

/-- The links of a tree pair its operators with its operands and drop none, since each operand
has its operator: the first one has that in front of the tree. By induction on the operations of
the kind.
-/
theorem linksOnto_eq (tree : Tree) (operator : Char) (rest : List Link)
    : linksOnto kind operator rest tree
      = (operator :: operators kind tree).zip (terms kind tree) ++ rest := by
  induction tree using operation_induction kind generalizing operator rest with
  | operand tree h =>
      rw [linksOnto_of_not_isOperation h, terms_of_not_isOperation h,
        operators_of_not_isOperation h]
      rfl
  | operation index size left next right ihLeft ihRight =>
      have hlength : (operator :: operators kind left).length = (terms kind left).length := by
        rw [length_terms, List.length_cons]
      rw [linksOnto_operation, ihRight, ihLeft,
        terms_operation, operators_operation, ← List.cons_append, List.zip_append hlength,
        List.append_assoc]

theorem links_eq (tree : Tree) (operator : Char)
    : links kind operator tree
      = (operator :: operators kind tree).zip (terms kind tree) := by
  rw [links, linksOnto_eq, List.append_nil]

end Chains

-----------------------------------------------------------------------------------------
-- Spines
-----------------------------------------------------------------------------------------

/-- Operations of a kind that are nested to the left above a first operand, with these operators
and further operands. Each starts where the first operand starts and ends where its own right
operand does, and no right operand is an operation of the kind.
-/
inductive Spine (kind : String) (first : Tree) : List Char → List Tree → Tree → Prop where
  | nil : Spine kind first [] [] first
  | snoc {signs : List Char} {operands : List Tree} {left right : Tree} {sign : Char}
      {size : Nat}
      (earlier : Spine kind first signs operands left)
      (whole : ¬ IsOperation kind right)
      (ends : first.index + size = right.stop)
      : Spine kind first (signs ++ [sign]) (operands ++ [right])
          ⟨first.index, size, .named kind, .custom (.binary left sign right)⟩

namespace Spine

variable {kind : String} {first tree : Tree} {signs : List Char} {operands : List Tree}

/-- A spine starts where its first operand does, since each operation of it does. -/
theorem index_eq (h : Spine kind first signs operands tree) : tree.index = first.index := by
  cases h with
  | nil => rfl
  | snoc => rfl

/-- The operands of a spine are those of its first operand and its further ones, by induction on
it.
-/
theorem terms_eq (h : Spine kind first signs operands tree)
    : terms kind tree = terms kind first ++ operands := by
  induction h with
  | nil => rw [List.append_nil]
  | snoc _ whole _ ih =>
      rw [terms_operation, ih, terms_of_not_isOperation whole, List.append_assoc]

/-- The operators of a spine are those of its first operand and its own, by induction on it. -/
theorem operators_eq (h : Spine kind first signs operands tree)
    : operators kind tree = operators kind first ++ signs := by
  induction h with
  | nil => rw [List.append_nil]
  | snoc _ whole _ ih =>
      rw [operators_operation, ih, operators_of_not_isOperation whole, List.append_assoc]

/-- One more operation continues a spine, if its right operand does not end in front of it. -/
theorem operation (h : Spine kind first signs operands tree) {sign : Char} {right : Tree}
    (whole : ¬ IsOperation kind right) (hle : first.index ≤ right.stop)
    : Spine kind first (signs ++ [sign]) (operands ++ [right])
        (operation kind tree (sign, right)) := by
  rw [Arithmetic.operation, h.index_eq]
  exact .snoc h whole (Nat.add_sub_cancel' hle)

/-- Appending operands one by one continues a spine, by induction on the operators that are left. -/
theorem foldl {nextSigns : List Char} {nextOperands : List Tree}
    (h : Spine kind first signs operands tree)
    (hlength : nextSigns.length = nextOperands.length)
    (hterms
      : ∀ term ∈ nextOperands, ¬ IsOperation kind term ∧ first.index ≤ term.stop)
    : Spine kind first (signs ++ nextSigns) (operands ++ nextOperands)
        ((nextSigns.zip nextOperands).foldl (Arithmetic.operation kind) tree) := by
  induction nextSigns generalizing signs operands tree nextOperands with
  | nil =>
      obtain rfl := List.length_eq_zero_iff.mp hlength.symm
      simpa using h
  | cons sign nextSigns ih =>
      cases nextOperands with
      | nil => contradiction
      | cons right nextOperands =>
          obtain ⟨whole, hle⟩ := hterms right List.mem_cons_self
          rw [List.append_cons signs, List.append_cons operands]
          exact ih (h.operation whole hle) (Nat.succ.inj hlength) fun term hterm =>
            hterms term (List.mem_cons_of_mem right hterm)

end Spine

/-- Appending a chain to a first operand gives operations of the kind that are nested to the left
above this operand, and keeps the operands and the operators of both, in their order. What is no
operation of the kind counts as a single operand. No span may end in front of the first operand.
-/
theorem leftNested_keeps_chain {kind : String} {left right : Tree} {operator : Char}
    (h : ∀ term ∈ terms kind right, left.index ≤ term.stop)
    : Spine kind left (operator :: operators kind right) (terms kind right)
          (leftNested kind left operator right)
      ∧ terms kind (leftNested kind left operator right)
          = terms kind left ++ terms kind right
      ∧ operators kind (leftNested kind left operator right)
          = operators kind left ++ operator :: operators kind right
      ∧ ∀ tree, ¬ IsOperation kind tree → terms kind tree = [tree] ∧ operators kind tree = [] := by
  have hspine
      : Spine kind left (operator :: operators kind right) (terms kind right)
          (leftNested kind left operator right) := by
    have hlength : (operator :: operators kind right).length = (terms kind right).length := by
      rw [length_terms, List.length_cons]
    rw [leftNested, links_eq]
    exact Spine.nil.foldl hlength fun term hterm =>
      ⟨not_isOperation_of_mem_terms right term hterm, h term hterm⟩
  refine ⟨hspine, hspine.terms_eq, hspine.operators_eq, fun tree htree => ?_⟩
  exact ⟨terms_of_not_isOperation htree, operators_of_not_isOperation htree⟩

/-- In `(a - b - c)`, the chain `b - c` is appended to `a`. -/
theorem difference_keeps_chain
    : let name (index : Nat) (text : String) : Tree :=
        ⟨index, 1, .named "identifier", .text text⟩
      let right : Tree := ⟨5, 5, .named "add", .custom (.binary (name 5 "b") '-' (name 9 "c"))⟩
      (∀ term ∈ terms "add" right, (name 1 "a").index ≤ term.stop)
      ∧ (leftNested "add" (name 1 "a") '-' right).stop = 10
      ∧ Spine "add" (name 1 "a") ['-', '-'] [name 5 "b", name 9 "c"]
          (leftNested "add" (name 1 "a") '-' right) := by
  intro name right
  have hname (index : Nat) (text : String) : ¬ IsOperation "add" (name index text) := by
    simp [name, IsOperation]
  have hterms : terms "add" right = [name 5 "b", name 9 "c"] := by
    simp only [right, terms_operation, terms_of_not_isOperation (hname _ _), List.cons_append,
      List.nil_append]
  have hoperators : operators "add" right = ['-'] := by
    simp only [right, operators_operation, operators_of_not_isOperation (hname _ _),
      List.nil_append]
  have hstops : ∀ term ∈ terms "add" right, (name 1 "a").index ≤ term.stop := by
    simp [hterms, name, Token.stop]
  obtain ⟨hspine, -⟩ := @leftNested_keeps_chain "add" (name 1 "a") right '-' hstops
  rw [hterms, hoperators] at hspine
  exact ⟨hstops, rfl, hspine⟩

end TokenGrammar.Arithmetic
