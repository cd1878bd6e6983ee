import TokenGrammar.Proofs.Arithmetic.Syntax

/-! Nesting to the left, apart from positions: it takes a chain apart and appends its operands to
another operand one by one.
-/

namespace TokenGrammar.Arithmetic

variable {kind : String} {operator : Char} {tree : Tree} {rest : List Link}

theorem kind_unplaced (tree : Tree) : (unplaced tree).kind = tree.kind := by
  cases tree
  rfl

/-- A link whose operand has no positions. -/
def unplacedLink (link : Link) : Link :=
  (link.1, unplaced link.2)

/-- The links of a chain do not depend on positions, by induction on the chain. -/
theorem linksOnto_unplaced (kind : String) (operator : Char) (rest : List Link) (tree : Tree)
    : linksOnto kind operator (rest.map unplacedLink) (unplaced tree)
      = (linksOnto kind operator rest tree).map unplacedLink := by
  by_cases hkind : tree.kind = .named kind
  · rcases tree with ⟨index, size, name, value⟩
    obtain rfl := hkind
    cases value with
    | custom node =>
        cases node with
        | binary left next right =>
            rw [linksOnto_operation, ← linksOnto_unplaced kind operator _ left,
              ← linksOnto_unplaced kind next rest right]
            exact linksOnto_operation
        | _ =>
            simp [unplaced, unplacedValue, unplacedNode, linksOnto, valueLinksOnto, nodeLinksOnto,
              unplacedLink]
    | _ => simp [unplaced, unplacedValue, linksOnto, valueLinksOnto, unplacedLink]
  · have hunplaced : (unplaced tree).kind ≠ .named kind := by
      rwa [kind_unplaced]
    rw [linksOnto_of_ne hkind, linksOnto_of_ne hunplaced]
    rfl
termination_by sizeOf tree

/-- Without positions, appended links are the links of a chain, by induction on them. -/
theorem unplaced_foldl_operation (links : List Link) (left : Tree)
    : unplaced (links.foldl (operation kind) left)
      = nested kind (unplaced left, links.map unplacedLink) := by
  induction links generalizing left with
  | nil => rfl
  | cons link links ih => exact ih (operation kind left link)

/-- Without positions, nesting to the left makes one chain of two, since links do not depend on
positions.
-/
theorem unplaced_leftNested (left right : Tree)
    : unplaced (leftNested kind left operator right)
      = nested kind (unplaced left, links kind operator (unplaced right)) := by
  have hlinks := linksOnto_unplaced kind operator [] right
  rw [leftNested, unplaced_foldl_operation]
  exact congrArg (fun links => nested kind (unplaced left, links)) hlinks.symm

/-- A chain onto other links has its own links in front of those of its first operand, since its
operands are whole.
-/
theorem linksOnto_foldl_chained (links : List Link) (first : Tree)
    (h : ∀ link ∈ links, link.2.kind ≠ .named kind)
    : linksOnto kind operator rest (links.foldl (chained kind) first)
      = linksOnto kind operator (links ++ rest) first := by
  refine linksOnto_foldl (fun left link => ⟨0, 0, rfl⟩) fun link hmem rest => ?_
  exact linksOnto_of_ne (h link hmem)

/-- All operands of the chain are operands of the level. -/
def Level.Admits (level : Level) (chain : Tree × List Link) : Prop :=
  chain.1.kind ∈ level.operands ∧ ∀ link ∈ chain.2, link.2.kind ∈ level.operands

/-- A chain that was nested is taken apart again, since no operand of it is an operation. -/
theorem links_nested {level : Level} {chain : Tree × List Link} (h : level.Admits chain)
    : links level.kind operator (nested level.kind chain)
      = (operator, chain.1) :: chain.2 := by
  obtain ⟨hfirst, hlinks⟩ := h
  have hne : ∀ link ∈ chain.2, link.2.kind ≠ .named level.kind := by
    intro link hmem
    exact Level.ne_of_mem_operands (hlinks link hmem)
  rw [links, nested, linksOnto_foldl_chained _ _ hne,
    linksOnto_of_ne (Level.ne_of_mem_operands hfirst), List.append_nil]

theorem Level.Admits.cons {level : Level} {first : Tree} {chain : Tree × List Link}
    (hfirst : first.kind ∈ level.operands) (h : level.Admits chain)
    : level.Admits (first, (operator, chain.1) :: chain.2) :=
  ⟨hfirst, List.forall_mem_cons.mpr h⟩

/-- A chain that was nested is an operation, or its only operand if there are no links. -/
theorem kind_nested {level : Level} {chain : Tree × List Link} (h : level.Admits chain)
    : (nested level.kind chain).kind ∈ level.chains := by
  have hfoldl (links : List Link) (first : Tree) (hfirst : first.kind = .named level.kind)
      : (links.foldl (chained level.kind) first).kind = .named level.kind := by
    induction links generalizing first with
    | nil => exact hfirst
    | cons link links ih => exact ih _ rfl
  rcases chain with ⟨first, _ | ⟨link, links⟩⟩
  · exact List.mem_cons_of_mem _ h.1
  · rw [nested, List.foldl_cons, hfoldl links _ rfl]
    exact List.mem_cons_self ..

theorem Atom.kind_tree (atom : Atom) : atom.tree.kind ∈ atomKinds := by
  cases atom <;> simp [Atom.tree, atomKinds]

/-- The chain of a product consists of atoms, by recursion on the product. -/
theorem Product.admits : (product : Product) → Level.product.Admits product.chain
  | .single atom => ⟨atom.kind_tree, by simp [Product.chain]⟩
  | .more atom _ _ _ rest => rest.admits.cons atom.kind_tree

/-- The chain of a sum consists of products, by recursion on the sum. -/
theorem Sum.admits : (sum : Sum) → Level.sum.Admits sum.chain
  | .single product => ⟨kind_nested product.admits, by simp [Sum.chain]⟩
  | .more product _ _ _ rest => rest.admits.cons (kind_nested product.admits)

end TokenGrammar.Arithmetic
