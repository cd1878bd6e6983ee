import TokenGrammar.Proofs.Arithmetic.Steps

/-! Every abstract expression, with any white space between its parts, is read as the tree that it
stands for, by induction on the expression.
-/

namespace TokenGrammar.Arithmetic

variable {source : Source} {index depth : Nat} {rest : List Char}

/-- The rules that fail before the rule that reads a product. -/
def Product.skipped : Product → List Rule
  | .single _ => [.product]
  | .more .. => []

/-- The rule that reads a product. -/
def Product.rule : Product → Rule
  | .single _ => .atom
  | .more .. => .product

/-- The rules that fail before the rule that reads a sum. -/
def Sum.skipped : Sum → List Rule
  | .single product => .sum :: product.skipped
  | .more .. => []

/-- The rule that reads a sum. -/
def Sum.rule : Sum → Rule
  | .single product => product.rule
  | .more .. => .sum

/-- The rule that reads a product is one of those that are tried for it, behind the skipped
ones.
-/
theorem Product.exists_later (product : Product)
    : ∃ later, [.product, .atom] = product.skipped ++ product.rule :: later := by
  cases product with
  | single => exact ⟨[], rfl⟩
  | more => exact ⟨[.atom], rfl⟩

/-- The rule that reads a sum is one of those that are tried for it, behind the skipped ones. -/
theorem Sum.exists_later (sum : Sum)
    : ∃ later, [.sum, .product, .atom] = sum.skipped ++ sum.rule :: later := by
  cases sum with
  | single product =>
      obtain ⟨later, hlater⟩ := product.exists_later
      exact ⟨later, by rw [hlater]; rfl⟩
  | more => exact ⟨[.product, .atom], rfl⟩

/-- A single atom is no product, because no operator of products follows it. -/
theorem single_product_selects {atom : Atom} (hfollows : Follows Level.product.followers rest)
    (hlower : Completes source (language.rule depth .atom) index rest atom.tree)
    (hupper : Completes source (language.rule (depth + 1) .atom) index rest atom.tree)
    : Selects source (depth + 1) index rest (Product.single atom).skipped
        (Product.single atom).rule (nested "mul" (Product.single atom).chain) := by
  have hrejects : Rejects source (language.rule (depth + 1) .product) index := by
    rw [rule_product]
    exact binary_rejects hlower hfollows
  exact ⟨by simpa [Product.skipped] using hrejects, hupper⟩

/-- A single product is no sum, because no operator of sums follows it. -/
theorem single_sum_selects {product : Product} (hfollows : Follows Level.sum.followers rest)
    (hlower
      : Selects source depth index rest product.skipped product.rule
          (nested "mul" product.chain))
    (hupper
      : Selects source (depth + 1) index rest product.skipped product.rule
          (nested "mul" product.chain))
    : Selects source (depth + 1) index rest (Sum.single product).skipped
        (Sum.single product).rule (nested "add" (Sum.single product).chain) := by
  obtain ⟨later, hlater⟩ := product.exists_later
  have hrejects : Rejects source (language.rule (depth + 1) .sum) index := by
    rw [rule_sum]
    exact binary_rejects (hlower.choice hlater) hfollows
  exact ⟨List.forall_mem_cons.mpr ⟨hrejects, hupper.rejects⟩, hupper.completes⟩

/-- A name in front of an assignment is no product and no sum, because the sign of an assignment
is an operator of neither.
-/
theorem name_selects {name : Name} (hfollows : Follows Level.sum.followers rest)
    (hstart : Starts source index (name.render ++ rest))
    : Selects source (depth + 4) index rest [.sum, .product] .atom (Atom.name name).tree := by
  have hproduct : Follows Level.product.followers rest := hfollows.product_of_sum
  have hmarks : Follows marks rest := hproduct.marks_of_product
  have hatom (depth : Nat)
      : Completes source (language.rule (depth + 2) .atom) index rest (Atom.name name).tree :=
    name_completes hmarks hstart
  exact single_sum_selects hfollows
    (single_product_selects hproduct (hatom depth) (hatom (depth + 1)))
    (single_product_selects hproduct (hatom (depth + 1)) (hatom (depth + 2)))

/-- A factor that is no assignment is an atom, because no sign of an assignment follows it. -/
theorem factor_completes {atom : Atom} (hfollows : Follows closers rest)
    (hstart : Starts source index (atom.render ++ rest))
    (hatom : Completes source (language.rule (depth + 2) .atom) index rest atom.tree)
    : Completes source (language.rule (depth + 3) .factor) index rest atom.tree := by
  have hselects : Selects source (depth + 2) index rest [.assignment] .atom atom.tree :=
    ⟨by simpa using assignment_rejects atom hfollows hstart, hatom⟩
  rw [rule_factor]
  exact hselects.choice rfl

mutual

/-- An expression is read as the tree that it stands for, by mutual recursion on the expression
with its sums, products and atoms. The depth suffices because each of them stands further on in
the source or is read by a lower rule.
-/
theorem Expression.completes (expression : Expression) {source : Source} {depth index : Nat}
    {rest : List Char} (hfollows : Follows closers rest)
    (hstart : Starts source index (expression.render ++ rest))
    (hdepth : 9 * (source.size - index) + 5 ≤ depth)
    : Completes source (language.rule depth .expression) index rest expression.tree := by
  obtain ⟨depth, rfl⟩ := Nat.exists_eq_add_of_le' (Nat.le_trans (Nat.le_add_left ..) hdepth)
  rw [rule_expression]
  cases expression with
  | assignment name before after right =>
      simp only [Expression.render, List.append_assoc, List.cons_append] at hstart
      have hsum
          : Follows Level.sum.followers
              (before.chars ++ '=' :: (after.chars ++ (right.render ++ rest))) :=
        follows_cons before.isBlank (by decide) (by decide)
      have hassignment
          : Completes source (language.rule (depth + 3) .assignment) index rest
              (Expression.assignment name before after right).tree := by
        refine assignment_completes ?_ hstart
        intro offset hlt hoffset
        have hsize := le_size_of_starts hoffset
        exact right.completes hfollows hoffset (by omega)
      have hfactor
          : Selects source (depth + 3) index rest [] .assignment
              (Expression.assignment name before after right).tree :=
        ⟨by simp, hassignment⟩
      have hselects
          : Selects source (depth + 4) index rest [.sum, .product] .factor
              (Expression.assignment name before after right).tree := by
        refine ⟨(name_selects hsum hstart).rejects, ?_⟩
        rw [rule_factor]
        exact hfactor.choice rfl
      exact hselects.choice rfl
  | sum sum =>
      have hsum : Follows Level.sum.followers rest := hfollows.sum_of_closers
      have hselects
          : Selects source (depth + 4) index rest sum.skipped sum.rule
              (nested "add" sum.chain) :=
        sum.selects hsum hstart (by omega)
      cases sum with
      | more => exact hselects.choice rfl
      | single product =>
          cases product with
          | more => exact hselects.choice rfl
          | single atom =>
              have hmarks : Follows marks rest := hsum.product_of_sum.marks_of_product
              have hatom
                  : Completes source (language.rule (depth + 3) .atom) index rest atom.tree :=
                atom.completes hmarks hstart (by omega)
              have hfactor
                  : Selects source (depth + 4) index rest [.sum, .product] .factor atom.tree :=
                ⟨hselects.rejects, factor_completes hfollows hstart hatom⟩
              exact hfactor.choice rfl
termination_by sizeOf expression

/-- A sum is read by its rule: a single product by that of the product, and more of them as an
operation whose right side is a sum again.
-/
theorem Sum.selects (sum : Sum) {source : Source} {depth index : Nat} {rest : List Char}
    (hfollows : Follows Level.sum.followers rest)
    (hstart : Starts source index (sum.render ++ rest))
    (hdepth : 9 * (source.size - index) + 4 ≤ depth)
    : Selects source depth index rest sum.skipped sum.rule (nested "add" sum.chain) := by
  obtain ⟨depth, rfl⟩ := Nat.exists_eq_add_of_le' (Nat.le_trans (Nat.le_add_left ..) hdepth)
  cases sum with
  | single product =>
      have hproduct : Follows Level.product.followers rest := hfollows.product_of_sum
      exact single_sum_selects hfollows (product.selects hproduct hstart (by omega))
        (product.selects hproduct hstart (by omega))
  | more product before operator after others =>
      simp only [Sum.render, List.append_assoc, List.cons_append] at hstart
      have hproduct
          : Selects source (depth + 3) index
              (before.chars ++ operator.sign :: (after.chars ++ (others.render ++ rest)))
              product.skipped product.rule (nested "mul" product.chain) :=
        product.selects (follows_sum_operator before.isBlank operator) hstart (by omega)
      obtain ⟨later, hlater⟩ := product.exists_later
      obtain ⟨later', hlater'⟩ := others.exists_later
      refine ⟨by simp [Sum.skipped], ?_⟩
      rw [Sum.rule, rule_sum]
      refine binary_completes (soundWithin source _).sums others.admits
        operator.mem_operators before.isBlank (hproduct.choice hlater) ?_
      intro offset hlt hoffset
      rw [starts_append_iff after.isBlank] at hoffset
      have hsize := le_size_of_starts hoffset
      exact (others.selects hfollows hoffset (by omega)).choice hlater'
termination_by sizeOf sum

/-- A product is read by its rule: a single atom by that of atoms, and more of them as an
operation whose right side is a product again.
-/
theorem Product.selects (product : Product) {source : Source} {depth index : Nat}
    {rest : List Char} (hfollows : Follows Level.product.followers rest)
    (hstart : Starts source index (product.render ++ rest))
    (hdepth : 9 * (source.size - index) + 3 ≤ depth)
    : Selects source depth index rest product.skipped product.rule
        (nested "mul" product.chain) := by
  obtain ⟨depth, rfl⟩ := Nat.exists_eq_add_of_le' (Nat.le_trans (Nat.le_add_left ..) hdepth)
  cases product with
  | single atom =>
      have hmarks : Follows marks rest := hfollows.marks_of_product
      exact single_product_selects hfollows (atom.completes hmarks hstart (by omega))
        (atom.completes hmarks hstart (by omega))
  | more atom before operator after others =>
      simp only [Product.render, List.append_assoc, List.cons_append] at hstart
      have hatom
          : Completes source (language.rule (depth + 2) .atom) index
              (before.chars ++ operator.sign :: (after.chars ++ (others.render ++ rest)))
              atom.tree :=
        atom.completes (follows_product_operator before.isBlank operator) hstart (by omega)
      obtain ⟨later, hlater⟩ := others.exists_later
      refine ⟨by simp [Product.skipped], ?_⟩
      rw [Product.rule, rule_product]
      refine binary_completes (soundWithin source _).products others.admits
        operator.mem_operators before.isBlank hatom ?_
      intro offset hlt hoffset
      rw [starts_append_iff after.isBlank] at hoffset
      have hsize := le_size_of_starts hoffset
      exact (others.selects hfollows hoffset (by omega)).choice hlater
termination_by sizeOf product

/-- An atom is read by its rule: literals and names by their patterns, and a parenthesis as the
expression between its marks.
-/
theorem Atom.completes (atom : Atom) {source : Source} {depth index : Nat} {rest : List Char}
    (hfollows : Follows marks rest) (hstart : Starts source index (atom.render ++ rest))
    (hdepth : 9 * (source.size - index) + 2 ≤ depth)
    : Completes source (language.rule depth .atom) index rest atom.tree := by
  obtain ⟨depth, rfl⟩ := Nat.exists_eq_add_of_le' (Nat.le_trans (Nat.le_add_left ..) hdepth)
  cases atom with
  | numeral numeral => exact numeral_completes hfollows hstart
  | name name => exact name_completes hfollows hstart
  | paren outside inside inner inside' outside' =>
      simp only [Atom.render, List.append_assoc, List.cons_append,
        starts_append_iff outside.isBlank] at hstart
      have hparen
          : Completes source (language.rule (depth + 1) .paren) index rest
              (Atom.paren outside inside inner inside' outside').tree := by
        refine paren_completes ?_ hstart
        intro offset hlt hinner
        have hsize := le_size_of_starts hinner
        refine inner.completes ?_ hinner (by omega)
        exact follows_cons inside'.isBlank (by decide) (by decide)
      have hselects
          : Selects source (depth + 1) index rest [.number, .identifier] .paren
              (Atom.paren outside inside inner inside' outside').tree :=
        ⟨by simp [number_rejects_paren hstart, identifier_rejects_paren hstart], hparen⟩
      rw [rule_atom]
      exact hselects.choice rfl
termination_by sizeOf atom

end

theorem isBlankFrom_of_reaches {gap : Blank} (h : Reaches source index gap.chars)
    : source.isBlankFrom index := by
  obtain ⟨tail, hrest, htail⟩ := h
  obtain ⟨place, hplace, rfl⟩ := source.exists_at?_of_rest? hrest
  rw [List.dropWhile_eq_nil_iff.mpr gap.isBlank, List.dropWhile_eq_nil_iff] at htail
  simpa only [Source.isBlankFrom, hplace, List.all_eq_true] using htail

/-- Every expression, written down with any white space between its parts and around it, is read
as the tree that it stands for: sums and products nest to the left, products within sums.
-/
theorem parse_render (before after : Blank) (expression : Expression)
    : ∃ tree,
        (parse (.ofChars (before.chars ++ expression.render ++ after.chars))).outcome
          = .matched tree
        ∧ unplaced tree = expression.tree := by
  generalize hsource : Source.ofChars (before.chars ++ expression.render ++ after.chars) = source
  have hchars : source.chars = before.chars ++ (expression.render ++ after.chars) := by
    rw [← hsource, ← List.append_assoc]
    rfl
  have hstart
      : Starts source (byteLength (source.chars.takeWhile Unicode.isSpace))
          (expression.render ++ after.chars) := by
    rw [← starts_append_iff before.isBlank, ← hchars]
    exact rest?_trimmed source
  have hfollows : Follows closers after.chars := by
    simp [Follows, List.dropWhile_eq_nil_iff.mpr after.isBlank]
  have hdepth : language.depth source.size = 9 * (source.size + 2) := rfl
  have hcompletes
      : Completes source (language.rule (language.depth source.size) .expression)
          (byteLength (source.chars.takeWhile Unicode.isSpace)) after.chars expression.tree :=
    expression.completes hfollows hstart (by omega)
  obtain ⟨tree, hreads, hexpected, hreach⟩ := hcompletes
  refine ⟨tree, ?_, hexpected⟩
  simp only [parse, Reply.outcome_bind_eq_matched_iff]
  refine ⟨tree, hreads, ?_⟩
  rw [if_pos (isBlankFrom_of_reaches hreach)]
  rfl

end TokenGrammar.Arithmetic
