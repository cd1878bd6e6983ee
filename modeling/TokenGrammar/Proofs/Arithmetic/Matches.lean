import TokenGrammar.Proofs.Arithmetic.Patterns

/-! Trees that match the source that they cover. The tokens of operations are built after parsing,
from the links of a chain, so the slices between operands are carried through the links.
-/

namespace TokenGrammar.Arithmetic

/-- The token and all tokens in it match the source that they cover. Slices only exist between
boundaries in the right order.
-/
inductive Matches (source : Source) : Tree → Prop where
  | number {index size : Nat} {text : List Char} {value : Float}
    (slice : source.slice? index (index + size) = some text)
    (read : Binary64.read (String.ofList text) = .ok value)
    : Matches source ⟨index, size, .named "number", .custom (.number value)⟩
  | identifier {index size : Nat} {text : List Char}
    (slice : source.slice? index (index + size) = some text)
    : Matches source ⟨index, size, .named "identifier", .text (String.ofList text)⟩
  | paren {index size : Nat} {inner : Tree} {front back : List Char}
    (opening : source.slice? index inner.index = some front) (opens : Framed '(' front)
    (closing : source.slice? inner.stop (index + size) = some back) (closes : Framed ')' back)
    (content : Matches source inner)
    : Matches source ⟨index, size, .named "paren", .token inner⟩
  | assignment {index size : Nat} {name between : List Char} {right : Tree}
    (slice : source.slice? index right.index = some (name ++ between))
    (equals : Framed '=' between) (stop : index + size = right.stop)
    (rightMatches : Matches source right)
    : Matches source
        ⟨index, size, .named "assignment", .custom (.assignment (String.ofList name) right)⟩
  | operation (level : Level) {index size : Nat} {left right : Tree} {operator : Char}
    {between : List Char} (start : index = left.index) (stop : index + size = right.stop)
    (ordered : left.stop ≤ right.index)
    (slice : source.slice? left.stop right.index = some between)
    (framed : Framed operator between) (member : operator ∈ level.operators)
    (leftKind : left.kind ∈ level.chains) (rightKind : right.kind ∈ level.operands)
    (leftMatches : Matches source left) (rightMatches : Matches source right)
    : Matches source ⟨index, size, .named level.kind, .custom (.binary left operator right)⟩

namespace Matches

variable {source : Source} {tree : Tree}

theorem isIgnored_eq_false (h : Matches source tree) : tree.isIgnored = false := by
  cases h <;> rfl

/-- There is a slice under each token, which is put together from the slices in it, by induction
on how it matches.
-/
theorem exists_slice (h : Matches source tree)
    : ∃ text, source.slice? tree.index tree.stop = some text := by
  induction h with
  | number slice _ => exact ⟨_, slice⟩
  | identifier slice => exact ⟨_, slice⟩
  | paren opening _ closing _ _ ih =>
      obtain ⟨text, htext⟩ := ih
      exact ⟨_, source.slice?_append (source.slice?_append opening htext) closing⟩
  | assignment slice _ stop _ ih =>
      obtain ⟨text, htext⟩ := ih
      rw [← stop] at htext
      exact ⟨_, source.slice?_append slice htext⟩
  | operation _ start stop _ slice _ _ _ _ _ _ ihLeft ihRight =>
      obtain ⟨first, hfirst⟩ := ihLeft
      obtain ⟨second, hsecond⟩ := ihRight
      rw [← start] at hfirst
      rw [← stop] at hsecond
      exact ⟨_, source.slice?_append (source.slice?_append hfirst slice) hsecond⟩

/-- A token of the kind of identifiers holds the text that it covers, since no other token has
that kind.
-/
theorem eq_identifier (h : Matches source tree) (hkind : tree.kind = .named "identifier")
    : ∃ name,
        source.slice? tree.index tree.stop = some name
        ∧ tree.value = .text (String.ofList name) := by
  cases h with
  | identifier slice => exact ⟨_, slice, rfl⟩
  | operation level => cases level <;> simp [Level.kind] at hkind
  | _ => simp at hkind

end Matches

/-- The operands of the links match the source, with their operators between them. The first
operator follows at the start, the last operand ends at the stop.
-/
inductive Linked (source : Source) (level : Level) : Nat → List Link → Nat → Prop where
  | nil {stop : Nat} : Linked source level stop [] stop
  | cons {start stop : Nat} {operator : Char} {operand : Tree} {rest : List Link}
    {between : List Char} (slice : source.slice? start operand.index = some between)
    (framed : Framed operator between) (member : operator ∈ level.operators)
    (kind : operand.kind ∈ level.operands) (operandMatches : Matches source operand)
    (others : Linked source level operand.stop rest stop)
    : Linked source level start ((operator, operand) :: rest) stop

section Chains

variable {source : Source} {level : Level} {kind : String} {operator : Char} {tree : Tree}
  {rest : List Link}

/-- A single operand is linked to what follows it, as the one link of its chain. -/
theorem Matches.linked_single (h : Matches source tree) (hkind : tree.kind ∈ level.chains)
    (hne : tree.kind ≠ .named level.kind) {start stop : Nat} {between : List Char}
    (hslice : source.slice? start tree.index = some between) (hframed : Framed operator between)
    (hmember : operator ∈ level.operators) (hrest : Linked source level tree.stop rest stop)
    : Linked source level start (linksOnto level.kind operator rest tree) stop := by
  have hoperand : tree.kind ∈ level.operands := List.mem_of_ne_of_mem hne hkind
  rw [linksOnto_of_ne hne]
  exact .cons hslice hframed hmember hoperand h hrest

/-- All links of a chain are linked to what follows it, by induction on the chain. -/
theorem Matches.linked (h : Matches source tree) (hkind : tree.kind ∈ level.chains)
    {start stop : Nat} {between : List Char}
    (hslice : source.slice? start tree.index = some between) (hframed : Framed operator between)
    (hmember : operator ∈ level.operators) (hrest : Linked source level tree.stop rest stop)
    : Linked source level start (linksOnto level.kind operator rest tree) stop := by
  induction h generalizing operator rest start stop between with
  | operation other first last ordered slice framed member leftKind rightKind left right ihLeft
    ihRight =>
      by_cases hlevel : other = level
      · subst hlevel
        rw [linksOnto_operation]
        have hlast := ihRight (List.mem_cons_of_mem _ rightKind) slice framed member
          (by simpa only [Token.stop, last] using hrest)
        exact ihLeft leftKind (by simpa only [first] using hslice) hframed hmember hlast
      · have hne : Kind.named other.kind ≠ .named level.kind := by
          revert hlevel
          cases other <;> cases level <;> decide
        exact (operation other first last ordered slice framed member leftKind rightKind left
          right).linked_single hkind hne hslice hframed hmember hrest
  | number slice read =>
      exact (number slice read).linked_single hkind
        (level.ne_of_mem_atomKinds (by simp [atomKinds])) hslice hframed hmember hrest
  | identifier slice =>
      exact (identifier slice).linked_single hkind
        (level.ne_of_mem_atomKinds (by simp [atomKinds])) hslice hframed hmember hrest
  | paren opening opens closing closes content =>
      exact (paren opening opens closing closes content).linked_single hkind
        (level.ne_of_mem_atomKinds (by simp [atomKinds])) hslice hframed hmember hrest
  | assignment => exact absurd hkind level.assignment_not_mem_chains

/-- A token that is a chain of the level, from one offset to another. -/
structure Chains (source : Source) (level : Level) (start : Nat) (tree : Tree) (stop : Nat)
    : Prop where
  index_eq : tree.index = start
  stop_eq : tree.stop = stop
  matched : Matches source tree
  kind : tree.kind ∈ level.chains

/-- Links that follow a chain are appended to it one by one, by induction on the links. -/
theorem Linked.chains_foldl {links : List Link} {start middle stop : Nat}
    (hlinks : Linked source level middle links stop)
    (hleft : Chains source level start tree middle)
    : Chains source level start (links.foldl (operation level.kind) tree) stop := by
  induction hlinks generalizing tree with
  | nil => exact hleft
  | @cons middle stop operator operand rest between slice framed member kind matched _ ih =>
      refine ih ?_
      have hordered : tree.stop ≤ operand.index := by
        rw [hleft.stop_eq]
        exact (source.slice?_eq_some_iff.mp slice).1
      have hstop
          : (operation level.kind tree (operator, operand)).stop = operand.stop := by
        simp only [operation, Token.stop] at *
        omega
      have hmatches : Matches source (operation level.kind tree (operator, operand)) :=
        .operation level rfl hstop hordered (hleft.stop_eq ▸ slice) framed member hleft.kind
          kind hleft.matched matched
      exact ⟨hleft.index_eq, hstop, hmatches, List.mem_cons_self ..⟩

/-- Nesting to the left keeps the span of an operation and yields a chain, because the links of
the right operand are appended one by one.
-/
theorem chains_leftNested {left right : Tree} {start : Nat} {between : List Char}
    (hleft : Chains source level start left left.stop)
    (hslice : source.slice? left.stop right.index = some between)
    (hframed : Framed operator between) (hmember : operator ∈ level.operators)
    (hright : Matches source right) (hkind : right.kind ∈ level.chains)
    : Chains source level start (leftNested level.kind left operator right) right.stop :=
  (hright.linked hkind hslice hframed hmember .nil).chains_foldl hleft

end Chains

end TokenGrammar.Arithmetic
