import TokenGrammar.ParseError
import TokenGrammar.Proofs.Places

/-! Trees of errors: an error together with its causes, their causes and so on. -/

namespace TokenGrammar.ParseError

variable {source : Source} {index later : Nat} {error : ParseError}

/-- The error is part of another one: it is that error or part of one of its causes. -/
inductive PartOf (error : ParseError) : ParseError → Prop where
  | self : PartOf error error
  | cause {inner outer : ParseError} (known : inner ∈ outer.causes)
    (deeper : PartOf error inner) : PartOf error outer

/-- The parts of a merged error are itself and the parts of its causes, by cases on how it is a
part.
-/
theorem partOf_alternatives_iff {causes : List ParseError}
    : error.PartOf (.alternatives causes index)
      ↔ error = .alternatives causes index ∨ ∃ inner ∈ causes, error.PartOf inner := by
  constructor
  · intro h
    rcases h with _ | ⟨known, deeper⟩
    · exact Or.inl rfl
    · exact Or.inr ⟨_, known, deeper⟩
  · intro h
    rcases h with rfl | ⟨inner, known, deeper⟩
    · exact .self
    · exact .cause known deeper

theorem PartOf.eq_of_causes_eq_nil {outer : ParseError} (h : error.PartOf outer)
    (hcauses : outer.causes = [])
    : error = outer := by
  cases h with
  | self => rfl
  | cause known => simp [hcauses] at known

/-- Only merged errors have causes, by cases on the error. -/
theorem kind_eq_of_causes_ne_nil (h : error.causes ≠ []) : error.kind = .alternatives := by
  cases error <;> simp_all [causes, kind]

/-- An error of a parser that started at the index may be located here: at a boundary that is
not before the index, and at the end of the source if the error says so.
-/
structure LocatedFrom (source : Source) (index : Nat) (error : ParseError) : Prop where
  boundary : source.isBoundary error.index
  le_index : index ≤ error.index
  at_end : error.kind = .unexpectedEnd → error.index = source.size

/-- Each part of the error may be located where it is. -/
def LiesFrom (source : Source) (index : Nat) (error : ParseError) : Prop :=
  ∀ part : ParseError, part.PartOf error → part.LocatedFrom source index

theorem LiesFrom.located (h : error.LiesFrom source index) : error.LocatedFrom source index :=
  h error .self

/-- An error without causes lies at any boundary from the index on, unless it speaks of the end. -/
theorem liesFrom_leaf (hboundary : source.isBoundary error.index)
    (hindex : index ≤ error.index) (hcauses : error.causes = [])
    (hkind : error.kind ≠ .unexpectedEnd)
    : error.LiesFrom source index := by
  intro part hpart
  rw [hpart.eq_of_causes_eq_nil hcauses]
  exact ⟨hboundary, hindex, fun h => absurd h hkind⟩

theorem LiesFrom.mono (h : error.LiesFrom source later) (hle : index ≤ later)
    : error.LiesFrom source index := by
  intro part hpart
  obtain ⟨hboundary, hindex, hend⟩ := h part hpart
  exact ⟨hboundary, Nat.le_trans hle hindex, hend⟩

/-- A merged error lies where its causes do and itself is located, since its parts are itself
and those of its causes.
-/
theorem liesFrom_alternatives {causes : List ParseError}
    (hboundary : source.isBoundary later) (hle : index ≤ later)
    (hcauses : ∀ cause ∈ causes, cause.LiesFrom source index)
    : (alternatives causes later).LiesFrom source index := by
  intro part hpart
  rcases partOf_alternatives_iff.mp hpart with rfl | ⟨inner, known, deeper⟩
  · exact ⟨hboundary, hle, nofun⟩
  · exact hcauses inner known part deeper

/-- An error that says that the source ends at the index lies there if the source does. -/
theorem liesFrom_unexpectedEnd (hboundary : source.isBoundary later) (hle : index ≤ later)
    (hsize : source.size ≤ later)
    : (unexpectedEnd later).LiesFrom source index := by
  intro part hpart
  rw [hpart.eq_of_causes_eq_nil rfl]
  exact ⟨hboundary, hle,
    fun _ => Nat.le_antisymm (source.le_size_of_isBoundary hboundary) hsize⟩

end TokenGrammar.ParseError
