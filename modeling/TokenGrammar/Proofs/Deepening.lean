import TokenGrammar.Proofs.Combinators
import TokenGrammar.Proofs.Grammars

/-! Rules that may be nested deeper. A parser that comes to an answer comes to the same one, by the
same events, if the rules that it enters may be nested deeper.
-/

namespace TokenGrammar

variable {α β γ : Type}

-----------------------------------------------------------------------------------------
-- Replies
-----------------------------------------------------------------------------------------

/-- Another reply is the same as this one if this one is an answer. -/
def Reply.Approximates (reply other : Reply β) : Prop :=
  reply.outcome ≠ .unresolved → other = reply

namespace Reply.Approximates

/-- A reply is approximated by itself. -/
theorem refl (reply : Reply β) : reply.Approximates reply :=
  fun _ => rfl

theorem noting {reply other : Reply β} (event : Event) (h : reply.Approximates other)
    : (reply.noting event).Approximates (other.noting event) := by
  intro hanswer
  rw [h hanswer]

/-- What follows replies is approximated part by part: an answer of the whole needs one of the
reply and one of what follows its outcome.
-/
theorem fold {reply other : Reply β} {onMatch onMatch' : β → Reply γ}
    {onFailure onFailure' : ParseError → Reply γ} (h : reply.Approximates other)
    (hmatch : ∀ result, (onMatch result).Approximates (onMatch' result))
    (hfailure : ∀ error, (onFailure error).Approximates (onFailure' error))
    : (reply.fold onMatch onFailure).Approximates (other.fold onMatch' onFailure') := by
  intro hanswer
  rw [Ne, outcome_fold_eq_unresolved_iff, not_or, not_or] at hanswer
  obtain ⟨hreply, hmatched, hfailed⟩ := hanswer
  rw [h hreply]
  rcases reply with ⟨trace, outcome⟩
  cases outcome with
  | matched result =>
      have hnext : (onMatch result).outcome ≠ .unresolved :=
        fun hnone => hmatched ⟨result, rfl, hnone⟩
      simp only [Reply.fold, hmatch result hnext]
  | failed error =>
      have hnext : (onFailure error).outcome ≠ .unresolved :=
        fun hnone => hfailed ⟨error, rfl, hnone⟩
      simp only [Reply.fold, hfailure error hnext]
  | unresolved => contradiction

/-- What goes on after matches is approximated part by part, since failures stay as they are. -/
theorem bind {reply other : Reply β} {next next' : β → Reply γ} (h : reply.Approximates other)
    (hnext : ∀ result, (next result).Approximates (next' result))
    : (reply.bind next).Approximates (other.bind next') :=
  h.fold hnext fun _ => refl _

theorem map {reply other : Reply β} {change : β → γ} (h : reply.Approximates other)
    : (reply.map change).Approximates (other.map change) :=
  h.bind fun _ => refl _

/-- What goes on after failures is approximated with the replies, since it is the same. -/
theorem recover {reply other : Reply β} {handle : ParseError → Reply β}
    (h : reply.Approximates other)
    : (reply.recover handle).Approximates (other.recover handle) :=
  h.fold (fun _ => refl _) fun _ => refl _

end Reply.Approximates

-----------------------------------------------------------------------------------------
-- Parsers
-----------------------------------------------------------------------------------------

namespace Parser

/-- Wherever this parser comes to an answer, another one comes to the same. -/
def Approximates (parser other : Parser α) : Prop :=
  ∀ source index, (parser source index).Approximates (other source index)

variable {parsers parsers' : List (Parser α)} {ahead ahead' : Option (Parser α)}
  {source : Source}

/-- A parser is approximated by itself, at every offset of every source. -/
theorem Approximates.refl (parser : Parser α) : parser.Approximates parser :=
  fun _ _ => .refl _

/-- A token that a parser reads is an answer, so every parser that it approximates reads it too.
-/
theorem Approximates.reads {parser other : Parser α} {index : Nat} {token : Token α}
    (h : parser.Approximates other) (hreads : parser.Reads source index token)
    : other.Reads source index token := by
  have hanswer : (parser source index).outcome ≠ .unresolved := by simp [hreads]
  rw [Reads, h source index hanswer, hreads]

/-- An error of a parser is an answer, so every parser that it approximates fails with it too.
-/
theorem Approximates.fails {parser other : Parser α} {index : Nat} {error : ParseError}
    (h : parser.Approximates other) (hfails : parser.Fails source index error)
    : other.Fails source index error := by
  have hanswer : (parser source index).outcome ≠ .unresolved := by simp [hfails]
  rw [Fails, h source index hanswer, hfails]

/-- A choice between parsers that answer more answers more, by induction on the parsers. -/
theorem choiceAfter_approximates (h : List.Forall₂ Approximates parsers parsers')
    (errors : List ParseError) (index : Nat)
    : (choiceAfter source index errors parsers).Approximates
        (choiceAfter source index errors parsers') := by
  induction h generalizing errors with
  | nil => exact .refl _
  | cons hfirst _ ih =>
      exact (hfirst source index).fold (fun _ => .refl _) fun error => ih (error :: errors)

/-- With a lookahead that answers more, what it decides for answers more, by cases on whether
there is one.
-/
theorem ifAhead_approximates {present absent absent' : Reply β}
    (hahead : Option.Rel Approximates ahead ahead') (index : Nat)
    (habsent : absent.Approximates absent')
    : (ifAhead ahead source index present absent).Approximates
        (ifAhead ahead' source index present absent') := by
  cases hahead with
  | none => exact habsent
  | some hparser => exact (hparser source index).fold (fun _ => .refl _) fun _ => habsent

/-- A run of parsers that answer more answers more, by induction on the parsers. -/
theorem runSequence_approximates (hahead : Option.Rel Approximates ahead ahead')
    (h : List.Forall₂ Approximates parsers parsers') (cursor : Nat)
    : (runSequence ahead source parsers cursor).Approximates
        (runSequence ahead' source parsers' cursor) := by
  induction h generalizing cursor with
  | nil => exact .refl _
  | cons hfirst _ ih =>
      refine (hfirst source cursor).fold (fun token => (ih token.stop).map) fun error => ?_
      split
      case isTrue => exact .refl _
      case isFalse => exact ifAhead_approximates hahead cursor (.refl _)

/-- A delimiter that answers more leads on to the same offset, by cases on whether there is one.
-/
theorem runDelimiter_approximates {delimiter delimiter' : Option (Parser α)}
    (h : Option.Rel Approximates delimiter delimiter') (cursor : Nat)
    : (runDelimiter delimiter source cursor).Approximates
        (runDelimiter delimiter' source cursor) := by
  cases h with
  | none => exact .refl _
  | some hparser => exact (hparser source cursor).fold (fun _ => .refl _) fun _ => .refl _

/-- A list of items that answer more answers more, by induction on its rounds. -/
theorem runList_approximates {item item' : Parser α} {delimiter delimiter' : Option (Parser α)}
    (hitem : item.Approximates item') (hdelimiter : Option.Rel Approximates delimiter delimiter')
    (hahead : Option.Rel Approximates ahead ahead') (rounds cursor : Nat)
    : (runList item delimiter ahead source rounds cursor).Approximates
        (runList item' delimiter' ahead' source rounds cursor) := by
  induction rounds generalizing cursor with
  | zero => exact .refl _
  | succ rounds ih =>
      unfold runList
      split
      case isTrue => exact .refl _
      case isFalse =>
        refine (hitem source cursor).bind fun token => ?_
        refine (ifAhead_approximates hahead token.stop ?_).map
        refine (runDelimiter_approximates hdelimiter token.stop).bind fun next => ?_
        cases next with
        | none => exact .refl _
        | some next =>
            dsimp only
            split
            case isTrue => exact .refl _
            case isFalse => exact ih next

end Parser

-----------------------------------------------------------------------------------------
-- Grammars and languages
-----------------------------------------------------------------------------------------

section Grammars

variable {ρ κ : Type} {perform : κ → Token α → Except ParseError (Token α)}
  {resolve resolve' : ρ → Parser α}

/-- Parsers of an optional grammar are as far apart as those of the grammar. -/
theorem Grammar.parser?_approximates {body? : Option (Grammar ρ κ)}
    (h
      : ∀ body ∈ body?,
          (body.parser perform resolve).Approximates (body.parser perform resolve'))
    : Option.Rel Parser.Approximates (parser? perform resolve body?)
        (parser? perform resolve' body?) := by
  cases body? with
  | none => exact .none
  | some body => exact .some (h body rfl)

/-- Parsers of several grammars are as far apart as those of each of them. -/
theorem Grammar.parsers_approximate {bodies : List (Grammar ρ κ)}
    (h
      : ∀ body ∈ bodies,
          (body.parser perform resolve).Approximates (body.parser perform resolve'))
    : List.Forall₂ Parser.Approximates (parsers perform resolve bodies)
        (parsers perform resolve' bodies) := by
  rw [parsers_eq_map, parsers_eq_map, List.forall₂_map_left_iff, List.forall₂_map_right_iff,
    List.forall₂_same]
  exact h

/-- With rules that answer more, a grammar answers more, by induction on the grammar. -/
theorem Grammar.parser_approximates
    (h : ∀ name, (resolve name).Approximates (resolve' name)) (grammar : Grammar ρ κ)
    : (grammar.parser perform resolve).Approximates (grammar.parser perform resolve') := by
  induction grammar with
  | literal | pattern | fail | emit => exact .refl _
  | ignored body ih => exact fun source index => (ih source index).map
  | optional body ih => exact fun source index => (ih source index).recover
  | choice bodies ih =>
      exact fun source index => Parser.choiceAfter_approximates (parsers_approximate ih) [] index
  | sequence bodies ahead ih ihAhead =>
      exact fun source index =>
        (Parser.runSequence_approximates (parser?_approximates ihAhead)
          (parsers_approximate ih) index).bind fun _ => .refl _
  | list item delimiter ahead ih ihDelimiter ihAhead =>
      exact fun source index =>
        (Parser.runList_approximates ih (parser?_approximates ihDelimiter)
          (parser?_approximates ihAhead) _ index).bind fun _ => .refl _
  | act action body ih => exact fun source index => (ih source index).bind fun _ => .refl _
  | reword rewording body ih => exact fun source index => (ih source index).recover
  | rule name => exact h name

/-- A rule answers no less if it may be nested deeper, by induction on the depth. -/
theorem Language.rule_approximates {language : Language ρ κ α} {depth deeper : Nat}
    (hle : depth ≤ deeper) (name : ρ)
    : (language.rule depth name).Approximates (language.rule deeper name) := by
  induction depth generalizing deeper name with
  | zero =>
      intro source index hanswer
      contradiction
  | succ depth ih =>
      obtain ⟨deeper, rfl⟩ := Nat.exists_eq_add_of_le' (Nat.le_trans (Nat.le_add_left ..) hle)
      unfold rule
      cases language.definition name with
      | none => exact .refl _
      | some body => exact body.parser_approximates (ih (Nat.le_of_succ_le_succ hle))

/-- A grammar that comes to an answer comes to the same one if its rules may be nested deeper. -/
theorem Language.parserWithin_eq_of_le {language : Language ρ κ α} {grammar : Grammar ρ κ}
    {source : Source} {index depth deeper : Nat} (hle : depth ≤ deeper)
    (hanswer : (language.parserWithin depth grammar source index).outcome ≠ .unresolved)
    : language.parserWithin deeper grammar source index
      = language.parserWithin depth grammar source index :=
  grammar.parser_approximates (language.rule_approximates hle) source index hanswer

end Grammars

end TokenGrammar
