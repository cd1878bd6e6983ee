import TokenGrammar.Proofs.Errors

/-! What the wording of a merged error shows. Each error keeps the message that it got when it was
made, apart from its causes; still, every cause at any depth is found in the message, and the causes
that were merged stand there line by line.
-/

namespace TokenGrammar

-----------------------------------------------------------------------------------------
-- Lines
-----------------------------------------------------------------------------------------

/-- At this position a line of the text starts. -/
def StartsLine (text : List Char) (position : Nat) : Prop :=
  position = 0 ∨ text[position - 1]? = some '\n'

/-- The items stand in the text, not before the position, in this order and without overlap, and
each of them at the start of a line.
-/
inductive ListedFrom (text : List Char) : Nat → List (List Char) → Prop where
  | nil {position : Nat} : ListedFrom text position []
  | cons {position start : Nat} {item : List Char} {rest : List (List Char)}
    (le : position ≤ start) (line : StartsLine text start) (found : item <+: text.drop start)
    (others : ListedFrom text (start + item.length) rest)
    : ListedFrom text position (item :: rest)

/-- What is listed from a position on is listed from any earlier one on. -/
theorem ListedFrom.from_le {text : List Char} {earlier position : Nat} {items : List (List Char)}
    (h : ListedFrom text position items) (hle : earlier ≤ position)
    : ListedFrom text earlier items := by
  cases h with
  | nil => exact .nil
  | cons le line found others => exact .cons (Nat.le_trans hle le) line found others

/-- What is listed in a text is part of it, by induction on the list. -/
theorem ListedFrom.infix_of_mem {text : List Char} {position : Nat} {item : List Char}
    {items : List (List Char)} (h : ListedFrom text position items) (hitem : item ∈ items)
    : item <:+: text := by
  induction h with
  | nil => contradiction
  | cons le line found others ih =>
      rcases List.mem_cons.mp hitem with rfl | hrest
      · exact found.isInfix.trans (List.drop_suffix ..).isInfix
      · exact ih hrest

/-- Items with a line break before each of them are listed behind what is in front of them, by
induction on the items.
-/
theorem listedFrom_broken (front : List Char) (items : List (List Char))
    : ListedFrom (front ++ items.flatMap fun item => '\n' :: item) front.length items := by
  induction items generalizing front with
  | nil => exact .nil
  | cons item rest ih =>
      have hsplit : front ++ (item :: rest).flatMap (fun item => '\n' :: item)
          = (front ++ '\n' :: item) ++ rest.flatMap fun item => '\n' :: item := by simp
      have hlength : (front ++ '\n' :: item).length = front.length + 1 + item.length := by
        rw [List.length_append, List.length_cons]
        omega
      refine .cons (Nat.le_add_right _ 1) (Or.inr ?_) ?_ (hlength ▸ hsplit ▸ ih _)
      · simp
      · simp [← List.drop_drop]

-----------------------------------------------------------------------------------------
-- Reports
-----------------------------------------------------------------------------------------

/-- An error as it is kept: its message was worded when the error was made, and the causes are kept
beside it.
-/
structure Report where
  kind : ErrorKind
  message : String
  index : Nat
  causes : List Report

namespace Report

/-- The message and the location. -/
def display (report : Report) : String :=
  located report.message report.index

/-- An error of any kind and message, without causes. -/
def plain (kind : ErrorKind) (message : String) (index : Nat) : Report :=
  { kind, message, index, causes := [] }

/-- Several errors in one, which shows each of them on lines of its own. -/
def merge (causes : List Report) (index : Nat) : Report :=
  { kind := .alternatives
    message :=
      causes.foldl (fun message cause => message ++ "\n" ++ cause.display)
        "multiple errors occurred:"
    index
    causes }

/-- The report was made by merging, any number of times, starting from errors without causes. -/
inductive Made : Report → Prop where
  | plain (kind : ErrorKind) (message : String) (index : Nat) : Made (plain kind message index)
  | merge {causes : List Report} (each : ∀ cause ∈ causes, Made cause) (index : Nat)
    : Made (merge causes index)

/-- The report is part of another one: it is that report or part of one of its causes. -/
inductive PartOf (report : Report) : Report → Prop where
  | self : PartOf report report
  | cause {inner outer : Report} (known : inner ∈ outer.causes) (deeper : PartOf report inner)
    : PartOf report outer

variable {report part : Report}

/-- A merged error says so first, and then goes on with a line break and an error for each
cause, by induction on the causes that are added one by one.
-/
theorem message_merge (causes : List Report) (index : Nat)
    : (merge causes index).message.toList
      = "multiple errors occurred:".toList
        ++ (causes.map fun cause => cause.display.toList).flatMap fun item => '\n' :: item := by
  have hfold (message : String)
      : (causes.foldl (fun message cause => message ++ "\n" ++ cause.display) message).toList
        = message.toList
          ++ (causes.map fun cause => cause.display.toList).flatMap fun item => '\n' :: item := by
    induction causes generalizing message with
    | nil => simp
    | cons cause rest ih => simp [ih]
  exact hfold _

/-- The causes of an error are listed in its message, if it was made by merging, since each of
them was added behind a line break.
-/
theorem Made.listed (h : report.Made)
    : ListedFrom report.message.toList 0 (report.causes.map fun cause => cause.display.toList) := by
  cases h with
  | plain => exact .nil
  | merge each index =>
      rw [message_merge]
      exact (listedFrom_broken _ _).from_le (Nat.zero_le _)

/-- The causes of an error that was made by merging were made so as well. -/
theorem Made.of_mem_causes (h : report.Made) (hpart : part ∈ report.causes) : part.Made := by
  cases h with
  | plain => contradiction
  | merge each => exact each part hpart

/-- Each part of an error is shown as a whole where the error is shown, by induction on how deep the
part is.
-/
theorem Made.infix_of_partOf (h : report.Made) (hpart : part.PartOf report)
    : part.display.toList <:+: report.display.toList := by
  induction hpart with
  | self => exact List.infix_rfl
  | @cause inner outer known deeper ih =>
      have hmessage : outer.message.toList <+: outer.display.toList := by
        simp [display, located, String.toList_append]
      have hlisted : inner.display.toList <:+: outer.message.toList :=
        h.listed.infix_of_mem (List.mem_map_of_mem known)
      exact (ih (h.of_mem_causes known)).trans (hlisted.trans hmessage.isInfix)

end Report

-----------------------------------------------------------------------------------------
-- Reports of parse errors
-----------------------------------------------------------------------------------------

mutual

/-- What is kept of a parse error. -/
def ParseError.report : ParseError → Report
  | .alternatives causes index => .merge (reports causes) index
  | error => .plain error.kind error.message error.index

/-- What is kept of several parse errors. -/
def reports : List ParseError → List Report
  | [] => []
  | error :: rest => error.report :: reports rest

end

namespace ParseError

variable {error part : ParseError}

/-- Several errors are kept one by one, by induction on them. -/
theorem reports_eq_map (causes : List ParseError) : reports causes = causes.map report := by
  induction causes with
  | nil => rfl
  | cons cause rest ih => rw [reports, ih, List.map_cons]

theorem report_index (error : ParseError) : error.report.index = error.index := by
  cases error <;> rfl

/-- An error is kept with its causes, by cases on it. -/
theorem report_causes (error : ParseError) : error.report.causes = error.causes.map report := by
  cases error with
  | alternatives causes index => exact reports_eq_map causes
  | _ => rfl

/-- The message of a merged error has a line for each cause, by definition. -/
theorem message_alternatives (causes : List ParseError) (index : Nat)
    : (alternatives causes index).message = "multiple errors occurred:" ++ displayLines causes :=
  rfl

/-- An error is shown with its message and its location, by cases on it. -/
theorem display_eq (error : ParseError) : error.display = located error.message error.index := by
  cases error <;> rfl

mutual

/-- The message that a parse error has is the one that it got when it was made, by induction on
the error, together with the lines for its causes.
-/
theorem report_message (error : ParseError) : error.report.message = error.message := by
  cases error with
  | alternatives causes index =>
      refine String.toList_inj.mp ?_
      rw [message_alternatives, report, Report.message_merge, String.toList_append,
        toList_displayLines]
  | _ => rfl
termination_by sizeOf error

/-- The lines for several causes are those that were added to the message, one for each. -/
theorem toList_displayLines (causes : List ParseError)
    : (displayLines causes).toList
      = ((reports causes).map fun cause => cause.display.toList).flatMap
          fun item => '\n' :: item := by
  cases causes with
  | nil => rfl
  | cons cause rest =>
      rw [displayLines, reports, List.map_cons, List.flatMap_cons, ← toList_displayLines rest,
        Report.display, report_message cause, report_index, ← display_eq]
      simp
termination_by sizeOf causes

end

/-- An error is shown as it is kept, since message and location are the same. -/
theorem report_display (error : ParseError) : error.report.display = error.display := by
  rw [Report.display, report_message, report_index, display_eq]

/-- Every parse error is made of errors without causes, by induction on its causes. -/
theorem report_made (error : ParseError) : error.report.Made := by
  cases error with
  | alternatives causes index =>
      refine .merge (fun cause hcause => ?_) index
      rw [reports_eq_map] at hcause
      obtain ⟨inner, hinner, rfl⟩ := List.mem_map.mp hcause
      exact report_made inner
  | _ => exact .plain ..
termination_by sizeOf error

/-- The parts of a parse error are kept as parts, by induction on how deep they are. -/
theorem PartOf.report (h : part.PartOf error) : part.report.PartOf error.report := by
  induction h with
  | self => exact .self
  | @cause inner outer known deeper ih =>
      have hknown : inner.report ∈ outer.report.causes := by
        rw [report_causes]
        exact List.mem_map_of_mem known
      exact .cause hknown ih

end ParseError

/-- However an error was made by merging others, it shows each of its parts, at any depth, as a
whole, and the causes that were merged stand in its message in order, each at the start of a line
and none over another. The same holds of every parse error.
-/
theorem merged_error_shows_causes
    : (∀ report : Report,
        report.Made
        → (∀ part : Report, part.PartOf report → part.display.toList <:+: report.display.toList)
          ∧ ListedFrom report.message.toList 0
              (report.causes.map fun cause => cause.display.toList))
      ∧ ∀ error : ParseError,
        error.display = located error.message error.index
        ∧ (∀ part : ParseError, part.PartOf error → part.display.toList <:+: error.display.toList)
        ∧ ListedFrom error.message.toList 0
            (error.causes.map fun cause => cause.display.toList) := by
  refine ⟨fun report hmade => ⟨fun part => hmade.infix_of_partOf, hmade.listed⟩, fun error => ?_⟩
  have hmade := error.report_made
  refine ⟨error.display_eq, fun part hpart => ?_, ?_⟩
  · have hshown := hmade.infix_of_partOf hpart.report
    rwa [ParseError.report_display, ParseError.report_display] at hshown
  · have hlisted := hmade.listed
    rw [ParseError.report_message, ParseError.report_causes, List.map_map] at hlisted
    simpa only [Function.comp_def, ParseError.report_display] using hlisted

/-- Of two errors, one is merged of others, and the message of the other has the form of a merged
one. Both are shown, and so is the first of the merged ones, which goes on in the next line.
-/
theorem broken_line_shown
    : let broken : Report := .plain .mismatch "a\nb" 1
      let inner : Report := .merge [broken, .plain .unexpectedEnd "unexpected end of input" 2] 1
      let outer : Report := .merge [.plain .custom "multiple errors occurred:\na" 0, inner] 0
      outer.Made
      ∧ (broken.PartOf outer ∧ broken.display.toList <:+: outer.display.toList)
      ∧ ListedFrom outer.message.toList 0
          (outer.causes.map fun cause => cause.display.toList) := by
  intro broken inner outer
  have hpair {first second : Report} (hfirst : first.Made) (hsecond : second.Made) (index : Nat)
      : (Report.merge [first, second] index).Made :=
    .merge (by simp [hfirst, hsecond]) index
  have hmade : outer.Made := hpair (.plain ..) (hpair (.plain ..) (.plain ..) 1) 0
  have hpart : broken.PartOf outer :=
    .cause (List.mem_cons_of_mem _ (List.mem_singleton_self inner))
      (.cause (List.mem_cons_self ..) .self)
  obtain ⟨hshown, hlisted⟩ := merged_error_shows_causes.1 outer hmade
  exact ⟨hmade, ⟨hpart, hshown broken hpart⟩, hlisted⟩

end TokenGrammar
