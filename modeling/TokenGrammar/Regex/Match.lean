import TokenGrammar.Parser.Matcher
import TokenGrammar.Regex.Basic

/-! Matching of regular expressions by backtracking: the first way to match in the order of
preference wins. Matches start at a given place, of whose context assertions can see.

Where a repetition without a bound may pass nothing in a round, choices come up again without an
end. No way to match is therefore followed further where it comes to a choice, at a place, that it
has come to there before.
-/

namespace TokenGrammar.Regex

-----------------------------------------------------------------------------------------
-- Cursors
-----------------------------------------------------------------------------------------

/-- A part of a regular expression, named by the way to it, from the last step to the first: each
step leads to the first or to the second part of what it is a step into.
-/
abbrev Node := List Bool

/-- The state of an attempt to match: the place reached, the number of characters passed since
the start of the match, the spans of groups, latest first, and the nodes of choices that it has come
to, each with the number of characters passed by then.
-/
structure Cursor where
  place : Place
  passed : Nat
  spans : List (Nat × Span)
  tried : List (Node × Nat)
  deriving DecidableEq, Repr

/-- What is left to match after the current part. -/
abbrev Continuation := Cursor → Option Cursor

namespace Cursor

/-- The state before a match at this place. -/
def start (place : Place) : Cursor :=
  { place, passed := 0, spans := [], tried := [] }

/-- The cursor after a text, with the rest still ahead. -/
def past (cursor : Cursor) (text rest : List Char) : Cursor :=
  { cursor with
    place := ⟨text.getLast?.or cursor.place.before, rest⟩
    passed := cursor.passed + text.length }

/-- The state with the span of a group that was entered after the given number of characters. -/
def record (cursor : Cursor) (number entered : Nat) : Cursor :=
  { cursor with spans := (number, ⟨entered, cursor.passed⟩) :: cursor.spans }

/-- The state without the choices that it has come to. -/
def untracked (cursor : Cursor) : Cursor :=
  { cursor with tried := [] }

/-- Goes one of several ways, but not if the choice at this node has come up here before. Choices
without a node are not kept track of, because they cannot come up again.
-/
def choose (cursor : Cursor) (node : Option Node) (ways : Continuation) : Option Cursor :=
  match node with
  | none => ways cursor
  | some node =>
      if (node, cursor.passed) ∈ cursor.tried then none
      else ways { cursor with tried := (node, cursor.passed) :: cursor.tried }

/-- What is known of a match that has come to its end. -/
def found (cursor : Cursor) : Match :=
  { passed := cursor.passed, spans := cursor.spans }

end Cursor

-----------------------------------------------------------------------------------------
-- Assertions
-----------------------------------------------------------------------------------------

/-- A character is there and part of a word. -/
def inWord (char : Option Char) : Bool :=
  char.any CharSet.word.contains

/-- The condition holds at the place. -/
def Assertion.holds : Assertion → Place → Bool
  | .textStart, place => place.before.isNone
  | .textEnd, place => place.after.isEmpty
  | .lineStart, place => place.before.all (· == '\n')
  | .lineEnd, place => place.after.head?.all (· == '\n')
  | .wordBoundary, place => inWord place.before != inWord place.after.head?
  | .insideWord, place => inWord place.before == inWord place.after.head?

-----------------------------------------------------------------------------------------
-- Repetition
-----------------------------------------------------------------------------------------

/-- Matches some part and then what is left. If choices are kept track of, the part is at a node. -/
abbrev Step := Option Node → Cursor → Continuation → Option Cursor

/-- The node of the first part of what is at a node. -/
def firstPart (node : Option Node) : Option Node :=
  node.map (false :: ·)

/-- The node of the second part of what is at a node. -/
def secondPart (node : Option Node) : Option Node :=
  node.map (true :: ·)

/-- Tries to match more and then no more, or the other way round. -/
def prefer (greedy : Bool) (more fewer : Unit → Option Cursor) : Option Cursor :=
  if greedy then (more ()).orElse fewer else (fewer ()).orElse more

/-- Matches exactly so many rounds. -/
def exactly (step : Step) : Nat → Step
  | 0, _, cursor, next => next cursor
  | rounds + 1, node, cursor, next =>
      step (firstPart node) cursor fun reached =>
        exactly step rounds (secondPart node) reached next

/-- Matches at most so many rounds. -/
def atMost (step : Step) (greedy : Bool) : Nat → Step
  | 0, _, cursor, next => next cursor
  | rounds + 1, node, cursor, next =>
      cursor.choose node fun cursor =>
        prefer greedy
          (fun _ =>
            step (firstPart node) cursor fun reached =>
              atMost step greedy rounds (secondPart node) reached next)
          (fun _ => next cursor)

/-- Matches any number of rounds. The choice whether to go on comes up at places that follow each
other, so characters that are left tell how often it still may.
-/
def anyNumber (step : Step) (greedy : Bool) : (left : List Char) → Step
  | [], node, cursor, next => cursor.choose node next
  | _ :: left, node, cursor, next =>
      cursor.choose node fun cursor =>
        prefer greedy
          (fun _ =>
            step (firstPart node) cursor fun reached =>
              anyNumber step greedy left node reached next)
          (fun _ => next cursor)

/-- Matches one round and then any number of them. -/
def oneAndMore (step : Step) (greedy : Bool) : Step := fun node cursor next =>
  step (firstPart node) cursor fun reached =>
    anyNumber step greedy reached.place.after node reached next

/-- Matches at least so many rounds. If rounds may pass nothing, the choice whether to begin is not
the one whether to go on.
-/
def atLeast (step : Step) (isNullable greedy : Bool) : Nat → Step
  | 0, node, cursor, next =>
      if isNullable then
        cursor.choose node fun cursor =>
          prefer greedy
            (fun _ => oneAndMore step greedy (secondPart node) cursor next)
            (fun _ => next cursor)
      else anyNumber step greedy cursor.place.after node cursor next
  | rounds + 1, node, cursor, next =>
      exactly step rounds (firstPart node) cursor fun reached =>
        oneAndMore step greedy (secondPart node) reached next

-----------------------------------------------------------------------------------------
-- Matching
-----------------------------------------------------------------------------------------

/-- Matches a regular expression and then what is left. Choices are kept track of from the outermost
repetition on in which they may come up again.
-/
def runAt : Regex → Step
  | .empty, _, cursor, next => next cursor
  | .oneOf set, _, cursor, next =>
      match cursor.place.after with
      | [] => none
      | char :: rest => if set.contains char then next (cursor.past [char] rest) else none
  | .test assertion, _, cursor, next =>
      if assertion.holds cursor.place then next cursor else none
  | .capture number _ body, node, cursor, next =>
      body.runAt node cursor fun reached => next (reached.record number cursor.passed)
  | .append first second, node, cursor, next =>
      first.runAt (firstPart node) cursor fun reached =>
        second.runAt (secondPart node) reached next
  | .either first second, node, cursor, next =>
      cursor.choose node fun cursor =>
        (first.runAt (firstPart node) cursor next).orElse fun _ =>
          second.runAt (secondPart node) cursor next
  | .repeated body least (some most) greedy, node, cursor, next =>
      exactly body.runAt least (firstPart node) cursor fun reached =>
        atMost body.runAt greedy (most - least) (secondPart node) reached next
  | .repeated body least none greedy, node, cursor, next =>
      match node, body.isNullable with
      | none, true => atLeast body.runAt true greedy least (some []) cursor.untracked next
      | node, isNullable => atLeast body.runAt isNullable greedy least node cursor next

/-- Matches a regular expression that is no part of a repetition. -/
def run (regex : Regex) : Cursor → Continuation → Option Cursor :=
  regex.runAt none

/-- The preferred match that starts at the place. -/
def match? (regex : Regex) (place : Place) : Option Match :=
  (regex.run (.start place) some).map Cursor.found

end TokenGrammar.Regex
