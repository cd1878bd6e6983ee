import TokenGrammar.Regex.Lexeme

/-! Reading of regular expressions from their notation, lexeme by lexeme. Groups that are not
closed yet form a stack of levels.
-/

namespace TokenGrammar.Regex

-----------------------------------------------------------------------------------------
-- Flags
-----------------------------------------------------------------------------------------

/-- The flags in effect. -/
structure Flags where
  ignoreCase : Bool := false
  multiLine : Bool := false
  dotAll : Bool := false
  deriving DecidableEq, Repr

namespace Flags

/-- Switches one flag. -/
def switch (flags : Flags) (value : Bool) : Flag → Flags
  | .ignoreCase => { flags with ignoreCase := value }
  | .multiLine => { flags with multiLine := value }
  | .dotAll => { flags with dotAll := value }

/-- Switches all flags of a change. -/
def apply (flags : Flags) (change : FlagChange) : Flags :=
  change.switchedOff.foldl (·.switch false ·) (change.switchedOn.foldl (·.switch true ·) flags)

/-- The set, with all case variants of its characters if case does not matter. -/
def fold (flags : Flags) (set : CharSet) : CharSet :=
  if flags.ignoreCase then .folded set else set

/-- The regular expression of a lexeme that stands for one. -/
def meaning? (flags : Flags) : Lexeme → Option Regex
  | .char char => some (.oneOf (flags.fold (.single char)))
  | .dot => some (.oneOf (if flags.dotAll then .all else .complement (.single '\n')))
  | .set set => some (.oneOf set)
  | .bracket false items => some (.oneOf (flags.fold items))
  | .bracket true items => some (.oneOf (.complement (flags.fold items)))
  | .caret => some (.test (if flags.multiLine then .lineStart else .textStart))
  | .dollar => some (.test (if flags.multiLine then .lineEnd else .textEnd))
  | .assertion assertion => some (.test assertion)
  | _ => none

end Flags

-----------------------------------------------------------------------------------------
-- Levels
-----------------------------------------------------------------------------------------

/-- A part of a branch: a regular expression, or a change of flags, which cannot be repeated. -/
inductive Item where
  | part (regex : Regex)
  | flags
  deriving DecidableEq, Repr

/-- The regular expression of an item that is one. -/
def Item.regex? : Item → Option Regex
  | .part regex => some regex
  | .flags => none

/-- What becomes of the body of a group. -/
inductive Wrapping where
  | plain
  | capture (number : Nat) (name : Option String)
  deriving DecidableEq, Repr

/-- A group that is still open: how to wrap it, the flags in effect, its finished branches and
the items of its current branch, both latest first.
-/
structure Level where
  wrapping : Wrapping := .plain
  flags : Flags
  branches : List Regex := []
  items : List Item := []
  deriving DecidableEq, Repr

namespace Level

/-- The current branch. -/
def branch (level : Level) : Regex :=
  Regex.sequence (level.items.reverse.filterMap Item.regex?)

/-- All branches as alternatives. -/
def body (level : Level) : Regex :=
  level.branches.foldl (fun rest branch => .either branch rest) level.branch

/-- The whole group. -/
def group (level : Level) : Regex :=
  match level.wrapping with
  | .plain => level.body
  | .capture number name => .capture number name level.body

/-- The level with one more item. -/
def push (level : Level) (regex : Regex) : Level :=
  { level with items := .part regex :: level.items }

/-- The level with its last item repeated, if it has one that can be. Of an item that is never
to occur nothing remains, not even its groups.
-/
def repeat? (level : Level) (least : Nat) (most : Option Nat) (greedy : Bool) : Option Level :=
  match level.items with
  | .part regex :: rest =>
      let repeated := if most = some 0 then .empty else .repeated regex least most greedy
      some { level with items := .part repeated :: rest }
  | _ => none

end Level

-----------------------------------------------------------------------------------------
-- Reading
-----------------------------------------------------------------------------------------

/-- What has been read so far: the innermost open level, those around it, innermost first, the
number of groups that capture, and the names of groups.
-/
structure Progress where
  level : Level
  outer : List Level := []
  captures : Nat := 0
  names : List String := []
  deriving DecidableEq, Repr

namespace Progress

/-- Opens a group. -/
def enter (progress : Progress) (wrapping : Wrapping) (flags : Flags) : Progress :=
  { progress with
    level := { wrapping, flags }
    outer := progress.level :: progress.outer }

/-- Takes one more lexeme into account. Names of groups must differ, a closing parenthesis needs
an open group, and a repetition something to repeat. Flags hold until their group is closed.
-/
def step (progress : Progress) (lexeme : Lexeme) : Option Progress :=
  let level := progress.level
  match lexeme with
  | .openCapture name =>
      let number := progress.captures + 1
      let names := name.toList
      if names.any progress.names.contains then none
      else
        some
          { progress.enter (.capture number name) level.flags with
            captures := number
            names := names ++ progress.names }
  | .openPlain change => some (progress.enter .plain (level.flags.apply change))
  | .flags change =>
      some
        { progress with
          level :=
            { level with flags := level.flags.apply change, items := .flags :: level.items } }
  | .bar =>
      some
        { progress with
          level := { level with branches := level.branch :: level.branches, items := [] } }
  | .close =>
      match progress.outer with
      | [] => none
      | around :: outer => some { progress with level := around.push level.group, outer }
  | .repetition least most greedy =>
      (level.repeat? least most greedy).map fun level => { progress with level }
  | lexeme =>
      (level.flags.meaning? lexeme).map fun regex =>
        { progress with level := level.push regex }

/-- The whole regular expression, if no group is open any more. -/
def finish (progress : Progress) : Option Regex :=
  if progress.outer.isEmpty then some progress.level.body else none

end Progress

/-- Reads a regular expression. Case does not matter from the start if so demanded. -/
def read? (ignoreCase : Bool) (written : List Char) : Option Regex := do
  let lexemes ← lexemes? written
  let progress ← lexemes.foldlM Progress.step { level := { flags := { ignoreCase } } }
  progress.finish

end TokenGrammar.Regex
