import TokenGrammar.ParseError

/-! Replies of parsers: the outcome and the events that led to it. An outcome can be a failure,
from which a parser may recover, or it can be unresolved, from which none recovers: then a rule
had no definition or was nested without end.
-/

namespace TokenGrammar

/-- What a parser records about its course. -/
inductive Event where
  | patternMatched (written : String) (size index : Nat)
  | optionalSkipped (error : ParseError)
  | alternativeMatched (number index : Nat)
  | sequenceStopped (index : Nat)
  | listEnded (index : Nat)
  | listStalled (index : Nat)

/-- The wording of an event. -/
def Event.message : Event → String
  | .patternMatched written size index =>
      located ("/" ++ written ++ "/ matched " ++ toString size ++ " bytes") index
  | .optionalSkipped error => "optional parser skipped: " ++ error.display
  | .alternativeMatched number index =>
      located ("alternative " ++ toString number ++ " matched") index
  | .sequenceStopped index => located "sequence stopped early" index
  | .listEnded index => located "list end detected" index
  | .listStalled index => located "list item consumed nothing" index

/-- Events in the order in which they happened. -/
inductive Trace where
  | empty
  | single (event : Event)
  | append (first second : Trace)

namespace Trace

/-- The events of one trace and then those of another. -/
def followedBy : Trace → Trace → Trace
  | .empty, second => second
  | first, .empty => first
  | first, second => .append first second

/-- The events of a trace in front of other events. -/
def onto : Trace → List Event → List Event
  | .empty, events => events
  | .single event, events => event :: events
  | .append first second, events => first.onto (second.onto events)

/-- All events of a trace. -/
def events (trace : Trace) : List Event :=
  trace.onto []

end Trace

/-- A result, a failure, or no answer at all. -/
inductive Outcome (β : Type) where
  | matched (result : β)
  | failed (error : ParseError)
  | unresolved

/-- An outcome, with the events on the way to it. -/
structure Reply (β : Type) where
  trace : Trace
  outcome : Outcome β

variable {β γ : Type}

namespace Outcome

/-- The result of a match. -/
def result? : Outcome β → Option β
  | .matched result => some result
  | _ => none

/-- There is a result. -/
def isMatched (outcome : Outcome β) : Bool :=
  outcome.result?.isSome

end Outcome

namespace Reply

/-- An outcome without events. -/
def of (outcome : Outcome β) : Reply β :=
  { trace := .empty, outcome }

/-- Succeeds at once. -/
def matched (result : β) : Reply β :=
  of (.matched result)

/-- Fails at once. -/
def failed (error : ParseError) : Reply β :=
  of (.failed error)

/-- Does not come to an answer. -/
def unresolved : Reply β :=
  of .unresolved

/-- The same reply, preceded by the given events. -/
def after (trace : Trace) (reply : Reply β) : Reply β :=
  { reply with trace := trace.followedBy reply.trace }

/-- The same reply, preceded by one event. -/
def noting (event : Event) (reply : Reply β) : Reply β :=
  reply.after (.single event)

/-- Goes on after a match or after a failure, each in its own way, and keeps the events in
order.
-/
def fold (reply : Reply β) (onMatch : β → Reply γ) (onFailure : ParseError → Reply γ)
    : Reply γ :=
  match reply.outcome with
  | .matched result => (onMatch result).after reply.trace
  | .failed error => (onFailure error).after reply.trace
  | .unresolved => { trace := reply.trace, outcome := .unresolved }

/-- Goes on after a match. -/
def bind (reply : Reply β) (next : β → Reply γ) : Reply γ :=
  reply.fold next failed

/-- Changes the result of a match. -/
def map (change : β → γ) (reply : Reply β) : Reply γ :=
  reply.bind (matched ∘ change)

/-- Goes on after a failure. -/
def recover (reply : Reply β) (handle : ParseError → Reply β) : Reply β :=
  reply.fold matched handle

end Reply

end TokenGrammar
