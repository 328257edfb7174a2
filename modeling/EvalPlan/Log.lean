import EvalPlan.Log.Level
import EvalPlan.Value.Tree

/-!
# Logging

Loggers and what they leave behind. A logger either records its entries or prints the lines of its
component that are urgent enough; a logger for a part of a component writes through another one and
puts the part's name in front of each message. The logger that scripts hold is an object whose
methods they may replace; whatever is written through it goes through the methods it has then.
-/

namespace EvalPlan

/-- Where log entries go. -/
inductive Sink
  /-- They are recorded. -/
  | record
  /-- They are printed under the name of a component. -/
  | console (component : Text) (threshold : Threshold)
deriving Inhabited

/-- How the methods of a logger are reached when it writes. -/
inductive Reach
  /-- Scripts know nothing of it. -/
  | direct
  /-- Scripts hold its object and may replace its methods. -/
  | object
  /-- The engine is asked for it each time; scripts may replace all of it. -/
  | engine
deriving DecidableEq, Inhabited

/-- A logger: where its entries go, the parts whose names stand in front of its messages, the
innermost first, and how its methods are reached. -/
structure Logger where
  /-- Where entries go. -/
  sink : Sink
  /-- The names of the parts. -/
  scopes : List Text
  /-- How its methods are reached. -/
  reach : Reach
deriving Inhabited

namespace Logger

/-- A logger that prints what is urgent enough. -/
def console (component : Text) (threshold : Threshold) : Logger :=
  { sink := .console component threshold, scopes := [], reach := .direct }

/-- A logger that prints what is at least informative. -/
def printing (component : Text) : Logger := console component (.from .info)

/-- The same logger in the hands of scripts. -/
def expose (l : Logger) : Logger := { l with reach := .object }

/-- A logger that records; there is one of it, and scripts hold it. -/
def recording : Logger := { sink := .record, scopes := [], reach := .object }

/-- The same logger as the engine asks itself for it. -/
def ofEngine (l : Logger) : Logger := { l with reach := .engine }

/-- A logger for a part. -/
def forPart (l : Logger) (scope : Text) : Logger := { l with scopes := scope :: l.scopes }

/-- A name in brackets and a blank. -/
def bracketed (name : Text) : Text := "[" ++ name ++ "] "

/-- A message with the names of the parts in front, the outermost first. -/
def labelled (l : Logger) (message : Text) : Text :=
  l.scopes.foldl (fun m scope => bracketed scope ++ m) message

end Logger

/-- A way to print. -/
inductive Channel
  /-- The report itself. -/
  | report
  /-- A log entry of a level. -/
  | level (l : Level)
deriving DecidableEq

/-- What a run leaves behind, in order: log entries, printed lines, events, lookups and calls. -/
inductive Notice
  /-- A recorded log entry. -/
  | entry (level : Level) (message : Portrait) (data : Option Portrait)
  /-- A printed line. -/
  | line (channel : Channel) (arguments : List Portrait)
  /-- An event that an observer saw. -/
  | event (type : Text) (data : Option Portrait) (run : Option RunId)
  /-- A logical path that resources were asked for. -/
  | lookup (path : Text)
  /-- A mapping that a registry announced. -/
  | registered (type builder : Portrait)
  /-- A moment of a run that a listener was told of. -/
  | moment (name : Text) (details : List Portrait)
  /-- A handler that was called with an event. -/
  | handled (handler : Text) (type : Text) (data : Option Portrait)

namespace Notice

/-- The path that a lookup asked for. -/
def lookup? : Notice → Option Text
  | lookup path => some path
  | _ => none

/-- The runs that a notice refers to. -/
def runs : Notice → List RunId
  | entry _ _ data => (data.map Portrait.runs).getD []
  | event _ _ run => run.toList
  | _ => []

/-- The runs that notices refer to, in the order in which they first come. -/
def runOrder (notices : List Notice) : List RunId := (notices.flatMap runs).eraseDups

end Notice

end EvalPlan
