import ViewMarkup.Capture
import ViewMarkup.Identifier.Allocator

/-! # Failures of a build and the events of a run

A build fails because a capture level was misused or because identifiers ran out. Every run also
leaves a trail of events, each with a level, a message and the values that the message speaks of.
-/

namespace ViewMarkup

/-- Why a build failed. -/
inductive BuildError where
  | capture (cause : CaptureError)
  | identifier (cause : AllocationError)
deriving DecidableEq, Repr, Inhabited

/-- The wording of a failure. -/
def BuildError.message : BuildError → String
  | capture cause => "capture error: " ++ cause.message
  | identifier cause => "identifier error: " ++ cause.message

/-- How much attention an event asks for. -/
inductive Level where
  | trace
  | debug
  | warn
  | error
deriving DecidableEq, Repr, Inhabited

/-- The written name of a level. -/
def Level.name : Level → String
  | trace => "TRACE"
  | debug => "DEBUG"
  | warn => "WARN"
  | error => "ERROR"

/-- Something that happened during a run. Depths are those after the event. -/
inductive Event where
  | captureBegan (depth : Nat)
  | captureEnded (depth children : Nat)
  | buildFinished (nodes roots : Nat)
  | buildAborted (cause : BuildError) (depth : Nat)
  | renderFinished (nodes handlers : Nat)
  | fontIgnored (typeName : String)
deriving DecidableEq, Repr, Inhabited

namespace Event

/-- The level of an event. -/
def level : Event → Level
  | captureBegan _ | captureEnded .. => .trace
  | buildFinished .. | renderFinished .. => .debug
  | fontIgnored _ => .warn
  | buildAborted .. => .error

/-- The message of an event. -/
def message : Event → String
  | captureBegan _ => "capture begin"
  | captureEnded .. => "capture end"
  | buildFinished .. => "build finished"
  | buildAborted .. => "build aborted"
  | renderFinished .. => "render finished"
  | fontIgnored _ => "font applies to Text only"

end Event

/-- The events of applying modifiers to a node: a warning for each one that the node ignores. -/
def Tree.warnings (tree : Tree) (key : Key) (modifiers : List Modifier) : List Event :=
  match tree.get? key with
  | some node => (modifiers.filter node.ignores).map fun _ => .fontIgnored node.kind.typeName
  | none => []

end ViewMarkup
