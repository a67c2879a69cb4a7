import ViewMarkup.Tree.Basic
import ViewMarkup.Text.Quoted

/-! # Capture levels

While the content of a container runs, the nodes it constructs are collected for that container.
Each open level has a collector of its own: opening a level sets the collector of the enclosing
level aside, and closing it hands the collected nodes over and brings the enclosing collector back.
A level is closed by a token that holds the depth at which it was opened.
-/

namespace ViewMarkup

/-- The nodes constructed directly at one level, in order. -/
structure Collector where
  keys : Array Key := #[]
deriving DecidableEq, Repr, Inhabited

namespace Collector

/-- Adds a node at the end. -/
def push (collector : Collector) (key : Key) : Collector :=
  ⟨collector.keys.push key⟩

/-- All nodes, and the emptied collector. -/
def drain (collector : Collector) : List Key × Collector :=
  (collector.keys.toList, {})

/-- The number of nodes. -/
def size (collector : Collector) : Nat :=
  collector.keys.size

/-- Whether there is no node. -/
def isEmpty (collector : Collector) : Bool :=
  collector.keys.isEmpty

end Collector

/-- What can be wrong with a level that is closed, left open, or attached. -/
inductive CaptureError where
  | notCapturing
  | unbalanced (expected found : Nat)
  | unclosed (depth : Nat)
  | invalidParent (owner : String)
deriving DecidableEq, Repr, Inhabited

/-- The wording of a capture error. -/
def CaptureError.message : CaptureError → String
  | notCapturing => "end_capture called with no capture open"
  | unbalanced expected found =>
    "unbalanced capture: closing level " ++ expected.repr ++ " while level " ++ found.repr ++
      " is innermost"
  | unclosed depth => depth.repr ++ " capture level(s) still open at end of build"
  | invalidParent owner => "captured nodes cannot be attached to node " ++ Text.quote owner

/-- The right to close a level: the depth at which it was opened, 1 for the outermost. -/
structure Token where
  depth : Nat
deriving DecidableEq, Repr, Inhabited

/-- A token of some level of another stack. The outermost level is at depth 1, so no token is at
depth 0. -/
def Token.foreign (depth : Nat) : Token :=
  ⟨max 1 depth⟩

/-- The number of open levels, the collector of the innermost, and the collectors set aside when the
levels were opened, the latest first. -/
structure CaptureStack where
  depth : Nat := 0
  current : Option Collector := none
  parked : List (Option Collector) := []
deriving DecidableEq, Repr, Inhabited

namespace CaptureStack

/-- Whether a level is open. -/
def isCapturing (stack : CaptureStack) : Bool :=
  0 < stack.depth

/-- Opens a level with an empty collector. -/
def openLevel (stack : CaptureStack) : CaptureStack :=
  { depth := stack.depth + 1
    current := some {}
    parked := stack.current :: stack.parked }

/-- The token of the innermost level. -/
def token (stack : CaptureStack) : Token :=
  ⟨stack.depth⟩

/-- Collects a node at the innermost level; `none` when no level takes it. -/
def collect? (stack : CaptureStack) (key : Key) : Option CaptureStack :=
  if stack.depth = 0 then none
  else stack.current.map fun collector => { stack with current := some (collector.push key) }

/-- The nodes collected at the innermost level. -/
def collected (stack : CaptureStack) : List Key :=
  (stack.current.map (·.drain.1)).getD []

/-- The stack without its innermost level. -/
def dropLevel (stack : CaptureStack) : CaptureStack :=
  { depth := stack.depth - 1
    current := stack.parked.head?.join
    parked := stack.parked.tail }

/-- Closes the innermost level and hands over its nodes. Any other level cannot be closed, and the
attempt changes nothing. -/
def closeLevel (stack : CaptureStack) (token : Token) :
    Except CaptureError (List Key × CaptureStack) :=
  if stack.depth = 0 then .error .notCapturing
  else if token.depth ≠ stack.depth then .error (.unbalanced token.depth stack.depth)
  else .ok (stack.collected, stack.dropLevel)

/-- Checks that every level is closed. -/
def finish (stack : CaptureStack) : Except CaptureError Unit :=
  if 0 < stack.depth then .error (.unclosed stack.depth) else .ok ()

@[simp] theorem depth_openLevel (stack : CaptureStack) : stack.openLevel.depth = stack.depth + 1 :=
  rfl

theorem closeLevel_of_ne {stack : CaptureStack} {token : Token} (capturing : stack.depth ≠ 0)
    (other : token.depth ≠ stack.depth) :
    stack.closeLevel token = .error (.unbalanced token.depth stack.depth) := by
  rw [closeLevel, if_neg capturing, if_pos other]

theorem closeLevel_of_eq {stack : CaptureStack} {token : Token} (capturing : stack.depth ≠ 0)
    (innermost : token.depth = stack.depth) :
    stack.closeLevel token = .ok (stack.collected, stack.dropLevel) := by
  rw [closeLevel, if_neg capturing, if_neg (not_not_intro innermost)]

end CaptureStack

end ViewMarkup
