import ViewMarkup.View.Kind

/-! # Nodes and their modifiers

A node is an identifier, a kind, the modifiers set on it and the style tokens it declares. A
modifier changes one value of one node, and of several calls for the same value the last one counts.
-/

namespace ViewMarkup

/-- The padding around a node: the amount that the renderer holds as its default, or a length. -/
inductive Padding where
  | default
  | length (amount : UInt32)
deriving DecidableEq, Repr, Inhabited

/-- The presentation values set on a node. -/
structure Modifiers where
  padding : Option Padding := none
  background : Option String := none
  foregroundStyle : Option String := none
deriving DecidableEq, Repr, Inhabited

/-- Whether no presentation value is set. -/
def Modifiers.isEmpty (modifiers : Modifiers) : Bool :=
  modifiers.padding.isNone && modifiers.background.isNone && modifiers.foregroundStyle.isNone

/-- One view of a tree, without its place in it. -/
structure Node where
  identifier : String
  kind : Kind
  modifiers : Modifiers := {}
  frame : Frame := {}
deriving DecidableEq, Repr, Inhabited

/-- A change to one node. -/
inductive Modifier where
  | padding (amount : Padding)
  | background (token : String)
  | foregroundStyle (token : String)
  | font (token : String)
  | style (key : StyleKey) (token : String)
deriving DecidableEq, Repr, Inhabited

namespace Node

/-- Applies a modifier. -/
def modify (node : Node) : Modifier → Node
  | .padding amount => { node with modifiers := { node.modifiers with padding := some amount } }
  | .background token => { node with modifiers := { node.modifiers with background := some token } }
  | .foregroundStyle token =>
    { node with modifiers := { node.modifiers with foregroundStyle := some token } }
  | .font token => { node with kind := node.kind.withFont token }
  | .style key token => { node with frame := node.frame.declare key token }

/-- Whether a modifier has nothing to act on: a font on a node that is no text. -/
def ignores (node : Node) : Modifier → Bool
  | .font _ => !node.kind.takesFont
  | _ => false

/-- Whether a click on the node runs an action. -/
def hasAction (node : Node) : Bool :=
  node.kind.action?.isSome

@[simp] theorem identifier_modify (node : Node) (modifier : Modifier) :
    (node.modify modifier).identifier = node.identifier := by
  cases modifier <;> rfl

@[simp] theorem identifier_foldl_modify (node : Node) (modifiers : List Modifier) :
    (modifiers.foldl modify node).identifier = node.identifier := by
  induction modifiers generalizing node with
  | nil => rfl
  | cons modifier rest ih => rw [List.foldl_cons, ih, identifier_modify]

@[simp] theorem action?_withFont (kind : Kind) (token : String) :
    (kind.withFont token).action? = kind.action? := by
  cases kind <;> rfl

@[simp] theorem action?_modify (node : Node) (modifier : Modifier) :
    (node.modify modifier).kind.action? = node.kind.action? := by
  cases modifier <;> simp [modify]

end Node

end ViewMarkup
