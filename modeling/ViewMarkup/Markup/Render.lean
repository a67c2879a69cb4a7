import ViewMarkup.Event
import ViewMarkup.Markup.Writer
import ViewMarkup.Script
import ViewMarkup.Tree.Forest

/-! # Rendering a tree

The elements of a tree are made in one pass from the roots down. The pass keeps the frames of the
nodes on the way, so that the style of a node is that of the nearest declaration above it, and it
gathers the handlers in document order.
-/

namespace ViewMarkup

/-- Choices of the written form: blanks per level, and the amount of a default padding. -/
structure Layout where
  indent : Nat := 2
  defaultPadding : UInt32 := 16
deriving DecidableEq, Repr, Inhabited

/-- The amount of a padding. -/
def Layout.amount (layout : Layout) : Padding → UInt32
  | .default => layout.defaultPadding
  | .length amount => amount

/-- The attributes that only a kind itself gives. -/
def Kind.attributes : Kind → List Attribute
  | .text _ (some font) => [⟨"font", font⟩]
  | .sectionGroup (some header) => [⟨"header", header⟩]
  | .disclosureGroup title isExpanded =>
    ⟨"title", title⟩ :: isExpanded.toList.map (⟨"bind", ·⟩)
  | .forEach data item => [⟨"for-each", item ++ " in " ++ data⟩]
  | .toggle _ isOn => [⟨"bind", isOn⟩]
  | .textField placeholder binding secure =>
    [⟨"type", if secure then "password" else "text"⟩, ⟨"placeholder", placeholder⟩,
      ⟨"bind", binding⟩]
  | .datePicker _ selection components =>
    [⟨"type", if components.contains .hourAndMinute then "datetime" else "date"⟩,
      ⟨"bind", selection⟩]
  | .colorPicker _ selection supportsOpacity =>
    [⟨"bind", selection⟩, ⟨"supports-opacity", if supportsOpacity then "true" else "false"⟩]
  | _ => []

/-- The attributes of the modifiers that are set. -/
def Modifiers.attributes (layout : Layout) (modifiers : Modifiers) : List Attribute :=
  modifiers.padding.toList.map (fun padding => ⟨"padding", (layout.amount padding).toNat.repr⟩) ++
    modifiers.background.toList.map (⟨"background", ·⟩) ++
    modifiers.foregroundStyle.toList.map (⟨"foregroundStyle", ·⟩)

/-- The class of a node, with the style that it is drawn in. -/
def Kind.styledClass (kind : Kind) (style : StyleKey → String) : String :=
  match kind.styleKey? with
  | some key => kind.className ++ " " ++ style key
  | none => kind.className

/-- The attributes of a node in their fixed order: modifiers, class, those of the kind, and an
identifier if the node has an action. -/
def Node.attributes (layout : Layout) (style : StyleKey → String) (node : Node) : List Attribute :=
  node.modifiers.attributes layout ++ [⟨"class", node.kind.styledClass style⟩] ++
    node.kind.attributes ++ (if node.hasAction then [⟨"id", node.identifier⟩] else [])

/-- The handler that a node registers. -/
def Node.handler? (node : Node) : Option Handler :=
  node.kind.action?.map fun action => { identifier := node.identifier, action }

/-- The state of the pass: the frames of the nodes on the way, and the handlers so far. -/
structure Pass where
  environment : Environment := {}
  handlers : Array Handler := #[]
deriving DecidableEq, Repr, Inhabited

namespace Pass

/-- Enters a node. -/
def enter (pass : Pass) (node : Node) : Pass :=
  { environment := pass.environment.push node.frame
    handlers := pass.handlers ++ node.handler?.toList.toArray }

/-- Leaves a node. -/
def leave (pass : Pass) : Pass :=
  { pass with environment := pass.environment.pop }

end Pass

mutual

/-- The element of a branch. -/
def Branch.render (layout : Layout) (pass : Pass) : Branch → Element × Pass
  | .mk _ node children =>
    let entered := pass.enter node
    let attributes := node.attributes layout entered.environment.style
    let (elements, visited) := Branch.renderAll layout entered children
    let element :=
      if children.isEmpty then
        Element.text node.kind.tag attributes (node.kind.bodyText?.getD "")
      else Element.group node.kind.tag attributes elements
    (element, visited.leave)

/-- The elements of several branches in order. -/
def Branch.renderAll (layout : Layout) (pass : Pass) : List Branch → List Element × Pass
  | [] => ([], pass)
  | branch :: rest =>
    let (element, afterBranch) := branch.render layout pass
    let (elements, afterRest) := Branch.renderAll layout afterBranch rest
    (element :: elements, afterRest)

end

/-- Why a tree is not rendered: a line is set in by more than a text can have, or a script entry by
more than a field may be wide. -/
inductive RenderError where
  | capacity (cause : Text.CapacityError)
  | width (cause : Text.WidthError)
deriving DecidableEq, Repr, Inhabited

/-- The wording of a rendering that fails. -/
def RenderError.message : RenderError → String
  | .capacity cause => cause.message
  | .width cause => cause.message

/-- What a tree is rendered to. -/
structure Output where
  markup : String
  script : String
  handlers : List Handler
deriving DecidableEq, Repr, Inhabited

namespace Tree

/-- The elements of a tree. -/
def elements (layout : Layout) (tree : Tree) : List Element :=
  (Branch.renderAll layout {} tree.forest).1

/-- The handlers of a tree in document order. -/
def handlers (layout : Layout) (tree : Tree) : List Handler :=
  (Branch.renderAll layout {} tree.forest).2.handlers.toList

/-- Renders a tree. The script is written after the markup, and each can be set in too far. -/
def render (layout : Layout) (tree : Tree) : Except RenderError Output :=
  let (elements, pass) := Branch.renderAll layout {} tree.forest
  match Element.markup layout.indent elements with
  | .error cause => .error (.capacity cause)
  | .ok markup =>
    match Handler.script layout.indent pass.handlers.toList with
    | .error cause => .error (.width cause)
    | .ok script => .ok { markup, script, handlers := pass.handlers.toList }

/-- The event that reports a finished rendering of a tree. -/
def rendered (tree : Tree) (output : Output) : Event :=
  .renderFinished tree.size output.handlers.length

end Tree

end ViewMarkup
