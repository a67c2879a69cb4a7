import ViewMarkup.Tree.Walk
import ViewMarkup.Capture

/-! # Programs

A program is a list of statements. Most construct a node: a leaf, or a container with the statements
of its content. The others open and close capture levels by hand, and take snapshots. The functions
`vstack`, `text`, `button` and so on write the statement that constructs one type of view.
-/

namespace ViewMarkup

/-- A way to point at a node: by the name a statement stored it under, by its identifier, by its
place among the roots and then among children, by its key, or at no node at all. -/
inductive Reference where
  | named (name : String)
  | identified (identifier : String)
  | place (steps : List Nat)
  | numbered (key : Key)
  | nothing
deriving DecidableEq, Repr, Inhabited

/-- A way to come by a token: the one stored under a name, which can be used once, or one made up
for a depth. -/
inductive TokenReference where
  | stored (name : String)
  | forged (token : Token)
deriving DecidableEq, Repr, Inhabited

/-- What happens to a node after its construction: modifiers are applied, it is stored under a name,
and the step is entered in the journal under a label. -/
structure Finish where
  modifiers : List Modifier := []
  name : Option String := none
  label : Option String := none
deriving DecidableEq, Repr, Inhabited

/-- One step of a program. -/
inductive Statement where
  | leaf (kind : Kind) (finish : Finish)
  | container (kind : Kind) (content : List Statement) (finish : Finish)
  | beginCapture (name : String)
  | endCapture (token : TokenReference) (parent : Reference)
  | snapshot
deriving Repr, Inhabited

/-- Statements in the order in which they run. -/
abbrev Program := List Statement

namespace Reference

/-- The node reached from a node by child numbers. -/
def descend (tree : Tree) : List Nat → Key → Option Key
  | [], key => some key
  | step :: rest, key =>
    match (tree.children key)[step]? with
    | some child => descend tree rest child
    | none => none

/-- The node that a reference points at. -/
def find? (names : List (String × Key)) (tree : Tree) : Reference → Option Key
  | named name => names.lookup name
  | identified identifier => tree.findIdentifier? identifier
  | place [] => none
  | place (step :: rest) =>
    match tree.roots[step]? with
    | some root => descend tree rest root
    | none => none
  | numbered key => some key
  | nothing => none

/-- The key that a reference stands for, which has no node when the reference points at none. -/
def resolve (names : List (String × Key)) (tree : Tree) (reference : Reference) : Key :=
  (reference.find? names tree).getD tree.absent

end Reference

namespace Statement

/-- Sets what happens to the node after its construction. -/
def finishing (finish : Finish) : Statement → Statement
  | leaf kind _ => leaf kind finish
  | container kind content _ => container kind content finish
  | other => other

/-- A title that is not empty. -/
def title? (title : String) : Option String :=
  if title = "" then none else some title

/-- Children from top to bottom. -/
def vstack (content : Program) : Statement :=
  container .vstack content {}

/-- Children from left to right. -/
def hstack (content : Program) : Statement :=
  container .hstack content {}

/-- A list of rows. -/
def list (content : Program) : Statement :=
  container .list content {}

/-- A form. -/
def form (content : Program) : Statement :=
  container .form content {}

/-- A section, with a header if one is given. -/
def sectionGroup (header : Option String) (content : Program) : Statement :=
  container (.sectionGroup header) content {}

/-- A group that can be folded, with its state bound if a binding is given. -/
def disclosureGroup (title : String) (isExpanded : Option String) (content : Program) : Statement :=
  container (.disclosureGroup title isExpanded) content {}

/-- The content once for every element of the data. -/
def forEach (data item : String) (content : Program) : Statement :=
  container (.forEach data item) content {}

/-- A text. -/
def text (content : String) : Statement :=
  leaf (.text content none) {}

/-- A button with a text label, with or without an action. -/
def button (label : String) (action : Option String) : Statement :=
  leaf (.button (some label) action) {}

/-- A button whose label is its content. -/
def buttonAround (action : String) (content : Program) : Statement :=
  container (.button none (some action)) content {}

/-- A switch; an empty title is no title. -/
def toggle (title isOn : String) : Statement :=
  leaf (.toggle (title? title) isOn) {}

/-- A field for a line of text. -/
def textField (placeholder binding : String) : Statement :=
  leaf (.textField placeholder binding false) {}

/-- A field for a secret. -/
def secureField (placeholder binding : String) : Statement :=
  leaf (.textField placeholder binding true) {}

/-- A date picker; an empty title is no title, and without components it picks a date. -/
def datePicker (title selection : String) (components : List DateComponent) : Statement :=
  leaf (.datePicker (title? title) selection
    (if components.isEmpty then [.date] else components)) {}

/-- A colour picker; an empty title is no title. -/
def colorPicker (title selection : String) (supportsOpacity : Bool) : Statement :=
  leaf (.colorPicker (title? title) selection supportsOpacity) {}

end Statement

namespace Program

/-- A program several times over. -/
def times (count : Nat) (program : Program) : Program :=
  (List.replicate count program).flatten

/-- Containers of one kind inside each other, around a program. -/
def nested (kind : Kind) (modifiers : List Modifier) : Nat → Program → Program
  | 0, program => program
  | count + 1, program => [.container kind (nested kind modifiers count program) { modifiers }]

end Program

end ViewMarkup
