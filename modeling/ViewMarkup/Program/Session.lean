import ViewMarkup.Builder
import ViewMarkup.Outline
import ViewMarkup.Program.Statement

/-! # Running a program

A session is a builder together with what the statements of a program have stored: names of nodes,
tokens of levels opened by hand, and a journal of the steps taken.
-/

namespace ViewMarkup

open ViewMarkup.Random

/-- Where a build stands. -/
structure Status where
  depth : Nat
  size : Nat
  fault : Option BuildError
deriving DecidableEq, Repr, Inhabited

/-- Where a builder stands. -/
def Builder.status {γ : Type} (builder : Builder γ) : Status :=
  ⟨builder.depth, builder.tree.size, builder.fault⟩

/-- What a journal entry reports. -/
inductive StepReport where
  | constructed (label identifier : String)
  | opened (token : Token)
  | closed (result : Except BuildError Unit)
  | snapshot (outline : Except Text.WidthError String) (roots : List String)

/-- A step of a program, with where the build stands after it. -/
structure Step where
  report : StepReport
  status : Status

/-- The state of a run. -/
structure Session (γ : Type) where
  builder : Builder γ
  names : List (String × Key) := []
  tokens : List (String × Token) := []
  journal : Array Step := #[]

namespace Session

variable {γ : Type}

/-- Enters a step in the journal. -/
def note (session : Session γ) (report : StepReport) : Session γ :=
  { session with journal := session.journal.push ⟨report, session.builder.status⟩ }

/-- Finishes a constructed node: modifiers, then its name, then the journal. -/
def finishNode (session : Session γ) (key : Key) (finish : Finish) : Session γ :=
  let modified := { session with builder := session.builder.modify key finish.modifiers }
  let named :=
    match finish.name with
    | some name => { modified with names := (name, key) :: modified.names }
    | none => modified
  match finish.label with
  | some label => named.note (.constructed label (named.builder.tree.identifierOf key))
  | none => named

/-- Constructs a node. Its key is the size of the tree before. -/
def construct [Generator γ] (session : Session γ) (kind : Kind) : Session γ :=
  { session with builder := session.builder.construct kind }

/-- Opens a level and stores its token, in place of an earlier one of that name. -/
def beginCapture (session : Session γ) (name : String) : Session γ :=
  let builder := session.builder.beginCapture
  { session with
    builder := builder
    tokens := (name, builder.stack.token) :: session.tokens.filter (·.1 != name) }.note
      (.opened builder.stack.token)

/-- Takes a token; a stored one is gone afterwards. -/
def takeToken? (session : Session γ) : TokenReference → Option (Token × Session γ)
  | .forged token => some (token, session)
  | .stored name =>
    (session.tokens.lookup name).map fun token =>
      (token, { session with tokens := session.tokens.filter (·.1 != name) })

/-- Closes a level. Without a token there is nothing to close. -/
def endCapture (session : Session γ) (token : TokenReference) (parent : Reference) : Session γ :=
  match session.takeToken? token with
  | none => session
  | some (token, session) =>
    let parent := parent.resolve session.names session.builder.tree
    let (result, builder) := session.builder.endCapture token parent
    { session with builder := builder }.note (.closed result)

/-- Enters a snapshot of the tree in the journal. -/
def snapshot (session : Session γ) : Session γ :=
  let tree := session.builder.tree
  session.note (.snapshot tree.outline (tree.roots.toList.map tree.identifierOf))

/-- Opens the level of a container. -/
def openContainer (session : Session γ) : Session γ :=
  { session with builder := session.builder.beginCapture }

/-- Closes the level of a container. -/
def closeContainer (session : Session γ) (token : Token) (key : Key) : Session γ :=
  { session with builder := session.builder.closeContainer token key }

end Session

variable {γ : Type}

mutual

/-- Runs one statement. A container constructs its node and then, unless there is a fault, runs its
content in a level of its own. -/
def Statement.run [Generator γ] (session : Session γ) : Statement → Session γ
  | .leaf kind finish =>
    (session.construct kind).finishNode session.builder.tree.size finish
  | .container kind content finish =>
    let key := session.builder.tree.size
    let constructed := session.construct kind
    let filled :=
      if constructed.builder.fault.isNone then
        let opened := constructed.openContainer
        (Program.run opened content).closeContainer opened.builder.stack.token key
      else constructed
    filled.finishNode key finish
  | .beginCapture name => session.beginCapture name
  | .endCapture token parent => session.endCapture token parent
  | .snapshot => session.snapshot

/-- Runs the statements of a program in order. -/
def Program.run [Generator γ] (session : Session γ) : List Statement → Session γ
  | [] => session
  | statement :: rest => Program.run (statement.run session) rest

end

/-- A program runs in two parts as it runs in one. -/
theorem Program.run_append [Generator γ] (session : Session γ) (first second : Program) :
    Program.run session (first ++ second) = Program.run (Program.run session first) second := by
  induction first generalizing session with
  | nil => simp [Program.run]
  | cons statement rest ih => simp [Program.run, ih]

end ViewMarkup
