import ViewMarkup.Event

/-! # Building a tree

A builder constructs nodes one at a time. A new node gets the next identifier, goes to the innermost
open capture level, and becomes a root when no level is open. The first failure of a build is kept
as its fault: construction goes on, but no further content is started and the build ends in that
failure. Every failure is also an event.
-/

namespace ViewMarkup

open ViewMarkup.Random

/-- The state of a build. -/
structure Builder (γ : Type) where
  tree : Tree := {}
  stack : CaptureStack := {}
  ids : Allocator γ
  fault : Option BuildError := none
  events : Array Event := #[]

namespace Builder

variable {γ : Type}

/-- The number of open capture levels. -/
def depth (builder : Builder γ) : Nat :=
  builder.stack.depth

/-- Adds an event to the trail. -/
def emit (builder : Builder γ) (event : Event) : Builder γ :=
  { builder with events := builder.events.push event }

/-- Reports a failure, and keeps it as the fault if it is the first. -/
def record (builder : Builder γ) (error : BuildError) : Builder γ :=
  { builder.emit (.buildAborted error builder.depth) with fault := builder.fault.or (some error) }

/-- The identifier for the next node, empty when there is none left. -/
def nextIdentifier [Generator γ] (builder : Builder γ) : String × Builder γ :=
  match builder.ids.allocate with
  | .ok (identifier, ids) => (identifier, { builder with ids := ids })
  | .error cause => ("", builder.record (.identifier cause))

/-- Adds a node to the tree and to the innermost open level, or to the roots. Its key is the size of
the tree before. -/
def place (builder : Builder γ) (node : Node) : Builder γ :=
  let key := builder.tree.size
  match builder.stack.collect? key with
  | some stack => { builder with tree := builder.tree.insert node, stack := stack }
  | none => { builder with tree := (builder.tree.insert node).addRoot key }

/-- Constructs a node of a kind. -/
def construct [Generator γ] (builder : Builder γ) (kind : Kind) : Builder γ :=
  let (identifier, named) := builder.nextIdentifier
  named.place { identifier, kind }

/-- Opens a capture level. -/
def beginCapture (builder : Builder γ) : Builder γ :=
  let stack := builder.stack.openLevel
  { builder with stack := stack }.emit (.captureBegan stack.depth)

/-- Closes the innermost capture level and hands over its nodes. -/
def closeLevel (builder : Builder γ) (token : Token) :
    Except CaptureError (List Key × Builder γ) :=
  match builder.stack.closeLevel token with
  | .ok (keys, stack) =>
    .ok (keys, { builder with stack := stack }.emit (.captureEnded stack.depth keys.length))
  | .error cause => .error cause

/-- Whether captured nodes can go below a node: it exists, it has no children yet, and neither it
nor a node above it is among them. -/
def canAdopt (tree : Tree) (parent : Key) (keys : List Key) : Bool :=
  tree.contains parent && (tree.children parent).isEmpty &&
    !(keys.contains parent || (tree.ancestors parent).any keys.contains)

/-- Closes the innermost capture level and attaches its nodes to a node. When they cannot be
attached the level is closed all the same and its nodes are lost. -/
def endCapture (builder : Builder γ) (token : Token) (parent : Key) :
    Except BuildError Unit × Builder γ :=
  match builder.closeLevel token with
  | .error cause => (.error (.capture cause), builder.record (.capture cause))
  | .ok (keys, closed) =>
    if canAdopt closed.tree parent keys then
      (.ok (), { closed with tree := closed.tree.attach parent keys })
    else
      let error : BuildError := .capture (.invalidParent (closed.tree.identifierOf parent))
      (.error error, closed.record error)

/-- Closes the level of a container and attaches its nodes to the container. -/
def closeContainer (builder : Builder γ) (token : Token) (key : Key) : Builder γ :=
  match builder.closeLevel token with
  | .ok (keys, closed) => { closed with tree := closed.tree.attach key keys }
  | .error cause => builder.record (.capture cause)

/-- Applies modifiers to a node. -/
def modify (builder : Builder γ) (key : Key) (modifiers : List Modifier) : Builder γ :=
  { builder with
    tree := builder.tree.modifyAll key modifiers
    events := builder.events ++ (builder.tree.warnings key modifiers).toArray }

/-- The outcome of a build: its fault if there is one, else an error when a level is still open,
else the tree. -/
def outcome (builder : Builder γ) : Except BuildError Tree :=
  match builder.fault with
  | some fault => .error fault
  | none =>
    match builder.stack.finish with
    | .error cause => .error (.capture cause)
    | .ok () => .ok builder.tree

/-- Ends a build: its outcome and all its events, the last of which reports success. -/
def finish (builder : Builder γ) : Except BuildError Tree × Array Event :=
  match builder.outcome with
  | .ok tree => (.ok tree, builder.events.push (.buildFinished tree.size tree.roots.size))
  | .error error => (.error error, builder.events)

end Builder

end ViewMarkup
