import ViewMarkup.View.Node

/-! # View trees

A tree keeps every node that was ever constructed, in the order of construction, and the number of a
node in that order is its key. A node starts without parent and without children. It gets a parent
when a finished list of children is attached to a container; a node constructed outside every
container is a root.
-/

namespace ViewMarkup

/-- A node's number in the order of construction. -/
abbrev Key := Nat

/-- A node with its links. -/
structure Cell where
  node : Node
  parent : Option Key := none
  children : List Key := []
deriving DecidableEq, Repr, Inhabited

/-- The cells in the order of construction, and the keys of the roots. -/
structure Tree where
  cells : Array Cell := #[]
  roots : Array Key := #[]
deriving DecidableEq, Repr, Inhabited

namespace Tree

/-- The number of nodes. -/
def size (tree : Tree) : Nat :=
  tree.cells.size

/-- Whether there is no node. -/
def isEmpty (tree : Tree) : Bool :=
  tree.size = 0

/-- The cell of a key. -/
def cell? (tree : Tree) (key : Key) : Option Cell :=
  tree.cells[key]?

/-- The node of a key. -/
def get? (tree : Tree) (key : Key) : Option Node :=
  (tree.cell? key).map (·.node)

/-- Whether a key has a node. -/
def contains (tree : Tree) (key : Key) : Bool :=
  key < tree.size

/-- The parent of a node. -/
def parent? (tree : Tree) (key : Key) : Option Key :=
  (tree.cell? key).bind (·.parent)

/-- The children of a node in order; none for a key without a node. -/
def children (tree : Tree) (key : Key) : List Key :=
  ((tree.cell? key).map (·.children)).getD []

/-- The first root. -/
def root? (tree : Tree) : Option Key :=
  tree.roots[0]?

/-- A key that has no node. -/
def absent (tree : Tree) : Key :=
  tree.size

/-- The identifier of a node, empty for a key without a node. -/
def identifierOf (tree : Tree) (key : Key) : String :=
  ((tree.get? key).map (·.identifier)).getD ""

/-- Adds a node without links. Its key is the size of the tree before. -/
def insert (tree : Tree) (node : Node) : Tree :=
  { tree with cells := tree.cells.push { node } }

/-- Makes a node a root. -/
def addRoot (tree : Tree) (key : Key) : Tree :=
  { tree with roots := tree.roots.push key }

/-- Changes one cell; a key without a node changes nothing. -/
def update (tree : Tree) (key : Key) (change : Cell → Cell) : Tree :=
  { tree with cells := tree.cells.modify key change }

/-- Sets the parent of a node. -/
def setParent (tree : Tree) (parent key : Key) : Tree :=
  tree.update key fun cell => { cell with parent := some parent }

/-- Replaces the list of children of a node. -/
def setChildren (tree : Tree) (parent : Key) (keys : List Key) : Tree :=
  tree.update parent fun cell => { cell with children := keys }

/-- Attaches a finished list of children to a node. -/
def attach (tree : Tree) (parent : Key) (keys : List Key) : Tree :=
  (keys.foldl (fun tree key => tree.setParent parent key) tree).setChildren parent keys

/-- Applies a modifier to a node. -/
def modify (tree : Tree) (key : Key) (modifier : Modifier) : Tree :=
  tree.update key fun cell => { cell with node := cell.node.modify modifier }

/-- Applies modifiers to a node, one after the other. -/
def modifyAll (tree : Tree) (key : Key) (modifiers : List Modifier) : Tree :=
  modifiers.foldl (fun tree modifier => tree.modify key modifier) tree

/-- Applies modifiers to several nodes, one after the other. -/
def edit (tree : Tree) (edits : List (Key × Modifier)) : Tree :=
  edits.foldl (fun tree edit => tree.modify edit.1 edit.2) tree

/-- The ancestors of a node, the nearest first, up to a number of steps. -/
def climb (tree : Tree) : Nat → Key → List Key
  | 0, _ => []
  | steps + 1, key =>
    match tree.parent? key with
    | some parent => parent :: tree.climb steps parent
    | none => []

/-- The ancestors of a node from its parent to its root. A path without repetition has fewer nodes
than the tree. -/
def ancestors (tree : Tree) (key : Key) : List Key :=
  tree.climb tree.size key

/-- The keys from the root down to a node, the node included. -/
def path (tree : Tree) (key : Key) : List Key :=
  (tree.ancestors key).reverse ++ [key]

/-- The token of a style key at a node: the nearest declaration on its path, its own included. -/
def resolve (tree : Tree) (key : Key) (style : StyleKey) : String :=
  resolvePath style ((tree.path key).filterMap fun step => (tree.get? step).map (·.frame))

end Tree

end ViewMarkup
