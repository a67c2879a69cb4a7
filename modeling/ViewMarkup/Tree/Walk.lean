import ViewMarkup.Tree.Basic

/-! # Walks and queries

A walk visits a node and everything below it, each node before its children and the children in
order. It is a machine with a list of keys still to visit: a step takes the first of them and puts
its children in front of the rest. Queries are searches along the walk of the whole document.
-/

namespace ViewMarkup

/-- The state of a walk: the keys to visit next, and the keys visited so far. -/
structure Walk where
  pending : List Key
  visited : Array Key := #[]
deriving DecidableEq, Repr, Inhabited

namespace Walk

/-- Visits the next key; a key without a node is passed over. -/
def step (tree : Tree) (walk : Walk) : Walk :=
  match walk.pending with
  | [] => walk
  | key :: rest =>
    if tree.contains key then ⟨tree.children key ++ rest, walk.visited.push key⟩
    else ⟨rest, walk.visited⟩

/-- Whether nothing is left to visit. -/
def isDone (walk : Walk) : Bool :=
  walk.pending.isEmpty

/-- Takes steps until nothing is left to visit, up to a number of steps. -/
def run (tree : Tree) : Nat → Walk → Walk
  | 0, walk => walk
  | steps + 1, walk => if walk.isDone then walk else run tree steps (walk.step tree)

end Walk

namespace Tree

/-- The nodes from a node downwards, each before its children. A node is visited at most once, so
the size of the tree bounds the number of steps. -/
def walk (tree : Tree) (key : Key) : List Key :=
  (Walk.run tree tree.size ⟨[key], #[]⟩).visited.toList

/-- All nodes that can be reached from the roots, in document order. -/
def document (tree : Tree) : List Key :=
  tree.roots.toList.flatMap tree.walk

/-- The nodes that pass a test, in document order. -/
def select (tree : Tree) (test : Node → Bool) : List Key :=
  tree.document.filter fun key => (tree.get? key).any test

/-- The first node with an identifier, in document order. -/
def findIdentifier? (tree : Tree) (identifier : String) : Option Key :=
  tree.document.find? fun key => (tree.get? key).any (·.identifier == identifier)

/-- The nodes whose kind has a type name, in document order. -/
def ofType (tree : Tree) (typeName : String) : List Key :=
  tree.select fun node => node.kind.typeName == typeName

/-- The nodes of a category, in document order. -/
def ofCategory (tree : Tree) (category : Category) : List Key :=
  tree.select fun node => node.kind.category == category

end Tree

end ViewMarkup
