import ViewMarkup.Tree.Basic

/-! # Forests

A branch is a node together with everything below it. The forest of a tree lists the branches of its
roots, and is what outlines and markup are written from, by recursion on branches. The placements of
a forest are its nodes in document order, each with its depth.
-/

namespace ViewMarkup

/-- A node, its key, and the branches of its children. -/
inductive Branch where
  | mk (key : Key) (node : Node) (children : List Branch)
deriving Repr, Inhabited

namespace Branch

/-- The key of the topmost node. -/
def key : Branch → Key
  | mk key _ _ => key

/-- The topmost node. -/
def node : Branch → Node
  | mk _ node _ => node

/-- The branches below the topmost node. -/
def children : Branch → List Branch
  | mk _ _ children => children

end Branch

/-- A node and its key at a depth below its root. -/
structure Placement where
  depth : Nat
  key : Key
  node : Node
deriving DecidableEq, Repr, Inhabited

mutual

/-- The nodes of a branch whose topmost node is at a depth, each before those below it. -/
def Branch.placements (depth : Nat) : Branch → List Placement
  | .mk key node children => ⟨depth, key, node⟩ :: Branch.placementsAll (depth + 1) children

/-- The nodes of several branches, one branch after the other. -/
def Branch.placementsAll (depth : Nat) : List Branch → List Placement
  | [] => []
  | branch :: rest => branch.placements depth ++ Branch.placementsAll depth rest

end

namespace Tree

/-- The branches of some keys, down to a number of levels. A key without a node has no branch. -/
def branches (tree : Tree) : Nat → List Key → List Branch
  | 0, _ => []
  | levels + 1, keys =>
    keys.filterMap fun key =>
      (tree.get? key).map fun node => .mk key node (tree.branches levels (tree.children key))

/-- The branches of the roots. No path is longer than the tree has nodes. -/
def forest (tree : Tree) : List Branch :=
  tree.branches tree.size tree.roots.toList

end Tree

end ViewMarkup
