import ViewMarkup.Text.Column
import ViewMarkup.Text.Quoted
import ViewMarkup.Tree.Forest

/-! # Outlines

The outline of a tree has one line per node in document order: two blanks per level, the type name,
and the body text in quotes when the node has one. The blanks are a formatted field, so a tree that
is nested too deeply has no outline.
-/

namespace ViewMarkup

/-- What an outline says of one node. -/
def Node.summary (node : Node) : String :=
  match node.kind.bodyText? with
  | some body => node.kind.typeName ++ " " ++ Text.quote body
  | none => node.kind.typeName

/-- The line of a node. -/
def Placement.outlineLine (placement : Placement) : Except Text.WidthError String :=
  (Text.column (2 * placement.depth)).map (· ++ placement.node.summary)

/-- The outline of a tree; the last line has no line break. -/
def Tree.outline (tree : Tree) : Except Text.WidthError String :=
  ((Branch.placementsAll 0 tree.forest).mapM Placement.outlineLine).map (String.intercalate "\n")

end ViewMarkup
