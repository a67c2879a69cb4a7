import ViewMarkup.Outline
import ViewMarkup.Proofs.Markup.Handlers
import ViewMarkup.Proofs.Tree.Likeness

/-! # Comparing what two trees are written to

Trees with the same links are written to documents of the same shape: an element of the one stands
for the same node as the element of the other in its place. `Tree.Matches` compares two documents in
this way, node by node, and leaves open how far attributes may differ. Outlines and handlers are
lists of what the nodes give, in document order, so they are compared through the nodes alone.
-/

namespace ViewMarkup

open Markup

namespace Tree

/-- Two documents for the same nodes: nested alike, with the same tags and texts, and with attributes
that are related at every node. -/
inductive Matches (tree : Tree) (same : Key → List Attribute → List Attribute → Prop) :
    List Key → List Element → List Element → Prop
  | nil : Matches tree same [] [] []
  | text {key : Key} {rest : List Key} {tag body : String} {left right : List Attribute}
      {others counterparts : List Element} (bare : tree.children key = [])
      (alike : same key left right) (across : Matches tree same rest others counterparts) :
      Matches tree same (key :: rest) (.text tag left body :: others)
        (.text tag right body :: counterparts)
  | group {key : Key} {rest : List Key} {tag : String} {left right : List Attribute}
      {inside within others counterparts : List Element} (parent : tree.children key ≠ [])
      (alike : same key left right) (below : Matches tree same (tree.children key) inside within)
      (across : Matches tree same rest others counterparts) :
      Matches tree same (key :: rest) (.group tag left inside :: others)
        (.group tag right within :: counterparts)

variable {same : Key → Node → Node → Prop} {first second : Tree} {layout : Layout} {keys : List Key}
  {related : Key → List Attribute → List Attribute → Prop} {elements others : List Element}

/-- Documents that depict trees with the same links match, as far as the nodes do. -/
theorem Like.matches (like : first.Like same second)
    (written : ∀ {key node other}, first.get? key = some node → second.get? key = some other →
      other.kind.tag = node.kind.tag ∧ other.kind.bodyText? = node.kind.bodyText? ∧
        related key (node.attributes layout (first.styleAt key))
          (other.attributes layout (second.styleAt key)))
    (left : first.Depicts layout keys elements) (right : second.Depicts layout keys others) :
    first.Matches related keys elements others := by
  induction left generalizing others with
  | nil =>
    cases right
    exact .nil
  | @text key rest node elements read bare _ ih =>
    cases right with
    | @text _ _ other _ found _ across =>
      obtain ⟨tags, texts, attributes⟩ := written read found
      rw [tags, texts]
      exact .text bare attributes (ih across)
    | group found parent => exact (parent ((like.lists key).trans bare)).elim
  | @group key rest node inner elements read parent _ _ ihBelow ih =>
    cases right with
    | text found bare => exact (parent ((like.lists key).symm.trans bare)).elim
    | @group _ _ other _ _ found _ below across =>
      obtain ⟨tags, _, attributes⟩ := written read found
      rw [like.lists key] at below
      rw [tags]
      exact .group parent attributes (ihBelow below) (ih across)

/-- The documents that two trees with the same links are rendered to match, as far as the nodes
do. -/
theorem Like.matches_rendered (like : first.Like same second) (rooted : first.Rooted)
    (written : ∀ {key node other}, first.get? key = some node → second.get? key = some other →
      other.kind.tag = node.kind.tag ∧ other.kind.bodyText? = node.kind.bodyText? ∧
        related key (node.attributes layout (first.styleAt key))
          (other.attributes layout (second.styleAt key)))
    {before after : Output} (left : first.render layout = .ok before)
    (right : second.render layout = .ok after) :
    ∃ elements others, parse? before.markup = some elements ∧ parse? after.markup = some others ∧
      first.Matches related first.roots.toList elements others := by
  have counterpart := like.rooted rooted
  have depicted := counterpart.depicts_elements layout
  rw [like.roots] at depicted
  exact ⟨_, _, rooted.parse_of_render left, counterpart.parse_of_render right,
    like.matches written (rooted.depicts_elements layout) depicted⟩

/-! ## Handlers -/

/-- Handlers are what the nodes register, in document order. -/
theorem Rooted.handlers_document {tree : Tree} (rooted : tree.Rooted) (layout : Layout) :
    tree.handlers layout = tree.document.filterMap fun key => (tree.get? key).bind Node.handler? := by
  rw [handlers_eq, ← rooted.map_key_visits layout, List.filterMap_map]
  apply List.filterMap_congr
  intro visit visited
  simp [(rooted.at_visit layout visited).1]

/-- What related nodes give to their handlers in common, the handlers of the trees have in common. -/
theorem Like.map_handlers {α : Type} (like : first.Like same second) (rooted : first.Rooted)
    (layout : Layout) (part : Handler → α)
    (common : ∀ {key node other}, same key node other →
      other.handler?.map part = node.handler?.map part) :
    (second.handlers layout).map part = (first.handlers layout).map part := by
  rw [(like.rooted rooted).handlers_document, rooted.handlers_document, like.document_eq,
    List.map_filterMap, List.map_filterMap]
  apply List.filterMap_congr
  intro key _
  have nodes := like.map_get? (fun node => node.handler?.map part) common key
  cases left : first.get? key <;> cases right : second.get? key <;> simp_all

/-! ## Depths and outlines -/

/-- Branches of trees with the same links have their nodes at the same places. -/
theorem Like.map_placements {α : Type} (like : first.Like same second) (part : Node → α)
    (common : ∀ {key node other}, same key node other → part other = part node) (levels depth : Nat)
    (keys : List Key) :
    (Branch.placementsAll depth (second.branches levels keys)).map
        (fun placement => (placement.depth, part placement.node)) =
      (Branch.placementsAll depth (first.branches levels keys)).map
        (fun placement => (placement.depth, part placement.node)) := by
  induction levels generalizing depth keys with
  | zero => rfl
  | succ levels ihBelow =>
    induction keys with
    | nil => rfl
    | cons key rest ih =>
      have nodes := like.map_get? part common key
      simp only [branches, like.lists] at ih ⊢
      cases left : first.get? key with
      | none =>
        cases right : second.get? key with
        | none => simpa only [List.filterMap_cons, left, right, Option.map_none] using ih
        | some other => simp [left, right] at nodes
      | some node =>
        cases right : second.get? key with
        | none => simp [left, right] at nodes
        | some other =>
          simp only [left, right, Option.map_some, Option.some.injEq] at nodes
          simp only [List.filterMap_cons, left, right, Option.map_some, Branch.placementsAll,
            Branch.placements, List.map_append, List.map_cons, nodes, ihBelow, ih]

/-- Trees with the same links are set in equally far. -/
theorem Like.indents_iff (like : first.Like same second) (layout : Layout) :
    second.Indents layout ↔ first.Indents layout := by
  have depths (tree : Tree) : tree.Indents layout ↔
      ∀ place ∈ (Branch.placementsAll 0 tree.forest).map fun placement => (placement.depth, ()),
        place.1 * layout.indent ≤ Text.maxBytes := by
    simp [Indents]
  rw [depths, depths, forest, forest, like.size, like.roots,
    like.map_placements (fun _ => ()) fun _ => rfl]

/-- Trees with the same links have the same outline, if their nodes have the same summaries. -/
theorem Like.outline_eq (like : first.Like same second)
    (common : ∀ {key node other}, same key node other → other.summary = node.summary) :
    second.outline = first.outline := by
  have line : Placement.outlineLine = (fun entry : Nat × String =>
      (Text.column (2 * entry.1)).map (· ++ entry.2)) ∘
        fun placement => (placement.depth, placement.node.summary) := rfl
  rw [outline, outline, line, ← List.mapM_map, ← List.mapM_map, forest, forest, like.size, like.roots,
    like.map_placements Node.summary common]

end Tree

end ViewMarkup
