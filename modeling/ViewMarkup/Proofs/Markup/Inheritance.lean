import ViewMarkup.Proofs.Markup.Visits

/-! # Inherited styles

The token of a style key at a node is the declaration of the nearest node from the node upwards,
and the default token when no node on the way declares the key. `Tree.Inherits` says this step by
step along the parents. Looking up a node computes it from the ancestors of the node; rendering
computes it from the frames that it pushes and pops on its way down. Both come to the same token at
every node that is rendered, the class of the node names the style of that token, and a visit
leaves the frames as they were.
-/

namespace ViewMarkup

open Markup ViewMarkup.Random

namespace Tree

variable {tree : Tree} {style : StyleKey} {key parent : Key} {node : Node} {token : String}

/-- The token that a node has for a style key: its own declaration, else the token of its parent, and
without a parent the default token. -/
inductive Inherits (tree : Tree) (style : StyleKey) : Key → String → Prop
  | own {key : Key} {node : Node} {token : String} (read : tree.get? key = some node)
      (declared : node.frame.get? style = some token) : Inherits tree style key token
  | above {key parent : Key} {node : Node} {token : String} (read : tree.get? key = some node)
      (silent : node.frame.get? style = none) (up : tree.parent? key = some parent)
      (inherited : Inherits tree style parent token) : Inherits tree style key token
  | nowhere {key : Key} {node : Node} (read : tree.get? key = some node)
      (silent : node.frame.get? style = none) (top : tree.parent? key = none) :
      Inherits tree style key defaultToken

theorem resolve_of_declared (read : tree.get? key = some node)
    (declared : node.frame.get? style = some token) : tree.resolve key style = token := by
  rw [resolve_eq read, Environment.resolve, List.findSome?_cons, declared]
  rfl

/-- A node that declares nothing has the token of its parent. -/
theorem Grounded.resolve_of_silent (grounded : tree.Grounded) (read : tree.get? key = some node)
    (silent : node.frame.get? style = none) (up : tree.parent? key = some parent) :
    tree.resolve key style = tree.resolve parent style := by
  obtain ⟨cell, found⟩ := tree.exists_cell (grounded.parent_lt up)
  have readParent : tree.get? parent = some cell.node := by simp [get?, found]
  rw [resolve_eq read, resolve_eq readParent, grounded.outerFrames_of_parent up readParent,
    Environment.resolve, List.findSome?_cons, silent]
  rfl

theorem resolve_of_root (read : tree.get? key = some node)
    (silent : node.frame.get? style = none) (top : tree.parent? key = none) :
    tree.resolve key style = defaultToken := by
  rw [resolve_eq read, outerFrames, ancestors_of_root top, Environment.resolve,
    List.findSome?_cons, silent]
  rfl

theorem Inherits.eq_resolve (grounded : tree.Grounded) (inherits : tree.Inherits style key token) :
    token = tree.resolve key style := by
  induction inherits with
  | own read declared => exact (resolve_of_declared read declared).symm
  | above read silent up _ ih => rw [grounded.resolve_of_silent read silent up, ih]
  | nowhere read silent top => exact (resolve_of_root read silent top).symm

/-- Every node has a token, since no climb goes on for ever. -/
theorem Grounded.exists_inherits (grounded : tree.Grounded) (style : StyleKey)
    (read : tree.get? key = some node) : ∃ token, tree.Inherits style key token := by
  induction count : (tree.ancestors key).length using Nat.strong_induction_on
    generalizing key node with
  | _ height ih =>
    cases declared : node.frame.get? style with
    | some token => exact ⟨token, .own read declared⟩
    | none =>
      cases up : tree.parent? key with
      | none => exact ⟨defaultToken, .nowhere read declared up⟩
      | some parent =>
        obtain ⟨cell, found⟩ := tree.exists_cell (grounded.parent_lt up)
        have readParent : tree.get? parent = some cell.node := by simp [get?, found]
        have fewer : (tree.ancestors parent).length < height := by
          rw [← count, grounded.ancestors_of_parent up]
          exact Nat.lt_succ_self _
        obtain ⟨token, inherited⟩ := ih _ fewer readParent rfl
        exact ⟨token, .above read declared up inherited⟩

theorem Grounded.inherits_iff (grounded : tree.Grounded) (read : tree.get? key = some node) :
    tree.Inherits style key token ↔ token = tree.resolve key style := by
  constructor
  · exact Inherits.eq_resolve grounded
  · rintro rfl
    obtain ⟨token, inherited⟩ := grounded.exists_inherits style read
    rwa [← inherited.eq_resolve grounded]

end Tree

theorem Node.class_mem_attributes (layout : Layout) (style : StyleKey → String) (node : Node) :
    ⟨"class", node.kind.styledClass style⟩ ∈ node.attributes layout style := by
  simp [Node.attributes]

/-- Rendering visits the document in order, and at each visit it gives every style key the nearest
declaration, as looking up does. -/
theorem Program.styles_inherited {γ : Type} [Generator γ] (ids : Allocator γ) (program : Program)
    (built : Tree) (edits : List (Key × Modifier)) (layout : Layout)
    (finished : (Program.run { builder := { ids } } program).builder.finish.1 = .ok built) :
    let tree := built.edit edits
    let visits := tree.visits layout
    visits.map Visit.key = tree.document ∧
    visits.map (Visit.element layout) = Element.inOrderAll (tree.elements layout) ∧
    (∀ output, tree.render layout = .ok output →
      parse? output.markup = some (tree.elements layout)) ∧
    ∀ visit ∈ visits, tree.get? visit.key = some visit.node ∧
      (visit.after layout).environment = visit.pass.environment ∧
      ∀ style, visit.within.resolve style = tree.resolve visit.key style ∧
        (∀ token, tree.Inherits style visit.key token ↔ token = tree.resolve visit.key style) ∧
        (visit.node.kind.styleKey? = some style →
          (visit.element layout).values "class" = [visit.node.kind.className ++ " " ++
            style.style (tree.resolve visit.key style)]) := by
  intro tree visits
  have rooted : tree.Rooted := (Program.rooted_of_finish ids finished).edit edits
  refine ⟨rooted.map_key_visits layout, tree.map_element_visits layout,
    fun output rendered => rooted.parse_of_render rendered, fun visit visited => ?_⟩
  · obtain ⟨read, within⟩ := rooted.at_visit layout visited
    refine ⟨read, Branch.environment_render .., fun style => ⟨?_, fun token => ?_, fun keyed => ?_⟩⟩
    · rw [within, Tree.resolve_eq read]
    · exact rooted.inherits_iff read
    · refine Element.values_of_mem (visit.nodup_names_element layout) ?_
      have listed := visit.node.class_mem_attributes layout visit.within.style
      rw [Kind.styledClass, keyed] at listed
      rw [visit.attributes_element, Tree.resolve_eq read, ← within]
      exact listed

/-- Two buttons below one declaration, the first of them also below a nearer one. -/
theorem Program.styles_inherited_nearer :
    let program : Program :=
      [.vstack [.container .hstack [.button "Save" (some "save")]
        { modifiers := [.style .buttonStyle "plain()"] }, .button "Exit" none]]
    let tree := (Config.sequential.run default program).builder.tree.edit [(0, .style .buttonStyle "bold")]
    tree.document = [0, 1, 2, 3] ∧ ∀ visit ∈ tree.visits {},
      (visit.after {}).environment = visit.pass.environment ∧
      (visit.key = 2 → (visit.element {}).values "class" = ["button plain"]) ∧
      (visit.key = 3 → (visit.element {}).values "class" = ["button bold"]) := by
  intro program tree
  let builder := (Config.sequential.run default program).builder
  have finished : builder.finish.1 = .ok builder.tree :=
    Builder.finish_of_closed (by decide) (by decide)
  obtain ⟨_, _, _, visited⟩ := Program.styles_inherited (Config.sequential.allocator default) program
    builder.tree [(0, .style .buttonStyle "bold")] {} finished
  refine ⟨by decide, fun visit member => ?_⟩
  obtain ⟨read, restored, styled⟩ := visited visit member
  obtain ⟨_, _, written⟩ := styled .buttonStyle
  have classOf (kind : Kind) {text : String}
      (found : (tree.get? visit.key).map (·.kind) = some kind)
      (keyed : kind.styleKey? = some .buttonStyle)
      (spelled : kind.className ++ " " ++
        StyleKey.style .buttonStyle (tree.resolve visit.key .buttonStyle) = text) :
      (visit.element {}).values "class" = [text] := by
    have same : visit.node.kind = kind := by
      rw [read] at found
      exact Option.some.inj found
    rw [written (same ▸ keyed), same, spelled]
  refine ⟨restored, fun inner => ?_, fun outer => ?_⟩
  · rw [inner] at classOf
    exact classOf (.button (some "Save") (some "save")) (by decide) rfl (by decide)
  · rw [outer] at classOf
    exact classOf (.button (some "Exit") none) (by decide) rfl (by decide)

end ViewMarkup
