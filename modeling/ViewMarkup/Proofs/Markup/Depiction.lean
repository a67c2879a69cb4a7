import ViewMarkup.Compiler
import ViewMarkup.Proofs.Build.Ownership
import ViewMarkup.Proofs.Markup.Reader

/-! # Markup depicts the tree

Every node has one element. It stands below the element of the parent, in the order of the
children, and has the tag of its kind, the attributes of the node, and either the elements of its
children or, without children, its text. `Tree.Depicts` says this from the links of the tree alone,
with the style of a node looked up from the node upwards; rendering goes down and carries the
frames along, and comes to the same elements. Since the reader gives back what is written, markup
determines the elements, whatever texts, values and identifiers they hold.
-/

namespace ViewMarkup

open Markup

/-! ## The names of attributes -/

/-- The names that attributes have, in the order in which they stand in a start tag. -/
def attributeNames : List String :=
  ["padding", "background", "foregroundStyle", "class", "font", "header", "title", "for-each",
    "type", "placeholder", "bind", "supports-opacity", "id"]

private theorem names_toList_sublist {α : Type} (value : Option α) (name : String)
    (text : α → String) :
    (((value.toList.map fun part => ⟨name, text part⟩ : List Attribute)).map
      Attribute.name).Sublist [name] := by
  cases value <;> simp

theorem Kind.names_attributes_sublist (kind : Kind) :
    (kind.attributes.map Attribute.name).Sublist
      ["font", "header", "title", "for-each", "type", "placeholder", "bind", "supports-opacity"] := by
  fun_cases Kind.attributes kind with
  | case3 title isExpanded =>
    cases isExpanded <;> simp only [Option.toList, List.map_cons, List.map_nil] <;> decide
  | _ => simp only [List.map_cons, List.map_nil]; decide

/-- The attributes of a node have names from a fixed list, in its order. -/
theorem Node.names_attributes_sublist (layout : Layout) (style : StyleKey → String) (node : Node) :
    ((node.attributes layout style).map Attribute.name).Sublist attributeNames := by
  have modifiers : ((node.modifiers.attributes layout).map Attribute.name).Sublist
      (["padding"] ++ ["background"] ++ ["foregroundStyle"]) := by
    rw [Modifiers.attributes, List.map_append, List.map_append]
    exact ((names_toList_sublist ..).append (names_toList_sublist ..)).append
      (names_toList_sublist ..)
  have identifier : ((if node.hasAction then [⟨"id", node.identifier⟩] else [] :
      List Attribute).map Attribute.name).Sublist ["id"] := by
    split <;> simp
  rw [Node.attributes, List.map_append, List.map_append, List.map_append]
  exact ((modifiers.append (List.Sublist.refl ["class"])).append
    node.kind.names_attributes_sublist).append identifier

theorem Node.isName_attributes (layout : Layout) (style : StyleKey → String) (node : Node) :
    (node.attributes layout style).all fun pair => isName pair.name := by
  rw [List.all_eq_true]
  intro pair member
  have listed := (node.names_attributes_sublist layout style).subset
    (List.mem_map.mpr ⟨pair, member, rfl⟩)
  exact (by decide : ∀ name ∈ attributeNames, isName name) _ listed

theorem Kind.isName_tag (kind : Kind) : isName kind.tag := by
  fun_cases Kind.tag kind <;> decide

/-! ## Elements and nodes -/

mutual

/-- How many elements there are in an element, itself included. -/
def Element.count : Element → Nat
  | .text .. => 1
  | .group _ _ children => Element.countAll children + 1

/-- How many elements there are in some elements, themselves included. -/
def Element.countAll : List Element → Nat
  | [] => 0
  | element :: rest => element.count + Element.countAll rest

end

mutual

/-- Rendering a branch takes back every frame that it pushes. -/
theorem Branch.environment_render (layout : Layout) (pass : Pass) (branch : Branch) :
    (branch.render layout pass).2.environment = pass.environment := by
  cases branch with
  | mk key node children =>
    have inside := Branch.environment_renderAll layout (pass.enter node) children
    rw [Branch.render]
    exact congrArg Environment.pop inside

theorem Branch.environment_renderAll (layout : Layout) (pass : Pass) (forest : List Branch) :
    (Branch.renderAll layout pass forest).2.environment = pass.environment := by
  cases forest with
  | nil => rfl
  | cons branch rest =>
    rw [Branch.renderAll]
    exact (Branch.environment_renderAll layout (branch.render layout pass).2 rest).trans
      (Branch.environment_render layout pass branch)

end

namespace Tree

variable {tree : Tree} {keys : List Key} {forest : List Branch} {elements : List Element}
  {layout : Layout}

/-- The style of a key at a node, by the nearest declaration from the node upwards. -/
def styleAt (tree : Tree) (key : Key) (style : StyleKey) : String :=
  style.style (tree.resolve key style)

/-- The elements that depict some nodes, in order, with everything below them. -/
inductive Depicts (layout : Layout) (tree : Tree) : List Key → List Element → Prop
  | nil : Depicts layout tree [] []
  | text {key : Key} {rest : List Key} {node : Node} {others : List Element}
      (read : tree.get? key = some node) (bare : tree.children key = [])
      (across : Depicts layout tree rest others) :
      Depicts layout tree (key :: rest)
        (.text node.kind.tag (node.attributes layout (tree.styleAt key))
          (node.kind.bodyText?.getD "") :: others)
  | group {key : Key} {rest : List Key} {node : Node} {inner others : List Element}
      (read : tree.get? key = some node) (parent : tree.children key ≠ [])
      (below : Depicts layout tree (tree.children key) inner)
      (across : Depicts layout tree rest others) :
      Depicts layout tree (key :: rest)
        (.group node.kind.tag (node.attributes layout (tree.styleAt key)) inner :: others)

theorem Depicts.isEmpty_eq (depicts : tree.Depicts layout keys elements) :
    elements.isEmpty = keys.isEmpty := by
  cases depicts <;> rfl

/-- Elements that depict nodes can be read back. -/
theorem Depicts.allReadable (depicts : tree.Depicts layout keys elements) :
    Element.allReadable elements := by
  induction depicts with
  | nil => rfl
  | @text _ _ node _ _ _ _ ih =>
    simp [Element.allReadable, Element.isReadable, node.kind.isName_tag, node.isName_attributes, ih]
  | @group key _ node inner _ _ parent below _ inside ih =>
    have some : inner.isEmpty = false :=
      below.isEmpty_eq.trans (List.isEmpty_eq_false_iff.mpr parent)
    simp [Element.allReadable, Element.isReadable, node.kind.isName_tag, node.isName_attributes,
      some, inside, ih]

/-- There are as many elements as nodes in the forest. -/
theorem Depicts.countAll (depicts : tree.Depicts layout keys elements)
    (unfolds : tree.Unfolds keys forest) :
    Element.countAll elements = (Branch.preorderAll forest).length := by
  induction depicts generalizing forest with
  | nil => cases unfolds; rfl
  | text read bare across ih =>
    cases unfolds with
    | cons _ down beside =>
      rw [bare] at down
      cases down
      rw [Element.countAll, ih beside, Branch.preorderAll_cons, Element.count]
      simp [Branch.preorderAll, Nat.add_comm]
  | group read parent below across ihBelow ih =>
    cases unfolds with
    | cons _ down beside =>
      rw [Element.countAll, ih beside, Branch.preorderAll_cons, Element.count, ihBelow down,
        List.length_cons, List.length_append]
      omega

/-! ## Rendering goes down -/

/-- The frames above a node, the nearest first. -/
def outerFrames (tree : Tree) (key : Key) : List Frame :=
  (tree.ancestors key).filterMap fun above => (tree.get? above).map (·.frame)

/-- Looking up from a node finds what the frames on the way down hold. -/
theorem resolve_eq {key : Key} {node : Node} (read : tree.get? key = some node) (style : StyleKey) :
    tree.resolve key style = Environment.resolve ⟨node.frame :: tree.outerFrames key⟩ style := by
  rw [Environment.resolve_eq_resolvePath, resolve, path]
  simp [outerFrames, read, List.filterMap_append, List.filterMap_reverse]

theorem styleAt_eq {key : Key} {node : Node} (read : tree.get? key = some node) :
    tree.styleAt key = Environment.style ⟨node.frame :: tree.outerFrames key⟩ := by
  funext style
  rw [styleAt, Environment.style, resolve_eq read]

theorem Grounded.outerFrames_of_parent (grounded : tree.Grounded) {key parent : Key} {node : Node}
    (up : tree.parent? key = some parent) (read : tree.get? parent = some node) :
    tree.outerFrames key = node.frame :: tree.outerFrames parent := by
  rw [outerFrames, grounded.ancestors_of_parent up, List.filterMap_cons, read]
  rfl

/-- A pass that carries the frames above some nodes makes the elements that depict them. -/
theorem Unfolds.depicts_render (coherent : tree.Coherent) (unfolds : tree.Unfolds keys forest)
    {pass : Pass} (frames : ∀ key ∈ keys, tree.outerFrames key = pass.environment.frames) :
    tree.Depicts layout keys (Branch.renderAll layout pass forest).1 := by
  induction unfolds generalizing pass with
  | nil => exact .nil
  | @cons key rest node below others read unfoldsBelow _ down across =>
    have own := frames key (List.mem_cons_self ..)
    have entered : (pass.enter node).environment.frames = node.frame :: tree.outerFrames key := by
      rw [own]
      rfl
    have inside := down fun child listed =>
      (coherent.outerFrames_of_parent (coherent.child_up listed) read).trans entered.symm
    have left := (Branch.mk key node below).environment_render layout pass
    have beside := across fun other listed =>
      (frames other (List.mem_cons_of_mem _ listed)).trans (congrArg Environment.frames left.symm)
    have style : (pass.enter node).environment.style = tree.styleAt key := by
      rw [styleAt_eq read, ← entered]
    rw [Branch.renderAll, Branch.render]
    simp only [style]
    cases below with
    | nil =>
      have bare : tree.children key = [] := unfoldsBelow.map_key.symm
      exact .text read bare beside
    | cons branch more =>
      have parent : tree.children key ≠ [] := by
        rw [← unfoldsBelow.map_key]
        exact List.cons_ne_nil _ _
      exact .group read parent inside beside

/-- Nothing is above a root. -/
theorem Rooted.outerFrames_root (rooted : tree.Rooted) {root : Key}
    (listed : root ∈ tree.roots.toList) : tree.outerFrames root = [] := by
  rw [outerFrames, ancestors_of_root (rooted.root_top root listed).2, List.filterMap_nil]

/-- The elements of a tree depict its roots. -/
theorem Rooted.depicts_elements (rooted : tree.Rooted) (layout : Layout) :
    tree.Depicts layout tree.roots.toList (tree.elements layout) :=
  rooted.unfolds_forest.depicts_render rooted.toCoherent fun _ listed =>
    rooted.outerFrames_root listed

theorem Owned.depicts_elements (owned : tree.Owned) (layout : Layout) :
    tree.Depicts layout tree.roots.toList (tree.elements layout) :=
  owned.rooted.depicts_elements layout

/-- What a tree is rendered to reads as its elements, and in no other way. -/
theorem Rooted.parse_of_render (rooted : tree.Rooted) {output : Output}
    (rendered : tree.render layout = .ok output) :
    parse? output.markup = some (tree.elements layout) := by
  rw [parse?_eq_some_iff, markup_of_render rendered]
  exact Element.reads_linesAll layout.indent (rooted.depicts_elements layout).allReadable

/-! ## Later modifiers -/

/-- Modifiers leave all links in place. -/
theorem edit_links (tree : Tree) (edits : List (Key × Modifier)) :
    (tree.edit edits).size = tree.size ∧ (tree.edit edits).roots = tree.roots ∧
      (∀ key, (tree.edit edits).parent? key = tree.parent? key) ∧
      ∀ key, (tree.edit edits).children key = tree.children key := by
  induction edits generalizing tree with
  | nil => exact ⟨rfl, rfl, fun _ => rfl, fun _ => rfl⟩
  | cons first rest ih =>
    obtain ⟨sizes, roots, parents, lists⟩ := ih (tree.modify first.1 first.2)
    refine ⟨sizes.trans (tree.size_modify ..), roots, fun key => ?_, fun key => ?_⟩
    · exact (parents key).trans (tree.parent?_modify ..)
    · exact (lists key).trans (tree.children_modify ..)

theorem Rooted.edit (rooted : tree.Rooted) (edits : List (Key × Modifier)) :
    (tree.edit edits).Rooted := by
  obtain ⟨sizes, roots, parents, lists⟩ := tree.edit_links edits
  exact rooted.congr parents lists roots sizes

theorem Owned.edit (owned : tree.Owned) (edits : List (Key × Modifier)) :
    (tree.edit edits).Owned := by
  obtain ⟨sizes, roots, parents, lists⟩ := tree.edit_links edits
  exact owned.congr parents lists roots sizes

end Tree

/-- Markup decodes to the tree: reading what a tree of a finished build is rendered to gives the
elements that depict the tree, one for each node, and it can be read in no other way. The attributes
of a node have different names and stand in a fixed order. -/
theorem Program.markup_decodes {γ : Type} [Random.Generator γ] (ids : Allocator γ)
    (program : Program) (built : Tree) (edits : List (Key × Modifier)) (layout : Layout)
    (output : Output) (spared : Program.Spares [] { builder := { ids } } program)
    (finished : (Program.run { builder := { ids } } program).builder.finish.1 = .ok built)
    (rendered : (built.edit edits).render layout = .ok output) :
    let tree := built.edit edits
    ∃ elements, parse? output.markup = some elements ∧
      (∀ other, Reads other output.markup.toList → other = elements) ∧
      tree.Depicts layout tree.roots.toList elements ∧ Element.countAll elements = tree.size ∧
      ∀ key node, tree.get? key = some node →
        let names := (node.attributes layout (tree.styleAt key)).map Attribute.name
        names.Nodup ∧ names.Sublist attributeNames := by
  intro tree
  have owned : tree.Owned := ((Program.run_reachable ids spared).owned
    ((Builder.finish_fst _).symm.trans finished)).edit edits
  have depicts := owned.depicts_elements layout
  have parsed := owned.rooted.parse_of_render rendered
  refine ⟨tree.elements layout, parsed, fun other readsOther => ?_, depicts, ?_, ?_⟩
  · exact Option.some.inj ((parse?_eq_some_iff.mpr readsOther).symm.trans parsed)
  · rw [depicts.countAll owned.unfolds_forest, ← owned.document_eq_preorderAll,
      owned.length_document]
  · intro key node _
    have listed := node.names_attributes_sublist layout (tree.styleAt key)
    exact ⟨(by decide : attributeNames.Nodup).sublist listed, listed⟩

/-- A text that looks like tags, and values that look like attributes. -/
theorem Program.markup_decodes_lookalikes :
    let program : Program :=
      [.vstack [.text "</span>\n  <b c=\"\">&lt;", .button "\"><" (some "go")]]
    let tree := (Config.sequential.run default program).builder.tree.edit
      [(1, .background "\" id=\"x"), (0, .style .buttonStyle "plain()")]
    ∃ output elements, tree.render {} = .ok output ∧ parse? output.markup = some elements ∧
      tree.Depicts {} tree.roots.toList elements ∧ Element.countAll elements = 3 := by
  intro program tree
  let builder := (Config.sequential.run default program).builder
  have finished : builder.finish.1 = .ok builder.tree :=
    (Builder.finish_fst _).trans (Builder.outcome_eq_ok_iff.mpr ⟨by decide, by decide, rfl⟩)
  have rendered := tree.render_of_narrow (by decide : ({} : Layout).indent ≤ _) (by decide)
  obtain ⟨elements, parsed, _, depicts, count, _⟩ :=
    Program.markup_decodes (Config.sequential.allocator default) program builder.tree _ {} _
      (by decide) finished rendered
  exact ⟨_, elements, rendered, parsed, depicts, count.trans (by decide)⟩

end ViewMarkup
