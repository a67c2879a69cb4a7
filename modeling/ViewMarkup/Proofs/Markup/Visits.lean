import ViewMarkup.Proofs.Markup.Depiction

/-! # The visits of a pass

A visit is the rendering of one branch within a pass: the branch, and the state in which the pass
comes to it. `Branch.visitsAll` lists the visits of a pass in order, following the recursion of
rendering. Whatever a pass puts out is put together from its visits: the keys are the preorder of
the branches, the elements stand in the order of their start tags, and the handlers are those of the
visited nodes. Every visit leaves the frames as it finds them.

In a rooted tree the pass comes to each node with the frames of the nodes above it.
-/

namespace ViewMarkup

mutual

/-- An element and the elements inside it, in the order of their start tags. -/
def Element.inOrder : Element → List Element
  | .text tag attributes body => [.text tag attributes body]
  | .group tag attributes children =>
    .group tag attributes children :: Element.inOrderAll children

/-- Elements and the elements inside them, in the order of their start tags. -/
def Element.inOrderAll : List Element → List Element
  | [] => []
  | element :: rest => element.inOrder ++ Element.inOrderAll rest

end

/-- The values of the attributes that have a name. -/
def Element.values (element : Element) (name : String) : List String :=
  (element.attributes.filter (·.name = name)).map Attribute.value

/-- Among attributes with different names, a name picks out one value. -/
theorem Element.values_of_mem {element : Element} {name value : String}
    (distinct : (element.attributes.map Attribute.name).Nodup)
    (member : ⟨name, value⟩ ∈ element.attributes) : element.values name = [value] := by
  rw [values]
  generalize element.attributes = attributes at distinct member
  induction attributes with
  | nil => simp at member
  | cons pair rest ih =>
    obtain ⟨fresh, distinct⟩ := List.nodup_cons.mp distinct
    rcases List.mem_cons.mp member with rfl | later
    · have others : rest.filter (·.name = name) = [] := by
        rw [List.filter_eq_nil_iff]
        intro other listed same
        exact fresh (List.mem_map.mpr ⟨other, listed, of_decide_eq_true same⟩)
      simp [others]
    · have other : pair.name ≠ name := by
        rintro rfl
        exact fresh (List.mem_map.mpr ⟨_, later, rfl⟩)
      rw [List.filter_cons_of_neg (by simpa using other)]
      exact ih distinct later

theorem Element.values_of_not_mem {element : Element} {name : String}
    (absent : name ∉ element.attributes.map Attribute.name) : element.values name = [] := by
  rw [values, List.map_eq_nil_iff, List.filter_eq_nil_iff]
  intro pair listed same
  exact absent (List.mem_map.mpr ⟨pair, listed, of_decide_eq_true same⟩)

/-- A branch that a pass comes to, and the state in which it does. -/
structure Visit where
  pass : Pass
  branch : Branch

namespace Visit

/-- The key of the visited node. -/
def key (visit : Visit) : Key :=
  visit.branch.key

/-- The visited node. -/
def node (visit : Visit) : Node :=
  visit.branch.node

/-- The frames while the node and everything below it is rendered. -/
def within (visit : Visit) : Environment :=
  (visit.pass.enter visit.node).environment

/-- The element that a visit makes. -/
def element (layout : Layout) (visit : Visit) : Element :=
  (visit.branch.render layout visit.pass).1

/-- The state in which a visit leaves the pass. -/
def after (layout : Layout) (visit : Visit) : Pass :=
  (visit.branch.render layout visit.pass).2

theorem attributes_element (layout : Layout) (visit : Visit) :
    (visit.element layout).attributes = visit.node.attributes layout visit.within.style := by
  obtain ⟨pass, key, node, children⟩ := visit
  rw [element, Branch.render]
  cases children <;> rfl

theorem nodup_names_element (layout : Layout) (visit : Visit) :
    ((visit.element layout).attributes.map Attribute.name).Nodup := by
  rw [attributes_element]
  exact (by decide : attributeNames.Nodup).sublist (visit.node.names_attributes_sublist ..)

end Visit

namespace Branch

mutual

/-- The visits of rendering a branch, each before those below it. -/
def visits (layout : Layout) (pass : Pass) : Branch → List Visit
  | .mk key node children =>
    ⟨pass, .mk key node children⟩ :: visitsAll layout (pass.enter node) children

/-- The visits of rendering several branches, one branch after the other. -/
def visitsAll (layout : Layout) (pass : Pass) : List Branch → List Visit
  | [] => []
  | branch :: rest =>
    branch.visits layout pass ++ visitsAll layout (branch.render layout pass).2 rest

end

variable (layout : Layout) (pass : Pass)

theorem visitsAll_cons (key : Key) (node : Node) (below others : List Branch) :
    visitsAll layout pass (.mk key node below :: others) =
      ⟨pass, .mk key node below⟩ :: (visitsAll layout (pass.enter node) below ++
        visitsAll layout (render layout pass (.mk key node below)).2 others) :=
  rfl

mutual

theorem map_key_visits (pass : Pass) (branch : Branch) :
    (branch.visits layout pass).map Visit.key = branch.preorder := by
  cases branch with
  | mk key node children =>
    rw [visits, List.map_cons, map_key_visitsAll, preorder]
    rfl

/-- Branches are visited in preorder. -/
theorem map_key_visitsAll (pass : Pass) (forest : List Branch) :
    (visitsAll layout pass forest).map Visit.key = preorderAll forest := by
  cases forest with
  | nil => rfl
  | cons branch rest =>
    rw [visitsAll, List.map_append, map_key_visits, map_key_visitsAll, preorderAll]

end

mutual

theorem map_element_visits (pass : Pass) (branch : Branch) :
    (branch.visits layout pass).map (Visit.element layout) =
      (branch.render layout pass).1.inOrder := by
  cases branch with
  | mk key node children =>
    rw [visits, List.map_cons, map_element_visitsAll, Visit.element, render]
    cases children <;> rfl

/-- The elements that a pass makes stand in the order of its visits. -/
theorem map_element_visitsAll (pass : Pass) (forest : List Branch) :
    (visitsAll layout pass forest).map (Visit.element layout) =
      Element.inOrderAll (renderAll layout pass forest).1 := by
  cases forest with
  | nil => rfl
  | cons branch rest =>
    rw [visitsAll, List.map_append, map_element_visits, map_element_visitsAll, renderAll,
      Element.inOrderAll]

end

mutual

theorem handlers_render (pass : Pass) (branch : Branch) :
    (branch.render layout pass).2.handlers.toList =
      pass.handlers.toList ++ (branch.visits layout pass).filterMap (·.node.handler?) := by
  cases branch with
  | mk key node children =>
    have inside := handlers_renderAll (pass.enter node) children
    rw [render, visits]
    refine inside.trans ?_
    cases found : node.handler? <;> simp [Pass.enter, Visit.node, Branch.node, found]

/-- A pass registers the handlers of the nodes it visits, in the order of its visits. -/
theorem handlers_renderAll (pass : Pass) (forest : List Branch) :
    (renderAll layout pass forest).2.handlers.toList =
      pass.handlers.toList ++ (visitsAll layout pass forest).filterMap (·.node.handler?) := by
  cases forest with
  | nil => simp [renderAll, visitsAll]
  | cons branch rest =>
    rw [renderAll, visitsAll, List.filterMap_append, ← List.append_assoc, ← handlers_render]
    exact handlers_renderAll (branch.render layout pass).2 rest

end

end Branch

namespace Tree

variable {tree : Tree} {keys : List Key} {forest : List Branch}

/-- The visits of rendering a tree. -/
def visits (layout : Layout) (tree : Tree) : List Visit :=
  Branch.visitsAll layout {} tree.forest

/-- A pass that starts with the frames above some nodes comes to each node below them with the frames
above that node. -/
theorem Unfolds.frames_visits (coherent : tree.Coherent) (unfolds : tree.Unfolds keys forest)
    (layout : Layout) {pass : Pass}
    (frames : ∀ key ∈ keys, tree.outerFrames key = pass.environment.frames) {visit : Visit}
    (visited : visit ∈ Branch.visitsAll layout pass forest) :
    tree.get? visit.key = some visit.node ∧
      visit.pass.environment.frames = tree.outerFrames visit.key := by
  induction unfolds generalizing pass with
  | nil => simp [Branch.visitsAll] at visited
  | @cons key rest node below others read _ _ down across =>
    have own := frames key (List.mem_cons_self ..)
    rw [Branch.visitsAll_cons, List.mem_cons, List.mem_append] at visited
    rcases visited with rfl | inside | beside
    · exact ⟨read, own.symm⟩
    · refine down (fun child listed => ?_) inside
      rw [coherent.outerFrames_of_parent (coherent.child_up listed) read, own]
      rfl
    · refine across (fun other listed => ?_) beside
      rw [Branch.environment_render]
      exact frames other (List.mem_cons_of_mem _ listed)

namespace Rooted

variable (rooted : tree.Rooted) (layout : Layout)

include rooted

theorem map_key_visits : (tree.visits layout).map Visit.key = tree.document := by
  rw [visits, Branch.map_key_visitsAll, rooted.document_eq_preorderAll]

/-- At a visit the pass holds the frames that looking up from the node finds. -/
theorem at_visit {visit : Visit} (visited : visit ∈ tree.visits layout) :
    tree.get? visit.key = some visit.node ∧
      visit.within = ⟨visit.node.frame :: tree.outerFrames visit.key⟩ := by
  obtain ⟨read, frames⟩ := rooted.unfolds_forest.frames_visits rooted.toCoherent layout
    (fun _ listed => rooted.outerFrames_root listed) visited
  refine ⟨read, ?_⟩
  rw [← frames]
  rfl

end Rooted

theorem map_element_visits (tree : Tree) (layout : Layout) :
    (tree.visits layout).map (Visit.element layout) =
      Element.inOrderAll (tree.elements layout) :=
  Branch.map_element_visitsAll layout {} tree.forest

theorem handlers_eq (tree : Tree) (layout : Layout) :
    tree.handlers layout = (tree.visits layout).filterMap (·.node.handler?) :=
  Branch.handlers_renderAll layout {} tree.forest

end Tree

end ViewMarkup
