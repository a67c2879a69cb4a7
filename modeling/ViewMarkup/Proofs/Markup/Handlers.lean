import ViewMarkup.Proofs.Build.Identity
import ViewMarkup.Proofs.Markup.Visits

/-! # Handlers, script and markup name the same nodes

A node with an action shows in four places: a query for actions selects it, the pass registers its
handler, the script has an entry for the handler, and its element has an identifier in the markup.
All four are read off the visits of the pass, so they list the same nodes in the same order. The
name of a handler is its identifier with a fixed ending, so names are distinct because identifiers
are.
-/

namespace ViewMarkup

open ViewMarkup.Random Markup

/-- The handler belongs to the node, whose action it runs on a click. -/
def Tree.Serves (tree : Tree) (key : Key) (handler : Handler) : Prop :=
  ∃ node, tree.get? key = some node ∧ node.kind.action? = some handler.action ∧
    handler.identifier = node.identifier ∧ handler.trigger = .click

/-- There is one trigger, so all names end alike. -/
theorem Handler.name_eq (handler : Handler) : handler.name = handler.identifier ++ "OnClick" := by
  obtain ⟨identifier, ⟨⟩, action⟩ := handler
  rw [name, String.append_assoc]
  rfl

theorem Node.handler?_eq_none_iff (node : Node) :
    node.handler? = none ↔ node.hasAction = false := by
  simp [handler?, hasAction]

theorem Node.hasAction_of_handler? {node : Node} {handler : Handler}
    (registered : node.handler? = some handler) : node.hasAction = true := by
  obtain ⟨action, found, _⟩ := Option.map_eq_some_iff.mp registered
  rw [hasAction, found, Option.isSome_some]

theorem Node.id_not_mem_names {node : Node} (idle : node.hasAction = false) (layout : Layout)
    (style : StyleKey → String) : "id" ∉ (node.attributes layout style).map Attribute.name := by
  have modifiers : "id" ∉ (node.modifiers.attributes layout).map Attribute.name := by
    simp [Modifiers.attributes]
  have kinds : "id" ∉ node.kind.attributes.map Attribute.name := fun listed =>
    absurd (node.kind.names_attributes_sublist.subset listed) (by decide)
  rw [attributes, idle]
  simpa using ⟨by simpa using modifiers, by simpa using kinds⟩

namespace Visit

variable {tree : Tree}

/-- The nodes that a query for actions selects are served by the handlers, in the same order. -/
theorem handlers_serve {visits : List Visit}
    (read : ∀ visit ∈ visits, tree.get? visit.key = some visit.node) :
    List.Forall₂ tree.Serves
      ((visits.map Visit.key).filter fun key => (tree.get? key).any Node.hasAction)
      (visits.filterMap (·.node.handler?)) := by
  induction visits with
  | nil => exact .nil
  | cons visit rest ih =>
    obtain ⟨own, others⟩ := List.forall_mem_cons.mp read
    cases registered : visit.node.handler? with
    | none =>
      have idle := visit.node.handler?_eq_none_iff.mp registered
      rw [List.map_cons, List.filter_cons_of_neg (by simp [own, idle]), List.filterMap_cons,
        registered]
      exact ih others
    | some handler =>
      have active := Node.hasAction_of_handler? registered
      rw [List.map_cons, List.filter_cons_of_pos (by simp [own, active]), List.filterMap_cons,
        registered]
      obtain ⟨action, found, rfl⟩ := Option.map_eq_some_iff.mp registered
      exact .cons ⟨visit.node, own, found, rfl, rfl⟩ (ih others)

/-- An element has an identifier exactly if its node registers a handler, and then that of the
handler. -/
theorem values_id (layout : Layout) (visit : Visit) :
    (visit.element layout).values "id" = visit.node.handler?.toList.map Handler.identifier := by
  cases registered : visit.node.handler? with
  | none =>
    have idle := visit.node.handler?_eq_none_iff.mp registered
    refine Element.values_of_not_mem ?_
    rw [attributes_element]
    exact Node.id_not_mem_names idle layout _
  | some handler =>
    have active := Node.hasAction_of_handler? registered
    obtain ⟨action, found, rfl⟩ := Option.map_eq_some_iff.mp registered
    refine Element.values_of_mem (visit.nodup_names_element layout) ?_
    rw [attributes_element]
    simp [Node.attributes, active]

/-- The identifiers in the markup are those of the handlers, in the same order. -/
theorem filter_values_id (layout : Layout) (visits : List Visit) :
    ((visits.map (Visit.element layout)).map (·.values "id")).filter (· ≠ []) =
      (visits.filterMap (·.node.handler?)).map fun handler => [handler.identifier] := by
  induction visits with
  | nil => rfl
  | cons visit rest ih =>
    rw [List.map_cons, List.map_cons, values_id]
    cases registered : visit.node.handler? with
    | none =>
      rw [List.filterMap_cons, registered]
      exact ih
    | some handler =>
      rw [List.filterMap_cons, registered]
      exact congrArg ([handler.identifier] :: ·) ih

end Visit

namespace Tree

variable {tree : Tree} {layout : Layout}

theorem Rooted.select_hasAction_serves (rooted : tree.Rooted) (layout : Layout) :
    List.Forall₂ tree.Serves (tree.select Node.hasAction) (tree.handlers layout) := by
  rw [select, ← rooted.map_key_visits layout, handlers_eq]
  exact Visit.handlers_serve fun visit visited => (rooted.at_visit layout visited).1

theorem identifiers_of_serves {keys : List Key} {handlers : List Handler}
    (served : List.Forall₂ tree.Serves keys handlers) :
    handlers.map Handler.identifier = keys.map tree.identifierOf := by
  induction served with
  | nil => rfl
  | cons own _ ih =>
    obtain ⟨node, read, _, same, _⟩ := own
    rw [List.map_cons, List.map_cons, ih, same, tree.identifierOf_of_get? read]

/-- Handlers that serve the nodes of a query have different names. -/
theorem nodup_names_of_serves (distinct : tree.labels.Nodup) {test : Node → Bool}
    (once : (tree.select test).Nodup) {handlers : List Handler}
    (served : List.Forall₂ tree.Serves (tree.select test) handlers) :
    (handlers.map Handler.name).Nodup := by
  have identifiers : (handlers.map Handler.identifier).Nodup := by
    rw [identifiers_of_serves served]
    refine List.Nodup.map_on (fun first left second right same => ?_) once
    obtain ⟨one, readOne, _⟩ := exists_of_mem_select left
    obtain ⟨other, readOther, _⟩ := exists_of_mem_select right
    rw [tree.identifierOf_of_get? readOne, tree.identifierOf_of_get? readOther] at same
    exact key_eq_of_identifier distinct readOne readOther same
  have names : handlers.map Handler.name =
      (handlers.map Handler.identifier).map (· ++ "OnClick") := by
    rw [List.map_map]
    exact List.map_congr_left fun handler _ => handler.name_eq
  rw [names]
  exact identifiers.map fun _ _ same => (String.append_left_inj _).mp same

theorem labels_edit (tree : Tree) (edits : List (Key × Modifier)) :
    (tree.edit edits).labels = tree.labels := by
  induction edits generalizing tree with
  | nil => rfl
  | cons first rest ih => exact (ih _).trans (tree.labels_modifyAll first.1 [first.2])

end Tree

/-- Markup, handlers and script name the same nodes in the same order, and no two handlers have the
same name. -/
theorem Program.handlers_agree {γ : Type} [Generator γ] (ids : Allocator γ) (valid : ids.Valid)
    (program : Program) (built : Tree) (edits : List (Key × Modifier)) (layout : Layout)
    (finished : (Program.run { builder := { ids } } program).builder.finish.1 = .ok built)
    (narrow : layout.indent ≤ 65535) :
    let tree := built.edit edits
    ∃ output elements, tree.render layout = .ok output ∧
      (tree.select Node.hasAction).Nodup ∧
      List.Forall₂ tree.Serves (tree.select Node.hasAction) output.handlers ∧
      output.script = String.join (output.handlers.map fun handler =>
        handler.identifier ++ "OnClick: () => \x7b\n" ++
          String.ofList (List.replicate layout.indent ' ') ++ "(" ++ handler.action ++
          ")();\n\x7d,\n") ∧
      parse? output.markup = some elements ∧
      ((Element.inOrderAll elements).map (·.values "id")).filter (· ≠ []) =
        output.handlers.map (fun handler => [handler.identifier]) ∧
      (output.handlers.map Handler.name).Nodup := by
  intro tree
  have rooted : tree.Rooted := (Program.rooted_of_finish ids finished).edit edits
  obtain ⟨_, labelled⟩ := Program.labelled_of_finish valid finished
  have distinct : tree.labels.Nodup := (built.labels_edit edits).symm ▸ labelled.nodup
  have once : (tree.select Node.hasAction).Nodup := List.filter_sublist.nodup rooted.nodup_document
  have served := rooted.select_hasAction_serves layout
  have small : tree.size ≤ UInt32.size := by
    have bound := labelled.length_le
    rw [← built.labels_edit edits, Tree.length_labels] at bound
    exact Nat.le_of_lt (Nat.lt_of_le_of_lt bound ids.space.toNat_lt_size)
  have rendered := Tree.render_of_narrow narrow small
  refine ⟨_, tree.elements layout, rendered, once, served, ?_, rooted.parse_of_render rendered,
    ?_, ?_⟩
  · refine congrArg String.join (List.map_congr_left fun handler _ => ?_)
    rw [Handler.entry, handler.name_eq, Text.blanks_eq]
    simp only [String.append_assoc]
    rfl
  · rw [← tree.map_element_visits layout, tree.handlers_eq layout]
    exact Visit.filter_values_id layout (tree.visits layout)
  · exact Tree.nodup_names_of_serves distinct once served

/-- Three actions, one of them inside another, beside a value that looks like an identifier. -/
theorem Program.handlers_agree_nested :
    let program : Program :=
      [.vstack [.button "Add" (some "add(1)"), .text "none",
        .buttonAround "pick" [.button "Off" none, .button "On" (some "turn")]]]
    let tree := (Config.sequential.run default program).builder.tree.edit [(2, .background "\" id=\"a2")]
    let layout : Layout := { indent := 3 }
    tree.select Node.hasAction = [1, 3, 5] ∧
      ∃ output elements, tree.render layout = .ok output ∧
        List.Forall₂ tree.Serves [1, 3, 5] output.handlers ∧
        parse? output.markup = some elements ∧
        ((Element.inOrderAll elements).map (·.values "id")).filter (· ≠ []) =
          output.handlers.map (fun handler => [handler.identifier]) ∧
        (output.handlers.map Handler.name).Nodup := by
  intro program tree layout
  let builder := (Config.sequential.run default program).builder
  have finished : builder.finish.1 = .ok builder.tree :=
    Builder.finish_of_closed (by decide) (by decide)
  have selected : tree.select Node.hasAction = [1, 3, 5] := by decide
  obtain ⟨output, elements, rendered, _, served, _, parsed, marked, names⟩ :=
    Program.handlers_agree (Config.sequential.allocator default) (Config.sequential.valid_allocator default)
      program builder.tree [(2, .background "\" id=\"a2")] layout finished (by decide)
  exact ⟨selected, output, elements, rendered, selected ▸ served, parsed, marked, names⟩

end ViewMarkup
