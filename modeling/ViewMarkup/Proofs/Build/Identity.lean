import Mathlib
import ViewMarkup.Compiler
import ViewMarkup.Proofs.Build.Naming
import ViewMarkup.Proofs.Build.Ownership

/-! # Identifiers and queries

A build that ends well has given every node an identifier of its own, made of the stem and a number
of the space. If moreover every node is in the document, then a search by identifier finds the one
node that carries it and fails for every other text, and a query lists exactly the nodes that pass
its test, each once and in document order.
-/

namespace ViewMarkup

open ViewMarkup.Random Relation

namespace Tree

variable {tree : Tree} {key : Key}

theorem mem_labels {node : Node} (read : tree.get? key = some node) :
    node.identifier ∈ tree.labels :=
  List.mem_map.mpr ⟨key, List.mem_range.mpr (lt_size_of_get? read), tree.identifierOf_of_get? read⟩

/-- With distinct labels an identifier belongs to one node. -/
theorem key_eq_of_identifier (distinct : tree.labels.Nodup) {other : Key} {first second : Node}
    (left : tree.get? key = some first) (right : tree.get? other = some second)
    (same : first.identifier = second.identifier) : key = other := by
  refine List.inj_on_of_nodup_map distinct (List.mem_range.mpr (lt_size_of_get? left))
    (List.mem_range.mpr (lt_size_of_get? right)) ?_
  rw [tree.identifierOf_of_get? left, tree.identifierOf_of_get? right, same]

theorem carries_of_findIdentifier? {text : String} (found : tree.findIdentifier? text = some key) :
    ∃ node, tree.get? key = some node ∧ node.identifier = text := by
  rw [findIdentifier?] at found
  have passes := List.find?_some found
  simpa only [Option.any_eq_true, beq_iff_eq] using passes

theorem exists_of_mem_select {test : Node → Bool} (selected : key ∈ tree.select test) :
    ∃ node, tree.get? key = some node ∧ test node = true := by
  have passes := (List.mem_filter.mp selected).2
  rwa [Option.any_eq_true] at passes

namespace Owned

theorem mem_document_of_get? (owned : tree.Owned) {node : Node}
    (read : tree.get? key = some node) : key ∈ tree.document :=
  owned.mem_document.mpr (lt_size_of_get? read)

theorem mem_select (owned : tree.Owned) (test : Node → Bool) :
    key ∈ tree.select test ↔ ∃ node, tree.get? key = some node ∧ test node = true := by
  refine ⟨exists_of_mem_select, ?_⟩
  rintro ⟨node, read, passes⟩
  exact List.mem_filter.mpr ⟨owned.mem_document_of_get? read, by simp [read, passes]⟩

/-- The search takes the first node that carries the identifier, and there is no second one. -/
theorem findIdentifier?_eq_some_iff (owned : tree.Owned) (distinct : tree.labels.Nodup)
    (text : String) :
    tree.findIdentifier? text = some key ↔
      ∃ node, tree.get? key = some node ∧ node.identifier = text := by
  constructor
  · exact carries_of_findIdentifier?
  · rintro ⟨node, read, rfl⟩
    obtain ⟨other, found⟩ : ∃ other, tree.findIdentifier? node.identifier = some other := by
      refine Option.isSome_iff_exists.mp (List.find?_isSome.mpr ?_)
      exact ⟨key, owned.mem_document_of_get? read, by simp [read]⟩
    obtain ⟨second, carried, same⟩ := carries_of_findIdentifier? found
    rwa [← key_eq_of_identifier distinct carried read same]

end Owned

end Tree

/-- Every strategy starts with a valid allocator. -/
theorem Config.valid_allocator (config : Config) (entropy : KeyStream) :
    (config.allocator entropy).Valid := by
  cases chosen : config.strategy with
  | sequential =>
    rw [allocator, chosen]
    exact Allocator.valid_counter config.stem config.space
  | random seed => exact Allocator.valid_draws (by rw [allocator, chosen, Strategy.source])

variable {γ : Type} [Generator γ]

theorem Program.labelled_of_finish {ids : Allocator γ} (valid : ids.Valid) {program : Program}
    {tree : Tree}
    (finished : (Program.run { builder := { ids } } program).builder.finish.1 = .ok tree) :
    ∃ last : Allocator γ, last.Labelled ids.stem ids.space tree.labels := by
  rw [Builder.finish_fst] at finished
  obtain ⟨sound, _, rfl⟩ := Builder.outcome_eq_ok_iff.mp finished
  have steps : ReflTransGen (Moment.Step False) { builder := { ids } } _ :=
    Program.run_steps [] { builder := { ids } } program False.elim
  exact ⟨_, Moment.labelled_run valid steps sound⟩

/-- In a build that ends well, identifiers name nodes one to one, and searches and queries find
exactly the nodes that they ask for. -/
theorem Program.identifiers_and_queries (ids : Allocator γ) (valid : ids.Valid) (program : Program)
    (tree : Tree) (spared : Program.Spares [] { builder := { ids } } program)
    (finished : (Program.run { builder := { ids } } program).builder.finish.1 = .ok tree) :
    (∀ first second left right, tree.get? first = some left → tree.get? second = some right →
      left.identifier = right.identifier → first = second) ∧
    (∀ key node, tree.get? key = some node → node.identifier ≠ "" ∧
      ∃ number < ids.space.toNat, node.identifier = ids.stem ++ number.repr) ∧
    (∀ text key, tree.findIdentifier? text = some key ↔
      ∃ node, tree.get? key = some node ∧ node.identifier = text) ∧
    ∀ test : Node → Bool,
      (∀ key, key ∈ tree.select test ↔ ∃ node, tree.get? key = some node ∧ test node) ∧
      (tree.select test).Nodup ∧ (tree.select test).Sublist tree.document := by
  have owned : tree.Owned :=
    (Program.run_reachable ids spared).owned ((Builder.finish_fst _).symm.trans finished)
  obtain ⟨_, labelled⟩ := Program.labelled_of_finish valid finished
  refine ⟨?_, ?_, ?_, ?_⟩
  · intro first second left right
    exact Tree.key_eq_of_identifier labelled.nodup
  · intro key node read
    exact labelled.of_mem (Tree.mem_labels read)
  · intro text key
    exact owned.findIdentifier?_eq_some_iff labelled.nodup text
  · intro test
    have inOrder : (tree.select test).Sublist tree.document := List.filter_sublist
    exact ⟨fun key => owned.mem_select test, inOrder.nodup owned.nodup_document, inOrder⟩

/-- Draws from a space of three behind a stem that ends in a digit, some of them refused, until
nothing is left to draw. -/
theorem Program.identifiers_and_queries_drawn :
    let draws : Stream' UInt32 := fun n => if n < 3 then 1 else if n = 3 then 0 else 2
    let ids : Allocator (Stream' UInt32) := { stem := "n1", space := 3, source := .draws draws }
    let program : Program :=
      [.hstack [], .beginCapture "level", .text "x", .text "y",
        .endCapture (.stored "level") (.numbered 0)]
    let tree := (Program.run { builder := { ids } } program).builder.tree
    tree.labels = ["n11", "n10", "n12"] ∧
      (∀ first second left right, tree.get? first = some left → tree.get? second = some right →
        left.identifier = right.identifier → first = second) ∧
      tree.findIdentifier? "n12" = some 2 ∧
      (tree.ofCategory .text).Nodup ∧ ∀ key, key ∈ tree.ofCategory .text ↔
        ∃ node, tree.get? key = some node ∧ node.kind.category == .text := by
  intro draws ids program tree
  have finished : (Program.run { builder := { ids } } program).builder.finish.1 = .ok tree :=
    Builder.finish_of_closed (by decide_cbv) (by decide_cbv)
  obtain ⟨distinct, _, found, queried⟩ :=
    Program.identifiers_and_queries ids (Allocator.valid_draws rfl) program tree (by decide_cbv)
      finished
  obtain ⟨selected, once, _⟩ := queried fun node => node.kind.category == .text
  have labels : tree.labels = ["n11", "n10", "n12"] := by
    unfold tree
    decide_cbv
  have carried : (tree.get? 2).map (·.identifier) = some "n12" := by
    unfold tree
    decide_cbv
  exact ⟨labels, distinct, (found "n12" 2).mpr (Option.map_eq_some_iff.mp carried), once,
    selected⟩

end ViewMarkup
