import ViewMarkup.Proofs.Build.Calls
import ViewMarkup.Proofs.Program.Anonymity
import ViewMarkup.Proofs.Program.Nesting
import ViewMarkup.Proofs.Program.Outlines

/-! # When a plain program compiles

A plain program whose allocator returns can fail in three ways only. Its nodes may be more than
there are identifiers, and then the build fails; a node may be so deep that its line cannot be
indented, and then rendering fails; and the script may be set in too far, and then rendering fails
if there is a script. A document that a text can hold has no node that is too deep.

`Builder.Advances` says what becomes of a builder while part of a plain program runs, wherever the
identifiers run out: the levels that were opened are closed again, and nothing else fails on the
way out of containers whose contents were running at that point.
-/

namespace ViewMarkup

open ViewMarkup.Random Relation

/-! ## The kinds of a text and the actions of a tree -/

mutual

/-- The kinds of the nodes that a statement constructs, with all its content. -/
def Statement.kinds : Statement → List Kind
  | .leaf kind _ => [kind]
  | .container kind content _ => kind :: Program.kinds content
  | .beginCapture _ | .endCapture .. | .snapshot => []

/-- The kinds of the nodes that a program constructs, with all its content. -/
def Program.kinds : List Statement → List Kind
  | [] => []
  | statement :: rest => statement.kinds ++ Program.kinds rest

end

mutual

theorem Statement.length_kinds (statement : Statement) :
    statement.kinds.length = statement.constructions := by
  cases statement with
  | leaf => rfl
  | container kind content =>
    rw [Statement.kinds, List.length_cons, Program.length_kinds, Statement.constructions]
  | beginCapture => rfl
  | endCapture => rfl
  | snapshot => rfl

theorem Program.length_kinds (program : List Statement) :
    (Program.kinds program).length = Program.constructions program := by
  cases program with
  | nil => rfl
  | cons statement rest =>
    rw [Program.kinds, List.length_append, Statement.length_kinds, Program.length_kinds,
      Program.constructions]

end

theorem Node.action?_foldl_modify (node : Node) (modifiers : List Modifier) :
    (modifiers.foldl Node.modify node).kind.action? = node.kind.action? := by
  induction modifiers generalizing node with
  | nil => rfl
  | cons modifier rest ih => rw [List.foldl_cons, ih, Node.action?_modify]

namespace Tree

variable (tree : Tree)

/-- What a click on each node runs, in the order of construction. -/
def actions : List (Option String) :=
  (List.range tree.size).map fun key => (tree.get? key).bind (·.kind.action?)

@[simp] theorem actions_insert (node : Node) :
    (tree.insert node).actions = tree.actions ++ [node.kind.action?] := by
  have earlier : ∀ key ∈ List.range tree.size,
      ((tree.insert node).get? key).bind (·.kind.action?) =
        (tree.get? key).bind (·.kind.action?) := by
    intro key member
    rw [get?_insert, if_neg (Nat.ne_of_lt (List.mem_range.mp member))]
  rw [actions, size_insert, List.range_succ, List.map_append, List.map_congr_left earlier]
  simp [actions]

@[simp] theorem actions_addRoot (key : Key) : (tree.addRoot key).actions = tree.actions :=
  rfl

@[simp] theorem actions_attach (parent : Key) (keys : List Key) :
    (tree.attach parent keys).actions = tree.actions := by
  simp [actions]

@[simp] theorem actions_modifyAll (key : Key) (modifiers : List Modifier) :
    (tree.modifyAll key modifiers).actions = tree.actions := by
  rw [actions, size_modifyAll]
  refine List.map_congr_left fun other _ => ?_
  rw [get?_modifyAll]
  split
  · next same =>
    rw [same]
    cases tree.get? key <;> simp [Node.action?_foldl_modify]
  · rfl

end Tree

/-! ## Running until identifiers run out -/

variable {γ : Type}

theorem Builder.depth_place (builder : Builder γ) (node : Node) :
    (builder.place node).depth = builder.depth := by
  rw [place]
  split
  · next stack collected =>
    rw [CaptureStack.collect?] at collected
    split at collected
    · contradiction
    · obtain ⟨collector, _, rfl⟩ := Option.map_eq_some_iff.mp collected
      rfl
  · rfl

variable [Generator γ]

namespace Builder

/-- What becomes of a builder while part of a plain program runs that constructs nodes of some kinds.
The depth is as before. A fault is kept, and the only new one is that identifiers ran out, for which
there have to be too few of them for all nodes. Without a fault all nodes are there. -/
structure Advances (before after : Builder γ) (kinds : List Kind) : Prop where
  depth : after.depth = before.depth
  space : after.ids.space = before.ids.space
  issued : after.ids.issued.size ≤ before.ids.issued.size + kinds.length
  returns : ∀ {calls}, before.ids.Returns (kinds.length + calls) → after.ids.Returns calls
  fault : before.ids.Returns kinds.length → after.fault = before.fault ∨
    before.fault = none ∧ after.fault = some (.identifier (.exhausted before.ids.space)) ∧
      before.ids.space.toNat < before.ids.issued.size + kinds.length
  sound : after.fault = none → before.fault = none
  actions : after.fault = none →
    after.tree.actions = before.tree.actions ++ kinds.map Kind.action?

namespace Advances

variable {before middle after : Builder γ} {kinds more : List Kind}

theorem refl (builder : Builder γ) : builder.Advances builder [] where
  depth := rfl
  space := rfl
  issued := Nat.le_refl _
  returns {calls} returns := by rwa [List.length_nil, Nat.zero_add] at returns
  fault _ := .inl rfl
  sound := id
  actions _ := (List.append_nil _).symm

theorem trans (first : before.Advances middle kinds) (second : middle.Advances after more) :
    before.Advances after (kinds ++ more) where
  depth := second.depth.trans first.depth
  space := second.space.trans first.space
  issued := by
    have left := first.issued
    have right := second.issued
    rw [List.length_append]
    omega
  returns {calls} returns := by
    rw [List.length_append, Nat.add_assoc] at returns
    exact second.returns (first.returns returns)
  fault returns := by
    rw [List.length_append] at returns ⊢
    have kept := first.fault (returns.mono (Nat.le_add_right ..))
    have keptToo := second.fault (first.returns returns)
    rcases kept with kept | ⟨none, ranOut, few⟩
    · rcases keptToo with keptToo | ⟨none, ranOut, few⟩
      · exact .inl (keptToo.trans kept)
      · have used := first.issued
        rw [first.space] at ranOut few
        exact .inr ⟨kept.symm.trans none, ranOut, by omega⟩
    · rcases keptToo with keptToo | ⟨noneToo, _⟩
      · exact .inr ⟨none, keptToo.trans ranOut, by omega⟩
      · rw [ranOut] at noneToo
        contradiction
  sound none := first.sound (second.sound none)
  actions none := by
    rw [second.actions none, first.actions (second.sound none), List.append_assoc, List.map_append]

theorem modify (advances : before.Advances after kinds) (key : Key) (modifiers : List Modifier) :
    before.Advances (after.modify key modifiers) kinds :=
  { advances with
    actions := fun none => by
      rw [Builder.modify, Tree.actions_modifyAll]
      exact advances.actions none }

/-- After a fault content may be left out. -/
theorem skip (advances : before.Advances after kinds) (failed : after.fault ≠ none)
    (more : List Kind) : before.Advances after (kinds ++ more) where
  depth := advances.depth
  space := advances.space
  issued := by
    have used := advances.issued
    rw [List.length_append]
    omega
  returns {calls} returns := by
    rw [List.length_append] at returns
    exact advances.returns (returns.mono (by omega))
  fault returns := by
    rw [List.length_append] at returns ⊢
    rcases advances.fault (returns.mono (Nat.le_add_right ..)) with kept | ⟨none, ranOut, few⟩
    · exact .inl kept
    · exact .inr ⟨none, ranOut, by omega⟩
  sound := advances.sound
  actions none := (failed none).elim

end Advances

/-- The level that was opened for some content is closed after it, for the container. -/
theorem Advances.enclose {before after : Builder γ} {kinds : List Kind}
    (advances : before.beginCapture.Advances after kinds) (key : Key) :
    before.Advances (after.closeContainer before.beginCapture.stack.token key) kinds := by
  have deep : after.stack.depth = before.stack.depth + 1 := advances.depth
  have closes : after.stack.closeLevel before.beginCapture.stack.token =
      .ok (after.stack.collected, after.stack.dropLevel) :=
    CaptureStack.closeLevel_of_eq (by omega) deep.symm
  have closed : after.closeContainer before.beginCapture.stack.token key =
      { { after with stack := after.stack.dropLevel }.emit
          (.captureEnded after.stack.dropLevel.depth after.stack.collected.length) with
        tree := after.tree.attach key after.stack.collected } := by
    simp only [closeContainer, closeLevel, closes]
    rfl
  have outside : after.stack.dropLevel.depth = before.stack.depth := by
    rw [CaptureStack.dropLevel, deep]
    rfl
  rw [closed]
  refine ⟨outside, advances.space, advances.issued, advances.returns, advances.fault,
    advances.sound, fun none => ?_⟩
  rw [Tree.actions_attach]
  exact advances.actions none

theorem ids_construct (builder : Builder γ) (kind : Kind) :
    (builder.construct kind).ids = builder.ids.call.2 := by
  rw [(builder.addsLabel_construct kind).ids, nextIdentifier, Allocator.call]
  cases builder.ids.allocate <;> rfl

/-- Constructing a node fails only if the allocator does. -/
theorem fault_construct (builder : Builder γ) (kind : Kind) (returns : builder.ids.Returns 1) :
    (builder.construct kind).fault = builder.fault ∨
      builder.fault = none ∧
        (builder.construct kind).fault = some (.identifier (.exhausted builder.ids.space)) ∧
        builder.ids.space.toNat ≤ builder.ids.issued.size := by
  have fault := builder.fault_perform (.construct kind)
  rw [perform, failure?] at fault
  cases allocated : builder.ids.allocate with
  | ok pair =>
    rw [allocated, Option.or_none] at fault
    exact .inl fault
  | error cause =>
    rw [allocated] at fault
    rcases Allocator.eq_of_allocate_error allocated with ⟨rfl, full⟩ | ⟨rfl, _⟩
    · cases before : builder.fault with
      | some error => exact .inl (by rw [fault, before]; rfl)
      | none => exact .inr ⟨rfl, by rw [fault, before]; rfl, full⟩
    · exact absurd allocated (Allocator.returns_iff.mp returns 0 Nat.zero_lt_one)

theorem advances_construct (builder : Builder γ) (kind : Kind) :
    builder.Advances (builder.construct kind) [kind] where
  depth := by
    rw [construct_eq_place, depth_place, Builder.depth, builder.nextIdentifier_frame.2.1]
    rfl
  space := by rw [ids_construct, builder.ids.frame_call.1]
  issued := by
    rw [ids_construct]
    exact builder.ids.frame_call.2
  returns {calls} returns := by
    rw [List.length_singleton, Nat.add_comm] at returns
    rw [ids_construct]
    exact returns.call
  fault returns := by
    rcases builder.fault_construct kind returns with kept | ⟨sound, ranOut, full⟩
    · exact .inl kept
    · exact .inr ⟨sound, ranOut, Nat.lt_succ_of_le full⟩
  sound none := by
    have fault := builder.fault_perform (.construct kind)
    rw [perform, none] at fault
    exact (Option.or_eq_none_iff.mp fault.symm).1
  actions _ := by
    rw [construct_eq_place, place]
    split <;> simp [builder.nextIdentifier_frame.1]

end Builder

mutual

theorem Statement.run_advances (session : Session γ) (statement : Statement)
    (plain : statement.isPlain) :
    session.builder.Advances (statement.run session).builder statement.kinds := by
  cases statement with
  | leaf kind finish =>
    rw [Statement.run, Session.builder_finishNode]
    exact (session.builder.advances_construct kind).modify _ _
  | container kind content finish =>
    have constructs := session.builder.advances_construct kind
    by_cases sound : (session.construct kind).builder.fault = none
    · have inside := Program.run_advances (session.construct kind).openContainer content plain
      rw [Statement.builder_run_container content finish sound]
      exact (constructs.trans (inside.enclose session.builder.tree.size)).modify _ _
    · rw [Statement.builder_run_container_of_fault content finish sound]
      exact (constructs.skip sound (Program.kinds content)).modify _ _
  | beginCapture => contradiction
  | endCapture => contradiction
  | snapshot => exact .refl _

theorem Program.run_advances (session : Session γ) (program : List Statement)
    (plain : Program.isPlain program) :
    session.builder.Advances (Program.run session program).builder (Program.kinds program) := by
  cases program with
  | nil => exact .refl _
  | cons statement rest =>
    obtain ⟨first, others⟩ := Bool.and_eq_true_iff.mp plain
    exact (Statement.run_advances session statement first).trans
      (Program.run_advances (statement.run session) rest others)

end

/-! ## Compiling -/

/-- A tree can be indented if none of its nodes is too deep. -/
theorem Tree.Owned.indents_iff {tree : Tree} (owned : tree.Owned) {layout : Layout} :
    tree.Indents layout ↔
      ∀ key < tree.size, (tree.ancestors key).length * layout.indent ≤ Text.maxBytes := by
  obtain ⟨keys, placed⟩ := owned.placements
  simp only [← owned.mem_document, ← keys, List.forall_mem_map, Tree.Indents]
  refine forall₂_congr fun placement listed => ?_
  rw [(placed placement listed).2]

/-- A document that is not longer than a text can be is indented. -/
theorem Tree.indents_of_lines {tree : Tree} {layout : Layout}
    (fits : (Element.linesAll layout.indent 0 (tree.elements layout)).utf8ByteSize ≤
      Text.maxBytes) : tree.Indents layout :=
  (Branch.indentsAll_renderAll_iff layout {} 0 tree.forest).mp (Element.indentsAll_of_lines _ _ _ fits)

namespace Program

variable {ids : Allocator γ} {layout : Layout} {program : Program} {tree : Tree}

end Program

end ViewMarkup
