import ViewMarkup.Proofs.Identifier.Occurrences
import ViewMarkup.Proofs.Markup.Matching
import ViewMarkup.Proofs.Program.Stripping

/-! # The choice of identifiers does not show elsewhere

A program that never looks a node up by its identifier takes the same steps whatever the
identifiers are, as long as there are enough of them and the allocator gives them when it is
called. So compiling it with other identifiers succeeds or fails alike, and the results differ in
the identifiers alone: outlines, inherited styles and the actions of the handlers are the same, the
handlers serve the same nodes in the same order, and the documents are the same but for the values
of identifiers.

Both runs are compared with the run of the stripped program under the first choice of identifiers.
Above it, the first run has the same identifiers and the second run has its own.
-/

namespace ViewMarkup

open ViewMarkup.Random Markup

variable {γ δ : Type}

/-! ## Allocators that do not run out -/

/-- After a number of calls at most so many numbers are issued, the space is not smaller than a bound
on the number of calls, and the calls up to the bound return. -/
structure Allocator.Ample [Generator γ] (bound count : Nat) (ids : Allocator γ) : Prop where
  issued : ids.issued.size ≤ count
  space : bound ≤ ids.space.toNat
  returns : ids.Returns (bound - count)

theorem Allocator.Fresh.ample [Generator γ] {bound : Nat} {ids : Allocator γ} (fresh : ids.Fresh)
    (space : bound ≤ ids.space.toNat) (returns : ids.Returns bound) : ids.Ample bound 0 :=
  ⟨Nat.le_of_eq fresh.size, space, returns⟩

theorem Allocator.Ample.allocate [Generator γ] {bound count : Nat} {ids : Allocator γ}
    (ample : ids.Ample bound count) (room : count < bound) :
    ∃ name next, ids.allocate = .ok (name, next) ∧ next.Ample bound (count + 1) := by
  have issued := ample.issued
  have space := ample.space
  have returns : ids.Returns (bound - (count + 1) + 1) := ample.returns.mono (by omega)
  obtain ⟨name, next, success, later⟩ := returns.allocate (by omega)
  obtain ⟨_, same, grown⟩ := Allocator.frame_of_allocate success
  exact ⟨name, next, success, by omega, by rw [same]; exact space, later⟩

/-- Two allocators that have nothing to do with each other, both with numbers enough. -/
def Supply.ample (γ δ : Type) [Generator γ] [Generator δ] (bound : Nat) : Supply γ δ where
  named := False
  room count := count < bound
  holds count first second := first.Ample bound count ∧ second.Ample bound count
  allocate := by
    rintro count first second ⟨left, right⟩ room
    obtain ⟨name, next, given, after⟩ := left.allocate room
    obtain ⟨other, following, givenOther, afterOther⟩ := right.allocate room
    exact .inr ⟨name, other, next, following, given, givenOther, False.elim, after, afterOther⟩

/-! ## Nodes under other names -/

/-- The same node under some name. -/
def Node.Renames (node other : Node) : Prop :=
  ∃ identifier, other = { node with identifier }

/-- The same attribute, or an identifier with another value. -/
def Attribute.Renames (first second : Attribute) : Prop :=
  second.name = first.name ∧ (first.name ≠ "id" → second.value = first.value)

theorem Node.Renames.attributes {node other : Node} (renames : node.Renames other) (layout : Layout)
    (style : StyleKey → String) :
    List.Forall₂ Attribute.Renames (node.attributes layout style)
      (other.attributes layout style) := by
  obtain ⟨identifier, rfl⟩ := renames
  rw [Node.attributes, Node.attributes, hasAction, hasAction]
  apply List.rel_append
  · exact List.forall₂_same.mpr fun pair _ => ⟨rfl, fun _ => rfl⟩
  · split
    · exact .cons ⟨rfl, fun other => (other rfl).elim⟩ .nil
    · exact .nil

namespace Tree

variable {first second : Tree} {layout : Layout}

/-- The tree with every identifier left blank. -/
def anonymous (tree : Tree) : Tree :=
  { tree with cells := tree.cells.map fun cell =>
      { cell with node := { cell.node with identifier := "" } } }

theorem like_anonymous (tree : Tree) :
    tree.Like (fun _ node other => other = { node with identifier := "" }) tree.anonymous := by
  have cells (key : Key) : tree.anonymous.cell? key = (tree.cell? key).map fun cell =>
      { cell with node := { cell.node with identifier := "" } } := by
    rw [cell?, cell?, anonymous, Array.getElem?_map]
  refine ⟨Array.size_map, rfl, fun key => ?_, fun key => ?_, fun {key node other} read found => ?_⟩
  · rw [parent?, parent?, cells]
    cases tree.cell? key <;> rfl
  · rw [children, children, cells]
    cases tree.cell? key <;> rfl
  · rw [get?, cells, Option.map_map] at found
    rw [get?] at read
    cases held : tree.cell? key with
    | none => simp [held] at read
    | some cell =>
      simp only [held, Option.map_some, Option.some.injEq] at read found
      rw [← found, ← read]
      rfl

/-- Trees whose nodes differ in their names are the same without them. -/
theorem Like.anonymous_eq (like : first.Like (fun _ => Node.Renames) second) :
    second.anonymous = first.anonymous := by
  apply first.like_anonymous.determined
  apply (like.trans second.like_anonymous).mono
  rintro key node _ _ ⟨_, ⟨identifier, rfl⟩, rfl⟩
  rfl

theorem Like.map_action_handlers (like : first.Like (fun _ => Node.Renames) second)
    (rooted : first.Rooted) (layout : Layout) :
    (second.handlers layout).map Handler.action = (first.handlers layout).map Handler.action := by
  apply like.map_handlers rooted
  rintro key node _ ⟨identifier, rfl⟩
  simp [Node.handler?, Function.comp_def]

theorem Like.exists_render_iff (like : first.Like (fun _ => Node.Renames) second)
    (rooted : first.Rooted) (layout : Layout) :
    (∃ output, first.render layout = .ok output) ↔ ∃ output, second.render layout = .ok output := by
  have actions := congrArg List.length (like.map_action_handlers rooted layout)
  rw [List.length_map, List.length_map] at actions
  rw [Tree.exists_render_iff, Tree.exists_render_iff, like.indents_iff, ← List.length_eq_zero_iff,
    ← actions, List.length_eq_zero_iff]

end Tree

/-! ## Compiling with other identifiers -/

namespace Program

variable [Generator γ] [Generator δ] {first : Allocator γ} {second : Allocator δ} {layout : Layout}
  {program : Program}

/-- With enough identifiers a program that does not look at them runs alike. -/
theorem run_renames (fresh : first.Fresh) (freshToo : second.Fresh)
    (blind : Program.isBlind program = true) {nodes : Nat}
    (constructs : (Program.run { builder := { ids := first } } program).builder.tree.size = nodes)
    (room : nodes ≤ first.space.toNat) (roomToo : nodes ≤ second.space.toNat)
    (returns : first.Returns nodes) (returnsToo : second.Returns nodes) :
    (Program.run { builder := { ids := first } } program).builder.Like (fun _ => Node.Renames) False
      (Program.run { builder := { ids := second } } program).builder := by
  let start : Session γ := { builder := { ids := first } }
  have named : (Program.run start (Program.strip program)).Underlies (.same γ)
      (Program.removed start program) (Program.run start program) :=
    Program.run_underlies program (.inl trivial) (fun _ _ => trivial)
      (Session.underlies_fresh _ _ rfl)
  have size : (Program.run start (Program.strip program)).builder.tree.size = nodes :=
    named.like.tree.size.symm.trans constructs
  have enough : (Supply.ample γ δ nodes).holds 0 first second :=
    ⟨fresh.ample room returns, freshToo.ample roomToo returnsToo⟩
  have renamed : (Program.run start (Program.strip program)).Underlies (.ample γ δ nodes)
      (Program.removed start program) (Program.run { builder := { ids := second } } program) :=
    Program.run_underlies program (.inr blind) (fun _ small => size ▸ small)
      (Session.underlies_fresh _ _ enough)
  refine ⟨?_, renamed.like.stack.trans named.like.stack.symm,
    renamed.like.sound.trans named.like.sound.symm, False.elim⟩
  apply (named.like.tree.symm.trans renamed.like.tree).mono
  rintro key _ _ _ ⟨node, dresses, identifier, rfl, _⟩
  rw [dresses.eq_edited trivial]
  exact ⟨identifier, rfl⟩

theorem compile_eq_ok_iff {result : Compilation} :
    Program.compile first layout program = .ok result ↔
      Program.build first program = .ok result.tree ∧
        result.tree.render layout = .ok result.output := by
  obtain ⟨tree, output⟩ := result
  rw [compile]
  cases Program.build first program with
  | error cause => simp
  | ok built =>
    dsimp only
    cases rendered : built.render layout with
    | error cause =>
      constructor
      · rintro ⟨⟩
      · rintro ⟨⟨⟩, written⟩
        rw [rendered] at written
        contradiction
    | ok written =>
      constructor
      · rintro ⟨⟩
        exact ⟨rfl, rendered⟩
      · rintro ⟨⟨⟩, same⟩
        rw [rendered] at same
        cases same
        rfl

theorem rooted_of_build {tree : Tree} (built : Program.build first program = .ok tree) :
    tree.Rooted :=
  Program.rooted_of_finish first ((Builder.finish_fst _).trans built)

theorem exists_compile_iff : (∃ result, Program.compile first layout program = .ok result) ↔
    ∃ tree, Program.build first program = .ok tree ∧ ∃ output, tree.render layout = .ok output := by
  constructor
  · rintro ⟨result, compiled⟩
    obtain ⟨built, rendered⟩ := compile_eq_ok_iff.mp compiled
    exact ⟨result.tree, built, result.output, rendered⟩
  · rintro ⟨tree, built, output, rendered⟩
    exact ⟨⟨tree, output⟩, compile_eq_ok_iff.mpr ⟨built, rendered⟩⟩

/-- Builds that run alike up to names can be rendered alike. -/
theorem exists_compile_of_renames
    (alike : (Program.run { builder := { ids := first } } program).builder.Like
      (fun _ => Node.Renames) False (Program.run { builder := { ids := second } } program).builder) :
    (∃ left, Program.compile first layout program = .ok left) ↔
      ∃ right, Program.compile second layout program = .ok right := by
  rw [exists_compile_iff, exists_compile_iff, build, build]
  rcases alike.outcome with ⟨error, _, left, right, _⟩ | ⟨left, right⟩
  · rw [left, right]
    constructor
    · rintro ⟨tree, ⟨⟩, _⟩
    · rintro ⟨tree, ⟨⟩, _⟩
  · have rendered := alike.tree.exists_render_iff (rooted_of_build left) layout
    simpa [left, right] using rendered

/-- A program that looks no node up by its identifier compiles under one choice of identifiers exactly
when it compiles under another, and the results are the same but for the identifiers. -/
theorem identifiers_immaterial (first : Allocator γ) (second : Allocator δ) (fresh : first.Fresh)
    (freshToo : second.Fresh) (layout : Layout) (program : Program)
    (blind : Program.isBlind program = true) (nodes : Nat)
    (constructs : (Program.run { builder := { ids := first } } program).builder.tree.size = nodes)
    (room : nodes ≤ first.space.toNat) (roomToo : nodes ≤ second.space.toNat)
    (returns : first.Returns nodes) (returnsToo : second.Returns nodes) :
    ((∃ left, Program.compile first layout program = .ok left) ↔
      ∃ right, Program.compile second layout program = .ok right) ∧
    ∀ left right, Program.compile first layout program = .ok left →
      Program.compile second layout program = .ok right →
      right.tree.anonymous = left.tree.anonymous ∧ right.tree.outline = left.tree.outline ∧
      (∀ key style, right.tree.resolve key style = left.tree.resolve key style) ∧
      (∃ keys, List.Forall₂ left.tree.Serves keys left.output.handlers ∧
        List.Forall₂ right.tree.Serves keys right.output.handlers) ∧
      right.output.handlers.map Handler.action = left.output.handlers.map Handler.action ∧
      ∃ elements others, parse? left.output.markup = some elements ∧
        parse? right.output.markup = some others ∧
        left.tree.Matches (fun _ => List.Forall₂ Attribute.Renames) left.tree.roots.toList
          elements others := by
  have alike := run_renames fresh freshToo blind constructs room roomToo returns returnsToo
  refine ⟨exists_compile_of_renames alike, fun left right compiled compiledToo => ?_⟩
  obtain ⟨built, rendered⟩ := compile_eq_ok_iff.mp compiled
  obtain ⟨builtToo, renderedToo⟩ := compile_eq_ok_iff.mp compiledToo
  have like : left.tree.Like (fun _ => Node.Renames) right.tree := by
    obtain ⟨_, _, tree⟩ := Builder.outcome_eq_ok_iff.mp built
    obtain ⟨_, _, treeToo⟩ := Builder.outcome_eq_ok_iff.mp builtToo
    rw [← tree, ← treeToo]
    exact alike.tree
  have rooted := rooted_of_build built
  have styles := like.resolve_eq (by rintro _ _ _ ⟨identifier, rfl⟩; rfl)
  refine ⟨like.anonymous_eq, like.outline_eq ?_, styles, ⟨left.tree.select Node.hasAction, ?_, ?_⟩,
    ?_, like.matches_rendered rooted ?_ rendered renderedToo⟩
  · rintro _ _ _ ⟨identifier, rfl⟩
    rfl
  · rw [Tree.handlers_of_render rendered]
    exact rooted.select_hasAction_serves layout
  · have selected : right.tree.select Node.hasAction = left.tree.select Node.hasAction := by
      apply like.select_eq
      rintro _ _ _ ⟨identifier, rfl⟩
      rfl
    rw [Tree.handlers_of_render renderedToo, ← selected]
    exact (like.rooted rooted).select_hasAction_serves layout
  · rw [Tree.handlers_of_render rendered, Tree.handlers_of_render renderedToo]
    exact like.map_action_handlers rooted layout
  · intro key node counterpart read found
    have renames := like.nodes read found
    have styleAt : right.tree.styleAt key = left.tree.styleAt key := by
      funext style
      exact congrArg style.style (styles key style)
    rw [styleAt]
    refine ⟨?_, ?_, renames.attributes layout _⟩ <;>
      · obtain ⟨identifier, rfl⟩ := renames
        rfl

/-- Numbers in order behind one stem, and draws from a space of just four behind another, with some
draws refused. -/
theorem identifiers_immaterial_drawn :
    let first : Allocator KeyStream := { source := .counter 0 }
    let draws : Stream' UInt32 := fun n => if n < 3 then 1 else UInt32.ofNat n
    let second : Allocator (Stream' UInt32) := { stem := "n1", space := 4, source := .draws draws }
    let program : Program :=
      [.hstack [.button "Go" (some "go")], .beginCapture "level", .text "x",
        .container (.datePicker (some "Day") "day" []) [] { modifiers := [.padding .default] },
        .endCapture (.stored "level") (.place [0, 0])]
    ∃ left right, Program.compile first {} program = .ok left ∧
      Program.compile second {} program = .ok right ∧
      left.tree.labels = ["a0", "a1", "a2", "a3"] ∧ right.tree.labels = ["n11", "n13", "n10", "n12"] ∧
      right.tree.anonymous = left.tree.anonymous ∧
      ∃ elements others, parse? left.output.markup = some elements ∧
        parse? right.output.markup = some others ∧
        left.tree.Matches (fun _ => List.Forall₂ Attribute.Renames) left.tree.roots.toList
          elements others := by
  intro first draws second program
  have fresh : first.Fresh := ⟨rfl, by rintro _ ⟨⟩; rfl⟩
  have freshToo : second.Fresh := ⟨rfl, nofun⟩
  have size : (Program.run { builder := { ids := first } } program).builder.tree.size = 4 := by
    decide_cbv
  have labels : (Program.run { builder := { ids := first } } program).builder.tree.labels =
      ["a0", "a1", "a2", "a3"] := by
    decide_cbv
  have returnsToo : second.Returns 4 := by
    refine Allocator.returns_of_different freshToo rfl [1, 3, 0, 2] (by decide) ?_ (by decide)
      (by decide)
    simp only [List.forall_mem_cons]
    exact ⟨⟨0, by decide⟩, ⟨3, by decide⟩, ⟨4, by decide⟩, ⟨6, by decide⟩, List.forall_mem_nil _⟩
  obtain ⟨agree, shown⟩ := identifiers_immaterial first second fresh freshToo {} program (by decide)
    4 size (by decide) (by decide) (Allocator.returns_of_counter rfl _) returnsToo
  have built : Program.build first program = .ok _ :=
    Builder.outcome_eq_ok_iff.mpr ⟨by decide_cbv, by decide_cbv, rfl⟩
  have rendered := Tree.render_of_narrow (by decide : ({} : Layout).indent ≤ _)
    (by rw [size]; decide)
  obtain ⟨left, compiled⟩ := exists_compile_iff.mpr ⟨_, built, _, rendered⟩
  obtain ⟨right, compiledToo⟩ := agree.mp ⟨left, compiled⟩
  obtain ⟨anonymous, _, _, _, _, matched⟩ := shown left right compiled compiledToo
  obtain ⟨_, _, same⟩ := Builder.outcome_eq_ok_iff.mp (compile_eq_ok_iff.mp compiled).1
  obtain ⟨_, _, sameToo⟩ := Builder.outcome_eq_ok_iff.mp (compile_eq_ok_iff.mp compiledToo).1
  refine ⟨left, right, compiled, compiledToo, same ▸ labels, ?_, anonymous, matched⟩
  rw [← sameToo]
  decide_cbv

end Program

end ViewMarkup
