import ViewMarkup.Compiler
import ViewMarkup.Proofs.Build.Naming
import ViewMarkup.Proofs.Build.Ownership
import ViewMarkup.Proofs.Identifier.Occurrences

/-! # What a program without manual levels builds

A plain program opens and closes no level by hand. Its text is then a forest already: a statement is
a branch, the content of a container is what hangs below it, and nodes are numbered in the order of
the text. `Program.branches` is this forest, up to the names of the nodes.

Running a plain program with enough identifiers left grows exactly this forest, wherever its topmost
nodes go: `Tree.Grows` says what is added to the tree, and `Builder.Ready` what is left for the
statements that follow, identifiers that the allocator gives when it is called included. Both are
shown for one statement and composed along a program.
-/

namespace ViewMarkup

open ViewMarkup.Random Relation CaptureStack

/-! ## The forest of a text -/

mutual

/-- Whether a statement opens and closes no level by hand. -/
def Statement.isPlain : Statement → Bool
  | .leaf .. | .snapshot => true
  | .container _ content _ => Program.isPlain content
  | .beginCapture _ | .endCapture .. => false

/-- Whether a program opens and closes no level by hand. -/
def Program.isPlain : List Statement → Bool
  | [] => true
  | statement :: rest => statement.isPlain && Program.isPlain rest

end

mutual

/-- How many nodes a statement constructs, with all its content. -/
def Statement.constructions : Statement → Nat
  | .leaf .. => 1
  | .container _ content _ => Program.constructions content + 1
  | .beginCapture _ | .endCapture .. | .snapshot => 0

/-- How many nodes a program constructs, with all its content. -/
def Program.constructions : List Statement → Nat
  | [] => 0
  | statement :: rest => statement.constructions + Program.constructions rest

end

/-- A node as its statement leaves it: constructed with an identifier and a kind, then modified. -/
def Finish.node (finish : Finish) (identifier : String) (kind : Kind) : Node :=
  finish.modifiers.foldl Node.modify { identifier, kind }

mutual

/-- The branch of a statement whose nodes are numbered from `next` and named by their numbers. -/
def Statement.branches (name : Key → String) (next : Key) : Statement → List Branch
  | .leaf kind finish => [.mk next (finish.node (name next) kind) []]
  | .container kind content finish =>
    [.mk next (finish.node (name next) kind) (Program.branches name (next + 1) content)]
  | .beginCapture _ | .endCapture .. | .snapshot => []

/-- The branches of a program whose nodes are numbered from `next` and named by their numbers. -/
def Program.branches (name : Key → String) (next : Key) : List Statement → List Branch
  | [] => []
  | statement :: rest =>
    statement.branches name next ++ Program.branches name (next + statement.constructions) rest

end

mutual

theorem Statement.preorderAll_branches (name : Key → String) (next : Key) (statement : Statement) :
    Branch.preorderAll (statement.branches name next) =
      List.range' next statement.constructions := by
  cases statement with
  | leaf => rfl
  | container kind content =>
    rw [Statement.branches, Branch.preorderAll_cons, Program.preorderAll_branches,
      Statement.constructions, List.range'_succ]
    exact congrArg (next :: ·) (List.append_nil _)
  | beginCapture => rfl
  | endCapture => rfl
  | snapshot => rfl

/-- The nodes of a program in preorder are numbered without gap. -/
theorem Program.preorderAll_branches (name : Key → String) (next : Key) (program : List Statement) :
    Branch.preorderAll (Program.branches name next program) =
      List.range' next (Program.constructions program) := by
  cases program with
  | nil => rfl
  | cons statement rest =>
    rw [Program.branches, Branch.preorderAll_append, Statement.preorderAll_branches,
      Program.preorderAll_branches, Program.constructions, List.range'_append_1]

end

mutual

theorem Statement.spares_of_plain {γ : Type} [Generator γ] (scopes : List Scope)
    (session : Session γ) (statement : Statement) (plain : statement.isPlain) :
    statement.Spares scopes session := by
  cases statement with
  | leaf => trivial
  | container kind content => exact fun _ => Program.spares_of_plain _ _ content plain
  | beginCapture => trivial
  | endCapture => contradiction
  | snapshot => trivial

/-- Without levels opened by hand nothing is given to a running container. -/
theorem Program.spares_of_plain {γ : Type} [Generator γ] (scopes : List Scope)
    (session : Session γ) (program : List Statement) (plain : Program.isPlain program) :
    Program.Spares scopes session program := by
  cases program with
  | nil => trivial
  | cons statement rest =>
    obtain ⟨first, others⟩ := Bool.and_eq_true_iff.mp plain
    exact ⟨Statement.spares_of_plain scopes session statement first,
      Program.spares_of_plain scopes _ rest others⟩

end

/-! ## Growing trees -/

namespace Tree

variable {before middle after : Tree} {tops more : List Key} {count extra : Nat}
  {shape beside : (Key → String) → List Branch}

/-- A key has the same node and the same children in both trees. -/
def SameAt (first second : Tree) (key : Key) : Prop :=
  first.get? key = second.get? key ∧ first.children key = second.children key

theorem SameAt.trans {first second third : Tree} {key : Key} (left : first.SameAt second key)
    (right : second.SameAt third key) : first.SameAt third key :=
  ⟨left.1.trans right.1, left.2.trans right.2⟩

/-- A tree with `count` new nodes: the nodes it had keep their content and their children, and in
every tree that has the new nodes as they are here, the topmost of them unfold to a forest. -/
structure Grows (before after : Tree) (tops : List Key) (count : Nat)
    (shape : (Key → String) → List Branch) : Prop where
  size : after.size = before.size + count
  kept : ∀ key < before.size, after.SameAt before key
  unfolds : ∀ tree : Tree, (∀ key, before.size ≤ key → key < after.size → tree.SameAt after key) →
    tree.Unfolds tops (shape tree.identifierOf)

theorem Grows.refl (tree : Tree) : tree.Grows tree [] 0 fun _ => [] :=
  ⟨rfl, fun _ _ => ⟨rfl, rfl⟩, fun _ _ => .nil⟩

theorem Grows.trans (first : before.Grows middle tops count shape)
    (second : middle.Grows after more extra beside) :
    before.Grows after (tops ++ more) (count + extra) fun name => shape name ++ beside name where
  size := by rw [second.size, first.size, Nat.add_assoc]
  kept key old :=
    (second.kept key (first.size ▸ Nat.lt_add_right count old)).trans (first.kept key old)
  unfolds tree same := by
    refine .append (first.unfolds tree fun key low high => ?_)
      (second.unfolds tree fun key low high => same key (Nat.le_trans ?_ low) high)
    · -- The later nodes leave those of the first part alone.
      exact (same key low (second.size ▸ Nat.lt_add_right extra high)).trans (second.kept key high)
    · exact first.size ▸ Nat.le_add_right _ count

/-- One node more, which has no children yet. -/
structure Gains (before after : Tree) (node : Node) : Prop where
  size : after.size = before.size + 1
  reads : ∀ key, after.get? key = (before.insert node).get? key
  lists : ∀ key, after.children key = before.children key

/-- A new node whose content has grown below it, after its modifiers. -/
theorem Grows.node {opened ran : Tree} {identifier : String} {kind : Kind} {finish : Finish}
    (gained : before.Gains opened { identifier, kind })
    (content : opened.Grows ran tops count shape) (sizes : after.size = ran.size)
    (others : ∀ key, key ≠ before.size → after.SameAt ran key)
    (own : after.get? before.size =
      (ran.get? before.size).map fun node => finish.modifiers.foldl Node.modify node)
    (listed : after.children before.size = tops) :
    before.Grows after [before.size] (count + 1) fun name =>
      [.mk before.size (finish.node (name before.size) kind) (shape name)] where
  size := by rw [sizes, content.size, gained.size, Nat.add_assoc, Nat.add_comm 1]
  kept key old := by
    have other : key ≠ before.size := Nat.ne_of_lt old
    have earlier : key < opened.size := gained.size ▸ Nat.lt_succ_of_lt old
    have start : opened.SameAt before key := ⟨by simp [gained.reads, other], gained.lists key⟩
    exact ((others key other).trans (content.kept key earlier)).trans start
  unfolds tree same := by
    have present : before.size < opened.size := gained.size ▸ Nat.lt_succ_self _
    have inside : before.size < after.size := by
      rw [sizes, content.size]
      exact Nat.lt_add_right count present
    obtain ⟨reads, lists⟩ := same before.size (Nat.le_refl _) inside
    rw [own, (content.kept _ present).1, gained.reads, get?_insert, if_pos rfl] at reads
    have named : tree.identifierOf before.size = identifier := by
      rw [tree.identifierOf_of_get? reads, Node.identifier_foldl_modify]
    refine .cons (by rw [named]; exact reads) ?_ .nil
    rw [lists, listed]
    refine content.unfolds tree fun key low high => ?_
    have below : before.size < key := Nat.lt_of_lt_of_le present low
    exact (same key (Nat.le_of_lt below) (sizes ▸ high)).trans (others key (Nat.ne_of_gt below))

theorem Grows.leaf {opened : Tree} {identifier : String} {kind : Kind} (finish : Finish)
    (gained : before.Gains opened { identifier, kind }) :
    before.Grows (opened.modifyAll before.size finish.modifiers) [before.size] 1 fun name =>
      [.mk before.size (finish.node (name before.size) kind) []] := by
  refine .node gained (.refl opened) (by simp) (fun key other => ?_) ?_ ?_
  · simp [SameAt, get?_modifyAll, other]
  · simp [get?_modifyAll]
  · rw [children_modifyAll, gained.lists, children_of_size_le before (Nat.le_refl _)]

theorem Grows.container {opened ran : Tree} {identifier : String} {kind : Kind} (finish : Finish)
    (gained : before.Gains opened { identifier, kind })
    (content : opened.Grows ran tops count shape) :
    before.Grows ((ran.attach before.size tops).modifyAll before.size finish.modifiers)
      [before.size] (count + 1) fun name =>
        [.mk before.size (finish.node (name before.size) kind) (shape name)] := by
  refine .node gained content (by simp) (fun key other => ?_) ?_ ?_
  · simp [SameAt, get?_modifyAll, children_attach, other]
  · simp [get?_modifyAll]
  · have present : before.size < ran.size := by
      rw [content.size, gained.size]
      exact Nat.lt_add_right count (Nat.lt_succ_self _)
    rw [children_modifyAll, children_attach, if_pos ⟨rfl, present⟩]

end Tree

/-! ## Running a plain program -/

/-- Where the nodes without parent stand: the roots, and the open levels, the innermost first. -/
structure Ends where
  roots : List Key
  levels : List (List Key)

/-- New nodes go to the innermost level, or become roots when none is open. -/
def Ends.add (ends : Ends) (keys : List Key) : Ends :=
  match ends.levels with
  | [] => { ends with roots := ends.roots ++ keys }
  | inner :: outer => { ends with levels := (inner ++ keys) :: outer }

@[simp] theorem Ends.add_nil (ends : Ends) : ends.add [] = ends := by
  obtain ⟨roots, levels⟩ := ends
  cases levels <;> simp [add]

@[simp] theorem Ends.add_add (ends : Ends) (first second : List Key) :
    (ends.add first).add second = ends.add (first ++ second) := by
  obtain ⟨roots, levels⟩ := ends
  cases levels <;> simp [add]

namespace Builder

variable {γ : Type} {builder : Builder γ} {ends : Ends} {spare : Nat}

/-- A builder without fault, with given ends, that can name `spare` more nodes. -/
structure Ready [Generator γ] (builder : Builder γ) (ends : Ends) (spare : Nat) : Prop where
  fault : builder.fault = none
  roots : builder.tree.roots.toList = ends.roots
  stack : builder.stack = ofLevels ends.levels
  room : builder.ids.issued.size + spare ≤ builder.ids.space.toNat
  returns : builder.ids.Returns spare

variable [Generator γ]

theorem Ready.modify (ready : builder.Ready ends spare) (key : Key) (modifiers : List Modifier) :
    (builder.modify key modifiers).Ready ends spare :=
  ⟨ready.fault, by rw [← ready.roots]; simp [Builder.modify], ready.stack, ready.room,
    ready.returns⟩

theorem Ready.beginCapture (ready : builder.Ready ends spare) :
    builder.beginCapture.Ready ⟨ends.roots, [] :: ends.levels⟩ spare :=
  ⟨ready.fault, ready.roots, congrArg CaptureStack.openLevel ready.stack, ready.room, ready.returns⟩

/-- Closing the level of a container puts the ends outside it back, and its nodes go below it. -/
theorem Ready.closeContainer {keys : List Key}
    (ready : builder.Ready ⟨ends.roots, keys :: ends.levels⟩ spare) (key : Key) :
    (builder.closeContainer ⟨ends.levels.length + 1⟩ key).Ready ends spare ∧
      (builder.closeContainer ⟨ends.levels.length + 1⟩ key).tree = builder.tree.attach key keys := by
  rw [closeContainer_of_innermost ready.stack rfl]
  exact ⟨⟨ready.fault, by rw [← ready.roots]; simp, rfl, ready.room, ready.returns⟩, rfl⟩

/-- There is an identifier for the next node, and for those after it. -/
theorem Ready.nextIdentifier (ready : builder.Ready ends (spare + 1)) :
    builder.nextIdentifier.2.fault = none ∧ builder.nextIdentifier.2.ids.Returns spare ∧
      builder.nextIdentifier.2.ids.issued.size + spare ≤
        builder.nextIdentifier.2.ids.space.toNat := by
  have room := ready.room
  obtain ⟨name, next, success, returns⟩ := ready.returns.allocate (by omega)
  obtain ⟨_, space, issued⟩ := Allocator.frame_of_allocate success
  rw [Builder.nextIdentifier, success]
  refine ⟨ready.fault, returns, ?_⟩
  dsimp only
  rw [space]
  omega

/-- A new node stands where new nodes go, and has no links yet. -/
theorem Ready.construct (ready : builder.Ready ends (spare + 1)) (kind : Kind) :
    (builder.construct kind).Ready (ends.add [builder.tree.size]) spare ∧
      ∃ identifier, builder.tree.Gains (builder.construct kind).tree { identifier, kind } := by
  obtain ⟨fault, returns, room⟩ := ready.nextIdentifier
  have sound : (builder.construct kind).fault = none := by
    rw [construct_eq_place, fault_place, fault]
  rw [← (builder.addsLabel_construct kind).ids] at returns room
  obtain ⟨roots, levels⟩ := ends
  cases levels with
  | nil =>
    obtain ⟨identifier, trees, stack⟩ := builder.construct_root kind ready.stack
    have top : (builder.construct kind).tree.roots.toList = roots ++ [builder.tree.size] := by
      rw [trees, Tree.toList_roots_addRoot, Tree.roots_insert, ready.roots]
    exact ⟨⟨sound, top, stack, room, returns⟩, identifier, by simp [trees], by simp [trees],
      by simp [trees]⟩
  | cons inner outer =>
    obtain ⟨identifier, trees, stack⟩ := builder.construct_held kind ready.stack
    have same : (builder.construct kind).tree.roots.toList = roots := by
      rw [trees, Tree.roots_insert, ready.roots]
    exact ⟨⟨sound, same, stack, room, returns⟩, identifier, by simp [trees], by simp [trees],
      by simp [trees]⟩

end Builder

variable {γ : Type} [Generator γ]

mutual

/-- A plain statement grows its branch, and its topmost node goes where new nodes go. -/
theorem Statement.run_grows {ends : Ends} {spare : Nat} (session : Session γ)
    (statement : Statement) (plain : statement.isPlain)
    (ready : session.builder.Ready ends (statement.constructions + spare)) :
    ∃ tops, (statement.run session).builder.Ready (ends.add tops) spare ∧
      session.builder.tree.Grows (statement.run session).builder.tree tops statement.constructions
        fun name => statement.branches name session.builder.tree.size := by
  cases statement with
  | leaf kind finish =>
    rw [Statement.constructions, Nat.add_comm] at ready
    obtain ⟨ready, identifier, gained⟩ := ready.construct kind
    rw [Statement.run, Session.builder_finishNode]
    exact ⟨[session.builder.tree.size], ready.modify _ _, .leaf finish gained⟩
  | container kind content finish =>
    rw [Statement.constructions, Nat.add_right_comm] at ready
    obtain ⟨ready, identifier, gained⟩ := ready.construct kind
    let key := session.builder.tree.size
    let outside := ends.add [key]
    let opened := (session.construct kind).openContainer
    let ran := Program.run opened content
    -- Inside the container the content starts on an empty level, so that level holds its tops.
    have opening : opened.builder.Ready ⟨outside.roots, [] :: outside.levels⟩
        (Program.constructions content + spare) := ready.beginCapture
    obtain ⟨tops, filled, grown⟩ := Program.run_grows opened content plain opening
    have closing : ran.builder.Ready ⟨outside.roots, tops :: outside.levels⟩ spare := filled
    obtain ⟨readyOutside, trees⟩ := closing.closeContainer key
    have token : opened.builder.stack.token = ⟨outside.levels.length + 1⟩ := by
      rw [CaptureStack.token, opening.stack, depth_ofLevels, List.length_cons]
    have runs : ((Statement.container kind content finish).run session).builder =
        (ran.builder.closeContainer ⟨outside.levels.length + 1⟩ key).modify key
          finish.modifiers := by
      rw [Statement.builder_run_container content finish ready.fault, ← token]
    have next : opened.builder.tree.size = key + 1 := gained.size
    rw [next] at grown
    rw [runs]
    refine ⟨[key], readyOutside.modify _ _, ?_⟩
    rw [Builder.modify, trees]
    exact .container finish gained grown
  | beginCapture => contradiction
  | endCapture => contradiction
  | snapshot =>
    rw [Statement.constructions, Nat.zero_add] at ready
    exact ⟨[], by rw [Ends.add_nil]; exact ready, .refl _⟩

/-- A plain program grows its branches, one statement after the other. -/
theorem Program.run_grows {ends : Ends} {spare : Nat} (session : Session γ)
    (program : List Statement) (plain : Program.isPlain program)
    (ready : session.builder.Ready ends (Program.constructions program + spare)) :
    ∃ tops, (Program.run session program).builder.Ready (ends.add tops) spare ∧
      session.builder.tree.Grows (Program.run session program).builder.tree tops
        (Program.constructions program)
        fun name => Program.branches name session.builder.tree.size program := by
  cases program with
  | nil =>
    rw [Program.constructions, Nat.zero_add] at ready
    exact ⟨[], by rw [Ends.add_nil]; exact ready, .refl _⟩
  | cons statement rest =>
    obtain ⟨first, others⟩ := Bool.and_eq_true_iff.mp plain
    rw [Program.constructions, Nat.add_assoc] at ready
    obtain ⟨tops, ready, grown⟩ := Statement.run_grows session statement first ready
    obtain ⟨more, ready, grownRest⟩ := Program.run_grows (statement.run session) rest others ready
    rw [Ends.add_add] at ready
    rw [grown.size] at grownRest
    exact ⟨tops ++ more, ready, grown.trans grownRest⟩

end

/-- A plain program whose nodes fit into the identifier space builds the forest of its text. The
document lists the nodes in the order of construction, so that a counter numbers it. -/
theorem Program.build_plain (ids : Allocator γ) (fresh : ids.Fresh) (program : Program)
    (plain : Program.isPlain program) (fits : Program.constructions program ≤ ids.space.toNat)
    (returns : ids.Returns (Program.constructions program)) :
    ∃ tree, Program.build ids program = .ok tree ∧ tree.size = Program.constructions program ∧
      tree.Unfolds tree.roots.toList (Program.branches tree.identifierOf 0 program) ∧
      tree.forest = Program.branches tree.identifierOf 0 program ∧
      tree.document = List.range tree.size ∧
      ∀ start, ids.source = .counter start → tree.document.map tree.identifierOf =
        (List.range tree.size).map fun number => ids.stem ++ number.repr := by
  let session : Session γ := { builder := { ids } }
  have room : ids.issued.size + Program.constructions program ≤ ids.space.toNat := by
    rw [fresh.size, Nat.zero_add]
    exact fits
  have ready : session.builder.Ready ⟨[], []⟩ (Program.constructions program + 0) :=
    ⟨rfl, rfl, rfl, room, returns⟩
  obtain ⟨tops, done, grown⟩ := Program.run_grows session program plain ready
  let builder := (Program.run session program).builder
  have steps : ReflTransGen (Moment.Step True) ⟨session.builder, []⟩ ⟨builder, []⟩ :=
    Program.run_steps [] session program fun _ => Program.spares_of_plain [] session program plain
  have built : builder.outcome = .ok builder.tree :=
    Builder.outcome_eq_ok_iff.mpr ⟨done.fault, congrArg CaptureStack.depth done.stack, rfl⟩
  have owned : builder.tree.Owned := Moment.Reachable.owned ⟨ids, steps⟩ built
  have roots : builder.tree.roots.toList = tops := done.roots
  have unfolds : builder.tree.Unfolds builder.tree.roots.toList
      (Program.branches builder.tree.identifierOf 0 program) :=
    roots ▸ grown.unfolds builder.tree fun _ _ _ => ⟨rfl, rfl⟩
  have size : builder.tree.size = Program.constructions program := grown.size.trans (Nat.zero_add _)
  have forest := owned.unfolds_forest.unique unfolds
  have document : builder.tree.document = List.range builder.tree.size := by
    rw [owned.document_eq_preorderAll, forest, Program.preorderAll_branches, size,
      List.range_eq_range']
  refine ⟨builder.tree, built, size, unfolds, forest, document, fun start counts => ?_⟩
  rw [document]
  obtain rfl := fresh.counter start counts
  exact (Moment.Sequential.run (fresh.valid 0 counts) steps done.fault).labels

/-- Four nodes in a space of four, one of them after a container that is closed: counted, and drawn
with one draw refused. -/
theorem Program.build_plain_four :
    let program : Program := [.vstack [.text "a", .hstack []], .text "b"]
    let counted : Allocator (Stream' UInt32) := { stem := "n", space := 4, source := .counter 0 }
    let draws : Stream' UInt32 := fun n => if n < 2 then 3 else UInt32.ofNat (n - 2)
    let drawn : Allocator (Stream' UInt32) := { stem := "n", space := 4, source := .draws draws }
    (∃ tree, Program.build counted program = .ok tree ∧
      tree.Unfolds tree.roots.toList (Program.branches tree.identifierOf 0 program) ∧
      tree.document = [0, 1, 2, 3] ∧
      tree.document.map tree.identifierOf = ["n0", "n1", "n2", "n3"]) ∧
    ∃ tree, Program.build drawn program = .ok tree ∧
      tree.Unfolds tree.roots.toList (Program.branches tree.identifierOf 0 program) ∧
      tree.document = [0, 1, 2, 3] := by
  intro program counted draws drawn
  obtain ⟨tree, built, size, unfolds, _, document, names⟩ :=
    Program.build_plain counted ⟨rfl, by rintro _ ⟨⟩; rfl⟩ program (by decide) (by decide)
      (Allocator.returns_of_counter rfl _)
  have four : tree.size = 4 := size.trans (by decide)
  rw [four] at document names
  have fresh : drawn.Fresh := ⟨rfl, nofun⟩
  have returns : drawn.Returns 4 := by
    refine Allocator.returns_of_different fresh rfl [3, 0, 1, 2] (by decide) ?_ (by decide) (by decide)
    simp only [List.forall_mem_cons]
    exact ⟨⟨0, rfl⟩, ⟨2, rfl⟩, ⟨3, rfl⟩, ⟨4, rfl⟩, List.forall_mem_nil _⟩
  obtain ⟨other, builtToo, sizeToo, unfoldsToo, _, documentToo, _⟩ :=
    Program.build_plain drawn fresh program (by decide) (by decide) returns
  have fourToo : other.size = 4 := sizeToo.trans (by decide)
  rw [fourToo] at documentToo
  exact ⟨⟨tree, built, unfolds, document, (names 0 rfl).trans (by decide)⟩, other, builtToo,
    unfoldsToo, documentToo⟩

end ViewMarkup
