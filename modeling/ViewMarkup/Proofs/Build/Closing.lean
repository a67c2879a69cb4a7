import ViewMarkup.Proofs.Build.Ownership

/-! # Closing a level by hand

A level is closed by hand with a token and a node that is to have its nodes as children. What comes
of it depends on three questions, asked one after the other: whether a level is open, whether the
token is that of the innermost one, and whether something bars its nodes from going below the node.
On success the nodes are the children of the node, in order, and nothing else changes. A refusal
sets the fault if there is none, and changes neither tree nor allocator. For one of the first two
it changes nothing else. A refusal for the third closes the level all the same, and its nodes are
lost: they have no parent, no level holds them and they are no roots, and no later step changes
that.
-/

namespace ViewMarkup

open ViewMarkup.Random Relation CaptureStack

variable {γ : Type}

/-! ## What a stack holds -/

/-- The node is held at some open level. -/
def CaptureStack.Holds (stack : CaptureStack) (key : Key) : Prop :=
  ∃ collector, some collector ∈ stack.current :: stack.parked ∧ key ∈ collector.keys

theorem CaptureStack.holds_ofLevels (levels : List (List Key)) (key : Key) :
    (ofLevels levels).Holds key ↔ key ∈ levels.flatten := by
  induction levels with
  | nil => simp [Holds, ofLevels]
  | cons keys outer ih =>
    rw [List.flatten_cons, List.mem_append, ← ih]
    simp [Holds, ofLevels, openLevel]

/-! ## Lost nodes -/

namespace Scene

variable {orderly : Prop} {scene changed : Scene} {key : Key}

/-- A node without parent that is no root and that no level holds. -/
structure Lost (scene : Scene) (key : Key) : Prop where
  present : key < scene.tree.size
  top : scene.tree.parent? key = none
  apart : key ∉ scene.loose

theorem Lost.place (lost : scene.Lost key) (node : Node) : (scene.place node).Lost key := by
  obtain ⟨sizes, parents, _⟩ := scene.links_place node key
  refine ⟨by rw [sizes]; exact Nat.lt_succ_of_lt lost.present, parents.trans lost.top, fun loose => ?_⟩
  rcases List.mem_cons.mp ((scene.loose_place node).mem_iff.mp loose) with new | old
  · exact Nat.ne_of_lt lost.present new
  · exact lost.apart old

/-- Only what a level holds is given a parent. -/
theorem Lost.attach {tree : Tree} {keys : List Key} {outer : List (List Key)}
    {scopes others : List Scope} {fault : Option BuildError}
    (lost : Lost ⟨tree, keys :: outer, scopes, fault⟩ key) (parent : Key) :
    Lost ⟨tree.attach parent keys, outer, others, fault⟩ key := by
  have apart : key ∉ keys ++ loose ⟨tree, outer, scopes, fault⟩ := fun member =>
    lost.apart ((loose_close tree keys outer scopes fault).mem_iff.mpr member)
  rw [List.mem_append, not_or] at apart
  refine ⟨(tree.size_attach parent keys).symm ▸ lost.present, ?_, fun loose => ?_⟩
  · exact (tree.parent?_attach parent key keys).trans
      ((if_neg fun attached => apart.1 attached.1).trans lost.top)
  · refine apart.2 ?_
    simpa [Scene.loose] using loose

/-- What is lost stays lost. -/
theorem Lost.change (change : Change orderly scene changed) (lost : scene.Lost key) :
    changed.Lost key := by
  cases change with
  | construct _ node fault =>
    obtain ⟨present, top, apart⟩ := lost.place node
    exact ⟨present, top, apart⟩
  | modify _ other modifiers =>
    refine ⟨?_, ?_, fun loose => lost.apart ?_⟩
    · exact (scene.tree.size_modifyAll other modifiers).symm ▸ lost.present
    · exact (scene.tree.parent?_modifyAll other key modifiers).trans lost.top
    · simpa [Scene.loose] using loose
  | enter _ node =>
    obtain ⟨present, top, apart⟩ := lost.place node
    exact ⟨present, top, apart⟩
  | leave _ _ _ scope => exact lost.attach scope.key
  | openLevel => exact ⟨lost.present, lost.top, lost.apart⟩
  | adopt _ _ _ _ _ parent => exact lost.attach parent
  | lose tree keys outer scopes fault =>
    refine ⟨lost.present, lost.top, fun loose => lost.apart ?_⟩
    exact (loose_close tree keys outer scopes fault).mem_iff.mpr (List.mem_append_right _ loose)
  | fail => exact ⟨lost.present, lost.top, lost.apart⟩

/-- The nodes of a level that is dropped are lost. -/
theorem Sound.lost {tree : Tree} {keys : List Key} {outer : List (List Key)} {scopes : List Scope}
    {fault : Option BuildError} (sound : Sound ⟨tree, keys :: outer, scopes, fault⟩)
    (failure : Option BuildError) (member : key ∈ keys) :
    Lost ⟨tree, outer, scopes, failure⟩ key := by
  obtain ⟨present, top, apart⟩ := sound.innermost.2 key member
  exact ⟨present, top, apart⟩

end Scene

/-! ## The four answers -/

namespace Builder

/-- What bars nodes from going below a node: it is not in the tree, it has children already, it is
one of them, or it is below one of them. -/
def Barred (tree : Tree) (parent : Key) (keys : List Key) : Prop :=
  tree.contains parent = false ∨ tree.children parent ≠ [] ∨ parent ∈ keys ∨
    ∃ key ∈ keys, TransGen tree.Up parent key

theorem canAdopt_iff_not_barred {tree : Tree} (grounded : tree.Grounded) (parent : Key)
    (keys : List Key) : canAdopt tree parent keys = true ↔ ¬Barred tree parent keys := by
  rw [canAdopt_iff grounded, Barred, ← tree.contains_iff]
  simp only [not_or, Bool.not_eq_false, ne_eq, not_not, not_exists, not_and, Tree.Ascends,
    reflTransGen_iff_eq_or_transGen]
  refine and_congr_right fun _ => and_congr_right fun _ => ?_
  constructor
  · intro outside
    exact ⟨outside parent (.inl rfl), fun key member above => outside key (.inr above) member⟩
  · rintro ⟨self, others⟩ above (rfl | passed) member
    · exact self member
    · exact others above member passed

/-- How closing a level by hand ends: the answer, and the builder after it. -/
inductive Closing (builder : Builder γ) (token : Token) (parent : Key) :
    Except BuildError Unit → Builder γ → Prop
  | idle (idle : builder.depth = 0) {error : BuildError} (cause : error = .capture .notCapturing) :
      Closing builder token parent (.error error) (builder.record error)
  | unbalanced (capturing : builder.depth ≠ 0) (other : token.depth ≠ builder.depth)
      {error : BuildError} (cause : error = .capture (.unbalanced token.depth builder.depth)) :
      Closing builder token parent (.error error) (builder.record error)
  | barred {keys : List Key} {outer : List (List Key)}
      (capturing : builder.stack = ofLevels (keys :: outer))
      (innermost : token.depth = outer.length + 1) (barred : Barred builder.tree parent keys)
      {error : BuildError}
      (cause : error = .capture (.invalidParent (builder.tree.identifierOf parent))) :
      Closing builder token parent (.error error) ((builder.afterClose keys outer).record error)
  | adopted {keys : List Key} {outer : List (List Key)}
      (capturing : builder.stack = ofLevels (keys :: outer))
      (innermost : token.depth = outer.length + 1) (free : ¬Barred builder.tree parent keys) :
      Closing builder token parent (.ok ())
        { builder.afterClose keys outer with tree := builder.tree.attach parent keys }

theorem closing_endCapture {builder : Builder γ} {levels : List (List Key)}
    (shape : builder.stack = ofLevels levels) (grounded : builder.tree.Grounded) (token : Token)
    (parent : Key) :
    Closing builder token parent (builder.endCapture token parent).1
      (builder.endCapture token parent).2 := by
  have deep : builder.depth = levels.length := by rw [depth, shape, depth_ofLevels]
  cases levels with
  | nil =>
    rw [endCapture, closeLevel, shape, closeLevel_ofLevels_nil]
    exact .idle deep rfl
  | cons keys outer =>
    by_cases innermost : token.depth = outer.length + 1
    · by_cases barred : Barred builder.tree parent keys
      · have unable := mt (canAdopt_iff_not_barred grounded parent keys).mp (not_not_intro barred)
        obtain ⟨error, cause, refused⟩ := endCapture_of_not_adoptable shape innermost unable
        rw [refused]
        exact .barred shape innermost barred cause
      · have able := (canAdopt_iff_not_barred grounded parent keys).mpr barred
        rw [endCapture_of_adoptable shape innermost able]
        exact .adopted shape innermost barred
    · rw [endCapture, closeLevel, shape, closeLevel_ofLevels_cons, if_neg innermost]
      refine .unbalanced (by simp [deep]) (deep ▸ innermost) ?_
      rw [deep]
      rfl

section Closing

variable {builder after : Builder γ} {token : Token} {parent : Key}
  {answer : Except BuildError Unit} {keys : List Key} {outer : List (List Key)}

theorem collected_of_capturing (capturing : builder.stack = ofLevels (keys :: outer)) :
    builder.stack.collected = keys ∧ builder.depth = outer.length + 1 := by
  rw [depth, capturing, collected_ofLevels, depth_ofLevels]
  exact ⟨rfl, rfl⟩

/-- The conditions of the four answers exclude each other, so each is met exactly by its answer. -/
theorem Closing.answer_iff (closing : builder.Closing token parent answer after) :
    let held := builder.stack.collected
    (answer = .error (.capture .notCapturing) ↔ builder.depth = 0) ∧
    (∀ expected found, answer = .error (.capture (.unbalanced expected found)) ↔
      builder.depth ≠ 0 ∧ token.depth ≠ builder.depth ∧
        expected = token.depth ∧ found = builder.depth) ∧
    (∀ owner, answer = .error (.capture (.invalidParent owner)) ↔
      builder.depth ≠ 0 ∧ token.depth = builder.depth ∧ Barred builder.tree parent held ∧
        owner = builder.tree.identifierOf parent) ∧
    (answer = .ok () ↔
      builder.depth ≠ 0 ∧ token.depth = builder.depth ∧ ¬Barred builder.tree parent held) := by
  intro held
  cases closing with
  | idle idle cause => simp [idle, cause]
  | unbalanced capturing other cause => simp [capturing, other, cause, eq_comm]
  | barred capturing innermost barred cause =>
    obtain ⟨rfl, deep⟩ := collected_of_capturing capturing
    simp [held, deep, innermost, barred, cause, eq_comm]
  | adopted capturing innermost free =>
    obtain ⟨rfl, deep⟩ := collected_of_capturing capturing
    simp [held, deep, innermost, free]

/-- A refusal changes the fault if there is none, and perhaps the stack. -/
theorem Closing.of_error {error : BuildError}
    (closing : builder.Closing token parent (.error error) after) :
    after =
      { builder with
        stack := after.stack
        fault := builder.fault.or (some error)
        events := after.events } := by
  cases closing with
  | idle => rfl
  | unbalanced => rfl
  | barred => rfl

/-- The innermost level is closed if the token is its own, and no other level is. -/
theorem Closing.stack_eq (closing : builder.Closing token parent answer after) :
    (builder.depth = 0 ∨ token.depth ≠ builder.depth → after.stack = builder.stack) ∧
    (builder.depth ≠ 0 → token.depth = builder.depth →
      ∃ outer, builder.stack = ofLevels (builder.stack.collected :: outer) ∧
        after.stack = ofLevels outer) := by
  cases closing with
  | idle idle => exact ⟨fun _ => rfl, fun capturing => (capturing idle).elim⟩
  | unbalanced _ other => exact ⟨fun _ => rfl, fun _ innermost => (other innermost).elim⟩
  | @barred keys outer capturing innermost | @adopted keys outer capturing innermost =>
    obtain ⟨same, deep⟩ := collected_of_capturing capturing
    rw [same, deep]
    exact ⟨by simp [innermost], fun _ _ => ⟨outer, capturing, rfl⟩⟩

/-- On success the nodes of the level are the children of the node, and it is their parent. -/
theorem Closing.of_ok (closing : builder.Closing token parent (.ok ()) after)
    (present : ∀ key ∈ builder.stack.collected, key < builder.tree.size) :
    let held := builder.stack.collected
    after =
      { builder with
        tree := after.tree
        stack := after.stack
        events := after.events } ∧
    after.tree.size = builder.tree.size ∧ after.tree.roots = builder.tree.roots ∧
    (∀ key, after.tree.get? key = builder.tree.get? key) ∧
    (∀ key, after.tree.children key = if key = parent then held else builder.tree.children key) ∧
    ∀ key, after.tree.parent? key =
      if key ∈ held then some parent else builder.tree.parent? key := by
  intro held
  cases closing with
  | adopted capturing innermost free =>
    obtain ⟨rfl, _⟩ := collected_of_capturing capturing
    have inside : parent < builder.tree.size := by
      by_contra outside
      refine free (.inl ?_)
      rwa [← Bool.not_eq_true, Tree.contains_iff]
    refine ⟨rfl, Tree.size_attach .., Tree.roots_attach .., fun key => Tree.get?_attach ..,
      fun key => ?_, fun key => ?_⟩
    · exact (Tree.children_attach ..).trans (by simp [inside, held])
    · refine (Tree.parent?_attach ..).trans (if_congr ?_ rfl rfl)
      exact and_iff_left_of_imp (present key)

end Closing

end Builder

namespace Moment

variable [Generator γ]

/-- Captured nodes that cannot go below a node are lost at every later moment. -/
theorem Shows.lost_of_barred {moment : Moment γ} {scene : Scene} (shows : moment.Shows scene)
    (sound : scene.Sound) {token : Token} {parent : Key} {owner : String} {after : Builder γ}
    (closing : moment.builder.Closing token parent (.error (.capture (.invalidParent owner))) after)
    {later : Moment γ} (steps : ReflTransGen (Step False) ⟨after, moment.scopes⟩ later) {key : Key}
    (held : key ∈ moment.builder.stack.collected) :
    ∃ changed, later.Shows changed ∧ changed.Lost key := by
  cases closing with
  | idle _ cause => cases cause
  | unbalanced _ _ cause => cases cause
  | @barred keys outer capturing =>
    obtain ⟨tree, levels, scopes, fault⟩ := scene
    obtain rfl : levels = keys :: outer := ofLevels_injective (shows.stack.symm.trans capturing)
    rw [(Builder.collected_of_capturing capturing).1] at held
    let after := (moment.builder.afterClose keys outer).record (.capture (.invalidParent owner))
    have dropped : Shows ⟨after, moment.scopes⟩ ⟨tree, outer, scopes, after.fault⟩ :=
      ⟨shows.tree, rfl, shows.scopes, rfl⟩
    exact dropped.invariant steps (sound.lost _ held) fun _ _ change lost => lost.change change

omit [Generator γ] in
/-- What the innermost level holds is in the tree. -/
theorem Shows.collected_lt {moment : Moment γ} {scene : Scene} (shows : moment.Shows scene)
    (sound : scene.Sound) {key : Key} (held : key ∈ moment.builder.stack.collected) :
    key < moment.builder.tree.size := by
  rw [shows.stack] at held
  rw [shows.tree]
  refine (sound.loose_up key (List.mem_append_right _ ?_)).1
  cases levels : scene.levels with
  | nil =>
    rw [levels] at held
    cases held
  | cons keys outer =>
    rw [levels, collected_ofLevels] at held
    exact List.mem_append_left _ held

/-- Closing a level by hand succeeds exactly when nothing speaks against it, and a refusal changes no
more than it has to. -/
theorem endCapture_exact (moment : Moment γ) (reachable : moment.Reachable False) (token : Token)
    (parent : Key) :
    let builder := moment.builder
    let held := builder.stack.collected
    let result := builder.endCapture token parent
    ((result.1 = .error (.capture .notCapturing) ↔ builder.depth = 0) ∧
    (∀ expected found, result.1 = .error (.capture (.unbalanced expected found)) ↔
      builder.depth ≠ 0 ∧ token.depth ≠ builder.depth ∧
        expected = token.depth ∧ found = builder.depth) ∧
    (∀ owner, result.1 = .error (.capture (.invalidParent owner)) ↔
      builder.depth ≠ 0 ∧ token.depth = builder.depth ∧ Builder.Barred builder.tree parent held ∧
        owner = builder.tree.identifierOf parent) ∧
    (result.1 = .ok () ↔
      builder.depth ≠ 0 ∧ token.depth = builder.depth ∧ ¬Builder.Barred builder.tree parent held)) ∧
    (∀ error, result.1 = .error error → result.2 =
      { builder with
        stack := result.2.stack
        fault := builder.fault.or (some error)
        events := result.2.events }) ∧
    ((builder.depth = 0 ∨ token.depth ≠ builder.depth → result.2.stack = builder.stack) ∧
    (builder.depth ≠ 0 → token.depth = builder.depth →
      ∃ outer, builder.stack = ofLevels (held :: outer) ∧ result.2.stack = ofLevels outer)) ∧
    (∀ owner, result.1 = .error (.capture (.invalidParent owner)) →
      ∀ later, ReflTransGen (Step False) ⟨result.2, moment.scopes⟩ later → ∀ key ∈ held,
        key ∉ later.builder.tree.roots.toList ∧ ¬later.builder.stack.Holds key ∧
          later.builder.tree.parent? key = none) ∧
    (result.1 = .ok () →
      result.2 =
        { builder with
          tree := result.2.tree
          stack := result.2.stack
          events := result.2.events } ∧
      result.2.tree.size = builder.tree.size ∧ result.2.tree.roots = builder.tree.roots ∧
      (∀ key, result.2.tree.get? key = builder.tree.get? key) ∧
      (∀ key, result.2.tree.children key =
        if key = parent then held else builder.tree.children key) ∧
      ∀ key, result.2.tree.parent? key =
        if key ∈ held then some parent else builder.tree.parent? key) := by
  intro builder held result
  obtain ⟨scene, shows, sound⟩ := reachable.sound
  have grounded : builder.tree.Grounded := reachable.coherent.toGrounded
  have closing : builder.Closing token parent result.1 result.2 :=
    Builder.closing_endCapture shows.stack grounded token parent
  refine ⟨closing.answer_iff, fun error refused => ?_, closing.stack_eq, ?_, fun success => ?_⟩
  · rw [refused] at closing
    exact closing.of_error
  · intro owner refused later steps key member
    rw [refused] at closing
    obtain ⟨changed, showsLater, _, top, apart⟩ := shows.lost_of_barred sound closing steps member
    rw [Scene.loose, List.mem_append, not_or] at apart
    rw [showsLater.tree, showsLater.stack, holds_ofLevels]
    exact ⟨apart.1, apart.2, top⟩
  · rw [success] at closing
    exact closing.of_ok fun _ member => shows.collected_lt sound member

/-- Two levels, the inner one with a node that has a child. A token of the outer level is refused, a
node below the level's own is refused and loses the level, and a node beside it gets the level. -/
theorem endCapture_exact_nested :
    let program : Program :=
      [.hstack [], .beginCapture "outer", .text "kept", .beginCapture "inner",
        .list [.text "deep"]]
    let builder := (Config.sequential.run default program).builder
    let lost := (builder.endCapture ⟨2⟩ 3).2
    (builder.endCapture ⟨1⟩ 0).1 = .error (.capture (.unbalanced 1 2)) ∧
      (builder.endCapture ⟨1⟩ 0).2.stack = ofLevels [[2], [1]] ∧
      (builder.endCapture ⟨2⟩ 3).1 = .error (.capture (.invalidParent "a3")) ∧
      lost.stack = ofLevels [[1]] ∧
      (∀ later, ReflTransGen (Step False) ⟨lost, []⟩ later →
        2 ∉ later.builder.tree.roots.toList ∧ ¬later.builder.stack.Holds 2 ∧
          later.builder.tree.parent? 2 = none) ∧
      (builder.endCapture ⟨2⟩ 0).1 = .ok () ∧
      (builder.endCapture ⟨2⟩ 0).2.tree.children 0 = [2] := by
  intro program builder lost
  have reachable : Moment.Reachable False ⟨builder, []⟩ := ⟨Config.sequential.allocator default,
    Program.run_steps [] { builder := Config.sequential.builder default } program False.elim⟩
  have held : builder.stack.collected = [2] := by decide
  have refused : (builder.endCapture ⟨2⟩ 3).1 = .error (.capture (.invalidParent "a3")) := by decide
  have adopted : (builder.endCapture ⟨2⟩ 0).1 = .ok () := by decide
  have levels : builder.stack = ofLevels [[2], [1]] := by decide
  obtain ⟨⟨_, unbalanced, _⟩, _, ⟨unchanged, _⟩, _⟩ := endCapture_exact _ reachable ⟨1⟩ 0
  obtain ⟨_, _, _, loses, _⟩ := endCapture_exact _ reachable ⟨2⟩ 3
  obtain ⟨_, _, _, _, adopts⟩ := endCapture_exact _ reachable ⟨2⟩ 0
  obtain ⟨_, _, _, _, lists, _⟩ := adopts adopted
  refine ⟨(unbalanced 1 2).mpr (by decide), (unchanged (.inr (by decide))).trans levels, refused,
    by decide, fun later steps => ?_, adopted, (lists 0).trans held⟩
  exact loses "a3" refused later steps 2 (held ▸ List.mem_singleton_self 2)

end Moment

end ViewMarkup
