import ViewMarkup.Compiler
import ViewMarkup.Proofs.Build.Scenes
import ViewMarkup.Proofs.Tree.Unfolding

/-! # Who owns a node

At every moment of a build a node is a root, or held at one open level, or a child of one node, or
lost, and a node is lost only by a failure. `Scene.Sound` is this invariant. It also says why no
cycle arises: no container whose content is running lies below a node of its own level or of a
level opened inside it, so the nodes it gets at its end are not above it, even when its level was
closed and another one was opened in its place.

`Scene.Tidy` adds what orderly steps keep: every parent lists its children. A build that ends well
after orderly steps leaves an owned tree.
-/

namespace ViewMarkup

open ViewMarkup.Random ViewMarkup.Tree Relation CaptureStack

/-- The nodes held at levels of this depth or deeper. The innermost of n levels has depth n. -/
def heldFrom (depth : ℕ) : List (List Key) → List Key
  | [] => []
  | keys :: outer => if depth ≤ outer.length + 1 then keys ++ heldFrom depth outer else []

section HeldFrom

variable {depth : ℕ} {outer : List (List Key)} {keys : List Key} {key : Key}

theorem mem_heldFrom_cons :
    key ∈ heldFrom depth (keys :: outer) ↔
      depth ≤ outer.length + 1 ∧ (key ∈ keys ∨ key ∈ heldFrom depth outer) := by
  rw [heldFrom]
  split
  · next deep => simp [deep]
  · next shallow => simp [shallow]

theorem depth_le_of_mem_heldFrom {levels : List (List Key)} (held : key ∈ heldFrom depth levels) :
    depth ≤ levels.length := by
  cases levels with
  | nil => simp [heldFrom] at held
  | cons keys outer => exact (mem_heldFrom_cons.mp held).1

theorem mem_heldFrom_of_mem_outer (held : key ∈ heldFrom depth outer) :
    key ∈ heldFrom depth (keys :: outer) :=
  mem_heldFrom_cons.mpr ⟨Nat.le_succ_of_le (depth_le_of_mem_heldFrom held), .inr held⟩

end HeldFrom

namespace Builder

variable {tree : Tree} {parent : Key} {keys : List Key}

/-- The check before an adoption finds every obstacle: its climb passes all nodes above the parent. -/
theorem canAdopt_iff (grounded : tree.Grounded) :
    canAdopt tree parent keys = true ↔ parent < tree.size ∧ tree.children parent = [] ∧
      ∀ above, tree.Ascends parent above → above ∉ keys := by
  simp only [canAdopt, contains, Bool.and_eq_true, decide_eq_true_eq, List.isEmpty_iff,
    Bool.not_eq_true', Bool.or_eq_false_iff, List.any_eq_false, List.contains_eq_mem,
    decide_eq_false_iff_not, grounded.ascends_iff]
  constructor
  · rintro ⟨⟨present, childless⟩, self, above⟩
    refine ⟨present, childless, ?_⟩
    rintro node (rfl | member)
    · exact self
    · simpa using above node member
  · rintro ⟨present, childless, outside⟩
    refine ⟨⟨present, childless⟩, outside parent (.inl rfl), fun node member => ?_⟩
    simpa using outside node (.inr member)

end Builder

namespace Scene

/-- Every loose node is loose once, and there is no other node without parent as long as nothing
failed. No container whose content is running lies below a node that its end could attach to it. -/
structure Sound (scene : Scene) : Prop where
  coherent : scene.tree.Coherent
  loose_nodup : scene.loose.Nodup
  loose_up : ∀ key ∈ scene.loose, key < scene.tree.size ∧ scene.tree.parent? key = none
  placed : scene.fault = none → ∀ key < scene.tree.size, scene.tree.parent? key = none →
    key ∈ scene.loose
  scope_lt : ∀ scope ∈ scene.scopes, scope.key < scene.tree.size
  guarded : ∀ scope ∈ scene.scopes, ∀ above, scene.tree.Ascends scope.key above →
    above ∉ heldFrom scope.token.depth scene.levels

theorem sound_empty : Sound {} where
  coherent :=
    { parent_lt := fun up => by simp [parent?, cell?] at up
      acyclic := fun key cycle => by
        obtain ⟨next, up, _⟩ := TransGen.head'_iff.mp cycle
        simp [Up, parent?, cell?] at up
      child_up := fun listed => by simp [children, cell?] at listed
      children_nodup := fun parent => by simp [children, cell?] }
  loose_nodup := List.nodup_nil
  loose_up := by simp [loose]
  placed := by simp [size]
  scope_lt := by simp
  guarded := by simp

/-- Collecting a node adds nothing else to what the levels hold. -/
theorem mem_heldFrom_place {scene : Scene} {node : Node} {depth : ℕ} {key : Key}
    (held : key ∈ heldFrom depth (scene.place node).levels) :
    key = scene.tree.size ∨ key ∈ heldFrom depth scene.levels := by
  obtain ⟨tree, levels, scopes, fault⟩ := scene
  cases levels with
  | nil => exact .inr held
  | cons keys outer =>
    obtain ⟨deep, member⟩ := mem_heldFrom_cons.mp held
    rw [List.mem_append, List.mem_singleton] at member
    rcases member with (old | new) | outside
    · exact .inr (mem_heldFrom_cons.mpr ⟨deep, .inl old⟩)
    · exact .inl new
    · exact .inr (mem_heldFrom_cons.mpr ⟨deep, .inr outside⟩)

namespace Sound

variable {scene : Scene} {tree : Tree} {keys : List Key} {outer : List (List Key)}
  {scopes : List Scope} {fault failure : Option BuildError}

/-- A new node is loose, and changes nothing for the others. -/
theorem place (sound : scene.Sound) (node : Node) : (scene.place node).Sound := by
  have sizes := (scene.links_place node 0).1
  have parents key := (scene.links_place node key).2.1
  have lists key := (scene.links_place node key).2.2
  have ascends : (scene.place node).tree.Ascends = scene.tree.Ascends :=
    congrArg ReflTransGen (up_congr parents)
  have joins := scene.loose_place node
  have fresh : scene.tree.parent? scene.tree.size = none :=
    scene.tree.parent?_of_size_le (Nat.le_refl _)
  refine ⟨?_, ?_, ?_, ?_, ?_, ?_⟩
  · exact sound.coherent.congr parents lists (by omega)
  · refine joins.nodup_iff.mpr (List.nodup_cons.mpr ⟨fun member => ?_, sound.loose_nodup⟩)
    exact Nat.lt_irrefl _ (sound.loose_up _ member).1
  · intro key member
    rw [sizes, parents]
    rcases List.mem_cons.mp (joins.mem_iff.mp member) with rfl | old
    · exact ⟨Nat.lt_succ_self _, fresh⟩
    · obtain ⟨present, top⟩ := sound.loose_up key old
      exact ⟨Nat.lt_succ_of_lt present, top⟩
  · intro none key present top
    rw [fault_place] at none
    rw [sizes, Nat.lt_succ_iff_lt_or_eq] at present
    refine joins.mem_iff.mpr (List.mem_cons.mpr ?_)
    rcases present with old | new
    · exact .inr (sound.placed none key old ((parents key).symm.trans top))
    · exact .inl new
  · intro scope member
    rw [scopes_place] at member
    rw [sizes]
    exact Nat.lt_succ_of_lt (sound.scope_lt scope member)
  · intro scope member above up held
    rw [scopes_place] at member
    rw [ascends] at up
    rcases mem_heldFrom_place held with rfl | old
    · exact Nat.lt_irrefl _ (sound.coherent.ascends_lt up (sound.scope_lt scope member))
    · exact sound.guarded scope member above up old

theorem openLevel (sound : scene.Sound) : Sound { scene with levels := [] :: scene.levels } where
  coherent := sound.coherent
  loose_nodup := sound.loose_nodup
  loose_up := sound.loose_up
  placed := sound.placed
  scope_lt := sound.scope_lt
  guarded scope member above up held := by
    obtain ⟨_, empty | old⟩ := mem_heldFrom_cons.mp held
    · simp at empty
    · exact sound.guarded scope member above up old

/-- The level of a container that starts is empty, so nothing in it is above the container. -/
theorem enter (sound : scene.Sound) (node : Node) : (scene.enter node).Sound := by
  have opened := (sound.place node).openLevel
  refine { opened with scope_lt := ?_, guarded := ?_ }
  · intro scope member
    rcases List.mem_cons.mp member with rfl | outer
    · exact ((scene.links_place node 0).1 ▸ Nat.lt_succ_self _ :
        scene.tree.size < (scene.place node).tree.size)
    · exact opened.scope_lt scope outer
  · intro scope member above up held
    rcases List.mem_cons.mp member with rfl | outer
    · obtain ⟨_, empty | deeper⟩ := mem_heldFrom_cons.mp held
      · simp at empty
      · exact Nat.not_succ_le_self _ (depth_le_of_mem_heldFrom deeper)
    · exact opened.guarded scope outer above up held

theorem modify (sound : scene.Sound) (key : Key) (modifiers : List Modifier) :
    Sound { scene with tree := scene.tree.modifyAll key modifiers } := by
  have parents other := scene.tree.parent?_modifyAll key other modifiers
  have lists other := scene.tree.children_modifyAll key other modifiers
  have sizes := scene.tree.size_modifyAll key modifiers
  have ascends : (scene.tree.modifyAll key modifiers).Ascends = scene.tree.Ascends :=
    congrArg ReflTransGen (up_congr parents)
  have kept : loose { scene with tree := scene.tree.modifyAll key modifiers } = scene.loose := by
    simp [loose]
  refine ⟨?_, ?_, ?_, ?_, ?_, ?_⟩
  · exact sound.coherent.congr parents lists (Nat.le_of_eq sizes.symm)
  · exact kept ▸ sound.loose_nodup
  · simpa only [kept, sizes, parents] using sound.loose_up
  · simpa only [kept, sizes, parents] using sound.placed
  · simpa only [sizes] using sound.scope_lt
  · simpa only [ascends] using sound.guarded

/-- The nodes of the innermost level are detached: they are there, each once and without parent, and
none of them is loose elsewhere. -/
theorem innermost (sound : Sound ⟨tree, keys :: outer, scopes, fault⟩) :
    keys.Nodup ∧ ∀ key ∈ keys, key < tree.size ∧ tree.parent? key = none ∧
      key ∉ loose ⟨tree, outer, scopes, fault⟩ := by
  have split := loose_close tree keys outer scopes fault
  obtain ⟨distinct, _, apart⟩ := List.nodup_append.mp (split.nodup_iff.mp sound.loose_nodup)
  refine ⟨distinct, fun key member => ?_⟩
  obtain ⟨present, top⟩ := sound.loose_up key (split.mem_iff.mpr (List.mem_append_left _ member))
  exact ⟨present, top, fun loose => apart key member key loose rfl⟩

/-- Closing the innermost level gives its nodes to a parent that is not below any of them. A running
container that was below one of them is now below the parent, and its own level is not open. -/
theorem attach (sound : Sound ⟨tree, keys :: outer, scopes, fault⟩) {parent : Key}
    (present : parent < tree.size)
    (outside : ∀ above, tree.Ascends parent above → above ∉ keys) :
    Sound ⟨tree.attach parent keys, outer, scopes, fault⟩ := by
  have split := loose_close tree keys outer scopes fault
  have looseRest := (List.nodup_append.mp (split.nodup_iff.mp sound.loose_nodup)).2.1
  obtain ⟨distinct, detached⟩ := sound.innermost
  have rest : loose ⟨tree.attach parent keys, outer, scopes, fault⟩ =
      loose ⟨tree, outer, scopes, fault⟩ := by
    simp [loose]
  refine ⟨?_, ?_, ?_, ?_, ?_, ?_⟩
  · exact sound.coherent.attach present distinct
      (fun key member => ⟨(detached key member).1, (detached key member).2.1⟩) outside
  · exact rest ▸ looseRest
  · intro key member
    rw [rest] at member
    obtain ⟨inside, top⟩ := sound.loose_up key (split.mem_iff.mpr (List.mem_append_right _ member))
    have other : ¬ (key ∈ keys ∧ key < tree.size) := fun attached =>
      (detached key attached.1).2.2 member
    rw [size_attach, parent?_attach, if_neg other]
    exact ⟨inside, top⟩
  · intro none key inside top
    rw [size_attach] at inside
    rw [parent?_attach] at top
    split at top
    · contradiction
    · next other =>
      rw [rest]
      have before := split.mem_iff.mp (sound.placed none key inside top)
      exact (List.mem_append.mp before).resolve_left fun member => other ⟨member, inside⟩
  · intro scope member
    rw [size_attach]
    exact sound.scope_lt scope member
  · intro scope member above up held
    rcases ascends_attach outside up with before | ⟨key, attached, below, _⟩
    · exact sound.guarded scope member above before (mem_heldFrom_of_mem_outer held)
    · have deep := Nat.le_succ_of_le (depth_le_of_mem_heldFrom held)
      exact sound.guarded scope member key below (mem_heldFrom_cons.mpr ⟨deep, .inl attached⟩)

/-- What is lost with a level leaves a failure behind. -/
theorem lose (sound : Sound ⟨tree, keys :: outer, scopes, fault⟩) (failed : failure ≠ none) :
    Sound ⟨tree, outer, scopes, failure⟩ := by
  have split := loose_close tree keys outer scopes fault
  refine ⟨sound.coherent, ?_, ?_, fun none => (failed none).elim, sound.scope_lt, ?_⟩
  · exact (List.nodup_append.mp (split.nodup_iff.mp sound.loose_nodup)).2.1
  · intro key member
    exact sound.loose_up key (split.mem_iff.mpr (List.mem_append_right _ member))
  · intro scope member above up held
    exact sound.guarded scope member above up (mem_heldFrom_of_mem_outer held)

/-- Fewer contents may run, and a failure may be noted. -/
theorem weaken (sound : scene.Sound) (fewer : scopes.Sublist scene.scopes)
    (kept : failure = none → scene.fault = none) :
    Sound { scene with scopes, fault := failure } :=
  { sound with
    placed := fun none => sound.placed (kept none)
    scope_lt := fun scope member => sound.scope_lt scope (fewer.subset member)
    guarded := fun scope member => sound.guarded scope (fewer.subset member) }

theorem change {orderly : Prop} {changed : Scene} (change : Change orderly scene changed)
    (sound : scene.Sound) : changed.Sound := by
  cases change with
  | construct _ node fault kept =>
    exact (sound.place node).weaken (List.Sublist.refl _) fun none => by simpa using kept none
  | modify _ key modifiers => exact sound.modify key modifiers
  | enter _ node _ => exact sound.enter node
  | leave tree keys outer scope scopes fault innermost =>
    -- The container's own token fits, so the level to be attached is one that the guard speaks of.
    have present := sound.scope_lt scope (List.mem_cons_self ..)
    have outside above (up : tree.Ascends scope.key above) : above ∉ keys := by
      intro member
      refine sound.guarded scope (List.mem_cons_self ..) above up ?_
      exact mem_heldFrom_cons.mpr ⟨Nat.le_of_eq innermost, .inl member⟩
    exact (sound.attach present outside).weaken (List.sublist_cons_self ..) id
  | openLevel => exact sound.openLevel
  | adopt tree keys outer scopes fault parent able =>
    obtain ⟨present, _, outside⟩ := (Builder.canAdopt_iff sound.coherent.toGrounded).mp able
    exact sound.attach present outside
  | lose tree keys outer scopes fault failed => exact sound.lose failed
  | fail _ scopes fewer failed => exact sound.weaken fewer fun none => (failed none).elim

end Sound

/-- Every parent lists its children, and a container whose content is running has none yet. -/
structure Tidy (scene : Scene) : Prop where
  listed : ∀ {child parent}, scene.tree.parent? child = some parent →
    child ∈ scene.tree.children parent
  childless : ∀ scope ∈ scene.scopes, scene.tree.children scope.key = []
  distinct : (scene.scopes.map Scope.key).Nodup

theorem tidy_empty : Tidy {} where
  listed up := by simp [parent?, cell?] at up
  childless := by simp
  distinct := List.nodup_nil

namespace Tidy

variable {scene : Scene} {tree : Tree} {keys : List Key} {outer levels : List (List Key)}
  {scopes : List Scope} {fault : Option BuildError}

theorem place (tidy : scene.Tidy) (node : Node) : (scene.place node).Tidy := by
  have parents key := (scene.links_place node key).2.1
  have lists key := (scene.links_place node key).2.2
  refine ⟨fun {child parent} up => ?_, ?_, ?_⟩
  · rw [lists]
    exact tidy.listed ((parents child).symm.trans up)
  · simpa only [scopes_place, lists] using tidy.childless
  · simpa only [scopes_place] using tidy.distinct

theorem enter (tidy : scene.Tidy) (sound : scene.Sound) (node : Node) : (scene.enter node).Tidy := by
  have placed := tidy.place node
  refine ⟨placed.listed, ?_, ?_⟩
  · intro scope member
    rcases List.mem_cons.mp member with rfl | outer
    · exact ((scene.links_place node _).2.2).trans (scene.tree.children_of_size_le (Nat.le_refl _))
    · exact placed.childless scope outer
  · refine List.nodup_cons.mpr ⟨fun member => ?_, placed.distinct⟩
    obtain ⟨scope, running, same⟩ := List.mem_map.mp member
    rw [scopes_place] at running
    exact Nat.lt_irrefl _ (same ▸ sound.scope_lt scope running)

/-- Nodes go to a parent without children, and to no container that still runs. -/
theorem attach (tidy : Tidy ⟨tree, levels, scopes, fault⟩) {parent : Key}
    (present : parent < tree.size) (childless : tree.children parent = [])
    (spared : keys ≠ [] → ∀ scope ∈ scopes, scope.key ≠ parent) :
    Tidy ⟨tree.attach parent keys, outer, scopes, fault⟩ := by
  refine ⟨fun {child owner} up => ?_, fun scope member => ?_, tidy.distinct⟩
  · change (tree.attach parent keys).parent? child = some owner at up
    change child ∈ (tree.attach parent keys).children owner
    rw [parent?_attach] at up
    rw [children_attach]
    split at up
    · next attached =>
      cases up
      rw [if_pos ⟨rfl, present⟩]
      exact attached.1
    · have before : child ∈ tree.children owner := tidy.listed up
      have other : owner ≠ parent := by
        rintro rfl
        simp [childless] at before
      rwa [if_neg fun same => other same.1]
  · change (tree.attach parent keys).children scope.key = []
    rw [children_attach]
    split
    · next same =>
      by_contra some
      exact spared some scope member same.1
    · exact tidy.childless scope member

theorem change {changed : Scene} (change : Change True scene changed) (sound : scene.Sound)
    (tidy : scene.Tidy) : changed.Tidy := by
  cases change with
  | construct _ node =>
    have placed := tidy.place node
    exact ⟨placed.listed, placed.childless, placed.distinct⟩
  | modify _ key modifiers =>
    refine ⟨fun {child parent} up => ?_, fun scope member => ?_, tidy.distinct⟩
    · rw [parent?_modifyAll] at up
      rw [children_modifyAll]
      exact tidy.listed up
    · rw [children_modifyAll]
      exact tidy.childless scope member
  | enter _ node => exact tidy.enter sound node
  | leave tree keys outer scope scopes fault innermost =>
    obtain ⟨fresh, distinct⟩ := List.nodup_cons.mp tidy.distinct
    have inner : Tidy ⟨tree, keys :: outer, scopes, fault⟩ :=
      ⟨tidy.listed, fun other member => tidy.childless other (List.mem_cons_of_mem _ member), distinct⟩
    refine inner.attach (sound.scope_lt scope (List.mem_cons_self ..))
      (tidy.childless scope (List.mem_cons_self ..)) fun _ other member same => ?_
    exact fresh (List.mem_map.mpr ⟨other, member, same⟩)
  | openLevel => exact ⟨tidy.listed, tidy.childless, tidy.distinct⟩
  | adopt tree keys outer scopes fault parent able spared =>
    obtain ⟨present, childless, _⟩ := (Builder.canAdopt_iff sound.coherent.toGrounded).mp able
    exact tidy.attach present childless (spared trivial)
  | lose => exact ⟨tidy.listed, tidy.childless, tidy.distinct⟩
  | fail _ scopes fewer =>
    exact ⟨tidy.listed, fun scope member => tidy.childless scope (fewer.subset member),
      tidy.distinct.sublist (fewer.map _)⟩

end Tidy

end Scene

/-! ## Finished builds -/

namespace Builder

variable {γ : Type} {builder : Builder γ} {tree : Tree}

theorem finish_fst (builder : Builder γ) : builder.finish.1 = builder.outcome := by
  rw [finish]
  split <;> simp_all

/-- A build ends well when nothing failed and no level is open. -/
theorem outcome_eq_ok_iff :
    builder.outcome = .ok tree ↔ builder.fault = none ∧ builder.depth = 0 ∧ builder.tree = tree := by
  rw [outcome, CaptureStack.finish, depth]
  cases builder.fault with
  | some fault => simp
  | none =>
    by_cases idle : builder.stack.depth = 0
    · simp [idle]
    · simp [idle, Nat.pos_iff_ne_zero]

theorem finish_of_closed (sound : builder.fault = none) (closed : builder.depth = 0) :
    builder.finish.1 = .ok builder.tree :=
  builder.finish_fst.trans (outcome_eq_ok_iff.mpr ⟨sound, closed, rfl⟩)

end Builder

namespace Moment

variable {γ : Type} [Generator γ] {moment : Moment γ}

theorem Reachable.sound {orderly : Prop} (reachable : moment.Reachable orderly) :
    ∃ scene, moment.Shows scene ∧ scene.Sound :=
  reachable.invariant Scene.sound_empty fun _ _ change sound => sound.change change

theorem Reachable.sound_tidy (reachable : moment.Reachable True) :
    ∃ scene, moment.Shows scene ∧ scene.Sound ∧ scene.Tidy :=
  reachable.invariant ⟨Scene.sound_empty, Scene.tidy_empty⟩ fun _ _ change ⟨sound, tidy⟩ =>
    ⟨sound.change change, tidy.change change sound⟩

/-- The tree is coherent at every moment, before and after a failure. -/
theorem Reachable.coherent {orderly : Prop} (reachable : moment.Reachable orderly) :
    moment.builder.tree.Coherent := by
  obtain ⟨scene, shows, sound⟩ := reachable.sound
  exact shows.tree ▸ sound.coherent

omit [Generator γ] in
/-- When a build ends well, no level is open and nothing failed. -/
theorem Shows.finished {scene : Scene} {tree : Tree} (shows : moment.Shows scene)
    (finished : moment.builder.outcome = .ok tree) :
    scene.tree = tree ∧ scene.levels = [] ∧ scene.fault = none := by
  obtain ⟨none, idle, trees⟩ := Builder.outcome_eq_ok_iff.mp finished
  rw [Builder.depth, shows.stack, depth_ofLevels] at idle
  exact ⟨shows.tree.symm.trans trees, List.length_eq_zero_iff.mp idle, shows.fault.symm.trans none⟩

/-- Steps that end well leave a rooted tree, orderly or not. -/
theorem Reachable.rooted {orderly : Prop} (reachable : moment.Reachable orderly) {tree : Tree}
    (finished : moment.builder.outcome = .ok tree) : tree.Rooted := by
  obtain ⟨scene, shows, sound⟩ := reachable.sound
  obtain ⟨rfl, closed, _⟩ := shows.finished finished
  have roots := scene.loose_of_closed closed
  exact ⟨sound.coherent, roots ▸ sound.loose_nodup, fun root listed =>
    sound.loose_up root (roots ▸ listed)⟩

/-- Orderly steps that end well leave an owned tree. -/
theorem Reachable.owned (reachable : moment.Reachable True) {tree : Tree}
    (finished : moment.builder.outcome = .ok tree) : tree.Owned := by
  have rooted := reachable.rooted finished
  obtain ⟨scene, shows, sound, tidy⟩ := reachable.sound_tidy
  obtain ⟨rfl, closed, none⟩ := shows.finished finished
  refine ⟨rooted.toCoherent, tidy.listed, rooted.roots_nodup, fun {key} => ⟨rooted.root_top key, ?_⟩⟩
  rintro ⟨present, top⟩
  exact scene.loose_of_closed closed ▸ sound.placed none key present top

/-- No steps close a cycle, so climbing up and walking down both come to an end: a climb reaches a
node without parent and further steps add nothing, and a walk runs out of nodes to visit. -/
theorem no_cycle (moment : Moment γ) (reachable : moment.Reachable False) :
    let tree := moment.builder.tree
    (∀ key, ¬TransGen tree.Up key key) ∧
    (∀ key, ¬TransGen (fun parent child => child ∈ tree.children parent) key key) ∧
    (∀ key, tree.parent? ((tree.ancestors key).getLastD key) = none ∧
      ∀ steps, tree.size ≤ steps → tree.climb steps key = tree.ancestors key) ∧
    ∀ key, ∃ steps, Walk.run tree steps ⟨[key], #[]⟩ = ⟨[], (tree.walk key).toArray⟩ := by
  have coherent := reachable.coherent
  refine ⟨coherent.acyclic, fun key cycle => ?_, fun key => ?_, coherent.walk_ends⟩
  · have upwards : TransGen moment.builder.tree.Up key key :=
      transGen_swap.mp (cycle.lift id fun _ _ child => coherent.child_up child)
    exact coherent.acyclic key upwards
  · exact ⟨coherent.parent?_last key, fun _ => coherent.climb_eq_ancestors key⟩

end Moment

/-- A level whose node is lost, between a failed adoption and further steps. -/
theorem Moment.no_cycle_after_loss :
    let program : Program :=
      [.vstack [.text "kept", .beginCapture "level", .text "lost",
        .endCapture (.stored "level") (.numbered 9), .endCapture (.forged ⟨1⟩) (.numbered 2)]]
    let builder := (Config.sequential.run default program).builder
    builder.fault = some (.capture (.invalidParent "")) ∧
      (∀ key, ¬TransGen builder.tree.Up key key) ∧
      ∀ key, ∃ steps,
        Walk.run builder.tree steps ⟨[key], #[]⟩ = ⟨[], (builder.tree.walk key).toArray⟩ := by
  intro program builder
  have reachable : Moment.Reachable False ⟨builder, []⟩ := ⟨Config.sequential.allocator default,
    Program.run_steps [] { builder := Config.sequential.builder default } program False.elim⟩
  obtain ⟨acyclic, _, _, walks⟩ := Moment.no_cycle _ reachable
  exact ⟨by decide, acyclic, walks⟩

theorem Program.rooted_of_finish [Generator γ] (ids : Allocator γ) {program : Program} {tree : Tree}
    (finished : (Program.run { builder := { ids } } program).builder.finish.1 = .ok tree) :
    tree.Rooted :=
  (Program.run_reaches ids program).rooted ((Builder.finish_fst _).symm.trans finished)

/-- If a build ends well and its program spares running containers, then every node has one place:
it is a root, or stands once among the children of its one parent. The walk of the document comes to
an end and meets every node once. -/
theorem Program.single_ownership [Generator γ] (ids : Allocator γ) (program : Program) (tree : Tree)
    (spared : Program.Spares [] { builder := { ids } } program)
    (finished : (Program.run { builder := { ids } } program).builder.finish.1 = .ok tree) :
    (∀ root ∈ tree.roots.toList, (Walk.run tree tree.size ⟨[root], #[]⟩).isDone) ∧
    tree.document.Nodup ∧ (∀ key, key ∈ tree.document ↔ tree.contains key) ∧
    tree.document.length = tree.size ∧
    (∀ child parent, tree.parent? child = some parent ↔ child ∈ tree.children parent) ∧
    (∀ parent, (tree.children parent).Nodup) ∧
    (∀ key, key ∈ tree.roots.toList ↔ tree.contains key ∧ tree.parent? key = none) ∧
    tree.roots.toList.Nodup := by
  have owned : tree.Owned :=
    (Program.run_reachable ids spared).owned ((Builder.finish_fst _).symm.trans finished)
  refine ⟨fun root listed => ?_, owned.nodup_document, fun key => ?_, owned.length_document,
    fun child parent => ⟨owned.listed, owned.child_up⟩, owned.children_nodup,
    fun key => ?_, owned.roots_nodup⟩
  · rw [owned.run_walk (owned.mem_roots.mp listed).1]
    rfl
  · rw [owned.mem_document, contains_iff]
  · rw [owned.mem_roots, contains_iff]

/-- Tokens that are swapped: the level of a container is closed early, for a node beside it, and
another level is opened in its place. -/
theorem Program.single_ownership_swapped :
    let program : Program :=
      [.hstack [], .vstack [.text "taken", .endCapture (.forged ⟨1⟩) (.numbered 0),
        .beginCapture "level", .text "left"]]
    let tree := (Config.sequential.run default program).builder.tree
    tree.children 0 = [2] ∧ tree.children 1 = [3] ∧ tree.document.Nodup ∧
      ∀ key, key ∈ tree.document ↔ tree.contains key := by
  intro program tree
  have finished : (Config.sequential.run default program).builder.finish.1 = .ok tree :=
    (Builder.finish_fst _).trans (Builder.outcome_eq_ok_iff.mpr ⟨by decide, by decide, rfl⟩)
  obtain ⟨_, distinct, complete, _⟩ :=
    Program.single_ownership (Config.sequential.allocator default) program tree (by decide) finished
  exact ⟨by decide, by decide, distinct, complete⟩

end ViewMarkup
