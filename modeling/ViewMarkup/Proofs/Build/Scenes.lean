import ViewMarkup.Proofs.Build.Steps
import ViewMarkup.Tree.Lemmas

/-! # Scenes of a build

A scene is what the structure of a build amounts to at a moment: the tree, the nodes held at each
open level, the containers whose contents are running, and the fault. `Scene.Change` lists what can
happen to a scene, and `Moment.Step.change` says that nothing else does. Results about the structure
of a build are proved along changes, without looking at builders again.
-/

namespace ViewMarkup

open ViewMarkup.Random Relation CaptureStack

variable {γ : Type}

/-- The tree, the nodes held at the open levels with the innermost first, the containers whose
contents are running, and the fault. -/
structure Scene where
  tree : Tree := {}
  levels : List (List Key) := []
  scopes : List Scope := []
  fault : Option BuildError := none

namespace Scene

/-- A new node goes to the innermost level, and to the roots when no level is open. -/
def place (scene : Scene) (node : Node) : Scene :=
  match scene.levels with
  | [] => { scene with tree := (scene.tree.insert node).addRoot scene.tree.size }
  | keys :: outer =>
    { scene with
      tree := scene.tree.insert node
      levels := (keys ++ [scene.tree.size]) :: outer }

/-- The nodes that belong to no parent yet: the roots, and what the open levels hold. -/
def loose (scene : Scene) : List Key :=
  scene.tree.roots.toList ++ scene.levels.flatten

/-- A new container with an open level of its own. -/
def enter (scene : Scene) (node : Node) : Scene :=
  let placed := scene.place node
  { placed with
    levels := [] :: placed.levels
    scopes := ⟨scene.tree.size, ⟨placed.levels.length + 1⟩⟩ :: placed.scopes }

/-- What can happen to a scene. -/
inductive Change (orderly : Prop) : Scene → Scene → Prop
  | construct (scene : Scene) (node : Node) (fault : Option BuildError)
      (kept : fault = none → scene.fault = none) :
      Change orderly scene { scene.place node with fault }
  | modify (scene : Scene) (key : Key) (modifiers : List Modifier) :
      Change orderly scene { scene with tree := scene.tree.modifyAll key modifiers }
  | enter (scene : Scene) (node : Node) (sound : scene.fault = none) :
      Change orderly scene (scene.enter node)
  | leave (tree : Tree) (keys : List Key) (outer : List (List Key)) (scope : Scope)
      (scopes : List Scope) (fault : Option BuildError)
      (innermost : scope.token.depth = outer.length + 1) :
      Change orderly ⟨tree, keys :: outer, scope :: scopes, fault⟩
        ⟨tree.attach scope.key keys, outer, scopes, fault⟩
  | openLevel (scene : Scene) : Change orderly scene { scene with levels := [] :: scene.levels }
  | adopt (tree : Tree) (keys : List Key) (outer : List (List Key)) (scopes : List Scope)
      (fault : Option BuildError) (parent : Key)
      (able : Builder.canAdopt tree parent keys = true)
      (spared : orderly → keys ≠ [] → ∀ scope ∈ scopes, scope.key ≠ parent) :
      Change orderly ⟨tree, keys :: outer, scopes, fault⟩
        ⟨tree.attach parent keys, outer, scopes, fault⟩
  | lose (tree : Tree) (keys : List Key) (outer : List (List Key)) (scopes : List Scope)
      (fault : Option BuildError) {failure : Option BuildError} (failed : failure ≠ none) :
      Change orderly ⟨tree, keys :: outer, scopes, fault⟩ ⟨tree, outer, scopes, failure⟩
  | fail (scene : Scene) (scopes : List Scope) (fewer : scopes.Sublist scene.scopes)
      {failure : Option BuildError} (failed : failure ≠ none) :
      Change orderly scene { scene with scopes, fault := failure }

section Place

variable (scene : Scene) (node : Node) (key : Key)

/-- Wherever a new node goes, the links of the tree stay as they are. -/
theorem links_place :
    (scene.place node).tree.size = scene.tree.size + 1 ∧
      (scene.place node).tree.parent? key = scene.tree.parent? key ∧
      (scene.place node).tree.children key = scene.tree.children key := by
  obtain ⟨tree, levels, scopes, fault⟩ := scene
  cases levels <;> simp [place]

@[simp] theorem scopes_place : (scene.place node).scopes = scene.scopes := by
  obtain ⟨tree, levels, scopes, fault⟩ := scene
  cases levels <;> rfl

@[simp] theorem fault_place : (scene.place node).fault = scene.fault := by
  obtain ⟨tree, levels, scopes, fault⟩ := scene
  cases levels <;> rfl

/-- Wherever a new node goes, it joins the loose nodes. -/
theorem loose_place : (scene.place node).loose.Perm (scene.tree.size :: scene.loose) := by
  obtain ⟨tree, levels, scopes, fault⟩ := scene
  cases levels with
  | nil => simp [place, loose, Tree.toList_roots_addRoot]
  | cons keys outer =>
    have moved : (place ⟨tree, keys :: outer, scopes, fault⟩ node).loose =
        (tree.roots.toList ++ keys) ++ tree.size :: outer.flatten := by
      simp [place, loose]
    have before : loose ⟨tree, keys :: outer, scopes, fault⟩ =
        (tree.roots.toList ++ keys) ++ outer.flatten := by
      simp [loose]
    rw [moved, before]
    exact List.perm_middle

end Place

/-- The loose nodes are those of the innermost level and those that stay when it is closed. -/
theorem loose_close (tree : Tree) (keys : List Key) (outer : List (List Key)) (scopes : List Scope)
    (fault : Option BuildError) :
    (loose ⟨tree, keys :: outer, scopes, fault⟩).Perm
      (keys ++ loose ⟨tree, outer, scopes, fault⟩) := by
  simp only [loose, List.flatten_cons]
  exact List.perm_append_comm_assoc ..

/-- When no level is open, the loose nodes are the roots. -/
theorem loose_of_closed (scene : Scene) (closed : scene.levels = []) :
    scene.loose = scene.tree.roots.toList := by
  rw [loose, closed, List.flatten_nil, List.append_nil]

end Scene

namespace Moment

/-- The scene is what the structure of the build amounts to at the moment. -/
structure Shows (moment : Moment γ) (scene : Scene) : Prop where
  tree : moment.builder.tree = scene.tree
  stack : moment.builder.stack = ofLevels scene.levels
  scopes : moment.scopes = scene.scopes
  fault : moment.builder.fault = scene.fault

/-- A constructed node is placed, whatever becomes of the fault. -/
theorem Shows.construct [Generator γ] {moment : Moment γ} {scene : Scene}
    (shows : moment.Shows scene) (kind : Kind) :
    ∃ node, Shows { moment with builder := moment.builder.construct kind }
      { scene.place node with fault := (moment.builder.construct kind).fault } := by
  obtain ⟨tree, levels, scopes, fault⟩ := scene
  cases levels with
  | nil =>
    obtain ⟨_, trees, stack⟩ := moment.builder.construct_root kind shows.stack
    rw [shows.tree] at trees
    exact ⟨_, trees, stack, shows.scopes, rfl⟩
  | cons keys outer =>
    obtain ⟨_, trees, stack⟩ := moment.builder.construct_held kind shows.stack
    rw [shows.tree] at trees stack
    exact ⟨_, trees, stack, shows.scopes, rfl⟩

theorem Shows.enter [Generator γ] {moment : Moment γ} {scene : Scene} (shows : moment.Shows scene)
    (kind : Kind) (sound : (moment.builder.construct kind).fault = none) :
    ∃ node, (moment.enter kind).Shows (scene.enter node) := by
  obtain ⟨node, placed⟩ := shows.construct kind
  have open_ : (moment.enter kind).builder.stack = ofLevels (scene.enter node).levels := by
    have stack : (moment.builder.construct kind).stack = ofLevels (scene.place node).levels :=
      placed.stack
    exact (congrArg CaptureStack.openLevel stack).trans (openLevel_ofLevels _)
  refine ⟨node, placed.tree, open_, ?_, ?_⟩
  · have depth : (moment.enter kind).builder.stack.token = ⟨(scene.place node).levels.length + 1⟩ := by
      rw [open_, CaptureStack.token, depth_ofLevels]
      rfl
    have scopes : moment.scopes = (scene.place node).scopes := placed.scopes
    rw [Scene.enter, ← depth, ← scopes, ← shows.tree]
    rfl
  · have before := moment.builder.fault_of_construct sound
    exact sound.trans ((scene.fault_place node).trans (shows.fault.symm.trans before)).symm

/-- Every step changes the scene in one of the listed ways. -/
theorem Step.change [Generator γ] {orderly : Prop} {before after : Moment γ}
    (step : Step orderly before after) {scene : Scene} (shows : before.Shows scene) :
    ∃ changed, Scene.Change orderly scene changed ∧ after.Shows changed := by
  cases step with
  | construct _ kind =>
    obtain ⟨node, placed⟩ := shows.construct kind
    refine ⟨_, .construct scene node _ fun none => ?_, placed⟩
    exact shows.fault.symm.trans (before.builder.fault_of_construct none)
  | modify _ key modifiers =>
    refine ⟨_, .modify scene key modifiers, ?_, shows.stack, shows.scopes, shows.fault⟩
    exact congrArg (·.modifyAll key modifiers) shows.tree
  | enter _ kind sound =>
    obtain ⟨node, entered⟩ := shows.enter kind sound
    refine ⟨_, .enter scene node ?_, entered⟩
    exact shows.fault.symm.trans (before.builder.fault_of_construct sound)
  | beginCapture =>
    refine ⟨_, .openLevel scene, shows.tree, ?_, shows.scopes, shows.fault⟩
    exact (congrArg CaptureStack.openLevel shows.stack).trans (openLevel_ofLevels _)
  | leave builder scope scopes =>
    obtain ⟨tree, levels, _, fault⟩ := scene
    obtain ⟨rfl, stack, rfl, rfl⟩ := shows
    rcases Builder.innermost_or_other levels scope.token with other | ⟨keys, outer, rfl, innermost⟩
    · obtain ⟨error, refused⟩ := Builder.closeContainer_of_other stack other scope.key
      rw [refused]
      exact ⟨_, .fail _ scopes (List.sublist_cons_self ..) (builder.fault_record error),
        rfl, stack, rfl, rfl⟩
    · rw [Builder.closeContainer_of_innermost stack innermost]
      exact ⟨_, .leave _ keys outer scope scopes _ innermost, rfl, rfl, rfl, rfl⟩
  | endCapture _ token parent spared =>
    obtain ⟨builder, scopes⟩ := before
    obtain ⟨tree, levels, _, fault⟩ := scene
    obtain ⟨rfl, stack, rfl, rfl⟩ := shows
    change builder.stack = ofLevels levels at stack
    rcases Builder.innermost_or_other levels token with other | ⟨keys, outer, rfl, innermost⟩
    · obtain ⟨error, refused⟩ := Builder.endCapture_of_other stack other parent
      rw [refused]
      exact ⟨_, .fail _ scopes (List.Sublist.refl _) (builder.fault_record error),
        rfl, stack, rfl, rfl⟩
    · by_cases able : Builder.canAdopt builder.tree parent keys = true
      · have adopted := Builder.endCapture_of_adoptable stack innermost able
        have spared (strict : orderly) (some : keys ≠ []) : ∀ scope ∈ scopes, scope.key ≠ parent := by
          refine spared strict (congrArg Prod.fst adopted) ?_
          rwa [stack, collected_ofLevels]
        rw [adopted]
        exact ⟨_, .adopt _ keys outer scopes _ parent able spared, rfl, rfl, rfl, rfl⟩
      · obtain ⟨error, _, refused⟩ := Builder.endCapture_of_not_adoptable stack innermost able
        rw [refused]
        exact ⟨_, .lose _ keys outer scopes _ ((builder.afterClose keys outer).fault_record error),
          rfl, rfl, rfl, rfl⟩

/-- A property of a scene that is kept by changes holds of the scene after steps. -/
theorem Shows.invariant [Generator γ] {orderly : Prop} {moment later : Moment γ} {scene : Scene}
    (shows : moment.Shows scene) (steps : ReflTransGen (Step orderly) moment later)
    {holds : Scene → Prop} (initial : holds scene)
    (kept : ∀ scene changed, Scene.Change orderly scene changed → holds scene → holds changed) :
    ∃ changed, later.Shows changed ∧ holds changed := by
  induction steps with
  | refl => exact ⟨scene, shows, initial⟩
  | tail _ step ih =>
    obtain ⟨middle, showsMiddle, before⟩ := ih
    obtain ⟨changed, change, showsChanged⟩ := step.change showsMiddle
    exact ⟨changed, showsChanged, kept middle changed change before⟩

/-- A property that holds of the empty scene and is kept by changes holds at every moment. -/
theorem Reachable.invariant [Generator γ] {orderly : Prop} {moment : Moment γ}
    (reachable : moment.Reachable orderly) {holds : Scene → Prop} (initial : holds {})
    (kept : ∀ scene changed, Scene.Change orderly scene changed → holds scene → holds changed) :
    ∃ scene, moment.Shows scene ∧ holds scene := by
  obtain ⟨ids, steps⟩ := reachable
  have fresh : Shows ({ builder := { ids } } : Moment γ) {} := ⟨rfl, rfl, rfl, rfl⟩
  exact fresh.invariant steps initial kept

end Moment

end ViewMarkup
