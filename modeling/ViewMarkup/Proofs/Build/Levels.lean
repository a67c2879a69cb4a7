import ViewMarkup.Builder
import ViewMarkup.Tree.Lemmas

/-! # Capture levels as lists of nodes

A capture stack keeps the collector of the innermost level apart from those set aside. `ofLevels`
is the stack with given nodes at its open levels, and each operation on such a stack does to the
list of levels what its name says: opening adds an empty level, collecting appends to the innermost
one, and closing takes the innermost one off. No operation leads to a stack of another shape.

The operations of a builder are then described by the levels before and after.
-/

namespace ViewMarkup

open ViewMarkup.Random

namespace CaptureStack

/-- The stack whose open levels hold these nodes, the innermost level first. -/
def ofLevels : List (List Key) → CaptureStack
  | [] => {}
  | keys :: outer => { (ofLevels outer).openLevel with current := some ⟨keys.toArray⟩ }

variable (levels outer : List (List Key)) (keys : List Key) (key : Key) (token : Token)

@[simp] theorem depth_ofLevels : (ofLevels levels).depth = levels.length := by
  induction levels with
  | nil => rfl
  | cons keys outer ih => simp [ofLevels, ih]

theorem openLevel_ofLevels : (ofLevels levels).openLevel = ofLevels ([] :: levels) :=
  rfl

@[simp] theorem collected_ofLevels : (ofLevels (keys :: outer)).collected = keys := by
  simp [collected, ofLevels, Collector.drain]

theorem collect?_ofLevels_nil : (ofLevels []).collect? key = none :=
  rfl

theorem collect?_ofLevels_cons :
    (ofLevels (keys :: outer)).collect? key = some (ofLevels ((keys ++ [key]) :: outer)) := by
  rw [collect?, depth_ofLevels, if_neg (by simp)]
  simp [ofLevels, Collector.push]

theorem dropLevel_ofLevels : (ofLevels (keys :: outer)).dropLevel = ofLevels outer :=
  rfl

/-- A stack shows the nodes at each of its levels. -/
theorem ofLevels_injective : Function.Injective ofLevels := by
  intro levels
  induction levels with
  | nil =>
    intro other same
    have depths := congrArg CaptureStack.depth same
    rw [depth_ofLevels, depth_ofLevels] at depths
    exact (List.length_eq_zero_iff.mp depths.symm).symm
  | cons keys outer ih =>
    intro other same
    cases other with
    | nil => simpa using congrArg CaptureStack.depth same
    | cons others rest =>
      have inner := congrArg CaptureStack.collected same
      rw [collected_ofLevels, collected_ofLevels] at inner
      rw [inner, ih (congrArg CaptureStack.dropLevel same)]

theorem closeLevel_ofLevels_nil : (ofLevels []).closeLevel token = .error .notCapturing :=
  rfl

theorem closeLevel_ofLevels_cons :
    (ofLevels (keys :: outer)).closeLevel token =
      if token.depth = outer.length + 1 then .ok (keys, ofLevels outer)
      else .error (.unbalanced token.depth (outer.length + 1)) := by
  have capturing : (ofLevels (keys :: outer)).depth ≠ 0 := by simp
  split
  · next innermost =>
    rw [closeLevel_of_eq capturing (by simpa using innermost), collected_ofLevels,
      dropLevel_ofLevels]
  · next other =>
    rw [closeLevel_of_ne capturing (by simpa using other), depth_ofLevels, List.length_cons]

end CaptureStack

namespace Builder

open CaptureStack

variable {γ : Type} (builder : Builder γ)

@[simp] theorem tree_record (error : BuildError) : (builder.record error).tree = builder.tree :=
  rfl

theorem fault_record (error : BuildError) : (builder.record error).fault ≠ none := by
  simp [record]

/-! ## Constructing a node -/

theorem place_root (node : Node) (idle : builder.stack = ofLevels []) :
    builder.place node =
      { builder with tree := (builder.tree.insert node).addRoot builder.tree.size } := by
  simp only [place, idle, collect?_ofLevels_nil]

theorem place_held (node : Node) {keys : List Key} {outer : List (List Key)}
    (capturing : builder.stack = ofLevels (keys :: outer)) :
    builder.place node =
      { builder with
        tree := builder.tree.insert node
        stack := ofLevels ((keys ++ [builder.tree.size]) :: outer) } := by
  simp only [place, capturing, collect?_ofLevels_cons]

theorem fault_place (node : Node) : (builder.place node).fault = builder.fault := by
  rw [place]
  split <;> rfl

section Construct

variable [Generator γ]

theorem construct_eq_place (kind : Kind) :
    builder.construct kind =
      builder.nextIdentifier.2.place { identifier := builder.nextIdentifier.1, kind } :=
  rfl

/-- Naming a node touches neither the tree nor the stack. A fault that is there stays. -/
theorem nextIdentifier_frame :
    builder.nextIdentifier.2.tree = builder.tree ∧ builder.nextIdentifier.2.stack = builder.stack ∧
      (builder.nextIdentifier.2.fault = none → builder.fault = none) := by
  rw [nextIdentifier]
  split
  · exact ⟨rfl, rfl, id⟩
  · exact ⟨rfl, rfl, fun none => (builder.fault_record _ none).elim⟩

theorem fault_of_construct {kind : Kind} (sound : (builder.construct kind).fault = none) :
    builder.fault = none := by
  rw [construct_eq_place, fault_place] at sound
  exact builder.nextIdentifier_frame.2.2 sound

/-- Wherever a new node goes, the links of the tree stay as they are. -/
theorem construct_links (kind : Kind) :
    (builder.construct kind).tree.size = builder.tree.size + 1 ∧
      (∀ key, (builder.construct kind).tree.children key = builder.tree.children key) ∧
      ∀ key, (builder.construct kind).tree.parent? key = builder.tree.parent? key := by
  have trees := builder.nextIdentifier_frame.1
  rw [construct_eq_place, place]
  split <;> simp [trees]

/-- Outside every level a new node becomes the last root. -/
theorem construct_root (kind : Kind) (idle : builder.stack = ofLevels []) :
    ∃ identifier, (builder.construct kind).tree =
        (builder.tree.insert { identifier, kind }).addRoot builder.tree.size ∧
      (builder.construct kind).stack = ofLevels [] := by
  obtain ⟨trees, stack, _⟩ := builder.nextIdentifier_frame
  refine ⟨builder.nextIdentifier.1, ?_⟩
  rw [construct_eq_place, place_root _ _ (stack.trans idle), trees]
  exact ⟨rfl, stack.trans idle⟩

/-- Inside a level a new node is collected last by the innermost level. -/
theorem construct_held (kind : Kind) {keys : List Key} {outer : List (List Key)}
    (capturing : builder.stack = ofLevels (keys :: outer)) :
    ∃ identifier, (builder.construct kind).tree = builder.tree.insert { identifier, kind } ∧
      (builder.construct kind).stack = ofLevels ((keys ++ [builder.tree.size]) :: outer) := by
  obtain ⟨trees, stack, _⟩ := builder.nextIdentifier_frame
  refine ⟨builder.nextIdentifier.1, ?_⟩
  rw [construct_eq_place, place_held _ _ (stack.trans capturing), trees]
  exact ⟨rfl, rfl⟩

end Construct

/-! ## Closing a level -/

section Close

variable {builder} {keys : List Key} {levels outer : List (List Key)} {token : Token}

/-- The builder after its innermost level is closed. -/
def afterClose (builder : Builder γ) (keys : List Key) (outer : List (List Key)) : Builder γ :=
  { builder with stack := ofLevels outer }.emit (.captureEnded outer.length keys.length)

theorem closeLevel_of_innermost (capturing : builder.stack = ofLevels (keys :: outer))
    (innermost : token.depth = outer.length + 1) :
    builder.closeLevel token = .ok (keys, builder.afterClose keys outer) := by
  rw [closeLevel, capturing, closeLevel_ofLevels_cons, if_pos innermost]
  simp [afterClose]

/-- A token of any other depth closes nothing. -/
theorem closeLevel_of_other (shape : builder.stack = ofLevels levels)
    (other : levels = [] ∨ token.depth ≠ levels.length) :
    ∃ cause, builder.closeLevel token = .error cause := by
  rw [closeLevel, shape]
  cases levels with
  | nil =>
    rw [closeLevel_ofLevels_nil]
    exact ⟨_, rfl⟩
  | cons keys outer =>
    have unbalanced : ¬ token.depth = outer.length + 1 := by simpa using other
    rw [closeLevel_ofLevels_cons, if_neg unbalanced]
    exact ⟨_, rfl⟩

/-- Either no level is closed, or the innermost one is. -/
theorem innermost_or_other (levels : List (List Key)) (token : Token) :
    (levels = [] ∨ token.depth ≠ levels.length) ∨
      ∃ keys outer, levels = keys :: outer ∧ token.depth = outer.length + 1 := by
  cases levels with
  | nil => exact .inl (.inl rfl)
  | cons keys outer =>
    by_cases innermost : token.depth = outer.length + 1
    · exact .inr ⟨keys, outer, rfl, innermost⟩
    · exact .inl (.inr innermost)

theorem endCapture_of_other (shape : builder.stack = ofLevels levels)
    (other : levels = [] ∨ token.depth ≠ levels.length) (parent : Key) :
    ∃ error, builder.endCapture token parent = (.error error, builder.record error) := by
  obtain ⟨cause, refused⟩ := closeLevel_of_other shape other
  exact ⟨.capture cause, by rw [endCapture, refused]⟩

theorem endCapture_of_adoptable (capturing : builder.stack = ofLevels (keys :: outer))
    (innermost : token.depth = outer.length + 1) {parent : Key}
    (able : canAdopt builder.tree parent keys = true) :
    builder.endCapture token parent =
      (.ok (), { builder.afterClose keys outer with tree := builder.tree.attach parent keys }) := by
  rw [endCapture, closeLevel_of_innermost capturing innermost]
  exact if_pos able

theorem endCapture_of_not_adoptable (capturing : builder.stack = ofLevels (keys :: outer))
    (innermost : token.depth = outer.length + 1) {parent : Key}
    (unable : canAdopt builder.tree parent keys ≠ true) :
    ∃ error, error = .capture (.invalidParent (builder.tree.identifierOf parent)) ∧
      builder.endCapture token parent =
        (.error error, (builder.afterClose keys outer).record error) := by
  rw [endCapture, closeLevel_of_innermost capturing innermost]
  exact ⟨_, rfl, if_neg unable⟩

theorem closeContainer_of_innermost (capturing : builder.stack = ofLevels (keys :: outer))
    (innermost : token.depth = outer.length + 1) (key : Key) :
    builder.closeContainer token key =
      { builder.afterClose keys outer with tree := builder.tree.attach key keys } := by
  rw [closeContainer, closeLevel_of_innermost capturing innermost]
  rfl

theorem closeContainer_of_other (shape : builder.stack = ofLevels levels)
    (other : levels = [] ∨ token.depth ≠ levels.length) (key : Key) :
    ∃ error, builder.closeContainer token key = builder.record error := by
  obtain ⟨cause, refused⟩ := closeLevel_of_other shape other
  exact ⟨.capture cause, by rw [closeContainer, refused]⟩

end Close

end Builder

end ViewMarkup
