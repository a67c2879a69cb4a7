import ViewMarkup.Proofs.Build.Steps
import ViewMarkup.Proofs.Identifier.Allocation
import ViewMarkup.Tree.Lemmas

/-! # The identifiers of a build

The labels of a tree are the identifiers of its nodes in the order of construction. A step of a
build either leaves labels and allocator alone, or it asks the allocator once and adds the answer
as the last label. What is proved of one allocation so holds of every run: with a counter, node
number `i` is labelled by `i`, and with any source no two nodes have the same label.
-/

namespace ViewMarkup

open ViewMarkup.Random Relation

namespace Tree

variable (tree : Tree)

/-- The identifiers of the nodes, in the order of construction. -/
def labels : List String :=
  (List.range tree.size).map tree.identifierOf

@[simp] theorem length_labels : tree.labels.length = tree.size := by
  simp [labels]

@[simp] theorem labels_insert (node : Node) :
    (tree.insert node).labels = tree.labels ++ [node.identifier] := by
  have earlier : ∀ key ∈ List.range tree.size,
      (tree.insert node).identifierOf key = tree.identifierOf key := by
    intro key member
    have old : key ≠ tree.size := Nat.ne_of_lt (List.mem_range.mp member)
    simp [identifierOf, old]
  rw [labels, size_insert, List.range_succ, List.map_append, List.map_congr_left earlier]
  simp [labels, identifierOf]

@[simp] theorem labels_addRoot (key : Key) : (tree.addRoot key).labels = tree.labels :=
  rfl

@[simp] theorem labels_attach (parent : Key) (keys : List Key) :
    (tree.attach parent keys).labels = tree.labels := by
  simp [labels]

@[simp] theorem labels_modifyAll (key : Key) (modifiers : List Modifier) :
    (tree.modifyAll key modifiers).labels = tree.labels := by
  simp [labels]

end Tree

namespace Builder

variable {γ : Type} {before after : Builder γ}

/-- Labels and allocator are as before, and no fault is taken back. -/
structure KeepsLabels (before after : Builder γ) : Prop where
  ids : after.ids = before.ids
  labels : after.tree.labels = before.tree.labels
  fault : after.fault = none → before.fault = none

/-- The allocator was asked once, and its answer is the last label. -/
structure AddsLabel [Generator γ] (before after : Builder γ) : Prop where
  ids : after.ids = before.nextIdentifier.2.ids
  labels : after.tree.labels = before.tree.labels ++ [before.nextIdentifier.1]
  fault : after.fault = none → before.nextIdentifier.2.fault = none

theorem KeepsLabels.size_eq (kept : before.KeepsLabels after) :
    after.tree.size = before.tree.size := by
  rw [← Tree.length_labels, kept.labels, Tree.length_labels]

theorem AddsLabel.size_eq [Generator γ] (added : before.AddsLabel after) :
    after.tree.size = before.tree.size + 1 := by
  rw [← Tree.length_labels, added.labels, List.length_append, Tree.length_labels]
  rfl

theorem keepsLabels_record (builder : Builder γ) (error : BuildError) :
    builder.KeepsLabels (builder.record error) :=
  ⟨rfl, rfl, fun none => (builder.fault_record error none).elim⟩

theorem addsLabel_construct [Generator γ] (builder : Builder γ) (kind : Kind) :
    builder.AddsLabel (builder.construct kind) := by
  have trees := builder.nextIdentifier_frame.1
  rw [construct_eq_place, place]
  split
  · exact ⟨rfl, by simp [trees], id⟩
  · exact ⟨rfl, by simp [trees], id⟩

theorem size_lt_construct [Generator γ] (builder : Builder γ) (kind : Kind) :
    builder.tree.size < (builder.construct kind).tree.size := by
  rw [(builder.addsLabel_construct kind).size_eq]
  exact Nat.lt_succ_self _

theorem closeLevel_frame {builder closed : Builder γ} {token : Token} {keys : List Key}
    (success : builder.closeLevel token = .ok (keys, closed)) :
    closed.tree = builder.tree ∧ closed.ids = builder.ids ∧ closed.fault = builder.fault := by
  rw [closeLevel] at success
  split at success
  · cases success; exact ⟨rfl, rfl, rfl⟩
  · contradiction

theorem keepsLabels_endCapture (builder : Builder γ) (token : Token) (parent : Key) :
    builder.KeepsLabels (builder.endCapture token parent).2 := by
  rw [endCapture]
  split
  · exact keepsLabels_record ..
  · next closed success =>
    obtain ⟨trees, ids, fault⟩ := closeLevel_frame success
    split
    · exact ⟨ids, by simp [trees], fault ▸ id⟩
    · exact ⟨ids, by simp [trees], fun none => (closed.fault_record _ none).elim⟩

theorem keepsLabels_closeContainer (builder : Builder γ) (token : Token) (key : Key) :
    builder.KeepsLabels (builder.closeContainer token key) := by
  rw [closeContainer]
  split
  · next success =>
    obtain ⟨trees, ids, fault⟩ := closeLevel_frame success
    exact ⟨ids, by simp [trees], fault ▸ id⟩
  · exact keepsLabels_record ..

/-- Without a fault the allocator gave an answer. -/
theorem allocate_of_nextIdentifier [Generator γ] {builder : Builder γ}
    (sound : builder.nextIdentifier.2.fault = none) :
    builder.fault = none ∧
      builder.ids.allocate = .ok (builder.nextIdentifier.1, builder.nextIdentifier.2.ids) := by
  refine ⟨builder.nextIdentifier_frame.2.2 sound, ?_⟩
  rw [nextIdentifier] at sound ⊢
  split at sound
  · next success => simp only [success]
  · exact (builder.fault_record _ sound).elim

end Builder

namespace Moment

variable {γ : Type} [Generator γ] {orderly : Prop} {before after : Moment γ}

theorem Step.labels (step : Step orderly before after) :
    before.builder.KeepsLabels after.builder ∨ before.builder.AddsLabel after.builder := by
  cases step with
  | construct _ kind => exact .inr (before.builder.addsLabel_construct kind)
  | modify _ key modifiers =>
    exact .inl ⟨rfl, before.builder.tree.labels_modifyAll key modifiers, id⟩
  | enter _ kind =>
    obtain ⟨ids, labels, fault⟩ := before.builder.addsLabel_construct kind
    exact .inr ⟨ids, labels, fault⟩
  | leave builder scope => exact .inl (builder.keepsLabels_closeContainer ..)
  | beginCapture => exact .inl ⟨rfl, rfl, id⟩
  | endCapture token parent => exact .inl (before.builder.keepsLabels_endCapture ..)

theorem Step.size_le (step : Step orderly before after) :
    before.builder.tree.size ≤ after.builder.tree.size := by
  rcases step.labels with kept | added
  · exact Nat.le_of_eq kept.size_eq.symm
  · rw [added.size_eq]
    exact Nat.le_succ _

/-- No step takes a node away. -/
theorem size_le (steps : ReflTransGen (Step orderly) before after) :
    before.builder.tree.size ≤ after.builder.tree.size := by
  induction steps with
  | refl => exact Nat.le_refl _
  | tail _ step ih => exact Nat.le_trans ih step.size_le

/-- What holds of the allocator at the start and no labels, and stays when an answer of the allocator
becomes the last label, holds as long as there is no fault. -/
theorem labels_invariant (holds : Allocator γ → List String → Prop) {ids : Allocator γ}
    (initial : holds ids [])
    (kept : ∀ current after labels name, holds current labels →
      current.allocate = .ok (name, after) → holds after (labels ++ [name]))
    {moment : Moment γ} (steps : ReflTransGen (Step orderly) { builder := { ids } } moment)
    (sound : moment.builder.fault = none) :
    holds moment.builder.ids moment.builder.tree.labels := by
  induction steps with
  | refl => exact initial
  | tail _ step ih =>
    rcases step.labels with same | added
    · rw [same.ids, same.labels]
      exact ih (same.fault sound)
    · obtain ⟨none, success⟩ := Builder.allocate_of_nextIdentifier (added.fault sound)
      rw [added.ids, added.labels]
      exact kept _ _ _ _ (ih none) success

/-- Labels that count up from zero, and the counter after the last of them. -/
structure Sequential (stem : String) (moment : Moment γ) : Prop where
  fixed : moment.builder.ids.stem = stem
  counted : moment.builder.ids.Counted moment.builder.tree.size
  labels : moment.builder.tree.labels =
    (List.range moment.builder.tree.size).map fun number => stem ++ number.repr

/-- A build that starts with a counter at zero labels its nodes in order. -/
theorem Sequential.run {ids : Allocator γ} (fresh : ids.Counted 0) {moment : Moment γ}
    (steps : ReflTransGen (Step orderly) { builder := { ids } } moment)
    (sound : moment.builder.fault = none) : moment.Sequential ids.stem := by
  have counts : moment.builder.ids.stem = ids.stem ∧
      moment.builder.ids.Counted moment.builder.tree.labels.length ∧
      moment.builder.tree.labels =
        (List.range moment.builder.tree.labels.length).map fun number => ids.stem ++ number.repr := by
    refine labels_invariant (fun current labels => current.stem = ids.stem ∧
      current.Counted labels.length ∧
      labels = (List.range labels.length).map fun number => ids.stem ++ number.repr)
      ⟨rfl, fresh, rfl⟩ ?_ steps sound
    rintro current after labels name ⟨fixed, counted, named⟩ success
    obtain ⟨rfl, next⟩ := counted.allocate success
    refine ⟨(Allocator.frame_of_allocate success).1.trans fixed, ?_, ?_⟩
    · rw [List.length_append]
      exact next
    · rw [List.length_append, List.length_singleton, List.range_succ, List.map_append, ← named,
        fixed]
      rfl
  rw [Tree.length_labels] at counts
  exact ⟨counts.1, counts.2.1, counts.2.2⟩

/-- A build without a fault labels its nodes by distinct numbers of the space. -/
theorem labelled_run {ids : Allocator γ} (valid : ids.Valid) {moment : Moment γ}
    (steps : ReflTransGen (Step orderly) { builder := { ids } } moment)
    (sound : moment.builder.fault = none) :
    moment.builder.ids.Labelled ids.stem ids.space moment.builder.tree.labels :=
  labels_invariant (Allocator.Labelled ids.stem ids.space)
    ⟨rfl, rfl, valid, [], List.nodup_nil, rfl, by simp⟩
    (fun _ _ _ _ labelled success => labelled.allocate success) steps sound

end Moment

variable {γ : Type}

theorem Session.size_finishNode (session : Session γ) (key : Key) (finish : Finish) :
    (session.finishNode key finish).builder.tree.size = session.builder.tree.size := by
  rw [Session.builder_finishNode]
  exact Tree.size_modifyAll ..

theorem Session.size_closeContainer (session : Session γ) (token : Token) (key : Key) :
    (session.closeContainer token key).builder.tree.size = session.builder.tree.size :=
  (session.builder.keepsLabels_closeContainer token key).size_eq

theorem Program.size_le_run [Generator γ] (session : Session γ) (program : Program) :
    session.builder.tree.size ≤ (Program.run session program).builder.tree.size := by
  have steps : ReflTransGen (Moment.Step False) ⟨session.builder, []⟩
      ⟨(Program.run session program).builder, []⟩ := Program.run_steps [] session program False.elim
  exact Moment.size_le steps

end ViewMarkup
