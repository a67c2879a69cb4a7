import Mathlib.Data.List.Perm.Subperm
import Mathlib.Data.Nat.Init
import Mathlib.Logic.Relation
import ViewMarkup.Tree.Lemmas

/-! # Ancestry

The parent links of a tree, read upwards. `Ascends` relates a node to itself and to every node above
it. A tree is grounded when parents are nodes of the tree and no node is above itself; in a grounded
tree every climb ends, and the ancestors found by a climb of bounded length are all there are.

Attaching a list of loose nodes to a node keeps a tree grounded when none of them is that node or
above it. This is the only condition: which levels are open at the time plays no role here.
-/

namespace ViewMarkup.Tree

open Relation

variable {tree : Tree} {key low high parent : Key}

/-- The second node is the parent of the first. -/
def Up (tree : Tree) (low high : Key) : Prop :=
  tree.parent? low = some high

/-- The second node is the first or above it. -/
def Ascends (tree : Tree) : Key → Key → Prop :=
  ReflTransGen tree.Up

/-- Parents are nodes of the tree, and no node is above itself. -/
structure Grounded (tree : Tree) : Prop where
  parent_lt : ∀ {low high}, tree.parent? low = some high → high < tree.size
  acyclic : ∀ key, ¬ TransGen tree.Up key key

theorem lt_size_of_parent? (up : tree.parent? low = some high) : low < tree.size := by
  by_contra outside
  rw [tree.parent?_of_size_le (Nat.le_of_not_lt outside)] at up
  contradiction

theorem up_rightUnique (tree : Tree) : Relator.RightUnique tree.Up :=
  fun _ _ _ first second => Option.some.inj (first.symm.trans second)

/-- Ancestry depends on nothing but the parents. -/
theorem up_congr {other : Tree} (parents : ∀ key, other.parent? key = tree.parent? key) :
    other.Up = tree.Up := by
  funext low high
  exact congrArg (· = some high) (parents low)

theorem Grounded.congr {other : Tree} (grounded : tree.Grounded)
    (parents : ∀ key, other.parent? key = tree.parent? key) (sizes : tree.size ≤ other.size) :
    other.Grounded where
  parent_lt up := Nat.lt_of_lt_of_le (grounded.parent_lt ((parents _).symm.trans up)) sizes
  acyclic := up_congr parents ▸ grounded.acyclic

/-- Everything above a node of the tree is a node of the tree. -/
theorem Grounded.ascends_lt (grounded : tree.Grounded) (ascends : tree.Ascends low high)
    (present : low < tree.size) : high < tree.size := by
  cases ascends with
  | refl => exact present
  | tail _ up => exact grounded.parent_lt up

/-- Two nodes above a third that have the same parent, or both none, are one node. -/
theorem Grounded.eq_of_ascends (grounded : tree.Grounded) {first second : Key}
    (toFirst : tree.Ascends low first) (toSecond : tree.Ascends low second)
    (siblings : tree.parent? first = tree.parent? second) : first = second := by
  -- One of the two is above the other; a proper ascent would then come back to its own start.
  have collapse {a b : Key} (ascends : tree.Ascends a b)
      (same : tree.parent? a = tree.parent? b) : a = b := by
    rcases ReflTransGen.cases_head ascends with equal | ⟨middle, up, rest⟩
    · exact equal
    · exact (grounded.acyclic b (TransGen.head' (same.symm.trans up) rest)).elim
  rcases ReflTransGen.total_of_right_unique tree.up_rightUnique toFirst toSecond with above | above
  · exact collapse above siblings
  · exact (collapse above siblings.symm).symm

/-! ## Climbing -/

theorem climb_of_root (top : tree.parent? key = none) (steps : ℕ) : tree.climb steps key = [] := by
  cases steps with
  | zero => rfl
  | succ steps => simp [climb, top]

theorem climb_succ (up : tree.parent? key = some parent) (steps : ℕ) :
    tree.climb (steps + 1) key = parent :: tree.climb steps parent := by
  simp [climb, up]

theorem transGen_of_mem_climb {steps : ℕ} (member : high ∈ tree.climb steps low) :
    TransGen tree.Up low high := by
  induction steps generalizing low with
  | zero => simp [climb] at member
  | succ steps ih =>
    cases up : tree.parent? low with
    | none => simp [climb_of_root up] at member
    | some parent =>
      rw [climb_succ up] at member
      rcases List.mem_cons.mp member with rfl | later
      · exact .single up
      · exact .head up (ih later)

theorem Grounded.nodup_climb (grounded : tree.Grounded) (steps : ℕ) (key : Key) :
    (key :: tree.climb steps key).Nodup := by
  induction steps generalizing key with
  | zero => simp [climb]
  | succ steps ih =>
    refine List.nodup_cons.mpr ⟨fun member => ?_, ?_⟩
    · exact grounded.acyclic key (transGen_of_mem_climb member)
    · cases up : tree.parent? key with
      | none => simp [climb_of_root up]
      | some parent => rw [climb_succ up]; exact ih parent

/-- A climb passes fewer nodes than the tree has, however many steps it may take. -/
theorem Grounded.length_climb_lt (grounded : tree.Grounded) (present : key < tree.size) (steps : ℕ) :
    (tree.climb steps key).length < tree.size := by
  have inside : key :: tree.climb steps key ⊆ List.range tree.size := by
    intro node member
    rcases List.mem_cons.mp member with rfl | later
    · exact List.mem_range.mpr present
    · have above := (transGen_of_mem_climb later).to_reflTransGen
      exact List.mem_range.mpr (grounded.ascends_lt above present)
  have bound := ((grounded.nodup_climb steps key).subperm inside).length_le
  rwa [List.length_cons, List.length_range, Nat.succ_le_iff] at bound

/-- A climb that did not use all its steps has ended, and further steps add nothing. -/
theorem climb_add_one {steps : ℕ} (unused : (tree.climb steps key).length < steps) :
    tree.climb (steps + 1) key = tree.climb steps key := by
  induction steps generalizing key with
  | zero => simp at unused
  | succ steps ih =>
    cases up : tree.parent? key with
    | none => rw [climb_of_root up, climb_of_root up]
    | some parent =>
      rw [climb_succ up] at unused
      rw [climb_succ up, climb_succ up, ih (by simpa using unused)]

theorem Grounded.climb_eq_ancestors (grounded : tree.Grounded) (key : Key) {steps : ℕ}
    (enough : tree.size ≤ steps) : tree.climb steps key = tree.ancestors key := by
  induction steps, enough using Nat.le_induction with
  | base => rfl
  | succ steps enough ih =>
    cases up : tree.parent? key with
    | none => rw [ancestors, climb_of_root up, climb_of_root up]
    | some parent =>
      have short := grounded.length_climb_lt (lt_size_of_parent? up) steps
      rw [climb_add_one (by omega), ih]

theorem ancestors_of_root (top : tree.parent? key = none) : tree.ancestors key = [] :=
  climb_of_root top _

theorem Grounded.ancestors_of_parent (grounded : tree.Grounded)
    (up : tree.parent? key = some parent) :
    tree.ancestors key = parent :: tree.ancestors parent := by
  rw [← grounded.climb_eq_ancestors key (Nat.le_succ _), climb_succ up, ancestors]

theorem Grounded.length_ancestors_lt (grounded : tree.Grounded) (present : key < tree.size) :
    (tree.ancestors key).length < tree.size :=
  grounded.length_climb_lt present _

/-- The ancestors of a node are the nodes properly above it. -/
theorem Grounded.mem_ancestors (grounded : tree.Grounded) :
    high ∈ tree.ancestors low ↔ TransGen tree.Up low high := by
  constructor
  · exact transGen_of_mem_climb
  · intro above
    induction above using TransGen.head_induction_on with
    | single up => rw [grounded.ancestors_of_parent up]; exact List.mem_cons_self ..
    | head up _ ih => rw [grounded.ancestors_of_parent up]; exact List.mem_cons_of_mem _ ih

theorem Grounded.ascends_iff (grounded : tree.Grounded) :
    tree.Ascends low high ↔ high = low ∨ high ∈ tree.ancestors low := by
  rw [grounded.mem_ancestors]
  exact reflTransGen_iff_eq_or_transGen

/-- A climb ends at a node without parent. -/
theorem Grounded.parent?_last (grounded : tree.Grounded) (key : Key) :
    tree.parent? ((tree.ancestors key).getLastD key) = none := by
  have ended {steps : ℕ} {key : Key} (unused : (tree.climb steps key).length < steps) :
      tree.parent? ((tree.climb steps key).getLastD key) = none := by
    induction steps generalizing key with
    | zero => simp at unused
    | succ steps ih =>
      cases up : tree.parent? key with
      | none => rw [climb_of_root up]; exact up
      | some parent =>
        rw [climb_succ up] at unused ⊢
        rw [List.getLastD_cons]
        exact ih (by simpa using unused)
  rw [← grounded.climb_eq_ancestors key (Nat.le_succ _)]
  refine ended ?_
  by_cases present : key < tree.size
  · exact Nat.lt_succ_of_lt (grounded.length_climb_lt present _)
  · rw [climb_of_root (tree.parent?_of_size_le (Nat.le_of_not_lt present))]
    exact Nat.succ_pos _

/-- Every node is below a node without parent, or is one. -/
theorem Grounded.exists_top (grounded : tree.Grounded) (key : Key) :
    ∃ top, tree.Ascends key top ∧ tree.parent? top = none := by
  refine ⟨_, grounded.ascends_iff.mpr ?_, grounded.parent?_last key⟩
  exact List.mem_cons.mp List.getLastD_mem_cons

/-! ## Attaching loose nodes -/

section Attach

variable {keys : List Key}

/-- An ascent after attaching goes on as before, or passes once from an attached node to the parent. -/
theorem ascends_attach (outside : ∀ above, tree.Ascends parent above → above ∉ keys)
    (ascends : (tree.attach parent keys).Ascends low high) :
    tree.Ascends low high ∨ ∃ key ∈ keys, tree.Ascends low key ∧ tree.Ascends parent high := by
  induction ascends with
  | refl => exact .inl .refl
  | @tail middle high _ up ih =>
    rw [Up, parent?_attach] at up
    split at up
    · next attached =>
      cases up
      rcases ih with before | ⟨key, _, _, above⟩
      · exact .inr ⟨middle, attached.1, before, .refl⟩
      · exact (outside middle above attached.1).elim
    · rcases ih with before | ⟨key, member, toKey, above⟩
      · exact .inl (before.tail up)
      · exact .inr ⟨key, member, toKey, above.tail up⟩

theorem Grounded.attach (grounded : tree.Grounded) (present : parent < tree.size)
    (outside : ∀ above, tree.Ascends parent above → above ∉ keys) :
    (tree.attach parent keys).Grounded where
  parent_lt {low high} up := by
    rw [parent?_attach] at up
    rw [size_attach]
    split at up
    · cases up; exact present
    · exact grounded.parent_lt up
  acyclic key cycle := by
    obtain ⟨next, up, back⟩ := TransGen.head'_iff.mp cycle
    rw [Up, parent?_attach] at up
    split at up
    · next attached =>
      -- The cycle would lead from the parent up to the attached node.
      cases up
      rcases ascends_attach outside back with above | ⟨other, member, above, _⟩
      · exact outside key above attached.1
      · exact outside other above member
    · rcases ascends_attach outside back with above | ⟨other, member, toOther, above⟩
      · exact grounded.acyclic key (.head' up above)
      · exact outside other (above.trans (ReflTransGen.head up toOther)) member

end Attach

end ViewMarkup.Tree
