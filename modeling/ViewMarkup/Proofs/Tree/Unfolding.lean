import ViewMarkup.Proofs.Tree.Ancestry
import ViewMarkup.Tree.Forest
import ViewMarkup.Tree.Walk

/-! # Unfolding a tree into its forest

A tree keeps links between numbered nodes, and a forest is nested. `Unfolds` says that a forest is
what some nodes of a tree look like with everything below them, and mentions no bound on depth. In
a coherent tree, where every listed child has the node as its parent, each node unfolds. The
branches taken down to a bounded number of levels are that unfolding, a walk visits its nodes in
preorder, and no node comes up twice.
-/

namespace ViewMarkup

mutual

/-- The keys of a branch, each before those below it. -/
def Branch.preorder : Branch → List Key
  | .mk key _ children => key :: Branch.preorderAll children

/-- The keys of several branches, one branch after the other. -/
def Branch.preorderAll : List Branch → List Key
  | [] => []
  | branch :: rest => branch.preorder ++ Branch.preorderAll rest

end

theorem Branch.preorderAll_cons (key : Key) (node : Node) (below others : List Branch) :
    Branch.preorderAll (.mk key node below :: others) =
      key :: (Branch.preorderAll below ++ Branch.preorderAll others) :=
  rfl

theorem Branch.preorderAll_append (first second : List Branch) :
    Branch.preorderAll (first ++ second) =
      Branch.preorderAll first ++ Branch.preorderAll second := by
  induction first with
  | nil => rfl
  | cons branch rest ih => simp [Branch.preorderAll, ih]

namespace Tree

open Relation

variable {tree : Tree} {keys : List Key} {forest : List Branch} {key : Key}

/-- The forest is what the nodes look like with everything below them. -/
inductive Unfolds (tree : Tree) : List Key → List Branch → Prop
  | nil : Unfolds tree [] []
  | cons {key : Key} {rest : List Key} {node : Node} {below others : List Branch}
      (read : tree.get? key = some node) (down : Unfolds tree (tree.children key) below)
      (across : Unfolds tree rest others) :
      Unfolds tree (key :: rest) (.mk key node below :: others)

/-- A grounded tree in which a listed child is listed once and has the node as its parent. -/
structure Coherent (tree : Tree) : Prop extends tree.Grounded where
  child_up : ∀ {parent child}, child ∈ tree.children parent → tree.parent? child = some parent
  children_nodup : ∀ parent, (tree.children parent).Nodup

theorem Coherent.congr {other : Tree} (coherent : tree.Coherent)
    (parents : ∀ key, other.parent? key = tree.parent? key)
    (lists : ∀ key, other.children key = tree.children key) (sizes : tree.size ≤ other.size) :
    other.Coherent where
  toGrounded := coherent.toGrounded.congr parents sizes
  child_up listed := (parents _).trans (coherent.child_up (lists _ ▸ listed))
  children_nodup key := lists key ▸ coherent.children_nodup key

/-- Attaching distinct nodes without parents keeps a tree coherent, when none of them is the new
parent or above it. What the parent had listed before is forgotten. -/
theorem Coherent.attach (coherent : tree.Coherent) {parent : Key} (present : parent < tree.size)
    (distinct : keys.Nodup) (loose : ∀ key ∈ keys, key < tree.size ∧ tree.parent? key = none)
    (outside : ∀ above, tree.Ascends parent above → above ∉ keys) :
    (tree.attach parent keys).Coherent where
  toGrounded := coherent.toGrounded.attach present outside
  child_up {owner child} listed := by
    rw [children_attach] at listed
    rw [parent?_attach]
    split at listed
    · next new =>
      rw [if_pos ⟨listed, (loose child listed).1⟩, new.1]
    · have up := coherent.child_up listed
      have apart : ¬ (child ∈ keys ∧ child < tree.size) := by
        rintro ⟨member, _⟩
        rw [(loose child member).2] at up
        contradiction
      rw [if_neg apart, up]
  children_nodup owner := by
    rw [children_attach]
    split
    · exact distinct
    · exact coherent.children_nodup owner

theorem lt_size_of_get? {node : Node} (read : tree.get? key = some node) : key < tree.size := by
  by_contra outside
  rw [(tree.get?_eq_none_iff key).mpr (Nat.le_of_not_lt outside)] at read
  contradiction

namespace Unfolds

theorem append {others : List Key} {more : List Branch} (first : tree.Unfolds keys forest)
    (second : tree.Unfolds others more) : tree.Unfolds (keys ++ others) (forest ++ more) := by
  induction first with
  | nil => exact second
  | cons read down _ _ across => exact .cons read down across

/-- A forest has one branch per key, in the order of the keys. -/
theorem map_key (unfolds : tree.Unfolds keys forest) : forest.map Branch.key = keys := by
  induction unfolds with
  | nil => rfl
  | cons _ _ _ _ across => rw [List.map_cons, across]; rfl

/-- Nodes unfold in one way only. -/
theorem unique {other : List Branch} (first : tree.Unfolds keys forest)
    (second : tree.Unfolds keys other) : forest = other := by
  induction first generalizing other with
  | nil => cases second; rfl
  | cons read _ _ down across =>
    cases second with
    | cons readAgain downAgain acrossAgain =>
      cases Option.some.inj (read.symm.trans readAgain)
      rw [down downAgain, across acrossAgain]

theorem lt_size (unfolds : tree.Unfolds keys forest) {node : Key}
    (member : node ∈ Branch.preorderAll forest) : node < tree.size := by
  induction unfolds with
  | nil => simp [Branch.preorderAll] at member
  | cons read _ _ down across =>
    rw [Branch.preorderAll_cons, List.mem_cons, List.mem_append] at member
    rcases member with rfl | below | beside
    · exact lt_size_of_get? read
    · exact down below
    · exact across beside

/-- Everything in the unfolding of some nodes is below one of them. -/
theorem ascends (coherent : tree.Coherent) (unfolds : tree.Unfolds keys forest) {node : Key}
    (member : node ∈ Branch.preorderAll forest) : ∃ key ∈ keys, tree.Ascends node key := by
  induction unfolds with
  | nil => simp [Branch.preorderAll] at member
  | cons _ _ _ down across =>
    rw [Branch.preorderAll_cons, List.mem_cons, List.mem_append] at member
    rcases member with rfl | below | beside
    · exact ⟨_, List.mem_cons_self .., .refl⟩
    · obtain ⟨child, listed, above⟩ := down below
      exact ⟨_, List.mem_cons_self .., above.tail (coherent.child_up listed)⟩
    · obtain ⟨other, listed, above⟩ := across beside
      exact ⟨other, List.mem_cons_of_mem _ listed, above⟩

/-- Everything below a node is in its unfolding, when every parent lists its children. -/
theorem mem_preorderAll (complete : ∀ {child parent},
      tree.parent? child = some parent → child ∈ tree.children parent)
    (unfolds : tree.Unfolds keys forest) {node : Key} (above : tree.Ascends node key)
    (listed : key ∈ keys) : node ∈ Branch.preorderAll forest := by
  -- Induction on the height above the node: the last step down is from `key` to a child of it.
  induction above generalizing keys forest with
  | refl =>
    induction unfolds with
    | nil => simp at listed
    | cons _ _ _ _ across =>
      rw [Branch.preorderAll_cons]
      rcases List.mem_cons.mp listed with rfl | later
      · exact List.mem_cons_self ..
      · exact List.mem_cons_of_mem _ (List.mem_append_right _ (across later))
  | tail _ up ih =>
    induction unfolds with
    | nil => simp at listed
    | cons _ down _ _ across =>
      rw [Branch.preorderAll_cons]
      rcases List.mem_cons.mp listed with rfl | later
      · exact List.mem_cons_of_mem _ (List.mem_append_left _ (ih down (complete up)))
      · exact List.mem_cons_of_mem _ (List.mem_append_right _ (across later))

/-- Distinct nodes with the same parent, or all without one, unfold to distinct nodes. -/
theorem nodup (coherent : tree.Coherent) (unfolds : tree.Unfolds keys forest)
    (distinct : keys.Nodup) {above : Option Key} (siblings : ∀ key ∈ keys, tree.parent? key = above) :
    (Branch.preorderAll forest).Nodup := by
  induction unfolds generalizing above with
  | nil => exact List.nodup_nil
  | @cons key rest node below others _ unfoldsBelow unfoldsRest down across =>
    obtain ⟨fresh, distinctRest⟩ := List.nodup_cons.mp distinct
    have separate {other : Key} (aboveKey : tree.Ascends other key)
        (beside : other ∈ Branch.preorderAll others) : False := by
      obtain ⟨sibling, listed, aboveSibling⟩ := unfoldsRest.ascends coherent beside
      have parents := (siblings key (List.mem_cons_self ..)).trans
        (siblings sibling (List.mem_cons_of_mem _ listed)).symm
      exact fresh (coherent.eq_of_ascends aboveKey aboveSibling parents ▸ listed)
    rw [Branch.preorderAll_cons, List.nodup_cons, List.mem_append, List.nodup_append]
    refine ⟨?_, ?_, ?_, ?_⟩
    · rintro (inside | beside)
      · obtain ⟨child, listed, up⟩ := unfoldsBelow.ascends coherent inside
        exact coherent.acyclic key (TransGen.tail' up (coherent.child_up listed))
      · exact separate .refl beside
    · exact down (coherent.children_nodup key) fun child listed => coherent.child_up listed
    · exact across distinctRest fun sibling listed => siblings sibling (List.mem_cons_of_mem _ listed)
    · rintro first inside _ beside rfl
      obtain ⟨child, listed, up⟩ := unfoldsBelow.ascends coherent inside
      exact separate (up.tail (coherent.child_up listed)) beside

end Unfolds

/-! ## Branches down to a number of levels -/

theorem branches_cons (levels : ℕ) (key : Key) (rest : List Key) :
    tree.branches levels (key :: rest) =
      tree.branches levels [key] ++ tree.branches levels rest := by
  cases levels with
  | zero => rfl
  | succ levels => simp only [branches, ← List.filterMap_append, List.singleton_append]

/-- A node high enough above the bottom of the tree unfolds within the levels. A node has fewer
ancestors than the tree has nodes, so as many levels as nodes are always enough. -/
theorem Coherent.unfolds_branches (coherent : tree.Coherent) {levels : ℕ}
    (present : ∀ key ∈ keys, key < tree.size)
    (enough : ∀ key ∈ keys, tree.size ≤ (tree.ancestors key).length + levels) :
    tree.Unfolds keys (tree.branches levels keys) := by
  induction levels generalizing keys with
  | zero =>
    cases keys with
    | nil => exact .nil
    | cons key rest =>
      have short := coherent.length_ancestors_lt (present key (List.mem_cons_self ..))
      have long := enough key (List.mem_cons_self ..)
      omega
  | succ levels down =>
    induction keys with
    | nil => exact .nil
    | cons key rest across =>
      obtain ⟨cell, found⟩ := tree.exists_cell (present key (List.mem_cons_self ..))
      have read : tree.get? key = some cell.node := by simp [get?, found]
      have single : tree.branches (levels + 1) [key] =
          [.mk key cell.node (tree.branches levels (tree.children key))] := by
        simp [branches, read]
      rw [branches_cons, single]
      refine .cons read (down ?_ ?_) (across ?_ ?_)
      · intro child listed
        exact lt_size_of_parent? (coherent.child_up listed)
      · intro child listed
        have here := enough key (List.mem_cons_self ..)
        rw [coherent.ancestors_of_parent (coherent.child_up listed), List.length_cons]
        omega
      · exact fun other listed => present other (List.mem_cons_of_mem _ listed)
      · exact fun other listed => enough other (List.mem_cons_of_mem _ listed)

theorem Coherent.unfolds (coherent : tree.Coherent) (present : ∀ key ∈ keys, key < tree.size) :
    tree.Unfolds keys (tree.branches tree.size keys) :=
  coherent.unfolds_branches present fun _ _ => Nat.le_add_left ..

/-! ## Walks -/

/-- A walk with enough steps visits what its pending nodes unfold to, and nothing is left. -/
theorem Unfolds.run (unfolds : tree.Unfolds keys forest) (visited : Array Key) {steps : ℕ}
    (enough : (Branch.preorderAll forest).length ≤ steps) :
    Walk.run tree steps ⟨keys, visited⟩ =
      ⟨[], visited ++ (Branch.preorderAll forest).toArray⟩ := by
  induction steps generalizing keys forest visited with
  | zero =>
    cases unfolds with
    | nil => simp [Walk.run, Branch.preorderAll]
    | cons => simp [Branch.preorderAll_cons] at enough
  | succ steps ih =>
    cases unfolds with
    | nil => simp [Walk.run, Walk.isDone, Branch.preorderAll]
    | @cons key rest node below others read down across =>
      have contained := (tree.contains_iff key).mpr (lt_size_of_get? read)
      have shorter : (Branch.preorderAll (below ++ others)).length ≤ steps := by
        rw [Branch.preorderAll_append]
        simpa [Branch.preorderAll_cons] using enough
      have step : Walk.step tree ⟨key :: rest, visited⟩ =
          ⟨tree.children key ++ rest, visited.push key⟩ := by
        simp [Walk.step, contained]
      have unfinished : Walk.isDone ⟨key :: rest, visited⟩ = false := rfl
      have moved (later : List Key) :
          visited.push key ++ later.toArray = visited ++ (key :: later).toArray := by
        apply Array.ext'
        simp
      rw [Walk.run, unfinished, if_neg Bool.false_ne_true, step,
        ih (down.append across) _ shorter, Branch.preorderAll_append, Branch.preorderAll_cons, moved]

/-- A walk from a node ends within as many steps as the tree has nodes, and lists the unfolding of
the node in preorder. -/
theorem Coherent.run_walk (coherent : tree.Coherent) (present : key < tree.size) :
    Walk.run tree tree.size ⟨[key], #[]⟩ =
      ⟨[], (Branch.preorderAll (tree.branches tree.size [key])).toArray⟩ := by
  have unfolds : tree.Unfolds [key] (tree.branches tree.size [key]) :=
    coherent.unfolds fun _ listed => List.mem_singleton.mp listed ▸ present
  have distinct := unfolds.nodup coherent (by simp)
    fun _ listed => congrArg tree.parent? (List.mem_singleton.mp listed)
  have inside : Branch.preorderAll (tree.branches tree.size [key]) ⊆ List.range tree.size :=
    fun _ member => List.mem_range.mpr (unfolds.lt_size member)
  have bound := (distinct.subperm inside).length_le
  rw [unfolds.run #[] (by simpa using bound)]
  simp

theorem Coherent.walk_eq (coherent : tree.Coherent) (present : key < tree.size) :
    tree.walk key = Branch.preorderAll (tree.branches tree.size [key]) := by
  rw [walk, coherent.run_walk present]

/-- A walk runs out of nodes to visit, whatever key it starts from. -/
theorem Coherent.walk_ends (coherent : tree.Coherent) (key : Key) :
    ∃ steps, Walk.run tree steps ⟨[key], #[]⟩ = ⟨[], (tree.walk key).toArray⟩ := by
  by_cases present : key < tree.size
  · exact ⟨tree.size, by rw [coherent.run_walk present, coherent.walk_eq present]⟩
  · -- A key without a node is passed over, and nothing is left.
    have absent : tree.contains key = false :=
      Bool.eq_false_iff.mpr (mt (contains_iff ..).mp present)
    have passed (steps : Nat) : Walk.run tree (steps + 1) ⟨[key], #[]⟩ = ⟨[], #[]⟩ := by
      cases steps <;> simp [Walk.run, Walk.isDone, Walk.step, absent]
    have nothing : tree.walk key = [] := by
      rw [walk]
      cases tree.size with
      | zero => rfl
      | succ steps => rw [passed]
    exact ⟨1, by rw [passed, nothing]⟩

/-- The document lists the forest in preorder. -/
theorem Coherent.document_eq (coherent : tree.Coherent)
    (roots : ∀ root ∈ tree.roots.toList, root < tree.size) :
    tree.document = Branch.preorderAll tree.forest := by
  rw [document, forest]
  generalize tree.roots.toList = keys at roots
  induction keys with
  | nil => cases tree.size <;> rfl
  | cons root rest ih =>
    rw [List.flatMap_cons, branches_cons, Branch.preorderAll_append,
      coherent.walk_eq (roots root (List.mem_cons_self ..)),
      ih fun other listed => roots other (List.mem_cons_of_mem _ listed)]

/-! ## Trees with roots -/

/-- A coherent tree whose roots are distinct nodes without parent. -/
structure Rooted (tree : Tree) : Prop extends tree.Coherent where
  roots_nodup : tree.roots.toList.Nodup
  root_top : ∀ root ∈ tree.roots.toList, root < tree.size ∧ tree.parent? root = none

theorem Rooted.congr {other : Tree} (rooted : tree.Rooted)
    (parents : ∀ key, other.parent? key = tree.parent? key)
    (lists : ∀ key, other.children key = tree.children key) (roots : other.roots = tree.roots)
    (sizes : other.size = tree.size) : other.Rooted where
  toCoherent := rooted.toCoherent.congr parents lists (Nat.le_of_eq sizes.symm)
  roots_nodup := roots ▸ rooted.roots_nodup
  root_top root listed := by
    rw [sizes, parents]
    exact rooted.root_top root (roots ▸ listed)

theorem Rooted.unfolds_forest (rooted : tree.Rooted) :
    tree.Unfolds tree.roots.toList tree.forest :=
  rooted.unfolds fun root listed => (rooted.root_top root listed).1

theorem Rooted.document_eq_preorderAll (rooted : tree.Rooted) :
    tree.document = Branch.preorderAll tree.forest :=
  rooted.document_eq fun root listed => (rooted.root_top root listed).1

theorem Rooted.nodup_document (rooted : tree.Rooted) : tree.document.Nodup := by
  rw [rooted.document_eq_preorderAll]
  exact rooted.unfolds_forest.nodup rooted.toCoherent rooted.roots_nodup
    fun root listed => (rooted.root_top root listed).2

/-! ## Trees without loose nodes -/

/-- A coherent tree in which parents list all their children, and the roots are the nodes without
parent. -/
structure Owned (tree : Tree) : Prop extends tree.Coherent where
  listed : ∀ {child parent}, tree.parent? child = some parent → child ∈ tree.children parent
  roots_nodup : tree.roots.toList.Nodup
  mem_roots : ∀ {key}, key ∈ tree.roots.toList ↔ key < tree.size ∧ tree.parent? key = none

theorem Owned.congr {other : Tree} (owned : tree.Owned)
    (parents : ∀ key, other.parent? key = tree.parent? key)
    (lists : ∀ key, other.children key = tree.children key) (roots : other.roots = tree.roots)
    (sizes : other.size = tree.size) : other.Owned where
  toCoherent := owned.toCoherent.congr parents lists (Nat.le_of_eq sizes.symm)
  listed up := lists _ ▸ owned.listed ((parents _).symm.trans up)
  roots_nodup := roots ▸ owned.roots_nodup
  mem_roots := by
    intro key
    rw [roots, sizes, parents]
    exact owned.mem_roots

theorem Owned.rooted (owned : tree.Owned) : tree.Rooted where
  toCoherent := owned.toCoherent
  roots_nodup := owned.roots_nodup
  root_top _ listed := owned.mem_roots.mp listed

theorem Owned.unfolds_forest (owned : tree.Owned) :
    tree.Unfolds tree.roots.toList tree.forest :=
  owned.rooted.unfolds_forest

theorem Owned.document_eq_preorderAll (owned : tree.Owned) :
    tree.document = Branch.preorderAll tree.forest :=
  owned.rooted.document_eq_preorderAll

theorem Owned.nodup_document (owned : tree.Owned) : tree.document.Nodup :=
  owned.rooted.nodup_document

/-- The document leaves no node out. -/
theorem Owned.mem_document (owned : tree.Owned) : key ∈ tree.document ↔ key < tree.size := by
  rw [owned.document_eq_preorderAll]
  constructor
  · exact owned.unfolds_forest.lt_size
  · intro present
    obtain ⟨top, above, loose⟩ := owned.exists_top key
    have root := owned.mem_roots.mpr ⟨owned.ascends_lt above present, loose⟩
    exact owned.unfolds_forest.mem_preorderAll owned.listed above root

theorem Owned.length_document (owned : tree.Owned) : tree.document.length = tree.size := by
  have same : tree.document.Perm (List.range tree.size) := by
    rw [List.perm_ext_iff_of_nodup owned.nodup_document List.nodup_range]
    intro key
    rw [owned.mem_document, List.mem_range]
  rw [same.length_eq, List.length_range]

end Tree

end ViewMarkup
