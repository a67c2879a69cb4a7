import Mathlib.Data.List.Basic
import ViewMarkup.Proofs.Build.Ownership

/-! # Walking down and climbing up

A walk follows the children of a node and a climb its parents, and the two kinds of links are
stored apart. In a coherent tree a walk is the preorder of a node: the node, then the walks of its
children in order, and this recursion has no other solution. When every parent lists its children
as well, the walks of a node are found inside the walks of the nodes above it, in one piece of the
document. The climb from a node lists the nodes above it, each once and the nearest first, up to a
root, and a node is on the walk of another exactly when the climb from it passes the other.
-/

namespace ViewMarkup

open ViewMarkup.Random Relation

namespace Tree

variable {tree : Tree} {keys : List Key} {forest : List Branch} {key low high : Key}

/-! ## Walks in preorder -/

theorem Coherent.unfolds_single (coherent : tree.Coherent) (present : key < tree.size) :
    tree.Unfolds [key] (tree.branches tree.size [key]) :=
  coherent.unfolds fun _ listed => List.mem_singleton.mp listed ▸ present

theorem Unfolds.walk_eq (coherent : tree.Coherent) (unfolds : tree.Unfolds [key] forest) :
    tree.walk key = Branch.preorderAll forest := by
  have present : key < tree.size := by
    cases unfolds with
    | cons read => exact lt_size_of_get? read
  rw [coherent.walk_eq present, (coherent.unfolds_single present).unique unfolds]

/-- Nodes that are walked one after the other come in the preorder of what they unfold to. -/
theorem Unfolds.flatMap_walk (coherent : tree.Coherent) (unfolds : tree.Unfolds keys forest) :
    keys.flatMap tree.walk = Branch.preorderAll forest := by
  induction unfolds with
  | nil => rfl
  | cons read down _ _ across =>
    have first := Unfolds.walk_eq coherent (.cons read down .nil)
    rw [List.flatMap_cons, across, first, Branch.preorderAll_cons, Branch.preorderAll_cons]
    simp [Branch.preorderAll]

theorem Coherent.walk_eq_cons (coherent : tree.Coherent) (present : key < tree.size) :
    tree.walk key = key :: (tree.children key).flatMap tree.walk := by
  obtain ⟨cell, found⟩ := tree.exists_cell present
  have read : tree.get? key = some cell.node := by simp [get?, found]
  have down : tree.Unfolds (tree.children key) (tree.branches tree.size (tree.children key)) :=
    coherent.unfolds fun child listed => lt_size_of_parent? (coherent.child_up listed)
  rw [Unfolds.walk_eq coherent (.cons read down .nil), Branch.preorderAll_cons,
    down.flatMap_walk coherent]
  simp [Branch.preorderAll]

/-- A function that lists each node before what it lists for the children, in order, lists what the
nodes unfold to in preorder. -/
theorem Unfolds.flatMap_preorder (unfolds : tree.Unfolds keys forest) {preorder : Key → List Key}
    (recurs : ∀ key, tree.contains key →
      preorder key = key :: (tree.children key).flatMap preorder) :
    keys.flatMap preorder = Branch.preorderAll forest := by
  induction unfolds with
  | nil => rfl
  | @cons key _ _ _ _ read _ _ down across =>
    have present := (tree.contains_iff key).mpr (lt_size_of_get? read)
    rw [List.flatMap_cons, recurs key present, down, across, Branch.preorderAll_cons,
      List.cons_append]

/-- The recursion of a preorder has the walk as its only solution. -/
theorem Coherent.walk_eq_preorder (coherent : tree.Coherent) (present : key < tree.size)
    {preorder : Key → List Key}
    (recurs : ∀ key, tree.contains key →
      preorder key = key :: (tree.children key).flatMap preorder) :
    tree.walk key = preorder key := by
  have solved := (coherent.unfolds_single present).flatMap_preorder recurs
  rw [coherent.walk_eq present, ← solved, List.flatMap_singleton]

theorem Coherent.nodup_walk (coherent : tree.Coherent) (present : key < tree.size) :
    (tree.walk key).Nodup := by
  rw [coherent.walk_eq present]
  exact (coherent.unfolds_single present).nodup coherent (by simp) fun _ listed =>
    congrArg tree.parent? (List.mem_singleton.mp listed)

/-! ## Walks of owned trees -/

/-- A walk passes exactly the node and the nodes below it. -/
theorem Owned.mem_walk (owned : tree.Owned) (present : high < tree.size) :
    low ∈ tree.walk high ↔ tree.Ascends low high := by
  have unfolds := owned.unfolds_single present
  rw [owned.walk_eq present]
  constructor
  · intro member
    obtain ⟨_, listed, above⟩ := unfolds.ascends owned.toCoherent member
    exact List.mem_singleton.mp listed ▸ above
  · intro above
    exact unfolds.mem_preorderAll owned.listed above (List.mem_singleton_self high)

/-- The walk of a node is one piece of the walk of every node above it. -/
theorem Owned.walk_infix_walk (owned : tree.Owned) (above : tree.Ascends low high) :
    tree.walk low <:+: tree.walk high := by
  induction above with
  | refl => exact List.infix_rfl
  | @tail middle high _ up ih =>
    have piece : tree.walk middle <:+: (tree.children high).flatMap tree.walk :=
      List.infix_flatMap_of_mem (owned.listed up) tree.walk
    rw [owned.walk_eq_cons (owned.parent_lt up)]
    exact (ih.trans piece).trans (List.suffix_cons high _).isInfix

theorem Owned.walk_infix_document (owned : tree.Owned) (present : key < tree.size) :
    tree.walk key <:+: tree.document := by
  obtain ⟨top, above, loose⟩ := owned.exists_top key
  have root := owned.mem_roots.mpr ⟨owned.ascends_lt above present, loose⟩
  exact (owned.walk_infix_walk above).trans (List.infix_flatMap_of_mem root tree.walk)

/-! ## Climbs -/

/-- A climb goes from each node to its parent. -/
theorem isChain_climb (tree : Tree) (steps : ℕ) (key : Key) :
    (key :: tree.climb steps key).IsChain tree.Up := by
  induction steps generalizing key with
  | zero => exact .singleton key
  | succ steps ih =>
    cases up : tree.parent? key with
    | none =>
      rw [climb_of_root up]
      exact .singleton key
    | some parent =>
      rw [climb_succ up]
      exact List.isChain_cons_cons.mpr ⟨up, ih parent⟩

theorem Owned.last_mem_roots (owned : tree.Owned) (present : key < tree.size) :
    (tree.ancestors key).getLastD key ∈ tree.roots.toList := by
  have passed : tree.Ascends key ((tree.ancestors key).getLastD key) :=
    owned.ascends_iff.mpr (List.mem_cons.mp List.getLastD_mem_cons)
  exact owned.mem_roots.mpr ⟨owned.ascends_lt passed present, owned.parent?_last key⟩

end Tree

/-- Walking down and climbing up agree in the tree of a build that ends well, if the program spares
running containers. -/
theorem Program.traversals_agree {γ : Type} [Generator γ] (ids : Allocator γ) (program : Program)
    (tree : Tree) (spared : Program.Spares [] { builder := { ids } } program)
    (finished : (Program.run { builder := { ids } } program).builder.finish.1 = .ok tree) :
    (∀ key, tree.contains key →
      Walk.run tree tree.size ⟨[key], #[]⟩ = ⟨[], (tree.walk key).toArray⟩ ∧
      tree.walk key = key :: (tree.children key).flatMap tree.walk ∧
      (∀ preorder : Key → List Key, (∀ other, tree.contains other →
        preorder other = other :: (tree.children other).flatMap preorder) →
          tree.walk key = preorder key) ∧
      (tree.walk key).Nodup ∧ tree.walk key <:+: tree.document) ∧
    (∀ key, tree.contains key →
      (∀ above, above ∈ tree.ancestors key ↔ TransGen tree.Up key above) ∧
      (tree.ancestors key).Nodup ∧ (key :: tree.ancestors key).IsChain tree.Up ∧
      (tree.ancestors key).getLastD key ∈ tree.roots.toList) ∧
    ∀ high low, tree.contains high → tree.contains low →
      (low ∈ tree.walk high ↔ low = high ∨ high ∈ tree.ancestors low) := by
  have owned : tree.Owned :=
    (Program.run_reachable ids spared).owned ((Builder.finish_fst _).symm.trans finished)
  refine ⟨fun key inside => ?_, fun key inside => ?_, fun high low insideHigh _ => ?_⟩
  · have present := (tree.contains_iff key).mp inside
    refine ⟨?_, owned.walk_eq_cons present, fun preorder recurs => ?_, owned.nodup_walk present,
      owned.walk_infix_document present⟩
    · rw [owned.run_walk present, owned.walk_eq present]
    · exact owned.walk_eq_preorder present recurs
  · have present := (tree.contains_iff key).mp inside
    refine ⟨fun above => owned.mem_ancestors, ?_, tree.isChain_climb tree.size key,
      owned.last_mem_roots present⟩
    exact (owned.nodup_climb tree.size key).of_cons
  · rw [owned.mem_walk ((tree.contains_iff high).mp insideHigh), owned.ascends_iff, eq_comm]

/-- A container that gets its nodes from a level opened by hand, below a container and beside
another root. -/
theorem Program.traversals_agree_adopted :
    let program : Program :=
      [.vstack [.hstack [], .text "after", .beginCapture "level", .list [.text "deep"], .text "last",
        .endCapture (.stored "level") (.numbered 1)], .text "beside"]
    let tree := (Config.sequential.run default program).builder.tree
    tree.document = [0, 1, 3, 4, 5, 2, 6] ∧ tree.walk 1 = [1, 3, 4, 5] ∧
      tree.walk 1 <:+: tree.document ∧ tree.walk 1 = 1 :: [3, 5].flatMap tree.walk ∧
      tree.ancestors 4 = [3, 1, 0] ∧ [4, 3, 1, 0].IsChain tree.Up ∧
      (4 ∈ tree.walk 1 ↔ 4 = 1 ∨ 1 ∈ tree.ancestors 4) := by
  intro program tree
  have finished : (Config.sequential.run default program).builder.finish.1 = .ok tree :=
    Builder.finish_of_closed (by decide) (by decide)
  obtain ⟨walks, climbs, agree⟩ :=
    Program.traversals_agree (Config.sequential.allocator default) program tree (by decide) finished
  obtain ⟨_, recurs, _, _, piece⟩ := walks 1 (by decide)
  obtain ⟨_, _, chain, _⟩ := climbs 4 (by decide)
  have listed : tree.children 1 = [3, 5] := by decide
  have above : tree.ancestors 4 = [3, 1, 0] := by decide
  rw [listed] at recurs
  rw [above] at chain
  exact ⟨by decide, by decide, piece, recurs, above, chain, agree 1 4 (by decide) (by decide)⟩

end ViewMarkup
