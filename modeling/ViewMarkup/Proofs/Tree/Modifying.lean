import ViewMarkup.Proofs.Tree.Likeness

/-! # Modifiers and the rest of a tree

A modifier changes one node and no links. So modifiers of different nodes can be applied in either
order, and nothing that is looked up along the links depends on them.
-/

namespace ViewMarkup

namespace Tree

variable (tree : Tree) (key : Key) (modifiers : List Modifier)

/-! ## Changes in either order -/

/-- Two changes can be swapped if they are made to different cells or do not touch the same part. -/
theorem update_comm {other : Key} {first second : Cell → Cell}
    (apart : key = other → ∀ cell, first (second cell) = second (first cell)) :
    (tree.update other second).update key first = (tree.update key first).update other second := by
  refine ext_cells (fun place => ?_) rfl
  simp only [cell?_update]
  by_cases here : place = key <;> by_cases there : place = other
  · subst here there
    cases tree.cell? place <;> simp [apart rfl]
  · subst here
    simp [there]
  · subst there
    simp [here]
  · simp [here, there]

theorem modifyAll_eq_update :
    tree.modifyAll key modifiers =
      tree.update key fun cell => { cell with node := modifiers.foldl Node.modify cell.node } := by
  induction modifiers generalizing tree with
  | nil =>
    refine ext_cells (fun place => ?_) rfl
    by_cases here : place = key
    · subst here
      simp [modifyAll, cell?_update]
    · simp [modifyAll, cell?_update, here]
  | cons modifier rest ih =>
    refine (ih (tree.modify key modifier)).trans (ext_cells (fun place => ?_) rfl)
    by_cases here : place = key
    · subst here
      simp [modify, cell?_update, Function.comp_def]
    · simp [modify, cell?_update, here]

theorem modifyAll_comm {other : Key} (apart : key ≠ other) (others : List Modifier) :
    (tree.modifyAll other others).modifyAll key modifiers =
      (tree.modifyAll key modifiers).modifyAll other others := by
  simp only [modifyAll_eq_update]
  exact tree.update_comm key fun same => (apart same).elim

/-! ## Looking up along the links -/

/-- The modified tree has the same links, and the same nodes but for the one that is modified. -/
theorem like_modifyAll :
    tree.Like (fun place node other =>
      other = if place = key then modifiers.foldl Node.modify node else node)
      (tree.modifyAll key modifiers) := by
  have unchanged : tree.Like (fun _ node other => other = node) tree := .refl tree fun _ _ => rfl
  apply unchanged.modifyAll
  rintro place node _ _ rfl
  rfl

end Tree

/-- A reference points at the same node, if the names it may use stand for the same nodes. -/
theorem Reference.resolve_modifyAll {names others : List (String × Key)} {reference : Reference}
    (same : ∀ name, reference = .named name → others.lookup name = names.lookup name) (tree : Tree)
    (key : Key) (modifiers : List Modifier) :
    reference.resolve others (tree.modifyAll key modifiers) = reference.resolve names tree := by
  apply Reference.resolve_eq (tree.like_modifyAll key modifiers) same
  rintro _ place node _ rfl
  split <;> simp

theorem Builder.canAdopt_modifyAll (tree : Tree) (key : Key) (modifiers : List Modifier)
    (parent : Key) (keys : List Key) :
    canAdopt (tree.modifyAll key modifiers) parent keys = canAdopt tree parent keys :=
  canAdopt_eq (tree.like_modifyAll key modifiers) parent keys

end ViewMarkup
