import ViewMarkup.Tree.Basic

/-! # What the operations on a tree do to its views

Each operation on a tree is described by what it does to the size, the nodes, the parents, the
children and the roots. No operation but `insert` changes the size, and no operation but `modify`
changes a node that is already there.
-/

namespace ViewMarkup.Tree

variable (tree : Tree)

theorem contains_iff (key : Key) : tree.contains key = true ↔ key < tree.size := by
  simp [contains]

theorem cell?_eq_none_iff (key : Key) : tree.cell? key = none ↔ tree.size ≤ key := by
  simp [cell?, size]

theorem get?_eq_none_iff (key : Key) : tree.get? key = none ↔ tree.size ≤ key := by
  simp [get?, cell?_eq_none_iff]

theorem exists_cell {key : Key} (present : key < tree.size) : ∃ cell, tree.cell? key = some cell :=
  ⟨_, Array.getElem?_eq_getElem present⟩

theorem parent?_of_size_le {key : Key} (outside : tree.size ≤ key) : tree.parent? key = none := by
  simp [parent?, (tree.cell?_eq_none_iff key).mpr outside]

theorem children_of_size_le {key : Key} (outside : tree.size ≤ key) : tree.children key = [] := by
  simp [children, (tree.cell?_eq_none_iff key).mpr outside]

/-! ## Inserting a node -/

@[simp] theorem size_insert (node : Node) : (tree.insert node).size = tree.size + 1 := by
  simp [insert, size]

@[simp] theorem roots_insert (node : Node) : (tree.insert node).roots = tree.roots :=
  rfl

theorem cell?_insert (node : Node) (key : Key) :
    (tree.insert node).cell? key = if key = tree.size then some { node } else tree.cell? key :=
  Array.getElem?_push

@[simp] theorem get?_insert (node : Node) (key : Key) :
    (tree.insert node).get? key = if key = tree.size then some node else tree.get? key := by
  simp only [get?, cell?_insert]
  split <;> rfl

private theorem cell?_size : tree.cell? tree.size = none :=
  (tree.cell?_eq_none_iff _).mpr (Nat.le_refl _)

@[simp] theorem parent?_insert (node : Node) (key : Key) :
    (tree.insert node).parent? key = tree.parent? key := by
  by_cases fresh : key = tree.size <;> simp [parent?, cell?_insert, cell?_size, fresh]

@[simp] theorem children_insert (node : Node) (key : Key) :
    (tree.insert node).children key = tree.children key := by
  by_cases fresh : key = tree.size <;> simp [children, cell?_insert, cell?_size, fresh]

/-! ## Making a node a root -/

theorem toList_roots_addRoot (key : Key) :
    (tree.addRoot key).roots.toList = tree.roots.toList ++ [key] := by
  simp [addRoot]

@[simp] theorem size_addRoot (key : Key) : (tree.addRoot key).size = tree.size :=
  rfl

@[simp] theorem get?_addRoot (key other : Key) : (tree.addRoot key).get? other = tree.get? other :=
  rfl

@[simp] theorem parent?_addRoot (key other : Key) :
    (tree.addRoot key).parent? other = tree.parent? other :=
  rfl

@[simp] theorem children_addRoot (key other : Key) :
    (tree.addRoot key).children other = tree.children other :=
  rfl

/-! ## Changing one cell -/

@[simp] theorem size_update (key : Key) (change : Cell → Cell) :
    (tree.update key change).size = tree.size := by
  simp [update, size]

theorem cell?_update (key other : Key) (change : Cell → Cell) :
    (tree.update key change).cell? other =
      if other = key then (tree.cell? key).map change else tree.cell? other := by
  by_cases same : key = other
  · simp [update, cell?, Array.getElem?_modify, same]
  · simp [update, cell?, Array.getElem?_modify, same, Ne.symm same]

/-- A change that keeps the node keeps every node. -/
theorem get?_update (key other : Key) {change : Cell → Cell}
    (keeps : ∀ cell, (change cell).node = cell.node) :
    (tree.update key change).get? other = tree.get? other := by
  simp only [get?, cell?_update]
  split
  · subst_vars
    cases tree.cell? _ <;> simp [keeps]
  · rfl

/-- A change that keeps the parent keeps every parent. -/
theorem parent?_update (key other : Key) {change : Cell → Cell}
    (keeps : ∀ cell, (change cell).parent = cell.parent) :
    (tree.update key change).parent? other = tree.parent? other := by
  simp only [parent?, cell?_update]
  split
  · subst_vars
    cases tree.cell? _ <;> simp [keeps]
  · rfl

/-- A change that keeps the children keeps every list of children. -/
theorem children_update (key other : Key) {change : Cell → Cell}
    (keeps : ∀ cell, (change cell).children = cell.children) :
    (tree.update key change).children other = tree.children other := by
  simp only [children, cell?_update]
  split
  · subst_vars
    cases tree.cell? _ <;> simp [keeps]
  · rfl

/-! ## Attaching children -/

@[simp] theorem size_setParent (parent key : Key) : (tree.setParent parent key).size = tree.size :=
  tree.size_update key _

@[simp] theorem roots_setParent (parent key : Key) :
    (tree.setParent parent key).roots = tree.roots :=
  rfl

@[simp] theorem get?_setParent (parent key other : Key) :
    (tree.setParent parent key).get? other = tree.get? other :=
  tree.get?_update key other fun _ => rfl

@[simp] theorem children_setParent (parent key other : Key) :
    (tree.setParent parent key).children other = tree.children other :=
  tree.children_update key other fun _ => rfl

theorem parent?_setParent (parent key other : Key) :
    (tree.setParent parent key).parent? other =
      if other = key ∧ key < tree.size then some parent else tree.parent? other := by
  simp only [parent?, setParent, cell?_update]
  by_cases same : other = key
  · subst same
    by_cases present : other < tree.size
    · obtain ⟨cell, found⟩ := tree.exists_cell present
      simp [present, found]
    · simp [present, (tree.cell?_eq_none_iff other).mpr (Nat.le_of_not_lt present)]
  · simp [same]

@[simp] theorem size_setChildren (parent : Key) (keys : List Key) :
    (tree.setChildren parent keys).size = tree.size :=
  tree.size_update parent _

@[simp] theorem roots_setChildren (parent : Key) (keys : List Key) :
    (tree.setChildren parent keys).roots = tree.roots :=
  rfl

@[simp] theorem get?_setChildren (parent other : Key) (keys : List Key) :
    (tree.setChildren parent keys).get? other = tree.get? other :=
  tree.get?_update parent other fun _ => rfl

@[simp] theorem parent?_setChildren (parent other : Key) (keys : List Key) :
    (tree.setChildren parent keys).parent? other = tree.parent? other :=
  tree.parent?_update parent other fun _ => rfl

theorem children_setChildren (parent other : Key) (keys : List Key) :
    (tree.setChildren parent keys).children other =
      if other = parent ∧ parent < tree.size then keys else tree.children other := by
  simp only [children, setChildren, cell?_update]
  by_cases same : other = parent
  · subst same
    by_cases present : other < tree.size
    · obtain ⟨cell, found⟩ := tree.exists_cell present
      simp [present, found]
    · simp [present, (tree.cell?_eq_none_iff other).mpr (Nat.le_of_not_lt present)]
  · simp [same]

/-- Setting parents one after the other changes parents only. -/
private theorem setParents_views (parent : Key) (keys : List Key) :
    let moved := keys.foldl (fun tree key => tree.setParent parent key) tree
    moved.size = tree.size ∧ moved.roots = tree.roots ∧
      (∀ other, moved.get? other = tree.get? other) ∧
      (∀ other, moved.children other = tree.children other) ∧
      ∀ other, moved.parent? other =
        if other ∈ keys ∧ other < tree.size then some parent else tree.parent? other := by
  induction keys generalizing tree with
  | nil => simp
  | cons key rest ih =>
    obtain ⟨sizes, roots, nodes, lists, parents⟩ := ih (tree.setParent parent key)
    simp only [List.foldl_cons]
    refine ⟨by simpa using sizes, by simpa using roots, fun other => ?_, fun other => ?_,
      fun other => ?_⟩
    · rw [nodes, get?_setParent]
    · rw [lists, children_setParent]
    · rw [parents, parent?_setParent, size_setParent]
      by_cases later : other ∈ rest <;> by_cases first : other = key <;>
        by_cases present : other < tree.size <;> simp_all

@[simp] theorem size_attach (parent : Key) (keys : List Key) :
    (tree.attach parent keys).size = tree.size := by
  rw [attach, size_setChildren, (tree.setParents_views parent keys).1]

@[simp] theorem roots_attach (parent : Key) (keys : List Key) :
    (tree.attach parent keys).roots = tree.roots := by
  rw [attach, roots_setChildren, (tree.setParents_views parent keys).2.1]

@[simp] theorem get?_attach (parent other : Key) (keys : List Key) :
    (tree.attach parent keys).get? other = tree.get? other := by
  rw [attach, get?_setChildren, (tree.setParents_views parent keys).2.2.1]

/-- Attached nodes have the new parent, and every other node keeps its own. -/
theorem parent?_attach (parent other : Key) (keys : List Key) :
    (tree.attach parent keys).parent? other =
      if other ∈ keys ∧ other < tree.size then some parent else tree.parent? other := by
  rw [attach, parent?_setChildren, (tree.setParents_views parent keys).2.2.2.2]

/-- The parent has the attached list, and every other node keeps its own. -/
theorem children_attach (parent other : Key) (keys : List Key) :
    (tree.attach parent keys).children other =
      if other = parent ∧ parent < tree.size then keys else tree.children other := by
  obtain ⟨sizes, _, _, lists, _⟩ := tree.setParents_views parent keys
  rw [attach, children_setChildren, sizes, lists]

/-! ## Modifying a node -/

@[simp] theorem size_modify (key : Key) (modifier : Modifier) :
    (tree.modify key modifier).size = tree.size :=
  tree.size_update key _

@[simp] theorem roots_modify (key : Key) (modifier : Modifier) :
    (tree.modify key modifier).roots = tree.roots :=
  rfl

@[simp] theorem parent?_modify (key other : Key) (modifier : Modifier) :
    (tree.modify key modifier).parent? other = tree.parent? other :=
  tree.parent?_update key other fun _ => rfl

@[simp] theorem children_modify (key other : Key) (modifier : Modifier) :
    (tree.modify key modifier).children other = tree.children other :=
  tree.children_update key other fun _ => rfl

theorem get?_modify (key other : Key) (modifier : Modifier) :
    (tree.modify key modifier).get? other =
      if other = key then (tree.get? key).map (·.modify modifier) else tree.get? other := by
  simp only [get?, modify, cell?_update]
  split
  · cases tree.cell? key <;> rfl
  · rfl

/-- Modifying a node again and again leaves all links in place. -/
private theorem modifyAll_links (key : Key) (modifiers : List Modifier) :
    let modified := tree.modifyAll key modifiers
    modified.size = tree.size ∧ modified.roots = tree.roots ∧
      (∀ other, modified.parent? other = tree.parent? other) ∧
      ∀ other, modified.children other = tree.children other := by
  induction modifiers generalizing tree with
  | nil => simp [modifyAll]
  | cons modifier rest ih =>
    obtain ⟨sizes, roots, parents, lists⟩ := ih (tree.modify key modifier)
    refine ⟨sizes.trans (tree.size_modify key modifier), roots, fun other => ?_, fun other => ?_⟩
    · exact (parents other).trans (tree.parent?_modify key other modifier)
    · exact (lists other).trans (tree.children_modify key other modifier)

@[simp] theorem size_modifyAll (key : Key) (modifiers : List Modifier) :
    (tree.modifyAll key modifiers).size = tree.size :=
  (tree.modifyAll_links key modifiers).1

@[simp] theorem roots_modifyAll (key : Key) (modifiers : List Modifier) :
    (tree.modifyAll key modifiers).roots = tree.roots :=
  (tree.modifyAll_links key modifiers).2.1

@[simp] theorem parent?_modifyAll (key other : Key) (modifiers : List Modifier) :
    (tree.modifyAll key modifiers).parent? other = tree.parent? other :=
  (tree.modifyAll_links key modifiers).2.2.1 other

@[simp] theorem children_modifyAll (key other : Key) (modifiers : List Modifier) :
    (tree.modifyAll key modifiers).children other = tree.children other :=
  (tree.modifyAll_links key modifiers).2.2.2 other

/-- Modifiers change their own node only. -/
theorem get?_modifyAll (key other : Key) (modifiers : List Modifier) :
    (tree.modifyAll key modifiers).get? other =
      if other = key then (tree.get? key).map fun node => modifiers.foldl Node.modify node
      else tree.get? other := by
  induction modifiers generalizing tree with
  | nil =>
    by_cases same : other = key
    · subst same; simp [modifyAll]
    · simp [modifyAll, same]
  | cons modifier rest ih =>
    refine (ih (tree.modify key modifier)).trans ?_
    rw [get?_modify, get?_modify, if_pos rfl]
    split
    · simp [Function.comp_def]
    · rfl

/-! ## Identifiers -/

theorem identifierOf_of_get? {node : Node} {key : Key} (read : tree.get? key = some node) :
    tree.identifierOf key = node.identifier := by
  simp [identifierOf, read]

@[simp] theorem identifierOf_attach (parent other : Key) (keys : List Key) :
    (tree.attach parent keys).identifierOf other = tree.identifierOf other := by
  simp only [identifierOf, get?_attach]

@[simp] theorem identifierOf_modifyAll (key other : Key) (modifiers : List Modifier) :
    (tree.modifyAll key modifiers).identifierOf other = tree.identifierOf other := by
  rw [identifierOf, get?_modifyAll, identifierOf]
  split
  · next same =>
    rw [same]
    cases tree.get? key <;> simp
  · rfl

end ViewMarkup.Tree
