import ViewMarkup.Builder
import ViewMarkup.Program.Statement
import ViewMarkup.Proofs.Tree.Unfolding

/-! # Trees with the same links

Two trees are alike when they have the same keys, the same roots, and the same parent and children
at every key. Their nodes may differ, as far as a relation between them allows. Whatever adds nodes
or sets links keeps trees alike, and whatever is looked up along the links comes out the same in
both: the nodes above and below a node, the document, the node that a reference points at, and
whether a node can adopt others.
-/

namespace ViewMarkup

namespace Tree

theorem ext_cells {tree other : Tree} (cells : ∀ key, tree.cell? key = other.cell? key)
    (roots : tree.roots = other.roots) : tree = other := by
  obtain ⟨mine, _⟩ := tree
  obtain ⟨others, _⟩ := other
  obtain rfl : mine = others := Array.ext_getElem? cells
  obtain rfl := roots
  rfl

/-- The same links in both trees, and at every key two nodes that are related. -/
structure Like (same : Key → Node → Node → Prop) (first second : Tree) : Prop where
  size : second.size = first.size
  roots : second.roots = first.roots
  parents : ∀ key, second.parent? key = first.parent? key
  lists : ∀ key, second.children key = first.children key
  nodes : ∀ {key node other}, first.get? key = some node → second.get? key = some other →
    same key node other

variable {same wider : Key → Node → Node → Prop} {first second : Tree} {key : Key} {node : Node}

theorem exists_node (tree : Tree) (present : key < tree.size) :
    ∃ node, tree.get? key = some node := by
  obtain ⟨cell, found⟩ := tree.exists_cell present
  exact ⟨cell.node, by simp [get?, found]⟩

namespace Like

theorem refl (tree : Tree) (reflexive : ∀ key node, same key node node) : tree.Like same tree where
  size := rfl
  roots := rfl
  parents _ := rfl
  lists _ := rfl
  nodes {key node other} left right := by
    obtain rfl : node = other := Option.some.inj (left.symm.trans right)
    exact reflexive key node

theorem mono (like : first.Like same second)
    (weaker : ∀ {key node other}, key < first.size → same key node other → wider key node other) :
    first.Like wider second where
  size := like.size
  roots := like.roots
  parents := like.parents
  lists := like.lists
  nodes left right := weaker (lt_size_of_get? left) (like.nodes left right)

theorem exists_counterpart (like : first.Like same second) (read : first.get? key = some node) :
    ∃ other, second.get? key = some other ∧ same key node other := by
  have present : key < second.size := like.size.symm ▸ lt_size_of_get? read
  obtain ⟨other, found⟩ := second.exists_node present
  exact ⟨other, found, like.nodes read found⟩

/-- A part of a node that related nodes have in common is found under the same keys. -/
theorem map_get? {α : Type} (like : first.Like same second) (part : Node → α)
    (common : ∀ {key node other}, same key node other → part other = part node) (key : Key) :
    (second.get? key).map part = (first.get? key).map part := by
  cases read : first.get? key with
  | none =>
    have outside := (first.get?_eq_none_iff key).mp read
    rw [← like.size] at outside
    rw [(second.get?_eq_none_iff key).mpr outside]
  | some node =>
    obtain ⟨other, found, related⟩ := like.exists_counterpart read
    rw [found, Option.map_some, Option.map_some, common related]

theorem identifierOf_eq (like : first.Like same second)
    (named : ∀ {key node other}, same key node other → other.identifier = node.identifier)
    (key : Key) : second.identifierOf key = first.identifierOf key := by
  rw [identifierOf, identifierOf, like.map_get? _ named]

/-- Trees whose nodes are the same are the same. -/
theorem eq_of_same (like : first.Like (fun _ node other => other = node) second) :
    second = first := by
  apply ext_cells _ like.roots
  intro key
  have parents := like.parents key
  have lists := like.lists key
  have nodes := like.map_get? id (fun same => same) key
  simp only [parent?, children, get?] at parents lists nodes
  cases left : second.cell? key with
  | none =>
    cases right : first.cell? key with
    | none => rfl
    | some cell => simp [left, right] at nodes
  | some cell =>
    cases right : first.cell? key with
    | none => simp [left, right] at nodes
    | some other =>
      obtain ⟨node, parent, children⟩ := cell
      obtain ⟨node', parent', children'⟩ := other
      simp_all

theorem symm (like : first.Like same second) :
    second.Like (fun key node other => same key other node) first where
  size := like.size.symm
  roots := like.roots.symm
  parents key := (like.parents key).symm
  lists key := (like.lists key).symm
  nodes left right := like.nodes right left

theorem trans {third : Tree} {further : Key → Node → Node → Prop} (left : first.Like same second)
    (right : second.Like further third) :
    first.Like (fun key node other => ∃ between, same key node between ∧ further key between other)
      third where
  size := right.size.trans left.size
  roots := right.roots.trans left.roots
  parents key := (right.parents key).trans (left.parents key)
  lists key := (right.lists key).trans (left.lists key)
  nodes read found := by
    obtain ⟨between, seen, related⟩ := left.exists_counterpart read
    exact ⟨between, related, right.nodes seen found⟩

/-- A tree is determined by a tree that it is like, if the nodes are. -/
theorem determined {part : Key → Node → Node} {third : Tree}
    (left : first.Like (fun key node other => other = part key node) second)
    (right : first.Like (fun key node other => other = part key node) third) : third = second := by
  apply eq_of_same
  apply (left.symm.trans right).mono
  rintro key _ _ _ ⟨node, rfl, rfl⟩
  rfl

/-! ## Building -/

theorem insert (like : first.Like same second) {node other : Node}
    (related : same first.size node other) : (first.insert node).Like same (second.insert other) where
  size := by rw [size_insert, size_insert, like.size]
  roots := like.roots
  parents key := by rw [parent?_insert, parent?_insert, like.parents]
  lists key := by rw [children_insert, children_insert, like.lists]
  nodes {key _ _} left right := by
    rw [get?_insert] at left right
    rw [like.size] at right
    split at left
    · next fresh =>
      rw [if_pos fresh] at right
      cases left
      cases right
      rw [fresh]
      exact related
    · next old =>
      rw [if_neg old] at right
      exact like.nodes left right

theorem addRoot (like : first.Like same second) (key : Key) :
    (first.addRoot key).Like same (second.addRoot key) where
  size := like.size
  roots := by rw [Tree.addRoot, Tree.addRoot, like.roots]
  parents := like.parents
  lists := like.lists
  nodes := like.nodes

theorem attach (like : first.Like same second) (parent : Key) (keys : List Key) :
    (first.attach parent keys).Like same (second.attach parent keys) where
  size := by rw [size_attach, size_attach, like.size]
  roots := by rw [roots_attach, roots_attach, like.roots]
  parents key := by rw [parent?_attach, parent?_attach, like.size, like.parents]
  lists key := by rw [children_attach, children_attach, like.size, like.lists]
  nodes left right := by
    rw [get?_attach] at left right
    exact like.nodes left right

/-- Modifiers on one side move the relation at their own node only. -/
theorem modifyAll (like : first.Like same second) (key : Key) (modifiers : List Modifier)
    (related : ∀ {place node other}, place < first.size → same place node other →
      wider place node (if place = key then modifiers.foldl Node.modify other else other)) :
    first.Like wider (second.modifyAll key modifiers) where
  size := (second.size_modifyAll key modifiers).trans like.size
  roots := (second.roots_modifyAll key modifiers).trans like.roots
  parents place := (second.parent?_modifyAll key place modifiers).trans (like.parents place)
  lists place := (second.children_modifyAll key place modifiers).trans (like.lists place)
  nodes {place node _} left right := by
    obtain ⟨other, found, before⟩ := like.exists_counterpart left
    have after := related (lt_size_of_get? left) before
    rw [get?_modifyAll] at right
    split at right
    · next here =>
      rw [if_pos here] at after
      rw [← here, found] at right
      cases right
      exact after
    · next elsewhere =>
      rw [if_neg elsewhere] at after
      rw [found] at right
      cases right
      exact after

/-! ## Looking up along the links -/

theorem contains_eq (like : first.Like same second) (key : Key) :
    second.contains key = first.contains key := by
  rw [contains, contains, like.size]

theorem ancestors_eq (like : first.Like same second) (key : Key) :
    second.ancestors key = first.ancestors key := by
  have climbs (steps : Nat) : second.climb steps key = first.climb steps key := by
    induction steps generalizing key with
    | zero => rfl
    | succ steps ih =>
      rw [climb, climb, like.parents]
      cases first.parent? key with
      | none => rfl
      | some parent => exact congrArg (parent :: ·) (ih parent)
  rw [ancestors, ancestors, like.size, climbs]

theorem walk_eq (like : first.Like same second) (key : Key) :
    second.walk key = first.walk key := by
  have steps (walk : Walk) : walk.step second = walk.step first := by
    simp only [Walk.step, like.contains_eq, like.lists]
  have runs (count : Nat) (walk : Walk) : Walk.run second count walk = Walk.run first count walk := by
    induction count generalizing walk with
    | zero => rfl
    | succ count ih => rw [Walk.run, Walk.run, steps, ih]
  rw [walk, walk, like.size, runs]

theorem document_eq (like : first.Like same second) : second.document = first.document := by
  rw [document, document, like.roots, funext like.walk_eq]

theorem any_get? (like : first.Like same second) {test : Node → Bool}
    (common : ∀ {key node other}, same key node other → test other = test node) (key : Key) :
    (second.get? key).any test = (first.get? key).any test := by
  have mapped := like.map_get? test common key
  cases left : first.get? key <;> cases right : second.get? key <;> simp_all

theorem select_eq (like : first.Like same second) {test : Node → Bool}
    (common : ∀ {key node other}, same key node other → test other = test node) :
    second.select test = first.select test := by
  rw [select, select, like.document_eq]
  simp only [like.any_get? common]

theorem findIdentifier?_eq (like : first.Like same second)
    (named : ∀ {key node other}, same key node other → other.identifier = node.identifier)
    (identifier : String) :
    second.findIdentifier? identifier = first.findIdentifier? identifier := by
  have carries (key : Key) : (second.get? key).any (·.identifier == identifier) =
      (first.get? key).any (·.identifier == identifier) := by
    apply like.any_get?
    intro key node other related
    rw [named related]
  rw [findIdentifier?, findIdentifier?, like.document_eq]
  simp only [carries]

theorem resolve_eq (like : first.Like same second)
    (declared : ∀ {key node other}, same key node other → other.frame = node.frame) (key : Key)
    (style : StyleKey) : second.resolve key style = first.resolve key style := by
  rw [resolve, resolve, path, path, like.ancestors_eq]
  simp only [like.map_get? Node.frame declared]

theorem rooted (like : first.Like same second) (rooted : first.Rooted) : second.Rooted :=
  rooted.congr like.parents like.lists like.roots like.size

end Like

end Tree

variable {same : Key → Node → Node → Prop} {first second : Tree}

theorem Builder.canAdopt_eq (like : first.Like same second) (parent : Key) (keys : List Key) :
    canAdopt second parent keys = canAdopt first parent keys := by
  simp only [canAdopt, like.contains_eq, like.lists, like.ancestors_eq]

namespace Reference

/-- Whether a reference looks a node up by its identifier. -/
def usesIdentifier : Reference → Bool
  | identified _ => true
  | named _ | place _ | numbered _ | nothing => false

theorem descend_eq (like : first.Like same second) (steps : List Nat) (start : Key) :
    descend second steps start = descend first steps start := by
  induction steps generalizing start with
  | nil => rfl
  | cons step rest ih => simp only [descend, like.lists, ih]

/-- A reference points at the same node, if the name it may use stands for the same node and the
identifier it may use belongs to the same node. -/
theorem resolve_eq (like : first.Like same second) {names others : List (String × Key)}
    {reference : Reference}
    (lookups : ∀ name, reference = .named name → others.lookup name = names.lookup name)
    (named : reference.usesIdentifier = true →
      ∀ {key node other}, same key node other → other.identifier = node.identifier) :
    reference.resolve others second = reference.resolve names first := by
  have found : reference.find? others second = reference.find? names first := by
    cases reference with
    | named name => exact lookups name rfl
    | identified identifier => exact like.findIdentifier?_eq (named rfl) identifier
    | place steps =>
      cases steps with
      | nil => rfl
      | cons step rest => simp only [find?, like.roots, descend_eq like]
    | numbered _ => rfl
    | nothing => rfl
  rw [resolve, resolve, found, Tree.absent, Tree.absent, like.size]

end Reference

end ViewMarkup
