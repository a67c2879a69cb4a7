import Mathlib.Data.List.Nodup
import Mathlib.Data.Set.Function
import ViewMarkup.Proofs.Tree.Unfolding

/-! # The shape of a forest

The places of a forest are its nodes in document order, each with its depth and what is compared of
the node. They determine the forest as far as it is compared: the branches of a node end where the
depth falls back to that of the node. Two trees whose forests are alike in this way differ by a
renaming of keys, which is read off their documents.

In a coherent tree the depth of a place is the number of ancestors.
-/

namespace ViewMarkup

variable {α : Type} {compared : Node → α} {key : Key} {node : Node} {depth : ℕ}
  {below rest forest counterpart : List Branch}

namespace Branch

/-! ## Places -/

/-- The nodes of branches in document order, with their depths. -/
def places (compared : Node → α) (depth : ℕ) (forest : List Branch) : List (ℕ × α) :=
  (placementsAll depth forest).map fun placement => (placement.depth, compared placement.node)

theorem placementsAll_cons (depth : ℕ) (key : Key) (node : Node) (below rest : List Branch) :
    placementsAll depth (.mk key node below :: rest) =
      ⟨depth, key, node⟩ :: (placementsAll (depth + 1) below ++ placementsAll depth rest) :=
  rfl

theorem places_cons : places compared depth (.mk key node below :: rest) =
    (depth, compared node) ::
      (places compared (depth + 1) below ++ places compared depth rest) := by
  simp only [places, placementsAll_cons, List.map_cons, List.map_append]

/-- Whatever follows branches at a depth is higher up, or is at that depth again. -/
theorem head?_places_append {after : List (ℕ × α)}
    (higher : ∀ place ∈ after.head?, place.1 < depth) :
    ∀ place ∈ (places compared depth forest ++ after).head?, place.1 < depth + 1 := by
  intro place first
  cases forest with
  | nil => exact Nat.lt_succ_of_lt (higher place first)
  | cons branch rest =>
    obtain ⟨key, node, below⟩ := branch
    rw [places_cons] at first
    cases Option.some.inj first
    exact Nat.lt_succ_self depth

/-! ## Forests that are alike -/

/-- Two forests are nested alike, and what is compared of the nodes is the same. -/
inductive Alike (compared : Node → α) : List Branch → List Branch → Prop
  | nil : Alike compared [] []
  | cons {key otherKey : Key} {node other : Node} {below inside rest others : List Branch}
      (same : compared other = compared node) (down : Alike compared below inside)
      (across : Alike compared rest others) :
      Alike compared (.mk key node below :: rest) (.mk otherKey other inside :: others)

theorem Alike.length_preorderAll (alike : Alike compared forest counterpart) :
    (preorderAll counterpart).length = (preorderAll forest).length := by
  induction alike with
  | nil => rfl
  | cons _ _ _ down across =>
    simp only [preorderAll_cons, List.length_cons, List.length_append, down, across]

end Branch

open Branch

namespace Tree

variable {tree first second : Tree} {keys others : List Key}

/-- Equal places come from forests that are alike. The places that follow are further up, so that it
is seen where the forests end. -/
theorem Unfolds.alike_of_places (unfolds : tree.Unfolds keys forest) {after behind : List (ℕ × α)}
    (higher : ∀ place ∈ after.head?, place.1 < depth)
    (higherToo : ∀ place ∈ behind.head?, place.1 < depth)
    (same : places compared depth forest ++ after = places compared depth counterpart ++ behind) :
    Alike compared forest counterpart ∧ after = behind := by
  induction unfolds generalizing depth counterpart after behind with
  | nil =>
    cases counterpart with
    | nil => exact ⟨.nil, same⟩
    | cons branch rest =>
      obtain ⟨key, node, below⟩ := branch
      rw [places_cons] at same
      subst same
      exact absurd (higher _ rfl) (Nat.lt_irrefl depth)
  | @cons key rest node below others _ _ _ down across =>
    cases counterpart with
    | nil =>
      rw [places_cons] at same
      subst same
      exact absurd (higherToo _ rfl) (Nat.lt_irrefl depth)
    | cons branch remaining =>
      obtain ⟨otherKey, other, inside⟩ := branch
      rw [places_cons, places_cons, List.cons_append, List.cons_append, List.cons_eq_cons,
        Prod.mk.injEq, List.append_assoc, List.append_assoc] at same
      obtain ⟨⟨_, labels⟩, same⟩ := same
      -- First the branches below, whose places end where the depth falls back to that of the node.
      obtain ⟨alikeBelow, same⟩ :=
        down (head?_places_append higher) (head?_places_append higherToo) same
      obtain ⟨alikeBeside, same⟩ := across higher higherToo same
      exact ⟨.cons labels.symm alikeBelow alikeBeside, same⟩

/-! ## Renaming keys -/

/-- A renaming of keys carries one tree onto another: it pairs their nodes, in the order of the
documents, and keeps the roots, the children of every node and what is compared of the nodes. -/
structure Carries (first : Tree) (compared : Node → α) (image : Key → Key) (second : Tree) :
    Prop where
  pairs : Set.BijOn image {key | first.contains key} {key | second.contains key}
  document : second.document = first.document.map image
  roots : second.roots.toList = first.roots.toList.map image
  children : ∀ key, first.contains key →
    second.children (image key) = (first.children key).map image
  nodes : ∀ key, first.contains key →
    (second.get? (image key)).map compared = (first.get? key).map compared

/-- What forests that are alike say of the links, when the keys of the one are renamed to those of
the other. -/
theorem Unfolds.renamed (left : first.Unfolds keys forest)
    (right : second.Unfolds others counterpart) (alike : Alike compared forest counterpart)
    {image : Key → Key}
    (renamed : preorderAll counterpart = (preorderAll forest).map image) :
    others = keys.map image ∧ ∀ key ∈ preorderAll forest,
      second.children (image key) = (first.children key).map image ∧
        (second.get? (image key)).map compared = (first.get? key).map compared := by
  induction left generalizing others counterpart with
  | nil =>
    cases alike
    cases right
    exact ⟨rfl, by simp [preorderAll]⟩
  | @cons key rest node below remaining read _ _ down across =>
    cases alike with
    | cons same alikeBelow alikeBeside =>
    cases right with
    | cons readToo rightBelow rightBeside =>
    rw [preorderAll_cons, preorderAll_cons, List.map_cons, List.map_append] at renamed
    obtain ⟨rfl, later⟩ := List.cons_eq_cons.mp renamed
    obtain ⟨inside, beside⟩ := List.append_inj later
      (alikeBelow.length_preorderAll.trans (List.length_map _).symm)
    obtain ⟨listed, linkedBelow⟩ := down rightBelow alikeBelow inside
    obtain ⟨rfl, linkedBeside⟩ := across rightBeside alikeBeside beside
    refine ⟨rfl, fun member within => ?_⟩
    rw [preorderAll_cons, List.mem_cons, List.mem_append] at within
    rcases within with rfl | lower | level
    · exact ⟨listed, by rw [read, readToo, Option.map_some, Option.map_some, same]⟩
    · exact linkedBelow member lower
    · exact linkedBeside member level

theorem exists_renaming {keys : List Key} (distinct : keys.Nodup) {others : List Key}
    (lengths : others.length = keys.length) : ∃ image : Key → Key, others = keys.map image := by
  refine ⟨fun key => others.getD (keys.idxOf key) 0, ?_⟩
  refine List.ext_getElem (by rw [List.length_map, lengths]) fun place bound _ => ?_
  rw [List.getElem_map, distinct.idxOf_getElem, List.getD_eq_getElem?_getD,
    List.getElem?_eq_getElem bound, Option.getD_some]

/-- Trees whose forests are alike differ by a renaming of keys. -/
theorem Owned.exists_carries (owned : first.Owned) (ownedToo : second.Owned)
    (alike : Alike compared first.forest second.forest) :
    ∃ image, first.Carries compared image second := by
  have lengths : second.document.length = first.document.length := by
    rw [ownedToo.document_eq_preorderAll, owned.document_eq_preorderAll, alike.length_preorderAll]
  obtain ⟨image, document⟩ := exists_renaming owned.nodup_document lengths
  have renamed := document
  rw [ownedToo.document_eq_preorderAll, owned.document_eq_preorderAll] at renamed
  obtain ⟨roots, links⟩ := owned.unfolds_forest.renamed ownedToo.unfolds_forest alike renamed
  have visited {key : Key} (inside : first.contains key = true) : key ∈ first.document :=
    owned.mem_document.mpr ((first.contains_iff key).mp inside)
  have linked {key : Key} (inside : first.contains key = true) :=
    links key (owned.document_eq_preorderAll ▸ visited inside)
  have images : second.document.Nodup := ownedToo.nodup_document
  refine ⟨image, ⟨?_, ?_, ?_⟩, document, roots, fun key inside => (linked inside).1,
    fun key inside => (linked inside).2⟩
  · intro key inside
    have member : image key ∈ second.document := document ▸ List.mem_map_of_mem (visited inside)
    exact (second.contains_iff _).mpr (ownedToo.mem_document.mp member)
  · intro key inside other insideToo same
    exact List.inj_on_of_nodup_map (document ▸ images) (visited inside) (visited insideToo) same
  · intro key inside
    have member := ownedToo.mem_document.mpr ((second.contains_iff key).mp inside)
    rw [document] at member
    obtain ⟨original, listed, same⟩ := List.mem_map.mp member
    exact ⟨original, (first.contains_iff _).mpr (owned.mem_document.mp listed), same⟩

/-! ## Depths -/

/-- Branches of nodes with as many ancestors as the depth says have every node at the depth of its
ancestors. -/
theorem Unfolds.placements (coherent : tree.Coherent) (unfolds : tree.Unfolds keys forest)
    (level : ∀ key ∈ keys, (tree.ancestors key).length = depth) :
    (placementsAll depth forest).map Placement.key = preorderAll forest ∧
      ∀ placement ∈ placementsAll depth forest, tree.get? placement.key = some placement.node ∧
        (tree.ancestors placement.key).length = placement.depth := by
  induction unfolds generalizing depth with
  | nil => exact ⟨rfl, by simp [placementsAll]⟩
  | @cons key rest node below others read _ _ down across =>
    obtain ⟨here, beside⟩ := List.forall_mem_cons.mp level
    have lower : ∀ child ∈ tree.children key, (tree.ancestors child).length = depth + 1 := by
      intro child listed
      rw [coherent.ancestors_of_parent (coherent.child_up listed), List.length_cons, here]
    obtain ⟨keysBelow, placedBelow⟩ := down lower
    obtain ⟨keysBeside, placedBeside⟩ := across beside
    rw [placementsAll_cons, List.map_cons, List.map_append, keysBelow, keysBeside, preorderAll_cons]
    refine ⟨rfl, List.forall_mem_cons.mpr ⟨⟨read, here⟩, ?_⟩⟩
    exact List.forall_mem_append.mpr ⟨placedBelow, placedBeside⟩

end Tree

end ViewMarkup
