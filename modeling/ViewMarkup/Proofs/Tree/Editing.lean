import Mathlib.Data.List.Induction
import ViewMarkup.Proofs.Markup.Depiction
import ViewMarkup.Proofs.Tree.Modifying

/-! # Calls on the nodes of a tree

A modifier sets one slot of one node. Calls on different nodes or for different slots can be made in
either order, and of several calls for the same slot of a node the last one counts. So a tree after
some calls depends only on the last call for each slot of each node.
-/

namespace ViewMarkup

/-! ## Steps of which the last one counts -/

section LastWins

variable {σ α π : Type} [DecidableEq π] {act : σ → α → σ} {place : α → π}

/-- The last of the steps at a place. -/
def lastAt (place : α → π) (target : π) (steps : List α) : Option α :=
  (steps.filter (place · = target)).getLast?

theorem lastAt_concat (target : π) (steps : List α) (step : α) :
    lastAt place target (steps ++ [step]) =
      if place step = target then some step else lastAt place target steps := by
  rw [lastAt, List.filter_append]
  split
  · next here => simp [here]
  · next elsewhere => simp [elsewhere, lastAt]

theorem lastAt_filter_ne (target other : π) (steps : List α) :
    lastAt place target (steps.filter (place · ≠ other)) =
      if target = other then none else lastAt place target steps := by
  rw [lastAt, List.filter_filter]
  split
  · next same =>
    have nothing : steps.filter (fun step => decide (place step = target) &&
        decide (place step ≠ other)) = [] := by
      apply List.filter_eq_nil_iff.mpr
      intro step _
      simp [same]
    rw [nothing, List.getLast?_nil]
  · next apart =>
    rw [lastAt]
    congr 1
    apply List.filter_congr
    intro step _
    by_cases here : place step = target
    · simp [here, apart]
    · simp [here]

/-- A step undoes the steps before it at its own place, and does not meet steps at other places. -/
structure LastWins (act : σ → α → σ) (place : α → π) : Prop where
  absorb : ∀ (state : σ) {first second : α}, place first = place second →
    act (act state first) second = act state second
  comm : ∀ (state : σ) {first second : α}, place first ≠ place second →
    act (act state first) second = act (act state second) first

namespace LastWins

/-- Before a step, the steps at its place can be left out. -/
theorem act_foldl (wins : LastWins act place) (state : σ) (steps : List α) (last : α) :
    act (steps.foldl act state) last =
      act ((steps.filter (place · ≠ place last)).foldl act state) last := by
  induction steps using List.reverseRecOn with
  | nil => rfl
  | append_singleton steps step ih =>
    rw [List.foldl_concat, List.filter_append]
    by_cases here : place step = place last
    · rw [wins.absorb _ here, ih]
      simp [here]
    · rw [wins.comm _ here, ih, wins.comm _ (Ne.symm here)]
      simp [here]

/-- The last step at a place can be made at the very end, without the others at that place. -/
theorem foldl_of_lastAt (wins : LastWins act place) (state : σ) {steps : List α} {last : α}
    (found : lastAt place (place last) steps = some last) :
    steps.foldl act state = act ((steps.filter (place · ≠ place last)).foldl act state) last := by
  induction steps using List.reverseRecOn with
  | nil => contradiction
  | append_singleton steps step ih =>
    rw [lastAt_concat] at found
    rw [List.foldl_concat, List.filter_append]
    split at found
    · next here =>
      cases found
      rw [wins.act_foldl]
      simp
    · next elsewhere =>
      rw [ih found, wins.comm _ (Ne.symm elsewhere)]
      simp [elsewhere]

/-- Steps with the same last one at every place come to the same. -/
theorem foldl_eq (wins : LastWins act place) (state : σ) {first second : List α}
    (lasts : ∀ target, lastAt place target first = lastAt place target second) :
    first.foldl act state = second.foldl act state := by
  -- Both end in the same step; without its place they are shorter and have the same last steps.
  induction count : first.length using Nat.strong_induction_on generalizing first second with
  | _ count ih =>
    rcases first.eq_nil_or_concat' with rfl | ⟨initial, last, rfl⟩
    · rcases second.eq_nil_or_concat' with rfl | ⟨initial, last, rfl⟩
      · rfl
      · have none := lasts (place last)
        rw [lastAt_concat, if_pos rfl] at none
        contradiction
    · have left : lastAt place (place last) (initial ++ [last]) = some last := by
        rw [lastAt_concat, if_pos rfl]
      have right := (lasts (place last)).symm.trans left
      rw [wins.foldl_of_lastAt state left, wins.foldl_of_lastAt state right]
      refine congrArg (act · last) (ih _ ?_ (fun target => ?_) rfl)
      · rw [← count, List.filter_append, List.length_append, List.length_append]
        have fewer := List.length_filter_le (place · ≠ place last) initial
        simpa using Nat.lt_succ_of_le fewer
      · rw [lastAt_filter_ne, lastAt_filter_ne, lasts]

end LastWins

end LastWins

/-! ## The slots of a node -/

/-- What a modifier sets in a node. -/
inductive Slot where
  | padding
  | background
  | foregroundStyle
  | font
  | style (key : StyleKey)
deriving DecidableEq, Repr, Inhabited

/-- The slot that a modifier sets. -/
def Modifier.slot : Modifier → Slot
  | .padding _ => .padding
  | .background _ => .background
  | .foregroundStyle _ => .foregroundStyle
  | .font _ => .font
  | .style key _ => .style key

@[simp] theorem Kind.withFont_withFont (kind : Kind) (first second : String) :
    (kind.withFont first).withFont second = kind.withFont second := by
  cases kind <;> rfl

@[simp] theorem Frame.declare_declare (frame : Frame) (key : StyleKey) (first second : String) :
    (frame.declare key first).declare key second = frame.declare key second := by
  cases key <;> rfl

theorem Frame.declare_comm (frame : Frame) {key other : StyleKey} (apart : key ≠ other)
    (first second : String) :
    (frame.declare key first).declare other second =
      (frame.declare other second).declare key first := by
  cases key <;> cases other <;> first | rfl | contradiction

namespace Node

theorem modify_absorb (node : Node) {first second : Modifier} (same : first.slot = second.slot) :
    (node.modify first).modify second = node.modify second := by
  cases first <;> cases second <;> simp_all [Modifier.slot, modify]

theorem modify_comm (node : Node) {first second : Modifier} (apart : first.slot ≠ second.slot) :
    (node.modify first).modify second = (node.modify second).modify first := by
  cases first with
  | style key token =>
    cases second with
    | style other token =>
      have keys : key ≠ other := fun same => apart (congrArg Slot.style same)
      simp only [modify, Frame.declare_comm _ keys]
    | _ => rfl
  | _ => cases second <;> first | rfl | exact (apart rfl).elim

/-- A node after the calls that are made on its key. -/
def edited (node : Node) (key : Key) (edits : List (Key × Modifier)) : Node :=
  ((edits.filter (·.1 = key)).map Prod.snd).foldl modify node

theorem edited_append (node : Node) (key : Key) (first second : List (Key × Modifier)) :
    node.edited key (first ++ second) = (node.edited key first).edited key second := by
  simp [edited]

theorem edited_map (node : Node) (key place : Key) (modifiers : List Modifier) :
    node.edited place (modifiers.map (key, ·)) =
      if place = key then modifiers.foldl modify node else node := by
  rw [edited, List.filter_map]
  split
  · next here => simp [here, Function.comp_def]
  · next elsewhere => simp [Ne.symm elsewhere, Function.comp_def]

theorem edited_of_absent (node : Node) {key : Key} {edits : List (Key × Modifier)}
    (absent : ∀ edit ∈ edits, edit.1 ≠ key) : node.edited key edits = node := by
  have nothing : edits.filter (·.1 = key) = [] := by
    apply List.filter_eq_nil_iff.mpr
    intro edit member
    simpa using absent edit member
  rw [edited, nothing]
  rfl

end Node

namespace Tree

variable (tree : Tree)

theorem modify_absorb (key : Key) {first second : Modifier} (same : first.slot = second.slot) :
    (tree.modify key first).modify key second = tree.modify key second := by
  refine ext_cells (fun place => ?_) rfl
  simp only [modify, cell?_update]
  split
  · rw [if_pos trivial, Option.map_map]
    simp only [Function.comp_def, Node.modify_absorb _ same]
  · rfl

/-- Of the calls for a slot of a node the last one counts. -/
theorem lastWins_modify :
    LastWins (fun (tree : Tree) (edit : Key × Modifier) => tree.modify edit.1 edit.2)
      (fun edit => (edit.1, edit.2.slot)) where
  absorb := by
    rintro tree ⟨key, first⟩ ⟨other, second⟩ same
    obtain ⟨rfl, slots⟩ := Prod.mk.inj same
    exact tree.modify_absorb key slots
  comm := by
    rintro tree ⟨key, first⟩ ⟨other, second⟩ apart
    refine tree.update_comm other fun same cell => ?_
    have slots : second.slot ≠ first.slot := by
      intro equal
      exact apart (by rw [same, equal])
    simp only [Node.modify_comm cell.node slots.symm]

/-- The last of some calls for a slot of a node. -/
def lastCall? (edits : List (Key × Modifier)) (key : Key) (slot : Slot) : Option (Key × Modifier) :=
  lastAt (fun edit => (edit.1, edit.2.slot)) (key, slot) edits

theorem edit_eq_of_lastCall? {first second : List (Key × Modifier)}
    (lasts : ∀ key slot, lastCall? first key slot = lastCall? second key slot) :
    tree.edit first = tree.edit second :=
  lastWins_modify.foldl_eq tree fun target => lasts target.1 target.2

/-- Calls leave the links alone, and every node is edited by the calls on its key. -/
theorem like_edit (edits : List (Key × Modifier)) :
    tree.Like (fun key node other => other = node.edited key edits) (tree.edit edits) := by
  induction edits using List.reverseRecOn with
  | nil => exact .refl tree fun _ _ => rfl
  | append_singleton edits call ih =>
    rw [edit, List.foldl_concat]
    apply ih.modifyAll call.1 [call.2]
    rintro place node _ _ rfl
    rw [Node.edited_append]
    exact (Node.edited_map _ call.1 place [call.2]).symm

end Tree

end ViewMarkup
