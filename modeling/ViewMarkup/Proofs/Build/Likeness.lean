import ViewMarkup.Proofs.Build.Naming
import ViewMarkup.Proofs.Tree.Likeness

/-! # Builders with the same links

Two builders are alike when their trees are, when the same levels are open in both, and when both
have failed or neither has. Events are left aside, and so are allocators: what comes after the
choice of an identifier happens alike in both. If moreover the nodes are named alike, then both
have failed for the same reason.
-/

namespace ViewMarkup

open ViewMarkup.Random

namespace Builder

variable {γ δ : Type} {same : Key → Node → Node → Prop} {named : Prop} {first : Builder γ}
  {second : Builder δ}

/-- The trees are alike, and the builders stand at the same point of a build. The faults are the same
if the nodes are named alike. -/
structure Like (same : Key → Node → Node → Prop) (named : Prop) (first : Builder γ)
    (second : Builder δ) : Prop where
  tree : first.tree.Like same second.tree
  stack : second.stack = first.stack
  sound : second.fault.isNone = first.fault.isNone
  fault : named → second.fault = first.fault

namespace Like

theorem fault_eq_none (like : first.Like same named second) :
    second.fault = none ↔ first.fault = none := by
  rw [← Option.isNone_iff_eq_none, like.sound, Option.isNone_iff_eq_none]

theorem record (like : first.Like same named second) {error other : BuildError}
    (alike : named → other = error) :
    (first.record error).Like same named (second.record other) where
  tree := like.tree
  stack := like.stack
  sound := by
    rw [Builder.record, Builder.record]
    cases first.fault <;> cases second.fault <;> rfl
  fault holds := by rw [Builder.record, Builder.record, like.fault holds, alike holds]

theorem place (like : first.Like same named second) {node other : Node}
    (related : same first.tree.size node other) :
    (first.place node).Like same named (second.place other) := by
  have inserted := like.tree.insert related
  rw [Builder.place, Builder.place, like.stack, like.tree.size]
  split
  · exact ⟨inserted, rfl, like.sound, like.fault⟩
  · exact ⟨inserted.addRoot _, rfl, like.sound, like.fault⟩

theorem beginCapture (like : first.Like same named second) :
    first.beginCapture.Like same named second.beginCapture where
  tree := like.tree
  stack := congrArg CaptureStack.openLevel like.stack
  sound := like.sound
  fault := like.fault

theorem attach (like : first.Like same named second) (parent : Key) (keys : List Key) :
    Like same named { first with tree := first.tree.attach parent keys }
      { second with tree := second.tree.attach parent keys } where
  tree := like.tree.attach parent keys
  stack := like.stack
  sound := like.sound
  fault := like.fault

/-- A level is closed in both or in neither, with the same nodes or for the same reason. -/
theorem closeLevel (like : first.Like same named second) (token : Token) :
    (∃ cause, first.closeLevel token = .error cause ∧ second.closeLevel token = .error cause) ∨
      ∃ keys closed counterpart, first.closeLevel token = .ok (keys, closed) ∧
        second.closeLevel token = .ok (keys, counterpart) ∧
        closed.Like same named counterpart := by
  rw [Builder.closeLevel, Builder.closeLevel, like.stack]
  cases first.stack.closeLevel token with
  | error cause => exact .inl ⟨cause, rfl, rfl⟩
  | ok pair =>
    obtain ⟨keys, stack⟩ := pair
    exact .inr ⟨keys, _, _, rfl, rfl, like.tree, rfl, like.sound, like.fault⟩

theorem closeContainer (like : first.Like same named second) (token : Token) (key : Key) :
    (first.closeContainer token key).Like same named (second.closeContainer token key) := by
  rw [Builder.closeContainer, Builder.closeContainer]
  rcases like.closeLevel token with
    ⟨cause, left, right⟩ | ⟨keys, closed, counterpart, left, right, within⟩
  · rw [left, right]
    exact like.record fun _ => rfl
  · rw [left, right]
    exact within.attach key keys

/-- A parent is refused in both or in neither; only the identifier in the error can differ. -/
theorem endCapture (like : first.Like same named second)
    (alike : named → ∀ {key node other}, same key node other → other.identifier = node.identifier)
    (token : Token) (parent : Key) :
    (first.endCapture token parent).2.Like same named (second.endCapture token parent).2 := by
  rw [Builder.endCapture, Builder.endCapture]
  rcases like.closeLevel token with
    ⟨cause, left, right⟩ | ⟨keys, closed, counterpart, left, right, within⟩
  · rw [left, right]
    exact like.record fun _ => rfl
  · simp only [left, right, canAdopt_eq within.tree]
    split
    · exact within.attach parent keys
    · apply within.record
      intro holds
      rw [within.tree.identifierOf_eq (alike holds)]

/-- Builds that are alike end well or not alike, and with trees that are alike. -/
theorem outcome (like : first.Like same named second) :
    (∃ error other, first.outcome = .error error ∧ second.outcome = .error other ∧
      (named → other = error)) ∨
    first.outcome = .ok first.tree ∧ second.outcome = .ok second.tree := by
  rw [Builder.outcome, Builder.outcome, like.stack]
  have sound := like.sound
  cases left : first.fault with
  | some error =>
    cases right : second.fault with
    | none => simp [left, right] at sound
    | some other =>
      refine .inl ⟨error, other, rfl, rfl, fun holds => ?_⟩
      have faults := like.fault holds
      rw [left, right] at faults
      exact Option.some.inj faults
  | none =>
    cases right : second.fault with
    | some other => simp [left, right] at sound
    | none =>
      cases first.stack.finish with
      | error cause => exact .inl ⟨_, _, rfl, rfl, fun _ => rfl⟩
      | ok => exact .inr ⟨rfl, rfl⟩

end Like

end Builder

end ViewMarkup
