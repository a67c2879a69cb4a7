import ViewMarkup.Proofs.Build.Naming

/-! # Calls on a builder and what they fail with

Whatever happens during a build is a call on the builder, and a call that fails has a reason of its
own, whether or not something failed before: the allocator has no identifier left, the level of a
container cannot be closed, or closing a level by hand is refused. The fault of a builder is the
first of these reasons. `Builder.failures` lists them all for a series of calls.
-/

namespace ViewMarkup

open ViewMarkup.Random

variable {γ : Type}

/-- A call on a builder. The content of a container starts with a call and is left with a call, and
the calls of the content stand between them. -/
inductive Call where
  | construct (kind : Kind)
  | modify (key : Key) (modifiers : List Modifier)
  | start (container : Key)
  | leave (token : Token) (container : Key)
  | beginCapture
  | endCapture (token : Token) (parent : Key)
deriving DecidableEq, Repr

namespace Builder

variable [Generator γ]

/-- The builder after a call. -/
def perform (builder : Builder γ) : Call → Builder γ
  | .construct kind => builder.construct kind
  | .modify key modifiers => builder.modify key modifiers
  | .start _ | .beginCapture => builder.beginCapture
  | .leave token container => builder.closeContainer token container
  | .endCapture token parent => (builder.endCapture token parent).2

/-- The builder after some calls. -/
def performAll (builder : Builder γ) (calls : List Call) : Builder γ :=
  calls.foldl perform builder

@[simp] theorem performAll_nil (builder : Builder γ) : builder.performAll [] = builder :=
  rfl

@[simp] theorem performAll_cons (builder : Builder γ) (call : Call) (rest : List Call) :
    builder.performAll (call :: rest) = (builder.perform call).performAll rest :=
  rfl

@[simp] theorem performAll_append (builder : Builder γ) (first second : List Call) :
    builder.performAll (first ++ second) = (builder.performAll first).performAll second :=
  List.foldl_append

/-- What a call fails with, if it fails. -/
def failure? (builder : Builder γ) : Call → Option BuildError
  | .construct _ =>
    match builder.ids.allocate with
    | .error cause => some (.identifier cause)
    | .ok _ => none
  | .leave token _ =>
    match builder.closeLevel token with
    | .error cause => some (.capture cause)
    | .ok _ => none
  | .endCapture token parent =>
    match (builder.endCapture token parent).1 with
    | .error error => some error
    | .ok () => none
  | .modify .. | .start _ | .beginCapture => none

/-- What some calls fail with, one after the other. -/
def failures (builder : Builder γ) : List Call → List BuildError
  | [] => []
  | call :: rest => (builder.failure? call).toList ++ (builder.perform call).failures rest

/-- A call that fails sets the fault, unless there is one. -/
theorem fault_perform (builder : Builder γ) (call : Call) :
    (builder.perform call).fault = builder.fault.or (builder.failure? call) := by
  cases call with
  | construct kind =>
    rw [perform, failure?, construct_eq_place, fault_place, nextIdentifier]
    cases builder.ids.allocate with
    | error cause => rfl
    | ok pair => exact Option.or_none.symm
  | leave token container =>
    rw [perform, failure?, closeContainer]
    cases closes : builder.closeLevel token with
    | error cause => rfl
    | ok pair =>
      rw [Option.or_none]
      exact (closeLevel_frame closes).2.2
  | endCapture token parent =>
    rw [perform, failure?, endCapture]
    cases closes : builder.closeLevel token with
    | error cause => rfl
    | ok pair =>
      obtain ⟨keys, closed⟩ := pair
      have kept := (closeLevel_frame closes).2.2
      dsimp only
      split
      · rw [Option.or_none]
        exact kept
      · rw [record, kept]
  | modify | start | beginCapture => exact Option.or_none.symm

/-- The fault after some calls is the first failure, that of the builder before them included. -/
theorem fault_performAll (builder : Builder γ) (calls : List Call) :
    (builder.performAll calls).fault = builder.fault.or (builder.failures calls).head? := by
  induction calls generalizing builder with
  | nil => exact Option.or_none.symm
  | cons call rest ih =>
    rw [performAll_cons, ih, fault_perform, failures, Option.or_assoc]
    cases builder.failure? call <;> rfl

theorem fault_performAll_of_fault {builder : Builder γ} {error : BuildError}
    (failed : builder.fault = some error) (calls : List Call) :
    (builder.performAll calls).fault = some error := by
  rw [fault_performAll, failed]
  rfl

end Builder

end ViewMarkup
