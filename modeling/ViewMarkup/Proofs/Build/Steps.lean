import Mathlib.Control.Monad.Basic
import Mathlib.Logic.Relation
import ViewMarkup.Proofs.Build.Levels
import ViewMarkup.Program.Session

/-! # The steps of a build

A build moves from moment to moment: a node is constructed or modified, the content of a container
starts or ends, a level is opened or closed by hand. A moment is a builder together with the
containers whose contents are running. Tokens and parents are arbitrary, so the steps include every
misuse of a level, and they go on after a failure.

`Moment.Spares` is the one restraint that some results need: no level closed by hand gives nodes to
a container whose content is still running, since that container would replace them at its end.
Steps are orderly when they keep to it. Running a program takes steps only, and takes orderly ones
when the program spares running containers.
-/

namespace ViewMarkup

open ViewMarkup.Random Relation

variable {γ : Type}

/-- A container whose content is running, and the token of the level opened for it. -/
structure Scope where
  key : Key
  token : Token
deriving DecidableEq, Repr, Inhabited

/-- A builder, and the containers whose contents are running, the innermost first. -/
structure Moment (γ : Type) where
  builder : Builder γ
  scopes : List Scope := []

namespace Moment

/-- Closing a level by hand gives no nodes to a container whose content is running. -/
def Spares (moment : Moment γ) (token : Token) (parent : Key) : Prop :=
  (moment.builder.endCapture token parent).1 = .ok () → moment.builder.stack.collected ≠ [] →
    ∀ scope ∈ moment.scopes, scope.key ≠ parent

/-- Constructs a container and starts its content. -/
def enter [Generator γ] (moment : Moment γ) (kind : Kind) : Moment γ :=
  let opened := (moment.builder.construct kind).beginCapture
  ⟨opened, ⟨moment.builder.tree.size, opened.stack.token⟩ :: moment.scopes⟩

/-- One step of a build. Content starts only without a fault; every other step is always open. -/
inductive Step [Generator γ] (orderly : Prop) : Moment γ → Moment γ → Prop
  | construct (moment : Moment γ) (kind : Kind) :
      Step orderly moment { moment with builder := moment.builder.construct kind }
  | modify (moment : Moment γ) (key : Key) (modifiers : List Modifier) :
      Step orderly moment { moment with builder := moment.builder.modify key modifiers }
  | enter (moment : Moment γ) (kind : Kind)
      (sound : (moment.builder.construct kind).fault = none) :
      Step orderly moment (moment.enter kind)
  | leave (builder : Builder γ) (scope : Scope) (scopes : List Scope) :
      Step orderly ⟨builder, scope :: scopes⟩ ⟨builder.closeContainer scope.token scope.key, scopes⟩
  | beginCapture (moment : Moment γ) :
      Step orderly moment { moment with builder := moment.builder.beginCapture }
  | endCapture (moment : Moment γ) (token : Token) (parent : Key)
      (spared : orderly → moment.Spares token parent) :
      Step orderly moment { moment with builder := (moment.builder.endCapture token parent).2 }

/-- The moments that steps lead to from a fresh builder, whatever its allocator. -/
def Reachable [Generator γ] (orderly : Prop) (moment : Moment γ) : Prop :=
  ∃ ids : Allocator γ, ReflTransGen (Step orderly) { builder := { ids } } moment

end Moment

/-! ## Programs take steps -/

mutual

/-- Running the statement spares the containers whose contents are running. -/
def Statement.Spares [Generator γ] (scopes : List Scope) (session : Session γ) : Statement → Prop
  | .container kind content _ =>
    (session.construct kind).builder.fault = none →
      Program.Spares (Moment.enter ⟨session.builder, scopes⟩ kind).scopes
        (session.construct kind).openContainer content
  | .endCapture token parent =>
    ∀ taken ∈ session.takeToken? token, Moment.Spares ⟨session.builder, scopes⟩ taken.1
      (parent.resolve taken.2.names taken.2.builder.tree)
  | .leaf .. | .beginCapture _ | .snapshot => True

/-- Running the program spares the containers whose contents are running. -/
def Program.Spares [Generator γ] (scopes : List Scope) (session : Session γ) :
    List Statement → Prop
  | [] => True
  | statement :: rest =>
    statement.Spares scopes session ∧ Program.Spares scopes (statement.run session) rest

end

instance Moment.decidableSpares (moment : Moment γ) (token : Token) (parent : Key) :
    Decidable (moment.Spares token parent) :=
  inferInstanceAs (Decidable ((_ : _ = _) → _ ≠ _ → ∀ scope ∈ moment.scopes, scope.key ≠ parent))

mutual

/-- Decides by running the statement. -/
def Statement.decideSpares [Generator γ] (scopes : List Scope) (session : Session γ) :
    (statement : Statement) → Decidable (statement.Spares scopes session)
  | .container kind content _ =>
    letI := Program.decideSpares (Moment.enter ⟨session.builder, scopes⟩ kind).scopes
      (session.construct kind).openContainer content
    inferInstanceAs (Decidable (_ = none → _))
  | .endCapture token _ =>
    inferInstanceAs (Decidable (∀ taken ∈ session.takeToken? token, Moment.Spares _ taken.1 _))
  | .leaf .. | .beginCapture _ | .snapshot => .isTrue trivial

/-- Decides by running the program. -/
def Program.decideSpares [Generator γ] (scopes : List Scope) (session : Session γ) :
    (program : List Statement) → Decidable (Program.Spares scopes session program)
  | [] => .isTrue trivial
  | statement :: rest =>
    letI := statement.decideSpares scopes session
    letI := Program.decideSpares scopes (statement.run session) rest
    inferInstanceAs (Decidable (_ ∧ _))

end

instance [Generator γ] (scopes : List Scope) (session : Session γ) (program : Program) :
    Decidable (Program.Spares scopes session program) :=
  Program.decideSpares scopes session program

namespace Session

@[simp] theorem builder_finishNode (session : Session γ) (key : Key) (finish : Finish) :
    (session.finishNode key finish).builder = session.builder.modify key finish.modifiers := by
  obtain ⟨modifiers, name, label⟩ := finish
  cases name <;> cases label <;> rfl

theorem names_finishNode (session : Session γ) (key : Key) (finish : Finish) :
    (session.finishNode key finish).names = finish.name.toList.map (·, key) ++ session.names := by
  obtain ⟨modifiers, name, label⟩ := finish
  cases name <;> cases label <;> rfl

theorem tokens_finishNode (session : Session γ) (key : Key) (finish : Finish) :
    (session.finishNode key finish).tokens = session.tokens := by
  obtain ⟨modifiers, name, label⟩ := finish
  cases name <;> cases label <;> rfl

/-- Taking a token changes what is stored, and nothing of the build. -/
theorem builder_takeToken? {session rest : Session γ} {reference : TokenReference} {token : Token}
    (taken : session.takeToken? reference = some (token, rest)) :
    rest.builder = session.builder := by
  cases reference with
  | forged token => cases taken; rfl
  | stored name =>
    obtain ⟨_, _, same⟩ := Option.map_eq_some_iff.mp taken
    cases same
    rfl

theorem builder_endCapture (session : Session γ) (token : TokenReference) (parent : Reference) :
    (session.endCapture token parent).builder =
      match session.takeToken? token with
      | none => session.builder
      | some (token, rest) =>
        (session.builder.endCapture token (parent.resolve rest.names rest.builder.tree)).2 := by
  rw [endCapture]
  cases taken : session.takeToken? token with
  | none => rfl
  | some pair =>
    obtain ⟨token, rest⟩ := pair
    rw [← builder_takeToken? taken]
    rfl

end Session

section Container

variable [Generator γ] {session : Session γ} {kind : Kind}

/-- A container without a fault runs its content in a level of its own and takes what it holds. -/
theorem Statement.run_container (content : Program) (finish : Finish)
    (sound : (session.construct kind).builder.fault = none) :
    (Statement.container kind content finish).run session =
      ((Program.run (session.construct kind).openContainer content).closeContainer
        (session.construct kind).openContainer.builder.stack.token
        session.builder.tree.size).finishNode session.builder.tree.size finish := by
  rw [Statement.run]
  simp only [sound, Option.isNone_none, if_true]

/-- After a fault no content is run. -/
theorem Statement.run_container_of_fault (content : Program) (finish : Finish)
    (failed : (session.construct kind).builder.fault ≠ none) :
    (Statement.container kind content finish).run session =
      (session.construct kind).finishNode session.builder.tree.size finish := by
  rw [Statement.run]
  simp only [Option.isNone_iff_eq_none, failed, if_false]

theorem Statement.builder_run_container (content : Program) (finish : Finish)
    (sound : (session.construct kind).builder.fault = none) :
    ((Statement.container kind content finish).run session).builder =
      ((Program.run (session.construct kind).openContainer content).builder.closeContainer
        (session.construct kind).openContainer.builder.stack.token
        session.builder.tree.size).modify session.builder.tree.size finish.modifiers := by
  rw [Statement.run_container content finish sound, Session.builder_finishNode]
  rfl

theorem Statement.builder_run_container_of_fault (content : Program) (finish : Finish)
    (failed : (session.construct kind).builder.fault ≠ none) :
    ((Statement.container kind content finish).run session).builder =
      (session.builder.construct kind).modify session.builder.tree.size finish.modifiers := by
  rw [Statement.run_container_of_fault content finish failed, Session.builder_finishNode]
  rfl

end Container

mutual

/-- Running a statement takes steps, and the containers around it stay open. -/
theorem Statement.run_steps [Generator γ] {orderly : Prop} (scopes : List Scope)
    (session : Session γ) (statement : Statement)
    (spared : orderly → statement.Spares scopes session) :
    ReflTransGen (Moment.Step orderly) ⟨session.builder, scopes⟩
      ⟨(statement.run session).builder, scopes⟩ := by
  cases statement with
  | leaf kind finish =>
    rw [Statement.run, Session.builder_finishNode]
    exact .tail (.single (.construct _ kind)) (.modify _ _ finish.modifiers)
  | container kind content finish =>
    by_cases sound : (session.construct kind).builder.fault = none
    · -- Three stages: the content starts, runs, and ends with the container it started with.
      rw [Statement.builder_run_container content finish sound]
      refine .tail ?_ (.modify ⟨_, scopes⟩ session.builder.tree.size finish.modifiers)
      let opened := (session.construct kind).openContainer
      let scope : Scope := ⟨session.builder.tree.size, opened.builder.stack.token⟩
      have starts : ReflTransGen (Moment.Step orderly) ⟨session.builder, scopes⟩
          ⟨opened.builder, scope :: scopes⟩ :=
        .single (.enter ⟨session.builder, scopes⟩ kind sound)
      have runs := Program.run_steps (scope :: scopes) opened content
        fun strict => spared strict sound
      exact (starts.trans runs).tail (.leave (Program.run opened content).builder scope scopes)
    · rw [Statement.builder_run_container_of_fault content finish sound]
      exact .tail (.single (.construct _ kind)) (.modify _ _ finish.modifiers)
  | beginCapture name => exact .single (.beginCapture _)
  | endCapture token parent =>
    rw [Statement.run, Session.builder_endCapture]
    cases taken : session.takeToken? token with
    | none => exact .refl
    | some pair => exact .single (.endCapture _ _ _ fun strict => spared strict pair taken)
  | snapshot => exact .refl

/-- Running a program takes steps, and the containers around it stay open. -/
theorem Program.run_steps [Generator γ] {orderly : Prop} (scopes : List Scope)
    (session : Session γ) (program : List Statement)
    (spared : orderly → Program.Spares scopes session program) :
    ReflTransGen (Moment.Step orderly) ⟨session.builder, scopes⟩
      ⟨(Program.run session program).builder, scopes⟩ := by
  cases program with
  | nil => exact .refl
  | cons statement rest =>
    rw [Program.run]
    have first := Statement.run_steps scopes session statement fun strict => (spared strict).1
    exact first.trans
      (Program.run_steps scopes (statement.run session) rest fun strict => (spared strict).2)

end

section Reachable

variable [Generator γ] {orderly : Prop} {moment later : Moment γ}

theorem Moment.Reachable.trans (reachable : moment.Reachable orderly)
    (steps : ReflTransGen (Step orderly) moment later) : later.Reachable orderly := by
  obtain ⟨ids, earlier⟩ := reachable
  exact ⟨ids, earlier.trans steps⟩

theorem Moment.Reachable.run {session : Session γ} {scopes : List Scope}
    (reachable : Moment.Reachable False ⟨session.builder, scopes⟩) (program : Program) :
    Moment.Reachable False ⟨(Program.run session program).builder, scopes⟩ :=
  reachable.trans (Program.run_steps scopes session program False.elim)

theorem Moment.Reachable.enter (reachable : moment.Reachable orderly) {kind : Kind}
    (sound : (moment.builder.construct kind).fault = none) :
    (moment.enter kind).Reachable orderly :=
  reachable.trans (.single (.enter moment kind sound))

end Reachable

/-- What a program leaves behind is reached by orderly steps, if it spares running containers. -/
theorem Program.run_reachable [Generator γ] (ids : Allocator γ) {program : Program}
    (spared : Program.Spares [] { builder := { ids } } program) :
    Moment.Reachable True ⟨(Program.run { builder := { ids } } program).builder, []⟩ :=
  ⟨ids, Program.run_steps [] _ program fun _ => spared⟩

/-- What a program leaves behind is reached by steps, whatever it does. -/
theorem Program.run_reaches [Generator γ] (ids : Allocator γ) (program : Program) :
    Moment.Reachable False ⟨(Program.run { builder := { ids } } program).builder, []⟩ :=
  Moment.Reachable.run ⟨ids, .refl⟩ program

end ViewMarkup
