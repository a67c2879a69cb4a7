import ViewMarkup.Compiler
import ViewMarkup.Proofs.Build.Calls
import ViewMarkup.Proofs.Build.Ownership

/-! # The first fault decides

A program makes a series of calls on its builder, and replaying the series gives the builder that
the program ends with. Once a call has failed, no content of a container is started any more, but
content that is running goes on: its statements construct their nodes, and it is left in the end.
The build fails with the first failure of the series, for an open level only if there is none, and
it ends well exactly when no call failed and no level is open.
-/

namespace ViewMarkup

open ViewMarkup.Random

variable {γ : Type} [Generator γ]

/-! ## The calls of a program -/

mutual

/-- The calls that a statement makes. -/
def Statement.calls (session : Session γ) : Statement → List Call
  | .leaf kind finish => [.construct kind, .modify session.builder.tree.size finish.modifiers]
  | .container kind content finish =>
    let key := session.builder.tree.size
    let constructed := session.construct kind
    let opened := constructed.openContainer
    .construct kind ::
      ((if constructed.builder.fault.isNone then
        .start key :: (Program.calls opened content ++ [.leave opened.builder.stack.token key])
      else []) ++ [.modify key finish.modifiers])
  | .beginCapture _ => [.beginCapture]
  | .endCapture token parent =>
    match session.takeToken? token with
    | some (token, rest) => [.endCapture token (parent.resolve rest.names rest.builder.tree)]
    | none => []
  | .snapshot => []

/-- The calls that a program makes. -/
def Program.calls (session : Session γ) : List Statement → List Call
  | [] => []
  | statement :: rest => statement.calls session ++ Program.calls (statement.run session) rest

end

section Container

variable {session : Session γ} {kind : Kind}

theorem Statement.calls_container (content : Program) (finish : Finish)
    (sound : (session.construct kind).builder.fault = none) :
    (Statement.container kind content finish).calls session =
      .construct kind :: .start session.builder.tree.size ::
        (Program.calls (session.construct kind).openContainer content ++
          [.leave (session.construct kind).openContainer.builder.stack.token
              session.builder.tree.size,
            .modify session.builder.tree.size finish.modifiers]) := by
  simp [Statement.calls, sound]

theorem Statement.calls_container_of_fault (content : Program) (finish : Finish)
    (failed : (session.construct kind).builder.fault ≠ none) :
    (Statement.container kind content finish).calls session =
      [.construct kind, .modify session.builder.tree.size finish.modifiers] := by
  simp [Statement.calls, failed]

end Container

mutual

/-- Replaying the calls of a statement runs it. -/
theorem Statement.performAll_calls (session : Session γ) (statement : Statement) :
    session.builder.performAll (statement.calls session) = (statement.run session).builder := by
  cases statement with
  | leaf kind finish =>
    rw [Statement.run, Session.builder_finishNode]
    rfl
  | container kind content finish =>
    by_cases sound : (session.construct kind).builder.fault = none
    · have inside := Program.performAll_calls (session.construct kind).openContainer content
      rw [Statement.builder_run_container content finish sound,
        Statement.calls_container content finish sound, ← inside]
      simp only [Builder.performAll_cons, Builder.performAll_append]
      rfl
    · rw [Statement.builder_run_container_of_fault content finish sound,
        Statement.calls_container_of_fault content finish sound]
      rfl
  | beginCapture name => rfl
  | endCapture token parent =>
    rw [Statement.run, Session.builder_endCapture, Statement.calls]
    cases session.takeToken? token <;> rfl
  | snapshot => rfl

/-- Replaying the calls of a program runs it. -/
theorem Program.performAll_calls (session : Session γ) (program : List Statement) :
    session.builder.performAll (Program.calls session program) =
      (Program.run session program).builder := by
  cases program with
  | nil => rfl
  | cons statement rest =>
    rw [Program.calls, Builder.performAll_append, Statement.performAll_calls,
      Program.performAll_calls, Program.run]

end

/-! ## Faults stay -/

theorem Statement.fault_run {session : Session γ} {error : BuildError} (statement : Statement)
    (failed : session.builder.fault = some error) :
    (statement.run session).builder.fault = some error := by
  rw [← statement.performAll_calls]
  exact Builder.fault_performAll_of_fault failed _

theorem Program.fault_run {session : Session γ} {error : BuildError} (program : Program)
    (failed : session.builder.fault = some error) :
    (Program.run session program).builder.fault = some error := by
  rw [← Program.performAll_calls]
  exact Builder.fault_performAll_of_fault failed _

/-! ## Content starts without a fault -/

/-- Content is started only while there is no fault. -/
def Builder.Careful (builder : Builder γ) : List Call → Prop
  | [] => True
  | call :: rest =>
    (∀ container, call = .start container → builder.fault = none) ∧
      (builder.perform call).Careful rest

namespace Builder

variable {builder : Builder γ}

theorem careful_append {first second : List Call} :
    builder.Careful (first ++ second) ↔
      builder.Careful first ∧ (builder.performAll first).Careful second := by
  induction first generalizing builder with
  | nil => simp [Careful]
  | cons call rest ih => simp only [List.cons_append, Careful, ih, performAll_cons, and_assoc]

theorem Careful.start_not_mem {calls : List Call} (careful : builder.Careful calls)
    {error : BuildError} (failed : builder.fault = some error) (container : Key) :
    .start container ∉ calls := by
  induction calls generalizing builder with
  | nil => exact List.not_mem_nil
  | cons call rest ih =>
    intro member
    rcases List.mem_cons.mp member with rfl | later
    · rw [careful.1 container rfl] at failed
      contradiction
    · exact ih careful.2 (fault_performAll_of_fault failed [call]) later

end Builder

mutual

theorem Statement.careful_calls (session : Session γ) (statement : Statement) :
    session.builder.Careful (statement.calls session) := by
  cases statement with
  | leaf kind finish => simp [Statement.calls, Builder.Careful]
  | container kind content finish =>
    by_cases sound : (session.construct kind).builder.fault = none
    · have inside := Program.careful_calls (session.construct kind).openContainer content
      rw [Statement.calls_container content finish sound]
      refine ⟨by simp, fun _ _ => sound, ?_⟩
      rw [Builder.careful_append]
      exact ⟨inside, by simp, by simp, trivial⟩
    · rw [Statement.calls_container_of_fault content finish sound]
      exact ⟨by simp, by simp, trivial⟩
  | beginCapture name => simp [Statement.calls, Builder.Careful]
  | endCapture token parent =>
    rw [Statement.calls]
    split <;> simp [Builder.Careful]
  | snapshot => trivial

theorem Program.careful_calls (session : Session γ) (program : List Statement) :
    session.builder.Careful (Program.calls session program) := by
  cases program with
  | nil => trivial
  | cons statement rest =>
    rw [Program.calls, Builder.careful_append, Statement.performAll_calls]
    exact ⟨statement.careful_calls session, Program.careful_calls _ rest⟩

end

/-! ## Running content goes on -/

/-- The container whose content a call starts. -/
def Call.started? : Call → Option Key
  | .start container => some container
  | _ => none

/-- The container whose content a call leaves. -/
def Call.left? : Call → Option Key
  | .leave _ container => some container
  | _ => none

mutual

theorem Statement.started_perm_left (session : Session γ) (statement : Statement) :
    ((statement.calls session).filterMap Call.started?).Perm
      ((statement.calls session).filterMap Call.left?) := by
  cases statement with
  | leaf kind finish => exact .refl _
  | container kind content finish =>
    by_cases sound : (session.construct kind).builder.fault = none
    · have inside := Program.started_perm_left (session.construct kind).openContainer content
      rw [Statement.calls_container content finish sound]
      simp only [List.filterMap_cons, List.filterMap_append, List.filterMap_nil, Call.started?,
        Call.left?, List.append_nil]
      exact (inside.cons _).trans (List.perm_append_singleton _ _).symm
    · rw [Statement.calls_container_of_fault content finish sound]
      exact .refl _
  | beginCapture name => exact .refl _
  | endCapture token parent =>
    rw [Statement.calls]
    split <;> exact .refl _
  | snapshot => exact .refl _

/-- Content that is started is left, whatever fails inside it. -/
theorem Program.started_perm_left (session : Session γ) (program : List Statement) :
    ((Program.calls session program).filterMap Call.started?).Perm
      ((Program.calls session program).filterMap Call.left?) := by
  cases program with
  | nil => exact .refl _
  | cons statement rest =>
    rw [Program.calls, List.filterMap_append, List.filterMap_append]
    exact (statement.started_perm_left session).append (Program.started_perm_left _ rest)

end

/-- Whether a statement constructs a node. -/
def Statement.isConstructor : Statement → Bool
  | .leaf .. | .container .. => true
  | .beginCapture _ | .endCapture .. | .snapshot => false

/-- After a fault a statement constructs its own node, and none of its content. -/
theorem Statement.size_run_of_fault {session : Session γ} {error : BuildError}
    (statement : Statement) (failed : session.builder.fault = some error) :
    (statement.run session).builder.tree.size =
      session.builder.tree.size + statement.isConstructor.toNat := by
  have constructs (kind : Kind) (finish : Finish) :
      ((session.construct kind).finishNode session.builder.tree.size finish).builder.tree.size =
        session.builder.tree.size + 1 := by
    rw [Session.size_finishNode]
    exact (session.builder.addsLabel_construct kind).size_eq
  cases statement with
  | leaf kind finish => exact constructs kind finish
  | container kind content finish =>
    have still : (session.construct kind).builder.fault ≠ none := by
      rw [show (session.construct kind).builder.fault = some error from
        Builder.fault_performAll_of_fault failed [.construct kind]]
      exact Option.some_ne_none error
    rw [Statement.run_container_of_fault content finish still]
    exact constructs kind finish
  | beginCapture name => rfl
  | endCapture token parent =>
    rw [Statement.run, Session.builder_endCapture]
    cases session.takeToken? token with
    | none => rfl
    | some pair => exact (session.builder.keepsLabels_endCapture ..).size_eq
  | snapshot => rfl

/-- After a fault a program goes on, with one node for each statement that constructs one. -/
theorem Program.size_run_of_fault {session : Session γ} {error : BuildError} (program : Program)
    (failed : session.builder.fault = some error) :
    (Program.run session program).builder.tree.size =
      session.builder.tree.size + program.countP Statement.isConstructor := by
  induction program generalizing session with
  | nil => rfl
  | cons statement rest ih =>
    rw [Program.run, ih (statement.fault_run failed), statement.size_run_of_fault failed,
      List.countP_cons]
    cases statement.isConstructor with
    | false => simp
    | true =>
      simp only [Bool.toNat_true, if_true]
      omega

/-! ## How a build ends -/

omit [Generator γ] in
/-- A build ends with its fault, else for an open level, else with its tree. -/
theorem Builder.outcome_eq (builder : Builder γ) :
    builder.outcome = match builder.fault with
      | some error => .error error
      | none =>
        if 0 < builder.depth then .error (.capture (.unclosed builder.depth))
        else .ok builder.tree := by
  rw [outcome, CaptureStack.finish, depth]
  cases builder.fault with
  | some error => rfl
  | none =>
    dsimp only
    split
    · next error failed => split at failed <;> simp_all
    · next done => split at done <;> simp_all

/-- The first failure of a call stays the fault, no content is started after it, and it decides how the
build ends. -/
theorem Program.first_fault_wins (ids : Allocator γ) (program : Program) :
    let start : Session γ := { builder := { ids } }
    let final := (Program.run start program).builder
    let calls := Program.calls start program
    let failures := start.builder.failures calls
    start.builder.performAll calls = final ∧
    (∀ before between after error, calls = before ++ between ++ after →
      (start.builder.performAll before).fault = some error →
        (start.builder.performAll (before ++ between)).fault = some error ∧
        ∀ container, .start container ∉ between ++ after) ∧
    (calls.filterMap Call.started?).Perm (calls.filterMap Call.left?) ∧
    (∀ (session : Session γ) (rest : Program) (error : BuildError),
      session.builder.fault = some error →
        (Program.run session rest).builder.tree.size =
          session.builder.tree.size + rest.countP Statement.isConstructor) ∧
    final.finish.1 = (match failures.head? with
      | some error => .error error
      | none =>
        if 0 < final.depth then .error (.capture (.unclosed final.depth)) else .ok final.tree) ∧
    ((∃ tree, final.finish.1 = .ok tree) ↔ failures = [] ∧ final.depth = 0) := by
  intro start final calls failures
  have replayed : start.builder.performAll calls = final := Program.performAll_calls start program
  have fault : final.fault = failures.head? := by
    rw [← replayed, Builder.fault_performAll]
    rfl
  refine ⟨replayed, ?_, Program.started_perm_left start program, ?_, ?_, ?_⟩
  · intro before between after error split failed
    have careful := Program.careful_calls start program
    rw [show Program.calls start program = before ++ (between ++ after) by
      rw [← List.append_assoc]; exact split, Builder.careful_append] at careful
    rw [Builder.performAll_append]
    exact ⟨Builder.fault_performAll_of_fault failed between, careful.2.start_not_mem failed⟩
  · intro session rest error failed
    exact Program.size_run_of_fault rest failed
  · rw [Builder.finish_fst, Builder.outcome_eq, fault]
  · rw [Builder.finish_fst, ← List.head?_eq_none_iff, ← fault]
    constructor
    · rintro ⟨tree, ended⟩
      obtain ⟨sound, closed, _⟩ := Builder.outcome_eq_ok_iff.mp ended
      exact ⟨sound, closed⟩
    · rintro ⟨sound, closed⟩
      exact ⟨final.tree, Builder.outcome_eq_ok_iff.mpr ⟨sound, closed, rfl⟩⟩

/-- Identifiers run out inside a container. The container after that is constructed without its
content, a level is closed with a wrong token, and a level stays open; the build reports none of it
but that identifiers ran out. -/
theorem Program.first_fault_wins_exhausted :
    let config : Config := { Config.sequential with space := 2 }
    let program : Program :=
      [.vstack [.text "a", .text "b", .hstack [.text "c"], .endCapture (.forged ⟨9⟩) .nothing],
        .beginCapture "level"]
    let start : Session KeyStream := { builder := { ids := config.allocator default } }
    let final := (Program.run start program).builder
    let calls := Program.calls start program
    start.builder.failures calls =
        [.identifier (.exhausted 2), .identifier (.exhausted 2), .capture (.unbalanced 9 1)] ∧
      calls.filterMap Call.started? = [0] ∧ (calls.filterMap Call.left?).Perm [0] ∧
      final.tree.size = 4 ∧ final.depth = 1 ∧ final.finish.1 = .error (.identifier (.exhausted 2)) := by
  intro config program start final calls
  obtain ⟨_, _, left, _, ended, _⟩ := Program.first_fault_wins (config.allocator default) program
  have failures : start.builder.failures calls =
      [.identifier (.exhausted 2), .identifier (.exhausted 2), .capture (.unbalanced 9 1)] := by decide
  have started : calls.filterMap Call.started? = [0] := by decide
  refine ⟨failures, started, ?_, by decide, by decide, ?_⟩
  · rw [← started]
    exact left.symm
  · rw [ended, failures]
    rfl

end ViewMarkup
