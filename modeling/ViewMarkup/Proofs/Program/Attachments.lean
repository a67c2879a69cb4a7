import ViewMarkup.Proofs.Program.Anonymity
import ViewMarkup.Proofs.Program.Faults

/-! # Child lists are written once

Links of a tree are made in one way only: a call attaches nodes to a node. The attachments of a run
are listed like its failures. Each one finds its nodes detached and its parent without children, as
long as no level closed by hand gives nodes to a container whose content is still running. So an
attachment overwrites nothing, and a list of children or a parent that is there once stays as it is
through all later calls. The links of a tree that is built or compiled are those that the calls
made, and no modifier changes them.
-/

namespace ViewMarkup

open ViewMarkup.Random CaptureStack

variable {γ : Type}

/-- Nodes that are attached to a parent, and the tree that they are attached in. -/
structure Attachment where
  tree : Tree
  parent : Key
  keys : List Key

/-- The parent is there and has no children. The nodes are there, each is given once, and none of them
is a root or has a parent. -/
structure Attachment.Clean (attachment : Attachment) : Prop where
  present : attachment.tree.contains attachment.parent
  childless : attachment.tree.children attachment.parent = []
  distinct : attachment.keys.Nodup
  detached : ∀ key ∈ attachment.keys, attachment.tree.contains key ∧
    key ∉ attachment.tree.roots.toList ∧ attachment.tree.parent? key = none

/-- Lists of children that are there, and parents, stay as they are. -/
structure Tree.KeepsLinks (earlier later : Tree) : Prop where
  children : ∀ key, earlier.children key ≠ [] → later.children key = earlier.children key
  parent : ∀ key parent, earlier.parent? key = some parent → later.parent? key = some parent

namespace Tree

variable {earlier middle later : Tree}

theorem KeepsLinks.of_eq (lists : ∀ key, later.children key = earlier.children key)
    (parents : ∀ key, later.parent? key = earlier.parent? key) : earlier.KeepsLinks later :=
  ⟨fun key _ => lists key, fun key _ up => (parents key).trans up⟩

theorem KeepsLinks.trans (first : earlier.KeepsLinks middle) (second : middle.KeepsLinks later) :
    earlier.KeepsLinks later := by
  refine ⟨fun key some => ?_, fun key parent up => ?_⟩
  · have same := first.children key some
    exact (second.children key (same ▸ some)).trans same
  · exact second.parent key parent (first.parent key parent up)

/-- An attachment that finds everything detached overwrites nothing. -/
theorem KeepsLinks.of_clean {attachment : Attachment} (clean : attachment.Clean) :
    attachment.tree.KeepsLinks (attachment.tree.attach attachment.parent attachment.keys) := by
  refine ⟨fun key some => ?_, fun key parent up => ?_⟩
  · rw [children_attach, if_neg]
    rintro ⟨rfl, _⟩
    exact some clean.childless
  · rw [parent?_attach, if_neg, up]
    rintro ⟨member, _⟩
    rw [(clean.detached key member).2.2] at up
    contradiction

end Tree

/-! ## The attachments of a run -/

namespace Builder

/-- What a call attaches, if it attaches nodes. -/
def attachment? (builder : Builder γ) : Call → Option Attachment
  | .leave token container =>
    match builder.closeLevel token with
    | .ok (keys, _) => some ⟨builder.tree, container, keys⟩
    | .error _ => none
  | .endCapture token parent =>
    match builder.closeLevel token with
    | .ok (keys, _) =>
      if canAdopt builder.tree parent keys then some ⟨builder.tree, parent, keys⟩ else none
    | .error _ => none
  | .construct _ | .modify .. | .start _ | .beginCapture => none

variable [Generator γ]

/-- What some calls attach, one after the other. -/
def attachments (builder : Builder γ) : List Call → List Attachment
  | [] => []
  | call :: rest => (builder.attachment? call).toList ++ (builder.perform call).attachments rest

theorem attachments_append (builder : Builder γ) (first second : List Call) :
    builder.attachments (first ++ second) =
      builder.attachments first ++ (builder.performAll first).attachments second := by
  induction first generalizing builder with
  | nil => rfl
  | cons call rest ih =>
    rw [List.cons_append, attachments, attachments, ih, performAll_cons, List.append_assoc]

/-- A call makes the links that its attachment asks for, and no others. -/
theorem links_perform (builder : Builder γ) (call : Call) :
    match builder.attachment? call with
    | some attachment => attachment.tree = builder.tree ∧
        (builder.perform call).tree = builder.tree.attach attachment.parent attachment.keys
    | none => ∀ key, (builder.perform call).tree.children key = builder.tree.children key ∧
        (builder.perform call).tree.parent? key = builder.tree.parent? key := by
  cases call with
  | construct kind =>
    obtain ⟨_, lists, parents⟩ := builder.construct_links kind
    exact fun key => ⟨lists key, parents key⟩
  | modify key modifiers =>
    intro other
    exact ⟨builder.tree.children_modifyAll key other modifiers,
      builder.tree.parent?_modifyAll key other modifiers⟩
  | start | beginCapture => exact fun _ => ⟨rfl, rfl⟩
  | leave token container =>
    rw [attachment?, perform, closeContainer]
    cases closes : builder.closeLevel token with
    | error cause => exact fun _ => ⟨rfl, rfl⟩
    | ok pair =>
      obtain ⟨keys, closed⟩ := pair
      exact ⟨rfl, congrArg (Tree.attach · container keys) (closeLevel_frame closes).1⟩
  | endCapture token parent =>
    rw [attachment?, perform, endCapture]
    cases closes : builder.closeLevel token with
    | error cause => exact fun _ => ⟨rfl, rfl⟩
    | ok pair =>
      obtain ⟨keys, closed⟩ := pair
      have same := (closeLevel_frame closes).1
      dsimp only
      rw [same]
      by_cases able : canAdopt builder.tree parent keys = true
      · rw [if_pos able, if_pos able]
        exact ⟨rfl, rfl⟩
      · rw [if_neg able, if_neg able]
        intro key
        rw [tree_record, same]
        exact ⟨rfl, rfl⟩

/-- Calls whose attachments are clean keep all links. -/
theorem keepsLinks_performAll {builder : Builder γ} {calls : List Call}
    (clean : ∀ attachment ∈ builder.attachments calls, attachment.Clean) :
    builder.tree.KeepsLinks (builder.performAll calls).tree := by
  induction calls generalizing builder with
  | nil => exact .of_eq (fun _ => rfl) fun _ => rfl
  | cons call rest ih =>
    rw [attachments, List.forall_mem_append] at clean
    refine .trans ?_ (ih clean.2)
    have links := builder.links_perform call
    cases attached : builder.attachment? call with
    | none =>
      rw [attached] at links
      exact .of_eq (fun key => (links key).1) fun key => (links key).2
    | some attachment =>
      rw [attached] at links
      obtain ⟨same, linked⟩ := links
      rw [linked, ← same]
      exact .of_clean (clean.1 attachment (by simp [attached]))

end Builder

/-! ## Attachments are clean -/

namespace Moment

variable {moment : Moment γ} {token : Token} {keys : List Key} {closed : Builder γ}

/-- The nodes of the innermost level are detached. -/
theorem Shows.clean {scene : Scene} (shows : moment.Shows scene) (sound : scene.Sound)
    (closes : moment.builder.closeLevel token = .ok (keys, closed)) {parent : Key}
    (present : parent < scene.tree.size) (childless : scene.tree.children parent = []) :
    Attachment.Clean ⟨moment.builder.tree, parent, keys⟩ := by
  obtain ⟨tree, levels, scopes, fault⟩ := scene
  rcases Builder.innermost_or_other levels token with other | ⟨held, outer, rfl, innermost⟩
  · obtain ⟨cause, refused⟩ := Builder.closeLevel_of_other shows.stack other
    cases refused.symm.trans closes
  · cases (Builder.closeLevel_of_innermost shows.stack innermost).symm.trans closes
    obtain ⟨distinct, detached⟩ := sound.innermost
    rw [shows.tree]
    refine ⟨(tree.contains_iff parent).mpr present, childless, distinct, fun key member => ?_⟩
    obtain ⟨inside, top, apart⟩ := detached key member
    exact ⟨(tree.contains_iff key).mpr inside, fun root => apart (List.mem_append_left _ root), top⟩

variable [Generator γ]

/-- A running container finds its nodes detached when it is left, and no children of its own. -/
theorem Reachable.clean_leave {scope : Scope} (reachable : moment.Reachable True)
    (running : scope ∈ moment.scopes) :
    ∀ attachment ∈ moment.builder.attachment? (.leave scope.token scope.key), attachment.Clean := by
  obtain ⟨scene, shows, sound, tidy⟩ := reachable.sound_tidy
  rw [shows.scopes] at running
  intro attachment attached
  rw [Builder.attachment?] at attached
  cases closes : moment.builder.closeLevel scope.token with
  | error cause => simp [closes] at attached
  | ok pair =>
    obtain ⟨keys, closed⟩ := pair
    simp only [closes, Option.mem_some_iff] at attached
    rw [← attached]
    exact shows.clean sound closes (sound.scope_lt scope running) (tidy.childless scope running)

/-- A level closed by hand is only attached to a node without children. -/
theorem Reachable.clean_endCapture {orderly : Prop} (reachable : moment.Reachable orderly)
    (token : Token) (parent : Key) :
    ∀ attachment ∈ moment.builder.attachment? (.endCapture token parent), attachment.Clean := by
  obtain ⟨scene, shows, sound⟩ := reachable.sound
  intro attachment attached
  rw [Builder.attachment?] at attached
  cases closes : moment.builder.closeLevel token with
  | error cause => simp [closes] at attached
  | ok pair =>
    obtain ⟨keys, closed⟩ := pair
    simp only [closes, Option.mem_def, Option.ite_none_right_eq_some, Option.some.injEq] at attached
    obtain ⟨able, rfl⟩ := attached
    rw [shows.tree] at able
    obtain ⟨present, childless, _⟩ := (Builder.canAdopt_iff sound.coherent.toGrounded).mp able
    exact shows.clean sound closes present childless

end Moment

variable [Generator γ]

mutual

theorem Statement.clean_attachments {session : Session γ} {scopes : List Scope}
    (reachable : Moment.Reachable True ⟨session.builder, scopes⟩) (statement : Statement)
    (spared : statement.Spares scopes session) :
    ∀ attachment ∈ session.builder.attachments (statement.calls session), attachment.Clean := by
  cases statement with
  | leaf kind finish => simp [Statement.calls, Builder.attachments, Builder.attachment?]
  | container kind content finish =>
    by_cases sound : (session.construct kind).builder.fault = none
    · have opened := reachable.enter sound
      have inside := Program.clean_attachments opened content (spared sound)
      have ends := opened.trans (Program.run_steps _ _ content fun _ => spared sound)
      rw [Statement.calls_container content finish sound]
      -- Nothing is attached before the content, and nothing after the container is left.
      change ∀ attachment ∈ (session.construct kind).openContainer.builder.attachments
        (Program.calls (session.construct kind).openContainer content ++ _), attachment.Clean
      rw [Builder.attachments_append, List.forall_mem_append, Program.performAll_calls]
      refine ⟨inside, fun attachment member => ?_⟩
      rcases List.mem_append.mp member with left | later
      · exact ends.clean_leave (List.mem_cons_self ..) attachment (Option.mem_toList.mp left)
      · cases later
    · rw [Statement.calls_container_of_fault content finish sound]
      simp [Builder.attachments, Builder.attachment?]
  | beginCapture name => simp [Statement.calls, Builder.attachments, Builder.attachment?]
  | endCapture token parent =>
    rw [Statement.calls]
    cases taken : session.takeToken? token with
    | none => simp [Builder.attachments]
    | some pair =>
      simpa [Builder.attachments] using reachable.clean_endCapture _ _
  | snapshot => simp [Statement.calls, Builder.attachments]

/-- Every attachment of a program that spares running containers is clean. -/
theorem Program.clean_attachments {session : Session γ} {scopes : List Scope}
    (reachable : Moment.Reachable True ⟨session.builder, scopes⟩) (program : List Statement)
    (spared : Program.Spares scopes session program) :
    ∀ attachment ∈ session.builder.attachments (Program.calls session program),
      attachment.Clean := by
  cases program with
  | nil => simp [Program.calls, Builder.attachments]
  | cons statement rest =>
    have first := Statement.clean_attachments reachable statement spared.1
    have between := reachable.trans (statement.run_steps scopes session fun _ => spared.1)
    rw [Program.calls, Builder.attachments_append, List.forall_mem_append,
      Statement.performAll_calls]
    exact ⟨first, Program.clean_attachments between rest spared.2⟩

end

namespace Program

/-- In every run of a program that spares running containers, whatever fails in it and whatever was
issued before it, nodes are attached cleanly, and links are written once. -/
theorem links_written_once (ids : Allocator γ) (program : Program)
    (spared : Program.Spares [] { builder := { ids } } program) :
    let start : Builder γ := { ids }
    let calls := Program.calls { builder := start } program
    let final := (Program.run { builder := start } program).builder
    (∀ (builder : Builder γ) (call : Call),
      match builder.attachment? call with
      | some attachment => attachment.tree = builder.tree ∧
          (builder.perform call).tree = builder.tree.attach attachment.parent attachment.keys
      | none => ∀ key, (builder.perform call).tree.children key = builder.tree.children key ∧
          (builder.perform call).tree.parent? key = builder.tree.parent? key) ∧
    start.performAll calls = final ∧
    (∀ attachment ∈ start.attachments calls, attachment.Clean) ∧
    (∀ before between after, calls = before ++ between ++ after →
      (start.performAll before).tree.KeepsLinks (start.performAll (before ++ between)).tree) ∧
    ∀ tree, (Program.build ids program = .ok tree ∨
        ∃ layout output, Program.compile ids layout program = .ok ⟨tree, output⟩) →
      ∀ edits key, (tree.edit edits).children key = final.tree.children key ∧
        (tree.edit edits).parent? key = final.tree.parent? key := by
  intro start calls final
  have clean : ∀ attachment ∈ start.attachments calls, attachment.Clean :=
    Program.clean_attachments ⟨ids, .refl⟩ program spared
  refine ⟨Builder.links_perform, Program.performAll_calls { builder := start } program, clean,
    ?_, ?_⟩
  · intro before between after split
    rw [split, List.append_assoc, Builder.attachments_append, Builder.attachments_append,
      List.forall_mem_append, List.forall_mem_append] at clean
    rw [Builder.performAll_append]
    exact Builder.keepsLinks_performAll clean.2.1
  · intro tree ends edits key
    have built : Program.build ids program = .ok tree :=
      ends.elim id fun ⟨_, _, compiled⟩ => (compile_eq_ok_iff.mp compiled).1
    obtain ⟨_, _, rfl⟩ := Builder.outcome_eq_ok_iff.mp built
    obtain ⟨_, _, parents, lists⟩ := final.tree.edit_links edits
    exact ⟨lists key, parents key⟩

/-- Tokens that are swapped: a container has its level taken away for a node beside it, and gets the
level that is opened in its place. The build ends well, or fails when a level inside that one is lost;
the attachments are the same. Two identifiers were given before the run. -/
theorem links_written_once_swapped :
    let ids : Allocator KeyStream := { space := 7, issued := {0, 1}, source := .counter 2 }
    let swapped (rest : Program) : Program :=
      [.hstack [], .vstack ([.text "taken", .endCapture (.forged ⟨1⟩) (.numbered 0),
        .beginCapture "level", .text "left"] ++ rest)]
    let failing := swapped [.beginCapture "inner", .text "lost",
      .endCapture (.stored "inner") (.numbered 0)]
    let start : Builder KeyStream := { ids }
    let calls := Program.calls { builder := start } failing
    let final := (Program.run { builder := start } failing).builder
    let tree := (Program.run { builder := start } (swapped [])).builder.tree
    final.fault = some (.capture (.invalidParent "a2")) ∧
      (start.attachments calls).map (fun attachment => (attachment.parent, attachment.keys)) =
        [(0, []), (0, [2]), (1, [3])] ∧
      (∀ attachment ∈ start.attachments calls, attachment.Clean) ∧
      (start.performAll (calls.take 9)).tree.children 0 = [2] ∧ final.tree.children 0 = [2] ∧
      (start.performAll (calls.take 9)).tree.parent? 2 = some 0 ∧ final.tree.parent? 2 = some 0 ∧
      Program.build ids (swapped []) = .ok tree ∧ tree.labels = ["a2", "a3", "a4", "a5"] ∧
      ∀ edits, (tree.edit edits).children 1 = [3] := by
  intro ids swapped failing start calls final tree
  have built : Program.build ids (swapped []) = .ok tree :=
    Builder.outcome_eq_ok_iff.mpr ⟨by decide, by decide, rfl⟩
  have listed : (start.performAll (calls.take 9)).tree.children 0 = [2] := by decide
  have up : (start.performAll (calls.take 9)).tree.parent? 2 = some 0 := by decide
  have owned : tree.children 1 = [3] := by decide
  obtain ⟨_, replayed, clean, keeps, _⟩ := links_written_once ids failing (by decide)
  obtain ⟨_, _, _, _, links⟩ := links_written_once ids (swapped []) (by decide)
  have kept : (start.performAll (calls.take 9)).tree.KeepsLinks final.tree := by
    have split : calls = calls.take 9 ++ calls.drop 9 ++ [] := by simp
    have kept := keeps (calls.take 9) (calls.drop 9) [] split
    rwa [List.take_append_drop, replayed] at kept
  refine ⟨by decide, by decide, clean, listed, ?_, up, kept.parent 2 0 up, built, by decide,
    fun edits => ?_⟩
  · exact (kept.children 0 (by simp [listed])).trans listed
  · exact (links tree (.inl built) edits 1).1.trans owned

end Program

end ViewMarkup
