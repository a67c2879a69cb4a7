import ViewMarkup.Compiler
import ViewMarkup.Proofs.Program.Faults
import ViewMarkup.Proofs.Program.Mirroring

/-! # Containers made by hand

A container is a leaf with a level around its content: constructing the leaf, opening a level,
running the content and closing the level for the leaf has the outcome of the container, wherever it
stands. The two differ on the way. The modifiers of the leaf and its name are there before the
content, and the level is closed with the check that a container leaves out, which the leaf always
passes. After a fault the container does not run its content and the statements do, but the first
fault decides the outcome.

The one thing that the content must not do is to close a level for the container itself: the
container replaces the nodes it has got, and the check refuses a leaf that has some.
-/

namespace ViewMarkup

open ViewMarkup.Random Relation CaptureStack

variable {γ : Type}

/-! ## Levels that are not closed for a node -/

mutual

/-- Running the statement closes no level by hand for the node. -/
def Statement.Avoids [Generator γ] (key : Key) (session : Session γ) : Statement → Prop
  | .container kind content _ =>
    (session.construct kind).builder.fault = none →
      Program.Avoids key (session.construct kind).openContainer content
  | .endCapture token parent =>
    ∀ taken ∈ session.takeToken? token, parent.resolve taken.2.names taken.2.builder.tree ≠ key
  | .leaf .. | .beginCapture _ | .snapshot => True

/-- Running the program closes no level by hand for the node. -/
def Program.Avoids [Generator γ] (key : Key) (session : Session γ) : List Statement → Prop
  | [] => True
  | statement :: rest =>
    statement.Avoids key session ∧ Program.Avoids key (statement.run session) rest

end

mutual

/-- Decides by running the statement. -/
def Statement.decideAvoids [Generator γ] (key : Key) (session : Session γ) :
    (statement : Statement) → Decidable (statement.Avoids key session)
  | .container kind content _ =>
    letI := Program.decideAvoids key (session.construct kind).openContainer content
    inferInstanceAs (Decidable (_ = none → _))
  | .endCapture token parent =>
    inferInstanceAs (Decidable (∀ taken ∈ session.takeToken? token,
      parent.resolve taken.2.names taken.2.builder.tree ≠ key))
  | .leaf .. | .beginCapture _ | .snapshot => .isTrue trivial

/-- Decides by running the program. -/
def Program.decideAvoids [Generator γ] (key : Key) (session : Session γ) :
    (program : List Statement) → Decidable (Program.Avoids key session program)
  | [] => .isTrue trivial
  | statement :: rest =>
    letI := statement.decideAvoids key session
    letI := Program.decideAvoids key (statement.run session) rest
    inferInstanceAs (Decidable (_ ∧ _))

end

instance [Generator γ] (key : Key) (session : Session γ) (statement : Statement) :
    Decidable (statement.Avoids key session) :=
  statement.decideAvoids key session

namespace Builder

variable {builder : Builder γ} {key : Key}

/-- The node is there and has no children. -/
structure Childless (builder : Builder γ) (key : Key) : Prop where
  present : key < builder.tree.size
  none : builder.tree.children key = []

namespace Childless

theorem construct [Generator γ] (childless : builder.Childless key) (kind : Kind) :
    (builder.construct kind).Childless key := by
  obtain ⟨size, lists, _⟩ := builder.construct_links kind
  exact ⟨size ▸ Nat.lt_succ_of_lt childless.present, (lists key).trans childless.none⟩

theorem modify (childless : builder.Childless key) (other : Key) (modifiers : List Modifier) :
    (builder.modify other modifiers).Childless key where
  present := (builder.tree.size_modifyAll other modifiers).symm ▸ childless.present
  none := (builder.tree.children_modifyAll other key modifiers).trans childless.none

theorem attach (childless : builder.Childless key) {parent : Key} (apart : parent ≠ key)
    (keys : List Key) : Childless { builder with tree := builder.tree.attach parent keys } key where
  present := (builder.tree.size_attach parent keys).symm ▸ childless.present
  none := by
    rw [Tree.children_attach, if_neg fun here => apart here.1.symm]
    exact childless.none

theorem of_closeLevel (childless : builder.Childless key) {token : Token} {keys : List Key}
    {closed : Builder γ} (success : builder.closeLevel token = .ok (keys, closed)) :
    closed.Childless key := by
  have same := (closeLevel_frame success).1
  exact ⟨same ▸ childless.present, same ▸ childless.none⟩

theorem closeContainer (childless : builder.Childless key) {container : Key}
    (apart : container ≠ key) (token : Token) :
    (builder.closeContainer token container).Childless key := by
  rw [Builder.closeContainer]
  split
  · next success => exact (childless.of_closeLevel success).attach apart _
  · exact ⟨childless.present, childless.none⟩

theorem endCapture (childless : builder.Childless key) {parent : Key} (apart : parent ≠ key)
    (token : Token) : (builder.endCapture token parent).2.Childless key := by
  rw [Builder.endCapture]
  split
  · exact ⟨childless.present, childless.none⟩
  · next success =>
    have closed := childless.of_closeLevel success
    split
    · exact closed.attach apart _
    · exact ⟨closed.present, closed.none⟩

end Childless

end Builder

mutual

theorem Statement.childless_run [Generator γ] {key : Key} {session : Session γ}
    (statement : Statement) (avoids : statement.Avoids key session)
    (childless : session.builder.Childless key) : (statement.run session).builder.Childless key := by
  cases statement with
  | leaf kind finish =>
    rw [Statement.run, Session.builder_finishNode]
    exact (childless.construct kind).modify ..
  | container kind content finish =>
    have constructed := childless.construct kind
    by_cases sound : (session.construct kind).builder.fault = none
    · rw [Statement.builder_run_container content finish sound]
      have ran := Program.childless_run content (avoids sound) ⟨constructed.present, constructed.none⟩
      exact (ran.closeContainer (Nat.ne_of_gt childless.present) _).modify ..
    · rw [Statement.builder_run_container_of_fault content finish sound]
      exact constructed.modify ..
  | beginCapture name => exact ⟨childless.present, childless.none⟩
  | endCapture token parent =>
    rw [Statement.run, Session.builder_endCapture]
    cases taken : session.takeToken? token with
    | none => exact childless
    | some pair => exact childless.endCapture (avoids pair taken) _
  | snapshot => exact childless

/-- A node without children stays without, if no level is closed for it. -/
theorem Program.childless_run [Generator γ] {key : Key} {session : Session γ}
    (program : List Statement) (avoids : Program.Avoids key session program)
    (childless : session.builder.Childless key) :
    (Program.run session program).builder.Childless key := by
  cases program with
  | nil => exact childless
  | cons statement rest =>
    rw [Program.run]
    exact Program.childless_run rest avoids.2 (statement.childless_run avoids.1 childless)

end

/-- The check before an adoption never refuses a container at the end of its content, as long as it
has no children. -/
theorem Moment.Reachable.canAdopt_scope [Generator γ] {orderly : Prop} {builder closed : Builder γ}
    {scope : Scope} {scopes : List Scope} {keys : List Key}
    (reachable : Moment.Reachable orderly ⟨builder, scope :: scopes⟩)
    (childless : builder.tree.children scope.key = [])
    (success : builder.closeLevel scope.token = .ok (keys, closed)) :
    Builder.canAdopt builder.tree scope.key keys = true := by
  obtain ⟨⟨tree, levels, _, fault⟩, shows, sound⟩ := reachable.sound
  obtain ⟨rfl, stack, rfl, rfl⟩ := shows
  change builder.stack = ofLevels levels at stack
  rcases Builder.innermost_or_other levels scope.token with other | ⟨held, outer, rfl, innermost⟩
  · obtain ⟨cause, refused⟩ := Builder.closeLevel_of_other stack other
    rw [refused] at success
    contradiction
  · rw [Builder.closeLevel_of_innermost stack innermost] at success
    cases success
    refine (Builder.canAdopt_iff sound.coherent.toGrounded).mpr
      ⟨sound.scope_lt scope (List.mem_cons_self ..), childless, fun above ascends member => ?_⟩
    refine sound.guarded scope (List.mem_cons_self ..) above ascends ?_
    exact mem_heldFrom_cons.mpr ⟨Nat.le_of_eq innermost, .inl member⟩

/-! ## The two ways side by side -/

/-- Both runs have failed in the same way, or they mirror each other. -/
def Session.Alike (overlay : Overlay) (session image : Session γ) : Prop :=
  (∃ error, session.builder.fault = some error ∧ image.builder.fault = some error) ∨
    session.Mirrors overlay image

namespace Overlay

/-- While the content runs: the leaf has its modifiers and its name, and the token is stored. -/
def inside (key : Key) (finish : Finish) (name : String) (token : Token) : Overlay where
  key := key
  modifiers := finish.modifiers
  names other := if finish.name = some other then some (some key) else none
  tokens other := if other = name then some (some token) else none

/-- Afterwards: the token is used. -/
def behind (key : Key) (name : String) : Overlay where
  key := key
  tokens other := if other = name then some none else none

end Overlay

/-- Closing the level for the leaf does what closing the level of the container does, and then its
modifiers. -/
theorem Builder.Mirrors.close {key : Key} {modifiers : List Modifier} {builder image : Builder γ}
    (mirrors : builder.Mirrors key modifiers image) {token : Token}
    (able : ∀ keys closed, builder.closeLevel token = .ok (keys, closed) →
      canAdopt builder.tree key keys = true) :
    (∃ error, (builder.closeContainer token key).fault = some error ∧
      (image.endCapture token key).2.fault = some error) ∨
    ((builder.closeContainer token key).modify key modifiers).Mirrors key []
      (image.endCapture token key).2 := by
  rw [Builder.closeContainer, Builder.endCapture]
  rcases mirrors.closeLevel token with
    ⟨cause, left, right⟩ | ⟨keys, closed, closedImage, left, right, mirrored⟩
  · refine .inl ?_
    rw [left, right]
    obtain ⟨error, failed⟩ := Option.ne_none_iff_exists'.mp
      (builder.fault_record (.capture cause))
    exact ⟨error, failed, (mirrors.record (.capture cause)).fault.trans failed⟩
  · refine .inr ?_
    have adopts : canAdopt closedImage.tree key keys = true := by
      rw [mirrored.tree, canAdopt_modifyAll, (closeLevel_frame left).1]
      exact able keys closed left
    have attached := mirrored.attach key keys
    simp only [left, right, adopts, if_true]
    refine ⟨?_, attached.tree, attached.stack, attached.ids, attached.fault⟩
    rw [Builder.modify, Tree.size_modifyAll]
    exact attached.present

theorem Session.fault_finishNode (session : Session γ) (key : Key) (finish : Finish) :
    (session.finishNode key finish).builder.fault = session.builder.fault := by
  rw [builder_finishNode]
  rfl

/-- A stored token closes its level and is gone. -/
theorem Session.endCapture_stored {session : Session γ} {name : String} {token : Token}
    (stored : session.tokens.lookup name = some token) (parent : Key) :
    let ended := session.endCapture (.stored name) (.numbered parent)
    ended.builder = (session.builder.endCapture token parent).2 ∧ ended.names = session.names ∧
      ∀ other, ended.tokens.lookup other =
        if other = name then none else session.tokens.lookup other := by
  have taken : session.takeToken? (.stored name) =
      some (token, { session with tokens := session.tokens.filter (·.1 != name) }) := by
    rw [takeToken?, stored]
    rfl
  simp only [endCapture, taken]
  exact ⟨rfl, rfl, lookup_filter_ne session.tokens name⟩

section Hole

variable [Generator γ] (session : Session γ) (kind : Kind) (content : Program) (finish : Finish)
  (name : String)

/-- The statements that make a container by hand. -/
def Program.byHand (kind : Kind) (content : Program) (finish : Finish) (name : String) (leaf : Key) :
    Program :=
  [.leaf kind finish, .beginCapture name] ++ content ++ [.endCapture (.stored name) (.numbered leaf)]

/-- The content starts with the leaf ahead of the container by its modifiers and its name. -/
theorem Session.mirrors_opened :
    let constructed := session.construct kind
    let key := session.builder.tree.size
    constructed.openContainer.Mirrors
      (.inside key finish name constructed.openContainer.builder.stack.token)
      ((constructed.finishNode key finish).beginCapture name) := by
  intro constructed key
  refine ⟨?_, fun other => ?_, fun other => ?_⟩
  · have present : key < constructed.builder.tree.size :=
      (session.builder.construct_links kind).1 ▸ Nat.lt_succ_self key
    have ahead : constructed.builder.Mirrors key finish.modifiers
        (constructed.finishNode key finish).builder := by
      rw [builder_finishNode]
      exact ⟨present, rfl, rfl, rfl, rfl⟩
    exact ahead.beginCapture
  · refine (constructed.lookup_names_finishNode key finish other).trans ?_
    simp only [Overlay.inside]
    split <;> rfl
  · rw [lookup_tokens_beginCapture, tokens_finishNode, builder_finishNode]
    simp only [Overlay.inside]
    split <;> rfl

/-- At the end of the content the leaf can adopt what the level holds. -/
theorem Session.able_container {scopes : List Scope}
    (reachable : Moment.Reachable False ⟨session.builder, scopes⟩)
    (sound : (session.construct kind).builder.fault = none)
    (avoids : (Statement.container kind content finish).Avoids session.builder.tree.size session) :
    let opened := (session.construct kind).openContainer
    ∀ keys closed, (Program.run opened content).builder.closeLevel opened.builder.stack.token =
      .ok (keys, closed) →
      Builder.canAdopt (Program.run opened content).builder.tree session.builder.tree.size keys =
        true := by
  intro opened keys closed success
  let scope : Scope := ⟨session.builder.tree.size, opened.builder.stack.token⟩
  have running : Moment.Reachable False ⟨(Program.run opened content).builder, scope :: scopes⟩ := by
    have entered := reachable.enter sound
    exact entered.run content
  have childless : opened.builder.Childless session.builder.tree.size := by
    obtain ⟨size, lists, _⟩ := session.builder.construct_links kind
    refine ⟨size ▸ Nat.lt_succ_self _, (lists _).trans ?_⟩
    exact session.builder.tree.children_of_size_le (Nat.le_refl _)
  have kept := Program.childless_run content (avoids sound) childless
  exact running.canAdopt_scope kept.none success

/-- After a fault the content is run only by hand, and the fault decides. -/
theorem Session.alike_container_of_fault {error : BuildError}
    (failed : (session.construct kind).builder.fault = some error) :
    Session.Alike (.behind session.builder.tree.size name)
      (Program.run session [.container kind content finish])
      (Program.run session
        (Program.byHand kind content finish name session.builder.tree.size)) := by
  let key := session.builder.tree.size
  let leaf := (session.construct kind).finishNode key finish
  have afterLeaf : leaf.builder.fault = some error :=
    ((session.construct kind).fault_finishNode key finish).trans failed
  refine .inl ⟨error, ?_, ?_⟩
  · rw [Program.run, Program.run, Statement.run_container_of_fault content finish (by simp [failed])]
    exact afterLeaf
  · exact Program.fault_run (.beginCapture name :: (content ++
      [.endCapture (.stored name) (.numbered key)])) afterLeaf

/-- Wherever it is reached, a container made by hand is like the container. -/
theorem Session.alike_container {scopes : List Scope}
    (reachable : Moment.Reachable False ⟨session.builder, scopes⟩)
    (fresh : name ∉ Program.tokenNames content)
    (hidden : ∀ stored ∈ finish.name, stored ∉ Program.nodeNames content)
    (avoids : (Statement.container kind content finish).Avoids session.builder.tree.size session) :
    Session.Alike (.behind session.builder.tree.size name)
      (Program.run session [.container kind content finish])
      (Program.run session
        (Program.byHand kind content finish name session.builder.tree.size)) := by
  cases faults : (session.construct kind).builder.fault with
  | some error => exact session.alike_container_of_fault kind content finish name faults
  | none =>
    let key := session.builder.tree.size
    let opened := (session.construct kind).openContainer
    let token := opened.builder.stack.token
    let ran := Program.run opened content
    let leaf := (session.construct kind).finishNode key finish
    let image := Program.run (leaf.beginCapture name) content
    have container : Program.run session [.container kind content finish] =
        (ran.closeContainer token key).finishNode key finish :=
      Statement.run_container content finish faults
    have byHand : Program.run session (Program.byHand kind content finish name key) =
        image.endCapture (.stored name) (.numbered key) := by
      rw [Program.byHand, Program.run_append, Program.run_append]
      rfl
    -- The content sees none of what the leaf is ahead by.
    have mirrors : ran.Mirrors (.inside key finish name token) image := by
      refine Program.run_mirrors content ⟨fun other used => ?_, fun other used => ?_⟩
        (session.mirrors_opened kind finish name)
      · exact if_neg fun same => hidden other same used
      · exact if_neg fun (same : other = name) => fresh (same ▸ used)
    have held : image.tokens.lookup name = some token := by
      rw [mirrors.tokens]
      simp [Overlay.inside]
    obtain ⟨builders, names, tokens⟩ := Session.endCapture_stored held key
    have able := session.able_container kind content finish reachable faults avoids
    rw [container, byHand]
    rcases mirrors.builder.close able with ⟨error, left, right⟩ | closed
    · exact .inl ⟨error, (Session.fault_finishNode ..).trans left, builders ▸ right⟩
    · -- What the leaf was ahead by, the container now has too; only the token is left over.
      refine .inr ⟨?_, fun other => ?_, fun other => ?_⟩
      · rw [Session.builder_finishNode, builders]
        exact closed
      · rw [names, mirrors.names, Session.lookup_names_finishNode]
        simp only [Overlay.inside, Overlay.behind]
        split <;> rfl
      · rw [tokens, mirrors.tokens, Session.tokens_finishNode]
        simp only [Overlay.inside, Overlay.behind]
        split <;> rfl

end Hole

/-! ## Wherever it stands -/

/-- A program with a gap in it, which may lie inside containers. -/
inductive Context where
  | gap (before after : Program)
  | inside (before : Program) (kind : Kind) (content : Context) (finish : Finish) (after : Program)

namespace Context

/-- Puts statements into the gap. -/
def fill (middle : Program) : Context → Program
  | gap before after => before ++ (middle ++ after)
  | inside before kind content finish after =>
    before ++ .container kind (content.fill middle) finish :: after

/-- The session in which a run comes to the gap. -/
def reach [Generator γ] (session : Session γ) : Context → Session γ
  | gap before _ => Program.run session before
  | inside before kind content _ _ =>
    content.reach ((Program.run session before).construct kind).openContainer

end Context

theorem Overlay.spares_program_append {overlay : Overlay} {first second : Program} :
    overlay.Spares (Program.nodeNames (first ++ second)) (Program.tokenNames (first ++ second)) ↔
      overlay.Spares (Program.nodeNames first) (Program.tokenNames first) ∧
        overlay.Spares (Program.nodeNames second) (Program.tokenNames second) := by
  induction first with
  | nil => simp [Spares, Program.nodeNames, Program.tokenNames]
  | cons statement rest ih =>
    simp only [List.cons_append, Program.nodeNames, Program.tokenNames, spares_append, ih, and_assoc]

namespace Session.Alike

variable {overlay : Overlay} {session image : Session γ}

theorem run [Generator γ] (alike : Alike overlay session image) (program : Program)
    (spared : overlay.Spares (Program.nodeNames program) (Program.tokenNames program)) :
    Alike overlay (Program.run session program) (Program.run image program) := by
  rcases alike with ⟨error, left, right⟩ | mirrors
  · exact .inl ⟨error, Program.fault_run program left, Program.fault_run program right⟩
  · exact .inr (Program.run_mirrors program spared mirrors)

/-- The containers around go on alike. -/
theorem leave [Generator γ] (alike : Alike overlay session image) (plain : overlay.modifiers = [])
    (token : Token) (key : Key) {finish : Finish}
    (spared : overlay.Spares finish.name.toList []) :
    Alike overlay ((session.closeContainer token key).finishNode key finish)
      ((image.closeContainer token key).finishNode key finish) := by
  rcases alike with ⟨error, left, right⟩ | mirrors
  · have kept : ∀ {builder : Builder γ}, builder.fault = some error →
        (builder.closeContainer token key).fault = some error := fun failed =>
      Builder.fault_performAll_of_fault failed [.leave token key]
    exact .inl ⟨error, (fault_finishNode ..).trans (kept left),
      (fault_finishNode ..).trans (kept right)⟩
  · exact .inr ((mirrors.closeContainer token key).finishNode (.inl plain) spared)

/-- Runs that are alike have the same outcome. -/
theorem outcome_eq (alike : Alike overlay session image) (plain : overlay.modifiers = []) :
    session.builder.outcome = image.builder.outcome := by
  rcases alike with ⟨error, left, right⟩ | mirrors
  · rw [Builder.outcome, Builder.outcome, left, right]
  · have trees : image.builder.tree = session.builder.tree := by
      rw [mirrors.builder.tree, plain]
      rfl
    rw [Builder.outcome, Builder.outcome, mirrors.builder.fault, mirrors.builder.stack, trees]

end Session.Alike

/-- Programs that are alike in a gap are alike around it. -/
theorem Context.run_alike [Generator γ] {overlay : Overlay} (plain : overlay.modifiers = [])
    {first second : Program} (context : Context) (session : Session γ) {scopes : List Scope}
    (reachable : Moment.Reachable False ⟨session.builder, scopes⟩)
    (spared : overlay.Spares (Program.nodeNames (context.fill first))
      (Program.tokenNames (context.fill first)))
    (alike : ∀ {inner : List Scope},
      Moment.Reachable False ⟨(context.reach session).builder, inner⟩ →
      overlay.Spares (Program.nodeNames first) (Program.tokenNames first) →
      Session.Alike overlay (Program.run (context.reach session) first)
        (Program.run (context.reach session) second)) :
    Session.Alike overlay (Program.run session (context.fill first))
      (Program.run session (context.fill second)) := by
  -- The run comes to the gap by steps, so what is reachable goes along with the induction.
  induction context generalizing session scopes with
  | gap before after =>
    obtain ⟨_, onwards⟩ := Overlay.spares_program_append.mp spared
    obtain ⟨filled, behind⟩ := Overlay.spares_program_append.mp onwards
    rw [fill, fill, Program.run_append, Program.run_append, Program.run_append, Program.run_append]
    exact (alike (reachable.run before) filled).run after behind
  | inside before kind content finish after ih =>
    obtain ⟨_, onwards⟩ := Overlay.spares_program_append.mp spared
    obtain ⟨here, behind⟩ := Overlay.spares_append.mp onwards
    obtain ⟨within, own⟩ := Overlay.spares_container.mp here
    rw [fill, fill, Program.run_append, Program.run_append, Program.run, Program.run]
    refine Session.Alike.run ?_ after behind
    let start := Program.run session before
    by_cases sound : (start.construct kind).builder.fault = none
    · rw [Statement.run_container _ finish sound, Statement.run_container _ finish sound]
      have entered := (reachable.run before).enter sound
      exact (ih (start.construct kind).openContainer entered within alike).leave plain _ _ own
    · rw [Statement.run_container_of_fault _ finish sound,
        Statement.run_container_of_fault _ finish sound]
      obtain ⟨error, failed⟩ := Option.ne_none_iff_exists'.mp sound
      exact .inl ⟨error, (Session.fault_finishNode ..).trans failed,
        (Session.fault_finishNode ..).trans failed⟩

/-- A container can be made by hand in every program and at every place, with the same outcome: the
same tree, or the same error. The name for the token is new, the content does not use the name of
the container, and it closes no level for the container. -/
theorem Context.container_by_hand [Generator γ] (ids : Allocator γ) (context : Context) (kind : Kind)
    (content : Program) (finish : Finish) (name : String)
    (fresh : name ∉ Program.tokenNames (context.fill [.container kind content finish]))
    (hidden : ∀ stored ∈ finish.name, stored ∉ Program.nodeNames content)
    (avoids : let reached := context.reach { builder := { ids } }
      (Statement.container kind content finish).Avoids reached.builder.tree.size reached) :
    let start : Session γ := { builder := { ids } }
    let leaf := (context.reach start).builder.tree.size
    (Program.run start (context.fill [.container kind content finish])).builder.finish.1 =
      (Program.run start
        (context.fill (Program.byHand kind content finish name leaf))).builder.finish.1 := by
  intro start leaf
  have spared : (Overlay.behind leaf name).Spares
      (Program.nodeNames (context.fill [.container kind content finish]))
      (Program.tokenNames (context.fill [.container kind content finish])) :=
    ⟨fun _ _ => rfl, fun other used => if_neg fun (same : other = name) => fresh (same ▸ used)⟩
  rw [Builder.finish_fst, Builder.finish_fst]
  refine (context.run_alike rfl start ⟨ids, .refl⟩ spared fun reachable filled => ?_).outcome_eq rfl
  have freshInside : name ∉ Program.tokenNames content := by
    intro used
    have covered : (Overlay.behind leaf name).tokens name = some none := if_pos rfl
    rw [filled.2 name (List.mem_append_left _ used)] at covered
    contradiction
  exact Session.alike_container _ kind content finish name reachable freshInside hidden avoids

/-- Inside another container, with a content that closes the level it runs in for a node beside it,
and opens another one in its place. -/
theorem Context.container_by_hand_reopened :
    let context : Context := .inside [.hstack []] .vstack (.gap [.text "x"] [.text "y"]) {} []
    let content : Program :=
      [.text "a", .endCapture (.forged ⟨2⟩) (.numbered 0), .beginCapture "level",
        .hstack [.text "b"]]
    let finish : Finish := { modifiers := [.padding .default], name := some "box" }
    let start : Session KeyStream := { builder := { ids := Config.sequential.allocator default } }
    let container := context.fill [.container .list content finish]
    let byHand := context.fill (Program.byHand .list content finish "token" 3)
    ∃ tree, (Program.run start container).builder.finish.1 = .ok tree ∧
      (Program.run start byHand).builder.finish.1 = .ok tree ∧
      tree.children 0 = [4] ∧ tree.children 3 = [5] := by
  intro context content finish start container byHand
  have same := Context.container_by_hand (Config.sequential.allocator default) context .list content finish
    "token" (by decide) (by decide) (by decide)
  have finished : (Program.run start container).builder.finish.1 =
      .ok (Program.run start container).builder.tree :=
    Builder.finish_of_closed (by decide) (by decide)
  exact ⟨_, finished, same.symm.trans finished, by decide, by decide⟩

end ViewMarkup
