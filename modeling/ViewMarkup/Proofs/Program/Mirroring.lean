import ViewMarkup.Proofs.Build.Likeness
import ViewMarkup.Proofs.Tree.Modifying

/-! # Runs that mirror each other

Two runs of the same statements are alike even if they start a little apart: in the second one the
modifiers of some node are already applied, and some names and tokens that the statements do not use
stand for something else. An overlay says what is different, and `Session.Mirrors` that nothing else
is, events and the journal aside. Every statement keeps an overlay, so a whole program does.
-/

namespace ViewMarkup

open ViewMarkup.Random

variable {γ : Type}

namespace Builder

variable {key : Key} {modifiers : List Modifier} {builder image : Builder γ}

/-- The image is the builder with the modifiers of a node already applied, up to events. -/
structure Mirrors (key : Key) (modifiers : List Modifier) (builder image : Builder γ) : Prop where
  present : key < builder.tree.size
  tree : image.tree = builder.tree.modifyAll key modifiers
  stack : image.stack = builder.stack
  ids : image.ids = builder.ids
  fault : image.fault = builder.fault

namespace Mirrors

theorem size (mirrors : builder.Mirrors key modifiers image) :
    image.tree.size = builder.tree.size := by
  rw [mirrors.tree, Tree.size_modifyAll]

theorem like (mirrors : builder.Mirrors key modifiers image) :
    builder.Like (fun place node other =>
      other = if place = key then modifiers.foldl Node.modify node else node) True image where
  tree := mirrors.tree ▸ builder.tree.like_modifyAll key modifiers
  stack := mirrors.stack
  sound := by rw [mirrors.fault]
  fault _ := mirrors.fault

theorem of_like (present : key < builder.tree.size)
    (like : builder.Like (fun place node other =>
      other = if place = key then modifiers.foldl Node.modify node else node) True image)
    (ids : image.ids = builder.ids) : builder.Mirrors key modifiers image where
  present := present
  tree := (builder.tree.like_modifyAll key modifiers).determined like.tree
  stack := like.stack
  ids := ids
  fault := like.fault trivial

/-- What leaves labels and allocators alone and keeps builders alike keeps a mirror. -/
theorem of_keepsLabels (mirrors : builder.Mirrors key modifiers image) {after afterImage : Builder γ}
    (like : after.Like (fun place node other =>
      other = if place = key then modifiers.foldl Node.modify node else node) True afterImage)
    (kept : builder.KeepsLabels after) (keptImage : image.KeepsLabels afterImage) :
    after.Mirrors key modifiers afterImage := by
  apply of_like _ like
  · rw [keptImage.ids, kept.ids, mirrors.ids]
  · rw [kept.size_eq]
    exact mirrors.present

theorem record (mirrors : builder.Mirrors key modifiers image) (error : BuildError) :
    (builder.record error).Mirrors key modifiers (image.record error) :=
  mirrors.of_keepsLabels (mirrors.like.record fun _ => rfl) (keepsLabels_record ..)
    (keepsLabels_record ..)

theorem nextIdentifier [Generator γ] (mirrors : builder.Mirrors key modifiers image) :
    image.nextIdentifier.1 = builder.nextIdentifier.1 ∧
      builder.nextIdentifier.2.Mirrors key modifiers image.nextIdentifier.2 := by
  rw [Builder.nextIdentifier, Builder.nextIdentifier, mirrors.ids]
  split
  · exact ⟨rfl, mirrors.present, mirrors.tree, mirrors.stack, rfl, mirrors.fault⟩
  · exact ⟨rfl, mirrors.record _⟩

theorem construct [Generator γ] (mirrors : builder.Mirrors key modifiers image) (kind : Kind) :
    (builder.construct kind).Mirrors key modifiers (image.construct kind) := by
  have added := builder.addsLabel_construct kind
  have addedImage := image.addsLabel_construct kind
  obtain ⟨names, named⟩ := mirrors.nextIdentifier
  apply of_like
  · rw [added.size_eq]
    exact Nat.lt_succ_of_lt mirrors.present
  · rw [construct_eq_place, construct_eq_place, names]
    apply named.like.place
    rw [if_neg (Nat.ne_of_gt named.present)]
  · rw [addedImage.ids, added.ids, named.ids]

theorem beginCapture (mirrors : builder.Mirrors key modifiers image) :
    builder.beginCapture.Mirrors key modifiers image.beginCapture :=
  of_like mirrors.present mirrors.like.beginCapture mirrors.ids

theorem attach (mirrors : builder.Mirrors key modifiers image) (parent : Key) (keys : List Key) :
    Mirrors key modifiers { builder with tree := builder.tree.attach parent keys }
      { image with tree := image.tree.attach parent keys } :=
  of_like ((builder.tree.size_attach parent keys).symm ▸ mirrors.present)
    (mirrors.like.attach parent keys) mirrors.ids

/-- A level is closed in both or in neither, with the same nodes or for the same reason. -/
theorem closeLevel (mirrors : builder.Mirrors key modifiers image) (token : Token) :
    (∃ cause, builder.closeLevel token = .error cause ∧ image.closeLevel token = .error cause) ∨
      ∃ keys closed closedImage, builder.closeLevel token = .ok (keys, closed) ∧
        image.closeLevel token = .ok (keys, closedImage) ∧
        closed.Mirrors key modifiers closedImage := by
  rcases mirrors.like.closeLevel token with
    failed | ⟨keys, closed, closedImage, left, right, like⟩
  · exact .inl failed
  · obtain ⟨trees, ids, _⟩ := closeLevel_frame left
    obtain ⟨_, idsImage, _⟩ := closeLevel_frame right
    refine .inr ⟨keys, closed, closedImage, left, right, of_like (trees ▸ mirrors.present) like ?_⟩
    rw [idsImage, ids, mirrors.ids]

theorem closeContainer (mirrors : builder.Mirrors key modifiers image) (token : Token)
    (container : Key) :
    (builder.closeContainer token container).Mirrors key modifiers
      (image.closeContainer token container) :=
  mirrors.of_keepsLabels (mirrors.like.closeContainer token container)
    (keepsLabels_closeContainer ..) (keepsLabels_closeContainer ..)

theorem endCapture (mirrors : builder.Mirrors key modifiers image) (token : Token) (parent : Key) :
    (builder.endCapture token parent).2.Mirrors key modifiers (image.endCapture token parent).2 := by
  apply mirrors.of_keepsLabels _ (keepsLabels_endCapture ..) (keepsLabels_endCapture ..)
  apply mirrors.like.endCapture
  rintro _ place node _ rfl
  split <;> simp

/-- The modifiers of another node do not meet those that are already applied. -/
theorem modify (mirrors : builder.Mirrors key modifiers image) {other : Key}
    (apart : modifiers = [] ∨ key ≠ other) (others : List Modifier) :
    (builder.modify other others).Mirrors key modifiers (image.modify other others) where
  present := (builder.tree.size_modifyAll other others).symm ▸ mirrors.present
  tree := by
    rw [Builder.modify, Builder.modify, mirrors.tree]
    rcases apart with rfl | apart
    · rfl
    · exact (Tree.modifyAll_comm _ _ _ apart others).symm
  stack := mirrors.stack
  ids := mirrors.ids
  fault := mirrors.fault

end Mirrors

end Builder

/-! ## Names and tokens -/

/-- The name that a reference uses. -/
def Reference.names : Reference → List String
  | .named name => [name]
  | _ => []

/-- The name of a stored token. -/
def TokenReference.names : TokenReference → List String
  | .stored name => [name]
  | .forged _ => []

mutual

/-- The names under which a statement stores nodes or looks them up. -/
def Statement.nodeNames : Statement → List String
  | .leaf _ finish => finish.name.toList
  | .container _ content finish => Program.nodeNames content ++ finish.name.toList
  | .endCapture _ parent => parent.names
  | .beginCapture _ | .snapshot => []

/-- The names under which a program stores nodes or looks them up. -/
def Program.nodeNames : List Statement → List String
  | [] => []
  | statement :: rest => statement.nodeNames ++ Program.nodeNames rest

end

mutual

/-- The names under which a statement stores tokens or takes them. -/
def Statement.tokenNames : Statement → List String
  | .container _ content _ => Program.tokenNames content
  | .beginCapture name => [name]
  | .endCapture token _ => token.names
  | .leaf .. | .snapshot => []

/-- The names under which a program stores tokens or takes them. -/
def Program.tokenNames : List Statement → List String
  | [] => []
  | statement :: rest => statement.tokenNames ++ Program.tokenNames rest

end

/-- What a run has in advance of another: the modifiers of a node, and names and tokens that stand for
something else, or for nothing. -/
structure Overlay where
  key : Key
  modifiers : List Modifier := []
  names : String → Option (Option Key) := fun _ => none
  tokens : String → Option (Option Token) := fun _ => none

namespace Overlay

/-- None of the names is covered. -/
def Spares (overlay : Overlay) (nodes tokens : List String) : Prop :=
  (∀ name ∈ nodes, overlay.names name = none) ∧ ∀ name ∈ tokens, overlay.tokens name = none

theorem spares_append {overlay : Overlay} {nodes moreNodes tokens moreTokens : List String} :
    overlay.Spares (nodes ++ moreNodes) (tokens ++ moreTokens) ↔
      overlay.Spares nodes tokens ∧ overlay.Spares moreNodes moreTokens := by
  simp only [Spares, List.forall_mem_append]
  exact and_and_and_comm

theorem spares_container {overlay : Overlay} {kind : Kind} {content : Program} {finish : Finish} :
    overlay.Spares (Statement.container kind content finish).nodeNames
        (Statement.container kind content finish).tokenNames ↔
      overlay.Spares (Program.nodeNames content) (Program.tokenNames content) ∧
        overlay.Spares finish.name.toList [] := by
  rw [Statement.nodeNames, Statement.tokenNames, ← spares_append, List.append_nil]

end Overlay

section Lookup

variable {α : Type} (entries : List (String × α)) (name other : String)

theorem lookup_cons_ite (value : α) :
    ((name, value) :: entries).lookup other =
      if other = name then some value else entries.lookup other := by
  by_cases same : other = name
  · simp [same]
  · rw [List.lookup_cons, beq_false_of_ne same, if_neg same]

/-- An entry that is taken out is not found, and every other is found as before. -/
theorem lookup_filter_ne :
    (entries.filter (·.1 != name)).lookup other =
      if other = name then none else entries.lookup other := by
  induction entries with
  | nil => simp
  | cons entry rest ih =>
    obtain ⟨first, value⟩ := entry
    rw [lookup_cons_ite]
    by_cases taken : first = name
    · rw [List.filter_cons_of_neg (by simp [taken]), ih, taken]
      split <;> rfl
    · rw [List.filter_cons_of_pos (by simp [taken]), lookup_cons_ite, ih]
      by_cases here : other = first
      · simp [here, taken]
      · simp [here]

end Lookup

namespace Session

section Lookup

variable (session : Session γ)

theorem lookup_names_finishNode (key : Key) (finish : Finish) (name : String) :
    (session.finishNode key finish).names.lookup name =
      if finish.name = some name then some key else session.names.lookup name := by
  rw [names_finishNode]
  cases finish.name with
  | none => rfl
  | some first => simpa [eq_comm] using lookup_cons_ite session.names first name key

theorem lookup_tokens_beginCapture (name other : String) :
    (session.beginCapture name).tokens.lookup other =
      if other = name then some session.builder.beginCapture.stack.token
      else session.tokens.lookup other := by
  rw [beginCapture, note, lookup_cons_ite, lookup_filter_ne]
  split <;> rfl

end Lookup

variable {overlay : Overlay} {session image : Session γ}

/-- The image is the session under an overlay, up to events and the journal. -/
structure Mirrors (overlay : Overlay) (session image : Session γ) : Prop where
  builder : session.builder.Mirrors overlay.key overlay.modifiers image.builder
  names : ∀ name, image.names.lookup name = (overlay.names name).getD (session.names.lookup name)
  tokens : ∀ name,
    image.tokens.lookup name = (overlay.tokens name).getD (session.tokens.lookup name)

namespace Mirrors

theorem construct [Generator γ] (mirrors : session.Mirrors overlay image) (kind : Kind) :
    (session.construct kind).Mirrors overlay (image.construct kind) :=
  ⟨mirrors.builder.construct kind, mirrors.names, mirrors.tokens⟩

theorem openContainer (mirrors : session.Mirrors overlay image) :
    session.openContainer.Mirrors overlay image.openContainer :=
  ⟨mirrors.builder.beginCapture, mirrors.names, mirrors.tokens⟩

theorem closeContainer (mirrors : session.Mirrors overlay image) (token : Token) (key : Key) :
    (session.closeContainer token key).Mirrors overlay (image.closeContainer token key) :=
  ⟨mirrors.builder.closeContainer token key, mirrors.names, mirrors.tokens⟩

theorem finishNode (mirrors : session.Mirrors overlay image) {key : Key}
    (apart : overlay.modifiers = [] ∨ overlay.key ≠ key) {finish : Finish}
    (spared : overlay.Spares finish.name.toList []) :
    (session.finishNode key finish).Mirrors overlay (image.finishNode key finish) where
  builder := by
    rw [builder_finishNode, builder_finishNode]
    exact mirrors.builder.modify apart finish.modifiers
  names name := by
    rw [lookup_names_finishNode, lookup_names_finishNode]
    split
    · next stored => rw [spared.1 name (by simp [stored]), Option.getD_none]
    · exact mirrors.names name
  tokens := by
    rw [tokens_finishNode, tokens_finishNode]
    exact mirrors.tokens

theorem beginCapture (mirrors : session.Mirrors overlay image) {name : String}
    (spared : overlay.Spares [] [name]) :
    (session.beginCapture name).Mirrors overlay (image.beginCapture name) where
  builder := mirrors.builder.beginCapture
  names := mirrors.names
  tokens other := by
    rw [lookup_tokens_beginCapture, lookup_tokens_beginCapture, mirrors.builder.beginCapture.stack]
    split
    · next same => rw [spared.2 other (by simp [same]), Option.getD_none]
    · exact mirrors.tokens other

/-- A token that is not covered is taken in both or in neither. -/
theorem takeToken? (mirrors : session.Mirrors overlay image) {token : TokenReference}
    (spared : overlay.Spares [] token.names) :
    (session.takeToken? token = none ∧ image.takeToken? token = none) ∨
      ∃ taken rest restImage, session.takeToken? token = some (taken, rest) ∧
        image.takeToken? token = some (taken, restImage) ∧ rest.Mirrors overlay restImage := by
  cases token with
  | forged token => exact .inr ⟨token, session, image, rfl, rfl, mirrors⟩
  | stored name =>
    have uncovered : overlay.tokens name = none := spared.2 name (List.mem_singleton_self name)
    have same : image.tokens.lookup name = session.tokens.lookup name := by
      rw [mirrors.tokens, uncovered, Option.getD_none]
    rw [Session.takeToken?, Session.takeToken?, same]
    cases session.tokens.lookup name with
    | none => exact .inl ⟨rfl, rfl⟩
    | some taken =>
      refine .inr ⟨taken, _, _, rfl, rfl, mirrors.builder, mirrors.names, fun other => ?_⟩
      rw [lookup_filter_ne, lookup_filter_ne]
      split
      · next here => rw [here, uncovered, Option.getD_none]
      · exact mirrors.tokens other

theorem endCapture (mirrors : session.Mirrors overlay image) {token : TokenReference}
    {parent : Reference} (spared : overlay.Spares parent.names token.names) :
    (session.endCapture token parent).Mirrors overlay (image.endCapture token parent) := by
  rw [Session.endCapture, Session.endCapture]
  rcases mirrors.takeToken? ⟨by simp, spared.2⟩ with
    ⟨left, right⟩ | ⟨taken, rest, restImage, left, right, mirrored⟩
  · rw [left, right]
    exact mirrors
  · have found : parent.resolve restImage.names restImage.builder.tree =
        parent.resolve rest.names rest.builder.tree := by
      rw [mirrored.builder.tree]
      refine Reference.resolve_modifyAll (fun name used => ?_) ..
      rw [mirrored.names, spared.1 name (by simp [used, Reference.names]), Option.getD_none]
    simp only [left, right, found]
    exact ⟨mirrored.builder.endCapture .., mirrored.names, mirrored.tokens⟩

end Mirrors

end Session

/-! ## Running statements -/

mutual

/-- A statement that uses nothing of an overlay keeps it. -/
theorem Statement.run_mirrors [Generator γ] {overlay : Overlay} {session image : Session γ}
    (statement : Statement) (spared : overlay.Spares statement.nodeNames statement.tokenNames)
    (mirrors : session.Mirrors overlay image) :
    (statement.run session).Mirrors overlay (statement.run image) := by
  cases statement with
  | leaf kind finish =>
    rw [Statement.run, Statement.run, mirrors.builder.size]
    exact (mirrors.construct kind).finishNode (.inr (Nat.ne_of_lt mirrors.builder.present)) spared
  | container kind content finish =>
    have apart := Nat.ne_of_lt mirrors.builder.present
    have constructed := mirrors.construct kind
    have opened := constructed.openContainer
    obtain ⟨inside, outside⟩ := Overlay.spares_container.mp spared
    rw [Statement.run, Statement.run, mirrors.builder.size]
    simp only [constructed.builder.fault, opened.builder.stack]
    split
    · have ran := Program.run_mirrors content inside opened
      exact (ran.closeContainer ..).finishNode (.inr apart) outside
    · exact constructed.finishNode (.inr apart) outside
  | beginCapture name => exact mirrors.beginCapture spared
  | endCapture token parent => exact mirrors.endCapture spared
  | snapshot => exact ⟨mirrors.builder, mirrors.names, mirrors.tokens⟩

/-- A program that uses nothing of an overlay keeps it. -/
theorem Program.run_mirrors [Generator γ] {overlay : Overlay} {session image : Session γ}
    (program : List Statement)
    (spared : overlay.Spares (Program.nodeNames program) (Program.tokenNames program))
    (mirrors : session.Mirrors overlay image) :
    (Program.run session program).Mirrors overlay (Program.run image program) := by
  cases program with
  | nil => exact mirrors
  | cons statement rest =>
    obtain ⟨first, others⟩ := Overlay.spares_append.mp spared
    rw [Program.run, Program.run]
    exact Program.run_mirrors rest others (statement.run_mirrors first mirrors)

end

end ViewMarkup
