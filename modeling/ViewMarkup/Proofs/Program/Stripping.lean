import ViewMarkup.Compiler
import ViewMarkup.Proofs.Build.Likeness
import ViewMarkup.Proofs.Tree.Editing

/-! # Programs without their modifiers

Stripping a program takes all modifier calls out of it. The stripped program builds the same links:
nothing that happens during a build reads what a modifier has set. So the calls can as well be made
on the finished tree, in any order that leaves the same call last for each slot of each node.

The two runs are compared step by step. `Session.Underlies` says that one session is the other with
some calls made on it, events and the journal aside. How the identifiers of the two runs go
together is left to a `Supply`, since a program that never looks a node up by its identifier takes
the same steps under every supply that does not run out.
-/

namespace ViewMarkup

open ViewMarkup.Random

variable {γ δ : Type}

/-! ## Taking the modifiers out -/

/-- The same without modifiers. -/
def Finish.strip (finish : Finish) : Finish :=
  { finish with modifiers := [] }

mutual

/-- The statement without modifiers. -/
def Statement.strip : Statement → Statement
  | .leaf kind finish => .leaf kind finish.strip
  | .container kind content finish => .container kind (Program.strip content) finish.strip
  | .beginCapture name => .beginCapture name
  | .endCapture token parent => .endCapture token parent
  | .snapshot => .snapshot

/-- The program without modifiers. -/
def Program.strip : List Statement → List Statement
  | [] => []
  | statement :: rest => statement.strip :: Program.strip rest

end

mutual

/-- The calls that are taken out of a statement when its stripped form runs, in the order in which
the statement makes them, each with the key of its node. -/
def Statement.removed [Generator γ] (session : Session γ) : Statement → List (Key × Modifier)
  | .leaf _ finish => finish.modifiers.map (session.builder.tree.size, ·)
  | .container kind content finish =>
    (if (session.construct kind).builder.fault.isNone then
      Program.removed (session.construct kind).openContainer content
    else []) ++ finish.modifiers.map (session.builder.tree.size, ·)
  | .beginCapture _ | .endCapture .. | .snapshot => []

/-- The calls that are taken out of a program when its stripped form runs, in the order in which the
program makes them, each with the key of its node. -/
def Program.removed [Generator γ] (session : Session γ) : List Statement → List (Key × Modifier)
  | [] => []
  | statement :: rest =>
    statement.removed session ++ Program.removed (statement.strip.run session) rest

end

mutual

/-- Whether a statement looks no node up by its identifier. -/
def Statement.isBlind : Statement → Bool
  | .container _ content _ => Program.isBlind content
  | .endCapture _ parent => !parent.usesIdentifier
  | .leaf .. | .beginCapture _ | .snapshot => true

/-- Whether a program looks no node up by its identifier. -/
def Program.isBlind : List Statement → Bool
  | [] => true
  | statement :: rest => statement.isBlind && Program.isBlind rest

end

/-! ## The allocators of two runs -/

/-- How the allocators of two runs go together: what holds between them after a number of calls, for
how many calls there is room, and whether they give the same identifiers. -/
structure Supply (γ δ : Type) [Generator γ] [Generator δ] where
  named : Prop
  room : Nat → Prop
  holds : Nat → Allocator γ → Allocator δ → Prop
  allocate : ∀ {count : Nat} {first : Allocator γ} {second : Allocator δ},
    holds count first second → room count →
    (∃ cause, first.allocate = .error cause ∧ second.allocate = .error cause ∧
      holds (count + 1) first second) ∨
    ∃ name other next following, first.allocate = .ok (name, next) ∧
      second.allocate = .ok (other, following) ∧ (named → other = name) ∧
      holds (count + 1) next following

namespace Supply

/-- The allocators are the same. -/
def same (γ : Type) [Generator γ] : Supply γ γ where
  named := True
  room _ := True
  holds _ first second := second = first
  allocate := by
    rintro count _ ids rfl -
    cases answer : ids.allocate with
    | error cause => exact .inl ⟨cause, rfl, rfl, rfl⟩
    | ok pair => exact .inr ⟨pair.1, pair.1, pair.2, pair.2, rfl, rfl, fun _ => rfl, rfl⟩

end Supply

/-! ## What underlies a session -/

/-- The second node is the first one after the calls on its key, under a name of its own unless the
nodes of the two runs are named alike. -/
def Node.Dresses (named : Prop) (edits : List (Key × Modifier)) (key : Key) (node other : Node) :
    Prop :=
  ∃ identifier, other = { node.edited key edits with identifier } ∧
    (named → identifier = node.identifier)

namespace Node

variable {named : Prop} {edits : List (Key × Modifier)} {key place : Key} {node other : Node}

@[simp] theorem identifier_edited (node : Node) (key : Key) (edits : List (Key × Modifier)) :
    (node.edited key edits).identifier = node.identifier := by
  rw [edited, identifier_foldl_modify]

theorem foldl_modify_rename (node : Node) (identifier : String) (modifiers : List Modifier) :
    modifiers.foldl modify { node with identifier } =
      { modifiers.foldl modify node with identifier } := by
  induction modifiers generalizing node with
  | nil => rfl
  | cons modifier rest ih =>
    rw [List.foldl_cons, List.foldl_cons, ← ih]
    cases modifier <;> rfl

theorem Dresses.identifier_eq (dresses : node.Dresses named edits key other) (alike : named) :
    other.identifier = node.identifier := by
  obtain ⟨identifier, rfl, renamed⟩ := dresses
  exact renamed alike

/-- Nodes that are named alike differ by the calls alone. -/
theorem Dresses.eq_edited (dresses : node.Dresses named edits key other) (alike : named) :
    other = node.edited key edits := by
  obtain ⟨identifier, rfl, renamed⟩ := dresses
  rw [renamed alike, ← node.identifier_edited key edits]

/-- Calls on one key are added at the end. -/
theorem Dresses.modify (dresses : node.Dresses named edits place other)
    (modifiers : List Modifier) :
    node.Dresses named (edits ++ modifiers.map (key, ·)) place
      (if place = key then modifiers.foldl Node.modify other else other) := by
  obtain ⟨identifier, rfl, renamed⟩ := dresses
  refine ⟨identifier, ?_, renamed⟩
  rw [edited_append, edited_map]
  split
  · exact foldl_modify_rename ..
  · rfl

end Node

namespace Session

variable [Generator γ] [Generator δ] {supply : Supply γ δ} {edits : List (Key × Modifier)}
  {bare : Session γ} {full : Session δ}

/-- The full session is the bare one after some calls, up to events, identifiers and the journal. -/
structure Underlies (supply : Supply γ δ) (edits : List (Key × Modifier)) (bare : Session γ)
    (full : Session δ) : Prop where
  like : bare.builder.Like (Node.Dresses supply.named edits) supply.named full.builder
  present : ∀ edit ∈ edits, edit.1 < bare.builder.tree.size
  ids : supply.holds bare.builder.tree.size bare.builder.ids full.builder.ids
  names : full.names = bare.names
  tokens : full.tokens = bare.tokens

namespace Underlies

/-- Both allocators are asked once, and both give an answer or neither does. -/
theorem nextIdentifier (under : bare.Underlies supply edits full)
    (room : supply.room bare.builder.tree.size) :
    bare.builder.nextIdentifier.2.Like (Node.Dresses supply.named edits) supply.named
        full.builder.nextIdentifier.2 ∧
      (supply.named → full.builder.nextIdentifier.1 = bare.builder.nextIdentifier.1) ∧
      supply.holds (bare.builder.tree.size + 1) bare.builder.nextIdentifier.2.ids
        full.builder.nextIdentifier.2.ids := by
  rw [Builder.nextIdentifier, Builder.nextIdentifier]
  rcases supply.allocate under.ids room with
    ⟨cause, left, right, holds⟩ | ⟨name, other, next, following, left, right, alike, holds⟩
  · simp only [left, right]
    exact ⟨under.like.record fun _ => rfl, fun _ => trivial, holds⟩
  · simp only [left, right]
    exact ⟨⟨under.like.tree, under.like.stack, under.like.sound, under.like.fault⟩, alike, holds⟩

theorem construct (under : bare.Underlies supply edits full)
    (room : supply.room bare.builder.tree.size) (kind : Kind) :
    (bare.construct kind).Underlies supply edits (full.construct kind) := by
  have added := bare.builder.addsLabel_construct kind
  have addedFull := full.builder.addsLabel_construct kind
  obtain ⟨like, alike, holds⟩ := under.nextIdentifier room
  have absent : ∀ edit ∈ edits, edit.1 ≠ bare.builder.nextIdentifier.2.tree.size := by
    intro edit member
    rw [bare.builder.nextIdentifier_frame.1]
    exact Nat.ne_of_lt (under.present edit member)
  refine ⟨?_, fun edit member => ?_, ?_, under.names, under.tokens⟩
  · apply like.place
    refine ⟨full.builder.nextIdentifier.1, ?_, alike⟩
    rw [Node.edited_of_absent _ absent]
    rfl
  · exact Nat.lt_of_lt_of_eq (Nat.lt_succ_of_lt (under.present edit member)) added.size_eq.symm
  · have ids := holds
    rwa [← added.ids, ← addedFull.ids, ← added.size_eq] at ids

/-- What leaves labels and allocators alone and keeps builders alike goes on above what underlies. -/
theorem of_keepsLabels (under : bare.Underlies supply edits full) {bareAfter : Session γ}
    {fullAfter : Session δ}
    (like : bareAfter.builder.Like (Node.Dresses supply.named edits) supply.named fullAfter.builder)
    (kept : bare.builder.KeepsLabels bareAfter.builder)
    (keptFull : full.builder.KeepsLabels fullAfter.builder)
    (names : fullAfter.names = bareAfter.names) (tokens : fullAfter.tokens = bareAfter.tokens) :
    bareAfter.Underlies supply edits fullAfter := by
  refine ⟨like, ?_, ?_, names, tokens⟩
  · rw [kept.size_eq]
    exact under.present
  · rw [kept.size_eq, kept.ids, keptFull.ids]
    exact under.ids

theorem openContainer (under : bare.Underlies supply edits full) :
    bare.openContainer.Underlies supply edits full.openContainer :=
  under.of_keepsLabels under.like.beginCapture ⟨rfl, rfl, id⟩ ⟨rfl, rfl, id⟩ under.names under.tokens

theorem closeContainer (under : bare.Underlies supply edits full) (token : Token) (key : Key) :
    (bare.closeContainer token key).Underlies supply edits (full.closeContainer token key) :=
  under.of_keepsLabels (under.like.closeContainer token key) (Builder.keepsLabels_closeContainer ..)
    (Builder.keepsLabels_closeContainer ..) under.names under.tokens

theorem beginCapture (under : bare.Underlies supply edits full) (name : String) :
    (bare.beginCapture name).Underlies supply edits (full.beginCapture name) := by
  have opened := under.like.beginCapture
  refine under.of_keepsLabels opened ⟨rfl, rfl, id⟩ ⟨rfl, rfl, id⟩ under.names ?_
  rw [Session.beginCapture, Session.beginCapture]
  simp only [note, opened.stack, under.tokens]

/-- A token is taken in both or in neither. -/
theorem takeToken? (under : bare.Underlies supply edits full) (token : TokenReference) :
    (bare.takeToken? token = none ∧ full.takeToken? token = none) ∨
      ∃ taken rest restFull, bare.takeToken? token = some (taken, rest) ∧
        full.takeToken? token = some (taken, restFull) ∧ rest.Underlies supply edits restFull := by
  cases token with
  | forged token => exact .inr ⟨token, bare, full, rfl, rfl, under⟩
  | stored name =>
    rw [Session.takeToken?, Session.takeToken?, under.tokens]
    cases bare.tokens.lookup name with
    | none => exact .inl ⟨rfl, rfl⟩
    | some taken =>
      exact .inr ⟨taken, _, _, rfl, rfl, under.like, under.present, under.ids, under.names, rfl⟩

theorem endCapture (under : bare.Underlies supply edits full) (token : TokenReference)
    {parent : Reference} (blind : supply.named ∨ parent.usesIdentifier = false) :
    (bare.endCapture token parent).Underlies supply edits (full.endCapture token parent) := by
  rw [Session.endCapture, Session.endCapture]
  rcases under.takeToken? token with
    ⟨left, right⟩ | ⟨taken, rest, restFull, left, right, within⟩
  · rw [left, right]
    exact under
  · have found : parent.resolve restFull.names restFull.builder.tree =
        parent.resolve rest.names rest.builder.tree := by
      apply Reference.resolve_eq within.like.tree
      · intro name _
        rw [within.names]
      · intro uses key node other dresses
        rcases blind with alike | unused
        · exact dresses.identifier_eq alike
        · rw [unused] at uses
          contradiction
    simp only [left, right, found]
    refine within.of_keepsLabels ?_ (Builder.keepsLabels_endCapture ..)
      (Builder.keepsLabels_endCapture ..) within.names within.tokens
    exact within.like.endCapture (fun alike _ _ _ dresses => dresses.identifier_eq alike) ..

/-- The calls of a statement come after those that are made already. -/
theorem finishNode (under : bare.Underlies supply edits full) {key : Key}
    (present : key < bare.builder.tree.size) (finish : Finish) :
    (bare.finishNode key finish.strip).Underlies supply (edits ++ finish.modifiers.map (key, ·))
      (full.finishNode key finish) where
  like := by
    rw [builder_finishNode, builder_finishNode]
    refine ⟨?_, under.like.stack, under.like.sound, under.like.fault⟩
    apply under.like.tree.modifyAll
    intro place node other _ dresses
    exact dresses.modify finish.modifiers
  present edit member := by
    rw [builder_finishNode]
    rcases List.mem_append.mp member with before | added
    · exact under.present edit before
    · obtain ⟨modifier, _, rfl⟩ := List.mem_map.mp added
      exact present
  ids := by
    rw [builder_finishNode, builder_finishNode]
    exact under.ids
  names := by
    rw [names_finishNode, names_finishNode, under.names]
    rfl
  tokens := by rw [tokens_finishNode, tokens_finishNode, under.tokens]

end Underlies

end Session

/-! ## Running without the modifiers -/

section Run

variable [Generator γ] [Generator δ] {supply : Supply γ δ}

mutual

/-- A statement runs above its stripped form, and adds the calls that are taken out. -/
theorem Statement.run_underlies {edits : List (Key × Modifier)} {bare : Session γ}
    {full : Session δ}
    (statement : Statement) (blind : supply.named ∨ statement.isBlind = true)
    (room : ∀ count < (statement.strip.run bare).builder.tree.size, supply.room count)
    (under : bare.Underlies supply edits full) :
    (statement.strip.run bare).Underlies supply (edits ++ statement.removed bare)
      (statement.run full) := by
  cases statement with
  | leaf kind finish =>
    have fresh := bare.builder.size_lt_construct kind
    rw [Statement.strip, Statement.run] at room ⊢
    rw [Session.size_finishNode] at room
    have constructed := under.construct (room _ fresh) kind
    rw [Statement.run, under.like.tree.size]
    exact constructed.finishNode fresh finish
  | container kind content finish =>
    have fresh := bare.builder.size_lt_construct kind
    rw [Statement.strip] at room ⊢
    rw [Statement.removed, ← List.append_assoc]
    by_cases sound : (bare.construct kind).builder.fault = none
    · -- The calls of the content come first, then those on the container itself.
      have present := Nat.lt_of_lt_of_le fresh
        (Program.size_le_run (bare.construct kind).openContainer (Program.strip content))
      rw [Statement.run_container _ _ sound] at room ⊢
      rw [Session.size_finishNode, Session.size_closeContainer] at room
      have constructed := under.construct (room _ present) kind
      have opened := constructed.openContainer
      have ran := Program.run_underlies content blind room opened
      rw [Statement.run_container _ _ (constructed.like.fault_eq_none.mpr sound), opened.like.stack,
        under.like.tree.size, sound]
      apply (ran.closeContainer _ _).finishNode
      rw [Session.size_closeContainer]
      exact present
    · rw [Statement.run_container_of_fault _ _ sound] at room ⊢
      rw [Session.size_finishNode] at room
      have constructed := under.construct (room _ fresh) kind
      have failed := mt constructed.like.fault_eq_none.mp sound
      rw [Statement.run_container_of_fault _ _ failed, under.like.tree.size,
        if_neg (mt Option.isNone_iff_eq_none.mp sound), List.append_nil]
      exact constructed.finishNode fresh finish
  | beginCapture name =>
    rw [Statement.removed, List.append_nil]
    exact under.beginCapture name
  | endCapture token parent =>
    rw [Statement.removed, List.append_nil]
    refine under.endCapture token (blind.imp_right fun unused => ?_)
    simpa [Statement.isBlind] using unused
  | snapshot =>
    rw [Statement.removed, List.append_nil]
    exact ⟨under.like, under.present, under.ids, under.names, under.tokens⟩

/-- A program runs above its stripped form, and adds the calls that are taken out. -/
theorem Program.run_underlies {edits : List (Key × Modifier)} {bare : Session γ}
    {full : Session δ}
    (program : List Statement) (blind : supply.named ∨ Program.isBlind program = true)
    (room : ∀ count < (Program.run bare (Program.strip program)).builder.tree.size,
      supply.room count)
    (under : bare.Underlies supply edits full) :
    (Program.run bare (Program.strip program)).Underlies supply
      (edits ++ Program.removed bare program) (Program.run full program) := by
  cases program with
  | nil =>
    rw [Program.removed, List.append_nil]
    exact under
  | cons statement rest =>
    rw [Program.strip, Program.run] at room ⊢
    have blinds : (supply.named ∨ statement.isBlind = true) ∧
        (supply.named ∨ Program.isBlind rest = true) := by
      simpa [Program.isBlind, or_and_left] using blind
    have first := statement.run_underlies blinds.1
      (fun count small => room count (Nat.lt_of_lt_of_le small (Program.size_le_run ..))) under
    rw [Program.run, Program.removed, ← List.append_assoc]
    exact Program.run_underlies rest blinds.2 room first

end

/-- A fresh session underlies a fresh session with another allocator. -/
theorem Session.underlies_fresh (ids : Allocator γ) (other : Allocator δ)
    (holds : supply.holds 0 ids other) :
    Session.Underlies supply [] { builder := { ids } } { builder := { ids := other } } where
  like :=
    { tree := .refl _ fun _ node => ⟨node.identifier, rfl, fun _ => rfl⟩
      stack := rfl
      sound := rfl
      fault := fun _ => rfl }
  present _ member := by contradiction
  ids := holds
  names := rfl
  tokens := rfl

end Run

/-- When modifiers are called does not matter, except that the last call for a slot of a node counts. -/
theorem Program.modifiers_anytime [Generator γ] (ids : Allocator γ) (program : Program) :
    let start : Session γ := { builder := { ids } }
    let full := (Program.run start program).builder.finish.1
    let stripped := (Program.run start (Program.strip program)).builder.finish.1
    (∀ error, full = .error error ↔ stripped = .error error) ∧
    ∀ tree bare edits, full = .ok tree → stripped = .ok bare →
      (∀ key slot, Tree.lastCall? edits key slot =
        Tree.lastCall? (Program.removed start program) key slot) →
      bare.edit edits = tree ∧ (bare.edit edits).outline = tree.outline ∧
        ∀ layout, (bare.edit edits).render layout = tree.render layout := by
  intro start full stripped
  have under : (Program.run start (Program.strip program)).Underlies (.same γ)
      (Program.removed start program) (Program.run start program) :=
    Program.run_underlies program (.inl trivial) (fun _ _ => trivial)
      (Session.underlies_fresh ids ids rfl)
  have links : (Program.run start program).builder.tree =
      (Program.run start (Program.strip program)).builder.tree.edit (Program.removed start program) :=
    (Tree.like_edit ..).determined (under.like.tree.mono fun _ dresses => dresses.eq_edited trivial)
  simp only [full, stripped, Builder.finish_fst]
  rcases under.like.outcome with ⟨error, other, left, right, alike⟩ | ⟨left, right⟩
  · rw [left, right, alike trivial]
    exact ⟨fun _ => Iff.rfl, by rintro tree bare edits ⟨⟩⟩
  · rw [left, right]
    refine ⟨fun error => ⟨by rintro ⟨⟩, by rintro ⟨⟩⟩, ?_⟩
    rintro tree bare edits ⟨⟩ ⟨⟩ lasts
    have same := (Tree.edit_eq_of_lastCall? _ lasts).trans links.symm
    exact ⟨same, by rw [same], fun layout => by rw [same]⟩

/-- Calls on a container and on the text inside it, made from the outside in, with the calls for one
slot of the text kept in order. -/
theorem Program.modifiers_anytime_reordered :
    let title := Modifier.font "title"
    let wide := Modifier.padding .default
    let narrow := Modifier.padding (.length 3)
    let bold := Modifier.style .buttonStyle "bold"
    let program : Program :=
      [.container .vstack [.leaf (.text "Hello" none) { modifiers := [title, wide, narrow] },
        .button "Go" (some "go")] { modifiers := [bold, wide] }]
    let bare := (Config.sequential.run default (Program.strip program)).builder.tree
    let tree := (Config.sequential.run default program).builder.tree
    bare ≠ tree ∧ bare.edit [(0, wide), (1, wide), (0, bold), (1, narrow), (1, title)] = tree := by
  intro title wide narrow bold program bare tree
  let ids := Config.sequential.allocator default
  let start : Session KeyStream := { builder := { ids } }
  have removed : Program.removed start program =
      [(1, title), (1, wide), (1, narrow), (0, bold), (0, wide)] := rfl
  have finished : (Program.run start program).builder.finish.1 = .ok tree :=
    Builder.finish_of_closed (by decide) (by decide)
  have stripped : (Program.run start (Program.strip program)).builder.finish.1 = .ok bare :=
    Builder.finish_of_closed (by decide) (by decide)
  obtain ⟨_, edited⟩ := Program.modifiers_anytime ids program
  refine ⟨by decide, (edited tree bare _ finished stripped fun key slot => ?_).1⟩
  rw [removed]
  rcases key with _ | _ | key
  · rcases slot with _ | _ | _ | _ | ⟨_ | _⟩ <;> rfl
  · rcases slot with _ | _ | _ | _ | ⟨_ | _⟩ <;> rfl
  · simp [Tree.lastCall?, lastAt]

end ViewMarkup
