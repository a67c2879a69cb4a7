import ViewMarkup.Proofs.Markup.Inheritance
import ViewMarkup.Proofs.Markup.Matching
import ViewMarkup.Proofs.Tree.Modifying

/-! # How far a modifier reaches

Modifiers on one node leave every link, every identifier and every other node alone, and with them
the order of the document, the handlers and the script. In the markup they show at the element of
the node, in the attributes that present it, and they show in the class of a node below it that is
drawn in a style declared by them, as long as no node in between and nearer declares the same
style. `Tree.Touches` lists these attributes; everything else in the two documents is the same.
-/

namespace ViewMarkup

open Markup ViewMarkup.Random Relation

/-! ## Attributes up to some names -/

/-- The lists are the same, but for attributes with free names. -/
inductive AgreeApart (free : String → Prop) : List Attribute → List Attribute → Prop
  | nil : AgreeApart free [] []
  | both {first second : List Attribute} (pair : Attribute) (rest : AgreeApart free first second) :
      AgreeApart free (pair :: first) (pair :: second)
  | left {first second : List Attribute} {pair : Attribute} (freed : free pair.name)
      (rest : AgreeApart free first second) : AgreeApart free (pair :: first) second
  | right {first second : List Attribute} {pair : Attribute} (freed : free pair.name)
      (rest : AgreeApart free first second) : AgreeApart free first (pair :: second)

namespace AgreeApart

variable {free : String → Prop} {first second third fourth : List Attribute}

theorem refl (attributes : List Attribute) : AgreeApart free attributes attributes := by
  induction attributes with
  | nil => exact .nil
  | cons pair rest ih => exact .both pair ih

theorem append (front : AgreeApart free first second) (back : AgreeApart free third fourth) :
    AgreeApart free (first ++ third) (second ++ fourth) := by
  induction front with
  | nil => exact back
  | both pair _ ih => exact .both pair ih
  | left freed _ ih => exact .left freed ih
  | right freed _ ih => exact .right freed ih

theorem of_free (left : ∀ pair ∈ first, free pair.name) (right : ∀ pair ∈ second, free pair.name) :
    AgreeApart free first second := by
  induction first with
  | nil =>
    induction second with
    | nil => exact .nil
    | cons pair rest ih =>
      apply AgreeApart.right (right pair (List.mem_cons_self ..))
      exact ih fun other member => right other (List.mem_cons_of_mem _ member)
  | cons pair rest ih =>
    apply AgreeApart.left (left pair (List.mem_cons_self ..))
    exact ih fun other member => left other (List.mem_cons_of_mem _ member)

end AgreeApart

/-! ## What modifiers change in a node -/

/-- The second kind is the first one, or the same text in another font. -/
inductive Kind.Refonts : Kind → Kind → Prop
  | same (kind : Kind) : Refonts kind kind
  | font (content : String) (old new : Option String) :
      Refonts (.text content old) (.text content new)

theorem Kind.Refonts.trans {first second third : Kind} (left : first.Refonts second)
    (right : second.Refonts third) : first.Refonts third := by
  cases left with
  | same => exact right
  | font content old new =>
    cases right with
    | same => exact .font content old new
    | font _ _ newer => exact .font content old newer

theorem Kind.refonts_withFont (kind : Kind) (token : String) : kind.Refonts (kind.withFont token) := by
  cases kind with
  | text content font => exact .font content font (some token)
  | _ => exact .same _

namespace Node

theorem refonts_modify (node : Node) (modifier : Modifier) :
    node.kind.Refonts (node.modify modifier).kind := by
  cases modifier with
  | font token => exact node.kind.refonts_withFont token
  | _ => exact .same _

theorem refonts_foldl_modify (node : Node) (modifiers : List Modifier) :
    node.kind.Refonts (modifiers.foldl modify node).kind := by
  induction modifiers generalizing node with
  | nil => exact .same _
  | cons modifier rest ih => exact (node.refonts_modify modifier).trans (ih _)

/-- Only a declaration for a style key changes what a node declares for it. -/
theorem frame_foldl_modify (node : Node) {modifiers : List Modifier} {style : StyleKey}
    (undeclared : ∀ token, .style style token ∉ modifiers) :
    (modifiers.foldl modify node).frame.get? style = node.frame.get? style := by
  induction modifiers generalizing node with
  | nil => rfl
  | cons modifier rest ih =>
    rw [List.foldl_cons, ih _ fun token member => undeclared token (List.mem_cons_of_mem _ member)]
    cases modifier with
    | style key token =>
      have apart : style ≠ key := by
        rintro rfl
        exact undeclared token (List.mem_cons_self ..)
      simp [modify, apart]
    | _ => rfl

end Node

namespace Kind.Refonts

variable {free : String → Prop} {kind other : Kind}

theorem tag_eq (refonts : kind.Refonts other) : other.tag = kind.tag := by
  cases refonts <;> rfl

theorem bodyText?_eq (refonts : kind.Refonts other) : other.bodyText? = kind.bodyText? := by
  cases refonts <;> rfl

theorem action?_eq (refonts : kind.Refonts other) : other.action? = kind.action? := by
  cases refonts <;> rfl

/-- The class follows the style of the one key that the kind is drawn in. -/
theorem styledClass_eq (refonts : kind.Refonts other) {before after : StyleKey → String}
    (same : ∀ key, kind.styleKey? = some key → after key = before key) :
    other.styledClass after = kind.styledClass before := by
  cases refonts with
  | same =>
    rw [styledClass, styledClass]
    cases keyed : kind.styleKey? with
    | none => rfl
    | some key => simp only [same key keyed]
  | font => rfl

/-- The attributes of a kind do not depend on the font, but for the font itself. -/
theorem attributes_agree (refonts : kind.Refonts other)
    (font : kind.takesFont = true → free "font") :
    AgreeApart free kind.attributes other.attributes := by
  cases refonts with
  | same => exact .refl _
  | font content old new =>
    apply AgreeApart.of_free
    · cases old <;> simp [Kind.attributes, font rfl]
    · cases new <;> simp [Kind.attributes, font rfl]

end Kind.Refonts

theorem Modifiers.name_attributes {layout : Layout} {modifiers : Modifiers} {pair : Attribute}
    (member : pair ∈ modifiers.attributes layout) :
    pair.name = "padding" ∨ pair.name = "background" ∨ pair.name = "foregroundStyle" := by
  simp only [Modifiers.attributes, List.mem_append, List.mem_map] at member
  rcases member with (⟨_, _, rfl⟩ | ⟨_, _, rfl⟩) | ⟨_, _, rfl⟩ <;> simp

/-- Nodes that differ in presentation, font and style have the same attributes, but for those that
show the difference. -/
theorem Node.attributes_agree {free : String → Prop} (layout : Layout)
    {before after : StyleKey → String} {node other : Node} (refonts : node.kind.Refonts other.kind)
    (identifiers : other.identifier = node.identifier)
    (presented : other.modifiers = node.modifiers ∨
      free "padding" ∧ free "background" ∧ free "foregroundStyle")
    (font : other.kind = node.kind ∨ (node.kind.takesFont = true → free "font"))
    (styled : (∀ key, node.kind.styleKey? = some key → after key = before key) ∨ free "class") :
    AgreeApart free (node.attributes layout before) (other.attributes layout after) := by
  have presentation : AgreeApart free (node.modifiers.attributes layout)
      (other.modifiers.attributes layout) := by
    rcases presented with same | ⟨padding, background, foreground⟩
    · rw [same]
      exact .refl _
    · apply AgreeApart.of_free <;>
        · intro pair member
          rcases Modifiers.name_attributes member with name | name | name <;> rwa [name]
  have drawn : AgreeApart free [⟨"class", node.kind.styledClass before⟩]
      [⟨"class", other.kind.styledClass after⟩] := by
    rcases styled with same | freed
    · rw [refonts.styledClass_eq same]
      exact .refl _
    · exact .left freed (.right freed .nil)
  have own : AgreeApart free node.kind.attributes other.kind.attributes := by
    rcases font with same | freed
    · rw [same]
      exact .refl _
    · exact refonts.attributes_agree freed
  rw [attributes, attributes, hasAction, hasAction, refonts.action?_eq, identifiers]
  exact ((presentation.append drawn).append own).append (.refl _)

/-! ## What a declaration reaches -/

namespace Tree

variable {tree : Tree} {key place parent : Key} {style : StyleKey} {modifiers : List Modifier}
  {node : Node}

/-- What a node declares for a style key reaches the node and the nodes below it, unless a nearer
node declares the key: one strictly below the node, on the way down and to the end of it. -/
def Reaches (tree : Tree) (key : Key) (style : StyleKey) (place : Key) : Prop :=
  tree.Ascends place key ∧ ∀ between node, tree.Ascends place between →
    TransGen tree.Up between key → tree.get? between = some node → node.frame.get? style = none

theorem Grounded.reaches_self (grounded : tree.Grounded) (key : Key) (style : StyleKey) :
    tree.Reaches key style key := by
  refine ⟨.refl, fun between node above below => ?_⟩
  exact (grounded.acyclic key (.trans_right above below)).elim

/-- What reaches a node also reaches its children that declare nothing of their own. -/
theorem Reaches.down (reaches : tree.Reaches key style parent)
    (read : tree.get? place = some node) (silent : node.frame.get? style = none)
    (up : tree.parent? place = some parent) : tree.Reaches key style place := by
  refine ⟨.head up reaches.1, fun between other above below found => ?_⟩
  rcases above.cases_head with rfl | ⟨next, step, rest⟩
  · rw [read] at found
    cases found
    exact silent
  · obtain rfl : next = parent := tree.up_rightUnique step up
    exact reaches.2 between other rest below found

/-- The attributes that may change at a node when modifiers are applied to a node. -/
inductive Touches (tree : Tree) (key : Key) (modifiers : List Modifier) : Key → String → Prop
  | padding : Touches tree key modifiers key "padding"
  | background : Touches tree key modifiers key "background"
  | foregroundStyle : Touches tree key modifiers key "foregroundStyle"
  | font {node : Node} (read : tree.get? key = some node) (takes : node.kind.takesFont = true) :
      Touches tree key modifiers key "font"
  | style {place : Key} {node : Node} {style : StyleKey} {token : String}
      (read : tree.get? place = some node) (drawn : node.kind.styleKey? = some style)
      (declared : .style style token ∈ modifiers) (reached : tree.Reaches key style place) :
      Touches tree key modifiers place "class"

theorem touches_class_iff :
    tree.Touches key modifiers place "class" ↔ ∃ node style token, tree.get? place = some node ∧
      node.kind.styleKey? = some style ∧ .style style token ∈ modifiers ∧
      tree.Reaches key style place := by
  constructor
  · intro touches
    generalize named : "class" = name at touches
    cases touches with
    | style read drawn declared reached => exact ⟨_, _, _, read, drawn, declared, reached⟩
    | _ => simp at named
  · rintro ⟨node, style, token, read, drawn, declared, reached⟩
    exact .style read drawn declared reached

/-- Where no declaration of the modifiers reaches, the token of a style is the nearest one that it
was before. -/
theorem Inherits.modifyAll {token : String} (grounded : tree.Grounded)
    (inherits : tree.Inherits style place token)
    (spared : ∀ declared, .style style declared ∈ modifiers → ¬ tree.Reaches key style place) :
    (tree.modifyAll key modifiers).Inherits style place token := by
  have like := tree.like_modifyAll key modifiers
  -- A node that is spared is another node, or the modifiers declare nothing for the style.
  have kept {place : Key} {node : Node} (read : tree.get? place = some node)
      (spared : ∀ declared, .style style declared ∈ modifiers → ¬ tree.Reaches key style place) :
      ∃ other, (tree.modifyAll key modifiers).get? place = some other ∧
        other.frame.get? style = node.frame.get? style := by
    obtain ⟨other, found, rfl⟩ := like.exists_counterpart read
    refine ⟨_, found, ?_⟩
    split
    · next here =>
      apply Node.frame_foldl_modify
      intro declared member
      exact spared declared member (here ▸ grounded.reaches_self key style)
    · rfl
  induction inherits with
  | own read declared =>
    obtain ⟨other, found, frames⟩ := kept read spared
    exact .own found (frames.trans declared)
  | above read silent up _ ih =>
    obtain ⟨other, found, frames⟩ := kept read spared
    refine .above found (frames.trans silent) ((like.parents _).trans up) (ih ?_)
    intro declared member reaches
    exact spared declared member (reaches.down read silent up)
  | nowhere read silent top =>
    obtain ⟨other, found, frames⟩ := kept read spared
    exact .nowhere found (frames.trans silent) ((like.parents _).trans top)

theorem Rooted.resolve_modifyAll (rooted : tree.Rooted) (read : tree.get? place = some node)
    (spared : ∀ declared, .style style declared ∈ modifiers → ¬ tree.Reaches key style place) :
    (tree.modifyAll key modifiers).resolve place style = tree.resolve place style := by
  have grounded := ((tree.like_modifyAll key modifiers).rooted rooted).toGrounded
  have before : tree.Inherits style place (tree.resolve place style) :=
    (rooted.inherits_iff read).mpr rfl
  exact ((before.modifyAll rooted.toGrounded spared).eq_resolve grounded).symm

/-- Modifiers on a node change the attributes that they touch, and no others. -/
theorem Rooted.attributes_modifyAll (rooted : tree.Rooted) (layout : Layout) {other : Node}
    (read : tree.get? place = some node)
    (found : (tree.modifyAll key modifiers).get? place = some other) :
    AgreeApart (tree.Touches key modifiers place) (node.attributes layout (tree.styleAt place))
      (other.attributes layout ((tree.modifyAll key modifiers).styleAt place)) := by
  have styled : (∀ style, node.kind.styleKey? = some style →
      (tree.modifyAll key modifiers).styleAt place style = tree.styleAt place style) ∨
      tree.Touches key modifiers place "class" := by
    by_cases touched : tree.Touches key modifiers place "class"
    · exact .inr touched
    · refine .inl fun style drawn => congrArg style.style (rooted.resolve_modifyAll read ?_)
      intro declared member reached
      exact touched (.style read drawn member reached)
  obtain rfl := (tree.like_modifyAll key modifiers).nodes read found
  by_cases here : place = key
  · subst here
    rw [if_pos rfl]
    exact Node.attributes_agree layout (node.refonts_foldl_modify modifiers) (by simp)
      (.inr ⟨.padding, .background, .foregroundStyle⟩) (.inr fun takes => .font read takes) styled
  · rw [if_neg here]
    exact Node.attributes_agree layout (.same _) rfl (.inl rfl) (.inl rfl) styled

theorem refonts_modifyAll {other : Node} (read : tree.get? place = some node)
    (found : (tree.modifyAll key modifiers).get? place = some other) :
    node.kind.Refonts other.kind := by
  obtain rfl := (tree.like_modifyAll key modifiers).nodes read found
  split
  · exact node.refonts_foldl_modify modifiers
  · exact .same _

theorem Rooted.handlers_modifyAll (rooted : tree.Rooted) (layout : Layout) (key : Key)
    (modifiers : List Modifier) :
    (tree.modifyAll key modifiers).handlers layout = tree.handlers layout := by
  have mapped : ((tree.modifyAll key modifiers).handlers layout).map id =
      (tree.handlers layout).map id := by
    apply (tree.like_modifyAll key modifiers).map_handlers rooted
    rintro place node _ rfl
    split
    · simp [Node.handler?, (node.refonts_foldl_modify modifiers).action?_eq]
    · rfl
  rwa [List.map_id, List.map_id] at mapped

end Tree

/-- Modifiers on one node of a built tree change the node alone, and in the output the attributes that
they touch. -/
theorem Program.modifiers_local {γ : Type} [Generator γ] (ids : Allocator γ) (program : Program)
    (built : Tree) (key : Key) (modifiers : List Modifier) (layout : Layout)
    (finished : (Program.run { builder := { ids } } program).builder.finish.1 = .ok built) :
    let edited := built.modifyAll key modifiers
    edited.roots = built.roots ∧ edited.document = built.document ∧
    (∀ place, edited.children place = built.children place ∧
      edited.parent? place = built.parent? place ∧
      edited.identifierOf place = built.identifierOf place ∧
      (place ≠ key → edited.get? place = built.get? place)) ∧
    (edited.render layout).map (fun output => (output.handlers, output.script)) =
      (built.render layout).map (fun output => (output.handlers, output.script)) ∧
    ∀ before after, built.render layout = .ok before → edited.render layout = .ok after →
      ∃ elements others, parse? before.markup = some elements ∧ parse? after.markup = some others ∧
        built.Matches (fun place => AgreeApart (built.Touches key modifiers place))
          built.roots.toList elements others := by
  intro edited
  have rooted : built.Rooted := Program.rooted_of_finish ids finished
  have like := built.like_modifyAll key modifiers
  refine ⟨like.roots, like.document_eq, fun place => ?_, ?_, ?_⟩
  · refine ⟨like.lists place, like.parents place, like.identifierOf_eq ?_ place, fun elsewhere => ?_⟩
    · rintro place node _ rfl
      split <;> simp
    · rw [Tree.get?_modifyAll, if_neg elsewhere]
  · by_cases fits : built.Indents layout
    · rw [Tree.render_of_indents fits, Tree.render_of_indents ((like.indents_iff layout).mpr fits),
        rooted.handlers_modifyAll]
      cases Handler.script layout.indent (built.handlers layout) <;> rfl
    · rw [Tree.render_of_not_indents fits,
        Tree.render_of_not_indents (mt (like.indents_iff layout).mp fits)]
  · intro before after left right
    apply like.matches_rendered rooted _ left right
    intro place node other read found
    have refonts := Tree.refonts_modifyAll read found
    exact ⟨refonts.tag_eq, refonts.bodyText?_eq, rooted.attributes_modifyAll layout read found⟩

/-- A declaration above two buttons and a date picker, with a nearer declaration for the first
button: of the classes below, it touches that of the second button alone. -/
theorem Program.modifiers_local_shadowed :
    let program : Program :=
      [.vstack [.container .hstack [.button "Save" (some "save")]
        { modifiers := [.style .buttonStyle "plain()"] }, .button "Exit" none,
          .datePicker "Day" "day" []]]
    let built := (Config.sequential.run default program).builder.tree
    let modifiers : List Modifier := [.padding .default, .style .buttonStyle "bold"]
    let edited := built.modifyAll 0 modifiers
    (∀ place < 5, built.Touches 0 modifiers place "class" ↔ place = 3) ∧
      ∃ before after elements others, built.render {} = .ok before ∧ edited.render {} = .ok after ∧
        parse? before.markup = some elements ∧ parse? after.markup = some others ∧
        built.Matches (fun place => AgreeApart (built.Touches 0 modifiers place))
          [0] elements others := by
  intro program built modifiers edited
  have finished : (Config.sequential.run default program).builder.finish.1 = .ok built :=
    Builder.finish_of_closed (by decide) (by decide)
  have grounded : built.Grounded :=
    (Program.rooted_of_finish (Config.sequential.allocator default) finished).toGrounded
  obtain ⟨_, _, _, _, shown⟩ :=
    Program.modifiers_local (Config.sequential.allocator default) program built 0 modifiers {} finished
  constructor
  · have kinds : ∀ place < 5, ∀ node, built.get? place = some node →
        node.kind.styleKey? = some .buttonStyle → place = 2 ∨ place = 3 := by decide
    intro place present
    rw [Tree.touches_class_iff]
    constructor
    · rintro ⟨node, style, token, read, drawn, declared, reached⟩
      obtain ⟨rfl, -⟩ : style = .buttonStyle ∧ token = "bold" := by simpa [modifiers] using declared
      rcases kinds place present node read drawn with rfl | rfl
      · have nearer : (built.get? 1).any fun node => (node.frame.get? .buttonStyle).isSome := by decide
        rw [Option.any_eq_true] at nearer
        obtain ⟨group, found, declares⟩ := nearer
        have first : built.parent? 2 = some 1 := by decide
        have second : built.parent? 1 = some 0 := by decide
        rw [reached.2 1 group (.single first) (.single second) found] at declares
        exact (Bool.false_ne_true declares).elim
      · rfl
    · rintro rfl
      have up : built.parent? 3 = some 0 := by decide
      exact ⟨_, .buttonStyle, "bold", rfl, rfl, by simp [modifiers],
        (grounded.reaches_self 0 .buttonStyle).down rfl rfl up⟩
  · have narrow : ({} : Layout).indent ≤ Text.maxWidth := by decide
    have left := built.render_of_narrow narrow (by decide)
    have right := edited.render_of_narrow narrow (by decide)
    obtain ⟨elements, others, read, found, alike⟩ := shown _ _ left right
    exact ⟨_, _, elements, others, left, right, read, found, alike⟩

end ViewMarkup
