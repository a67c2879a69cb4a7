import ViewMarkup.Markup.Render

/-! # What the writer writes

The lines of an element are a text of their own, whatever stands before them: `Element.lines`,
written without regard to how many blanks a text can have. The writer adds exactly these lines, if
it can indent each of them, and otherwise it fails. How far lines are set in depends on the depth
of the nodes alone, so whether the markup of a tree can be written does not depend on what its
nodes hold.
-/

namespace ViewMarkup

mutual

/-- The lines of an element that stands at a depth. -/
def Element.lines (indent depth : Nat) : Element → String
  | .text tag attributes body =>
    Text.blanks (depth * indent) ++ (startTag tag attributes ++ Text.escape body ++ endTag tag) ++
      "\n"
  | .group tag attributes children =>
    Text.blanks (depth * indent) ++ startTag tag attributes ++ "\n" ++
      Element.linesAll indent (depth + 1) children ++
      (Text.blanks (depth * indent) ++ endTag tag ++ "\n")

/-- The lines of elements that stand at a depth, one after the other. -/
def Element.linesAll (indent depth : Nat) : List Element → String
  | [] => ""
  | element :: rest => element.lines indent depth ++ Element.linesAll indent depth rest

end

mutual

/-- Every line of an element can be indented. -/
def Element.Indents (indent depth : Nat) : Element → Prop
  | .text .. => depth * indent ≤ Text.maxBytes
  | .group _ _ children =>
    depth * indent ≤ Text.maxBytes ∧ Element.IndentsAll indent (depth + 1) children

/-- Every line of some elements can be indented. -/
def Element.IndentsAll (indent depth : Nat) : List Element → Prop
  | [] => True
  | element :: rest => element.Indents indent depth ∧ Element.IndentsAll indent depth rest

end

/-! ## Writing the lines -/

theorem bind_eq_ok_iff {ε α β : Type} {first : Except ε α} {next : α → Except ε β} {result : β} :
    first >>= next = .ok result ↔ ∃ value, first = .ok value ∧ next value = .ok result := by
  cases first <;> simp [bind, Except.bind]

theorem map_eq_ok_iff {ε α β : Type} {first : Except ε α} {f : α → β} {result : β} :
    first.map f = .ok result ↔ ∃ value, first = .ok value ∧ f value = result := by
  cases first <;> simp [Except.map]

namespace Writer

variable {writer after : Writer} {depth : Nat}

/-- The writer after some text. -/
def add (writer : Writer) (text : String) : Writer :=
  { writer with written := writer.written ++ text }

@[simp] theorem indent_add (writer : Writer) (text : String) :
    (writer.add text).indent = writer.indent :=
  rfl

@[simp] theorem add_add (writer : Writer) (first second : String) :
    (writer.add first).add second = writer.add (first ++ second) := by
  simp [add, String.append_assoc]

@[simp] theorem add_empty (writer : Writer) : writer.add "" = writer := by
  rw [add, String.append_empty]

theorem line_eq_ok_iff {content : String} : writer.line depth content = .ok after ↔
    depth * writer.indent ≤ Text.maxBytes ∧
      after = writer.add (Text.blanks (depth * writer.indent) ++ content ++ "\n") := by
  rw [line, map_eq_ok_iff]
  by_cases fits : depth * writer.indent ≤ Text.maxBytes
  · rw [Text.padding_of_le fits]
    simp [fits, add, String.append_assoc, eq_comm]
  · rw [Text.padding_of_lt (Nat.lt_of_not_le fits)]
    simp [fits]

end Writer

mutual

theorem Element.write_eq_ok_iff (depth : Nat) (writer : Writer) (element : Element)
    {after : Writer} : element.write depth writer = .ok after ↔
      element.Indents writer.indent depth ∧
        after = writer.add (element.lines writer.indent depth) := by
  cases element with
  | text tag attributes body => exact Writer.line_eq_ok_iff
  | group tag attributes children =>
    rw [Element.write, Writer.openElement, bind_eq_ok_iff, Element.Indents, Element.lines]
    constructor
    · rintro ⟨opened, start, finish⟩
      obtain ⟨fits, rfl⟩ := Writer.line_eq_ok_iff.mp start
      obtain ⟨filled, middle, close⟩ := bind_eq_ok_iff.mp finish
      obtain ⟨inside, rfl⟩ := (Element.writeAll_eq_ok_iff (depth + 1) _ children).mp middle
      obtain ⟨_, rfl⟩ := Writer.line_eq_ok_iff.mp close
      exact ⟨⟨fits, inside⟩, by simp [String.append_assoc]⟩
    · rintro ⟨⟨fits, inside⟩, rfl⟩
      refine ⟨_, Writer.line_eq_ok_iff.mpr ⟨fits, rfl⟩, bind_eq_ok_iff.mpr ⟨_,
        (Element.writeAll_eq_ok_iff (depth + 1) _ children).mpr ⟨inside, rfl⟩,
        Writer.line_eq_ok_iff.mpr ⟨fits, by simp [String.append_assoc]⟩⟩⟩

/-- The writer adds the lines of the elements, if it can indent them all. -/
theorem Element.writeAll_eq_ok_iff (depth : Nat) (writer : Writer) (elements : List Element)
    {after : Writer} : Element.writeAll depth writer elements = .ok after ↔
      Element.IndentsAll writer.indent depth elements ∧
        after = writer.add (Element.linesAll writer.indent depth elements) := by
  cases elements with
  | nil => simp [Element.writeAll, Element.IndentsAll, Element.linesAll, @eq_comm _ after]
  | cons element rest =>
    rw [Element.writeAll, bind_eq_ok_iff, Element.IndentsAll, Element.linesAll]
    constructor
    · rintro ⟨next, first, others⟩
      obtain ⟨fits, rfl⟩ := (Element.write_eq_ok_iff depth writer element).mp first
      obtain ⟨fitsRest, rfl⟩ := (Element.writeAll_eq_ok_iff depth _ rest).mp others
      exact ⟨⟨fits, fitsRest⟩, by simp⟩
    · rintro ⟨⟨fits, fitsRest⟩, rfl⟩
      exact ⟨_, (Element.write_eq_ok_iff depth writer element).mpr ⟨fits, rfl⟩,
        (Element.writeAll_eq_ok_iff depth _ rest).mpr ⟨fitsRest, by simp⟩⟩

end

theorem Element.markup_eq_ok_iff {indent : Nat} {elements : List Element} {text : String} :
    Element.markup indent elements = .ok text ↔
      Element.IndentsAll indent 0 elements ∧ text = Element.linesAll indent 0 elements := by
  rw [Element.markup, map_eq_ok_iff]
  constructor
  · rintro ⟨after, written, rfl⟩
    obtain ⟨fits, rfl⟩ := (Element.writeAll_eq_ok_iff 0 _ elements).mp written
    exact ⟨fits, String.empty_append⟩
  · rintro ⟨fits, rfl⟩
    exact ⟨_, (Element.writeAll_eq_ok_iff 0 _ elements).mpr ⟨fits, rfl⟩, String.empty_append⟩

/-! ## When the lines can be indented -/

mutual

theorem Element.indents_of_lines (indent depth : Nat) (element : Element)
    (fits : (element.lines indent depth).utf8ByteSize ≤ Text.maxBytes) :
    element.Indents indent depth := by
  cases element with
  | text tag attributes body =>
    simp only [Element.lines, String.utf8ByteSize_append, Text.utf8ByteSize_blanks] at fits
    exact Nat.le_trans (by omega) fits
  | group tag attributes children =>
    simp only [Element.lines, String.utf8ByteSize_append, Text.utf8ByteSize_blanks] at fits
    exact ⟨by omega, Element.indentsAll_of_lines indent (depth + 1) children (by omega)⟩

/-- Lines that are not longer than a text can be are not set in further than that either. -/
theorem Element.indentsAll_of_lines (indent depth : Nat) (elements : List Element)
    (fits : (Element.linesAll indent depth elements).utf8ByteSize ≤ Text.maxBytes) :
    Element.IndentsAll indent depth elements := by
  cases elements with
  | nil => trivial
  | cons element rest =>
    rw [Element.linesAll, String.utf8ByteSize_append] at fits
    exact ⟨Element.indents_of_lines indent depth element (by omega),
      Element.indentsAll_of_lines indent depth rest (by omega)⟩

end

mutual

theorem Branch.indents_render_iff (layout : Layout) (pass : Pass) (depth : Nat) (branch : Branch) :
    (branch.render layout pass).1.Indents layout.indent depth ↔
      ∀ placement ∈ branch.placements depth, placement.depth * layout.indent ≤ Text.maxBytes := by
  obtain ⟨key, node, children⟩ := branch
  rw [Branch.render, Branch.placements, List.forall_mem_cons,
    ← Branch.indentsAll_renderAll_iff layout (pass.enter node) (depth + 1) children]
  cases children with
  | nil => simp [Branch.renderAll, Element.Indents, Element.IndentsAll]
  | cons child rest => simp [Element.Indents]

/-- The elements of branches can be indented as far as their nodes are deep. -/
theorem Branch.indentsAll_renderAll_iff (layout : Layout) (pass : Pass) (depth : Nat)
    (forest : List Branch) :
    Element.IndentsAll layout.indent depth (Branch.renderAll layout pass forest).1 ↔
      ∀ placement ∈ Branch.placementsAll depth forest,
        placement.depth * layout.indent ≤ Text.maxBytes := by
  cases forest with
  | nil => simp [Branch.renderAll, Element.IndentsAll, Branch.placementsAll]
  | cons branch rest =>
    rw [Branch.placementsAll, List.forall_mem_append,
      ← Branch.indents_render_iff layout pass depth branch,
      ← Branch.indentsAll_renderAll_iff layout (branch.render layout pass).2 depth rest]
    rfl

end

/-! ## Rendering -/

namespace Handler

variable {indent : Nat} {handlers : List Handler}

theorem script_of_narrow (narrow : indent ≤ Text.maxWidth) :
    script indent handlers = .ok (String.join (handlers.map (entry (Text.blanks indent)))) := by
  rw [script, Text.column_of_le narrow]
  split
  · next none => rw [List.isEmpty_iff.mp none]; rfl
  · rfl

theorem exists_script_iff : (∃ text, script indent handlers = .ok text) ↔
    handlers = [] ∨ indent ≤ Text.maxWidth := by
  rcases Nat.lt_or_ge Text.maxWidth indent with wide | narrow
  · rw [script, Text.column_of_lt wide]
    cases handlers <;> simp [Except.map, Nat.not_le_of_lt wide]
  · rw [script_of_narrow narrow]
    simp [narrow]

end Handler

namespace Tree

variable {tree : Tree} {layout : Layout}

/-- No node of the tree is so deep that its lines cannot be indented. -/
def Indents (layout : Layout) (tree : Tree) : Prop :=
  ∀ placement ∈ Branch.placementsAll 0 tree.forest, placement.depth * layout.indent ≤ Text.maxBytes

theorem markup_elements_eq_ok_iff {text : String} :
    Element.markup layout.indent (tree.elements layout) = .ok text ↔
      tree.Indents layout ∧ text = Element.linesAll layout.indent 0 (tree.elements layout) := by
  rw [Element.markup_eq_ok_iff, Indents, ← Branch.indentsAll_renderAll_iff layout {}]
  rfl

/-- What is indented is written, and then the script can still be set in too far. -/
theorem render_of_indents (fits : tree.Indents layout) :
    tree.render layout = match Handler.script layout.indent (tree.handlers layout) with
      | .error cause => .error (.width cause)
      | .ok script => .ok
          { markup := Element.linesAll layout.indent 0 (tree.elements layout)
            script
            handlers := tree.handlers layout } := by
  have written := markup_elements_eq_ok_iff.mpr ⟨fits, rfl⟩
  rw [elements] at written
  rw [render]
  simp only [written]
  rfl

theorem render_of_not_indents (deep : ¬tree.Indents layout) :
    tree.render layout = .error (.capacity {}) := by
  rw [render]
  cases written : Element.markup layout.indent (Branch.renderAll layout {} tree.forest).1 with
  | error cause => simp only [written]
  | ok text => exact absurd (markup_elements_eq_ok_iff.mp written).1 deep

theorem render_eq_ok_iff {output : Output} : tree.render layout = .ok output ↔
    tree.Indents layout ∧ output.markup = Element.linesAll layout.indent 0 (tree.elements layout) ∧
      Handler.script layout.indent (tree.handlers layout) = .ok output.script ∧
      output.handlers = tree.handlers layout := by
  by_cases fits : tree.Indents layout
  · rw [render_of_indents fits]
    obtain ⟨markup, script, handlers⟩ := output
    cases Handler.script layout.indent (tree.handlers layout) <;> simp [fits, eq_comm]
  · rw [render_of_not_indents fits]
    simp [fits]

theorem exists_render_iff : (∃ output, tree.render layout = .ok output) ↔
    tree.Indents layout ∧ (tree.handlers layout = [] ∨ layout.indent ≤ Text.maxWidth) := by
  simp only [render_eq_ok_iff, ← Handler.exists_script_iff]
  constructor
  · rintro ⟨output, fits, _, written, _⟩
    exact ⟨fits, output.script, written⟩
  · rintro ⟨fits, script, written⟩
    exact ⟨⟨_, script, _⟩, fits, rfl, written, rfl⟩

theorem markup_of_render {output : Output} (rendered : tree.render layout = .ok output) :
    output.markup = Element.linesAll layout.indent 0 (tree.elements layout) :=
  (render_eq_ok_iff.mp rendered).2.1

theorem handlers_of_render {output : Output} (rendered : tree.render layout = .ok output) :
    output.handlers = tree.handlers layout :=
  (render_eq_ok_iff.mp rendered).2.2.2

/-- Branches that go down some levels have their nodes at these levels. -/
theorem depth_lt_of_mem_placements (tree : Tree) {levels depth : Nat} {keys : List Key}
    {placement : Placement} (member : placement ∈ Branch.placementsAll depth (tree.branches levels keys)) :
    placement.depth < depth + levels := by
  induction levels generalizing depth keys with
  | zero => simp [branches, Branch.placementsAll] at member
  | succ levels ih =>
    rw [branches] at member
    induction keys with
    | nil => simp [Branch.placementsAll] at member
    | cons key rest across =>
      rw [List.filterMap_cons] at member
      cases read : tree.get? key with
      | none =>
        simp only [read, Option.map_none] at member
        exact across member
      | some node =>
        simp only [read, Option.map_some, Branch.placementsAll, Branch.placements, List.cons_append,
          List.mem_cons, List.mem_append] at member
        rcases member with rfl | below | beside
        · exact Nat.lt_add_of_pos_right (Nat.succ_pos levels)
        · have bound := ih below
          omega
        · exact across beside

/-- A tree has its nodes at fewer levels than it has nodes, so with small indents all are written. -/
theorem indents_of_narrow (narrow : layout.indent ≤ Text.maxWidth)
    (small : tree.size ≤ UInt32.size) : tree.Indents layout := by
  intro placement member
  have bound := tree.depth_lt_of_mem_placements member
  calc placement.depth * layout.indent
    _ ≤ UInt32.size * Text.maxWidth := Nat.mul_le_mul (by omega) narrow
    _ ≤ Text.maxBytes := by decide

/-- A tree of not too many nodes that is not set in too far is rendered, with the entries of its
handlers in order as its script. -/
theorem render_of_narrow (narrow : layout.indent ≤ Text.maxWidth)
    (small : tree.size ≤ UInt32.size) :
    tree.render layout = .ok
      { markup := Element.linesAll layout.indent 0 (tree.elements layout)
        script := String.join ((tree.handlers layout).map (Handler.entry (Text.blanks layout.indent)))
        handlers := tree.handlers layout } :=
  render_eq_ok_iff.mpr
    ⟨indents_of_narrow narrow small, rfl, Handler.script_of_narrow narrow, rfl⟩

end Tree

end ViewMarkup
