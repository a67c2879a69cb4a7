import ViewMarkup.Outline
import ViewMarkup.Proofs.Build.Ownership
import ViewMarkup.Proofs.Text.Unquote
import ViewMarkup.Proofs.Tree.Shape

/-! # Reading outlines back

No line of an outline holds a line break, so the lines of the text are those of the nodes in
document order. A line tells the depth of its node, the type name and the body: blanks end where the
name begins, a name has no blanks, and a quoted body can be unquoted. Outlines that are equal come
from trees that differ by a renaming of keys, which keeps the nesting, the order, the type names and
the bodies.
-/

namespace ViewMarkup

open Branch

/-- What an outline tells of a node. -/
def Node.caption (node : Node) : String × Option String :=
  (node.kind.typeName, node.kind.bodyText?)

/-! ## Lines -/

theorem Kind.all_isAlpha_typeName (kind : Kind) :
    kind.typeName.toList ≠ [] ∧ kind.typeName.toList.all Char.isAlpha = true := by
  fun_cases Kind.typeName kind <;> decide

theorem Kind.ne_of_mem_typeName {kind : Kind} {c letter : Char}
    (member : letter ∈ kind.typeName.toList) (other : c.isAlpha = false) : letter ≠ c := by
  have letters := List.all_eq_true.mp kind.all_isAlpha_typeName.2 letter member
  rintro rfl
  rw [other] at letters
  contradiction

/-- The line of a node at a depth. -/
def Node.line (depth : ℕ) (node : Node) : List Char :=
  List.replicate (2 * depth) ' ' ++ node.kind.typeName.toList ++
    node.kind.bodyText?.elim [] fun body => ' ' :: (Text.quote body).toList

theorem Node.newline_not_mem_line (depth : ℕ) (node : Node) : '\n' ∉ node.line depth := by
  rw [line, List.mem_append, List.mem_append]
  rintro ((blank | letter) | text)
  · exact absurd (List.eq_of_mem_replicate blank) (by decide)
  · exact Kind.ne_of_mem_typeName letter (by decide) rfl
  · cases shown : node.kind.bodyText? with
    | none => simp [shown] at text
    | some body =>
      rw [shown, Option.elim_some, List.mem_cons] at text
      exact text.elim (by decide) (Text.newline_not_mem_quote body)

theorem Node.line_ne_nil (depth : ℕ) (node : Node) : node.line depth ≠ [] := by
  simp [line, node.kind.all_isAlpha_typeName.1]

/-- Reads a line back: the depth, the type name and the body. -/
def readLine (line : List Char) : ℕ × String × Option String :=
  let words := line.dropWhile (· == ' ')
  ((line.takeWhile (· == ' ')).length / 2, String.ofList (words.takeWhile (· != ' ')),
    match words.dropWhile (· != ' ') with
    | [] => none
    | _ :: quoted => some (Text.unquoted quoted))

/-- A line loses nothing of its node. A missing body leaves nothing behind the name, and an empty
one leaves its quotes. -/
theorem readLine_line (depth : ℕ) (node : Node) :
    readLine (node.line depth) = (depth, node.caption) := by
  have blanks : ∀ c ∈ List.replicate (2 * depth) ' ', (c == ' ') = true :=
    fun c member => beq_iff_eq.mpr (List.eq_of_mem_replicate member)
  have name : ∀ c ∈ node.kind.typeName.toList, (c != ' ') = true :=
    fun c member => bne_iff_ne.mpr (Kind.ne_of_mem_typeName member (by decide))
  obtain ⟨first, letters, spelled⟩ := List.exists_cons_of_ne_nil node.kind.all_isAlpha_typeName.1
  have starts : ¬ (first == ' ') = true := by
    rw [beq_iff_eq]
    exact Kind.ne_of_mem_typeName (spelled ▸ List.mem_cons_self ..) (by decide)
  have indent (text : List Char) :
      (node.kind.typeName.toList ++ text).takeWhile (· == ' ') = [] := by
    rw [spelled, List.cons_append]
    exact List.takeWhile_cons_of_neg starts
  have words (text : List Char) : (node.kind.typeName.toList ++ text).dropWhile (· == ' ') =
      node.kind.typeName.toList ++ text := by
    rw [spelled, List.cons_append]
    exact List.dropWhile_cons_of_neg starts
  simp only [readLine, Node.line, Node.caption, List.append_assoc,
    List.takeWhile_append_of_pos blanks, List.dropWhile_append_of_pos blanks, indent, words,
    List.takeWhile_append_of_pos name, List.dropWhile_append_of_pos name]
  cases node.kind.bodyText? with
  | none => simp
  | some body => simp [Text.unquoted_quote]

/-! ## Outlines -/

/-- Reads an outline back: what its lines say. The empty outline has no line. -/
def readOutline (text : List Char) : List (ℕ × String × Option String) :=
  ((text.splitOn '\n').filter (!·.isEmpty)).map readLine

/-- The lines of placements, one after the other. -/
def Placement.lines (placements : List Placement) : List (List Char) :=
  placements.map fun placement => placement.node.line placement.depth

theorem Placement.splitOn_lines {placements : List Placement} (some : placements ≠ []) :
    (['\n'].intercalate (Placement.lines placements)).splitOn '\n' =
      Placement.lines placements := by
  refine List.splitOn_intercalate '\n' ?_ (by simpa [Placement.lines] using some)
  intro line listed
  obtain ⟨placement, _, rfl⟩ := List.mem_map.mp listed
  exact placement.node.newline_not_mem_line placement.depth

/-- An outline loses nothing of its nodes. -/
theorem readOutline_lines (placements : List Placement) :
    readOutline (['\n'].intercalate (Placement.lines placements)) =
      placements.map fun placement => (placement.depth, placement.node.caption) := by
  by_cases none : placements = []
  · subst none
    rfl
  · have full : (Placement.lines placements).filter (!·.isEmpty) = Placement.lines placements := by
      rw [List.filter_eq_self]
      intro line listed
      obtain ⟨placement, _, rfl⟩ := List.mem_map.mp listed
      simpa using placement.node.line_ne_nil placement.depth
    rw [readOutline, Placement.splitOn_lines none, full, Placement.lines, List.map_map]
    exact List.map_congr_left fun placement _ => readLine_line placement.depth placement.node

theorem Placement.exists_outlineLine {placement : Placement}
    (fits : 2 * placement.depth ≤ Text.maxWidth) :
    ∃ text, placement.outlineLine = .ok text ∧
      text.toList = placement.node.line placement.depth := by
  refine ⟨_, by rw [outlineLine, Text.column_of_le fits]; rfl, ?_⟩
  rw [String.toList_append, Text.toList_blanks, Node.summary, Node.line, List.append_assoc]
  cases placement.node.kind.bodyText? with
  | none => simp
  | some body => simp

theorem Placement.exists_outlineLines {placements : List Placement}
    (fit : ∀ placement ∈ placements, 2 * placement.depth ≤ Text.maxWidth) :
    ∃ texts, placements.mapM Placement.outlineLine = .ok texts ∧
      texts.map String.toList = Placement.lines placements := by
  induction placements with
  | nil => exact ⟨[], rfl, rfl⟩
  | cons placement rest ih =>
    obtain ⟨fits, fit⟩ := List.forall_mem_cons.mp fit
    obtain ⟨text, written, shown⟩ := exists_outlineLine fits
    obtain ⟨texts, more, others⟩ := ih fit
    refine ⟨text :: texts, ?_, by rw [List.map_cons, shown, others]; rfl⟩
    rw [List.mapM_cons, written, more]
    rfl

namespace Tree

variable {tree other : Tree}

/-- A tree that is not too deep has an outline, with the lines of its places. -/
theorem exists_outline (fit : ∀ placement ∈ placementsAll 0 tree.forest,
      2 * placement.depth ≤ Text.maxWidth) :
    ∃ text, tree.outline = .ok text ∧
      text.toList = ['\n'].intercalate (Placement.lines (placementsAll 0 tree.forest)) := by
  obtain ⟨texts, written, shown⟩ := Placement.exists_outlineLines fit
  refine ⟨String.intercalate "\n" texts, by rw [outline, written]; rfl, ?_⟩
  rw [String.toList_intercalate, shown]
  rfl

/-- The places of an owned tree are its document, each at the depth of its ancestors. -/
theorem Owned.placements (owned : tree.Owned) :
    (placementsAll 0 tree.forest).map Placement.key = tree.document ∧
      ∀ placement ∈ placementsAll 0 tree.forest, tree.get? placement.key = some placement.node ∧
        (tree.ancestors placement.key).length = placement.depth := by
  rw [owned.document_eq_preorderAll]
  refine owned.unfolds_forest.placements owned.toCoherent fun root listed => ?_
  rw [ancestors_of_root (owned.mem_roots.mp listed).2, List.length_nil]

/-- Every node is at a depth that can be shown. -/
def Shallow (tree : Tree) : Prop :=
  ∀ key, tree.contains key → (tree.ancestors key).length ≤ 32767

theorem Owned.exists_outline (owned : tree.Owned) (shallow : tree.Shallow) :
    ∃ text, tree.outline = .ok text ∧
      text.toList = ['\n'].intercalate (Placement.lines (placementsAll 0 tree.forest)) := by
  refine Tree.exists_outline fun placement member => ?_
  obtain ⟨read, depth⟩ := owned.placements.2 placement member
  have bound := shallow placement.key ((tree.contains_iff _).mpr (lt_size_of_get? read))
  rw [Text.maxWidth]
  omega

/-- Outlines that are equal come from trees that differ by a renaming of keys. -/
theorem Owned.carries_of_outline (owned : tree.Owned) (shallow : tree.Shallow)
    (ownedToo : other.Owned) (shallowToo : other.Shallow) (same : other.outline = tree.outline) :
    ∃ image, tree.Carries Node.caption image other := by
  obtain ⟨text, written, lines⟩ := owned.exists_outline shallow
  obtain ⟨textToo, writtenToo, linesToo⟩ := ownedToo.exists_outline shallowToo
  rw [written, writtenToo] at same
  cases same
  have places : places Node.caption 0 tree.forest = places Node.caption 0 other.forest := by
    rw [Branch.places, Branch.places, ← readOutline_lines, ← readOutline_lines, ← lines, ← linesToo]
  have alike := owned.unfolds_forest.alike_of_places (by simp) (by simp)
    (congrArg (· ++ []) places)
  exact owned.exists_carries ownedToo alike.1

/-- A tree that some program builds, with some identifiers, and without adopting nodes into content
that is running. -/
def Built (tree : Tree) : Prop :=
  ∃ (γ : Type) (_ : Random.Generator γ) (ids : Allocator γ) (program : Program),
    Program.Spares [] { builder := { ids } } program ∧
      (Program.run { builder := { ids } } program).builder.finish.1 = .ok tree

theorem Built.owned (built : tree.Built) : tree.Owned := by
  obtain ⟨γ, generator, ids, program, spared, finished⟩ := built
  exact (Program.run_reachable ids spared).owned ((Builder.finish_fst _).symm.trans finished)

/-- The outline has a line for every node in document order, and trees with the same outline have the
same shape. -/
theorem outline_determines_shape (tree : Tree) (built : tree.Built) (shallow : tree.Shallow) :
    (∃ text, tree.outline = .ok text ∧ (tree.size = 0 → text = "") ∧
      (tree.size ≠ 0 →
        (text.toList.splitOn '\n').length = tree.size ∧ tree.document.length = tree.size ∧
        ∀ (place : ℕ) (key : Key), tree.document[place]? = some key →
          ∃ node, tree.get? key = some node ∧ (text.toList.splitOn '\n')[place]? = some
            (List.replicate (2 * (tree.ancestors key).length) ' ' ++ node.kind.typeName.toList ++
              node.kind.bodyText?.elim [] fun body => ' ' :: (Text.quote body).toList))) ∧
    ∀ other : Tree, other.Built → other.Shallow → other.outline = tree.outline →
      ∃ image, tree.Carries Node.caption image other := by
  have owned := built.owned
  obtain ⟨text, written, lines⟩ := owned.exists_outline shallow
  obtain ⟨keys, placed⟩ := owned.placements
  have length : (placementsAll 0 tree.forest).length = tree.size := by
    rw [← owned.length_document, ← keys, List.length_map]
  refine ⟨⟨text, written, fun empty => ?_, fun inhabited => ?_⟩, fun other builtToo shallowToo =>
    owned.carries_of_outline shallow builtToo.owned shallowToo⟩
  · rw [empty, List.length_eq_zero_iff] at length
    rw [length] at lines
    exact String.toList_eq_nil_iff.mp lines
  · have some : placementsAll 0 tree.forest ≠ [] := by
      rw [← List.length_pos_iff, length]
      exact Nat.pos_of_ne_zero inhabited
    rw [lines, Placement.splitOn_lines some, Placement.lines, List.length_map]
    refine ⟨length, owned.length_document, fun place key found => ?_⟩
    rw [← keys, List.getElem?_map] at found
    obtain ⟨placement, there, rfl⟩ := Option.map_eq_some_iff.mp found
    obtain ⟨read, depth⟩ := placed placement (List.mem_of_getElem? there)
    refine ⟨placement.node, read, ?_⟩
    rw [List.getElem?_map, there, depth]
    rfl

/-- A text that imitates another line of the outline, a button without a label and one whose label
is empty. The second program captures the text by hand, after the buttons, so the keys are
different. -/
theorem outline_determines_shape_imitated :
    let imitating : Statement := .text "a\"\n  Text \"b"
    let nested : Program := [.hstack [imitating], .buttonAround "go" [], .button "" none]
    let captured : Program := [.hstack [], .buttonAround "go" [], .button "" none,
      .beginCapture "level", imitating, .endCapture (.stored "level") (.numbered 0)]
    let first := (Config.sequential.run default nested).builder.tree
    let second := (Config.sequential.run default captured).builder.tree
    first.outline = .ok "HStack\n  Text \"a\\\"\\n  Text \\\"b\"\nButton\nButton \"\"" ∧
      second.outline = first.outline ∧
      (∃ text, first.outline = .ok text ∧ (text.toList.splitOn '\n').length = first.size) ∧
      first.document = [0, 1, 2, 3] ∧ second.document = [0, 3, 1, 2] ∧
      ∃ image, first.Carries Node.caption image second ∧ [0, 1, 2, 3].map image = [0, 3, 1, 2] := by
  intro imitating nested captured first second
  have built (program : Program)
      (spared : Program.Spares [] { builder := Config.sequential.builder default } program)
      (sound : (Config.sequential.run default program).builder.fault = none)
      (closed : (Config.sequential.run default program).builder.depth = 0) :
      (Config.sequential.run default program).builder.tree.Built :=
    ⟨_, _, Config.sequential.allocator default, program, spared, Builder.finish_of_closed sound closed⟩
  have shallow {tree : Tree} (built : tree.Built) (small : tree.size = 4) : tree.Shallow := by
    intro key inside
    have few := built.owned.length_ancestors_lt ((tree.contains_iff key).mp inside)
    omega
  have builtFirst : first.Built := built nested (by decide) (by decide) (by decide)
  have builtSecond : second.Built := built captured (by decide) (by decide) (by decide)
  have same : second.outline = first.outline := by decide
  have document : first.document = [0, 1, 2, 3] := by decide
  have renamed : second.document = [0, 3, 1, 2] := by decide
  obtain ⟨⟨text, written, _, lines⟩, determined⟩ := outline_determines_shape first builtFirst
    (shallow builtFirst (by decide))
  obtain ⟨image, carries⟩ := determined second builtSecond (shallow builtSecond (by decide)) same
  have pairs := carries.document
  rw [document, renamed] at pairs
  exact ⟨by decide, same, ⟨text, written, (lines (by decide)).1⟩, document, renamed, image, carries,
    pairs.symm⟩

end Tree

end ViewMarkup
