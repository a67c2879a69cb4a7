import ViewMarkup.Proofs.Markup.Grammar

/-! # Reading markup

The reader takes one character at a time. It keeps the elements whose end tags are still to come,
the elements it has read at the innermost level, and what it is in the middle of. What stands before
an angle bracket counts as the text of an element only when its end tag follows and no element was
read inside; otherwise it must be blank. The reader accepts exactly what the grammar allows, so
markup can be read in one way only.
-/

namespace ViewMarkup.Markup

/-- An element whose end tag is still to come, and the elements before it at its level. -/
structure Opened where
  tag : String
  attributes : List Attribute
  before : List Element

/-- What a reader is in the middle of. -/
inductive Mode where
  | text (raw : List Char)
  | bracket (raw : List Char)
  | startName (name : List Char)
  | attributeName (tag : String) (attributes : List Attribute) (name : List Char)
  | equals (tag : String) (attributes : List Attribute) (name : List Char)
  | value (tag : String) (attributes : List Attribute) (name raw : List Char)
  | afterValue (tag : String) (attributes : List Attribute)
  | endName (raw name : List Char)

/-- The state of a reader, the innermost open element first. -/
structure Reader where
  opened : List Opened := []
  elements : List Element := []
  mode : Mode := .text []

namespace Reader

/-- Goes on in a start tag: with another attribute, or to what the element holds. -/
def continueTag (reader : Reader) (tag : String) (attributes : List Attribute) (c : Char) :
    Option Reader :=
  if c = ' ' then some { reader with mode := .attributeName tag attributes [] }
  else if c = '>' then some ⟨⟨tag, attributes, reader.elements⟩ :: reader.opened, [], .text []⟩
  else none

/-- Ends the innermost open element. If nothing was read in it, it has a text. -/
def close? (reader : Reader) (raw name : List Char) : Option Reader :=
  match reader.opened with
  | [] => none
  | top :: outer =>
    if top.tag.toList ≠ name then none
    else if reader.elements.isEmpty then
      let body := String.ofList (Text.unescape raw)
      some ⟨outer, top.before ++ [.text top.tag top.attributes body], .text []⟩
    else if raw.all isBlank then
      some ⟨outer, top.before ++ [.group top.tag top.attributes reader.elements], .text []⟩
    else none

/-- Reads one character. -/
def step (reader : Reader) (c : Char) : Option Reader :=
  match reader.mode with
  | .text raw =>
    if c = '<' then some { reader with mode := .bracket raw }
    else some { reader with mode := .text (raw ++ [c]) }
  | .bracket raw =>
    if c = '/' then some { reader with mode := .endName raw [] }
    else if isNameChar c && raw.all isBlank then some { reader with mode := .startName [c] }
    else none
  | .startName name =>
    if isNameChar c then some { reader with mode := .startName (name ++ [c]) }
    else reader.continueTag (String.ofList name) [] c
  | .attributeName tag attributes name =>
    if isNameChar c then some { reader with mode := .attributeName tag attributes (name ++ [c]) }
    else if c = '=' && !name.isEmpty then some { reader with mode := .equals tag attributes name }
    else none
  | .equals tag attributes name =>
    if c = '"' then some { reader with mode := .value tag attributes name [] } else none
  | .value tag attributes name raw =>
    if c = '"' then
      let pair : Attribute := ⟨String.ofList name, String.ofList (Text.unescape raw)⟩
      some { reader with mode := .afterValue tag (attributes ++ [pair]) }
    else some { reader with mode := .value tag attributes name (raw ++ [c]) }
  | .afterValue tag attributes => reader.continueTag tag attributes c
  | .endName raw name =>
    if isNameChar c then some { reader with mode := .endName raw (name ++ [c]) }
    else if c = '>' then reader.close? raw name
    else none

/-- Reads characters one after the other. -/
def run (reader : Reader) (chars : List Char) : Option Reader :=
  chars.foldlM step reader

/-- The elements that were read, if nothing is left open. -/
def finish? (reader : Reader) : Option (List Element) :=
  match reader.opened, reader.mode with
  | [], .text raw => if raw.all isBlank then some reader.elements else none
  | _, _ => none

end Reader

/-- Reads a text as elements. -/
def parse? (text : String) : Option (List Element) :=
  (Reader.run {} text.toList).bind Reader.finish?

/-! ## What the grammar allows is read -/

namespace Reader

variable {reader middle after : Reader} {opened : List Opened} {elements : List Element}

theorem run_append {first second : List Char} (left : reader.run first = some middle)
    (right : middle.run second = some after) : reader.run (first ++ second) = some after := by
  rw [run, List.foldlM_append]
  exact Option.bind_eq_some_iff.mpr ⟨middle, left, right⟩

theorem run_cons {c : Char} {rest : List Char} (first : reader.step c = some middle)
    (others : middle.run rest = some after) : reader.run (c :: rest) = some after := by
  rw [run, List.foldlM_cons]
  exact Option.bind_eq_some_iff.mpr ⟨middle, first, others⟩

/-- Characters that a mode gathers are gathered one after the other. -/
theorem run_gather {gathers : Char → Bool} (mode : List Char → Mode)
    (stays : ∀ taken c, gathers c →
      step ⟨opened, elements, mode taken⟩ c = some ⟨opened, elements, mode (taken ++ [c])⟩)
    (taken chars : List Char) (all : chars.all gathers) :
    run ⟨opened, elements, mode taken⟩ chars = some ⟨opened, elements, mode (taken ++ chars)⟩ := by
  induction chars generalizing taken with
  | nil => simp [run]
  | cons c rest ih =>
    rw [List.all_cons, Bool.and_eq_true] at all
    refine run_cons (stays taken c all.1) ?_
    simpa using ih (taken ++ [c]) all.2

private theorem all_ne_of_not_mem {raw : List Char} {c : Char} (absent : c ∉ raw) :
    raw.all (· ≠ c) := by
  rw [List.all_eq_true]
  exact fun other member => decide_eq_true fun same => absent (same ▸ member)

/-- The rest of a start tag, from any mode in which the tag can go on. -/
theorem run_attributes {attributes done : List Attribute} {inside : List Char} {tag : String}
    {mode : Mode} (reads : ReadsAttributes attributes inside)
    (goesOn : ∀ c, isNameChar c = false → step ⟨opened, elements, mode⟩ c =
      continueTag ⟨opened, elements, mode⟩ tag done c) :
    run ⟨opened, elements, mode⟩ (inside ++ ['>']) =
      some ⟨⟨tag, done ++ attributes, elements⟩ :: opened, [], .text []⟩ := by
  induction reads generalizing mode done with
  | nil => exact run_cons ((goesOn '>' (by decide)).trans (by rw [List.append_nil]; rfl)) rfl
  | @cons name raw chars attributes named quoted more ih =>
    obtain ⟨some, nameChars⟩ := Bool.and_eq_true_iff.mp named
    have letters : run ⟨opened, elements, .attributeName tag done []⟩ name.toList =
        Option.some ⟨opened, elements, .attributeName tag done name.toList⟩ :=
      run_gather _ (fun taken c letter => by simp [step, letter]) [] _ nameChars
    have inner : run ⟨opened, elements, .value tag done name.toList []⟩ raw =
        Option.some ⟨opened, elements, .value tag done name.toList raw⟩ :=
      run_gather _ (fun taken c inner => by simp [step, of_decide_eq_true inner]) [] _
        (all_ne_of_not_mem quoted)
    have sign : step ⟨opened, elements, .attributeName tag done name.toList⟩ '=' =
        Option.some ⟨opened, elements, .equals tag done name.toList⟩ := by
      simp_all [step, isNameChar]
    let pair : Attribute := ⟨name, String.ofList (Text.unescape raw)⟩
    have others : run ⟨opened, elements, .afterValue tag (done ++ [pair])⟩ (chars ++ ['>']) =
        Option.some ⟨⟨tag, (done ++ [pair]) ++ attributes, elements⟩ :: opened, [], .text []⟩ :=
      ih fun c _ => rfl
    have ends : step ⟨opened, elements, .value tag done name.toList raw⟩ '"' =
        Option.some ⟨opened, elements, .afterValue tag (done ++ [pair])⟩ := by
      simp [step, pair]
    rw [List.append_assoc] at others
    simp only [List.cons_append, List.append_assoc]
    refine run_cons (goesOn ' ' (by decide)) (run_append letters (run_cons sign ?_))
    exact run_cons rfl (run_append inner (run_cons ends others))

/-- A start tag opens an element. -/
theorem run_opening {attributes : List Attribute} {blank inside : List Char} {tag : String}
    (before : blank.all isBlank) (named : isName tag) (reads : ReadsAttributes attributes inside) :
    run ⟨opened, elements, .text blank⟩ (opening tag inside) =
      some ⟨⟨tag, attributes, elements⟩ :: opened, [], .text []⟩ := by
  rw [isName] at named
  obtain ⟨first, rest, spelled⟩ : ∃ first rest, tag.toList = first :: rest := by
    cases spelled : tag.toList with
    | nil => simp [spelled] at named
    | cons first rest => exact ⟨first, rest, rfl⟩
  rw [spelled] at named
  obtain ⟨letter, letters⟩ : isNameChar first ∧ rest.all isNameChar := by simpa using named
  have starts : step ⟨opened, elements, .bracket blank⟩ first =
      Option.some ⟨opened, elements, .startName [first]⟩ := by
    have other : first ≠ '/' := by rintro rfl; contradiction
    simp [step, other, letter, before]
  have name : run ⟨opened, elements, .startName [first]⟩ rest =
      Option.some ⟨opened, elements, .startName tag.toList⟩ := by
    rw [spelled]
    exact run_gather _ (fun taken c letter => by simp [step, letter]) [first] rest letters
  rw [opening, spelled, List.append_assoc]
  refine run_cons rfl (run_cons starts (run_append name ?_))
  rw [← List.nil_append attributes]
  exact run_attributes reads fun c other => by simp [step, other]

/-- An end tag does to an element what closing it does. -/
theorem run_closing {raw : List Char} {tag : String} (named : isName tag)
    (closes : close? ⟨opened, elements, .endName raw tag.toList⟩ raw tag.toList = some after) :
    run ⟨opened, elements, .text raw⟩ (closing tag) = some after := by
  have name : run ⟨opened, elements, .endName raw []⟩ tag.toList =
      Option.some ⟨opened, elements, .endName raw tag.toList⟩ :=
    run_gather _ (fun taken c letter => by simp [step, letter]) [] _ (Bool.and_eq_true_iff.mp named).2
  exact run_cons rfl (run_cons rfl (run_append name (run_cons closes rfl)))

/-- Without a bracket, characters are gathered as text. -/
theorem run_plain (raw : List Char) {chars : List Char} (plain : '<' ∉ chars) :
    run ⟨opened, elements, .text raw⟩ chars = some ⟨opened, elements, .text (raw ++ chars)⟩ :=
  run_gather _ (fun taken c other => by simp [step, of_decide_eq_true other]) raw chars
    (all_ne_of_not_mem plain)

private theorem plain_of_blank {blank : List Char} (all : blank.all isBlank) : '<' ∉ blank :=
  fun member => absurd (List.all_eq_true.mp all _ member) (by decide)

/-- One whole element, after blanks: its start tag, what it holds, and its end tag. -/
theorem run_element {attributes : List Attribute} {blank own inside content raw : List Char}
    {tag : String} {inner : List Element} {element : Element} (before : blank.all isBlank)
    (ownBlank : own.all isBlank) (named : isName tag) (started : ReadsAttributes attributes inside)
    (holds : run ⟨⟨tag, attributes, elements⟩ :: opened, [], .text []⟩ content =
      some ⟨⟨tag, attributes, elements⟩ :: opened, inner, .text raw⟩)
    (closes : close? ⟨⟨tag, attributes, elements⟩ :: opened, inner, .endName raw tag.toList⟩ raw
      tag.toList = some ⟨opened, elements ++ [element], .text []⟩) :
    run ⟨opened, elements, .text blank⟩ (own ++ opening tag inside ++ content ++ closing tag) =
      some ⟨opened, elements ++ [element], .text []⟩ := by
  have all : (blank ++ own).all isBlank := by rw [List.all_append, before, ownBlank]; rfl
  have blanks : run ⟨opened, elements, .text blank⟩ own =
      some ⟨opened, elements, .text (blank ++ own)⟩ := run_plain blank (plain_of_blank ownBlank)
  have starts := run_append blanks (run_opening all named started)
  exact run_append (run_append starts holds) (run_closing named closes)

/-- What can be read as elements is added to the elements of its level. -/
theorem run_reads {added : List Element} {chars : List Char} (reads : Reads added chars)
    {blank : List Char} (before : blank.all isBlank) :
    ∃ left, left.all isBlank ∧ run ⟨opened, elements, .text blank⟩ chars =
      some ⟨opened, elements ++ added, .text left⟩ := by
  induction reads generalizing opened elements blank with
  | @nil own ownBlank =>
    refine ⟨blank ++ own, by rw [List.all_append, before, ownBlank]; rfl, ?_⟩
    rw [List.append_nil]
    exact run_plain blank (plain_of_blank ownBlank)
  | @text own inside raw rest tag attributes others ownBlank named started ended more ih =>
    let element : Element := .text tag attributes (String.ofList (Text.unescape raw))
    have first : run ⟨opened, elements, .text blank⟩
        (own ++ opening tag inside ++ raw ++ closing tag) =
          some ⟨opened, elements ++ [element], .text []⟩ :=
      run_element before ownBlank named started (run_plain [] ended) (by simp [close?, element])
    obtain ⟨left, leftBlank, later⟩ : ∃ left, left.all isBlank ∧
        run ⟨opened, elements ++ [element], .text []⟩ rest =
          some ⟨opened, elements ++ [element] ++ others, .text left⟩ := ih rfl
    exact ⟨left, leftBlank, List.append_cons elements element others ▸ run_append first later⟩
  | @group own inside content rest tag attributes children others ownBlank named started filled
      nonempty more ihInside ih =>
    let element : Element := .group tag attributes children
    obtain ⟨margin, marginBlank, holds⟩ : ∃ margin, margin.all isBlank ∧
        run ⟨⟨tag, attributes, elements⟩ :: opened, [], .text []⟩ content =
          some ⟨⟨tag, attributes, elements⟩ :: opened, children, .text margin⟩ := ihInside rfl
    have first : run ⟨opened, elements, .text blank⟩
        (own ++ opening tag inside ++ content ++ closing tag) =
          some ⟨opened, elements ++ [element], .text []⟩ :=
      run_element before ownBlank named started holds
        (by simp [close?, element, nonempty, marginBlank])
    obtain ⟨left, leftBlank, later⟩ : ∃ left, left.all isBlank ∧
        run ⟨opened, elements ++ [element], .text []⟩ rest =
          some ⟨opened, elements ++ [element] ++ others, .text left⟩ := ih rfl
    exact ⟨left, leftBlank, List.append_cons elements element others ▸ run_append first later⟩

/-! ## What is read is allowed by the grammar -/

/-- The characters before the text or tag that a reader is in the middle of. -/
inductive Spells : List Opened → List Element → List Char → Prop
  | outside {elements : List Element} {chars : List Char} (leads : Leads elements chars) :
      Spells [] elements chars
  | inside {opened : List Opened} {before elements : List Element} {tag : String}
      {attributes : List Attribute} {chars blank started content : List Char}
      (outer : Spells opened before chars) (blanks : blank.all isBlank) (named : isName tag)
      (starts : ReadsAttributes attributes started) (leads : Leads elements content)
      (bare : elements = [] → content = []) :
      Spells (⟨tag, attributes, before⟩ :: opened) elements
        (chars ++ (blank ++ opening tag started ++ content))

theorem Spells.add {chars more : List Char} {element : Element}
    (spells : Spells opened elements chars) (leads : Leads [element] more) :
    Spells opened (elements ++ [element]) (chars ++ more) := by
  cases spells with
  | outside before => exact .outside (before.append leads)
  | inside outer blanks named starts before bare =>
    rw [List.append_assoc, List.append_assoc]
    exact .inside outer blanks named starts (before.append leads) (by simp)

/-- A start tag up to its last attribute, after blanks. -/
def InTag (tag : String) (attributes : List Attribute) (chars : List Char) : Prop :=
  isName tag ∧ ∃ blank started, blank.all isBlank ∧ ReadsAttributes attributes started ∧
    chars = blank ++ '<' :: tag.toList ++ started

/-- The characters of the text or tag that a reader is in the middle of. -/
def Partial : Mode → List Char → Prop
  | .text raw, chars => '<' ∉ raw ∧ chars = raw
  | .bracket raw, chars => '<' ∉ raw ∧ chars = raw ++ ['<']
  | .startName name, chars => InTag (String.ofList name) [] chars
  | .attributeName tag attributes name, chars =>
    name.all isNameChar ∧ ∃ start, InTag tag attributes start ∧ chars = start ++ ' ' :: name
  | .equals tag attributes name, chars =>
    isName (String.ofList name) ∧
      ∃ start, InTag tag attributes start ∧ chars = start ++ ' ' :: name ++ ['=']
  | .value tag attributes name raw, chars =>
    isName (String.ofList name) ∧ '"' ∉ raw ∧
      ∃ start, InTag tag attributes start ∧ chars = start ++ ' ' :: name ++ '=' :: '"' :: raw
  | .afterValue tag attributes, chars => InTag tag attributes chars
  | .endName raw name, chars => '<' ∉ raw ∧ chars = raw ++ '<' :: '/' :: name

/-- A reader that has read these characters. -/
def Has (reader : Reader) (chars : List Char) : Prop :=
  ∃ level tail, Spells reader.opened reader.elements level ∧ Partial reader.mode tail ∧
    chars = level ++ tail

/-! In each mode a character is gathered, or it ends what the mode is about. What was read before the
text or tag stays as it is, until a tag ends. -/

namespace Spells

variable {level tail : List Char} {c : Char} {tag : String} {attributes : List Attribute}
  {name raw : List Char}

/-- Only the mode and its characters change. -/
theorem goOn (spells : Spells opened elements level) {next : Mode} {more : List Char}
    (reads : Partial next more) (grown : more = tail ++ [c]) :
    Has ⟨opened, elements, next⟩ (level ++ tail ++ [c]) :=
  ⟨level, more, spells, reads, by rw [grown, List.append_assoc]⟩

theorem continueTag (spells : Spells reader.opened reader.elements level)
    (within : InTag tag attributes tail)
    (success : reader.continueTag tag attributes c = some after) :
    after.Has (level ++ tail ++ [c]) := by
  rw [Reader.continueTag] at success
  split at success
  · next blank =>
    cases success
    exact spells.goOn ⟨rfl, tail, within, rfl⟩ (by rw [blank])
  · split at success
    · next ends =>
      cases success
      obtain ⟨named, blank, started, blanks, starts, rfl⟩ := within
      have leads : Leads [] [] := fun _ _ next => next
      refine ⟨_, [], .inside spells blanks named starts leads fun _ => rfl, ⟨by simp, rfl⟩, ?_⟩
      simp [opening, ends]
    · contradiction

theorem close (spells : Spells reader.opened reader.elements level) (plain : '<' ∉ raw)
    (success : reader.close? raw name = some after) :
    after.Has (level ++ (raw ++ '<' :: '/' :: name) ++ ['>']) := by
  obtain ⟨opened, elements, mode⟩ := reader
  cases spells with
  | outside => contradiction
  | @inside outer before _ tag attributes chars blank started content below blanks named starts
      leads bare =>
    rw [close?] at success
    simp only at success
    split at success
    · contradiction
    · next same =>
      have spelled : tag.toList = name := by simpa using same
      subst spelled
      split at success
      · next empty =>
        cases success
        have none : content = [] := bare (List.isEmpty_iff.mp empty)
        have leadsOne : Leads [.text tag attributes (String.ofList (Text.unescape raw))]
            (blank ++ opening tag started ++ raw ++ closing tag) :=
          fun _ _ next => .text blanks named starts plain next
        refine ⟨_, [], below.add leadsOne, ⟨by simp, rfl⟩, ?_⟩
        simp [none, closing]
      · next nonempty =>
        split at success
        · next margin =>
          cases success
          have leadsOne : Leads [.group tag attributes elements]
              (blank ++ opening tag started ++ (content ++ raw) ++ closing tag) :=
            fun _ _ next => .group blanks named starts (leads.reads margin)
              (by simpa using nonempty) next
          refine ⟨_, [], below.add leadsOne, ⟨by simp, rfl⟩, ?_⟩
          simp [closing]
        · contradiction

theorem step_text (spells : Spells opened elements level) (read : Partial (.text raw) tail)
    (success : step ⟨opened, elements, .text raw⟩ c = some after) :
    after.Has (level ++ tail ++ [c]) := by
  obtain ⟨plain, rfl⟩ := read
  simp only [step] at success
  split at success <;> cases success
  · next bracket => exact spells.goOn ⟨plain, rfl⟩ (by rw [bracket])
  · next other => exact spells.goOn ⟨by simp [plain, Ne.symm other], rfl⟩ rfl

/-- The first character behind a bracket tells an end tag from a start tag. -/
theorem step_bracket (spells : Spells opened elements level) (read : Partial (.bracket raw) tail)
    (success : step ⟨opened, elements, .bracket raw⟩ c = some after) :
    after.Has (level ++ tail ++ [c]) := by
  obtain ⟨plain, rfl⟩ := read
  simp only [step] at success
  split at success
  · next slash =>
    cases success
    exact spells.goOn ⟨plain, rfl⟩ (by simp [slash])
  · split at success
    · next letter =>
      cases success
      obtain ⟨letter, blanks⟩ := Bool.and_eq_true_iff.mp letter
      have named : isName (String.ofList [c]) := by simp [isName, letter]
      exact spells.goOn ⟨named, raw, [], blanks, .nil, rfl⟩ (by simp)
    · contradiction

theorem step_startName (spells : Spells opened elements level)
    (read : Partial (.startName name) tail)
    (success : step ⟨opened, elements, .startName name⟩ c = some after) :
    after.Has (level ++ tail ++ [c]) := by
  simp only [step] at success
  split at success
  · next letter =>
    cases success
    obtain ⟨named, blank, started, blanks, starts, rfl⟩ := read
    cases starts
    refine spells.goOn ⟨?_, blank, [], blanks, .nil, rfl⟩ (by simp)
    simp_all [isName]
  · exact continueTag spells read success

theorem step_attributeName (spells : Spells opened elements level)
    (read : Partial (.attributeName tag attributes name) tail)
    (success : step ⟨opened, elements, .attributeName tag attributes name⟩ c = some after) :
    after.Has (level ++ tail ++ [c]) := by
  obtain ⟨letters, start, within, rfl⟩ := read
  simp only [step] at success
  split at success
  · next letter =>
    cases success
    exact spells.goOn ⟨by simp_all, start, within, rfl⟩ (by simp)
  · split at success
    · next sign =>
      cases success
      obtain ⟨sign, some⟩ := Bool.and_eq_true_iff.mp sign
      refine spells.goOn ⟨?_, start, within, rfl⟩ (by simp [of_decide_eq_true sign])
      simp_all [isName]
    · contradiction

theorem step_equals (spells : Spells opened elements level)
    (read : Partial (.equals tag attributes name) tail)
    (success : step ⟨opened, elements, .equals tag attributes name⟩ c = some after) :
    after.Has (level ++ tail ++ [c]) := by
  obtain ⟨named, start, within, rfl⟩ := read
  simp only [step] at success
  split at success
  · next quote =>
    cases success
    exact spells.goOn ⟨named, by simp, start, within, rfl⟩ (by simp [quote])
  · contradiction

/-- A second quote makes an attribute of the name and the value. -/
theorem step_value (spells : Spells opened elements level)
    (read : Partial (.value tag attributes name raw) tail)
    (success : step ⟨opened, elements, .value tag attributes name raw⟩ c = some after) :
    after.Has (level ++ tail ++ [c]) := by
  obtain ⟨named, quoted, start, ⟨tagged, blank, started, blanks, starts, rfl⟩, rfl⟩ := read
  simp only [step] at success
  split at success <;> cases success
  · next quote =>
    refine spells.goOn ⟨tagged, blank, _, blanks, starts.concat named quoted, rfl⟩ ?_
    simp [quote]
  · next other =>
    refine spells.goOn ⟨named, ?_, _, ⟨tagged, blank, started, blanks, starts, rfl⟩, rfl⟩ (by simp)
    simp [quoted, Ne.symm other]

theorem step_endName (spells : Spells opened elements level)
    (read : Partial (.endName raw name) tail)
    (success : step ⟨opened, elements, .endName raw name⟩ c = some after) :
    after.Has (level ++ tail ++ [c]) := by
  obtain ⟨plain, rfl⟩ := read
  simp only [step] at success
  split at success
  · cases success
    exact spells.goOn ⟨plain, rfl⟩ (by simp)
  · split at success
    · next ends => exact ends ▸ close spells plain success
    · contradiction

end Spells

theorem Has.step {chars : List Char} {c : Char} (has : reader.Has chars)
    (success : reader.step c = some after) : after.Has (chars ++ [c]) := by
  obtain ⟨level, tail, spells, read, rfl⟩ := has
  obtain ⟨opened, elements, mode⟩ := reader
  cases mode with
  | text => exact spells.step_text read success
  | bracket => exact spells.step_bracket read success
  | startName => exact spells.step_startName read success
  | attributeName => exact spells.step_attributeName read success
  | equals => exact spells.step_equals read success
  | value => exact spells.step_value read success
  | afterValue => exact spells.continueTag read success
  | endName => exact spells.step_endName read success

theorem Has.run {read chars : List Char} (has : reader.Has read)
    (success : reader.run chars = some after) : after.Has (read ++ chars) := by
  induction chars generalizing reader read with
  | nil =>
    cases success
    rwa [List.append_nil]
  | cons c rest ih =>
    obtain ⟨middle, first, others⟩ := Option.bind_eq_some_iff.mp success
    rw [List.append_cons]
    exact ih (has.step first) others

end Reader

/-- The reader is a reader of the grammar: it accepts what can be read as elements, as those. -/
theorem parse?_eq_some_iff {text : String} {elements : List Element} :
    parse? text = some elements ↔ Reads elements text.toList := by
  constructor
  · intro success
    obtain ⟨⟨opened, _, mode⟩, ran, finished⟩ := Option.bind_eq_some_iff.mp success
    have start : Reader.Has {} [] :=
      ⟨[], [], .outside fun _ _ next => next, ⟨by simp, rfl⟩, rfl⟩
    obtain ⟨level, tail, spells, read, chars⟩ := start.run ran
    cases spells with
    | inside => contradiction
    | outside leads =>
      cases mode with
      | text raw =>
        rw [Reader.finish?] at finished
        simp only at finished
        split at finished
        · next blanks =>
          cases finished
          rw [List.nil_append] at chars
          rw [chars, read.2]
          exact leads.reads blanks
        · contradiction
      | _ => contradiction
  · intro reads
    obtain ⟨left, blanks, ran⟩ := Reader.run_reads reads (rfl : ([] : List Char).all isBlank)
    rw [parse?, ran]
    simp [Reader.finish?, blanks]

end ViewMarkup.Markup
