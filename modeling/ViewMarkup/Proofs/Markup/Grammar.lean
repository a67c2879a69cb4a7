import ViewMarkup.Proofs.Markup.Writing
import ViewMarkup.Proofs.Text.Unescape

/-! # The grammar of markup

A start tag has a name and attributes, each a name and a quoted value. Between it and the end tag
of the same name stands either a text, which reaches to the next angle bracket, or at least one
element. Blanks and line ends may stand around elements that are not in a text. Values and texts
are read with their entities replaced.

`Reads elements chars` says that the characters can be read as these elements. The writer keeps to
the grammar: the lines it writes for some elements can be read as those elements, whatever the
values and texts are.
-/

namespace ViewMarkup.Markup

/-- The characters that may stand between elements. -/
def isBlank (c : Char) : Bool :=
  c = ' ' || c = '\n'

/-- The characters of tags and of attribute names. -/
def isNameChar (c : Char) : Bool :=
  c.isAlphanum || c = '-'

/-- Whether a text can be a tag or the name of an attribute. -/
def isName (text : String) : Bool :=
  !text.toList.isEmpty && text.toList.all isNameChar

/-- Part of a start tag, read as attributes. -/
inductive ReadsAttributes : List Attribute → List Char → Prop
  | nil : ReadsAttributes [] []
  | cons {name : String} {raw chars : List Char} {attributes : List Attribute}
      (named : isName name) (quoted : '"' ∉ raw) (more : ReadsAttributes attributes chars) :
      ReadsAttributes (⟨name, String.ofList (Text.unescape raw)⟩ :: attributes)
        (' ' :: name.toList ++ '=' :: '"' :: raw ++ '"' :: chars)

theorem ReadsAttributes.concat {attributes : List Attribute} {chars raw : List Char} {name : String}
    (reads : ReadsAttributes attributes chars) (named : isName name) (quoted : '"' ∉ raw) :
    ReadsAttributes (attributes ++ [⟨name, String.ofList (Text.unescape raw)⟩])
      (chars ++ (' ' :: name.toList ++ '=' :: '"' :: raw ++ ['"'])) := by
  induction reads with
  | nil => exact .cons named quoted .nil
  | cons first inner _ ih => simpa using ReadsAttributes.cons first inner ih

/-- A start tag with its attributes. -/
def opening (tag : String) (inside : List Char) : List Char :=
  '<' :: tag.toList ++ inside ++ ['>']

/-- An end tag. -/
def closing (tag : String) : List Char :=
  '<' :: '/' :: tag.toList ++ ['>']

/-- Characters, read as elements. -/
inductive Reads : List Element → List Char → Prop
  | nil {blank : List Char} (before : blank.all isBlank) : Reads [] blank
  | text {blank inside raw rest : List Char} {tag : String} {attributes : List Attribute}
      {others : List Element} (before : blank.all isBlank) (named : isName tag)
      (started : ReadsAttributes attributes inside) (ended : '<' ∉ raw)
      (more : Reads others rest) :
      Reads (.text tag attributes (String.ofList (Text.unescape raw)) :: others)
        (blank ++ opening tag inside ++ raw ++ closing tag ++ rest)
  | group {blank inside content rest : List Char} {tag : String} {attributes : List Attribute}
      {children others : List Element} (before : blank.all isBlank) (named : isName tag)
      (started : ReadsAttributes attributes inside) (filled : Reads children content)
      (some : children ≠ []) (more : Reads others rest) :
      Reads (.group tag attributes children :: others)
        (blank ++ opening tag inside ++ content ++ closing tag ++ rest)

/-- Characters that read as some elements, whatever follows. -/
def Leads (elements : List Element) (chars : List Char) : Prop :=
  ∀ others rest, Reads others rest → Reads (elements ++ others) (chars ++ rest)

theorem Leads.append {first second : List Element} {chars more : List Char}
    (left : Leads first chars) (right : Leads second more) :
    Leads (first ++ second) (chars ++ more) := by
  intro others rest next
  rw [List.append_assoc, List.append_assoc]
  exact left _ _ (right _ _ next)

theorem Leads.reads {elements : List Element} {chars blank : List Char}
    (leads : Leads elements chars) (after : blank.all isBlank) :
    Reads elements (chars ++ blank) := by
  simpa using leads [] blank (.nil after)

/-- Further blanks in front change nothing. -/
theorem Reads.blank_append {blank chars : List Char} {elements : List Element}
    (before : blank.all isBlank) (reads : Reads elements chars) : Reads elements (blank ++ chars) := by
  cases reads with
  | nil inner => exact .nil (by rw [List.all_append, before, inner]; rfl)
  | text inner named started ended more =>
    simp only [← List.append_assoc]
    exact .text (by rw [List.all_append, before, inner]; rfl) named started ended more
  | group inner named started filled some more =>
    simp only [← List.append_assoc]
    exact .group (by rw [List.all_append, before, inner]; rfl) named started filled some more

/-! ## The writer keeps to the grammar -/

theorem toList_written (pair : Attribute) :
    pair.written.toList =
      ' ' :: pair.name.toList ++ '=' :: '"' :: Text.escapeChars pair.value.toList ++ ['"'] := by
  simp [Attribute.written]

theorem toList_endTag (tag : String) : (endTag tag).toList = closing tag := by
  simp [endTag, closing]

theorem readsAttributes_written {attributes : List Attribute}
    (named : attributes.all fun pair => isName pair.name) :
    ReadsAttributes attributes (attributes.flatMap fun pair => pair.written.toList) := by
  induction attributes with
  | nil => exact .nil
  | cons pair rest ih =>
    rw [List.all_cons, Bool.and_eq_true] at named
    have quoted : '"' ∉ Text.escapeChars pair.value.toList := Text.not_mem_escapeChars rfl _
    have first := ReadsAttributes.cons named.1 quoted (ih named.2)
    rw [Text.unescape_escapeChars, String.ofList_toList] at first
    rw [List.flatMap_cons, toList_written]
    simpa only [List.append_assoc, List.singleton_append] using first

theorem toList_startTag (tag : String) (attributes : List Attribute) :
    (startTag tag attributes).toList =
      opening tag (attributes.flatMap fun pair => pair.written.toList) := by
  simp [startTag, opening, String.toList_join, List.flatMap_map]

end ViewMarkup.Markup

namespace ViewMarkup

open Markup

mutual

/-- Whether an element can be read back: its names are names, and a group has an element. -/
def Element.isReadable : Element → Bool
  | .text tag attributes _ => isName tag && attributes.all fun pair => isName pair.name
  | .group tag attributes children =>
    isName tag && (attributes.all fun pair => isName pair.name) && !children.isEmpty &&
      Element.allReadable children

/-- Whether elements can be read back. -/
def Element.allReadable : List Element → Bool
  | [] => true
  | element :: rest => element.isReadable && Element.allReadable rest

end

private theorem all_isBlank_replicate (count : Nat) : (List.replicate count ' ').all isBlank := by
  simp [isBlank]

private theorem isBlank_lineEnd : "\n".toList.all isBlank := by
  decide

/-- An element with a text, on one line. -/
theorem Element.leads_text (indent depth : Nat) {tag : String} {attributes : List Attribute}
    (body : String) (named : isName tag) (namedAll : attributes.all fun pair => isName pair.name) :
    Leads [.text tag attributes body]
      ((Element.text tag attributes body).lines indent depth).toList := by
  intro others rest next
  have ended : '<' ∉ Text.escapeChars body.toList := Text.not_mem_escapeChars rfl _
  have reads := Reads.text (all_isBlank_replicate (depth * indent)) named
    (readsAttributes_written namedAll) ended (next.blank_append isBlank_lineEnd)
  rw [Text.unescape_escapeChars, String.ofList_toList] at reads
  simpa only [Element.lines, String.toList_append, Text.toList_blanks, toList_startTag,
    toList_endTag, Text.toList_escape, List.append_assoc, List.singleton_append] using reads

/-- The lines of a start tag and of an end tag around the lines of the children. -/
theorem Element.leads_group (indent depth : Nat) {tag : String} {attributes : List Attribute}
    {children : List Element} (named : isName tag)
    (namedAll : attributes.all fun pair => isName pair.name) (some : children ≠ [])
    (content : Leads children (Element.linesAll indent (depth + 1) children).toList) :
    Leads [.group tag attributes children]
      ((Element.group tag attributes children).lines indent depth).toList := by
  intro others rest next
  -- Inside the element stand the end of its first line, its children, and the blanks of the last.
  have filled := content.reads (all_isBlank_replicate (depth * indent))
  have reads := Reads.group (all_isBlank_replicate (depth * indent)) named
    (readsAttributes_written namedAll) (filled.blank_append isBlank_lineEnd) some
    (next.blank_append isBlank_lineEnd)
  simpa only [Element.lines, String.toList_append, Text.toList_blanks, toList_startTag,
    toList_endTag, List.append_assoc, List.singleton_append] using reads

mutual

theorem Element.leads_lines (indent depth : Nat) (element : Element)
    (readable : element.isReadable) : Leads [element] (element.lines indent depth).toList := by
  cases element with
  | text tag attributes body =>
    obtain ⟨named, namedAll⟩ := Bool.and_eq_true_iff.mp readable
    exact Element.leads_text indent depth body named namedAll
  | group tag attributes children =>
    simp only [Element.isReadable, Bool.and_eq_true, Bool.not_eq_true', List.isEmpty_eq_false_iff]
      at readable
    obtain ⟨⟨⟨named, namedAll⟩, some⟩, inside⟩ := readable
    exact Element.leads_group indent depth named namedAll some
      (Element.leads_linesAll indent (depth + 1) children inside)

theorem Element.leads_linesAll (indent depth : Nat) (elements : List Element)
    (readable : Element.allReadable elements) :
    Leads elements (Element.linesAll indent depth elements).toList := by
  cases elements with
  | nil => exact fun _ _ reads => reads
  | cons element rest =>
    obtain ⟨first, others⟩ := Bool.and_eq_true_iff.mp readable
    rw [Element.linesAll, String.toList_append]
    exact (Element.leads_lines indent depth element first).append
      (Element.leads_linesAll indent depth rest others)

end

/-- The markup of elements can be read as those elements. -/
theorem Element.reads_linesAll (indent : Nat) {elements : List Element}
    (readable : Element.allReadable elements) :
    Reads elements (Element.linesAll indent 0 elements).toList := by
  simpa using (Element.leads_linesAll indent 0 elements readable).reads
    (rfl : ([] : List Char).all isBlank)

end ViewMarkup
