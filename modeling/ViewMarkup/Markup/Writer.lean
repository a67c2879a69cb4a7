import ViewMarkup.Markup.Element
import ViewMarkup.Text.Column
import ViewMarkup.Text.Escape

/-! # Writing markup

Markup is written in whole lines, each indented by its depth. An element with a text takes one line.
An element with children takes a line for its start tag and one for its end tag, and its children
stand between them one level deeper. Values and texts are escaped; tags and names are written as
they are. Writing fails at a line that is to be indented by more blanks than a text can have.
-/

namespace ViewMarkup

/-- An attribute as it is written in a start tag, with the blank before it. -/
def Attribute.written (pair : Attribute) : String :=
  " " ++ pair.name ++ "=\"" ++ Text.escape pair.value ++ "\""

/-- A start tag. -/
def startTag (tag : String) (attributes : List Attribute) : String :=
  "<" ++ tag ++ String.join (attributes.map Attribute.written) ++ ">"

/-- An end tag. -/
def endTag (tag : String) : String :=
  "</" ++ tag ++ ">"

/-- The lines written so far, and the number of blanks per level. -/
structure Writer where
  indent : Nat
  written : String := ""
deriving DecidableEq, Repr, Inhabited

namespace Writer

/-- Writes one line at a depth. -/
def line (writer : Writer) (depth : Nat) (content : String) : Except Text.CapacityError Writer :=
  (Text.padding (depth * writer.indent)).map fun blanks =>
    { writer with written := writer.written ++ blanks ++ content ++ "\n" }

/-- Writes a start tag on a line of its own. -/
def openElement (writer : Writer) (depth : Nat) (tag : String) (attributes : List Attribute) :
    Except Text.CapacityError Writer :=
  writer.line depth (startTag tag attributes)

/-- Writes an end tag on a line of its own. -/
def closeElement (writer : Writer) (depth : Nat) (tag : String) : Except Text.CapacityError Writer :=
  writer.line depth (endTag tag)

/-- Writes an element with a text on one line. -/
def textElement (writer : Writer) (depth : Nat) (tag : String) (attributes : List Attribute)
    (body : String) : Except Text.CapacityError Writer :=
  writer.line depth (startTag tag attributes ++ Text.escape body ++ endTag tag)

end Writer

mutual

/-- Writes an element at a depth. -/
def Element.write (depth : Nat) (writer : Writer) : Element → Except Text.CapacityError Writer
  | .text tag attributes body => writer.textElement depth tag attributes body
  | .group tag attributes children => do
    let opened ← writer.openElement depth tag attributes
    let filled ← Element.writeAll (depth + 1) opened children
    filled.closeElement depth tag

/-- Writes elements at a depth, one after the other. -/
def Element.writeAll (depth : Nat) (writer : Writer) :
    List Element → Except Text.CapacityError Writer
  | [] => .ok writer
  | element :: rest => do
    let next ← element.write depth writer
    Element.writeAll depth next rest

end

/-- The markup of some elements, with a number of blanks per level. -/
def Element.markup (indent : Nat) (elements : List Element) : Except Text.CapacityError String :=
  (Element.writeAll 0 { indent } elements).map Writer.written

end ViewMarkup
