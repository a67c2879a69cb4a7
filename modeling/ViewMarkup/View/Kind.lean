import ViewMarkup.Environment

/-! # Kinds of views

A kind says what a node is and carries the data that its constructor was given. The tables of this
module fix how each kind is named, grouped and written.
-/

namespace ViewMarkup

/-- A part of a date that a date picker lets the user choose. -/
inductive DateComponent where
  | date
  | hourAndMinute
deriving DecidableEq, Repr, Inhabited

/-- What a node is. Bindings and actions are names and expressions of the surrounding script. -/
inductive Kind where
  | vstack
  | hstack
  | list
  | form
  | sectionGroup (header : Option String)
  | disclosureGroup (title : String) (isExpanded : Option String)
  | forEach (data item : String)
  | text (content : String) (font : Option String)
  | button (label action : Option String)
  | toggle (title : Option String) (isOn : String)
  | textField (placeholder binding : String) (secure : Bool)
  | datePicker (title : Option String) (selection : String) (components : List DateComponent)
  | colorPicker (title : Option String) (selection : String) (supportsOpacity : Bool)
deriving DecidableEq, Repr, Inhabited

/-- The groups that kinds fall into. -/
inductive Category where
  | container
  | text
  | control
  | forEach
deriving DecidableEq, Repr, Inhabited

/-- The written name of a category. -/
def Category.name : Category → String
  | container => "Container"
  | text => "Text"
  | control => "Control"
  | forEach => "ForEach"

/-- The category with a written name. -/
def Category.ofName? : String → Option Category
  | "Container" => some container
  | "Text" => some text
  | "Control" => some control
  | "ForEach" => some forEach
  | _ => none

namespace Kind

/-- The name of the type of view; a secure text field has one of its own. -/
def typeName : Kind → String
  | vstack => "VStack"
  | hstack => "HStack"
  | list => "List"
  | form => "Form"
  | sectionGroup _ => "Section"
  | disclosureGroup .. => "DisclosureGroup"
  | forEach .. => "ForEach"
  | text .. => "Text"
  | button .. => "Button"
  | toggle .. => "Toggle"
  | textField _ _ secure => if secure then "SecureField" else "TextField"
  | datePicker .. => "DatePicker"
  | colorPicker .. => "ColorPicker"

/-- The category of a kind. -/
def category : Kind → Category
  | vstack | hstack | list | form | sectionGroup _ | disclosureGroup .. => .container
  | forEach .. => .forEach
  | text .. => .text
  | button .. | toggle .. | textField .. | datePicker .. | colorPicker .. => .control

/-- The tag of the element that stands for a node of this kind. -/
def tag : Kind → String
  | vstack | hstack => "div"
  | list => "ul"
  | form => "form"
  | sectionGroup _ => "section"
  | disclosureGroup .. => "details"
  | forEach .. => "li"
  | text .. => "span"
  | button .. => "button"
  | toggle .. | textField .. | datePicker .. | colorPicker .. => "label"

/-- The class of the element that stands for a node of this kind, before any style is added. -/
def className : Kind → String
  | vstack => "vstack"
  | hstack => "hstack"
  | list => "list"
  | form => "form"
  | sectionGroup _ => "section"
  | disclosureGroup .. => "disclosure-group"
  | forEach .. => "for-each"
  | text .. => "text"
  | button .. => "button"
  | toggle .. => "toggle"
  | textField _ _ secure => if secure then "text-field secure-field" else "text-field"
  | datePicker .. => "date-picker"
  | colorPicker .. => "color-picker"

/-- The key of the inherited style that a kind is drawn in. -/
def styleKey? : Kind → Option StyleKey
  | button .. => some .buttonStyle
  | datePicker .. => some .datePickerStyle
  | _ => none

/-- The text that stands inside the element when it has no children. -/
def bodyText? : Kind → Option String
  | text content _ => some content
  | button label _ => label
  | toggle title _ => title
  | datePicker title _ _ => title
  | colorPicker title _ _ => title
  | _ => none

/-- The action that a click on the node runs. -/
def action? : Kind → Option String
  | button _ action => action
  | _ => none

/-- Whether the user can operate a node of this kind. -/
def isInteractive (kind : Kind) : Bool :=
  kind.category = .control

/-- Sets the font of a text; any other kind has none and stays as it is. -/
def withFont (token : String) : Kind → Kind
  | text content _ => text content (some token)
  | other => other

/-- Whether a font applies to a kind. -/
def takesFont : Kind → Bool
  | text .. => true
  | _ => false

end Kind

end ViewMarkup
