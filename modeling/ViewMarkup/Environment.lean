/-! # Inherited style values

A node may declare a token for a style key, and the token holds for the node and for all nodes below
it, until a node further down declares its own. `Frame` is what one node declares, `resolvePath`
looks a key up along the frames from the root to a node, and `Environment` is the stack of frames of
a visit that is under way.
-/

namespace ViewMarkup

/-- The style values that a node hands down. -/
inductive StyleKey where
  | buttonStyle
  | datePickerStyle
deriving DecidableEq, Repr, Inhabited

/-- The token of a key that no node on the path declares. -/
def defaultToken : String := "default"

namespace StyleKey

/-- The written name of a key. -/
def name : StyleKey → String
  | buttonStyle => "buttonStyle"
  | datePickerStyle => "datePickerStyle"

/-- The key with a written name. -/
def ofName? : String → Option StyleKey
  | "buttonStyle" => some buttonStyle
  | "datePickerStyle" => some datePickerStyle
  | _ => none

/-- The style that the default token stands for. -/
def defaultStyle : StyleKey → String
  | buttonStyle => "DefaultButtonStyle"
  | datePickerStyle => "DefaultDatePickerStyle"

/-- The style that a token names: a token that ends in an empty pair of parentheses names what
stands before them, the bare default token names the default style of the key, and any other token
names itself. -/
def style (key : StyleKey) (token : String) : String :=
  match token.toList.reverse with
  | ')' :: '(' :: bare => String.ofList bare.reverse
  | _ => if token = defaultToken then key.defaultStyle else token

end StyleKey

/-- The tokens that one node declares. -/
structure Frame where
  buttonStyle : Option String := none
  datePickerStyle : Option String := none
deriving DecidableEq, Repr, Inhabited

namespace Frame

/-- The token that a frame declares for a key. -/
def get? (frame : Frame) : StyleKey → Option String
  | .buttonStyle => frame.buttonStyle
  | .datePickerStyle => frame.datePickerStyle

/-- Declares a token for a key, in place of an earlier one. -/
def declare (frame : Frame) (key : StyleKey) (token : String) : Frame :=
  match key with
  | .buttonStyle => { frame with buttonStyle := some token }
  | .datePickerStyle => { frame with datePickerStyle := some token }

/-- Whether a frame declares nothing. -/
def isEmpty (frame : Frame) : Bool :=
  frame.buttonStyle.isNone && frame.datePickerStyle.isNone

@[simp] theorem get?_declare (frame : Frame) (key other : StyleKey) (token : String) :
    (frame.declare key token).get? other =
      if other = key then some token else frame.get? other := by
  cases key <;> cases other <;> rfl

end Frame

/-- The token of a key at the end of a path of frames, the root's frame first: the last declaration
on the path, or the default token. -/
def resolvePath (key : StyleKey) (path : List Frame) : String :=
  (path.reverse.findSome? (·.get? key)).getD defaultToken

/-- The frames of the nodes that are being visited, the innermost first. -/
structure Environment where
  frames : List Frame := []
deriving DecidableEq, Repr, Inhabited

namespace Environment

/-- Enters a node. -/
def push (environment : Environment) (frame : Frame) : Environment :=
  ⟨frame :: environment.frames⟩

/-- The frame of the innermost node. -/
def top? (environment : Environment) : Option Frame :=
  environment.frames.head?

/-- Leaves the innermost node; nothing happens when there is none. -/
def pop (environment : Environment) : Environment :=
  ⟨environment.frames.tail⟩

/-- The number of nodes that are being visited. -/
def depth (environment : Environment) : Nat :=
  environment.frames.length

/-- The token of a key at the innermost node. -/
def resolve (environment : Environment) (key : StyleKey) : String :=
  (environment.frames.findSome? (·.get? key)).getD defaultToken

/-- The style of a key at the innermost node. -/
def style (environment : Environment) (key : StyleKey) : String :=
  key.style (environment.resolve key)

theorem resolve_eq_resolvePath (environment : Environment) (key : StyleKey) :
    environment.resolve key = resolvePath key environment.frames.reverse := by
  simp [resolve, resolvePath]

end Environment

end ViewMarkup
