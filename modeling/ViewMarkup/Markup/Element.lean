/-! # Elements

An element is what stands for a node in markup: a tag, attributes in order, and either a text or
child elements.
-/

namespace ViewMarkup

/-- A named value of an element. -/
structure Attribute where
  name : String
  value : String
deriving DecidableEq, Repr, Inhabited

/-- An element with a text, or with other elements inside. -/
inductive Element where
  | text (tag : String) (attributes : List Attribute) (body : String)
  | group (tag : String) (attributes : List Attribute) (children : List Element)
deriving Repr, Inhabited

namespace Element

/-- The tag of an element. -/
def tag : Element → String
  | text tag _ _ => tag
  | group tag _ _ => tag

/-- The attributes of an element. -/
def attributes : Element → List Attribute
  | text _ attributes _ => attributes
  | group _ attributes _ => attributes

end Element

end ViewMarkup
