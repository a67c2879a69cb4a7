import ViewMarkup.Text.Column

/-! # Handlers and their script

A node with an action registers a handler for a user event. The script has one entry per handler,
which binds the handler's name to a function that runs the action.
-/

namespace ViewMarkup

/-- What a handler listens for. -/
inductive Trigger where
  | click
deriving DecidableEq, Repr, Inhabited

/-- The written name of a trigger. -/
def Trigger.name : Trigger → String
  | click => "Click"

/-- The action that runs when a trigger reaches the node with an identifier. -/
structure Handler where
  identifier : String
  trigger : Trigger := .click
  action : String
deriving DecidableEq, Repr, Inhabited

namespace Handler

/-- The name of a handler in the script. -/
def name (handler : Handler) : String :=
  handler.identifier ++ "On" ++ handler.trigger.name

/-- The entry of a handler, with its body set in by some blanks. -/
def entry (blanks : String) (handler : Handler) : String :=
  handler.name ++ ": () => \x7b\n" ++ blanks ++ "(" ++ handler.action ++ ")();\n\x7d,\n"

/-- The entries of some handlers in order. The blanks are a formatted field, which is requested only
when there is an entry to write. -/
def script (indent : Nat) (handlers : List Handler) : Except Text.WidthError String :=
  if handlers.isEmpty then .ok ""
  else (Text.column indent).map fun blanks => String.join (handlers.map (entry blanks))

end Handler

end ViewMarkup
