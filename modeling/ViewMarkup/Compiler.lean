import ViewMarkup.Markup.Render
import ViewMarkup.Program.Session

/-! # Compiling programs

Compiling a program runs it with a fresh builder, which names the nodes by some allocator, and
renders the tree that it built. A configuration fixes how identifiers are chosen and how output is
laid out.
-/

namespace ViewMarkup

open ViewMarkup.Random

/-- How programs are compiled. -/
structure Config where
  strategy : Strategy := .random none
  stem : String := defaultStem
  space : UInt32 := defaultSpace
  layout : Layout := {}
deriving DecidableEq, Repr, Inhabited

/-- The configuration whose identifiers count up from zero. -/
def Config.sequential : Config :=
  { strategy := .sequential }

/-- The configuration that fixes only how identifiers are chosen. -/
def Config.ofStrategy (strategy : Strategy) : Config :=
  { strategy }

/-- Why a program has no output. -/
inductive CompileError where
  | build (cause : BuildError)
  | render (cause : RenderError)
deriving DecidableEq, Repr, Inhabited

/-- A tree and what it is rendered to. -/
structure Compilation where
  tree : Tree
  output : Output
deriving DecidableEq, Repr, Inhabited

namespace Program

variable {γ : Type} [Generator γ]

/-- The tree that a program builds. -/
def build (ids : Allocator γ) (program : Program) : Except BuildError Tree :=
  (Program.run { builder := { ids } } program).builder.outcome

/-- The tree that a program builds, and its output. -/
def compile (ids : Allocator γ) (layout : Layout) (program : Program) :
    Except CompileError Compilation :=
  match Program.build ids program with
  | .error cause => .error (.build cause)
  | .ok tree =>
    match tree.render layout with
    | .error cause => .error (.render cause)
    | .ok output => .ok { tree, output }

end Program

namespace Config

/-- A fresh allocator. -/
def allocator (config : Config) (entropy : KeyStream) : Allocator KeyStream :=
  { stem := config.stem, space := config.space, source := config.strategy.source entropy }

/-- A fresh builder. -/
def builder (config : Config) (entropy : KeyStream) : Builder KeyStream :=
  { ids := config.allocator entropy }

/-- Runs a program with a fresh builder. -/
def run (config : Config) (entropy : KeyStream) (program : Program) : Session KeyStream :=
  Program.run { builder := config.builder entropy } program

/-- The tree that a program builds. -/
def build (config : Config) (entropy : KeyStream) (program : Program) : Except BuildError Tree :=
  Program.build (config.allocator entropy) program

/-- The tree that a program builds, and its output. -/
def compile (config : Config) (entropy : KeyStream) (program : Program) :
    Except CompileError Compilation :=
  Program.compile (config.allocator entropy) config.layout program

end Config

end ViewMarkup
