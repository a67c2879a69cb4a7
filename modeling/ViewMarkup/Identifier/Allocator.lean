import Std.Data.TreeSet
import ViewMarkup.Random.KeyStream
import ViewMarkup.Text.Quoted

/-! # Identifier allocation

Every node has an identifier: a stem followed by the decimal digits of a number below a fixed bound,
the space. An allocator never issues a number twice, and once every number of its space is out it
reports exhaustion instead of drawing on. Numbers come either from a counter or from random draws,
of which those already issued are drawn again. A call that is never given another number does not
return. It has an outcome of its own, so that it counts neither as a success nor as exhaustion, and
what is said of calls that return can leave it out.
-/

namespace ViewMarkup

open ViewMarkup.Random

/-- Why a call gives no identifier. Every number of the space may be issued already; or every draw
that is made from now on is refused, and then the call does not return. -/
inductive AllocationError where
  | exhausted (space : UInt32)
  | endless
deriving DecidableEq, Repr, Inhabited

/-- The wording of a failed call. -/
def AllocationError.message : AllocationError → String
  | .exhausted space =>
    "identifier space exhausted: all " ++ space.toNat.repr ++ " identifiers have been issued"
  | .endless => "identifier search does not end"

/-- How numbers are chosen: in order, or at random from a seed. Without a seed the draws start
wherever the environment says. -/
inductive Strategy where
  | sequential
  | random (seed : Option UInt64)
deriving DecidableEq, Repr

instance : Inhabited Strategy :=
  ⟨.random none⟩

/-- Where the next number comes from. -/
inductive Source (γ : Type) where
  | counter (next : UInt32)
  | draws (state : γ)
deriving Repr

/-- The source that a strategy starts with. -/
def Strategy.source (entropy : KeyStream) : Strategy → Source KeyStream
  | .sequential => .counter 0
  | .random seed => .draws (seed.elim entropy KeyStream.ofSeed)

/-- The stem of identifiers when none is chosen. -/
def defaultStem : String := "a"

/-- The size of the identifier space when none is chosen. -/
def defaultSpace : UInt32 := 1000000

/-- An identifier is a stem followed by a number in decimal. -/
def identifier (stem : String) (number : UInt32) : String :=
  stem ++ number.toNat.repr

/-- A draw: its bound, the state of the generator before it, and the numbers it is to avoid. -/
structure Draw (γ : Type) where
  bound : UInt32
  state : γ
  avoided : Std.TreeSet UInt32

/-- The state of the generator after a draw. -/
def Draw.rest {γ : Type} [Generator γ] (draw : Draw γ) : γ :=
  (Generator.below draw.bound draw.state).2

/-- The state of an allocator: its fixed stem and space, its source, and the numbers it has
issued. -/
structure Allocator (γ : Type) where
  stem : String := defaultStem
  space : UInt32 := defaultSpace
  source : Source γ
  issued : Std.TreeSet UInt32 := ∅

namespace Allocator

variable {γ : Type}

/-- Draws until a number is not yet issued, however many draws that takes. The result is this number,
the state after it, and the draws that were made, added to those made before. There is no result when
every draw is refused. -/
def search [Generator γ] (allocator : Allocator γ) (state : γ) (made : Array (Draw γ) := #[]) :
    Option (UInt32 × γ × Array (Draw γ)) :=
  let (number, rest) := Generator.below allocator.space state
  let all := made.push ⟨allocator.space, state, allocator.issued⟩
  if allocator.issued.contains number then allocator |>.search rest all
  else some (number, rest, all)
partial_fixpoint

/-- The next number, the source after it, and the draws made for it. A counter makes none, and does
not look at what was issued. -/
def choose? [Generator γ] (allocator : Allocator γ) :
    Option (UInt32 × Source γ × Array (Draw γ)) :=
  match allocator.source with
  | .counter next => some (next, .counter (next + 1), #[])
  | .draws state =>
    (allocator.search state).map fun (number, rest, made) => (number, .draws rest, made)

/-- A call for an identifier, with the draws that it makes before it returns. -/
def request [Generator γ] (allocator : Allocator γ) :
    Except AllocationError (String × Allocator γ) × Array (Draw γ) :=
  if allocator.space.toNat ≤ allocator.issued.size then
    (.error (.exhausted allocator.space), #[])
  else
    match allocator.choose? with
    | none => (.error .endless, #[])
    | some (number, source, made) =>
      (.ok (identifier allocator.stem number,
        { allocator with source := source, issued := allocator.issued.insert number }), made)

/-- A fresh identifier and the allocator after it; a failing call changes nothing. -/
def allocate [Generator γ] (allocator : Allocator γ) :
    Except AllocationError (String × Allocator γ) :=
  allocator.request.1

/-- The draws of a call. -/
def draws [Generator γ] (allocator : Allocator γ) : List (Draw γ) :=
  allocator.request.2.toList

/-- How many numbers are issued. -/
def issuedCount (allocator : Allocator γ) : Nat :=
  allocator.issued.size

/-- A one-line description of an allocator. -/
def describe (allocator : Allocator γ) : String :=
  "IdAllocator \x7b prefix: " ++ Text.quote allocator.stem ++ ", space: " ++
    allocator.space.toNat.repr ++ ", issued: " ++ allocator.issuedCount.repr ++ " \x7d"

end Allocator

end ViewMarkup
