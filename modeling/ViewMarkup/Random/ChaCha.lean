/-! # ChaCha blocks

A block is sixteen words in four rows. One block of the key stream comes from a fixed row of
constants, two rows of key and a row that holds the block counter, by twelve rounds of mixing and a
final addition of the block they started from.
-/

namespace ViewMarkup.Random

/-- Four words that are mixed in parallel. -/
structure Row where
  first : UInt32
  second : UInt32
  third : UInt32
  fourth : UInt32
deriving DecidableEq, Repr, Inhabited

namespace Row

/-- Applies a function to the words in the same place of two rows. -/
def zipWith (f : UInt32 → UInt32 → UInt32) (left right : Row) : Row :=
  ⟨f left.first right.first, f left.second right.second, f left.third right.third,
    f left.fourth right.fourth⟩

/-- Adds two rows word by word, modulo 2^32. -/
def add (left right : Row) : Row :=
  zipWith (· + ·) left right

/-- Adds two rows bit by bit and rotates every word to the left. -/
def mix (left right : Row) (amount : UInt32) : Row :=
  zipWith (fun x y => ((x ^^^ y) <<< amount) ||| ((x ^^^ y) >>> (32 - amount))) left right

/-- Moves every word one place to the left, the first word to the end. -/
def shift (row : Row) : Row :=
  ⟨row.second, row.third, row.fourth, row.first⟩

/-- The words from left to right. -/
def toList (row : Row) : List UInt32 :=
  [row.first, row.second, row.third, row.fourth]

end Row

/-- Sixteen words in four rows. -/
structure Block where
  a : Row
  b : Row
  c : Row
  d : Row
deriving DecidableEq, Repr, Inhabited

namespace Block

/-- Mixes each of the four columns. -/
def columnRound (block : Block) : Block :=
  let a := block.a.add block.b
  let d := block.d.mix a 16
  let c := block.c.add d
  let b := block.b.mix c 12
  let a := a.add b
  let d := d.mix a 8
  let c := c.add d
  let b := b.mix c 7
  ⟨a, b, c, d⟩

/-- Turns diagonals into columns. -/
def toColumns (block : Block) : Block :=
  ⟨block.a, block.b.shift, block.c.shift.shift, block.d.shift.shift.shift⟩

/-- Turns columns back into diagonals. -/
def toDiagonals (block : Block) : Block :=
  ⟨block.a, block.b.shift.shift.shift, block.c.shift.shift, block.d.shift⟩

/-- Mixes the four columns and then the four diagonals. -/
def doubleRound (block : Block) : Block :=
  block.columnRound.toColumns.columnRound.toDiagonals

/-- Adds two blocks word by word, modulo 2^32. -/
def add (left right : Block) : Block :=
  ⟨left.a.add right.a, left.b.add right.b, left.c.add right.c, left.d.add right.d⟩

/-- The words row by row. -/
def toList (block : Block) : List UInt32 :=
  block.a.toList ++ block.b.toList ++ block.c.toList ++ block.d.toList

/-- Repeats the double round. -/
def scramble : Nat → Block → Block
  | 0, block => block
  | rounds + 1, block => scramble rounds block.doubleRound

end Block

/-- The row of constants that every block starts with. -/
def constants : Row :=
  ⟨0x61707865, 0x3320646e, 0x79622d32, 0x6b206574⟩

/-- The eight key words of a stream. -/
structure StreamKey where
  low : Row
  high : Row
deriving DecidableEq, Repr, Inhabited

/-- The block that a counter selects before mixing: the low and the high half of the counter stand
first in the last row. -/
def StreamKey.block (key : StreamKey) (counter : UInt64) : Block :=
  ⟨constants, key.low, key.high, ⟨counter.toUInt32, (counter >>> 32).toUInt32, 0, 0⟩⟩

/-- The sixteen words of the key stream at a counter: six double rounds, then the start added. -/
def StreamKey.words (key : StreamKey) (counter : UInt64) : List UInt32 :=
  (((key.block counter).scramble 6).add (key.block counter)).toList

end ViewMarkup.Random
