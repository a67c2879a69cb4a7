import ViewMarkup.Random.ChaCha

/-! # Seeded streams of words and values below a bound

A `KeyStream` hands out the words of consecutive blocks of one key, and the key is spread out of a
64-bit seed. `KeyStream.below` turns words into values below a bound without bias: the product of a
word and the bound has the value in its upper half, and its lower half decides whether the word is
used. `KeyStream.below_lt` says that the value is below the bound.
-/

namespace ViewMarkup.Random

/-- A source of random values below a bound. -/
class Generator (γ : Type) where
  /-- The next value below a positive bound, and the state after it. -/
  below (bound : UInt32) (state : γ) : UInt32 × γ
  /-- Every value is below its bound. -/
  below_lt (bound : UInt32) (state : γ) (positive : 0 < bound) : (below bound state).1 < bound

/-- A position in the stream of a key: the words left of the current block, and the counter of the
next one. -/
structure KeyStream where
  key : StreamKey
  counter : UInt64 := 0
  pending : List UInt32 := []
deriving DecidableEq, Repr, Inhabited

/-- One step of the linear recurrence that spreads a seed. -/
def seedStep (state : UInt64) : UInt64 :=
  state * 6364136223846793005 + 11634580027462260723

/-- The key word read off a state of the recurrence: a middle part of it, rotated to the right by
its five top bits. -/
def seedWord (state : UInt64) : UInt32 :=
  let word := (((state >>> 18) ^^^ state) >>> 27).toUInt32
  let amount := (state >>> 59).toUInt32
  (word >>> amount) ||| (word <<< (32 - amount))

/-- A row of key words from the states that follow a state, and the last of these states. -/
def seedRow (state : UInt64) : Row × UInt64 :=
  let first := seedStep state
  let second := seedStep first
  let third := seedStep second
  let fourth := seedStep third
  (⟨seedWord first, seedWord second, seedWord third, seedWord fourth⟩, fourth)

namespace KeyStream

/-- The stream of a seed, from its start. -/
def ofSeed (seed : UInt64) : KeyStream :=
  let (low, middle) := seedRow seed
  let (high, _) := seedRow middle
  { key := ⟨low, high⟩ }

/-- The next word of the stream. -/
def next (stream : KeyStream) : UInt32 × KeyStream :=
  match stream.pending with
  | word :: rest => (word, { stream with pending := rest })
  | [] =>
    match stream.key.words stream.counter with
    | word :: rest => (word, { stream with counter := stream.counter + 1, pending := rest })
    | [] => (0, stream)

/-- The upper half of the product of a word and a bound. -/
def scaled (bound word : UInt32) : UInt32 :=
  ((word.toUInt64 * bound.toUInt64) >>> 32).toUInt32

/-- The lower half of the product of a word and a bound. -/
def remainder (bound word : UInt32) : UInt32 :=
  (word.toUInt64 * bound.toUInt64).toUInt32

/-- The largest lower half at which a word is used: the bound moved up to the top bit, less one. -/
def zone (bound : UInt32) : UInt32 :=
  (bound <<< (31 - bound.toNat.log2).toUInt32) - 1

/-- Draws words until one is used; after `limit` refusals the next word is taken as it comes. -/
def belowWithin (bound : UInt32) : Nat → KeyStream → UInt32 × KeyStream
  | 0, stream => (scaled bound stream.next.1, stream.next.2)
  | limit + 1, stream =>
    let (word, rest) := stream.next
    if remainder bound word ≤ zone bound then (scaled bound word, rest)
    else belowWithin bound limit rest

/-- How many words may be refused in a row. At least half of all words are used, so no stream comes
near it. -/
def refusalLimit : Nat := 0x4000000000000000

/-- The next value below a bound. -/
def below (bound : UInt32) (stream : KeyStream) : UInt32 × KeyStream :=
  belowWithin bound refusalLimit stream

theorem scaled_lt (bound word : UInt32) (positive : 0 < bound) : scaled bound word < bound := by
  have wordBound := word.toNat_lt
  have boundBound := bound.toNat_lt
  have product : word.toNat * bound.toNat < 2 ^ 32 * bound.toNat :=
    (Nat.mul_lt_mul_right (by simpa [UInt32.lt_iff_toNat_lt] using positive)).mpr wordBound
  have small : word.toNat * bound.toNat < 2 ^ 64 := by omega
  have quotient : word.toNat * bound.toNat / 2 ^ 32 < bound.toNat :=
    Nat.div_lt_of_lt_mul product
  rw [UInt32.lt_iff_toNat_lt]
  simp only [scaled, UInt64.toNat_toUInt32, UInt64.toNat_shiftRight, UInt64.toNat_mul,
    UInt32.toNat_toUInt64, Nat.shiftRight_eq_div_pow]
  rw [Nat.mod_eq_of_lt small]
  have amount : (32 : UInt64).toNat % 64 = 32 := by decide
  rw [amount]
  omega

theorem belowWithin_lt (bound : UInt32) (positive : 0 < bound) (limit : Nat) (stream : KeyStream) :
    (belowWithin bound limit stream).1 < bound := by
  induction limit generalizing stream with
  | zero => exact scaled_lt bound _ positive
  | succ limit ih =>
    simp only [belowWithin]
    split
    · exact scaled_lt bound _ positive
    · exact ih _

theorem below_lt (bound : UInt32) (stream : KeyStream) (positive : 0 < bound) :
    (below bound stream).1 < bound :=
  belowWithin_lt bound positive refusalLimit stream

end KeyStream

instance : Generator KeyStream where
  below := KeyStream.below
  below_lt := KeyStream.below_lt

end ViewMarkup.Random
