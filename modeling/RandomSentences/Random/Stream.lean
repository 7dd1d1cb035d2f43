import RandomSentences.Random.Choice

/-!
# Streams of random numbers

A stream is a key and a position in the key's infinite sequence of 64-bit numbers. The sequence
is that of the ChaCha block function with 12 rounds: each block of 16 words is a function of
the key and a 64-bit block counter, and a number is made of two successive words, the low half
first. Reading a number moves the position on, so equal streams always go on alike.

A stream can be made from a 64-bit seed, which is spread over the eight words of the key by a
linear congruential generator with permuted output.

An index below a bound is read off the high half of the product of a number and the bound;
numbers for which this would favour some index are passed over.
-/

namespace RandomSentences

namespace ChaCha

/-- The words of a block, and the state that a block is computed from. -/
abbrev Block := Vector UInt32 16

/-- The words of a key. -/
abbrev Key := Vector UInt32 8

/-- Rotates a word to the left. -/
def rotateLeft (x amount : UInt32) : UInt32 :=
  (x <<< amount) ||| (x >>> (32 - amount))

/-- Mixes four words of a state. -/
def quarterRound (s : Block) (a b c d : Fin 16) : Block :=
  let s := s.set a (s[a] + s[b])
  let s := s.set d (rotateLeft (s[d] ^^^ s[a]) 16)
  let s := s.set c (s[c] + s[d])
  let s := s.set b (rotateLeft (s[b] ^^^ s[c]) 12)
  let s := s.set a (s[a] + s[b])
  let s := s.set d (rotateLeft (s[d] ^^^ s[a]) 8)
  let s := s.set c (s[c] + s[d])
  s.set b (rotateLeft (s[b] ^^^ s[c]) 7)

/-- Mixes the columns of a state and then its diagonals. -/
def doubleRound (s : Block) : Block :=
  let s := quarterRound s 0 4 8 12
  let s := quarterRound s 1 5 9 13
  let s := quarterRound s 2 6 10 14
  let s := quarterRound s 3 7 11 15
  let s := quarterRound s 0 5 10 15
  let s := quarterRound s 1 6 11 12
  let s := quarterRound s 2 7 8 13
  quarterRound s 3 4 9 14

/-- The state before mixing: four constants, the key, the block counter, and two zero words. -/
def initial (key : Key) (counter : UInt64) : Block :=
  #v[0x61707865, 0x3320646e, 0x79622d32, 0x6b206574,
    key[0], key[1], key[2], key[3], key[4], key[5], key[6], key[7],
    counter.toUInt32, (counter >>> 32).toUInt32, 0, 0]

/-- The block at a counter: the state after six double rounds, added to the state before. -/
def block (key : Key) (counter : UInt64) : Block :=
  let start := initial key counter
  let mixed := (List.range 6).foldl (fun s _ => doubleRound s) start
  Vector.zipWith (· + ·) start mixed

/-- The number at a position: two words of a block, of which there are eight such pairs. -/
def number (key : Key) (position : Nat) : UInt64 :=
  let words := block key (UInt64.ofNat (position / 8))
  let pair := position % 8
  have : pair < 8 := Nat.mod_lt _ (by decide)
  (words[2 * pair].toUInt64) ||| (words[2 * pair + 1].toUInt64 <<< 32)

/-- How many numbers a key yields before its block counter starts again. -/
def period : Nat := Nat.pow 2 67

end ChaCha

namespace Seed

/-- The next state of the generator that spreads a seed. -/
def next (state : UInt64) : UInt64 :=
  state * 6364136223846793005 + 11634580027462260723

/-- The word that a state of the generator gives. -/
def word (state : UInt64) : UInt32 :=
  let x := (((state >>> 18) ^^^ state) >>> 27).toUInt32
  let amount := (state >>> 59).toUInt32
  (x >>> amount) ||| (x <<< (32 - amount))

/-- The words that the next states give. -/
def words (state : UInt64) : (count : Nat) → Vector UInt32 count
  | 0 => #v[]
  | count + 1 => ((words (next state) count).insertIdx 0 (word (next state)))

end Seed

/-- A position in the sequence of numbers of a key. -/
structure NumberStream where
  key : ChaCha.Key
  position : Nat
  deriving DecidableEq

namespace NumberStream

/-- The stream that starts from a seed. -/
def ofSeed (seed : UInt64) : NumberStream :=
  ⟨Seed.words seed 8, 0⟩

/-- The number at the position, and the stream after it. -/
def next (s : NumberStream) : UInt64 × NumberStream :=
  (ChaCha.number s.key s.position, { s with position := s.position + 1 })

/-- The greatest low half of a product for which an index below the bound is not favoured. -/
def zone (bound : Nat) : Nat :=
  bound <<< (63 - bound.log2) - 1

/-- Reads numbers until one gives an index below the bound without favour, at most `fuel` of
them. If none does, the index is zero. -/
def indexWithin (bound : Nat) (pos : 0 < bound) :
    (fuel : Nat) → NumberStream → Fin bound × NumberStream
  | 0, s => (⟨0, pos⟩, s)
  | fuel + 1, s =>
    let (x, rest) := s.next
    -- the high half of the product is the index, the low half the place within its numbers
    if (x.toNat * bound) % UInt64.size ≤ zone bound then
      (⟨x.toNat * bound / UInt64.size, by
        have := x.toNat_lt_size
        exact Nat.div_lt_of_lt_mul (Nat.mul_lt_mul_of_pos_right this pos)⟩, rest)
    else
      indexWithin bound pos fuel rest

/-- An index below the bound. After a whole period the sequence of numbers starts again, so a
search that long has met every number that the key yields. -/
def index (s : NumberStream) (bound : Nat) (pos : 0 < bound) : Fin bound × NumberStream :=
  indexWithin bound pos ChaCha.period s

instance : ChoiceSource NumberStream where
  index := index
  split s :=
    let (seed, rest) := s.next
    (ofSeed seed, rest)

/-- The stream that the number at some distance from the position seeds. -/
def child (s : NumberStream) (distance : Nat) : NumberStream :=
  ofSeed (ChaCha.number s.key (s.position + distance))

end NumberStream

end RandomSentences
