import Simplex.Decimal.Nearest

/-!
# The Mersenne twister

The generator MT19937 of 32-bit words, seeded by the words of a number, and the
fractions with 53 bits that are made of two of its words.
-/

namespace Simplex

/-- The state of the generator: its words, and the position of the next one. -/
structure Twister where
  words : Array UInt32
  position : Nat

namespace Twister

/-- The number of words of the state. -/
def size : Nat := 624

/-- The distance between the words that are combined. -/
def offset : Nat := 397

/-- The word at a position. -/
def word (words : Array UInt32) (index : Nat) : UInt32 := words.getD index 0

/-- A word spread over its high bits, as both seeding passes use it. -/
def folded (word : UInt32) : UInt32 := word ^^^ (word >>> 30)

/-- The state grown from a single word. -/
def grow (seed : UInt32) : Array UInt32 :=
  (List.range (size - 1)).foldl
    (fun words index =>
      words.push (1812433253 * folded (word words index) + UInt32.ofNat (index + 1)))
    #[seed]

/-- The position after the given one in a pass that keeps clear of position zero. -/
def nextPosition (index : Nat) : Nat := if index + 1 < size then index + 1 else 1

/-- The state with a word replaced, and copied to position zero if it is the last. -/
def store (words : Array UInt32) (index : Nat) (value : UInt32) : Array UInt32 :=
  let words := words.setIfInBounds index value
  if index + 1 < size then words else words.setIfInBounds 0 value

/-- One step of the pass that mixes in the key. -/
def mixKey (key : Array UInt32) (state : Array UInt32 × Nat) (step : Nat) :
    Array UInt32 × Nat :=
  let words := state.1
  let index := state.2
  let keyIndex := step % key.size
  let value := (word words index ^^^ (folded (word words (index - 1)) * 1664525)) +
    word key keyIndex + UInt32.ofNat keyIndex
  (store words index value, nextPosition index)

/-- One step of the pass that mixes in the position. -/
def mixPosition (state : Array UInt32 × Nat) : Array UInt32 × Nat :=
  let words := state.1
  let index := state.2
  let value := (word words index ^^^ (folded (word words (index - 1)) * 1566083941)) -
    UInt32.ofNat index
  (store words index value, nextPosition index)

/-- The generator seeded by a list of words that is not empty. -/
def ofKey (key : Array UInt32) : Twister :=
  let keyed := (List.range (max size key.size)).foldl (mixKey key) (grow 19650218, 1)
  let mixed := (List.range (size - 1)).foldl (fun state _ => mixPosition state) keyed
  ⟨mixed.1.setIfInBounds 0 0x80000000, size⟩

/-- The 32-bit words of a number, least significant first, zero giving one word. -/
def seedWords (number : Nat) : List UInt32 :=
  let low := UInt32.ofNat number
  if number < 0x100000000 then [low] else low :: seedWords (number / 0x100000000)
termination_by number
decreasing_by omega

/-- The generator of a seed. The sign of the seed does not matter. -/
def ofSeed (seed : Int) : Twister := ofKey (seedWords seed.natAbs).toArray

/-- The word that replaces the one at a position when the state is renewed. -/
def renewedWord (words : Array UInt32) (index : Nat) : UInt32 :=
  let joined := (word words index &&& 0x80000000) |||
    (word words ((index + 1) % size) &&& 0x7fffffff)
  word words ((index + offset) % size) ^^^ (joined >>> 1) ^^^
    (if joined &&& 1 = 0 then 0 else 0x9908b0df)

/-- The state with every word replaced, in order. -/
def renew (words : Array UInt32) : Array UInt32 :=
  (List.range size).foldl
    (fun words index => words.setIfInBounds index (renewedWord words index)) words

/-- The output made of a word of the state. -/
def tempered (word : UInt32) : UInt32 :=
  let word := word ^^^ (word >>> 11)
  let word := word ^^^ ((word <<< 7) &&& 0x9d2c5680)
  let word := word ^^^ ((word <<< 15) &&& 0xefc60000)
  word ^^^ (word >>> 18)

/-- The next word, and the generator after it. -/
def next (twister : Twister) : UInt32 × Twister :=
  let current :=
    if twister.position < size then twister else ⟨renew twister.words, 0⟩
  (tempered (word current.words current.position),
    { current with position := current.position + 1 })

/-- The next fraction: a multiple of `2 ^ (-53)` from zero up to but not including
one, of 27 bits of one word and 26 bits of the next. -/
def nextFraction (twister : Twister) : Float × Twister :=
  let high := twister.next
  let low := high.2.next
  let numerator := (high.1 >>> 5).toNat * 0x4000000 + (low.1 >>> 6).toNat
  let bits := if numerator = 0 then 0 else Double.nearestBits numerator 0x20000000000000
  (Double.ofMagnitudeBits false bits, low.2)

end Twister

end Simplex
