/-
**Random numbers** from the ChaCha stream cipher with twelve rounds. The cipher turns a key and a
block number into sixteen words; the words of block 0, block 1 and so on are the random numbers in
order.

* `Random.ofSeed`: the generator of a seed, whose key is drawn from it by a linear congruence;
* `Random.next`: the next number, at least zero and less than one.
-/

import PocketBasic.Number.Single

namespace PocketBasic

/-- A generator: the key, the number of the next block, and the words of the last one that were not
taken yet. -/
structure Random where
  key : List UInt32
  block : UInt64
  words : List UInt32
  deriving DecidableEq, Inhabited

namespace Random

/-! ### The cipher -/

def rotateLeft (word : UInt32) (places : UInt32) : UInt32 :=
  word <<< places ||| word >>> (32 - places)

/-- Mixes four words of a block. -/
def quarterRound (state : Vector UInt32 16) (a b c d : Fin 16) : Vector UInt32 16 :=
  let state := state.set a (state[a] + state[b])
  let state := state.set d (rotateLeft (state[d] ^^^ state[a]) 16)
  let state := state.set c (state[c] + state[d])
  let state := state.set b (rotateLeft (state[b] ^^^ state[c]) 12)
  let state := state.set a (state[a] + state[b])
  let state := state.set d (rotateLeft (state[d] ^^^ state[a]) 8)
  let state := state.set c (state[c] + state[d])
  state.set b (rotateLeft (state[b] ^^^ state[c]) 7)

/-- Two rounds: the four columns, then the four diagonals. -/
def doubleRound (state : Vector UInt32 16) : Vector UInt32 16 :=
  let state := quarterRound state 0 4 8 12
  let state := quarterRound state 1 5 9 13
  let state := quarterRound state 2 6 10 14
  let state := quarterRound state 3 7 11 15
  let state := quarterRound state 0 5 10 15
  let state := quarterRound state 1 6 11 12
  let state := quarterRound state 2 7 8 13
  quarterRound state 3 4 9 14

def doubleRounds : Nat → Vector UInt32 16 → Vector UInt32 16
  | 0, state => state
  | count + 1, state => doubleRounds count (doubleRound state)

/-- The words that a block starts from: four constants, the key, and the block number in two
words. -/
def initial (key : List UInt32) (block : UInt64) : Vector UInt32 16 :=
  let constants : List UInt32 := [0x61707865, 0x3320646E, 0x79622D32, 0x6B206574]
  let words := constants ++ key.take 8 ++ [block.toUInt32, (block >>> 32).toUInt32]
  Vector.ofFn fun place => words.getD place 0

/-- The sixteen words of a block. -/
def blockWords (key : List UInt32) (block : UInt64) : List UInt32 :=
  let start := initial key block
  ((doubleRounds 6 start).zipWith (· + ·) start).toList

/-! ### The generator -/

/-- Draws `count` words of key from a seed: the state moves on by a linear congruence, and its high
bits are folded and rotated into a word. -/
def keyWords : Nat → UInt64 → List UInt32
  | 0, _ => []
  | count + 1, seed =>
    let state := seed * 6364136223846793005 + 11634580027462260723
    let folded := (((state >>> 18) ^^^ state) >>> 27).toUInt32
    let turn := (state >>> 59).toUInt32
    let word := folded >>> turn ||| folded <<< ((32 - turn) % 32)
    word :: keyWords count state

/-- The generator of a seed. -/
def ofSeed (seed : UInt64) : Random := { key := keyWords 8 seed, block := 0, words := [] }

/-- The next word. -/
def nextWord (generator : Random) : UInt32 × Random :=
  match generator.words with
  | word :: rest => (word, { generator with words := rest })
  | [] =>
    let words := blockWords generator.key generator.block
    (words.headD 0, { generator with block := generator.block + 1, words := words.tail })

/-- The next number: the high 24 bits of a word as a fraction of `2 ^ 24`. -/
def next (generator : Random) : Single × Random :=
  let (word, generator) := generator.nextWord
  (Single.ofQuotient false ((word >>> 8).toNat * Nat.pow 2 125) 1, generator)

end Random

end PocketBasic
