/-!
# Keystreams

The words of a seeded generator.  A 64-bit seed is stretched to a key, and the key to an unbounded
stream of blocks by a stream cipher with twelve rounds.  Word `n` depends on the key and on `n`
alone, so a stream is a function of the position.

Main results:

- Definition `Keystream.ofSeed`: the stream of 64-bit words of a seed.
-/

namespace TickTree

namespace Keystream

/-! ## From a seed to a key -/

/-- The step of the linear generator that stretches a seed. -/
def nextSeed (state : UInt64) : UInt64 :=
  state * 6364136223846793005 + 11634580027462260723

/-- Rotates a word to the right. -/
def rotateRight (x : UInt32) (k : UInt32) : UInt32 :=
  (x >>> k) ||| (x <<< ((32 - k) % 32))

/-- The output of the linear generator: its upper bits, mixed and rotated by the topmost. -/
def seedWord (state : UInt64) : UInt32 :=
  rotateRight (((state >>> 18) ^^^ state) >>> 27).toUInt32 (state >>> 59).toUInt32

/-- The next so many key words after a state of the linear generator. -/
def keyWords : Nat → UInt64 → List UInt32
  | 0, _ => []
  | n + 1, state =>
    let next := nextSeed state
    seedWord next :: keyWords n next

/-! ## From a key to blocks -/

/-- The sixteen words on which the cipher works. -/
abbrev Block := Vector UInt32 16

/-- Rotates a word to the left. -/
def rotateLeft (x : UInt32) (k : UInt32) : UInt32 :=
  (x <<< k) ||| (x >>> (32 - k))

/-- The quarter round on four words of a block. -/
def quarterRound (s : Block) (a b c d : Fin 16) : Block :=
  let s := s.set a (s[a] + s[b])
  let s := s.set d (rotateLeft (s[d] ^^^ s[a]) 16)
  let s := s.set c (s[c] + s[d])
  let s := s.set b (rotateLeft (s[b] ^^^ s[c]) 12)
  let s := s.set a (s[a] + s[b])
  let s := s.set d (rotateLeft (s[d] ^^^ s[a]) 8)
  let s := s.set c (s[c] + s[d])
  s.set b (rotateLeft (s[b] ^^^ s[c]) 7)

/-- Four column rounds and four diagonal rounds. -/
def doubleRound (s : Block) : Block :=
  let s := quarterRound s 0 4 8 12
  let s := quarterRound s 1 5 9 13
  let s := quarterRound s 2 6 10 14
  let s := quarterRound s 3 7 11 15
  let s := quarterRound s 0 5 10 15
  let s := quarterRound s 1 6 11 12
  let s := quarterRound s 2 7 8 13
  quarterRound s 3 4 9 14

/-- So many double rounds. -/
def rounds : Nat → Block → Block
  | 0, s => s
  | n + 1, s => rounds n (doubleRound s)

/-- The block before the rounds: four constants, the key, the block's number and two zeros. -/
def initial (key : Vector UInt32 8) (number : UInt64) : Block :=
  #v[0x61707865, 0x3320646e, 0x79622d32, 0x6b206574,
     key[0], key[1], key[2], key[3], key[4], key[5], key[6], key[7],
     number.toUInt32, (number >>> 32).toUInt32, 0, 0]

/-- A block of the stream: twelve rounds, added to the block before them. -/
def block (key : Vector UInt32 8) (number : UInt64) : Block :=
  let start := initial key number
  Vector.zipWith (· + ·) (rounds 6 start) start

/-- A 64-bit word of the stream: two words of a block, the low one first. -/
def word (key : Vector UInt32 8) (n : Nat) : UInt64 :=
  let words := block key (n / 8).toUInt64
  let low := words[2 * (n % 8)]
  let high := words[2 * (n % 8) + 1]
  low.toUInt64 ||| (high.toUInt64 <<< 32)

/-- The key of a seed. -/
def key (seed : UInt64) : Vector UInt32 8 :=
  Vector.ofFn fun i => (keyWords 8 seed).getD i 0

/-- The stream of 64-bit words of a seed. -/
def ofSeed (seed : UInt64) : Nat → UInt64 :=
  let key := key seed
  fun n => word key n

end Keystream

end TickTree
