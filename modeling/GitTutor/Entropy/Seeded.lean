import GitTutor.Entropy

/-!
# The reproducible source

Equal seeds give equal sessions. The seed is stretched to a key of eight words,
and the words drawn are the key stream of ChaCha with twelve rounds under that
key. A number below a bound comes from one word by multiplication, and from a
second one when the first leaves the low half too close to the top.
-/

namespace GitTutor

/-- A key, the number of the next block of the key stream and the words left of
the current block. -/
structure Seeded where
  key : List UInt32
  nextBlock : UInt64
  pending : List UInt32
  deriving DecidableEq, Repr

namespace Seeded

/-- Rotate a word to the left. -/
def rotateLeft (x : UInt32) (n : UInt32) : UInt32 :=
  (x <<< n) ||| (x >>> (32 - n))

/-- Rotate a word to the right; a rotation by zero keeps it. -/
def rotateRight (x : UInt32) (n : UInt32) : UInt32 :=
  (x >>> n) ||| (x <<< ((32 - n) % 32))

/-- The step of the linear generator that stretches a seed. -/
def stretchStep (s : UInt64) : UInt64 :=
  s * 6364136223846793005 + 11634580027462260723

/-- The word read off a state of the linear generator. -/
def stretchWord (s : UInt64) : UInt32 :=
  rotateRight ((((s >>> 18) ^^^ s) >>> 27).toUInt32) ((s >>> 59).toUInt32)

/-- The first `n` words stretched from a seed. -/
def stretch : Nat → UInt64 → List UInt32
  | 0, _ => []
  | n + 1, s => stretchWord (stretchStep s) :: stretch n (stretchStep s)

/-- The sixteen words that one block works on. -/
abbrev Block := Vector UInt32 16

/-- The quarter round on the words at four places of a block. -/
def quarterRound (s : Block) (i j k l : Fin 16) : Block :=
  let a := s[i] + s[j]
  let d := rotateLeft (s[l] ^^^ a) 16
  let c := s[k] + d
  let b := rotateLeft (s[j] ^^^ c) 12
  let a := a + b
  let d := rotateLeft (d ^^^ a) 8
  let c := c + d
  let b := rotateLeft (b ^^^ c) 7
  (((s.set i a).set j b).set k c).set l d

/-- A round on the columns and then a round on the diagonals. -/
def doubleRound (s : Block) : Block :=
  let s := quarterRound s 0 4 8 12
  let s := quarterRound s 1 5 9 13
  let s := quarterRound s 2 6 10 14
  let s := quarterRound s 3 7 11 15
  let s := quarterRound s 0 5 10 15
  let s := quarterRound s 1 6 11 12
  let s := quarterRound s 2 7 8 13
  quarterRound s 3 4 9 14

/-- Six double rounds. -/
def scramble (s : Block) : Block :=
  doubleRound (doubleRound (doubleRound (doubleRound (doubleRound (doubleRound s)))))

/-- The four words that every block starts with. -/
def constants : List UInt32 :=
  [0x61707865, 0x3320646e, 0x79622d32, 0x6b206574]

/-- The block before its rounds: the constants, the key, the block number and
two zero words. -/
def startBlock (key : List UInt32) (number : UInt64) : Block :=
  let words := constants ++ key ++ [number.toUInt32, (number >>> 32).toUInt32, 0, 0]
  Vector.ofFn fun i => words.getD i.val 0

/-- The words of one block of the key stream. -/
def keyStream (key : List UInt32) (number : UInt64) : List UInt32 :=
  let start := startBlock key number
  (Vector.zipWith (· + ·) (scramble start) start).toList

/-- The source for a seed, before its first draw. -/
def ofSeed (seed : UInt64) : Seeded :=
  ⟨stretch 8 seed, 0, []⟩

/-- The next word of the key stream. -/
def word (g : Seeded) : UInt32 × Seeded :=
  match g.pending with
  | w :: rest => (w, { g with pending := rest })
  | [] =>
      match keyStream g.key g.nextBlock with
      | w :: rest => (w, ⟨g.key, g.nextBlock + 1, rest⟩)
      | [] => (0, { g with nextBlock := g.nextBlock + 1 })

/-- The number of words: two to the 32. -/
def wordCount : Nat := 4294967296

/-- A number below `n`, for `n` up to the number of words. The high half of a
product is the number; if the low half is too great, another word decides whether
the low halves carry over. -/
def below (n : UInt32) (g : Seeded) : Nat × Seeded :=
  let (w, g) := g.word
  let product := w.toNat * n.toNat
  let high := product / wordCount
  let low := product % wordCount
  if low > wordCount - n.toNat then
    let (w, g) := g.word
    let carry := (low + w.toNat * n.toNat / wordCount) / wordCount
    (high + carry, g)
  else
    (high, g)

/-- `w` digits of base 36, drawn one after the other. -/
def drawDigits : Nat → Seeded → List Char × Seeded
  | 0, g => ([], g)
  | w + 1, g =>
      let (n, g) := g.below 36
      let (rest, g) := drawDigits w g
      (ShortHash.digit n :: rest, g)

/-- A hash is seven drawn digits, and a file number one draw below the bound. -/
instance : Entropy Seeded where
  hash g :=
    let (cs, g) := drawDigits ShortHash.width g
    (String.ofList cs, g)
  fileNumber g := g.below (UInt32.ofNat fileNumberBound)

end Seeded

end GitTutor
