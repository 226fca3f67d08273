import ExposureControl.Random.Generator

/-!
# The ChaCha8 stream

Words come from the ChaCha block function with eight rounds, run on a block counter.  A 64-bit
seed is spread over the 256-bit key by a linear congruential generator with a permuted output.
-/

namespace ExposureControl.ChaCha

abbrev Block := Vector UInt32 16

def rotateLeft (x : UInt32) (amount : UInt32) : UInt32 :=
  (x <<< amount) ||| (x >>> (32 - amount))

/-- The quarter round on four words of a block. -/
def quarterRound (a b c d : Fin 16) (block : Block) : Block :=
  let xa := block[a] + block[b]
  let xd := rotateLeft (block[d] ^^^ xa) 16
  let xc := block[c] + xd
  let xb := rotateLeft (block[b] ^^^ xc) 12
  let ya := xa + xb
  let yd := rotateLeft (xd ^^^ ya) 8
  let yc := xc + yd
  let yb := rotateLeft (xb ^^^ yc) 7
  (((block.set a ya).set b yb).set c yc).set d yd

def doubleRound (block : Block) : Block :=
  let block := quarterRound 0 4 8 12 block
  let block := quarterRound 1 5 9 13 block
  let block := quarterRound 2 6 10 14 block
  let block := quarterRound 3 7 11 15 block
  let block := quarterRound 0 5 10 15 block
  let block := quarterRound 1 6 11 12 block
  let block := quarterRound 2 7 8 13 block
  quarterRound 3 4 9 14 block

/-- The initial state: constants, key, block counter with its low word first, and zeros. -/
def initial (key : Vector UInt32 8) (counter : UInt64) : Block :=
  #v[0x61707865, 0x3320646e, 0x79622d32, 0x6b206574,
    key[0], key[1], key[2], key[3], key[4], key[5], key[6], key[7],
    counter.toUInt32, (counter >>> 32).toUInt32, 0, 0]

/-- The block of a counter: eight rounds, then the initial state is added. -/
def block (key : Vector UInt32 8) (counter : UInt64) : Block :=
  let start := initial key counter
  let mixed := doubleRound (doubleRound (doubleRound (doubleRound start)))
  Vector.zipWith (· + ·) mixed start

/-- The 64-bit word of a position: each block holds eight, the low half of each first. -/
def word (key : Vector UInt32 8) (position : Nat) : UInt64 :=
  let words := block key (position / 8).toUInt64
  let index := 2 * (position % 8)
  (words.getD index 0).toUInt64 ||| ((words.getD (index + 1) 0).toUInt64 <<< 32)

/-- One step of the congruential generator that spreads a seed. -/
def spreadStep (state : UInt64) : UInt64 :=
  state * 6364136223846793005 + 11634580027462260723

/-- The permuted output of a spreading state: a rotation by its five highest bits. -/
def spreadOutput (state : UInt64) : UInt32 :=
  let x := (((state >>> 18) ^^^ state) >>> 27).toUInt32
  let amount := (state >>> 59).toUInt32
  (x >>> amount) ||| (x <<< ((32 - amount) % 32))

/-- The key of a seed: eight successive outputs. -/
def keyOfSeed (seed : UInt64) : Vector UInt32 8 :=
  Vector.ofFn fun i : Fin 8 => spreadOutput (Nat.repeat spreadStep (i.val + 1) seed)

def ofSeed (seed : UInt64) : Generator :=
  let key := keyOfSeed seed
  ⟨word key, 0⟩

end ExposureControl.ChaCha
