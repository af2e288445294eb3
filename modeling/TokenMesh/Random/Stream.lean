namespace TokenMesh.Random

/-!
# A stream of random words

The ChaCha stream cipher with twelve rounds, as an endless sequence of 32-bit words that a key
determines: `word key i` is the `i`-th.  Words come in blocks of sixteen, one block for each value
of a 64-bit counter.

* `Key.ofSeed`: the key that a short seed is stretched to, by a small congruential generator;
* `block`: one block of the stream;
* `word`: one word of it.
-/

/-- A word rotated to the left. -/
def rotateLeft (x : UInt32) (n : UInt32) : UInt32 := x <<< n ||| x >>> (32 - n)

/-- The key of a stream: eight words. -/
abbrev Key := Vector UInt32 8

/-- One step of the generator that stretches seeds. -/
def stretch (state : UInt64) : UInt64 := state * 6364136223846793005 + 11634580027462260723

/-- The word that a state of that generator puts out. -/
def permute (state : UInt64) : UInt32 :=
  let x := (((state >>> 18) ^^^ state) >>> 27).toUInt32
  let n := (state >>> 59).toUInt32
  x >>> n ||| x <<< ((32 - n) % 32)

/-- The states of that generator after each of the first `n` steps. -/
def stretched : Nat → UInt64 → List UInt64
  | 0, _ => []
  | n + 1, state => stretch state :: stretched n (stretch state)

/-- The key that a seed is stretched to. -/
def Key.ofSeed (seed : UInt64) : Key :=
  let words := (stretched 8 seed).map permute
  Vector.ofFn fun i => words.getD i.val 0

/-- The sixteen words that a block is computed from and in. -/
abbrev Block := Vector UInt32 16

/-- A quarter round on the words at four places. -/
def quarter (s : Block) (a b c d : Fin 16) : Block :=
  let s := s.set a (s[a] + s[b])
  let s := s.set d (rotateLeft (s[d] ^^^ s[a]) 16)
  let s := s.set c (s[c] + s[d])
  let s := s.set b (rotateLeft (s[b] ^^^ s[c]) 12)
  let s := s.set a (s[a] + s[b])
  let s := s.set d (rotateLeft (s[d] ^^^ s[a]) 8)
  let s := s.set c (s[c] + s[d])
  s.set b (rotateLeft (s[b] ^^^ s[c]) 7)

/-- A round on the columns and then one on the diagonals. -/
def doubleRound (s : Block) : Block :=
  let s := quarter s 0 4 8 12
  let s := quarter s 1 5 9 13
  let s := quarter s 2 6 10 14
  let s := quarter s 3 7 11 15
  let s := quarter s 0 5 10 15
  let s := quarter s 1 6 11 12
  let s := quarter s 2 7 8 13
  quarter s 3 4 9 14

/-- The words that the rounds start from: four constants, the key, the counter, and no nonce. -/
def start (key : Key) (counter : UInt64) : Block :=
  #v[0x61707865, 0x3320646e, 0x79622d32, 0x6b206574,
    key.get 0, key.get 1, key.get 2, key.get 3, key.get 4, key.get 5, key.get 6, key.get 7,
    counter.toUInt32, (counter >>> 32).toUInt32, 0, 0]

/-- One block of the stream: twelve rounds, and then the words they started from added. -/
def block (key : Key) (counter : UInt64) : Block :=
  let s := start key counter
  Vector.zipWith (· + ·) (Nat.repeat doubleRound 6 s) s

/-- The `i`-th word of the stream. -/
def word (key : Key) (i : Nat) : UInt32 :=
  (block key (i / 16).toUInt64)[i % 16]

end TokenMesh.Random
