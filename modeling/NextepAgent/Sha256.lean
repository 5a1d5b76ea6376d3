import Mathlib.Data.List.Basic

/-!
# SHA-256 and HMAC

The hash works on words of 32 bits. The message is padded to blocks of 16 words, and each block is
mixed into a state of eight words in 64 rounds. HMAC hashes twice, each time behind a block made of
the key.

The round for word `W_t` needs the 16 words before it, and the schedule is a window of 16 words that
is moved on by one.

## Main definitions

* `hash`, `hmac`

## Main results

* `length_hash`, `length_hmac` — a digest has 32 bytes
-/

namespace Sha256

/-- A word. -/
abbrev Word : Type := BitVec 32

/-! ### The functions of a round -/

def smallSigma0 (x : Word) : Word := x.rotateRight 7 ^^^ x.rotateRight 18 ^^^ x >>> 3

def smallSigma1 (x : Word) : Word := x.rotateRight 17 ^^^ x.rotateRight 19 ^^^ x >>> 10

def bigSigma0 (x : Word) : Word := x.rotateRight 2 ^^^ x.rotateRight 13 ^^^ x.rotateRight 22

def bigSigma1 (x : Word) : Word := x.rotateRight 6 ^^^ x.rotateRight 11 ^^^ x.rotateRight 25

def ch (x y z : Word) : Word := (x &&& y) ^^^ (~~~x &&& z)

def maj (x y z : Word) : Word := (x &&& y) ^^^ (x &&& z) ^^^ (y &&& z)

/-- The constants of the rounds. -/
def constants : List Word :=
  [0x428a2f98, 0x71374491, 0xb5c0fbcf, 0xe9b5dba5, 0x3956c25b, 0x59f111f1, 0x923f82a4, 0xab1c5ed5,
    0xd807aa98, 0x12835b01, 0x243185be, 0x550c7dc3, 0x72be5d74, 0x80deb1fe, 0x9bdc06a7, 0xc19bf174,
    0xe49b69c1, 0xefbe4786, 0x0fc19dc6, 0x240ca1cc, 0x2de92c6f, 0x4a7484aa, 0x5cb0a9dc, 0x76f988da,
    0x983e5152, 0xa831c66d, 0xb00327c8, 0xbf597fc7, 0xc6e00bf3, 0xd5a79147, 0x06ca6351, 0x14292967,
    0x27b70a85, 0x2e1b2138, 0x4d2c6dfc, 0x53380d13, 0x650a7354, 0x766a0abb, 0x81c2c92e, 0x92722c85,
    0xa2bfe8a1, 0xa81a664b, 0xc24b8b70, 0xc76c51a3, 0xd192e819, 0xd6990624, 0xf40e3585, 0x106aa070,
    0x19a4c116, 0x1e376c08, 0x2748774c, 0x34b0bcb5, 0x391c0cb3, 0x4ed8aa4a, 0x5b9cca4f, 0x682e6ff3,
    0x748f82ee, 0x78a5636f, 0x84c87814, 0x8cc70208, 0x90befffa, 0xa4506ceb, 0xbef9a3f7, 0xc67178f2]

/-! ### A block -/

/-- The eight words. -/
structure State where
  a : Word
  b : Word
  c : Word
  d : Word
  e : Word
  f : Word
  g : Word
  h : Word

/-- The state before the first block. -/
def initial : State where
  a := 0x6a09e667
  b := 0xbb67ae85
  c := 0x3c6ef372
  d := 0xa54ff53a
  e := 0x510e527f
  f := 0x9b05688c
  g := 0x1f83d9ab
  h := 0x5be0cd19

/-- One round, with the sum of its constant and its word. -/
def State.round (s : State) (kw : Word) : State :=
  let t₁ := s.h + bigSigma1 s.e + ch s.e s.f s.g + kw
  let t₂ := bigSigma0 s.a + maj s.a s.b s.c
  { a := t₁ + t₂, b := s.a, c := s.b, d := s.c, e := s.d + t₁, f := s.e, g := s.f, h := s.g }

/-- The word after a window of 16. -/
def next (w : List Word) : Word :=
  smallSigma1 (w.getD 14 0) + w.getD 9 0 + smallSigma0 (w.getD 1 0) + w.headD 0

/-- The first words of the schedule that begins with a window. -/
def schedule : ℕ → List Word → List Word
  | 0, _ => []
  | n + 1, w => w.headD 0 :: schedule n (w.tail ++ [next w])

/-- A block is mixed into the state. -/
def State.compress (s : State) (block : List Word) : State :=
  let t := (List.zipWith (· + ·) constants (schedule 64 block)).foldl State.round s
  { a := s.a + t.a, b := s.b + t.b, c := s.c + t.c, d := s.d + t.d, e := s.e + t.e,
    f := s.f + t.f, g := s.g + t.g, h := s.h + t.h }

/-! ### A message -/

/-- Four bytes are a word. -/
def words : List UInt8 → List Word
  | a :: b :: c :: d :: rest =>
    (a.toBitVec ++ b.toBitVec ++ c.toBitVec ++ d.toBitVec) :: words rest
  | _ => []

/-- The last `n` bytes of a number, the highest first. -/
def bigEndian : ℕ → ℕ → List UInt8
  | 0, _ => []
  | n + 1, x => bigEndian n (x / 256) ++ [.ofNat x]

theorem length_bigEndian (n x : ℕ) : (bigEndian n x).length = n := by
  induction n generalizing x with
  | zero => rfl
  | succ n ih => rw [bigEndian, List.length_append, ih, List.length_singleton]

/-- The message with its length in bits, filled up to whole blocks. -/
def pad (m : List UInt8) : List UInt8 :=
  m ++ 0x80 :: List.replicate ((119 - m.length % 64) % 64) 0 ++ bigEndian 8 (8 * m.length)

/-- One block after another. The first argument is their number. -/
def State.blocks : ℕ → State → List Word → State
  | 0, s, _ => s
  | n + 1, s, ws => State.blocks n (s.compress (ws.take 16)) (ws.drop 16)

/-- The digest. -/
def State.bytes (s : State) : List UInt8 :=
  [s.a, s.b, s.c, s.d, s.e, s.f, s.g, s.h].flatMap fun x => bigEndian 4 x.toNat

/-- SHA-256. -/
def hash (m : List UInt8) : List UInt8 :=
  let padded := pad m
  (State.blocks (padded.length / 64) initial (words padded)).bytes

theorem length_hash (m : List UInt8) : (hash m).length = 32 := by
  simp [hash, State.bytes, length_bigEndian]

example : hash [97, 98, 99] =
    [0xba, 0x78, 0x16, 0xbf, 0x8f, 0x01, 0xcf, 0xea, 0x41, 0x41, 0x40, 0xde, 0x5d, 0xae, 0x22, 0x23,
      0xb0, 0x03, 0x61, 0xa3, 0x96, 0x17, 0x7a, 0x9c, 0xb4, 0x10, 0xff, 0x61, 0xf2, 0x00, 0x15,
      0xad] := by
  decide +kernel

/-! ### Keyed -/

/-- The key as a block. A long one is hashed. -/
def blockKey (key : List UInt8) : List UInt8 :=
  let short := if 64 < key.length then hash key else key
  short ++ List.replicate (64 - short.length) 0

/-- HMAC-SHA256. -/
def hmac (key m : List UInt8) : List UInt8 :=
  hash ((blockKey key).map (· ^^^ 0x5c) ++ hash ((blockKey key).map (· ^^^ 0x36) ++ m))

theorem length_hmac (key m : List UInt8) : (hmac key m).length = 32 := length_hash _

end Sha256
