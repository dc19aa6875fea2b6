import Quorate.Bytes.Basic

/-!
# SHA-2

The two members of the SHA-2 family that the curves need, SHA-256 and SHA-512, as one algorithm over
a word type: eight words of state, a sliding window of sixteen schedule words, and one round per
round constant.
-/

namespace Quorate.Sha2

/-- What one member of the family chooses: how words are read and written, the four mixing functions,
the round constants and the starting state. -/
structure Variant (W : Type) where
  wordBytes : Nat
  ofNat : Nat → W
  toNat : W → Nat
  scheduleLow : W → W
  scheduleHigh : W → W
  stateLow : W → W
  stateHigh : W → W
  roundConstants : List W
  start : List W

/-- The eight working words of the compression function. -/
structure State (W : Type) where
  a : W
  b : W
  c : W
  d : W
  e : W
  f : W
  g : W
  h : W

variable {W : Type} [Inhabited W] [Add W] [AndOp W] [XorOp W] [Complement W]

/-- One round with round constant `k` and schedule word `w`. -/
def round (v : Variant W) (k w : W) (s : State W) : State W :=
  let choose := (s.e &&& s.f) ^^^ (~~~s.e &&& s.g)
  let majority := (s.a &&& s.b) ^^^ (s.a &&& s.c) ^^^ (s.b &&& s.c)
  let t₁ := s.h + v.stateHigh s.e + choose + k + w
  let t₂ := v.stateLow s.a + majority
  ⟨t₁ + t₂, s.a, s.b, s.c, s.d + t₁, s.e, s.f, s.g⟩

/-- One round per constant. `window` holds the next sixteen schedule words: the first is used, and a
new one, mixed from the window, joins at the end. -/
def rounds (v : Variant W) : List W → List W → State W → State W
  | [], _, s => s
  | k :: ks, window, s =>
    let word (i : Nat) : W := window.getD i default
    let next := v.scheduleHigh (word 14) + word 9 + v.scheduleLow (word 1) + word 0
    rounds v ks (window.drop 1 ++ [next]) (round v k (word 0) s)

def State.ofList (ws : List W) : State W :=
  let word (i : Nat) : W := ws.getD i default
  ⟨word 0, word 1, word 2, word 3, word 4, word 5, word 6, word 7⟩

def State.toList (s : State W) : List W :=
  [s.a, s.b, s.c, s.d, s.e, s.f, s.g, s.h]

/-- The state after one block: the rounds' outcome added to the state before, word by word. -/
def compress (v : Variant W) (state : List W) (block : Bytes) : List W :=
  let window := (Bytes.chunks v.wordBytes block).map fun piece => v.ofNat (Bytes.toNatBE piece)
  List.zipWith (· + ·) state (rounds v v.roundConstants window (State.ofList state)).toList

/-- The message, a one bit, zeros up to a block boundary less the length field, and the length in bits
as a number of two words. -/
def pad (v : Variant W) (message : Bytes) : Bytes :=
  let block := 16 * v.wordBytes
  let lengthField := 2 * v.wordBytes
  let used := (message.length + 1 + lengthField) % block
  message ++ 0x80 :: Bytes.zeros ((block - used) % block) ++
    Bytes.ofNatBE lengthField (8 * message.length)

def digest (v : Variant W) (message : Bytes) : Bytes :=
  let state := (Bytes.chunks (16 * v.wordBytes) (pad v message)).foldl (compress v) v.start
  state.flatMap fun w => Bytes.ofNatBE v.wordBytes (v.toNat w)

end Sha2

/-- `w` turned right by `n` bits, `0 < n < 32`. -/
def rotateRight32 (w : UInt32) (n : UInt32) : UInt32 :=
  (w >>> n) ||| (w <<< (32 - n))

/-- `w` turned right by `n` bits, `0 < n < 64`. -/
def rotateRight64 (w : UInt64) (n : UInt64) : UInt64 :=
  (w >>> n) ||| (w <<< (64 - n))

/-- The parameters of SHA-256: the first 32 bits of the fractional parts of the cube roots and square
roots of the first primes. -/
def sha256Variant : Sha2.Variant UInt32 where
  wordBytes := 4
  ofNat := UInt32.ofNat
  toNat := UInt32.toNat
  scheduleLow w := rotateRight32 w 7 ^^^ rotateRight32 w 18 ^^^ (w >>> 3)
  scheduleHigh w := rotateRight32 w 17 ^^^ rotateRight32 w 19 ^^^ (w >>> 10)
  stateLow w := rotateRight32 w 2 ^^^ rotateRight32 w 13 ^^^ rotateRight32 w 22
  stateHigh w := rotateRight32 w 6 ^^^ rotateRight32 w 11 ^^^ rotateRight32 w 25
  roundConstants := [
    0x428a2f98, 0x71374491, 0xb5c0fbcf, 0xe9b5dba5, 0x3956c25b, 0x59f111f1, 0x923f82a4, 0xab1c5ed5,
    0xd807aa98, 0x12835b01, 0x243185be, 0x550c7dc3, 0x72be5d74, 0x80deb1fe, 0x9bdc06a7, 0xc19bf174,
    0xe49b69c1, 0xefbe4786, 0x0fc19dc6, 0x240ca1cc, 0x2de92c6f, 0x4a7484aa, 0x5cb0a9dc, 0x76f988da,
    0x983e5152, 0xa831c66d, 0xb00327c8, 0xbf597fc7, 0xc6e00bf3, 0xd5a79147, 0x06ca6351, 0x14292967,
    0x27b70a85, 0x2e1b2138, 0x4d2c6dfc, 0x53380d13, 0x650a7354, 0x766a0abb, 0x81c2c92e, 0x92722c85,
    0xa2bfe8a1, 0xa81a664b, 0xc24b8b70, 0xc76c51a3, 0xd192e819, 0xd6990624, 0xf40e3585, 0x106aa070,
    0x19a4c116, 0x1e376c08, 0x2748774c, 0x34b0bcb5, 0x391c0cb3, 0x4ed8aa4a, 0x5b9cca4f, 0x682e6ff3,
    0x748f82ee, 0x78a5636f, 0x84c87814, 0x8cc70208, 0x90befffa, 0xa4506ceb, 0xbef9a3f7, 0xc67178f2]
  start := [
    0x6a09e667, 0xbb67ae85, 0x3c6ef372, 0xa54ff53a, 0x510e527f, 0x9b05688c, 0x1f83d9ab, 0x5be0cd19]

/-- The parameters of SHA-512: the first 64 bits of the same fractional parts. -/
def sha512Variant : Sha2.Variant UInt64 where
  wordBytes := 8
  ofNat := UInt64.ofNat
  toNat := UInt64.toNat
  scheduleLow w := rotateRight64 w 1 ^^^ rotateRight64 w 8 ^^^ (w >>> 7)
  scheduleHigh w := rotateRight64 w 19 ^^^ rotateRight64 w 61 ^^^ (w >>> 6)
  stateLow w := rotateRight64 w 28 ^^^ rotateRight64 w 34 ^^^ rotateRight64 w 39
  stateHigh w := rotateRight64 w 14 ^^^ rotateRight64 w 18 ^^^ rotateRight64 w 41
  roundConstants := [
    0x428a2f98d728ae22, 0x7137449123ef65cd, 0xb5c0fbcfec4d3b2f, 0xe9b5dba58189dbbc,
    0x3956c25bf348b538, 0x59f111f1b605d019, 0x923f82a4af194f9b, 0xab1c5ed5da6d8118,
    0xd807aa98a3030242, 0x12835b0145706fbe, 0x243185be4ee4b28c, 0x550c7dc3d5ffb4e2,
    0x72be5d74f27b896f, 0x80deb1fe3b1696b1, 0x9bdc06a725c71235, 0xc19bf174cf692694,
    0xe49b69c19ef14ad2, 0xefbe4786384f25e3, 0x0fc19dc68b8cd5b5, 0x240ca1cc77ac9c65,
    0x2de92c6f592b0275, 0x4a7484aa6ea6e483, 0x5cb0a9dcbd41fbd4, 0x76f988da831153b5,
    0x983e5152ee66dfab, 0xa831c66d2db43210, 0xb00327c898fb213f, 0xbf597fc7beef0ee4,
    0xc6e00bf33da88fc2, 0xd5a79147930aa725, 0x06ca6351e003826f, 0x142929670a0e6e70,
    0x27b70a8546d22ffc, 0x2e1b21385c26c926, 0x4d2c6dfc5ac42aed, 0x53380d139d95b3df,
    0x650a73548baf63de, 0x766a0abb3c77b2a8, 0x81c2c92e47edaee6, 0x92722c851482353b,
    0xa2bfe8a14cf10364, 0xa81a664bbc423001, 0xc24b8b70d0f89791, 0xc76c51a30654be30,
    0xd192e819d6ef5218, 0xd69906245565a910, 0xf40e35855771202a, 0x106aa07032bbd1b8,
    0x19a4c116b8d2d0c8, 0x1e376c085141ab53, 0x2748774cdf8eeb99, 0x34b0bcb5e19b48a8,
    0x391c0cb3c5c95a63, 0x4ed8aa4ae3418acb, 0x5b9cca4f7763e373, 0x682e6ff3d6b2b8a3,
    0x748f82ee5defb2fc, 0x78a5636f43172f60, 0x84c87814a1f0ab72, 0x8cc702081a6439ec,
    0x90befffa23631e28, 0xa4506cebde82bde9, 0xbef9a3f7b2c67915, 0xc67178f2e372532b,
    0xca273eceea26619c, 0xd186b8c721c0c207, 0xeada7dd6cde0eb1e, 0xf57d4f7fee6ed178,
    0x06f067aa72176fba, 0x0a637dc5a2c898a6, 0x113f9804bef90dae, 0x1b710b35131c471b,
    0x28db77f523047d84, 0x32caab7b40c72493, 0x3c9ebe0a15c9bebc, 0x431d67c49c100d4c,
    0x4cc5d4becb3e42b6, 0x597f299cfc657e2a, 0x5fcb6fab3ad6faec, 0x6c44198c4a475817]
  start := [
    0x6a09e667f3bcc908, 0xbb67ae8584caa73b, 0x3c6ef372fe94f82b, 0xa54ff53a5f1d36f1,
    0x510e527fade682d1, 0x9b05688c2b3e6c1f, 0x1f83d9abfb41bd6b, 0x5be0cd19137e2179]

def sha256 (message : Bytes) : Bytes :=
  Sha2.digest sha256Variant message

def sha512 (message : Bytes) : Bytes :=
  Sha2.digest sha512Variant message

end Quorate
