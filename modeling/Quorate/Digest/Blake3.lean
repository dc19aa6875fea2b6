import Quorate.Bytes.Basic

/-!
# BLAKE3

The BLAKE3 digest of 32 bytes in its plain mode: chunks of 1024 bytes are chained block by block, and
the chunks' chaining values are joined by a binary tree whose left subtrees are as large a power of
two as fits. A node of the tree is kept as the compression still to be made, because the last one is
made with the root flag.
-/

namespace Quorate.Blake3

def start : List UInt32 := [
  0x6a09e667, 0xbb67ae85, 0x3c6ef372, 0xa54ff53a, 0x510e527f, 0x9b05688c, 0x1f83d9ab, 0x5be0cd19]

def chunkStart : UInt32 := 1

def chunkEnd : UInt32 := 2

def parentFlag : UInt32 := 4

def rootFlag : UInt32 := 8

/-- `w` turned right by `n` bits, `0 < n < 32`. -/
def rotateRight (w n : UInt32) : UInt32 :=
  (w >>> n) ||| (w <<< (32 - n))

/-- Mix two message words into the four state words at the given places. -/
def mix (v : Array UInt32) (a b c d : Nat) (x y : UInt32) : Array UInt32 :=
  let va := v.getD a 0 + v.getD b 0 + x
  let vd := rotateRight (v.getD d 0 ^^^ va) 16
  let vc := v.getD c 0 + vd
  let vb := rotateRight (v.getD b 0 ^^^ vc) 12
  let va := va + vb + y
  let vd := rotateRight (vd ^^^ va) 8
  let vc := vc + vd
  let vb := rotateRight (vb ^^^ vc) 7
  (((v.setIfInBounds a va).setIfInBounds b vb).setIfInBounds c vc).setIfInBounds d vd

/-- The columns and the diagonals of the four by four state. -/
def lines : List (Nat × Nat × Nat × Nat) := [
  (0, 4, 8, 12), (1, 5, 9, 13), (2, 6, 10, 14), (3, 7, 11, 15),
  (0, 5, 10, 15), (1, 6, 11, 12), (2, 7, 8, 13), (3, 4, 9, 14)]

/-- Mix the columns, then the diagonals, taking the message words two by two. -/
def mixLines : List (Nat × Nat × Nat × Nat) → List UInt32 → Array UInt32 → Array UInt32
  | (a, b, c, d) :: rest, x :: y :: words, v => mixLines rest words (mix v a b c d x y)
  | _, _, v => v

/-- The order in which the next round takes the message words. -/
def permutation : List Nat := [2, 6, 3, 10, 7, 0, 4, 13, 1, 11, 12, 5, 9, 14, 15, 8]

def rounds : (n : Nat) → List UInt32 → Array UInt32 → Array UInt32
  | 0, _, v => v
  | n + 1, words, v =>
    rounds n (permutation.map fun i => words.getD i 0) (mixLines lines words v)

/-- A compression still to be made. -/
structure Node where
  chaining : List UInt32
  words : List UInt32
  counter : Nat
  length : Nat
  flags : UInt32

/-- The first eight words of the compression, as every use of this module needs. -/
def Node.compress (n : Node) : List UInt32 :=
  let v := (n.chaining ++ start.take 4 ++ [UInt32.ofNat n.counter, UInt32.ofNat (n.counter >>> 32),
    UInt32.ofNat n.length, n.flags]).toArray
  let v := rounds 7 n.words v
  (List.range 8).map fun i => v.getD i 0 ^^^ v.getD (i + 8) 0

/-- A block's sixteen words; a short block is filled with zeros. -/
def blockWords (block : Bytes) : List UInt32 :=
  (Bytes.chunks 4 (block ++ Bytes.zeros (64 - block.length))).map fun piece =>
    UInt32.ofNat (Bytes.toNatLE piece)

/-- The last block of chunk number `counter`, after chaining through the blocks before it. -/
def chainBlocks (counter : Nat) : List Bytes → List UInt32 → UInt32 → Node
  | [], chaining, flags => ⟨chaining, blockWords [], counter, 0, flags ||| chunkEnd⟩
  | [block], chaining, flags => ⟨chaining, blockWords block, counter, block.length, flags ||| chunkEnd⟩
  | block :: blocks, chaining, flags =>
    chainBlocks counter blocks (Node.compress ⟨chaining, blockWords block, counter, block.length, flags⟩) 0

def chunkNode (counter : Nat) (chunk : Bytes) : Node :=
  chainBlocks counter (Bytes.chunks 64 chunk) start chunkStart

def parentNode (left right : Node) : Node :=
  ⟨start, left.compress ++ right.compress, 0, 64, parentFlag⟩

/-- How many bytes of an input longer than one chunk go to the left: the largest power of two of chunks
that leaves something for the right. -/
def leftLength (length : Nat) : Nat :=
  1024 <<< ((length - 1) / 1024).log2

/-- The node over `bs`, whose first chunk has number `counter`. The fuel bounds the tree's height. -/
def subtree : (fuel : Nat) → (counter : Nat) → Bytes → Node
  | 0, counter, bs => chunkNode counter bs
  | fuel + 1, counter, bs =>
    if bs.length ≤ 1024 then chunkNode counter bs
    else
      let left := leftLength bs.length
      parentNode (subtree fuel counter (bs.take left))
        (subtree fuel (counter + left / 1024) (bs.drop left))

end Blake3

def blake3 (message : Bytes) : Bytes :=
  let root := Blake3.subtree message.length 0 message
  (Blake3.Node.compress { root with flags := root.flags ||| Blake3.rootFlag }).flatMap fun w =>
    Bytes.ofNatLE 4 w.toNat

end Quorate
