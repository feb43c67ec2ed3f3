import BilinearGroups.Bytes

/-!
# BLAKE3 in key-derivation mode

The derivation of uniform bytes for scalars. A context text is hashed to a key, and the key material
is hashed under that key to output of any length; 64 bytes are what a scalar needs, and they are one
output block.

The input is cut into chunks of 1024 bytes, chunks into blocks of 64, and the chunks are the leaves
of a binary tree that is full on the left. A node is kept unevaluated until its place in the tree is
known, because the root is evaluated with a flag of its own. Such a tree arises by joining
neighbours level by level, a last node without a neighbour moving up unchanged.

The state of a compression is four rows of four words. A round mixes the columns and then the
diagonals, and the diagonals are columns after each row has been rotated.
-/

namespace BilinearGroups.Blake3

/-- Four words. -/
structure Row where
  (w0 w1 w2 w3 : UInt32)
deriving DecidableEq

namespace Row

/-- The word-by-word sum. -/
def add (x y : Row) : Row := ⟨x.w0 + y.w0, x.w1 + y.w1, x.w2 + y.w2, x.w3 + y.w3⟩

/-- The word-by-word exclusive or, rotated to the right. -/
def xorRotate (x y : Row) (n : UInt32) : Row :=
  let turn (w : UInt32) : UInt32 := (w >>> n) ||| (w <<< (32 - n))
  ⟨turn (x.w0 ^^^ y.w0), turn (x.w1 ^^^ y.w1), turn (x.w2 ^^^ y.w2), turn (x.w3 ^^^ y.w3)⟩

/-- The word-by-word exclusive or. -/
def xor (x y : Row) : Row := ⟨x.w0 ^^^ y.w0, x.w1 ^^^ y.w1, x.w2 ^^^ y.w2, x.w3 ^^^ y.w3⟩

/-- The words moved one place to the left. -/
def rotate (x : Row) : Row := ⟨x.w1, x.w2, x.w3, x.w0⟩

/-- The words in order. -/
def toList (x : Row) : List UInt32 := [x.w0, x.w1, x.w2, x.w3]

end Row

/-- A chaining value: the two upper rows of a state. -/
structure Chain where
  /-- The first four words. -/
  upper : Row
  /-- The last four words. -/
  lower : Row
deriving DecidableEq

/-- The chaining value of unkeyed hashing, and the constants of the third row. -/
def initial : Chain :=
  ⟨⟨0x6a09e667, 0xbb67ae85, 0x3c6ef372, 0xa54ff53a⟩, ⟨0x510e527f, 0x9b05688c, 0x1f83d9ab, 0x5be0cd19⟩⟩

/-- The state of a compression. -/
structure State where
  (a b c d : Row)
deriving DecidableEq

/-- Mixes two rows of message words into the four columns. -/
def mixColumns (s : State) (mx my : Row) : State :=
  let a := (s.a.add s.b).add mx
  let d := s.d.xorRotate a 16
  let c := s.c.add d
  let b := s.b.xorRotate c 12
  let a := (a.add b).add my
  let d := d.xorRotate a 8
  let c := c.add d
  let b := b.xorRotate c 7
  ⟨a, b, c, d⟩

/-- Mixes two rows of message words into the four diagonals. -/
def mixDiagonals (s : State) (mx my : Row) : State :=
  let t := mixColumns
    ⟨s.a, s.b.rotate, s.c.rotate.rotate, s.d.rotate.rotate.rotate⟩ mx my
  ⟨t.a, t.b.rotate.rotate.rotate, t.c.rotate.rotate, t.d.rotate⟩

/-- The remaining `n` rounds on sixteen message words, which are permuted between rounds. -/
def rounds : (n : Nat) → State → List UInt32 → State
  | n + 1, s, [m0, m1, m2, m3, m4, m5, m6, m7, m8, m9, m10, m11, m12, m13, m14, m15] =>
    let s := mixColumns s ⟨m0, m2, m4, m6⟩ ⟨m1, m3, m5, m7⟩
    let s := mixDiagonals s ⟨m8, m10, m12, m14⟩ ⟨m9, m11, m13, m15⟩
    rounds n s [m2, m6, m3, m10, m7, m0, m4, m13, m1, m11, m12, m5, m9, m14, m15, m8]
  | _, s, _ => s

/-- A node that has not been evaluated: the inputs of its compression. -/
structure Node where
  /-- The chaining value before the block. -/
  chain : Chain
  /-- The sixteen message words. -/
  block : List UInt32
  /-- The number of the chunk. -/
  counter : Nat
  /-- The number of message bytes in the block. -/
  length : Nat
  /-- What the block is. -/
  flags : UInt32

/-- The state after the rounds. -/
def Node.compress (n : Node) : State :=
  rounds 7
    ⟨n.chain.upper, n.chain.lower, initial.upper,
     ⟨UInt32.ofNat n.counter, UInt32.ofNat (n.counter >>> 32), UInt32.ofNat n.length, n.flags⟩⟩
    n.block

/-- The chaining value of a node that is not the root. -/
def Node.value (n : Node) : Chain :=
  let s := n.compress
  ⟨s.a.xor s.c, s.b.xor s.d⟩

/-! ## Flags -/

/-- The first block of a chunk. -/
def chunkStart : UInt32 := 1

/-- The last block of a chunk. -/
def chunkEnd : UInt32 := 2

/-- A node with two children. -/
def parent : UInt32 := 4

/-- The root of the tree. -/
def root : UInt32 := 8

/-- A context text is being hashed. -/
def deriveContext : UInt32 := 32

/-- Key material is being hashed. -/
def deriveMaterial : UInt32 := 64

/-! ## The tree -/

/-- The sixteen little-endian words of a block, completed by zero bytes. -/
def blockWords (block : Bytes) : List UInt32 :=
  (Bytes.pieces 4 16 block).map fun bs ↦ UInt32.ofNat (Bytes.toNatLE bs)

/-- The node of the last block of a chunk, where `n` bounds the number of blocks that follow the
next one, and `start` flags the first block. -/
def chunkNode (flags : UInt32) (counter : Nat) : (n : Nat) → (start : UInt32) → Chain → Bytes → Node
  | 0, start, chain, bs =>
    ⟨chain, blockWords bs, counter, bs.length, flags ||| start ||| chunkEnd⟩
  | n + 1, start, chain, bs =>
    if bs.length ≤ 64 then ⟨chain, blockWords bs, counter, bs.length, flags ||| start ||| chunkEnd⟩
    else
      let first : Node := ⟨chain, blockWords (bs.take 64), counter, 64, flags ||| start⟩
      chunkNode flags counter n 0 first.value (bs.drop 64)

/-- The leaves of the tree over an input of at most `n + 1` chunks, numbered from `counter`. -/
def leaves (flags : UInt32) (key : Chain) : (n counter : Nat) → Bytes → List Node
  | 0, counter, bs => [chunkNode flags counter 15 chunkStart key bs]
  | n + 1, counter, bs =>
    if bs.length ≤ 1024 then [chunkNode flags counter 15 chunkStart key bs]
    else chunkNode flags counter 15 chunkStart key (bs.take 1024)
      :: leaves flags key n (counter + 1) (bs.drop 1024)

/-- The node above two others. -/
def parentNode (flags : UInt32) (key : Chain) (left right : Node) : Node :=
  let l := left.value
  let r := right.value
  ⟨key, l.upper.toList ++ l.lower.toList ++ r.upper.toList ++ r.lower.toList, 0, 64,
    flags ||| parent⟩

/-- Joins neighbours; a last node without a neighbour stays. -/
def joinNeighbours (flags : UInt32) (key : Chain) : List Node → List Node
  | left :: right :: rest => parentNode flags key left right :: joinNeighbours flags key rest
  | nodes => nodes

/-- The root above a first node and the nodes after it, which takes at most `n` levels. -/
def rootNode (flags : UInt32) (key : Chain) : (n : Nat) → Node → List Node → Node
  | 0, node, _ => node
  | n + 1, node, nodes =>
    match joinNeighbours flags key (node :: nodes) with
    | node :: nodes => rootNode flags key n node nodes
    | [] => node

/-- The first block of output for an input under a key: 64 bytes. -/
def output (flags : UInt32) (key : Chain) (input : Bytes) : Bytes :=
  let chunks := input.length / 1024
  match leaves flags key chunks 0 input with
  | [] => []
  | node :: nodes =>
    let top := rootNode flags key chunks node nodes
    let s := { top with flags := top.flags ||| root }.compress
    let words := (s.a.xor s.c).toList ++ (s.b.xor s.d).toList
      ++ (s.c.xor top.chain.upper).toList ++ (s.d.xor top.chain.lower).toList
    words.flatMap fun w ↦ Bytes.ofNatLE 4 w.toNat

/-- The key that a context text stands for. -/
def contextKey (context : Bytes) : Chain :=
  match blockWords (output deriveContext initial context) with
  | w0 :: w1 :: w2 :: w3 :: w4 :: w5 :: w6 :: w7 :: _ => ⟨⟨w0, w1, w2, w3⟩, ⟨w4, w5, w6, w7⟩⟩
  | _ => initial

/-- 64 bytes derived from key material under a context text. -/
def derive (context material : Bytes) : Bytes :=
  output deriveMaterial (contextKey context) material

end BilinearGroups.Blake3
