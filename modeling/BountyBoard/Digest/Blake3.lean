/-!
# BLAKE3

The BLAKE3 hash of a list of bytes, with the default length of thirty-two
bytes and without a key. The input is cut into chunks of 1024 bytes, each
chunk is compressed block by block, and the results are joined in a binary
tree whose left part holds the greatest power of two of chunks that leaves
something for the right.
-/

namespace BountyBoard.Blake3

/-- The eight words that a compression hands on. -/
abbrev Chain := Vector UInt32 8

/-- Sixteen words: a block of the message, or the state of a compression. -/
abbrev Block := Vector UInt32 16

/-! ## Compression -/

/-- The words that a chunk starts from. -/
def start : Chain := #v[
    0x6A09E667, 0xBB67AE85, 0x3C6EF372, 0xA54FF53A,
    0x510E527F, 0x9B05688C, 0x1F83D9AB, 0x5BE0CD19]

/-- Where each word of a round's message stood in the round before. -/
def schedule : Vector (Fin 16) 16 := #v[
    2, 6, 3, 10, 7, 0, 4, 13, 1, 11, 12, 5, 9, 14, 15, 8]

def permute (m : Block) : Block :=
  schedule.map fun i => m[i]

def rotateRight (x n : UInt32) : UInt32 :=
  (x >>> n) ||| (x <<< (32 - n))

/-- Mixes two words of the message into four words of the state. -/
def mix (v : Block) (a b c d : Fin 16) (x y : UInt32) : Block :=
  let wa := v[a] + v[b] + x
  let wd := rotateRight (v[d] ^^^ wa) 16
  let wc := v[c] + wd
  let wb := rotateRight (v[b] ^^^ wc) 12
  let wa := wa + wb + y
  let wd := rotateRight (wd ^^^ wa) 8
  let wc := wc + wd
  let wb := rotateRight (wb ^^^ wc) 7
  (((v.set a wa).set b wb).set c wc).set d wd

/-- Mixes a message into the columns of the state and then into its diagonals. -/
def round (v m : Block) : Block :=
  let v := mix v 0 4 8 12 m[0] m[1]
  let v := mix v 1 5 9 13 m[2] m[3]
  let v := mix v 2 6 10 14 m[4] m[5]
  let v := mix v 3 7 11 15 m[6] m[7]
  let v := mix v 0 5 10 15 m[8] m[9]
  let v := mix v 1 6 11 12 m[10] m[11]
  let v := mix v 2 7 8 13 m[12] m[13]
  mix v 3 4 9 14 m[14] m[15]

/-- So many rounds, each with the message of the round before permuted. -/
def rounds : Nat → Block → Block → Block
  | 0, v, _ => v
  | n + 1, v, m => rounds n (round v m) (permute m)

structure Node where
  chain : Chain
  block : Block
  counter : UInt64
  length : UInt32
  flags : UInt32

def chunkStart : UInt32 := 1

def chunkEnd : UInt32 := 2

/-- The flag of a node that joins two others. -/
def parent : UInt32 := 4

def root : UInt32 := 8

def Node.compress (node : Node) : Chain :=
  let h := node.chain
  let state : Block := #v[
      h[0], h[1], h[2], h[3], h[4], h[5], h[6], h[7],
      start[0], start[1], start[2], start[3],
      node.counter.toUInt32, (node.counter >>> 32).toUInt32, node.length, node.flags]
  let v := rounds 7 state node.block
  Vector.ofFn fun i : Fin 8 => v[i.val] ^^^ v[i.val + 8]

/-! ## Chunks and the tree -/

/-- Cuts a list into pieces of a size; only the last one may be shorter. The
empty list is one empty piece. -/
def pieces {α : Type} (size : Nat) (xs : List α) : List (List α) :=
  if _h : size = 0 ∨ xs.length ≤ size then [xs]
  else xs.take size :: pieces size (xs.drop size)
termination_by xs.length
decreasing_by
  simp only [List.length_drop]
  omega

/-- Bytes as the words of a block, the low byte first, with zeros to its end. -/
def blockOf (bytes : List UInt8) : Block :=
  Vector.ofFn fun i : Fin 16 =>
    ((bytes.drop (4 * i.val)).take 4).foldr (fun b word => word <<< 8 ||| b.toUInt32) 0

/-- The node of the last block of a chunk, once the blocks before it are
compressed. `flags` belong to the next block only. -/
def chunkNode (counter : UInt64) (chain : Chain) (flags : UInt32) :
    List (List UInt8) → Node
  | [] => ⟨chain, blockOf [], counter, 0, flags ||| chunkEnd⟩
  | [bytes] => ⟨chain, blockOf bytes, counter, bytes.length.toUInt32, flags ||| chunkEnd⟩
  | bytes :: rest =>
    let node : Node := ⟨chain, blockOf bytes, counter, bytes.length.toUInt32, flags⟩
    chunkNode counter node.compress 0 rest

def parentNode (left right : Chain) : Node :=
  ⟨start, (left ++ right).cast rfl, 0, 64, parent⟩

/-- The node at the top of the tree over some chunks. `counter` is the
number of chunks before them. -/
def treeNode (counter : Nat) (chunks : List (List UInt8)) : Node :=
  if _h : chunks.length ≤ 1 then
    chunkNode counter.toUInt64 start chunkStart (pieces 64 (chunks.headD []))
  else
    let left := 1 <<< (chunks.length - 1).log2
    parentNode (treeNode counter (chunks.take left)).compress
      (treeNode (counter + left) (chunks.drop left)).compress
termination_by chunks.length
decreasing_by
  · have := Nat.log2_self_le (n := chunks.length - 1) (by omega)
    simp only [List.length_take, Nat.one_shiftLeft]
    omega
  · have := Nat.two_pow_pos (chunks.length - 1).log2
    simp only [List.length_drop, Nat.one_shiftLeft]
    omega

/-- The four bytes of a word, the low one first. -/
def wordBytes (w : UInt32) : List UInt8 :=
  [w.toUInt8, (w >>> 8).toUInt8, (w >>> 16).toUInt8, (w >>> 24).toUInt8]

def hash (bytes : List UInt8) : List UInt8 :=
  let node := treeNode 0 (pieces 1024 bytes)
  { node with flags := node.flags ||| root }.compress.toList.flatMap wordBytes

theorem length_hash (bytes : List UInt8) : (hash bytes).length = 32 := by
  simp [hash, wordBytes, List.length_flatMap, List.map_const']

end BountyBoard.Blake3
