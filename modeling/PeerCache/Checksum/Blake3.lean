/-!
BLAKE3 in its plain hashing mode, cut to the first word of the digest.

The input is cut into chunks of 1024 bytes, a chunk into blocks of 64 bytes. Every block goes
through `compress`, which turns a chaining value and the block into the next chaining value.
Chunks are the leaves of a binary tree whose left part is the largest full tree that leaves
something for the right; the last compression of all carries the root flag.
-/

namespace PeerCache.Checksum

/-- Eight words passed from one compression to the next. -/
abbrev ChainingValue := Vector UInt32 8

/-- The sixteen words of a block, and the working state of a compression. -/
abbrev BlockWords := Vector UInt32 16

/-- The chaining value that every chunk starts from, and the key of an unkeyed parent. -/
def initialChaining : ChainingValue :=
  #v[0x6A09E667, 0xBB67AE85, 0x3C6EF372, 0xA54FF53A, 0x510E527F, 0x9B05688C, 0x1F83D9AB, 0x5BE0CD19]

/-- Marks the first block of a chunk. -/
def chunkStart : UInt32 := 1

/-- Marks the last block of a chunk. -/
def chunkEnd : UInt32 := 2

/-- Marks the block that joins two subtrees. -/
def parentNode : UInt32 := 4

/-- Marks the last compression of the whole tree. -/
def rootNode : UInt32 := 8

/-- Turns a word to the right by `n` bits, `0 < n < 32`. -/
def rotateRight (w n : UInt32) : UInt32 :=
  (w >>> n) ||| (w <<< (32 - n))

/-- Mixes two message words into one column or diagonal of the state. -/
def quarterRound (s : BlockWords) (a b c d : Fin 16) (x y : UInt32) : BlockWords :=
  let s := s.set a (s[a] + s[b] + x)
  let s := s.set d (rotateRight (s[d] ^^^ s[a]) 16)
  let s := s.set c (s[c] + s[d])
  let s := s.set b (rotateRight (s[b] ^^^ s[c]) 12)
  let s := s.set a (s[a] + s[b] + y)
  let s := s.set d (rotateRight (s[d] ^^^ s[a]) 8)
  let s := s.set c (s[c] + s[d])
  s.set b (rotateRight (s[b] ^^^ s[c]) 7)

/-- Mixes a message into the four columns and then the four diagonals of the state. -/
def fullRound (s m : BlockWords) : BlockWords :=
  let s := quarterRound s 0 4 8 12 m[0] m[1]
  let s := quarterRound s 1 5 9 13 m[2] m[3]
  let s := quarterRound s 2 6 10 14 m[4] m[5]
  let s := quarterRound s 3 7 11 15 m[6] m[7]
  let s := quarterRound s 0 5 10 15 m[8] m[9]
  let s := quarterRound s 1 6 11 12 m[10] m[11]
  let s := quarterRound s 2 7 8 13 m[12] m[13]
  quarterRound s 3 4 9 14 m[14] m[15]

/-- The order in which the next round reads the message words. -/
def reorder (m : BlockWords) : BlockWords :=
  #v[m[2], m[6], m[3], m[10], m[7], m[0], m[4], m[13],
     m[1], m[11], m[12], m[5], m[9], m[14], m[15], m[8]]

/-- Runs `rounds` rounds, the message reordered between any two of them. -/
def rounds : Nat → BlockWords → BlockWords → BlockWords
  | 0, s, _ => s
  | n + 1, s, m => rounds n (fullRound s m) (reorder m)

/-- What a compression is given beside its flags; kept so that the root flag can be added last. -/
structure Compression where
  chaining : ChainingValue
  block : BlockWords
  counter : UInt64
  length : UInt32
  flags : UInt32

/-- Seven rounds over the state, whose two halves are then added. -/
def Compression.run (c : Compression) : ChainingValue :=
  let h := c.chaining
  let iv := initialChaining
  let s := rounds 7
    #v[h[0], h[1], h[2], h[3], h[4], h[5], h[6], h[7], iv[0], iv[1], iv[2], iv[3],
       c.counter.toUInt32, (c.counter >>> 32).toUInt32, c.length, c.flags]
    c.block
  Vector.ofFn fun i : Fin 8 => s[i.val] ^^^ s[i.val + 8]

/-- Four bytes as a word, least byte first; a missing byte is zero. -/
def littleEndian (bytes : List UInt8) : UInt32 :=
  (bytes.take 4).foldr (fun b w => (w <<< 8) ||| b.toUInt32) 0

/-- The first sixteen words of a list of bytes, zeros where it ends. -/
def blockWords (bytes : List UInt8) : BlockWords :=
  Vector.ofFn fun i : Fin 16 => littleEndian (bytes.drop (4 * i.val))

/-- What is left of a list without its first elements is shorter. -/
theorem length_lt_of_drop {bytes rest : List UInt8} {n : Nat} (hn : 0 < n) {b : UInt8}
    (h : bytes.drop n = b :: rest) : (b :: rest).length < bytes.length := by
  have := congrArg List.length h
  rw [List.length_drop, List.length_cons] at this
  rw [List.length_cons]
  omega

/-- The blocks of a chunk after the first: the last one ends the chunk. -/
def laterBlocks (counter : UInt64) (h : ChainingValue) (first : UInt32) (bytes : List UInt8) :
    Compression :=
  match rest : bytes.drop 64 with
  | [] => ⟨h, blockWords bytes, counter, bytes.length.toUInt32, first ||| chunkEnd⟩
  | b :: bs =>
    have := length_lt_of_drop (by decide) rest
    laterBlocks counter (Compression.run ⟨h, blockWords bytes, counter, 64, first⟩) 0 (b :: bs)
  termination_by bytes.length

/-- The compression that closes the chunk with number `counter`. -/
def chunk (counter : UInt64) (bytes : List UInt8) : Compression :=
  laterBlocks counter initialChaining chunkStart bytes

/-- Joins the chaining values of two subtrees. -/
def parent (left right : ChainingValue) : Compression :=
  ⟨initialChaining, left ++ right, 0, 64, parentNode⟩

/-- The bytes in chunks of 1024, the last of them perhaps shorter; no bytes are one empty chunk. -/
def chunks (bytes : List UInt8) : List (List UInt8) :=
  match rest : bytes.drop 1024 with
  | [] => [bytes]
  | b :: bs =>
    have := length_lt_of_drop (by decide) rest
    bytes.take 1024 :: chunks (b :: bs)
  termination_by bytes.length

/-- The number of chunks in the left subtree of `n > 1`: the largest power of two that leaves at
least one. -/
def leftCount (n : Nat) : Nat :=
  1 <<< (n - 1).log2

/-- The left subtree has a chunk. -/
theorem leftCount_pos (n : Nat) : 0 < leftCount n := by
  rw [leftCount, Nat.shiftLeft_eq, Nat.one_mul]
  exact Nat.two_pow_pos _

/-- So has the right one. -/
theorem leftCount_lt {n : Nat} (h : 1 < n) : leftCount n < n := by
  have hpow := Nat.log2_self_le (show n - 1 ≠ 0 by omega)
  rw [leftCount, Nat.shiftLeft_eq, Nat.one_mul]
  omega

/-- The compression that closes the tree over some chunks, the first of which has number
`counter`. -/
def tree (counter : UInt64) (leaves : List (List UInt8)) : Compression :=
  match leaves with
  | [] => chunk counter []
  | [bytes] => chunk counter bytes
  | first :: second :: others =>
    let leaves := first :: second :: others
    let left := leftCount leaves.length
    parent (tree counter (leaves.take left)).run
      (tree (counter + left.toUInt64) (leaves.drop left)).run
  termination_by leaves.length
  decreasing_by
    · have : leftCount leaves.length < leaves.length := leftCount_lt (by simp [leaves])
      simp only [leaves, List.length_take, List.length_cons] at this ⊢; omega
    · have := leftCount_pos leaves.length
      simp only [leaves, List.length_drop, List.length_cons] at this ⊢; omega

/-- The first four bytes of the digest as a word, least byte first. -/
def blake3 (bytes : List UInt8) : UInt32 :=
  let last := tree 0 (chunks bytes)
  (Compression.run { last with flags := last.flags ||| rootNode })[0]

end PeerCache.Checksum
