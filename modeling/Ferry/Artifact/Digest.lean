import Ferry.FixedBytes
import Ferry.Text.Hex

/-!
# The BLAKE3 digest

The digest of 256 bits of a byte sequence. The input is cut into chunks of 1024 bytes and a chunk
into blocks of 64. The blocks of a chunk are compressed one after the other; the chunks are the
leaves of a binary tree whose inner nodes compress the values of their two children. Neighbours are
paired level by level, and a node without a neighbour rises to the next level as it is, which gives
the tree in which every left subtree is full. Only the last compression, at the root, is marked as
such.
-/

namespace Ferry

/-- A checksum of 32 bytes. -/
abbrev Digest := FixedBytes 32

namespace Digest

/-- Four words that are mixed in parallel. -/
structure Row where
  (a b c d : UInt32)

namespace Row

/-- Applies an operation to the words of two rows. -/
def zipWith (f : UInt32 → UInt32 → UInt32) (left right : Row) : Row :=
  ⟨f left.a right.a, f left.b right.b, f left.c right.c, f left.d right.d⟩

/-- The sums of the words of two rows. -/
def add (left right : Row) : Row := zipWith (· + ·) left right

/-- Combines the bits of two rows by exclusive or. -/
def xor (left right : Row) : Row := zipWith (· ^^^ ·) left right

/-- Rotates every word to the right. -/
def rotate (row : Row) (count : UInt32) : Row :=
  let turn (w : UInt32) := w >>> count ||| w <<< (32 - count)
  ⟨turn row.a, turn row.b, turn row.c, turn row.d⟩

/-- Moves every word one place to the left; the first one becomes the last. -/
def shift (row : Row) : Row := ⟨row.b, row.c, row.d, row.a⟩

/-- The bytes of a row, each word with its lowest byte first. -/
def bytes (row : Row) : Bytes :=
  [row.a, row.b, row.c, row.d].flatMap fun (w : UInt32) =>
    [w.toUInt8, (w >>> 8).toUInt8, (w >>> 16).toUInt8, (w >>> 24).toUInt8]

theorem length_bytes (row : Row) : row.bytes.length = 16 := rfl

end Row

/-- The state of a compression. -/
structure State where
  (first second third fourth : Row)

/-- Mixes message words into the columns of a state. -/
def State.mix (state : State) (even odd : Row) : State :=
  let first := (state.first.add state.second).add even
  let fourth := (state.fourth.xor first).rotate 16
  let third := state.third.add fourth
  let second := (state.second.xor third).rotate 12
  let first := (first.add second).add odd
  let fourth := (fourth.xor first).rotate 8
  let third := third.add fourth
  let second := (second.xor third).rotate 7
  ⟨first, second, third, fourth⟩

/-- The sixteen words of a block. -/
abbrev Message := Vector UInt32 16

/-- One round: the columns of the state are mixed, and then its diagonals. -/
def State.round (state : State) (m : Message) : State :=
  let columns := state.mix ⟨m[0], m[2], m[4], m[6]⟩ ⟨m[1], m[3], m[5], m[7]⟩
  let diagonals : State :=
    ⟨columns.first, columns.second.shift, columns.third.shift.shift,
      columns.fourth.shift.shift.shift⟩
  let mixed := diagonals.mix ⟨m[8], m[10], m[12], m[14]⟩ ⟨m[9], m[11], m[13], m[15]⟩
  ⟨mixed.first, mixed.second.shift.shift.shift, mixed.third.shift.shift, mixed.fourth.shift⟩

/-- The order in which a round leaves the words of a message to the next one. -/
def schedule : Vector (Fin 16) 16 := #v[2, 6, 3, 10, 7, 0, 4, 13, 1, 11, 12, 5, 9, 14, 15, 8]

/-- The words of a message in the order of the next round. -/
def Message.permute (m : Message) : Message := schedule.map fun i => m[i]

/-- Applies several rounds. -/
def State.rounds (state : State) (m : Message) : Nat → State
  | 0 => state
  | count + 1 => (state.round m).rounds m.permute count

/-- A value that one compression hands to the next. -/
structure Chaining where
  (low high : Row)

/-- The value that the first compression of a chunk begins with. -/
def Chaining.initial : Chaining :=
  ⟨⟨0x6A09E667, 0xBB67AE85, 0x3C6EF372, 0xA54FF53A⟩,
    ⟨0x510E527F, 0x9B05688C, 0x1F83D9AB, 0x5BE0CD19⟩⟩

/-- The bytes of a value. -/
def Chaining.bytes (chaining : Chaining) : Bytes := chaining.low.bytes ++ chaining.high.bytes

/-- A compression that is still to be done. -/
structure Node where
  /-- The value to begin with. -/
  input : Chaining
  /-- The words to mix in. -/
  block : Message
  /-- The number of the chunk, and zero for an inner node. -/
  counter : Nat
  /-- The number of bytes of the block. -/
  length : Nat
  /-- The marks of the block's place in the tree. -/
  marks : UInt32

/-- The mark of the first block of a chunk. -/
def chunkStart : UInt32 := 1

/-- The mark of the last block of a chunk. -/
def chunkEnd : UInt32 := 2

/-- The mark of an inner node. -/
def parentNode : UInt32 := 4

/-- The mark of the last compression of all. -/
def rootNode : UInt32 := 8

/-- Compresses a block, with additional marks. -/
def Node.compress (node : Node) (marks : UInt32) : Chaining :=
  let start : State :=
    ⟨node.input.low, node.input.high, Chaining.initial.low,
      ⟨node.counter.toUInt32, (node.counter / UInt32.size).toUInt32, node.length.toUInt32,
        node.marks ||| marks⟩⟩
  let last := start.rounds node.block 7
  ⟨last.first.xor last.third, last.second.xor last.fourth⟩

/-- The word whose lowest byte comes first among four bytes. -/
def wordAt (bytes : Bytes) (index : Nat) : UInt32 :=
  let byte (i : Nat) : UInt32 := (bytes.getD (4 * index + i) 0).toUInt32
  byte 0 ||| byte 1 <<< 8 ||| byte 2 <<< 16 ||| byte 3 <<< 24

/-- The words of a block; missing bytes count as zero. -/
def messageOf (bytes : Bytes) : Message := Vector.ofFn fun i => wordAt bytes i.val

/-- The message of an inner node. -/
def messageOfPair (left right : Chaining) : Message :=
  #v[left.low.a, left.low.b, left.low.c, left.low.d,
    left.high.a, left.high.b, left.high.c, left.high.d,
    right.low.a, right.low.b, right.low.c, right.low.d,
    right.high.a, right.high.b, right.high.c, right.high.d]

/-- Cuts bytes into pieces of a size; the last one may be shorter, and is empty only if there is
nothing to cut. -/
def pieces (size : Nat) (bytes : Bytes) : List Bytes :=
  if _h : 0 < size ∧ size < bytes.length then
    bytes.take size :: pieces size (bytes.drop size)
  else [bytes]
termination_by bytes.length
decreasing_by simp; omega

/-- The last compression of a chunk whose earlier blocks gave `input`. -/
def nodeOfBlocks (counter : Nat) (marks : UInt32) (input : Chaining) : List Bytes → Node
  | [] => ⟨input, messageOf [], counter, 0, marks ||| chunkEnd⟩
  | [block] => ⟨input, messageOf block, counter, block.length, marks ||| chunkEnd⟩
  | block :: rest =>
      let node : Node := ⟨input, messageOf block, counter, block.length, marks⟩
      nodeOfBlocks counter 0 (node.compress 0) rest

/-- The last compression of a chunk. -/
def nodeOfChunk (chunk : Bytes) (counter : Nat) : Node :=
  nodeOfBlocks counter chunkStart .initial (pieces 64 chunk)

/-- The inner node over two children. -/
def parent (left right : Node) : Node :=
  ⟨.initial, messageOfPair (left.compress 0) (right.compress 0), 0, 64, parentNode⟩

/-- One level of the tree made from the level below. -/
def pairUp : List Node → List Node
  | left :: right :: rest => parent left right :: pairUp rest
  | rest => rest

/-- The root over the nodes of one level, reached in at most `fuel` levels. -/
def rootOf : (fuel : Nat) → List Node → Option Node
  | _, [] => none
  | _, [node] => some node
  | 0, _ => none
  | fuel + 1, nodes => rootOf fuel (pairUp nodes)

/-- The value of the whole tree over a byte sequence. -/
def treeValue (bytes : Bytes) : Chaining :=
  let leaves := (pieces 1024 bytes).mapIdx fun counter chunk => nodeOfChunk chunk counter
  match rootOf leaves.length leaves with
  | some node => node.compress rootNode
  | none => .initial

/-- The digest of a byte sequence. -/
def of (bytes : Bytes) : Digest :=
  ⟨(treeValue bytes).bytes, by simp [Chaining.bytes, Row.length_bytes]⟩

/-- The digest in hexadecimal digits. -/
def text (digest : Digest) : String := Text.hex digest.bytes

end Digest

end Ferry
