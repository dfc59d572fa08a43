import StakeKeeper.Hash.Sha256

/-!
Merkle roots. A `Tree` is the whole computation of a root: its leaves are chunks of 32 bytes, and
each node hashes the roots of its two halves as one block. `blocks` lists what is hashed.
-/
namespace StakeKeeper.Merkle
set_option autoImplicit false

/-- The computation of a Merkle root. -/
inductive Tree where
  | leaf (chunk : Root)
  | node (left right : Tree)
  deriving DecidableEq

namespace Tree

def hashPair (left right : Root) : Root := Sha256.hash (left.toList ++ right.toList)

def root : Tree → Root
  | leaf chunk => chunk
  | node left right => hashPair left.root right.root

/-- The blocks that the computation hashes, two roots each. -/
def blocks : Tree → List (Root × Root)
  | leaf _ => []
  | node left right => (left.root, right.root) :: (left.blocks ++ right.blocks)

/-! ## Building trees -/

/-- The perfect tree of a depth over some parts, filled up with zero chunks. -/
def ofParts : Nat → List Tree → Tree
  | 0, [] => leaf (Bytes.zero 32)
  | 0, part :: _ => part
  | depth + 1, parts =>
    node (ofParts depth (parts.take (1 <<< depth))) (ofParts depth (parts.drop (1 <<< depth)))

/-- At most 32 bytes as a chunk, filled up with zeros. -/
def chunk (l : List UInt8) : Root := Vector.ofFn fun i => l.getD i.val 0

def ofBytes (depth : Nat) (l : List UInt8) : Tree :=
  ofParts depth ((pages 32 l).map fun page => leaf (chunk page))

/-- The tree of a 64-bit number: its little-endian bytes in one chunk. -/
def ofNumber (v : UInt64) : Tree := leaf (chunk (Bytes.ofNatLittleEndian 8 v.toNat).toList)

end Tree

end StakeKeeper.Merkle
