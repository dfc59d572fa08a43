import StakeKeeper.Bytes
import StakeKeeper.Pages

/-!
The Keccak-256 hash function, on lists of bytes: the sponge over the permutation of twenty-five
64-bit lanes, with the padding that starts with a single one bit.
-/
namespace StakeKeeper.Keccak256
set_option autoImplicit false

/-! ## The permutation -/

/-- The lanes of the state; the lane of column `x` and row `y` stands at `x + 5 * y`. -/
abbrev Lanes := List UInt64

def roundConstants : List UInt64 := [
  0x0000000000000001, 0x0000000000008082, 0x800000000000808a, 0x8000000080008000,
  0x000000000000808b, 0x0000000080000001, 0x8000000080008081, 0x8000000000008009,
  0x000000000000008a, 0x0000000000000088, 0x0000000080008009, 0x000000008000000a,
  0x000000008000808b, 0x800000000000008b, 0x8000000000008089, 0x8000000000008003,
  0x8000000000008002, 0x8000000000000080, 0x000000000000800a, 0x800000008000000a,
  0x8000000080008081, 0x8000000000008080, 0x0000000080000001, 0x8000000080008008]

/-- How far each lane is turned, in the order of the lanes. -/
def turns : List UInt64 :=
  [0, 1, 62, 28, 27, 36, 44, 6, 55, 20, 3, 10, 43, 25, 39, 41, 45, 15, 21, 8, 18, 2, 61, 56, 14]

def rotate (x n : UInt64) : UInt64 := if n = 0 then x else (x <<< n) ||| (x >>> (64 - n))

/-- The lane of column `x` and row `y`, both taken modulo five. -/
def lane (s : Lanes) (x y : Nat) : UInt64 := s.getD (x % 5 + 5 * (y % 5)) 0

def build (f : Nat → Nat → UInt64) : Lanes := (List.range 25).map fun i => f (i % 5) (i / 5)

/-- Each column takes in the parity of its two neighbours. -/
def mixColumns (s : Lanes) : Lanes :=
  let parity := (List.range 5).map fun x =>
    lane s x 0 ^^^ lane s x 1 ^^^ lane s x 2 ^^^ lane s x 3 ^^^ lane s x 4
  build fun x y =>
    lane s x y ^^^ parity.getD ((x + 4) % 5) 0 ^^^ rotate (parity.getD ((x + 1) % 5) 0) 1

/-- The lanes turned and moved to their new places. -/
def scatter (s : Lanes) : Lanes :=
  let turned := List.zipWith rotate s turns
  build fun x y => lane turned (x + 3 * y) x

/-- Each lane takes in the two that follow it in its row. -/
def mixRows (s : Lanes) : Lanes :=
  build fun x y => lane s x y ^^^ (~~~(lane s (x + 1) y) &&& lane s (x + 2) y)

def round (s : Lanes) (constant : UInt64) : Lanes :=
  match mixRows (scatter (mixColumns s)) with
  | [] => []
  | first :: rest => (first ^^^ constant) :: rest

def permute (s : Lanes) : Lanes := roundConstants.foldl round s

/-! ## The sponge -/

/-- Bytes taken in at a time. -/
def rate : Nat := 136

/-- The lane of eight bytes, least significant first. -/
def laneOf (l : List UInt8) : UInt64 := l.foldr (fun b a => (a <<< 8) ||| b.toUInt64) 0

/-- The message filled up to whole blocks; the first and the last added bits are one. -/
def pad (message : List UInt8) : List UInt8 :=
  let room := rate - message.length % rate
  if room = 1 then message ++ [0x81] else message ++ 0x01 :: List.replicate (room - 2) 0 ++ [0x80]

def absorb (s : Lanes) (block : List UInt8) : Lanes :=
  let lanes := (pages 8 block).map laneOf
  permute (List.zipWith (· ^^^ ·) s (lanes ++ List.replicate (25 - lanes.length) 0))

def hash (message : List UInt8) : Root :=
  let s := (pages rate (pad message)).foldl absorb (List.replicate 25 0)
  Vector.ofFn fun i => (s.getD (i.val / 8) 0 >>> (8 * UInt64.ofNat (i.val % 8))).toUInt8

end StakeKeeper.Keccak256
