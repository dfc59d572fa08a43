import StakeKeeper.Bytes
import StakeKeeper.Bls.Curve

/-!
Compressed points: the first coordinate in big-endian bytes, with three marks in the top bits of
the first byte: compressed, infinity, and whether the second coordinate is the upper root.
-/
namespace StakeKeeper.Bls
set_option autoImplicit false

/-! ## Marks -/

def markByte (b : UInt8) (infinite upper : Bool) : UInt8 :=
  b ||| 0x80 ||| (if infinite then 0x40 else 0) ||| (if upper then 0x20 else 0)

/-- Coordinate bytes with the marks in the first of them. -/
def mark {n : Nat} (b : Bytes n) (infinite upper : Bool) : Bytes n :=
  Vector.ofFn fun i => if i.val = 0 then markByte b[i] infinite upper else b[i]

/-- What a compressed string says: the upper mark and the coordinate bytes without marks, if it is
marked as compressed and not as infinity. -/
def unmark? (l : List UInt8) : Option (Bool × List UInt8) :=
  match l with
  | [] => none
  | b :: rest =>
    if b &&& 0xc0 = 0x80 then some (b &&& 0x20 ≠ 0, (b &&& 0x1f) :: rest) else none

/-! ## The group over the prime field -/

def compress1 (p : Point Fp) : PubKey :=
  match p.affine? with
  | none => mark (Bytes.zero 48) true false
  | some a => mark (Bytes.ofNatBigEndian 48 a.x.val) false a.y.isUpper

/-- The point of the curve that a string stands for, infinity excluded. -/
def decompress1? (b : PubKey) : Option (Affine Fp) := do
  let (upper, bytes) ← unmark? b.toList
  let x ← Fp.ofNat? (Bytes.natOfBigEndian bytes)
  let y ← (x * x * x + curveB).sqrt?
  pure ⟨x, if y.isUpper = upper then y else -y⟩

/-! ## The group over the quadratic extension -/

/-- The compressed form of a point; the imaginary part of the coordinate comes first. -/
def compress2 (p : Point Fp2) : Signature :=
  match p.affine? with
  | none => mark (Bytes.zero 96) true false
  | some a =>
    mark (Bytes.ofNatBigEndian 96 ((a.x.im.val <<< 384) + a.x.re.val)) false a.y.isUpper

/-- The point of the curve that a string stands for, infinity excluded. -/
def decompress2? (b : Signature) : Option (Affine Fp2) := do
  let (upper, bytes) ← unmark? b.toList
  let im ← Fp.ofNat? (Bytes.natOfBigEndian (bytes.take 48))
  let re ← Fp.ofNat? (Bytes.natOfBigEndian (bytes.drop 48))
  let x : Fp2 := ⟨re, im⟩
  let y ← (x * x * x + twistB).sqrt?
  pure ⟨x, if y.isUpper = upper then y else -y⟩

end StakeKeeper.Bls
