/-!
Finite fields of the BLS12-381 curve: the prime field `Fp` and its quadratic extension `Fp2`, with
powers, inverses and checked square roots. Main statement: `sqrt?_sound` (a root that is returned
squares to its argument).
-/
namespace StakeKeeper.Bls
set_option autoImplicit false

/-! ## Operations of a field -/

/-- The operations that the curve arithmetic needs of its coordinates. -/
class FieldOps (K : Type) extends Add K, Sub K, Mul K, Neg K, Zero K, One K where
  inverse : K → K

/-- The binary digits of a number, most significant first. -/
def binaryDigits (n : Nat) : List Bool := (List.range (n.log2 + 1)).reverse.map n.testBit

def power {K : Type} [Mul K] [One K] (x : K) (n : Nat) : K :=
  (binaryDigits n).foldl (fun acc bit => let sq := acc * acc; if bit then sq * x else sq) 1

/-- The candidate, if it squares to `a`. -/
def root? {K : Type} [Mul K] [DecidableEq K] (a candidate : K) : Option K :=
  if candidate * candidate = a then some candidate else none

theorem root?_sound {K : Type} [Mul K] [DecidableEq K] {a candidate r : K}
    (h : root? a candidate = some r) : r * r = a := by
  unfold root? at h
  split at h
  · next hr => cases h; exact hr
  · cases h

/-! ## The prime field -/

def prime : Nat :=
  0x1a0111ea397fe69a4b1ba7b6434bacd764774b84f38512bf6730d2a0f6b0f6241eabfffeb153ffffb9feffffffffaaab

theorem prime_pos : 0 < prime := by decide

/-- An element of the prime field, in its least representation. -/
structure Fp where
  val : Nat
  val_lt : val < prime
  deriving DecidableEq

namespace Fp

def ofNat (n : Nat) : Fp := ⟨n % prime, Nat.mod_lt _ prime_pos⟩

def ofNat? (n : Nat) : Option Fp := if h : n < prime then some ⟨n, h⟩ else none

instance : Zero Fp := ⟨⟨0, prime_pos⟩⟩
instance : One Fp := ⟨⟨1, by decide⟩⟩

protected def add (a b : Fp) : Fp :=
  if h : a.val + b.val < prime then ⟨a.val + b.val, h⟩
  else ⟨a.val + b.val - prime, by have := a.val_lt; have := b.val_lt; omega⟩

protected def sub (a b : Fp) : Fp :=
  if h : b.val ≤ a.val then ⟨a.val - b.val, by have := a.val_lt; omega⟩
  else ⟨a.val + prime - b.val, by have := a.val_lt; have := b.val_lt; omega⟩

protected def mul (a b : Fp) : Fp := ofNat (a.val * b.val)

instance : Add Fp := ⟨Fp.add⟩
instance : Sub Fp := ⟨Fp.sub⟩
instance : Neg Fp := ⟨Fp.sub 0⟩
instance : Mul Fp := ⟨Fp.mul⟩

/-- The inverse, by Fermat's little theorem; zero for zero. -/
def inv (a : Fp) : Fp := power a (prime - 2)

instance : FieldOps Fp where
  inverse := inv

/-- The square root that the power `(p + 1) / 4` gives, if there is one. -/
def sqrt? (a : Fp) : Option Fp := root? a (power a ((prime + 1) / 4))

theorem sqrt?_sound {a r : Fp} (h : sqrt? a = some r) : r * r = a := root?_sound h

def isUpper (a : Fp) : Bool := a.val > (prime - 1) / 2

/-- The parity that tells the two square roots apart. -/
def isOdd (a : Fp) : Bool := a.val % 2 == 1

end Fp

/-! ## The quadratic extension -/

/-- An element `re + im * i` of the quadratic extension, where `i * i = -1`. -/
structure Fp2 where
  re : Fp
  im : Fp
  deriving DecidableEq

namespace Fp2

def ofNats (re im : Nat) : Fp2 := ⟨Fp.ofNat re, Fp.ofNat im⟩

instance : Zero Fp2 := ⟨⟨0, 0⟩⟩
instance : One Fp2 := ⟨⟨1, 0⟩⟩

protected def add (a b : Fp2) : Fp2 := ⟨a.re + b.re, a.im + b.im⟩

protected def sub (a b : Fp2) : Fp2 := ⟨a.re - b.re, a.im - b.im⟩

protected def neg (a : Fp2) : Fp2 := ⟨-a.re, -a.im⟩

protected def mul (a b : Fp2) : Fp2 :=
  ⟨Fp.ofNat (a.re.val * b.re.val + (prime * prime - a.im.val * b.im.val)),
   Fp.ofNat (a.re.val * b.im.val + a.im.val * b.re.val)⟩

instance : Add Fp2 := ⟨Fp2.add⟩
instance : Sub Fp2 := ⟨Fp2.sub⟩
instance : Neg Fp2 := ⟨Fp2.neg⟩
instance : Mul Fp2 := ⟨Fp2.mul⟩

def scale (a : Fp2) (k : Fp) : Fp2 := ⟨a.re * k, a.im * k⟩

/-- The conjugate, which is the power `p`. -/
def conj (a : Fp2) : Fp2 := ⟨a.re, -a.im⟩

/-- The product with `1 + i`. -/
def mulByNonResidue (a : Fp2) : Fp2 := ⟨a.re - a.im, a.re + a.im⟩

def inv (a : Fp2) : Fp2 :=
  let n := Fp.inv (a.re * a.re + a.im * a.im)
  ⟨a.re * n, -(a.im * n)⟩

instance : FieldOps Fp2 where
  inverse := inv

def sqrt? (a : Fp2) : Option Fp2 :=
  let t := power a ((prime - 3) / 4)
  let x := t * a
  let norm := t * x
  root? a (if norm = -1 then ⟨0, 1⟩ * x else power (norm + 1) ((prime - 1) / 2) * x)

theorem sqrt?_sound {a r : Fp2} (h : sqrt? a = some r) : r * r = a := root?_sound h

/-- Whether the element is in the upper half: by its imaginary part, or else by its real part. -/
def isUpper (a : Fp2) : Bool := if a.im = 0 then a.re.isUpper else a.im.isUpper

def isOdd (a : Fp2) : Bool := if a.re = 0 then a.im.isOdd else a.re.isOdd

end Fp2

end StakeKeeper.Bls
