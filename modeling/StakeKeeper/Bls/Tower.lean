import StakeKeeper.Bls.Field

/-!
The field of degree twelve in which pairings take their values: a cubic extension `Fp6` of `Fp2`
by a root `v` of `1 + i`, and a quadratic extension `Fp12` of that by a root `w` of `v`. The power
of the characteristic conjugates each coefficient and multiplies it by a fixed factor.
-/
namespace StakeKeeper.Bls
set_option autoImplicit false

/-! ## Degree six -/

/-- An element `c0 + c1 * v + c2 * v ^ 2`, where `v ^ 3 = 1 + i`. -/
structure Fp6 where
  c0 : Fp2
  c1 : Fp2
  c2 : Fp2
  deriving DecidableEq

namespace Fp6

instance : Zero Fp6 := ⟨⟨0, 0, 0⟩⟩
instance : One Fp6 := ⟨⟨1, 0, 0⟩⟩

protected def add (a b : Fp6) : Fp6 := ⟨a.c0 + b.c0, a.c1 + b.c1, a.c2 + b.c2⟩

protected def sub (a b : Fp6) : Fp6 := ⟨a.c0 - b.c0, a.c1 - b.c1, a.c2 - b.c2⟩

protected def neg (a : Fp6) : Fp6 := ⟨-a.c0, -a.c1, -a.c2⟩

protected def mul (a b : Fp6) : Fp6 :=
  let t0 := a.c0 * b.c0
  let t1 := a.c1 * b.c1
  let t2 := a.c2 * b.c2
  ⟨t0 + ((a.c1 + a.c2) * (b.c1 + b.c2) - t1 - t2).mulByNonResidue,
   (a.c0 + a.c1) * (b.c0 + b.c1) - t0 - t1 + t2.mulByNonResidue,
   (a.c0 + a.c2) * (b.c0 + b.c2) - t0 - t2 + t1⟩

instance : Add Fp6 := ⟨Fp6.add⟩
instance : Sub Fp6 := ⟨Fp6.sub⟩
instance : Neg Fp6 := ⟨Fp6.neg⟩
instance : Mul Fp6 := ⟨Fp6.mul⟩

def mulByV (a : Fp6) : Fp6 := ⟨a.c2.mulByNonResidue, a.c0, a.c1⟩

def inv (a : Fp6) : Fp6 :=
  let t0 := a.c0 * a.c0 - (a.c1 * a.c2).mulByNonResidue
  let t1 := (a.c2 * a.c2).mulByNonResidue - a.c0 * a.c1
  let t2 := a.c1 * a.c1 - a.c0 * a.c2
  let n := (a.c0 * t0 + (a.c2 * t1 + a.c1 * t2).mulByNonResidue).inv
  ⟨t0 * n, t1 * n, t2 * n⟩

end Fp6

/-! ## Degree twelve -/

/-- An element `c0 + c1 * w`, where `w ^ 2 = v`. -/
structure Fp12 where
  c0 : Fp6
  c1 : Fp6
  deriving DecidableEq

namespace Fp12

instance : One Fp12 := ⟨⟨1, 0⟩⟩

protected def mul (a b : Fp12) : Fp12 :=
  let t0 := a.c0 * b.c0
  let t1 := a.c1 * b.c1
  ⟨t0 + t1.mulByV, (a.c0 + a.c1) * (b.c0 + b.c1) - t0 - t1⟩

instance : Mul Fp12 := ⟨Fp12.mul⟩

/-- The conjugate over `Fp6`, which is the power `p ^ 6`. -/
def conj (a : Fp12) : Fp12 := ⟨a.c0, -a.c1⟩

def inv (a : Fp12) : Fp12 :=
  let n := (a.c0 * a.c0 - (a.c1 * a.c1).mulByV).inv
  ⟨a.c0 * n, -(a.c1 * n)⟩

/-! ## The power of the characteristic -/

/-- The power `(p - 1) / 6` of `1 + i`, by which the power `p` of `w` is a multiple of `w`. -/
def twistFactor : Fp2 := power ⟨1, 1⟩ ((prime - 1) / 6)

/-- The power `p` of the term `a * w ^ n`, without its `w ^ n`. -/
def powerTerm (n : Nat) (a : Fp2) : Fp2 := a.conj * power twistFactor n

def frobenius (a : Fp12) : Fp12 :=
  ⟨⟨powerTerm 0 a.c0.c0, powerTerm 2 a.c0.c1, powerTerm 4 a.c0.c2⟩,
   ⟨powerTerm 1 a.c1.c0, powerTerm 3 a.c1.c1, powerTerm 5 a.c1.c2⟩⟩

end Fp12

end StakeKeeper.Bls
