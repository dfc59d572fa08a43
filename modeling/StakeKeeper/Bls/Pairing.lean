import StakeKeeper.Bls.Curve
import StakeKeeper.Bls.Tower

/-!
Products of pairings. A pairing of a point over `Fp` with a point over `Fp2` is a value in `Fp12`;
`pairsToOne` tests whether the product of several is one.
-/
namespace StakeKeeper.Bls
set_option autoImplicit false

/-! ## Lines -/

/-- The value at `p` of the line through the image of the twist's point `q` whose slope is
`slope / run`, up to a factor that the final power removes. -/
def lineAt (slope run : Fp2) (q : Affine Fp2) (p : Affine Fp) : Fp12 :=
  ⟨⟨slope * q.x - run * q.y, -slope.scale p.x, 0⟩, ⟨0, run.scale p.y, 0⟩⟩

def tangentAt (t : Point Fp2) (p : Affine Fp) : Fp12 :=
  let xx := t.x * t.x
  let slope := xx + xx + xx
  let yy := t.y * t.y
  let zz := t.z * t.z
  let yz := t.y * t.z
  ⟨⟨slope * t.x - (yy + yy), -(slope * zz).scale p.x, 0⟩,
   ⟨0, ((yz + yz) * zz).scale p.y, 0⟩⟩

def chordAt (t : Point Fp2) (q : Affine Fp2) (p : Affine Fp) : Fp12 :=
  let zz := t.z * t.z
  lineAt (t.y - q.y * (zz * t.z)) (t.z * (t.x - q.x * zz)) q p

/-! ## The loop -/

/-- A pair of points, and the multiple of the second that the loop has reached. -/
structure Walker where
  p : Affine Fp
  q : Affine Fp2
  t : Point Fp2

/-- The walkers after a doubling, and the value so far times their lines. -/
def doubleAll : List Walker → Fp12 → List Walker × Fp12
  | [], f => ([], f)
  | w :: ws, f =>
    let (ws, f) := doubleAll ws (f * tangentAt w.t w.p)
    ({ w with t := w.t.double } :: ws, f)

def addAll : List Walker → Fp12 → List Walker × Fp12
  | [], f => ([], f)
  | w :: ws, f =>
    let (ws, f) := addAll ws (f * chordAt w.t w.q w.p)
    ({ w with t := w.t.add (.ofAffine w.q) } :: ws, f)

def loopStep (state : List Walker × Fp12) (bit : Bool) : List Walker × Fp12 :=
  let (ws, f) := doubleAll state.1 (state.2 * state.2)
  if bit then addAll ws f else (ws, f)

/-- The product of the values of all pairs before the final power. -/
def loopProduct (pairs : List (Affine Fp × Affine Fp2)) : Fp12 :=
  let start := pairs.map fun (p, q) => Walker.mk p q (.ofAffine q)
  (((binaryDigits parameter).drop 1).foldl loopStep (start, 1)).2

/-! ## The final power -/

/-- The power `(p ^ 6 - 1) * (p ^ 2 + 1)`. Its values have their conjugate as inverse. -/
def easyPower (f : Fp12) : Fp12 :=
  let f := f.conj * f.inv
  f.frobenius.frobenius * f

/-- The power of the parameter `x` of the curve, which is negative, of a value whose conjugate is
its inverse. -/
def powerX (f : Fp12) : Fp12 := (power f parameter).conj

/-- The power `(x - 1) ^ 2 * (x + p) * (x ^ 2 + p ^ 2 - 1) + 3`, three times the exponent
`(p ^ 4 - p ^ 2 + 1) / order` that is left. The factor three is prime to the order, so that no
value but one becomes one by it. -/
def hardPower (f : Fp12) : Fp12 :=
  let a := powerX f * f.conj
  let b := powerX a * a.conj
  let c := powerX b * b.frobenius
  let d := powerX (powerX c) * c.frobenius.frobenius * c.conj
  d * (f * f * f)

def finalPower (f : Fp12) : Fp12 := hardPower (easyPower f)

def pairsToOne (pairs : List (Affine Fp × Affine Fp2)) : Bool := finalPower (loopProduct pairs) = 1

end StakeKeeper.Bls
