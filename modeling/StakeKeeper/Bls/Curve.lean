import StakeKeeper.Bls.Field

/-!
Points of the curves `y ^ 2 = x ^ 3 + b`, in coordinates `(x : y : z)` that stand for the affine
point `(x / z ^ 2, y / z ^ 3)`, with `z = 0` at infinity. The two groups are the points of order
`order` over `Fp` and over `Fp2`.
-/
namespace StakeKeeper.Bls
set_option autoImplicit false

/-- The order of both groups of points. -/
def order : Nat := 0x73eda753299d7d483339d80809a1d80553bda402fffe5bfeffffffff00000001

/-- The parameter of the curves, without its sign, which is negative. -/
def parameter : Nat := 0xd201000000010000

structure Affine (K : Type) where
  x : K
  y : K
  deriving DecidableEq

/-- A point in weighted projective coordinates. -/
structure Point (K : Type) where
  x : K
  y : K
  z : K

namespace Point

variable {K : Type} [FieldOps K]

def infinity : Point K := ⟨1, 1, 0⟩

def ofAffine (p : Affine K) : Point K := ⟨p.x, p.y, 1⟩

def neg (p : Point K) : Point K := { p with y := -p.y }

def double (p : Point K) : Point K :=
  let a := p.x * p.x
  let b := p.y * p.y
  let c := b * b
  let t := p.x + b
  let d := t * t - a - c
  let d := d + d
  let e := a + a + a
  let x := e * e - (d + d)
  let c2 := c + c
  let c4 := c2 + c2
  let yz := p.y * p.z
  ⟨x, e * (d - x) - (c4 + c4), yz + yz⟩

variable [DecidableEq K]

def isInfinity (p : Point K) : Bool := p.z = 0

def affine? (p : Point K) : Option (Affine K) :=
  if p.isInfinity then none
  else
    let i := FieldOps.inverse p.z
    let i2 := i * i
    some ⟨p.x * i2, p.y * (i2 * i)⟩

def add (p q : Point K) : Point K :=
  if p.isInfinity then q
  else if q.isInfinity then p
  else
    let pz2 := p.z * p.z
    let qz2 := q.z * q.z
    let u1 := p.x * qz2
    let u2 := q.x * pz2
    let s1 := p.y * (qz2 * q.z)
    let s2 := q.y * (pz2 * p.z)
    if u1 = u2 then
      if s1 = s2 then p.double else infinity
    else
      let h := u2 - u1
      let r := s2 - s1
      let h2 := h * h
      let h3 := h2 * h
      let v := u1 * h2
      let x := r * r - h3 - (v + v)
      ⟨x, r * (v - x) - s1 * h3, p.z * q.z * h⟩

def mul (n : Nat) (p : Point K) : Point K :=
  (binaryDigits n).foldl (fun acc bit => let d := acc.double; if bit then d.add p else d) infinity

/-- Whether the order of a point divides the order of the groups. -/
def hasOrder (p : Point K) : Bool := (mul order p).isInfinity

end Point

/-! ## The two groups -/

def curveB : Fp := Fp.ofNat 4

def twistB : Fp2 := Fp2.ofNats 4 4

def generator : Affine Fp where
  x := Fp.ofNat 0x17f1d3a73197d7942695638c4fa9ac0fc3688c4f9774b905a14e3a3f171bac586c55e83ff97a1aeffb3af00adb22c6bb
  y := Fp.ofNat 0x08b3f481e3aaa0f1a09e30ed741d8ae4fcf5e095d5d00af600db18cb2c04b3edd03cc744a2888ae40caa232946c5e7e1

end StakeKeeper.Bls
