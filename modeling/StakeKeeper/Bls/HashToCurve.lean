import StakeKeeper.Hash.Sha256
import StakeKeeper.Bls.Curve

/-!
Hashing a message to a point of the group over `Fp2`: the message is expanded to two field
elements, each is mapped to a curve that is isogenous to the twist, and from there to the twist;
the sum of the two points is brought into the group.
-/
namespace StakeKeeper.Bls
set_option autoImplicit false

/-! ## Field elements from a message -/

def domainTag : List UInt8 := "BLS_SIG_BLS12381G2_XMD:SHA-256_SSWU_RO_POP_".toUTF8.toList

def domainSuffix : List UInt8 := domainTag ++ [UInt8.ofNat domainTag.length]

/-- The digests number `i` and on of an expansion, from the seed and the digest before. -/
def expandFrom (seed : List UInt8) : Nat → Nat → List UInt8 → List UInt8
  | 0, _, _ => []
  | n + 1, i, previous =>
    let mixed := List.zipWith (· ^^^ ·) seed previous
    let next := (Sha256.hash (mixed ++ UInt8.ofNat i :: domainSuffix)).toList
    next ++ expandFrom seed n (i + 1) next

/-- A message expanded to `32 * count` bytes. -/
def expandMessage (message : List UInt8) (count : Nat) : List UInt8 :=
  let size := (Bytes.ofNatBigEndian 2 (32 * count)).toList
  let seed := (Sha256.hash (List.replicate 64 0 ++ message ++ size ++ 0 :: domainSuffix)).toList
  expandFrom seed count 1 (List.replicate 32 0)

/-- The two elements of `Fp2` that a message is hashed to. -/
def hashToField (message : List UInt8) : Fp2 × Fp2 :=
  let bytes := expandMessage message 8
  let element (i : Nat) := Bytes.natOfBigEndian ((bytes.drop (64 * i)).take 64)
  (Fp2.ofNats (element 0) (element 1), Fp2.ofNats (element 2) (element 3))

/-! ## The isogenous curve -/

def isogenousA : Fp2 := Fp2.ofNats 0 240

def isogenousB : Fp2 := Fp2.ofNats 1012 1012

/-- The non-square of the map to the isogenous curve. -/
def nonSquare : Fp2 := -Fp2.ofNats 2 1

def isogenousRight (x : Fp2) : Fp2 := (x * x + isogenousA) * x + isogenousB

/-- The point of the isogenous curve for a field element: the first of two candidates whose right
side is a square, with the root of the element's own parity. -/
def mapToIsogenous (u : Fp2) : Affine Fp2 :=
  let zu := nonSquare * (u * u)
  let t := zu * zu + zu
  let x1 :=
    if t = 0 then isogenousB * (nonSquare * isogenousA).inv
    else -isogenousB * isogenousA.inv * (1 + t.inv)
  let (x, y) :=
    match (isogenousRight x1).sqrt? with
    | some y => (x1, y)
    | none =>
      let x2 := zu * x1
      (x2, ((isogenousRight x2).sqrt?).getD 0)
  ⟨x, if u.isOdd = y.isOdd then y else -y⟩

/-! ## The isogeny -/

/-- The value of a polynomial whose coefficients rise in degree. -/
def evaluate (coefficients : List Fp2) (x : Fp2) : Fp2 :=
  coefficients.foldr (fun c acc => acc * x + c) 0

def isogenyXNum : List Fp2 := [
  .ofNats
    0x5c759507e8e333ebb5b7a9a47d7ed8532c52d39fd3a042a88b58423c50ae15d5c2638e343d9c71c6238aaaaaaaa97d6
    0x5c759507e8e333ebb5b7a9a47d7ed8532c52d39fd3a042a88b58423c50ae15d5c2638e343d9c71c6238aaaaaaaa97d6,
  .ofNats 0
    0x11560bf17baa99bc32126fced787c88f984f87adf7ae0c7f9a208c6b4f20a4181472aaa9cb8d555526a9ffffffffc71a,
  .ofNats
    0x11560bf17baa99bc32126fced787c88f984f87adf7ae0c7f9a208c6b4f20a4181472aaa9cb8d555526a9ffffffffc71e
    0x8ab05f8bdd54cde190937e76bc3e447cc27c3d6fbd7063fcd104635a790520c0a395554e5c6aaaa9354ffffffffe38d,
  .ofNats
    0x171d6541fa38ccfaed6dea691f5fb614cb14b4e7f4e810aa22d6108f142b85757098e38d0f671c7188e2aaaaaaaa5ed1
    0]

def isogenyXDen : List Fp2 := [.ofNats 0 (prime - 72), .ofNats 12 (prime - 12), 1]

/-- The numerator of the second coordinate, by which the second coordinate is multiplied. -/
def isogenyYNum : List Fp2 := [
  .ofNats
    0x1530477c7ab4113b59a4c18b076d11930f7da5d4a07f649bf54439d87d27e500fc8c25ebf8c92f6812cfc71c71c6d706
    0x1530477c7ab4113b59a4c18b076d11930f7da5d4a07f649bf54439d87d27e500fc8c25ebf8c92f6812cfc71c71c6d706,
  .ofNats 0
    0x5c759507e8e333ebb5b7a9a47d7ed8532c52d39fd3a042a88b58423c50ae15d5c2638e343d9c71c6238aaaaaaaa97be,
  .ofNats
    0x11560bf17baa99bc32126fced787c88f984f87adf7ae0c7f9a208c6b4f20a4181472aaa9cb8d555526a9ffffffffc71c
    0x8ab05f8bdd54cde190937e76bc3e447cc27c3d6fbd7063fcd104635a790520c0a395554e5c6aaaa9354ffffffffe38f,
  .ofNats
    0x124c9ad43b6cf79bfbf7043de3811ad0761b0f37a1e26286b0e977c69aa274524e79097a56dc4bd9e1b371c71c718b10
    0]

def isogenyYDen : List Fp2 :=
  [.ofNats (prime - 432) (prime - 432), .ofNats 0 (prime - 216), .ofNats 18 (prime - 18), 1]

/-- The isogeny, in projective coordinates so that nothing is inverted. -/
def isogeny (p : Affine Fp2) : Point Fp2 :=
  let xn := evaluate isogenyXNum p.x
  let xd := evaluate isogenyXDen p.x
  let yn := p.y * evaluate isogenyYNum p.x
  let yd := evaluate isogenyYDen p.x
  let z := xd * yd
  ⟨xn * xd * (yd * yd), yn * (yd * yd) * (xd * xd * xd), z⟩

/-! ## Into the group -/

/-- The factor that the power of the characteristic brings to the first coordinate. -/
def twistX : Fp2 := (power ⟨1, 1⟩ ((prime - 1) / 3) : Fp2).inv

def twistY : Fp2 := (power ⟨1, 1⟩ ((prime - 1) / 2) : Fp2).inv

/-- The map of the twist to itself that the power of the characteristic induces. -/
def twistMap (p : Point Fp2) : Point Fp2 := ⟨p.x.conj * twistX, p.y.conj * twistY, p.z.conj⟩

def mulByParameter (p : Point Fp2) : Point Fp2 := (p.mul parameter).neg

/-- Brings a point of the twist into the group: for the parameter `x` and the map `m`, the multiple
`(x ^ 2 - x - 1) * p + (x - 1) * m p + m (m (2 * p))`. -/
def clearCofactor (p : Point Fp2) : Point Fp2 :=
  let xp := mulByParameter p
  let a := xp.add p.neg
  let b := (mulByParameter a).add p.neg
  let c := (mulByParameter (twistMap p)).add (twistMap p).neg
  (b.add c).add (twistMap (twistMap p.double))

/-! ## Hashing to the group -/

def hashToGroup (message : List UInt8) : Point Fp2 :=
  let (u, v) := hashToField message
  clearCofactor ((isogeny (mapToIsogenous u)).add (isogeny (mapToIsogenous v)))

end StakeKeeper.Bls
