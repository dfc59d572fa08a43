import StakeKeeper.Hash.Hkdf
import StakeKeeper.Bls.Compressed
import StakeKeeper.Bls.HashToCurve
import StakeKeeper.Bls.Pairing

/-!
Secret keys, their public keys, and signatures that are points of the group over `Fp2`. Main
statement: `ofBytes?_toBytes` (a key is read back from its bytes).
-/
namespace StakeKeeper.Bls
set_option autoImplicit false

/-- A secret key: a number from one up to the order of the groups. -/
structure SecretKey where
  scalar : Nat
  pos : 0 < scalar
  lt_order : scalar < order
  deriving DecidableEq

namespace SecretKey

def ofNat? (n : Nat) : Option SecretKey :=
  if h : 0 < n ∧ n < order then some ⟨n, h.1, h.2⟩ else none

theorem ofNat?_scalar (k : SecretKey) : ofNat? k.scalar = some k := by
  unfold ofNat?
  rw [dif_pos ⟨k.pos, k.lt_order⟩]

/-! ## Bytes -/

def toBytes (k : SecretKey) : Bytes 32 := Bytes.ofNatBigEndian 32 k.scalar

def ofBytes? (l : List UInt8) : Option SecretKey :=
  if l.length = 32 then ofNat? (Bytes.natOfBigEndian l) else none

theorem ofBytes?_toBytes (k : SecretKey) : ofBytes? k.toBytes.toList = some k := by
  have hk : k.scalar < Nat.pow 256 32 := Nat.lt_trans k.lt_order (by decide)
  rw [ofBytes?, if_pos (Vector.length_toList ..), toBytes, Bytes.natOfBigEndian_ofNatBigEndian,
    Nat.mod_eq_of_lt hk, ofNat?_scalar]

/-! ## Derivation -/

def firstSalt : List UInt8 := "BLS-SIG-KEYGEN-SALT-".toUTF8.toList

def deriveNumber (salt material : List UInt8) : Nat :=
  let key := (Hkdf.extract salt (material ++ [0])).toList
  Bytes.natOfBigEndian (Hkdf.expand key [0, 48] 48) % order

/-- The first key among the numbers derived under a salt that is hashed anew each time. -/
def deriveFrom (material : List UInt8) : Nat → List UInt8 → Option SecretKey
  | 0, _ => none
  | tries + 1, salt =>
    let salt := (Sha256.hash salt).toList
    (ofNat? (deriveNumber salt material)).or (deriveFrom material tries salt)

/-- How many salts are tried; one number in `order` is no key. -/
def maxTries : Nat := 256

/-- The key derived from keying material of at least 32 bytes. -/
def derive? (material : List UInt8) : Option SecretKey :=
  if material.length < 32 then none else deriveFrom material maxTries firstSalt

/-! ## Signatures -/

def pubkey (k : SecretKey) : PubKey := compress1 ((Point.ofAffine generator).mul k.scalar)

def sign (k : SecretKey) (message : List UInt8) : Signature :=
  compress2 ((hashToGroup message).mul k.scalar)

end SecretKey

/-- Whether a signature over a message is valid under a public key. Both must be points of their
groups other than infinity. -/
def verify (pubkey : PubKey) (message : List UInt8) (signature : Signature) : Bool :=
  match decompress1? pubkey, decompress2? signature, (hashToGroup message).affine? with
  | some p, some s, some h =>
    (Point.ofAffine p).hasOrder && (Point.ofAffine s).hasOrder &&
      pairsToOne [(p, h), ({ generator with y := -generator.y }, s)]
  | _, _, _ => false

end StakeKeeper.Bls
