import StakeKeeper.CallError
import StakeKeeper.Registry
import StakeKeeper.Signing

/-!
A key store in memory: the bytes of each secret key under its public key.
-/
namespace StakeKeeper
set_option autoImplicit false

/-! ## Keys from outside -/

/-- What a key library says of bytes that are no key. -/
def badKeyEncoding : ValueError := .invalidKey "BLST_BAD_ENCODING"

def keyOfBytes (bytes : List UInt8) : Except ValueError ValidatorKey :=
  match Bls.SecretKey.ofBytes? bytes with
  | some key => .ok key
  | none => .error badKeyEncoding

def keyOfSeed (material : List UInt8) : Except ValueError ValidatorKey :=
  match Bls.SecretKey.derive? material with
  | some key => .ok key
  | none => .error badKeyEncoding

/-! ## The store -/

structure KeyStore where
  keys : Registry PubKey (Bytes 32)

namespace KeyStore

def empty : KeyStore := ⟨.empty⟩

def size (s : KeyStore) : Nat := s.keys.size

def isEmpty (s : KeyStore) : Bool := s.keys.isEmpty

/-- The store with a key, and the public key that it is stored under. -/
def insert (s : KeyStore) (key : ValidatorKey) : KeyStore × PubKey :=
  let pubkey := key.pubkey
  (⟨s.keys.insert pubkey key.toBytes⟩, pubkey)

/-- The store without a key, and whether it was there. -/
def remove (s : KeyStore) (pubkey : PubKey) : KeyStore × Bool :=
  (⟨s.keys.erase pubkey⟩, (s.keys.get? pubkey).isSome)

def load (s : KeyStore) (pubkey : PubKey) : Except CallError (Option ValidatorKey) :=
  match s.keys.get? pubkey with
  | none => .ok none
  | some bytes => ((keyOfBytes bytes.toList).mapError .value).map some

end KeyStore

end StakeKeeper
