import StakeKeeper.Hash.Sha256

/-!
Key derivation from keying material: HMAC and HKDF over SHA-256.
-/
namespace StakeKeeper
set_option autoImplicit false

/-- The HMAC-SHA-256 of a message. A key longer than a block is hashed first. -/
def hmac (key message : List UInt8) : Root :=
  let key := if key.length > 64 then (Sha256.hash key).toList else key
  let block := key ++ List.replicate (64 - key.length) 0
  let inner := Sha256.hash (block.map (· ^^^ 0x36) ++ message)
  Sha256.hash (block.map (· ^^^ 0x5c) ++ inner.toList)

namespace Hkdf

def extract (salt material : List UInt8) : Root := hmac salt material

/-- The rounds of an expansion: each hashes the one before, the context and the round's number. -/
def rounds (key context : List UInt8) : Nat → Nat → List UInt8 → List UInt8
  | 0, _, _ => []
  | n + 1, i, previous =>
    let next := (hmac key (previous ++ context ++ [UInt8.ofNat i])).toList
    next ++ rounds key context n (i + 1) next

def expand (key context : List UInt8) (length : Nat) : List UInt8 :=
  (rounds key context ((length + 31) / 32) 1 []).take length

end Hkdf

end StakeKeeper
