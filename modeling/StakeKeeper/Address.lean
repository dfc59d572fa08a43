import StakeKeeper.Hex
import StakeKeeper.Hash.Keccak256

/-!
The mixed-case text of an account address, whose capitals are a checksum: a letter is capital when
the digit at its place in the Keccak-256 digest of the lower-case text is eight or more.
-/
namespace StakeKeeper.Address
set_option autoImplicit false

def digestDigits (d : Root) : List Nat := d.toList.flatMap fun b => [b.toNat / 16, b.toNat % 16]

def checksummed (a : Address) : String :=
  let digits := Hex.digits a.toList
  let checks := digestDigits (Keccak256.hash (digits.map fun c => c.toNat.toUInt8))
  String.ofList ('0' :: 'x' ::
    List.zipWith (fun c check => if check ≥ 8 then c.toUpper else c) digits checks)

end StakeKeeper.Address
