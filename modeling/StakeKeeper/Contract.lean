import StakeKeeper.CallError
import StakeKeeper.Hex
import StakeKeeper.Uint256

/-!
The protocol's contracts as a client sees them: the views that can be read, the values they return,
and how a value is taken as the type that a field needs. Main statements: `asBool_eq_ok_iff` and
`asAddress_eq_ok_iff` (which values are of a kind).
-/
namespace StakeKeeper
set_option autoImplicit false

/-! ## Reads -/

/-- The caches of contract addresses that a client keeps. -/
inductive ContractRegistry where
  /-- The contracts of the chain itself. -/
  | execution
  /-- The contracts of the staking protocol. -/
  | protocol
  deriving DecidableEq

inductive MinipoolField where
  | known
  | status
  | statusTime
  | pubkey
  | credentials
  deriving DecidableEq

/-- A single view of a contract. -/
inductive ContractRead where
  | activeCount (node : Address)
  | minipoolCount (node : Address)
  | minipoolAt (node : Address) (index : UInt64)
  | scrubPeriod
  | launchTimeout
  | minimumStake
  | minipool (address : Address) (field : MinipoolField)
  deriving DecidableEq

inductive ReadValue where
  | bool (b : Bool)
  | uint (v : Uint256)
  | address (a : Address)
  | bytes (l : List UInt8)
  deriving DecidableEq

namespace ReadValue

def describe : ReadValue → String
  | bool b => s!"Bool({b})"
  | uint v => s!"Uint({v.decimal})"
  | address a => s!"Address({Hex.ofBytes a})"
  | bytes l => s!"Bytes({Hex.encode l})"

def unexpected (expected : String) (v : ReadValue) : CallError :=
  .decode s!"expected {expected}, got {v.describe}"

/-! ## Taking values -/

def asBool : ReadValue → Except CallError Bool
  | bool b => .ok b
  | v => .error (unexpected "bool" v)

def asUint : ReadValue → Except CallError Uint256
  | uint v => .ok v
  | v => .error (unexpected "uint" v)

def asUint64 (v : ReadValue) : Except CallError UInt64 := do
  let n ← v.asUint
  if n.val < UInt64.size then pure (UInt64.ofNat n.val)
  else throw (.decode s!"uint {n.decimal} overflows u64")

def asUint8 (v : ReadValue) : Except CallError UInt8 := do
  let n ← v.asUint
  if n.val < UInt8.size then pure (UInt8.ofNat n.val)
  else throw (.decode s!"uint {n.decimal} overflows u8")

def asAddress : ReadValue → Except CallError Address
  | address a => .ok a
  | v => .error (unexpected "address" v)

def asBytes : ReadValue → Except CallError (List UInt8)
  | bytes l => .ok l
  | v => .error (unexpected "bytes" v)

def asRoot (v : ReadValue) : Except CallError Root := do
  let l ← v.asBytes
  match Bytes.ofList? 32 l with
  | some b => pure b
  | none => throw (.decode s!"expected 32 bytes, got {l.length}")

def asPubKey (v : ReadValue) : Except CallError PubKey := do
  let l ← v.asBytes
  match Bytes.ofList? 48 l with
  | some b => pure b
  | none => throw (.decode s!"expected 48-byte pubkey, got {l.length}")

/-! ## Which values fit -/

theorem asBool_eq_ok_iff {v : ReadValue} {b : Bool} : v.asBool = .ok b ↔ v = .bool b := by
  cases v <;> simp [asBool]

theorem asAddress_eq_ok_iff {v : ReadValue} {a : Address} :
    v.asAddress = .ok a ↔ v = .address a := by
  cases v <;> simp [asAddress]

end ReadValue

end StakeKeeper
