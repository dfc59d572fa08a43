import StakeKeeper.Network
import StakeKeeper.Registry
import StakeKeeper.Signing
import StakeKeeper.Transaction

/-!
A beacon chain in memory: its constants, its head, and the validators it has seen.
-/
namespace StakeKeeper.Devnet
set_option autoImplicit false

/-- The beacon chain, and what was asked of it so far. -/
structure Beacon where
  config : BeaconConfig
  head : ChainHead
  statuses : Registry PubKey BeaconStatus
  synced : Bool
  configCalls : Nat
  /-- The number of validators and the slot of each query. -/
  statusQueries : List (Nat × Option UInt64)

namespace Beacon

def new (config : BeaconConfig) : Beacon := ⟨config, ⟨0, 0⟩, .empty, true, 0, []⟩

/-- The chain with a finalized epoch. The head is at least two epochs further; none if that epoch
or its slot is out of range. -/
def finalize? (b : Beacon) (epoch : UInt64) : Option Beacon :=
  let headEpoch := epoch.toNat + 2
  let slot := headEpoch * b.config.slotsPerEpoch.toNat
  if headEpoch < UInt64.size ∧ slot < UInt64.size then
    some { b with head := ⟨UInt64.ofNat (max b.head.headSlot.toNat slot), epoch⟩ }
  else none

def syncStatus (b : Beacon) : SyncStatus := if b.synced then ⟨true, 1.0⟩ else ⟨false, 0.25⟩

def statusesOf (b : Beacon) (keys : List PubKey) (key : PubKey) : Option BeaconStatus :=
  if keys.contains key then b.statuses.get? key else none

def validatorsRoot : Root := Vector.replicate 32 0x4b

def domain (b : Beacon) (type : DomainType) : Root :=
  computeDomain type b.config.genesisFork validatorsRoot

end Beacon

end StakeKeeper.Devnet
