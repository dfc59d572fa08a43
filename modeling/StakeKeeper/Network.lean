import StakeKeeper.Minipool
import StakeKeeper.Uint256

/-!
The two chains at a point in time: block headers, the protocol's settings, beacon chain constants,
and the snapshot of a node's minipools at one block. Main statement: `toNat_slotAt_eq_iff` (the slot
in progress is the only one whose interval holds the time).
-/
namespace StakeKeeper
set_option autoImplicit false

/-! ## The execution chain -/

/-- What is kept of an execution block's header. -/
structure BlockHeader where
  number : UInt64
  hash : Root
  /-- Seconds since the Unix epoch. -/
  timestamp : UInt64
  deriving DecidableEq

/-- The time of a block, if it is in the range of instants. -/
def BlockHeader.time? (h : BlockHeader) : Option Instant := Instant.ofSecs? h.timestamp

structure NetworkSettings where
  scrubPeriod : Duration
  /-- How long a minipool may stay in prelaunch before it can be dissolved. -/
  launchTimeout : Duration
  /-- In wei. -/
  minimumStake : Uint256
  deriving DecidableEq

/-- Settings of zero are a sign of contract addresses that are not resolved. -/
def NetworkSettings.looksValid (s : NetworkSettings) : Bool :=
  !s.launchTimeout.isZero && s.minimumStake.val > 0

/-- A node's minipools and the network at one block. -/
structure NetworkSnapshot where
  header : BlockHeader
  settings : NetworkSettings
  node : Address
  /-- How many minipools the protocol counts as active for the node. -/
  activeCount : UInt64
  validators : List MinipoolRecord
  deriving DecidableEq

namespace NetworkSnapshot

def prelaunch (s : NetworkSnapshot) : List MinipoolRecord :=
  s.validators.filter (·.status = .prelaunch)

def stakeCandidates? (s : NetworkSnapshot) : Option (List MinipoolRecord) := do
  let now ← s.header.time?
  StakeKeeper.stakeCandidates? now s.settings.scrubPeriod s.validators

end NetworkSnapshot

/-! ## The beacon chain -/

structure BeaconConfig where
  /-- Seconds since the Unix epoch. -/
  genesisTime : UInt64
  secondsPerSlot : UInt64
  slotsPerEpoch : UInt64
  genesisFork : ForkVersion
  deriving DecidableEq

structure ChainHead where
  headSlot : UInt64
  finalizedEpoch : UInt64
  deriving DecidableEq

/-- The slot in progress at a time. It is zero before genesis and when slots have no length. -/
def BeaconConfig.slotAt (c : BeaconConfig) (t : Instant) : UInt64 :=
  UInt64.ofNat ((t.unixSecs - c.genesisTime.toNat) / c.secondsPerSlot.toNat)

theorem BeaconConfig.slotAt_toNat (c : BeaconConfig) (t : Instant) :
    (c.slotAt t).toNat = (t.unixSecs - c.genesisTime.toNat) / c.secondsPerSlot.toNat := by
  have h := t.unixSecs_lt
  have hle := Nat.div_le_self (t.unixSecs - c.genesisTime.toNat) c.secondsPerSlot.toNat
  rw [slotAt, UInt64.toNat_ofNat']
  exact Nat.mod_eq_of_lt (by omega)

/-- The interval of a slot holds the times whose slot in progress it is. -/
theorem BeaconConfig.toNat_slotAt_eq_iff (c : BeaconConfig) (t : Instant) (s : Nat)
    (hlen : 0 < c.secondsPerSlot.toNat) (hgen : c.genesisTime.toNat ≤ t.unixSecs) :
    (c.slotAt t).toNat = s ↔
      c.genesisTime.toNat + s * c.secondsPerSlot.toNat ≤ t.unixSecs ∧
        t.unixSecs < c.genesisTime.toNat + (s + 1) * c.secondsPerSlot.toNat := by
  rw [slotAt_toNat, Nat.div_eq_iff hlen, Nat.add_mul]
  omega

end StakeKeeper
