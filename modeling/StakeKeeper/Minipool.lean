import StakeKeeper.Bytes
import StakeKeeper.Time

/-!
Minipools: validators that a node runs on deposits of a staking protocol. A record is what is known
of one of them; after its first deposit it passes a safety review before it may be staked. The
review's end is an instant, and a sum past the range of instants has no value here. Main
statements: `isReady?_eq_some_iff` and `remainingReview?_eq_zero_iff`.
-/
namespace StakeKeeper
set_option autoImplicit false

/-! ## Status -/

inductive MinipoolStatus where
  /-- Created, waiting for the protocol's deposit. -/
  | initialized
  /-- Deposited; in its safety review or waiting to be staked. -/
  | prelaunch
  /-- Fully staked on the beacon chain. -/
  | staking
  /-- Timed out or scrubbed; the funds are returned. -/
  | dissolved
  /-- Closed by the operator. -/
  | finalized
  deriving DecidableEq

namespace MinipoolStatus

instance : Inhabited MinipoolStatus := ⟨initialized⟩

def code : MinipoolStatus → UInt8
  | initialized => 0
  | prelaunch => 1
  | staking => 2
  | dissolved => 3
  | finalized => 4

def ofCode? (n : UInt8) : Option MinipoolStatus :=
  match n.toNat with
  | 0 => some initialized
  | 1 => some prelaunch
  | 2 => some staking
  | 3 => some dissolved
  | 4 => some finalized
  | _ => none

theorem ofCode?_code (s : MinipoolStatus) : ofCode? s.code = some s := by cases s <;> rfl

/-- Whether a minipool of this status never returns to the beacon chain. -/
def isClosed : MinipoolStatus → Bool
  | dissolved => true
  | finalized => true
  | _ => false

end MinipoolStatus

/-! ## The beacon chain's view -/

inductive BeaconState where
  | pendingInitialized
  | pendingQueued
  | activeOngoing
  | activeExiting
  | activeSlashed
  | exitedUnslashed
  | exitedSlashed
  | withdrawalPossible
  | withdrawalDone
  deriving DecidableEq

structure BeaconStatus where
  /-- None until the deposit has been processed. -/
  index : Option UInt64
  balanceGwei : UInt64
  state : BeaconState
  deriving DecidableEq

/-! ## Records -/

structure MinipoolRecord where
  node : Address
  address : Address
  /-- Whether the protocol still knows the minipool. -/
  known : Bool
  status : MinipoolStatus
  /-- When the status last changed. -/
  statusTime : Instant
  pubkey : PubKey
  credentials : Root
  /-- The beacon chain's view, once looked up. -/
  beacon : Option BeaconStatus
  deriving DecidableEq

namespace MinipoolRecord

def empty (node address : Address) : MinipoolRecord where
  node := node
  address := address
  known := false
  status := .initialized
  statusTime := .epoch
  pubkey := Bytes.zero 48
  credentials := Bytes.zero 32
  beacon := none

def reviewEnd? (r : MinipoolRecord) (scrub : Duration) : Option Instant := r.statusTime.add? scrub

/-- Whether the minipool may be staked: it is in prelaunch and its review has ended, the very end
included. The end is computed only in prelaunch. -/
def isReady? (r : MinipoolRecord) (now : Instant) (scrub : Duration) : Option Bool :=
  if r.status = .prelaunch then (r.reviewEnd? scrub).map fun e => decide (e ≤ now) else some false

/-- The time left in the review, zero once it has ended. -/
def remainingReview? (r : MinipoolRecord) (now : Instant) (scrub : Duration) : Option Duration :=
  (r.reviewEnd? scrub).map fun e => e.since now

def validatorIndex (r : MinipoolRecord) : Option UInt64 := r.beacon.bind (·.index)

def timeInStatus (r : MinipoolRecord) (now : Instant) : Duration := now.since r.statusTime

/-! ## The review -/

theorem isReady?_eq_some_iff {r : MinipoolRecord} {now e : Instant} {scrub : Duration} {b : Bool}
    (h : r.reviewEnd? scrub = some e) :
    r.isReady? now scrub = some b ↔ b = decide (r.status = .prelaunch ∧ e ≤ now) := by
  unfold isReady?
  by_cases hs : r.status = .prelaunch
  · simp [hs, h, eq_comm]
  · simp [hs, eq_comm]

theorem isReady?_eq_true_iff {r : MinipoolRecord} {now : Instant} {scrub : Duration} :
    r.isReady? now scrub = some true ↔
      r.status = .prelaunch ∧ ∃ e, r.reviewEnd? scrub = some e ∧ e ≤ now := by
  unfold isReady?
  by_cases hs : r.status = .prelaunch
  · rw [if_pos hs, Option.map_eq_some_iff, and_iff_right hs]
    exact exists_congr fun e => and_congr_right fun _ => decide_eq_true_iff
  · rw [if_neg hs]
    exact iff_of_false nofun fun h => hs h.1

theorem remainingReview?_eq_zero_iff {r : MinipoolRecord} {now e : Instant} {scrub : Duration}
    (h : r.reviewEnd? scrub = some e) :
    r.remainingReview? now scrub = some .zero ↔ e ≤ now := by
  simp only [remainingReview?, h, Option.map_some, Option.some.injEq, Instant.le_def]
  rw [Duration.ext_iff]
  simp only [Instant.since, Duration.zero]
  omega

end MinipoolRecord

def stakeCandidates? (now : Instant) (scrub : Duration) :
    List MinipoolRecord → Option (List MinipoolRecord)
  | [] => some []
  | r :: rs => do
    let ready ← r.isReady? now scrub
    let rest ← stakeCandidates? now scrub rs
    pure (if ready then r :: rest else rest)

end StakeKeeper
