import StakeKeeper.Address
import StakeKeeper.CallError
import StakeKeeper.Contract
import StakeKeeper.Network
import StakeKeeper.Transaction

/-!
An execution chain in memory. It answers reads of the protocol's contracts, stakes the minipools
that batches of transactions are sent to, and remembers what was asked of it.
-/
namespace StakeKeeper.Devnet
set_option autoImplicit false

structure Batch where
  txs : List TransactionRequest
  fees : FeeSettings

/-- The chain, and what was asked of it so far. -/
structure Chain where
  header : BlockHeader
  settings : NetworkSettings
  /-- In the order in which they were added; several may share an address. -/
  minipools : List MinipoolRecord
  fee : FeeEstimate
  /-- Minipools whose transactions revert. -/
  reverting : List Address
  /-- A minipool count that is reported for every node, whatever is stored. -/
  reportedCount : Option UInt64
  synced : Bool
  failReads : Bool
  /-- The number of reads and the block of each batch. -/
  multicalls : List (Nat × UInt64)
  refreshed : List ContractRegistry
  simulated : List Address
  submitted : List Batch
  waited : List Root
  /-- How many transactions were sent. -/
  sent : Nat

namespace Chain

def new (header : BlockHeader) (settings : NetworkSettings) : Chain where
  header := header
  settings := settings
  minipools := []
  fee := { maxFee := 20, priorityFee := 1 }
  reverting := []
  reportedCount := none
  synced := true
  failReads := false
  multicalls := []
  refreshed := []
  simulated := []
  submitted := []
  waited := []
  sent := 0

/-- The first minipool at an address. -/
def minipool? (c : Chain) (a : Address) : Option MinipoolRecord := c.minipools.find? (·.address = a)

/-- The chain with one more block; none if no number is left for it. -/
def advance? (c : Chain) (timestamp : UInt64) : Option Chain :=
  if c.header.number.toNat + 1 < UInt64.size then
    some { c with header := { c.header with number := c.header.number + 1, timestamp } }
  else none

/-! ## Answers -/

def ownedBy (c : Chain) (node : Address) : List MinipoolRecord :=
  c.minipools.filter (·.node = node)

def fieldValue (r : MinipoolRecord) : MinipoolField → ReadValue
  | .known => .bool r.known
  | .status => .uint (.ofUInt64 r.status.code.toUInt64)
  | .statusTime => .uint (.ofUInt64 (UInt64.ofNat r.statusTime.unixSecs))
  | .pubkey => .bytes r.pubkey.toList
  | .credentials => .bytes r.credentials.toList

def missingValue : MinipoolField → ReadValue
  | .known => .bool false
  | _ => .uint .zero

def answer (c : Chain) : ContractRead → Except CallError ReadValue
  | .activeCount node =>
    .ok (.uint (.ofUInt64 (UInt64.ofNat
      ((c.ownedBy node).filter (·.status ≠ .finalized)).length)))
  | .minipoolCount node =>
    .ok (.uint (.ofUInt64 (c.reportedCount.getD (UInt64.ofNat (c.ownedBy node).length))))
  | .minipoolAt node index =>
    match (c.ownedBy node)[index.toNat]? with
    | some r => .ok (.address r.address)
    | none => .error (.network s!"minipool index {index} out of range")
  | .scrubPeriod => .ok (.uint (.ofUInt64 (UInt64.ofNat c.settings.scrubPeriod.secs)))
  | .launchTimeout => .ok (.uint (.ofUInt64 (UInt64.ofNat c.settings.launchTimeout.secs)))
  | .minimumStake => .ok (.uint c.settings.minimumStake)
  | .minipool a field =>
    .ok (match c.minipool? a with
      | some r => fieldValue r field
      | none => missingValue field)

def syncStatus (c : Chain) : SyncStatus := if c.synced then ⟨true, 1.0⟩ else ⟨false, 0.5⟩

/-- The header of a block; only the latest is kept. -/
def headerAt (c : Chain) : Option UInt64 → Except CallError BlockHeader
  | none => .ok c.header
  | some n => if n = c.header.number then .ok c.header
      else .error (.network s!"block {n} not available")

/-- The answers to a batch of reads, up to the first that fails. -/
def multicall (c : Chain) (reads : List ContractRead) (block : UInt64) :
    Except CallError (List ReadValue) × Chain :=
  if c.failReads then (.error (.network "multicall failed"), c)
  else (reads.mapM c.answer, { c with multicalls := c.multicalls ++ [(reads.length, block)] })

/-! ## Transactions -/

def stakeGas : UInt64 := 180000

def simulate (c : Chain) (tx : TransactionRequest) : Except CallError GasEstimate × Chain :=
  let result :=
    if c.reverting.contains tx.recipient then
      .error (.simulation s!"execution reverted for {Address.checksummed tx.recipient}")
    else .ok ⟨stakeGas⟩
  (result, { c with simulated := c.simulated ++ [tx.recipient] })

/-- The minipools after the first at an address was staked. -/
def stakeFirst (a : Address) (now : Instant) : List MinipoolRecord → List MinipoolRecord
  | [] => []
  | r :: rest =>
    if r.address = a then { r with status := .staking, statusTime := now } :: rest
    else r :: stakeFirst a now rest

def txHash (n : Nat) : Root := Bytes.ofNatBigEndian 32 (n % UInt64.size)

/-- The chain after a batch of transactions and their hashes; none if the block's time is out of
range. -/
def submit? (c : Chain) (txs : List TransactionRequest) (fees : FeeSettings) :
    Option (List Root × Chain) := do
  let now ← c.header.time?
  let minipools := txs.foldl (fun ms tx => stakeFirst tx.recipient now ms) c.minipools
  let hashes := (List.range' (c.sent + 1) txs.length).map txHash
  pure (hashes,
    { c with minipools, sent := c.sent + txs.length, submitted := c.submitted ++ [⟨txs, fees⟩] })

end Chain

end StakeKeeper.Devnet
