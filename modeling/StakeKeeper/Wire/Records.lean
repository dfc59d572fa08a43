import StakeKeeper.Escrow
import StakeKeeper.Network
import StakeKeeper.Contract
import StakeKeeper.Transaction
import StakeKeeper.Wire.Scalars

/-!
The written form of every record and choice that is kept or sent: the names of fields and
alternatives, and their order.
-/
namespace StakeKeeper
set_option autoImplicit false
open Wire

/-! ## Minipools -/

def MinipoolStatus.codec : Codec MinipoolStatus :=
  .name [("Initialized", .initialized), ("Prelaunch", .prelaunch), ("Staking", .staking),
    ("Dissolved", .dissolved), ("Finalized", .finalized)]

def BeaconState.codec : Codec BeaconState :=
  .name [("pending_initialized", .pendingInitialized), ("pending_queued", .pendingQueued),
    ("active_ongoing", .activeOngoing), ("active_exiting", .activeExiting),
    ("active_slashed", .activeSlashed), ("exited_unslashed", .exitedUnslashed),
    ("exited_slashed", .exitedSlashed), ("withdrawal_possible", .withdrawalPossible),
    ("withdrawal_done", .withdrawalDone)]

def BeaconStatus.codec : Codec BeaconStatus :=
  .record
    (.cons "index" Codec.uint64.option <| .cons "balance_gwei" .uint64 <|
      .cons "state" BeaconState.codec .nil)
    (fun (index, balance, state, _) => ⟨index, balance, state⟩)
    (fun s => (s.index, s.balanceGwei, s.state, ()))

def MinipoolRecord.codec : Codec MinipoolRecord :=
  .record
    (.cons "node_address" (.fixed 20) <| .cons "minipool_address" (.fixed 20) <|
      .cons "exists" .bool <| .cons "status" MinipoolStatus.codec <|
      .cons "status_time" .instant <| .cons "pubkey" (.fixed 48) <|
      .cons "withdrawal_credentials" (.fixed 32) <| .cons "beacon" BeaconStatus.codec.option .nil)
    (fun (node, address, known, status, time, pubkey, credentials, beacon, _) =>
      ⟨node, address, known, status, time, pubkey, credentials, beacon⟩)
    (fun r => (r.node, r.address, r.known, r.status, r.statusTime, r.pubkey, r.credentials,
      r.beacon, ()))

/-! ## Network -/

def BlockHeader.codec : Codec BlockHeader :=
  .record
    (.cons "number" .uint64 <| .cons "hash" (.fixed 32) <| .cons "timestamp" .uint64 .nil)
    (fun (number, hash, timestamp, _) => ⟨number, hash, timestamp⟩)
    (fun h => (h.number, h.hash, h.timestamp, ()))

def NetworkSettings.codec : Codec NetworkSettings :=
  .record
    (.cons "scrub_period" .duration <| .cons "launch_timeout" .duration <|
      .cons "minimum_stake" .uint256 .nil)
    (fun (scrub, timeout, stake, _) => ⟨scrub, timeout, stake⟩)
    (fun s => (s.scrubPeriod, s.launchTimeout, s.minimumStake, ()))

def NetworkSnapshot.codec : Codec NetworkSnapshot :=
  .record
    (.cons "header" BlockHeader.codec <| .cons "settings" NetworkSettings.codec <|
      .cons "node_address" (.fixed 20) <| .cons "active_minipool_count" .uint64 <|
      .cons "validators" MinipoolRecord.codec.list .nil)
    (fun (header, settings, node, active, validators, _) =>
      ⟨header, settings, node, active, validators⟩)
    (fun s => (s.header, s.settings, s.node, s.activeCount, s.validators, ()))

def BeaconConfig.codec : Codec BeaconConfig :=
  .record
    (.cons "genesis_time" .uint64 <| .cons "seconds_per_slot" .uint64 <|
      .cons "slots_per_epoch" .uint64 <| .cons "genesis_fork_version" (.fixed 4) .nil)
    (fun (genesis, seconds, slots, fork, _) => ⟨genesis, seconds, slots, fork⟩)
    (fun c => (c.genesisTime, c.secondsPerSlot, c.slotsPerEpoch, c.genesisFork, ()))

def ChainHead.codec : Codec ChainHead :=
  .record
    (.cons "head_slot" .uint64 <| .cons "finalized_epoch" .uint64 .nil)
    (fun (slot, epoch, _) => ⟨slot, epoch⟩)
    (fun h => (h.headSlot, h.finalizedEpoch, ()))

/-! ## Signed messages -/

def DomainType.codec : Codec DomainType :=
  .name [("Deposit", .deposit), ("VoluntaryExit", .voluntaryExit)]

def VoluntaryExit.codec : Codec VoluntaryExit :=
  .record
    (.cons "epoch" .uint64 <| .cons "validator_index" .uint64 .nil)
    (fun (epoch, index, _) => ⟨epoch, index⟩)
    (fun m => (m.epoch, m.validatorIndex, ()))

def SignedVoluntaryExit.codec : Codec SignedVoluntaryExit :=
  .record
    (.cons "message" VoluntaryExit.codec <| .cons "signature" (.fixed 96) .nil)
    (fun (message, signature, _) => ⟨message, signature⟩)
    (fun e => (e.message, e.signature, ()))

def DepositMessage.codec : Codec DepositMessage :=
  .record
    (.cons "pubkey" (.fixed 48) <| .cons "withdrawal_credentials" (.fixed 32) <|
      .cons "amount" .uint64 .nil)
    (fun (pubkey, credentials, amount, _) => ⟨pubkey, credentials, amount⟩)
    (fun m => (m.pubkey, m.credentials, m.amountGwei, ()))

def DepositData.codec : Codec DepositData :=
  .record
    (.cons "pubkey" (.fixed 48) <| .cons "withdrawal_credentials" (.fixed 32) <|
      .cons "amount" .uint64 <| .cons "signature" (.fixed 96) .nil)
    (fun (pubkey, credentials, amount, signature, _) => ⟨pubkey, credentials, amount, signature⟩)
    (fun d => (d.pubkey, d.credentials, d.amountGwei, d.signature, ()))

/-! ## The coordination service -/

def ExitUpload.codec : Codec ExitUpload :=
  .record
    (.cons "pubkey" (.fixed 48) <| .cons "exit_message" SignedVoluntaryExit.codec .nil)
    (fun (pubkey, exit, _) => ⟨pubkey, exit⟩)
    (fun u => (u.pubkey, u.exit, ()))

def EscrowEntry.codec : Codec EscrowEntry :=
  .record
    (.cons "pubkey" (.fixed 48) <| .cons "exit_message_uploaded" .bool .nil)
    (fun (pubkey, uploaded, _) => ⟨pubkey, uploaded⟩)
    (fun e => (e.pubkey, e.exitUploaded, ()))

def UploadOutcome.codec : Codec UploadOutcome :=
  .record
    (.cons "not_registered" .bool <| .cons "not_authorized" .bool .nil)
    (fun (notRegistered, notAuthorized, _) => ⟨notRegistered, notAuthorized⟩)
    (fun o => (o.notRegistered, o.notAuthorized, ()))

/-! ## The execution client -/

def SyncStatus.codec : Codec SyncStatus :=
  .record
    (.cons "is_synced" .bool <| .cons "progress" .double .nil)
    (fun (synced, progress, _) => ⟨synced, progress⟩)
    (fun s => (s.isSynced, s.progress, ()))

def ContractRegistry.codec : Codec ContractRegistry :=
  .name [("Execution", .execution), ("Protocol", .protocol)]

def MinipoolField.codec : Codec MinipoolField :=
  .name [("Exists", .known), ("Status", .status), ("StatusTime", .statusTime),
    ("Pubkey", .pubkey), ("WithdrawalCredentials", .credentials)]

def ContractRead.nodeCodec : Codec Address :=
  .record (.cons "node" (.fixed 20) .nil) (fun (node, _) => node) (fun node => (node, ()))

def ContractRead.minipoolAtCodec : Codec (Address × UInt64) :=
  .record (.cons "node" (.fixed 20) <| .cons "index" .uint64 .nil)
    (fun (node, index, _) => (node, index)) (fun (node, index) => (node, index, ()))

def ContractRead.minipoolCodec : Codec (Address × MinipoolField) :=
  .record (.cons "minipool" (.fixed 20) <| .cons "field" MinipoolField.codec .nil)
    (fun (address, field, _) => (address, field)) (fun (address, field) => (address, field, ()))

def ContractRead.codec : Codec ContractRead :=
  .choice [
    .of "NodeActiveMinipoolCount" nodeCodec .activeCount fun
      | .activeCount node => some node
      | _ => none,
    .of "NodeMinipoolCount" nodeCodec .minipoolCount fun
      | .minipoolCount node => some node
      | _ => none,
    .of "NodeMinipoolAt" minipoolAtCodec (fun (node, index) => .minipoolAt node index) fun
      | .minipoolAt node index => some (node, index)
      | _ => none,
    .unit "ScrubPeriod" .scrubPeriod,
    .unit "LaunchTimeout" .launchTimeout,
    .unit "MinimumStake" .minimumStake,
    .of "Minipool" minipoolCodec (fun (address, field) => .minipool address field) fun
      | .minipool address field => some (address, field)
      | _ => none]

def ReadValue.codec : Codec ReadValue :=
  .choice [
    .of "Bool" .bool .bool fun
      | .bool b => some b
      | _ => none,
    .of "Uint" .uint256 .uint fun
      | .uint v => some v
      | _ => none,
    .of "Address" (.fixed 20) .address fun
      | .address a => some a
      | _ => none,
    .of "Bytes" .bytes .bytes fun
      | .bytes l => some l
      | _ => none]

/-! ## Transactions -/

def Transactor.codec : Codec Transactor :=
  .record
    (.cons "from" (.fixed 20) <| .cons "chain_id" .uint64 .nil)
    (fun (source, chainId, _) => ⟨source, chainId⟩)
    (fun t => (t.source, t.chainId, ()))

def ContractCall.stakeCodec : Codec (Signature × Root) :=
  .record
    (.cons "validator_signature" (.fixed 96) <| .cons "deposit_data_root" (.fixed 32) .nil)
    (fun (signature, root, _) => (signature, root))
    (fun (signature, root) => (signature, root, ()))

def ContractCall.codec : Codec ContractCall :=
  .choice [
    .of "Stake" stakeCodec (fun (signature, root) => .stake signature root) fun
      | .stake signature root => some (signature, root)]

def TransactionRequest.codec : Codec TransactionRequest :=
  .record
    (.cons "to" (.fixed 20) <| .cons "call" ContractCall.codec <|
      .cons "gas_limit" Codec.uint64.option .nil)
    (fun (recipient, call, gasLimit, _) => ⟨recipient, call, gasLimit⟩)
    (fun t => (t.recipient, t.call, t.gasLimit, ()))

def GasEstimate.codec : Codec GasEstimate :=
  .record (.cons "gas_limit" .uint64 .nil) (fun (limit, _) => ⟨limit⟩) (fun e => (e.gasLimit, ()))

def FeeEstimate.codec : Codec FeeEstimate :=
  .record
    (.cons "max_fee_per_gas_gwei" .uint64 <| .cons "max_priority_fee_per_gas_gwei" .uint64 .nil)
    (fun (maxFee, priorityFee, _) => ⟨maxFee, priorityFee⟩)
    (fun f => (f.maxFee, f.priorityFee, ()))

def FeeSettings.codec : Codec FeeSettings :=
  .record
    (.cons "max_fee_per_gas_gwei" .uint64 <| .cons "max_priority_fee_per_gas_gwei" .uint64 .nil)
    (fun (maxFee, priorityFee, _) => ⟨maxFee, priorityFee⟩)
    (fun f => (f.maxFee, f.priorityFee, ()))

end StakeKeeper
