import StakeKeeper.Contract
import StakeKeeper.Escrow
import StakeKeeper.Network
import StakeKeeper.Transaction

/-!
The calls that the daemon makes to its collaborators, and the type of the answer to each: the
execution client, the consensus client, the coordination service, the key store and the wallet.
-/
namespace StakeKeeper
set_option autoImplicit false

inductive Request where
  | executionSync
  /-- The header of a block, the latest if no number is given. -/
  | header (number : Option UInt64)
  /-- Reloads a cache of contract addresses. -/
  | refresh (registry : ContractRegistry)
  /-- Several views of contracts at one block. -/
  | multicall (reads : List ContractRead) (block : UInt64)
  | feeEstimate
  | simulate (sender : Transactor) (tx : TransactionRequest)
  | submit (sender : Transactor) (txs : List TransactionRequest) (fees : FeeSettings)
  | wait (hashes : List Root)
  | consensusSync
  | beaconConfig
  | validatorStatuses (pubkeys : List PubKey) (slot : Option UInt64)
  | chainHead
  | signingDomain (type : DomainType) (epoch : UInt64)
  | escrowListing
  | uploadExits (exits : List ExitUpload)
  | loadKey (pubkey : PubKey)
  | transactor
  /-- Tells an outside task of a tick's block and of how many validators its snapshot holds. -/
  | outsideTask (name : String) (block : UInt64) (validators : Nat)

/-- The type of the answer to a call. Validators that the beacon chain has not seen have no
status. -/
def Request.Reply : Request → Type
  | executionSync => SyncStatus
  | header _ => BlockHeader
  | refresh _ => Unit
  | multicall _ _ => List ReadValue
  | feeEstimate => FeeEstimate
  | simulate _ _ => GasEstimate
  | submit _ _ _ => List Root
  | wait _ => Unit
  | consensusSync => SyncStatus
  | beaconConfig => BeaconConfig
  | validatorStatuses _ _ => PubKey → Option BeaconStatus
  | chainHead => ChainHead
  | signingDomain _ _ => Root
  | escrowListing => List EscrowEntry
  | uploadExits _ => UploadOutcome
  | loadKey _ => Option ValidatorKey
  | transactor => Transactor
  | outsideTask _ _ _ => Unit

end StakeKeeper
