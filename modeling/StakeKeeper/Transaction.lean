import StakeKeeper.Bytes

/-!
Transactions that the daemon sends, what they cost, and the sync state of the clients that carry
them.
-/
namespace StakeKeeper
set_option autoImplicit false

/-! ## Clients -/

structure SyncStatus where
  isSynced : Bool
  /-- From zero to one. -/
  progress : Float

/-! ## Transactions -/

/-- The account that signs and sends transactions. -/
structure Transactor where
  source : Address
  chainId : UInt64
  deriving DecidableEq

inductive ContractCall where
  /-- Moves a minipool from prelaunch to staking with the rest of its deposit. -/
  | stake (signature : Signature) (depositRoot : Root)
  deriving DecidableEq

/-- A transaction to simulate and to send. -/
structure TransactionRequest where
  recipient : Address
  call : ContractCall
  /-- Filled in from the simulation. -/
  gasLimit : Option UInt64
  deriving DecidableEq

structure GasEstimate where
  gasLimit : UInt64
  deriving DecidableEq

/-! ## Fees -/

/-- The network's current fees, in gwei per gas. -/
structure FeeEstimate where
  maxFee : UInt64
  priorityFee : UInt64
  deriving DecidableEq

/-- The fees that a batch is sent with, in gwei per gas. -/
structure FeeSettings where
  maxFee : UInt64
  priorityFee : UInt64
  deriving DecidableEq

end StakeKeeper
