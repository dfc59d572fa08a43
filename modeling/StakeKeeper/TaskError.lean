import StakeKeeper.Address
import StakeKeeper.Contract

/-!
Why a query or a task of the daemon ended early, with the texts of the reasons. A reason holds the
error it comes from; `OfCallError` is how a failed call becomes one of them.
-/
namespace StakeKeeper
set_option autoImplicit false

class OfCallError (ε : Type) where
  ofCallError : CallError → ε

export OfCallError (ofCallError)

instance : OfCallError CallError := ⟨id⟩

/-! ## Queries -/

/-- Why a query of the chain has no result. -/
inductive QueryError where
  | call (error : CallError)
  | decode (minipool : Address) (field : MinipoolField) (reason : CallError)
  /-- A batch of reads was answered by another number of values. -/
  | resultCount (expected got : Nat)
  | incomplete (reason : String)
  deriving DecidableEq

instance : OfCallError QueryError := ⟨.call⟩

def MinipoolField.label : MinipoolField → String
  | known => "Exists"
  | status => "Status"
  | statusTime => "StatusTime"
  | pubkey => "Pubkey"
  | credentials => "WithdrawalCredentials"

def QueryError.message : QueryError → String
  | call error => s!"RPC error: {error.message}"
  | decode minipool field reason =>
    s!"Failed to decode {field.label} of minipool {Address.checksummed minipool}: {reason.message}"
  | resultCount expected got => s!"Multicall returned {got} values for {expected} reads"
  | incomplete reason => s!"Query incomplete: {reason}"

/-! ## Tasks -/

/-- What is wrong with a deposit that was to be signed. -/
inductive SigningFault where
  /-- The key store answered the key of another validator. -/
  | wrongKey (found : PubKey)
  | invalidSignature
  deriving DecidableEq

/-- Why a run of a task ended early. -/
inductive TaskError where
  | query (error : QueryError)
  | call (error : CallError)
  | missingKey (pubkey : PubKey)
  | signing (pubkey : PubKey) (fault : SigningFault)
  | simulation (minipool : Address) (reason : String)
  | rejected (reason : String)
  deriving DecidableEq

instance : OfCallError TaskError := ⟨.call⟩

def SigningFault.message : SigningFault → String
  | wrongKey found => s!"key store returned key for {Hex.ofBytes found}"
  | invalidSignature => "deposit signature does not verify"

def TaskError.message : TaskError → String
  | query error => s!"Query failed: {error.message}"
  | call error => s!"RPC error: {error.message}"
  | missingKey pubkey => s!"No signing key for validator {Hex.ofBytes pubkey}"
  | signing pubkey fault =>
    s!"Signing failed for validator {Hex.ofBytes pubkey}: {fault.message}"
  | simulation minipool reason =>
    s!"Simulation failed for minipool {Address.checksummed minipool}: {reason}"
  | rejected reason => s!"Rejected by coordination service: {reason}"

end StakeKeeper
