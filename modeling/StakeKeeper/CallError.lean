/-!
Why a call to a collaborator failed, and the texts of the reasons.
-/
namespace StakeKeeper
set_option autoImplicit false

/-- Why a number or a string of bytes stands for no domain value. -/
inductive ValueError where
  | unknownStatus (code : UInt8)
  | invalidKey (reason : String)
  deriving DecidableEq

/-- Why a call to a collaborator failed. -/
inductive CallError where
  | network (reason : String)
  | notSynced (reason : String)
  | walletNotReady (reason : String)
  | decode (reason : String)
  | simulation (reason : String)
  | keyStore (reason : String)
  | rejected (reason : String)
  | value (error : ValueError)
  deriving DecidableEq

def ValueError.message : ValueError → String
  | unknownStatus code => s!"Unknown minipool status: {code.toNat}"
  | invalidKey reason => s!"Invalid validator key: {reason}"

def CallError.message : CallError → String
  | network reason => s!"Network error: {reason}"
  | notSynced reason => s!"Client not synced: {reason}"
  | walletNotReady reason => s!"Wallet not ready: {reason}"
  | decode reason => s!"Decode error: {reason}"
  | simulation reason => s!"Simulation failed: {reason}"
  | keyStore reason => s!"Key store error: {reason}"
  | rejected reason => s!"Request rejected: {reason}"
  | value error => s!"Types error: {error.message}"

end StakeKeeper
