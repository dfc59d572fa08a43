import StakeKeeper.Signing

/-!
The coordination service that keeps signed exits for a node: what is uploaded to it, what it lists,
and how it answers an upload.
-/
namespace StakeKeeper
set_option autoImplicit false

structure ExitUpload where
  pubkey : PubKey
  exit : SignedVoluntaryExit
  deriving DecidableEq

/-- What the service says of one validator of the node. -/
structure EscrowEntry where
  pubkey : PubKey
  exitUploaded : Bool
  deriving DecidableEq

/-- How the service answers an upload. -/
structure UploadOutcome where
  /-- The node is not known to the service. -/
  notRegistered : Bool
  /-- The node is known, but may not upload. -/
  notAuthorized : Bool
  deriving DecidableEq

def UploadOutcome.isAccepted (o : UploadOutcome) : Bool := !o.notRegistered && !o.notAuthorized

end StakeKeeper
