import StakeKeeper.Hex
import StakeKeeper.Merkle
import StakeKeeper.Bls.SecretKey

/-!
What validators sign: deposits and voluntary exits, each under a domain that ties the signature to
a fork and to the kind of message. A message is signed through its signing root, the root of the
pair of its own root and the domain.
-/
namespace StakeKeeper
set_option autoImplicit false
open Merkle

/-! ## Domains -/

inductive DomainType where
  | deposit
  | voluntaryExit
  deriving DecidableEq

def DomainType.bytes : DomainType → List UInt8
  | deposit => [3, 0, 0, 0]
  | voluntaryExit => [4, 0, 0, 0]

/-- The root that stands for a fork of a chain. -/
def forkTree (fork : ForkVersion) (validatorsRoot : Root) : Tree :=
  .node (.leaf (Tree.chunk fork.toList)) (.leaf validatorsRoot)

/-- The domain of a kind of message on a fork. -/
def computeDomain (type : DomainType) (fork : ForkVersion) (validatorsRoot : Root) : Root :=
  Tree.chunk (type.bytes ++ (forkTree fork validatorsRoot).root.toList.take 28)

/-- Deposits are signed for the first fork, before there are validators. -/
def depositDomain (genesisFork : ForkVersion) : Root :=
  computeDomain .deposit genesisFork (Bytes.zero 32)

/-! ## Messages -/

/-- A validator's request to leave the beacon chain from an epoch on. -/
structure VoluntaryExit where
  epoch : UInt64
  validatorIndex : UInt64
  deriving DecidableEq

structure DepositMessage where
  pubkey : PubKey
  credentials : Root
  amountGwei : UInt64
  deriving DecidableEq

structure DepositData where
  pubkey : PubKey
  credentials : Root
  amountGwei : UInt64
  signature : Signature
  deriving DecidableEq

def VoluntaryExit.tree (m : VoluntaryExit) : Tree :=
  .ofParts 1 [.ofNumber m.epoch, .ofNumber m.validatorIndex]

def DepositMessage.tree (m : DepositMessage) : Tree :=
  .ofParts 2 [.ofBytes 1 m.pubkey.toList, .leaf m.credentials, .ofNumber m.amountGwei]

def DepositData.tree (d : DepositData) : Tree :=
  .ofParts 2 [.ofBytes 1 d.pubkey.toList, .leaf d.credentials, .ofNumber d.amountGwei,
    .ofBytes 2 d.signature.toList]

def DepositData.message (d : DepositData) : DepositMessage where
  pubkey := d.pubkey
  credentials := d.credentials
  amountGwei := d.amountGwei

/-- The pair of a message and a domain. -/
def signingTree (message : Tree) (domain : Root) : Tree := .node message (.leaf domain)

def VoluntaryExit.signingRoot (m : VoluntaryExit) (domain : Root) : Root :=
  (signingTree m.tree domain).root

def DepositMessage.signingRoot (m : DepositMessage) (domain : Root) : Root :=
  (signingTree m.tree domain).root

/-! ## Signed messages -/

structure SignedVoluntaryExit where
  message : VoluntaryExit
  signature : Signature
  deriving DecidableEq

/-- What a minipool still deposits when it is staked. -/
def stakeAmountGwei : UInt64 := 31000000000

def verifySignature (pubkey : PubKey) (root : Root) (signature : Signature) : Bool :=
  Bls.verify pubkey root.toList signature

abbrev ValidatorKey := Bls.SecretKey

/-- The text of a key, which shows its public half alone. -/
def describeKey (key : ValidatorKey) : String :=
  "ValidatorKey \x7b pubkey: " ++ Hex.ofBytes key.pubkey ++ ", .. \x7d"

def signRoot (key : ValidatorKey) (root : Root) : Signature := key.sign root.toList

def signDeposit (key : ValidatorKey) (credentials : Root) (amountGwei : UInt64) (domain : Root) :
    DepositData :=
  let message : DepositMessage := ⟨key.pubkey, credentials, amountGwei⟩
  ⟨message.pubkey, credentials, amountGwei, signRoot key (message.signingRoot domain)⟩

def signExit (key : ValidatorKey) (message : VoluntaryExit) (domain : Root) : SignedVoluntaryExit :=
  ⟨message, signRoot key (message.signingRoot domain)⟩

end StakeKeeper
