import StakeKeeper.Devnet.Beacon
import StakeKeeper.Devnet.Chain
import StakeKeeper.Devnet.Service
import StakeKeeper.KeyStore
import StakeKeeper.Routine

/-!
All collaborators of the daemon in memory, as one state that answers every call at once.
-/
namespace StakeKeeper.Devnet
set_option autoImplicit false

structure Net where
  chain : Chain
  beacon : Beacon
  service : Service
  node : Address
  walletReady : Bool
  keys : KeyStore

namespace Net

def new (header : BlockHeader) (settings : NetworkSettings) (node : Address)
    (config : BeaconConfig) : Net where
  chain := .new header settings
  beacon := .new config
  service := .new
  node := node
  walletReady := true
  keys := .empty

def chainId : UInt64 := 17000

def transactor (n : Net) : Except CallError Transactor :=
  if n.walletReady then .ok ⟨n.node, chainId⟩ else .error (.walletNotReady "wallet is locked")

/-- The answer to a call, and the collaborators afterwards. -/
def answer (n : Net) : (q : Request) → Reaction q.Reply × Net
  | .executionSync => (.answered (.ok n.chain.syncStatus), n)
  | .header number => (.answered (n.chain.headerAt number), n)
  | .refresh registry =>
    (.answered (.ok ()),
      { n with chain := { n.chain with refreshed := n.chain.refreshed ++ [registry] } })
  | .multicall reads block =>
    let (result, chain) := n.chain.multicall reads block
    (.answered result, { n with chain })
  | .feeEstimate => (.answered (.ok n.chain.fee), n)
  | .simulate _ tx =>
    let (result, chain) := n.chain.simulate tx
    (.answered result, { n with chain })
  | .submit _ txs fees =>
    match n.chain.submit? txs fees with
    | some (hashes, chain) => (.answered (.ok hashes), { n with chain })
    | none => (.crashed .timeRange, n)
  | .wait hashes =>
    (.answered (.ok ()), { n with chain := { n.chain with waited := n.chain.waited ++ hashes } })
  | .consensusSync => (.answered (.ok n.beacon.syncStatus), n)
  | .beaconConfig =>
    (.answered (.ok n.beacon.config),
      { n with beacon := { n.beacon with configCalls := n.beacon.configCalls + 1 } })
  | .validatorStatuses keys slot =>
    (.answered (.ok (n.beacon.statusesOf keys)),
      { n with beacon :=
        { n.beacon with statusQueries := n.beacon.statusQueries ++ [(keys.length, slot)] } })
  | .chainHead => (.answered (.ok n.beacon.head), n)
  | .signingDomain type _ => (.answered (.ok (n.beacon.domain type)), n)
  | .escrowListing =>
    let (result, service) := n.service.list
    (.answered result, { n with service })
  | .uploadExits exits =>
    let (outcome, service) := n.service.upload exits
    (.answered (.ok outcome), { n with service })
  | .loadKey pubkey => (.answered (n.keys.load pubkey), n)
  | .transactor => (.answered n.transactor, n)
  | .outsideTask _ _ _ => (.answered (.ok ()), n)

/-- Plays routines against the collaborators alone; events are not kept. -/
def handler : Handler Net where
  answer q n := n.answer q
  note _ n := n

end Net

end StakeKeeper.Devnet
