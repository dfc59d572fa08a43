import StakeKeeper.Query.Snapshot
import StakeKeeper.Stake.Policy

/-!
The staking task: prelaunch minipools whose safety review has ended get one stake transaction each.
The whole batch is signed and simulated before any of it is sent; one bad entry ends the run.
-/
namespace StakeKeeper
set_option autoImplicit false

/-! ## The view of a run -/

/-- What a run needs of the chain, read at one block. -/
structure StakeView where
  header : BlockHeader
  settings : NetworkSettings
  transactor : Transactor
  validators : List MinipoolRecord

/-- The query behind a view. Its own values are the settings; a locked wallet is not ready. -/
def stakeQuery : NodeQuery NetworkSettings StakeView where
  prepare := do
    refreshRegistries
    let answer ← FailingRoutine.ofRoutine (.attempt .transactor)
    match answer with
    | .ok transactor => pure (.ready (some transactor))
    | .error (.walletNotReady reason) => pure (.notReady reason)
    | .error e => throw (.call e)
  ownReads _ := settingsReads
  decodeOwn := decodeSettings
  wantsDetails := NodeQuery.anyMinipool
  fields := allFields
  finish settings gathered :=
    match gathered.transactor with
    | some transactor => pure ⟨gathered.header, settings, transactor, gathered.validators⟩
    | none => throw (.incomplete "no transactor for node wallet")

/-! ## Entries -/

structure StakeEntry where
  minipool : Address
  /-- How long the minipool has been in prelaunch. -/
  waited : Duration
  tx : TransactionRequest
  deriving DecidableEq

/-- The stake transaction for a deposit to a minipool, not simulated yet. -/
def stakeTransaction (minipool : Address) (deposit : DepositData) : TransactionRequest where
  recipient := minipool
  call := .stake deposit.signature deposit.tree.root
  gasLimit := none

/-- The entry of a record signed with a key, or what is wrong with it. -/
def stakeEntry (record : MinipoolRecord) (key : ValidatorKey) (domain : Root) (now : Instant) :
    Except TaskError StakeEntry :=
  let found := key.pubkey
  if found ≠ record.pubkey then throw (.signing record.pubkey (.wrongKey found))
  else
    let deposit := signDeposit key record.credentials stakeAmountGwei domain
    if verifySignature record.pubkey (deposit.message.signingRoot domain) deposit.signature then
      pure ⟨record.address, record.timeInStatus now, stakeTransaction record.address deposit⟩
    else throw (.signing record.pubkey .invalidSignature)

/-- The fees of stakes that are not urgent. -/
def StakePolicy.normalFees (policy : StakePolicy) (estimate : FeeEstimate) : FeeSettings where
  maxFee := if policy.maxFee = 0 then estimate.maxFee else policy.maxFee
  priorityFee := policy.priorityFee

/-- The fees of stakes that must be sent now. -/
def StakePolicy.forcedFees (policy : StakePolicy) (estimate : FeeEstimate) : FeeSettings where
  maxFee := estimate.maxFee
  priorityFee := policy.priorityFee

def selectEntries (entries : List StakeEntry) (indices : List Nat) : List StakeEntry :=
  (entries.zipIdx.filter fun e => indices.contains e.2).map Prod.fst

/-! ## The task -/

structure StakeTask where
  runner : QueryRunner
  policy : StakePolicy
  /-- The domain of deposits, once known. It never changes. -/
  knownDomain : Option Root

abbrev StakeRoutine (α : Type) := FailingRoutine TaskError α

namespace StakeTask

def domain : StatefulRoutine StakeTask TaskError Root := do
  match (← get).knownDomain with
  | some known => pure known
  | none =>
    let config : BeaconConfig ← StatefulRoutine.call .beaconConfig
    let known := depositDomain config.genesisFork
    modify fun task => { task with knownDomain := some known }
    pure known

/-- The entries of records, in order. The key of each is loaded once. -/
def buildEntries (domain : Root) (now : Instant) :
    List MinipoolRecord → StakeRoutine (List StakeEntry)
  | [] => pure []
  | record :: rest => do
    let loaded : Option ValidatorKey ← FailingRoutine.call (.loadKey record.pubkey)
    match loaded with
    | none => throw (.missingKey record.pubkey)
    | some key =>
      let entry ← FailingRoutine.ofExcept (stakeEntry record key domain now)
      let entries ← buildEntries domain now rest
      pure (entry :: entries)

/-- The entries with the gas limits of their simulations. -/
def simulateEntries (sender : Transactor) : List StakeEntry → StakeRoutine (List StakeEntry)
  | [] => pure []
  | entry :: rest => do
    match ← FailingRoutine.ofRoutine (.attempt (.simulate sender entry.tx)) with
    | .error (.simulation reason) => throw (.simulation entry.minipool reason)
    | .error e => throw (.call e)
    | .ok (estimate : GasEstimate) =>
      let entries ← simulateEntries sender rest
      pure ({ entry with tx := { entry.tx with gasLimit := some estimate.gasLimit } } :: entries)

/-- Sends entries as one batch and waits until all are included. -/
def send (sender : Transactor) (entries : List StakeEntry) (fees : FeeSettings) :
    StakeRoutine Unit := do
  FailingRoutine.ofRoutine (.noteAll (entries.map fun e => .staking e.minipool))
  let hashes : List Root ← FailingRoutine.call (.submit sender (entries.map (·.tx)) fees)
  FailingRoutine.call (.wait hashes)
  FailingRoutine.note (.stakesIncluded sender.source entries.length fees.maxFee)

def submit (policy : StakePolicy) (view : StakeView) (entries : List StakeEntry) :
    StakeRoutine Unit := do
  let estimate : FeeEstimate ← FailingRoutine.call .feeEstimate
  let decision := submissionDecision (entries.map (·.waited)) view.settings.launchTimeout
    policy.forcePercent estimate.maxFee policy.gasThreshold
  match decision with
  | .skip =>
    FailingRoutine.note (.stakePostponed entries.length estimate.maxFee policy.gasThreshold)
  | .submitAll => send view.transactor entries (policy.normalFees estimate)
  | .submitForced indices =>
    let forced := selectEntries entries indices
    FailingRoutine.note (.stakeForced forced.length estimate.maxFee)
    send view.transactor forced (policy.forcedFees estimate)

/-- The events for prelaunch records whose review has not ended; none if its end is out of range. -/
def reviewEvents? (now : Instant) (scrub : Duration) : List MinipoolRecord → Option (List Event)
  | [] => some []
  | r :: rest => do
    let waiting ←
      if r.status = .prelaunch then (r.isReady? now scrub).map (!·) else some false
    let remaining ← if waiting then (r.remainingReview? now scrub).map some else some none
    let events ← reviewEvents? now scrub rest
    pure (match remaining with
      | some left => .inReview r.address left :: events
      | none => events)

/-- The records of a view that may be staked, and the view's time. The others in prelaunch are
noted. -/
def eligible (view : StakeView) : StakeRoutine (Instant × List MinipoolRecord) := do
  let scrub := view.settings.scrubPeriod
  let now ← FailingRoutine.ofRoutine (.orCrash .timeRange view.header.time?)
  let ready ← FailingRoutine.ofRoutine
    (.orCrash .timeRange (stakeCandidates? now scrub view.validators))
  let events ← FailingRoutine.ofRoutine
    (.orCrash .timeRange (reviewEvents? now scrub view.validators))
  FailingRoutine.ofRoutine (.noteAll events)
  pure (now, ready)

def querying {α : Type} (m : QueryRoutine α) : StakeRoutine α := m.adapt .query

def stakeFrom (view : StakeView) : StatefulRoutine StakeTask TaskError Unit := do
  let (now, records) ← StatefulRoutine.ofFailing (eligible view)
  if records.isEmpty then pure ()
  else
    let domain ← domain
    let policy := (← get).policy
    StatefulRoutine.ofFailing do
      let entries ← buildEntries domain now records
      let simulated ← simulateEntries view.transactor entries
      submit policy view simulated

def name : String := "stake-readiness"

/-- One run on a snapshot. Without a minipool in prelaunch there the chain is not asked again. -/
def run (snapshot : NetworkSnapshot) : StatefulRoutine StakeTask TaskError Unit := do
  if snapshot.prelaunch.isEmpty then
    StatefulRoutine.note (.nonePrelaunch snapshot.node)
  else
    let runner := (← get).runner
    match ← StatefulRoutine.ofFailing (querying (runner.run stakeQuery)) with
    | .notReady reason => StatefulRoutine.note (.stakeSkipped reason)
    | .ready view => stakeFrom view

end StakeTask

end StakeKeeper
