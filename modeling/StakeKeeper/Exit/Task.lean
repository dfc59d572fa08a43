import StakeKeeper.Exit.Cache
import StakeKeeper.Routine

/-!
The exit task: every open validator whose signed exit the coordination service does not hold yet
gets one, signed at the finalized epoch, and all are uploaded in one batch. The beacon chain is
read at the slot of the snapshot's block, so that both chains are seen at the same moment.
-/
namespace StakeKeeper
set_option autoImplicit false

/-! ## Selection -/

/-- The records of a snapshot that need an exit. -/
def exitCandidates (cache : ExitCache) (records : List MinipoolRecord) : List MinipoolRecord :=
  records.filter fun r =>
    r.known && !r.status.isClosed && r.pubkey != Bytes.zero 48 && !cache.contains r.pubkey

/-- The records with the beacon chain's view, without those that it cannot exit yet, and an event
for each of these. Each status is used once, for the first record of its validator. -/
def withBeaconStatus (slot : UInt64) :
    (PubKey → Option BeaconStatus) → List MinipoolRecord →
      List (MinipoolRecord × UInt64) × List Event
  | _, [] => ([], [])
  | statuses, r :: rest =>
    let unused := fun k => if k = r.pubkey then none else statuses k
    let (found, events) := withBeaconStatus slot unused rest
    match statuses r.pubkey with
    | none => (found, .notOnBeaconChain r.address slot :: events)
    | some status =>
      match status.index with
      | none => (found, .noValidatorIndex r.address slot :: events)
      | some index => (({ r with beacon := some status }, index) :: found, events)

/-- The validators that a listing says are uploaded, each once. -/
def uploadedIn (listing : List EscrowEntry) : List PubKey :=
  ((listing.filter (·.exitUploaded)).map (·.pubkey)).eraseDups

/-! ## The task -/

structure ExitTask where
  /-- The beacon chain's constants, once known. They never change. -/
  knownConfig : Option BeaconConfig
  sent : ExitCache

abbrev ExitRoutine (α : Type) := StatefulRoutine ExitTask TaskError α

namespace ExitTask

def fresh : ExitTask := ⟨none, .empty⟩

def config : ExitRoutine BeaconConfig := do
  match (← get).knownConfig with
  | some known => pure known
  | none =>
    let known : BeaconConfig ← StatefulRoutine.call .beaconConfig
    modify fun task => { task with knownConfig := some known }
    pure known

/-- Takes in the service's listing, once in the life of the task. -/
def load : ExitRoutine Unit := do
  if (← get).sent.initialized then pure ()
  else
    let listing : List EscrowEntry ← StatefulRoutine.call .escrowListing
    modify fun task =>
      { task with sent := { task.sent.markAll (uploadedIn listing) with initialized := true } }
    StatefulRoutine.note (.uploadedExitsLoaded (← get).sent.size)

/-- The signed exits of records, in order; a record whose key is missing or cannot be loaded is
left out. -/
def signExits (epoch : UInt64) (domain : Root) :
    List (MinipoolRecord × UInt64) → Routine (List ExitUpload)
  | [] => .done []
  | (r, index) :: rest => do
    match ← Routine.attempt (.loadKey r.pubkey) with
    | .ok (some (key : ValidatorKey)) =>
      let exits ← signExits epoch domain rest
      pure (⟨r.pubkey, signExit key ⟨epoch, index⟩ domain⟩ :: exits)
    | .ok none =>
      Routine.note (.exitKeyMissing r.address r.pubkey)
      signExits epoch domain rest
    | .error e =>
      Routine.note (.exitKeyFailed r.address e)
      signExits epoch domain rest

/-- Marks what the service confirms and notes what it does not. A batch that was taken counts as
sent when the service cannot be asked again. -/
def reconcile (submitted : List PubKey) : ExitRoutine Unit := do
  match ← StatefulRoutine.ofRoutine (.attempt .escrowListing) with
  | .error (e : CallError) =>
    StatefulRoutine.note (.confirmationFailed e submitted.length)
    modify fun task => { task with sent := task.sent.markAll submitted }
  | .ok (listing : List EscrowEntry) =>
    let confirmed := uploadedIn listing
    let before := (← get).sent
    modify fun task => { task with sent := task.sent.markAll confirmed }
    let elsewhere := confirmed.filter fun k => !before.contains k && !submitted.contains k
    StatefulRoutine.ofRoutine (.noteAll ((elsewhere.mergeSort Bytes.le).map .uploadedElsewhere))
    let unconfirmed := submitted.filter fun k => !confirmed.contains k
    StatefulRoutine.ofRoutine (.noteAll (unconfirmed.map .uploadUnconfirmed))

def upload (epoch : UInt64) (exits : List ExitUpload) : ExitRoutine Unit := do
  let outcome : UploadOutcome ← StatefulRoutine.call (.uploadExits exits)
  if outcome.notRegistered then throw (.rejected "node is not registered")
  else if outcome.notAuthorized then throw (.rejected "node is not authorized")
  else
    StatefulRoutine.note (.exitsUploaded exits.length epoch)
    reconcile (exits.map (·.pubkey))

def exitFrom (config : BeaconConfig) (snapshot : NetworkSnapshot)
    (candidates : List MinipoolRecord) : ExitRoutine Unit := do
  let now ← StatefulRoutine.ofRoutine (.orCrash .timeRange snapshot.header.time?)
  let slot := config.slotAt now
  let statuses : PubKey → Option BeaconStatus ←
    StatefulRoutine.call (.validatorStatuses (candidates.map (·.pubkey)) (some slot))
  let (eligible, events) := withBeaconStatus slot statuses candidates
  StatefulRoutine.ofRoutine (.noteAll events)
  if eligible.isEmpty then pure ()
  else
    let head : ChainHead ← StatefulRoutine.call .chainHead
    let domain : Root ← StatefulRoutine.call (.signingDomain .voluntaryExit head.finalizedEpoch)
    let exits ← StatefulRoutine.ofRoutine (signExits head.finalizedEpoch domain eligible)
    if exits.isEmpty then pure () else upload head.finalizedEpoch exits

def name : String := "exit-submission"

def run (snapshot : NetworkSnapshot) : ExitRoutine Unit := do
  let config ← config
  load
  match exitCandidates (← get).sent snapshot.validators with
  | [] => StatefulRoutine.note (.noExitNeeded snapshot.node)
  | candidates => exitFrom config snapshot candidates

end ExitTask

end StakeKeeper
