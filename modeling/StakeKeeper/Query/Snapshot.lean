import StakeKeeper.Query.Runner

/-!
The snapshot query: the protocol's settings and all minipools of a node at one block.
-/
namespace StakeKeeper
set_option autoImplicit false

/-! ## Shared by the daemon's queries -/

/-- The fields that every record carries. -/
def allFields : List MinipoolField := [.known, .status, .statusTime, .pubkey, .credentials]

def refreshRegistries : QueryRoutine Unit := do
  FailingRoutine.call (.refresh .execution)
  FailingRoutine.call (.refresh .protocol)

def settingsReads : List ContractRead := [.scrubPeriod, .launchTimeout, .minimumStake]

def decodeSettings (values : List ReadValue) : Except QueryError NetworkSettings :=
  match values with
  | [scrub, timeout, stake] =>
    Except.mapError .call do
      let scrub ← scrub.asUint64
      let timeout ← timeout.asUint64
      let stake ← stake.asUint
      pure ⟨.ofSecs scrub, .ofSecs timeout, stake⟩
  | _ => throw (.resultCount 3 values.length)

/-! ## Snapshots -/

/-- The query behind a snapshot. Its own values are the active count and the settings. -/
def snapshotQuery : NodeQuery (UInt64 × NetworkSettings) NetworkSnapshot where
  prepare := do
    refreshRegistries
    pure (.ready none)
  ownReads node := .activeCount node :: settingsReads
  decodeOwn
    | [] => throw (.resultCount 4 0)
    | active :: settings => do
      let active ← Except.mapError .call active.asUint64
      let settings ← decodeSettings settings
      pure (active, settings)
  wantsDetails := NodeQuery.anyMinipool
  fields := allFields
  finish own gathered := pure
    { header := gathered.header
      settings := own.2
      node := gathered.node
      activeCount := own.1
      validators := gathered.validators }

def QueryRunner.collect (runner : QueryRunner) : QueryRoutine NetworkSnapshot := do
  match ← runner.run snapshotQuery with
  | .notReady reason => throw (.incomplete reason)
  | .ready s =>
    if !s.settings.looksValid then FailingRoutine.note (.settingsUnset s.header.number s.settings)
    FailingRoutine.note
      (.snapshotCollected s.node s.header.number s.validators.length s.activeCount)
    pure s

end StakeKeeper
