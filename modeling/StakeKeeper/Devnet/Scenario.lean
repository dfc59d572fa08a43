import StakeKeeper.Devnet.Rehearsal

/-!
Scenarios: a daemon, and single parts of one, acted on step by step in a rehearsal.
-/
namespace StakeKeeper.Devnet
set_option autoImplicit false

/-! ## Outside tasks -/

/-- A task that runs outside the daemon, which is told of each tick. It fails every time or
never. -/
structure OutsideTask where
  name : String
  fails : Bool

namespace OutsideTask

def failure : TaskError := .rejected "boom"

def run (snapshot : NetworkSnapshot) : StatefulRoutine OutsideTask TaskError Unit := do
  let task ← get
  StatefulRoutine.call (.outsideTask task.name snapshot.header.number snapshot.validators.length)
  if task.fails then throw failure

end OutsideTask

/-! ## Ad-hoc queries -/

/-- A query that is put together for one step. -/
structure QueryPlan where
  notReady : Option String
  /-- Whether the wallet is asked for the sending account. -/
  usesWallet : Bool
  /-- Whether the query keeps to what every query does unless told otherwise. -/
  plain : Bool
  ownReads : List ContractRead
  /-- How many addresses there must be for the details to be wanted. -/
  continueFrom : Nat
  fields : List MinipoolField
  incomplete : Option String

/-- The query of a plan. Its output is what was gathered, and the values of its own reads. -/
def QueryPlan.query (plan : QueryPlan) :
    NodeQuery (List ReadValue) (Gathered × List ReadValue) where
  prepare :=
    match plan.notReady with
    | some reason => pure (.notReady reason)
    | none =>
      if plan.usesWallet then do
        let transactor : Transactor ← FailingRoutine.call .transactor
        pure (.ready (some transactor))
      else pure (.ready none)
  ownReads _ := if plan.plain then [] else plan.ownReads
  decodeOwn values := pure (if plan.plain then [] else values)
  wantsDetails addresses :=
    if plan.plain then NodeQuery.anyMinipool addresses else addresses.length ≥ plan.continueFrom
  fields := plan.fields
  finish values gathered :=
    match plan.incomplete with
    | some reason => throw (.incomplete reason)
    | none => pure (gathered, values)

/-! ## Steps -/

abbrev ScenarioTask := DaemonTask ⊕ OutsideTask

namespace ScenarioTask

def name : ScenarioTask → String
  | .inl task => task.name
  | .inr task => task.name

def run (snapshot : NetworkSnapshot) : StatefulRoutine ScenarioTask TaskError Unit :=
  ExceptT.mk fun
    | .inl task => do
      let (result, task) ← DaemonTask.run snapshot task
      pure (result, .inl task)
    | .inr task => do
      let (result, task) ← OutsideTask.run snapshot task
      pure (result, .inr task)

instance : ScheduledTask ScenarioTask := ⟨name, run⟩

end ScenarioTask

inductive Action where
  | change (change : Change)
  | tick
  | taskNames
  | collect
  | setSnapshot (snapshot : NetworkSnapshot)
  | runStake
  | runExit
  | query (plan : QueryPlan)
  | header (number : Option UInt64)
  | multicall (reads : List ContractRead) (block : UInt64)
  | remote
  | head
  | executionStatus
  | consensusStatus

inductive Outcome where
  | changed (receipt : Rehearsal.Receipt)
  | ticked (outcome : TickOutcome)
  | names (names : List String)
  | collected (result : Except QueryError NetworkSnapshot)
  | kept
  | staked (result : Except TaskError Unit)
  /-- The result, the cache, and which validators of the snapshot are cached. -/
  | exited (result : Except TaskError Unit) (cache : ExitCache) (cached : List Bool)
  | queried (result : Except QueryError (QueryOutcome (Gathered × List ReadValue)))
  | header (result : Except CallError BlockHeader)
  | values (result : Except CallError (List ReadValue))
  | listing (result : Except CallError (List EscrowEntry))
  | head (head : ChainHead)
  | status (status : SyncStatus)

/-- A scenario. Its parts act on the same collaborators, but keep states of their own. -/
structure Scenario where
  rehearsal : Rehearsal
  loop : TaskLoop ScenarioTask
  runner : QueryRunner
  stake : StakeTask
  exit : ExitTask
  snapshot : Option NetworkSnapshot

namespace Scenario

/-- The loop of a scenario: the standard one, or one with outside tasks. -/
def loopOf (config : Config) (node : Address) (tasks : Option (List OutsideTask)) :
    TaskLoop ScenarioTask :=
  let standard := TaskLoop.ofConfig config node
  let tasks :=
    match tasks with
    | some tasks => tasks.map Sum.inr
    | none => standard.tasks.map Sum.inl
  ⟨standard.runner, tasks, standard.interval, standard.cooldown⟩

def new (net : Net) (config : Config) (tasks : Option (List OutsideTask)) : Scenario where
  rehearsal := .new net
  loop := loopOf config net.node tasks
  runner := ⟨net.node, config.pageSizes⟩
  stake := ⟨⟨net.node, config.pageSizes⟩, config.stakePolicy, none⟩
  exit := .fresh
  snapshot := none

def play {α : Type} (s : Scenario) (m : Routine α) : Ending α × Scenario :=
  let (ending, rehearsal) := m.runWith Rehearsal.handler s.rehearsal
  (ending, { s with rehearsal })

/-- Does one thing; what came of it unless a part crashed, and the scenario afterwards. -/
def act (s : Scenario) : Action → Option Outcome × Scenario
  | .change change =>
    match s.rehearsal.change? change with
    | some (rehearsal, receipt) => (some (.changed receipt), { s with rehearsal })
    | none => (none, s)
  | .tick =>
    match s.play s.loop.tick with
    | (.done (outcome, loop), s) => (some (.ticked outcome), { s with loop })
    | (_, s) => (none, s)
  | .taskNames => (some (.names s.loop.names), s)
  | .collect =>
    match s.play s.runner.collect.run with
    | (.done (.ok snapshot), s) =>
      (some (.collected (.ok snapshot)), { s with snapshot := some snapshot })
    | (.done result, s) => (some (.collected result), s)
    | (_, s) => (none, s)
  | .setSnapshot snapshot => (some .kept, { s with snapshot := some snapshot })
  | .runStake =>
    match s.snapshot with
    | none => (none, s)
    | some snapshot =>
      match s.play (StakeTask.run snapshot s.stake) with
      | (.done (result, stake), s) => (some (.staked result), { s with stake })
      | (_, s) => (none, s)
  | .runExit =>
    match s.snapshot with
    | none => (none, s)
    | some snapshot =>
      match s.play (ExitTask.run snapshot s.exit) with
      | (.done (result, exit), s) =>
        let cached := snapshot.validators.map fun r => exit.sent.contains r.pubkey
        (some (.exited result exit.sent cached), { s with exit })
      | (_, s) => (none, s)
  | .query plan =>
    match s.play (s.runner.run plan.query).run with
    | (.done result, s) => (some (.queried result), s)
    | (_, s) => (none, s)
  | .header number => (some (.header (s.rehearsal.net.chain.headerAt number)), s)
  | .multicall reads block =>
    let (result, chain) := s.rehearsal.net.chain.multicall reads block
    let net := { s.rehearsal.net with chain }
    (some (.values result), { s with rehearsal := { s.rehearsal with net } })
  | .remote =>
    let (result, service) := s.rehearsal.net.service.list
    let net := { s.rehearsal.net with service }
    (some (.listing result), { s with rehearsal := { s.rehearsal with net } })
  | .head => (some (.head s.rehearsal.net.beacon.head), s)
  | .executionStatus => (some (.status s.rehearsal.net.chain.syncStatus), s)
  | .consensusStatus => (some (.status s.rehearsal.net.beacon.syncStatus), s)

def clearRecord (s : Scenario) : Scenario :=
  { s with rehearsal := { s.rehearsal with moments := [], events := [] } }

end Scenario

end StakeKeeper.Devnet
