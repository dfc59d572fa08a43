import StakeKeeper.Config
import StakeKeeper.Exit.Task
import StakeKeeper.Stake.Task

/-!
The task loop. A tick asks both clients whether they are in sync, takes one snapshot, and runs every
task on it, in order, whether or not the ones before it failed. Between ticks the loop pauses,
shorter while a client is not in sync. A request to stop ends the loop during a pause or a tick.
-/
namespace StakeKeeper
set_option autoImplicit false

/-! ## Tasks -/

/-- Work that is done once in every tick. A task keeps its state also when a run fails. -/
class ScheduledTask (τ : Type) where
  name : τ → String
  run : NetworkSnapshot → StatefulRoutine τ TaskError Unit

inductive DaemonTask where
  | stake (task : StakeTask)
  | exit (task : ExitTask)

namespace DaemonTask

def name : DaemonTask → String
  | stake _ => StakeTask.name
  | exit _ => ExitTask.name

def run (snapshot : NetworkSnapshot) : StatefulRoutine DaemonTask TaskError Unit :=
  ExceptT.mk fun
    | stake task => do
      let (result, task) ← StakeTask.run snapshot task
      pure (result, stake task)
    | exit task => do
      let (result, task) ← ExitTask.run snapshot task
      pure (result, exit task)

instance : ScheduledTask DaemonTask := ⟨name, run⟩

end DaemonTask

/-! ## Ticks -/

inductive TickOutcome where
  | executionNotSynced
  | consensusNotSynced
  | snapshotFailed
  | completed (failed : Nat)
  deriving DecidableEq

/-- Whether the tick ended because a client was not in sync. -/
def TickOutcome.waitsForSync : TickOutcome → Bool
  | executionNotSynced => true
  | consensusNotSynced => true
  | _ => false

structure TaskLoop (τ : Type) where
  runner : QueryRunner
  tasks : List τ
  interval : Duration
  cooldown : Duration

namespace TaskLoop

/-- The standard loop: staking, then exits. -/
def ofConfig (config : Config) (node : Address) : TaskLoop DaemonTask :=
  let runner : QueryRunner := ⟨node, config.pageSizes⟩
  { runner
    tasks := [.stake ⟨runner, config.stakePolicy, none⟩, .exit .fresh]
    interval := config.taskInterval
    cooldown := config.syncCooldown }

variable {τ : Type} [ScheduledTask τ]

def names (loop : TaskLoop τ) : List String := loop.tasks.map ScheduledTask.name

/-- Whether a client is in sync; an answer that is missing counts as not. -/
def checkSync (layer : Layer) (answer : Except CallError SyncStatus) : Routine Bool :=
  match answer with
  | .ok status =>
    if status.isSynced then pure true
    else do
      Routine.note (.clientNotSynced layer status.progress)
      pure false
  | .error e => do
    Routine.note (.syncCheckFailed layer e)
    pure false

/-- Runs all tasks on a snapshot; the tasks afterwards, and how many runs failed. -/
def runTasks (snapshot : NetworkSnapshot) : List τ → Routine (List τ × Nat)
  | [] => pure ([], 0)
  | task :: rest => do
    let name := ScheduledTask.name task
    Routine.note (.taskStarted name snapshot.header.number)
    let (result, task) ← ScheduledTask.run snapshot task
    match result with
    | .ok () =>
      let (tasks, failed) ← runTasks snapshot rest
      pure (task :: tasks, failed)
    | .error e =>
      Routine.note (.taskFailed name e)
      let (tasks, failed) ← runTasks snapshot rest
      pure (task :: tasks, failed + 1)

def tick (loop : TaskLoop τ) : Routine (TickOutcome × TaskLoop τ) := do
  if !(← checkSync .execution (← Routine.attempt .executionSync)) then
    pure (.executionNotSynced, loop)
  else if !(← checkSync .consensus (← Routine.attempt .consensusSync)) then
    pure (.consensusNotSynced, loop)
  else
    match ← loop.runner.collect.run with
    | .error e =>
      Routine.note (.snapshotFailed e)
      pure (.snapshotFailed, loop)
    | .ok snapshot =>
      let (tasks, failed) ← runTasks snapshot loop.tasks
      pure (.completed failed, { loop with tasks })

/-! ## The loop on a clock -/

def pauseAfter (loop : TaskLoop τ) (outcome : TickOutcome) : Duration :=
  if outcome.waitsForSync then loop.cooldown else loop.interval

/-- A clock that the loop sleeps on. Sleeping ends early when the loop is to stop. -/
structure Clock (σ : Type) where
  sleep : Duration → σ → Bool × σ

inductive Progress where
  /-- Still running after all the ticks that were allowed. -/
  | running
  | stopped
  | crashed (c : Crash)
  deriving DecidableEq

/-- At most `ticks` ticks of the loop against a handler and a clock. -/
def cycle {σ : Type} (handler : Handler σ) (clock : Clock σ) :
    Nat → TaskLoop τ → σ → Progress × σ
  | 0, _, s => (.running, s)
  | ticks + 1, loop, s =>
    match loop.tick.runWith handler s with
    | (.crashed c, s) => (.crashed c, s)
    | (.cancelled, s) => (.stopped, handler.note .loopStopped s)
    | (.done (outcome, loop), s) =>
      match clock.sleep (loop.pauseAfter outcome) s with
      | (true, s) => cycle handler clock ticks loop s
      | (false, s) => (.stopped, handler.note .loopStopped s)

def start {σ : Type} (handler : Handler σ) (clock : Clock σ) (ticks : Nat) (loop : TaskLoop τ)
    (s : σ) : Progress × σ :=
  cycle handler clock ticks loop (handler.note (.loopStarted loop.names loop.interval) s)

end TaskLoop

end StakeKeeper
