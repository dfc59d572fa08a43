import StakeKeeper.Proofs.Devnet.Exiting
import StakeKeeper.Proofs.Devnet.Staking
import StakeKeeper.TaskLoop

/-!
A tick of the standard loop against the collaborators in memory, and what a chain looks like where it
does not matter which of its minipools are staked. Main statements: `Net.execute_settled`
(a batch of the daemon changes nothing else) and `tick_plays_completed` (a tick is one run of each
task).
-/
namespace StakeKeeper
set_option autoImplicit false

/-! ## Staked or not -/

namespace MinipoolRecord

/-- The record as if a minipool in prelaunch were staked, since the epoch. -/
def settled (r : MinipoolRecord) : MinipoolRecord :=
  if r.status = .prelaunch ∨ r.status = .staking then
    { r with status := .staking, statusTime := .epoch }
  else r

variable {r s : MinipoolRecord}

theorem settled_of_open (h : r.status = .prelaunch ∨ r.status = .staking) :
    r.settled = { r with status := .staking, statusTime := .epoch } := if_pos h

theorem settled_of_not (h : ¬(r.status = .prelaunch ∨ r.status = .staking)) : r.settled = r :=
  if_neg h

@[simp] theorem settled_node (r : MinipoolRecord) : r.settled.node = r.node := by
  unfold settled
  split <;> rfl

@[simp] theorem settled_address (r : MinipoolRecord) : r.settled.address = r.address := by
  unfold settled
  split <;> rfl

@[simp] theorem settled_known (r : MinipoolRecord) : r.settled.known = r.known := by
  unfold settled
  split <;> rfl

@[simp] theorem settled_pubkey (r : MinipoolRecord) : r.settled.pubkey = r.pubkey := by
  unfold settled
  split <;> rfl

@[simp] theorem settled_isClosed (r : MinipoolRecord) :
    r.settled.status.isClosed = r.status.isClosed := by
  by_cases h : r.status = .prelaunch ∨ r.status = .staking
  · rw [settled_of_open h]
    rcases h with h | h
    · rw [h]
      rfl
    · rw [h]
  · rw [settled_of_not h]

theorem stakedAt_settled {now : Instant} (h : r.status = .prelaunch ∨ r.status = .staking) :
    (Devnet.Chain.stakedAt now r).settled = r.settled := by
  have hstaked : (Devnet.Chain.stakedAt now r).settled =
      { Devnet.Chain.stakedAt now r with status := .staking, statusTime := .epoch } :=
    settled_of_open (.inr rfl)
  rw [hstaked, settled_of_open h]
  rfl

theorem shown_settled (node : Address) (h : r.settled = s.settled) :
    (r.shown node).settled = (s.shown node).settled := by
  have hshown (r : MinipoolRecord) : (r.shown node).settled = (r.settled.shown node).settled := by
    by_cases h : r.status = .prelaunch ∨ r.status = .staking
    · have hfirst : (r.shown node).settled =
          { r.shown node with status := .staking, statusTime := .epoch } := settled_of_open h
      have hlast : (r.settled.shown node).settled =
          { r.settled.shown node with status := .staking, statusTime := .epoch } := by
        refine settled_of_open (.inr ?_)
        rw [settled_of_open h]
        rfl
      rw [hfirst, hlast, settled_of_open h]
      rfl
    · rw [settled_of_not h]
  rw [hshown r, hshown s, h]

end MinipoolRecord

namespace Devnet

-- The range of instants is never computed with below.
seal Instant.ofNanos?

namespace Chain

/-- The chain without what depends on which of its minipools are staked: its record of calls, its
fees and its simulations. -/
def settled (c : Chain) : Chain :=
  { c.still with
    minipools := c.minipools.map MinipoolRecord.settled
    fee := ⟨0, 0⟩
    reverting := []
    submitted := []
    sent := 0 }

variable {c c' : Chain}

/-- A batch to minipools in prelaunch only stakes them. -/
theorem executed_settled (now : Instant) {txs : List TransactionRequest} (fees : FeeSettings)
    (prelaunch : ∀ a ∈ txs.map (·.recipient), c.status? a = some .prelaunch) :
    (c.executed now txs fees).settled = c.settled := by
  have hstaked {l : List MinipoolRecord}
      (going : ∀ a ∈ txs.map (·.recipient), ∀ r, l.find? (·.address = a) = some r →
        r.status = .prelaunch ∨ r.status = .staking) :
      (txs.foldl (fun ms tx => stakeFirst tx.recipient now ms) l).map MinipoolRecord.settled =
        l.map MinipoolRecord.settled := by
    clear prelaunch
    induction txs generalizing l with
    | nil => rfl
    | cons tx txs ih =>
      rw [List.foldl_cons, ih, map_stakeFirst]
      · intro r hr
        exact MinipoolRecord.stakedAt_settled (going tx.recipient List.mem_cons_self r hr)
      · intro a ha r hr
        rw [find?_stakeFirst] at hr
        by_cases hfirst : a = tx.recipient
        · rw [if_pos hfirst] at hr
          obtain ⟨_, _, rfl⟩ := Option.map_eq_some_iff.1 hr
          exact .inr rfl
        · rw [if_neg hfirst] at hr
          exact going a (List.mem_cons_of_mem _ ha) r hr
  have hminipools := hstaked (l := c.minipools) fun a ha r hr => by
    have hstatus := prelaunch a ha
    unfold status? minipool? at hstatus
    rw [hr] at hstatus
    exact .inl (Option.some.inj hstatus)
  unfold settled executed still
  dsimp only
  rw [hminipools]

/-! ### Queries of settled chains -/

section
variable (same : c.settled = c'.settled) (node : Address)
include same

theorem header_of_settled : c.header = c'.header := by
  have hsame := congrArg Chain.header same
  exact hsame

theorem failReads_of_settled : c.failReads = c'.failReads := by
  have hsame := congrArg Chain.failReads same
  exact hsame

theorem minipools_of_settled :
    c.minipools.map MinipoolRecord.settled = c'.minipools.map MinipoolRecord.settled := by
  have hsame := congrArg Chain.minipools same
  exact hsame

theorem ownedBy_of_settled :
    (c.ownedBy node).map MinipoolRecord.settled = (c'.ownedBy node).map MinipoolRecord.settled := by
  have hmap (c : Chain) : (c.ownedBy node).map MinipoolRecord.settled =
      (c.minipools.map MinipoolRecord.settled).filter (·.node = node) := by
    rw [List.filter_map]
    refine congrArg (List.map _) (List.filter_congr fun r _ => ?_)
    simp
  rw [hmap c, hmap c', minipools_of_settled same]

theorem held_of_settled : c.held node = c'.held node := by
  have hmap (c : Chain) :
      c.held node = ((c.ownedBy node).map MinipoolRecord.settled).map (·.address) := by
    rw [held, List.map_map]
    exact List.map_congr_left fun r _ => r.settled_address.symm
  rw [hmap c, hmap c', ownedBy_of_settled same]

theorem length_of_settled : (c.ownedBy node).length = (c'.ownedBy node).length := by
  have hlength := congrArg List.length (ownedBy_of_settled same node)
  rwa [List.length_map, List.length_map] at hlength

theorem listing_of_settled (runner : QueryRunner) : c.listing runner = c'.listing runner := by
  have hcount : c.count runner.node = c'.count runner.node := by
    have hreported := congrArg Chain.reportedCount same
    change c.reportedCount = c'.reportedCount at hreported
    rw [count, count, hreported, length_of_settled same]
  unfold listing
  rw [held_of_settled same, hcount]

theorem shownAt_of_settled (a : Address) :
    (c.shownAt node a).settled = (c'.shownAt node a).settled := by
  have hfind (c : Chain) : (c.minipool? a).map MinipoolRecord.settled =
      (c.minipools.map MinipoolRecord.settled).find? (·.address = a) := by
    rw [List.find?_map]
    refine congrArg (Option.map _) (congrArg (List.find? · _) ?_)
    funext r
    simp
  have hmap : (c.minipool? a).map MinipoolRecord.settled =
      (c'.minipool? a).map MinipoolRecord.settled := by
    rw [hfind c, hfind c', minipools_of_settled same]
  unfold shownAt
  cases hr : c.minipool? a with
  | none =>
    rw [hr] at hmap
    rw [Option.map_eq_none_iff.1 hmap.symm]
  | some r =>
    rw [hr] at hmap
    obtain ⟨r', hr', hsettled⟩ := Option.map_eq_some_iff.1 hmap.symm
    rw [hr']
    exact MinipoolRecord.shown_settled node hsettled.symm

theorem shown_of_settled (addresses : List Address) :
    (addresses.map (c.shownAt node)).map MinipoolRecord.settled =
      (addresses.map (c'.shownAt node)).map MinipoolRecord.settled := by
  rw [List.map_map, List.map_map]
  exact List.map_congr_left fun a _ => shownAt_of_settled same node a

end

variable {runner : QueryRunner}

theorem gathered_inv {validators : List MinipoolRecord}
    (h : c.gathered runner = .done (.ok validators)) : c.failReads = false ∧
      ∃ addresses, c.listing runner = .done (.ok addresses) ∧
        validators = addresses.map (c.shownAt runner.node) := by
  unfold gathered at h
  by_cases hreads : c.failReads = true
  · rw [if_pos hreads] at h
    cases h
  rw [if_neg hreads] at h
  refine ⟨Bool.eq_false_iff.2 hreads, ?_⟩
  rcases hlisting : c.listing runner with (e | addresses) | crash | _
  all_goals
    rw [hlisting] at h
    cases h
  exact ⟨addresses, rfl, rfl⟩

/-- The same query of another chain fails alike, or finds minipools at the same addresses. -/
theorem gathered_of_settled (same : c.settled = c'.settled) (runner : QueryRunner) :
    (∃ addresses : List Address,
        c.gathered runner = .done (.ok (addresses.map (c.shownAt runner.node))) ∧
          c'.gathered runner = .done (.ok (addresses.map (c'.shownAt runner.node)))) ∨
      (∃ e, c.gathered runner = .done (.error e) ∧ c'.gathered runner = .done (.error e)) ∨
        ∃ crash, c.gathered runner = .crashed crash ∧ c'.gathered runner = .crashed crash := by
  have hends := c.listing_ends runner
  unfold gathered
  rw [failReads_of_settled same, listing_of_settled same]
  rw [listing_of_settled same] at hends
  split
  · exact .inr (.inl ⟨_, rfl, rfl⟩)
  rcases hlisting : c'.listing runner with (e | addresses) | crash | _
  · exact .inr (.inl ⟨e, rfl, rfl⟩)
  · exact .inl ⟨addresses, rfl, rfl⟩
  · exact .inr (.inr ⟨crash, rfl, rfl⟩)
  · exact absurd hlisting hends

end Chain

/-! ## Batches of the daemon -/

section
variable {c : Chain} {node a : Address}

theorem Chain.shownAt_address (c : Chain) (node a : Address) :
    (c.shownAt node a).address = a := by
  unfold shownAt
  cases h : c.minipool? a with
  | none => rfl
  | some r =>
    have haddress : r.address = a := minipool?_address h
    exact haddress

theorem Chain.shownAt_prelaunch (h : (c.shownAt node a).status = .prelaunch) :
    c.status? a = some .prelaunch := by
  unfold shownAt at h
  unfold status?
  cases hr : c.minipool? a with
  | none =>
    rw [hr] at h
    cases h
  | some r =>
    rw [hr] at h
    exact congrArg some h

/-- A batch that the daemon sends of what it found only stakes minipools. -/
theorem Net.execute_settled (n : Net) (task : StakeTask) (node : Address)
    (addresses : List Address) :
    (n.execute (n.batch? task (addresses.map (n.chain.shownAt node)))).chain.settled =
      n.chain.settled := by
  rcases hbatch : n.batch? task (addresses.map (n.chain.shownAt node)) with _ | ⟨now, batch, fees⟩
  · rfl
  refine Chain.executed_settled now fees fun a ha => ?_
  obtain ⟨r, hr, rfl, hprelaunch⟩ := Net.batch?_prelaunch hbatch a ha
  obtain ⟨b, _, rfl⟩ := List.mem_map.1 hr
  rw [Chain.shownAt_address]
  exact Chain.shownAt_prelaunch hprelaunch

end

/-! ## Exits of what was found -/

section
variable {records others : List MinipoolRecord}

theorem exitCandidates_settled (cache : ExitCache)
    (same : records.map MinipoolRecord.settled = others.map MinipoolRecord.settled) :
    (exitCandidates cache records).map (·.pubkey) = (exitCandidates cache others).map (·.pubkey) := by
  have hsettled (records : List MinipoolRecord) : (exitCandidates cache records).map (·.pubkey) =
      (exitCandidates cache (records.map MinipoolRecord.settled)).map (·.pubkey) := by
    unfold exitCandidates
    rw [List.filter_map, List.map_map]
    have hsame : ((·.pubkey) ∘ MinipoolRecord.settled : MinipoolRecord → PubKey) = (·.pubkey) := by
      funext r
      exact r.settled_pubkey
    rw [hsame]
    refine congrArg (List.map _) (List.filter_congr fun r _ => ?_)
    simp
  rw [hsettled records, hsettled others, same]

theorem Net.exited_congr {n n' : Net} (hbeacon : n.beacon.still = n'.beacon.still)
    (hkeys : n.keys = n'.keys) (hservice : n.service = n'.service)
    (same : records.map MinipoolRecord.settled = others.map MinipoolRecord.settled)
    (task : ExitTask) (time : Option Instant) :
    n.exited task time records = n'.exited task time others := by
  have hconfig : n.configOf task = n'.configOf task := by
    have hsame := congrArg Beacon.config hbeacon
    exact congrArg task.knownConfig.getD hsame
  unfold exited
  dsimp only
  rw [hconfig, hservice]
  split
  · exact exitOf_congr hbeacon hkeys hservice (exitCandidates_settled _ same) _ _
  split
  · refine exitOf_congr ?_ ?_ ?_ (exitCandidates_settled _ same) _ _
    · exact hbeacon
    · exact hkeys
    · rfl
  · rfl

end

theorem Net.exited_execute (n : Net) (batch : Option (Instant × List StakeEntry × FeeSettings))
    (task : ExitTask) (time : Option Instant) (records : List MinipoolRecord) :
    (n.execute batch).exited task time records = n.exited task time records := by
  rw [execute_eq]
  exact exited_congr rfl rfl rfl rfl task time

/-! ## Times in range -/

/-- The times that a daemon computes with are in the range of instants: the time of the block, and
the ends of the reviews of the minipools in prelaunch, in whole seconds. -/
structure Chain.InRange (c : Chain) : Prop where
  time : ∃ now, c.header.time? = some now
  reviews : ∀ r ∈ c.minipools, r.status = .prelaunch →
    ∃ e, (r.shown r.node).reviewEnd? c.settings.scrubPeriod.floorSecs = some e

theorem Chain.InRange.shownAt {c : Chain} (inRange : c.InRange) {node a : Address}
    (h : (c.shownAt node a).status = .prelaunch) :
    ∃ e, (c.shownAt node a).reviewEnd? c.settings.scrubPeriod.floorSecs = some e := by
  unfold Chain.shownAt at h ⊢
  cases hr : c.minipool? a with
  | none =>
    rw [hr] at h
    cases h
  | some r =>
    rw [hr] at h
    exact inRange.reviews r (List.mem_of_find?_eq_some hr) h

/-- With all times in range, both tasks run to an end. -/
theorem Net.runs_end {n : Net} (inRange : n.chain.InRange) (stake : StakeTask) (exit : ExitTask)
    (node : Address) (addresses : List Address) :
    let found := addresses.map (n.chain.shownAt node)
    (∃ result next, n.stakeEnding stake found = .done (result, next)) ∧
      ∃ result next service, (n.execute (n.batch? stake found)).exited exit n.chain.header.time?
        found = (.done (result, next), service) := by
  intro found
  obtain ⟨now, htime⟩ := inRange.time
  constructor
  · refine Net.stakeEnding_done_iff.2 fun _ =>
      ⟨(now, _), StakeView.eligible?_eq_some_iff.2 ⟨htime, fun r hr hs => ?_, rfl⟩⟩
    obtain ⟨a, _, rfl⟩ := List.mem_map.1 hr
    exact inRange.shownAt hs
  · rcases (n.execute (n.batch? stake found)).exited_cases exit n.chain.header.time? found with
      hends | ⟨hnone, _⟩
    · exact hends
    · rw [htime] at hnone
      cases hnone

/-! ## Ticks -/

section
variable {n n₁ n' : Net} {snapshot : NetworkSnapshot}

/-- How many failed runs a result stands for. -/
def failures : Except TaskError Unit → Nat
  | .ok _ => 0
  | .error _ => 1

theorem note_plays (e : Event) (n : Net) : (Routine.note e).Plays n (.done ()) n := ⟨rfl, rfl⟩

section
variable {task next : DaemonTask} {rest tasks : List DaemonTask} {result : Except TaskError Unit}

theorem runTasks_nil_plays (snapshot : NetworkSnapshot) (n : Net) :
    (TaskLoop.runTasks snapshot ([] : List DaemonTask)).Plays n (.done ([], 0)) n :=
  Routine.plays_done ([], 0) n

theorem runTasks_cons_plays {failed : Nat}
    (h : (DaemonTask.run snapshot).Plays task n (.done (result, next)) n₁)
    (hrest : (TaskLoop.runTasks snapshot rest).Plays n₁ (.done (tasks, failed)) n') :
    (TaskLoop.runTasks snapshot (task :: rest)).Plays n
      (.done (next :: tasks, failed + failures result)) n' := by
  refine (note_plays _ n).bind (Routine.Plays.bind h ?_)
  rcases result with e | _
  · exact (note_plays _ n₁).bind (hrest.bind (Routine.plays_done _ n'))
  · exact hrest.bind (Routine.plays_done _ n')

theorem runTasks_rest_crashed {c : Crash}
    (h : (DaemonTask.run snapshot).Plays task n (.done (result, next)) n₁)
    (hrest : (TaskLoop.runTasks snapshot rest).Plays n₁ (.crashed c) n') :
    (TaskLoop.runTasks snapshot (task :: rest)).Plays n (.crashed c) n' := by
  refine (note_plays _ n).bind (Routine.Plays.bind h ?_)
  rcases result with e | _
  · exact (note_plays _ n₁).bind (hrest.bind_crashed _)
  · exact hrest.bind_crashed _

theorem runTasks_crashed {c : Crash} (rest : List DaemonTask)
    (h : (DaemonTask.run snapshot).Plays task n (.crashed c) n') :
    (TaskLoop.runTasks snapshot (task :: rest)).Plays n (.crashed c) n' :=
  (note_plays _ n).bind (Routine.Plays.bind_crashed h _)

end

/-- What the exit tasks of a loop have cached. -/
def exitCaches (loop : TaskLoop DaemonTask) : List ExitCache :=
  loop.tasks.filterMap fun
    | .stake _ => none
    | .exit task => some task.sent

/-- The standard loop with its tasks in any state. -/
structure Standard (loop : TaskLoop DaemonTask) (stake : StakeTask) (exit : ExitTask) : Prop where
  tasks : loop.tasks = [.stake stake, .exit exit]
  runner : stake.runner = loop.runner

section
variable {loop : TaskLoop DaemonTask}

theorem attempt_plays {q : Request} {answer : Except CallError q.Reply} (hq : q.isLook = true)
    (ha : (n.answer q).1 = .answered answer) : (Routine.attempt q).Plays n (.done answer) n :=
  Routine.plays_look hq ha (Routine.plays_done answer n)

theorem checkSync_plays (layer : Layer) (status : SyncStatus) (n : Net) :
    (TaskLoop.checkSync layer (.ok status)).Plays n (.done status.isSynced) n := by
  obtain ⟨synced, progress⟩ := status
  cases synced
  · exact ⟨rfl, rfl⟩
  · exact ⟨rfl, rfl⟩

theorem execution_plays (n : Net) :
    (Routine.attempt .executionSync).Plays n (.done (.ok n.chain.syncStatus)) n :=
  attempt_plays (q := .executionSync) rfl rfl

theorem consensus_plays (n : Net) :
    (Routine.attempt .consensusSync).Plays n (.done (.ok n.beacon.syncStatus)) n :=
  attempt_plays (q := .consensusSync) rfl rfl

theorem tick_plays_unsynced (loop : TaskLoop DaemonTask)
    (h : ¬(n.chain.synced = true ∧ n.beacon.synced = true)) :
    ∃ outcome, outcome.waitsForSync = true ∧ loop.tick.Plays n (.done (outcome, loop)) n := by
  have hexecution : n.chain.syncStatus.isSynced = n.chain.synced := by
    cases hs : n.chain.synced <;> simp [Chain.syncStatus, hs]
  have hconsensus : n.beacon.syncStatus.isSynced = n.beacon.synced := by
    cases hs : n.beacon.synced <;> simp [Beacon.syncStatus, hs]
  have hfirst := checkSync_plays .execution n.chain.syncStatus n
  have hlast := checkSync_plays .consensus n.beacon.syncStatus n
  rw [hexecution] at hfirst
  rw [hconsensus] at hlast
  cases hs : n.chain.synced with
  | false =>
    rw [hs] at hfirst
    exact ⟨.executionNotSynced, rfl,
      (execution_plays n).bind (hfirst.bind (Routine.plays_done _ n))⟩
  | true =>
    have hunsynced : n.beacon.synced = false := Bool.eq_false_iff.2 fun hb => h ⟨hs, hb⟩
    rw [hs] at hfirst
    rw [hunsynced] at hlast
    exact ⟨.consensusNotSynced, rfl, (execution_plays n).bind (hfirst.bind
      ((consensus_plays n).bind (hlast.bind (Routine.plays_done _ n))))⟩

theorem tick_plays_synced {ending : Ending (TickOutcome × TaskLoop DaemonTask)}
    (synced : n.chain.synced = true ∧ n.beacon.synced = true)
    (h : Routine.Plays (do
      match ← loop.runner.collect.run with
      | .error e =>
        Routine.note (.snapshotFailed e)
        pure (.snapshotFailed, loop)
      | .ok snapshot =>
        let (tasks, failed) ← TaskLoop.runTasks snapshot loop.tasks
        pure (.completed failed, { loop with tasks })) n ending n') :
    loop.tick.Plays n ending n' := by
  have hfirst := checkSync_plays .execution n.chain.syncStatus n
  have hlast := checkSync_plays .consensus n.beacon.syncStatus n
  rw [Chain.syncStatus, if_pos synced.1] at hfirst
  rw [Beacon.syncStatus, if_pos synced.2] at hlast
  refine (execution_plays n).bind ?_
  rw [Chain.syncStatus, if_pos synced.1]
  refine hfirst.bind ((consensus_plays n).bind ?_)
  rw [Beacon.syncStatus, if_pos synced.2]
  exact hlast.bind h

theorem collected_plays {r : Except QueryError (List MinipoolRecord)}
    (h : n.chain.gathered loop.runner = .done r) :
    loop.runner.collect.Plays n (.done (r.map (n.chain.snapshot loop.runner.node))) n := by
  have hcollect := collect_plays n loop.runner
  unfold Chain.collected at hcollect
  rw [h] at hcollect
  rcases r with e | validators
  · exact hcollect
  · exact hcollect

theorem tick_plays_error (synced : n.chain.synced = true ∧ n.beacon.synced = true)
    {e : QueryError} (h : n.chain.gathered loop.runner = .done (.error e)) :
    loop.tick.Plays n (.done (.snapshotFailed, loop)) n :=
  tick_plays_synced synced (Routine.Plays.bind (collected_plays h)
    ((note_plays _ n).bind (Routine.plays_done _ n)))

theorem tick_plays_crashed (synced : n.chain.synced = true ∧ n.beacon.synced = true)
    {c : Crash} (h : n.chain.gathered loop.runner = .crashed c) :
    loop.tick.Plays n (.crashed c) n := by
  have hcollect := collect_plays n loop.runner
  unfold Chain.collected at hcollect
  rw [h] at hcollect
  exact tick_plays_synced synced (Routine.Plays.bind_crashed hcollect _)

variable {stake : StakeTask} {exit : ExitTask} {validators : List MinipoolRecord}

theorem stake_plays_daemon (standard : Standard loop stake exit)
    (h : n.chain.gathered loop.runner = .done (.ok validators)) {result : Except TaskError Unit}
    {next : StakeTask} (hends : n.stakeEnding stake validators = .done (result, next)) :
    (DaemonTask.run (n.chain.snapshot loop.runner.node validators)).Plays (.stake stake) n
      (.done (result, .stake next)) (n.execute (n.batch? stake validators)) := by
  rw [← standard.runner] at h
  have hstake := stake_plays stake h loop.runner.node
  rw [hends] at hstake
  exact Routine.Plays.bind hstake (Routine.plays_done _ _)

theorem exit_plays_daemon (n₁ : Net) (node : Address) {result : Except TaskError Unit}
    {next : ExitTask} {service : Service}
    (hends : n₁.exited exit n.chain.header.time? validators = (.done (result, next), service)) :
    (DaemonTask.run (n.chain.snapshot node validators)).Plays (.exit exit) n₁
      (.done (result, .exit next)) { n₁ with service } := by
  have hexit := exit_plays n₁ exit (n.chain.snapshot node validators)
  change StatefulRoutine.Plays _ exit n₁ (n₁.exited exit n.chain.header.time? validators).1
    { n₁ with service := (n₁.exited exit n.chain.header.time? validators).2 } at hexit
  rw [hends] at hexit
  exact Routine.Plays.bind hexit (Routine.plays_done _ _)

theorem exit_crashes_daemon (n₁ : Net) (node : Address) {c : Crash} {service : Service}
    (hends : n₁.exited exit n.chain.header.time? validators = (.crashed c, service)) :
    (DaemonTask.run (n.chain.snapshot node validators)).Plays (.exit exit) n₁ (.crashed c)
      { n₁ with service } := by
  have hexit := exit_plays n₁ exit (n.chain.snapshot node validators)
  change StatefulRoutine.Plays _ exit n₁ (n₁.exited exit n.chain.header.time? validators).1
    { n₁ with service := (n₁.exited exit n.chain.header.time? validators).2 } at hexit
  rw [hends] at hexit
  exact Routine.Plays.bind_crashed hexit _

section
variable (standard : Standard loop stake exit)
  (synced : n.chain.synced = true ∧ n.beacon.synced = true)
  (found : n.chain.gathered loop.runner = .done (.ok validators))
include standard synced found

theorem tick_plays_stake_crashed {c : Crash} (hends : n.stakeEnding stake validators = .crashed c) :
    loop.tick.Plays n (.crashed c) (n.execute (n.batch? stake validators)) := by
  have hgathered := found
  rw [← standard.runner] at hgathered
  have hstake := stake_plays stake hgathered loop.runner.node
  rw [hends] at hstake
  have hcrashed : (DaemonTask.run (n.chain.snapshot loop.runner.node validators)).Plays
      (.stake stake) n (.crashed c) (n.execute (n.batch? stake validators)) :=
    Routine.Plays.bind_crashed hstake _
  have hran := runTasks_crashed [.exit exit] hcrashed
  rw [← standard.tasks] at hran
  exact tick_plays_synced synced (Routine.Plays.bind (collected_plays found) (hran.bind_crashed _))

variable {result : Except TaskError Unit} {next : StakeTask} {service : Service}
  (staked : n.stakeEnding stake validators = .done (result, next))
include staked

theorem tick_plays_exit_crashed {c : Crash}
    (hends : (n.execute (n.batch? stake validators)).exited exit n.chain.header.time? validators =
      (.crashed c, service)) :
    loop.tick.Plays n (.crashed c) { n.execute (n.batch? stake validators) with service } := by
  have hexit := runTasks_crashed [] (exit_crashes_daemon _ loop.runner.node hends)
  have hran := runTasks_rest_crashed (stake_plays_daemon standard found staked) hexit
  rw [← standard.tasks] at hran
  exact tick_plays_synced synced (Routine.Plays.bind (collected_plays found) (hran.bind_crashed _))

/-- A tick runs each task once on one snapshot: the chain executes the batch of the staking task,
and the exit task leaves its service. -/
theorem tick_plays_completed {left : Except TaskError Unit} {last : ExitTask}
    (exited : (n.execute (n.batch? stake validators)).exited exit n.chain.header.time? validators =
      (.done (left, last), service)) :
    loop.tick.Plays n
      (.done (.completed (failures left + failures result),
        { loop with tasks := [.stake next, .exit last] }))
      { n.execute (n.batch? stake validators) with service } := by
  have hexit := runTasks_cons_plays (exit_plays_daemon _ loop.runner.node exited)
    (runTasks_nil_plays _ _)
  have hran := runTasks_cons_plays (stake_plays_daemon standard found staked) hexit
  rw [← standard.tasks, Nat.zero_add] at hran
  exact tick_plays_synced synced (Routine.Plays.bind (collected_plays found)
    (hran.bind (Routine.plays_done _ _)))

end

/-- A tick with all times in range leaves the service as its run of the exit task does. -/
theorem tick_service {addresses : List Address} (inRange : n.chain.InRange)
    (standard : Standard loop stake exit) (synced : n.chain.synced = true ∧ n.beacon.synced = true)
    (found : n.chain.gathered loop.runner =
      .done (.ok (addresses.map (n.chain.shownAt loop.runner.node)))) :
    (loop.tick.runWith Net.handler n).2.service =
      (n.exited exit n.chain.header.time?
        (addresses.map (n.chain.shownAt loop.runner.node))).2 := by
  obtain ⟨⟨result, last, hstake⟩, result', last', service, hexit⟩ :=
    Net.runs_end inRange stake exit loop.runner.node addresses
  obtain ⟨_, hleft⟩ := tick_plays_completed standard synced found hstake hexit
  rw [Net.exited_execute] at hexit
  rw [Net.service_of_still hleft, hexit]

/-- What a tick that completes found, and the runs of its tasks. -/
theorem tick_plays_inv (standard : Standard loop stake exit) {failed : Nat}
    {next : TaskLoop DaemonTask} (h : loop.tick.Plays n (.done (.completed failed, next)) n') :
    (n.chain.synced = true ∧ n.beacon.synced = true) ∧ n.chain.failReads = false ∧
      ∃ addresses, n.chain.listing loop.runner = .done (.ok addresses) ∧
        let found := addresses.map (n.chain.shownAt loop.runner.node)
        let left := n.execute (n.batch? stake found)
        ∃ result last result' last' service,
          n.stakeEnding stake found = .done (result, last) ∧
            left.exited exit n.chain.header.time? found = (.done (result', last'), service) ∧
              next = { loop with tasks := [.stake last, .exit last'] } ∧
                n'.still = ({ left with service } : Net).still := by
  by_cases synced : n.chain.synced = true ∧ n.beacon.synced = true
  case neg =>
    obtain ⟨outcome, hwaits, hplays⟩ := tick_plays_unsynced loop synced
    cases (h.unique hplays).1
    cases hwaits
  refine ⟨synced, ?_⟩
  rcases hgathered : n.chain.gathered loop.runner with (e | found) | c | _
  case done.error => cases (h.unique (tick_plays_error synced hgathered)).1
  case crashed => cases (h.unique (tick_plays_crashed synced hgathered)).1
  case cancelled => exact absurd hgathered (n.chain.gathered_ends loop.runner)
  obtain ⟨hreads, addresses, hlisting, rfl⟩ := Chain.gathered_inv hgathered
  refine ⟨hreads, addresses, hlisting, ?_⟩
  dsimp only
  generalize addresses.map (n.chain.shownAt loop.runner.node) = found at hgathered
  rcases n.stakeEnding_cases stake found with ⟨result, last, hstake⟩ | ⟨c, hstake⟩
  case inr => cases (h.unique (tick_plays_stake_crashed standard synced hgathered hstake)).1
  rcases (n.execute (n.batch? stake found)).exited_cases exit n.chain.header.time? found with
    ⟨result', last', service, hexit⟩ | ⟨_, c, service, hexit⟩
  case inr =>
    cases (h.unique (tick_plays_exit_crashed standard synced hgathered hstake hexit)).1
  obtain ⟨hending, hstill⟩ :=
    h.unique (tick_plays_completed standard synced hgathered hstake hexit)
  cases hending
  exact ⟨result, last, result', last', service, hstake, hexit, rfl, hstill⟩

end

end

end Devnet

end StakeKeeper
