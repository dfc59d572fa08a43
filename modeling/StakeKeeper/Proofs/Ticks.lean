import StakeKeeper.Proofs.Exit.Conduct
import StakeKeeper.Proofs.Query.Single
import StakeKeeper.Proofs.Stake.Conduct
import StakeKeeper.TaskLoop

/-!
How a tick ends. Main statements: `TaskLoop.tick_crashes` (a status time that no instant holds
breaks a tick off, and with it the loop) and `TaskLoop.tick_completes` (while the times that are
answered are in range a tick ends with an outcome, whatever its tasks hold and whatever else is
answered).
-/
namespace StakeKeeper
set_option autoImplicit false

theorem Routine.runs_attempt_bind_iff {α : Type} {q : Request} {answer : Except CallError q.Reply}
    {f : Except CallError q.Reply → Routine α} {rest : List Step} {ending : Ending α} :
    (Routine.attempt q >>= f).Runs (.asked q answer :: rest) ending ↔
      (f answer).Runs rest ending := by
  constructor
  · rintro ⟨_, _, hsteps, h⟩
    cases hsteps
    exact h
  · exact fun h => ⟨answer, rest, rfl, h⟩

/-- How many addresses the query of a task reads at once, at most. -/
def DaemonTask.addressPage : DaemonTask → Nat
  | .stake task => task.runner.pages.addresses.toNat
  | .exit _ => 0

namespace TaskLoop

/-! ## Ticks of clients in sync -/

theorem runs_tick_synced_iff {τ : Type} [ScheduledTask τ] {loop : TaskLoop τ}
    {execution consensus : SyncStatus} {rest : List Step}
    {ending : Ending (TickOutcome × TaskLoop τ)}
    (hexecution : execution.isSynced = true) (hconsensus : consensus.isSynced = true) :
    loop.tick.Runs (.asked .executionSync (.ok execution) ::
        .asked .consensusSync (.ok consensus) :: rest) ending ↔
      (∃ c, ending = .crashed c ∧ loop.runner.collect.Runs rest (.crashed c)) ∨
        (∃ e queried, rest = queried ++ [.noted (.snapshotFailed e)] ∧
          loop.runner.collect.Runs queried (.done (.error e)) ∧
            ending = .done (.snapshotFailed, loop)) ∨
          ∃ snapshot queried more, rest = queried ++ more ∧
            loop.runner.collect.Runs queried (.done (.ok snapshot)) ∧
              ((∃ c, ending = .crashed c ∧
                  (runTasks snapshot loop.tasks).Runs more (.crashed c)) ∨
                ∃ tasks failed, ending = .done (.completed failed, { loop with tasks }) ∧
                  (runTasks snapshot loop.tasks).Runs more (.done (tasks, failed))) := by
  have synced {layer : Layer} {status : SyncStatus} (h : status.isSynced = true) {α : Type}
      {f : Bool → Routine α} {steps : List Step} {ending : Ending α} :
      (checkSync layer (.ok status) >>= f).Runs steps ending ↔ (f true).Runs steps ending := by
    unfold checkSync
    dsimp only
    rw [if_pos h, pure_bind]
  unfold tick
  refine Routine.runs_attempt_bind_iff.trans ((synced hexecution).trans ?_)
  rw [if_neg (by decide)]
  refine Routine.runs_attempt_bind_iff.trans ((synced hconsensus).trans ?_)
  rw [if_neg (by decide)]
  refine Routine.Runs.bind_iff.trans (or_congr_right ?_)
  constructor
  · rintro ⟨e | snapshot, queried, more, rfl, hquery, hmore⟩
    · obtain ⟨_, rfl, rfl, rfl⟩ := hmore
      exact .inl ⟨e, queried, rfl, hquery, rfl⟩
    · refine .inr ⟨snapshot, queried, more, rfl, hquery, ?_⟩
      rcases Routine.Runs.bind_iff.1 hmore with
        hcrash | ⟨⟨tasks, failed⟩, ran, last, rfl, htasks, rfl, rfl⟩
      · exact .inl hcrash
      · rw [List.append_nil]
        exact .inr ⟨tasks, failed, rfl, htasks⟩
  · rintro (⟨e, queried, rfl, hquery, rfl⟩ | ⟨snapshot, queried, more, rfl, hquery, hmore⟩)
    · exact ⟨.error e, queried, _, rfl, hquery, _, rfl, rfl, rfl⟩
    · refine ⟨.ok snapshot, queried, more, rfl, hquery, Routine.Runs.bind_iff.2 ?_⟩
      rcases hmore with hcrash | ⟨tasks, failed, rfl, htasks⟩
      · exact .inl hcrash
      · exact .inr ⟨(tasks, failed), more, [], (List.append_nil _).symm, htasks, rfl, rfl⟩

/-! ## Snapshots of one minipool -/

section
-- The range of instants is never computed with below.
seal Instant.ofNanos?

variable {runner : QueryRunner} {header : BlockHeader} {scrub timeout : UInt64} {stake : Uint256}
  {record : MinipoolRecord} {secs : UInt64}

/-- The steps of a snapshot query that finds one minipool, up to the minipool's fields. -/
def soleSteps (runner : QueryRunner) (header : BlockHeader) (scrub timeout : UInt64)
    (stake : Uint256) (record : MinipoolRecord) (secs : UInt64) : List Step :=
  let block := header.number
  [.asked (.header none) (.ok header), .asked (.refresh .execution) (.ok ()),
    .asked (.refresh .protocol) (.ok ()),
    .asked (.multicall
        (.minipoolCount runner.node :: .activeCount runner.node :: settingsReads) block)
      (.ok [.uint (.ofUInt64 1), .uint (.ofUInt64 1), .uint (.ofUInt64 scrub),
        .uint (.ofUInt64 timeout), .uint stake]),
    .asked (.multicall [.minipoolAt runner.node 0] block) (.ok [.address record.address]),
    .asked (.multicall (allFields.map (.minipool record.address)) block) (.ok (record.values secs))]

/-- What such a query does from the minipool's fields on. -/
def soleDetails (runner : QueryRunner) (header : BlockHeader) (settings : NetworkSettings)
    (a : Address) : QueryRoutine NetworkSnapshot := do
  let validators ← runner.details header.number allFields [a]
  FailingRoutine.note (.queryComplete runner.node header.number validators.length)
  FailingRoutine.ofExcept
    (snapshotQuery.finish (1, settings) ⟨header, runner.node, [a], validators, none⟩)

theorem soleSteps_inRange {latest width : Nat} (hheader : header.timestamp.toNat < secondsBound)
    (hscrub : latest + scrub.toNat < secondsBound) (hsecs : secs.toNat ≤ latest) :
    ∀ step ∈ soleSteps runner header scrub timeout stake record secs,
      step.InRange latest width := by
  have taken {n m : UInt64} (h : (ReadValue.uint (.ofUInt64 n)).asUint64 = .ok m) : m = n := by
    rw [ReadValue.asUint64_ofUInt64] at h
    cases h
    rfl
  have hcount : (ContractRead.minipoolCount runner.node).InRange latest width
      (.uint (.ofUInt64 1)) := by
    intro n hn
    rw [taken hn]
    exact Nat.le_trans (Nat.min_le_left ..) (by decide)
  have hreview : ContractRead.scrubPeriod.InRange latest width (.uint (.ofUInt64 scrub)) := by
    intro n hn
    rw [taken hn]
    exact hscrub
  have hchange : (ContractRead.minipool record.address .statusTime).InRange latest width
      (.uint (.ofUInt64 secs)) := by
    intro n hn
    rw [taken hn]
    exact hsecs
  unfold soleSteps
  simp only [List.forall_mem_cons, Step.InRange, Request.InRange, settingsReads, allFields,
    MinipoolRecord.values, List.map_cons, List.map_nil, List.zip_cons_cons, List.zip_nil_right,
    List.not_mem_nil, false_implies, implies_true, and_true, true_and]
  refine ⟨hheader, ⟨hcount, ?_, hreview, ?_, ?_⟩, ?_, ?_, ?_, hchange, ?_, ?_⟩
  case refine_4 => exact Nat.lt_of_lt_of_le Nat.zero_lt_one (by decide)
  all_goals trivial

theorem gather_sole {last : List Step} {ending : Ending (Except QueryError NetworkSnapshot)}
    (h : (soleDetails runner header ⟨.ofSecs scrub, .ofSecs timeout, stake⟩ record.address).Runs
      (.asked (.multicall (allFields.map (.minipool record.address)) header.number)
        (.ok (record.values secs)) :: last) ending) :
    (runner.gather snapshotQuery header none).Runs
      ((soleSteps runner header scrub timeout stake record secs).drop 3 ++ last) ending := by
  let reads := .minipoolCount runner.node :: .activeCount runner.node :: settingsReads
  let values : List ReadValue := [.uint (.ofUInt64 1), .uint (.ofUInt64 1),
    .uint (.ofUInt64 scrub), .uint (.ofUInt64 timeout), .uint stake]
  have hread : (QueryRoutine.multicall reads header.number).Runs
      [.asked (.multicall reads header.number) (.ok values)] (.done (.ok values)) :=
    multicall_runs header.number rfl
  have hcount : QueryRoutine.taking (ReadValue.uint (.ofUInt64 1)).asUint64 =
      .ofExcept (.ok 1) := by
    rw [ReadValue.asUint64_ofUInt64]
    rfl
  have hown : snapshotQuery.decodeOwn values.tail =
      .ok (1, ⟨.ofSecs scrub, .ofSecs timeout, stake⟩) := by
    have hsettings := decodeSettings_values scrub timeout stake
    simp only [snapshotQuery, values, List.tail_cons, ReadValue.asUint64_ofUInt64, hsettings]
    rfl
  refine hread.bind ?_
  dsimp only [values]
  rw [hcount]
  refine FailingRoutine.runs_ofExcept_bind_iff.2 (.inl ⟨_, rfl, ?_⟩)
  refine FailingRoutine.runs_ofExcept_bind_iff.2 (.inl ⟨_, hown, ?_⟩)
  exact (addresses_single runner header.number record.address).bind h

theorem prepare_sole : snapshotQuery.prepare.Runs
    [.asked (.refresh .execution) (.ok ()), .asked (.refresh .protocol) (.ok ())]
    (.done (.ok (.ready none))) :=
  ⟨.ok (), _, rfl, .ok (), _, rfl, rfl, rfl⟩

/-- The events of a snapshot that shows one minipool. -/
def soleEvents (snapshot : NetworkSnapshot) : List Event :=
  .queryComplete snapshot.node snapshot.header.number 1 ::
    ((if snapshot.settings.looksValid then []
      else [.settingsUnset snapshot.header.number snapshot.settings]) ++
        [.snapshotCollected snapshot.node snapshot.header.number 1 snapshot.activeCount])

theorem collect_sole (header : BlockHeader) (scrub timeout : UInt64) (stake : Uint256)
    (hnode : record.node = runner.node) (htime : Instant.ofSecs? secs = some record.statusTime)
    (hbeacon : record.beacon = none) :
    let snapshot : NetworkSnapshot :=
      ⟨header, ⟨.ofSecs scrub, .ofSecs timeout, stake⟩, runner.node, 1, [record]⟩
    runner.collect.Runs
      (soleSteps runner header scrub timeout stake record secs ++
        (soleEvents snapshot).map .noted) (.done (.ok snapshot)) := by
  intro snapshot
  have hsole : (soleDetails runner header snapshot.settings record.address).Runs _
      (.done (.ok snapshot)) :=
    (details_single header.number hnode htime hbeacon).bind
      (FailingRoutine.runs_note_bind_iff.2 ⟨_, rfl, rfl, rfl⟩)
  have hrun : (runner.run snapshotQuery).Runs _ (.done (.ok (.ready snapshot))) :=
    FailingRoutine.runs_call_bind_iff.2 (.inr ⟨header, _, rfl,
      prepare_sole.bind ((gather_sole hsole).bind_pure QueryOutcome.ready)⟩)
  cases hvalid : snapshot.settings.looksValid with
  | true =>
    rw [soleEvents, hvalid]
    refine hrun.bind ?_
    dsimp only
    rw [hvalid]
    exact ⟨_, rfl, rfl, rfl⟩
  | false =>
    rw [soleEvents, hvalid]
    refine hrun.bind ?_
    dsimp only
    rw [hvalid]
    exact ⟨_, rfl, _, rfl, rfl, rfl⟩

theorem details_late (hlate : secondsBound ≤ secs.toNat) (block : UInt64) :
    (runner.details block allFields [record.address]).Runs
      [.asked (.multicall (allFields.map (.minipool record.address)) block)
        (.ok (record.values secs))] (.crashed .timeRange) := by
  have hread : (QueryRoutine.multicall (detailReads allFields [record.address]) block).Runs
      [.asked (.multicall (allFields.map (.minipool record.address)) block)
        (.ok (record.values secs))] (.done (.ok (record.values secs))) := multicall_runs block rfl
  have hpages : pages runner.pages.details.toNat [record.address] = [[record.address]] := rfl
  have htime := Instant.ofSecs?_eq_none hlate
  have hrecords : (recordsOf runner.node allFields [record.address] (record.values secs)).run =
      none := by
    rw [recordsOf, List.take_of_length_le (Nat.le_refl 5)]
    simp only [MinipoolRecord.setFields, MinipoolRecord.setField, MinipoolRecord.withField,
      allFields, MinipoolRecord.values, List.zip_cons_cons, List.zip_nil_right,
      decodeStatus_code, ReadValue.asUint64_ofUInt64, ReadValue.asBool, Except.map, htime,
      Option.map_none]
    rfl
  unfold QueryRunner.details
  rw [if_neg (by decide), hpages, detailsOf]
  refine hread.bind (FailingRoutine.runs_bind_iff.2 (.inl ⟨.timeRange, rfl, ?_⟩))
  unfold QueryRoutine.ofDecoding
  rw [hrecords]
  exact ⟨rfl, rfl⟩

theorem collect_late (header : BlockHeader) (scrub timeout : UInt64) (stake : Uint256)
    (hlate : secondsBound ≤ secs.toNat) :
    runner.collect.Runs (soleSteps runner header scrub timeout stake record secs)
      (.crashed .timeRange) := by
  have hdetails : (soleDetails runner header ⟨.ofSecs scrub, .ofSecs timeout, stake⟩
      record.address).Runs _ (.crashed .timeRange) :=
    FailingRoutine.runs_bind_iff.2 (.inl ⟨_, rfl, details_late hlate header.number⟩)
  have hgather : FailingRoutine.Runs (do
      let output ← runner.gather snapshotQuery header none
      pure (QueryOutcome.ready output)) _ (.crashed .timeRange) :=
    FailingRoutine.runs_bind_iff.2 (.inl ⟨_, rfl, gather_sole hdetails⟩)
  have hrun : (runner.run snapshotQuery).Runs _ (.crashed .timeRange) :=
    FailingRoutine.runs_call_bind_iff.2 (.inr ⟨header, _, rfl, prepare_sole.bind hgather⟩)
  exact FailingRoutine.runs_bind_iff.2 (.inl ⟨_, rfl, hrun⟩)

/-! ## A time out of range -/

/-- A minipool whose status time is out of range breaks a tick off, whatever else it shows. -/
theorem tick_crashes (loop : TaskLoop DaemonTask) (header : BlockHeader) (scrub timeout : UInt64)
    (stake : Uint256) (record : MinipoolRecord) (hlate : secondsBound ≤ secs.toNat) :
    loop.tick.Runs (.asked .executionSync (.ok ⟨true, 1⟩) ::
      .asked .consensusSync (.ok ⟨true, 1⟩) ::
        soleSteps loop.runner header scrub timeout stake record secs) (.crashed .timeRange) :=
  (runs_tick_synced_iff rfl rfl).2
    (.inl ⟨.timeRange, rfl, collect_late header scrub timeout stake hlate⟩)

def stakingSince (t : Instant) : MinipoolRecord :=
  { MinipoolRecord.empty (Bytes.zero 20) (Bytes.zero 20) with status := .staking, statusTime := t }

theorem tick_crashes_default : Config.default.check = .ok () ∧
    (ofConfig .default (Bytes.zero 20)).tick.Runs
      (.asked .executionSync (.ok ⟨true, 1⟩) :: .asked .consensusSync (.ok ⟨true, 1⟩) ::
        soleSteps ⟨Bytes.zero 20, ⟨1000, 100⟩⟩ ⟨7, Bytes.zero 32, 1⟩ 0 1 .zero
          (stakingSince .epoch) 0x8000000000000000) (.crashed .timeRange) :=
  ⟨rfl, tick_crashes (ofConfig .default (Bytes.zero 20)) _ 0 1 .zero _ (by decide)⟩

/-! ## Times in range -/

/-- How many addresses the queries of a loop and its tasks read at once, at most. -/
def addressPage (loop : TaskLoop DaemonTask) : Nat :=
  (loop.tasks.map DaemonTask.addressPage).foldr max loop.runner.pages.addresses.toNat

theorem le_addressPage (loop : TaskLoop DaemonTask) :
    loop.runner.pages.addresses.toNat ≤ loop.addressPage ∧
      ∀ task ∈ loop.tasks, task.addressPage ≤ loop.addressPage := by
  unfold addressPage
  induction loop.tasks with
  | nil => exact ⟨Nat.le_refl _, fun _ h => nomatch h⟩
  | cons task rest ih =>
    refine ⟨Nat.le_trans ih.1 (Nat.le_max_right ..), ?_⟩
    refine List.forall_mem_cons.2 ⟨Nat.le_max_left .., ?_⟩
    exact fun task htask => Nat.le_trans (ih.2 task htask) (Nat.le_max_right ..)

section
variable {latest width : Nat} (hlatest : latest < secondsBound)
include hlatest

theorem task_inRange {snapshot : NetworkSnapshot}
    (hsnapshot : snapshot.header.timestamp.toNat < secondsBound) {task : DaemonTask}
    (hwidth : task.addressPage ≤ width) :
    Routine.Keeps (inRange latest width) (fun _ => True)
      ((DaemonTask.run snapshot).run.run task) := by
  cases task with
  | stake task =>
    have h := StakeTask.run_inRange hlatest hwidth snapshot
    exact h.bind fun _ _ => trivial
  | exit task =>
    have htime : snapshot.header.time? = none → (inRange latest width).crashes :=
      BlockHeader.time?_ne_none hsnapshot
    have h := ExitTask.run_keeps (fun _ _ => trivial) htime task
    exact Routine.Keeps.bind h fun _ _ => trivial

theorem runTasks_inRange {snapshot : NetworkSnapshot}
    (hsnapshot : snapshot.header.timestamp.toNat < secondsBound) {tasks : List DaemonTask}
    (hwidth : ∀ task ∈ tasks, task.addressPage ≤ width) :
    (runTasks snapshot tasks).Keeps (inRange latest width) fun _ => True := by
  induction tasks with
  | nil => trivial
  | cons task rest ih =>
    have hrun := task_inRange hlatest hsnapshot (hwidth task List.mem_cons_self)
    have hrest := ih fun task htask => hwidth task (List.mem_cons_of_mem _ htask)
    refine Routine.keeps_note.bind fun _ _ => Routine.Keeps.bind hrun fun ran _ => ?_
    obtain ⟨result, next⟩ := ran
    cases result with
    | error e => exact Routine.keeps_note.bind fun _ _ => hrest.bind fun _ _ => trivial
    | ok _ => exact hrest.bind fun _ _ => trivial

theorem tick_inRange (loop : TaskLoop DaemonTask) :
    loop.tick.Keeps (inRange latest loop.addressPage) fun _ => True := by
  have check (layer : Layer) (answer : Except CallError SyncStatus) :
      (checkSync layer answer).Keeps (inRange latest loop.addressPage) fun _ => True := by
    unfold checkSync
    rcases answer with e | status
    · trivial
    · dsimp only
      split <;> trivial
  unfold tick
  refine (Routine.keeps_attempt trivial).bind fun answer _ => (check _ answer).bind fun _ _ => ?_
  split
  · trivial
  refine (Routine.keeps_attempt trivial).bind fun answer _ => (check _ answer).bind fun _ _ => ?_
  split
  · trivial
  have hcollect := QueryRunner.collect_inRange hlatest loop.le_addressPage.1
  refine Routine.Keeps.bind hcollect fun collected hsnapshot => ?_
  cases collected with
  | error e => trivial
  | ok snapshot =>
    have htasks := runTasks_inRange hlatest (hsnapshot snapshot rfl) loop.le_addressPage.2
    exact htasks.bind fun _ _ => trivial

/-- A tick whose times are in range ends with an outcome, whatever its tasks hold and whatever else
is answered, unless it reads more addresses than fit any list. -/
theorem tick_completes {loop : TaskLoop DaemonTask} {history : List Step}
    {ending : Ending (TickOutcome × TaskLoop DaemonTask)} (ran : loop.tick.Runs history ending)
    (answered : ∀ step ∈ history, step.InRange latest loop.addressPage) :
    ∃ outcome next, ending = .done (outcome, next) := by
  have trusted : (inRange latest loop.addressPage).Trusted history :=
    fun q answer h => answered _ h
  rcases (tick_inRange hlatest loop).ends ran trusted with ⟨⟨outcome, next⟩, rfl, _⟩ | ⟨_, h⟩
  · exact ⟨outcome, next, rfl⟩
  · cases h

end

/-- The last second that an instant holds. -/
def lastSecond : Instant := ⟨0x7fffffffffffffff * 1000000000, by decide, by decide⟩

def lastSnapshot : NetworkSnapshot :=
  ⟨⟨7, Bytes.zero 32, 1⟩, ⟨.ofSecs 0, .ofSecs 1, ⟨1, by decide⟩⟩, Bytes.zero 20, 1,
    [stakingSince lastSecond]⟩

/-- The steps of a tick of the standard loop up to its tasks. -/
def lastQuery : List Step :=
  soleSteps ⟨Bytes.zero 20, Config.default.pageSizes⟩ lastSnapshot.header 0 1 ⟨1, by decide⟩
      (stakingSince lastSecond) 0x7fffffffffffffff ++ (soleEvents lastSnapshot).map .noted

theorem collect_lastSecond : (QueryRunner.mk (Bytes.zero 20) Config.default.pageSizes).collect.Runs
    lastQuery (.done (.ok lastSnapshot)) :=
  have htime : Instant.ofSecs? 0x7fffffffffffffff = some (stakingSince lastSecond).statusTime :=
    Instant.ofNanos?_eq_some_iff.2 (by decide)
  collect_sole lastSnapshot.header 0 1 ⟨1, by decide⟩ rfl htime rfl

/-- Nothing is to be staked, and the consensus client does not answer. -/
def lastTasks : List Step :=
  [.noted (.taskStarted "stake-readiness" 7), .noted (.nonePrelaunch (Bytes.zero 20)),
    .noted (.taskStarted "exit-submission" 7), .asked .beaconConfig (.error (.network "refused")),
    .noted (.taskFailed "exit-submission" (.call (.network "refused")))]

theorem runTasks_lastSecond (config : Config) :
    (runTasks lastSnapshot (ofConfig config (Bytes.zero 20)).tasks).Runs lastTasks
      (.done ((ofConfig config (Bytes.zero 20)).tasks, 1)) :=
  ⟨_, rfl, _, rfl, _, rfl, .error (.network "refused"), _, rfl, _, rfl, rfl, rfl⟩

def lastTick : List Step :=
  .asked .executionSync (.ok ⟨true, 1⟩) :: .asked .consensusSync (.ok ⟨true, 1⟩) ::
    (lastQuery ++ lastTasks)

theorem tick_lastSecond : (ofConfig .default (Bytes.zero 20)).tick.Runs lastTick
    (.done (.completed 1, ofConfig .default (Bytes.zero 20))) :=
  (runs_tick_synced_iff rfl rfl).2 (.inr (.inr ⟨lastSnapshot, lastQuery, lastTasks, rfl,
    collect_lastSecond, .inr ⟨_, 1, rfl, runTasks_lastSecond .default⟩⟩))

theorem tick_completes_lastSecond : ∃ history ending,
    (ofConfig .default (Bytes.zero 20)).tick.Runs history ending ∧
      (∀ step ∈ history, step.InRange 0x7fffffffffffffff 1000) ∧
        ∃ outcome next, ending = .done (outcome, next) := by
  have hquery : ∀ step ∈ soleSteps ⟨Bytes.zero 20, Config.default.pageSizes⟩ lastSnapshot.header 0 1
      ⟨1, by decide⟩ (stakingSince lastSecond) 0x7fffffffffffffff,
      step.InRange 0x7fffffffffffffff 1000 :=
    soleSteps_inRange (by decide) (by decide) (by decide)
  have answered : ∀ step ∈ lastTick, step.InRange 0x7fffffffffffffff 1000 := by
    simp only [lastTick, lastQuery, List.forall_mem_cons, List.forall_mem_append, lastTasks,
      List.not_mem_nil, false_implies, implies_true, and_true]
    refine ⟨trivial, trivial, ⟨hquery, fun step hstep => ?_⟩, ?_⟩
    · obtain ⟨e, _, rfl⟩ := List.mem_map.1 hstep
      trivial
    · exact ⟨trivial, trivial, trivial, trivial, trivial⟩
  exact ⟨_, _, tick_lastSecond, answered, tick_completes (by decide) tick_lastSecond answered⟩

end

end TaskLoop

end StakeKeeper
