import Mathlib.Data.List.Forall2
import StakeKeeper.Proofs.Ticks

/-!
What a tick does, for tasks of any kind. Main statements: `TaskLoop.runs_runTasks_iff` (every task
runs once, in order and on the same snapshot, whether or not those before it failed),
`TaskLoop.runs_tick_iff` (the courses that a tick can take) and `TaskLoop.ticks_isolated` (any
number of ticks, and what they come to for each task).
-/
namespace StakeKeeper
set_option autoImplicit false

variable {τ : Type} [ScheduledTask τ]

/-! ## Turns of tasks -/

/-- A run of a task within a tick. -/
structure TaskRun (τ : Type) where
  task : τ
  steps : List Step
  result : Except TaskError Unit
  next : τ

namespace TaskRun

/-- Whether a task can run this way on a snapshot. -/
def Ran (snapshot : NetworkSnapshot) (r : TaskRun τ) : Prop :=
  (ScheduledTask.run snapshot).Runs r.task r.steps (.done (r.result, r.next))

def failed (r : TaskRun τ) : Bool :=
  match r.result with
  | .ok () => false
  | .error _ => true

/-- What is noted after a run. -/
def closing (r : TaskRun τ) : List Step :=
  match r.result with
  | .ok () => []
  | .error e => [.noted (.taskFailed (ScheduledTask.name r.task) e)]

end TaskRun

namespace TaskLoop

/-- What a task's turn begins with. -/
def opening (snapshot : NetworkSnapshot) (task : τ) : Step :=
  .noted (.taskStarted (ScheduledTask.name task) snapshot.header.number)

/-- Whether tasks took their turns on a snapshot, each once and in order, with these runs and this
history. -/
structure Turns (snapshot : NetworkSnapshot) (tasks : List τ) (runs : List (TaskRun τ))
    (history : List Step) : Prop where
  inOrder : runs.map TaskRun.task = tasks
  ran : ∀ r ∈ runs, r.Ran snapshot
  written : history = runs.flatMap fun r => opening snapshot r.task :: r.steps ++ r.closing

variable {snapshot : NetworkSnapshot} {history : List Step}

theorem Turns.nil : Turns snapshot ([] : List τ) [] [] := ⟨rfl, by simp, rfl⟩

theorem Turns.cons {r : TaskRun τ} {tasks : List τ} {runs : List (TaskRun τ)}
    (hr : r.Ran snapshot) (turns : Turns snapshot tasks runs history) :
    Turns snapshot (r.task :: tasks) (r :: runs)
      (opening snapshot r.task :: r.steps ++ r.closing ++ history) where
  inOrder := by rw [List.map_cons, turns.inOrder]
  ran := List.forall_mem_cons.2 ⟨hr, turns.ran⟩
  written := by rw [List.flatMap_cons, turns.written]

theorem turns_nil_iff {runs : List (TaskRun τ)} :
    Turns snapshot [] runs history ↔ runs = [] ∧ history = [] := by
  constructor
  · rintro ⟨inOrder, _, rfl⟩
    obtain rfl := List.map_eq_nil_iff.1 inOrder
    exact ⟨rfl, rfl⟩
  · rintro ⟨rfl, rfl⟩
    exact .nil

theorem turns_cons_iff {task : τ} {tasks : List τ} {runs : List (TaskRun τ)} :
    Turns snapshot (task :: tasks) runs history ↔
      ∃ r others more, runs = r :: others ∧ r.task = task ∧ r.Ran snapshot ∧
        history = opening snapshot task :: r.steps ++ r.closing ++ more ∧
          Turns snapshot tasks others more := by
  constructor
  · rintro ⟨inOrder, ran, rfl⟩
    obtain ⟨r, others, rfl, rfl, rfl⟩ := List.map_eq_cons_iff.1 inOrder
    obtain ⟨hr, hothers⟩ := List.forall_mem_cons.1 ran
    exact ⟨r, others, _, rfl, rfl, hr, List.flatMap_cons, rfl, hothers, rfl⟩
  · rintro ⟨r, others, more, rfl, rfl, hr, rfl, turns⟩
    exact .cons hr turns

theorem runs_turn_iff {task : τ} {rest : List τ} {ending : Ending (List τ × Nat)} :
    (runTasks snapshot (task :: rest)).Runs history ending ↔
      ∃ more, history = opening snapshot task :: more ∧
        ((∃ c, ending = .crashed c ∧
            (ScheduledTask.run snapshot).Runs task more (.crashed c)) ∨
          ∃ (r : TaskRun τ) (last : List Step), r.task = task ∧ r.Ran snapshot ∧
            more = r.steps ++ r.closing ++ last ∧
              ((∃ c, ending = .crashed c ∧ (runTasks snapshot rest).Runs last (.crashed c)) ∨
                ∃ tasks failed,
                  ending = .done (r.next :: tasks, failed + if r.failed then 1 else 0) ∧
                    (runTasks snapshot rest).Runs last (.done (tasks, failed)))) := by
  refine exists_congr fun more => and_congr_right fun _ => ?_
  refine (Routine.Runs.bind_iff (m := (ScheduledTask.run snapshot).run.run task)).trans
    (or_congr_right ?_)
  constructor
  · intro ⟨⟨result, next⟩, steps, last, hmore, ran, hlast⟩
    cases result with
    | ok _ =>
      refine ⟨⟨task, steps, .ok (), next⟩, last, rfl, ran, by simpa [TaskRun.closing], ?_⟩
      obtain hcrash | ⟨⟨tasks, failed⟩, hending, hothers⟩ := Routine.runs_bind_pure_iff.1 hlast
      · exact .inl hcrash
      · exact .inr ⟨tasks, failed, hending, hothers⟩
    | error e =>
      obtain ⟨last, rfl, hlast⟩ := hlast
      refine ⟨⟨task, steps, .error e, next⟩, last, rfl, ran, by simpa [TaskRun.closing], ?_⟩
      obtain hcrash | ⟨⟨tasks, failed⟩, hending, hothers⟩ := Routine.runs_bind_pure_iff.1 hlast
      · exact .inl hcrash
      · exact .inr ⟨tasks, failed, hending, hothers⟩
  · rintro ⟨⟨_, steps, result, next⟩, last, rfl, ran, hmore, hlast⟩
    rw [List.append_assoc] at hmore
    refine ⟨(result, next), steps, _, hmore, ran, ?_⟩
    cases result with
    | ok _ =>
      apply Routine.runs_bind_pure_iff.2
      obtain hcrash | ⟨tasks, failed, hending, hothers⟩ := hlast
      · exact .inl hcrash
      · exact .inr ⟨(tasks, failed), hending, hothers⟩
    | error e =>
      refine ⟨last, rfl, Routine.runs_bind_pure_iff.2 ?_⟩
      obtain hcrash | ⟨tasks, failed, hending, hothers⟩ := hlast
      · exact .inl hcrash
      · exact .inr ⟨(tasks, failed), hending, hothers⟩

/-- The tasks of a tick run one after another on the same snapshot, and each one's failure is noted
and counted, no more. -/
theorem runs_runTasks_iff {tasks left : List τ} {failed : Nat} :
    (runTasks snapshot tasks).Runs history (.done (left, failed)) ↔
      ∃ runs, Turns snapshot tasks runs history ∧ left = runs.map TaskRun.next ∧
        failed = runs.countP TaskRun.failed := by
  induction tasks generalizing history left failed with
  | nil =>
    constructor
    · rintro ⟨rfl, hending⟩
      cases hending
      exact ⟨[], .nil, rfl, rfl⟩
    · rintro ⟨runs, turns, rfl, rfl⟩
      obtain ⟨rfl, rfl⟩ := turns_nil_iff.1 turns
      exact ⟨rfl, rfl⟩
  | cons task rest ih =>
    rw [runs_turn_iff]
    constructor
    · intro ⟨more, hhistory, hmore⟩
      obtain ⟨_, hending, _⟩ | ⟨r, last, htask, ran, hlast, hothers⟩ := hmore
      · cases hending
      obtain ⟨_, hending, _⟩ | ⟨others, n, hending, hothers⟩ := hothers
      · cases hending
      · cases hending
        subst htask hhistory hlast
        obtain ⟨runs, turns, rfl, rfl⟩ := ih.1 hothers
        exact ⟨r :: runs, .cons ran turns, rfl, List.countP_cons.symm⟩
    · rintro ⟨runs, turns, rfl, rfl⟩
      obtain ⟨r, others, last, rfl, rfl, ran, rfl, hothers⟩ := turns_cons_iff.1 turns
      have hrest := ih.2 ⟨others, hothers, rfl, rfl⟩
      refine ⟨_, rfl, .inr ⟨r, last, rfl, ran, rfl, .inr ⟨_, _, ?_, hrest⟩⟩⟩
      rw [List.countP_cons, List.map_cons]

theorem runs_runTasks_crashed_iff {tasks : List τ} {c : Crash} :
    (runTasks snapshot tasks).Runs history (.crashed c) ↔
      ∃ before task after runs turns steps, tasks = before ++ task :: after ∧
        Turns snapshot before runs turns ∧
          (ScheduledTask.run snapshot).Runs task steps (.crashed c) ∧
            history = turns ++ opening snapshot task :: steps := by
  induction tasks generalizing history with
  | nil =>
    constructor
    · intro ⟨_, hending⟩
      cases hending
    · intro ⟨before, _, _, _, _, _, htasks, _⟩
      cases before <;> cases htasks
  | cons task rest ih =>
    rw [runs_turn_iff]
    constructor
    · rintro ⟨more, rfl, ⟨_, hending, hcrash⟩ | ⟨r, last, rfl, ran, rfl, hlast⟩⟩
      · cases hending
        exact ⟨[], task, rest, [], [], more, rfl, .nil, hcrash, rfl⟩
      · obtain ⟨_, hending, hcrash⟩ | ⟨_, _, hending, _⟩ := hlast
        · cases hending
          obtain ⟨before, task, after, runs, turns, steps, rfl, hturns, hfailing, rfl⟩ :=
            ih.1 hcrash
          have hmore := Turns.cons ran hturns
          refine ⟨r.task :: before, task, after, r :: runs, _, steps, rfl, hmore, hfailing, ?_⟩
          simp only [List.cons_append, List.append_assoc]
        · cases hending
    · rintro ⟨before, failing, after, runs, turns, steps, htasks, hturns, hcrash, rfl⟩
      cases before with
      | nil =>
        cases htasks
        obtain ⟨rfl, rfl⟩ := turns_nil_iff.1 hturns
        exact ⟨steps, rfl, .inl ⟨c, rfl, hcrash⟩⟩
      | cons first before =>
        cases htasks
        obtain ⟨r, others, last, rfl, rfl, ran, rfl, hothers⟩ := turns_cons_iff.1 hturns
        have hrest := ih.2 ⟨before, failing, after, others, last, steps, rfl, hothers, hcrash, rfl⟩
        exact ⟨_, List.cons_append, .inr
          ⟨r, _, rfl, ran, List.append_assoc .., .inl ⟨c, rfl, hrest⟩⟩⟩

/-! ## The course of a tick -/

/-- Whether a client answers that it is in sync. -/
def InSync (answer : Except CallError SyncStatus) : Prop :=
  ∃ status, answer = .ok status ∧ status.isSynced = true

/-- What is noted of a client that does not. -/
def syncTrouble (layer : Layer) : Except CallError SyncStatus → Event
  | .ok status => .clientNotSynced layer status.progress
  | .error e => .syncCheckFailed layer e

theorem checkSync_ahead {answer : Except CallError SyncStatus} (h : InSync answer)
    (layer : Layer) : checkSync layer answer = pure true := by
  obtain ⟨status, rfl, hstatus⟩ := h
  unfold checkSync
  dsimp only
  rw [if_pos hstatus]

theorem checkSync_behind {answer : Except CallError SyncStatus} (h : ¬ InSync answer)
    (layer : Layer) :
    checkSync layer answer = Routine.note (syncTrouble layer answer) >>= fun _ => pure false := by
  cases answer with
  | error e => rfl
  | ok status =>
    have hstatus : ¬ status.isSynced = true := fun hs => h ⟨status, rfl, hs⟩
    unfold checkSync
    dsimp only
    rw [if_neg hstatus]
    rfl

/-- What a tick does once both clients have answered that they are in sync. -/
inductive SyncedCourse (loop : TaskLoop τ) : List Step → Ending (TickOutcome × TaskLoop τ) → Prop
  | collectionFailed {collecting : List Step} {e : QueryError} :
      loop.runner.collect.Runs collecting (.done (.error e)) →
        SyncedCourse loop (collecting ++ [.noted (.snapshotFailed e)])
          (.done (.snapshotFailed, loop))
  | collectionCrashed {collecting : List Step} {c : Crash} :
      loop.runner.collect.Runs collecting (.crashed c) →
        SyncedCourse loop collecting (.crashed c)
  | completed {collecting turns : List Step} {snapshot : NetworkSnapshot}
      {runs : List (TaskRun τ)} :
      loop.runner.collect.Runs collecting (.done (.ok snapshot)) →
        Turns snapshot loop.tasks runs turns →
          SyncedCourse loop (collecting ++ turns)
            (.done (.completed (runs.countP TaskRun.failed),
              { loop with tasks := runs.map TaskRun.next }))
  | taskCrashed {collecting turns steps : List Step} {snapshot : NetworkSnapshot}
      {before after : List τ} {task : τ} {runs : List (TaskRun τ)} {c : Crash} :
      loop.runner.collect.Runs collecting (.done (.ok snapshot)) →
        loop.tasks = before ++ task :: after → Turns snapshot before runs turns →
          (ScheduledTask.run snapshot).Runs task steps (.crashed c) →
            SyncedCourse loop (collecting ++ (turns ++ opening snapshot task :: steps)) (.crashed c)

/-- What a tick does: nothing beyond the first client that is not in sync. -/
inductive TickCourse (loop : TaskLoop τ) : List Step → Ending (TickOutcome × TaskLoop τ) → Prop
  | executionBehind {answer : Except CallError SyncStatus} : ¬ InSync answer →
      TickCourse loop [.asked .executionSync answer, .noted (syncTrouble .execution answer)]
        (.done (.executionNotSynced, loop))
  | consensusBehind {execution answer : Except CallError SyncStatus} :
      InSync execution → ¬ InSync answer →
        TickCourse loop [.asked .executionSync execution, .asked .consensusSync answer,
          .noted (syncTrouble .consensus answer)] (.done (.consensusNotSynced, loop))
  | synced {execution consensus : Except CallError SyncStatus} {rest : List Step}
      {ending : Ending (TickOutcome × TaskLoop τ)} :
      InSync execution → InSync consensus → SyncedCourse loop rest ending →
        TickCourse loop (.asked .executionSync execution :: .asked .consensusSync consensus :: rest)
          ending

variable {loop : TaskLoop τ}

theorem syncedCourse_iff {ending : Ending (TickOutcome × TaskLoop τ)}
    {execution consensus : SyncStatus} (hexecution : execution.isSynced = true)
    (hconsensus : consensus.isSynced = true) :
    loop.tick.Runs (.asked .executionSync (.ok execution) ::
        .asked .consensusSync (.ok consensus) :: history) ending ↔
      SyncedCourse loop history ending := by
  rw [runs_tick_synced_iff hexecution hconsensus]
  constructor
  · rintro (⟨c, rfl, hcrash⟩ | ⟨e, queried, rfl, hquery, rfl⟩ |
      ⟨snapshot, queried, more, rfl, hquery, hmore⟩)
    · exact .collectionCrashed hcrash
    · exact .collectionFailed hquery
    · obtain ⟨c, rfl, hcrash⟩ | ⟨tasks, failed, rfl, htasks⟩ := hmore
      · obtain ⟨before, task, after, runs, turns, steps, htasks, hturns, hfailing, rfl⟩ :=
          runs_runTasks_crashed_iff.1 hcrash
        exact .taskCrashed hquery htasks hturns hfailing
      · obtain ⟨runs, hturns, rfl, rfl⟩ := runs_runTasks_iff.1 htasks
        exact .completed hquery hturns
  · intro course
    cases course with
    | collectionFailed hquery => exact .inr (.inl ⟨_, _, rfl, hquery, rfl⟩)
    | collectionCrashed hcrash => exact .inl ⟨_, rfl, hcrash⟩
    | completed hquery hturns =>
      have htasks := runs_runTasks_iff.2 ⟨_, hturns, rfl, rfl⟩
      exact .inr (.inr ⟨_, _, _, rfl, hquery, .inr ⟨_, _, rfl, htasks⟩⟩)
    | taskCrashed hquery htasks hturns hfailing =>
      have hcrash := runs_runTasks_crashed_iff.2
        ⟨_, _, _, _, _, _, htasks, hturns, hfailing, rfl⟩
      exact .inr (.inr ⟨_, _, _, rfl, hquery, .inl ⟨_, rfl, hcrash⟩⟩)

theorem runs_tick_behind_iff {answer : Except CallError SyncStatus} (h : ¬ InSync answer)
    {ending : Ending (TickOutcome × TaskLoop τ)} :
    loop.tick.Runs (.asked .executionSync answer :: history) ending ↔
      history = [.noted (syncTrouble .execution answer)] ∧
        ending = .done (.executionNotSynced, loop) := by
  unfold tick
  refine Routine.runs_attempt_bind_iff.trans ?_
  rw [checkSync_behind h]
  constructor
  · rintro ⟨_, rfl, rfl, rfl⟩
    exact ⟨rfl, rfl⟩
  · rintro ⟨rfl, rfl⟩
    exact ⟨_, rfl, rfl, rfl⟩

theorem asks_consensus {execution : Except CallError SyncStatus} (h : InSync execution)
    {ending : Ending (TickOutcome × TaskLoop τ)}
    (ran : loop.tick.Runs (.asked .executionSync execution :: history) ending) :
    ∃ consensus rest, history = .asked .consensusSync consensus :: rest := by
  unfold tick at ran
  have hrest := Routine.runs_attempt_bind_iff.1 ran
  rw [checkSync_ahead h, pure_bind, if_neg (by decide)] at hrest
  obtain ⟨consensus, rest, hhistory, _⟩ := hrest
  exact ⟨consensus, rest, hhistory⟩

theorem runs_tick_ahead_iff {execution consensus : Except CallError SyncStatus}
    (hexecution : InSync execution) (hconsensus : ¬ InSync consensus)
    {ending : Ending (TickOutcome × TaskLoop τ)} :
    loop.tick.Runs (.asked .executionSync execution :: .asked .consensusSync consensus :: history)
        ending ↔
      history = [.noted (syncTrouble .consensus consensus)] ∧
        ending = .done (.consensusNotSynced, loop) := by
  unfold tick
  apply Routine.runs_attempt_bind_iff.trans
  rw [checkSync_ahead hexecution, pure_bind, if_neg (by decide)]
  apply Routine.runs_attempt_bind_iff.trans
  rw [checkSync_behind hconsensus]
  constructor
  · rintro ⟨_, rfl, rfl, rfl⟩
    exact ⟨rfl, rfl⟩
  · rintro ⟨rfl, rfl⟩
    exact ⟨_, rfl, rfl, rfl⟩

/-- The runs of a tick are those that follow its course, and all such runs are there. -/
theorem runs_tick_iff {ending : Ending (TickOutcome × TaskLoop τ)} :
    loop.tick.Runs history ending ↔ TickCourse loop history ending := by
  constructor
  · intro ran
    have hran := ran
    obtain ⟨execution, rest, rfl, _⟩ := hran
    by_cases hexecution : InSync execution
    · obtain ⟨consensus, more, rfl⟩ := asks_consensus hexecution ran
      by_cases hconsensus : InSync consensus
      · refine .synced hexecution hconsensus ?_
        obtain ⟨status, rfl, hstatus⟩ := hexecution
        obtain ⟨status', rfl, hstatus'⟩ := hconsensus
        exact (syncedCourse_iff hstatus hstatus').1 ran
      · obtain ⟨rfl, rfl⟩ := (runs_tick_ahead_iff hexecution hconsensus).1 ran
        exact .consensusBehind hexecution hconsensus
    · obtain ⟨rfl, rfl⟩ := (runs_tick_behind_iff hexecution).1 ran
      exact .executionBehind hexecution
  · intro course
    cases course with
    | executionBehind h => exact (runs_tick_behind_iff h).2 ⟨rfl, rfl⟩
    | consensusBehind h h' => exact (runs_tick_ahead_iff h h').2 ⟨rfl, rfl⟩
    | synced h h' course =>
      obtain ⟨status, rfl, hstatus⟩ := h
      obtain ⟨status', rfl, hstatus'⟩ := h'
      exact (syncedCourse_iff hstatus hstatus').2 course

/-! ## Ticks in a row -/

/-- A tick as it happened. -/
structure TickRecord (τ : Type) where
  loop : TaskLoop τ
  history : List Step
  ending : Ending (TickOutcome × TaskLoop τ)

/-- Ticks one after another, each of the loop that the one before left, until one crashes. -/
inductive Ticking (start : TaskLoop τ) : List (TickRecord τ) → Ending (TaskLoop τ) → Prop
  | start : Ticking start [] (.done start)
  | ticked {past : List (TickRecord τ)} {loop next : TaskLoop τ} {history : List Step}
      {outcome : TickOutcome} :
      Ticking start past (.done loop) → loop.tick.Runs history (.done (outcome, next)) →
        Ticking start (past ++ [⟨loop, history, .done (outcome, next)⟩]) (.done next)
  | crashed {past : List (TickRecord τ)} {loop : TaskLoop τ} {history : List Step} {c : Crash} :
      Ticking start past (.done loop) → loop.tick.Runs history (.crashed c) →
        Ticking start (past ++ [⟨loop, history, .crashed c⟩]) (.crashed c)

namespace TickRecord

/-- Whether all tasks had a turn. -/
def completed (tick : TickRecord τ) : Bool :=
  match tick.ending with
  | .done (.completed _, _) => true
  | _ => false

/-- Whether a tick took a snapshot. -/
def Took (tick : TickRecord τ) (snapshot : NetworkSnapshot) : Prop :=
  ∃ execution consensus collecting turns, tick.history = .asked .executionSync execution ::
      .asked .consensusSync consensus :: (collecting ++ turns) ∧
    tick.loop.runner.collect.Runs collecting (.done (.ok snapshot))

end TickRecord

/-- The states that a task can come to by running once on each of some snapshots. -/
inductive Lived (task : τ) : List NetworkSnapshot → τ → Prop
  | start : Lived task [] task
  | ran {snapshots : List NetworkSnapshot} {snapshot : NetworkSnapshot} {r : TaskRun τ} :
      Lived task snapshots r.task → r.Ran snapshot → Lived task (snapshots ++ [snapshot]) r.next

/-- What ticks come to for a loop: its tasks are where they were, each has run once on the snapshot
of every tick that was completed and never else, and nothing else of the loop has changed. -/
structure Shared (start : TaskLoop τ) (past : List (TickRecord τ)) (next : TaskLoop τ) : Prop where
  kept : next = { start with tasks := next.tasks }
  lived : ∃ snapshots, List.Forall₂ TickRecord.Took (past.filter TickRecord.completed) snapshots ∧
    List.Forall₂ (fun task now => Lived task snapshots now) start.tasks next.tasks

theorem lived_turns {snapshot : NetworkSnapshot} {snapshots : List NetworkSnapshot}
    {before tasks : List τ} {runs : List (TaskRun τ)} {turns : List Step}
    (lived : List.Forall₂ (fun task now => Lived task snapshots now) before tasks)
    (hturns : Turns snapshot tasks runs turns) :
    List.Forall₂ (fun task now => Lived task (snapshots ++ [snapshot]) now) before
      (runs.map TaskRun.next) := by
  induction lived generalizing runs turns with
  | nil =>
    obtain ⟨rfl, _⟩ := turns_nil_iff.1 hturns
    exact .nil
  | cons hlived _ ih =>
    obtain ⟨r, others, _, rfl, rfl, ran, _, hothers⟩ := turns_cons_iff.1 hturns
    exact .cons (.ran hlived ran) (ih hothers)

variable {start next : TaskLoop τ} {past : List (TickRecord τ)}

theorem Shared.uncompleted (shared : Shared start past loop) {tick : TickRecord τ}
    (h : tick.completed = false) : Shared start (past ++ [tick]) loop := by
  obtain ⟨kept, snapshots, taken, lived⟩ := shared
  refine ⟨kept, snapshots, ?_, lived⟩
  simpa [h] using taken

theorem Shared.ticked (shared : Shared start past loop) {outcome : TickOutcome}
    (course : TickCourse loop history (.done (outcome, next))) :
    Shared start (past ++ [⟨loop, history, .done (outcome, next)⟩]) next := by
  cases course with
  | executionBehind _ => exact shared.uncompleted rfl
  | consensusBehind _ _ => exact shared.uncompleted rfl
  | @synced execution consensus _ _ _ _ course =>
    cases course with
    | collectionFailed _ => exact shared.uncompleted rfl
    | @completed collecting turns snapshot runs hcollect hturns =>
      obtain ⟨kept, snapshots, taken, lived⟩ := shared
      refine ⟨?_, snapshots ++ [snapshot], ?_, lived_turns lived hturns⟩
      · rw [kept]
      · rw [List.filter_append]
        exact List.rel_append taken
          (.cons ⟨execution, consensus, collecting, turns, rfl, hcollect⟩ .nil)

/-- Each tick in a row follows its course, and all tasks live through the same snapshots: each runs
once on that of every tick that is completed, whatever the other tasks do. -/
theorem ticks_isolated {ending : Ending (TaskLoop τ)} (ticked : Ticking start past ending) :
    (∀ tick ∈ past, TickCourse tick.loop tick.history tick.ending) ∧
      ∀ next, ending = .done next → Shared start past next := by
  induction ticked with
  | start =>
    refine ⟨by simp, ?_⟩
    rintro _ ⟨⟩
    exact ⟨rfl, [], .nil, List.forall₂_same.2 fun _ _ => .start⟩
  | ticked _ ran ih =>
    obtain ⟨courses, shared⟩ := ih
    have course := runs_tick_iff.1 ran
    refine ⟨List.forall_mem_append.2 ⟨courses, by simpa using course⟩, ?_⟩
    rintro _ ⟨⟩
    exact (shared _ rfl).ticked course
  | crashed _ ran ih =>
    have course := runs_tick_iff.1 ran
    refine ⟨List.forall_mem_append.2 ⟨ih.1, by simpa using course⟩, ?_⟩
    rintro _ ⟨⟩

/-- A client that does not answer at the first tick, and a task that fails at the second. -/
def lateTicks : List (TickRecord DaemonTask) :=
  let loop := ofConfig .default (Bytes.zero 20)
  [⟨loop, [.asked .executionSync (.error (.network "refused")),
      .noted (.syncCheckFailed .execution (.network "refused"))],
      .done (.executionNotSynced, loop)⟩,
    ⟨loop, lastTick, .done (.completed 1, loop)⟩]

theorem ticks_isolated_lastSecond : ∃ next : TaskLoop DaemonTask,
    Ticking (ofConfig .default (Bytes.zero 20)) lateTicks (.done next) ∧
      (∀ tick ∈ lateTicks, TickCourse tick.loop tick.history tick.ending) ∧
        ∀ last, Ending.done next = .done last →
          Shared (ofConfig .default (Bytes.zero 20)) lateTicks last := by
  have unanswered : ¬ InSync (.error (.network "refused")) := by
    rintro ⟨_, ⟨⟩, _⟩
  have first : Ticking (ofConfig .default (Bytes.zero 20)) _ _ :=
    .ticked .start ((runs_tick_behind_iff unanswered).2 ⟨rfl, rfl⟩)
  have ticked : Ticking (ofConfig .default (Bytes.zero 20)) lateTicks _ :=
    .ticked first tick_lastSecond
  exact ⟨_, ticked, ticks_isolated ticked⟩

end TaskLoop

end StakeKeeper
