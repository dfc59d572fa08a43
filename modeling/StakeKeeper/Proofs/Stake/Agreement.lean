import StakeKeeper.Proofs.Query.Paging
import StakeKeeper.Proofs.Stake.Broadcast
import StakeKeeper.Proofs.Ticks

/-!
The two ways in which the daemon looks at a node's minipools. Main statements:
`Source.view_shows` (a snapshot and a view that come of the same answers show the same) and
`StakeTask.looks_agree` (so the look at the snapshot before a staking run changes nothing of what is
submitted).
-/
namespace StakeKeeper
set_option autoImplicit false

-- The range of instants is never computed with below.
seal Instant.ofNanos?

/-! ## What both queries come to -/

def QueryOutcome.output? {ω : Type} : QueryOutcome ω → Option ω
  | .ready output => some output
  | .notReady _ => none

namespace Source
variable {s : Source} {node : Address}

theorem collect_computes (pages : PageSizes) :
    s.Computes (QueryRunner.mk node pages).collect (s.snapshot? node) := by
  refine ((snapshotQuery_computes pages).bind (g := QueryOutcome.output?)
    fun outcome _ => ?_).congr ?_
  · cases outcome with
    | notReady reason => exact computes_throw _
    | ready snapshot =>
      have noted : s.Computes (do
          FailingRoutine.note (.snapshotCollected snapshot.node snapshot.header.number
            snapshot.validators.length snapshot.activeCount)
          pure snapshot) (some snapshot) :=
        (computes_note _).bind fun _ _ => computes_pure snapshot
      cases hvalid : snapshot.settings.looksValid with
      | true => simpa [hvalid, QueryOutcome.output?] using noted
      | false =>
        have warned := (computes_note (s := s)
          (.settingsUnset snapshot.header.number snapshot.settings)).bind fun _ _ => noted
        simpa [hvalid, QueryOutcome.output?] using warned
  · cases s.snapshot? node <;> rfl

end Source

/-- Whether a view shows what a snapshot does. -/
structure StakeView.Shows (view : StakeView) (snapshot : NetworkSnapshot) : Prop where
  header : view.header = snapshot.header
  settings : view.settings = snapshot.settings
  validators : view.validators = snapshot.validators

namespace Source
variable {s : Source} {node : Address} {snapshot : NetworkSnapshot} {view : StakeView}

/-- What a snapshot shows is what its source holds at the block of its header. -/
theorem snapshot?_inv (h : s.snapshot? node = some snapshot) :
    s.header = some snapshot.header ∧ s.settings? snapshot.header.number = some snapshot.settings ∧
      s.records? node snapshot.header.number = some snapshot.validators := by
  obtain ⟨header, hheader, h⟩ := Option.bind_eq_some_iff.1 h
  obtain ⟨_, _, h⟩ := Option.bind_eq_some_iff.1 h
  obtain ⟨activeCount, _, h⟩ := Option.bind_eq_some_iff.1 h
  obtain ⟨settings, hsettings, h⟩ := Option.bind_eq_some_iff.1 h
  obtain ⟨validators, hvalidators, h⟩ := Option.bind_eq_some_iff.1 h
  cases h
  exact ⟨hheader, hsettings, hvalidators⟩

theorem stakeOutcome?_inv (h : s.stakeOutcome? node = some (.ready view)) :
    s.header = some view.header ∧ s.settings? view.header.number = some view.settings ∧
      s.records? node view.header.number = some view.validators := by
  obtain ⟨header, hheader, h⟩ := Option.bind_eq_some_iff.1 h
  obtain ⟨_, _, h⟩ := Option.bind_eq_some_iff.1 h
  split at h
  · obtain ⟨found, hview, hfound⟩ := Option.map_eq_some_iff.1 h
    cases hfound
    obtain ⟨settings, hsettings, hview⟩ := Option.bind_eq_some_iff.1 hview
    obtain ⟨validators, hvalidators, hview⟩ := Option.bind_eq_some_iff.1 hview
    cases hview
    exact ⟨hheader, hsettings, hvalidators⟩
  · cases h
  · cases h

/-- Both queries come to what the source holds at the block of its header, so neither page sizes nor
batches that fail make a difference. -/
theorem view_shows {pages pages' : PageSizes} {collecting query : List Step}
    (collected : (QueryRunner.mk node pages).collect.Runs collecting (.done (.ok snapshot)))
    (hcollect : s.Vouches collecting)
    (viewed : ((QueryRunner.mk node pages').run stakeQuery).Runs query (.done (.ok (.ready view))))
    (hview : s.Vouches query) : view.Shows snapshot := by
  obtain ⟨hheader, hsettings, hvalidators⟩ :=
    snapshot?_inv ((collect_computes pages).sound _ _ collected hcollect)
  obtain ⟨hheader', hsettings', hvalidators'⟩ :=
    stakeOutcome?_inv ((stakeQuery_computes pages').sound _ _ viewed hview)
  have header : view.header = snapshot.header := Option.some.inj (hheader'.symm.trans hheader)
  rw [header] at hsettings' hvalidators'
  exact ⟨header, Option.some.inj (hsettings'.symm.trans hsettings),
    Option.some.inj (hvalidators'.symm.trans hvalidators)⟩

end Source

/-! ## What may be staked -/

theorem StakeView.eligible?_map_snd (view : StakeView) : view.eligible?.map Prod.snd =
    view.header.time?.bind fun now =>
      stakeCandidates? now view.settings.scrubPeriod view.validators := by
  unfold eligible?
  cases view.header.time? with
  | none => rfl
  | some now =>
    show Option.map Prod.snd (Option.bind (stakeCandidates? now _ _) _) = stakeCandidates? now _ _
    cases hready : stakeCandidates? now view.settings.scrubPeriod view.validators with
    | none => rfl
    | some ready =>
      obtain ⟨events, hevents⟩ : ∃ events, StakeTask.reviewEvents? now view.settings.scrubPeriod
          view.validators = some events := reviewEvents?_eq_some (stakeCandidates?_inv hready).1
      simp [hevents]

theorem StakeView.Shows.candidates {view : StakeView} {snapshot : NetworkSnapshot}
    (shows : view.Shows snapshot) :
    view.eligible?.map Prod.snd = snapshot.stakeCandidates? := by
  rw [view.eligible?_map_snd, shows.header, shows.settings, shows.validators]
  rfl

namespace StakeTask

theorem eligible_ends {view : StakeView} {history : List Step}
    {ending : Ending (Except TaskError (Instant × List MinipoolRecord))}
    (ran : (eligible view).Runs history ending) :
    (∃ found, view.eligible? = some found ∧ ending = .done (.ok found)) ∨
      ∃ c, view.eligible? = none ∧ ending = .crashed c := by
  unfold eligible at ran
  unfold StakeView.eligible?
  obtain ⟨now, hnow, selecting⟩ | ⟨hnow, _, rfl⟩ := FailingRoutine.runs_orCrash_bind_iff.1 ran
  · rw [hnow]
    obtain ⟨ready, hready, reviewing⟩ | ⟨hready, _, rfl⟩ :=
      FailingRoutine.runs_orCrash_bind_iff.1 selecting
    · obtain ⟨events, hevents, noting⟩ | ⟨hevents, _, rfl⟩ :=
        FailingRoutine.runs_orCrash_bind_iff.1 reviewing
      · obtain ⟨_, _, _, rfl⟩ := FailingRoutine.runs_noteAll_bind_iff.1 noting
        exact .inl ⟨(now, ready), by simp [hready, hevents], rfl⟩
      · exact .inr ⟨_, by simp [hready, hevents], rfl⟩
    · exact .inr ⟨_, by simp [hready], rfl⟩
  · exact .inr ⟨_, by simp [hnow], rfl⟩

/-! ## Nodes with one minipool -/

/-- A source at whose latest block there is one minipool. -/
def soleSource (header : BlockHeader) (scrub timeout : UInt64) (stake : Uint256)
    (record : MinipoolRecord) (secs : UInt64) : Source where
  header := some header
  refresh _ := some ()
  transactor := .ok ⟨Bytes.zero 20, 1⟩
  read _ read :=
    match read with
    | .minipoolCount _ | .activeCount _ => some (.uint (.ofUInt64 1))
    | .scrubPeriod => some (.uint (.ofUInt64 scrub))
    | .launchTimeout => some (.uint (.ofUInt64 timeout))
    | .minimumStake => some (.uint stake)
    | .minipoolAt _ _ => some (.address record.address)
    | .minipool _ field => (allFields.zip (record.values secs)).lookup field

section
variable (runner : QueryRunner) (header : BlockHeader) (scrub timeout : UInt64) (stake : Uint256)
  (record : MinipoolRecord) (secs : UInt64)

theorem vouches_soleSteps (events : List Event) :
    (soleSource header scrub timeout stake record secs).Vouches
      (TaskLoop.soleSteps runner header scrub timeout stake record secs ++ events.map .noted) :=
  .asked rfl (.asked rfl (.asked rfl (.read rfl (.read rfl (.read rfl (.events _ events))))))

theorem vouches_singleQuery : (soleSource header scrub timeout stake record secs).Vouches
    (singleQuery runner header ⟨Bytes.zero 20, 1⟩ scrub timeout stake record secs) :=
  .asked rfl (.asked rfl (.asked rfl (.asked rfl
    (.read rfl (.read rfl (.read rfl (.noted .nil)))))))

end

/-! ### One that is staking since the last second -/

def lastSource : Source :=
  soleSource TaskLoop.lastSnapshot.header 0 1 TaskLoop.lastSnapshot.settings.minimumStake
    (TaskLoop.stakingSince TaskLoop.lastSecond) 0x7fffffffffffffff

/-- A staking run that does not look at the snapshot finds nothing to stake. -/
def lastUnchecked : List Step :=
  singleQuery eagerTask.runner TaskLoop.lastSnapshot.header ⟨Bytes.zero 20, 1⟩ 0 1
    TaskLoop.lastSnapshot.settings.minimumStake (TaskLoop.stakingSince TaskLoop.lastSecond)
    0x7fffffffffffffff

/-- What such a run looks at. -/
def lastView : StakeView :=
  ⟨TaskLoop.lastSnapshot.header, TaskLoop.lastSnapshot.settings, ⟨Bytes.zero 20, 1⟩,
    TaskLoop.lastSnapshot.validators⟩

theorem stakeQuery_lastView : (eagerTask.runner.run stakeQuery).Runs lastUnchecked
    (.done (.ok (.ready lastView))) :=
  stakeQuery_single _ _ 0 1 _ rfl (Instant.ofNanos?_eq_some_iff.2 (by decide)) rfl

theorem eligible_lastView : (eligible lastView).Runs [] (.done (.ok (dueTime, []))) := by
  have htime : lastView.header.time? = some dueTime :=
    Instant.ofNanos?_eq_some_iff.2 (by decide)
  unfold eligible
  rw [htime]
  exact ⟨rfl, rfl⟩

theorem runUnchecked_lastUnchecked :
    runUnchecked.Runs eagerTask lastUnchecked (.done (.ok (), eagerTask)) := by
  have selected : (StatefulRoutine.ofFailing (eligible lastView)).Runs eagerTask []
      (.done (.ok (dueTime, []), eagerTask)) :=
    StatefulRoutine.runs_ofFailing_iff.2 (.inr ⟨_, rfl, eligible_lastView⟩)
  have idle : (stakeFrom lastView).Runs eagerTask [] (.done (.ok (), eagerTask)) :=
    selected.bind ⟨rfl, rfl⟩
  exact runUnchecked_viewed stakeQuery_lastView idle

/-! ### One that is due -/

def dueSource (key : ValidatorKey) : Source :=
  soleSource (dueView key).header 1 10 .zero (dueRecord key) 0

theorem collect_due (key : ValidatorKey) (pages : PageSizes) : ∃ collecting,
    (QueryRunner.mk (Bytes.zero 20) pages).collect.Runs collecting
      (.done (.ok (dueSnapshot key))) ∧ (dueSource key).Vouches collecting :=
  have htime : Instant.ofSecs? 0 = some (dueRecord key).statusTime :=
    Instant.ofNanos?_eq_some_iff.2 rfl
  ⟨_, TaskLoop.collect_sole (dueView key).header 1 10 .zero rfl htime rfl,
    vouches_soleSteps _ _ _ _ _ _ _ _⟩

/-- A run with a good key sends the stake, with or without the look at the snapshot. -/
theorem due_submitted {key : ValidatorKey}
    (checked : (duePrepared key).Checked (depositDomain (Bytes.zero 4))) :
    ∃ history ending, (run (dueSnapshot key)).Runs eagerTask history ending ∧
      runUnchecked.Runs eagerTask history ending ∧ (dueSource key).Vouches history ∧
        callsOf Request.isSubmission history ≠ [] := by
  let config : BeaconConfig := ⟨0, 12, 32, Bytes.zero 4⟩
  have own : (duePrepared key).Checked (depositDomain config.genesisFork) := checked
  obtain ⟨rest, ran, hcalls⟩ :=
    due_runs ⟨21000⟩ 10 eagerTask.policy ⟨30, 2⟩ [Bytes.zero 32] own rfl
  have looked : run (dueSnapshot key) = runUnchecked :=
    (run_eq (dueSnapshot key)).trans (if_neg Bool.false_ne_true)
  refine ⟨_, _, ran, looked ▸ ran, ?_, fun hnone => ?_⟩
  · refine Source.Vouches.append_iff.2 ⟨vouches_singleQuery _ _ _ _ _ _ _, .of_calls ?_⟩
    rw [hcalls]
    exact .asked trivial (.asked trivial (.asked trivial (.asked trivial (.asked trivial
      (.asked trivial .nil)))))
  · rw [callsOf_queried (fun _ => Request.unsent_of_isRead) (due_viewed key 10), hcalls] at hnone
    cases hnone

/-! ## The look at the snapshot -/

theorem runUnchecked_unsent {task : StakeTask} {history : List Step}
    {ending : Ending (Except TaskError Unit × StakeTask)}
    (ran : runUnchecked.Runs task history ending)
    (unseen : ∀ query rest view, history = query ++ rest →
      (task.runner.run stakeQuery).Runs query (.done (.ok (.ready view))) →
        ∀ r ∈ view.validators, r.status ≠ .prelaunch) :
    callsOf Request.isSubmission history = [] := by
  cases runUnchecked_course ran with
  | unviewed reads _ => exact callsOf_eq_nil_of_calls fun q answer hq =>
      Request.unsent_of_isRead (reads q answer hq)
  | @viewed query rest view _ viewing viewed =>
    have none_ready {now : Instant} {records : List MinipoolRecord}
        (eligible : Eligible view now records) : records = [] := by
      rw [(stakeCandidates?_inv eligible.ready).2]
      apply List.filter_eq_nil_iff.2
      intro r hr hready
      have hstatus := unseen query rest view rfl viewing r hr
      simp [MinipoolRecord.isReady?, hstatus] at hready
    rw [callsOf_queried (fun _ => Request.unsent_of_isRead) viewing]
    generalize calls rest = steps at viewed ⊢
    cases viewed with
    | crashed c => rfl
    | idle _ => rfl
    | unknown e eligible hne _ => exact absurd (none_ready eligible) hne
    | staked eligible hne _ _ => exact absurd (none_ready eligible) hne

/-- What the selection from a view comes to, told by a snapshot. -/
inductive Selects (snapshot : NetworkSnapshot) :
    Ending (Except TaskError (Instant × List MinipoolRecord)) → Prop
  | selected {now : Instant} {records : List MinipoolRecord} :
      snapshot.stakeCandidates? = some records → Selects snapshot (.done (.ok (now, records)))
  | crashed (c : Crash) : snapshot.stakeCandidates? = none → Selects snapshot (.crashed c)

theorem eligible_selects {view : StakeView} {snapshot : NetworkSnapshot}
    (shows : view.Shows snapshot) {history : List Step}
    {ending : Ending (Except TaskError (Instant × List MinipoolRecord))}
    (ran : (eligible view).Runs history ending) : Selects snapshot ending := by
  have candidates := shows.candidates
  obtain ⟨⟨now, records⟩, found, rfl⟩ | ⟨c, found, rfl⟩ := eligible_ends ran
  · rw [found] at candidates
    exact .selected candidates.symm
  · rw [found] at candidates
    exact .crashed c candidates.symm

section
variable {s : Source} {node : Address} {pages : PageSizes} {collecting : List Step}
  {snapshot : NetworkSnapshot}

/-- The look at the snapshot before a run changes nothing of what is submitted. -/
theorem run_submits_alike
    (collected : (QueryRunner.mk node pages).collect.Runs collecting (.done (.ok snapshot)))
    (vouched : s.Vouches collecting) {task : StakeTask} (hnode : task.runner.node = node)
    {checked unchecked : List Step} {ending ending' : Ending (Except TaskError Unit × StakeTask)}
    (ran : (run snapshot).Runs task checked ending)
    (ran' : runUnchecked.Runs task unchecked ending') (hunchecked : s.Vouches unchecked)
    (alike : Alike checked unchecked) :
    callsOf Request.isSubmission checked = callsOf Request.isSubmission unchecked := by
  rw [run_eq] at ran
  split at ran
  · next hempty =>
    obtain ⟨rfl, _⟩ := StatefulRoutine.runs_note_iff.1 ran
    have hnone : callsOf Request.isSubmission unchecked = [] := by
      apply runUnchecked_unsent ran'
      rintro query rest view rfl viewing r hr hstatus
      obtain ⟨⟨_, pages'⟩, policy, known⟩ := task
      cases hnode
      have hquery := (Source.Vouches.append_iff.1 hunchecked).1
      have shows := Source.view_shows collected vouched viewing hquery
      have hmem : r ∈ snapshot.prelaunch := by
        rw [shows.validators] at hr
        exact List.mem_filter.2 ⟨hr, decide_eq_true hstatus⟩
      rw [List.isEmpty_iff.1 hempty] at hmem
      cases hmem
    rw [hnone]
    rfl
  · obtain ⟨rfl, _⟩ := Routine.Runs.determined ran ran' alike
    rfl

/-- A snapshot and a view that come of the same answers show the same, and the same may be staked. A
run that looks at the snapshot first submits what a run that does not would submit. -/
theorem looks_agree
    (collected : (QueryRunner.mk node pages).collect.Runs collecting (.done (.ok snapshot)))
    (vouched : s.Vouches collecting) :
    (∀ pages' query view,
        ((QueryRunner.mk node pages').run stakeQuery).Runs query (.done (.ok (.ready view))) →
          s.Vouches query → view.Shows snapshot ∧
            ∀ history ending, (eligible view).Runs history ending → Selects snapshot ending) ∧
      ∀ (task : StakeTask) checked unchecked ending ending', task.runner.node = node →
        (run snapshot).Runs task checked ending → runUnchecked.Runs task unchecked ending' →
          s.Vouches unchecked → Alike checked unchecked →
            callsOf Request.isSubmission checked = callsOf Request.isSubmission unchecked := by
  constructor
  · intro pages' query view viewed hquery
    have shows := Source.view_shows collected vouched viewed hquery
    exact ⟨shows, fun history ending ran => eligible_selects shows ran⟩
  · intro task checked unchecked ending ending' hnode ran ran' hunchecked alike
    exact run_submits_alike collected vouched hnode ran ran' hunchecked alike

end

/-- Where nothing may be staked, the run that looks at the snapshot asks nothing, and the other asks
the chain again. Both submit nothing. Where a minipool is due, both do the same and send it. -/
theorem looks_agree_idle_and_due :
    (lastView.Shows TaskLoop.lastSnapshot ∧
      TaskLoop.lastSnapshot.stakeCandidates? = some [] ∧
        ∃ checked, (run TaskLoop.lastSnapshot).Runs eagerTask checked (.done (.ok (), eagerTask)) ∧
          checked.length < lastUnchecked.length ∧
            callsOf Request.isSubmission checked =
              callsOf Request.isSubmission lastUnchecked) ∧
      (dueView firstKey).Shows (dueSnapshot firstKey) ∧
        (dueSnapshot firstKey).stakeCandidates? = some [dueRecord firstKey] ∧
          ∃ checked unchecked ending ending',
            (run (dueSnapshot firstKey)).Runs eagerTask checked ending ∧
              runUnchecked.Runs eagerTask unchecked ending' ∧
                callsOf Request.isSubmission checked ≠ [] ∧
                  callsOf Request.isSubmission checked =
                    callsOf Request.isSubmission unchecked := by
  constructor
  · have vouched : lastSource.Vouches TaskLoop.lastQuery := vouches_soleSteps _ _ _ _ _ _ _ _
    have hunchecked : lastSource.Vouches lastUnchecked := vouches_singleQuery _ _ _ _ _ _ _
    obtain ⟨shows, submits⟩ := looks_agree TaskLoop.collect_lastSecond vouched
    obtain ⟨hshows, selects⟩ :=
      shows eagerTask.runner.pages lastUnchecked lastView stakeQuery_lastView hunchecked
    have checked : (run TaskLoop.lastSnapshot).Runs eagerTask
        [.noted (.nonePrelaunch (Bytes.zero 20))] (.done (.ok (), eagerTask)) := ⟨_, rfl, rfl, rfl⟩
    have alike : Alike [.noted (.nonePrelaunch (Bytes.zero 20))] lastUnchecked := by
      intro past q answer answer' rest rest' h
      rcases past with _ | ⟨step, past⟩
      · cases h
      · cases (List.append_eq_nil_iff.1 (List.cons.inj h).2.symm).2
    refine ⟨hshows, ?_, _, checked, by decide, ?_⟩
    · cases selects _ _ eligible_lastView with
      | selected candidates => exact candidates
    · exact submits eagerTask _ _ _ _ rfl checked runUnchecked_lastUnchecked hunchecked alike
  · obtain ⟨collecting, collected, vouched⟩ := collect_due firstKey Config.default.pageSizes
    obtain ⟨shows, submits⟩ := looks_agree collected vouched
    obtain ⟨hshows, selects⟩ := shows eagerTask.runner.pages _ _ (due_viewed firstKey 10)
      (vouches_singleQuery _ _ _ _ _ _ _)
    obtain ⟨history, ending, ran, unchecked, hunchecked, hsent⟩ := due_submitted firstKey_checked
    refine ⟨hshows, ?_, history, history, ending, ending, ran, unchecked, hsent, ?_⟩
    · cases selects _ _ (eligible_runs (dueView_eligible firstKey) (dueView_reviewed firstKey)) with
      | selected candidates => exact candidates
    · exact submits eagerTask _ _ _ _ rfl ran unchecked hunchecked (.refl history)

end StakeTask

end StakeKeeper
