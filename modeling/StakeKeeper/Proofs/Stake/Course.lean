import StakeKeeper.Proofs.Stake.Preparation

/-!
The courses that a run of the staking task can take. Main statement: `StakeTask.runs_course` (every
run takes one of them, whatever the collaborators answer).
-/
namespace StakeKeeper
set_option autoImplicit false

/-- The entries that a policy sends at an estimate, and their fees. -/
def StakePolicy.choice (policy : StakePolicy) (timeout : Duration) (entries : List StakeEntry)
    (estimate : FeeEstimate) : Option (List StakeEntry × FeeSettings) :=
  match submissionDecision (entries.map (·.waited)) timeout policy.forcePercent estimate.maxFee
      policy.gasThreshold with
  | .skip => none
  | .submitAll => some (entries, policy.normalFees estimate)
  | .submitForced indices => some (selectEntries entries indices, policy.forcedFees estimate)

theorem selectEntries_sublist (entries : List StakeEntry) (indices : List Nat) :
    (selectEntries entries indices).Sublist entries := by
  have h : (selectEntries entries indices).Sublist (entries.zipIdx.map Prod.fst) :=
    List.filter_sublist.map Prod.fst
  rwa [List.zipIdx_map_fst] at h

theorem StakePolicy.choice_sublist {policy : StakePolicy} {timeout : Duration}
    {entries batch : List StakeEntry} {estimate : FeeEstimate} {fees : FeeSettings}
    (h : policy.choice timeout entries estimate = some (batch, fees)) :
    batch.Sublist entries := by
  unfold choice at h
  split at h
  · cases h
  · cases h
    exact List.Sublist.refl _
  · cases h
    exact selectEntries_sublist _ _

namespace StakeTask

/-! ## Sending -/

/-- The calls from the estimate on, for entries that were simulated, and what they come to. -/
inductive Sending (policy : StakePolicy) (view : StakeView) (entries : List StakeEntry) :
    List Step → Except TaskError Unit → Prop
  | unpriced (e : CallError) :
      Sending policy view entries [.asked .feeEstimate (.error e)] (.error (.call e))
  | postponed {estimate : FeeEstimate} :
      policy.choice view.settings.launchTimeout entries estimate = none →
        Sending policy view entries [.asked .feeEstimate (.ok estimate)] (.ok ())
  | refused {estimate : FeeEstimate} {batch : List StakeEntry} {fees : FeeSettings}
      (e : CallError) :
      policy.choice view.settings.launchTimeout entries estimate = some (batch, fees) →
        Sending policy view entries
          [.asked .feeEstimate (.ok estimate),
            .asked (.submit view.transactor (batch.map (·.tx)) fees) (.error e)]
          (.error (.call e))
  | sent {estimate : FeeEstimate} {batch : List StakeEntry} {fees : FeeSettings}
      (hashes : List Root) (answer : Except CallError Unit) :
      policy.choice view.settings.launchTimeout entries estimate = some (batch, fees) →
        Sending policy view entries
          [.asked .feeEstimate (.ok estimate),
            .asked (.submit view.transactor (batch.map (·.tx)) fees) (.ok hashes),
            .asked (.wait hashes) answer]
          (answer.mapError .call)

theorem runs_send {sender : Transactor} {batch : List StakeEntry} {fees : FeeSettings}
    {history : List Step} {ending : Ending (Except TaskError Unit)}
    (ran : (send sender batch fees).Runs history ending) :
    (∃ e, calls history = [.asked (.submit sender (batch.map (·.tx)) fees) (.error e)] ∧
        ending = .done (.error (.call e))) ∨
      ∃ hashes answer, calls history =
          [.asked (.submit sender (batch.map (·.tx)) fees) (.ok hashes),
            .asked (.wait hashes) answer] ∧
        ending = .done (answer.mapError .call) := by
  obtain ⟨rest, rfl, submitting⟩ := FailingRoutine.runs_noteAll_bind_iff.1 ran
  rw [calls_append, calls_events, List.nil_append]
  rcases FailingRoutine.runs_call_bind_iff.1 submitting with
    ⟨e, rfl, rfl⟩ | ⟨hashes, rest, rfl, waiting⟩
  · exact .inl ⟨e, rfl, rfl⟩
  rcases FailingRoutine.runs_call_bind_iff.1 waiting with ⟨e, rfl, rfl⟩ | ⟨_, rest, rfl, noting⟩
  · exact .inr ⟨hashes, .error e, rfl, rfl⟩
  · obtain ⟨rfl, rfl⟩ := FailingRoutine.runs_note_iff.1 noting
    exact .inr ⟨hashes, .ok (), rfl, rfl⟩

theorem runs_submit {policy : StakePolicy} {view : StakeView} {entries : List StakeEntry}
    {history : List Step} {ending : Ending (Except TaskError Unit)}
    (ran : (submit policy view entries).Runs history ending) :
    ∃ result, ending = .done result ∧ Sending policy view entries (calls history) result := by
  rcases FailingRoutine.runs_call_bind_iff.1 ran with
    ⟨e, rfl, rfl⟩ | ⟨(estimate : FeeEstimate), rest, rfl, deciding⟩
  · exact ⟨_, rfl, .unpriced e⟩
  rw [calls_asked]
  have hsend {batch : List StakeEntry} {fees : FeeSettings} {history : List Step}
      (hc : policy.choice view.settings.launchTimeout entries estimate = some (batch, fees))
      (h : (send view.transactor batch fees).Runs history ending) :
      ∃ result, ending = .done result ∧
        Sending policy view entries (.asked .feeEstimate (.ok estimate) :: calls history) result := by
    rcases runs_send h with ⟨e, hs, rfl⟩ | ⟨hashes, answer, hs, rfl⟩
    · exact ⟨_, rfl, hs ▸ .refused e hc⟩
    · exact ⟨_, rfl, hs ▸ .sent hashes answer hc⟩
  dsimp only at deciding
  split at deciding
  · next hd =>
    obtain ⟨rfl, rfl⟩ := FailingRoutine.runs_note_iff.1 deciding
    exact ⟨_, rfl, .postponed (by simp only [StakePolicy.choice, hd])⟩
  · next hd => exact hsend (by simp only [StakePolicy.choice, hd]) deciding
  · next indices hd =>
    obtain ⟨rest, rfl, sending⟩ := FailingRoutine.runs_note_bind_iff.1 deciding
    rw [calls_noted]
    exact hsend (by simp only [StakePolicy.choice, hd]) sending

/-! ## Staking from a view -/

/-- The calls from the first key on, for the records of a view that may be staked, and what they come
to. -/
inductive Staking (policy : StakePolicy) (view : StakeView) (domain : Root) (now : Instant)
    (records : List MinipoolRecord) : List Step → Except TaskError Unit → Prop
  | unsigned {stakes : List SignedStake} {record : MinipoolRecord} {rest : List MinipoolRecord}
      {answer : Except CallError (Option ValidatorKey)} {e : TaskError} :
      (∀ s ∈ stakes, s.Checked domain) → records = stakes.map (·.record) ++ record :: rest →
        keyedEntry domain now record answer = .error e →
          Staking policy view domain now records
            (stakes.map (·.loading) ++ [.asked (.loadKey record.pubkey) answer]) (.error e)
  | unsimulated {prepared : List PreparedStake} {s : SignedStake} {rest : List SignedStake}
      (error : CallError) (e : TaskError) :
      (∀ t ∈ prepared.map (·.toSignedStake) ++ s :: rest, t.Checked domain) →
        records = (prepared.map (·.toSignedStake) ++ s :: rest).map (·.record) →
          Staking policy view domain now records
            ((prepared.map (·.toSignedStake) ++ s :: rest).map (·.loading) ++
              (prepared.map (·.simulation view.transactor domain) ++
                [.asked (.simulate view.transactor (s.transaction domain none)) (.error error)]))
            (.error e)
  | simulated {prepared : List PreparedStake} {steps : List Step}
      {result : Except TaskError Unit} :
      (∀ s ∈ prepared, s.Checked domain) → records = prepared.map (·.record) →
        Sending policy view (prepared.map (·.sentEntry domain now)) steps result →
          Staking policy view domain now records
            (prepared.map (·.loading) ++
              (prepared.map (·.simulation view.transactor domain) ++ steps)) result

theorem calls_loadings (stakes : List SignedStake) :
    calls (stakes.map (·.loading)) = stakes.map (·.loading) := by
  refine List.filter_eq_self.2 fun step hs => ?_
  obtain ⟨s, _, rfl⟩ := List.mem_map.1 hs
  rfl

theorem calls_simulations (sender : Transactor) (domain : Root) (prepared : List PreparedStake) :
    calls (prepared.map (·.simulation sender domain)) =
      prepared.map (·.simulation sender domain) := by
  refine List.filter_eq_self.2 fun step hs => ?_
  obtain ⟨s, _, rfl⟩ := List.mem_map.1 hs
  rfl

theorem runs_staking {policy : StakePolicy} {view : StakeView} {domain : Root} {now : Instant}
    {records : List MinipoolRecord} {history : List Step} {ending : Ending (Except TaskError Unit)}
    (ran : FailingRoutine.Runs (do
      let entries ← buildEntries domain now records
      let simulated ← simulateEntries view.transactor entries
      submit policy view simulated) history ending) :
    ∃ result, ending = .done result ∧
      Staking policy view domain now records (calls history) result := by
  rcases FailingRoutine.runs_bind_iff.1 ran with
    ⟨c, rfl, building⟩ | ⟨e, rfl, building⟩ | ⟨entries, loads, more, rfl, building, going⟩
  · obtain ⟨_, _, ⟨_, _, hc⟩ | ⟨_, _, _, _, _, _, _, hc⟩⟩ := runs_buildEntries building <;> cases hc
  · obtain ⟨stakes, checked, ⟨_, _, hc⟩ | ⟨record, rest, answer, _, hr, rfl, ha, hc⟩⟩ :=
      runs_buildEntries building <;> cases hc
    rw [calls_append, calls_loadings]
    exact ⟨_, rfl, .unsigned checked hr ha⟩
  obtain ⟨stakes, checked, ⟨rfl, rfl, hv⟩ | ⟨_, _, _, _, _, _, _, hc⟩⟩ :=
    runs_buildEntries building
  · cases hv
    rw [calls_append, calls_loadings]
    rcases FailingRoutine.runs_bind_iff.1 going with
      ⟨c, rfl, simulating⟩ | ⟨e, rfl, simulating⟩ |
        ⟨entries, simulations, more, rfl, simulating, submitting⟩
    · obtain ⟨_, ⟨_, _, hc⟩ | ⟨_, _, _, _, _, _, hc⟩⟩ := runs_simulateEntries simulating <;>
        cases hc
    · obtain ⟨prepared, ⟨_, _, hc⟩ | ⟨s, rest, error, _, rfl, rfl, hc⟩⟩ :=
        runs_simulateEntries simulating <;> cases hc
      rw [calls_append, calls_simulations]
      exact ⟨_, rfl, .unsimulated error e checked rfl⟩
    · obtain ⟨prepared, ⟨rfl, rfl, hv⟩ | ⟨_, _, _, _, _, _, hc⟩⟩ :=
        runs_simulateEntries simulating
      · cases hv
        obtain ⟨result, rfl, sending⟩ := runs_submit submitting
        rw [calls_append, calls_simulations, List.map_map, List.map_map]
        refine ⟨result, rfl, .simulated (fun s hs => ?_) rfl sending⟩
        exact checked s.toSignedStake (List.mem_map_of_mem hs)
      · cases hc
  · cases hc

/-! ## One run -/

section

-- The range of instants is never computed with below.
seal Instant.ofNanos?

/-- The view's time and the records in it that may be staked. -/
structure Eligible (view : StakeView) (now : Instant) (records : List MinipoolRecord) : Prop where
  time : view.header.time? = some now
  ready : stakeCandidates? now view.settings.scrubPeriod view.validators = some records

theorem Eligible.unique {view : StakeView} {now now' : Instant}
    {records records' : List MinipoolRecord} (h : Eligible view now records)
    (h' : Eligible view now' records') : now = now' ∧ records = records' := by
  obtain rfl := Option.some.inj (h.time.symm.trans h'.time)
  exact ⟨rfl, Option.some.inj (h.ready.symm.trans h'.ready)⟩

theorem runs_eligible {view : StakeView} {history : List Step}
    {ending : Ending (Except TaskError (Instant × List MinipoolRecord))}
    (ran : (eligible view).Runs history ending) :
    calls history = [] ∧ ((∃ c, ending = .crashed c) ∨
      ∃ now records, Eligible view now records ∧ ending = .done (.ok (now, records))) := by
  unfold eligible at ran
  rcases FailingRoutine.runs_orCrash_bind_iff.1 ran with ⟨now, hnow, selecting⟩ | ⟨_, rfl, rfl⟩
  · rcases FailingRoutine.runs_orCrash_bind_iff.1 selecting with
      ⟨records, hready, reviewing⟩ | ⟨_, rfl, rfl⟩
    · rcases FailingRoutine.runs_orCrash_bind_iff.1 reviewing with
        ⟨events, _, noting⟩ | ⟨_, rfl, rfl⟩
      · obtain ⟨rest, rfl, rfl, rfl⟩ := FailingRoutine.runs_noteAll_bind_iff.1 noting
        exact ⟨by simp, .inr ⟨now, records, ⟨hnow, hready⟩, rfl⟩⟩
      · exact ⟨rfl, .inl ⟨_, rfl⟩⟩
    · exact ⟨rfl, .inl ⟨_, rfl⟩⟩
  · exact ⟨rfl, .inl ⟨_, rfl⟩⟩

/-- The calls by which the task has its domain. -/
inductive DomainKnown (task : StakeTask) : List Step → Root → Prop
  | kept {domain : Root} : task.knownDomain = some domain → DomainKnown task [] domain
  | asked (config : BeaconConfig) : task.knownDomain = none →
      DomainKnown task [.asked .beaconConfig (.ok config)] (depositDomain config.genesisFork)

theorem DomainKnown.unique {task : StakeTask} {asking : List Step} {domain domain' : Root}
    (h : DomainKnown task asking domain) (h' : DomainKnown task asking domain') :
    domain = domain' := by
  cases h with
  | kept hk =>
    cases h' with
    | kept hk' => exact Option.some.inj (hk.symm.trans hk')
  | asked config hk =>
    cases h' with
    | asked => rfl

theorem runs_domain {task : StakeTask} {history : List Step}
    {ending : Ending (Except TaskError Root × StakeTask)}
    (ran : domain.Runs task history ending) :
    (∃ e, task.knownDomain = none ∧ history = [.asked .beaconConfig (.error e)] ∧
        ending = .done (.error (.call e), task)) ∨
      ∃ domain, DomainKnown task history domain ∧
        ending = .done (.ok domain, { task with knownDomain := some domain }) := by
  have opened := StatefulRoutine.runs_get_bind_iff.1 ran
  dsimp only at opened
  split at opened
  · next known hk =>
    obtain ⟨rfl, rfl⟩ := opened
    refine .inr ⟨known, .kept hk, ?_⟩
    rw [← hk]
  · next hk =>
    rcases StatefulRoutine.runs_call_bind_iff.1 opened with
      ⟨e, rfl, rfl⟩ | ⟨(config : BeaconConfig), rest, rfl, rfl, rfl⟩
    · exact .inl ⟨e, hk, rfl, rfl⟩
    · exact .inr ⟨_, .asked config hk, rfl⟩

/-- The calls of a run after its view, and how the run ends. -/
inductive Viewed (task : StakeTask) (view : StakeView) :
    List Step → Ending (Except TaskError Unit × StakeTask) → Prop
  | crashed (c : Crash) : Viewed task view [] (.crashed c)
  | idle {now : Instant} : Eligible view now [] → Viewed task view [] (.done (.ok (), task))
  | unknown {now : Instant} {records : List MinipoolRecord} (e : CallError) :
      Eligible view now records → records ≠ [] → task.knownDomain = none →
        Viewed task view [.asked .beaconConfig (.error e)] (.done (.error (.call e), task))
  | staked {now : Instant} {records : List MinipoolRecord} {domain : Root}
      {asking steps : List Step} {result : Except TaskError Unit} :
      Eligible view now records → records ≠ [] → DomainKnown task asking domain →
        Staking task.policy view domain now records steps result →
          Viewed task view (asking ++ steps)
            (.done (result, { task with knownDomain := some domain }))

theorem runs_stakeFrom {task : StakeTask} {view : StakeView} {history : List Step}
    {ending : Ending (Except TaskError Unit × StakeTask)}
    (ran : (stakeFrom view).Runs task history ending) :
    Viewed task view (calls history) ending := by
  rcases StatefulRoutine.runs_ofFailing_bind_iff.1 ran with
    ⟨c, rfl, selecting⟩ | ⟨e, rfl, selecting⟩ |
      ⟨⟨now, records⟩, first, second, rfl, selecting, going⟩
  · rw [(runs_eligible selecting).1]
    exact .crashed c
  · obtain ⟨_, ⟨_, hc⟩ | ⟨_, _, _, hc⟩⟩ := runs_eligible selecting <;> cases hc
  obtain ⟨hfirst, ⟨_, hc⟩ | ⟨_, _, hready, hr⟩⟩ := runs_eligible selecting
  · cases hc
  cases hr
  rw [calls_append, hfirst, List.nil_append]
  dsimp only at going
  split at going
  · next hempty =>
    obtain ⟨rfl, rfl⟩ := going
    rw [List.isEmpty_iff.1 hempty] at hready
    exact .idle hready
  next hsome =>
  have hne : records ≠ [] := fun h => hsome (List.isEmpty_iff.2 h)
  rcases StatefulRoutine.runs_bind_iff.1 going with
    ⟨c, rfl, asking⟩ | ⟨e, t, rfl, asking⟩ | ⟨domain, t, first, second, rfl, asking, staking⟩
  · obtain ⟨_, _, _, hc⟩ | ⟨_, _, hc⟩ := runs_domain asking <;> cases hc
  · obtain ⟨e, hk, rfl, hr⟩ | ⟨_, _, hr⟩ := runs_domain asking <;> cases hr
    exact .unknown e hready hne hk
  · obtain ⟨_, _, _, hr⟩ | ⟨_, hk, hr⟩ := runs_domain asking <;> cases hr
    have hasking : calls first = first := by cases hk <;> rfl
    rw [calls_append, hasking]
    have opened := StatefulRoutine.runs_get_bind_iff.1 staking
    rcases StatefulRoutine.runs_ofFailing_iff.1 opened with ⟨c, rfl, h⟩ | ⟨result, rfl, h⟩
    · obtain ⟨_, hc, _⟩ := runs_staking h
      cases hc
    · obtain ⟨_, hr, h⟩ := runs_staking h
      cases hr
      exact .staked hready hne hk h

theorem runs_querying {α β : Type} {task : StakeTask} {m : QueryRoutine α}
    {f : α → StatefulRoutine StakeTask TaskError β} {history : List Step}
    {ending : Ending (Except TaskError β × StakeTask)}
    (ran : (StatefulRoutine.ofFailing (querying m) >>= f).Runs task history ending) :
    (∃ c, ending = .crashed c ∧ m.Runs history (.crashed c)) ∨
      (∃ e, ending = .done (.error (.query e), task) ∧ m.Runs history (.done (.error e))) ∨
        ∃ a first second, history = first ++ second ∧ m.Runs first (.done (.ok a)) ∧
          (f a).Runs task second ending := by
  rcases StatefulRoutine.runs_ofFailing_bind_iff.1 ran with
    ⟨c, rfl, adapted⟩ | ⟨e, rfl, adapted⟩ | ⟨a, first, second, rfl, adapted, going⟩
  · rcases FailingRoutine.runs_adapt_iff.1 adapted with ⟨_, hc, h⟩ | ⟨_, hc, _⟩
    · cases hc
      exact .inl ⟨c, rfl, h⟩
    · cases hc
  · rcases FailingRoutine.runs_adapt_iff.1 adapted with ⟨_, hc, _⟩ | ⟨answer, hr, h⟩
    · cases hc
    · cases answer with
      | error reason =>
        cases hr
        exact .inr (.inl ⟨reason, rfl, h⟩)
      | ok a => cases hr
  · rcases FailingRoutine.runs_adapt_iff.1 adapted with ⟨_, hc, _⟩ | ⟨answer, hr, h⟩
    · cases hc
    · cases answer with
      | error reason => cases hr
      | ok found =>
        cases hr
        exact .inr (.inr ⟨a, first, second, rfl, h, going⟩)

/-- The course of a run, which ends without a view or goes on from one. -/
inductive Course (task : StakeTask) :
    List Step → Ending (Except TaskError Unit × StakeTask) → Prop
  | unviewed {history : List Step} {ending : Ending (Except TaskError Unit × StakeTask)} :
      (∀ q answer, .asked q answer ∈ history → q.isRead = true) →
        (∀ result next, ending = .done (result, next) → next = task) →
          Course task history ending
  | viewed {query rest : List Step} {view : StakeView}
      {ending : Ending (Except TaskError Unit × StakeTask)} :
      (task.runner.run stakeQuery).Runs query (.done (.ok (.ready view))) →
        Viewed task view (calls rest) ending → Course task (query ++ rest) ending

theorem stakeQuery_reads {runner : QueryRunner} {query : List Step}
    {ending : Ending (Except QueryError (QueryOutcome StakeView))}
    (ran : (runner.run stakeQuery).Runs query ending) (q : Request)
    (answer : Except CallError q.Reply) (h : .asked q answer ∈ query) : q.isRead = true :=
  (runner.run_meets stakeQuery (stakeQuery_prepare_meets (fun _ => rfl) rfl)).call ran h

/-- A run that asks the chain whatever its snapshot shows. -/
def runUnchecked : StatefulRoutine StakeTask TaskError Unit := do
  let runner := (← get).runner
  match ← StatefulRoutine.ofFailing (querying (runner.run stakeQuery)) with
  | .notReady reason => StatefulRoutine.note (.stakeSkipped reason)
  | .ready view => stakeFrom view

theorem run_eq (snapshot : NetworkSnapshot) :
    run snapshot = if snapshot.prelaunch.isEmpty then
      StatefulRoutine.note (.nonePrelaunch snapshot.node) else runUnchecked := rfl

theorem runUnchecked_viewed {task : StakeTask} {query rest : List Step} {view : StakeView}
    {ending : Ending (Except TaskError Unit × StakeTask)}
    (viewing : (task.runner.run stakeQuery).Runs query (.done (.ok (.ready view))))
    (staking : (stakeFrom view).Runs task rest ending) :
    runUnchecked.Runs task (query ++ rest) ending := by
  have viewed : (StatefulRoutine.ofFailing (querying (task.runner.run stakeQuery))).Runs task query
      (.done (.ok (.ready view), task)) := StatefulRoutine.runs_ofFailing_iff.2
    (.inr ⟨_, rfl, FailingRoutine.runs_adapt_iff.2 (.inr ⟨_, rfl, viewing⟩)⟩)
  exact StatefulRoutine.runs_get_bind_iff.2 (viewed.bind staking)

theorem noted_isRead {e : Event} (q : Request) (answer : Except CallError q.Reply)
    (h : .asked q answer ∈ [Step.noted e]) : q.isRead = true := by
  cases List.mem_singleton.1 h

theorem runUnchecked_course {task : StakeTask} {history : List Step}
    {ending : Ending (Except TaskError Unit × StakeTask)}
    (ran : runUnchecked.Runs task history ending) : Course task history ending := by
  have opened := StatefulRoutine.runs_get_bind_iff.1 ran
  dsimp only at opened
  rcases runs_querying opened with
    ⟨c, rfl, h⟩ | ⟨e, rfl, h⟩ | ⟨outcome, query, rest, rfl, h, going⟩
  · exact .unviewed (stakeQuery_reads h) (by rintro _ _ ⟨⟩)
  · exact .unviewed (stakeQuery_reads h) (by rintro _ _ ⟨⟩; rfl)
  cases outcome with
  | notReady reason =>
    obtain ⟨rfl, rfl⟩ := StatefulRoutine.runs_note_iff.1 going
    refine .unviewed (fun q answer hq => ?_) (by rintro _ _ ⟨⟩; rfl)
    exact (List.mem_append.1 hq).elim (stakeQuery_reads h q answer) (noted_isRead q answer)
  | ready view => exact .viewed h (runs_stakeFrom going)

/-- Every run takes one of the courses, whatever it is answered. -/
theorem runs_course {task : StakeTask} {snapshot : NetworkSnapshot} {history : List Step}
    {ending : Ending (Except TaskError Unit × StakeTask)}
    (ran : (run snapshot).Runs task history ending) : Course task history ending := by
  rw [run_eq] at ran
  split at ran
  · obtain ⟨rfl, rfl⟩ := StatefulRoutine.runs_note_iff.1 ran
    exact .unviewed noted_isRead (by rintro _ _ ⟨⟩; rfl)
  · exact runUnchecked_course ran

end

end StakeTask

end StakeKeeper
