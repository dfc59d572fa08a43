import StakeKeeper.Proofs.Query.Single
import StakeKeeper.Proofs.Stake.Course

/-!
Runs of the staking task in which no call fails. Main statement: `StakeTask.run_delivers` (when all
keys are good and all calls succeed, what the policy chooses is sent).
-/
namespace StakeKeeper
set_option autoImplicit false

namespace StakeTask

/-! ## Without failures -/

theorem buildEntries_runs {domain : Root} {now : Instant} {stakes : List SignedStake}
    (checked : ∀ s ∈ stakes, s.Checked domain) :
    (buildEntries domain now (stakes.map (·.record))).Runs (stakes.map (·.loading))
      (.done (.ok (stakes.map (·.entry domain now none)))) := by
  induction stakes with
  | nil => exact ⟨rfl, rfl⟩
  | cons s rest ih =>
    have hs : stakeEntry s.record s.key domain now = .ok (s.entry domain now none) :=
      stakeEntry_eq_ok_iff.2 ⟨checked s List.mem_cons_self, rfl⟩
    have hrest := ih fun t ht => checked t (List.mem_cons_of_mem s ht)
    refine FailingRoutine.runs_call_bind_iff.2 (.inr ⟨some s.key, _, rfl, ?_⟩)
    refine FailingRoutine.runs_ofExcept_bind_iff.2 (.inl ⟨_, hs, ?_⟩)
    exact hrest.bind_pure (_ :: ·)

theorem simulateEntries_runs (sender : Transactor) (domain : Root) (now : Instant)
    (prepared : List PreparedStake) :
    (simulateEntries sender (prepared.map (·.entry domain now none))).Runs
      (prepared.map (·.simulation sender domain))
      (.done (.ok (prepared.map (·.sentEntry domain now)))) := by
  induction prepared with
  | nil => exact ⟨rfl, rfl⟩
  | cons s rest ih =>
    refine FailingRoutine.runs_attempt_bind_iff.2 ⟨.ok s.gas, _, rfl, ?_⟩
    exact ih.bind_pure (_ :: ·)

theorem send_runs (sender : Transactor) (batch : List StakeEntry) (fees : FeeSettings)
    (hashes : List Root) :
    ∃ history, (send sender batch fees).Runs history (.done (.ok ())) ∧
      calls history = [.asked (.submit sender (batch.map (·.tx)) fees) (.ok hashes),
        .asked (.wait hashes) (.ok ())] := by
  refine ⟨_, FailingRoutine.runs_noteAll_bind_iff.2 ⟨_, rfl,
    FailingRoutine.runs_call_bind_iff.2 (.inr ⟨hashes, _, rfl,
      FailingRoutine.runs_call_bind_iff.2 (.inr ⟨(), _, rfl,
        FailingRoutine.runs_note_iff.2 ⟨rfl, rfl⟩⟩)⟩)⟩, ?_⟩
  rw [calls_append, calls_events]
  rfl

theorem submit_runs {policy : StakePolicy} {view : StakeView} {entries batch : List StakeEntry}
    {estimate : FeeEstimate} {fees : FeeSettings} (hashes : List Root)
    (hc : policy.choice view.settings.launchTimeout entries estimate = some (batch, fees)) :
    ∃ history, (submit policy view entries).Runs history (.done (.ok ())) ∧
      calls history = [.asked .feeEstimate (.ok estimate),
        .asked (.submit view.transactor (batch.map (·.tx)) fees) (.ok hashes),
        .asked (.wait hashes) (.ok ())] := by
  obtain ⟨sending, ran, hcalls⟩ := send_runs view.transactor batch fees hashes
  unfold StakePolicy.choice at hc
  split at hc
  · cases hc
  · next hd =>
    cases hc
    refine ⟨.asked .feeEstimate (.ok estimate) :: sending,
      FailingRoutine.runs_call_bind_iff.2 (.inr ⟨estimate, sending, rfl, ?_⟩), ?_⟩
    · dsimp only
      rw [hd]
      exact ran
    · rw [calls_asked, hcalls]
  · next indices hd =>
    cases hc
    let forced : Event := .stakeForced (selectEntries entries indices).length estimate.maxFee
    refine ⟨.asked .feeEstimate (.ok estimate) :: .noted forced :: sending,
      FailingRoutine.runs_call_bind_iff.2 (.inr ⟨estimate, _, rfl, ?_⟩), ?_⟩
    · dsimp only
      rw [hd]
      exact FailingRoutine.runs_note_bind_iff.2 ⟨sending, rfl, ran⟩
    · rw [calls_asked, calls_noted, hcalls]

section

-- The range of instants is never computed with below.
seal Instant.ofNanos?

theorem eligible_runs {view : StakeView} {now : Instant} {records : List MinipoolRecord}
    {events : List Event} (h : Eligible view now records)
    (hevents : reviewEvents? now view.settings.scrubPeriod view.validators = some events) :
    (eligible view).Runs (events.map .noted) (.done (.ok (now, records))) := by
  refine FailingRoutine.runs_orCrash_bind_iff.2 (.inl ⟨now, h.time, ?_⟩)
  refine FailingRoutine.runs_orCrash_bind_iff.2 (.inl ⟨records, h.ready, ?_⟩)
  refine FailingRoutine.runs_orCrash_bind_iff.2 (.inl ⟨events, hevents, ?_⟩)
  exact FailingRoutine.runs_noteAll_bind_iff.2 ⟨[], (List.append_nil _).symm, rfl, rfl⟩

theorem domain_runs {task : StakeTask} {asking : List Step} {known : Root}
    (h : DomainKnown task asking known) :
    domain.Runs task asking (.done (.ok known, { task with knownDomain := some known })) := by
  refine StatefulRoutine.runs_get_bind_iff.2 ?_
  obtain ⟨runner, policy, knownDomain⟩ := task
  cases h with
  | kept hk =>
    cases hk
    exact ⟨rfl, rfl⟩
  | asked config hk =>
    cases hk
    exact StatefulRoutine.runs_call_bind_iff.2 (.inr ⟨config, [], rfl, rfl, rfl⟩)

variable {task : StakeTask} {asking : List Step} {view : StakeView} {now : Instant} {domain : Root}
  {prepared : List PreparedStake} {events : List Event} {estimate : FeeEstimate}
  {batch : List StakeEntry} {fees : FeeSettings}

theorem stakeFrom_delivers (hashes : List Root)
    (eligible : Eligible view now (prepared.map (·.record))) (hsome : prepared ≠ [])
    (hevents : reviewEvents? now view.settings.scrubPeriod view.validators = some events)
    (known : DomainKnown task asking domain) (checked : ∀ s ∈ prepared, s.Checked domain)
    (hc : task.policy.choice view.settings.launchTimeout (prepared.map (·.sentEntry domain now))
      estimate = some (batch, fees)) :
    ∃ rest, (stakeFrom view).Runs task rest
        (.done (.ok (), { task with knownDomain := some domain })) ∧
      calls rest = asking ++ (prepared.map (·.loading) ++
        (prepared.map (·.simulation view.transactor domain) ++
          [.asked .feeEstimate (.ok estimate),
            .asked (.submit view.transactor (batch.map (·.tx)) fees) (.ok hashes),
            .asked (.wait hashes) (.ok ())])) := by
  obtain ⟨sending, submitting, hcalls⟩ := submit_runs hashes hc
  have building : (buildEntries domain now (prepared.map (·.record))).Runs
      (prepared.map (·.loading)) (.done (.ok (prepared.map (·.entry domain now none)))) := by
    have signed : ∀ s ∈ prepared.map (·.toSignedStake), s.Checked domain := by
      intro s hs
      obtain ⟨t, ht, rfl⟩ := List.mem_map.1 hs
      exact checked t ht
    have h := @buildEntries_runs domain now _ signed
    rwa [List.map_map, List.map_map, List.map_map] at h
  have staking : FailingRoutine.Runs (do
      let entries ← buildEntries domain now (prepared.map (·.record))
      let simulated ← simulateEntries view.transactor entries
      submit task.policy view simulated) (prepared.map (·.loading) ++
        (prepared.map (·.simulation view.transactor domain) ++ sending)) (.done (.ok ())) :=
    building.bind ((simulateEntries_runs view.transactor domain now prepared).bind submitting)
  have selecting : (StatefulRoutine.ofFailing (StakeTask.eligible view)).Runs task
      (events.map .noted) (.done (.ok (now, prepared.map (·.record)), task)) :=
    StatefulRoutine.runs_ofFailing_iff.2 (.inr ⟨_, rfl, eligible_runs eligible hevents⟩)
  refine ⟨events.map .noted ++ (asking ++ (prepared.map (·.loading) ++
    (prepared.map (·.simulation view.transactor domain) ++ sending))), ?_, ?_⟩
  · refine selecting.bind ?_
    dsimp only
    rw [if_neg (fun h => hsome (List.map_eq_nil_iff.1 (List.isEmpty_iff.1 h)))]
    refine (domain_runs known).bind (StatefulRoutine.runs_get_bind_iff.2 ?_)
    exact StatefulRoutine.runs_ofFailing_iff.2 (.inr ⟨_, rfl, staking⟩)
  · have hasking : calls asking = asking := by cases known <;> rfl
    have hloads := calls_loadings (prepared.map (·.toSignedStake))
    rw [List.map_map] at hloads
    rw [calls_append, calls_events, calls_append, hasking, calls_append, calls_append, hcalls,
      calls_simulations]
    exact congrArg (fun loads => asking ++ (loads ++ _)) hloads

/-- When the keys are good and no call fails, a run sends what the policy chooses. Its calls, in
order: the domain if it is not known yet, the keys, the simulations, the price, the batch, and the
wait for it. -/
theorem run_delivers {snapshot : NetworkSnapshot} {query : List Step} (hashes : List Root)
    (hsnapshot : snapshot.prelaunch.isEmpty = false)
    (viewing : (task.runner.run stakeQuery).Runs query (.done (.ok (.ready view))))
    (eligible : Eligible view now (prepared.map (·.record))) (hsome : prepared ≠ [])
    (hevents : reviewEvents? now view.settings.scrubPeriod view.validators = some events)
    (known : DomainKnown task asking domain) (checked : ∀ s ∈ prepared, s.Checked domain)
    (hc : task.policy.choice view.settings.launchTimeout (prepared.map (·.sentEntry domain now))
      estimate = some (batch, fees)) :
    ∃ rest, (run snapshot).Runs task (query ++ rest)
        (.done (.ok (), { task with knownDomain := some domain })) ∧
      calls rest = asking ++ (prepared.map (·.loading) ++
        (prepared.map (·.simulation view.transactor domain) ++
          [.asked .feeEstimate (.ok estimate),
            .asked (.submit view.transactor (batch.map (·.tx)) fees) (.ok hashes),
            .asked (.wait hashes) (.ok ())])) := by
  obtain ⟨rest, staking, hcalls⟩ :=
    stakeFrom_delivers hashes eligible hsome hevents known checked hc
  refine ⟨rest, ?_, hcalls⟩
  rw [run_eq, if_neg (Bool.eq_false_iff.1 hsnapshot)]
  exact runUnchecked_viewed viewing staking

/-! ## A minipool that is due -/

/-- A minipool with a validator's key, in prelaunch since the epoch. -/
def dueRecord (key : ValidatorKey) : MinipoolRecord where
  node := Bytes.zero 20
  address := Bytes.zero 20
  known := true
  status := .prelaunch
  statusTime := .epoch
  pubkey := key.pubkey
  credentials := Bytes.zero 32
  beacon := none

/-- A view of it one second later, when its review has ended. -/
def dueView (key : ValidatorKey) : StakeView where
  header := ⟨7, Bytes.zero 32, 1⟩
  settings := ⟨.ofSecs 1, .ofSecs 10, .zero⟩
  transactor := ⟨Bytes.zero 20, 1⟩
  validators := [dueRecord key]

/-- A task that has not asked for its domain and sends at any price. -/
def eagerTask : StakeTask := ⟨⟨Bytes.zero 20, ⟨1, 1⟩⟩, ⟨50, 0, 0, 2⟩, none⟩

def dueSnapshot (key : ValidatorKey) : NetworkSnapshot :=
  ⟨(dueView key).header, (dueView key).settings, Bytes.zero 20, 1, [dueRecord key]⟩

def duePrepared (key : ValidatorKey) : PreparedStake := ⟨⟨dueRecord key, key⟩, ⟨21000⟩⟩

def dueTime : Instant := ⟨1000000000, by decide, by decide⟩

theorem dueRecord_isReady (key : ValidatorKey) :
    (dueRecord key).isReady? dueTime (.ofSecs 1) = some true :=
  (MinipoolRecord.isReady?_eq_some_iff (e := dueTime) (Instant.add?_eq_some_iff.2 rfl)).2
    (decide_eq_true ⟨rfl, Int.le_refl _⟩).symm

theorem dueView_eligible (key : ValidatorKey) :
    Eligible (dueView key) dueTime [dueRecord key] := by
  have htime : Instant.ofSecs? 1 = some dueTime := Instant.ofNanos?_eq_some_iff.2 (by decide)
  refine ⟨htime, ?_⟩
  show stakeCandidates? dueTime (.ofSecs 1) [dueRecord key] = _
  rw [stakeCandidates?, dueRecord_isReady]
  rfl

theorem dueView_reviewed (key : ValidatorKey) :
    reviewEvents? dueTime (.ofSecs 1) [dueRecord key] = some [] := by
  have h : (dueRecord key).status = .prelaunch := rfl
  rw [reviewEvents?, if_pos h, dueRecord_isReady]
  rfl

/-- A view of the minipool, with any launch timeout in seconds. -/
theorem due_viewed (key : ValidatorKey) (timeout : UInt64) :
    (eagerTask.runner.run stakeQuery).Runs
      (singleQuery eagerTask.runner (dueView key).header (dueView key).transactor 1 timeout .zero
        (dueRecord key) 0)
      (.done (.ok (.ready
        { dueView key with settings := ⟨.ofSecs 1, .ofSecs timeout, .zero⟩ }))) :=
  have htime : Instant.ofSecs? 0 = some (dueRecord key).statusTime :=
    Instant.ofNanos?_eq_some_iff.2 rfl
  stakeQuery_single (dueView key).header (dueView key).transactor 1 timeout .zero rfl htime rfl

/-- A run of a task with a policy that chooses the minipool. -/
theorem due_runs {key : ValidatorKey} {config : BeaconConfig} {batch : List StakeEntry}
    {fees : FeeSettings} (gas : GasEstimate) (timeout : UInt64) (policy : StakePolicy)
    (estimate : FeeEstimate) (hashes : List Root)
    (checked : SignedStake.Checked ⟨dueRecord key, key⟩ (depositDomain config.genesisFork))
    (hc : policy.choice (.ofSecs timeout) [PreparedStake.sentEntry ⟨⟨dueRecord key, key⟩, gas⟩
      (depositDomain config.genesisFork) dueTime] estimate = some (batch, fees)) :
    let task : StakeTask := { eagerTask with policy := policy }
    let stake : PreparedStake := ⟨⟨dueRecord key, key⟩, gas⟩
    let domain := depositDomain config.genesisFork
    ∃ rest, (run ⟨(dueView key).header, ⟨.ofSecs 1, .ofSecs timeout, .zero⟩, Bytes.zero 20, 1,
        [dueRecord key]⟩).Runs task
          (singleQuery eagerTask.runner (dueView key).header (dueView key).transactor 1 timeout
            .zero (dueRecord key) 0 ++ rest)
          (.done (.ok (), { task with knownDomain := some domain })) ∧
      calls rest = [.asked .beaconConfig (.ok config), stake.loading,
        stake.simulation (dueView key).transactor domain, .asked .feeEstimate (.ok estimate),
        .asked (.submit (dueView key).transactor (batch.map (·.tx)) fees) (.ok hashes),
        .asked (.wait hashes) (.ok ())] := by
  intro task stake domain
  let view : StakeView := { dueView key with settings := ⟨.ofSecs 1, .ofSecs timeout, .zero⟩ }
  have eligible : Eligible view dueTime ([stake].map (·.record)) :=
    ⟨(dueView_eligible key).time, (dueView_eligible key).ready⟩
  have signed : ∀ s ∈ [stake], s.Checked domain := by
    intro s hs
    cases List.mem_singleton.1 hs
    exact checked
  have known : DomainKnown task [.asked .beaconConfig (.ok config)] domain := .asked config rfl
  let snapshot : NetworkSnapshot :=
    ⟨view.header, view.settings, Bytes.zero 20, 1, view.validators⟩
  have hsnapshot : snapshot.prelaunch.isEmpty = false := rfl
  have viewing : (task.runner.run stakeQuery).Runs _ (.done (.ok (.ready view))) :=
    due_viewed key timeout
  exact run_delivers hashes hsnapshot viewing eligible (List.cons_ne_nil _ _)
    (dueView_reviewed key) known signed hc

theorem due_delivered {key : ValidatorKey} {config : BeaconConfig}
    (checked : (duePrepared key).Checked (depositDomain config.genesisFork)) :
    ∃ before after, (run (dueSnapshot key)).Runs eagerTask
      (before ++ .asked (.submit (dueView key).transactor
        [(duePrepared key).transaction (depositDomain config.genesisFork) (some 21000)] ⟨30, 2⟩)
          (.ok [Bytes.zero 32]) :: after)
      (.done (.ok (),
        { eagerTask with knownDomain := some (depositDomain config.genesisFork) })) := by
  obtain ⟨rest, ran, hcalls⟩ :=
    due_runs ⟨21000⟩ 10 eagerTask.policy ⟨30, 2⟩ [Bytes.zero 32] checked rfl
  obtain ⟨before, after, rfl, _, _⟩ := calls_eq_append_cons (show calls rest =
    [.asked .beaconConfig (.ok config), (duePrepared key).loading,
      (duePrepared key).simulation (dueView key).transactor (depositDomain config.genesisFork),
      .asked .feeEstimate (.ok ⟨30, 2⟩)] ++ _ :: _ from hcalls)
  rw [← List.append_assoc] at ran
  exact ⟨_, after, ran⟩

/-- The key of the number one, whose deposit is checked by evaluation. -/
def firstKey : ValidatorKey := ⟨1, by decide, by decide⟩

set_option maxRecDepth 10000000 in
theorem firstKey_checked : (duePrepared firstKey).Checked (depositDomain (Bytes.zero 4)) :=
  ⟨rfl, by decide +kernel⟩

theorem firstKey_pubkey_ne : firstKey.pubkey ≠ Bytes.zero 48 := by decide +kernel

end

end StakeTask

end StakeKeeper
