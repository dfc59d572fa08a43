import StakeKeeper.Proofs.Stake.Broadcast

/-!
Which stakes are sent, and at what fees. Main statements: `StakePolicy.choice_eq` (a policy chooses
all entries or those that have waited too long) and `StakeTask.run_sends_selected` (a run that has
prepared its stakes and knows the price of gas sends exactly the chosen ones).
-/
namespace StakeKeeper
set_option autoImplicit false

/-! ## The choice of a policy -/

theorem selectEntries_forced (timeout : Duration) (percent : UInt32) (entries : List StakeEntry) :
    selectEntries entries (forcedFrom timeout percent 0 (entries.map (·.waited))) =
      entries.filter fun e => mustForce e.waited timeout percent := by
  have hindex : ∀ e ∈ entries.zipIdx,
      (forcedFrom timeout percent 0 (entries.map (·.waited))).contains e.2 =
        mustForce e.1.waited timeout percent := by
    intro e he
    have hentry : (entries.map (·.waited))[e.2]? = some e.1.waited := by
      rw [List.getElem?_map, List.mem_zipIdx_iff_getElem?.1 he]
      rfl
    rw [Bool.eq_iff_iff, List.contains_iff_mem, mem_forcedFrom_iff, hentry]
    exact ⟨fun ⟨_, hwait, forced⟩ => Option.some.inj hwait ▸ forced, fun forced => ⟨_, rfl, forced⟩⟩
  have hfirst := List.filter_map (f := Prod.fst) (l := entries.zipIdx)
    (p := fun e => mustForce e.waited timeout percent)
  rw [List.zipIdx_map_fst] at hfirst
  rw [selectEntries, List.filter_congr hindex, hfirst]
  rfl

/-- The choice of a policy, with the overdue entries selected by what they are and not by their
indices. -/
theorem StakePolicy.choice_eq (policy : StakePolicy) (timeout : Duration)
    (entries : List StakeEntry) (estimate : FeeEstimate) :
    policy.choice timeout entries estimate =
      if policy.gasThreshold = 0 ∨ estimate.maxFee < policy.gasThreshold then
        some (entries, policy.normalFees estimate)
      else
        let forced := entries.filter fun e => mustForce e.waited timeout policy.forcePercent
        if forced.isEmpty then none else some (forced, policy.forcedFees estimate) := by
  have hforced := selectEntries_forced timeout policy.forcePercent entries
  unfold choice submissionDecision
  by_cases hcheap : policy.gasThreshold = 0 ∨ estimate.maxFee < policy.gasThreshold
  · rw [if_pos hcheap, if_pos hcheap]
  rw [if_neg hcheap, if_neg hcheap]
  dsimp only
  rw [← hforced]
  cases hindices : forcedFrom timeout policy.forcePercent 0 (entries.map (·.waited)) with
  | nil =>
    have hnone : selectEntries entries [] = [] := by simp [selectEntries]
    rw [hnone]
    rfl
  | cons i rest =>
    have hi : i ∈ forcedFrom timeout policy.forcePercent 0 (entries.map (·.waited)) := by
      rw [hindices]
      exact List.mem_cons_self
    have hsome : (selectEntries entries (i :: rest)).isEmpty = false := by
      obtain ⟨_, hwait, _⟩ := mem_forcedFrom_iff.1 hi
      rw [List.getElem?_map] at hwait
      obtain ⟨e, he, _⟩ := Option.map_eq_some_iff.1 hwait
      have hmem : e ∈ selectEntries entries (i :: rest) := by
        refine List.mem_map.2 ⟨(e, i), List.mem_filter.2 ⟨?_, ?_⟩, rfl⟩
        · exact List.mem_zipIdx_iff_getElem?.2 he
        · exact List.contains_iff_mem.2 List.mem_cons_self
      exact List.isEmpty_eq_false_iff_exists_mem.2 ⟨e, hmem⟩
    rw [hsome, if_neg Bool.false_ne_true]

/-- Whether gas is cheap enough for stakes that are not urgent. -/
def StakePolicy.Affords (policy : StakePolicy) (estimate : FeeEstimate) : Prop :=
  policy.gasThreshold = 0 ∨ estimate.maxFee < policy.gasThreshold

instance (policy : StakePolicy) (estimate : FeeEstimate) : Decidable (policy.Affords estimate) :=
  inferInstanceAs (Decidable (_ ∨ _))

/-- Whether a minipool has had its status for more than a share of the launch timeout. -/
def MinipoolRecord.Overdue (r : MinipoolRecord) (now : Instant) (timeout : Duration)
    (percent : UInt32) : Prop :=
  percent.toNat * timeout.nanos < 100 * (r.timeInStatus now).nanos

instance (r : MinipoolRecord) (now : Instant) (timeout : Duration) (percent : UInt32) :
    Decidable (r.Overdue now timeout percent) := inferInstanceAs (Decidable (_ < _))

namespace StakeBatch
variable (batch : StakeBatch) (policy : StakePolicy)

/-- The stakes that a policy sends: all of them, or where gas is too expensive those whose own
minipool is overdue. -/
def selected : List PreparedStake :=
  if policy.Affords batch.estimate then batch.stakes
  else batch.stakes.filter fun s =>
    s.record.Overdue batch.now batch.view.settings.launchTimeout policy.forcePercent

def fees : FeeSettings where
  maxFee :=
    if policy.Affords batch.estimate ∧ policy.maxFee ≠ 0 then policy.maxFee
    else batch.estimate.maxFee
  priorityFee := policy.priorityFee

theorem choice_selected (some_stake : batch.stakes ≠ []) :
    policy.choice batch.view.settings.launchTimeout
        (batch.stakes.map (·.sentEntry batch.domain batch.now)) batch.estimate =
      if batch.selected policy = [] then none
      else some ((batch.selected policy).map (·.sentEntry batch.domain batch.now),
        batch.fees policy) := by
  rw [StakePolicy.choice_eq]
  by_cases cheap : policy.Affords batch.estimate
  · have hfees : policy.normalFees batch.estimate = batch.fees policy := by
      unfold StakePolicy.normalFees fees
      by_cases hmax : policy.maxFee = 0
      · simp [hmax]
      · simp [hmax, cheap]
    have hselected : batch.selected policy = batch.stakes := if_pos cheap
    rw [if_pos (show policy.gasThreshold = 0 ∨ _ from cheap), hselected, if_neg some_stake, hfees]
  · have hfees : policy.forcedFees batch.estimate = batch.fees policy := by
      unfold StakePolicy.forcedFees fees
      simp [cheap]
    have hforced : (batch.stakes.map (·.sentEntry batch.domain batch.now)).filter (fun e =>
        mustForce e.waited batch.view.settings.launchTimeout policy.forcePercent) =
          (batch.selected policy).map (·.sentEntry batch.domain batch.now) := by
      rw [selected, if_neg cheap, List.filter_map]
      refine congrArg _ (List.filter_congr fun s _ => ?_)
      exact Bool.eq_iff_iff.2 (mustForce_iff.trans decide_eq_true_iff.symm)
    rw [if_neg (show ¬(policy.gasThreshold = 0 ∨ _) from cheap)]
    dsimp only
    rw [hforced, hfees]
    cases batch.selected policy with
    | nil => rfl
    | cons s rest => rfl

end StakeBatch

/-! ## What a run sends -/

namespace StakeTask

/-- The calls after the estimate of the fees, and what they come to. -/
structure Priced (policy : StakePolicy) (view : StakeView) (entries : List StakeEntry)
    (estimate : FeeEstimate) (more : List Step) (result : Except TaskError Unit) : Prop where
  postponed : policy.choice view.settings.launchTimeout entries estimate = none →
    more = [] ∧ result = .ok ()
  sent : ∀ batch fees,
    policy.choice view.settings.launchTimeout entries estimate = some (batch, fees) →
      ∃ answer waiting, more = .asked (.submit view.transactor (batch.map (·.tx)) fees) answer ::
        waiting ∧ Awaited answer waiting

theorem Sending.priced {policy : StakePolicy} {view : StakeView} {entries : List StakeEntry}
    {steps : List Step} {result : Except TaskError Unit} {estimate : FeeEstimate}
    (sending : Sending policy view entries steps result)
    (h : .asked .feeEstimate (.ok estimate) ∈ steps) :
    ∃ more, steps = .asked .feeEstimate (.ok estimate) :: more ∧
      Priced policy view entries estimate more result := by
  have first {found : FeeEstimate} {more : List Step}
      (hmore : ∀ q answer, .asked q answer ∈ more → q.isEstimate = false)
      (h : .asked .feeEstimate (.ok estimate) ∈ Step.asked .feeEstimate (.ok found) :: more) :
      estimate = found := by
    rcases List.mem_cons.1 h with h | h
    · cases h
      rfl
    · cases hmore _ _ h
  cases sending with
  | unpriced e => cases List.mem_singleton.1 h
  | postponed hc =>
    obtain rfl := first (fun _ _ h => by cases h) h
    refine ⟨[], rfl, fun _ => ⟨rfl, rfl⟩, fun batch fees hsome => ?_⟩
    rw [hc] at hsome
    cases hsome
  | refused e hc =>
    obtain rfl := first (fun _ _ h => by cases List.mem_singleton.1 h; rfl) h
    refine ⟨_, rfl, fun hnone => ?_, fun batch fees hsome => ?_⟩
    · rw [hc] at hnone
      cases hnone
    · rw [hc] at hsome
      cases hsome
      exact ⟨_, _, rfl, .refused e⟩
  | sent hashes answer hc =>
    obtain rfl := first (fun _ _ h => by
      rcases List.mem_cons.1 h with h | h
      · cases h
        rfl
      · cases List.mem_singleton.1 h
        rfl) h
    refine ⟨_, rfl, fun hnone => ?_, fun batch fees hsome => ?_⟩
    · rw [hc] at hnone
      cases hnone
    · rw [hc] at hsome
      cases hsome
      exact ⟨_, _, rfl, .taken hashes answer⟩

theorem Priced.isSending {policy : StakePolicy} {view : StakeView} {entries : List StakeEntry}
    {estimate : FeeEstimate} {more : List Step} {result : Except TaskError Unit}
    (priced : Priced policy view entries estimate more result) (q : Request)
    (answer : Except CallError q.Reply) (hq : .asked q answer ∈ more) : q.isSending = true := by
  cases hc : policy.choice view.settings.launchTimeout entries estimate with
  | none =>
    rw [(priced.postponed hc).1] at hq
    cases hq
  | some chosen =>
    obtain ⟨answer', waiting, hmore, awaited⟩ := priced.sent chosen.1 chosen.2 hc
    exact awaited.isSending (hmore ▸ hq)

theorem Staking.priced {policy : StakePolicy} {view : StakeView} {domain : Root} {now : Instant}
    {records : List MinipoolRecord} {steps : List Step} {result : Except TaskError Unit}
    {estimate : FeeEstimate} (staking : Staking policy view domain now records steps result)
    (h : .asked .feeEstimate (.ok estimate) ∈ steps) :
    ∃ (prepared : List PreparedStake) (more : List Step),
      (∀ s ∈ prepared, s.Checked domain) ∧ records = prepared.map (·.record) ∧
        steps = prepared.map (·.loading) ++ (prepared.map (·.simulation view.transactor domain) ++
          .asked .feeEstimate (.ok estimate) :: more) ∧
          Priced policy view (prepared.map (·.sentEntry domain now)) estimate more result := by
  have unasked {steps : List Step} (hnone : callsOf Request.isEstimate steps = [])
      (h : .asked .feeEstimate (.ok estimate) ∈ steps) : False := by
    have hkind : Request.isEstimate .feeEstimate = false := callsOf_eq_nil_iff.1 hnone _ h
    cases hkind
  cases staking with
  | unsigned checked hr ha =>
    refine (unasked ?_ h).elim
    rw [callsOf_append, callsOf_map_of_neg (f := SignedStake.loading) fun _ => rfl]
    rfl
  | unsimulated error e checked hr =>
    refine (unasked ?_ h).elim
    rw [callsOf_append, callsOf_append, callsOf_map_of_neg (f := SignedStake.loading) fun _ => rfl,
      callsOf_map_of_neg (f := (PreparedStake.simulation · view.transactor domain)) fun _ => rfl]
    rfl
  | @simulated prepared steps result checked hr sending =>
    have hsteps : .asked .feeEstimate (.ok estimate) ∈ steps := by
      rcases List.mem_append.1 h with h | h
      · obtain ⟨_, _, h⟩ := List.mem_map.1 h
        cases h
      rcases List.mem_append.1 h with h | h
      · obtain ⟨_, _, h⟩ := List.mem_map.1 h
        cases h
      · exact h
    obtain ⟨more, rfl, priced⟩ := sending.priced hsteps
    exact ⟨prepared, more, checked, hr, rfl, priced⟩

/-- What a run sends, told from a batch that was prepared for it. -/
structure SendsSelected (task : StakeTask) (batch : StakeBatch) (history : List Step)
    (ending : Ending (Except TaskError Unit × StakeTask)) : Prop where
  /-- The stakes are those of all eligible records, and there are some. -/
  some_stake : batch.stakes ≠ []
  sent : batch.selected task.policy ≠ [] →
    ∃ answer, callsOf Request.isSubmission history =
      [.asked (.submit batch.view.transactor
        ((batch.selected task.policy).map (·.sent batch.domain)) (batch.fees task.policy)) answer]
  postponed : batch.selected task.policy = [] →
    callsOf Request.isSubmission history = [] ∧ ∃ next, ending = .done (.ok (), next)

/-- What has happened in a run whose fees were estimated, by the steps after its query and the calls
after the estimate. -/
structure Estimated (task : StakeTask) (batch : StakeBatch) (rest more : List Step)
    (ending : Ending (Except TaskError Unit × StakeTask)) : Prop where
  viewed : (task.runner.run stakeQuery).Runs batch.query (.done (.ok (.ready batch.view)))
  known : DomainKnown task batch.asking batch.domain
  eligible : Eligible batch.view batch.now (batch.stakes.map (·.record))
  checked : ∀ s ∈ batch.stakes, s.Checked batch.domain
  some_stake : batch.stakes ≠ []
  steps : calls rest = batch.asking ++ (batch.stakes.map (·.loading) ++
    (batch.simulations ++ .asked .feeEstimate (.ok batch.estimate) :: more))
  priced : ∃ result next, ending = .done (result, next) ∧
    Priced task.policy batch.view (batch.stakes.map (·.sentEntry batch.domain batch.now))
      batch.estimate more result

theorem Course.estimated {task : StakeTask} {history : List Step} {estimate : FeeEstimate}
    {ending : Ending (Except TaskError Unit × StakeTask)} (course : Course task history ending)
    (asked : .asked .feeEstimate (.ok estimate) ∈ history) :
    ∃ (batch : StakeBatch) (rest more : List Step), history = batch.query ++ rest ∧
      batch.estimate = estimate ∧ Estimated task batch rest more ending := by
  cases course with
  | unviewed reads kept => cases reads _ _ asked
  | @viewed query rest view _ viewing viewed =>
    have going : .asked .feeEstimate (.ok estimate) ∈ calls rest := by
      rcases List.mem_append.1 asked with h | h
      · cases stakeQuery_reads viewing _ _ h
      · exact List.mem_filter.2 ⟨h, rfl⟩
    generalize hsteps : calls rest = steps at viewed going
    cases viewed with
    | crashed c => cases going
    | idle h => cases going
    | unknown e h hne hk => cases List.mem_singleton.1 going
    | @staked now records domain asking steps result eligible hne known staking =>
      have hstaking : .asked .feeEstimate (.ok estimate) ∈ steps := by
        rcases List.mem_append.1 going with h | h
        · cases known with
          | kept => cases h
          | asked config => cases List.mem_singleton.1 h
        · exact h
      obtain ⟨stakes, more, checked, rfl, rfl, priced⟩ := staking.priced hstaking
      refine ⟨⟨query, view, now, asking, domain, stakes, estimate⟩, rest, more, rfl, rfl, viewing,
        known, eligible, checked, ?_, hsteps, _, _, rfl, priced⟩
      rintro rfl
      exact hne rfl

namespace Estimated
variable {task : StakeTask} {batch : StakeBatch} {rest more : List Step}
  {ending : Ending (Except TaskError Unit × StakeTask)}

/-- The fees are estimated once, and before that the batch has been prepared. -/
theorem prepared (h : Estimated task batch rest more ending) {before after : List Step}
    (split : batch.query ++ rest = before ++ .asked .feeEstimate (.ok batch.estimate) :: after) :
    batch.PreparedIn task (before ++ [.asked .feeEstimate (.ok batch.estimate)]) := by
  obtain ⟨_, _, _, priced⟩ := h.priced
  have estimated : callsOf Request.isEstimate more = [] :=
    callsOf_eq_nil_of_calls fun q answer hq =>
      (Request.preparesNothing_of_isSending (priced.isSending q answer hq)).estimate
  have steps : calls rest = batch.asking ++ (batch.stakes.map (·.loading) ++ batch.simulations) ++
      .asked .feeEstimate (.ok batch.estimate) :: more := by
    simp only [List.append_assoc]
    exact h.steps
  obtain ⟨first, last, rfl, hfirst, rfl⟩ := calls_eq_append_cons steps
  rw [callsOf_calls] at estimated
  have unestimated : callsOf Request.isEstimate (batch.query ++ first) = [] := by
    rw [← List.append_nil batch.simulations] at hfirst
    exact estimates_viewed h.viewed h.known hfirst
  have asks : (Step.asked .feeEstimate (.ok batch.estimate)).asks Request.isEstimate = true := rfl
  rw [← List.append_assoc] at split
  obtain ⟨rfl, _, _⟩ := split_unique asks unestimated estimated split.symm
  rw [List.append_assoc]
  refine preparedIn_of_calls h.viewed h.known h.eligible h.checked ?_
  rw [calls_append, hfirst]
  simp only [List.append_assoc]
  rfl

theorem submissions (h : Estimated task batch rest more ending) :
    callsOf Request.isSubmission (batch.query ++ rest) = callsOf Request.isSubmission more := by
  rw [submissions_viewed h.viewed h.known h.steps]
  rfl

theorem sends (h : Estimated task batch rest more ending) :
    SendsSelected task batch (batch.query ++ rest) ending := by
  obtain ⟨result, next, rfl, priced⟩ := h.priced
  have hchoice := batch.choice_selected task.policy h.some_stake
  refine ⟨h.some_stake, fun hsome => ?_, fun hnone => ?_⟩
  · rw [if_neg hsome] at hchoice
    obtain ⟨answer, waiting, rfl, awaited⟩ := priced.sent _ _ hchoice
    refine ⟨answer, h.submissions.trans ?_⟩
    rw [callsOf_cons, awaited.kinds.1, List.map_map]
    rfl
  · rw [if_pos hnone] at hchoice
    obtain ⟨rfl, rfl⟩ := priced.postponed hchoice
    exact ⟨h.submissions, next, rfl⟩

end Estimated

theorem run_priced {task : StakeTask} {snapshot : NetworkSnapshot} {before after : List Step}
    {estimate : FeeEstimate} {ending : Ending (Except TaskError Unit × StakeTask)}
    (ran : (run snapshot).Runs task (before ++ .asked .feeEstimate (.ok estimate) :: after)
      ending) :
    ∃ batch : StakeBatch, batch.PreparedIn task (before ++ [.asked .feeEstimate (.ok estimate)]) ∧
      batch.estimate = estimate ∧
        SendsSelected task batch (before ++ .asked .feeEstimate (.ok estimate) :: after)
          ending := by
  have asked : .asked .feeEstimate (.ok estimate) ∈
      before ++ .asked .feeEstimate (.ok estimate) :: after :=
    List.mem_append_right before List.mem_cons_self
  obtain ⟨batch, rest, more, split, rfl, estimated⟩ := (runs_course ran).estimated asked
  have sends := estimated.sends
  rw [← split] at sends
  exact ⟨batch, estimated.prepared split.symm, rfl, sends⟩

/-- What one run sends: once its fees are estimated the selected stakes, never an empty batch. -/
structure SelectsStakes (task : StakeTask) (history : List Step)
    (ending : Ending (Except TaskError Unit × StakeTask)) : Prop where
  selected : ∀ before estimate after,
    history = before ++ .asked .feeEstimate (.ok estimate) :: after →
      ∃ batch : StakeBatch,
        batch.PreparedIn task (before ++ [.asked .feeEstimate (.ok estimate)]) ∧
          batch.estimate = estimate ∧ SendsSelected task batch history ending
  never_empty : ∀ sender txs fees answer, .asked (.submit sender txs fees) answer ∈ history →
    txs ≠ [] ∧ fees.priorityFee = task.policy.priorityFee

/-- Once its fees are estimated a run sends what the policy selects: all stakes below the threshold
of the price, and else only the overdue ones, in order, at the fees of that case. Nothing is sent
when nothing is selected. -/
theorem run_sends_selected {task : StakeTask} {snapshot : NetworkSnapshot} {history : List Step}
    {ending : Ending (Except TaskError Unit × StakeTask)}
    (ran : (run snapshot).Runs task history ending) : SelectsStakes task history ending := by
  refine ⟨?_, fun sender txs fees answer submitted => ?_⟩
  · rintro before estimate after rfl
    exact run_priced ran
  obtain ⟨sent, waiting, rfl⟩ := List.append_of_mem submitted
  obtain ⟨batch, prepared, _, _, _⟩ := (run_broadcast ran).prepared
  -- The fees of a batch were estimated before, and so it is the selected one.
  obtain ⟨rest, rfl, hrest⟩ := prepared.steps
  have split : calls rest = batch.asking ++ (batch.stakes.map (·.loading) ++ batch.simulations) ++
      [.asked .feeEstimate (.ok batch.estimate)] := by
    rw [hrest, List.append_assoc, List.append_assoc]
  obtain ⟨before, after, rfl, _, _⟩ := calls_eq_append_cons split
  simp only [List.append_assoc, List.cons_append] at ran
  rw [← List.append_assoc] at ran
  obtain ⟨chosen, _, _, sends⟩ := run_priced ran
  have only : callsOf Request.isSubmission (batch.query ++ before ++
      .asked .feeEstimate (.ok batch.estimate) ::
        (after ++ .asked (.submit sender txs fees) answer :: waiting)) ≠ [] := fun hnone => by
    rw [← List.cons_append, ← List.append_assoc] at hnone
    cases not_asks_of_split hnone
  by_cases hselected : chosen.selected task.policy = []
  · exact absurd (sends.postponed hselected).1 only
  obtain ⟨answer', hsubmission⟩ := sends.sent hselected
  have hmem : Step.asked (.submit sender txs fees) answer ∈
      callsOf Request.isSubmission (batch.query ++ before ++
        .asked .feeEstimate (.ok batch.estimate) ::
          (after ++ .asked (.submit sender txs fees) answer :: waiting)) := by
    refine List.mem_filter.2 ⟨List.mem_append_right _ (List.mem_cons_of_mem _ ?_), rfl⟩
    exact List.mem_append_right _ List.mem_cons_self
  rw [hsubmission] at hmem
  cases List.mem_singleton.1 hmem
  exact ⟨fun hnone => hselected (List.map_eq_nil_iff.1 hnone), rfl⟩

/-- A task that sends at a price of less than ten, or after half a second. -/
def thriftyTask : StakeTask := { eagerTask with policy := ⟨5, 10, 7, 2⟩ }

/-- At a price of twenty a minipool is sent because it is overdue, and at that price. -/
theorem run_sends_selected_overdue : ∃ history ending,
    (run (dueSnapshot firstKey)).Runs thriftyTask history ending ∧
      (∃ sender txs answer, .asked (.submit sender txs ⟨20, 2⟩) answer ∈ history) ∧
        SelectsStakes thriftyTask history ending := by
  let config : BeaconConfig := ⟨0, 12, 32, Bytes.zero 4⟩
  have checked : (duePrepared firstKey).Checked (depositDomain config.genesisFork) :=
    firstKey_checked
  obtain ⟨rest, ran, hcalls⟩ :=
    due_runs ⟨21000⟩ 10 thriftyTask.policy ⟨20, 1⟩ [Bytes.zero 32] checked rfl
  let stake := (duePrepared firstKey).sentEntry (depositDomain (Bytes.zero 4)) dueTime
  have sent : .asked (.submit (dueView firstKey).transactor [stake.tx] ⟨20, 2⟩)
      (.ok [Bytes.zero 32]) ∈ calls rest := by
    rw [hcalls]
    exact List.mem_append_right [_, _, _, _] List.mem_cons_self
  exact ⟨_, _, ran, ⟨_, _, _, List.mem_append_right _ (mem_of_mem_calls sent)⟩,
    run_sends_selected ran⟩

end StakeTask

end StakeKeeper
