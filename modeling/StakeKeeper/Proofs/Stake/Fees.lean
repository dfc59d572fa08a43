import StakeKeeper.Config
import StakeKeeper.Proofs.Stake.Selection

/-!
The fees of batches. Fees can be paid if the priority fee is within the fee cap. Main statements:
`StakeTask.run_fees` (a batch has the fees of the task's policy at the estimated price),
`StakePolicy.covered_iff` (the policies whose fees can be paid at every price) and
`StakeTask.fees_payable` (the policies whose batches can all be paid).
-/
namespace StakeKeeper
set_option autoImplicit false

/-! ## Fees of a policy -/

/-- Whether the priority fee is within the fee cap. -/
def FeeSettings.Payable (fees : FeeSettings) : Prop := fees.priorityFee ≤ fees.maxFee

instance (fees : FeeSettings) : Decidable fees.Payable := inferInstanceAs (Decidable (_ ≤ _))

def FeeEstimate.Payable (estimate : FeeEstimate) : Prop := estimate.priorityFee ≤ estimate.maxFee

namespace StakePolicy

def fees (policy : StakePolicy) (estimate : FeeEstimate) : FeeSettings :=
  if policy.Affords estimate then policy.normalFees estimate else policy.forcedFees estimate

/-- Whether a policy has no priority fee, or its own fee cap holds that fee and so does each price
at which the own cap no longer counts. -/
def Covered (policy : StakePolicy) : Prop :=
  policy.priorityFee = 0 ∨
    (policy.maxFee ≠ 0 ∧ policy.priorityFee ≤ policy.maxFee) ∧
      (policy.gasThreshold = 0 ∨ policy.priorityFee ≤ policy.gasThreshold)

instance (policy : StakePolicy) : Decidable policy.Covered := inferInstanceAs (Decidable (_ ∨ _))

section
variable {policy : StakePolicy} {estimate : FeeEstimate}

theorem priorityFee_fees : (policy.fees estimate).priorityFee = policy.priorityFee := by
  unfold fees
  split <;> rfl

theorem maxFee_fees_normal (cheap : policy.Affords estimate) (own : policy.maxFee ≠ 0) :
    (policy.fees estimate).maxFee = policy.maxFee := by
  rw [fees, if_pos cheap, normalFees, if_neg own]

theorem maxFee_fees_estimated (h : ¬ policy.Affords estimate ∨ policy.maxFee = 0) :
    (policy.fees estimate).maxFee = estimate.maxFee := by
  unfold fees
  split
  · next cheap => rw [normalFees, if_pos (h.resolve_left (not_not_intro cheap))]
  · rfl

theorem choice_fees {timeout : Duration} {entries batch : List StakeEntry} {fees : FeeSettings}
    (h : policy.choice timeout entries estimate = some (batch, fees)) :
    fees = policy.fees estimate := by
  rw [choice_eq] at h
  by_cases cheap : policy.Affords estimate
  · rw [if_pos (show policy.gasThreshold = 0 ∨ _ from cheap)] at h
    cases h
    rw [StakePolicy.fees, if_pos cheap]
  · rw [if_neg (show ¬ (policy.gasThreshold = 0 ∨ _) from cheap)] at h
    dsimp only at h
    split at h
    · cases h
    · cases h
      rw [StakePolicy.fees, if_neg cheap]

theorem Covered.payable (h : policy.Covered) (estimate : FeeEstimate) :
    (policy.fees estimate).Payable := by
  unfold FeeSettings.Payable
  rw [priorityFee_fees]
  rcases h with free | ⟨⟨own, within⟩, threshold⟩
  · rw [free]
    exact UInt64.zero_le
  by_cases cheap : policy.Affords estimate
  · rw [maxFee_fees_normal cheap own]
    exact within
  · rw [maxFee_fees_estimated (.inl cheap)]
    obtain ⟨on, reached⟩ := not_or.1 cheap
    exact UInt64.le_trans (threshold.resolve_left on) (UInt64.not_lt.1 reached)

/-- A policy that is not covered asks too much at no price at all, or at its own threshold. -/
theorem unpayable_of_not_covered (h : ¬ policy.Covered) :
    ∃ price, ¬ (policy.fees ⟨price, 0⟩).Payable := by
  have free : policy.Affords ⟨0, 0⟩ := by
    by_cases off : policy.gasThreshold = 0
    · exact .inl off
    · exact .inr (UInt64.pos_iff_ne_zero.2 off)
  obtain ⟨asks, uncapped⟩ := not_or.1 h
  by_cases own : policy.maxFee = 0
  · refine ⟨0, fun payable => asks (UInt64.le_zero_iff.1 ?_)⟩
    rw [FeeSettings.Payable, priorityFee_fees, maxFee_fees_estimated (.inr own)] at payable
    exact payable
  by_cases within : policy.priorityFee ≤ policy.maxFee
  · obtain ⟨on, above⟩ := not_or.1 fun threshold => uncapped ⟨⟨own, within⟩, threshold⟩
    have dear : ¬ policy.Affords ⟨policy.gasThreshold, 0⟩ := not_or.2 ⟨on, UInt64.lt_irrefl _⟩
    refine ⟨policy.gasThreshold, fun payable => above ?_⟩
    rw [FeeSettings.Payable, priorityFee_fees, maxFee_fees_estimated (.inl dear)] at payable
    exact payable
  · refine ⟨0, fun payable => within ?_⟩
    rw [FeeSettings.Payable, priorityFee_fees, maxFee_fees_normal free own] at payable
    exact payable

/-- The policies whose fees can be paid at every price that can be paid are the covered ones. -/
theorem covered_iff :
    policy.Covered ↔ ∀ estimate, estimate.Payable → (policy.fees estimate).Payable := by
  refine ⟨fun h estimate _ => h.payable estimate, fun h => Classical.byContradiction fun hn => ?_⟩
  obtain ⟨price, unpayable⟩ := unpayable_of_not_covered hn
  exact unpayable (h ⟨price, 0⟩ UInt64.zero_le)

end

end StakePolicy

/-! ## Fees of a run -/

namespace StakeTask

section
variable {sender : Transactor} {txs : List TransactionRequest} {fees : FeeSettings}
  {answer : Except CallError (List Root)} {steps : List Step} {result : Except TaskError Unit}

theorem Sending.at_fees {policy : StakePolicy} {view : StakeView} {entries : List StakeEntry}
    (sending : Sending policy view entries steps result)
    (submitted : .asked (.submit sender txs fees) answer ∈ steps) :
    ∃ estimate, .asked .feeEstimate (.ok estimate) ∈ steps ∧ fees = policy.fees estimate := by
  cases sending with
  | unpriced e => cases List.mem_singleton.1 submitted
  | postponed hc => cases List.mem_singleton.1 submitted
  | refused e hc =>
    rcases List.mem_cons.1 submitted with h | h
    · cases h
    · cases List.mem_singleton.1 h
      exact ⟨_, List.mem_cons_self, StakePolicy.choice_fees hc⟩
  | sent hashes included hc =>
    rcases List.mem_cons.1 submitted with h | h
    · cases h
    rcases List.mem_cons.1 h with h | h
    · cases h
      exact ⟨_, List.mem_cons_self, StakePolicy.choice_fees hc⟩
    · cases List.mem_singleton.1 h

theorem Staking.at_fees {policy : StakePolicy} {view : StakeView} {domain : Root} {now : Instant}
    {records : List MinipoolRecord}
    (staking : Staking policy view domain now records steps result)
    (submitted : .asked (.submit sender txs fees) answer ∈ steps) :
    ∃ estimate, .asked .feeEstimate (.ok estimate) ∈ steps ∧ fees = policy.fees estimate := by
  have asked : .asked (.submit sender txs fees) answer ∈ callsOf Request.isSubmission steps :=
    List.mem_filter.2 ⟨submitted, rfl⟩
  cases staking with
  | unsigned checked hr ha =>
    rw [callsOf_append, callsOf_map_of_neg (f := SignedStake.loading) fun _ => rfl] at asked
    cases asked
  | unsimulated error e checked hr =>
    rw [callsOf_append, callsOf_append, callsOf_map_of_neg (f := SignedStake.loading) fun _ => rfl,
      callsOf_map_of_neg (f := (PreparedStake.simulation · view.transactor domain))
        fun _ => rfl] at asked
    cases asked
  | simulated checked hr sending =>
    rw [others_of_prepared _ _ _ _ (fun _ => rfl) fun _ => rfl] at asked
    obtain ⟨estimate, estimated, hfees⟩ := sending.at_fees (List.mem_filter.1 asked).1
    exact ⟨estimate, List.mem_append_right _ (List.mem_append_right _ estimated), hfees⟩

end

/-- A batch has the fees that the policy has at a price that the run was answered. -/
theorem run_fees {task : StakeTask} {snapshot : NetworkSnapshot} {history : List Step}
    {ending : Ending (Except TaskError Unit × StakeTask)}
    (ran : (run snapshot).Runs task history ending) {sender : Transactor}
    {txs : List TransactionRequest} {fees : FeeSettings} {answer : Except CallError (List Root)}
    (submitted : .asked (.submit sender txs fees) answer ∈ history) :
    ∃ estimate, .asked .feeEstimate (.ok estimate) ∈ history ∧
      fees = task.policy.fees estimate := by
  cases runs_course ran with
  | unviewed reads kept => cases reads _ _ submitted
  | @viewed query rest view _ viewing viewed =>
    have going : .asked (.submit sender txs fees) answer ∈ calls rest := by
      rcases List.mem_append.1 submitted with h | h
      · cases stakeQuery_reads viewing _ _ h
      · exact List.mem_filter.2 ⟨h, rfl⟩
    suffices h : ∃ estimate, .asked .feeEstimate (.ok estimate) ∈ calls rest ∧
        fees = task.policy.fees estimate by
      obtain ⟨estimate, asked, hfees⟩ := h
      exact ⟨estimate, List.mem_append_right _ (List.mem_filter.1 asked).1, hfees⟩
    generalize calls rest = steps at viewed going
    cases viewed with
    | crashed c => cases going
    | idle eligible => cases going
    | unknown e eligible hne hk => cases List.mem_singleton.1 going
    | @staked now records domain asking steps result eligible hne known staking =>
      have hstaking : .asked (.submit sender txs fees) answer ∈ steps := by
        refine (List.mem_append.1 going).resolve_left fun h => ?_
        cases known with
        | kept hk => cases h
        | asked config hk => cases List.mem_singleton.1 h
      obtain ⟨estimate, asked, hfees⟩ := staking.at_fees hstaking
      exact ⟨estimate, List.mem_append_right _ asked, hfees⟩

/-! ## A minipool that is sent at any price -/

/-- A due minipool whose launch timeout has passed whatever share of it counts. -/
def pressingView : StakeView :=
  { dueView firstKey with settings := ⟨.ofSecs 1, .ofSecs 0, .zero⟩ }

def pressingEntry : StakeEntry :=
  (duePrepared firstKey).sentEntry (depositDomain (Bytes.zero 4)) dueTime

theorem pressing_choice (policy : StakePolicy) (estimate : FeeEstimate) :
    policy.choice pressingView.settings.launchTimeout [pressingEntry] estimate =
      some ([pressingEntry], policy.fees estimate) := by
  have forced : mustForce pressingEntry.waited pressingView.settings.launchTimeout
      policy.forcePercent = true := by
    rw [mustForce_iff]
    show policy.forcePercent.toNat * 0 < 100 * 1000000000
    omega
  rw [StakePolicy.choice_eq, StakePolicy.fees]
  by_cases cheap : policy.Affords estimate
  · rw [if_pos cheap, if_pos (show policy.gasThreshold = 0 ∨ _ from cheap)]
  · rw [if_neg cheap, if_neg (show ¬ (policy.gasThreshold = 0 ∨ _) from cheap)]
    simp [forced]

/-- One run of a task with any policy, in which the price of gas is estimated as given. -/
theorem pressing_runs (policy : StakePolicy) (estimate : FeeEstimate) :
    ∃ task snapshot history ending, task.policy = policy ∧
      (run snapshot).Runs task history ending ∧
        (∀ found, .asked .feeEstimate (.ok found) ∈ history → found = estimate) ∧
          ∃ sender txs answer,
            .asked (.submit sender txs (policy.fees estimate)) answer ∈ history := by
  let config : BeaconConfig := ⟨0, 12, 32, Bytes.zero 4⟩
  have checked : (duePrepared firstKey).Checked (depositDomain config.genesisFork) :=
    firstKey_checked
  obtain ⟨rest, ran, hcalls⟩ := due_runs ⟨21000⟩ 0 policy estimate [Bytes.zero 32] checked
    (pressing_choice policy estimate)
  have viewing := due_viewed firstKey 0
  generalize singleQuery eagerTask.runner _ _ 1 0 .zero _ 0 = query at ran viewing
  have estimated : callsOf Request.isEstimate (query ++ rest) =
      [.asked .feeEstimate (.ok estimate)] := by
    rw [callsOf_queried (fun _ h => (Request.preparesNothing_of_isRead h).estimate) viewing, hcalls]
    rfl
  have sent : .asked (.submit pressingView.transactor [pressingEntry.tx] (policy.fees estimate))
      (.ok [Bytes.zero 32]) ∈ calls rest := by
    rw [hcalls]
    exact List.mem_append_right [_, _, _, _] List.mem_cons_self
  refine ⟨_, _, query ++ rest, _, rfl, ran, fun found asked => ?_,
    pressingView.transactor, [pressingEntry.tx], .ok [Bytes.zero 32],
    List.mem_append_right _ (mem_of_mem_calls sent)⟩
  have only : .asked .feeEstimate (.ok found) ∈ callsOf Request.isEstimate (query ++ rest) :=
    List.mem_filter.2 ⟨asked, rfl⟩
  rw [estimated] at only
  cases List.mem_singleton.1 only
  rfl

end StakeTask

/-! ## Which batches can be paid -/

/-- Whether all batches of all tasks with a policy can be paid, where the estimates can. -/
def StakePolicy.SendsPayable (policy : StakePolicy) : Prop :=
  ∀ (task : StakeTask) snapshot history ending, task.policy = policy →
    (StakeTask.run snapshot).Runs task history ending →
      (∀ estimate, .asked .feeEstimate (.ok estimate) ∈ history → estimate.Payable) →
        ∀ sender txs fees answer, .asked (.submit sender txs fees) answer ∈ history → fees.Payable

theorem StakePolicy.sendsPayable_iff {policy : StakePolicy} :
    policy.SendsPayable ↔ policy.Covered := by
  rw [covered_iff]
  constructor
  · intro sends estimate payable
    obtain ⟨task, snapshot, history, ending, hpolicy, ran, only, _, _, _, submitted⟩ :=
      StakeTask.pressing_runs policy estimate
    refine sends task snapshot history ending hpolicy ran (fun found asked => ?_) _ _ _ _ submitted
    rw [only found asked]
    exact payable
  · rintro pays task snapshot history ending rfl ran payable sender txs fees answer submitted
    obtain ⟨estimate, asked, rfl⟩ := StakeTask.run_fees ran submitted
    exact pays estimate (payable estimate asked)

/-- A policy sends only what can be paid if and only if it is covered, and what its tasks send has
its fees at the estimated price. -/
theorem StakeTask.fees_payable (policy : StakePolicy) :
    (policy.SendsPayable ↔ policy.Covered) ∧
      ∀ (task : StakeTask) snapshot history ending, task.policy = policy →
        (run snapshot).Runs task history ending →
          ∀ sender txs fees answer, .asked (.submit sender txs fees) answer ∈ history →
            ∃ estimate, .asked .feeEstimate (.ok estimate) ∈ history ∧
              fees = policy.fees estimate := by
  refine ⟨StakePolicy.sendsPayable_iff, ?_⟩
  rintro task snapshot history ending rfl ran sender txs fees answer submitted
  exact run_fees ran submitted

/-- With a fee cap of its own a policy pays for a batch at a price of twenty. -/
theorem StakeTask.fees_payable_covered :
    let policy : StakePolicy := ⟨5, 10, 7, 2⟩
    policy.Covered ∧ ∃ (task : StakeTask) (snapshot : NetworkSnapshot) (history : List Step)
      (ending : Ending (Except TaskError Unit × StakeTask)), task.policy = policy ∧
        (run snapshot).Runs task history ending ∧
          ∃ sender txs fees answer, .asked (.submit sender txs fees) answer ∈ history ∧
            fees = policy.fees ⟨20, 1⟩ ∧ fees.Payable := by
  intro policy
  have covered : policy.Covered := by decide
  obtain ⟨task, snapshot, history, ending, hpolicy, ran, only, sender, txs, answer, submitted⟩ :=
    pressing_runs policy ⟨20, 1⟩
  obtain ⟨sends_payable, has_fees⟩ := fees_payable policy
  obtain ⟨estimate, asked, hfees⟩ :=
    has_fees task snapshot history ending hpolicy ran _ _ _ _ submitted
  refine ⟨covered, task, snapshot, history, ending, hpolicy, ran, sender, txs, _, answer, submitted,
    ?_, ?_⟩
  · rw [hfees, only estimate asked]
  · refine sends_payable.2 covered task snapshot history ending hpolicy ran
      (fun found asked => ?_) _ _ _ _ submitted
    rw [only found asked]
    show (1 : UInt64) ≤ 20
    decide

/-- The settings without any variable are accepted, but at a price of one their priority fee of two
is more than the fee cap of a batch that is sent. -/
theorem StakeTask.fees_unpayable_default :
    Config.default.check = .ok () ∧
      ∃ (task : StakeTask) (snapshot : NetworkSnapshot) (history : List Step)
        (ending : Ending (Except TaskError Unit × StakeTask)),
        task.policy = Config.default.stakePolicy ∧ (run snapshot).Runs task history ending ∧
          (∀ estimate, .asked .feeEstimate (.ok estimate) ∈ history → estimate.Payable) ∧
            ∃ sender txs fees answer, .asked (.submit sender txs fees) answer ∈ history ∧
              fees = ⟨1, 2⟩ ∧ ¬ fees.Payable := by
  refine ⟨rfl, ?_⟩
  obtain ⟨task, snapshot, history, ending, hpolicy, ran, only, sender, txs, answer, submitted⟩ :=
    pressing_runs Config.default.stakePolicy ⟨1, 1⟩
  have hfees : Config.default.stakePolicy.fees ⟨1, 1⟩ = ⟨1, 2⟩ := by decide
  refine ⟨task, snapshot, history, ending, hpolicy, ran, fun estimate asked => ?_, sender, txs, _,
    answer, submitted, hfees, ?_⟩
  · rw [only estimate asked]
    exact UInt64.le_refl 1
  · rw [hfees]
    decide

end StakeKeeper
