import StakeKeeper.Proofs.Stake.Delivery

/-!
What a run of the staking task has done by the time it sends a batch. Main statement:
`StakeTask.run_all_or_nothing` (one batch at most, and only after every stake of it was signed,
checked and simulated).
-/
namespace StakeKeeper
set_option autoImplicit false

/-! ## Kinds of calls -/

namespace Request

def isLoad : Request → Bool
  | loadKey _ => true
  | _ => false

def isSimulation : Request → Bool
  | simulate _ _ => true
  | _ => false

def isSubmission : Request → Bool
  | submit _ _ _ => true
  | _ => false

def isWait : Request → Bool
  | wait _ => true
  | _ => false

def isEstimate : Request → Bool
  | feeEstimate => true
  | _ => false

/-- Sending a batch and waiting for it. -/
def isSending (q : Request) : Bool := q.isSubmission || q.isWait

def isConfig : Request → Bool
  | beaconConfig => true
  | _ => false

/-- Whether a call has no part in the preparation of stakes. -/
structure PreparesNothing (q : Request) : Prop where
  load : q.isLoad = false
  simulation : q.isSimulation = false
  estimate : q.isEstimate = false
  config : q.isConfig = false

theorem preparesNothing_of_isRead {q : Request} (h : q.isRead = true) : q.PreparesNothing := by
  cases q <;> first
    | exact ⟨rfl, rfl, rfl, rfl⟩
    | cases h

theorem preparesNothing_of_isSending {q : Request} (h : q.isSending = true) :
    q.PreparesNothing := by
  cases q <;> first
    | exact ⟨rfl, rfl, rfl, rfl⟩
    | cases h

theorem not_isSending_of_isRead {q : Request} (h : q.isRead = true) : q.isSending = false := by
  cases q <;> first
    | rfl
    | cases h

theorem unsent_of_isRead {q : Request} (h : q.isRead = true) : q.isSubmission = false :=
  (Bool.or_eq_false_iff.1 (not_isSending_of_isRead h)).1

end Request

/-- The transaction that is sent: the simulated one, with the gas limit of that simulation. -/
def PreparedStake.sent (s : PreparedStake) (domain : Root) : TransactionRequest :=
  { s.transaction domain none with gasLimit := some s.gas.gasLimit }

/-! ## Batches -/

/-- What a run has gathered by the time it sends a batch. -/
structure StakeBatch where
  query : List Step
  view : StakeView
  now : Instant
  /-- The call for the domain, if it was not known. -/
  asking : List Step
  domain : Root
  /-- The stakes of all eligible records of the view, in order. -/
  stakes : List PreparedStake
  estimate : FeeEstimate

namespace StakeBatch

def simulations (batch : StakeBatch) : List Step :=
  batch.stakes.map (·.simulation batch.view.transactor batch.domain)

/-- Whether a batch has been prepared in a history: first come the steps of the query and the call
for the domain, then one key is loaded for each eligible record, then each transaction is simulated
and last the fees are estimated. -/
structure PreparedIn (batch : StakeBatch) (task : StakeTask) (history : List Step) : Prop where
  viewed : (task.runner.run stakeQuery).Runs batch.query (.done (.ok (.ready batch.view)))
  known : task.DomainKnown batch.asking batch.domain
  eligible : StakeTask.Eligible batch.view batch.now (batch.stakes.map (·.record))
  checked : ∀ s ∈ batch.stakes, s.Checked batch.domain
  steps : ∃ rest, history = batch.query ++ rest ∧
    calls rest = batch.asking ++ (batch.stakes.map (·.loading) ++
      (batch.simulations ++ [.asked .feeEstimate (.ok batch.estimate)]))
  loaded_once : callsOf Request.isLoad history = batch.stakes.map (·.loading)
  simulated_once : callsOf Request.isSimulation history = batch.simulations

end StakeBatch

namespace StakeTask

/-! ## The one batch of a run -/

/-- The calls after the answer to a batch: one that was taken is waited for. -/
inductive Awaited : Except CallError (List Root) → List Step → Prop
  | refused (e : CallError) : Awaited (.error e) []
  | taken (hashes : List Root) (included : Except CallError Unit) :
      Awaited (.ok hashes) [.asked (.wait hashes) included]

/-- What a run sends. -/
inductive Broadcast (task : StakeTask) : List Step → Prop
  | unsent {history : List Step} :
      callsOf Request.isSending history = [] → Broadcast task history
  | sent {before after : List Step} {batch : StakeBatch} {txs : List TransactionRequest}
      {fees : FeeSettings} {answer : Except CallError (List Root)} :
      batch.PreparedIn task before → txs.Sublist (batch.stakes.map (·.sent batch.domain)) →
        Awaited answer (calls after) →
          Broadcast task (before ++ .asked (.submit batch.view.transactor txs fees) answer :: after)

section Kinds
variable {kind : Request → Bool} {task : StakeTask} {query rest asking steps : List Step}

theorem callsOf_query (h : ∀ q, q.isRead = true → kind q = false) {runner : QueryRunner}
    {ending : Ending (Except QueryError (QueryOutcome StakeView))}
    (ran : (runner.run stakeQuery).Runs query ending) : callsOf kind query = [] :=
  callsOf_eq_nil_of_calls fun q answer hq => h q (stakeQuery_reads ran q answer hq)

theorem callsOf_queried (h : ∀ q, q.isRead = true → kind q = false) {runner : QueryRunner}
    {ending : Ending (Except QueryError (QueryOutcome StakeView))}
    (ran : (runner.run stakeQuery).Runs query ending) :
    callsOf kind (query ++ rest) = callsOf kind (calls rest) := by
  rw [callsOf_append, callsOf_query h ran, callsOf_calls]
  rfl

theorem callsOf_asking (h : kind .beaconConfig = false) {domain : Root}
    (known : DomainKnown task asking domain) : callsOf kind asking = [] := by
  cases known with
  | kept => rfl
  | asked config =>
    refine callsOf_eq_nil_of_calls fun q answer hq => ?_
    cases List.mem_singleton.1 hq
    exact h

theorem callsOf_viewed (hread : ∀ q, q.isRead = true → kind q = false)
    (hconfig : kind .beaconConfig = false) {view : StakeView} {domain : Root}
    (viewing : (task.runner.run stakeQuery).Runs query (.done (.ok (.ready view))))
    (known : DomainKnown task asking domain) (hsteps : calls rest = asking ++ steps) :
    callsOf kind (query ++ rest) = callsOf kind steps := by
  rw [callsOf_queried hread viewing, hsteps, callsOf_append, callsOf_asking hconfig known]
  rfl

theorem configs_viewed {view : StakeView} {domain : Root}
    (viewing : (task.runner.run stakeQuery).Runs query (.done (.ok (.ready view))))
    (known : DomainKnown task asking domain) (hsteps : calls rest = asking ++ steps)
    (none : callsOf Request.isConfig steps = []) :
    callsOf Request.isConfig (query ++ rest) = asking := by
  have hasking : callsOf Request.isConfig asking = asking := by cases known <;> rfl
  rw [callsOf_queried (fun _ h => (Request.preparesNothing_of_isRead h).config) viewing, hsteps,
    callsOf_append, hasking, none]
  exact List.append_nil asking

end Kinds

section Prepared
variable (sender : Transactor) (domain : Root) (prepared : List PreparedStake) (more : List Step)

theorem loads_of_prepared :
    callsOf Request.isLoad (prepared.map (·.loading) ++ (prepared.map (·.simulation sender domain) ++
      more)) = prepared.map (·.loading) ++ callsOf Request.isLoad more := by
  rw [callsOf_append, callsOf_append,
    callsOf_map_of_pos (f := fun s : PreparedStake => s.loading) fun _ => rfl,
    callsOf_map_of_neg (f := (PreparedStake.simulation · sender domain)) fun _ => rfl]
  rfl

theorem simulations_of_prepared :
    callsOf Request.isSimulation (prepared.map (·.loading) ++
      (prepared.map (·.simulation sender domain) ++ more)) =
        prepared.map (·.simulation sender domain) ++ callsOf Request.isSimulation more := by
  rw [callsOf_append, callsOf_append,
    callsOf_map_of_neg (f := fun s : PreparedStake => s.loading) fun _ => rfl,
    callsOf_map_of_pos (f := (PreparedStake.simulation · sender domain)) fun _ => rfl]
  rfl

theorem others_of_prepared {kind : Request → Bool} (hload : ∀ k, kind (.loadKey k) = false)
    (hsimulate : ∀ tx, kind (.simulate sender tx) = false) :
    callsOf kind (prepared.map (·.loading) ++ (prepared.map (·.simulation sender domain) ++ more)) =
      callsOf kind more := by
  have hl (s : PreparedStake) : s.loading.asks kind = false := hload s.record.pubkey
  have hs (s : PreparedStake) : (s.simulation sender domain).asks kind = false :=
    hsimulate (s.transaction domain none)
  rw [callsOf_append, callsOf_append, callsOf_map_of_neg hl, callsOf_map_of_neg hs]
  rfl

end Prepared

section
variable {task : StakeTask} {query rest asking more : List Step} {view : StakeView} {domain : Root}
  {prepared : List PreparedStake}
  (viewing : (task.runner.run stakeQuery).Runs query (.done (.ok (.ready view))))
  (known : DomainKnown task asking domain)
  (hsteps : calls rest = asking ++ (prepared.map (·.loading) ++
    (prepared.map (·.simulation view.transactor domain) ++ more)))
include viewing known hsteps

theorem loads_viewed (none : callsOf Request.isLoad more = []) :
    callsOf Request.isLoad (query ++ rest) = prepared.map (·.loading) := by
  rw [callsOf_viewed (fun _ h => (Request.preparesNothing_of_isRead h).load) rfl viewing known hsteps,
    loads_of_prepared, none, List.append_nil]

theorem simulations_viewed (none : callsOf Request.isSimulation more = []) :
    callsOf Request.isSimulation (query ++ rest) =
      prepared.map (·.simulation view.transactor domain) := by
  rw [callsOf_viewed (fun _ h => (Request.preparesNothing_of_isRead h).simulation) rfl viewing known
    hsteps, simulations_of_prepared, none, List.append_nil]

theorem others_viewed {kind : Request → Bool} (hread : ∀ q, q.isRead = true → kind q = false)
    (hconfig : kind .beaconConfig = false) (hload : ∀ k, kind (.loadKey k) = false)
    (hsimulate : ∀ tx, kind (.simulate view.transactor tx) = false) :
    callsOf kind (query ++ rest) = callsOf kind more := by
  rw [callsOf_viewed hread hconfig viewing known hsteps,
    others_of_prepared _ _ _ _ hload hsimulate]

theorem estimates_viewed :
    callsOf Request.isEstimate (query ++ rest) = callsOf Request.isEstimate more :=
  others_viewed viewing known hsteps (fun _ h => (Request.preparesNothing_of_isRead h).estimate) rfl
    (fun _ => rfl) fun _ => rfl

theorem submissions_viewed :
    callsOf Request.isSubmission (query ++ rest) = callsOf Request.isSubmission more :=
  others_viewed viewing known hsteps (fun _ => Request.unsent_of_isRead) rfl (fun _ => rfl)
    fun _ => rfl

end

theorem Awaited.isSending {sender : Transactor} {txs : List TransactionRequest} {fees : FeeSettings}
    {answer : Except CallError (List Root)} {waiting : List Step} (awaited : Awaited answer waiting)
    {q : Request} {reply : Except CallError q.Reply}
    (hq : .asked q reply ∈ Step.asked (.submit sender txs fees) answer :: waiting) :
    q.isSending = true := by
  rcases List.mem_cons.1 hq with hfirst | hwait
  · cases hfirst
    rfl
  cases awaited with
  | refused e => cases hwait
  | taken hashes included =>
    cases List.mem_singleton.1 hwait
    rfl

/-- The calls after the estimate: none, or a batch and its wait. -/
inductive Delivered (sender : Transactor) (domain : Root) (prepared : List PreparedStake) :
    List Step → Prop
  | nothing : Delivered sender domain prepared []
  | batch {txs : List TransactionRequest} {fees : FeeSettings}
      {answer : Except CallError (List Root)} {waiting : List Step} :
      txs.Sublist (prepared.map (·.sent domain)) → Awaited answer waiting →
        Delivered sender domain prepared (.asked (.submit sender txs fees) answer :: waiting)

theorem Delivered.isSending {sender : Transactor} {domain : Root} {prepared : List PreparedStake}
    {steps : List Step} (h : Delivered sender domain prepared steps) (q : Request)
    (answer : Except CallError q.Reply) (hq : .asked q answer ∈ steps) : q.isSending = true := by
  cases h with
  | nothing => cases hq
  | batch _ awaited => exact awaited.isSending hq

theorem Sending.outcome {policy : StakePolicy} {view : StakeView} {domain : Root} {now : Instant}
    {prepared : List PreparedStake} {steps : List Step} {result : Except TaskError Unit}
    (sending : Sending policy view (prepared.map (·.sentEntry domain now)) steps result) :
    (∃ e, result = .error e ∧ callsOf Request.isSending steps = []) ∨
      ∃ estimate more, steps = .asked .feeEstimate (.ok estimate) :: more ∧
        Delivered view.transactor domain prepared more := by
  have sublist {estimate : FeeEstimate} {batch : List StakeEntry} {fees : FeeSettings}
      (hc : policy.choice view.settings.launchTimeout (prepared.map (·.sentEntry domain now))
        estimate = some (batch, fees)) :
      (batch.map (·.tx)).Sublist (prepared.map (·.sent domain)) := by
    have h := (StakePolicy.choice_sublist hc).map (·.tx)
    rwa [List.map_map] at h
  cases sending with
  | unpriced e => exact .inl ⟨_, rfl, rfl⟩
  | postponed hc => exact .inr ⟨_, [], rfl, .nothing⟩
  | refused e hc => exact .inr ⟨_, _, rfl, .batch (sublist hc) (.refused e)⟩
  | sent hashes answer hc => exact .inr ⟨_, _, rfl, .batch (sublist hc) (.taken hashes answer)⟩

/-- From the first key on a run fails and sends nothing, or prepares all records. -/
theorem Staking.outcome {policy : StakePolicy} {view : StakeView} {domain : Root} {now : Instant}
    {records : List MinipoolRecord} {steps : List Step} {result : Except TaskError Unit}
    (staking : Staking policy view domain now records steps result) :
    (∃ e, result = .error e ∧ callsOf Request.isSending steps = []) ∨
      ∃ (prepared : List PreparedStake) (estimate : FeeEstimate) (more : List Step),
        (∀ s ∈ prepared, s.Checked domain) ∧ records = prepared.map (·.record) ∧
          steps = prepared.map (·.loading) ++ (prepared.map (·.simulation view.transactor domain) ++
            .asked .feeEstimate (.ok estimate) :: more) ∧
            Delivered view.transactor domain prepared more := by
  cases staking with
  | unsigned checked hr ha =>
    rw [callsOf_append, callsOf_map_of_neg (f := SignedStake.loading) fun _ => rfl]
    exact .inl ⟨_, rfl, rfl⟩
  | unsimulated error e checked hr =>
    rw [callsOf_append, callsOf_append, callsOf_map_of_neg (f := SignedStake.loading) fun _ => rfl,
      callsOf_map_of_neg (f := (PreparedStake.simulation · view.transactor domain)) fun _ => rfl]
    exact .inl ⟨_, rfl, rfl⟩
  | simulated checked hr sending =>
    rw [others_of_prepared _ _ _ _ (fun _ => rfl) fun _ => rfl]
    obtain h | ⟨estimate, more, rfl, delivered⟩ := sending.outcome
    · exact .inl h
    · exact .inr ⟨_, estimate, more, checked, hr, rfl, delivered⟩

theorem preparedIn_of_calls {task : StakeTask} {batch : StakeBatch} {rest : List Step}
    (viewed : (task.runner.run stakeQuery).Runs batch.query (.done (.ok (.ready batch.view))))
    (known : DomainKnown task batch.asking batch.domain)
    (eligible : Eligible batch.view batch.now (batch.stakes.map (·.record)))
    (checked : ∀ s ∈ batch.stakes, s.Checked batch.domain)
    (hrest : calls rest = batch.asking ++ (batch.stakes.map (·.loading) ++
      (batch.simulations ++ [.asked .feeEstimate (.ok batch.estimate)]))) :
    batch.PreparedIn task (batch.query ++ rest) := by
  have loaded : callsOf Request.isLoad (batch.query ++ rest) = batch.stakes.map (·.loading) :=
    loads_viewed viewed known hrest rfl
  have simulated : callsOf Request.isSimulation (batch.query ++ rest) = batch.simulations :=
    simulations_viewed viewed known hrest rfl
  exact ⟨viewed, known, eligible, checked, ⟨rest, rfl, hrest⟩, loaded, simulated⟩

theorem run_broadcast {task : StakeTask} {snapshot : NetworkSnapshot} {history : List Step}
    {ending : Ending (Except TaskError Unit × StakeTask)}
    (ran : (run snapshot).Runs task history ending) : Broadcast task history := by
  cases runs_course ran with
  | unviewed reads kept =>
    refine .unsent (callsOf_eq_nil_of_calls fun q answer hq => ?_)
    exact Request.not_isSending_of_isRead (reads q answer hq)
  | @viewed query rest view _ viewing viewed =>
    have unsent (h : callsOf Request.isSending (calls rest) = []) :
        Broadcast task (query ++ rest) :=
      .unsent ((callsOf_queried (fun _ => Request.not_isSending_of_isRead) viewing).trans h)
    generalize hsteps : calls rest = steps at viewed unsent
    cases viewed with
    | crashed c => exact unsent rfl
    | idle h => exact unsent rfl
    | unknown e h hne hk => exact unsent rfl
    | @staked now records domain asking steps result eligible hne known staking =>
      have none (h : callsOf Request.isSending steps = []) : Broadcast task (query ++ rest) := by
        refine unsent ?_
        rw [callsOf_append, callsOf_asking rfl known, h]
        rfl
      obtain ⟨_, _, h⟩ | ⟨stakes, estimate, more, checked, rfl, rfl, delivered⟩ := staking.outcome
      · exact none h
      cases delivered with
      | nothing =>
        refine none ?_
        rw [others_of_prepared _ _ _ _ (fun _ => rfl) fun _ => rfl]
        rfl
      | @batch txs fees answer waiting sublist awaited =>
        let batch : StakeBatch := ⟨query, view, now, asking, domain, stakes, estimate⟩
        have split : calls rest = asking ++ (stakes.map (·.loading) ++ (batch.simulations ++
            [.asked .feeEstimate (.ok estimate)])) ++
              .asked (.submit view.transactor txs fees) answer :: waiting := by
          simp only [List.append_assoc, List.cons_append, List.nil_append]
          exact hsteps
        obtain ⟨before, after, rfl, hbefore, rfl⟩ := calls_eq_append_cons split
        rw [← List.append_assoc]
        have prepared : batch.PreparedIn task (query ++ before) :=
          preparedIn_of_calls viewing known eligible checked hbefore
        exact .sent prepared sublist awaited

theorem prepared_unsent {task : StakeTask} {batch : StakeBatch} {history : List Step}
    (prepared : batch.PreparedIn task history) : callsOf Request.isSending history = [] := by
  obtain ⟨rest, rfl, hrest⟩ := prepared.steps
  exact others_viewed prepared.viewed prepared.known hrest
    (fun _ => Request.not_isSending_of_isRead) rfl (fun _ => rfl) fun _ => rfl

theorem Awaited.kinds {answer : Except CallError (List Root)} {steps : List Step}
    (awaited : Awaited answer steps) : callsOf Request.isSubmission steps = [] ∧
      callsOf Request.isWait steps = steps ∧ steps.length ≤ 1 := by
  cases awaited with
  | refused e => exact ⟨rfl, rfl, Nat.zero_le 1⟩
  | taken hashes included => exact ⟨rfl, rfl, Nat.le_refl 1⟩

theorem sending_eq_nil {steps : List Step} (h : callsOf Request.isSending steps = []) :
    callsOf Request.isSubmission steps = [] ∧ callsOf Request.isWait steps = [] :=
  callsOf_or_eq_nil h

theorem Broadcast.prepared {task : StakeTask} {before after : List Step} {sender : Transactor}
    {txs : List TransactionRequest} {fees : FeeSettings} {answer : Except CallError (List Root)}
    (h : Broadcast task (before ++ .asked (.submit sender txs fees) answer :: after)) :
    ∃ batch : StakeBatch, batch.PreparedIn task before ∧ sender = batch.view.transactor ∧
      txs.Sublist (batch.stakes.map (·.sent batch.domain)) ∧ Awaited answer (calls after) := by
  generalize hh : before ++ .asked (.submit sender txs fees) answer :: after = history at h
  cases h with
  | unsent none =>
    rw [← hh] at none
    cases not_asks_of_split (sending_eq_nil none).1
  | @sent before' after' batch txs' fees' answer' prepared sublist awaited =>
    have hafter := awaited.kinds.1
    rw [callsOf_calls] at hafter
    obtain ⟨rfl, hs, rfl⟩ :=
      split_unique rfl (sending_eq_nil (prepared_unsent prepared)).1 hafter hh
    cases hs
    exact ⟨batch, prepared, rfl, sublist, awaited⟩

theorem Broadcast.one_of_each {task : StakeTask} {history : List Step}
    (h : Broadcast task history) : (callsOf Request.isSubmission history).length ≤ 1 ∧
      (callsOf Request.isWait history).length ≤ 1 := by
  cases h with
  | unsent none =>
    obtain ⟨hsubmission, hwait⟩ := sending_eq_nil none
    rw [hsubmission, hwait]
    exact ⟨Nat.zero_le 1, Nat.zero_le 1⟩
  | sent prepared sublist awaited =>
    obtain ⟨hbefore, hwait⟩ := sending_eq_nil (prepared_unsent prepared)
    obtain ⟨hafter, hwaits, hlength⟩ := awaited.kinds
    rw [callsOf_calls] at hafter hwaits
    rw [callsOf_append, callsOf_append, hbefore, hwait, callsOf_cons, callsOf_cons, hafter, hwaits]
    exact ⟨Nat.le_refl 1, hlength⟩

/-- A wait comes right after the batch that it is for. -/
theorem Broadcast.wait_follows {task : StakeTask} {before after : List Step} {hashes : List Root}
    {included : Except CallError Unit}
    (h : Broadcast task (before ++ .asked (.wait hashes) included :: after)) :
    ∃ earlier sender txs fees,
      calls before = earlier ++ [.asked (.submit sender txs fees) (.ok hashes)] := by
  generalize hh : before ++ .asked (.wait hashes) included :: after = history at h
  cases h with
  | unsent none =>
    rw [← hh] at none
    cases not_asks_of_split (sending_eq_nil none).2
  | @sent before' after' batch txs fees answer prepared sublist awaited =>
    have hwait := (sending_eq_nil (prepared_unsent prepared)).2
    have hwaits := awaited.kinds.2.1
    rw [callsOf_calls] at hwaits
    generalize hw : calls after' = waiting at awaited
    cases awaited with
    | refused e =>
      have hnone :
          callsOf Request.isWait (before ++ .asked (.wait hashes) included :: after) = [] := by
        rw [hh, callsOf_append, hwait, callsOf_cons, hwaits, hw]
        rfl
      cases not_asks_of_split hnone
    | taken hashes' included' =>
      obtain ⟨hcalls, hlast⟩ := last_unique hwait rfl rfl hw rfl hh.symm
      cases hlast
      exact ⟨_, _, _, _, hcalls⟩

/-! ## Failures -/

/-- A step of the preparation that failed. -/
inductive PreparationFailed (task : StakeTask) (history : List Step) : Prop
  /-- The key store's answer for the record at an index of the eligible ones is no good. -/
  | key {query rest : List Step} {view : StakeView} {now : Instant} {records : List MinipoolRecord}
      {domain : Root} {i : Nat} {record : MinipoolRecord}
      {answer : Except CallError (Option ValidatorKey)} :
      history = query ++ rest →
        (task.runner.run stakeQuery).Runs query (.done (.ok (.ready view))) →
          Eligible view now records →
            DomainKnown task (callsOf Request.isConfig history) domain →
              records[i]? = some record →
                (callsOf Request.isLoad history)[i]? =
                  some (.asked (.loadKey record.pubkey) answer) →
                  (∀ key, answer = .ok (some key) → ¬ SignedStake.Checked ⟨record, key⟩ domain) →
                    PreparationFailed task history
  | simulation {sender : Transactor} {tx : TransactionRequest} {e : CallError} :
      .asked (.simulate sender tx) (.error e) ∈ history → PreparationFailed task history
  | estimate {e : CallError} :
      .asked .feeEstimate (.error e) ∈ history → PreparationFailed task history

theorem PreparationFailed.asks {task : StakeTask} {history : List Step}
    (failed : PreparationFailed task history) :
    ∃ q answer, .asked q answer ∈ history ∧ q.isRead = false := by
  cases failed with
  | key _ _ _ _ _ hload _ =>
    exact ⟨_, _, (List.mem_filter.1 (List.mem_of_getElem? hload)).1, rfl⟩
  | simulation h => exact ⟨_, _, h, rfl⟩
  | estimate h => exact ⟨_, _, h, rfl⟩

theorem loaded_checked {domain : Root} {prepared : List PreparedStake}
    (checked : ∀ s ∈ prepared, s.Checked domain) {i : Nat} {record : MinipoolRecord}
    {answer : Except CallError (Option ValidatorKey)}
    (hrecord : (prepared.map (·.record))[i]? = some record)
    (hload : (prepared.map (·.loading))[i]? = some (.asked (.loadKey record.pubkey) answer)) :
    ∃ key, answer = .ok (some key) ∧ SignedStake.Checked ⟨record, key⟩ domain := by
  rw [List.getElem?_map] at hrecord hload
  obtain ⟨s, hs, rfl⟩ := Option.map_eq_some_iff.1 hrecord
  rw [hs] at hload
  cases hload
  exact ⟨s.key, rfl, checked s (List.mem_of_getElem? hs)⟩

/-- When all records were prepared, no step of the preparation failed but the estimate. -/
theorem not_preparationFailed {task : StakeTask} {query rest asking more : List Step}
    {view : StakeView} {domain : Root} {now : Instant} {prepared : List PreparedStake}
    {estimate : FeeEstimate}
    (viewing : (task.runner.run stakeQuery).Runs query (.done (.ok (.ready view))))
    (eligible : Eligible view now (prepared.map (·.record)))
    (known : DomainKnown task asking domain) (checked : ∀ s ∈ prepared, s.Checked domain)
    (hsteps : calls rest = asking ++ (prepared.map (·.loading) ++
      (prepared.map (·.simulation view.transactor domain) ++
        .asked .feeEstimate (.ok estimate) :: more)))
    (hmore : ∀ q answer, .asked q answer ∈ more → q.isSending = true) :
    ¬ PreparationFailed task (query ++ rest) := by
  have last {kind : Request → Bool} (h : ∀ q, q.PreparesNothing → kind q = false) :
      callsOf kind more = [] := callsOf_eq_nil_of_calls fun q answer hq =>
    h q (Request.preparesNothing_of_isSending (hmore q answer hq))
  intro failed
  cases failed with
  | @key query' rest' view' now' records domain' i record answer same viewing' eligible' known'
      hrecord hload hno =>
    obtain ⟨rfl, hview, rfl⟩ := Routine.Runs.done_unique viewing viewing' same
    cases hview
    obtain ⟨rfl, rfl⟩ := eligible.unique eligible'
    have hnone : callsOf Request.isConfig (prepared.map (·.loading) ++
        (prepared.map (·.simulation view.transactor domain) ++
          .asked .feeEstimate (.ok estimate) :: more)) = [] := by
      rw [others_of_prepared _ _ _ _ (fun _ => rfl) fun _ => rfl]
      exact last fun _ h => h.config
    rw [configs_viewed viewing known hsteps hnone] at known'
    obtain rfl := known.unique known'
    rw [loads_viewed viewing known hsteps (last fun _ h => h.load)] at hload
    obtain ⟨key, hkey, hchecked⟩ := loaded_checked checked hrecord hload
    exact hno key hkey hchecked
  | @simulation sender tx e h =>
    have hs : Step.asked (.simulate sender tx) (.error e) ∈
        callsOf Request.isSimulation (query ++ rest) := List.mem_filter.2 ⟨h, rfl⟩
    rw [simulations_viewed viewing known hsteps (last fun _ h => h.simulation)] at hs
    obtain ⟨s, _, hs⟩ := List.mem_map.1 hs
    cases hs
  | @estimate e h =>
    have hs : Step.asked .feeEstimate (.error e) ∈
        callsOf Request.isEstimate (query ++ rest) := List.mem_filter.2 ⟨h, rfl⟩
    rw [estimates_viewed viewing known hsteps, callsOf_cons, last fun _ h => h.estimate] at hs
    cases List.mem_singleton.1 hs

theorem run_aborts {task : StakeTask} {snapshot : NetworkSnapshot} {history : List Step}
    {ending : Ending (Except TaskError Unit × StakeTask)}
    (ran : (run snapshot).Runs task history ending) (failed : PreparationFailed task history) :
    ∃ e next, ending = .done (.error e, next) ∧ callsOf Request.isSending history = [] := by
  obtain ⟨q, answer, hq, hread⟩ := failed.asks
  have unread (reads : q.isRead = true) : False := Bool.false_ne_true (hread.symm.trans reads)
  cases runs_course ran with
  | unviewed reads kept => exact (unread (reads q answer hq)).elim
  | @viewed query rest view _ viewing viewed =>
    have idle (h : calls rest = []) : False := by
      rcases List.mem_append.1 hq with hq | hq
      · exact unread (stakeQuery_reads viewing q answer hq)
      · have : Step.asked q answer ∈ calls rest := List.mem_filter.2 ⟨hq, rfl⟩
        rw [h] at this
        cases this
    have unsent (h : callsOf Request.isSending (calls rest) = []) :
        callsOf Request.isSending (query ++ rest) = [] :=
      (callsOf_queried (fun _ => Request.not_isSending_of_isRead) viewing).trans h
    generalize hsteps : calls rest = steps at viewed idle unsent
    cases viewed with
    | crashed c => exact (idle rfl).elim
    | idle h => exact (idle rfl).elim
    | unknown e h hne hk => exact ⟨_, _, rfl, unsent rfl⟩
    | @staked now records domain asking steps result eligible hne known staking =>
      obtain ⟨e, rfl, h⟩ | ⟨stakes, estimate, more, checked, rfl, rfl, delivered⟩ :=
        staking.outcome
      · refine ⟨e, _, rfl, unsent ?_⟩
        rw [callsOf_append, callsOf_asking rfl known, h]
        rfl
      · exact absurd failed
          (not_preparationFailed viewing eligible known checked hsteps delivered.isSending)

/-! ## All or nothing -/

/-- What one run sends: nothing, or one batch whose preparation succeeded as a whole. -/
structure AllOrNothing (task : StakeTask) (history : List Step)
    (ending : Ending (Except TaskError Unit × StakeTask)) : Prop where
  one_batch : (callsOf Request.isSubmission history).length ≤ 1
  prepared : ∀ before sender txs fees answer after,
    history = before ++ .asked (.submit sender txs fees) answer :: after →
      ∃ batch : StakeBatch, batch.PreparedIn task before ∧ sender = batch.view.transactor ∧
        txs.Sublist (batch.stakes.map (·.sent batch.domain))
  aborted : PreparationFailed task history → ∃ e next, ending = .done (.error e, next) ∧
    callsOf Request.isSubmission history = [] ∧ callsOf Request.isWait history = []
  one_wait : (callsOf Request.isWait history).length ≤ 1
  wait_follows : ∀ before hashes answer after,
    history = before ++ .asked (.wait hashes) answer :: after →
      ∃ earlier sender txs fees,
        calls before = earlier ++ [.asked (.submit sender txs fees) (.ok hashes)]
  awaited : ∀ before sender txs fees hashes after,
    history = before ++ .asked (.submit sender txs fees) (.ok hashes) :: after →
      ∃ answer, calls after = [.asked (.wait hashes) answer]

/-- Whatever a run is answered, it sends nothing or one batch. All keys of the batch were loaded and
checked and all its simulations succeeded, its stakes keep their simulated gas, and a batch that was
taken is waited for with the hashes that it was answered. A call that fails before ends the run with
an error and nothing sent. -/
theorem run_all_or_nothing {task : StakeTask} {snapshot : NetworkSnapshot} {history : List Step}
    {ending : Ending (Except TaskError Unit × StakeTask)}
    (ran : (run snapshot).Runs task history ending) : AllOrNothing task history ending := by
  have broadcast := run_broadcast ran
  refine ⟨broadcast.one_of_each.1, ?_, fun failed => ?_, broadcast.one_of_each.2, ?_, ?_⟩
  · rintro before sender txs fees answer after rfl
    obtain ⟨batch, prepared, hsender, sublist, _⟩ := broadcast.prepared
    exact ⟨batch, prepared, hsender, sublist⟩
  · obtain ⟨e, next, he, h⟩ := run_aborts ran failed
    exact ⟨e, next, he, sending_eq_nil h⟩
  · rintro before hashes included after rfl
    exact broadcast.wait_follows
  · rintro before sender txs fees hashes after rfl
    obtain ⟨batch, _, _, _, awaited⟩ := broadcast.prepared
    generalize calls after = waiting at awaited
    cases awaited with
    | taken _ included => exact ⟨included, rfl⟩

theorem run_all_or_nothing_firstKey : ∃ history ending,
    (run (dueSnapshot firstKey)).Runs eagerTask history ending ∧
      callsOf Request.isSubmission history ≠ [] ∧ AllOrNothing eagerTask history ending := by
  let config : BeaconConfig := ⟨0, 12, 32, Bytes.zero 4⟩
  have checked : (duePrepared firstKey).Checked (depositDomain config.genesisFork) :=
    firstKey_checked
  obtain ⟨before, after, ran⟩ := due_delivered checked
  refine ⟨_, _, ran, fun h => ?_, run_all_or_nothing ran⟩
  cases not_asks_of_split h

end StakeTask

end StakeKeeper
