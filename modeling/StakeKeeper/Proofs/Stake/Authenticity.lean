import StakeKeeper.Proofs.Stake.Broadcast

/-!
What the staking task signs. Main statement: `StakeTask.submitted_authentic` (every transaction that
is ever sent stakes a due minipool of the run's own view, with a deposit that its validator signed).
-/
namespace StakeKeeper
set_option autoImplicit false

/-! ## The domain over the life of a task -/

def Step.config? : Step → Option BeaconConfig
  | asked .beaconConfig (.ok config) => some config
  | _ => none

/-- The first constants of the beacon chain that a history shows. -/
def firstConfig (history : List Step) : Option BeaconConfig := history.findSome? Step.config?

theorem firstConfig_append (first second : List Step) :
    firstConfig (first ++ second) = (firstConfig first).or (firstConfig second) :=
  List.findSome?_append

theorem firstConfig_callsOf (history : List Step) :
    firstConfig (callsOf Request.isConfig history) = firstConfig history := by
  refine findSome?_filter_of_imp (fun step h => ?_) history
  cases step with
  | noted e => rfl
  | asked q answer => cases q <;> first
    | rfl
    | cases h

namespace StakeTask

theorem DomainKnown.eq_or {task : StakeTask} {asking : List Step} {domain : Root}
    (known : DomainKnown task asking domain) :
    some domain = task.knownDomain.or ((firstConfig asking).map (depositDomain ·.genesisFork)) := by
  cases known with
  | kept hk =>
    rw [hk]
    rfl
  | asked config hk =>
    rw [hk]
    rfl

theorem Staking.configs {policy : StakePolicy} {view : StakeView} {domain : Root} {now : Instant}
    {records : List MinipoolRecord} {steps : List Step} {result : Except TaskError Unit}
    (staking : Staking policy view domain now records steps result) :
    callsOf Request.isConfig steps = [] := by
  cases staking with
  | unsigned checked hr ha =>
    rw [callsOf_append, callsOf_map_of_neg (f := SignedStake.loading) fun _ => rfl]
    rfl
  | unsimulated error e checked hr =>
    rw [callsOf_append, callsOf_append, callsOf_map_of_neg (f := SignedStake.loading) fun _ => rfl,
      callsOf_map_of_neg (f := (PreparedStake.simulation · view.transactor domain)) fun _ => rfl]
    rfl
  | simulated checked hr sending =>
    rw [others_of_prepared _ _ _ _ (fun _ => rfl) fun _ => rfl]
    cases sending <;> rfl

/-- What a run leaves of the domain: it is kept, or that of the first constants. -/
theorem run_knownDomain {task next : StakeTask} {snapshot : NetworkSnapshot} {history : List Step}
    {result : Except TaskError Unit}
    (ran : (run snapshot).Runs task history (.done (result, next))) :
    next.knownDomain =
      task.knownDomain.or ((firstConfig history).map (depositDomain ·.genesisFork)) := by
  rw [← firstConfig_callsOf history]
  have unasked (h : callsOf Request.isConfig history = []) (hnext : next = task) :
      next.knownDomain = task.knownDomain.or ((firstConfig (callsOf Request.isConfig history)).map
        (depositDomain ·.genesisFork)) := by
    rw [h, hnext]
    exact Option.or_none.symm
  cases runs_course ran with
  | unviewed reads kept =>
    refine unasked (callsOf_eq_nil_of_calls fun q answer hq => ?_) (kept _ _ rfl)
    exact (Request.preparesNothing_of_isRead (reads q answer hq)).config
  | @viewed query rest view _ viewing viewed =>
    have hqueried : callsOf Request.isConfig (query ++ rest) =
        callsOf Request.isConfig (calls rest) :=
      callsOf_queried (fun _ h => (Request.preparesNothing_of_isRead h).config) viewing
    generalize hsteps : calls rest = steps at viewed
    cases viewed with
    | idle h =>
      refine unasked ?_ rfl
      rw [hqueried, hsteps]
      rfl
    | unknown e h hne hk =>
      rw [hqueried, hsteps]
      exact Option.or_none.symm
    | staked eligible hne known staking =>
      rw [configs_viewed viewing known hsteps staking.configs]
      exact known.eq_or

/-- Over the life of a task its domain is that of the first constants it was told. -/
theorem lives_knownDomain {runner : QueryRunner} {policy : StakePolicy} {task : StakeTask}
    {history : List Step}
    (lives : StatefulRoutine.Lives run ⟨runner, policy, none⟩ history (.done task)) :
    task.knownDomain = (firstConfig history).map (depositDomain ·.genesisFork) := by
  generalize hending : Ending.done task = ending at lives
  induction lives generalizing task with
  | start =>
    cases hending
    rfl
  | ran _ ran ih =>
    cases hending
    rw [run_knownDomain ran, ih rfl, firstConfig_append, Option.map_or]
  | crashed => cases hending

end StakeTask

/-! ## Due minipools and their deposits -/

/-- A view of a query together with how it was read: its header came first, and all contracts were
read at that header's block. -/
structure PinnedView (runner : QueryRunner) (query : List Step) (view : StakeView) : Prop where
  viewed : (runner.run stakeQuery).Runs query (.done (.ok (.ready view)))
  header : query.head? = some (.asked (.header none) (.ok view.header))
  pinned : ∀ reads block answer, .asked (.multicall reads block) answer ∈ query →
    block = view.header.number

/-- A minipool of a view whose review has ended by the view's block. -/
structure Due (view : StakeView) (record : MinipoolRecord) : Prop where
  listed : record ∈ view.validators
  prelaunch : record.status = .prelaunch
  reviewed : ∃ now e, view.header.time? = some now ∧
    record.statusTime.add? view.settings.scrubPeriod = some e ∧ e ≤ now

/-- A transaction that stakes a minipool with a deposit that its validator signed. -/
structure StakeOf (record : MinipoolRecord) (domain : Root) (tx : TransactionRequest) : Prop where
  recipient : tx.recipient = record.address
  deposit : ∃ signature,
    verifySignature record.pubkey
        (DepositMessage.signingRoot ⟨record.pubkey, record.credentials, 31000000000⟩ domain)
        signature = true ∧
      tx.call = .stake signature
        (DepositData.tree ⟨record.pubkey, record.credentials, 31000000000, signature⟩).root

theorem stakeQuery_pinned {runner : QueryRunner} {query : List Step} {view : StakeView}
    (viewed : (runner.run stakeQuery).Runs query (.done (.ok (.ready view)))) :
    PinnedView runner query view := by
  obtain ⟨rest, rfl, hrest⟩ := stakeQuery_history viewed
  refine ⟨viewed, rfl, fun reads block answer h => ?_⟩
  rcases List.mem_cons.1 h with hfirst | hlater
  · cases hfirst
  · obtain ⟨_, hq⟩ | hq | ⟨_, hq⟩ := hrest _ answer hlater
    · cases hq
    · cases hq
    · cases hq
      rfl

theorem mem_of_stakeCandidates? {now : Instant} {scrub : Duration}
    {records ready : List MinipoolRecord} (h : stakeCandidates? now scrub records = some ready)
    {r : MinipoolRecord} (hr : r ∈ ready) :
    r ∈ records ∧ r.isReady? now scrub = some true := by
  induction records generalizing ready with
  | nil =>
    cases h
    cases hr
  | cons first rest ih =>
    obtain ⟨isReady, hfirst, hrest⟩ := Option.bind_eq_some_iff.1 h
    obtain ⟨later, hlater, hready⟩ := Option.bind_eq_some_iff.1 hrest
    cases hready
    cases isReady with
    | false =>
      obtain ⟨hmem, hr⟩ := ih hlater hr
      exact ⟨List.mem_cons_of_mem _ hmem, hr⟩
    | true =>
      rcases List.mem_cons.1 hr with rfl | hr
      · exact ⟨List.mem_cons_self, hfirst⟩
      · obtain ⟨hmem, hr⟩ := ih hlater hr
        exact ⟨List.mem_cons_of_mem _ hmem, hr⟩

namespace StakeTask

theorem Eligible.due {view : StakeView} {now : Instant} {records : List MinipoolRecord}
    (eligible : Eligible view now records) {r : MinipoolRecord} (h : r ∈ records) : Due view r := by
  obtain ⟨hmem, hready⟩ := mem_of_stakeCandidates? eligible.ready h
  obtain ⟨hstatus, e, he, hle⟩ := MinipoolRecord.isReady?_eq_true_iff.1 hready
  exact ⟨hmem, hstatus, now, e, eligible.time, he, hle⟩

theorem sent_stakeOf {s : PreparedStake} {domain : Root} (checked : s.Checked domain) :
    StakeOf s.record domain (s.sent domain) := by
  have hmessage : (s.deposit domain).message =
      ⟨s.record.pubkey, s.record.credentials, 31000000000⟩ := by
    rw [← checked.own_key]
    rfl
  have hdeposit : s.deposit domain =
      ⟨s.record.pubkey, s.record.credentials, 31000000000, (s.deposit domain).signature⟩ := by
    rw [← checked.own_key]
    rfl
  refine ⟨rfl, (s.deposit domain).signature, ?_, ?_⟩
  · rw [← hmessage]
    exact checked.accepted
  · rw [← hdeposit]
    rfl

/-- The domain of a batch is that of the first constants in the task's life. -/
theorem prepared_domain {runner : QueryRunner} {policy : StakePolicy} {task : StakeTask}
    {history before : List Step} {batch : StakeBatch}
    (lives : StatefulRoutine.Lives run ⟨runner, policy, none⟩ history (.done task))
    (prepared : batch.PreparedIn task before) :
    some batch.domain =
      (firstConfig (history ++ before)).map (depositDomain ·.genesisFork) := by
  obtain ⟨rest, rfl, hsteps⟩ := prepared.steps
  have hconfigs : callsOf Request.isConfig (batch.query ++ rest) = batch.asking := by
    refine configs_viewed prepared.viewed prepared.known hsteps ?_
    exact others_of_prepared _ _ _ _ (fun _ => rfl) fun _ => rfl
  rw [firstConfig_append, ← firstConfig_callsOf (batch.query ++ rest), hconfigs, Option.map_or,
    ← lives_knownDomain lives]
  exact prepared.known.eq_or

/-- A stake that is sent in any run of a task stems from a minipool of that run's view that is in
prelaunch and past its review. Its signature is the validator's own, over that minipool's deposit,
under the domain of the first constants that the task was answered. -/
theorem submitted_authentic {runner : QueryRunner} {policy : StakePolicy} {task : StakeTask}
    {snapshot : NetworkSnapshot} {history more before after : List Step}
    {ending : Ending (Except TaskError Unit × StakeTask)} {sender : Transactor}
    {txs : List TransactionRequest} {fees : FeeSettings} {answer : Except CallError (List Root)}
    {tx : TransactionRequest}
    (lives : StatefulRoutine.Lives run ⟨runner, policy, none⟩ history (.done task))
    (ran : (run snapshot).Runs task more ending)
    (sent : more = before ++ .asked (.submit sender txs fees) answer :: after) (h : tx ∈ txs) :
    ∃ query rest view config record, before = query ++ rest ∧ PinnedView task.runner query view ∧
      firstConfig (history ++ before) = some config ∧ Due view record ∧
        StakeOf record (depositDomain config.genesisFork) tx := by
  subst sent
  obtain ⟨batch, prepared, _, sublist, _⟩ := (run_broadcast ran).prepared
  obtain ⟨s, hs, rfl⟩ := List.mem_map.1 (sublist.subset h)
  obtain ⟨config, hconfig, hdomain⟩ := Option.map_eq_some_iff.1 (prepared_domain lives prepared).symm
  obtain ⟨rest, hbefore, _⟩ := prepared.steps
  refine ⟨batch.query, rest, batch.view, config, s.record, hbefore,
    stakeQuery_pinned prepared.viewed, hconfig, ?_, ?_⟩
  · exact prepared.eligible.due (List.mem_map_of_mem hs)
  · rw [hdomain]
    exact sent_stakeOf (prepared.checked s hs)

theorem submitted_authentic_firstKey : ∃ more ending sender txs fees answer before after tx,
    (run (dueSnapshot firstKey)).Runs eagerTask more ending ∧
      more = before ++ .asked (.submit sender txs fees) answer :: after ∧ tx ∈ txs ∧
        ∃ query rest view config record, before = query ++ rest ∧
          PinnedView eagerTask.runner query view ∧ firstConfig ([] ++ before) = some config ∧
            Due view record ∧ StakeOf record (depositDomain config.genesisFork) tx := by
  let config : BeaconConfig := ⟨0, 12, 32, Bytes.zero 4⟩
  have checked : (duePrepared firstKey).Checked (depositDomain config.genesisFork) :=
    firstKey_checked
  obtain ⟨before, after, ran⟩ := due_delivered checked
  exact ⟨_, _, _, _, _, _, before, after, _, ran, rfl, List.mem_singleton_self _,
    submitted_authentic .start ran rfl (List.mem_singleton_self _)⟩

end StakeTask

end StakeKeeper
