import StakeKeeper.Proofs.Devnet.Collecting
import StakeKeeper.Proofs.Devnet.StakeOnce
import StakeKeeper.Proofs.Stake.Conduct
import StakeKeeper.Proofs.Stake.Selection

/-!
A run of the staking task against the collaborators in memory. Main statements: `stakeFrom_plays` and
`stake_plays` (how a run ends and what it leaves).
-/
namespace StakeKeeper
set_option autoImplicit false

-- The range of instants is never computed with below.
seal Instant.ofNanos?

namespace Devnet

/-! ## Preparing a batch -/

section
variable {n : Net}

def Net.simulated (n : Net) (entry : StakeEntry) : Except TaskError StakeEntry :=
  if n.chain.reverting.contains entry.tx.recipient then
    .error (.simulation entry.minipool
      s!"execution reverted for {Address.checksummed entry.tx.recipient}")
  else .ok { entry with tx := { entry.tx with gasLimit := some Chain.stakeGas } }

/-- The entries of records, with the keys in the store and the gas of their simulations. -/
def Net.prepared (n : Net) (domain : Root) (now : Instant) (records : List MinipoolRecord) :
    Except TaskError (List StakeEntry) := do
  let entries ← records.mapM fun r => keyedEntry domain now r (n.keys.load r.pubkey)
  entries.mapM n.simulated

theorem buildEntries_plays (domain : Root) (now : Instant) (records : List MinipoolRecord) :
    (StakeTask.buildEntries domain now records).Plays n
      (.done (records.mapM fun r => keyedEntry domain now r (n.keys.load r.pubkey))) n := by
  rw [StakeTask.buildEntries_eq_askEach]
  exact FailingRoutine.plays_askEach (f := fun r : MinipoolRecord => .loadKey r.pubkey)
    (g := fun r => n.keys.load r.pubkey) (fun _ => rfl) (fun _ => rfl) records

theorem simulateEntries_plays (sender : Transactor) (entries : List StakeEntry) :
    (StakeTask.simulateEntries sender entries).Plays n (.done (entries.mapM n.simulated)) n := by
  induction entries with
  | nil => exact FailingRoutine.plays_pure [] n
  | cons entry rest ih =>
    have hanswer : (n.answer (.simulate sender entry.tx)).1 =
        .answered (n.chain.simulate entry.tx).1 := rfl
    rw [StakeTask.simulateEntries, List.mapM_cons]
    refine (FailingRoutine.plays_attempt rfl hanswer).bind ?_
    by_cases hreverts : n.chain.reverting.contains entry.tx.recipient = true
    · rw [Chain.simulate, if_pos hreverts, Net.simulated, if_pos hreverts]
      exact FailingRoutine.plays_ofExcept _ n
    · rw [Chain.simulate, if_neg hreverts]
      have hentry : n.simulated entry =
          .ok { entry with tx := { entry.tx with gasLimit := some Chain.stakeGas } } :=
        if_neg hreverts
      rw [hentry]
      generalize rest.mapM n.simulated = values at ih ⊢
      rcases values with e | values
      · exact ih.bind_error _
      · exact ih.bind (FailingRoutine.plays_pure _ n)

/-! ## Sending a batch -/

/-- The chain after a batch that was sent at a time. -/
def Chain.executed (c : Chain) (now : Instant) (txs : List TransactionRequest)
    (fees : FeeSettings) : Chain :=
  { c with
    minipools := txs.foldl (fun ms tx => stakeFirst tx.recipient now ms) c.minipools
    sent := c.sent + txs.length
    submitted := c.submitted ++ [⟨txs, fees⟩] }

def Net.execute (n : Net) : Option (Instant × List StakeEntry × FeeSettings) → Net
  | none => n
  | some (now, batch, fees) => { n with chain := n.chain.executed now (batch.map (·.tx)) fees }

theorem Net.execute_eq (n : Net) (batch : Option (Instant × List StakeEntry × FeeSettings)) :
    n.execute batch = { n with chain := (n.execute batch).chain } := by
  rcases batch with _ | ⟨_, _, _⟩ <;> rfl

theorem Net.execute_header (n : Net) (batch : Option (Instant × List StakeEntry × FeeSettings)) :
    (n.execute batch).chain.header = n.chain.header := by
  rcases batch with _ | ⟨_, _, _⟩ <;> rfl

theorem Net.execute_settings (n : Net) (batch : Option (Instant × List StakeEntry × FeeSettings)) :
    (n.execute batch).chain.settings = n.chain.settings := by
  rcases batch with _ | ⟨_, _, _⟩ <;> rfl

theorem send_plays {now : Instant} (htime : n.chain.header.time? = some now) (sender : Transactor)
    (batch : List StakeEntry) (fees : FeeSettings) :
    (StakeTask.send sender batch fees).Plays n (.done (.ok ()))
      (n.execute (some (now, batch, fees))) := by
  let hashes := (List.range' (n.chain.sent + 1) (batch.map (·.tx)).length).map Chain.txHash
  have hsubmit : n.chain.submit? (batch.map (·.tx)) fees =
      some (hashes, n.chain.executed now (batch.map (·.tx)) fees) := by
    unfold Chain.submit?
    rw [htime]
    rfl
  refine (FailingRoutine.plays_noteAll _ n).bind ?_
  refine (FailingRoutine.plays_call_ok (Net.answer_submit_some sender hsubmit)).bind ?_
  have hwait (m : Net) : (FailingRoutine.call (.wait hashes) : StakeRoutine Unit).Plays m
      (.done (.ok ())) m :=
    FailingRoutine.plays_call (q := .wait hashes) (r := .ok ()) rfl rfl
  exact (hwait _).bind (FailingRoutine.plays_note _ _)

theorem submit_plays {now : Instant} (htime : n.chain.header.time? = some now)
    (policy : StakePolicy) (view : StakeView) (entries : List StakeEntry) :
    (StakeTask.submit policy view entries).Plays n (.done (.ok ()))
      (n.execute ((policy.choice view.settings.launchTimeout entries n.chain.fee).map
        fun chosen => (now, chosen))) := by
  have hfee : (FailingRoutine.call .feeEstimate : StakeRoutine FeeEstimate).Plays n
      (.done (.ok n.chain.fee)) n :=
    FailingRoutine.plays_call (q := .feeEstimate) (r := .ok n.chain.fee) rfl rfl
  refine hfee.bind ?_
  unfold StakePolicy.choice
  dsimp only
  cases submissionDecision (entries.map (·.waited)) view.settings.launchTimeout
      policy.forcePercent n.chain.fee.maxFee policy.gasThreshold with
  | skip => exact FailingRoutine.plays_note _ n
  | submitAll => exact send_plays htime _ _ _
  | submitForced indices =>
    exact (FailingRoutine.plays_note _ n).bind (send_plays htime _ _ _)

/-! ## Runs -/

theorem eligible_plays (view : StakeView) :
    (StakeTask.eligible view).Plays n (.orCrash .timeRange view.eligible?) n := by
  unfold StakeTask.eligible StakeView.eligible?
  refine FailingRoutine.plays_orCrash_bind fun now => ?_
  refine FailingRoutine.plays_orCrash_bind fun records => ?_
  refine FailingRoutine.plays_orCrash_bind fun events => ?_
  exact (FailingRoutine.plays_noteAll events n).bind (FailingRoutine.plays_pure _ n)

def Net.domainOf (n : Net) (task : StakeTask) : Root :=
  task.knownDomain.getD (depositDomain n.beacon.config.genesisFork)

theorem domain_plays (task : StakeTask) :
    StakeTask.domain.Plays task n
      (.done (.ok (n.domainOf task), { task with knownDomain := some (n.domainOf task) })) n := by
  obtain ⟨runner, policy, known⟩ := task
  cases known with
  | some known => exact ⟨rfl, rfl⟩
  | none => exact ⟨rfl, rfl⟩

/-- The batch that is sent of records that may be staked, and its time. -/
def Net.batchOf? (n : Net) (policy : StakePolicy) (timeout : Duration) (domain : Root) :
    Option (Instant × List MinipoolRecord) → Option (Instant × List StakeEntry × FeeSettings)
  | none => none
  | some (now, records) =>
    if records.isEmpty then none
    else (n.prepared domain now records).toOption.bind fun entries =>
      (policy.choice timeout entries n.chain.fee).map fun chosen => (now, chosen)

/-- How a run ends that goes on from records that may be staked. -/
def Net.endingOf (n : Net) (task : StakeTask) :
    Option (Instant × List MinipoolRecord) → Ending (Except TaskError Unit × StakeTask)
  | none => .crashed .timeRange
  | some (now, records) =>
    if records.isEmpty then .done (.ok (), task)
    else .done ((n.prepared (n.domainOf task) now records).map fun _ => (),
      { task with knownDomain := some (n.domainOf task) })

theorem deposit_plays {now : Instant} (htime : n.chain.header.time? = some now)
    (policy : StakePolicy) (view : StakeView) (domain : Root) (records : List MinipoolRecord) :
    FailingRoutine.Plays (do
        let entries ← StakeTask.buildEntries domain now records
        let simulated ← StakeTask.simulateEntries view.transactor entries
        StakeTask.submit policy view simulated) n
      (.done ((n.prepared domain now records).map fun _ => ()))
      (n.execute ((n.prepared domain now records).toOption.bind fun entries =>
        (policy.choice view.settings.launchTimeout entries n.chain.fee).map
          fun chosen => (now, chosen))) := by
  have hbuilt := buildEntries_plays (n := n) domain now records
  unfold Net.prepared
  generalize records.mapM (fun r => keyedEntry domain now r (n.keys.load r.pubkey)) = built
    at hbuilt ⊢
  rcases built with e | entries
  · exact hbuilt.bind_error _
  refine hbuilt.bind ?_
  have hsimulated := simulateEntries_plays (n := n) view.transactor entries
  have hbind : (Except.ok entries >>= fun entries => entries.mapM n.simulated) =
      entries.mapM n.simulated := rfl
  rw [hbind]
  generalize entries.mapM n.simulated = simulated at hsimulated ⊢
  rcases simulated with e | simulated
  · exact hsimulated.bind_error _
  · exact hsimulated.bind (submit_plays htime policy view simulated)

theorem stakeFrom_plays (task : StakeTask) {view : StakeView}
    (hheader : view.header = n.chain.header) :
    (StakeTask.stakeFrom view).Plays task n (n.endingOf task view.eligible?)
      (n.execute (n.batchOf? task.policy view.settings.launchTimeout (n.domainOf task)
        view.eligible?)) := by
  have heligible := eligible_plays (n := n) view
  have htime {now : Instant} {records : List MinipoolRecord}
      (h : view.eligible? = some (now, records)) : n.chain.header.time? = some now := by
    rw [← hheader]
    exact (StakeView.eligible?_eq_some_iff.1 h).1
  unfold StakeTask.stakeFrom
  generalize view.eligible? = found at heligible htime ⊢
  rcases found with _ | ⟨now, records⟩
  · exact (StatefulRoutine.plays_ofFailing_crashed heligible task).bind_crashed _
  refine (StatefulRoutine.plays_ofFailing heligible task).bind ?_
  unfold Net.endingOf Net.batchOf?
  dsimp only
  by_cases hnone : records.isEmpty = true
  · rw [if_pos hnone, if_pos hnone, if_pos hnone]
    exact StatefulRoutine.plays_pure () task n
  · rw [if_neg hnone, if_neg hnone, if_neg hnone]
    refine (domain_plays task).bind ?_
    have hplayed := deposit_plays (htime rfl) task.policy view (n.domainOf task) records
    exact StatefulRoutine.plays_ofFailing hplayed
      { task with knownDomain := some (n.domainOf task) }

/-- Whether a run asks for a view that finds these minipools. -/
def Net.staking (n : Net) (validators : List MinipoolRecord) : Bool :=
  n.walletReady && validators.any (·.status = .prelaunch)

def Net.batch? (n : Net) (task : StakeTask) (validators : List MinipoolRecord) :
    Option (Instant × List StakeEntry × FeeSettings) :=
  if n.staking validators then
    n.batchOf? task.policy n.chain.settings.launchTimeout.floorSecs (n.domainOf task)
      (n.view validators).eligible?
  else none

/-- How a run ends that finds these minipools. -/
def Net.stakeEnding (n : Net) (task : StakeTask) (validators : List MinipoolRecord) :
    Ending (Except TaskError Unit × StakeTask) :=
  if n.staking validators then n.endingOf task (n.view validators).eligible?
  else .done (.ok (), task)

/-- A run of the staking task on a snapshot of the chain ends as told from what the chain holds, and
the chain executes its batch. -/
theorem stake_plays (task : StakeTask) {validators : List MinipoolRecord}
    (hgathered : n.chain.gathered task.runner = .done (.ok validators)) (node : Address) :
    (StakeTask.run (n.chain.snapshot node validators)).Plays task n
      (n.stakeEnding task validators) (n.execute (n.batch? task validators)) := by
  have hprelaunch : (n.chain.snapshot node validators).prelaunch.isEmpty =
      !validators.any (·.status = .prelaunch) := by
    show (validators.filter (·.status = .prelaunch)).isEmpty = _
    rw [Bool.eq_iff_iff]
    simp [List.filter_eq_nil_iff]
  unfold StakeTask.run Net.stakeEnding Net.batch? Net.staking
  rw [hprelaunch]
  cases hsome : validators.any (·.status = .prelaunch) with
  | false =>
    rw [Bool.and_false, if_neg Bool.false_ne_true, if_neg Bool.false_ne_true,
      if_pos (Bool.not_false)]
    exact StatefulRoutine.plays_note _ task n
  | true =>
    have hquery := stakeQuery_plays n task.runner
    unfold Net.viewed at hquery
    have hquerying {r : Except QueryError (QueryOutcome StakeView)}
        (h : (task.runner.run stakeQuery).Plays n (.done r) n) :
        (StatefulRoutine.ofFailing (StakeTask.querying (task.runner.run stakeQuery))).Plays task n
          (.done (r.mapError .query, task)) n :=
      StatefulRoutine.plays_ofFailing
        (Routine.Plays.bind h (Routine.plays_done (r.mapError TaskError.query) n)) task
    rw [Bool.and_true, if_neg (by decide)]
    refine StatefulRoutine.plays_get_bind ?_
    by_cases hready : n.walletReady = true
    · rw [if_pos hready, hgathered] at hquery
      rw [if_pos hready, if_pos hready]
      exact (hquerying hquery).bind (stakeFrom_plays task rfl)
    · rw [if_neg hready] at hquery
      rw [if_neg hready, if_neg hready]
      exact (hquerying hquery).bind (StatefulRoutine.plays_note _ task n)

/-- A run ends unless it needs a time that is out of range. -/
theorem Net.stakeEnding_done_iff {task : StakeTask} {validators : List MinipoolRecord} :
    (∃ result next, n.stakeEnding task validators = .done (result, next)) ↔
      (n.staking validators = true → ∃ found, (n.view validators).eligible? = some found) := by
  unfold stakeEnding
  by_cases hstaking : n.staking validators = true
  · rw [if_pos hstaking]
    generalize (n.view validators).eligible? = found
    rcases found with _ | ⟨now, records⟩
    · constructor
      · rintro ⟨_, _, h⟩
        cases h
      · intro h
        obtain ⟨_, h⟩ := h hstaking
        cases h
    · refine iff_of_true ?_ fun _ => ⟨_, rfl⟩
      unfold endingOf
      dsimp only
      split
      · exact ⟨_, _, rfl⟩
      · exact ⟨_, _, rfl⟩
  · rw [if_neg hstaking]
    exact iff_of_true ⟨_, _, rfl⟩ fun h => absurd h hstaking

theorem Net.stakeEnding_next {task next : StakeTask} {validators : List MinipoolRecord}
    {result : Except TaskError Unit} (h : n.stakeEnding task validators = .done (result, next)) :
    next = task ∨ next = { task with knownDomain := some (n.domainOf task) } := by
  unfold stakeEnding at h
  split at h
  · generalize (n.view validators).eligible? = found at h
    rcases found with _ | ⟨now, records⟩
    · cases h
    unfold endingOf at h
    dsimp only at h
    split at h
    · cases h
      exact .inl rfl
    · cases h
      exact .inr rfl
  · cases h
    exact .inl rfl

theorem Net.stakeEnding_kept {task next : StakeTask} {validators : List MinipoolRecord}
    {result : Except TaskError Unit} (h : n.stakeEnding task validators = .done (result, next)) :
    next.runner = task.runner ∧ next.policy = task.policy ∧ n.domainOf next = n.domainOf task := by
  rcases stakeEnding_next h with rfl | rfl
  · exact ⟨rfl, rfl, rfl⟩
  · exact ⟨rfl, rfl, rfl⟩

theorem Net.stakeEnding_cases (n : Net) (task : StakeTask) (validators : List MinipoolRecord) :
    (∃ result next, n.stakeEnding task validators = .done (result, next)) ∨
      ∃ c, n.stakeEnding task validators = .crashed c := by
  unfold stakeEnding
  split
  · generalize (n.view validators).eligible? = found
    rcases found with _ | ⟨now, records⟩
    · exact .inr ⟨_, rfl⟩
    unfold endingOf
    dsimp only
    split
    · exact .inl ⟨_, _, rfl⟩
    · exact .inl ⟨_, _, rfl⟩
  · exact .inl ⟨_, _, rfl⟩

/-! ## Who is staked -/

theorem map_of_mapM_ok {ε α β γ : Type} {f : α → Except ε β} {p : β → γ} {q : α → γ}
    (h : ∀ a b, f a = .ok b → p b = q a) {items : List α} {found : List β}
    (hfound : items.mapM f = .ok found) : found.map p = items.map q := by
  induction items generalizing found with
  | nil =>
    cases hfound
    rfl
  | cons a rest ih =>
    rw [List.mapM_cons] at hfound
    obtain ⟨b, hb, hfound⟩ := ok_of_bind_ok hfound
    obtain ⟨others, hothers, hfound⟩ := ok_of_bind_ok hfound
    cases hfound
    rw [List.map_cons, List.map_cons, h a b hb, ih hothers]

/-- The entries go to the records' minipools, in order, and have waited as long as these. -/
theorem Net.prepared_waited {domain : Root} {now : Instant} {records : List MinipoolRecord}
    {entries : List StakeEntry} (h : n.prepared domain now records = .ok entries) :
    entries.map (fun e => (e.tx.recipient, e.waited)) =
      records.map fun r => (r.address, r.timeInStatus now) := by
  obtain ⟨built, hbuilt, hsimulated⟩ := ok_of_bind_ok h
  have hsame : entries.map (fun e => (e.tx.recipient, e.waited)) =
      built.map fun e => (e.tx.recipient, e.waited) := by
    refine map_of_mapM_ok (fun e e' he => ?_) hsimulated
    unfold simulated at he
    split at he
    · cases he
    · cases he
      rfl
  rw [hsame]
  refine map_of_mapM_ok (fun r e he => ?_) hbuilt
  obtain ⟨key, _, _, rfl⟩ := keyedEntry_eq_ok_iff.1 he
  rfl

theorem Net.batch?_inv {task : StakeTask} {validators : List MinipoolRecord} {now : Instant}
    {batch : List StakeEntry} {fees : FeeSettings}
    (h : n.batch? task validators = some (now, batch, fees)) :
    ∃ records entries, (n.view validators).eligible? = some (now, records) ∧
      n.prepared (n.domainOf task) now records = .ok entries ∧
        task.policy.choice n.chain.settings.launchTimeout.floorSecs entries n.chain.fee =
          some (batch, fees) := by
  unfold batch? at h
  split at h
  · generalize hfound : (n.view validators).eligible? = found at h
    rcases found with _ | ⟨time, records⟩
    · cases h
    unfold batchOf? at h
    dsimp only at h
    split at h
    · cases h
    obtain ⟨entries, hentries, h⟩ := Option.bind_eq_some_iff.1 h
    obtain ⟨chosen, hchosen, h⟩ := Option.map_eq_some_iff.1 h
    cases h
    refine ⟨records, entries, rfl, ?_, hchosen⟩
    rcases hprepared : n.prepared (n.domainOf task) now records with e | prepared
    · rw [hprepared] at hentries
      cases hentries
    · rw [hprepared] at hentries
      cases hentries
      rfl
  · cases h

theorem Net.batch?_prelaunch {task : StakeTask} {validators : List MinipoolRecord} {now : Instant}
    {batch : List StakeEntry} {fees : FeeSettings}
    (h : n.batch? task validators = some (now, batch, fees)) :
    ∀ a ∈ (batch.map (·.tx)).map (·.recipient),
      ∃ r ∈ validators, r.address = a ∧ r.status = .prelaunch := by
  obtain ⟨records, entries, hfound, hprepared, hchosen⟩ := batch?_inv h
  intro a ha
  obtain ⟨tx, htx, rfl⟩ := List.mem_map.1 ha
  obtain ⟨e, he, rfl⟩ := List.mem_map.1 htx
  have hentry : (e.tx.recipient, e.waited) ∈ entries.map fun e => (e.tx.recipient, e.waited) :=
    List.mem_map_of_mem ((StakePolicy.choice_sublist hchosen).subset he)
  rw [prepared_waited hprepared] at hentry
  obtain ⟨r, hr, hsame⟩ := List.mem_map.1 hentry
  rw [(StakeView.eligible?_eq_some_iff.1 hfound).2.2] at hr
  obtain ⟨hmem, hready⟩ := List.mem_filter.1 hr
  refine ⟨r, hmem, congrArg Prod.fst hsame, ?_⟩
  exact (MinipoolRecord.isReady?_eq_true_iff.1 (of_decide_eq_true hready)).1

end

end Devnet

end StakeKeeper
