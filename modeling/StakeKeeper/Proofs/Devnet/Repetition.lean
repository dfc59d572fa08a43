import StakeKeeper.Proofs.Devnet.Ticking
import StakeKeeper.Proofs.Exit.Evolution

/-!
A tick leaves nothing to do for the next one. Main statements: `Net.batch?_again` (no batch is sent
after a batch), `Net.exited_again` (no exit is uploaded after an upload) and `tick_again` (a tick right
after a tick that completes does nothing).
-/
namespace StakeKeeper
set_option autoImplicit false

theorem Registry.mem_entries {κ ν : Type} [DecidableEq κ] {r : Registry κ ν} {k : κ} {v : ν}
    (h : r.get? k = some v) : (k, v) ∈ r.entries := by
  unfold get? at h
  generalize r.entries = entries at h ⊢
  induction entries with
  | nil => cases h
  | cons e rest ih =>
    rw [lookup_entry] at h
    split at h
    next hk =>
      rw [hk, ← Option.some.inj h]
      exact List.mem_cons_self
    next => exact List.mem_cons_of_mem e (ih h)

namespace Devnet

-- The range of instants is never computed with below.
seal Instant.ofNanos?

/-! ## After a batch -/

namespace Chain
variable {c : Chain} {node a : Address} {now : Instant} {txs : List TransactionRequest}
  {fees : FeeSettings}

theorem minipool?_executed (c : Chain) (now : Instant) (txs : List TransactionRequest)
    (fees : FeeSettings) (a : Address) :
    (c.executed now txs fees).minipool? a =
      if a ∈ txs.map (·.recipient) then (c.minipool? a).map (stakedAt now)
      else c.minipool? a := find?_foldl now txs c.minipools a

/-- What is in prelaunch after a batch was not in it, and is as it was before. -/
theorem shownAt_executed (h : ((c.executed now txs fees).shownAt node a).status = .prelaunch) :
    (c.executed now txs fees).shownAt node a = c.shownAt node a ∧ a ∉ txs.map (·.recipient) := by
  unfold shownAt at h ⊢
  rw [minipool?_executed] at h ⊢
  by_cases ha : a ∈ txs.map (·.recipient)
  · rw [if_pos ha] at h
    cases hr : c.minipool? a with
    | none =>
      rw [hr] at h
      cases h
    | some r =>
      rw [hr] at h
      cases h
  · rw [if_neg ha]
    exact ⟨rfl, ha⟩

end Chain

namespace Net
variable {n : Net} {task next : StakeTask} {node : Address} {addresses : List Address}

theorem shownAt_execute {batch : Option (Instant × List StakeEntry × FeeSettings)} {a : Address}
    (h : ((n.execute batch).chain.shownAt node a).status = .prelaunch) :
    (n.execute batch).chain.shownAt node a = n.chain.shownAt node a := by
  rcases batch with _ | ⟨_, _, _⟩
  · rfl
  · exact (Chain.shownAt_executed h).1

theorem eligible?_execute {batch : Option (Instant × List StakeEntry × FeeSettings)}
    {later now : Instant} {records ready : List MinipoolRecord}
    (h : ((n.execute batch).view
      (addresses.map ((n.execute batch).chain.shownAt node))).eligible? = some (later, records))
    (hbefore : (n.view (addresses.map (n.chain.shownAt node))).eligible? = some (now, ready)) :
    later = now ∧ ∀ r ∈ records, r ∈ ready ∧ ∃ a ∈ addresses,
      r = (n.execute batch).chain.shownAt node a ∧ r.status = .prelaunch := by
  obtain ⟨htime, _, rfl⟩ := StakeView.eligible?_eq_some_iff.1 h
  obtain ⟨hnow, _, rfl⟩ := StakeView.eligible?_eq_some_iff.1 hbefore
  have hlater : later = now := by
    change (n.execute batch).chain.header.time? = some later at htime
    rw [execute_header] at htime
    exact Option.some.inj (htime.symm.trans hnow)
  refine ⟨hlater, fun r hr => ?_⟩
  obtain ⟨hmem, hready⟩ := List.mem_filter.1 hr
  obtain ⟨a, ha, rfl⟩ := List.mem_map.1 hmem
  have hprelaunch := (MinipoolRecord.isReady?_eq_true_iff.1 (of_decide_eq_true hready)).1
  refine ⟨List.mem_filter.2 ⟨?_, ?_⟩, a, ha, rfl, hprelaunch⟩
  · rw [shownAt_execute hprelaunch]
    exact List.mem_map_of_mem ha
  · change decide (MinipoolRecord.isReady? _ later
      (n.execute batch).chain.settings.scrubPeriod.floorSecs = some true) = true at hready
    rw [execute_settings, hlater] at hready
    exact hready

theorem batchOf?_eq_none {policy : StakePolicy} {timeout : Duration} {domain : Root}
    {now : Instant} {records : List MinipoolRecord}
    (dear : ¬(policy.gasThreshold = 0 ∨ n.chain.fee.maxFee < policy.gasThreshold))
    (unforced : ∀ r ∈ records,
      mustForce (r.timeInStatus now) timeout policy.forcePercent = false) :
    n.batchOf? policy timeout domain (some (now, records)) = none := by
  unfold batchOf?
  dsimp only
  split
  · rfl
  cases hprepared : n.prepared domain now records with
  | error e => rfl
  | ok entries =>
    have hnone : entries.filter (fun e => mustForce e.waited timeout policy.forcePercent) = [] := by
      refine List.filter_eq_nil_iff.2 fun e he => ?_
      have hentry : (e.tx.recipient, e.waited) ∈ entries.map fun e => (e.tx.recipient, e.waited) :=
        List.mem_map_of_mem he
      rw [prepared_waited hprepared] at hentry
      obtain ⟨r, hr, hsame⟩ := List.mem_map.1 hentry
      have hwait : r.timeInStatus now = e.waited := congrArg Prod.snd hsame
      rw [← hwait, unforced r hr]
      decide
    have hchoice : policy.choice timeout entries n.chain.fee = none := by
      rw [StakePolicy.choice_eq, if_neg dear]
      dsimp only
      rw [hnone]
      rfl
    show (policy.choice timeout entries n.chain.fee).map _ = none
    rw [hchoice]
    rfl

theorem unsent_of_eligible {later now : Instant} {records ready : List MinipoolRecord}
    {domain : Root} {entries batch : List StakeEntry} {fees : FeeSettings}
    (h : ((n.execute (some (now, batch, fees))).view (addresses.map
      ((n.execute (some (now, batch, fees))).chain.shownAt node))).eligible? = some (later, records))
    (hbefore : (n.view (addresses.map (n.chain.shownAt node))).eligible? = some (now, ready))
    (hprepared : n.prepared domain now ready = .ok entries) :
    later = now ∧ ∀ r ∈ records, ∃ e ∈ entries, e ∉ batch ∧ e.waited = r.timeInStatus now := by
  obtain ⟨rfl, hrecords⟩ := eligible?_execute h hbefore
  refine ⟨rfl, fun r hr => ?_⟩
  obtain ⟨hready, a, _, hshown, hprelaunch⟩ := hrecords r hr
  have hmem : (r.address, r.timeInStatus later) ∈ ready.map fun r =>
      (r.address, r.timeInStatus later) := List.mem_map_of_mem hready
  rw [← prepared_waited hprepared] at hmem
  obtain ⟨e, he, hsame⟩ := List.mem_map.1 hmem
  refine ⟨e, he, fun hsent => ?_, congrArg Prod.snd hsame⟩
  have haddress : e.tx.recipient = r.address := congrArg Prod.fst hsame
  have hunsent : r.address ∉ (batch.map (·.tx)).map (·.recipient) := by
    rw [hshown] at hprelaunch ⊢
    rw [Chain.shownAt_address]
    exact (Chain.shownAt_executed hprelaunch).2
  rw [← haddress] at hunsent
  exact hunsent (List.mem_map_of_mem (List.mem_map_of_mem hsent))

/-- After its batch a run finds nothing more to send. -/
theorem batch?_again (hpolicy : next.policy = task.policy)
    (hdomain : n.domainOf next = n.domainOf task) (node : Address) (addresses : List Address) :
    let left := n.execute (n.batch? task (addresses.map (n.chain.shownAt node)))
    left.batch? next (addresses.map (left.chain.shownAt node)) = none := by
  intro left
  rcases hbatch : n.batch? task (addresses.map (n.chain.shownAt node)) with _ | ⟨now, batch, fees⟩
  · have hleft : left = n := by
      show n.execute _ = n
      rw [hbatch]
      rfl
    rw [hleft, ← hbatch, batch?, batch?, hpolicy, hdomain]
  have hleft : left = n.execute (some (now, batch, fees)) := by
    show n.execute _ = _
    rw [hbatch]
  rw [hleft]
  clear_value left
  obtain ⟨ready, entries, hfound, hprepared, hchosen⟩ := batch?_inv hbatch
  unfold batch?
  split
  case isFalse => rfl
  generalize hlater : ((n.execute (some (now, batch, fees))).view
    (addresses.map ((n.execute (some (now, batch, fees))).chain.shownAt node))).eligible? = found
  rcases found with _ | ⟨later, records⟩
  · rfl
  obtain ⟨rfl, unsent⟩ := unsent_of_eligible hlater hfound hprepared
  rw [StakePolicy.choice_eq] at hchosen
  by_cases hcheap : task.policy.gasThreshold = 0 ∨ n.chain.fee.maxFee < task.policy.gasThreshold
  · rw [if_pos hcheap] at hchosen
    cases hchosen
    have hnone : records = [] := List.eq_nil_iff_forall_not_mem.2 fun r hr => by
      obtain ⟨e, he, hnot, _⟩ := unsent r hr
      exact hnot he
    rw [hnone]
    rfl
  · rw [if_neg hcheap] at hchosen
    dsimp only at hchosen
    split at hchosen
    · cases hchosen
    cases hchosen
    rw [hpolicy]
    refine batchOf?_eq_none hcheap fun r hr => Bool.eq_false_iff.2 fun hforced => ?_
    obtain ⟨e, he, hnot, hwaited⟩ := unsent r hr
    rw [← hwaited] at hforced
    exact hnot (List.mem_filter.2 ⟨he, hforced⟩)

theorem batch?_service (n : Net) (service : Service) (task : StakeTask)
    (validators : List MinipoolRecord) :
    ({ n with service } : Net).batch? task validators = n.batch? task validators := by
  have hfound (domain : Root) (found : Option (Instant × List MinipoolRecord)) :
      ({ n with service } : Net).batchOf? task.policy n.chain.settings.launchTimeout.floorSecs
          domain found =
        n.batchOf? task.policy n.chain.settings.launchTimeout.floorSecs domain found := by
    cases found <;> rfl
  unfold batch?
  rw [← hfound]
  rfl

theorem stakeEnding_service (n : Net) (service : Service) (task : StakeTask)
    (validators : List MinipoolRecord) :
    ({ n with service } : Net).stakeEnding task validators = n.stakeEnding task validators := by
  have hfound (found : Option (Instant × List MinipoolRecord)) :
      ({ n with service } : Net).endingOf task found = n.endingOf task found := by
    cases found <;> rfl
  unfold stakeEnding
  rw [← hfound]
  rfl

/-- Where a run ended, the next one does, too. -/
theorem stakeEnding_again (batch : Option (Instant × List StakeEntry × FeeSettings))
    {result : Except TaskError Unit}
    (h : n.stakeEnding task (addresses.map (n.chain.shownAt node)) = .done (result, next)) :
    ∃ result next', (n.execute batch).stakeEnding next
      (addresses.map ((n.execute batch).chain.shownAt node)) = .done (result, next') := by
  have hbefore := stakeEnding_done_iff.1 ⟨result, next, h⟩
  refine stakeEnding_done_iff.2 fun hstaking => ?_
  obtain ⟨hready, hprelaunch⟩ := Bool.and_eq_true_iff.1 hstaking
  rw [execute_eq] at hready
  have hpending {r : MinipoolRecord}
      (hr : r ∈ addresses.map ((n.execute batch).chain.shownAt node))
      (hs : r.status = .prelaunch) : r ∈ addresses.map (n.chain.shownAt node) := by
    obtain ⟨a, ha, rfl⟩ := List.mem_map.1 hr
    rw [shownAt_execute hs]
    exact List.mem_map_of_mem ha
  obtain ⟨r, hr, hs⟩ := List.any_eq_true.1 hprelaunch
  have hfirst : n.staking (addresses.map (n.chain.shownAt node)) = true :=
    Bool.and_eq_true_iff.2
      ⟨hready, List.any_eq_true.2 ⟨r, hpending hr (of_decide_eq_true hs), hs⟩⟩
  obtain ⟨⟨now, records⟩, hfound⟩ := hbefore hfirst
  obtain ⟨htime, hreviewed, _⟩ := StakeView.eligible?_eq_some_iff.1 hfound
  refine ⟨(now, _), StakeView.eligible?_eq_some_iff.2 ⟨?_, fun s hs hprelaunch => ?_, rfl⟩⟩
  · change (n.execute batch).chain.header.time? = some now
    rw [execute_header]
    exact htime
  · change ∃ e, s.reviewEnd? (n.execute batch).chain.settings.scrubPeriod.floorSecs = some e
    rw [execute_settings]
    exact hreviewed s (hpending hs hprelaunch) hprelaunch

end Net

/-! ## After an upload -/

namespace Service
variable {s : Service} {exits : List ExitUpload} {k : PubKey}

theorem mem_uploadedIn_entries (h : s.records.get? k = some true) :
    k ∈ uploadedIn s.entries := by
  have hmem := Registry.mem_entries h
  exact mem_uploadedIn.2
    ⟨⟨k, true⟩, List.mem_map.2 ⟨(k, true), List.mem_mergeSort.2 hmem, rfl⟩, rfl, rfl⟩

theorem get?_record (kept : s.dropped = []) (hk : k ∈ exits.map (·.pubkey)) :
    (s.record exits).get? k = some true := by
  have hfold (exits : List ExitUpload) (records : Registry PubKey Bool) :
      (exits.foldl (fun records e => records.insert e.pubkey true) records).get? k =
        if k ∈ exits.map (·.pubkey) then some true else records.get? k := by
    induction exits generalizing records with
    | nil => rfl
    | cons e rest ih =>
      rw [List.foldl_cons, ih, Registry.get?_insert, List.map_cons]
      by_cases hrest : k ∈ rest.map (·.pubkey)
      · rw [if_pos hrest, if_pos (List.mem_cons_of_mem _ hrest)]
      · simp only [hrest, List.mem_cons, or_false, if_false]
  have hall : exits.filter (fun e => !s.dropped.contains e.pubkey) = exits := by
    rw [kept]
    exact List.filter_eq_self.2 fun _ _ => rfl
  rw [record, hall, hfold, if_pos hk]

theorem mem_confirmedInto (accepted : s.outcome.isAccepted = true) (kept : s.dropped = [])
    {cache : ExitCache} (h : k ∈ exits.map (·.pubkey) ∨ k ∈ cache.sent) :
    k ∈ ((s.upload exits).2.confirmedInto cache exits).sent := by
  refine ExitCache.mem_markAll.2 (h.imp_left fun hk => ?_)
  split
  · refine mem_uploadedIn_entries ?_
    show (if s.outcome.isAccepted then s.record exits else s.records).get? k = some true
    rw [if_pos accepted]
    exact get?_record kept hk
  · exact hk

theorem silent (h : ¬s.answersListing = true) : ¬s.list.2.answersListing = true := by
  obtain ⟨records, outcome, dropped, uploads, listings, limit⟩ := s
  cases limit with
  | none => exact absurd rfl h
  | some limit =>
    have hlimit := mt decide_eq_true h
    exact fun hmore => hlimit (Nat.lt_of_succ_lt (of_decide_eq_true hmore))

theorem taken_eq (accepted : s.outcome.isAccepted = true) (cache : ExitCache)
    (exits : List ExitUpload) :
    s.taken cache exits =
      ((.ok (), (s.upload exits).2.confirmedInto cache exits), (s.upload exits).2.list.2) := by
  obtain ⟨hregistered, hauthorized⟩ := Bool.and_eq_true_iff.1 accepted
  rw [Bool.not_eq_true'] at hregistered hauthorized
  unfold taken
  rw [hregistered, hauthorized]
  rfl

end Service

namespace Net
variable {n : Net} {task next : ExitTask} {time : Option Instant} {candidates : List MinipoolRecord}
  {validators : List MinipoolRecord} {result : Except TaskError Unit} {service : Service}

theorem exitOf_idle (h : candidates = [] ∨ time.isNone = false ∧ n.exits candidates = []) :
    n.exitOf task time candidates = (.done (.ok (), task), n.service) := by
  unfold exitOf
  rcases h with rfl | ⟨htime, hexits⟩
  · rfl
  · rw [htime, hexits]
    exact ite_self _

theorem exitOf_again (task : ExitTask) (accepted : n.service.outcome.isAccepted = true)
    (kept : n.service.dropped = [])
    (h : n.exitOf task time (exitCandidates task.sent validators) =
      (.done (result, next), service)) :
    next.sent.initialized = task.sent.initialized ∧ ∀ known,
      ({ n with service } : Net).exitOf ⟨known, next.sent⟩ time
          (exitCandidates next.sent validators) =
        (.done (.ok (), ⟨known, next.sent⟩), service) := by
  unfold exitOf at h
  split at h
  case isTrue hnone =>
    cases h
    exact ⟨rfl, fun _ => exitOf_idle (.inl (List.isEmpty_iff.1 hnone))⟩
  split at h
  case isTrue => cases h
  case isFalse htime =>
  have timely : time.isNone = false := Bool.eq_false_iff.2 htime
  split at h
  case isTrue hnone =>
    cases h
    exact ⟨rfl, fun _ => exitOf_idle (.inr ⟨timely, List.isEmpty_iff.1 hnone⟩)⟩
  rw [Service.taken_eq accepted] at h
  cases h
  have holds {k : PubKey} (hk : k ∈ (n.exits (exitCandidates task.sent validators)).map (·.pubkey) ∨
      k ∈ task.sent.sent) := Service.mem_confirmedInto accepted kept hk
  generalize hcache : Service.confirmedInto _ task.sent _ = cache at holds ⊢
  refine ⟨?_, fun _ => exitOf_idle (.inr ⟨timely, ?_⟩)⟩
  · rw [← hcache]
    exact ExitCache.markAll_initialized _ _
  show n.exits (exitCandidates cache validators) = []
  refine List.eq_nil_iff_forall_not_mem.2 fun upload hupload => ?_
  obtain ⟨hcandidate, hexitable⟩ := mem_exits.1 (List.mem_map_of_mem (f := (·.pubkey)) hupload)
  generalize upload.pubkey = k at hcandidate hexitable
  obtain ⟨r, hr, rfl⟩ := List.mem_map.1 hcandidate
  obtain ⟨hmem, hneeds⟩ := List.mem_filter.1 hr
  obtain ⟨hopen, hunsent⟩ := Bool.and_eq_true_iff.1 hneeds
  have hnot : r.pubkey ∉ cache.sent := fun hsent => by
    rw [ExitCache.contains_iff.2 hsent] at hunsent
    cases hunsent
  -- A candidate that is left was one before, and so its exit was uploaded.
  have hbefore : r ∈ exitCandidates task.sent validators := by
    refine List.mem_filter.2 ⟨hmem, Bool.and_eq_true_iff.2 ⟨hopen, ?_⟩⟩
    rw [Bool.not_eq_true', Bool.eq_false_iff]
    exact fun hsent => hnot (holds (.inr (ExitCache.contains_iff.1 hsent)))
  exact hnot (holds (.inl (mem_exits.2 ⟨List.mem_map_of_mem hbefore, hexitable⟩)))

/-- After a run, the next one uploads nothing and learns nothing. -/
theorem exited_again (accepted : n.service.outcome.isAccepted = true)
    (kept : n.service.dropped = [])
    (h : n.exited task time validators = (.done (result, next), service)) :
    ∃ result last left,
      ({ n with service } : Net).exited next time validators = (.done (result, last), left) ∧
        last.sent = next.sent ∧ left.uploads = service.uploads ∧
          left.records = service.records := by
  unfold exited at h
  dsimp only at h
  split at h
  case isTrue loaded =>
    obtain ⟨hloaded, hidle⟩ := exitOf_again ⟨_, task.sent⟩ accepted kept h
    refine ⟨.ok (), ⟨some (n.configOf next), next.sent⟩, service, ?_, rfl, rfl, rfl⟩
    unfold exited
    dsimp only
    rw [if_pos (hloaded.trans loaded)]
    exact hidle _
  case isFalse unloaded =>
  split at h
  case isTrue answers =>
    obtain ⟨hloaded, hidle⟩ := exitOf_again (n := { n with service := n.service.list.2 })
      ⟨_, n.service.loadedInto task.sent⟩ accepted kept h
    refine ⟨.ok (), ⟨some (n.configOf next), next.sent⟩, service, ?_, rfl, rfl, rfl⟩
    unfold exited
    dsimp only
    rw [if_pos (show next.sent.initialized = true from hloaded)]
    exact hidle _
  case isFalse fails =>
    cases h
    refine ⟨.error (.call (.network "coordination service timed out")),
      ⟨some (n.configOf task), task.sent⟩, n.service.list.2.list.2, ?_, rfl, rfl, rfl⟩
    unfold exited
    dsimp only
    rw [if_neg unloaded, if_neg (Service.silent fails)]
    rfl

end Net

/-! ## Ticks -/

/-- That a tick left alone all that stakes and exits change. -/
structure Idle (loop loop' : TaskLoop DaemonTask) (n n' : Net) : Prop where
  submitted : n'.chain.submitted = n.chain.submitted
  minipools : n'.chain.minipools = n.chain.minipools
  uploads : n'.service.uploads = n.service.uploads
  records : n'.service.records = n.service.records
  caches : exitCaches loop' = exitCaches loop

section
variable {n n' : Net} {loop next : TaskLoop DaemonTask} {stake : StakeTask} {exit : ExitTask}
  {failed : Nat}

theorem Idle.of_still {s t : Net} (h : s.still = n.still) (h' : t.still = n'.still)
    (idle : Idle loop next n n') : Idle loop next s t := by
  have hsubmitted {s t : Net} (h : s.still = t.still) : s.chain.submitted = t.chain.submitted := by
    have hsame := congrArg (·.chain.submitted) h
    exact hsame
  have hminipools {s t : Net} (h : s.still = t.still) : s.chain.minipools = t.chain.minipools := by
    have hsame := congrArg (·.chain.minipools) h
    exact hsame
  constructor
  · rw [hsubmitted h, hsubmitted h', idle.submitted]
  · rw [hminipools h, hminipools h', idle.minipools]
  · rw [Net.service_of_still h, Net.service_of_still h', idle.uploads]
  · rw [Net.service_of_still h, Net.service_of_still h', idle.records]
  · exact idle.caches

theorem tick_plays_again (standard : Standard loop stake exit)
    (accepted : n.service.outcome.isAccepted = true) (kept : n.service.dropped = [])
    (h : loop.tick.Plays n (.done (.completed failed, next)) n') :
    ∃ failed last m m', n'.still = m.still ∧
      next.tick.Plays m (.done (.completed failed, last)) m' ∧ Idle next last m m' := by
  obtain ⟨synced, hreads, addresses, hlisting, result, last, result', last', service, hstake, hexit,
    rfl, hleft⟩ := tick_plays_inv standard h
  have hnode : stake.runner.node = loop.runner.node := congrArg QueryRunner.node standard.runner
  obtain ⟨hrunner, hpolicy, hdomain⟩ := Net.stakeEnding_kept hstake
  have hnone := Net.batch?_again (n := n) hpolicy hdomain loop.runner.node addresses
  obtain ⟨again, stake', hagain⟩ := Net.stakeEnding_again
    (n.batch? stake (addresses.map (n.chain.shownAt loop.runner.node))) hstake
  have hsettled := n.execute_settled stake loop.runner.node addresses
  have hsame := n.execute_eq (n.batch? stake (addresses.map (n.chain.shownAt loop.runner.node)))
  generalize n.execute (n.batch? stake (addresses.map (n.chain.shownAt loop.runner.node))) = left
    at *
  let m : Net := { left with service }
  have hsynced : m.chain.synced = true ∧ m.beacon.synced = true := by
    refine ⟨(congrArg Chain.synced hsettled).trans synced.1, ?_⟩
    exact (congrArg (·.beacon.synced) hsame).trans synced.2
  have hfound : m.chain.gathered loop.runner =
      .done (.ok (addresses.map (left.chain.shownAt loop.runner.node))) :=
    Chain.gathered_of_listing ((Chain.failReads_of_settled hsettled).trans hreads)
      ((Chain.listing_of_settled hsettled loop.runner).trans hlisting)
  have hbatch : m.batch? last (addresses.map (left.chain.shownAt loop.runner.node)) = none :=
    (left.batch?_service service last _).trans hnone
  obtain ⟨result, exit', service', hidle, hcache, huploads, hrecords⟩ :=
    Net.exited_again (n := left) ((congrArg (·.service.outcome.isAccepted) hsame).trans accepted)
      ((congrArg (·.service.dropped) hsame).trans kept) hexit
  have hexits : m.exited last' m.chain.header.time?
      (addresses.map (left.chain.shownAt loop.runner.node)) =
        (.done (result, exit'), service') := by
    rw [show m.chain.header = n.chain.header from Chain.header_of_settled hsettled, ← hidle]
    exact Net.exited_congr rfl rfl rfl (Chain.shown_of_settled hsettled _ addresses) _ _
  have standard' : Standard { loop with tasks := [.stake last, .exit last'] } last last' :=
    ⟨rfl, hrunner.trans standard.runner⟩
  have hplays := tick_plays_completed (n := m) standard' hsynced hfound
    ((left.stakeEnding_service service last _).trans hagain) (by rw [hbatch]; exact hexits)
  rw [hbatch] at hplays
  refine ⟨_, _, m, _, hleft, hplays, rfl, rfl, huploads, hrecords, ?_⟩
  exact congrArg (fun cache => [cache]) hcache

end

/-- Where a tick completes, the next one neither sends a batch nor uploads an exit. -/
theorem tick_again {n n₁ : Net} {config : Config} {node : Address} {known : Option Root}
    {exit : ExitTask} {failed : Nat} {next : TaskLoop DaemonTask}
    (accepted : n.service.outcome.isAccepted = true) (kept : n.service.dropped = [])
    (first : (TaskLoop.tick { TaskLoop.ofConfig config node with
        tasks := [.stake ⟨⟨node, config.pageSizes⟩, config.stakePolicy, known⟩, .exit exit] }).runWith
      Net.handler n = (.done (.completed failed, next), n₁)) :
    ∃ failed last n₂, next.tick.runWith Net.handler n₁ = (.done (.completed failed, last), n₂) ∧
      Idle next last n₁ n₂ := by
  have hplays : Routine.Plays (TaskLoop.tick { TaskLoop.ofConfig config node with
      tasks := [.stake ⟨⟨node, config.pageSizes⟩, config.stakePolicy, known⟩, .exit exit] }) n
        (.done (.completed failed, next)) n₁ :=
    ⟨congrArg Prod.fst first, congrArg (·.2.still) first⟩
  obtain ⟨failed', last, m, m', hm, hagain, idle⟩ :=
    tick_plays_again ⟨rfl, rfl⟩ accepted kept hplays
  obtain ⟨hending, hleft⟩ := hagain.congr hm
  exact ⟨failed', last, _, Prod.ext hending rfl, idle.of_still hm hleft⟩

/-- Collaborators around a chain with one staking minipool, whose validator has an index and a key. -/
def leavingNet : Net :=
  let node := Bytes.zero 20
  let validator : PubKey := Vector.replicate 48 1
  { Net.new ⟨7, Bytes.zero 32, 1⟩ ⟨.ofSecs 1, .ofSecs 10, .zero⟩ node ⟨0, 12, 32, Bytes.zero 4⟩ with
    chain := { Chain.new ⟨7, Bytes.zero 32, 1⟩ ⟨.ofSecs 1, .ofSecs 10, .zero⟩ with
      minipools := [{ MinipoolRecord.empty node node with
        known := true, status := .staking, pubkey := validator }] }
    beacon := { Beacon.new ⟨0, 12, 32, Bytes.zero 4⟩ with
      statuses := Registry.empty.insert validator ⟨some 5, 32, .activeOngoing⟩ }
    keys := ⟨Registry.empty.insert validator StakeTask.firstKey.toBytes⟩ }

/-- An exit task that has taken in an empty listing. -/
def idleExit : ExitTask := ⟨none, { ExitCache.empty with initialized := true }⟩

theorem leavingNet_exited (time : Option Instant) (timely : time.isNone = false) :
    (leavingNet.exited idleExit time
      ([Bytes.zero 20].map (leavingNet.chain.shownAt (Bytes.zero 20)))).2.uploads ≠ [] := by
  let candidates := exitCandidates idleExit.sent
    ([Bytes.zero 20].map (leavingNet.chain.shownAt (Bytes.zero 20)))
  have hcandidates : candidates.map (·.pubkey) = [Vector.replicate 48 1] := by decide
  have hkey : leavingNet.key? (Vector.replicate 48 1) = some StakeTask.firstKey :=
    Net.key?_eq_some rfl
  have hexit : (Vector.replicate 48 1 : PubKey) ∈ (leavingNet.exits candidates).map (·.pubkey) := by
    refine Net.mem_exits.2 ⟨?_, ⟨_, 5, rfl, rfl⟩, _, hkey⟩
    rw [hcandidates]
    exact List.mem_singleton_self _
  show (leavingNet.exitOf _ time candidates).2.uploads ≠ []
  rw [Net.exitOf_uploads _ timely hexit]
  exact List.cons_ne_nil _ _

theorem tick_again_leavingNet : ∃ failed next n₁,
    (TaskLoop.tick { TaskLoop.ofConfig .default (Bytes.zero 20) with
        tasks := [.stake ⟨⟨Bytes.zero 20, Config.default.pageSizes⟩, Config.default.stakePolicy, none⟩,
          .exit idleExit] }).runWith Net.handler leavingNet =
      (.done (.completed failed, next), n₁) ∧ n₁.service.uploads ≠ [] ∧
    ∃ failed last n₂, next.tick.runWith Net.handler n₁ = (.done (.completed failed, last), n₂) ∧
      Idle next last n₁ n₂ := by
  have htime : leavingNet.chain.header.time? = some StakeTask.dueTime :=
    Instant.ofNanos?_eq_some_iff.2 (by decide)
  have inRange : leavingNet.chain.InRange := by
    refine ⟨⟨_, htime⟩, fun r hr hs => ?_⟩
    cases List.mem_singleton.1 hr
    cases hs
  have hlisting : leavingNet.chain.listing ⟨Bytes.zero 20, Config.default.pageSizes⟩ =
      .done (.ok [Bytes.zero 20]) :=
    Chain.listing_of_count_le (show 1 ≤ maxAddresses by decide) (Nat.le_refl 1)
  let stake : StakeTask :=
    ⟨⟨Bytes.zero 20, Config.default.pageSizes⟩, Config.default.stakePolicy, none⟩
  let loop : TaskLoop DaemonTask := { TaskLoop.ofConfig .default (Bytes.zero 20) with
    tasks := [.stake stake, .exit idleExit] }
  have standard : Standard loop stake idleExit := ⟨rfl, rfl⟩
  have hfound : leavingNet.chain.gathered loop.runner = _ := Chain.gathered_of_listing rfl hlisting
  obtain ⟨⟨result, last, hstake⟩, result', last', service, hexit⟩ :=
    Net.runs_end inRange stake idleExit (Bytes.zero 20) [Bytes.zero 20]
  obtain ⟨hending, _⟩ := tick_plays_completed standard ⟨rfl, rfl⟩ hfound hstake hexit
  have first : loop.tick.runWith Net.handler leavingNet = (_, _) := Prod.ext hending rfl
  refine ⟨_, _, _, first, ?_, tick_again rfl rfl first⟩
  rw [tick_service inRange standard ⟨rfl, rfl⟩ hfound]
  exact leavingNet_exited leavingNet.chain.header.time? (by rw [htime]; rfl)

end Devnet

end StakeKeeper
