import StakeKeeper.Proofs.Devnet.Delivery
import StakeKeeper.Proofs.Query.Range

/-!
Minipools are staked at most once. A batch takes minipools from prelaunch to staking, and nothing
takes them back. Main statements: `run_progress` (one run of a task), `tick_conducts` (one tick of a
loop) and `staked_once` (whatever is done with a chain and however often, no minipool is in two of
the batches that it executed).
-/
namespace StakeKeeper.Devnet
set_option autoImplicit false

/-! ## Batches on a chain -/

def Batch.recipients (b : Batch) : List Address := b.txs.map (·.recipient)

namespace Chain

def status? (c : Chain) (a : Address) : Option MinipoolStatus := (c.minipool? a).map (·.status)

/-- How a chain goes on that executes batches of stakes: none of their minipools was staked before,
all are afterwards, and staked minipools stay staked. -/
structure Progress (c : Chain) (batches : List Batch) (c' : Chain) : Prop where
  submitted : c'.submitted = c.submitted ++ batches
  addresses : c.addresses <+: c'.addresses
  kept : ∀ a, c.status? a = some .staking → c'.status? a = some .staking
  fresh : ∀ b ∈ batches, ∀ a ∈ b.recipients, c.status? a ≠ some .staking
  staked : ∀ b ∈ batches, ∀ a ∈ b.recipients, c'.status? a = some .staking
  apart : batches.Pairwise fun b b' => ∀ a ∈ b.recipients, a ∉ b'.recipients
  single : c'.addresses.Nodup → ∀ b ∈ batches, b.recipients.Nodup

variable {c m c' : Chain}

theorem Progress.trans {first second : List Batch} (h : c.Progress first m)
    (h' : m.Progress second c') : c.Progress (first ++ second) c' where
  submitted := by rw [h'.submitted, h.submitted, List.append_assoc]
  addresses := h.addresses.trans h'.addresses
  kept a ha := h'.kept a (h.kept a ha)
  fresh b hb a ha hstaking := by
    rcases List.mem_append.1 hb with hb | hb
    · exact h.fresh b hb a ha hstaking
    · exact h'.fresh b hb a ha (h.kept a hstaking)
  staked b hb a ha := by
    rcases List.mem_append.1 hb with hb | hb
    · exact h'.kept a (h.staked b hb a ha)
    · exact h'.staked b hb a ha
  apart := by
    refine List.pairwise_append.2 ⟨h.apart, h'.apart, fun b hb b' hb' a ha ha' => ?_⟩
    exact h'.fresh b' hb' a ha' (h.staked b hb a ha)
  single distinct b hb := by
    rcases List.mem_append.1 hb with hb | hb
    · exact h.single (distinct.sublist h'.addresses.sublist) b hb
    · exact h'.single distinct b hb

theorem Progress.of_minipools (hsubmitted : c'.submitted = c.submitted)
    (more : List MinipoolRecord) (hminipools : c'.minipools = c.minipools ++ more) :
    c.Progress [] c' where
  submitted := by rw [hsubmitted, List.append_nil]
  addresses := by
    unfold Chain.addresses
    rw [hminipools, List.map_append]
    exact List.prefix_append _ _
  kept a h := by
    obtain ⟨r, hr, hstatus⟩ := Option.map_eq_some_iff.1 h
    unfold minipool? at hr
    unfold status? minipool?
    rw [hminipools, List.find?_append, hr]
    exact congrArg some hstatus
  fresh := by simp
  staked := by simp
  apart := List.Pairwise.nil
  single := by simp

theorem Quiet.progress (h : c.Quiet c') : c.Progress [] c' :=
  .of_minipools h.submitted [] (by rw [h.minipools, List.append_nil])

/-! ### Executing a batch -/

def stakedAt (now : Instant) (r : MinipoolRecord) : MinipoolRecord :=
  { r with status := .staking, statusTime := now }

theorem map_stakeFirst {β : Type} {f : MinipoolRecord → β} {a : Address} {now : Instant}
    {ms : List MinipoolRecord}
    (h : ∀ r, ms.find? (·.address = a) = some r → f (stakedAt now r) = f r) :
    (stakeFirst a now ms).map f = ms.map f := by
  induction ms with
  | nil => rfl
  | cons r rest ih =>
    unfold stakeFirst
    by_cases hr : r.address = a
    · rw [if_pos hr, List.map_cons, List.map_cons]
      exact congrArg (· :: _) (h r (List.find?_cons_of_pos (decide_eq_true hr)))
    · have hskip : (r :: rest).find? (·.address = a) = rest.find? (·.address = a) :=
        List.find?_cons_of_neg (by simpa using hr)
      rw [if_neg hr, List.map_cons, List.map_cons, ih fun s hs => h s (hskip.trans hs)]

theorem find?_stakeFirst (a : Address) (now : Instant) (ms : List MinipoolRecord) (b : Address) :
    (stakeFirst a now ms).find? (·.address = b) =
      if b = a then (ms.find? (·.address = b)).map (stakedAt now)
      else ms.find? (·.address = b) := by
  induction ms with
  | nil => exact (ite_self _).symm
  | cons r rest ih =>
    unfold stakeFirst
    by_cases hr : r.address = a
    · by_cases hb : b = a
      · simp [hr, hb, stakedAt]
      · have hne : r.address ≠ b := fun h => hb (h.symm.trans hr)
        simp [hr, hb, Ne.symm hb]
    · by_cases hrb : r.address = b
      · have hne : b ≠ a := fun h => hr (hrb.trans h)
        simp [hrb, hne]
      · rw [if_neg hr, List.find?_cons_of_neg (by simpa using hrb), ih,
          List.find?_cons_of_neg (by simpa using hrb)]

/-- A batch stakes the first minipool at each of its recipients, and no others. -/
theorem find?_foldl (now : Instant) (txs : List TransactionRequest) (ms : List MinipoolRecord)
    (a : Address) :
    (txs.foldl (fun ms tx => stakeFirst tx.recipient now ms) ms).find? (·.address = a) =
      if a ∈ txs.map (·.recipient) then (ms.find? (·.address = a)).map (stakedAt now)
      else ms.find? (·.address = a) := by
  induction txs generalizing ms with
  | nil => simp
  | cons tx txs ih =>
    rw [List.foldl_cons, ih, find?_stakeFirst, List.map_cons]
    by_cases ha : a = tx.recipient
    · by_cases hm : a ∈ txs.map (·.recipient)
      · rw [if_pos hm, if_pos ha, if_pos (List.mem_cons_of_mem _ hm), Option.map_map]
        rfl
      · rw [if_neg hm, if_pos ha, if_pos (ha ▸ List.mem_cons_self)]
    · simp [ha]

theorem addresses_foldl (now : Instant) (txs : List TransactionRequest)
    (ms : List MinipoolRecord) :
    (txs.foldl (fun ms tx => stakeFirst tx.recipient now ms) ms).map (·.address) =
      ms.map (·.address) := by
  induction txs generalizing ms with
  | nil => rfl
  | cons tx txs ih => rw [List.foldl_cons, ih, map_stakeFirst fun _ _ => rfl]

theorem submit?_inv {txs : List TransactionRequest} {fees : FeeSettings} {hashes : List Root}
    (h : c.submit? txs fees = some (hashes, c')) : ∃ now,
      c'.minipools = txs.foldl (fun ms tx => stakeFirst tx.recipient now ms) c.minipools ∧
        c'.submitted = c.submitted ++ [⟨txs, fees⟩] := by
  unfold submit? at h
  generalize c.header.time? = time at h
  obtain ⟨now, _, h⟩ := Option.bind_eq_some_iff.1 h
  cases h
  exact ⟨now, rfl, rfl⟩

theorem submit_progress {txs : List TransactionRequest} {fees : FeeSettings} {hashes : List Root}
    (h : c.submit? txs fees = some (hashes, c'))
    (prelaunch : ∀ a ∈ txs.map (·.recipient), c.status? a = some .prelaunch)
    (single : c.addresses.Nodup → (txs.map (·.recipient)).Nodup) :
    c.Progress [⟨txs, fees⟩] c' := by
  obtain ⟨now, hminipools, hsubmitted⟩ := submit?_inv h
  have hstatus (a : Address) : c'.status? a =
      if a ∈ txs.map (·.recipient) then (c.status? a).map fun _ => .staking else c.status? a := by
    unfold status? minipool?
    rw [hminipools, find?_foldl]
    by_cases ha : a ∈ txs.map (·.recipient)
    · rw [if_pos ha, if_pos ha, Option.map_map, Option.map_map]
      rfl
    · rw [if_neg ha, if_neg ha]
  have haddresses : c'.addresses = c.addresses := by
    unfold addresses
    rw [hminipools]
    exact addresses_foldl now txs c.minipools
  constructor
  · exact hsubmitted
  · exact haddresses ▸ List.prefix_refl _
  · intro a ha
    rw [hstatus, ha, Option.map_some, ite_self]
  · intro b hb a ha hstaking
    cases List.mem_singleton.1 hb
    have := prelaunch a ha
    rw [hstaking] at this
    cases this
  · intro b hb a ha
    cases List.mem_singleton.1 hb
    have hmem : a ∈ txs.map (·.recipient) := ha
    rw [hstatus, if_pos hmem, prelaunch a hmem]
    rfl
  · exact List.pairwise_singleton _ _
  · intro distinct b hb
    cases List.mem_singleton.1 hb
    exact single (haddresses ▸ distinct)

end Chain

/-! ## One run of the staking task -/

theorem stakeCandidates?_sublist {now : Instant} {scrub : Duration}
    {records ready : List MinipoolRecord} (h : stakeCandidates? now scrub records = some ready) :
    ready.Sublist records := by
  induction records generalizing ready with
  | nil =>
    cases h
    exact List.Sublist.refl _
  | cons first rest ih =>
    obtain ⟨isReady, _, hrest⟩ := Option.bind_eq_some_iff.1 h
    obtain ⟨later, hlater, hready⟩ := Option.bind_eq_some_iff.1 hrest
    cases hready
    cases isReady with
    | false => exact (ih hlater).cons first
    | true => exact (ih hlater).cons_cons first

/-- What is known of the recipients of a batch once it is prepared: they are in prelaunch on the
chain, and none is there twice unless it is so on the chain. -/
theorem prepared_recipients {task : StakeTask} {batch : StakeBatch} {history : List Step}
    {c m : Chain} (serves : Serves c history m) (prepared : batch.PreparedIn task history)
    {txs : List TransactionRequest}
    (sublist : txs.Sublist (batch.stakes.map (·.sent batch.domain))) :
    (∀ a ∈ txs.map (·.recipient), m.status? a = some .prelaunch) ∧
      (m.addresses.Nodup → (txs.map (·.recipient)).Nodup) := by
  have hunsent := StakeTask.sending_eq_nil (StakeTask.prepared_unsent prepared)
  have quiet : c.Quiet m := serves.quiet hunsent.1
  obtain ⟨rest, rfl, _⟩ := prepared.steps
  obtain ⟨_, viewing, _⟩ := Serves.append_iff.1 serves
  obtain ⟨hdistinct, hprelaunch⟩ := view_served viewing prepared.viewed
  have hrecipients : (txs.map (·.recipient)).Sublist
      ((batch.stakes.map (·.record)).map (·.address)) := by
    have h := sublist.map (·.recipient)
    rw [List.map_map] at h ⊢
    exact h
  constructor
  · intro a ha
    obtain ⟨r, hr, rfl⟩ := List.mem_map.1 (hrecipients.subset ha)
    obtain ⟨hview, hready⟩ := mem_of_stakeCandidates? prepared.eligible.ready hr
    have hdue := (MinipoolRecord.isReady?_eq_true_iff.1 hready).1
    obtain ⟨held, hheld, hstatus⟩ := hprelaunch r hview hdue
    have hfirst : m.minipool? r.address = some held := by
      unfold Chain.minipool? at hheld ⊢
      rw [quiet.minipools]
      exact hheld
    unfold Chain.status?
    rw [hfirst]
    exact congrArg some hstatus
  · intro distinct
    have hc : c.addresses.Nodup := by
      unfold Chain.addresses at distinct ⊢
      rwa [quiet.minipools] at distinct
    have hrecords := (stakeCandidates?_sublist prepared.eligible.ready).map (·.address)
    exact hc.sublist (hrecipients.trans (hrecords.trans hdistinct))

/-- Any part of a run that a chain takes part in only stakes what was not staked before. -/
theorem run_progress {task : StakeTask} {snapshot : NetworkSnapshot} {given rest : List Step}
    {ending : Ending (Except TaskError Unit × StakeTask)}
    (ran : (StakeTask.run snapshot).Runs task (given ++ rest) ending) {c c' : Chain}
    (serves : Serves c given c') : ∃ batches, c.Progress batches c' := by
  by_cases unsent : callsOf Request.isSubmission given = []
  · exact ⟨[], (serves.quiet unsent).progress⟩
  obtain ⟨step, hstep⟩ := List.exists_mem_of_ne_nil _ unsent
  obtain ⟨hmem, hasks⟩ := List.mem_filter.1 hstep
  obtain ⟨before, after, rfl⟩ := List.append_of_mem hmem
  rcases step with ⟨q, answer⟩ | e
  · cases q with
    | submit sender txs fees =>
      have broadcast := StakeTask.run_broadcast ran
      rw [List.append_assoc, List.cons_append] at broadcast
      obtain ⟨batch, prepared, _, sublist, awaited⟩ := broadcast.prepared
      obtain ⟨m, hbefore, hrest⟩ := Serves.append_iff.1 serves
      cases hrest with
      | @asked _ n _ _ _ _ served hafter =>
        have quiet : callsOf Request.isSubmission after = [] := by
          have h := awaited.kinds.1
          rw [callsOf_calls, callsOf_append, List.append_eq_nil_iff] at h
          exact h.1
        -- All that a run does before and after its one batch leaves the minipools alone.
        have hfirst := (hbefore.quiet
          (StakeTask.sending_eq_nil (StakeTask.prepared_unsent prepared)).1).progress
        have hlast := (hafter.quiet quiet).progress
        obtain ⟨prelaunch, single⟩ := prepared_recipients hbefore prepared sublist
        rcases served.submission rfl with rfl | ⟨hashes, hsubmit⟩
        · exact ⟨_, hfirst.trans hlast⟩
        · exact ⟨_, hfirst.trans ((Chain.submit_progress hsubmit prelaunch single).trans hlast)⟩
    | _ => cases hasks
  · cases hasks

/-! ## Whole ticks -/

/-- Whether every part of a run that a chain takes part in, broken off or not, only stakes what was
not staked before. -/
def Conducts {α : Type} (m : Routine α) : Prop :=
  ∀ given rest ending, m.Runs (given ++ rest) ending →
    ∀ c c', Serves c given c' → ∃ batches, c.Progress batches c'

namespace Conducts
variable {α β : Type} {m : Routine α}

theorem of_keeps {post : α → Prop}
    (h : m.Keeps (.asking fun q => q.isSubmission = false) post) : Conducts m := by
  intro given rest ending ran c c' serves
  refine ⟨[], (serves.quiet (callsOf_eq_nil_of_calls fun q answer hq => ?_)).progress⟩
  exact h.asked ran (Conduct.trusted_asking _ _) (List.mem_append_left rest hq)

theorem bind {f : α → Routine β} (h : Conducts m) (hf : ∀ a, Conducts (f a)) :
    Conducts (m >>= f) := by
  intro given rest ending ran c c' serves
  rcases Routine.Runs.bind_iff.1 ran with ⟨_, _, hm⟩ | ⟨a, first, second, same, hm, hsecond⟩
  · exact h given rest _ hm c c' serves
  -- The part that the chain takes part in ends within the first routine or after it.
  rcases List.append_eq_append_iff.1 same with ⟨more, rfl, _⟩ | ⟨more, rfl, rfl⟩
  · exact h given more _ hm c c' serves
  · obtain ⟨n, hfirst, hmore⟩ := Serves.append_iff.1 serves
    rw [← List.append_nil first] at hm
    obtain ⟨batches, hbefore⟩ := h first [] _ hm c n hfirst
    obtain ⟨others, hafter⟩ := hf a more rest ending hsecond n c' hmore
    exact ⟨_, hbefore.trans hafter⟩

theorem pure (a : α) : Conducts (Pure.pure a : Routine α) := by
  have h : (Pure.pure a : Routine α).Keeps (.asking fun q => q.isSubmission = false)
      fun _ => True := Routine.keeps_pure trivial
  exact of_keeps h

theorem note (e : Event) : Conducts (Routine.note e) := of_keeps Routine.keeps_note

end Conducts

theorem daemonTask_conducts (snapshot : NetworkSnapshot) (task : DaemonTask) :
    Conducts ((DaemonTask.run snapshot).run.run task) := by
  cases task with
  | stake task =>
    have h : Conducts ((StakeTask.run snapshot).run.run task) :=
      fun _ _ _ ran _ _ serves => run_progress ran serves
    exact h.bind fun _ => .pure _
  | exit task =>
    have outside (q : Request) (h : q.isExecution = false) : q.isSubmission = false := by
      cases q <;> first
        | rfl
        | cases h
    have h : Conducts ((ExitTask.run snapshot).run.run task) :=
      .of_keeps (ExitTask.run_keeps outside (fun _ => trivial) task)
    exact h.bind fun _ => .pure _

theorem runTasks_conducts (snapshot : NetworkSnapshot) (tasks : List DaemonTask) :
    Conducts (TaskLoop.runTasks snapshot tasks) := by
  induction tasks with
  | nil => exact .pure _
  | cons task rest ih =>
    refine (Conducts.note _).bind fun _ => ?_
    refine (daemonTask_conducts snapshot task).bind fun outcome => ?_
    obtain ⟨_ | _, next⟩ := outcome
    · exact (Conducts.note _).bind fun _ => ih.bind fun _ => .pure _
    · exact ih.bind fun _ => .pure _

theorem collect_conducts (runner : QueryRunner) : Conducts runner.collect.run := by
  have hprepare : snapshotQuery.prepare.Meets (fun q => q.isRead = true) fun _ => True :=
    (refreshRegistries_meets fun _ => rfl).bind fun _ _ => FailingRoutine.meets_pure trivial
  have hquery := (runner.run_meets snapshotQuery hprepare).mono
    (q := fun q => q.isSubmission = false) fun q h => Request.unsent_of_isRead h
  have hkeeps : (runner.run snapshotQuery).Keeps (.asking fun q => q.isSubmission = false)
      fun _ => True := Routine.Meets.keeps hquery
  exact .of_keeps (QueryRunner.collect_keeps (hkeeps.mono fun _ _ _ _ => trivial))

/-- The same holds of any part of a tick. -/
theorem tick_conducts (loop : TaskLoop DaemonTask) : Conducts loop.tick := by
  have check (layer : Layer) (answer : Except CallError SyncStatus) :
      Conducts (TaskLoop.checkSync layer answer) := by
    unfold TaskLoop.checkSync
    rcases answer with e | status
    · exact (Conducts.note _).bind fun _ => .pure _
    · dsimp only
      split
      · exact .pure _
      · exact (Conducts.note _).bind fun _ => .pure _
  have asking (q : Request) (h : q.isSubmission = false) : Conducts (Routine.attempt q) :=
    .of_keeps (Routine.keeps_attempt h)
  unfold TaskLoop.tick
  refine (asking .executionSync rfl).bind fun answer => (check _ answer).bind fun synced => ?_
  split
  · exact .pure _
  refine (asking .consensusSync rfl).bind fun answer => (check _ answer).bind fun synced => ?_
  split
  · exact .pure _
  refine (collect_conducts loop.runner).bind fun outcome => ?_
  rcases outcome with e | snapshot
  · exact (Conducts.note _).bind fun _ => .pure _
  · exact (runTasks_conducts snapshot loop.tasks).bind fun _ => .pure _

/-! ## Any number of acts -/

/-- Something that is done with a chain: a change from outside, a tick of a loop, or a run of a task
on any snapshot. Ticks and runs may be broken off during a call. -/
inductive Act : Chain → Chain → Prop
  | change {n n' : Net} {change : Change} {receipt : Rehearsal.Receipt} :
      Rehearsal.changeNet n change = some (n', receipt) → Act n.chain n'.chain
  | tick {loop : TaskLoop DaemonTask} {given rest : List Step}
      {ending : Ending (TickOutcome × TaskLoop DaemonTask)} {c c' : Chain} :
      loop.tick.Runs (given ++ rest) ending → Serves c given c' → Act c c'
  | run {task : DaemonTask} {snapshot : NetworkSnapshot} {given rest : List Step}
      {ending : Ending (Except TaskError Unit × DaemonTask)} {c c' : Chain} :
      (DaemonTask.run snapshot).Runs task (given ++ rest) ending → Serves c given c' → Act c c'

/-- A chain that acts in a row lead to. -/
inductive Reaches (start : Chain) : Chain → Prop
  | start : Reaches start start
  | act {c c' : Chain} : Reaches start c → Act c c' → Reaches start c'

theorem changeNet_progress {n n' : Net} {change : Change} {receipt : Rehearsal.Receipt}
    (h : Rehearsal.changeNet n change = some (n', receipt)) : n.chain.Progress [] n'.chain := by
  have same {n' : Net} (hsubmitted : n'.chain.submitted = n.chain.submitted)
      (hminipools : n'.chain.minipools = n.chain.minipools) : n.chain.Progress [] n'.chain :=
    .of_minipools hsubmitted [] (by rw [hminipools, List.append_nil])
  cases change with
  | addMinipool record =>
    cases h
    exact .of_minipools rfl [record] rfl
  | advance timestamp =>
    obtain ⟨chain, hchain, h⟩ := Option.map_eq_some_iff.1 h
    cases h
    unfold Chain.advance? at hchain
    split at hchain
    · cases hchain
      exact same rfl rfl
    · cases hchain
  | setFinalized epoch =>
    obtain ⟨beacon, _, h⟩ := Option.map_eq_some_iff.1 h
    cases h
    exact same rfl rfl
  | _ =>
    cases h
    exact same rfl rfl

theorem act_progress {c c' : Chain} (act : Act c c') : ∃ batches, c.Progress batches c' := by
  cases act with
  | change h => exact ⟨[], changeNet_progress h⟩
  | tick ran serves => exact tick_conducts _ _ _ _ ran _ _ serves
  | run ran serves => exact daemonTask_conducts _ _ _ _ _ ran _ _ serves

theorem reaches_progress {start now : Chain} (reached : Reaches start now) :
    ∃ batches, start.Progress batches now := by
  induction reached with
  | start => exact ⟨[], (Chain.Quiet.refl start).progress⟩
  | act _ act ih =>
    obtain ⟨batches, hbefore⟩ := ih
    obtain ⟨more, hafter⟩ := act_progress act
    exact ⟨_, hbefore.trans hafter⟩

/-- No minipool is in two of the batches that a chain executed, and none is twice in one batch if no
two minipools share an address. -/
theorem staked_once {start now : Chain} (reached : Reaches start now) :
    ∃ batches, now.submitted = start.submitted ++ batches ∧
      batches.Pairwise (fun b b' => ∀ a ∈ b.recipients, a ∉ b'.recipients) ∧
        (now.addresses.Nodup → ∀ b ∈ batches, b.recipients.Nodup) := by
  obtain ⟨batches, progress⟩ := reaches_progress reached
  exact ⟨batches, progress.submitted, progress.apart, progress.single⟩

theorem staked_once_firstKey : ∃ now, Reaches (dueNet StakeTask.firstKey [] [] []).chain now ∧
    now.submitted ≠ [] ∧
      ∃ batches, now.submitted = (dueNet StakeTask.firstKey [] [] []).chain.submitted ++ batches ∧
        batches.Pairwise (fun b b' => ∀ a ∈ b.recipients, a ∉ b'.recipients) ∧
          (now.addresses.Nodup → ∀ b ∈ batches, b.recipients.Nodup) := by
  obtain ⟨history, next, now, ran, serves, hsubmitted⟩ := due_staked StakeTask.firstKey_checked
  have daemon : (DaemonTask.run (StakeTask.dueSnapshot StakeTask.firstKey)).Runs
      (.stake StakeTask.eagerTask) (history ++ []) (.done (.ok (), .stake next)) :=
    Routine.Runs.bind_iff.2 (.inr ⟨_, history, [], rfl, ran, rfl, rfl⟩)
  have reached := Reaches.start.act (.run daemon serves)
  exact ⟨now, reached, hsubmitted, staked_once reached⟩

end StakeKeeper.Devnet
