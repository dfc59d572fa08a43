import StakeKeeper.Proofs.Query.Range
import StakeKeeper.Stake.Task

/-!
What the staking task may do. Main statement: `StakeTask.run_inRange` (it does not crash while the
answers are in range).
-/
namespace StakeKeeper
set_option autoImplicit false

/-! ## Views in range -/

/-- Whether no time that is computed from a view is out of range. -/
structure StakeView.Timely (view : StakeView) : Prop where
  timed : view.header.timestamp.toNat < secondsBound
  reviewed : ∀ r ∈ view.validators, ∃ e, r.reviewEnd? view.settings.scrubPeriod = some e

theorem stakeQuery_timely {latest width : Nat} {values : List ReadValue} {settings : NetworkSettings}
    {gathered : Gathered} {view : StakeView}
    (supports : stakeQuery.Supports latest width values settings gathered view) : view.Timely := by
  obtain ⟨scrub, hscrub, hbound⟩ := decodeSettings_inRange supports.read supports.decoded
  have hfinish := supports.finished
  unfold stakeQuery at hfinish
  dsimp only at hfinish
  split at hfinish
  · cases hfinish
    refine ⟨supports.timed, fun r hr => ?_⟩
    rw [hscrub]
    exact MinipoolRecord.reviewEnd?_eq_some (supports.changed r hr) hbound
  · cases hfinish

section
variable {now : Instant} {scrub : Duration} {records : List MinipoolRecord}

theorem MinipoolRecord.isReady?_eq_some {r : MinipoolRecord} (now : Instant)
    (h : r.status = .prelaunch → ∃ e, r.reviewEnd? scrub = some e) :
    ∃ ready, r.isReady? now scrub = some ready := by
  unfold isReady?
  by_cases hs : r.status = .prelaunch
  · obtain ⟨e, he⟩ := h hs
    rw [if_pos hs, he]
    exact ⟨_, rfl⟩
  · rw [if_neg hs]
    exact ⟨false, rfl⟩

theorem stakeCandidates?_eq_some
    (h : ∀ r ∈ records, r.status = .prelaunch → ∃ e, r.reviewEnd? scrub = some e) :
    ∃ ready, stakeCandidates? now scrub records = some ready := by
  induction records with
  | nil => exact ⟨[], rfl⟩
  | cons r rest ih =>
    obtain ⟨ready, hready⟩ := MinipoolRecord.isReady?_eq_some now (h r List.mem_cons_self)
    obtain ⟨later, hlater⟩ := ih fun s hs => h s (List.mem_cons_of_mem r hs)
    simp [stakeCandidates?, hready, hlater]

theorem reviewEvents?_eq_some
    (h : ∀ r ∈ records, r.status = .prelaunch → ∃ e, r.reviewEnd? scrub = some e) :
    ∃ events, StakeTask.reviewEvents? now scrub records = some events := by
  induction records with
  | nil => exact ⟨[], rfl⟩
  | cons r rest ih =>
    obtain ⟨ready, hready⟩ := MinipoolRecord.isReady?_eq_some now (h r List.mem_cons_self)
    obtain ⟨later, hlater⟩ := ih fun s hs => h s (List.mem_cons_of_mem r hs)
    by_cases hs : r.status = .prelaunch
    · obtain ⟨e, he⟩ := h r List.mem_cons_self hs
      have hremaining : r.remainingReview? now scrub = some (e.since now) := by
        rw [MinipoolRecord.remainingReview?, he, Option.map_some]
      cases ready <;> simp [StakeTask.reviewEvents?, hs, hready, hremaining, hlater]
    · simp [StakeTask.reviewEvents?, hs, hlater]

end

/-! ## What may be staked -/

section
-- The range of instants is never computed with below.
seal Instant.ofNanos?

/-- The view's time and the records in it that may be staked; none if a time is out of range. -/
def StakeView.eligible? (view : StakeView) : Option (Instant × List MinipoolRecord) := do
  let now ← view.header.time?
  let records ← stakeCandidates? now view.settings.scrubPeriod view.validators
  let _ ← StakeTask.reviewEvents? now view.settings.scrubPeriod view.validators
  pure (now, records)

section
variable {now : Instant} {scrub : Duration} {records ready : List MinipoolRecord}

theorem MinipoolRecord.reviewEnd?_of_isReady? {r : MinipoolRecord} {b : Bool}
    (h : r.isReady? now scrub = some b) (hs : r.status = .prelaunch) :
    ∃ e, r.reviewEnd? scrub = some e := by
  unfold isReady? at h
  rw [if_pos hs] at h
  obtain ⟨e, he, _⟩ := Option.map_eq_some_iff.1 h
  exact ⟨e, he⟩

theorem stakeCandidates?_inv (h : stakeCandidates? now scrub records = some ready) :
    (∀ r ∈ records, r.status = .prelaunch → ∃ e, r.reviewEnd? scrub = some e) ∧
      ready = records.filter fun r => r.isReady? now scrub = some true := by
  induction records generalizing ready with
  | nil =>
    cases h
    exact ⟨fun _ hr => (nomatch hr), rfl⟩
  | cons first rest ih =>
    obtain ⟨isReady, hfirst, h⟩ := Option.bind_eq_some_iff.1 h
    obtain ⟨later, hlater, h⟩ := Option.bind_eq_some_iff.1 h
    obtain ⟨hreviewed, rfl⟩ := ih hlater
    cases h
    refine ⟨fun r hr hs => ?_, ?_⟩
    · rcases List.mem_cons.1 hr with rfl | hr
      · exact MinipoolRecord.reviewEnd?_of_isReady? hfirst hs
      · exact hreviewed r hr hs
    · rw [List.filter_cons, hfirst]
      cases isReady <;> rfl

end

theorem StakeView.eligible?_eq_some_iff {view : StakeView} {now : Instant}
    {records : List MinipoolRecord} :
    view.eligible? = some (now, records) ↔ view.header.time? = some now ∧
      (∀ r ∈ view.validators, r.status = .prelaunch →
        ∃ e, r.reviewEnd? view.settings.scrubPeriod = some e) ∧
      records = view.validators.filter fun r =>
        r.isReady? now view.settings.scrubPeriod = some true := by
  constructor
  · intro h
    obtain ⟨_, htime, h⟩ := Option.bind_eq_some_iff.1 h
    obtain ⟨_, hready, h⟩ := Option.bind_eq_some_iff.1 h
    obtain ⟨_, _, h⟩ := Option.bind_eq_some_iff.1 h
    cases h
    exact ⟨htime, stakeCandidates?_inv hready⟩
  · rintro ⟨htime, hreviewed, rfl⟩
    obtain ⟨ready, hready⟩ :
        ∃ ready, stakeCandidates? now view.settings.scrubPeriod view.validators = some ready :=
      stakeCandidates?_eq_some hreviewed
    obtain ⟨events, hevents⟩ : ∃ events, StakeTask.reviewEvents? now view.settings.scrubPeriod
        view.validators = some events := reviewEvents?_eq_some hreviewed
    rw [eligible?, htime, Option.bind_eq_bind, Option.bind_some, hready, Option.bind_eq_bind,
      Option.bind_some, hevents, (stakeCandidates?_inv hready).2]
    rfl

end

/-! ## The task -/

namespace StakeTask

section
-- The range of instants is never computed with below.
seal Instant.ofNanos?

section
variable {k : Conduct} (free : ∀ q, k.asks q)
include free

theorem domain_keeps : domain.Keeps k fun _ => True := by
  refine StatefulRoutine.keeps_get.bind fun task _ => ?_
  split
  · exact StatefulRoutine.keeps_pure trivial
  · refine (StatefulRoutine.keeps_call (free _)).bind fun config _ => ?_
    exact StatefulRoutine.keeps_modify.bind fun _ _ => StatefulRoutine.keeps_pure trivial

theorem buildEntries_keeps (domain : Root) (now : Instant) (records : List MinipoolRecord) :
    (buildEntries domain now records).Keeps k fun _ => True := by
  induction records with
  | nil => exact FailingRoutine.keeps_pure trivial
  | cons record rest ih =>
    refine (FailingRoutine.keeps_call (free _)).bind fun loaded _ => ?_
    rcases loaded with _ | key
    · exact FailingRoutine.keeps_throw
    · refine (FailingRoutine.keeps_ofExcept fun _ _ => trivial).bind fun entry _ => ?_
      exact ih.bind fun _ _ => FailingRoutine.keeps_pure trivial

theorem simulateEntries_keeps (sender : Transactor) (entries : List StakeEntry) :
    (simulateEntries sender entries).Keeps k fun _ => True := by
  induction entries with
  | nil => exact FailingRoutine.keeps_pure trivial
  | cons entry rest ih =>
    refine (FailingRoutine.keeps_ofRoutine (Routine.keeps_attempt (free _))).bind
      fun answer _ => ?_
    split
    · exact FailingRoutine.keeps_throw
    · exact FailingRoutine.keeps_throw
    · exact ih.bind fun _ _ => FailingRoutine.keeps_pure trivial

theorem send_keeps (sender : Transactor) (entries : List StakeEntry) (fees : FeeSettings) :
    (send sender entries fees).Keeps k fun _ => True := by
  refine (FailingRoutine.keeps_ofRoutine (Routine.keeps_noteAll _)).bind fun _ _ => ?_
  refine (FailingRoutine.keeps_call (free _)).bind fun hashes _ => ?_
  exact (FailingRoutine.keeps_call (free _)).bind fun _ _ => FailingRoutine.keeps_note

theorem submit_keeps (policy : StakePolicy) (view : StakeView) (entries : List StakeEntry) :
    (submit policy view entries).Keeps k fun _ => True := by
  refine (FailingRoutine.keeps_call (free _)).bind fun estimate _ => ?_
  dsimp only
  split
  · exact FailingRoutine.keeps_note
  · exact send_keeps free _ _ _
  · exact FailingRoutine.keeps_note.bind fun _ _ => send_keeps free _ _ _

omit free in
theorem eligible_keeps {view : StakeView} (timely : view.Timely) :
    (eligible view).Keeps k fun _ => True := by
  have reached {α : Type} {r : Option α} (h : ∃ a, r = some a) :
      (FailingRoutine.ofRoutine (.orCrash .timeRange r) : StakeRoutine α).Keeps k
        fun _ => True := by
    obtain ⟨a, rfl⟩ := h
    exact FailingRoutine.keeps_pure trivial
  have htime : ∃ now, view.header.time? = some now :=
    Option.ne_none_iff_exists'.1 (BlockHeader.time?_ne_none timely.timed)
  have reviewed : ∀ r ∈ view.validators, r.status = .prelaunch →
      ∃ e, r.reviewEnd? view.settings.scrubPeriod = some e := fun r hr _ => timely.reviewed r hr
  refine (reached htime).bind fun now _ => ?_
  refine (reached (stakeCandidates?_eq_some reviewed)).bind fun ready _ => ?_
  refine (reached (reviewEvents?_eq_some reviewed)).bind fun events _ => ?_
  refine (FailingRoutine.keeps_ofRoutine (Routine.keeps_noteAll events)).bind fun _ _ => ?_
  exact FailingRoutine.keeps_pure trivial

theorem stakeFrom_keeps {view : StakeView} (timely : view.Timely) :
    (stakeFrom view).Keeps k fun _ => True := by
  refine (StatefulRoutine.keeps_ofFailing (eligible_keeps timely)).bind fun found _ => ?_
  obtain ⟨now, records⟩ := found
  dsimp only
  split
  · exact StatefulRoutine.keeps_pure trivial
  refine (domain_keeps free).bind fun domain _ => ?_
  refine StatefulRoutine.keeps_get.bind fun task _ => StatefulRoutine.keeps_ofFailing ?_
  refine (buildEntries_keeps free domain now records).bind fun entries _ => ?_
  refine (simulateEntries_keeps free view.transactor entries).bind fun simulated _ => ?_
  exact submit_keeps free _ view simulated

omit free in
theorem querying_keeps {α : Type} {m : QueryRoutine α} {post : α → Prop} (h : m.Keeps k post) :
    (querying m).Keeps k post := by
  refine Routine.Keeps.bind h fun r hr => ?_
  intro a ha
  cases r with
  | error e => cases ha
  | ok b =>
    cases ha
    exact hr a rfl

end

theorem stakeQuery_prepare_inRange {latest width : Nat} :
    stakeQuery.prepare.Keeps (inRange latest width) fun _ => True := by
  refine refreshRegistries_inRange.bind fun _ _ => ?_
  refine (FailingRoutine.keeps_ofRoutine (Routine.keeps_attempt trivial)).bind fun answer _ => ?_
  split
  · exact FailingRoutine.keeps_pure trivial
  · exact FailingRoutine.keeps_pure trivial
  · exact FailingRoutine.keeps_throw

/-- A run does not crash while the answers are in range for the pages of its query. -/
theorem run_inRange {latest width : Nat} (hlatest : latest < secondsBound) {task : StakeTask}
    (hwidth : task.runner.pages.addresses.toNat ≤ width) (snapshot : NetworkSnapshot) :
    Routine.Keeps (inRange latest width) (fun _ => True) ((run snapshot).run.run task) := by
  suffices kept : Routine.Keeps (inRange latest width) (fun r => ∀ a, r.1 = .ok a → True)
      ((run snapshot).run.run task) from kept.mono fun _ _ => trivial
  unfold run
  split
  · exact StatefulRoutine.keeps_note task
  refine StatefulRoutine.keeps_get_bind ?_
  have hquery := querying_keeps
    (task.runner.run_inRange stakeQuery hlatest hwidth stakeQuery_prepare_inRange)
  refine (StatefulRoutine.keeps_ofFailing hquery).bind fun outcome houtcome => ?_
  cases outcome with
  | notReady reason => exact StatefulRoutine.keeps_note
  | ready view =>
    obtain ⟨_, _, _, supports⟩ := houtcome view rfl
    have free : ∀ q, (inRange latest width).asks q := fun _ => trivial
    exact stakeFrom_keeps free (stakeQuery_timely supports)

end

end StakeTask

end StakeKeeper
