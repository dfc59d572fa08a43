import Mathlib.Data.List.Basic
import StakeKeeper.Proofs.Stake.Conduct

/-!
The safety review of minipools. Main statements: `MinipoolRecord.remaining_exact` (what is left of a
review is the least span after which it has ended), `ReviewSplit.of_reviewed` (the minipools in
prelaunch are those that may be staked and those that are noted as still in review) and
`review_exact` (both, and that only more may be staked later or under a shorter review).
-/
namespace StakeKeeper
set_option autoImplicit false

-- The range of instants is never computed with below.
seal Instant.ofNanos?

/-! ## One minipool -/

namespace Instant

theorem add?_shorter {t e : Instant} {d shorter : Duration} (h : t.add? d = some e)
    (hle : shorter ≤ d) : ∃ sooner, t.add? shorter = some sooner ∧ sooner ≤ e := by
  rw [add?_eq_some_iff] at h
  have hnanos : shorter.nanos ≤ d.nanos := hle
  have hlower := t.lower
  have hupper := e.upper
  refine ⟨⟨t.nanos + shorter.nanos, by omega, by omega⟩, add?_eq_some_iff.2 rfl, ?_⟩
  show t.nanos + shorter.nanos ≤ e.nanos
  omega

/-- The span up to an instant leads to it, or nowhere if it has passed. -/
theorem add?_since (t e : Instant) :
    ∃ reached, t.add? (e.since t) = some reached ∧ e ≤ reached := by
  by_cases h : e ≤ t
  · refine ⟨t, add?_eq_some_iff.2 ?_, h⟩
    have hle : e.nanos ≤ t.nanos := h
    show t.nanos + ((e.nanos - t.nanos).toNat : Int) = t.nanos
    omega
  · refine ⟨e, add?_eq_some_iff.2 ?_, Int.le_refl _⟩
    have hlt : ¬ e.nanos ≤ t.nanos := h
    show t.nanos + ((e.nanos - t.nanos).toNat : Int) = e.nanos
    omega

end Instant

namespace MinipoolRecord

/-- Whether the review has ended at a time, its very end included. -/
def Reviewed (r : MinipoolRecord) (now : Instant) (scrub : Duration) : Prop :=
  ∃ e, r.reviewEnd? scrub = some e ∧ e ≤ now

section
variable {r : MinipoolRecord} {now e : Instant} {scrub : Duration}

theorem reviewed_iff (h : r.reviewEnd? scrub = some e) : r.Reviewed now scrub ↔ e ≤ now := by
  constructor
  · rintro ⟨e', he', hle⟩
    rw [h] at he'
    cases he'
    exact hle
  · exact fun hle => ⟨e, h, hle⟩

theorem Reviewed.later {t : Instant} (h : r.Reviewed now scrub) (hle : now ≤ t) :
    r.Reviewed t scrub := by
  obtain ⟨e, he, hend⟩ := h
  exact ⟨e, he, Int.le_trans hend hle⟩

theorem Reviewed.shorter {d : Duration} (h : r.Reviewed now scrub) (hle : d ≤ scrub) :
    r.Reviewed now d := by
  obtain ⟨e, he, hend⟩ := h
  obtain ⟨sooner, hsooner, hbefore⟩ := Instant.add?_shorter he hle
  exact ⟨sooner, hsooner, Int.le_trans hbefore hend⟩

/-- Whether a span is exactly what is left of a review. -/
structure RemainingExact (r : MinipoolRecord) (now : Instant) (scrub left : Duration) : Prop where
  reached : ∃ later, now.add? left = some later ∧ r.Reviewed later scrub
  least : ∀ x later, now.add? x = some later → (r.Reviewed later scrub ↔ left ≤ x)
  ready_after : ∀ x later, now.add? x = some later →
    r.isReady? later scrub = some (decide (r.status = .prelaunch ∧ left ≤ x))
  ready_now : r.isReady? now scrub = some (decide (r.status = .prelaunch ∧ left = .zero))

/-- The remaining review is the shortest span after which the minipool is ready. -/
theorem remaining_exact (h : r.reviewEnd? scrub = some e) :
    ∃ left, r.remainingReview? now scrub = some left ∧ r.RemainingExact now scrub left := by
  have hleft : r.remainingReview? now scrub = some (e.since now) := by
    rw [remainingReview?, h, Option.map_some]
  refine ⟨e.since now, hleft, ?_, ?_, ?_, ?_⟩
  · obtain ⟨later, hlater, hend⟩ := now.add?_since e
    exact ⟨later, hlater, (reviewed_iff h).2 hend⟩
  · intro x later hlater
    rw [reviewed_iff h, Instant.le_add?_iff hlater]
  · intro x later hlater
    rw [isReady?_eq_some_iff h, decide_eq_decide]
    exact and_congr_right fun _ => (Instant.le_add?_iff hlater).symm
  · have hzero : r.remainingReview? now scrub = some .zero ↔ e ≤ now :=
      remainingReview?_eq_zero_iff h
    rw [hleft, Option.some.injEq] at hzero
    rw [isReady?_eq_some_iff h, decide_eq_decide]
    exact and_congr_right fun _ => hzero

end

/-- The event for a minipool that is still in review, with what is left of it. -/
def reviewNote? (r : MinipoolRecord) (now : Instant) (scrub : Duration) : Option Event :=
  (r.remainingReview? now scrub).map (.inReview r.address)

end MinipoolRecord

/-! ## A list of minipools -/

/-- The minipools in prelaunch that may not be staked yet, in order. -/
def inReview (now : Instant) (scrub : Duration) (records : List MinipoolRecord) :
    List MinipoolRecord :=
  records.filter fun r => r.status = .prelaunch && !(r.isReady? now scrub = some true)

section
variable {now : Instant} {scrub : Duration} {records ready : List MinipoolRecord}

theorem reviewEvents?_inReview
    (h : ∀ r ∈ records, r.status = .prelaunch → ∃ e, r.reviewEnd? scrub = some e) :
    ∃ events, StakeTask.reviewEvents? now scrub records = some events ∧
      events.map some = (inReview now scrub records).map (·.reviewNote? now scrub) := by
  unfold inReview
  induction records with
  | nil => exact ⟨[], rfl, rfl⟩
  | cons r rest ih =>
    obtain ⟨events, hevents, hnotes⟩ := ih fun s hs => h s (List.mem_cons_of_mem r hs)
    by_cases hs : r.status = .prelaunch
    · obtain ⟨e, he⟩ := h r List.mem_cons_self hs
      have hleft : r.remainingReview? now scrub = some (e.since now) := by
        rw [MinipoolRecord.remainingReview?, he, Option.map_some]
      obtain ⟨isReady, hready⟩ := MinipoolRecord.isReady?_eq_some now fun _ => ⟨e, he⟩
      cases isReady with
      | true =>
        refine ⟨events, by simp [StakeTask.reviewEvents?, hs, hready, hevents], ?_⟩
        rw [hnotes, List.filter_cons_of_neg (by simp [hready])]
      | false =>
        refine ⟨.inReview r.address (e.since now) :: events,
          by simp [StakeTask.reviewEvents?, hs, hready, hleft, hevents], ?_⟩
        rw [List.filter_cons_of_pos (by simp [hs, hready]), List.map_cons, List.map_cons, hnotes,
          MinipoolRecord.reviewNote?, hleft, Option.map_some]
    · refine ⟨events, by simp [StakeTask.reviewEvents?, hs, hevents], ?_⟩
      rw [hnotes, List.filter_cons_of_neg (by simp [hs])]

/-- What a staking task makes of records at a time: those that may be staked, and events for the
others in prelaunch, which are noted. -/
structure ReviewSplit (now : Instant) (scrub : Duration)
    (records ready waiting : List MinipoolRecord) : Prop where
  candidates : stakeCandidates? now scrub records = some ready
  noted : ∃ events : List Event, events.map some = waiting.map (·.reviewNote? now scrub) ∧
    ∀ view : StakeView, view.header.time? = some now → view.settings.scrubPeriod = scrub →
      view.validators = records → ∀ history ending,
        (StakeTask.eligible view).Runs history ending ↔
          history = events.map .noted ∧ ending = .done (.ok (now, ready))
  in_order : ready.Sublist records ∧ waiting.Sublist records
  parts : (ready ++ waiting).Perm (records.filter (·.status = .prelaunch))
  apart : (∀ r ∈ ready, r.Reviewed now scrub) ∧ ∀ r ∈ waiting, ¬ r.Reviewed now scrub

/-- A selection whose times are in range asks nothing and ends. -/
theorem StakeTask.runs_eligible_iff {view : StakeView} {events : List Event}
    (htime : view.header.time? = some now)
    (hready : stakeCandidates? now view.settings.scrubPeriod view.validators = some ready)
    (hevents : reviewEvents? now view.settings.scrubPeriod view.validators = some events)
    {history : List Step} {ending : Ending (Except TaskError (Instant × List MinipoolRecord))} :
    (eligible view).Runs history ending ↔
      history = events.map .noted ∧ ending = .done (.ok (now, ready)) := by
  have found {α β : Type} {r : Option α} {a : α} (h : r = some a) (f : α → StakeRoutine β) :
      (FailingRoutine.ofRoutine (.orCrash .timeRange r) >>= f) = f a := by
    cases h
    rfl
  unfold eligible
  dsimp only
  rw [found htime, found hready, found hevents]
  refine FailingRoutine.runs_noteAll_bind_iff.trans ⟨?_, ?_⟩
  · rintro ⟨_, rfl, rfl, rfl⟩
    exact ⟨List.append_nil _, rfl⟩
  · rintro ⟨rfl, rfl⟩
    exact ⟨[], (List.append_nil _).symm, rfl, rfl⟩

theorem mem_inReview {r : MinipoolRecord} : r ∈ inReview now scrub records ↔
    r ∈ records ∧ r.status = .prelaunch ∧ ¬ r.Reviewed now scrub := by
  rw [inReview, List.mem_filter, Bool.and_eq_true, decide_eq_true_iff, Bool.not_eq_true',
    decide_eq_false_iff_not, MinipoolRecord.isReady?_eq_true_iff]
  exact and_congr_right fun _ => and_congr_right fun hs => not_congr (and_iff_right hs)

theorem filter_prelaunch_filter_ready :
    (records.filter (·.status = .prelaunch)).filter (fun r => r.isReady? now scrub = some true) =
      records.filter fun r => r.isReady? now scrub = some true := by
  rw [List.filter_filter]
  refine List.filter_congr fun r _ => ?_
  rw [Bool.and_eq_left_iff_imp, decide_eq_true_iff, decide_eq_true_iff]
  exact fun hready => (MinipoolRecord.isReady?_eq_true_iff.1 hready).1

/-- While all reviews end in the range of instants, the records in prelaunch are either ready or in
review. -/
theorem ReviewSplit.of_reviewed
    (h : ∀ r ∈ records, r.status = .prelaunch → ∃ e, r.reviewEnd? scrub = some e) :
    ∃ ready, ReviewSplit now scrub records ready (inReview now scrub records) := by
  obtain ⟨ready, hready⟩ : ∃ ready, stakeCandidates? now scrub records = some ready :=
    stakeCandidates?_eq_some h
  obtain ⟨events, hevents, hnotes⟩ : ∃ events, StakeTask.reviewEvents? now scrub records =
      some events ∧ _ := reviewEvents?_inReview h
  refine ⟨ready, hready, ⟨events, hnotes, ?_⟩, ⟨?_, List.filter_sublist⟩, ?_, ?_, ?_⟩
  · rintro view htime rfl rfl history ending
    exact StakeTask.runs_eligible_iff htime hready hevents
  all_goals obtain rfl := (stakeCandidates?_inv hready).2
  · exact List.filter_sublist
  · have parts := List.filter_append_perm (fun r => decide (r.isReady? now scrub = some true))
      (records.filter (·.status = .prelaunch))
    rw [filter_prelaunch_filter_ready, List.filter_filter] at parts
    rwa [inReview, List.filter_congr fun r _ => Bool.and_comm _ _]
  · intro r hr
    exact (MinipoolRecord.isReady?_eq_true_iff.1 (of_decide_eq_true (List.mem_filter.1 hr).2)).2
  · exact fun r hr => (mem_inReview.1 hr).2.2

/-- Where each review that has ended has ended under another look too, no minipool is lost. -/
theorem stakeCandidates?_mono {t : Instant} {d : Duration}
    (hready : stakeCandidates? now scrub records = some ready)
    (h : ∀ r : MinipoolRecord, r.Reviewed now scrub → r.Reviewed t d)
    (hreviewed : ∀ r ∈ records, r.status = .prelaunch → ∃ e, r.reviewEnd? d = some e) :
    ∃ more, stakeCandidates? t d records = some more ∧ ready.Sublist more := by
  obtain ⟨more, hmore⟩ : ∃ more, stakeCandidates? t d records = some more :=
    stakeCandidates?_eq_some hreviewed
  refine ⟨more, hmore, ?_⟩
  obtain rfl := (stakeCandidates?_inv hready).2
  obtain rfl := (stakeCandidates?_inv hmore).2
  refine List.monotone_filter_right records fun r hr => decide_eq_true ?_
  obtain ⟨hs, hended⟩ := MinipoolRecord.isReady?_eq_true_iff.1 (of_decide_eq_true hr)
  exact MinipoolRecord.isReady?_eq_true_iff.2 ⟨hs, h r hended⟩

end

/-! ## Both together -/

/-- What is left of a review is exact, and it tells the minipools in prelaunch apart; only more of
them may be staked later or under a shorter review. -/
theorem review_exact :
    (∀ (r : MinipoolRecord) (now : Instant) (scrub : Duration) (e : Instant),
        r.reviewEnd? scrub = some e →
          ∃ left, r.remainingReview? now scrub = some left ∧ r.RemainingExact now scrub left) ∧
      ∀ (records : List MinipoolRecord) (now : Instant) (scrub : Duration),
        (∀ r ∈ records, r.status = .prelaunch → ∃ e, r.reviewEnd? scrub = some e) →
          ∃ ready waiting, ReviewSplit now scrub records ready waiting ∧
            (∀ later, now ≤ later → ∃ more,
              stakeCandidates? later scrub records = some more ∧ ready.Sublist more) ∧
            ∀ shorter, shorter ≤ scrub → ∃ more,
              stakeCandidates? now shorter records = some more ∧ ready.Sublist more := by
  refine ⟨fun r now scrub e h => MinipoolRecord.remaining_exact h, fun records now scrub h => ?_⟩
  obtain ⟨ready, split⟩ : ∃ ready, ReviewSplit now scrub records ready _ :=
    ReviewSplit.of_reviewed h
  refine ⟨ready, _, split, fun later hle => ?_, fun shorter hle => ?_⟩
  · exact stakeCandidates?_mono split.candidates (fun r ended => ended.later hle) h
  · refine stakeCandidates?_mono split.candidates (fun r ended => ended.shorter hle) ?_
    intro r hr hs
    obtain ⟨e, he⟩ := h r hr hs
    obtain ⟨sooner, hsooner, _⟩ := Instant.add?_shorter he hle
    exact ⟨sooner, hsooner⟩

/-- A minipool that got into prelaunch before the epoch. -/
def earlyRecord : MinipoolRecord :=
  { MinipoolRecord.empty (Bytes.zero 20) (Bytes.zero 20) with
    status := .prelaunch
    statusTime := ⟨-1500000001, by decide, by decide⟩ }

/-- One nanosecond before the epoch, half a second and two nanoseconds are left of a review that
ends after it. -/
theorem review_exact_beforeEpoch :
    let now : Instant := ⟨-1, by decide, by decide⟩
    let scrub : Duration := ⟨2000000002, by decide⟩
    earlyRecord.reviewEnd? scrub = some ⟨500000001, by decide, by decide⟩ ∧
      (∃ left, earlyRecord.remainingReview? now scrub = some left ∧ left.nanos = 500000002 ∧
        earlyRecord.RemainingExact now scrub left) ∧
      ∃ ready waiting, ReviewSplit now scrub [earlyRecord] ready waiting ∧
        (∀ later, now ≤ later → ∃ more,
          stakeCandidates? later scrub [earlyRecord] = some more ∧ ready.Sublist more) ∧
        ∀ shorter, shorter ≤ scrub → ∃ more,
          stakeCandidates? now shorter [earlyRecord] = some more ∧ ready.Sublist more := by
  intro now scrub
  have hend : earlyRecord.reviewEnd? scrub = some ⟨500000001, by decide, by decide⟩ :=
    Instant.add?_eq_some_iff.2 (by decide)
  obtain ⟨left, hleft, exact⟩ := review_exact.1 earlyRecord now scrub _ hend
  have hnanos : left.nanos = 500000002 := by
    rw [MinipoolRecord.remainingReview?, hend] at hleft
    cases hleft
    rfl
  refine ⟨hend, ⟨left, hleft, hnanos, exact⟩, review_exact.2 [earlyRecord] now scrub ?_⟩
  intro r hr _
  cases List.mem_singleton.1 hr
  exact ⟨_, hend⟩

end StakeKeeper
