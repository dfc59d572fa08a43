import StakeKeeper.Time

/-!
Which stakes to send at the current gas price. Below the threshold all are sent; at or above it only
those that have waited for more than a share of the launch timeout. Main statements:
`mustForce_iff` (the share is compared exactly) and `mem_forcedFrom_iff` (the forced indices).
-/
namespace StakeKeeper
set_option autoImplicit false

/-- The operator's choices for stakes. -/
structure StakePolicy where
  /-- The share of the launch timeout, in percent, after which the gas price no longer counts. -/
  forcePercent : UInt32
  /-- The gas price from which on stakes that are not urgent wait; zero turns the check off. -/
  gasThreshold : UInt64
  /-- The fee cap of stakes that are not urgent; zero takes the network's estimate. -/
  maxFee : UInt64
  priorityFee : UInt64
  deriving DecidableEq

/-- What to do with a batch of stakes. -/
inductive SubmissionDecision where
  /-- Nothing is urgent and gas is too expensive. -/
  | skip
  | submitAll
  /-- Only the entries at these indices are sent. -/
  | submitForced (indices : List Nat)
  deriving DecidableEq

/-- Whether a minipool that has waited for `elapsed` must be staked now: its wait exceeds the share
of the timeout, which is cut to whole nanoseconds. -/
def mustForce (elapsed timeout : Duration) (percent : UInt32) : Bool :=
  elapsed.nanos > timeout.nanos * percent.toNat / 100

/-- The indices, from `i` on, of the waits that force a stake. -/
def forcedFrom (timeout : Duration) (percent : UInt32) : Nat → List Duration → List Nat
  | _, [] => []
  | i, elapsed :: rest =>
    let later := forcedFrom timeout percent (i + 1) rest
    if mustForce elapsed timeout percent then i :: later else later

/-- The decision for a batch whose entries have waited as given. -/
def submissionDecision (elapsed : List Duration) (timeout : Duration) (percent : UInt32)
    (estimate threshold : UInt64) : SubmissionDecision :=
  if threshold = 0 ∨ estimate < threshold then .submitAll
  else
    match forcedFrom timeout percent 0 elapsed with
    | [] => .skip
    | indices => .submitForced indices

/-! ## The force line -/

theorem mustForce_iff {elapsed timeout : Duration} {percent : UInt32} :
    mustForce elapsed timeout percent = true ↔
      100 * elapsed.nanos > percent.toNat * timeout.nanos := by
  rw [mustForce, decide_eq_true_iff, gt_iff_lt, gt_iff_lt, Nat.div_lt_iff_lt_mul (by decide),
    Nat.mul_comm timeout.nanos, Nat.mul_comm elapsed.nanos]

theorem forcedFrom_eq (timeout : Duration) (percent : UInt32) (i : Nat) (elapsed : List Duration) :
    forcedFrom timeout percent i elapsed =
      ((elapsed.zipIdx i).filter fun e => mustForce e.1 timeout percent).map Prod.snd := by
  induction elapsed generalizing i with
  | nil => rfl
  | cons e rest ih =>
    by_cases h : mustForce e timeout percent <;> simp [forcedFrom, List.zipIdx_cons, ih, h]

theorem mem_forcedFrom_iff {timeout : Duration} {percent : UInt32} {elapsed : List Duration}
    {i : Nat} : i ∈ forcedFrom timeout percent 0 elapsed ↔
      ∃ e, elapsed[i]? = some e ∧ mustForce e timeout percent = true := by
  rw [forcedFrom_eq, List.mem_map]
  constructor
  · rintro ⟨⟨e, _⟩, he, rfl⟩
    obtain ⟨hmem, forced⟩ := List.mem_filter.1 he
    exact ⟨e, List.mem_zipIdx_iff_getElem?.1 hmem, forced⟩
  · rintro ⟨e, he, forced⟩
    exact ⟨(e, i), List.mem_filter.2 ⟨List.mem_zipIdx_iff_getElem?.2 he, forced⟩, rfl⟩

theorem forcedFrom_pairwise (timeout : Duration) (percent : UInt32) (i : Nat)
    (elapsed : List Duration) : (forcedFrom timeout percent i elapsed).Pairwise (· < ·) := by
  have indices : (elapsed.zipIdx i).map Prod.snd = List.range' i elapsed.length :=
    List.zipIdx_map_snd i elapsed
  rw [forcedFrom_eq]
  refine List.Pairwise.sublist (List.filter_sublist.map Prod.snd) ?_
  rw [indices]
  exact List.pairwise_lt_range' 1

end StakeKeeper
