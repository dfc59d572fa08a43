import Mathlib.Algebra.Group.Nat.Defs
import StakeKeeper.Minipool
import StakeKeeper.Stake.Policy

/-!
Which stakes are urgent. Main statements: `mustForceInWords?_eq` (words of 128 bits hold all that
the force line is computed from), `mustForce_mono` (what is urgent stays so) and `urgency_lasts`
(the line is exact, and the urgent entries of a list stay urgent).
-/
namespace StakeKeeper
set_option autoImplicit false

/-! ## Words -/

abbrev Word := BitVec 128

namespace Word

def add? (a b : Word) : Option Word := if BitVec.uaddOverflow a b then none else some (a + b)

def mul? (a b : Word) : Option Word := if BitVec.umulOverflow a b then none else some (a * b)

theorem toNat_ofNat {n : Nat} (h : n < 2 ^ 128) : (BitVec.ofNat 128 n).toNat = n := by
  rw [BitVec.toNat_ofNat, Nat.mod_eq_of_lt h]

theorem add?_ofNat {a b : Nat} (h : a + b < 2 ^ 128) :
    add? (.ofNat 128 a) (.ofNat 128 b) = some (.ofNat 128 (a + b)) := by
  have hfits : BitVec.uaddOverflow (.ofNat 128 a) (.ofNat 128 b) = false := by
    rw [BitVec.uaddOverflow, toNat_ofNat (by omega), toNat_ofNat (by omega)]
    exact decide_eq_false (by omega)
  rw [add?, hfits, if_neg Bool.false_ne_true, BitVec.ofNat_add]

theorem mul?_ofNat {a b : Nat} (ha : a < 2 ^ 128) (hb : b < 2 ^ 128) (h : a * b < 2 ^ 128) :
    mul? (.ofNat 128 a) (.ofNat 128 b) = some (.ofNat 128 (a * b)) := by
  have hfits : BitVec.umulOverflow (.ofNat 128 a) (.ofNat 128 b) = false := by
    rw [BitVec.umulOverflow, toNat_ofNat ha, toNat_ofNat hb]
    exact decide_eq_false (by omega)
  rw [mul?, hfits, if_neg Bool.false_ne_true, BitVec.ofNat_mul]

end Word

/-- The nanoseconds of a span in a word, from its seconds and the nanoseconds beyond them. -/
def Duration.word? (d : Duration) : Option Word := do
  let whole ← Word.mul? (.ofNat 128 d.secs) (.ofNat 128 1000000000)
  Word.add? whole (.ofNat 128 d.subNanos)

theorem Duration.word?_eq (d : Duration) : d.word? = some (.ofNat 128 d.nanos) := by
  have hsecs := d.secs_lt
  have hsub := d.subNanos_lt
  have hparts : d.secs * 1000000000 + d.subNanos = d.nanos := by unfold secs subNanos; omega
  unfold word?
  rw [Word.mul?_ofNat (by omega) (by decide) (by omega), Option.bind_eq_bind, Option.bind_some,
    Word.add?_ofNat (by omega), hparts]

/-- Whether a minipool must be staked now, in words; none if something does not fit. -/
def mustForceInWords? (elapsed timeout : Duration) (percent : UInt32) : Option Bool := do
  let waited ← elapsed.word?
  let full ← timeout.word?
  let share ← Word.mul? full (.ofNat 128 percent.toNat)
  pure (decide (share / 100 < waited))

theorem share_lt (timeout : Duration) (percent : UInt32) :
    timeout.nanos * percent.toNat < 2 ^ 128 := by
  have hle : timeout.nanos * percent.toNat ≤ 0x10000000000000000 * 1000000000 * 2 ^ 32 :=
    Nat.mul_le_mul (Nat.le_of_lt timeout.bounded) (Nat.le_of_lt percent.toNat_lt)
  omega

/-- No product of the comparison is out of range of 128-bit words. -/
theorem mustForceInWords?_eq (elapsed timeout : Duration) (percent : UInt32) :
    mustForceInWords? elapsed timeout percent = some (mustForce elapsed timeout percent) := by
  have helapsed := elapsed.bounded
  have htimeout := timeout.bounded
  have hpercent := percent.toNat_lt
  have hshare := share_lt timeout percent
  unfold mustForceInWords?
  rw [elapsed.word?_eq, timeout.word?_eq]
  simp only [Option.bind_eq_bind, Option.bind_some]
  rw [Word.mul?_ofNat (by omega) (by omega) hshare, Option.bind_some]
  refine congrArg some (decide_eq_decide.2 ?_)
  rw [BitVec.lt_def, BitVec.toNat_udiv, Word.toNat_ofNat hshare, Word.toNat_ofNat (by omega)]
  exact Iff.rfl

/-! ## What is urgent -/

/-- What must be sent still must with more time elapsed, a shorter timeout or a smaller percentage.
-/
theorem mustForce_mono {elapsed longer timeout shorter : Duration} {percent smaller : UInt32}
    (h : mustForce elapsed timeout percent = true) (helapsed : elapsed ≤ longer)
    (htimeout : shorter ≤ timeout) (hpercent : smaller ≤ percent) :
    mustForce longer shorter smaller = true := by
  have hnanos : elapsed.nanos ≤ longer.nanos := helapsed
  rw [mustForce_iff] at h ⊢
  calc smaller.toNat * shorter.nanos
      ≤ percent.toNat * timeout.nanos := Nat.mul_le_mul (UInt32.le_iff_toNat_le.1 hpercent) htimeout
    _ < 100 * elapsed.nanos := h
    _ ≤ 100 * longer.nanos := Nat.mul_le_mul_left 100 hnanos

theorem MinipoolRecord.timeInStatus_mono (r : MinipoolRecord) {now later : Instant}
    (hle : now ≤ later) : r.timeInStatus now ≤ r.timeInStatus later := by
  have hnanos : now.nanos ≤ later.nanos := hle
  show (now.nanos - r.statusTime.nanos).toNat ≤ (later.nanos - r.statusTime.nanos).toNat
  omega

/-! ## Lists -/

/-- What a decision comes to for records at a time, where gas is too expensive for stakes that are
not urgent: the indices are those of the urgent records. -/
structure Urges (records : List MinipoolRecord) (now : Instant) (timeout : Duration)
    (percent : UInt32) (decision : SubmissionDecision) (indices : List Nat) : Prop where
  decided : decision = if indices = [] then .skip else .submitForced indices
  urgent : ∀ i, i ∈ indices ↔
    ∃ r, records[i]? = some r ∧ mustForce (r.timeInStatus now) timeout percent = true
  increasing : indices.Pairwise (· < ·)
  in_range : ∀ i ∈ indices, i < records.length
  nonempty : decision ≠ .submitForced []

section
variable {records : List MinipoolRecord} {now : Instant} {timeout : Duration} {percent : UInt32}
  {decision : SubmissionDecision} {indices : List Nat}

theorem submissionDecision_urges {estimate threshold : UInt64} (on : threshold ≠ 0)
    (reached : threshold ≤ estimate) :
    ∃ indices, Urges records now timeout percent
      (submissionDecision (records.map (·.timeInStatus now)) timeout percent estimate threshold)
      indices := by
  let waits := records.map (·.timeInStatus now)
  have decided : submissionDecision waits timeout percent estimate threshold =
      if forcedFrom timeout percent 0 waits = [] then .skip
      else .submitForced (forcedFrom timeout percent 0 waits) := by
    rw [submissionDecision, if_neg (not_or.2 ⟨on, UInt64.not_lt.2 reached⟩)]
    cases forcedFrom timeout percent 0 waits <;> rfl
  have urgent (i : Nat) : i ∈ forcedFrom timeout percent 0 waits ↔
      ∃ r, records[i]? = some r ∧ mustForce (r.timeInStatus now) timeout percent = true := by
    rw [mem_forcedFrom_iff, List.getElem?_map]
    constructor
    · rintro ⟨_, hwait, forced⟩
      obtain ⟨r, hr, rfl⟩ := Option.map_eq_some_iff.1 hwait
      exact ⟨r, hr, forced⟩
    · rintro ⟨r, hr, forced⟩
      exact ⟨_, Option.map_eq_some_iff.2 ⟨r, hr, rfl⟩, forced⟩
  refine ⟨_, decided, urgent, forcedFrom_pairwise .., fun i hi => ?_, fun h => ?_⟩
  · obtain ⟨r, hr, _⟩ := (urgent i).1 hi
    exact (List.getElem?_eq_some_iff.1 hr).1
  · rw [decided] at h
    split at h
    · cases h
    · next hne => exact hne (SubmissionDecision.submitForced.inj h)

theorem Urges.later {t : Instant} {decision' : SubmissionDecision} {more : List Nat}
    (urges : Urges records now timeout percent decision indices)
    (urges' : Urges records t timeout percent decision' more) (hle : now ≤ t) :
    indices ⊆ more := by
  intro i hi
  obtain ⟨r, hr, forced⟩ := (urges.urgent i).1 hi
  have hwait := r.timeInStatus_mono hle
  exact (urges'.urgent i).2 ⟨r, hr, mustForce_mono forced hwait (Nat.le_refl _) (UInt32.le_refl _)⟩

end

/-! ## Both together -/

/-- Whether the force line is exact for a wait, a timeout and a share: all it is computed from fits
a word, and cutting the share to whole nanoseconds loses nothing. -/
structure ForceLineExact (elapsed timeout : Duration) (percent : UInt32) : Prop where
  fits : timeout.nanos * percent.toNat < 2 ^ 128
  in_words : mustForceInWords? elapsed timeout percent = some (mustForce elapsed timeout percent)
  compared : mustForce elapsed timeout percent = true ↔
    100 * elapsed.nanos > percent.toNat * timeout.nanos

/-- The force line is exact, and what is past it stays so: later, for a smaller share and for a
shorter timeout. -/
theorem urgency_lasts :
    (∀ elapsed timeout percent, ForceLineExact elapsed timeout percent) ∧
      (∀ (r : MinipoolRecord) now timeout percent,
        mustForce (r.timeInStatus now) timeout percent = true →
          ∀ later shorter smaller, now ≤ later → shorter ≤ timeout → smaller ≤ percent →
            mustForce (r.timeInStatus later) shorter smaller = true) ∧
      ∀ (records : List MinipoolRecord) timeout percent (estimate threshold : UInt64),
        threshold ≠ 0 → threshold ≤ estimate →
          let decision (t : Instant) := submissionDecision (records.map (·.timeInStatus t)) timeout
            percent estimate threshold
          ∀ now, ∃ indices, Urges records now timeout percent (decision now) indices ∧
            ∀ later, now ≤ later → ∃ more,
              Urges records later timeout percent (decision later) more ∧ indices ⊆ more := by
  refine ⟨fun elapsed timeout percent => ?_, ?_, ?_⟩
  · exact ⟨share_lt timeout percent, mustForceInWords?_eq elapsed timeout percent, mustForce_iff⟩
  · intro r now timeout percent forced later shorter smaller hle htimeout hpercent
    exact mustForce_mono forced (r.timeInStatus_mono hle) htimeout hpercent
  · intro records timeout percent estimate threshold on reached decision now
    obtain ⟨indices, urges⟩ : ∃ indices, Urges records now timeout percent (decision now) indices :=
      submissionDecision_urges on reached
    refine ⟨indices, urges, fun later hle => ?_⟩
    obtain ⟨more, urges'⟩ : ∃ more, Urges records later timeout percent (decision later) more :=
      submissionDecision_urges on reached
    exact ⟨more, urges', urges.later urges' hle⟩

/-- Of two minipools one is past the line by a nanosecond, and a second later both are. -/
theorem urgency_lasts_byOneNanosecond :
    let first := MinipoolRecord.empty (Bytes.zero 20) (Bytes.zero 20)
    let second := { first with statusTime := ⟨1000000000, by decide, by decide⟩ }
    let now : Instant := ⟨5000000001, by decide, by decide⟩
    let later : Instant := ⟨6000000001, by decide, by decide⟩
    let decision (t : Instant) :=
      submissionDecision ([first, second].map (·.timeInStatus t)) (.ofSecs 10) 50 150 150
    mustForce (first.timeInStatus now) (.ofSecs 10) 50 = true ∧
      mustForce (first.timeInStatus later) (.ofSecs 9) 49 = true ∧
      decision now = .submitForced [0] ∧ decision later = .submitForced [0, 1] ∧
      ∃ indices, Urges [first, second] now (.ofSecs 10) 50 (decision now) indices ∧
        ∃ more, Urges [first, second] later (.ofSecs 10) 50 (decision later) more ∧
          indices ⊆ more := by
  intro first second now later decision
  have hle : now ≤ later := by decide
  have forced : mustForce (first.timeInStatus now) (.ofSecs 10) 50 = true := by decide
  obtain ⟨_, still, chosen⟩ := urgency_lasts
  obtain ⟨indices, urges, lasts⟩ :=
    chosen [first, second] (.ofSecs 10) 50 150 150 (by decide) (by decide) now
  refine ⟨forced, ?_, by decide, by decide, indices, urges, lasts later hle⟩
  exact still first now _ _ forced later (.ofSecs 9) 49 hle (by decide) (by decide)

end StakeKeeper
