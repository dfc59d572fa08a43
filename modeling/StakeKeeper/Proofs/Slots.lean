import StakeKeeper.Network

/-!
The slots of the beacon chain. Main statements: `BeaconConfig.slotInWords?_eq` (words of 64 bits
hold all that a slot is computed from), `BeaconConfig.inProgress_iff` (one slot is in progress at a
time, to the nanosecond) and `slot_exact` (both, and that no later time has an earlier slot).
-/
namespace StakeKeeper
set_option autoImplicit false

/-! ## Whole seconds -/

namespace Instant

theorem secs_since_epoch (t : Instant) : (t.since .epoch).secs = t.unixSecs := by
  show (t.nanos - 0).toNat / 1000000000 = t.nanos.toNat / 1000000000
  rw [Int.sub_zero]

/-- Cutting a time to whole seconds moves it across no whole second. -/
theorem le_unixSecs_iff {t : Instant} (h : 0 ≤ t.nanos) (n : Nat) :
    n ≤ t.unixSecs ↔ (n : Int) * 1000000000 ≤ t.nanos := by
  unfold unixSecs
  omega

theorem unixSecs_mono {t later : Instant} (h : t ≤ later) : t.unixSecs ≤ later.unixSecs := by
  have hnanos : t.nanos ≤ later.nanos := h
  unfold unixSecs
  omega

end Instant

/-! ## Words -/

namespace Word64

def sub? (a b : UInt64) : Option UInt64 := if b ≤ a then some (a - b) else none

def div? (a b : UInt64) : Option UInt64 := if b = 0 then none else some (a / b)

theorem sub?_eq {a b : UInt64} (h : b ≤ a) : sub? a b = some (.ofNat (a.toNat - b.toNat)) := by
  rw [sub?, if_pos h, ← UInt64.toNat_sub_of_le a b h, UInt64.ofNat_toNat]

theorem div?_eq {a b : UInt64} (h : b ≠ 0) : div? a b = some (.ofNat (a.toNat / b.toNat)) := by
  rw [div?, if_neg h, ← UInt64.toNat_div, UInt64.ofNat_toNat]

end Word64

namespace BeaconConfig

/-- The slot of a time, in words; none if a difference or a quotient does not exist. -/
def slotInWords? (c : BeaconConfig) (t : Instant) : Option UInt64 :=
  let now := UInt64.ofNatLT (t.since .epoch).secs (t.since .epoch).secs_lt
  if c.secondsPerSlot = 0 then some 0
  else do
    let passed ← if now < c.genesisTime then some 0 else Word64.sub? now c.genesisTime
    Word64.div? passed c.secondsPerSlot

/-- Neither the difference nor the quotient of words is out of range, and together they are the
slot. -/
theorem slotInWords?_eq (c : BeaconConfig) (t : Instant) :
    c.slotInWords? t = some (c.slotAt t) := by
  unfold slotInWords? slotAt
  generalize hnow : UInt64.ofNatLT (t.since .epoch).secs _ = now
  have hsecs : now.toNat = t.unixSecs := by
    rw [← hnow, UInt64.toNat_ofNatLT, t.secs_since_epoch]
  dsimp only
  rw [← hsecs]
  by_cases hlength : c.secondsPerSlot = 0
  · rw [if_pos hlength, hlength]
    exact congrArg some (by rw [UInt64.toNat_zero, Nat.div_zero]; rfl)
  rw [if_neg hlength]
  by_cases hbefore : now < c.genesisTime
  · have hlt : now.toNat < c.genesisTime.toNat := UInt64.lt_iff_toNat_lt.1 hbefore
    rw [if_pos hbefore, Option.bind_eq_bind, Option.bind_some, Word64.div?_eq hlength,
      Nat.sub_eq_zero_of_le (Nat.le_of_lt hlt), UInt64.toNat_zero]
  · have hpassed : (UInt64.ofNat (now.toNat - c.genesisTime.toNat)).toNat =
        now.toNat - c.genesisTime.toNat :=
      UInt64.toNat_ofNat_of_lt' (Nat.lt_of_le_of_lt (Nat.sub_le _ _) now.toNat_lt)
    rw [if_neg hbefore, Word64.sub?_eq (UInt64.not_lt.1 hbefore), Option.bind_eq_bind,
      Option.bind_some, Word64.div?_eq hlength, hpassed]

/-! ## The slot in progress -/

/-- When a slot starts, in nanoseconds from the Unix epoch. -/
def slotStart (c : BeaconConfig) (s : Nat) : Int :=
  (c.genesisTime.toNat + s * c.secondsPerSlot.toNat : Nat) * 1000000000

/-- Whether a slot has started at a time and the next one has not. -/
def InProgress (c : BeaconConfig) (s : Nat) (t : Instant) : Prop :=
  c.slotStart s ≤ t.nanos ∧ t.nanos < c.slotStart (s + 1)

instance (c : BeaconConfig) (s : Nat) (t : Instant) : Decidable (c.InProgress s t) :=
  inferInstanceAs (Decidable (_ ∧ _))

section
variable {c : BeaconConfig} {t : Instant}

theorem slotStart_zero : c.slotStart 0 = c.genesisTime.toNat * 1000000000 := by
  rw [slotStart, Nat.zero_mul, Nat.add_zero]

theorem inProgress_iff_unixSecs (h : 0 ≤ t.nanos) (s : Nat) : c.InProgress s t ↔
    c.genesisTime.toNat + s * c.secondsPerSlot.toNat ≤ t.unixSecs ∧
      t.unixSecs < c.genesisTime.toNat + (s + 1) * c.secondsPerSlot.toNat := by
  rw [InProgress, slotStart, slotStart, ← Int.not_le, ← Nat.not_le, Instant.le_unixSecs_iff h,
    Instant.le_unixSecs_iff h]

/-- From genesis on, the slot of a time is the only one that is in progress then. -/
theorem inProgress_iff (hlength : c.secondsPerSlot ≠ 0) (hgenesis : c.slotStart 0 ≤ t.nanos)
    (s : Nat) : c.InProgress s t ↔ s = (c.slotAt t).toNat := by
  rw [slotStart_zero] at hgenesis
  have hepoch : 0 ≤ t.nanos := by omega
  have hstarted : c.genesisTime.toNat ≤ t.unixSecs := (Instant.le_unixSecs_iff hepoch _).2 hgenesis
  have hpos : 0 < c.secondsPerSlot.toNat :=
    Nat.pos_of_ne_zero fun h => hlength (UInt64.toNat_inj.1 h)
  rw [inProgress_iff_unixSecs hepoch, ← c.toNat_slotAt_eq_iff t s hpos hstarted]
  exact eq_comm

theorem slotAt_before_genesis (h : t.nanos < c.slotStart 0) : c.slotAt t = 0 := by
  rw [slotStart_zero] at h
  have hsecs : t.unixSecs - c.genesisTime.toNat = 0 := by
    unfold Instant.unixSecs
    omega
  rw [slotAt, hsecs, Nat.zero_div]
  rfl

theorem slotAt_of_no_length (h : c.secondsPerSlot = 0) : c.slotAt t = 0 := by
  rw [slotAt, h, UInt64.toNat_zero, Nat.div_zero]
  rfl

theorem slotAt_mono {later : Instant} (h : t ≤ later) : c.slotAt t ≤ c.slotAt later := by
  rw [UInt64.le_iff_toNat_le, slotAt_toNat, slotAt_toNat]
  exact Nat.div_le_div_right (Nat.sub_le_sub_right (Instant.unixSecs_mono h) _)

end

end BeaconConfig

/-! ## Both together -/

/-- Whether the slot of a time is exact: all it is computed from fits a word, it is the only one in
progress, and no later time has an earlier one. -/
structure SlotExact (c : BeaconConfig) (t : Instant) : Prop where
  in_words : c.slotInWords? t = some (c.slotAt t)
  in_progress : c.secondsPerSlot ≠ 0 → c.slotStart 0 ≤ t.nanos →
    ∀ s, c.InProgress s t ↔ s = (c.slotAt t).toNat
  before_genesis : t.nanos < c.slotStart 0 → c.slotAt t = 0
  no_length : c.secondsPerSlot = 0 → c.slotAt t = 0
  monotone : ∀ later, t ≤ later → c.slotAt t ≤ c.slotAt later

/-- For all constants and instants: no step of the computation leaves the range of words, and the
slot is the one in progress. -/
theorem slot_exact (c : BeaconConfig) (t : Instant) : SlotExact c t where
  in_words := c.slotInWords?_eq t
  in_progress := BeaconConfig.inProgress_iff
  before_genesis := BeaconConfig.slotAt_before_genesis
  no_length := BeaconConfig.slotAt_of_no_length
  monotone _ := BeaconConfig.slotAt_mono

/-- A slot lasts to its last nanosecond. -/
theorem slot_exact_lastNanosecond :
    let c : BeaconConfig := ⟨1606824023, 12, 32, Bytes.zero 4⟩
    let last : Instant := ⟨1606825234999999999, by decide, by decide⟩
    let next : Instant := ⟨1606825235000000000, by decide, by decide⟩
    (c.slotAt last = 100 ∧ c.InProgress 100 last ∧ SlotExact c last) ∧
      c.slotAt next = 101 ∧ c.InProgress 101 next ∧ SlotExact c next := by
  intro c last next
  exact ⟨⟨by decide, by decide, slot_exact c last⟩, by decide, by decide, slot_exact c next⟩

end StakeKeeper
