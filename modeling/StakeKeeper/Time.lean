/-!
Points in time and spans between them, exact to the nanosecond. A span fits 64 bits of seconds, an
instant fits signed 64 bits of seconds around the Unix epoch; what falls outside has no value.
Main statements: `Instant.add?_eq_some_iff` and `Instant.le_add?_iff` (the later of two instants is
reached after exactly the span between them).
-/
namespace StakeKeeper
set_option autoImplicit false

/-! ## Spans -/

/-- A span of time, in nanoseconds. -/
structure Duration where
  nanos : Nat
  bounded : nanos < 0x10000000000000000 * 1000000000
  deriving DecidableEq

namespace Duration

@[ext] theorem ext {a b : Duration} (h : a.nanos = b.nanos) : a = b := by
  cases a; cases b; simp_all

def zero : Duration := ⟨0, by decide⟩

instance : Inhabited Duration := ⟨zero⟩

def ofSecs (s : UInt64) : Duration :=
  ⟨s.toNat * 1000000000, by have := s.toNat_lt; omega⟩

/-- The span of `secs` seconds and `nanos` nanoseconds, if its seconds fit 64 bits. -/
def ofParts? (secs nanos : Nat) : Option Duration :=
  if h : secs * 1000000000 + nanos < 0x10000000000000000 * 1000000000 then some ⟨_, h⟩ else none

def secs (d : Duration) : Nat := d.nanos / 1000000000

def subNanos (d : Duration) : Nat := d.nanos % 1000000000

theorem secs_lt (d : Duration) : d.secs < 0x10000000000000000 := by
  have := d.bounded; unfold secs; omega

theorem subNanos_lt (d : Duration) : d.subNanos < 1000000000 := Nat.mod_lt _ (by decide)

theorem ofParts?_parts (d : Duration) : ofParts? d.secs d.subNanos = some d := by
  have h : d.secs * 1000000000 + d.subNanos = d.nanos := by unfold secs subNanos; omega
  unfold ofParts?
  simp only [h, d.bounded, dif_pos]

@[simp] theorem secs_ofSecs (s : UInt64) : (ofSecs s).secs = s.toNat := by
  simp [secs, ofSecs]

def floorSecs (d : Duration) : Duration :=
  ⟨d.secs * 1000000000, by have := d.secs_lt; omega⟩

def isZero (d : Duration) : Bool := d.nanos == 0

instance : LE Duration := ⟨fun a b => a.nanos ≤ b.nanos⟩

instance (a b : Duration) : Decidable (a ≤ b) := inferInstanceAs (Decidable (a.nanos ≤ b.nanos))

end Duration

/-! ## Instants -/

/-- A point in time, in nanoseconds from the Unix epoch. -/
structure Instant where
  nanos : Int
  lower : -0x8000000000000000 * 1000000000 ≤ nanos
  upper : nanos < 0x8000000000000000 * 1000000000
  deriving DecidableEq

namespace Instant

@[ext] theorem ext {a b : Instant} (h : a.nanos = b.nanos) : a = b := by
  cases a; cases b; simp_all

def epoch : Instant := ⟨0, by decide, by decide⟩

instance : Inhabited Instant := ⟨epoch⟩

def ofNanos? (n : Int) : Option Instant :=
  if h : -0x8000000000000000 * 1000000000 ≤ n ∧ n < 0x8000000000000000 * 1000000000 then
    some ⟨n, h.1, h.2⟩
  else none

/-- The instant a number of whole seconds after the epoch, if it is in range. -/
def ofSecs? (s : UInt64) : Option Instant := ofNanos? (s.toNat * 1000000000)

def add? (t : Instant) (d : Duration) : Option Instant := ofNanos? (t.nanos + d.nanos)

/-- The span from the earlier instant `s`, empty if `s` is not earlier. -/
def since (t s : Instant) : Duration :=
  ⟨(t.nanos - s.nanos).toNat, by
    have := t.upper; have := s.lower; omega⟩

/-- The whole seconds since the epoch, zero before it. -/
def unixSecs (t : Instant) : Nat := t.nanos.toNat / 1000000000

/-- The seconds of an instant, rounded down. -/
def floorSecs (t : Instant) : Int := t.nanos / 1000000000

def subNanos (t : Instant) : Nat := (t.nanos % 1000000000).toNat

instance : LE Instant := ⟨fun a b => a.nanos ≤ b.nanos⟩

instance (a b : Instant) : Decidable (a ≤ b) := inferInstanceAs (Decidable (a.nanos ≤ b.nanos))

theorem le_def {a b : Instant} : a ≤ b ↔ a.nanos ≤ b.nanos := Iff.rfl

theorem ofNanos?_eq_some_iff {n : Int} {t : Instant} : ofNanos? n = some t ↔ n = t.nanos := by
  constructor
  · intro h
    unfold ofNanos? at h
    split at h
    · simp only [Option.some.injEq] at h; rw [← h]
    · cases h
  · rintro rfl
    unfold ofNanos?
    rw [dif_pos ⟨t.lower, t.upper⟩]

theorem add?_eq_some_iff {t u : Instant} {d : Duration} :
    t.add? d = some u ↔ t.nanos + d.nanos = u.nanos := ofNanos?_eq_some_iff

/-- The end of a span is reached once the span to it has passed. -/
theorem le_add?_iff {t e b : Instant} {x : Duration} (h : t.add? x = some b) :
    e ≤ b ↔ e.since t ≤ x := by
  rw [add?_eq_some_iff] at h
  show e.nanos ≤ b.nanos ↔ (e.nanos - t.nanos).toNat ≤ x.nanos
  omega

theorem unixSecs_lt (t : Instant) : t.unixSecs < 0x8000000000000000 := by
  have := t.upper; unfold unixSecs; omega

end Instant

end StakeKeeper
