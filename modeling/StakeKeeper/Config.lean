import StakeKeeper.Query.Runner
import StakeKeeper.Stake.Policy

/-!
The daemon's configuration, read from environment variables. Reading never fails: a variable that
is missing or does not hold a number of its setting leaves the default in place. `Config.check`
then refuses settings that no daemon can run with. Main statements: `parseNumber_eq_some_iff` and
`check_eq_ok_iff`.
-/
namespace StakeKeeper
set_option autoImplicit false

structure Config where
  /-- The pause between ticks while both clients are in sync. -/
  taskInterval : Duration
  /-- The pause before a client that is not in sync is asked again. -/
  syncCooldown : Duration
  stakePolicy : StakePolicy
  pageSizes : PageSizes
  logLevel : String

namespace Config

/-- The settings without any variable. -/
def default : Config where
  taskInterval := .ofSecs 300
  syncCooldown := .ofSecs 10
  stakePolicy := { forcePercent := 50, gasThreshold := 150, maxFee := 0, priorityFee := 2 }
  pageSizes := { addresses := 1000, details := 100 }
  logLevel := "info"

/-! ## Numbers -/

def isDigit (b : UInt8) : Bool := 48 ≤ b.toNat && b.toNat ≤ 57

def numberOf (digits : List UInt8) : Nat := digits.foldl (fun n b => 10 * n + (b.toNat - 48)) 0

/-- The bytes behind an optional plus sign. -/
def unsigned : List UInt8 → List UInt8
  | 43 :: rest => rest
  | text => text

/-- The number below `bound` that a text stands for: an optional plus sign and at least one
digit. -/
def parseNumber (bound : Nat) (text : List UInt8) : Option Nat :=
  let digits := unsigned text
  if !digits.isEmpty && digits.all isDigit && numberOf digits < bound then some (numberOf digits)
  else none

theorem parseNumber_eq_some_iff {bound n : Nat} {text : List UInt8} :
    parseNumber bound text = some n ↔
      unsigned text ≠ [] ∧ (∀ b ∈ unsigned text, isDigit b = true) ∧
        numberOf (unsigned text) = n ∧ n < bound := by
  unfold parseNumber
  simp only
  split
  · next h =>
    simp only [Bool.and_eq_true, Bool.not_eq_true', decide_eq_true_eq, List.all_eq_true] at h
    obtain ⟨⟨hne, hall⟩, hlt⟩ := h
    have hne' : unsigned text ≠ [] := by simpa using hne
    constructor
    · intro hn; cases hn; exact ⟨hne', hall, rfl, hlt⟩
    · rintro ⟨_, _, rfl, _⟩; rfl
  · next h =>
    constructor
    · intro hn; cases hn
    · rintro ⟨hne, hall, rfl, hlt⟩
      exfalso
      apply h
      have : (unsigned text).isEmpty = false := by simpa using hne
      simp [this, hlt]
      exact hall

/-! ## Variables -/

/-- The values of environment variables, as raw bytes. -/
abbrev Environment := String → Option (List UInt8)

def number64 (env : Environment) (name : String) (default : UInt64) : UInt64 :=
  match env name >>= parseNumber UInt64.size with
  | some n => UInt64.ofNat n
  | none => default

def number32 (env : Environment) (name : String) (default : UInt32) : UInt32 :=
  match env name >>= parseNumber UInt32.size with
  | some n => UInt32.ofNat n
  | none => default

/-- The text of a variable, or a default where it is missing or not valid UTF-8. -/
def text (env : Environment) (name default : String) : String :=
  (env name >>= fun bytes => String.fromUTF8? ⟨bytes.toArray⟩).getD default

def ofEnvironment (env : Environment) : Config where
  taskInterval := .ofSecs (number64 env "MINIPOOL_TASK_INTERVAL_SECS" 300)
  syncCooldown := .ofSecs (number64 env "MINIPOOL_SYNC_COOLDOWN_SECS" 10)
  stakePolicy :=
    { forcePercent := number32 env "MINIPOOL_FORCE_SUBMIT_PERCENT" default.stakePolicy.forcePercent
      gasThreshold := number64 env "MINIPOOL_GAS_THRESHOLD_GWEI" default.stakePolicy.gasThreshold
      maxFee := number64 env "MINIPOOL_MAX_FEE_GWEI" default.stakePolicy.maxFee
      priorityFee :=
        number64 env "MINIPOOL_PRIORITY_FEE_GWEI" default.stakePolicy.priorityFee }
  pageSizes :=
    { addresses := number64 env "MINIPOOL_ADDRESS_PAGE_SIZE" default.pageSizes.addresses
      details := number64 env "MINIPOOL_DETAILS_PAGE_SIZE" default.pageSizes.details }
  logLevel := text env "RUST_LOG" default.logLevel

/-! ## Checks -/

/-- A setting that no daemon can run with. -/
inductive Fault where
  | noInterval
  | noCooldown
  | percentOutOfRange (percent : UInt32)
  | noPage
  deriving DecidableEq

def Fault.message : Fault → String
  | noInterval => "Task interval must be greater than zero"
  | noCooldown => "Sync cooldown must be greater than zero"
  | percentOutOfRange percent =>
    s!"Force-submit percentage must be within 1..=100, got {percent.toNat}"
  | noPage => "Batch page sizes must be greater than zero"

/-- The first setting that no daemon can run with, if there is one. -/
def check (c : Config) : Except Fault Unit :=
  if c.taskInterval.isZero then throw .noInterval
  else if c.syncCooldown.isZero then throw .noCooldown
  else if c.stakePolicy.forcePercent = 0 ∨ c.stakePolicy.forcePercent > 100 then
    throw (.percentOutOfRange c.stakePolicy.forcePercent)
  else if c.pageSizes.addresses = 0 ∨ c.pageSizes.details = 0 then throw .noPage
  else pure ()

theorem check_eq_ok_iff {c : Config} :
    c.check = .ok () ↔
      c.taskInterval.isZero = false ∧ c.syncCooldown.isZero = false ∧
        (c.stakePolicy.forcePercent ≠ 0 ∧ c.stakePolicy.forcePercent ≤ 100) ∧
        c.pageSizes.addresses ≠ 0 ∧ c.pageSizes.details ≠ 0 := by
  unfold check
  split
  · next h => simp [h, throw, throwThe, MonadExceptOf.throw]
  split
  · next h => simp [h, throw, throwThe, MonadExceptOf.throw]
  split
  · next h =>
    constructor
    · intro hc; cases hc
    · rintro ⟨_, _, ⟨h0, h100⟩, _⟩
      rcases h with h | h
      · exact absurd h h0
      · exact absurd h100 (UInt32.not_le.2 h)
  split
  · next h =>
    constructor
    · intro hc; cases hc
    · rintro ⟨_, _, _, ha, hd⟩
      rcases h with h | h
      · exact absurd h ha
      · exact absurd h hd
  · next hi hc hp hs =>
    simp only [not_or, UInt32.not_lt, gt_iff_lt] at hp hs
    simp [pure, Except.pure, hi, hc, hp, hs]

end Config

end StakeKeeper
