import Mathlib.Data.Nat.Digits.Defs
import Mathlib.Data.Set.List
import StakeKeeper.Config

/-!
What an environment asks for. Main statements: `Config.parseNumber_eq_some_iff_spells` (the texts
that are read, and as what), `Config.word?_eq` (words of the setting's own width hold all that a
text is read through, and no text is lost to UTF-8) and `environment_exact` (a setting is what its
own variable spells, else its default, and what cannot be run with is refused however it is
spelled).
-/
namespace StakeKeeper
set_option autoImplicit false

namespace Config

/-! ## Texts that spell a number -/

def digitByte (d : Fin 10) : UInt8 := .ofNat (48 + d)

/-- Whether a text spells a number: an optional plus sign and one or more digits, the most
significant one first. -/
def Spells (text : List UInt8) (n : Nat) : Prop :=
  ∃ digits : List (Fin 10), digits ≠ [] ∧
    (text = digits.map digitByte ∨ text = 43 :: digits.map digitByte) ∧
    n = Nat.ofDigits 10 (digits.reverse.map Fin.val)

theorem digitByte_toNat (d : Fin 10) : (digitByte d).toNat = 48 + d := by
  rw [digitByte, UInt8.toNat_ofNat']
  omega

theorem isDigit_iff {b : UInt8} : isDigit b = true ↔ b ∈ Set.range digitByte := by
  rw [isDigit, Bool.and_eq_true, decide_eq_true_eq, decide_eq_true_eq]
  constructor
  · rintro ⟨hlow, hhigh⟩
    refine ⟨⟨b.toNat - 48, by omega⟩, UInt8.toNat_inj.1 ?_⟩
    rw [digitByte_toNat]
    exact Nat.add_sub_cancel' hlow
  · rintro ⟨d, rfl⟩
    rw [digitByte_toNat]
    omega

theorem forall_isDigit_iff {bytes : List UInt8} :
    (∀ b ∈ bytes, isDigit b = true) ↔ ∃ digits : List (Fin 10), digits.map digitByte = bytes := by
  rw [← Set.mem_range, Set.range_list_map]
  exact forall₂_congr fun _ _ => isDigit_iff

theorem numberOf_digits (digits : List (Fin 10)) :
    numberOf (digits.map digitByte) = Nat.ofDigits 10 (digits.reverse.map Fin.val) := by
  rw [numberOf, List.foldl_map, Nat.ofDigits_eq_foldr, List.foldr_map, List.foldr_reverse]
  congr 1
  funext n d
  rw [digitByte_toNat, Nat.add_sub_cancel_left]
  exact Nat.add_comm _ _

theorem unsigned_digits (digits : List (Fin 10)) :
    unsigned (digits.map digitByte) = digits.map digitByte := by
  cases digits with
  | nil => rfl
  | cons d rest =>
    have hd : digitByte d ≠ 43 := fun h => by
      have hplus : (digitByte d).toNat = 43 := congrArg UInt8.toNat h
      rw [digitByte_toNat] at hplus
      omega
    rw [List.map_cons, unsigned]
    exact fun _ h => hd (List.cons.inj h).1

theorem unsigned_eq_iff {text : List UInt8} {digits : List (Fin 10)} :
    unsigned text = digits.map digitByte ↔
      text = digits.map digitByte ∨ text = 43 :: digits.map digitByte := by
  constructor
  · intro h
    unfold unsigned at h
    split at h
    · exact .inr (congrArg _ h)
    · exact .inl h
  · rintro (rfl | rfl)
    · exact unsigned_digits digits
    · rfl

theorem parseNumber_eq_some_iff_spells {bound n : Nat} {text : List UInt8} :
    parseNumber bound text = some n ↔ Spells text n ∧ n < bound := by
  rw [parseNumber_eq_some_iff, forall_isDigit_iff]
  constructor
  · rintro ⟨hne, ⟨digits, hdigits⟩, hn, hlt⟩
    rw [← hdigits, ne_eq, List.map_eq_nil_iff] at hne
    rw [← hdigits, numberOf_digits] at hn
    exact ⟨⟨digits, hne, unsigned_eq_iff.1 hdigits.symm, hn.symm⟩, hlt⟩
  · rintro ⟨⟨digits, hne, htext, hn⟩, hlt⟩
    have hdigits := unsigned_eq_iff.2 htext
    rw [hdigits, numberOf_digits, ne_eq, List.map_eq_nil_iff]
    exact ⟨hne, ⟨digits, rfl⟩, hn.symm, hlt⟩

/-! ## Words -/

section
variable {w : Nat}

def mul? (a b : BitVec w) : Option (BitVec w) := if a.umulOverflow b then none else some (a * b)

def add? (a b : BitVec w) : Option (BitVec w) := if a.uaddOverflow b then none else some (a + b)

/-- The word that a text stands for behind the digits already read, if every byte is a digit and
no product and no sum is too large for a word. -/
def readDigits? (read : BitVec w) : List UInt8 → Option (BitVec w)
  | [] => some read
  | b :: rest =>
    if isDigit b then do
      let tens ← mul? read (.ofNat w 10)
      let next ← add? tens (.ofNat w (b.toNat - 48))
      readDigits? next rest
    else none

def numberFrom (read : Nat) (digits : List UInt8) : Nat :=
  digits.foldl (fun n b => 10 * n + (b.toNat - 48)) read

/-- Digits behind a number make it no smaller, so what has outgrown a word never fits again. -/
theorem le_numberFrom (read : Nat) (digits : List UInt8) : read ≤ numberFrom read digits := by
  induction digits generalizing read with
  | nil => exact Nat.le_refl _
  | cons b rest ih => exact Nat.le_trans (by omega) (ih (10 * read + (b.toNat - 48)))

theorem mul?_bind_add? (hw : 10 < 2 ^ w) (read : BitVec w) {d : Nat} (hd : d < 10) :
    ((mul? read (.ofNat w 10)).bind fun tens => add? tens (.ofNat w d)) =
      if 10 * read.toNat + d < 2 ^ w then some (.ofNat w (10 * read.toNat + d)) else none := by
  have hten : (BitVec.ofNat w 10).toNat = 10 := by
    rw [BitVec.toNat_ofNat, Nat.mod_eq_of_lt hw]
  have hdigit : (BitVec.ofNat w d).toNat = d := by
    rw [BitVec.toNat_ofNat, Nat.mod_eq_of_lt (Nat.lt_trans hd hw)]
  unfold mul? BitVec.umulOverflow
  rw [hten, Nat.mul_comm]
  by_cases hmul : 10 * read.toNat < 2 ^ w
  · have htens : (read * .ofNat w 10).toNat = 10 * read.toNat := by
      rw [BitVec.toNat_mul, hten, Nat.mul_comm, Nat.mod_eq_of_lt hmul]
    rw [if_neg (by simpa using hmul), Option.bind_some, add?, BitVec.uaddOverflow, htens, hdigit]
    by_cases hadd : 10 * read.toNat + d < 2 ^ w
    · rw [if_neg (by simpa using hadd), if_pos hadd]
      refine congrArg some (BitVec.eq_of_toNat_eq ?_)
      rw [BitVec.toNat_add, htens, hdigit, BitVec.toNat_ofNat]
    · rw [if_pos (by simpa using hadd), if_neg hadd]
  · rw [if_pos (by simpa using hmul), Option.bind_none, if_neg (by omega)]

theorem readDigits?_eq (hw : 10 < 2 ^ w) (read : BitVec w) (digits : List UInt8) :
    readDigits? read digits =
      if digits.all isDigit && numberFrom read.toNat digits < 2 ^ w then
        some (.ofNat w (numberFrom read.toNat digits))
      else none := by
  induction digits generalizing read with
  | nil => simp [readDigits?, numberFrom, read.isLt]
  | cons b rest ih =>
    have hfrom : numberFrom read.toNat (b :: rest) =
        numberFrom (10 * read.toNat + (b.toNat - 48)) rest := rfl
    by_cases hb : isDigit b = true
    · have hd : b.toNat - 48 < 10 := by
        obtain ⟨d, rfl⟩ := isDigit_iff.1 hb
        rw [digitByte_toNat]
        omega
      rw [readDigits?, if_pos hb, List.all_cons, hb, Bool.true_and, hfrom]
      show ((mul? read (.ofNat w 10)).bind fun tens =>
        (add? tens (.ofNat w (b.toNat - 48))).bind fun next => readDigits? next rest) = _
      rw [← Option.bind_assoc, mul?_bind_add? hw read hd]
      by_cases hfits : 10 * read.toNat + (b.toNat - 48) < 2 ^ w
      · rw [if_pos hfits, Option.bind_some, ih, BitVec.toNat_ofNat, Nat.mod_eq_of_lt hfits]
      · have hnever := le_numberFrom (10 * read.toNat + (b.toNat - 48)) rest
        rw [if_neg hfits, Option.bind_none, if_neg]
        simp only [Bool.and_eq_true, decide_eq_true_eq, not_and]
        omega
    · rw [readDigits?, if_neg hb, List.all_cons, Bool.eq_false_iff.2 hb]
      rfl

variable (w) in
/-- The word that a text stands for: an optional plus sign and at least one digit, one after the
other. -/
def parseWord? (text : List UInt8) : Option (BitVec w) :=
  if (unsigned text).isEmpty then none else readDigits? 0#w (unsigned text)

theorem parseWord?_eq (hw : 10 < 2 ^ w) (text : List UInt8) :
    parseWord? w text = (parseNumber (2 ^ w) text).map (.ofNat w) := by
  have hread : readDigits? 0#w (unsigned text) =
      if (unsigned text).all isDigit && numberOf (unsigned text) < 2 ^ w then
        some (.ofNat w (numberOf (unsigned text)))
      else none := by
    rw [readDigits?_eq hw, BitVec.toNat_zero]
    rfl
  unfold parseWord? parseNumber
  rw [hread]
  by_cases hempty : (unsigned text).isEmpty = true
  · simp only [hempty, if_pos, Bool.not_true, Bool.false_and]
    rfl
  · simp only [hempty, Bool.not_false, Bool.true_and, Bool.false_eq_true, if_false]
    split <;> rfl

end

/-! ## UTF-8 -/

theorem utf8EncodeChar_ofUInt8 {b : UInt8} (h : b.toNat < 128) :
    String.utf8EncodeChar (Char.ofUInt8 b) = [b] := by
  have hsize : (Char.ofUInt8 b).utf8Size = 1 := by
    rw [Char.utf8Size_eq_one_iff, UInt32.le_iff_toNat_le]
    exact Nat.le_of_lt_succ h
  rw [String.utf8EncodeChar_eq_singleton hsize]
  exact congrArg (fun c => [c]) (UInt8.toUInt8_toUInt32 b)

theorem isValidUTF8_of_ascii {bytes : List UInt8} (h : ∀ b ∈ bytes, b.toNat < 128) :
    ByteArray.IsValidUTF8 ⟨bytes.toArray⟩ := by
  induction bytes with
  | nil => exact ByteArray.isValidUTF8_empty
  | cons b rest ih =>
    have hfirst : ByteArray.IsValidUTF8 [b].toByteArray :=
      utf8EncodeChar_ofUInt8 (h b List.mem_cons_self) ▸ Char.isValidUTF8_toByteArray_utf8EncodeChar
    have hrest := ih fun c hc => h c (List.mem_cons_of_mem b hc)
    have happend : (⟨(b :: rest).toArray⟩ : ByteArray) = [b].toByteArray ++ ⟨rest.toArray⟩ :=
      ByteArray.ext (by simp)
    rw [happend]
    exact hfirst.append hrest

/-- No text that spells a number is lost to UTF-8. -/
theorem Spells.isValidUTF8 {text : List UInt8} {n : Nat} (h : Spells text n) :
    ByteArray.IsValidUTF8 ⟨text.toArray⟩ := by
  obtain ⟨digits, -, htext, -⟩ := h
  have hdigit : ∀ b ∈ digits.map digitByte, b.toNat < 128 := by
    intro b hb
    obtain ⟨d, -, rfl⟩ := List.mem_map.1 hb
    rw [digitByte_toNat]
    omega
  refine isValidUTF8_of_ascii fun b hb => ?_
  rcases htext with rfl | rfl
  · exact hdigit b hb
  · rcases List.mem_cons.1 hb with rfl | hb
    · decide
    · exact hdigit b hb

/-- The word of a variable, if its bytes are valid UTF-8 and stand for one. -/
def word? (w : Nat) (env : Environment) (key : String) : Option (BitVec w) := do
  let bytes ← env key
  let text ← String.fromUTF8? ⟨bytes.toArray⟩
  parseWord? w text.toByteArray.data.toList

theorem word?_eq {w : Nat} (hw : 10 < 2 ^ w) (env : Environment) (key : String) :
    word? w env key = (env key >>= parseNumber (2 ^ w)).map (.ofNat w) := by
  unfold word?
  cases env key with
  | none => rfl
  | some bytes =>
    show ((String.fromUTF8? ⟨bytes.toArray⟩).bind fun text =>
      parseWord? w text.toByteArray.data.toList) = (parseNumber (2 ^ w) bytes).map (.ofNat w)
    unfold String.fromUTF8?
    split
    · exact parseWord?_eq hw bytes
    · next hinvalid =>
      have hnone : parseNumber (2 ^ w) bytes = none :=
        Option.eq_none_iff_forall_ne_some.2 fun n hn =>
          hinvalid (parseNumber_eq_some_iff_spells.1 hn).1.isValidUTF8
      rw [hnone]
      rfl

/-! ## Settings -/

inductive Setting where
  | taskInterval
  | syncCooldown
  | forcePercent
  | gasThreshold
  | maxFee
  | priorityFee
  | addressPage
  | detailsPage
  deriving DecidableEq

namespace Setting

def key : Setting → String
  | taskInterval => "MINIPOOL_TASK_INTERVAL_SECS"
  | syncCooldown => "MINIPOOL_SYNC_COOLDOWN_SECS"
  | forcePercent => "MINIPOOL_FORCE_SUBMIT_PERCENT"
  | gasThreshold => "MINIPOOL_GAS_THRESHOLD_GWEI"
  | maxFee => "MINIPOOL_MAX_FEE_GWEI"
  | priorityFee => "MINIPOOL_PRIORITY_FEE_GWEI"
  | addressPage => "MINIPOOL_ADDRESS_PAGE_SIZE"
  | detailsPage => "MINIPOOL_DETAILS_PAGE_SIZE"

def width : Setting → Nat
  | forcePercent => 32
  | _ => 64

def default : Setting → Nat
  | taskInterval => 300
  | syncCooldown => 10
  | forcePercent => 50
  | gasThreshold => 150
  | maxFee => 0
  | priorityFee => 2
  | addressPage => 1000
  | detailsPage => 100

/-- Whether a daemon can run with a setting at a number. -/
def Allows : Setting → Nat → Prop
  | taskInterval, n | syncCooldown, n | addressPage, n | detailsPage, n => n ≠ 0
  | forcePercent, n => 1 ≤ n ∧ n ≤ 100
  | gasThreshold, _ | maxFee, _ | priorityFee, _ => True

theorem key_injective : Function.Injective key := by
  intro s s' h
  cases s <;> cases s' <;> first | rfl | exact absurd h (by decide)

end Setting

/-- Whether a setting is a number. The spans are whole seconds. -/
def Has (c : Config) : Setting → Nat → Prop
  | .taskInterval, n => c.taskInterval.nanos = n * 1000000000
  | .syncCooldown, n => c.syncCooldown.nanos = n * 1000000000
  | .forcePercent, n => c.stakePolicy.forcePercent.toNat = n
  | .gasThreshold, n => c.stakePolicy.gasThreshold.toNat = n
  | .maxFee, n => c.stakePolicy.maxFee.toNat = n
  | .priorityFee, n => c.stakePolicy.priorityFee.toNat = n
  | .addressPage, n => c.pageSizes.addresses.toNat = n
  | .detailsPage, n => c.pageSizes.details.toNat = n

/-- Whether an environment asks for a setting at a number: its variable spells one that the
setting's word holds. -/
def Environment.Asks (env : Environment) (s : Setting) (n : Nat) : Prop :=
  ∃ text, env s.key = some text ∧ Spells text n ∧ n < 2 ^ s.width

def Environment.asked (env : Environment) (s : Setting) : Option Nat :=
  env s.key >>= parseNumber (2 ^ s.width)

theorem asked_eq_some_iff {env : Environment} {s : Setting} {n : Nat} :
    env.asked s = some n ↔ env.Asks s n := by
  rw [Environment.asked, Environment.Asks, Option.bind_eq_bind, Option.bind_eq_some_iff]
  exact exists_congr fun _ => and_congr_right fun _ => parseNumber_eq_some_iff_spells

theorem toNat_read {α : Type} {bound : Nat} {ofNat : Nat → α} {toNat : α → Nat}
    (hword : ∀ n < bound, toNat (ofNat n) = n) (env : Environment) (key : String) (d : α) :
    toNat (match env key >>= parseNumber bound with
      | some n => ofNat n
      | none => d) = (env key >>= parseNumber bound).getD (toNat d) := by
  cases h : env key >>= parseNumber bound with
  | none => rfl
  | some n =>
    obtain ⟨text, -, htext⟩ := Option.bind_eq_some_iff.1 h
    exact hword n (parseNumber_eq_some_iff_spells.1 htext).2

theorem number64_toNat (env : Environment) (key : String) (d : UInt64) :
    (number64 env key d).toNat = (env key >>= parseNumber (2 ^ 64)).getD d.toNat :=
  toNat_read (fun _ => UInt64.toNat_ofNat_of_lt') env key d

theorem number32_toNat (env : Environment) (key : String) (d : UInt32) :
    (number32 env key d).toNat = (env key >>= parseNumber (2 ^ 32)).getD d.toNat :=
  toNat_read (fun _ => UInt32.toNat_ofNat_of_lt') env key d

theorem ofEnvironment_has_iff {env : Environment} {s : Setting} {n : Nat} :
    (ofEnvironment env).Has s n ↔ (env.asked s).getD s.default = n := by
  cases s with
  | taskInterval =>
    exact (Nat.mul_left_inj (by decide)).trans (by rw [number64_toNat]; rfl)
  | syncCooldown =>
    exact (Nat.mul_left_inj (by decide)).trans (by rw [number64_toNat]; rfl)
  | forcePercent => exact iff_of_eq (congrArg (· = n) (number32_toNat ..))
  | gasThreshold | maxFee | priorityFee | addressPage | detailsPage =>
    exact iff_of_eq (congrArg (· = n) (number64_toNat ..))

theorem Environment.Asks.has {env : Environment} {s : Setting} {n : Nat} (h : env.Asks s n) :
    (ofEnvironment env).Has s n := by
  rw [ofEnvironment_has_iff, asked_eq_some_iff.2 h, Option.getD_some]

theorem Has.unique {c : Config} {s : Setting} {m n : Nat} (hm : c.Has s m) (hn : c.Has s n) :
    m = n := by
  cases s with
  | taskInterval | syncCooldown =>
    exact Nat.mul_right_cancel (by decide) (Eq.trans (Eq.symm hm) hn)
  | forcePercent | gasThreshold | maxFee | priorityFee | addressPage | detailsPage =>
    exact Eq.trans (Eq.symm hm) hn

theorem word?_toNat (env : Environment) (s : Setting) :
    (word? s.width env s.key).map BitVec.toNat = env.asked s := by
  have hw : 10 < 2 ^ s.width := by cases s <;> decide
  rw [word?_eq hw, Environment.asked, Option.map_map]
  cases h : (env s.key >>= parseNumber (2 ^ s.width)) with
  | none => rfl
  | some n =>
    obtain ⟨-, -, -, hlt⟩ := asked_eq_some_iff.1 h
    rw [Option.map_some, Function.comp_apply, BitVec.toNat_ofNat, Nat.mod_eq_of_lt hlt]

/-! ## Checks -/

/-- Whether a daemon can run with a configuration. -/
structure Runnable (c : Config) : Prop where
  taskInterval : 0 < c.taskInterval.nanos
  syncCooldown : 0 < c.syncCooldown.nanos
  forcePercent : 1 ≤ c.stakePolicy.forcePercent.toNat ∧ c.stakePolicy.forcePercent.toNat ≤ 100
  addressPage : 0 < c.pageSizes.addresses.toNat
  detailsPage : 0 < c.pageSizes.details.toNat

theorem check_eq_ok_iff_runnable {c : Config} : c.check = .ok () ↔ c.Runnable := by
  have hspan : ∀ d : Duration, d.isZero = false ↔ 0 < d.nanos := fun d => by
    rw [Duration.isZero, beq_eq_false_iff_ne, Nat.pos_iff_ne_zero]
  have hword64 : ∀ n : UInt64, n ≠ 0 ↔ 0 < n.toNat := fun n => by
    rw [Nat.pos_iff_ne_zero, ne_eq, ne_eq, ← UInt64.toNat_inj, UInt64.toNat_zero]
  have hpercent : ∀ n : UInt32, n ≠ 0 ∧ n ≤ 100 ↔ 1 ≤ n.toNat ∧ n.toNat ≤ 100 := fun n => by
    rw [ne_eq, ← UInt32.toNat_inj, UInt32.toNat_zero, UInt32.le_iff_toNat_le,
      Nat.one_le_iff_ne_zero]
    rfl
  rw [check_eq_ok_iff, hspan, hspan, hpercent, hword64, hword64]
  exact ⟨fun ⟨hi, hc, hp, ha, hd⟩ => ⟨hi, hc, hp, ha, hd⟩,
    fun ⟨hi, hc, hp, ha, hd⟩ => ⟨hi, hc, hp, ha, hd⟩⟩

theorem Runnable.allows {c : Config} (hc : c.Runnable) {s : Setting} {n : Nat} (h : c.Has s n) :
    s.Allows n := by
  cases s with
  | taskInterval =>
    rintro rfl
    exact hc.taskInterval.ne' (Eq.trans h (Nat.zero_mul _))
  | syncCooldown =>
    rintro rfl
    exact hc.syncCooldown.ne' (Eq.trans h (Nat.zero_mul _))
  | forcePercent => exact (show _ = n from h) ▸ hc.forcePercent
  | addressPage => exact (show _ = n from h) ▸ hc.addressPage.ne'
  | detailsPage => exact (show _ = n from h) ▸ hc.detailsPage.ne'
  | gasThreshold | maxFee | priorityFee => trivial

/-- Whether the settings of an environment are exact: each is the number its own variable spells,
else its default, as words of the setting's width have it, and a number that cannot be run with is
refused. -/
structure ReadExactly (env : Environment) : Prop where
  asked : ∀ s n, env.Asks s n → (ofEnvironment env).Has s n
  otherwise : ∀ s, (∀ n, ¬ env.Asks s n) → (ofEnvironment env).Has s s.default
  single : ∀ s m n, (ofEnvironment env).Has s m → (ofEnvironment env).Has s n → m = n
  own : ∀ other : Environment, ∀ s, other s.key = env s.key →
    ∀ n, (ofEnvironment other).Has s n ↔ (ofEnvironment env).Has s n
  in_words : ∀ s, (ofEnvironment env).Has s
    (((word? s.width env s.key).map BitVec.toNat).getD s.default)
  refused : ∀ s n, env.Asks s n → ¬ s.Allows n → ∃ fault, (ofEnvironment env).check = .error fault

theorem readExactly (env : Environment) : ReadExactly env where
  asked _ _ := Environment.Asks.has
  otherwise s h := by
    have hnone : env.asked s = none :=
      Option.eq_none_iff_forall_ne_some.2 fun n hn => h n (asked_eq_some_iff.1 hn)
    rw [ofEnvironment_has_iff, hnone, Option.getD_none]
  single _ _ _ := Has.unique
  own other s h n := by
    rw [ofEnvironment_has_iff, ofEnvironment_has_iff, Environment.asked, Environment.asked, h]
  in_words s := by rw [ofEnvironment_has_iff, word?_toNat]
  refused s n h hnot := by
    cases hcheck : (ofEnvironment env).check with
    | error fault => exact ⟨fault, rfl⟩
    | ok u => exact absurd ((check_eq_ok_iff_runnable.1 hcheck).allows h.has) hnot

end Config

/-! ## Both together -/

/-- Reading is exact, no two settings share a variable, and the check accepts just what a daemon can
run with. -/
theorem environment_exact (env : Config.Environment) (c : Config) :
    Config.ReadExactly env ∧ Function.Injective Config.Setting.key ∧
      (c.check = .ok () ↔ c.Runnable) :=
  ⟨Config.readExactly env, Config.Setting.key_injective, Config.check_eq_ok_iff_runnable⟩

/-- A percentage of `+0101` is refused, a priority fee of `007` is read, and a fee of `2 ^ 64` is
not. -/
theorem environment_exact_plusZeros :
    let env : Config.Environment := fun key =>
      if key = "MINIPOOL_FORCE_SUBMIT_PERCENT" then some [43, 48, 49, 48, 49]
      else if key = "MINIPOOL_PRIORITY_FEE_GWEI" then some [48, 48, 55]
      else if key = "MINIPOOL_MAX_FEE_GWEI" then
        some [49, 56, 52, 52, 54, 55, 52, 52, 48, 55, 51, 55, 48, 57, 53, 53, 49, 54, 49, 54]
      else none
    let c := Config.ofEnvironment env
    (env.Asks .forcePercent 101 ∧ c.Has .forcePercent 101 ∧
      c.check = .error (.percentOutOfRange 101)) ∧
      (env.Asks .priorityFee 7 ∧ c.Has .priorityFee 7) ∧
      (∀ n, ¬ env.Asks .maxFee n) ∧ c.Has .maxFee 0 := by
  intro env c
  have hpercent : env.Asks .forcePercent 101 :=
    ⟨[43, 48, 49, 48, 49], rfl, ⟨[0, 1, 0, 1], by decide, by decide, by decide⟩, by decide⟩
  have hpriority : env.Asks .priorityFee 7 :=
    ⟨[48, 48, 55], rfl, ⟨[0, 0, 7], by decide, by decide, by decide⟩, by decide⟩
  have hfee : ∀ n, ¬ env.Asks .maxFee n := fun n h =>
    nomatch (show env.asked .maxFee = none by decide).symm.trans (Config.asked_eq_some_iff.2 h)
  obtain ⟨hread, -, -⟩ := environment_exact env c
  exact ⟨⟨hpercent, hread.asked _ _ hpercent, by decide⟩,
    ⟨hpriority, hread.asked _ _ hpriority⟩, hfee, hread.otherwise _ hfee⟩

end StakeKeeper
