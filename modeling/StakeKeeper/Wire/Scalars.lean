import StakeKeeper.Decimal.Shortest
import StakeKeeper.Time
import StakeKeeper.Uint256
import StakeKeeper.Wire.Attempt
import StakeKeeper.Wire.Codec

/-!
Codecs of single values: truth values, numbers, bytes, spans and instants. Whole numbers are
literals without fraction and exponent; bytes are hexadecimal texts, read also from arrays of
numbers; a span is its seconds and nanoseconds, and so is an instant from the epoch on. All but the
codec of doubles are `Lawful`.
-/
namespace StakeKeeper.Wire
set_option autoImplicit false
open Decimal

namespace Codec

/-! ## Truth values -/

def bool : Codec Bool where
  encode b := some (.bool b)
  decode
    | .bool b => some b
    | _ => none

theorem bool_lawful : bool.Lawful := by
  intro b j h
  have hj : Json.bool b = j := Option.some.inj h
  subst hj
  rfl

/-! ## Numbers -/

def natBelow (limit : Nat) : Codec { n : Nat // n < limit } where
  encode n := some (.number (Literal.ofNat n.val))
  decode
    | .number l => do
      let n ← l.toNat?
      if h : n < limit then some ⟨n, h⟩ else none
    | _ => none

theorem natBelow_lawful (limit : Nat) : (natBelow limit).Lawful := by
  intro n j h
  have hj : Json.number (Literal.ofNat n.val) = j := Option.some.inj h
  subst hj
  simp [natBelow, Literal.toNat?_ofNat, n.property]

def uint64 : Codec UInt64 :=
  (natBelow UInt64.size).via (fun n => some (UInt64.ofNat n.val))
    (fun v => some ⟨v.toNat, v.toNat_lt⟩)

theorem uint64_lawful : uint64.Lawful :=
  via_lawful (natBelow_lawful _) fun v n h => by
    have h : _ = n := Option.some.inj h
    rw [← h]
    simp

def uint32 : Codec UInt32 :=
  (natBelow UInt32.size).via (fun n => some (UInt32.ofNat n.val))
    (fun v => some ⟨v.toNat, v.toNat_lt⟩)

theorem uint32_lawful : uint32.Lawful :=
  via_lawful (natBelow_lawful _) fun v n h => by
    have h : _ = n := Option.some.inj h
    rw [← h]
    simp

/-- The number of 256 bits: read from a text or from a number of 64 bits, written as a text. -/
def uint256 : Codec Uint256 where
  encode v := some (.string (some v.hex))
  decode
    | .string (some s) => Uint256.ofText? s
    | j => (uint64.decode j).map Uint256.ofUInt64

theorem uint256_lawful : uint256.Lawful := by
  intro v j h
  have hj : Json.string (some v.hex) = j := Option.some.inj h
  subst hj
  exact Uint256.ofText?_hex v

/-- Numbers from `10 ^ (-5)` up to `10 ^ 16` are written without an exponent, and an exponent has
its sign. -/
def doubleText : FloatText := ⟨5, 16, true⟩

/-- Doubles: any number in range is read. One that is not finite is written as null. -/
def double : Codec Float where
  encode f :=
    if f.isFinite then (Literal.lex (doubleText.ofFloat f).toList).map fun l => .number l.1
    else some .null
  decode
    | .number l => l.toFloat?
    | _ => none

/-! ## Bytes -/

def bytesOfElements (es : List Json) : Option (List UInt8) :=
  (es.mapM (natBelow 256).decode).map fun l => l.map fun n => UInt8.ofNat n.val

/-- A tree from which strings of `n` bytes are decoded. An array may go on with one more element
where an attempt to read it as a byte fails: the array then goes on where the attempt stopped. -/
def scanFixed (n : Nat) : Scanner := fun fuel cs =>
  match skipBlanks cs with
  | '[' :: rest => do
    let (es, rest) ← readNumbers n rest
    let rest ← closeBytes? rest
    some (.array es, rest)
  | rest => readValue fuel rest

def fixed (n : Nat) : Codec (Bytes n) where
  encode b := some (.string (some (Hex.ofBytes b)))
  decode
    | .string (some s) => Hex.toBytes? n s
    | .array es => bytesOfElements es >>= Bytes.ofList? n
    | _ => none
  scan := scanFixed n

theorem fixed_lawful (n : Nat) : (fixed n).Lawful := by
  intro b j h
  have hj : Json.string (some (Hex.ofBytes b)) = j := Option.some.inj h
  subst hj
  exact Hex.toBytes?_ofBytes b

def bytes : Codec (List UInt8) where
  encode l := some (.string (some (Hex.encode l)))
  decode
    | .string (some s) => Hex.decode s
    | .array es => bytesOfElements es
    | _ => none

theorem bytes_lawful : bytes.Lawful := by
  intro l j h
  have hj : Json.string (some (Hex.encode l)) = j := Option.some.inj h
  subst hj
  exact Hex.decode_encode l

/-! ## Time -/

/-- Seconds and nanoseconds under two names. Other members are refused. -/
def secondsAndNanos (seconds nanos : String) : Codec (UInt64 × UInt32 × Unit) :=
  (Fields.cons seconds uint64 (.cons nanos uint32 .nil)).codec true

theorem secondsAndNanos_lawful {seconds nanos : String} (h : seconds ≠ nanos) :
    (secondsAndNanos seconds nanos).Lawful :=
  Fields.codec_lawful
    (Fields.cons_lawful uint64_lawful (Fields.cons_lawful uint32_lawful Fields.nil_lawful))
    (by simpa [Fields.cons, Fields.nil] using h) true

/-- Spans. Nanoseconds beyond a second are carried into the seconds. -/
def duration : Codec Duration :=
  (secondsAndNanos "secs" "nanos").via
    (fun (s, n, _) => Duration.ofParts? s.toNat n.toNat)
    (fun d => some (UInt64.ofNat d.secs, UInt32.ofNat d.subNanos, ()))

theorem duration_lawful : duration.Lawful :=
  via_lawful (secondsAndNanos_lawful (by decide)) fun d v h => by
    have h : _ = v := Option.some.inj h
    have hs := Nat.mod_eq_of_lt d.secs_lt
    have hn := Nat.mod_eq_of_lt (Nat.lt_trans d.subNanos_lt (by decide : 1000000000 < UInt32.size))
    rw [← h]
    simp only [UInt64.toNat_ofNat', UInt32.toNat_ofNat', hs, hn, Duration.ofParts?_parts]

/-- Instants from the epoch on; an earlier one has no written form. -/
def instant : Codec Instant :=
  (secondsAndNanos "secs_since_epoch" "nanos_since_epoch").via
    (fun (s, n, _) => Instant.ofNanos? (s.toNat * 1000000000 + n.toNat))
    (fun t =>
      if 0 ≤ t.nanos then some (UInt64.ofNat t.unixSecs, UInt32.ofNat t.subNanos, ()) else none)

theorem instant_lawful : instant.Lawful :=
  via_lawful (secondsAndNanos_lawful (by decide)) fun t v h => by
    simp only [Option.ite_none_right_eq_some, Option.some.injEq] at h
    obtain ⟨ht, h⟩ := h
    have hs := Nat.mod_eq_of_lt
      (Nat.lt_trans t.unixSecs_lt (by decide : 0x8000000000000000 < UInt64.size))
    have hb : t.subNanos < UInt32.size := by unfold Instant.subNanos UInt32.size; omega
    have hn := Nat.mod_eq_of_lt hb
    rw [← h]
    simp only [UInt64.toNat_ofNat', UInt32.toNat_ofNat', hs, hn, Instant.ofNanos?_eq_some_iff]
    unfold Instant.unixSecs Instant.subNanos
    omega

end Codec

end StakeKeeper.Wire
