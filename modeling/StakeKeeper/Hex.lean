import StakeKeeper.Bytes

/-!
Hexadecimal text of byte strings. Bytes are written behind `0x` with lower-case digits; they are
read in either case, with or without the mark. Main statement: `decode_encode`.
-/
namespace StakeKeeper.Hex
set_option autoImplicit false

/-! ## Digits -/

def digit (v : Nat) : Char := if v < 10 then Char.ofNat (48 + v) else Char.ofNat (87 + v)

def digit? (c : Char) : Option Nat :=
  if '0' ≤ c ∧ c ≤ '9' then some (c.toNat - 48)
  else if 'a' ≤ c ∧ c ≤ 'f' then some (c.toNat - 87)
  else if 'A' ≤ c ∧ c ≤ 'F' then some (c.toNat - 55)
  else none

theorem digit?_digit (v : Nat) (h : v < 16) : digit? (digit v) = some v := by
  have all : ∀ v : Fin 16, digit? (digit v.val) = some v.val := by decide
  exact all ⟨v, h⟩

/-! ## Bytes -/

def byteDigits (b : UInt8) : List Char := [digit (b.toNat / 16), digit (b.toNat % 16)]

def digits (l : List UInt8) : List Char := l.flatMap byteDigits

/-- The bytes two digits each stand for. -/
def ofDigits? : List Char → Option (List UInt8)
  | [] => some []
  | [_] => none
  | hi :: lo :: rest => do
    let h ← digit? hi
    let l ← digit? lo
    let tail ← ofDigits? rest
    pure (UInt8.ofNat (h * 16 + l) :: tail)

theorem ofDigits?_digits (l : List UInt8) : ofDigits? (digits l) = some l := by
  induction l with
  | nil => rfl
  | cons b l ih =>
    have hb : b.toNat < 256 := b.toNat_lt
    have hhi := digit?_digit (b.toNat / 16) (by omega)
    have hlo := digit?_digit (b.toNat % 16) (by omega)
    have hd : digits (b :: l) = digit (b.toNat / 16) :: digit (b.toNat % 16) :: digits l := rfl
    have hv : b.toNat / 16 * 16 + b.toNat % 16 = b.toNat := by omega
    simp only [hd, ofDigits?, hhi, hlo, ih, hv, Option.bind_eq_bind, Option.bind_some,
      Option.pure_def, UInt8.ofNat_toNat]

/-! ## Text -/

/-- The text behind an optional `0x` or `0X`. -/
def unmarked : List Char → List Char
  | '0' :: 'x' :: rest => rest
  | '0' :: 'X' :: rest => rest
  | text => text

def encode (l : List UInt8) : String := String.ofList ('0' :: 'x' :: digits l)

def decode (text : String) : Option (List UInt8) := ofDigits? (unmarked text.toList)

theorem decode_encode (l : List UInt8) : decode (encode l) = some l := by
  simp [decode, encode, unmarked, ofDigits?_digits]

def ofBytes {n : Nat} (b : Bytes n) : String := encode b.toList

def toBytes? (n : Nat) (text : String) : Option (Bytes n) := decode text >>= Bytes.ofList? n

@[simp] theorem toBytes?_ofBytes {n : Nat} (b : Bytes n) : toBytes? n (ofBytes b) = some b := by
  simp [toBytes?, ofBytes, decode_encode]

end StakeKeeper.Hex
