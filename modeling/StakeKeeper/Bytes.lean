/-!
Byte strings. `Bytes n` is a string of exactly `n` bytes; strings of any length are lists.
Main statements: `ofList?_toList` (a fixed-width string is read back from its bytes),
`ofList?_eq_some_iff` (only a list of the right length is one) and `natOfBigEndian_ofNatBigEndian`
(a number that fits is read back from its bytes).
-/
namespace StakeKeeper
set_option autoImplicit false

/-- A string of exactly `n` bytes. -/
abbrev Bytes (n : Nat) := Vector UInt8 n

namespace Bytes

/-! ## Fixed width -/

def zero (n : Nat) : Bytes n := Vector.replicate n 0

def ofList? (n : Nat) (l : List UInt8) : Option (Bytes n) :=
  if h : l.length = n then some ⟨l.toArray, by simpa using h⟩ else none

@[simp] theorem ofList?_toList {n : Nat} (b : Bytes n) : ofList? n b.toList = some b := by
  rcases b with ⟨a, h⟩
  simp [ofList?, Vector.toList, h]

theorem ofList?_eq_some_iff {n : Nat} {l : List UInt8} {b : Bytes n} :
    ofList? n l = some b ↔ l = b.toList := by
  constructor
  · intro h
    unfold ofList? at h
    split at h
    · cases h; rfl
    · cases h
  · rintro rfl; exact ofList?_toList b

theorem ofList?_isSome_iff {n : Nat} {l : List UInt8} : (ofList? n l).isSome ↔ l.length = n := by
  unfold ofList?; split <;> simp_all

/-! ## Numbers -/

/-- The number a big-endian string of bytes stands for. -/
def natOfBigEndian (l : List UInt8) : Nat := l.foldl (fun a b => a * 256 + b.toNat) 0

/-- The number as `n` bytes, most significant first; higher bytes are dropped. -/
def ofNatBigEndian (n v : Nat) : Bytes n :=
  Vector.ofFn fun i => UInt8.ofNat (v >>> (8 * (n - 1 - i.val)))

/-- The number as `n` bytes, least significant first; higher bytes are dropped. -/
def ofNatLittleEndian (n v : Nat) : Bytes n := Vector.ofFn fun i => UInt8.ofNat (v >>> (8 * i.val))

theorem toList_ofNatBigEndian_succ (n v : Nat) :
    (ofNatBigEndian (n + 1) v).toList = (ofNatBigEndian n (v / 256)).toList ++ [UInt8.ofNat v] := by
  unfold ofNatBigEndian
  rw [Vector.toList_ofFn, Vector.toList_ofFn, List.ofFn_succ_last]
  congr 2
  · funext i
    have hi : n + 1 - 1 - i.castSucc.val = (n - 1 - i.val) + 1 := by
      have := i.isLt; simp only [Fin.val_castSucc]; omega
    rw [hi, Nat.mul_add, Nat.mul_one, Nat.add_comm, Nat.shiftRight_add,
      Nat.shiftRight_eq_div_pow v 8]
  · simp

theorem natOfBigEndian_append (l : List UInt8) (b : UInt8) :
    natOfBigEndian (l ++ [b]) = natOfBigEndian l * 256 + b.toNat := by
  simp [natOfBigEndian]

theorem natOfBigEndian_ofNatBigEndian (n v : Nat) :
    natOfBigEndian (ofNatBigEndian n v).toList = v % Nat.pow 256 n := by
  show _ = v % 256 ^ n
  induction n generalizing v with
  | zero => rw [ofNatBigEndian, Vector.toList_ofFn]; simp [natOfBigEndian, Nat.mod_one]
  | succ n ih =>
    rw [toList_ofNatBigEndian_succ, natOfBigEndian_append, ih, Nat.pow_succ', Nat.mod_mul,
      UInt8.toNat_ofNat']
    omega
/-! ## Order -/

/-- The order of byte strings: by the first byte that differs. -/
def le {n : Nat} (a b : Bytes n) : Bool := natOfBigEndian a.toList ≤ natOfBigEndian b.toList

end Bytes

/-! ## Records of the two chains -/

/-- An account or contract on the execution chain. -/
abbrev Address := Bytes 20

/-- A block hash, a Merkle root, a signature domain or withdrawal credentials. -/
abbrev Root := Bytes 32

/-- A validator's public key: a compressed point of the first group. -/
abbrev PubKey := Bytes 48

/-- A validator's signature: a compressed point of the second group. -/
abbrev Signature := Bytes 96

abbrev ForkVersion := Bytes 4

end StakeKeeper
