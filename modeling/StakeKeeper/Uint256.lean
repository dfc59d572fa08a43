import StakeKeeper.Hex

/-!
Unsigned numbers of 256 bits, as contracts return them, and their text. Written texts are
hexadecimal with the fewest digits; read texts are decimal or carry a mark of their base, and may
hold underscores anywhere. Main statement: `ofText?_hex` (a written number reads back).
-/
namespace StakeKeeper
set_option autoImplicit false

abbrev Uint256.limit : Nat :=
  0x10000000000000000000000000000000000000000000000000000000000000000

structure Uint256 where
  val : Nat
  val_lt : val < Uint256.limit
  deriving DecidableEq

namespace Uint256

@[ext] theorem ext {a b : Uint256} (h : a.val = b.val) : a = b := by
  cases a; cases b; simp_all

def ofNat? (n : Nat) : Option Uint256 := if h : n < limit then some ⟨n, h⟩ else none

theorem ofNat?_val (v : Uint256) : ofNat? v.val = some v := by
  unfold ofNat?; rw [dif_pos v.val_lt]

def zero : Uint256 := ⟨0, by decide⟩

instance : Inhabited Uint256 := ⟨zero⟩

def ofUInt64 (v : UInt64) : Uint256 := ⟨v.toNat, Nat.lt_trans v.toNat_lt (by decide)⟩

def decimal (v : Uint256) : String := toString v.val

/-! ## Written text -/

/-- The hexadecimal digits of a number, most significant first, without leading zeros. -/
def hexDigits (n : Nat) : List Char :=
  if n < 16 then [Hex.digit n] else hexDigits (n / 16) ++ [Hex.digit (n % 16)]
termination_by n

def hex (v : Uint256) : String := String.ofList ('0' :: 'x' :: hexDigits v.val)

/-! ## Read text -/

/-- The number that further digits make of a number. Underscores are passed over. -/
def readDigits (base : Nat) (n : Nat) : List Char → Option Nat
  | [] => some n
  | c :: rest =>
    if c = '_' then readDigits base n rest
    else
      match Hex.digit? c with
      | some d => if d < base then readDigits base (base * n + d) rest else none
      | none => none

/-- The number of a text: in base 16, 8 or 2 behind its mark, else decimal. Without digits it is
zero. -/
def readMarked : List Char → Option Nat
  | '0' :: 'x' :: rest => readDigits 16 0 rest
  | '0' :: 'X' :: rest => readDigits 16 0 rest
  | '0' :: 'o' :: rest => readDigits 8 0 rest
  | '0' :: 'O' :: rest => readDigits 8 0 rest
  | '0' :: 'b' :: rest => readDigits 2 0 rest
  | '0' :: 'B' :: rest => readDigits 2 0 rest
  | text => readDigits 10 0 text

def ofText? (text : String) : Option Uint256 := readMarked text.toList >>= ofNat?

theorem readDigits_append (base n : Nat) (l r : List Char) :
    readDigits base n (l ++ r) = (readDigits base n l).bind fun m => readDigits base m r := by
  induction l generalizing n with
  | nil => rfl
  | cons c l ih =>
    simp only [List.cons_append, readDigits]
    split
    · exact ih n
    · split
      · split
        · exact ih _
        · rfl
      · rfl

theorem readDigits_digit (n d : Nat) (h : d < 16) :
    readDigits 16 n [Hex.digit d] = some (16 * n + d) := by
  have mark : ∀ d : Fin 16, Hex.digit d.val ≠ '_' := by decide
  rw [readDigits, if_neg (mark ⟨d, h⟩), Hex.digit?_digit d h]
  simp [h, readDigits]

theorem readDigits_hexDigits (n : Nat) : readDigits 16 0 (hexDigits n) = some n := by
  induction n using Nat.strongRecOn with
  | ind n ih =>
    rw [hexDigits]
    split
    · rename_i h; simpa using readDigits_digit 0 n h
    · rw [readDigits_append, ih _ (by omega), Option.bind_some,
        readDigits_digit _ _ (Nat.mod_lt _ (by decide)), Nat.div_add_mod]

theorem ofText?_hex (v : Uint256) : ofText? v.hex = some v := by
  simp [ofText?, hex, readMarked, readDigits_hexDigits, ofNat?_val]

end Uint256

end StakeKeeper
