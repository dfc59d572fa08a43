/-!
The shortest decimal text of a binary floating-point number. Of all decimals that lie in the
interval of reals which round to the number, `nearestShortest` takes one with the fewest digits, and
of those the nearest. `FloatText` says how the digits are then laid out.
-/
namespace StakeKeeper.Decimal
set_option autoImplicit false

/-! ## Digits -/

/-- A positive decimal: `digits * 10 ^ exponent`. -/
structure Scaled where
  digits : Nat
  exponent : Int
  deriving DecidableEq

/-- A positive binary number `significand * 2 ^ exponent`, and whether its lower neighbour is half
as far away as its upper one. -/
structure Binary where
  significand : Nat
  exponent : Int
  closeBelow : Bool

/-- The number times `4 * 2 ^ up / 10 ^ e`, and its two interval ends, over one denominator: the
numerators of the lower end, the number, the upper end, and the denominator. -/
def Binary.fractions (b : Binary) (e : Int) : Nat × Nat × Nat × Nat :=
  let up := (1 <<< b.exponent.toNat) * Nat.pow 10 (-e).toNat
  let down := (4 <<< (-b.exponent).toNat) * Nat.pow 10 e.toNat
  let value := 4 * b.significand
  ((value - if b.closeBelow then 1 else 2) * up, value * up, (value + 2) * up, down)

/-- The multiple of `10 ^ e` in the interval of the number that is nearest to it, if there is one;
of two that are equally near, the even one. The ends belong to the interval of an even number. -/
def Binary.onGrid? (b : Binary) (e : Int) : Option Nat :=
  let (low, value, high, unit) := b.fractions e
  let floor := value / unit
  let inside (n : Nat) : Bool :=
    if b.significand % 2 = 0 then low ≤ n * unit && n * unit ≤ high
    else low < n * unit && n * unit < high
  let below := value - floor * unit
  let above := (floor + 1) * unit - value
  let first := below < above || (below == above && floor % 2 == 0)
  if inside floor && (first || !inside (floor + 1)) then some floor
  else if inside (floor + 1) then some (floor + 1)
  else none

/-- The first grid, from `10 ^ e` downwards, on which the interval of the number has a point. -/
def Binary.coarsest (b : Binary) : Nat → Int → Scaled
  | 0, e => ⟨b.significand, e⟩
  | steps + 1, e =>
    match b.onGrid? e with
    | some n => ⟨n, e⟩
    | none => b.coarsest steps (e - 1)

/-- The shortest decimal of the number. No double reaches `10 ^ 309`, and every double has a point
of its interval on the grid of `10 ^ (-345)`. -/
def Binary.nearestShortest (b : Binary) : Scaled := b.coarsest 660 309

/-! ## Doubles -/

def binaryOf (bits : UInt64) : Binary :=
  let fraction := bits.toNat % 0x10000000000000
  let exponent := bits.toNat / 0x10000000000000 % 0x800
  if exponent = 0 then ⟨fraction, -1074, false⟩
  else ⟨0x10000000000000 + fraction, Int.ofNat exponent - 1075, fraction = 0 && exponent > 1⟩

structure FloatText where
  /-- Numbers from `10 ^ (-small)` on are written without an exponent. -/
  small : Int
  /-- Numbers below `10 ^ large` are written without an exponent. -/
  large : Int
  /-- Whether an exponent that is not negative has a plus sign. -/
  plus : Bool

/-- A positive decimal as text. Whole numbers without an exponent keep `.0`. -/
def FloatText.write (f : FloatText) (s : Scaled) : String :=
  let digits := toString s.digits
  let count := Int.ofNat digits.length
  let point := count + s.exponent
  let zeros (n : Int) := String.ofList (List.replicate n.toNat '0')
  if 0 ≤ s.exponent && point ≤ f.large then digits ++ zeros s.exponent ++ ".0"
  else if 0 < point && point ≤ f.large then
    String.ofList (digits.toList.take point.toNat) ++ "." ++
      String.ofList (digits.toList.drop point.toNat)
  else if -f.small < point && point ≤ 0 then "0." ++ zeros (-point) ++ digits
  else
    let mantissa :=
      match digits.toList with
      | [] => ""
      | [d] => String.ofList [d]
      | d :: rest => String.ofList (d :: '.' :: rest)
    let sign := if f.plus && point ≥ 1 then "+" else ""
    mantissa ++ "e" ++ sign ++ toString (point - 1)

def FloatText.ofFloat (f : FloatText) (x : Float) : String :=
  let bits := x.toBits
  let size := bits &&& 0x7fffffffffffffff
  let sign := if bits = size then "" else "-"
  if size = 0 then sign ++ "0.0" else sign ++ f.write (binaryOf size).nearestShortest

end StakeKeeper.Decimal
