import StakeKeeper.Decimal.Digits

/-!
Number literals: an optional minus sign, digits, an optional fraction and an optional exponent. A
literal is taken apart into its digits, and from them read as a whole number or as a double.
-/
namespace StakeKeeper.Decimal
set_option autoImplicit false

structure Literal where
  negative : Bool
  whole : List Nat
  /-- The digits behind the point, if there is one. -/
  fraction : Option (List Nat)
  /-- Whether the exponent is negative, and its digits. -/
  exponent : Option (Bool × List Nat)
  deriving DecidableEq

/-! ## Lexing -/

def takeDigits : List Char → List Nat × List Char
  | [] => ([], [])
  | c :: rest =>
    match digit? c with
    | some d =>
      let (ds, rest) := takeDigits rest
      (d :: ds, rest)
    | none => ([], c :: rest)

/-- The fraction at the start of a text, if there is a point; the point needs a digit. -/
def takeFraction : List Char → Option (Option (List Nat) × List Char)
  | '.' :: rest =>
    match takeDigits rest with
    | ([], _) => none
    | (ds, rest) => some (some ds, rest)
  | text => some (none, text)

def exponentDigits (negative : Bool) (text : List Char) :
    Option (Option (Bool × List Nat) × List Char) :=
  match takeDigits text with
  | ([], _) => none
  | (ds, rest) => some (some (negative, ds), rest)

def takeExponent : List Char → Option (Option (Bool × List Nat) × List Char)
  | c :: rest =>
    if c = 'e' ∨ c = 'E' then
      match rest with
      | '-' :: rest => exponentDigits true rest
      | '+' :: rest => exponentDigits false rest
      | rest => exponentDigits false rest
    else some (none, c :: rest)
  | [] => some (none, [])

/-- The whole part at the start of a text: one zero, or digits that do not start with zero. -/
def takeWhole (text : List Char) : Option (List Nat × List Char) :=
  match takeDigits text with
  | ([], _) => none
  | (0 :: _ :: _, _) => none
  | (ds, rest) => some (ds, rest)

def lexUnsigned (negative : Bool) (text : List Char) : Option (Literal × List Char) := do
  let (whole, text) ← takeWhole text
  let (fraction, text) ← takeFraction text
  let (exponent, text) ← takeExponent text
  pure (⟨negative, whole, fraction, exponent⟩, text)

def Literal.lex : List Char → Option (Literal × List Char)
  | '-' :: text => lexUnsigned true text
  | text => lexUnsigned false text

/-! ## Writing -/

def Literal.ofNat (n : Nat) : Literal := ⟨false, digits n, none, none⟩

def digitChars (ds : List Nat) : List Char := ds.map digitChar

/-- The text of a literal; an exponent has its sign. -/
def Literal.write (l : Literal) : List Char :=
  let sign := if l.negative then ['-'] else []
  let fraction :=
    match l.fraction with
    | some ds => '.' :: digitChars ds
    | none => []
  let exponent :=
    match l.exponent with
    | some (true, ds) => 'e' :: '-' :: digitChars ds
    | some (false, ds) => 'e' :: '+' :: digitChars ds
    | none => []
  sign ++ digitChars l.whole ++ fraction ++ exponent

/-! ## Whole numbers -/

/-- The natural number of a literal without sign, fraction and exponent. -/
def Literal.toNat? (l : Literal) : Option Nat :=
  if l.negative || l.fraction.isSome || l.exponent.isSome then none else some (ofDigits l.whole)

theorem Literal.toNat?_ofNat (n : Nat) : (Literal.ofNat n).toNat? = some n := by
  simp [toNat?, ofNat, ofDigits_digits]

/-! ## Doubles -/

def maxSignificand : Nat := 0xffffffffffffffff

/-- A significand and the digits it takes in: a digit that would make it too large ends the
significand. The digits that are left are counted. -/
def takeIn : Nat → List Nat → Nat × Nat
  | s, [] => (s, 0)
  | s, d :: rest =>
    if 10 * s + d ≤ maxSignificand then takeIn (10 * s + d) rest else (s, rest.length + 1)

/-- The significand and power of ten of a literal before its exponent. The fraction is taken in
even where digits of the whole part were left out. -/
def Literal.scaled (l : Literal) : Nat × Int :=
  let (s, dropped) := takeIn 0 l.whole
  match l.fraction with
  | none => (s, dropped)
  | some ds =>
    let (s, left) := takeIn s ds
    (s, Int.ofNat dropped - Int.ofNat (ds.length - left))

def powerOfTen (n : Nat) : Float := Float.ofScientific 1 false n

/-- A double times a power of ten, one rounding for each factor of at most `10 ^ 308`. No value if
the product is too large. -/
def scaleBy : Nat → Float → Int → Option Float
  | 0, f, _ => some f
  | steps + 1, f, e =>
    if e.natAbs ≤ 308 then
      if e ≥ 0 then
        let product := f * powerOfTen e.natAbs
        if product.isInf then none else some product
      else some (f / powerOfTen e.natAbs)
    else if f == 0 then some f
    else if e ≥ 0 then none
    else scaleBy steps (f / powerOfTen 308) (e + 308)

def maxExponent : Nat := 0x7fffffff

def Literal.magnitude (l : Literal) : Option Float :=
  let (s, e) := l.scaled
  let f := (UInt64.ofNat s).toFloat
  match l.exponent with
  | none => scaleBy 4 f e
  | some (negative, ds) =>
    let n := ofDigits ds
    if n > maxExponent then
      if s ≠ 0 && !negative then none else some 0
    else scaleBy 4 f (if negative then e - Int.ofNat n else e + Int.ofNat n)

/-- The double of a literal; no value if it is too large. -/
def Literal.toFloat? (l : Literal) : Option Float :=
  l.magnitude.map fun f => if l.negative then -f else f

end StakeKeeper.Decimal
