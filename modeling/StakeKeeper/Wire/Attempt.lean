import StakeKeeper.Wire.Json

/-!
Attempts to read a byte that fail. An attempt reads its text from left to right and stops at the
first character that it cannot use; most such characters it has then taken. `failedByte?` says where
an attempt stops, and `closeBytes?` ends an array of bytes that may hold one such attempt.

Texts are cut into bytes here: an attempt that stops inside a character of several bytes leaves a
text that nothing continues.
-/
namespace StakeKeeper.Wire
set_option autoImplicit false
open Decimal

/-! ## Steps -/

/-- What is left behind the first byte of a character. -/
def behindByte (c : Char) (rest : List Char) : Option (List Char) :=
  if c.toNat < 0x80 then some rest else none

def dropBytes : Nat → List Char → Option (List Char)
  | 0, cs => some cs
  | _ + 1, [] => none
  | n + 1, c :: cs => if c.utf8Size ≤ n + 1 then dropBytes (n + 1 - c.utf8Size) cs else none

/-! ## Words -/

/-- Where an attempt stops that expects the letters of a word: behind them, or behind the first
other character. -/
def wordStop : List Char → List Char → Option (List Char)
  | [], cs => some cs
  | _ :: _, [] => none
  | w :: ws, c :: cs => if c = w then wordStop ws cs else behindByte c cs

/-! ## Texts -/

/-- Where an attempt stops behind an opening quote: behind the closing one, or behind a control
character, a false escape or half of a surrogate pair that stands alone. The flag tells that the
first half of a pair comes before. -/
def textStop : Bool → List Char → Option (List Char)
  | paired, '\\' :: 'u' :: a :: b :: c :: d :: rest =>
    match (fourDigits? a b c d).map CodeUnit.ofNat, paired with
    | none, _ => dropBytes 4 (a :: b :: c :: d :: rest)
    | some (.scalar _), false => textStop false rest
    | some (.highHalf _), false => textStop true rest
    | some (.lowHalf _), true => textStop false rest
    | some _, _ => some rest
  | _, '\\' :: 'u' :: rest => dropBytes 4 rest
  | true, '\\' :: c :: rest => behindByte c rest
  | true, c :: rest => behindByte c rest
  | false, '"' :: rest => some rest
  | false, '\\' :: c :: rest =>
    if (escaped? c).isSome then textStop false rest else behindByte c rest
  | false, c :: rest => if c.toNat < 0x20 then some rest else textStop false rest
  | _, [] => none

/-! ## Numbers -/

def exponentSign : List Char → Bool × List Char
  | '-' :: rest => (true, rest)
  | '+' :: rest => (false, rest)
  | text => (false, text)

/-- Where an attempt stops behind the digits of a significand. The digits of an exponent that
makes the number too large are taken only as far as the exponent itself stays in range. -/
def exponentStop (significand : List Nat) : List Char → Option (List Char)
  | [] => none
  | c :: rest =>
    if c = 'e' ∨ c = 'E' then
      let (negative, rest) := exponentSign rest
      match takeDigits rest, rest with
      | ([], _), c :: rest => behindByte c rest
      | ([], _), [] => none
      | (ds, rest), _ =>
        let tooLarge := !negative && significand.any (· ≠ 0)
        if tooLarge && ofDigits ds.dropLast > maxExponent then none else some rest
    else some (c :: rest)

/-- Where an attempt stops behind the sign of a number. No text goes on at a digit, so that a number
that stops before one stops nowhere. -/
def numberStop (cs : List Char) : Option (List Char) :=
  match takeDigits cs, cs with
  | ([], _), c :: rest => behindByte c rest
  | ([], _), [] => none
  | (0 :: _ :: _, _), _ => none
  | (whole, '.' :: rest), _ =>
    match takeDigits rest with
    | ([], rest) => some rest
    | (ds, rest) => exponentStop (whole ++ ds) rest
  | (whole, rest), _ => exponentStop whole rest

/-! ## Bytes -/

def startsWithByte (cs : List Char) : Bool :=
  match Literal.lex cs with
  | some (l, _) => l.toNat?.any (· < 256)
  | none => false

/-- Where an attempt to read a byte stops if it fails. A character at which no value starts, or an
array or object does, is not taken. -/
def failedByte? (cs : List Char) : Option (List Char) :=
  match cs with
  | [] => none
  | '-' :: rest => numberStop rest
  | '"' :: rest => textStop false rest
  | 'n' :: rest => wordStop ['u', 'l', 'l'] rest
  | 't' :: rest => wordStop ['r', 'u', 'e'] rest
  | 'f' :: rest => wordStop ['a', 'l', 's', 'e'] rest
  | c :: rest =>
    if (digit? c).isNone then some (c :: rest)
    else if startsWithByte (c :: rest) then none
    else numberStop (c :: rest)

def closeArray? (cs : List Char) : Option (List Char) :=
  match skipBlanks cs with
  | ']' :: rest => some rest
  | _ => none

/-- The text behind an array whose bytes are all read: behind its bracket, or behind the bracket
that follows one failed attempt to read one more. -/
def closeBytes? (cs : List Char) : Option (List Char) :=
  match skipBlanks cs with
  | ',' :: rest => failedByte? (skipBlanks rest) >>= closeArray?
  | rest => closeArray? rest

def readNumbers : Nat → Reader (List Json)
  | 0, cs => some ([], cs)
  | 1, cs => (Literal.lex (skipBlanks cs)).map fun (l, rest) => ([.number l], rest)
  | n + 2, cs => do
    let (l, rest) ← Literal.lex (skipBlanks cs)
    match skipBlanks rest with
    | ',' :: rest => do
      let (more, rest) ← readNumbers (n + 1) rest
      some (.number l :: more, rest)
    | _ => none

end StakeKeeper.Wire
