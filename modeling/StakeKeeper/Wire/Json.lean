import StakeKeeper.Decimal.Literal
import StakeKeeper.Hex

/-!
JSON texts as trees, with a reader and a compact writer. Numbers stay literals. A text in the tree
may hold halves of surrogate pairs that stand alone; such a text has no string. `readWith` reads a
value whose parts have readers of their own; `readValue` reads any value.
-/
namespace StakeKeeper.Wire
set_option autoImplicit false

/-! ## Trees -/

/-- A JSON text; none if it holds half of a surrogate pair that stands alone. -/
abbrev Text := Option String

/-- A JSON value. The members of an object keep their order, and names may repeat. -/
inductive Json where
  | null
  | bool (b : Bool)
  | number (l : Decimal.Literal)
  | string (s : Text)
  | array (elements : List Json)
  | object (members : List (Text × Json))

/-! ## Texts -/

/-- A character of a text as it is written: a scalar value or half of a surrogate pair. -/
inductive CodeUnit where
  | scalar (c : Char)
  | highHalf (n : Nat)
  | lowHalf (n : Nat)

def CodeUnit.ofNat (n : Nat) : CodeUnit :=
  if 0xd800 ≤ n ∧ n < 0xdc00 then .highHalf (n - 0xd800)
  else if 0xdc00 ≤ n ∧ n < 0xe000 then .lowHalf (n - 0xdc00)
  else .scalar (Char.ofNat n)

/-- The characters of units; none if half of a pair stands alone. -/
def joinUnits : List CodeUnit → Option (List Char)
  | [] => some []
  | .scalar c :: rest => (joinUnits rest).map (c :: ·)
  | .highHalf h :: .lowHalf l :: rest =>
    (joinUnits rest).map (Char.ofNat (0x10000 + h * 0x400 + l) :: ·)
  | _ => none

def escaped? : Char → Option Char
  | '"' => some '"'
  | '\\' => some '\\'
  | '/' => some '/'
  | 'b' => some '\x08'
  | 'f' => some '\x0c'
  | 'n' => some '\n'
  | 'r' => some '\r'
  | 't' => some '\t'
  | _ => none

def fourDigits? (a b c d : Char) : Option Nat := do
  let a ← Hex.digit? a
  let b ← Hex.digit? b
  let c ← Hex.digit? c
  let d ← Hex.digit? d
  pure (((a * 16 + b) * 16 + c) * 16 + d)

/-- The units up to the closing quote, and what follows it. Control characters must be escaped. -/
def lexText : List Char → Option (List CodeUnit × List Char)
  | '"' :: rest => some ([], rest)
  | '\\' :: 'u' :: a :: b :: c :: d :: rest => do
    let n ← fourDigits? a b c d
    let (units, rest) ← lexText rest
    pure (.ofNat n :: units, rest)
  | '\\' :: c :: rest => do
    let c ← escaped? c
    let (units, rest) ← lexText rest
    pure (.scalar c :: units, rest)
  | c :: rest =>
    if c.toNat < 0x20 then none
    else do
      let (units, rest) ← lexText rest
      pure (.scalar c :: units, rest)
  | [] => none

abbrev Reader (α : Type) := List Char → Option (α × List Char)

def readText : Reader Text := fun cs =>
  (lexText cs).map fun (units, rest) => ((joinUnits units).map String.ofList, rest)

/-! ## Reading -/

def skipBlanks (cs : List Char) : List Char :=
  cs.dropWhile fun c => c == ' ' || c == '\n' || c == '\t' || c == '\r'

/-- Reads a value within a bound on steps. Any bound above the length of the text is enough, since
each step takes a character or more. -/
abbrev Scanner := Nat → Reader Json

/-- The elements from number `i` on up to a closing bracket, at least one. -/
def readElements (element : Nat → Reader Json) : Nat → Nat → Reader (List Json)
  | 0, _, _ => none
  | fuel + 1, i, cs => do
    let (first, rest) ← element i cs
    match skipBlanks rest with
    | ']' :: rest => some ([first], rest)
    | ',' :: rest => do
      let (more, rest) ← readElements element fuel (i + 1) rest
      some (first :: more, rest)
    | _ => none

/-- The members up to a closing brace, at least one. -/
def readMembers (member : Text → Reader Json) : Nat → Reader (List (Text × Json))
  | 0, _ => none
  | fuel + 1, cs =>
    match skipBlanks cs with
    | '"' :: rest => do
      let (name, rest) ← readText rest
      match skipBlanks rest with
      | ':' :: rest => do
        let (value, rest) ← member name rest
        match skipBlanks rest with
        | '}' :: rest => some ([(name, value)], rest)
        | ',' :: rest => do
          let (more, rest) ← readMembers member fuel rest
          some ((name, value) :: more, rest)
        | _ => none
      | _ => none
    | _ => none

/-- A value. The reader of an element is chosen by its number, that of a member's value by its
name. -/
def readWith (element : Nat → Reader Json) (member : Text → Reader Json) (fuel : Nat) :
    Reader Json := fun cs =>
  match skipBlanks cs with
  | 'n' :: 'u' :: 'l' :: 'l' :: rest => some (.null, rest)
  | 't' :: 'r' :: 'u' :: 'e' :: rest => some (.bool true, rest)
  | 'f' :: 'a' :: 'l' :: 's' :: 'e' :: rest => some (.bool false, rest)
  | '"' :: rest => (readText rest).map fun (s, rest) => (.string s, rest)
  | '[' :: rest =>
    match skipBlanks rest with
    | ']' :: rest => some (.array [], rest)
    | rest => (readElements element fuel 0 rest).map fun (es, rest) => (.array es, rest)
  | '{' :: rest =>
    match skipBlanks rest with
    | '}' :: rest => some (.object [], rest)
    | rest => (readMembers member fuel rest).map fun (ms, rest) => (.object ms, rest)
  | rest => (Decimal.Literal.lex rest).map fun (l, rest) => (.number l, rest)

def readValue : Scanner
  | 0 => fun _ => none
  | fuel + 1 => readWith (fun _ => readValue fuel) (fun _ => readValue fuel) fuel

/-- A value whose parts are read by other scanners. -/
def scanParts (element : Nat → Scanner) (member : Text → Scanner) : Scanner
  | 0 => fun _ => none
  | fuel + 1 => readWith (fun i => element i fuel) (fun name => member name fuel) fuel

def Scanner.whole (scan : Scanner) (text : String) : Option Json :=
  let cs := text.toList
  match scan (cs.length + 1) cs with
  | some (value, rest) => if (skipBlanks rest).isEmpty then some value else none
  | none => none

def Json.parse (text : String) : Option Json := Scanner.whole readValue text

/-! ## Writing -/

def writeChar (c : Char) : List Char :=
  if c = '"' then ['\\', '"']
  else if c = '\\' then ['\\', '\\']
  else if c.toNat < 0x20 then
    ['\\', 'u', '0', '0', Hex.digit (c.toNat / 16), Hex.digit (c.toNat % 16)]
  else [c]

/-- A text in quotes; one without a string is written empty. -/
def writeText (s : Text) : List Char :=
  '"' :: ((s.getD "").toList.flatMap writeChar ++ ['"'])

def withCommas : List (List Char) → List Char
  | [] => []
  | [text] => text
  | text :: rest => text ++ ',' :: withCommas rest

mutual

/-- The characters of a value, without blanks. -/
def Json.chars : Json → List Char
  | .null => ['n', 'u', 'l', 'l']
  | .bool true => ['t', 'r', 'u', 'e']
  | .bool false => ['f', 'a', 'l', 's', 'e']
  | .number l => l.write
  | .string s => writeText s
  | .array es => '[' :: (withCommas (elementChars es) ++ [']'])
  | .object ms => '{' :: (withCommas (memberChars ms) ++ ['}'])

def elementChars : List Json → List (List Char)
  | [] => []
  | e :: es => e.chars :: elementChars es

def memberChars : List (Text × Json) → List (List Char)
  | [] => []
  | (name, value) :: ms => (writeText name ++ ':' :: value.chars) :: memberChars ms

end

def Json.write (j : Json) : String := String.ofList j.chars

end StakeKeeper.Wire
