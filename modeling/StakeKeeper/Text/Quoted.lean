import StakeKeeper.Text.Displayed

/-!
Quoted texts: quotes and backslashes are escaped, as is every character that is not displayed on its
own.
-/
namespace StakeKeeper.Text
set_option autoImplicit false

def escape (c : Char) : List Char :=
  if c = '"' then ['\\', '"']
  else if c = '\\' then ['\\', '\\']
  else if c = '\n' then ['\\', 'n']
  else if c = '\r' then ['\\', 'r']
  else if c = '\t' then ['\\', 't']
  else if c = '\x00' then ['\\', '0']
  else if isDisplayed c then [c]
  else '\\' :: 'u' :: '\x7b' :: (Nat.toDigits 16 c.toNat ++ ['\x7d'])

def quote (s : String) : String := String.ofList ('"' :: (s.toList.flatMap escape ++ ['"']))

def quotedList (texts : List String) : String := "[" ++ ", ".intercalate (texts.map quote) ++ "]"

end StakeKeeper.Text
