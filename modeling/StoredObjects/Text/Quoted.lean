import StoredObjects.Text.Category

/-!
Text in quotes, as messages show it: a quote, a backslash and the characters that do not show on
their own are escaped.
-/

namespace StoredObjects

namespace Quoted

def escapedChar (c : Char) : List Char :=
  if c = '"' then ['\\', '"']
  else if c = '\\' then ['\\', '\\']
  else if c = '\n' then ['\\', 'n']
  else if c = '\r' then ['\\', 'r']
  else if c = '\t' then ['\\', 't']
  else if c = '\x00' then ['\\', '0']
  else if Category.isShown c then [c]
  else ['\\', 'u', '{'] ++ Nat.toDigits 16 c.toNat ++ ['}']

def chars (s : String) : List Char := '"' :: s.toList.flatMap escapedChar ++ ['"']

def quote (s : String) : String := String.ofList (chars s)

def quoteAll (texts : List String) : String :=
  "[" ++ String.intercalate ", " (texts.map quote) ++ "]"

end Quoted

end StoredObjects
