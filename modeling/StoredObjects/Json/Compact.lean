import StoredObjects.Decimal.Layout
import StoredObjects.Json.Value

/-!
The compact text of a value: no blanks, fields in the order in which the object lists them.

Identity keys, routing hashes and messages all use this text.
-/

namespace StoredObjects

namespace Compact

/-- Numbers from `0.00001` up to below `10^16` are written plainly. -/
def layout : Decimal.Layout := ⟨-5, 15⟩

def naturalChars (n : Nat) : List Char := Decimal.digitChars n

def intChars : Int → List Char
  | .ofNat n => naturalChars n
  | .negSucc n => '-' :: naturalChars (n + 1)

def numberChars : Number → List Char
  | .int i => intChars i
  | .float x => (if x.isNegative then ['-'] else []) ++ layout.chars (Decimal.shortest x)

def hexDigit (n : Nat) : Char :=
  if n < 10 then Char.ofNat (48 + n) else Char.ofNat (87 + n)

/-- A quote, a backslash and the characters below the blank are escaped, and nothing else is. -/
def escapedChar (c : Char) : List Char :=
  if c = '"' then ['\\', '"']
  else if c = '\\' then ['\\', '\\']
  else if c = '\x08' then ['\\', 'b']
  else if c = '\t' then ['\\', 't']
  else if c = '\n' then ['\\', 'n']
  else if c = '\x0c' then ['\\', 'f']
  else if c = '\r' then ['\\', 'r']
  else if c.toNat < 32 then
    ['\\', 'u', '0', '0', hexDigit (c.toNat / 16), hexDigit (c.toNat % 16)]
  else [c]

def textChars (s : String) : List Char := '"' :: s.toList.flatMap escapedChar ++ ['"']

mutual

def chars : Value → List Char
  | .null => ['n', 'u', 'l', 'l']
  | .bool true => ['t', 'r', 'u', 'e']
  | .bool false => ['f', 'a', 'l', 's', 'e']
  | .number n => numberChars n
  | .text s => textChars s
  | .array [] => ['[', ']']
  | .array (item :: items) => '[' :: (chars item ++ itemsChars items)
  | .object [] => ['{', '}']
  | .object ((k, v) :: fields) => '{' :: (textChars k ++ ':' :: (chars v ++ fieldsChars fields))

def itemsChars : List Value → List Char
  | [] => [']']
  | item :: items => ',' :: (chars item ++ itemsChars items)

def fieldsChars : List (String × Value) → List Char
  | [] => ['}']
  | (k, v) :: fields => ',' :: (textChars k ++ ':' :: (chars v ++ fieldsChars fields))

end

end Compact

def Value.compact (v : Value) : String := String.ofList (Compact.chars v)

end StoredObjects
