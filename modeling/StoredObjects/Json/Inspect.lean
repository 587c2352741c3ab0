import StoredObjects.Json.Compact
import StoredObjects.Text.Quoted

/-!
Values as messages show them: every part is named by its kind.
-/

namespace StoredObjects

namespace Inspect

mutual

def value : Value → String
  | .null => "Null"
  | .bool true => "Bool(true)"
  | .bool false => "Bool(false)"
  | .number n => "Number(" ++ String.ofList (Compact.numberChars n) ++ ")"
  | .text s => "String(" ++ Quoted.quote s ++ ")"
  | .array [] => "Array []"
  | .array (item :: items) => "Array [" ++ value item ++ itemsRest items
  | .object [] => "Object \x7b\x7d"
  | .object ((k, v) :: fields) =>
    "Object \x7b" ++ Quoted.quote k ++ ": " ++ value v ++ fieldsRest fields

def itemsRest : List Value → String
  | [] => "]"
  | item :: items => ", " ++ value item ++ itemsRest items

def fieldsRest : List (String × Value) → String
  | [] => "\x7d"
  | (k, v) :: fields => ", " ++ Quoted.quote k ++ ": " ++ value v ++ fieldsRest fields

end

def optional : Option Value → String
  | none => "None"
  | some v => "Some(" ++ value v ++ ")"

def optionalText : Option String → String
  | none => "None"
  | some s => "Some(" ++ Quoted.quote s ++ ")"

end Inspect

end StoredObjects
