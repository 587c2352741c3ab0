import StoredObjects.Pattern.CharSet

/-!
The names under which patterns know sets of characters: ASCII classes, general categories, scripts
and a few other properties. Case, blanks, hyphens and low lines do not count in the names of
properties.
-/

namespace StoredObjects

namespace ClassName

def ascii? (name : String) : Option CharSet :=
  match name with
  | "alnum" => some (.ranges [(48, 57), (65, 90), (97, 122)])
  | "alpha" => some (.ranges [(65, 90), (97, 122)])
  | "ascii" => some (.range 0 127)
  | "blank" => some (.ranges [(9, 9), (32, 32)])
  | "cntrl" => some (.ranges [(0, 31), (127, 127)])
  | "digit" => some (.range 48 57)
  | "graph" => some (.range 33 126)
  | "lower" => some (.range 97 122)
  | "print" => some (.range 32 126)
  | "punct" => some (.ranges [(33, 47), (58, 64), (91, 96), (123, 126)])
  | "space" => some (.ranges [(9, 13), (32, 32)])
  | "upper" => some (.range 65 90)
  | "word" => some (.ranges [(48, 57), (65, 90), (95, 95), (97, 122)])
  | "xdigit" => some (.ranges [(48, 57), (65, 70), (97, 102)])
  | _ => none

def simplified (name : String) : String :=
  let cs := (name.toList.filter fun c => c != ' ' && c != '_' && c != '-').map Char.toLower
  match cs with
  | 'i' :: 's' :: rest =>
    if rest.isEmpty || rest == ['c'] then String.ofList cs else String.ofList rest
  | _ => String.ofList cs

def categories : List (List String × Char × Option Char) :=
  [(["l", "letter"], 'L', none), (["lu", "uppercaseletter"], 'L', some 'u'),
   (["ll", "lowercaseletter"], 'L', some 'l'), (["lt", "titlecaseletter"], 'L', some 't'),
   (["lm", "modifierletter"], 'L', some 'm'), (["lo", "otherletter"], 'L', some 'o'),
   (["m", "mark", "combiningmark"], 'M', none), (["mn", "nonspacingmark"], 'M', some 'n'),
   (["mc", "spacingmark"], 'M', some 'c'), (["me", "enclosingmark"], 'M', some 'e'),
   (["n", "number"], 'N', none), (["nd", "decimalnumber", "digit"], 'N', some 'd'),
   (["nl", "letternumber"], 'N', some 'l'), (["no", "othernumber"], 'N', some 'o'),
   (["p", "punctuation", "punct"], 'P', none), (["pc", "connectorpunctuation"], 'P', some 'c'),
   (["pd", "dashpunctuation"], 'P', some 'd'), (["ps", "openpunctuation"], 'P', some 's'),
   (["pe", "closepunctuation"], 'P', some 'e'), (["pi", "initialpunctuation"], 'P', some 'i'),
   (["pf", "finalpunctuation"], 'P', some 'f'), (["po", "otherpunctuation"], 'P', some 'o'),
   (["s", "symbol"], 'S', none), (["sm", "mathsymbol"], 'S', some 'm'),
   (["sc", "currencysymbol"], 'S', some 'c'), (["sk", "modifiersymbol"], 'S', some 'k'),
   (["so", "othersymbol"], 'S', some 'o'), (["z", "separator"], 'Z', none),
   (["zs", "spaceseparator"], 'Z', some 's'), (["zl", "lineseparator"], 'Z', some 'l'),
   (["zp", "paragraphseparator"], 'Z', some 'p'), (["c", "other"], 'C', none),
   (["cc", "control", "cntrl"], 'C', some 'c'), (["cf", "format"], 'C', some 'f'),
   (["co", "privateuse"], 'C', some 'o'), (["cn", "unassigned"], 'C', some 'n')]

def category? (name : String) : Option CharSet :=
  if name == "lc" || name == "casedletter" then
    some (.union (.category 'L' (some 'u'))
      (.union (.category 'L' (some 'l')) (.category 'L' (some 't'))))
  else (categories.find? fun e => e.1.contains name).map fun e => .category e.2.1 e.2.2

/-- Letters that are small by use though not by category. -/
def otherSmall : List (Nat × Nat) :=
  [(0xaa, 0xaa), (0xba, 0xba), (0x2b0, 0x2b8), (0x2c0, 0x2c1), (0x2e0, 0x2e4), (0x345, 0x345),
   (0x37a, 0x37a), (0x10fc, 0x10fc), (0x1d2c, 0x1d6a), (0x1d78, 0x1d78), (0x1d9b, 0x1dbf),
   (0x2071, 0x2071), (0x207f, 0x207f), (0x2090, 0x209c), (0x2170, 0x217f), (0x24d0, 0x24e9),
   (0x2c7c, 0x2c7d), (0xa69c, 0xa69d), (0xa770, 0xa770), (0xa7f2, 0xa7f4), (0xa7f8, 0xa7f9),
   (0xab5c, 0xab5f), (0xab69, 0xab69), (0x10780, 0x10780), (0x10783, 0x10785), (0x10787, 0x107b0),
   (0x107b2, 0x107ba), (0x1e030, 0x1e06d)]

def otherCapital : List (Nat × Nat) :=
  [(0x2160, 0x216f), (0x24b6, 0x24cf), (0x1f130, 0x1f149), (0x1f150, 0x1f169), (0x1f170, 0x1f189)]

def property? (name : String) : Option CharSet :=
  match simplified name with
  | "any" => some .all
  | "ascii" => some (.range 0 127)
  | "assigned" => some (.compl (.category 'C' (some 'n')))
  | "whitespace" | "wspace" | "space" => some .blank
  | "lowercase" | "lower" => some (.union (.category 'L' (some 'l')) (.ranges otherSmall))
  | "uppercase" | "upper" => some (.union (.category 'L' (some 'u')) (.ranges otherCapital))
  | "alphabetic" | "alpha" => some .alphabetic
  | name => (category? name).or ((Script.named? name).map .script)

def propertyValue? (name value : String) : Option CharSet :=
  match simplified name with
  | "gc" | "generalcategory" =>
    match simplified value with
    | "any" => some .all
    | "ascii" => some (.range 0 127)
    | "assigned" => some (.compl (.category 'C' (some 'n')))
    | value => category? value
  | "sc" | "script" => (Script.named? (simplified value)).map .script
  | _ => none

end ClassName

end StoredObjects
