import StoredObjects.Pattern.Basic
import StoredObjects.Pattern.ClassName
import StoredObjects.Pattern.Size

/-!
Reading patterns from their text.

A reader takes one item off the text at a time and keeps the groups and sets that are still open.
Each item takes one character or more, so that the length of the text bounds the number of items.
-/

namespace StoredObjects

namespace PatternReader

/-- What the letters `i m s x R u` switch. -/
structure Flags where
  ignoreCase : Bool
  multiLine : Bool := false
  dotAll : Bool := false
  verbose : Bool := false
  crlf : Bool := false
  unicode : Bool := true

/-! ## Escapes -/

inductive Escape where
  | char (c : Nat)
  | set (s : CharSet)
  | anchor (a : Anchor)

def hexValue? (c : Char) : Option Nat :=
  if c.isDigit then some (c.toNat - 48)
  else if 'a' ≤ c ∧ c ≤ 'f' then some (c.toNat - 87)
  else if 'A' ≤ c ∧ c ≤ 'F' then some (c.toNat - 55)
  else none

def hexChar? (digits : List Char) : Option Nat := do
  if digits.isEmpty then none
  let n ← digits.foldlM (fun n d => (hexValue? d).map fun x => min (n * 16 + x) 0x110000) 0
  if n < 0x110000 ∧ ¬ (0xd800 ≤ n ∧ n < 0xe000) then some n else none

def braced? (cs : List Char) : Option (List Char × List Char) :=
  match cs.dropWhile fun c => c != '}' with
  | [] => none
  | _ :: rest => some (cs.takeWhile fun c => c != '}', rest)

/-- Reads a hexadecimal number: between braces, or of the given length. -/
def hexEscape? (size : Nat) (cs : List Char) : Option (Escape × List Char) :=
  match cs with
  | '{' :: cs => do
    let (digits, rest) ← braced? cs
    some (.char (← hexChar? digits), rest)
  | _ =>
    if cs.length < size then none
    else (hexChar? (cs.take size)).map fun c => (.char c, cs.drop size)

/-- Two digits without braces stand for a byte; without Unicode it has to be an ASCII character. -/
def byteEscape? (flags : Flags) (cs : List Char) : Option (Escape × List Char) :=
  match hexEscape? 2 cs with
  | some (.char n, rest) =>
    if !flags.unicode && cs.head? != some '{' && 128 ≤ n then none else some (.char n, rest)
  | other => other

def complIf (negated : Bool) (s : CharSet) : CharSet := if negated then .compl s else s

def foldIf (flags : Flags) (s : CharSet) : CharSet := if flags.ignoreCase then .folded s else s

def propertySet? (name : List Char) : Option CharSet :=
  let split (separator : Char) : Option (String × String) :=
    match name.dropWhile fun c => c != separator with
    | [] => none
    | _ :: value =>
      some (String.ofList (name.takeWhile fun c => c != separator), String.ofList value)
  match split '!' with
  | some (p, v) =>
    match v.toList with
    | '=' :: v => (ClassName.propertyValue? p (String.ofList v)).map .compl
    | _ => none
  | none =>
    match (split ':').or (split '=') with
    | some (p, v) => ClassName.propertyValue? p v
    | none => ClassName.property? (String.ofList name)

def propertyEscape? (flags : Flags) (negated : Bool) (cs : List Char) :
    Option (Escape × List Char) :=
  if !flags.unicode then none
  else match cs with
    | '{' :: cs => do
      let (name, rest) ← braced? cs
      some (.set (complIf negated (foldIf flags (← propertySet? name))), rest)
    | '\\' :: _ => none
    | c :: rest => do
      let set ← ClassName.property? (String.singleton c)
      some (.set (complIf negated (foldIf flags set)), rest)
    | [] => none

def wordSet (flags : Flags) : CharSet := if flags.unicode then .word else .inter .word .ascii

/-- Sets by one letter; without Unicode they hold ASCII characters only and have no complement. -/
def letterSet? (flags : Flags) (c : Char) : Option CharSet :=
  let pick (full : CharSet) (name : String) : Option CharSet :=
    if flags.unicode then some full else ClassName.ascii? name
  let deny (full : CharSet) : Option CharSet :=
    if flags.unicode then some (.compl full) else none
  if c = 'd' then pick .digit "digit"
  else if c = 's' then pick .blank "space"
  else if c = 'w' then pick .word "word"
  else if c = 'D' then deny .digit
  else if c = 'S' then deny .blank
  else if c = 'W' then deny .word
  else none

def controlChar? (c : Char) : Option Nat :=
  if c = 'a' then some 7
  else if c = 'f' then some 12
  else if c = 't' then some 9
  else if c = 'n' then some 10
  else if c = 'r' then some 13
  else if c = 'v' then some 11
  else none

def boundaryName? (name : String) : Option Boundary :=
  match name with
  | "start" => some .start
  | "end" => some .finish
  | "start-half" => some .startHalf
  | "end-half" => some .finishHalf
  | _ => none

def boundary? (cs : List Char) : Option (Boundary × List Char) :=
  match cs with
  | '{' :: rest =>
    let isName (c : Char) : Bool := c.isAlpha || c == '-'
    if !(rest.head?.any isName) then some (.between, cs)
    else
      match rest.dropWhile isName with
      | '}' :: after => do
        some (← boundaryName? (String.ofList (rest.takeWhile isName)), after)
      | _ => none
  | _ => some (.between, cs)

/-- Reads what follows a backslash. Every ASCII character but letters, digits and angles may be
escaped to stand for itself; there are no references to groups. -/
def escape? (flags : Flags) (cs : List Char) : Option (Escape × List Char) :=
  let word (b : Boundary) : Escape := .anchor (.boundary b (wordSet flags))
  match cs with
  | [] => none
  | c :: rest =>
    if c.isDigit then none
    else if c = 'x' then byteEscape? flags rest
    else if c = 'u' then hexEscape? 4 rest
    else if c = 'U' then hexEscape? 8 rest
    else if c = 'p' then propertyEscape? flags false rest
    else if c = 'P' then propertyEscape? flags true rest
    else if c = 'A' then some (.anchor .textStart, rest)
    else if c = 'z' then some (.anchor .textEnd, rest)
    else if c = 'b' then (boundary? rest).map fun (b, rest) => (word b, rest)
    else if c = 'B' then some (word .within, rest)
    else if c = '<' then some (word .start, rest)
    else if c = '>' then some (word .finish, rest)
    else match letterSet? flags c, controlChar? c with
      | some s, _ => some (.set s, rest)
      | none, some n => some (.char n, rest)
      | none, none =>
        if c.toNat < 128 ∧ ¬ c.isAlphanum then some (.char c.toNat, rest) else none

/-! ## Sets in brackets -/

inductive SetOp where
  | inter
  | diff
  | symmDiff

def SetOp.apply : SetOp → CharSet → CharSet → CharSet
  | inter => .inter
  | diff => .diff
  | symmDiff => .symmDiff

/-- A set that is still open: whether its complement is meant, the operation that waits for its
right side, and the union of the items since then. -/
structure OpenSet where
  negated : Bool
  pending : Option (CharSet × SetOp)
  items : CharSet

def OpenSet.value (flags : Flags) (o : OpenSet) : CharSet :=
  match o.pending with
  | some (left, op) => op.apply left (foldIf flags o.items)
  | none => foldIf flags o.items

def OpenSet.add (o : OpenSet) (s : CharSet) : OpenSet := { o with items := .union o.items s }

def OpenSet.operate (flags : Flags) (o : OpenSet) (op : SetOp) : OpenSet :=
  { o with pending := some (o.value flags, op), items := .empty }

/-- The set when its closing bracket comes. Without Unicode it is a set of bytes, which must all be
ASCII characters. -/
def OpenSet.close? (flags : Flags) (o : OpenSet) : Option CharSet :=
  let s := complIf o.negated (o.value flags)
  if flags.unicode then some s
  else if s.isAscii then some (.inter s .ascii)
  else none

/-- Leaves out blanks and, behind `#`, the rest of the line, where the flags allow them. -/
def skipBlank (flags : Flags) (cs : List Char) : List Char :=
  if flags.verbose then
    let rec skip : (comment : Bool) → List Char → List Char
      | _, [] => []
      | comment, c :: cs =>
        if comment then skip (c != '\n') cs
        else if Category.isBlank c then skip false cs
        else if c = '#' then skip true cs
        else c :: cs
    skip false cs
  else cs

/-- Opens a set behind its bracket. Hyphens at the front stand for themselves, and so does a closing
bracket that comes first. -/
def openSet (flags : Flags) (cs : List Char) : OpenSet × List Char :=
  let cs := skipBlank flags cs
  let (negated, cs) : Bool × List Char := match cs with
    | '^' :: cs => (true, skipBlank flags cs)
    | _ => (false, cs)
  let rest := cs.dropWhile fun c => c == '-'
  if rest.length < cs.length then (⟨negated, none, .single '-'⟩, rest)
  else match cs with
    | ']' :: cs => (⟨negated, none, .single ']'⟩, cs)
    | _ => (⟨negated, none, .empty⟩, cs)

def asciiClass? (cs : List Char) : Option (CharSet × List Char) :=
  match cs with
  | ':' :: cs =>
    let (negated, cs) : Bool × List Char := match cs with
      | '^' :: cs => (true, cs)
      | _ => (false, cs)
    match cs.dropWhile fun c => c != ':' with
    | ':' :: ']' :: rest =>
      (ClassName.ascii? (String.ofList (cs.takeWhile fun c => c != ':'))).map fun s =>
        (complIf negated s, rest)
    | _ => none
  | _ => none

def setItem? (flags : Flags) (cs : List Char) : Option (Escape × List Char) :=
  match cs with
  | [] => none
  | '\\' :: cs => escape? flags cs
  | c :: cs => some (.char c.toNat, cs)

def setRange? (flags : Flags) (cs : List Char) : Option (CharSet × List Char) := do
  let (first, cs) ← setItem? flags cs
  let cs := skipBlank flags cs
  let isRange := match cs with
    | '-' :: rest =>
      let next := (skipBlank flags rest).head?
      next != some ']' && next != some '-'
    | _ => false
  if isRange then
    let (last, cs) ← setItem? flags (skipBlank flags (cs.drop 1))
    match first, last with
    | .char a, .char b =>
      if a ≤ b ∧ (flags.unicode ∨ b < 128) then some (.range a b, cs) else none
    | _, _ => none
  else
    match first with
    | .char a => if flags.unicode ∨ a < 128 then some (.range a a, cs) else none
    | .set s => some (s, cs)
    | .anchor _ => none

def setRest? (flags : Flags) : (fuel : Nat) → OpenSet → List OpenSet → List Char →
    Option (CharSet × List Char)
  | 0, _, _, _ => none
  | fuel + 1, o, outer, cs =>
    match skipBlank flags cs with
    | [] => none
    | '[' :: cs =>
      match asciiClass? cs with
      | some (s, cs) => setRest? flags fuel (o.add s) outer cs
      | none =>
        let (inner, cs) := openSet flags cs
        setRest? flags fuel inner (o :: outer) cs
    | ']' :: cs => do
      let s ← o.close? flags
      match outer with
      | [] => some (s, cs)
      | o' :: outer => setRest? flags fuel (o'.add s) outer cs
    | '&' :: '&' :: cs => setRest? flags fuel (o.operate flags .inter) outer cs
    | '-' :: '-' :: cs => setRest? flags fuel (o.operate flags .diff) outer cs
    | '~' :: '~' :: cs => setRest? flags fuel (o.operate flags .symmDiff) outer cs
    | cs => do
      let (s, cs) ← setRange? flags cs
      setRest? flags fuel (o.add s) outer cs

def set? (flags : Flags) (cs : List Char) : Option (CharSet × List Char) :=
  let (o, rest) := openSet flags cs
  setRest? flags (rest.length + 1) o [] rest

/-! ## Repetition -/

def count? (cs : List Char) : Option (Nat × List Char) :=
  let cs := cs.dropWhile Category.isBlank
  let digits := cs.takeWhile Char.isDigit
  let n := digits.foldl (fun n d => n * 10 + (d.toNat - 48)) 0
  if digits.isEmpty ∨ 0x100000000 ≤ n then none
  else some (n, (cs.dropWhile Char.isDigit).dropWhile Category.isBlank)

def bounds? (flags : Flags) (cs : List Char) : Option ((Nat × Option Nat) × List Char) := do
  let (least, cs) ← count? cs
  match cs with
  | '}' :: cs => some ((least, some least), cs)
  | ',' :: cs =>
    match skipBlank flags cs with
    | '}' :: cs => some ((least, none), cs)
    | cs =>
      let (most, cs) ← count? cs
      match cs with
      | '}' :: cs => if least ≤ most then some ((least, some most), cs) else none
      | _ => none
  | _ => none

/-! ## Groups -/

/-- Switches the flag with a letter. The letter `U` only says which of several matches to prefer. -/
def Flags.set? (flags : Flags) (letter : Char) (on : Bool) : Option Flags :=
  if letter = 'i' then some { flags with ignoreCase := on }
  else if letter = 'm' then some { flags with multiLine := on }
  else if letter = 's' then some { flags with dotAll := on }
  else if letter = 'x' then some { flags with verbose := on }
  else if letter = 'R' then some { flags with crlf := on }
  else if letter = 'u' then some { flags with unicode := on }
  else if letter = 'U' then some flags
  else none

/-- Reads flags up to their end, a colon or a closing parenthesis. No letter comes twice, and behind
the hyphen comes one letter at least. -/
def flagsRest? : (flags : Flags) → (on : Bool) → (seen : List Char) → List Char →
    Option (Flags × Char × List Char)
  | _, _, _, [] => none
  | flags, on, seen, c :: cs =>
    if c = ':' ∨ c = ')' then
      if seen.head? = some '-' then none else some (flags, c, cs)
    else if seen.contains c then none
    else if c = '-' then flagsRest? flags false (c :: seen) cs
    else do flagsRest? (← flags.set? c on) on (c :: seen) cs

inductive Opening where
  /-- A group, perhaps with a name and with flags of its own. -/
  | group (flags : Flags) (name : Option String)
  /-- Flags for the rest of the present group. -/
  | directive (flags : Flags)

def isNameChar (first : Bool) (c : Char) : Bool :=
  if first then c == '_' || Category.isAlphabetic c
  else c == '_' || c == '.' || c == '[' || c == ']' || Category.isAlphanumeric c

def name? (cs : List Char) : Option (String × List Char) :=
  let name := cs.takeWhile fun c => c != '>'
  match cs.dropWhile fun c => c != '>', name with
  | _ :: rest, first :: others =>
    if isNameChar true first && others.all (isNameChar false) then some (String.ofList name, rest)
    else none
  | _, _ => none

def opening? (flags : Flags) (cs : List Char) : Option (Opening × List Char) :=
  match cs with
  | '?' :: 'P' :: '<' :: cs => (name? cs).map fun (n, rest) => (.group flags (some n), rest)
  | '?' :: '<' :: '=' :: _ => none
  | '?' :: '<' :: '!' :: _ => none
  | '?' :: '<' :: cs => (name? cs).map fun (n, rest) => (.group flags (some n), rest)
  | '?' :: ')' :: _ => none
  | '?' :: cs => do
    let (flags', stop, rest) ← flagsRest? flags true [] cs
    some (if stop = ':' then .group flags' none else .directive flags', rest)
  | _ => some (.group flags none, cs)

/-! ## The whole pattern -/

/-- The part of a pattern that is being read: its branches before the present one and the items of
that one, both in reverse; `repeatable` tells whether a repetition can follow. -/
structure Level where
  flags : Flags
  branches : List Pattern
  items : List Pattern
  repeatable : Bool

def Level.start (flags : Flags) : Level := ⟨flags, [], [], false⟩

def Level.add (l : Level) (p : Pattern) : Level :=
  { l with items := p :: l.items, repeatable := true }

def Level.bar (l : Level) : Level :=
  { l with
    branches := Pattern.inOrder l.items.reverse :: l.branches, items := [], repeatable := false }

def Level.pattern (l : Level) : Pattern := Pattern.anyOf l.bar.branches.reverse

def Level.again? (l : Level) (least : Nat) (most : Option Nat) : Option Level :=
  match l.repeatable, l.items with
  | true, p :: items => some { l with items := .many p least most :: items }
  | _, _ => none

def skipLazy (flags : Flags) (cs : List Char) : List Char :=
  match skipBlank flags cs with
  | '?' :: cs => cs
  | _ => cs

/-- One character. Without Unicode only the case of ASCII letters can be ignored. -/
def charPattern (flags : Flags) (c : Nat) : Pattern :=
  .char <|
    if !flags.ignoreCase then .range c c
    else if flags.unicode then .caseless c
    else if c < 128 then .inter (.caseless c) .ascii
    else .range c c

def dotPattern? (flags : Flags) : Option Pattern :=
  if !flags.unicode then none
  else if flags.dotAll then some (.char .all)
  else if flags.crlf then some (.char (.compl (.union (.single '\n') (.single '\r'))))
  else some (.char (.compl (.single '\n')))

def item? (l : Level) (outer : List Level) (names : List String) (c : Char) (cs : List Char) :
    Option (Level × List Level × List String × List Char) :=
  let flags := l.flags
  let go (l : Level) (cs : List Char) : Option (Level × List Level × List String × List Char) :=
    some (l, outer, names, cs)
  if c = '(' then do
    let (o, rest) ← opening? flags (skipBlank flags cs)
    match o with
    | .directive flags => go { l with flags, repeatable := false } rest
    | .group flags name =>
      match name with
      | some n =>
        if names.contains n then none else some (.start flags, l :: outer, n :: names, rest)
      | none => some (.start flags, l :: outer, names, rest)
  else if c = ')' then
    match outer with
    | [] => none
    | o :: outer => some (o.add l.pattern, outer, names, cs)
  else if c = '|' then go l.bar cs
  else if c = '[' then do
    let (s, rest) ← set? flags cs
    go (l.add (.char s)) rest
  else if c = '?' then do go (← l.again? 0 (some 1)) (skipLazy flags cs)
  else if c = '*' then do go (← l.again? 0 none) (skipLazy flags cs)
  else if c = '+' then do go (← l.again? 1 none) (skipLazy flags cs)
  else if c = '{' then do
    let ((least, most), rest) ← bounds? flags cs
    go (← l.again? least most) (skipLazy flags rest)
  else if c = '.' then do go (l.add (← dotPattern? flags)) cs
  else if c = '^' then
    go (l.add (.anchor (if flags.multiLine then .lineStart flags.crlf else .textStart))) cs
  else if c = '$' then
    go (l.add (.anchor (if flags.multiLine then .lineEnd flags.crlf else .textEnd))) cs
  else if c = '\\' then do
    let (e, rest) ← escape? flags cs
    match e with
    | .char n => go (l.add (charPattern flags n)) rest
    | .set s => go (l.add (.char s)) rest
    | .anchor a => go (l.add (.anchor a)) rest
  else go (l.add (charPattern flags c.toNat)) cs

def rest? : (fuel : Nat) → Level → List Level → List String → List Char → Option Pattern
  | 0, _, _, _, _ => none
  | fuel + 1, l, outer, names, cs =>
    match skipBlank l.flags cs with
    | [] => if outer.isEmpty then some l.pattern else none
    | c :: cs => do
      let (l, outer, names, cs) ← item? l outer names c cs
      rest? fuel l outer names cs

end PatternReader

/-- Reads a pattern; `ignoreCase` says whether case counts until the pattern says otherwise.
Patterns that would take too much room are refused. -/
def Pattern.ofText? (ignoreCase : Bool) (text : String) : Option Pattern :=
  let cs := text.toList
  let flags : PatternReader.Flags := { ignoreCase }
  (PatternReader.rest? (cs.length + 1) (.start flags) [] [] cs).filter fun p => p.room ≤ largest

end StoredObjects
