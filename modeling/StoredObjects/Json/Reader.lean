import StoredObjects.Decimal.Nearest
import StoredObjects.Json.Value

/-!
Reading a value from its text.

The text is first cut into tokens, by one pass over its characters; a second pass over the tokens
keeps the arrays and objects that are still open. Both passes go forward only, so both are
recursions on their input.
-/

namespace StoredObjects

namespace Reader

inductive Token where
  | openArray
  | closeArray
  | openObject
  | closeObject
  | comma
  | colon
  | leaf (v : Value)

def isBlank (c : Char) : Bool := c = ' ' || c = '\t' || c = '\n' || c = '\r'

def punctuation? (c : Char) : Option Token :=
  if c = '[' then some .openArray
  else if c = ']' then some .closeArray
  else if c = '{' then some .openObject
  else if c = '}' then some .closeObject
  else if c = ',' then some .comma
  else if c = ':' then some .colon
  else none

def digitsValue (ds : List Char) : Nat := ds.foldl (fun n d => n * 10 + (d.toNat - 48)) 0

/-- Whole numbers from `-2^63` up to below `2^64` are integers; the text `-0` and all other whole
numbers are binary64 numbers. -/
def wholeNumber (negative : Bool) (n : Nat) : Option Number :=
  let noInteger := negative && (n == 0 || decide (0x8000000000000000 < n))
  if noInteger || decide (0x10000000000000000 ≤ n) then
    (Decimal.nearest? negative ⟨n, 0⟩).map .float
  else some (.int (if negative then -(n : Int) else n))

/-- A decimal far outside the range of binary64 is settled by its size alone. -/
def binaryNumber (negative : Bool) (digits : List Char) (exponent : Int) : Option Number :=
  let size := (digits.length : Int) + exponent
  if digitsValue digits ≠ 0 ∧ 400 < size then none
  else if digitsValue digits = 0 ∨ size < -400 then
    (Decimal.nearest? negative ⟨0, 0⟩).map .float
  else (Decimal.nearest? negative ⟨digitsValue digits, exponent⟩).map .float

def numberRest (negative : Bool) (whole rest : List Char) : Option Number :=
  let (fraction, rest) : List Char × List Char := match rest with
    | '.' :: rest => (rest.takeWhile Char.isDigit, rest.dropWhile Char.isDigit)
    | _ => ([], rest)
  match rest with
  | [] =>
    if fraction.isEmpty then none
    else binaryNumber negative (whole ++ fraction) (-fraction.length)
  | e :: rest =>
    if e ≠ 'e' ∧ e ≠ 'E' then none
    else
      let (down, power) : Bool × List Char := match rest with
        | '-' :: rest => (true, rest)
        | '+' :: rest => (false, rest)
        | _ => (false, rest)
      if power.isEmpty ∨ ¬ power.all Char.isDigit then none
      else
        let power : Int := if down then -(digitsValue power : Int) else digitsValue power
        binaryNumber negative (whole ++ fraction) (power - fraction.length)

def number? (cs : List Char) : Option Number :=
  let (negative, cs) : Bool × List Char := match cs with
    | '-' :: cs => (true, cs)
    | _ => (false, cs)
  let whole := cs.takeWhile Char.isDigit
  let rest := cs.dropWhile Char.isDigit
  if whole.isEmpty then none
  else if whole.head? = some '0' ∧ 1 < whole.length then none
  else if rest.isEmpty then wholeNumber negative (digitsValue whole)
  else numberRest negative whole rest

def word? (cs : List Char) : Option Token :=
  if cs = ['n', 'u', 'l', 'l'] then some (.leaf .null)
  else if cs = ['t', 'r', 'u', 'e'] then some (.leaf (.bool true))
  else if cs = ['f', 'a', 'l', 's', 'e'] then some (.leaf (.bool false))
  else (number? cs).map fun n => .leaf (.number n)

def escaped? (c : Char) : Option Char :=
  if c = '"' ∨ c = '\\' ∨ c = '/' then some c
  else if c = 'b' then some '\x08'
  else if c = 'f' then some '\x0c'
  else if c = 'n' then some '\n'
  else if c = 'r' then some '\r'
  else if c = 't' then some '\t'
  else none

def hexValue? (c : Char) : Option Nat :=
  let n := c.toNat
  if 48 ≤ n ∧ n ≤ 57 then some (n - 48)
  else if 97 ≤ n ∧ n ≤ 102 then some (n - 87)
  else if 65 ≤ n ∧ n ≤ 70 then some (n - 55)
  else none

/-- What is open while tokens are cut: nothing, a word, text, an escape in it, or the four
hexadecimal digits of a UTF-16 unit. Characters are kept in reverse; `high` is a leading surrogate
that waits for its partner. -/
inductive Mode where
  | blank
  | word (seen : List Char)
  | text (seen : List Char) (high : Option Nat)
  | escape (seen : List Char) (high : Option Nat)
  | unit (seen : List Char) (high : Option Nat) (value count : Nat)

def joinUnit (seen : List Char) (high : Option Nat) (u : Nat) : Option Mode :=
  match high with
  | some h =>
    if 0xdc00 ≤ u ∧ u < 0xe000 then
      some (.text (Char.ofNat (0x10000 + (h - 0xd800) * 0x400 + (u - 0xdc00)) :: seen) none)
    else none
  | none =>
    if 0xd800 ≤ u ∧ u < 0xdc00 then some (.text seen (some u))
    else if 0xdc00 ≤ u ∧ u < 0xe000 then none
    else some (.text (Char.ofNat u :: seen) none)

def readChar (mode : Mode) (c : Char) : Option (List Token × Mode) :=
  match mode with
  | .blank =>
    if isBlank c then some ([], .blank)
    else if c = '"' then some ([], .text [] none)
    else match punctuation? c with
      | some t => some ([t], .blank)
      | none => some ([], .word [c])
  | .word seen =>
    if isBlank c then (word? seen.reverse).map fun w => ([w], .blank)
    else match punctuation? c with
      | some t => (word? seen.reverse).map fun w => ([w, t], .blank)
      | none => some ([], .word (c :: seen))
  | .text seen high =>
    if c = '\\' then some ([], .escape seen high)
    else if high.isSome then none
    else if c = '"' then some ([.leaf (.text (String.ofList seen.reverse))], .blank)
    else if c.toNat < 32 then none
    else some ([], .text (c :: seen) none)
  | .escape seen high =>
    if c = 'u' then some ([], .unit seen high 0 0)
    else if high.isSome then none
    else (escaped? c).map fun e => ([], .text (e :: seen) none)
  | .unit seen high value count => do
    let value := value * 16 + (← hexValue? c)
    if count < 3 then some ([], .unit seen high value (count + 1))
    else (joinUnit seen high value).map fun m => ([], m)

def tokens? : Mode → List Char → Option (List Token)
  | .blank, [] => some []
  | .word seen, [] => (word? seen.reverse).map ([·])
  | _, [] => none
  | mode, c :: cs => do
    let (done, mode) ← readChar mode c
    let rest ← tokens? mode cs
    some (done ++ rest)

/-- An array or object that is still open; what it holds so far is kept in reverse. -/
inductive Frame where
  | array (done : List Value)
  | object (done : List (String × Value)) (key : String)

/-- What must come next: a value (`close` allows the end of an empty array instead), the name of a
field (`close` allows the end of an empty object), a colon, or what may follow a complete value. -/
inductive Expect where
  | value (close : Bool)
  | key (done : List (String × Value)) (close : Bool)
  | colon (done : List (String × Value)) (key : String)
  | more (v : Value)

structure State where
  frames : List Frame
  expect : Expect

def finish (frames : List Frame) (v : Value) : State := ⟨frames, .more v⟩

def readToken (s : State) (t : Token) : Option State :=
  match s.expect, t with
  | .value _, .leaf v => some (finish s.frames v)
  | .value _, .openArray => some ⟨.array [] :: s.frames, .value true⟩
  | .value _, .openObject => some ⟨s.frames, .key [] true⟩
  | .value true, .closeArray =>
    match s.frames with
    | .array done :: frames => some (finish frames (.array done.reverse))
    | _ => none
  | .key done _, .leaf (.text k) => some ⟨s.frames, .colon done k⟩
  | .key done true, .closeObject => some (finish s.frames (.ofFields done.reverse))
  | .colon done k, .colon => some ⟨.object done k :: s.frames, .value false⟩
  | .more v, .comma =>
    match s.frames with
    | .array done :: frames => some ⟨.array (v :: done) :: frames, .value false⟩
    | .object done k :: frames => some ⟨frames, .key ((k, v) :: done) false⟩
    | [] => none
  | .more v, .closeArray =>
    match s.frames with
    | .array done :: frames => some (finish frames (.array (v :: done).reverse))
    | _ => none
  | .more v, .closeObject =>
    match s.frames with
    | .object done k :: frames => some (finish frames (.ofFields ((k, v) :: done).reverse))
    | _ => none
  | _, _ => none

def assemble? (ts : List Token) : Option Value := do
  let s ← ts.foldlM readToken ⟨[], .value false⟩
  match s with
  | ⟨[], .more v⟩ => some v
  | _ => none

end Reader

/-- Reads one value that fills the whole text; of two fields with one name the later counts. -/
def Value.ofText? (text : String) : Option Value := do
  Reader.assemble? (← Reader.tokens? .blank text.toList)

end StoredObjects
