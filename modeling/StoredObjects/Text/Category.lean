import StoredObjects.Text.AlphabeticTable
import StoredObjects.Text.CategoryTable
import StoredObjects.Text.ScriptTable
import StoredObjects.Text.RunTable

/-!
Classes of characters: general categories, scripts, and the properties that follow from them.
-/

namespace StoredObjects

namespace Category

def runs : List RunTable.Run := RunTable.read table

def of (c : Nat) : Char × Char :=
  match RunTable.labelAt runs c with
  | [major, minor] => (major, minor)
  | _ => ('C', 'n')

def inRanges (ranges : List (Nat × Nat)) (c : Nat) : Bool :=
  ranges.any fun r => r.1 ≤ c && c ≤ r.2

def isBlank (c : Char) : Bool :=
  inRanges [(0x9, 0xd), (0x20, 0x20), (0x85, 0x85), (0xa0, 0xa0), (0x1680, 0x1680),
    (0x2000, 0x200a), (0x2028, 0x2029), (0x202f, 0x202f), (0x205f, 0x205f), (0x3000, 0x3000)]
    c.toNat

def isDigit (c : Char) : Bool :=
  if c.toNat < 128 then c.isDigit else of c.toNat == ('N', 'd')

def alphabeticRuns : List RunTable.Run := RunTable.read alphabeticTable

def isAlphabetic (c : Char) : Bool :=
  if c.toNat < 128 then c.isAlpha
  else
    let k := of c.toNat
    k.1 == 'L' || k == ('N', 'l') || RunTable.labelAt alphabeticRuns c.toNat == ['Y']

def isAlphanumeric (c : Char) : Bool :=
  if c.toNat < 128 then c.isAlphanum else isAlphabetic c || (of c.toNat).1 == 'N'

def isWord (c : Char) : Bool :=
  if c.toNat < 128 then c.isAlphanum || c == '_'
  else
    let k := of c.toNat
    isAlphabetic c || k.1 == 'M' || k == ('N', 'd') || k == ('P', 'c')
      || inRanges [(0x200c, 0x200d)] c.toNat

/-- Marks that extend the character before them though not by category. -/
def otherExtenders : List (Nat × Nat) :=
  [(0x9be, 0x9be), (0x9d7, 0x9d7), (0xb3e, 0xb3e), (0xb57, 0xb57), (0xbbe, 0xbbe), (0xbd7, 0xbd7),
   (0xcc2, 0xcc2), (0xcd5, 0xcd6), (0xd3e, 0xd3e), (0xd57, 0xd57), (0xdcf, 0xdcf), (0xddf, 0xddf),
   (0x1b35, 0x1b35), (0x200c, 0x200c), (0x302e, 0x302f), (0xff9e, 0xff9f), (0x1133e, 0x1133e),
   (0x11357, 0x11357), (0x114b0, 0x114b0), (0x114bd, 0x114bd), (0x115af, 0x115af),
   (0x11930, 0x11930), (0x1d165, 0x1d165), (0x1d16e, 0x1d172), (0xe0020, 0xe007f)]

/-- Characters that show on their own: not control, format, private, unassigned, separators other
than the blank, nor marks that extend another character. -/
def isShown (c : Char) : Bool :=
  if c.toNat < 128 then 32 ≤ c.toNat && c.toNat < 127
  else
    let k := of c.toNat
    !(k.1 == 'C' || k.1 == 'Z' || k == ('M', 'n') || k == ('M', 'e')
      || inRanges otherExtenders c.toNat)

end Category

namespace Script

def runs : List RunTable.Run := RunTable.read table

def of (c : Nat) : String := String.ofList (RunTable.labelAt runs c)

/-- The script with a name, which is given in small letters and without low lines. -/
def named? (name : String) : Option String := (names.find? fun e => e.2.contains name).map Prod.fst

end Script

end StoredObjects
