import StoredObjects.Document

/-! # Values that compare equal

Two values compare equal exactly when they differ in nothing but the signs of zeros. A value without
the signs of its zeros is its plain form, and comparing is to compare plain forms. So values that
compare equal can have different texts.
-/

namespace StoredObjects

namespace Binary64

/-- The number itself, or the zero without a sign. -/
def plain (x : Binary64) : Binary64 := if x.isZero then default else x

theorem ext_bits {x y : Binary64} (h : x.bits = y.bits) : x = y := by
  cases x
  cases y
  cases h
  rfl

theorem same_iff {x y : Binary64} : x.same y = true ↔ x.plain = y.plain := by
  have hzero : (default : Binary64).isZero = true := by decide
  have hbits : x.bits = y.bits ↔ x = y := ⟨ext_bits, congrArg bits⟩
  simp only [same, plain, Bool.or_eq_true, Bool.and_eq_true, beq_iff_eq, hbits]
  by_cases hx : x.isZero = true <;> by_cases hy : y.isZero = true
  · simp [hx, hy]
  · have hne : default ≠ y := fun heq => hy (heq ▸ hzero)
    have hne' : x ≠ y := fun heq => hy (heq ▸ hx)
    simp [hx, hy, hne, hne']
  · have hne : x ≠ default := fun heq => hx (heq ▸ hzero)
    have hne' : x ≠ y := fun heq => hx (heq ▸ hy)
    simp [hx, hy, hne, hne']
  · simp [hx, hy]

end Binary64

namespace Number

def plain : Number → Number
  | int i => int i
  | float x => float x.plain

theorem same_iff {m n : Number} : m.same n = true ↔ m.plain = n.plain := by
  cases m <;> cases n <;> simp [same, plain, Binary64.same_iff]

end Number

namespace Value

mutual

/-- The value with all zeros written without a sign. -/
def plain : Value → Value
  | null => null
  | bool b => bool b
  | number n => number n.plain
  | text s => text s
  | array items => array (plainItems items)
  | object fields => object (plainFields fields)

def plainItems : List Value → List Value
  | [] => []
  | v :: items => plain v :: plainItems items

def plainFields : List (String × Value) → List (String × Value)
  | [] => []
  | (k, v) :: fields => (k, plain v) :: plainFields fields

end

mutual

theorem same_iff (v w : Value) : v.same w = true ↔ v.plain = w.plain := by
  match v, w with
  | array as, array bs => simp [same, plain, sameItems_iff as bs]
  | object fs, object gs => simp [same, plain, sameFields_iff fs gs]
  | number m, number n => simp [same, plain, Number.same_iff]
  | null, w => cases w <;> simp [same, plain]
  | bool b, w => cases w <;> simp [same, plain]
  | text s, w => cases w <;> simp [same, plain]
  | number m, null | number m, bool _ | number m, text _ | number m, array _
  | number m, object _ => simp [same, plain]
  | array as, null | array as, bool _ | array as, text _ | array as, number _
  | array as, object _ => simp [same, plain]
  | object fs, null | object fs, bool _ | object fs, text _ | object fs, number _
  | object fs, array _ => simp [same, plain]

theorem sameItems_iff (as bs : List Value) :
    sameItems as bs = true ↔ plainItems as = plainItems bs := by
  match as, bs with
  | [], [] => simp [sameItems]
  | [], b :: bs => simp [sameItems, plainItems]
  | a :: as, [] => simp [sameItems, plainItems]
  | a :: as, b :: bs => simp [sameItems, plainItems, same_iff a b, sameItems_iff as bs]

theorem sameFields_iff (fs gs : List (String × Value)) :
    sameFields fs gs = true ↔ plainFields fs = plainFields gs := by
  match fs, gs with
  | [], [] => simp [sameFields]
  | [], (l, b) :: gs => simp [sameFields, plainFields]
  | (k, a) :: fs, [] => simp [sameFields, plainFields]
  | (k, a) :: fs, (l, b) :: gs =>
    simp [sameFields, plainFields, same_iff a b, sameFields_iff fs gs, and_assoc]

end

@[simp] theorem isNull_plain (v : Value) : v.plain.isNull = v.isNull := by
  cases v <;> simp [plain, isNull]

theorem get?_plainFields (k : String) (fields : List (String × Value)) :
    Entries.get? k (plainFields fields) = (Entries.get? k fields).map plain := by
  induction fields with
  | nil => rfl
  | cons field fields ih =>
    obtain ⟨l, v⟩ := field
    by_cases h : k = l <;> simp [plainFields, Entries.get?, h, ih]

end Value

namespace Document

variable {d e : Document}

theorem get?_of_same (h : d.same e = true) (field : String) :
    (d.get? field).map Value.plain = (e.get? field).map Value.plain := by
  have hfields : Value.plainFields d.fields.entries = Value.plainFields e.fields.entries := by
    simpa [same, toValue, Value.ofMap, Value.same, Value.sameFields_iff] using h
  simp only [get?, TextMap.get?, ← Value.get?_plainFields, hfields]

theorem identity?_of_same (h : d.same e = true) :
    d.identity?.map Value.plain = e.identity?.map Value.plain := by
  have hfilter : ∀ v? : Option Value, (v?.filter fun v => !v.isNull).map Value.plain =
      (v?.map Value.plain).filter fun v => !v.isNull := by
    intro v?
    cases v? with
    | none => rfl
    | some v => by_cases hv : v.isNull = true <;> simp [Option.filter, hv]
  simp only [identity?, hfilter, get?_of_same h]

end Document

end StoredObjects
