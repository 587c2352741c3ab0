import StoredObjects.Json.Compact
import StoredObjects.Proofs.Decimal.Rounding

/-! # Different values have different compact texts

Where the text of a value ends can be told from the text: a text in quotes ends at the first quote
that is not escaped, an array or an object at its bracket, a number where no more characters of
numbers follow. So the text of a value, followed by anything that does not continue a number, can be
read in one way only.
-/

namespace StoredObjects

namespace Compact

open Decimal (isNumberChar NumberText AllDigits)

variable {r r' : List Char}

/-! ## Texts in quotes -/

def hexValue (c : Char) : Nat := if c.toNat < 58 then c.toNat - 48 else c.toNat - 87

/-- The character that a text starts with, escaped or not, and what follows it. -/
def unescape : List Char → Option (Char × List Char)
  | [] => none
  | '\\' :: 'u' :: '0' :: '0' :: high :: low :: rest =>
    some (Char.ofNat (16 * hexValue high + hexValue low), rest)
  | '\\' :: c :: rest =>
    if c = 'b' then some ('\x08', rest)
    else if c = 't' then some ('\t', rest)
    else if c = 'n' then some ('\n', rest)
    else if c = 'f' then some ('\x0c', rest)
    else if c = 'r' then some ('\r', rest)
    else some (c, rest)
  | c :: rest => some (c, rest)

theorem hexValue_hexDigit : ∀ n < 16, hexValue (hexDigit n) = n := by decide

theorem unescape_escapedChar (c : Char) (rest : List Char) :
    unescape (escapedChar c ++ rest) = some (c, rest) := by
  unfold escapedChar
  iterate 7
    split
    · rename_i h
      subst h
      rfl
  split
  · rename_i hlow
    have hvalue : 16 * (c.toNat / 16) + c.toNat % 16 = c.toNat := Nat.div_add_mod ..
    simp only [List.cons_append, List.nil_append, unescape,
      hexValue_hexDigit (c.toNat / 16) (by omega), hexValue_hexDigit (c.toNat % 16) (by omega),
      hvalue, Char.ofNat_toNat]
  · unfold unescape
    split <;> simp_all

theorem escapedChar_append_inj {c d : Char} (h : escapedChar c ++ r = escapedChar d ++ r') :
    c = d ∧ r = r' := by
  have hread := congrArg unescape h
  rw [unescape_escapedChar, unescape_escapedChar] at hread
  simpa using hread

theorem escapedChar_ne_quote (c : Char) : escapedChar c ++ r ≠ '"' :: r' := by
  intro h
  have hread := congrArg unescape h
  rw [unescape_escapedChar] at hread
  obtain ⟨rfl, rfl⟩ : c = '"' ∧ r = r' := by simpa [unescape] using hread
  simp [escapedChar] at h

theorem escapedChars_append_inj {cs ds : List Char}
    (h : cs.flatMap escapedChar ++ '"' :: r = ds.flatMap escapedChar ++ '"' :: r') :
    cs = ds ∧ r = r' := by
  induction cs generalizing ds with
  | nil =>
    cases ds with
    | nil => simpa using h
    | cons d ds =>
      rw [List.flatMap_cons, List.append_assoc] at h
      exact absurd h.symm (escapedChar_ne_quote d)
  | cons c cs ih =>
    cases ds with
    | nil =>
      rw [List.flatMap_cons, List.append_assoc] at h
      exact absurd h (escapedChar_ne_quote c)
    | cons d ds =>
      simp only [List.flatMap_cons, List.append_assoc] at h
      obtain ⟨rfl, hrest⟩ := escapedChar_append_inj h
      obtain ⟨rfl, hr⟩ := ih hrest
      exact ⟨rfl, hr⟩

theorem textChars_append_inj {s t : String} (h : textChars s ++ r = textChars t ++ r') :
    s = t ∧ r = r' := by
  simp only [textChars, List.cons_append, List.append_assoc, List.nil_append, List.cons.injEq,
    true_and] at h
  obtain ⟨hchars, hr⟩ := escapedChars_append_inj h
  exact ⟨String.toList_injective hchars, hr⟩

/-! ## Numbers -/

/-- What follows does not continue a number. -/
def Closes (cs : List Char) : Prop := ∀ c ∈ cs.head?, isNumberChar c = false

theorem append_inj_of_closes {cs ds : List Char} (hcs : ∀ c ∈ cs, isNumberChar c = true)
    (hds : ∀ c ∈ ds, isNumberChar c = true) (hr : Closes r) (hr' : Closes r')
    (h : cs ++ r = ds ++ r') : cs = ds ∧ r = r' := by
  have hfront : ∀ {cs r : List Char}, (∀ c ∈ cs, isNumberChar c = true) → Closes r →
      (cs ++ r).takeWhile isNumberChar = cs := by
    intro cs r hcs hr
    rw [List.takeWhile_append_of_pos hcs]
    cases r with
    | nil => simp
    | cons c r => simp [hr c (by simp)]
  have hsame : cs = ds := by rw [← hfront hcs hr, h, hfront hds hr']
  subst hsame
  exact ⟨rfl, List.append_cancel_left h⟩

theorem naturalChars_injective : Function.Injective naturalChars := by
  intro m n h
  rw [← Decimal.ofChars_digitChars m, ← Decimal.ofChars_digitChars n]
  exact congrArg Decimal.ofChars h

theorem exists_digit_naturalChars (n : Nat) :
    ∃ c rest, naturalChars n = c :: rest ∧ c.isDigit = true := by
  obtain ⟨c, rest, h⟩ := List.exists_cons_of_ne_nil (Nat.toDigits_ne_nil (n := n) (b := 10))
  refine ⟨c, rest, h, Decimal.allDigits_digitChars n c ?_⟩
  rw [Decimal.digitChars, h]
  exact List.mem_cons_self

def signed (negative : Bool) (cs : List Char) : List Char :=
  (if negative then ['-'] else []) ++ cs

theorem signed_inj {cs ds : List Char} {a b : Bool}
    (hcs : ∃ c rest, cs = c :: rest ∧ c.isDigit = true)
    (hds : ∃ c rest, ds = c :: rest ∧ c.isDigit = true) (h : signed a cs = signed b ds) :
    a = b ∧ cs = ds := by
  obtain ⟨c, cs, rfl, hc⟩ := hcs
  obtain ⟨d, ds, rfl, hd⟩ := hds
  cases a <;> cases b
  · exact ⟨rfl, by simpa [signed] using h⟩
  · obtain ⟨rfl, -⟩ : c = '-' ∧ cs = d :: ds := by simpa [signed] using h
    cases hc
  · obtain ⟨rfl, -⟩ : '-' = d ∧ c :: cs = ds := by simpa [signed] using h
    cases hd
  · exact ⟨rfl, by simpa [signed] using h⟩

theorem intChars_eq (i : Int) : intChars i = signed (decide (i < 0)) (naturalChars i.natAbs) := by
  cases i with
  | ofNat n => simp [intChars, signed]
  | negSucc n => simp [intChars, signed, Int.negSucc_lt_zero]

theorem floatChars_eq (x : Binary64) :
    numberChars (.float x) = signed x.isNegative (layout.chars (Decimal.shortest x)) := rfl

theorem floatChars_injective {x y : Binary64}
    (h : numberChars (.float x) = numberChars (.float y)) : x = y := by
  rw [floatChars_eq, floatChars_eq] at h
  obtain ⟨hsign, hchars⟩ := signed_inj (Decimal.numberText_chars _ _).head
    (Decimal.numberText_chars _ _).head h
  exact Binary64.ext_of_rank (Decimal.rank_eq_of_value_eq (Decimal.value_eq_of_chars_eq hchars))
    hsign

theorem intChars_injective {i j : Int} (h : intChars i = intChars j) : i = j := by
  rw [intChars_eq, intChars_eq] at h
  obtain ⟨hsign, hchars⟩ := signed_inj (exists_digit_naturalChars _) (exists_digit_naturalChars _) h
  have habs := naturalChars_injective hchars
  rw [decide_eq_decide] at hsign
  omega

theorem mark_not_mem_intChars (i : Int) : '.' ∉ intChars i ∧ 'e' ∉ intChars i := by
  have hdigits := Decimal.allDigits_digitChars i.natAbs
  rw [intChars_eq, signed]
  constructor
  · intro hmem
    rcases List.mem_append.mp hmem with hmem | hmem
    · split at hmem <;> simp at hmem
    · exact hdigits.ne_of_mem hmem rfl rfl
  · intro hmem
    rcases List.mem_append.mp hmem with hmem | hmem
    · split at hmem <;> simp at hmem
    · exact hdigits.ne_of_mem hmem rfl rfl

theorem intChars_ne_floatChars (i : Int) (x : Binary64) : intChars i ≠ numberChars (.float x) := by
  intro h
  obtain ⟨hpoint, hexponent⟩ := mark_not_mem_intChars i
  rw [h, floatChars_eq, signed] at hpoint hexponent
  rcases (Decimal.numberText_chars layout (Decimal.shortest x)).mark with hmark | hmark
  · exact hpoint (List.mem_append_right _ hmark)
  · exact hexponent (List.mem_append_right _ hmark)

theorem numberChars_injective : Function.Injective numberChars := by
  intro m n h
  cases m with
  | int i =>
    cases n with
    | int j => rw [intChars_injective h]
    | float y => exact absurd h (intChars_ne_floatChars i y)
  | float x =>
    cases n with
    | int j => exact absurd h.symm (intChars_ne_floatChars j x)
    | float y => rw [floatChars_injective h]

theorem isNumberChar_of_mem_numberChars (n : Number) :
    ∀ c ∈ numberChars n, isNumberChar c = true := by
  have hsigned : ∀ (negative : Bool) (cs : List Char), (∀ c ∈ cs, isNumberChar c = true) →
      ∀ c ∈ signed negative cs, isNumberChar c = true := by
    intro negative cs hcs c hc
    rcases List.mem_append.mp hc with hc | hc
    · split at hc
      · rw [List.mem_singleton.mp hc]
        rfl
      · cases hc
    · exact hcs c hc
  cases n with
  | int i =>
    rw [numberChars, intChars_eq]
    exact hsigned _ _ fun c hc =>
      Decimal.isNumberChar_of_isDigit (Decimal.allDigits_digitChars _ c hc)
  | float x => exact hsigned _ _ (Decimal.numberText_chars _ _).all

theorem numberChars_append_inj {m n : Number} (hr : Closes r) (hr' : Closes r')
    (h : numberChars m ++ r = numberChars n ++ r') : m = n ∧ r = r' := by
  obtain ⟨hchars, hrest⟩ := append_inj_of_closes (isNumberChar_of_mem_numberChars m)
    (isNumberChar_of_mem_numberChars n) hr hr' h
  exact ⟨numberChars_injective hchars, hrest⟩

/-! ## Values -/

inductive SameKind : Value → Value → Prop where
  | null : SameKind .null .null
  | bool (b : Bool) : SameKind (.bool b) (.bool b)
  | number (m n : Number) : SameKind (.number m) (.number n)
  | text (s t : String) : SameKind (.text s) (.text t)
  | array (as bs : List Value) : SameKind (.array as) (.array bs)
  | object (fs gs : List (String × Value)) : SameKind (.object fs) (.object gs)

def Opens : Value → Char → Prop
  | .null, c => c = 'n'
  | .bool true, c => c = 't'
  | .bool false, c => c = 'f'
  | .number _, c => c.isDigit = true ∨ c = '-'
  | .text _, c => c = '"'
  | .array _, c => c = '['
  | .object _, c => c = '{'

theorem opens_numberChars (n : Number) :
    ∃ c cs, numberChars n = c :: cs ∧ (c.isDigit = true ∨ c = '-') := by
  have hsigned : ∀ (negative : Bool) {cs : List Char}, (∃ c rest, cs = c :: rest ∧
      c.isDigit = true) → ∃ c rest, signed negative cs = c :: rest ∧
        (c.isDigit = true ∨ c = '-') := by
    rintro (_ | _) _ ⟨c, rest, rfl, hc⟩
    · exact ⟨c, rest, rfl, Or.inl hc⟩
    · exact ⟨'-', c :: rest, rfl, Or.inr rfl⟩
  cases n with
  | int i =>
    rw [numberChars, intChars_eq]
    exact hsigned _ (exists_digit_naturalChars _)
  | float x => exact hsigned _ (Decimal.numberText_chars _ _).head

theorem opens_chars (v : Value) : ∃ c cs, chars v = c :: cs ∧ Opens v c := by
  cases v with
  | null => exact ⟨_, _, rfl, rfl⟩
  | bool b => cases b <;> exact ⟨_, _, rfl, rfl⟩
  | number n =>
    obtain ⟨c, cs, h, hc⟩ := opens_numberChars n
    exact ⟨c, cs, h, hc⟩
  | text s => exact ⟨_, _, rfl, rfl⟩
  | array items => cases items <;> exact ⟨_, _, rfl, rfl⟩
  | object fields => cases fields <;> exact ⟨_, _, rfl, rfl⟩

theorem Opens.sameKind {v w : Value} {c : Char} (hv : Opens v c) (hw : Opens w c) :
    SameKind v w := by
  rcases v with _ | (_ | _) | m | s | as | fs <;> rcases w with _ | (_ | _) | n | t | bs | gs
  all_goals first
    | constructor
    | exfalso
      simp only [Opens] at hv hw
      subst hv
      revert hw
      decide
    | exfalso
      simp only [Opens] at hv hw
      subst hw
      revert hv
      decide

theorem sameKind_of_chars {v w : Value} (h : chars v ++ r = chars w ++ r') : SameKind v w := by
  obtain ⟨c, cs, hv, hopens⟩ := opens_chars v
  obtain ⟨d, ds, hw, hopens'⟩ := opens_chars w
  rw [hv, hw] at h
  obtain rfl : c = d := (List.cons.inj h).1
  exact hopens.sameKind hopens'

/-- Items and fields that follow stand behind a comma, or a bracket closes. -/
theorem closes_itemsChars (items : List Value) (r : List Char) :
    Closes (itemsChars items ++ r) := by
  cases items <;> simp [Closes, itemsChars, isNumberChar]

theorem closes_fieldsChars (fields : List (String × Value)) (r : List Char) :
    Closes (fieldsChars fields ++ r) := by
  cases fields <;> simp [Closes, fieldsChars, isNumberChar]

theorem chars_ne_bracket (v : Value) : chars v ++ r ≠ ']' :: r' := by
  intro h
  obtain ⟨c, cs, hv, hopens⟩ := opens_chars v
  rw [hv] at h
  obtain rfl : c = ']' := (List.cons.inj h).1
  rcases v with _ | (_ | _) | m | s | as | fs <;> simp [Opens] at hopens

mutual

/-- The text of a value, and where it ends, can be read in one way only. -/
theorem chars_append_inj (v w : Value) {r r' : List Char} (hr : Closes r) (hr' : Closes r')
    (h : chars v ++ r = chars w ++ r') : v = w ∧ r = r' := by
  match v, w, sameKind_of_chars h with
  | _, _, .null => exact ⟨rfl, List.append_cancel_left h⟩
  | _, _, .bool b => exact ⟨rfl, List.append_cancel_left h⟩
  | _, _, .number m n =>
    obtain ⟨rfl, hrest⟩ := numberChars_append_inj hr hr' h
    exact ⟨rfl, hrest⟩
  | _, _, .text s t =>
    obtain ⟨rfl, hrest⟩ := textChars_append_inj h
    exact ⟨rfl, hrest⟩
  | _, _, .array [] [] => exact ⟨rfl, List.append_cancel_left h⟩
  | _, _, .array [] (b :: bs) =>
    simp only [chars, List.cons_append, List.append_assoc, List.cons.injEq, true_and] at h
    exact absurd h.symm (chars_ne_bracket b)
  | _, _, .array (a :: as) [] =>
    simp only [chars, List.cons_append, List.append_assoc, List.cons.injEq, true_and] at h
    exact absurd h (chars_ne_bracket a)
  | _, _, .array (a :: as) (b :: bs) =>
    simp only [chars, List.cons_append, List.append_assoc, List.cons.injEq, true_and] at h
    obtain ⟨rfl, hitems⟩ :=
      chars_append_inj a b (closes_itemsChars as r) (closes_itemsChars bs r') h
    obtain ⟨rfl, hrest⟩ := itemsChars_append_inj as bs hitems
    exact ⟨rfl, hrest⟩
  | _, _, .object [] [] => exact ⟨rfl, List.append_cancel_left h⟩
  | _, _, .object [] ((l, b) :: gs) =>
    simp [chars, textChars] at h
  | _, _, .object ((k, a) :: fs) [] =>
    simp [chars, textChars] at h
  | _, _, .object ((k, a) :: fs) ((l, b) :: gs) =>
    simp only [chars, List.cons_append, List.append_assoc, List.cons.injEq, true_and] at h
    obtain ⟨rfl, hvalue⟩ := textChars_append_inj h
    obtain ⟨rfl, hfields⟩ := chars_append_inj a b (closes_fieldsChars fs r)
      (closes_fieldsChars gs r') (List.cons.inj hvalue).2
    obtain ⟨rfl, hrest⟩ := fieldsChars_append_inj fs gs hfields
    exact ⟨rfl, hrest⟩

theorem itemsChars_append_inj (as bs : List Value) {r r' : List Char}
    (h : itemsChars as ++ r = itemsChars bs ++ r') : as = bs ∧ r = r' := by
  match as, bs with
  | [], [] => exact ⟨rfl, List.append_cancel_left h⟩
  | [], b :: bs => simp [itemsChars] at h
  | a :: as, [] => simp [itemsChars] at h
  | a :: as, b :: bs =>
    simp only [itemsChars, List.cons_append, List.append_assoc, List.cons.injEq, true_and] at h
    obtain ⟨rfl, hitems⟩ :=
      chars_append_inj a b (closes_itemsChars as r) (closes_itemsChars bs r') h
    obtain ⟨rfl, hrest⟩ := itemsChars_append_inj as bs hitems
    exact ⟨rfl, hrest⟩

theorem fieldsChars_append_inj (fs gs : List (String × Value)) {r r' : List Char}
    (h : fieldsChars fs ++ r = fieldsChars gs ++ r') : fs = gs ∧ r = r' := by
  match fs, gs with
  | [], [] => exact ⟨rfl, List.append_cancel_left h⟩
  | [], (l, b) :: gs => simp [fieldsChars] at h
  | (k, a) :: fs, [] => simp [fieldsChars] at h
  | (k, a) :: fs, (l, b) :: gs =>
    simp only [fieldsChars, List.cons_append, List.append_assoc, List.cons.injEq, true_and] at h
    obtain ⟨rfl, hvalue⟩ := textChars_append_inj h
    obtain ⟨rfl, hfields⟩ := chars_append_inj a b (closes_fieldsChars fs r)
      (closes_fieldsChars gs r') (List.cons.inj hvalue).2
    obtain ⟨rfl, hrest⟩ := fieldsChars_append_inj fs gs hfields
    exact ⟨rfl, hrest⟩

end

end Compact

theorem Value.compact_injective : Function.Injective Value.compact := by
  intro v w h
  have hclosed : Compact.Closes [] := by simp [Compact.Closes]
  have hchars : Compact.chars v = Compact.chars w := by
    simpa [Value.compact] using congrArg String.toList h
  exact (Compact.chars_append_inj v w hclosed hclosed (by rw [hchars])).1

end StoredObjects
