import Mathlib.Algebra.Order.Field.Rat
import Mathlib.Algebra.Order.GroupWithZero.Basic
import Mathlib.Data.List.TakeWhile
import Mathlib.Tactic.Ring
import StoredObjects.Decimal.Layout

/-! # Numbers in their written form

A decimal can be written plainly or with an exponent, but its text always stands for the same
number. So decimals that are written alike have the same value.
-/

namespace StoredObjects

namespace Decimal

def value (d : Decimal) : ℚ := d.digits * 10 ^ d.exponent

/-! ## What a text stands for -/

def ofChars (digits : List Char) : Nat := Nat.ofDigitChars 10 digits 0

def powerOf : List Char → Int
  | 'e' :: sign :: digits => if sign = '-' then -ofChars digits else ofChars digits
  | _ => 0

/-- The number that a text stands for: digits, some of them behind a point, and a power of ten. -/
def written (cs : List Char) : ℚ :=
  let mantissa := cs.takeWhile (· ≠ 'e')
  let whole := mantissa.takeWhile (· ≠ '.')
  let places := (mantissa.dropWhile (· ≠ '.')).drop 1
  ofChars (whole ++ places) * 10 ^ (powerOf (cs.dropWhile (· ≠ 'e')) - places.length)

def AllDigits (cs : List Char) : Prop := ∀ c ∈ cs, c.isDigit = true

def IsTail (cs : List Char) : Prop := ∀ c ∈ cs.head?, c = 'e'

variable {a b tail cs : List Char} {n : Nat}

theorem allDigits_digitChars (n : Nat) : AllDigits (digitChars n) := fun _ hc =>
  Nat.isDigit_of_mem_toDigits (by decide) (by decide) hc

theorem allDigits_replicate (n : Nat) : AllDigits (List.replicate n '0') := fun c hc => by
  rw [List.eq_of_mem_replicate hc]
  rfl

theorem AllDigits.append (ha : AllDigits a) (hb : AllDigits b) : AllDigits (a ++ b) :=
  fun c hc => (List.mem_append.mp hc).elim (ha c) (hb c)

theorem AllDigits.ne_of_mem (ha : AllDigits a) {c d : Char} (hc : c ∈ a)
    (hd : d.isDigit = false) : c ≠ d := by
  rintro rfl
  rw [ha c hc] at hd
  cases hd

@[simp] theorem ofChars_digitChars (n : Nat) : ofChars (digitChars n) = n :=
  Nat.ofDigitChars_ten_toDigits

theorem ofChars_append (a b : List Char) :
    ofChars (a ++ b) = 10 ^ b.length * ofChars a + ofChars b := by
  rw [ofChars, Nat.ofDigitChars_append, Nat.ofDigitChars_eq_ofDigitChars_zero]
  rfl

@[simp] theorem ofChars_zeros (n : Nat) : ofChars (List.replicate n '0') = 0 := by
  rw [ofChars, Nat.ofDigitChars_replicate_zero, Nat.mul_zero]

theorem IsTail.takeWhile (h : IsTail tail) : tail.takeWhile (· ≠ 'e') = [] := by
  cases tail with
  | nil => rfl
  | cons c tail => simp [h c (by simp)]

theorem IsTail.dropWhile (h : IsTail tail) : tail.dropWhile (· ≠ 'e') = tail := by
  cases tail with
  | nil => rfl
  | cons c tail => simp [h c (by simp)]

theorem written_point (ha : AllDigits a) (hb : AllDigits b) (ht : IsTail tail) :
    written (a ++ '.' :: b ++ tail) = ofChars (a ++ b) * 10 ^ (powerOf tail - b.length) := by
  have hmantissa : ∀ c ∈ a ++ '.' :: b, decide (c ≠ 'e') = true := by
    intro c hc
    rw [decide_eq_true_iff]
    rcases List.mem_append.mp hc with hc | hc
    · exact ha.ne_of_mem hc rfl
    · rcases List.mem_cons.mp hc with rfl | hc
      · decide
      · exact hb.ne_of_mem hc rfl
  have hwhole : ∀ c ∈ a, decide (c ≠ '.') = true := fun c hc => by
    simpa using ha.ne_of_mem hc rfl
  simp only [written, List.takeWhile_append_of_pos hmantissa, ht.takeWhile, List.append_nil,
    List.dropWhile_append_of_pos hmantissa, ht.dropWhile, List.takeWhile_append_of_pos hwhole,
    List.dropWhile_append_of_pos hwhole]
  simp

theorem written_whole (ha : AllDigits a) (ht : IsTail tail) :
    written (a ++ tail) = ofChars a * 10 ^ powerOf tail := by
  have hmantissa : ∀ c ∈ a, decide (c ≠ 'e') = true := fun c hc => by
    simpa using ha.ne_of_mem hc rfl
  have hwhole : ∀ c ∈ a, decide (c ≠ '.') = true := fun c hc => by
    simpa using ha.ne_of_mem hc rfl
  simp only [written, List.takeWhile_append_of_pos hmantissa, ht.takeWhile, List.append_nil,
    List.dropWhile_append_of_pos hmantissa, ht.dropWhile,
    List.takeWhile_eq_self_iff.mpr hwhole, List.dropWhile_eq_nil_iff.mpr hwhole]
  simp

/-! ## The written forms -/

theorem isTail_nil : IsTail [] := by simp [IsTail]

theorem isTail_exponent (cs : List Char) : IsTail ('e' :: cs) := by simp [IsTail]

theorem powerOf_exponent (power : Int) :
    powerOf ('e' :: (if power < 0 then '-' else '+') :: digitChars power.natAbs) = power := by
  by_cases hneg : power < 0
  · simp only [powerOf, hneg, if_true, ofChars_digitChars]
    omega
  · simp only [powerOf, hneg, if_false, ofChars_digitChars, Char.reduceEq]
    omega

theorem written_exponentChars {digits : List Char} (hdigits : AllDigits digits)
    (hne : digits ≠ []) (power : Int) : written (Layout.exponentChars digits power) =
      ofChars digits * 10 ^ (power + 1 - digits.length) := by
  have htail := isTail_exponent ((if power < 0 then '-' else '+') :: digitChars power.natAbs)
  cases digits with
  | nil => exact absurd rfl hne
  | cons d rest =>
    have hd : AllDigits [d] := fun c hc => hdigits c (by simp [List.mem_singleton.mp hc])
    have hrest : AllDigits rest := fun c hc => hdigits c (by simp [hc])
    cases rest with
    | nil =>
      have hwritten := written_whole hd htail
      rw [powerOf_exponent] at hwritten
      simpa [Layout.exponentChars] using hwritten
    | cons r rest =>
      have hwritten := written_point hd hrest htail
      rw [powerOf_exponent] at hwritten
      have hpower : power - (r :: rest).length = power + 1 - (d :: r :: rest).length := by
        simp only [List.length_cons]
        omega
      rw [← hpower]
      simpa [Layout.exponentChars] using hwritten

theorem written_plainChars {digits : List Char} (hdigits : AllDigits digits) (whole : Int) :
    written (Layout.plainChars digits whole) = ofChars digits * 10 ^ (whole - digits.length) := by
  unfold Layout.plainChars
  split
  · rename_i hwhole
    have hzeros := allDigits_replicate (-whole).toNat
    have hwritten := written_point (a := ['0']) (allDigits_replicate 1) (hzeros.append hdigits)
      isTail_nil
    have hnumber : ofChars (['0'] ++ (List.replicate (-whole).toNat '0' ++ digits)) =
        ofChars digits := by
      rw [← List.append_assoc, ofChars_append, ← List.replicate_one,
        List.replicate_append_replicate, ofChars_zeros, Nat.mul_zero, Nat.zero_add]
    have hpower : powerOf [] - ((List.replicate (-whole).toNat '0' ++ digits).length : Int) =
        whole - digits.length := by
      simp only [powerOf, List.length_append, List.length_replicate]
      omega
    rw [hnumber, hpower] at hwritten
    simpa using hwritten
  · split
    · rename_i hpos hlt
      have htake : AllDigits (digits.take whole.toNat) := fun c hc =>
        hdigits c (List.mem_of_mem_take hc)
      have hdrop : AllDigits (digits.drop whole.toNat) := fun c hc =>
        hdigits c (List.mem_of_mem_drop hc)
      have hwritten := written_point htake hdrop isTail_nil
      have hpower : powerOf [] - ((digits.drop whole.toNat).length : Int) =
          whole - digits.length := by
        simp only [powerOf, List.length_drop]
        omega
      rw [List.take_append_drop, hpower] at hwritten
      simpa using hwritten
    · rename_i hpos hle
      have hzeros := allDigits_replicate (whole.toNat - digits.length)
      have hwritten := written_point (hdigits.append hzeros) (allDigits_replicate 1) isTail_nil
      rw [ofChars_append, ofChars_append, ofChars_zeros, ofChars_zeros] at hwritten
      have hpower : whole - (digits.length : Int) = (whole.toNat - digits.length : Nat) := by
        omega
      rw [hpower, zpow_natCast]
      simpa [powerOf, mul_comm] using hwritten

theorem written_chars (layout : Layout) (d : Decimal) : written (layout.chars d) = d.value := by
  have hdigits := allDigits_digitChars d.digits
  unfold Layout.chars value
  dsimp only
  split
  · rw [written_plainChars hdigits, ofChars_digitChars]
    congr 2
    omega
  · rw [written_exponentChars hdigits Nat.toDigits_ne_nil, ofChars_digitChars]
    congr 2
    omega

theorem value_eq_of_chars_eq {layout : Layout} {d e : Decimal}
    (h : layout.chars d = layout.chars e) : d.value = e.value := by
  rw [← written_chars layout d, ← written_chars layout e, h]

/-! ## The characters -/

def isNumberChar (c : Char) : Bool :=
  c.isDigit || c = '.' || c = 'e' || c = '+' || c = '-'

/-- A text that starts with a digit, has a point or an exponent, and is made of the characters of
numbers. -/
structure NumberText (cs : List Char) : Prop where
  head : ∃ c rest, cs = c :: rest ∧ c.isDigit = true
  mark : '.' ∈ cs ∨ 'e' ∈ cs
  all : ∀ c ∈ cs, isNumberChar c = true

theorem isNumberChar_of_isDigit {c : Char} (h : c.isDigit = true) : isNumberChar c = true := by
  simp [isNumberChar, h]

theorem numberText_of_mark {mark : Char} (ha : AllDigits a) (hne : a ≠ [])
    (hmark : mark = '.' ∨ mark = 'e') (hrest : ∀ c ∈ cs, isNumberChar c = true) :
    NumberText (a ++ mark :: cs) := by
  obtain ⟨c, a, rfl⟩ := List.exists_cons_of_ne_nil hne
  refine ⟨⟨c, a ++ mark :: cs, rfl, ha c (by simp)⟩, ?_, fun d hd => ?_⟩
  · rcases hmark with rfl | rfl <;> simp
  · rcases List.mem_append.mp hd with hd | hd
    · exact isNumberChar_of_isDigit (ha d hd)
    · rcases List.mem_cons.mp hd with rfl | hd
      · rcases hmark with rfl | rfl <;> rfl
      · exact hrest d hd

theorem numberText_plainChars {digits : List Char} (hdigits : AllDigits digits) (whole : Int) :
    NumberText (Layout.plainChars digits whole) := by
  have hchars : ∀ {ds : List Char}, AllDigits ds → ∀ c ∈ ds, isNumberChar c = true :=
    fun hds c hc => isNumberChar_of_isDigit (hds c hc)
  unfold Layout.plainChars
  split
  · exact numberText_of_mark (a := ['0']) (allDigits_replicate 1) (by simp) (Or.inl rfl)
      (hchars ((allDigits_replicate _).append hdigits))
  · split
    · have htake : AllDigits (digits.take whole.toNat) := fun c hc =>
        hdigits c (List.mem_of_mem_take hc)
      have hdrop : AllDigits (digits.drop whole.toNat) := fun c hc =>
        hdigits c (List.mem_of_mem_drop hc)
      refine numberText_of_mark htake ?_ (Or.inl rfl) (hchars hdrop)
      rw [← List.length_pos_iff, List.length_take]
      omega
    · refine numberText_of_mark (hdigits.append (allDigits_replicate _)) ?_ (Or.inl rfl)
        (hchars (allDigits_replicate 1))
      rw [← List.length_pos_iff, List.length_append, List.length_replicate]
      omega

theorem numberText_exponentChars {digits : List Char} (hdigits : AllDigits digits)
    (hne : digits ≠ []) (power : Int) : NumberText (Layout.exponentChars digits power) := by
  have hpower : ∀ c ∈ (if power < 0 then '-' else '+') :: digitChars power.natAbs,
      isNumberChar c = true := by
    intro c hc
    rcases List.mem_cons.mp hc with rfl | hc
    · split <;> rfl
    · exact isNumberChar_of_isDigit (allDigits_digitChars _ c hc)
  obtain ⟨d, rest, rfl⟩ := List.exists_cons_of_ne_nil hne
  have hd : AllDigits [d] := fun c hc => hdigits c (by simp [List.mem_singleton.mp hc])
  cases rest with
  | nil => exact numberText_of_mark hd (by simp) (Or.inr rfl) hpower
  | cons r rest =>
    have hrest : ∀ c ∈ (r :: rest) ++ 'e' :: (if power < 0 then '-' else '+') ::
        digitChars power.natAbs, isNumberChar c = true := by
      intro c hc
      rcases List.mem_append.mp hc with hc | hc
      · exact isNumberChar_of_isDigit (hdigits c (List.mem_cons_of_mem d hc))
      · rcases List.mem_cons.mp hc with rfl | hc
        · rfl
        · exact hpower c hc
    change NumberText ([d] ++ '.' :: _)
    exact numberText_of_mark hd (by simp) (Or.inl rfl) hrest

theorem numberText_chars (layout : Layout) (d : Decimal) : NumberText (layout.chars d) := by
  have hdigits := allDigits_digitChars d.digits
  unfold Layout.chars
  dsimp only
  split
  · exact numberText_plainChars hdigits _
  · exact numberText_exponentChars hdigits Nat.toDigits_ne_nil _

end Decimal

end StoredObjects
