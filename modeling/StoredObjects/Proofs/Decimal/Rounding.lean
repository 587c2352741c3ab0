import Mathlib.Data.Nat.Cast.Field
import Mathlib.Tactic.FieldSimp
import Mathlib.Tactic.Positivity
import StoredObjects.Proofs.Decimal.Text

/-! # Decimals that round to a binary64 number

The patterns of the numbers of one sign, as integers, stand in the order of the numbers. The reals
that round to a number lie between two borders, and the upper border of a number is the lower border
of the next; it belongs to the one of the two whose pattern is even. The shortest decimal of a
number lies between its borders, so different numbers have decimals of different values.
-/

namespace StoredObjects

namespace Binary64

/-! ## Numbers in their order -/

/-- The place of the number among those of its sign: its pattern without the sign. -/
def rank (x : Binary64) : Nat := x.bits.toNat % 2 ^ 63

def magnitudeAt (n : Nat) : Nat := if n / 2 ^ 52 = 0 then n % 2 ^ 52 else n % 2 ^ 52 + 2 ^ 52

def doublingsAt (n : Nat) : Nat := n / 2 ^ 52 - 1

variable (x y : Binary64)

theorem exponentField_eq : x.exponentField = x.rank / 2 ^ 52 := by
  have h : x.exponentField = x.bits.toNat / 2 ^ 52 % 2 ^ 11 := by
    simp only [exponentField, UInt64.toNat_and, UInt64.toNat_shiftRight, Nat.shiftRight_eq_div_pow]
    exact Nat.and_two_pow_sub_one_eq_mod _ 11
  rw [h, rank]
  omega

theorem fractionField_eq : x.fractionField = x.rank % 2 ^ 52 := by
  have h : x.fractionField = x.bits.toNat % 2 ^ 52 := by
    simp only [fractionField, UInt64.toNat_and]
    exact Nat.and_two_pow_sub_one_eq_mod _ 52
  rw [h, rank]
  omega

theorem magnitude_eq : x.magnitude = magnitudeAt x.rank := by
  simp only [magnitude, magnitudeAt, exponentField_eq, fractionField_eq, Nat.reducePow]

theorem scale_eq : x.scale = doublingsAt x.rank - 1074 := by
  simp only [scale, doublingsAt, exponentField_eq]
  split <;> omega

theorem isNegative_eq : x.isNegative = decide (x.bits.toNat / 2 ^ 63 = 1) := by
  have h : (x.bits >>> 63).toNat = x.bits.toNat / 2 ^ 63 := by
    simp only [UInt64.toNat_shiftRight, Nat.shiftRight_eq_div_pow]
    rfl
  rw [isNegative, Bool.eq_iff_iff, beq_iff_eq, decide_eq_true_iff, ← h, ← UInt64.toNat_inj]
  rfl

variable {x y}

theorem ext_of_rank (hrank : x.rank = y.rank) (hsign : x.isNegative = y.isNegative) : x = y := by
  have hx := x.bits.toNat_lt
  have hy := y.bits.toNat_lt
  rw [isNegative_eq, isNegative_eq, decide_eq_decide] at hsign
  simp only [rank] at hrank
  have hbits : x.bits.toNat = y.bits.toNat := by omega
  cases x
  cases y
  simp only [mk.injEq]
  exact UInt64.toNat_inj.mp hbits

theorem isZero_iff : x.isZero = true ↔ x.rank = 0 := by
  simp only [isZero, beq_iff_eq, magnitude_eq, magnitudeAt]
  split <;> omega

/-! ## Borders -/

/-- The upper border of the reals that round to the number at a place, in units of `2^-1076`. -/
def border (n : Nat) : Nat := (4 * magnitudeAt n + 2) * 2 ^ doublingsAt n

/-- At the start of a run of doubled numbers, the gap below is half the gap above. -/
def gapBelow (n : Nat) : Nat := if n % 2 ^ 52 = 0 ∧ 1 < n / 2 ^ 52 then 1 else 2

theorem gapBelow_eq : (if x.lowerGapHalved then 1 else 2) = gapBelow x.rank := by
  simp only [lowerGapHalved, gapBelow, exponentField_eq, fractionField_eq, Bool.and_eq_true,
    beq_iff_eq, decide_eq_true_eq]

theorem magnitudeAt_succ (n : Nat) :
    gapBelow (n + 1) = 2 ∧ magnitudeAt (n + 1) = magnitudeAt n + 1 ∧
        doublingsAt (n + 1) = doublingsAt n ∨
      gapBelow (n + 1) = 1 ∧ 2 * magnitudeAt (n + 1) = magnitudeAt n + 1 ∧
        doublingsAt (n + 1) = doublingsAt n + 1 := by
  simp only [gapBelow, magnitudeAt, doublingsAt]
  split <;> split <;> split <;> omega

/-- The lower border of a number is the upper border of the number before. -/
theorem lower_border (n : Nat) :
    (4 * magnitudeAt (n + 1) - gapBelow (n + 1)) * 2 ^ doublingsAt (n + 1) = border n := by
  unfold border
  rcases magnitudeAt_succ n with ⟨hgap, hmagnitude, hdoublings⟩ | ⟨hgap, hmagnitude, hdoublings⟩
  · rw [hgap, hmagnitude, hdoublings]
    congr 1
  · rw [hgap, hdoublings, Nat.pow_succ, Nat.mul_comm (2 ^ _) 2, ← Nat.mul_assoc]
    congr 1
    omega

theorem border_lt_succ (n : Nat) : border n < border (n + 1) := by
  rw [← lower_border, border]
  refine Nat.mul_lt_mul_of_pos_right ?_ (Nat.two_pow_pos _)
  omega

theorem border_strictMono : StrictMono border := strictMono_nat_of_lt_succ border_lt_succ

theorem magnitudeAt_mod_two (n : Nat) : magnitudeAt n % 2 = n % 2 := by
  simp only [magnitudeAt]
  split <;> omega

/-- The number at the place `n + 1` is the one that `q` rounds to. -/
structure RoundsTo (n : Nat) (q : ℚ) : Prop where
  lower : (border n : ℚ) ≤ q * 2 ^ 1076
  upper : q * 2 ^ 1076 ≤ border (n + 1)
  /-- The borders belong to the even ones of the numbers. -/
  inside : (n + 1) % 2 = 1 → (border n : ℚ) < q * 2 ^ 1076 ∧ q * 2 ^ 1076 < border (n + 1)

variable {n n' : Nat} {q : ℚ}

theorem RoundsTo.le (h : RoundsTo n q) (h' : RoundsTo n' q) : n ≤ n' := by
  by_contra hlt
  have hle : (border (n' + 1) : ℚ) ≤ border n := by
    exact_mod_cast border_strictMono.monotone (Nat.lt_of_not_le hlt)
  -- what lies in both is a border that one of the two does not have
  have hsame : (border (n' + 1) : ℚ) = border n := le_antisymm hle (h.lower.trans h'.upper)
  have hnext : n' + 1 = n := border_strictMono.injective (by exact_mod_cast hsame)
  rcases Nat.mod_two_eq_zero_or_one n with heven | hodd
  · have hinside := (h.inside (by omega)).1
    exact absurd (hinside.trans_le h'.upper) (by rw [hsame]; exact lt_irrefl _)
  · have hinside := (h'.inside (by omega)).2
    exact absurd (h.lower.trans_lt hinside) (by rw [hsame]; exact lt_irrefl _)

theorem RoundsTo.eq (h : RoundsTo n q) (h' : RoundsTo n' q) : n = n' :=
  Nat.le_antisymm (h.le h') (h'.le h)

theorem RoundsTo.pos (h : RoundsTo n q) : 0 < q := by
  have hborder : (0 : ℚ) < border n := by
    exact_mod_cast Nat.mul_pos (Nat.succ_pos _) (Nat.two_pow_pos _)
  exact pos_of_mul_pos_left (hborder.trans_le h.lower) (by norm_num)

end Binary64

namespace Decimal

/-! ## Comparing decimals with binary numbers -/

theorem pow_toNat {b : ℚ} (hb : b ≠ 0) (n : Int) : b ^ n.toNat = b ^ n * b ^ (-n).toNat := by
  rw [← zpow_natCast, ← zpow_natCast, ← zpow_add₀ hb]
  congr 1
  omega

theorem timesTen_eq (a : Nat) (n : Int) : timesTen a n = a * 10 ^ n.toNat := rfl

theorem cast_timesTen (a : Nat) (n : Int) :
    (timesTen a n : ℚ) = a * 10 ^ n * 10 ^ (-n).toNat := by
  rw [mul_assoc, ← pow_toNat (by norm_num), timesTen_eq]
  push_cast
  rfl

theorem cast_timesTwo (a : Nat) (n : Int) :
    (timesTwo a n : ℚ) = a * 2 ^ n * 2 ^ (-n).toNat := by
  rw [mul_assoc, ← pow_toNat (by norm_num), timesTwo, Nat.shiftLeft_eq]
  norm_cast

/-- What both sides of a comparison are multiplied by. -/
theorem compareScaled_eq (a : Nat) (i : Int) (b : Nat) (j : Int) :
    ∃ l r : Nat, compareScaled a i b j = compare l r ∧ ∃ unit : ℚ, 0 < unit ∧
      (l : ℚ) = a * 10 ^ i * unit ∧ (r : ℚ) = b * 2 ^ j * unit := by
  refine ⟨_, _, rfl, 10 ^ (-i).toNat * 2 ^ (-j).toNat, by positivity, ?_, ?_⟩
  · rw [timesTwo, Nat.shiftLeft_eq, Nat.cast_mul, cast_timesTen]
    push_cast
    ring
  · rw [timesTen_eq, Nat.cast_mul, cast_timesTwo]
    push_cast
    ring

variable {a b : Nat} {i j : Int}

theorem compareScaled_eq_lt : compareScaled a i b j = .lt ↔ (a : ℚ) * 10 ^ i < b * 2 ^ j := by
  obtain ⟨l, r, hcompare, unit, hunit, hl, hr⟩ := compareScaled_eq a i b j
  rw [hcompare, Nat.compare_eq_lt, ← Nat.cast_lt (α := ℚ), hl, hr, mul_lt_mul_iff_left₀ hunit]

theorem compareScaled_eq_gt : compareScaled a i b j = .gt ↔ (b : ℚ) * 2 ^ j < a * 10 ^ i := by
  obtain ⟨l, r, hcompare, unit, hunit, hl, hr⟩ := compareScaled_eq a i b j
  rw [hcompare, Nat.compare_eq_gt, ← Nat.cast_lt (α := ℚ), hl, hr, mul_lt_mul_iff_left₀ hunit]

/-! ## The shortest decimal -/

variable {x : Binary64} {n c fuel : Nat}

theorem cast_scale (x : Binary64) (b : Nat) : (b : ℚ) * 2 ^ (x.scale - 2) * 2 ^ 1076 =
    (b * 2 ^ Binary64.doublingsAt x.rank : Nat) := by
  have hscale : (2 : ℚ) ^ (x.scale - 2) * 2 ^ 1076 = 2 ^ Binary64.doublingsAt x.rank := by
    rw [← zpow_natCast, ← zpow_natCast, ← zpow_add₀ two_ne_zero, x.scale_eq]
    congr 1
    omega
  rw [mul_assoc, hscale]
  push_cast
  rfl

theorem roundsTo_of_roundsTo (hrank : x.rank = n + 1) (h : roundsTo x c i = true) :
    Binary64.RoundsTo n (c * 10 ^ i) := by
  unfold roundsTo at h
  simp only [Binary64.gapBelow_eq] at h
  have hlower : ((4 * x.magnitude - Binary64.gapBelow x.rank : Nat) : ℚ) * 2 ^ (x.scale - 2) *
      2 ^ 1076 = Binary64.border n := by
    rw [cast_scale, x.magnitude_eq, hrank, Binary64.lower_border]
  have hupper : ((4 * x.magnitude + 2 : Nat) : ℚ) * 2 ^ (x.scale - 2) * 2 ^ 1076 =
      Binary64.border (n + 1) := by
    rw [cast_scale, x.magnitude_eq, hrank, Binary64.border]
  have hunit : (0 : ℚ) < 2 ^ 1076 := by norm_num
  have hparity := Binary64.magnitudeAt_mod_two x.rank
  rw [← x.magnitude_eq, hrank] at hparity
  rw [hparity] at h
  split at h
  · rename_i heven
    simp only [Bool.and_eq_true, bne_iff_ne, ne_eq, compareScaled_eq_lt, compareScaled_eq_gt,
      not_lt] at h
    refine ⟨?_, ?_, fun hodd => absurd hodd (by omega)⟩
    · rw [← hlower]
      exact mul_le_mul_of_nonneg_right h.1 hunit.le
    · rw [← hupper]
      exact mul_le_mul_of_nonneg_right h.2 hunit.le
  · simp only [Bool.and_eq_true, beq_iff_eq, compareScaled_eq_lt, compareScaled_eq_gt] at h
    have hinside : (Binary64.border n : ℚ) < c * 10 ^ i * 2 ^ 1076 ∧
        (c : ℚ) * 10 ^ i * 2 ^ 1076 < Binary64.border (n + 1) := by
      rw [← hlower, ← hupper]
      exact ⟨mul_lt_mul_of_pos_right h.1 hunit, mul_lt_mul_of_pos_right h.2 hunit⟩
    exact ⟨hinside.1.le, hinside.2.le, fun _ => hinside⟩

theorem roundsTo_magnitude (hrank : x.rank = n + 1) :
    Binary64.RoundsTo n (x.magnitude * 2 ^ x.scale) := by
  have hvalue : (x.magnitude : ℚ) * 2 ^ x.scale * 2 ^ 1076 =
      (4 * Binary64.magnitudeAt (n + 1) * 2 ^ Binary64.doublingsAt (n + 1) : Nat) := by
    have hscale : (2 : ℚ) ^ x.scale = 2 ^ (x.scale - 2) * 4 := by
      rw [zpow_sub₀ two_ne_zero]
      ring
    have hcast := cast_scale x (4 * x.magnitude)
    rw [hrank, x.magnitude_eq, hrank] at hcast
    rw [← hcast, hscale, x.magnitude_eq, hrank]
    generalize (2 : ℚ) ^ 1076 = unit
    push_cast
    ring
  have hpos : 0 < 2 ^ Binary64.doublingsAt (n + 1) := Nat.two_pow_pos _
  have hlower : Binary64.border n <
      4 * Binary64.magnitudeAt (n + 1) * 2 ^ Binary64.doublingsAt (n + 1) := by
    rw [← Binary64.lower_border]
    refine Nat.mul_lt_mul_of_pos_right ?_ hpos
    have hgap : 0 < Binary64.gapBelow (n + 1) := by
      unfold Binary64.gapBelow
      split <;> decide
    have hmagnitude : 0 < Binary64.magnitudeAt (n + 1) := by
      simp only [Binary64.magnitudeAt]
      split <;> omega
    omega
  have hupper : 4 * Binary64.magnitudeAt (n + 1) * 2 ^ Binary64.doublingsAt (n + 1) <
      Binary64.border (n + 1) := Nat.mul_lt_mul_of_pos_right (by omega) hpos
  have hinside : (Binary64.border n : ℚ) < x.magnitude * 2 ^ x.scale * 2 ^ 1076 ∧
      (x.magnitude : ℚ) * 2 ^ x.scale * 2 ^ 1076 < Binary64.border (n + 1) := by
    rw [hvalue]
    exact ⟨by exact_mod_cast hlower, by exact_mod_cast hupper⟩
  exact ⟨hinside.1.le, hinside.2.le, fun _ => hinside⟩

theorem floorOnGrid_eq (hi : i ≤ exactGrid x) :
    (floorOnGrid x i : ℚ) * 10 ^ i = x.magnitude * 2 ^ x.scale := by
  have hi' : i ≤ x.scale ∧ i ≤ 0 := by
    unfold exactGrid at hi
    omega
  have hunit : timesTwo (timesTen 1 i) (-x.scale) = 2 ^ (-x.scale).toNat := by
    have hzero : i.toNat = 0 := by omega
    simp [timesTwo, timesTen, hzero, Nat.shiftLeft_eq]
  have hdvd : 2 ^ (-x.scale).toNat ∣ timesTen (timesTwo x.magnitude x.scale) (-i) :=
    Dvd.dvd.mul_left ((pow_dvd_pow 2 (by omega)).trans (pow_dvd_pow_of_dvd (by decide) _)) _
  have hpow : (10 : ℚ) ^ (-i) * 10 ^ i = 1 := by
    rw [← zpow_add₀ (by norm_num), neg_add_cancel, zpow_zero]
  have hzero : (- -i).toNat = 0 := by omega
  have htwo : (2 : ℚ) ^ (-x.scale).toNat ≠ 0 := by positivity
  rw [floorOnGrid, hunit, Nat.cast_div hdvd (by exact_mod_cast htwo), cast_timesTen, cast_timesTwo,
    hzero, pow_zero, mul_one, Nat.cast_pow, Nat.cast_ofNat]
  calc (x.magnitude : ℚ) * 2 ^ x.scale * 2 ^ (-x.scale).toNat * 10 ^ (-i) /
        2 ^ (-x.scale).toNat * 10 ^ i
      = x.magnitude * 2 ^ x.scale * (10 ^ (-i) * 10 ^ i) := by
        field_simp
    _ = x.magnitude * 2 ^ x.scale := by rw [hpow, mul_one]

theorem roundsTo_of_pointOnGrid? (h : pointOnGrid? x i = some c) : roundsTo x c i = true := by
  unfold pointOnGrid? at h
  dsimp only at h
  split at h
  · obtain rfl := Option.some.inj h
    assumption
  · obtain rfl := Option.some.inj h
    assumption
  · cases h
  · rename_i hfloor hnext
    split at h
    · obtain rfl := Option.some.inj h
      assumption
    · obtain rfl := Option.some.inj h
      assumption
    · split at h
      · obtain rfl := Option.some.inj h
        assumption
      · obtain rfl := Option.some.inj h
        assumption

theorem roundsTo_searchGrids (hrank : x.rank = n + 1) (hi : i - fuel ≤ exactGrid x) :
    Binary64.RoundsTo n (searchGrids x fuel i).value := by
  induction fuel generalizing i with
  | zero =>
    rw [searchGrids, value, floorOnGrid_eq (by simpa using hi)]
    exact roundsTo_magnitude hrank
  | succ fuel ih =>
    unfold searchGrids
    split
    · exact roundsTo_of_roundsTo hrank (roundsTo_of_pointOnGrid? ‹_›)
    · exact ih (by omega)

theorem roundsTo_shortest (hrank : x.rank = n + 1) : Binary64.RoundsTo n (shortest x).value := by
  have hnonzero : ¬ x.isZero = true := by
    rw [Binary64.isZero_iff]
    omega
  rw [shortest, if_neg hnonzero]
  exact roundsTo_searchGrids hrank (by omega)

theorem value_shortest_of_rank_zero (hrank : x.rank = 0) : (shortest x).value = 0 := by
  rw [shortest, if_pos (Binary64.isZero_iff.mpr hrank)]
  simp [value]

/-- Numbers of different magnitude have decimals of different value. -/
theorem rank_eq_of_value_eq {y : Binary64} (h : (shortest x).value = (shortest y).value) :
    x.rank = y.rank := by
  rcases hx : x.rank with _ | n <;> rcases hy : y.rank with _ | n'
  · rfl
  · have hpos := (roundsTo_shortest hy).pos
    rw [← h, value_shortest_of_rank_zero hx] at hpos
    exact absurd hpos (lt_irrefl _)
  · have hpos := (roundsTo_shortest hx).pos
    rw [h, value_shortest_of_rank_zero hy] at hpos
    exact absurd hpos (lt_irrefl _)
  · have hround := roundsTo_shortest hx
    rw [h] at hround
    rw [hround.eq (roundsTo_shortest hy)]

end Decimal

end StoredObjects
