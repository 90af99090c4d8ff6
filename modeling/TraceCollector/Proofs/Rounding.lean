import Mathlib.Algebra.Order.Field.Power
import Mathlib.Data.Rat.Cast.Order
import Mathlib.Tactic.Linarith
import Mathlib.Tactic.NormNum
import Mathlib.Tactic.Positivity
import Mathlib.Tactic.Ring
import TraceCollector.Binary64

/-!
# Rounding to binary64

What the rounding of an exact value comes to.

1. `log2Floor` is the power of two below a value (`log2Floor_spec`), and around the value the
   numbers are multiples of two to the power `Binary64.grid`.
2. Unless it is infinite, the nearest number is the multiple that `roundHalfEven` chooses
   (`Binary64.magnitude_nearestRank`).
3. So a value that is a number already is left as it is (`Binary64.toRat_ofRat`). The integers
   below `2 ^ 53` are numbers, and the others stay integers that are no smaller
   (`Binary64.exists_toRat_ofInt`).
-/

namespace TraceCollector

/-! ## Powers of two -/

theorem log2Floor_spec {q : ℚ} (hq : 0 < q) :
    (2 : ℚ) ^ log2Floor q ≤ q ∧ q < 2 ^ (log2Floor q + 1) := by
  have hnum : (q.num.natAbs : ℚ) / q.den = q := by
    rw [Nat.cast_natAbs, abs_of_pos (Rat.num_pos.mpr hq), Rat.num_div_den]
  have hden : (0 : ℚ) < q.den := Nat.cast_pos.mpr q.den_pos
  have hne : q.num.natAbs ≠ 0 := Int.natAbs_ne_zero.mpr (Rat.num_ne_zero.mpr hq.ne')
  have htwo : (2 : ℚ) ≠ 0 := two_ne_zero
  generalize ha : q.num.natAbs.log2 = a
  generalize hb : q.den.log2 = b
  have hnumLow : (2 : ℚ) ^ (a : ℤ) ≤ q.num.natAbs := by
    rw [zpow_natCast, ← ha]
    exact_mod_cast Nat.log2_self_le hne
  have hnumHigh : (q.num.natAbs : ℚ) < 2 ^ ((a : ℤ) + 1) := by
    rw [← Nat.cast_succ, zpow_natCast, ← ha]
    exact_mod_cast Nat.lt_log2_self
  have hdenLow : (2 : ℚ) ^ (b : ℤ) ≤ q.den := by
    rw [zpow_natCast, ← hb]
    exact_mod_cast Nat.log2_self_le q.den_nz
  have hdenHigh : (q.den : ℚ) < 2 ^ ((b : ℤ) + 1) := by
    rw [← Nat.cast_succ, zpow_natCast, ← hb]
    exact_mod_cast Nat.lt_log2_self
  have hlow : (2 : ℚ) ^ ((a : ℤ) - b - 1) ≤ q := by
    rw [← hnum, le_div_iff₀ hden]
    calc (2 : ℚ) ^ ((a : ℤ) - b - 1) * q.den
        ≤ 2 ^ ((a : ℤ) - b - 1) * 2 ^ ((b : ℤ) + 1) := by gcongr
      _ = 2 ^ (a : ℤ) := by rw [← zpow_add₀ htwo]; congr 1; omega
      _ ≤ q.num.natAbs := hnumLow
  have hhigh : q < (2 : ℚ) ^ ((a : ℤ) - b + 1) := by
    rw [← hnum, div_lt_iff₀ hden]
    calc (q.num.natAbs : ℚ) < 2 ^ ((a : ℤ) + 1) := hnumHigh
      _ = 2 ^ ((a : ℤ) - b + 1) * 2 ^ (b : ℤ) := by rw [← zpow_add₀ htwo]; congr 1; omega
      _ ≤ 2 ^ ((a : ℤ) - b + 1) * q.den := by gcongr
  unfold log2Floor
  simp only [ha, hb]
  split
  · next h => exact ⟨h, hhigh⟩
  · next h => exact ⟨hlow, by rw [sub_add_cancel]; exact not_le.mp h⟩

/-! ## Rounding to an integer -/

section RoundHalfEven

variable {q : ℚ} {n : ℤ}

theorem le_roundHalfEven (h : (n : ℚ) ≤ q) : n ≤ roundHalfEven q := by
  have hfloor : n ≤ q.floor := Rat.le_floor_iff.mpr h
  unfold roundHalfEven
  dsimp only
  split_ifs <;> omega

theorem roundHalfEven_le (h : q ≤ n) : roundHalfEven q ≤ n := by
  have hfloor : q.floor ≤ n := by
    have hmono := Rat.floor_monotone h
    rwa [Rat.floor_intCast] at hmono
  have hrest : q.floor = n → q - q.floor ≤ 0 := fun heq => by
    rw [heq]
    exact sub_nonpos.mpr h
  unfold roundHalfEven
  dsimp only
  -- only above the middle of two integers does it go up, and then not from `n` itself
  by_cases heq : q.floor = n
  · rw [if_pos (lt_of_le_of_lt (hrest heq) (by norm_num))]
    exact hfloor
  · split_ifs <;> omega

theorem roundHalfEven_intCast (n : ℤ) : roundHalfEven n = n :=
  le_antisymm (roundHalfEven_le le_rfl) (le_roundHalfEven le_rfl)

end RoundHalfEven

namespace Binary64

/-! ## The nearest rank -/

/-- The numbers around a value are multiples of two to this power. -/
def grid (q : ℚ) : ℤ := max (-1074) (log2Floor q - 52)

theorem magnitude_add {n m : ℕ} (hm : m ≤ 2 * binade) (hn : binade ≤ m ∨ n = 0) :
    magnitude (n * binade + m) = m * (2 : ℚ) ^ ((n : ℤ) - 1074) := by
  unfold magnitude significand spacing
  rcases lt_or_ge m binade with hsmall | hbig
  · -- below the first power of two the spacing is the least one
    obtain rfl : n = 0 := hn.resolve_left (by omega)
    have hzero : m / binade = 0 := Nat.div_eq_of_lt hsmall
    rw [zero_mul, zero_add, if_pos hsmall, hzero]
    norm_num
  rcases hm.lt_or_eq with hlt | rfl
  · have hrank : n * binade + m = (m - binade) + (n + 1) * binade := by
      rw [Nat.succ_mul]
      omega
    have hdiv : (n * binade + m) / binade = n + 1 := by
      rw [hrank, Nat.add_mul_div_right _ _ (by norm_num), Nat.div_eq_of_lt (by omega), zero_add]
    have hmod : (n * binade + m) % binade = m - binade := by
      rw [hrank, Nat.add_mul_mod_self_right, Nat.mod_eq_of_lt (by omega)]
    rw [if_neg (by omega), hmod, hdiv, Nat.add_sub_cancel' hbig, max_eq_right (by omega)]
    congr 2
    push_cast
    omega
  · -- a full row of ranks is the first one of the next
    have hrank : n * binade + 2 * binade = 0 + (n + 2) * binade := by
      rw [Nat.add_mul, zero_add]
    rw [if_neg (by omega), hrank, Nat.add_mul_div_right _ _ (by norm_num),
      Nat.add_mul_mod_self_right, Nat.zero_div, Nat.zero_mod, zero_add, add_zero,
      max_eq_right (by omega)]
    have hexponent : ((n + 2 : ℕ) : ℤ) - 1075 = ((n : ℤ) - 1074) + 1 := by push_cast; omega
    rw [hexponent, zpow_add_one₀ two_ne_zero]
    push_cast
    ring

section NearestRank

variable {q : ℚ}

theorem nearestRank_of_pos (hq : 0 < q) :
    nearestRank q = min infinityRank
      ((grid q + 1074).toNat * binade + (roundHalfEven (q / 2 ^ grid q)).toNat) := by
  unfold nearestRank
  rw [if_neg (not_le.mpr hq)]
  rfl

/-- Around a value there are at least `binade` and at most `2 * binade` multiples of the spacing
up to it, and fewer only where the spacing is the least one. -/
theorem roundHalfEven_div_grid (hq : 0 < q) :
    0 ≤ roundHalfEven (q / 2 ^ grid q) ∧ roundHalfEven (q / 2 ^ grid q) ≤ 2 * (binade : ℤ) ∧
      ((binade : ℤ) ≤ roundHalfEven (q / 2 ^ grid q) ∨ grid q = -1074) := by
  obtain ⟨hlow, hhigh⟩ := log2Floor_spec hq
  have hgrid : (0 : ℚ) < 2 ^ grid q := by positivity
  refine ⟨le_roundHalfEven (by rw [Int.cast_zero]; positivity), roundHalfEven_le ?_, ?_⟩
  · rw [div_le_iff₀ hgrid]
    calc q ≤ 2 ^ (log2Floor q + 1) := hhigh.le
      _ ≤ 2 ^ (53 + grid q) := zpow_le_zpow_right₀ one_le_two (by unfold grid; omega)
      _ = ((2 * (binade : ℤ) : ℤ) : ℚ) * 2 ^ grid q := by
        rw [zpow_add₀ two_ne_zero]; norm_num
  · by_cases hleast : grid q = -1074
    · exact Or.inr hleast
    · refine Or.inl (le_roundHalfEven ?_)
      have hexact : log2Floor q = 52 + grid q := by unfold grid at hleast ⊢; omega
      rw [le_div_iff₀ hgrid]
      calc ((binade : ℤ) : ℚ) * 2 ^ grid q = 2 ^ log2Floor q := by
            rw [hexact, zpow_add₀ two_ne_zero]; norm_num
        _ ≤ q := hlow

/-- The nearest number is the nearest multiple of the spacing. -/
theorem magnitude_nearestRank (hq : 0 < q) (hfinite : nearestRank q < infinityRank) :
    magnitude (nearestRank q) = roundHalfEven (q / 2 ^ grid q) * (2 : ℚ) ^ grid q := by
  obtain ⟨hnonneg, hle, hlow⟩ := roundHalfEven_div_grid hq
  obtain ⟨m, hm⟩ := Int.eq_ofNat_of_zero_le hnonneg
  have hrank : nearestRank q = (grid q + 1074).toNat * binade + m := by
    rw [nearestRank_of_pos hq, hm, Int.toNat_natCast] at hfinite ⊢
    omega
  have hbound : -1074 ≤ grid q := le_max_left _ _
  rw [hrank, magnitude_add (by omega) (by omega), hm, Int.toNat_of_nonneg (by omega),
    add_sub_cancel_right, Int.cast_natCast]

/-- A multiple of a spacing that is not above the one around it is a number. -/
theorem magnitude_nearestRank_mul {m : ℕ} {e : ℤ} (hm : m < 2 ^ 53) (hlow : -1074 ≤ e)
    (hhigh : e ≤ 971) :
    nearestRank (m * 2 ^ e) < infinityRank ∧ magnitude (nearestRank (m * 2 ^ e)) = m * 2 ^ e := by
  rcases Nat.eq_zero_or_pos m with rfl | hpos
  · rw [Nat.cast_zero, zero_mul]
    exact ⟨by decide, by norm_num [nearestRank, magnitude, significand]⟩
  have hq : (0 : ℚ) < m * 2 ^ e := by positivity
  have hgrid : grid (m * 2 ^ e) ≤ e := by
    have hpow : (2 : ℚ) ^ log2Floor (m * 2 ^ e) < 2 ^ (53 + e) := by
      calc (2 : ℚ) ^ log2Floor (m * 2 ^ e) ≤ m * 2 ^ e := (log2Floor_spec hq).1
        _ < 2 ^ (53 : ℤ) * 2 ^ e := by gcongr; exact_mod_cast hm
        _ = 2 ^ (53 + e) := (zpow_add₀ two_ne_zero _ _).symm
    have hexponent := (zpow_lt_zpow_iff_right₀ one_lt_two).mp hpow
    unfold grid
    omega
  -- the value is an integer number of spacings, and no rounding takes place
  obtain ⟨k, hk⟩ := Int.eq_ofNat_of_zero_le (sub_nonneg.mpr hgrid)
  have hcount : (m : ℚ) * 2 ^ e / 2 ^ grid (m * 2 ^ e) = ((m * 2 ^ k : ℕ) : ℤ) := by
    rw [mul_div_assoc, ← zpow_sub₀ two_ne_zero, hk, zpow_natCast]
    push_cast
    rfl
  have hround := roundHalfEven_intCast ((m * 2 ^ k : ℕ) : ℤ)
  rw [← hcount] at hround
  obtain ⟨-, hle, -⟩ := roundHalfEven_div_grid hq
  have hfinite : nearestRank (m * 2 ^ e) < infinityRank := by
    rw [nearestRank_of_pos hq]
    refine lt_of_le_of_lt (min_le_right _ _) ?_
    unfold binade at hle ⊢
    unfold infinityRank
    rcases Nat.eq_zero_or_pos k with rfl | hk'
    · rw [hround]
      omega
    · omega
  refine ⟨hfinite, ?_⟩
  rw [magnitude_nearestRank hq hfinite, hround, ← hcount,
    div_mul_cancel₀ _ (zpow_ne_zero _ two_ne_zero)]

/-- From `2 ^ 53` on only integers are numbers, and none below comes nearest. -/
theorem magnitude_nearestRank_of_large (hq : 2 ^ 53 ≤ q)
    (hfinite : nearestRank q < infinityRank) :
    ∃ k : ℤ, magnitude (nearestRank q) = k ∧ 2 ^ 53 ≤ k := by
  have hpos : 0 < q := lt_of_lt_of_le (by norm_num) hq
  have hgrid : 1 ≤ grid q := by
    have hpow : (2 : ℚ) ^ (53 : ℤ) < 2 ^ (log2Floor q + 1) :=
      lt_of_le_of_lt hq (log2Floor_spec hpos).2
    have hexponent := (zpow_lt_zpow_iff_right₀ one_lt_two).mp hpow
    unfold grid
    omega
  obtain ⟨-, -, hlow⟩ := roundHalfEven_div_grid hpos
  have hmany : (binade : ℤ) ≤ roundHalfEven (q / 2 ^ grid q) := hlow.resolve_right (by omega)
  obtain ⟨e, he⟩ := Int.eq_ofNat_of_zero_le (sub_nonneg.mpr hgrid)
  have hspacing : grid q = ((e + 1 : ℕ) : ℤ) := by push_cast; omega
  refine ⟨roundHalfEven (q / 2 ^ grid q) * 2 ^ (e + 1), ?_, ?_⟩
  · have hpower : (2 : ℚ) ^ grid q = ((2 ^ (e + 1) : ℤ) : ℚ) := by
      rw [hspacing, zpow_natCast]
      push_cast
      rfl
    rw [magnitude_nearestRank hpos hfinite, Int.cast_mul, ← hpower]
  · calc (2 : ℤ) ^ 53 = binade * 2 ^ (0 + 1) := by norm_num
      _ ≤ roundHalfEven (q / 2 ^ grid q) * 2 ^ (e + 1) := by
        gcongr
        · norm_num
        · omega

end NearestRank

/-! ## Numbers and their rounding -/

/-- The value is a number: two to a power in the range, times an integer of 53 digits. -/
def Representable (q : ℚ) : Prop :=
  ∃ (m : ℕ) (e : ℤ), m < 2 ^ 53 ∧ -1074 ≤ e ∧ e ≤ 971 ∧ |q| = m * 2 ^ e

theorem representable_intCast {n : ℤ} (h : |n| < 2 ^ 53) : Representable n := by
  rw [Int.abs_eq_natAbs] at h
  refine ⟨n.natAbs, 0, by exact_mod_cast h, by norm_num, by norm_num, ?_⟩
  rw [zpow_zero, mul_one, Nat.cast_natAbs, Int.cast_abs]

theorem rank_ofRat (q : ℚ) : (ofRat q).rank.val = nearestRank |q| := by
  unfold ofRat
  dsimp only
  split
  · next h => rw [abs_of_neg h]
  · next h => rw [abs_of_nonneg (not_lt.mp h)]

theorem toRat_ofRat (q : ℚ) :
    (ofRat q).toRat =
      if q < 0 then -magnitude (nearestRank |q|) else magnitude (nearestRank |q|) := by
  unfold toRat
  rw [rank_ofRat]
  unfold ofRat
  simp only [decide_eq_true_eq]

/-- A number is its own rounding. -/
theorem Representable.toRat_ofRat {q : ℚ} (h : Representable q) :
    (ofRat q).isFinite = true ∧ (ofRat q).toRat = q := by
  obtain ⟨m, e, hm, hlow, hhigh, hq⟩ := h
  obtain ⟨hfinite, hmagnitude⟩ := magnitude_nearestRank_mul hm hlow hhigh
  rw [← hq] at hfinite hmagnitude
  constructor
  · unfold isFinite
    rw [rank_ofRat]
    exact decide_eq_true hfinite
  · rw [Binary64.toRat_ofRat, hmagnitude]
    split
    · next h => rw [abs_of_neg h, neg_neg]
    · next h => rw [abs_of_nonneg (not_lt.mp h)]

/-- An integer is rounded to an integer, and to itself below `2 ^ 53`. -/
theorem exists_toRat_ofInt {n : ℤ} (hfinite : (ofInt n).isFinite = true) :
    ∃ k : ℤ, (ofInt n).toRat = k ∧ (k = n ∨ 2 ^ 53 ≤ |n| ∧ 2 ^ 53 ≤ |k|) := by
  unfold ofInt at hfinite ⊢
  rcases lt_or_ge |n| (2 ^ 53) with hsmall | hlarge
  · exact ⟨n, (representable_intCast hsmall).toRat_ofRat.2, Or.inl rfl⟩
  have hrank : nearestRank |(n : ℚ)| < infinityRank := by
    rw [← rank_ofRat]
    exact of_decide_eq_true hfinite
  have hvalue : (2 : ℚ) ^ 53 ≤ |(n : ℚ)| := by exact_mod_cast hlarge
  obtain ⟨k, hk, hbound⟩ := magnitude_nearestRank_of_large hvalue hrank
  have habs : 2 ^ 53 ≤ |k| := hbound.trans (le_abs_self k)
  rw [toRat_ofRat, hk]
  split
  · exact ⟨-k, by rw [Int.cast_neg], Or.inr ⟨hlarge, by rwa [abs_neg]⟩⟩
  · exact ⟨k, rfl, Or.inr ⟨hlarge, habs⟩⟩

end Binary64

end TraceCollector
