import TraceCollector.Proofs.Rounding

/-!
# The order of rounded values, and their error

What rounding keeps of the value that it rounds.

1. An integer at most a half away from a value is no greater than one at most a half away from a
   greater value (`le_of_near`). So both ways of rounding to an integer keep the order.
2. Magnitudes grow with their ranks (`Binary64.magnitude_mono`), and the nearest rank grows with
   the value (`Binary64.nearestRank_mono`): the ranks of one spacing end where those of the next
   begin. So rounding to binary64 keeps the order (`Binary64.toRat_ofRat_mono`).
3. Below a power of two it is off by at most half the spacing there
   (`Binary64.abs_toRat_ofRat_sub_le`), and from a power of two on the numbers are multiples of the
   spacing there (`Binary64.exists_eq_mul_of_le_abs`).
-/

namespace TraceCollector

/-! ## Rounding to an integer -/

theorem abs_roundHalfEven_sub_le (q : ℚ) : |(roundHalfEven q : ℚ) - q| ≤ 1 / 2 := by
  have hlow := Rat.floor_le q
  have hhigh := Rat.lt_floor (x := q)
  unfold roundHalfEven
  dsimp only
  split_ifs <;> rw [abs_le] <;> constructor <;> push_cast <;> linarith

theorem abs_roundHalfAway_sub_le (q : ℚ) : |(roundHalfAway q : ℚ) - q| ≤ 1 / 2 := by
  unfold roundHalfAway
  split_ifs
  · have hlow := Rat.floor_le (1 / 2 - q)
    have hhigh := Rat.lt_floor (x := 1 / 2 - q)
    rw [abs_le]
    constructor <;> push_cast <;> linarith
  · have hlow := Rat.floor_le (q + 1 / 2)
    have hhigh := Rat.lt_floor (x := q + 1 / 2)
    rw [abs_le]
    constructor <;> linarith

theorem le_of_near {p q : ℚ} {m n : ℤ} (hpq : p < q) (hm : |(m : ℚ) - p| ≤ 1 / 2)
    (hn : |(n : ℚ) - q| ≤ 1 / 2) : m ≤ n := by
  by_contra h
  have hstep : (n : ℚ) + 1 ≤ m := by exact_mod_cast not_le.mp h
  have hm' := (abs_le.mp hm).2
  have hn' := (abs_le.mp hn).1
  linarith

theorem roundHalfEven_mono {p q : ℚ} (h : p ≤ q) : roundHalfEven p ≤ roundHalfEven q := by
  rcases h.eq_or_lt with rfl | h
  · exact le_rfl
  · exact le_of_near h (abs_roundHalfEven_sub_le p) (abs_roundHalfEven_sub_le q)

theorem roundHalfAway_mono {p q : ℚ} (h : p ≤ q) : roundHalfAway p ≤ roundHalfAway q := by
  rcases h.eq_or_lt with rfl | h
  · exact le_rfl
  · exact le_of_near h (abs_roundHalfAway_sub_le p) (abs_roundHalfAway_sub_le q)

theorem roundHalfAway_intCast (n : ℤ) : roundHalfAway n = n := by
  have h := abs_le.mp (abs_roundHalfAway_sub_le n)
  have hlow : ((n - 1 : ℤ) : ℚ) < roundHalfAway n := by push_cast; linarith
  have hhigh : (roundHalfAway n : ℚ) < (n + 1 : ℤ) := by push_cast; linarith
  have hlow' := Int.cast_lt.mp hlow
  have hhigh' := Int.cast_lt.mp hhigh
  omega

theorem log2Floor_mono {p q : ℚ} (hp : 0 < p) (h : p ≤ q) : log2Floor p ≤ log2Floor q := by
  have hpow : (2 : ℚ) ^ log2Floor p < 2 ^ (log2Floor q + 1) :=
    calc (2 : ℚ) ^ log2Floor p ≤ p := (log2Floor_spec hp).1
      _ ≤ q := h
      _ < 2 ^ (log2Floor q + 1) := (log2Floor_spec (lt_of_lt_of_le hp h)).2
  have hexponent := (zpow_lt_zpow_iff_right₀ one_lt_two).mp hpow
  omega

namespace Binary64

/-! ## Ranks in order -/

theorem grid_mono {p q : ℚ} (hp : 0 < p) (h : p ≤ q) : grid p ≤ grid q := by
  have hlog := log2Floor_mono hp h
  unfold grid
  omega

/-- Below a power of two the spacing is at most that of the numbers just below it. -/
theorem grid_le {q : ℚ} {k : ℤ} (hq : 0 < q) (h : q < 2 ^ k) (hk : -1021 ≤ k) :
    grid q ≤ k - 53 := by
  have hpow : (2 : ℚ) ^ log2Floor q < 2 ^ k := lt_of_le_of_lt (log2Floor_spec hq).1 h
  have hexponent := (zpow_lt_zpow_iff_right₀ one_lt_two).mp hpow
  unfold grid
  omega

theorem nearestRank_of_nonpos {q : ℚ} (h : q ≤ 0) : nearestRank q = 0 := by
  unfold nearestRank
  rw [if_pos h]

theorem nearestRank_mono {p q : ℚ} (h : p ≤ q) : nearestRank p ≤ nearestRank q := by
  rcases le_or_gt p 0 with hp | hp
  · rw [nearestRank_of_nonpos hp]
    exact Nat.zero_le _
  have hq : 0 < q := lt_of_lt_of_le hp h
  rw [nearestRank_of_pos hp, nearestRank_of_pos hq]
  apply min_le_min_left
  have hleast : -1074 ≤ grid p := le_max_left _ _
  rcases (grid_mono hp h).eq_or_lt with hgrid | hgrid
  · -- the spacing is the same, and the greater value has no fewer of them below it
    have hround : roundHalfEven (p / 2 ^ grid q) ≤ roundHalfEven (q / 2 ^ grid q) :=
      roundHalfEven_mono (div_le_div_of_nonneg_right h (by positivity))
    rw [hgrid]
    omega
  · -- a row of ranks ends where the next one begins
    obtain ⟨-, hend, -⟩ := roundHalfEven_div_grid hp
    obtain ⟨-, -, hbegin⟩ := roundHalfEven_div_grid hq
    have hmany : (binade : ℤ) ≤ roundHalfEven (q / 2 ^ grid q) := hbegin.resolve_right (by omega)
    have hrows : (grid p + 1074).toNat + 1 ≤ (grid q + 1074).toNat := by omega
    have hskip := Nat.mul_le_mul_right binade hrows
    rw [Nat.succ_mul] at hskip
    omega

/-- Every rank is a number of full rows and what is left, which is not less than a row unless the
rank is in the first one. -/
theorem exists_row (rank : ℕ) :
    ∃ n m, rank = n * binade + m ∧ m < 2 * binade ∧ (binade ≤ m ∨ n = 0) := by
  rcases lt_or_ge rank binade with hsmall | hbig
  · exact ⟨0, rank, by omega, by omega, Or.inr rfl⟩
  · refine ⟨rank / binade - 1, binade + rank % binade, ?_, ?_, Or.inl (by omega)⟩ <;>
      unfold binade at hbig ⊢ <;> omega

theorem magnitude_mono {a b : ℕ} (h : a ≤ b) : magnitude a ≤ magnitude b := by
  refine monotone_nat_of_le_succ (fun rank => ?_) h
  obtain ⟨n, m, rfl, hm, hn⟩ := exists_row rank
  rw [Nat.add_assoc, magnitude_add hm.le hn, magnitude_add (by omega) (by omega)]
  gcongr
  omega

theorem magnitude_zero : magnitude 0 = 0 := by
  norm_num [magnitude, significand]

theorem magnitude_nonneg (rank : ℕ) : 0 ≤ magnitude rank := by
  rw [← magnitude_zero]
  exact magnitude_mono (Nat.zero_le rank)

theorem toRat_ofRat_mono {p q : ℚ} (h : p ≤ q) : (ofRat p).toRat ≤ (ofRat q).toRat := by
  have hmono : ∀ {a b : ℚ}, a ≤ b → magnitude (nearestRank a) ≤ magnitude (nearestRank b) :=
    fun hab => magnitude_mono (nearestRank_mono hab)
  rw [toRat_ofRat, toRat_ofRat]
  split_ifs with hp hq hq
  · apply neg_le_neg
    apply hmono
    rw [abs_of_neg hp, abs_of_neg hq]
    exact neg_le_neg h
  · exact le_trans (neg_nonpos.mpr (magnitude_nonneg _)) (magnitude_nonneg _)
  · exact absurd (lt_of_le_of_lt h hq) hp
  · apply hmono
    rw [abs_of_nonneg (not_lt.mp hp), abs_of_nonneg (not_lt.mp hq)]
    exact h

/-! ## The error -/

theorem nearestRank_lt_of_lt {q : ℚ} {k : ℤ} (hq : q < 2 ^ k) (hlow : -1021 ≤ k) (hhigh : k ≤ 971) :
    nearestRank q < infinityRank := by
  have hpower := (magnitude_nearestRank_mul (m := 1) (by norm_num) (by omega : -1074 ≤ k) hhigh).1
  rw [Nat.cast_one, one_mul] at hpower
  exact lt_of_le_of_lt (nearestRank_mono hq.le) hpower

theorem abs_magnitude_nearestRank_sub_le {q : ℚ} {k : ℤ} (hnonneg : 0 ≤ q) (hq : q < 2 ^ k)
    (hlow : -1021 ≤ k) (hhigh : k ≤ 971) : |magnitude (nearestRank q) - q| ≤ 2 ^ (k - 54) := by
  rcases hnonneg.eq_or_lt with rfl | hpos
  · rw [nearestRank_of_nonpos le_rfl, magnitude_zero, sub_zero, abs_zero]
    positivity
  have hgrid : (0 : ℚ) < 2 ^ grid q := by positivity
  calc |magnitude (nearestRank q) - q|
      = |(roundHalfEven (q / 2 ^ grid q) : ℚ) - q / 2 ^ grid q| * 2 ^ grid q := by
        rw [magnitude_nearestRank hpos (nearestRank_lt_of_lt hq hlow hhigh), ← abs_of_pos hgrid,
          ← abs_mul, abs_of_pos hgrid, sub_mul, div_mul_cancel₀ q hgrid.ne']
    _ ≤ 1 / 2 * 2 ^ (k - 53) := by
        gcongr
        · exact abs_roundHalfEven_sub_le _
        · exact one_le_two
        · exact grid_le hpos hq hlow
    _ = 2 ^ (k - 54) := by
        rw [show k - 53 = (k - 54) + 1 by ring, zpow_add_one₀ two_ne_zero]
        ring

/-- Below a power of two rounding is off by at most half the spacing of the numbers there. -/
theorem abs_toRat_ofRat_sub_le {q : ℚ} {k : ℤ} (hq : |q| < 2 ^ k) (hlow : -1021 ≤ k)
    (hhigh : k ≤ 971) : |(ofRat q).toRat - q| ≤ 2 ^ (k - 54) := by
  have herror := abs_magnitude_nearestRank_sub_le (abs_nonneg q) hq hlow hhigh
  rw [toRat_ofRat]
  split_ifs with h
  · rw [abs_of_neg h] at herror ⊢
    rwa [show -magnitude (nearestRank (-q)) - q = -(magnitude (nearestRank (-q)) - -q) by ring,
      abs_neg]
  · rwa [abs_of_nonneg (not_lt.mp h)] at herror ⊢

/-! ## Multiples of the spacing -/

theorem significand_lt (rank : ℕ) : significand rank < 2 ^ 53 := by
  unfold significand binade
  split_ifs <;> omega

/-- From a power of two on all numbers are multiples of the spacing of the numbers just above it. -/
theorem exists_eq_mul_of_le_abs {x : Binary64} {k : ℤ} (h : 2 ^ k ≤ |x.toRat|) :
    ∃ n : ℤ, x.toRat = n * 2 ^ (k - 52) := by
  have hmagnitude : |x.toRat| = magnitude x.rank.val := by
    unfold toRat
    split_ifs
    · rw [abs_neg, abs_of_nonneg (magnitude_nonneg _)]
    · exact abs_of_nonneg (magnitude_nonneg _)
  have hspacing : k < 53 + spacing x.rank.val := by
    apply (zpow_lt_zpow_iff_right₀ (one_lt_two (α := ℚ))).mp
    calc (2 : ℚ) ^ k ≤ |x.toRat| := h
      _ = significand x.rank.val * 2 ^ spacing x.rank.val := hmagnitude
      _ < 2 ^ (53 : ℤ) * 2 ^ spacing x.rank.val := by
        gcongr
        exact_mod_cast significand_lt x.rank.val
      _ = 2 ^ (53 + spacing x.rank.val) := (zpow_add₀ two_ne_zero _ _).symm
  obtain ⟨e, he⟩ := Int.eq_ofNat_of_zero_le (show 0 ≤ spacing x.rank.val - (k - 52) by omega)
  have hmultiple : magnitude x.rank.val =
      ((significand x.rank.val * 2 ^ e : ℕ) : ℤ) * 2 ^ (k - 52) := by
    unfold magnitude
    rw [show spacing x.rank.val = e + (k - 52) by omega, zpow_add₀ two_ne_zero, zpow_natCast]
    push_cast
    ring
  unfold toRat
  split_ifs
  · exact ⟨-((significand x.rank.val * 2 ^ e : ℕ) : ℤ), by rw [hmultiple]; push_cast; ring⟩
  · exact ⟨_, hmultiple⟩

end Binary64

end TraceCollector
