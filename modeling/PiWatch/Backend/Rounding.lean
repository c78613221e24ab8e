import PiWatch.Backend.Uptime

/-!
# The order of rounded numbers

Rounding keeps the order of numbers, and integers of up to 53 bits stay as they are: what
lies between two such integers is still between them afterwards.
-/

namespace PiWatch

theorem roundHalfEven_mono {x y : ℚ} (h : x ≤ y) : roundHalfEven x ≤ roundHalfEven y := by
  have hfloor : ⌊x⌋ ≤ ⌊y⌋ := Int.floor_le_floor h
  rcases hfloor.eq_or_lt with heq | hlt
  · unfold roundHalfEven
    dsimp only
    rw [heq]
    split_ifs <;> first
      | omega
      | linarith
  · have hupper : roundHalfEven x ≤ ⌊x⌋ + 1 := by
      unfold roundHalfEven
      dsimp only
      split_ifs <;> omega
    have hlower : ⌊y⌋ ≤ roundHalfEven y := by
      unfold roundHalfEven
      dsimp only
      split_ifs <;> omega
    omega

theorem pyRound_mono (digits : ℕ) {x y : ℚ} (h : x ≤ y) : pyRound digits x ≤ pyRound digits y := by
  have hpow : (0 : ℚ) < 10 ^ digits := by positivity
  have hround := roundHalfEven_mono (mul_le_mul_of_nonneg_right h hpow.le)
  have hcast : (roundHalfEven (x * 10 ^ digits) : ℚ) ≤ roundHalfEven (y * 10 ^ digits) := by
    exact_mod_cast hround
  exact div_le_div_of_nonneg_right hcast hpow.le

namespace PyFloat

/-- A number is not rounded beyond a multiple of its unit. -/
theorem nearest_le_of_multiple {q m : ℚ} (h : q ≤ m) {z : ℤ} (hm : m = z * ulp q) :
    nearest q ≤ m := by
  have hdiv : q / ulp q ≤ z := by
    rw [div_le_iff₀ (ulp_pos q), ← hm]
    exact h
  have hround := roundHalfEven_mono hdiv
  rw [roundHalfEven_intCast] at hround
  have hcast : (roundHalfEven (q / ulp q) : ℚ) ≤ z := by exact_mod_cast hround
  rw [nearest, hm]
  exact mul_le_mul_of_nonneg_right hcast (ulp_pos q).le

theorem le_nearest_of_multiple {q m : ℚ} (h : m ≤ q) {z : ℤ} (hm : m = z * ulp q) :
    m ≤ nearest q := by
  have hdiv : (z : ℚ) ≤ q / ulp q := by
    rw [le_div_iff₀ (ulp_pos q), ← hm]
    exact h
  have hround := roundHalfEven_mono hdiv
  rw [roundHalfEven_intCast] at hround
  have hcast : (z : ℚ) ≤ roundHalfEven (q / ulp q) := by exact_mod_cast hround
  rw [nearest, hm]
  exact mul_le_mul_of_nonneg_right hcast (ulp_pos q).le

private theorem zpow_eq_mul_zpow {e e' : ℤ} (h : e' ≤ e) :
    (2 : ℚ) ^ e = ((2 ^ (e - e').toNat : ℤ) : ℚ) * 2 ^ e' := by
  have hsplit : e = ((e - e').toNat : ℤ) + e' := by omega
  conv_lhs => rw [hsplit, zpow_add₀ (by norm_num), zpow_natCast]
  push_cast
  rfl

/-- The exponent of the unit of a number. -/
private theorem ulp_eq (q : ℚ) (hq : 0 ≤ q) : ulp q = 2 ^ max (Int.log 2 q - 52) (-1074) := by
  rw [ulp, abs_of_nonneg hq]

private theorem nearest_mono_pos {a b : ℚ} (ha : 0 < a) (h : a ≤ b) : nearest a ≤ nearest b := by
  have hb : 0 < b := lt_of_lt_of_le ha h
  have hlog : Int.log 2 a ≤ Int.log 2 b := Int.log_mono_right ha h
  rcases le_or_gt (max (Int.log 2 b - 52) (-1074)) (max (Int.log 2 a - 52) (-1074))
    with hsame | hless
  · -- the same unit on both sides
    have hulp : ulp a = ulp b := by
      rw [ulp_eq a ha.le, ulp_eq b hb.le]
      congr 1
      omega
    have hround := roundHalfEven_mono (div_le_div_of_nonneg_right h (ulp_pos b).le)
    have hcast : (roundHalfEven (a / ulp b) : ℚ) ≤ roundHalfEven (b / ulp b) := by
      exact_mod_cast hround
    rw [nearest, nearest, hulp]
    exact mul_le_mul_of_nonneg_right hcast (ulp_pos b).le
  · -- a power of two in between, which neither side is rounded beyond
    have hbelow : a < (2 : ℚ) ^ (Int.log 2 a + 1) := by
      exact_mod_cast Int.lt_zpow_succ_log_self (b := 2) (by norm_num) a
    have hstep : (2 : ℚ) ^ (Int.log 2 a + 1) ≤ 2 ^ Int.log 2 b :=
      zpow_le_zpow_right₀ (by norm_num) (by omega)
    have habove : (2 : ℚ) ^ Int.log 2 b ≤ b := by
      exact_mod_cast Int.zpow_log_le_self (b := 2) (by norm_num) hb
    have hleft : (2 : ℚ) ^ Int.log 2 b =
        ((2 ^ (Int.log 2 b - max (Int.log 2 a - 52) (-1074)).toNat : ℤ) : ℚ) * ulp a := by
      rw [ulp_eq a ha.le]
      exact zpow_eq_mul_zpow (by omega)
    have hright : (2 : ℚ) ^ Int.log 2 b =
        ((2 ^ (Int.log 2 b - max (Int.log 2 b - 52) (-1074)).toNat : ℤ) : ℚ) * ulp b := by
      rw [ulp_eq b hb.le]
      exact zpow_eq_mul_zpow (by omega)
    exact (nearest_le_of_multiple (hbelow.le.trans hstep) hleft).trans
      (le_nearest_of_multiple habove hright)

theorem nearest_nonpos {q : ℚ} (h : q ≤ 0) : nearest q ≤ 0 := by
  have hneg := nearest_nonneg (neg_nonneg.mpr h)
  rw [nearest_neg] at hneg
  linarith

theorem nearest_mono {a b : ℚ} (h : a ≤ b) : nearest a ≤ nearest b := by
  rcases lt_or_ge 0 a with ha | ha
  · exact nearest_mono_pos ha h
  · rcases lt_or_ge b 0 with hb | hb
    · have hneg := nearest_mono_pos (neg_pos.mpr hb) (neg_le_neg h)
      rw [nearest_neg, nearest_neg] at hneg
      linarith
    · exact (nearest_nonpos ha).trans (nearest_nonneg hb)

/-- Integers of up to 53 bits stay as they are. -/
theorem nearest_natCast {n : ℕ} (h : n < 2 ^ 53) : nearest (n : ℚ) = n := by
  have hfinite := ofRat_natCast h
  rw [ofRat_eq] at hfinite
  split_ifs at hfinite
  exact finite.inj hfinite

/-! ## The numbers a double holds -/

/-- The values of a double, without a bound on its exponent from above. -/
def Representable (x : ℚ) : Prop := ∃ m k : ℤ, x = m * 2 ^ k ∧ |m| < 2 ^ 53 ∧ -1074 ≤ k

theorem representable_of_le {m k : ℤ} (hm : |m| ≤ 2 ^ 53) (hk : -1074 ≤ k) :
    Representable (m * 2 ^ k) := by
  rcases hm.lt_or_eq with hlt | heq
  · exact ⟨m, k, rfl, hlt, hk⟩
  · -- the significand 2 ^ 53 is half as large one binade higher
    have hstep : (2 : ℚ) ^ (k + 1) = 2 ^ k * 2 := zpow_add_one₀ (by norm_num) k
    rcases (abs_eq (by norm_num)).mp heq with rfl | rfl
    · refine ⟨2 ^ 52, k + 1, ?_, by norm_num, by omega⟩
      rw [hstep]
      push_cast
      ring
    · refine ⟨-2 ^ 52, k + 1, ?_, by norm_num, by omega⟩
      rw [hstep]
      push_cast
      ring

theorem representable_nearest (q : ℚ) : Representable (nearest q) := by
  refine @representable_of_le (roundHalfEven (q / ulp q)) (max (Int.log 2 |q| - 52) (-1074)) ?_
    (le_max_right _ _)
  have hquot : |q / ulp q| ≤ 2 ^ 53 := by
    rw [abs_div, abs_of_pos (ulp_pos q), div_le_iff₀ (ulp_pos q)]
    have hbelow : |q| < (2 : ℚ) ^ (Int.log 2 |q| + 1) := by
      exact_mod_cast Int.lt_zpow_succ_log_self (b := 2) (by norm_num) |q|
    calc |q| ≤ 2 ^ (Int.log 2 |q| + 1) := hbelow.le
      _ ≤ 2 ^ (53 + max (Int.log 2 |q| - 52) (-1074)) :=
        zpow_le_zpow_right₀ (by norm_num) (by omega)
      _ = 2 ^ 53 * ulp q := by
        rw [zpow_add₀ (by norm_num), ulp]
        rfl
  obtain ⟨hlow, hhigh⟩ := abs_le.mp hquot
  have hlow' := @roundHalfEven_mono (((-2 ^ 53 : ℤ) : ℚ)) _ (by push_cast; exact hlow)
  have hhigh' := @roundHalfEven_mono _ (((2 ^ 53 : ℤ) : ℚ)) (by push_cast; exact hhigh)
  rw [roundHalfEven_intCast] at hlow' hhigh'
  exact abs_le.mpr ⟨hlow', hhigh'⟩

/-- A value of a double is not rounded. -/
theorem nearest_of_representable {x : ℚ} (h : Representable x) : nearest x = x := by
  obtain ⟨m, k, hx, hm, hk⟩ := h
  have hlog : max (Int.log 2 |x| - 52) (-1074) ≤ k ∨ x = 0 := by
    rcases eq_or_ne x 0 with hzero | hne
    · exact Or.inr hzero
    · left
      have hbound : |x| < ((2 : ℕ) : ℚ) ^ (k + 53) := by
        have hcast : |(m : ℚ)| < 2 ^ 53 := by exact_mod_cast hm
        have hpos : (0 : ℚ) < 2 ^ k := zpow_pos (by norm_num) k
        rw [hx, abs_mul, abs_of_pos hpos, Nat.cast_ofNat, zpow_add₀ (by norm_num), mul_comm]
        exact mul_lt_mul_of_pos_left hcast hpos
      have hbinade := (Int.lt_zpow_iff_log_lt (b := 2) (by norm_num) (abs_pos.mpr hne)).mp hbound
      omega
  rcases hlog with hlog | rfl
  · have hmultiple : x = ((m * 2 ^ (k - max (Int.log 2 |x| - 52) (-1074)).toNat : ℤ) : ℚ) *
        ulp x := by
      rw [ulp, Int.cast_mul, mul_assoc, ← zpow_eq_mul_zpow hlog]
      exact hx
    exact le_antisymm (nearest_le_of_multiple le_rfl hmultiple)
      (le_nearest_of_multiple le_rfl hmultiple)
  · simp [nearest, roundHalfEven]

theorem ofRat_of_ofRat {q x : ℚ} (h : ofRat q = .finite x) : ofRat x = .finite x := by
  rw [ofRat_eq] at h
  split_ifs at h with hsmall
  obtain rfl := finite.inj h
  rw [ofRat_eq, nearest_of_representable (representable_nearest q), if_pos hsmall]

/-- Integers of up to 53 bits stay as they are. -/
theorem ofRat_intCast {z : ℤ} (h : |z| ≤ 2 ^ 53) : ofRat z = .finite z := by
  have hself : nearest (z : ℚ) = z := by
    have hrep := @representable_of_le z 0 h (by norm_num)
    rw [zpow_zero, mul_one] at hrep
    exact nearest_of_representable hrep
  rw [ofRat_eq, hself, if_pos]
  have hcast : |(z : ℚ)| ≤ 2 ^ 53 := by exact_mod_cast h
  exact hcast.trans_lt (pow_lt_pow_right₀ (by norm_num) (by norm_num))

end PyFloat

end PiWatch
