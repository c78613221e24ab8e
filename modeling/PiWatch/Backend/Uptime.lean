import Mathlib.Data.Nat.Prime.Basic
import Mathlib.Tactic.FieldSimp
import Mathlib.Tactic.IntervalCases
import PiWatch.Backend.Floats

/-!
# Uptimes

The percentage of good results in a history. Floating point arithmetic computes the exactly
rounded one: the histories are short enough.
-/

namespace PiWatch

open ClusterState

/-! ## The range -/

theorem abs_pyRound_two_sub_le (x : ℚ) : |pyRound 2 x - x| ≤ 1 / 200 := by
  have hnear := abs_roundHalfEven_sub_le (x * 10 ^ 2)
  have hsplit : pyRound 2 x - x = (roundHalfEven (x * 10 ^ 2) - x * 10 ^ 2) / 10 ^ 2 := by
    rw [pyRound]
    ring
  rw [hsplit, abs_div, abs_of_pos (by norm_num : (0 : ℚ) < 10 ^ 2),
    div_le_iff₀ (by norm_num)]
  linarith

/-- No good result, only good ones, or a percentage strictly between the bounds. -/
theorem uptimePct_cases {history : List CheckResult} (hne : history ≠ [])
    (hlen : history.length ≤ checkHistoryLen) :
    (history.countP (·.ok) = 0 ∧ uptimePct history = 0) ∨
    (history.countP (·.ok) = history.length ∧ uptimePct history = 100) ∨
    (0 < history.countP (·.ok) ∧ history.countP (·.ok) < history.length ∧
      0 < uptimePct history ∧ uptimePct history < 100) := by
  have hpos := List.length_pos_of_ne_nil hne
  have hle : history.countP (·.ok) ≤ history.length := List.countP_le_length
  unfold uptimePct
  generalize history.countP (·.ok) = up at hle ⊢
  generalize history.length = n at hle hlen hpos ⊢
  have hn : (0 : ℚ) < n := Nat.cast_pos.mpr hpos
  have hn' : (n : ℚ) ≤ 500 := by exact_mod_cast hlen
  rcases Nat.eq_zero_or_pos up with rfl | hup
  · refine Or.inl ⟨rfl, ?_⟩
    rw [Nat.cast_zero, mul_zero, zero_div]
    exact PyFloat.pyRound_intCast 2 0
  rcases hle.eq_or_lt with rfl | hlt
  · refine Or.inr (Or.inl ⟨rfl, ?_⟩)
    rw [mul_div_cancel_right₀ _ hn.ne']
    exact PyFloat.pyRound_intCast 2 100
  · refine Or.inr (Or.inr ⟨hup, hlt, ?_⟩)
    have hup' : (1 : ℚ) ≤ up := by exact_mod_cast hup
    have hlt' : (up : ℚ) ≤ n - 1 := by
      have hsucc : (up : ℚ) + 1 ≤ n := by exact_mod_cast hlt
      linarith
    have hnear := abs_le.mp (abs_pyRound_two_sub_le (100 * up / n))
    have hlow : 1 / 5 ≤ 100 * (up : ℚ) / n := by
      rw [le_div_iff₀ hn]
      linarith
    have hhigh : 100 * (up : ℚ) / n ≤ 100 - 1 / 5 := by
      rw [div_le_iff₀ hn]
      linarith
    constructor <;> linarith

theorem uptimePct_range {history : List CheckResult} (hne : history ≠ [])
    (hlen : history.length ≤ checkHistoryLen) :
    0 ≤ uptimePct history ∧ uptimePct history ≤ 100 := by
  rcases uptimePct_cases hne hlen with ⟨-, h⟩ | ⟨-, h⟩ | ⟨-, -, h, h'⟩
  · rw [h]
    norm_num
  · rw [h]
    norm_num
  · exact ⟨h.le, h'.le⟩

theorem uptimePct_eq_hundred_iff {history : List CheckResult} (hne : history ≠ [])
    (hlen : history.length ≤ checkHistoryLen) :
    uptimePct history = 100 ↔ ∀ r ∈ history, r.ok := by
  have hpos := List.length_pos_of_ne_nil hne
  have hall : history.countP (·.ok) = history.length ↔ ∀ r ∈ history, r.ok :=
    List.countP_eq_length
  rw [← hall]
  rcases uptimePct_cases hne hlen with ⟨hcount, h⟩ | ⟨hcount, h⟩ | ⟨-, hcount, -, h⟩
  · rw [h, hcount]
    exact iff_of_false (by norm_num) hpos.ne
  · exact iff_of_true h hcount
  · exact iff_of_false h.ne hcount.ne

theorem uptimePct_eq_zero_iff {history : List CheckResult} (hne : history ≠ [])
    (hlen : history.length ≤ checkHistoryLen) :
    uptimePct history = 0 ↔ ∀ r ∈ history, ¬ r.ok := by
  have hpos := List.length_pos_of_ne_nil hne
  have hall : history.countP (·.ok) = 0 ↔ ∀ r ∈ history, ¬ r.ok := List.countP_eq_zero
  rw [← hall]
  rcases uptimePct_cases hne hlen with ⟨hcount, h⟩ | ⟨hcount, h⟩ | ⟨hcount, -, h, -⟩
  · exact iff_of_true h hcount
  · rw [h, hcount]
    exact iff_of_false (by norm_num) hpos.ne'
  · exact iff_of_false h.ne' hcount.ne'

/-! ## Floating point -/

namespace PyFloat

theorem abs_nearest_sub_le (q : ℚ) : |nearest q - q| ≤ ulp q / 2 := by
  have hunit := ulp_pos q
  have hscale : nearest q - q = (roundHalfEven (q / ulp q) - q / ulp q) * ulp q := by
    rw [nearest, sub_mul, div_mul_cancel₀ q hunit.ne']
  rw [hscale, abs_mul, abs_of_pos hunit]
  have hnear := mul_le_mul_of_nonneg_right (abs_roundHalfEven_sub_le (q / ulp q)) hunit.le
  linarith

/-- A multiple of the spacing is a double. -/
theorem nearest_of_multiple {q : ℚ} {m e : ℤ} (hq : q = m * 2 ^ e)
    (he : max (Int.log 2 |q| - 52) (-1074) ≤ e) : nearest q = q := by
  obtain ⟨k, hk⟩ := Int.le.dest he
  have hsplit : (2 : ℚ) ^ e = 2 ^ k * ulp q := by
    rw [ulp, ← hk, add_comm, zpow_add₀ (by norm_num), zpow_natCast]
  have hquot : q / ulp q = ((m * 2 ^ k : ℤ) : ℚ) := by
    rw [div_eq_iff (ulp_pos q).ne']
    push_cast
    rw [mul_assoc, ← hsplit]
    exact hq
  rw [nearest, hquot, roundHalfEven_intCast, ← hquot, div_mul_cancel₀ q (ulp_pos q).ne']

theorem log_lt_of_lt {q : ℚ} (hq : 0 < q) {e : ℤ} (h : q < 2 ^ e) : Int.log 2 |q| < e := by
  rw [abs_of_pos hq]
  exact (Int.lt_zpow_iff_log_lt (by norm_num) hq).mp (by exact_mod_cast h)

theorem ofRat_of_nearest {q : ℚ} (h : |nearest q| < 2 ^ 1024) : ofRat q = .finite (nearest q) := by
  rw [ofRat_eq, if_pos h]

/-- The integers up to 53 bits are doubles. -/
theorem ofRat_natCast {n : ℕ} (h : n < 2 ^ 53) : ofRat n = .finite n := by
  have hnearest : nearest (n : ℚ) = n := by
    rcases Nat.eq_zero_or_pos n with rfl | hpos
    · simp [nearest, roundHalfEven]
    · refine nearest_of_multiple (m := n) (e := 0) (by simp) ?_
      have hlog := log_lt_of_lt (q := n) (Nat.cast_pos.mpr hpos) (e := 53) (by exact_mod_cast h)
      omega
  rw [ofRat_of_nearest, hnearest]
  rw [hnearest, Nat.abs_cast]
  calc (n : ℚ) < 2 ^ 53 := by exact_mod_cast h
    _ ≤ 2 ^ 1024 := pow_le_pow_right₀ (by norm_num) (by norm_num)

/-- Percentages are spaced closely. -/
theorem abs_nearest_sub_le_of_percentage {q : ℚ} (hq : 0 < q) (hle : q ≤ 100) :
    |nearest q - q| ≤ 1 / 2 ^ 47 := by
  have hlog := log_lt_of_lt hq (e := 7) (by linarith)
  have hunit : ulp q ≤ 2 ^ (-46 : ℤ) :=
    zpow_le_zpow_right₀ (by norm_num) (by omega)
  have hnear := abs_nearest_sub_le q
  norm_num at hunit hnear ⊢
  linarith

end PyFloat

/-- What is less than a half away from an integer rounds to it. -/
theorem roundHalfEven_of_abs_lt {x : ℚ} {z : ℤ} (h : |x - z| < 1 / 2) : roundHalfEven x = z := by
  have hnear := abs_le.mp (abs_roundHalfEven_sub_le x)
  have hz := abs_lt.mp h
  have hlow : ((roundHalfEven x - z : ℤ) : ℚ) < 1 := by push_cast; linarith
  have hhigh : (-1 : ℚ) < ((roundHalfEven x - z : ℤ) : ℚ) := by push_cast; linarith
  have hlow' : roundHalfEven x - z < 1 := by exact_mod_cast hlow
  have hhigh' : -1 < roundHalfEven x - z := by exact_mod_cast hhigh
  omega

/-- A percentage of at most 500 that ends in half a hundredth is a multiple of an eighth. -/
theorem dvd_of_tie {up n : ℕ} {w : ℤ} (hn : 0 < n) (hn' : n ≤ 500) (hw : w % 2 = 1)
    (h : 20000 * (up : ℤ) = w * n) : 25 ∣ w := by
  have hcoprime : Int.gcd 32 w = 1 :=
    Nat.Coprime.pow_left 5 (Nat.coprime_two_left.mpr (Int.natAbs_odd.mpr (Int.odd_iff.mpr hw)))
  have hdvd : (32 : ℤ) ∣ n := by
    refine Int.dvd_of_dvd_mul_right_of_gcd_one (Dvd.intro (625 * up : ℤ) ?_) hcoprime
    rw [← h]
    ring
  obtain ⟨m, rfl⟩ : 32 ∣ n := by exact_mod_cast hdvd
  have hm' : m ≤ 15 := by omega
  have hreduced : 625 * (up : ℤ) = w * m := by
    push_cast at h
    linarith
  interval_cases m <;> omega

theorem percentage_bounds {up n : ℕ} (hup : 0 < up) (hle : up ≤ n) :
    0 < 100 * (up : ℚ) / n ∧ 100 * (up : ℚ) / n ≤ 100 := by
  have hpos : (0 : ℚ) < n := Nat.cast_pos.mpr (by omega)
  have hup' : (0 : ℚ) < up := Nat.cast_pos.mpr hup
  have hle' : (up : ℚ) ≤ n := Nat.cast_le.mpr hle
  refine ⟨div_pos (by linarith) hpos, ?_⟩
  rw [div_le_iff₀ hpos]
  linarith

/-- A percentage halfway between two hundredths is a double. -/
theorem nearest_of_tie {up n : ℕ} (hup : 0 < up) (hle : up ≤ n) (hn : n ≤ 500) {z : ℤ}
    (htie : 2 * |100 * (up : ℚ) / n * 10 ^ 2 - z| = 1) :
    PyFloat.nearest (100 * up / n) = 100 * up / n := by
  have hpos : (0 : ℚ) < n := Nat.cast_pos.mpr (by omega)
  obtain ⟨hqpos, hqle⟩ := percentage_bounds hup hle
  obtain ⟨q, hq⟩ : ∃ q : ℚ, q = 100 * up / n := ⟨_, rfl⟩
  rw [← hq] at hqpos hqle htie ⊢
  obtain ⟨w, hodd, hw⟩ : ∃ w : ℤ, w % 2 = 1 ∧ 200 * q = w := by
    rcases abs_cases (q * 10 ^ 2 - z) with ⟨habs, -⟩ | ⟨habs, -⟩
    · exact ⟨2 * z + 1, by omega, by push_cast; linarith⟩
    · exact ⟨2 * z - 1, by omega, by push_cast; linarith⟩
  have hscaled : 20000 * (up : ℚ) = w * n := by
    rw [← hw, hq]
    field_simp
    norm_num
  obtain ⟨m, rfl⟩ := dvd_of_tie (by omega) hn hodd (by exact_mod_cast hscaled)
  have hlog := PyFloat.log_lt_of_lt hqpos (e := 7) (by linarith)
  rw [PyFloat.nearest_of_multiple (m := m) (e := -3) _ (by omega)]
  push_cast at hw
  norm_num
  linarith

/-- A fraction with a denominator of at most 500 is not close to a half unless it is one. -/
theorem abs_div_le_of_ne_half {m : ℤ} {n : ℕ} (hpos : (0 : ℚ) < n) (hn : n ≤ 500)
    (hhalf : |(m : ℚ) / n| ≤ 1 / 2) (hne : 2 * |(m : ℚ) / n| ≠ 1) :
    |(m : ℚ) / n| ≤ 1 / 2 - 1 / 1000 := by
  have hn' : (n : ℚ) ≤ 500 := by exact_mod_cast hn
  rw [abs_div, abs_of_pos hpos, ← Int.cast_abs] at hhalf hne ⊢
  rw [div_le_iff₀ hpos] at hhalf ⊢
  have hwhole : 2 * |m| ≤ n := by
    have hcast : ((2 * |m| : ℤ) : ℚ) ≤ n := by push_cast at *; linarith
    exact_mod_cast hcast
  have hne' : 2 * |m| ≠ n := by
    intro heq
    refine hne ?_
    have hcast : 2 * ((|m| : ℤ) : ℚ) = n := by exact_mod_cast heq
    rw [← mul_div_assoc, hcast, div_self hpos.ne']
  have hless : ((2 * |m| : ℤ) : ℚ) ≤ n - 1 := by
    have hint : 2 * |m| ≤ n - 1 := by omega
    exact_mod_cast hint
  push_cast at hless ⊢
  linarith

/-- The double of a percentage rounds to hundredths as the percentage does: a tie is a double, and
everything else is further from one than the double is off. -/
theorem pyRound_nearest_percentage {up n : ℕ} (hup : 0 < up) (hle : up ≤ n) (hn : n ≤ 500) :
    pyRound 2 (PyFloat.nearest (100 * up / n)) = pyRound 2 (100 * up / n) := by
  have hpos : (0 : ℚ) < n := Nat.cast_pos.mpr (by omega)
  obtain ⟨z, hz⟩ : ∃ z, z = roundHalfEven (100 * (up : ℚ) / n * 10 ^ 2) := ⟨_, rfl⟩
  by_cases htie : 2 * |100 * (up : ℚ) / n * 10 ^ 2 - z| = 1
  · rw [nearest_of_tie hup hle hn htie]
  · obtain ⟨hqpos, hqle⟩ := percentage_bounds hup hle
    have hnear := abs_le.mp (PyFloat.abs_nearest_sub_le_of_percentage hqpos hqle)
    have hround := abs_roundHalfEven_sub_le (100 * (up : ℚ) / n * 10 ^ 2)
    rw [← hz, abs_sub_comm] at hround
    have hgrid : 100 * (up : ℚ) / n * 10 ^ 2 - z = ((10000 * up - z * n : ℤ) : ℚ) / n := by
      push_cast
      field_simp
      ring
    rw [hgrid] at hround htie
    have hapart := abs_le.mp (abs_div_le_of_ne_half hpos hn hround htie)
    rw [← hgrid] at hapart
    have hmoved : roundHalfEven (PyFloat.nearest (100 * up / n) * 10 ^ 2) = z := by
      refine roundHalfEven_of_abs_lt ?_
      rw [abs_lt]
      norm_num at hnear hapart ⊢
      constructor <;> linarith
    rw [pyRound, pyRound, hmoved, hz]

/-- `round(100.0 * up / len(history), 2)` is the nearest double of the exact value. -/
theorem uptimePct_float {history : List CheckResult} (hne : history ≠ [])
    (hlen : history.length ≤ checkHistoryLen) :
    (((PyFloat.finite 100).mul (.finite (history.countP (·.ok)))).div?
      (.finite history.length)).map (PyFloat.round 2) = some (.ofRat (uptimePct history)) := by
  have hpos := List.length_pos_of_ne_nil hne
  have hle : history.countP (·.ok) ≤ history.length := List.countP_le_length
  unfold uptimePct
  generalize history.countP (·.ok) = up at hle ⊢
  generalize history.length = n at hle hlen hpos ⊢
  have hlen' : n ≤ 500 := hlen
  have hproduct : (PyFloat.finite 100).mul (.finite up) = .finite (100 * up) := by
    have hcast : (100 : ℚ) * up = (100 * up : ℕ) := by push_cast; rfl
    rw [PyFloat.mul, hcast, PyFloat.ofRat_natCast (by omega)]
  rw [hproduct, PyFloat.div?_finite (Nat.cast_ne_zero.mpr hpos.ne'), Option.map_some]
  congr 1
  rcases Nat.eq_zero_or_pos up with rfl | hup
  · have hzero : PyFloat.ofRat 0 = .finite 0 := by
      exact_mod_cast PyFloat.ofRat_natCast (n := 0) (by norm_num)
    rw [Nat.cast_zero, mul_zero, zero_div, hzero]
    rfl
  · obtain ⟨hqpos, hqle⟩ := percentage_bounds hup hle
    have hnear := abs_le.mp (PyFloat.abs_nearest_sub_le_of_percentage hqpos hqle)
    have hsmall : |PyFloat.nearest (100 * up / n)| < 2 ^ 1024 := by
      have hbound : (101 : ℚ) ≤ 2 ^ 1024 :=
        le_trans (by norm_num : (101 : ℚ) ≤ 2 ^ 7) (pow_le_pow_right₀ (by norm_num) (by norm_num))
      generalize (2 : ℚ) ^ 1024 = top at hbound ⊢
      norm_num at hnear
      rw [abs_lt]
      constructor <;> linarith
    rw [PyFloat.ofRat_of_nearest hsmall, PyFloat.round, pyRound_nearest_percentage hup hle hlen']

end PiWatch
