import Mathlib.Data.Int.Log
import Mathlib.Tactic.Linarith
import PiWatch.Backend.Numerals
import PiWatch.Backend.State

/-!
# Floating point numbers

A float is one of the rationals a double can hold, an infinity, or not a number. Every
operation rounds its exact result to the nearest double.
-/

namespace PiWatch

/-- The exceptions the collectors tell apart. -/
inductive PyError
  | keyError
  | valueError
  | typeError
  | attributeError
  | zeroDivisionError
  | overflowError
  deriving DecidableEq

namespace PyFloat

/-- The spacing of the doubles around a rational. -/
def ulp (q : ℚ) : ℚ := 2 ^ max (Int.log 2 |q| - 52) (-1074)

/-- The nearest double, ties to even. -/
def ofRat (q : ℚ) : PyFloat :=
  let r := roundHalfEven (q / ulp q) * ulp q
  if |r| < 2 ^ 1024 then .finite r
  else if 0 < r then .posInf
  else .negInf

def isFinite : PyFloat → Bool
  | .finite _ => true
  | _ => false

/-- The truth value: everything but zero, not a number included. -/
def truthy (x : PyFloat) : Bool := x ≠ .finite 0

def neg : PyFloat → PyFloat
  | .finite q => .finite (-q)
  | .nan => .nan
  | .posInf => .negInf
  | .negInf => .posInf

/-- -1, 0 or 1. -/
def sign : PyFloat → ℤ
  | .finite q => if 0 < q then 1 else if q < 0 then -1 else 0
  | .nan => 0
  | .posInf => 1
  | .negInf => -1

/-- The infinity of a sign, not a number for none. -/
def infinity (s : ℤ) : PyFloat :=
  if 0 < s then .posInf else if s < 0 then .negInf else .nan

def add : PyFloat → PyFloat → PyFloat
  | .finite a, .finite b => ofRat (a + b)
  | .nan, _ | _, .nan => .nan
  | .posInf, .negInf | .negInf, .posInf => .nan
  | .posInf, _ | _, .posInf => .posInf
  | .negInf, _ | _, .negInf => .negInf

def sub (x y : PyFloat) : PyFloat := x.add y.neg

def mul : PyFloat → PyFloat → PyFloat
  | .finite a, .finite b => ofRat (a * b)
  | .nan, _ | _, .nan => .nan
  | x, y => infinity (x.sign * y.sign)

/-- `x / y`; without a value it raises `ZeroDivisionError`. -/
def div? (x y : PyFloat) : Option PyFloat :=
  match x, y with
  | _, .finite 0 => none
  | .finite a, .finite b => some (ofRat (a / b))
  | .nan, _ | _, .nan => some .nan
  | .finite _, _ => some (.finite 0)
  | x, .finite b => some (infinity (x.sign * (finite b).sign))
  | _, _ => some .nan

/-- `x < y`: false for anything that is not a number. -/
def lt : PyFloat → PyFloat → Bool
  | .nan, _ | _, .nan => false
  | .finite a, .finite b => a < b
  | .negInf, .negInf | .posInf, _ => false
  | .negInf, _ => true
  | .finite _, .posInf => true
  | .finite _, .negInf => false

def abs : PyFloat → PyFloat
  | .finite q => .finite |q|
  | .nan => .nan
  | .posInf | .negInf => .posInf

/-- `round(x, digits)`. -/
def round (digits : ℕ) : PyFloat → PyFloat
  | .finite q => ofRat (pyRound digits q)
  | x => x

/-- `int(x)`. -/
def toInt : PyFloat → Except PyError ℤ
  | .finite q => .ok (if 0 ≤ q then ⌊q⌋ else ⌈q⌉)
  | .nan => .error .valueError
  | .posInf | .negInf => .error .overflowError

/-- `float(s)` for a text; without a value it raises `ValueError`. -/
def ofString (s : String) : Option PyFloat :=
  let (negative, body) := PyText.sign (PyText.strip s.toList)
  let lower := body.map Char.toLower
  if lower = "inf".toList ∨ lower = "infinity".toList then
    some (if negative then .negInf else .posInf)
  else if lower = "nan".toList then some .nan
  else (PyText.floatValue body).map fun x => ofRat (PyText.negateIf negative x)

/-- One step of the compensated sum: the running total and what it lost so far. -/
def sumStep (acc : PyFloat × PyFloat) (x : PyFloat) : PyFloat × PyFloat :=
  let t := acc.1.add x
  if acc.1.abs.lt x.abs then (t, acc.2.add ((x.sub t).add acc.1))
  else (t, acc.2.add ((acc.1.sub t).add x))

/-- `sum(xs)` of floats. -/
def sum : List PyFloat → PyFloat
  | [] => .finite 0
  | x :: xs =>
    let acc := xs.foldl sumStep (x, .finite 0)
    if acc.2.truthy && acc.2.isFinite then acc.1.add acc.2 else acc.1

end PyFloat

namespace PyFloat

theorem div?_eq_none_iff {x y : PyFloat} : x.div? y = none ↔ y = .finite 0 := by
  constructor
  · intro h
    unfold div? at h
    split at h
    · rfl
    all_goals cases h
  · intro h
    subst h
    unfold div?
    cases x <;> rfl

theorem exists_toInt_of_isFinite {x : PyFloat} (h : x.isFinite) : ∃ z, x.toInt = .ok z := by
  cases x with
  | finite q => exact ⟨_, rfl⟩
  | _ => cases h

end PyFloat

/-! ## The range of a double -/

theorem abs_roundHalfEven_sub_le (x : ℚ) : |(roundHalfEven x : ℚ) - x| ≤ 1 / 2 := by
  have hfloor := Int.floor_le x
  have hlt := Int.lt_floor_add_one x
  unfold roundHalfEven
  dsimp only
  rw [abs_le]
  split_ifs <;> push_cast <;> constructor <;> linarith

/-- Rounding stays below an even bound exactly below the tie next to it. -/
theorem roundHalfEven_lt_iff (x : ℚ) {n : ℤ} (hodd : n % 2 = 1) :
    roundHalfEven x < n + 1 ↔ x < n + 1 / 2 := by
  have hle := Int.floor_le x
  have hlt := Int.lt_floor_add_one x
  unfold roundHalfEven
  dsimp only
  constructor
  · intro h
    by_contra hx
    rw [not_lt] at hx
    have hn : n ≤ ⌊x⌋ := Int.le_floor.mpr (by linarith)
    split at h
    · rename_i hrest
      have hfloor : ⌊x⌋ = n := by omega
      rw [hfloor] at hrest
      linarith
    · split at h
      · omega
      · split at h <;> omega
  · intro hx
    have hn : ⌊x⌋ < n + 1 := by
      have hcast : (⌊x⌋ : ℚ) < (n + 1 : ℤ) := by push_cast; linarith
      exact_mod_cast hcast
    by_cases heq : ⌊x⌋ = n
    · rw [heq, if_pos (by linarith)]
      omega
    · split_ifs <;> omega

theorem roundHalfEven_intCast (z : ℤ) : roundHalfEven (z : ℚ) = z := by
  simp [roundHalfEven]

theorem roundHalfEven_neg (x : ℚ) : roundHalfEven (-x) = -roundHalfEven x := by
  by_cases hint : x = ⌊x⌋
  · rw [hint, roundHalfEven_intCast]
    exact_mod_cast roundHalfEven_intCast (-⌊x⌋)
  · have hle : (⌊x⌋ : ℚ) < x := lt_of_le_of_ne (Int.floor_le x) (Ne.symm hint)
    have hlt := Int.lt_floor_add_one x
    have hfloor : ⌊-x⌋ = -⌊x⌋ - 1 := by
      rw [Int.floor_eq_iff]
      push_cast
      constructor <;> linarith
    simp only [roundHalfEven, hfloor]
    push_cast
    split_ifs <;> first
      | omega
      | linarith

namespace PyFloat

theorem ulp_neg (q : ℚ) : ulp (-q) = ulp q := by
  rw [ulp, ulp, abs_neg]

theorem ulp_pos (q : ℚ) : 0 < ulp q := zpow_pos (by norm_num) _

/-- The least magnitude that rounds out of the range of a double. -/
def overflowLimit : ℚ := (2 ^ 54 - 1) * 2 ^ 970

theorem lt_overflowLimit_of_lt {q : ℚ} (h : q < 2 ^ 53) : q < overflowLimit := by
  have hpow : (1 : ℚ) ≤ 2 ^ 970 := one_le_pow₀ (by norm_num)
  calc
    q < 2 ^ 53 := h
    _ ≤ (2 ^ 54 - 1) * 1 := by norm_num
    _ ≤ (2 ^ 54 - 1) * 2 ^ 970 := mul_le_mul_of_nonneg_left hpow (by norm_num)

/-- The double next to a rational, without a bound on its exponent. -/
def nearest (q : ℚ) : ℚ := roundHalfEven (q / ulp q) * ulp q

theorem ofRat_eq (q : ℚ) : ofRat q =
    if |nearest q| < 2 ^ 1024 then .finite (nearest q)
    else if 0 < nearest q then .posInf else .negInf := rfl

theorem nearest_neg (q : ℚ) : nearest (-q) = -nearest q := by
  rw [nearest, ulp_neg, neg_div, roundHalfEven_neg, nearest]
  push_cast
  ring

theorem isFinite_ofRat {q : ℚ} : (ofRat q).isFinite ↔ |nearest q| < 2 ^ 1024 := by
  rw [ofRat_eq]
  split_ifs with h <;> simp [isFinite, h]

theorem nearest_nonneg {q : ℚ} (h : 0 ≤ q) : 0 ≤ nearest q := by
  have hround : -1 < roundHalfEven (q / ulp q) := by
    have hnear := abs_le.mp (abs_roundHalfEven_sub_le (q / ulp q))
    have hdiv : 0 ≤ q / ulp q := div_nonneg h (ulp_pos q).le
    have hcast : ((-1 : ℤ) : ℚ) < roundHalfEven (q / ulp q) := by push_cast; linarith
    exact_mod_cast hcast
  have hround' : (0 : ℚ) ≤ roundHalfEven (q / ulp q) := by exact_mod_cast (by omega)
  exact mul_nonneg hround' (ulp_pos q).le

private theorem nearest_lt_add_ulp (q : ℚ) : nearest q < q + ulp q := by
  have hnear := abs_le.mp (abs_roundHalfEven_sub_le (q / ulp q))
  have hscale : nearest q - q = (roundHalfEven (q / ulp q) - q / ulp q) * ulp q := by
    rw [nearest, sub_mul, div_mul_cancel₀ q (ulp_pos q).ne']
  have herror : (roundHalfEven (q / ulp q) - q / ulp q) * ulp q ≤ 1 / 2 * ulp q :=
    mul_le_mul_of_nonneg_right hnear.2 (ulp_pos q).le
  have hunit := ulp_pos q
  linarith

private theorem ulp_le_of_small {q : ℚ} (h : 0 ≤ q) (hq : q < 2 ^ 1023) : ulp q ≤ 2 ^ 970 := by
  have hlog : Int.log 2 |q| ≤ 1022 := by
    rw [abs_of_nonneg h]
    rcases h.eq_or_lt with rfl | hpos
    · simp
    · have := (Int.lt_zpow_iff_log_lt (b := 2) (x := 1023) (by norm_num) hpos).mp
        (by exact_mod_cast hq)
      omega
  have hexp : (2 : ℚ) ^ max (Int.log 2 |q| - 52) (-1074) ≤ 2 ^ (970 : ℤ) :=
    zpow_le_zpow_right₀ (by norm_num) (by omega)
  exact_mod_cast hexp

private theorem nearest_eq_of_log {q : ℚ} {e : ℤ} (he : 0 ≤ e) (hlog : Int.log 2 |q| = e + 52) :
    nearest q = roundHalfEven (q / 2 ^ e) * 2 ^ e := by
  have hulp : ulp q = 2 ^ e := by
    rw [ulp, hlog, max_eq_left (by omega), add_sub_cancel_right]
  rw [nearest, hulp]

private theorem zpow_le_of_log {q : ℚ} {e : ℤ} (h : 0 < q) (hlog : Int.log 2 |q| = e) :
    (2 : ℚ) ^ e ≤ q := by
  have hbase := Int.zpow_log_le_self (b := 2) (by norm_num) h
  rw [← abs_of_pos h, hlog, abs_of_pos h] at hbase
  exact_mod_cast hbase

/-- Rounding does not leave the binade downwards. -/
private theorem le_nearest {q : ℚ} {e : ℤ} (h : 0 < q) (he : 0 ≤ e)
    (hlog : Int.log 2 |q| = e + 52) : (2 : ℚ) ^ (e + 52) ≤ nearest q := by
  have hself := zpow_le_of_log h hlog
  have hsplit : (2 : ℚ) ^ (e + 52) = 2 ^ 52 * 2 ^ e := by
    rw [zpow_add₀ (by norm_num), mul_comm]
    rfl
  have hscale : (0 : ℚ) < 2 ^ e := zpow_pos (by norm_num) _
  have hround : ¬ roundHalfEven (q / 2 ^ e) < 2 ^ 52 - 1 + 1 := by
    rw [roundHalfEven_lt_iff _ (by norm_num), not_lt, le_div_iff₀ hscale]
    push_cast
    linarith only [hself, hsplit, hscale]
  have hround' : (2 : ℚ) ^ 52 ≤ roundHalfEven (q / 2 ^ e) := by
    rw [sub_add_cancel, not_lt] at hround
    exact_mod_cast hround
  rw [nearest_eq_of_log he hlog, hsplit]
  exact mul_le_mul_of_nonneg_right hround' hscale.le

/-- The exponent of a number in the top binade or beyond. -/
private theorem exists_log_of_large {q : ℚ} (hq : 2 ^ 1023 ≤ q) :
    ∃ e : ℤ, 971 ≤ e ∧ Int.log 2 |q| = e + 52 := by
  have hpos : 0 < q := lt_of_lt_of_le (by positivity) hq
  have hlog : 1023 ≤ Int.log 2 |q| := by
    rw [abs_of_pos hpos]
    exact (Int.zpow_le_iff_le_log (b := 2) (x := 1023) (by norm_num) hpos).mp (by exact_mod_cast hq)
  exact ⟨Int.log 2 |q| - 52, by omega, by omega⟩

private theorem top_le_zpow {e : ℤ} (he : 972 ≤ e) : (2 : ℚ) ^ 1024 ≤ 2 ^ (e + 52) := by
  rw [← zpow_natCast]
  exact zpow_le_zpow_right₀ (by norm_num) (by push_cast; omega)

/-- In the top binade a number rounds to a multiple of twice the unit `2 ^ 970`. -/
private theorem nearest_of_top {q unit : ℚ} (hunit : unit = 2 ^ 970)
    (hlog : Int.log 2 |q| = 971 + 52) :
    nearest q = roundHalfEven (q / (2 * unit)) * (2 * unit) ∧
      (nearest q < 2 ^ 1024 ↔ roundHalfEven (q / (2 * unit)) < 2 ^ 53) := by
  have hpos : 0 < unit := by rw [hunit]; positivity
  have hstep : (2 : ℚ) ^ (971 : ℤ) = 2 * unit := by
    rw [hunit, ← pow_succ']
    rfl
  have htop : (2 : ℚ) ^ 1024 = 2 ^ 53 * (2 * unit) := by
    rw [hunit, ← pow_succ', ← pow_add]
  have hnear := nearest_eq_of_log (by norm_num) hlog
  rw [hstep] at hnear
  refine ⟨hnear, ?_⟩
  rw [hnear, htop, mul_lt_mul_iff_left₀ (by linarith only [hpos])]
  exact_mod_cast Iff.rfl

private theorem nearest_lt_iff_of_nonneg {q : ℚ} (h : 0 ≤ q) :
    nearest q < 2 ^ 1024 ↔ q < overflowLimit := by
  obtain ⟨unit, hunit⟩ : ∃ unit : ℚ, unit = 2 ^ 970 := ⟨_, rfl⟩
  have hpos : 0 < unit := by rw [hunit]; positivity
  have htop : (2 : ℚ) ^ 1024 = 2 ^ 54 * unit := by rw [hunit, ← pow_add]
  rw [overflowLimit, ← hunit]
  rcases lt_or_ge q (2 ^ 1023) with hsmall | hlarge
  · have hnear := nearest_lt_add_ulp q
    have hulp := ulp_le_of_small h hsmall
    have hhalf : (2 : ℚ) ^ 1023 = 2 ^ 53 * unit := by rw [hunit, ← pow_add]
    rw [hhalf] at hsmall
    rw [← hunit] at hulp
    rw [htop]
    constructor
    · intro _
      linarith only [hsmall, hpos]
    · intro _
      linarith only [hsmall, hpos, hnear, hulp]
  · have hqpos : 0 < q := lt_of_lt_of_le (by positivity) hlarge
    obtain ⟨e, hle, hlog⟩ := exists_log_of_large hlarge
    rcases hle.eq_or_lt with rfl | hbig
    · have hround := roundHalfEven_lt_iff (q / (2 * unit)) (n := 2 ^ 53 - 1) (by norm_num)
      rw [sub_add_cancel, div_lt_iff₀ (by linarith only [hpos])] at hround
      rw [(nearest_of_top hunit hlog).2, hround,
        show (((2 ^ 53 - 1 : ℤ) : ℚ) + 1 / 2) * (2 * unit) = (2 ^ 54 - 1) * unit by
          push_cast; ring]
    · have hnear := le_nearest hqpos (by omega) hlog
      have hself := zpow_le_of_log hqpos hlog
      have hexp := top_le_zpow hbig
      rw [htop] at hexp ⊢
      constructor
      · intro hlt
        linarith only [hlt, hnear, hexp]
      · intro hlt
        linarith only [hlt, hself, hexp, hpos]

theorem isFinite_infinity (s : ℤ) : (infinity s).isFinite = false := by
  unfold infinity
  split_ifs <;> rfl

theorem div?_finite {a b : ℚ} (hb : b ≠ 0) :
    (PyFloat.finite a).div? (.finite b) = some (ofRat (a / b)) := by
  have hne : ¬ b = 0 := hb
  unfold div?
  split
  · rename_i heq
    exact absurd (PyFloat.finite.inj heq) hne
  · rename_i heqa heqb
    rw [PyFloat.finite.inj heqa, PyFloat.finite.inj heqb]
  all_goals simp_all

/-- Dividing by a number does not make a finite one. -/
theorem isFinite_left_of_div? {x y z : PyFloat} (hy : y.isFinite) (h : x.div? y = some z)
    (hz : z.isFinite) : x.isFinite := by
  unfold div? at h
  split at h
  · cases h
  · rfl
  · rw [← Option.some.inj h] at hz
    cases hz
  · cases hy
  · rfl
  · rw [← Option.some.inj h, isFinite_infinity] at hz
    cases hz
  · rw [← Option.some.inj h] at hz
    cases hz

theorem isFinite_left_of_mul {x y : PyFloat} (h : (x.mul y).isFinite) : x.isFinite := by
  cases x with
  | finite q => rfl
  | nan => cases h
  | posInf | negInf =>
    cases y with
    | nan => cases h
    | _ =>
      rw [mul, isFinite_infinity] at h
      · cases h
      all_goals simp

/-- A result is a double exactly below the limit. -/
theorem isFinite_ofRat_iff (q : ℚ) : (ofRat q).isFinite ↔ |q| < overflowLimit := by
  rw [isFinite_ofRat]
  rcases le_total 0 q with h | h
  · rw [abs_of_nonneg (nearest_nonneg h), abs_of_nonneg h, nearest_lt_iff_of_nonneg h]
  · have hneg := nearest_lt_iff_of_nonneg (neg_nonneg.mpr h)
    have hnonneg := nearest_nonneg (neg_nonneg.mpr h)
    rw [nearest_neg] at hneg hnonneg
    rw [abs_of_nonpos (by linarith), abs_of_nonpos h, hneg]

/-- A rounded number scales to a double exactly if both stay below the limit. -/
theorem isFinite_mul_ofRat {x factor : ℚ} (hx : 0 ≤ x) (hfactor : 0 ≤ factor) :
    ((ofRat x).mul (.finite factor)).isFinite ↔
      x < overflowLimit ∧ nearest x * factor < overflowLimit := by
  have hx' := isFinite_ofRat_iff x
  have hscaled := isFinite_ofRat_iff (nearest x * factor)
  rw [abs_of_nonneg hx] at hx'
  rw [abs_of_nonneg (mul_nonneg (nearest_nonneg hx) hfactor)] at hscaled
  by_cases hfinite : (ofRat x).isFinite
  · have heq : ofRat x = .finite (nearest x) := by
      rw [ofRat_eq, if_pos (isFinite_ofRat.mp hfinite)]
    rw [heq, mul, hscaled]
    exact (and_iff_right (hx'.mp hfinite)).symm
  · constructor
    · intro hmul
      exact absurd (isFinite_left_of_mul hmul) hfinite
    · intro hbelow
      exact absurd (hx'.mpr hbelow.1) hfinite

private theorem exists_natCast_eq_pow (k : ℕ) : ∃ n : ℕ, (n : ℚ) = 2 ^ k :=
  ⟨2 ^ k, by push_cast; rfl⟩

/-- A number of the top binade rounds to an integer below the limit, if to a double at all. -/
private theorem nearest_of_large {x : ℚ} (hx : 2 ^ 1023 ≤ x) (hlt : nearest x < 2 ^ 1024) :
    (∃ z : ℤ, nearest x = z) ∧ nearest x < overflowLimit := by
  have hpos : 0 < x := lt_of_lt_of_le (by positivity) hx
  obtain ⟨e, hle, hlog⟩ := exists_log_of_large hx
  rcases hle.eq_or_lt with rfl | hbig
  · obtain ⟨n, hunit⟩ := exists_natCast_eq_pow 970
    have hnonneg : (0 : ℚ) ≤ 2 * n := mul_nonneg two_pos.le n.cast_nonneg
    have hunitpos : (0 : ℚ) < n := hunit ▸ pow_pos two_pos 970
    obtain ⟨hnear, htop⟩ := nearest_of_top hunit hlog
    have hround : roundHalfEven (x / (2 * n)) ≤ 2 ^ 53 - 1 := by
      have hbelow := htop.mp hlt
      omega
    have hround' : (roundHalfEven (x / (2 * n)) : ℚ) ≤ 2 ^ 53 - 1 := by exact_mod_cast hround
    have hscaled := mul_le_mul_of_nonneg_right hround' hnonneg
    rw [hnear]
    constructor
    · exact ⟨roundHalfEven (x / (2 * n)) * (2 * n), by push_cast; rfl⟩
    · rw [overflowLimit, ← hunit]
      linarith only [hscaled, hunitpos]
  · have hnear := le_nearest hpos (by omega) hlog
    exact absurd hlt (not_lt.mpr ((top_le_zpow hbig).trans hnear))

theorem pyRound_intCast (digits : ℕ) (z : ℤ) : pyRound digits z = z := by
  have hscaled : (z : ℚ) * 10 ^ digits = ((z * 10 ^ digits : ℤ) : ℚ) := by push_cast; rfl
  rw [pyRound, hscaled, roundHalfEven_intCast, ← hscaled,
    mul_div_cancel_right₀ _ (pow_ne_zero _ (by norm_num))]

theorem pyRound_neg (digits : ℕ) (x : ℚ) : pyRound digits (-x) = -pyRound digits x := by
  rw [pyRound, neg_mul, roundHalfEven_neg, pyRound]
  push_cast
  rw [neg_div]

theorem abs_pyRound_sub_le (digits : ℕ) (x : ℚ) : |pyRound digits x - x| ≤ 1 / 2 := by
  have hpow : (1 : ℚ) ≤ 10 ^ digits := one_le_pow₀ (by norm_num)
  have hpos : (0 : ℚ) < 10 ^ digits := by linarith
  have hsplit : pyRound digits x - x =
      (roundHalfEven (x * 10 ^ digits) - x * 10 ^ digits) / 10 ^ digits := by
    rw [pyRound, sub_div, mul_div_cancel_right₀ _ hpos.ne']
  rw [hsplit, abs_div, abs_of_pos hpos, div_le_iff₀ hpos]
  have hnear := abs_roundHalfEven_sub_le (x * 10 ^ digits)
  linarith

/-- Rounding to digits keeps a double below the limit: a large one has no fraction. -/
private theorem abs_pyRound_nearest {x : ℚ} (hx : 0 ≤ x) (hlt : nearest x < 2 ^ 1024)
    (digits : ℕ) : |pyRound digits (nearest x)| < overflowLimit := by
  rcases lt_or_ge x (2 ^ 1023) with hsmall | hlarge
  · obtain ⟨unit, hunit⟩ : ∃ unit : ℚ, unit = 2 ^ 970 := ⟨_, rfl⟩
    have hone : 1 ≤ unit := by
      rw [hunit]
      exact one_le_pow₀ (by norm_num)
    have hhalf : (2 : ℚ) ^ 1023 = 2 ^ 53 * unit := by rw [hunit, ← pow_add]
    have hnear := nearest_lt_add_ulp x
    have hulp := ulp_le_of_small hx hsmall
    have hround := abs_le.mp (abs_pyRound_sub_le digits (nearest x))
    have hnonneg := nearest_nonneg hx
    rw [← hunit] at hulp
    rw [hhalf] at hsmall
    rw [overflowLimit, ← hunit, abs_lt]
    constructor
    · linarith only [hround.1, hnonneg, hone]
    · linarith only [hround.2, hnear, hulp, hsmall, hone]
  · obtain ⟨hint, hbelow⟩ := nearest_of_large hlarge hlt
    have hnonneg := nearest_nonneg hx
    obtain ⟨z, hz⟩ := hint
    rw [hz] at hbelow hnonneg ⊢
    rwa [pyRound_intCast, abs_of_nonneg hnonneg]

/-- Rounding to digits overflows nowhere. -/
theorem isFinite_round_ofRat (digits : ℕ) (x : ℚ) :
    ((ofRat x).round digits).isFinite = (ofRat x).isFinite := by
  cases hfinite : (ofRat x).isFinite with
  | false =>
    cases hx : ofRat x with
    | finite q => rw [hx] at hfinite; cases hfinite
    | _ => rfl
  | true =>
    have hlt := isFinite_ofRat.mp hfinite
    rw [ofRat_eq, if_pos hlt, round, isFinite_ofRat_iff]
    rcases le_total 0 x with hx | hx
    · rw [abs_of_nonneg (nearest_nonneg hx)] at hlt
      exact abs_pyRound_nearest hx hlt digits
    · have hx' := neg_nonneg.mpr hx
      rw [← abs_neg, ← nearest_neg, abs_of_nonneg (nearest_nonneg hx')] at hlt
      have hround := abs_pyRound_nearest hx' hlt digits
      rwa [nearest_neg, pyRound_neg, abs_neg] at hround

end PyFloat

end PiWatch
