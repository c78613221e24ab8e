import PiWatch.NodeAgent.ReaderOutcomes

/-!
# When a rate can be computed

The counters may be any values of a JSON document, those of the previous call included.
-/

namespace PiWatch

/-- If a quotient by something positive is finite, so is the dividend. -/
theorem PyFloat.isFinite_left_of_div?_of_pos {x y z : PyFloat} (hy : (PyFloat.finite 0).lt y)
    (h : x.div? y = some z) (hz : z.isFinite) : x.isFinite := by
  cases y with
  | finite b => exact isFinite_left_of_div? rfl h hz
  | nan | negInf => cases hy
  | posInf =>
    cases x with
    | finite a => rfl
    | _ =>
      obtain rfl := Option.some.inj h
      cases hz

namespace NodeAgent

/-- `round` to an integer wants a finite number. -/
theorem returns_roundToInt_iff (x : PyFloat) : Returns (roundToInt x) ↔ x.isFinite := by
  cases x <;> simp [roundToInt, PyFloat.isFinite]

namespace PyNumber

/-- The operand as a float, an infinity if it is too large for one. -/
def asFloat : PyNumber → PyFloat
  | int z => .ofRat z
  | float x => x

/-- The operand can be converted to a float. -/
def Fits : PyNumber → Prop
  | int z => |(z : ℚ)| < PyFloat.overflowLimit
  | float _ => True

theorem toFloat_eq_ok_iff {a : PyNumber} {x : PyFloat} :
    a.toFloat = .ok x ↔ a.Fits ∧ a.asFloat = x := by
  cases a with
  | int z =>
    rw [toFloat, Fits, asFloat, ← PyFloat.isFinite_ofRat_iff]
    cases (PyFloat.ofRat z).isFinite <;> simp
  | float x => simp [toFloat, Fits, asFloat]

/-- The difference exists: of integers always, with a float if both can be floats. -/
def Subtractable : PyNumber → PyNumber → Prop
  | int _, int _ => True
  | a, b => a.Fits ∧ b.Fits

def difference : PyNumber → PyNumber → PyNumber
  | int a, int b => int (a - b)
  | a, b => float (a.asFloat.sub b.asFloat)

theorem sub_eq_ok_iff {a b c : PyNumber} :
    a.sub b = .ok c ↔ a.Subtractable b ∧ a.difference b = c := by
  cases a <;> cases b <;>
    simp [sub, Subtractable, difference, bind_eq_ok_iff, toFloat_eq_ok_iff, pure, Except.pure,
      and_assoc]

/-- A count of units, in bytes. -/
def times (unit : ℤ) : PyNumber → PyNumber
  | int z => int (z * unit)
  | float x => float (x.mul (.ofRat unit))

theorem mulInt_eq {unit : ℤ} (hunit : |(unit : ℚ)| < PyFloat.overflowLimit) (a : PyNumber) :
    a.mulInt unit = .ok (a.times unit) := by
  cases a with
  | int z => rfl
  | float x =>
    have hfloat : (int unit).toFloat = .ok (PyFloat.ofRat unit) :=
      toFloat_eq_ok_iff.mpr ⟨hunit, rfl⟩
    rw [mulInt, hfloat]
    rfl

theorem divFloat_eq_ok_iff {a : PyNumber} {x rate : PyFloat} :
    a.divFloat x = .ok rate ↔ a.Fits ∧ a.asFloat.div? x = some rate := by
  simp only [divFloat, bind_eq_ok_iff, toFloat_eq_ok_iff]
  constructor
  · rintro ⟨_, ⟨hfits, rfl⟩, hdiv⟩
    refine ⟨hfits, ?_⟩
    cases h : a.asFloat.div? x <;> simp_all
  · rintro ⟨hfits, hdiv⟩
    exact ⟨_, ⟨hfits, rfl⟩, by rw [hdiv]⟩

theorem fits_of_isFinite {a : PyNumber} (h : a.asFloat.isFinite) : a.Fits := by
  cases a with
  | int z => exact (PyFloat.isFinite_ofRat_iff z).mp h
  | float x => trivial

/-- The rate of a count exists exactly if the quotient is finite. -/
theorem returns_divFloat_iff {elapsed : PyFloat} (helapsed : (PyFloat.finite 0).lt elapsed)
    (a : PyNumber) :
    (∃ rate, a.divFloat elapsed = .ok rate ∧ Returns (roundToInt rate)) ↔
      ∃ rate, a.asFloat.div? elapsed = some rate ∧ rate.isFinite := by
  simp only [divFloat_eq_ok_iff, returns_roundToInt_iff]
  constructor
  · rintro ⟨rate, ⟨-, hrate⟩, hfinite⟩
    exact ⟨rate, hrate, hfinite⟩
  · rintro ⟨rate, hrate, hfinite⟩
    have hcount := PyFloat.isFinite_left_of_div?_of_pos helapsed hrate hfinite
    exact ⟨rate, ⟨fits_of_isFinite hcount, hrate⟩, hfinite⟩

end PyNumber

/-- Both counters are numbers, their difference exists, and what was counted over the elapsed time
is a finite number of bytes. -/
def Countable (unit : ℤ) (elapsed : PyFloat) (count prev : PyValue) : Prop :=
  ∃ a b, PyNumber.ofValue count = .ok a ∧ PyNumber.ofValue prev = .ok b ∧ a.Subtractable b ∧
    ∃ rate, ((a.difference b).maxZero.times unit).asFloat.div? elapsed = some rate ∧
      rate.isFinite

theorem returns_rateOf_iff {unit : ℤ} (hunit : |(unit : ℚ)| < PyFloat.overflowLimit)
    {elapsed : PyFloat} (helapsed : (PyFloat.finite 0).lt elapsed) (count prev : PyValue) :
    Returns (rateOf unit elapsed count prev) ↔ Countable unit elapsed count prev := by
  unfold rateOf Countable
  simp only [returns_bind_iff, PyNumber.sub_eq_ok_iff, PyNumber.mulInt_eq hunit, Except.ok.injEq,
    exists_eq_left', PyNumber.returns_divFloat_iff helapsed]
  constructor
  · rintro ⟨a, ha, b, hb, _, ⟨hsub, rfl⟩, hrate⟩
    exact ⟨a, b, ha, hb, hsub, hrate⟩
  · rintro ⟨a, b, ha, hb, hsub, hrate⟩
    exact ⟨a, ha, b, hb, _, ⟨hsub, rfl⟩, hrate⟩

/-- Both rates can be computed, if there is a new sample, a previous one and time between them. -/
def RatesComputable (unit : ℤ) (prev sample : Option RateSample) : Prop :=
  ∀ p ∈ prev, ∀ new ∈ sample, (PyFloat.finite 0).lt (.ofRat (new.t - p.t)) →
    Countable unit (.ofRat (new.t - p.t)) new.input p.input ∧
      Countable unit (.ofRat (new.t - p.t)) new.output p.output

/-- The rates of a new sample, if there is one. -/
def ratesAfter (unit : ℤ) (inputKey outputKey : String) (prev sample : Option RateSample) :
    Except ReadError (Dict String PyValue) :=
  match sample with
  | none => .ok ∅
  | some new => sampleRates unit inputKey outputKey prev new

theorem returns_ratesAfter_iff {unit : ℤ} (hunit : |(unit : ℚ)| < PyFloat.overflowLimit)
    (inputKey outputKey : String) (prev sample : Option RateSample) :
    Returns (ratesAfter unit inputKey outputKey prev sample) ↔
      RatesComputable unit prev sample := by
  unfold ratesAfter RatesComputable
  cases sample with
  | none => simp
  | some new =>
    cases prev with
    | none => simp [sampleRates]
    | some p =>
      simp only [sampleRates, Option.mem_def, Option.some.injEq, forall_eq']
      split_ifs with helapsed
      · simp only [← returns_rateOf_iff hunit helapsed, helapsed, true_imp_iff, returns_bind_iff]
        simp [Returns, pure, Except.pure]
      · simp [helapsed]

end NodeAgent

end PiWatch
