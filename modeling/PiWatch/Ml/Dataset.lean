import PiWatch.Backend.Floats
import PiWatch.Framework.Gaps
import PiWatch.Framework.Windows

/-!
# The dataset

The columns the autoencoder is trained on, and how they are prepared for it. Values are exact
numbers; one that was not recorded is missing.
-/

namespace PiWatch.Ml

inductive Feature
  | cpuPct
  | memPct
  | tempC
  | netRxBytesPerS
  | netTxBytesPerS
  deriving DecidableEq

/-- `FEATURE_COLUMNS`. -/
def featureColumns : List Feature := [.cpuPct, .memPct, .tempC, .netRxBytesPerS, .netTxBytesPerS]

theorem mem_featureColumns (f : Feature) : f ∈ featureColumns := by
  cases f <;> decide

/-- The feature columns of a row. -/
abbrev Row := Feature → Option ℚ

/-- Columns that do not vary are divided by one. -/
structure Scaler where
  mean : Feature → ℚ
  std : Feature → ℚ
  std_ne_zero : ∀ f, std f ≠ 0

/-- The numbers stay as they are. -/
def Scaler.unit : Scaler := ⟨fun _ => 0, fun _ => 1, fun _ => one_ne_zero⟩

def Scaler.transform (scaler : Scaler) (r : Row) : Row :=
  fun f => (r f).map fun x => (x - scaler.mean f) / scaler.std f

@[simp] theorem Scaler.transform_unit (r : Row) : Scaler.unit.transform r = r := by
  funext f
  cases hr : r f with
  | none => simp only [Scaler.transform, hr, Option.map_none]
  | some x => simp only [Scaler.transform, Scaler.unit, hr, Option.map_some, sub_zero, div_one]

/-- `fill_gaps`. -/
def fillGaps (g : List Row) : List Row := bfill (ffill (fun _ => none) g)

@[simp] theorem length_fillGaps (g : List Row) : (fillGaps g).length = g.length := by
  rw [fillGaps, length_bfill, length_ffill]

/-- `build_windows`. -/
def buildWindows {α : Type*} (values : List α) (windowSize stride : ℕ) : List (List α) :=
  let nRows := values.length
  if nRows < windowSize then []
  else
    let starts := stepsBelow (nRows - windowSize + 1) stride
    starts.map fun s => slice values s (s + windowSize)

/-- A `val_fraction`. -/
structure Fraction where
  value : ℚ
  pos : 0 < value
  lt_one : value < 1

/-- `int(len(df) * (1 - val_fraction))`, a finite number for any table that fits in memory. -/
def splitAt (n : ℕ) (valFraction : Fraction) : ℕ :=
  match ((PyFloat.ofRat n).mul ((PyFloat.finite 1).sub (.finite valFraction.value))).toInt with
  | .ok k => k.toNat
  | .error _ => 0

/-- `time_based_split`. -/
def timeBasedSplit {α : Type*} (df : List α) (valFraction : Fraction) : List α × List α :=
  (df.take (splitAt df.length valFraction), df.drop (splitAt df.length valFraction))

end PiWatch.Ml
