import PiWatch.Backend.Rounding
import PiWatch.Ml.Evaluate
import PiWatch.Ml.Flag
import PiWatch.Ml.Injection
import PiWatch.Ml.Split

/-!
# Rolling evaluation

The rows kept from training are evaluated in one piece, or in several folds with fewer anomalies
in each. What is random or learnt is a parameter: the generator, the scores of the baselines and
the error of the model.
-/

namespace PiWatch.Ml

/-- Everything an evaluation uses that is not computed here, but for the trained model. The
generator gives the choices for a seed, a number of rows and the injections asked for. -/
structure Toolbox where
  dev : Deviation
  rng : ℕ → ℕ → List Injection → Feature → List (List Pick)
  zscore : List PyFloat → List ℚ
  ewma : List PyFloat → List ℚ
  isolationForest : ℕ → List (Feature → PyFloat) → List ℚ

/-- What `load_checkpoint` reads from the directory of a node, as far as it is used here. -/
structure Checkpoint where
  error : List Row → ℚ
  scaler : Scaler
  windowSize : ℕ+
  valFraction : Fraction

/-- A dictionary of results of `compare_all`. -/
structure MethodResult where
  node : String
  method : String
  result : EvalResult

/-- A dictionary of results of `rolling_compare`. -/
structure FoldResult extends MethodResult where
  fold : ℕ

def MethodResult.inFold (r : MethodResult) (fold : ℕ) : FoldResult := ⟨r, fold⟩

def FoldResult.key (r : FoldResult) : String × ℕ × String := (r.node, r.fold, r.method)

/-- A cell as a float; one that was never recorded is not a number. -/
def cellFloat : Option ℚ → PyFloat
  | some q => .finite q
  | none => .nan

/-- A float as a cell. An infinity, which only a shift that overflows gives, reads as missing. -/
def floatCell : PyFloat → Option ℚ
  | .finite q => some q
  | _ => none

section Evaluation

variable (tools : Toolbox) (checkpoint : Checkpoint) (checkpointsDir : String → Option Checkpoint)
  (node : String)

/-- The feature columns of a table. -/
def columns (rows : List Sample) : Feature → Series rows.length :=
  fun f i => cellFloat ((rows.get i).values f)

/-- `df["t"].max() - df["t"].min()`. -/
def spanSeconds (rows : List Sample) : ℚ :=
  match times rows with
  | [] => 0
  | t :: ts => ts.foldl max t - ts.foldl min t

/-- `zscore.flag` and `ewma.flag`. -/
def flagAbove (scores : List ℚ) : List Bool := scores.map fun score => decide (3 ≤ score)

/-- The candidates on perturbed rows; a quantile of no scores raises. -/
def candidates {n : ℕ} (perturbed : Feature → Series n) (seed : ℕ) :
    List (String × Option (List Bool)) :=
  let rows := (List.finRange n).map fun i f => perturbed f i
  let cpuPct := List.ofFn (perturbed .cpuPct)
  let scores := scoreSeries (rows.map fun r f => floatCell (r f)) checkpoint.error
    checkpoint.scaler checkpoint.windowSize
  [("zscore", some (flagAbove (tools.zscore cpuPct))),
    ("ewma", some (flagAbove (tools.ewma cpuPct))),
    ("isolation_forest", flag (tools.isolationForest seed rows) none contamination),
    ("autoencoder", flag scores none contamination)]

/-- The flags on perturbed rows against their labels. Without a value it raises. -/
def evaluateRows (rows : List Sample)
    (injected : (Feature → Series rows.length) × (Fin rows.length → Bool)) (seed : ℕ) :
    Option (List MethodResult) :=
  let actual := List.ofFn injected.2
  (candidates tools checkpoint injected.1 seed).mapM fun (name, predicted) =>
    predicted.bind fun predicted =>
      ((evaluate predicted actual (spanSeconds rows)).toOption).map (⟨node, name, ·⟩)

/-- `evaluate_node` of `compare_all`. -/
def compareEvaluateNode (g : List Sample) (seed : ℕ) : Option (List MethodResult) :=
  match checkpointsDir node with
  | none => some []
  | some checkpoint =>
    let rows := valDf g checkpoint.valFraction
    let picks := tools.rng seed rows.length compareInjections
    evaluateRows tools checkpoint node rows
      (compareInjectAllColumns tools.dev (columns rows) picks) seed

/-! ## Folds -/

/-- A place of `np.linspace(0, n, k_folds + 1, dtype=int)`. -/
def foldBound (n kFolds i : ℕ) : ℕ :=
  if i = kFolds then n else ⌊PyFloat.nearest (i * PyFloat.nearest (n / kFolds))⌋.toNat

def fold (rows : List Sample) (kFolds i : ℕ) : List Sample :=
  slice rows (foldBound rows.length kFolds i) (foldBound rows.length kFolds (i + 1))

/-- `max(1, round(count * scale))`. -/
def scaledCount (count : ℕ) (scale : ℚ) : ℕ+ :=
  ⟨max 1 (roundHalfEven (PyFloat.nearest (count * scale))).toNat, by omega⟩

/-- `scaled_injections`. -/
def scaledInjections (foldLen referenceLen : ℕ) : List Injection :=
  let scale := PyFloat.nearest (foldLen / referenceLen)
  [.point (scaledCount 8 scale) ⟨4, by decide +kernel⟩,
    .contextual (scaledCount 5 scale) (Nat.toPNat' 12) ⟨5 / 2, by decide +kernel⟩,
    .drift (scaledCount 3 scale) (Nat.toPNat' 60) ⟨3, by decide +kernel⟩]

/-- `evaluate_fold`. -/
def evaluateFold (foldDf : List Sample) (foldIdx : ℕ) (injections : List Injection) (seed : ℕ) :
    Option (List FoldResult) :=
  let picks := tools.rng seed foldDf.length injections
  (evaluateRows tools checkpoint node foldDf
    (injectAllColumns tools.dev (columns foldDf) injections picks) seed).map fun results =>
      results.map fun r => r.inFold foldIdx

/-- A round of the loop over the folds: one that is too short is skipped. -/
def foldRound (rows : List Sample) (kFolds seed i : ℕ) : Option (List FoldResult) :=
  let foldDf := fold rows kFolds i
  if foldDf.length < checkpoint.windowSize * 2 then some []
  else
    evaluateFold tools checkpoint node foldDf i (scaledInjections foldDf.length rows.length)
      (seed + i)

/-- `evaluate_node` of `rolling_compare`. -/
def rollingEvaluateNode (g : List Sample) (kFolds seed : ℕ) : Option (List FoldResult) :=
  match checkpointsDir node with
  | none => some []
  | some checkpoint =>
    let rows := valDf g checkpoint.valFraction
    ((List.range kFolds).mapM (foldRound tools checkpoint node rows kFolds seed)).map List.flatten

end Evaluation

/-! ## The folds make up the rows -/

theorem foldBound_zero {kFolds : ℕ} (n : ℕ) (hk : 0 < kFolds) : foldBound n kFolds 0 = 0 := by
  rw [foldBound, if_neg (by omega), Nat.cast_zero, zero_mul]
  simp [PyFloat.nearest, roundHalfEven]

theorem foldBound_last (n kFolds : ℕ) : foldBound n kFolds kFolds = n := if_pos rfl

theorem foldBound_mono {n kFolds i : ℕ} (hi : i + 1 < kFolds) :
    foldBound n kFolds i ≤ foldBound n kFolds (i + 1) := by
  rw [foldBound, foldBound, if_neg (by omega), if_neg (by omega)]
  have hstep : 0 ≤ PyFloat.nearest ((n : ℚ) / kFolds) :=
    PyFloat.nearest_nonneg (div_nonneg n.cast_nonneg kFolds.cast_nonneg)
  have hplace : (i : ℚ) * PyFloat.nearest ((n : ℚ) / kFolds) ≤
      (i + 1 : ℕ) * PyFloat.nearest ((n : ℚ) / kFolds) := by
    push_cast
    linarith
  exact Int.toNat_le_toNat (Int.floor_le_floor (PyFloat.nearest_mono hplace))

/-- Rounding does not matter: every row is in one fold, and the order stays. -/
theorem flatten_folds (rows : List Sample) {kFolds : ℕ} (hk : 0 < kFolds) :
    ((List.range kFolds).map (fold rows kFolds)).flatten = rows := by
  obtain ⟨k, rfl⟩ := Nat.exists_eq_add_of_lt hk
  rw [Nat.zero_add, List.range_succ, List.map_append, List.flatten_append, List.map_singleton,
    List.flatten_singleton]
  have hfront := flatten_slices rows (foldBound_zero rows.length hk) (k := k)
    fun i hi => foldBound_mono (by omega)
  rw [Nat.zero_add] at hfront
  unfold fold
  rw [hfront, foldBound_last, slice, List.take_length, List.take_append_drop]

/-! ## What the folds answer -/

/-- The methods that are compared. -/
def methods : List String := ["zscore", "ewma", "isolation_forest", "autoencoder"]

theorem map_of_mapM {α β γ : Type*} {f : α → Option β} (key : α → γ) (key' : β → γ)
    (hkey : ∀ a b, f a = some b → key' b = key a) {as : List α} {bs : List β}
    (h : as.mapM f = some bs) : bs.map key' = as.map key := by
  induction as generalizing bs with
  | nil =>
    obtain rfl := Option.some.inj h
    rfl
  | cons a as ih =>
    rw [List.mapM_cons] at h
    obtain ⟨b, hb, hrest⟩ := Option.bind_eq_some_iff.mp h
    obtain ⟨bs', hbs, heq⟩ := Option.bind_eq_some_iff.mp hrest
    obtain rfl := Option.some.inj heq
    rw [List.map_cons, List.map_cons, hkey a b hb, ih hbs]

variable {tools : Toolbox} {checkpoint : Checkpoint} {checkpointsDir : String → Option Checkpoint}
  {node : String}

theorem evaluateRows_keys {rows : List Sample}
    {injected : (Feature → Series rows.length) × (Fin rows.length → Bool)} {seed : ℕ}
    {results : List MethodResult}
    (h : evaluateRows tools checkpoint node rows injected seed = some results) :
    results.map (fun r => (r.node, r.method)) = methods.map fun name => (node, name) := by
  have hnames : (candidates tools checkpoint injected.1 seed).map (fun c => (node, c.1)) =
      methods.map fun name => (node, name) := rfl
  rw [← hnames]
  refine map_of_mapM (fun c => (node, c.1)) (fun r => (r.node, r.method)) ?_ h
  rintro ⟨name, predicted⟩ result hresult
  obtain ⟨flags, -, hflags⟩ := Option.bind_eq_some_iff.mp hresult
  obtain ⟨r, -, rfl⟩ := Option.map_eq_some_iff.mp hflags
  rfl

/-- The results of a fold, one for each method. -/
def foldKeys (node : String) (i : ℕ) : List (String × ℕ × String) :=
  methods.map fun name => (node, i, name)

/-- A fold gives one result for each method, or none at all if it is too short. -/
theorem foldRound_keys {rows : List Sample} {kFolds seed i : ℕ} {results : List FoldResult}
    (h : foldRound tools checkpoint node rows kFolds seed i = some results) :
    results.map FoldResult.key =
      if (fold rows kFolds i).length < checkpoint.windowSize * 2 then [] else foldKeys node i := by
  unfold foldRound at h
  dsimp only at h
  split_ifs at h ⊢ with hshort
  · obtain rfl := Option.some.inj h
    rfl
  · obtain ⟨evaluated, hevaluated, rfl⟩ := Option.map_eq_some_iff.mp h
    have hkeys := congrArg (List.map fun key => (key.1, i, key.2)) (evaluateRows_keys hevaluated)
    rw [List.map_map, List.map_map] at hkeys
    rw [List.map_map]
    exact hkeys

/-- The folds that are evaluated. -/
def evaluatedFolds (checkpoint : Checkpoint) (rows : List Sample) (kFolds : ℕ) : List ℕ :=
  (List.range kFolds).filter fun i => checkpoint.windowSize * 2 ≤ (fold rows kFolds i).length

theorem flatten_rounds_keys {rows : List Sample} {kFolds seed : ℕ}
    {rounds : List (List FoldResult)}
    (h : (List.range kFolds).mapM (foldRound tools checkpoint node rows kFolds seed) =
      some rounds) :
    rounds.flatten.map FoldResult.key =
      (evaluatedFolds checkpoint rows kFolds).flatMap (foldKeys node) := by
  have hkeys := map_of_mapM
    (fun i => if (fold rows kFolds i).length < checkpoint.windowSize * 2 then []
      else foldKeys node i)
    (List.map FoldResult.key) (fun _ _ => foldRound_keys) h
  rw [List.map_flatten, hkeys, evaluatedFolds, ← List.flatMap_def]
  induction List.range kFolds with
  | nil => rfl
  | cons i is ih =>
    rw [List.flatMap_cons, ih, List.filter_cons]
    by_cases hshort : (fold rows kFolds i).length < checkpoint.windowSize * 2
    · rw [if_pos hshort, if_neg (by simpa using hshort), List.nil_append]
    · rw [if_neg hshort, if_pos (by simpa using hshort), List.flatMap_cons]

/-- The results that a node is to have: every fold of at least two windows with every method, no
other. A node without a checkpoint has none. -/
def expectedKeys (checkpointsDir : String → Option Checkpoint) (node : String) (g : List Sample)
    (kFolds : ℕ) : List (String × ℕ × String) :=
  (checkpointsDir node).elim [] fun checkpoint =>
    (evaluatedFolds checkpoint (valDf g checkpoint.valFraction) kFolds).flatMap (foldKeys node)

/-- A rolling evaluation covers the rows kept from training: the folds are these rows, cut up in
order, and whenever it returns, the results are the ones the node is to have. -/
theorem rolling_covers (tools : Toolbox) (checkpointsDir : String → Option Checkpoint)
    (node : String) (g : List Sample) {kFolds : ℕ} (hk : 0 < kFolds) (seed : ℕ) :
    (∀ checkpoint ∈ checkpointsDir node,
        ((List.range kFolds).map (fold (valDf g checkpoint.valFraction) kFolds)).flatten =
          valDf g checkpoint.valFraction) ∧
      ∀ results, rollingEvaluateNode tools checkpointsDir node g kFolds seed = some results →
        results.map FoldResult.key = expectedKeys checkpointsDir node g kFolds := by
  refine ⟨fun checkpoint _ => flatten_folds _ hk, fun results h => ?_⟩
  unfold rollingEvaluateNode at h
  rw [expectedKeys]
  cases hdir : checkpointsDir node with
  | none =>
    rw [hdir] at h
    obtain rfl := Option.some.inj h
    rfl
  | some checkpoint =>
    rw [hdir] at h
    obtain ⟨rounds, hrounds, rfl⟩ := Option.map_eq_some_iff.mp h
    exact flatten_rounds_keys hrounds

/-- Methods that see nothing, and a generator that perturbs nothing. -/
private def quiet : Toolbox where
  dev := ⟨fun _ => .finite 0⟩
  rng := fun _ _ injections _ => injections.map fun _ => []
  zscore := fun series => series.map fun _ => 0
  ewma := fun series => series.map fun _ => 0
  isolationForest := fun _ rows => rows.map fun _ => 0

/-- One node is trained, with windows of one row and a quarter of the rows. -/
private def oneTrained (node : String) : Option Checkpoint :=
  if node = "pinode01" then
    some ⟨fun _ => 0, Scaler.unit, Nat.toPNat' 1, ⟨3 / 4, by decide +kernel, by decide +kernel⟩⟩
  else none

/-- Eight samples, of which the last six are kept from training. -/
private def eightSamples (node : String) : List Sample :=
  (List.range 8).map fun i => ⟨node, 10 * i, fun _ => some 20, some 0, some 0⟩

/-- One of the nodes has no checkpoint. -/
theorem rolling_covers_halves :
    (∃ results, rollingEvaluateNode quiet oneTrained "pinode01" (eightSamples "pinode01") 2 42 =
        some results ∧
      results.map FoldResult.key = foldKeys "pinode01" 0 ++ foldKeys "pinode01" 1) ∧
      ∀ results, rollingEvaluateNode quiet oneTrained "pinode02" (eightSamples "pinode02") 2 42 =
        some results → results.map FoldResult.key = [] := by
  have hkeys (node : String) :=
    (rolling_covers quiet oneTrained node (eightSamples node) Nat.two_pos 42).2
  constructor
  · have hsome : (rollingEvaluateNode quiet oneTrained "pinode01" (eightSamples "pinode01") 2
        42).isSome := by decide +kernel
    obtain ⟨results, hresults⟩ := Option.isSome_iff_exists.mp hsome
    refine ⟨results, hresults, (hkeys "pinode01" results hresults).trans ?_⟩
    decide +kernel
  · intro results hresults
    exact hkeys "pinode02" results hresults

/-! ## One fold -/

theorem nearest_one : PyFloat.nearest 1 = 1 := by
  exact_mod_cast PyFloat.nearest_natCast (n := 1) (by norm_num)

theorem scaledCount_one {count : ℕ} (h : count < 2 ^ 53) :
    (scaledCount count 1 : ℕ) = max 1 count := by
  rw [scaledCount, PNat.mk_coe, mul_one, PyFloat.nearest_natCast h]
  have hround := roundHalfEven_intCast count
  rw [Int.cast_natCast] at hround
  rw [hround, Int.toNat_natCast]

theorem scaledInjections_self {n : ℕ} (hn : 0 < n) : scaledInjections n n = compareInjections := by
  have hscale : PyFloat.nearest ((n : ℚ) / n) = 1 := by
    rw [div_self (by exact_mod_cast hn.ne'), nearest_one]
  have height : scaledCount 8 1 = 8 := PNat.eq (scaledCount_one (by norm_num))
  have hfive : scaledCount 5 1 = 5 := PNat.eq (scaledCount_one (by norm_num))
  have hthree : scaledCount 3 1 = 3 := PNat.eq (scaledCount_one (by norm_num))
  rw [scaledInjections, hscale, height, hfive, hthree]
  rfl

theorem fold_one (rows : List Sample) : fold rows 1 0 = rows := by
  have hflat := flatten_folds rows Nat.one_pos
  simpa using hflat

theorem scaledCount_mono (count : ℕ) {scale scale' : ℚ} (h : scale ≤ scale') :
    (scaledCount count scale : ℕ) ≤ scaledCount count scale' := by
  have hscaled : (count : ℚ) * scale ≤ count * scale' :=
    mul_le_mul_of_nonneg_left h count.cast_nonneg
  have hround := roundHalfEven_mono (PyFloat.nearest_mono hscaled)
  rw [scaledCount, scaledCount, PNat.mk_coe, PNat.mk_coe]
  omega

/-- A longer fold has no fewer anomalies of any kind. -/
theorem scaledInjections_mono {m m' n : ℕ} (h : m ≤ m') :
    List.Forall₂ (fun a b => Injection.count a ≤ Injection.count b) (scaledInjections m n)
      (scaledInjections m' n) := by
  have hscale : PyFloat.nearest ((m : ℚ) / n) ≤ PyFloat.nearest ((m' : ℚ) / n) :=
    PyFloat.nearest_mono (div_le_div_of_nonneg_right (by exact_mod_cast h) n.cast_nonneg)
  exact .cons (scaledCount_mono 8 hscale) (.cons (scaledCount_mono 5 hscale)
    (.cons (scaledCount_mono 3 hscale) .nil))

/-- With one fold the rolling evaluation is `compare_all`, and with more of them no fold has more
anomalies of a kind than that. -/
theorem rolling_one_fold (tools : Toolbox) (checkpointsDir : String → Option Checkpoint)
    (node : String) (g : List Sample) (seed : ℕ)
    (hlong : ∀ checkpoint ∈ checkpointsDir node,
      checkpoint.windowSize * 2 ≤ (valDf g checkpoint.valFraction).length) :
    rollingEvaluateNode tools checkpointsDir node g 1 seed =
        (compareEvaluateNode tools checkpointsDir node g seed).map
          (fun results => results.map fun r => r.inFold 0) ∧
      ∀ checkpoint ∈ checkpointsDir node, ∀ kFolds i,
        List.Forall₂ (fun a b => Injection.count a ≤ Injection.count b)
          (scaledInjections (fold (valDf g checkpoint.valFraction) kFolds i).length
            (valDf g checkpoint.valFraction).length) compareInjections := by
  have hpos : ∀ checkpoint ∈ checkpointsDir node, 0 < (valDf g checkpoint.valFraction).length :=
    fun checkpoint h =>
      lt_of_lt_of_le (Nat.mul_pos checkpoint.windowSize.pos Nat.two_pos) (hlong checkpoint h)
  constructor
  · unfold rollingEvaluateNode compareEvaluateNode
    cases hdir : checkpointsDir node with
    | none => rfl
    | some checkpoint =>
      have hrows := hpos checkpoint hdir
      have hround : foldRound tools checkpoint node (valDf g checkpoint.valFraction) 1 seed 0 =
          (evaluateRows tools checkpoint node (valDf g checkpoint.valFraction)
            (compareInjectAllColumns tools.dev (columns (valDf g checkpoint.valFraction))
              (tools.rng seed (valDf g checkpoint.valFraction).length compareInjections))
            seed).map fun results => results.map fun r => r.inFold 0 := by
        unfold foldRound
        dsimp only
        rw [fold_one, if_neg (not_lt.mpr (hlong checkpoint hdir)), scaledInjections_self hrows,
          Nat.add_zero]
        rfl
      dsimp only
      rw [List.range_one, List.mapM_cons, hround, List.mapM_nil]
      cases evaluateRows tools checkpoint node (valDf g checkpoint.valFraction) _ seed with
      | none => rfl
      | some results => simp
  · intro checkpoint hdir kFolds i
    have hle : (fold (valDf g checkpoint.valFraction) kFolds i).length ≤
        (valDf g checkpoint.valFraction).length := by
      rw [fold, slice, List.length_drop, List.length_take]
      omega
    rw [← scaledInjections_self (hpos checkpoint hdir)]
    exact scaledInjections_mono hle

theorem rolling_one_fold_half :
    rollingEvaluateNode quiet oneTrained "pinode01" (eightSamples "pinode01") 1 42 =
      (compareEvaluateNode quiet oneTrained "pinode01" (eightSamples "pinode01") 42).map
        (fun results => results.map fun r => r.inFold 0) :=
  (rolling_one_fold quiet oneTrained "pinode01" (eightSamples "pinode01") 42
    (by decide +kernel)).1

end PiWatch.Ml
