import Mathlib.Algebra.Ring.Int.Units
import Mathlib.Data.PNat.Basic
import PiWatch.Ml.Dataset

/-!
# Injected anomalies

Anomalies are added to the columns of a table without gaps, and the rows they cover are labelled.
The values are floats and the additions round. The random choices are part of the input: any
outcome the generator can give.
-/

namespace PiWatch.Ml

variable {n : ℕ}

/-- A feature column of `n` rows. -/
abbrev Series (n : ℕ) := Fin n → PyFloat

inductive Kind
  | point
  | contextual
  | drift
  deriving DecidableEq

/-- The end is exclusive. -/
structure InjectedAnomaly where
  startIdx : ℕ
  endIdx : ℕ
  kind : Kind
  column : Feature
  magnitude : ℚ

def InjectedAnomaly.Covers (e : InjectedAnomaly) (i : ℕ) : Prop := e.startIdx ≤ i ∧ i < e.endIdx

instance (e : InjectedAnomaly) (i : ℕ) : Decidable (e.Covers i) :=
  inferInstanceAs (Decidable (_ ∧ _))

/-- `series.std()`, whatever it rounds to. -/
structure Deviation where
  std : {n : ℕ} → Series n → PyFloat

/-- `series.std() or 1.0`. -/
def Deviation.stdOrOne (dev : Deviation) (s : Series n) : PyFloat :=
  if (dev.std s).truthy then dev.std s else .finite 1

/-- What is chosen for one event: where it starts and its sign. -/
structure Pick where
  start : ℕ
  sign : ℤˣ

/-- `rng.choice(max_start, size=size, replace=False)`, with a sign for each. -/
structure IsChoice (picks : List Pick) (maxStart size : ℕ) : Prop where
  nodup : (picks.map Pick.start).Nodup
  lt : ∀ p ∈ picks, p.start < maxStart
  length : picks.length = size

/-- `sign * magnitude * std`. -/
def Pick.shift (p : Pick) (magnitude : ℚ) (std : PyFloat) : PyFloat :=
  ((PyFloat.finite (p.sign : ℤ)).mul (.finite magnitude)).mul std

/-- `out.iloc[start:end]`, with a shift added to each of its rows. -/
def addTo (out : Series n) (start stop : ℕ) (shift : ℕ → PyFloat) : Series n := fun i =>
  if start ≤ i ∧ i < stop then (out i).add (shift (i - start)) else out i

/-- One round of the loop of the injectors: `out` and `events`. -/
def injectStep (event : Pick → InjectedAnomaly) (shift : Pick → ℕ → PyFloat)
    (acc : Series n × List InjectedAnomaly) (p : Pick) : Series n × List InjectedAnomaly :=
  (addTo acc.1 (event p).startIdx (event p).endIdx (shift p), acc.2 ++ [event p])

def injectLoop (event : Pick → InjectedAnomaly) (shift : Pick → ℕ → PyFloat) (series : Series n)
    (picks : List Pick) : Series n × List InjectedAnomaly :=
  picks.foldl (injectStep event shift) (series, [])

/-- A place of `np.linspace(0, stop, num)`. -/
def linspace (stop : PyFloat) (num k : ℕ) : PyFloat :=
  if num = 1 then (PyFloat.ofRat k).mul stop
  else if k + 1 = num then stop
  else
    let div : PyFloat := .finite (num - 1)
    let step := (stop.div? div).getD .nan
    -- a step that underflows is not used
    if step.truthy then (PyFloat.ofRat k).mul step
    else (((PyFloat.ofRat k).div? div).getD .nan).mul stop

def injectPointAnomalies (dev : Deviation) (series : Series n) (column : Feature) (magnitude : ℚ)
    (picks : List Pick) : Series n × List InjectedAnomaly :=
  injectLoop (fun p => ⟨p.start, p.start + 1, .point, column, magnitude⟩)
    (fun p _ => p.shift magnitude (dev.stdOrOne series)) series picks

def injectContextualAnomalies (dev : Deviation) (series : Series n) (column : Feature)
    (duration : ℕ) (magnitude : ℚ) (picks : List Pick) : Series n × List InjectedAnomaly :=
  injectLoop (fun p => ⟨p.start, min (p.start + duration) n, .contextual, column, magnitude⟩)
    (fun p _ => p.shift magnitude (dev.stdOrOne series)) series picks

def injectDrift (dev : Deviation) (series : Series n) (column : Feature) (duration : ℕ)
    (totalShift : ℚ) (picks : List Pick) : Series n × List InjectedAnomaly :=
  injectLoop (fun p => ⟨p.start, min (p.start + duration) n, .drift, column, totalShift⟩)
    (fun p => linspace (p.shift totalShift (dev.stdOrOne series))
      (min (p.start + duration) n - p.start)) series picks

/-- `events_to_label_mask`. -/
def eventsToLabelMask (events : List InjectedAnomaly) : Fin n → Bool := fun i =>
  events.any fun e => decide (e.Covers i)

/-! ## All columns -/

abbrev PosRat := {q : ℚ // 0 < q}

/-- An injector with its arguments. -/
inductive Injection
  | point (n : ℕ+) (magnitude : PosRat)
  | contextual (n duration : ℕ+) (magnitude : PosRat)
  | drift (n duration : ℕ+) (totalShift : PosRat)

namespace Injection

def count : Injection → ℕ
  | point n _ => n
  | contextual n _ _ => n
  | drift n _ _ => n

/-- Starts are chosen below this. -/
def maxStart (length : ℕ) : Injection → ℕ
  | point _ _ => length
  | contextual _ duration _ => max (length - duration) 1
  | drift _ duration _ => max (length - duration) 1

def IsOutcome (injection : Injection) (length : ℕ) (picks : List Pick) : Prop :=
  IsChoice picks (injection.maxStart length) (min injection.count (injection.maxStart length))

def run (injection : Injection) (dev : Deviation) (column : Feature) (series : Series n)
    (picks : List Pick) : Series n × List InjectedAnomaly :=
  match injection with
  | point _ magnitude => injectPointAnomalies dev series column magnitude picks
  | contextual _ duration magnitude =>
    injectContextualAnomalies dev series column duration magnitude picks
  | drift _ duration totalShift => injectDrift dev series column duration totalShift picks

/-- The event a pick stands for. -/
def event (injection : Injection) (column : Feature) (length : ℕ) (p : Pick) : InjectedAnomaly :=
  match injection with
  | point _ magnitude => ⟨p.start, p.start + 1, .point, column, magnitude⟩
  | contextual _ duration magnitude =>
    ⟨p.start, min (p.start + duration) length, .contextual, column, magnitude⟩
  | drift _ duration totalShift =>
    ⟨p.start, min (p.start + duration) length, .drift, column, totalShift⟩

end Injection

/-- One injection into a column: the labels of its events are added to the mask. -/
def injectCall (dev : Deviation) (column : Feature) (acc : Series n × (Fin n → Bool))
    (call : Injection × List Pick) : Series n × (Fin n → Bool) :=
  let result := call.1.run dev column acc.1 call.2
  (result.1, fun i => acc.2 i || eventsToLabelMask result.2 i)

/-- All injections into a column. -/
def injectColumn (dev : Deviation) (calls : Feature → List (Injection × List Pick))
    (acc : (Feature → Series n) × (Fin n → Bool)) (column : Feature) :
    (Feature → Series n) × (Fin n → Bool) :=
  let result := (calls column).foldl (injectCall dev column) (acc.1 column, acc.2)
  (Function.update acc.1 column result.1, result.2)

/-- The calls on a column. -/
def columnCalls (injections : List Injection) (picks : Feature → List (List Pick)) (f : Feature) :
    List (Injection × List Pick) := injections.zip (picks f)

/-- `inject_all_columns`, of `rolling_compare`. -/
def injectAllColumns (dev : Deviation) (clean : Feature → Series n) (injections : List Injection)
    (picks : Feature → List (List Pick)) : (Feature → Series n) × (Fin n → Bool) :=
  featureColumns.foldl (injectColumn dev (columnCalls injections picks)) (clean, fun _ => false)

/-- `INJECTIONS` of `compare_all`. -/
def compareInjections : List Injection :=
  [.point 8 ⟨4, by norm_num⟩, .contextual 5 12 ⟨5 / 2, by norm_num⟩,
    .drift 3 60 ⟨3, by norm_num⟩]

/-- `inject_all_columns` of `compare_all`. -/
def compareInjectAllColumns (dev : Deviation) (clean : Feature → Series n)
    (picks : Feature → List (List Pick)) : (Feature → Series n) × (Fin n → Bool) :=
  injectAllColumns dev clean compareInjections picks

/-! ## Shifted columns -/

/-- What an event adds to its rows, counted from its first one. -/
structure Shift where
  event : InjectedAnomaly
  amount : ℕ → PyFloat

/-- A column with shifts added to the rows of their events. -/
def shifted (s : Series n) (shifts : List Shift) : Series n := fun i =>
  (shifts.find? fun sh => sh.event.Covers i).elim (s i) fun sh =>
    (s i).add (sh.amount (i - sh.event.startIdx))

/-- At this row the shift is lost: added to the value, it rounds back to the value. -/
def Shift.Lost (sh : Shift) (s : Series n) (i : Fin n) : Prop :=
  (s i).add (sh.amount (i - sh.event.startIdx)) = s i

instance (sh : Shift) (s : Series n) (i : Fin n) : Decidable (sh.Lost s i) :=
  inferInstanceAs (Decidable (_ = _))

/-- The ranges have no row in common. -/
def Apart (e e' : InjectedAnomaly) : Prop := e.endIdx ≤ e'.startIdx ∨ e'.endIdx ≤ e.startIdx

instance (e e' : InjectedAnomaly) : Decidable (Apart e e') := inferInstanceAs (Decidable (_ ∨ _))

theorem not_covers_of_apart {e e' : InjectedAnomaly} (h : Apart e e') {i : ℕ} (hi : e.Covers i) :
    ¬ e'.Covers i := by
  intro hi'
  rcases h with h | h
  · exact absurd (hi.2.trans_le h) (Nat.not_lt.mpr hi'.1)
  · exact absurd (hi'.2.trans_le h) (Nat.not_lt.mpr hi.1)

section Shifted

variable (s : Series n) {shifts shifts' : List Shift} {i : Fin n}

theorem shifted_of_not_covers (h : ∀ sh ∈ shifts, ¬ sh.event.Covers i) :
    shifted s shifts i = s i := by
  have hnone : (shifts.find? fun sh => sh.event.Covers i) = none :=
    List.find?_eq_none.mpr fun sh hsh => by simpa using h sh hsh
  rw [shifted, hnone, Option.elim_none]

/-- Where no two events overlap, a row is shifted by the only one that covers it. -/
theorem shifted_of_covers (hapart : (shifts.map Shift.event).Pairwise Apart) {sh : Shift}
    (hsh : sh ∈ shifts) (hcover : sh.event.Covers i) :
    shifted s shifts i = (s i).add (sh.amount (i - sh.event.startIdx)) := by
  induction shifts with
  | nil => exact absurd hsh List.not_mem_nil
  | cons first shifts ih =>
    obtain ⟨hfirst, hrest⟩ := List.pairwise_cons.mp hapart
    rcases List.mem_cons.mp hsh with rfl | hmem
    · rw [shifted, List.find?_cons_of_pos (by simpa using hcover), Option.elim_some]
    · have happart := hfirst sh.event (List.mem_map_of_mem hmem)
      have hnot : ¬ first.event.Covers i := fun h => not_covers_of_apart happart h hcover
      rw [shifted, List.find?_cons_of_neg (by simpa using hnot)]
      exact ih hrest hmem

/-- Shifts are added one list after the other, as long as their events are apart. -/
theorem shifted_append
    (hapart : ∀ e ∈ shifts.map Shift.event, ∀ e' ∈ shifts'.map Shift.event, Apart e e') :
    shifted (shifted s shifts) shifts' = shifted s (shifts ++ shifts') := by
  funext i
  cases hfind : shifts.find? fun sh => sh.event.Covers i with
  | none =>
    have hsame : shifted s shifts i = s i := by rw [shifted, hfind, Option.elim_none]
    rw [shifted, hsame, shifted, List.find?_append, hfind, Option.none_or]
  | some sh =>
    have hcover : sh.event.Covers i := by simpa using List.find?_some hfind
    have hmem := List.mem_map_of_mem (f := Shift.event) (List.mem_of_find?_eq_some hfind)
    rw [shifted_of_not_covers (shifted s shifts) fun sh' hsh' =>
      not_covers_of_apart (hapart _ hmem _ (List.mem_map_of_mem hsh')) hcover]
    rw [shifted, shifted, List.find?_append, hfind, Option.some_or]

theorem shifted_ne_iff (hapart : (shifts.map Shift.event).Pairwise Apart) :
    shifted s shifts i ≠ s i ↔ ∃ sh ∈ shifts, sh.event.Covers i ∧ ¬ sh.Lost s i := by
  constructor
  · intro hne
    by_contra hnone
    have hcovered : ∃ sh ∈ shifts, sh.event.Covers i := by
      by_contra hfree
      exact hne (shifted_of_not_covers s fun sh hsh hcover => hfree ⟨sh, hsh, hcover⟩)
    obtain ⟨sh, hsh, hcover⟩ := hcovered
    rw [shifted_of_covers s hapart hsh hcover] at hne
    exact hnone ⟨sh, hsh, hcover, hne⟩
  · rintro ⟨sh, hsh, hcover, hkept⟩
    rw [shifted_of_covers s hapart hsh hcover]
    exact hkept

end Shifted

/-! ## What the injectors change -/

section Loop

variable {event : Pick → InjectedAnomaly} {shift : Pick → ℕ → PyFloat}

theorem addTo_eq_shifted (s : Series n) (sh : Shift) :
    addTo s sh.event.startIdx sh.event.endIdx sh.amount = shifted s [sh] := by
  funext i
  by_cases hcover : sh.event.Covers i
  · rw [shifted_of_covers s (List.pairwise_singleton _ _) (List.mem_singleton_self sh) hcover]
    exact if_pos hcover
  · rw [shifted_of_not_covers s fun sh' hsh' => List.mem_singleton.mp hsh' ▸ hcover]
    exact if_neg hcover

theorem foldl_injectStep_events (picks : List Pick) (acc : Series n × List InjectedAnomaly) :
    (picks.foldl (injectStep event shift) acc).2 = acc.2 ++ picks.map event := by
  induction picks generalizing acc with
  | nil => rw [List.foldl_nil, List.map_nil, List.append_nil]
  | cons p picks ih =>
    rw [List.foldl_cons, ih, injectStep, List.append_assoc, List.map_cons, List.singleton_append]

theorem foldl_injectStep_series {picks : List Pick} (hapart : (picks.map event).Pairwise Apart)
    (acc : Series n × List InjectedAnomaly) :
    (picks.foldl (injectStep event shift) acc).1 =
      shifted acc.1 (picks.map fun p => ⟨event p, shift p⟩) := by
  induction picks generalizing acc with
  | nil => rfl
  | cons p picks ih =>
    obtain ⟨hp, hpicks⟩ := List.pairwise_cons.mp hapart
    have hstep : (injectStep event shift acc p).1 = shifted acc.1 [⟨event p, shift p⟩] :=
      addTo_eq_shifted acc.1 ⟨event p, shift p⟩
    rw [List.foldl_cons, ih hpicks, hstep, List.map_cons, ← List.singleton_append]
    apply shifted_append
    intro e he e' he'
    rw [List.map_map] at he'
    rw [List.mem_singleton.mp he]
    exact hp e' he'

theorem injectLoop_events (series : Series n) (picks : List Pick) :
    (injectLoop event shift series picks).2 = picks.map event :=
  foldl_injectStep_events picks (series, [])

theorem injectLoop_series {picks : List Pick} (hapart : (picks.map event).Pairwise Apart)
    (series : Series n) :
    (injectLoop event shift series picks).1 =
      shifted series (picks.map fun p => ⟨event p, shift p⟩) :=
  foldl_injectStep_series hapart (series, [])

end Loop

namespace Injection

/-- The shift a pick stands for in a column. -/
def shift (injection : Injection) (dev : Deviation) (column : Feature) (series : Series n)
    (p : Pick) : Shift where
  event := injection.event column n p
  amount :=
    match injection with
    | point _ magnitude => fun _ => p.shift magnitude (dev.stdOrOne series)
    | contextual _ _ magnitude => fun _ => p.shift magnitude (dev.stdOrOne series)
    | drift _ duration totalShift =>
      linspace (p.shift totalShift (dev.stdOrOne series)) (min (p.start + duration) n - p.start)

variable (injection : Injection) (dev : Deviation) (column : Feature) (series : Series n)
  (picks : List Pick)

theorem run_events :
    (injection.run dev column series picks).2 = picks.map (injection.event column n) := by
  cases injection <;> exact injectLoop_events series picks

theorem run_series (hapart : (picks.map (injection.event column n)).Pairwise Apart) :
    (injection.run dev column series picks).1 =
      shifted series (picks.map (injection.shift dev column series)) := by
  cases injection <;> exact injectLoop_series hapart series

end Injection

/-- The events the choices of a column stand for. -/
def plannedEvents (column : Feature) (length : ℕ) (calls : List (Injection × List Pick)) :
    List InjectedAnomaly :=
  calls.flatMap fun call => call.2.map (call.1.event column length)

/-- The shifts they stand for. An injector goes by the deviation of the column with the shifts of
the injectors before it. -/
def plannedShifts (dev : Deviation) (column : Feature) (s : Series n) :
    List (Injection × List Pick) → List Shift
  | [] => []
  | call :: calls =>
    call.2.map (call.1.shift dev column s) ++
      plannedShifts dev column (shifted s (call.2.map (call.1.shift dev column s))) calls

theorem plannedEvents_cons (column : Feature) (length : ℕ) (call : Injection × List Pick)
    (calls : List (Injection × List Pick)) :
    plannedEvents column length (call :: calls) =
      call.2.map (call.1.event column length) ++ plannedEvents column length calls :=
  List.flatMap_cons

theorem map_event_shift (dev : Deviation) (column : Feature) (s : Series n)
    (call : Injection × List Pick) :
    (call.2.map (call.1.shift dev column s)).map Shift.event =
      call.2.map (call.1.event column n) :=
  List.map_map

theorem map_event_plannedShifts (dev : Deviation) (column : Feature) (s : Series n)
    (calls : List (Injection × List Pick)) :
    (plannedShifts dev column s calls).map Shift.event = plannedEvents column n calls := by
  induction calls generalizing s with
  | nil => rfl
  | cons call calls ih =>
    rw [plannedShifts, List.map_append, ih, plannedEvents_cons, map_event_shift]

theorem eventsToLabelMask_eq_true_iff {events : List InjectedAnomaly} {i : Fin n} :
    eventsToLabelMask events i = true ↔ ∃ e ∈ events, e.Covers i := by
  simp only [eventsToLabelMask, List.any_eq_true, decide_eq_true_iff]

section Columns

variable {dev : Deviation}

theorem foldl_injectCall_series {column : Feature} {calls : List (Injection × List Pick)}
    (hapart : (plannedEvents column n calls).Pairwise Apart)
    (acc : Series n × (Fin n → Bool)) :
    (calls.foldl (injectCall dev column) acc).1 =
      shifted acc.1 (plannedShifts dev column acc.1 calls) := by
  induction calls generalizing acc with
  | nil => rfl
  | cons call calls ih =>
    rw [plannedEvents_cons] at hapart
    obtain ⟨hcall, hcalls, hboth⟩ := List.pairwise_append.mp hapart
    have hstep : (injectCall dev column acc call).1 =
        shifted acc.1 (call.2.map (call.1.shift dev column acc.1)) :=
      call.1.run_series dev column acc.1 call.2 hcall
    rw [List.foldl_cons, ih hcalls, hstep, plannedShifts]
    apply shifted_append
    rw [map_event_shift, map_event_plannedShifts]
    exact hboth

theorem foldl_injectCall_mask_iff {column : Feature} {calls : List (Injection × List Pick)}
    (acc : Series n × (Fin n → Bool)) (i : Fin n) :
    (calls.foldl (injectCall dev column) acc).2 i = true ↔
      acc.2 i = true ∨ ∃ e ∈ plannedEvents column n calls, e.Covers i := by
  induction calls generalizing acc with
  | nil => simp only [List.foldl_nil, plannedEvents, List.flatMap_nil, List.not_mem_nil, false_and,
      exists_false, or_false]
  | cons call calls ih =>
    rw [List.foldl_cons, ih, injectCall, Bool.or_eq_true, eventsToLabelMask_eq_true_iff,
      Injection.run_events, or_assoc, plannedEvents_cons]
    simp only [List.mem_append, or_and_right, exists_or]

variable {calls : Feature → List (Injection × List Pick)} {columns : List Feature}

theorem injectColumn_series {column : Feature}
    (hapart : (plannedEvents column n (calls column)).Pairwise Apart)
    (acc : (Feature → Series n) × (Fin n → Bool)) :
    (injectColumn dev calls acc column).1 column =
      shifted (acc.1 column) (plannedShifts dev column (acc.1 column) (calls column)) := by
  rw [injectColumn]
  dsimp only
  rw [Function.update_self]
  exact foldl_injectCall_series hapart (acc.1 column, acc.2)

theorem injectColumn_of_ne {column f : Feature} (hf : f ≠ column)
    (acc : (Feature → Series n) × (Fin n → Bool)) :
    (injectColumn dev calls acc column).1 f = acc.1 f :=
  Function.update_of_ne hf _ _

theorem foldl_injectColumn_of_not_mem {f : Feature} (hf : f ∉ columns)
    (acc : (Feature → Series n) × (Fin n → Bool)) :
    (columns.foldl (injectColumn dev calls) acc).1 f = acc.1 f := by
  induction columns generalizing acc with
  | nil => rfl
  | cons column columns ih =>
    rw [List.mem_cons, not_or] at hf
    rw [List.foldl_cons, ih hf.2, injectColumn_of_ne hf.1]

theorem foldl_injectColumn_series (hnodup : columns.Nodup)
    (hapart : ∀ f, (plannedEvents f n (calls f)).Pairwise Apart) {f : Feature} (hf : f ∈ columns)
    (acc : (Feature → Series n) × (Fin n → Bool)) :
    (columns.foldl (injectColumn dev calls) acc).1 f =
      shifted (acc.1 f) (plannedShifts dev f (acc.1 f) (calls f)) := by
  induction columns generalizing acc with
  | nil => cases hf
  | cons column columns ih =>
    obtain ⟨hcolumn, hcolumns⟩ := List.nodup_cons.mp hnodup
    rw [List.foldl_cons]
    rcases List.mem_cons.mp hf with rfl | hmem
    · rw [foldl_injectColumn_of_not_mem hcolumn, injectColumn_series (hapart f)]
    · have hne : f ≠ column := fun heq => hcolumn (heq ▸ hmem)
      rw [ih hcolumns hmem, injectColumn_of_ne hne]

theorem foldl_injectColumn_mask_iff (acc : (Feature → Series n) × (Fin n → Bool)) (i : Fin n) :
    (columns.foldl (injectColumn dev calls) acc).2 i = true ↔
      acc.2 i = true ∨ ∃ f ∈ columns, ∃ e ∈ plannedEvents f n (calls f), e.Covers i := by
  induction columns generalizing acc with
  | nil => simp only [List.foldl_nil, List.not_mem_nil, false_and, exists_false, or_false]
  | cons column columns ih =>
    rw [List.foldl_cons, ih, injectColumn, foldl_injectCall_mask_iff, or_assoc]
    simp only [List.mem_cons, exists_eq_or_imp]

end Columns

/-! ## Labels -/

/-- The random choices came out so that no two events of a column overlap. -/
structure NoOverlap (n : ℕ) (injections : List Injection) (picks : Feature → List (List Pick)) :
    Prop where
  outcome : ∀ f, List.Forall₂ (fun injection p => injection.IsOutcome n p) injections (picks f)
  apart : ∀ f, (plannedEvents f n (columnCalls injections picks f)).Pairwise Apart

/-- The mask marks the rows that differ, and the ranges of the events lie in the table. -/
structure LabelsPerturbed (dev : Deviation) (clean : Feature → Series n)
    (injections : List Injection) (picks : Feature → List (List Pick)) : Prop where
  mask : ∀ i, (injectAllColumns dev clean injections picks).2 i = true ↔
    ∃ f, (injectAllColumns dev clean injections picks).1 f i ≠ clean f i
  ranges : ∀ f, ∀ call ∈ columnCalls injections picks f, ∀ series : Series n,
    ∀ e ∈ (call.1.run dev f series call.2).2, e.startIdx < e.endIdx ∧ e.endIdx ≤ n

/-- A start below `max_start` leaves the event a row, and the table has it. -/
theorem lt_min_of_lt_maxStart {start duration : ℕ} (hn : 0 < n) (hduration : 0 < duration)
    (h : start < max (n - duration) 1) : start < min (start + duration) n := by
  omega

theorem event_range {injection : Injection} {picks : List Pick} {f : Feature} (hn : 0 < n)
    (h : injection.IsOutcome n picks) {p : Pick} (hp : p ∈ picks) :
    (injection.event f n p).startIdx < (injection.event f n p).endIdx ∧
      (injection.event f n p).endIdx ≤ n := by
  have hlt := h.lt p hp
  cases injection with
  | point count magnitude => exact ⟨Nat.lt_succ_self p.start, hlt⟩
  | contextual count duration magnitude =>
    exact ⟨lt_min_of_lt_maxStart hn duration.pos hlt, Nat.min_le_right _ _⟩
  | drift count duration totalShift =>
    exact ⟨lt_min_of_lt_maxStart hn duration.pos hlt, Nat.min_le_right _ _⟩

section LabelsPerturbed

variable {dev : Deviation} {clean : Feature → Series n} {injections : List Injection}
  {picks : Feature → List (List Pick)}

theorem plannedEvents_range (hn : 0 < n) (h : NoOverlap n injections picks) {f : Feature}
    {e : InjectedAnomaly} {call : Injection × List Pick}
    (hcall : call ∈ columnCalls injections picks f) (he : e ∈ call.2.map (call.1.event f n)) :
    e.startIdx < e.endIdx ∧ e.endIdx ≤ n := by
  obtain ⟨p, hp, rfl⟩ := List.mem_map.mp he
  exact event_range hn (List.forall₂_zip (h.outcome f) hcall) hp

theorem injectAllColumns_mask_iff (i : Fin n) :
    (injectAllColumns dev clean injections picks).2 i = true ↔
      ∃ f, ∃ e ∈ plannedEvents f n (columnCalls injections picks f), e.Covers i := by
  rw [injectAllColumns, foldl_injectColumn_mask_iff]
  simp only [Bool.false_eq_true, false_or, mem_featureColumns, true_and]

theorem injectAllColumns_ne_iff (h : NoOverlap n injections picks) (i : Fin n) :
    (∃ f, (injectAllColumns dev clean injections picks).1 f i ≠ clean f i) ↔
      ∃ f, ∃ sh ∈ plannedShifts dev f (clean f) (columnCalls injections picks f),
        sh.event.Covers i ∧ ¬ sh.Lost (clean f) i := by
  have hnodup : featureColumns.Nodup := by decide
  apply exists_congr
  intro f
  rw [injectAllColumns, foldl_injectColumn_series hnodup h.apart (mem_featureColumns f)]
  apply shifted_ne_iff
  rw [map_event_plannedShifts]
  exact h.apart f

end LabelsPerturbed

section Flat

/-- The deviation of a flat series, and of four rows of which one is four higher. -/
private def flatDeviation : Deviation where
  std s := if ∀ i j, s i = s j then .finite 0 else .finite 2

private def flatTable (n : ℕ) : Feature → Series n := fun _ _ => .finite 10

private def oneSpike : Injection := .point 1 ⟨4, by norm_num⟩

private def shortDrift : Injection := .drift 1 2 ⟨3, by norm_num⟩

private def coveredPicks : Feature → List (List Pick)
  | .cpuPct => [[⟨3, 1⟩], [⟨0, 1⟩]]
  | _ => [[⟨0, 1⟩], [⟨1, 1⟩]]

end Flat

end PiWatch.Ml
