import PiWatch.Backend.QuantityTexts
import PiWatch.Collectors.Flux
import PiWatch.Framework.Scan

/-!
# Go durations

The pattern of `_parse_go_duration` takes any Unicode decimal digit for a digit; a Go duration is
written in ASCII. Numbers are exact here.
-/

namespace PiWatch

namespace Flux

/-! ## The parser -/

def exactUnits : List (String × ℚ) :=
  [("ns", 1 / 10 ^ 9), ("us", 1 / 10 ^ 6), ("µs", 1 / 10 ^ 6), ("ms", 1 / 10 ^ 3), ("s", 1),
    ("m", 60), ("h", 3600)]

def exactUnitAt (cs : List Char) : Option (ℚ × List Char) :=
  (exactUnits.find? fun e => e.1.toList.isPrefixOf cs).map fun e =>
    (e.2, cs.drop e.1.length)

/-- A match of `_GO_DURATION_RE` at the head of a text, and what follows it. -/
def exactDurationAt (cs : List Char) : Option ((List Char × ℚ) × List Char) :=
  let whole := cs.takeWhile isDigit
  if whole = [] then none
  else match cs.dropWhile isDigit with
    | '.' :: rest =>
      let fraction := rest.takeWhile isDigit
      if fraction = [] then none
      else (exactUnitAt (rest.dropWhile isDigit)).map fun u =>
        ((whole ++ '.' :: fraction, u.1), u.2)
    | rest => (exactUnitAt rest).map fun u => ((whole, u.1), u.2)

/-- `findall`: the numbers with the seconds of their units. -/
def exactTerms (s : String) : List (List Char × ℚ) := findAll exactDurationAt s.length s.toList

/-- `_parse_go_duration`; without a value `float()` raises. -/
def parseGoDurationExact (s : String) : Option (Option ℚ) :=
  match exactTerms s with
  | [] => some none
  | terms => (terms.mapM fun term => (PyText.exactFloat term.1).map (· * term.2)).map fun xs =>
      some xs.sum

/-! ## The rounded parser finds the same terms -/

private theorem unitAt_eq (cs : List Char) :
    unitAt cs = (exactUnitAt cs).map fun u => (PyFloat.ofRat u.1, u.2) := by
  have hunits : durationUnits = exactUnits.map fun e => (e.1, PyFloat.ofRat e.2) := by
    decide +kernel
  rw [unitAt, exactUnitAt, hunits, List.find?_map, Option.map_map, Option.map_map]
  rfl

/-- A number with a point is read with its fraction. -/
private theorem exactDurationAt_point {cs rest : List Char} (hwhole : cs.takeWhile isDigit ≠ [])
    (hrest : cs.dropWhile isDigit = '.' :: rest) :
    exactDurationAt cs =
      if rest.takeWhile isDigit = [] then none
      else (exactUnitAt (rest.dropWhile isDigit)).map fun u =>
        ((cs.takeWhile isDigit ++ '.' :: rest.takeWhile isDigit, u.1), u.2) := by
  unfold exactDurationAt
  rw [if_neg hwhole, hrest]
  rfl

private theorem exactDurationAt_plain {cs : List Char} (hwhole : cs.takeWhile isDigit ≠ [])
    (hrest : ∀ rest, cs.dropWhile isDigit ≠ '.' :: rest) :
    exactDurationAt cs = (exactUnitAt (cs.dropWhile isDigit)).map fun u =>
      ((cs.takeWhile isDigit, u.1), u.2) := by
  unfold exactDurationAt
  rw [if_neg hwhole]
  split
  · rename_i hpoint
    exact absurd hpoint (hrest _)
  · rfl

private theorem durationAt_eq (cs : List Char) :
    ((durationAt cs).map fun found => ((found.1, found.2.1), found.2.2)) =
      (exactDurationAt cs).map fun found => ((found.1.1, PyFloat.ofRat found.1.2), found.2) := by
  by_cases hwhole : cs.takeWhile isDigit = []
  · rw [durationAt, exactDurationAt, if_pos hwhole, if_pos hwhole]
    rfl
  · rw [durationAt, if_neg hwhole]
    split
    · rename_i rest hrest
      rw [exactDurationAt_point hwhole hrest]
      dsimp only
      split_ifs with hfraction
      · rfl
      · rw [unitAt_eq, Option.map_map, Option.map_map, Option.map_map]
        rfl
    · rename_i hrest
      rw [exactDurationAt_plain hwhole hrest, unitAt_eq, Option.map_map, Option.map_map,
        Option.map_map]
      rfl

private theorem durationTerms_eq_findAll (n : ℕ) (cs : List Char) :
    durationTerms n cs =
      findAll (fun cs => (durationAt cs).map fun found => ((found.1, found.2.1), found.2.2))
        n cs := by
  induction n generalizing cs with
  | zero => cases cs <;> rfl
  | succ n ih =>
    cases cs with
    | nil => rfl
    | cons c cs =>
      rw [durationTerms]
      cases hfound : durationAt (c :: cs) with
      | some found =>
        rw [findAll_of_some (List.cons_ne_nil c cs) (by rw [hfound]; rfl), ← ih]
      | none => rw [findAll_of_none (by rw [hfound]; rfl), ← ih]

/-- The terms are the same, with the seconds of a unit rounded. -/
theorem durationTerms_eq (s : String) :
    durationTerms s.length s.toList =
      (exactTerms s).map fun term => (term.1, PyFloat.ofRat term.2) := by
  rw [durationTerms_eq_findAll, exactTerms]
  exact findAll_map (f := fun term : List Char × ℚ => (term.1, PyFloat.ofRat term.2))
    durationAt_eq s.length s.toList

/-! ## Numbers with units -/

inductive DurationUnit
  | ns | us | micro | ms | s | m | h
  deriving DecidableEq

namespace DurationUnit

def text : DurationUnit → String
  | ns => "ns" | us => "us" | micro => "µs" | ms => "ms" | s => "s" | m => "m" | h => "h"

def seconds : DurationUnit → ℚ
  | ns => 1 / 10 ^ 9
  | us => 1 / 10 ^ 6
  | micro => 1 / 10 ^ 6
  | ms => 1 / 10 ^ 3
  | s => 1
  | m => 60
  | h => 3600

end DurationUnit

/-- A number in digits of any script. -/
structure DigitNumber where
  whole : List Char
  fraction : Option (List Char)
  hasWhole : whole ≠ []
  hasFraction : fraction ≠ some []
  digits : ∀ c ∈ whole ++ fraction.getD [], isDigit c

namespace DigitNumber

def fractionText : Option (List Char) → List Char
  | none => []
  | some cs => '.' :: cs

def text (n : DigitNumber) : List Char := n.whole ++ fractionText n.fraction

end DigitNumber

/-- What the pattern matches. -/
structure DigitPair where
  number : DigitNumber
  unit : DurationUnit

def DigitPair.text (p : DigitPair) : List Char := p.number.text ++ p.unit.text.toList

/-- A number in ASCII digits with a unit. -/
structure DurationPair where
  number : PlainNumber
  unit : DurationUnit

namespace DurationPair

def text (p : DurationPair) : List Char := p.number.text ++ p.unit.text.toList

def seconds (p : DurationPair) : ℚ := p.number.value * p.unit.seconds

end DurationPair

/-- No unit is taken for a longer one, unless a second follows it. -/
theorem exactUnitAt_text (u : DurationUnit) {rest : List Char} (hrest : ∀ c ∈ rest.head?, c ≠ 's') :
    exactUnitAt (u.text.toList ++ rest) = some (u.seconds, rest) := by
  have hs : ¬ ['s'] <+: rest := by
    intro hprefix
    obtain ⟨cs, rfl⟩ := hprefix
    exact hrest 's' rfl rfl
  have hdrop : (u.text.toList ++ rest).drop u.text.length = rest := by
    rw [← String.length_toList, List.drop_left]
  have hfind : (exactUnits.find? fun e => e.1.toList.isPrefixOf (u.text.toList ++ rest)) =
      some (u.text, u.seconds) := by
    cases u <;> simp [exactUnits, DurationUnit.text, DurationUnit.seconds, hs]
  rw [exactUnitAt, hfind, Option.map_some, hdrop]

theorem isSome_exactUnitAt_text (u : DurationUnit) (rest : List Char) :
    (exactUnitAt (u.text.toList ++ rest)).isSome := by
  have hmem : (u.text, u.seconds) ∈ exactUnits := by
    cases u <;> simp [exactUnits, DurationUnit.text, DurationUnit.seconds]
  rw [exactUnitAt, Option.isSome_map, List.find?_isSome]
  exact ⟨_, hmem, List.isPrefixOf_iff_prefix.mpr (List.prefix_append _ _)⟩

theorem exists_of_exactUnitAt {cs rest : List Char} {x : ℚ} (h : exactUnitAt cs = some (x, rest)) :
    ∃ u : DurationUnit, cs = u.text.toList ++ rest := by
  have hunits : ∀ e ∈ exactUnits, ∃ u : DurationUnit, u.text = e.1 := by
    rw [exactUnits]
    simp only [List.forall_mem_cons]
    exact ⟨⟨.ns, rfl⟩, ⟨.us, rfl⟩, ⟨.micro, rfl⟩, ⟨.ms, rfl⟩, ⟨.s, rfl⟩, ⟨.m, rfl⟩, ⟨.h, rfl⟩,
      by simp⟩
  obtain ⟨e, hfind, heq⟩ := Option.map_eq_some_iff.mp h
  obtain ⟨u, hu⟩ := hunits e (List.mem_of_find?_eq_some hfind)
  have hprefix := List.find?_some hfind
  obtain ⟨rest', hrest'⟩ := List.isPrefixOf_iff_prefix.mp hprefix
  refine ⟨u, ?_⟩
  rw [← (Prod.mk.inj heq).2, ← hrest', hu, ← String.length_toList, List.drop_left]

/-! ## Matches of the pattern -/

private theorem takeWhile_isDigit {ds rest : List Char} (hds : ∀ c ∈ ds, isDigit c)
    (hrest : ∀ c ∈ rest.head?, isDigit c = false) :
    (ds ++ rest).takeWhile isDigit = ds ∧ (ds ++ rest).dropWhile isDigit = rest := by
  rw [List.takeWhile_append_of_pos hds, List.dropWhile_append_of_pos hds]
  cases rest with
  | nil => exact ⟨List.append_nil ds, rfl⟩
  | cons c rest =>
    have hc := hrest c rfl
    rw [List.takeWhile_cons_of_neg (by simp [hc]), List.dropWhile_cons_of_neg (by simp [hc])]
    exact ⟨List.append_nil ds, rfl⟩

/-- The pattern reads the whole number before it looks for a unit. -/
theorem exactDurationAt_number (n : DigitNumber) {rest : List Char}
    (hrest : ∀ c ∈ rest.head?, isDigit c = false ∧ c ≠ '.') :
    exactDurationAt (n.text ++ rest) =
      (exactUnitAt rest).map fun u => ((n.text, u.1), u.2) := by
  obtain ⟨whole, fraction, hwhole, hfraction, hdigits⟩ := n
  have hwholeDigits : ∀ c ∈ whole, isDigit c := fun c hc => hdigits c (List.mem_append_left _ hc)
  cases fraction with
  | none =>
    obtain ⟨htake, hdrop⟩ := takeWhile_isDigit hwholeDigits fun c hc => (hrest c hc).1
    rw [DigitNumber.text, DigitNumber.fractionText, List.append_nil, exactDurationAt_plain, htake,
      hdrop]
    · rwa [htake]
    · intro rest' hpoint
      rw [hdrop] at hpoint
      exact (hrest '.' (by rw [hpoint]; rfl)).2 rfl
  | some fs =>
    have hpointDigit : isDigit '.' = false := by decide
    have hfs : ∀ c ∈ fs, isDigit c := fun c hc => hdigits c (List.mem_append_right _ hc)
    have hpoint : ∀ c ∈ ('.' :: (fs ++ rest)).head?, isDigit c = false := by
      intro c hc
      rw [← Option.some.inj hc]
      exact hpointDigit
    obtain ⟨htake, hdrop⟩ := takeWhile_isDigit hwholeDigits hpoint
    obtain ⟨htake', hdrop'⟩ := takeWhile_isDigit hfs fun c hc => (hrest c hc).1
    rw [DigitNumber.text, DigitNumber.fractionText, List.append_assoc, List.cons_append,
      exactDurationAt_point (by rwa [htake]) hdrop, htake', hdrop', htake,
      if_neg (by simpa using hfraction)]

private theorem head_unit (u : DurationUnit) (rest : List Char) :
    ∀ c ∈ (u.text.toList ++ rest).head?, isDigit c = false ∧ c ≠ '.' := by
  intro c hc
  cases u <;> (obtain rfl := Option.some.inj hc; decide)

/-- A pair is matched wherever it stands, maybe with a longer unit. -/
theorem isSome_exactDurationAt (p : DigitPair) (rest : List Char) :
    (exactDurationAt (p.text ++ rest)).isSome := by
  rw [DigitPair.text, List.append_assoc, exactDurationAt_number p.number (head_unit p.unit rest),
    Option.isSome_map]
  exact isSome_exactUnitAt_text p.unit rest

/-- What is matched is a pair. -/
theorem exists_of_exactDurationAt {cs rest : List Char} {term : List Char × ℚ}
    (h : exactDurationAt cs = some (term, rest)) : ∃ p : DigitPair, cs = p.text ++ rest := by
  have hdigits : ∀ {cs : List Char}, ∀ c ∈ cs.takeWhile isDigit, isDigit c :=
    fun c hc => List.mem_takeWhile_imp hc
  by_cases hwhole : cs.takeWhile isDigit = []
  · rw [exactDurationAt, if_pos hwhole] at h
    cases h
  · have hcs : cs.takeWhile isDigit ++ cs.dropWhile isDigit = cs := List.takeWhile_append_dropWhile
    by_cases hpoint : ∃ rest', cs.dropWhile isDigit = '.' :: rest'
    · obtain ⟨rest', hrest'⟩ := hpoint
      rw [exactDurationAt_point hwhole hrest'] at h
      split_ifs at h with hfraction
      obtain ⟨⟨x, after⟩, hunit, heq⟩ := Option.map_eq_some_iff.mp h
      obtain ⟨u, hu⟩ := exists_of_exactUnitAt hunit
      obtain rfl : after = rest := (Prod.mk.inj heq).2
      refine ⟨⟨⟨cs.takeWhile isDigit, some (rest'.takeWhile isDigit), hwhole,
        by simpa using hfraction, ?_⟩, u⟩, ?_⟩
      · intro c hc
        rcases List.mem_append.mp hc with hc | hc
        · exact hdigits c hc
        · exact hdigits c hc
      · rw [DigitPair.text, DigitNumber.text, DigitNumber.fractionText]
        dsimp only
        rw [List.append_assoc, List.append_assoc, List.cons_append, ← hu,
          List.takeWhile_append_dropWhile, ← hrest', hcs]
    · rw [exactDurationAt_plain hwhole fun rest' h' => hpoint ⟨rest', h'⟩] at h
      obtain ⟨⟨x, after⟩, hunit, heq⟩ := Option.map_eq_some_iff.mp h
      obtain ⟨u, hu⟩ := exists_of_exactUnitAt hunit
      obtain rfl : after = rest := (Prod.mk.inj heq).2
      refine ⟨⟨⟨cs.takeWhile isDigit, none, hwhole, by simp, ?_⟩, u⟩, ?_⟩
      · intro c hc
        rw [Option.getD_none, List.append_nil] at hc
        exact hdigits c hc
      · rw [DigitPair.text, DigitNumber.text, DigitNumber.fractionText]
        dsimp only
        rw [List.append_nil, List.append_assoc, ← hu, hcs]

/-- A pair occurs in a text. -/
def HasPair (s : String) : Prop := ∃ p : DigitPair, p.text <:+: s.toList

/-- A pair in ASCII digits occurs in a text. -/
def HasAsciiPair (s : String) : Prop := ∃ p : DurationPair, p.text <:+: s.toList

theorem exactTerms_eq_nil_iff (s : String) : exactTerms s = [] ↔ ¬ HasPair s := by
  rw [exactTerms, findAll_eq_nil_iff (by rw [String.length_toList])]
  constructor
  · intro h hpair
    obtain ⟨p, before, after, hs⟩ := hpair
    have hsome := isSome_exactDurationAt p after
    have hsuffix : p.text ++ after <:+ s.toList := ⟨before, by rw [← hs, List.append_assoc]⟩
    have hne : p.text ++ after ≠ [] := by simp [DigitPair.text, DigitNumber.text, p.number.hasWhole]
    rw [h _ hsuffix hne] at hsome
    cases hsome
  · intro h t ht _
    cases hfound : exactDurationAt t with
    | none => rfl
    | some found =>
      obtain ⟨p, hp⟩ := exists_of_exactDurationAt hfound
      obtain ⟨before, hbefore⟩ := ht
      refine absurd ⟨p, before, found.2, ?_⟩ h
      rw [← hbefore, hp, List.append_assoc]

theorem parseGoDurationExact_eq_none_iff (s : String) :
    parseGoDurationExact s = some none ↔ ¬ HasPair s := by
  rw [← exactTerms_eq_nil_iff, parseGoDurationExact]
  cases exactTerms s with
  | nil => exact iff_of_true rfl rfl
  | cons term terms =>
    refine iff_of_false ?_ (List.cons_ne_nil term terms)
    intro h
    obtain ⟨xs, -, hxs⟩ := Option.map_eq_some_iff.mp h
    cases hxs

/-! ## Durations in ASCII digits -/

theorem isDigit_digitChar (d : Fin 10) : isDigit (digitChar d) := by
  rw [isDigit, digitValue_digitChar]
  rfl

namespace DurationPair

variable (p : DurationPair)

def digitNumber : DigitNumber where
  whole := p.number.whole.map digitChar
  fraction := p.number.fraction.map (List.map digitChar)
  hasWhole := by simp [p.number.hasWhole]
  hasFraction := by simp [p.number.hasFraction]
  digits := by
    intro c hc
    rcases List.mem_append.mp hc with hc | hc
    · obtain ⟨d, -, rfl⟩ := List.mem_map.mp hc
      exact isDigit_digitChar d
    · cases hfraction : p.number.fraction with
      | none => simp [hfraction] at hc
      | some ds =>
        rw [hfraction, Option.map_some, Option.getD_some] at hc
        obtain ⟨d, -, rfl⟩ := List.mem_map.mp hc
        exact isDigit_digitChar d

theorem text_digitNumber : p.digitNumber.text = p.number.text := by
  rw [PlainNumber.text_eq]
  change _ ++ DigitNumber.fractionText (p.number.fraction.map (List.map digitChar)) = _
  cases p.number.fraction <;> rfl

private theorem exists_text_eq_cons : ∃ d cs, p.text = digitChar d :: cs := by
  obtain ⟨d, cs, hcs⟩ := p.number.exists_text_eq_cons
  exact ⟨d, cs ++ p.unit.text.toList, by rw [text, hcs, List.cons_append]⟩

/-- A pair is read back where other pairs, or nothing, follow. -/
theorem exactDurationAt_text (rest : List DurationPair) :
    exactDurationAt (p.text ++ rest.flatMap text) =
      some ((p.number.text, p.unit.seconds), rest.flatMap text) := by
  have hrest : ∀ c ∈ (rest.flatMap text).head?, c ≠ 's' := by
    cases rest with
    | nil => simp
    | cons q rest =>
      obtain ⟨d, cs, hcs⟩ := q.exists_text_eq_cons
      rw [List.flatMap_cons, hcs]
      intro c hc
      rw [← Option.some.inj hc]
      exact digitChar_ne d (by decide)
  have hnumber := exactDurationAt_number p.digitNumber (head_unit p.unit (rest.flatMap text))
  rw [text_digitNumber, exactUnitAt_text p.unit hrest, Option.map_some] at hnumber
  rw [text, List.append_assoc, hnumber]

theorem exactTerms_concat {s : String} {pairs : List DurationPair}
    (hs : s.toList = pairs.flatMap text) :
    exactTerms s = pairs.map fun p => (p.number.text, p.unit.seconds) := by
  have hne : ∀ p : DurationPair, p.text ≠ [] := by
    intro p
    obtain ⟨d, cs, hcs⟩ := p.exists_text_eq_cons
    simp [hcs]
  have hlength : (pairs.flatMap text).length ≤ s.length := by rw [← hs, String.length_toList]
  rw [exactTerms, hs]
  exact findAll_flatMap hne exactDurationAt_text hlength

private theorem mapM_terms (pairs : List DurationPair) :
    (pairs.map fun p => (p.number.text, p.unit.seconds)).mapM
        (fun term => (PyText.exactFloat term.1).map (· * term.2)) =
      some (pairs.map seconds) := by
  induction pairs with
  | nil => rfl
  | cons p pairs ih =>
    rw [List.map_cons, List.mapM_cons, ih, p.number.exactFloat_text]
    rfl

theorem parseGoDurationExact_concat {s : String} {pairs : List DurationPair} (hne : pairs ≠ [])
    (hs : s.toList = pairs.flatMap text) :
    parseGoDurationExact s = some (some (pairs.map seconds).sum) := by
  obtain ⟨p, pairs, rfl⟩ := List.exists_cons_of_ne_nil hne
  have hterms := mapM_terms (p :: pairs)
  rw [List.map_cons] at hterms
  rw [parseGoDurationExact, exactTerms_concat hs, List.map_cons]
  dsimp only
  rw [hterms]
  rfl

end DurationPair

/-- A duration is read as the sum of its pairs, each found once, and a text without a pair as
nothing. -/
structure ReadsDurations (s : String) : Prop where
  sums : ∀ pairs : List DurationPair, pairs ≠ [] → s.toList = pairs.flatMap DurationPair.text →
    exactTerms s = pairs.map (fun p => (p.number.text, p.unit.seconds)) ∧
      parseGoDurationExact s = some (some (pairs.map DurationPair.seconds).sum)
  nothing : ¬ HasAsciiPair s → parseGoDurationExact s = some none

/-- Durations are always read as their sums; a text without a pair is read as nothing unless there
is a pair in other digits. -/
theorem readsDurations_iff (s : String) :
    ReadsDurations s ↔ (HasPair s → HasAsciiPair s) := by
  constructor
  · intro h hpair
    by_contra hascii
    exact (parseGoDurationExact_eq_none_iff s).mp (h.nothing hascii) hpair
  · intro h
    constructor
    · intro pairs hne hs
      exact ⟨DurationPair.exactTerms_concat hs, DurationPair.parseGoDurationExact_concat hne hs⟩
    · intro hascii
      exact (parseGoDurationExact_eq_none_iff s).mpr (mt h hascii)

/-- An Arabic-Indic three and "s" is read as three seconds. -/
theorem readsDurations_arabic :
    parseGoDurationExact "٣s" = some (some 3) ∧ ¬ ReadsDurations "٣s" := by
  have hparse : parseGoDurationExact "٣s" = some (some 3) := by decide +kernel
  refine ⟨hparse, fun h => ?_⟩
  have hdigit : ∀ d : Fin 10, digitChar d ∉ "٣s".toList := by decide
  have hascii : ¬ HasAsciiPair "٣s" := by
    intro hpair
    obtain ⟨p, hp⟩ := hpair
    obtain ⟨d, cs, hcs⟩ := p.exists_text_eq_cons
    exact hdigit d (hp.subset (by rw [hcs]; exact List.mem_cons_self))
  rw [h.nothing hascii] at hparse
  cases hparse

end Flux

end PiWatch
