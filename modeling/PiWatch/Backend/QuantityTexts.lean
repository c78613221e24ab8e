import PiWatch.Backend.QuantityGrammar

/-!
# The texts a quantity parser accepts

After stripping, a number and maybe a suffix. The pattern of the number ends in `$`, which also
matches before a line feed, so one may stand between the number and its suffix.
-/

namespace PiWatch

/-- Digits, maybe followed by a point and more digits. -/
structure PlainNumber where
  whole : List (Fin 10)
  fraction : Option (List (Fin 10))
  hasWhole : whole ≠ []
  hasFraction : fraction ≠ some []

namespace PlainNumber

def quantity (n : PlainNumber) : Quantity where
  sign := .none
  whole := n.whole
  fraction := n.fraction
  suffix := .none
  hasDigit := by simp [n.hasWhole]

def text (n : PlainNumber) : List Char := n.quantity.number

def value (n : PlainNumber) : ℚ := n.quantity.magnitude

/-- The number is below the limit of a double, and so is the rounded number times the rounded
factor. -/
def InReach (n : PlainNumber) (factor : ℚ) : Prop :=
  n.value < PyFloat.overflowLimit ∧
    PyFloat.nearest n.value * PyFloat.nearest factor < PyFloat.overflowLimit

end PlainNumber

/-- The suffixes of a parser with their factors. No suffix ends in an earlier one of the table. -/
structure SuffixTable where
  entries : List (String × ℚ)
  small : ∀ e ∈ entries, 0 ≤ e.2 ∧ e.2 < 2 ^ 53
  letters : ∀ e ∈ entries, ∃ c cs, e.1.toList = c :: cs ∧ ∀ x ∈ c :: cs, x.isAlpha
  free : entries.Pairwise fun e e' => ¬ e.1.toList <:+ e'.1.toList

def SuffixTable.factors (table : SuffixTable) : List (String × PyFloat) :=
  table.entries.map fun e => (e.1, .ofRat e.2)

/-! ## The parsers with the exceptions they raise -/

/-- `float(s)`. -/
def floatOrRaise (cs : List Char) : Except PyError PyFloat :=
  match PyFloat.ofString (String.ofList cs) with
  | some x => .ok x
  | none => .error .valueError

/-- `_finite`. -/
def finiteOrRaise (number : List Char) (factor : PyFloat) : Except PyError PyFloat :=
  if quantityNumberMatches number then do
    let x ← floatOrRaise number
    let result := x.mul factor
    if result.isFinite then .ok result else .error .valueError
  else .error .valueError

def parseOrRaise (table : List (String × PyFloat)) (v : String) : Except PyError PyFloat :=
  let cs := PyText.strip v.toList
  match table.find? fun e => e.1.toList.isSuffixOf cs with
  | some (suffix, factor) => finiteOrRaise (cs.take (cs.length - suffix.length)) factor
  | none => finiteOrRaise cs (.finite 1)

/-- `parse_cpu`. -/
def parseCpuOrRaise : String → Except PyError PyFloat := parseOrRaise cpuFactors

/-- `parse_mem`. -/
def parseMemOrRaise : String → Except PyError PyFloat := parseOrRaise memFactors

private def raising : Option PyFloat → Except PyError PyFloat
  | some x => .ok x
  | none => .error .valueError

private theorem finiteOrRaise_eq (number : List Char) (factor : PyFloat) :
    finiteOrRaise number factor = raising (finiteQuantity number factor) := by
  unfold finiteOrRaise finiteQuantity floatOrRaise
  split
  · cases PyFloat.ofString (String.ofList number) with
    | none => rfl
    | some x =>
      rw [Option.bind_some]
      dsimp only [bind, Except.bind]
      split <;> rfl
  · rfl

/-- Nothing but `ValueError` is ever raised. -/
theorem parseOrRaise_eq (table : List (String × PyFloat)) (v : String) :
    parseOrRaise table v = raising (parseWith table v) := by
  unfold parseOrRaise parseWith
  dsimp only
  cases table.find? fun e => e.1.toList.isSuffixOf (PyText.strip v.toList) with
  | none => exact finiteOrRaise_eq _ _
  | some e => exact finiteOrRaise_eq _ _

private theorem parse_of_find_none {table : List (String × PyFloat)} {v : String}
    (h : (table.find? fun e => e.1.toList.isSuffixOf (PyText.strip v.toList)) = none) :
    parseOrRaise table v = raising (finiteQuantity (PyText.strip v.toList) (.finite 1)) := by
  rw [parseOrRaise_eq]
  unfold parseWith
  dsimp only
  rw [h]

private theorem parse_of_find_some {table : List (String × PyFloat)} {v suffix : String}
    {factor : PyFloat} {b : List Char} (htext : PyText.strip v.toList = b ++ suffix.toList)
    (h : (table.find? fun e => e.1.toList.isSuffixOf (PyText.strip v.toList)) =
      some (suffix, factor)) :
    parseOrRaise table v = raising (finiteQuantity b factor) := by
  rw [parseOrRaise_eq]
  unfold parseWith
  dsimp only
  rw [h]
  dsimp only
  rw [htext, List.length_append, String.length_toList, Nat.add_sub_cancel, List.take_left]

/-! ## The number -/

theorem exists_digits {cs : List Char} (h : ∀ c ∈ cs, isAsciiDigit c) :
    ∃ ds : List (Fin 10), cs = ds.map digitChar := by
  induction cs with
  | nil => exact ⟨[], rfl⟩
  | cons c cs ih =>
    rw [List.forall_mem_cons] at h
    obtain ⟨ds, rfl⟩ := ih h.2
    have hrange : 48 ≤ c.toNat ∧ c.toNat ≤ 57 := by
      have hc := h.1
      rw [isAsciiDigit, Bool.and_eq_true, decide_eq_true_eq, decide_eq_true_eq] at hc
      exact ⟨hc.1, hc.2⟩
    refine ⟨⟨c.toNat - 48, by omega⟩ :: ds, ?_⟩
    rw [List.map_cons, digitChar]
    dsimp only
    rw [Nat.add_sub_cancel' hrange.1, Char.ofNat_toNat]

/-- A text that starts with a digit starts with all of its first digits. -/
private theorem exists_digits_append {cs : List Char} (h : cs.head?.any isAsciiDigit) :
    ∃ ds : List (Fin 10), ds ≠ [] ∧ cs = ds.map digitChar ++ cs.dropWhile isAsciiDigit := by
  have hdigits : ∀ c ∈ cs.takeWhile isAsciiDigit, isAsciiDigit c :=
    fun c hc => List.mem_takeWhile_imp hc
  obtain ⟨ds, hds⟩ := exists_digits hdigits
  refine ⟨ds, ?_, ?_⟩
  · rintro rfl
    cases cs with
    | nil => simp at h
    | cons c cs =>
      rw [List.head?_cons, Option.any_some] at h
      simp [h] at hds
  · rw [← hds, List.takeWhile_append_dropWhile]

namespace PlainNumber

variable (n : PlainNumber)

theorem text_eq : n.text = n.whole.map digitChar ++ Quantity.fractionText n.fraction := by
  rw [text, Quantity.number, quantity, NumberSign.text, List.nil_append]

theorem isSpace_of_mem_text {c : Char} (hc : c ∈ n.text) : PyText.isSpace c = false :=
  isSpace_of_mem_number c hc

theorem matches_text : quantityNumberMatches n.text :=
  (quantityNumberMatches_number n.quantity).mpr ⟨rfl, n.hasWhole, n.hasFraction⟩

theorem matches_text_feed : quantityNumberMatches (n.text ++ ['\n']) := by
  have hpoint : isAsciiDigit '.' = false := by decide
  have hfeed : isAsciiDigit '\n' = false := by decide
  obtain ⟨d, ds, hwhole⟩ := List.exists_cons_of_ne_nil n.hasWhole
  have hhead : ∀ cs, ((n.whole.map digitChar ++ cs).head?.any isAsciiDigit) := by
    intro cs
    simp [hwhole, isAsciiDigit_digitChar]
  rw [text_eq, List.append_assoc, quantityNumberMatches, hhead, dropWhile_digits, Bool.true_and]
  cases hfraction : n.fraction with
  | none => simp [Quantity.fractionText, hfeed]
  | some fs =>
    obtain ⟨f, fs', rfl⟩ := List.exists_cons_of_ne_nil fun hnil : fs = [] =>
      n.hasFraction (hnil ▸ hfraction)
    have hdrop := dropWhile_digits (f :: fs') ['\n']
    rw [List.dropWhile_cons_of_neg (by simp [hfeed])] at hdrop
    rw [Quantity.fractionText, List.cons_append, List.dropWhile_cons_of_neg (by simp [hpoint])]
    simp only [hdrop]
    simp [isAsciiDigit_digitChar]

theorem ofString_text :
    PyFloat.ofString (String.ofList n.text) = some (PyFloat.ofRat n.value) :=
  ofString_number (q := n.quantity) rfl n.hasWhole

/-- A number starts with a digit. -/
theorem exists_text_eq_cons : ∃ d cs, n.text = digitChar d :: cs := by
  obtain ⟨d, ds, hwhole⟩ := List.exists_cons_of_ne_nil n.hasWhole
  refine ⟨d, ds.map digitChar ++ Quantity.fractionText n.fraction, ?_⟩
  rw [text_eq, hwhole, List.map_cons, List.cons_append]

theorem exactFloat_text : PyText.exactFloat n.text = some n.value := by
  have hspace : ∀ c ∈ n.text, PyText.isSpace c = false := fun c hc => n.isSpace_of_mem_text hc
  have hvalue := floatValue_number (q := n.quantity) rfl n.hasWhole
  change PyText.floatValue n.text = some n.value at hvalue
  obtain ⟨d, cs, hcs⟩ := n.exists_text_eq_cons
  unfold PyText.exactFloat
  rw [PyText.strip_of_forall hspace, hcs, sign_digit, ← hcs]
  dsimp only
  rw [hvalue]
  rfl

/-- A number ends in a digit. -/
theorem exists_text_eq_concat : ∃ cs d, n.text = cs ++ [digitChar d] := by
  have hlast : ∀ {ds : List (Fin 10)}, ds ≠ [] →
      ∃ cs d, ds.map digitChar = cs ++ [digitChar d] := by
    intro ds hds
    refine ⟨ds.dropLast.map digitChar, ds.getLast hds, ?_⟩
    rw [← List.map_singleton, ← List.map_append, List.dropLast_append_getLast]
  rw [text_eq]
  cases hfraction : n.fraction with
  | none =>
    rw [Quantity.fractionText, List.append_nil]
    exact hlast n.hasWhole
  | some ds =>
    have hds : ds ≠ [] := fun hnil => n.hasFraction (hnil ▸ hfraction)
    obtain ⟨cs, d, hcs⟩ := hlast hds
    refine ⟨n.whole.map digitChar ++ '.' :: cs, d, ?_⟩
    rw [Quantity.fractionText, hcs, List.append_assoc, List.cons_append]

end PlainNumber

/-- What the pattern matches: a number, or a number and a line feed. -/
theorem quantityNumberMatches_iff {cs : List Char} :
    quantityNumberMatches cs ↔ ∃ n : PlainNumber, cs = n.text ∨ cs = n.text ++ ['\n'] := by
  constructor
  · intro h
    unfold quantityNumberMatches at h
    rw [Bool.and_eq_true] at h
    obtain ⟨ds, hds, hcs⟩ := exists_digits_append h.1
    have hrest := h.2
    split at hrest
    · rename_i hnil
      rw [hnil] at hcs
      exact ⟨⟨ds, none, hds, by simp⟩, Or.inl (by rw [PlainNumber.text_eq]; exact hcs)⟩
    · rename_i hfeed
      rw [hfeed] at hcs
      refine ⟨⟨ds, none, hds, by simp⟩, Or.inr ?_⟩
      rw [PlainNumber.text_eq, hcs, Quantity.fractionText, List.append_nil]
    · rename_i fraction hpoint
      rw [Bool.and_eq_true, Bool.or_eq_true, decide_eq_true_eq, decide_eq_true_eq] at hrest
      obtain ⟨fs, hfs, hfraction⟩ := exists_digits_append hrest.1
      have hsome : some fs ≠ some [] := by simpa using hfs
      refine ⟨⟨ds, some fs, hds, hsome⟩, ?_⟩
      rw [PlainNumber.text_eq, Quantity.fractionText]
      rw [hpoint, hfraction] at hcs
      rcases hrest.2 with hend | hend
      · left
        rw [hcs, hend, List.append_nil]
      · right
        rw [hcs, hend, List.append_assoc, List.cons_append]
    · cases hrest
  · intro h
    obtain ⟨n, rfl | rfl⟩ := h
    · exact n.matches_text
    · exact n.matches_text_feed

private theorem strip_append_space {cs : List Char} (h : ∀ c ∈ cs, PyText.isSpace c = false)
    {x : Char} (hx : PyText.isSpace x) : PyText.strip (cs ++ [x]) = cs := by
  have hdrop : ∀ {cs : List Char}, (∀ c ∈ cs, PyText.isSpace c = false) →
      cs.dropWhile PyText.isSpace = cs := by
    intro cs h
    cases cs with
    | nil => rfl
    | cons c cs => exact List.dropWhile_cons_of_neg (by simp [h c List.mem_cons_self])
  have hreverse : ∀ c ∈ cs.reverse, PyText.isSpace c = false :=
    fun c hc => h c (List.mem_reverse.mp hc)
  unfold PyText.strip
  cases cs with
  | nil => simp [hx]
  | cons c cs =>
    rw [List.cons_append, List.dropWhile_cons_of_neg (by simp [h c List.mem_cons_self]),
      ← List.cons_append, List.reverse_append, List.reverse_singleton, List.singleton_append,
      List.dropWhile_cons_of_pos hx, hdrop hreverse, List.reverse_reverse]

/-- `float` takes the line feed for blank space. -/
private theorem ofString_text_feed (n : PlainNumber) :
    PyFloat.ofString (String.ofList (n.text ++ ['\n'])) = some (PyFloat.ofRat n.value) := by
  rw [← n.ofString_text]
  have hspace : ∀ c ∈ n.text, PyText.isSpace c = false := fun c hc => n.isSpace_of_mem_text hc
  have hstrip : PyText.strip (String.ofList (n.text ++ ['\n'])).toList =
      PyText.strip (String.ofList n.text).toList := by
    rw [String.toList_ofList, String.toList_ofList, strip_append_space hspace (by decide),
      PyText.strip_of_forall hspace]
  unfold PyFloat.ofString
  rw [hstrip]

/-- The rounded number times its factor, if that is finite. -/
def scaled (n : PlainNumber) (factor : PyFloat) : Except PyError PyFloat :=
  let result := (PyFloat.ofRat n.value).mul factor
  if result.isFinite then .ok result else .error .valueError

private theorem raising_finiteQuantity {cs : List Char} {n : PlainNumber}
    (hmatch : quantityNumberMatches cs)
    (hvalue : PyFloat.ofString (String.ofList cs) = some (PyFloat.ofRat n.value))
    (factor : PyFloat) : raising (finiteQuantity cs factor) = scaled n factor := by
  rw [finiteQuantity, if_pos hmatch, hvalue, Option.bind_some, scaled]
  dsimp only
  split <;> rfl

theorem PlainNumber.isFinite_scaled_iff (n : PlainNumber) {factor : ℚ}
    (hfactor : 0 ≤ factor ∧ factor < PyFloat.overflowLimit) :
    ((PyFloat.ofRat n.value).mul (.ofRat factor)).isFinite ↔ n.InReach factor := by
  have hfinite : (PyFloat.ofRat factor).isFinite := by
    rw [PyFloat.isFinite_ofRat_iff, abs_of_nonneg hfactor.1]
    exact hfactor.2
  rw [PyFloat.ofRat_eq factor, if_pos (PyFloat.isFinite_ofRat.mp hfinite)]
  exact PyFloat.isFinite_mul_ofRat n.quantity.magnitude_nonneg (PyFloat.nearest_nonneg hfactor.1)

/-! ## The suffix -/

theorem suffix_of_suffix_append {α : Type*} {l b m : List α} {x : α} (hx : x ∉ l)
    (h : l <:+ b ++ x :: m) : l <:+ m := by
  obtain ⟨t, ht⟩ := h
  rcases List.append_eq_append_iff.mp ht with ⟨a, -, hl⟩ | ⟨a, -, hm⟩
  · rw [hl] at hx
    exact absurd (by simp) hx
  · cases a with
    | nil =>
      rw [List.nil_append] at hm
      rw [← hm] at hx
      exact absurd List.mem_cons_self hx
    | cons y a =>
      obtain ⟨-, rfl⟩ := List.cons.inj hm
      exact List.suffix_append a l

namespace SuffixTable

variable (table : SuffixTable)

private theorem notMem_of_mem {e : String × ℚ} (he : e ∈ table.entries) {x : Char}
    (hx : x.isAlpha = false) : x ∉ e.1.toList := by
  intro hmem
  obtain ⟨c, cs, heq, hall⟩ := table.letters e he
  rw [heq] at hmem
  rw [hall x hmem] at hx
  cases hx

private theorem find?_map (cs : List Char) :
    (table.factors.find? fun e => e.1.toList.isSuffixOf cs) =
      (table.entries.find? fun e => e.1.toList.isSuffixOf cs).map
        fun e => (e.1, PyFloat.ofRat e.2) := by
  rw [factors, List.find?_map]
  rfl

/-- After a character that is no letter, the suffix that stands there is found. -/
theorem find?_entries {e : String × ℚ} (he : e ∈ table.entries) {x : Char}
    (hx : x.isAlpha = false) (b : List Char) :
    (table.entries.find? fun e' => e'.1.toList.isSuffixOf (b ++ x :: e.1.toList)) = some e := by
  obtain ⟨before, after, hsplit⟩ := List.append_of_mem he
  have hfree := table.free
  rw [hsplit, List.pairwise_append] at hfree
  rw [List.find?_eq_some_iff_append]
  refine ⟨?_, before, after, hsplit, ?_⟩
  · rw [List.isSuffixOf_iff_suffix]
    exact ⟨b ++ [x], by rw [List.append_assoc, List.singleton_append]⟩
  · intro e' he'
    rw [Bool.not_eq_true', ← Bool.not_eq_true, List.isSuffixOf_iff_suffix]
    intro hsuffix
    have hmem : e' ∈ table.entries := by
      rw [hsplit]
      exact List.mem_append_left _ he'
    exact hfree.2.2 e' he' e List.mem_cons_self
      (suffix_of_suffix_append (table.notMem_of_mem hmem hx) hsuffix)

/-- No suffix is found after such a character. -/
theorem find?_entries_none {x : Char} (hx : x.isAlpha = false) (b : List Char) :
    (table.entries.find? fun e => e.1.toList.isSuffixOf (b ++ [x])) = none := by
  rw [List.find?_eq_none]
  intro e he
  rw [List.isSuffixOf_iff_suffix]
  intro hsuffix
  have hnil := suffix_of_suffix_append (table.notMem_of_mem he hx) hsuffix
  obtain ⟨c, cs, heq, -⟩ := table.letters e he
  rw [heq] at hnil
  exact absurd (List.suffix_nil.mp hnil) (List.cons_ne_nil c cs)

theorem find?_entry {e : String × ℚ} (he : e ∈ table.entries) {x : Char}
    (hx : x.isAlpha = false) (b : List Char) :
    (table.factors.find? fun e' => e'.1.toList.isSuffixOf (b ++ x :: e.1.toList)) =
      some (e.1, .ofRat e.2) := by
  rw [find?_map, table.find?_entries he hx]
  rfl

theorem find?_none {x : Char} (hx : x.isAlpha = false) (b : List Char) :
    (table.factors.find? fun e => e.1.toList.isSuffixOf (b ++ [x])) = none := by
  rw [find?_map, table.find?_entries_none hx]
  rfl

/-- The stripped text is a number and a suffix, or a number alone. -/
def Spells (s : String) (n : PlainNumber) (suffix : String) (factor : ℚ) : Prop :=
  (suffix, factor) ∈ ("", 1) :: table.entries ∧ PyText.strip s.toList = n.text ++ suffix.toList

/-- There is a line feed between the number and its suffix. -/
def SpellsApart (s : String) (n : PlainNumber) (suffix : String) (factor : ℚ) : Prop :=
  (suffix, factor) ∈ table.entries ∧
    PyText.strip s.toList = n.text ++ '\n' :: suffix.toList

theorem bounded_of_mem {e : String × ℚ} (he : e ∈ ("", 1) :: table.entries) :
    0 ≤ e.2 ∧ e.2 < PyFloat.overflowLimit := by
  have hsmall : 0 ≤ e.2 ∧ e.2 < 2 ^ 53 := by
    rcases List.mem_cons.mp he with rfl | he
    · norm_num
    · exact table.small e he
  exact ⟨hsmall.1, PyFloat.lt_overflowLimit_of_lt hsmall.2⟩

theorem isAlpha_digitChar (d : Fin 10) : (digitChar d).isAlpha = false := by
  revert d
  decide

private theorem ofRat_one : PyFloat.ofRat 1 = .finite 1 := by
  decide +kernel

variable {table} {s : String} {n : PlainNumber} {suffix : String} {factor : ℚ}

theorem Spells.parse_eq (h : table.Spells s n suffix factor) :
    parseOrRaise table.factors s = scaled n (.ofRat factor) := by
  obtain ⟨hmem, htext⟩ := h
  obtain ⟨cs, d, hconcat⟩ := n.exists_text_eq_concat
  rw [← raising_finiteQuantity n.matches_text n.ofString_text]
  rcases List.mem_cons.mp hmem with heq | hmem
  · obtain ⟨rfl, rfl⟩ := Prod.mk.inj heq
    rw [String.toList_empty, List.append_nil] at htext
    have hfind := table.find?_none (isAlpha_digitChar d) cs
    rw [← hconcat, ← htext] at hfind
    rw [parse_of_find_none hfind, htext, ofRat_one]
  · have hfind := table.find?_entry hmem (isAlpha_digitChar d) cs
    rw [List.append_cons, ← hconcat, ← htext] at hfind
    exact parse_of_find_some htext hfind

theorem SpellsApart.parse_eq (h : table.SpellsApart s n suffix factor) :
    parseOrRaise table.factors s = scaled n (.ofRat factor) := by
  obtain ⟨hmem, htext⟩ := h
  rw [← raising_finiteQuantity n.matches_text_feed (ofString_text_feed n)]
  have hfind := table.find?_entry hmem (by decide : '\n'.isAlpha = false) n.text
  rw [← htext] at hfind
  rw [List.append_cons] at htext
  exact parse_of_find_some htext hfind

private theorem strip_ne_append_space {cs b : List Char} {x : Char} (hx : PyText.isSpace x) :
    PyText.strip cs ≠ b ++ [x] := by
  intro h
  have hreverse : (cs.dropWhile PyText.isSpace).reverse.dropWhile PyText.isSpace =
      x :: b.reverse := by
    rw [← List.reverse_reverse (List.dropWhile _ _), ← PyText.strip, h, List.reverse_append,
      List.reverse_singleton, List.singleton_append]
  have hhead := List.head?_dropWhile_not PyText.isSpace (cs.dropWhile PyText.isSpace).reverse
  rw [hreverse] at hhead
  simp [hx] at hhead

/-- A number alone is the whole text. -/
theorem spells_of_matches (hmatch : quantityNumberMatches (PyText.strip s.toList)) :
    ∃ n, table.Spells s n "" 1 := by
  obtain ⟨n, hn | hn⟩ := quantityNumberMatches_iff.mp hmatch
  · exact ⟨n, List.mem_cons_self, by rw [hn]; simp⟩
  · exact absurd hn (strip_ne_append_space (by decide))

/-- Before a suffix, a line feed may come after the number. -/
theorem spells_of_matches_suffix {e : String × ℚ} {b : List Char}
    (hfind : (table.entries.find? fun e => e.1.toList.isSuffixOf (PyText.strip s.toList)) = some e)
    (hb : PyText.strip s.toList = b ++ e.1.toList) (hmatch : quantityNumberMatches b) :
    ∃ n, table.Spells s n e.1 e.2 ∨ table.SpellsApart s n e.1 e.2 := by
  have hmem := List.mem_of_find?_eq_some hfind
  obtain ⟨n, rfl | rfl⟩ := quantityNumberMatches_iff.mp hmatch
  · exact ⟨n, Or.inl ⟨List.mem_cons_of_mem _ hmem, hb⟩⟩
  · refine ⟨n, Or.inr ⟨hmem, ?_⟩⟩
    rw [hb, List.append_assoc, List.singleton_append]

/-- A text that parses is spelled one way or the other. -/
theorem spells_of_parse {x : PyFloat} (h : parseOrRaise table.factors s = .ok x) :
    ∃ n suffix factor, table.Spells s n suffix factor ∨ table.SpellsApart s n suffix factor := by
  have hsome : ∀ {o : Option PyFloat}, raising o = .ok x → o = some x := by
    intro o ho
    cases o with
    | none => cases ho
    | some y => rw [Except.ok.inj ho]
  have hmatches : ∀ {cs f}, finiteQuantity cs f = some x → quantityNumberMatches cs := by
    intro cs f hfinite
    by_contra hno
    rw [finiteQuantity, if_neg hno] at hfinite
    cases hfinite
  have hmap := table.find?_map (PyText.strip s.toList)
  cases hfind : table.entries.find? fun e => e.1.toList.isSuffixOf (PyText.strip s.toList) with
  | none =>
    rw [hfind, Option.map_none] at hmap
    rw [parse_of_find_none hmap] at h
    obtain ⟨n, hn⟩ := spells_of_matches (hmatches (hsome h))
    exact ⟨n, "", 1, Or.inl hn⟩
  | some e =>
    rw [hfind, Option.map_some] at hmap
    have hsuffix := List.find?_some hfind
    obtain ⟨b, hb⟩ := List.isSuffixOf_iff_suffix.mp hsuffix
    rw [parse_of_find_some hb.symm hmap] at h
    obtain ⟨n, hn⟩ := spells_of_matches_suffix hfind hb.symm (hmatches (hsome h))
    exact ⟨n, e.1, e.2, hn⟩

theorem Spells.not_apart (h : table.Spells s n suffix factor) {n' : PlainNumber}
    {suffix' : String} {factor' : ℚ} : ¬ table.SpellsApart s n' suffix' factor' := by
  intro hapart
  have hfeed : '\n' ∈ PyText.strip s.toList := by
    rw [hapart.2]
    simp
  rw [h.2, List.mem_append] at hfeed
  rcases hfeed with hnumber | hsuffix
  · have hspace := n.isSpace_of_mem_text hnumber
    revert hspace
    decide
  · rcases List.mem_cons.mp h.1 with heq | hmem
    · rw [(Prod.mk.inj heq).1] at hsuffix
      cases hsuffix
    · exact table.notMem_of_mem hmem (by decide) hsuffix

/-! ## What is read -/

/-- The grammar decides: a number with a suffix of the table has the value it spells, rounded, if
that is below the limit of a double, and every other text raises `ValueError`. -/
def ReadAsSpelled (table : SuffixTable) (parse : String → Except PyError PyFloat) (s : String) :
    Prop :=
  (∀ n suffix factor, table.Spells s n suffix factor →
    parse s = if n.value * factor < PyFloat.overflowLimit
      then .ok ((PyFloat.ofRat n.value).mul (.ofRat factor)) else .error .valueError) ∧
  ((¬ ∃ n suffix factor, table.Spells s n suffix factor) → parse s = .error .valueError)

/-- No line feed comes between a number within reach and its suffix, and a number is within reach
exactly if the value it spells is below the limit of a double. -/
structure ReadsExactly (table : SuffixTable) (s : String) : Prop where
  together : ∀ n suffix factor, table.SpellsApart s n suffix factor → ¬ n.InReach factor
  inRange : ∀ n suffix factor, table.Spells s n suffix factor →
    (n.value * factor < PyFloat.overflowLimit ↔ n.InReach factor)

theorem readAsSpelled_iff (table : SuffixTable) (s : String) :
    ReadAsSpelled table (parseOrRaise table.factors) s ↔ ReadsExactly table s := by
  constructor
  · intro h
    constructor
    · intro n suffix factor hapart hreach
      have hraise := h.2 fun ⟨_, _, _, hspells⟩ => hspells.not_apart hapart
      have hbounded := table.bounded_of_mem (List.mem_cons_of_mem _ hapart.1)
      rw [hapart.parse_eq, scaled, if_pos ((n.isFinite_scaled_iff hbounded).mpr hreach)] at hraise
      cases hraise
    · intro n suffix factor hspells
      have hread := h.1 n suffix factor hspells
      rw [hspells.parse_eq, scaled] at hread
      rw [← n.isFinite_scaled_iff (table.bounded_of_mem hspells.1)]
      split_ifs at hread with hscaled hexact hexact
      · exact iff_of_true hexact hscaled
      · exact iff_of_false hexact hscaled
  · intro h
    constructor
    · intro n suffix factor hspells
      have hreach := n.isFinite_scaled_iff (table.bounded_of_mem hspells.1)
      rw [hspells.parse_eq, scaled]
      exact if_congr (hreach.trans (h.inRange n suffix factor hspells).symm) rfl rfl
    · intro hnone
      cases hparse : parseOrRaise table.factors s with
      | ok x =>
        obtain ⟨n, suffix, factor, hspells | hapart⟩ := spells_of_parse hparse
        · exact absurd ⟨n, suffix, factor, hspells⟩ hnone
        · have hbounded := table.bounded_of_mem (List.mem_cons_of_mem _ hapart.1)
          have hfar := mt (n.isFinite_scaled_iff hbounded).mp (h.together n suffix factor hapart)
          rw [hapart.parse_eq, scaled, if_neg hfar] at hparse
          cases hparse
      | error e =>
        rw [parseOrRaise_eq] at hparse
        cases hvalue : parseWith table.factors s with
        | none =>
          rw [hvalue] at hparse
          exact congrArg _ (Except.error.inj hparse).symm
        | some x =>
          rw [hvalue] at hparse
          cases hparse

end SuffixTable

def cpuEntries : List (String × ℚ) :=
  [("n", 1 / 10 ^ 9), ("u", 1 / 10 ^ 6), ("m", 1 / 10 ^ 3)]

def memEntries : List (String × ℚ) :=
  [("Ki", 1024), ("Mi", 1024 ^ 2), ("Gi", 1024 ^ 3), ("Ti", 1024 ^ 4), ("K", 10 ^ 3),
    ("M", 10 ^ 6), ("G", 10 ^ 9), ("T", 10 ^ 12)]

private theorem small_cpuEntries : ∀ e ∈ cpuEntries, 0 ≤ e.2 ∧ e.2 < 2 ^ 53 := by
  norm_num [cpuEntries]

private theorem small_memEntries : ∀ e ∈ memEntries, 0 ≤ e.2 ∧ e.2 < 2 ^ 53 := by
  norm_num [memEntries]

private theorem letters_cpuEntries :
    ∀ e ∈ cpuEntries, ∃ c cs, e.1.toList = c :: cs ∧ ∀ x ∈ c :: cs, x.isAlpha := by
  simp [cpuEntries]

private theorem letters_memEntries :
    ∀ e ∈ memEntries, ∃ c cs, e.1.toList = c :: cs ∧ ∀ x ∈ c :: cs, x.isAlpha := by
  simp [memEntries]

private theorem free_cpuEntries :
    cpuEntries.Pairwise fun e e' => ¬ e.1.toList <:+ e'.1.toList := by
  decide

private theorem free_memEntries :
    memEntries.Pairwise fun e e' => ¬ e.1.toList <:+ e'.1.toList := by
  decide

def cpuTable : SuffixTable := ⟨cpuEntries, small_cpuEntries, letters_cpuEntries, free_cpuEntries⟩

def memTable : SuffixTable := ⟨memEntries, small_memEntries, letters_memEntries, free_memEntries⟩

theorem factors_cpuTable : cpuTable.factors = cpuFactors := rfl

theorem factors_memTable : memTable.factors = memFactors := by
  decide +kernel

/-- Both parsers read exactly the quantities of their grammar, but for a line feed before the
suffix and for numbers at the limit of a double. -/
theorem quantities_read_iff (s : String) :
    (SuffixTable.ReadAsSpelled cpuTable parseCpuOrRaise s ↔ cpuTable.ReadsExactly s) ∧
    (SuffixTable.ReadAsSpelled memTable parseMemOrRaise s ↔ memTable.ReadsExactly s) := by
  have hcpu := SuffixTable.readAsSpelled_iff cpuTable s
  have hmem := SuffixTable.readAsSpelled_iff memTable s
  rw [factors_cpuTable] at hcpu
  rw [factors_memTable] at hmem
  exact ⟨hcpu, hmem⟩

/-- "5", a line feed and "m" is read as five milli-cores. -/
theorem quantities_read_feed :
    parseCpuOrRaise "5\nm" = .ok ((PyFloat.ofRat 5).mul (.ofRat (1 / 10 ^ 3))) ∧
    ¬ SuffixTable.ReadAsSpelled cpuTable parseCpuOrRaise "5\nm" := by
  have hparse : parseCpuOrRaise "5\nm" = .ok ((PyFloat.ofRat 5).mul (.ofRat (1 / 10 ^ 3))) := by
    decide +kernel
  refine ⟨hparse, fun hread => ?_⟩
  have hapart : cpuTable.SpellsApart "5\nm" ⟨[5], none, by simp, by simp⟩ "m" (1 / 10 ^ 3) := by
    constructor
    · simp [cpuTable, cpuEntries]
    · decide +kernel
  have hraise := hread.2 fun ⟨_, _, _, hspells⟩ => hspells.not_apart hapart
  rw [hparse] at hraise
  cases hraise

end PiWatch
