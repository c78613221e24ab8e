import PiWatch.Backend.Quantity

/-!
# The quantities of the Kubernetes API

A quantity is a signed decimal number with a binary suffix, a decimal suffix or an exponent.
`parse_mem` reads a part of them.
-/

namespace PiWatch

inductive NumberSign
  | none
  | plus
  | minus
  deriving DecidableEq

inductive QuantitySuffix
  | none
  | n | u | m | k | M | G | T | P | E
  | Ki | Mi | Gi | Ti | Pi | Ei
  | exponent (capital : Bool) (sign : NumberSign) (first : Fin 10) (rest : List (Fin 10))
  deriving DecidableEq

/-- Digits, maybe followed by a point and more digits; there is a digit on one side of it. -/
structure Quantity where
  sign : NumberSign
  whole : List (Fin 10)
  fraction : Option (List (Fin 10))
  suffix : QuantitySuffix
  hasDigit : whole ++ fraction.getD [] ≠ []

def digitChar (d : Fin 10) : Char := Char.ofNat (48 + d)

namespace NumberSign

def text : NumberSign → List Char
  | none => []
  | plus => ['+']
  | minus => ['-']

end NumberSign

namespace QuantitySuffix

def text : QuantitySuffix → List Char
  | none => []
  | n => ['n'] | u => ['u'] | m => ['m'] | k => ['k'] | M => ['M']
  | G => ['G'] | T => ['T'] | P => ['P'] | E => ['E']
  | Ki => ['K', 'i'] | Mi => ['M', 'i'] | Gi => ['G', 'i']
  | Ti => ['T', 'i'] | Pi => ['P', 'i'] | Ei => ['E', 'i']
  | exponent capital sign first rest =>
    (if capital then 'E' else 'e') :: sign.text ++ (first :: rest).map digitChar

/-- The factor of a suffix `parse_mem` knows. -/
def factor? : QuantitySuffix → Option ℚ
  | none => some 1
  | M => some (10 ^ 6)
  | G => some (10 ^ 9)
  | T => some (10 ^ 12)
  | Ki => some 1024
  | Mi => some (1024 ^ 2)
  | Gi => some (1024 ^ 3)
  | Ti => some (1024 ^ 4)
  | _ => Option.none

end QuantitySuffix

namespace Quantity

def fractionText : Option (List (Fin 10)) → List Char
  | none => []
  | some ds => '.' :: ds.map digitChar

def number (q : Quantity) : List Char :=
  q.sign.text ++ q.whole.map digitChar ++ fractionText q.fraction

def render (q : Quantity) : String := String.ofList (q.number ++ q.suffix.text)

/-- The number without its sign and suffix. -/
def magnitude (q : Quantity) : ℚ :=
  PyText.decimalValue ((q.whole ++ q.fraction.getD []).map Fin.val) /
    10 ^ (q.fraction.getD []).length

/-- An unsigned number with digits on both sides of its point, a suffix of the table, and a
value in the range of a double. -/
def Plain (q : Quantity) : Prop :=
  q.sign = .none ∧ q.whole ≠ [] ∧ q.fraction ≠ some [] ∧
    ∃ factor, q.suffix.factor? = some factor ∧ q.magnitude < PyFloat.overflowLimit ∧
      PyFloat.nearest q.magnitude * factor < PyFloat.overflowLimit

end Quantity

/-- A text that is a quantity. -/
def IsQuantity (s : String) : Prop := ∃ q : Quantity, q.render = s

/-- A text that is a plain quantity. -/
def IsPlainQuantity (s : String) : Prop := ∃ q : Quantity, q.render = s ∧ q.Plain

theorem ne_empty_of_isQuantity {s : String} (h : IsQuantity s) : s ≠ "" := by
  obtain ⟨q, rfl⟩ := h
  intro hempty
  have hnil : q.number ++ q.suffix.text = [] := by
    rw [← String.toList_ofList (l := q.number ++ q.suffix.text)]
    exact congrArg String.toList hempty
  obtain ⟨hnumber, -⟩ := List.append_eq_nil_iff.mp hnil
  unfold Quantity.number at hnumber
  simp only [List.append_eq_nil_iff, List.map_eq_nil_iff] at hnumber
  apply q.hasDigit
  rw [hnumber.1.2, List.nil_append]
  cases hfraction : q.fraction with
  | none => rfl
  | some ds => simp [hfraction, Quantity.fractionText] at hnumber

/-! ## The number -/

theorem isAsciiDigit_digitChar (d : Fin 10) : isAsciiDigit (digitChar d) := by
  revert d
  decide

theorem digitValue_digitChar (d : Fin 10) : PyText.digitValue (digitChar d) = some d.val := by
  revert d
  decide

theorem isSpace_digitChar (d : Fin 10) : PyText.isSpace (digitChar d) = false := by
  revert d
  decide

theorem toLower_digitChar (d : Fin 10) : (digitChar d).toLower = digitChar d := by
  revert d
  decide

theorem digitChar_ne (d : Fin 10) {c : Char} (h : isAsciiDigit c = false) : digitChar d ≠ c := by
  intro heq
  rw [← heq, isAsciiDigit_digitChar] at h
  cases h

private theorem isAsciiDigit_or_of_dropWhile {Q : Char → Prop} {cs : List Char}
    (h : ∀ c ∈ cs.dropWhile isAsciiDigit, isAsciiDigit c ∨ Q c) :
    ∀ c ∈ cs, isAsciiDigit c ∨ Q c := by
  intro c hc
  rw [← List.takeWhile_append_dropWhile (p := isAsciiDigit) (l := cs), List.mem_append] at hc
  rcases hc with hc | hc
  · exact Or.inl (List.mem_takeWhile_imp hc)
  · exact h c hc

/-- What the characters of a number may be. -/
theorem mem_of_quantityNumberMatches {cs : List Char} (h : quantityNumberMatches cs) :
    ∀ c ∈ cs, isAsciiDigit c ∨ c = '.' ∨ c = '\n' := by
  unfold quantityNumberMatches at h
  rw [Bool.and_eq_true] at h
  obtain ⟨-, hrest⟩ := h
  apply isAsciiDigit_or_of_dropWhile
  intro c hc
  split at hrest
  · rename_i hnil
    rw [hnil] at hc
    cases hc
  · rename_i hfeed
    rw [hfeed] at hc
    exact Or.inr (Or.inr (List.mem_singleton.mp hc))
  · rename_i fraction hpoint
    rw [hpoint, List.mem_cons] at hc
    rcases hc with hc | hc
    · exact Or.inr (Or.inl hc)
    · rw [Bool.and_eq_true, Bool.or_eq_true, decide_eq_true_eq, decide_eq_true_eq] at hrest
      apply isAsciiDigit_or_of_dropWhile _ c hc
      intro c' hc'
      rcases hrest.2 with hnil | hfeed
      · rw [hnil] at hc'
        cases hc'
      · rw [hfeed] at hc'
        exact Or.inr (Or.inr (List.mem_singleton.mp hc'))
  · cases hrest

theorem dropWhile_digits (ds : List (Fin 10)) (cs : List Char) :
    (ds.map digitChar ++ cs).dropWhile isAsciiDigit = cs.dropWhile isAsciiDigit := by
  apply List.dropWhile_append_of_pos
  intro c hc
  obtain ⟨d, -, rfl⟩ := List.mem_map.mp hc
  exact isAsciiDigit_digitChar d

private theorem dropWhile_digits_self (ds : List (Fin 10)) :
    (ds.map digitChar).dropWhile isAsciiDigit = [] := by
  have h := dropWhile_digits ds []
  rwa [List.append_nil] at h

private theorem quantityNumberMatches_whole (d : Fin 10) (ds : List (Fin 10)) :
    quantityNumberMatches ((d :: ds).map digitChar) := by
  unfold quantityNumberMatches
  rw [dropWhile_digits_self]
  simp [isAsciiDigit_digitChar]

private theorem quantityNumberMatches_point (d : Fin 10) (ds fs : List (Fin 10)) :
    quantityNumberMatches ((d :: ds).map digitChar ++ '.' :: fs.map digitChar) ↔ fs ≠ [] := by
  have hpoint : isAsciiDigit '.' = false := by decide
  have hdrop := dropWhile_digits_self fs
  have hhead : (fs.map digitChar).head?.any isAsciiDigit ↔ fs ≠ [] := by
    cases fs <;> simp [isAsciiDigit_digitChar]
  unfold quantityNumberMatches
  rw [dropWhile_digits, List.dropWhile_cons, hpoint, if_neg Bool.false_ne_true, ← hhead]
  generalize fs.map digitChar = cs at hdrop
  simp [hdrop, isAsciiDigit_digitChar]

theorem quantityNumberMatches_number (q : Quantity) :
    quantityNumberMatches q.number ↔
      q.sign = .none ∧ q.whole ≠ [] ∧ q.fraction ≠ some [] := by
  obtain ⟨sign, whole, fraction, suffix, hdigit⟩ := q
  cases sign with
  | plus => simp [Quantity.number, NumberSign.text, quantityNumberMatches, isAsciiDigit]
  | minus => simp [Quantity.number, NumberSign.text, quantityNumberMatches, isAsciiDigit]
  | none =>
    cases whole with
    | nil =>
      cases fraction with
      | none => exact absurd rfl hdigit
      | some ds =>
        simp [Quantity.number, NumberSign.text, Quantity.fractionText, quantityNumberMatches,
          isAsciiDigit]
    | cons d ds =>
      cases fraction with
      | none =>
        have hmatch := quantityNumberMatches_whole d ds
        simpa [Quantity.number, NumberSign.text, Quantity.fractionText] using hmatch
      | some fs =>
        have hmatch := quantityNumberMatches_point d ds fs
        simpa [Quantity.number, NumberSign.text, Quantity.fractionText] using hmatch

private theorem digitPart_digits {cs : List Char}
    (h : ∀ after, PyText.digitPart after cs = ([], cs)) (after : Bool) (ds : List (Fin 10)) :
    PyText.digitPart after (ds.map digitChar ++ cs) = (ds.map Fin.val, cs) := by
  induction ds generalizing after with
  | nil => exact h after
  | cons d ds ih =>
    rw [List.map_cons, List.cons_append, PyText.digitPart, digitValue_digitChar]
    dsimp only
    rw [ih, List.map_cons]

private theorem isSpace_of_mem_sign (sign : NumberSign) :
    ∀ c ∈ sign.text, PyText.isSpace c = false := by
  have hall : sign.text.all (fun c => !PyText.isSpace c) = true := by cases sign <;> decide
  intro c hc
  simpa using List.all_eq_true.mp hall c hc

theorem isSpace_of_mem_number {q : Quantity} :
    ∀ c ∈ q.number, PyText.isSpace c = false := by
  intro c hc
  unfold Quantity.number at hc
  rw [List.mem_append, List.mem_append] at hc
  rcases hc with (hc | hc) | hc
  · exact isSpace_of_mem_sign q.sign c hc
  · obtain ⟨d, -, rfl⟩ := List.mem_map.mp hc
    exact isSpace_digitChar d
  · cases hfraction : q.fraction with
    | none => simp [hfraction, Quantity.fractionText] at hc
    | some fs =>
      simp only [hfraction, Quantity.fractionText, List.mem_cons] at hc
      rcases hc with rfl | hc
      · decide
      · obtain ⟨d, -, rfl⟩ := List.mem_map.mp hc
        exact isSpace_digitChar d

private theorem digitPart_fractionText (after : Bool) (fraction : Option (List (Fin 10))) :
    PyText.digitPart after (Quantity.fractionText fraction) =
      ([], Quantity.fractionText fraction) := by
  have hpoint : PyText.digitValue '.' = none := by decide
  cases fraction with
  | none => rfl
  | some fs => simp [Quantity.fractionText, PyText.digitPart, hpoint]

private theorem fractionPart_fractionText (fraction : Option (List (Fin 10))) :
    PyText.fractionPart (Quantity.fractionText fraction) =
      ((fraction.getD []).map Fin.val, []) := by
  cases fraction with
  | none => rfl
  | some fs =>
    have hnil : ∀ after, PyText.digitPart after [] = ([], []) := fun _ => rfl
    have hpart := digitPart_digits hnil false fs
    rw [List.append_nil] at hpart
    exact hpart

theorem floatValue_number {q : Quantity} (hsign : q.sign = .none) (hwhole : q.whole ≠ []) :
    PyText.floatValue q.number = some q.magnitude := by
  have hwhole' := digitPart_digits (fun after => digitPart_fractionText after q.fraction) false
    q.whole
  have hnil : q.whole.map Fin.val ≠ [] := by simpa using hwhole
  unfold PyText.floatValue Quantity.number
  rw [hsign, NumberSign.text, List.nil_append, hwhole']
  dsimp only
  rw [fractionPart_fractionText]
  dsimp only
  rw [if_neg (by simp [hwhole]), ← List.map_append]
  simp [PyText.exponentPart, Quantity.magnitude, div_eq_mul_inv]

theorem sign_digit (d : Fin 10) (cs : List Char) :
    PyText.sign (digitChar d :: cs) = (false, digitChar d :: cs) := by
  have hminus : digitChar d ≠ '-' := digitChar_ne d (by decide)
  have hplus : digitChar d ≠ '+' := digitChar_ne d (by decide)
  unfold PyText.sign
  split
  · rename_i h
    exact absurd (List.cons.inj h).1 hminus
  · rename_i h
    exact absurd (List.cons.inj h).1 hplus
  · rfl

theorem ofString_number {q : Quantity} (hsign : q.sign = .none) (hwhole : q.whole ≠ []) :
    PyFloat.ofString (String.ofList q.number) = some (PyFloat.ofRat q.magnitude) := by
  have hvalue := floatValue_number hsign hwhole
  have hstrip := PyText.strip_of_forall (isSpace_of_mem_number (q := q))
  obtain ⟨d, ds, hcons⟩ := List.exists_cons_of_ne_nil hwhole
  obtain ⟨cs, hnumber⟩ : ∃ cs, q.number = digitChar d :: cs := by
    simp [Quantity.number, hsign, hcons, NumberSign.text]
  have hi : digitChar d ≠ 'i' := digitChar_ne d (by decide)
  have hn : digitChar d ≠ 'n' := digitChar_ne d (by decide)
  unfold PyFloat.ofString
  rw [String.toList_ofList, hstrip, hnumber, sign_digit]
  rw [hnumber] at hvalue
  simp [toLower_digitChar, hi, hn, hvalue, PyText.negateIf]

/-! ## The suffix -/

private theorem isSpace_of_mem_suffix (suffix : QuantitySuffix) :
    ∀ c ∈ suffix.text, PyText.isSpace c = false := by
  cases suffix with
  | exponent capital sign first rest =>
    intro c hc
    simp only [QuantitySuffix.text, List.mem_append, List.mem_cons] at hc
    rcases hc with (rfl | hc) | hc
    · cases capital <;> decide
    · exact isSpace_of_mem_sign sign c hc
    · obtain ⟨d, -, rfl⟩ := List.mem_map.mp hc
      exact isSpace_digitChar d
  | none => simp [QuantitySuffix.text]
  | _ =>
    intro c hc
    simp only [QuantitySuffix.text, List.mem_cons, List.not_mem_nil, or_false] at hc
    rcases hc with rfl | rfl <;> decide

theorem strip_render (q : Quantity) :
    PyText.strip (q.number ++ q.suffix.text) = q.number ++ q.suffix.text := by
  apply PyText.strip_of_forall
  intro c hc
  rcases List.mem_append.mp hc with hc | hc
  · exact isSpace_of_mem_number c hc
  · exact isSpace_of_mem_suffix q.suffix c hc

private theorem digits_eq_concat (d : Fin 10) (ds : List (Fin 10)) :
    ∃ cs d', (d :: ds).map digitChar = cs ++ [digitChar d'] := by
  induction ds generalizing d with
  | nil => exact ⟨[], d, rfl⟩
  | cons d' ds ih =>
    obtain ⟨cs, last, hconcat⟩ := ih d'
    exact ⟨digitChar d :: cs, last, by rw [List.map_cons, hconcat, List.cons_append]⟩

/-- A number ends in a digit or a point. -/
private theorem number_eq_concat (q : Quantity) :
    ∃ cs c, q.number = cs ++ [c] ∧ (isAsciiDigit c ∨ c = '.') := by
  obtain ⟨sign, whole, fraction, suffix, hdigit⟩ := q
  unfold Quantity.number
  match fraction, whole with
  | none, [] => exact absurd rfl hdigit
  | none, d :: ds =>
    obtain ⟨cs, d', hconcat⟩ := digits_eq_concat d ds
    refine ⟨sign.text ++ cs, digitChar d', ?_, Or.inl (isAsciiDigit_digitChar d')⟩
    simp only [hconcat, Quantity.fractionText, List.append_nil, List.append_assoc]
  | some [], whole =>
    exact ⟨sign.text ++ whole.map digitChar, '.', rfl, Or.inr rfl⟩
  | some (d :: ds), whole =>
    obtain ⟨cs, d', hconcat⟩ := digits_eq_concat d ds
    refine ⟨sign.text ++ whole.map digitChar ++ '.' :: cs, digitChar d', ?_,
      Or.inl (isAsciiDigit_digitChar d')⟩
    simp only [hconcat, Quantity.fractionText, List.append_assoc, List.cons_append]

/-- The entry of the table for a suffix. -/
def QuantitySuffix.entry? : QuantitySuffix → Option (String × PyFloat)
  | M => some ("M", .finite (10 ^ 6))
  | G => some ("G", .finite (10 ^ 9))
  | T => some ("T", .finite (10 ^ 12))
  | Ki => some ("Ki", .finite 1024)
  | Mi => some ("Mi", .finite (1024 ^ 2))
  | Gi => some ("Gi", .finite (1024 ^ 3))
  | Ti => some ("Ti", .finite (1024 ^ 4))
  | _ => Option.none

private theorem find?_of_last (cs : List Char) {c : Char} (h : isAsciiDigit c ∨ c = '.') :
    (memFactors.find? fun e => e.1.toList.isSuffixOf (cs ++ [c])) = none := by
  have hne : ∀ c', isAsciiDigit c' = false → c' ≠ '.' → c' ≠ c := by
    intro c' hdigit hpoint heq
    rw [← heq, hdigit] at h
    rcases h with h | h
    · cases h
    · exact hpoint h
  have hi := hne 'i' (by decide) (by decide)
  have hK := hne 'K' (by decide) (by decide)
  have hM := hne 'M' (by decide) (by decide)
  have hG := hne 'G' (by decide) (by decide)
  have hT := hne 'T' (by decide) (by decide)
  simp [memFactors, List.isSuffixOf, hi, hK, hM, hG, hT]

/-- The table is searched to the entry of the suffix. -/
private theorem find?_suffix (q : Quantity) :
    (memFactors.find? fun e => e.1.toList.isSuffixOf (q.number ++ q.suffix.text)) =
      q.suffix.entry? := by
  obtain ⟨cs, c, hnumber, hc⟩ := number_eq_concat q
  cases q.suffix with
  | none =>
    rw [hnumber, QuantitySuffix.text, List.append_nil]
    exact find?_of_last cs hc
  | exponent capital sign first rest =>
    obtain ⟨cs', d, hconcat⟩ := digits_eq_concat first rest
    rw [QuantitySuffix.text, hconcat, ← List.append_assoc, ← List.append_assoc]
    exact find?_of_last _ (Or.inl (isAsciiDigit_digitChar d))
  | _ => simp [memFactors, QuantitySuffix.text, QuantitySuffix.entry?, List.isSuffixOf]

private theorem length_of_entry? {suffix : QuantitySuffix} {text : String} {factor : PyFloat}
    (h : suffix.entry? = some (text, factor)) : text.length = suffix.text.length := by
  cases suffix with
  | M | G | T | Ki | Mi | Gi | Ti =>
    obtain ⟨rfl, -⟩ := Prod.mk.inj (Option.some.inj h)
    decide
  | _ => cases h

/-- A suffix of the table is cut off, any other one is taken for a part of the number. -/
private theorem parseMem_render (q : Quantity) : parseMem q.render =
    match q.suffix.entry? with
    | some (_, factor) => finiteQuantity q.number factor
    | none => finiteQuantity (q.number ++ q.suffix.text) (.finite 1) := by
  have hfind := find?_suffix q
  unfold parseMem parseWith Quantity.render
  rw [String.toList_ofList, strip_render]
  dsimp only
  rw [hfind]
  cases hentry : q.suffix.entry? with
  | none => rfl
  | some entry =>
    have hlength := length_of_entry? hentry
    dsimp only
    rw [List.take_left' (by rw [hlength, List.length_append, Nat.add_sub_cancel])]

theorem parseMem_render_of_factor {q : Quantity} {factor : ℚ}
    (h : q.suffix.factor? = some factor) :
    parseMem q.render = finiteQuantity q.number (.finite factor) := by
  rw [parseMem_render]
  cases hsuffix : q.suffix with
  | none =>
    rw [hsuffix] at h
    obtain rfl := Option.some.inj h
    rw [QuantitySuffix.text, List.append_nil]
    rfl
  | M | G | T | Ki | Mi | Gi | Ti =>
    rw [hsuffix] at h
    obtain rfl := Option.some.inj h
    rfl
  | _ =>
    rw [hsuffix] at h
    cases h

theorem parseMem_render_of_none {q : Quantity} (h : q.suffix.factor? = none) :
    parseMem q.render = none := by
  have hentry : q.suffix.entry? = none := by
    cases hsuffix : q.suffix <;> rw [hsuffix] at h <;> first
      | rfl
      | cases h
  have hforeign : ∃ c ∈ q.suffix.text, ¬ (isAsciiDigit c ∨ c = '.' ∨ c = '\n') := by
    cases hsuffix : q.suffix with
    | exponent capital sign first rest =>
      refine ⟨if capital then 'E' else 'e', List.mem_cons_self, ?_⟩
      cases capital <;> decide
    | none | M | G | T | Ki | Mi | Gi | Ti =>
      rw [hsuffix] at h
      cases h
    | _ => exact ⟨_, List.mem_cons_self, by decide⟩
  obtain ⟨c, hc, hforeign⟩ := hforeign
  have hmatch : ¬ quantityNumberMatches (q.number ++ q.suffix.text) := by
    intro hmatch
    exact hforeign (mem_of_quantityNumberMatches hmatch c (List.mem_append_right _ hc))
  rw [parseMem_render, hentry]
  exact if_neg hmatch

theorem Quantity.magnitude_nonneg (q : Quantity) : 0 ≤ q.magnitude := by
  unfold Quantity.magnitude
  positivity

private theorem isSome_finiteQuantity {number : List Char} {x : PyFloat} (factor : PyFloat)
    (h : PyFloat.ofString (String.ofList number) = some x) :
    (finiteQuantity number factor).isSome ↔
      quantityNumberMatches number ∧ (x.mul factor).isFinite := by
  unfold finiteQuantity
  rw [h, Option.bind_some]
  split_ifs with hmatch
  · cases hfinite : (x.mul factor).isFinite <;> simp [hmatch, hfinite]
  · simp [hmatch]

private theorem QuantitySuffix.factor?_nonneg {suffix : QuantitySuffix} {factor : ℚ}
    (h : suffix.factor? = some factor) : 0 ≤ factor := by
  cases suffix with
  | none | M | G | T | Ki | Mi | Gi | Ti =>
    obtain rfl := Option.some.inj h
    norm_num
  | _ => cases h

theorem isSome_parseMem_render (q : Quantity) : (parseMem q.render).isSome ↔ q.Plain := by
  have hmatch := quantityNumberMatches_number q
  unfold Quantity.Plain
  cases hfactor : q.suffix.factor? with
  | none => simp [parseMem_render_of_none hfactor]
  | some factor =>
    have hrange := PyFloat.isFinite_mul_ofRat q.magnitude_nonneg
      (QuantitySuffix.factor?_nonneg hfactor)
    rw [parseMem_render_of_factor hfactor]
    by_cases hplain : q.sign = .none ∧ q.whole ≠ []
    · rw [isSome_finiteQuantity _ (ofString_number hplain.1 hplain.2), hmatch, hrange]
      simp [and_assoc]
    · have hno : ¬ quantityNumberMatches q.number := by
        intro hyes
        exact hplain ⟨(hmatch.mp hyes).1, (hmatch.mp hyes).2.1⟩
      have hnone : finiteQuantity q.number (.finite factor) = none := if_neg hno
      rw [hnone]
      constructor
      · intro hsome
        cases hsome
      · intro hall
        exact absurd ⟨hall.1, hall.2.1⟩ hplain

theorem isSome_parseMem_iff {s : String} (h : IsQuantity s) :
    (parseMem s).isSome ↔ IsPlainQuantity s := by
  obtain ⟨q, rfl⟩ := h
  rw [isSome_parseMem_render]
  constructor
  · intro hplain
    exact ⟨q, rfl, hplain⟩
  · intro hplain
    obtain ⟨q', hrender, hplain⟩ := hplain
    rw [← isSome_parseMem_render, ← hrender, isSome_parseMem_render]
    exact hplain

end PiWatch
