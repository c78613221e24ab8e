import PiWatch.Backend.QuantityTexts

/-!
# Quantities in the browser

`parseCpuQty` and `parseMemQty` repeat the backend's parsers on `parseFloat`, which reads as much
of a text as is a number. Numbers are exact here on both sides.
-/

namespace PiWatch

/-! ## The backend's parsers -/

/-- `_finite`. -/
def finiteExact (number : List Char) (factor : ℚ) : Option ℚ :=
  if quantityNumberMatches number then (PyText.exactFloat number).map (· * factor) else none

def parseExact (table : List (String × ℚ)) (v : String) : Option ℚ :=
  let cs := PyText.strip v.toList
  match table.find? fun e => e.1.toList.isSuffixOf cs with
  | some (suffix, factor) => finiteExact (cs.take (cs.length - suffix.length)) factor
  | none => finiteExact cs 1

/-- `parse_cpu`. -/
def parseCpuExact : String → Option ℚ := parseExact cpuEntries

/-- `parse_mem`. -/
def parseMemExact : String → Option ℚ := parseExact memEntries

/-! ## The browser's parsers -/

inductive JsNumber
  | finite (q : ℚ)
  | infinity (negative : Bool)
  | nan
  deriving DecidableEq

namespace JsNumber

/-- `x || 0`. -/
def orZero : JsNumber → JsNumber
  | nan => finite 0
  | x => x

/-- `x * factor` for a positive factor. -/
def scale (factor : ℚ) : JsNumber → JsNumber
  | finite q => finite (q * factor)
  | x => x

end JsNumber

def isJsSpace (c : Char) : Bool :=
  let n := c.toNat
  (0x9 ≤ n && n ≤ 0xd) || n = 0x20 || n = 0xa0 || n = 0x1680 || (0x2000 ≤ n && n ≤ 0x200a) ||
    n = 0x2028 || n = 0x2029 || n = 0x202f || n = 0x205f || n = 0x3000 || n = 0xfeff

/-- `s.trim()`. -/
def jsTrim (cs : List Char) : List Char :=
  ((cs.dropWhile isJsSpace).reverse.dropWhile isJsSpace).reverse

/-- The number that ASCII digits write. -/
def asciiValue (cs : List Char) : ℕ := PyText.decimalValue (cs.map fun c => c.toNat - 48)

/-- The digits after a point, and what follows them. -/
def jsFraction : List Char → List Char × List Char
  | '.' :: cs => (cs.takeWhile isAsciiDigit, cs.dropWhile isAsciiDigit)
  | cs => ([], cs)

/-- The exponent at the head of a text, zero if there is none. -/
def jsExponent : List Char → ℤ
  | c :: cs =>
    if c = 'e' ∨ c = 'E' then
      let (negative, body) := PyText.sign cs
      let value : ℤ := asciiValue (body.takeWhile isAsciiDigit)
      if negative then -value else value
    else 0
  | [] => 0

/-- `parseFloat(s)`: the longest decimal literal a text starts with. -/
def parseFloat (cs : List Char) : JsNumber :=
  let (negative, body) := PyText.sign (cs.dropWhile isJsSpace)
  if "Infinity".toList.isPrefixOf body then .infinity negative
  else
    let whole := body.takeWhile isAsciiDigit
    let (fraction, rest) := jsFraction (body.dropWhile isAsciiDigit)
    if whole = [] ∧ fraction = [] then .nan
    else .finite (PyText.negateIf negative
      (asciiValue (whole ++ fraction) * 10 ^ (jsExponent rest - fraction.length)))

def parseCpuQty (v : String) : JsNumber :=
  if v = "" then .finite 0
  else
    let s := jsTrim v.toList
    if ['n'].isSuffixOf s then (parseFloat s).scale (1 / 10 ^ 9)
    else if ['u'].isSuffixOf s then (parseFloat s).scale (1 / 10 ^ 6)
    else if ['m'].isSuffixOf s then (parseFloat s).scale (1 / 10 ^ 3)
    else (parseFloat s).orZero

def memQtyFactors : List (String × ℚ) :=
  [("Ki", 1024), ("Mi", 1024 ^ 2), ("Gi", 1024 ^ 3), ("Ti", 1024 ^ 4), ("K", 10 ^ 3),
    ("M", 10 ^ 6), ("G", 10 ^ 9), ("T", 10 ^ 12)]

def parseMemQty (v : String) : JsNumber :=
  if v = "" then .finite 0
  else
    let s := jsTrim v.toList
    match memQtyFactors.find? fun e => e.1.toList.isSuffixOf s with
    | some (suffix, factor) => (parseFloat (s.take (s.length - suffix.length))).orZero.scale factor
    | none => (parseFloat s).orZero

/-! ## The number of a spelled quantity -/

theorem finiteExact_text (n : PlainNumber) (factor : ℚ) :
    finiteExact n.text factor = some (n.value * factor) := by
  rw [finiteExact, if_pos n.matches_text, n.exactFloat_text]
  rfl

private theorem asciiValue_digits (ds : List (Fin 10)) :
    asciiValue (ds.map digitChar) = PyText.decimalValue (ds.map Fin.val) := by
  have hdigit : ∀ d : Fin 10, (digitChar d).toNat - 48 = d.val := by decide
  rw [asciiValue, List.map_map]
  congr 1
  exact List.map_congr_left fun d _ => hdigit d

private theorem takeWhile_digits {rest : List Char} (ds : List (Fin 10))
    (hrest : ∀ c ∈ rest.head?, isAsciiDigit c = false) :
    (ds.map digitChar ++ rest).takeWhile isAsciiDigit = ds.map digitChar ∧
      (ds.map digitChar ++ rest).dropWhile isAsciiDigit = rest := by
  have hdigits : ∀ c ∈ ds.map digitChar, isAsciiDigit c := by
    intro c hc
    obtain ⟨d, -, rfl⟩ := List.mem_map.mp hc
    exact isAsciiDigit_digitChar d
  rw [List.takeWhile_append_of_pos hdigits, dropWhile_digits]
  cases rest with
  | nil => simp
  | cons c rest =>
    have hc := hrest c rfl
    rw [List.takeWhile_cons_of_neg (by simp [hc]), List.dropWhile_cons_of_neg (by simp [hc])]
    exact ⟨List.append_nil _, rfl⟩

/-- What may follow a number without being read as a part of it. -/
def EndsNumber (rest : List Char) : Prop :=
  ∀ c ∈ rest.head?, isAsciiDigit c = false ∧ c ≠ '.' ∧ c ≠ 'e' ∧ c ≠ 'E'

private theorem jsFraction_text {rest : List Char} (hrest : EndsNumber rest)
    (fraction : Option (List (Fin 10))) :
    jsFraction (Quantity.fractionText fraction ++ rest) =
      ((fraction.getD []).map digitChar, rest) := by
  cases fraction with
  | none =>
    rw [Quantity.fractionText, List.nil_append]
    unfold jsFraction
    split
    · rename_i cs
      exact absurd rfl (hrest '.' rfl).2.1
    · rfl
  | some fs =>
    obtain ⟨htake, hdrop⟩ := takeWhile_digits fs fun c hc => (hrest c hc).1
    rw [Quantity.fractionText, List.cons_append]
    change (_, _) = _
    rw [htake, hdrop]
    rfl

private theorem jsExponent_of_ends {rest : List Char} (hrest : EndsNumber rest) :
    jsExponent rest = 0 := by
  cases rest with
  | nil => rfl
  | cons c rest =>
    obtain ⟨-, -, he, hE⟩ := hrest c rfl
    rw [jsExponent, if_neg (by simp [he, hE])]

/-- `parseFloat` reads the number a text starts with. -/
theorem parseFloat_text (n : PlainNumber) {rest : List Char} (hrest : EndsNumber rest) :
    parseFloat (n.text ++ rest) = .finite n.value := by
  have hspace : ∀ d : Fin 10, isJsSpace (digitChar d) = false := by decide
  obtain ⟨d, cs, hcs⟩ := n.exists_text_eq_cons
  have hinfinity : digitChar d ≠ 'I' := digitChar_ne d (by decide)
  have htail : ∀ c ∈ (Quantity.fractionText n.fraction ++ rest).head?, isAsciiDigit c = false := by
    intro c hc
    cases hfraction : n.fraction with
    | none =>
      rw [hfraction] at hc
      exact (hrest c hc).1
    | some fs =>
      rw [hfraction] at hc
      obtain rfl : '.' = c := Option.some.inj hc
      decide
  obtain ⟨htake, hdrop⟩ := takeWhile_digits n.whole htail
  rw [← List.append_assoc, ← n.text_eq] at htake hdrop
  unfold parseFloat
  rw [hcs, List.cons_append, List.dropWhile_cons_of_neg (by simp [hspace]), sign_digit,
    ← List.cons_append, ← hcs]
  dsimp only
  rw [htake, hdrop, jsFraction_text hrest, jsExponent_of_ends hrest]
  rw [if_neg (by rw [hcs]; simp [hinfinity.symm]), if_neg (by simp [n.hasWhole])]
  rw [← List.map_append, asciiValue_digits, PyText.negateIf, if_neg Bool.false_ne_true]
  simp [PlainNumber.value, PlainNumber.quantity, Quantity.magnitude, div_eq_mul_inv]

/-! ## The suffix -/

theorem SuffixTable.Spells.parseExact_eq {table : SuffixTable} {s : String} {n : PlainNumber}
    {suffix : String} {factor : ℚ} (h : table.Spells s n suffix factor) :
    parseExact table.entries s = some (n.value * factor) := by
  obtain ⟨hmem, htext⟩ := h
  obtain ⟨cs, d, hconcat⟩ := n.exists_text_eq_concat
  unfold parseExact
  dsimp only
  rcases List.mem_cons.mp hmem with heq | hmem
  · obtain ⟨rfl, rfl⟩ := Prod.mk.inj heq
    rw [String.toList_empty, List.append_nil] at htext
    have hfind := table.find?_entries_none (isAlpha_digitChar d) cs
    rw [← hconcat] at hfind
    rw [htext, hfind]
    exact finiteExact_text n 1
  · have hfind := table.find?_entries hmem (isAlpha_digitChar d) cs
    rw [List.append_cons, ← hconcat] at hfind
    rw [htext, hfind]
    dsimp only
    rw [List.length_append, String.length_toList, Nat.add_sub_cancel, List.take_left]
    exact finiteExact_text n factor

private theorem not_spellsApart {table : SuffixTable} {s : String} {n : PlainNumber}
    {suffix : String} {factor : ℚ} (hs : ∀ c ∈ s.toList, PyText.isSpace c = false) :
    ¬ table.SpellsApart s n suffix factor := by
  intro hapart
  have htext := hapart.2
  rw [PyText.strip_of_forall hs] at htext
  have hfeed := hs '\n' (by rw [htext]; simp)
  revert hfeed
  decide

private theorem matches_of_finiteExact {cs : List Char} {factor q : ℚ}
    (h : finiteExact cs factor = some q) : quantityNumberMatches cs := by
  by_contra hno
  rw [finiteExact, if_neg hno] at h
  cases h

/-- A text without blanks that is read is a number and a suffix. -/
theorem spells_of_parseExact {table : SuffixTable} {s : String} {q : ℚ}
    (hs : ∀ c ∈ s.toList, PyText.isSpace c = false) (h : parseExact table.entries s = some q) :
    ∃ n suffix factor, table.Spells s n suffix factor := by
  unfold parseExact at h
  dsimp only at h
  cases hfind : table.entries.find? fun e => e.1.toList.isSuffixOf (PyText.strip s.toList) with
  | none =>
    rw [hfind] at h
    obtain ⟨n, hn⟩ := SuffixTable.spells_of_matches (matches_of_finiteExact h)
    exact ⟨n, "", 1, hn⟩
  | some e =>
    have hsuffix := List.find?_some hfind
    obtain ⟨b, hb⟩ := List.isSuffixOf_iff_suffix.mp hsuffix
    rw [hfind] at h
    dsimp only at h
    rw [← hb, List.length_append, String.length_toList, Nat.add_sub_cancel, List.take_left] at h
    obtain ⟨n, hn | hn⟩ :=
      SuffixTable.spells_of_matches_suffix hfind hb.symm (matches_of_finiteExact h)
    · exact ⟨n, e.1, e.2, hn⟩
    · exact absurd hn (not_spellsApart hs)

/-! ## The browser -/

private theorem isJsSpace_of_isAlpha {c : Char} (h : c.isAlpha) : isJsSpace c = false := by
  have hrange : 65 ≤ c.toNat ∧ c.toNat ≤ 90 ∨ 97 ≤ c.toNat ∧ c.toNat ≤ 122 := by
    rcases Bool.or_eq_true_iff.mp h with hupper | hlower
    · exact Or.inl (of_decide_eq_true hupper)
    · obtain ⟨hge, hle⟩ := Bool.and_eq_true_iff.mp hlower
      exact Or.inr ⟨of_decide_eq_true hge, of_decide_eq_true hle⟩
  simp only [isJsSpace, Bool.or_eq_false_iff, Bool.and_eq_false_iff, decide_eq_false_iff_not]
  omega

private theorem isJsSpace_text (n : PlainNumber) : ∀ c ∈ n.text, isJsSpace c = false := by
  have hdigit : ∀ d : Fin 10, isJsSpace (digitChar d) = false := by decide
  intro c hc
  rw [n.text_eq, List.mem_append] at hc
  rcases hc with hc | hc
  · obtain ⟨d, -, rfl⟩ := List.mem_map.mp hc
    exact hdigit d
  · cases hfraction : n.fraction with
    | none =>
      rw [hfraction] at hc
      cases hc
    | some fs =>
      rw [hfraction, Quantity.fractionText, List.mem_cons] at hc
      rcases hc with rfl | hc
      · decide
      · obtain ⟨d, -, rfl⟩ := List.mem_map.mp hc
        exact hdigit d

/-- The browser trims nothing from a text without blanks that is read. -/
theorem SuffixTable.Spells.jsTrim_eq {table : SuffixTable} {s : String} {n : PlainNumber}
    {suffix : String} {factor : ℚ} (hs : ∀ c ∈ s.toList, PyText.isSpace c = false)
    (h : table.Spells s n suffix factor) : jsTrim s.toList = n.text ++ suffix.toList := by
  obtain ⟨hmem, htext⟩ := h
  rw [PyText.strip_of_forall hs] at htext
  rw [htext]
  apply PyText.trim_of_forall
  intro c hc
  rcases List.mem_append.mp hc with hc | hc
  · exact isJsSpace_text n c hc
  · rcases List.mem_cons.mp hmem with heq | hmem
    · rw [(Prod.mk.inj heq).1] at hc
      cases hc
    · obtain ⟨c', cs, heq, hall⟩ := table.letters _ hmem
      rw [heq] at hc
      exact isJsSpace_of_isAlpha (hall c hc)

/-- The tests of `parseCpuQty` are a search in the table of the backend. -/
theorem parseCpuQty_eq {v : String} (hv : v ≠ "") :
    parseCpuQty v =
      ((cpuEntries.find? fun e => e.1.toList.isSuffixOf (jsTrim v.toList)).elim
        (parseFloat (jsTrim v.toList)).orZero
        fun e => (parseFloat (jsTrim v.toList)).scale e.2) := by
  unfold parseCpuQty cpuEntries
  rw [if_neg hv, List.find?_cons, List.find?_cons, List.find?_cons, List.find?_nil]
  dsimp only
  rw [show "n".toList = ['n'] from rfl, show "u".toList = ['u'] from rfl,
    show "m".toList = ['m'] from rfl]
  cases ['n'].isSuffixOf (jsTrim v.toList) with
  | true => rfl
  | false =>
    cases ['u'].isSuffixOf (jsTrim v.toList) with
    | true => rfl
    | false => cases ['m'].isSuffixOf (jsTrim v.toList) <;> rfl

private theorem ne_empty_of_jsTrim {s : String} {n : PlainNumber} {cs : List Char}
    (h : jsTrim s.toList = n.text ++ cs) : s ≠ "" := by
  rintro rfl
  obtain ⟨d, ds, hds⟩ := n.exists_text_eq_cons
  rw [hds] at h
  cases h

private theorem endsNumber_cpu {e : String × ℚ} (he : e ∈ ("", 1) :: cpuEntries) :
    EndsNumber e.1.toList := by
  have hall : ∀ e ∈ ("", 1) :: cpuEntries, ∀ c ∈ e.1.toList.head?,
      isAsciiDigit c = false ∧ c ≠ '.' ∧ c ≠ 'e' ∧ c ≠ 'E' := by
    simp [cpuEntries, isAsciiDigit]
  exact hall e he

theorem parseCpuQty_spells {s : String} {n : PlainNumber} {suffix : String} {factor : ℚ}
    (hs : ∀ c ∈ s.toList, PyText.isSpace c = false) (h : cpuTable.Spells s n suffix factor) :
    parseCpuQty s = .finite (n.value * factor) := by
  have htrim := h.jsTrim_eq hs
  have hread := parseFloat_text n (endsNumber_cpu h.1)
  obtain ⟨cs, d, hconcat⟩ := n.exists_text_eq_concat
  rw [parseCpuQty_eq (ne_empty_of_jsTrim htrim), htrim, hread]
  rcases List.mem_cons.mp h.1 with heq | hmem
  · obtain ⟨rfl, rfl⟩ := Prod.mk.inj heq
    have hfind := cpuTable.find?_entries_none (SuffixTable.isAlpha_digitChar d) cs
    rw [← hconcat] at hfind
    rw [String.toList_empty, List.append_nil]
    change (cpuTable.entries.find? _).elim _ _ = _
    rw [hfind, mul_one]
    rfl
  · have hfind := cpuTable.find?_entries hmem (SuffixTable.isAlpha_digitChar d) cs
    rw [List.append_cons, ← hconcat] at hfind
    change (cpuTable.entries.find? _).elim _ _ = _
    rw [hfind]
    rfl

theorem parseMemQty_spells {s : String} {n : PlainNumber} {suffix : String} {factor : ℚ}
    (hs : ∀ c ∈ s.toList, PyText.isSpace c = false) (h : memTable.Spells s n suffix factor) :
    parseMemQty s = .finite (n.value * factor) := by
  have htrim := h.jsTrim_eq hs
  have hread : parseFloat (n.text ++ []) = .finite n.value :=
    parseFloat_text n (by simp [EndsNumber])
  rw [List.append_nil] at hread
  obtain ⟨cs, d, hconcat⟩ := n.exists_text_eq_concat
  unfold parseMemQty
  rw [if_neg (ne_empty_of_jsTrim htrim), htrim]
  dsimp only
  rcases List.mem_cons.mp h.1 with heq | hmem
  · obtain ⟨rfl, rfl⟩ := Prod.mk.inj heq
    have hfind : (memQtyFactors.find? fun e =>
        e.1.toList.isSuffixOf (cs ++ [digitChar d])) = none :=
      memTable.find?_entries_none (SuffixTable.isAlpha_digitChar d) cs
    rw [← hconcat] at hfind
    rw [String.toList_empty, List.append_nil, hfind, hread, mul_one]
    rfl
  · have hfind : (memQtyFactors.find? fun e =>
        e.1.toList.isSuffixOf (cs ++ digitChar d :: suffix.toList)) = some (suffix, factor) :=
      memTable.find?_entries hmem (SuffixTable.isAlpha_digitChar d) cs
    rw [List.append_cons, ← hconcat] at hfind
    rw [hfind]
    dsimp only
    rw [List.length_append, String.length_toList, Nat.add_sub_cancel, List.take_left, hread]
    rfl

/-- What one parser accepts, with the exact number of the other. -/
def ReadAlike (parse : String → Except PyError PyFloat) (exact : String → Option ℚ)
    (browser : String → JsNumber) (s : String) : Prop :=
  (∀ x, parse s = .ok x → (exact s).isSome) ∧ ∀ q, exact s = some q → browser s = .finite q

private theorem readAlike_of_spells {table : SuffixTable} {browser : String → JsNumber}
    {s : String} (hs : ∀ c ∈ s.toList, PyText.isSpace c = false)
    (hbrowser : ∀ n suffix factor, table.Spells s n suffix factor →
      browser s = .finite (n.value * factor)) :
    ReadAlike (parseOrRaise table.factors) (parseExact table.entries) browser s := by
  constructor
  · intro x hx
    obtain ⟨n, suffix, factor, hspells | hapart⟩ := SuffixTable.spells_of_parse hx
    · rw [hspells.parseExact_eq]
      rfl
    · exact absurd hapart (not_spellsApart hs)
  · intro q hq
    obtain ⟨n, suffix, factor, hspells⟩ := spells_of_parseExact hs hq
    rw [hspells.parseExact_eq] at hq
    rw [hbrowser n suffix factor hspells, Option.some.inj hq]

/-- A text without blanks that the backend accepts is the same number in the browser. -/
theorem quantities_read_alike {s : String} (hs : ∀ c ∈ s.toList, PyText.isSpace c = false) :
    ReadAlike parseCpuOrRaise parseCpuExact parseCpuQty s ∧
      ReadAlike parseMemOrRaise parseMemExact parseMemQty s := by
  have hcpu := readAlike_of_spells hs fun _ _ _ h => parseCpuQty_spells hs h
  have hmem := readAlike_of_spells hs fun _ _ _ h => parseMemQty_spells hs h
  rw [factors_cpuTable] at hcpu
  rw [factors_memTable] at hmem
  exact ⟨hcpu, hmem⟩

theorem isSpace_eq_false_of_any {cs : List Char} (h : cs.any PyText.isSpace = false) :
    ∀ c ∈ cs, PyText.isSpace c = false := by
  intro c hc
  rw [List.any_eq_false] at h
  exact Bool.eq_false_of_not_eq_true (h c hc)

theorem quantities_read_alike_suffixes :
    parseCpuQty "250m" = .finite (1 / 4) ∧ parseMemQty "1.5Gi" = .finite (3 * 2 ^ 29) := by
  have hcpu : parseCpuExact "250m" = some (1 / 4) := by decide +kernel
  have hmem : parseMemExact "1.5Gi" = some (3 * 2 ^ 29) := by decide +kernel
  exact ⟨(quantities_read_alike (isSpace_eq_false_of_any (by decide))).1.2 _ hcpu,
    (quantities_read_alike (isSpace_eq_false_of_any (by decide))).2.2 _ hmem⟩

end PiWatch
