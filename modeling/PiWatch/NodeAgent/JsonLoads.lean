import PiWatch.Framework.JsonGrammar
import PiWatch.NodeAgent.PyValues

/-!
# `json.loads`

The scanner of the standard library. It reads the literals `NaN` and `Infinity` besides JSON. What
it cannot read is a `JSONDecodeError`, but an integer with too many digits raises a plain
`ValueError` and nesting beyond the recursion limit a `RecursionError`.
-/

namespace PiWatch

namespace NodeAgent

open JsonGrammar

/-- What was read from the head of a text and what follows it, which is shorter. -/
abbrev Scanned (α : Type) (cs : List Char) := {r : α × List Char // r.2.length < cs.length}

def skipBlanks (cs : List Char) : List Char := cs.dropWhile isBlank

theorem length_skipBlanks_le (cs : List Char) : (skipBlanks cs).length ≤ cs.length :=
  (List.dropWhile_sublist _).length_le

theorem length_lt_of_skipBlanks {cs rest : List Char} {c : Char} (h : skipBlanks cs = c :: rest) :
    rest.length < cs.length := by
  have hle := length_skipBlanks_le cs
  rw [h, List.length_cons] at hle
  omega

/-! ## Strings -/

def hexValue (c : Char) : Option ℕ :=
  if c.isDigit then some (c.toNat - '0'.toNat)
  else if 'a' ≤ c ∧ c ≤ 'f' then some (c.toNat - 'a'.toNat + 10)
  else if 'A' ≤ c ∧ c ≤ 'F' then some (c.toNat - 'A'.toNat + 10)
  else none

/-- The four digits of a `\u` escape. -/
def hexQuad (a b c d : Char) : Option ℕ := do
  return (((← hexValue a) * 16 + (← hexValue b)) * 16 + (← hexValue c)) * 16 + (← hexValue d)

/-- The escapes of one character. -/
def escaped : Char → Option ℕ
  | '"' => some 0x22
  | '\\' => some 0x5c
  | '/' => some 0x2f
  | 'b' => some 0x8
  | 'f' => some 0xc
  | 'n' => some 0xa
  | 'r' => some 0xd
  | 't' => some 0x9
  | _ => none

/-- The rest of a string after its opening quote: its units and what follows the closing quote. -/
def scanUnits : List Char → Option (List ℕ × List Char)
  | '"' :: cs => some ([], cs)
  | '\\' :: 'u' :: a :: b :: c :: d :: cs => do
    let unit ← hexQuad a b c d
    let (units, rest) ← scanUnits cs
    return (unit :: units, rest)
  | '\\' :: c :: cs => do
    let unit ← escaped c
    let (units, rest) ← scanUnits cs
    return (unit :: units, rest)
  | c :: cs => do
    if c.toNat < 0x20 ∨ c = '\\' then none
    else
      let (units, rest) ← scanUnits cs
      return (c.toNat :: units, rest)
  | [] => none

/-- A high surrogate and a low one after it are one code point. -/
def joinSurrogates : List ℕ → List ℕ
  | high :: low :: units =>
    if 0xd800 ≤ high ∧ high < 0xdc00 ∧ 0xdc00 ≤ low ∧ low < 0xe000 then
      (0x10000 + (high - 0xd800) * 0x400 + (low - 0xdc00)) :: joinSurrogates units
    else high :: joinSurrogates (low :: units)
  | units => units

theorem length_scanUnits_lt {cs rest : List Char} {units : List ℕ}
    (h : scanUnits cs = some (units, rest)) : rest.length < cs.length := by
  fun_induction scanUnits cs generalizing units rest with
  | case1 cs =>
    obtain ⟨-, rfl⟩ := Prod.mk.inj (Option.some.inj h)
    simp
  | case2 a b c d cs ih =>
    simp only [Option.bind_eq_bind, Option.bind_eq_some_iff] at h
    obtain ⟨unit, -, ⟨units', rest'⟩, htail, heq⟩ := h
    obtain ⟨-, rfl⟩ := Prod.mk.inj (Option.some.inj heq)
    have := ih htail
    simp only [List.length_cons]
    omega
  | case3 c cs _ ih =>
    simp only [Option.bind_eq_bind, Option.bind_eq_some_iff] at h
    obtain ⟨unit, -, ⟨units', rest'⟩, htail, heq⟩ := h
    obtain ⟨-, rfl⟩ := Prod.mk.inj (Option.some.inj heq)
    have := ih htail
    simp only [List.length_cons]
    omega
  | case4 c cs => cases h
  | case5 c cs _ _ _ _ ih =>
    simp only [Option.bind_eq_bind, Option.bind_eq_some_iff] at h
    obtain ⟨⟨units', rest'⟩, htail, heq⟩ := h
    obtain ⟨-, rfl⟩ := Prod.mk.inj (Option.some.inj heq)
    have := ih htail
    simp only [List.length_cons]
    omega
  | case6 => cases h

/-- A string after its opening quote. -/
def scanString (cs : List Char) : Except ReadError (Scanned (List ℕ) cs) :=
  match h : scanUnits cs with
  | some (units, rest) => .ok ⟨(joinSurrogates units, rest), length_scanUnits_lt h⟩
  | none => .error .jsonDecodeError

/-! ## Numbers -/

/-- The digits at the head of a text, if there are any. -/
def scanDigits (cs : List Char) : Option (List Char × List Char) :=
  match cs.span Char.isDigit with
  | ([], _) => none
  | (ds, rest) => some (ds, rest)

/-- The integer part: a zero stands alone. -/
def scanInt : List Char → Option (List Char × List Char)
  | '0' :: cs => some (['0'], cs)
  | cs => scanDigits cs

def scanFraction : List Char → List Char × List Char
  | '.' :: cs =>
    match scanDigits cs with
    | some (ds, rest) => ('.' :: ds, rest)
    | none => ([], '.' :: cs)
  | cs => ([], cs)

def scanExponent : List Char → List Char × List Char
  | c :: cs =>
    if c = 'e' ∨ c = 'E' then
      let (sign, body) :=
        match cs with
        | '+' :: cs => (['+'], cs)
        | '-' :: cs => (['-'], cs)
        | cs => ([], cs)
      match scanDigits body with
      | some (ds, rest) => ('e' :: sign ++ ds, rest)
      | none => ([], c :: cs)
    else ([], c :: cs)
  | [] => ([], [])

theorem length_scanDigits_lt {cs ds rest : List Char} (h : scanDigits cs = some (ds, rest)) :
    rest.length < cs.length := by
  have hspan : cs.takeWhile Char.isDigit ++ cs.dropWhile Char.isDigit = cs :=
    List.takeWhile_append_dropWhile
  have hlen := congrArg List.length hspan
  rw [List.length_append] at hlen
  unfold scanDigits at h
  rw [List.span_eq_takeWhile_dropWhile] at h
  split at h
  · cases h
  · rename_i ds' rest' hne heq
    obtain ⟨rfl, rfl⟩ := Prod.mk.inj (Option.some.inj h)
    obtain ⟨hds, rfl⟩ := Prod.mk.inj heq
    have hpos : 0 < (cs.takeWhile Char.isDigit).length := by
      rw [List.length_pos_iff, hds]
      exact hne
    omega

theorem length_scanInt_lt {cs ds rest : List Char} (h : scanInt cs = some (ds, rest)) :
    rest.length < cs.length := by
  unfold scanInt at h
  split at h
  · obtain ⟨-, rfl⟩ := Prod.mk.inj (Option.some.inj h)
    simp
  · exact length_scanDigits_lt h

theorem length_scanFraction_le (cs : List Char) : (scanFraction cs).2.length ≤ cs.length := by
  unfold scanFraction
  split
  · split
    · rename_i heq
      have := length_scanDigits_lt heq
      simp only [List.length_cons]
      omega
    · exact le_rfl
  · exact le_rfl

theorem length_scanExponent_le (cs : List Char) : (scanExponent cs).2.length ≤ cs.length := by
  unfold scanExponent
  split
  · rename_i c cs
    split_ifs
    · split
      rename_i sign body hsign
      have hbody : body.length ≤ cs.length := by
        split at hsign <;> obtain ⟨-, rfl⟩ := Prod.mk.inj hsign <;> simp
      split
      · rename_i heq
        have := length_scanDigits_lt heq
        simp only [List.length_cons]
        omega
      · exact le_rfl
    · exact le_rfl
  · exact le_rfl

def scanMinus : List Char → List Char × List Char
  | '-' :: cs => (['-'], cs)
  | cs => ([], cs)

theorem length_scanMinus_le (cs : List Char) : (scanMinus cs).2.length ≤ cs.length := by
  unfold scanMinus
  split <;> simp

/-- The parts of a number: its integer, its fraction and exponent, and what follows. -/
def scanParts (cs : List Char) : Option ((List Char × List Char) × List Char) := do
  let (minus, body) := scanMinus cs
  let (int, rest) ← scanInt body
  let (fraction, rest) := scanFraction rest
  let (exponent, rest) := scanExponent rest
  return ((minus ++ int, fraction ++ exponent), rest)

theorem length_scanParts_lt {cs rest : List Char} {parts : List Char × List Char}
    (h : scanParts cs = some (parts, rest)) : rest.length < cs.length := by
  simp only [scanParts, Option.bind_eq_bind, Option.bind_eq_some_iff] at h
  obtain ⟨⟨int, rest'⟩, hint, heq⟩ := h
  obtain ⟨-, rfl⟩ := Prod.mk.inj (Option.some.inj heq)
  calc
    _ ≤ (scanFraction rest').2.length := length_scanExponent_le _
    _ ≤ rest'.length := length_scanFraction_le _
    _ < (scanMinus cs).2.length := length_scanInt_lt hint
    _ ≤ cs.length := length_scanMinus_le cs

/-- An integer, or a float if there is a fraction or an exponent. -/
def scanNumber (cs : List Char) : Except ReadError (Scanned PyValue cs) :=
  match h : scanParts cs with
  | none => .error .jsonDecodeError
  | some ((int, []), rest) => do
    return ⟨(.int (← valueOrRaise (intOf? int)), rest), length_scanParts_lt h⟩
  | some ((int, tail), rest) => do
    return ⟨(.float (← valueOrRaise (floatOf? (int ++ tail))), rest), length_scanParts_lt h⟩

/-! ## Values -/

/-- The literals, and the numbers that are none of JSON. -/
def literals : List (List Char × PyValue) :=
  [("null".toList, .none), ("true".toList, .bool true), ("false".toList, .bool false),
    ("NaN".toList, .float .nan), ("Infinity".toList, .float .posInf),
    ("-Infinity".toList, .float .negInf)]

theorem literals_ne_nil : ∀ entry ∈ literals, entry.1 ≠ [] := by decide

/-- A value that is neither a string, a list nor a dictionary. -/
def scanAtom (cs : List Char) : Except ReadError (Scanned PyValue cs) :=
  match h : literals.find? fun entry => entry.1.isPrefixOf cs with
  | some (literal, v) =>
    .ok ⟨(v, cs.drop literal.length), by
      have hprefix := List.find?_some h
      have hpos := List.length_pos_iff.mpr (literals_ne_nil _ (List.mem_of_find?_eq_some h))
      have hle := (List.isPrefixOf_iff_prefix.mp hprefix).length_le
      dsimp only at hpos hle ⊢
      rw [List.length_drop]
      omega⟩
  | none => scanNumber cs

/-- A scanner of one item. -/
abbrev Scanner (α : Type) := (cs : List Char) → Except ReadError (Scanned α cs)

/-- Items between commas, up to the closing bracket. -/
def scanItems {α : Type} (close : Char) (scan : Scanner α) (cs : List Char) :
    Except ReadError (Scanned (List α) cs) := do
  let ⟨(item, rest), hitem⟩ ← scan cs
  match hnext : skipBlanks rest with
  | [] => .error .jsonDecodeError
  | c :: rest' =>
    have hrest := (length_lt_of_skipBlanks hnext).trans hitem
    if c = close then return ⟨([item], rest'), hrest⟩
    else if c = ',' then
      have hskip := (length_skipBlanks_le rest').trans_lt hrest
      let ⟨(items, rest''), hitems⟩ ← scanItems close scan (skipBlanks rest')
      return ⟨(item :: items, rest''), hitems.trans hskip⟩
    else .error .jsonDecodeError
termination_by cs.length

/-- The inside of brackets: nothing or items. -/
def scanBracketed {α : Type} (close : Char) (scan : Scanner α) (cs : List Char) :
    Except ReadError (Scanned (List α) cs) :=
  match hskip : skipBlanks cs with
  | [] => .error .jsonDecodeError
  | c :: rest =>
    if c = close then .ok ⟨([], rest), length_lt_of_skipBlanks hskip⟩
    else do
      let ⟨r, hr⟩ ← scanItems close scan (c :: rest)
      return ⟨r, hr.trans_le (hskip ▸ length_skipBlanks_le cs)⟩

/-- A key, a colon and a value. -/
def scanMember (scan : Scanner PyValue) : Scanner (List ℕ × PyValue)
  | '"' :: cs => do
    let ⟨(key, rest), hkey⟩ ← scanString cs
    match hcolon : skipBlanks rest with
    | ':' :: rest' =>
      have hrest := (length_lt_of_skipBlanks hcolon).trans hkey
      have hskip := (length_skipBlanks_le rest').trans_lt hrest
      let ⟨(v, rest''), hvalue⟩ ← scan (skipBlanks rest')
      return ⟨((key, v), rest''), (hvalue.trans hskip).trans (Nat.lt_succ_self _)⟩
    | _ => .error .jsonDecodeError
  | _ => .error .jsonDecodeError

/-- One value, nested at most `depth` deep. A key that comes again keeps its last value. -/
def scanOnce : ℕ → Scanner PyValue
  | _, '"' :: cs => do
    let ⟨(text, rest), h⟩ ← scanString cs
    return ⟨(.str text, rest), h.trans (Nat.lt_succ_self _)⟩
  | 0, '[' :: _ | 0, '{' :: _ => .error .recursionError
  | depth + 1, '[' :: cs => do
    let ⟨(items, rest), h⟩ ← scanBracketed ']' (scanOnce depth) cs
    return ⟨(.list items, rest), h.trans (Nat.lt_succ_self _)⟩
  | depth + 1, '{' :: cs => do
    let ⟨(entries, rest), h⟩ ← scanBracketed '}' (scanMember (scanOnce depth)) cs
    return ⟨(.dict (Dict.ofList entries).entries, rest), h.trans (Nat.lt_succ_self _)⟩
  | _, cs => scanAtom cs

/-- `json.loads(text)`. -/
def loads (depth : ℕ) (cs : List Char) : Except ReadError PyValue := do
  if cs.head? = some '\ufeff' then .error .jsonDecodeError
  else
    let ⟨(v, rest), _⟩ ← scanOnce depth (skipBlanks cs)
    if skipBlanks rest = [] then return v else .error .jsonDecodeError

end NodeAgent

end PiWatch
