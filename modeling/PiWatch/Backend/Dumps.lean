import PiWatch.Backend.NumberText

/-!
# `json.dumps`

The text of a JSON value, as `json.dumps` prints it by default: ASCII only, and with names for
the floats that JSON has no text for. The text is valid JSON exactly if there are none of them.
-/

namespace PiWatch

open JsonGrammar

namespace Json

mutual

/-- No number in a value is a float that is not finite. -/
def isFinite : Json → Bool
  | .num x => x.isFinite
  | .arr xs => isFiniteList xs
  | .obj fields => isFiniteFields fields
  | _ => true

def isFiniteList : List Json → Bool
  | [] => true
  | x :: xs => x.isFinite && isFiniteList xs

def isFiniteFields : List (String × Json) → Bool
  | [] => true
  | (_, v) :: fields => v.isFinite && isFiniteFields fields

end

def hexDigit (n : ℕ) : Char := (n % 16).digitChar

/-- `'\\u{0:04x}'.format(n)`. -/
def unicodeEscape (n : ℕ) : List Char :=
  ['\\', 'u', hexDigit (n / 4096), hexDigit (n / 256), hexDigit (n / 16), hexDigit n]

/-- One character of a string; one beyond the basic plane is a surrogate pair. -/
def escapeChar (c : Char) : List Char :=
  if c = '"' ∨ c = '\\' then ['\\', c]
  else if c = '\n' then ['\\', 'n']
  else if c = '\r' then ['\\', 'r']
  else if c = '\t' then ['\\', 't']
  else if c = '\x0c' then ['\\', 'f']
  else if c = '\x08' then ['\\', 'b']
  else if ' ' ≤ c ∧ c ≤ '~' then [c]
  else if c.toNat < 0x10000 then unicodeEscape c.toNat
  else
    unicodeEscape (0xd800 + (c.toNat - 0x10000) / 0x400) ++
      unicodeEscape (0xdc00 + (c.toNat - 0x10000) % 0x400)

def stringText (s : String) : List Char := '"' :: (s.toList.flatMap escapeChar ++ ['"'])

/-- An `int` prints without a point, a `float` with its `repr`. -/
def numberText (isInt : Bool) : PyFloat → List Char
  | .finite q => if isInt ∧ q.den = 1 then PyText.intText q.num else PyText.floatText (.finite q)
  | x => PyText.floatText x

/-- The keys and indices that lead to a number, and whether Python has an `int` there. -/
abbrev Places := List String → Bool

def Places.at (isInt : Places) (key : String) : Places := fun place => isInt (key :: place)

mutual

def dumps (isInt : Places) : Json → List Char
  | .null => ['n', 'u', 'l', 'l']
  | .bool b => if b then ['t', 'r', 'u', 'e'] else ['f', 'a', 'l', 's', 'e']
  | .num x => numberText (isInt []) x
  | .str s => stringText s
  | .arr xs => '[' :: (dumpsList isInt 0 [] xs ++ [']'])
  | .obj fields => '{' :: (dumpsFields isInt [] fields ++ ['}'])

/-- The items from the one with index `i` on, the first of them after `separator`. -/
def dumpsList (isInt : Places) (i : ℕ) (separator : List Char) : List Json → List Char
  | [] => []
  | x :: xs => separator ++ (dumps (isInt.at (toString i)) x ++
      dumpsList isInt (i + 1) [',', ' '] xs)

def dumpsFields (isInt : Places) (separator : List Char) : List (String × Json) → List Char
  | [] => []
  | (k, v) :: fields => separator ++ (stringText k ++ (':' :: ' ' :: (dumps (isInt.at k) v ++
      dumpsFields isInt [',', ' '] fields)))

end

/-! ## Strings and numbers are valid -/

private theorem isHexDigit_hexDigit (n : ℕ) : isHexDigit (hexDigit n) := by
  have hall : ∀ d : Fin 16, isHexDigit (d : ℕ).digitChar := by decide
  exact hall ⟨n % 16, Nat.mod_lt n (by decide)⟩

private theorem isChars_unicodeEscape (n : ℕ) {cs : List Char} (h : IsChars cs) :
    IsChars (unicodeEscape n ++ cs) := by
  refine .hex (fun x hx => ?_) h
  simp only [List.mem_cons, List.not_mem_nil, or_false] at hx
  rcases hx with rfl | rfl | rfl | rfl <;> exact isHexDigit_hexDigit _

private theorem isChars_escapeChar (c : Char) {cs : List Char} (h : IsChars cs) :
    IsChars (escapeChar c ++ cs) := by
  unfold escapeChar
  split
  · rename_i hc
    rcases hc with rfl | rfl <;> exact .escape (by decide) h
  · rename_i hc
    rw [not_or] at hc
    split_ifs with _ _ _ _ _ hplain
    · exact .escape (by decide) h
    · exact .escape (by decide) h
    · exact .escape (by decide) h
    · exact .escape (by decide) h
    · exact .escape (by decide) h
    · exact .unescaped (by simp [isUnescaped, hplain.1, hc]) h
    · exact isChars_unicodeEscape _ h
    · rw [List.append_assoc]
      exact isChars_unicodeEscape _ (isChars_unicodeEscape _ h)

theorem isString_stringText (s : String) : IsString (stringText s) := by
  refine .quoted ?_
  induction s.toList with
  | nil => exact .nil
  | cons c cs ih => exact isChars_escapeChar c ih

theorem isNumber_numberText (isInt : Bool) {x : PyFloat} (h : x.isFinite) :
    IsNumber (numberText isInt x) := by
  unfold numberText
  split
  · split
    · exact PyText.isNumber_intText _
    · exact PyText.isNumber_floatText h
  · exact PyText.isNumber_floatText h

private theorem scan_numberText (isInt : Bool) {x : PyFloat} (h : ¬ x.isFinite) :
    scan .outside (numberText isInt x) = .stray := by
  unfold numberText
  split
  · exact absurd rfl h
  · exact PyText.scan_floatText h

/-! ## Values without such floats print valid texts -/

mutual

theorem isValue_dumps (isInt : Places) : ∀ j : Json, j.isFinite → IsValue (dumps isInt j)
  | .null, _ => .null
  | .bool b, _ => by
    cases b
    · exact .false
    · exact .true
  | .num _, h => .number (isNumber_numberText _ h)
  | .str s, _ => .string (isString_stringText s)
  | .arr xs, h => by
    cases xs with
    | nil => exact .emptyArray isBlank_nil
    | cons x xs =>
      rw [isFinite, isFiniteList, Bool.and_eq_true] at h
      exact .array (isElements_dumpsList isInt 1 xs h.2 (isValue_dumps _ x h.1).isText)
  | .obj fields, h => by
    cases fields with
    | nil => exact .emptyObject isBlank_nil
    | cons field fields =>
      rw [isFinite, isFiniteFields, Bool.and_eq_true] at h
      exact .object (isMembers_dumpsFields isInt fields h.2 isBlank_nil
        (isString_stringText field.1) (isValue_dumps _ field.2 h.1).isText.space)

private theorem isElements_dumpsList (isInt : Places) (i : ℕ) : ∀ xs : List Json,
    isFiniteList xs → ∀ {cs : List Char}, IsText cs →
    IsElements (cs ++ dumpsList isInt i [',', ' '] xs)
  | [], _, cs, h => by
    rw [dumpsList, List.append_nil]
    exact .last h
  | x :: xs, hxs, cs, h => by
    rw [isFiniteList, Bool.and_eq_true] at hxs
    exact .more h (isElements_dumpsList isInt (i + 1) xs hxs.2
      (isValue_dumps _ x hxs.1).isText.space)

private theorem isMembers_dumpsFields (isInt : Places) : ∀ fields : List (String × Json),
    isFiniteFields fields → ∀ {left name cs : List Char}, IsBlank left → IsString name →
    IsText cs → IsMembers (left ++ (name ++ ':' :: (cs ++ dumpsFields isInt [',', ' '] fields)))
  | [], _, left, name, cs, hleft, hname, h => by
    rw [dumpsFields, List.append_nil]
    exact .last hleft hname isBlank_nil h
  | (k, v) :: fields, hfields, left, name, cs, hleft, hname, h => by
    rw [isFiniteFields, Bool.and_eq_true] at hfields
    exact .more hleft hname isBlank_nil h (isMembers_dumpsFields isInt fields hfields.2
      isBlank_space (isString_stringText k) (isValue_dumps _ v hfields.1).isText.space)

end

/-! ## The others do not -/

mutual

private theorem scan_dumps (isInt : Places) : ∀ j : Json, j.isFinite = false →
    scan .outside (dumps isInt j) = .stray
  | .null, h | .bool _, h | .str _, h => by cases h
  | .num _, h => scan_numberText _ (Bool.eq_false_iff.mp h)
  | .arr xs, h => by
    rw [dumps, scan_cons_of_isQuiet (by decide), scan_append, scan_dumpsList isInt 0 [] rfl xs h,
      scan_stray]
  | .obj fields, h => by
    rw [dumps, scan_cons_of_isQuiet (by decide), scan_append,
      scan_dumpsFields isInt [] rfl fields h, scan_stray]

private theorem scan_dumpsList (isInt : Places) (i : ℕ) (separator : List Char)
    (hsep : scan .outside separator = .outside) : ∀ xs : List Json, isFiniteList xs = false →
    scan .outside (dumpsList isInt i separator xs) = .stray
  | [], h => by cases h
  | x :: xs, h => by
    rw [dumpsList, scan_append, hsep, scan_append]
    cases hx : x.isFinite with
    | false => rw [scan_dumps _ x hx, scan_stray]
    | true =>
      rw [isFiniteList, hx, Bool.true_and] at h
      rw [scan_value (isValue_dumps _ x hx), scan_dumpsList isInt (i + 1) [',', ' '] rfl xs h]

private theorem scan_dumpsFields (isInt : Places) (separator : List Char)
    (hsep : scan .outside separator = .outside) : ∀ fields : List (String × Json),
    isFiniteFields fields = false → scan .outside (dumpsFields isInt separator fields) = .stray
  | [], h => by cases h
  | (k, v) :: fields, h => by
    rw [dumpsFields, scan_append, hsep, scan_append, scan_string (isString_stringText k),
      scan_cons_of_isQuiet (by decide), scan_cons_of_isQuiet (by decide), scan_append]
    cases hv : v.isFinite with
    | false => rw [scan_dumps _ v hv, scan_stray]
    | true =>
      rw [isFiniteFields, hv, Bool.true_and] at h
      rw [scan_value (isValue_dumps _ v hv), scan_dumpsFields isInt [',', ' '] rfl fields h]

end

/-- What `dumps` prints is a JSON text exactly if every number in the value is finite. -/
theorem isText_dumps_iff (isInt : Places) (j : Json) : IsText (dumps isInt j) ↔ j.isFinite := by
  constructor
  · intro htext
    by_contra hfinite
    have hstray := scan_dumps isInt j (Bool.eq_false_iff.mpr hfinite)
    rw [scan_text htext] at hstray
    cases hstray
  · intro hfinite
    exact (isValue_dumps isInt j hfinite).isText

end Json

end PiWatch
