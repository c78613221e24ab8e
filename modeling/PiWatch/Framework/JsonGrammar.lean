import Mathlib.Data.List.Basic

/-!
# JSON texts

The grammar of RFC 8259, one predicate for each of its rules, and a scanner that follows where
the strings of a text are. Outside its strings a JSON text has no `N` and no `I`, so the
tokens `NaN` and `Infinity` stand in none.
-/

namespace PiWatch

namespace JsonGrammar

/-! ## The grammar -/

def isBlank (c : Char) : Bool := c = ' ' || c = '\t' || c = '\n' || c = '\r'

/-- `ws`. -/
def IsBlank (cs : List Char) : Prop := ∀ c ∈ cs, isBlank c

/-- `1*DIGIT`. -/
def IsDigits (cs : List Char) : Prop := cs ≠ [] ∧ ∀ c ∈ cs, c.isDigit

inductive IsInt : List Char → Prop
  | zero : IsInt ['0']
  | nonzero {c : Char} {cs : List Char} (hc : c.isDigit) (hne : c ≠ '0')
      (hcs : ∀ c ∈ cs, c.isDigit) : IsInt (c :: cs)

inductive IsFrac : List Char → Prop
  | none : IsFrac []
  | digits {cs : List Char} (h : IsDigits cs) : IsFrac ('.' :: cs)

inductive IsExp : List Char → Prop
  | none : IsExp []
  | digits {e : Char} {sign cs : List Char} (he : e = 'e' ∨ e = 'E')
      (hsign : sign ∈ [[], ['+'], ['-']]) (h : IsDigits cs) : IsExp (e :: (sign ++ cs))

/-- A number without its sign. -/
inductive IsUnsigned : List Char → Prop
  | parts {int frac exp : List Char} (hint : IsInt int) (hfrac : IsFrac frac)
      (hexp : IsExp exp) : IsUnsigned (int ++ (frac ++ exp))

inductive IsNumber : List Char → Prop
  | positive {cs : List Char} (h : IsUnsigned cs) : IsNumber cs
  | negative {cs : List Char} (h : IsUnsigned cs) : IsNumber ('-' :: cs)

def isUnescaped (c : Char) : Bool := ' ' ≤ c && c ≠ '"' && c ≠ '\\'

def isHexDigit (c : Char) : Bool :=
  c.isDigit || ('a' ≤ c && c ≤ 'f') || ('A' ≤ c && c ≤ 'F')

/-- `*char`. -/
inductive IsChars : List Char → Prop
  | nil : IsChars []
  | unescaped {c : Char} {cs : List Char} (hc : isUnescaped c) (h : IsChars cs) :
      IsChars (c :: cs)
  | escape {c : Char} {cs : List Char}
      (hc : c ∈ ['"', '\\', '/', 'b', 'f', 'n', 'r', 't']) (h : IsChars cs) :
      IsChars ('\\' :: c :: cs)
  | hex {a b c d : Char} {cs : List Char} (hdigits : ∀ x ∈ [a, b, c, d], isHexDigit x)
      (h : IsChars cs) : IsChars ('\\' :: 'u' :: a :: b :: c :: d :: cs)

inductive IsString : List Char → Prop
  | quoted {cs : List Char} (h : IsChars cs) : IsString ('"' :: (cs ++ ['"']))

mutual

inductive IsValue : List Char → Prop
  | null : IsValue ['n', 'u', 'l', 'l']
  | true : IsValue ['t', 'r', 'u', 'e']
  | false : IsValue ['f', 'a', 'l', 's', 'e']
  | number {cs : List Char} (h : IsNumber cs) : IsValue cs
  | string {cs : List Char} (h : IsString cs) : IsValue cs
  | emptyArray {cs : List Char} (h : IsBlank cs) : IsValue ('[' :: (cs ++ [']']))
  | array {cs : List Char} (h : IsElements cs) : IsValue ('[' :: (cs ++ [']']))
  | emptyObject {cs : List Char} (h : IsBlank cs) : IsValue ('{' :: (cs ++ ['}']))
  | object {cs : List Char} (h : IsMembers cs) : IsValue ('{' :: (cs ++ ['}']))

/-- `JSON-text`: a value with blanks around it. -/
inductive IsText : List Char → Prop
  | padded {left cs right : List Char} (hleft : IsBlank left) (h : IsValue cs)
      (hright : IsBlank right) : IsText (left ++ (cs ++ right))

inductive IsElements : List Char → Prop
  | last {cs : List Char} (h : IsText cs) : IsElements cs
  | more {cs rest : List Char} (h : IsText cs) (hrest : IsElements rest) :
      IsElements (cs ++ ',' :: rest)

inductive IsMembers : List Char → Prop
  | last {left name right cs : List Char} (hleft : IsBlank left) (hname : IsString name)
      (hright : IsBlank right) (h : IsText cs) :
      IsMembers (left ++ (name ++ (right ++ ':' :: cs)))
  | more {left name right cs rest : List Char} (hleft : IsBlank left) (hname : IsString name)
      (hright : IsBlank right) (h : IsText cs) (hrest : IsMembers rest) :
      IsMembers (left ++ (name ++ (right ++ ':' :: (cs ++ ',' :: rest))))

end

theorem isBlank_nil : IsBlank [] := by simp [IsBlank]

theorem isBlank_space : IsBlank [' '] := by simp [IsBlank, isBlank]

theorem IsValue.isText {cs : List Char} (h : IsValue cs) : IsText cs := by
  have htext := IsText.padded isBlank_nil h isBlank_nil
  rwa [List.nil_append, List.append_nil] at htext

/-- A blank before a text. -/
theorem IsText.space {cs : List Char} (h : IsText cs) : IsText (' ' :: cs) := by
  cases h with
  | padded hleft h hright =>
    refine IsText.padded (List.forall_mem_cons.mpr ⟨rfl, hleft⟩) h hright

theorem IsInt.isUnsigned {cs : List Char} (h : IsInt cs) : IsUnsigned cs := by
  have hparts := IsUnsigned.parts h .none .none
  rwa [List.append_nil, List.append_nil] at hparts

/-- A number with digits behind its point. -/
theorem IsInt.isUnsigned_append {int cs : List Char} (h : IsInt int) (hcs : IsDigits cs) :
    IsUnsigned (int ++ '.' :: cs) := by
  have hparts := IsUnsigned.parts h (.digits hcs) .none
  rwa [List.append_nil] at hparts

/-! ## Where the strings are -/

/-- What a scanner of a text is in: no string, a string, an escape of one. `stray` is for good. -/
inductive Mode
  | outside
  | inString
  | escaped
  | stray
  deriving DecidableEq

def next : Mode → Char → Mode
  | .outside, c => if c = '"' then .inString else if c = 'N' ∨ c = 'I' then .stray else .outside
  | .inString, c => if c = '"' then .outside else if c = '\\' then .escaped else .inString
  | .escaped, _ => .inString
  | .stray, _ => .stray

def scan (m : Mode) (cs : List Char) : Mode := cs.foldl next m

@[simp] theorem scan_nil (m : Mode) : scan m [] = m := rfl

@[simp] theorem scan_cons (m : Mode) (c : Char) (cs : List Char) :
    scan m (c :: cs) = scan (next m c) cs := rfl

@[simp] theorem scan_append (m : Mode) (cs ds : List Char) :
    scan m (cs ++ ds) = scan (scan m cs) ds := List.foldl_append

@[simp] theorem scan_stray (cs : List Char) : scan .stray cs = .stray := by
  induction cs with
  | nil => rfl
  | cons c cs ih => exact ih

/-- Characters that mean nothing to the scanner outside strings. -/
def IsQuiet (c : Char) : Prop := c ≠ '"' ∧ c ≠ 'N' ∧ c ≠ 'I'

instance : DecidablePred IsQuiet := fun _ => inferInstanceAs (Decidable (_ ∧ _ ∧ _))

theorem scan_cons_of_isQuiet {c : Char} (h : IsQuiet c) (cs : List Char) :
    scan .outside (c :: cs) = scan .outside cs := by
  rw [scan_cons, next, if_neg h.1, if_neg (not_or.mpr h.2)]

theorem scan_of_isQuiet {cs : List Char} (h : ∀ c ∈ cs, IsQuiet c) :
    scan .outside cs = .outside := by
  induction cs with
  | nil => rfl
  | cons c cs ih =>
    rw [List.forall_mem_cons] at h
    rw [scan_cons_of_isQuiet h.1, ih h.2]

/-- Brackets around something keep the scanner as the inside does. -/
theorem scan_brackets {o c : Char} (ho : IsQuiet o) (hc : IsQuiet c) {cs : List Char}
    (h : scan .outside cs = .outside) : scan .outside (o :: (cs ++ [c])) = .outside := by
  rw [scan_cons_of_isQuiet ho, scan_append, h, scan_cons_of_isQuiet hc, scan_nil]

theorem isQuiet_of_isDigit {c : Char} (h : c.isDigit) : IsQuiet c := by
  refine ⟨?_, ?_, ?_⟩ <;>
  · intro heq
    subst heq
    exact absurd h (by decide)

private theorem isQuiet_of_isBlank {c : Char} (h : isBlank c) : IsQuiet c := by
  refine ⟨?_, ?_, ?_⟩ <;>
  · intro heq
    subst heq
    exact absurd h (by decide)

theorem scan_blank {cs : List Char} (h : IsBlank cs) : scan .outside cs = .outside :=
  scan_of_isQuiet fun c hc => isQuiet_of_isBlank (h c hc)

private theorem scan_isDigit {cs : List Char} (h : ∀ c ∈ cs, c.isDigit) :
    scan .outside cs = .outside :=
  scan_of_isQuiet fun c hc => isQuiet_of_isDigit (h c hc)

private theorem scan_int {cs : List Char} (h : IsInt cs) : scan .outside cs = .outside := by
  cases h with
  | zero => rfl
  | nonzero hc _ hcs => exact scan_isDigit (List.forall_mem_cons.mpr ⟨hc, hcs⟩)

private theorem scan_frac {cs : List Char} (h : IsFrac cs) : scan .outside cs = .outside := by
  cases h with
  | none => rfl
  | digits h => rw [scan_cons_of_isQuiet (by decide), scan_isDigit h.2]

private theorem scan_exp {cs : List Char} (h : IsExp cs) : scan .outside cs = .outside := by
  cases h with
  | none => rfl
  | @digits e sign cs he hsign h =>
    have hletter : IsQuiet e := by
      rcases he with rfl | rfl <;> decide
    have hsigned : scan .outside sign = .outside := by
      simp only [List.mem_cons, List.not_mem_nil, or_false] at hsign
      rcases hsign with rfl | rfl | rfl <;> rfl
    rw [scan_cons_of_isQuiet hletter, scan_append, hsigned, scan_isDigit h.2]

private theorem scan_unsigned {cs : List Char} (h : IsUnsigned cs) :
    scan .outside cs = .outside := by
  cases h with
  | parts hint hfrac hexp =>
    rw [scan_append, scan_append, scan_int hint, scan_frac hfrac, scan_exp hexp]

theorem scan_number {cs : List Char} (h : IsNumber cs) : scan .outside cs = .outside := by
  cases h with
  | positive h => exact scan_unsigned h
  | negative h => rw [scan_cons_of_isQuiet (by decide), scan_unsigned h]

theorem next_inString_of_ne {c : Char} (hquote : c ≠ '"') (hback : c ≠ '\\') :
    next .inString c = .inString := by
  rw [next, if_neg hquote, if_neg hback]

private theorem next_inString_of_isHexDigit {c : Char} (h : isHexDigit c) :
    next .inString c = .inString := by
  apply next_inString_of_ne
  · rintro rfl
    exact absurd h (by decide)
  · rintro rfl
    exact absurd h (by decide)

theorem scan_chars {cs : List Char} (h : IsChars cs) : scan .inString cs = .inString := by
  induction h with
  | nil => rfl
  | unescaped hc _ ih =>
    simp only [isUnescaped, Bool.and_eq_true, decide_eq_true_eq] at hc
    rw [scan_cons, next_inString_of_ne hc.1.2 hc.2, ih]
  | escape _ _ ih => exact ih
  | @hex a b c d cs hdigits _ ih =>
    have hstay : ∀ x ∈ [a, b, c, d], next .inString x = .inString :=
      fun x hx => next_inString_of_isHexDigit (hdigits x hx)
    change scan (next (next (next (next .inString a) b) c) d) cs = _
    rw [hstay a (by simp), hstay b (by simp), hstay c (by simp), hstay d (by simp), ih]

theorem scan_string {cs : List Char} (h : IsString cs) : scan .outside cs = .outside := by
  cases h with
  | quoted h =>
    change scan .inString _ = _
    rw [scan_append, scan_chars h]
    rfl

mutual

theorem scan_value : ∀ {cs : List Char}, IsValue cs → scan .outside cs = .outside
  | _, .null | _, .true | _, .false => rfl
  | _, .number h => scan_number h
  | _, .string h => scan_string h
  | _, .emptyArray h => scan_brackets (by decide) (by decide) (scan_blank h)
  | _, .array h => scan_brackets (by decide) (by decide) (scan_elements h)
  | _, .emptyObject h => scan_brackets (by decide) (by decide) (scan_blank h)
  | _, .object h => scan_brackets (by decide) (by decide) (scan_members h)

/-- A text ends outside the strings and has no stray token. -/
theorem scan_text : ∀ {cs : List Char}, IsText cs → scan .outside cs = .outside
  | _, .padded hleft h hright => by
    rw [scan_append, scan_append, scan_blank hleft, scan_value h, scan_blank hright]

theorem scan_elements : ∀ {cs : List Char}, IsElements cs → scan .outside cs = .outside
  | _, .last h => scan_text h
  | _, .more h hrest => by
    rw [scan_append, scan_text h, scan_cons_of_isQuiet (by decide), scan_elements hrest]

theorem scan_members : ∀ {cs : List Char}, IsMembers cs → scan .outside cs = .outside
  | _, .last hleft hname hright h => by
    rw [scan_append, scan_append, scan_append, scan_blank hleft, scan_string hname,
      scan_blank hright, scan_cons_of_isQuiet (by decide), scan_text h]
  | _, .more hleft hname hright h hrest => by
    rw [scan_append, scan_append, scan_append, scan_blank hleft, scan_string hname,
      scan_blank hright, scan_cons_of_isQuiet (by decide), scan_append, scan_text h,
      scan_cons_of_isQuiet (by decide), scan_members hrest]

end

end JsonGrammar

end PiWatch
