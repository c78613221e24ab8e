import Mathlib.Algebra.Field.Rat
import Mathlib.Data.Nat.Digits.Defs

/-!
# Numbers as text

What `int()` and `float()` make of a text, up to the rounding of `float()`. Blanks around
the number do not count, every Unicode decimal digit does, and single underscores may stand
between digits.
-/

namespace PiWatch

namespace PyText

/-- The zeros of the Unicode decimal digits; each is followed by its nine other digits. -/
def digitZeros : List ℕ :=
  [0x30, 0x660, 0x6f0, 0x7c0, 0x966, 0x9e6, 0xa66, 0xae6, 0xb66, 0xbe6, 0xc66, 0xce6, 0xd66,
    0xde6, 0xe50, 0xed0, 0xf20, 0x1040, 0x1090, 0x17e0, 0x1810, 0x1946, 0x19d0, 0x1a80, 0x1a90,
    0x1b50, 0x1bb0, 0x1c40, 0x1c50, 0xa620, 0xa8d0, 0xa900, 0xa9d0, 0xa9f0, 0xaa50, 0xabf0,
    0xff10, 0x104a0, 0x10d30, 0x11066, 0x110f0, 0x11136, 0x111d0, 0x112f0, 0x11450, 0x114d0,
    0x11650, 0x116c0, 0x11730, 0x118e0, 0x11950, 0x11c50, 0x11d50, 0x11da0, 0x11f50, 0x16a60,
    0x16ac0, 0x16b50, 0x1d7ce, 0x1d7d8, 0x1d7e2, 0x1d7ec, 0x1d7f6, 0x1e140, 0x1e2f0, 0x1e4f0,
    0x1e950, 0x1fbf0]

/-- The value of a decimal digit. -/
def digitValue (c : Char) : Option ℕ :=
  (digitZeros.find? fun z => z ≤ c.toNat && c.toNat < z + 10).map fun z => c.toNat - z

def isSpace (c : Char) : Bool :=
  let n := c.toNat
  (0x9 ≤ n && n ≤ 0xd) || (0x1c ≤ n && n ≤ 0x20) || n = 0x85 || n = 0xa0 || n = 0x1680 ||
    (0x2000 ≤ n && n ≤ 0x200a) || n = 0x2028 || n = 0x2029 || n = 0x202f || n = 0x205f ||
    n = 0x3000

/-- `s.strip()`. -/
def strip (cs : List Char) : List Char :=
  ((cs.dropWhile isSpace).reverse.dropWhile isSpace).reverse

/-- A sign and what follows it: whether it is a minus, and the rest. -/
def sign : List Char → Bool × List Char
  | '-' :: cs => (true, cs)
  | '+' :: cs => (false, cs)
  | cs => (false, cs)

/-- The digits at the head of a text and what follows them. An underscore counts as part of
the number between two digits only; `after` tells whether a digit came just before. -/
def digitPart (after : Bool) : List Char → List ℕ × List Char
  | [] => ([], [])
  | c :: cs =>
    match digitValue c with
    | some d =>
      let rest := digitPart true cs
      (d :: rest.1, rest.2)
    | none =>
      if c = '_' ∧ after ∧ (cs.head?.bind digitValue).isSome then digitPart false cs
      else ([], c :: cs)

/-- The number written by digits, the most significant one first. -/
def decimalValue (ds : List ℕ) : ℕ := Nat.ofDigits 10 ds.reverse

def negateIf (negative : Bool) (x : ℚ) : ℚ := if negative then -x else x

/-- `int(s)`; without a value it raises `ValueError`. -/
def pyInt (s : String) : Option ℤ :=
  let (negative, body) := sign (strip s.toList)
  match digitPart false body with
  | ([], _) => none
  | (ds, []) => some (if negative then -decimalValue ds else decimalValue ds)
  | (_, _ :: _) => none

/-- The exponent part of a floating point literal. -/
def exponentPart : List Char → Option ℤ
  | [] => some 0
  | c :: cs =>
    if c = 'e' ∨ c = 'E' then
      let (negative, body) := sign cs
      match digitPart false body with
      | ([], _) => none
      | (ds, []) => some (if negative then -decimalValue ds else decimalValue ds)
      | (_, _ :: _) => none
    else none

/-- The fraction digits, if there is a point. -/
def fractionPart : List Char → List ℕ × List Char
  | '.' :: cs => digitPart false cs
  | cs => ([], cs)

/-- The value of an unsigned floating point literal. -/
def floatValue (cs : List Char) : Option ℚ :=
  let (whole, rest) := digitPart false cs
  let (fraction, rest) := fractionPart rest
  if whole = [] ∧ fraction = [] then none
  else (exponentPart rest).map fun (e : ℤ) =>
    (decimalValue (whole ++ fraction) : ℚ) * 10 ^ (e - fraction.length)

/-- `float(s)` of a number, not rounded. -/
def exactFloat (cs : List Char) : Option ℚ :=
  let (negative, body) := sign (strip cs)
  (floatValue body).map (negateIf negative)

/-- Trimming leaves a text alone that has nothing to trim. -/
theorem trim_of_forall {p : Char → Bool} {cs : List Char} (h : ∀ c ∈ cs, p c = false) :
    ((cs.dropWhile p).reverse.dropWhile p).reverse = cs := by
  have hdrop : ∀ {cs : List Char}, (∀ c ∈ cs, p c = false) → cs.dropWhile p = cs := by
    intro cs h
    cases cs with
    | nil => rfl
    | cons c cs =>
      apply List.dropWhile_cons_of_neg
      simp [h]
  rw [hdrop h, hdrop, List.reverse_reverse]
  intro c hc
  exact h c (List.mem_reverse.mp hc)

theorem strip_of_forall {cs : List Char} (h : ∀ c ∈ cs, isSpace c = false) : strip cs = cs :=
  trim_of_forall h

/-! ## Numbers printed by `str` -/

private theorem exists_eq_of_isDigit {c : Char} (h : c.isDigit) :
    ∃ d : Fin 10, c = Char.ofNat (48 + d) := by
  have hrange : 48 ≤ c.toNat ∧ c.toNat ≤ 57 := Char.isDigit_iff_toNat.mp h
  refine ⟨⟨c.toNat - 48, by omega⟩, ?_⟩
  dsimp only
  rw [Nat.add_sub_cancel' hrange.1, Char.ofNat_toNat]

theorem digitValue_of_isDigit {c : Char} (h : c.isDigit) :
    digitValue c = some (c.toNat - 48) := by
  have hall : ∀ d : Fin 10, digitValue (Char.ofNat (48 + d)) =
      some ((Char.ofNat (48 + d)).toNat - 48) := by decide
  obtain ⟨d, rfl⟩ := exists_eq_of_isDigit h
  exact hall d

theorem isSpace_of_isDigit {c : Char} (h : c.isDigit) : isSpace c = false := by
  have hall : ∀ d : Fin 10, isSpace (Char.ofNat (48 + d)) = false := by decide
  obtain ⟨d, rfl⟩ := exists_eq_of_isDigit h
  exact hall d

theorem digitPart_of_isDigit {cs : List Char} (h : ∀ c ∈ cs, c.isDigit) (after : Bool) :
    digitPart after cs = (cs.map fun c => c.toNat - 48, []) := by
  induction cs generalizing after with
  | nil => rfl
  | cons c cs ih =>
    rw [List.forall_mem_cons] at h
    rw [digitPart, digitValue_of_isDigit h.1]
    simp only [ih h.2, List.map_cons]

theorem decimalValue_toDigits (n : ℕ) :
    decimalValue ((Nat.toDigits 10 n).map fun c => c.toNat - 48) = n := by
  have hfold : ∀ (cs : List Char) (acc : List ℕ),
      Nat.ofDigits 10 ((cs.map fun c => c.toNat - 48).reverse ++ acc) =
        Nat.ofDigitChars 10 cs (Nat.ofDigits 10 acc) := by
    intro cs
    induction cs with
    | nil => simp
    | cons c cs ih =>
      intro acc
      rw [List.map_cons, List.reverse_cons, List.append_assoc, ih, List.singleton_append,
        Nat.ofDigits_cons, Nat.ofDigitChars_cons, Nat.add_comm]
      rfl
  have hvalue := hfold (Nat.toDigits 10 n) []
  rw [List.append_nil, Nat.ofDigits_nil, Nat.ofDigitChars_ten_toDigits] at hvalue
  exact hvalue

theorem isDigit_toDigits (n : ℕ) : ∀ c ∈ Nat.toDigits 10 n, c.isDigit :=
  fun _ hc => Nat.isDigit_of_mem_toDigits (by decide) (by decide) hc

private theorem sign_of_isDigit {c : Char} (h : c.isDigit) (cs : List Char) :
    sign (c :: cs) = (false, c :: cs) := by
  have hne : ∀ d : Fin 10, Char.ofNat (48 + d) ≠ '-' ∧ Char.ofNat (48 + d) ≠ '+' := by decide
  obtain ⟨d, rfl⟩ := exists_eq_of_isDigit h
  unfold sign
  split
  · rename_i heq
    exact absurd (List.cons.inj heq).1 (hne d).1
  · rename_i heq
    exact absurd (List.cons.inj heq).1 (hne d).2
  · rfl

private theorem sign_toDigits (n : ℕ) :
    sign (Nat.toDigits 10 n) = (false, Nat.toDigits 10 n) := by
  have hdigit := isDigit_toDigits n
  cases hcs : Nat.toDigits 10 n with
  | nil => exact absurd hcs Nat.toDigits_ne_nil
  | cons c cs =>
    rw [hcs] at hdigit
    exact sign_of_isDigit (hdigit c List.mem_cons_self) cs

/-- What `int` makes of a sign and the digits of a number. -/
private theorem pyInt_of_sign {s : String} {n : ℕ} {negative : Bool}
    (h : sign (strip s.toList) = (negative, Nat.toDigits 10 n)) :
    pyInt s = some (if negative then -(n : ℤ) else n) := by
  have hpart := digitPart_of_isDigit (isDigit_toDigits n) false
  have hvalue := decimalValue_toDigits n
  have hne : (Nat.toDigits 10 n).map (fun c => c.toNat - 48) ≠ [] := by simp
  unfold pyInt
  rw [h]
  dsimp only
  rw [hpart]
  cases hds : (Nat.toDigits 10 n).map (fun c => c.toNat - 48) with
  | nil => exact absurd hds hne
  | cons d ds =>
    rw [hds] at hvalue
    dsimp only
    rw [hvalue]

/-- `int(str(z))` is `z`. -/
theorem pyInt_toString (z : ℤ) : pyInt (toString z) = some z := by
  have hspace : ∀ n, ∀ c ∈ Nat.toDigits 10 n, isSpace c = false :=
    fun n c hc => isSpace_of_isDigit (isDigit_toDigits n c hc)
  rw [Int.toString_eq_repr, Int.repr_eq_if]
  split_ifs with hz
  · have hsign : sign (strip z.toNat.repr.toList) = (false, Nat.toDigits 10 z.toNat) := by
      rw [Nat.toList_repr, strip_of_forall (hspace z.toNat), sign_toDigits]
    rw [pyInt_of_sign hsign, if_neg Bool.false_ne_true, Int.toNat_of_nonneg hz]
  · have hsign : sign (strip ("-" ++ (-z).toNat.repr).toList) =
        (true, Nat.toDigits 10 (-z).toNat) := by
      have htext : ("-" ++ (-z).toNat.repr).toList = '-' :: Nat.toDigits 10 (-z).toNat := by
        rw [String.toList_append, Nat.toList_repr]
        rfl
      rw [htext, strip_of_forall]
      · rfl
      · rw [List.forall_mem_cons]
        exact ⟨by decide, hspace _⟩
    rw [pyInt_of_sign hsign, if_pos rfl, Int.toNat_of_nonneg (by omega), neg_neg]

end PyText

end PiWatch
