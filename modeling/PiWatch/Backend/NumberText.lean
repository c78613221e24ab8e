import Mathlib.Data.List.DropRight
import Mathlib.Tactic.IntervalCases
import PiWatch.Backend.Floats
import PiWatch.Framework.JsonGrammar

/-!
# The text of a number

`str` of an integer, and `repr` of a float: the shortest decimal that reads back as it. Both
are numbers of the JSON grammar, but for the names of the floats that are not finite.
-/

namespace PiWatch

open JsonGrammar

namespace PyText

/-- `int.__repr__`. -/
def intText (z : ℤ) : List Char :=
  if z < 0 then '-' :: Nat.toDigits 10 z.natAbs else Nat.toDigits 10 z.natAbs

/-- The two decimals of `n` digits around a positive number, the nearer one first. A pair
`(m, k)` is `m * 10 ^ k`. -/
def decimals (n : ℕ) (x : ℚ) : List (ℕ × ℤ) :=
  let k := Int.log 10 x + 1 - n
  let m := ⌊x / 10 ^ k⌋.toNat
  let rest := x / 10 ^ k - m
  if rest < 1 / 2 ∨ rest = 1 / 2 ∧ m % 2 = 0 then [(m, k), (m + 1, k)] else [(m + 1, k), (m, k)]

/-- The shortest decimal that rounds to a double. Seventeen digits tell the doubles apart. -/
def shortest (x : ℚ) : ℕ × ℤ :=
  (((List.range' 1 17).flatMap fun n => decimals n x).find? fun d =>
    PyFloat.ofRat (d.1 * 10 ^ d.2) = .finite x).getD
      (⌊x / 10 ^ (Int.log 10 x - 16)⌋.toNat, Int.log 10 x - 16)

def exponentText (e : ℤ) : List Char :=
  let digits := Nat.toDigits 10 e.natAbs
  (if e < 0 then '-' else '+') :: (if digits.length < 2 then '0' :: digits else digits)

/-- Digits with the point after the first `point` of them. -/
def layout (digits : List Char) (point : ℤ) : List Char :=
  if -4 < point ∧ point ≤ 16 then
    if point ≤ 0 then '0' :: '.' :: (List.replicate (-point).toNat '0' ++ digits)
    else if digits.length ≤ point then
      digits ++ (List.replicate (point - digits.length).toNat '0' ++ ['.', '0'])
    else digits.take point.toNat ++ '.' :: digits.drop point.toNat
  else
    digits.take 1 ++ ((if digits.length < 2 then [] else '.' :: digits.drop 1) ++
      'e' :: exponentText (point - 1))

/-- The text of `m * 10 ^ k`, without the zeros that end its digits. -/
def decimalText (m : ℕ) (k : ℤ) : List Char :=
  if m = 0 then ['0', '.', '0']
  else layout ((Nat.toDigits 10 m).rdropWhile (· = '0')) ((Nat.toDigits 10 m).length + k)

/-- `float.__repr__`, with the names `json` has for what is not finite. -/
def floatText : PyFloat → List Char
  | .finite q =>
    if q < 0 then '-' :: decimalText (shortest (-q)).1 (shortest (-q)).2
    else decimalText (shortest q).1 (shortest q).2
  | .nan => ['N', 'a', 'N']
  | .posInf => ['I', 'n', 'f', 'i', 'n', 'i', 't', 'y']
  | .negInf => ['-', 'I', 'n', 'f', 'i', 'n', 'i', 't', 'y']

/-! ## Numbers of the grammar -/

/-- The digits of a positive number start with another digit than zero. -/
theorem exists_toDigits_eq_cons {n : ℕ} (h : 0 < n) :
    ∃ c cs, Nat.toDigits 10 n = c :: cs ∧ c ≠ '0' := by
  induction n using Nat.strongRecOn with
  | ind n ih =>
    by_cases hn : n < 10
    · rw [Nat.toDigits_of_lt_base hn]
      refine ⟨_, [], rfl, ?_⟩
      interval_cases n <;> decide
    · rw [Nat.toDigits_of_base_le (by decide) (by omega)]
      obtain ⟨c, cs, hcs, hne⟩ := ih (n / 10) (by omega) (by omega)
      exact ⟨c, cs ++ [(n % 10).digitChar], by rw [hcs, List.cons_append], hne⟩

private theorem isInt_toDigits (n : ℕ) : IsInt (Nat.toDigits 10 n) := by
  rcases Nat.eq_zero_or_pos n with rfl | hn
  · exact .zero
  · have hdigit := isDigit_toDigits n
    obtain ⟨c, cs, hcs, hne⟩ := exists_toDigits_eq_cons hn
    rw [hcs] at hdigit ⊢
    rw [List.forall_mem_cons] at hdigit
    exact .nonzero hdigit.1 hne hdigit.2

theorem isNumber_intText (z : ℤ) : IsNumber (intText z) := by
  have hint := isInt_toDigits z.natAbs
  unfold intText
  split
  · exact .negative hint.isUnsigned
  · exact .positive hint.isUnsigned

private theorem isExp_exponentText (e : ℤ) : IsExp ('e' :: exponentText e) := by
  have hdigit := isDigit_toDigits e.natAbs
  have hdigits : IsDigits (if (Nat.toDigits 10 e.natAbs).length < 2 then
      '0' :: Nat.toDigits 10 e.natAbs else Nat.toDigits 10 e.natAbs) := by
    split
    · exact ⟨List.cons_ne_nil _ _, List.forall_mem_cons.mpr ⟨rfl, hdigit⟩⟩
    · exact ⟨Nat.toDigits_ne_nil, hdigit⟩
  unfold exponentText
  dsimp only
  split
  · have hexp : IsExp ('e' :: (['-'] ++ _)) := .digits (.inl rfl) (by simp) hdigits
    exact hexp
  · have hexp : IsExp ('e' :: (['+'] ++ _)) := .digits (.inl rfl) (by simp) hdigits
    exact hexp

private theorem isDigits_zero : IsDigits ['0'] := ⟨by simp, by simp [Char.isDigit]⟩

private theorem forall_mem_replicate_append {n : ℕ} {cs : List Char} (h : ∀ c ∈ cs, c.isDigit) :
    ∀ c ∈ List.replicate n '0' ++ cs, c.isDigit := by
  intro c hc
  rcases List.mem_append.mp hc with hc | hc
  · rw [List.eq_of_mem_replicate hc]
    rfl
  · exact h c hc

private theorem isUnsigned_layout {c : Char} {cs : List Char} (hc : c.isDigit) (hne : c ≠ '0')
    (hcs : ∀ c ∈ cs, c.isDigit) (point : ℤ) : IsUnsigned (layout (c :: cs) point) := by
  have hall : ∀ x ∈ c :: cs, x.isDigit := List.forall_mem_cons.mpr ⟨hc, hcs⟩
  unfold layout
  split
  · split
    · -- all digits behind the point
      exact IsInt.zero.isUnsigned_append ⟨by simp, forall_mem_replicate_append hall⟩
    · rename_i hpoint
      split
      · -- all digits in front of it
        have hint : IsInt (c :: (cs ++ List.replicate (point - (c :: cs).length).toNat '0')) := by
          refine .nonzero hc hne fun x hx => ?_
          rcases List.mem_append.mp hx with hx | hx
          · exact hcs x hx
          · rw [List.eq_of_mem_replicate hx]
            rfl
        have hparts := hint.isUnsigned_append isDigits_zero
        rwa [List.cons_append, List.append_assoc] at hparts
      · rename_i hlength
        obtain ⟨n, hn⟩ : ∃ n, point.toNat = n + 1 := ⟨point.toNat - 1, by omega⟩
        rw [List.length_cons] at hlength
        have hdrop : IsDigits (cs.drop n) := by
          refine ⟨fun hnil => ?_, fun x hx => hcs x (List.mem_of_mem_drop hx)⟩
          rw [List.drop_eq_nil_iff] at hnil
          omega
        have hint : IsInt (c :: cs.take n) :=
          .nonzero hc hne fun x hx => hcs x (List.mem_of_mem_take hx)
        rw [hn, List.take_succ_cons, List.drop_succ_cons]
        exact hint.isUnsigned_append hdrop
  · have hint : IsInt [c] := .nonzero hc hne (by simp)
    refine IsUnsigned.parts hint ?_ (isExp_exponentText _)
    split
    · exact .none
    · rename_i hlength
      refine .digits ⟨fun hnil => hlength ?_, hcs⟩
      rw [List.drop_one, List.tail_cons] at hnil
      rw [hnil, List.length_singleton]
      decide

private theorem isUnsigned_decimalText (m : ℕ) (k : ℤ) : IsUnsigned (decimalText m k) := by
  unfold decimalText
  split
  · exact IsInt.zero.isUnsigned_append isDigits_zero
  · rename_i hm
    obtain ⟨c, cs, hcs, hne⟩ := exists_toDigits_eq_cons (Nat.pos_of_ne_zero hm)
    have hstart := List.rdropWhile_prefix (· = '0') (Nat.toDigits 10 m)
    have hdigit : ∀ x ∈ (Nat.toDigits 10 m).rdropWhile (· = '0'), x.isDigit :=
      fun x hx => isDigit_toDigits m x (hstart.subset hx)
    cases hkept : (Nat.toDigits 10 m).rdropWhile (· = '0') with
    | nil =>
      rw [List.rdropWhile_eq_nil_iff, hcs, List.forall_mem_cons] at hkept
      exact absurd (of_decide_eq_true hkept.1) hne
    | cons x xs =>
      rw [hkept, hcs, List.cons_prefix_cons] at hstart
      rw [hkept, List.forall_mem_cons] at hdigit
      exact isUnsigned_layout hdigit.1 (hstart.1 ▸ hne) hdigit.2 _

theorem isNumber_floatText {x : PyFloat} (h : x.isFinite) : IsNumber (floatText x) := by
  cases x with
  | finite q =>
    rw [floatText]
    split
    · exact .negative (isUnsigned_decimalText _ _)
    · exact .positive (isUnsigned_decimalText _ _)
  | _ => cases h

/-- The name of a float that is not finite is a stray token. -/
theorem scan_floatText {x : PyFloat} (h : ¬ x.isFinite) :
    scan .outside (floatText x) = .stray := by
  cases x with
  | finite q => exact absurd rfl h
  | _ => rfl

end PyText

end PiWatch
