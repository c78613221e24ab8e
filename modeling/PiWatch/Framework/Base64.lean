import Mathlib.Data.List.DropRight
import Mathlib.Data.Nat.Notation

/-!
# URL-safe base64

The encoder writes three bytes as four characters and pads the last group. The decoder is the
lenient one: it skips characters outside the alphabet and stops where the padding is complete.
-/

namespace PiWatch

namespace Base64

/-- The character of a sextet. -/
def sextetChar (n : ℕ) : Char :=
  if n < 26 then Char.ofNat (65 + n)
  else if n < 52 then Char.ofNat (97 + (n - 26))
  else if n < 62 then Char.ofNat (48 + (n - 52))
  else if n = 62 then '-'
  else '_'

/-- The value of a character. The two characters of the standard alphabet count as well. -/
def sextetValue (c : Char) : Option ℕ :=
  if 'A' ≤ c ∧ c ≤ 'Z' then some (c.toNat - 65)
  else if 'a' ≤ c ∧ c ≤ 'z' then some (c.toNat - 97 + 26)
  else if '0' ≤ c ∧ c ≤ '9' then some (c.toNat - 48 + 52)
  else if c = '-' ∨ c = '+' then some 62
  else if c = '_' ∨ c = '/' then some 63
  else none

def encode : List UInt8 → List Char
  | [] => []
  | [a] => [sextetChar (a.toNat / 4), sextetChar (a.toNat % 4 * 16), '=', '=']
  | [a, b] =>
    [sextetChar (a.toNat / 4), sextetChar (a.toNat % 4 * 16 + b.toNat / 16),
      sextetChar (b.toNat % 16 * 4), '=']
  | a :: b :: c :: rest =>
    sextetChar (a.toNat / 4) :: sextetChar (a.toNat % 4 * 16 + b.toNat / 16) ::
      sextetChar (b.toNat % 16 * 4 + c.toNat / 64) :: sextetChar (c.toNat % 64) :: encode rest

/-- The decoder: its place in a group of four, the bits left over there, and the padding
characters since the last sextet. -/
def decodeFrom (place left pads : ℕ) : List Char → Option (List UInt8)
  | [] => if place = 0 then some [] else none
  | c :: cs =>
    if c = '=' then
      if 2 ≤ place then
        if 4 ≤ place + (pads + 1) then some [] else decodeFrom place left (pads + 1) cs
      else decodeFrom place left pads cs
    else
      match sextetValue c with
      | none => decodeFrom place left pads cs
      | some v =>
        match place with
        | 0 => decodeFrom 1 v 0 cs
        | 1 => (decodeFrom 2 (v % 16) 0 cs).map (UInt8.ofNat (left * 4 + v / 16) :: ·)
        | 2 => (decodeFrom 3 (v % 4) 0 cs).map (UInt8.ofNat (left * 16 + v / 4) :: ·)
        | _ => (decodeFrom 0 0 0 cs).map (UInt8.ofNat (left * 64 + v) :: ·)

def decode (cs : List Char) : Option (List UInt8) := decodeFrom 0 0 0 cs

/-- The text without the padding at its end. -/
def unpad (cs : List Char) : List Char := cs.rdropWhile (· = '=')

/-- The text padded to whole groups. -/
def pad (cs : List Char) : List Char :=
  cs ++ List.replicate (-(cs.length : ℤ) % 4).toNat '='

theorem sextetValue_sextetChar {n : ℕ} (h : n < 64) : sextetValue (sextetChar n) = some n := by
  have hall : ∀ n : Fin 64, sextetValue (sextetChar n) = some n.val := by decide
  exact hall ⟨n, h⟩

/-- No character of a sextet is the padding one or a dot, and all are ASCII. -/
theorem sextetChar_plain {n : ℕ} (h : n < 64) :
    sextetChar n ≠ '=' ∧ sextetChar n ≠ '.' ∧ (sextetChar n).toNat < 128 := by
  have hall : ∀ n : Fin 64,
      sextetChar n ≠ '=' ∧ sextetChar n ≠ '.' ∧ (sextetChar n).toNat < 128 := by decide
  exact hall ⟨n, h⟩

/-! One sextet, in each of the four places of a group. -/

section Places

variable {n : ℕ} (h : n < 64) (left pads : ℕ) (cs : List Char)

include h

private theorem decodeFrom_first :
    decodeFrom 0 left pads (sextetChar n :: cs) = decodeFrom 1 n 0 cs := by
  rw [decodeFrom, if_neg (sextetChar_plain h).1, sextetValue_sextetChar h]
  rfl

private theorem decodeFrom_second :
    decodeFrom 1 left pads (sextetChar n :: cs) =
      (decodeFrom 2 (n % 16) 0 cs).map (UInt8.ofNat (left * 4 + n / 16) :: ·) := by
  rw [decodeFrom, if_neg (sextetChar_plain h).1, sextetValue_sextetChar h]
  rfl

private theorem decodeFrom_third :
    decodeFrom 2 left pads (sextetChar n :: cs) =
      (decodeFrom 3 (n % 4) 0 cs).map (UInt8.ofNat (left * 16 + n / 4) :: ·) := by
  rw [decodeFrom, if_neg (sextetChar_plain h).1, sextetValue_sextetChar h]
  rfl

private theorem decodeFrom_fourth :
    decodeFrom 3 left pads (sextetChar n :: cs) =
      (decodeFrom 0 0 0 cs).map (UInt8.ofNat (left * 64 + n) :: ·) := by
  rw [decodeFrom, if_neg (sextetChar_plain h).1, sextetValue_sextetChar h]
  rfl

end Places

private theorem ofNat_eq {a : UInt8} {n : ℕ} (h : n = a.toNat) : UInt8.ofNat n = a := by
  rw [h, UInt8.ofNat_toNat]

/-- The bits of two sextets around a byte. -/
private theorem join_first (a b : UInt8) :
    UInt8.ofNat (a.toNat / 4 * 4 + (a.toNat % 4 * 16 + b.toNat / 16) / 16) = a := by
  have hb := b.toNat_lt
  exact ofNat_eq (by omega)

private theorem join_second (a b c : UInt8) :
    UInt8.ofNat ((a.toNat % 4 * 16 + b.toNat / 16) % 16 * 16 +
      (b.toNat % 16 * 4 + c.toNat / 64) / 4) = b := by
  have hb := b.toNat_lt
  have hc := c.toNat_lt
  exact ofNat_eq (by omega)

private theorem join_third (b c : UInt8) :
    UInt8.ofNat ((b.toNat % 16 * 4 + c.toNat / 64) % 4 * 64 + c.toNat % 64) = c := by
  have hc := c.toNat_lt
  exact ofNat_eq (by omega)

/-- What is encoded is decoded. -/
theorem decode_encode (bs : List UInt8) : decode (encode bs) = some bs := by
  unfold decode
  induction bs using encode.induct with
  | case1 => rfl
  | case2 a =>
    have ha := a.toNat_lt
    have hjoin := join_first a 0
    rw [UInt8.toNat_zero, Nat.zero_div, Nat.add_zero] at hjoin
    rw [encode, decodeFrom_first (by omega), decodeFrom_second (by omega), hjoin]
    simp [decodeFrom]
  | case3 a b =>
    have ha := a.toNat_lt
    have hb := b.toNat_lt
    have hjoin := join_second a b 0
    rw [UInt8.toNat_zero, Nat.zero_div, Nat.add_zero] at hjoin
    rw [encode, decodeFrom_first (by omega), decodeFrom_second (by omega),
      decodeFrom_third (by omega), join_first, hjoin]
    simp [decodeFrom]
  | case4 a b c rest ih =>
    have ha := a.toNat_lt
    have hb := b.toNat_lt
    have hc := c.toNat_lt
    rw [encode, decodeFrom_first (by omega), decodeFrom_second (by omega),
      decodeFrom_third (by omega), decodeFrom_fourth (by omega), ih, join_first, join_second,
      join_third]
    rfl

/-- An encoded text is whole groups of sextets and padding characters. -/
theorem exists_encode_eq (bs : List UInt8) :
    ∃ cs n, encode bs = cs ++ List.replicate n '=' ∧ n < 4 ∧ (cs.length + n) % 4 = 0 ∧
      ∀ c ∈ cs, c ≠ '=' ∧ c ≠ '.' ∧ c.toNat < 128 := by
  induction bs using encode.induct with
  | case1 => exact ⟨[], 0, rfl, by omega, rfl, by simp⟩
  | case2 a =>
    have ha := a.toNat_lt
    refine ⟨[_, _], 2, rfl, by omega, by simp, ?_⟩
    simp only [List.forall_mem_cons, List.not_mem_nil, false_imp_iff, implies_true, and_true]
    exact ⟨sextetChar_plain (by omega), sextetChar_plain (by omega)⟩
  | case3 a b =>
    have ha := a.toNat_lt
    have hb := b.toNat_lt
    refine ⟨[_, _, _], 1, rfl, by omega, by simp, ?_⟩
    simp only [List.forall_mem_cons, List.not_mem_nil, false_imp_iff, implies_true, and_true]
    exact ⟨sextetChar_plain (by omega), sextetChar_plain (by omega), sextetChar_plain (by omega)⟩
  | case4 a b c rest ih =>
    have ha := a.toNat_lt
    have hb := b.toNat_lt
    have hc := c.toNat_lt
    obtain ⟨cs, n, hencode, hn, hlength, hcs⟩ := ih
    refine ⟨_ :: _ :: _ :: _ :: cs, n, by rw [encode, hencode]; rfl, hn, ?_, ?_⟩
    · simp only [List.length_cons]
      omega
    · simp only [List.forall_mem_cons]
      exact ⟨sextetChar_plain (by omega), sextetChar_plain (by omega), sextetChar_plain (by omega),
        sextetChar_plain (by omega), hcs⟩

theorem unpad_append_replicate {cs : List Char} (h : ∀ c ∈ cs, c ≠ '=') (n : ℕ) :
    unpad (cs ++ List.replicate n '=') = cs := by
  unfold unpad
  induction n with
  | zero =>
    rw [List.replicate_zero, List.append_nil, List.rdropWhile_eq_self_iff]
    intro hne
    simpa using h _ (List.getLast_mem hne)
  | succ n ih =>
    rw [List.replicate_succ', ← List.append_assoc, List.rdropWhile_concat_pos _ _ _ (by simp), ih]

/-- Padding restores what was cut off an encoded text. -/
theorem pad_unpad_encode (bs : List UInt8) : pad (unpad (encode bs)) = encode bs := by
  obtain ⟨cs, n, hencode, hn, hlength, hcs⟩ := exists_encode_eq bs
  have hcount : (-(cs.length : ℤ) % 4).toNat = n := by omega
  rw [hencode, unpad_append_replicate fun c hc => (hcs c hc).1, pad, hcount]

theorem mem_unpad_encode {bs : List UInt8} {c : Char} (h : c ∈ unpad (encode bs)) :
    c ≠ '.' ∧ c.toNat < 128 := by
  obtain ⟨cs, n, hencode, -, -, hcs⟩ := exists_encode_eq bs
  rw [hencode, unpad_append_replicate fun c hc => (hcs c hc).1] at h
  exact (hcs c h).2

end Base64

end PiWatch
