import Mathlib.Data.List.Basic

/-!
# Text files

The text layer gets the bytes of a file in portions, decodes them as strict UTF-8 and turns every
line end into a line feed. A whole file is one text or none; a file read line by line yields the
lines that were decoded before a bad byte was met.
-/

namespace PiWatch

/-! ## Strict UTF-8 -/

/-- Between two characters, or within one: how many bytes it still needs, the bounds of the next
byte, and the value so far. -/
inductive Utf8State
  | start
  | within (more : ℕ) (low high : ℕ) (value : ℕ)
  deriving DecidableEq

namespace Utf8State

/-- One byte: the state after it and the character it completes. Without a value the byte is bad.
Overlong forms, surrogates and values above the last code point are bad at their second byte. -/
def next : Utf8State → UInt8 → Option (Utf8State × Option Char)
  | .start, byte =>
    let b := byte.toNat
    if b < 0x80 then some (.start, some (Char.ofNat b))
    else if 0xc2 ≤ b ∧ b ≤ 0xdf then some (.within 1 0x80 0xbf (b - 0xc0), none)
    else if b = 0xe0 then some (.within 2 0xa0 0xbf 0, none)
    else if b = 0xed then some (.within 2 0x80 0x9f 0xd, none)
    else if 0xe1 ≤ b ∧ b ≤ 0xef then some (.within 2 0x80 0xbf (b - 0xe0), none)
    else if b = 0xf0 then some (.within 3 0x90 0xbf 0, none)
    else if 0xf1 ≤ b ∧ b ≤ 0xf3 then some (.within 3 0x80 0xbf (b - 0xf0), none)
    else if b = 0xf4 then some (.within 3 0x80 0x8f 4, none)
    else none
  | .within more low high value, byte =>
    let b := byte.toNat
    if low ≤ b ∧ b ≤ high then
      let value := value * 64 + (b - 0x80)
      if more = 1 then some (.start, some (Char.ofNat value))
      else some (.within (more - 1) 0x80 0xbf value, none)
    else none

/-- The characters completed by some bytes, and the state after them. -/
def decode (st : Utf8State) : List UInt8 → Option (List Char × Utf8State)
  | [] => some ([], st)
  | byte :: bytes => do
    let (st, made) ← st.next byte
    let (text, st) ← decode st bytes
    return (made.toList ++ text, st)

end Utf8State

/-- The text decoded from portions before a bad byte, or before the end within a character; and
whether all of it was decoded. -/
def decodePortions (st : Utf8State) : List (List UInt8) → List Char × Bool
  | [] => ([], st = .start)
  | portion :: portions =>
    match st.decode portion with
    | none => ([], false)
    | some (text, st) =>
      let rest := decodePortions st portions
      (text ++ rest.1, rest.2)

theorem Utf8State.decode_append (st : Utf8State) (bytes more : List UInt8) :
    st.decode (bytes ++ more) = (st.decode bytes).bind fun r =>
      (r.2.decode more).map fun r' => (r.1 ++ r'.1, r'.2) := by
  induction bytes generalizing st with
  | nil => cases h : st.decode more <;> simp [decode, h]
  | cons byte bytes ih =>
    rw [List.cons_append, decode, decode]
    cases st.next byte with
    | none => rfl
    | some r =>
      simp only [Option.bind_eq_bind, Option.bind_some, ih]
      cases r.1.decode bytes with
      | none => rfl
      | some r' => cases h : r'.2.decode more <;> simp [h]

/-- Whether a file is decoded does not depend on its portions, and neither does its text. -/
theorem decodePortions_eq_iff {st : Utf8State} {portions : List (List UInt8)} {text : List Char} :
    decodePortions st portions = (text, true) ↔
      st.decode portions.flatten = some (text, .start) := by
  induction portions generalizing st text with
  | nil => simp [decodePortions, Utf8State.decode, eq_comm]
  | cons portion portions ih =>
    rw [decodePortions, List.flatten_cons, Utf8State.decode_append]
    cases st.decode portion with
    | none => simp
    | some r =>
      have htail : ∀ tail : List Char, (decodePortions r.2 portions = (tail, true) ↔
          r.2.decode portions.flatten = some (tail, .start)) := fun tail => ih
      simp only [Option.bind_some, Option.map_eq_some_iff, Prod.mk.injEq]
      constructor
      · rintro ⟨rfl, hall⟩
        exact ⟨_, (htail _).mp (Prod.ext rfl hall), rfl, rfl⟩
      · rintro ⟨r', hr', rfl, hst⟩
        have hrest := (htail r'.1).mpr (hr'.trans (congrArg some (Prod.ext rfl hst)))
        rw [hrest]
        exact ⟨rfl, rfl⟩

/-! ## Lines -/

/-- Every line end as a line feed. -/
def universalNewlines : List Char → List Char
  | '\r' :: '\n' :: cs => '\n' :: universalNewlines cs
  | '\r' :: cs => '\n' :: universalNewlines cs
  | c :: cs => c :: universalNewlines cs
  | [] => []

/-- The lines of a text that end in a line feed, which they keep, and what follows them. -/
def completeLines : List Char → List (List Char) × List Char
  | [] => ([], [])
  | c :: cs =>
    let (lines, rest) := completeLines cs
    if c = '\n' then (['\n'] :: lines, rest)
    else
      match lines with
      | [] => ([], c :: rest)
      | line :: lines => ((c :: line) :: lines, rest)

/-- A carriage return at the end of a portion waits for the next one: it may be half of a line
end. -/
def withoutPendingReturn (cs : List Char) : List Char :=
  if cs.getLast? = some '\r' then cs.dropLast else cs

/-- The text of a whole file, if all of it can be decoded. -/
def wholeText (portions : List (List UInt8)) : Option (List Char) :=
  match decodePortions .start portions with
  | (text, true) => some (universalNewlines text)
  | (_, false) => none

/-- Only the bytes of a whole file matter, not how they came. -/
theorem wholeText_of_flatten_eq {portions portions' : List (List UInt8)}
    (h : portions.flatten = portions'.flatten) : wholeText portions = wholeText portions' := by
  have hiff : ∀ {text}, decodePortions .start portions = (text, true) ↔
      decodePortions .start portions' = (text, true) := by
    intro text
    rw [decodePortions_eq_iff, decodePortions_eq_iff, h]
  unfold wholeText
  cases hleft : decodePortions .start portions with
  | mk text all =>
    cases all with
    | true => rw [hiff.mp hleft]
    | false =>
      cases hright : decodePortions .start portions' with
      | mk text' all' =>
        cases all' with
        | true => simp [hiff.mpr hright] at hleft
        | false => rfl

/-- The lines delivered from a file, and whether its end was reached. -/
def deliveredLines (portions : List (List UInt8)) : List (List Char) × Bool :=
  match decodePortions .start portions with
  | (text, true) =>
    let (lines, rest) := completeLines (universalNewlines text)
    (if rest = [] then lines else lines ++ [rest], true)
  | (text, false) => ((completeLines (universalNewlines (withoutPendingReturn text))).1, false)

/-- A file has a text exactly if all its lines are delivered. -/
theorem deliveredLines_snd (portions : List (List UInt8)) :
    (deliveredLines portions).2 = (wholeText portions).isSome := by
  unfold deliveredLines wholeText
  cases decodePortions .start portions with
  | mk text all => cases all <;> rfl

example : wholeText [[0xef], [0xbf, 0xa5, 0xd, 0xa]] = some ['￥', '\n'] := by decide

example : deliveredLines [[0x61, 0xa], [0x62, 0xff]] = ([['a', '\n']], false) := by decide

end PiWatch
