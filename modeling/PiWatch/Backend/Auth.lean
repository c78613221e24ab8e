import PiWatch.Framework.Base64
import PiWatch.Backend.Floats

/-!
# Bearer tokens

A token is the base64 text of its expiry, a dot, and the HMAC of that text in hexadecimal. The
HMAC function is a parameter.
-/

namespace PiWatch

namespace Auth

/-- What a replica reads from its environment: the password, the signing secret and the
lifetime of its tokens in seconds. -/
structure Replica where
  password : String
  secret : List UInt8
  tokenTtl : ℤ

/-- `s.encode()`. -/
def encodeText (s : String) : List UInt8 := s.toByteArray.data.toList

/-- `bs.decode()`; without a value it raises. -/
def decodeText (bs : List UInt8) : Option String := String.fromUTF8? ⟨bs.toArray⟩

def isAscii (s : String) : Bool := s.toList.all fun c => c.toNat < 128

/-- `compare_digest` on texts. -/
def compareDigest (a b : String) : Except PyError Bool :=
  if isAscii a && isAscii b then .ok (a = b) else .error .typeError

def hexChar (n : ℕ) : Char := if n < 10 then Char.ofNat (48 + n) else Char.ofNat (87 + n)

def hexdigest (bs : List UInt8) : String :=
  String.ofList (bs.flatMap fun b => [hexChar (b.toNat / 16), hexChar (b.toNat % 16)])

/-- `s.rsplit(".", 1)` of a text with a dot: what comes before the last dot, and after it. -/
def rsplitDot (s : String) : Option (String × String) :=
  match s.toList.rdropWhile (· ≠ '.') with
  | [] => none
  | cs => some (String.ofList cs.dropLast, String.ofList (s.toList.rtakeWhile (· ≠ '.')))

/-- `int(t)` of a clock reading. -/
def wholeSeconds (t : Time) : ℤ := if 0 ≤ t then ⌊t⌋ else ⌈t⌉

def Replica.authEnabled (r : Replica) : Bool := r.password ≠ ""

section Tokens

variable (hmacSha256 : List UInt8 → List UInt8 → List UInt8)

def sign (r : Replica) (payload : String) : String :=
  hexdigest (hmacSha256 r.secret (encodeText payload))

/-- The signed part of a token that expires at some second. -/
def payloadOf (expiry : ℤ) : String :=
  String.ofList (Base64.unpad (Base64.encode (encodeText (toString expiry))))

def createToken (r : Replica) (t : Time) : String :=
  let payload := payloadOf (wholeSeconds t + r.tokenTtl)
  payload ++ "." ++ sign hmacSha256 r payload

/-- The expiry of a payload; without a value reading it raised. -/
def expiryOf (payload : String) : Option ℤ :=
  if isAscii payload then
    (Base64.decode (Base64.pad payload.toList)).bind fun bs =>
      (decodeText bs).bind PyText.pyInt
  else none

def verifyToken (r : Replica) (token : Option String) (now : Time) : Except PyError Bool :=
  if ¬ r.authEnabled then .ok true
  else
    match token.bind rsplitDot with
    | none => .ok false
    | some (payload, sig) => do
      if ← compareDigest (sign hmacSha256 r payload) sig then
        match expiryOf payload with
        | none => return false
        | some expiry => return now < expiry
      else return false

/-! ## The endpoints -/

/-- The token of an `Authorization` header. -/
def bearerToken (authorization : Option String) : Option String :=
  authorization.bind fun text =>
    if (text.toList.take 7).map Char.toLower = "bearer ".toList then
      some (String.ofList (text.toList.drop 7))
    else none

/-- `require_auth`: whether the request is let through. -/
def requireAuth (r : Replica) (authorization : Option String) (now : Time) :
    Except PyError Bool :=
  if ¬ r.authEnabled then .ok true
  else verifyToken hmacSha256 r (bearerToken authorization) now

/-- `login`: the token, empty without auth; without a value the password was wrong. -/
def login (r : Replica) (password : String) (now : Time) : Except PyError (Option String) :=
  if ¬ r.authEnabled then .ok (some "")
  else do
    if ← compareDigest password r.password then return some (createToken hmacSha256 r now)
    else return none

end Tokens

/-! ## Reading back what was written -/

theorem decodeText_encodeText (s : String) : decodeText (encodeText s) = some s := by
  unfold decodeText encodeText String.fromUTF8?
  rw [Array.toArray_toList, dif_pos s.isValidUTF8]
  rfl

private theorem hexChar_plain (b : UInt8) (n : ℕ) (h : n = b.toNat / 16 ∨ n = b.toNat % 16) :
    hexChar n ≠ '.' ∧ (hexChar n).toNat < 128 := by
  have hall : ∀ n : Fin 16, hexChar n ≠ '.' ∧ (hexChar n).toNat < 128 := by decide
  have hb := b.toNat_lt
  exact hall ⟨n, by omega⟩

theorem mem_sign {hmacSha256 : List UInt8 → List UInt8 → List UInt8} {r : Replica}
    {payload : String} {c : Char} (h : c ∈ (sign hmacSha256 r payload).toList) :
    c ≠ '.' ∧ c.toNat < 128 := by
  rw [sign, hexdigest, String.toList_ofList, List.mem_flatMap] at h
  obtain ⟨b, -, hc⟩ := h
  simp only [List.mem_cons, List.not_mem_nil, or_false] at hc
  rcases hc with rfl | rfl
  · exact hexChar_plain b _ (Or.inl rfl)
  · exact hexChar_plain b _ (Or.inr rfl)

theorem isAscii_sign (hmacSha256 : List UInt8 → List UInt8 → List UInt8) (r : Replica)
    (payload : String) : isAscii (sign hmacSha256 r payload) := by
  rw [isAscii, List.all_eq_true]
  intro c hc
  exact decide_eq_true (mem_sign hc).2

theorem rsplitDot_append (payload : String) {sig : String} (h : '.' ∉ sig.toList) :
    rsplitDot (payload ++ "." ++ sig) = some (payload, sig) := by
  have hsig : ∀ c ∈ sig.toList.reverse, (decide (c ≠ '.')) = true := by
    intro c hc
    rw [decide_eq_true_eq]
    intro heq
    exact h (heq ▸ List.mem_reverse.mp hc)
  have hchars : (payload ++ "." ++ sig).toList = payload.toList ++ ['.'] ++ sig.toList := by
    rw [String.toList_append, String.toList_append]
    rfl
  have hreverse : (payload.toList ++ ['.'] ++ sig.toList).reverse =
      sig.toList.reverse ++ '.' :: payload.toList.reverse := by
    simp
  have hdrop : (payload ++ "." ++ sig).toList.rdropWhile (· ≠ '.') = payload.toList ++ ['.'] := by
    rw [List.rdropWhile, hchars, hreverse, List.dropWhile_append_of_pos hsig]
    simp
  have htake : (payload ++ "." ++ sig).toList.rtakeWhile (· ≠ '.') = sig.toList := by
    rw [List.rtakeWhile, hchars, hreverse, List.takeWhile_append_of_pos hsig]
    simp
  unfold rsplitDot
  rw [hdrop, htake]
  simp

theorem eq_of_rsplitDot {s payload sig : String} (h : rsplitDot s = some (payload, sig)) :
    s = payload ++ "." ++ sig := by
  have hjoin := List.rdropWhile_append_rtakeWhile (p := fun c => decide (c ≠ '.')) (l := s.toList)
  have hlast := List.rdropWhile_last_not (fun c => decide (c ≠ '.')) s.toList
  unfold rsplitDot at h
  cases hdrop : s.toList.rdropWhile (fun c => decide (c ≠ '.')) with
  | nil =>
    rw [hdrop] at h
    cases h
  | cons c cs =>
    rw [hdrop] at h hjoin
    simp only [hdrop] at hlast
    have hdot : (c :: cs).getLast (by simp) = '.' := by
      simpa using hlast (by simp)
    obtain ⟨rfl, rfl⟩ := Prod.mk.inj (Option.some.inj h)
    have hconcat : (c :: cs).dropLast ++ ".".toList = c :: cs := by
      have hdotText : ".".toList = [(c :: cs).getLast (by simp)] := by rw [hdot]; rfl
      rw [hdotText, List.dropLast_append_getLast]
    rw [← String.toList_inj]
    simp only [String.toList_append, String.toList_ofList]
    rw [hconcat]
    exact hjoin.symm

/-- Every payload, of whatever length, reads back to its expiry. -/
theorem expiryOf_payloadOf (expiry : ℤ) : expiryOf (payloadOf expiry) = some expiry := by
  have hascii : isAscii (payloadOf expiry) := by
    rw [isAscii, payloadOf, String.toList_ofList, List.all_eq_true]
    intro c hc
    exact decide_eq_true (Base64.mem_unpad_encode hc).2
  rw [expiryOf, if_pos hascii, payloadOf, String.toList_ofList, Base64.pad_unpad_encode,
    Base64.decode_encode, Option.bind_some, decodeText_encodeText, Option.bind_some,
    PyText.pyInt_toString]

end Auth

end PiWatch
