import PiWatch.Framework.GuardedLoop
import PiWatch.Backend.Auth

/-!
# Odd tokens and passwords

`compare_digest` raises on texts that are not ASCII. A token with such a signature, and a login
with such a password, are not refused but raise.
-/

namespace PiWatch

namespace Auth

/-- What a token presents as its signature is ASCII. -/
def AsciiSignature (token : Option String) : Prop :=
  ∀ payload sig, token.bind rsplitDot = some (payload, sig) → isAscii sig

variable (hmacSha256 : List UInt8 → List UInt8 → List UInt8)

/-- `verify_token` returns a Boolean. -/
def TokenAnswered (r : Replica) (token : Option String) (now : Time) : Prop :=
  ∃ accepted, verifyToken hmacSha256 r token now = .ok accepted

/-- `login` hands out a token for the password itself, and answers 401 to every other text. -/
def LoginAnswered (r : Replica) (password : String) (now : Time) : Prop :=
  if password = r.password then ∃ token, login hmacSha256 r password now = .ok (some token)
  else login hmacSha256 r password now = .ok none

variable {hmacSha256}

theorem compareDigest_eq_ok_iff {a b : String} {equal : Bool} :
    compareDigest a b = .ok equal ↔ (isAscii a ∧ isAscii b) ∧ equal = decide (a = b) := by
  unfold compareDigest
  rw [← Bool.and_eq_true]
  split_ifs with h
  · simp [h, eq_comm]
  · simp [h]

/-- Past the comparison nothing raises: an unreadable payload is refused. -/
theorem exists_verifyToken {r : Replica} (henabled : r.authEnabled) {token : Option String}
    {payload sig : String} (hsplit : token.bind rsplitDot = some (payload, sig)) (now : Time) :
    ∃ accepts : Bool → Bool, verifyToken hmacSha256 r token now =
      (compareDigest (sign hmacSha256 r payload) sig).map accepts := by
  have hauth : ¬ ¬ r.authEnabled := not_not_intro henabled
  cases hexpiry : expiryOf payload with
  | none =>
    refine ⟨fun _ => false, ?_⟩
    rw [verifyToken, if_neg hauth, hsplit]
    simp only [hexpiry, ite_self]
    cases compareDigest (sign hmacSha256 r payload) sig <;> rfl
  | some expiry =>
    refine ⟨fun equal => equal && decide (now < expiry), ?_⟩
    rw [verifyToken, if_neg hauth, hsplit]
    simp only [hexpiry]
    cases compareDigest (sign hmacSha256 r payload) sig with
    | error e => rfl
    | ok equal => cases equal <;> rfl

theorem tokenAnswered_of_rsplitDot {r : Replica} (henabled : r.authEnabled)
    {token : Option String} {payload sig : String}
    (hsplit : token.bind rsplitDot = some (payload, sig)) (now : Time) :
    TokenAnswered hmacSha256 r token now ↔ isAscii sig := by
  obtain ⟨accepts, hverify⟩ := exists_verifyToken henabled hsplit now
  rw [TokenAnswered, hverify]
  cases hsig : isAscii sig with
  | false =>
    have hraise : compareDigest (sign hmacSha256 r payload) sig = .error .typeError := by
      rw [compareDigest, hsig, Bool.and_false, if_neg Bool.false_ne_true]
    simp [hraise, Except.map]
  | true =>
    have hascii := isAscii_sign hmacSha256 r payload
    rw [compareDigest_eq_ok_iff.mpr ⟨⟨hascii, hsig⟩, rfl⟩]
    exact iff_of_true ⟨_, rfl⟩ rfl

theorem tokenAnswered_iff (r : Replica) (token : Option String) (now : Time) :
    TokenAnswered hmacSha256 r token now ↔ ¬ r.authEnabled ∨ AsciiSignature token := by
  by_cases henabled : r.authEnabled
  · rw [or_iff_right (not_not_intro henabled)]
    cases hsplit : token.bind rsplitDot with
    | none =>
      refine iff_of_true ⟨false, ?_⟩ ?_
      · unfold verifyToken
        rw [if_neg (by simp [henabled]), hsplit]
      · intro payload sig h
        rw [hsplit] at h
        cases h
    | some parts =>
      obtain ⟨payload, sig⟩ := parts
      rw [tokenAnswered_of_rsplitDot henabled hsplit, AsciiSignature, hsplit]
      constructor
      · intro hsig payload' sig' h
        rw [← (Prod.mk.inj (Option.some.inj h)).2]
        exact hsig
      · intro hsig
        exact hsig payload sig rfl
  · refine iff_of_true ⟨true, ?_⟩ (Or.inl henabled)
    rw [verifyToken, if_pos (by simpa using henabled)]

theorem loginAnswered_iff {r : Replica} (henabled : r.authEnabled) (password : String)
    (now : Time) :
    LoginAnswered hmacSha256 r password now ↔ isAscii password ∧ isAscii r.password := by
  have hlogin : login hmacSha256 r password now =
      (compareDigest password r.password >>= fun equal =>
        if equal then .ok (some (createToken hmacSha256 r now)) else .ok none) := by
    rw [login, if_neg (by simp [henabled])]
    rfl
  rw [LoginAnswered, hlogin]
  cases hcompare : compareDigest password r.password with
  | error e =>
    have hascii : ¬ (isAscii password ∧ isAscii r.password) := by
      intro hascii
      rw [compareDigest_eq_ok_iff.mpr ⟨hascii, rfl⟩] at hcompare
      cases hcompare
    refine iff_of_false ?_ hascii
    split <;> simp
  | ok equal =>
    obtain ⟨hascii, rfl⟩ := compareDigest_eq_ok_iff.mp hcompare
    refine iff_of_true ?_ hascii
    rw [ok_bind]
    by_cases hequal : password = r.password
    · rw [if_pos hequal, decide_eq_true hequal, if_pos rfl]
      exact ⟨_, rfl⟩
    · rw [if_neg hequal, decide_eq_false hequal, if_neg Bool.false_ne_true]

/-- Every token gets its Boolean and every password its token or its 401, exactly as far as the
texts compared are ASCII. -/
theorem answered_iff (hmacSha256 : List UInt8 → List UInt8 → List UInt8) (r : Replica)
    (now : Time) :
    (∀ token, TokenAnswered hmacSha256 r token now ↔ ¬ r.authEnabled ∨ AsciiSignature token) ∧
    (r.authEnabled → ∀ password,
      LoginAnswered hmacSha256 r password now ↔ isAscii password ∧ isAscii r.password) :=
  ⟨fun token => tokenAnswered_iff r token now,
    fun henabled password => loginAnswered_iff henabled password now⟩

/-- A token whose signature is the letter é, and the password "müller" where "hunter2" is
configured, both raise. -/
theorem answered_raises :
    ¬ TokenAnswered (fun _ _ => []) ⟨"hunter2", [], 43200⟩ (some "x.é") 1760000000 ∧
    login (fun _ _ => []) ⟨"hunter2", [], 43200⟩ "müller" 1760000000 = .error .typeError ∧
    ¬ LoginAnswered (fun _ _ => []) ⟨"hunter2", [], 43200⟩ "müller" 1760000000 := by
  refine ⟨?_, by decide, ?_⟩
  · rw [tokenAnswered_iff]
    intro h
    rcases h with h | h
    · exact h (by decide)
    · have hsig := h "x" "é" (by decide)
      revert hsig
      decide
  · rw [loginAnswered_iff (by decide)]
    decide

end Auth

end PiWatch
