import PiWatch.Framework.GuardedLoop
import PiWatch.Backend.Auth

/-!
# Tokens across the replicas

Replicas that share the secret and the lifetime accept each other's tokens, and no others.
-/

namespace PiWatch

namespace Auth

/-- A `create_token` call. The clock reads seconds since the epoch. -/
structure Call where
  replica : Replica
  t : Time
  nonneg : 0 ≤ t

/-- The replicas sign alike and issue tokens of the same lifetime. -/
def Shares (r r' : Replica) : Prop := r.secret = r'.secret ∧ r.tokenTtl = r'.tokenTtl

variable (hmacSha256 : List UInt8 → List UInt8 → List UInt8)

def Call.token (c : Call) : String := createToken hmacSha256 c.replica c.t

def Call.expiry (c : Call) : ℤ := ⌊c.t⌋ + c.replica.tokenTtl

/-- The signature a token presents is one of a payload some call signed. -/
def Unforged (r : Replica) (calls : Set Call) (token : String) : Prop :=
  ∀ payload sig, rsplitDot token = some (payload, sig) →
    sig = sign hmacSha256 r payload → ∃ c ∈ calls, payload = payloadOf c.expiry

variable {hmacSha256}

theorem Call.token_eq (c : Call) :
    c.token hmacSha256 =
      payloadOf c.expiry ++ "." ++ sign hmacSha256 c.replica (payloadOf c.expiry) := by
  rw [Call.token, createToken, wholeSeconds, if_pos c.nonneg]
  rfl

variable (hmacSha256) in
/-- A token of another replica is one of this replica. -/
theorem Call.token_of_shares {c : Call} {r : Replica} (h : Shares c.replica r) :
    c.token hmacSha256 = payloadOf c.expiry ++ "." ++ sign hmacSha256 r (payloadOf c.expiry) := by
  rw [Call.token_eq, sign, sign, h.1]

theorem Call.expiry_of_shares {c : Call} {r : Replica} (h : Shares c.replica r) :
    c.expiry = ⌊c.t⌋ + r.tokenTtl := by
  rw [Call.expiry, h.2]

variable (hmacSha256) in
/-- The signed part and the signature are found again. -/
theorem Call.rsplitDot_token {c : Call} {r : Replica} (h : Shares c.replica r) :
    rsplitDot (c.token hmacSha256) =
      some (payloadOf c.expiry, sign hmacSha256 r (payloadOf c.expiry)) := by
  rw [Call.token_of_shares hmacSha256 h]
  exact rsplitDot_append _ fun hmem => (mem_sign hmem).1 rfl

/-- What a token is split into decides whether it is accepted. -/
theorem accepted_iff_of_rsplitDot {r : Replica} (henabled : r.authEnabled)
    {token payload sig : String} (hsplit : rsplitDot token = some (payload, sig)) {now : Time}
    {accepted : Bool} (h : verifyToken hmacSha256 r (some token) now = .ok accepted) :
    accepted ↔ sig = sign hmacSha256 r payload ∧
      ∃ expiry : ℤ, expiryOf payload = some expiry ∧ now < expiry := by
  unfold verifyToken compareDigest at h
  rw [if_neg (by simp [henabled]), Option.bind_some, hsplit] at h
  dsimp only at h
  split at h
  · rw [ok_bind] at h
    by_cases hsig : sign hmacSha256 r payload = sig
    · rw [decide_eq_true hsig, if_pos rfl] at h
      cases hexpiry : expiryOf payload with
      | none =>
        rw [hexpiry] at h
        obtain rfl := Except.ok.inj h
        simp
      | some expiry =>
        rw [hexpiry] at h
        obtain rfl := Except.ok.inj h
        simp [hsig]
    · rw [decide_eq_false hsig, if_neg Bool.false_ne_true] at h
      obtain rfl := Except.ok.inj h
      simp [Ne.symm hsig]
  · rw [error_bind] at h
    cases h

theorem not_accepted_of_noDot {r : Replica} (henabled : r.authEnabled) {token : String}
    (hsplit : rsplitDot token = none) (now : Time) :
    verifyToken hmacSha256 r (some token) now = .ok false := by
  unfold verifyToken
  rw [if_neg (by simp [henabled]), Option.bind_some, hsplit]

/-- A token is accepted at a time exactly if some call of a replica issued it, character for
character, and the time comes before the whole second of that call plus the lifetime. -/
theorem verifyToken_iff_issued (r : Replica) (henabled : r.authEnabled) (calls : Set Call)
    (hshares : ∀ c ∈ calls, Shares c.replica r) (token : String)
    (hunforged : Unforged hmacSha256 r calls token) (now : Time) (accepted : Bool)
    (hreturns : verifyToken hmacSha256 r (some token) now = .ok accepted) :
    accepted = true ↔
      ∃ c ∈ calls, token = createToken hmacSha256 c.replica c.t ∧ now < ⌊c.t⌋ + r.tokenTtl := by
  cases hsplit : rsplitDot token with
  | none =>
    rw [not_accepted_of_noDot henabled hsplit now] at hreturns
    obtain rfl := Except.ok.inj hreturns
    constructor
    · intro haccepted
      cases haccepted
    · intro hissued
      obtain ⟨c, hc, rfl, -⟩ := hissued
      have hparts := Call.rsplitDot_token hmacSha256 (hshares c hc)
      rw [Call.token, hsplit] at hparts
      cases hparts
  | some parts =>
    obtain ⟨payload, sig⟩ := parts
    rw [accepted_iff_of_rsplitDot henabled hsplit hreturns]
    constructor
    · intro haccepted
      obtain ⟨hsig, expiry, hexpiry, hnow⟩ := haccepted
      obtain ⟨c, hc, rfl⟩ := hunforged payload sig hsplit hsig
      rw [expiryOf_payloadOf] at hexpiry
      obtain rfl := Option.some.inj hexpiry
      have htoken := Call.token_of_shares hmacSha256 (hshares c hc)
      rw [Call.expiry_of_shares (hshares c hc)] at hnow
      refine ⟨c, hc, ?_, by exact_mod_cast hnow⟩
      rw [eq_of_rsplitDot hsplit, hsig, ← htoken, Call.token]
    · intro hissued
      obtain ⟨c, hc, rfl, hnow⟩ := hissued
      have hparts := Call.rsplitDot_token hmacSha256 (hshares c hc)
      rw [Call.token, hsplit] at hparts
      obtain ⟨rfl, rfl⟩ := Prod.mk.inj (Option.some.inj hparts)
      refine ⟨rfl, c.expiry, expiryOf_payloadOf c.expiry, ?_⟩
      rw [Call.expiry_of_shares (hshares c hc)]
      exact_mod_cast hnow

private def replica : Replica where
  password := "hunter2"
  secret := encodeText "s3cret"
  tokenTtl := 43200

private def issued : Call where
  replica := replica
  t := 1760000000
  nonneg := by norm_num

/-- The HMAC of the issued payload under the secret. -/
private def digest : List UInt8 :=
  [163, 246, 32, 45, 65, 56, 217, 75, 145, 164, 66, 188, 198, 226, 230, 233, 242, 178, 137,
    193, 52, 168, 57, 203, 69, 29, 1, 47, 166, 103, 44, 194]

private theorem token_issued : issued.token (fun _ _ => digest) =
    "MTc2MDA0MzIwMA.a3f6202d4138d94b91a442bcc6e2e6e9f2b289c134a839cb451d012fa6672cc2" := by
  decide +kernel

/-- The token of a call is accepted a minute later. -/
theorem verifyToken_iff_issued_minute :
    true = true ↔ ∃ c ∈ ({issued} : Set Call),
      "MTc2MDA0MzIwMA.a3f6202d4138d94b91a442bcc6e2e6e9f2b289c134a839cb451d012fa6672cc2" =
        createToken (fun _ _ => digest) c.replica c.t ∧
        (1760000060 : ℚ) < ⌊c.t⌋ + replica.tokenTtl := by
  have hshares : ∀ c ∈ ({issued} : Set Call), Shares c.replica replica := by
    rintro c rfl
    exact ⟨rfl, rfl⟩
  apply verifyToken_iff_issued replica (by decide) {issued} hshares
  · intro payload sig hsplit _
    have hparts := Call.rsplitDot_token (fun _ _ => digest) (hshares issued rfl)
    rw [token_issued, hsplit] at hparts
    exact ⟨issued, rfl, (Prod.mk.inj (Option.some.inj hparts)).1⟩
  · decide +kernel

end Auth

end PiWatch
