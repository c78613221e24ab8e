import PiWatch.Protocol.Failover
import PiWatch.Protocol.Retries
import PiWatch.Backend.AuthAnswers

/-!
# One login for all replicas

The replicas mount the same secret. A tab that logged in at one of them keeps its session when
it is moved to another, as long as its token has not expired.
-/

namespace PiWatch

namespace Auth

variable (hmacSha256 : List UInt8 → List UInt8 → List UInt8)

/-- A replica accepts what a replica it shares the secret with issued, until that expires. -/
theorem verifyToken_of_shares {c : Call} {r : Replica} (hshares : Shares c.replica r) {now : Time}
    (hnow : now < ⌊c.t⌋ + r.tokenTtl) :
    verifyToken hmacSha256 r (some (c.token hmacSha256)) now = .ok true := by
  by_cases henabled : r.authEnabled
  · have hsplit := Call.rsplitDot_token hmacSha256 hshares
    have hascii := isAscii_sign hmacSha256 r (payloadOf c.expiry)
    have hbefore : now < (c.expiry : ℚ) := by
      rw [Call.expiry_of_shares hshares]
      exact_mod_cast hnow
    have hcompare : compareDigest (sign hmacSha256 r (payloadOf c.expiry))
        (sign hmacSha256 r (payloadOf c.expiry)) = .ok true :=
      compareDigest_eq_ok_iff.mpr ⟨⟨hascii, hascii⟩, (decide_eq_true rfl).symm⟩
    rw [verifyToken, if_neg (not_not_intro henabled), Option.bind_some, hsplit]
    simp only [hcompare, expiryOf_payloadOf, ok_bind, if_true]
    exact congrArg Except.ok (decide_eq_true hbefore)
  · rw [verifyToken, if_pos henabled]

theorem login_eq_token {r : Replica} (henabled : r.authEnabled) {password token : String}
    {now : Time} (h : login hmacSha256 r password now = .ok (some token)) :
    token = createToken hmacSha256 r now := by
  rw [login, if_neg (not_not_intro henabled)] at h
  cases hcompare : compareDigest password r.password with
  | error e =>
    rw [hcompare, error_bind] at h
    cases h
  | ok equal =>
    rw [hcompare, ok_bind] at h
    cases equal with
    | false => cases h
    | true => exact (Option.some.inj (Except.ok.inj h)).symm

end Auth

namespace Connection

namespace Tab

@[simp] theorem token_cleanup (tab : Tab) (run : ℕ) : (tab.cleanup run).token = tab.token := by
  unfold cleanup
  split <;> rfl

@[simp] theorem status_cleanup (tab : Tab) (run : ℕ) : (tab.cleanup run).status = tab.status := by
  unfold cleanup
  split <;> rfl

/-- Without a login and without a refusal the tab keeps its token. -/
theorem token_step (tab : Tab) {ev : Event} (hlogin : ∀ token, ev ≠ .login token)
    (hrefusal : ∀ id, ev ≠ .closed id 4401) : (tab.step ev).token = tab.token ∧
      ((tab.step ev).status = .unauthorized → tab.status = .unauthorized) := by
  cases ev with
  | opened id =>
    unfold step
    dsimp only
    split
    · exact ⟨rfl, fun h => h⟩
    · split
      · exact ⟨rfl, fun h => by cases h⟩
      · exact ⟨rfl, fun h => h⟩
  | message id frame =>
    unfold step
    dsimp only
    split
    · exact ⟨rfl, fun h => h⟩
    · split
      · unfold onFrame
        dsimp only
        split
        · rw [token_cleanup, status_cleanup]
          exact ⟨rfl, fun h => h⟩
        · exact ⟨rfl, fun h => h⟩
      · exact ⟨rfl, fun h => h⟩
  | closed id code =>
    have hcode : code ≠ 4401 := by
      rintro rfl
      exact hrefusal id rfl
    unfold step
    dsimp only
    split
    · exact ⟨rfl, fun h => h⟩
    · split
      · exact ⟨rfl, fun h => h⟩
      · unfold onClose
        split
        · exact ⟨rfl, fun h => h⟩
        · split
          · exact ⟨rfl, fun h => h⟩
          · exact ⟨rfl, fun h => by cases h⟩
  | timeout id =>
    unfold step
    dsimp only
    split
    · exact ⟨rfl, fun h => h⟩
    · exact ⟨rfl, fun h => by cases h⟩
  | authAnswer req =>
    unfold step
    dsimp only
    split <;> exact ⟨rfl, fun h => h⟩
  | login token => exact absurd rfl (hlogin token)
  | remount =>
    unfold step
    dsimp only
    split
    · exact ⟨token_cleanup tab tab.run, fun h => by cases h⟩
    · exact ⟨rfl, fun h => h⟩

end Tab

end Connection

namespace Failover

open Connection Ws

variable {ρ : Type*} [DecidableEq ρ]

/-- The tab has a token, and no socket that is alive is about to be refused. -/
structure LoggedIn (token : String) (sys : Sys ρ) : Prop where
  kept : sys.tab.token = token
  status : sys.tab.status ≠ .unauthorized
  live : ∀ id s, sys.tab.sockets.get? id = some s → s.live →
    s.token = token ∧ ∀ peer, sys.peers.get? id = some peer → peer ≠ .refused

omit [DecidableEq ρ] in
theorem loggedIn_onTab {sys : Sys ρ} (h : Sound sys) {token : String} (hin : LoggedIn token sys)
    {ev : Event} (hlogin : ∀ t, ev ≠ .login t) (hrefusal : ∀ id, ev ≠ .closed id 4401) :
    LoggedIn token (sys.onTab ev) := by
  obtain ⟨htoken, hstatus⟩ := Tab.token_step sys.tab hlogin hrefusal
  obtain ⟨held, hwired⟩ := h.wired
  refine ⟨htoken.trans hin.kept, fun hafter => hin.status (hstatus hafter), ?_⟩
  intro id s' hs' hlive
  rcases Tab.sockets_step sys.tab ev hs' with ⟨s, hs, hkept⟩ | ⟨-, s, hs, hconn, rfl⟩ | hisnew
  · have hready : s'.ready = s.ready := by
      rcases hkept.ready with hsame | hclosed | hclosed
      · exact hsame
      · simp [Socket.live, hclosed] at hlive
      · simp [Socket.live, hclosed] at hlive
    have hbefore := hin.live id s hs (by rwa [Socket.live, hready] at hlive)
    exact ⟨hkept.token.trans hbefore.1, hbefore.2⟩
  · exact hin.live id s hs (Tab.live_iff.mpr (.inl hconn))
  · refine ⟨hisnew.2.2.trans (htoken.trans hin.kept), fun peer hpeer => ?_⟩
    change sys.peers.get? id = some peer at hpeer
    have hknown := h.known id (Dict.mem_def.mpr (by rw [hpeer]; rfl))
    exact absurd hisnew.1 (hwired.made id hknown).ne

omit [DecidableEq ρ] in
/-- A socket gets another verdict than a refusal, if it is alive. -/
theorem loggedIn_peers {sys sys' : Sys ρ} {token : String} (hin : LoggedIn token sys)
    (htab : sys'.tab = sys.tab)
    (hpeers : ∀ id s, sys.tab.sockets.get? id = some s → s.live →
      sys'.peers.get? id = some .refused → sys.peers.get? id = some .refused) :
    LoggedIn token sys' := by
  refine ⟨htab ▸ hin.kept, htab ▸ hin.status, fun id s hs hlive => ?_⟩
  rw [htab] at hs
  refine ⟨(hin.live id s hs hlive).1, fun peer hpeer href => ?_⟩
  subst href
  exact (hin.live id s hs hlive).2 _ (hpeers id s hs hlive hpeer) rfl

theorem loggedIn_forget {sys : Sys ρ} {token : String} (hin : LoggedIn token sys) (id : ℕ) :
    LoggedIn token (forget sys id) := by
  have hinsert : ∀ id', (sys.peers.insert id .lost).get? id' = some .refused →
      sys.peers.get? id' = some .refused := by
    intro id' hpeer
    rw [Dict.get?_insert] at hpeer
    split at hpeer
    · cases hpeer
    · exact hpeer
  unfold forget
  split
  · exact loggedIn_peers hin rfl fun id' s hs hlive hpeer => hinsert id' hpeer
  · exact loggedIn_peers hin rfl fun id' s hs hlive hpeer => hinsert id' hpeer

section Steps

variable (hmacSha256 : List UInt8 → List UInt8 → List UInt8)

theorem loggedIn_accept {sys : Sys ρ} {token : String} (hin : LoggedIn token sys) {id : ℕ}
    {s : Socket} (hs : sys.tab.sockets.get? id = some s) (r : ρ) {now : Time}
    (haccepted : Auth.verifyToken hmacSha256 (sys.backends r).auth (some token) now = .ok true) :
    LoggedIn token (accept hmacSha256 sys id r s.token now) := by
  have hothers : ∀ peer : Peer ρ, (s.live → peer ≠ .refused) → ∀ id' s',
      sys.tab.sockets.get? id' = some s' → s'.live →
      (sys.peers.insert id peer).get? id' = some .refused →
      sys.peers.get? id' = some .refused := by
    intro peer hpeer id' s' hs' hlive href
    rw [Dict.get?_insert] at href
    split at href
    · rename_i heq
      subst heq
      obtain rfl := Option.some.inj (hs.symm.trans hs')
      exact absurd (Option.some.inj href) (hpeer hlive)
    · exact href
  have hverdict : s.live → Auth.verifyToken hmacSha256 (sys.backends r).auth (some s.token) now =
      .ok true := by
    intro hlive
    rw [(hin.live id s hs hlive).1]
    exact haccepted
  unfold accept
  split
  · exact loggedIn_peers hin rfl (hothers _ fun _ heq => by cases heq)
  · rename_i hrefused
    refine loggedIn_peers hin rfl (hothers _ fun hlive => ?_)
    rw [hverdict hlive] at hrefused
    cases hrefused
  · exact loggedIn_peers hin rfl (hothers _ fun _ heq => by cases heq)

omit [DecidableEq ρ] in
theorem loggedIn_refuse {sys : Sys ρ} (h : Sound sys) {token : String}
    (hin : LoggedIn token sys) {id : ℕ} (hpeer : sys.peers.get? id = some .refused) :
    LoggedIn token (sys.onTab (.closed id 4401)) := by
  obtain ⟨held, hwired⟩ := h.wired
  obtain ⟨s, hs⟩ := Option.isSome_iff_exists.mp
    (h.known id (Dict.mem_def.mpr (by rw [hpeer]; rfl)))
  have hdead : ¬ s.live := fun hlive => (hin.live id s hs hlive).2 _ hpeer rfl
  rcases Tab.step_closed_dead hwired hs hdead 4401 with heq | heq
  · rw [Sys.onTab, heq]
    exact hin
  · rw [Sys.onTab, heq]
    refine ⟨hin.kept, hin.status, fun id' s' hs' hlive => ?_⟩
    change (sys.tab.sockets.insert id { s with ready := .closed }).get? id' = some s' at hs'
    rw [Dict.get?_insert] at hs'
    split at hs'
    · obtain rfl := Option.some.inj hs'
      simp [Socket.live] at hlive
    · exact hin.live id' s' hs' hlive

/-- Nobody logs in again, and every replica the tab reaches still takes the token. -/
def Action.Within (auth : ρ → Auth.Replica) (token : String) : Action ρ → Prop
  | .accept _ r now => Auth.verifyToken hmacSha256 (auth r) (some token) now = .ok true
  | .login _ _ _ => False
  | _ => True

theorem loggedIn_step {sys : Sys ρ} (h : Sound sys) {token : String} (hin : LoggedIn token sys)
    {a : Action ρ} (ha : a.Within hmacSha256 (fun r => (sys.backends r).auth) token) :
    LoggedIn token (step hmacSha256 sys a) := by
  cases a with
  | call r op => exact loggedIn_peers hin rfl fun _ _ _ _ hpeer => hpeer
  | take r id => exact loggedIn_peers hin rfl fun _ _ _ _ hpeer => hpeer
  | heartbeat r id => exact loggedIn_peers hin rfl fun _ _ _ _ hpeer => hpeer
  | replace r s =>
    refine loggedIn_peers hin rfl fun id s' hs' hlive hpeer => ?_
    rw [step, Dict.get?_mapValues] at hpeer
    obtain ⟨peer, hold, hmapped⟩ := Option.map_eq_some_iff.mp hpeer
    cases peer with
    | refused => exact hold
    | lost => cases hmapped
    | served r' =>
      dsimp only at hmapped
      split at hmapped <;> cases hmapped
  | accept id r now =>
    unfold step
    dsimp only
    split
    · rename_i s hs hpeer
      exact loggedIn_accept hmacSha256 hin hs r ha
    · exact hin
  | opened id =>
    unfold step
    dsimp only
    split
    · exact loggedIn_onTab h hin (by simp) (by simp)
    · exact hin
  | deliver id =>
    unfold step deliver
    dsimp only
    split
    · split
      · split
        · split
          · rename_i frame rest hflight
            have htab : LoggedIn token (sys.onTab (.message id frame)) :=
              loggedIn_onTab h hin (by simp) (by simp)
            exact loggedIn_peers htab rfl fun _ _ _ _ hpeer => hpeer
          · exact hin
        · exact hin
      · exact hin
    · exact hin
  | refuse id =>
    unfold step
    dsimp only
    split
    · rename_i hpeer
      exact loggedIn_refuse h hin hpeer
    · exact hin
  | lose id code =>
    unfold step
    dsimp only
    split
    · exact hin
    · rename_i hboth
      push Not at hboth
      refine loggedIn_onTab (sound_forget h hboth.2) (loggedIn_forget hin id) (by simp) ?_
      intro id' heq
      exact hboth.1 (Event.closed.inj heq).2
  | timeout id => exact loggedIn_onTab h hin (by simp) (by simp)
  | authAnswer req => exact loggedIn_onTab h hin (by simp) (by simp)
  | login r password now => exact absurd ha id
  | remount => exact loggedIn_onTab h hin (by simp) (by simp)

theorem auth_setServer (sys : Sys ρ) (r r' : ρ) (server : Server) :
    ((sys.setServer r server).backends r').auth = (sys.backends r').auth := by
  change (Function.update sys.backends r ⟨(sys.backends r).auth, server⟩ r').auth = _
  rw [Function.update_apply]
  split
  · rename_i hr
    rw [hr]
  · rfl

/-- What a replica reads from its environment stays. -/
theorem auth_step (sys : Sys ρ) (a : Action ρ) (r : ρ) :
    ((step hmacSha256 sys a).backends r).auth = (sys.backends r).auth := by
  cases a with
  | call r' op => exact auth_setServer sys r' r _
  | take r' id => exact auth_setServer sys r' r _
  | heartbeat r' id => exact auth_setServer sys r' r _
  | replace r' s => exact auth_setServer sys r' r _
  | accept id r' now =>
    unfold step accept
    dsimp only
    split
    · split
      · exact auth_setServer sys r' r _
      · rfl
      · rfl
    · rfl
  | opened id =>
    unfold step
    dsimp only
    split <;> rfl
  | deliver id =>
    unfold step deliver
    dsimp only
    split
    · split
      · split
        · split
          · exact auth_setServer _ _ r _
          · rfl
        · rfl
      · rfl
    · rfl
  | refuse id =>
    unfold step
    dsimp only
    split <;> rfl
  | lose id code =>
    unfold step
    dsimp only
    split
    · rfl
    · unfold forget
      split
      · exact auth_setServer sys _ r _
      · rfl
  | timeout id => rfl
  | authAnswer req => rfl
  | login r' password now =>
    unfold step
    dsimp only
    split <;> rfl
  | remount => rfl

theorem auth_run (sys : Sys ρ) (as : List (Action ρ)) (r : ρ) :
    ((runFrom (step hmacSha256) sys as).backends r).auth = (sys.backends r).auth := by
  induction as generalizing sys with
  | nil => rfl
  | cons a as ih => exact (ih (step hmacSha256 sys a)).trans (auth_step hmacSha256 sys a r)

omit [DecidableEq ρ] in
/-- The login itself: the one socket alive afterwards carries the new token. -/
theorem loggedIn_login {sys : Sys ρ} (h : Sound sys) (hmounted : sys.tab.mounted)
    (token : String) : LoggedIn token (sys.onTab (.login token)) := by
  obtain ⟨held, hwired⟩ := h.wired
  have hstep : sys.tab.step (.login token) =
      { sys.tab with token := token, needsLogin := some false }.rerun := if_pos hmounted
  have hagain := @Tab.wired_rerun { sys.tab with token := token, needsLogin := some false } held
    ⟨{ hwired.toNumbered with }, hwired.only, hwired.current⟩ hmounted
  have hsocket := (Tab.sockets_rerun { sys.tab with token := token, needsLogin := some false }).2
  have htoken : (sys.tab.step (.login token)).token = token := by
    rw [hstep]
    exact Tab.token_cleanup _ _
  refine ⟨htoken, ?_, fun id s hs hlive => ?_⟩
  · change (sys.tab.step (.login token)).status ≠ .unauthorized
    rw [hstep]
    intro hstatus
    cases hstatus
  · change (sys.tab.step (.login token)).sockets.get? id = some s at hs
    rw [hstep] at hs
    have hid : id = sys.tab.made :=
      (Tab.Resource.socket.inj (Option.some.inj ((hagain.only (.socket id)).mp
        ⟨s, hs, hlive⟩))).symm
    subst hid
    obtain rfl := Option.some.inj (hsocket.symm.trans hs)
    refine ⟨rfl, fun peer hpeer => ?_⟩
    change sys.peers.get? sys.tab.made = some peer at hpeer
    have hknown := h.known _ (Dict.mem_def.mpr (by rw [hpeer]; rfl))
    exact absurd (hwired.made _ hknown) (lt_irrefl _)

/-- The action happens before some second, and nobody logs in again. -/
def Action.Before (expiry : ℤ) : Action ρ → Prop
  | .accept _ _ now => now < expiry
  | .login _ _ _ => False
  | a => a.Sensible

theorem loggedIn_run {auth : ρ → Auth.Replica} {sys : Sys ρ} (h : Sound sys) {token : String}
    (hin : LoggedIn token sys) (hauth : ∀ r, (sys.backends r).auth = auth r)
    {as : List (Action ρ)}
    (has : ∀ a ∈ as, a.Sensible ∧ a.Within hmacSha256 auth token) :
    LoggedIn token (runFrom (step hmacSha256) sys as) := by
  induction as generalizing sys with
  | nil => exact hin
  | cons a as ih =>
    obtain ⟨hsensible, hwithin⟩ := has a (by simp)
    have hsame : (fun r => (sys.backends r).auth) = auth := funext hauth
    exact ih (soundSys_step hmacSha256 h hsensible)
      (loggedIn_step hmacSha256 h hin (hsame ▸ hwithin))
      (fun r => (auth_step hmacSha256 sys a r).trans (hauth r)) fun b hb => has b (by simp [hb])

end Steps

/-- A tab that logged in at one replica stays logged in, whichever replicas it is moved to and
however often they are replaced, while what they are shown is before the token's expiry: no
socket that is alive is refused, and the login form does not come back. -/
theorem session_survives (hmacSha256 : List UInt8 → List UInt8 → List UInt8) (old : String)
    (auth : ρ → Auth.Replica) (states : ρ → ClusterState) (hstates : ∀ r, (states r).Reachable)
    (as : List (Action ρ)) (has : ∀ a ∈ as, a.Sensible) (r₀ : ρ)
    (henabled : (auth r₀).authEnabled) (hshares : ∀ r, Auth.Shares (auth r₀) (auth r))
    (password : String) (t₀ : Time) (ht₀ : 0 ≤ t₀) (token : String)
    (hlogin : Auth.login hmacSha256 (auth r₀) password t₀ = .ok (some token))
    (hmounted : (runFrom (step hmacSha256) (start old auth states) as).tab.mounted)
    (as' : List (Action ρ)) (has' : ∀ a ∈ as', a.Before (⌊t₀⌋ + (auth r₀).tokenTtl)) :
    (runFrom (step hmacSha256) (start old auth states)
      (as ++ .login r₀ password t₀ :: as')).tab.status ≠ .unauthorized ∧
    (runFrom (step hmacSha256) (start old auth states)
      (as ++ .login r₀ password t₀ :: as')).tab.token = token ∧
    ∀ id s, (runFrom (step hmacSha256) (start old auth states)
        (as ++ .login r₀ password t₀ :: as')).tab.sockets.get? id = some s → s.live →
      s.token = token ∧ (runFrom (step hmacSha256) (start old auth states)
        (as ++ .login r₀ password t₀ :: as')).peers.get? id ≠ some .refused := by
  have hsound := soundSys_run hmacSha256 (soundSys_start old auth hstates) has
  have hauth : ∀ r, ((runFrom (step hmacSha256) (start old auth states) as).backends r).auth =
      auth r := by
    exact fun r => auth_run hmacSha256 (start old auth states) as r
  rw [runFrom_append, runFrom_cons]
  set sys := runFrom (step hmacSha256) (start old auth states) as
  have hstep : step hmacSha256 sys (.login r₀ password t₀) = sys.onTab (.login token) := by
    simp only [step, hauth, hlogin]
  have hwithin : ∀ a ∈ as', a.Sensible ∧ a.Within hmacSha256 auth token := by
    intro a ha
    have hbefore := has' a ha
    cases a with
    | accept id r now =>
      refine ⟨trivial, ?_⟩
      have hissued := Auth.login_eq_token hmacSha256 henabled hlogin
      have hnow : now < (⌊t₀⌋ : ℚ) + (auth r).tokenTtl := by
        rw [← (hshares r).2]
        exact_mod_cast hbefore
      have haccepted := Auth.verifyToken_of_shares (c := ⟨auth r₀, t₀, ht₀⟩) hmacSha256
        (hshares r) hnow
      rwa [Auth.Call.token, ← hissued] at haccepted
    | login r p n => exact absurd hbefore id
    | call r op => exact ⟨hbefore, trivial⟩
    | replace r s => exact ⟨hbefore, trivial⟩
    | _ => exact ⟨trivial, trivial⟩
  have hin : LoggedIn token (runFrom (step hmacSha256) (sys.onTab (.login token)) as') :=
    loggedIn_run hmacSha256 (sound_onTab hsound (by simp)) (loggedIn_login hsound hmounted token)
      hauth hwithin
  rw [hstep]
  exact ⟨hin.status, hin.kept, fun id s hs hlive =>
    ⟨(hin.live id s hs hlive).1, fun href => (hin.live id s hs hlive).2 _ href rfl⟩⟩

/-- Two replicas with the same secret. -/
def sharedAuth : Bool → Auth.Replica := fun _ => ⟨"hunter2", Auth.encodeText "s3cret", 43200⟩

/-- The HMAC of the payload of a login at 1760000000 under that secret. -/
private def loginDigest : List UInt8 :=
  [163, 246, 32, 45, 65, 56, 217, 75, 145, 164, 66, 188, 198, 226, 230, 233, 242, 178, 137,
    193, 52, 168, 57, 203, 69, 29, 1, 47, 166, 103, 44, 194]

/-- Connected to one replica after the login, then to the other. -/
def movedActions : List (Action Bool) :=
  [.accept 1 true 1760000060, .opened 1, .deliver 1, .lose 1 1006, .timeout 0,
    .accept 2 false 1760000120]

def afterMove : Sys Bool :=
  runFrom (step fun _ _ => loginDigest) (start "" sharedAuth fun _ => ClusterState.init 0)
    ([] ++ .login false "hunter2" 1760000000 :: movedActions)

theorem session_survives_move :
    afterMove.tab.status ≠ .unauthorized ∧
    afterMove.tab.token =
      "MTc2MDA0MzIwMA.a3f6202d4138d94b91a442bcc6e2e6e9f2b289c134a839cb451d012fa6672cc2" ∧
    ∀ id s, afterMove.tab.sockets.get? id = some s → s.live →
      s.token =
        "MTc2MDA0MzIwMA.a3f6202d4138d94b91a442bcc6e2e6e9f2b289c134a839cb451d012fa6672cc2" ∧
      afterMove.peers.get? id ≠ some .refused := by
  have hstate : (ClusterState.init 0).Reachable := ⟨0, ∅, [], by simp, rfl⟩
  have hlogin : Auth.login (fun _ _ => loginDigest) (sharedAuth false) "hunter2" 1760000000 =
      .ok (some
        "MTc2MDA0MzIwMA.a3f6202d4138d94b91a442bcc6e2e6e9f2b289c134a839cb451d012fa6672cc2") := by
    decide +kernel
  have hbefore : ∀ a ∈ movedActions,
      a.Before (⌊(1760000000 : Time)⌋ + (sharedAuth false).tokenTtl) := by
    have hfloor : ⌊(1760000000 : Time)⌋ = 1760000000 := by norm_num [Time]
    intro a ha
    simp only [movedActions, List.mem_cons, List.not_mem_nil, or_false] at ha
    rw [hfloor]
    rcases ha with rfl | rfl | rfl | rfl | rfl | rfl <;>
      simp only [Action.Before, Action.Sensible, sharedAuth] <;> norm_num [Time]
  exact session_survives (fun _ _ => loginDigest) "" sharedAuth (fun _ => ClusterState.init 0)
    (fun _ => hstate) [] (by simp) false (by decide) (fun _ => ⟨rfl, rfl⟩) "hunter2" 1760000000
    (by norm_num [Time]) _ hlogin (by decide +kernel) movedActions hbefore

end Failover

end PiWatch
