import PiWatch.Framework.Noninterference
import PiWatch.Backend.Auth
import PiWatch.Backend.HealthReport
import PiWatch.Backend.Dumps
import PiWatch.Backend.WireForms
import PiWatch.Backend.StaticFiles
import PiWatch.Protocol.Ws

/-!
# The surface of the backend

The routes `main.py` declares in one place: which of them ask for a token, and what each answers.
Somebody without an accepted token learns whether the collectors have found a node, and nothing
else about the cluster. The mount of `/assets` and the pages FastAPI adds (`/docs`, `/redoc`,
`/openapi.json`) are no requests here: they are the same in every cluster. A path under `assets/`
is answered like any other one of the single page.
-/

namespace PiWatch

open Ws (Server)

namespace Access

/-- `STATIC_DIR` and the file system around it. -/
structure Static where
  tree : FileTree
  cwd : Location
  dir : List Char

/-- What the process has read from its environment; without static files only the API is
served. -/
structure Config where
  auth : Auth.Replica
  static : Option Static

structure App where
  config : Config
  server : Server
  now : Time

inductive Request
  | getState (authorization : Option String)
  | exportHealthchecks (authorization : Option String)
  | healthz
  | readyz
  | login (password : String)
  | authInfo
  | wsState (id : ℕ) (token : Option String)
  | wsLogs (namespace_ pod : String) (token container : Option String)
  | spa (fullPath : List Char)

/-- How a request ends. An exception of an endpoint is a failure that says nothing more. -/
inductive Answer
  | json (status : ℕ) (body : Json)
  | csv (content filename : String)
  | file (path : List Char)
  | closed (code : ℕ) (reason : String)
  | subscribed
  | logs (namespace_ pod : String) (container : Option String) (demo : Bool)
  | failed

/-- The answer to an `HTTPException`. -/
def httpException (status : ℕ) (detail : String) : Answer :=
  .json status (.obj [("detail", .str detail)])

/-- `readyz`: whether the collectors have produced a node. -/
def App.ready (app : App) : Bool :=
  app.server.state.nodes.entries ≠ [] ∨ app.server.state.demoMode

section Endpoints

variable (hmacSha256 : List UInt8 → List UInt8 → List UInt8) (other : Json → String)
  (strftime : Time → String)

/-- `get_state`. `JSONResponse` refuses numbers that are not finite. -/
def getState (app : App) : Answer :=
  let body := app.server.state.snapshot.toJson
  if body.isFinite then .json 200 body else .failed

def exportHealthchecks (app : App) : Answer :=
  .csv (app.server.state.healthchecksReportCsv other)
    ("piwatch-healthchecks-" ++ strftime app.now ++ ".csv")

def readyz (app : App) : Answer :=
  .json (if app.ready then 200 else 503) (.obj [("ready", .bool app.ready)])

def login (app : App) (password : String) : Answer :=
  match Auth.login hmacSha256 app.config.auth password app.now with
  | .error _ => .failed
  | .ok none => httpException 401 "Invalid password"
  | .ok (some token) =>
    if app.config.auth.authEnabled then
      .json 200 (.obj [("token", .str token), ("auth", .bool true),
        ("ttl", .num (.finite app.config.auth.tokenTtl))])
    else .json 200 (.obj [("token", .str token), ("auth", .bool false)])

def spa (app : App) (fullPath : List Char) : Answer :=
  match app.config.static with
  | none => httpException 404 "Not Found"
  | some static =>
    match StaticFiles.spa static.tree static.cwd static.dir fullPath with
    | .error _ => .failed
    | .ok path => .file path

/-- `Depends(require_auth)` in front of an endpoint. -/
def guarded (endpoint : App → Answer) (app : App) (authorization : Option String) : Answer :=
  match Auth.requireAuth hmacSha256 app.config.auth authorization app.now with
  | .error _ => .failed
  | .ok false => httpException 401 "Not authenticated"
  | .ok true => endpoint app

/-- A socket is accepted first, and closed if its token is not. -/
def socket (opened : App → Answer × App) (app : App) (token : Option String) : Answer × App :=
  match Auth.verifyToken hmacSha256 app.config.auth token app.now with
  | .error _ => (.failed, app)
  | .ok false => (.closed 4401 "unauthorized", app)
  | .ok true => opened app

def wsState (id : ℕ) : App → Option String → Answer × App :=
  socket hmacSha256 fun app =>
    (.subscribed, { app with server := Ws.step app.server (.connect id) })

def wsLogs (namespace_ pod : String) (container : Option String) :
    App → Option String → Answer × App :=
  socket hmacSha256 fun app =>
    (.logs namespace_ pod container app.server.state.demoMode, app)

def visit (app : App) : Request → Answer × App
  | .getState authorization => (guarded hmacSha256 getState app authorization, app)
  | .exportHealthchecks authorization =>
    (guarded hmacSha256 (exportHealthchecks other strftime) app authorization, app)
  | .healthz => (.json 200 (.obj [("ok", .bool true)]), app)
  | .readyz => (readyz app, app)
  | .login password => (login hmacSha256 app password, app)
  | .authInfo => (.json 200 (.obj [("auth", .bool app.config.auth.authEnabled)]), app)
  | .wsState id token => wsState hmacSha256 id app token
  | .wsLogs namespace_ pod token container => wsLogs hmacSha256 namespace_ pod container app token
  | .spa fullPath => (spa app fullPath, app)

/-- The collectors and the other clients at work until some moment. -/
def move (app : App) (work : List Ws.Act × Time) : App :=
  { app with server := runFrom Ws.step app.server work.1, now := work.2 }

def machine : Visited App (List Ws.Act × Time) Request Answer :=
  ⟨move, visit hmacSha256 other strftime⟩

/-! ## Without an accepted token -/

/-- The request asks for a token and brings one that is accepted. -/
def LetThrough (app : App) : Request → Prop
  | .getState authorization =>
    Auth.requireAuth hmacSha256 app.config.auth authorization app.now = .ok true
  | .exportHealthchecks authorization =>
    Auth.requireAuth hmacSha256 app.config.auth authorization app.now = .ok true
  | .wsState _ token => Auth.verifyToken hmacSha256 app.config.auth token app.now = .ok true
  | .wsLogs _ _ token _ => Auth.verifyToken hmacSha256 app.config.auth token app.now = .ok true
  | _ => False

/-- A request from outside. It may ask for the readiness of systems that agree on it. -/
def Outside (app app' : App) (r : Request) : Prop :=
  ¬ LetThrough hmacSha256 app r ∧ (r = .readyz → app.ready = app'.ready)

/-- What an outsider can tell from the rest: the environment and the time. -/
def SameOutside (app app' : App) : Prop := app.config = app'.config ∧ app.now = app'.now

variable {hmacSha256 other strftime}

theorem guarded_of_not_letThrough {endpoint : App → Answer} {app app' : App}
    {authorization : Option String} (hsame : SameOutside app app')
    (hrefused : Auth.requireAuth hmacSha256 app.config.auth authorization app.now ≠ .ok true) :
    guarded hmacSha256 endpoint app authorization =
      guarded hmacSha256 endpoint app' authorization := by
  obtain ⟨hconfig, hnow⟩ := hsame
  unfold guarded
  rw [← hconfig, ← hnow]
  cases hasked : Auth.requireAuth hmacSha256 app.config.auth authorization app.now with
  | error _ => rfl
  | ok accepted =>
    cases accepted with
    | false => rfl
    | true => exact absurd hasked hrefused

theorem socket_snd_of_not_letThrough {opened : App → Answer × App} {app : App}
    {token : Option String}
    (hrefused : Auth.verifyToken hmacSha256 app.config.auth token app.now ≠ .ok true) :
    (socket hmacSha256 opened app token).2 = app := by
  unfold socket
  cases hasked : Auth.verifyToken hmacSha256 app.config.auth token app.now with
  | error _ => rfl
  | ok accepted =>
    cases accepted with
    | false => rfl
    | true => exact absurd hasked hrefused

theorem socket_fst_congr {opened : App → Answer × App} {app app' : App} {token : Option String}
    (hsame : SameOutside app app')
    (hrefused : Auth.verifyToken hmacSha256 app.config.auth token app.now ≠ .ok true) :
    (socket hmacSha256 opened app token).1 = (socket hmacSha256 opened app' token).1 := by
  obtain ⟨hconfig, hnow⟩ := hsame
  unfold socket
  rw [← hconfig, ← hnow]
  cases hasked : Auth.verifyToken hmacSha256 app.config.auth token app.now with
  | error _ => rfl
  | ok accepted =>
    cases accepted with
    | false => rfl
    | true => exact absurd hasked hrefused

/-- A request from outside changes nothing, neither the state nor who is subscribed. -/
theorem visit_snd_of_outside {app app' : App} {r : Request} (h : Outside hmacSha256 app app' r) :
    (visit hmacSha256 other strftime app r).2 = app := by
  obtain ⟨hrefused, -⟩ := h
  cases r with
  | wsState id token => exact socket_snd_of_not_letThrough hrefused
  | wsLogs namespace_ pod token container => exact socket_snd_of_not_letThrough hrefused
  | _ => rfl

theorem visit_fst_of_outside {app app' : App} {r : Request} (hsame : SameOutside app app')
    (h : Outside hmacSha256 app app' r) :
    (visit hmacSha256 other strftime app r).1 = (visit hmacSha256 other strftime app' r).1 := by
  obtain ⟨hrefused, hready⟩ := h
  have hconfig := hsame.1
  have hnow := hsame.2
  cases r with
  | getState authorization => exact guarded_of_not_letThrough hsame hrefused
  | exportHealthchecks authorization => exact guarded_of_not_letThrough hsame hrefused
  | healthz => rfl
  | readyz => simp only [visit, readyz, hready rfl]
  | login password => simp only [visit, login, hconfig, hnow]
  | authInfo => simp only [visit, hconfig]
  | wsState id token => exact socket_fst_congr hsame hrefused
  | wsLogs namespace_ pod token container =>
    unfold visit wsLogs
    exact socket_fst_congr hsame hrefused
  | spa fullPath => simp only [visit, spa, hconfig]

/-- What is outside for one of two such systems is outside for the other. -/
theorem outside_symm {app app' : App} {r : Request} (hsame : SameOutside app app')
    (h : Outside hmacSha256 app app' r) : Outside hmacSha256 app' app r := by
  obtain ⟨hconfig, hnow⟩ := hsame
  obtain ⟨hrefused, hready⟩ := h
  refine ⟨?_, fun hasks => (hready hasks).symm⟩
  cases r with
  | getState authorization => simpa only [LetThrough, hconfig, hnow] using hrefused
  | exportHealthchecks authorization => simpa only [LetThrough, hconfig, hnow] using hrefused
  | wsState id token => simpa only [LetThrough, hconfig, hnow] using hrefused
  | wsLogs namespace_ pod token container => simpa only [LetThrough, hconfig, hnow] using hrefused
  | _ => exact hrefused

theorem unwinds_outside (other : Json → String) (strftime : Time → String) :
    (machine hmacSha256 other strftime).Unwinds SameOutside (fun work work' => work.2 = work'.2)
      (Outside hmacSha256) where
  move := fun hsame hclock => ⟨hsame.1, hclock⟩
  answer := visit_fst_of_outside
  visit := by
    intro app app' r hsame houtside
    have hleft : (visit hmacSha256 other strftime app r).2 = app := visit_snd_of_outside houtside
    have hright : (visit hmacSha256 other strftime app' r).2 = app' :=
      visit_snd_of_outside (outside_symm hsame houtside)
    change SameOutside (visit hmacSha256 other strftime app r).2
      (visit hmacSha256 other strftime app' r).2
    rw [hleft, hright]
    exact hsame

end Endpoints

/-- Two clusters that differ in anything but their readiness give the same answers to somebody
whose tokens are not accepted, whatever is asked next after what was answered. The requests
leave no trace. -/
theorem outsider_learns_readiness (hmacSha256 : List UInt8 → List UInt8 → List UInt8)
    (other : Json → String) (strftime : Time → String) (config : Config) (now : Time)
    (server server' : Server) (choose : List Answer → Request)
    (works : List ((List Ws.Act × Time) × (List Ws.Act × Time)))
    (hclock : ∀ work ∈ works, work.1.2 = work.2.2)
    (houtside : (machine hmacSha256 other strftime).AlongBoth choose (Outside hmacSha256)
      ⟨config, server, now⟩ ⟨config, server', now⟩ [] works) :
    let seen := (machine hmacSha256 other strftime).play choose ⟨config, server, now⟩ []
      (works.map Prod.fst)
    let seen' := (machine hmacSha256 other strftime).play choose ⟨config, server', now⟩ []
      (works.map Prod.snd)
    seen.1 = seen'.1 ∧ seen.2 = runFrom move ⟨config, server, now⟩ (works.map Prod.fst) := by
  have hsame : SameOutside ⟨config, server, now⟩ ⟨config, server', now⟩ := ⟨rfl, rfl⟩
  constructor
  · exact (unwinds_outside other strftime).play_eq hsame hclock houtside
  · exact Visited.play_snd_of_unchanged visit_snd_of_outside houtside

private def locked : Config where
  auth := ⟨"hunter2", Auth.encodeText "s3cret", 43200⟩
  static := none

/-- The HMAC of the payload the outsider sends, under the secret. -/
private def outsiderDigest : List UInt8 :=
  [163, 246, 32, 45, 65, 56, 217, 75, 145, 164, 66, 188, 198, 226, 230, 233, 242, 178, 137,
    193, 52, 168, 57, 203, 69, 29, 1, 47, 166, 103, 44, 194]

/-- An outsider that looks around: first the state, with a signature it made up, then a socket,
then the password. -/
def lookAround (seen : List Answer) : Request :=
  match seen.length with
  | 0 => .getState (some "Bearer MTc2MDA0MzIwMA.a3f6202d")
  | 1 => .wsState 7 none
  | 2 => .readyz
  | _ => .login "letmein"

theorem outsider_learns_readiness_around :
    ((machine (fun _ _ => outsiderDigest) (fun _ => "") (fun _ => "")).play lookAround
        ⟨locked, Ws.serverOf (ClusterState.init 0), 0⟩ []
        [([], 1), ([], 2), ([], 3), ([], 4)]).1 =
      ((machine (fun _ _ => outsiderDigest) (fun _ => "") (fun _ => "")).play lookAround
        ⟨locked, Ws.serverOf (ClusterState.init 5), 0⟩ []
        [([], 1), ([.call (.recordPodSample "home/mqtt" ∅ 2 2)], 2), ([], 3), ([], 4)]).1 := by
  have hbearer : ¬ Auth.requireAuth (fun _ _ => outsiderDigest) locked.auth
      (some "Bearer MTc2MDA0MzIwMA.a3f6202d") 1 = .ok true := by decide +kernel
  have htoken : ¬ Auth.verifyToken (fun _ _ => outsiderDigest) locked.auth none 2 =
      .ok true := by decide
  exact (outsider_learns_readiness (fun _ _ => outsiderDigest) (fun _ => "") (fun _ => "") locked 0
    (Ws.serverOf (ClusterState.init 0)) (Ws.serverOf (ClusterState.init 5)) lookAround
    [(([], 1), ([], 1)), (([], 2), ([.call (.recordPodSample "home/mqtt" ∅ 2 2)], 2)),
      (([], 3), ([], 3)), (([], 4), ([], 4))] (by simp)
    ⟨⟨hbearer, nofun⟩, ⟨htoken, nofun⟩, ⟨id, fun _ => rfl⟩, ⟨id, nofun⟩, trivial⟩).1

end Access

end PiWatch
