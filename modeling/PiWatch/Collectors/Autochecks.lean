import PiWatch.Framework.Run
import PiWatch.Framework.TaskPool
import PiWatch.Backend.State

/-!
# Auto-discovered healthchecks

The checks are derived from the routes, gateways and Services in the state. Every poll derives
them anew, cancels the loops of names that are gone and starts the missing ones; the loops
probe, record and sleep at their own pace. Configured checks report under names of their own
choice.
-/

namespace PiWatch

open ClusterState

namespace Autochecks

inductive Check
  | route (clusterIp : String) (port : ℕ) (tls : Bool) (hostname : String)
  | service (clusterIp : String) (port : ℕ) (serviceRef : String)
  deriving DecidableEq

/-- `protocol in ("HTTP", "HTTPS")`. -/
def servesHttp (listener : Listener) : Bool :=
  listener.protocol = some "HTTP" ∨ listener.protocol = some "HTTPS"

/-- `_find_listener`: the listener of this hostname, else the first catch-all one. -/
def findListener (gateway : GatewayInfo) (hostname : String) : Option Listener :=
  (gateway.listeners.find? fun l => l.hostname = some hostname ∧ servesHttp l).or
    (gateway.listeners.find? fun l => (l.hostname = none ∨ l.hostname = some "") ∧ servesHttp l)

/-- `_gateway_cluster_ip`: the Service that has one of the gateway's addresses. -/
def gatewayClusterIp (gateway : GatewayInfo) (services : Dict String ServiceInfo) :
    Option String :=
  if gateway.addresses = [] then none
  else
    match services.values.find? fun svc => gateway.addresses.any (· ∈ svc.externalIps) with
    | some svc => svc.clusterIp
    | none => none

def routeCheck (gateway : GatewayInfo) (clusterIp hostname : String) :
    Option (String × Check) :=
  match findListener gateway hostname with
  | none => none
  | some listener =>
    match listener.port with
    | none | some 0 => none
    | some port =>
      some (hostname, .route clusterIp port (listener.protocol = some "HTTPS") hostname)

/-- The checks of one route, parent by parent. -/
def checksOfRoute (s : ClusterState) (route : HttpRouteInfo) : List (String × Check) :=
  if route.accepted && route.resolvedRefs then
    (route.parentNames.zip route.parentNamespaces).flatMap fun (parentName, parentNamespace) =>
      match s.gateways.get? (parentNamespace ++ "/" ++ parentName) with
      | none => []
      | some gateway =>
        match gatewayClusterIp gateway s.services with
        | none | some "" => []
        | some clusterIp => route.hostnames.filterMap (routeCheck gateway clusterIp)
  else []

def routeChecks (s : ClusterState) : Dict String Check :=
  Dict.ofList (s.httpRoutes.values.flatMap (checksOfRoute s))

def checksOfService (svc : ServiceInfo) : List (String × Check) :=
  match svc.clusterIp with
  | none | some "" => []
  | some clusterIp =>
    svc.ports.filterMap fun port =>
      if port.port = 0 then none
      else some (svc.ns ++ "/" ++ svc.name ++ ":" ++ toString port.port,
        .service clusterIp port.port (svc.ns ++ "/" ++ svc.name))

def serviceChecks (s : ClusterState) : Dict String Check :=
  Dict.ofList (s.services.values.flatMap checksOfService)

/-- `{**route_checks(state), **service_checks(state)}`. -/
def desired (s : ClusterState) : Dict String Check := (routeChecks s).merge (serviceChecks s)

/-- The configuration a loop reports with its results. -/
def Check.config (name : String) : Check → Obj
  | .route _ _ tls _ =>
    Dict.ofList [("name", .str name), ("type", .str "route"),
      ("url", .str ((if tls then "https" else "http") ++ "://" ++ name))]
  | .service _ port serviceRef =>
    Dict.ofList [("name", .str name), ("type", .str "service"),
      ("host", .str serviceRef), ("port", .ofRat port)]

/-! ## The running system -/

/-- Where a `_check_loop` stands. -/
inductive Phase
  | created
  | probing (check : Check)
  | sleeping
  | returned
  deriving DecidableEq

/-- A recorded result, and whether a configured check recorded it. -/
structure Report where
  name : String
  configured : Bool
  result : CheckResult
  deriving DecidableEq

/-- The state with the two dictionaries of `run`. `reports` records every result in order. -/
structure System where
  state : ClusterState
  checks : Dict String Check
  pool : TaskPool String Phase
  reports : List Report

/-- `changed` is anything the other collectors do to the state. `report` is a result of a
configured check or of the CoreDNS check. -/
inductive Act
  | changed (s : ClusterState)
  | reconcile (t : Time)
  | resume (id : ℕ)
  | probed (id : ℕ) (ok : Bool) (ms : Option ℚ) (detail : String) (tr t : Time)
  | report (name : String) (config : Obj) (ok : Bool) (ms : Option ℚ) (detail : String)
      (tr t : Time)

def start (s : ClusterState) : System := ⟨s, ∅, ∅, []⟩

namespace System

def record (sys : System) (name : String) (configured : Bool) (config : Obj) (ok : Bool)
    (ms : Option ℚ) (detail : String) (tr t : Time) : System :=
  { sys with
    state := (sys.state.recordCheck name config ok ms detail tr t).1
    reports := sys.reports ++ [⟨name, configured, ⟨tr, ok, ms, detail⟩⟩] }

def dropStale (checks : Dict String Check) (t : Time) (sys : System) (name : String) :
    System :=
  if name ∈ checks then sys
  else { sys with pool := sys.pool.cancel name, state := (sys.state.removeCheck name t).1 }

/-- The body of `run` between two sleeps. -/
def reconcile (sys : System) (t : Time) : System :=
  let checks := desired sys.state
  let dropped := sys.pool.current.keys.foldl (dropStale checks t) { sys with checks := checks }
  { dropped with pool := checks.keys.foldl (TaskPool.ensure .created) dropped.pool }

/-- The top of the loop's body. -/
def lookUp (sys : System) (name : String) : Phase :=
  match sys.checks.get? name with
  | none => .returned
  | some check => .probing check

/-- The name an action of an auto loop records a result for. -/
def recorded (sys : System) : Act → Option String
  | .probed id .. =>
    match sys.pool.running? id with
    | some (name, .probing _) => some name
    | _ => none
  | _ => none

end System

def step (sys : System) : Act → System
  | .changed s => { sys with state := { s with healthchecks := sys.state.healthchecks } }
  | .reconcile t => sys.reconcile t
  | .resume id =>
    match sys.pool.running? id with
    | some (name, .created) | some (name, .sleeping) =>
      { sys with pool := sys.pool.setPhase id (sys.lookUp name) }
    | _ => sys
  | .probed id ok ms detail tr t =>
    match sys.pool.running? id with
    | some (name, .probing check) =>
      { sys.record name false (check.config name) ok ms detail tr t with
        pool := sys.pool.setPhase id .sleeping }
    | _ => sys
  | .report name config ok ms detail tr t => sys.record name true config ok ms detail tr t

/-! ## One reconcile -/

/-- The healthchecks once some stale names are removed. -/
def dropped (checks : Dict String Check) (names : List String)
    (healthchecks : Dict String CheckEntry) : Dict String CheckEntry :=
  names.foldl (fun h name => if name ∈ checks then h else h.erase name) healthchecks

theorem get?_dropped (checks : Dict String Check) (names : List String)
    (healthchecks : Dict String CheckEntry) (name : String) :
    (dropped checks names healthchecks).get? name =
      if name ∈ names ∧ name ∉ checks then none else healthchecks.get? name := by
  induction names generalizing healthchecks with
  | nil => simp [dropped]
  | cons stale names ih =>
    rw [dropped, List.foldl_cons]
    refine (ih _).trans ?_
    by_cases hstale : stale ∈ checks
    · rw [if_pos hstale]
      refine if_congr (and_congr_left fun hname => ?_) rfl rfl
      rw [List.mem_cons, or_iff_right]
      intro heq
      subst heq
      exact hname hstale
    · rw [if_neg hstale, Dict.get?_erase]
      by_cases hname : name = stale
      · simp [hname, hstale]
      · simp [hname]

private theorem foldl_dropStale (checks : Dict String Check) (t : Time) (names : List String)
    (sys : System) :
    names.foldl (System.dropStale checks t) sys =
      { sys with
        pool := names.foldl (TaskPool.cancelUnless checks) sys.pool
        state := { sys.state with
          healthchecks := dropped checks names sys.state.healthchecks } } := by
  induction names generalizing sys with
  | nil => rfl
  | cons name names ih =>
    rw [List.foldl_cons, ih, List.foldl_cons]
    unfold System.dropStale TaskPool.cancelUnless
    by_cases hname : name ∈ checks
    · simp [hname, dropped]
    · simp [hname, dropped, removeCheck]

/-- A reconcile synchronises the tasks with the desired checks and removes the entries of the
tasks it cancels. -/
theorem reconcile_eq (sys : System) (t : Time) :
    sys.reconcile t =
      { sys with
        checks := desired sys.state
        pool := sys.pool.sync (desired sys.state) .created
        state := { sys.state with
          healthchecks :=
            dropped (desired sys.state) sys.pool.current.keys sys.state.healthchecks } } := by
  unfold System.reconcile
  simp only [foldl_dropStale, TaskPool.sync]

theorem get?_reconcile (sys : System) (t : Time) (name : String) :
    (sys.reconcile t).state.healthchecks.get? name =
      if name ∈ sys.pool.current ∧ name ∉ desired sys.state then none
      else sys.state.healthchecks.get? name := by
  rw [reconcile_eq]
  exact (get?_dropped _ _ _ _).trans (by simp only [← Dict.mem_iff_mem_keys])

theorem desired_reconcile (sys : System) (t : Time) :
    desired (sys.reconcile t).state = desired sys.state := by
  rw [reconcile_eq]
  rfl

@[simp] theorem checks_reconcile (sys : System) (t : Time) :
    (sys.reconcile t).checks = desired sys.state := by
  rw [reconcile_eq]

@[simp] theorem pool_reconcile (sys : System) (t : Time) :
    (sys.reconcile t).pool = sys.pool.sync (desired sys.state) .created := by
  rw [reconcile_eq]

@[simp] theorem reports_reconcile (sys : System) (t : Time) :
    (sys.reconcile t).reports = sys.reports := by
  rw [reconcile_eq]

/-! ## The loops along a run -/

/-- The loop of a name is running: it was neither cancelled nor did it return. -/
def System.Loops (sys : System) (id : ℕ) (name : String) : Prop :=
  ∃ phase, sys.pool.running? id = some (name, phase) ∧ phase ≠ .returned

/-- Tasks and checks have the same names, and no task that is not cancelled has returned. -/
structure System.Paired (sys : System) : Prop where
  names : ∀ name, name ∈ sys.pool.current ↔ name ∈ sys.checks
  alive : ∀ id name phase, sys.pool.running? id = some (name, phase) → phase ≠ .returned

theorem paired_start (s : ClusterState) : (start s).Paired where
  names name := by simp [start]
  alive id name phase h := by simp [start] at h

namespace System.Paired

variable {sys : System}

theorem mem_checks (h : sys.Paired) {id : ℕ} {name : String} {phase : Phase}
    (hrun : sys.pool.running? id = some (name, phase)) : name ∈ sys.checks :=
  (h.names name).mp (TaskPool.mem_current.mpr ⟨id, phase, hrun⟩)

theorem loops_iff (h : sys.Paired) {id : ℕ} {name : String} :
    sys.Loops id name ↔ sys.pool.current.get? name = some id := by
  rw [TaskPool.current_eq_some]
  exact ⟨fun ⟨phase, hrun, _⟩ => ⟨phase, hrun⟩,
    fun ⟨phase, hrun⟩ => ⟨phase, hrun, h.alive id name phase hrun⟩⟩

theorem reconcile (h : sys.Paired) (t : Time) : (sys.reconcile t).Paired where
  names name := by rw [pool_reconcile, checks_reconcile, TaskPool.mem_current_sync]
  alive id name phase hrun := by
    rw [pool_reconcile] at hrun
    rcases TaskPool.running?_sync hrun with hold | rfl
    · exact h.alive id name phase hold
    · simp

/-- A loop whose name is a check's can go on to any phase but the last. -/
theorem setPhase (h : sys.Paired) (id : ℕ) {phase : Phase} (hphase : phase ≠ .returned) :
    System.Paired { sys with pool := sys.pool.setPhase id phase } where
  names := h.names
  alive id' name phase' hrun := by
    rw [TaskPool.running?_setPhase] at hrun
    split at hrun
    · exact hrun.2 ▸ hphase
    · exact h.alive id' name phase' hrun

/-- A loop that runs finds its check. -/
theorem lookUp_ne (h : sys.Paired) {id : ℕ} {name : String} {phase : Phase}
    (hrun : sys.pool.running? id = some (name, phase)) : sys.lookUp name ≠ .returned := by
  obtain ⟨check, hcheck⟩ := Option.isSome_iff_exists.mp (h.mem_checks hrun)
  simp [System.lookUp, hcheck]

theorem step (h : sys.Paired) (a : Act) : (step sys a).Paired := by
  cases a with
  | changed s => exact ⟨h.names, h.alive⟩
  | reconcile t => exact h.reconcile t
  | resume id =>
    unfold Autochecks.step
    dsimp only
    split
    · rename_i name hrun
      exact h.setPhase id (h.lookUp_ne hrun)
    · rename_i name hrun
      exact h.setPhase id (h.lookUp_ne hrun)
    · exact h
  | probed id ok ms detail tr t =>
    unfold Autochecks.step
    dsimp only
    split
    · have hset := h.setPhase id (show Phase.sleeping ≠ .returned by simp)
      exact ⟨hset.names, hset.alive⟩
    · exact h
  | report name config ok ms detail tr t => exact ⟨h.names, h.alive⟩

theorem run (s : ClusterState) (as : List Act) :
    (runFrom Autochecks.step (start s) as).Paired :=
  runFrom_invariant (fun _ a hs => hs.step a) (paired_start s) as

end System.Paired

/-! ## The lifecycle of a name -/

/-- The running loops, the shared checks and the desired checks have the same names, and no
name has two loops. -/
structure System.InSync (sys : System) : Prop where
  checks_eq : sys.checks = desired sys.state
  looped : ∀ name, (∃ id, sys.Loops id name) ↔ name ∈ desired sys.state
  oneLoop : ∀ id id' name, sys.Loops id name → sys.Loops id' name → id = id'

/-- The action is a reconcile that desires the name. -/
def System.Desires (sys : System) (name : String) : Act → Prop
  | .reconcile _ => name ∈ desired sys.state
  | _ => False

/-- The action is a configured report under the name. -/
def Act.Reports (name : String) : Act → Prop
  | .report name' .. => name' = name
  | _ => False

def Act.IsReconcile : Act → Prop
  | .reconcile _ => True
  | _ => False

theorem inSync_reconcile {sys : System} (h : sys.Paired) (t : Time) :
    (sys.reconcile t).InSync where
  checks_eq := by rw [checks_reconcile, desired_reconcile]
  looped name := by
    have hpaired := h.reconcile t
    rw [desired_reconcile, ← checks_reconcile sys t, ← hpaired.names, Dict.mem_def,
      Option.isSome_iff_exists]
    exact exists_congr fun _ => hpaired.loops_iff
  oneLoop id id' name := by
    intro hloop hloop'
    obtain ⟨phase, hrun, -⟩ := hloop
    obtain ⟨phase', hrun', -⟩ := hloop'
    exact TaskPool.running?_unique hrun hrun'

theorem recorded_eq_some {sys : System} {a : Act} {name : String}
    (h : sys.recorded a = some name) :
    ∃ id check, sys.pool.running? id = some (name, .probing check) := by
  cases a with
  | probed id ok ms detail tr t =>
    unfold System.recorded at h
    dsimp only at h
    split at h
    · rename_i name' check hrun
      exact ⟨id, check, Option.some.inj h ▸ hrun⟩
    · cases h
  | _ => cases h

theorem System.Paired.mem_checks_of_recorded {sys : System} (h : sys.Paired) {a : Act}
    {name : String} (hrec : sys.recorded a = some name) : name ∈ sys.checks := by
  obtain ⟨id, check, hrun⟩ := recorded_eq_some hrec
  exact h.mem_checks hrun

/-- Only a reconcile changes the checks. -/
theorem checks_step {sys : System} {a : Act} (h : ¬ a.IsReconcile) :
    (step sys a).checks = sys.checks := by
  cases a with
  | reconcile t => exact absurd trivial h
  | resume id =>
    unfold step
    dsimp only
    split <;> rfl
  | probed id ok ms detail tr t =>
    unfold step
    dsimp only
    split <;> rfl
  | changed s => rfl
  | report name config ok ms detail tr t => rfl

/-- A check is one of the latest reconcile. -/
theorem mem_checks_run {s : ClusterState} {as : List Act} {name : String}
    (h : name ∈ (runFrom step (start s) as).checks) :
    ∃ before t after, as = before ++ .reconcile t :: after ∧
      (∀ a ∈ after, ¬ a.IsReconcile) ∧ name ∈ desired (runFrom step (start s) before).state := by
  induction as using List.reverseRecOn with
  | nil => simp [start] at h
  | append_singleton as a ih =>
    rw [runFrom_append, runFrom_cons, runFrom_nil] at h
    by_cases ha : a.IsReconcile
    · cases a with
      | reconcile t =>
        rw [step, checks_reconcile] at h
        exact ⟨as, t, [], rfl, by simp, h⟩
      | _ => exact ha.elim
    · rw [checks_step ha] at h
      obtain ⟨before, t, after, rfl, hafter, hname⟩ := ih h
      refine ⟨before, t, after ++ [a], by simp, ?_, hname⟩
      exact List.forall_mem_append.mpr ⟨hafter, List.forall_mem_singleton.mpr ha⟩

/-- A name stays out of the checks until a reconcile desires it. -/
theorem not_mem_checks_step {sys : System} {a : Act} {name : String}
    (h : name ∉ sys.checks) (ha : ¬ sys.Desires name a) : name ∉ (step sys a).checks := by
  by_cases hrec : a.IsReconcile
  · cases a with
    | reconcile t =>
      rw [step, checks_reconcile]
      exact ha
    | _ => exact hrec.elim
  · rwa [checks_step hrec]

/-- No loop records a result for a name that is no check. -/
theorem recorded_ne {sys : System} (h : sys.Paired) {name : String} (hname : name ∉ sys.checks)
    (a : Act) : sys.recorded a ≠ some name :=
  fun hrec => hname (h.mem_checks_of_recorded hrec)

theorem get?_record_of_ne {sys : System} {name name' : String} (h : name ≠ name')
    (configured : Bool) (config : Obj) (ok : Bool) (ms : Option ℚ) (detail : String)
    (tr t : Time) :
    (sys.record name' configured config ok ms detail tr t).state.healthchecks.get? name =
      sys.state.healthchecks.get? name :=
  Dict.get?_insert_of_ne _ _ h

/-- Neither does its entry come back, unless a configured check reports under it. -/
theorem not_mem_healthchecks_step {sys : System} (hp : sys.Paired) {a : Act} {name : String}
    (hchecks : name ∉ sys.checks) (h : name ∉ sys.state.healthchecks)
    (ha : ¬ a.Reports name) : name ∉ (step sys a).state.healthchecks := by
  rw [← Dict.get?_eq_none_iff] at h ⊢
  cases a with
  | changed s => exact h
  | reconcile t =>
    rw [step, get?_reconcile, h, ite_self]
  | resume id =>
    unfold step
    dsimp only
    split <;> exact h
  | probed id ok ms detail tr t =>
    unfold step
    dsimp only
    split
    · rename_i name' check hrun
      have hne : name ≠ name' := fun heq => hchecks (heq ▸ hp.mem_checks hrun)
      exact (get?_record_of_ne hne false (check.config name') ok ms detail tr t).trans h
    · exact h
  | report name' config ok ms detail tr t =>
    have hne : name ≠ name' := fun heq => ha heq.symm
    exact (get?_record_of_ne hne true config ok ms detail tr t).trans h

/-- Along a run in which no reconcile desires the name, no loop records a result for it. -/
theorem silent_run {sys : System} (hp : sys.Paired) {name : String} (h : name ∉ sys.checks)
    {as : List Act} (has : AlongRun step (fun sys' a => ¬ sys'.Desires name a) sys as) :
    AlongRun step (fun sys' a => sys'.recorded a ≠ some name) sys as := by
  have hkeeps : ∀ sys' a, sys'.Paired ∧ name ∉ sys'.checks → ¬ sys'.Desires name a →
      (step sys' a).Paired ∧ name ∉ (step sys' a).checks :=
    fun sys' a hsys ha => ⟨hsys.1.step a, not_mem_checks_step hsys.2 ha⟩
  exact AlongRun.of_invariant hkeeps (fun sys' a hsys _ => recorded_ne hsys.1 hsys.2 a)
    ⟨hp, h⟩ has

theorem absent_run {sys : System} (hp : sys.Paired) {name : String} (hchecks : name ∉ sys.checks)
    (h : name ∉ sys.state.healthchecks) {as : List Act}
    (has : AlongRun step (fun sys' a => ¬ sys'.Desires name a) sys as)
    (hreports : ∀ a ∈ as, ¬ a.Reports name) :
    name ∉ (runFrom step sys as).state.healthchecks := by
  induction as generalizing sys with
  | nil => exact h
  | cons a as ih =>
    obtain ⟨ha, hrest⟩ := List.forall_mem_cons.mp hreports
    exact ih (hp.step a) (not_mem_checks_step hchecks has.1)
      (not_mem_healthchecks_step hp hchecks h ha) has.2 hrest

/-- In every run: a reconcile leaves loops, checks and desired checks in step; a recorded
result is for a name the latest reconcile desired; and the entry of a name a reconcile drops
is gone, with no loop recording a result for it, until a later one desires it. -/
theorem lifecycle (s : ClusterState) (as : List Act) :
    (∀ t, (step (runFrom step (start s) as) (.reconcile t)).InSync) ∧
    (∀ a name, (runFrom step (start s) as).recorded a = some name →
      ∃ before t after, as = before ++ .reconcile t :: after ∧
        (∀ b ∈ after, ¬ b.IsReconcile) ∧
        name ∈ desired (runFrom step (start s) before).state) ∧
    (∀ t name later, (∃ id, (runFrom step (start s) as).Loops id name) →
      name ∉ desired (runFrom step (start s) as).state →
      AlongRun step (fun sys a => ¬ sys.Desires name a)
        (runFrom step (start s) (as ++ [.reconcile t])) later →
      AlongRun step (fun sys a => sys.recorded a ≠ some name)
        (runFrom step (start s) (as ++ [.reconcile t])) later ∧
      ((∀ a ∈ later, ¬ a.Reports name) →
        name ∉ (runFrom step (start s) (as ++ .reconcile t :: later)).state.healthchecks)) := by
  have hp := System.Paired.run s as
  refine ⟨inSync_reconcile hp, fun a name hrec => ?_, ?_⟩
  · exact mem_checks_run (hp.mem_checks_of_recorded hrec)
  · intro t name later hloops hdropped hlater
    obtain ⟨id, hloop⟩ := hloops
    rw [runFrom_append, runFrom_cons, runFrom_nil] at hlater ⊢
    have hchecks : name ∉ (step (runFrom step (start s) as) (.reconcile t)).checks := by
      rw [step, checks_reconcile]
      exact hdropped
    have hgone : name ∉ (step (runFrom step (start s) as) (.reconcile t)).state.healthchecks := by
      have hcurrent : name ∈ (runFrom step (start s) as).pool.current :=
        Option.isSome_iff_exists.mpr ⟨id, hp.loops_iff.mp hloop⟩
      rw [← Dict.get?_eq_none_iff, step, get?_reconcile, if_pos ⟨hcurrent, hdropped⟩]
    refine ⟨silent_run (hp.step _) hchecks hlater, fun hreports => ?_⟩
    rw [runFrom_append, runFrom_cons]
    exact absent_run (hp.step _) hchecks hgone hlater hreports

/-- A media server's Service, checked under the name "media/jellyfin:8096". -/
def jellyfin : ServiceInfo where
  key := "media/jellyfin"
  name := "jellyfin"
  ns := "media"
  type := some "LoadBalancer"
  clusterIp := some "10.43.0.9"
  externalIps := ["192.168.1.20"]
  ports := [⟨8096, some "TCP", some "http"⟩]

/-- The state once the Service is discovered. -/
def discovered : ClusterState :=
  (ClusterState.init 0).step (.upsertService jellyfin.key jellyfin 0)

/-- The Service disappears while its first probe is in flight. -/
theorem lifecycle_jellyfin :
    "media/jellyfin:8096" ∉ (runFrom step (start (ClusterState.init 0))
      [.changed discovered, .reconcile 0, .resume 0,
        .changed (discovered.step (.removeService jellyfin.key 10)), .reconcile 15,
        .probed 0 true none "TCP open" 16 16]).state.healthchecks :=
  ((lifecycle (ClusterState.init 0) [.changed discovered, .reconcile 0, .resume 0,
      .changed (discovered.step (.removeService jellyfin.key 10))]).2.2 15
    "media/jellyfin:8096" [.probed 0 true none "TCP open" 16 16]
    ⟨0, .probing (.service "10.43.0.9" 8096 "media/jellyfin"), rfl, by simp⟩ (by decide)
    (by simp [System.Desires])).2 (by simp [Act.Reports])

end Autochecks

end PiWatch
