import PiWatch.Backend.HealthReport
import PiWatch.Backend.Uptime
import PiWatch.Framework.Run

/-!
# Configured checks

The checks come from a YAML file, which may say anything. Every entry of it gets a loop of its own,
which ends if the entry is no check. A check that can be recorded and knows how long to sleep
reports on, whatever the other entries are.
-/

namespace PiWatch

namespace Healthcheck

/-! ## The configuration -/

/-- What opening and reading the file ends in. -/
inductive ConfigFile
  | missing
  | unreadable
  | parsed (data : Json)

/-- A value that is used as a dictionary. -/
def asDict : Json → Except PyError Obj
  | .obj fields => .ok (Dict.ofList fields)
  | _ => .error .attributeError

/-- `len(value)`, as far as it is used: whether there is one. -/
def hasLen : Json → Except PyError Unit
  | .str _ | .arr _ | .obj _ => .ok ()
  | _ => .error .typeError

/-- `load_checks`. Whatever is raised is caught. -/
def loadChecks : ConfigFile → Json
  | .missing | .unreadable => .arr []
  | .parsed data =>
    let loaded : Except PyError Json := do
      let data ← asDict (if data.truthy then data else .obj [])
      let checks := (data.get? "checks").getD (.arr [])
      hasLen checks
      return checks
    loaded.toOption.getD (.arr [])

/-- There is something to loop over, whatever the file holds. -/
theorem hasLen_loadChecks (file : ConfigFile) : hasLen (loadChecks file) = .ok () := by
  cases file with
  | missing => rfl
  | unreadable => rfl
  | parsed data =>
    simp only [loadChecks, bind, Except.bind]
    cases asDict (if data.truthy then data else .obj []) with
    | error e => rfl
    | ok data =>
      dsimp only
      generalize (data.get? "checks").getD (.arr []) = checks
      cases checks <;> rfl

/-- What a loop over a value goes through: a text has its characters, a dictionary its keys. -/
def elements : Json → List Json
  | .arr xs => xs
  | .str text => text.toList.map fun c => .str (String.singleton c)
  | .obj fields => (Dict.ofList fields : Obj).keys.map .str
  | _ => []

/-! ## Probes -/

/-- How the request of a probe ends. Only an HTTP answer has a status. -/
inductive Outcome
  | answered (status : ℕ) (ms : ℚ)
  | raised (exc : String)

structure Probe where
  ok : Bool
  ms : Option ℚ
  detail : String

/-- `status == expected if expected else status < 400`. -/
def statusOk (status : ℕ) (expected : Json) : Bool :=
  if expected.truthy then
    match expected with
    | .num x => x = .finite status
    | .bool b => b.toNat = status
    | _ => false
  else status < 400

/-- `_run_http`. -/
def runHttp (check : Obj) (o : Outcome) : Probe :=
  if "url" ∈ check then
    match o with
    | .answered status ms =>
      ⟨statusOk status (check.field "expected_status"), some (pyRound 1 ms),
        "HTTP " ++ toString status⟩
    | .raised exc => ⟨false, none, exc⟩
  else ⟨false, none, "KeyError"⟩

/-- `_run_tcp`. -/
def runTcp (check : Obj) (o : Outcome) : Probe :=
  if "host" ∈ check ∧ "port" ∈ check then
    match o with
    | .answered _ ms => ⟨true, some (pyRound 1 ms), "TCP open"⟩
    | .raised exc => ⟨false, none, exc⟩
  else ⟨false, none, "KeyError"⟩

def probe (check : Obj) (o : Outcome) : Probe :=
  if (check.get? "type").getD (.str "http") = .str "tcp" then runTcp check o else runHttp check o

/-! ## The loop of an entry -/

/-- What `record_check` is called with. -/
structure Report where
  name : Json
  config : Obj
  result : Probe

def hashable : Json → Bool
  | .arr _ | .obj _ => false
  | _ => true

/-- The result is recorded under the name, which has to be a key. -/
def recorded (check : Obj) (result : Probe) : Except PyError Report :=
  match check.get? "name" with
  | none => .error .keyError
  | some name =>
    if hashable name then .ok ⟨name, check.erase "demo_ok", result⟩ else .error .typeError

/-- What becomes of `asyncio.sleep`. -/
inductive Sleep
  | wakes
  | forever
  | raises
  | depends
  deriving DecidableEq

/-- Not a number and an integer out of the range of a float are left to the event loop. -/
def sleepOf : Json → Sleep
  | .bool _ => .wakes
  | .num (.finite q) => if q ≤ 0 ∨ (PyFloat.ofRat q).isFinite then .wakes else .depends
  | .num .nan => .depends
  | .num .posInf => .forever
  | .num .negInf => .wakes
  | _ => .raises

def intervalOf (check : Obj) : Json := (check.get? "interval").getD (.ofRat 30)

inductive Loop
  | created (entry : Json)
  | probing (check : Obj) (interval : Json)
  | sleeping (check : Obj) (interval : Json)
  | ended (e : PyError)

/-- What happens to a loop. The probe comes with the clock readings of `record_check`, and with
what the event loop raises for an interval that is left to it. -/
inductive LoopAct
  | starts
  | probed (o : Outcome) (tr t : Time) (refusal : Option PyError)
  | wakes

/-- What `asyncio.sleep` raises. -/
def sleepRaises (interval : Json) (refusal : Option PyError) : Option PyError :=
  match sleepOf interval with
  | .raises => some .typeError
  | .depends => refusal
  | _ => none

/-- `_check_loop` up to the next time it waits, and what it records. -/
def Loop.step : Loop → LoopAct → Loop × Option Report
  | .created entry, .starts =>
    match asDict entry with
    | .ok check => (.probing check (intervalOf check), none)
    | .error e => (.ended e, none)
  | .probing check interval, .probed o _ _ refusal =>
    match recorded check (probe check o) with
    | .ok report =>
      match sleepRaises interval refusal with
      | none => (.sleeping check interval, some report)
      | some e => (.ended e, some report)
    | .error e => (.ended e, none)
  | .sleeping check interval, .wakes =>
    if sleepOf interval = .forever then (.sleeping check interval, none)
    else (.probing check interval, none)
  | loop, _ => (loop, none)

/-! ## All loops -/

/-- A name that is a key but no text. A truth value equals the number it stands for; what is not a
number equals nothing but itself, so it belongs to its entry. -/
inductive OtherKey
  | value (name : Json)
  | nan (k : ℕ)
  deriving DecidableEq

def otherKey (k : ℕ) : Json → OtherKey
  | .bool b => .value (.ofRat b.toNat)
  | .num .nan => .nan k
  | name => .value name

/-- The loops by their position in the file, what they recorded, and the state. The checks whose
name is no text are next to it. -/
structure System where
  loops : List Loop
  reports : List (ℕ × Report)
  state : ClusterState
  others : Dict OtherKey CheckEntry

/-- A loop goes on, or the state changes otherwise. -/
inductive Act
  | loop (k : ℕ) (act : LoopAct)
  | other (op : Op)

/-- The call that records a report under a text. -/
def Report.op? (report : Report) : LoopAct → Option Op
  | .probed _ tr t _ =>
    match report.name with
    | .str name =>
      some (.recordCheck name report.config report.result.ok report.result.ms
        report.result.detail tr t)
    | _ => none
  | _ => none

/-- `record_check` under a name that is no text. -/
def Report.recordOther (report : Report) (k : ℕ) (act : LoopAct)
    (others : Dict OtherKey CheckEntry) : Dict OtherKey CheckEntry :=
  match act, report.name with
  | _, .str _ => others
  | .probed _ tr _ _, name =>
    let entry := (others.get? (otherKey k name)).getD ⟨report.config, none, none, ∅⟩
    let result : CheckResult := ⟨tr, report.result.ok, report.result.ms, report.result.detail⟩
    let history := entry.history.push result
    others.insert (otherKey k name)
      ⟨report.config, some result, some (ClusterState.uptimePct history.items), history⟩
  | _, _ => others

/-- `run`: a loop for every entry. -/
def start (file : ConfigFile) (s : ClusterState) : System :=
  ⟨(elements (loadChecks file)).map .created, [], s, ∅⟩

def step (sys : System) : Act → System
  | .loop k act =>
    match sys.loops[k]? with
    | none => sys
    | some loop =>
      let next := loop.step act
      { loops := sys.loops.set k next.1
        reports := sys.reports ++ next.2.toList.map fun report => (k, report)
        state := ((next.2.bind fun report => report.op? act).elim sys.state sys.state.step)
        others := next.2.elim sys.others fun report => report.recordOther k act sys.others }
  | .other op => { sys with state := sys.state.step op }

def System.reportsBy (sys : System) (k : ℕ) : List Report :=
  sys.reports.filterMap fun r => if r.1 = k then some r.2 else none

/-! ## One loop by itself -/

/-- A loop and what it recorded. -/
structure Solo where
  loop : Loop
  reports : List Report

def Solo.step (solo : Solo) (act : LoopAct) : Solo :=
  ⟨(solo.loop.step act).1, solo.reports ++ (solo.loop.step act).2.toList⟩

def System.solo? (sys : System) (k : ℕ) : Option Solo :=
  sys.loops[k]?.map fun loop => ⟨loop, sys.reportsBy k⟩

def Act.ownOf (k : ℕ) : Act → Option LoopAct
  | .loop j act => if j = k then some act else none
  | .other _ => none

theorem reportsBy_append_self (sys : System) (k : ℕ) (report? : Option Report) :
    (sys.reports ++ report?.toList.map fun report => (k, report)).filterMap
        (fun r => if r.1 = k then some r.2 else none) = sys.reportsBy k ++ report?.toList := by
  rw [List.filterMap_append, System.reportsBy]
  cases report? <;> simp

theorem reportsBy_append_of_ne (sys : System) {j k : ℕ} (h : j ≠ k) (report? : Option Report) :
    (sys.reports ++ report?.toList.map fun report => (j, report)).filterMap
        (fun r => if r.1 = k then some r.2 else none) = sys.reportsBy k := by
  rw [List.filterMap_append, System.reportsBy]
  cases report? <;> simp [h]

/-- A loop moves with its own actions only. -/
theorem solo?_step (k : ℕ) (sys : System) (act : Act) :
    (step sys act).solo? k =
      (act.ownOf k).elim (sys.solo? k) fun a => (sys.solo? k).map fun solo => solo.step a := by
  cases act with
  | other op => rfl
  | loop j act =>
    rw [Act.ownOf]
    by_cases hjk : j = k
    · subst j
      rw [if_pos rfl, Option.elim_some, step]
      cases hloop : sys.loops[k]? with
      | none => simp [System.solo?, hloop]
      | some loop =>
        have hk : k < sys.loops.length := (List.getElem?_eq_some_iff.mp hloop).1
        simp only [System.solo?, System.reportsBy, hloop, List.getElem?_set_self hk]
        rw [Option.map_some, Option.map_some, Option.map_some, reportsBy_append_self]
        rfl
    · rw [if_neg hjk, Option.elim_none, step]
      cases hloop : sys.loops[j]? with
      | none => rfl
      | some loop =>
        simp only [System.solo?, System.reportsBy, List.getElem?_set_ne hjk]
        rw [reportsBy_append_of_ne sys hjk]
        rfl

/-- What a loop goes through does not depend on the other entries. -/
theorem solo?_run (file : ConfigFile) (s : ClusterState) {k : ℕ} {entry : Json}
    (h : (elements (loadChecks file))[k]? = some entry) (acts : List Act) :
    (runFrom step (start file s) acts).solo? k =
      some (runFrom Solo.step ⟨.created entry, []⟩ (acts.filterMap (Act.ownOf k))) := by
  have hstart : (start file s).solo? k = some ⟨.created entry, []⟩ := by
    simp [System.solo?, start, h, System.reportsBy]
  have hrun := @runFrom_part _ _ _ _ step (fun sys => sys.solo? k) (Act.ownOf k)
    (fun solo? act => solo?.map fun solo => solo.step act) (solo?_step k) (start file s) acts
  rw [hrun, hstart, runFrom_option_map]
  rfl

/-! ## Loops that are over -/

/-- A loop that has ended, or sleeps for good. -/
def Loop.Over : Loop → Prop
  | .ended _ => True
  | .sleeping _ interval => sleepOf interval = .forever
  | _ => False

theorem step_of_over {loop : Loop} (h : loop.Over) (act : LoopAct) :
    loop.step act = (loop, none) := by
  cases loop with
  | created entry => exact h.elim
  | probing check interval => exact h.elim
  | sleeping check interval =>
    cases act with
    | wakes => exact if_pos h
    | _ => rfl
  | ended e => rfl

/-- It records nothing any more. -/
theorem run_of_over {solo : Solo} (h : solo.loop.Over) (acts : List LoopAct) :
    runFrom Solo.step solo acts = solo := by
  induction acts with
  | nil => rfl
  | cons act acts ih =>
    have hstep : solo.step act = solo := by
      rw [Solo.step, step_of_over h]
      simp
    rw [runFrom_cons, hstep, ih]

/-! ## Which loops report on -/

/-- An entry that is a check: a dictionary with a name to record under and an interval that
passes. -/
def Sound (entry : Json) : Prop :=
  ∃ check name, asDict entry = .ok check ∧ check.get? "name" = some name ∧ hashable name ∧
    sleepOf (intervalOf check) = .wakes

/-- Whether the interval passes is left to the event loop. -/
def LeftOpen (entry : Json) : Prop :=
  ∃ check, asDict entry = .ok check ∧ sleepOf (intervalOf check) = .depends

theorem recorded_eq_ok {check : Obj} {result : Probe} {report : Report}
    (h : recorded check result = .ok report) :
    ∃ name, check.get? "name" = some name ∧ hashable name ∧
      report = ⟨name, check.erase "demo_ok", result⟩ := by
  rw [recorded] at h
  cases hname : check.get? "name" with
  | none =>
    rw [hname] at h
    cases h
  | some name =>
    rw [hname] at h
    dsimp only at h
    split at h
    · rename_i hhash
      exact ⟨name, rfl, hhash, (Except.ok.inj h).symm⟩
    · cases h

/-- Without a check the first result is the last. -/
theorem over_of_probed {entry : Json} {check : Obj} (hdict : asDict entry = .ok check)
    (hsound : ¬ Sound entry) {refusal : Option PyError}
    (hrefused : sleepOf (intervalOf check) = .depends → refusal.isSome) (o : Outcome)
    (tr t : Time) :
    ((Loop.probing check (intervalOf check)).step (.probed o tr t refusal)).1.Over := by
  rw [Loop.step]
  cases hrecord : recorded check (probe check o) with
  | error e => trivial
  | ok report =>
    obtain ⟨name, hname, hhash, -⟩ := recorded_eq_ok hrecord
    dsimp only
    rw [sleepRaises]
    cases hsleep : sleepOf (intervalOf check) with
    | wakes => exact absurd ⟨check, name, hdict, hname, hhash, hsleep⟩ hsound
    | forever => exact hsleep
    | raises => trivial
    | depends =>
      obtain ⟨e, rfl⟩ := Option.isSome_iff_exists.mp (hrefused hsleep)
      trivial

/-- Before its first probe has ended a loop has recorded nothing. -/
def Solo.Fresh (entry : Json) (solo : Solo) : Prop :=
  solo.reports = [] ∧ (solo.loop = .created entry ∨
    ∃ check, asDict entry = .ok check ∧ solo.loop = .probing check (intervalOf check))

theorem solo_step_cases {entry : Json} {solo : Solo} (h : solo.Fresh entry) (act : LoopAct) :
    (solo.step act).Fresh entry ∨
      ((solo.step act).reports = [] ∧ (solo.step act).loop.Over) ∨
      ∃ check o tr t refusal, asDict entry = .ok check ∧ act = .probed o tr t refusal ∧
        solo.step act =
          ⟨((Loop.probing check (intervalOf check)).step act).1,
            ((Loop.probing check (intervalOf check)).step act).2.toList⟩ := by
  obtain ⟨loop, reports⟩ := solo
  obtain ⟨rfl, hloop⟩ := h
  rcases hloop with rfl | ⟨check, hdict, rfl⟩
  · cases act with
    | starts =>
      simp only [Solo.step, Loop.step]
      cases hdict : asDict entry with
      | ok check => exact Or.inl ⟨rfl, Or.inr ⟨check, hdict, rfl⟩⟩
      | error e => exact Or.inr (Or.inl ⟨rfl, trivial⟩)
    | probed o tr t refusal => exact Or.inl ⟨rfl, Or.inl rfl⟩
    | wakes => exact Or.inl ⟨rfl, Or.inl rfl⟩
  · cases act with
    | starts => exact Or.inl ⟨rfl, Or.inr ⟨check, hdict, rfl⟩⟩
    | probed o tr t refusal =>
      exact Or.inr (Or.inr ⟨check, o, tr, t, refusal, hdict, rfl, rfl⟩)
    | wakes => exact Or.inl ⟨rfl, Or.inr ⟨check, hdict, rfl⟩⟩

theorem length_toList_le {α : Type} (a? : Option α) : a?.toList.length ≤ 1 := by
  cases a? <;> simp

/-- Unless the event loop decides, an entry that is no check is recorded once at most. -/
theorem solo_recorded_le_one {entry : Json} (hsound : ¬ Sound entry) (hopen : ¬ LeftOpen entry)
    (acts : List LoopAct) :
    (runFrom Solo.step ⟨.created entry, []⟩ acts).reports.length ≤ 1 := by
  have hrun : ∀ solo : Solo, solo.Fresh entry →
      (runFrom Solo.step solo acts).reports.length ≤ 1 := by
    induction acts with
    | nil =>
      intro solo h
      rw [runFrom_nil, h.1]
      simp
    | cons act acts ih =>
      intro solo h
      rw [runFrom_cons]
      rcases solo_step_cases h act with h | ⟨hnone, hover⟩ |
        ⟨check, o, tr, t, refusal, hdict, rfl, hstep⟩
      · exact ih _ h
      · rw [run_of_over hover, hnone]
        simp
      · have hover : (solo.step (.probed o tr t refusal)).loop.Over := by
          rw [hstep]
          apply over_of_probed hdict hsound
          intro hdepends
          exact absurd ⟨check, hdict, hdepends⟩ hopen
        rw [run_of_over hover, hstep]
        exact length_toList_le _
  exact hrun _ ⟨rfl, Or.inl rfl⟩

/-! ## A check reports on -/

/-- `healthchecks[name]`, for the name of an entry. -/
def System.check? (sys : System) (k : ℕ) : Json → Option CheckEntry
  | .str name => sys.state.healthchecks.get? name
  | name => sys.others.get? (otherKey k name)

/-- What is shown of the name of an entry is the report. -/
def System.Shows (sys : System) (k : ℕ) (report : Report) (tr : Time) : Prop :=
  ∃ shown, sys.check? k report.name = some shown ∧ shown.config = report.config ∧
    shown.last = some ⟨tr, report.result.ok, report.result.ms, report.result.detail⟩

/-- Whatever all loops did so far, the entry can record what its next probe finds, without the
others. -/
def CanReport (file : ConfigFile) (s : ClusterState) (k : ℕ) (entry : Json) : Prop :=
  ∀ acts o tr, ∃ check report, ∃ more : List LoopAct, asDict entry = .ok check ∧
    recorded check (probe check o) = .ok report ∧
    let sys := runFrom step (start file s) acts
    let sys' := runFrom step sys (more.map (.loop k))
    sys'.reports = sys.reports ++ [(k, report)] ∧ sys'.Shows k report tr

theorem step_loop {sys : System} {k : ℕ} {loop : Loop} (h : sys.loops[k]? = some loop)
    (act : LoopAct) :
    step sys (.loop k act) =
      { loops := sys.loops.set k (loop.step act).1
        reports := sys.reports ++ (loop.step act).2.toList.map fun report => (k, report)
        state := (((loop.step act).2.bind fun report => report.op? act).elim sys.state
          sys.state.step)
        others := (loop.step act).2.elim sys.others fun report =>
          report.recordOther k act sys.others } := by
  rw [step, h]

/-- A loop that records nothing only moves on. -/
theorem step_quiet {sys : System} {k : ℕ} {loop loop' : Loop} (h : sys.loops[k]? = some loop)
    {act : LoopAct} (hstep : loop.step act = (loop', none)) :
    (step sys (.loop k act)).loops[k]? = some loop' ∧
      (step sys (.loop k act)).reports = sys.reports := by
  have hk : k < sys.loops.length := (List.getElem?_eq_some_iff.mp h).1
  rw [step_loop h, hstep]
  exact ⟨List.getElem?_set_self hk, List.append_nil _⟩

theorem step_probed {sys : System} {k : ℕ} {check : Obj} {interval : Json}
    (h : sys.loops[k]? = some (.probing check interval)) {o : Outcome} {report : Report}
    (hrecord : recorded check (probe check o) = .ok report) (tr t : Time) :
    (step sys (.loop k (.probed o tr t none))).reports = sys.reports ++ [(k, report)] ∧
      (step sys (.loop k (.probed o tr t none))).Shows k report tr := by
  have hreport : ((Loop.probing check interval).step (.probed o tr t none)).2 = some report := by
    rw [Loop.step, hrecord]
    dsimp only
    split <;> rfl
  obtain ⟨name, config, result⟩ := report
  rw [step_loop h, hreport]
  refine ⟨rfl, ?_⟩
  -- a text is recorded by a call, any other name next to the state
  cases name <;> exact ⟨_, Dict.get?_insert_self _ _ _, rfl, rfl⟩

/-- The loop of a check never ends. -/
theorem alive_run {entry name : Json} {check : Obj} (hdict : asDict entry = .ok check)
    (hname : check.get? "name" = some name) (hhash : hashable name)
    (hwakes : sleepOf (intervalOf check) = .wakes) (acts : List LoopAct) :
    let loop := (runFrom Solo.step ⟨.created entry, []⟩ acts).loop
    loop = .created entry ∨ loop = .probing check (intervalOf check) ∨
      loop = .sleeping check (intervalOf check) := by
  apply @runFrom_invariant _ _ Solo.step fun solo => solo.loop = .created entry ∨
    solo.loop = .probing check (intervalOf check) ∨ solo.loop = .sleeping check (intervalOf check)
  · rintro ⟨loop, reports⟩ act (rfl | rfl | rfl)
    · cases act with
      | starts => simp [Solo.step, Loop.step, hdict]
      | _ => exact Or.inl rfl
    · cases act with
      | probed o tr t refusal =>
        simp [Solo.step, Loop.step, recorded, hname, hhash, sleepRaises, hwakes]
      | _ => exact Or.inr (Or.inl rfl)
    · cases act with
      | wakes => simp [Solo.step, Loop.step, hwakes]
      | _ => exact Or.inr (Or.inr rfl)
  · exact Or.inl rfl

theorem canReport_of_sound {file : ConfigFile} (s : ClusterState) {k : ℕ} {entry : Json}
    (h : (elements (loadChecks file))[k]? = some entry) (hsound : Sound entry) :
    CanReport file s k entry := by
  obtain ⟨check, name, hdict, hname, hhash, hwakes⟩ := hsound
  intro acts o tr
  have hrecord : recorded check (probe check o) =
      .ok ⟨name, check.erase "demo_ok", probe check o⟩ := by
    rw [recorded, hname]
    exact if_pos hhash
  have hsolo := solo?_run file s h acts
  obtain ⟨loop, hloop, heq⟩ := Option.map_eq_some_iff.mp hsolo
  have halive := alive_run hdict hname hhash hwakes (acts.filterMap (Act.ownOf k))
  rw [← heq] at halive
  rcases halive with rfl | rfl | rfl
  · have hstart : (Loop.created entry).step .starts =
        (.probing check (intervalOf check), none) := by
      rw [Loop.step, hdict]
    obtain ⟨hprobing, hreports⟩ := step_quiet hloop hstart
    have hprobed := step_probed hprobing hrecord tr tr
    rw [hreports] at hprobed
    exact ⟨check, _, [.starts, .probed o tr tr none], hdict, hrecord, hprobed⟩
  · exact ⟨check, _, [.probed o tr tr none], hdict, hrecord, step_probed hloop hrecord tr tr⟩
  · have hwake : (Loop.sleeping check (intervalOf check)).step .wakes =
        (.probing check (intervalOf check), none) := by
      rw [Loop.step, hwakes]
      rfl
    obtain ⟨hprobing, hreports⟩ := step_quiet hloop hwake
    have hprobed := step_probed hprobing hrecord tr tr
    rw [hreports] at hprobed
    exact ⟨check, _, [.wakes, .probed o tr tr none], hdict, hrecord, hprobed⟩

/-- After its start and a probe the loop of anything else may be over. -/
theorem exists_over {entry : Json} (hsound : ¬ Sound entry) :
    ∃ acts, (runFrom Solo.step ⟨.created entry, []⟩ acts).loop.Over := by
  cases hdict : asDict entry with
  | error e =>
    refine ⟨[.starts], ?_⟩
    rw [runFrom_cons, runFrom_nil, Solo.step, Loop.step, hdict]
    trivial
  | ok check =>
    refine ⟨[.starts, .probed (.raised "") 0 0 (some .valueError)], ?_⟩
    rw [runFrom_cons, runFrom_cons, runFrom_nil, Solo.step, Solo.step]
    simp only [Loop.step.eq_1, hdict]
    exact over_of_probed hdict hsound (fun _ => rfl) _ _ _

theorem sound_of_canReport {file : ConfigFile} {s : ClusterState} {k : ℕ} {entry : Json}
    (h : (elements (loadChecks file))[k]? = some entry) (hcan : CanReport file s k entry) :
    Sound entry := by
  by_contra hsound
  obtain ⟨acts, hover⟩ := exists_over hsound
  obtain ⟨check, report, more, -, -, hreports, -⟩ :=
    hcan (acts.map (.loop k)) (.raised "") 0
  have hown : ∀ own : List LoopAct, (own.map (Act.loop k)).filterMap (Act.ownOf k) = own := by
    intro own
    rw [List.filterMap_map]
    simp [Function.comp_def, Act.ownOf]
  have hbefore := solo?_run file s h (acts.map (.loop k))
  have hafter := solo?_run file s h ((acts.map (.loop k)) ++ more.map (.loop k))
  rw [hown] at hbefore
  rw [List.filterMap_append, hown, hown, runFrom_append, runFrom_append, run_of_over hover]
    at hafter
  obtain ⟨loop, -, heq⟩ := Option.map_eq_some_iff.mp hbefore
  obtain ⟨loop', -, heq'⟩ := Option.map_eq_some_iff.mp hafter
  have hsame := (Solo.mk.inj (heq'.trans heq.symm)).2
  rw [System.reportsBy, hreports, List.filterMap_append] at hsame
  have hlength := congrArg List.length hsame
  simp [System.reportsBy] at hlength

/-- Exactly the checks report on whatever the other entries are and do, and what is no check is
recorded once at most, unless the event loop decides about its interval. -/
theorem reports_on_iff (file : ConfigFile) (s : ClusterState) {k : ℕ} {entry : Json}
    (h : (elements (loadChecks file))[k]? = some entry) :
    (CanReport file s k entry ↔ Sound entry) ∧
      (¬ Sound entry → ¬ LeftOpen entry →
        ∀ acts, ((runFrom step (start file s) acts).reportsBy k).length ≤ 1) := by
  refine ⟨⟨sound_of_canReport h, canReport_of_sound s h⟩, fun hsound hopen acts => ?_⟩
  obtain ⟨loop, -, heq⟩ := Option.map_eq_some_iff.mp (solo?_run file s h acts)
  have hle := solo_recorded_le_one hsound hopen (acts.filterMap (Act.ownOf k))
  rw [← heq] at hle
  exact hle

private def broker : Json :=
  .obj [("name", .str "MQTT Broker"), ("type", .str "tcp"), ("host", .str "mosquitto.home.svc"),
    ("port", .ofRat 1883)]

/-- Its name is a number. -/
private def numbered : Json := .obj [("name", .ofRat 8080), ("url", .str "http://nodered.home.svc")]

/-- Three entries, the first of which is no check. -/
def mixed : ConfigFile :=
  .parsed (.obj [("checks", .arr [.str "http://homeassistant.home.svc:8123", broker, numbered])])

theorem reports_on_iff_mixed :
    ¬ CanReport mixed (.init 0) 0 (.str "http://homeassistant.home.svc:8123") ∧
      CanReport mixed (.init 0) 1 broker ∧ CanReport mixed (.init 0) 2 numbered := by
  have hthirty : PyFloat.ofRat ((30 : ℕ) : ℚ) = .finite 30 := PyFloat.ofRat_natCast (by decide)
  have hwakes : sleepOf (.ofRat 30) = .wakes :=
    if_pos (Or.inr (by exact_mod_cast congrArg PyFloat.isFinite hthirty))
  refine ⟨?_, ?_, ?_⟩
  · rw [(reports_on_iff mixed (.init 0) rfl).1]
    rintro ⟨check, name, hdict, -⟩
    cases hdict
  · rw [(reports_on_iff mixed (.init 0) rfl).1]
    exact ⟨_, .str "MQTT Broker", rfl, rfl, rfl, hwakes⟩
  · rw [(reports_on_iff mixed (.init 0) rfl).1]
    exact ⟨_, .ofRat 8080, rfl, rfl, rfl, hwakes⟩

end Healthcheck

end PiWatch
