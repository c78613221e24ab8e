import PiWatch.Backend.Rounding
import PiWatch.Framework.LastWrite
import PiWatch.Framework.Replica
import PiWatch.NodeAgent.Degrade

/-!
# Polling the node agents

`hardware.run` resolves the agents, asks one after the other and records what each answers, with
the used share of the memory. An agent that cannot be asked, or whose answer cannot be used, is
left out. Other collectors change the state at any moment in between.
-/

namespace PiWatch

namespace HardwarePoll

open NodeAgent

/-! ## An answer -/

/-- What asking an agent ends in: an exception, a JSON document that is no object, or an object. -/
inductive Answer
  | raised
  | other
  | object (data : Dict String PyValue)

def truthy : PyValue → Bool
  | .none => false
  | .bool b => b
  | .int z => z ≠ 0
  | .float x => x.truthy
  | .str text => !text.isEmpty
  | .list items => !items.isEmpty
  | .dict entries => !entries.isEmpty

/-- `data.get(field) or 0`. -/
def fieldOrZero (data : Dict String PyValue) (field : String) : PyValue :=
  match data.get? field with
  | some v => if truthy v then v else .int 0
  | none => .int 0

/-- `a / b`. -/
def numberDiv : PyNumber → PyNumber → Except ReadError PyFloat
  | .int a, .int b => trueDiv a b
  | a, b => do a.divFloat (← b.toFloat)

/-- `round(100 * (mem_total - mem_avail) / mem_total, 1)`. -/
def usedPct (memTotal memAvail : PyValue) : Except ReadError PyFloat := do
  let total ← PyNumber.ofValue memTotal
  let used ← total.sub (← PyNumber.ofValue memAvail)
  return (← numberDiv (← used.mulInt 100) total).round 1

/-- The node of an answer and its data without it. -/
def sample (ip : String) : Answer → Except ReadError (PyValue × Dict String PyValue)
  | .raised => .error .osError
  | .other => .error (.raised .attributeError)
  | .object data => do
    let node := (data.get? "node").getD (.ofText ip.toList)
    let data := data.erase "node"
    let memTotal := fieldOrZero data "mem_total_kb"
    let memAvail := fieldOrZero data "mem_available_kb"
    if truthy memTotal then
      return (node, data.insert "mem_pct" (.float (← usedPct memTotal memAvail)))
    else return (node, data)

/-! ## What is recorded -/

def textOf (text : List ℕ) : String := String.ofList (text.map Char.ofNat)

mutual

def toJson : PyValue → Json
  | .none => .null
  | .bool b => .bool b
  | .int z => .ofRat z
  | .float x => .num x
  | .str text => .str (textOf text)
  | .list items => .arr (toJsonList items)
  | .dict entries => .obj (toJsonFields entries)

def toJsonList : List PyValue → List Json
  | [] => []
  | item :: items => toJson item :: toJsonList items

def toJsonFields : List (List ℕ × PyValue) → List (String × Json)
  | [] => []
  | (k, v) :: entries => (textOf k, toJson v) :: toJsonFields entries

end

/-- What an agent said, and about which node. -/
structure Heard where
  node : String
  data : Dict String PyValue
  said : Time

/-- An answer that can be used. A node has to be a text. -/
def heard? (ip : String) (answer : Answer) (th : Time) : Option Heard :=
  match sample ip answer with
  | .ok (.str node, data) => some ⟨textOf node, data, th⟩
  | _ => none

def Heard.op (heard : Heard) (tr t : Time) : Op :=
  .recordHardware heard.node (heard.data.mapValues toJson) heard.said tr t

/-! ## The loop -/

/-- The agents still to be asked in this round, and the state. -/
structure Poller where
  pending : List String
  state : ClusterState

inductive Act
  | resolved (infos : Option (List String))
  | answered (answer : Answer) (th tr t : Time)
  | other (op : Op)

/-- `_resolve_agents`. No addresses are known if it raises `gaierror`. -/
def resolveAgents : Option (List String) → List String
  | none => []
  | some infos => infos.dedup.mergeSort fun ip ip' => ip ≤ ip'

def step (p : Poller) : Act → Poller
  | .resolved infos =>
    match p.pending with
    | [] => { p with pending := resolveAgents infos }
    | _ :: _ => p
  | .answered answer th tr t =>
    match p.pending with
    | [] => p
    | ip :: rest =>
      { pending := rest
        state := (heard? ip answer th).elim p.state fun heard => p.state.step (heard.op tr t) }
  | .other op => { p with state := p.state.step op }

/-- What is heard in a step. -/
def heardIn (p : Poller) : Act → List Heard
  | .answered answer th _ _ =>
    match p.pending with
    | [] => []
    | ip :: _ => (heard? ip answer th).toList
  | _ => []

/-! ## The last answer counts -/

/-- What is kept of it. -/
def Heard.shown (heard : Heard) : Obj :=
  (heard.data.mapValues toJson).insert "t" (.ofRat heard.said)

/-- The hardware a call stores. -/
def hardwareWrite : Op → Option (Write String Obj)
  | .recordHardware node data th _ _ => some (node, some (data.insert "t" (.ofRat th)))
  | _ => none

theorem hardware_exec (s : ClusterState) (op : Op) :
    (s.step op).hardware = (hardwareWrite op).elim s.hardware s.hardware.write := by
  cases op <;> rfl

/-- Nobody else stores hardware. -/
def Act.Foreign (act : Act) : Prop := ∀ op, act = .other op → hardwareWrite op = none

theorem hardware_step {p : Poller} {act : Act} (h : act.Foreign) :
    (step p act).state.hardware =
      runFrom Dict.write p.state.hardware
        ((heardIn p act).map fun heard => (heard.node, some heard.shown)) := by
  cases act with
  | resolved infos => cases hpending : p.pending <;> simp [step, heardIn, hpending]
  | answered answer th tr t =>
    cases hpending : p.pending with
    | nil => simp [step, heardIn, hpending]
    | cons ip rest =>
      simp only [step, heardIn, hpending]
      cases heard? ip answer th with
      | none => rfl
      | some heard => exact hardware_exec _ _
  | other op =>
    have hop := hardware_exec p.state op
    rw [h op rfl] at hop
    exact hop

theorem hardware_run (p : Poller) {acts : List Act} (h : ∀ act ∈ acts, act.Foreign) :
    (runFrom step p acts).state.hardware =
      runFrom Dict.write p.state.hardware
        ((outputs step heardIn p acts).map fun heard => (heard.node, some heard.shown)) := by
  induction acts generalizing p with
  | nil => rfl
  | cons act acts ih =>
    rw [runFrom_cons, ih _ fun act' hact' => h act' (List.mem_cons_of_mem _ hact'),
      hardware_step (h act List.mem_cons_self), outputs, List.map_append, runFrom_append]

/-- What is shown of a node is the last answer about it that could be used. -/
theorem get?_hardware_run (p : Poller) {acts : List Act} (h : ∀ act ∈ acts, act.Foreign)
    (node : String) :
    (runFrom step p acts).state.hardware.get? node =
      ((((outputs step heardIn p acts).filter fun heard => heard.node = node).getLast?).map
        Heard.shown).or (p.state.hardware.get? node) := by
  rw [hardware_run p h, get?_runFrom_write, lastWrite, List.filter_map, List.getLast?_map]
  have hcomp : (fun w : Write String Obj => decide (w.1 = node)) ∘
      (fun heard : Heard => (heard.node, some heard.shown)) =
      fun heard => decide (heard.node = node) := rfl
  rw [hcomp]
  cases ((outputs step heardIn p acts).filter fun heard => decide (heard.node = node)).getLast? <;>
    rfl

/-! ## The used share of the memory -/

theorem ofRat_within {x : ℚ} {n : ℕ} (hn : n < 2 ^ 53) (hlow : 0 ≤ x) (hhigh : x ≤ n) :
    ∃ q, PyFloat.ofRat x = .finite q ∧ 0 ≤ q ∧ q ≤ n := by
  have hzero := PyFloat.nearest_nonneg hlow
  have htop : PyFloat.nearest x ≤ n := by
    rw [← PyFloat.nearest_natCast hn]
    exact PyFloat.nearest_mono hhigh
  refine ⟨PyFloat.nearest x, ?_, hzero, htop⟩
  have hrange : |PyFloat.nearest x| < 2 ^ 1024 := by
    rw [abs_of_nonneg hzero]
    have hsmall : (n : ℚ) < 2 ^ 53 := by exact_mod_cast hn
    exact (htop.trans_lt hsmall).trans (pow_lt_pow_right₀ (by norm_num) (by norm_num))
  rw [PyFloat.ofRat_eq, if_pos hrange]

theorem usedPct_within {total available : ℤ} (hpos : 0 < total) (hlow : 0 ≤ available)
    (hhigh : available ≤ total) :
    ∃ q, usedPct (.int total) (.int available) = .ok (.finite q) ∧ 0 ≤ q ∧ q ≤ 100 := by
  have htotal : (0 : ℚ) < total := by exact_mod_cast hpos
  have hused : (0 : ℚ) ≤ ((total - available) * 100 : ℤ) := by
    exact_mod_cast mul_nonneg (sub_nonneg.mpr hhigh) (by norm_num)
  have hshare : ((total - available) * 100 : ℤ) / (total : ℚ) ≤ (100 : ℕ) := by
    rw [div_le_iff₀ htotal]
    push_cast
    have hlow' : (0 : ℚ) ≤ available := by exact_mod_cast hlow
    linarith
  obtain ⟨quotient, hquotient, hzero, htop⟩ :=
    ofRat_within (by norm_num) (div_nonneg hused htotal.le) hshare
  have hround : 0 ≤ pyRound 1 quotient ∧ pyRound 1 quotient ≤ (100 : ℕ) := by
    have hfloor := pyRound_mono 1 hzero
    have hceil := pyRound_mono 1 htop
    have h0 := PyFloat.pyRound_intCast 1 0
    have h100 := PyFloat.pyRound_intCast 1 100
    push_cast at h0 h100 hceil ⊢
    rw [h0] at hfloor
    rw [h100] at hceil
    exact ⟨hfloor, hceil⟩
  obtain ⟨q, hq, hq0, hq100⟩ := ofRat_within (by norm_num) hround.1 hround.2
  refine ⟨q, ?_, hq0, by exact_mod_cast hq100⟩
  have hdiv : trueDiv ((total - available) * 100) total = .ok (.finite quotient) := by
    rw [trueDiv, if_neg hpos.ne', hquotient]
    rfl
  have hvalue : usedPct (.int total) (.int available) =
      (trueDiv ((total - available) * 100) total).map fun x => x.round 1 := rfl
  rw [hvalue, hdiv]
  exact congrArg Except.ok hq

/-! ## Answers of agents -/

/-- A line of `/proc/meminfo`, as the agent reads it. -/
def memKb (h : Host) (field : String) : Option ℤ := (memLines ∅ h.meminfo.lines.1).1.get? field

/-- No more memory is available than there is. -/
def SaneMemory (h : Host) : Prop :=
  ∀ total, memKb h "MemTotal" = some total → 0 ≤ total ∧
    ∀ available, memKb h "MemAvailable" = some available → 0 ≤ available ∧ available ≤ total

/-- An object is what an agent answered, on whatever host and after whatever earlier calls. -/
def Answer.OfAgent (answer : Answer) : Prop :=
  ∀ payload, answer = .object payload → ∃ py s h, outcome py s h = .ok payload

/-- The hardware of a node is the payload of its agent. -/
structure ShowsHost (h : Host) (payload : Dict String PyValue) (hw : Obj) : Prop where
  fields : ∀ f, f ∉ ["node", "t", "mem_pct"] → hw.get? f = (payload.get? f).map toJson
  unknown : (memKb h "MemTotal").getD 0 = 0 → "mem_pct" ∉ hw
  within : SaneMemory h → (memKb h "MemTotal").getD 0 ≠ 0 →
    ∃ q, hw.get? "mem_pct" = some (.num (.finite q)) ∧ 0 ≤ q ∧ q ≤ 100

theorem textOf_toNat (text : String) : textOf (text.toList.map Char.toNat) = text := by
  rw [textOf, List.map_map]
  have hid : Char.ofNat ∘ Char.toNat = id := funext Char.ofNat_toNat
  rw [hid, List.map_id, String.ofList_toList]

theorem fieldOrZero_eq {data : Dict String PyValue} {field : String} {z? : Option ℤ}
    (h : data.get? field = some (.ofOption .int z?)) :
    fieldOrZero data field = .int (z?.getD 0) := by
  rw [fieldOrZero, h]
  cases z? with
  | none => rfl
  | some z =>
    by_cases hz : z = 0
    · subst z
      rfl
    · simp [PyValue.ofOption, truthy, hz]

section Payload

variable {py : Interpreter} {s : RateState} {h : Host} {payload : Dict String PyValue}

/-- What the poller makes of a payload. -/
theorem sample_payload (hp : outcome py s h = .ok payload) (ip : String) :
    sample ip (.object payload) =
      if (memKb h "MemTotal").getD 0 = 0 then
        .ok (.ofText h.nodeName.toList, payload.erase "node")
      else
        (usedPct (.int ((memKb h "MemTotal").getD 0))
          (.int ((memKb h "MemAvailable").getD 0))).map fun x =>
            (.ofText h.nodeName.toList, (payload.erase "node").insert "mem_pct" (.float x)) := by
  have hnode : payload.get? "node" = some (.ofText h.nodeName.toList) :=
    Host.get?_base hp (by simp [Host.baseItems])
  have htotal : fieldOrZero (payload.erase "node") "mem_total_kb" =
      .int ((memKb h "MemTotal").getD 0) := by
    apply fieldOrZero_eq
    rw [Dict.get?_erase, if_neg (by decide)]
    exact Host.get?_base hp (by simp [Host.baseItems, memKb])
  have havailable : fieldOrZero (payload.erase "node") "mem_available_kb" =
      .int ((memKb h "MemAvailable").getD 0) := by
    apply fieldOrZero_eq
    rw [Dict.get?_erase, if_neg (by decide)]
    exact Host.get?_base hp (by simp [Host.baseItems, memKb])
  simp only [sample, hnode, htotal, havailable, Option.getD_some, truthy]
  by_cases hzero : (memKb h "MemTotal").getD 0 = 0
  · simp [hzero]
    rfl
  · rw [if_neg hzero, if_pos (by simpa using hzero)]
    cases usedPct (.int ((memKb h "MemTotal").getD 0)) (.int ((memKb h "MemAvailable").getD 0)) <;>
      rfl

theorem notMem_mem_pct (hp : outcome py s h = .ok payload) : payload.get? "mem_pct" = none :=
  get?_payload_of_notMem hp fun p => by cases p <;> decide

/-- A host with sane memory is always heard. -/
theorem usedPct_of_sane (hsane : SaneMemory h) (hne : (memKb h "MemTotal").getD 0 ≠ 0) :
    ∃ q, usedPct (.int ((memKb h "MemTotal").getD 0)) (.int ((memKb h "MemAvailable").getD 0)) =
      .ok (.finite q) ∧ 0 ≤ q ∧ q ≤ 100 := by
  cases htotal : memKb h "MemTotal" with
  | none =>
    rw [htotal] at hne
    exact absurd rfl hne
  | some total =>
    rw [htotal, Option.getD_some] at hne
    obtain ⟨hnonneg, havailable⟩ := hsane total htotal
    have hpos : 0 < total := lt_of_le_of_ne hnonneg (Ne.symm hne)
    rw [Option.getD_some]
    cases h' : memKb h "MemAvailable" with
    | none => exact usedPct_within hpos le_rfl hnonneg
    | some available =>
      obtain ⟨hlow, hhigh⟩ := havailable available h'
      exact usedPct_within hpos hlow hhigh

theorem heard_of_sane (hp : outcome py s h = .ok payload) (hsane : SaneMemory h) (ip : String)
    (th : Time) : ∃ heard, heard? ip (.object payload) th = some heard := by
  rw [heard?, sample_payload hp ip]
  by_cases hzero : (memKb h "MemTotal").getD 0 = 0
  · rw [if_pos hzero]
    exact ⟨_, rfl⟩
  · obtain ⟨q, hq, -⟩ := usedPct_of_sane hsane hzero
    rw [if_neg hzero, hq]
    exact ⟨_, rfl⟩

theorem shown_of_payload (hp : outcome py s h = .ok payload) {ip : String} {th : Time}
    {heard : Heard} (hheard : heard? ip (.object payload) th = some heard) :
    heard.node = h.nodeName ∧ heard.said = th ∧ ShowsHost h payload heard.shown := by
  have hfield : ∀ f, f ∉ ["node", "t", "mem_pct"] → f ≠ "node" ∧ f ≠ "t" ∧ f ≠ "mem_pct" := by
    simp
  rw [heard?, sample_payload hp ip] at hheard
  by_cases hzero : (memKb h "MemTotal").getD 0 = 0
  · rw [if_pos hzero] at hheard
    obtain rfl := Option.some.inj hheard
    refine ⟨textOf_toNat h.nodeName, rfl, ?_, fun _ => ?_, fun _ hne => absurd hzero hne⟩
    · intro f hf
      obtain ⟨hnode, ht, -⟩ := hfield f hf
      rw [Heard.shown, Dict.get?_insert_of_ne _ _ ht, Dict.get?_mapValues, Dict.get?_erase,
        if_neg hnode]
    · rw [← Dict.get?_eq_none_iff, Heard.shown, Dict.get?_insert_of_ne _ _ (by decide),
        Dict.get?_mapValues, Dict.get?_erase, if_neg (by decide), notMem_mem_pct hp]
      rfl
  · rw [if_neg hzero] at hheard
    cases hpct : usedPct (.int ((memKb h "MemTotal").getD 0))
        (.int ((memKb h "MemAvailable").getD 0)) with
    | error e =>
      rw [hpct] at hheard
      cases hheard
    | ok x =>
      rw [hpct] at hheard
      obtain rfl := Option.some.inj hheard
      refine ⟨textOf_toNat h.nodeName, rfl, ?_, fun hzero' => absurd hzero' hzero, ?_⟩
      · intro f hf
        obtain ⟨hnode, ht, hmem⟩ := hfield f hf
        rw [Heard.shown, Dict.get?_insert_of_ne _ _ ht, Dict.get?_mapValues,
          Dict.get?_insert_of_ne _ _ hmem, Dict.get?_erase, if_neg hnode]
      · intro hsane hne
        obtain ⟨q, hq, hrange⟩ := usedPct_of_sane hsane hne
        rw [hpct] at hq
        obtain rfl := Except.ok.inj hq
        refine ⟨q, ?_, hrange⟩
        rw [Heard.shown, Dict.get?_insert_of_ne _ _ (by decide), Dict.get?_mapValues,
          Dict.get?_insert_self]
        rfl

end Payload

/-! ## A whole run -/

/-- Whatever is heard is an answer of the run. -/
theorem exists_of_heard {p : Poller} {acts : List Act} {heard : Heard}
    (h : heard ∈ outputs step heardIn p acts) :
    ∃ ip answer th tr t, Act.answered answer th tr t ∈ acts ∧ heard? ip answer th = some heard := by
  induction acts generalizing p with
  | nil => cases h
  | cons act acts ih =>
    rw [outputs, List.mem_append] at h
    rcases h with h | h
    · cases act with
      | answered answer th tr t =>
        rw [heardIn] at h
        split at h
        · cases h
        · exact ⟨_, answer, th, tr, t, List.mem_cons_self, Option.mem_toList.mp h⟩
      | _ => cases h
    · obtain ⟨ip, answer, th, tr, t, hmem, hheard⟩ := ih h
      exact ⟨ip, answer, th, tr, t, List.mem_cons_of_mem _ hmem, hheard⟩

/-- Over any interleaving with the other collectors, the hardware of a node is the last payload of
its agent that could be used, field by field, with the used share of the memory; and whatever any
other agent answers, every payload of a host with sane memory can be used. -/
theorem hardware_of_agents {p : Poller} (hempty : p.state.hardware = ∅) {acts : List Act}
    (hforeign : ∀ act ∈ acts, act.Foreign)
    (hagents : ∀ answer th tr t, Act.answered answer th tr t ∈ acts → answer.OfAgent) :
    let heard := outputs step heardIn p acts
    (∀ node, (runFrom step p acts).state.hardware.get? node =
      ((heard.filter fun h => h.node = node).getLast?).map Heard.shown) ∧
    (∀ h ∈ heard, ∃ py s host payload tr t,
      Act.answered (.object payload) h.said tr t ∈ acts ∧ outcome py s host = .ok payload ∧
        host.nodeName = h.node ∧ ShowsHost host payload h.shown) ∧
    ∀ done payload th tr t rest, acts = done ++ .answered (.object payload) th tr t :: rest →
      (runFrom step p done).pending ≠ [] → ∀ py s host, outcome py s host = .ok payload →
        SaneMemory host →
          ∃ h ∈ heard, h.node = host.nodeName ∧ h.said = th ∧ ShowsHost host payload h.shown := by
  refine ⟨fun node => ?_, fun h hh => ?_, ?_⟩
  · rw [get?_hardware_run p hforeign, hempty, Dict.get?_empty, Option.or_none]
  · obtain ⟨ip, answer, th, tr, t, hmem, hheard⟩ := exists_of_heard hh
    cases answer with
    | raised => cases hheard
    | other => cases hheard
    | object payload =>
      obtain ⟨py, s, host, hp⟩ := hagents _ th tr t hmem payload rfl
      obtain ⟨hnode, rfl, hshows⟩ := shown_of_payload hp hheard
      exact ⟨py, s, host, payload, tr, t, hmem, hp, hnode.symm, hshows⟩
  · rintro done payload th tr t rest rfl hpending py s host hp hsane
    obtain ⟨ip, ips, hips⟩ := List.exists_cons_of_ne_nil hpending
    obtain ⟨h, hh⟩ := heard_of_sane hp hsane ip th
    refine ⟨h, ?_, shown_of_payload hp hh⟩
    have hin : h ∈ heardIn (runFrom step p done) (.answered (.object payload) th tr t) := by
      simp [heardIn, hips, hh]
    rw [outputs_append, outputs]
    exact List.mem_append_right _ (List.mem_append_left _ hin)

/-- A host of which only the memory can be read. -/
def board : Host :=
  { Host.absent with
    nodeName := "pi-1"
    meminfo := .content (["MemTotal: 8000 kB\n", "MemAvailable: 2000 kB\n"].map fun line =>
      line.toList.map fun c => c.toNat.toUInt8) }

theorem hardware_of_agents_board : ∃ payload,
    outcome ⟨1000, 1000, fun _ => []⟩ .start board = .ok payload ∧
      ∃ h ∈ outputs step heardIn ⟨[], .init 0⟩ [.resolved (some ["10.0.0.5", "10.0.0.6"]),
        .answered .raised 1 1 1, .answered (.object payload) 2 2 2],
        h.node = "pi-1" ∧ h.said = 2 ∧ ShowsHost board payload h.shown := by
  have hsome : (outcome ⟨1000, 1000, fun _ => []⟩ .start board).toOption.isSome := by
    decide +kernel
  cases hp : outcome ⟨1000, 1000, fun _ => []⟩ .start board with
  | error e =>
    rw [hp] at hsome
    cases hsome
  | ok payload =>
    have htotal : memKb board "MemTotal" = some 8000 := by decide +kernel
    have havailable : memKb board "MemAvailable" = some 2000 := by decide +kernel
    have hsane : SaneMemory board := by
      intro total htotal'
      obtain rfl := Option.some.inj (htotal.symm.trans htotal')
      refine ⟨by decide, fun available havailable' => ?_⟩
      obtain rfl := Option.some.inj (havailable.symm.trans havailable')
      decide
    have hpending : (runFrom step ⟨[], .init 0⟩ [.resolved (some ["10.0.0.5", "10.0.0.6"]),
        .answered .raised 1 1 1]).pending ≠ [] := by
      have hlength : (resolveAgents (some ["10.0.0.5", "10.0.0.6"])).length = 2 := by
        simp [resolveAgents]
      obtain ⟨ip, ip', hips⟩ := List.length_eq_two.mp hlength
      simp [step, hips]
    have hrun := @hardware_of_agents ⟨[], .init 0⟩ rfl
      [.resolved (some ["10.0.0.5", "10.0.0.6"]), .answered .raised 1 1 1,
        .answered (.object payload) 2 2 2] (by simp [Act.Foreign]) (by
        rintro answer th tr t hmem data rfl
        have hdata : data = payload ∧ th = 2 ∧ tr = 2 ∧ t = 2 := by simpa using hmem
        exact ⟨_, _, _, hdata.1 ▸ hp⟩)
    exact ⟨payload, rfl, hrun.2.2 [.resolved (some ["10.0.0.5", "10.0.0.6"]),
      .answered .raised 1 1 1] payload 2 2 2 [] rfl hpending _ _ board hp hsane⟩

end HardwarePoll

end PiWatch
