import PiWatch.Backend.FiniteState
import PiWatch.Collectors.PvcUsage
import PiWatch.Protocol.Ws

/-!
# The texts of the frames

`ws_state` prints every frame with `json.dumps`. The browser's `JSON.parse` takes only valid
JSON, so one number that is not finite ends what a client can read.
-/

namespace PiWatch

open JsonGrammar

namespace Ws

/-- What is given to `json.dumps`. -/
def Frame.toJson : Frame → Json
  | .fullState snap => .obj [("type", .str "full_state"), ("data", snap.toJson)]
  | .delta msg => msg.toJson
  | .ping => .obj [("type", .str "ping")]

/-- The text that is sent. `isInt` tells the `int`s among the numbers of the frame. -/
def Frame.text (isInt : Json.Places) (frame : Frame) : List Char := Json.dumps isInt frame.toJson

/-- What the collectors do: a call of anyone's, or one poll of the volume claims. -/
inductive Work
  | call (op : Op)
  | pvcPoll (p : Pvc.Poll) (t : Time)

def Work.calls : Work → List Op
  | .call op => [op]
  | .pvcPoll p t => (Pvc.poll p t).calls

/-- What the work brings is finite; of a poll it is the usage that may not be. -/
def Work.InRange : Work → Prop
  | .call op => op.Finite
  | .pvcPoll p _ => p.UsageInRange

def Act.IsCall : Act → Prop
  | .call _ => True
  | _ => False

inductive WireAct
  | work (w : Work)
  | client (a : {a : Act // ¬ a.IsCall})

def WireAct.work? : WireAct → Option Work
  | .work w => some w
  | .client _ => none

def wireStep (sys : Server) : WireAct → Server
  | .work w => runFrom step sys (w.calls.map .call)
  | .client a => step sys a.1

/-! ## Frames of finite numbers -/

/-- What was published for a client and what is on its way to it. -/
structure Client.Finite (c : Client) : Prop where
  log : ∀ msg ∈ c.mailbox.log, msg.toJson.isFinite
  inFlight : ∀ frame ∈ c.inFlight, frame.toJson.isFinite

structure Server.Finite (sys : Server) : Prop where
  state : sys.state.Finite
  clients : sys.clients.All Client.Finite

private theorem isFinite_fullState_iff (s : ClusterState) :
    (Frame.fullState s.snapshot).toJson.isFinite ↔ s.Finite := by
  rw [← isFinite_snapshot_iff]
  simp [Frame.toJson]

private theorem finite_subscribe {s : ClusterState} (h : s.Finite) : (subscribe s).Finite where
  log := by simp [subscribe]
  inFlight := List.forall_mem_singleton.mpr ((isFinite_fullState_iff s).mpr h)

private theorem finite_publish {c : Client} (h : c.Finite) (op : Op) {msgs : List Msg}
    (hmsgs : ∀ msg ∈ msgs, msg.toJson.isFinite) : (c.publish op msgs).Finite where
  log := by
    rw [Client.publish, Mailbox.log_publishAll]
    exact List.forall_mem_append.mpr ⟨h.log, hmsgs⟩
  inFlight := h.inFlight

private theorem finite_take {c : Client} (h : c.Finite) : c.take.Finite := by
  unfold Client.take
  split
  · exact h
  · rename_i msg mb hnext
    obtain ⟨rest, hq, rfl⟩ := Mailbox.next_eq_some hnext
    refine ⟨h.log, List.forall_mem_append.mpr ⟨h.inFlight, List.forall_mem_singleton.mpr ?_⟩⟩
    exact h.log msg (c.mailbox.inOrder.subset (by simp [hq]))

private theorem finite_heartbeat {c : Client} (h : c.Finite) : c.heartbeat.Finite where
  log := h.log
  inFlight := List.forall_mem_append.mpr ⟨h.inFlight, List.forall_mem_singleton.mpr rfl⟩

private theorem finite_receive {c : Client} (h : c.Finite) : c.receive.Finite := by
  unfold Client.receive
  split
  · exact h
  · rename_i frame rest hflight
    refine ⟨h.log, fun f hf => h.inFlight f ?_⟩
    rw [hflight]
    exact List.mem_cons_of_mem frame hf

private theorem finite_call {sys : Server} (h : sys.Finite) {op : Op} (hop : op.Finite) :
    (step sys (.call op)).Finite where
  state := ClusterState.finite_step h.state hop
  clients := by
    rw [step, Dict.all_mapValues_iff]
    exact fun id c hc => finite_publish (h.clients id c hc) op
      (ClusterState.isFinite_published h.state hop)

private theorem finite_client {sys : Server} (h : sys.Finite) {a : Act} (ha : ¬ a.IsCall) :
    (step sys a).Finite := by
  cases a with
  | connect id =>
    unfold step
    dsimp only
    split
    · exact h
    · exact { h with clients := h.clients.insert id (finite_subscribe h.state) }
  | call op => exact absurd trivial ha
  | take id => exact { h with clients := h.clients.modify id fun _ => finite_take }
  | heartbeat id => exact { h with clients := h.clients.modify id fun _ => finite_heartbeat }
  | receive id => exact { h with clients := h.clients.modify id fun _ => finite_receive }
  | disconnect id => exact { h with clients := h.clients.erase id }

theorem Work.inRange_iff (w : Work) : w.InRange ↔ ∀ op ∈ w.calls, op.Finite := by
  cases w with
  | call op => exact (List.forall_mem_singleton (p := Op.Finite)).symm
  | pvcPoll p t => exact (Pvc.finite_poll_iff p t).symm

private theorem finite_work {sys : Server} (h : sys.Finite) {w : Work} (hw : w.InRange) :
    (wireStep sys (.work w)).Finite := by
  rw [Work.inRange_iff] at hw
  refine runFrom_invariant_of_forall (W := fun a => ∃ op, a = Act.call op ∧ op.Finite) ?_ h ?_
  · intro sys' a hsys ha
    obtain ⟨op, rfl, hop⟩ := ha
    exact finite_call hsys hop
  · intro a ha
    obtain ⟨op, hop, rfl⟩ := List.mem_map.mp ha
    exact ⟨op, rfl, hw op hop⟩

theorem finite_wireStep {sys : Server} (h : sys.Finite) {a : WireAct}
    (ha : ∀ w ∈ a.work?, w.InRange) : (wireStep sys a).Finite := by
  cases a with
  | work w => exact finite_work h (ha w rfl)
  | client a => exact finite_client h a.2

/-! ## Runs -/

/-- A server of a state with its reloaded history, and nothing else so far. -/
def start (t : Time) (hist : Dict String (Ring historyLen Obj)) : Server :=
  serverOf { ClusterState.init t with nodeHistory := hist }

/-- In every state a run reaches, every frame on its way to a client is valid JSON. -/
def FramesValid (isInt : Json.Places) (sys : Server) (run : List WireAct) : Prop :=
  ∀ done, done <+: run → ∀ id c, (runFrom wireStep sys done).clients.get? id = some c →
    ∀ frame ∈ c.inFlight, IsText (frame.text isInt)

private theorem finite_start_iff (t : Time) (hist : Dict String (Ring historyLen Obj)) :
    (start t hist).state.Finite ↔ hist.All fun points => ∀ d ∈ points.items, d.Finite := by
  constructor
  · intro h
    exact h.nodeHistory
  · intro h
    exact ⟨Dict.all_empty _, Dict.all_empty _, Dict.all_empty _, Dict.all_empty _,
      Dict.all_empty _, h, Dict.all_empty _⟩

private theorem framesValid_of_inRange (isInt : Json.Places) {sys : Server} (h : sys.Finite)
    {run : List WireAct} (hrun : ∀ w ∈ run.filterMap WireAct.work?, w.InRange) :
    FramesValid isInt sys run := by
  intro done hdone id c hc frame hframe
  have hstep : ∀ (s : Server) (a : WireAct), s.Finite → (∀ w ∈ a.work?, w.InRange) →
      (wireStep s a).Finite := fun _ _ hs ha => finite_wireStep hs ha
  have hfinite : (runFrom wireStep sys done).Finite := by
    refine runFrom_invariant_of_forall hstep h fun a ha w hw => ?_
    exact hrun w (List.mem_filterMap.mpr ⟨a, hdone.subset ha, hw⟩)
  exact (Json.isText_dumps_iff isInt _).mpr ((hfinite.clients id c hc).inFlight frame hframe)

/-- Before any client connects, the work only moves the state. -/
private theorem runFrom_work (s : ClusterState) (ws : List Work) :
    runFrom wireStep (serverOf s) (ws.map .work) =
      serverOf (runFrom ClusterState.step s (ws.flatMap Work.calls)) := by
  have hcalls : ∀ (calls : List Op) (s : ClusterState),
      runFrom step (serverOf s) (calls.map .call) =
        serverOf (runFrom ClusterState.step s calls) := by
    intro calls
    induction calls with
    | nil => exact fun _ => rfl
    | cons op calls ih =>
      intro s
      rw [List.map_cons, runFrom_cons, runFrom_cons]
      exact ih (s.step op)
  induction ws generalizing s with
  | nil => rfl
  | cons w ws ih =>
    rw [List.map_cons, runFrom_cons, List.flatMap_cons, runFrom_append, ← ih, wireStep, hcalls]

/-- A client that connects to a server of valid frames shows its state to be finite. -/
private theorem finite_of_connect {isInt : Json.Places} {s : ClusterState} (ws : List Work)
    {rest : List WireAct} (h : FramesValid isInt (serverOf s)
      (ws.map .work ++ .client ⟨.connect 0, id⟩ :: rest)) :
    (runFrom ClusterState.step s (ws.flatMap Work.calls)).Finite := by
  have hvalid := h (ws.map .work ++ [.client ⟨.connect 0, id⟩]) (by simp) 0
    (subscribe (runFrom ClusterState.step s (ws.flatMap Work.calls))) (by
      rw [runFrom_append, runFrom_work]
      rfl) _ (List.mem_singleton_self _)
  rw [Frame.text, Json.isText_dumps_iff] at hvalid
  exact (isFinite_fullState_iff _).mp hvalid

private theorem inRange_of_finite {s : ClusterState} {w : Work}
    (h : (runFrom ClusterState.step s w.calls).Finite) : w.InRange := by
  rw [Work.inRange_iff]
  cases w with
  | call op => exact List.forall_mem_singleton.mpr (ClusterState.finite_of_step h)
  | pvcPoll p t =>
    rcases Pvc.poll_calls_cases p t with hnone | ⟨items, hcalls⟩
    · rw [Work.calls, hnone]
      simp
    · rw [Work.calls, hcalls] at h ⊢
      exact List.forall_mem_singleton.mpr (ClusterState.finite_of_step h)

/-- Whatever the clients do while some work is done, all they are ever sent is valid JSON exactly
if the reloaded history and all of the work are in range. -/
theorem frames_valid_iff (isInt : Json.Places) (t : Time)
    (hist : Dict String (Ring historyLen Obj)) (works : List Work) :
    (∀ run : List WireAct, run.filterMap WireAct.work? = works →
      FramesValid isInt (start t hist) run) ↔
      (hist.All fun points => ∀ d ∈ points.items, d.Finite) ∧ ∀ w ∈ works, w.InRange := by
  have hworks : ∀ ws : List Work, (ws.map WireAct.work).filterMap WireAct.work? = ws := by
    intro ws
    rw [List.filterMap_map]
    exact List.filterMap_some
  constructor
  · intro h
    constructor
    · have hconnect := h (.client ⟨.connect 0, id⟩ :: works.map .work) (hworks works)
      exact (finite_start_iff t hist).mp (finite_of_connect [] hconnect)
    · intro w hw
      obtain ⟨before, after, rfl⟩ := List.append_of_mem hw
      have hconnect := h ((before ++ [w]).map .work ++
        .client ⟨.connect 0, id⟩ :: after.map .work) (by
          rw [List.filterMap_append, hworks, List.filterMap_cons]
          simp [WireAct.work?, hworks])
      have hfinite := finite_of_connect (before ++ [w]) hconnect
      rw [List.flatMap_append, runFrom_append, List.flatMap_singleton] at hfinite
      exact inRange_of_finite hfinite
  · intro h run hrun
    refine framesValid_of_inRange isInt ?_ (hrun ▸ h.2)
    exact ⟨(finite_start_iff t hist).mpr h.1, Dict.all_empty _⟩

private theorem noSlash_default : '/' ∉ "default".toList := by decide

private theorem noSlash_data : '/' ∉ "data".toList := by decide

/-- A bound claim of one gibibyte, whose usage Prometheus reports as `NaN`. -/
private def nanPoll : Pvc.Poll where
  listing := some [{
    ns := ⟨"default", noSlash_default⟩
    name := ⟨"data", noSlash_data⟩
    resources := none
    storageClassName := none
    accessModes := none
    volumeName := none
    phase := some "Bound"
    capacity := some (Dict.ofList [("storage", "1Gi")]) }]
  prometheus := true
  used := some [⟨some "default", some "data", some [.ofRat 1760000000, .str "NaN"]⟩]
  capacity := some [⟨some "default", some "data", some [.ofRat 1760000000, .str "1073741824"]⟩]

/-- The full state after that poll is not JSON: a client that connects cannot read it. -/
theorem frames_nan_usage :
    ¬ FramesValid (fun _ => false) (start 1760000000 ∅)
      [.work (.pvcPoll nanPoll 1760000030), .client ⟨.connect 0, id⟩] := by
  intro h
  have hfinite := finite_of_connect [.pvcPoll nanPoll 1760000030] h
  rw [List.flatMap_singleton, Work.calls] at hfinite
  have husage : ((runFrom ClusterState.step (start 1760000000 ∅).state
      (Pvc.poll nanPoll 1760000030).calls).pvcs.get? "default/data").bind (·.usageBytes) =
        some .nan := by
    decide +kernel
  obtain ⟨info, hinfo, hnan⟩ := Option.bind_eq_some_iff.mp husage
  have hclaim := (hfinite.pvcs "default/data" info hinfo).usage .nan hnan
  cases hclaim

end Ws

end PiWatch
