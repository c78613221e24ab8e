import PiWatch.Framework.GuardedLoop
import PiWatch.Backend.Quantity
import PiWatch.Backend.Samples

/-!
# The metrics poll

The node items of the metrics-server are recorded one after the other, then the pod items.
Each item is read in a handler of its own for `KeyError` and `ValueError`; any other exception,
and every exception outside that handler, ends the poll.
-/

namespace PiWatch

open ClusterState

namespace Metrics

structure Usage where
  cpu : Field String
  memory : Field String

structure ObjectMeta where
  ns : Option String
  name : Option String

structure NodeMetrics where
  metadata : Field ObjectMeta
  usage : Field Usage

structure ContainerMetrics where
  usage : Field Usage

structure PodMetrics where
  metadata : Field ObjectMeta
  containers : Field (List ContainerMetrics)

/-- What the poll meets. Without a value the request raised. -/
structure Responses where
  nodes : Option (Field (List NodeMetrics))
  pods : Option (Field (List PodMetrics))

/-- A recorded sample. -/
inductive Sample
  | node (name : String) (sample : Obj)
  | pod (key : String) (sample : Obj)
  deriving DecidableEq

/-- The call that records a sample. -/
def Sample.op (tr t : Time) : Sample → Op
  | node name sample => .recordNodeSample name sample tr t
  | pod key sample => .recordPodSample key sample tr t

/-! ## Reading items -/

def orRaise {α : Type} (e : PyError) : Option α → Except PyError α
  | none => .error e
  | some x => .ok x

/-- `d[f]`, for a field that is read further. -/
def subscript {α : Type} : Field α → Except PyError α
  | .absent => .error .keyError
  | .null => .error .typeError
  | .val a => .ok a

/-- A quantity of a usage: `parse(usage[f])`. -/
def parseField (parse : String → Option PyFloat) : Field String → Except PyError PyFloat
  | .absent => .error .keyError
  | .null => .error .attributeError
  | .val text => orRaise .valueError (parse text)

def readQuantity (parse : String → Option PyFloat) (quantity : Usage → Field String)
    (usage : Field Usage) : Except PyError PyFloat := do
  parseField parse (quantity (← subscript usage))

/-- `parse_cpu(item["usage"]["cpu"])`. -/
def cpuOf : Field Usage → Except PyError PyFloat := readQuantity parseCpu Usage.cpu

/-- `parse_mem(item["usage"]["memory"])`. -/
def memoryOf : Field Usage → Except PyError PyFloat := readQuantity parseMem Usage.memory

/-- `float(node.get("cpu_capacity") or 4)`; without a value it raises `ValueError`. -/
def cpuCapacity (node : Option NodeInfo) : Option PyFloat :=
  match pyOr (node.bind NodeInfo.cpuCapacity) none with
  | none => some (.finite 4)
  | some text => PyFloat.ofString text

/-- `parse_mem(node.get("mem_capacity") or "8Gi")`. -/
def memCapacity (node : Option NodeInfo) : Option PyFloat :=
  match pyOr (node.bind NodeInfo.memCapacity) none with
  | none => parseMem "8Gi"
  | some text => parseMem text

/-- `round(100 * used / capacity, 1)`. -/
def percent (used capacity : PyFloat) : Except PyError PyFloat := do
  let share ← orRaise .zeroDivisionError (((PyFloat.finite 100).mul used).div? capacity)
  return share.round 1

def nodeSample (node : Option NodeInfo) (usage : Field Usage) : Except PyError Obj := do
  let cpuCores ← cpuOf usage
  let memBytes ← memoryOf usage
  let cpuCap ← orRaise .valueError (cpuCapacity node)
  let memCap ← orRaise .valueError (memCapacity node)
  let cpuPct ← percent cpuCores cpuCap
  let memPct ← percent memBytes memCap
  let memInt ← memBytes.toInt
  return Dict.ofList [("cpu_pct", .num cpuPct), ("mem_pct", .num memPct),
    ("cpu_cores", .num (cpuCores.round 2)), ("mem_bytes", .ofRat memInt)]

def podSample (containers : Field (List ContainerMetrics)) : Except PyError Obj := do
  let cs ← subscript containers
  let cpus ← cs.mapM fun c => cpuOf c.usage
  let mems ← cs.mapM fun c => memoryOf c.usage
  let memInt ← (PyFloat.sum mems).toInt
  return Dict.ofList
    [("cpu_cores", .num ((PyFloat.sum cpus).round 3)), ("mem_bytes", .ofRat memInt)]

/-- The handler of an item: no sample for `KeyError` and `ValueError`. -/
def guarded {α : Type} : Except PyError α → Except PyError (Option α)
  | .ok a => .ok (some a)
  | .error .keyError | .error .valueError => .ok none
  | .error e => .error e

def recordNode (nodes : Dict String NodeInfo) (item : NodeMetrics) :
    Except PyError (Option Sample) := do
  let name ← orRaise .keyError (← subscript item.metadata).name
  let sample ← guarded (nodeSample (nodes.get? name) item.usage)
  return sample.map (.node name)

def recordPod (item : PodMetrics) : Except PyError (Option Sample) := do
  let ns ← orRaise .keyError (← subscript item.metadata).ns
  let name ← orRaise .keyError (← subscript item.metadata).name
  let sample ← guarded (podSample item.containers)
  return sample.map (.pod s!"{ns}/{name}")

/-- The pod half of a poll. -/
def pollPods (pods : Option (Field (List PodMetrics))) : List Sample :=
  match pods.bind (·.getOr []) with
  | none => []
  | some items => (runItems recordPod items).1

/-- The samples one poll records, in order. -/
def poll (nodes : Dict String NodeInfo) (r : Responses) : List Sample :=
  match r.nodes.bind (·.getOr []) with
  | none => []
  | some items =>
    match runItems (recordNode nodes) items with
    | (samples, some _) => samples
    | (samples, none) => samples ++ pollPods r.pods

/-! ## What a poll records -/

theorem node_not_mem_nodeSample {node : Option NodeInfo} {usage : Field Usage} {sample : Obj}
    (h : nodeSample node usage = .ok sample) : "node" ∉ sample := by
  simp only [nodeSample, bind_eq_ok_iff] at h
  obtain ⟨_, -, _, -, _, -, _, -, _, -, _, -, _, -, hsample⟩ := h
  obtain rfl := Except.ok.inj hsample
  simp [Dict.mem_ofList]

theorem key_not_mem_podSample {containers : Field (List ContainerMetrics)} {sample : Obj}
    (h : podSample containers = .ok sample) : "key" ∉ sample := by
  simp only [podSample, bind_eq_ok_iff] at h
  obtain ⟨_, -, _, -, _, -, _, -, hsample⟩ := h
  obtain rfl := Except.ok.inj hsample
  simp [Dict.mem_ofList]

theorem guarded_eq_some_iff {α : Type} {x : Except PyError α} {a : α} :
    guarded x = .ok (some a) ↔ x = .ok a := by
  cases x with
  | ok b => simp [guarded]
  | error e => cases e <;> simp [guarded]

theorem wellKeyed_recordNode {nodes : Dict String NodeInfo} {item : NodeMetrics} {made : Sample}
    (h : recordNode nodes item = .ok (some made)) (tr t : Time) : (made.op tr t).WellKeyed := by
  simp only [recordNode, bind_eq_ok_iff] at h
  obtain ⟨_, -, name, -, sample, hguarded, hmade⟩ := h
  obtain ⟨sample, rfl, rfl⟩ := Option.map_eq_some_iff.mp (Except.ok.inj hmade)
  exact node_not_mem_nodeSample (guarded_eq_some_iff.mp hguarded)

theorem wellKeyed_recordPod {item : PodMetrics} {made : Sample}
    (h : recordPod item = .ok (some made)) (tr t : Time) : (made.op tr t).WellKeyed := by
  simp only [recordPod, bind_eq_ok_iff] at h
  obtain ⟨_, -, ns, -, _, -, name, -, sample, hguarded, hmade⟩ := h
  obtain ⟨sample, rfl, rfl⟩ := Option.map_eq_some_iff.mp (Except.ok.inj hmade)
  exact key_not_mem_podSample (guarded_eq_some_iff.mp hguarded)

/-- The samples of a poll do not carry the fields their messages add. -/
theorem wellKeyed_of_mem_poll {nodes : Dict String NodeInfo} {r : Responses} {made : Sample}
    (h : made ∈ poll nodes r) (tr t : Time) : (made.op tr t).WellKeyed := by
  have hnode : ∀ {items}, made ∈ (runItems (recordNode nodes) items).1 →
      (made.op tr t).WellKeyed := by
    intro items hmem
    obtain ⟨item, hitem⟩ := exists_of_mem_runItems hmem
    exact wellKeyed_recordNode hitem tr t
  have hpod : made ∈ pollPods r.pods → (made.op tr t).WellKeyed := by
    intro hmem
    unfold pollPods at hmem
    split at hmem
    · cases hmem
    · obtain ⟨item, hitem⟩ := exists_of_mem_runItems hmem
      exact wellKeyed_recordPod hitem tr t
  unfold poll at h
  split at h
  · cases h
  · split at h
    · rename_i hrun
      exact hnode (by rw [hrun]; exact h)
    · rename_i hrun
      rcases List.mem_append.mp h with h | h
      · exact hnode (by rw [hrun]; exact h)
      · exact hpod h

/-! ## Which items are recorded, and which end the poll -/

/-- A usage whose quantity is a text that parses. -/
def Readable (parse : String → Option PyFloat) (quantity : Usage → Field String)
    (usage : Field Usage) : Prop :=
  ∃ u text, usage = .val u ∧ quantity u = .val text ∧ (parse text).isSome

/-- A usage that is null, or whose quantity is. -/
def Null (quantity : Usage → Field String) (usage : Field Usage) : Prop :=
  usage = .null ∨ ∃ u, usage = .val u ∧ quantity u = .null

/-- The capacities of a node parse, and `P` holds of them. -/
def Capacities (node : Option NodeInfo) (P : PyFloat → PyFloat → Prop) : Prop :=
  ∃ cpu mem, cpuCapacity node = some cpu ∧ memCapacity node = some mem ∧ P cpu mem

def NodeMetrics.name (item : NodeMetrics) : Option String := item.metadata.get.bind (·.name)

/-- Both quantities parse, and so do the capacities of the node, which are not zero. -/
def NodeMetrics.Recorded (nodes : Dict String NodeInfo) (item : NodeMetrics) : Prop :=
  ∃ name, item.name = some name ∧ Readable parseCpu Usage.cpu item.usage ∧
    Readable parseMem Usage.memory item.usage ∧
    Capacities (nodes.get? name) fun cpu mem => cpu ≠ .finite 0 ∧ mem ≠ .finite 0

/-- There is no name, a field is null where an object or a text is read, or a capacity is zero. -/
def NodeMetrics.Raises (nodes : Dict String NodeInfo) (item : NodeMetrics) : Prop :=
  item.name = none ∨ Null Usage.cpu item.usage ∨
    (Readable parseCpu Usage.cpu item.usage ∧ Null Usage.memory item.usage) ∨
    ∃ name, item.name = some name ∧ Readable parseCpu Usage.cpu item.usage ∧
      Readable parseMem Usage.memory item.usage ∧
      Capacities (nodes.get? name) fun cpu mem => cpu = .finite 0 ∨ mem = .finite 0

def PodMetrics.key (item : PodMetrics) : Option String :=
  item.metadata.get.bind fun m => m.ns.bind fun ns => m.name.map fun name => s!"{ns}/{name}"

/-- The sum of the memory of some containers. -/
def memorySum (cs : List ContainerMetrics) : PyFloat :=
  PyFloat.sum (cs.filterMap fun c => c.usage.get.bind fun u => u.memory.get.bind parseMem)

def AllReadable (parse : String → Option PyFloat) (quantity : Usage → Field String)
    (cs : List ContainerMetrics) : Prop :=
  ∀ c ∈ cs, Readable parse quantity c.usage

/-- The first container whose quantity is not readable has a null there. -/
def FirstNull (parse : String → Option PyFloat) (quantity : Usage → Field String)
    (cs : List ContainerMetrics) : Prop :=
  ∃ pre c post, cs = pre ++ c :: post ∧ AllReadable parse quantity pre ∧ Null quantity c.usage

/-- Every quantity parses, and the sum of the memory is in range. -/
def PodMetrics.Recorded (item : PodMetrics) : Prop :=
  item.key.isSome ∧ ∃ cs, item.containers = .val cs ∧ AllReadable parseCpu Usage.cpu cs ∧
    AllReadable parseMem Usage.memory cs ∧ (memorySum cs).isFinite

/-- There is no namespace or name, a field is null where an object or a text is read, or the sum of
the memory is out of range. -/
def PodMetrics.Raises (item : PodMetrics) : Prop :=
  item.key = none ∨ item.containers = .null ∨ ∃ cs, item.containers = .val cs ∧
    (FirstNull parseCpu Usage.cpu cs ∨
      AllReadable parseCpu Usage.cpu cs ∧ (FirstNull parseMem Usage.memory cs ∨
        AllReadable parseMem Usage.memory cs ∧
          (memorySum cs = .posInf ∨ memorySum cs = .negInf)))

/-! ## What an item does to the poll -/

/-- An exception the handler of an item does not catch. -/
def Uncaught (e : PyError) : Prop := e ≠ .keyError ∧ e ≠ .valueError

theorem guarded_eq_error_iff {α : Type} {x : Except PyError α} {e : PyError} :
    guarded x = .error e ↔ x = .error e ∧ Uncaught e := by
  unfold guarded Uncaught
  split
  · simp
  · constructor
    · intro h
      cases h
    · intro h
      obtain ⟨heq, hkey, -⟩ := h
      exact absurd (Except.error.inj heq).symm hkey
  · constructor
    · intro h
      cases h
    · intro h
      obtain ⟨heq, -, hvalue⟩ := h
      exact absurd (Except.error.inj heq).symm hvalue
  · rename_i e' hkey hvalue
    constructor
    · intro h
      obtain rfl := Except.error.inj h
      exact ⟨rfl, hkey, hvalue⟩
    · intro h
      rw [Except.error.inj h.1]

theorem subscript_eq_ok_iff {α : Type} {f : Field α} {a : α} :
    subscript f = .ok a ↔ f = .val a := by
  cases f <;> simp [subscript]

theorem subscript_raises_iff {α : Type} {f : Field α} :
    (∃ e, subscript f = .error e ∧ Uncaught e) ↔ f = .null := by
  cases f <;> simp [subscript, Uncaught]

theorem orRaise_eq_ok_iff {α : Type} {e : PyError} {x : Option α} {a : α} :
    orRaise e x = .ok a ↔ x = some a := by
  cases x <;> simp [orRaise]

theorem parseField_eq_ok_iff {parse : String → Option PyFloat} {f : Field String}
    {x : PyFloat} :
    parseField parse f = .ok x ↔ ∃ text, f = .val text ∧ parse text = some x := by
  cases f <;> simp [parseField, orRaise_eq_ok_iff]

theorem parseField_raises_iff {parse : String → Option PyFloat} {f : Field String} :
    (∃ e, parseField parse f = .error e ∧ Uncaught e) ↔ f = .null := by
  cases f with
  | val text => cases h : parse text <;> simp [parseField, orRaise, h, Uncaught]
  | _ => simp [parseField, Uncaught]

/-- A step that is reached raises if it does, or if the next one does. -/
theorem bind_raises_iff {α β : Type} {x : Except PyError α} {f : α → Except PyError β} :
    (∃ e, (x >>= f) = .error e ∧ Uncaught e) ↔
      (∃ e, x = .error e ∧ Uncaught e) ∨
        ∃ a, x = .ok a ∧ ∃ e, f a = .error e ∧ Uncaught e := by
  simp only [bind_eq_error_iff]
  constructor
  · intro h
    obtain ⟨e, hx | ⟨a, hx, hf⟩, he⟩ := h
    · exact Or.inl ⟨e, hx, he⟩
    · exact Or.inr ⟨a, hx, e, hf, he⟩
  · intro h
    rcases h with ⟨e, hx, he⟩ | ⟨a, hx, e, hf, he⟩
    · exact ⟨e, Or.inl hx, he⟩
    · exact ⟨e, Or.inr ⟨a, hx, hf⟩, he⟩

theorem readable_iff {parse : String → Option PyFloat} {quantity : Usage → Field String}
    {usage : Field Usage} :
    Readable parse quantity usage ↔ ∃ x, readQuantity parse quantity usage = .ok x := by
  simp only [readQuantity, bind_eq_ok_iff, subscript_eq_ok_iff, parseField_eq_ok_iff]
  constructor
  · intro h
    obtain ⟨u, text, hu, htext, hsome⟩ := h
    obtain ⟨x, hx⟩ := Option.isSome_iff_exists.mp hsome
    exact ⟨x, u, hu, text, htext, hx⟩
  · intro h
    obtain ⟨x, u, hu, text, htext, hx⟩ := h
    exact ⟨u, text, hu, htext, Option.isSome_iff_exists.mpr ⟨x, hx⟩⟩

theorem null_iff (parse : String → Option PyFloat) {quantity : Usage → Field String}
    {usage : Field Usage} :
    Null quantity usage ↔ ∃ e, readQuantity parse quantity usage = .error e ∧ Uncaught e := by
  simp only [readQuantity, bind_raises_iff, subscript_raises_iff, subscript_eq_ok_iff,
    parseField_raises_iff]
  exact Iff.rfl

theorem percent_eq_ok_iff (used : PyFloat) {capacity : PyFloat} :
    (∃ x, percent used capacity = .ok x) ↔ capacity ≠ .finite 0 := by
  simp only [percent, bind_eq_ok_iff, orRaise_eq_ok_iff]
  rw [ne_eq, ← PyFloat.div?_eq_none_iff (x := (PyFloat.finite 100).mul used)]
  cases ((PyFloat.finite 100).mul used).div? capacity <;> simp [pure, Except.pure]

theorem percent_raises_iff {used capacity : PyFloat} :
    (∃ e, percent used capacity = .error e ∧ Uncaught e) ↔ capacity = .finite 0 := by
  rw [← PyFloat.div?_eq_none_iff (x := (PyFloat.finite 100).mul used)]
  simp only [percent, bind_raises_iff]
  cases ((PyFloat.finite 100).mul used).div? capacity <;>
    simp [orRaise, Uncaught, pure, Except.pure]

theorem not_raises_of_value {α : Type} {x : Option α} :
    ¬ ∃ e, orRaise .valueError x = .error e ∧ Uncaught e := by
  cases x <;> simp [orRaise, Uncaught]

theorem isFinite_memoryOf {usage : Field Usage} {x : PyFloat} (h : memoryOf usage = .ok x) :
    x.isFinite := by
  simp only [memoryOf, readQuantity, bind_eq_ok_iff, parseField_eq_ok_iff] at h
  obtain ⟨u, -, text, -, hparse⟩ := h
  exact isFinite_parseWith hparse

theorem exists_nodeSample_iff {node : Option NodeInfo} {usage : Field Usage} :
    (∃ sample, nodeSample node usage = .ok sample) ↔
      Readable parseCpu Usage.cpu usage ∧ Readable parseMem Usage.memory usage ∧
        Capacities node fun cpu mem => cpu ≠ .finite 0 ∧ mem ≠ .finite 0 := by
  rw [readable_iff, readable_iff]
  simp only [nodeSample, bind_eq_ok_iff, orRaise_eq_ok_iff]
  constructor
  · intro h
    obtain ⟨sample, cpu, hcpu, mem, hmem, cpuCap, hcpuCap, memCap, hmemCap, cpuPct, hcpuPct,
      memPct, hmemPct, -⟩ := h
    exact ⟨⟨cpu, hcpu⟩, ⟨mem, hmem⟩, cpuCap, memCap, hcpuCap, hmemCap,
      (percent_eq_ok_iff cpu).mp ⟨cpuPct, hcpuPct⟩, (percent_eq_ok_iff mem).mp ⟨memPct, hmemPct⟩⟩
  · intro h
    obtain ⟨⟨cpu, hcpu⟩, ⟨mem, hmem⟩, cpuCap, memCap, hcpuCap, hmemCap, hcpuPct, hmemPct⟩ := h
    obtain ⟨cpuPct, hcpuPct⟩ := (percent_eq_ok_iff cpu).mpr hcpuPct
    obtain ⟨memPct, hmemPct⟩ := (percent_eq_ok_iff mem).mpr hmemPct
    obtain ⟨memInt, hmemInt⟩ := PyFloat.exists_toInt_of_isFinite (isFinite_memoryOf hmem)
    exact ⟨_, cpu, hcpu, mem, hmem, cpuCap, hcpuCap, memCap, hmemCap, cpuPct, hcpuPct, memPct,
      hmemPct, memInt, hmemInt, rfl⟩

theorem nodeSample_raises_iff {node : Option NodeInfo} {usage : Field Usage} :
    (∃ e, nodeSample node usage = .error e ∧ Uncaught e) ↔
      Null Usage.cpu usage ∨
        (Readable parseCpu Usage.cpu usage ∧ Null Usage.memory usage) ∨
        (Readable parseCpu Usage.cpu usage ∧ Readable parseMem Usage.memory usage ∧
          Capacities node fun cpu mem => cpu = .finite 0 ∨ mem = .finite 0) := by
  rw [readable_iff, readable_iff, null_iff parseCpu, null_iff parseMem]
  simp only [nodeSample, bind_raises_iff, orRaise_eq_ok_iff, not_raises_of_value, false_or,
    percent_raises_iff]
  constructor
  · intro h
    rcases h with hcpu | ⟨cpu, hcpu, hmem | ⟨mem, hmem, cpuCap, hcpuCap, memCap, hmemCap, h⟩⟩
    · exact Or.inl hcpu
    · exact Or.inr (Or.inl ⟨⟨cpu, hcpu⟩, hmem⟩)
    · refine Or.inr (Or.inr ⟨⟨cpu, hcpu⟩, ⟨mem, hmem⟩, cpuCap, memCap, hcpuCap, hmemCap, ?_⟩)
      rcases h with hzero | ⟨cpuPct, -, hzero | ⟨memPct, -, hint | ⟨memInt, -, e, hpure, -⟩⟩⟩
      · exact Or.inl hzero
      · exact Or.inr hzero
      · obtain ⟨memInt, hmemInt⟩ := PyFloat.exists_toInt_of_isFinite (isFinite_memoryOf hmem)
        obtain ⟨e, he, -⟩ := hint
        rw [hmemInt] at he
        cases he
      · cases hpure
  · intro h
    rcases h with hcpu | ⟨⟨cpu, hcpu⟩, hmem⟩ |
      ⟨⟨cpu, hcpu⟩, ⟨mem, hmem⟩, cpuCap, memCap, hcpuCap, hmemCap, hzero⟩
    · exact Or.inl hcpu
    · exact Or.inr ⟨cpu, hcpu, Or.inl hmem⟩
    · refine Or.inr ⟨cpu, hcpu, Or.inr ⟨mem, hmem, cpuCap, hcpuCap, memCap, hmemCap, ?_⟩⟩
      by_cases hcpuZero : cpuCap = .finite 0
      · exact Or.inl hcpuZero
      · obtain ⟨cpuPct, hcpuPct⟩ := (percent_eq_ok_iff cpu).mpr hcpuZero
        exact Or.inr ⟨cpuPct, hcpuPct, Or.inl (hzero.resolve_left hcpuZero)⟩

theorem allReadable_iff {parse : String → Option PyFloat} {quantity : Usage → Field String}
    {cs : List ContainerMetrics} :
    AllReadable parse quantity cs ↔
      ∃ xs, (cs.mapM fun c => readQuantity parse quantity c.usage) = .ok xs := by
  rw [exists_mapM_eq_ok_iff]
  exact forall₂_congr fun c _ => readable_iff

theorem firstNull_iff (parse : String → Option PyFloat) {quantity : Usage → Field String}
    {cs : List ContainerMetrics} :
    FirstNull parse quantity cs ↔
      ∃ e, (cs.mapM fun c => readQuantity parse quantity c.usage) = .error e ∧ Uncaught e := by
  simp only [FirstNull, AllReadable, readable_iff, null_iff parse, mapM_eq_error_iff]
  constructor
  · intro h
    obtain ⟨pre, c, post, hcs, hpre, e, hraise, he⟩ := h
    exact ⟨e, ⟨pre, c, post, hcs, hpre, hraise⟩, he⟩
  · intro h
    obtain ⟨e, ⟨pre, c, post, hcs, hpre, hraise⟩, he⟩ := h
    exact ⟨pre, c, post, hcs, hpre, e, hraise, he⟩

theorem memorySum_eq {cs : List ContainerMetrics} {mems : List PyFloat}
    (h : (cs.mapM fun c => memoryOf c.usage) = .ok mems) : memorySum cs = PyFloat.sum mems := by
  rw [memorySum, ← eq_filterMap_of_mapM _ h]
  intro c x hx
  simp only [memoryOf, readQuantity, bind_eq_ok_iff, subscript_eq_ok_iff,
    parseField_eq_ok_iff] at hx
  obtain ⟨u, hu, text, htext, hparse⟩ := hx
  simp [hu, htext, Field.get, hparse]

theorem toInt_raises_iff {x : PyFloat} :
    (∃ e, x.toInt = .error e ∧ Uncaught e) ↔ x = .posInf ∨ x = .negInf := by
  cases x <;> simp [PyFloat.toInt, Uncaught]

theorem isFinite_iff_toInt {x : PyFloat} : x.isFinite ↔ ∃ z, x.toInt = .ok z := by
  cases x <;> simp [PyFloat.toInt, PyFloat.isFinite]

theorem exists_podSample_iff {containers : Field (List ContainerMetrics)} :
    (∃ sample, podSample containers = .ok sample) ↔
      ∃ cs, containers = .val cs ∧ AllReadable parseCpu Usage.cpu cs ∧
        AllReadable parseMem Usage.memory cs ∧ (memorySum cs).isFinite := by
  simp only [podSample, bind_eq_ok_iff, subscript_eq_ok_iff, allReadable_iff, isFinite_iff_toInt]
  constructor
  · intro h
    obtain ⟨sample, cs, hcs, cpus, hcpus, mems, hmems, memInt, hmemInt, -⟩ := h
    exact ⟨cs, hcs, ⟨cpus, hcpus⟩, ⟨mems, hmems⟩, memInt, (memorySum_eq hmems).symm ▸ hmemInt⟩
  · intro h
    obtain ⟨cs, hcs, ⟨cpus, hcpus⟩, ⟨mems, hmems⟩, memInt, hmemInt⟩ := h
    exact ⟨_, cs, hcs, cpus, hcpus, mems, hmems, memInt, memorySum_eq hmems ▸ hmemInt, rfl⟩

theorem podSample_raises_iff {containers : Field (List ContainerMetrics)} :
    (∃ e, podSample containers = .error e ∧ Uncaught e) ↔
      containers = .null ∨ ∃ cs, containers = .val cs ∧
        (FirstNull parseCpu Usage.cpu cs ∨
          AllReadable parseCpu Usage.cpu cs ∧ (FirstNull parseMem Usage.memory cs ∨
            AllReadable parseMem Usage.memory cs ∧
              (memorySum cs = .posInf ∨ memorySum cs = .negInf))) := by
  simp only [podSample, bind_raises_iff, subscript_raises_iff, subscript_eq_ok_iff,
    firstNull_iff parseCpu, firstNull_iff parseMem, allReadable_iff, toInt_raises_iff]
  refine or_congr_right (exists_congr fun cs => and_congr_right fun _ => or_congr_right ?_)
  constructor
  · intro h
    obtain ⟨cpus, hcpus, h⟩ := h
    refine ⟨⟨cpus, hcpus⟩, ?_⟩
    rcases h with hmems | ⟨mems, hmems, hsum | ⟨memInt, -, e, hpure, -⟩⟩
    · exact Or.inl hmems
    · exact Or.inr ⟨⟨mems, hmems⟩, (memorySum_eq hmems).symm ▸ hsum⟩
    · cases hpure
  · intro h
    obtain ⟨⟨cpus, hcpus⟩, h⟩ := h
    refine ⟨cpus, hcpus, ?_⟩
    rcases h with hmems | ⟨⟨mems, hmems⟩, hsum⟩
    · exact Or.inl hmems
    · exact Or.inr ⟨mems, hmems, Or.inl (memorySum_eq hmems ▸ hsum)⟩

/-! ## One item -/

theorem exists_guarded_error_iff {α β : Type} {x : Except PyError α} {f : Option α → β} :
    (∃ e, (guarded x).map f = .error e) ↔ ∃ e, x = .error e ∧ Uncaught e := by
  simp only [← guarded_eq_error_iff]
  cases guarded x <;> simp [Except.map]

theorem alone_guarded_iff {α ι : Type} {step : ι → Except PyError (Option Sample)} {item : ι}
    {x : Except PyError α} {f : α → Sample} (h : step item = (guarded x).map (Option.map f)) :
    alone step item = [] ↔ ¬ ∃ a, x = .ok a := by
  cases x with
  | ok a =>
    have hok : step item = .ok (some (f a)) := h
    simp [alone_of_ok hok]
  | error e =>
    have hnone : alone step item = [] := by
      cases hguarded : guarded (Except.error e : Except PyError α) with
      | error e' =>
        rw [hguarded] at h
        exact alone_of_error h
      | ok made =>
        cases made with
        | none =>
          rw [hguarded] at h
          exact alone_of_ok h
        | some a =>
          rw [guarded_eq_some_iff] at hguarded
          cases hguarded
    simp [hnone]

theorem recordNode_of_name {nodes : Dict String NodeInfo} {item : NodeMetrics} {name : String}
    (h : item.name = some name) :
    recordNode nodes item =
      (guarded (nodeSample (nodes.get? name) item.usage)).map (Option.map (.node name)) := by
  obtain ⟨m, hget, hname⟩ := Option.bind_eq_some_iff.mp h
  unfold recordNode
  cases hmeta : item.metadata with
  | val m' =>
    rw [hmeta] at hget
    obtain rfl := Option.some.inj hget
    simp only [subscript, ok_bind, hname, orRaise]
    cases guarded (nodeSample (nodes.get? name) item.usage) <;> rfl
  | _ =>
    rw [hmeta] at hget
    cases hget

theorem recordNode_of_noName (nodes : Dict String NodeInfo) {item : NodeMetrics}
    (h : item.name = none) : ∃ e, recordNode nodes item = .error e := by
  unfold recordNode
  cases hmeta : item.metadata with
  | absent => exact ⟨.keyError, rfl⟩
  | null => exact ⟨.typeError, rfl⟩
  | val m =>
    have hname : m.name = none := by simpa [NodeMetrics.name, hmeta, Field.get] using h
    refine ⟨.keyError, ?_⟩
    simp [subscript, hname, orRaise]

theorem recordNode_raises_iff {nodes : Dict String NodeInfo} {item : NodeMetrics} :
    (∃ e, recordNode nodes item = .error e) ↔ item.Raises nodes := by
  unfold NodeMetrics.Raises
  cases hname : item.name with
  | none => simp [recordNode_of_noName nodes hname]
  | some name =>
    rw [recordNode_of_name hname, exists_guarded_error_iff, nodeSample_raises_iff]
    simp

theorem alone_recordNode_iff {nodes : Dict String NodeInfo} {item : NodeMetrics} :
    alone (recordNode nodes) item = [] ↔ ¬ item.Recorded nodes := by
  unfold NodeMetrics.Recorded
  cases hname : item.name with
  | none =>
    obtain ⟨e, he⟩ := recordNode_of_noName nodes hname
    simp [alone_of_error he]
  | some name =>
    rw [alone_guarded_iff (recordNode_of_name hname), exists_nodeSample_iff]
    simp

theorem recordPod_of_key {item : PodMetrics} {key : String} (h : item.key = some key) :
    recordPod item = (guarded (podSample item.containers)).map (Option.map (.pod key)) := by
  obtain ⟨m, hget, hkey⟩ := Option.bind_eq_some_iff.mp h
  obtain ⟨ns, hns, hmap⟩ := Option.bind_eq_some_iff.mp hkey
  obtain ⟨name, hname, rfl⟩ := Option.map_eq_some_iff.mp hmap
  unfold recordPod
  cases hmeta : item.metadata with
  | val m' =>
    rw [hmeta] at hget
    obtain rfl := Option.some.inj hget
    simp only [subscript, ok_bind, hns, hname, orRaise]
    cases guarded (podSample item.containers) <;> rfl
  | _ =>
    rw [hmeta] at hget
    cases hget

theorem recordPod_of_noKey {item : PodMetrics} (h : item.key = none) :
    ∃ e, recordPod item = .error e := by
  unfold recordPod
  cases hmeta : item.metadata with
  | absent => exact ⟨.keyError, rfl⟩
  | null => exact ⟨.typeError, rfl⟩
  | val m =>
    refine ⟨.keyError, ?_⟩
    cases hns : m.ns with
    | none =>
      simp [subscript, hns, orRaise]
    | some ns =>
      have hname : m.name = none := by simpa [PodMetrics.key, hmeta, Field.get, hns] using h
      simp [subscript, hns, hname, orRaise]

theorem recordPod_raises_iff {item : PodMetrics} :
    (∃ e, recordPod item = .error e) ↔ item.Raises := by
  unfold PodMetrics.Raises
  cases hkey : item.key with
  | none => simp [recordPod_of_noKey hkey]
  | some key =>
    rw [recordPod_of_key hkey, exists_guarded_error_iff, podSample_raises_iff]
    simp

theorem alone_recordPod_iff {item : PodMetrics} :
    alone recordPod item = [] ↔ ¬ item.Recorded := by
  unfold PodMetrics.Recorded
  cases hkey : item.key with
  | none =>
    obtain ⟨e, he⟩ := recordPod_of_noKey hkey
    simp [alone_of_error he]
  | some key =>
    rw [alone_guarded_iff (recordPod_of_key hkey), exists_podSample_iff]
    simp

end Metrics

end PiWatch
