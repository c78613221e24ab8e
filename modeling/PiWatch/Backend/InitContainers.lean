import PiWatch.Backend.Mappers

/-!
# Init containers

An init container waits, runs or has terminated. The one that blocks a pod is the first that has
not terminated with exit code 0.
-/

namespace PiWatch

inductive InitState
  | waiting (reason : String)
  | running
  | terminated (exitCode : ℤ) (reason : Option String)
  deriving DecidableEq

namespace InitState

def state : InitState → ContainerState
  | waiting reason => ⟨some ⟨some reason⟩, none⟩
  | running => ⟨none, none⟩
  | terminated exitCode reason => ⟨none, some ⟨reason, exitCode⟩⟩

def completed : InitState → Bool
  | terminated exitCode _ => exitCode = 0
  | _ => false

/-- Waiting, or terminated with another exit code than 0. -/
def stuck : InitState → Bool
  | waiting _ => true
  | running => false
  | terminated exitCode _ => exitCode ≠ 0

/-- Why a container blocks its pod. -/
def reason : InitState → Option String
  | waiting reason => some reason
  | running => none
  | terminated exitCode reason => pyOr reason (some s!"Error (exit {exitCode})")

end InitState

/-- The states of a pod's init containers, in their order. -/
def InitStates (p : V1Pod) (states : List InitState) : Prop :=
  (p.initContainerStatuses.getD []).map (·.state) = states.map fun s => some s.state

/-- The first container that has not completed. -/
def blocking? (states : List InitState) : Option InitState := states.find? fun s => !s.completed

/-- The status of the init containers is that of the blocking one, and there is none in a pod that
runs. -/
structure NamesBlocking (p : V1Pod) (states : List InitState) : Prop where
  completed : blocking? states = none → initContainerStatus p = (none, none)
  blocked : ∀ s, blocking? states = some s →
    states.countP (·.completed) < states.length ∧
      initContainerStatus p =
        (some s!"{states.countP (·.completed)}/{states.length}", s.reason)
  running : p.phase = some "Running" → initContainerStatus p = (none, none)

private theorem initCompleted_eq {s : ContainerStatus} {state : InitState}
    (h : s.state = some state.state) : initCompleted s = state.completed := by
  unfold initCompleted PiWatch.terminated
  rw [h]
  cases state <;> rfl

/-- The loop stops at the first container that waits or failed. -/
private theorem initReason_eq {statuses : List ContainerStatus} {states : List InitState}
    (h : statuses.map (·.state) = states.map fun s => some s.state) :
    initReason statuses = (states.find? InitState.stuck).bind InitState.reason := by
  induction states generalizing statuses with
  | nil =>
    rw [List.map_eq_nil_iff.mp h]
    rfl
  | cons state states ih =>
    obtain ⟨s, rest, rfl, hstate, hrest⟩ := List.map_eq_cons_iff.mp h
    have hnext := ih hrest
    unfold initReason PiWatch.terminated
    rw [hstate]
    cases state with
    | waiting reason => rfl
    | running => exact hnext
    | terminated exitCode reason =>
      change (if exitCode ≠ 0 then _ else initReason rest) = _
      rw [List.find?_cons]
      split_ifs with hcode
      · rw [show InitState.stuck (.terminated exitCode reason) = true by
          simp [InitState.stuck, hcode]]
        rfl
      · rw [show InitState.stuck (.terminated exitCode reason) = false by
          simpa [InitState.stuck] using hcode]
        exact hnext

private theorem countP_initCompleted {statuses : List ContainerStatus} {states : List InitState}
    (h : statuses.map (·.state) = states.map fun s => some s.state) :
    statuses.countP initCompleted = states.countP InitState.completed := by
  induction states generalizing statuses with
  | nil =>
    rw [List.map_eq_nil_iff.mp h]
    rfl
  | cons state states ih =>
    obtain ⟨s, rest, rfl, hstate, hrest⟩ := List.map_eq_cons_iff.mp h
    rw [List.countP_cons, List.countP_cons, ih hrest, initCompleted_eq hstate]

theorem blocking?_eq_none_iff (states : List InitState) :
    blocking? states = none ↔ ∀ s ∈ states, s.completed := by
  rw [blocking?, List.find?_eq_none]
  simp

private theorem countP_eq_length_iff (states : List InitState) :
    states.countP (·.completed) = states.length ↔ blocking? states = none := by
  rw [List.countP_eq_length, blocking?_eq_none_iff]

/-- The status tells of the first container that waits or failed, blocking or not. -/
theorem initContainerStatus_eq {p : V1Pod} {states : List InitState} (h : InitStates p states) :
    initContainerStatus p =
      if blocking? states = none then (none, none)
      else (some s!"{states.countP (·.completed)}/{states.length}",
        (states.find? InitState.stuck).bind InitState.reason) := by
  have hlength : (p.initContainerStatuses.getD []).length = states.length := by
    simpa using congrArg List.length h
  have hnil : p.initContainerStatuses.getD [] = [] ↔ states = [] := by
    rw [← List.length_eq_zero_iff, hlength, List.length_eq_zero_iff]
  have hunfold : initContainerStatus p =
      if p.initContainerStatuses.getD [] = [] then (none, none)
      else if (p.initContainerStatuses.getD []).countP initCompleted =
        (p.initContainerStatuses.getD []).length then (none, none)
      else (some s!"{(p.initContainerStatuses.getD []).countP initCompleted}/{(
        p.initContainerStatuses.getD []).length}", initReason (p.initContainerStatuses.getD [])) :=
    rfl
  rw [hunfold, countP_initCompleted h, hlength, initReason_eq h]
  by_cases hstates : states = []
  · rw [if_pos (hnil.mpr hstates), if_pos (by rw [hstates]; rfl)]
  · rw [if_neg (mt hnil.mp hstates)]
    exact if_congr (countP_eq_length_iff states) rfl rfl

theorem stuck_or_running {s : InitState} (h : ¬ s.completed) : s.stuck ∨ s = .running := by
  cases s with
  | waiting reason => exact Or.inl rfl
  | running => exact Or.inr rfl
  | terminated exitCode reason =>
    left
    simpa [InitState.completed, InitState.stuck] using h

theorem isSome_reason {s : InitState} (h : s.stuck) : s.reason.isSome := by
  cases s with
  | waiting reason => rfl
  | running => cases h
  | terminated exitCode reason =>
    cases reason with
    | none => rfl
    | some text =>
      change (if text = "" then _ else _ : Option String).isSome
      split_ifs <;> rfl

private theorem stuck_eq_false {s : InitState} (h : s.completed) : s.stuck = false := by
  cases s with
  | terminated exitCode reason => simpa [InitState.completed, InitState.stuck] using h
  | _ => cases h

/-- No container waits or has failed behind the first one that has not completed, if that runs, and
a pod that runs has no container that has not completed. -/
structure Unshadowed (p : V1Pod) (states : List InitState) : Prop where
  behind : ∀ before after, states = before ++ .running :: after → (∀ s ∈ before, s.completed) →
    ∀ s ∈ after, s.stuck = false
  running : p.phase = some "Running" → ∀ s ∈ states, s.completed

/-- Behind completed containers the search goes on. -/
private theorem find?_stuck_append {before : List InitState} (h : ∀ s ∈ before, s.completed)
    (after : List InitState) :
    (before ++ after).find? InitState.stuck = after.find? InitState.stuck := by
  have hbefore : before.find? InitState.stuck = none := by
    rw [List.find?_eq_none]
    intro s hs
    simp [stuck_eq_false (h s hs)]
  rw [List.find?_append, hbefore, Option.none_or]

/-- A reason is found exactly if a container waits or has failed. -/
private theorem bind_reason_eq_none_iff (states : List InitState) :
    (states.find? InitState.stuck).bind InitState.reason = none ↔
      ∀ s ∈ states, s.stuck = false := by
  cases hfind : states.find? InitState.stuck with
  | none =>
    rw [List.find?_eq_none] at hfind
    exact iff_of_true rfl fun s hs => by simpa using hfind s hs
  | some first =>
    have hstuck := List.find?_some hfind
    refine iff_of_false ?_ fun hall => ?_
    · rw [Option.bind_some]
      exact Option.isSome_iff_ne_none.mp (isSome_reason hstuck)
    · rw [hall first (List.mem_of_find?_eq_some hfind)] at hstuck
      cases hstuck

private theorem exists_of_blocking? {states : List InitState} {s : InitState}
    (h : blocking? states = some s) : ¬ s.completed ∧ ∃ before after,
      states = before ++ s :: after ∧ ∀ s ∈ before, s.completed := by
  obtain ⟨hs, before, after, hsplit, hbefore⟩ := List.find?_eq_some_iff_append.mp h
  exact ⟨by simpa using hs, before, after, hsplit, by simpa using hbefore⟩

private theorem blocking?_running {before : List InitState} (h : ∀ s ∈ before, s.completed)
    (after : List InitState) : blocking? (before ++ .running :: after) = some .running := by
  rw [blocking?, List.find?_eq_some_iff_append]
  exact ⟨rfl, before, after, rfl, by simpa using h⟩

/-- Behind completed containers, one that runs leaves the search to those after it. -/
private theorem bind_reason_running {before : List InitState} (h : ∀ s ∈ before, s.completed)
    (after : List InitState) :
    ((before ++ .running :: after).find? InitState.stuck).bind InitState.reason =
      (after.find? InitState.stuck).bind InitState.reason := by
  rw [find?_stuck_append h, List.find?_cons_of_neg (by decide)]

/-- The status names the blocking container exactly if no other one comes in its place. -/
theorem namesBlocking_iff {p : V1Pod} {states : List InitState} (h : InitStates p states) :
    NamesBlocking p states ↔ Unshadowed p states := by
  have hstatus := initContainerStatus_eq h
  constructor
  · intro hnames
    constructor
    · rintro before after rfl hbefore
      have hblocking := blocking?_running hbefore after
      have hreason := (hnames.blocked _ hblocking).2
      rw [hstatus, if_neg (by simp [hblocking]), bind_reason_running hbefore] at hreason
      exact (bind_reason_eq_none_iff after).mp (Prod.mk.inj hreason).2
    · intro hphase
      rw [← blocking?_eq_none_iff]
      by_contra hblocking
      have hnone := hnames.running hphase
      rw [hstatus, if_neg hblocking] at hnone
      cases (Prod.mk.inj hnone).1
  · intro hclear
    constructor
    · intro hblocking
      rw [hstatus, if_pos hblocking]
    · intro s hblocking
      obtain ⟨hs, before, after, hsplit, hbefore⟩ := exists_of_blocking? hblocking
      constructor
      · have hne := mt (countP_eq_length_iff states).mp (by simp [hblocking])
        exact Nat.lt_of_le_of_ne List.countP_le_length hne
      · rw [hstatus, if_neg (by simp [hblocking])]
        congr 1
        rw [hsplit]
        rcases stuck_or_running hs with hstuck | rfl
        · rw [find?_stuck_append hbefore, List.find?_cons_of_pos hstuck, Option.bind_some]
        · rw [bind_reason_running hbefore]
          exact (bind_reason_eq_none_iff after).mpr (hclear.behind before after hsplit hbefore)
    · intro hphase
      rw [hstatus, if_pos ((blocking?_eq_none_iff states).mpr (hclear.running hphase))]

/-- A pod with nothing but its init containers. -/
def podStarting (phase : String) (states : List InitState) : V1Pod where
  metadata := { name := ⟨"web", by decide⟩, ns := ⟨"apps", by decide⟩, creationTimestamp := none }
  nodeName := none
  containers := none
  phase := some phase
  reason := none
  containerStatuses := none
  initContainerStatuses := some (states.map fun s => ⟨false, 0, some s.state, none⟩)

theorem initStates_podStarting (phase : String) (states : List InitState) :
    InitStates (podStarting phase states) states := by
  rw [InitStates, podStarting, Option.getD_some, List.map_map]
  rfl

theorem namesBlocking_crash :
    NamesBlocking (podStarting "Pending" [.terminated 0 none, .waiting "CrashLoopBackOff"])
      [.terminated 0 none, .waiting "CrashLoopBackOff"] := by
  rw [namesBlocking_iff (initStates_podStarting _ _)]
  constructor
  · intro before after hsplit
    have hmem : InitState.running ∈ [InitState.terminated 0 none, .waiting "CrashLoopBackOff"] := by
      rw [hsplit]
      simp
    simp at hmem
  · intro hphase
    revert hphase
    decide

/-- The first init container runs, and the status names what the second one waits for. -/
theorem namesBlocking_shadowed :
    initContainerStatus (podStarting "Pending" [.running, .waiting "PodInitializing"]) =
      (some "0/2", some "PodInitializing") ∧
    ¬ NamesBlocking (podStarting "Pending" [.running, .waiting "PodInitializing"])
      [.running, .waiting "PodInitializing"] := by
  have hstatus : initContainerStatus (podStarting "Pending"
      [.running, .waiting "PodInitializing"]) = (some "0/2", some "PodInitializing") := by
    decide
  refine ⟨hstatus, fun h => ?_⟩
  have hnone := (h.blocked .running rfl).2
  rw [hstatus] at hnone
  cases (Prod.mk.inj hnone).2

end PiWatch
