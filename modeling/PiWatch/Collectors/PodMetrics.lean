import PiWatch.Collectors.ApplyRuns

/-!
# Pod metrics of deleted pods

The pod watch and the metrics poll write the same map. Removing a pod removes its sample,
but recording a sample does not ask whether the pod is still there, and the metrics-server
lists a pod for some time after its deletion.
-/

namespace PiWatch

open ClusterState

namespace PodMetrics

open K8sWatch

/-- What the two loops do to the state: a call of `_apply`, a sample of the metrics poll. -/
inductive Action
  | call (c : Call)
  | sample (key : String) (sample : Obj) (tr t : Time)

/-- The state and the `_apply` calls that led to it. -/
structure Sys where
  state : ClusterState
  calls : List Call

def start (t : Time) : Sys := ⟨ClusterState.init t, []⟩

def step (sys : Sys) : Action → Sys
  | .call c => ⟨Call.step sys.state c, sys.calls ++ [c]⟩
  | .sample key sample tr t => ⟨sys.state.step (.recordPodSample key sample tr t), sys.calls⟩

/-- The pod was removed by a DELETED event and has not been added again since. -/
def Gone (sys : Sys) (key : String) : Prop :=
  (lastCall .pods key sys.calls).map Prod.fst = some .deleted

instance (sys : Sys) (key : String) : Decidable (Gone sys key) :=
  inferInstanceAs (Decidable (_ = _))

/-- The keys of pods of the past that still have a sample. -/
def pastKeys (sys : Sys) : List String :=
  sys.state.podMetrics.keys.filter fun key => Gone sys key

/-- No sample of a pod of the past, and never more of them than live pods. -/
structure OnlyLive (sys : Sys) : Prop where
  gone : ∀ key, Gone sys key → key ∉ sys.state.podMetrics
  count : (pastKeys sys).length ≤ sys.state.pods.keys.length

/-- A sample is recorded for a pod whose last watch event was no deletion. -/
def SampleOfLive (sys : Sys) : Action → Prop
  | .sample key _ _ _ => ¬ Gone sys key
  | .call _ => True

theorem OnlyLive.of_gone {sys : Sys} (h : ∀ key, Gone sys key → key ∉ sys.state.podMetrics) :
    OnlyLive sys := by
  refine ⟨h, ?_⟩
  have hnil : pastKeys sys = [] := by
    rw [pastKeys, List.filter_eq_nil_iff]
    intro key hkey hgone
    exact h key (of_decide_eq_true hgone) (Dict.mem_iff_mem_keys.mpr hkey)
  rw [hnil, List.length_nil]
  exact Nat.zero_le _

theorem onlyLive_start (t : Time) : OnlyLive (start t) :=
  .of_gone fun key _ => Dict.not_mem_empty key

theorem gone_call (sys : Sys) (c : Call) (key : String) :
    Gone (step sys (.call c)) key ↔ match c.ofKind .pods with
      | some (ev, obj) => if obj.key = key then ev = .deleted else Gone sys key
      | none => Gone sys key := by
  rw [Gone, step, lastCall_concat]
  cases c.ofKind .pods with
  | none => exact Iff.rfl
  | some x =>
    obtain ⟨ev, obj⟩ := x
    by_cases hkey : obj.key = key
    · simp [ObjectKind.objKey, hkey]
    · simp [ObjectKind.objKey, hkey, Gone]

/-- A watch event keeps samples of live pods only: a deletion removes its pod's sample. -/
theorem onlyLive_call {sys : Sys} (h : OnlyLive sys) (c : Call) :
    OnlyLive (step sys (.call c)) := by
  refine .of_gone fun key hgone => ?_
  rw [gone_call] at hgone
  have hmetrics : (step sys (.call c)).state.podMetrics = _ := Call.podMetrics_step sys.state c
  rw [hmetrics]
  cases hc : c.ofKind .pods with
  | none =>
    rw [hc] at hgone
    exact h.gone key hgone
  | some x =>
    obtain ⟨ev, obj⟩ := x
    rw [hc] at hgone
    dsimp only at hgone
    by_cases hkey : obj.key = key
    · rw [if_pos hkey] at hgone
      subst hgone hkey
      rw [← Dict.get?_eq_none_iff]
      exact Dict.get?_erase_self _ _
    · rw [if_neg hkey] at hgone
      cases ev with
      | deleted =>
        rw [← Dict.get?_eq_none_iff, Dict.get?_erase, if_neg (Ne.symm hkey),
          Dict.get?_eq_none_iff]
        exact h.gone key hgone
      | added => exact h.gone key hgone
      | modified => exact h.gone key hgone

/-- A sample keeps that exactly when its pod is not one of the past. -/
theorem onlyLive_sample {sys : Sys} (h : OnlyLive sys) (key : String) (sample : Obj)
    (tr t : Time) : OnlyLive (step sys (.sample key sample tr t)) ↔ ¬ Gone sys key := by
  constructor
  · intro hlive hgone
    exact hlive.gone key hgone (Dict.mem_insert.mpr (Or.inl rfl))
  · intro hlive
    refine .of_gone fun key' hgone hmem => ?_
    rcases Dict.mem_insert.mp hmem with heq | hold
    · exact hlive (heq ▸ hgone)
    · exact h.gone key' hgone hold

theorem onlyLive_step_iff {sys : Sys} (h : OnlyLive sys) (a : Action) :
    OnlyLive (step sys a) ↔ SampleOfLive sys a := by
  cases a with
  | call c => exact ⟨fun _ => trivial, fun _ => onlyLive_call h c⟩
  | sample key sample tr t => exact onlyLive_sample h key sample tr t

/-- In every run, every state reached holds samples of live pods only, exactly when every
sample is recorded for a pod whose last watch event was no deletion. -/
theorem podMetrics_onlyLive_iff (t : Time) (as : List Action) :
    AlongRun step (fun sys a => OnlyLive (step sys a)) (start t) as ↔
      AlongRun step SampleOfLive (start t) as :=
  alongRun_congr (P := fun sys a => OnlyLive (step sys a)) (Q := SampleOfLive)
    (fun _ a h => onlyLive_step_iff h a)
    (fun _ a h hlive => (onlyLive_step_iff h a).mpr hlive) (onlyLive_start t) as

private def web : PodInfo where
  key := "default/web"
  name := "web"
  ns := "default"
  node := none
  phase := none
  reason := none
  ready := "0/1"
  restarts := 0
  containers := ["web"]
  images := []
  oomKilled := false
  lastExitReason := none
  lastExitCode := none
  initProgress := none
  initReason := none
  created := none

/-- A pod is added and deleted, and the metrics-server lists it once more. -/
theorem podMetrics_keeps_deleted :
    ¬ ∀ (t : Time) (as : List Action),
      AlongRun step (fun sys a => OnlyLive (step sys a)) (start t) as := by
  intro h
  obtain ⟨-, -, hsample, -⟩ := h 0 [.call (.object .pods .added web 0),
    .call (.object .pods .deleted web 0), .sample "default/web" ∅ 0 0]
  exact hsample.gone "default/web" rfl rfl

end PodMetrics

end PiWatch
