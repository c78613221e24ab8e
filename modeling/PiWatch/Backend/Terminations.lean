import PiWatch.Backend.Mappers

/-!
# The last termination of a pod

Each container may have a current and a last termination. The loop of `map_pod` shows one of
them without a look at the times they finished.
-/

namespace PiWatch

structure FinishedTermination extends ContainerStateTerminated where
  finishedAt : Time
  deriving DecidableEq

/-- The current and the last termination of a container. -/
structure ContainerTerminations where
  current : Option FinishedTermination
  last : Option FinishedTermination

namespace ContainerTerminations

/-- What the status of a container says of them. -/
def OfStatus (c : ContainerTerminations) (s : ContainerStatus) : Prop :=
  terminated s.state = c.current.map (·.toContainerStateTerminated) ∧
    terminated s.lastState = c.last.map (·.toContainerStateTerminated)

/-- The current termination, or else the last one. -/
def shown (c : ContainerTerminations) : Option FinishedTermination := c.current.or c.last

def all (cs : List ContainerTerminations) : List FinishedTermination :=
  cs.flatMap fun c => c.current.toList ++ c.last.toList

end ContainerTerminations

/-- The terminations of a pod's containers, in their order. -/
def PodTerminations (p : V1Pod) (cs : List ContainerTerminations) : Prop :=
  List.Forall₂ ContainerTerminations.OfStatus cs (p.containerStatuses.getD [])

/-- A termination that finished last has this reason and this exit code. -/
def IsLatest (ts : List FinishedTermination) (reason : Option String) (exitCode : ℤ) : Prop :=
  ∃ t ∈ ts, (∀ u ∈ ts, u.finishedAt ≤ t.finishedAt) ∧ t.reason = reason ∧ t.exitCode = exitCode

/-- The tooltip shows the termination that finished last, and nothing if there was none. -/
structure ShowsLatest (p : V1Pod) (cs : List ContainerTerminations) : Prop where
  latest : ContainerTerminations.all cs ≠ [] → ∃ exitCode,
    (mapPod p).lastExitCode = some exitCode ∧
      IsLatest (ContainerTerminations.all cs) (mapPod p).lastExitReason exitCode
  never : ((mapPod p).lastExitReason, (mapPod p).lastExitCode) = (none, none) ↔
    ContainerTerminations.all cs = []

/-! ## The loop -/

/-- The termination the tooltip shows after one more container. -/
def exitStep (exit : Option String × Option ℤ) (s : ContainerStatus) : Option String × Option ℤ :=
  if exit.1 = none then lastTermination s.state s.lastState else exit

theorem foldl_scanContainer (acc : ContainerScan) (ss : List ContainerStatus) :
    ((ss.foldl scanContainer acc).lastExitReason, (ss.foldl scanContainer acc).lastExitCode) =
      ss.foldl exitStep (acc.lastExitReason, acc.lastExitCode) := by
  induction ss generalizing acc with
  | nil => rfl
  | cons s ss ih => rw [List.foldl_cons, List.foldl_cons, ih]; rfl

theorem mapPod_exit (p : V1Pod) :
    ((mapPod p).lastExitReason, (mapPod p).lastExitCode) =
      (p.containerStatuses.getD []).foldl exitStep (none, none) :=
  foldl_scanContainer ⟨none, false, none, none⟩ (p.containerStatuses.getD [])

namespace ContainerTerminations

/-- A container whose shown termination has no reason, or that shows none. -/
def Unreasoned (c : ContainerTerminations) : Prop := c.shown.bind (·.reason) = none

instance (c : ContainerTerminations) : Decidable c.Unreasoned :=
  inferInstanceAs (Decidable (_ = _))

def takeStep (taken : Option FinishedTermination) (c : ContainerTerminations) :
    Option FinishedTermination :=
  if taken.bind (·.reason) = none then c.shown else taken

/-- The termination whose reason and exit code the loop ends with. -/
def taken (cs : List ContainerTerminations) : Option FinishedTermination :=
  cs.foldl takeStep none

theorem lastTermination_eq {c : ContainerTerminations} {s : ContainerStatus} (h : c.OfStatus s) :
    lastTermination s.state s.lastState = (c.shown.bind (·.reason), c.shown.map (·.exitCode)) := by
  unfold lastTermination shown
  rw [h.1, h.2]
  cases c.current with
  | some t => rfl
  | none => cases c.last <;> rfl

private theorem foldl_exitStep {cs : List ContainerTerminations} {ss : List ContainerStatus}
    (h : List.Forall₂ OfStatus cs ss) (start : Option FinishedTermination) :
    ss.foldl exitStep (start.bind (·.reason), start.map (·.exitCode)) =
      ((cs.foldl takeStep start).bind (·.reason), (cs.foldl takeStep start).map (·.exitCode)) := by
  induction h generalizing start with
  | nil => rfl
  | cons hstatus _ ih =>
    rw [List.foldl_cons, List.foldl_cons, ← ih]
    congr 1
    unfold exitStep takeStep
    dsimp only
    split_ifs
    · exact lastTermination_eq hstatus
    · rfl

theorem mapPod_exit_eq {p : V1Pod} {cs : List ContainerTerminations} (h : PodTerminations p cs) :
    ((mapPod p).lastExitReason, (mapPod p).lastExitCode) =
      ((taken cs).bind (·.reason), (taken cs).map (·.exitCode)) := by
  rw [mapPod_exit]
  exact foldl_exitStep h none

/-- Once a termination with a reason is taken, it stays. -/
private theorem foldl_takeStep_of_reason {t : FinishedTermination} (h : t.reason ≠ none)
    (cs : List ContainerTerminations) : cs.foldl takeStep (some t) = some t := by
  induction cs with
  | nil => rfl
  | cons c cs ih => rw [List.foldl_cons, takeStep, Option.bind_some, if_neg h, ih]

private theorem unreasoned_foldl {cs : List ContainerTerminations} (h : ∀ c ∈ cs, c.Unreasoned)
    {start : Option FinishedTermination} (hstart : start.bind (·.reason) = none) :
    (cs.foldl takeStep start).bind (·.reason) = none := by
  induction cs generalizing start with
  | nil => exact hstart
  | cons c cs ih =>
    rw [List.forall_mem_cons] at h
    rw [List.foldl_cons, takeStep, if_pos hstart]
    exact ih h.2 h.1

theorem taken_append_cons {before after : List ContainerTerminations} {c : ContainerTerminations}
    {t : FinishedTermination} (hbefore : ∀ b ∈ before, b.Unreasoned) (hshown : c.shown = some t)
    (hreason : t.reason ≠ none) : taken (before ++ c :: after) = some t := by
  rw [taken, List.foldl_append, List.foldl_cons, takeStep, if_pos (unreasoned_foldl hbefore rfl),
    hshown, foldl_takeStep_of_reason hreason]

theorem taken_concat {before : List ContainerTerminations} {c : ContainerTerminations}
    (hbefore : ∀ b ∈ before, b.Unreasoned) : taken (before ++ [c]) = c.shown := by
  rw [taken, List.foldl_append, List.foldl_cons, takeStep, if_pos (unreasoned_foldl hbefore rfl),
    List.foldl_nil]

end ContainerTerminations

open ContainerTerminations

/-- What the loop takes finished last: the first shown termination with a reason or, where none
has one, that of the last container. -/
inductive LatestTaken (cs : List ContainerTerminations) : Prop
  | never (h : all cs = [])
  | reasoned (before : List ContainerTerminations) (c : ContainerTerminations)
      (after : List ContainerTerminations) (t : FinishedTermination)
      (hcs : cs = before ++ c :: after) (hbefore : ∀ b ∈ before, b.Unreasoned)
      (hshown : c.shown = some t) (hreason : t.reason ≠ none)
      (hlatest : IsLatest (all cs) t.reason t.exitCode)
  | unreasoned (before : List ContainerTerminations) (c : ContainerTerminations)
      (t : FinishedTermination) (hcs : cs = before ++ [c])
      (hbefore : ∀ b ∈ before, b.Unreasoned) (hshown : c.shown = some t)
      (hreason : t.reason = none) (hlatest : IsLatest (all cs) t.reason t.exitCode)

private theorem shown_mem {cs : List ContainerTerminations} {c : ContainerTerminations}
    {t : FinishedTermination} (hc : c ∈ cs) (hshown : c.shown = some t) : t ∈ all cs := by
  rw [all, List.mem_flatMap]
  refine ⟨c, hc, ?_⟩
  rw [List.mem_append, Option.mem_toList, Option.mem_toList]
  rcases Option.or_eq_some_iff.mp hshown with h | ⟨-, h⟩
  · exact Or.inl h
  · exact Or.inr h

/-- The loop takes the first shown termination with a reason, or what the last container shows. -/
private theorem taken_cases (cs : List ContainerTerminations) :
    (∃ before c after t, cs = before ++ c :: after ∧ (∀ b ∈ before, b.Unreasoned) ∧
      c.shown = some t ∧ t.reason ≠ none) ∨ ∀ c ∈ cs, c.Unreasoned := by
  by_cases h : ∀ c ∈ cs, c.Unreasoned
  · exact Or.inr h
  · left
    simp only [not_forall] at h
    obtain ⟨c, hc, hreason⟩ := h
    have hsome : (cs.find? fun c => !decide c.Unreasoned).isSome := by
      rw [List.find?_isSome]
      exact ⟨c, hc, by simpa using hreason⟩
    obtain ⟨first, hfirst⟩ := Option.isSome_iff_exists.mp hsome
    obtain ⟨hne, before, after, hsplit, hbefore⟩ := List.find?_eq_some_iff_append.mp hfirst
    have hne' : first.shown.bind (·.reason) ≠ none := by simpa [Unreasoned] using hne
    cases hshown : first.shown with
    | none => simp [hshown] at hne'
    | some t =>
      refine ⟨before, first, after, t, hsplit, ?_, hshown, ?_⟩
      · simpa using hbefore
      · rwa [hshown, Option.bind_some] at hne'

/-- What is taken is known in both cases. -/
private theorem taken_spec (cs : List ContainerTerminations) :
    (∃ before c after t, cs = before ++ c :: after ∧ (∀ b ∈ before, b.Unreasoned) ∧
      c.shown = some t ∧ t.reason ≠ none ∧ taken cs = some t) ∨
    (cs = [] ∧ taken cs = none) ∨
    ∃ before c, cs = before ++ [c] ∧ (∀ b ∈ before, b.Unreasoned) ∧ c.Unreasoned ∧
      taken cs = c.shown := by
  rcases taken_cases cs with ⟨before, c, after, t, rfl, hbefore, hshown, hreason⟩ | hall
  · exact Or.inl ⟨before, c, after, t, rfl, hbefore, hshown, hreason,
      taken_append_cons hbefore hshown hreason⟩
  · rcases List.eq_nil_or_concat' cs with rfl | ⟨before, c, rfl⟩
    · exact Or.inr (Or.inl ⟨rfl, rfl⟩)
    · have hbefore : ∀ b ∈ before, b.Unreasoned := fun b hb => hall b (List.mem_append_left _ hb)
      exact Or.inr (Or.inr ⟨before, c, rfl, hbefore, hall c (by simp), taken_concat hbefore⟩)

private theorem taken_mem {cs : List ContainerTerminations} {t : FinishedTermination}
    (h : taken cs = some t) : t ∈ all cs := by
  rcases taken_spec cs with ⟨before, c, after, t', rfl, -, hshown, -, htaken⟩ | ⟨-, htaken⟩ |
    ⟨before, c, rfl, -, -, htaken⟩
  · rw [htaken] at h
    obtain rfl := Option.some.inj h
    exact shown_mem (by simp) hshown
  · rw [htaken] at h
    cases h
  · rw [htaken] at h
    exact shown_mem (by simp) h

theorem latestTaken_iff (cs : List ContainerTerminations) :
    LatestTaken cs ↔
      all cs = [] ∨ ∃ t, taken cs = some t ∧ IsLatest (all cs) t.reason t.exitCode := by
  constructor
  · intro h
    cases h with
    | never h => exact Or.inl h
    | reasoned before c after t hcs hbefore hshown hreason hlatest =>
      exact Or.inr ⟨t, by rw [hcs, taken_append_cons hbefore hshown hreason], hlatest⟩
    | unreasoned before c t hcs hbefore hshown hreason hlatest =>
      exact Or.inr ⟨t, by rw [hcs, taken_concat hbefore, hshown], hlatest⟩
  · intro h
    rcases h with h | ⟨t, htaken, hlatest⟩
    · exact .never h
    · rcases taken_spec cs with ⟨before, c, after, t', hcs, hbefore, hshown, hreason, htaken'⟩ |
        ⟨-, htaken'⟩ | ⟨before, c, hcs, hbefore, hreason, htaken'⟩
      · obtain rfl := Option.some.inj (htaken'.symm.trans htaken)
        exact .reasoned before c after t' hcs hbefore hshown hreason hlatest
      · rw [htaken'] at htaken
        cases htaken
      · rw [htaken'] at htaken
        rw [Unreasoned, htaken] at hreason
        exact .unreasoned before c t hcs hbefore htaken hreason hlatest

/-- The tooltip shows the termination that finished last exactly if that is the one the loop
takes. -/
theorem showsLatest_iff {p : V1Pod} {cs : List ContainerTerminations} (h : PodTerminations p cs) :
    ShowsLatest p cs ↔ LatestTaken cs := by
  obtain ⟨hreason, hcode⟩ := Prod.mk.inj (mapPod_exit_eq h)
  rw [latestTaken_iff]
  constructor
  · intro hshows
    by_cases hall : all cs = []
    · exact Or.inl hall
    · obtain ⟨exitCode, hexit, hlatest⟩ := hshows.latest hall
      obtain ⟨t, htaken, rfl⟩ := Option.map_eq_some_iff.mp (hcode.symm.trans hexit)
      rw [hreason, htaken] at hlatest
      exact Or.inr ⟨t, htaken, hlatest⟩
  · intro hcases
    rcases hcases with hall | ⟨t, htaken, hlatest⟩
    · have htaken : taken cs = none := by
        cases htaken : taken cs with
        | none => rfl
        | some t =>
          have hmem := taken_mem htaken
          rw [hall] at hmem
          cases hmem
      rw [htaken] at hreason hcode
      exact ⟨fun hne => absurd hall hne, by rw [hreason, hcode]; exact iff_of_true rfl hall⟩
    · obtain ⟨latest, hmem, -⟩ := id hlatest
      rw [htaken] at hreason hcode
      constructor
      · intro _
        exact ⟨t.exitCode, hcode, by rw [hreason]; exact hlatest⟩
      · refine iff_of_false ?_ (List.ne_nil_of_mem hmem)
        intro hnone
        rw [hcode] at hnone
        cases (Prod.mk.inj hnone).2

/-- A pod with nothing but the terminations of its containers. -/
def podCrashed (cs : List ContainerTerminations) : V1Pod where
  metadata := { name := ⟨"api", by decide⟩, ns := ⟨"shop", by decide⟩, creationTimestamp := none }
  nodeName := none
  containers := none
  phase := some "Running"
  reason := none
  containerStatuses := some (cs.map fun c => ⟨true, 1,
    some ⟨none, c.current.map (·.toContainerStateTerminated)⟩,
    some ⟨none, c.last.map (·.toContainerStateTerminated)⟩⟩)
  initContainerStatuses := none

theorem podTerminations_podCrashed (cs : List ContainerTerminations) :
    PodTerminations (podCrashed cs) cs := by
  rw [PodTerminations, podCrashed, Option.getD_some, List.forall₂_map_right_iff,
    List.forall₂_same]
  intro c _
  exact ⟨rfl, rfl⟩

/-- The first container runs on, the second crashed after the third was killed. -/
private def restartedPod : List ContainerTerminations :=
  [⟨none, none⟩, ⟨none, some ⟨⟨some "Error", 1⟩, 12⟩⟩, ⟨none, some ⟨⟨some "OOMKilled", 137⟩, 10⟩⟩]

theorem showsLatest_restarted : ShowsLatest (podCrashed restartedPod) restartedPod := by
  rw [showsLatest_iff (podTerminations_podCrashed _)]
  refine .reasoned [⟨none, none⟩] _ _ _ rfl ?_ rfl (by simp) ⟨_, ?_, ?_, rfl, rfl⟩
  · simp [Unreasoned, shown]
  · simp [all, restartedPod]
  · simp only [all, restartedPod]
    decide

/-- The first container crashed at 5 and the second was killed at 10; the crash is shown. -/
theorem showsLatest_earlier :
    (mapPod (podCrashed [⟨none, some ⟨⟨some "Error", 1⟩, 5⟩⟩,
      ⟨none, some ⟨⟨some "OOMKilled", 137⟩, 10⟩⟩])).lastExitReason = some "Error" ∧
    ¬ ShowsLatest (podCrashed [⟨none, some ⟨⟨some "Error", 1⟩, 5⟩⟩,
        ⟨none, some ⟨⟨some "OOMKilled", 137⟩, 10⟩⟩])
      [⟨none, some ⟨⟨some "Error", 1⟩, 5⟩⟩, ⟨none, some ⟨⟨some "OOMKilled", 137⟩, 10⟩⟩] := by
  refine ⟨by decide, fun h => ?_⟩
  obtain ⟨exitCode, -, t, ht, hlatest, hreason, -⟩ := h.latest (by simp [all])
  change t.reason = some "Error" at hreason
  have hlate := hlatest ⟨⟨some "OOMKilled", 137⟩, 10⟩ (by simp [all])
  simp only [all, List.flatMap_cons, List.flatMap_nil, Option.toList_none, Option.toList_some,
    List.nil_append, List.append_nil, List.singleton_append, List.mem_cons, List.not_mem_nil,
    or_false] at ht
  rcases ht with rfl | rfl
  · exact absurd hlate (by decide)
  · simp at hreason

end PiWatch
