import PiWatch.Backend.Floats
import PiWatch.Collectors.Polled

/-!
# The Flux poll

One cycle polls five kinds of resources, each in a guarded section of its own. The image
repositories have no slot: what their section gathers goes into the image policies.
-/

namespace PiWatch

namespace Flux

/-! ## Resources -/

structure CustomMeta where
  ns : Option String
  name : Option String

def CustomMeta.empty : CustomMeta := ⟨none, none⟩

/-- The key, the name and the namespace of a resource. -/
def CustomMeta.keyed (m : CustomMeta) : String × String × String :=
  let ns := m.ns.getD ""
  let name := m.name.getD ""
  (s!"{ns}/{name}", name, ns)

structure CustomCondition where
  type : Option String
  status : Option String
  reason : Option String
  message : Option String
  lastTransitionTime : Option String

def CustomCondition.empty : CustomCondition := ⟨none, none, none, none, none⟩

structure SourceRef where
  kind : Option String
  name : Option String
  ns : Option String

structure KustomizationSpec where
  interval : Option String
  sourceRef : Option SourceRef

structure Reconciliation where
  lastReconciled : Option String

structure Inventory where
  entries : Option (List Json)

structure KustomizationStatus where
  conditions : Option (List CustomCondition)
  history : Option (List Reconciliation)
  lastAppliedRevision : Option String
  lastAttemptedRevision : Option String
  inventory : Option Inventory

structure Kustomization where
  metadata : Field CustomMeta
  spec : Field KustomizationSpec
  status : Field KustomizationStatus

structure GitReference where
  branch : Option String
  tag : Option String
  semver : Option String
  commit : Option String

structure GitRepositorySpec where
  url : Option String
  ref : Option GitReference

structure Artifact where
  revision : Option String
  lastUpdateTime : Option String

structure GitRepositoryStatus where
  conditions : Option (List CustomCondition)
  artifact : Option Artifact

structure GitRepository where
  metadata : Field CustomMeta
  spec : Field GitRepositorySpec
  status : Field GitRepositoryStatus

structure ScanResult where
  tagCount : Option ℕ
  scanTime : Option String
  deriving DecidableEq

structure ImageRepositoryStatus where
  lastScanResult : Option ScanResult

structure ImageRepository where
  metadata : Field CustomMeta
  status : Field ImageRepositoryStatus

structure ImageRef where
  name : Option String
  tag : Option String

structure ImagePolicySpec where
  imageRepositoryRef : Option String

structure ImagePolicyStatus where
  conditions : Option (List CustomCondition)
  latestRef : Option ImageRef
  observedPreviousRef : Option ImageRef

structure ImagePolicy where
  metadata : Field CustomMeta
  spec : Field ImagePolicySpec
  status : Field ImagePolicyStatus

structure ImageAutomationStatus where
  conditions : Option (List CustomCondition)
  lastAutomationRunTime : Option String
  lastPushCommit : Option String
  lastPushTime : Option String

structure ImageUpdateAutomation where
  metadata : Field CustomMeta
  status : Field ImageAutomationStatus

/-! ## Times and durations -/

def durationUnits : List (String × PyFloat) :=
  [("ns", .ofRat (1 / 10 ^ 9)), ("us", .ofRat (1 / 10 ^ 6)), ("µs", .ofRat (1 / 10 ^ 6)),
    ("ms", .ofRat (1 / 10 ^ 3)), ("s", .finite 1), ("m", .finite 60), ("h", .finite 3600)]

def isDigit (c : Char) : Bool := (PyText.digitValue c).isSome

/-- The seconds of the first unit a text starts with, and what follows. -/
def unitAt (cs : List Char) : Option (PyFloat × List Char) :=
  (durationUnits.find? fun e => e.1.toList.isPrefixOf cs).map fun e =>
    (e.2, cs.drop e.1.length)

/-- A match of `_GO_DURATION_RE` at the head of a text: number, seconds of the unit, rest. -/
def durationAt (cs : List Char) : Option (List Char × PyFloat × List Char) :=
  let whole := cs.takeWhile isDigit
  if whole = [] then none
  else match cs.dropWhile isDigit with
    | '.' :: rest =>
      let fraction := rest.takeWhile isDigit
      if fraction = [] then none
      else (unitAt (rest.dropWhile isDigit)).map fun u => (whole ++ '.' :: fraction, u)
    | rest => (unitAt rest).map fun u => (whole, u)

/-- `findall`. The number bounds the characters that are left. -/
def durationTerms : ℕ → List Char → List (List Char × PyFloat)
  | 0, _ | _, [] => []
  | n + 1, c :: cs =>
    match durationAt (c :: cs) with
    | some (number, unit, rest) => (number, unit) :: durationTerms n rest
    | none => durationTerms n cs

/-- `_parse_go_duration`; without a value `float()` raises. -/
def parseGoDuration (s : Option String) : Option (Option PyFloat) :=
  match durationTerms (s.getD "").length (s.getD "").toList with
  | [] => some none
  | terms => (terms.mapM fun term =>
      (PyFloat.ofString (String.ofList term.1)).map (·.mul term.2)).map fun xs =>
        some (PyFloat.sum xs)

/-- `_parse_iso`, with the library's own parser, which raises `ValueError` by no value. -/
def parseIso (fromIso : String → Option PyFloat) (ts : Option String) : Option PyFloat :=
  (pyOr ts none).bind fromIso

/-! ## Mappers -/

def readyCondition (conditions : Option (List CustomCondition)) : CustomCondition :=
  ((conditions.getD []).find? (·.type = some "Ready")).getD .empty

def mapKustomization (fromIso : String → Option PyFloat) (item : Kustomization) :
    Option FluxKustomization := do
  let m ← item.metadata.getOr .empty
  let spec ← item.spec.getOr ⟨none, none⟩
  let status ← item.status.getOr ⟨none, none, none, none, none⟩
  let ready := readyCondition status.conditions
  let (key, name, ns) := m.keyed
  let lastReconciled := match status.history.getD [] with
    | first :: _ => first.lastReconciled
    | [] => ready.lastTransitionTime
  let lastReconciledT := parseIso fromIso lastReconciled
  let interval ← parseGoDuration spec.interval
  let sourceRef := spec.sourceRef.getD ⟨none, none, none⟩
  let applied := pyOr status.lastAppliedRevision none
  let attempted := pyOr status.lastAttemptedRevision none
  return {
    key := key
    name := name
    ns := ns
    ready := ready.status = some "True"
    reason := ready.reason
    message := ready.message
    lastAppliedRevision := status.lastAppliedRevision
    lastTransitionTime := ready.lastTransitionTime
    nextReconcileT := lastReconciledT.bind fun t => interval.map t.add
    managedResourceCount := ((status.inventory.bind (·.entries)).getD []).length
    applyPending := attempted.isSome && applied.isSome && attempted ≠ applied
    sourceKind := sourceRef.kind
    sourceName := sourceRef.name
    sourceNamespace := pyOr sourceRef.ns (some ns) }

def mapGitRepository (item : GitRepository) : Option FluxGitRepository := do
  let m ← item.metadata.getOr .empty
  let spec ← item.spec.getOr ⟨none, none⟩
  let status ← item.status.getOr ⟨none, none⟩
  let ready := readyCondition status.conditions
  let (key, name, ns) := m.keyed
  let ref := spec.ref.getD ⟨none, none, none, none⟩
  return {
    key := key
    name := name
    ns := ns
    ready := ready.status = some "True"
    reason := ready.reason
    message := ready.message
    url := spec.url
    ref := pyOr ref.branch (pyOr ref.tag (pyOr ref.semver ref.commit))
    revision := status.artifact.bind (·.revision)
    lastUpdateTime := status.artifact.bind (·.lastUpdateTime) }

/-- What the image repositories section gathers from one item. -/
def scanOf (item : ImageRepository) : Option (String × ScanResult) := do
  let m ← item.metadata.getOr .empty
  let scan := item.status.get.bind (·.lastScanResult)
  return (m.keyed.1, scan.getD ⟨none, none⟩)

/-- The loop of the image repositories section. What it gathered before an item raised stays. -/
def scanLoop (scans : Dict String ScanResult) : List ImageRepository → Dict String ScanResult
  | [] => scans
  | item :: items =>
    match scanOf item with
    | some (key, scan) => scanLoop (scans.insert key scan) items
    | none => scans

/-- `scan_by_repo`, empty when the list call raised. -/
def scanByRepo (response : Option (List ImageRepository)) : Dict String ScanResult :=
  scanLoop ∅ (response.getD [])

def mapImagePolicy (scans : Dict String ScanResult) (item : ImagePolicy) :
    Option FluxImagePolicy := do
  let m ← item.metadata.getOr .empty
  let spec ← item.spec.getOr ⟨none⟩
  let status ← item.status.getOr ⟨none, none, none⟩
  let ready := readyCondition status.conditions
  let (key, name, ns) := m.keyed
  let repoName := spec.imageRepositoryRef
  let scan := (pyOr repoName none).bind fun repo => scans.get? s!"{ns}/{repo}"
  return {
    key := key
    name := name
    ns := ns
    ready := ready.status = some "True"
    image := pyOr (status.latestRef.bind (·.name)) repoName
    latestTag := status.latestRef.bind (·.tag)
    previousTag := status.observedPreviousRef.bind (·.tag)
    tagCount := scan.bind (·.tagCount)
    lastScanTime := scan.bind (·.scanTime) }

def mapImageUpdateAutomation (item : ImageUpdateAutomation) : Option FluxImageAutomation := do
  let m ← item.metadata.getOr .empty
  let status ← item.status.getOr ⟨none, none, none, none⟩
  let ready := readyCondition status.conditions
  let (key, name, ns) := m.keyed
  return {
    key := key
    name := name
    ns := ns
    ready := ready.status = some "True"
    reason := ready.reason
    message := ready.message
    lastAutomationRunTime := status.lastAutomationRunTime
    lastPushCommit := status.lastPushCommit
    lastPushTime := status.lastPushTime }

/-! ## One cycle -/

/-- What the five list calls of a cycle return; without a value a call raised. -/
structure Responses where
  kustomizations : Option (List Kustomization)
  gitRepositories : Option (List GitRepository)
  imageRepositories : Option (List ImageRepository)
  imagePolicies : Option (List ImagePolicy)
  imageUpdateAutomations : Option (List ImageUpdateAutomation)

/-- The calls one cycle of `run` makes. -/
def cycle (fromIso : String → Option PyFloat) (r : Responses) (t : Time) : List Op :=
  PolledKind.section? .fluxKustomizations
    (refresh (mapKustomization fromIso) FluxKustomization.key r.kustomizations) t ++
  PolledKind.section? .fluxGitRepositories
    (refresh mapGitRepository FluxGitRepository.key r.gitRepositories) t ++
  PolledKind.section? .fluxImagePolicies
    (refresh (mapImagePolicy (scanByRepo r.imageRepositories)) FluxImagePolicy.key
      r.imagePolicies) t ++
  PolledKind.section? .fluxImageAutomations
    (refresh mapImageUpdateAutomation FluxImageAutomation.key r.imageUpdateAutomations) t

/-- An image policy without what its repository's scan contributes. -/
def withoutScan (p : FluxImagePolicy) : FluxImagePolicy :=
  { p with tagCount := none, lastScanTime := none }

/-- The scans decide about two fields of an image policy, and nothing else. -/
theorem mapImagePolicy_withoutScan (scans scans' : Dict String ScanResult) (item : ImagePolicy) :
    (mapImagePolicy scans item).map withoutScan =
      (mapImagePolicy scans' item).map withoutScan := by
  unfold mapImagePolicy
  cases item.metadata.getOr .empty with
  | none => rfl
  | some m =>
    cases item.spec.getOr ⟨none⟩ with
    | none => rfl
    | some spec =>
      cases item.status.getOr ⟨none, none, none⟩ with
      | none => rfl
      | some status => rfl

theorem imagePolicies_withoutScan (scans scans' : Dict String ScanResult)
    (response : Option (List ImagePolicy)) :
    (refresh (mapImagePolicy scans) FluxImagePolicy.key response).map
        (Dict.mapValues withoutScan) =
      (refresh (mapImagePolicy scans') FluxImagePolicy.key response).map
        (Dict.mapValues withoutScan) := by
  have hkey : ∀ p : FluxImagePolicy, (withoutScan p).key = p.key := fun _ => rfl
  rw [map_refresh hkey, map_refresh hkey]
  simp only [mapImagePolicy_withoutScan scans scans']

/-! ## The scans of a cycle -/

/-- The repositories of a listing before the first that cannot be read. -/
def gathered (response : Option (List ImageRepository)) : List ImageRepository :=
  (response.getD []).takeWhile fun item => (scanOf item).isSome

def ImageRepository.key? (item : ImageRepository) : Option String :=
  (item.metadata.getOr .empty).map fun m => m.keyed.1

def ImageRepository.lastScan (item : ImageRepository) : Option ScanResult :=
  item.status.get.bind (·.lastScanResult)

/-- The key of the repository that a policy names. -/
def ImagePolicy.repoKey? (policy : ImagePolicy) : Option String := do
  let m ← policy.metadata.getOr .empty
  let spec ← policy.spec.getOr ⟨none⟩
  let repo ← pyOr spec.imageRepositoryRef none
  let ns := m.ns.getD ""
  return s!"{ns}/{repo}"

/-- The repository a policy refers to, the last one under its key. -/
def ImagePolicy.referred (repos : List ImageRepository) (policy : ImagePolicy) :
    Option ImageRepository :=
  policy.repoKey?.bind fun key => (repos.filter fun r => r.key? = some key).getLast?

theorem scanOf_eq (item : ImageRepository) :
    scanOf item = item.key?.map fun key => (key, item.lastScan.getD ⟨none, none⟩) := by
  unfold scanOf ImageRepository.key? ImageRepository.lastScan
  cases item.metadata.getOr .empty <;> rfl

private theorem get?_scanLoop (scans : Dict String ScanResult) (items : List ImageRepository)
    (key : String) :
    (scanLoop scans items).get? key =
      ((((items.takeWhile fun item => (scanOf item).isSome).filter fun r =>
        r.key? = some key).getLast?).map fun r => r.lastScan.getD ⟨none, none⟩).or
          (scans.get? key) := by
  induction items generalizing scans with
  | nil => rfl
  | cons item items ih =>
    rw [scanLoop]
    cases hkey : item.key? with
    | none =>
      have hscan : scanOf item = none := by rw [scanOf_eq, hkey, Option.map_none]
      simp [hscan]
    | some itemKey =>
      have hscan : scanOf item = some (itemKey, item.lastScan.getD ⟨none, none⟩) := by
        rw [scanOf_eq, hkey, Option.map_some]
      simp only [hscan]
      rw [ih, List.takeWhile_cons, hscan, Option.isSome_some, if_pos rfl, Dict.get?_insert,
        List.filter_cons, hkey]
      by_cases hsame : key = itemKey
      · subst hsame
        rw [if_pos rfl, if_pos (decide_eq_true rfl), List.getLast?_cons]
        cases (List.filter (fun r => decide (r.key? = some key))
          (items.takeWhile fun item => (scanOf item).isSome)).getLast? <;> rfl
      · rw [if_neg hsame, if_neg (by simpa using Ne.symm hsame)]

/-- The scan fields of a policy are those of the repository it refers to. -/
def ScannedIn (response : Option (List ImageRepository)) (policy : ImagePolicy)
    (info : FluxImagePolicy) : Prop :=
  let scan := (policy.referred (gathered response)).bind ImageRepository.lastScan
  info.tagCount = scan.bind (·.tagCount) ∧ info.lastScanTime = scan.bind (·.scanTime)

theorem scannedIn_of_mapImagePolicy {response : Option (List ImageRepository)}
    {policy : ImagePolicy} {info : FluxImagePolicy}
    (h : mapImagePolicy (scanByRepo response) policy = some info) :
    ScannedIn response policy info := by
  unfold mapImagePolicy at h
  unfold ScannedIn
  unfold ImagePolicy.referred ImagePolicy.repoKey?
  cases hmeta : policy.metadata.getOr .empty with
  | none => simp [hmeta] at h
  | some m =>
    cases hspec : policy.spec.getOr ⟨none⟩ with
    | none => simp [hmeta, hspec] at h
    | some spec =>
      cases hstatus : policy.status.getOr ⟨none, none, none⟩ with
      | none => simp [hmeta, hspec, hstatus] at h
      | some status =>
        simp only [hmeta, hspec, hstatus, Option.bind_eq_bind, Option.bind_some,
          Option.pure_def, Option.some.injEq, CustomMeta.keyed] at h ⊢
        rw [← h]
        cases pyOr spec.imageRepositoryRef none with
        | none => exact ⟨rfl, rfl⟩
        | some repo =>
          simp only [Option.bind_some, scanByRepo, get?_scanLoop, gathered, Dict.get?_empty,
            Option.or_none]
          cases (List.filter _ _).getLast? with
          | none => exact ⟨rfl, rfl⟩
          | some r => cases hscan : r.lastScan <;> simp [hscan]

end Flux

end PiWatch
