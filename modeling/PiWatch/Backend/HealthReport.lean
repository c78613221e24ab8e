import Mathlib.Data.String.Basic
import PiWatch.Framework.Csv
import PiWatch.Backend.CheckHistory
import PiWatch.Backend.NumberText

/-!
# The healthcheck report

A CSV text with a row for each check, in the order of their names.
-/

namespace PiWatch

/-! ## Texts -/

namespace Json

def truthy : Json → Bool
  | .null => false
  | .bool b => b
  | .num x => x.truthy
  | .str s => s ≠ ""
  | .arr xs => !xs.isEmpty
  | .obj fields => !fields.isEmpty

/-- `str(value)`, with `other` for the numbers and the containers. -/
def pyStr (other : Json → String) : Json → String
  | .null => "None"
  | .bool b => if b then "True" else "False"
  | .str s => s
  | value => other value

/-- What `csv.writer` writes for a value. -/
def csvText (other : Json → String) : Json → String
  | .null => ""
  | value => value.pyStr other

end Json

namespace PyText

/-- A number with leading zeros. -/
def padded (width : ℕ) (n : ℤ) : List Char :=
  let digits := Nat.toDigits 10 n.toNat
  List.replicate (width - digits.length) '0' ++ digits

/-- Year, month and day of a day counted from 1970-01-01. -/
def civilDate (day : ℤ) : ℤ × ℤ × ℤ :=
  let shifted := day + 719468
  let era := shifted / 146097
  let dayOfEra := shifted % 146097
  let yearOfEra := (dayOfEra - dayOfEra / 1460 + dayOfEra / 36524 - dayOfEra / 146096) / 365
  let dayOfYear := dayOfEra - (365 * yearOfEra + yearOfEra / 4 - yearOfEra / 100)
  let month := (5 * dayOfYear + 2) / 153
  let year := yearOfEra + era * 400
  (if month < 10 then year else year + 1, if month < 10 then month + 3 else month - 9,
    dayOfYear - (153 * month + 2) / 5 + 1)

/-- `_iso`: the time in UTC, with microseconds unless there are none. -/
def iso (t : Time) : String :=
  let micros := roundHalfEven (t * 10 ^ 6)
  let seconds := micros / 10 ^ 6
  let (year, month, day) := civilDate (seconds / 86400)
  let time := padded 2 (seconds % 86400 / 3600) ++ ':' :: (padded 2 (seconds % 3600 / 60) ++
    ':' :: padded 2 (seconds % 60))
  let fraction := if micros % 10 ^ 6 = 0 then [] else '.' :: padded 6 (micros % 10 ^ 6)
  String.ofList (padded 4 year ++ '-' :: (padded 2 month ++ '-' :: (padded 2 day ++
    'T' :: (time ++ (fraction ++ ['+', '0', '0', ':', '0', '0'])))))

example : iso 1760000000 = "2025-10-09T08:53:20+00:00" := by decide +kernel

end PyText

/-! ## The report -/

/-- A row of the report. -/
structure ReportLine where
  name : String
  type : Json
  target : Json
  uptimePct : Option ℚ
  samples : ℕ
  up : ℕ
  down : ℕ
  firstSeen : Option Time
  lastSeen : Option Time
  lastOk : Option Bool
  lastDetail : Option String

namespace ReportLine

/-- The fields as texts, an absent one empty. -/
def fields (other : Json → String) (line : ReportLine) : List Csv.Text :=
  [line.name.toList, (line.type.csvText other).toList, (line.target.csvText other).toList,
    line.uptimePct.elim [] fun pct => PyText.floatText (.ofRat pct),
    Nat.toDigits 10 line.samples, Nat.toDigits 10 line.up, Nat.toDigits 10 line.down,
    line.firstSeen.elim [] fun t => (PyText.iso t).toList,
    line.lastSeen.elim [] fun t => (PyText.iso t).toList,
    line.lastOk.elim [] fun ok => (Json.pyStr other (.bool ok)).toList,
    line.lastDetail.elim [] String.toList]

end ReportLine

/-- `config.get("url")`, or else the host with the port. -/
def checkTarget (other : Json → String) (config : Obj) : Json :=
  if (config.field "url").truthy then config.field "url"
  else if (config.field "host").truthy then
    .str ((config.field "host").pyStr other ++ ":" ++ (config.field "port").pyStr other)
  else .str ""

def reportLine (other : Json → String) (name : String) (entry : CheckEntry) : ReportLine :=
  let history := entry.history.items
  let up := history.countP (·.ok)
  { name := name
    type := (entry.config.get? "type").getD (.str "")
    target := checkTarget other entry.config
    uptimePct := entry.uptimePct
    samples := history.length
    up := up
    down := history.length - up
    firstSeen := history.head?.map (·.t)
    lastSeen := history.getLast?.map (·.t)
    lastOk := entry.last.map (·.ok)
    lastDetail := entry.last.map (·.detail) }

namespace ClusterState

/-- The lines of `healthchecks_report_csv`. -/
def report (s : ClusterState) (other : Json → String) : List ReportLine :=
  (s.healthchecks.entries.mergeSort fun a b => a.1 ≤ b.1).map fun e => reportLine other e.1 e.2

def reportHeader : List Csv.Text :=
  ["name", "type", "target", "uptime_pct", "samples", "up", "down", "first_seen", "last_seen",
    "last_ok", "last_detail"].map String.toList

def healthchecksReportCsv (s : ClusterState) (other : Json → String) : String :=
  String.ofList (Csv.text (reportHeader :: (s.report other).map (·.fields other)))

/-! ## Its rows -/

theorem read_healthchecksReportCsv (s : ClusterState) (other : Json → String) :
    Csv.read (s.healthchecksReportCsv other).toList =
      reportHeader :: (s.report other).map (·.fields other) := by
  rw [healthchecksReportCsv, String.toList_ofList]
  refine Csv.read_text ?_
  intro row hrow
  rcases List.mem_cons.mp hrow with rfl | hrow
  · simp [reportHeader]
  · obtain ⟨line, -, rfl⟩ := List.mem_map.mp hrow
    simp [ReportLine.fields]

theorem mem_report_iff {s : ClusterState} {other : Json → String} {line : ReportLine} :
    line ∈ s.report other ↔ ∃ name entry, s.healthchecks.get? name = some entry ∧
      line = reportLine other name entry := by
  simp only [report, List.mem_map, List.mem_mergeSort, Prod.exists, Dict.get?_eq_some_iff]
  simp only [eq_comm]

/-- Every name has one line at most, and they are in order. -/
theorem report_sorted (s : ClusterState) (other : Json → String) :
    ((s.report other).map (·.name)).Pairwise (· < ·) := by
  have hnames : (s.report other).map (·.name) =
      (s.healthchecks.entries.mergeSort fun a b => a.1 ≤ b.1).map Prod.fst := by
    rw [report, List.map_map]
    rfl
  have hsorted : (s.healthchecks.entries.mergeSort fun a b => a.1 ≤ b.1).Pairwise
      fun a b => a.1 ≤ b.1 := by
    have hpairwise := @List.pairwise_mergeSort (String × CheckEntry) (fun a b => a.1 ≤ b.1)
      (fun a b c hab hbc =>
        decide_eq_true ((of_decide_eq_true hab).trans (of_decide_eq_true hbc)))
      (fun a b => by simpa using le_total a.1 b.1) s.healthchecks.entries
    simpa using hpairwise
  have hnodup : ((s.healthchecks.entries.mergeSort fun a b => a.1 ≤ b.1).map Prod.fst).Nodup :=
    ((List.mergeSort_perm _ _).map Prod.fst).nodup_iff.mpr s.healthchecks.nodup
  rw [hnames]
  exact (List.pairwise_map.mpr hsorted).imp₂ (fun _ _ hle hne => lt_of_le_of_ne hle hne) hnodup

/-- The field of a row in the column of the report that bears a name. -/
def cell (row : List Csv.Text) (column : String) : Option Csv.Text :=
  (reportHeader.zip row).lookup column.toList

/-- What the fields of a row say about the entry of its check. -/
structure RowOf (other : Json → String) (name : String) (entry : CheckEntry)
    (row : List Csv.Text) : Prop where
  width : row.length = reportHeader.length
  name : cell row "name" = some name.toList
  type : cell row "type" = some (((entry.config.get? "type").getD (.str "")).csvText other).toList
  target : cell row "target" = some ((checkTarget other entry.config).csvText other).toList
  samples : cell row "samples" = some (Nat.toDigits 10 entry.history.items.length)
  up : cell row "up" = some (Nat.toDigits 10 (entry.history.items.countP (·.ok)))
  down : cell row "down" = some (Nat.toDigits 10 (entry.history.items.countP (!·.ok)))
  total : entry.history.items.length =
    entry.history.items.countP (·.ok) + entry.history.items.countP (!·.ok)
  uptime : cell row "uptime_pct" = some (PyText.floatText (.ofRat (pyRound 2
    (100 * (entry.history.items.countP (·.ok) : ℚ) / entry.history.items.length))))
  firstSeen : ∃ first, entry.history.items.head? = some first ∧
    cell row "first_seen" = some (PyText.iso first.t).toList
  lastSeen : ∃ last, entry.history.items.getLast? = some last ∧
    cell row "last_seen" = some (PyText.iso last.t).toList ∧
    cell row "last_ok" = some (if last.ok then "True" else "False").toList ∧
    cell row "last_detail" = some last.detail.toList

/-- The report reads as the header and one row for each check, in the order of the names. -/
def ReportsEach (s : ClusterState) (other : Json → String) : Prop :=
  ∃ names rows, Csv.read (s.healthchecksReportCsv other).toList = reportHeader :: rows ∧
    names.Pairwise (· < ·) ∧ (∀ name, name ∈ s.healthchecks ↔ name ∈ names) ∧
    List.Forall₂ (fun name row => ∃ entry, s.healthchecks.get? name = some entry ∧
      RowOf other name entry row) names rows

theorem rowOf_reportLine {entry : CheckEntry} {recorded : List (Obj × CheckResult)}
    (h : entry.Summarizes recorded) (other : Json → String) (name : String) :
    RowOf other name entry ((reportLine other name entry).fields other) := by
  have hne : entry.history.items ≠ [] := by
    intro hnil
    have hpos := h.nonempty
    rw [hnil] at hpos
    cases hpos
  have hfirst := List.head?_eq_some_head hne
  have hlast := List.getLast?_eq_some_getLast hne
  have htotal := List.length_eq_countP_add_countP (fun r : CheckResult => r.ok)
    (l := entry.history.items)
  have hdown : entry.history.items.length - entry.history.items.countP (·.ok) =
      entry.history.items.countP (!·.ok) := by
    simp only [Bool.not_eq_true, Bool.decide_eq_false] at htotal
    omega
  constructor
  · rfl
  · rfl
  · rfl
  · rfl
  · rfl
  · rfl
  · exact congrArg (fun n => some (Nat.toDigits 10 n)) hdown
  · omega
  · change some (entry.uptimePct.elim [] _) = _
    rw [h.uptime, Option.elim_some]
  · refine ⟨_, hfirst, ?_⟩
    change some ((entry.history.items.head?.map (·.t)).elim [] _) = _
    rw [hfirst, Option.map_some, Option.elim_some]
  · refine ⟨_, hlast, ?_, ?_, ?_⟩
    · change some ((entry.history.items.getLast?.map (·.t)).elim [] _) = _
      rw [hlast, Option.map_some, Option.elim_some]
    · change some ((entry.last.map (·.ok)).elim [] _) = _
      rw [h.last.2, hlast, Option.map_some, Option.elim_some]
      rfl
    · change some ((entry.last.map (·.detail)).elim [] _) = _
      rw [h.last.2, hlast, Option.map_some, Option.elim_some]

/-- After any sequence of calls every entry summarizes what was recorded since the last removal
of its name, and the report has a consistent row for each. -/
theorem healthchecks_bookkept (t : Time) (ops : List Op) (other : Json → String) :
    (∀ name entry, (runFrom step (init t) ops).healthchecks.get? name = some entry →
      entry.Summarizes (recordedSince name ops)) ∧
    (∀ name, name ∈ (runFrom step (init t) ops).healthchecks ↔ recordedSince name ops ≠ []) ∧
    (runFrom step (init t) ops).ReportsEach other := by
  have hsummarizes : ∀ name entry,
      (runFrom step (init t) ops).healthchecks.get? name = some entry →
        entry.Summarizes (recordedSince name ops) := by
    intro name entry hentry
    rw [healthchecks_run] at hentry
    exact summarizes_of_checkEntryOf hentry
  refine ⟨hsummarizes, fun name => ?_, _, _, read_healthchecksReportCsv _ other,
    report_sorted (runFrom step (init t) ops) other, fun name => ?_, ?_⟩
  · rw [Dict.mem_def, healthchecks_run, checkEntryOf, Option.isSome_map, List.getLast?_isSome]
  · rw [Dict.mem_def, Option.isSome_iff_exists, List.mem_map]
    constructor
    · intro h
      obtain ⟨entry, hentry⟩ := h
      exact ⟨reportLine other name entry, mem_report_iff.mpr ⟨name, entry, hentry, rfl⟩, rfl⟩
    · intro h
      obtain ⟨line, hline, rfl⟩ := h
      obtain ⟨name, entry, hentry, rfl⟩ := mem_report_iff.mp hline
      exact ⟨entry, hentry⟩
  · rw [List.forall₂_map_left_iff, List.forall₂_map_right_iff, List.forall₂_same]
    intro line hline
    obtain ⟨name, entry, hentry, rfl⟩ := mem_report_iff.mp hline
    exact ⟨entry, hentry, rowOf_reportLine (hsummarizes name entry hentry) other name⟩

end ClusterState

end PiWatch
