import Mathlib.Data.List.Dedup
import PiWatch.Backend.Floats
import PiWatch.Framework.Newest

/-!
# Persisted history

One SQLite table holds the samples of every node. The column list of every statement is
derived from `nodeHistoryFields`, while the table keeps the columns it was created with.
A REAL column holds doubles: an int is rounded to one, and refused from 2^63 on.
-/

namespace PiWatch

/-! ## SQLite values -/

/-- What a REAL column holds. -/
inductive SqlValue
  | null
  | real (x : PyFloat)
  | text (s : String)
  deriving DecidableEq

def PyFloat.le : PyFloat → PyFloat → Bool
  | .nan, _ => true
  | _, .nan => false
  | .negInf, _ => true
  | _, .negInf => false
  | .finite x, .finite y => x ≤ y
  | .finite _, .posInf => true
  | .posInf, .finite _ => false
  | .posInf, .posInf => true

namespace SqlValue

/-- The order of ORDER BY: NULL first, then numbers, then texts. -/
def le : SqlValue → SqlValue → Bool
  | .null, _ => true
  | _, .null => false
  | .real x, .real y => x.le y
  | .real _, .text _ => true
  | .text _, .real _ => false
  | .text a, .text b => a ≤ b

/-- `t < ?` against a number: false of NULL and of texts. -/
def before (cutoff : Time) : SqlValue → Bool
  | .real (.finite x) => x < cutoff
  | .real .negInf => true
  | _ => false

/-- The value a query returns. -/
def toJson : SqlValue → Json
  | .null => .null
  | .real x => .num x
  | .text s => .str s

end SqlValue

private theorem pyFloat_le_trans (x y z : PyFloat) (hxy : x.le y) (hyz : y.le z) : x.le z := by
  cases x <;> cases y <;> cases z <;> simp_all [PyFloat.le]
  exact hxy.trans hyz

private theorem pyFloat_le_total (x y : PyFloat) : x.le y || y.le x := by
  cases x <;> cases y <;> simp [PyFloat.le]
  exact le_total _ _

theorem SqlValue.le_trans (a b c : SqlValue) (hab : a.le b) (hbc : b.le c) : a.le c := by
  cases a <;> cases b <;> cases c <;> simp_all [SqlValue.le]
  · exact pyFloat_le_trans _ _ _ hab hbc
  · exact String.le_trans hab hbc

theorem SqlValue.le_total (a b : SqlValue) : a.le b || b.le a := by
  cases a <;> cases b <;> simp [SqlValue.le]
  · simpa using pyFloat_le_total _ _
  · exact String.le_total _ _

/-! ## The table -/

namespace History

structure Row where
  node : String
  t : SqlValue
  cells : Dict String SqlValue
  deriving DecidableEq

/-- `node_samples`: its columns are `node`, `t` and `fields`. -/
structure Table where
  fields : List String
  rows : List Row
  deriving DecidableEq

/-- `_COLUMNS`. -/
def columns : List String := "t" :: nodeHistoryFields

/-- A column of a row; one the row was written without reads as NULL. -/
def Row.read (r : Row) (column : String) : SqlValue :=
  if column = "t" then r.t else (r.cells.get? column).getD .null

/-- Row order of ORDER BY t. -/
def Row.older (r q : Row) : Bool := r.t.le q.t

theorem older_trans (a b c : Row) (hab : a.older b) (hbc : b.older c) : a.older c :=
  SqlValue.le_trans a.t b.t c.t hab hbc

theorem older_total (a b : Row) : a.older b || b.older a := SqlValue.le_total a.t b.t

def Table.rowsOf (tbl : Table) (node : String) : List Row := tbl.rows.filter (·.node = node)

/-- CREATE TABLE IF NOT EXISTS: an existing table keeps its columns. -/
def connect : Option Table → Table
  | some tbl => tbl
  | none => ⟨nodeHistoryFields, []⟩

/-- A statement naming every history column. -/
def Table.hasColumns (tbl : Table) : Prop := ∀ f ∈ nodeHistoryFields, f ∈ tbl.fields

instance (tbl : Table) : Decidable tbl.hasColumns :=
  inferInstanceAs (Decidable (∀ f ∈ nodeHistoryFields, f ∈ tbl.fields))

/-- What decides how a value is stored: what a REAL column makes of a text, and which numbers
are ints. The stamp is a clock reading, hence a float. -/
structure Sqlite where
  realText : String → SqlValue
  isInt : String → ℚ → Bool
  isInt_t : ∀ q, isInt "t" q = false
  isInt_den : ∀ c q, isInt c q → q.den = 1
  realText_double : ∀ s q, realText s = .real (.finite q) → PyFloat.ofRat q = .finite q

/-- Every number is a float, and no text is numeric. -/
def Sqlite.floats : Sqlite where
  realText := .text
  isInt := fun _ _ => false
  isInt_t := fun _ => rfl
  isInt_den := fun _ _ h => by cases h
  realText_double := fun _ _ h => by cases h

/-- Every number but the stamp is an int when it is integral, and no text is numeric. -/
def Sqlite.ints : Sqlite where
  realText := .text
  isInt := fun c q => c ≠ "t" && q.den = 1
  isInt_t := fun _ => rfl
  isInt_den := fun _ _ h => by simpa using (Bool.and_eq_true_iff.mp h).2
  realText_double := fun _ _ h => by cases h

variable (db : Sqlite)

/-- A value bound to a REAL column. NaN is stored as NULL, a container cannot be bound, and
neither can an int that does not fit in 64 bits. -/
def toReal (column : String) : Json → Option SqlValue
  | .null => some .null
  | .bool b => some (.real (.finite (if b then 1 else 0)))
  | .num (.finite q) =>
    if db.isInt column q then
      if -2 ^ 63 ≤ q ∧ q < 2 ^ 63 then some (.real (PyFloat.ofRat q)) else none
    else some (.real (.finite q))
  | .num .nan => some .null
  | .num x => some (.real x)
  | .str s => some (db.realText s)
  | .arr _ => none
  | .obj _ => none

theorem toReal_stamp (q : ℚ) : toReal db "t" (.ofRat q) = some (.real (.finite q)) := by
  change (if db.isInt "t" q then _ else some (SqlValue.real (.finite q))) = _
  rw [db.isInt_t, if_neg Bool.false_ne_true]

/-- The row of an entry; `none` when a value cannot be bound. -/
def rowOf (node : String) (entry : Obj) : Option Row := do
  let t ← toReal db "t" (entry.field "t")
  let cells ← nodeHistoryFields.mapM fun f => (toReal db f (entry.field f)).map (f, ·)
  return ⟨node, t, Dict.ofList cells⟩

/-- The row `_insert` writes; `none` when the statement fails. -/
def insertedRow (tbl : Table) (node : String) (entry : Obj) : Option Row :=
  if tbl.hasColumns then rowOf db node entry else none

theorem rowOf_of_insertedRow {db : Sqlite} {tbl : Table} {node : String} {entry : Obj} {r : Row}
    (h : insertedRow db tbl node entry = some r) : rowOf db node entry = some r := by
  rw [insertedRow] at h
  split at h
  · exact h
  · cases h

/-- `_insert`. -/
def insert (tbl : Table) (node : String) (entry : Obj) : Option Table :=
  (insertedRow db tbl node entry).map fun r => { tbl with rows := tbl.rows ++ [r] }

/-- `prune`, at a clock reading less the retention window. -/
def prune (tbl : Table) (cutoff : Time) : Table :=
  { tbl with rows := tbl.rows.filter fun r => !SqlValue.before cutoff r.t }

/-! ## Loading -/

/-- ORDER BY t DESC LIMIT HISTORY_LEN. -/
def recentRows (tbl : Table) (node : String) : List Row :=
  ((tbl.rowsOf node).mergeSort fun r q => q.older r).take historyLen

/-- `dict(zip(_COLUMNS, row))`. -/
def entryOf (r : Row) : Obj := Dict.ofList (columns.map fun c => (c, (r.read c).toJson))

def loadNode (tbl : Table) (s : ClusterState) (node : String) : ClusterState :=
  let hist := (s.nodeHistory.get? node).getD ∅
  { s with nodeHistory :=
      s.nodeHistory.insert node (hist.extend ((recentRows tbl node).reverse.map entryOf)) }

/-- `load_startup_history`. The first failing query ends the load. -/
def loadStartupHistory (s : ClusterState) (db : Option Table) : ClusterState :=
  let tbl := connect db
  if tbl.hasColumns then (tbl.rows.map Row.node).dedup.foldl (loadNode tbl) s else s

/-- What a node's rows are reloaded as. -/
def reloaded (tbl : Table) (node : String) : List Obj :=
  (newest Row.older historyLen (tbl.rowsOf node)).map entryOf

theorem reloaded_eq_nil {tbl : Table} {node : String} (h : node ∉ tbl.rows.map Row.node) :
    reloaded tbl node = [] := by
  have hnone : tbl.rowsOf node = [] := by
    rw [Table.rowsOf, List.filter_eq_nil_iff]
    intro r hr hnode
    exact h (List.mem_map.mpr ⟨r, hr, by simpa using hnode⟩)
  rw [reloaded, newest, hnone, List.mergeSort_nil]
  rfl

theorem length_reloaded_le (tbl : Table) (node : String) :
    (reloaded tbl node).length ≤ historyLen := by
  rw [reloaded, List.length_map, newest, List.length_reverse, List.length_take]
  exact Nat.min_le_left _ _

private theorem chart_loadNode (tbl : Table) (s : ClusterState) (n node : String) :
    (loadNode tbl s n).chart node =
      if node = n then (s.chart node ++ reloaded tbl node).rtake historyLen
      else s.chart node := by
  simp only [loadNode, ClusterState.chart, Dict.get?_insert]
  by_cases hn : node = n
  · subst hn
    rw [if_pos rfl, if_pos rfl, Option.getD_some, Ring.items_extend]
    rfl
  · rw [if_neg hn, if_neg hn]

theorem chart_loadNodes {tbl : Table} {nodes : List String} (hnodup : nodes.Nodup)
    (s : ClusterState) (node : String) :
    (nodes.foldl (loadNode tbl) s).chart node =
      if node ∈ nodes then (s.chart node ++ reloaded tbl node).rtake historyLen
      else s.chart node := by
  induction nodes generalizing s with
  | nil => rfl
  | cons n nodes ih =>
    rw [List.nodup_cons] at hnodup
    rw [List.foldl_cons, ih hnodup.2, chart_loadNode]
    by_cases hn : node = n
    · subst hn
      simp [hnodup.1]
    · simp [hn]

/-- On a fresh state the load leaves exactly each node's newest rows. -/
theorem chart_load_init (t : Time) {tbl : Table} (h : tbl.hasColumns) (node : String) :
    (loadStartupHistory (ClusterState.init t) (some tbl)).chart node = reloaded tbl node := by
  have hempty : (ClusterState.init t).chart node = [] := rfl
  rw [loadStartupHistory, connect]
  simp only [if_pos h]
  rw [chart_loadNodes (List.nodup_dedup _), hempty, List.nil_append]
  split
  · exact rtake_of_length_le (length_reloaded_le tbl node)
  · rename_i hnode
    rw [List.mem_dedup] at hnode
    exact (reloaded_eq_nil hnode).symm

theorem nodeMetrics_load (s : ClusterState) (db : Option Table) :
    (loadStartupHistory s db).nodeMetrics = s.nodeMetrics := by
  have hload : ∀ (nodes : List String) (s : ClusterState),
      (nodes.foldl (loadNode (connect db)) s).nodeMetrics = s.nodeMetrics := by
    intro nodes
    induction nodes with
    | nil => exact fun _ => rfl
    | cons n nodes ih => exact fun s => ih (loadNode (connect db) s n)
  simp only [loadStartupHistory]
  split
  · exact hload _ s
  · rfl

/-! ## Tables of earlier releases -/

/-- The entry's values are ones SQLite can store. -/
def Storable (entry : Obj) : Prop := ∀ c ∈ columns, (toReal db c (entry.field c)).isSome

instance (entry : Obj) : Decidable (Storable db entry) :=
  inferInstanceAs (Decidable (∀ c ∈ columns, (toReal db c (entry.field c)).isSome))

/-- History persists over an existing table: samples are written to it, and a start reloads
each node's newest rows. -/
structure Table.Survives (tbl : Table) : Prop where
  inserts : ∀ node entry, Storable db entry →
    (insert db (connect (some tbl)) node entry).isSome
  reloads : ∀ t node, ∃ rows, IsNewest Row.older historyLen (tbl.rowsOf node) rows ∧
    (loadStartupHistory (ClusterState.init t) (some tbl)).chart node = rows.map entryOf

private theorem mapM_isSome {α β : Type} {f : α → Option β} {l : List α}
    (h : ∀ a ∈ l, (f a).isSome) : (l.mapM f).isSome := by
  induction l with
  | nil => rfl
  | cons a l ih =>
    obtain ⟨b, hb⟩ := Option.isSome_iff_exists.mp (h a (by simp))
    obtain ⟨bs, hbs⟩ := Option.isSome_iff_exists.mp (ih fun x hx => h x (by simp [hx]))
    simp [List.mapM_cons, hb, hbs]

theorem rowOf_isSome {node : String} {entry : Obj} (h : Storable db entry) :
    (rowOf db node entry).isSome := by
  obtain ⟨t, ht⟩ := Option.isSome_iff_exists.mp (h "t" (by simp [columns]))
  have hcells : (nodeHistoryFields.mapM fun f =>
      (toReal db f (entry.field f)).map (f, ·)).isSome := by
    refine mapM_isSome fun f hf => ?_
    rw [Option.isSome_map]
    exact h f (List.mem_cons_of_mem _ hf)
  obtain ⟨cells, hcells⟩ := Option.isSome_iff_exists.mp hcells
  simp [rowOf, ht, hcells]

/-- An existing table survives exactly when it already has every column of today. -/
theorem survives_iff (tbl : Table) :
    tbl.Survives db ↔ ∀ f ∈ nodeHistoryFields, f ∈ tbl.fields := by
  constructor
  · intro h
    have hstorable : Storable db ∅ := fun c _ => rfl
    have hinsert := h.inserts "node" ∅ hstorable
    by_contra hmissing
    rw [insert, insertedRow,
      if_neg (show ¬ (connect (some tbl)).hasColumns from hmissing)] at hinsert
    cases hinsert
  · intro h
    constructor
    · intro node entry hentry
      rw [insert, insertedRow, if_pos (show (connect (some tbl)).hasColumns from h),
        Option.isSome_map]
      exact rowOf_isSome db hentry
    · intro t node
      exact ⟨newest Row.older historyLen (tbl.rowsOf node),
        isNewest_newest older_trans older_total _ _, chart_load_init t h node⟩

/-- The table of a release that did not know the SD card fields yet. -/
theorem survives_fails :
    ¬ ∀ (db : Sqlite) (tbl : Table), tbl.Survives db := by
  intro h
  have hinsert := (h Sqlite.floats
    ⟨["cpu_pct", "mem_pct", "temp_c", "nvme_read_bytes_per_s", "nvme_write_bytes_per_s",
      "net_rx_bytes_per_s", "net_tx_bytes_per_s"], []⟩).inserts "rpi-1"
    (Dict.ofList [("t", .ofRat 1), ("cpu_pct", .ofRat 12)]) (by decide)
  have hfails : insert Sqlite.floats
      ⟨["cpu_pct", "mem_pct", "temp_c", "nvme_read_bytes_per_s", "nvme_write_bytes_per_s",
        "net_rx_bytes_per_s", "net_tx_bytes_per_s"], []⟩ "rpi-1"
      (Dict.ofList [("t", .ofRat 1), ("cpu_pct", .ofRat 12)]) = none := by decide
  rw [connect, hfails] at hinsert
  cases hinsert

end History

end PiWatch
