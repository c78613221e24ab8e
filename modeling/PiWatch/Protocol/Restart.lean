import PiWatch.Backend.Rounding
import PiWatch.Backend.Samples
import PiWatch.Collectors.History

/-!
# Node history across restarts

A process records samples, every published sample is inserted, old rows are pruned, and a
restart loads a fresh state from the table. The rows of a node stay a record of its chart.
-/

namespace PiWatch

open ClusterState History

/-- What a value is read back as from a REAL column: an int as its nearest double. -/
def History.Sqlite.readBack (db : Sqlite) (column : String) : Json → Json
  | .bool b => .ofRat (if b then 1 else 0)
  | .num (.finite q) => if db.isInt column q then .num (PyFloat.ofRat q) else .ofRat q
  | v => v

namespace Restart

variable (db : Sqlite)

structure Process where
  state : ClusterState
  table : Table

inductive Act
  | call (op : Op)
  | prune (cutoff : Time)
  | restart (t : Time)

/-- `history.run` on one message: a failed insert drops the sample. -/
def persist (tbl : Table) (msg : Msg) : Table :=
  match msg.body with
  | .nodeMetrics d => (History.insert db tbl (d.text "node") d).getD tbl
  | _ => tbl

def step (sys : Process) : Act → Process
  | .call op =>
    { state := sys.state.step op
      table := (sys.state.exec op).2.foldl (persist db) sys.table }
  | .prune cutoff => { sys with table := prune sys.table cutoff }
  | .restart t => { sys with state := loadStartupHistory (ClusterState.init t) (some sys.table) }

/-- The first start, with no database yet. -/
def fresh (t : Time) : Process := ⟨ClusterState.init t, connect none⟩

/-- Samples are inserted and later than all their node's rows; pruning spares the newest
rows of every node. -/
def Admissible (sys : Process) : Act → Prop
  | .call op => op.WellKeyed ∧ ∀ node sample tr, op.sample = some (node, sample, tr) →
      (∀ r ∈ sys.table.rowsOf node, r.t.before tr) ∧
      ∀ msg ∈ (sys.state.exec op).2, ∀ d, msg.body = .nodeMetrics d →
        (History.insert db sys.table (d.text "node") d).isSome
  | .prune cutoff => ∀ node, ∀ r ∈ (sys.table.rowsOf node).rtake historyLen, !r.t.before cutoff
  | .restart _ => True

/-- `None`, a boolean or a number. -/
def plain : Json → Bool
  | .null => true
  | .bool _ => true
  | .num x => x ≠ .nan
  | _ => false

/-- The same time stamp, and in every field that held a number or nothing what a REAL column gives
back for it, which is the value itself for every number of up to 53 bits. -/
structure SameSample (p q : Obj) : Prop where
  t : q.field "t" = p.field "t"
  fields : ∀ f ∈ nodeHistoryFields, plain (p.field f) → q.field f = db.readBack f (p.field f)
  exact : ∀ f ∈ nodeHistoryFields, ∀ x : ℚ, p.field f = .ofRat x → |x| ≤ 2 ^ 53 →
    q.field f = p.field f

/-! ## One row -/

theorem readBack_ofRat (db : Sqlite) (column : String) {x : ℚ} (h : |x| ≤ 2 ^ 53) :
    db.readBack column (.ofRat x) = .ofRat x := by
  change (if db.isInt column x then Json.num (PyFloat.ofRat x) else .ofRat x) = _
  split
  · rename_i hint
    obtain ⟨z, rfl⟩ : ∃ z : ℤ, (z : ℚ) = x := ⟨x.num, Rat.coe_int_num_of_den_eq_one
      (db.isInt_den _ _ hint)⟩
    rw [PyFloat.ofRat_intCast (by exact_mod_cast h)]
    rfl
  · rfl

theorem sameSample_of_readBack {p q : Obj} (ht : q.field "t" = p.field "t")
    (hfields : ∀ f ∈ nodeHistoryFields, plain (p.field f) → q.field f = db.readBack f (p.field f)) :
    SameSample db p q where
  t := ht
  fields := hfields
  exact := by
    intro f hf x hx hsmall
    rw [hfields f hf (by rw [hx]; rfl), hx, readBack_ofRat db f hsmall]

theorem toJson_toReal {column : String} {v : Json} {x : SqlValue} (hv : plain v)
    (h : toReal db column v = some x) : x.toJson = db.readBack column v := by
  cases v with
  | null =>
    cases h
    rfl
  | bool b =>
    cases h
    rfl
  | num y =>
    cases y with
    | nan => simp [plain] at hv
    | finite q =>
      simp only [toReal] at h
      simp only [Sqlite.readBack]
      split at h
      · rename_i hint
        rw [if_pos hint]
        split at h
        · cases h
          rfl
        · cases h
      · rename_i hint
        rw [if_neg hint]
        cases h
        rfl
    | posInf =>
      cases h
      rfl
    | negInf =>
      cases h
      rfl
  | _ => simp [plain] at hv

/-- A stored value is read back as it stands. -/
def Settled (column : String) (x : SqlValue) : Prop :=
  plain x.toJson → db.readBack column x.toJson = x.toJson

theorem settled_of_double {column : String} {q : ℚ} (h : PyFloat.ofRat q = .finite q) :
    Settled db column (.real (.finite q)) := by
  intro _
  change (if db.isInt column q then Json.num (PyFloat.ofRat q) else .ofRat q) = _
  split
  · rw [h]
    rfl
  · rfl

/-- What is stored is a double already. -/
theorem settled_of_toReal {column : String} {v : Json} {x : SqlValue}
    (h : toReal db column v = some x) : Settled db column x := by
  have hreal : ∀ y : PyFloat, x = .real y → (∀ q, y = .finite q → PyFloat.ofRat q = .finite q) →
      Settled db column x := by
    rintro y rfl hdouble
    cases y with
    | finite q => exact settled_of_double db (hdouble q rfl)
    | _ => exact fun _ => rfl
  cases v with
  | null =>
    cases h
    exact fun _ => rfl
  | bool b =>
    refine hreal (.finite (if b then 1 else 0)) (Option.some.inj h).symm fun q hq => ?_
    obtain rfl := PyFloat.finite.inj hq
    cases b
    · exact_mod_cast @PyFloat.ofRat_intCast 0 (by norm_num)
    · exact_mod_cast @PyFloat.ofRat_intCast 1 (by norm_num)
  | num y =>
    cases y with
    | nan =>
      cases h
      exact fun _ => rfl
    | finite q =>
      simp only [toReal] at h
      split at h
      · split at h
        · exact hreal _ (Option.some.inj h).symm fun _ hq => PyFloat.ofRat_of_ofRat hq
        · cases h
      · -- a float that is not an int of the column
        rename_i hint
        obtain rfl := Option.some.inj h
        intro _
        exact if_neg hint
    | posInf => exact hreal .posInf (Option.some.inj h).symm fun _ hq => by cases hq
    | negInf => exact hreal .negInf (Option.some.inj h).symm fun _ hq => by cases hq
  | str s =>
    have hx : db.realText s = x := Option.some.inj h
    cases x with
    | null => exact fun _ => rfl
    | text s' => exact fun _ => rfl
    | real y => exact hreal y rfl fun q hq => db.realText_double s q (hq ▸ hx)
  | arr xs => cases h
  | obj fields => cases h

theorem field_entryOf (r : Row) {c : String} (hc : c ∈ columns) :
    (entryOf r).field c = (r.read c).toJson := by
  rw [Obj.field, entryOf, Dict.get?_ofList_map hc, Option.getD_some]

private theorem mapM_pairs {α β : Type} {g : α → Option β} {l : List α} {cells : List (α × β)}
    (h : l.mapM (fun a => (g a).map (a, ·)) = some cells) :
    cells.map Prod.fst = l ∧ ∀ c ∈ cells, g c.1 = some c.2 := by
  induction l generalizing cells with
  | nil =>
    cases h
    simp
  | cons a l ih =>
    simp only [List.mapM_cons, Option.bind_eq_bind, Option.bind_eq_some_iff,
      Option.map_eq_some_iff] at h
    obtain ⟨_, ⟨b, hb, rfl⟩, rest, hrest, hcells⟩ := h
    cases hcells
    obtain ⟨hkeys, hvalues⟩ := ih hrest
    exact ⟨by rw [List.map_cons, hkeys], List.forall_mem_cons.mpr ⟨hb, hvalues⟩⟩

private theorem rowOf_eq_some {node : String} {entry : Obj} {r : Row}
    (h : rowOf db node entry = some r) :
    r.node = node ∧ ∀ c ∈ columns, toReal db c (entry.field c) = some (r.read c) := by
  simp only [rowOf, Option.bind_eq_bind, Option.bind_eq_some_iff, Option.pure_def,
    Option.some.injEq] at h
  obtain ⟨t, ht, cells, hcells, hr⟩ := h
  obtain ⟨hkeys, hvalues⟩ := mapM_pairs hcells
  rw [← hr]
  refine ⟨rfl, fun c hc => ?_⟩
  rcases List.mem_cons.mp hc with hct | hcf
  · rw [hct, ht, Row.read, if_pos rfl]
  · obtain ⟨x, hx⟩ := Option.isSome_iff_exists.mp
      (Dict.mem_def.mp (Dict.mem_ofList.mpr (hkeys.symm ▸ hcf)))
    have hstored := hvalues (c, x) (Dict.mem_of_get?_ofList hx)
    rw [hstored, Row.read, if_neg (ne_of_mem_nodeHistoryFields hcf).1, hx, Option.getD_some]

/-- The row inserted for a sample is reloaded as the sample's history point. -/
theorem sameSample_insert {s : ClusterState} {node : String} {sample : Obj} {tr : Time}
    {r : Row}
    (h : rowOf db node (labelled "node" node (s.mergedSample node sample tr)) = some r) :
    r.node = node ∧ r.t = .real (.finite tr) ∧
      (∀ f ∈ nodeHistoryFields, Settled db f (r.read f)) ∧
      SameSample db (historyPoint (s.mergedSample node sample tr)) (entryOf r) := by
  obtain ⟨hnode, hcolumns⟩ := rowOf_eq_some db h
  have hread : ∀ f ∈ nodeHistoryFields, toReal db f
      ((historyPoint (s.mergedSample node sample tr)).field f) = some (r.read f) := by
    intro f hf
    have hc : f ∈ columns := List.mem_cons_of_mem _ hf
    have hstored := hcolumns f hc
    rwa [field_labelled (ne_of_mem_nodeHistoryFields hf).2, ← field_historyPoint _ hc] at hstored
  have ht : SqlValue.real (.finite tr) = r.t := by
    have hstored := hcolumns "t" (by simp [columns])
    rw [field_labelled (by simp), field_t_mergedSample, toReal_stamp] at hstored
    exact Option.some.inj hstored
  refine ⟨hnode, ht.symm, fun f hf => settled_of_toReal db (hread f hf),
    sameSample_of_readBack db ?_ fun f hf hplain => ?_⟩
  · rw [field_entryOf _ (by simp [columns]), field_t_historyPoint, Row.read, if_pos rfl, ← ht]
    rfl
  · rw [field_entryOf _ (List.mem_cons_of_mem _ hf)]
    exact toJson_toReal db hplain (hread f hf)

/-! ## One step -/

theorem rowsOf_append (tbl : Table) (r : Row) (node : String) :
    ({ tbl with rows := tbl.rows ++ [r] } : Table).rowsOf node =
      if r.node = node then tbl.rowsOf node ++ [r] else tbl.rowsOf node := by
  rw [Table.rowsOf, List.filter_append]
  by_cases hn : r.node = node <;> simp [hn, Table.rowsOf]

/-- What a process keeps: rows of doubles in strictly increasing order, and every chart on
record. -/
structure Recorded (sys : Process) : Prop where
  hasColumns : sys.table.hasColumns
  clean : sys.state.CleanMetrics
  settled : ∀ r ∈ sys.table.rows, ∀ f ∈ nodeHistoryFields, Settled db f (r.read f)
  increasing : ∀ node, (sys.table.rowsOf node).Pairwise fun r q => r.older q ∧ ¬ q.older r
  charted : ∀ node, List.Forall₂ (SameSample db) (sys.state.chart node)
    (((sys.table.rowsOf node).rtake historyLen).map entryOf)

theorem reloaded_eq_rtake {sys : Process} (h : Recorded db sys) (node : String) :
    reloaded sys.table node = ((sys.table.rowsOf node).rtake historyLen).map entryOf := by
  rw [reloaded, newest_of_increasing older_trans older_total (h.increasing node)]

/-- Rows before the stamp of a new one are strictly older. -/
private theorem older_of_before {x : SqlValue} {tr : Time} (h : x.before tr) :
    x.le (.real (.finite tr)) ∧ ¬ (SqlValue.real (.finite tr)).le x := by
  cases x with
  | real y => cases y <;> simp_all [SqlValue.before, SqlValue.le, PyFloat.le, le_of_lt]
  | _ => simp [SqlValue.before] at h

private theorem persist_no_sample {msgs : List Msg}
    (h : ∀ msg ∈ msgs, ∀ d, msg.body ≠ .nodeMetrics d) (tbl : Table) :
    msgs.foldl (persist db) tbl = tbl := by
  induction msgs with
  | nil => rfl
  | cons msg msgs ih =>
    have hmsg : persist db tbl msg = tbl := by
      unfold persist
      split
      · rename_i d hd
        exact absurd hd (h msg (by simp) d)
      · rfl
    rw [List.foldl_cons, hmsg]
    exact ih fun m hm => h m (by simp [hm])

/-- What an inserted sample adds to the table. -/
private theorem persist_sample {sys : Process} (h : Recorded db sys) {op : Op}
    (ha : Admissible db sys (.call op)) {node : String} {sample : Obj} {tr : Time}
    (hop : op.sample = some (node, sample, tr)) :
    ∃ r, (step db sys (.call op)).table =
        { sys.table with rows := sys.table.rows ++ [r] } ∧
      r.node = node ∧ r.t = .real (.finite tr) ∧
      (∀ f ∈ nodeHistoryFields, Settled db f (r.read f)) ∧
      SameSample db (historyPoint (sys.state.mergedSample node sample tr)) (entryOf r) := by
  obtain ⟨⟨t, hmsg⟩, -⟩ := exec_of_sample (s := sys.state) hop
  have hsome := (ha.2 node sample tr hop).2
  rw [hmsg] at hsome
  have hinsert := hsome _ (List.mem_singleton.mpr rfl) _ rfl
  have hclean : "node" ∉ sys.state.mergedSample node sample tr :=
    mergedSample_clean h.clean (sample_clean ha.1 hop)
  rw [text_labelled hclean, History.insert, insertedRow, if_pos h.hasColumns,
    Option.isSome_map] at hinsert
  obtain ⟨r, hr⟩ := Option.isSome_iff_exists.mp hinsert
  refine ⟨r, ?_, sameSample_insert db hr⟩
  simp only [step, hmsg, List.foldl_cons, List.foldl_nil, persist, text_labelled hclean,
    History.insert, insertedRow, if_pos h.hasColumns, hr, Option.map_some, Option.getD_some]

theorem recorded_call {sys : Process} (h : Recorded db sys) {op : Op}
    (ha : Admissible db sys (.call op)) : Recorded db (step db sys (.call op)) := by
  have hclean := cleanMetrics_step h.clean ha.1
  cases hop : op.sample with
  | none =>
    obtain ⟨hmsgs, hchart⟩ := exec_of_no_sample (s := sys.state) hop
    have htable : (step db sys (.call op)).table = sys.table :=
      persist_no_sample db hmsgs _
    refine ⟨htable ▸ h.hasColumns, hclean, htable ▸ h.settled,
      fun node => htable ▸ h.increasing node,
      fun node => ?_⟩
    rw [htable]
    exact (hchart node).symm ▸ h.charted node
  | some x =>
    obtain ⟨node, sample, tr⟩ := x
    obtain ⟨r, htable, hnode, ht, hsettled, hsame⟩ := persist_sample db h ha hop
    have hchart := (exec_of_sample (s := sys.state) hop).2
    refine ⟨htable ▸ h.hasColumns, hclean, ?_, fun n => ?_, fun n => ?_⟩
    · rw [htable]
      exact List.forall_mem_append.mpr ⟨h.settled, List.forall_mem_singleton.mpr hsettled⟩
    · rw [htable, rowsOf_append]
      split
      · rename_i hn
        rw [List.pairwise_append]
        refine ⟨h.increasing n, List.pairwise_singleton _ _, fun q hq r' hr' => ?_⟩
        have hlater := (ha.2 node sample tr hop).1 q (by rwa [← hnode, hn])
        rw [List.mem_singleton.mp hr', Row.older, Row.older, ht]
        exact older_of_before hlater
      · exact h.increasing n
    · rw [htable, rowsOf_append]
      change List.Forall₂ (SameSample db) ((sys.state.step op).chart n) _
      rw [hchart]
      by_cases hn : n = node
      · subst hn
        rw [if_pos rfl, if_pos hnode]
        have hold := forall₂_rtake (h.charted n) 1079
        rw [← map_rtake, historyLen, rtake_rtake_succ] at hold
        rw [historyLen, List.rtake_concat_succ, List.map_append]
        exact List.rel_append hold (.cons hsame .nil)
      · rw [if_neg hn, if_neg fun hr => hn (hr.symm.trans hnode)]
        exact h.charted n

theorem recorded_prune {sys : Process} (h : Recorded db sys) {cutoff : Time}
    (ha : Admissible db sys (.prune cutoff)) :
    Recorded db (step db sys (.prune cutoff)) := by
  have hrows : ∀ node, (prune sys.table cutoff).rowsOf node =
      (sys.table.rowsOf node).filter fun r => !r.t.before cutoff := by
    intro node
    rw [Table.rowsOf, prune, List.filter_comm]
    rfl
  refine ⟨h.hasColumns, h.clean, fun r hr => h.settled r (List.mem_filter.mp hr).1,
    fun node => ?_, fun node => ?_⟩
  · change ((prune sys.table cutoff).rowsOf node).Pairwise _
    rw [hrows]
    exact (h.increasing node).filter _
  · change List.Forall₂ (SameSample db) _ ((((prune sys.table cutoff).rowsOf node).rtake _).map _)
    rw [hrows, rtake_filter (ha node)]
    exact h.charted node

theorem recorded_restart {sys : Process} (h : Recorded db sys) (t : Time) :
    Recorded db (step db sys (.restart t)) := by
  refine ⟨h.hasColumns, ?_, h.settled, h.increasing, fun node => ?_⟩
  · intro node m hm
    rw [step, nodeMetrics_load] at hm
    simp [ClusterState.init] at hm
  · change List.Forall₂ (SameSample db)
      ((loadStartupHistory (ClusterState.init t) (some sys.table)).chart node) _
    rw [chart_load_init t h.hasColumns, reloaded_eq_rtake db h]
    refine List.forall₂_same.mpr fun p hp => ?_
    obtain ⟨r, hr, rfl⟩ := List.mem_map.mp hp
    have hrow : r ∈ sys.table.rows :=
      (List.mem_filter.mp ((rtake_suffix _ _).subset hr)).1
    refine sameSample_of_readBack db rfl fun f hf hplain => ?_
    rw [field_entryOf _ (List.mem_cons_of_mem _ hf)] at hplain ⊢
    exact (h.settled r hrow f hf hplain).symm

theorem recorded_step {sys : Process} (h : Recorded db sys) {a : Act}
    (ha : Admissible db sys a) : Recorded db (step db sys a) := by
  cases a with
  | call op => exact recorded_call db h ha
  | prune cutoff => exact recorded_prune db h ha
  | restart t => exact recorded_restart db h t

theorem recorded_fresh (t : Time) : Recorded db (fresh t) where
  hasColumns := fun _ hf => hf
  clean := by
    intro node m hm
    simp [fresh, ClusterState.init] at hm
  settled := by
    intro r hr
    cases hr
  increasing := fun _ => List.Pairwise.nil
  charted := by
    intro node
    have hrows : (fresh t).table.rowsOf node = [] := rfl
    rw [hrows, List.rtake_nil]
    exact .nil

theorem recorded_run {sys : Process} (h : Recorded db sys) {as : List Act}
    (has : AlongRun (step db) (Admissible db) sys as) :
    Recorded db (runFrom (step db) sys as) :=
  runFrom_invariant_of_along (fun sys' _ (hs : Recorded db sys') ha => recorded_step db hs ha)
    h has

/-! ## After the restart -/

/-- In every run in which samples are inserted in increasing order and pruning spares the
newest rows: a restart reloads each node's chart, and later calls only extend it. -/
theorem restart_roundTrip (t₀ : Time) (as : List Act)
    (has : AlongRun (step db) (Admissible db) (fresh t₀) as) (t : Time) :
    (∀ node, List.Forall₂ (SameSample db)
        ((runFrom (step db) (fresh t₀) as).state.chart node)
        ((runFrom (step db) (fresh t₀) (as ++ [.restart t])).state.chart node) ∧
      ((runFrom (step db) (fresh t₀) (as ++ [.restart t])).state.chart node).length ≤
        historyLen) ∧
    ∀ ops node, ∃ points, points.length = ops.countP (·.sampledNode = some node) ∧
      (runFrom ClusterState.step
          (runFrom (step db) (fresh t₀) (as ++ [.restart t])).state ops).chart node =
        ((runFrom (step db) (fresh t₀) (as ++ [.restart t])).state.chart node ++
          points).rtake historyLen := by
  have hrec := recorded_run db (recorded_fresh db t₀) has
  have hload : ∀ node,
      (runFrom (step db) (fresh t₀) (as ++ [.restart t])).state.chart node =
        reloaded (runFrom (step db) (fresh t₀) as).table node := by
    intro node
    rw [runFrom_append, runFrom_cons, runFrom_nil]
    exact chart_load_init t hrec.hasColumns node
  refine ⟨fun node => ⟨?_, Ring.bounded _⟩, fun ops node =>
    ⟨recordedPoints node _ ops, length_recordedPoints node _ ops, chart_runFrom node _ ops⟩⟩
  rw [hload, reloaded_eq_rtake db hrec]
  exact hrec.charted node

/-- The history point of a sample with one rate. -/
private def ratePoint (rate : ℚ) : Obj :=
  historyPoint (Dict.ofList [("net_rx_bytes_per_s", .ofRat rate), ("t", .ofRat 1)])

/-- An int of more than 53 bits comes back as the double next to it. -/
theorem restart_rounds_int :
    ¬ ∀ (db : Sqlite) (t₀ : Time) (as : List Act),
      AlongRun (step db) (Admissible db) (fresh t₀) as → ∀ (t : Time) (node : String),
      List.Forall₂ (fun p q => q.field "t" = p.field "t" ∧ ∀ f ∈ nodeHistoryFields, ∀ x : ℚ,
          p.field f = .ofRat x → q.field f = .ofRat x)
        ((runFrom (step db) (fresh t₀) as).state.chart node)
        ((runFrom (step db) (fresh t₀) (as ++ [.restart t])).state.chart node) := by
  intro h
  have hreloaded := h Sqlite.ints 0 [.call (.recordNodeSample "rpi-1"
    (Dict.ofList [("net_rx_bytes_per_s", .ofRat 9007199254740993)]) 1 1)]
    ⟨⟨by simp [Op.WellKeyed, Dict.mem_ofList], fun node sample tr hop => ?_⟩, trivial⟩ 2 "rpi-1"
  · have hbefore : (runFrom (step Sqlite.ints) (fresh 0) [.call (.recordNodeSample "rpi-1"
        (Dict.ofList [("net_rx_bytes_per_s", .ofRat 9007199254740993)]) 1 1)]).state.chart "rpi-1" =
        [ratePoint 9007199254740993] := by decide +kernel
    have hafter : (runFrom (step Sqlite.ints) (fresh 0) ([.call (.recordNodeSample "rpi-1"
        (Dict.ofList [("net_rx_bytes_per_s", .ofRat 9007199254740993)]) 1 1)] ++
          [.restart 2])).state.chart "rpi-1" = [ratePoint 9007199254740992] := by decide +kernel
    rw [hbefore, hafter] at hreloaded
    obtain ⟨-, hfields⟩ := (List.forall₂_cons.mp hreloaded).1
    have hrate := hfields "net_rx_bytes_per_s" (by simp [nodeHistoryFields]) 9007199254740993
      (by decide +kernel)
    revert hrate
    decide +kernel
  · refine ⟨fun r hr => (List.not_mem_nil hr).elim, fun msg hmsg d hd => ?_⟩
    rw [exec, recordNodeSample, List.mem_singleton] at hmsg
    rw [hmsg] at hd
    cases hd
    decide +kernel

/-! ## A run of several nodes and restarts -/

section Seconds

/-- The values of the history columns can be bound. -/
def Writable (d : Obj) : Prop := ∀ f ∈ nodeHistoryFields, (toReal db f (d.field f)).isSome

/-- All rows lie between two clock readings, and what the nodes last sent can be written again. -/
structure Ready (low now : Time) (sys : Process) : Prop where
  recorded : Recorded db sys
  later : ∀ r ∈ sys.table.rows, !r.t.before low
  earlier : ∀ r ∈ sys.table.rows, r.t.before now
  writable : ∀ node m, sys.state.nodeMetrics.get? node = some m → Writable db m

variable {db} {low now : Time} {sys : Process}

private theorem writable_mergedSample (h : Ready db low now sys) (node : String) {sample : Obj}
    (hsample : Writable db sample) (tr : Time) :
    Writable db (sys.state.mergedSample node sample tr) := by
  intro f hf
  rw [Obj.field, get?_mergedSample, if_neg (ne_of_mem_nodeHistoryFields hf).1]
  cases hget : sample.get? f with
  | some v =>
    have hbound := hsample f hf
    rwa [Obj.field, hget] at hbound
  | none =>
    cases hm : sys.state.nodeMetrics.get? node with
    | none => rfl
    | some m => exact h.writable node m hm f hf

private theorem before_of_le {x : SqlValue} {c c' : Time} (h : x.before c) (hle : c ≤ c') :
    x.before c' := by
  cases x with
  | real y =>
    cases y with
    | finite q =>
      rw [SqlValue.before, decide_eq_true_eq] at h ⊢
      exact h.trans_le hle
    | negInf => rfl
    | _ => cases h
  | _ => cases h

private theorem storable_labelled {node : String} {merged : Obj} (h : Writable db merged)
    (ht : merged.field "t" = .ofRat now) : Storable db (labelled "node" node merged) := by
  intro c hc
  rcases List.mem_cons.mp hc with rfl | hf
  · rw [field_labelled (by simp), ht, toReal_stamp]
    rfl
  · rw [field_labelled (ne_of_mem_nodeHistoryFields hf).2]
    exact h c hf

/-- A sample that can be bound is written, and then the clock moves on. -/
theorem ready_sample (h : Ready db low now sys) (hlow : low ≤ now) {next : Time}
    (hnext : now < next) (node : String) {sample : Obj} (hclean : "node" ∉ sample)
    (hsample : Writable db sample) :
    Admissible db sys (.call (.recordNodeSample node sample now now)) ∧
      Ready db low next (step db sys (.call (.recordNodeSample node sample now now))) := by
  have hmerged := writable_mergedSample h node hsample now
  have hadmissible : Admissible db sys (.call (.recordNodeSample node sample now now)) := by
    refine ⟨hclean, fun node' sample' tr hop => ?_⟩
    obtain ⟨rfl, rfl, rfl⟩ := Option.some.inj hop
    refine ⟨fun r hr => h.earlier r (List.mem_filter.mp hr).1, fun msg hmsg d hd => ?_⟩
    obtain ⟨⟨t, hpublished⟩, -⟩ := exec_of_sample (s := sys.state) hop
    rw [hpublished, List.mem_singleton] at hmsg
    rw [hmsg] at hd
    cases hd
    rw [History.insert, insertedRow, if_pos h.recorded.hasColumns, Option.isSome_map]
    exact rowOf_isSome db (storable_labelled hmerged (field_t_mergedSample _ _ _ _))
  obtain ⟨r, htable, -, ht, -⟩ := persist_sample db h.recorded hadmissible rfl
  refine ⟨hadmissible, recorded_call db h.recorded hadmissible, ?_, ?_, fun n m hm => ?_⟩
  · rw [htable]
    refine List.forall_mem_append.mpr ⟨h.later, List.forall_mem_singleton.mpr ?_⟩
    simp [ht, SqlValue.before, hlow]
  · rw [htable]
    refine List.forall_mem_append.mpr ⟨fun q hq => before_of_le (h.earlier q hq) hnext.le,
      List.forall_mem_singleton.mpr ?_⟩
    simp [ht, SqlValue.before, hnext]
  · change (sys.state.nodeMetrics.insert node (sys.state.mergedSample node sample now)).get? n =
      some m at hm
    rw [Dict.get?_insert] at hm
    split at hm
    · exact Option.some.inj hm ▸ hmerged
    · exact h.writable n m hm

theorem ready_restart (h : Ready db low now sys) (t : Time) :
    Ready db low now (step db sys (.restart t)) where
  recorded := recorded_restart db h.recorded t
  later := h.later
  earlier := h.earlier
  writable := by
    intro node m hm
    rw [step, nodeMetrics_load] at hm
    simp [ClusterState.init] at hm

theorem ready_prune (h : Ready db low now sys) :
    Admissible db sys (.prune low) ∧ Ready db low now (step db sys (.prune low)) := by
  have hadmissible : Admissible db sys (.prune low) := fun node r hr =>
    h.later r (List.mem_filter.mp ((rtake_suffix _ _).subset hr)).1
  exact ⟨hadmissible, recorded_prune db h.recorded hadmissible,
    fun r hr => h.later r (List.mem_filter.mp hr).1,
    fun r hr => h.earlier r (List.mem_filter.mp hr).1, h.writable⟩

/-- A sample of the node every second. -/
def seconds (node : String) (k n : ℕ) : List Op :=
  (List.range' k n).map fun i : ℕ =>
    .recordNodeSample node (Dict.ofList [("cpu_pct", .ofRat i)]) i i

theorem ready_seconds {k : ℕ} (h : Ready Sqlite.floats low k sys) (hlow : low ≤ k) (node : String)
    (n : ℕ) :
    AlongRun (step Sqlite.floats) (Admissible Sqlite.floats) sys ((seconds node k n).map .call) ∧
      Ready Sqlite.floats low (k + n : ℕ)
        (runFrom (step Sqlite.floats) sys ((seconds node k n).map .call)) := by
  induction n generalizing k sys with
  | zero => exact ⟨trivial, h⟩
  | succ n ih =>
    have hwritable : Writable Sqlite.floats (Dict.ofList [("cpu_pct", .ofRat k)]) := by
      intro f _
      rw [Obj.field, Dict.get?_ofList, List.reverse_singleton, List.lookup_cons]
      split <;> rfl
    obtain ⟨hadmissible, hready⟩ := @ready_sample _ _ _ _ h hlow ((k + 1 : ℕ) : ℚ)
      (by push_cast; linarith) node _ (by simp [Dict.mem_ofList]) hwritable
    obtain ⟨hrest, hlast⟩ := ih hready (hlow.trans (by push_cast; linarith))
    rw [show k + (n + 1) = k + 1 + n by omega]
    exact ⟨⟨hadmissible, hrest⟩, hlast⟩

private theorem state_calls (sys : Process) (ops : List Op) :
    (runFrom (step db) sys (ops.map .call)).state = runFrom ClusterState.step sys.state ops := by
  induction ops generalizing sys with
  | nil => rfl
  | cons op ops ih => exact ih (step db sys (.call op))

private theorem length_chart_seconds (s : ClusterState) (node : String) (k : ℕ) {n : ℕ}
    (h : historyLen ≤ n) :
    ((runFrom ClusterState.step s (seconds node k n)).chart node).length = historyLen := by
  have hcount : (seconds node k n).countP (·.sampledNode = some node) = n := by
    rw [List.countP_eq_length.mpr, seconds, List.length_map, List.length_range']
    intro op hop
    obtain ⟨i, -, rfl⟩ := List.mem_map.mp hop
    exact decide_eq_true rfl
  rw [chart_runFrom, List.rtake, List.length_drop, List.length_append,
    length_recordedPoints, hcount]
  omega

/-- Two nodes are sampled, the process is restarted twice and prunes in between, and then fills
the chart of one node. -/
def twoRestarts : List Act :=
  (seconds "rpi-1" 1 3).map .call ++ .restart 4 :: ((seconds "rpi-2" 4 2).map .call ++
    .prune 1 :: .restart 6 :: (seconds "rpi-1" 6 1100).map .call)

private theorem twoRestarts_admissible :
    AlongRun (step Sqlite.floats) (Admissible Sqlite.floats) (fresh 0) twoRestarts := by
  have hfresh : Ready Sqlite.floats 1 (1 : ℕ) (fresh 0) := by
    refine ⟨recorded_fresh Sqlite.floats 0, ?_, ?_, ?_⟩
    · exact fun r hr => (List.not_mem_nil hr).elim
    · exact fun r hr => (List.not_mem_nil hr).elim
    · intro node m hm
      simp [fresh, ClusterState.init] at hm
  obtain ⟨hfirst, hready⟩ := ready_seconds hfresh (by norm_num) "rpi-1" 3
  obtain ⟨hsecond, hready⟩ := ready_seconds (ready_restart hready 4) (by norm_num) "rpi-2" 2
  obtain ⟨hprune, hready⟩ := ready_prune hready
  obtain ⟨hthird, -⟩ := ready_seconds (ready_restart hready 6) (by norm_num) "rpi-1" 1100
  rw [twoRestarts, alongRun_append]
  refine ⟨hfirst, trivial, ?_⟩
  rw [alongRun_append]
  exact ⟨hsecond, hprune, trivial, hthird⟩

theorem restart_roundTrip_twoRestarts :
    let before := (runFrom (step Sqlite.floats) (fresh 0) twoRestarts).state
    let after := (runFrom (step Sqlite.floats) (fresh 0) (twoRestarts ++ [.restart 1106])).state
    (before.chart "rpi-1").length = historyLen ∧
      (∀ node, List.Forall₂ (SameSample Sqlite.floats) (before.chart node) (after.chart node) ∧
        (after.chart node).length ≤ historyLen) ∧
      ∀ ops node, ∃ points, points.length = ops.countP (·.sampledNode = some node) ∧
        (runFrom ClusterState.step after ops).chart node =
          (after.chart node ++ points).rtake historyLen := by
  refine ⟨?_, restart_roundTrip Sqlite.floats 0 twoRestarts twoRestarts_admissible 1106⟩
  rw [twoRestarts, runFrom_append, runFrom_cons, runFrom_append, runFrom_cons, runFrom_cons,
    state_calls]
  exact length_chart_seconds _ "rpi-1" 6 (by decide)

end Seconds

end Restart

end PiWatch
