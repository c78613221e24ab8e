import Mathlib.Tactic.Linarith
import PiWatch.Collectors.HistoryRun
import PiWatch.Framework.Archive
import PiWatch.Ml.Export

/-!
# Collected dumps

Every host keeps the history of the pod that runs on it, and the pod prunes it. A fetch copies the
table of each pod to a file of its own, and the files are merged into the dataset. What
`pd.read_csv` makes of a row of a dump is the parameter `readRow`.
-/

namespace PiWatch.Ml

open History HistoryRun

/-- The pod on a host, with the rows that earlier pods wrote there and the time of the last dump. -/
structure Pod where
  name : String
  loop : Loop
  earlier : List History.Row
  fetched : Time

/-- The rows that were ever written on the host. -/
def Pod.written (pod : Pod) : List History.Row :=
  pod.earlier ++ pod.loop.attempts.filterMap Prod.snd

/-- The pods by host, and the files of the raw directory. -/
structure Collection where
  pods : Dict String Pod
  rawDir : Dict String (List History.Row)
  now : Time

inductive CollectAct
  | history (host : String) (act : HistoryRun.Act)
  | restart (host name : String) (cutoff : Time)
  | dump (host stamp : String)

namespace Collection

/-- No host has a database. -/
def start (t : Time) : Collection := ⟨∅, ∅, t⟩

/-- `f"{pod}-{stamp}.csv"`. -/
def fileName (pod stamp : String) : String := pod ++ "-" ++ stamp ++ ".csv"

/-- What `_DUMP_SCRIPT` prints. -/
def dumpRows (tbl : Table) : List History.Row := tbl.rows.mergeSort Row.older

/-- A new pod on a host finds the table of the earlier one, and prunes it first. -/
def restarted (col : Collection) (host name : String) (cutoff now : Time) : Pod :=
  let tbl := connect ((col.pods.get? host).map fun pod => pod.loop.table)
  { name
    loop := HistoryRun.start (prune tbl cutoff) now
    earlier := ((col.pods.get? host).map Pod.written).getD []
    fetched := ((col.pods.get? host).map Pod.fetched).getD now }

variable (db : Sqlite)

def step (col : Collection) : Time × CollectAct → Collection
  | (now, .history host act) =>
    { col with
      pods := col.pods.modify host fun pod =>
        { pod with loop := HistoryRun.step db pod.loop act }
      now }
  | (now, .restart host name cutoff) =>
    { col with pods := col.pods.insert host (col.restarted host name cutoff now), now }
  | (now, .dump host stamp) =>
    match col.pods.get? host with
    | some pod =>
      if pod.loop.table.hasColumns then
        { pods := col.pods.insert host { pod with fetched := now }
          rawDir := col.rawDir.insert (fileName pod.name stamp) (dumpRows pod.loop.table)
          now }
      else { col with now }
    | none => { col with now }

/-- The dumps that were fetched so far. -/
def csvPaths (readRow : History.Row → Sample) (col : Collection) : List CsvFile :=
  col.rawDir.entries.map fun file => ⟨file.1, file.2.map readRow⟩

/-- The rows of all dumps. -/
def fetchedRows (col : Collection) : Set History.Row := {r | ∃ rows ∈ col.rawDir.values, r ∈ rows}

/-- A step of a deployment in which the time between two dumps of a pod is at most `gap`, and a row
is written at most `delay` after the time it is stamped with. Every fetch has names of its own. -/
structure InTime (gap delay retention : Time) (col : Collection) (act : Time × CollectAct) :
    Prop where
  clock : col.now ≤ act.1
  fetched : ∀ host pod, col.pods.get? host = some pod → act.1 - pod.fetched ≤ gap
  recent : ∀ host clock pod d r, act.2 = .history host (.insertReturns clock) →
    col.pods.get? host = some pod → pod.loop.phase = .inserting d →
    rowOf db (d.text "node") d = some r → ¬ r.t.before (act.1 - delay)
  retained : ∀ host cutoff clock, act.2 = .history host (.pruneReturns cutoff clock) →
    cutoff ≤ act.1 - retention
  retainedFirst : ∀ host name cutoff, act.2 = .restart host name cutoff →
    cutoff ≤ act.1 - retention
  fresh : ∀ host stamp pod, act.2 = .dump host stamp → col.pods.get? host = some pod →
    fileName pod.name stamp ∉ col.rawDir

/-- A dump leaves a file of its own, and no step removes one. -/
theorem InTime.fetchedRows_subset {gap delay retention : Time} {col : Collection}
    {act : Time × CollectAct} (h : InTime db gap delay retention col act) :
    col.fetchedRows ⊆ (col.step db act).fetchedRows := by
  obtain ⟨now, act⟩ := act
  cases act with
  | history host act => exact subset_rfl
  | restart host name cutoff => exact subset_rfl
  | dump host stamp =>
    simp only [step]
    split
    · rename_i pod hpod
      split
      · rintro r ⟨rows, hrows, hr⟩
        obtain ⟨name, hname⟩ := Dict.mem_values_iff.mp hrows
        refine ⟨rows, Dict.mem_values_iff.mpr ⟨name, ?_⟩, hr⟩
        rw [Dict.get?_insert, if_neg, hname]
        rintro rfl
        apply h.fresh host stamp pod rfl hpod
        rw [Dict.mem_def, hname]
        rfl
      · exact subset_rfl
    · exact subset_rfl

/-! ## What a step of a pod does to its table -/

variable {db : Sqlite}

/-- A pod writes one row, drops the rows before a cutoff, or leaves its table alone. -/
theorem table_cases (loop : Loop) (act : HistoryRun.Act) :
    let loop' := HistoryRun.step db loop act
    loop'.table.rows = loop.table.rows ∧
        loop'.attempts.filterMap Prod.snd = loop.attempts.filterMap Prod.snd ∨
      (∃ clock d r, act = .insertReturns clock ∧ loop.phase = .inserting d ∧
        rowOf db (d.text "node") d = some r ∧ loop'.table.rows = loop.table.rows ++ [r] ∧
        loop'.attempts.filterMap Prod.snd = loop.attempts.filterMap Prod.snd ++ [r]) ∨
      ∃ cutoff clock, act = .pruneReturns cutoff clock ∧
        loop'.table = prune loop.table cutoff ∧
        loop'.attempts.filterMap Prod.snd = loop.attempts.filterMap Prod.snd := by
  cases act with
  | publish msg =>
    left
    simp only [HistoryRun.step]
    split <;> exact ⟨rfl, rfl⟩
  | take clock =>
    left
    simp only [HistoryRun.step]
    split
    · split <;> exact ⟨rfl, rfl⟩
    · exact ⟨rfl, rfl⟩
  | insertReturns clock =>
    simp only [HistoryRun.step]
    split
    · rename_i d hphase
      cases hrow : insertedRow db loop.table (d.text "node") d with
      | none => exact Or.inl ⟨rfl, rfl⟩
      | some r =>
        exact Or.inr (Or.inl ⟨clock, d, r, rfl, hphase, rowOf_of_insertedRow hrow, rfl,
          by simp [finishInsert]⟩)
    · exact Or.inl ⟨rfl, rfl⟩
  | insertRaises clock =>
    left
    simp only [HistoryRun.step]
    split
    · exact ⟨List.append_nil _, by simp [finishInsert]⟩
    · exact ⟨rfl, rfl⟩
  | pruneReturns cutoff clock =>
    simp only [HistoryRun.step]
    split
    · exact Or.inr (Or.inr ⟨cutoff, clock, rfl, rfl, rfl⟩)
    · exact Or.inl ⟨rfl, rfl⟩
  | pruneRaises =>
    left
    simp only [HistoryRun.step]
    split <;> exact ⟨rfl, rfl⟩

/-! ## Nothing is pruned before it was fetched -/

theorem ages_before : Ages fun (c : Time) (r : History.Row) => r.t.before c := by
  intro c c' r hle hbefore
  cases ht : r.t with
  | null => simp [ht, SqlValue.before] at hbefore
  | text s => simp [ht, SqlValue.before] at hbefore
  | real x =>
    cases x with
    | finite q =>
      simp only [ht, SqlValue.before, decide_eq_true_eq] at hbefore ⊢
      exact hbefore.trans_le hle
    | negInf => rfl
    | posInf => simp [ht, SqlValue.before] at hbefore
    | nan => simp [ht, SqlValue.before] at hbefore

/-- Every row ever written on a host is in a dump, or still in the table of its pod. -/
def Complete (delay : Time) (col : Collection) (pod : Pod) : Prop :=
  Covered (fun c (r : History.Row) => r.t.before c) delay pod.fetched
    {r | r ∈ pod.loop.table.rows} col.fetchedRows {r | r ∈ pod.written}

/-- So it is on all hosts. -/
structure Kept (delay : Time) (col : Collection) : Prop where
  past : ∀ host pod, col.pods.get? host = some pod → pod.fetched ≤ col.now
  complete : ∀ host pod, col.pods.get? host = some pod → Complete delay col pod

theorem mem_snoc (rows : List History.Row) (r : History.Row) :
    {x | x ∈ rows ++ [r]} = insert r {x | x ∈ rows} := by
  ext x
  simp [or_comm]

theorem rows_prune (tbl : Table) (cutoff : Time) :
    {r | r ∈ (prune tbl cutoff).rows} = {r ∈ {r | r ∈ tbl.rows} | ¬ r.t.before cutoff} := by
  ext r
  simp [prune]

section Steps

variable {gap delay retention : Time} {col : Collection} {now : Time}

theorem kept_history {host : String} {act : HistoryRun.Act} (h : col.Kept delay)
    (hin : InTime db gap delay retention col (now, .history host act))
    (hfit : gap + delay ≤ retention) : (col.step db (now, .history host act)).Kept delay := by
  have hpods : ∀ host' pod', (col.step db (now, .history host act)).pods.get? host' =
      some pod' → ∃ pod, col.pods.get? host' = some pod ∧ pod'.fetched = pod.fetched ∧
        Complete delay col pod' := by
    intro host' pod' hpod'
    rw [step, Dict.get?_modify] at hpod'
    split at hpod'
    · rename_i hhost
      subst hhost
      obtain ⟨pod, hpod, rfl⟩ := Option.map_eq_some_iff.mp hpod'
      refine ⟨pod, hpod, rfl, ?_⟩
      have hold := h.complete host' pod hpod
      have hsince := (h.past host' pod hpod).trans hin.clock
      rcases @table_cases db pod.loop act with
        ⟨hrows, hwritten⟩ | ⟨clock, d, r, rfl, hphase, hr, hrows, hwritten⟩ |
          ⟨cutoff, clock, rfl, htable, hwritten⟩
      · simp only [Complete, Pod.written, hrows, hwritten]
        exact hold
      · have hrecent := hin.recent host' clock pod d r rfl hpod hphase hr
        have hadd := hold.add ages_before hsince hrecent
        simp only [Complete, Pod.written, hrows, hwritten, ← List.append_assoc, mem_snoc]
        exact hadd
      · have hretained := hin.retained host' cutoff clock rfl
        have hexpire := hold.expire ages_before (hin.fetched host' pod hpod) hretained hfit
        simp only [Complete, Pod.written, htable, hwritten, rows_prune]
        exact hexpire
    · exact ⟨pod', hpod', rfl, h.complete host' pod' hpod'⟩
  constructor
  · intro host' pod' hpod'
    obtain ⟨pod, hpod, hfetched, -⟩ := hpods host' pod' hpod'
    exact hfetched ▸ (h.past host' pod hpod).trans hin.clock
  · intro host' pod' hpod'
    exact (hpods host' pod' hpod').choose_spec.2.2

theorem kept_restart {host name : String} {cutoff : Time} (h : col.Kept delay)
    (hin : InTime db gap delay retention col (now, .restart host name cutoff))
    (hfit : gap + delay ≤ retention) :
    (col.step db (now, .restart host name cutoff)).Kept delay := by
  have hpod : (col.restarted host name cutoff now).fetched ≤ now ∧
      Complete delay col (col.restarted host name cutoff now) := by
    cases hold : col.pods.get? host with
    | none =>
      simp only [restarted, hold, Option.map_none, Option.getD_none]
      refine ⟨le_refl now, ?_⟩
      intro r hr
      cases hr
    | some pod =>
      have hretained := hin.retainedFirst host name cutoff rfl
      have hexpire := (h.complete host pod hold).expire ages_before
        (hin.fetched host pod hold) hretained hfit
      simp only [restarted, hold, Option.map_some, Option.getD_some]
      refine ⟨(h.past host pod hold).trans hin.clock, ?_⟩
      simp only [Complete, Pod.written, HistoryRun.start, connect, List.filterMap_nil,
        List.append_nil, rows_prune]
      exact hexpire
  constructor
  · intro host' pod' hpod'
    rw [step, Dict.get?_insert] at hpod'
    split at hpod'
    · cases hpod'
      exact hpod.1
    · exact (h.past host' pod' hpod').trans hin.clock
  · intro host' pod' hpod'
    rw [step, Dict.get?_insert] at hpod'
    split at hpod'
    · cases hpod'
      exact hpod.2
    · exact h.complete host' pod' hpod'

theorem kept_dump {host stamp : String} (h : col.Kept delay)
    (hin : InTime db gap delay retention col (now, .dump host stamp)) :
    (col.step db (now, .dump host stamp)).Kept delay := by
  have hsubset := hin.fetchedRows_subset
  have hidle : ({ col with now } : Collection).Kept delay :=
    ⟨fun host' pod' hpod' => (h.past host' pod' hpod').trans hin.clock, h.complete⟩
  cases hpod : col.pods.get? host with
  | none =>
    simp only [step, hpod]
    exact hidle
  | some pod =>
    by_cases hcolumns : pod.loop.table.hasColumns
    · have hitems : {r | r ∈ pod.loop.table.rows} ⊆
          (col.step db (now, .dump host stamp)).fetchedRows := by
        intro r hr
        simp only [step, hpod, if_pos hcolumns]
        have hfile := Dict.get?_insert_self col.rawDir (fileName pod.name stamp)
          (dumpRows pod.loop.table)
        exact ⟨_, Dict.mem_values_iff.mpr ⟨_, hfile⟩, List.mem_mergeSort.mpr hr⟩
      have hpods : (col.step db (now, .dump host stamp)).pods =
          col.pods.insert host { pod with fetched := now } := by
        simp only [step, hpod, if_pos hcolumns]
      have hnow : (col.step db (now, .dump host stamp)).now = now := by
        simp only [step, hpod, if_pos hcolumns]
      constructor
      · intro host' pod' hpod'
        rw [hpods, Dict.get?_insert] at hpod'
        rw [hnow]
        split at hpod'
        · cases hpod'
          exact le_refl now
        · exact (h.past host' pod' hpod').trans hin.clock
      · intro host' pod' hpod'
        rw [hpods, Dict.get?_insert] at hpod'
        split at hpod'
        · cases hpod'
          exact (h.complete host pod hpod).copy now hsubset hitems
        · exact (h.complete host' pod' hpod').mono hsubset
    · simp only [step, hpod, if_neg hcolumns]
      exact hidle

theorem kept_step {act : Time × CollectAct} (h : col.Kept delay)
    (hin : InTime db gap delay retention col act) (hfit : gap + delay ≤ retention) :
    (col.step db act).Kept delay := by
  obtain ⟨now, act⟩ := act
  cases act with
  | history host act => exact kept_history h hin hfit
  | restart host name cutoff => exact kept_restart h hin hfit
  | dump host stamp => exact kept_dump h hin

end Steps

/-! ## Nothing comes from elsewhere -/

/-- The row of a sample some message carries. -/
def RowOfSome (db : Sqlite) (said : Msg → Prop) (r : History.Row) : Prop :=
  ∃ msg d, said msg ∧ msg.body = .nodeMetrics d ∧ rowOf db (d.text "node") d = some r

/-- What a pod holds was said before. -/
structure Heard (db : Sqlite) (said : Msg → Prop) (loop : Loop) : Prop where
  log : ∀ msg ∈ loop.mailbox.log, said msg
  current : ∀ d, loop.phase = .inserting d → ∃ msg, said msg ∧ msg.body = .nodeMetrics d
  rows : ∀ r ∈ loop.table.rows, RowOfSome db said r

theorem afterMessage_ne_inserting (loop : Loop) (clock : Time) (d : Obj) :
    afterMessage loop clock ≠ .inserting d := by
  rw [afterMessage]
  split <;> simp

/-- A message reaches the mailbox when it is published. -/
theorem mem_log_step {loop : Loop} {act : HistoryRun.Act} {msg : Msg}
    (h : msg ∈ (HistoryRun.step db loop act).mailbox.log) :
    msg ∈ loop.mailbox.log ∨ act = .publish msg := by
  cases act with
  | publish msg' =>
    rw [HistoryRun.step] at h
    split at h
    · exact Or.inl h
    · rw [Mailbox.log_publish, List.mem_append, List.mem_singleton] at h
      rcases h with h | rfl
      · exact Or.inl h
      · exact Or.inr rfl
  | take clock =>
    left
    rw [HistoryRun.step] at h
    split at h
    · rename_i taken mb hphase hnext
      obtain ⟨rest, hq, rfl⟩ := Mailbox.next_eq_some hnext
      split at h <;> exact h
    · exact h
  | insertReturns clock =>
    left
    rw [HistoryRun.step] at h
    split at h
    · split at h <;> exact h
    · exact h
  | insertRaises clock =>
    left
    rw [HistoryRun.step] at h
    split at h <;> exact h
  | pruneReturns cutoff clock =>
    left
    rw [HistoryRun.step] at h
    split at h <;> exact h
  | pruneRaises =>
    left
    rw [HistoryRun.step] at h
    split at h <;> exact h

/-- The sample that is inserted came in a message of the mailbox. -/
theorem phase_step_eq_inserting {loop : Loop} {act : HistoryRun.Act} {d : Obj}
    (h : (HistoryRun.step db loop act).phase = .inserting d) :
    loop.phase = .inserting d ∨ ∃ msg ∈ loop.mailbox.log, msg.body = .nodeMetrics d := by
  cases act with
  | publish msg =>
    left
    rw [HistoryRun.step] at h
    split at h <;> exact h
  | take clock =>
    rw [HistoryRun.step] at h
    split at h
    · rename_i msg mb hphase hnext
      obtain ⟨rest, hq, rfl⟩ := Mailbox.next_eq_some hnext
      have hmem : msg ∈ loop.mailbox.log := by
        apply loop.mailbox.inOrder.subset
        rw [hq]
        simp
      split at h
      · rename_i d' hbody
        cases h
        exact Or.inr ⟨msg, hmem, hbody⟩
      · exact absurd h (afterMessage_ne_inserting _ _ _)
    · exact Or.inl h
  | insertReturns clock =>
    rw [HistoryRun.step] at h
    split at h
    · split at h
      · exact absurd h (afterMessage_ne_inserting _ _ _)
      · exact Or.inl h
    · exact Or.inl h
  | insertRaises clock =>
    rw [HistoryRun.step] at h
    split at h
    · exact absurd h (afterMessage_ne_inserting _ _ _)
    · exact Or.inl h
  | pruneReturns cutoff clock =>
    rw [HistoryRun.step] at h
    split at h
    · cases h
    · exact Or.inl h
  | pruneRaises =>
    rw [HistoryRun.step] at h
    split at h
    · cases h
    · exact Or.inl h

theorem heard_step {said : Msg → Prop} {loop : Loop} (h : Heard db said loop)
    {act : HistoryRun.Act} (hact : ∀ msg, act = .publish msg → said msg) :
    Heard db said (HistoryRun.step db loop act) := by
  constructor
  · intro msg hmsg
    rcases mem_log_step hmsg with hmsg | hpublish
    · exact h.log msg hmsg
    · exact hact msg hpublish
  · intro d hd
    rcases phase_step_eq_inserting hd with hd | ⟨msg, hmsg, hbody⟩
    · exact h.current d hd
    · exact ⟨msg, h.log msg hmsg, hbody⟩
  · intro r hr
    rcases @table_cases db loop act with
      ⟨hrows, -⟩ | ⟨clock, d, r', -, hphase, hrow, hrows, -⟩ | ⟨cutoff, clock, -, htable, -⟩
    · exact h.rows r (hrows ▸ hr)
    · rw [hrows, List.mem_append, List.mem_singleton] at hr
      rcases hr with hr | rfl
      · exact h.rows r hr
      · obtain ⟨msg, hsaid, hbody⟩ := h.current d hphase
        exact ⟨msg, d, hsaid, hbody, hrow⟩
    · rw [htable, prune] at hr
      exact h.rows r (List.mem_filter.mp hr).1

/-- So are the dumps. -/
structure Sourced (db : Sqlite) (said : Msg → Prop) (col : Collection) :
    Prop where
  pods : ∀ host pod, col.pods.get? host = some pod → Heard db said pod.loop
  files : ∀ r ∈ col.fetchedRows, RowOfSome db said r

theorem sourced_step {said : Msg → Prop} {col : Collection} (h : col.Sourced db said)
    {act : Time × CollectAct} (hact : ∀ host msg, act.2 = .history host (.publish msg) → said msg) :
    (col.step db act).Sourced db said := by
  obtain ⟨now, act⟩ := act
  cases act with
  | history host act =>
    refine ⟨fun host' pod' hpod' => ?_, h.files⟩
    rw [step, Dict.get?_modify] at hpod'
    split at hpod'
    · obtain ⟨pod, hpod, rfl⟩ := Option.map_eq_some_iff.mp hpod'
      exact heard_step (h.pods host pod hpod) fun msg hmsg => hact host msg (hmsg ▸ rfl)
    · exact h.pods host' pod' hpod'
  | restart host name cutoff =>
    refine ⟨fun host' pod' hpod' => ?_, h.files⟩
    rw [step, Dict.get?_insert] at hpod'
    split at hpod'
    · cases hpod'
      refine ⟨fun msg hmsg => (nomatch hmsg), fun d hd => (nomatch hd), fun r hr => ?_⟩
      have hr' := (List.mem_filter.mp hr).1
      cases hpod : col.pods.get? host with
      | none =>
        rw [hpod] at hr'
        cases hr'
      | some pod =>
        rw [hpod] at hr'
        exact (h.pods host pod hpod).rows r hr'
    · exact h.pods host' pod' hpod'
  | dump host stamp =>
    simp only [step]
    split
    · rename_i pod hpod
      split
      · constructor
        · intro host' pod' hpod'
          rw [Dict.get?_insert] at hpod'
          split at hpod'
          · cases hpod'
            exact ⟨(h.pods host pod hpod).log, (h.pods host pod hpod).current,
              (h.pods host pod hpod).rows⟩
          · exact h.pods host' pod' hpod'
        · rintro r ⟨rows, hrows, hr⟩
          obtain ⟨name, hname⟩ := Dict.mem_values_iff.mp hrows
          rw [Dict.get?_insert] at hname
          split at hname
          · cases hname
            exact (h.pods host pod hpod).rows r (List.mem_mergeSort.mp hr)
          · exact h.files r ⟨rows, Dict.mem_values_iff.mpr ⟨name, hname⟩, hr⟩
      · exact ⟨h.pods, h.files⟩
    · exact ⟨h.pods, h.files⟩

end Collection

/-! ## The dataset -/

section Dataset

open Collection

variable (db : Sqlite) (readRow : History.Row → Sample)
  {gap delay retention t : Time} {acts : List (Time × CollectAct)}

/-- The deployment, from its first pod on. -/
def collected (db : Sqlite) (t : Time) (acts : List (Time × CollectAct)) :
    Collection := runFrom (Collection.step db) (Collection.start t) acts

theorem kept_collected (hfit : gap + delay ≤ retention)
    (h : AlongRun (Collection.step db) (InTime db gap delay retention)
      (Collection.start t) acts) :
    (collected db t acts).Kept delay := by
  have hstart : (Collection.start t).Kept delay :=
    ⟨fun host pod hpod => (nomatch hpod), fun host pod hpod => (nomatch hpod)⟩
  exact runFrom_invariant_of_along (fun col act hkept hin => kept_step hkept hin hfit) hstart h

/-- A host published the message in the run. -/
def Said (acts : List (Time × CollectAct)) (msg : Msg) : Prop :=
  ∃ now host, (now, .history host (.publish msg)) ∈ acts

theorem sourced_collected : (collected db t acts).Sourced db (Said acts) := by
  have hstart : (Collection.start t).Sourced db (Said acts) := by
    refine ⟨fun host pod hpod => (nomatch hpod), ?_⟩
    rintro r ⟨rows, hrows, -⟩
    cases hrows
  refine runFrom_invariant_of_forall (W := (· ∈ acts)) (fun col act h hact => ?_) hstart
    fun act hact => hact
  exact sourced_step h fun host msg hmsg => ⟨act.1, host, hmsg ▸ hact⟩

/-- The reading of every row ever written is in the dataset once, or the row is still in the table
of its pod; every row of the dataset is one that was written; and the dataset is sorted. Two rows
with the same node and time are one reading, which `load_and_merge` keeps once. -/
structure MissesNothing (said : Msg → Prop) (col : Collection) (df : List Sample) : Prop where
  all : ∀ host pod, col.pods.get? host = some pod → ∀ r ∈ pod.written,
    r ∈ pod.loop.table.rows ∨ (df.map Sample.key).count (readRow r).key = 1
  only : ∀ s ∈ df, ∃ r, RowOfSome db said r ∧ readRow r = s
  sorted : (df.map Sample.key).SortedLT

variable {db readRow}

theorem mem_csvPaths {col : Collection} {file : CsvFile} (h : file ∈ col.csvPaths readRow)
    {s : Sample} (hs : s ∈ file.rows) : ∃ r ∈ col.fetchedRows, readRow r = s := by
  obtain ⟨e, he, rfl⟩ := List.mem_map.mp h
  obtain ⟨r, hr, rfl⟩ := List.mem_map.mp hs
  exact ⟨r, ⟨e.2, List.mem_map_of_mem he, hr⟩, rfl⟩

theorem exists_csvPath {col : Collection} {r : History.Row} (h : r ∈ col.fetchedRows) :
    ∃ file ∈ col.csvPaths readRow, readRow r ∈ file.rows := by
  obtain ⟨rows, hrows, hr⟩ := h
  obtain ⟨e, he, rfl⟩ := List.mem_map.mp hrows
  exact ⟨_, List.mem_map_of_mem he, List.mem_map_of_mem hr⟩

theorem missesNothing_of_kept {said : Msg → Prop} {col : Collection} {rawDir : String}
    {df : List Sample} (hkept : col.Kept delay) (hsourced : col.Sourced db said)
    (hdf : loadAndMerge rawDir (col.csvPaths readRow) = .ok df) :
    MissesNothing db readRow said col df := by
  have hunion := isUnion_loadAndMerge hdf
  refine ⟨fun host pod hpod r hr => ?_, fun s hs => ?_, hunion.sorted⟩
  · rcases hkept.complete host pod hpod r hr with hfetched | ⟨hrow, -⟩
    · obtain ⟨file, hfile, hmem⟩ := exists_csvPath hfetched
      exact Or.inr (hunion.once file hfile _ hmem)
    · exact Or.inl hrow
  · obtain ⟨file, hfile, hmem⟩ := hunion.only s hs
    obtain ⟨r, hr, hread⟩ := mem_csvPaths hfile hmem
    exact ⟨r, hsourced.files r hr, hread⟩

/-! ### A row that is missed -/

/-- A sample that is written as late as may be. -/
private def lateSample (delay : Time) : Obj :=
  Dict.ofList [("node", .str "rpi-1"), ("t", .ofRat (-delay))]

/-- The pod is dumped and then writes a row. -/
private def lateStart (delay retention : Time) : List (Time × CollectAct) :=
  [(0, .restart "rpi-1" "piwatch-a" (-retention)), (0, .dump "rpi-1" "1"),
    (0, .history "rpi-1" (.publish ⟨0, .nodeMetrics (lateSample delay)⟩)),
    (0, .history "rpi-1" (.take 0)), (0, .history "rpi-1" (.insertReturns 0))]

/-- The next pod prunes it before the next dump. -/
private def lateRun (gap delay retention : Time) : List (Time × CollectAct) :=
  lateStart delay retention ++ [(gap, .restart "rpi-1" "piwatch-b" (gap - retention))]

/-- A pod that starts with a table and is told of one sample. -/
private theorem take_late (db : Sqlite) (tbl : Table) (d : Obj) :
    let loop := runFrom (HistoryRun.step db) (HistoryRun.start tbl 0)
      [.publish ⟨0, .nodeMetrics d⟩, .take 0]
    loop.phase = .inserting d ∧ loop.table = tbl ∧ loop.attempts = [] := by
  have hitems : ((∅ : Mailbox queueLen Msg).publish ⟨0, .nodeMetrics d⟩).queue.items =
      [⟨0, .nodeMetrics d⟩] := by
    change (Ring.push ∅ (⟨0, .nodeMetrics d⟩ : Msg)).items = _
    rw [Ring.items_push, rtake_of_length_le]
    · rfl
    · change 1 ≤ 512
      decide
  have hnext := Mailbox.next_eq hitems
  simp [HistoryRun.step, HistoryRun.start, hnext]

/-- The row it writes. -/
private def lateRow (delay : Time) : History.Row :=
  ⟨"rpi-1", .real (.finite (-delay)), Dict.ofList (nodeHistoryFields.map fun f => (f, .null))⟩

private def emptyTable : Table := ⟨nodeHistoryFields, []⟩

private theorem rowOf_late (db : Sqlite) (delay : Time) :
    rowOf db ((lateSample delay).text "node") (lateSample delay) = some (lateRow delay) := by
  have hstamp : toReal db "t" ((lateSample delay).field "t") =
      some (.real (.finite (-delay))) := toReal_stamp db _
  rw [rowOf, hstamp]
  rfl

private theorem insertedRow_late (db : Sqlite) (delay : Time) :
    insertedRow db emptyTable ((lateSample delay).text "node") (lateSample delay) =
      some (lateRow delay) := by
  have hcolumns : emptyTable.hasColumns := fun f hf => hf
  rw [insertedRow, if_pos hcolumns, rowOf_late]

/-- There is one pod, and it was dumped at once. -/
private def Alone (col : Collection) (loop : Loop) : Prop :=
  col.now = 0 ∧ ∀ host pod, col.pods.get? host = some pod ↔
    host = "rpi-1" ∧ pod = ⟨"piwatch-a", loop, [], 0⟩

private theorem alone_history (db : Sqlite) {col : Collection} {loop : Loop}
    (h : Alone col loop) (act : HistoryRun.Act) :
    Alone (col.step db (0, .history "rpi-1" act)) (HistoryRun.step db loop act) := by
  refine ⟨rfl, fun host pod => ?_⟩
  rw [Collection.step, Dict.get?_modify]
  split
  · rename_i hhost
    rw [(h.2 "rpi-1" _).mpr ⟨rfl, rfl⟩, Option.map_some, Option.some_inj, hhost]
    simp [eq_comm]
  · rename_i hhost
    rw [h.2 host pod]
    simp [hhost]

private theorem alone_restart (db : Sqlite) (retention : Time) :
    Alone ((Collection.start 0).step db (0, .restart "rpi-1" "piwatch-a" (-retention)))
      (HistoryRun.start emptyTable 0) := by
  refine ⟨rfl, fun host pod => ?_⟩
  rw [Collection.step, Dict.get?_insert]
  split
  · rename_i hhost
    rw [Option.some_inj]
    exact ⟨fun hpod => ⟨hhost, hpod.symm⟩, fun hpod => hpod.2.symm⟩
  · rename_i hhost
    simp [Collection.start, hhost]

private theorem alone_dump (db : Sqlite) {col : Collection} {loop : Loop}
    (h : Alone col loop) (hcolumns : loop.table.hasColumns) (stamp : String) :
    Alone (col.step db (0, .dump "rpi-1" stamp)) loop := by
  have hpod := (h.2 "rpi-1" _).mpr ⟨rfl, rfl⟩
  simp only [Collection.step, hpod, if_pos hcolumns]
  refine ⟨rfl, fun host pod => ?_⟩
  rw [Dict.get?_insert]
  split
  · rename_i hhost
    rw [Option.some_inj]
    exact ⟨fun hpod => ⟨hhost, hpod.symm⟩, fun hpod => hpod.2.symm⟩
  · exact h.2 host pod

/-- With a single pod that was dumped at the start only the act itself is to be in time. -/
private theorem inTime_alone {col : Collection} {loop : Loop} (h : Alone col loop) {now : Time}
    (hnow : 0 ≤ now) (hgap : now ≤ gap) {act : CollectAct}
    (hrecent : ∀ clock d r, act = .history "rpi-1" (.insertReturns clock) →
      loop.phase = .inserting d → rowOf db (d.text "node") d = some r →
      ¬ r.t.before (now - delay))
    (hretained : ∀ host cutoff clock, act ≠ .history host (.pruneReturns cutoff clock))
    (hfirst : ∀ host name cutoff, act = .restart host name cutoff → cutoff ≤ now - retention)
    (hfresh : ∀ host stamp, act = .dump host stamp → col.rawDir = ∅) :
    InTime db gap delay retention col (now, act) := by
  constructor
  · rw [h.1]
    exact hnow
  · intro host pod hpod
    rw [((h.2 host pod).mp hpod).2, sub_zero]
    exact hgap
  · intro host clock pod d r hact hpod hphase hrow
    obtain ⟨rfl, rfl⟩ := (h.2 host pod).mp hpod
    exact hrecent clock d r hact hphase hrow
  · exact fun host cutoff clock hact => absurd hact (hretained host cutoff clock)
  · exact hfirst
  · intro host stamp pod hact hpod
    rw [hfresh host stamp hact]
    exact Dict.not_mem_empty _

/-- The pod after its first messages. -/
private def lateLoop (db : Sqlite) (delay : Time) : Loop :=
  runFrom (HistoryRun.step db) (HistoryRun.start emptyTable 0)
    [.publish ⟨0, .nodeMetrics (lateSample delay)⟩, .take 0]

private theorem alone_late (db : Sqlite) (delay retention : Time) :
    Alone (collected db 0 (lateStart delay retention))
      (HistoryRun.step db (lateLoop db delay) (.insertReturns 0)) := by
  have hcolumns : (HistoryRun.start emptyTable 0).table.hasColumns := fun f hf => hf
  have hdump := alone_dump db (alone_restart db retention) hcolumns "1"
  exact alone_history db (alone_history db (alone_history db hdump _) _) _

private theorem late_inTime (db : Sqlite) (hgap : 0 ≤ gap) :
    AlongRun (Collection.step db) (InTime db gap delay retention) (Collection.start 0)
      (lateRun gap delay retention) := by
  have hcolumns : (HistoryRun.start emptyTable 0).table.hasColumns := fun f hf => hf
  have hrestart := alone_restart db retention
  have hdump := alone_dump db hrestart hcolumns "1"
  have hpublish := alone_history db hdump (.publish ⟨0, .nodeMetrics (lateSample delay)⟩)
  have htake := alone_history db hpublish (.take 0)
  have hinsert := alone_history db htake (.insertReturns 0)
  refine ⟨?_, ?_, ?_, ?_, ?_, ?_, trivial⟩
  · refine ⟨le_rfl, ?_, ?_, ?_, ?_, ?_⟩ <;> simp [Collection.start]
  · apply inTime_alone hrestart le_rfl hgap <;> simp [Collection.step, Collection.start]
  · apply inTime_alone hdump le_rfl hgap <;> simp
  · apply inTime_alone hpublish le_rfl hgap <;> simp
  · refine inTime_alone htake le_rfl hgap ?_ (by simp) (by simp) (by simp)
    intro clock d r hact hphase hrow
    obtain ⟨hlate, -⟩ := take_late db emptyTable (lateSample delay)
    obtain rfl := Phase.inserting.inj (hlate.symm.trans hphase)
    obtain rfl := Option.some.inj ((rowOf_late db delay).symm.trans hrow)
    simp [lateRow, SqlValue.before]
  · apply inTime_alone hinsert hgap le_rfl <;> simp

private theorem late_written (db : Sqlite) (delay : Time) :
    let loop := HistoryRun.step db (lateLoop db delay) (.insertReturns 0)
    loop.table.rows = [lateRow delay] ∧ loop.attempts.filterMap Prod.snd = [lateRow delay] := by
  obtain ⟨hphase, htable, hattempts⟩ := take_late db emptyTable (lateSample delay)
  have hrow := insertedRow_late db delay
  change (lateLoop db delay).phase = _ at hphase
  change (lateLoop db delay).table = _ at htable
  change (lateLoop db delay).attempts = _ at hattempts
  simp only [HistoryRun.step, hphase, htable, hrow, finishInsert, hattempts]
  exact ⟨rfl, rfl⟩

/-- The second pod prunes the row that the first one wrote. -/
private theorem late_missed (db : Sqlite) (readRow : History.Row → Sample)
    (h : retention < gap + delay) : ∃ pod,
    (collected db 0 (lateRun gap delay retention)).pods.get? "rpi-1" = some pod ∧
      lateRow delay ∈ pod.written ∧ lateRow delay ∉ pod.loop.table.rows ∧
      loadAndMerge "raw"
        ((collected db 0 (lateRun gap delay retention)).csvPaths readRow) = .ok [] := by
  obtain ⟨hrows, hwritten⟩ := late_written db delay
  have hpod := ((alone_late db delay retention).2 "rpi-1" _).mpr ⟨rfl, rfl⟩
  have hrun : collected db 0 (lateRun gap delay retention) =
      (collected db 0 (lateStart delay retention)).step db
        (gap, .restart "rpi-1" "piwatch-b" (gap - retention)) := rfl
  have hraw : (collected db 0 (lateStart delay retention)).rawDir =
      (∅ : Dict String (List History.Row)).insert (fileName "piwatch-a" "1")
        (dumpRows emptyTable) := rfl
  have hempty : dumpRows emptyTable = [] := List.mergeSort_nil
  refine ⟨_, by rw [hrun, Collection.step, Dict.get?_insert_self], ?_, ?_, ?_⟩
  · simp [restarted, hpod, Pod.written, hwritten]
  · have hlate : SqlValue.before (gap - retention) (lateRow delay).t := by
      simp only [lateRow, SqlValue.before, decide_eq_true_eq]
      linarith
    simp [restarted, hpod, HistoryRun.start, connect, prune, hrows, hlate]
  · rw [hrun, Collection.step, csvPaths, hraw, hempty]
    rfl

/-- Pods are dumped once in a while, and the rows they write are a little late. If the two times fit
into the retention, then the dataset misses no row but those the next dumps will bring, whatever
pods do in between, and it has no other row. If they do not, then it can miss one for good. -/
theorem missesNothing_iff (db : Sqlite) (readRow : History.Row → Sample)
    (delay retention : Time) (hgap : 0 ≤ gap) :
    (∀ t acts rawDir df,
      AlongRun (Collection.step db) (InTime db gap delay retention)
        (Collection.start t) acts →
      loadAndMerge rawDir ((collected db t acts).csvPaths readRow) = .ok df →
      MissesNothing db readRow (Said acts) (collected db t acts) df) ↔
    gap + delay ≤ retention := by
  constructor
  · intro hall
    by_contra hlong
    obtain ⟨pod, hpod, hwritten, hrow, hdf⟩ := late_missed db readRow (not_le.mp hlong)
    have hmisses := hall 0 _ "raw" [] (late_inTime db hgap) hdf
    rcases hmisses.all "rpi-1" pod hpod _ hwritten with hkept | hmerged
    · exact hrow hkept
    · cases hmerged
  · intro hfit t acts rawDir df hin hdf
    exact missesNothing_of_kept (kept_collected db hfit hin) (sourced_collected db) hdf

/-- A row as it is read, if its time is a number. -/
private def readNumbers (r : History.Row) : Sample :=
  let number : SqlValue → Option ℚ
    | .real (.finite q) => some q
    | _ => none
  ⟨r.node, (number r.t).getD 0,
    fun
      | .cpuPct => number (r.read "cpu_pct")
      | .memPct => number (r.read "mem_pct")
      | .tempC => number (r.read "temp_c")
      | .netRxBytesPerS => number (r.read "net_rx_bytes_per_s")
      | .netTxBytesPerS => number (r.read "net_tx_bytes_per_s"),
    number (r.read "nvme_read_bytes_per_s"), number (r.read "nvme_write_bytes_per_s")⟩

/-- A dump a day is enough for the default retention of a week, and one a week is not. -/
theorem missesNothing_daily :
    (∀ t acts rawDir df,
      AlongRun (Collection.step Sqlite.floats) (InTime Sqlite.floats 86400 60 604800)
        (Collection.start t) acts →
      loadAndMerge rawDir ((collected Sqlite.floats t acts).csvPaths readNumbers) = .ok df →
      MissesNothing Sqlite.floats readNumbers (Said acts) (collected Sqlite.floats t acts) df) ∧
    ¬ ∀ t acts rawDir df,
      AlongRun (Collection.step Sqlite.floats) (InTime Sqlite.floats 604800 60 604800)
        (Collection.start t) acts →
      loadAndMerge rawDir ((collected Sqlite.floats t acts).csvPaths readNumbers) = .ok df →
      MissesNothing Sqlite.floats readNumbers (Said acts) (collected Sqlite.floats t acts) df := by
  constructor
  · rw [missesNothing_iff Sqlite.floats readNumbers 60 604800 (by norm_num)]
    norm_num
  · rw [missesNothing_iff Sqlite.floats readNumbers 60 604800 (by norm_num)]
    norm_num

end Dataset

end PiWatch.Ml
