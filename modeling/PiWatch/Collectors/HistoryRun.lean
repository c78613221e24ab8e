import PiWatch.Framework.Mailbox
import PiWatch.Framework.Run
import PiWatch.Collectors.History

/-!
# The persistence loop

`history.run` takes messages from its own queue one at a time, inserts the node samples in a
worker thread and prunes old rows now and then. Other collectors publish at any moment. A
failed insert is logged and dropped, a failed prune ends the loop.
-/

namespace PiWatch

open ClusterState History

namespace HistoryRun

/-- `PRUNE_INTERVAL`. -/
def pruneInterval : Time := 3600

def queueLen : ℕ := 512

/-- Where the loop stands: at `q.get()`, in an insert, in a prune, or gone. -/
inductive Phase
  | waiting
  | inserting (d : Obj)
  | pruning
  | ended
  deriving DecidableEq

/-- `attempts` records every finished insert with the row it wrote, if any, and `pruned` the rows
removed. -/
structure Loop where
  mailbox : Mailbox queueLen Msg
  phase : Phase
  table : Table
  lastPrune : Time
  attempts : List (Obj × Option Row)
  pruned : List Row

inductive Act
  | publish (msg : Msg)
  | take (clock : Time)
  | insertReturns (clock : Time)
  | insertRaises (clock : Time)
  | pruneReturns (cutoff clock : Time)
  | pruneRaises
  deriving DecidableEq

/-- After `subscribe` and the first prune. -/
def start (tbl : Table) (t : Time) : Loop := ⟨∅, .waiting, tbl, t, [], []⟩

/-- The check at the end of the loop's body. -/
def afterMessage (loop : Loop) (clock : Time) : Phase :=
  if pruneInterval < clock - loop.lastPrune then .pruning else .waiting

def finishInsert (loop : Loop) (d : Obj) (row : Option Row) (clock : Time) : Loop :=
  { loop with
    phase := afterMessage loop clock
    table := { loop.table with rows := loop.table.rows ++ row.toList }
    attempts := loop.attempts ++ [(d, row)] }

variable (db : Sqlite)

def step (loop : Loop) : Act → Loop
  | .publish msg =>
    -- an ended loop has unsubscribed
    if loop.phase = .ended then loop
    else { loop with mailbox := loop.mailbox.publish msg }
  | .take clock =>
    match loop.phase, loop.mailbox.next with
    | .waiting, some (msg, mb) =>
      match msg.body with
      | .nodeMetrics d => { loop with mailbox := mb, phase := .inserting d }
      | _ => { loop with mailbox := mb, phase := afterMessage loop clock }
    | _, _ => loop
  | .insertReturns clock =>
    match loop.phase with
    | .inserting d =>
      -- a statement that cannot succeed raises instead
      match insertedRow db loop.table (d.text "node") d with
      | some r => finishInsert loop d (some r) clock
      | none => loop
    | _ => loop
  | .insertRaises clock =>
    match loop.phase with
    | .inserting d => finishInsert loop d none clock
    | _ => loop
  | .pruneReturns cutoff clock =>
    match loop.phase with
    | .pruning =>
      { loop with
        phase := .waiting
        table := prune loop.table cutoff
        lastPrune := clock
        pruned := loop.pruned ++ loop.table.rows.filter fun r => r.t.before cutoff }
    | _ => loop
  | .pruneRaises =>
    match loop.phase with
    | .pruning => { loop with phase := .ended }
    | _ => loop

/-- The samples among some messages. -/
def samples (msgs : List Msg) : List Obj :=
  msgs.filterMap fun msg =>
    match msg.body with
    | .nodeMetrics d => some d
    | _ => none

private theorem samples_of_ne {msg : Msg} (h : ∀ d, msg.body = .nodeMetrics d → False) :
    samples [msg] = [] := by
  rw [samples, List.filterMap_eq_nil_iff]
  intro m hm
  rw [List.mem_singleton.mp hm]
  split
  · rename_i d hd
    exact (h d hd).elim
  · rfl

/-- The sample being inserted, if any. -/
def Phase.current : Phase → List Obj
  | .inserting d => [d]
  | _ => []

@[simp] theorem current_waiting : Phase.waiting.current = [] := rfl

@[simp] theorem current_pruning : Phase.pruning.current = [] := rfl

/-- The message an action publishes. -/
def Act.published : Act → Option Msg
  | .publish msg => some msg
  | _ => none

/-- The insert that ends in a step, and whether it returned. -/
def ended (loop : Loop) : Act → List (Obj × Bool)
  | .insertReturns _ =>
    match loop.phase with
    | .inserting d =>
      if (insertedRow db loop.table (d.text "node") d).isSome then [(d, true)] else []
    | _ => []
  | .insertRaises _ =>
    match loop.phase with
    | .inserting d => [(d, false)]
    | _ => []
  | _ => []

/-- The cutoff an action prunes at. -/
def Act.cutoff : Act → Option Time
  | .pruneReturns cutoff _ => some cutoff
  | _ => none

/-- Every taken sample was inserted once, in order, or is being inserted. Exactly the inserts that
returned wrote a row, that of their sample, and the table holds these rows less those that were
older than the cutoff of a prune. -/
structure Recorded (tbl : Table) (ends : List (Obj × Bool)) (cutoffs : List Time) (loop : Loop) :
    Prop where
  alive : loop.phase ≠ .ended
  ends : loop.attempts.map (fun x => (x.1, x.2.isSome)) = ends
  attempted : samples loop.mailbox.taken = loop.attempts.map Prod.fst ++ loop.phase.current
  written : ∀ x ∈ loop.attempts, ∀ r, x.2 = some r → rowOf db (x.1.text "node") x.1 = some r
  rows : (loop.table.rows ++ loop.pruned).Perm
    (tbl.rows ++ loop.attempts.filterMap Prod.snd)
  expired : ∀ r ∈ loop.pruned, ∃ cutoff ∈ cutoffs, r.t.before cutoff

variable {db}

theorem recorded_start (tbl : Table) (t : Time) : Recorded db tbl [] [] (start tbl t) where
  alive := by simp [start]
  ends := rfl
  attempted := rfl
  written := by simp [start]
  rows := by simp [start]
  expired := by simp [start]

private theorem afterMessage_ne (loop : Loop) (clock : Time) :
    afterMessage loop clock ≠ .ended ∧ (afterMessage loop clock).current = [] := by
  unfold afterMessage
  split <;> simp [Phase.current]

section Steps

variable {tbl : Table} {ends : List (Obj × Bool)} {cutoffs : List Time} {loop : Loop}

private theorem recorded_finishInsert {d : Obj} (h : Recorded db tbl ends cutoffs loop)
    (hphase : loop.phase = .inserting d) {row : Option Row}
    (hrow : ∀ r, row = some r → rowOf db (d.text "node") d = some r) (clock : Time) :
    Recorded db tbl (ends ++ [(d, row.isSome)]) cutoffs (finishInsert loop d row clock) where
  alive := (afterMessage_ne loop clock).1
  ends := by
    change (loop.attempts ++ [(d, row)]).map _ = _
    rw [List.map_append, h.ends]
    rfl
  attempted := by
    change samples loop.mailbox.taken =
      (loop.attempts ++ [(d, row)]).map Prod.fst ++ (afterMessage loop clock).current
    rw [h.attempted, hphase, (afterMessage_ne loop clock).2, List.map_append, List.append_nil]
    rfl
  written := List.forall_mem_append.mpr ⟨h.written, List.forall_mem_singleton.mpr hrow⟩
  rows := by
    have hrow : [(d, row)].filterMap Prod.snd = row.toList := by cases row <;> rfl
    change ((loop.table.rows ++ row.toList) ++ loop.pruned).Perm
      (tbl.rows ++ (loop.attempts ++ [(d, row)]).filterMap Prod.snd)
    rw [List.filterMap_append, hrow, ← List.append_assoc]
    refine List.Perm.trans ?_ (h.rows.append_right row.toList)
    rw [List.append_assoc, List.append_assoc]
    exact List.perm_append_comm.append_left _
  expired := h.expired

private theorem recorded_take (h : Recorded db tbl ends cutoffs loop)
    {msg : Msg} {rest : List Msg} (hq : loop.mailbox.queue.items = msg :: rest)
    (hphase : loop.phase = .waiting) {phase : Phase} (halive : phase ≠ .ended)
    (hcurrent : phase.current = samples [msg]) :
    Recorded db tbl ends cutoffs
      { loop with mailbox := loop.mailbox.take hq, phase := phase } where
  alive := halive
  ends := h.ends
  attempted := by
    have hold := h.attempted
    rw [hphase, current_waiting, List.append_nil] at hold
    change samples (loop.mailbox.taken ++ [msg]) = _
    rw [samples, List.filterMap_append]
    change samples loop.mailbox.taken ++ samples [msg] = _
    rw [hold, hcurrent]
  written := h.written
  rows := h.rows
  expired := h.expired

private theorem recorded_prune (h : Recorded db tbl ends cutoffs loop)
    (hphase : loop.phase = .pruning) (cutoff clock : Time) :
    Recorded db tbl ends (cutoffs ++ [cutoff]) { loop with
      phase := .waiting
      table := prune loop.table cutoff
      lastPrune := clock
      pruned := loop.pruned ++ loop.table.rows.filter fun r => r.t.before cutoff } where
  alive := by simp
  ends := h.ends
  attempted := by
    have hold := h.attempted
    rw [hphase, current_pruning] at hold
    exact hold
  written := h.written
  rows := by
    have hsplit := List.filter_append_perm (fun r : Row => r.t.before cutoff) loop.table.rows
    refine List.Perm.trans ?_ h.rows
    change ((loop.table.rows.filter fun r => !r.t.before cutoff) ++
      (loop.pruned ++ loop.table.rows.filter fun r => r.t.before cutoff)).Perm _
    refine List.Perm.trans ?_ (hsplit.append_right loop.pruned)
    refine (List.perm_append_comm).trans ?_
    rw [List.append_assoc]
    exact List.perm_append_comm
  expired := by
    intro r hr
    rcases List.mem_append.mp hr with hold | hnew
    · obtain ⟨c, hc, hbefore⟩ := h.expired r hold
      exact ⟨c, List.mem_append_left _ hc, hbefore⟩
    · exact ⟨cutoff, by simp, (List.mem_filter.mp hnew).2⟩

/-- What has been recorded stays so when more cutoffs are named. -/
private theorem Recorded.mono (h : Recorded db tbl ends cutoffs loop) (more : List Time) :
    Recorded db tbl ends (cutoffs ++ more) loop where
  alive := h.alive
  ends := h.ends
  attempted := h.attempted
  written := h.written
  rows := h.rows
  expired := by
    intro r hr
    obtain ⟨c, hc, hbefore⟩ := h.expired r hr
    exact ⟨c, List.mem_append_left _ hc, hbefore⟩

theorem recorded_step (h : Recorded db tbl ends cutoffs loop) {a : Act} (ha : a ≠ .pruneRaises) :
    Recorded db tbl (ends ++ ended db loop a) (cutoffs ++ a.cutoff.toList) (step db loop a) := by
  cases a with
  | publish msg =>
    change Recorded db tbl (ends ++ []) (cutoffs ++ []) _
    rw [List.append_nil, List.append_nil, step, if_neg h.alive]
    refine { h with attempted := ?_ }
    rw [Mailbox.taken_publish]
    exact h.attempted
  | take clock =>
    change Recorded db tbl (ends ++ []) (cutoffs ++ []) _
    rw [List.append_nil, List.append_nil]
    simp only [step]
    split
    · rename_i msg mb hphase hnext
      obtain ⟨rest, hq, rfl⟩ := Mailbox.next_eq_some hnext
      split
      · rename_i d hbody
        exact recorded_take h hq hphase (by simp) (by simp [samples, hbody, Phase.current])
      · rename_i hbody
        refine recorded_take h hq hphase (afterMessage_ne loop clock).1 ?_
        rw [(afterMessage_ne loop clock).2, samples_of_ne hbody]
    · exact h
  | insertReturns clock =>
    change Recorded db tbl _ (cutoffs ++ []) _
    rw [List.append_nil]
    cases hphase : loop.phase with
    | inserting d =>
      cases hrow : insertedRow db loop.table (d.text "node") d with
      | none =>
        simp only [step, ended, hphase, hrow, Option.isSome_none, if_neg Bool.false_ne_true,
          List.append_nil]
        exact h
      | some r =>
        simp only [step, ended, hphase, hrow, Option.isSome_some, if_true]
        refine @recorded_finishInsert _ _ _ _ _ d h hphase (some r) (fun r' hr' => ?_) clock
        rw [← hr']
        exact rowOf_of_insertedRow hrow
    | _ =>
      simp only [step, ended, hphase, List.append_nil]
      exact h
  | insertRaises clock =>
    change Recorded db tbl _ (cutoffs ++ []) _
    rw [List.append_nil]
    cases hphase : loop.phase with
    | inserting d =>
      simp only [step, ended, hphase]
      exact @recorded_finishInsert _ _ _ _ _ d h hphase none (fun r hr => by cases hr) clock
    | _ =>
      simp only [step, ended, hphase, List.append_nil]
      exact h
  | pruneReturns cutoff clock =>
    change Recorded db tbl (ends ++ []) (cutoffs ++ [cutoff]) _
    rw [List.append_nil]
    simp only [step]
    split
    · rename_i hphase
      exact recorded_prune h hphase cutoff clock
    · exact h.mono [cutoff]
  | pruneRaises => exact absurd rfl ha

end Steps

/-- What a step does to the mailbox: it leaves it alone, publishes into it or takes from it. -/
private theorem mailbox_step (loop : Loop) (a : Act) :
    ((a.published = none ∨ loop.phase = .ended) ∧ (step db loop a).mailbox = loop.mailbox) ∨
      (∃ msg, a = .publish msg ∧ (step db loop a).mailbox = loop.mailbox.publish msg) ∨
      a.published = none ∧ ∃ (msg : Msg) (rest : List Msg)
        (hq : loop.mailbox.queue.items = msg :: rest),
        (step db loop a).mailbox = loop.mailbox.take hq := by
  cases a with
  | publish msg =>
    rw [step]
    split
    · rename_i hended
      exact Or.inl ⟨Or.inr hended, rfl⟩
    · exact Or.inr (Or.inl ⟨msg, rfl, rfl⟩)
  | take clock =>
    simp only [step]
    split
    · rename_i msg mb hphase hnext
      obtain ⟨rest, hq, rfl⟩ := Mailbox.next_eq_some hnext
      split <;> exact Or.inr (Or.inr ⟨rfl, msg, rest, hq, rfl⟩)
    · exact Or.inl ⟨Or.inl rfl, rfl⟩
  | insertReturns clock =>
    simp only [step]
    split
    · split <;> exact Or.inl ⟨Or.inl rfl, rfl⟩
    · exact Or.inl ⟨Or.inl rfl, rfl⟩
  | _ =>
    simp only [step]
    split <;> exact Or.inl ⟨Or.inl rfl, rfl⟩

/-- A loop that has not ended records every published message. -/
theorem log_step {loop : Loop} (h : loop.phase ≠ .ended) (a : Act) :
    (step db loop a).mailbox.log = loop.mailbox.log ++ a.published.toList := by
  rcases @mailbox_step db loop a with ⟨hnone, hsame⟩ | ⟨msg, rfl, hpublish⟩ |
    ⟨hnone, msg, rest, hq, htake⟩
  · rw [hsame, hnone.resolve_right h, Option.toList_none, List.append_nil]
  · rw [hpublish]
    rfl
  · rw [htake, hnone, Option.toList_none, List.append_nil]
    rfl

private theorem filterMap_cons_toList {α β : Type*} (f : α → Option β) (a : α) (as : List α) :
    (a :: as).filterMap f = (f a).toList ++ as.filterMap f := by
  cases h : f a <;> simp [h]

theorem recorded_run {tbl : Table} {ends : List (Obj × Bool)} {cutoffs : List Time} {loop : Loop}
    (h : Recorded db tbl ends cutoffs loop) {as : List Act} (has : ∀ a ∈ as, a ≠ .pruneRaises) :
    Recorded db tbl (ends ++ outputs (step db) (ended db) loop as)
      (cutoffs ++ as.filterMap Act.cutoff) (runFrom (step db) loop as) ∧
    (runFrom (step db) loop as).mailbox.log = loop.mailbox.log ++ as.filterMap Act.published := by
  induction as generalizing loop ends cutoffs with
  | nil =>
    rw [outputs, List.filterMap_nil, List.filterMap_nil, List.append_nil, List.append_nil,
      List.append_nil]
    exact ⟨h, rfl⟩
  | cons a as ih =>
    obtain ⟨hrec, hlog⟩ := ih (recorded_step h (has a (by simp))) fun x hx => has x (by simp [hx])
    rw [outputs, filterMap_cons_toList, filterMap_cons_toList, runFrom_cons, ← List.append_assoc,
      ← List.append_assoc]
    refine ⟨hrec, ?_⟩
    rw [hlog, log_step h.alive, List.append_assoc]

/-! ## The queue of the loop -/

/-- A publication finds room in the queue. -/
def Roomy (loop : Loop) : Act → Prop
  | .publish _ => loop.mailbox.queue.items.length < queueLen
  | _ => True

theorem accounted_run {loop : Loop} (h : loop.mailbox.Accounted) (as : List Act) :
    (runFrom (step db) loop as).mailbox.Accounted := by
  refine @runFrom_invariant _ _ (step db) (fun loop => loop.mailbox.Accounted)
    (fun loop a hloop => ?_) _ h as
  rcases @mailbox_step db loop a with ⟨-, hsame⟩ | ⟨msg, rfl, hpublish⟩ | ⟨-, msg, rest, hq, htake⟩
  · exact hsame ▸ hloop
  · exact hpublish ▸ hloop.publish msg
  · exact htake ▸ hloop.take hq

theorem whole_run {loop : Loop} (h : loop.mailbox.Whole) {as : List Act}
    (has : AlongRun (step db) Roomy loop as) : (runFrom (step db) loop as).mailbox.Whole := by
  refine @runFrom_invariant_of_along _ _ (step db) (fun loop => loop.mailbox.Whole) Roomy
    (fun loop a hloop ha => ?_) _ h as has
  rcases @mailbox_step db loop a with ⟨-, hsame⟩ | ⟨msg, rfl, hpublish⟩ | ⟨-, msg, rest, hq, htake⟩
  · exact hsame ▸ hloop
  · exact hpublish ▸ @Mailbox.Whole.publishAll _ _ _ hloop [msg] ha
  · exact htake ▸ hloop.take hq

/-- In every run in which no prune fails: the loop goes on, each taken sample is inserted once, and
the table holds one row for each insert that returned until it is pruned. The messages taken are
those at some places of the published ones, and one that was not taken waits exactly while fewer
than 512 later ones were published. If no publication met a full queue, each published sample was
inserted, is being inserted or waits. -/
theorem run_persists (db : Sqlite) (tbl : Table) (t : Time) (as : List Act)
    (has : ∀ a ∈ as, a ≠ .pruneRaises) :
    Recorded db tbl (outputs (step db) (ended db) (start tbl t) as) (as.filterMap Act.cutoff)
      (runFrom (step db) (start tbl t) as) ∧
    (∃ places, Accounts queueLen (as.filterMap Act.published)
      (runFrom (step db) (start tbl t) as).mailbox.taken
      (runFrom (step db) (start tbl t) as).mailbox.queue.items places) ∧
    (AlongRun (step db) Roomy (start tbl t) as →
      samples (as.filterMap Act.published) =
        (runFrom (step db) (start tbl t) as).attempts.map Prod.fst ++
        (runFrom (step db) (start tbl t) as).phase.current ++
        samples (runFrom (step db) (start tbl t) as).mailbox.queue.items) := by
  have hstart : Recorded db tbl [] [] (start tbl t) := recorded_start tbl t
  obtain ⟨hrec, hlog⟩ := recorded_run hstart has
  have hpublished : (runFrom (step db) (start tbl t) as).mailbox.log =
      as.filterMap Act.published := hlog
  rw [← hpublished]
  refine ⟨hrec, accounted_run Mailbox.accounted_empty as, fun hroomy => ?_⟩
  have hwhole : (runFrom (step db) (start tbl t) as).mailbox.Whole :=
    whole_run Mailbox.whole_empty hroomy
  rw [← hwhole, samples, List.filterMap_append, ← hrec.attempted]
  rfl

def sampleAt (node : String) (t : Time) : Msg :=
  ⟨t, .nodeMetrics (Dict.ofList [("t", .ofRat t), ("cpu_pct", .ofRat 12), ("node", .str node)])⟩

/-- Four samples come in, one of them while an insert is in progress and one insert fails; a
message of another type passes, and old rows are pruned. -/
def busyHour : List Act :=
  [.publish (sampleAt "rpi-1" 1), .publish ⟨1, .podDeleted "media/jellyfin-0"⟩, .take 2,
    .publish (sampleAt "rpi-2" 2), .insertReturns 3, .take 3, .take 4, .insertRaises 5,
    .publish (sampleAt "rpi-1" 4000), .take 4001, .insertReturns 4002, .pruneReturns 100 4003,
    .publish (sampleAt "rpi-2" 4010), .take 4011, .insertReturns 4012]

theorem run_persists_busyHour :
    let loop := runFrom (step Sqlite.floats) (start ⟨nodeHistoryFields, []⟩ 0) busyHour
    let ends := outputs (step Sqlite.floats) (ended Sqlite.floats)
      (start ⟨nodeHistoryFields, []⟩ 0) busyHour
    ends.map Prod.snd = [true, false, true, true] ∧ loop.table.rows.length = 2 ∧
      Recorded Sqlite.floats ⟨nodeHistoryFields, []⟩ ends [100] loop ∧
      (∃ places, Accounts queueLen (busyHour.filterMap Act.published) loop.mailbox.taken
        loop.mailbox.queue.items places) ∧
      samples (busyHour.filterMap Act.published) = loop.attempts.map Prod.fst ++
        loop.phase.current ++ samples loop.mailbox.queue.items := by
  obtain ⟨hrec, hplaces, hroomy⟩ := run_persists Sqlite.floats ⟨nodeHistoryFields, []⟩ 0 busyHour
    (by simp [busyHour])
  refine ⟨by decide +kernel, by decide +kernel, hrec, hplaces, hroomy ?_⟩
  refine ⟨?_, ?_, trivial, ?_, trivial, trivial, trivial, trivial, ?_, trivial, trivial, trivial,
    ?_, trivial, trivial, trivial⟩
  all_goals
    change List.length _ < 512
    decide +kernel

/-- Messages published while the loop is busy wait in its queue. -/
theorem run_burst {loop : Loop} (h : loop.phase ≠ .ended) (msgs : List Msg) :
    runFrom (step db) loop (msgs.map Act.publish) =
      { loop with mailbox := loop.mailbox.publishAll msgs } := by
  induction msgs generalizing loop with
  | nil => rfl
  | cons msg msgs ih =>
    have hstep : step db loop (.publish msg) =
        { loop with mailbox := loop.mailbox.publish msg } := if_neg h
    rw [List.map_cons, runFrom_cons, hstep]
    exact @ih { loop with mailbox := loop.mailbox.publish msg } h

private theorem published_burst (msgs : List Msg) :
    (msgs.map Act.publish).filterMap Act.published = msgs := by
  induction msgs with
  | nil => rfl
  | cons msg msgs ih =>
    rw [List.map_cons, List.filterMap_cons, ih]
    rfl

private theorem length_samples_replicate (n : ℕ) (t : Time) (d : Obj) :
    (samples (List.replicate n ⟨t, .nodeMetrics d⟩)).length = n := by
  induction n with
  | zero => rfl
  | succ n ih =>
    rw [List.replicate_succ, samples, List.filterMap_cons]
    exact congrArg (· + 1) ih

/-- A burst of more than 512 samples loses some of them, with no database error at all. -/
theorem burst_unpersisted (db : Sqlite) (tbl : Table) (t : Time)
    {msgs : List Msg} (h : queueLen < (samples msgs).length) :
    samples ((msgs.map Act.publish).filterMap Act.published) ≠
      (runFrom (step db) (start tbl t) (msgs.map Act.publish)).attempts.map Prod.fst ++
      (runFrom (step db) (start tbl t) (msgs.map Act.publish)).phase.current ++
      samples
        (runFrom (step db) (start tbl t) (msgs.map Act.publish)).mailbox.queue.items := by
  intro hall
  have hrun := @run_burst db (start tbl t) (by simp [start]) msgs
  rw [published_burst, hrun] at hall
  have hlen := congrArg List.length hall
  have hqueue := (Mailbox.publishAll (start tbl t).mailbox msgs).queue.bounded
  have hsamples : (samples (Mailbox.publishAll (start tbl t).mailbox msgs).queue.items).length ≤
      (Mailbox.publishAll (start tbl t).mailbox msgs).queue.items.length :=
    List.length_filterMap_le _ _
  simp only [start, List.map_nil, current_waiting, List.nil_append] at hlen hqueue hsamples
  omega

theorem run_loses_sample :
    ¬ ∀ (db : Sqlite) (tbl : Table) (t : Time) (as : List Act),
      samples (as.filterMap Act.published) =
        (runFrom (step db) (start tbl t) as).attempts.map Prod.fst ++
        (runFrom (step db) (start tbl t) as).phase.current ++
        samples (runFrom (step db) (start tbl t) as).mailbox.queue.items := by
  intro h
  have hburst : queueLen < (samples (List.replicate 513
      ⟨1, .nodeMetrics (labelled "node" "rpi-1" ∅)⟩)).length := by
    rw [length_samples_replicate]
    exact Nat.lt_succ_self 512
  exact burst_unpersisted Sqlite.floats ⟨nodeHistoryFields, []⟩ 0 hburst
    (h Sqlite.floats ⟨nodeHistoryFields, []⟩ 0 _)

end HistoryRun

end PiWatch
