import PiWatch.Collectors.Autochecks

/-!
# Configured checks beside discovered ones

Configured checks, the CoreDNS check and the discovered ones record into one dictionary keyed
by free-form names, and a reconcile removes entries from it. What a configured check recorded
should leave its history only once 500 newer results have pushed it out.
-/

namespace PiWatch

namespace Autochecks

namespace System

def reportsOf (sys : System) (name : String) : List Report :=
  sys.reports.filter fun r => r.name = name

/-- A configured check has recorded a result under the name. -/
def Configured (sys : System) (name : String) : Prop := ∃ r ∈ sys.reportsOf name, r.configured

/-- A result is still in the history of its name, with everything recorded after it. -/
def InHistory (sys : System) (name : String) (r : Report) (later : List Report) : Prop :=
  ∃ entry, sys.state.healthchecks.get? name = some entry ∧
    (later.length < checkHistoryLen →
      (r :: later).map Report.result <:+ entry.history.items)

/-- Every name a configured check has recorded a result under has an entry, and its results
are in the history up to the age-out. -/
def Kept (sys : System) : Prop :=
  ∀ name earlier r later, sys.reportsOf name = earlier ++ r :: later → r.configured →
    sys.InHistory name r later

/-- The action is a reconcile that drops a name a configured check has recorded under. -/
def DropsConfigured (sys : System) : Act → Prop
  | .reconcile _ => ∃ name ∈ sys.pool.current, name ∉ desired sys.state ∧ sys.Configured name
  | _ => False

end System

theorem kept_start (s : ClusterState) : (start s).Kept := by
  intro name earlier r later h
  simp [System.reportsOf, start] at h

/-- Whatever changes neither the results nor the healthchecks keeps them. -/
theorem System.Kept.congr {sys sys' : System} (h : sys.Kept)
    (hreports : sys'.reports = sys.reports)
    (hchecks : sys'.state.healthchecks = sys.state.healthchecks) : sys'.Kept := by
  intro name earlier r later hof hr
  rw [System.reportsOf, hreports] at hof
  obtain ⟨entry, hentry, hitems⟩ := h name earlier r later hof hr
  exact ⟨entry, hchecks ▸ hentry, hitems⟩

theorem System.Kept.mem {sys : System} (h : sys.Kept) {name : String}
    (hc : sys.Configured name) : name ∈ sys.state.healthchecks := by
  obtain ⟨r, hr, hconf⟩ := hc
  obtain ⟨earlier, later, hof⟩ := List.append_of_mem hr
  obtain ⟨entry, hentry, -⟩ := h name earlier r later hof hconf
  rw [Dict.mem_def, hentry]
  rfl

private theorem reportsOf_record (sys : System) (name name' : String) (configured : Bool)
    (config : Obj) (ok : Bool) (ms : Option ℚ) (detail : String) (tr t : Time) :
    (sys.record name' configured config ok ms detail tr t).reportsOf name =
      if name' = name then
        sys.reportsOf name ++ [⟨name', configured, ⟨tr, ok, ms, detail⟩⟩]
      else sys.reportsOf name := by
  rw [System.record, System.reportsOf, List.filter_append]
  by_cases h : name' = name
  · simp [h, System.reportsOf]
  · simp [h, System.reportsOf]

/-- The entry under a name after one more result. -/
private theorem get?_record_self (sys : System) (name : String) (configured : Bool)
    (config : Obj) (ok : Bool) (ms : Option ℚ) (detail : String) (tr t : Time) :
    ∃ entry, (sys.record name configured config ok ms detail tr t).state.healthchecks.get? name =
        some entry ∧
      entry.history = (((sys.state.healthchecks.get? name).getD
        ⟨config, none, none, ∅⟩).history.push ⟨tr, ok, ms, detail⟩) :=
  ⟨_, Dict.get?_insert_self _ _ _, rfl⟩

theorem System.Kept.record {sys : System} (h : sys.Kept) (name : String) (configured : Bool)
    (config : Obj) (ok : Bool) (ms : Option ℚ) (detail : String) (tr t : Time) :
    (sys.record name configured config ok ms detail tr t).Kept := by
  intro name' earlier r later hof hr
  rw [reportsOf_record] at hof
  by_cases hname : name = name'
  · subst hname
    rw [if_pos rfl] at hof
    obtain ⟨entry, hentry, hhistory⟩ :=
      get?_record_self sys name configured config ok ms detail tr t
    refine ⟨entry, hentry, fun hlen => ?_⟩
    rw [hhistory]
    -- the new result is the last one: the split point is it, or lies before it
    rcases List.eq_nil_or_concat' later with rfl | ⟨later, x, rfl⟩
    · obtain ⟨-, hlast⟩ := List.append_inj' hof rfl
      cases hlast
      exact Ring.suffix_push List.nil_suffix (by decide) _
    · rw [← List.cons_append, ← List.append_assoc] at hof
      obtain ⟨hold, hlast⟩ := List.append_inj' hof rfl
      cases hlast
      rw [List.length_append, List.length_singleton] at hlen
      obtain ⟨entry', hentry', hitems⟩ := h name earlier r later hold hr
      rw [hentry', Option.getD_some, ← List.cons_append, List.map_append]
      refine Ring.suffix_push (hitems (by omega)) ?_ _
      rw [List.length_map, List.length_cons]
      exact hlen
  · rw [if_neg hname] at hof
    obtain ⟨entry, hentry, hitems⟩ := h name' earlier r later hof hr
    refine ⟨entry, ?_, hitems⟩
    exact (get?_record_of_ne (Ne.symm hname) configured config ok ms detail tr t).trans hentry

/-- A reconcile keeps the configured results if and only if it drops none of their names. -/
theorem kept_reconcile_iff {sys : System} (h : sys.Kept) (t : Time) :
    (sys.reconcile t).Kept ↔ ¬ sys.DropsConfigured (.reconcile t) := by
  constructor
  · intro hkept hdrops
    obtain ⟨name, hcurrent, hdesired, hconf⟩ := hdrops
    have hmem : name ∈ (sys.reconcile t).state.healthchecks := by
      refine hkept.mem ?_
      rw [System.Configured, System.reportsOf, reports_reconcile]
      exact hconf
    rw [Dict.mem_def, get?_reconcile, if_pos ⟨hcurrent, hdesired⟩] at hmem
    cases hmem
  · intro hdrops name earlier r later hof hr
    rw [System.reportsOf, reports_reconcile] at hof
    obtain ⟨entry, hentry, hitems⟩ := h name earlier r later hof hr
    have hstays : ¬ (name ∈ sys.pool.current ∧ name ∉ desired sys.state) := by
      intro hdropped
      obtain ⟨hcurrent, hdesired⟩ := hdropped
      refine hdrops ⟨name, hcurrent, hdesired, r, ?_, hr⟩
      rw [System.reportsOf, hof]
      simp
    refine ⟨entry, ?_, hitems⟩
    rw [get?_reconcile, if_neg hstays, hentry]

/-- Any other step keeps them. -/
theorem kept_step {sys : System} (h : sys.Kept) {a : Act} (ha : ¬ a.IsReconcile) :
    (step sys a).Kept := by
  cases a with
  | reconcile t => exact absurd trivial ha
  | changed s => exact h.congr rfl rfl
  | resume id =>
    unfold step
    dsimp only
    split
    · exact h.congr rfl rfl
    · exact h.congr rfl rfl
    · exact h
  | probed id ok ms detail tr t =>
    unfold step
    dsimp only
    split
    · rename_i name check hrun
      exact (h.record name false (check.config name) ok ms detail tr t).congr rfl rfl
    · exact h
  | report name config ok ms detail tr t => exact h.record name true config ok ms detail tr t

theorem kept_step_iff {sys : System} (h : sys.Kept) (a : Act) :
    (step sys a).Kept ↔ ¬ sys.DropsConfigured a := by
  by_cases ha : a.IsReconcile
  · cases a with
    | reconcile t => exact kept_reconcile_iff h t
    | _ => exact ha.elim
  · refine ⟨fun _ hdrops => ?_, fun _ => kept_step h ha⟩
    cases a with
    | reconcile t => exact ha trivial
    | _ => exact hdrops

/-- What configured checks recorded is kept along a run if and only if no reconcile drops a
name one of them has recorded under. -/
theorem configured_kept_iff (s : ClusterState) (as : List Act) :
    AlongRun step (fun sys a => (step sys a).Kept) (start s) as ↔
      AlongRun step (fun sys a => ¬ sys.DropsConfigured a) (start s) as :=
  alongRun_congr (fun (sys : System) a (h : sys.Kept) => kept_step_iff h a)
    (fun _ a h hdrops => (kept_step_iff h a).mpr hdrops) (kept_start s) as

/-- A configured check named like the discovered one: it has reported once when the Service
disappears. -/
theorem configured_removed :
    ¬ ∀ s as, AlongRun step (fun sys a => (step sys a).Kept) (start s) as := by
  intro h
  obtain ⟨-, -, -, hkept, hreconcile, -⟩ := h (ClusterState.init 0)
    [.changed discovered, .reconcile 0,
      .report "media/jellyfin:8096" ∅ true (some 12) "HTTP 200" 5 5,
      .changed (discovered.step (.removeService jellyfin.key 10)), .reconcile 15]
  exact (kept_reconcile_iff hkept 15).mp hreconcile
    ⟨"media/jellyfin:8096", by decide, by decide, _, List.mem_cons_self, rfl⟩

end Autochecks

end PiWatch
