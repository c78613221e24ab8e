import PiWatch.Framework.Run
import PiWatch.Backend.Uptime

/-!
# Healthcheck entries

The entry of a check follows from what was recorded under its name since it was last removed.
-/

namespace PiWatch

open ClusterState

namespace Op

/-- The configuration and the result a call records under a name. -/
def recordedAs (name : String) : Op → Option (Obj × CheckResult)
  | recordCheck name' config ok latencyMs detail tr _ =>
    if name' = name then some (config, ⟨tr, ok, latencyMs, detail⟩) else none
  | _ => none

def removesCheck (name : String) : Op → Bool
  | removeCheck name' _ => name' = name
  | _ => false

end Op

/-- What was recorded under a name since its last removal. -/
def recordedSince (name : String) (ops : List Op) : List (Obj × CheckResult) :=
  (ops.rtakeWhile fun op => !op.removesCheck name).filterMap (Op.recordedAs name)

theorem recordedSince_concat (name : String) (ops : List Op) (op : Op) :
    recordedSince name (ops ++ [op]) =
      if op.removesCheck name then []
      else recordedSince name ops ++ (op.recordedAs name).toList := by
  rw [recordedSince, List.rtakeWhile_concat]
  cases hremoves : op.removesCheck name with
  | true => simp
  | false =>
    rw [if_pos (by simp), List.filterMap_append, if_neg (by simp), recordedSince]
    cases hrecorded : op.recordedAs name <;> simp [hrecorded]

/-- The history of a number of recorded results. -/
def historyOf (recorded : List (Obj × CheckResult)) : Ring checkHistoryLen CheckResult :=
  (∅ : Ring checkHistoryLen CheckResult).extend (recorded.map Prod.snd)

theorem items_historyOf (recorded : List (Obj × CheckResult)) :
    (historyOf recorded).items = (recorded.map Prod.snd).rtake checkHistoryLen := by
  rw [historyOf, Ring.items_extend, Ring.items_empty, List.nil_append]

/-- The entry of a check. -/
def checkEntryOf (recorded : List (Obj × CheckResult)) : Option CheckEntry :=
  recorded.getLast?.map fun (config, last) =>
    ⟨config, some last, some (uptimePct (historyOf recorded).items), historyOf recorded⟩

theorem history_checkEntryOf (recorded : List (Obj × CheckResult)) (config : Obj) :
    ((checkEntryOf recorded).getD ⟨config, none, none, ∅⟩).history = historyOf recorded := by
  unfold checkEntryOf
  cases h : recorded.getLast? with
  | none =>
    rw [List.getLast?_eq_none_iff.mp h]
    rfl
  | some x => rfl

theorem checkEntryOf_concat (recorded : List (Obj × CheckResult)) (config : Obj)
    (result : CheckResult) :
    checkEntryOf (recorded ++ [(config, result)]) =
      some ⟨config, some result, some (uptimePct ((historyOf recorded).push result).items),
        (historyOf recorded).push result⟩ := by
  have hpush : historyOf (recorded ++ [(config, result)]) = (historyOf recorded).push result := by
    simp [historyOf, Ring.extend]
  rw [checkEntryOf, List.getLast?_concat, Option.map_some, hpush]

/-- A call records a result, removes the entry, or leaves it. -/
theorem healthchecks_step {s : ClusterState} {name : String} {recorded : List (Obj × CheckResult)}
    (h : s.healthchecks.get? name = checkEntryOf recorded) (op : Op) :
    (s.step op).healthchecks.get? name =
      if op.removesCheck name then none
      else checkEntryOf (recorded ++ (op.recordedAs name).toList) := by
  cases op with
  | recordCheck name' config ok latencyMs detail tr t =>
    have hkeeps :
        (Op.recordCheck name' config ok latencyMs detail tr t).removesCheck name = false := rfl
    rw [hkeeps, if_neg Bool.false_ne_true, step, exec, recordCheck, Dict.get?_insert,
      Op.recordedAs]
    by_cases hname : name = name'
    · subst hname
      rw [if_pos rfl, if_pos rfl, Option.toList_some, checkEntryOf_concat, h, history_checkEntryOf]
    · rw [if_neg hname, if_neg (Ne.symm hname), Option.toList_none, List.append_nil, h]
  | removeCheck name' t =>
    rw [step, exec, removeCheck, Dict.get?_erase, Op.removesCheck]
    by_cases hname : name = name'
    · rw [if_pos hname, if_pos (decide_eq_true hname.symm)]
    · rw [if_neg hname, if_neg (by simpa using Ne.symm hname), h, Op.recordedAs,
        Option.toList_none, List.append_nil]
      simp
  | _ => exact h.trans (by simp [Op.removesCheck, Op.recordedAs])

/-- The entry of a check holds what was recorded since the last removal. -/
theorem healthchecks_run (t : Time) (ops : List Op) (name : String) :
    (runFrom ClusterState.step (ClusterState.init t) ops).healthchecks.get? name =
      checkEntryOf (recordedSince name ops) := by
  induction ops using List.reverseRecOn with
  | nil => rfl
  | append_singleton ops op ih =>
    rw [runFrom_append, runFrom_cons, runFrom_nil, healthchecks_step ih, recordedSince_concat]
    split_ifs <;> rfl

/-- What an entry says about the results it comes from. -/
structure CheckEntry.Summarizes (entry : CheckEntry) (recorded : List (Obj × CheckResult)) :
    Prop where
  history : entry.history.items = (recorded.map Prod.snd).rtake checkHistoryLen
  nonempty : 1 ≤ entry.history.items.length
  bounded : entry.history.items.length ≤ checkHistoryLen
  last : entry.last.isSome ∧ entry.last = entry.history.items.getLast?
  config : recorded.getLast?.map Prod.fst = some entry.config
  uptime : entry.uptimePct = some (pyRound 2
    (100 * (entry.history.items.countP (·.ok) : ℚ) / entry.history.items.length))
  /-- The floating point operations give the same. -/
  float : (((PyFloat.finite 100).mul (.finite (entry.history.items.countP (·.ok)))).div?
    (.finite entry.history.items.length)).map (PyFloat.round 2) =
      entry.uptimePct.map PyFloat.ofRat
  range : ∀ uptime, entry.uptimePct = some uptime → 0 ≤ uptime ∧ uptime ≤ 100
  full : entry.uptimePct = some 100 ↔ ∀ r ∈ entry.history.items, r.ok
  zero : entry.uptimePct = some 0 ↔ ∀ r ∈ entry.history.items, ¬ r.ok

theorem summarizes_of_checkEntryOf {recorded : List (Obj × CheckResult)} {entry : CheckEntry}
    (h : checkEntryOf recorded = some entry) : entry.Summarizes recorded := by
  rcases List.eq_nil_or_concat recorded with rfl | ⟨earlier, ⟨config, result⟩, rfl⟩
  · cases h
  rw [List.concat_eq_append] at h ⊢
  rw [checkEntryOf_concat, Option.some.injEq] at h
  subst h
  have hlast := Ring.getLast?_push (r := historyOf earlier) (by decide) result
  have hbounded := ((historyOf earlier).push result).bounded
  have hne : ((historyOf earlier).push result).items ≠ [] := by
    intro hnil
    rw [hnil] at hlast
    cases hlast
  refine ⟨?_, List.length_pos_of_ne_nil hne, hbounded, ⟨rfl, hlast.symm⟩, by simp, rfl,
    uptimePct_float hne hbounded, ?_, ?_, ?_⟩
  · rw [← items_historyOf, historyOf, historyOf]
    simp [Ring.extend]
  · intro uptime huptime
    obtain rfl := Option.some.inj huptime
    exact uptimePct_range hne hbounded
  · rw [Option.some.injEq]
    exact uptimePct_eq_hundred_iff hne hbounded
  · rw [Option.some.injEq]
    exact uptimePct_eq_zero_iff hne hbounded

end PiWatch
