import PiWatch.NodeAgent.IoRate

/-!
# Conservation of traffic

Calls without counters leave the previous sample alone, so the rates of the others account
for the whole growth from the first sample to the last one.
-/

namespace PiWatch

namespace NodeAgent

/-! ## Raising divisions -/

/-- `a / b`. -/
def divide (a b : ℚ) : Except PyError ℚ :=
  if b = 0 then .error .zeroDivisionError else .ok (a / b)

/-- `ioRate` with the exceptions of its divisions. -/
def ioRateOrRaise (unit : ℤ) (inputKey outputKey : String) (last : Option IoSample) (now : Time)
    (input output : Option ℤ) : Except PyError (Option IoSample × List (String × ℤ)) :=
  match input, output with
  | some inputCount, some outputCount =>
    let sample : IoSample := ⟨now, fun | .input => inputCount | .output => outputCount⟩
    match last with
    | none => .ok (some sample, [])
    | some prev =>
      let elapsed := now - prev.t
      if elapsed ≤ 0 then .ok (some sample, [])
      else do
        let inputRate ← divide (max 0 (inputCount - prev.count .input) * unit : ℤ) elapsed
        let outputRate ← divide (max 0 (outputCount - prev.count .output) * unit : ℤ) elapsed
        .ok (some sample,
          [(inputKey, roundHalfEven inputRate), (outputKey, roundHalfEven outputRate)])
  | _, _ => .ok (last, [])

theorem ioRateOrRaise_eq (unit : ℤ) (inputKey outputKey : String) (last : Option IoSample)
    (now : Time) (input output : Option ℤ) :
    ioRateOrRaise unit inputKey outputKey last now input output =
      .ok (ioRate unit inputKey outputKey last now input output) := by
  cases input with
  | none => rfl
  | some inputCount =>
    cases output with
    | none => rfl
    | some outputCount =>
      cases last with
      | none => rfl
      | some prev =>
        by_cases helapsed : now - prev.t ≤ 0
        · exact (if_pos helapsed).trans (congrArg Except.ok (if_pos helapsed).symm)
        · have hne : now - prev.t ≠ 0 := fun h => helapsed h.le
          simp only [ioRateOrRaise, ioRate, divide, if_neg helapsed, if_neg hne]
          rfl

/-! ## Gaps -/

/-- A meter remembers the last sample it could take. -/
theorem last_runFrom (m : Meter) (s : IoState) (calls : List Call) :
    m.last (runFrom step s calls) = (calls.filterMap m.sample).getLast?.or (m.last s) := by
  induction calls generalizing s with
  | nil => rfl
  | cons c calls ih =>
    rw [runFrom_cons, ih, last_step]
    cases hc : m.sample c with
    | none => rw [List.filterMap_cons_none hc, Option.none_or]
    | some x =>
      rw [List.filterMap_cons_some hc, List.getLast?_cons, Option.some_or]
      cases (calls.filterMap m.sample).getLast? <;> rfl

/-- The rates depend on nothing but the previous sample. -/
theorem rate_congr {m : Meter} {s s' : IoState} (h : m.last s = m.last s') (c : Call)
    (flow : Flow) : m.rate s c flow = m.rate s' c flow := by
  rw [rate_eq_lookup, rate_eq_lookup, h]

theorem credited_congr {m : Meter} {s s' : IoState} (h : m.last s = m.last s')
    (flow : Flow) (calls : List Call) : m.credited flow s calls = m.credited flow s' calls := by
  induction calls generalizing s s' with
  | nil => rfl
  | cons c calls ih =>
    have hstep : m.last (step s c) = m.last (step s' c) := by
      rw [last_step, last_step, h]
    rw [Meter.credited, Meter.credited, ih hstep, rate_congr h, h]

/-- A call without counters is credited nothing and does not disturb the others. -/
theorem credited_filter (m : Meter) (flow : Flow) (s : IoState) (calls : List Call) :
    m.credited flow s calls = m.credited flow s (calls.filter fun c => (m.sample c).isSome) := by
  induction calls generalizing s with
  | nil => rfl
  | cons c calls ih =>
    cases hc : m.sample c with
    | none =>
      have hlast : m.last (step s c) = m.last s := by
        rw [last_step, hc, Option.none_or]
      have hzero : m.credited flow s (c :: calls) = m.credited flow (step s c) calls := by
        rw [Meter.credited, hc]
        cases m.last s <;> exact zero_add _
      rw [hzero, credited_congr hlast, ih, List.filter_cons_of_neg (by simp [hc])]
    | some x =>
      rw [List.filter_cons_of_pos (by simp [hc]), Meter.credited, Meter.credited, ih]

private theorem filterMap_sample (m : Meter) (calls : List Call) :
    (calls.filter fun c => (m.sample c).isSome).filterMap m.sample =
      calls.filterMap m.sample := by
  rw [List.filterMap_filter]
  congr 1
  funext c
  cases hc : m.sample c <;> simp

private theorem head?_filterMap_of_isSome {α β : Type*} {f : α → Option β} {l : List α}
    (h : ∀ a ∈ l, (f a).isSome) : (l.filterMap f).head? = l.head?.bind f := by
  cases l with
  | nil => rfl
  | cons a l =>
    obtain ⟨b, hb⟩ := Option.isSome_iff_exists.mp (h a List.mem_cons_self)
    rw [List.filterMap_cons_some hb, List.head?_cons, List.head?_cons, Option.bind_some, hb]

private theorem getLast?_filterMap_of_isSome {α β : Type*} {f : α → Option β} {l : List α}
    (h : ∀ a ∈ l, (f a).isSome) : (l.filterMap f).getLast? = l.getLast?.bind f := by
  rw [List.getLast?_eq_head?_reverse, ← List.filterMap_reverse, List.getLast?_eq_head?_reverse]
  refine head?_filterMap_of_isSome fun a ha => h a (List.mem_reverse.mp ha)

/-- A rate stands for time gone by since the previous sample. -/
theorem exists_sample_of_rate {m : Meter} {s : IoState} {c : Call} {flow : Flow} {r : ℤ}
    (h : m.rate s c flow = some r) :
    ∃ prev cur, m.last s = some prev ∧ m.sample c = some cur ∧ prev.t < cur.t := by
  cases hlast : m.last s with
  | none =>
    rw [rate_none m s c flow hlast] at h
    cases h
  | some prev =>
    rw [rate_eq_lookup, hlast] at h
    unfold rates ioRate at h
    split at h
    · rename_i input output hinput houtput
      refine ⟨prev, _, rfl, by rw [Meter.sample, hinput, houtput], ?_⟩
      by_contra hle
      simp only [if_pos (sub_nonpos.mpr (not_lt.mp hle))] at h
      cases h
    · cases h

/-- No rate is negative, whatever the counters and the clock do. -/
theorem rate_nonneg {m : Meter} {s : IoState} {c : Call} {flow : Flow} {r : ℤ}
    (h : m.rate s c flow = some r) : 0 ≤ r := by
  obtain ⟨prev, cur, hlast, hcur, ht⟩ := exists_sample_of_rate h
  rw [rate_eq m s c flow hlast hcur ht, Option.some.injEq] at h
  have hunit : 0 ≤ m.unit := by
    cases m <;> decide
  have hcredit : (0 : ℚ) ≤ (max 0 (cur.count flow - prev.count flow) * m.unit : ℤ) :=
    Int.cast_nonneg (mul_nonneg (le_max_left _ _) hunit)
  have hquot := div_nonneg hcredit (sub_pos.mpr ht).le
  have hnear := (abs_le.mp (abs_roundHalfEven_sub_le
    ((max 0 (cur.count flow - prev.count flow) * m.unit : ℤ) / (cur.t - prev.t)))).1
  rw [h] at hnear
  have hlt : (-1 : ℚ) < r := by linarith
  have hlt' : -1 < r := by exact_mod_cast hlt
  omega

/-- The rates of a meter account for all bytes moved between its first sample and its last, gaps
or not; and never, whatever is read, does a rate function raise or report a negative rate. -/
theorem rates_conserve (m : Meter) (flow : Flow) :
    (∀ calls : List Call, calls.Pairwise m.Later → ∀ x y,
      (calls.filterMap m.sample).head? = some x → (calls.filterMap m.sample).getLast? = some y →
      |m.credited flow start calls - m.growth flow x y| ≤ (y.t - x.t) / 2) ∧
    (∀ s c, ioRateOrRaise m.unit (m.key .input) (m.key .output) (m.last s) (m.reading c).now
        (m.reading c).input (m.reading c).output =
      .ok (m.last (step s c), rates m (m.last s) (m.reading c))) ∧
    ∀ s c r, m.rate s c flow = some r → 0 ≤ r := by
  refine ⟨?_, ?_, fun s c r h => rate_nonneg h⟩
  · intro calls hinc x y hhead hend
    rw [← filterMap_sample] at hhead hend
    rw [credited_filter]
    have hread : ∀ c ∈ calls.filter fun c => (m.sample c).isSome, (m.sample c).isSome := by
      simp
    rw [head?_filterMap_of_isSome hread, Option.bind_eq_some_iff] at hhead
    rw [getLast?_filterMap_of_isSome hread, Option.bind_eq_some_iff] at hend
    obtain ⟨first, hfirst, hx⟩ := hhead
    obtain ⟨last, hlast, hy⟩ := hend
    exact credited_start_near m flow hread (hinc.filter _) hfirst hlast hx hy
  · intro s c
    rw [ioRateOrRaise_eq]
    cases m <;> rfl

/-- 3000 bytes come in over 10 s, in the middle of which the counters cannot be read. -/
theorem rates_conserve_net :
    |Meter.net.credited .input start
        [netCall 0 0 1000, ⟨0, ⟨4, none, none⟩, ⟨4, none, none⟩, ⟨4, none, none⟩⟩,
          netCall 0 10 4000] -
      Meter.net.growth .input ⟨0, fun | .input => 1000 | .output => 0⟩
        ⟨10, fun | .input => 4000 | .output => 0⟩| ≤ (10 - 0) / 2 := by
  have hgap : ∀ c, Meter.net.Later c ⟨0, ⟨4, none, none⟩, ⟨4, none, none⟩, ⟨4, none, none⟩⟩ := by
    intro c prev cur _ hcur
    cases hcur
  have hgap' : ∀ c, Meter.net.Later ⟨0, ⟨4, none, none⟩, ⟨4, none, none⟩, ⟨4, none, none⟩⟩ c := by
    intro c prev cur hprev
    cases hprev
  exact (rates_conserve .net .input).1 _ (by simp [hgap, hgap', later_netCall]) _ _ rfl rfl

end NodeAgent

end PiWatch
