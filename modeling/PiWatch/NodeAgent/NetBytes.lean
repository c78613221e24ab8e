import Mathlib.Algebra.BigOperators.Group.Finset.Piecewise
import Mathlib.Algebra.Order.BigOperators.Group.Finset
import PiWatch.NodeAgent.IoConserve

/-!
# Network throughput

The counters of the physical interfaces are summed up before a rate is derived. An interface may
be missing from one sum and part of the next one.
-/

namespace PiWatch

namespace NodeAgent

open Finset

/-! ## Reading the interfaces -/

/-- The running sums of `read_net_bytes`, and whether an interface could be read. -/
structure NetTotals where
  rx : ℤ
  tx : ℤ
  ok : Bool

/-- One turn of the loop. The second file may be unreadable after the first was added. -/
def addIface (reading : String → Flow → Option ℤ) (total : NetTotals) (iface : String) :
    NetTotals :=
  match reading iface .input with
  | none => total
  | some rx =>
    match reading iface .output with
    | none => { total with rx := total.rx + rx }
    | some tx => ⟨total.rx + rx, total.tx + tx, true⟩

def readNetBytes (reading : String → Flow → Option ℤ) (ifaces : List String) :
    Option (ℤ × ℤ) :=
  let total := ifaces.foldl (addIface reading) ⟨0, 0, false⟩
  if total.ok then some (total.rx, total.tx) else none

/-- What there is to read at a `/metrics` call: the physical interfaces, their counters, and which
of the two files of each can be read. -/
structure NetPoll where
  now : Time
  ifaces : List String
  nodup : ifaces.Nodup
  count : String → Flow → ℤ
  readable : String → Flow → Bool

namespace NetPoll

/-- What a file yields when the counters are `count`. -/
def reading (p : NetPoll) (count : String → Flow → ℤ) (iface : String) (flow : Flow) : Option ℤ :=
  if p.readable iface flow then some (count iface flow) else none

def netBytes (p : NetPoll) : Option (ℤ × ℤ) := readNetBytes (p.reading p.count) p.ifaces

/-- The interfaces whose counter is added. -/
def counted (p : NetPoll) : Flow → Finset String
  | .input => p.ifaces.toFinset.filter fun i => p.readable i .input
  | .output => p.ifaces.toFinset.filter fun i => p.readable i .input ∧ p.readable i .output

/-- Some interface can be read. -/
def Sampled (p : NetPoll) : Prop := (p.counted .output).Nonempty

end NetPoll

private theorem foldl_addIface (p : NetPoll) (count : String → Flow → ℤ) {ifaces : List String}
    (hnodup : ifaces.Nodup) (total : NetTotals) :
    ifaces.foldl (addIface (p.reading count)) total =
      ⟨total.rx + ∑ i ∈ ifaces.toFinset.filter fun i => p.readable i .input, count i .input,
        total.tx + ∑ i ∈ ifaces.toFinset.filter fun i => p.readable i .input ∧ p.readable i .output,
          count i .output,
        total.ok || ifaces.any fun i => p.readable i .input && p.readable i .output⟩ := by
  induction ifaces generalizing total with
  | nil => simp
  | cons iface ifaces ih =>
    obtain ⟨hnew, hnodup⟩ := List.nodup_cons.mp hnodup
    have hnew' : iface ∉ ifaces.toFinset := by simpa using hnew
    rw [List.foldl_cons, ih hnodup, List.toFinset_cons, filter_insert, filter_insert, List.any_cons]
    cases hrx : p.readable iface .input with
    | false => simp [addIface, NetPoll.reading, hrx]
    | true =>
      cases htx : p.readable iface .output with
      | false => simp [addIface, NetPoll.reading, hrx, htx, hnew, add_assoc]
      | true => simp [addIface, NetPoll.reading, hrx, htx, hnew, add_assoc]

/-- A pair of sums is returned if one interface can be read, each over what is counted. -/
theorem readNetBytes_eq (p : NetPoll) (count : String → Flow → ℤ) :
    readNetBytes (p.reading count) p.ifaces =
      if (p.counted .output).Nonempty then
        some (∑ i ∈ p.counted .input, count i .input, ∑ i ∈ p.counted .output, count i .output)
      else none := by
  have hok : (p.ifaces.any fun i => p.readable i .input && p.readable i .output) = true ↔
      (p.counted .output).Nonempty := by
    simp [NetPoll.counted, Finset.Nonempty]
  rw [readNetBytes, foldl_addIface p count p.nodup]
  simp only [Bool.false_or, zero_add]
  by_cases h : (p.counted .output).Nonempty
  · rw [if_pos h, if_pos (hok.mpr h)]
    rfl
  · rw [if_neg h, if_neg (fun h' => h (hok.mp h'))]

/-! ## One set of interfaces -/

namespace NetPoll

/-- Both sums are taken over the same interfaces, whatever the counters are. -/
def SameSet (p : NetPoll) : Prop :=
  p.netBytes.isSome → ∃ T : Finset String, ∀ count,
    readNetBytes (p.reading count) p.ifaces =
      some (∑ i ∈ T, count i .input, ∑ i ∈ T, count i .output)

/-- Once an interface can be read, no other one is half readable. -/
def Paired (p : NetPoll) : Prop :=
  p.Sampled → ∀ i ∈ p.ifaces, p.readable i .input → p.readable i .output

theorem isSome_netBytes_iff (p : NetPoll) : p.netBytes.isSome ↔ p.Sampled := by
  rw [netBytes, readNetBytes_eq, Sampled]
  split_ifs with h <;> simp [h]

theorem sameSet_iff (p : NetPoll) : p.SameSet ↔ p.Paired := by
  rw [SameSet, isSome_netBytes_iff, Paired]
  refine imp_congr_right fun hsampled => ?_
  simp only [readNetBytes_eq, if_pos (show (p.counted .output).Nonempty from hsampled),
    Option.some.injEq, Prod.mk.injEq]
  constructor
  · intro h i hi hrx
    obtain ⟨T, hT⟩ := h
    -- the counters are zero but for the interface in question
    obtain ⟨hinput, houtput⟩ := hT fun j _ => if j = i then 1 else 0
    simp only [sum_ite_eq'] at hinput houtput
    have hcounted : i ∈ p.counted .input := by simp [counted, hi, hrx]
    rw [if_pos hcounted] at hinput
    have hmem : i ∈ T := by
      by_contra hmem
      rw [if_neg hmem] at hinput
      cases hinput
    rw [if_pos hmem] at houtput
    by_contra htx
    rw [if_neg (by simp [counted, htx])] at houtput
    cases houtput
  · intro h
    have hsame : p.counted .input = p.counted .output := by
      ext i
      simp only [counted, mem_filter, List.mem_toFinset]
      constructor
      · intro hi
        exact ⟨hi.1, hi.2, h i hi.1 hi.2⟩
      · intro hi
        exact ⟨hi.1, hi.2.1⟩
    exact ⟨p.counted .output, fun count => ⟨by rw [hsame], rfl⟩⟩

/-! ## Growth -/

/-- The clock moves on, and no counter goes back. -/
def Later (p q : NetPoll) : Prop := p.now < q.now ∧ ∀ i flow, p.count i flow ≤ q.count i flow

/-- What the interfaces have carried between two calls. -/
def growth (all : Finset String) (flow : Flow) (p q : NetPoll) : ℤ :=
  ∑ i ∈ all, (q.count i flow - p.count i flow)

/-- What the interfaces counted anew had carried before is made up for by those that are counted
no longer and by what has not been counted. -/
def NoOvercount (all : Finset String) (flow : Flow) (p q : NetPoll) : Prop :=
  ∑ i ∈ q.counted flow \ p.counted flow, p.count i flow ≤
    ∑ i ∈ p.counted flow \ q.counted flow, p.count i flow +
      ∑ i ∈ all \ q.counted flow, (q.count i flow - p.count i flow)

theorem sum_sub_sum_le_iff {all : Finset String} {flow : Flow} {p q : NetPoll}
    (hq : q.counted flow ⊆ all) :
    ∑ i ∈ q.counted flow, q.count i flow - ∑ i ∈ p.counted flow, p.count i flow ≤
      growth all flow p q ↔ NoOvercount all flow p q := by
  have hnew := sum_inter_add_sum_sdiff (q.counted flow) (p.counted flow) fun i => p.count i flow
  have hold := sum_inter_add_sum_sdiff (p.counted flow) (q.counted flow) fun i => p.count i flow
  have hgrowth := sum_sdiff (f := fun i => q.count i flow - p.count i flow) hq
  rw [inter_comm] at hold
  rw [sum_sub_distrib (s := q.counted flow)] at hgrowth
  rw [growth, NoOvercount]
  constructor <;> intro h <;> linarith

theorem growth_nonneg {all : Finset String} {flow : Flow} {p q : NetPoll} (h : p.Later q) :
    0 ≤ growth all flow p q :=
  sum_nonneg fun i _ => sub_nonneg.mpr (h.2 i flow)

/-- The `/metrics` call as the rate of the network sees it. -/
def call (p : NetPoll) : Call where
  poller := 0
  nvme := ⟨p.now, none, none⟩
  sd := ⟨p.now, none, none⟩
  net := ⟨p.now, p.netBytes.map Prod.fst, p.netBytes.map Prod.snd⟩

open Classical in
theorem sample_call (p : NetPoll) :
    Meter.net.sample p.call =
      if p.Sampled then some ⟨p.now, fun flow => ∑ i ∈ p.counted flow, p.count i flow⟩
      else none := by
  have hbytes := readNetBytes_eq p p.count
  by_cases h : p.Sampled
  · rw [if_pos (show (p.counted .output).Nonempty from h)] at hbytes
    simp only [Meter.sample, Meter.reading, call, netBytes, hbytes, if_pos h, Option.map_some,
      Option.some.injEq, IoSample.mk.injEq, true_and]
    funext flow
    cases flow <;> rfl
  · rw [if_neg (show ¬ (p.counted .output).Nonempty from h)] at hbytes
    simp only [Meter.sample, Meter.reading, call, netBytes, hbytes, if_neg h, Option.map_none]

theorem counted_subset {p : NetPoll} {all : Finset String} (h : ∀ i ∈ p.ifaces, i ∈ all)
    (flow : Flow) : p.counted flow ⊆ all := by
  intro i hi
  cases flow <;> exact h i (List.mem_toFinset.mp (mem_filter.mp hi).1)

/-- A rate refers to the last call before that could read an interface. -/
theorem exists_previous {before : List NetPoll} {prev : IoSample}
    (h : Meter.net.last (runFrom step start (before.map call)) = some prev) :
    ∃ pre p between, before = pre ++ p :: between ∧ Meter.net.sample p.call = some prev ∧
      ∀ b ∈ between, ¬ b.Sampled := by
  rw [last_runFrom, last_start, Option.or_none, List.filterMap_map, List.getLast?_filterMap,
    List.findSome?_eq_some_iff] at h
  obtain ⟨later, p, earlier, hsplit, hp, hlater⟩ := h
  refine ⟨earlier.reverse, p, later.reverse, ?_, hp, fun b hb hsampled => ?_⟩
  · rw [← List.reverse_reverse before, hsplit]
    simp
  · have hnone := hlater b (List.mem_reverse.mp hb)
    rw [Function.comp_apply, sample_call, if_pos hsampled] at hnone
    cases hnone

theorem eq_of_sample_call {p : NetPoll} {x : IoSample} (h : Meter.net.sample p.call = some x) :
    p.Sampled ∧ x.t = p.now ∧ ∀ flow, x.count flow = ∑ i ∈ p.counted flow, p.count i flow := by
  rw [sample_call] at h
  split_ifs at h with hsampled
  obtain rfl := Option.some.inj h
  exact ⟨hsampled, rfl, fun _ => rfl⟩

end NetPoll

/-! ## Throughput -/

/-- A reported rate stands for no more than the interfaces carried since the last call that read
any, up to rounding. -/
def RateBounded (all : Finset String) (before : List NetPoll) (q : NetPoll) : Prop :=
  ∀ flow r, Meter.net.rate (runFrom step start (before.map NetPoll.call)) q.call flow = some r →
    ∃ pre p between, before = pre ++ p :: between ∧ p.Sampled ∧ (∀ b ∈ between, ¬ b.Sampled) ∧
      (r : ℚ) * (q.now - p.now) ≤ NetPoll.growth all flow p q + (q.now - p.now) / 2

theorem rateBounded {all : Finset String} {before : List NetPoll} {q : NetPoll}
    (hq : ∀ i ∈ q.ifaces, i ∈ all) (hlater : ∀ p ∈ before, p.Later q)
    (hcounted : ∀ pre p between, before = pre ++ p :: between → p.Sampled →
      (∀ b ∈ between, ¬ b.Sampled) → ∀ flow, NetPoll.NoOvercount all flow p q) :
    RateBounded all before q := by
  intro flow r hrate
  obtain ⟨prev, cur, hlast, hcur, ht⟩ := exists_sample_of_rate hrate
  obtain ⟨pre, p, between, hsplit, hprev, hbetween⟩ := NetPoll.exists_previous hlast
  obtain ⟨hsampled, htp, hcountp⟩ := NetPoll.eq_of_sample_call hprev
  obtain ⟨-, htq, hcountq⟩ := NetPoll.eq_of_sample_call hcur
  refine ⟨pre, p, between, hsplit, hsampled, hbetween, ?_⟩
  have hmem : p ∈ before := by simp [hsplit]
  have hdiff := (NetPoll.sum_sub_sum_le_iff (p := p) (NetPoll.counted_subset hq flow)).mpr
    (hcounted pre p between hsplit hsampled hbetween flow)
  have hmax : max 0 (cur.count flow - prev.count flow) * Meter.net.unit ≤
      NetPoll.growth all flow p q := by
    rw [Meter.unit, mul_one, hcountp, hcountq]
    exact max_le (NetPoll.growth_nonneg (hlater p hmem)) hdiff
  have hmax' : ((max 0 (cur.count flow - prev.count flow) * Meter.net.unit : ℤ) : ℚ) ≤
      NetPoll.growth all flow p q := by exact_mod_cast hmax
  rw [rate_eq .net _ q.call flow hlast hcur ht, Option.some.injEq] at hrate
  have hnear := (abs_le.mp (abs_roundHalfEven_sub_le
    ((max 0 (cur.count flow - prev.count flow) * Meter.net.unit : ℤ) / (cur.t - prev.t)))).2
  rw [hrate, htp, htq] at hnear
  rw [htp, htq] at ht
  have helapsed : 0 < q.now - p.now := sub_pos.mpr ht
  rw [sub_le_iff_le_add] at hnear
  calc (r : ℚ) * (q.now - p.now)
      ≤ (1 / 2 + (max 0 (cur.count flow - prev.count flow) * Meter.net.unit : ℤ) /
          (q.now - p.now)) * (q.now - p.now) := mul_le_mul_of_nonneg_right hnear helapsed.le
    _ = (max 0 (cur.count flow - prev.count flow) * Meter.net.unit : ℤ) +
          (q.now - p.now) / 2 := by
      field_simp
      ring
    _ ≤ NetPoll.growth all flow p q + (q.now - p.now) / 2 := by linarith

/-- In a run of calls none of which counts an interface's earlier traffic, no rate exceeds the
traffic; and a pair of sums is over one set of interfaces exactly if none is half readable. -/
theorem throughput_bounded (all : Finset String) (polls : List NetPoll)
    (hall : ∀ p ∈ polls, ∀ i ∈ p.ifaces, i ∈ all) (hlater : polls.Pairwise NetPoll.Later)
    (hcounted : ∀ pre p between q after, polls = pre ++ p :: (between ++ q :: after) →
      p.Sampled → (∀ b ∈ between, ¬ b.Sampled) → q.Sampled →
      ∀ flow, NetPoll.NoOvercount all flow p q) :
    (∀ before q after, polls = before ++ q :: after → RateBounded all before q) ∧
    ∀ p : NetPoll, p.SameSet ↔ p.Paired := by
  refine ⟨?_, NetPoll.sameSet_iff⟩
  intro before q after hsplit
  rw [hsplit, List.pairwise_append] at hlater
  have hq : ∀ i ∈ q.ifaces, i ∈ all := hall q (by simp [hsplit])
  by_cases hsampled : q.Sampled
  · refine rateBounded hq (fun p hp => hlater.2.2 p hp q List.mem_cons_self) ?_
    intro pre p between hbefore hp hbetween flow
    refine hcounted pre p between q after ?_ hp hbetween hsampled flow
    rw [hsplit, hbefore, List.append_assoc, List.cons_append]
  · intro flow r hrate
    obtain ⟨-, cur, -, hcur, -⟩ := exists_sample_of_rate hrate
    exact absurd (NetPoll.eq_of_sample_call hcur).1 hsampled

/-- A call that finds a wired and a wireless interface. -/
private def nodePoll (t : Time) (wired wireless : ℤ) (readable : String → Flow → Bool) :
    NetPoll where
  now := t
  ifaces := ["eth0", "wlan0"]
  nodup := by simp
  count := fun i _ => if i = "eth0" then wired else wireless
  readable := readable

private theorem later_nodePoll {t u : Time} {a b c d : ℤ}
    {readable readable' : String → Flow → Bool} (ht : t < u) (hwired : a ≤ c) (hwireless : b ≤ d) :
    (nodePoll t a b readable).Later (nodePoll u c d readable') := by
  refine ⟨ht, fun i _ => ?_⟩
  change (if i = "eth0" then a else b) ≤ if i = "eth0" then c else d
  split_ifs
  · exact hwired
  · exact hwireless

theorem throughput_bounded_eth0 :
    RateBounded {"eth0", "wlan0"} [nodePoll 0 0 7 fun _ _ => true]
      (nodePoll 10 1000 7 fun _ _ => true) := by
  refine (throughput_bounded {"eth0", "wlan0"}
    [nodePoll 0 0 7 fun _ _ => true, nodePoll 10 1000 7 fun _ _ => true] ?_ ?_ ?_).1 _ _ [] rfl
  · simp [nodePoll]
  · simp [later_nodePoll]
  · intro pre p between q after hsplit _ _ _ flow
    have hp : p ∈ [nodePoll 0 0 7 fun _ _ => true, nodePoll 10 1000 7 fun _ _ => true] := by
      rw [hsplit]
      simp
    have hq : q ∈ [nodePoll 0 0 7 fun _ _ => true, nodePoll 10 1000 7 fun _ _ => true] := by
      rw [hsplit]
      simp
    rcases List.mem_pair.mp hp with rfl | rfl <;> rcases List.mem_pair.mp hq with rfl | rfl <;>
      cases flow <;> (unfold NetPoll.NoOvercount; decide)

/-- A wireless interface that can be read again brings its five gigabytes into one rate though
nothing was carried; and while only one of its two files can be read, it is part of one sum. -/
theorem throughput_reappearing :
    (nodePoll 0 1000 5000000000 fun i _ => i = "eth0").Later
      (nodePoll 10 1000 5000000000 fun _ _ => true) ∧
    (∀ all, ¬ RateBounded all [nodePoll 0 1000 5000000000 fun i _ => i = "eth0"]
      (nodePoll 10 1000 5000000000 fun _ _ => true)) ∧
    (nodePoll 0 1000 7 fun i flow => i = "eth0" ∨ flow = .input).netBytes = some (1007, 1000) ∧
    ¬ (nodePoll 0 1000 7 fun i flow => i = "eth0" ∨ flow = .input).SameSet := by
  refine ⟨later_nodePoll (by norm_num) le_rfl le_rfl, ?_, by decide, ?_⟩
  · intro all h
    have hlast : Meter.net.last (runFrom step start
        ([nodePoll 0 1000 5000000000 fun i _ => i = "eth0"].map NetPoll.call)) =
        some ⟨0, fun | .input => 1000 | .output => 1000⟩ := by
      rw [List.map_singleton, runFrom_cons, runFrom_nil, last_step]
      rfl
    have hcur : Meter.net.sample (nodePoll 10 1000 5000000000 fun _ _ => true).call =
        some ⟨10, fun | .input => 5000001000 | .output => 5000001000⟩ := rfl
    have hrate := rate_eq .net _ (nodePoll 10 1000 5000000000 fun _ _ => true).call .input hlast
      hcur (by norm_num)
    have hround : roundHalfEven (500000000 : ℚ) = 500000000 := roundHalfEven_intCast 500000000
    norm_num [Meter.unit, hround] at hrate
    obtain ⟨pre, p, between, hsplit, -, -, hbound⟩ := h .input _ hrate
    have hp : p ∈ [nodePoll 0 1000 5000000000 fun i _ => i = "eth0"] := by
      rw [hsplit]
      simp
    obtain rfl := List.mem_singleton.mp hp
    have hgrowth : NetPoll.growth all .input (nodePoll 0 1000 5000000000 fun i _ => i = "eth0")
        (nodePoll 10 1000 5000000000 fun _ _ => true) = 0 := by
      simp [NetPoll.growth, nodePoll]
    rw [hgrowth] at hbound
    norm_num [nodePoll] at hbound
  · rw [NetPoll.sameSet_iff]
    intro h
    have hsampled : (nodePoll 0 1000 7 fun i flow => i = "eth0" ∨ flow = .input).Sampled := by
      unfold NetPoll.Sampled
      decide
    have hhalf := h hsampled "wlan0" (by simp [nodePoll]) (by simp [nodePoll])
    simp [nodePoll] at hhalf

end NodeAgent

end PiWatch
