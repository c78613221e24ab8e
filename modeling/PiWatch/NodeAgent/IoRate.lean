import Mathlib.Tactic.Linarith
import PiWatch.Framework.Run
import PiWatch.Backend.Floats

/-!
# Throughput rates of the node agent

The agent derives rates from cumulative counters. The previous sample is one variable for
the whole process, so a rate covers the time since the previous `/metrics` call, whoever
made it.
-/

namespace PiWatch

namespace NodeAgent

/-- NVMe data units are units of 512000 bytes. -/
def nvmeDataUnitBytes : ℤ := 512000

inductive Flow
  | input
  | output
  deriving DecidableEq

/-- A counter sample: what was read or received, what was written or sent. -/
structure IoSample where
  t : Time
  count : Flow → ℤ

/-- The next previous sample and the rates. The counters are units of `unit` bytes. -/
def ioRate (unit : ℤ) (inputKey outputKey : String) (last : Option IoSample) (now : Time)
    (input output : Option ℤ) : Option IoSample × List (String × ℤ) :=
  match input, output with
  | some inputCount, some outputCount =>
    let sample : IoSample := ⟨now, fun | .input => inputCount | .output => outputCount⟩
    match last with
    | none => (some sample, [])
    | some prev =>
      let elapsed := now - prev.t
      if elapsed ≤ 0 then (some sample, [])
      else
        (some sample,
          [(inputKey,
              roundHalfEven ((max 0 (inputCount - prev.count .input) * unit : ℤ) / elapsed)),
            (outputKey,
              roundHalfEven ((max 0 (outputCount - prev.count .output) * unit : ℤ) / elapsed))])
  | _, _ => (last, [])

def nvmeIoRate : Option IoSample → Time → Option ℤ → Option ℤ →
    Option IoSample × List (String × ℤ) :=
  ioRate nvmeDataUnitBytes "nvme_read_bytes_per_s" "nvme_write_bytes_per_s"

def sdIoRate : Option IoSample → Time → Option ℤ → Option ℤ →
    Option IoSample × List (String × ℤ) :=
  ioRate 1 "sd_read_bytes_per_s" "sd_write_bytes_per_s"

def netIoRate : Option IoSample → Time → Option ℤ → Option ℤ →
    Option IoSample × List (String × ℤ) :=
  ioRate 1 "net_rx_bytes_per_s" "net_tx_bytes_per_s"

/-- What one rate function reads: the monotonic clock and two counters, if available. -/
structure Reading where
  now : Time
  input : Option ℤ
  output : Option ℤ

/-- A `/metrics` call with what it reads. -/
structure Call where
  poller : ℕ
  nvme : Reading
  sd : Reading
  net : Reading

/-- `_last_nvme_io`, `_last_sd_io` and `_last_net_io`. -/
structure IoState where
  lastNvmeIo : Option IoSample
  lastSdIo : Option IoSample
  lastNetIo : Option IoSample

def start : IoState := ⟨none, none, none⟩

/-- The rates in the payload of a `/metrics` call. -/
def metrics (s : IoState) (c : Call) : IoState × Dict String ℤ :=
  let nvme := nvmeIoRate s.lastNvmeIo c.nvme.now c.nvme.input c.nvme.output
  let sd := sdIoRate s.lastSdIo c.sd.now c.sd.input c.sd.output
  let net := netIoRate s.lastNetIo c.net.now c.net.input c.net.output
  (⟨nvme.1, sd.1, net.1⟩, Dict.ofList (nvme.2 ++ sd.2 ++ net.2))

def step (s : IoState) (c : Call) : IoState := (metrics s c).1

/-! ## The three meters -/

inductive Meter
  | nvme
  | sd
  | net

namespace Meter

def unit : Meter → ℤ
  | nvme => nvmeDataUnitBytes
  | sd | net => 1

def key : Meter → Flow → String
  | nvme, .input => "nvme_read_bytes_per_s"
  | nvme, .output => "nvme_write_bytes_per_s"
  | sd, .input => "sd_read_bytes_per_s"
  | sd, .output => "sd_write_bytes_per_s"
  | net, .input => "net_rx_bytes_per_s"
  | net, .output => "net_tx_bytes_per_s"

def last : Meter → IoState → Option IoSample
  | nvme, s => s.lastNvmeIo
  | sd, s => s.lastSdIo
  | net, s => s.lastNetIo

def reading : Meter → Call → Reading
  | nvme, c => c.nvme
  | sd, c => c.sd
  | net, c => c.net

/-- The rate a call gets from a meter. -/
def rate (m : Meter) (s : IoState) (c : Call) (flow : Flow) : Option ℤ :=
  (metrics s c).2.get? (m.key flow)

/-- The sample a call takes, if the counters can be read. -/
def sample (m : Meter) (c : Call) : Option IoSample :=
  match (m.reading c).input, (m.reading c).output with
  | some input, some output =>
    some ⟨(m.reading c).now, fun | .input => input | .output => output⟩
  | _, _ => none

/-- The growth of a counter between two samples, in bytes. -/
def growth (m : Meter) (flow : Flow) (prev cur : IoSample) : ℤ :=
  (cur.count flow - prev.count flow) * m.unit

/-- The counters never decrease, and the clock moves on. -/
def Later (m : Meter) (c d : Call) : Prop :=
  ∀ prev cur, m.sample c = some prev → m.sample d = some cur →
    prev.t < cur.t ∧ ∀ flow, prev.count flow ≤ cur.count flow

/-- Rate times time since the sample it refers to, summed over the calls. -/
def credited (m : Meter) (flow : Flow) : IoState → List Call → ℚ
  | _, [] => 0
  | s, c :: calls =>
    (match m.last s, m.sample c with
      | some prev, some cur => ((m.rate s c flow).getD 0 : ℚ) * (cur.t - prev.t)
      | _, _ => 0) + credited m flow (step s c) calls

end Meter

/-- The rates a meter adds to the payload. -/
def rates (m : Meter) (last : Option IoSample) (r : Reading) : List (String × ℤ) :=
  (ioRate m.unit (m.key .input) (m.key .output) last r.now r.input r.output).2

theorem rates_eq (m : Meter) (last : Option IoSample) (r : Reading) :
    rates m last r = [] ∨ ∃ x y, rates m last r = [(m.key .input, x), (m.key .output, y)] := by
  unfold rates ioRate
  split
  · split
    · exact Or.inl rfl
    · dsimp only
      split_ifs
      · exact Or.inl rfl
      · exact Or.inr ⟨_, _, rfl⟩
  · exact Or.inl rfl

private theorem key_ne {m m' : Meter} (h : m ≠ m') (flow flow' : Flow) :
    m.key flow ≠ m'.key flow' := by
  cases m <;> cases m' <;> first
    | exact absurd rfl h
    | (cases flow <;> cases flow' <;> decide)

/-- A meter adds nothing under another meter's keys. -/
private theorem lookup_rates_of_ne {m m' : Meter} (h : m ≠ m') (last : Option IoSample)
    (r : Reading) (flow : Flow) : (rates m' last r).reverse.lookup (m.key flow) = none := by
  have hkey : ∀ flow', (m.key flow == m'.key flow') = false :=
    fun flow' => beq_eq_false_iff_ne.mpr (key_ne h flow flow')
  rcases rates_eq m' last r with hnil | ⟨x, y, hrates⟩
  · rw [hnil]
    rfl
  · simp [hrates, List.lookup_cons, hkey]

private theorem lookup_rates (m : Meter) (last : Option IoSample) (r : Reading) (flow : Flow) :
    (rates m last r).reverse.lookup (m.key flow) = (rates m last r).lookup (m.key flow) := by
  rcases rates_eq m last r with hnil | ⟨x, y, hrates⟩
  · rw [hnil]
    rfl
  · cases m <;> cases flow <;> simp [hrates, List.lookup_cons, Meter.key]

theorem rate_eq_lookup (m : Meter) (s : IoState) (c : Call) (flow : Flow) :
    m.rate s c flow = (rates m (m.last s) (m.reading c)).lookup (m.key flow) := by
  change (Dict.ofList (rates .nvme s.lastNvmeIo c.nvme ++ rates .sd s.lastSdIo c.sd ++
    rates .net s.lastNetIo c.net)).get? (m.key flow) = _
  rw [Dict.get?_ofList, List.reverse_append, List.reverse_append, List.lookup_append,
    List.lookup_append, ← lookup_rates]
  cases m with
  | nvme =>
    rw [lookup_rates_of_ne (by simp), lookup_rates_of_ne (by simp), Option.none_or,
      Option.none_or]
    rfl
  | sd =>
    rw [lookup_rates_of_ne (by simp : Meter.sd ≠ .net),
      lookup_rates_of_ne (by simp : Meter.sd ≠ .nvme), Option.none_or, Option.or_none]
    rfl
  | net =>
    rw [lookup_rates_of_ne (by simp : Meter.net ≠ .sd),
      lookup_rates_of_ne (by simp : Meter.net ≠ .nvme), Option.none_or, Option.or_none]
    rfl

/-- A call that can read a meter leaves its own sample for the next one. -/
theorem last_step (m : Meter) (s : IoState) (c : Call) :
    m.last (step s c) = (m.sample c).or (m.last s) := by
  have hlast : m.last (step s c) = (ioRate m.unit (m.key .input) (m.key .output) (m.last s)
      (m.reading c).now (m.reading c).input (m.reading c).output).1 := by
    cases m <;> rfl
  rw [hlast, Meter.sample]
  cases (m.reading c).input with
  | none => rfl
  | some input =>
    cases (m.reading c).output with
    | none => rfl
    | some output =>
      cases m.last s with
      | none => rfl
      | some prev =>
        simp only [ioRate]
        split_ifs <;> rfl

/-- The rates of a call are those since the sample left by the previous one. -/
theorem rate_eq (m : Meter) (s : IoState) (c : Call) (flow : Flow) {prev cur : IoSample}
    (hlast : m.last s = some prev) (hcur : m.sample c = some cur) (ht : prev.t < cur.t) :
    m.rate s c flow = some (roundHalfEven
      ((max 0 (cur.count flow - prev.count flow) * m.unit : ℤ) / (cur.t - prev.t))) := by
  rw [rate_eq_lookup, hlast]
  unfold Meter.sample at hcur
  split at hcur
  · rename_i input output hinput houtput
    obtain rfl := Option.some.inj hcur
    have helapsed : ¬ (m.reading c).now - prev.t ≤ 0 := by
      simpa using ht
    simp only [rates, ioRate, hinput, houtput, if_neg helapsed]
    cases m <;> cases flow <;> simp [Meter.key, List.lookup_cons]
  · cases hcur

theorem rate_none (m : Meter) (s : IoState) (c : Call) (flow : Flow)
    (hlast : m.last s = none) : m.rate s c flow = none := by
  rw [rate_eq_lookup, hlast]
  unfold rates ioRate
  split <;> rfl

/-- The rate of a call is the growth since the previous call per second, up to rounding. -/
theorem rate_near (m : Meter) (s : IoState) (c : Call) (flow : Flow) {prev cur : IoSample}
    (hlast : m.last s = some prev) (hcur : m.sample c = some cur) (ht : prev.t < cur.t)
    (hgrow : prev.count flow ≤ cur.count flow) :
    ∃ r, m.rate s c flow = some r ∧
      |(r : ℚ) - m.growth flow prev cur / (cur.t - prev.t)| ≤ 1 / 2 := by
  refine ⟨_, rate_eq m s c flow hlast hcur ht, ?_⟩
  rw [max_eq_right (sub_nonneg.mpr hgrow)]
  exact abs_roundHalfEven_sub_le _

/-- A rate credits the growth of its interval, up to half a byte a second. -/
private theorem credit_near {g e r : ℚ} (he : 0 < e) (h : |r - g / e| ≤ 1 / 2) :
    |r * e - g| ≤ e / 2 := by
  have hscale : r * e - g = (r - g / e) * e := by
    field_simp
  rw [hscale, abs_mul, abs_of_pos he]
  linarith [mul_le_mul_of_nonneg_right h he.le]

/-- From a sample on, the rates account for the growth up to the last call. -/
theorem credited_near (m : Meter) (flow : Flow) {s : IoState} {x : IoSample}
    (hlast : m.last s = some x) {calls : List Call} (hread : ∀ c ∈ calls, (m.sample c).isSome)
    (hinc : calls.Pairwise m.Later)
    (hfirst : ∀ c ∈ calls, ∀ y, m.sample c = some y → x.t < y.t ∧ x.count flow ≤ y.count flow) :
    |m.credited flow s calls - m.growth flow x ((calls.getLast?.bind m.sample).getD x)| ≤
      (((calls.getLast?.bind m.sample).getD x).t - x.t) / 2 := by
  induction calls generalizing s x with
  | nil => simp [Meter.credited, Meter.growth]
  | cons c calls ih =>
    obtain ⟨y, hy⟩ := Option.isSome_iff_exists.mp (hread c (by simp))
    obtain ⟨ht, hgrow⟩ := hfirst c (by simp) y hy
    obtain ⟨r, hr, hnear⟩ := rate_near m s c flow hlast hy ht hgrow
    rw [List.pairwise_cons] at hinc
    have hnext : m.last (step s c) = some y := by
      rw [last_step, hy, Option.some_or]
    have hrest := ih hnext (fun d hd => hread d (by simp [hd])) hinc.2 fun d hd z hz =>
      ⟨(hinc.1 d hd y z hy hz).1, (hinc.1 d hd y z hy hz).2 flow⟩
    have hcredit := credit_near (sub_pos.mpr ht) hnear
    have hend : ((c :: calls).getLast?.bind m.sample).getD x =
        (calls.getLast?.bind m.sample).getD y := by
      cases hcalls : calls.getLast? with
      | none =>
        rw [List.getLast?_eq_none_iff.mp hcalls, List.getLast?_singleton]
        simp [hy]
      | some d =>
        have hmem := List.mem_of_getLast? hcalls
        obtain ⟨z, hz⟩ := Option.isSome_iff_exists.mp (hread d (by simp [hmem]))
        rw [List.getLast?_cons, hcalls]
        simp [hz]
    rw [hend, Meter.credited, hlast, hy, hr]
    generalize (calls.getLast?.bind m.sample).getD y = z at hrest ⊢
    simp only [Option.getD_some]
    have hsum : m.growth flow x z = m.growth flow x y + m.growth flow y z := by
      unfold Meter.growth
      ring
    rw [hsum, abs_le]
    rw [abs_le] at hrest hcredit
    push_cast
    constructor <;> linarith

theorem last_start (m : Meter) : m.last start = none := by
  cases m <;> rfl

/-- The rates of calls that can all read a meter account for the growth from the first call to
the last one. -/
theorem credited_start_near (m : Meter) (flow : Flow) {calls : List Call}
    (hread : ∀ c ∈ calls, (m.sample c).isSome) (hinc : calls.Pairwise m.Later)
    {first last : Call} {x y : IoSample} (hhead : calls.head? = some first)
    (hend : calls.getLast? = some last) (hx : m.sample first = some x)
    (hy : m.sample last = some y) :
    |m.credited flow start calls - m.growth flow x y| ≤ (y.t - x.t) / 2 := by
  cases calls with
  | nil => cases hhead
  | cons c calls =>
    obtain rfl := Option.some.inj hhead
    rw [List.pairwise_cons] at hinc
    have hnext : m.last (step start c) = some x := by
      rw [last_step, hx, Option.some_or]
    have hnear := credited_near m flow hnext (fun d hd => hread d (by simp [hd])) hinc.2
      fun d hd z hz => ⟨(hinc.1 d hd x z hx hz).1, (hinc.1 d hd x z hx hz).2 flow⟩
    rw [Meter.credited, last_start, zero_add]
    rw [List.getLast?_cons] at hend
    have hlast : (calls.getLast?.bind m.sample).getD x = y := by
      cases hcalls : calls.getLast? with
      | none =>
        rw [hcalls, Option.getD_none, Option.some.injEq] at hend
        subst hend
        rw [hx] at hy
        exact Option.some.inj hy
      | some d =>
        rw [hcalls, Option.getD_some, Option.some.injEq] at hend
        subst hend
        rw [Option.bind_some, hy, Option.getD_some]
    rwa [hlast] at hnear

/-- In every sequence of calls by any pollers, each rate is the growth since the previous
call per second, up to rounding, and together the rates account for all bytes moved. -/
theorem rates_since_previous_call (m : Meter) (flow : Flow) (calls : List Call)
    (hread : ∀ c ∈ calls, (m.sample c).isSome) (hinc : calls.Pairwise m.Later) :
    (∀ c after, calls = c :: after → m.rate start c flow = none) ∧
    (∀ before p c after prev cur, calls = before ++ p :: c :: after →
      m.sample p = some prev → m.sample c = some cur →
      ∃ r, m.rate (runFrom step start (before ++ [p])) c flow = some r ∧
        |(r : ℚ) - m.growth flow prev cur / (cur.t - prev.t)| ≤ 1 / 2) ∧
    (∀ first last x y, calls.head? = some first → calls.getLast? = some last →
      m.sample first = some x → m.sample last = some y →
      |m.credited flow start calls - m.growth flow x y| ≤ (y.t - x.t) / 2) := by
  refine ⟨fun c _ _ => rate_none m start c flow (last_start m), ?_, ?_⟩
  · intro before p c after prev cur hcalls hp hc
    have hlast : m.last (runFrom step start (before ++ [p])) = some prev := by
      rw [runFrom_append, runFrom_cons, runFrom_nil, last_step, hp, Option.some_or]
    rw [hcalls, List.pairwise_append, List.pairwise_cons] at hinc
    obtain ⟨ht, hgrow⟩ := hinc.2.1.1 c (by simp) prev cur hp hc
    exact rate_near m _ c flow hlast hc ht (hgrow flow)
  · intro first last x y hhead hend hx hy
    exact credited_start_near m flow hread hinc hhead hend hx hy

def netCall (poller : ℕ) (t : Time) (received : ℤ) : Call where
  poller := poller
  nvme := ⟨t, none, none⟩
  sd := ⟨t, none, none⟩
  net := ⟨t, some received, some 0⟩

theorem later_netCall {p q : ℕ} {t u : Time} {a b : ℤ} (ht : t < u) (h : a ≤ b) :
    Meter.net.Later (netCall p t a) (netCall q u b) := by
  intro prev cur hprev hcur
  obtain rfl := Option.some.inj hprev
  obtain rfl := Option.some.inj hcur
  refine ⟨ht, fun flow => ?_⟩
  cases flow with
  | input => exact h
  | output => exact le_rfl

theorem rates_since_previous_call_net :
    ∃ r, Meter.net.rate (runFrom step start [netCall 0 0 0]) (netCall 1 10 1000) .input = some r ∧
      |(r : ℚ) - Meter.net.growth .input ⟨0, fun | .input => 0 | .output => 0⟩
        ⟨10, fun | .input => 1000 | .output => 0⟩ / (10 - 0)| ≤ 1 / 2 :=
  (rates_since_previous_call .net .input [netCall 0 0 0, netCall 1 10 1000] (by decide)
    (by simp [later_netCall])).2.1 [] _ _ [] _ _ rfl rfl rfl

/-- One poller calls at 0 s and at 10 s, when 1000 bytes have come in, another one at 9 s: the
first one is told 1000 bytes per second. -/
theorem rates_not_per_poller :
    ¬ ∀ (m : Meter) (flow : Flow) (calls : List Call), (∀ c ∈ calls, (m.sample c).isSome) →
      calls.Pairwise m.Later →
      ∀ before p between c after prev cur, calls = before ++ p :: (between ++ c :: after) →
        p.poller = c.poller → (∀ d ∈ between, d.poller ≠ c.poller) →
        m.sample p = some prev → m.sample c = some cur →
        ∃ r, m.rate (runFrom step start (before ++ p :: between)) c flow = some r ∧
          |(r : ℚ) - m.growth flow prev cur / (cur.t - prev.t)| ≤ 1 := by
  intro h
  have hinc : [netCall 0 0 0, netCall 1 9 0, netCall 0 10 1000].Pairwise Meter.net.Later := by
    norm_num [later_netCall]
  obtain ⟨r, hr, hnear⟩ := h .net .input [netCall 0 0 0, netCall 1 9 0, netCall 0 10 1000]
    (by decide) hinc [] (netCall 0 0 0) [netCall 1 9 0] (netCall 0 10 1000) [] _ _ rfl rfl
    (by decide) rfl rfl
  have hlast : Meter.net.last (runFrom step start [netCall 0 0 0, netCall 1 9 0]) =
      some ⟨9, fun | .input => 0 | .output => 0⟩ := by
    rw [runFrom_cons, runFrom_cons, runFrom_nil, last_step]
    rfl
  have hrate := rate_eq .net (runFrom step start [netCall 0 0 0, netCall 1 9 0])
    (netCall 0 10 1000) .input hlast rfl (by norm_num [netCall, Meter.reading])
  have hround : roundHalfEven (1000 : ℚ) = 1000 := roundHalfEven_intCast 1000
  rw [List.nil_append, hrate, Option.some.injEq] at hr
  norm_num [netCall, Meter.reading, Meter.unit, Meter.growth, hround] at hr hnear
  subst hr
  norm_num [abs_le] at hnear

end NodeAgent

end PiWatch
