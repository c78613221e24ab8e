import PiWatch.NodeAgent.RateOutcomes

/-!
# The outcome of a `/metrics` call

Each of the three rates has a sample of its own, so what a call returns is a function of its
sources and of the previous samples.
-/

namespace PiWatch

namespace NodeAgent

/-! ## Running the agent -/

/-- What a sequence returns: its second part goes on from the state after the first one. -/
theorem run_bind_fst {α β : Type} (x : Agent α) (f : α → Agent β) (s : RateState) :
    ((x >>= f).run s).1 = (x.run s).1 >>= fun a => ((f a).run (x.run s).2).1 := by
  have hstate : ∀ (y : StateM RateState (Except ReadError α))
      (g : Except ReadError α → StateM RateState (Except ReadError β)),
      (y >>= g) s = g (y s).1 (y s).2 := fun _ _ => rfl
  rw [ExceptT.run_bind, hstate]
  cases x.run s with
  | mk r s' => cases r <;> rfl

theorem run_lift {α : Type} (x : Except ReadError α) (s : RateState) :
    (liftM x : Agent α).run s = (x, s) := rfl

/-- What a rate function remembers. -/
def rememberNew (remember : RateSample → RateState → RateState) (sample : Option RateSample)
    (s : RateState) : RateState :=
  match sample with
  | none => s
  | some new => remember new s

theorem run_deriveRates (unit : ℤ) (inputKey outputKey : String)
    (last : RateState → Option RateSample) (remember : RateSample → RateState → RateState)
    (now : Time) (input output : Option PyValue) (s : RateState) :
    (deriveRates unit inputKey outputKey last remember now input output).run s =
      (ratesAfter unit inputKey outputKey (last s) (newSample now input output),
        rememberNew remember (newSample now input output) s) := by
  unfold deriveRates ratesAfter
  cases newSample now input output <;> rfl

@[simp] theorem lastSdIo_rememberNvme (sample : Option RateSample) (s : RateState) :
    (rememberNew RateState.rememberNvme sample s).lastSdIo = s.lastSdIo := by
  cases sample <;> rfl

@[simp] theorem lastNetIo_rememberNvme (sample : Option RateSample) (s : RateState) :
    (rememberNew RateState.rememberNvme sample s).lastNetIo = s.lastNetIo := by
  cases sample <;> rfl

@[simp] theorem lastNetIo_rememberSd (sample : Option RateSample) (s : RateState) :
    (rememberNew RateState.rememberSd sample s).lastNetIo = s.lastNetIo := by
  cases sample <;> rfl

/-! ## The parts of a payload -/

/-- A sample of two integer counters. -/
def countSample (now : Time) (bytes : Option (ℤ × ℤ)) : Option RateSample :=
  newSample now (bytes.map fun b => .int b.1) (bytes.map fun b => .int b.2)

namespace Host

def nvmeSample (h : Host) (smart : Dict String PyValue) : Option RateSample :=
  newSample h.nvmeNow (smart.get? "nvme_data_units_read") (smart.get? "nvme_data_units_written")

def nvmeRates (s : RateState) (h : Host) (smart : Dict String PyValue) :
    Except ReadError (Dict String PyValue) :=
  ratesAfter nvmeDataUnitBytes "nvme_read_bytes_per_s" "nvme_write_bytes_per_s" s.lastNvmeIo
    (h.nvmeSample smart)

def sdRates (s : RateState) (h : Host) (bytes : Option (ℤ × ℤ)) :
    Except ReadError (Dict String PyValue) :=
  ratesAfter 1 "sd_read_bytes_per_s" "sd_write_bytes_per_s" s.lastSdIo
    (countSample h.sdNow bytes)

def netRates (s : RateState) (h : Host) : Except ReadError (Dict String PyValue) :=
  ratesAfter 1 "net_rx_bytes_per_s" "net_tx_bytes_per_s" s.lastNetIo
    (countSample h.netNow h.netBytes)

end Host

/-- A payload from its parts, each read from the sources and the samples of its own. -/
theorem outcome_eq (py : Interpreter) (s : RateState) (h : Host) :
    outcome py s h = do
      let base ← h.basePayload
      let info ← readNvmeInfo h.nvmeBlocks h.nvmeModel h.nvmeSize
      let smart ← readNvmeSmart py h.smartLog
      let ctrl ← readNvmeCtrlInfo py h.idCtrl
      let nvme ← h.nvmeRates s smart
      let card ← readSdInfo h.mounts h.sdAttr h.sdSize
      let bytes ← readSdBytes h.mounts h.sdStat
      let sd ← h.sdRates s bytes
      let net ← h.netRates s
      return ((((((base.merge info).merge smart).merge ctrl).merge nvme).merge card).merge sd).merge
        net := by
  unfold outcome Host.metrics
  simp only [run_bind_fst, run_lift, deriveNvmeRates, deriveSdRates, deriveNetRates,
    run_deriveRates, lastSdIo_rememberNvme, lastNetIo_rememberSd, lastNetIo_rememberNvme]
  rfl

/-- The parts of a payload, in the order in which they are merged. -/
inductive Part
  | base
  | info
  | smart
  | ctrl
  | nvmeRates
  | card
  | sdRates
  | netRates
  deriving DecidableEq

namespace Part

def all : List Part := [base, info, smart, ctrl, nvmeRates, card, sdRates, netRates]

theorem mem_all (p : Part) : p ∈ all := by cases p <;> decide

def read (py : Interpreter) (s : RateState) (h : Host) :
    Part → Except ReadError (Dict String PyValue)
  | base => h.basePayload
  | info => readNvmeInfo h.nvmeBlocks h.nvmeModel h.nvmeSize
  | smart => readNvmeSmart py h.smartLog
  | ctrl => readNvmeCtrlInfo py h.idCtrl
  | nvmeRates => do h.nvmeRates s (← readNvmeSmart py h.smartLog)
  | card => readSdInfo h.mounts h.sdAttr h.sdSize
  | sdRates => do h.sdRates s (← readSdBytes h.mounts h.sdStat)
  | netRates => h.netRates s

/-- What was read, of a part that returns. -/
def result (py : Interpreter) (s : RateState) (h : Host) (p : Part) : Dict String PyValue :=
  (p.read py s h).toOption.getD ∅

theorem result_eq {py : Interpreter} {s : RateState} {h : Host} {p : Part}
    {d : Dict String PyValue} (hread : p.read py s h = .ok d) : p.result py s h = d := by
  rw [result, hread]
  rfl

/-- The keys a part may have. -/
def keys : Part → List String
  | base => ["node", "temp_c", "load1", "load5", "mem_total_kb", "mem_available_kb",
      "disk_used_pct", "uptime_s", "nvme_temp_c", "undervoltage", "root_readonly"]
  | info => ["nvme_model", "nvme_capacity_bytes"]
  | smart => nvmeSmartFields.map fun field => "nvme_" ++ field
  | ctrl => ["nvme_firmware", "nvme_serial"]
  | nvmeRates => ["nvme_read_bytes_per_s", "nvme_write_bytes_per_s"]
  | card => SdAttr.all.map SdAttr.key ++ ["sd_capacity_bytes"]
  | sdRates => ["sd_read_bytes_per_s", "sd_write_bytes_per_s"]
  | netRates => ["net_rx_bytes_per_s", "net_tx_bytes_per_s"]

/-- No key belongs to two parts. -/
theorem eq_of_mem_keys {p q : Part} {k : String} (hp : k ∈ p.keys) (hq : k ∈ q.keys) : p = q := by
  have hfirst : ∀ p ∈ all, ∀ k ∈ p.keys, (all.find? fun q => k ∈ q.keys) = some p := by decide
  have hp' := hfirst p (mem_all p) k hp
  have hq' := hfirst q (mem_all q) k hq
  exact Option.some.inj (hp'.symm.trans hq')

end Part

/-- A payload is merged from its parts. -/
def mergeParts (parts : Part → Dict String PyValue) : Dict String PyValue :=
  Part.all.foldl (fun payload p => payload.merge (parts p)) ∅

/-- If a call returns, all parts do, and its payload has what they have. -/
theorem parts_of_outcome {py : Interpreter} {s : RateState} {h : Host}
    {payload : Dict String PyValue} (hp : outcome py s h = .ok payload) :
    (∀ p : Part, p.read py s h = .ok (p.result py s h)) ∧
      ∀ k, payload.get? k = (mergeParts fun p => p.result py s h).get? k := by
  simp only [outcome_eq, bind_eq_ok_iff] at hp
  obtain ⟨base, hbase, info, hinfo, smart, hsmart, ctrl, hctrl, nvme, hnvme, card, hcard, bytes,
    hbytes, sd, hsd, net, hnet, heq⟩ := hp
  have hnvme : Part.nvmeRates.read py s h = .ok nvme := bind_eq_ok_iff.mpr ⟨smart, hsmart, hnvme⟩
  have hsd : Part.sdRates.read py s h = .ok sd := bind_eq_ok_iff.mpr ⟨bytes, hbytes, hsd⟩
  constructor
  · have hresult : ∀ {p : Part} {d}, p.read py s h = .ok d →
        p.read py s h = .ok (p.result py s h) := fun hread => by rw [Part.result_eq hread, hread]
    intro p
    cases p with
    | base => exact hresult hbase
    | info => exact hresult hinfo
    | smart => exact hresult hsmart
    | ctrl => exact hresult hctrl
    | nvmeRates => exact hresult hnvme
    | card => exact hresult hcard
    | sdRates => exact hresult hsd
    | netRates => exact hresult hnet
  · intro k
    obtain rfl := Except.ok.inj heq
    simp only [mergeParts, Part.all, List.foldl_cons, List.foldl_nil, Dict.get?_merge]
    rw [Part.result_eq (p := .base) hbase, Part.result_eq (p := .info) hinfo,
      Part.result_eq (p := .smart) hsmart, Part.result_eq (p := .ctrl) hctrl,
      Part.result_eq hnvme, Part.result_eq (p := .card) hcard, Part.result_eq hsd,
      Part.result_eq (p := .netRates) hnet]
    cases base.get? k <;> rfl

/-! ## When a call returns -/

namespace Host

/-- The disk has a size, and the percentage is a double. -/
def DiskReadable (h : Host) : Prop :=
  ∀ d, h.disk = some d → d.total ≠ 0 ∧ InRange (100 * d.used) d.total

theorem returns_diskUsedPct_iff (h : Host) : Returns h.diskUsedPct ↔ h.DiskReadable := by
  unfold diskUsedPct DiskReadable
  rw [returns_orElse_iff]
  cases h.disk with
  | none => simp [ReadError.isOSError]
  | some d =>
    simp only [raisesOnly_bind_iff, Option.some.injEq, forall_eq']
    rw [raisesOnly_trueDiv rfl rfl]
    simp [pure, Except.pure]

theorem returns_basePayload_iff (h : Host) :
    Returns h.basePayload ↔
      h.DiskReadable ∧ Returns (readTempC h.thermalZones) ∧ Returns (readUptimeS h.uptime) ∧
        Returns (readNvmeTempC h.hwmons h.hwmonName h.temp1Input) ∧
        Returns (readUndervoltage h.hwmons h.hwmonName h.in0LcritAlarm) ∧
        Returns (readRootReadonly h.mounts) := by
  unfold basePayload
  obtain ⟨load, hload⟩ := returns_readLoad h.loadavg
  rw [hload, ok_bind, readMeminfo_eq, ok_bind, ← returns_diskUsedPct_iff]
  exact returns_bind_iff_and fun _ _ => returns_bind_iff_and fun _ _ =>
    returns_bind_iff_and fun _ _ => returns_bind_iff_and fun _ _ =>
      returns_bind_iff_and fun _ _ => returns_bind_pure_iff

end Host

end NodeAgent

end PiWatch
