import PiWatch.Framework.Run
import PiWatch.NodeAgent.Sources

/-!
# The agent degrades

A call should return a payload whatever its sources hold: a source that says nothing leaves its own
fields out, and the other fields do not change. It does exactly if nothing it reads raises what the
reader does not catch.
-/

namespace PiWatch

namespace NodeAgent

/-! ## What the readers do not guard against -/

namespace Host

/-- Nothing that is read raises what its reader does not catch. -/
structure Readable (py : Interpreter) (s : RateState) (h : Host) : Prop where
  disk : h.DiskReadable
  zones : ∀ n, h.thermalZones.findSome? File.int? = some n → InRange n 1000
  uptime : ∀ x, h.uptime.firstFloat? = some x → x ≠ .posInf ∧ x ≠ .negInf
  nvmeMonitor : ∀ path, hwmonOf? "nvme".toList h.hwmons h.hwmonName = some path →
    ¬ (h.hwmonName path).Undecodable ∧
      ∀ n, (h.temp1Input path).int? = some n → InRange n 1000
  voltMonitor : ∀ path, hwmonOf? "rpi_volt".toList h.hwmons h.hwmonName = some path →
    ¬ (h.hwmonName path).Undecodable ∧ ¬ (h.in0LcritAlarm path).Undecodable
  mounts : RootDelivered h.mounts
  nvmeModel : ∀ block, h.nvmeBlocks.head? = some block → ¬ (h.nvmeModel block).Undecodable
  smartLog : Loadable py h.smartLog
  idCtrl : Loadable py h.idCtrl
  idTexts : ∀ field ∈ ["fr", "sn"], ∀ v, (document py h.idCtrl).field? field = some v →
    v.depth ≤ py.reprDepth
  card : ∀ dev, sdDevice? h.mounts = some dev →
    '\x00' ∉ dev ∧ ∀ a, ¬ (h.sdAttr dev a).Undecodable
  nvmeRates : RatesComputable nvmeDataUnitBytes s.lastNvmeIo (h.nvmeCounters py)
  sdRates : RatesComputable 1 s.lastSdIo (countSample h.sdNow (sdBytes? h.mounts h.sdStat))
  netRates : RatesComputable 1 s.lastNetIo (countSample h.netNow h.netBytes)

private theorem unit_in_range {unit : ℤ} (hpos : 0 ≤ unit) (h : unit < 2 ^ 53) :
    |(unit : ℚ)| < PyFloat.overflowLimit := by
  rw [abs_of_nonneg (by exact_mod_cast hpos)]
  exact PyFloat.lt_overflowLimit_of_lt (by exact_mod_cast h)

/-- A call returns exactly if nothing it reads raises what its reader does not catch. -/
theorem returns_outcome_iff (py : Interpreter) (s : RateState) (h : Host) :
    Returns (outcome py s h) ↔ Readable py s h := by
  have hnet : Returns (h.netRates s) ↔ RatesComputable 1 s.lastNetIo
      (countSample h.netNow h.netBytes) :=
    returns_ratesAfter_iff (unit_in_range (by decide) (by decide)) _ _ _ _
  have hsd : ∀ bytes, Returns (h.sdRates s bytes) ↔ RatesComputable 1 s.lastSdIo
      (countSample h.sdNow bytes) := fun _ =>
    returns_ratesAfter_iff (unit_in_range (by decide) (by decide)) _ _ _ _
  have hnvme : ∀ smart, Returns (h.nvmeRates s smart) ↔ RatesComputable nvmeDataUnitBytes
      s.lastNvmeIo (h.nvmeSample smart) := fun _ =>
    returns_ratesAfter_iff (unit_in_range (by decide) (by decide)) _ _ _ _
  have hparts : Returns (outcome py s h) ↔
      Returns h.basePayload ∧ Returns (readNvmeInfo h.nvmeBlocks h.nvmeModel h.nvmeSize) ∧
      Returns (readNvmeSmart py h.smartLog) ∧ Returns (readNvmeCtrlInfo py h.idCtrl) ∧
      RatesComputable nvmeDataUnitBytes s.lastNvmeIo (h.nvmeCounters py) ∧
      Returns (readSdInfo h.mounts h.sdAttr h.sdSize) ∧
      Returns (readSdBytes h.mounts h.sdStat) ∧
      RatesComputable 1 s.lastSdIo (countSample h.sdNow (sdBytes? h.mounts h.sdStat)) ∧
      RatesComputable 1 s.lastNetIo (countSample h.netNow h.netBytes) := by
    rw [outcome_eq, ← hnet]
    refine returns_bind_iff_and fun base _ => returns_bind_iff_and fun info _ =>
      returns_bind_iff_and fun smart hsmart => returns_bind_iff_and fun ctrl _ => ?_
    rw [← nvmeSample_eq hsmart, ← hnvme]
    refine returns_bind_iff_and fun nvme _ => returns_bind_iff_and fun card _ =>
      returns_bind_iff_and fun bytes hbytes => ?_
    have hroot := (returns_readSdBytes_iff h.mounts h.sdStat).mp ⟨bytes, hbytes⟩
    rw [readSdBytes_of_delivered hroot] at hbytes
    rw [Except.ok.inj hbytes, ← hsd]
    exact returns_bind_iff_and fun sd _ => returns_bind_pure_iff
  rw [hparts, returns_basePayload_iff, returns_readTempC_iff, returns_readUptimeS_iff,
    returns_readNvmeTempC_iff, returns_readUndervoltage_iff, returns_readRootReadonly_iff,
    returns_readNvmeInfo_iff, returns_readNvmeSmart_iff, returns_readNvmeCtrlInfo_iff,
    returns_readSdInfo_iff, returns_readSdBytes_iff]
  constructor
  · rintro ⟨⟨hdisk, hzones, huptime, hnvmeMonitor, hvolt, hmounts⟩, hmodel, hsmart, ⟨hctrl, htexts⟩,
      hnvmeRates, ⟨-, hcard⟩, -, hsdRates, hnetRates⟩
    exact ⟨hdisk, hzones, huptime, hnvmeMonitor, hvolt, hmounts, hmodel, hsmart, hctrl, htexts,
      hcard, hnvmeRates, hsdRates, hnetRates⟩
  · intro r
    exact ⟨⟨r.disk, r.zones, r.uptime, r.nvmeMonitor, r.voltMonitor, r.mounts⟩, r.nvmeModel,
      r.smartLog, ⟨r.idCtrl, r.idTexts⟩, r.nvmeRates, ⟨r.mounts, r.card⟩, r.mounts, r.sdRates,
      r.netRates⟩

/-! ## What a call should do -/

/-- There is a payload, the fields whose sources say nothing are missing from it, and whatever else
a source might hold, the fields of the others would be the same. -/
structure Degrades (py : Interpreter) (s : RateState) (h : Host) : Prop where
  returns : Returns (outcome py s h)
  missing : ∀ payload, outcome py s h = .ok payload →
    ∀ k, Unread py h k → PyValue.IsMissing (payload.get? k)
  unchanged : ∀ payload, outcome py s h = .ok payload → ∀ src h', SameBut src h h' →
    ∀ payload', outcome py s h' = .ok payload' →
      ∀ k, k ∉ src.fields → payload'.get? k = payload.get? k

/-- After any earlier calls, a call degrades exactly if it reads nothing that its readers do not
guard against. -/
theorem degrades_iff (py : Interpreter) (earlier : List Host) (h : Host) :
    Degrades py (runFrom (remembered py) .start earlier) h ↔
      Readable py (runFrom (remembered py) .start earlier) h := by
  rw [← returns_outcome_iff]
  constructor
  · exact Degrades.returns
  · intro hreturns
    exact ⟨hreturns, fun _ hp _ hk => isMissing_of_unread hp hk,
      fun _ hp _ _ hsame _ hp' _ hk => get?_of_sameBut hsame hk hp hp'⟩

/-- A host of which nothing can be read. -/
def absent : Host where
  nodeName := "node"
  thermalZones := []
  loadavg := .unreadable
  meminfo := .unreadable
  uptime := .unreadable
  mounts := .unreadable
  hwmons := []
  hwmonName := fun _ => .unreadable
  temp1Input := fun _ => .unreadable
  in0LcritAlarm := fun _ => .unreadable
  sdAttr := fun _ _ => .unreadable
  sdSize := fun _ => .unreadable
  sdStat := fun _ => .unreadable
  nvmeBlocks := []
  nvmeModel := fun _ => .unreadable
  nvmeSize := fun _ => .unreadable
  ifaces := []
  hasDevice := fun _ => false
  statistics := fun _ _ => .unreadable
  disk := none
  smartLog := .dumpFile .unreadable
  idCtrl := .dumpFile .unreadable
  nvmeNow := 0
  sdNow := 0
  netNow := 0

/-- An uptime of `inf` raises `OverflowError`. -/
theorem degrades_uptime_inf :
    ¬ Degrades ⟨1000, 1000, fun _ => []⟩ .start
      { absent with uptime := .content [[0x69, 0x6e, 0x66, 0x0a]] } := by
  intro hdegrades
  have hread := (returns_outcome_iff _ _ _).mp hdegrades.returns
  exact (hread.uptime .posInf (by decide)).1 rfl

end Host

end NodeAgent

end PiWatch
