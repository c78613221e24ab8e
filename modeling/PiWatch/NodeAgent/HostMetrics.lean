import PiWatch.NodeAgent.Readers

/-!
# The `/metrics` call

All readers, one after the other, and the three rates, which remember the previous counters. A
counter is remembered before its rate is computed.
-/

namespace PiWatch

namespace NodeAgent

/-! ## Rates -/

/-- A remembered sample. The counters are whatever was read. -/
structure RateSample where
  t : Time
  input : PyValue
  output : PyValue

/-- `_last_nvme_io`, `_last_sd_io` and `_last_net_io`. -/
structure RateState where
  lastNvmeIo : Option RateSample
  lastSdIo : Option RateSample
  lastNetIo : Option RateSample

namespace RateState

def start : RateState := ⟨none, none, none⟩

def rememberNvme (sample : RateSample) (s : RateState) : RateState :=
  { s with lastNvmeIo := some sample }

def rememberSd (sample : RateSample) (s : RateState) : RateState :=
  { s with lastSdIo := some sample }

def rememberNet (sample : RateSample) (s : RateState) : RateState :=
  { s with lastNetIo := some sample }

end RateState

/-- `round(max(0, count - prev) * unit / elapsed)`. -/
def rateOf (unit : ℤ) (elapsed : PyFloat) (count prev : PyValue) : Except ReadError ℤ := do
  let moved ← (← PyNumber.ofValue count).sub (← PyNumber.ofValue prev)
  roundToInt (← (← moved.maxZero.mulInt unit).divFloat elapsed)

/-- The rates between two samples, if time has passed. -/
def sampleRates (unit : ℤ) (inputKey outputKey : String) (prev : Option RateSample)
    (sample : RateSample) : Except ReadError (Dict String PyValue) :=
  match prev with
  | none => .ok ∅
  | some prev =>
    let elapsed := PyFloat.ofRat (sample.t - prev.t)
    if (PyFloat.finite 0).lt elapsed then do
      return Dict.ofList [(inputKey, .int (← rateOf unit elapsed sample.input prev.input)),
        (outputKey, .int (← rateOf unit elapsed sample.output prev.output))]
    else .ok ∅

/-- A counter that is there and not `None`. -/
def present : Option PyValue → Option PyValue
  | none | some .none => none
  | some v => some v

/-- The two counters of a call, if both are there. -/
def newSample (now : Time) (input output : Option PyValue) : Option RateSample := do
  return ⟨now, ← present input, ← present output⟩

/-- What a `/metrics` call does: it may raise, but what it remembered stays. -/
abbrev Agent := ExceptT ReadError (StateM RateState)

/-- The three rate functions: the new sample is stored, then compared with the previous one. -/
def deriveRates (unit : ℤ) (inputKey outputKey : String) (last : RateState → Option RateSample)
    (remember : RateSample → RateState → RateState) (now : Time)
    (input output : Option PyValue) : Agent (Dict String PyValue) := do
  match newSample now input output with
  | none => return ∅
  | some sample =>
    let prev := last (← get)
    modify (remember sample)
    sampleRates unit inputKey outputKey prev sample

/-- `_nvme_io_rate`. -/
def deriveNvmeRates : Time → Option PyValue → Option PyValue → Agent (Dict String PyValue) :=
  deriveRates nvmeDataUnitBytes "nvme_read_bytes_per_s" "nvme_write_bytes_per_s"
    RateState.lastNvmeIo RateState.rememberNvme

/-- `_sd_io_rate`; its counters are bytes. -/
def deriveSdRates : Time → Option PyValue → Option PyValue → Agent (Dict String PyValue) :=
  deriveRates 1 "sd_read_bytes_per_s" "sd_write_bytes_per_s"
    RateState.lastSdIo RateState.rememberSd

/-- `_net_io_rate`; its counters are bytes. -/
def deriveNetRates : Time → Option PyValue → Option PyValue → Agent (Dict String PyValue) :=
  deriveRates 1 "net_rx_bytes_per_s" "net_tx_bytes_per_s"
    RateState.lastNetIo RateState.rememberNet

/-! ## The call -/

/-- `shutil.disk_usage`, as far as it is used. -/
structure DiskUsage where
  total : ℤ
  used : ℤ

/-- What a `/metrics` call finds: the files, the disk usage unless it raises `OSError`, and the
clock where it is read. -/
structure Host where
  nodeName : String
  thermalZones : List File
  loadavg : File
  meminfo : File
  uptime : File
  mounts : File
  hwmons : List String
  hwmonName : String → File
  temp1Input : String → File
  in0LcritAlarm : String → File
  sdAttr : List Char → SdAttr → File
  sdSize : List Char → File
  sdStat : List Char → File
  nvmeBlocks : List String
  nvmeModel : String → File
  nvmeSize : String → File
  ifaces : List String
  hasDevice : String → Bool
  statistics : String → Flow → File
  disk : Option DiskUsage
  smartLog : NvmeOutput
  idCtrl : NvmeOutput
  nvmeNow : Time
  sdNow : Time
  netNow : Time

namespace Host

def diskUsedPct (h : Host) : Except ReadError (Option PyFloat) :=
  orElse ReadError.isOSError none do
    match h.disk with
    | none => .error .osError
    | some disk => return some ((← trueDiv (100 * disk.used) disk.total).round 1)

def physicalNetInterfaces (h : Host) : List String :=
  h.ifaces.filter fun iface => iface ≠ "lo" && h.hasDevice iface

/-- A counter of an interface. Whatever reading it raises is caught. -/
def netCounter (h : Host) (iface : String) (flow : Flow) : Option ℤ :=
  (h.statistics iface flow).readInt.toOption

def netBytes (h : Host) : Option (ℤ × ℤ) := readNetBytes h.netCounter h.physicalNetInterfaces

/-- The fields that are always there. -/
def basePayload (h : Host) : Except ReadError (Dict String PyValue) := do
  let load ← readLoad h.loadavg
  let mem ← readMeminfo h.meminfo
  let diskUsedPct ← h.diskUsedPct
  return Dict.ofList
    [("node", .ofText h.nodeName.toList),
      ("temp_c", .ofOption .float (← readTempC h.thermalZones)),
      ("load1", .ofOption (fun load => .float load.1) load),
      ("load5", .ofOption (fun load => .float load.2.1) load),
      ("mem_total_kb", .ofOption .int (mem.get? "MemTotal")),
      ("mem_available_kb", .ofOption .int (mem.get? "MemAvailable")),
      ("disk_used_pct", .ofOption .float diskUsedPct),
      ("uptime_s", .ofOption .int (← readUptimeS h.uptime)),
      ("nvme_temp_c",
        .ofOption .float (← readNvmeTempC h.hwmons h.hwmonName h.temp1Input)),
      ("undervoltage",
        .ofOption .bool (← readUndervoltage h.hwmons h.hwmonName h.in0LcritAlarm)),
      ("root_readonly", .ofOption .bool (← readRootReadonly h.mounts))]

def metrics (py : Interpreter) (h : Host) : Agent (Dict String PyValue) := do
  let payload ← h.basePayload
  let payload := payload.merge (← readNvmeInfo h.nvmeBlocks h.nvmeModel h.nvmeSize)
  let smart ← readNvmeSmart py h.smartLog
  let payload := payload.merge smart
  let payload := payload.merge (← readNvmeCtrlInfo py h.idCtrl)
  let payload := payload.merge (← deriveNvmeRates h.nvmeNow
    (smart.get? "nvme_data_units_read") (smart.get? "nvme_data_units_written"))
  let payload := payload.merge (← readSdInfo h.mounts h.sdAttr h.sdSize)
  let sd ← readSdBytes h.mounts h.sdStat
  let payload := payload.merge (← deriveSdRates h.sdNow
    (sd.map fun b => .int b.1) (sd.map fun b => .int b.2))
  let net := h.netBytes
  let payload := payload.merge (← deriveNetRates h.netNow
    (net.map fun b => .int b.1) (net.map fun b => .int b.2))
  return payload

end Host

/-- The outcome of a call. -/
def outcome (py : Interpreter) (s : RateState) (h : Host) :
    Except ReadError (Dict String PyValue) := ((h.metrics py).run s).1

/-- What is remembered after a call. -/
def remembered (py : Interpreter) (s : RateState) (h : Host) : RateState :=
  ((h.metrics py).run s).2

end NodeAgent

end PiWatch
