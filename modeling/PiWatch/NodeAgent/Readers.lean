import PiWatch.Framework.Handlers
import PiWatch.Framework.TextLayer
import PiWatch.NodeAgent.JsonLoads
import PiWatch.NodeAgent.NetBytes

/-!
# The readers of the node agent

Each reader opens files under `/sys` and `/proc` in handlers of its own, for the exceptions it
lists. What it does not list leaves it.
-/

namespace PiWatch

namespace NodeAgent

/-! ## Files -/

/-- A file as `open` and `read` find it: absent or unreadable, or the portions it is read in. -/
inductive File
  | unreadable
  | content (portions : List (List UInt8))

namespace File

/-- `f.read()`. -/
def read : File → Except ReadError (List Char)
  | unreadable => .error .osError
  | content portions =>
    match wholeText portions with
    | none => .error .unicodeDecodeError
    | some text => .ok text

/-- A whole read does not depend on the portions the bytes come in. -/
theorem read_of_flatten_eq {portions portions' : List (List UInt8)}
    (h : portions.flatten = portions'.flatten) :
    (content portions).read = (content portions').read := by
  rw [read, read, wholeText_of_flatten_eq h]

/-- `f.read().strip()`. -/
def readStripped (f : File) : Except ReadError (List Char) := do
  return PyText.strip (← f.read)

/-- `int(f.read().strip())`. -/
def readInt (f : File) : Except ReadError ℤ := do
  valueOrRaise (intOf? (← f.readStripped))

/-- `for line in f`: the lines, and what ends them other than the end of the file. -/
def lines : File → List (List Char) × Option ReadError
  | unreadable => ([], some .osError)
  | content portions =>
    let (lines, all) := deliveredLines portions
    (lines, if all then none else some .unicodeDecodeError)

end File

/-- `round(int(f.read().strip()) / 1000, 1)`. -/
def readMilliDegrees (f : File) : Except ReadError PyFloat := do
  return (← trueDiv (← f.readInt) 1000).round 1

/-! ## Temperature, load, memory and uptime -/

/-- The zones are the files `thermal_zone*/temp`, sorted. -/
def readTempC (zones : List File) : Except ReadError (Option PyFloat) :=
  firstResult ReadError.isFileError (fun zone => do return some (← readMilliDegrees zone)) zones

/-- `float(parts[i])`. -/
def floatAt (parts : List (List Char)) (i : ℕ) : Except ReadError PyFloat := do
  valueOrRaise (floatOf? (← item parts i))

def readLoad (loadavg : File) : Except ReadError (Option (PyFloat × PyFloat × PyFloat)) :=
  orElse ReadError.isParseError none do
    let parts := words (← loadavg.read)
    return some (← floatAt parts 0, ← floatAt parts 1, ← floatAt parts 2)

/-- `line.partition(":")`, without the colon. -/
def partitionColon (line : List Char) : List Char × List Char :=
  (line.takeWhile (· ≠ ':'), (line.dropWhile (· ≠ ':')).drop 1)

/-- One line of `/proc/meminfo`. -/
def memLine (out : Dict String ℤ) (line : List Char) : Except ReadError (Dict String ℤ) := do
  let (key, rest) := partitionColon line
  if key ∈ ["MemTotal".toList, "MemAvailable".toList] then
    let first ← item (words (PyText.strip rest)) 0
    return out.insert (String.ofList key) (← valueOrRaise (intOf? first))
  else return out

/-- The loop over the lines: what was read before one raised, and what it raised. -/
def memLines (out : Dict String ℤ) : List (List Char) → Dict String ℤ × Option ReadError
  | [] => (out, none)
  | line :: lines =>
    match memLine out line with
    | .ok out => memLines out lines
    | .error e => (out, some e)

def readMeminfo (meminfo : File) : Except ReadError (Dict String ℤ) :=
  let (out, error) := memLines ∅ meminfo.lines.1
  match error.or meminfo.lines.2 with
  | none => .ok out
  | some e => if e.isParseError then .ok out else .error e

def readUptimeS (uptime : File) : Except ReadError (Option ℤ) :=
  orElse ReadError.isParseError none do
    let seconds ← floatAt (words (← uptime.read)) 0
    return some (← seconds.toInt.mapError .raised)

/-! ## Hardware monitors -/

/-- The first `hwmonN` path whose driver has the name. An unreadable name is passed over. -/
def findHwmon (driverName : List Char) (hwmons : List String) (name : String → File) :
    Except ReadError (Option String) :=
  firstResult ReadError.isOSError
    (fun path => do
      if (← (name path).readStripped) = driverName then return some path else return none)
    hwmons

def readNvmeTempC (hwmons : List String) (name temp1Input : String → File) :
    Except ReadError (Option PyFloat) := do
  match ← findHwmon "nvme".toList hwmons name with
  | none => return none
  | some hwmon =>
    orElse ReadError.isFileError none do return some (← readMilliDegrees (temp1Input hwmon))

def readUndervoltage (hwmons : List String) (name in0LcritAlarm : String → File) :
    Except ReadError (Option Bool) := do
  match ← findHwmon "rpi_volt".toList hwmons name with
  | none => return none
  | some hwmon =>
    orElse ReadError.isOSError none do
      return some ((← (in0LcritAlarm hwmon).readStripped) = "1".toList)

/-! ## The root device -/

/-- `len(parts) >= 4 and parts[1] == "/"`. -/
def isRootEntry (parts : List (List Char)) : Bool :=
  4 ≤ parts.length && parts[1]? = some "/".toList

/-- The entry of the root in `/proc/1/mounts`, a loop of `_root_device` and `read_root_readonly`.
Only `OSError` is caught. -/
def rootEntry (mounts : File) : Except ReadError (Option (List (List Char))) :=
  match (mounts.lines.1.map words).find? isRootEntry with
  | some parts => .ok (some parts)
  | none =>
    match mounts.lines.2 with
    | none => .ok none
    | some e => if e.isOSError then .ok none else .error e

/-- `text.removeprefix("/dev/")`. -/
def removeDev (text : List Char) : List Char :=
  if "/dev/".toList.isPrefixOf text then text.drop 5 else text

def rootDevice (mounts : File) : Except ReadError (Option (List Char)) := do
  return (← rootEntry mounts).map fun parts => removeDev (parts.getD 0 [])

def readRootReadonly (mounts : File) : Except ReadError (Option Bool) := do
  return (← rootEntry mounts).map fun parts => "ro".toList ∈ (parts.getD 3 []).splitOn ','

/-- The name up to its first `p`, for an `mmcblk` device. -/
def sdBlock (dev : List Char) : Option (List Char) :=
  if dev = [] ∨ ¬ "mmcblk".toList.isPrefixOf dev then none else some (dev.takeWhile (· ≠ 'p'))

def sdBlockDevice (mounts : File) : Except ReadError (Option (List Char)) := do
  return (← rootDevice mounts).bind sdBlock

/-! ## The SD card -/

/-- The attributes of the card that are read as texts. -/
inductive SdAttr
  | name
  | serial
  | date
  | type
  deriving DecidableEq

namespace SdAttr

def key : SdAttr → String
  | name => "sd_model"
  | serial => "sd_serial"
  | date => "sd_manufacture_date"
  | type => "sd_type"

/-- In the order of the loop. -/
def all : List SdAttr := [name, serial, date, type]

theorem mem_all (a : SdAttr) : a ∈ all := by cases a <;> decide

end SdAttr

/-- `open` of a file of a device: a path with a null character is a `ValueError`. -/
def openAt {α : Type} (dev : List Char) (body : Except ReadError α) : Except ReadError α :=
  if '\x00' ∈ dev then .error (.raised .valueError) else body

/-- `int(text) * 512` of a size in sectors. -/
def sectorBytes (sectors : ℤ) : ℤ := sectors * 512

/-- The text of an attribute, unless the file is unreadable. -/
def readSdAttr (dev : List Char) (attr : SdAttr → File) (a : SdAttr) :
    Except ReadError (Option (String × PyValue)) :=
  orElse ReadError.isOSError none do
    return some (a.key, .ofText (← openAt dev (attr a).readStripped))

/-- A capacity, unless the file has no number. -/
def readCapacity (key : String) (body : Except ReadError ℤ) :
    Except ReadError (Option (String × PyValue)) :=
  orElse ReadError.isFileError none do return some (key, .int (sectorBytes (← body)))

/-- The card behind the root device; `attr` and `size` are the files of a device. -/
def readSdInfo (mounts : File) (attr : List Char → SdAttr → File) (size : List Char → File) :
    Except ReadError (Dict String PyValue) := do
  match ← sdBlockDevice mounts with
  | none => return ∅
  | some dev =>
    let texts ← SdAttr.all.mapM (readSdAttr dev (attr dev))
    let capacity ← readCapacity "sd_capacity_bytes" (openAt dev (size dev).readInt)
    return Dict.ofList (texts.reduceOption ++ capacity.toList)

/-- `int(fields[i]) * 512`. -/
def sectorsAt (fields : List (List Char)) (i : ℕ) : Except ReadError ℤ := do
  return sectorBytes (← valueOrRaise (intOf? (← item fields i)))

def readSdBytes (mounts : File) (stat : List Char → File) :
    Except ReadError (Option (ℤ × ℤ)) := do
  match ← sdBlockDevice mounts with
  | none => return none
  | some dev =>
    orElse ReadError.isParseError none do
      let fields := words (← openAt dev (stat dev).read)
      return some (← sectorsAt fields 2, ← sectorsAt fields 6)

/-! ## The NVMe drive -/

/-- The blocks are the paths `nvme*n1`, sorted; only the first drive is read. -/
def readNvmeInfo (blocks : List String) (model size : String → File) :
    Except ReadError (Dict String PyValue) :=
  match blocks with
  | [] => return ∅
  | block :: _ => do
    let text ← orElse ReadError.isOSError none do
      return some ("nvme_model", .ofText (← (model block).readStripped))
    let capacity ← readCapacity "nvme_capacity_bytes" (size block).readInt
    return Dict.ofList (text.toList ++ capacity.toList)

/-- Where the output of an `nvme` subcommand comes from: the dump of the sidecar or, without a
dump file, the command itself. -/
inductive NvmeOutput
  | dumpFile (f : File)
  | notStarted
  | failed
  | stdout (bytes : List UInt8)

def NvmeOutput.read : NvmeOutput → Except ReadError (List Char)
  | dumpFile f => f.read
  | notStarted => .error .osError
  | failed => .error .subprocessError
  | stdout bytes => (File.content [bytes]).read

/-- `except (OSError, subprocess.SubprocessError, json.JSONDecodeError, TypeError)`. -/
def isNvmeError : ReadError → Bool
  | .osError | .subprocessError | .jsonDecodeError | .raised .typeError => true
  | _ => false

/-- What the interpreter adds to the code: how deep documents may nest where they are read and
where they are printed, and the text of a value that is no text itself. -/
structure Interpreter where
  scanDepth : ℕ
  reprDepth : ℕ
  repr : PyValue → List ℕ

def nvmeJson (py : Interpreter) (output : NvmeOutput) : Except ReadError PyValue :=
  orElse isNvmeError (.dict []) do loads py.scanDepth (← output.read)

/-- `NVME_SMART_FIELDS`. -/
def nvmeSmartFields : List String :=
  ["percent_used", "avail_spare", "spare_thresh", "power_on_hours", "unsafe_shutdowns",
    "media_errors", "critical_warning", "power_cycles", "data_units_read", "data_units_written",
    "host_read_commands", "host_write_commands", "controller_busy_time", "warning_temp_time",
    "critical_comp_time", "num_err_log_entries"]

/-- `data[key]`, if `data` is a dictionary with the key. -/
def PyValue.field? (data : PyValue) (key : String) : Option PyValue :=
  match data with
  | .dict entries => entries.lookup (key.toList.map Char.toNat)
  | _ => .none

def readNvmeSmart (py : Interpreter) (smartLog : NvmeOutput) :
    Except ReadError (Dict String PyValue) := do
  let data ← nvmeJson py smartLog
  return Dict.ofList (nvmeSmartFields.filterMap fun key =>
    (data.field? key).map fun v => ("nvme_" ++ key, v))

/-- `str(v)`. -/
def Interpreter.str (py : Interpreter) : PyValue → Except ReadError (List ℕ)
  | .str text => .ok text
  | v => if v.depth ≤ py.reprDepth then .ok (py.repr v) else .error .recursionError

/-- `text.strip()` of code points. -/
def stripCodes (text : List ℕ) : List ℕ :=
  let isSpace := fun n => PyText.isSpace (Char.ofNat n)
  ((text.dropWhile isSpace).reverse.dropWhile isSpace).reverse

/-- `out[key] = str(data[field]).strip()`, if the field is there. -/
def readIdText (py : Interpreter) (data : PyValue) (field key : String) :
    Except ReadError (Option (String × PyValue)) :=
  match data.field? field with
  | none => .ok none
  | some v => do return some (key, .str (stripCodes (← py.str v)))

def readNvmeCtrlInfo (py : Interpreter) (idCtrl : NvmeOutput) :
    Except ReadError (Dict String PyValue) := do
  let data ← nvmeJson py idCtrl
  let firmware ← readIdText py data "fr" "nvme_firmware"
  let serial ← readIdText py data "sn" "nvme_serial"
  return Dict.ofList (firmware.toList ++ serial.toList)

end NodeAgent

end PiWatch
