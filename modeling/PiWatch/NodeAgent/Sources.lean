import PiWatch.NodeAgent.PayloadParts

/-!
# Sources and their fields

Every field of a payload comes from sources of its own. A source that says nothing leaves its
fields out, and no field depends on the sources of the others.
-/

namespace PiWatch

namespace NodeAgent

/-- What a call reads, each with the files of one kind. -/
inductive Source
  | thermalZones
  | loadavg
  | meminfo
  | uptime
  | disk
  | hwmonNames
  | temp1Input
  | in0LcritAlarm
  | mounts
  | nvmeBlocks
  | nvmeModel
  | nvmeSize
  | smartLog
  | idCtrl
  | sdAttr (a : SdAttr)
  | sdSize
  | sdStat
  | interfaces

/-- The fields a source is read for. -/
def Source.fields : Source → List String
  | thermalZones => ["temp_c"]
  | loadavg => ["load1", "load5"]
  | meminfo => ["mem_total_kb", "mem_available_kb"]
  | uptime => ["uptime_s"]
  | disk => ["disk_used_pct"]
  | hwmonNames => ["nvme_temp_c", "undervoltage"]
  | temp1Input => ["nvme_temp_c"]
  | in0LcritAlarm => ["undervoltage"]
  | mounts => "root_readonly" :: Part.card.keys ++ Part.sdRates.keys
  | nvmeBlocks => ["nvme_model", "nvme_capacity_bytes"]
  | nvmeModel => ["nvme_model"]
  | nvmeSize => ["nvme_capacity_bytes"]
  | smartLog => Part.smart.keys ++ Part.nvmeRates.keys
  | idCtrl => ["nvme_firmware", "nvme_serial"]
  | sdAttr a => [a.key]
  | sdSize => ["sd_capacity_bytes"]
  | sdStat => ["sd_read_bytes_per_s", "sd_write_bytes_per_s"]
  | interfaces => ["net_rx_bytes_per_s", "net_tx_bytes_per_s"]

theorem Source.ne_of_field {src src' : Source} {k : String} (hk : k ∉ src.fields)
    (h : k ∈ src'.fields) : src ≠ src' := by
  rintro rfl
  exact hk h

namespace Host

/-- The other host differs in one source at most. -/
structure SameBut (src : Source) (h h' : Host) : Prop where
  nodeName : h'.nodeName = h.nodeName
  nvmeNow : h'.nvmeNow = h.nvmeNow
  sdNow : h'.sdNow = h.sdNow
  netNow : h'.netNow = h.netNow
  thermalZones : src ≠ .thermalZones → h'.thermalZones = h.thermalZones
  loadavg : src ≠ .loadavg → h'.loadavg = h.loadavg
  meminfo : src ≠ .meminfo → h'.meminfo = h.meminfo
  uptime : src ≠ .uptime → h'.uptime = h.uptime
  disk : src ≠ .disk → h'.disk = h.disk
  hwmons : src ≠ .hwmonNames → h'.hwmons = h.hwmons
  hwmonNames : src ≠ .hwmonNames → h'.hwmonName = h.hwmonName
  temp1Input : src ≠ .temp1Input → h'.temp1Input = h.temp1Input
  in0LcritAlarm : src ≠ .in0LcritAlarm → h'.in0LcritAlarm = h.in0LcritAlarm
  mounts : src ≠ .mounts → h'.mounts = h.mounts
  nvmeBlocks : src ≠ .nvmeBlocks → h'.nvmeBlocks = h.nvmeBlocks
  nvmeModel : src ≠ .nvmeModel → h'.nvmeModel = h.nvmeModel
  nvmeSize : src ≠ .nvmeSize → h'.nvmeSize = h.nvmeSize
  smartLog : src ≠ .smartLog → h'.smartLog = h.smartLog
  idCtrl : src ≠ .idCtrl → h'.idCtrl = h.idCtrl
  sdAttr : ∀ a, src ≠ .sdAttr a → ∀ dev, h'.sdAttr dev a = h.sdAttr dev a
  sdSize : src ≠ .sdSize → h'.sdSize = h.sdSize
  sdStat : src ≠ .sdStat → h'.sdStat = h.sdStat
  ifaces : src ≠ .interfaces → h'.ifaces = h.ifaces
  hasDevice : src ≠ .interfaces → h'.hasDevice = h.hasDevice
  statistics : src ≠ .interfaces → h'.statistics = h.statistics

/-! ## The other fields do not change -/

theorem baseItems_of_sameBut {src : Source} {h h' : Host} (same : SameBut src h h') {k : String}
    (hk : k ∉ src.fields) :
    (Dict.ofList h'.baseItems).get? k = (Dict.ofList h.baseItems).get? k := by
  have hne : ∀ {src' : Source} {field : String}, field ∈ src'.fields → field = k → src ≠ src' :=
    fun hfield heq => Source.ne_of_field hk (heq ▸ hfield)
  apply Dict.get?_ofList_congr
  simp only [baseItems, List.forall₂_cons, List.forall₂_nil_left_iff, true_and, and_true]
  refine ⟨?_, ?_, ?_, ?_, ?_, ?_, ?_, ?_, ?_, ?_, ?_⟩
  · intro _
    rw [same.nodeName]
  · intro hkey
    rw [same.thermalZones (hne (by decide) hkey)]
  · intro hkey
    rw [same.loadavg (hne (by decide) hkey)]
  · intro hkey
    rw [same.loadavg (hne (by decide) hkey)]
  · intro hkey
    rw [same.meminfo (hne (by decide) hkey)]
  · intro hkey
    rw [same.meminfo (hne (by decide) hkey)]
  · intro hkey
    rw [diskUsedPct, diskUsedPct, same.disk (hne (by decide) hkey)]
  · intro hkey
    rw [same.uptime (hne (by decide) hkey)]
  · intro hkey
    rw [same.hwmons (hne (by decide) hkey), same.hwmonNames (hne (by decide) hkey),
      same.temp1Input (hne (by decide) hkey)]
  · intro hkey
    rw [same.hwmons (hne (by decide) hkey), same.hwmonNames (hne (by decide) hkey),
      same.in0LcritAlarm (hne (by decide) hkey)]
  · intro hkey
    rw [same.mounts (hne (by decide) hkey)]

theorem card_of_sameBut {src : Source} {h h' : Host} (same : SameBut src h h') {k : String}
    (hk : k ∉ src.fields) (hkey : k ∈ Part.card.keys) {card card' : Dict String PyValue}
    (hcard : readSdInfo h.mounts h.sdAttr h.sdSize = .ok card)
    (hcard' : readSdInfo h'.mounts h'.sdAttr h'.sdSize = .ok card') :
    card'.get? k = card.get? k := by
  have hmounts : src ≠ .mounts :=
    Source.ne_of_field hk (List.mem_cons_of_mem _ (List.mem_append_left _ hkey))
  rw [readSdInfo_eq hcard, readSdInfo_eq hcard', same.mounts hmounts]
  cases sdDevice? h.mounts with
  | none => rfl
  | some dev =>
    simp only [Option.map_some, Option.getD_some]
    rcases List.mem_append.mp hkey with htext | hcapacity
    · obtain ⟨a, -, rfl⟩ := List.mem_map.mp htext
      rw [get?_cardItems_key, get?_cardItems_key,
        same.sdAttr a (Source.ne_of_field hk (List.mem_singleton_self _)) dev]
    · obtain rfl := List.mem_singleton.mp hcapacity
      rw [get?_cardItems_of_ne _ _ _ SdAttr.capacity_ne_key,
        get?_cardItems_of_ne _ _ _ SdAttr.capacity_ne_key,
        same.sdSize (Source.ne_of_field hk (by decide))]

theorem info_of_sameBut {src : Source} {h h' : Host} (same : SameBut src h h') {k : String}
    (hk : k ∉ src.fields) (hkey : k ∈ Part.info.keys) {info info' : Dict String PyValue}
    (hinfo : readNvmeInfo h.nvmeBlocks h.nvmeModel h.nvmeSize = .ok info)
    (hinfo' : readNvmeInfo h'.nvmeBlocks h'.nvmeModel h'.nvmeSize = .ok info') :
    info'.get? k = info.get? k := by
  rw [readNvmeInfo_eq hinfo, readNvmeInfo_eq hinfo', same.nvmeBlocks (Source.ne_of_field hk hkey),
    Dict.get?_ofList_append, Dict.get?_ofList_append, get?_slot, get?_slot, get?_slot, get?_slot]
  rcases List.mem_pair.mp hkey with rfl | rfl
  · rw [same.nvmeModel (Source.ne_of_field hk (by decide))]
    rfl
  · rw [same.nvmeSize (Source.ne_of_field hk (by decide))]
    rfl

theorem netBytes_of_sameBut {src : Source} {h h' : Host} (same : SameBut src h h')
    (hne : src ≠ .interfaces) : h'.netBytes = h.netBytes := by
  have hcounter : h'.netCounter = h.netCounter := by
    funext iface flow
    rw [netCounter, netCounter, same.statistics hne]
  rw [netBytes, netBytes, hcounter, physicalNetInterfaces, physicalNetInterfaces, same.ifaces hne,
    same.hasDevice hne]

/-- A part reads a field as before if none of the sources of the field has changed. -/
theorem result_of_sameBut {py : Interpreter} {s : RateState} {src : Source} {h h' : Host}
    (same : SameBut src h h') {k : String} (hk : k ∉ src.fields) {p : Part} (hkey : k ∈ p.keys)
    {d d' : Dict String PyValue} (hread : p.read py s h = .ok d)
    (hread' : p.read py s h' = .ok d') : d'.get? k = d.get? k := by
  have hall : p.read py s h' = p.read py s h → d'.get? k = d.get? k := fun heq => by
    rw [Except.ok.inj (hread'.symm.trans (heq.trans hread))]
  cases p with
  | base =>
    rw [basePayload_eq hread, basePayload_eq hread']
    exact baseItems_of_sameBut same hk
  | info => exact info_of_sameBut same hk hkey hread hread'
  | smart =>
    apply hall
    simp only [Part.read]
    rw [same.smartLog (Source.ne_of_field hk (List.mem_append_left _ hkey))]
  | ctrl =>
    apply hall
    simp only [Part.read]
    rw [same.idCtrl (Source.ne_of_field hk hkey)]
  | nvmeRates =>
    apply hall
    simp only [Part.read, nvmeRates, nvmeSample]
    rw [same.smartLog (Source.ne_of_field hk (List.mem_append_right _ hkey)), same.nvmeNow]
  | card => exact card_of_sameBut same hk hkey hread hread'
  | sdRates =>
    apply hall
    simp only [Part.read, sdRates]
    rw [same.mounts (Source.ne_of_field hk (List.mem_cons_of_mem _
      (List.mem_append_right _ hkey))), same.sdStat (Source.ne_of_field hk hkey), same.sdNow]
  | netRates =>
    apply hall
    simp only [Part.read, netRates]
    rw [netBytes_of_sameBut same (Source.ne_of_field hk hkey), same.netNow]

/-- The fields of the other sources do not change. -/
theorem get?_of_sameBut {py : Interpreter} {s : RateState} {src : Source} {h h' : Host}
    (same : SameBut src h h') {k : String} (hk : k ∉ src.fields)
    {payload payload' : Dict String PyValue} (hp : outcome py s h = .ok payload)
    (hp' : outcome py s h' = .ok payload') : payload'.get? k = payload.get? k := by
  by_cases hkey : ∃ p : Part, k ∈ p.keys
  · obtain ⟨p, hkey⟩ := hkey
    rw [get?_payload hp hkey, get?_payload hp' hkey]
    exact result_of_sameBut same hk hkey ((parts_of_outcome hp).1 p) ((parts_of_outcome hp').1 p)
  · have hnone : ∀ p : Part, k ∉ p.keys := fun p hp => hkey ⟨p, hp⟩
    rw [get?_payload_of_notMem hp hnone, get?_payload_of_notMem hp' hnone]

end Host

/-! ## What says nothing leaves its fields out -/

/-- The first three words of a load average, if all are numbers. -/
def loadOf? (loadavg : File) : Option (PyFloat × PyFloat × PyFloat) := do
  let parts := words (← loadavg.text?)
  return (← parts[0]?.bind floatOf?, ← parts[1]?.bind floatOf?, ← parts[2]?.bind floatOf?)

/-- The number of a line of `/proc/meminfo`, if it has the key. -/
def memOf? (key : String) (line : List Char) : Option ℤ :=
  if (partitionColon line).1 = key.toList then
    (words (PyText.strip (partitionColon line).2)).head?.bind intOf?
  else none

namespace Host

/-- The sources of a field say nothing that can be interpreted. -/
inductive Unread (py : Interpreter) (h : Host) : String → Prop
  | tempC (hzones : ∀ zone ∈ h.thermalZones, zone.int? = none) : Unread py h "temp_c"
  | load {k : String} (hk : k ∈ Source.loadavg.fields) (hload : loadOf? h.loadavg = none) :
      Unread py h k
  | memTotal (hlines : ∀ line ∈ h.meminfo.lines.1, memOf? "MemTotal" line = none) :
      Unread py h "mem_total_kb"
  | memAvailable (hlines : ∀ line ∈ h.meminfo.lines.1, memOf? "MemAvailable" line = none) :
      Unread py h "mem_available_kb"
  | disk (hdisk : ∀ d, h.disk = some d → d.total = 0) : Unread py h "disk_used_pct"
  | uptime (huptime : ∀ x, h.uptime.firstFloat? = some x → ¬ x.isFinite) : Unread py h "uptime_s"
  | nvmeTempC (hmonitors : ∀ path ∈ h.hwmons,
      (h.hwmonName path).stripped? = some "nvme".toList → (h.temp1Input path).int? = none) :
      Unread py h "nvme_temp_c"
  | undervoltage (hmonitors : ∀ path ∈ h.hwmons,
      (h.hwmonName path).stripped? = some "rpi_volt".toList →
        (h.in0LcritAlarm path).text? = none) : Unread py h "undervoltage"
  | rootReadonly (hmounts : rootParts? h.mounts = none) : Unread py h "root_readonly"
  | nvmeModel (hmodel : ∀ block, h.nvmeBlocks.head? = some block →
      (h.nvmeModel block).text? = none) : Unread py h "nvme_model"
  | nvmeCapacity (hsize : ∀ block, h.nvmeBlocks.head? = some block →
      (h.nvmeSize block).int? = none) : Unread py h "nvme_capacity_bytes"
  | smart {field : String} (hfield : field ∈ nvmeSmartFields)
      (hdata : (document py h.smartLog).field? field = none) : Unread py h ("nvme_" ++ field)
  | firmware (hdata : (document py h.idCtrl).field? "fr" = none) : Unread py h "nvme_firmware"
  | serial (hdata : (document py h.idCtrl).field? "sn" = none) : Unread py h "nvme_serial"
  | nvmeRate {k : String} (hk : k ∈ Part.nvmeRates.keys) (hcounters : h.nvmeCounters py = none) :
      Unread py h k
  | sdText (a : SdAttr) (hdev : ∀ dev, sdDevice? h.mounts = some dev →
      (h.sdAttr dev a).text? = none) : Unread py h a.key
  | sdCapacity (hdev : ∀ dev, sdDevice? h.mounts = some dev → (h.sdSize dev).int? = none) :
      Unread py h "sd_capacity_bytes"
  | sdRate {k : String} (hk : k ∈ Part.sdRates.keys)
      (hbytes : sdBytes? h.mounts h.sdStat = none) : Unread py h k
  | netRate {k : String} (hk : k ∈ Part.netRates.keys) (hbytes : h.netBytes = none) :
      Unread py h k

end Host

/-! ### What a value was read from -/

theorem eq_ok_of_orElse {α : Type} {caught : ReadError → Bool}
    {body : Except ReadError (Option α)} {a : α} (h : orElse caught none body = .ok (some a)) :
    body = .ok (some a) := by
  cases body with
  | ok b => exact h
  | error e => cases hcaught : caught e <;> simp [orElse, hcaught] at h

theorem int?_of_readMilliDegrees {f : File} {x : PyFloat} (h : readMilliDegrees f = .ok x) :
    f.int? ≠ none := by
  intro hnone
  obtain ⟨e, herror, -⟩ := readMilliDegrees_of_none hnone
  rw [herror] at h
  cases h

theorem exists_of_readTempC {zones : List File} {x : PyFloat}
    (h : readTempC zones = .ok (some x)) : ∃ zone ∈ zones, zone.int? ≠ none := by
  rw [readTempC_eq] at h
  cases hfind : zones.findSome? File.int? with
  | none =>
    rw [hfind] at h
    cases h
  | some n =>
    obtain ⟨zone, hzone, hint⟩ := List.exists_of_findSome?_eq_some hfind
    exact ⟨zone, hzone, by simp [hint]⟩

theorem readLoad_eq {loadavg : File} {load : PyFloat × PyFloat × PyFloat}
    (h : readLoad loadavg = .ok (some load)) : loadOf? loadavg = some load := by
  have hbody := eq_ok_of_orElse h
  simp only [bind_eq_ok_iff, floatAt_eq_ok_iff] at hbody
  obtain ⟨text, hread, load1, hload1, load5, hload5, load15, hload15, heq⟩ := hbody
  obtain rfl := Option.some.inj (Except.ok.inj heq)
  rw [loadOf?, File.text?_eq_some_iff.mpr hread]
  simp only [Option.bind_eq_bind, Option.bind_some, hload1, hload5, hload15]
  rfl

theorem exists_of_readUptimeS {uptime : File} {seconds : ℤ}
    (h : readUptimeS uptime = .ok (some seconds)) :
    ∃ x, uptime.firstFloat? = some x ∧ x.isFinite := by
  have hbody := eq_ok_of_orElse h
  simp only [bind_eq_ok_iff] at hbody
  obtain ⟨text, hread, x, hfloat, z, hint, -⟩ := hbody
  refine ⟨x, ?_, ?_⟩
  · rw [File.firstFloat?, File.text?_eq_some_iff.mpr hread]
    exact floatAt_zero_eq_ok_iff.mp hfloat
  · cases x with
    | finite q => rfl
    | _ => cases hint

theorem exists_of_diskUsedPct {h : Host} {x : PyFloat} (hread : h.diskUsedPct = .ok (some x)) :
    ∃ d, h.disk = some d ∧ d.total ≠ 0 := by
  have hreturns := (Host.returns_diskUsedPct_iff h).mp ⟨_, hread⟩
  have hbody := eq_ok_of_orElse hread
  cases hdisk : h.disk with
  | none =>
    rw [hdisk] at hbody
    cases hbody
  | some d => exact ⟨d, rfl, (hreturns d hdisk).1⟩

/-- A value of a monitor is read from one with the name of the driver. -/
theorem exists_of_hwmon {α : Type} {driverName : List Char} {hwmons : List String}
    {name : String → File} {read : String → Except ReadError (Option α)} {a : α}
    (h : (do
      match ← findHwmon driverName hwmons name with
      | none => return none
      | some hwmon => read hwmon) = .ok (some a)) :
    ∃ path ∈ hwmons, (name path).stripped? = some driverName ∧ read path = .ok (some a) := by
  rw [findHwmon_eq] at h
  cases hfind : hwmonOf? driverName hwmons name with
  | none =>
    rw [hfind] at h
    cases h
  | some path =>
    have hends : EndsSearch driverName (name path) := by simpa using List.find?_some hfind
    by_cases hbad : (name path).Undecodable
    · simp [hfind, hbad] at h
    · simp only [hfind, hbad, if_false, ok_bind] at h
      exact ⟨path, List.mem_of_find?_eq_some hfind, hends.resolve_left hbad, h⟩

theorem exists_of_readNvmeTempC {hwmons : List String} {name temp1Input : String → File}
    {x : PyFloat} (h : readNvmeTempC hwmons name temp1Input = .ok (some x)) :
    ∃ path ∈ hwmons, (name path).stripped? = some "nvme".toList ∧
      (temp1Input path).int? ≠ none := by
  obtain ⟨path, hpath, hname, hread⟩ := exists_of_hwmon h
  obtain ⟨y, hy, -⟩ := bind_eq_ok_iff.mp (eq_ok_of_orElse hread)
  exact ⟨path, hpath, hname, int?_of_readMilliDegrees hy⟩

theorem exists_of_readUndervoltage {hwmons : List String} {name in0LcritAlarm : String → File}
    {b : Bool} (h : readUndervoltage hwmons name in0LcritAlarm = .ok (some b)) :
    ∃ path ∈ hwmons, (name path).stripped? = some "rpi_volt".toList ∧
      (in0LcritAlarm path).text? ≠ none := by
  obtain ⟨path, hpath, hname, hread⟩ := exists_of_hwmon h
  obtain ⟨text, htext, -⟩ := bind_eq_ok_iff.mp (eq_ok_of_orElse hread)
  have hstripped := File.toOption_readStripped (in0LcritAlarm path)
  rw [htext] at hstripped
  refine ⟨path, hpath, hname, fun hnone => ?_⟩
  rw [File.stripped?, hnone] at hstripped
  cases hstripped

theorem rootParts?_of_readRootReadonly {mounts : File} {b : Bool}
    (h : readRootReadonly mounts = .ok (some b)) : rootParts? mounts ≠ none := by
  have hroot := (returns_readRootReadonly_iff mounts).mp ⟨_, h⟩
  rw [readRootReadonly, rootEntry_of_delivered hroot] at h
  intro hnone
  rw [hnone] at h
  cases h

theorem get?_memLines {key : String} {lines : List (List Char)} {out : Dict String ℤ}
    (hlines : ∀ line ∈ lines, memOf? key line = none) (hout : out.get? key = none) :
    (memLines out lines).1.get? key = none := by
  induction lines generalizing out with
  | nil => exact hout
  | cons line lines ih =>
    rw [List.forall_mem_cons] at hlines
    rw [memLines]
    cases hline : memLine out line with
    | error e => exact hout
    | ok out' =>
      apply ih hlines.2
      rw [← hout]
      unfold memLine at hline
      dsimp only at hline
      split_ifs at hline with hkey
      · simp only [bind_eq_ok_iff, item_eq_ok_iff, valueOrRaise_eq_ok_iff] at hline
        obtain ⟨first, hfirst, n, hn, heq⟩ := hline
        obtain rfl := Except.ok.inj heq
        -- the line has a number, so its key is another one
        refine Dict.get?_insert_of_ne _ _ fun hsame => ?_
        have hmem : memOf? key line = some n := by
          rw [memOf?, if_pos (by rw [hsame, String.toList_ofList]), List.head?_eq_getElem?,
            hfirst, Option.bind_some, hn]
        rw [hlines.1] at hmem
        cases hmem
      · rw [Except.ok.inj hline]

/-! ### Missing fields -/

theorem isMissing_ofOption {α : Type} {f : α → PyValue} {x : Except ReadError (Option α)}
    (h : ∀ a, x ≠ .ok (some a)) :
    PyValue.IsMissing (some (.ofOption f (x.toOption.getD none))) := by
  right
  cases x with
  | error e => rfl
  | ok o =>
    cases o with
    | none => rfl
    | some a => exact absurd rfl (h a)

theorem ratesAfter_none {unit : ℤ} {inputKey outputKey : String} {prev : Option RateSample}
    {rates : Dict String PyValue} (h : ratesAfter unit inputKey outputKey prev none = .ok rates)
    (k : String) : rates.get? k = none := by
  obtain rfl := Except.ok.inj h
  rfl

namespace Host

variable {py : Interpreter} {s : RateState} {h : Host} {payload : Dict String PyValue}

theorem get?_base (hp : outcome py s h = .ok payload) {key : String} {v : PyValue}
    (hmem : (key, v) ∈ h.baseItems) : payload.get? key = some v := by
  have hkeys : h.baseItems.map Prod.fst = Part.base.keys := rfl
  have hkey : key ∈ Part.base.keys := hkeys ▸ List.mem_map_of_mem hmem
  have hread := (parts_of_outcome hp).1 .base
  rw [get?_payload hp hkey, basePayload_eq hread]
  exact Dict.get?_ofList_of_nodup (by rw [hkeys]; decide) hmem

theorem isMissing_base {α : Type} (hp : outcome py s h = .ok payload) {key : String}
    {f : α → PyValue} {x : Except ReadError (Option α)}
    (hmem : (key, .ofOption f (x.toOption.getD none)) ∈ h.baseItems)
    (hx : ∀ a, x ≠ .ok (some a)) : PyValue.IsMissing (payload.get? key) := by
  rw [get?_base hp hmem]
  exact isMissing_ofOption hx

theorem isMissing_card (hp : outcome py s h = .ok payload) {k : String}
    (hk : k ∈ Part.card.keys) (hdev : ∀ dev, sdDevice? h.mounts = some dev →
      (Dict.ofList (cardItems dev (h.sdAttr dev) (h.sdSize dev))).get? k = none) :
    PyValue.IsMissing (payload.get? k) := by
  rw [get?_payload hp hk, readSdInfo_eq ((parts_of_outcome hp).1 .card)]
  cases hsd : sdDevice? h.mounts with
  | none => exact .inl rfl
  | some dev => exact .inl (hdev dev hsd)

/-- A field whose sources say nothing is missing. -/
theorem isMissing_of_unread (hp : outcome py s h = .ok payload) {k : String}
    (hk : Unread py h k) : PyValue.IsMissing (payload.get? k) := by
  have hread := (parts_of_outcome hp).1
  induction hk with
  | tempC hzones =>
    refine isMissing_base hp (f := .float) (x := readTempC h.thermalZones)
      (by simp [baseItems]) fun x hx => ?_
    obtain ⟨zone, hzone, hint⟩ := exists_of_readTempC hx
    exact hint (hzones zone hzone)
  | load hk hload =>
    have hnone : ∀ load, readLoad h.loadavg ≠ .ok (some load) := by
      intro load hx
      rw [readLoad_eq hx] at hload
      cases hload
    rcases List.mem_pair.mp hk with rfl | rfl
    · exact isMissing_base hp (f := fun load => .float load.1) (by simp [baseItems]) hnone
    · exact isMissing_base hp (f := fun load => .float load.2.1) (by simp [baseItems]) hnone
  | memTotal hlines =>
    rw [get?_base hp (v := .ofOption .int ((memLines ∅ h.meminfo.lines.1).1.get? "MemTotal"))
      (by simp [baseItems]), get?_memLines hlines rfl]
    exact .inr rfl
  | memAvailable hlines =>
    rw [get?_base hp (v := .ofOption .int ((memLines ∅ h.meminfo.lines.1).1.get? "MemAvailable"))
      (by simp [baseItems]), get?_memLines hlines rfl]
    exact .inr rfl
  | disk hdisk =>
    refine isMissing_base hp (f := .float) (x := h.diskUsedPct)
      (by simp [baseItems]) fun x hx => ?_
    obtain ⟨d, hd, htotal⟩ := exists_of_diskUsedPct hx
    exact htotal (hdisk d hd)
  | uptime huptime =>
    refine isMissing_base hp (f := .int) (x := readUptimeS h.uptime)
      (by simp [baseItems]) fun x hx => ?_
    obtain ⟨seconds, hseconds, hfinite⟩ := exists_of_readUptimeS hx
    exact huptime seconds hseconds hfinite
  | nvmeTempC hmonitors =>
    refine isMissing_base hp (f := .float) (x := readNvmeTempC h.hwmons h.hwmonName h.temp1Input)
      (by simp [baseItems]) fun x hx => ?_
    obtain ⟨path, hpath, hname, hint⟩ := exists_of_readNvmeTempC hx
    exact hint (hmonitors path hpath hname)
  | undervoltage hmonitors =>
    refine isMissing_base hp (f := .bool)
      (x := readUndervoltage h.hwmons h.hwmonName h.in0LcritAlarm)
      (by simp [baseItems]) fun x hx => ?_
    obtain ⟨path, hpath, hname, htext⟩ := exists_of_readUndervoltage hx
    exact htext (hmonitors path hpath hname)
  | rootReadonly hmounts =>
    exact isMissing_base hp (f := .bool) (x := readRootReadonly h.mounts)
      (by simp [baseItems]) fun x hx => rootParts?_of_readRootReadonly hx hmounts
  | nvmeModel hmodel =>
    have hnone : (h.nvmeBlocks.head?.bind fun b => (h.nvmeModel b).stripped?) = none :=
      Option.bind_eq_none_iff.mpr fun block hblock => by
        rw [File.stripped?, hmodel block hblock]
        rfl
    rw [get?_payload hp (p := .info) (by decide), readNvmeInfo_eq (hread .info),
      Dict.get?_ofList_append, get?_slot, get?_slot, hnone]
    exact .inl rfl
  | nvmeCapacity hsize =>
    have hnone : (h.nvmeBlocks.head?.bind fun b => (h.nvmeSize b).int?) = none :=
      Option.bind_eq_none_iff.mpr hsize
    rw [get?_payload hp (p := .info) (by decide), readNvmeInfo_eq (hread .info),
      Dict.get?_ofList_append, get?_slot, get?_slot, hnone]
    exact .inl rfl
  | smart hfield hdata =>
    rw [get?_payload hp (p := .smart) (List.mem_map_of_mem hfield),
      readNvmeSmart_get? (hread .smart) hfield, hdata]
    exact .inl rfl
  | firmware hdata =>
    rw [get?_payload hp (p := .ctrl) (by decide)]
    exact .inl ((readNvmeCtrlInfo_get? (k := "nvme_firmware") (hread .ctrl)).2.1 hdata)
  | serial hdata =>
    rw [get?_payload hp (p := .ctrl) (by decide)]
    exact .inl ((readNvmeCtrlInfo_get? (k := "nvme_serial") (hread .ctrl)).2.2 hdata)
  | nvmeRate hk hcounters =>
    obtain ⟨smart, hsmart, hrates⟩ := bind_eq_ok_iff.mp (hread .nvmeRates)
    rw [nvmeRates, nvmeSample_eq hsmart, hcounters] at hrates
    rw [get?_payload hp hk]
    exact .inl (ratesAfter_none hrates _)
  | sdText a hdev =>
    have hkey : a.key ∈ Part.card.keys :=
      List.mem_append_left _ (List.mem_map_of_mem (SdAttr.mem_all a))
    refine isMissing_card hp hkey fun dev hsd => ?_
    rw [get?_cardItems_key, File.stripped?, hdev dev hsd]
    rfl
  | sdCapacity hdev =>
    refine isMissing_card hp (by decide) fun dev hsd => ?_
    have hnone : (openAt dev (h.sdSize dev).readInt).toOption = none := by
      rw [toOption_openAt_readInt, hdev dev hsd, ite_self]
    rw [get?_cardItems_of_ne _ _ _ SdAttr.capacity_ne_key, hnone]
    rfl
  | sdRate hk hbytes =>
    obtain ⟨bytes, hsd, hrates⟩ := bind_eq_ok_iff.mp (hread .sdRates)
    have hroot := (returns_readSdBytes_iff h.mounts h.sdStat).mp ⟨bytes, hsd⟩
    rw [readSdBytes_of_delivered hroot] at hsd
    obtain rfl := Except.ok.inj hsd
    rw [sdRates, hbytes] at hrates
    rw [get?_payload hp hk]
    exact .inl (ratesAfter_none hrates _)
  | netRate hk hbytes =>
    have hrates := hread .netRates
    rw [Part.read, netRates, hbytes] at hrates
    rw [get?_payload hp hk]
    exact .inl (ratesAfter_none hrates _)

end Host

end NodeAgent

end PiWatch
