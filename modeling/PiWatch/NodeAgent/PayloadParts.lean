import PiWatch.NodeAgent.CallOutcomes

/-!
# What the parts of a payload hold

The fields of a payload as functions of their sources, for a call that returns.
-/

namespace PiWatch

namespace NodeAgent

/-- What a handler makes of a value that may be missing. -/
theorem eq_of_orElse {α β : Type} {caught : ReadError → Bool} {x : Except ReadError α}
    {g : α → β} {o : Option β}
    (h : orElse caught none (do return some (g (← x))) = .ok o) : o = x.toOption.map g := by
  cases x with
  | ok a => exact (Except.ok.inj h).symm
  | error e =>
    cases hcaught : caught e with
    | true =>
      simp only [error_bind, orElse, hcaught, if_true, Except.ok.injEq] at h
      exact h.symm
    | false => simp [orElse, hcaught] at h

/-- A field, if it has a value. -/
def slot (key : String) (v : Option PyValue) : List (String × PyValue) :=
  (v.map fun v => (key, v)).toList

theorem get?_slot (key k : String) (v : Option PyValue) :
    (Dict.ofList (slot key v)).get? k = if k = key then v else none := by
  cases v with
  | none => simp [slot, Dict.get?_ofList]
  | some v =>
    rw [slot, Dict.get?_ofList]
    by_cases hk : k = key
    · simp [hk]
    · simp [hk, List.lookup_cons, beq_eq_false_iff_ne.mpr hk]

/-- The stripped text of a file. -/
def File.stripped? (f : File) : Option (List Char) := f.text?.map PyText.strip

theorem File.toOption_readStripped (f : File) : f.readStripped.toOption = f.stripped? := by
  rw [readStripped, stripped?, text?]
  cases f.read <;> rfl

theorem File.toOption_readInt (f : File) : f.readInt.toOption = f.int? := by
  cases h : f.readInt with
  | ok n => exact (File.readInt_eq_ok_iff.mp h).symm
  | error e =>
    cases hint : f.int? with
    | none => rfl
    | some n =>
      rw [File.readInt_eq_ok_iff.mpr hint] at h
      cases h

/-! ## The NVMe drive -/

theorem readNvmeInfo_eq {blocks : List String} {model size : String → File}
    {info : Dict String PyValue} (h : readNvmeInfo blocks model size = .ok info) :
    info = Dict.ofList
      (slot "nvme_model" ((blocks.head?.bind fun b => (model b).stripped?).map .ofText) ++
        slot "nvme_capacity_bytes"
          ((blocks.head?.bind fun b => (size b).int?).map fun n => .int (sectorBytes n))) := by
  cases blocks with
  | nil => exact (Except.ok.inj h).symm
  | cons block blocks =>
    simp only [readNvmeInfo, bind_eq_ok_iff] at h
    obtain ⟨text, htext, capacity, hcapacity, heq⟩ := h
    obtain rfl := Except.ok.inj heq
    rw [eq_of_orElse htext, eq_of_orElse (g := fun n => ("nvme_capacity_bytes",
      PyValue.int (sectorBytes n))) hcapacity, File.toOption_readStripped, File.toOption_readInt]
    simp only [slot, List.head?_cons, Option.bind_some, Option.map_map]
    rfl

/-- The two texts of `id-ctrl`. -/
theorem readNvmeCtrlInfo_get? {py : Interpreter} {idCtrl : NvmeOutput}
    {ctrl : Dict String PyValue} (h : readNvmeCtrlInfo py idCtrl = .ok ctrl) {k : String} :
    (k ∉ Part.ctrl.keys → ctrl.get? k = none) ∧
      ((document py idCtrl).field? "fr" = none → ctrl.get? "nvme_firmware" = none) ∧
      ((document py idCtrl).field? "sn" = none → ctrl.get? "nvme_serial" = none) := by
  have hload := ((returns_readNvmeCtrlInfo_iff py idCtrl).mp ⟨ctrl, h⟩).1
  have htext : ∀ {field key : String} {o}, readIdText py (document py idCtrl) field key = .ok o →
      ∃ v, o.toList = slot key v ∧ ((document py idCtrl).field? field = none → v = none) := by
    intro field key o ho
    unfold readIdText at ho
    cases hentry : (document py idCtrl).field? field with
    | none =>
      rw [hentry] at ho
      obtain rfl := Except.ok.inj ho
      exact ⟨none, rfl, fun _ => rfl⟩
    | some v =>
      rw [hentry] at ho
      obtain ⟨text, -, heq⟩ := bind_eq_ok_iff.mp ho
      obtain rfl := Except.ok.inj heq
      exact ⟨some (.str (stripCodes text)), rfl, fun hnone => by cases hnone⟩
  simp only [readNvmeCtrlInfo, nvmeJson_of_loadable hload, ok_bind, bind_eq_ok_iff] at h
  obtain ⟨firmware, hfirmware, serial, hserial, heq⟩ := h
  obtain rfl := Except.ok.inj heq
  obtain ⟨v, hv, hnofw⟩ := htext hfirmware
  obtain ⟨w, hw, hnosn⟩ := htext hserial
  simp only [hv, hw, Dict.get?_ofList_append, get?_slot]
  refine ⟨fun hk => ?_, fun hnone => ?_, fun hnone => ?_⟩
  · simp only [Part.keys, List.mem_cons, List.not_mem_nil, or_false, not_or] at hk
    simp [hk]
  · simp [hnofw hnone]
  · simp [hnosn hnone]

theorem readNvmeSmart_eq {py : Interpreter} {smartLog : NvmeOutput} {smart : Dict String PyValue}
    (h : readNvmeSmart py smartLog = .ok smart) :
    smart = Dict.ofList (nvmeSmartFields.filterMap fun field =>
      ((document py smartLog).field? field).map fun v => ("nvme_" ++ field, v)) := by
  have hload := (returns_readNvmeSmart_iff py smartLog).mp ⟨smart, h⟩
  rw [readNvmeSmart, nvmeJson_of_loadable hload, ok_bind] at h
  exact (Except.ok.inj h).symm

theorem readNvmeSmart_get? {py : Interpreter} {smartLog : NvmeOutput}
    {smart : Dict String PyValue} (h : readNvmeSmart py smartLog = .ok smart) {field : String}
    (hfield : field ∈ nvmeSmartFields) :
    smart.get? ("nvme_" ++ field) = (document py smartLog).field? field := by
  rw [readNvmeSmart_eq h]
  exact Dict.get?_ofList_filterMap (fun a b h => (String.append_right_inj _).mp h) _ hfield

namespace Host

/-- The NVMe counters of the smart log. -/
def nvmeCounters (py : Interpreter) (h : Host) : Option RateSample :=
  newSample h.nvmeNow ((document py h.smartLog).field? "data_units_read")
    ((document py h.smartLog).field? "data_units_written")

theorem nvmeSample_eq {py : Interpreter} {h : Host} {smart : Dict String PyValue}
    (hsmart : readNvmeSmart py h.smartLog = .ok smart) :
    h.nvmeSample smart = h.nvmeCounters py := by
  have hread := readNvmeSmart_get? hsmart
    (show "data_units_read" ∈ nvmeSmartFields by decide)
  have hwritten := readNvmeSmart_get? hsmart
    (show "data_units_written" ∈ nvmeSmartFields by decide)
  unfold nvmeSample nvmeCounters
  rw [← hread, ← hwritten]
  rfl

end Host

/-! ## The SD card -/

/-- The texts and the capacity of the card of a device. -/
def cardItems (dev : List Char) (attr : SdAttr → File) (size : File) : List (String × PyValue) :=
  (SdAttr.all.filterMap fun a => (attr a).stripped?.map fun text => (a.key, .ofText text)) ++
    slot "sd_capacity_bytes"
      ((openAt dev size.readInt).toOption.map fun n => .int (sectorBytes n))

theorem readSdAttr_eq {dev : List Char} {attr : SdAttr → File} {a : SdAttr}
    {o : Option (String × PyValue)} (h : readSdAttr dev attr a = .ok o) :
    o = (attr a).stripped?.map fun text => (a.key, .ofText text) := by
  have hnull := ((returns_readSdAttr_iff dev attr a).mp ⟨o, h⟩).1
  rw [readSdAttr, openAt, if_neg hnull] at h
  rw [← File.toOption_readStripped]
  exact eq_of_orElse h

theorem readSdInfo_eq {mounts : File} {attr : List Char → SdAttr → File} {size : List Char → File}
    {card : Dict String PyValue} (h : readSdInfo mounts attr size = .ok card) :
    card = Dict.ofList
      (((sdDevice? mounts).map fun dev => cardItems dev (attr dev) (size dev)).getD []) := by
  have hroot := ((returns_readSdInfo_iff mounts attr size).mp ⟨card, h⟩).1
  rw [readSdInfo, sdBlockDevice_of_delivered hroot, ok_bind] at h
  cases hdev : sdDevice? mounts with
  | none =>
    rw [hdev] at h
    exact (Except.ok.inj h).symm
  | some dev =>
    simp only [hdev, bind_eq_ok_iff] at h
    obtain ⟨texts, htexts, capacity, hcapacity, heq⟩ := h
    obtain rfl := Except.ok.inj heq
    have hitems : texts.reduceOption = SdAttr.all.filterMap fun a =>
        (attr dev a).stripped?.map fun text => (a.key, .ofText text) := by
      rw [eq_filterMap_of_mapM (g := fun a => some ((attr dev a).stripped?.map fun text =>
        (a.key, .ofText text))) (fun a o ho => by rw [readSdAttr_eq ho]) htexts]
      exact List.filterMap_filterMap
    rw [hitems, eq_of_orElse (g := fun n => ("sd_capacity_bytes",
      PyValue.int (sectorBytes n))) hcapacity]
    simp only [Option.map_some, Option.getD_some, cardItems, slot, Option.map_map]
    rfl

theorem SdAttr.key_injective : SdAttr.key.Injective := by
  intro a b h
  cases a <;> cases b <;> first | rfl | exact absurd h (by decide)

theorem SdAttr.capacity_ne_key (a : SdAttr) : "sd_capacity_bytes" ≠ a.key := by
  cases a <;> decide

theorem toOption_openAt_readInt (dev : List Char) (f : File) :
    (openAt dev f.readInt).toOption = if '\x00' ∈ dev then none else f.int? := by
  unfold openAt
  split_ifs
  · rfl
  · exact f.toOption_readInt

theorem get?_cardItems (dev : List Char) (attr : SdAttr → File) (size : File) (k : String) :
    (Dict.ofList (cardItems dev attr size)).get? k =
      (if k = "sd_capacity_bytes" then
        (openAt dev size.readInt).toOption.map fun n => .int (sectorBytes n) else none).or
      ((Dict.ofList (SdAttr.all.filterMap fun a =>
        ((attr a).stripped?.map .ofText).map fun v => (a.key, v))).get? k) := by
  simp only [cardItems, Dict.get?_ofList_append, get?_slot, Option.map_map]
  rfl

/-- A text of a card. -/
theorem get?_cardItems_key (dev : List Char) (attr : SdAttr → File) (size : File) (a : SdAttr) :
    (Dict.ofList (cardItems dev attr size)).get? a.key = (attr a).stripped?.map .ofText := by
  rw [get?_cardItems, if_neg a.capacity_ne_key.symm, Option.none_or]
  exact Dict.get?_ofList_filterMap SdAttr.key_injective
    (fun a => (attr a).stripped?.map PyValue.ofText) (SdAttr.mem_all a)

/-- A key that is none of a text reads the capacity at most. -/
theorem get?_cardItems_of_ne (dev : List Char) (attr : SdAttr → File) (size : File) {k : String}
    (hk : ∀ a : SdAttr, k ≠ a.key) :
    (Dict.ofList (cardItems dev attr size)).get? k =
      if k = "sd_capacity_bytes" then
        (openAt dev size.readInt).toOption.map fun n => .int (sectorBytes n) else none := by
  have hnone : (Dict.ofList (SdAttr.all.filterMap fun a =>
      ((attr a).stripped?.map PyValue.ofText).map fun v => (a.key, v))).get? k = none := by
    rw [Dict.get?_eq_none_iff, Dict.mem_ofList, List.mem_map]
    rintro ⟨e, he, rfl⟩
    obtain ⟨a, -, hmade⟩ := List.mem_filterMap.mp he
    obtain ⟨v, -, rfl⟩ := Option.map_eq_some_iff.mp hmade
    exact hk a rfl
  rw [get?_cardItems, hnone, Option.or_none]

/-! ## The fields that are always there -/

namespace Host

/-- The fields from the readers that are caught or fail as a whole. -/
def baseItems (h : Host) : List (String × PyValue) :=
  let load := (readLoad h.loadavg).toOption.getD none
  let mem := (memLines ∅ h.meminfo.lines.1).1
  let value {α : Type} (f : α → PyValue) (x : Except ReadError (Option α)) : PyValue :=
    .ofOption f (x.toOption.getD none)
  [("node", .ofText h.nodeName.toList),
    ("temp_c", value .float (readTempC h.thermalZones)),
    ("load1", .ofOption (fun load => .float load.1) load),
    ("load5", .ofOption (fun load => .float load.2.1) load),
    ("mem_total_kb", .ofOption .int (mem.get? "MemTotal")),
    ("mem_available_kb", .ofOption .int (mem.get? "MemAvailable")),
    ("disk_used_pct", value .float h.diskUsedPct),
    ("uptime_s", value .int (readUptimeS h.uptime)),
    ("nvme_temp_c", value .float (readNvmeTempC h.hwmons h.hwmonName h.temp1Input)),
    ("undervoltage", value .bool (readUndervoltage h.hwmons h.hwmonName h.in0LcritAlarm)),
    ("root_readonly", value .bool (readRootReadonly h.mounts))]

theorem basePayload_eq {h : Host} {base : Dict String PyValue} (hbase : h.basePayload = .ok base) :
    base = Dict.ofList h.baseItems := by
  simp only [basePayload, readMeminfo_eq, ok_bind, bind_eq_ok_iff] at hbase
  obtain ⟨load, hload, disk, hdisk, temp, htemp, uptime, huptime, nvmeTemp, hnvmeTemp, voltage,
    hvoltage, readonly, hreadonly, heq⟩ := hbase
  rw [baseItems, hload, hdisk, htemp, huptime, hnvmeTemp, hvoltage, hreadonly]
  exact (Except.ok.inj heq).symm

end Host

/-! ## Keys -/

theorem get?_ratesAfter {unit : ℤ} {inputKey outputKey : String} {prev sample : Option RateSample}
    {rates : Dict String PyValue} (h : ratesAfter unit inputKey outputKey prev sample = .ok rates)
    {k : String} (hk : k ∉ [inputKey, outputKey]) : rates.get? k = none := by
  unfold ratesAfter at h
  cases sample with
  | none =>
    obtain rfl := Except.ok.inj h
    rfl
  | some new =>
    cases prev with
    | none =>
      obtain rfl := Except.ok.inj h
      rfl
    | some prev =>
      simp only [sampleRates] at h
      split_ifs at h
      · simp only [bind_eq_ok_iff] at h
        obtain ⟨input, -, output, -, heq⟩ := h
        obtain rfl := Except.ok.inj heq
        rw [Dict.get?_eq_none_iff, Dict.mem_ofList]
        exact hk
      · obtain rfl := Except.ok.inj h
        rfl

/-- A part has no other keys than its own. -/
theorem Part.get?_of_notMem_keys {py : Interpreter} {s : RateState} {h : Host} {p : Part}
    {d : Dict String PyValue} (hread : p.read py s h = .ok d) {k : String} (hk : k ∉ p.keys) :
    d.get? k = none := by
  cases p with
  | base =>
    rw [Host.basePayload_eq hread, Dict.get?_eq_none_iff, Dict.mem_ofList]
    exact hk
  | info =>
    simp only [keys, List.mem_cons, List.not_mem_nil, or_false, not_or] at hk
    rw [readNvmeInfo_eq hread, Dict.get?_ofList_append, get?_slot, get?_slot, if_neg hk.1,
      if_neg hk.2]
    rfl
  | smart =>
    rw [readNvmeSmart_eq hread, Dict.get?_eq_none_iff, Dict.mem_ofList, List.mem_map]
    rintro ⟨e, he, rfl⟩
    obtain ⟨field, hfield, hmade⟩ := List.mem_filterMap.mp he
    obtain ⟨v, -, rfl⟩ := Option.map_eq_some_iff.mp hmade
    exact hk (List.mem_map_of_mem hfield)
  | ctrl => exact (readNvmeCtrlInfo_get? hread).1 hk
  | nvmeRates =>
    obtain ⟨smart, -, hrates⟩ := bind_eq_ok_iff.mp hread
    exact get?_ratesAfter hrates hk
  | card =>
    rw [keys, List.mem_append, not_or] at hk
    have htexts : ∀ a : SdAttr, k ≠ a.key := by
      rintro a rfl
      exact hk.1 (List.mem_map_of_mem (SdAttr.mem_all a))
    rw [readSdInfo_eq hread]
    cases sdDevice? h.mounts with
    | none => rfl
    | some dev =>
      rw [Option.map_some, Option.getD_some, get?_cardItems_of_ne _ _ _ htexts,
        if_neg (fun heq => hk.2 (by simp [heq]))]
  | sdRates =>
    obtain ⟨bytes, -, hrates⟩ := bind_eq_ok_iff.mp hread
    exact get?_ratesAfter hrates hk
  | netRates => exact get?_ratesAfter hread hk

/-- A field is read from the part it belongs to. -/
theorem get?_payload {py : Interpreter} {s : RateState} {h : Host} {payload : Dict String PyValue}
    (hp : outcome py s h = .ok payload) {p : Part} {k : String} (hk : k ∈ p.keys) :
    payload.get? k = (p.result py s h).get? k := by
  obtain ⟨hread, hget⟩ := parts_of_outcome hp
  have hother : ∀ q, q ≠ p → (q.result py s h).get? k = none := fun q hne =>
    Part.get?_of_notMem_keys (hread q) fun hq => hne (Part.eq_of_mem_keys hq hk)
  rw [hget, mergeParts]
  simp only [Part.all, List.foldl_cons, List.foldl_nil, Dict.get?_merge]
  cases p <;> simp [hother]

theorem get?_payload_of_notMem {py : Interpreter} {s : RateState} {h : Host}
    {payload : Dict String PyValue} (hp : outcome py s h = .ok payload) {k : String}
    (hk : ∀ p : Part, k ∉ p.keys) : payload.get? k = none := by
  obtain ⟨hread, hget⟩ := parts_of_outcome hp
  have hnone : ∀ q : Part, (q.result py s h).get? k = none := fun q =>
    Part.get?_of_notMem_keys (hread q) (hk q)
  rw [hget, mergeParts]
  simp [Part.all, Dict.get?_merge, hnone]

end NodeAgent

end PiWatch
