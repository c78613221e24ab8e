import PiWatch.NodeAgent.HostMetrics

/-!
# Which readers always return

For every reader the condition under which nothing leaves its handlers, in terms of what the files
hold.
-/

namespace PiWatch

namespace NodeAgent

/-! ## What a file holds -/

namespace File

/-- The text of a file that can be read and decoded. -/
def text? (f : File) : Option (List Char) := f.read.toOption

/-- The file can be read, but it is not UTF-8. -/
def Undecodable (f : File) : Prop := f.read = .error .unicodeDecodeError

instance (f : File) : Decidable f.Undecodable := inferInstanceAs (Decidable (_ = _))

/-- The number in a file. -/
def int? (f : File) : Option ℤ := f.text?.bind fun text => intOf? (PyText.strip text)

/-- The number at the head of a file. -/
def firstFloat? (f : File) : Option PyFloat :=
  f.text?.bind fun text => (words text).head?.bind floatOf?

theorem raisesOnly_read {caught : ReadError → Bool} (hos : caught .osError) (f : File) :
    RaisesOnly caught f.read ↔ (f.Undecodable → caught .unicodeDecodeError) := by
  unfold Undecodable
  cases f with
  | unreadable => simp [read, hos]
  | content portions => cases h : wholeText portions <;> simp [read, h]

/-- A file has a text, is not UTF-8 or cannot be read. -/
theorem read_cases (f : File) :
    (∃ text, f.read = .ok text ∧ f.text? = some text ∧ ¬ f.Undecodable) ∨
      (f.read = .error .unicodeDecodeError ∧ f.text? = none ∧ f.Undecodable) ∨
      (f.read = .error .osError ∧ f.text? = none ∧ ¬ f.Undecodable) := by
  unfold Undecodable text?
  cases f with
  | unreadable => simp [read, Except.toOption]
  | content portions => cases h : wholeText portions <;> simp [read, h, Except.toOption]

theorem text?_eq_some_iff {f : File} {text : List Char} :
    f.text? = some text ↔ f.read = .ok text := by
  unfold text?
  cases f.read <;> simp [Except.toOption]

theorem raisesOnly_readStripped {caught : ReadError → Bool} (hos : caught .osError) (f : File) :
    RaisesOnly caught f.readStripped ↔ (f.Undecodable → caught .unicodeDecodeError) := by
  rw [← raisesOnly_read hos, readStripped, raisesOnly_bind_iff]
  simp [pure, Except.pure]

/-- A reader of a number raises only what its callers catch. -/
theorem raisesOnly_readInt (f : File) : RaisesOnly ReadError.isFileError f.readInt := by
  rw [readInt, raisesOnly_bind_iff, raisesOnly_readStripped rfl]
  refine ⟨fun _ => rfl, fun text _ => ?_⟩
  cases intOf? text <;> simp [valueOrRaise, ReadError.isFileError, ReadError.isValueError]

theorem readInt_eq_ok_iff {f : File} {n : ℤ} : f.readInt = .ok n ↔ f.int? = some n := by
  rw [readInt, readStripped, int?, Option.bind_eq_some_iff, bind_eq_ok_iff]
  simp only [text?_eq_some_iff, bind_eq_ok_iff, pure, Except.pure]
  constructor
  · rintro ⟨_, ⟨text, hread, ⟨⟩⟩, hint⟩
    refine ⟨text, hread, ?_⟩
    cases h : intOf? (PyText.strip text) <;> simp_all [valueOrRaise]
  · rintro ⟨text, hread, hint⟩
    exact ⟨_, ⟨text, hread, rfl⟩, by rw [hint, valueOrRaise]⟩

end File

/-! ## Conversions -/

section

variable {caught : ReadError → Bool}

@[simp] theorem valueOrRaise_eq_ok_iff {α : Type} {o : Option α} {a : α} :
    valueOrRaise o = .ok a ↔ o = some a := by
  cases o <;> simp [valueOrRaise]

theorem raisesOnly_valueOrRaise {α : Type} (h : caught (.raised .valueError)) (o : Option α) :
    RaisesOnly caught (valueOrRaise o) := by
  cases o <;> simp [valueOrRaise, h]

@[simp] theorem item_eq_ok_iff {α : Type} {xs : List α} {i : ℕ} {x : α} :
    item xs i = .ok x ↔ xs[i]? = some x := by
  unfold item
  cases xs[i]? <;> simp

theorem raisesOnly_item {α : Type} (h : caught .indexError) (xs : List α) (i : ℕ) :
    RaisesOnly caught (item xs i) := by
  unfold item
  cases xs[i]? <;> simp [h]

/-- The quotient is a double. -/
def InRange (a b : ℤ) : Prop := |(a : ℚ) / b| < PyFloat.overflowLimit

theorem raisesOnly_trueDiv (hzero : caught (.raised .zeroDivisionError) = false)
    (hover : caught (.raised .overflowError) = false) (a b : ℤ) :
    RaisesOnly caught (trueDiv a b) ↔ b ≠ 0 ∧ InRange a b := by
  unfold trueDiv InRange
  rw [← PyFloat.isFinite_ofRat_iff]
  by_cases hb : b = 0
  · simp [hb, hzero]
  · cases hfinite : (PyFloat.ofRat (a / b)).isFinite <;> simp [hb, hfinite, hover]

theorem eq_of_trueDiv {a b : ℤ} {e : ReadError} (h : trueDiv a b = .error e) :
    e = .raised .zeroDivisionError ∨ e = .raised .overflowError := by
  unfold trueDiv at h
  by_cases hb : b = 0
  · exact .inl (by simpa [hb, eq_comm] using h)
  · cases hfinite : (PyFloat.ofRat (a / b)).isFinite
    · exact .inr (by simpa [hb, hfinite, eq_comm] using h)
    · simp [hb, hfinite] at h

theorem raisesOnly_floatAt (hvalue : caught (.raised .valueError)) (hindex : caught .indexError)
    (parts : List (List Char)) (i : ℕ) : RaisesOnly caught (floatAt parts i) := by
  rw [floatAt, raisesOnly_bind_iff]
  exact ⟨raisesOnly_item hindex parts i, fun _ _ => raisesOnly_valueOrRaise hvalue _⟩

end

/-! ## Temperature, load, memory and uptime -/

theorem readMilliDegrees_of_int {f : File} {n : ℤ} (h : f.int? = some n) :
    readMilliDegrees f = (PyFloat.round 1) <$> trueDiv n 1000 := by
  rw [readMilliDegrees, File.readInt_eq_ok_iff.mpr h]
  rfl

theorem readMilliDegrees_of_none {f : File} (h : f.int? = none) :
    ∃ e, readMilliDegrees f = .error e ∧ e.isFileError := by
  rw [readMilliDegrees]
  cases hread : f.readInt with
  | error e => exact ⟨e, rfl, File.raisesOnly_readInt f e hread⟩
  | ok n =>
    rw [File.readInt_eq_ok_iff.mp hread] at h
    cases h

/-- A temperature that can be read is in range if the quotient is. -/
theorem returns_milliDegrees_iff (f : File) :
    Returns (orElse ReadError.isFileError none (some <$> readMilliDegrees f)) ↔
      ∀ n, f.int? = some n → InRange n 1000 := by
  rw [returns_orElse_iff, raisesOnly_map_iff]
  cases hint : f.int? with
  | none =>
    obtain ⟨e, herror, hcaught⟩ := readMilliDegrees_of_none hint
    simp [herror, hcaught]
  | some n =>
    rw [readMilliDegrees_of_int hint, raisesOnly_map_iff, raisesOnly_trueDiv rfl rfl]
    simp

/-- The first zone with a number decides. -/
theorem readTempC_eq (zones : List File) :
    readTempC zones =
      match zones.findSome? File.int? with
      | none => .ok none
      | some n => (fun x => some (x.round 1)) <$> trueDiv n 1000 := by
  unfold readTempC
  induction zones with
  | nil => rfl
  | cons zone zones ih =>
    rw [firstResult, List.findSome?_cons]
    cases hint : zone.int? with
    | none =>
      obtain ⟨e, herror, hcaught⟩ := readMilliDegrees_of_none hint
      rw [herror, error_bind]
      simp only [hcaught, if_true, ih]
    | some n =>
      rw [readMilliDegrees_of_int hint]
      dsimp only
      cases hdiv : trueDiv n 1000 with
      | ok x => rfl
      | error e =>
        rcases eq_of_trueDiv hdiv with rfl | rfl <;> rfl

theorem returns_readTempC_iff (zones : List File) :
    Returns (readTempC zones) ↔ ∀ n, zones.findSome? File.int? = some n → InRange n 1000 := by
  rw [readTempC_eq]
  cases zones.findSome? File.int? with
  | none => simp
  | some n =>
    rw [returns_map_iff, returns_iff_raisesOnly, raisesOnly_trueDiv rfl rfl]
    simp

theorem returns_readLoad (loadavg : File) : Returns (readLoad loadavg) := by
  rw [readLoad, returns_orElse_iff, raisesOnly_bind_iff, File.raisesOnly_read rfl]
  refine ⟨fun _ => rfl, fun text _ => ?_⟩
  simp only [raisesOnly_bind_iff]
  exact ⟨raisesOnly_floatAt rfl rfl _ _, fun _ _ => ⟨raisesOnly_floatAt rfl rfl _ _,
    fun _ _ => ⟨raisesOnly_floatAt rfl rfl _ _, fun _ _ => raisesOnly_ok _⟩⟩⟩

theorem raisesOnly_memLine (out : Dict String ℤ) (line : List Char) :
    RaisesOnly ReadError.isParseError (memLine out line) := by
  unfold memLine
  dsimp only
  split_ifs
  · simp only [raisesOnly_bind_iff]
    exact ⟨raisesOnly_item rfl _ _, fun _ _ => ⟨raisesOnly_valueOrRaise rfl _,
      fun _ _ => raisesOnly_ok _⟩⟩
  · exact raisesOnly_ok _

theorem isParseError_of_memLines {out : Dict String ℤ} {lines : List (List Char)} {e : ReadError}
    (h : (memLines out lines).2 = some e) : e.isParseError := by
  induction lines generalizing out with
  | nil => cases h
  | cons line lines ih =>
    rw [memLines] at h
    cases hline : memLine out line with
    | ok out' =>
      rw [hline] at h
      exact ih h
    | error e' =>
      rw [hline] at h
      obtain rfl := Option.some.inj h
      exact raisesOnly_memLine out line _ hline

theorem isParseError_of_lines {f : File} {e : ReadError} (h : f.lines.2 = some e) :
    e.isParseError := by
  cases f with
  | unreadable =>
    obtain rfl := Option.some.inj h
    rfl
  | content portions =>
    cases hall : (deliveredLines portions).2 with
    | true => simp [File.lines, hall] at h
    | false =>
      simp only [File.lines, hall, Bool.false_eq_true, if_false, Option.some.injEq] at h
      rw [← h]
      rfl

theorem readMeminfo_eq (meminfo : File) :
    readMeminfo meminfo = .ok (memLines ∅ meminfo.lines.1).1 := by
  unfold readMeminfo
  dsimp only
  cases herror : (memLines ∅ meminfo.lines.1).2 with
  | some e => simp [isParseError_of_memLines herror]
  | none =>
    cases hend : meminfo.lines.2 with
    | some e => simp [isParseError_of_lines hend]
    | none => rfl

theorem floatAt_eq_ok_iff {parts : List (List Char)} {i : ℕ} {x : PyFloat} :
    floatAt parts i = .ok x ↔ parts[i]?.bind floatOf? = some x := by
  rw [floatAt, bind_eq_ok_iff, Option.bind_eq_some_iff]
  simp

theorem floatAt_zero_eq_ok_iff {parts : List (List Char)} {x : PyFloat} :
    floatAt parts 0 = .ok x ↔ parts.head?.bind floatOf? = some x := by
  rw [floatAt_eq_ok_iff, List.head?_eq_getElem?]

/-- `int()` of a float raises `OverflowError` for an infinity. -/
theorem raisesOnly_toInt (x : PyFloat) :
    RaisesOnly ReadError.isParseError (x.toInt.mapError .raised) ↔ x ≠ .posInf ∧ x ≠ .negInf := by
  cases x <;> simp [PyFloat.toInt, Except.mapError, ReadError.isParseError,
    ReadError.isFileError, ReadError.isOSError, ReadError.isValueError, ReadError.isIndexError]

theorem returns_readUptimeS_iff (uptime : File) :
    Returns (readUptimeS uptime) ↔
      ∀ x, uptime.firstFloat? = some x → x ≠ .posInf ∧ x ≠ .negInf := by
  rw [readUptimeS, returns_orElse_iff, raisesOnly_bind_iff, File.raisesOnly_read rfl]
  simp only [raisesOnly_bind_iff, File.firstFloat?, Option.bind_eq_some_iff,
    File.text?_eq_some_iff]
  constructor
  · rintro ⟨-, hraise⟩ x ⟨text, hread, hfloat⟩
    exact (raisesOnly_toInt x).mp ((hraise text hread).2 x (floatAt_zero_eq_ok_iff.mpr
      (Option.bind_eq_some_iff.mpr hfloat))).1
  · intro hfinite
    refine ⟨fun _ => rfl, fun text hread => ⟨raisesOnly_floatAt rfl rfl _ _, fun x hx => ?_⟩⟩
    have hfloat := Option.bind_eq_some_iff.mp (floatAt_zero_eq_ok_iff.mp hx)
    exact ⟨(raisesOnly_toInt x).mpr (hfinite x ⟨text, hread, hfloat⟩), fun _ _ => raisesOnly_ok _⟩

/-! ## Hardware monitors -/

/-- The search ends at a monitor with the name, or with a name that is not UTF-8. -/
def EndsSearch (driverName : List Char) (name : File) : Prop :=
  name.Undecodable ∨ name.text?.map PyText.strip = some driverName

instance (driverName : List Char) (name : File) : Decidable (EndsSearch driverName name) :=
  inferInstanceAs (Decidable (_ = _ ∨ _))

/-- The monitor at which the search ends. -/
def hwmonOf? (driverName : List Char) (hwmons : List String) (name : String → File) :
    Option String :=
  hwmons.find? fun path => EndsSearch driverName (name path)

private theorem findHwmon_step (driverName : List Char) (path : String) (name : File) :
    (do if (← name.readStripped) = driverName then return some path else return none) =
      if name.Undecodable then .error ReadError.unicodeDecodeError
      else if EndsSearch driverName name then .ok (some path)
      else if name.text?.isSome then .ok none
      else .error .osError := by
  unfold EndsSearch File.readStripped
  rcases name.read_cases with ⟨text, hread, htext, hgood⟩ | ⟨hread, htext, hbad⟩ |
    ⟨hread, htext, hgood⟩
  · by_cases hname : PyText.strip text = driverName <;>
      simp [hread, htext, hgood, hname, pure, Except.pure]
  · simp [hread, hbad]
  · simp [hread, htext, hgood]

theorem findHwmon_eq (driverName : List Char) (hwmons : List String) (name : String → File) :
    findHwmon driverName hwmons name =
      match hwmonOf? driverName hwmons name with
      | none => .ok none
      | some path =>
        if (name path).Undecodable then .error .unicodeDecodeError else .ok (some path) := by
  have hends : ∀ path, endsLoop ReadError.isOSError
      (do if (← (name path).readStripped) = driverName then return some path else return none) =
        decide (EndsSearch driverName (name path)) := by
    intro path
    rw [findHwmon_step]
    by_cases hbad : (name path).Undecodable
    · simp [hbad, EndsSearch, endsLoop, ReadError.isOSError]
    · by_cases hname : EndsSearch driverName (name path)
      · simp [hbad, hname, endsLoop]
      · cases (name path).text? <;> simp [hbad, hname, endsLoop, ReadError.isOSError]
  unfold findHwmon hwmonOf?
  rw [firstResult_eq_find]
  simp only [hends]
  cases hfind : hwmons.find? fun path => decide (EndsSearch driverName (name path)) with
  | none => rfl
  | some path =>
    have hname : EndsSearch driverName (name path) := by simpa using List.find?_some hfind
    dsimp only
    rw [findHwmon_step, if_pos hname]

/-- The search of a driver and what is read of the monitor found. -/
private theorem returns_hwmon_iff {α : Type} {driverName : List Char} {hwmons : List String}
    {name : String → File} {read : String → Except ReadError (Option α)} :
    Returns (do
      match ← findHwmon driverName hwmons name with
      | none => return none
      | some hwmon => read hwmon) ↔
      ∀ path, hwmonOf? driverName hwmons name = some path →
        ¬ (name path).Undecodable ∧ Returns (read path) := by
  rw [findHwmon_eq]
  cases hwmonOf? driverName hwmons name with
  | none => simp [pure, Except.pure]
  | some path => by_cases hbad : (name path).Undecodable <;> simp [hbad]

theorem returns_readNvmeTempC_iff (hwmons : List String) (name temp1Input : String → File) :
    Returns (readNvmeTempC hwmons name temp1Input) ↔
      ∀ path, hwmonOf? "nvme".toList hwmons name = some path →
        ¬ (name path).Undecodable ∧
          ∀ n, (temp1Input path).int? = some n → InRange n 1000 := by
  simp only [← returns_milliDegrees_iff]
  exact returns_hwmon_iff

theorem returns_readUndervoltage_iff (hwmons : List String)
    (name in0LcritAlarm : String → File) :
    Returns (readUndervoltage hwmons name in0LcritAlarm) ↔
      ∀ path, hwmonOf? "rpi_volt".toList hwmons name = some path →
        ¬ (name path).Undecodable ∧ ¬ (in0LcritAlarm path).Undecodable := by
  have hread : ∀ path, Returns (orElse ReadError.isOSError none do
      return some (decide ((← (in0LcritAlarm path).readStripped) = "1".toList))) ↔
        ¬ (in0LcritAlarm path).Undecodable := by
    intro path
    rw [returns_orElse_iff, raisesOnly_bind_iff, File.raisesOnly_readStripped rfl]
    simp [pure, Except.pure, ReadError.isOSError]
  simp only [← hread]
  exact returns_hwmon_iff

/-! ## The root device and the SD card -/

theorem File.lines_snd (f : File) :
    f.lines.2 =
      if f.Undecodable then some .unicodeDecodeError
      else if f.text?.isSome then none
      else some .osError := by
  cases f with
  | unreadable => rfl
  | content portions =>
    have hall := deliveredLines_snd portions
    cases htext : wholeText portions <;>
      simp_all [File.lines, File.Undecodable, File.text?, File.read, Except.toOption]

/-- The entry of the root among the lines that are delivered. -/
def rootParts? (mounts : File) : Option (List (List Char)) :=
  (mounts.lines.1.map words).find? isRootEntry

/-- The entry of the root comes before a byte that is not UTF-8. -/
def RootDelivered (mounts : File) : Prop := mounts.Undecodable → rootParts? mounts ≠ none

theorem rootEntry_of_delivered {mounts : File} (h : RootDelivered mounts) :
    rootEntry mounts = .ok (rootParts? mounts) := by
  unfold RootDelivered at h
  unfold rootEntry
  rw [File.lines_snd, ← rootParts?]
  cases hentry : rootParts? mounts with
  | some parts => rfl
  | none =>
    have hgood : ¬ mounts.Undecodable := fun hbad => h hbad hentry
    cases mounts.text? <;> simp [hgood, ReadError.isOSError]

theorem rootEntry_of_not_delivered {mounts : File} (h : ¬ RootDelivered mounts) :
    rootEntry mounts = .error .unicodeDecodeError := by
  unfold RootDelivered at h
  push Not at h
  unfold rootEntry
  rw [File.lines_snd, ← rootParts?, h.2, if_pos h.1]
  rfl

/-- The SD card that holds the root, if one does. -/
def sdDevice? (mounts : File) : Option (List Char) :=
  ((rootParts? mounts).map fun parts => removeDev (parts.getD 0 [])).bind sdBlock

theorem sdBlockDevice_of_delivered {mounts : File} (h : RootDelivered mounts) :
    sdBlockDevice mounts = .ok (sdDevice? mounts) := by
  rw [sdBlockDevice, rootDevice, rootEntry_of_delivered h]
  rfl

theorem sdBlockDevice_of_not_delivered {mounts : File} (h : ¬ RootDelivered mounts) :
    sdBlockDevice mounts = .error .unicodeDecodeError := by
  rw [sdBlockDevice, rootDevice, rootEntry_of_not_delivered h]
  rfl

theorem returns_readRootReadonly_iff (mounts : File) :
    Returns (readRootReadonly mounts) ↔ RootDelivered mounts := by
  unfold readRootReadonly
  by_cases h : RootDelivered mounts
  · simp [rootEntry_of_delivered h, h, pure, Except.pure]
  · simp [rootEntry_of_not_delivered h, h]

theorem returns_readSdAttr_iff (dev : List Char) (attr : SdAttr → File) (a : SdAttr) :
    Returns (readSdAttr dev attr a) ↔ '\x00' ∉ dev ∧ ¬ (attr a).Undecodable := by
  rw [readSdAttr, returns_orElse_iff, raisesOnly_bind_iff, openAt]
  by_cases hnull : '\x00' ∈ dev
  · simp [hnull, ReadError.isOSError]
  · rw [if_neg hnull, File.raisesOnly_readStripped rfl]
    simp [hnull, ReadError.isOSError, pure, Except.pure]

theorem returns_readCapacity {key : String} {body : Except ReadError ℤ}
    (h : RaisesOnly ReadError.isFileError body) : Returns (readCapacity key body) := by
  rw [readCapacity, returns_orElse_iff, raisesOnly_bind_iff]
  exact ⟨h, fun _ _ => raisesOnly_ok _⟩

theorem raisesOnly_openAt {α : Type} {caught : ReadError → Bool}
    (h : caught (.raised .valueError)) (dev : List Char) {body : Except ReadError α}
    (hbody : RaisesOnly caught body) : RaisesOnly caught (openAt dev body) := by
  unfold openAt
  split_ifs
  · exact raisesOnly_error.mpr h
  · exact hbody

theorem returns_readSdInfo_iff (mounts : File) (attr : List Char → SdAttr → File)
    (size : List Char → File) :
    Returns (readSdInfo mounts attr size) ↔ RootDelivered mounts ∧
      ∀ dev, sdDevice? mounts = some dev →
        '\x00' ∉ dev ∧ ∀ a, ¬ (attr dev a).Undecodable := by
  unfold readSdInfo
  by_cases hroot : RootDelivered mounts
  · rw [sdBlockDevice_of_delivered hroot]
    cases hdev : sdDevice? mounts with
    | none => simp [hroot, pure, Except.pure]
    | some dev =>
      have hcapacity : Returns (readCapacity "sd_capacity_bytes" (openAt dev (size dev).readInt)) :=
        returns_readCapacity (raisesOnly_openAt rfl dev (File.raisesOnly_readInt _))
      obtain ⟨capacity, hcapacity⟩ := hcapacity
      have htexts : (∃ texts, SdAttr.all.mapM (readSdAttr dev (attr dev)) = .ok texts) ↔
          ∀ a, '\x00' ∉ dev ∧ ¬ (attr dev a).Undecodable := by
        rw [exists_mapM_eq_ok_iff]
        simp only [← returns_readSdAttr_iff, SdAttr.mem_all, true_imp_iff]
        rfl
      simp only [ok_bind, returns_bind_iff, hcapacity]
      simp only [pure, Except.pure, returns_ok, and_true, htexts, hroot, true_and,
        Option.some.injEq, forall_eq']
      exact ⟨fun h => ⟨(h .name).1, fun a => (h a).2⟩, fun h a => ⟨h.1, h.2 a⟩⟩
  · rw [sdBlockDevice_of_not_delivered hroot]
    simp [hroot]

/-- A counter in sectors, as bytes. -/
def sectors? (fields : List (List Char)) (i : ℕ) : Option ℤ :=
  (fields[i]?.bind intOf?).map sectorBytes

theorem toOption_sectorsAt (fields : List (List Char)) (i : ℕ) :
    (sectorsAt fields i).toOption = sectors? fields i := by
  unfold sectorsAt item sectors?
  cases fields[i]? with
  | none => rfl
  | some field =>
    cases h : intOf? field <;> simp [h, valueOrRaise, pure, Except.pure, Except.toOption]

theorem raisesOnly_sectorsAt (fields : List (List Char)) (i : ℕ) :
    RaisesOnly ReadError.isParseError (sectorsAt fields i) := by
  simp only [sectorsAt, raisesOnly_bind_iff]
  exact ⟨raisesOnly_item rfl _ _, fun _ _ => ⟨raisesOnly_valueOrRaise rfl _,
    fun _ _ => raisesOnly_ok _⟩⟩

/-- The text of a file of a device. -/
def deviceText? (dev : List Char) (f : File) : Option (List Char) :=
  if '\x00' ∈ dev then none else f.text?

theorem toOption_openAt (dev : List Char) (f : File) :
    (openAt dev f.read).toOption = deviceText? dev f := by
  unfold openAt deviceText?
  split_ifs <;> rfl

/-- The bytes read from and written to the SD card. -/
def sdBytes? (mounts : File) (stat : List Char → File) : Option (ℤ × ℤ) := do
  let dev ← sdDevice? mounts
  let fields := words (← deviceText? dev (stat dev))
  return (← sectors? fields 2, ← sectors? fields 6)

theorem readSdBytes_of_delivered {mounts : File} (h : RootDelivered mounts)
    (stat : List Char → File) :
    readSdBytes mounts stat = .ok (sdBytes? mounts stat) := by
  unfold readSdBytes sdBytes?
  rw [sdBlockDevice_of_delivered h, ok_bind]
  cases sdDevice? mounts with
  | none => rfl
  | some dev =>
    dsimp only
    rw [orElse_of_raisesOnly]
    · simp only [toOption_bind, toOption_openAt, toOption_sectorsAt, Option.bind_eq_bind,
        Option.bind_some]
      cases deviceText? dev (stat dev) with
      | none => rfl
      | some text =>
        simp only [Option.bind_some]
        cases sectors? (words text) 2 with
        | none => rfl
        | some read => cases sectors? (words text) 6 <;> rfl
    · simp only [raisesOnly_bind_iff]
      exact ⟨raisesOnly_openAt rfl dev ((File.raisesOnly_read rfl _).mpr fun _ => rfl),
        fun _ _ => ⟨raisesOnly_sectorsAt _ _, fun _ _ => ⟨raisesOnly_sectorsAt _ _,
          fun _ _ => raisesOnly_ok _⟩⟩⟩

theorem returns_readSdBytes_iff (mounts : File) (stat : List Char → File) :
    Returns (readSdBytes mounts stat) ↔ RootDelivered mounts := by
  by_cases h : RootDelivered mounts
  · simp [readSdBytes_of_delivered h, h]
  · simp [readSdBytes, sdBlockDevice_of_not_delivered h, h]

/-! ## The NVMe drive -/

theorem returns_readNvmeInfo_iff (blocks : List String) (model size : String → File) :
    Returns (readNvmeInfo blocks model size) ↔
      ∀ block, blocks.head? = some block → ¬ (model block).Undecodable := by
  cases blocks with
  | nil => simp [readNvmeInfo, pure, Except.pure]
  | cons block blocks =>
    have hcapacity : Returns (readCapacity "nvme_capacity_bytes" (size block).readInt) :=
      returns_readCapacity (File.raisesOnly_readInt _)
    obtain ⟨capacity, hcapacity⟩ := hcapacity
    have hmodel : Returns (orElse ReadError.isOSError none do
        return some ("nvme_model", PyValue.ofText (← (model block).readStripped))) ↔
          ¬ (model block).Undecodable := by
      rw [returns_orElse_iff, raisesOnly_bind_iff, File.raisesOnly_readStripped rfl]
      simp [ReadError.isOSError, pure, Except.pure]
    simp only [readNvmeInfo, returns_bind_iff, hcapacity]
    simp only [pure, Except.pure, returns_ok, and_true, List.head?_cons, Option.some.injEq,
      forall_eq'] at hmodel ⊢
    rw [← hmodel]
    simp [Returns]

/-- What `json.loads` raises on the output, if it is read, is caught. -/
def Loadable (py : Interpreter) (output : NvmeOutput) : Prop :=
  output.read ≠ .error .unicodeDecodeError ∧
    ∀ text, output.read = .ok text → RaisesOnly isNvmeError (loads py.scanDepth text)

/-- The document in an output, without one an empty dictionary. -/
def document (py : Interpreter) (output : NvmeOutput) : PyValue :=
  (output.read.toOption.bind fun text => (loads py.scanDepth text).toOption).getD (.dict [])

private theorem raisesOnly_isNvmeError (f : File) :
    RaisesOnly isNvmeError f.read ↔ f.read ≠ .error .unicodeDecodeError := by
  rw [File.raisesOnly_read rfl]
  simp [File.Undecodable, isNvmeError]

theorem NvmeOutput.raisesOnly_read (output : NvmeOutput) :
    RaisesOnly isNvmeError output.read ↔ output.read ≠ .error .unicodeDecodeError := by
  cases output with
  | dumpFile f => exact raisesOnly_isNvmeError f
  | notStarted => simp [read, isNvmeError]
  | failed => simp [read, isNvmeError]
  | stdout bytes => exact raisesOnly_isNvmeError (.content [bytes])

theorem returns_nvmeJson_iff (py : Interpreter) (output : NvmeOutput) :
    Returns (nvmeJson py output) ↔ Loadable py output := by
  rw [nvmeJson, returns_orElse_iff, raisesOnly_bind_iff, NvmeOutput.raisesOnly_read, Loadable]

theorem nvmeJson_of_loadable {py : Interpreter} {output : NvmeOutput} (h : Loadable py output) :
    nvmeJson py output = .ok (document py output) := by
  rw [← returns_nvmeJson_iff, nvmeJson, returns_orElse_iff] at h
  rw [nvmeJson, orElse_of_raisesOnly h, toOption_bind]
  rfl

theorem returns_readNvmeSmart_iff (py : Interpreter) (smartLog : NvmeOutput) :
    Returns (readNvmeSmart py smartLog) ↔ Loadable py smartLog := by
  rw [← returns_nvmeJson_iff]
  exact returns_bind_pure_iff

theorem returns_readIdText_iff (py : Interpreter) (data : PyValue) (field key : String) :
    Returns (readIdText py data field key) ↔
      ∀ v, data.field? field = some v → v.depth ≤ py.reprDepth := by
  unfold readIdText
  cases data.field? field with
  | none => simp
  | some v =>
    have hstr : Returns (py.str v) ↔ v.depth ≤ py.reprDepth := by
      unfold Interpreter.str
      split
      · simp [PyValue.depth]
      · split_ifs with hdepth <;> simp [hdepth]
    simp only [Option.some.injEq, forall_eq', ← hstr]
    exact returns_bind_pure_iff

theorem returns_readNvmeCtrlInfo_iff (py : Interpreter) (idCtrl : NvmeOutput) :
    Returns (readNvmeCtrlInfo py idCtrl) ↔ Loadable py idCtrl ∧
      ∀ field ∈ ["fr", "sn"], ∀ v, (document py idCtrl).field? field = some v →
        v.depth ≤ py.reprDepth := by
  unfold readNvmeCtrlInfo
  by_cases h : Loadable py idCtrl
  · rw [nvmeJson_of_loadable h, ok_bind]
    have hfirmware := returns_readIdText_iff py (document py idCtrl) "fr" "nvme_firmware"
    have hserial := returns_readIdText_iff py (document py idCtrl) "sn" "nvme_serial"
    simp only [List.forall_mem_cons, ← hfirmware, ← hserial, h, true_and]
    rw [returns_bind_iff_and fun _ _ => returns_bind_pure_iff]
    simp
  · have hraise := h
    rw [← returns_nvmeJson_iff] at hraise
    simp only [returns_bind_iff, h, false_and, iff_false]
    rintro ⟨data, hdata, -⟩
    exact hraise ⟨data, hdata⟩

end NodeAgent

end PiWatch
