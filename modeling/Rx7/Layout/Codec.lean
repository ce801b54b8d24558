import Rx7.Engine.Item
import Rx7.Foundations.Loop
import Rx7.Swift.Data
import Mathlib.Data.List.Basic

/-!
# The gauge layout format

A layout message is two header bytes, a record of three bytes for each gauge (its id, whether its
graph is on, the time its graph shows), three separator bytes and the ids of the monitors.
`GaugeLayoutConfigManager.parseResponse` reads one, `constructData` writes one.

The parser walks a byte index over the message: `parseStep` is the body of its loop, split into
the counting of separators (`countSeparator`), the taking of an id (`takeItem`) and the step to
the next byte. It ends on any response (`parseResponse_isOk`). What it obtains is a recursion on
the bytes behind the header (`read`, `parseResponse_eq_read`); `parseResponse_message` reads the
three parts of a message with it.

The lists that are read do not carry the graph settings, and the encoder writes constants for them
(`saved_back_unchanged_iff`).
-/

namespace Rx7

structure GaugeLayoutConfigManager where
  gauges : List EngineDataItem := []
  monitors : List EngineDataItem := []
  deriving DecidableEq

namespace GaugeLayoutConfigManager

/-! ## Constants -/

def setGaugeConfigStartingByte : UInt8 := 1
def separatorValue : ℕ := 255
def separatorCount : ℕ := 3

/-! ## The parser -/

/-- The variables of the loop of `parseResponse`. -/
structure ParseState where
  byteIndex : ℕ := 2
  separatorCounter : ℕ := 0
  isInMonitorSection : Bool := false
  gauges : List EngineDataItem := []
  monitors : List EngineDataItem := []

namespace ParseState

/-- Outside the monitor section, count the separators in a row; the third one opens it. -/
def countSeparator (s : ParseState) (value : ℕ) : ParseState :=
  if !s.isInMonitorSection then
    let separatorCounter := if value = separatorValue then s.separatorCounter + 1 else 0
    if separatorCounter = separatorCount then
      { s with separatorCounter, isInMonitorSection := true }
    else { s with separatorCounter }
  else s

/-- Take a byte that is no separator: a gauge's id, with its two graph bytes skipped, or a
monitor's. -/
def takeItem (s : ParseState) (value : ℕ) : ParseState :=
  if value ≠ separatorValue then
    let item := (EngineDataItem.ofRawValue value).toList
    if !s.isInMonitorSection then
      { s with gauges := s.gauges ++ item, byteIndex := s.byteIndex + 2 }
    else { s with monitors := s.monitors ++ item }
  else s

def next (s : ParseState) : ParseState := { s with byteIndex := s.byteIndex + 1 }

theorem byteIndex_countSeparator (s : ParseState) (value : ℕ) :
    (s.countSeparator value).byteIndex = s.byteIndex := by
  simp only [countSeparator]
  split_ifs <;> rfl

theorem byteIndex_le_takeItem (s : ParseState) (value : ℕ) :
    s.byteIndex ≤ (s.takeItem value).byteIndex := by
  simp only [takeItem]
  split_ifs <;> simp

end ParseState

/-- The body of the loop. -/
def parseStep (data : Data) (s : ParseState) : Except Trap ParseState := do
  let value := (← data.read UInt8 s.byteIndex (s.byteIndex + 1)).toNat
  return ((s.countSeparator value).takeItem value).next

theorem parseStep_of_read {data : Data} {s : ParseState} {b : UInt8}
    (h : data.read UInt8 s.byteIndex (s.byteIndex + 1) = .ok b) :
    parseStep data s = .ok ((s.countSeparator b.toNat).takeItem b.toNat).next := by
  simp only [parseStep, h]
  rfl

/-- Each turn moves the byte index forward. -/
theorem byteIndex_lt_of_parseStep {data : Data} {s t : ParseState} (h : parseStep data s = .ok t) :
    s.byteIndex < t.byteIndex := by
  rcases hr : data.read UInt8 s.byteIndex (s.byteIndex + 1) with e | b
  · simp only [parseStep, hr] at h
    cases h
  · rw [parseStep_of_read hr] at h
    cases h
    have hle := (s.countSeparator b.toNat).byteIndex_le_takeItem b.toNat
    rw [ParseState.byteIndex_countSeparator] at hle
    exact Nat.lt_succ_of_le hle

/-- The loop of `parseResponse`, while the byte index is in the data. -/
def parseLoop (data : Data) : Loop ParseState Trap where
  cond s := decide (s.byteIndex < data.count)
  body := parseStep data
  variant s := data.count - s.byteIndex
  decreases s t hc hb := by
    have hlt := byteIndex_lt_of_parseStep hb
    have hc' : s.byteIndex < data.count := by simpa using hc
    omega

/-- `parseResponse(withData:)`. -/
def parseResponse (self : GaugeLayoutConfigManager) (data : Data) :
    Except Trap GaugeLayoutConfigManager := do
  if ¬ data.count > 2 then
    return self
  let s ← (parseLoop data).run {}
  return { gauges := s.gauges, monitors := s.monitors }

/-- `constructData(gauges:monitors:)`. -/
def constructData (gauges monitors : List EngineDataItem) : List UInt8 :=
  [setGaugeConfigStartingByte] ++ [0] ++
    gauges.flatMap (fun gauge => [.ofNat gauge.rawValue, 1, 30]) ++ [255, 255, 255] ++
    monitors.flatMap (fun monitor => [.ofNat monitor.rawValue])

/-! ## The format -/

/-- A gauge's record; its id is not the separator. -/
structure GaugeRecord where
  id : UInt8
  graphFlag : UInt8
  graphTime : UInt8
  id_ne : id ≠ 255

def GaugeRecord.bytes (r : GaugeRecord) : List UInt8 := [r.id, r.graphFlag, r.graphTime]

/-- A layout message. -/
def message (header₀ header₁ : UInt8) (records : List GaugeRecord) (monitors : List UInt8) :
    List UInt8 :=
  [header₀, header₁] ++ records.flatMap GaugeRecord.bytes ++ [255, 255, 255] ++ monitors

/-- The items of the ids that name one, in order. -/
def itemsOf (ids : List UInt8) : List EngineDataItem :=
  ids.filterMap fun id => EngineDataItem.ofRawValue id.toNat

@[simp] theorem itemsOf_nil : itemsOf [] = [] := rfl

theorem itemsOf_cons (id : UInt8) (ids : List UInt8) :
    itemsOf (id :: ids) = (EngineDataItem.ofRawValue id.toNat).toList ++ itemsOf ids := by
  cases h : EngineDataItem.ofRawValue id.toNat <;> simp [itemsOf, h]

theorem itemsOf_rawValues (items : List EngineDataItem) :
    itemsOf (items.map fun item => .ofNat item.rawValue) = items := by
  induction items with
  | nil => rfl
  | cons item items ih =>
    have hlt := item.rawValue_lt
    rw [List.map_cons, itemsOf_cons, ih, UInt8.toNat_ofNat_of_lt' (by simp [UInt8.size]; omega),
      EngineDataItem.ofRawValue_rawValue]
    rfl

/-- A record behind separators, fewer than open the monitor section. -/
structure Block where
  strays : ℕ
  record : GaugeRecord
  strays_lt : strays < separatorCount

def Block.bytes (block : Block) : List UInt8 :=
  List.replicate block.strays 255 ++ block.record.bytes

def GaugeRecord.block (r : GaugeRecord) : Block := ⟨0, r, by decide⟩

/-! ## What the parser reads -/

/-- The gauges and the monitors of bytes that follow `c` separators, outside the monitor section:
the third separator in a row opens that, and any other byte is the id of a record. -/
def read (c : ℕ) : List UInt8 → List EngineDataItem × List EngineDataItem
  | [] => ([], [])
  | b :: rest =>
    if b = 255 then
      if c + 1 = separatorCount then ([], itemsOf rest) else read (c + 1) rest
    else
      ((EngineDataItem.ofRawValue b.toNat).toList ++ (read 0 (rest.drop 2)).1,
        (read 0 (rest.drop 2)).2)
termination_by l => l.length

theorem read_strays {c n : ℕ} (h : c + n < separatorCount) (l : List UInt8) :
    read c (List.replicate n 255 ++ l) = read (c + n) l := by
  induction n generalizing c with
  | zero => rfl
  | succ n ih =>
    have hc : c + 1 ≠ separatorCount := by omega
    have hn : c + 1 + n < separatorCount := by omega
    rw [List.replicate_succ, List.cons_append, read, if_pos rfl, if_neg hc, ih hn,
      Nat.add_assoc, Nat.add_comm 1 n]

/-- A record is three bytes; its id alone is looked at. -/
theorem read_record (c : ℕ) (r : GaugeRecord) (l : List UInt8) :
    read c (r.bytes ++ l) =
      ((EngineDataItem.ofRawValue r.id.toNat).toList ++ (read 0 l).1, (read 0 l).2) := by
  rw [GaugeRecord.bytes, List.cons_append, read, if_neg r.id_ne]
  rfl

/-- The records add the items of their ids to the gauges. -/
theorem read_blocks (blocks : List Block) (l : List UInt8) :
    read 0 (blocks.flatMap Block.bytes ++ l) =
      (itemsOf (blocks.map fun block => block.record.id) ++ (read 0 l).1, (read 0 l).2) := by
  induction blocks with
  | nil => rfl
  | cons block blocks ih =>
    have hstrays : 0 + block.strays < separatorCount := by
      rw [Nat.zero_add]
      exact block.strays_lt
    rw [List.flatMap_cons, Block.bytes, List.append_assoc, List.append_assoc,
      read_strays hstrays, read_record, ih, List.map_cons, itemsOf_cons, List.append_assoc]

/-- Three separators in a row open the monitor section. -/
theorem read_separator (l : List UInt8) : read 0 ([255, 255, 255] ++ l) = ([], itemsOf l) := by
  have htwo : 0 + 2 < separatorCount := by decide
  have hthree : 0 + 2 + 1 = separatorCount := rfl
  rw [show [255, 255, 255] ++ l = List.replicate 2 255 ++ (255 :: l) from rfl, read_strays htwo,
    read, if_pos rfl, if_pos hthree]

/-! ## The parser reads them -/

section Run

variable {bytes : List UInt8} {beyond : ℕ → UInt8} {i c : ℕ} {inMonitors : Bool}
  {g m : List EngineDataItem} {b : UInt8} {rest : List UInt8}

/-- The byte of a turn of the loop is in the data. -/
theorem read_getElem (h : i < bytes.length) :
    (Data.ofBytes bytes beyond).read UInt8 i (i + 1) = .ok bytes[i] := by
  have hin : (Data.ofBytes bytes beyond).startIndex ≤ i ∧ i ≤ i + 1 ∧
      i + 1 ≤ (Data.ofBytes bytes beyond).endIndex := ⟨Nat.zero_le _, Nat.le_succ _, h⟩
  rw [Data.read_eq_ok hin, Data.loaded_uint8, Data.storage_ofBytes h]

/-- One turn of the loop at a byte of the message. -/
theorem run_at (s : ParseState) (h : bytes.drop s.byteIndex = b :: rest) :
    (parseLoop (.ofBytes bytes beyond)).run s =
      (parseLoop (.ofBytes bytes beyond)).run
        ((s.countSeparator b.toNat).takeItem b.toNat).next := by
  have hlt : s.byteIndex < bytes.length := by
    by_contra hge
    rw [List.drop_eq_nil_of_le (not_lt.1 hge)] at h
    cases h
  have hget : bytes[s.byteIndex] = b := by
    rw [List.drop_eq_getElem_cons hlt] at h
    exact (List.cons.inj h).1
  have hread : (Data.ofBytes bytes beyond).read UInt8 s.byteIndex (s.byteIndex + 1) = .ok b :=
    hget ▸ read_getElem hlt
  exact Loop.run_eq_of_body _ (decide_eq_true hlt) (parseStep_of_read hread)

theorem run_end (h : bytes.length ≤ i) :
    (parseLoop (.ofBytes bytes beyond)).run ⟨i, c, inMonitors, g, m⟩ =
      .ok ⟨i, c, inMonitors, g, m⟩ :=
  Loop.run_eq_of_done _ (decide_eq_false (not_lt.2 h))

theorem drop_add {bytes l rest : List UInt8} {i : ℕ} (h : bytes.drop i = l ++ rest) :
    bytes.drop (i + l.length) = rest := by
  rw [← List.drop_drop, h, List.drop_left]

theorem toNat_ne_separatorValue (h : b ≠ 255) : b.toNat ≠ separatorValue := fun he =>
  h (UInt8.toNat_inj.1 he)

/-- In the monitor section every byte is an id, and no id is a separator's. -/
theorem run_monitors (ids : List UInt8) (h : bytes.drop i = ids) :
    ∃ s, (parseLoop (.ofBytes bytes beyond)).run ⟨i, c, true, g, m⟩ = .ok s ∧
      s.gauges = g ∧ s.monitors = m ++ itemsOf ids := by
  induction ids generalizing i m with
  | nil => exact ⟨_, run_end (List.drop_eq_nil_iff.1 h), rfl, by simp⟩
  | cons b ids ih =>
    have h1 : bytes.drop (i + 1) = ids := drop_add (l := [b]) h
    obtain ⟨s, hs, hg, hm⟩ := ih (m := m ++ (EngineDataItem.ofRawValue b.toNat).toList) h1
    refine ⟨s, ?_, hg, ?_⟩
    · rw [run_at ⟨i, c, true, g, m⟩ h, ← hs]
      by_cases hb : b.toNat = separatorValue
      · have hnone : EngineDataItem.ofRawValue separatorValue = none := rfl
        simp [ParseState.countSeparator, ParseState.takeItem, ParseState.next, hb, hnone]
      · simp [ParseState.countSeparator, ParseState.takeItem, ParseState.next, hb]
    · rw [hm, itemsOf_cons, List.append_assoc]

/-- Outside the monitor section the loop adds what is read to the lists. The induction follows
`read`, whose arguments are the separators counted and the bytes from the byte index on. -/
theorem run_read (l : List UInt8) (h : bytes.drop i = l) :
    ∃ s, (parseLoop (.ofBytes bytes beyond)).run ⟨i, c, false, g, m⟩ = .ok s ∧
      s.gauges = g ++ (read c l).1 ∧ s.monitors = m ++ (read c l).2 := by
  fun_induction read c l generalizing i g with
  | case1 c => exact ⟨_, run_end (List.drop_eq_nil_iff.1 h), by simp, by simp⟩
  | case2 c rest hc =>
    obtain ⟨s, hs, hg, hm⟩ : ∃ s, (parseLoop (.ofBytes bytes beyond)).run
        ⟨i + 1, c + 1, true, g, m⟩ = .ok s ∧ s.gauges = g ∧ s.monitors = m ++ itemsOf rest :=
      run_monitors rest (drop_add (l := [255]) h)
    refine ⟨s, ?_, by simpa using hg, hm⟩
    rw [run_at ⟨i, c, false, g, m⟩ h, ← hs]
    simp [ParseState.countSeparator, ParseState.takeItem, ParseState.next, separatorValue, hc]
  | case3 c rest hc ih =>
    obtain ⟨s, hs, hg, hm⟩ := ih (g := g) (drop_add (l := [255]) h)
    refine ⟨s, ?_, hg, hm⟩
    rw [run_at ⟨i, c, false, g, m⟩ h, ← hs]
    simp [ParseState.countSeparator, ParseState.takeItem, ParseState.next, separatorValue, hc]
  | case4 c b rest hb ih =>
    have hrest : bytes.drop (i + 3) = rest.drop 2 := by
      rw [← drop_add (l := [b]) h, List.drop_drop]
      rfl
    have hne := toNat_ne_separatorValue hb
    obtain ⟨s, hs, hg, hm⟩ := ih (g := g ++ (EngineDataItem.ofRawValue b.toNat).toList) hrest
    refine ⟨s, ?_, by rw [hg, List.append_assoc], hm⟩
    rw [run_at ⟨i, c, false, g, m⟩ h, ← hs]
    simp [ParseState.countSeparator, ParseState.takeItem, ParseState.next, hne, separatorCount]

/-- **The parser reads the bytes behind the header**, whatever lists the manager held. -/
theorem parseResponse_eq_read (self : GaugeLayoutConfigManager) (h : 2 < bytes.length) :
    self.parseResponse (.ofBytes bytes beyond) =
      .ok { gauges := (read 0 (bytes.drop 2)).1, monitors := (read 0 (bytes.drop 2)).2 } := by
  have hcount : (Data.ofBytes bytes beyond).count > 2 := h
  obtain ⟨s, hs, hg, hm⟩ : ∃ s, (parseLoop (.ofBytes bytes beyond)).run {} = .ok s ∧
      s.gauges = [] ++ (read 0 (bytes.drop 2)).1 ∧ s.monitors = [] ++ (read 0 (bytes.drop 2)).2 :=
    run_read _ rfl
  simp only [parseResponse, hcount, not_true_eq_false, if_false, hs]
  change Except.ok _ = Except.ok _
  rw [hg, hm, List.nil_append, List.nil_append]

end Run

/-- The parser on a layout message, whatever lists the manager held. -/
theorem parseResponse_message (self : GaugeLayoutConfigManager) (header₀ header₁ : UInt8)
    (records : List GaugeRecord) (monitors : List UInt8) (beyond : ℕ → UInt8) :
    self.parseResponse (.ofBytes (message header₀ header₁ records monitors) beyond) =
      .ok { gauges := itemsOf (records.map GaugeRecord.id), monitors := itemsOf monitors } := by
  have hblocks : (message header₀ header₁ records monitors).drop 2 =
      (records.map GaugeRecord.block).flatMap Block.bytes ++ ([255, 255, 255] ++ monitors) := by
    simp [message, List.flatMap_map, Block.bytes, GaugeRecord.block]
  have hids : (records.map GaugeRecord.block).map (fun block => block.record.id) =
      records.map GaugeRecord.id := by
    rw [List.map_map]
    rfl
  rw [parseResponse_eq_read self (by simp [message]), hblocks, read_blocks, read_separator, hids,
    List.append_nil]

theorem ofNat_rawValue_ne (item : EngineDataItem) : UInt8.ofNat item.rawValue ≠ 255 := by
  cases item <;> decide

/-- The encoder writes a message of the format. -/
theorem constructData_eq_message (gauges monitors : List EngineDataItem) :
    ∃ records : List GaugeRecord,
      records.map GaugeRecord.id = gauges.map (fun g => .ofNat g.rawValue) ∧
      constructData gauges monitors =
        message setGaugeConfigStartingByte 0 records (monitors.map fun m => .ofNat m.rawValue) := by
  refine ⟨gauges.map fun g => ⟨.ofNat g.rawValue, 1, 30, ofNat_rawValue_ne g⟩, ?_, ?_⟩
  · simp
  · rw [constructData, message, List.flatMap_map, List.map_eq_flatMap]
    rfl

/-- The decoder gives back what the encoder wrote. -/
theorem parseResponse_constructData (self : GaugeLayoutConfigManager)
    (gauges monitors : List EngineDataItem) (beyond : ℕ → UInt8) :
    self.parseResponse (.ofBytes (constructData gauges monitors) beyond) =
      .ok { gauges, monitors } := by
  obtain ⟨records, hids, he⟩ := constructData_eq_message gauges monitors
  rw [he, parseResponse_message, hids, itemsOf_rawValues, itemsOf_rawValues]

/-- **The decoder accepts the whole layout format**: any header, any records and any monitor
bytes, with the items of the valid ids in order and nothing else; and it gives back what the
encoder wrote. -/
theorem parseResponse_layout :
    (∀ (self : GaugeLayoutConfigManager) (header₀ header₁ : UInt8) (records : List GaugeRecord)
      (monitors : List UInt8) (beyond : ℕ → UInt8),
      self.parseResponse (.ofBytes (message header₀ header₁ records monitors) beyond) =
        .ok { gauges := itemsOf (records.map GaugeRecord.id), monitors := itemsOf monitors }) ∧
    ∀ (self : GaugeLayoutConfigManager) (gauges monitors : List EngineDataItem)
      (beyond : ℕ → UInt8),
      self.parseResponse (.ofBytes (constructData gauges monitors) beyond) =
        .ok { gauges, monitors } :=
  ⟨parseResponse_message, parseResponse_constructData⟩

/-! ## The layout on the device -/

/-- What a device stores for a gauge: its item, and the settings of its graph. -/
structure GaugeSetting where
  item : EngineDataItem
  graphFlag : UInt8
  graphTime : UInt8

def GaugeSetting.record (g : GaugeSetting) : GaugeRecord :=
  ⟨.ofNat g.item.rawValue, g.graphFlag, g.graphTime, ofNat_rawValue_ne g.item⟩

/-- A well-formed layout message: all its ids name an item. -/
structure StoredLayout where
  header₀ : UInt8
  header₁ : UInt8
  gauges : List GaugeSetting
  monitors : List EngineDataItem

def StoredLayout.bytes (l : StoredLayout) : List UInt8 :=
  message l.header₀ l.header₁ (l.gauges.map GaugeSetting.record)
    (l.monitors.map fun m => .ofNat m.rawValue)

theorem parseResponse_storedLayout (self : GaugeLayoutConfigManager) (l : StoredLayout)
    (beyond : ℕ → UInt8) :
    self.parseResponse (.ofBytes l.bytes beyond) =
      .ok { gauges := l.gauges.map GaugeSetting.item, monitors := l.monitors } := by
  have hids : (l.gauges.map GaugeSetting.record).map GaugeRecord.id =
      (l.gauges.map GaugeSetting.item).map fun item => .ofNat item.rawValue := by
    simp [GaugeSetting.record]
  rw [StoredLayout.bytes, parseResponse_message, hids, itemsOf_rawValues, itemsOf_rawValues]

/-- The encoder writes every gauge with its graph on, for a time of 30. -/
theorem records_eq_iff (gauges : List GaugeSetting) :
    (gauges.map GaugeSetting.item).flatMap (fun gauge => [.ofNat gauge.rawValue, 1, 30]) =
        (gauges.map GaugeSetting.record).flatMap GaugeRecord.bytes ↔
      ∀ g ∈ gauges, g.graphFlag = 1 ∧ g.graphTime = 30 := by
  induction gauges with
  | nil => simp
  | cons g gauges ih =>
    rw [List.forall_mem_cons, ← ih]
    simp [GaugeSetting.record, GaugeRecord.bytes, eq_comm, and_assoc]

/-- **When reading a layout and saving it back changes nothing.** Behind the header, the message
written for the lists that were read is the one that the device held exactly where each of its
gauges has the graph settings that the encoder writes. -/
theorem saved_back_unchanged_iff (self : GaugeLayoutConfigManager) (l : StoredLayout)
    (beyond : ℕ → UInt8) :
    (∃ read, self.parseResponse (.ofBytes l.bytes beyond) = .ok read ∧
      (constructData read.gauges read.monitors).drop 2 = l.bytes.drop 2) ↔
    ∀ g ∈ l.gauges, g.graphFlag = 1 ∧ g.graphTime = 30 := by
  rw [parseResponse_storedLayout, ← records_eq_iff]
  have hmonitors : l.monitors.flatMap (fun m => [UInt8.ofNat m.rawValue]) =
      l.monitors.map fun m => .ofNat m.rawValue := List.map_eq_flatMap.symm
  simp [constructData, StoredLayout.bytes, message, hmonitors]

/-- A layout whose only gauge has its graph off is written back with the graph on. -/
theorem saved_back_with_graph_on :
    ¬ ∀ (self : GaugeLayoutConfigManager) (l : StoredLayout) (beyond : ℕ → UInt8),
      ∃ read, self.parseResponse (.ofBytes l.bytes beyond) = .ok read ∧
        (constructData read.gauges read.monitors).drop 2 = l.bytes.drop 2 := by
  intro h
  obtain ⟨read, hread, hsaved⟩ := h {} ⟨0, 0, [⟨.rpm, 0, 30⟩], []⟩ fun _ => 0
  rw [parseResponse_storedLayout] at hread
  cases hread
  exact absurd hsaved (by decide)

end GaugeLayoutConfigManager

end Rx7
