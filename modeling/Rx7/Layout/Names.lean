import Rx7.Layout.Codec

/-!
# The items that a response names

Any bytes behind a header are records, each behind separators, and an ending; the ids in them name
items (`Names`), and these are what the parser reads (`names_iff`). A response with no more than a
header names none, and leaves the manager's lists as they are (`parseResponse_eq_ok_iff`).
-/

namespace Rx7.GaugeLayoutConfigManager

/-- What can follow the records of a message, with the ids of a gauge and of the monitors in it: a
separator and the monitors, or, where the message is cut short, separators fewer than open the
monitor section and what is left of a record. -/
inductive Ending : List UInt8 → List UInt8 → List UInt8 → Prop
  | separated (monitors : List UInt8) : Ending ([255, 255, 255] ++ monitors) [] monitors
  | strays {n : ℕ} (h : n < separatorCount) : Ending (List.replicate n 255) [] []
  | cut {n : ℕ} (h : n < separatorCount) {id : UInt8} (hid : id ≠ 255) {rest : List UInt8}
      (hrest : rest.length < 2) : Ending (List.replicate n 255 ++ id :: rest) [id] []

/-- The ids in the bytes behind a header name these items. -/
def Names (bytes : List UInt8) (gauges monitors : List EngineDataItem) : Prop :=
  ∃ (blocks : List Block) (ending gaugeIds monitorIds : List UInt8),
    bytes = blocks.flatMap Block.bytes ++ ending ∧ Ending ending gaugeIds monitorIds ∧
    itemsOf ((blocks.map fun block => block.record.id) ++ gaugeIds) = gauges ∧
    itemsOf monitorIds = monitors

theorem itemsOf_append (ids ids' : List UInt8) :
    itemsOf (ids ++ ids') = itemsOf ids ++ itemsOf ids' := List.filterMap_append

theorem read_ending {l gaugeIds monitorIds : List UInt8} (h : Ending l gaugeIds monitorIds) :
    read 0 l = (itemsOf gaugeIds, itemsOf monitorIds) := by
  cases h with
  | separated monitors => exact read_separator monitorIds
  | @strays n h =>
    have hn : 0 + n < separatorCount := by rwa [Nat.zero_add]
    rw [← List.append_nil (List.replicate n _), read_strays hn, read]
    rfl
  | @cut n h id hid rest hrest =>
    have hn : 0 + n < separatorCount := by rwa [Nat.zero_add]
    rw [read_strays hn, read, if_neg hid, List.drop_eq_nil_of_le (by omega), read, itemsOf_cons]
    rfl

/-- Every byte string behind `c` separators is records and an ending. -/
theorem exists_blocks (c : ℕ) (hc : c < separatorCount) (l : List UInt8) :
    ∃ (blocks : List Block) (ending gaugeIds monitorIds : List UInt8),
      List.replicate c 255 ++ l = blocks.flatMap Block.bytes ++ ending ∧
      Ending ending gaugeIds monitorIds := by
  fun_induction read c l with
  | case1 c => exact ⟨[], _, [], [], by simp, .strays hc⟩
  | case2 c rest hc' =>
    obtain rfl : c = 2 := Nat.succ_inj.1 hc'
    exact ⟨[], _, [], rest, rfl, .separated rest⟩
  | case3 c rest hc' ih =>
    obtain ⟨blocks, ending, gaugeIds, monitorIds, he, hending⟩ := ih (by omega)
    refine ⟨blocks, ending, gaugeIds, monitorIds, ?_, hending⟩
    rw [← he, List.replicate_succ', List.append_assoc]
    rfl
  | case4 c b rest hb ih =>
    obtain ⟨blocks, ending, gaugeIds, monitorIds, he, hending⟩ := ih (by decide)
    rcases rest with _ | ⟨b₁, _ | ⟨b₂, rest⟩⟩
    · exact ⟨[], _, [b], [], rfl, .cut hc hb (by simp)⟩
    · exact ⟨[], _, [b], [], rfl, .cut hc hb (by simp)⟩
    · refine ⟨⟨c, ⟨b, b₁, b₂, hb⟩, hc⟩ :: blocks, ending, gaugeIds, monitorIds, ?_, hending⟩
      change rest = _ at he
      rw [List.flatMap_cons, he]
      simp [Block.bytes, GaugeRecord.bytes]

/-- The parser reads the items that the bytes name. -/
theorem names_iff {l : List UInt8} {gauges monitors : List EngineDataItem} :
    Names l gauges monitors ↔ read 0 l = (gauges, monitors) := by
  have hread : ∀ {blocks : List Block} {ending gaugeIds monitorIds : List UInt8},
      Ending ending gaugeIds monitorIds → read 0 (blocks.flatMap Block.bytes ++ ending) =
        (itemsOf ((blocks.map fun block => block.record.id) ++ gaugeIds), itemsOf monitorIds) := by
    intro blocks ending gaugeIds monitorIds h
    rw [read_blocks, read_ending h, itemsOf_append]
  constructor
  · rintro ⟨blocks, ending, gaugeIds, monitorIds, rfl, hending, rfl, rfl⟩
    exact hread hending
  · intro h
    obtain ⟨blocks, ending, gaugeIds, monitorIds, he, hending⟩ := exists_blocks 0 (by decide) l
    change l = _ at he
    rw [he, hread hending] at h
    obtain ⟨hg, hm⟩ := Prod.ext_iff.1 h
    exact ⟨blocks, ending, gaugeIds, monitorIds, he, hending, hg, hm⟩

/-! ## Any response -/

/-- A turn of the loop that does not trap finds the byte of the storage. -/
theorem parseStep_bytes {data : Data} {s t : ParseState} (hc : s.byteIndex < data.count)
    (h : parseStep data s = .ok t) : parseStep
      (.ofBytes (Data.window data.storage 0 data.count) fun _ => 0) s = .ok t := by
  have hlt : s.byteIndex < (Data.window data.storage 0 data.count).length := by
    rwa [Data.length_window]
  obtain ⟨b, hb, h⟩ := Trap.bind_eq_ok_iff.1 h
  obtain ⟨slice, hslice, -⟩ := Trap.bind_eq_ok_iff.1 hb
  have hin : data.startIndex ≤ s.byteIndex ∧ s.byteIndex ≤ s.byteIndex + 1 ∧
      s.byteIndex + 1 ≤ data.endIndex := by
    by_contra hout
    rw [Data.slice, dif_neg hout] at hslice
    cases hslice
  rw [Data.read_eq_ok hin, Data.loaded_uint8] at hb
  obtain rfl := Except.ok.inj hb
  have hget : (Data.window data.storage 0 data.count)[s.byteIndex] = data.storage s.byteIndex := by
    simp [Data.window]
  rw [parseStep_of_read (read_getElem hlt), hget]
  exact h

/-- The bytes of a response behind its header. -/
def behindHeader (data : Data) : List UInt8 := Data.window data.storage 2 (data.count - 2)

/-- What a response that does not trap is parsed to: the items that it names, whatever lists the
manager held, or these where it has no more than a header. -/
theorem parseResponse_eq_ok_iff {self layout : GaugeLayoutConfigManager} {data : Data}
    (h : self.parseResponse data = .ok layout) (gauges monitors : List EngineDataItem) :
    layout = { gauges, monitors } ↔
      if 2 < data.count then Names (behindHeader data) gauges monitors
      else self = { gauges, monitors } := by
  split_ifs with hcount
  · let bytes := Data.window data.storage 0 data.count
    have hlength : 2 < bytes.length := by simpa [bytes] using hcount
    have hbytes : bytes.drop 2 = behindHeader data := by
      have hsplit : bytes = Data.window data.storage 0 2 ++ behindHeader data := by
        rw [behindHeader, ← Data.window_add, Nat.add_sub_cancel' hcount.le]
      rw [hsplit]
      exact List.drop_left' (by simp)
    -- the reads of the loop find in the bytes what they find in the data
    have hsame : self.parseResponse (.ofBytes bytes fun _ => 0) = .ok layout := by
      have hnot : ¬ ¬ data.count > 2 := not_not.2 hcount
      have hnot' : ¬ ¬ (Data.ofBytes bytes fun _ => 0).count > 2 := not_not.2 hlength
      rw [parseResponse, if_neg hnot] at h
      rw [parseResponse, if_neg hnot']
      obtain ⟨s, hs, h⟩ := Trap.bind_eq_ok_iff.1 h
      have hrun : (parseLoop (.ofBytes bytes fun _ => 0)).run {} = .ok s := by
        refine Loop.run_mono (fun s => ?_) (fun s t hc hb => ?_) hs
        · simp [parseLoop, bytes]
        · exact parseStep_bytes (by simpa [parseLoop] using hc) hb
      rw [hrun]
      exact h
    rw [parseResponse_eq_read self hlength, hbytes] at hsame
    obtain rfl := Except.ok.inj hsame
    rw [names_iff, GaugeLayoutConfigManager.mk.injEq, Prod.ext_iff]
  · rw [parseResponse, if_pos hcount] at h
    rw [Except.ok.inj h]

end Rx7.GaugeLayoutConfigManager
