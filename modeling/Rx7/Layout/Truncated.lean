import Rx7.Layout.Codec
import Mathlib.Data.List.Infix

/-!
# Truncated layout responses

A response that is cut short gives fewer items and no others: what the parser reads of a byte
string begins what it reads of any longer one (`read_isPrefix`), whether or not these are messages,
and wherever the cut falls. Monitors are read only where a whole separator is there
(`exists_blocks_of_read`).
-/

namespace Rx7.GaugeLayoutConfigManager

variable {c : ℕ} {l l' : List UInt8}

/-- **What is read of a beginning is a beginning.** The induction follows the shorter string; a
record that it ends in takes nothing of the longer one but its rest. -/
theorem read_isPrefix (h : l <+: l') :
    (read c l).1 <+: (read c l').1 ∧ (read c l).2 <+: (read c l').2 := by
  fun_induction read c l generalizing l' with
  | case1 c => exact ⟨List.nil_prefix, List.nil_prefix⟩
  | case2 c rest hc =>
    obtain ⟨rest', rfl, hrest⟩ := List.cons_prefix_iff.1 h
    rw [read, if_pos rfl, if_pos hc]
    exact ⟨List.nil_prefix, List.IsPrefix.filterMap _ hrest⟩
  | case3 c rest hc ih =>
    obtain ⟨rest', rfl, hrest⟩ := List.cons_prefix_iff.1 h
    rw [read, if_pos rfl, if_neg hc]
    exact ih hrest
  | case4 c b rest hb ih =>
    obtain ⟨rest', rfl, hrest⟩ := List.cons_prefix_iff.1 h
    rw [read, if_neg hb]
    obtain ⟨hg, hm⟩ := ih (List.IsPrefix.drop hrest 2)
    exact ⟨(List.prefix_append_right_inj _).2 hg, hm⟩

/-- Where monitors are read, records and a whole separator come before them. -/
theorem exists_blocks_of_read (hc : c < separatorCount) :
    (read c l).2 ≠ [] → ∃ (blocks : List Block) (rest : List UInt8),
      List.replicate c 255 ++ l = blocks.flatMap Block.bytes ++ [255, 255, 255] ++ rest := by
  fun_induction read c l with
  | case1 c => exact fun h => (h rfl).elim
  | case2 c rest hc' =>
    intro _
    obtain rfl : c = 2 := Nat.succ_inj.1 hc'
    exact ⟨[], rest, rfl⟩
  | case3 c rest hc' ih =>
    intro h
    obtain ⟨blocks, tail, he⟩ := ih (by omega) h
    refine ⟨blocks, tail, ?_⟩
    rw [← he, List.replicate_succ', List.append_assoc]
    rfl
  | case4 c b rest hb ih =>
    intro h
    obtain ⟨blocks, tail, he⟩ := ih (by decide) h
    -- The record is whole, since there are bytes behind it.
    cases rest with
    | nil => simp at he
    | cons b₁ rest =>
      cases rest with
      | nil => simp at he
      | cons b₂ rest =>
        refine ⟨⟨c, ⟨b, b₁, b₂, hb⟩, hc⟩ :: blocks, tail, ?_⟩
        change rest = _ at he
        rw [List.flatMap_cons, he]
        simp [Block.bytes, GaugeRecord.bytes]

/-- No monitors are read of bytes that end before the separator does. -/
theorem read_eq_nil_of_isPrefix (blocks : List Block)
    (h : l <+: blocks.flatMap Block.bytes ++ [255, 255]) : (read 0 l).2 = [] := by
  have htwo : read 0 [255, 255] = ([], []) := by
    have hcount : 0 + 2 < separatorCount := by decide
    rw [show ([255, 255] : List UInt8) = List.replicate 2 255 ++ [] from rfl, read_strays hcount,
      read]
  have hblocks : (read 0 (blocks.flatMap Block.bytes ++ [255, 255])).2 = [] := by
    rw [read_blocks, htwo]
  exact List.prefix_nil.1 (hblocks ▸ (read_isPrefix h).2)

/-- **A truncated layout response only loses items.** Of a byte string and a beginning of it with
more than two bytes, both are parsed without a trap, and the lists of the beginning begin those of
the whole. Where the cut falls before the third byte of the first separator behind records, or
there is no separator in the beginning, there are no monitors. -/
theorem parseResponse_truncated {p d : List UInt8} (hp : p <+: d) (hlength : 2 < p.length)
    (self self' : GaugeLayoutConfigManager) (beyond beyond' : ℕ → UInt8) :
    ∃ cut whole, self.parseResponse (.ofBytes p beyond) = .ok cut ∧
      self'.parseResponse (.ofBytes d beyond') = .ok whole ∧
      cut.gauges <+: whole.gauges ∧ cut.monitors <+: whole.monitors ∧
      (∀ (blocks : List Block) (rest : List UInt8),
        d.drop 2 = blocks.flatMap Block.bytes ++ [255, 255, 255] ++ rest →
          p.length < 2 + (blocks.flatMap Block.bytes).length + 3 → cut.monitors = []) ∧
      ((∀ (blocks : List Block) (rest : List UInt8),
        p.drop 2 ≠ blocks.flatMap Block.bytes ++ [255, 255, 255] ++ rest) →
          cut.monitors = []) := by
  have hlength' : 2 < d.length := hlength.trans_le hp.length_le
  obtain ⟨hg, hm⟩ := read_isPrefix (c := 0) (List.IsPrefix.drop hp 2)
  refine ⟨_, _, parseResponse_eq_read self hlength, parseResponse_eq_read self' hlength', hg, hm,
    fun blocks rest hd hcut => ?_, fun hnone => ?_⟩
  · refine read_eq_nil_of_isPrefix blocks ?_
    have hsplit : d.drop 2 = (blocks.flatMap Block.bytes ++ [255, 255]) ++ (255 :: rest) := by
      simp [hd]
    refine List.prefix_of_prefix_length_le (List.IsPrefix.drop hp 2)
      (hsplit ▸ List.prefix_append _ _) ?_
    rw [List.length_drop, List.length_append, List.length_cons, List.length_singleton]
    omega
  · by_contra hne
    obtain ⟨blocks, rest, he⟩ := exists_blocks_of_read (by decide) hne
    exact hnone blocks rest he

/-- A gauge, the separator and a monitor, cut in the separator. -/
theorem parseResponse_truncated_separator :
    ∃ cut whole,
      ({} : GaugeLayoutConfigManager).parseResponse
        (.ofBytes [0, 0, 1, 1, 30, 255, 255] fun _ => 0) = .ok cut ∧
      ({} : GaugeLayoutConfigManager).parseResponse
        (.ofBytes [0, 0, 1, 1, 30, 255, 255, 255, 7] fun _ => 0) = .ok whole ∧
      cut.gauges <+: whole.gauges ∧ cut.monitors <+: whole.monitors := by
  obtain ⟨cut, whole, hcut, hwhole, hg, hm, -⟩ := parseResponse_truncated
    (p := [0, 0, 1, 1, 30, 255, 255]) (d := [0, 0, 1, 1, 30, 255, 255, 255, 7]) ⟨[255, 7], rfl⟩
    (by decide) {} {} (fun _ => 0) fun _ => 0
  exact ⟨cut, whole, hcut, hwhole, hg, hm⟩

end Rx7.GaugeLayoutConfigManager
