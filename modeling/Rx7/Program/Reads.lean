import Rx7.Bluetooth.Log
import Rx7.Program.Editors

/-!
# Reads of the running program

The Bluetooth manager forgets a read that is asked for while it answers others. No closure of the
program asks for any, so that it forgets none (`balanced_step`): the reads that it accepted are
those that it answered and those that it has still to answer. Those of the layout are the loads of
the editors, in the order in which they were opened (`Loads`), so that none is answered twice.
-/

namespace Rx7.Program

open Bluetooth Transition

section

variable {uikit : UIKit} {describe : CBUUID → String} {s t u : Program} {e : Event}
  {events : List Event} {event : Bluetooth.Event Closure} {parts parts' : Parts}
  {c : Characteristics}

/-- Where no closure is running, no read is late. -/
theorem lateRead_of_idle (hidle : s.Idle) (call : Call Closure) :
    s.lateRead c (.call call) = none := by
  cases call with
  | read c' closure =>
    refine if_neg fun h => ?_
    rw [System.answering_of_idle hidle] at h
    cases h.2.1
  | _ => rfl

theorem lateRead_of_not_call (hcall : isCall event = false) : s.lateRead c event = none := by
  cases event with
  | call call => cases hcall
  | _ => rfl

/-- No step loses a read. -/
theorem balanced_step (hs : (s.ledger c).Balanced []) (h : step uikit describe s e = some t) :
    (t.ledger c).Balanced [] := by
  rcases step_cases h with ⟨event, u, -, hcall, hu, rfl⟩ | ⟨input, parts, -, -, -, rfl⟩ |
    ⟨input, parts, call, -, hidle, -, h⟩
  · obtain ⟨dashboard, ht⟩ := observeState_eq u event
    have hstep := System.ledger_step hu c
    rw [lateRead_of_not_call hcall] at hstep
    rw [ht]
    exact hstep.balanced hs
  · exact hs
  · have hnone : System.lateRead c { s with app := parts } (.call call) = none :=
      lateRead_of_idle (s := { s with app := parts }) hidle call
    have hstep := System.ledger_step h c
    rw [hnone] at hstep
    exact hstep.balanced hs

/-! ## Reads of the layout -/

/-- The reads of the layout are loads of the editors, in their order. -/
def Loads (s : Program) : Prop :=
  (s.acceptedReads .layoutConfig).Sublist ((List.range s.app.opened).map .load)

theorem opened_invoke {k : Closure} {value : Option Data} (h : k.invoke value parts = some parts') :
    parts'.opened = parts.opened := by
  cases k with
  | engineData =>
    obtain ⟨dashboard, -, rfl⟩ := Option.map_eq_some_iff.1 h
    rfl
  | initializeThresholds => cases value <;> exact (congrArg Parts.opened (Option.some.inj h)).symm
  | noOp => exact (congrArg Parts.opened (Option.some.inj h)).symm
  | saved editor => exact (congrArg Parts.opened (Option.some.inj h)).symm
  | load editor =>
    cases value with
    | none => exact (congrArg Parts.opened (Option.some.inj h)).symm
    | some data =>
      simp only [Closure.invoke] at h
      cases hparse : parts.layout.parseResponse data with
      | error trap =>
        rw [hparse] at h
        cases h
      | ok layout =>
        rw [hparse] at h
        exact (congrArg Parts.opened (Option.some.inj h)).symm

theorem opened_appAfter {called : Option (Closure × Option Data)}
    (h : System.appAfter Closure.invoke parts called = some parts') :
    parts'.opened = parts.opened := by
  cases called with
  | none => exact (congrArg Parts.opened (Option.some.inj h)).symm
  | some called => exact opened_invoke h

/-- An input opens an editor, and reads the layout for it, or does neither. -/
theorem opened_perform {input : Input} {call : Option (Call Closure)}
    (h : Performs uikit parts input parts' call) :
    (parts'.opened = parts.opened ∧ ∀ k, call ≠ some (.read .layoutConfig k)) ∨
      parts'.opened = parts.opened + 1 ∧
        call = some (.read .layoutConfig (.load parts.opened)) := by
  have hmanager : ∀ k, parts.thresholdConfigManager.2 ≠ some (.read .layoutConfig k) := by
    intro k hk
    cases (thresholdConfigManager_call hk).2
  cases h with
  | opensEditor => exact .inr ⟨rfl, rfl⟩
  | cell cell hrow => exact .inl ⟨rfl, hmanager⟩
  | noThreshold hrow hthreshold => exact .inl ⟨rfl, hmanager⟩
  | opensPage hrow hthreshold => exact .inl ⟨rfl, hmanager⟩
  | _ => exact .inl ⟨rfl, by simp⟩

theorem loads_step (hs : Loads s) (h : step uikit describe s e = some t) : Loads t := by
  unfold Loads at *
  rcases step_cases h with ⟨event, u, -, hcall, hu, rfl⟩ | ⟨input, parts, -, -, hperform, rfl⟩ |
    ⟨input, parts, call, -, -, hperform, h⟩
  · obtain ⟨dashboard, ht⟩ := observeState_eq u event
    rw [ht]
    change (u.acceptedReads .layoutConfig).Sublist ((List.range u.app.opened).map .load)
    have haccepted : u.acceptedReads .layoutConfig = s.acceptedReads .layoutConfig := by
      rcases System.acceptedReads_step hu .layoutConfig with hsame | ⟨k, rfl, -⟩
      · exact hsame
      · cases hcall
    rw [haccepted, opened_appAfter (System.app_of_step hu)]
    exact hs
  · rcases opened_perform (perform_cases hperform) with ⟨hopened, -⟩ | ⟨-, hnone⟩
    · change (s.acceptedReads .layoutConfig).Sublist ((List.range parts.opened).map .load)
      rw [hopened]
      exact hs
    · cases hnone
  · have hopened : t.app.opened = parts.opened := opened_appAfter (System.app_of_step h)
    have hadded := System.acceptedReads_step h .layoutConfig
    rw [hopened]
    rcases opened_perform (perform_cases hperform) with ⟨hsame, hno⟩ | ⟨hsucc, hload⟩
    · rw [hsame]
      rcases hadded with hkept | ⟨k, hk, -⟩
      · rw [hkept]
        exact hs
      · exact absurd (congrArg some (Bluetooth.Event.call.inj hk)) (hno k)
    · rw [hsucc, List.range_succ, List.map_append]
      rcases hadded with hkept | ⟨k, hk, hsnoc⟩
      · rw [hkept]
        exact hs.trans (List.sublist_append_left _ _)
      · rw [Option.some.inj hload] at hk
        cases hk
        rw [hsnoc]
        exact hs.append (List.Sublist.refl _)

theorem balanced_run (h : Run (ofPartial (step uikit describe)) launch events s)
    (c : Characteristics) : (s.ledger c).Balanced [] :=
  h.invariant  (List.Perm.refl _)
    fun _ _ _ hs ht => balanced_step hs ht

theorem loads_run (h : Run (ofPartial (step uikit describe)) launch events s) : Loads s :=
  h.invariant (List.Sublist.refl _) fun _ _ _ hs ht => loads_step hs ht

/-- **No read is lost, and no load is answered twice.** In every run of the program the reads that
were accepted are, each once, those that were answered and those that are still to be; those of the
layout are the loads of editors that were opened, in their order, and of each of them once. -/
theorem reads_kept (h : Run (ofPartial (step uikit describe)) launch events s) :
    (∀ c, (s.acceptedReads c).Perm (s.answeredReads c ++ s.pendingReads c)) ∧
      (s.acceptedReads .layoutConfig).Sublist ((List.range s.app.opened).map .load) ∧
      (s.answeredReads .layoutConfig ++ s.pendingReads .layoutConfig).Nodup := by
  have hperm : ∀ c, (s.acceptedReads c).Perm (s.answeredReads c ++ s.pendingReads c) := by
    intro c
    have hbalanced := balanced_run h c
    rwa [Ledger.Balanced, List.append_nil] at hbalanced
  have hnodup : ((List.range s.app.opened).map Closure.load).Nodup :=
    List.nodup_range.map fun _ _ heq => Closure.load.inj heq
  exact ⟨hperm, loads_run h, (hperm _).nodup_iff.1 ((loads_run h).nodup hnodup)⟩

theorem reads_kept_twoEditors :
    ∃ s, Run (ofPartial (step .clamping CBUUID.uuidString)) launch twoEditors s ∧
      (∀ c, (s.acceptedReads c).Perm (s.answeredReads c ++ s.pendingReads c)) ∧
      (s.acceptedReads .layoutConfig).Sublist ((List.range s.app.opened).map .load) ∧
      (s.answeredReads .layoutConfig ++ s.pendingReads .layoutConfig).Nodup := by
  have hrun : Run (ofPartial (step .clamping CBUUID.uuidString)) launch twoEditors _ :=
    Run.of_foldlM rfl
  exact ⟨_, hrun, reads_kept hrun⟩

end

end Rx7.Program
