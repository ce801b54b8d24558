import Rx7.Editor.App

/-!
# The outcome of saves

What the editor tells about its saves, over runs of the three components.

* `saves_reported_truly_iff`: saves are reported as what became of them exactly where no write of
  a save is acknowledged with an error. The layout manager reports each as successful, and the
  Bluetooth manager does not pass the error on.
* `saving_indicator_iff`: `isSaving` tells whether a write of a save is outstanding exactly where
  no save is dropped for want of a connection, and the acknowledgements that are routed back are
  those of the last outstanding saves.
-/

namespace Rx7.App

open Bluetooth Transition

variable {describe : CBUUID → String} {s t : App}

/-- A write of a save has been handed to the peripheral and is not acknowledged. -/
def Outstanding (s : App) : Prop := Closure.saved ∈ s.unacknowledgedHandlers .layoutConfig

/-- The acknowledgement of a UUID is for the write of a save. -/
def AcknowledgesSave (s : App) (uuid : CBUUID) : Prop :=
  (s.acknowledgedWrite uuid).bind (·.handler) = some .saved

instance (s : App) : Decidable (Outstanding s) :=
  inferInstanceAs (Decidable (Closure.saved ∈ s.unacknowledgedHandlers .layoutConfig))

instance (s : App) (uuid : CBUUID) : Decidable (AcknowledgesSave s uuid) :=
  inferInstanceAs (Decidable ((s.acknowledgedWrite uuid).bind (·.handler) = some .saved))

/-! ## Events without an acknowledgement -/

/-- Nothing was reported, and the outstanding saves and the indicator are as before. -/
structure SameSaves (s t : App) : Prop where
  reports : t.app.reports = s.app.reports
  isSaving : t.app.editor.isSaving = s.app.editor.isSaving
  outstanding : Outstanding t ↔ Outstanding s

theorem SameSaves.of_unacknowledged (happ : t.app = s.app)
    (h : t.unacknowledged = s.unacknowledged) : SameSaves s t :=
  ⟨by rw [happ], by rw [happ], by
    rw [Outstanding, System.unacknowledgedHandlers, h]
    rfl⟩

theorem invoke_readClosure {closure : Closure} {value : Option Data} {app app' : Editing}
    (hc : ReadClosure closure) (h : closure.invoke value app = some app') :
    app'.reports = app.reports ∧ app'.editor.isSaving = app.editor.isSaving := by
  cases closure with
  | saved => exact (hc rfl).elim
  | other identifier => simp [← Option.some.inj h]
  | load =>
    cases value with
    | none => simp [← Option.some.inj h]
    | some data =>
      simp only [Closure.invoke] at h
      split at h
      · obtain rfl := Option.some.inj h
        exact ⟨rfl, rfl⟩
      · cases h

theorem SameSaves.of_readSide (h : System.ReadSide Closure.invoke ReadClosure s t) :
    SameSaves s t := by
  have houtstanding : Outstanding t ↔ Outstanding s := by
    rw [Outstanding, System.unacknowledgedHandlers, h.unacknowledged]
    rfl
  rcases h.app with happ | ⟨closure, value, hc, happ⟩
  · exact ⟨by rw [happ], by rw [happ], houtstanding⟩
  · obtain ⟨hreports, hsaving⟩ := invoke_readClosure hc happ
    exact ⟨hreports, hsaving, houtstanding⟩

/-- A Bluetooth event of the other parts of the app leaves the saves alone, unless it is an
acknowledgement. -/
theorem bluetooth_cases (hs : Managed describe s) {event : Bluetooth.Event Closure}
    (hg : event.Gives ReadClosure fun _ => OtherClosure) (hc : event.CarriesHandler)
    (h : System.step describe Closure.invoke s event = some t) :
    (SameSaves s t ∧ ∀ ch error, event ≠ .didWriteValueFor ch error) ∨
    ∃ ch error, event = .didWriteValueFor ch error ∧ s.Idle ∧
      (s.acknowledgedWrite ch.uuid).map (·.characteristic) = some ch ∧
      System.didWriteValueFor describe Closure.invoke s ch error = some t := by
  have hdiscovered := hs.accounted.discovered
  rcases System.step_sides hs.accounted.holds hg.read h with ⟨hside, hne⟩ |
    ⟨data, c, handler, rfl, rfl⟩ | ⟨data, c, withResponse, rfl, rfl⟩ | ⟨c, rfl, -, h⟩ | hack |
    ⟨hquiet, hne⟩
  · exact .inl ⟨.of_readSide hside, hne⟩
  · have happ := System.app_write hdiscovered data c handler
    obtain ⟨identifier, rfl⟩ := hg.write c handler rfl
    refine .inl ⟨⟨by rw [happ], by rw [happ], ?_⟩, by simp⟩
    rw [Outstanding, System.unacknowledgedHandlers_write hdiscovered, List.mem_append]
    refine or_iff_left fun hmem => ?_
    split_ifs at hmem
    · cases List.mem_singleton.1 hmem
    · cases hmem
  · obtain rfl : withResponse = false := hc
    obtain ⟨requests, ht⟩ := s.writeValue_withoutResponse data c
    rw [ht]
    exact .inl ⟨.of_unacknowledged rfl rfl, by simp⟩
  · obtain rfl := System.finishAcknowledgement_eq h
    exact .inl ⟨.of_unacknowledged rfl rfl, by simp⟩
  · exact .inr hack
  · exact .inl ⟨.of_unacknowledged hquiet.app hquiet.unacknowledged, hne⟩

/-- **What an event does to the saves**: nothing, or it is an acknowledgement or a save. -/
theorem saves_cases (hs : Managed describe s) {e : AppEvent} (h : step describe s e = some t) :
    (SameSaves s t ∧ (∀ ch error, e ≠ .bluetooth (.didWriteValueFor ch error)) ∧
      (e = .save → s.app.editor.configHasChanged = false)) ∨
    (∃ ch error, e = .bluetooth (.didWriteValueFor ch error) ∧ s.Idle ∧
      (s.acknowledgedWrite ch.uuid).map (·.characteristic) = some ch ∧
      System.didWriteValueFor describe Closure.invoke s ch error = some t) ∨
    (∃ data, e = .save ∧ s.app.editor.configHasChanged = true ∧
      t = (s.withApp (saving s.app)).write data .layoutConfig .saved) := by
  rcases step_cases h with ⟨event, rfl, hf, hstep⟩ | ⟨rfl, hstep⟩ |
    ⟨edit, editor, rfl, hperform, rfl⟩ | ⟨rfl, hc, rfl⟩ | hsave
  · obtain ⟨hg, hc⟩ := gives_of_isForeign hf
    rcases bluetooth_cases hs hg hc hstep with ⟨hsame, hne⟩ | ⟨ch, error, rfl, hack⟩
    · exact .inl ⟨hsame, fun ch error he => hne ch error (AppEvent.bluetooth.inj he), by simp⟩
    · exact .inr (.inl ⟨ch, error, rfl, hack⟩)
  · rcases bluetooth_cases (hs.withApp _) (gives_load _) trivial hstep with
      ⟨hsame, -⟩ | ⟨ch, error, he, -⟩
    · exact .inl ⟨⟨hsame.reports, hsame.isSaving, hsame.outstanding⟩, by simp, by simp⟩
    · cases he
  · have hsaving : editor.isSaving = s.app.editor.isSaving := by
      rcases GaugeConfigViewControllerViewModel.perform_cases hperform with rfl | ⟨g, m, rfl⟩
      · rfl
      · rfl
    exact .inl ⟨⟨rfl, hsaving, .rfl⟩, by simp, by simp⟩
  · exact .inl ⟨.of_unacknowledged rfl rfl, by simp, fun _ => hc⟩
  · exact .inr (.inr hsave)

/-! ## What is reported -/

/-- The acknowledgement of a save's write carries an error. -/
def FailsSave (s : App) : AppEvent → Prop
  | .bluetooth (.didWriteValueFor ch (some _)) => AcknowledgesSave s ch.uuid
  | _ => False

/-- A save is reported as successful only by an acknowledgement without an error; if the
acknowledgement of its write carries one, it is reported as failed, and can be made again. -/
structure ReportsTruly (s : App) (e : AppEvent) (t : App) : Prop where
  success : t.app.reports = s.app.reports ++ [true] →
    ∃ ch, e = .bluetooth (.didWriteValueFor ch none)
  failure : FailsSave s e →
    t.app.reports = s.app.reports ++ [false] ∧ t.app.editor.configHasChanged = true

theorem reports_ne {reports : List Bool} {b : Bool} : reports ≠ reports ++ [b] := by simp

variable (hread : ∀ c : Characteristics, CBUUID.ofString (describe c.asCBUUID) = c.asCBUUID)

include hread in
theorem reportsTruly_step_iff (hs : Managed describe s) {e : AppEvent}
    (h : step describe s e = some t) : ReportsTruly s e t ↔ ¬ FailsSave s e := by
  rcases saves_cases hs h with ⟨hsame, -⟩ | ⟨ch, error, rfl, hidle, hch, h⟩ | ⟨data, rfl, -, rfl⟩
  · have hne : ∀ b, t.app.reports ≠ s.app.reports ++ [b] := fun b => by
      rw [hsame.reports]
      exact reports_ne
    exact ⟨fun hr hf => hne _ (hr.failure hf).1, fun hf => ⟨fun hr => (hne _ hr).elim, hf.elim⟩⟩
  · obtain ⟨w, closure, hw, hclosure, -, -, happ⟩ := acknowledgement_cases hread hs hidle hch h
    have hsave : AcknowledgesSave s ch.uuid ↔ closure = .saved := by
      simp [AcknowledgesSave, hw, hclosure]
    have hne : t.app.reports ≠ s.app.reports ++ [false] := by
      rw [happ]
      split_ifs
      · simp [Editing.reportSaved]
      · exact reports_ne
    refine ⟨fun hr hf => hne (hr.failure hf).1, fun hf => ⟨fun hr => ?_, fun h => (hf h).elim⟩⟩
    cases error with
    | none => exact ⟨ch, rfl⟩
    | some error =>
      rw [happ, if_neg fun h => hf (hsave.2 h.1)] at hr
      exact (reports_ne hr).elim
  · have hdiscovered := (hs.withApp (saving s.app)).accounted.discovered
    have happ := System.app_write hdiscovered data .layoutConfig .saved
    refine iff_of_true ⟨fun hr => ?_, fun hf => hf.elim⟩ id
    rw [happ] at hr
    exact (reports_ne hr).elim

include hread in
/-- **When saves are reported as what became of them.** Over a run of the editor, the layout
manager and the Bluetooth manager this holds of every event exactly where no write of a save is
acknowledged with an error. -/
theorem saves_reported_truly_iff {es : List AppEvent} {s : App}
    (h : Run (ofPartial (step describe)) { app := {} } es s) :
    (∀ pre e post t u, es = pre ++ e :: post →
      Run (ofPartial (step describe)) { app := {} } pre t → step describe t e = some u →
      ReportsTruly t e u) ↔
    Run (restrict (ofPartial (step describe)) fun s e => ¬ FailsSave s e) { app := {} } es s :=
  h.forall_steps_iff_restrict (deterministic_ofPartial _) (managed_init {})
    (fun _ _ _ hs ht => managed_step hread hs ht)
    fun _ _ _ hs ht => reportsTruly_step_iff hread hs ht

/-- The source's own spelling of the characteristics' UUIDs, in lower case. -/
def spelledInLowerCase (uuid : CBUUID) : String :=
  match Characteristics.allCases.find? fun c => c.asCBUUID = uuid with
  | some c => c.rawValue
  | none => uuid.uuidString

/-- The characteristic of the layout, on the first peripheral. -/
def layoutCharacteristic : CBCharacteristic :=
  ⟨⟨0⟩, 0, Characteristics.layoutConfig.asCBUUID, false⟩

/-- A layout is edited and saved over a connection. -/
def savedOnline : List AppEvent :=
  [.bluetooth (.didDiscover ⟨0⟩), .bluetooth (.didConnect ⟨0⟩),
    .bluetooth (.didDiscoverCharacteristicsFor ⟨0⟩ (some [layoutCharacteristic])),
    .openEditor, .edit (.addItem .rpm 0), .save]

/-- The acknowledgement of its write, with an error. -/
def writeFailed : AppEvent :=
  .bluetooth (.didWriteValueFor layoutCharacteristic (some ⟨"write not permitted"⟩))

theorem not_reportsTruly_of_failed {u : App} (h : AcknowledgesSave t layoutCharacteristic.uuid)
    (hu : u.app.reports ≠ t.app.reports ++ [false]) : ¬ ReportsTruly t writeFailed u :=
  fun hr => hu (hr.failure h).1

/-- The failure is not reported, whether or not acknowledgements are routed back; where they are,
the save is reported as successful. -/
theorem failed_save_reported_falsely :
    (∃ t u, Run (ofPartial (step CBUUID.uuidString)) { app := {} } savedOnline t ∧
      step CBUUID.uuidString t writeFailed = some u ∧ ¬ ReportsTruly t writeFailed u) ∧
    ∃ t u, Run (ofPartial (step spelledInLowerCase)) { app := {} } savedOnline t ∧
      step spelledInLowerCase t writeFailed = some u ∧ ¬ ReportsTruly t writeFailed u ∧
      u.app.reports = [true] := by
  have hrun : ∀ describe : CBUUID → String, ∀ reports : List Bool,
      ((savedOnline.foldlM (step describe) { app := {} }).any fun t =>
        decide (AcknowledgesSave t layoutCharacteristic.uuid ∧ t.app.reports = []) &&
          (step describe t writeFailed).any fun u => decide (u.app.reports = reports)) = true →
      reports ≠ [false] →
      ∃ t u, Run (ofPartial (step describe)) { app := {} } savedOnline t ∧
        step describe t writeFailed = some u ∧ ¬ ReportsTruly t writeFailed u ∧
        u.app.reports = reports := by
    intro describe reports htest hne
    obtain ⟨t, ht, hp⟩ := Run.exists_of_foldlM htest
    obtain ⟨⟨hack, hnone⟩, hstep⟩ := by simpa only [Bool.and_eq_true, decide_eq_true_eq] using hp
    obtain ⟨u, hu, hreports⟩ := by simpa only [Option.any_eq_true, decide_eq_true_eq] using hstep
    refine ⟨t, u, ht, hu, not_reportsTruly_of_failed hack ?_, hreports⟩
    rwa [hreports, hnone]
  refine ⟨?_, hrun spelledInLowerCase [true] (by decide) (by decide)⟩
  obtain ⟨t, u, ht, hu, hr, -⟩ := hrun CBUUID.uuidString [] (by decide) (by decide)
  exact ⟨t, u, ht, hu, hr⟩

theorem saves_reported_truly_iff_savedOnline :
    ∃ t, Run (ofPartial (step CBUUID.uuidString)) { app := {} } savedOnline t ∧
      ((∀ pre e post t u, savedOnline = pre ++ e :: post →
        Run (ofPartial (step CBUUID.uuidString)) { app := {} } pre t →
        step CBUUID.uuidString t e = some u → ReportsTruly t e u) ↔
      Run (restrict (ofPartial (step CBUUID.uuidString)) fun s e => ¬ FailsSave s e)
        { app := {} } savedOnline t) := by
  have htest : ((savedOnline.foldlM (step CBUUID.uuidString) { app := {} }).any
      fun _ => true) = true := by decide
  obtain ⟨t, ht, -⟩ := Run.exists_of_foldlM htest
  exact ⟨t, ht, saves_reported_truly_iff
    (fun c => CBUUID.ofString_uuidString c.asCBUUID) ht⟩

/-! ## The indicator -/

/-- The indicator tells whether a write of a save is outstanding. -/
def IndicatorTrue (s : App) : Prop := s.app.editor.isSaving = true ↔ Outstanding s

/-- What keeps the indicator true. A save with edits finds the layout's characteristic, or another
save outstanding. Where the acknowledgement of a save's write is routed back, it is that of the
only outstanding save, and of one of several where it is not. -/
def KeepsIndicator (describe : CBUUID → String) (s : App) : AppEvent → Prop
  | .save => s.app.editor.configHasChanged = true →
    (s.manager.characteristicMap Characteristics.layoutConfig.asCBUUID).isSome ∨ Outstanding s
  | .bluetooth (.didWriteValueFor ch _) => AcknowledgesSave s ch.uuid →
    (routed describe .layoutConfig = true ↔
      (s.unacknowledgedHandlers .layoutConfig).count .saved = 1)
  | _ => True

theorem outstanding_save (hs : Managed describe s) (data : Option Data) (app : Editing) :
    Outstanding ((s.withApp app).write data .layoutConfig .saved) ↔
      Outstanding s ∨
        (s.manager.characteristicMap Characteristics.layoutConfig.asCBUUID).isSome := by
  have hdiscovered := (hs.withApp app).accounted.discovered
  rw [Outstanding, System.unacknowledgedHandlers_write hdiscovered, List.mem_append]
  refine or_congr .rfl ?_
  by_cases hd : (s.manager.characteristicMap Characteristics.layoutConfig.asCBUUID).isSome
  · exact iff_of_true (by rw [if_pos ⟨rfl, hd⟩]; exact List.mem_singleton_self _) hd
  · exact iff_of_false (by rw [if_neg fun h => hd h.2]; exact List.not_mem_nil) hd

/-- An acknowledgement that is not a save's leaves the outstanding saves as they are. -/
theorem outstanding_acknowledge_of_ne (hs : Managed describe s) {ch : CBCharacteristic}
    {error : Option Bluetooth.Error} {w : PendingWrite Closure} {closure : Closure}
    (hw : s.acknowledgedWrite ch.uuid = some w) (hclosure : w.handler = some closure)
    (hne : closure ≠ .saved) : Outstanding (s.acknowledge ch error) ↔ Outstanding s := by
  by_cases hc : ch.uuid = Characteristics.layoutConfig.asCBUUID
  · obtain ⟨k, hk, hfirst⟩ := System.unacknowledgedHandlers_acknowledge hs.accounted hw error hc
    obtain rfl := Option.some.inj (hk.symm.trans hclosure)
    rw [Outstanding, Outstanding, hfirst, List.mem_cons, or_iff_right hne.symm]
  · rw [Outstanding, System.unacknowledgedHandlers_acknowledge_of_ne hw error hc]
    rfl

include hread in
theorem indicator_acknowledgement_iff (hs : Managed describe s) (hi : IndicatorTrue s)
    {ch : CBCharacteristic} {error : Option Bluetooth.Error} (hidle : s.Idle)
    (hch : (s.acknowledgedWrite ch.uuid).map (·.characteristic) = some ch)
    (h : System.didWriteValueFor describe Closure.invoke s ch error = some t) :
    IndicatorTrue t ↔ KeepsIndicator describe s (.bluetooth (.didWriteValueFor ch error)) := by
  obtain ⟨w, closure, hw, hclosure, hlayout, hunacknowledged, happ⟩ :=
    acknowledgement_cases hread hs hidle hch h
  have hsave : AcknowledgesSave s ch.uuid ↔ closure = .saved := by
    simp [AcknowledgesSave, hw, hclosure]
  have htaken : t.unacknowledgedHandlers .layoutConfig =
      (s.acknowledge ch error).unacknowledgedHandlers .layoutConfig := by
    rw [System.unacknowledgedHandlers, hunacknowledged]
    rfl
  have houtstanding : Outstanding t ↔ Outstanding (s.acknowledge ch error) := by
    rw [Outstanding, htaken]
    rfl
  by_cases hc : closure = .saved
  · obtain ⟨k, hk, hfirst⟩ :=
      System.unacknowledgedHandlers_acknowledge hs.accounted hw error (hlayout hc)
    obtain rfl := Option.some.inj (hk.symm.trans hclosure)
    subst hc
    have hsaving : s.app.editor.isSaving = true := hi.2 (by rw [Outstanding, hfirst]; simp)
    have hkeeps : KeepsIndicator describe s (.bluetooth (.didWriteValueFor ch error)) ↔
        (routed describe .layoutConfig = true ↔ ¬ Outstanding t) := by
      rw [KeepsIndicator, forall_prop_of_true (hsave.2 rfl), houtstanding, Outstanding, hfirst,
        List.count_cons_self, Nat.add_eq_right, List.count_eq_zero]
    rw [hkeeps, IndicatorTrue, happ]
    cases hrouted : routed describe .layoutConfig with
    | true => simp [Editing.reportSaved]
    | false => simp [hsaving]
  · rw [if_neg fun h => hc h.1] at happ
    refine iff_of_true ?_ fun h => (hc (hsave.1 h)).elim
    rw [IndicatorTrue, happ, houtstanding, outstanding_acknowledge_of_ne hs hw hclosure hc]
    exact hi

include hread in
theorem indicator_step_iff (hs : Managed describe s) (hi : IndicatorTrue s) {e : AppEvent}
    (h : step describe s e = some t) : IndicatorTrue t ↔ KeepsIndicator describe s e := by
  rcases saves_cases hs h with ⟨hsame, hne, hclean⟩ | ⟨ch, error, rfl, hidle, hch, h⟩ |
    ⟨data, rfl, hdirty, rfl⟩
  · refine iff_of_true ?_ ?_
    · rw [IndicatorTrue, hsame.isSaving, hsame.outstanding]
      exact hi
    · unfold KeepsIndicator
      split
      · intro hdirty
        rw [hclean rfl] at hdirty
        cases hdirty
      · exact (hne _ _ rfl).elim
      · trivial
  · exact indicator_acknowledgement_iff hread hs hi hidle hch h
  · have happ := System.app_write (hs.withApp (saving s.app)).accounted.discovered data
      .layoutConfig .saved
    have hsaving :
        ((s.withApp (saving s.app)).write data .layoutConfig .saved).app.editor.isSaving =
          true := by
      rw [happ]
      rfl
    rw [IndicatorTrue, hsaving, outstanding_save hs, KeepsIndicator, forall_prop_of_true hdirty,
      or_comm]
    exact ⟨fun h => h.1 rfl, fun h => iff_of_true rfl h⟩

include hread in
/-- **When the saving indicator tells the truth.** Over a run of the editor, the layout manager and
the Bluetooth manager it does so in every state exactly where every event keeps it true. With
acknowledgements that are never routed back, none may be that of the last outstanding save. -/
theorem saving_indicator_iff {es : List AppEvent} {s : App}
    (h : Run (ofPartial (step describe)) { app := {} } es s) :
    (∀ pre post t, es = pre ++ post → Run (ofPartial (step describe)) { app := {} } pre t →
      IndicatorTrue t) ↔
    Run (restrict (ofPartial (step describe)) (KeepsIndicator describe)) { app := {} } es s := by
  refine h.forall_reached_iff_restrict (deterministic_ofPartial _) (managed_init {})
    (fun _ _ _ hs ht => managed_step hread hs ht) ?_
    fun _ _ _ hs hi ht => indicator_step_iff hread hs hi ht
  exact iff_of_false (by simp) List.not_mem_nil

/-- A layout is edited and saved before there is a connection. -/
def savedOffline : List AppEvent := [.openEditor, .edit (.addItem .rpm 0), .save]

/-- The indicator stays on for a save that was never sent, and behind the acknowledgement of one
that was. -/
theorem indicator_on_without_save :
    (∃ t, Run (ofPartial (step CBUUID.uuidString)) { app := {} } savedOffline t ∧
      ¬ IndicatorTrue t) ∧
    ∃ t, Run (ofPartial (step CBUUID.uuidString)) { app := {} }
      (savedOnline ++ [.bluetooth (.didWriteValueFor layoutCharacteristic none)]) t ∧
      ¬ IndicatorTrue t := by
  have hrun : ∀ es : List AppEvent,
      ((es.foldlM (step CBUUID.uuidString) { app := {} }).any fun t =>
        decide (t.app.editor.isSaving = true ∧ ¬ Outstanding t)) = true →
      ∃ t, Run (ofPartial (step CBUUID.uuidString)) { app := {} } es t ∧ ¬ IndicatorTrue t := by
    intro es htest
    obtain ⟨t, ht, hp⟩ := Run.exists_of_foldlM htest
    obtain ⟨hsaving, hnone⟩ := of_decide_eq_true hp
    exact ⟨t, ht, fun hi => hnone (hi.1 hsaving)⟩
  exact ⟨hrun _ (by decide), hrun _ (by decide)⟩

theorem saving_indicator_iff_savedOffline :
    ∃ t, Run (ofPartial (step CBUUID.uuidString)) { app := {} } savedOffline t ∧
      ((∀ pre post t, savedOffline = pre ++ post →
        Run (ofPartial (step CBUUID.uuidString)) { app := {} } pre t → IndicatorTrue t) ↔
      Run (restrict (ofPartial (step CBUUID.uuidString)) (KeepsIndicator CBUUID.uuidString))
        { app := {} } savedOffline t) := by
  have htest : ((savedOffline.foldlM (step CBUUID.uuidString) { app := {} }).any
      fun _ => true) = true := by decide
  obtain ⟨t, ht, -⟩ := Run.exists_of_foldlM htest
  exact ⟨t, ht, saving_indicator_iff (fun c => CBUUID.ofString_uuidString c.asCBUUID) ht⟩

end Rx7.App
