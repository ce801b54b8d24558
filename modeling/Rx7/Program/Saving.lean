import Rx7.Program.Editors

/-!
# Saves of the running program

CoreBluetooth prints UUIDs in upper case, so that no acknowledgement finds the handler of its write.
The handler of a save is thus never called (`not_saved_of_entered`): an editor that began to save
shows its loading screen as long as it is alive, and holds its layout for changed (`saving_stays`).
-/

namespace Rx7.Program

open Bluetooth Transition

/-- The layout of an editor that saves is marked as changed, and the editors that `begun` names save
while they are alive. -/
structure Marked (begun : ℕ → Prop) (parts : Parts) : Prop where
  begun_lt : ∀ number, begun number → number < parts.opened
  alive_lt : ∀ number editor, parts.gaugeEditors number = some editor → number < parts.opened
  changed : ∀ number editor, parts.gaugeEditors number = some editor → editor.isSaving = true →
    editor.configHasChanged = true
  saving : ∀ number editor, parts.gaugeEditors number = some editor → begun number →
    editor.isSaving = true

section

variable {uikit : UIKit} {describe : CBUUID → String} {s t u : Program} {e : Event}
  {events later : List Event} {event : Bluetooth.Event Closure} {parts parts' : Parts}
  {begun : ℕ → Prop} {number : ℕ} {editor editor' : GaugeConfigViewControllerViewModel}

theorem Marked.congr (h : Marked begun parts) (heditors : parts'.gaugeEditors = parts.gaugeEditors)
    (hopened : parts'.opened = parts.opened) : Marked begun parts' := by
  refine ⟨?_, ?_, ?_, ?_⟩
  · rw [hopened]
    exact h.begun_lt
  · rw [heditors, hopened]
    exact h.alive_lt
  · rw [heditors]
    exact h.changed
  · rw [heditors]
    exact h.saving

/-- One editor is changed, opened or released. -/
theorem Marked.update (h : Marked begun parts) {changed : Option GaugeConfigViewControllerViewModel}
    (heditors : parts'.gaugeEditors = Function.update parts.gaugeEditors number changed)
    (hopened : parts.opened ≤ parts'.opened)
    (hlt : ∀ editor, changed = some editor → number < parts'.opened)
    (hchanged : ∀ editor, changed = some editor → editor.isSaving = true →
      editor.configHasChanged = true)
    (hsaving : ∀ editor, changed = some editor → begun number → editor.isSaving = true) :
    Marked begun parts' := by
  have hcases : ∀ m editor, parts'.gaugeEditors m = some editor →
      m = number ∧ changed = some editor ∨ parts.gaugeEditors m = some editor := by
    intro m editor hm
    rw [heditors] at hm
    by_cases hne : m = number
    · rw [hne, Function.update_self] at hm
      exact .inl ⟨hne, hm⟩
    · rw [Function.update_of_ne hne] at hm
      exact .inr hm
  refine ⟨fun m hm => (h.begun_lt m hm).trans_le hopened, fun m editor hm => ?_,
    fun m editor hm => ?_, fun m editor hm => ?_⟩
  · rcases hcases m editor hm with ⟨rfl, hm⟩ | hm
    · exact hlt editor hm
    · exact (h.alive_lt m editor hm).trans_le hopened
  · rcases hcases m editor hm with ⟨rfl, hm⟩ | hm
    · exact hchanged editor hm
    · exact h.changed m editor hm
  · rcases hcases m editor hm with ⟨rfl, hm⟩ | hm
    · exact hsaving editor hm
    · exact h.saving m editor hm

/-- No closure but the handler of a save ends a save. -/
theorem Marked.invoke (h : Marked begun parts) {k : Closure} {value : Option Data}
    (hk : ∀ m, k ≠ .saved m) (hinvoke : k.invoke value parts = some parts') :
    Marked begun parts' := by
  cases k with
  | saved m => exact absurd rfl (hk m)
  | engineData =>
    obtain ⟨dashboard, -, rfl⟩ := Option.map_eq_some_iff.1 hinvoke
    exact h.congr rfl rfl
  | initializeThresholds =>
    cases value with
    | none => exact Option.some.inj hinvoke ▸ h
    | some data =>
      obtain rfl := Option.some.inj hinvoke
      exact h.congr rfl rfl
  | noOp => exact Option.some.inj hinvoke ▸ h
  | load m =>
    cases value with
    | none => exact Option.some.inj hinvoke ▸ h
    | some data =>
      simp only [Closure.invoke] at hinvoke
      cases hparse : parts.layout.parseResponse data with
      | error trap =>
        rw [hparse] at hinvoke
        cases hinvoke
      | ok layout =>
        rw [hparse] at hinvoke
        obtain rfl := Option.some.inj hinvoke
        refine h.update rfl le_rfl (fun editor heditor => ?_) (fun editor heditor => ?_)
          fun editor heditor => ?_
        · obtain ⟨loading, halive, rfl⟩ := Option.map_eq_some_iff.1 heditor
          exact h.alive_lt m loading halive
        · obtain ⟨loading, halive, rfl⟩ := Option.map_eq_some_iff.1 heditor
          exact h.changed m loading halive
        · obtain ⟨loading, halive, rfl⟩ := Option.map_eq_some_iff.1 heditor
          exact h.saving m loading halive

/-- What a user asks for ends no save. -/
theorem Marked.perform (h : Marked begun parts) {input : Input} {call : Option (Call Closure)}
    (hp : Performs uikit parts input parts' call) : Marked begun parts' := by
  cases hp with
  | noCell cell hrow => exact h
  | listDidAppear => exact h
  | noItem hrow => exact h
  | savesNothing heditor hc => exact h
  | shutdown => exact h
  | display hpage hdashboard => exact h.congr rfl rfl
  | cell cell hrow => exact h.congr rfl rfl
  | noThreshold hrow hthreshold => exact h.congr rfl rfl
  | opensPage hrow hthreshold => exact h.congr rfl rfl
  | pageWillAppear hpage happear => exact h.congr rfl rfl
  | editsThreshold hevent hpage hedit => exact h.congr rfl rfl
  | reloadsTable heditor => exact h.congr rfl rfl
  | opensEditor =>
    refine h.update rfl (Nat.le_succ _) (fun _ _ => Nat.lt_succ_self _) (fun editor heditor => ?_)
      fun editor heditor hbegun => ?_
    · cases heditor
      exact fun hsaving => absurd hsaving Bool.false_ne_true
    · exact absurd (h.begun_lt _ hbegun) (lt_irrefl _)
  | @editsGauges m edit editor editor' heditor hedit =>
    have hchange : editor'.isSaving = editor.isSaving ∧
        (editor.configHasChanged = true → editor'.configHasChanged = true) := by
      rcases GaugeConfigViewControllerViewModel.perform_cases
        (GaugeConfigViewController.perform_eq_some hedit) with rfl | ⟨_, _, rfl⟩
      · exact ⟨rfl, id⟩
      · exact ⟨rfl, fun _ => rfl⟩
    refine h.update rfl le_rfl (fun _ _ => h.alive_lt m editor heditor) (fun _ heq hsaving => ?_)
      fun _ heq hbegun => ?_
    · obtain rfl := Option.some.inj heq
      exact hchange.2 (h.changed m editor heditor (hchange.1 ▸ hsaving))
    · obtain rfl := Option.some.inj heq
      exact hchange.1.trans (h.saving m editor heditor hbegun)
  | @saves m editor heditor hc =>
    refine h.update rfl le_rfl (fun _ _ => h.alive_lt m editor heditor) (fun _ heq _ => ?_)
      fun _ heq _ => ?_
    · obtain rfl := Option.some.inj heq
      exact hc
    · obtain rfl := Option.some.inj heq
      rfl
  | releasesEditor m =>
    exact h.update rfl le_rfl (fun _ heq => by cases heq) (fun _ heq => by cases heq)
      fun _ heq => by cases heq

theorem not_saved_of_readBy {c : Characteristics} {k : Closure} (h : ReadBy c k) (m : ℕ) :
    k ≠ .saved m := by
  rintro rfl
  cases h

/-- An acknowledgement is that of a write of the program. -/
theorem exists_asCBUUID_of_acknowledged (hs : Settled s) {ch : CBCharacteristic}
    {error : Option Error}
    (h : System.step describe Closure.invoke s (.didWriteValueFor ch error) = some u) :
    ∃ c : Characteristics, ch.uuid = c.asCBUUID := by
  obtain ⟨-, hwrite⟩ : s.Enabled (.didWriteValueFor ch error) := (System.react_of_step h).1
  obtain ⟨w, hw, rfl⟩ := Option.map_eq_some_iff.1 hwrite
  obtain ⟨c, -, hc, -⟩ := hs.accounted.handled w (List.mem_of_find?_eq_some hw)
  exact ⟨c, hc⟩

/-- No event of Bluetooth calls the handler of a save. -/
theorem not_saved_of_entered
    (hdescribe : ∀ c : Characteristics, describe c.asCBUUID = c.asCBUUID.uuidString)
    (hs : Settled s) (hcall : isCall event = false)
    (hu : System.step describe Closure.invoke s event = some u) {k : Closure}
    {value : Option Data} (h : s.entered describe event = some (k, value)) (m : ℕ) :
    k ≠ .saved m := by
  by_cases hevent : ∃ ch value, event = .didUpdateValueFor ch value none ∧
      System.updatedCharacteristic ch.uuid = some .engineData
  · obtain ⟨ch, v, rfl, hch⟩ := hevent
    rw [entered_engineData hs hch] at h
    obtain ⟨rfl, -⟩ := Prod.ext_iff.1 (Option.some.inj h)
    simp
  · rcases entered_cases hs hcall (fun ch v he hch => hevent ⟨ch, v, he, hch⟩) h with
      ⟨c, hk⟩ | ⟨ch, error, c, -, rfl, hc, -⟩
    · exact not_saved_of_readBy hk m
    · obtain ⟨c', hc'⟩ := exists_asCBUUID_of_acknowledged hs hu
      rw [hc', hdescribe, getCharacteristicByUUID_uuidString] at hc
      cases hc

/-- Nor does a call that an input ends with. -/
theorem Marked.call {call : Call Closure} (hcall : Asked call) (hm : Marked begun s.app)
    (h : System.step describe Closure.invoke s (.call call) = some u) :
    Marked begun u.app := by
  have happ := System.app_of_step h
  cases hentered : s.entered describe (.call call) with
  | none =>
    rw [hentered] at happ
    exact Option.some.inj happ ▸ hm
  | some called =>
    obtain ⟨c, hk⟩ := readBy_of_asked hcall hentered
    rw [hentered] at happ
    exact hm.invoke (not_saved_of_readBy hk) happ

theorem marked_step
    (hdescribe : ∀ c : Characteristics, describe c.asCBUUID = c.asCBUUID.uuidString)
    (hs : Settled s) (hm : Marked begun s.app) (h : step uikit describe s e = some t) :
    Marked begun t.app := by
  rcases step_cases h with ⟨event, u, -, hcall, hu, rfl⟩ | ⟨input, parts, -, -, hperform, rfl⟩ |
    ⟨input, parts, call, -, -, hperform, h⟩
  · obtain ⟨dashboard, ht⟩ := observeState_eq u event
    have happ := System.app_of_step hu
    have hbehind : Marked begun u.app := by
      cases hentered : s.entered describe event with
      | none =>
        rw [hentered] at happ
        exact Option.some.inj happ ▸ hm
      | some called =>
        rw [hentered] at happ
        exact hm.invoke (not_saved_of_entered hdescribe hs hcall hu hentered) happ
    rw [ht]
    exact hbehind.congr rfl rfl
  · exact hm.perform (perform_cases hperform)
  · exact Marked.call (asked_of_perform hperform) (hm.perform (perform_cases hperform)) h

theorem marked_run
    (hdescribe : ∀ c : Characteristics, describe c.asCBUUID = c.asCBUUID.uuidString)
    (h : Run (ofPartial (step uikit describe)) s events t) (hs : Settled s)
    (hm : Marked begun s.app) : Marked begun t.app :=
  (h.invariant (I := fun s => Settled s ∧ Marked begun s.app) ⟨hs, hm⟩
    fun _ _ _ hs ht => ⟨settled_step hs.1 ht, marked_step hdescribe hs.1 hs.2 ht⟩).2

/-- **A save never ends.** Where CoreBluetooth prints UUIDs in upper case: in every run of the
program, an editor that began to save is still saving at any later time at which it is alive, and
its layout still marked as changed, however often the writes of layouts were acknowledged. -/
theorem saving_stays
    (hdescribe : ∀ c : Characteristics, describe c.asCBUUID = c.asCBUUID.uuidString)
    (h : Run (ofPartial (step uikit describe)) launch events s)
    (halive : s.app.gaugeEditors number = some editor) (hsaving : editor.isSaving = true)
    (hlater : Run (ofPartial (step uikit describe)) s later t)
    (halive' : t.app.gaugeEditors number = some editor') :
    editor'.isSaving = true ∧ editor'.configHasChanged = true := by
  have hlaunch : Marked (fun _ => False) launch.app :=
    ⟨fun _ h => h.elim, fun _ _ h => (by cases h), fun _ _ h => (by cases h), fun _ _ _ h => h.elim⟩
  have hs := marked_run hdescribe h settled_launch hlaunch
  have hbegun : Marked (fun m => m = number) s.app := by
    refine ⟨fun m hm => ?_, hs.alive_lt, hs.changed, fun m editor' hm heq => ?_⟩
    · exact hm ▸ hs.alive_lt number editor halive
    · subst heq
      obtain rfl := Option.some.inj (halive.symm.trans hm)
      exact hsaving
  have ht := marked_run hdescribe hlater (settled_run h) hbegun
  have hsaving' := ht.saving number editor' halive' rfl
  exact ⟨hsaving', ht.changed number editor' halive' hsaving'⟩

/-- A gauge is added and the layout saved. -/
def savedLayout (peripheral : CBPeripheral) (characteristic : CBCharacteristic) : List Event :=
  [.bluetooth (.didDiscover peripheral), .bluetooth (.didConnect peripheral),
    .bluetooth (.didDiscoverCharacteristicsFor peripheral (some [characteristic])),
    .input .openGaugeEditor, .input (.editGauges 0 (.addItem .boost ⟨0, 0⟩)),
    .input (.saveGauges 0)]

/-- The write of the layout is acknowledged. -/
theorem saving_stays_savedLayout :
    let peripheral : CBPeripheral := ⟨0⟩
    let characteristic : CBCharacteristic :=
      ⟨peripheral, 0, Characteristics.layoutConfig.asCBUUID, false⟩
    ∃ s t editor editor',
      Run (ofPartial (step .clamping CBUUID.uuidString)) launch
        (savedLayout peripheral characteristic) s ∧
      s.app.gaugeEditors 0 = some editor ∧
      Run (ofPartial (step .clamping CBUUID.uuidString)) s
        [.bluetooth (.didWriteValueFor characteristic none)] t ∧
      t.app.gaugeEditors 0 = some editor' ∧
      editor'.isSaving = true ∧ editor'.configHasChanged = true := by
  intro peripheral characteristic
  obtain ⟨s, editor, hrun, halive, hsaving, t, editor', hlater, halive'⟩ : ∃ s editor,
      Run (ofPartial (step .clamping CBUUID.uuidString)) launch
        (savedLayout peripheral characteristic) s ∧
      s.app.gaugeEditors 0 = some editor ∧ editor.isSaving = true ∧ ∃ t editor',
        Run (ofPartial (step .clamping CBUUID.uuidString)) s
          [.bluetooth (.didWriteValueFor characteristic none)] t ∧
        t.app.gaugeEditors 0 = some editor' :=
    ⟨_, _, Run.of_foldlM rfl, rfl, rfl, _, _, Run.of_foldlM rfl, rfl⟩
  exact ⟨s, t, editor, editor', hrun, halive, hlater, halive',
    saving_stays (fun _ => rfl) hrun halive hsaving hlater halive'⟩

end

end Rx7.Program
