import Rx7.Editor.Layout
import Rx7.Foundations.Transition

/-!
# Sessions of the gauge editor

A session is a view model with the completions it waits for: that of the load which `init` begins,
at any moment or never, and those of the saves. Beside it, the session records what was done:
the layout that the load delivered, the edits that the user asked for before the load and later,
and the lists last delivered or handed to `setGauges` (`marked`).

* `save_hands_edited_layout_iff`: `save` hands over the delivered layout with all edits applied
  exactly where none of them came before the load.
* `dirtyFlag_sound_iff`: without unsaved edits the lists are the marked ones exactly where each
  completion of a save finds them so.
-/

namespace Rx7

open Transition

open Sections (Edit replay)

structure EditorSession where
  editor : GaugeConfigViewControllerViewModel := {}
  /-- The saves that have not completed. -/
  inFlight : ℕ := 0
  delivered : Option Layout := none
  blindEdits : List (Edit LayoutSection EngineDataItem) := []
  laterEdits : List (Edit LayoutSection EngineDataItem) := []
  marked : Option Layout := none

namespace EditorSession

inductive Event
  | edit (edit : LayoutEdit)
  | save
  | saveCompleted (wasSuccessful : Bool)
  | loadCompleted (gauges monitors : List EngineDataItem)

/-- The edit of the table that an event asks for. -/
def Event.asked : Event → Option (Edit LayoutSection EngineDataItem)
  | .edit e => e.asked
  | _ => none

/-- Record an edit that was asked for. -/
def recordEdit (s : EditorSession) (edit : LayoutEdit) : EditorSession :=
  if s.editor.hasLoaded then { s with laterEdits := s.laterEdits ++ edit.asked.toList }
  else { s with blindEdits := s.blindEdits ++ edit.asked.toList }

/-- One event of a session. An edit can trap; the load completes once. -/
def step (s : EditorSession) : Event → Option EditorSession
  | .edit edit =>
    match s.editor.perform edit with
    | .ok editor => some { s.recordEdit edit with editor }
    | .error _ => none
  | .save =>
    match s.editor.save with
    | (editor, none) => some { s with editor }
    | (editor, some (gauges, monitors)) => some { s with
        editor
        inFlight := s.inFlight + 1
        marked := some (.of gauges monitors) }
  | .saveCompleted wasSuccessful =>
    if 0 < s.inFlight then some { s with
      editor := s.editor.saveCompleted wasSuccessful
      inFlight := s.inFlight - 1 }
    else none
  | .loadCompleted gauges monitors =>
    if s.editor.hasLoaded then none
    else some { s with
      editor := s.editor.loadCompleted gauges monitors
      delivered := some (.of gauges monitors)
      marked := some (.of gauges monitors) }

/-! ## What a step does -/

section

variable {s t : EditorSession} {edit : LayoutEdit}

theorem step_edit (h : s.step (.edit edit) = some t) :
    ∃ editor, s.editor.perform edit = .ok editor ∧ t = { s.recordEdit edit with editor } := by
  simp only [step] at h
  split at h
  · rename_i editor heditor
    exact ⟨editor, heditor, (Option.some.inj h).symm⟩
  · cases h

theorem step_save (h : s.step .save = some t) :
    (s.editor.configHasChanged = false ∧ t = s) ∨
    (s.editor.configHasChanged = true ∧ t = { s with
      editor := { s.editor with isSaving := true }
      inFlight := s.inFlight + 1
      marked := some s.editor.layout }) := by
  cases hc : s.editor.configHasChanged with
  | false =>
    simp only [step, GaugeConfigViewControllerViewModel.save_of_not_changed hc] at h
    exact .inl ⟨rfl, (Option.some.inj h).symm⟩
  | true =>
    simp only [step, GaugeConfigViewControllerViewModel.save_of_changed hc] at h
    exact .inr ⟨rfl, (Option.some.inj h).symm⟩

theorem step_saveCompleted {wasSuccessful : Bool}
    (h : s.step (.saveCompleted wasSuccessful) = some t) :
    0 < s.inFlight ∧ t = { s with
      editor := s.editor.saveCompleted wasSuccessful
      inFlight := s.inFlight - 1 } := by
  simp only [step] at h
  split_ifs at h with hpos
  exact ⟨hpos, (Option.some.inj h).symm⟩

theorem step_loadCompleted {gauges monitors : List EngineDataItem}
    (h : s.step (.loadCompleted gauges monitors) = some t) :
    s.editor.hasLoaded = false ∧ t = { s with
      editor := s.editor.loadCompleted gauges monitors
      delivered := some (.of gauges monitors)
      marked := some (.of gauges monitors) } := by
  simp only [step] at h
  split_ifs at h with hl
  exact ⟨by simpa using hl, (Option.some.inj h).symm⟩

end

/-! ## The handed-over lists -/

/-- An edit that adds or moves an item, in a section of the table. -/
def Event.AddsOrMoves : Event → Prop
  | .edit e => ∃ asked, e.asked = some asked ∧ asked.isRemove = false
  | _ => True

/-- What a session of additions and moves keeps. -/
structure Tracked (s : EditorSession) : Prop where
  delivered_isSome : s.delivered.isSome = s.editor.hasLoaded
  blind : ∃ layout, replay s.blindEdits (fun _ => []) = some layout ∧
    (s.delivered = none → layout = s.editor.layout)
  later : ∀ delivered ∈ s.delivered, replay s.laterEdits delivered = some s.editor.layout
  changed : s.editor.configHasChanged = true → s.delivered = none → s.blindEdits ≠ []
  laterEdits_eq : s.delivered = none → s.laterEdits = []
  isRemove_blind : ∀ edit ∈ s.blindEdits, edit.isRemove = false
  isRemove_later : ∀ edit ∈ s.laterEdits, edit.isRemove = false

theorem tracked_init : Tracked {} :=
  ⟨rfl, ⟨_, rfl, fun _ => Layout.of_nil.symm⟩, by simp, by simp, fun _ => rfl, by simp, by simp⟩

theorem Tracked.delivered_eq_none {s : EditorSession} (hs : s.Tracked)
    (hl : s.editor.hasLoaded = false) : s.delivered = none := by
  have hsome := hs.delivered_isSome
  cases hd : s.delivered with
  | none => rfl
  | some delivered => simp [hd, hl] at hsome

theorem recordEdit_of_loaded {s : EditorSession} {edit : LayoutEdit}
    (h : s.editor.hasLoaded = true) :
    s.recordEdit edit = { s with laterEdits := s.laterEdits ++ edit.asked.toList } := by
  rw [recordEdit, if_pos h]

theorem recordEdit_of_not_loaded {s : EditorSession} {edit : LayoutEdit}
    (h : s.editor.hasLoaded = false) :
    s.recordEdit edit = { s with blindEdits := s.blindEdits ++ edit.asked.toList } := by
  rw [recordEdit, if_neg (by simp [h])]

theorem tracked_edit {s : EditorSession} {edit : LayoutEdit}
    {asked : Edit LayoutSection EngineDataItem} {editor : GaugeConfigViewControllerViewModel}
    (hs : s.Tracked) (hasked : edit.asked = some asked) (hremove : asked.isRemove = false)
    (hperform : s.editor.perform edit = .ok editor) :
    Tracked { s.recordEdit edit with editor } := by
  have hrefines := GaugeConfigViewControllerViewModel.perform_refines hasked hremove hperform
  have hloaded : editor.hasLoaded = s.editor.hasLoaded := by
    rcases GaugeConfigViewControllerViewModel.perform_cases hperform with rfl | ⟨g, m, rfl⟩ <;> rfl
  have hconcat : ∀ edits : List (Edit LayoutSection EngineDataItem),
      (∀ e ∈ edits, e.isRemove = false) → ∀ e ∈ edits ++ [asked], e.isRemove = false :=
    fun edits h e he => (List.mem_append.1 he).elim (h e) fun he =>
      List.mem_singleton.1 he ▸ hremove
  cases hl : s.editor.hasLoaded with
  | false =>
    have hnone : s.delivered = none := hs.delivered_eq_none hl
    obtain ⟨layout, hblind, heq⟩ := hs.blind
    rw [recordEdit_of_not_loaded hl, hasked]
    refine ⟨hs.delivered_isSome.trans hloaded.symm, ⟨_, ?_, fun _ => rfl⟩, ?_, ?_,
      hs.laterEdits_eq, hconcat _ hs.isRemove_blind, hs.isRemove_later⟩
    · exact Sections.replay_concat hblind (heq hnone ▸ hrefines)
    · intro delivered hd
      rw [hnone] at hd
      cases hd
    · simp
  | true =>
    have hsome : s.delivered ≠ none := fun hn => by
      have := hs.delivered_isSome
      simp [hn, hl] at this
    obtain ⟨layout, hblind, heq⟩ := hs.blind
    rw [recordEdit_of_loaded hl, hasked]
    refine ⟨hs.delivered_isSome.trans hloaded.symm, ⟨layout, hblind, fun hn => (hsome hn).elim⟩,
      fun delivered hd => ?_, fun _ hn => (hsome hn).elim, fun hn => (hsome hn).elim,
      hs.isRemove_blind, hconcat _ hs.isRemove_later⟩
    exact Sections.replay_concat (hs.later delivered hd) hrefines

theorem tracked_step {s t : EditorSession} {e : Event} (hs : s.Tracked) (he : e.AddsOrMoves)
    (h : s.step e = some t) : t.Tracked := by
  cases e with
  | edit edit =>
    obtain ⟨editor, hperform, rfl⟩ := step_edit h
    obtain ⟨asked, hasked, hremove⟩ := he
    exact tracked_edit hs hasked hremove hperform
  | save =>
    rcases step_save h with ⟨-, rfl⟩ | ⟨-, rfl⟩
    · exact hs
    · exact ⟨hs.delivered_isSome, hs.blind, hs.later, hs.changed, hs.laterEdits_eq,
        hs.isRemove_blind, hs.isRemove_later⟩
  | saveCompleted wasSuccessful =>
    obtain ⟨-, rfl⟩ := step_saveCompleted h
    have hlayout : (s.editor.saveCompleted wasSuccessful).layout = s.editor.layout := by
      simp [GaugeConfigViewControllerViewModel.layout]
    refine ⟨by simpa using hs.delivered_isSome, ?_, ?_, by simp, hs.laterEdits_eq,
      hs.isRemove_blind, hs.isRemove_later⟩
    · simpa only [hlayout] using hs.blind
    · simpa only [hlayout] using hs.later
  | loadCompleted gauges monitors =>
    obtain ⟨hl, rfl⟩ := step_loadCompleted h
    have hnone : s.delivered = none := hs.delivered_eq_none hl
    obtain ⟨layout, hblind, -⟩ := hs.blind
    refine ⟨rfl, ⟨layout, hblind, by simp⟩, fun delivered hd => ?_, by simp, by simp,
      hs.isRemove_blind, hs.isRemove_later⟩
    obtain rfl := Option.some.inj hd
    change replay s.laterEdits _ = _
    rw [hs.laterEdits_eq hnone]
    rfl

theorem edits_step {s t : EditorSession} {e : Event} (hs : s.Tracked) (h : s.step e = some t) :
    t.blindEdits ++ t.laterEdits = s.blindEdits ++ s.laterEdits ++ e.asked.toList := by
  cases e with
  | edit edit =>
    obtain ⟨editor, hperform, rfl⟩ := step_edit h
    cases hl : s.editor.hasLoaded with
    | false =>
      rw [recordEdit_of_not_loaded hl]
      simp [Event.asked, hs.laterEdits_eq (hs.delivered_eq_none hl)]
    | true =>
      rw [recordEdit_of_loaded hl]
      simp [Event.asked]
  | save =>
    rcases step_save h with ⟨-, rfl⟩ | ⟨-, rfl⟩ <;> simp [Event.asked]
  | saveCompleted wasSuccessful =>
    obtain ⟨-, rfl⟩ := step_saveCompleted h
    simp [Event.asked]
  | loadCompleted gauges monitors =>
    obtain ⟨-, rfl⟩ := step_loadCompleted h
    simp [Event.asked]

/-- Over a run of additions and moves, the session is tracked, and records all edits asked for. -/
theorem tracked_run {s : EditorSession} {es : List Event} (h : Run (ofPartial step) {} es s)
    (hes : ∀ e ∈ es, e.AddsOrMoves) :
    s.Tracked ∧ s.blindEdits ++ s.laterEdits = es.filterMap Event.asked := by
  induction h with
  | nil => exact ⟨tracked_init, rfl⟩
  | @snoc es e s t _ hs ih =>
    obtain ⟨hs', hedits⟩ := ih fun e he => hes e (List.mem_append_left _ he)
    refine ⟨tracked_step hs' (hes e (by simp)) hs, ?_⟩
    rw [edits_step hs' hs, hedits, List.filterMap_append]
    cases he : e.asked <;> simp [he]

/-- **When a save hands over the delivered layout with all edits applied.** In every state of a
session of additions and moves, this holds of the lists that `save` hands over exactly where no
edit came before the load, if there is anything to save. -/
theorem save_hands_edited_layout_iff {s : EditorSession} {es : List Event}
    (h : Run (ofPartial step) {} es s) (hes : ∀ e ∈ es, e.AddsOrMoves) :
    (∀ handed ∈ s.editor.save.2, ∃ delivered ∈ s.delivered,
      replay (es.filterMap Event.asked) delivered = some (Layout.of handed.1 handed.2)) ↔
    (s.editor.configHasChanged = true → s.blindEdits = []) := by
  obtain ⟨hs, hedits⟩ := tracked_run h hes
  rw [← hedits]
  cases hc : s.editor.configHasChanged with
  | false => simp [GaugeConfigViewControllerViewModel.save_of_not_changed hc]
  | true =>
    have hsave : (∀ handed ∈ s.editor.save.2, ∃ delivered ∈ s.delivered,
        replay (s.blindEdits ++ s.laterEdits) delivered = some (Layout.of handed.1 handed.2)) ↔
        ∃ delivered ∈ s.delivered,
          replay (s.blindEdits ++ s.laterEdits) delivered = some s.editor.layout := by
      rw [GaugeConfigViewControllerViewModel.save_of_changed hc]
      exact ⟨fun h => h _ rfl, fun h handed he => Option.some.inj he ▸ h⟩
    rw [hsave, forall_prop_of_true rfl]
    refine ⟨fun ⟨delivered, hd, hreplay⟩ => ?_, fun hblind => ?_⟩
    · by_contra hne
      obtain ⟨layout, hlayout, -⟩ := hs.blind
      exact Sections.replay_append_ne hne hs.isRemove_blind hs.isRemove_later hlayout
        (hs.later delivered hd) hreplay
    · -- Without an edit before the load, there is something to save only behind it.
      obtain ⟨delivered, hd⟩ := Option.ne_none_iff_exists'.1 fun hn => hs.changed hc hn hblind
      exact ⟨delivered, hd, by rw [hblind, List.nil_append, hs.later delivered hd]⟩

/-- An item is added, and then the load completes. -/
def addThenLoad : List Event :=
  [.edit (.addItem .rpm 0), .loadCompleted [.speed] []]

/-- A save before the load hands over an added item alone; one behind it leaves the item out. -/
theorem save_misses_edited_layout :
    (∃ s, Run (ofPartial step) {} (addThenLoad.take 1) s ∧
      ¬ ∀ handed ∈ s.editor.save.2, ∃ delivered ∈ s.delivered,
        replay ((addThenLoad.take 1).filterMap Event.asked) delivered =
          some (Layout.of handed.1 handed.2)) ∧
    ∃ s, Run (ofPartial step) {} addThenLoad s ∧
      ¬ ∀ handed ∈ s.editor.save.2, ∃ delivered ∈ s.delivered,
        replay (addThenLoad.filterMap Event.asked) delivered =
          some (Layout.of handed.1 handed.2) := by
  refine ⟨⟨_, Run.of_foldlM rfl, fun h => ?_⟩, _, Run.of_foldlM rfl, fun h => ?_⟩
  · obtain ⟨delivered, hd, -⟩ := h _ rfl
    cases hd
  · obtain ⟨delivered, hd, hreplay⟩ := h _ rfl
    cases hd
    exact absurd (congrArg (Option.map fun l => l .gauges) hreplay) (by decide)

theorem save_hands_edited_layout_iff_addThenLoad :
    ∃ s, Run (ofPartial step) {} addThenLoad s ∧
      ((∀ handed ∈ s.editor.save.2, ∃ delivered ∈ s.delivered,
        replay (addThenLoad.filterMap Event.asked) delivered =
          some (Layout.of handed.1 handed.2)) ↔
      (s.editor.configHasChanged = true → s.blindEdits = [])) := by
  have hes : ∀ e ∈ addThenLoad, e.AddsOrMoves := by
    simp [addThenLoad, Event.AddsOrMoves, LayoutEdit.asked, LayoutSection.ofIndex, Edit.isRemove]
  have hrun : Run (ofPartial step) {} addThenLoad _ := Run.of_foldlM rfl
  exact ⟨_, hrun, save_hands_edited_layout_iff hrun hes⟩

/-! ## The dirty flag -/

/-- Once loaded, and without unsaved edits, the lists are those last delivered or handed over. -/
def Clean (s : EditorSession) : Prop :=
  s.editor.hasLoaded = true → s.editor.configHasChanged = false →
    s.marked = some s.editor.layout

/-- A save that completes after the load finds the lists as they were last delivered or handed
over: the edits since then, if any, cancel out. -/
def CompletesUnedited (s : EditorSession) : Event → Prop
  | .saveCompleted _ => s.editor.hasLoaded = true → s.marked = some s.editor.layout
  | _ => True

theorem marked_recordEdit (s : EditorSession) (edit : LayoutEdit) :
    (s.recordEdit edit).marked = s.marked := by
  unfold recordEdit
  split_ifs <;> rfl

/-- A step keeps a session clean exactly where it completes no save of edited lists. -/
theorem clean_step_iff {s t : EditorSession} {e : Event} (hs : s.Clean) (h : s.step e = some t) :
    t.Clean ↔ s.CompletesUnedited e := by
  cases e with
  | edit edit =>
    obtain ⟨editor, hperform, rfl⟩ := step_edit h
    refine iff_of_true (fun hl hc => ?_) trivial
    rcases GaugeConfigViewControllerViewModel.perform_cases hperform with rfl | ⟨g, m, rfl⟩
    · exact (marked_recordEdit s edit).trans (hs hl hc)
    · cases hc
  | save =>
    refine iff_of_true ?_ trivial
    rcases step_save h with ⟨-, rfl⟩ | ⟨-, rfl⟩
    · exact hs
    · exact fun _ _ => rfl
  | saveCompleted wasSuccessful =>
    obtain ⟨-, rfl⟩ := step_saveCompleted h
    simp [Clean, CompletesUnedited, GaugeConfigViewControllerViewModel.layout]
  | loadCompleted gauges monitors =>
    obtain ⟨-, rfl⟩ := step_loadCompleted h
    exact iff_of_true (fun _ _ => rfl) trivial

/-- **When the dirty flag is sound.** A session stays clean exactly where each save that completes
after the load finds the lists as they were last delivered or handed over. -/
theorem dirtyFlag_sound_iff {s : EditorSession} {es : List Event}
    (h : Run (ofPartial step) {} es s) :
    (∀ pre post t, es = pre ++ post → Run (ofPartial step) {} pre t → t.Clean) ↔
      Run (restrict (ofPartial step) CompletesUnedited) {} es s :=
  h.forall_reached_iff_restrict (deterministic_ofPartial _) (I := fun _ => True) trivial
    (fun _ _ _ _ _ => trivial) (by simp [Clean]) fun _ _ _ _ hs ht => clean_step_iff hs ht

/-- An item is added while the save of another one is going on. -/
def addWhileSaving : List Event :=
  [.loadCompleted [.speed] [], .edit (.addItem .rpm 0), .save, .edit (.addItem .waterTemp 1),
    .saveCompleted true]

/-- The second item counts as saved when the first save completes. -/
theorem dirtyFlag_cleared_while_edited :
    ∃ s, Run (ofPartial step) {} addWhileSaving s ∧ s.editor.hasLoaded = true ∧
      s.editor.configHasChanged = false ∧ s.marked ≠ some s.editor.layout := by
  refine ⟨_, Run.of_foldlM rfl, rfl, rfl, fun h => ?_⟩
  exact absurd (congrArg (Option.map fun l => l .monitors) h) (by decide)

theorem dirtyFlag_sound_iff_addWhileSaving :
    ∃ s, Run (ofPartial step) {} addWhileSaving s ∧
      ((∀ pre post t, addWhileSaving = pre ++ post → Run (ofPartial step) {} pre t → t.Clean) ↔
        Run (restrict (ofPartial step) CompletesUnedited) {} addWhileSaving s) := by
  have hrun : Run (ofPartial step) {} addWhileSaving _ := Run.of_foldlM rfl
  exact ⟨_, hrun, dirtyFlag_sound_iff hrun⟩

end EditorSession

end Rx7
