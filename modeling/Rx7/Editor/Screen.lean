import Rx7.Editor.Session
import Rx7.Editor.Table
import Rx7.Foundations.Deferred

/-!
# The page of the gauge editor

`GaugeConfigViewController` observes its view model: each value that `hasLoaded`, `isSaving` and
`configHasChanged` are sent posts a block to the main queue, and so does the item that is picked on
the page of items (`Block`). The table knows the rows of its last count (`rows`). It counts again
when it is reloaded, and behind each change that it is told of, where it raises an exception if the
count is not the one it expects (`updateTable`).

* `buttons_shown`: with nothing posted, the loading screen and the save button say what the view
  model does.
* `run_addItem_eq_none_iff`: an item that was picked raises exactly where the layout was loaded
  behind the table's last count, or has too few rows for the one that was selected.
  `raises_of_loaded` is the case of a load that completes while the items are shown.
* `raises_iff`: where the load does not complete while an item is picked, and the user waits for the
  table, only the gestures that the code does not provide for raise.
-/

namespace Rx7

open Transition Deferred GaugeConfigViewController GaugeConfigViewControllerViewModel

/-- The blocks that the page posts to the main queue. -/
inductive GaugeConfigScreen.Block
  | reloadData
  | loadingScreen (isSaving : Bool)
  | saveButton (hasChanged : Bool)
  | addItem (item : EngineDataItem) (indexPath : IndexPath)

structure GaugeConfigScreen where
  session : EditorSession
  /-- The rows of the sections, as the table counted them last. -/
  rows : ℕ → ℕ
  loadingScreenIsHidden : Bool := false
  saveButtonIsHidden : Bool := false
  posted : List GaugeConfigScreen.Block
  /-- The add row for which the page of items is shown. -/
  adding : Option IndexPath := none

namespace GaugeConfigScreen

inductive Event
  /-- A handler that the view model gave is called: that of its load, or of a save. -/
  | completed (event : EditorSession.Event)
  /-- Save is pressed, or the page begins to be left. -/
  | save
  | gesture (gesture : Gesture)
  | didSelectRowAt (indexPath : IndexPath)
  /-- A row of the page of items is selected. -/
  | pickItem (row : ℕ)
  /-- The page of items is left without a pick. -/
  | leaveItems
  | runNext

variable (s : GaugeConfigScreen)

/-- `numberOfRowsInSection`. -/
def reported : ℕ → ℕ := numberOfRowsInSection ⟨some s.session.editor⟩

/-- `viewDidLoad`, with the present values that the observers are called with. -/
def viewDidLoad (session : EditorSession) : GaugeConfigScreen where
  session
  rows := numberOfRowsInSection ⟨some session.editor⟩
  posted := [.reloadData, .loadingScreen session.editor.isSaving,
    .saveButton session.editor.configHasChanged]

/-- What is posted when the view model does what it is asked for. -/
def blocks (viewModel : GaugeConfigViewControllerViewModel) : EditorSession.Event → List Block
  | .loadCompleted _ _ => [.reloadData]
  | .save => if viewModel.configHasChanged then [.loadingScreen true] else []
  | .saveCompleted _ => [.saveButton false, .loadingScreen false]
  | .edit (.deleteItem indexPath) =>
    if indexPath.sect = 0 ∧ ¬ indexPath.row < viewModel.gauges.length then []
    else [.saveButton true]
  | .edit _ => [.saveButton true]

/-- The view model does what it is asked for, or traps. -/
def tell (event : EditorSession.Event) : Option GaugeConfigScreen :=
  (s.session.step event).map fun session => { s with
    session
    posted := s.posted ++ blocks s.session.editor event }

/-- `deleteRows`, `insertRows` and the end of a drag: the table counts its rows, which are to be
those before with some taken out and some put in. -/
def updateTable (taken put : ℕ → ℕ) : Option GaugeConfigScreen :=
  if Counts ⟨some s.session.editor⟩ s.rows taken put then some { s with rows := s.reported }
  else none

/-- `insertRows(at:with:)`: the place is at most behind the last row. -/
def insertRows (indexPath : IndexPath) : Option GaugeConfigScreen :=
  if indexPath.row ≤ s.rows indexPath.sect then
    s.updateTable (fun _ => 0) fun sect => if indexPath.sect = sect then 1 else 0
  else none

/-- Run a block of the main queue. -/
def run : Block → Option GaugeConfigScreen
  | .reloadData => some { s with rows := s.reported }
  | .loadingScreen isSaving => some { s with loadingScreenIsHidden := !isSaving }
  | .saveButton hasChanged => some { s with saveButtonIsHidden := !hasChanged }
  | .addItem item indexPath =>
    ({ s with adding := none }.tell (.edit (.addItem item indexPath.sect))).bind
      (·.insertRows indexPath)

/-- One event; an exception or a trap leaves none. -/
def step : Event → Option GaugeConfigScreen
  | .completed event => s.tell event
  | .save => s.tell .save
  | .gesture gesture =>
    (s.tell (.edit gesture.layoutEdit)).bind (·.updateTable gesture.taken gesture.put)
  | .didSelectRowAt indexPath =>
    if s.session.editor.isAddButton indexPath then some { s with adding := some indexPath }
    else some s
  | .pickItem row =>
    match s.adding, EngineDataItem.ofRawValue row with
    | some indexPath, some item => some { s with posted := s.posted ++ [.addItem item indexPath] }
    | _, _ => some s
  | .leaveItems => some { s with adding := none }
  | .runNext =>
    match s.posted with
    | [] => some s
    | block :: posted => { s with posted }.run block

/-! ## The loading screen and the save button -/

/-- Whether a block hides or shows the loading screen. -/
def Block.hidesLoadingScreen : Block → Option Bool
  | .loadingScreen isSaving => some !isSaving
  | _ => none

/-- Whether a block hides or shows the save button. -/
def Block.hidesSaveButton : Block → Option Bool
  | .saveButton hasChanged => some !hasChanged
  | _ => none

section

variable {s t u : GaugeConfigScreen} {e : Event} {event : EditorSession.Event}
  {session session' : EditorSession} {events : List Event}

/-- An edit that is carried out marks the layout as changed, and shows the save button. -/
theorem blocks_edit {vm vm' : GaugeConfigViewControllerViewModel} {edit : LayoutEdit}
    (h : vm.perform edit = .ok vm') : (blocks vm (.edit edit) = [] ∧ vm' = vm) ∨
      blocks vm (.edit edit) = [.saveButton true] ∧ vm'.configHasChanged = true := by
  cases edit with
  | addItem item toSection =>
    refine .inr ⟨rfl, ?_⟩
    obtain rfl := Except.ok.inj h
    rfl
  | deleteItem path =>
    by_cases hs : path.sect = 0
    · rcases lt_or_ge path.row vm.gauges.length with hrow | hrow
      · obtain rfl := Except.ok.inj ((deleteItem_of_lt hs hrow).symm.trans h)
        exact .inr ⟨if_neg fun hnone => hnone.2 hrow, rfl⟩
      · obtain rfl := Except.ok.inj ((deleteItem_of_le hs hrow).symm.trans h)
        exact .inl ⟨if_pos ⟨hs, not_lt.2 hrow⟩, rfl⟩
    · obtain rfl := Except.ok.inj ((deleteItem_of_ne_zero hs).symm.trans h)
      exact .inr ⟨if_neg fun hnone => hs hnone.1, rfl⟩
  | moveItem source destination =>
    refine .inr ⟨rfl, ?_⟩
    simp only [GaugeConfigViewControllerViewModel.perform, moveItem] at h
    split_ifs at h
    all_goals
      obtain ⟨x, -, h⟩ := Swift.bind_removeAt_eq_ok_iff.1 h
      obtain ⟨-, h⟩ := Swift.bind_insertAt_eq_ok_iff.1 h
      obtain rfl := Except.ok.inj h
      rfl

/-- What the view model posts is what its flags become. -/
theorem due_blocks (h : session.step event = some session') :
    due Block.hidesLoadingScreen (!session.editor.isSaving) (blocks session.editor event) =
        !session'.editor.isSaving ∧
      due Block.hidesSaveButton (!session.editor.configHasChanged) (blocks session.editor event) =
        !session'.editor.configHasChanged := by
  cases event with
  | loadCompleted gauges monitors =>
    obtain ⟨-, rfl⟩ := EditorSession.step_loadCompleted h
    exact ⟨rfl, rfl⟩
  | saveCompleted wasSuccessful =>
    obtain ⟨-, rfl⟩ := EditorSession.step_saveCompleted h
    exact ⟨rfl, rfl⟩
  | save =>
    rcases EditorSession.step_save h with ⟨hc, rfl⟩ | ⟨hc, rfl⟩
    · rw [blocks, hc]
      exact ⟨rfl, rfl⟩
    · rw [blocks, hc]
      exact ⟨rfl, rfl⟩
  | edit edit =>
    obtain ⟨editor, hperform, rfl⟩ := EditorSession.step_edit h
    have hsaving : editor.isSaving = session.editor.isSaving := by
      rcases perform_cases hperform with rfl | ⟨_, _, rfl⟩ <;> rfl
    rcases blocks_edit hperform with ⟨hblocks, rfl⟩ | ⟨hblocks, hchanged⟩
    · rw [hblocks]
      exact ⟨rfl, rfl⟩
    · rw [hblocks]
      refine ⟨?_, ?_⟩
      · show (!session.editor.isSaving) = !editor.isSaving
        rw [hsaving]
      · show (!true) = !editor.configHasChanged
        rw [hchanged]

/-- What is told to the view model is told to the observers, in blocks. -/
theorem tell_eq_some (h : s.tell event = some t) : ∃ session,
    s.session.step event = some session ∧ t = { s with
      session
      posted := s.posted ++ blocks s.session.editor event } := by
  obtain ⟨session, hsession, rfl⟩ := Option.map_eq_some_iff.1 h
  exact ⟨session, hsession, rfl⟩

theorem updateTable_eq_some {taken put : ℕ → ℕ} (h : s.updateTable taken put = some t) :
    (∀ sect < numberOfSections, s.reported sect + taken sect = s.rows sect + put sect) ∧
      t = { s with rows := s.reported } := by
  unfold updateTable at h
  split_ifs at h with hrows
  exact ⟨hrows, (Option.some.inj h).symm⟩

theorem insertRows_eq_some {indexPath : IndexPath} (h : s.insertRows indexPath = some t) :
    t = { s with rows := s.reported } := by
  unfold insertRows at h
  split_ifs at h
  exact (updateTable_eq_some h).2

theorem run_addItem {item : EngineDataItem} {indexPath : IndexPath}
    (h : s.run (.addItem item indexPath) = some t) :
    ∃ u, { s with adding := none }.tell (.edit (.addItem item indexPath.sect)) = some u ∧
      u.insertRows indexPath = some t :=
  Option.bind_eq_some_iff.1 h

/-- **What an event does to the page.** -/
inductive Does (s : GaugeConfigScreen) : Event → GaugeConfigScreen → Prop
  | completes {event : EditorSession.Event} {t : GaugeConfigScreen}
      (h : s.tell event = some t) : Does s (.completed event) t
  | saves {t : GaugeConfigScreen} (h : s.tell .save = some t) : Does s .save t
  | edits {gesture : Gesture} {u : GaugeConfigScreen}
      (hu : s.tell (.edit gesture.layoutEdit) = some u) :
    Does s (.gesture gesture) { u with rows := u.reported }
  | selects {indexPath : IndexPath} (h : s.session.editor.isAddButton indexPath = true) :
    Does s (.didSelectRowAt indexPath) { s with adding := some indexPath }
  | selectsNothing (indexPath : IndexPath) : Does s (.didSelectRowAt indexPath) s
  | picks (row : ℕ) (item : EngineDataItem) {indexPath : IndexPath}
      (h : s.adding = some indexPath) :
    Does s (.pickItem row) { s with posted := s.posted ++ [.addItem item indexPath] }
  | picksNothing (row : ℕ) : Does s (.pickItem row) s
  | leaves : Does s .leaveItems { s with adding := none }
  | runs {block : Block} {posted : List Block} {t : GaugeConfigScreen}
      (hposted : s.posted = block :: posted) (h : run { s with posted } block = some t) :
    Does s .runNext t
  | runsNothing : Does s .runNext s

theorem step_cases (h : s.step e = some t) : Does s e t := by
  cases e with
  | completed event => exact .completes h
  | save => exact .saves h
  | gesture gesture =>
    obtain ⟨u, hu, h⟩ := Option.bind_eq_some_iff.1 h
    obtain ⟨-, rfl⟩ := updateTable_eq_some h
    exact .edits hu
  | didSelectRowAt indexPath =>
    simp only [step] at h
    split_ifs at h with hbutton
    · obtain rfl := Option.some.inj h
      exact .selects hbutton
    · obtain rfl := Option.some.inj h
      exact .selectsNothing indexPath
  | pickItem row =>
    simp only [step] at h
    cases hadding : s.adding with
    | none =>
      rw [hadding] at h
      obtain rfl := Option.some.inj h
      exact .picksNothing row
    | some indexPath =>
      cases hitem : EngineDataItem.ofRawValue row with
      | none =>
        rw [hadding, hitem] at h
        obtain rfl := Option.some.inj h
        exact .picksNothing row
      | some item =>
        rw [hadding, hitem] at h
        rw [← Option.some.inj h, ← hadding]
        exact .picks row item hadding
  | leaveItems =>
    obtain rfl := Option.some.inj h
    exact .leaves
  | runNext =>
    simp only [step] at h
    cases hposted : s.posted with
    | nil =>
      rw [hposted] at h
      obtain rfl := Option.some.inj h
      exact .runsNothing
    | cons block posted =>
      rw [hposted] at h
      exact .runs hposted h

/-- The first block is run at most, and others posted, for what the view model becomes. -/
structure Posts (s t : GaugeConfigScreen) : Prop where
  loadingScreen : Step Block.hidesLoadingScreen (fun s => !s.session.editor.isSaving)
    (·.loadingScreenIsHidden) posted s t
  saveButton : Step Block.hidesSaveButton (fun s => !s.session.editor.configHasChanged)
    (·.saveButtonIsHidden) posted s t

/-- The view model is told something, behind the first block or without. -/
theorem posts_tell (ran : List Block) (hposted : s.posted = ran ++ u.posted)
    (hloading : u.loadingScreenIsHidden = due Block.hidesLoadingScreen s.loadingScreenIsHidden ran)
    (hsave : u.saveButtonIsHidden = due Block.hidesSaveButton s.saveButtonIsHidden ran)
    (hsession : u.session = s.session) (h : u.tell event = some t) : Posts s t := by
  obtain ⟨session, hstep, rfl⟩ := tell_eq_some h
  obtain ⟨hdueLoading, hdueSave⟩ := due_blocks hstep
  rw [hsession] at hdueLoading hdueSave hstep
  refine ⟨⟨ran, u.posted, _, hposted, rfl, hloading, ?_⟩,
    ⟨ran, u.posted, _, hposted, rfl, hsave, ?_⟩⟩
  · rw [hsession]
    exact hdueLoading.symm
  · rw [hsession]
    exact hdueSave.symm

/-- Nothing is told, and what is posted hides and shows nothing. -/
theorem posts_of_eq (ran : List Block) {later rest : List Block} (hposted : s.posted = ran ++ rest)
    (hposted' : t.posted = rest ++ later)
    (hloading : t.loadingScreenIsHidden = due Block.hidesLoadingScreen s.loadingScreenIsHidden ran)
    (hsave : t.saveButtonIsHidden = due Block.hidesSaveButton s.saveButtonIsHidden ran)
    (hsession : t.session = s.session)
    (hlater : later = [] ∨ ∃ item indexPath, later = [.addItem item indexPath]) : Posts s t := by
  refine ⟨⟨ran, rest, later, hposted, hposted', hloading, ?_⟩,
    ⟨ran, rest, later, hposted, hposted', hsave, ?_⟩⟩
  · dsimp only
    rw [hsession]
    rcases hlater with rfl | ⟨item, indexPath, rfl⟩ <;> rfl
  · dsimp only
    rw [hsession]
    rcases hlater with rfl | ⟨item, indexPath, rfl⟩ <;> rfl

theorem posts_run {block : Block} {posted : List Block} (hposted : s.posted = block :: posted)
    (h : run { s with posted } block = some t) : Posts s t := by
  cases block with
  | addItem item indexPath =>
    obtain ⟨u, hu, h⟩ := run_addItem h
    obtain rfl := insertRows_eq_some h
    have hposts := posts_tell (u := { s with posted, adding := none })
      [.addItem item indexPath] hposted rfl rfl rfl hu
    exact ⟨hposts.loadingScreen, hposts.saveButton⟩
  | reloadData =>
    obtain rfl := Option.some.inj h
    exact posts_of_eq [.reloadData] hposted (List.append_nil _).symm rfl rfl rfl (.inl rfl)
  | loadingScreen isSaving =>
    obtain rfl := Option.some.inj h
    exact posts_of_eq [.loadingScreen isSaving] hposted (List.append_nil _).symm rfl rfl rfl
      (.inl rfl)
  | saveButton hasChanged =>
    obtain rfl := Option.some.inj h
    exact posts_of_eq [.saveButton hasChanged] hposted (List.append_nil _).symm rfl rfl rfl
      (.inl rfl)

theorem posts_step (h : s.step e = some t) : Posts s t := by
  cases step_cases h with
  | completes h => exact posts_tell [] rfl rfl rfl rfl h
  | saves h => exact posts_tell [] rfl rfl rfl rfl h
  | edits hu =>
    have hposts := posts_tell [] rfl rfl rfl rfl hu
    exact ⟨hposts.loadingScreen, hposts.saveButton⟩
  | picks row item h => exact posts_of_eq [] rfl rfl rfl rfl rfl (.inr ⟨item, _, rfl⟩)
  | runs hposted h => exact posts_run hposted h
  | _ => exact posts_of_eq [] rfl (List.append_nil _).symm rfl rfl rfl (.inl rfl)

/-- **The buttons tell the truth**: in every run of the page, whenever no block is posted, the
loading screen is hidden exactly while nothing is being saved, and the save button exactly while
nothing has changed. -/
theorem buttons_shown (h : Run (ofPartial step) (viewDidLoad session) events s)
    (hempty : s.posted = []) : s.loadingScreenIsHidden = !s.session.editor.isSaving ∧
      s.saveButtonIsHidden = !s.session.editor.configHasChanged := by
  have hloading : ∀ s e t, ofPartial step s e t → Step Block.hidesLoadingScreen
      (fun s => !s.session.editor.isSaving) (·.loadingScreenIsHidden) posted s t :=
    fun _ _ _ hs => (posts_step hs).loadingScreen
  have hsave : ∀ s e t, ofPartial step s e t → Step Block.hidesSaveButton
      (fun s => !s.session.editor.configHasChanged) (·.saveButtonIsHidden) posted s t :=
    fun _ _ _ hs => (posts_step hs).saveButton
  exact ⟨shown_eq_of_run hloading rfl h hempty, shown_eq_of_run hsave rfl h hempty⟩

/-- A gauge is deleted and the layout saved. -/
theorem buttons_shown_deleteAndSave : ∃ s, Run (ofPartial step) (viewDidLoad {})
    [.completed (.loadCompleted [.rpm] []), .runNext, .runNext, .runNext, .runNext,
      .gesture (.delete ⟨0, 0⟩), .runNext, .save, .runNext] s ∧ s.posted = [] ∧
    s.session.editor.isSaving = true ∧ s.loadingScreenIsHidden = !s.session.editor.isSaving ∧
    s.saveButtonIsHidden = !s.session.editor.configHasChanged := by
  have hrun : Run (ofPartial step) (viewDidLoad {})
      [.completed (.loadCompleted [.rpm] []), .runNext, .runNext, .runNext, .runNext,
        .gesture (.delete ⟨0, 0⟩), .runNext, .save, .runNext] _ := Run.of_foldlM rfl
  exact ⟨_, hrun, rfl, rfl, buttons_shown hrun rfl⟩

/-! ## The rows of the table -/

/-- The table's last count is what it would count now. -/
def Fresh (s : GaugeConfigScreen) : Prop :=
  ∀ sect < numberOfSections, s.rows sect = s.reported sect

/-- No picked item is still to be added. -/
def NoneAdded (posted : List Block) : Prop := ∀ item indexPath, .addItem item indexPath ∉ posted

/-- What can happen to the page. The user touches the table while it is shown, and the rows that it
shows; the handlers are called as the session waits for them. -/
def Offers (s : GaugeConfigScreen) : Event → Prop
  | .completed event => (∃ gauges monitors, event = .loadCompleted gauges monitors ∧
      s.session.editor.hasLoaded = false) ∨
    ∃ wasSuccessful, event = .saveCompleted wasSuccessful ∧ 0 < s.session.inFlight
  | .gesture (.delete indexPath) =>
    s.adding = none ∧ indexPath.sect < numberOfSections ∧ indexPath.row < s.rows indexPath.sect
  | .gesture (.move source destination) =>
    s.adding = none ∧ source.sect < numberOfSections ∧ source.row < s.rows source.sect ∧
      destination.sect < numberOfSections ∧
      destination.row + (Gesture.move source destination).taken destination.sect ≤
        s.rows destination.sect
  | .didSelectRowAt indexPath =>
    s.adding = none ∧ indexPath.sect < numberOfSections ∧ indexPath.row < s.rows indexPath.sect
  | .pickItem _ => s.adding.isSome
  | _ => True

/-- The load does not complete while an item is being added, and no row is deleted or dragged before
the table was reloaded, or the item was added. -/
def Calm (s : GaugeConfigScreen) : Event → Prop
  | .completed (.loadCompleted _ _) => s.adding = none ∧ NoneAdded s.posted
  | .gesture _ => s.Fresh ∧ NoneAdded s.posted
  | _ => True

/-- What happens to a page whose user waits for the table. -/
def calmStep : GaugeConfigScreen → Event → GaugeConfigScreen → Prop :=
  restrict (ofPartial step) fun s e => s.Offers e ∧ s.Calm e

theorem updateTable_eq_none_iff {taken put : ℕ → ℕ} : s.updateTable taken put = none ↔
    ¬ Counts ⟨some s.session.editor⟩ s.rows taken put := by
  unfold updateTable
  by_cases h : Counts ⟨some s.session.editor⟩ s.rows taken put
  · rw [if_pos h]
    exact iff_of_false (Option.some_ne_none _) (not_not_intro h)
  · rw [if_neg h]
    exact iff_of_true rfl h

/-- An edit that the view model carries out is told, and the table does not count by itself. -/
theorem tell_edit {edit : LayoutEdit} {editor : GaugeConfigViewControllerViewModel}
    (h : s.session.editor.perform edit = .ok editor) : ∃ u, s.tell (.edit edit) = some u ∧
      u.session.editor = editor ∧ u.rows = s.rows := by
  have hstep : s.session.step (.edit edit) = some { s.session.recordEdit edit with editor } := by
    rw [EditorSession.step, h]
  refine ⟨{ s with
    session := { s.session.recordEdit edit with editor }
    posted := s.posted ++ blocks s.session.editor (.edit edit) }, ?_, rfl, rfl⟩
  rw [tell, hstep]
  rfl

/-- **Where an item that was picked raises**: the table was not reloaded since the layout was, or
has fewer rows than the selected one. -/
theorem run_addItem_eq_none_iff {item : EngineDataItem} {indexPath : IndexPath} :
    s.run (.addItem item indexPath) = none ↔
      ¬ s.Fresh ∨ s.rows indexPath.sect < indexPath.row := by
  obtain ⟨u, hu, heditor, hrows⟩ : ∃ u, { s with adding := none }.tell
      (.edit (.addItem item indexPath.sect)) = some u ∧
        u.session.editor = s.session.editor.addItem item indexPath.sect ∧ u.rows = s.rows :=
    tell_edit rfl
  have hrun : s.run (.addItem item indexPath) = u.insertRows indexPath := by
    rw [run, hu]
    rfl
  rw [hrun, insertRows, hrows]
  by_cases hrow : indexPath.row ≤ s.rows indexPath.sect
  · rw [if_pos hrow, or_iff_left (not_lt.2 hrow), updateTable_eq_none_iff, hrows]
    refine not_congr (forall₂_congr fun sect hsect => ?_)
    rw [heditor, numberOfRowsInSection_addItem _ _ _ hsect, Nat.add_zero,
      Nat.add_right_cancel_iff, eq_comm, reported]
  · rw [if_neg hrow]
    exact iff_of_true rfl (.inr (not_le.1 hrow))

/-- A layout that is loaded behind the pick of an item, with lists of other lengths, is not counted
before the item is added. -/
theorem raises_of_loaded {item : EngineDataItem} {indexPath : IndexPath} {posted : List Block}
    {gauges monitors : List EngineDataItem} (hfresh : s.Fresh)
    (hposted : s.posted = .addItem item indexPath :: posted)
    (h : s.tell (.loadCompleted gauges monitors) = some t)
    (hlength : gauges.length ≠ s.session.editor.gauges.length ∨
      monitors.length ≠ s.session.editor.monitors.length) : t.step .runNext = none := by
  obtain ⟨session, hsession, rfl⟩ := tell_eq_some h
  obtain ⟨-, rfl⟩ := EditorSession.step_loadCompleted hsession
  simp only [step, hposted, List.cons_append]
  refine run_addItem_eq_none_iff.2 (.inl fun hcounted => ?_)
  rcases hlength with hne | hne
  · exact hne (Nat.succ_injective ((hcounted 0 (by decide)).symm.trans (hfresh 0 (by decide))))
  · exact hne (Nat.succ_injective ((hcounted 1 (by decide)).symm.trans (hfresh 1 (by decide))))

/-- A gesture on a fresh table raises where the code does not provide for it. -/
theorem step_gesture_eq_none_iff {gesture : Gesture} (hfresh : s.Fresh)
    (hoffers : s.Offers (.gesture gesture)) : s.step (.gesture gesture) = none ↔
      ¬ Foreseen ⟨some s.session.editor⟩ gesture := by
  have hhandled : Handled ⟨some s.session.editor⟩ gesture ↔
      Foreseen ⟨some s.session.editor⟩ gesture := by
    cases gesture with
    | delete indexPath => exact delete_handled_iff hoffers.2.1
    | move source destination => exact move_handled_iff hoffers.2.1 hoffers.2.2.2.1
  rw [← hhandled, Handled, perform_eq, step]
  cases hperform : s.session.editor.perform gesture.layoutEdit with
  | error trap =>
    have htell : s.tell (.edit gesture.layoutEdit) = none := by
      rw [tell, EditorSession.step, hperform]
      rfl
    rw [htell]
    refine iff_of_true rfl ?_
    rintro ⟨self', hself', -⟩
    cases hself'
  | ok editor =>
    obtain ⟨u, hu, heditor, hrows⟩ := tell_edit hperform
    rw [hu, Option.bind_some, updateTable_eq_none_iff, hrows]
    refine not_congr ⟨fun h => ⟨_, rfl, fun sect hsect => ?_⟩, ?_⟩
    · rw [← heditor]
      exact (h sect hsect).trans (by rw [hfresh sect hsect]; rfl)
    · rintro ⟨self', hself', h⟩ sect hsect
      obtain rfl := Except.ok.inj hself'
      rw [heditor, hfresh sect hsect]
      exact h sect hsect

/-- What a calm run keeps: the table is reloaded before an item is added, and the rows that items
were picked for are there. -/
structure Orderly (s : GaugeConfigScreen) : Prop where
  fresh : s.Fresh ∨ ∃ before after, s.posted = before ++ .reloadData :: after ∧ NoneAdded before
  adding : ∀ indexPath ∈ s.adding, Shows ⟨some s.session.editor⟩ indexPath
  posted : ∀ item indexPath, .addItem item indexPath ∈ s.posted →
    Shows ⟨some s.session.editor⟩ indexPath

/-- An add row that is selected is a row of the layout. -/
theorem shows_of_isAddButton {vm : GaugeConfigViewControllerViewModel} {indexPath : IndexPath}
    (h : vm.isAddButton indexPath = true) : Shows ⟨some vm⟩ indexPath := by
  rw [isAddButton, decide_eq_true_eq] at h
  obtain ⟨row, sect⟩ := indexPath
  rcases h with ⟨rfl, rfl⟩ | ⟨rfl, rfl⟩
  · exact ⟨Nat.zero_lt_two, Nat.lt_succ_self _⟩
  · exact ⟨Nat.one_lt_two, Nat.lt_succ_self _⟩

theorem noneAdded_blocks (vm : GaugeConfigViewControllerViewModel)
    (event : EditorSession.Event) : NoneAdded (blocks vm event) := by
  intro item indexPath hmem
  cases event with
  | loadCompleted gauges monitors => simp [blocks] at hmem
  | saveCompleted wasSuccessful => simp [blocks] at hmem
  | save =>
    rw [blocks] at hmem
    split_ifs at hmem <;> simp at hmem
  | edit edit =>
    cases edit with
    | addItem item toSection => simp [blocks] at hmem
    | moveItem source destination => simp [blocks] at hmem
    | deleteItem path =>
      rw [blocks] at hmem
      split_ifs at hmem <;> simp at hmem

theorem NoneAdded.append {posted later : List Block} (h : NoneAdded posted)
    (h' : NoneAdded later) : NoneAdded (posted ++ later) :=
  fun item indexPath hmem => (List.mem_append.1 hmem).elim (h item indexPath) (h' item indexPath)

/-- The table stays as it is, and so do the lists that it shows. -/
theorem Orderly.post (hs : s.Orderly) (later : List Block) (hrows : t.rows = s.rows)
    (hreported : t.reported = s.reported) (hposted : t.posted = s.posted ++ later)
    (hadding : ∀ indexPath ∈ t.adding, Shows ⟨some s.session.editor⟩ indexPath)
    (hlater : ∀ item indexPath, .addItem item indexPath ∈ later →
      Shows ⟨some s.session.editor⟩ indexPath) : t.Orderly := by
  have hshows : ∀ indexPath, Shows ⟨some s.session.editor⟩ indexPath →
      Shows ⟨some t.session.editor⟩ indexPath :=
    fun indexPath h => ⟨h.1, lt_of_lt_of_eq h.2 (congrFun hreported.symm _)⟩
  refine ⟨hs.fresh.imp (fun h sect hsect => ?_) ?_, fun indexPath h => hshows _ (hadding _ h),
    fun item indexPath hmem => hshows _ ?_⟩
  · rw [hrows, hreported]
    exact h sect hsect
  · rintro ⟨before, after, h, hnone⟩
    exact ⟨before, after ++ later, by rw [hposted, h, List.append_assoc]; rfl, hnone⟩
  · rw [hposted] at hmem
    exact (List.mem_append.1 hmem).elim (hs.posted item indexPath) (hlater item indexPath)

/-- The first block is run. -/
theorem Orderly.tail {block : Block} {posted : List Block} (hs : s.Orderly)
    (hposted : s.posted = block :: posted) (hblock : block ≠ .reloadData) :
    Orderly { s with posted } := by
  refine ⟨hs.fresh.imp_right ?_, hs.adding, fun item indexPath hmem =>
    hs.posted item indexPath (hposted ▸ List.mem_cons_of_mem _ hmem)⟩
  rintro ⟨_ | ⟨head, before⟩, after, h, hnone⟩
  · rw [hposted] at h
    exact absurd (List.cons.inj h).1 hblock
  · rw [hposted] at h
    exact ⟨before, after, (List.cons.inj h).2, fun item indexPath hmem =>
      hnone item indexPath (List.mem_cons_of_mem _ hmem)⟩

/-- An item is added to a table that is up to date, at a row that it has. -/
theorem Orderly.addItem {item : EngineDataItem} {indexPath : IndexPath} {posted : List Block}
    (hs : s.Orderly) (hposted : s.posted = .addItem item indexPath :: posted) :
    s.Fresh ∧ Shows ⟨some s.session.editor⟩ indexPath := by
  refine ⟨hs.fresh.resolve_right ?_, hs.posted item indexPath (hposted ▸ List.mem_cons_self)⟩
  rintro ⟨_ | ⟨head, before⟩, after, h, hnone⟩
  · rw [hposted] at h
    cases h
  · rw [hposted] at h
    obtain ⟨rfl, -⟩ := List.cons.inj h
    exact hnone item indexPath List.mem_cons_self

/-- What is told to the view model, behind the load and other than an edit, leaves the lists. -/
theorem reported_of_step {session : EditorSession}
    (h : s.session.step event = some session)
    (hevent : event = .save ∨ ∃ wasSuccessful, event = .saveCompleted wasSuccessful) :
    numberOfRowsInSection ⟨some session.editor⟩ = s.reported := by
  rcases hevent with rfl | ⟨wasSuccessful, rfl⟩
  · rcases EditorSession.step_save h with ⟨-, rfl⟩ | ⟨-, rfl⟩ <;> rfl
  · obtain ⟨-, rfl⟩ := EditorSession.step_saveCompleted h
    funext sect
    simp [reported, numberOfRowsInSection]

/-- The view model hands its lists over, or is told that they were stored. -/
theorem Orderly.tell (hs : s.Orderly) (h : s.tell event = some t)
    (hevent : event = .save ∨ ∃ wasSuccessful, event = .saveCompleted wasSuccessful) :
    t.Orderly := by
  obtain ⟨session, hsession, rfl⟩ := tell_eq_some h
  exact hs.post (blocks s.session.editor event) rfl (reported_of_step hsession hevent) rfl
    hs.adding fun item indexPath hmem => absurd hmem (noneAdded_blocks _ _ item indexPath)

/-- The table has counted its rows, and no page of items is shown. -/
theorem orderly_of_fresh (hfresh : t.Fresh) (hadding : t.adding = none)
    (hposted : ∀ item indexPath, .addItem item indexPath ∈ t.posted →
      Shows ⟨some t.session.editor⟩ indexPath) : t.Orderly :=
  ⟨.inl hfresh, fun indexPath h => by simp [hadding] at h, hposted⟩

/-- The first block is run of a page whose table is up to date before an item is added to it. -/
theorem orderly_run {block : Block} {posted : List Block} (hs : s.Orderly)
    (hposted : s.posted = block :: posted) (h : run { s with posted } block = some t) :
    t.Orderly := by
  cases block with
  | reloadData =>
    obtain rfl := Option.some.inj h
    exact ⟨.inl fun _ _ => rfl, hs.adding, fun item indexPath hmem =>
      hs.posted item indexPath (hposted ▸ List.mem_cons_of_mem _ hmem)⟩
  | loadingScreen isSaving =>
    obtain rfl := Option.some.inj h
    have htail := hs.tail hposted (by simp)
    exact ⟨htail.fresh, htail.adding, htail.posted⟩
  | saveButton hasChanged =>
    obtain rfl := Option.some.inj h
    have htail := hs.tail hposted (by simp)
    exact ⟨htail.fresh, htail.adding, htail.posted⟩
  | addItem item indexPath =>
    obtain ⟨u, hu, h⟩ := run_addItem h
    obtain rfl := insertRows_eq_some h
    obtain ⟨session, hsession, rfl⟩ := tell_eq_some hu
    obtain ⟨editor, hperform, rfl⟩ := EditorSession.step_edit hsession
    obtain rfl := Except.ok.inj hperform
    refine orderly_of_fresh (fun _ _ => rfl) rfl fun item' indexPath' hmem => ?_
    have hshown : Shows ⟨some s.session.editor⟩ indexPath' :=
      (List.mem_append.1 hmem).elim
        (fun hmem => hs.posted item' indexPath' (hposted ▸ List.mem_cons_of_mem _ hmem))
        fun hmem => absurd hmem (noneAdded_blocks _ _ item' indexPath')
    refine ⟨hshown.1, lt_of_lt_of_le hshown.2 ?_⟩
    show numberOfRowsInSection ⟨some s.session.editor⟩ indexPath'.sect ≤
      numberOfRowsInSection ⟨some (s.session.editor.addItem item indexPath.sect)⟩ indexPath'.sect
    rw [numberOfRowsInSection_addItem _ _ _ hshown.1]
    exact Nat.le_add_right _ _

theorem orderly_step (hs : s.Orderly) (hoffers : s.Offers e) (hcalm : s.Calm e)
    (h : s.step e = some t) : t.Orderly := by
  cases step_cases h with
  | completes h =>
    rcases hoffers with ⟨gauges, monitors, rfl, -⟩ | ⟨wasSuccessful, rfl, -⟩
    · -- The reload is posted behind blocks that add nothing.
      obtain ⟨hadding, hnone⟩ := hcalm
      obtain ⟨session, hsession, rfl⟩ := tell_eq_some h
      refine ⟨.inr ⟨s.posted, [], rfl, hnone⟩, fun indexPath h => ?_,
        fun item indexPath hmem => absurd hmem ?_⟩
      · rw [hadding] at h
        cases h
      · exact hnone.append (noneAdded_blocks _ _) item indexPath
    · exact hs.tell h (.inr ⟨wasSuccessful, rfl⟩)
  | saves h => exact hs.tell h (.inl rfl)
  | @edits gesture u hu =>
    obtain ⟨session, hsession, rfl⟩ := tell_eq_some hu
    have hadding : s.adding = none := by
      cases gesture with
      | delete indexPath => exact hoffers.1
      | move source destination => exact hoffers.1
    exact orderly_of_fresh (fun _ _ => rfl) hadding fun item indexPath hmem =>
      absurd hmem (hcalm.2.append (noneAdded_blocks _ _) item indexPath)
  | selects hbutton =>
    refine hs.post [] rfl rfl (List.append_nil _).symm (fun indexPath h => ?_) (by simp)
    obtain rfl := Option.some.inj h
    exact shows_of_isAddButton hbutton
  | selectsNothing indexPath => exact hs
  | @picks row item indexPath hadding =>
    refine hs.post [.addItem item indexPath] rfl rfl rfl hs.adding fun item' path' hmem => ?_
    obtain ⟨-, rfl⟩ := Block.addItem.inj (List.mem_singleton.1 hmem)
    exact hs.adding path' hadding
  | picksNothing row => exact hs
  | leaves => exact hs.post [] rfl rfl (List.append_nil _).symm (fun _ h => by cases h) (by simp)
  | runs hposted h => exact orderly_run hs hposted h
  | runsNothing => exact hs

theorem orderly_viewDidLoad (session : EditorSession) : (viewDidLoad session).Orderly :=
  ⟨.inl fun _ _ => rfl, fun indexPath h => (by cases h), fun item indexPath h => by
    simp [viewDidLoad] at h⟩

/-- A block raises where it adds an item. -/
theorem run_eq_none {block : Block} (h : s.run block = none) :
    ∃ item indexPath, block = .addItem item indexPath := by
  cases block with
  | addItem item indexPath => exact ⟨item, indexPath, rfl⟩
  | reloadData => cases h
  | loadingScreen isSaving => cases h
  | saveButton hasChanged => cases h

/-- The view model takes what it is told, other than an edit. -/
theorem tell_ne_none (hevent : event = .save ∨ (∃ gauges monitors,
      event = .loadCompleted gauges monitors ∧ s.session.editor.hasLoaded = false) ∨
    ∃ wasSuccessful, event = .saveCompleted wasSuccessful ∧ 0 < s.session.inFlight) :
    s.tell event ≠ none := by
  intro h
  have hstep := Option.map_eq_none_iff.1 h
  rcases hevent with rfl | ⟨gauges, monitors, rfl, hloaded⟩ | ⟨wasSuccessful, rfl, hflight⟩
  · cases hchanged : s.session.editor.configHasChanged with
    | false => simp [EditorSession.step, save_of_not_changed hchanged] at hstep
    | true => simp [EditorSession.step, save_of_changed hchanged] at hstep
  · simp [EditorSession.step, hloaded] at hstep
  · simp [EditorSession.step, hflight] at hstep

/-- On an orderly page only gestures raise. -/
theorem Orderly.step_ne_none (hs : s.Orderly) (hoffers : s.Offers e)
    (hgesture : ∀ gesture, e ≠ .gesture gesture) : s.step e ≠ none := by
  intro h
  cases e with
  | completed event => exact tell_ne_none (.inr hoffers) h
  | save => exact tell_ne_none (.inl rfl) h
  | gesture gesture => exact hgesture gesture rfl
  | didSelectRowAt indexPath =>
    simp only [step] at h
    split_ifs at h
  | pickItem row =>
    simp only [step] at h
    cases hadding : s.adding with
    | none =>
      rw [hadding] at h
      cases h
    | some indexPath =>
      cases hitem : EngineDataItem.ofRawValue row with
      | none =>
        rw [hadding, hitem] at h
        cases h
      | some item =>
        rw [hadding, hitem] at h
        cases h
  | leaveItems => cases h
  | runNext =>
    simp only [step] at h
    cases hposted : s.posted with
    | nil =>
      rw [hposted] at h
      cases h
    | cons block posted =>
      rw [hposted] at h
      obtain ⟨item, indexPath, rfl⟩ := run_eq_none h
      obtain ⟨hfresh, hshown⟩ := hs.addItem hposted
      rcases run_addItem_eq_none_iff.1 h with hstale | hrow
      · exact hstale hfresh
      · exact absurd hrow (not_lt.2 (le_of_lt (lt_of_lt_of_eq hshown.2 (hfresh _ hshown.1).symm)))

/-- **Where the page raises.** In a run of the page in which the load completes while no item is
being added, and rows are deleted and dragged while the table is up to date, what happens next is
handled, unless it is a gesture that the code does not provide for. -/
theorem raises_iff (h : Run calmStep (viewDidLoad session) events s) (hoffers : s.Offers e)
    (hcalm : s.Calm e) : s.step e = none ↔
      ∃ gesture, e = .gesture gesture ∧ ¬ Foreseen ⟨some s.session.editor⟩ gesture := by
  have hs : s.Orderly := h.invariant (orderly_viewDidLoad session)
    fun _ _ _ hs hstep => orderly_step hs hstep.2.1 hstep.2.2 hstep.1
  constructor
  · intro hnone
    by_contra hforeseen
    refine hs.step_ne_none hoffers (fun gesture he => hforeseen ?_) hnone
    subst he
    exact ⟨gesture, rfl, (step_gesture_eq_none_iff hcalm.1 hoffers).1 hnone⟩
  · rintro ⟨gesture, rfl, hforeseen⟩
    exact (step_gesture_eq_none_iff hcalm.1 hoffers).2 hforeseen

/-- Behind the load, a monitor is deleted. -/
theorem raises_iff_deleteMonitor : ∃ s, Run calmStep (viewDidLoad {})
    [.completed (.loadCompleted [.rpm] [.speed]), .runNext] s ∧
      s.step (.gesture (.delete ⟨0, 1⟩)) = none := by
  have hnone : NoneAdded (viewDidLoad {}).posted := fun item indexPath h => by
    simp [viewDidLoad] at h
  have hload : Run calmStep (viewDidLoad {}) [.completed (.loadCompleted [.rpm] [.speed])] _ :=
    Run.single ⟨rfl, .inl ⟨[.rpm], [.speed], rfl, rfl⟩, rfl, hnone⟩
  have hrun : Run calmStep (viewDidLoad {})
      [.completed (.loadCompleted [.rpm] [.speed]), .runNext] _ :=
    hload.snoc ⟨rfl, trivial, trivial⟩
  have hiff := raises_iff (e := .gesture (.delete ⟨0, 1⟩)) hrun ⟨rfl, by decide, by decide⟩
    ⟨fun _ _ => rfl, ?_⟩
  · exact ⟨_, hrun, hiff.2 ⟨_, rfl, fun h => absurd h.1 (by decide)⟩⟩
  · intro item indexPath h
    simp [blocks] at h

end

end GaugeConfigScreen

end Rx7
