import Rx7.Bluetooth.Waiting
import Rx7.Editor.Session
import Rx7.Program.Steps

/-!
# The gauge editors of the program

Any number of editors can be open, one behind the other, over one layout manager and one Bluetooth
manager. Each of them is an `EditorSession` of its own (`editor_session`): it does what its user
asks for, loads once at most, and is told of a save once at most for each of its own, whatever
happens to the others and to the rest of the program.
-/

namespace Rx7.Program

open Bluetooth Transition

/-- What the user asks an editor for. -/
def ownEvent (number : ℕ) : Event → Option EditorSession.Event
  | .input (.editGauges editor edit) =>
    if editor = number then some (.edit edit.layoutEdit) else none
  | .input (.saveGauges editor) => if editor = number then some .save else none
  | _ => none

/-- The event of a session is the user's. -/
def isUser : EditorSession.Event → Bool
  | .edit _ | .save => true
  | .saveCompleted _ | .loadCompleted _ _ => false

section

variable {uikit : UIKit} {describe : CBUUID → String} {s t u : Program} {e : Event}
  {events : List Event} {event : Bluetooth.Event Closure} {parts parts' : Parts}
  {number : ℕ}
  {labels : List EditorSession.Event} {session : EditorSession}
  {editor : GaugeConfigViewControllerViewModel}
  {loaded loaded' : List EngineDataItem → List EngineDataItem → Prop}

/-- A session of an editor, by its number, and the lists that it can have been loaded with. -/
structure SessionOf (number : ℕ) (events : List Event)
    (loaded : List EngineDataItem → List EngineDataItem → Prop) (labels : List EditorSession.Event)
    (session : EditorSession) : Prop where
  run : Run (ofPartial EditorSession.step) {} labels session
  user : labels.filter isUser = events.filterMap (ownEvent number)
  successful : ∀ wasSuccessful, .saveCompleted wasSuccessful ∈ labels → wasSuccessful = true
  parsed : ∀ gauges monitors, .loadCompleted gauges monitors ∈ labels → loaded gauges monitors

/-- An editor that is alive is a session, of which `loads` completions of the load and `saves` of
saves can come. -/
structure Tracked (number : ℕ) (events : List Event)
    (loaded : List EngineDataItem → List EngineDataItem → Prop) (parts : Parts) (loads saves : ℕ) :
    Prop where
  unopened : parts.opened ≤ number → parts.gaugeEditors number = none ∧ loads = 0 ∧ saves = 0 ∧
    events.filterMap (ownEvent number) = []
  alive : ∀ editor, parts.gaugeEditors number = some editor →
    ∃ labels session, SessionOf number events loaded labels session ∧ session.editor = editor ∧
      saves ≤ session.inFlight ∧ loads ≤ if editor.hasLoaded then 0 else 1

variable {loads saves loads' saves' : ℕ}

theorem Tracked.mono (h : Tracked number events loaded parts loads saves) (hloads : loads' ≤ loads)
    (hsaves : saves' ≤ saves) : Tracked number events loaded parts loads' saves' := by
  refine ⟨fun hopened => ?_, fun editor heditor => ?_⟩
  · obtain ⟨hnone, rfl, rfl, hown⟩ := h.unopened hopened
    exact ⟨hnone, Nat.le_zero.1 hloads, Nat.le_zero.1 hsaves, hown⟩
  · obtain ⟨labels, session, hsession, heq, hinFlight, hload⟩ := h.alive editor heditor
    exact ⟨labels, session, hsession, heq, hsaves.trans hinFlight, hloads.trans hload⟩

theorem Tracked.imp (h : Tracked number events loaded parts loads saves)
    (himp : ∀ gauges monitors, loaded gauges monitors → loaded' gauges monitors) :
    Tracked number events loaded' parts loads saves := by
  refine ⟨h.unopened, fun editor heditor => ?_⟩
  obtain ⟨labels, session, hsession, hkept⟩ := h.alive editor heditor
  exact ⟨labels, session, ⟨hsession.run, hsession.user, hsession.successful,
    fun gauges monitors hmem => himp gauges monitors (hsession.parsed gauges monitors hmem)⟩, hkept⟩

/-- What leaves an editor alone keeps its session. -/
theorem Tracked.congr (h : Tracked number events loaded parts loads saves)
    (heditor : parts'.gaugeEditors number = parts.gaugeEditors number)
    (hopened : parts.opened ≤ parts'.opened) : Tracked number events loaded parts' loads saves := by
  refine ⟨fun hle => ?_, fun editor halive => ?_⟩
  · rw [heditor]
    exact h.unopened (hopened.trans hle)
  · exact h.alive editor (heditor ▸ halive)

theorem Tracked.snoc (h : Tracked number events loaded parts loads saves)
    (hown : ownEvent number e = none) :
    Tracked number (events ++ [e]) loaded parts loads saves := by
  have hevents : (events ++ [e]).filterMap (ownEvent number) =
      events.filterMap (ownEvent number) := by
    rw [List.filterMap_append, List.filterMap_cons_none hown, List.filterMap_nil, List.append_nil]
  refine ⟨fun hopened => ?_, fun editor heditor => ?_⟩
  · rw [hevents]
    exact h.unopened hopened
  · obtain ⟨labels, session, hsession, hkept⟩ := h.alive editor heditor
    exact ⟨labels, session, ⟨hsession.run, by rw [hevents]; exact hsession.user,
      hsession.successful, hsession.parsed⟩, hkept⟩

/-- A session takes one more step; where its label is the user's, so is an event. -/
theorem SessionOf.snoc (h : SessionOf number events loaded labels session)
    {events' : List Event} {label : EditorSession.Event} {session' : EditorSession}
    (hstep : session.step label = some session')
    (hown : events'.filterMap (ownEvent number) =
      events.filterMap (ownEvent number) ++ [label].filter isUser)
    (hsuccessful : ∀ wasSuccessful, label = .saveCompleted wasSuccessful → wasSuccessful = true)
    (hparsed : ∀ gauges monitors, label = .loadCompleted gauges monitors →
      loaded gauges monitors) :
    SessionOf number events' loaded (labels ++ [label]) session' := by
  refine ⟨h.run.snoc hstep, ?_, fun wasSuccessful hmem => ?_, fun gauges monitors hmem => ?_⟩
  · rw [List.filter_append, h.user, hown]
  · rcases List.mem_append.1 hmem with hmem | hmem
    · exact h.successful wasSuccessful hmem
    · exact hsuccessful wasSuccessful (List.mem_singleton.1 hmem).symm
  · rcases List.mem_append.1 hmem with hmem | hmem
    · exact h.parsed gauges monitors hmem
    · exact hparsed gauges monitors (List.mem_singleton.1 hmem).symm

theorem SessionOf.load (h : SessionOf number events loaded labels session)
    (hloaded : session.editor.hasLoaded = false) {gauges monitors : List EngineDataItem}
    (hlists : loaded gauges monitors) :
    ∃ session', SessionOf number events loaded (labels ++ [.loadCompleted gauges monitors])
        session' ∧
      session'.editor = session.editor.loadCompleted gauges monitors ∧
      session'.inFlight = session.inFlight := by
  have hstep : session.step (.loadCompleted gauges monitors) = some _ :=
    if_neg (by simp [hloaded])
  refine ⟨_, h.snoc hstep (List.append_nil _).symm (by simp) ?_, rfl, rfl⟩
  rintro _ _ ⟨⟩
  exact hlists

theorem SessionOf.saved (h : SessionOf number events loaded labels session)
    (hpos : 0 < session.inFlight) :
    ∃ session', SessionOf number events loaded (labels ++ [.saveCompleted true]) session' ∧
      session'.editor = session.editor.saveCompleted true ∧
      session'.inFlight = session.inFlight - 1 := by
  have hstep : session.step (.saveCompleted true) = some _ := if_pos hpos
  exact ⟨_, h.snoc hstep (List.append_nil _).symm (by simp) (by simp), rfl, rfl⟩

theorem gaugeEditors_updateEditor (parts : Parts) (editor : ℕ)
    (f : GaugeConfigViewControllerViewModel → GaugeConfigViewControllerViewModel) (number : ℕ) :
    (parts.updateEditor editor f).gaugeEditors number =
      if number = editor then (parts.gaugeEditors editor).map f else parts.gaugeEditors number :=
  Function.update_apply _ _ _ _

/-- What is done to an editor is done by its session, where it waits for something. -/
theorem Tracked.updateEditor (h : Tracked number events loaded parts loads saves)
    (hopened : ¬ parts.opened ≤ number)
    {f : GaugeConfigViewControllerViewModel → GaugeConfigViewControllerViewModel}
    (hf : ∀ labels session, SessionOf number events loaded labels session →
      saves ≤ session.inFlight → (loads ≤ if session.editor.hasLoaded then 0 else 1) →
      ∃ labels' session', SessionOf number events loaded labels' session' ∧
        session'.editor = f session.editor ∧ saves' ≤ session'.inFlight ∧
        loads' ≤ if (f session.editor).hasLoaded then 0 else 1) :
    Tracked number events loaded (parts.updateEditor number f) loads' saves' := by
  refine ⟨fun hle => absurd hle hopened, fun editor' halive => ?_⟩
  rw [gaugeEditors_updateEditor, if_pos rfl] at halive
  obtain ⟨editor, heditor, rfl⟩ := Option.map_eq_some_iff.1 halive
  obtain ⟨labels, session, hsession, rfl, hinFlight, hload⟩ := h.alive editor heditor
  exact hf labels session hsession hinFlight hload

theorem Tracked.updateOther (h : Tracked number events loaded parts loads saves) {m : ℕ}
    (hm : m ≠ number)
    (f : GaugeConfigViewControllerViewModel → GaugeConfigViewControllerViewModel) :
    Tracked number events loaded (parts.updateEditor m f) loads saves :=
  h.congr ((gaugeEditors_updateEditor parts m f number).trans (if_neg hm.symm)) le_rfl

/-- The load of an editor completes once. -/
theorem Tracked.loadCompleted (h : Tracked number events loaded parts (loads + 1) saves)
    {gauges monitors : List EngineDataItem} (hlists : loaded gauges monitors) :
    Tracked number events loaded
      (parts.updateEditor number (·.loadCompleted gauges monitors)) loads saves := by
  refine h.updateEditor (fun hle => absurd (h.unopened hle).2.1 (Nat.succ_ne_zero loads))
    fun labels session hsession hinFlight hload => ?_
  cases hl : session.editor.hasLoaded with
  | true =>
    rw [hl, if_pos rfl] at hload
    exact absurd hload (Nat.not_succ_le_zero loads)
  | false =>
    obtain ⟨session', hsession', heq, hsame⟩ := hsession.load hl hlists
    rw [hl, if_neg Bool.false_ne_true] at hload
    exact ⟨_, session', hsession', heq, hinFlight.trans hsame.ge, Nat.le_of_succ_le_succ hload⟩

/-- A save of an editor completes once for each that it began. -/
theorem Tracked.saveCompleted (h : Tracked number events loaded parts loads (saves + 1)) :
    Tracked number events loaded (parts.updateEditor number (·.saveCompleted true)) loads
      saves := by
  refine h.updateEditor (fun hle => absurd (h.unopened hle).2.2.1 (Nat.succ_ne_zero saves))
    fun labels session hsession hinFlight hload => ?_
  obtain ⟨session', hsession', heq, hless⟩ :=
    hsession.saved (Nat.lt_of_lt_of_le (Nat.succ_pos saves) hinFlight)
  refine ⟨_, session', hsession', heq, ?_, ?_⟩
  · rw [hless]
    exact Nat.le_sub_one_of_lt (Nat.lt_of_succ_le hinFlight)
  · rw [GaugeConfigViewControllerViewModel.hasLoaded_saveCompleted]
    exact hload

/-- A closure that is called waits no more. -/
theorem Tracked.invoke {k : Closure} {value : Option Data}
    (h : Tracked number events loaded parts (loads + if k = .load number then 1 else 0)
      (saves + if k = .saved number then 1 else 0))
    (hload : ∀ data layout, k = .load number → value = some data →
      parts.layout.parseResponse data = .ok layout → loaded layout.gauges layout.monitors)
    (hk : k.invoke value parts = some parts') :
    Tracked number events loaded parts' loads saves := by
  have hless := h.mono (Nat.le_add_right loads _) (Nat.le_add_right saves _)
  cases k with
  | engineData =>
    obtain ⟨dashboard, -, rfl⟩ := Option.map_eq_some_iff.1 hk
    exact hless.congr rfl le_rfl
  | initializeThresholds =>
    cases value with
    | none =>
      obtain rfl := Option.some.inj hk
      exact hless
    | some data =>
      obtain rfl := Option.some.inj hk
      exact hless.congr rfl le_rfl
  | noOp =>
    obtain rfl := Option.some.inj hk
    exact hless
  | load m =>
    cases value with
    | none =>
      obtain rfl := Option.some.inj hk
      exact hless
    | some data =>
      simp only [Closure.invoke] at hk
      cases hparse : parts.layout.parseResponse data with
      | error trap =>
        rw [hparse] at hk
        cases hk
      | ok layout =>
        rw [hparse] at hk
        obtain rfl := Option.some.inj hk
        by_cases hm : m = number
        · subst hm
          rw [if_pos rfl] at h
          have hparts : Tracked m events loaded { parts with layout } (loads + 1) saves :=
            h.congr rfl le_rfl
          exact hparts.loadCompleted (hload data layout rfl rfl hparse)
        · have hparts : Tracked number events loaded { parts with layout } loads saves :=
            hless.congr rfl le_rfl
          exact hparts.updateOther hm _
  | saved m =>
    obtain rfl := Option.some.inj hk
    by_cases hm : m = number
    · subst hm
      rw [if_pos rfl] at h
      exact h.saveCompleted
    · exact hless.updateOther hm _

/-- The loads of an editor that a call asks for. -/
def loadsAsked (number : ℕ) : Option (Call Closure) → ℕ
  | some (.read _ (.load editor)) => if editor = number then 1 else 0
  | _ => 0

/-- The saves of an editor that a call asks for. -/
def savesAsked (number : ℕ) : Option (Call Closure) → ℕ
  | some (.write _ _ (.saved editor)) => if editor = number then 1 else 0
  | _ => 0

theorem asked_thresholdConfigManager_eq_zero (parts : Parts) (number : ℕ) :
    loadsAsked number parts.thresholdConfigManager.2 = 0 ∧
      savesAsked number parts.thresholdConfigManager.2 = 0 := by
  cases hcall : parts.thresholdConfigManager.2 with
  | none => exact ⟨rfl, rfl⟩
  | some call =>
    obtain ⟨-, rfl⟩ := thresholdConfigManager_call hcall
    exact ⟨rfl, rfl⟩

/-- The user's event of an editor is the session's. -/
theorem SessionOf.own (h : SessionOf number events loaded labels session)
    {label : EditorSession.Event} {session' : EditorSession}
    (hown : ownEvent number e = some label) (huser : isUser label = true)
    (hstep : session.step label = some session') :
    SessionOf number (events ++ [e]) loaded (labels ++ [label]) session' := by
  refine h.snoc hstep ?_ ?_ ?_
  · rw [List.filterMap_append, List.filterMap_cons_some hown, List.filterMap_nil,
      List.filter_cons_of_pos huser, List.filter_nil]
  · rintro _ rfl
    cases huser
  · rintro _ _ rfl
    cases huser

/-- An editor does what its user asks for. -/
theorem Tracked.own (h : Tracked number events loaded parts loads saves)
    {label : EditorSession.Event} {editor editor' : GaugeConfigViewControllerViewModel}
    (hown : ownEvent number e = some label) (huser : isUser label = true)
    (halive : parts.gaugeEditors number = some editor)
    (halive' : parts'.gaugeEditors number = some editor') (hopened : parts'.opened = parts.opened)
    (hloaded : editor'.hasLoaded = editor.hasLoaded)
    (hstep : ∀ session : EditorSession, session.editor = editor →
      ∃ session', session.step label = some session' ∧ session'.editor = editor' ∧
        session.inFlight + saves' ≤ session'.inFlight) :
    Tracked number (events ++ [e]) loaded parts' loads (saves + saves') := by
  refine ⟨fun hle => ?_, fun editor'' heditor => ?_⟩
  · have hnone := (h.unopened (hopened ▸ hle)).1
    rw [halive] at hnone
    cases hnone
  · obtain rfl := Option.some.inj (halive'.symm.trans heditor)
    obtain ⟨labels, session, hsession, heq, hinFlight, hload⟩ := h.alive editor halive
    obtain ⟨session', hs, heq', hinFlight'⟩ := hstep session heq
    refine ⟨_, session', hsession.own hown huser hs, heq', ?_, ?_⟩
    · exact (Nat.add_le_add_right hinFlight saves').trans hinFlight'
    · rw [hloaded]
      exact hload

theorem inFlight_recordEdit (session : EditorSession) (edit : LayoutEdit) :
    (session.recordEdit edit).inFlight = session.inFlight := by
  unfold EditorSession.recordEdit
  split_ifs
  · rfl
  · rfl

/-- The editor that is opened is a session that has its load before it. -/
theorem Tracked.openEditor (h : Tracked number events loaded parts loads saves)
    (gaugeTables : ℕ → ℕ → ℕ) :
    Tracked number events loaded { parts with
      gaugeEditors := Function.update parts.gaugeEditors parts.opened (some {})
      gaugeTables
      opened := parts.opened + 1 }
      (loads + loadsAsked number (some (.read .layoutConfig (.load parts.opened)))) saves := by
  by_cases hnumber : parts.opened = number
  · subst hnumber
    obtain ⟨hnone, rfl, rfl, hown⟩ := h.unopened le_rfl
    refine ⟨fun hle => absurd hle (Nat.not_succ_le_self _), fun editor heditor => ?_⟩
    have hempty : Function.update parts.gaugeEditors parts.opened (some {}) parts.opened =
        some {} := Function.update_self _ _ _
    obtain rfl := Option.some.inj (hempty.symm.trans heditor)
    refine ⟨[], {}, ⟨.nil, ?_, by simp, by simp⟩, rfl, le_rfl, ?_⟩
    · rw [hown]
      rfl
    · exact (Nat.zero_add _).le.trans (if_pos rfl).le
  · have hasked : loadsAsked number (some (.read .layoutConfig (.load parts.opened))) = 0 :=
      if_neg hnumber
    rw [hasked]
    exact h.congr (Function.update_of_ne (Ne.symm hnumber) _ _) (Nat.le_succ _)

/-- **An input** is the user's event of one session at most, and asks for what it waits for. -/
theorem Tracked.perform {input : Input} {call : Option (Call Closure)}
    (h : Tracked number events loaded parts loads saves)
    (hp : Performs uikit parts input parts' call) :
    Tracked number (events ++ [.input input]) loaded parts' (loads + loadsAsked number call)
      (saves + savesAsked number call) := by
  cases hp with
  | display hpage hdashboard => exact (h.snoc rfl).congr rfl le_rfl
  | noCell cell hrow => exact h.snoc rfl
  | cell cell hrow | noThreshold hrow hthreshold | opensPage hrow hthreshold =>
    rw [(asked_thresholdConfigManager_eq_zero parts number).1,
      (asked_thresholdConfigManager_eq_zero parts number).2]
    exact (h.snoc rfl).congr rfl le_rfl
  | listDidAppear => exact h.snoc rfl
  | noItem hrow => exact h.snoc rfl
  | pageWillAppear hpage happear => exact (h.snoc rfl).congr rfl le_rfl
  | editsThreshold hevent hpage hedit => exact (h.snoc rfl).congr rfl le_rfl
  | opensEditor => exact (h.snoc rfl).openEditor _
  | reloadsTable heditor => exact (h.snoc rfl).congr rfl le_rfl
  | @editsGauges m edit editor editor' heditor hedit =>
    have hperform := GaugeConfigViewController.perform_eq_some hedit
    by_cases hm : m = number
    · subst hm
      refine h.own (if_pos rfl) rfl heditor (Function.update_self _ _ _) rfl ?_
        fun session heq => ?_
      · rcases GaugeConfigViewControllerViewModel.perform_cases hperform with
          rfl | ⟨_, _, rfl⟩ <;> rfl
      · have hstep : session.step (.edit edit.layoutEdit) =
            some { session.recordEdit edit.layoutEdit with editor := editor' } := by
          rw [EditorSession.step, heq, hperform]
        exact ⟨_, hstep, rfl, (inFlight_recordEdit session edit.layoutEdit).ge⟩
    · have hown : ownEvent number (.input (.editGauges m edit)) = none := if_neg hm
      exact (h.snoc hown).congr (Function.update_of_ne (Ne.symm hm) _ _) le_rfl
  | @savesNothing m editor heditor hc =>
    by_cases hm : m = number
    · subst hm
      refine h.own (if_pos rfl) rfl heditor heditor rfl rfl fun session heq => ?_
      have hstep : session.step .save = some session := by
        rw [EditorSession.step, heq, GaugeConfigViewControllerViewModel.save_of_not_changed hc,
          ← heq]
      exact ⟨session, hstep, heq, le_rfl⟩
    · have hown : ownEvent number (.input (.saveGauges m)) = none := if_neg hm
      exact h.snoc hown
  | @saves m editor heditor hc =>
    by_cases hm : m = number
    · subst hm
      have hasked : ∀ data, savesAsked m (some (.write data .layoutConfig (.saved m))) = 1 :=
        fun data => if_pos rfl
      rw [hasked]
      refine h.own (if_pos rfl) rfl heditor (Function.update_self _ _ _) rfl rfl
        fun session heq => ?_
      have hstep : session.step .save = some { session with
          editor := { editor with isSaving := true }
          inFlight := session.inFlight + 1
          marked := some (.of editor.gauges editor.monitors) } := by
        rw [EditorSession.step, heq, GaugeConfigViewControllerViewModel.save_of_changed hc]
      exact ⟨_, hstep, rfl, le_rfl⟩
    · have hasked : ∀ data, savesAsked number (some (.write data .layoutConfig (.saved m))) = 0 :=
        fun data => if_neg hm
      have hown : ownEvent number (.input (.saveGauges m)) = none := if_neg hm
      rw [hasked]
      exact (h.snoc hown).congr (Function.update_of_ne (Ne.symm hm) _ _) le_rfl
  | releasesEditor m =>
    have hown : ownEvent number (.input (.releaseGaugeEditor m)) = none := rfl
    by_cases hm : m = number
    · subst hm
      have hnone : Function.update parts.gaugeEditors m none m = none :=
        Function.update_self _ _ _
      refine ⟨fun hle => ?_, fun editor halive => ?_⟩
      · exact ⟨hnone, ((h.snoc hown).unopened hle).2⟩
      · cases hnone.symm.trans halive
    · exact (h.snoc hown).congr (Function.update_of_ne (Ne.symm hm) _ _) le_rfl
  | shutdown => exact h.snoc rfl

/-! ## What waits in the Bluetooth manager -/

/-- The loads of an editor that the Bluetooth manager has still to complete. -/
def awaitedLoads (number : ℕ) (s : Program) : ℕ :=
  (s.pendingReads .layoutConfig).count (.load number)

/-- The saves of an editor that it has still to complete. -/
def awaitedSaves (number : ℕ) (s : Program) : ℕ :=
  (s.waitingHandlers .layoutConfig).count (.saved number)

theorem readBy_of_pending (hs : Settled s) {c : Characteristics} {k : Closure}
    (h : k ∈ s.pendingReads c) : ReadBy c k := by
  cases hh : s.handler with
  | none =>
    rw [System.pendingReads, hh] at h
    exact hs.held.reads c k h
  | some handler =>
    cases handler with
    | answering c' value rest =>
      rw [System.pendingReads, hh] at h
      dsimp only at h
      split_ifs at h with hc
      · exact hc ▸ (hs.held.running _ hh).2 k h
      · exact hs.held.reads c k h
    | _ =>
      rw [System.pendingReads, hh] at h
      exact hs.held.reads c k h

theorem saved_of_waiting (hs : Settled s) {c : Characteristics} {k : Closure}
    (h : k ∈ s.waitingHandlers c) : c = .layoutConfig ∧ ∃ editor, k = .saved editor := by
  refine hs.accounted.pending c k ?_
  unfold System.waitingHandlers at h
  split_ifs at h with hack
  · exact List.mem_of_mem_tail h
  · exact h

/-- The read that is completed waits no more. -/
theorem loads_of_takes (number : ℕ) (hs : Settled s) {c : Characteristics} {k : Closure}
    (h : System.TakesRead c k s u) :
    awaitedLoads number s = awaitedLoads number u + (if k = .load number then 1 else 0) ∧
      awaitedSaves number s = awaitedSaves number u + (if k = .saved number then 1 else 0) := by
  have hk : ReadBy c k := readBy_of_pending hs (h.reads ▸ List.mem_cons_self)
  refine ⟨?_, ?_⟩
  · by_cases hc : c = .layoutConfig
    · subst hc
      rw [awaitedLoads, h.reads, List.count_cons, awaitedLoads]
      simp only [beq_iff_eq]
    · rw [awaitedLoads, awaitedLoads, h.others _ (Ne.symm hc), if_neg, add_zero]
      rintro rfl
      cases hk
      exact hc rfl
  · rw [awaitedSaves, awaitedSaves, h.writes, if_neg, add_zero]
    rintro rfl
    cases hk

/-- The save that is acknowledged waits no more. -/
theorem saves_of_takes (number : ℕ) (hs : Settled s) {c : Characteristics} {k : Closure}
    (h : System.TakesHandler c k s u) :
    awaitedLoads number s = awaitedLoads number u + (if k = .load number then 1 else 0) ∧
      awaitedSaves number s = awaitedSaves number u + (if k = .saved number then 1 else 0) := by
  obtain ⟨rfl, editor, rfl⟩ := saved_of_waiting hs (h.writes ▸ List.mem_cons_self)
  refine ⟨?_, ?_⟩
  · rw [awaitedLoads, awaitedLoads, h.reads, if_neg (by simp), add_zero]
  · rw [awaitedSaves, h.writes, List.count_cons, awaitedSaves]
    simp only [beq_iff_eq]

/-- **An event of Bluetooth** completes a load or a save at most, which waits no more. -/
theorem Tracked.bluetooth (hs : Settled s) (hcall : isCall event = false)
    (hu : System.step describe Closure.invoke s event = some u)
    (hload : ∀ data layout, s.entered describe event = some (.load number, some data) →
      s.app.layout.parseResponse data = .ok layout → loaded layout.gauges layout.monitors)
    (h : Tracked number events loaded s.app (awaitedLoads number s) (awaitedSaves number s)) :
    Tracked number events loaded u.app (awaitedLoads number u) (awaitedSaves number u) := by
  have hne : ∀ call, event ≠ .call call := by
    rintro call rfl
    cases hcall
  have happ := System.app_of_step hu
  rcases System.waiting_cases hne hu with ⟨hsame, hlistener⟩ | ⟨c, k, value, hentered, htakes⟩ |
    ⟨c, k, value, hentered, htakes⟩
  · have hloads : awaitedLoads number u = awaitedLoads number s :=
      congrArg (List.count _) (hsame.reads _)
    have hsaves : awaitedSaves number u = awaitedSaves number s :=
      congrArg (List.count _) (hsame.writes _)
    rw [hloads, hsaves]
    cases hentered : s.entered describe event with
    | none =>
      rw [hentered] at happ
      rw [← Option.some.inj happ]
      exact h
    | some call =>
      obtain ⟨k, value⟩ := call
      obtain rfl : k = .engineData := by
        rcases hlistener k value hentered with ⟨c, hk⟩ | ⟨c, value, rest, hh, hk⟩
        · rw [queue_listeners hs] at hk
          split_ifs at hk
          · exact List.mem_singleton.1 hk
          · cases hk
        · rw [hs.notified c value rest hh] at hk
          cases hk
      rw [hentered] at happ
      exact Tracked.invoke (k := .engineData) h (fun _ _ hk => by cases hk) happ
  · rw [hentered] at happ
    obtain ⟨hloads, hsaves⟩ := loads_of_takes number hs htakes
    rw [hloads, hsaves] at h
    refine h.invoke (fun data layout hk hdata => hload data layout ?_) happ
    exact hentered.trans (congrArg some (Prod.ext hk hdata))
  · rw [hentered] at happ
    obtain ⟨hloads, hsaves⟩ := saves_of_takes number hs htakes
    rw [hloads, hsaves] at h
    refine h.invoke (fun data layout hk hdata => hload data layout ?_) happ
    exact hentered.trans (congrArg some (Prod.ext hk hdata))

theorem asked_read {c : Characteristics} {k : Closure} (hk : ReadBy c k) (number : ℕ) :
    loadsAsked number (some (.read c k)) = (if k = .load number then 1 else 0) ∧
      (if k = .saved number then 1 else 0) = savesAsked number (some (.read c k)) := by
  cases hk with
  | load editor => exact ⟨by simp [loadsAsked], rfl⟩
  | _ => exact ⟨rfl, rfl⟩

/-- **A call** that an input ends with waits, is answered at once, or is refused. -/
theorem Tracked.call (hidle : s.Idle) {call : Call Closure} (hcall : Asked call)
    (ht : System.step describe Closure.invoke s (.call call) = some t)
    (hload : ∀ data layout, s.entered describe (.call call) = some (.load number, some data) →
      s.app.layout.parseResponse data = .ok layout → loaded layout.gauges layout.monitors)
    (h : Tracked number events loaded s.app (awaitedLoads number s + loadsAsked number (some call))
      (awaitedSaves number s + savesAsked number (some call))) :
    Tracked number events loaded t.app (awaitedLoads number t) (awaitedSaves number t) := by
  have happ := System.app_of_step ht
  have hreact : s.call Closure.invoke call = some t := (System.react_of_step ht).2
  have hread : ∀ c k, call = .read c k → ReadBy c k →
      Tracked number events loaded t.app (awaitedLoads number t) (awaitedSaves number t) := by
    rintro c k rfl hk
    obtain ⟨hwrites, hothers, hpending⟩ := System.waiting_read hidle hreact
    have hsaves : awaitedSaves number t = awaitedSaves number s :=
      congrArg (List.count _) (hwrites _)
    obtain ⟨hloadsAsked, hsaved⟩ := asked_read hk number
    rw [hsaves]
    cases hentered : s.entered describe (.call (.read c k)) with
    | none =>
      rw [hentered] at happ
      rw [← Option.some.inj happ]
      refine h.mono ?_ (Nat.le_add_right _ _)
      by_cases hc : c = .layoutConfig
      · subst hc
        rcases hpending with hsame | ⟨-, hsnoc⟩
        · rw [awaitedLoads, hsame]
          exact Nat.le_add_right _ _
        · rw [awaitedLoads, hsnoc, List.count_append, List.count_singleton, hloadsAsked]
          simp [awaitedLoads]
      · rw [awaitedLoads, hothers _ (Ne.symm hc)]
        exact Nat.le_add_right _ _
    | some called =>
      rw [hentered] at happ
      obtain ⟨value, -, rfl⟩ := Option.map_eq_some_iff.1 hentered
      have hsame : t.pendingReads c = s.pendingReads c :=
        hpending.resolve_right fun hnone => (by cases hnone.1.symm.trans hentered)
      have hloads : awaitedLoads number t = awaitedLoads number s := by
        by_cases hc : c = .layoutConfig
        · rw [awaitedLoads, ← hc, hsame, hc, awaitedLoads]
        · rw [awaitedLoads, hothers _ (Ne.symm hc), awaitedLoads]
      rw [hloadsAsked] at h
      rw [hloads]
      refine Tracked.invoke (by rw [hsaved]; exact h) (fun data layout hk hdata => ?_) happ
      exact hload data layout (hentered.trans (congrArg some (Prod.ext hk hdata)))
  cases hcall with
  | initializeThresholds => exact hread _ _ rfl .initializeThresholds
  | noOp => exact hread _ _ rfl .noOp
  | load editor => exact hread _ _ rfl (.load editor)
  | save gauges monitors editor =>
    rw [← Option.some.inj happ]
    obtain rfl := Option.some.inj hreact
    obtain ⟨hreads, -, hwaiting⟩ := System.waiting_write (c := .layoutConfig) hidle
      (some (.ofBytes (GaugeLayoutConfigManager.constructData gauges monitors) fun _ => 0))
      (.saved editor)
    refine h.mono ?_ ?_
    · rw [awaitedLoads, hreads]
      exact Nat.le_add_right _ _
    · rcases hwaiting with hsame | hsnoc
      · rw [awaitedSaves, hsame]
        exact Nat.le_add_right _ _
      · rw [awaitedSaves, hsnoc, List.count_append, List.count_singleton]
        simp [awaitedSaves, savesAsked]
  | shutdown =>
    rw [← Option.some.inj happ]
    obtain rfl := Option.some.inj hreact
    have hsame := System.waiting_writeValue (c := .shutdown) s none false
    refine h.mono ?_ ?_
    · rw [awaitedLoads, hsame.reads]
      exact Nat.le_add_right _ _
    · rw [awaitedSaves, hsame.writes]
      exact Nat.le_add_right _ _

/-- The input that ends with a read leaves the layout manager as it is. -/
theorem layout_of_performs {input : Input} {c : Characteristics} {k : Closure}
    (h : Performs uikit parts input parts' (some (.read c k))) : parts'.layout = parts.layout := by
  generalize hcall : some (Call.read c k) = call at h
  cases h with
  | saves heditor hc => cases hcall
  | _ => rfl

theorem tracked_step (hs : Settled s) (h : step uikit describe s e = some t)
    (hload : ∀ data layout, called uikit describe s e = some (.load number, some data) →
      s.app.layout.parseResponse data = .ok layout → loaded layout.gauges layout.monitors)
    (htracked : Tracked number events loaded s.app (awaitedLoads number s)
      (awaitedSaves number s)) :
    Tracked number (events ++ [e]) loaded t.app (awaitedLoads number t)
      (awaitedSaves number t) := by
  rcases step_cases h with ⟨event, u, rfl, hcall, hu, rfl⟩ | ⟨input, parts, rfl, -, hperform, rfl⟩ |
    ⟨input, parts, call, rfl, hidle, hperform, h⟩
  · obtain ⟨dashboard, ht⟩ := observeState_eq u event
    rw [ht]
    exact ((htracked.bluetooth hs hcall hu hload).snoc rfl).congr rfl le_rfl
  · exact htracked.perform (perform_cases hperform)
  · refine Tracked.call (s := { s with app := parts }) hidle (asked_of_perform hperform) h
      (fun data layout hentered hparse => ?_) (htracked.perform (perform_cases hperform))
    cases call with
    | read c k =>
      have hcalled : called uikit describe s (.input input) = some (.load number, some data) := by
        rw [called, hperform]
        exact hentered
      rw [layout_of_performs (perform_cases hperform)] at hparse
      exact hload data layout hcalled hparse
    | _ => cases hentered

/-! ## The lists that are loaded -/

/-- An update of a characteristic brought the value. -/
def Delivered (events : List Event) (uuid : CBUUID) (value : Option Data) : Prop :=
  ∀ data ∈ value, ∃ ch : CBCharacteristic, ch.uuid = uuid ∧
    .bluetooth (.didUpdateValueFor ch (some data) none) ∈ events

/-- The load of an editor completes with the lists: in the course of the run its closure is called,
with a value that an update of the layout brought, and the layout manager parses that value to
them. -/
def Loaded (uikit : UIKit) (describe : CBUUID → String) (number : ℕ) (events : List Event)
    (gauges monitors : List EngineDataItem) : Prop :=
  ∃ before e after s data, events = before ++ e :: after ∧
    Run (ofPartial (step uikit describe)) launch before s ∧
    called uikit describe s e = some (.load number, some data) ∧
    Delivered (before ++ [e]) Characteristics.layoutConfig.asCBUUID (some data) ∧
    s.app.layout.parseResponse data = .ok { gauges, monitors }

theorem Loaded.snoc {gauges monitors : List EngineDataItem}
    (h : Loaded uikit describe number events gauges monitors) (e : Event) :
    Loaded uikit describe number (events ++ [e]) gauges monitors := by
  obtain ⟨before, e', after, s, data, rfl, hkept⟩ := h
  exact ⟨before, e', after ++ [e], s, data, by simp, hkept⟩

/-- The value that a load is called with was brought by an update of the layout. -/
theorem delivered_of_load (h : Run (ofPartial (step uikit describe)) launch events s)
    (hs : step uikit describe s e = some t) {value : Option Data}
    (hcalled : called uikit describe s e = some (.load number, value)) :
    Delivered (events ++ [e]) Characteristics.layoutConfig.asCBUUID value := by
  have hsettled := settled_run h
  have hbrought : ∀ event, .bluetooth event ∈ events ++ [e] → ∀ brought ∈ event.value,
      Delivered (events ++ [e]) brought.1 brought.2 := by
    rintro event hmem ⟨uuid, value⟩ hvalue data hdata
    obtain rfl : value = some data := hdata
    cases event with
    | didUpdateValueFor ch value error =>
      cases error with
      | none =>
        cases hvalue
        exact ⟨ch, rfl, hmem⟩
      | some error => cases hvalue
    | _ => cases hvalue
  have hvalued : System.Valued (Delivered (events ++ [e])) s :=
    valued_run h (fun _ _ hdata => by cases hdata) fun event hmem =>
      hbrought event (List.mem_append_left _ hmem)
  have hof : ∀ event, (∀ c k, event = .call (.read c k) → ReadBy c k) →
      (∀ brought ∈ event.value, Delivered (events ++ [e]) brought.1 brought.2) →
      s.entered describe event = some (.load number, value) →
      Delivered (events ++ [e]) Characteristics.layoutConfig.asCBUUID value := by
    intro event hread he hentered
    rcases System.entered_valued hvalued hsettled.accounted.discovered he hentered with
      ⟨c, hfor, hdelivered⟩ | ⟨ch, error, c, -, hpending, -⟩
    · cases readBy_of_calledFor hsettled (by simp) hread hfor
      exact hdelivered
    · obtain ⟨-, editor, hk⟩ := hsettled.accounted.pending c _ hpending
      cases hk
  rcases step_cases hs with ⟨event, u, rfl, hcall, -, -⟩ | ⟨input, parts, rfl, -, hperform, -⟩ |
    ⟨input, parts, call, rfl, -, hperform, -⟩
  · refine hof event ?_ (hbrought event (by simp)) hcalled
    rintro c k rfl
    cases hcall
  · rw [called, hperform] at hcalled
    cases hcalled
  · rw [called, hperform] at hcalled
    refine hof (.call call) ?_ (fun _ hbrought => by cases hbrought) hcalled
    rintro c k hc
    obtain rfl := Bluetooth.Event.call.inj hc
    cases asked_of_perform hperform with
    | initializeThresholds => exact .initializeThresholds
    | noOp => exact .noOp
    | load editor => exact .load editor

theorem tracked_launch :
    Tracked number [] loaded launch.app (awaitedLoads number launch) (awaitedSaves number launch) :=
  ⟨fun _ => ⟨rfl, rfl, rfl, rfl⟩, fun _ h => by cases h⟩

theorem tracked_run (h : Run (ofPartial (step uikit describe)) launch events s) :
    Tracked number events (Loaded uikit describe number events) s.app (awaitedLoads number s)
      (awaitedSaves number s) := by
  induction h with
  | nil => exact tracked_launch
  | @snoc events e s t hrun hs ih =>
    refine tracked_step (settled_run hrun) hs (fun data layout hcalled hparse => ?_)
      (ih.imp fun gauges monitors hlists => hlists.snoc e)
    exact ⟨events, e, [], s, data, rfl, hrun, hcalled, delivered_of_load hrun hs hcalled, hparse⟩

/-- **Each editor is a session.** In every run of the program, an editor that is alive is what a
session of its own comes to: the user's events are those of this editor, in their order, its load
completes once at most, with the lists that its closure was called with, as the layout manager
parsed them of a value that an update of the layout brought, and no save completes that it did not
begin. Whatever the other editors do, which share the layout manager and the Bluetooth manager with
it, is not seen. -/
theorem editor_session (h : Run (ofPartial (step uikit describe)) launch events s)
    (halive : s.app.gaugeEditors number = some editor) :
    ∃ labels session,
      SessionOf number events (Loaded uikit describe number events) labels session ∧
        session.editor = editor := by
  obtain ⟨labels, session, hsession, heq, -⟩ := (tracked_run h).alive editor halive
  exact ⟨labels, session, hsession, heq⟩

/-- Two editors are opened, and load an empty layout; one adds a gauge and saves it, the other is
left. -/
def twoEditors : List Event :=
  let peripheral : CBPeripheral := ⟨0⟩
  let characteristic : CBCharacteristic :=
    ⟨peripheral, 0, Characteristics.layoutConfig.asCBUUID, false⟩
  [.bluetooth (.didDiscover peripheral), .bluetooth (.didConnect peripheral),
    .bluetooth (.didDiscoverCharacteristicsFor peripheral (some [characteristic])),
    .input .openGaugeEditor, .input .openGaugeEditor,
    .bluetooth (.didUpdateValueFor characteristic
      (some (.ofBytes [1, 0] fun _ => 0)) none),
    .bluetooth .callbackReturned, .bluetooth .callbackReturned,
    .input (.editGauges 0 (.addItem .boost ⟨0, 0⟩)), .input (.saveGauges 0),
    .input (.releaseGaugeEditor 1),
    .bluetooth (.didWriteValueFor characteristic none)]

theorem editor_session_twoEditors :
    ∃ s editor, Run (ofPartial (step .clamping CBUUID.uuidString)) launch twoEditors s ∧
      s.app.gaugeEditors 0 = some editor ∧ ∃ labels session,
        SessionOf 0 twoEditors (Loaded .clamping CBUUID.uuidString 0 twoEditors) labels session ∧
          session.editor = editor := by
  have hrun : Run (ofPartial (step .clamping CBUUID.uuidString)) launch twoEditors _ :=
    Run.of_foldlM rfl
  exact ⟨_, _, hrun, rfl, editor_session hrun rfl⟩

end

end Rx7.Program
