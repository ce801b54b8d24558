import Rx7.Bluetooth.Connection
import Rx7.Bluetooth.Contract
import Rx7.Layout.Names

/-!
# The layout store

The layout is kept by the device. `setGauges` writes it there, and `readGauges` asks the Bluetooth
manager for it, which answers at once from the cached value of a characteristic that notifies, and
otherwise by a value update of the device. `LayoutStore` is the layout manager over the Bluetooth
manager, with the layout that the device holds.

A write leaves the cached value as it is. So a layout that was written and acknowledged is what is
read exactly where each read that is answered from the cache comes behind an update, or finds what
named the same items before (`read_your_writes_iff`).
-/

namespace Rx7

open Bluetooth Transition

/-- The closures that are handed to the Bluetooth manager: those of `readGauges` and `setGauges`,
and those of other parts of the app. -/
inductive StoreClosure
  | read (identifier : ℕ)
  | saved (gauges monitors : List EngineDataItem)
  | other (identifier : ℕ)

/-- What the completion handler of a `readGauges` was called with. -/
structure Delivery where
  identifier : ℕ
  gauges : List EngineDataItem
  monitors : List EngineDataItem

/-- The layout manager, with a record of its deliveries. -/
structure LayoutClient where
  layout : GaugeLayoutConfigManager := {}
  deliveries : List Delivery := []

/-- What the closures do when they are called with a characteristic's value. -/
def StoreClosure.invoke : StoreClosure → Option Data → LayoutClient → Option LayoutClient
  | .read _, none, app => some app
  | .read identifier, some data, app =>
    match app.layout.parseResponse data with
    | .ok layout => some {
        layout
        deliveries := app.deliveries ++ [⟨identifier, layout.gauges, layout.monitors⟩] }
    | .error _ => none
  | .saved .., _, app | .other _, _, app => some app

structure LayoutStore where
  system : System StoreClosure LayoutClient := { app := {} }
  /-- The layout that the device holds. -/
  stored : List UInt8 := []
  /-- How often `readGauges` was called. -/
  issued : ℕ := 0

namespace LayoutStore

inductive Event
  | bluetooth (event : Bluetooth.Event StoreClosure)
  | readGauges
  | setGauges (gauges monitors : List EngineDataItem)
  /-- The device stores a layout: that of a write, or another. -/
  | deviceStores (bytes : List UInt8)

/-- The event is not the layout manager's: its closures are those of other parts of the app. -/
def isForeign : Bluetooth.Event StoreClosure → Bool
  | .call (.read _ (.other _)) | .call (.subscribe _ (.other _)) | .call (.write _ _ (.other _)) =>
    true
  | .call (.writeValue ..) => true
  | .call _ => false
  | _ => true

/-- `GaugeLayoutConfigManager.readGauges`. -/
def readGauges (s : LayoutStore) : Option LayoutStore :=
  (s.system.read StoreClosure.invoke .layoutConfig (.read s.issued)).map fun system =>
    { s with system, issued := s.issued + 1 }

/-- `GaugeLayoutConfigManager.setGauges`. -/
def setGauges (s : LayoutStore) (gauges monitors : List EngineDataItem) : LayoutStore :=
  let rawData := GaugeLayoutConfigManager.constructData gauges monitors
  let system := { s.system with app := { s.system.app with layout := { gauges, monitors } } }
  { s with
    system := system.write (some (.ofBytes rawData fun _ => 0)) .layoutConfig
      (.saved gauges monitors) }

/-- One event; a trap leaves no state. The layout manager is called at any moment, also while a
closure is running. -/
def step (describe : CBUUID → String) (s : LayoutStore) : Event → Option LayoutStore
  | .bluetooth event =>
    if isForeign event then
      (s.system.step describe StoreClosure.invoke event).map fun system => { s with system }
    else none
  | .readGauges => s.readGauges
  | .setGauges gauges monitors => some (s.setGauges gauges monitors)
  | .deviceStores bytes => some { s with stored := bytes }

/-! ## What the closures are called with -/

/-- What the app hands to the Bluetooth manager: the closures of the `n` calls of `readGauges` to
reads of the layout alone, and that of `setGauges` with what the encoder wrote. Of the values of
updates of the layout `V` is known. -/
def contract (V : Option Data → Prop) (n : ℕ) : Contract StoreClosure where
  handler closure := ∀ identifier, closure ≠ .read identifier
  read c closure := ∀ identifier, closure = .read identifier → c = .layoutConfig ∧ identifier < n
  written data handler := ∀ gauges monitors, handler = some (.saved gauges monitors) →
    data = .ofBytes (GaugeLayoutConfigManager.constructData gauges monitors) fun _ => 0
  value c value := c = .layoutConfig → V value

/-- The value is a layout. -/
def Carries (bytes : List UInt8) (value : Option Data) : Prop :=
  ∃ beyond, value = some (.ofBytes bytes beyond)

section

variable {describe : CBUUID → String} {s t : LayoutStore} {e : Event}
  {V : Option Data → Prop}

/-- The device's layout stays as it is, and the updates of it carry it. -/
def Settled (s : LayoutStore) : Event → Prop
  | .deviceStores bytes => bytes = s.stored
  | .bluetooth (.didUpdateValueFor characteristic value none) =>
    characteristic.uuid = Characteristics.layoutConfig.asCBUUID → Carries s.stored value
  | _ => True

/-- The characteristic was updated. -/
def Updated (ch : CBCharacteristic) (es : List Event) : Prop :=
  ∃ value, .bluetooth (.didUpdateValueFor ch value none) ∈ es

/-- A read behind the events `es`, in the state `s`, is not answered from the cache, or the
characteristic was updated in them, or what was cached for it in the state `start` before them names
the lists already; a value with no more than a header leaves the manager's lists. -/
def ReadsWritten (start : LayoutStore) (gauges monitors : List EngineDataItem) (es : List Event)
    (s : LayoutStore) : Event → Prop
  | .readGauges => ∀ ch,
    s.system.manager.characteristicMap Characteristics.layoutConfig.asCBUUID = some ch →
    s.system.manager.connectedPeripheral.isSome = true → ch.notify = true → ¬ Updated ch es →
    ∀ value ∈ start.system.values ch,
      if 2 < value.count then
        GaugeLayoutConfigManager.Names (GaugeLayoutConfigManager.behindHeader value) gauges monitors
      else s.system.app.layout = { gauges, monitors }
  | _ => True

theorem invoke_of_ne_read {closure : StoreClosure} {value : Option Data}
    {app app' : LayoutClient} (hc : ∀ identifier, closure ≠ .read identifier)
    (h : closure.invoke value app = some app') : app' = app := by
  cases closure with
  | read identifier => exact (hc identifier rfl).elim
  | saved gauges monitors | other identifier => exact (Option.some.inj h).symm

theorem invoke_read {identifier : ℕ} {data : Data} {app app' : LayoutClient}
    (h : StoreClosure.invoke (.read identifier) (some data) app = some app') :
    ∃ layout, app.layout.parseResponse data = .ok layout ∧
      app'.deliveries = app.deliveries ++ [⟨identifier, layout.gauges, layout.monitors⟩] := by
  simp only [StoreClosure.invoke] at h
  split at h
  · rename_i layout hlayout
    obtain rfl := Option.some.inj h
    exact ⟨layout, hlayout, rfl⟩
  · cases h

theorem meets_of_isForeign {event : Bluetooth.Event StoreClosure} (hf : isForeign event = true)
    (hv : ∀ ch value, event = .didUpdateValueFor ch value none →
      ch.uuid = Characteristics.layoutConfig.asCBUUID → V value) (n : ℕ) :
    (contract V n).Meets event := by
  cases event with
  | call call =>
    cases call with
    | read c closure =>
      cases closure with
      | other identifier => exact fun n h => (by cases h)
      | read identifier | saved gauges monitors => cases hf
    | subscribe c closure =>
      cases closure with
      | other identifier => exact fun n h => (by cases h)
      | read identifier | saved gauges monitors => cases hf
    | write data c handler =>
      cases handler with
      | other identifier => exact ⟨fun n h => (by cases h), fun g m h => (by cases h)⟩
      | read identifier | saved gauges monitors => cases hf
    | writeValue data c withResponse => exact fun g m h => (by cases h)
  | didUpdateValueFor ch value error =>
    cases error with
    | none =>
      rintro c hc rfl
      exact hv ch value rfl ((System.updatedCharacteristic_eq_some_iff (by decide) _).1 hc)
    | some error => trivial
  | _ => trivial

/-! ## One step -/

/-- **What a step can do**: a step of the system, and more where the layout manager is called. -/
theorem step_cases (h : s.step describe e = some t) :
    (∃ event system, e = .bluetooth event ∧ isForeign event = true ∧
      s.system.step describe StoreClosure.invoke event = some system ∧ t = { s with system }) ∨
    (∃ system, e = .readGauges ∧ s.system.step describe StoreClosure.invoke
      (.call (.read .layoutConfig (.read s.issued))) = some system ∧
      t = { s with system, issued := s.issued + 1 }) ∨
    (∃ gauges monitors, e = .setGauges gauges monitors ∧ t = s.setGauges gauges monitors) ∨
    (∃ bytes, e = .deviceStores bytes ∧ t = { s with stored := bytes }) := by
  cases e with
  | bluetooth event =>
    simp only [step] at h
    split_ifs at h with hf
    obtain ⟨system, hsystem, rfl⟩ := Option.map_eq_some_iff.1 h
    exact .inl ⟨event, system, rfl, hf, hsystem, rfl⟩
  | readGauges =>
    obtain ⟨system, hsystem, rfl⟩ := Option.map_eq_some_iff.1 h
    exact .inr (.inl ⟨system, rfl, hsystem, rfl⟩)
  | setGauges gauges monitors =>
    exact .inr (.inr (.inl ⟨gauges, monitors, rfl, (Option.some.inj h).symm⟩))
  | deviceStores bytes => exact .inr (.inr (.inr ⟨bytes, rfl, (Option.some.inj h).symm⟩))

/-- What the calls of a step did to the deliveries: nothing, or they delivered the layout that a
value of `V` decodes to. -/
def Delivers (V : Option Data → Prop) (s t : LayoutStore) : Prop :=
  t.system.app.deliveries = s.system.app.deliveries ∨
    ∃ identifier < s.issued, ∃ data layout, V (some data) ∧
      s.system.app.layout.parseResponse data = .ok layout ∧
      t.system.app.deliveries =
        s.system.app.deliveries ++ [⟨identifier, layout.gauges, layout.monitors⟩]

theorem delivers_of_calls {system : System StoreClosure LayoutClient}
    (h : s.system.Calls StoreClosure.invoke (contract V s.issued) system) :
    Delivers V s { s with system } := by
  rcases h with happ | ⟨closure, value, happ, hclosure⟩
  · exact .inl (congrArg LayoutClient.deliveries happ)
  · by_cases hread : ∃ identifier, closure = .read identifier
    · obtain ⟨identifier, rfl⟩ := hread
      rcases hclosure with hclosure | ⟨c, hclosure, hv⟩
      · exact (hclosure identifier rfl).elim
      · obtain ⟨hc, hlt⟩ := hclosure identifier rfl
        cases value with
        | none =>
          exact .inl (congrArg LayoutClient.deliveries (Option.some.inj happ).symm)
        | some data =>
          obtain ⟨layout, hparse, hdeliveries⟩ := invoke_read happ
          exact .inr ⟨identifier, hlt, data, layout, hv hc, hparse, hdeliveries⟩
    · exact .inl (congrArg LayoutClient.deliveries (invoke_of_ne_read (not_exists.1 hread) happ))

/-- An event of another part of the app delivers at most what the value of an update decodes to. -/
theorem foreign_step {event : Bluetooth.Event StoreClosure}
    {system : System StoreClosure LayoutClient} (hs : s.system.Held (contract V s.issued))
    (hf : isForeign event = true)
    (hv : ∀ ch value, event = .didUpdateValueFor ch value none →
      ch.uuid = Characteristics.layoutConfig.asCBUUID → V value)
    (h : s.system.step describe StoreClosure.invoke event = some system) :
    system.Held (contract V s.issued) ∧ Delivers V s { s with system } := by
  have hmeets := meets_of_isForeign hf hv s.issued
  obtain ⟨ht, ⟨c, closure, rfl, hread⟩ | ⟨-, hcalls⟩⟩ := System.held_step hs hmeets h
  · -- The closure is another part's.
    have hne : ∀ identifier, closure ≠ .read identifier := by
      rintro identifier rfl
      cases hf
    refine ⟨ht, .inl ?_⟩
    cases hc : s.system.cachedAnswer c with
    | none =>
      rw [hc] at hread
      exact congrArg LayoutClient.deliveries hread
    | some value =>
      rw [hc] at hread
      exact congrArg LayoutClient.deliveries (invoke_of_ne_read hne hread)
  · exact ⟨ht, delivers_of_calls hcalls⟩

/-- A read answered at once delivers what the cached value decodes to. -/
theorem readGauges_step {system : System StoreClosure LayoutClient}
    (hs : s.system.Held (contract V s.issued))
    (h : s.system.step describe StoreClosure.invoke
      (.call (.read .layoutConfig (.read s.issued))) = some system) :
    system.Held (contract V (s.issued + 1)) ∧
      match s.system.cachedAnswer .layoutConfig with
      | none => system.app.deliveries = s.system.app.deliveries
      | some value => ∃ layout, s.system.app.layout.parseResponse value = .ok layout ∧
          system.app.deliveries =
            s.system.app.deliveries ++ [⟨s.issued, layout.gauges, layout.monitors⟩] := by
  have hs' : s.system.Held (contract V (s.issued + 1)) := hs.mono_read fun c k hk identifier he =>
    ⟨(hk identifier he).1, Nat.lt_succ_of_lt (hk identifier he).2⟩
  have hmeets : (contract V (s.issued + 1)).Meets
      (.call (.read .layoutConfig (.read s.issued))) := by
    rintro identifier ⟨⟩
    exact ⟨rfl, Nat.lt_succ_self _⟩
  obtain ⟨ht, ⟨c, closure, hcall, hread⟩ | ⟨hne, -⟩⟩ := System.held_step hs' hmeets h
  · cases hcall
    refine ⟨ht, ?_⟩
    cases hc : s.system.cachedAnswer .layoutConfig with
    | none =>
      rw [hc] at hread
      exact congrArg LayoutClient.deliveries hread
    | some value =>
      rw [hc] at hread
      exact invoke_read hread
  · exact (hne _ _ rfl).elim

/-- A write of the layout delivers nothing. -/
theorem setGauges_step (hs : s.system.Held (contract V s.issued))
    (gauges monitors : List EngineDataItem) :
    (s.setGauges gauges monitors).system.Held (contract V s.issued) ∧
      (s.setGauges gauges monitors).system.app.deliveries = s.system.app.deliveries := by
  have hs' : System.Held (contract V s.issued) { s.system with
      app := { s.system.app with layout := { gauges, monitors } } } :=
    hs.of_eq rfl rfl rfl (fun _ h => h) hs.running
  have hhandler : (contract V s.issued).handler (.saved gauges monitors) :=
    fun identifier h => (by cases h)
  obtain ⟨ht, happ⟩ := System.held_write hs' (some (.ofBytes
    (GaugeLayoutConfigManager.constructData gauges monitors) fun _ => 0)) .layoutConfig hhandler
    (by rintro g m ⟨⟩; rfl)
  have hdeliveries := congrArg LayoutClient.deliveries happ
  exact ⟨ht, hdeliveries⟩

/-- **A step of the layout store** keeps the contract. A read answered at once delivers what the
cached value decodes to; any other event delivers at most what the value of an update does. -/
theorem store_step (hs : s.system.Held (contract V s.issued))
    (hv : ∀ ch value, e = .bluetooth (.didUpdateValueFor ch value none) →
      ch.uuid = Characteristics.layoutConfig.asCBUUID → V value)
    (h : s.step describe e = some t) : t.system.Held (contract V t.issued) ∧
      ((e = .readGauges ∧ t.issued = s.issued + 1 ∧ t.stored = s.stored ∧
        match s.system.cachedAnswer .layoutConfig with
        | none => t.system.app.deliveries = s.system.app.deliveries
        | some value => ∃ layout, s.system.app.layout.parseResponse value = .ok layout ∧
            t.system.app.deliveries =
              s.system.app.deliveries ++ [⟨s.issued, layout.gauges, layout.monitors⟩]) ∨
      e ≠ .readGauges ∧ t.issued = s.issued ∧ Delivers V s t) := by
  rcases step_cases h with ⟨event, system, rfl, hf, hsystem, rfl⟩ | ⟨system, rfl, hsystem, rfl⟩ |
    ⟨g, m, rfl, rfl⟩ | ⟨bytes, rfl, rfl⟩
  · obtain ⟨ht, hdelivers⟩ :=
      foreign_step hs hf (fun ch value he => hv ch value (congrArg _ he)) hsystem
    exact ⟨ht, .inr ⟨by simp, rfl, hdelivers⟩⟩
  · obtain ⟨ht, hread⟩ := readGauges_step hs hsystem
    exact ⟨ht, .inl ⟨rfl, rfl, rfl, hread⟩⟩
  · obtain ⟨ht, hdeliveries⟩ := setGauges_step hs g m
    exact ⟨ht, .inr ⟨by simp, rfl, .inl hdeliveries⟩⟩
  · exact ⟨hs, .inr ⟨by simp, rfl, .inl rfl⟩⟩

/-! ## Runs -/

/-- What every run keeps: the contract, and the numbers of the reads that were delivered. -/
structure Kept (V : Option Data → Prop) (s : LayoutStore) : Prop where
  held : s.system.Held (contract V s.issued)
  identifier_lt : ∀ d ∈ s.system.app.deliveries, d.identifier < s.issued

theorem Kept.step (hs : s.Kept V)
    (hv : ∀ ch value, e = .bluetooth (.didUpdateValueFor ch value none) →
      ch.uuid = Characteristics.layoutConfig.asCBUUID → V value)
    (h : s.step describe e = some t) : t.Kept V := by
  obtain ⟨ht, ⟨-, hissued, -, hread⟩ | ⟨-, hissued, hdelivers⟩⟩ := store_step hs.held hv h
  · refine ⟨ht, ?_⟩
    have hold : ∀ d ∈ s.system.app.deliveries, d.identifier < t.issued := fun d hd =>
      hissued ▸ Nat.lt_succ_of_lt (hs.identifier_lt d hd)
    cases hc : s.system.cachedAnswer .layoutConfig with
    | none =>
      rw [hc] at hread
      exact hread ▸ hold
    | some value =>
      rw [hc] at hread
      obtain ⟨layout, -, hdeliveries⟩ := hread
      rw [hdeliveries, List.forall_mem_append, List.forall_mem_singleton]
      exact ⟨hold, hissued ▸ Nat.lt_succ_self _⟩
  · refine ⟨ht, ?_⟩
    rw [hissued]
    rcases hdelivers with hsame | ⟨identifier, hlt, data, layout, -, -, hdeliveries⟩
    · exact hsame ▸ hs.identifier_lt
    · rw [hdeliveries, List.forall_mem_append, List.forall_mem_singleton]
      exact ⟨hs.identifier_lt, hlt⟩

theorem kept_run {pre : List Event} (h : Run (ofPartial (step describe)) {} pre s) :
    s.Kept fun _ => True :=
  h.invariant ⟨System.held_of_app _ _, by simp⟩ fun _ _ _ hs ht => hs.step (by simp) ht

section

variable {first : ℕ} {gauges monitors : List EngineDataItem}

/-- The reads from number `first` on that completed delivered these lists. -/
def Delivered (first : ℕ) (gauges monitors : List EngineDataItem) (s : LayoutStore) : Prop :=
  ∀ d ∈ s.system.app.deliveries, first ≤ d.identifier → d.gauges = gauges ∧ d.monitors = monitors

theorem delivered_concat {d : Delivery}
    (h : t.system.app.deliveries = s.system.app.deliveries ++ [d]) :
    t.Delivered first gauges monitors ↔ s.Delivered first gauges monitors ∧
      (first ≤ d.identifier → d.gauges = gauges ∧ d.monitors = monitors) := by
  rw [Delivered, h, List.forall_mem_append, List.forall_mem_singleton, Delivered]

/-- The device holds these lists, and updates of the layout carry them: each characteristic of the
layout has them cached where it was updated, and otherwise what it had in the state `start`. -/
structure Holding (start : LayoutStore) (gauges monitors : List EngineDataItem) (es : List Event)
    (s : LayoutStore) : Prop where
  kept : s.Kept (Carries (GaugeLayoutConfigManager.constructData gauges monitors))
  stored : s.stored = GaugeLayoutConfigManager.constructData gauges monitors
  issued_le : start.issued ≤ s.issued
  discovered : s.system.Discovered
  updated : ∀ ch, ch.uuid = Characteristics.layoutConfig.asCBUUID → Updated ch es →
    Carries (GaugeLayoutConfigManager.constructData gauges monitors) (s.system.values ch)
  same : ∀ ch, ¬ Updated ch es → s.system.values ch = start.system.values ch

variable {start : LayoutStore} {es : List Event}

/-- What a step does to the connection and the cached values is what its event of Bluetooth does. -/
theorem system_step (h : s.step describe e = some t) :
    (s.system.Discovered → t.system.Discovered) ∧
      ((∃ ch value, e = .bluetooth (.didUpdateValueFor ch value none) ∧
        t.system.values = Function.update s.system.values ch value) ∨
      (∀ ch value, e ≠ .bluetooth (.didUpdateValueFor ch value none)) ∧
        t.system.values = s.system.values) := by
  rcases step_cases h with ⟨event, system, rfl, hf, hsystem, rfl⟩ | ⟨system, rfl, hsystem, rfl⟩ |
    ⟨g, m, rfl, rfl⟩ | ⟨bytes, rfl, rfl⟩
  · refine ⟨fun hs => System.discovered_step hs hsystem, ?_⟩
    rcases System.values_step hsystem with ⟨ch, value, rfl, hvalues⟩ | ⟨hne, hvalues⟩
    · exact .inl ⟨ch, value, rfl, hvalues⟩
    · exact .inr ⟨fun ch value he => hne ch value (Event.bluetooth.inj he), hvalues⟩
  · have hcall : s.system.call StoreClosure.invoke (.read .layoutConfig (.read s.issued)) =
      some system := (System.react_of_step hsystem).2
    exact ⟨fun hs => System.discovered_step hs hsystem, .inr ⟨by simp, System.values_call hcall⟩⟩
  · let system : System StoreClosure LayoutClient := { s.system with
      app := { s.system.app with layout := { gauges := g, monitors := m } } }
    have hcall : system.call StoreClosure.invoke (.write (some (.ofBytes
        (GaugeLayoutConfigManager.constructData g m) fun _ => 0)) .layoutConfig (.saved g m)) =
      some (s.setGauges g m).system := rfl
    have hlink := System.sameLink_call hcall
    have hvalues : (s.setGauges g m).system.values = system.values := System.values_call hcall
    exact ⟨fun hs => hs.of_eq hlink.connectedPeripheral hlink.characteristicMap hlink.delegates,
      .inr ⟨by simp, hvalues⟩⟩
  · exact ⟨id, .inr ⟨by simp, rfl⟩⟩

theorem updated_snoc {ch : CBCharacteristic} : Updated ch (es ++ [e]) ↔
    Updated ch es ∨ ∃ value, e = .bluetooth (.didUpdateValueFor ch value none) := by
  simp only [Updated, List.mem_append, List.mem_singleton, exists_or, eq_comm]

theorem Holding.step (hs : start.Holding gauges monitors es s) (he : s.Settled e)
    (h : s.step describe e = some t) : start.Holding gauges monitors (es ++ [e]) t := by
  have hv : ∀ ch value, e = .bluetooth (.didUpdateValueFor ch value none) →
      ch.uuid = Characteristics.layoutConfig.asCBUUID →
        Carries (GaugeLayoutConfigManager.constructData gauges monitors) value := by
    rintro ch value rfl hu
    exact hs.stored ▸ he hu
  have hstored : t.stored = GaugeLayoutConfigManager.constructData gauges monitors := by
    rcases step_cases h with ⟨_, _, -, -, -, rfl⟩ | ⟨_, -, -, rfl⟩ | ⟨_, _, -, rfl⟩ |
      ⟨bytes, rfl, rfl⟩
    case inr.inr.inr => exact he.trans hs.stored
    all_goals exact hs.stored
  have hissued : s.issued ≤ t.issued := by
    rcases (store_step hs.kept.held hv h).2 with ⟨-, hsucc, -⟩ | ⟨-, hsame, -⟩
    · exact hsucc ▸ Nat.le_succ _
    · exact hsame.ge
  obtain ⟨hdiscovered, hvalues⟩ := system_step h
  refine ⟨hs.kept.step hv h, hstored, hs.issued_le.trans hissued, hdiscovered hs.discovered, ?_, ?_⟩
  · intro ch huuid hch
    rw [updated_snoc] at hch
    rcases hvalues with ⟨ch', value, rfl, hvalues⟩ | ⟨hne, hvalues⟩
    · rw [hvalues, Function.update_apply]
      split_ifs with hc
      · exact hv ch' value rfl (hc ▸ huuid)
      · refine hs.updated ch huuid (hch.resolve_right ?_)
        rintro ⟨value', he'⟩
        obtain ⟨rfl, -⟩ := Event.didUpdateValueFor.inj (Event.bluetooth.inj he')
        exact hc rfl
    · rw [hvalues]
      exact hs.updated ch huuid (hch.resolve_right fun ⟨value, he'⟩ => hne ch value he')
  · intro ch hch
    rw [updated_snoc, not_or] at hch
    rw [← hs.same ch hch.1]
    rcases hvalues with ⟨ch', value, rfl, hvalues⟩ | ⟨-, hvalues⟩
    · rw [hvalues]
      exact Function.update_of_ne (fun hc => hch.2 ⟨value, by rw [hc]⟩) _ _
    · rw [hvalues]

/-- A read answered from the cache delivers the lists exactly where the characteristic was updated
since, or what it had names them. -/
theorem Holding.cached_iff (hs : start.Holding gauges monitors es s) {value : Data}
    {layout : GaugeLayoutConfigManager} (hc : s.system.cachedAnswer .layoutConfig = some value)
    (hparse : s.system.app.layout.parseResponse value = .ok layout) :
    layout = { gauges, monitors } ↔ start.ReadsWritten gauges monitors es s .readGauges := by
  obtain ⟨ch, hch, hconnected, hnotify, hvalue⟩ := System.cachedAnswer_eq_some_iff.1 hc
  by_cases hupdated : Updated ch es
  · obtain ⟨beyond, hcarries⟩ := hs.updated ch (hs.discovered.uuid_eq _ _ hch) hupdated
    obtain rfl := Option.some.inj (hvalue.symm.trans hcarries)
    rw [GaugeLayoutConfigManager.parseResponse_constructData] at hparse
    refine iff_of_true (Except.ok.inj hparse).symm fun ch' hch' _ _ hnot => ?_
    obtain rfl := Option.some.inj (hch.symm.trans hch')
    exact (hnot hupdated).elim
  · rw [GaugeLayoutConfigManager.parseResponse_eq_ok_iff hparse]
    have hstart := (hs.same ch hupdated).symm.trans hvalue
    constructor
    · intro hnames ch' hch' _ _ _ value' hvalue'
      obtain rfl := Option.some.inj (hch.symm.trans hch')
      obtain rfl := Option.some.inj (hstart.symm.trans hvalue')
      exact hnames
    · intro hreads
      exact hreads ch hch hconnected hnotify hupdated value hstart

/-- A step of a settled layout delivers it, unless it is a read answered from a cached value of
before that names another. -/
theorem Holding.delivered_iff (hs : start.Holding gauges monitors es s) (he : s.Settled e)
    (h : s.step describe e = some t) :
    t.Delivered start.issued gauges monitors ↔ s.Delivered start.issued gauges monitors ∧
      start.ReadsWritten gauges monitors es s e := by
  have hv : ∀ ch value, e = .bluetooth (.didUpdateValueFor ch value none) →
      ch.uuid = Characteristics.layoutConfig.asCBUUID →
        Carries (GaugeLayoutConfigManager.constructData gauges monitors) value := by
    rintro ch value rfl hu
    exact hs.stored ▸ he hu
  obtain ⟨-, ⟨rfl, hissued, -, hread⟩ | ⟨hne, hissued, hdelivers⟩⟩ :=
    store_step hs.kept.held hv h
  · cases hc : s.system.cachedAnswer .layoutConfig with
    | none =>
      rw [hc] at hread
      have hwritten : start.ReadsWritten gauges monitors es s .readGauges := by
        intro ch hch hconnected hnotify hnot value hvalue
        rw [← hs.same ch hnot] at hvalue
        rw [System.cachedAnswer_eq_some_iff.2 ⟨ch, hch, hconnected, hnotify, hvalue⟩] at hc
        cases hc
      rw [and_iff_left hwritten, Delivered, hread, Delivered]
    | some value =>
      rw [hc] at hread
      obtain ⟨layout, hparse, hdeliveries⟩ := hread
      rw [delivered_concat hdeliveries, ← hs.cached_iff hc hparse, forall_prop_of_true hs.issued_le,
        GaugeLayoutConfigManager.mk.injEq]
  · have hwritten : start.ReadsWritten gauges monitors es s e := by
      cases e with
      | readGauges => exact (hne rfl).elim
      | _ => trivial
    rw [and_iff_left hwritten]
    rcases hdelivers with hsame |
      ⟨identifier, -, data, layout, ⟨beyond, hdata⟩, hparse, hdeliveries⟩
    · rw [Delivered, hsame, Delivered]
    · obtain rfl := Option.some.inj hdata
      rw [GaugeLayoutConfigManager.parseResponse_constructData] at hparse
      obtain rfl := Except.ok.inj hparse
      rw [delivered_concat hdeliveries]
      exact and_iff_left fun _ => ⟨rfl, rfl⟩

theorem holding_run {post : List Event} (hs : start.Holding gauges monitors [] start)
    (h : Run (restrict (ofPartial (step describe)) Settled) start post t) :
    start.Holding gauges monitors post t := by
  induction h with
  | nil => exact hs
  | snoc _ ht ih => exact ih.step ht.2 ht.1

/-- A run that ends with the lists delivered had delivered no others before. -/
theorem delivered_of_run {before after : List Event} {v u : LayoutStore}
    (hs : start.Holding gauges monitors before v)
    (h : Run (restrict (ofPartial (step describe)) Settled) v after u)
    (hu : u.Delivered start.issued gauges monitors) : v.Delivered start.issued gauges monitors := by
  suffices hboth : start.Holding gauges monitors (before ++ after) u ∧
      (u.Delivered start.issued gauges monitors → v.Delivered start.issued gauges monitors) from
    hboth.2 hu
  clear hu
  induction h with
  | nil => exact ⟨by rwa [List.append_nil], id⟩
  | snoc _ ht ih =>
    obtain ⟨hholding, hback⟩ := ih
    rw [← List.append_assoc]
    exact ⟨hholding.step ht.2 ht.1, fun hu => hback ((hholding.delivered_iff ht.2 ht.1).1 hu).1⟩

/-- **When the layout store gives read-your-writes.** The write of `setGauges` is acknowledged
without an error, and the device has stored it. As long as the device's layout is then settled,
every later `readGauges` that completes delivers the lists written exactly where each of them that
is answered from the cache comes behind an update of its characteristic, or finds what was cached at
the acknowledgement and names these lists too. -/
theorem read_your_writes_iff {pre post : List Event} {u : LayoutStore} {ch : CBCharacteristic}
    {w : PendingWrite StoreClosure} (hpre : Run (ofPartial (step describe)) {} pre s)
    (hw : s.system.acknowledgedWrite ch.uuid = some w)
    (hsaved : w.handler = some (.saved gauges monitors)) (hstored : s.stored = w.data.bytes)
    (hack : s.step describe (.bluetooth (.didWriteValueFor ch none)) = some t)
    (hpost : Run (restrict (ofPartial (step describe)) Settled) t post u) :
    (∀ d ∈ u.system.app.deliveries, t.issued ≤ d.identifier →
      d.gauges = gauges ∧ d.monitors = monitors) ↔
    ∀ before e after v, post = before ++ e :: after →
      Run (restrict (ofPartial (step describe)) Settled) t before v →
        t.ReadsWritten gauges monitors before v e := by
  have hs := kept_run hpre
  have hdiscovered : s.system.Discovered :=
    hpre.invariant ⟨by simp, fun _ => ⟨rfl, fun _ => rfl⟩⟩ fun _ _ _ hs ht => (system_step ht).1 hs
  have hdata := hs.held.unacknowledged w (List.mem_of_find?_eq_some hw) gauges monitors hsaved
  obtain ⟨hidle, hsame⟩ : s.system.handler = none ∧ t.stored = s.stored := by
    rcases step_cases hack with ⟨event, system, he, -, hsystem, rfl⟩ | ⟨_, he, -, -⟩ |
      ⟨_, _, he, -⟩ | ⟨_, he, -⟩
    case inl =>
      obtain rfl := Event.bluetooth.inj he
      unfold System.step at hsystem
      split_ifs at hsystem with henabled
      exact ⟨henabled.1.1, rfl⟩
    all_goals cases he
  have hkept : s.Kept (Carries (GaugeLayoutConfigManager.constructData gauges monitors)) :=
    ⟨hs.held.of_idle hidle _, hs.identifier_lt⟩
  have ht : t.Kept (Carries (GaugeLayoutConfigManager.constructData gauges monitors)) :=
    hkept.step (by simp) hack
  have hholding : t.Holding gauges monitors [] t := by
    refine ⟨ht, ?_, le_rfl, (system_step hack).1 hdiscovered, ?_, fun _ _ => rfl⟩
    · rw [hsame, hstored, hdata, Data.bytes_ofBytes]
    · rintro ch' - ⟨value, hmem⟩
      cases hmem
  have hnone : t.Delivered t.issued gauges monitors := fun d hd hle =>
    absurd (ht.identifier_lt d hd) (not_lt.2 hle)
  have hd : Deterministic (restrict (ofPartial (step describe)) Settled) :=
    (deterministic_ofPartial _).restrict
  have hhistory := hpost.forall_reached_iff_history hd hholding
    (Q := fun _ v => v.Delivered t.issued gauges monitors) hnone
    (fun _ _ _ _ hI _ hv _ => hI.step hv.2 hv.1)
    fun _ _ _ _ hI hv ht => (hI.delivered_iff ht.2 ht.1).trans (and_iff_right hv)
  rw [← hhistory]
  constructor
  · rintro hu before after v rfl hv
    obtain ⟨v', hv', hafter⟩ := hpost.append_inv
    obtain rfl := hv'.deterministic hd hv
    exact delivered_of_run (holding_run hholding hv') hafter hu
  · exact fun hall => hall post [] u (by simp) hpost

theorem step_readGauges_of_cached {value : Data} {layout : GaugeLayoutConfigManager}
    (hc : s.system.cachedAnswer .layoutConfig = some value)
    (hparse : s.system.app.layout.parseResponse value = .ok layout) :
    ∃ t, s.step describe .readGauges = some t ∧ t.system.app.deliveries =
      s.system.app.deliveries ++ [⟨s.issued, layout.gauges, layout.monitors⟩] := by
  have hread : s.system.read StoreClosure.invoke .layoutConfig (.read s.issued) =
      s.system.answerCached StoreClosure.invoke .layoutConfig (.read s.issued) value := by
    rcases System.read_eq_cases StoreClosure.invoke s.system .layoutConfig (.read s.issued) with
      ⟨value', hc', -, hread⟩ | ⟨hc', -⟩ | ⟨hc', -⟩
    · obtain rfl := Option.some.inj (hc.symm.trans hc')
      exact hread
    · rw [hc] at hc'
      cases hc'
    · rw [hc] at hc'
      cases hc'
  let app : LayoutClient := ⟨layout,
    s.system.app.deliveries ++ [⟨s.issued, layout.gauges, layout.monitors⟩]⟩
  have hinvoke : StoreClosure.invoke (.read s.issued) (some value) s.system.app = some app := by
    simp only [StoreClosure.invoke, hparse, app]
  let system : System StoreClosure LayoutClient := { s.system with
    app
    nested := s.system.nested + 1
    log := s.system.log ++ [.readAccepted .layoutConfig (.read s.issued),
      .readAnswered .layoutConfig (.read s.issued) (some value)] }
  refine ⟨⟨system, s.stored, s.issued + 1⟩, ?_, rfl⟩
  simp only [step, readGauges, hread, System.answerCached, System.enter, hinvoke]
  rfl

/-- The characteristic of the layout, which notifies. -/
def layoutCharacteristic : CBCharacteristic :=
  ⟨⟨0⟩, 0, Characteristics.layoutConfig.asCBUUID, true⟩

/-- The device notifies of a layout, and another is written to it, which it stores. -/
def writtenBehindUpdate : List Event :=
  [.bluetooth (.didDiscover ⟨0⟩), .bluetooth (.didConnect ⟨0⟩),
    .bluetooth (.didDiscoverCharacteristicsFor ⟨0⟩ (some [layoutCharacteristic])),
    .deviceStores (GaugeLayoutConfigManager.constructData [.rpm] []),
    .bluetooth (.didUpdateValueFor layoutCharacteristic
      (some (.ofBytes (GaugeLayoutConfigManager.constructData [.rpm] []) fun _ => 0)) none),
    .setGauges [.speed] [],
    .deviceStores (GaugeLayoutConfigManager.constructData [.speed] [])]

theorem run_writtenBehindUpdate : ∃ s t w,
    Run (ofPartial (step CBUUID.uuidString)) {} writtenBehindUpdate s ∧
    s.system.acknowledgedWrite layoutCharacteristic.uuid = some w ∧
    w.handler = some (.saved [.speed] []) ∧ s.stored = w.data.bytes ∧
    s.step CBUUID.uuidString (.bluetooth (.didWriteValueFor layoutCharacteristic none)) = some t ∧
    t.system.cachedAnswer .layoutConfig =
      some (.ofBytes (GaugeLayoutConfigManager.constructData [.rpm] []) fun _ => 0) := by
  have hrun : Run (ofPartial (step CBUUID.uuidString)) {} writtenBehindUpdate _ :=
    Run.of_foldlM rfl
  exact ⟨_, _, _, hrun, rfl, rfl, rfl, rfl, rfl⟩

/-- The read behind the acknowledgement is answered with the layout before the write. -/
theorem stale_layout_read : ∃ s t u w,
    Run (ofPartial (step CBUUID.uuidString)) {} writtenBehindUpdate s ∧
    s.system.acknowledgedWrite layoutCharacteristic.uuid = some w ∧
    w.handler = some (.saved [.speed] []) ∧ s.stored = w.data.bytes ∧
    s.step CBUUID.uuidString (.bluetooth (.didWriteValueFor layoutCharacteristic none)) = some t ∧
    Run (restrict (ofPartial (step CBUUID.uuidString)) Settled) t [.readGauges] u ∧
    ¬ ∀ d ∈ u.system.app.deliveries, t.issued ≤ d.identifier →
      d.gauges = [.speed] ∧ d.monitors = [] := by
  obtain ⟨s, t, w, hpre, hw, hsaved, hstored, hack, hcached⟩ := run_writtenBehindUpdate
  obtain ⟨u, hu, hdeliveries⟩ := step_readGauges_of_cached hcached
    (GaugeLayoutConfigManager.parseResponse_constructData _ _ _ _)
  refine ⟨s, t, u, w, hpre, hw, hsaved, hstored, hack, Run.snoc .nil ⟨hu, trivial⟩, fun h => ?_⟩
  rw [hdeliveries, List.forall_mem_append, List.forall_mem_singleton] at h
  obtain ⟨hgauges, -⟩ := h.2 le_rfl
  cases hgauges

theorem read_your_writes_iff_writtenBehindUpdate : ∃ s t u w,
    Run (ofPartial (step CBUUID.uuidString)) {} writtenBehindUpdate s ∧
    s.system.acknowledgedWrite layoutCharacteristic.uuid = some w ∧
    w.handler = some (.saved [.speed] []) ∧ s.stored = w.data.bytes ∧
    s.step CBUUID.uuidString (.bluetooth (.didWriteValueFor layoutCharacteristic none)) = some t ∧
    Run (restrict (ofPartial (step CBUUID.uuidString)) Settled) t [.readGauges] u ∧
    ((∀ d ∈ u.system.app.deliveries, t.issued ≤ d.identifier →
      d.gauges = [.speed] ∧ d.monitors = []) ↔
    ∀ before e after v, [.readGauges] = before ++ e :: after →
      Run (restrict (ofPartial (step CBUUID.uuidString)) Settled) t before v →
        t.ReadsWritten [.speed] [] before v e) := by
  obtain ⟨s, t, w, hpre, hw, hsaved, hstored, hack, hcached⟩ := run_writtenBehindUpdate
  obtain ⟨u, hu, -⟩ := step_readGauges_of_cached hcached
    (GaugeLayoutConfigManager.parseResponse_constructData _ _ _ _)
  have hpost : Run (restrict (ofPartial (step CBUUID.uuidString)) Settled) t [.readGauges] u :=
    Run.snoc .nil ⟨hu, trivial⟩
  exact ⟨s, t, u, w, hpre, hw, hsaved, hstored, hack, hpost,
    read_your_writes_iff hpre hw hsaved hstored hack hpost⟩

end

end

end LayoutStore

end Rx7
