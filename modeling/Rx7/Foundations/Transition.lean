import Mathlib.Tactic.TypeStar
import Mathlib.Data.List.Induction

/-!
# Runs of labelled transition systems

A system is a relation `step s e t`: the event `e` may lead from the state `s` to the state `t`.
`Run step s es t` says that the events `es`, in order, lead from `s` to `t`. A run grows at its
end, so that an induction on it sees the history first and the latest event last.

* `Run.invariant`: what every step preserves holds at the end of every run.
* `restrict step P`: only the steps `s -e→ t` with `P s e`. A run whose steps all meet `P` is a
  run of the restricted system (`Run.unrestrict` forgets the condition).
* `Run.forall_reached_iff_restrict`: where one step keeps `Q` exactly when it meets `P`, the runs
  that never leave `Q` are exactly the runs of the restricted system.
* `Run.forall_reached_iff_history` and `Run.forall_reached_iff_throughout`: the same for a condition
  on the events before the step, and one on the events alone.
* `Run.refine`: where each step is matched by a run of another system with the same observations,
  so is each run.
* `ofPartial f`: the system of a partial step function, deterministic, whose runs can be computed
  (`Run.of_foldlM`).
-/

namespace Rx7.Transition

variable {σ τ ε φ : Type*}

/-- `Run step s es t`: the events `es`, in order, lead from `s` to `t`. -/
inductive Run (step : σ → ε → σ → Prop) (s : σ) : List ε → σ → Prop
  | nil : Run step s [] s
  | snoc {es : List ε} {e : ε} {t u : σ} : Run step s es t → step t e u → Run step s (es ++ [e]) u

/-- The steps of a system that meet a condition on the state before and the event. -/
def restrict (step : σ → ε → σ → Prop) (P : σ → ε → Prop) : σ → ε → σ → Prop :=
  fun s e t => step s e t ∧ P s e

/-- The system of a partial step function. -/
def ofPartial (f : σ → ε → Option σ) : σ → ε → σ → Prop := fun s e t => f s e = some t

/-- Every event meets `P` behind the events before it. -/
def Throughout (P : List ε → ε → Prop) (es : List ε) : Prop :=
  ∀ pre e post, es = pre ++ e :: post → P pre e

/-- An event of a longer history is the last one, or one of the history before it. -/
theorem snoc_eq_append_cons_iff {es pre post : List ε} {e b : ε} :
    es ++ [e] = pre ++ b :: post ↔
      (post = [] ∧ es = pre ∧ e = b) ∨ ∃ post', post = post' ++ [e] ∧ es = pre ++ b :: post' := by
  constructor
  · intro h
    rcases List.eq_nil_or_concat post with rfl | ⟨post', c, rfl⟩
    · obtain ⟨hes, he⟩ := List.append_inj' h rfl
      exact .inl ⟨rfl, hes, List.singleton_inj.1 he⟩
    · rw [List.concat_eq_append, ← List.cons_append, ← List.append_assoc] at h
      obtain ⟨hes, he⟩ := List.append_inj' h rfl
      obtain rfl := List.singleton_inj.1 he
      exact .inr ⟨post', List.concat_eq_append, hes⟩
  · rintro (⟨rfl, rfl, rfl⟩ | ⟨post', rfl, rfl⟩)
    · rfl
    · simp

/-- A system in which an event leads from a state to at most one state. -/
def Deterministic (step : σ → ε → σ → Prop) : Prop :=
  ∀ ⦃s e t u⦄, step s e t → step s e u → t = u

theorem deterministic_ofPartial (f : σ → ε → Option σ) : Deterministic (ofPartial f) :=
  fun _ _ _ _ h h' => Option.some.inj (h.symm.trans h')

theorem Deterministic.restrict {step : σ → ε → σ → Prop} {P : σ → ε → Prop}
    (hd : Deterministic step) : Deterministic (restrict step P) :=
  fun _ _ _ _ h h' => hd h.1 h'.1

namespace Run

variable {step : σ → ε → σ → Prop} {P : σ → ε → Prop} {s t u : σ} {es fs : List ε} {e : ε}

theorem snoc_inv (h : Run step s (es ++ [e]) u) : ∃ t, Run step s es t ∧ step t e u := by
  generalize hl : es ++ [e] = l at h
  cases h with
  | nil => simp at hl
  | snoc h hs =>
    obtain ⟨rfl, he⟩ := List.append_inj' hl rfl
    obtain rfl := List.singleton_inj.1 he
    exact ⟨_, h, hs⟩

theorem nil_inv (h : Run step s [] t) : t = s := by
  generalize hl : ([] : List ε) = l at h
  cases h with
  | nil => rfl
  | snoc => simp at hl

/-- A run passes through a state at each of its moments. -/
theorem append_inv (h : Run step s (es ++ fs) u) : ∃ t, Run step s es t ∧ Run step t fs u := by
  induction fs using List.reverseRecOn generalizing u with
  | nil => exact ⟨u, by simpa using h, .nil⟩
  | append_singleton fs e ih =>
    rw [← List.append_assoc] at h
    obtain ⟨v, hv, hs⟩ := h.snoc_inv
    obtain ⟨t, ht, htv⟩ := ih hv
    exact ⟨t, ht, .snoc htv hs⟩

theorem append (h : Run step s es t) (h' : Run step t fs u) : Run step s (es ++ fs) u := by
  induction h' with
  | nil => rwa [List.append_nil]
  | snoc _ hs ih =>
    rw [← List.append_assoc]
    exact ih.snoc hs

theorem single (h : step s e t) : Run step s [e] t := by
  have hr : Run step s ([] ++ [e]) t := .snoc .nil h
  exact hr

theorem cons_inv (h : Run step s (e :: es) u) : ∃ t, step s e t ∧ Run step t es u := by
  have hsplit : Run step s ([e] ++ es) u := h
  obtain ⟨t, ht, hu⟩ := hsplit.append_inv
  have hsingle : Run step s ([] ++ [e]) t := ht
  obtain ⟨v, hv, hs⟩ := hsingle.snoc_inv
  obtain rfl := hv.nil_inv
  exact ⟨t, hs, hu⟩

/-- **What every step preserves holds at the end of every run.** -/
theorem invariant (h : Run step s es t) {I : σ → Prop} (h0 : I s)
    (hstep : ∀ s e t, I s → step s e t → I t) : I t := by
  induction h with
  | nil => exact h0
  | snoc _ hs ih => exact hstep _ _ _ ih hs

theorem mono {step' : σ → ε → σ → Prop} (hs : ∀ s e t, step s e t → step' s e t)
    (h : Run step s es t) : Run step' s es t := by
  induction h with
  | nil => exact .nil
  | snoc _ h ih => exact .snoc ih (hs _ _ _ h)

theorem unrestrict (h : Run (restrict step P) s es t) : Run step s es t :=
  h.mono fun _ _ _ h => h.1

theorem deterministic (hd : Deterministic step) (h : Run step s es t) (h' : Run step s es u) :
    t = u := by
  induction h generalizing u with
  | nil => exact h'.nil_inv.symm
  | snoc _ hs ih =>
    obtain ⟨v, hv, hs'⟩ := h'.snoc_inv
    obtain rfl := ih hv
    exact hd hs hs'

/-- A run of the restricted system whose last state is known has met the condition there. -/
theorem restrict_snoc_iff (hd : Deterministic step) (h : Run step s es t) (hs : step t e u) :
    Run (restrict step P) s (es ++ [e]) u ↔ Run (restrict step P) s es t ∧ P t e := by
  refine ⟨fun hr => ?_, fun hr => hr.1.snoc ⟨hs, hr.2⟩⟩
  obtain ⟨v, hv, hvs⟩ := hr.snoc_inv
  obtain rfl := hv.unrestrict.deterministic hd h
  exact ⟨hv, hvs.2⟩

/-- A run of events that meet `Q` is one of the system in which all do. -/
theorem restrict_events {Q : ε → Prop} (hQ : ∀ e ∈ es, Q e) (h : Run step s es t) :
    Run (restrict step fun _ e => Q e) s es t := by
  induction h with
  | nil => exact .nil
  | snoc _ hs ih =>
    exact .snoc (ih fun e he => hQ e (List.mem_append_left _ he)) ⟨hs, hQ _ (by simp)⟩

theorem restrict_forall_iff {ι : Type*} {P : ι → σ → ε → Prop} (hd : Deterministic step)
    (h : Run step s es t) :
    Run (restrict step fun s e => ∀ i, P i s e) s es t ↔ ∀ i, Run (restrict step (P i)) s es t := by
  induction h with
  | nil => exact ⟨fun _ _ => .nil, fun _ => .nil⟩
  | snoc h hs ih => simp only [restrict_snoc_iff hd h hs, ih, forall_and]

/-- **The exact condition for an invariant.** Where, from a state that meets the auxiliary
invariant `I` and `Q`, a step leads to `Q` exactly when it meets `P`, a run stays in `Q` exactly
when all its steps meet `P`. -/
theorem forall_reached_iff_restrict (hd : Deterministic step) {I Q : σ → Prop}
    (hI0 : I s) (hI : ∀ s e t, I s → step s e t → I t) (hQ0 : Q s)
    (hQ : ∀ s e t, I s → Q s → step s e t → (Q t ↔ P s e)) (h : Run step s es t) :
    (∀ pre post u, es = pre ++ post → Run step s pre u → Q u) ↔
      Run (restrict step P) s es t := by
  induction h with
  | nil =>
    refine ⟨fun _ => .nil, fun _ pre post u he hu => ?_⟩
    obtain ⟨rfl, -⟩ := List.append_eq_nil_iff.1 he.symm
    rwa [hu.nil_inv]
  | @snoc es e t u ht hs ih =>
    have hIt : I t := ht.invariant hI0 hI
    rw [restrict_snoc_iff hd ht hs, ← ih]
    refine ⟨fun hall => ⟨fun pre post v he hv => hall pre (post ++ [e]) v ?_ hv, ?_⟩, ?_⟩
    · rw [he, List.append_assoc]
    · have hQt : Q t := hall es [e] t rfl ht
      have hQu : Q u := hall (es ++ [e]) [] u (by simp) (ht.snoc hs)
      exact (hQ _ _ _ hIt hQt hs).1 hQu
    · rintro ⟨hall, hP⟩ pre post w he hw
      rcases List.eq_nil_or_concat post with rfl | ⟨post, b, rfl⟩
      · rw [List.append_nil] at he
        subst he
        obtain rfl := (ht.snoc hs).deterministic hd hw
        exact (hQ _ _ _ hIt (hall es [] t (by simp) ht) hs).2 hP
      · rw [List.concat_eq_append, ← List.append_assoc] at he
        exact hall pre post w (List.append_inj' he rfl).1 hw

/-- **The exact condition on the history.** Where a step keeps `Q` exactly when it meets `P` behind
the events before it, a run stays in `Q` exactly when all its steps meet `P`. The auxiliary
invariant `I` is kept as long as `Q` holds. -/
theorem forall_reached_iff_history (hd : Deterministic step) {I Q : List ε → σ → Prop}
    {P : List ε → σ → ε → Prop} (hI0 : I [] s) (hQ0 : Q [] s)
    (hI : ∀ es e t u, I es t → Q es t → step t e u → Q (es ++ [e]) u → I (es ++ [e]) u)
    (hQ : ∀ es e t u, I es t → Q es t → step t e u → (Q (es ++ [e]) u ↔ P es t e))
    (h : Run step s es t) :
    (∀ pre post u, es = pre ++ post → Run step s pre u → Q pre u) ↔
      ∀ pre e post u, es = pre ++ e :: post → Run step s pre u → P pre u e := by
  -- the invariant comes along as long as `Q` has held
  suffices hboth : ((∀ pre post u, es = pre ++ post → Run step s pre u → Q pre u) ↔
      ∀ pre e post u, es = pre ++ e :: post → Run step s pre u → P pre u e) ∧
      ((∀ pre post u, es = pre ++ post → Run step s pre u → Q pre u) → I es t) from hboth.1
  induction h with
  | nil =>
    refine ⟨⟨fun _ pre e post u he => by simp at he, fun _ pre post u he hu => ?_⟩, fun _ => hI0⟩
    obtain ⟨rfl, -⟩ := List.append_eq_nil_iff.1 he.symm
    rwa [hu.nil_inv]
  | @snoc es e t u ht hs ih =>
    obtain ⟨ih, hinv⟩ := ih
    have hbefore : (∀ pre post v, es ++ [e] = pre ++ post → Run step s pre v → Q pre v) →
        ∀ pre post v, es = pre ++ post → Run step s pre v → Q pre v :=
      fun hall pre post v he hv => hall pre (post ++ [e]) v (by rw [he, List.append_assoc]) hv
    refine ⟨⟨fun hall pre b post v he hv => ?_, fun hall pre post v he hv => ?_⟩, fun hall => ?_⟩
    · have hes := hbefore hall
      rcases snoc_eq_append_cons_iff.1 he with ⟨-, rfl, rfl⟩ | ⟨post', -, hsplit⟩
      · obtain rfl := ht.deterministic hd hv
        exact (hQ _ _ _ _ (hinv hes) (hes es [] t (by simp) ht) hs).1
          (hall _ [] u (by simp) (ht.snoc hs))
      · exact ih.1 hes pre b post' v hsplit hv
    · have hes := ih.2 fun pre b post w hw hr =>
        hall pre b (post ++ [e]) w (by rw [hw]; simp) hr
      rcases List.eq_nil_or_concat post with rfl | ⟨post', b, rfl⟩
      · rw [List.append_nil] at he
        subst he
        obtain rfl := (ht.snoc hs).deterministic hd hv
        exact (hQ _ _ _ _ (hinv hes) (hes es [] t (by simp) ht) hs).2 (hall es e [] t rfl ht)
      · rw [List.concat_eq_append, ← List.append_assoc] at he
        exact hes pre post' v (List.append_inj' he rfl).1 hv
    · have hes := hbefore hall
      exact hI _ _ _ _ (hinv hes) (hes es [] t (by simp) ht) hs
        (hall _ [] u (by simp) (ht.snoc hs))

/-- The same, where the condition is one on the events alone. -/
theorem forall_reached_iff_throughout (hd : Deterministic step) {I Q : List ε → σ → Prop}
    {P : List ε → ε → Prop} (hI0 : I [] s) (hQ0 : Q [] s)
    (hI : ∀ es e t u, I es t → Q es t → step t e u → Q (es ++ [e]) u → I (es ++ [e]) u)
    (hQ : ∀ es e t u, I es t → Q es t → step t e u → (Q (es ++ [e]) u ↔ P es e))
    (h : Run step s es t) :
    (∀ pre post u, es = pre ++ post → Run step s pre u → Q pre u) ↔ Throughout P es := by
  rw [h.forall_reached_iff_history hd hI0 hQ0 hI (P := fun pre _ e => P pre e) hQ]
  refine ⟨fun hall pre e post he => ?_, fun hall pre e post _ he _ => hall pre e post he⟩
  rw [he] at h
  obtain ⟨u, hu, -⟩ := h.append_inv
  exact hall pre e post u he hu

/-- The exact condition for a property of steps. Where a step from a state of the invariant `I` has
the property exactly when it meets `P`, all steps of a run have it exactly when all meet `P`. -/
theorem forall_steps_iff_restrict (hd : Deterministic step) {I : σ → Prop} {Q : σ → ε → σ → Prop}
    (hI0 : I s) (hI : ∀ s e t, I s → step s e t → I t)
    (hQ : ∀ s e t, I s → step s e t → (Q s e t ↔ P s e)) (h : Run step s es t) :
    (∀ pre e post u v, es = pre ++ e :: post → Run step s pre u → step u e v → Q u e v) ↔
      Run (restrict step P) s es t := by
  induction h with
  | nil => exact ⟨fun _ => .nil, fun _ pre e post u v he => by simp at he⟩
  | @snoc es e t u ht hs ih =>
    rw [restrict_snoc_iff hd ht hs, ← ih]
    refine ⟨fun hall => ⟨fun pre b post v w he hv hw => ?_, ?_⟩, ?_⟩
    · exact hall pre b (post ++ [e]) v w (by rw [he, List.append_assoc]; rfl) hv hw
    · exact (hQ _ _ _ (ht.invariant hI0 hI) hs).1 (hall es e [] t u rfl ht hs)
    · rintro ⟨hall, hP⟩ pre b post v w he hv hw
      rcases List.eq_nil_or_concat post with rfl | ⟨post, c, rfl⟩
      · obtain ⟨rfl, hb⟩ := List.append_inj' he rfl
        obtain rfl := List.singleton_inj.1 hb
        obtain rfl := ht.deterministic hd hv
        exact (hQ _ _ _ (hv.invariant hI0 hI) hw).2 hP
      · rw [List.concat_eq_append, ← List.cons_append, ← List.append_assoc] at he
        exact hall pre b post v w (List.append_inj' he rfl).1 hv hw

/-- A run of a partial step function, computed. -/
theorem of_foldlM {f : σ → ε → Option σ} {s t : σ} {es : List ε} (h : es.foldlM f s = some t) :
    Run (ofPartial f) s es t := by
  induction es using List.reverseRecOn generalizing t with
  | nil =>
    obtain rfl : s = t := by simpa using h
    exact .nil
  | append_singleton es e ih =>
    rw [List.foldlM_append] at h
    obtain ⟨u, hu, hs⟩ := Option.bind_eq_some_iff.1 h
    exact .snoc (ih hu) (by simpa [ofPartial] using hs)

/-- A computed run whose last state passes a test. -/
theorem exists_of_foldlM {f : σ → ε → Option σ} {s : σ} {es : List ε} {p : σ → Bool}
    (h : (es.foldlM f s).any p = true) : ∃ t, Run (ofPartial f) s es t ∧ p t = true := by
  cases hr : es.foldlM f s with
  | none => simp [hr] at h
  | some t => exact ⟨t, of_foldlM hr, by simpa [hr] using h⟩

/-- Where the steps from the states of an invariant are matched by steps of another system, under
labels of their events, a run is matched by a run. -/
theorem map {step' : τ → φ → τ → Prop} {f : σ → τ} {label : ε → φ} {I : σ → Prop} (h0 : I s)
    (hI : ∀ s e t, I s → step s e t → I t)
    (hsim : ∀ s e t, I s → step s e t → step' (f s) (label e) (f t)) (h : Run step s es t) :
    Run step' (f s) (es.map label) (f t) := by
  induction h with
  | nil => exact .nil
  | snoc h hs ih =>
    rw [List.map_append]
    exact ih.snoc (hsim _ _ _ (h.invariant h0 hI) hs)

/-- **Refinement.** Where each step from a state of an invariant is matched by a run of another
system that is observed as its event is, a run is matched by a run that is observed as its events
are. -/
theorem refine {o : Type*} {step' : τ → φ → τ → Prop} {f : σ → τ} {I : σ → Prop} {obs : ε → List o}
    {obs' : φ → List o} (h0 : I s) (hI : ∀ s e t, I s → step s e t → I t)
    (hsim : ∀ s e t, I s → step s e t →
      ∃ labels, Run step' (f s) labels (f t) ∧ labels.flatMap obs' = obs e)
    (h : Run step s es t) :
    ∃ labels, Run step' (f s) labels (f t) ∧ labels.flatMap obs' = es.flatMap obs := by
  induction h with
  | nil => exact ⟨[], .nil, rfl⟩
  | snoc h hs ih =>
    obtain ⟨labels, hr, hobs⟩ := ih
    obtain ⟨labels', hr', hobs'⟩ := hsim _ _ _ (h.invariant h0 hI) hs
    refine ⟨labels ++ labels', hr.append hr', ?_⟩
    rw [List.flatMap_append, List.flatMap_append, hobs, hobs', List.flatMap_singleton]

/-- **Labelled simulation.** Where each step is matched by one step of another system, under a
label computed from it, a run is matched by a run; its labels all meet `Q` exactly when the steps
of the first run do. -/
theorem simulate_labels {step' : τ → φ → τ → Prop} {f : σ → τ} {label : σ → ε → φ} (Q : φ → Prop)
    (hd : Deterministic step) (hsim : ∀ s e t, step s e t → step' (f s) (label s e) (f t))
    (h : Run step s es t) :
    ∃ labels, Run step' (f s) labels (f t) ∧
      ((∀ l ∈ labels, Q l) ↔ Run (restrict step fun s e => Q (label s e)) s es t) := by
  induction h with
  | nil => exact ⟨[], .nil, iff_of_true (by simp) .nil⟩
  | @snoc es e t u h hs ih =>
    obtain ⟨labels, hr, hQ⟩ := ih
    refine ⟨labels ++ [label t e], hr.snoc (hsim _ _ _ hs), ?_⟩
    rw [restrict_snoc_iff hd h hs, ← hQ]
    rw [List.forall_mem_append, List.forall_mem_singleton]

end Run

end Rx7.Transition
