import TereServer.Lib.Transition

/-!
# Runs that are observed

Some steps of a system are events.  When each event is a step of another system and the
steps between them are none, the runs of the first system show runs of the second one;
when each step of the second system is shown by a run of the first one, they show all
of them.
-/

namespace TereServer.Lib

variable {σ τ α ε : Type*}

/-- The events of the steps of a run. -/
def observe (step : σ → α → Option σ) (event : σ → α → Option ε) : List α → σ → List ε
  | [], _ => []
  | a :: actions, s =>
      (event s a).toList ++ ((step s a).map (observe step event actions)).getD []

/-- Some run leads from `s` to `s'` and shows the events. -/
def Observed (step : σ → α → Option σ) (event : σ → α → Option ε) (s : σ) (events : List ε)
    (s' : σ) : Prop :=
  ∃ actions, run step actions s = some s' ∧ observe step event actions s = events

variable {step : σ → α → Option σ} {event : σ → α → Option ε} {s s' s'' : σ} {a : α}

theorem observe_cons (h : step s a = some s') (actions : List α) :
    observe step event (a :: actions) s =
      (event s a).toList ++ observe step event actions s' := by
  simp [observe, h]

theorem observe_append {first : List α} (h : run step first s = some s') (second : List α) :
    observe step event (first ++ second) s =
      observe step event first s ++ observe step event second s' := by
  induction first generalizing s with
  | nil =>
      cases h
      rfl
  | cons a first ih =>
      obtain ⟨next, ha, hrest⟩ := run_cons_eq_some.1 h
      rw [List.cons_append, observe_cons ha, observe_cons ha, ih hrest, List.append_assoc]

namespace Observed

theorem nil (s : σ) : Observed step event s [] s := ⟨[], rfl, rfl⟩

theorem cons {events : List ε} (ha : step s a = some s') (h : Observed step event s' events s'') :
    Observed step event s ((event s a).toList ++ events) s'' := by
  obtain ⟨actions, hrun, rfl⟩ := h
  exact ⟨a :: actions, run_cons_eq_some.2 ⟨s', ha, hrun⟩, observe_cons ha actions⟩

theorem append {first second : List ε} (h : Observed step event s first s')
    (h' : Observed step event s' second s'') : Observed step event s (first ++ second) s'' := by
  obtain ⟨actions, hrun, rfl⟩ := h
  obtain ⟨actions', hrun', rfl⟩ := h'
  exact ⟨actions ++ actions', run_append_eq_some.2 ⟨s', hrun, hrun'⟩, observe_append hrun actions'⟩

variable {step' : τ → ε → Option τ} {R : σ → τ → Prop} {t t' : τ} {events : List ε}

/-- What a run shows is a run of the other system. -/
theorem simulates
    (hstep : ∀ s a s' t, step s a = some s' → R s t →
      ∃ t', run step' (event s a).toList t = some t' ∧ R s' t')
    (h : Observed step event s events s') (hR : R s t) :
    ∃ t', run step' events t = some t' ∧ R s' t' := by
  obtain ⟨actions, hrun, rfl⟩ := h
  induction actions generalizing s t with
  | nil =>
      cases hrun
      exact ⟨t, rfl, hR⟩
  | cons a actions ih =>
      obtain ⟨next, ha, hrest⟩ := run_cons_eq_some.1 hrun
      obtain ⟨mid, hmid, hR'⟩ := hstep s a next t ha hR
      obtain ⟨t', hrun', hR''⟩ := ih hR' hrest
      rw [observe_cons ha]
      exact ⟨t', run_append_eq_some.2 ⟨mid, hmid, hrun'⟩, hR''⟩

/-- A run of the other system is shown when each of its steps is. -/
theorem of_run
    (hstep : ∀ s t e t', step' t e = some t' → R s t →
      ∃ s', Observed step event s [e] s' ∧ R s' t')
    (h : run step' events t = some t') (hR : R s t) :
    ∃ s', Observed step event s events s' ∧ R s' t' := by
  induction events generalizing s t with
  | nil =>
      cases h
      exact ⟨s, .nil s, hR⟩
  | cons e events ih =>
      obtain ⟨next, he, hrest⟩ := run_cons_eq_some.1 h
      obtain ⟨mid, hmid, hR'⟩ := hstep s t e next he hR
      obtain ⟨s', hs', hR''⟩ := ih hrest hR'
      exact ⟨s', hmid.append hs', hR''⟩

end Observed

end TereServer.Lib
