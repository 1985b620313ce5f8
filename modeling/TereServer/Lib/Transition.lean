import Mathlib.Algebra.GroupWithZero.Nat
import Mathlib.Data.List.Basic
import Mathlib.Logic.Function.Basic

/-!
# Runs of a partial step function

A system is given by its step function; an action says which step is taken and
how the choices inside it come out, and a step that is not enabled is `none`.
What every step preserves holds at the end of every run.
-/

namespace TereServer.Lib

variable {σ α : Type*}

/-- Take the steps of `actions` in order. -/
def run (step : σ → α → Option σ) : List α → σ → Option σ
  | [], s => some s
  | a :: actions, s => (step s a).bind (run step actions)

def Stuck (step : σ → α → Option σ) (s : σ) : Prop := ∀ a, step s a = none

variable {step : σ → α → Option σ}

theorem run_nil (s : σ) : run step [] s = some s := rfl

theorem run_cons_eq_some {a : α} {actions : List α} {s s'' : σ} :
    run step (a :: actions) s = some s'' ↔
      ∃ s', step s a = some s' ∧ run step actions s' = some s'' := by
  simp only [run, Option.bind_eq_some_iff]

theorem run_append (first second : List α) (s : σ) :
    run step (first ++ second) s = (run step first s).bind (run step second) := by
  induction first generalizing s with
  | nil => rfl
  | cons a first ih =>
      cases h : step s a with
      | none => simp [run, h]
      | some s' => simp [run, h, ih]

theorem run_append_eq_some {first second : List α} {s s'' : σ} :
    run step (first ++ second) s = some s'' ↔
      ∃ s', run step first s = some s' ∧ run step second s' = some s'' := by
  rw [run_append, Option.bind_eq_some_iff]

/-! ## Induction over runs -/

theorem run_invariant {I : σ → Prop}
    (hstep : ∀ s a s', step s a = some s' → I s → I s') {actions : List α} {s s' : σ}
    (h : run step actions s = some s') (hs : I s) : I s' := by
  induction actions generalizing s with
  | nil =>
      cases h
      exact hs
  | cons a actions ih =>
      obtain ⟨next, ha, hrest⟩ := run_cons_eq_some.1 h
      exact ih hrest (hstep s a next ha hs)

/-- Every step of a run meets a condition on the state before it and its action. -/
def Meets (step : σ → α → Option σ) (P : σ → α → Prop) : List α → σ → Prop
  | [], _ => True
  | a :: actions, s => P s a ∧ ∀ s', step s a = some s' → Meets step P actions s'

theorem run_invariant_of_meets {I : σ → Prop} {P : σ → α → Prop}
    (hstep : ∀ s a s', step s a = some s' → P s a → I s → I s') {actions : List α} {s s' : σ}
    (h : run step actions s = some s') (hmeets : Meets step P actions s) (hs : I s) : I s' := by
  induction actions generalizing s with
  | nil =>
      cases h
      exact hs
  | cons a actions ih =>
      obtain ⟨next, ha, hrest⟩ := run_cons_eq_some.1 h
      exact ih hrest (hmeets.2 next ha) (hstep s a next ha hmeets.1 hs)

theorem Meets.cons {P : σ → α → Prop} {a : α} {actions : List α} {s s' : σ} (hP : P s a)
    (ha : step s a = some s') (h : Meets step P actions s') : Meets step P (a :: actions) s := by
  refine ⟨hP, fun next hnext => ?_⟩
  obtain rfl : s' = next := Option.some.inj (ha.symm.trans hnext)
  exact h

theorem Meets.prefix_of {P : σ → α → Prop} {first second : List α} {s : σ}
    (h : Meets step P (first ++ second) s) : Meets step P first s := by
  induction first generalizing s with
  | nil => trivial
  | cons a first ih => exact ⟨h.1, fun next hnext => ih (h.2 next hnext)⟩

structure RunMeets (step : σ → α → Option σ) (P : σ → α → Prop) (actions : List α) (s s' : σ) :
    Prop where
  run_eq : run step actions s = some s'
  meets : Meets step P actions s

theorem RunMeets.nil {P : σ → α → Prop} (s : σ) : RunMeets step P [] s s := ⟨rfl, trivial⟩

theorem RunMeets.cons {P : σ → α → Prop} {a : α} {actions : List α} {s s' s'' : σ}
    (ha : step s a = some s') (hP : P s a) (h : RunMeets step P actions s' s'') :
    RunMeets step P (a :: actions) s s'' :=
  ⟨run_cons_eq_some.2 ⟨s', ha, h.run_eq⟩, .cons hP ha h.meets⟩

theorem RunMeets.append {P : σ → α → Prop} {first second : List α} {s s' s'' : σ}
    (h : RunMeets step P first s s') (h' : RunMeets step P second s' s'') :
    RunMeets step P (first ++ second) s s'' := by
  obtain ⟨hrun, hmeets⟩ := h
  induction first generalizing s with
  | nil =>
      cases hrun
      exact h'
  | cons a first ih =>
      obtain ⟨next, ha, hrest⟩ := run_cons_eq_some.1 hrun
      exact .cons ha hmeets.1 (ih hrest (hmeets.2 next ha))

/-- A condition is met by every step when each step that does not meet it leads to a
state that is ruled out. -/
theorem meets_of_reached {P : σ → α → Prop} {Q : σ → Prop}
    (hstep : ∀ s a s', step s a = some s' → Q s' → P s a) {actions : List α} {s s' : σ}
    (h : run step actions s = some s')
    (hreached : ∀ pre mid, pre <+: actions → run step pre s = some mid → Q mid) :
    Meets step P actions s := by
  induction actions generalizing s with
  | nil => trivial
  | cons a actions ih =>
      obtain ⟨next, ha, hrest⟩ := run_cons_eq_some.1 h
      have hnext : Q next :=
        hreached [a] next ⟨actions, rfl⟩ (run_cons_eq_some.2 ⟨next, ha, rfl⟩)
      refine .cons (hstep s a next ha hnext) ha (ih hrest fun pre mid hpre hmid => ?_)
      exact hreached (a :: pre) mid (List.cons_prefix_cons.2 ⟨rfl, hpre⟩)
        (run_cons_eq_some.2 ⟨next, ha, hmid⟩)

/-- Each step uses up some of a measure, so a run has boundedly many steps. -/
theorem run_length_le {measure : σ → Nat}
    (hstep : ∀ s a s', step s a = some s' → measure s' < measure s) {actions : List α} {s s' : σ}
    (h : run step actions s = some s') : actions.length + measure s' ≤ measure s := by
  induction actions generalizing s with
  | nil =>
      cases h
      simp
  | cons a actions ih =>
      obtain ⟨next, ha, hrest⟩ := run_cons_eq_some.1 h
      have hlt := hstep s a next ha
      have hle := ih hrest
      simp only [List.length_cons]
      omega

/-- What holds at the end of a run but not at its start was brought about by one
of its steps. -/
theorem run_cause {P : σ → Prop} {actions : List α} {s s' : σ}
    (h : run step actions s = some s') (hs : ¬ P s) (hs' : P s') :
    ∃ before a after mid next, actions = before ++ a :: after ∧
      run step before s = some mid ∧ ¬ P mid ∧ step mid a = some next ∧ P next ∧
        run step after next = some s' := by
  induction actions generalizing s with
  | nil =>
      cases h
      exact absurd hs' hs
  | cons a actions ih =>
      obtain ⟨next, ha, hrest⟩ := run_cons_eq_some.1 h
      by_cases hnext : P next
      · exact ⟨[], a, actions, s, next, rfl, rfl, hs, ha, hnext, hrest⟩
      · obtain ⟨before, b, after, mid, last, rfl, hbefore, hmid, hb, hlast, hafter⟩ := ih hrest hnext
        exact ⟨a :: before, b, after, mid, last, rfl,
          run_cons_eq_some.2 ⟨next, ha, hbefore⟩, hmid, hb, hlast, hafter⟩

/-- When every state of an invariant allows a step that keeps it and brings a measure
down, a run leads to where the measure is zero. -/
theorem exists_run_of_measure {I : σ → Prop} {P : α → Prop} (measure : σ → Nat)
    (hstep : ∀ s, I s → measure s ≠ 0 →
      ∃ a s', P a ∧ step s a = some s' ∧ I s' ∧ measure s' < measure s) {s : σ} (hs : I s) :
    ∃ actions s', run step actions s = some s' ∧ (∀ a ∈ actions, P a) ∧ I s' ∧
      measure s' = 0 := by
  induction hn : measure s using Nat.strongRecOn generalizing s with
  | _ n ih =>
      subst hn
      by_cases hzero : measure s = 0
      · exact ⟨[], s, rfl, List.forall_mem_nil P, hs, hzero⟩
      · obtain ⟨a, next, ha, hnext, hI, hlt⟩ := hstep s hs hzero
        obtain ⟨actions, s', hrun, hactions, hI', hzero'⟩ := ih (measure next) hlt hI rfl
        exact ⟨a :: actions, s', run_cons_eq_some.2 ⟨next, hnext, hrun⟩,
          List.forall_mem_cons.2 ⟨ha, hactions⟩, hI', hzero'⟩

/-! ## Two levels -/

/-- When each step of one system is a run of another between related states, so is each
of its runs. -/
theorem run_simulation {τ β : Type*} {step' : τ → β → Option τ} (R : σ → τ → Prop)
    (hstep : ∀ s a s' t, step s a = some s' → R s t →
      ∃ actions t', run step' actions t = some t' ∧ R s' t') {actions : List α} {s s' : σ} {t : τ}
    (h : run step actions s = some s') (hR : R s t) :
    ∃ actions' t', run step' actions' t = some t' ∧ R s' t' := by
  induction actions generalizing s t with
  | nil =>
      cases h
      exact ⟨[], t, rfl, hR⟩
  | cons a actions ih =>
      obtain ⟨next, ha, hrest⟩ := run_cons_eq_some.1 h
      obtain ⟨first, mid, hfirst, hmid⟩ := hstep s a next t ha hR
      obtain ⟨second, t', hsecond, hR'⟩ := ih hrest hmid
      exact ⟨first ++ second, t', run_append_eq_some.2 ⟨mid, hfirst, hsecond⟩, hR'⟩

/-- The same for a part of a state. -/
theorem run_part_of {τ β : Type*} {step' : τ → β → Option τ} (part : σ → τ)
    (hstep : ∀ s a s', step s a = some s' →
      ∃ actions, run step' actions (part s) = some (part s')) {actions : List α} {s s' : σ}
    (h : run step actions s = some s') :
    ∃ actions', run step' actions' (part s) = some (part s') := by
  have hrun := run_simulation (fun s t => part s = t) (fun s a s' t ha hR => by
    subst hR
    obtain ⟨actions, hactions⟩ := hstep s a s' ha
    exact ⟨actions, part s', hactions, rfl⟩) h rfl
  obtain ⟨actions', t', hactions', rfl⟩ := hrun
  exact ⟨actions', hactions'⟩

/-- The same where the part is only one's own under a condition that, if it holds now, has
held all the time. -/
theorem run_part_while {τ β : Type*} {step' : τ → β → Option τ} (part : σ → τ) {I P : σ → Prop}
    (hI : ∀ s a s', step s a = some s' → I s → I s')
    (hback : ∀ s a s', step s a = some s' → I s → P s' → P s)
    (hstep : ∀ s a s', step s a = some s' → P s →
      ∃ actions, run step' actions (part s) = some (part s')) {actions : List α} {s s' : σ}
    (h : run step actions s = some s') (hs : I s) (hs' : P s') :
    P s ∧ ∃ actions', run step' actions' (part s) = some (part s') := by
  induction actions generalizing s with
  | nil =>
      cases h
      exact ⟨hs', [], rfl⟩
  | cons a actions ih =>
      obtain ⟨next, ha, hrest⟩ := run_cons_eq_some.1 h
      obtain ⟨hnext, second, hsecond⟩ := ih hrest (hI s a next ha hs)
      have hnow := hback s a next ha hs hnext
      obtain ⟨first, hfirst⟩ := hstep s a next ha hnow
      exact ⟨hnow, first ++ second, run_append_eq_some.2 ⟨part next, hfirst, hsecond⟩⟩

/-! ## States with one entry for each party -/

theorem update_changed {ι β : Type*} [DecidableEq ι] {f : ι → β} {i j : ι} {new value : β}
    (hbefore : f j ≠ value) (hafter : Function.update f i new j = value) :
    j = i ∧ new = value := by
  by_cases hji : j = i
  · rw [hji, Function.update_self] at hafter
    exact ⟨hji, hafter⟩
  · rw [Function.update_of_ne hji] at hafter
    exact absurd hafter hbefore

/-! ## Logs of events -/

/-- Every event of a log is justified by the events before it. -/
def Justified {ε : Type*} (J : List ε → ε → Prop) (events : List ε) : Prop :=
  ∀ before e after, events = before ++ e :: after → J before e

theorem justified_nil {ε : Type*} {J : List ε → ε → Prop} : Justified J [] := by
  intro before e after h
  simp at h

theorem Justified.snoc {ε : Type*} {J : List ε → ε → Prop} {events : List ε} {e : ε}
    (h : Justified J events) (he : J events e) : Justified J (events ++ [e]) := by
  intro before e' after hsplit
  rcases List.eq_nil_or_concat after with rfl | ⟨after, last, rfl⟩
  · obtain ⟨rfl, hlast⟩ := List.append_inj' hsplit rfl
    obtain rfl := List.singleton_inj.1 hlast
    exact he
  · rw [List.concat_eq_append, ← List.cons_append, ← List.append_assoc] at hsplit
    obtain ⟨rfl, -⟩ := List.append_inj' hsplit rfl
    exact h before e' after rfl

theorem Justified.map {ε : Type*} {J : List ε → ε → Prop} {events : List ε} {f : ε → ε}
    (h : Justified J events) (hf : ∀ before e, J before e → J (before.map f) (f e)) :
    Justified J (events.map f) := by
  intro before e after hsplit
  obtain ⟨before, rest, rfl, rfl, hrest⟩ := List.map_eq_append_iff.1 hsplit
  obtain ⟨e, after, rfl, rfl, rfl⟩ := List.map_eq_cons_iff.1 hrest
  exact hf before e (h before e after rfl)

end TereServer.Lib
