import TereServer.Lib.Transition

/-!
# Components beside each other

A family of components that take their steps in any order.  What a component does
to the object that all of them share is an event, and the events are logged in
the order in which they happen.  A run of the family is a run of each component
with its own events; the events of the family are these, interleaved.
-/

namespace TereServer.Lib

variable {ι σ α ε β : Type*}

structure Components (ι σ ε : Type*) where
  part : ι → σ
  log : List (ι × ε)

/-- A component with its own events. -/
def traced (move : σ → α → Option (σ × List ε)) (s : σ × List ε) (a : α) :
    Option (σ × List ε) :=
  (move s.1 a).map fun r => (r.1, s.2 ++ r.2)

variable [DecidableEq ι]

def entriesOf (i : ι) (entries : List (ι × β)) : List β :=
  (entries.filter fun e => decide (e.1 = i)).map Prod.snd

@[simp] theorem entriesOf_append (i : ι) (first second : List (ι × β)) :
    entriesOf i (first ++ second) = entriesOf i first ++ entriesOf i second := by
  rw [entriesOf, List.filter_append, List.map_append]
  rfl

theorem entriesOf_cons_self (i : ι) (e : β) (entries : List (ι × β)) :
    entriesOf i ((i, e) :: entries) = e :: entriesOf i entries := by
  simp [entriesOf]

theorem entriesOf_cons_of_ne {i j : ι} (h : j ≠ i) (e : β) (entries : List (ι × β)) :
    entriesOf i ((j, e) :: entries) = entriesOf i entries := by
  simp [entriesOf, h]

theorem entriesOf_label_self (i : ι) (events : List β) :
    entriesOf i (events.map (Prod.mk i)) = events := by
  induction events with
  | nil => rfl
  | cons e events ih => rw [List.map_cons, entriesOf_cons_self, ih]

theorem entriesOf_label_of_ne {i j : ι} (h : j ≠ i) (events : List β) :
    entriesOf i (events.map (Prod.mk j)) = [] := by
  induction events with
  | nil => rfl
  | cons e events ih => rw [List.map_cons, entriesOf_cons_of_ne h, ih]

namespace Components

variable {move : σ → α → Option (σ × List ε)} {s s' : Components ι σ ε}

def step (move : σ → α → Option (σ × List ε)) (s : Components ι σ ε) (a : ι × α) :
    Option (Components ι σ ε) :=
  (move (s.part a.1) a.2).map fun r =>
    ⟨Function.update s.part a.1 r.1, s.log ++ r.2.map (Prod.mk a.1)⟩

def own (s : Components ι σ ε) (i : ι) : σ × List ε := (s.part i, entriesOf i s.log)

theorem step_own_self {i : ι} {a : α} (h : step move s (i, a) = some s') :
    traced move (s.own i) a = some (s'.own i) := by
  obtain ⟨r, hr, rfl⟩ := Option.map_eq_some_iff.1 h
  have hmove : move (s.part i) a = some r := hr
  simp only [traced, own, hmove, Option.map_some, Function.update_self, entriesOf_append,
    entriesOf_label_self]

theorem step_own_of_ne {i j : ι} {a : α} (hji : j ≠ i) (h : step move s (j, a) = some s') :
    s'.own i = s.own i := by
  obtain ⟨r, -, rfl⟩ := Option.map_eq_some_iff.1 h
  simp only [own, Function.update_of_ne hji.symm, entriesOf_append, entriesOf_label_of_ne hji,
    List.append_nil]

/-- A run of the family is a run of each of its components. -/
theorem run_own {actions : List (ι × α)} (h : run (step move) actions s = some s') (i : ι) :
    run (traced move) (entriesOf i actions) (s.own i) = some (s'.own i) := by
  induction actions generalizing s with
  | nil =>
      cases h
      rfl
  | cons a actions ih =>
      obtain ⟨j, a⟩ := a
      obtain ⟨next, ha, hrest⟩ := run_cons_eq_some.1 h
      by_cases hji : j = i
      · subst hji
        rw [entriesOf_cons_self]
        exact run_cons_eq_some.2 ⟨next.own j, step_own_self ha, ih hrest⟩
      · rw [entriesOf_cons_of_ne hji, ← step_own_of_ne hji ha]
        exact ih hrest

theorem step_part {i : ι} {a : α} {u : σ} {events : List ε}
    (h : move (s.part i) a = some (u, events)) :
    step move s (i, a) =
      some ⟨Function.update s.part i u, s.log ++ events.map (Prod.mk i)⟩ := by
  simp only [step, h, Option.map_some]

theorem run_part {i : ι} {actions : List α} {own own' : σ × List ε}
    (h : run (traced move) actions own = some own') (hi : s.part i = own.1) :
    ∃ events, own'.2 = own.2 ++ events ∧
      run (step move) (actions.map (Prod.mk i)) s =
        some ⟨Function.update s.part i own'.1, s.log ++ events.map (Prod.mk i)⟩ := by
  induction actions generalizing own s with
  | nil =>
      cases h
      refine ⟨[], (List.append_nil _).symm, ?_⟩
      rw [← hi, Function.update_eq_self, List.map_nil, List.map_nil, List.append_nil]
      rfl
  | cons a actions ih =>
      obtain ⟨next, ha, hrest⟩ := run_cons_eq_some.1 h
      obtain ⟨⟨u, first⟩, hmove, rfl⟩ := Option.map_eq_some_iff.1 ha
      rw [← hi] at hmove
      obtain ⟨second, hsecond, hrun⟩ := ih
        (s := ⟨Function.update s.part i u, s.log ++ first.map (Prod.mk i)⟩) hrest
        (Function.update_self _ _ _)
      refine ⟨first ++ second, hsecond.trans (List.append_assoc _ _ _), ?_⟩
      rw [List.map_cons]
      refine run_cons_eq_some.2 ⟨_, step_part hmove, ?_⟩
      rw [hrun, Function.update_idem, List.map_append, List.append_assoc]

theorem run_invariant {I : σ × List ε → Prop}
    (hstep : ∀ own a own', traced move own a = some own' → I own → I own')
    {actions : List (ι × α)} (h : run (step move) actions s = some s') {i : ι}
    (hs : I (s.own i)) : I (s'.own i) :=
  Lib.run_invariant hstep (run_own h i) hs

end Components

/-! ## Interleavings -/

/-- `whole` is made of the elements of the streams, each stream in its order. -/
def Interleaves (streams : ι → List β) (whole : List β) : Prop :=
  ∃ labelled : List (ι × β), labelled.map Prod.snd = whole ∧
    ∀ i, entriesOf i labelled = streams i

theorem interleaves_log (elements : ε → List β) (log : List (ι × ε)) :
    Interleaves (fun i => (entriesOf i log).flatMap elements)
      (log.flatMap fun e => elements e.2) := by
  refine ⟨log.flatMap fun e => (elements e.2).map (Prod.mk e.1), ?_, fun i => ?_⟩
  · rw [List.map_flatMap]
    congr 1
    funext e
    rw [List.map_map]
    exact List.map_id _
  · induction log with
    | nil => rfl
    | cons e log ih =>
        obtain ⟨j, e⟩ := e
        rw [List.flatMap_cons, entriesOf_append, ih]
        dsimp only
        by_cases hji : j = i
        · subst hji
          rw [entriesOf_label_self, entriesOf_cons_self, List.flatMap_cons]
        · rw [entriesOf_label_of_ne hji, entriesOf_cons_of_ne hji, List.nil_append]

/-- When only one stream has elements, it is the whole. -/
theorem Interleaves.eq_of_single {streams : ι → List β} {whole : List β} {i : ι}
    (h : Interleaves streams whole) (hothers : ∀ j, j ≠ i → streams j = []) :
    whole = streams i := by
  obtain ⟨labelled, rfl, hstreams⟩ := h
  have hall : labelled.filter (fun e => decide (e.1 = i)) = labelled := by
    apply List.filter_eq_self.2
    intro e he
    by_contra hei
    have hne : e.1 ≠ i := by simpa using hei
    have hempty : entriesOf e.1 labelled = [] := (hstreams e.1).trans (hothers e.1 hne)
    have hmem : e.2 ∈ entriesOf e.1 labelled :=
      List.mem_map_of_mem (List.mem_filter.2 ⟨he, decide_eq_true rfl⟩)
    rw [hempty] at hmem
    cases hmem
  rw [← hstreams i, entriesOf, hall]

end TereServer.Lib
