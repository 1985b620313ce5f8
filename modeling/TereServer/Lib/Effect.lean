import Mathlib.Data.List.Basic

/-!
# Computations that keep their state on an error

The state transformers of this development return an `Except` beside the final
state, so that what a failing computation has already consumed or released is
still visible.  Binds are peeled apart with `bind_eq_ok` and `bind_eq_error`;
no proof unfolds a bind.
-/

namespace TereServer.Lib

/-- A state transformer whose final state is there on success and on an error. -/
def Eff (σ ε α : Type) := σ → Except ε α × σ

namespace Eff

variable {σ τ ε α β : Type}

instance : Monad (Eff σ ε) where
  pure a := fun s => (.ok a, s)
  bind m k := fun s =>
    match m s with
    | (.ok a, s') => k a s'
    | (.error e, s') => (.error e, s')

def fail (e : ε) : Eff σ ε α := fun s => (.error e, s)

def update (f : σ → σ) : Eff σ ε Unit := fun s => (.ok (), f s)

/-- Run `cleanup` on the state when `m` ends in an error, as a destructor does
while the error is returned. -/
def onError (m : Eff σ ε α) (cleanup : σ → σ) : Eff σ ε α := fun s =>
  match m s with
  | (.ok a, s') => (.ok a, s')
  | (.error e, s') => (.error e, cleanup s')

/-- Run `m` on a component of a larger state. -/
def onPart (get : τ → σ) (set : τ → σ → τ) (m : Eff σ ε α) : Eff τ ε α := fun t =>
  ((m (get t)).1, set t (m (get t)).2)

def mapError {ε' : Type} (f : ε → ε') (m : Eff σ ε α) : Eff σ ε' α := fun s =>
  ((m s).1.mapError f, (m s).2)

/-- A result that does not depend on the state. -/
def lift (result : Except ε α) : Eff σ ε α := fun s => (result, s)

/-! ## Inversion rules -/

@[simp] theorem pure_run (a : α) (s : σ) :
    (pure a : Eff σ ε α) s = (.ok a, s) := rfl

@[simp] theorem fail_run (e : ε) (s : σ) :
    (fail e : Eff σ ε α) s = (.error e, s) := rfl

@[simp] theorem update_run (f : σ → σ) (s : σ) :
    (update f : Eff σ ε Unit) s = (.ok (), f s) := rfl

@[simp] theorem lift_run (result : Except ε α) (s : σ) : lift result s = (result, s) := rfl

theorem mapError_of_ok {ε' : Type} {f : ε → ε'} {m : Eff σ ε α} {s s' : σ} {a : α}
    (h : m s = (.ok a, s')) : m.mapError f s = (.ok a, s') := by
  simp [mapError, h, Except.mapError]

theorem mapError_of_error {ε' : Type} {f : ε → ε'} {m : Eff σ ε α} {s s' : σ} {e : ε}
    (h : m s = (.error e, s')) : m.mapError f s = (.error (f e), s') := by
  simp [mapError, h, Except.mapError]

theorem bind_of_ok {m : Eff σ ε α} {k : α → Eff σ ε β} {s s' : σ} {a : α}
    (h : m s = (.ok a, s')) : (m >>= k) s = k a s' := by
  simp only [bind, h]

theorem bind_of_error {m : Eff σ ε α} {k : α → Eff σ ε β} {s s' : σ} {e : ε}
    (h : m s = (.error e, s')) : (m >>= k) s = (.error e, s') := by
  simp only [bind, h]

theorem bind_pure_fst (m : Eff σ ε α) (f : α → β) (s : σ) :
    ((m >>= fun a => Pure.pure (f a)) s).1 = (m s).1.map f := by
  rcases hm : m s with ⟨e | a, s'⟩
  · rw [bind_of_error hm]
    rfl
  · rw [bind_of_ok hm]
    rfl

theorem bind_eq_ok {m : Eff σ ε α} {k : α → Eff σ ε β} {s s'' : σ} {b : β} :
    (m >>= k) s = (.ok b, s'') ↔
      ∃ a s', m s = (.ok a, s') ∧ k a s' = (.ok b, s'') := by
  rcases hm : m s with ⟨_ | a, s'⟩
  · simp [bind_of_error hm]
  · simp [bind_of_ok hm]

theorem bind_eq_error {m : Eff σ ε α} {k : α → Eff σ ε β} {s s'' : σ} {e : ε} :
    (m >>= k) s = (.error e, s'') ↔
      m s = (.error e, s'') ∨
        ∃ a s', m s = (.ok a, s') ∧ k a s' = (.error e, s'') := by
  rcases hm : m s with ⟨e' | a, s'⟩
  · simp [bind_of_error hm]
  · simp [bind_of_ok hm]

theorem onError_eq_ok {m : Eff σ ε α} {cleanup : σ → σ} {s s' : σ} {a : α} :
    m.onError cleanup s = (.ok a, s') ↔ m s = (.ok a, s') := by
  unfold onError
  rcases m s with ⟨_ | _, _⟩ <;> simp

theorem onError_eq_error {m : Eff σ ε α} {cleanup : σ → σ} {s s' : σ} {e : ε} :
    m.onError cleanup s = (.error e, s') ↔
      ∃ s'', m s = (.error e, s'') ∧ s' = cleanup s'' := by
  unfold onError
  rcases m s with ⟨_ | _, _⟩ <;> simp [eq_comm]

/-! ## Relabelling -/

/-- `n` does to the image of a state what `m` does to the state: same verdict
and same error, result and final state relabelled by `g` and `f`. -/
def Relabels (f : σ → τ) (g : α → β) (m : Eff σ ε α) (n : Eff τ ε β) : Prop :=
  ∀ s, n (f s) = ((m s).1.map g, f (m s).2)

theorem Relabels.pure {f : σ → τ} {g : α → β} (a : α) :
    Relabels f g (Pure.pure a : Eff σ ε α) (Pure.pure (g a)) :=
  fun _ => rfl

theorem Relabels.bind {γ δ : Type} {f : σ → τ} {g : α → β} {g' : γ → δ}
    {m : Eff σ ε α} {n : Eff τ ε β} {k : α → Eff σ ε γ} {l : β → Eff τ ε δ}
    (h : Relabels f g m n) (hk : ∀ a, Relabels f g' (k a) (l (g a))) :
    Relabels f g' (m >>= k) (n >>= l) := by
  intro s
  have hs := h s
  rcases hm : m s with ⟨e | a, s'⟩
  · rw [hm] at hs
    rw [bind_of_error hm, bind_of_error hs]
    rfl
  · rw [hm] at hs
    rw [bind_of_ok hm, bind_of_ok hs]
    exact hk a s'

theorem Relabels.onError {f : σ → τ} {g : α → β} {m : Eff σ ε α} {n : Eff τ ε β}
    {c : σ → σ} {d : τ → τ} (h : Relabels f g m n) (hc : ∀ s, d (f s) = f (c s)) :
    Relabels f g (m.onError c) (n.onError d) := by
  intro s
  have hs := h s
  unfold Eff.onError
  rw [hs]
  rcases m s with ⟨_ | _, s'⟩
  · simp [Except.map, hc]
  · simp [Except.map]

end Eff

end TereServer.Lib
