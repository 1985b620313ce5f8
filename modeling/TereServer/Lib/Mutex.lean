import Mathlib.Data.List.Basic

/-!
# Shared objects of several threads

A mutex owns its value, and a thread that panics while it holds the mutex
poisons it.  Objects that are allocated one after the other and never freed are
a list, and a reference to one is its position.
-/

namespace TereServer.Lib

structure Mutex (τ α : Type*) where
  value : α
  holder : Option τ
  poisoned : Bool

namespace Mutex

variable {τ α : Type*} {m m' : Mutex τ α} {t : τ}

def new (value : α) : Mutex τ α := ⟨value, none, false⟩

/-- How a call of `lock` ends, or that it does not end yet. -/
inductive Locked (τ α : Type*)
  | blocked
  | poisoned
  | acquired (m : Mutex τ α)

/-- The error about a poisoned mutex is dropped, and with it the guard in it. -/
def lock (m : Mutex τ α) (t : τ) : Locked τ α :=
  match m.holder with
  | some _ => .blocked
  | none => if m.poisoned then .poisoned else .acquired { m with holder := some t }

/-- The holder writes a value and drops its guard. -/
def release (m : Mutex τ α) (value : α) : Mutex τ α := { m with value, holder := none }

/-- The holder panics. -/
def poison (m : Mutex τ α) : Mutex τ α := { m with holder := none, poisoned := true }

theorem lock_eq_acquired (h : m.lock t = .acquired m') :
    m.holder = none ∧ m' = { m with holder := some t } := by
  unfold lock at h
  split at h
  · cases h
  · rename_i hfree
    split at h
    · cases h
    · exact ⟨hfree, (Locked.acquired.inj h).symm⟩

theorem lock_eq_poisoned (h : m.lock t = .poisoned) : m.poisoned = true := by
  unfold lock at h
  split at h
  · cases h
  · split at h
    · assumption
    · cases h

end Mutex

/-! ## Objects that are never freed -/

section Heap

variable {α β : Type*} {heap : List α} {f : α → α} {i k : Nat} {a a' : α}

theorem getElem?_modify_eq_some :
    (heap.modify k f)[i]? = some a' ↔ ∃ a, heap[i]? = some a ∧ a' = if k = i then f a else a := by
  rw [List.getElem?_modify]
  cases heap[i]? with
  | none => simp
  | some a => simp [eq_comm]

theorem getElem?_modify_of_some (h : heap[i]? = some a) :
    (heap.modify k f)[i]? = some (if k = i then f a else a) :=
  getElem?_modify_eq_some.2 ⟨a, h, rfl⟩

theorem map_modify_of_eq {g : α → β} (h : ∀ a, heap[k]? = some a → g (f a) = g a) :
    (heap.modify k f).map g = heap.map g := by
  apply List.ext_getElem?
  intro i
  rw [List.getElem?_map, List.getElem?_map, List.getElem?_modify]
  by_cases hk : k = i
  · subst hk
    cases ha : heap[k]? with
    | none => rfl
    | some a => simp [h a ha]
  · simp [hk]

theorem getElem?_append_of_some {heap' : List α} (h : heap[i]? = some a) :
    (heap ++ heap')[i]? = some a := by
  obtain ⟨hi, -⟩ := List.getElem?_eq_some_iff.1 h
  rw [List.getElem?_append_left hi, h]

theorem getElem?_snoc_eq_some (h : (heap ++ [a])[i]? = some a') :
    heap[i]? = some a' ∨ i = heap.length ∧ a' = a := by
  rcases Nat.lt_trichotomy i heap.length with hi | hi | hi
  · rw [List.getElem?_append_left hi] at h
    exact .inl h
  · subst hi
    rw [List.getElem?_concat_length] at h
    exact .inr ⟨rfl, (Option.some.inj h).symm⟩
  · rw [List.getElem?_append_right (Nat.le_of_lt hi), List.getElem?_eq_none] at h
    · cases h
    · simp only [List.length_singleton]
      omega

end Heap

end TereServer.Lib
