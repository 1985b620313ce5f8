import Mathlib.Data.List.Induction
import TereServer.Lib.Transition

/-!
# Registries

Clients register keys, one after the other, and give each of their registrations a
value before the next one.  Nothing is removed and no value is changed.
-/

namespace TereServer.Lib

variable {κ ι ν : Type*}

structure Registration (κ ι ν : Type*) where
  key : κ
  client : ι
  number : Nat
  value : Option ν

section Follows

variable [DecidableEq ι]

def registeredBy (client : ι) (registrations : List (Registration κ ι ν)) : Nat :=
  registrations.countP fun r => r.client = client

/-- A registration may be the next one after others. -/
structure Follows (before : List (Registration κ ι ν)) (r : Registration κ ι ν) : Prop where
  fresh : r.key ∉ before.map Registration.key
  sequential : ∀ r' ∈ before, r'.client = r.client → r'.value.isSome = true
  numbered : r.number = registeredBy r.client before + 1

end Follows

/-- The registrations in their order. -/
structure Registry (κ ι ν : Type*) [DecidableEq ι] where
  registrations : List (Registration κ ι ν)
  justified : Justified Follows registrations

namespace Registry

variable [DecidableEq κ] [DecidableEq ι]

inductive Event (κ ι ν : Type*)
  | reserve (key : κ) (client : ι)
  | complete (key : κ) (value : ν)

def empty : Registry κ ι ν := ⟨[], justified_nil⟩

def find (registry : Registry κ ι ν) (key : κ) : Option (Registration κ ι ν) :=
  registry.registrations.find? fun r => r.key = key

/-- The key is free, and the client has no registration without a value. -/
def Admits (registry : Registry κ ι ν) (key : κ) (client : ι) : Prop :=
  key ∉ registry.registrations.map Registration.key ∧
    ∀ r ∈ registry.registrations, r.client = client → r.value.isSome = true

instance (registry : Registry κ ι ν) (key : κ) (client : ι) :
    Decidable (registry.Admits key client) := inferInstanceAs (Decidable (_ ∧ _))

/-- The key is registered and has no value yet. -/
def Awaits (registry : Registry κ ι ν) (key : κ) : Prop :=
  ∃ r ∈ registry.registrations, r.key = key ∧ r.value.isNone = true

instance (registry : Registry κ ι ν) (key : κ) : Decidable (registry.Awaits key) :=
  inferInstanceAs (Decidable (∃ _ ∈ _, _))

def next (registry : Registry κ ι ν) (key : κ) (client : ι) : Registration κ ι ν :=
  ⟨key, client, registeredBy client registry.registrations + 1, none⟩

def reserve (registry : Registry κ ι ν) {key : κ} {client : ι}
    (h : registry.Admits key client) : Registry κ ι ν where
  registrations := registry.registrations ++ [registry.next key client]
  justified := registry.justified.snoc ⟨h.1, h.2, rfl⟩

end Registry

/-- A registration gets the value that is for its key. -/
def Registration.complete [DecidableEq κ] (key : κ) (value : ν) (r : Registration κ ι ν) :
    Registration κ ι ν :=
  if r.key = key then { r with value := some value } else r

section Complete

variable [DecidableEq κ] {key : κ} {value : ν} {r : Registration κ ι ν}
  {registrations : List (Registration κ ι ν)}

@[simp] theorem Registration.complete_key : (r.complete key value).key = r.key := by
  unfold complete
  split <;> rfl

@[simp] theorem Registration.complete_client : (r.complete key value).client = r.client := by
  unfold complete
  split <;> rfl

@[simp] theorem Registration.complete_number : (r.complete key value).number = r.number := by
  unfold complete
  split <;> rfl

theorem Registration.complete_isSome (h : r.value.isSome = true) :
    (r.complete key value).value.isSome = true := by
  unfold complete
  split
  · rfl
  · exact h

theorem map_complete_key :
    (registrations.map (Registration.complete key value)).map Registration.key =
      registrations.map Registration.key := by
  rw [List.map_map]
  exact List.map_congr_left fun r _ => r.complete_key

theorem registeredBy_complete [DecidableEq ι] {client : ι} :
    registeredBy client (registrations.map (Registration.complete key value)) =
      registeredBy client registrations := by
  unfold registeredBy
  rw [List.countP_map]
  apply List.countP_congr
  intro r _
  simp

theorem Follows.complete [DecidableEq ι] (h : Follows registrations r) :
    Follows (registrations.map (Registration.complete key value)) (r.complete key value) where
  fresh := by
    rw [map_complete_key, Registration.complete_key]
    exact h.fresh
  sequential r' hr' hclient := by
    obtain ⟨r₀, hr₀, rfl⟩ := List.mem_map.1 hr'
    rw [Registration.complete_client, Registration.complete_client] at hclient
    exact Registration.complete_isSome (h.sequential r₀ hr₀ hclient)
  numbered := by
    rw [registeredBy_complete, Registration.complete_client, Registration.complete_number]
    exact h.numbered

end Complete

namespace Registry

variable [DecidableEq κ] [DecidableEq ι]

def complete (registry : Registry κ ι ν) (key : κ) (value : ν) : Registry κ ι ν where
  registrations := registry.registrations.map (Registration.complete key value)
  justified := registry.justified.map fun _ _ => Follows.complete

def step (registry : Registry κ ι ν) : Event κ ι ν → Option (Registry κ ι ν)
  | .reserve key client =>
      if h : registry.Admits key client then some (registry.reserve h) else none
  | .complete key value =>
      if registry.Awaits key then some (registry.complete key value) else none

variable {registry registry' : Registry κ ι ν} {key : κ} {client : ι} {value : ν}

theorem step_reserve_eq_some :
    registry.step (.reserve key client) = some registry' ↔
      ∃ h : registry.Admits key client, registry' = registry.reserve h := by
  unfold step
  by_cases h : registry.Admits key client
  · simp [h, eq_comm]
  · simp [h]

theorem step_complete_eq_some :
    registry.step (.complete key value) = some registry' ↔
      registry.Awaits key ∧ registry' = registry.complete key value := by
  unfold step
  by_cases h : registry.Awaits key
  · simp [h, eq_comm]
  · simp [h]

end Registry

/-! ## The numbers of a client -/

/-- A client has given its registrations the numbers from 1. -/
theorem Justified.exists_number_iff [DecidableEq ι] {registrations : List (Registration κ ι ν)}
    (h : Justified Follows registrations) {client : ι} {n : Nat} :
    (∃ r ∈ registrations, r.client = client ∧ r.number = n) ↔
      1 ≤ n ∧ n ≤ registeredBy client registrations := by
  induction registrations using List.reverseRecOn with
  | nil =>
      unfold registeredBy
      simp
      omega
  | append_singleton before r ih =>
      have hbefore : Justified Follows before := fun first r' after hsplit =>
        h first r' (after ++ [r]) (by rw [hsplit]; simp)
      have hfollows := (h before r [] rfl).numbered
      have ih := ih hbefore
      unfold registeredBy at hfollows ih ⊢
      rw [List.countP_append, List.countP_singleton]
      by_cases hclient : r.client = client
      · subst hclient
        simp only [decide_true, if_true]
        constructor
        · rintro ⟨r', hr', hsame, rfl⟩
          rcases List.mem_append.1 hr' with hold | hnew
          · have hle := ih.1 ⟨r', hold, hsame, rfl⟩
            omega
          · obtain rfl := List.mem_singleton.1 hnew
            omega
        · intro hn
          by_cases hlast : n = r.number
          · exact ⟨r, by simp, rfl, hlast.symm⟩
          · obtain ⟨r', hr', hsame⟩ := ih.2 ⟨hn.1, by omega⟩
            exact ⟨r', List.mem_append_left _ hr', hsame⟩
      · simp only [hclient, decide_false, Bool.false_eq_true, if_false, Nat.add_zero]
        rw [← ih]
        constructor
        · rintro ⟨r', hr', hsame, hnumber⟩
          rcases List.mem_append.1 hr' with hold | hnew
          · exact ⟨r', hold, hsame, hnumber⟩
          · obtain rfl := List.mem_singleton.1 hnew
            exact absurd hsame hclient
        · rintro ⟨r', hr', hsame⟩
          exact ⟨r', List.mem_append_left _ hr', hsame⟩

end TereServer.Lib
