import Mathlib.Data.List.Basic

/-!
# Self-delimiting codes

A code is self-delimiting when the word at the front of a list is known whatever
follows it.  The words of such a code can be put one after the other, and nothing
that a word contains is taken for the end of it.
-/

namespace TereServer.Lib

variable {α β γ : Type*}

def SelfDelimiting (encode : α → List β) : Prop :=
  ∀ a a' rest rest', encode a ++ rest = encode a' ++ rest' → a = a' ∧ rest = rest'

namespace SelfDelimiting

variable {f : α → List β} {g : γ → List β}

/-! ## Codes -/

theorem append_terminator_inj {t : β} {s s' rest rest' : List β} (hs : t ∉ s) (hs' : t ∉ s')
    (h : s ++ t :: rest = s' ++ t :: rest') : s = s' ∧ rest = rest' := by
  induction s generalizing s' with
  | nil =>
      cases s' with
      | nil => exact ⟨rfl, (List.cons.inj h).2⟩
      | cons b s' => exact absurd ((List.cons.inj h).1 ▸ List.mem_cons_self) hs'
  | cons a s ih =>
      cases s' with
      | nil => exact absurd ((List.cons.inj h).1 ▸ List.mem_cons_self) hs
      | cons b s' =>
          obtain ⟨hab, htail⟩ := List.cons.inj h
          obtain ⟨hrest, hrest'⟩ :=
            ih (fun hmem => hs (.tail _ hmem)) (fun hmem => hs' (.tail _ hmem)) htail
          exact ⟨by rw [hab, hrest], hrest'⟩

/-- A word ends where the terminator first occurs. -/
theorem terminated (t : β) : SelfDelimiting fun s : {s : List β // t ∉ s} => s.1 ++ [t] := by
  intro s s' rest rest' h
  have hcons : s.1 ++ t :: rest = s'.1 ++ t :: rest' := by
    simpa only [List.append_assoc, List.singleton_append] using h
  obtain ⟨hs, hrest⟩ := append_terminator_inj s.2 s'.2 hcons
  exact ⟨Subtype.ext hs, hrest⟩

/-- All words have the same length. -/
theorem fixedLength (n : Nat) : SelfDelimiting fun s : {s : List β // s.length = n} => s.1 := by
  intro s s' rest rest' h
  obtain ⟨hs, hrest⟩ := List.append_inj h (s.2.trans s'.2.symm)
  exact ⟨Subtype.ext hs, hrest⟩

/-! ## Composition -/

theorem comp {φ : γ → α} (h : SelfDelimiting f) (hφ : Function.Injective φ) :
    SelfDelimiting fun c => f (φ c) := by
  intro c c' rest rest' heq
  obtain ⟨hc, hrest⟩ := h _ _ rest rest' heq
  exact ⟨hφ hc, hrest⟩

theorem append_const (h : SelfDelimiting f) (tail : List β) :
    SelfDelimiting fun a => f a ++ tail := by
  intro a a' rest rest' heq
  rw [List.append_assoc, List.append_assoc] at heq
  obtain ⟨ha, htail⟩ := h a a' _ _ heq
  exact ⟨ha, List.append_cancel_left htail⟩

theorem pair (hf : SelfDelimiting f) (hg : SelfDelimiting g) :
    SelfDelimiting fun p : α × γ => f p.1 ++ g p.2 := by
  intro p p' rest rest' heq
  rw [List.append_assoc, List.append_assoc] at heq
  obtain ⟨hfst, htail⟩ := hf _ _ _ _ heq
  obtain ⟨hsnd, hrest⟩ := hg _ _ _ _ htail
  exact ⟨Prod.ext hfst hsnd, hrest⟩

/-- A tag in front of each word tells two codes apart. -/
theorem tagged {s t : β} (hst : s ≠ t) (hf : SelfDelimiting f) (hg : SelfDelimiting g) :
    SelfDelimiting (Sum.elim (fun a => s :: f a) (fun c => t :: g c)) := by
  intro x x' rest rest' heq
  cases x with
  | inl a =>
      cases x' with
      | inl a' =>
          obtain ⟨ha, hrest⟩ := hf a a' rest rest' (List.cons.inj heq).2
          exact ⟨congrArg Sum.inl ha, hrest⟩
      | inr c' => exact absurd (List.cons.inj heq).1 hst
  | inr c =>
      cases x' with
      | inl a' => exact absurd (List.cons.inj heq).1 hst.symm
      | inr c' =>
          obtain ⟨hc, hrest⟩ := hg c c' rest rest' (List.cons.inj heq).2
          exact ⟨congrArg Sum.inr hc, hrest⟩

/-! ## Sequences of words -/

/-- A sequence of words is known by their concatenation. -/
theorem flatMap_injective (h : SelfDelimiting f) (hne : ∀ a, f a ≠ []) :
    Function.Injective fun l : List α => l.flatMap f := by
  intro l
  induction l with
  | nil =>
      intro l' heq
      cases l' with
      | nil => rfl
      | cons a' l' => exact absurd (List.append_eq_nil_iff.1 heq.symm).1 (hne a')
  | cons a l ih =>
      intro l' heq
      cases l' with
      | nil => exact absurd (List.append_eq_nil_iff.1 heq).1 (hne a)
      | cons a' l' =>
          obtain ⟨ha, hrest⟩ := h a a' _ _ heq
          rw [ha, ih hrest]

end SelfDelimiting

end TereServer.Lib
