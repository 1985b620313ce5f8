import TereServer.Bincode.Conservation

/-!
# Decoding does not look at the items

The decoder moves out-of-band items from the queue into a value without
inspecting them.  Relabelling the items before or after decoding is the same,
on success and on every error.
-/

namespace TereServer.Bincode

open Lib

section Relabel

variable {φ ψ : Type} (f : φ → ψ)

theorem Schema.listed_map {α β : Type} {P : α → Bytes → Prop} {Q : β → Bytes → Prop} {g : α → β}
    (h : ∀ a bytes, Q (g a) bytes ↔ P a bytes) (l : List α) (bytes : Bytes) :
    Listed Q (l.map g) bytes ↔ Listed P l bytes := by
  induction l generalizing bytes with
  | nil => rfl
  | cons a l ih => simp only [List.map_cons, Listed, Chain, h, ih]

/-- The bytes of a value do not depend on its out-of-band items. -/
theorem Schema.layout_map {k : Kind} (s : Schema k) (v : s.Val φ) (bytes : Bytes) :
    s.Layout (s.map f v) bytes ↔ s.Layout v bytes := by
  induction s generalizing bytes with
  | int t => rfl
  | string => rfl
  | fd => rfl
  | option s ih =>
      cases v with
      | none => rfl
      | some v => exact Chain.congr (fun _ => Iff.rfl) (ih v) bytes
  | seq s ih =>
      have hlength : Vec.len (s.seq.map f v) = Vec.len v := Subtype.ext (List.length_map _)
      simp only [Layout, Chain, hlength]
      simp only [map, listed_map ih]
  | array s n ih => exact listed_map ih v.1 bytes
  | struct fs ih => exact ih v bytes
  | enum vs fits ih =>
      have hpick : vs.pick (vs.map f v) = vs.pick v := pick_map f vs v
      refine Chain.congr (fun front => ?_) (ih v) bytes
      rw [← hpick]
      rfl
  | noFields => rfl
  | field s fs ihs ihfs => exact Chain.congr (ihs v.1) (ihfs v.2) bytes
  | noVariants => exact Empty.elim v
  | variant fs vs ihfs ihvs =>
      cases v with
      | inl v => exact ihfs v bytes
      | inr v => exact ihvs v bytes

theorem Codec.read_relabels {α : Type} (c : Codec α) :
    Eff.Relabels (Source.map f) id (c.read : Dec φ α) (c.read : Dec ψ α) := by
  intro src
  refine Prod.ext ?_ rfl
  exact (congrFun Except.map_id _).symm

theorem Leaf.read_relabels {leaf : Leaf φ} {leaf' : Leaf ψ}
    (h : Eff.Relabels (Option.map (List.map f)) f leaf leaf') :
    Eff.Relabels (Source.map f) f leaf.read leaf'.read := by
  intro src
  have hslot := h src.slot
  simp only [Leaf.read, Eff.onPart, Source.map, hslot]

theorem Source.drop_map {items : List φ} {items' : List ψ} (h : items' = items.map f)
    (src : Source φ) : (src.map f).drop items' = (src.drop items).map f := by
  simp [Source.drop, Source.map, h]

theorem decodeMany_relabels {α β : Type} {dec : Dec φ α} {dec' : Dec ψ β} {g : α → β}
    {fds : α → List φ} {fds' : β → List ψ} (hdec : Eff.Relabels (Source.map f) g dec dec')
    (hfds : ∀ a, fds' (g a) = (fds a).map f) (n : Nat) (owned : List φ) :
    Eff.Relabels (Source.map f) (fun l => ⟨l.1.map g, by simpa using l.2⟩)
      (decodeMany dec fds n owned) (decodeMany dec' fds' n (owned.map f)) := by
  induction n generalizing owned with
  | zero => exact Eff.Relabels.pure _
  | succ n ih =>
      refine Eff.Relabels.bind (hdec.onError (Source.drop_map f rfl)) fun a => ?_
      rw [hfds, ← List.map_append]
      exact Eff.Relabels.bind (ih _) fun l => Eff.Relabels.pure _

theorem Schema.decode_relabels {leaf : Leaf φ} {leaf' : Leaf ψ}
    (h : Eff.Relabels (Option.map (List.map f)) f leaf leaf') {k : Kind} (s : Schema k)
    (i : Pick k) :
    Eff.Relabels (Source.map f) (s.map f) (s.decode leaf i) (s.decode leaf' i) := by
  induction s with
  | int t => exact Codec.read_relabels f _
  | string => exact Codec.read_relabels f _
  | fd => exact Leaf.read_relabels f h
  | option s ih =>
      refine Eff.Relabels.bind (Codec.read_relabels f _) fun tag => ?_
      cases tag with
      | false => exact Eff.Relabels.pure _
      | true => exact Eff.Relabels.bind (ih ()) fun v => Eff.Relabels.pure _
  | seq s ih =>
      refine Eff.Relabels.bind (Codec.read_relabels f _) fun n => ?_
      refine Eff.Relabels.bind (decodeMany_relabels f (ih ()) (fds_map f s) n.1 []) fun l => ?_
      exact Eff.Relabels.pure _
  | array s n ih => exact decodeMany_relabels f (ih ()) (fds_map f s) n []
  | struct fs ih => exact ih ()
  | enum vs fits ih =>
      exact Eff.Relabels.bind (Codec.read_relabels f _) fun j => ih j
  | noFields => exact Eff.Relabels.pure _
  | field s fs ihs ihfs =>
      refine Eff.Relabels.bind (ihs ()) fun v => ?_
      refine Eff.Relabels.bind ((ihfs ()).onError (Source.drop_map f (fds_map f s v))) fun vs => ?_
      exact Eff.Relabels.pure _
  | noVariants => exact i.elim0
  | variant fs vs ihfs ihvs =>
      induction i using Fin.cases with
      | zero => exact Eff.Relabels.bind (ihfs ()) fun v => Eff.Relabels.pure _
      | succ i => exact Eff.Relabels.bind (ihvs i) fun v => Eff.Relabels.pure _

theorem Schema.deserialize_relabels {leaf : Leaf φ} {leaf' : Leaf ψ}
    (h : Eff.Relabels (Option.map (List.map f)) f leaf leaf') (s : Schema .value) :
    Eff.Relabels (Source.map f) (s.map f) (s.deserialize leaf) (s.deserialize leaf') := by
  refine Eff.Relabels.bind (s.decode_relabels f h ()) fun v src => ?_
  have hdrop := Source.drop_map f (fds_map f s v) src
  by_cases hempty : src.bytes = []
  · simp [checkEnd, Source.map, hempty, Except.map]
  · have hempty' : (src.map f).bytes ≠ [] := hempty
    simp only [checkEnd, if_neg hempty, if_neg hempty', hdrop]
    rfl

end Relabel

end TereServer.Bincode
