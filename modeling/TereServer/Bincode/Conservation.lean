import TereServer.Bincode.Decode

/-!
# No item is lost by a failing decode

When decoding fails, every item taken from the queue has been released by a
destructor, exactly once, and the others are still in the queue.  `Lost` carries
the items that the failing computation already owned when it started, which is
what makes the statement compose along the fields of a struct and the elements
of a sequence.
-/

namespace TereServer.Bincode

open Lib

/-- Between `src` and `src'` some items were taken; these and the items `owned`
before were released, each once. -/
def Lost {φ : Type} (owned : List φ) (src src' : Source φ) : Prop :=
  ∃ taken rest freed, src.slot = some (taken ++ rest) ∧ src'.slot = some rest ∧
    src'.dropped = src.dropped ++ freed ∧ freed.Perm (owned ++ taken)

namespace Lost

variable {φ : Type} {P : Bytes → Prop} {taken owned : List φ} {src src' src'' : Source φ}

theorem of_read {α : Type} {c : Codec α} {e : ErrorKind} {queue : List φ}
    (hslot : src.slot = some queue) (h : c.read src = (.error e, src')) : Lost [] src src' := by
  obtain ⟨hslot', hdropped⟩ := c.read_keeps src
  rw [h] at hslot' hdropped
  refine ⟨[], queue, [], hslot, hslot'.trans hslot, ?_, .refl _⟩
  rw [List.append_nil]
  exact hdropped

theorem after (h : Consumes P taken src src') (h' : Lost (owned ++ taken) src' src'') :
    Lost owned src src'' := by
  obtain ⟨_, rest, _, _, hslot, hmid, hdropped⟩ := h
  obtain ⟨taken', rest', freed, hmid', hslot', hdropped', hperm⟩ := h'
  obtain rfl : rest = taken' ++ rest' := Option.some.inj (hmid.symm.trans hmid')
  refine ⟨taken ++ taken', rest', freed, ?_, hslot', ?_, ?_⟩
  · rw [hslot, List.append_assoc]
  · rw [hdropped', hdropped]
  · rw [← List.append_assoc]
    exact hperm

theorem drop (h : Lost [] src src') (owned : List φ) : Lost owned src (src'.drop owned) := by
  obtain ⟨taken, rest, freed, hslot, hslot', hdropped, hperm⟩ := h
  refine ⟨taken, rest, freed ++ owned, hslot, hslot', ?_, ?_⟩
  · simp [Source.drop, hdropped]
  · exact (hperm.append_right owned).trans List.perm_append_comm

theorem onError {α : Type} {dec : Dec φ α} {e : ErrorKind} {owned : List φ}
    (h : ∀ src', dec src = (.error e, src') → Lost [] src src')
    (hdec : dec.onError (Source.drop owned) src = (.error e, src')) : Lost owned src src' := by
  obtain ⟨mid, hmid, rfl⟩ := Eff.onError_eq_error.1 hdec
  exact (h mid hmid).drop owned

end Lost

theorem decodeMany_lost {φ α : Type} {dec : Dec φ α} {Layout : α → Bytes → Prop}
    {fds : α → List φ}
    (hok : ∀ src src' a queue, src.slot = some queue → dec src = (.ok a, src') →
      Consumes (Layout a) (fds a) src src')
    (herror : ∀ src src' e queue, src.slot = some queue → dec src = (.error e, src') →
      Lost [] src src')
    {n : Nat} {owned : List φ} {src src' : Source φ} {e : ErrorKind} {queue : List φ}
    (hslot : src.slot = some queue) (h : decodeMany dec fds n owned src = (.error e, src')) :
    Lost owned src src' := by
  induction n generalizing owned src queue with
  | zero => cases h
  | succ n ih =>
      rcases Eff.bind_eq_error.1 h with hhead | ⟨a, mid, hhead, hrest⟩
      · exact Lost.onError (fun src' => herror src src' e queue hslot) hhead
      · have hfirst := hok src mid a queue hslot (Eff.onError_eq_ok.1 hhead)
        obtain ⟨rest, hmid⟩ := hfirst.slot
        rcases Eff.bind_eq_error.1 hrest with htail | ⟨l, mid', htail, hpure⟩
        · exact Lost.after hfirst (ih hmid htail)
        · cases hpure

theorem Schema.decode_lost {φ : Type} {leaf : Leaf φ} (hleaf : LeafLaws leaf) {k : Kind}
    (s : Schema k) {i : Pick k} {src src' : Source φ} {e : ErrorKind} {queue : List φ}
    (hslot : src.slot = some queue) (h : s.decode leaf i src = (.error e, src')) :
    Lost [] src src' := by
  induction s generalizing src src' queue e with
  | int t => exact Lost.of_read hslot h
  | string => exact Lost.of_read hslot h
  | fd =>
      simp only [decode, Leaf.read, Eff.onPart, hslot] at h
      cases queue with
      | nil =>
          obtain ⟨e', he⟩ := hleaf.exhausted
          rw [he] at h
          cases h
          exact ⟨[], [], [], hslot, rfl, by simp, .refl _⟩
      | cons x queue =>
          rw [hleaf.pop] at h
          cases h
  | option s ih =>
      rcases Eff.bind_eq_error.1 h with htag | ⟨tag, mid, htag, hrest⟩
      · exact Lost.of_read hslot htag
      have hread := Consumes.of_read hslot htag
      obtain ⟨rest, hmid⟩ := hread.slot
      cases tag with
      | false => cases hrest
      | true =>
          rcases Eff.bind_eq_error.1 hrest with hv | ⟨v, mid', hv, hpure⟩
          · exact Lost.after hread (ih hmid hv)
          · cases hpure
  | seq s ih =>
      rcases Eff.bind_eq_error.1 h with hlength | ⟨n, mid, hlength, hrest⟩
      · exact Lost.of_read hslot hlength
      have hread := Consumes.of_read hslot hlength
      obtain ⟨rest, hmid⟩ := hread.slot
      rcases Eff.bind_eq_error.1 hrest with hmany | ⟨l, mid', hmany, hpure⟩
      · exact Lost.after hread (decodeMany_lost
          (fun _ _ _ _ hs hd => (s.decode_consumes hleaf hs hd).2)
          (fun _ _ _ _ hs hd => ih hs hd) hmid hmany)
      · cases hpure
  | array s n ih =>
      exact decodeMany_lost (fun _ _ _ _ hs hd => (s.decode_consumes hleaf hs hd).2)
        (fun _ _ _ _ hs hd => ih hs hd) hslot h
  | struct fs ih => exact ih hslot h
  | enum vs fits ih =>
      rcases Eff.bind_eq_error.1 h with hindex | ⟨j, mid, hindex, hrest⟩
      · exact Lost.of_read hslot hindex
      have hread := Consumes.of_read hslot hindex
      obtain ⟨rest, hmid⟩ := hread.slot
      exact Lost.after hread (ih hmid hrest)
  | noFields => cases h
  | field s fs ihs ihfs =>
      rcases Eff.bind_eq_error.1 h with hv | ⟨v, mid, hv, hrest⟩
      · exact ihs hslot hv
      have hfirst := (s.decode_consumes hleaf hslot hv).2
      obtain ⟨rest, hmid⟩ := hfirst.slot
      rcases Eff.bind_eq_error.1 hrest with hvs | ⟨vs, mid', hvs, hpure⟩
      · exact Lost.after hfirst (Lost.onError (fun _ => ihfs hmid) hvs)
      · cases hpure
  | noVariants => exact i.elim0
  | variant fs vs ihfs ihvs =>
      induction i using Fin.cases with
      | zero =>
          rcases Eff.bind_eq_error.1 h with hv | ⟨v, mid, hv, hpure⟩
          · exact ihfs hslot hv
          · cases hpure
      | succ i =>
          rcases Eff.bind_eq_error.1 h with hv | ⟨v, mid, hv, hpure⟩
          · exact ihvs hslot hv
          · cases hpure

/-! ## Whole messages -/

section Deserialize

variable {φ : Type} {leaf : Leaf φ} (hleaf : LeafLaws leaf) (s : Schema .value)
variable {bytes : Bytes} {queue dropped : List φ} {src' : Source φ}

include hleaf

/-- A message is decoded exactly when the payload stands for it and the queue
starts with its items. -/
theorem Schema.deserialize_eq_ok {v : s.Val φ} :
    s.deserialize leaf ⟨bytes, some queue, dropped⟩ = (.ok v, src') ↔
      s.Layout v bytes ∧ ∃ rest, queue = s.fds v ++ rest ∧ src' = ⟨[], some rest, dropped⟩ := by
  constructor
  · intro h
    obtain ⟨v', mid, hdec, hend⟩ := Eff.bind_eq_ok.1 h
    unfold checkEnd at hend
    obtain ⟨-, used, rest, hbytes, hused, hslot, hmid, hdropped⟩ :=
      s.decode_consumes hleaf rfl hdec
    split at hend
    · rename_i hempty
      cases hend
      obtain rfl : queue = s.fds v ++ rest := Option.some.inj hslot
      rw [hempty, List.append_nil] at hbytes
      cases hbytes
      refine ⟨hused, rest, rfl, ?_⟩
      cases src'
      simp only at hempty hmid hdropped
      rw [hempty, hmid, hdropped]
    · cases hend
  · rintro ⟨hlayout, rest, rfl, rfl⟩
    have h := s.decode_accepts hleaf v bytes hlayout [] rest dropped
    rw [List.append_nil] at h
    exact Eff.bind_eq_ok.2 ⟨v, _, h, if_pos rfl⟩

/-- Decoding fails without losing an item. -/
theorem Schema.deserialize_lost {e : ErrorKind}
    (h : s.deserialize leaf ⟨bytes, some queue, dropped⟩ = (.error e, src')) :
    Lost [] ⟨bytes, some queue, dropped⟩ src' := by
  rcases Eff.bind_eq_error.1 h with hdec | ⟨v, mid, hdec, hend⟩
  · exact s.decode_lost hleaf rfl hdec
  · unfold checkEnd at hend
    have hread := (s.decode_consumes hleaf rfl hdec).2
    obtain ⟨rest, hmid⟩ := hread.slot
    split at hend
    · cases hend
    · cases hend
      exact Lost.after hread (Lost.drop ⟨[], rest, [], hmid, hmid, by simp, .refl _⟩ _)

end Deserialize

end TereServer.Bincode
