import TereServer.Bincode.Relabel
import TereServer.Bincode.Serialize
import TereServer.Ipc.OwnedFd

/-!
# Passing fds beside serde

`serialize` and `deserialize` are the `serde(with)` functions of an fd field;
they reach the fds of the message at hand through a thread-local slot.
`gatherFdsToVec` and `scatterFdsFromVecDeque` fill the slot around a closure and
hand its contents back when the closure ends, however it ends: the result type
`R` says whether it returned a value, an error, or unwound.
-/

namespace TereServer.Ipc.PassFd

open Lib Bincode

variable {φ R : Type}

/-- `gather_fds_to_vec`, with the out parameter returned beside the result. -/
def gatherFdsToVec (out : List RawFd) (ser : Thread φ → R × Thread φ) (th : Thread φ) :
    R × List RawFd × Thread φ :=
  -- debug_assert: the old value is None
  let th := { th with oobSer := some out }
  let (r, th) := ser th
  match th.oobSer with
  | some gathered => (r, gathered, { th with oobSer := none })
  | none => (r, [], th)

def serialize (f : OwnedFd) : Eff (Option (List RawFd)) ErrorKind Unit
  | none => (.error (.custom "PassFd can only be serialized via passfd::gather_*"), none)
  | some oob => (.ok (), some (oob ++ [f.asRawFd]))

/-- `scatter_fds_from_vec_deque`; the caller's queue is returned beside the
result. -/
def scatterFdsFromVecDeque (fds : List φ) (de : Thread φ → R × Thread φ) (th : Thread φ) :
    R × List φ × Thread φ :=
  -- debug_assert: the old value is None; it is dropped here
  let th := { th.close (th.oobDe.getD []) with oobDe := some fds }
  let (r, th) := de th
  match th.oobDe with
  | some left => (r, left, { th with oobDe := none })
  | none => (r, [], th)

/-- `passfd::deserialize`: the fd moves from the queue to the field. -/
def deserialize : Leaf φ
  | none => (.error (.custom "PassFd can only be deserialized via receive_with_fds"), none)
  | some [] => (.error (.custom "received too few FDs"), some [])
  | some (file :: oob) => (.ok file, some oob)

theorem gather_idle {out : List RawFd} {ser : Thread φ → R × Thread φ} {th : Thread φ}
    (hser : ∀ th, (ser th).2.oobDe = th.oobDe) (h : th.Idle) :
    (gatherFdsToVec out ser th).2.2.Idle := by
  have hde := hser { th with oobSer := some out }
  unfold gatherFdsToVec
  dsimp only
  split
  · exact ⟨rfl, hde.trans h.2⟩
  · rename_i hslot
    exact ⟨hslot, hde.trans h.2⟩

theorem scatter_idle {fds : List φ} {de : Thread φ → R × Thread φ} {th : Thread φ}
    (hde : ∀ th, (de th).2.oobSer = th.oobSer) (h : th.Idle) :
    (scatterFdsFromVecDeque fds de th).2.2.Idle := by
  have hser := hde { th.close (th.oobDe.getD []) with oobDe := some fds }
  unfold scatterFdsFromVecDeque
  dsimp only
  split
  · exact ⟨hser.trans h.1, rfl⟩
  · rename_i hslot
    exact ⟨hser.trans h.1, hslot⟩

theorem serialize_pushLaws : PushLaws serialize OwnedFd.asRawFd := fun _ _ => rfl

theorem deserialize_leafLaws : LeafLaws (deserialize (φ := φ)) where
  pop _ _ := rfl
  exhausted := ⟨_, rfl⟩

theorem deserialize_relabels {ψ : Type} (f : φ → ψ) :
    Eff.Relabels (Option.map (List.map f)) f deserialize deserialize := by
  intro slot
  rcases slot with _ | _ | ⟨file, oob⟩ <;> rfl

/-! ## One message -/

/-- The closure of `send_with_fds`: serialize a value into an empty buffer. -/
def encodeMessage (s : Schema .value) (v : s.Val OwnedFd) (th : Thread OwnedFd) :
    (Except ErrorKind Unit × Bytes) × Thread OwnedFd :=
  let (r, sink) := s.serialize serialize v ⟨[], th.oobSer⟩
  ((r, sink.bytes), { th with oobSer := sink.slot })

/-- The closure of `receive_with_fds`: decode one value from the whole buffer. -/
def decodeMessage (s : Schema .value) (encoded : Bytes) (th : Thread φ) :
    Except ErrorKind (s.Val φ) × Thread φ :=
  let (r, src) := s.deserialize deserialize ⟨encoded, th.oobDe, th.closed⟩
  (r, { th with oobDe := src.slot, closed := src.dropped })

theorem gather_encodeMessage (s : Schema .value) (v : s.Val OwnedFd) {th : Thread OwnedFd}
    (hidle : th.Idle) :
    gatherFdsToVec [] (encodeMessage s v) th =
      ((.ok (), s.encode v), (s.fds v).map OwnedFd.asRawFd, th) := by
  have h := s.serialize_emits serialize_pushLaws v [] []
  have hslot := hidle.1
  simp only [List.nil_append] at h
  cases th
  simp only at hslot
  simp [gatherFdsToVec, encodeMessage, h, hslot]

theorem scatter_decodeMessage_ok (s : Schema .value) (encoded : Bytes) {fds left : List φ}
    {th th' : Thread φ} {v : s.Val φ} (hidle : th.Idle) :
    scatterFdsFromVecDeque fds (decodeMessage s encoded) th = (.ok v, left, th') ↔
      s.Layout v encoded ∧ fds = s.fds v ++ left ∧ th' = th := by
  obtain ⟨oobSer, oobDe, closed⟩ := th
  obtain rfl : oobDe = none := hidle.2
  have hiff (src : Source φ) : s.deserialize deserialize ⟨encoded, some fds, closed⟩ = (.ok v, src) ↔
      s.Layout v encoded ∧ ∃ rest, fds = s.fds v ++ rest ∧ src = ⟨[], some rest, closed⟩ :=
    Schema.deserialize_eq_ok deserialize_leafLaws s
  simp only [scatterFdsFromVecDeque, decodeMessage, Thread.close, Option.getD_none,
    List.append_nil]
  rcases hd : s.deserialize deserialize ⟨encoded, some fds, closed⟩ with ⟨r, src⟩
  constructor
  · intro h
    rcases hslot : src.slot with _ | queue
    · simp only [hslot, Prod.mk.injEq] at h
      obtain ⟨rfl, -, -⟩ := h
      obtain ⟨-, rest, -, rfl⟩ := (hiff _).1 hd
      cases hslot
    · simp only [hslot, Prod.mk.injEq] at h
      obtain ⟨rfl, rfl, rfl⟩ := h
      obtain ⟨hlayout, rest, hfds, rfl⟩ := (hiff _).1 hd
      cases hslot
      exact ⟨hlayout, hfds, rfl⟩
  · rintro ⟨hlayout, hfds, rfl⟩
    have h := (hiff _).2 ⟨hlayout, left, hfds, rfl⟩
    rw [hd] at h
    cases h
    rfl

theorem scatter_decodeMessage_error (s : Schema .value) (encoded : Bytes) {fds left : List φ}
    {th th' : Thread φ} {e : ErrorKind} (hidle : th.Idle)
    (h : scatterFdsFromVecDeque fds (decodeMessage s encoded) th = (.error e, left, th')) :
    ∃ freed, th' = th.close freed ∧ (freed ++ left).Perm fds := by
  obtain ⟨oobSer, oobDe, closed⟩ := th
  obtain rfl : oobDe = none := hidle.2
  simp only [scatterFdsFromVecDeque, decodeMessage, Thread.close, Option.getD_none,
    List.append_nil] at h
  rcases hd : s.deserialize deserialize ⟨encoded, some fds, closed⟩ with ⟨r, src⟩
  rw [hd] at h
  have hr : r = .error e := by
    rcases hslot : src.slot with _ | queue <;> simp only [hslot, Prod.mk.injEq] at h <;> exact h.1
  rw [hr] at hd
  obtain ⟨taken, rest, freed, hfds, hslot, hdropped, hperm⟩ :=
    Schema.deserialize_lost deserialize_leafLaws s hd
  simp only [hslot, Prod.mk.injEq] at h
  obtain ⟨-, rfl, rfl⟩ := h
  obtain rfl : fds = taken ++ rest := Option.some.inj hfds
  exact ⟨freed, by rw [hdropped]; rfl, hperm.append_right rest⟩

end TereServer.Ipc.PassFd
