import TereServer.Ipc.PassFd

/-!
# The slots of a thread over many calls

Calls of `gather_fds_to_vec` and `scatter_fds_from_vec_deque` on one thread, one after
the other, with any closures around the `serde(with)` functions.  A closure is given by
the calls it makes, each of which may depend on what came of those before; how it ends
(with a value, with an error or by unwinding) is its result.
-/

namespace TereServer.Ipc.PassFd

open Lib Bincode

variable {φ R : Type}

/-! ## Closures -/

/-- `passfd::serialize`, whose serializer answers `unit`. -/
def serializeTo (unit : Except ErrorKind Unit) (f : OwnedFd) :
    Eff (Option (List RawFd)) ErrorKind Unit := do
  serialize f
  Eff.lift unit

/-- `passfd::deserialize`, whose deserializer answers `unit`. -/
def deserializeFrom (unit : Except ErrorKind Unit) : Eff (Option (List φ)) ErrorKind φ := do
  Eff.lift unit
  deserialize

inductive Serializing (R : Type)
  | done (r : R)
  | serialize (f : OwnedFd) (unit : Except ErrorKind Unit)
      (next : Except ErrorKind Unit → Serializing R)

/-- A closure around a deserializer; `drop` closes the `n`-th of the fds it holds. -/
inductive Deserializing (φ R : Type)
  | done (r : R)
  | deserialize (unit : Except ErrorKind Unit) (next : Except ErrorKind φ → Deserializing φ R)
  | drop (n : Nat) (next : Deserializing φ R)

namespace Serializing

def run : Serializing R → Thread φ → R × Thread φ
  | done r, th => (r, th)
  | serialize f unit next, th =>
      let result := serializeTo unit f th.oobSer
      (next result.1).run { th with oobSer := result.2 }

/-- What a closure serializes inside a gather, up to where it ends. -/
def serialized : Serializing R → List RawFd
  | done _ => []
  | serialize f unit next => f.asRawFd :: (next unit).serialized

def ending : Serializing R → R
  | done r => r
  | serialize _ unit next => (next unit).ending

end Serializing

namespace Deserializing

/-- The fds that are held at the end are part of the result. -/
def run : Deserializing φ R → (held : List φ) → Thread φ → (R × List φ) × Thread φ
  | done r, held, th => ((r, held), th)
  | deserialize unit next, held, th =>
      let result := deserializeFrom unit th.oobDe
      let th := { th with oobDe := result.2 }
      match result.1 with
      | .ok f => (next (.ok f)).run (held ++ [f]) th
      | .error e => (next (.error e)).run held th
  | drop n next, held, th => next.run (held.eraseIdx n) (th.close held[n]?.toList)

/-- What a closure is handed from a queue, in order. -/
def handed : Deserializing φ R → (queue : List φ) → List φ
  | done _, _ => []
  | deserialize unit next, queue =>
      match unit, queue with
      | .error e, queue => (next (.error e)).handed queue
      | .ok (), [] => (next (.error (.custom "received too few FDs"))).handed []
      | .ok (), f :: queue => f :: (next (.ok f)).handed queue
  | drop _ next, queue => next.handed queue

end Deserializing

/-! ## What a call does to a slot -/

theorem serializeTo_inside (unit : Except ErrorKind Unit) (f : OwnedFd) (oob : List RawFd) :
    serializeTo unit f (some oob) = (unit, some (oob ++ [f.asRawFd])) := by
  have hpush : serialize f (some oob) = (.ok (), some (oob ++ [f.asRawFd])) := rfl
  rw [serializeTo, Eff.bind_of_ok hpush, Eff.lift_run]

theorem serializeTo_outside (unit : Except ErrorKind Unit) (f : OwnedFd) :
    serializeTo unit f none =
      (.error (.custom "PassFd can only be serialized via passfd::gather_*"), none) := by
  have hfail : serialize f none =
    (.error (.custom "PassFd can only be serialized via passfd::gather_*"), none) := rfl
  rw [serializeTo, Eff.bind_of_error hfail]

theorem deserializeFrom_error (e : ErrorKind) (slot : Option (List φ)) :
    deserializeFrom (.error e) slot = (.error e, slot) := by
  rw [deserializeFrom, Eff.bind_of_error (Eff.lift_run (.error e) slot)]

theorem deserializeFrom_ok (slot : Option (List φ)) :
    deserializeFrom (.ok ()) slot = deserialize slot := by
  rw [deserializeFrom, Eff.bind_of_ok (Eff.lift_run (.ok ()) slot)]

theorem deserializeFrom_exhausted (unit : Except ErrorKind Unit) :
    ∃ e, deserializeFrom unit (some ([] : List φ)) = (.error e, some []) := by
  cases unit with
  | error e => exact ⟨e, deserializeFrom_error e _⟩
  | ok u => exact ⟨_, deserializeFrom_ok _⟩

theorem deserializeFrom_outside (unit : Except ErrorKind Unit) :
    ∃ e, deserializeFrom unit (none : Option (List φ)) = (.error e, none) := by
  cases unit with
  | error e => exact ⟨e, deserializeFrom_error e _⟩
  | ok u => exact ⟨_, deserializeFrom_ok _⟩

/-! ## Gathering -/

theorem Serializing.run_inside (ser : Serializing R) (th : Thread φ) (oob : List RawFd) :
    ser.run { th with oobSer := some oob } =
      (ser.ending, { th with oobSer := some (oob ++ ser.serialized) }) := by
  induction ser generalizing oob with
  | done r => rw [run, ending, serialized, List.append_nil]
  | serialize f unit next ih =>
      rw [run, serializeTo_inside, ending, serialized]
      dsimp only
      rw [ih unit, List.append_assoc]
      rfl

theorem gather_run (out : List RawFd) (ser : Serializing R) {th : Thread φ} (h : th.oobSer = none) :
    gatherFdsToVec out ser.run th = (ser.ending, out ++ ser.serialized, th) := by
  obtain ⟨oobSer, oobDe, closed⟩ := th
  obtain rfl : oobSer = none := h
  have hrun := ser.run_inside ⟨none, oobDe, closed⟩ out
  dsimp only at hrun
  simp only [gatherFdsToVec, hrun]

/-! ## Scattering -/

theorem perm_eraseIdx (held : List φ) (n : Nat) :
    (held[n]?.toList ++ held.eraseIdx n).Perm held := by
  by_cases hn : n < held.length
  · rw [List.getElem?_eq_getElem hn, Option.toList_some]
    exact List.getElem_cons_eraseIdx_perm hn
  · rw [List.getElem?_eq_none (Nat.not_lt.1 hn), List.eraseIdx_of_length_le (Nat.not_lt.1 hn)]
    exact .rfl

theorem close_append (th : Thread φ) (first second : List φ) :
    th.close (first ++ second) = (th.close first).close second := by
  simp only [Thread.close, List.append_assoc]

/-- A closure that runs on a queue: what it was handed comes first in the queue, and it
holds it or has closed it. -/
theorem Deserializing.run_inside (de : Deserializing φ R) (held queue : List φ) (th : Thread φ) :
    ∃ r held' left freed, de.run held { th with oobDe := some queue } =
        ((r, held'), { th.close freed with oobDe := some left }) ∧
      de.handed queue ++ left = queue ∧ (held' ++ freed).Perm (held ++ de.handed queue) := by
  induction de generalizing held queue th with
  | done r =>
      refine ⟨r, held, queue, [], ?_, rfl, .rfl⟩
      simp [run, Thread.close]
  | deserialize unit next ih =>
      cases unit with
      | error e =>
          rw [run, deserializeFrom_error]
          exact ih (.error e) held queue th
      | ok u =>
          rw [run, deserializeFrom_ok]
          cases queue with
          | nil => exact ih (.error (.custom "received too few FDs")) held [] th
          | cons f queue =>
              obtain ⟨r, held', left, freed, hrun, hqueue, hperm⟩ :=
                ih (.ok f) (held ++ [f]) queue th
              refine ⟨r, held', left, freed, hrun, ?_, ?_⟩
              · rw [handed, List.cons_append, hqueue]
              · rw [handed]
                rw [List.append_assoc] at hperm
                exact hperm
  | drop n next ih =>
      obtain ⟨r, held', left, freed, hrun, hqueue, hperm⟩ :=
        ih (held.eraseIdx n) queue (th.close held[n]?.toList)
      refine ⟨r, held', left, held[n]?.toList ++ freed, ?_, hqueue, ?_⟩
      · rw [run, close_append]
        exact hrun
      · have hswap := List.perm_append_comm_assoc held' held[n]?.toList freed
        have hrest := hperm.append_left held[n]?.toList
        have hheld := (perm_eraseIdx held n).append_right (next.handed queue)
        rw [List.append_assoc] at hheld
        exact hswap.trans (hrest.trans hheld)

theorem scatter_run (queue : List φ) (de : Deserializing φ R) {th : Thread φ} (h : th.oobDe = none) :
    ∃ r held left freed,
      scatterFdsFromVecDeque queue (de.run []) th = ((r, held), left, th.close freed) ∧
        de.handed queue ++ left = queue ∧ (held ++ freed ++ left).Perm queue := by
  obtain ⟨oobSer, oobDe, closed⟩ := th
  obtain rfl : oobDe = none := h
  obtain ⟨r, held, left, freed, hrun, hqueue, hperm⟩ := de.run_inside [] queue ⟨oobSer, none, closed⟩
  refine ⟨r, held, left, freed, ?_, hqueue, ?_⟩
  · have hstart : (⟨oobSer, none, closed⟩ : Thread φ).close [] = ⟨oobSer, none, closed⟩ := by
      simp only [Thread.close, List.append_nil]
    simp only [scatterFdsFromVecDeque, Option.getD_none, hstart, hrun]
    rfl
  · have hleft := hperm.append_right left
    rw [List.nil_append, hqueue] at hleft
    exact hleft

/-! ## Many calls on one thread -/

/-- A call on a thread: a gather or a scatter, or a function of a field outside of
both. -/
inductive Call (φ R : Type)
  | gather (out : List RawFd) (ser : Serializing R)
  | scatter (queue : List φ) (de : Deserializing φ R)
  | serialize (unit : Except ErrorKind Unit) (f : OwnedFd)
  | deserialize (unit : Except ErrorKind Unit)

def Call.run : Call φ R → Thread φ → Thread φ
  | gather out ser, th => (gatherFdsToVec out ser.run th).2.2
  | scatter queue de, th => (scatterFdsFromVecDeque queue (de.run []) th).2.2
  | serialize unit f, th => { th with oobSer := (serializeTo unit f th.oobSer).2 }
  | deserialize unit, th => { th with oobDe := (deserializeFrom unit th.oobDe).2 }

def after (calls : List (Call φ R)) : Thread φ :=
  calls.foldl (fun th call => call.run th) ⟨none, none, []⟩

theorem Call.run_idle (call : Call φ R) {th : Thread φ} (h : th.Idle) : (call.run th).Idle := by
  cases call with
  | gather out ser =>
      rw [run, gather_run out ser h.1]
      exact h
  | scatter queue de =>
      obtain ⟨r, held, left, freed, hrun, -⟩ := scatter_run queue de h.2
      rw [run, hrun]
      exact h
  | serialize unit f =>
      rw [run, h.1, serializeTo_outside]
      exact ⟨rfl, h.2⟩
  | deserialize unit =>
      obtain ⟨e, he⟩ := deserializeFrom_outside (φ := φ) unit
      rw [run, h.2, he]
      exact ⟨h.1, rfl⟩

theorem foldl_idle (calls : List (Call φ R)) {th : Thread φ} (h : th.Idle) :
    (calls.foldl (fun th call => call.run th) th).Idle := by
  induction calls generalizing th with
  | nil => exact h
  | cons call calls ih => exact ih (call.run_idle h)

theorem after_idle (calls : List (Call φ R)) : (after calls).Idle := foldl_idle calls Thread.idle_fresh

/-- After any calls, the next gather yields what its own closure serializes, and leaves
the thread as it was; outside of it nothing is recorded. -/
theorem gather_after_calls (calls : List (Call φ R)) :
    (after calls).oobSer = none ∧
      (∀ out (ser : Serializing R),
        gatherFdsToVec out ser.run (after calls) =
          (ser.ending, out ++ ser.serialized, after calls)) ∧
      ∀ unit f, ∃ e, serializeTo unit f (after calls).oobSer = (.error e, none) := by
  have hslot := (after_idle calls).1
  refine ⟨hslot, fun out ser => gather_run out ser hslot, fun unit f => ?_⟩
  rw [hslot]
  exact ⟨_, serializeTo_outside unit f⟩

/-- After any calls, the next scatter hands its closure the fds of its own queue and
returns the rest of them, and each of them is held by the closure, closed or left; a
call on an exhausted queue or outside a scatter fails and changes nothing. -/
theorem scatter_after_calls (calls : List (Call φ R)) :
    (after calls).oobDe = none ∧
      (∀ queue (de : Deserializing φ R), ∃ r held left freed,
        scatterFdsFromVecDeque queue (de.run []) (after calls) =
            ((r, held), left, (after calls).close freed) ∧
          de.handed queue ++ left = queue ∧ (held ++ freed ++ left).Perm queue) ∧
      ∀ unit,
        (∃ e, deserializeFrom unit (some ([] : List φ)) = (.error e, some [])) ∧
          ∃ e, deserializeFrom unit (after calls).oobDe = (.error e, none) := by
  have hslot := (after_idle calls).2
  refine ⟨hslot, fun queue de => scatter_run queue de hslot, fun unit => ?_⟩
  rw [hslot]
  exact ⟨deserializeFrom_exhausted unit, deserializeFrom_outside unit⟩

end TereServer.Ipc.PassFd
