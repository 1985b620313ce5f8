import TereServer.Ipc.SeqPacket

/-!
# What a receive accepts, and where the fds go

`receiveWithFds_eq_ok` says which packets are accepted and what is returned for
them; `receiveWithFds_error` says what an error has closed.  Both are about the
code behind `recvmsg`, over any type of owners; the results on processes and on
packets are read off from them.
-/

namespace TereServer.Ipc

open Lib Bincode

/-- The payload is neither empty nor cut off by the buffer. -/
def Packet.Sized {F : Type} (M : Message) (pkt : Packet F) : Prop :=
  1 ≤ pkt.payload.length ∧ pkt.payload.length ≤ M.maxSize

namespace SeqPacket

variable {F φ ψ : Type} {M : Message} {bytesCap : Nat} {pkt : Packet F} {delivered : List φ}
variable {th th' : Thread φ}

@[simp] theorem ancillaryFds_recvmsg (bufLen : Nat) :
    ancillaryFds (recvmsg bufLen bytesCap pkt delivered).messages = delivered := by
  cases delivered <;> simp [recvmsg, ancillaryFds]

theorem recvmsg_take (h : pkt.payload.length ≤ M.maxSize) :
    (recvmsg M.maxSize bytesCap pkt delivered).encoded.take
      (recvmsg M.maxSize bytesCap pkt delivered).size = pkt.payload := by
  simp [recvmsg, Nat.min_eq_left h, List.take_of_length_le h]

/-- A payload that is empty or too long is rejected before the fds get owners. -/
theorem receiveWithFds_of_not_sized (h : ¬ pkt.Sized M) :
    receiveWithFds M (recvmsg M.maxSize bytesCap pkt delivered) th =
      (.error (if M.maxSize < pkt.payload.length then .tooLarge else .endOfStream), th) := by
  unfold receiveWithFds
  by_cases hlong : M.maxSize < pkt.payload.length
  · rw [if_pos (by simpa [recvmsg] using hlong), if_pos hlong]
  · have hempty : pkt.payload.length = 0 := by
      unfold Packet.Sized at h
      omega
    rw [if_neg (by simpa [recvmsg] using hlong), if_pos (by simp [recvmsg, hempty]), if_neg hlong]

theorem receiveWithFds_of_sized (h : pkt.Sized M) :
    receiveWithFds M (recvmsg M.maxSize bytesCap pkt delivered) th =
      if delivered.length < pkt.files.length then
        (.error (.ancillaryTruncated M.maxFds bytesCap), th.close delivered)
      else
        match PassFd.scatterFdsFromVecDeque delivered
            (PassFd.decodeMessage M.schema pkt.payload) th with
        | (.error e, left, th) => (.error (.deserialize e), th.close left)
        | (.ok m, left, th) =>
            if left.length ≠ 0 then
              (.error (.tooManyFds delivered.length left.length),
                (th.close (M.schema.fds m)).close left)
            else (.ok m, th) := by
  have hsize : (recvmsg M.maxSize bytesCap pkt delivered).size ≠ 0 := by
    have hpos := h.1
    have hle := h.2
    simp only [recvmsg]
    omega
  have hfits : ¬ (recvmsg M.maxSize bytesCap pkt delivered).truncated = true := by
    simpa [recvmsg] using h.2
  unfold receiveWithFds
  rw [recvmsg_take h.2, ancillaryFds_recvmsg, if_neg hfits, if_neg hsize]
  exact if_congr decide_eq_true_iff rfl rfl

theorem receiveWithFds_eq_ok {m : M.Val φ} (hidle : th.Idle)
    (hdelivered : delivered.length ≤ pkt.files.length) :
    receiveWithFds M (recvmsg M.maxSize bytesCap pkt delivered) th = (.ok m, th') ↔
      pkt.Sized M ∧ delivered.length = pkt.files.length ∧ M.schema.Layout m pkt.payload ∧
        delivered = M.schema.fds m ∧ th' = th := by
  by_cases hsized : pkt.Sized M
  · rw [receiveWithFds_of_sized hsized]
    by_cases hshort : delivered.length < pkt.files.length
    · rw [if_pos hshort]
      simp only [Prod.mk.injEq, reduceCtorEq, false_and, false_iff]
      rintro ⟨-, hlength, -⟩
      omega
    rw [if_neg hshort]
    have hlength : delivered.length = pkt.files.length := by omega
    have hscatter : PassFd.scatterFdsFromVecDeque delivered
          (PassFd.decodeMessage M.schema pkt.payload) th = (.ok m, [], th') ↔
        M.schema.Layout m pkt.payload ∧ delivered = M.schema.fds m ++ [] ∧ th' = th :=
      PassFd.scatter_decodeMessage_ok _ _ hidle
    rcases hs : PassFd.scatterFdsFromVecDeque delivered
        (PassFd.decodeMessage M.schema pkt.payload) th with ⟨_ | m', left, th''⟩
    · rw [hs] at hscatter
      simp only [Prod.mk.injEq, reduceCtorEq, false_and, false_iff, List.append_nil] at hscatter
      simp only [Prod.mk.injEq, reduceCtorEq, false_and, false_iff]
      rintro ⟨-, -, hrest⟩
      exact hscatter hrest
    · rw [hs] at hscatter
      rw [List.append_nil] at hscatter
      simp only [hsized, hlength, true_and, ← hscatter]
      cases left <;> simp
  · rw [receiveWithFds_of_not_sized hsized]
    simp [hsized]

/-- An error on a packet with a proper payload closes every delivered fd once. -/
theorem receiveWithFds_error {e : ReceiveError} (hidle : th.Idle) (hsized : pkt.Sized M)
    (h : receiveWithFds M (recvmsg M.maxSize bytesCap pkt delivered) th = (.error e, th')) :
    ∃ freed, th' = th.close freed ∧ freed.Perm delivered := by
  rw [receiveWithFds_of_sized hsized] at h
  split at h
  · cases h
    exact ⟨delivered, rfl, .refl _⟩
  split at h
  · rename_i hs
    obtain ⟨freed, rfl, hperm⟩ := PassFd.scatter_decodeMessage_error _ _ hidle hs
    cases h
    exact ⟨freed ++ _, by simp [Thread.close], hperm⟩
  · rename_i m left _ hs
    obtain ⟨-, hfds, rfl⟩ := (PassFd.scatter_decodeMessage_ok _ _ hidle).1 hs
    split at h
    · cases h
      exact ⟨M.schema.fds m ++ left, by simp [Thread.close], .of_eq hfds.symm⟩
    · cases h

end SeqPacket

end TereServer.Ipc
