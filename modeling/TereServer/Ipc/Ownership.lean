import TereServer.Ipc.Receive

/-!
# Who owns the fds of a received packet

An fd that the kernel installed for a packet is accounted for when it is a field
of the returned message, or when it has been closed.  The two checks that come
before the fds get an owner lose them; every other way out accounts for each fd.
-/

namespace TereServer.Ipc

open Bincode

namespace Process

variable {F : Type}

/-- `fd` is owned by exactly one field of the returned message and still open,
or the call returned an error and has closed it exactly once. -/
def Accounted {M : Message} (before : Process F)
    (result : Except ReceiveError (M.Val OwnedFd) × Process F) (fd : RawFd) : Prop :=
  match result.1 with
  | .ok m =>
      (M.schema.fds m).count ⟨fd⟩ = 1 ∧
        result.2.thread.closed.count ⟨fd⟩ = before.thread.closed.count ⟨fd⟩
  | .error _ =>
      result.2.thread.closed.count ⟨fd⟩ = before.thread.closed.count ⟨fd⟩ + 1

theorem install_count (cmsgSpace : Nat → Nat) (M : Message) (pkt : Packet F) (p : Process F)
    {fd : RawFd} (h : fd ∈ (p.install cmsgSpace M pkt).1) :
    ((p.install cmsgSpace M pkt).1.map OwnedFd.mk).count ⟨fd⟩ = 1 := by
  have hnodup : ((p.install cmsgSpace M pkt).1.map OwnedFd.mk).Nodup :=
    (FdTable.installAll_nodup _ _).map fun _ _ hfd => OwnedFd.mk.inj hfd
  exact List.count_eq_one_of_mem hnodup (List.mem_map_of_mem h)

theorem install_length_le (cmsgSpace : Nat → Nat) (M : Message) (pkt : Packet F)
    (p : Process F) :
    ((p.install cmsgSpace M pkt).1.map OwnedFd.mk).length ≤ pkt.files.length := by
  simp only [install, List.length_map, FdTable.installAll_length, List.length_take]
  omega

theorem install_eq_nil (cmsgSpace : Nat → Nat) (M : Message) (pkt : Packet F) (p : Process F) :
    (p.install cmsgSpace M pkt).1 = [] ↔
      pkt.files = [] ∨ controlCapacity (SeqPacket.ancillarySize cmsgSpace M) = 0 := by
  rw [← List.length_eq_zero_iff, ← List.length_eq_zero_iff]
  simp only [install, FdTable.installAll_length, List.length_take]
  omega

/-- With a proper payload every way out accounts for every fd. -/
theorem receiveWithFds_accounts (cmsgSpace : Nat → Nat) (M : Message) (pkt : Packet F)
    (p : Process F) (hsized : pkt.Sized M) {fd : RawFd}
    (hfd : fd ∈ (p.install cmsgSpace M pkt).1) :
    p.Accounted (p.receiveWithFds cmsgSpace M pkt) fd := by
  have hone := p.install_count cmsgSpace M pkt hfd
  have hle := p.install_length_le cmsgSpace M pkt
  have hidle : p.thread.slots.Idle := p.idle
  unfold Accounted receiveWithFds
  dsimp only
  rcases hr : SeqPacket.receiveWithFds M
      (recvmsg M.maxSize (SeqPacket.ancillarySize cmsgSpace M) pkt
        ((p.install cmsgSpace M pkt).1.map OwnedFd.mk))
      p.thread.slots with ⟨e | m, th⟩
  · obtain ⟨freed, rfl, hperm⟩ := SeqPacket.receiveWithFds_error hidle hsized hr
    simp only [Thread.close_closed, Thread.slots_closed, List.nil_append, List.count_append]
    rw [hperm.count_eq, hone]
  · obtain ⟨-, -, -, hfds, rfl⟩ := (SeqPacket.receiveWithFds_eq_ok hidle hle).1 hr
    refine ⟨hfds ▸ hone, ?_⟩
    simp only [Thread.slots_closed, List.append_nil]

theorem receiveWithFds_leaks (cmsgSpace : Nat → Nat) (M : Message) (pkt : Packet F)
    (p : Process F) (hsized : ¬ pkt.Sized M) (fd : RawFd) :
    ¬ p.Accounted (p.receiveWithFds cmsgSpace M pkt) fd := by
  unfold Accounted receiveWithFds
  dsimp only
  rw [SeqPacket.receiveWithFds_of_not_sized hsized]
  simp

/-- No fd of a received packet is lost exactly when the payload is neither empty
nor longer than `MAX_SIZE`, or the kernel had no fd to install. -/
theorem receiveWithFds_accounts_iff (cmsgSpace : Nat → Nat) (M : Message) (pkt : Packet F)
    (p : Process F) :
    (∀ fd ∈ (p.install cmsgSpace M pkt).1,
        p.Accounted (p.receiveWithFds cmsgSpace M pkt) fd) ↔
      pkt.Sized M ∨ pkt.files = [] ∨
        controlCapacity (SeqPacket.ancillarySize cmsgSpace M) = 0 := by
  rw [← p.install_eq_nil]
  constructor
  · intro h
    by_cases hsized : pkt.Sized M
    · exact .inl hsized
    · refine .inr (List.eq_nil_iff_forall_not_mem.2 fun fd hfd => ?_)
      exact p.receiveWithFds_leaks cmsgSpace M pkt hsized fd (h fd hfd)
  · rintro (hsized | hnone) fd hfd
    · exact p.receiveWithFds_accounts cmsgSpace M pkt hsized hfd
    · rw [hnone] at hfd
      cases hfd

def empty : Process F := ⟨[], ⟨none, none, []⟩, Thread.idle_fresh⟩

/-- Two bytes and one fd, received as a message of one byte and one fd: the fd is
installed, the call fails, and nothing is closed. -/
theorem receiveWithFds_loses_fd_of_long_packet :
    let M : Message :=
      { schema := .struct (.field (.int .u8) (.field .fd .noFields)), maxSize := 1, maxFds := 1 }
    let pkt : Packet Nat := ⟨[0, 0], [7]⟩
    let p : Process Nat := empty
    0 ∈ (p.install libcCmsgSpace M pkt).1 ∧
      ¬ p.Accounted (p.receiveWithFds libcCmsgSpace M pkt) 0 := by
  refine ⟨by decide, ?_⟩
  simp [Accounted, receiveWithFds, SeqPacket.receiveWithFds, recvmsg, empty]

end Process

end TereServer.Ipc
