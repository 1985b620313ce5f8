import TereServer.Services.PtyUser.Typing

/-!
# A whole session

What a client sends is written to the PTY and what the PTY delivers is sent to the
client, from before the first step of the call to where all threads wait for more, with
a client and a shell that read what they get.
-/

namespace TereServer.Services.PtyUser

open Lib Bincode Ipc Proto.PtyUser

section Session

variable {F : Type} (room : Room F) (deriveKey : Str → Bytes → BuildId) (identity : Str)

/-- The call once the input thread has dealt with all packets. -/
def User.settled (hello : Packet F) (typed : List (Packet F)) (chunks : List Chunk) : User F :=
  ⟨.joiningOutput, .receiving, .reading, ⟨[], hello :: typed, false, false,
    (endpoint identity).reply deriveKey :: chunks.map fun buf => .of (sessionOutput buf)⟩⟩

def showing (buf : Chunk) : List (FlowAction F) :=
  [.call (.output (.read (.ok buf))), .call (.output (.send (.ok ()))), .clientReads]

theorem Flow.run_showing (hello : Packet F) (typed : List (Packet F)) (log : List Transfer)
    (before : List Chunk) (buf : Chunk) :
    run (step room deriveKey identity) (showing buf)
      ⟨.attached deriveKey identity hello typed before, log, before.length + 1, 0⟩ =
        some ⟨.attached deriveKey identity hello typed (before ++ [buf]), log ++ [.read buf.1],
          before.length + 2, 0⟩ := by
  have hread : traced (User.step deriveKey identity)
      (.attached deriveKey identity hello typed before, log) (.output (.read (.ok buf))) =
        some ({ User.attached deriveKey identity hello typed before with output := .sending buf },
          log ++ [.read buf.1]) := by
    simp [traced, User.step, User.attached, OutputThread.step, OutputThread.received_eq]
  have hsend : traced (User.step deriveKey identity)
      ({ User.attached deriveKey identity hello typed before with output := .sending buf },
        log ++ [.read buf.1]) (.output (.send (.ok ()))) =
          some (.attached deriveKey identity hello typed (before ++ [buf]),
            log ++ [.read buf.1]) := by
    simp [traced, User.step, User.attached, OutputThread.step, Socket.push]
  have hfits : room.fits (List.drop (before.length + 1)
      (User.attached deriveKey identity hello typed before).socket.outgoing)
        (.of (sessionOutput buf)) = true := by
    rw [List.drop_eq_nil_of_le (by simp [User.attached])]
    exact room.fits_nil _
  have hshown : step room deriveKey identity
      ⟨.attached deriveKey identity hello typed (before ++ [buf]), log ++ [.read buf.1],
        before.length + 1, 0⟩ .clientReads =
          some ⟨.attached deriveKey identity hello typed (before ++ [buf]), log ++ [.read buf.1],
            before.length + 2, 0⟩ := by
    simp [step, unread, User.attached]
  exact run_cons_eq_some.2 ⟨_, step_call hread (User.returns_of_quiet rfl rfl),
    run_cons_eq_some.2 ⟨_, step_call hsend (User.returns_of_sends rfl rfl rfl hfits),
    run_cons_eq_some.2 ⟨_, hshown, rfl⟩⟩⟩

theorem Flow.run_show (hello : Packet F) (typed : List (Packet F)) (log : List Transfer)
    (before chunks : List Chunk) :
    run (step room deriveKey identity) (chunks.flatMap showing)
      ⟨.attached deriveKey identity hello typed before, log, before.length + 1, 0⟩ =
        some ⟨.attached deriveKey identity hello typed (before ++ chunks),
          log ++ chunks.map fun buf => .read buf.1, (before ++ chunks).length + 1, 0⟩ := by
  induction chunks generalizing before log with
  | nil =>
      rw [List.append_nil, List.map_nil, List.append_nil]
      rfl
  | cons buf chunks ih =>
      have hrest := ih (log ++ [.read buf.1]) (before ++ [buf])
      rw [List.append_assoc, List.append_assoc, List.length_append] at hrest
      exact run_append_eq_some.2 ⟨_, run_showing room deriveKey identity hello typed log before buf,
        hrest⟩

variable {deriveKey identity} in
/-- A client that greets and types valid input is served, whatever the PTY delivers. -/
theorem Flow.exists_session {hello : Packet F} {typed : List (Packet F)}
    (hhello : Handshake.accept deriveKey identity clientIntent hello = .ok ())
    (htyped : ∀ pkt ∈ typed, (keyboardInput pkt).isSome) {early : List (Packet F)}
    (hearly : early <+: hello :: typed) (chunks : List Chunk) :
    ∃ later s, run (step room deriveKey identity) later ⟨.waiting early, [], 0, 0⟩ = some s ∧
      s.call = .settled deriveKey identity hello typed chunks ∧
      s.written = (keyboard typed).flatten ∧
      s.log.flatMap Transfer.readBytes = (chunks.map Subtype.val).flatten ∧
      s.unread = [] ∧ s.unconsumed = 0 := by
  obtain ⟨more, hmore⟩ := hearly
  have hsends := run_sends room deriveKey identity early more
  rw [hmore] at hsends
  have hshow := run_show room deriveKey identity hello typed [] [] chunks
  rw [List.nil_append, List.nil_append] at hshow
  have hattached := run_append_eq_some.2
    ⟨_, hsends, run_append_eq_some.2 ⟨_, run_attaching room hhello typed, hshow⟩⟩
  have hreached := run_append_eq_some.2 ⟨_, run_sends room deriveKey identity [] early, hattached⟩
  obtain ⟨before, hbefore⟩ := run_own hreached
  obtain ⟨later, s, -, hlater, hcall, hwritten, hread, hshown, hconsumed⟩ :=
    exists_written (run_sound hbefore sound_connected)
      (run_invariant (traced_invariant UserStep.typing) hbefore typing_connected)
      (run_invariant (fun _ _ _ => step_behind) hreached behind_start) trivial htyped
  refine ⟨_, s, run_append_eq_some.2 ⟨_, hattached, hlater⟩, hcall, hwritten, hread.trans ?_, ?_,
    ?_⟩
  · rw [List.flatMap_map]
    rfl
  · have hlength : (User.settled deriveKey identity hello typed chunks).socket.outgoing.length ≤
        chunks.length + 1 := by simp [User.settled]
    rw [unread, hcall, hshown]
    exact List.drop_eq_nil_of_le hlength
  · rw [unconsumed, hconsumed, Nat.sub_self]

end Session

end TereServer.Services.PtyUser
