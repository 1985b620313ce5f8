import TereServer.Ipc.PassFd

/-!
# IPC over `SOCK_SEQPACKET`

One message is one packet: the payload is its encoding, the fds travel as
ancillary data.  `RecvMsg` is what a `recvmsg(2)` call leaves in the buffers of
its caller; the code behind that call does not look at the fds, so it is written
over an arbitrary type of owners and run both at raw fds (`Process`) and at the
open files themselves (`Packet.receive`).

The parameter `cmsgSpace` stands for `libc::CMSG_SPACE`.
-/

namespace TereServer.Ipc

open Lib Bincode

/-- The trait `Message`: the type that is encoded, and its worst case limits. -/
structure Message where
  schema : Schema .value
  maxSize : Nat := 8192
  maxFds : Nat := 0

abbrev Message.Val (M : Message) (φ : Type) : Type := M.schema.Val φ

/-- The derived `Serialize` and `Deserialize` of a message type, over the type of
its fds: a bijection with the values of its schema. -/
class Serde (T : Type → Type) where
  message : Message
  toVal {φ : Type} : T φ → message.Val φ
  ofVal {φ : Type} : message.Val φ → T φ
  ofVal_toVal {φ : Type} (m : T φ) : ofVal (toVal m) = m
  toVal_ofVal {φ : Type} (v : message.Val φ) : toVal (ofVal v) = v

structure IoError where
  errno : Nat
  deriving DecidableEq, Repr

inductive SendError
  | serialize (e : ErrorKind)
  | socket (e : IoError)
  deriving DecidableEq, Repr

inductive AncillaryError
  | unknown (cmsgLevel cmsgType : Nat)
  deriving DecidableEq, Repr

inductive ReceiveError
  | endOfStream
  | tooLarge
  | deserialize (e : ErrorKind)
  | socket (e : IoError)
  | ancillary (e : AncillaryError)
  | ancillaryTruncated (maxFds bytesCap : Nat)
  | tooManyFds (orig extra : Nat)
  deriving DecidableEq, Repr

/-- A packet in flight: the payload and the open files attached to it. -/
structure Packet (F : Type) where
  payload : Bytes
  files : List F

inductive AncillaryData (φ : Type)
  | scmRights (fds : List φ)
  | scmCredentials

structure RecvMsg (φ : Type) where
  encoded : Bytes
  size : Nat
  truncated : Bool
  messages : List (Except AncillaryError (AncillaryData φ))
  ancillaryTruncated : Bool
  ancillaryCapacity : Nat

/-! ## The system calls -/

def cmsgAlign (length : Nat) : Nat := (length + 7) / 8 * 8

/-- `libc::CMSG_SPACE` on 64-bit Linux; its result is a `c_uint`. -/
def libcCmsgSpace (length : Nat) : Nat := (cmsgAlign length + 16) % 2 ^ 32

/-- How many fds fit in a control buffer: a 16-byte header and 4 bytes each. -/
def controlCapacity (bytesCap : Nat) : Nat := if bytesCap ≤ 16 then 0 else (bytesCap - 16) / 4

/-- `recvmsg(2)` on `pkt` with `bufLen` bytes of payload buffer and `bytesCap`
bytes of control buffer, once the files that fit are installed as `delivered`. -/
def recvmsg {F φ : Type} (bufLen bytesCap : Nat) (pkt : Packet F) (delivered : List φ) :
    RecvMsg φ where
  encoded := pkt.payload.take bufLen
  size := min pkt.payload.length bufLen
  truncated := decide (bufLen < pkt.payload.length)
  messages := if delivered.isEmpty then [] else [.ok (.scmRights delivered)]
  ancillaryTruncated := decide (delivered.length < pkt.files.length)
  ancillaryCapacity := bytesCap

namespace SeqPacket

variable {φ : Type}

/-- The size of the ancillary buffer of `receive_with_fds`: `inner_size` is cast
to `c_uint`. -/
def ancillarySize (cmsgSpace : Nat → Nat) (M : Message) : Nat :=
  cmsgSpace (4 * M.maxFds % 2 ^ 32)

def ancillaryFds (messages : List (Except AncillaryError (AncillaryData φ))) : List φ :=
  (messages.filterMap fun
    | .error (.unknown _ _) => none
    | .ok (.scmRights rights) => some rights
    | .ok .scmCredentials => none).flatten

def receiveWithFds (M : Message) (msg : RecvMsg φ) : Eff (Thread φ) ReceiveError (M.Val φ) :=
  fun th =>
    if msg.truncated then (.error .tooLarge, th)
    else if msg.size = 0 then (.error .endOfStream, th)
    else
      let encoded := msg.encoded.take msg.size
      -- from here on the fds have owners, which close them on every error path
      let fds := ancillaryFds msg.messages
      if msg.ancillaryTruncated then
        (.error (.ancillaryTruncated M.maxFds msg.ancillaryCapacity), th.close fds)
      else
        let origNumFds := fds.length
        match PassFd.scatterFdsFromVecDeque fds (PassFd.decodeMessage M.schema encoded) th with
        | (.error e, left, th) => (.error (.deserialize e), th.close left)
        | (.ok m, left, th) =>
            if left.length ≠ 0 then
              (.error (.tooManyFds origNumFds left.length), (th.close (M.schema.fds m)).close left)
            else (.ok m, th)

theorem receiveWithFds_idle (M : Message) (msg : RecvMsg φ) {th : Thread φ} (h : th.Idle) :
    (receiveWithFds M msg th).2.Idle := by
  unfold receiveWithFds
  split
  · exact h
  split
  · exact h
  dsimp only
  split
  · exact h
  · have hidle : (PassFd.scatterFdsFromVecDeque (ancillaryFds msg.messages)
        (PassFd.decodeMessage M.schema (msg.encoded.take msg.size)) th).2.2.Idle :=
      PassFd.scatter_idle (fun _ => rfl) h
    split
    · rename_i hscatter
      rw [hscatter] at hidle
      exact hidle
    · rename_i hscatter
      rw [hscatter] at hidle
      split <;> exact hidle

def addFds (cmsgSpace : Nat → Nat) (bufLen count : Nat) : Bool :=
  decide (4 * count < 2 ^ 32) && decide (cmsgSpace (4 * count) ≤ bufLen)

/-- The loop of `send_with_fds` that grows the control buffer in steps of 128
bytes until the fds fit. -/
def growAncillary (cmsgSpace : Nat → Nat) (count : Nat) : (fuel bufLen : Nat) → Option Nat
  | 0, _ => none
  | fuel + 1, bufLen =>
      if addFds cmsgSpace (bufLen + 128) count then some (bufLen + 128)
      else growAncillary cmsgSpace count fuel (bufLen + 128)

end SeqPacket

/-! ## A process -/

/-- A process with one thread that sends and receives.  Between two calls the
thread-local slots are empty. -/
structure Process (F : Type) where
  table : FdTable F
  thread : Thread OwnedFd
  idle : thread.Idle

namespace Process

variable {F : Type}

def file (p : Process F) (fd : OwnedFd) : Option F := p.table.get fd.raw

def install (cmsgSpace : Nat → Nat) (M : Message) (pkt : Packet F) (p : Process F) :
    List RawFd × FdTable F :=
  FdTable.installAll
    (pkt.files.take (controlCapacity (SeqPacket.ancillarySize cmsgSpace M))) p.table

def receiveWithFds (cmsgSpace : Nat → Nat) (M : Message) (pkt : Packet F) (p : Process F) :
    Except ReceiveError (M.Val OwnedFd) × Process F :=
  let (installed, table) := p.install cmsgSpace M pkt
  let msg := recvmsg M.maxSize (SeqPacket.ancillarySize cmsgSpace M) pkt (installed.map OwnedFd.mk)
  let received := SeqPacket.receiveWithFds M msg p.thread.slots
  (received.1,
    { table := table.closeAll (received.2.closed.map OwnedFd.raw)
      thread := { received.2 with closed := p.thread.closed ++ received.2.closed }
      idle := SeqPacket.receiveWithFds_idle M msg p.idle })

def sendmsg (p : Process F) (payload : Bytes) (fds : List RawFd) : Except IoError (Packet F) :=
  match fds.mapM p.table.get with
  | some files => .ok ⟨payload, files⟩
  | none => .error ⟨9⟩

/-- `send_with_fds`: the packet handed to the connection; `none` when the loop
over the control buffer never ends. -/
def sendWithFds (cmsgSpace : Nat → Nat) (M : Message) (m : M.Val OwnedFd) (p : Process F) :
    Option (Except SendError (Packet F) × Process F) :=
  let gathered := PassFd.gatherFdsToVec [] (PassFd.encodeMessage M.schema m) p.thread
  let p' : Process F :=
    { p with thread := gathered.2.2, idle := PassFd.gather_idle (fun _ => rfl) p.idle }
  match gathered.1.1 with
  | .error e => some (.error (.serialize e), p')
  | .ok () =>
      let encoded := gathered.1.2
      let fds := gathered.2.1
      let fuel := cmsgSpace (4 * fds.length) / 128 + 1
      match SeqPacket.growAncillary cmsgSpace fds.length fuel 0 with
      | none => none
      | some _ =>
          match p.sendmsg encoded fds with
          | .error e => some (.error (.socket e), p')
          | .ok pkt => some (.ok pkt, p')

end Process

namespace Packet

variable {F : Type}

def ofMessage (M : Message) (m : M.Val F) : Packet F := ⟨M.schema.encode m, M.schema.fds m⟩

def receive (cmsgSpace : Nat → Nat) (M : Message) (pkt : Packet F) :
    Except ReceiveError (M.Val F) :=
  let bytesCap := SeqPacket.ancillarySize cmsgSpace M
  let delivered := pkt.files.take (controlCapacity bytesCap)
  (SeqPacket.receiveWithFds M (recvmsg M.maxSize bytesCap pkt delivered) ⟨none, none, []⟩).1

def of {T : Type → Type} [Serde T] (m : T F) : Packet F :=
  ofMessage (Serde.message T) (Serde.toVal m)

def receiveAs (T : Type → Type) [Serde T] (pkt : Packet F) : Except ReceiveError (T F) :=
  (pkt.receive libcCmsgSpace (Serde.message T)).map Serde.ofVal

end Packet

/-! ## The control buffer loop -/

theorem SeqPacket.growAncillary_isSome {cmsgSpace : Nat → Nat} {count fuel bufLen : Nat} :
    (growAncillary cmsgSpace count fuel bufLen).isSome ↔
      4 * count < 2 ^ 32 ∧ 0 < fuel ∧ cmsgSpace (4 * count) ≤ bufLen + 128 * fuel := by
  induction fuel generalizing bufLen with
  | zero => simp [growAncillary]
  | succ fuel ih =>
      rw [growAncillary]
      by_cases h : addFds cmsgSpace (bufLen + 128) count = true
      · rw [if_pos h]
        simp only [addFds, Bool.and_eq_true, decide_eq_true_eq] at h
        simp only [Option.isSome_some, true_iff]
        omega
      · rw [if_neg h, ih]
        simp only [addFds, Bool.and_eq_true, decide_eq_true_eq, not_and, not_le] at h
        omega

/-- The fuel of `sendWithFds` is enough: when it runs out, no fuel suffices. -/
theorem SeqPacket.growAncillary_fuel (cmsgSpace : Nat → Nat) (count fuel : Nat)
    (h : (growAncillary cmsgSpace count fuel 0).isSome) :
    (growAncillary cmsgSpace count (cmsgSpace (4 * count) / 128 + 1) 0).isSome := by
  rw [growAncillary_isSome] at h ⊢
  omega

end TereServer.Ipc
