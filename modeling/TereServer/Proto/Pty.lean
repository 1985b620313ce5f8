import TereServer.Ipc.SeqPacket

/-!
# Messages of the pty service

After the handshake a client sends one `Init`, which moves the PTY master to the
service, and then any number of `Request`s.
-/

namespace TereServer.Proto.Pty

open Bincode Ipc

def clientIntent : Str := ⟨"tere 2021-06-11T21:34:03 pty client", by decide⟩

def serverIntent : Str := ⟨"tere 2021-06-11T21:35:37 pty server", by decide⟩

structure Init (φ : Type) where
  dummy : BitVec 8
  ptyMaster : φ
  deriving DecidableEq, Repr

instance : Serde Init where
  message := {
    schema := .struct (.field (.int .u8) (.field .fd .noFields))
    maxSize := 1
    maxFds := 1 }
  toVal m := (m.dummy, m.ptyMaster, ())
  ofVal v := ⟨v.1, v.2.1⟩
  ofVal_toVal _ := rfl
  toVal_ofVal _ := rfl

/-- `fd` is a `SOCK_SEQPACKET` socket. -/
inductive Request (φ : Type)
  | newClient (dummy : BitVec 8) (fd : φ)
  deriving DecidableEq, Repr

def requestSchema : Schema .value :=
  .enum (.variant (.field (.int .u8) (.field .fd .noFields)) .noVariants) fits_one

instance : Serde Request where
  message := { schema := requestSchema, maxFds := 1 }
  toVal
    | .newClient dummy fd => Sum.inl (dummy, fd, ())
  ofVal
    | Sum.inl v => .newClient v.1 v.2.1
    | Sum.inr v => nomatch v
  ofVal_toVal
    | .newClient _ _ => rfl
  toVal_ofVal
    | Sum.inl _ => rfl
    | Sum.inr v => nomatch v

end TereServer.Proto.Pty
