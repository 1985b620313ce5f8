import TereServer.Ipc.SeqPacket

/-!
# Messages between a pty client and the PTY it is attached to
-/

namespace TereServer.Proto.PtyUser

open Bincode Ipc

def clientIntent : Str := ⟨"tere 2021-06-22T12:12:30 pty_user client", by decide⟩

def serverIntent : Str := ⟨"tere 2021-06-22T12:12:51 pty_user server", by decide⟩

/-- An enum with one variant that holds a byte vector; no fds. -/
def byteVecEnum : Message where
  schema := .enum (.variant (.field .bytes .noFields) .noVariants) fits_one

inductive Output (φ : Type)
  | sessionOutput (bytes : Vec (BitVec 8))

instance : Serde Output where
  message := byteVecEnum
  toVal
    | .sessionOutput bytes => Sum.inl (bytes, ())
  ofVal
    | Sum.inl v => .sessionOutput v.1
    | Sum.inr v => nomatch v
  ofVal_toVal
    | .sessionOutput _ => rfl
  toVal_ofVal
    | Sum.inl _ => rfl
    | Sum.inr v => nomatch v

inductive Input (φ : Type)
  | keyboardInput (bytes : Vec (BitVec 8))

instance : Serde Input where
  message := byteVecEnum
  toVal
    | .keyboardInput bytes => Sum.inl (bytes, ())
  ofVal
    | Sum.inl v => .keyboardInput v.1
    | Sum.inr v => nomatch v
  ofVal_toVal
    | .keyboardInput _ => rfl
  toVal_ofVal
    | Sum.inl _ => rfl
    | Sum.inr v => nomatch v

end TereServer.Proto.PtyUser
