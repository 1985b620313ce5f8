import TereServer.Ipc.SeqPacket

/-!
# Messages of the sessions service
-/

namespace TereServer.Proto.Sessions

open Bincode Ipc

def clientIntent : Str := ⟨"tere 2021-07-01T19:41:51 sessions client", by decide⟩

def serverIntent : Str := ⟨"tere 2021-07-01T19:42:20 sessions server", by decide⟩

inductive Machine
  | host
  /-- Name of container to connect to. -/
  | container (name : Str)
  deriving DecidableEq

def machineSchema : Schema .value :=
  .enum (.variant .noFields (.variant (.field .string .noFields) .noVariants)) (by decide)

def Machine.toVal {φ : Type} : Machine → machineSchema.Val φ
  | .host => Sum.inl ()
  | .container name => Sum.inr (Sum.inl (name, ()))

def Machine.ofVal {φ : Type} : machineSchema.Val φ → Machine
  | Sum.inl _ => .host
  | Sum.inr (Sum.inl v) => .container v.1
  | Sum.inr (Sum.inr v) => nomatch v

structure CreateShellSession (φ : Type) where
  /-- Client for this session. -/
  fd : φ
  machine : Machine
  user : Str
  program : Option Str
  args : Option (Vec Str)
  env : Option (Vec Str)
  deriving DecidableEq

def createShellSessionSchema : Schema .value :=
  .struct (.field .fd (.field machineSchema (.field .string (.field (.option .string)
    (.field (.option (.seq .string)) (.field (.option (.seq .string)) .noFields))))))

inductive Request (φ : Type)
  | createShellSession (create : CreateShellSession φ)
  deriving DecidableEq

def requestSchema : Schema .value :=
  .enum (.variant (.field createShellSessionSchema .noFields) .noVariants) fits_one

instance : Serde Request where
  message := { schema := requestSchema, maxFds := 1 }
  toVal
    | .createShellSession c =>
        Sum.inl ((c.fd, c.machine.toVal, c.user, c.program, c.args, c.env, ()), ())
  ofVal
    | Sum.inl ((fd, machine, user, program, args, env, ()), ()) =>
        .createShellSession ⟨fd, .ofVal machine, user, program, args, env⟩
    | Sum.inr v => nomatch v
  ofVal_toVal
    | .createShellSession c => by
        obtain ⟨fd, machine | name, user, program, args, env⟩ := c
        · rfl
        · rfl
  toVal_ofVal
    | Sum.inl ((_, machine, _), ()) => by
        rcases machine with ⟨⟩ | ⟨_, ⟨⟩⟩ | v
        · rfl
        · rfl
        · exact nomatch v
    | Sum.inr v => nomatch v

end TereServer.Proto.Sessions
