import TereServer.Services.Sessions
import TereServer.SocketActivation.OneShot

/-!
# The start of the sessions service

`run` takes the last descriptor named `tere-sessions` for its listener.  A listener that
is replaced, or dropped on an error, is closed; descriptors with other names are left
alone.
-/

namespace TereServer.Services.Sessions

open Lib Bincode SocketActivation

/-- `dbus_shell::ConnectError`; the error of the D-Bus library is a parameter. -/
inductive ConnectError (E : Type)
  | connect (e : E)

inductive RunError (E : Type)
  | dbus (e : ConnectError E)
  | socketActivation (e : SocketActivation.Error)
  | noSocketForSessions

/-- The local variables of `run`, and the fds that were closed so far. -/
structure Sockets where
  sockets : FdIter
  socketSessions : Option Int
  closed : List Int

namespace Sockets

/-- `Option::insert` drops the value that was there. -/
def insert (s : Sockets) (fd : Int) : Sockets :=
  { s with socketSessions := some fd, closed := s.closed ++ s.socketSessions.toList }

def drop (s : Sockets) : Sockets :=
  { s with socketSessions := none, closed := s.closed ++ s.socketSessions.toList }

end Sockets

/-- How far `run` has got: to `serve`, whose loop never ends, or to an error. -/
inductive Startup (E : Type)
  | serving (listener : Int)
  | returned (e : RunError E)
  | panicked (e : SocketActivation.Panic)

def Startup.listener {E : Type} : Startup E → Option Int
  | .serving listener => some listener
  | _ => none

namespace Sockets

variable {s : Sockets} {filedesc : FileDescriptor} {filedescs : List FileDescriptor}

def owned (s : Sockets) : List Int := s.closed ++ s.socketSessions.toList

end Sockets

end TereServer.Services.Sessions
