import Mathlib.Data.List.Basic
import Mathlib.Data.List.Nodup

/-!
# File descriptors of a process

A descriptor table maps raw fds to open files; the kernel installs a file at the
lowest free number.  `OwnedFd` is a raw fd that its holder is responsible for
closing: `File`, `UnixDatagram` and `PtyMaster` fields of a message own their
raw fd in the same way.  A `Thread` is the state of one thread that the fd
passing code touches.
-/

namespace TereServer.Ipc

abbrev RawFd := Nat

structure OwnedFd where
  raw : RawFd
  deriving DecidableEq, Repr

def OwnedFd.asRawFd (fd : OwnedFd) : RawFd := fd.raw

abbrev FdTable (F : Type) := List (Option F)

namespace FdTable

variable {F : Type}

def get (table : FdTable F) (fd : RawFd) : Option F := (table[fd]?).join

def install (file : F) : FdTable F → RawFd × FdTable F
  | [] => (0, [some file])
  | none :: table => (0, some file :: table)
  | some other :: table => ((install file table).1 + 1, some other :: (install file table).2)

/-- Install the files of one packet, in order. -/
def installAll : List F → FdTable F → List RawFd × FdTable F
  | [], table => ([], table)
  | file :: files, table =>
      let fd := (install file table).1
      let rest := installAll files (install file table).2
      (fd :: rest.1, rest.2)

def close (table : FdTable F) (fd : RawFd) : FdTable F := table.set fd none

def closeAll (table : FdTable F) (fds : List RawFd) : FdTable F := fds.foldl close table

@[simp] theorem get_nil (fd : RawFd) : get ([] : FdTable F) fd = none := by simp [get]

@[simp] theorem get_cons_zero (slot : Option F) (table : FdTable F) :
    get (slot :: table) 0 = slot := by simp [get]

@[simp] theorem get_cons_succ (slot : Option F) (table : FdTable F) (fd : RawFd) :
    get (slot :: table) (fd + 1) = get table fd := by simp [get]

theorem get_install (file : F) (table : FdTable F) (fd : RawFd) :
    get (install file table).2 fd =
      if fd = (install file table).1 then some file else get table fd := by
  induction table generalizing fd with
  | nil => cases fd <;> simp [install]
  | cons slot table ih =>
      cases slot with
      | none => cases fd <;> simp [install]
      | some other =>
          cases fd with
          | zero => simp [install]
          | succ fd => simp [install, ih]

theorem get_fresh (file : F) (table : FdTable F) : get table (install file table).1 = none := by
  induction table with
  | nil => simp [install]
  | cons slot table ih => cases slot <;> simp [install, ih]

theorem get_installAll_of_open {files : List F} {table : FdTable F} {fd : RawFd} {file : F}
    (h : get table fd = some file) : get (installAll files table).2 fd = some file := by
  induction files generalizing table with
  | nil => exact h
  | cons new files ih =>
      apply ih
      rw [get_install]
      split
      · rename_i hfd
        rw [hfd, get_fresh] at h
        cases h
      · exact h

theorem installAll_fresh {files : List F} {table : FdTable F} {fd : RawFd}
    (h : fd ∈ (installAll files table).1) : get table fd = none := by
  induction files generalizing table with
  | nil => cases h
  | cons file files ih =>
      rcases List.mem_cons.1 h with rfl | h
      · exact get_fresh file table
      · have hfree := ih h
        rw [get_install] at hfree
        split at hfree
        · cases hfree
        · exact hfree

theorem installAll_nodup (files : List F) (table : FdTable F) :
    (installAll files table).1.Nodup := by
  induction files generalizing table with
  | nil => exact List.nodup_nil
  | cons file files ih =>
      refine List.nodup_cons.2 ⟨fun hmem => ?_, ih _⟩
      have hfree := installAll_fresh hmem
      rw [get_install, if_pos rfl] at hfree
      cases hfree

/-- Each installed fd refers to the file it was installed for. -/
theorem installAll_get (files : List F) (table : FdTable F) :
    (installAll files table).1.map (get (installAll files table).2) = files.map some := by
  induction files generalizing table with
  | nil => rfl
  | cons file files ih =>
      have hfile : get (install file table).2 (install file table).1 = some file := by
        rw [get_install, if_pos rfl]
      simp only [installAll, List.map_cons, get_installAll_of_open hfile, ih]

@[simp] theorem installAll_length (files : List F) (table : FdTable F) :
    (installAll files table).1.length = files.length := by
  induction files generalizing table with
  | nil => rfl
  | cons file files ih => simp [installAll, ih]

end FdTable

/-- `oobSer` and `oobDe` are the thread-local slots `OOB_SER` and `OOB_DE`;
`closed` lists the owners whose destructor has called `close(2)`, in order. -/
structure Thread (φ : Type) where
  oobSer : Option (List RawFd)
  oobDe : Option (List φ)
  closed : List φ

namespace Thread

variable {φ : Type}

/-- A thread that is inside neither a gather nor a scatter. -/
def Idle (th : Thread φ) : Prop := th.oobSer = none ∧ th.oobDe = none

theorem idle_fresh : (⟨none, none, []⟩ : Thread φ).Idle := ⟨rfl, rfl⟩

def close (th : Thread φ) (fds : List φ) : Thread φ :=
  { th with closed := th.closed ++ fds }

/-- The slots of a thread, with nothing closed yet. -/
def slots (th : Thread φ) : Thread φ := ⟨th.oobSer, th.oobDe, []⟩

@[simp] theorem close_closed (th : Thread φ) (fds : List φ) :
    (th.close fds).closed = th.closed ++ fds := rfl

@[simp] theorem slots_closed (th : Thread φ) : th.slots.closed = [] := rfl

end Thread

end TereServer.Ipc
