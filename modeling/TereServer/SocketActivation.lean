import Mathlib.Logic.Function.Basic
import TereServer.Bincode.Leaf
import TereServer.Lib.Effect

/-!
# Socket activation

`parse` reads and unsets the three variables of the protocol; the iterator it
returns hands out one fd number and one name for each call.  Lengths and counts
are `usize` values that no operation here can overflow, except for the fd
counter, an `i32` whose increment is checked.
-/

namespace TereServer

structure SocketActivation where
  unsetEnv : Bool := true

namespace SocketActivation

open Lib Bincode

abbrev OsString := Bytes

/-- The environment of the process. -/
abbrev Env := String → Option OsString

inductive VarError
  | notPresent
  | notUnicode (value : OsString)
  deriving DecidableEq, Repr

inductive IntErrorKind
  | empty
  | invalidDigit
  | posOverflow
  deriving DecidableEq, Repr

inductive EnvError
  | notPresent
  | notUnicode (value : OsString)
  | var (e : VarError)
  | notInt (e : IntErrorKind)
  deriving DecidableEq, Repr

/-- The environment variable an error is about, and its cause. -/
inductive Error
  | env (key : String) (source : EnvError)
  deriving DecidableEq, Repr

structure FdIter where
  activation : SocketActivation
  next : Int
  count : Nat
  names : Bytes
  nameOffset : Nat

structure FileDescriptor where
  name_ : Option OsString
  fd : Int
  deriving DecidableEq, Repr

def FileDescriptor.name (filedesc : FileDescriptor) : Option OsString := filedesc.name_

/-! ## The standard library -/

/-- `std::env::var` of a variable with the given value. -/
def envVar (value : Option OsString) : Except VarError String :=
  match value with
  | none => .error .notPresent
  | some bytes =>
      if h : (ByteArray.mk bytes.toArray).IsValidUTF8 then .ok (.ofByteArray _ h)
      else .error (.notUnicode bytes)

/-- The digits of `str::parse` for an unsigned type below `bound`. -/
def parseDigits (bound : Nat) : Bytes → (value : Nat) → Except IntErrorKind Nat
  | [], value => .ok value
  | digit :: digits, value =>
      if digit < 48 ∨ 57 < digit then .error .invalidDigit
      else if bound ≤ 10 * value + (digit.toNat - 48) then .error .posOverflow
      else parseDigits bound digits (10 * value + (digit.toNat - 48))

/-- `str::parse` for an unsigned type below `bound`; one leading `+` is allowed. -/
def parseUnsigned (bound : Nat) (s : String) : Except IntErrorKind Nat :=
  match strBytes s with
  | [] => .error .empty
  | [43] => .error .invalidDigit
  | 43 :: digits => parseDigits bound digits 0
  | digits => parseDigits bound digits 0

/-! ## `parse` -/

def unset (env : Env) (key : String) : Env := Function.update env key none

def listenFdsStart : Int := 3

def getStart (_ : SocketActivation) : Int := listenFdsStart

def empty (activation : SocketActivation) : FdIter := ⟨activation, -1, 0, [], 0⟩

/-- Whether `LISTEN_PID` names this process. -/
def forUs (pid : Nat) (listenPid : Except VarError String) : Except EnvError Bool :=
  let parsed : Except EnvError Bool := do
    let s ← listenPid.mapError EnvError.var
    let parsedPid ← (parseUnsigned (2 ^ 32) s).mapError EnvError.notInt
    return parsedPid == pid
  match parsed with
  | .error .notPresent => .ok true
  | result => result

def parse (self : SocketActivation) (pid : Nat) : Eff Env Error FdIter := fun env =>
  let listenPid := envVar (env "LISTEN_PID")
  let listenFds := envVar (env "LISTEN_FDS")
  let listenFdnames := env "LISTEN_FDNAMES"
  let env :=
    if self.unsetEnv then
      unset (unset (unset env "LISTEN_PID") "LISTEN_FDS") "LISTEN_FDNAMES"
    else env
  let result : Except Error FdIter := do
    let forUs ← (forUs pid listenPid).mapError (Error.env "LISTEN_PID")
    if !forUs then
      return empty self
    let s ← listenFds.mapError fun e => Error.env "LISTEN_FDS" (.var e)
    let numFds ← (parseUnsigned (2 ^ 64) s).mapError fun e => Error.env "LISTEN_FDS" (.notInt e)
    return ⟨self, getStart self, numFds, listenFdnames.getD [], 0⟩
  (result, env)

/-! ## The iterator -/

inductive Panic
  | sliceStart (start length : Nat)
  | addOverflow
  deriving DecidableEq, Repr

def i32Max : Int := 2147483647

def colonByte : UInt8 := 58

namespace FdIter

/-- The part of the names that has not been handed out. -/
def rest (iter : FdIter) : Bytes := iter.names.drop iter.nameOffset

def colon (iter : FdIter) : Nat := iter.rest.findIdx (· == colonByte)

/-- A name as `next` returns it: an empty one is none. -/
def nonEmpty (name : Bytes) : Option OsString := if name.isEmpty then none else some name

def passName (iter : FdIter) : FdIter := { iter with
  nameOffset := iter.nameOffset + min (iter.colon + 1) iter.names.length
  count := iter.count - 1 }

def passFd (iter : FdIter) : FdIter := { iter.passName with next := iter.next + 1 }

/-- `Iterator::next`. -/
def nextFd : Eff FdIter Panic (Option FileDescriptor) := fun iter =>
  if iter.count = 0 then (.ok none, iter)
  else if iter.names.length < iter.nameOffset then
    (.error (.sliceStart iter.nameOffset iter.names.length), iter)
  else
    let name := nonEmpty (iter.rest.take iter.colon)
    if iter.next = i32Max then (.error .addOverflow, iter.passName)
    else (.ok (some ⟨name, iter.next⟩), iter.passFd)

/-- The results of `calls` calls of `next`. -/
def take : (calls : Nat) → Eff FdIter Panic (List (Option FileDescriptor))
  | 0 => pure []
  | calls + 1 => do
      let filedesc ← nextFd
      let filedescs ← take calls
      return filedesc :: filedescs

end FdIter

/-! ## Fields -/

/-- The colon-separated fields of a byte string. -/
def fields (names : Bytes) : List Bytes := names.splitOn colonByte

theorem fields_of_no_colon {names : Bytes}
    (h : names.findIdx (· == colonByte) = names.length) : fields names = [names] := by
  refine List.splitOnP_eq_singleton fun byte hbyte => ?_
  have hnone := List.findIdx_eq_length.1 h byte hbyte
  simpa using hnone

theorem fields_of_colon {names : Bytes}
    (h : names.findIdx (· == colonByte) < names.length) :
    fields names = names.take (names.findIdx (· == colonByte)) ::
      fields (names.drop (names.findIdx (· == colonByte) + 1)) := by
  have hsep : (names[names.findIdx (· == colonByte)] == colonByte) = true :=
    List.findIdx_getElem (w := h)
  have hsplit : names = names.take (names.findIdx (· == colonByte)) ++
      names[names.findIdx (· == colonByte)] ::
        names.drop (names.findIdx (· == colonByte) + 1) := by
    rw [List.getElem_cons_drop, List.take_append_drop]
  have hbefore : ∀ byte ∈ names.take (names.findIdx (· == colonByte)),
      (byte == colonByte) = false := by
    intro byte hbyte
    obtain ⟨i, hi, rfl⟩ := List.mem_iff_getElem.1 hbyte
    have hlt : i < names.findIdx (· == colonByte) := by
      rw [List.length_take] at hi
      omega
    rw [List.getElem_take]
    exact List.not_of_lt_findIdx hlt
  conv_lhs => rw [hsplit]
  exact List.splitOnP_append_cons_of_forall_mem hbefore _ hsep _

namespace FdIter

variable {iter last : FdIter}

theorem colon_le (iter : FdIter) : iter.colon ≤ iter.rest.length := List.findIdx_le_length

theorem rest_length (iter : FdIter) :
    iter.rest.length = iter.names.length - iter.nameOffset := by
  rw [rest, List.length_drop]

/-! ## One call -/

theorem nextFd_of_zero (hcount : iter.count = 0) : iter.nextFd = (.ok none, iter) := by
  rw [nextFd, if_pos hcount]

theorem nextFd_of_lt (hcount : iter.count ≠ 0) (hoffset : iter.names.length < iter.nameOffset) :
    iter.nextFd = (.error (.sliceStart iter.nameOffset iter.names.length), iter) := by
  rw [nextFd, if_neg hcount, if_pos hoffset]

theorem nextFd_of_le (hcount : iter.count ≠ 0) (hoffset : iter.nameOffset ≤ iter.names.length)
    (hnext : iter.next ≠ i32Max) :
    iter.nextFd = (.ok (some ⟨nonEmpty (iter.rest.take iter.colon), iter.next⟩), iter.passFd) := by
  rw [nextFd, if_neg hcount, if_neg (Nat.not_lt.2 hoffset), if_neg hnext]

theorem nextFd_eq_ok (hcount : iter.count ≠ 0) {filedesc : Option FileDescriptor}
    (h : iter.nextFd = (.ok filedesc, last)) :
    iter.nameOffset ≤ iter.names.length ∧ last = iter.passFd ∧
      filedesc = some ⟨nonEmpty (iter.rest.take iter.colon), iter.next⟩ := by
  by_cases hoffset : iter.nameOffset ≤ iter.names.length
  · by_cases hnext : iter.next = i32Max
    · rw [nextFd, if_neg hcount, if_neg (Nat.not_lt.2 hoffset), if_pos hnext] at h
      cases h
    · rw [nextFd_of_le hcount hoffset hnext] at h
      cases h
      exact ⟨hoffset, rfl, rfl⟩
  · rw [nextFd_of_lt hcount (Nat.lt_of_not_le hoffset)] at h
    cases h

/-- After a field that a colon ends, the offset is within the names. -/
theorem passFd_of_colon (hcolon : iter.colon < iter.rest.length) :
    0 < iter.passFd.nameOffset ∧ iter.passFd.nameOffset ≤ iter.names.length ∧
      fields iter.rest = iter.rest.take iter.colon :: fields iter.passFd.rest := by
  have hlength := iter.rest_length
  have hoffset : iter.passFd.nameOffset = iter.nameOffset + (iter.colon + 1) := by
    simp only [passFd, passName]
    omega
  have hrest : iter.passFd.rest = iter.rest.drop (iter.colon + 1) := by
    rw [rest, hoffset, rest, List.drop_drop]
    rfl
  refine ⟨by omega, by omega, ?_⟩
  rw [hrest]
  exact fields_of_colon hcolon

/-- After the last field there is nothing left to hand out. -/
theorem passFd_of_last (hoffset : iter.nameOffset ≤ iter.names.length)
    (hcolon : iter.colon = iter.rest.length) :
    iter.passFd.rest = [] ∧ fields iter.rest = [iter.rest.take iter.colon] := by
  have hlength := iter.rest_length
  constructor
  · refine List.drop_eq_nil_of_le ?_
    simp only [passFd, passName]
    omega
  · rw [hcolon, List.take_length]
    exact fields_of_no_colon hcolon

@[simp] theorem passFd_names : iter.passFd.names = iter.names := rfl

@[simp] theorem passFd_count : iter.passFd.count = iter.count - 1 := rfl

@[simp] theorem passFd_next : iter.passFd.next = iter.next + 1 := rfl

/-! ## Several calls -/

/-- `n` calls do not panic. -/
def Yields (iter : FdIter) (n : Nat) : Prop := ∃ filedescs last, iter.take n = (.ok filedescs, last)

theorem yields_zero (iter : FdIter) : iter.Yields 0 := ⟨[], iter, rfl⟩

theorem yields_succ {n : Nat} (hcount : iter.count ≠ 0)
    (hoffset : iter.nameOffset ≤ iter.names.length) (hnext : iter.next ≠ i32Max) :
    iter.Yields (n + 1) ↔ iter.passFd.Yields n := by
  have hfirst := nextFd_of_le hcount hoffset hnext
  constructor
  · rintro ⟨filedescs, last, h⟩
    obtain ⟨filedesc, next, hnextFd, hrest⟩ := Eff.bind_eq_ok.1 h
    obtain ⟨rest, last, htake, -⟩ := Eff.bind_eq_ok.1 hrest
    rw [hfirst] at hnextFd
    cases hnextFd
    exact ⟨rest, last, htake⟩
  · rintro ⟨filedescs, last, h⟩
    exact ⟨_, last, Eff.bind_eq_ok.2 ⟨_, _, hfirst, Eff.bind_eq_ok.2 ⟨filedescs, last, h, rfl⟩⟩⟩

theorem not_yields_succ {n : Nat} (hcount : iter.count ≠ 0)
    (hoffset : iter.names.length < iter.nameOffset) : ¬ iter.Yields (n + 1) := by
  rintro ⟨filedescs, last, h⟩
  obtain ⟨filedesc, next, hnextFd, -⟩ := Eff.bind_eq_ok.1 h
  rw [nextFd_of_lt hcount hoffset] at hnextFd
  cases hnextFd

/-- Past the first field, exactly as many calls as there are fields left succeed. -/
theorem yields_iff_of_pos (n : Nat) (hpos : 0 < iter.nameOffset)
    (hoffset : iter.nameOffset ≤ iter.names.length) (hcount : n ≤ iter.count)
    (hnext : iter.next + n ≤ i32Max) : iter.Yields n ↔ n ≤ (fields iter.rest).length := by
  induction n generalizing iter with
  | zero => simp [yields_zero]
  | succ n ih =>
      rw [yields_succ (by omega) hoffset (by omega)]
      rcases Nat.lt_or_eq_of_le iter.colon_le with hcolon | hcolon
      · obtain ⟨hpos', hoffset', hfields⟩ := passFd_of_colon hcolon
        rw [ih hpos' hoffset' (by simp; omega) (by simp; omega), hfields, List.length_cons]
        omega
      · obtain ⟨-, hfields⟩ := passFd_of_last hoffset hcolon
        have hpast : iter.passFd.names.length < iter.passFd.nameOffset := by
          have hlength := iter.rest_length
          simp only [passFd, passName]
          omega
        rw [hfields]
        cases n with
        | zero => simp [yields_zero]
        | succ n =>
            have hfalse := not_yields_succ (n := n) (by simp; omega) hpast
            simp [hfalse]

/-- With no names at all every call succeeds. -/
theorem yields_of_nil (n : Nat) (hnames : iter.names = []) (hoffset : iter.nameOffset = 0)
    (hcount : n ≤ iter.count) (hnext : iter.next + n ≤ i32Max) : iter.Yields n := by
  induction n generalizing iter with
  | zero => exact iter.yields_zero
  | succ n ih =>
      rw [yields_succ (by omega) (by omega) (by omega)]
      exact ih hnames (by simp [passFd, passName, hnames, hoffset]) (by simp; omega)
        (by simp; omega)

theorem yields_iff (n : Nat) (hoffset : iter.nameOffset = 0) (hcount : n ≤ iter.count)
    (hnext : iter.next + n ≤ i32Max) :
    iter.Yields n ↔ iter.names = [] ∨ n ≤ max (fields iter.names).length 2 := by
  by_cases hnames : iter.names = []
  · simp [hnames, yields_of_nil n hnames hoffset hcount hnext]
  · have hlength : 0 < iter.names.length := List.length_pos_of_ne_nil hnames
    have hrest : iter.rest = iter.names := by rw [rest, hoffset, List.drop_zero]
    rw [or_iff_right hnames, ← hrest]
    cases n with
    | zero => simp [yields_zero]
    | succ n =>
        rw [yields_succ (by omega) (by omega) (by omega)]
        rcases Nat.lt_or_eq_of_le iter.colon_le with hcolon | hcolon
        · obtain ⟨hpos, hoffset', hfields⟩ := passFd_of_colon hcolon
          rw [yields_iff_of_pos n hpos hoffset' (by simp; omega) (by simp; omega), hfields,
            List.length_cons]
          have hsome : 0 < (fields iter.passFd.rest).length :=
            List.length_pos_of_ne_nil (List.splitOnP_ne_nil _ _)
          omega
        · obtain ⟨hrest', hfields⟩ := passFd_of_last (by omega) hcolon
          have hend : iter.passFd.nameOffset = iter.names.length := by
            simp only [passFd, passName, hcolon, hrest]
            omega
          rw [yields_iff_of_pos n (by omega) (by simp; omega) (by simp; omega) (by simp; omega),
            hrest', hfields]
          simp [fields]

/-- The name handed out by a call is that of the first field that is left. -/
theorem rest_name_zero (hoffset : iter.nameOffset ≤ iter.names.length) :
    (fields iter.rest)[0]?.bind nonEmpty = nonEmpty (iter.rest.take iter.colon) := by
  rcases Nat.lt_or_eq_of_le iter.colon_le with hcolon | hcolon
  · rw [(passFd_of_colon hcolon).2.2]
    rfl
  · rw [(passFd_of_last hoffset hcolon).2]
    rfl

/-- The fields that are left after a call, as far as they have names. -/
theorem rest_name_succ (hoffset : iter.nameOffset ≤ iter.names.length) (k : Nat) :
    (fields iter.rest)[k + 1]?.bind nonEmpty = (fields iter.passFd.rest)[k]?.bind nonEmpty := by
  rcases Nat.lt_or_eq_of_le iter.colon_le with hcolon | hcolon
  · rw [(passFd_of_colon hcolon).2.2, List.getElem?_cons_succ]
  · obtain ⟨hrest, hfields⟩ := passFd_of_last hoffset hcolon
    rw [hrest, hfields]
    cases k <;> rfl

theorem take_of_zero (n : Nat) (hcount : iter.count = 0) :
    iter.take n = (.ok (List.replicate n none), iter) := by
  induction n with
  | zero => rfl
  | succ n ih =>
      exact Eff.bind_eq_ok.2 ⟨none, iter, nextFd_of_zero hcount,
        Eff.bind_eq_ok.2 ⟨_, iter, ih, rfl⟩⟩

/-- The `k`-th descriptor handed out has the `k`-th fd number and, as its name, the
`k`-th field that is left. -/
theorem take_delivers {n k : Nat} {results : List (Option FileDescriptor)}
    {filedesc : FileDescriptor} (h : iter.take n = (.ok results, last))
    (hk : results[k]? = some (some filedesc)) :
    filedesc.fd = iter.next + k ∧ filedesc.name = (fields iter.rest)[k]?.bind nonEmpty := by
  induction n generalizing iter results k with
  | zero =>
      cases h
      cases hk
  | succ n ih =>
      by_cases hcount : iter.count = 0
      · rw [take_of_zero (n + 1) hcount] at h
        cases h
        have hmem := List.mem_of_getElem? hk
        cases (List.mem_replicate.1 hmem).2
      · obtain ⟨first, next, hnextFd, hrest⟩ := Eff.bind_eq_ok.1 h
        obtain ⟨rest, last, htake, hresults⟩ := Eff.bind_eq_ok.1 hrest
        obtain ⟨hoffset, rfl, rfl⟩ := nextFd_eq_ok hcount hnextFd
        cases hresults
        cases k with
        | zero =>
            cases hk
            rw [rest_name_zero hoffset]
            exact ⟨by simp, rfl⟩
        | succ k =>
            obtain ⟨hfd, hname⟩ := ih htake hk
            rw [hfd, hname, rest_name_succ hoffset, passFd_next]
            exact ⟨by omega, rfl⟩

/-- As long as the count lasts, every call hands out a descriptor. -/
theorem take_spec {n : Nat} {results : List (Option FileDescriptor)} (hcount : n ≤ iter.count)
    (h : iter.take n = (.ok results, last)) :
    ∃ filedescs : List FileDescriptor, results = filedescs.map some ∧ filedescs.length = n ∧
      last.count = iter.count - n := by
  induction n generalizing iter results with
  | zero =>
      cases h
      exact ⟨[], rfl, rfl, rfl⟩
  | succ n ih =>
      obtain ⟨filedesc, next, hnextFd, hrest⟩ := Eff.bind_eq_ok.1 h
      obtain ⟨rest, last, htake, hresults⟩ := Eff.bind_eq_ok.1 hrest
      obtain ⟨hoffset, rfl, rfl⟩ := nextFd_eq_ok (by omega) hnextFd
      cases hresults
      obtain ⟨filedescs, rfl, hlength, hlast⟩ := ih (by simp; omega) htake
      refine ⟨⟨nonEmpty (iter.rest.take iter.colon), iter.next⟩ :: filedescs, rfl,
        by simp [hlength], ?_⟩
      rw [hlast, passFd_count]
      omega

/-- A full drain: one descriptor for each of `count` calls, with consecutive fd
numbers and no name where there is no field, and then nothing. -/
def Drains (iter : FdIter) : Prop :=
  ∃ (filedescs : List FileDescriptor) (last : FdIter),
    iter.take (iter.count + 1) = (.ok (filedescs.map some ++ [none]), last) ∧
    filedescs.length = iter.count ∧
    ∀ (k : Nat) (filedesc : FileDescriptor), filedescs[k]? = some filedesc →
      filedesc.fd = iter.next + k ∧ ((fields iter.names).length ≤ k → filedesc.name = none)

theorem take_succ_last {n : Nat} {results : List (Option FileDescriptor)} :
    iter.take (n + 1) = (.ok results, last) ↔
      ∃ before mid filedesc, iter.take n = (.ok before, mid) ∧
        mid.nextFd = (.ok filedesc, last) ∧ results = before ++ [filedesc] := by
  induction n generalizing iter results with
  | zero =>
      constructor
      · intro h
        obtain ⟨filedesc, next, hnextFd, hrest⟩ := Eff.bind_eq_ok.1 h
        cases hrest
        exact ⟨[], iter, filedesc, rfl, hnextFd, rfl⟩
      · rintro ⟨before, mid, filedesc, htake, hnextFd, rfl⟩
        cases htake
        exact Eff.bind_eq_ok.2 ⟨filedesc, last, hnextFd, rfl⟩
  | succ n ih =>
      constructor
      · intro h
        obtain ⟨first, next, hfirst, hrest⟩ := Eff.bind_eq_ok.1 h
        obtain ⟨rest, last', htake, hresults⟩ := Eff.bind_eq_ok.1 hrest
        cases hresults
        obtain ⟨before, mid, filedesc, hbefore, hnextFd, rfl⟩ := ih.1 htake
        exact ⟨first :: before, mid, filedesc, Eff.bind_eq_ok.2 ⟨first, next, hfirst,
          Eff.bind_eq_ok.2 ⟨before, mid, hbefore, rfl⟩⟩, hnextFd, rfl⟩
      · rintro ⟨before, mid, filedesc, htake, hnextFd, rfl⟩
        obtain ⟨first, next, hfirst, hrest⟩ := Eff.bind_eq_ok.1 htake
        obtain ⟨rest, mid', htake', hresults⟩ := Eff.bind_eq_ok.1 hrest
        cases hresults
        exact Eff.bind_eq_ok.2 ⟨first, next, hfirst, Eff.bind_eq_ok.2 ⟨rest ++ [filedesc], last,
          ih.2 ⟨rest, mid, filedesc, htake', hnextFd, rfl⟩, rfl⟩⟩

theorem yields_of_take_succ {n : Nat} {results : List (Option FileDescriptor)}
    (h : iter.take (n + 1) = (.ok results, last)) : iter.Yields n := by
  obtain ⟨before, mid, -, hbefore, -⟩ := take_succ_last.1 h
  exact ⟨before, mid, hbefore⟩

theorem yields_of_le {m n : Nat} (hle : m ≤ n) (h : iter.Yields n) : iter.Yields m := by
  induction n with
  | zero =>
      obtain rfl : m = 0 := by omega
      exact h
  | succ n ih =>
      by_cases hlast : m = n + 1
      · rw [hlast]
        exact h
      · obtain ⟨results, last, htake⟩ := h
        exact ih (by omega) (yields_of_take_succ htake)

theorem drains_iff (hoffset : iter.nameOffset = 0) (hnext : iter.next + iter.count ≤ i32Max) :
    iter.Drains ↔ iter.names = [] ∨ iter.count ≤ max (fields iter.names).length 2 := by
  rw [← yields_iff iter.count hoffset le_rfl hnext]
  constructor
  · rintro ⟨filedescs, last, htake, -⟩
    exact yields_of_take_succ htake
  · rintro ⟨results, last, htake⟩
    obtain ⟨filedescs, rfl, hlength, hlast⟩ := take_spec le_rfl htake
    have hend : last.nextFd = (.ok none, last) := nextFd_of_zero (by omega)
    refine ⟨filedescs, last, take_succ_last.2 ⟨_, last, none, htake, hend, rfl⟩, hlength,
      fun k filedesc hk => ?_⟩
    have hdelivered : (filedescs.map some)[k]? = some (some filedesc) := by
      rw [List.getElem?_map, hk]
      rfl
    obtain ⟨hfd, hname⟩ := take_delivers htake hdelivered
    refine ⟨hfd, fun hle => ?_⟩
    have hrest : iter.rest = iter.names := by rw [rest, hoffset, List.drop_zero]
    rw [hname, hrest, List.getElem?_eq_none hle]
    rfl

end FdIter

/-! ## What `parse` returns -/

/-- A successful `parse` returns no descriptors, or those the environment lists. -/
theorem parse_eq_ok {self : SocketActivation} {pid : Nat} {env : Env} {iter : FdIter}
    (h : (parse self pid env).1 = .ok iter) :
    iter = empty self ∨
      ∃ s numFds, envVar (env "LISTEN_FDS") = .ok s ∧ parseUnsigned (2 ^ 64) s = .ok numFds ∧
        iter = ⟨self, listenFdsStart, numFds, (env "LISTEN_FDNAMES").getD [], 0⟩ := by
  simp only [parse, bind, Except.bind] at h
  rcases hfor : forUs pid (envVar (env "LISTEN_PID")) with e | forUs
  · simp [hfor, Except.mapError] at h
  cases forUs with
  | false =>
      simp only [hfor, Except.mapError] at h
      exact .inl (Except.ok.inj h).symm
  | true =>
      rcases hs : envVar (env "LISTEN_FDS") with e | s
      · simp [hfor, hs, Except.mapError] at h
      rcases hnum : parseUnsigned (2 ^ 64) s with e | numFds
      · simp only [hfor, hs, hnum, Except.mapError] at h
        cases h
      · simp only [hfor, hs, hnum, Except.mapError] at h
        exact .inr ⟨s, numFds, rfl, hnum, (Except.ok.inj h).symm⟩

/-- The iterator that `parse` returned drains without a panic exactly when it has
no names at all, or at most as many descriptors as there are names, or two. -/
theorem parse_drains_iff (self : SocketActivation) (pid : Nat) (env : Env) (iter : FdIter)
    (hparse : (parse self pid env).1 = .ok iter)
    (hbound : listenFdsStart + iter.count ≤ i32Max) :
    iter.Drains ↔ iter.names = [] ∨ iter.count ≤ max (fields iter.names).length 2 := by
  rcases parse_eq_ok hparse with rfl | ⟨s, numFds, -, -, rfl⟩
  · exact FdIter.drains_iff rfl (show (-1 : Int) + 0 ≤ i32Max by decide)
  · exact FdIter.drains_iff rfl hbound

/-- The environment of a process with the id 7. -/
def listenEnv (listenFds listenFdnames : String) : Env := fun key =>
  if key = "LISTEN_PID" then some (strBytes "7")
  else if key = "LISTEN_FDS" then some (strBytes listenFds)
  else if key = "LISTEN_FDNAMES" then some (strBytes listenFdnames)
  else none

theorem parse_drains_two_names :
    ∃ iter, (parse {} 7 (listenEnv "2" "xyzzy:thud")).1 = .ok iter ∧ iter.count = 2 ∧
      iter.Drains := by
  refine ⟨_, rfl, rfl, ?_⟩
  exact (parse_drains_iff {} 7 (listenEnv "2" "xyzzy:thud") _ rfl (by decide)).2 (by decide)

/-- The third call for a single name reads past the names. -/
theorem parse_panics_on_third_fd :
    ∃ iter, (parse {} 7 (listenEnv "3" "xyzzy")).1 = .ok iter ∧ iter.count = 3 ∧
      (iter.take 3).1 = .error (.sliceStart 6 5) ∧ ¬ iter.Drains := by
  refine ⟨_, rfl, rfl, rfl, ?_⟩
  exact (FdIter.drains_iff rfl (by decide)).not.2 (by decide)

end SocketActivation

end TereServer
