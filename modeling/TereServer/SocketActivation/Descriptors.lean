import Mathlib.Data.List.Nodup
import TereServer.SocketActivation.Parse

/-!
# The numbers of the descriptors

An `i32` counts them.  The counter is advanced after the last descriptor as well, so a
drain to the end of the type overflows.
-/

namespace TereServer.SocketActivation

open Lib Bincode

/-- The most descriptors that the fd counter can be advanced past. -/
def maxFds : Nat := 2147483644

namespace FdIter

variable {iter last : FdIter} {n : Nat}

theorem nextFd_of_max (hcount : iter.count ≠ 0) (hoffset : iter.nameOffset ≤ iter.names.length)
    (hnext : iter.next = i32Max) : iter.nextFd = (.error .addOverflow, iter.passName) := by
  rw [nextFd, if_neg hcount, if_neg (Nat.not_lt.2 hoffset), if_pos hnext]

/-- The counter is advanced once for each descriptor. -/
theorem Yields.next_add_le (h : iter.Yields n) (hcount : n ≤ iter.count)
    (hnext : iter.next ≤ i32Max) : iter.next + n ≤ i32Max := by
  induction n generalizing iter with
  | zero => simpa using hnext
  | succ n ih =>
      have hne : iter.count ≠ 0 := by omega
      have hoffset : iter.nameOffset ≤ iter.names.length := by
        by_contra hlt
        exact not_yields_succ hne (Nat.lt_of_not_le hlt) h
      have hmax : iter.next ≠ i32Max := by
        intro hmax
        obtain ⟨filedescs, last, htake⟩ := h
        obtain ⟨filedesc, next, hnextFd, -⟩ := Eff.bind_eq_ok.1 htake
        rw [nextFd_of_max hne hoffset hmax] at hnextFd
        cases hnextFd
      have hrest := ih ((yields_succ hne hoffset hmax).1 h) (by simp; omega) (by simp; omega)
      rw [passFd_next] at hrest
      omega

theorem next_le (hnext : iter.next = 3) : iter.next ≤ i32Max := by
  rw [hnext]
  decide

theorem next_add_le_iff (hnext : iter.next = 3) (hcount : iter.count = n) :
    iter.next + iter.count ≤ i32Max ↔ n ≤ maxFds := by
  rw [hnext, hcount]
  unfold maxFds i32Max
  omega

/-! ## Numbers -/

/-- A full drain in which the counter does not overflow, and the numbers are distinct
and those of fds. -/
def DistinctFds (iter : FdIter) : Prop :=
  ∃ (filedescs : List FileDescriptor) (last : FdIter),
    iter.take (iter.count + 1) = (.ok (filedescs.map some ++ [none]), last) ∧
    filedescs.length = iter.count ∧ (filedescs.map FileDescriptor.fd).Nodup ∧
    ∀ filedesc ∈ filedescs, 3 ≤ filedesc.fd ∧ filedesc.fd ≤ i32Max

theorem nodup_of_consecutive {filedescs : List FileDescriptor} {first : Int}
    (h : ∀ (k : Nat) (filedesc : FileDescriptor), filedescs[k]? = some filedesc →
      filedesc.fd = first + k) : (filedescs.map FileDescriptor.fd).Nodup := by
  have hfds : filedescs.map FileDescriptor.fd =
      (List.range filedescs.length).map fun (k : Nat) => first + (k : Int) := by
    apply List.ext_getElem
    · simp
    · intro k hk _
      have hk' : k < filedescs.length := by simpa using hk
      simpa using h k filedescs[k] (List.getElem?_eq_getElem hk')
  rw [hfds]
  apply List.Nodup.map _ List.nodup_range
  intro k k' heq
  have hsame : first + (k : Int) = first + (k' : Int) := heq
  omega

theorem distinctFds_iff (hnames : iter.names = []) (hoffset : iter.nameOffset = 0)
    (hnext : iter.next = 3) : iter.DistinctFds ↔ iter.count ≤ maxFds := by
  rw [← next_add_le_iff hnext rfl]
  constructor
  · intro h
    obtain ⟨filedescs, last, htake, -⟩ := h
    exact (yields_of_take_succ htake).next_add_le (Nat.le_refl _) (next_le hnext)
  · intro hle
    obtain ⟨filedescs, last, htake, hlength, hfiledescs⟩ := (drains_iff hoffset hle).2 (.inl hnames)
    refine ⟨filedescs, last, htake, hlength,
      nodup_of_consecutive fun k filedesc hk => (hfiledescs k filedesc hk).1, ?_⟩
    intro filedesc hmem
    obtain ⟨k, hk, rfl⟩ := List.mem_iff_getElem.1 hmem
    have hfd := (hfiledescs k _ (List.getElem?_eq_getElem hk)).1
    omega

end FdIter

/-! ## The descriptors of a process -/

section Process

variable {self : SocketActivation} {pid n : Nat} {env : Env} {pidBytes bytes : OsString}

theorem parse_of_number (hpid : env "LISTEN_PID" = some pidBytes)
    (hus : Number (2 ^ 32) pidBytes pid) (hfds : env "LISTEN_FDS" = some bytes)
    (hn : Number (2 ^ 64) bytes n) : (parse self pid env).1 =
      .ok ⟨self, listenFdsStart, n, (env "LISTEN_FDNAMES").getD [], 0⟩ := by
  have hforUs : forUs pid (envVar (env "LISTEN_PID")) = .ok true := by
    rw [hpid, forUs_of_number hus, beq_self_eq_true]
  exact (parse_of_forUs hforUs).1 bytes n hfds hn

/-- Without names, the descriptors are distinct and valid exactly when there are few
enough of them for the counter. -/
theorem distinct_fds_iff (self : SocketActivation) (pid n : Nat) (env : Env)
    (pidBytes bytes : OsString) (hpid : env "LISTEN_PID" = some pidBytes)
    (hus : Number (2 ^ 32) pidBytes pid) (hfds : env "LISTEN_FDS" = some bytes)
    (hn : Number (2 ^ 64) bytes n)
    (hnames : env "LISTEN_FDNAMES" = none ∨ env "LISTEN_FDNAMES" = some []) :
    ∃ iter, (parse self pid env).1 = .ok iter ∧ iter.count = n ∧
      (iter.DistinctFds ↔ n ≤ maxFds) := by
  have hnone : (env "LISTEN_FDNAMES").getD [] = [] := by
    rcases hnames with hnames | hnames
    · rw [hnames]
      rfl
    · rw [hnames]
      rfl
  exact ⟨_, parse_of_number hpid hus hfds hn, rfl, FdIter.distinctFds_iff hnone rfl rfl⟩

end Process

/-! ## Environments at the limit -/

theorem Decimal.number {bound n : Nat} {s : String} (h : Decimal bound (strBytes s) n) :
    Number bound (strBytes s) n := by
  refine ⟨?_, h⟩
  have hbytes : ByteArray.mk (strBytes s).toArray = s.toByteArray := by
    simp [strBytes]
  rw [hbytes]
  exact s.isValidUTF8

theorem number_seven : Number (2 ^ 32) (strBytes "7") 7 :=
  Decimal.number ⟨[55], .inl rfl, by decide, List.forall_mem_singleton.2 (by decide), rfl, by decide⟩

theorem number_two : Number (2 ^ 64) (strBytes "2") 2 :=
  Decimal.number ⟨[50], .inl rfl, by decide, List.forall_mem_singleton.2 (by decide), rfl, by decide⟩

theorem distinct_fds_two : ∃ iter, (parse {} 7 (listenEnv "2" "")).1 = .ok iter ∧
    iter.count = 2 ∧ iter.DistinctFds := by
  obtain ⟨iter, hparse, hcount, hiff⟩ := distinct_fds_iff {} 7 2 (listenEnv "2" "") _ _ rfl
    number_seven rfl number_two (.inr rfl)
  exact ⟨iter, hparse, hcount, hiff.2 (by decide)⟩

/-- The fd of the last descriptor is the greatest there is, and the counter is advanced
past it. -/
theorem last_fd_overflows : ∃ iter, (parse {} 7 (listenEnv "2147483645" "")).1 = .ok iter ∧
    iter.count = 2147483645 ∧ ¬ iter.DistinctFds := by
  refine ⟨_, rfl, rfl, ?_⟩
  rw [FdIter.distinctFds_iff rfl rfl rfl]
  decide

end TereServer.SocketActivation
