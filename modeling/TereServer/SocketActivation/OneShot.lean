import TereServer.Lib.Transition
import TereServer.SocketActivation.Parse

/-!
# Socket activation is one-shot

A process that calls `parse` any number of times and drains what it gets in any order.
The first call clears the environment, so the later ones get nothing.
-/

namespace TereServer.SocketActivation

open Lib Bincode

/-- The fd of a descriptor, for its new owner. -/
def FileDescriptor.takeFd (filedesc : FileDescriptor) : Int := filedesc.fd

/-- The environment of a process, the iterators it has got and the descriptors these
have handed out. -/
structure Process where
  env : Env
  iters : List FdIter
  handed : List FileDescriptor

/-- A call of `SocketActivation::new().parse()`, or one of `next` on an iterator. -/
inductive Action
  | parse
  | next (i : Nat)
  deriving DecidableEq

def returned : (result : Except Error FdIter) → List FdIter
  | .ok iter => [iter]
  | .error _ => []

def delivered : (result : Except Panic (Option FileDescriptor)) → List FileDescriptor
  | .ok filedesc => filedesc.toList
  | .error _ => []

namespace Process

def start (env : Env) : Process := ⟨env, [], []⟩

/-- A process goes on after an error, and after a panic that it catches. -/
def step (pid : Nat) (p : Process) : Action → Option Process
  | .parse =>
      let result := SocketActivation.parse {} pid p.env
      some { p with env := result.2, iters := p.iters ++ returned result.1 }
  | .next i =>
      p.iters[i]?.map fun iter =>
        { p with
          iters := p.iters.set i iter.nextFd.2
          handed := p.handed ++ delivered iter.nextFd.1 }

end Process

/-! ## The environment -/

def activationVars : List String := ["LISTEN_PID", "LISTEN_FDS", "LISTEN_FDNAMES"]

theorem parse_env (pid : Nat) (env : Env) (key : String) :
    (parse {} pid env).2 key = if key ∈ activationVars then none else env key := by
  have henv : (parse {} pid env).2 =
      unset (unset (unset env "LISTEN_PID") "LISTEN_FDS") "LISTEN_FDNAMES" := rfl
  rw [henv]
  by_cases hkey : key ∈ activationVars
  · rw [if_pos hkey]
    simp only [activationVars, List.mem_cons, List.not_mem_nil, or_false] at hkey
    rcases hkey with rfl | rfl | rfl <;> rfl
  · rw [if_neg hkey]
    simp only [activationVars, List.mem_cons, List.not_mem_nil, or_false, not_or] at hkey
    obtain ⟨hpid, hfds, hnames⟩ := hkey
    simp only [unset, Function.update_of_ne hnames, Function.update_of_ne hfds,
      Function.update_of_ne hpid]

/-- The variables of the protocol are unset, and the others are what they were. -/
structure Cleared (env env' : Env) : Prop where
  unset : ∀ key ∈ activationVars, env' key = none
  others : ∀ key, key ∉ activationVars → env' key = env key

theorem cleared_parse {env env' : Env} (pid : Nat)
    (h : ∀ key, key ∉ activationVars → env' key = env key) :
    Cleared env (parse {} pid env').2 := by
  constructor
  · intro key hkey
    rw [parse_env, if_pos hkey]
  · intro key hkey
    rw [parse_env, if_neg hkey, h key hkey]

theorem Cleared.parse_error {env env' : Env} (h : Cleared env env') (pid : Nat) :
    (parse {} pid env').1 = .error (.env "LISTEN_PID" (.var .notPresent)) :=
  parse_of_unset (h.unset "LISTEN_PID" (by decide))

/-! ## Runs -/

theorem nextFd_delivers (iter : FdIter) :
    (delivered iter.nextFd.1 = [] ∧ iter.nextFd.2.next = iter.next) ∨
      ∃ filedesc, delivered iter.nextFd.1 = [filedesc] ∧ filedesc.fd = iter.next ∧
        iter.nextFd.2.next = iter.next + 1 := by
  unfold FdIter.nextFd
  split
  · exact .inl ⟨rfl, rfl⟩
  split
  · exact .inl ⟨rfl, rfl⟩
  dsimp only
  split
  · exact .inl ⟨rfl, rfl⟩
  · exact .inr ⟨_, rfl, rfl, rfl⟩

namespace Process

variable {pid : Nat} {env : Env} {p p' : Process} {a : Action}

/-- The one iterator there may be is past everything that was handed out. -/
structure Handing (p : Process) : Prop where
  single : p.iters.length ≤ 1
  below : ∀ iter ∈ p.iters, ∀ filedesc ∈ p.handed, filedesc.fd < iter.next
  nodup : (p.handed.map FileDescriptor.takeFd).Nodup

/-- The one iterator is replaced by what a call of `next` leaves of it. -/
theorem Handing.eq_of_mem_set (h : p.Handing) {i : Nat} {iter last other : FdIter}
    (hiter : p.iters[i]? = some iter) (hother : other ∈ p.iters.set i last) : other = last := by
  have hlength := h.single
  have hi : i < p.iters.length := (List.getElem?_eq_some_iff.1 hiter).1
  obtain ⟨j, hj, rfl⟩ := List.mem_iff_getElem.1 hother
  rw [List.length_set] at hj
  obtain rfl : i = j := by omega
  exact List.getElem_set_self _

theorem Handing.next {i : Nat} {iter : FdIter} (h : p.Handing) (hiter : p.iters[i]? = some iter) :
    Handing { p with
      iters := p.iters.set i iter.nextFd.2
      handed := p.handed ++ delivered iter.nextFd.1 } := by
  have hbelow := h.below iter (List.mem_of_getElem? hiter)
  have hsingle : (p.iters.set i iter.nextFd.2).length ≤ 1 := by
    rw [List.length_set]
    exact h.single
  rcases nextFd_delivers iter with ⟨hnone, hnext⟩ | ⟨last, hlast, hfd, hnext⟩
  · rw [hnone, List.append_nil]
    refine ⟨hsingle, ?_, h.nodup⟩
    intro other hother filedesc hfiledesc
    rw [h.eq_of_mem_set hiter hother, hnext]
    exact hbelow filedesc hfiledesc
  · rw [hlast]
    refine ⟨hsingle, ?_, ?_⟩
    · intro other hother filedesc hfiledesc
      rw [h.eq_of_mem_set hiter hother, hnext]
      rcases List.mem_append.1 hfiledesc with hold | hnew
      · have hlt := hbelow filedesc hold
        omega
      · obtain rfl := List.mem_singleton.1 hnew
        omega
    · rw [List.map_append, List.nodup_append]
      refine ⟨h.nodup, List.pairwise_singleton _ _, ?_⟩
      intro fd hold fd' hnew heq
      obtain ⟨filedesc, hfiledesc, rfl⟩ := List.mem_map.1 hold
      obtain rfl := List.mem_singleton.1 hnew
      have hlt := hbelow filedesc hfiledesc
      have hsame : filedesc.fd = last.fd := heq
      omega

/-- Before the first call there is nothing, and after it the environment is cleared. -/
def OneShot (env : Env) (p : Process) : Prop :=
  p.Handing ∧ (p = start env ∨ Cleared env p.env)

theorem oneShot_start (env : Env) : OneShot env (start env) :=
  ⟨⟨Nat.zero_le 1, List.forall_mem_nil _, List.nodup_nil⟩, .inl rfl⟩

theorem OneShot.cleared_parse (h : OneShot env p) (pid : Nat) :
    Cleared env (SocketActivation.parse {} pid p.env).2 := by
  rcases h.2 with rfl | hcleared
  · exact SocketActivation.cleared_parse pid fun _ _ => rfl
  · exact SocketActivation.cleared_parse pid hcleared.others

theorem OneShot.parse (h : OneShot env p) (pid : Nat) :
    Handing { p with
      env := (SocketActivation.parse {} pid p.env).2
      iters := p.iters ++ returned (SocketActivation.parse {} pid p.env).1 } := by
  obtain ⟨hhanding, rfl | hcleared⟩ := h
  · refine ⟨?_, ?_, List.nodup_nil⟩
    · cases hresult : (SocketActivation.parse {} pid (start env).env).1 with
      | ok iter => exact Nat.le_refl 1
      | error e => exact Nat.zero_le 1
    · intro iter hiter filedesc hmem
      cases hmem
  · rw [hcleared.parse_error pid, returned, List.append_nil]
    exact ⟨hhanding.single, hhanding.below, hhanding.nodup⟩

theorem step_oneShot (hstep : step pid p a = some p') (h : OneShot env p) : OneShot env p' := by
  cases a with
  | parse =>
      cases hstep
      exact ⟨h.parse pid, .inr (h.cleared_parse pid)⟩
  | next i =>
      obtain ⟨iter, hiter, rfl⟩ := Option.map_eq_some_iff.1 hstep
      refine ⟨h.1.next hiter, ?_⟩
      rcases h.2 with rfl | hcleared
      · cases hiter
      · exact .inr hcleared

theorem step_cleared (hstep : step pid p a = some p') (h : Cleared env p.env) :
    Cleared env p'.env := by
  cases a with
  | parse =>
      cases hstep
      exact SocketActivation.cleared_parse pid h.others
  | next i =>
      obtain ⟨iter, hiter, rfl⟩ := Option.map_eq_some_iff.1 hstep
      exact h

/-- From the first call of `parse` on the environment is cleared, and further calls
return no iterator at all; no fd is handed out twice. -/
theorem parse_one_shot {actions : List Action}
    (hrun : run (step pid) actions (start env) = some p) :
    (.parse ∈ actions → Cleared env p.env ∧
      ∃ e, (SocketActivation.parse {} pid p.env).1 = .error e) ∧
    (p.handed.map FileDescriptor.takeFd).Nodup := by
  have hstart : OneShot env (start env) := oneShot_start env
  have honeShot : OneShot env p :=
    run_invariant (fun _ _ _ hstep => step_oneShot hstep) hrun hstart
  refine ⟨fun hparse => ?_, honeShot.1.nodup⟩
  obtain ⟨before, after, rfl⟩ := List.append_of_mem hparse
  obtain ⟨mid, hbefore, hrest⟩ := run_append_eq_some.1 hrun
  obtain ⟨next, hnext, hafter⟩ := run_cons_eq_some.1 hrest
  have hmid : OneShot env mid :=
    run_invariant (fun _ _ _ hstep => step_oneShot hstep) hbefore hstart
  cases hnext
  have hcleared : Cleared env p.env :=
    run_invariant (I := fun p => Cleared env p.env) (fun _ _ _ hstep => step_cleared hstep) hafter
      (hmid.cleared_parse pid)
  exact ⟨hcleared, _, hcleared.parse_error pid⟩

/-- Two calls and the drains of what they return. -/
theorem parse_one_shot_twice : ∃ p : Process,
    run (step 7) [.parse, .next 0, .next 0, .parse, .next 0] (start (listenEnv "2" "xyzzy:thud")) =
      some p ∧
    p.handed.map FileDescriptor.takeFd = [3, 4] ∧ (p.handed.map FileDescriptor.takeFd).Nodup ∧
    p.env "LISTEN_FDS" = none := by
  refine ⟨_, rfl, rfl, ?_⟩
  have hrun : run (step 7) [.parse, .next 0, .next 0, .parse, .next 0]
      (start (listenEnv "2" "xyzzy:thud")) = some _ := rfl
  obtain ⟨hcleared, hnodup⟩ := parse_one_shot hrun
  exact ⟨hnodup, (hcleared (by decide)).1.unset _ (by decide)⟩

end Process

end TereServer.SocketActivation
