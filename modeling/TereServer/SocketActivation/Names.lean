import TereServer.SocketActivation.Descriptors

/-!
# The names of the descriptors

The names are the fields of one string, and the numbers those of a counter, which wraps
in a build without overflow checks such as a release: there a drain goes on past the
greatest fd, with negative numbers.
-/

namespace TereServer.SocketActivation

open Lib Bincode

def wrappingSucc (n : Int) : Int := (n + 1).bmod (2 ^ 32)

/-- How many fds there are from `LISTEN_FDS_START` on. -/
def maxNumbers : Nat := 2147483645

def joined (names : List Bytes) : Bytes := [colonByte].intercalate names

theorem fields_joined {names : List Bytes} (hfree : ∀ name ∈ names, colonByte ∉ name)
    (hne : names ≠ []) : fields (joined names) = names := List.splitOn_intercalate _ hfree hne

namespace FdIter

/-- `Iterator::next` in a build without overflow checks. -/
def nextFdWrapping : Eff FdIter Panic (Option FileDescriptor) := fun iter =>
  if iter.count = 0 then (.ok none, iter)
  else if iter.names.length < iter.nameOffset then
    (.error (.sliceStart iter.nameOffset iter.names.length), iter)
  else
    let name := nonEmpty (iter.rest.take iter.colon)
    (.ok (some ⟨name, iter.next⟩), { iter.passName with next := wrappingSucc iter.next })

def takeWrapping : (calls : Nat) → Eff FdIter Panic (List (Option FileDescriptor))
  | 0 => pure []
  | calls + 1 => do
      let filedesc ← nextFdWrapping
      let filedescs ← takeWrapping calls
      return filedesc :: filedescs

def GivesBack (iter : FdIter) (names : List Bytes) : Prop :=
  ∃ (filedescs : List FileDescriptor) (last : FdIter),
    iter.takeWrapping (iter.count + 1) = (.ok (filedescs.map some ++ [none]), last) ∧
    filedescs.map FileDescriptor.name = names.map nonEmpty

/-- The descriptors of every drain have the numbers from `start` on and the fields of
`listenFdnames` for names, and a list of names comes back as it was joined. -/
structure NamesBelong (iter : FdIter) (start : Int) (listenFdnames : Bytes) : Prop where
  delivered : ∀ calls results last (k : Nat) filedesc,
    iter.takeWrapping calls = (.ok results, last) → results[k]? = some (some filedesc) →
      filedesc.fd = start + k ∧ filedesc.name = (fields listenFdnames)[k]?.bind nonEmpty
  joined : ∀ names : List Bytes, (∀ name ∈ names, colonByte ∉ name) →
    listenFdnames = joined names → iter.count = names.length → iter.GivesBack names

variable {iter last : FdIter} {n k : Nat} {names : List Bytes}
  {results : List (Option FileDescriptor)} {filedesc : FileDescriptor}

/-! ## An unbounded counter -/

def numbered (iter : FdIter) (first : Int) : FdIter := { iter with next := first }

def renumber (shift : Int) (filedesc : FileDescriptor) : FileDescriptor :=
  { filedesc with fd := (filedesc.fd + shift).bmod (2 ^ 32) }

theorem wrappingSucc_bmod (m : Int) : wrappingSucc (m.bmod (2 ^ 32)) = (m + 1).bmod (2 ^ 32) := by
  unfold wrappingSucc
  exact Int.bmod_add_bmod

theorem nextFdWrapping_cases {first shift : Int} (hnext : iter.next = (first + shift).bmod (2 ^ 32))
    (hfirst : first ≠ i32Max) :
    (∃ e, (iter.numbered first).nextFd = (.error e, iter.numbered first) ∧
      iter.nextFdWrapping = (.error e, iter)) ∨
    ∃ filedesc iter' first', (iter.numbered first).nextFd = (.ok filedesc, iter'.numbered first') ∧
      iter.nextFdWrapping = (.ok (filedesc.map (renumber shift)), iter') ∧
      iter'.next = (first' + shift).bmod (2 ^ 32) ∧ first' ≤ first + 1 := by
  by_cases hcount : iter.count = 0
  · refine .inr ⟨none, iter, first, nextFd_of_zero hcount, ?_, hnext, by omega⟩
    rw [nextFdWrapping, if_pos hcount]
    rfl
  · by_cases hoffset : iter.names.length < iter.nameOffset
    · refine .inl ⟨.sliceStart iter.nameOffset iter.names.length, nextFd_of_lt hcount hoffset, ?_⟩
      rw [nextFdWrapping, if_neg hcount, if_pos hoffset]
    · refine .inr ⟨_, { iter.passName with next := wrappingSucc iter.next }, first + 1,
        nextFd_of_le hcount (Nat.not_lt.1 hoffset) hfirst, ?_, ?_, le_rfl⟩
      · rw [nextFdWrapping, if_neg hcount, if_neg hoffset, hnext]
        rfl
      · dsimp only
        rw [hnext, wrappingSucc_bmod, Int.add_right_comm]

/-- The counter that wraps hands out the numbers of one that starts so low that it does
not, modulo the type. -/
theorem takeWrapping_eq {first shift : Int} (hnext : iter.next = (first + shift).bmod (2 ^ 32))
    (hbound : first + n ≤ i32Max) : (iter.takeWrapping n).1 =
      ((iter.numbered first).take n).1.map (List.map (Option.map (renumber shift))) := by
  induction n generalizing iter first with
  | zero => rfl
  | succ n ih =>
      rcases nextFdWrapping_cases hnext (by omega) with ⟨e, hplain, hwrapping⟩ |
        ⟨filedesc, iter', first', hplain, hwrapping, hnext', hle⟩
      · rw [takeWrapping, take, Eff.bind_of_error hplain, Eff.bind_of_error hwrapping]
        rfl
      · rw [takeWrapping, take, Eff.bind_of_ok hplain, Eff.bind_of_ok hwrapping,
          Eff.bind_pure_fst, Eff.bind_pure_fst, ih hnext' (by omega)]
        cases ((iter'.numbered first').take n).1 with
        | error e => rfl
        | ok filedescs => rfl

theorem takeWrapping_eq_ok (n : Nat) (hlow : -2 ^ 31 ≤ iter.next) (hhigh : iter.next < 2 ^ 31) :
    (∃ last, iter.takeWrapping n = (.ok results, last)) ↔
      ∃ results' last', (iter.numbered (i32Max - n)).take n = (.ok results', last') ∧
        results = results'.map (Option.map (renumber (iter.next - (i32Max - n)))) := by
  have hnext : iter.next = (i32Max - n + (iter.next - (i32Max - n))).bmod (2 ^ 32) := by
    rw [add_sub_cancel]
    exact (Int.bmod_eq_of_le (by omega) (by omega)).symm
  have heq := takeWrapping_eq hnext (Int.sub_add_cancel i32Max n).le
  rcases htake : (iter.numbered (i32Max - n)).take n with ⟨e | results', last'⟩
  · rw [htake] at heq
    constructor
    · rintro ⟨last, h⟩
      rw [h] at heq
      cases heq
    · rintro ⟨results', last', h, -⟩
      cases h
  · rw [htake] at heq
    constructor
    · rintro ⟨last, h⟩
      rw [h] at heq
      exact ⟨results', last', rfl, Except.ok.inj heq⟩
    · rintro ⟨results', last', h, rfl⟩
      cases h
      exact ⟨_, Prod.ext heq rfl⟩

/-! ## What is handed out -/

theorem take_length (h : iter.take n = (.ok results, last)) : results.length = n := by
  induction n generalizing iter results with
  | zero =>
      cases h
      rfl
  | succ n ih =>
      obtain ⟨first, next, -, hrest⟩ := Eff.bind_eq_ok.1 h
      obtain ⟨rest, last, htake, hresults⟩ := Eff.bind_eq_ok.1 hrest
      cases hresults
      rw [List.length_cons, ih htake]

theorem lt_count_of_delivered (h : iter.take n = (.ok results, last))
    (hk : results[k]? = some (some filedesc)) : k < iter.count := by
  induction n generalizing iter results k with
  | zero =>
      cases h
      cases hk
  | succ n ih =>
      by_cases hcount : iter.count = 0
      · rw [take_of_zero (n + 1) hcount] at h
        cases h
        cases (List.mem_replicate.1 (List.mem_of_getElem? hk)).2
      · obtain ⟨first, next, hnextFd, hrest⟩ := Eff.bind_eq_ok.1 h
        obtain ⟨rest, last, htake, hresults⟩ := Eff.bind_eq_ok.1 hrest
        obtain ⟨-, rfl, rfl⟩ := nextFd_eq_ok hcount hnextFd
        cases hresults
        cases k with
        | zero => exact Nat.pos_of_ne_zero hcount
        | succ k =>
            have hlt := ih htake hk
            rw [passFd_count] at hlt
            omega

/-- The `k`-th descriptor of a drain has the `k`-th number modulo the type and the `k`-th
name; it is there when the count and the names last. -/
theorem takeWrapping_delivers (hnext : iter.next = 3) (hoffset : iter.nameOffset = 0)
    (h : iter.takeWrapping n = (.ok results, last)) (hk : results[k]? = some (some filedesc)) :
    filedesc.fd = (3 + (k : Int)).bmod (2 ^ 32) ∧
      filedesc.name = (fields iter.names)[k]?.bind nonEmpty ∧
      k < iter.count ∧ (iter.names = [] ∨ k < max (fields iter.names).length 2) := by
  obtain ⟨results', last', htake, rfl⟩ :=
    (takeWrapping_eq_ok n (by omega) (by omega)).1 ⟨last, h⟩
  rw [List.getElem?_map, Option.map_eq_some_iff] at hk
  obtain ⟨plain, hplain, hfiledesc⟩ := hk
  obtain ⟨filedesc', rfl, rfl⟩ := Option.map_eq_some_iff.1 hfiledesc
  obtain ⟨hfd, hname⟩ := take_delivers htake hplain
  have hlt : k < n := by
    rw [← take_length htake]
    exact (List.getElem?_eq_some_iff.1 hplain).1
  have hcount : k < (iter.numbered (i32Max - n)).count := lt_count_of_delivered htake hplain
  have hoffset' : (iter.numbered (i32Max - n)).nameOffset = 0 := hoffset
  have hyields : (iter.numbered (i32Max - n)).Yields (k + 1) := yields_of_le hlt ⟨_, _, htake⟩
  refine ⟨?_, ?_, hcount, ?_⟩
  · have hshift : filedesc'.fd + (iter.next - (i32Max - n)) = 3 + k := by
      rw [hfd, hnext]
      simp only [numbered]
      omega
    exact congrArg (Int.bmod · (2 ^ 32)) hshift
  · have hrest : (iter.numbered (i32Max - n)).rest = iter.names := by
      rw [rest, numbered, hoffset, List.drop_zero]
    rw [← hrest]
    exact hname
  · have hfirst : (iter.numbered (i32Max - n)).next + ((k + 1 : Nat) : Int) ≤ i32Max := by
      simp only [numbered]
      omega
    exact (yields_iff (k + 1) hoffset' hcount hfirst).1 hyields

theorem exists_takeWrapping (hnext : iter.next = 3) (hoffset : iter.nameOffset = 0)
    (hcount : n ≤ iter.count)
    (hnames : iter.names = [] ∨ n ≤ max (fields iter.names).length 2) :
    ∃ (filedescs : List FileDescriptor) (last : FdIter),
      iter.takeWrapping n = (.ok (filedescs.map some), last) ∧ filedescs.length = n := by
  have hoffset' : (iter.numbered (i32Max - n)).nameOffset = 0 := hoffset
  have hcount' : n ≤ (iter.numbered (i32Max - n)).count := hcount
  obtain ⟨results, plain, htake⟩ :=
    (yields_iff n hoffset' hcount' (Int.sub_add_cancel i32Max n).le).2 hnames
  obtain ⟨filedescs, rfl, hlength, -⟩ := take_spec hcount' htake
  obtain ⟨last, hwrapping⟩ :=
    (takeWrapping_eq_ok n (by omega) (by omega)).2 ⟨_, _, htake, rfl⟩
  refine ⟨filedescs.map (renumber (iter.next - (i32Max - n))), last, ?_, ?_⟩
  · rw [hwrapping, List.map_map, List.map_map]
    rfl
  · rw [List.length_map, hlength]

theorem exists_drain (hnext : iter.next = 3) (hoffset : iter.nameOffset = 0)
    (hnames : iter.names = [] ∨ iter.count ≤ max (fields iter.names).length 2)
    (hn : iter.count + 1 = n) :
    ∃ (filedescs : List FileDescriptor) (last : FdIter),
      iter.takeWrapping n = (.ok (filedescs.map some ++ [none]), last) ∧
        filedescs.length = iter.count := by
  have hoffset' : (iter.numbered (i32Max - n)).nameOffset = 0 := hoffset
  have hle : (iter.count : Int) ≤ n := by omega
  have hbound : (iter.numbered (i32Max - n)).next + (iter.numbered (i32Max - n)).count ≤ i32Max :=
    (Int.add_le_add_left hle _).trans (Int.sub_add_cancel i32Max n).le
  obtain ⟨filedescs, plain, htake, hlength, -⟩ := (drains_iff hoffset' hbound).2 hnames
  have hcalls : (iter.numbered (i32Max - n)).count + 1 = n := hn
  rw [hcalls] at htake
  obtain ⟨last, hwrapping⟩ :=
    (takeWrapping_eq_ok n (by omega) (by omega)).2 ⟨_, _, htake, rfl⟩
  refine ⟨filedescs.map (renumber (iter.next - (i32Max - n))), last, ?_, ?_⟩
  · rw [hwrapping, List.map_append, List.map_map, List.map_map]
    rfl
  · rw [List.length_map]
    exact hlength

theorem names_of_drain {filedescs : List FileDescriptor} (hnext : iter.next = 3)
    (hoffset : iter.nameOffset = 0) (hlength : filedescs.length = names.length)
    (hfields : names ≠ [] → fields iter.names = names)
    (h : iter.takeWrapping n = (.ok (filedescs.map some ++ [none]), last)) :
    filedescs.map FileDescriptor.name = names.map nonEmpty := by
  apply List.ext_getElem
  · simpa using hlength
  · intro k hk hk'
    have hlt : k < filedescs.length := by simpa using hk
    have hlt' : k < names.length := by omega
    have hdelivered : (filedescs.map some ++ [none])[k]? = some (some filedescs[k]) := by
      rw [List.getElem?_append_left (by simpa using hlt)]
      simp [hlt]
    have hname := (takeWrapping_delivers hnext hoffset h hdelivered).2.1
    rw [hfields (List.ne_nil_of_length_pos (by omega)), List.getElem?_eq_getElem hlt'] at hname
    simpa using hname

/-- A list of names comes back as it was joined, also past the greatest fd. -/
theorem givesBack_joined (hnext : iter.next = 3) (hoffset : iter.nameOffset = 0)
    (hfree : ∀ name ∈ names, colonByte ∉ name) (hnames : iter.names = joined names)
    (hcount : iter.count = names.length) : iter.GivesBack names := by
  have hfields (hne : names ≠ []) : fields iter.names = names := by
    rw [hnames, fields_joined hfree hne]
  have henough : iter.names = [] ∨ iter.count ≤ max (fields iter.names).length 2 := by
    by_cases hne : names = []
    · left
      rw [hnames, hne]
      rfl
    · right
      rw [hfields hne, hcount]
      exact Nat.le_max_left _ _
  obtain ⟨filedescs, last, hdrain, hlength⟩ := exists_drain hnext hoffset henough rfl
  exact ⟨filedescs, last, hdrain,
    names_of_drain hnext hoffset (hlength.trans hcount) hfields hdrain⟩

theorem takeWrapping_of_zero (n : Nat) (hcount : iter.count = 0) :
    iter.takeWrapping n = (.ok (List.replicate n none), iter) := by
  have hnone : iter.nextFdWrapping = (.ok none, iter) := by
    rw [nextFdWrapping, if_pos hcount]
  induction n with
  | zero => rfl
  | succ n ih =>
      exact Eff.bind_eq_ok.2 ⟨none, iter, hnone, Eff.bind_eq_ok.2 ⟨_, iter, ih, rfl⟩⟩

theorem namesBelong_empty (self : SocketActivation) (start : Int) (listenFdnames : Bytes) :
    (empty self).NamesBelong start listenFdnames := by
  constructor
  · intro calls results last k filedesc htake hk
    rw [takeWrapping_of_zero calls rfl] at htake
    cases htake
    cases (List.mem_replicate.1 (List.mem_of_getElem? hk)).2
  · intro names _ _ hcount
    obtain rfl : names = [] := List.length_eq_zero_iff.1 hcount.symm
    exact ⟨[], empty self, rfl, rfl⟩

theorem exists_wrapped (iter : FdIter) (hnext : iter.next = 3) (hoffset : iter.nameOffset = 0)
    (hcount : maxNumbers < iter.count)
    (hnames : iter.names = [] ∨ maxNumbers < (fields iter.names).length) :
    ∃ results last filedesc, iter.takeWrapping (maxNumbers + 1) = (.ok results, last) ∧
      results[maxNumbers]? = some (some filedesc) ∧ filedesc.fd = -2147483648 ∧
        filedesc.name = (fields iter.names)[maxNumbers]?.bind nonEmpty := by
  have henough : iter.names = [] ∨ maxNumbers + 1 ≤ max (fields iter.names).length 2 :=
    hnames.imp_right fun hlt => Nat.le_trans hlt (Nat.le_max_left _ _)
  obtain ⟨filedescs, last, htake, hlength⟩ := exists_takeWrapping hnext hoffset hcount henough
  have hlast : maxNumbers < filedescs.length := by omega
  have hk : (filedescs.map some)[maxNumbers]? = some (some filedescs[maxNumbers]) := by
    rw [List.getElem?_map, List.getElem?_eq_getElem hlast]
    rfl
  obtain ⟨hfd, hname, -⟩ := takeWrapping_delivers hnext hoffset htake hk
  exact ⟨_, last, _, htake, hk, hfd.trans (by decide), hname⟩

theorem namesBelong_iff (hnext : iter.next = 3) (hoffset : iter.nameOffset = 0) :
    iter.NamesBelong 3 iter.names ↔ iter.count ≤ maxNumbers ∨
      iter.names ≠ [] ∧ (fields iter.names).length ≤ maxNumbers := by
  constructor
  · intro hbelong
    by_contra hlarge
    rw [not_or, not_and_or, not_not, Nat.not_le, Nat.not_le] at hlarge
    obtain ⟨results, last, filedesc, htake, hk, hfd, -⟩ :=
      iter.exists_wrapped hnext hoffset hlarge.1 hlarge.2
    have hnumber := (hbelong.delivered _ _ _ _ _ htake hk).1
    rw [hfd] at hnumber
    cases hnumber
  · intro hsmall
    refine ⟨fun calls results last k filedesc htake hk => ?_, fun names hfree hnames hcount =>
      givesBack_joined hnext hoffset hfree hnames hcount⟩
    obtain ⟨hfd, hname, hcount, hnames⟩ := takeWrapping_delivers hnext hoffset htake hk
    refine ⟨?_, hname⟩
    have hlt : k < maxNumbers := by
      rcases hsmall with hsmall | ⟨hne, hsmall⟩
      · exact hcount.trans_le hsmall
      · rcases hnames with hnil | hlt
        · exact absurd hnil hne
        · exact hlt.trans_le (Nat.max_le.2 ⟨hsmall, by decide⟩)
    rw [hfd]
    unfold maxNumbers at hlt
    exact Int.bmod_eq_of_le (by omega) (by omega)

end FdIter

/-! ## The names of a process -/

/-- In a build that does not check for overflow, all descriptors have their numbers and
names exactly when there are no more of them than fds, or the names run out before, which
ends the drain. -/
theorem names_belong_iff (self : SocketActivation) (pid : Nat) (env : Env) (iter : FdIter)
    (hparse : (parse self pid env).1 = .ok iter) :
    iter.NamesBelong (getStart self) ((env "LISTEN_FDNAMES").getD []) ↔
      iter.count ≤ maxNumbers ∨ (env "LISTEN_FDNAMES").getD [] ≠ [] ∧
        (fields ((env "LISTEN_FDNAMES").getD [])).length ≤ maxNumbers := by
  rcases parse_eq_ok hparse with rfl | ⟨s, numFds, -, -, rfl⟩
  · exact iff_of_true (FdIter.namesBelong_empty self _ _) (.inl (Nat.zero_le _))
  · exact FdIter.namesBelong_iff rfl rfl

theorem names_belong_two : ∃ iter, (parse {} 7 (listenEnv "2" "xyzzy:thud")).1 = .ok iter ∧
    iter.NamesBelong 3 (strBytes "xyzzy:thud") := by
  refine ⟨_, rfl, ?_⟩
  exact (names_belong_iff {} 7 (listenEnv "2" "xyzzy:thud") _ rfl).2 (.inl (by decide))

/-- With one descriptor more than there are fds, the last one is handed out with a
negative number. -/
theorem fd_number_wraps : ∃ iter, (parse {} 7 (listenEnv "2147483646" "")).1 = .ok iter ∧
    iter.count = 2147483646 ∧ ¬ iter.NamesBelong 3 [] ∧
    ∃ results last filedesc, iter.takeWrapping 2147483646 = (.ok results, last) ∧
      results[2147483645]? = some (some filedesc) ∧ filedesc.fd = -2147483648 := by
  refine ⟨⟨{}, 3, 2147483646, [], 0⟩, rfl, rfl, ?_, ?_⟩
  · exact (FdIter.namesBelong_iff rfl rfl).not.2 (by decide)
  · obtain ⟨results, last, filedesc, htake, hk, hfd, -⟩ :=
      (FdIter.mk {} 3 2147483646 [] 0).exists_wrapped rfl rfl (by decide) (.inl rfl)
    exact ⟨results, last, filedesc, htake, hk, hfd⟩

end TereServer.SocketActivation
