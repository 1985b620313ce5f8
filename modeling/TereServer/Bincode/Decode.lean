import TereServer.Bincode.Schema
import Mathlib.Data.List.Perm.Basic

/-!
# Decoding with an out-of-band queue

The decoder reads the payload and takes one item from a queue at every `fd`
leaf.  Values that were built before an error are destroyed on the way out; the
state records the items such destructors release.  `leaf` is the reader used at
the `fd` leaves; `LeafLaws` is what the proofs need of it.
-/

namespace TereServer.Bincode

open Lib

/-- The unread payload, the queue of out-of-band items (`none` outside a
scatter), and the items released by destructors so far. -/
structure Source (φ : Type) where
  bytes : Bytes
  slot : Option (List φ)
  dropped : List φ

abbrev Dec (φ α : Type) := Eff (Source φ) ErrorKind α

abbrev Leaf (φ : Type) := Eff (Option (List φ)) ErrorKind φ

namespace Source

variable {φ ψ : Type}

def drop (items : List φ) (src : Source φ) : Source φ :=
  { src with dropped := src.dropped ++ items }

def map (f : φ → ψ) (src : Source φ) : Source ψ :=
  ⟨src.bytes, src.slot.map (List.map f), src.dropped.map f⟩

end Source

def Codec.read {φ α : Type} (c : Codec α) : Dec φ α :=
  Eff.onPart Source.bytes (fun src bytes => { src with bytes := bytes }) c.decode

def Leaf.read {φ : Type} (leaf : Leaf φ) : Dec φ φ :=
  Eff.onPart Source.slot (fun src slot => { src with slot := slot }) leaf

/-- Read `n` elements; `owned` are the items of the elements read so far, which
are released when a later element fails. -/
def decodeMany {φ α : Type} (dec : Dec φ α) (fds : α → List φ) :
    (n : Nat) → List φ → Dec φ {l : List α // l.length = n}
  | 0, _ => pure ⟨[], rfl⟩
  | n + 1, owned => do
      let a ← dec.onError (Source.drop owned)
      let l ← decodeMany dec fds n (owned ++ fds a)
      pure ⟨a :: l.1, by simp [l.2]⟩

namespace Schema

variable {φ ψ : Type} {k : Kind}

def decode (leaf : Leaf φ) : {k : Kind} → (s : Schema k) → Pick k → Dec φ (s.Val φ)
  | _, int t, _ => (Codec.int t).read
  | _, string, _ => Codec.string.read
  | _, fd, _ => leaf.read
  | _, option s, _ => do
      let some? ← Codec.optionTag.read
      if some? then do
        let v ← s.decode leaf ()
        pure (some v)
      else pure none
  | _, seq s, _ => do
      let n ← Codec.length.read
      let l ← decodeMany (s.decode leaf ()) s.fds n.1 []
      pure ⟨l.1, l.2.symm ▸ n.2⟩
  | _, array s n, _ => decodeMany (s.decode leaf ()) s.fds n []
  | _, struct fs, _ => fs.decode leaf ()
  | _, enum vs fits, _ => do
      let i ← (Codec.variantIndex fits).read
      vs.decode leaf i
  | _, noFields, _ => pure ()
  | _, field s fs, _ => do
      let v ← s.decode leaf ()
      -- the field built first is destroyed when a later one fails
      let vs ← (fs.decode leaf ()).onError (Source.drop (s.fds v))
      pure (v, vs)
  | _, noVariants, i => i.elim0
  | _, variant fs vs, i =>
      Fin.cases
        (do
          let v ← fs.decode leaf ()
          pure (Sum.inl v))
        (fun i => do
          let v ← vs.decode leaf i
          pure (Sum.inr v))
        i

/-- `Trailing::check_end`: a value with bytes left behind it is destroyed. -/
def checkEnd (s : Schema .value) (v : s.Val φ) : Dec φ (s.Val φ) := fun src =>
  if src.bytes = [] then (.ok v, src)
  else (.error .trailingBytes, src.drop (s.fds v))

/-- `Options::deserialize`: one value and nothing behind it. -/
def deserialize (leaf : Leaf φ) (s : Schema .value) : Dec φ (s.Val φ) := do
  let v ← s.decode leaf ()
  s.checkEnd v

end Schema

/-- A reader of `fd` leaves that pops the queue. -/
structure LeafLaws {φ : Type} (leaf : Leaf φ) : Prop where
  pop : ∀ x queue, leaf (some (x :: queue)) = (.ok x, some queue)
  exhausted : ∃ e, leaf (some []) = (.error e, some [])

/-! ## Reading one leaf -/

section Read

variable {φ α : Type}

theorem Codec.read_eq_ok {c : Codec α} {src src' : Source φ} {a : α} :
    c.read src = (.ok a, src') ↔
      ∃ used, src.bytes = used ++ src'.bytes ∧ c.Layout a used ∧
        src' = { src with bytes := src'.bytes } := by
  simp only [Codec.read, Eff.onPart, Prod.mk.injEq]
  constructor
  · rintro ⟨hok, rfl⟩
    obtain ⟨used, hbytes, hused⟩ := (c.decode_eq_ok src.bytes a _).1 (Prod.ext hok rfl)
    exact ⟨used, hbytes, hused, rfl⟩
  · rintro ⟨used, hbytes, hused, hsrc⟩
    have h := (c.decode_eq_ok src.bytes a src'.bytes).2 ⟨used, hbytes, hused⟩
    rw [h, hsrc]
    exact ⟨rfl, rfl⟩

theorem Codec.read_append {c : Codec α} {a : α} {used : Bytes} (h : c.Layout a used)
    (rest : Bytes) (slot : Option (List φ)) (dropped : List φ) :
    c.read ⟨used ++ rest, slot, dropped⟩ = (.ok a, ⟨rest, slot, dropped⟩) :=
  Codec.read_eq_ok.2 ⟨used, rfl, h, rfl⟩

theorem Codec.read_keeps (c : Codec α) (src : Source φ) :
    (c.read src).2.slot = src.slot ∧ (c.read src).2.dropped = src.dropped :=
  ⟨rfl, rfl⟩

end Read

/-! ## Every string of the layout is accepted -/

/-- `dec` reads back every value from a string of its layout and a queue that
starts with its items. -/
def Accepts {φ α : Type} (dec : Dec φ α) (Layout : α → Bytes → Prop) (fds : α → List φ)
    (a : α) : Prop :=
  ∀ used, Layout a used → ∀ rest queue dropped,
    dec ⟨used ++ rest, some (fds a ++ queue), dropped⟩ =
      (.ok a, ⟨rest, some queue, dropped⟩)

theorem decodeMany_accepts {φ α : Type} {dec : Dec φ α} {Layout : α → Bytes → Prop}
    {fds : α → List φ} (h : ∀ a, Accepts dec Layout fds a) (l : List α) (owned : List φ) :
    Accepts (decodeMany dec fds l.length owned) (fun l => Schema.Listed Layout l.1)
      (fun l => l.1.flatMap fds) ⟨l, rfl⟩ := by
  induction l generalizing owned with
  | nil =>
      rintro used rfl rest queue dropped
      rfl
  | cons a l ih =>
      rintro used ⟨front, back, rfl, hfront, hback⟩ rest queue dropped
      have hhead := h a front hfront (back ++ rest) (l.flatMap fds ++ queue) dropped
      have htail := ih (owned ++ fds a) back hback rest queue dropped
      simp only [List.flatMap_cons, List.append_assoc, List.length_cons, decodeMany]
      rw [Eff.bind_of_ok (Eff.onError_eq_ok.2 hhead), Eff.bind_of_ok htail]
      rfl

theorem Schema.decode_accepts {φ : Type} {leaf : Leaf φ} (hleaf : LeafLaws leaf) {k : Kind}
    (s : Schema k) (v : s.Val φ) : Accepts (s.decode leaf (s.pick v)) s.Layout s.fds v := by
  induction s with
  | int t =>
      intro used hused rest queue dropped
      exact Codec.read_append hused rest _ dropped
  | string =>
      intro used hused rest queue dropped
      exact Codec.read_append hused rest _ dropped
  | fd =>
      rintro used rfl rest queue dropped
      have hpop : leaf (some (fd.fds v ++ queue)) = (.ok v, some queue) := hleaf.pop v queue
      simp only [decode, Leaf.read, Eff.onPart, hpop, List.nil_append]
      rfl
  | option s ih =>
      rintro used ⟨front, back, rfl, hfront, hback⟩ rest queue dropped
      rw [List.append_assoc]
      refine (Eff.bind_of_ok (Codec.read_append hfront _ _ _)).trans ?_
      cases v with
      | none =>
          obtain rfl : back = [] := hback
          rfl
      | some v => exact Eff.bind_of_ok (ih v back hback rest queue dropped)
  | seq s ih =>
      rintro used ⟨front, back, rfl, hfront, hback⟩ rest queue dropped
      obtain ⟨l, hl⟩ := v
      have hmany : ∀ a, Accepts (s.decode leaf ()) s.Layout s.fds a := ih
      rw [List.append_assoc]
      refine (Eff.bind_of_ok (Codec.read_append hfront _ _ _)).trans ?_
      exact Eff.bind_of_ok (decodeMany_accepts hmany l [] back hback rest queue dropped)
  | array s n ih =>
      obtain ⟨l, rfl⟩ := v
      have hmany : ∀ a, Accepts (s.decode leaf ()) s.Layout s.fds a := ih
      exact decodeMany_accepts hmany l []
  | struct fs ih => exact ih v
  | enum vs fits ih =>
      rintro used ⟨front, back, rfl, hfront, hback⟩ rest queue dropped
      rw [List.append_assoc]
      refine (Eff.bind_of_ok (Codec.read_append hfront _ _ _)).trans ?_
      exact ih v back hback rest queue dropped
  | noFields =>
      rintro used rfl rest queue dropped
      rfl
  | field s fs ihs ihfs =>
      rintro used ⟨front, back, rfl, hfront, hback⟩ rest queue dropped
      obtain ⟨v, vs⟩ := v
      have hhead := ihs v front hfront (back ++ rest) (fs.fds vs ++ queue) dropped
      have htail := ihfs vs back hback rest queue dropped
      rw [← List.append_assoc (s.fds v)] at hhead
      rw [List.append_assoc]
      refine (Eff.bind_of_ok hhead).trans ?_
      exact Eff.bind_of_ok (Eff.onError_eq_ok.2 htail)
  | noVariants => exact Empty.elim v
  | variant fs vs ihfs ihvs =>
      intro used hused rest queue dropped
      cases v with
      | inl v => exact Eff.bind_of_ok (ihfs v used hused rest queue dropped)
      | inr v => exact Eff.bind_of_ok (ihvs v used hused rest queue dropped)

/-! ## What a successful read has consumed -/

/-- Between `src` and `src'` a string of `P` and the items `taken` were consumed,
and nothing else happened. -/
def Consumes {φ : Type} (P : Bytes → Prop) (taken : List φ) (src src' : Source φ) : Prop :=
  ∃ used rest, src.bytes = used ++ src'.bytes ∧ P used ∧
    src.slot = some (taken ++ rest) ∧ src'.slot = some rest ∧ src'.dropped = src.dropped

namespace Consumes

variable {φ : Type} {P Q : Bytes → Prop} {taken taken' : List φ} {src src' src'' : Source φ}

theorem slot (h : Consumes P taken src src') : ∃ rest, src'.slot = some rest := by
  obtain ⟨_, rest, _, _, _, hslot, _⟩ := h
  exact ⟨rest, hslot⟩

theorem nothing {queue : List φ} (hslot : src.slot = some queue) :
    Consumes (fun bytes => bytes = []) [] src src :=
  ⟨[], queue, rfl, rfl, hslot, hslot, rfl⟩

theorem of_read {α : Type} {c : Codec α} {a : α} {queue : List φ}
    (hslot : src.slot = some queue) (h : c.read src = (.ok a, src')) :
    Consumes (c.Layout a) [] src src' := by
  obtain ⟨used, hbytes, hused, hsrc⟩ := Codec.read_eq_ok.1 h
  rw [hsrc]
  exact ⟨used, queue, hbytes, hused, hslot, hslot, rfl⟩

theorem chain (h : Consumes P taken src src') (h' : Consumes Q taken' src' src'') :
    Consumes (Schema.Chain P Q) (taken ++ taken') src src'' := by
  obtain ⟨used, rest, hbytes, hused, hslot, hmid, hdropped⟩ := h
  obtain ⟨used', rest', hbytes', hused', hmid', hslot', hdropped'⟩ := h'
  obtain rfl : rest = taken' ++ rest' := Option.some.inj (hmid.symm.trans hmid')
  refine ⟨used ++ used', rest', ?_, ⟨used, used', rfl, hused, hused'⟩, ?_, hslot',
    hdropped'.trans hdropped⟩
  · rw [hbytes, hbytes', List.append_assoc]
  · rw [hslot, List.append_assoc]

end Consumes

theorem decodeMany_consumes {φ α : Type} {dec : Dec φ α} {Layout : α → Bytes → Prop}
    {fds : α → List φ}
    (h : ∀ src src' a queue, src.slot = some queue → dec src = (.ok a, src') →
      Consumes (Layout a) (fds a) src src')
    {n : Nat} {owned : List φ} {src src' : Source φ} {l : {l : List α // l.length = n}}
    {queue : List φ} (hslot : src.slot = some queue)
    (hdec : decodeMany dec fds n owned src = (.ok l, src')) :
    Consumes (Schema.Listed Layout l.1) (l.1.flatMap fds) src src' := by
  induction n generalizing owned src queue with
  | zero =>
      cases hdec
      exact Consumes.nothing hslot
  | succ n ih =>
      obtain ⟨a, mid, hhead, hrest⟩ := Eff.bind_eq_ok.1 hdec
      obtain ⟨tail, mid', htail, hpure⟩ := Eff.bind_eq_ok.1 hrest
      cases hpure
      have hfirst := h src mid a queue hslot (Eff.onError_eq_ok.1 hhead)
      obtain ⟨rest, hmid⟩ := hfirst.slot
      exact hfirst.chain (ih hmid htail)

theorem Schema.decode_consumes {φ : Type} {leaf : Leaf φ} (hleaf : LeafLaws leaf) {k : Kind}
    (s : Schema k) {i : Pick k} {src src' : Source φ} {v : s.Val φ} {queue : List φ}
    (hslot : src.slot = some queue) (h : s.decode leaf i src = (.ok v, src')) :
    s.pick v = i ∧ Consumes (s.Layout v) (s.fds v) src src' := by
  induction s generalizing src src' queue with
  | int t => exact ⟨rfl, Consumes.of_read hslot h⟩
  | string => exact ⟨rfl, Consumes.of_read hslot h⟩
  | fd =>
      refine ⟨rfl, ?_⟩
      simp only [decode, Leaf.read, Eff.onPart, hslot] at h
      cases queue with
      | nil =>
          obtain ⟨e, he⟩ := hleaf.exhausted
          rw [he] at h
          cases h
      | cons x queue =>
          rw [hleaf.pop] at h
          cases h
          exact ⟨[], queue, rfl, rfl, hslot, rfl, rfl⟩
  | option s ih =>
      refine ⟨rfl, ?_⟩
      obtain ⟨tag, mid, htag, hrest⟩ := Eff.bind_eq_ok.1 h
      have hread := Consumes.of_read hslot htag
      obtain ⟨rest, hmid⟩ := hread.slot
      cases tag with
      | false =>
          cases hrest
          exact hread.chain (Consumes.nothing hmid)
      | true =>
          obtain ⟨v, mid', hv, hpure⟩ := Eff.bind_eq_ok.1 hrest
          cases hpure
          exact hread.chain (ih hmid hv).2
  | seq s ih =>
      refine ⟨rfl, ?_⟩
      obtain ⟨⟨n, hn⟩, mid, hlength, hrest⟩ := Eff.bind_eq_ok.1 h
      obtain ⟨⟨l, hl⟩, mid', hmany, hpure⟩ := Eff.bind_eq_ok.1 hrest
      have hread := Consumes.of_read hslot hlength
      obtain ⟨rest, hmid⟩ := hread.slot
      have helems := decodeMany_consumes (fun _ _ _ _ hs hd => (ih hs hd).2) hmid hmany
      obtain rfl : l.length = n := hl
      cases hpure
      exact hread.chain helems
  | array s n ih =>
      exact ⟨rfl, decodeMany_consumes (fun _ _ _ _ hs hd => (ih hs hd).2) hslot h⟩
  | struct fs ih => exact ⟨rfl, (ih hslot h).2⟩
  | enum vs fits ih =>
      refine ⟨rfl, ?_⟩
      obtain ⟨j, mid, hindex, hrest⟩ := Eff.bind_eq_ok.1 h
      have hread := Consumes.of_read hslot hindex
      obtain ⟨rest, hmid⟩ := hread.slot
      obtain ⟨rfl, hpayload⟩ := ih hmid hrest
      exact hread.chain hpayload
  | noFields =>
      cases h
      exact ⟨rfl, Consumes.nothing hslot⟩
  | field s fs ihs ihfs =>
      refine ⟨rfl, ?_⟩
      obtain ⟨v, mid, hv, hrest⟩ := Eff.bind_eq_ok.1 h
      obtain ⟨vs, mid', hvs, hpure⟩ := Eff.bind_eq_ok.1 hrest
      cases hpure
      have hfirst := (ihs hslot hv).2
      obtain ⟨rest, hmid⟩ := hfirst.slot
      exact hfirst.chain (ihfs hmid (Eff.onError_eq_ok.1 hvs)).2
  | noVariants => exact Empty.elim v
  | variant fs vs ihfs ihvs =>
      induction i using Fin.cases with
      | zero =>
          obtain ⟨v, mid, hv, hpure⟩ := Eff.bind_eq_ok.1 h
          cases hpure
          exact ⟨rfl, (ihfs hslot hv).2⟩
      | succ i =>
          obtain ⟨v, mid, hv, hpure⟩ := Eff.bind_eq_ok.1 h
          cases hpure
          obtain ⟨hpick, hpayload⟩ := ihvs hslot hv
          exact ⟨congrArg Fin.succ hpick, hpayload⟩

end TereServer.Bincode
