import TereServer.Bincode.Schema

/-!
# Serializing with an out-of-band list

The serializer appends to the payload and hands every `fd` leaf to `push`, in
the one traversal it makes.  Under a `push` that appends to the gathered list
the result is the encoding of the value and its items in traversal order.
-/

namespace TereServer.Bincode

open Lib

/-- The payload written so far and the items gathered so far (`none` outside a
gather). -/
structure Sink (ρ : Type) where
  bytes : Bytes
  slot : Option (List ρ)

abbrev Push (φ ρ : Type) := φ → Eff (Option (List ρ)) ErrorKind Unit

section Writers

variable {ρ : Type}

def write (bytes : Bytes) : Eff (Sink ρ) ErrorKind Unit :=
  Eff.update fun sink => { sink with bytes := sink.bytes ++ bytes }

def gather {φ : Type} (push : Push φ ρ) (x : φ) : Eff (Sink ρ) ErrorKind Unit :=
  Eff.onPart Sink.slot (fun sink slot => { sink with slot := slot }) (push x)

def serializeMany {α : Type} (ser : α → Eff (Sink ρ) ErrorKind Unit) :
    List α → Eff (Sink ρ) ErrorKind Unit
  | [] => pure ()
  | a :: l => do
      ser a
      serializeMany ser l

end Writers

namespace Schema

variable {φ ρ : Type} {k : Kind}

def serialize (push : Push φ ρ) :
    {k : Kind} → (s : Schema k) → s.Val φ → Eff (Sink ρ) ErrorKind Unit
  | _, int t, v => write ((Codec.int t).encode v)
  | _, string, v => write (Codec.string.encode v)
  | _, fd, x => gather push x
  | _, option s, v => do
      write (Codec.optionTag.encode v.isSome)
      v.elim (pure ()) (s.serialize push)
  | _, seq s, l => do
      write (Codec.length.encode (Vec.len l))
      serializeMany (s.serialize push) l.1
  | _, array s _, l => serializeMany (s.serialize push) l.1
  | _, struct fs, v => fs.serialize push v
  | _, enum vs fits, v => do
      write ((Codec.variantIndex fits).encode (vs.pick v))
      vs.serialize push v
  | _, noFields, _ => pure ()
  | _, field s fs, v => do
      s.serialize push v.1
      fs.serialize push v.2
  | _, noVariants, v => nomatch v
  | _, variant fs vs, v => v.elim (fs.serialize push) (vs.serialize push)

end Schema

/-- A writer of `fd` leaves that appends `raw x` to the gathered list. -/
def PushLaws {φ ρ : Type} (push : Push φ ρ) (raw : φ → ρ) : Prop :=
  ∀ x gathered, push x (some gathered) = (.ok (), some (gathered ++ [raw x]))

/-- `ser` appends `bytes` to the payload and `items` to the gathered list. -/
def Emits {ρ : Type} (ser : Eff (Sink ρ) ErrorKind Unit) (bytes : Bytes) (items : List ρ) :
    Prop :=
  ∀ before gathered, ser ⟨before, some gathered⟩ =
    (.ok (), ⟨before ++ bytes, some (gathered ++ items)⟩)

namespace Emits

variable {ρ : Type}

theorem pure : Emits (Pure.pure () : Eff (Sink ρ) ErrorKind Unit) [] [] := by
  intro before gathered
  simp

theorem write (bytes : Bytes) : Emits (Bincode.write (ρ := ρ) bytes) bytes [] := by
  intro before gathered
  simp [Bincode.write]

theorem andThen {ser ser' : Eff (Sink ρ) ErrorKind Unit} {bytes bytes' : Bytes}
    {items items' : List ρ} (h : Emits ser bytes items) (h' : Emits ser' bytes' items') :
    Emits (ser >>= fun _ => ser') (bytes ++ bytes') (items ++ items') := by
  intro before gathered
  rw [Eff.bind_of_ok (h before gathered), h', List.append_assoc, List.append_assoc]

theorem many {α : Type} {ser : α → Eff (Sink ρ) ErrorKind Unit} {encode : α → Bytes}
    {items : α → List ρ} (h : ∀ a, Emits (ser a) (encode a) (items a)) (l : List α) :
    Emits (serializeMany ser l) (l.flatMap encode) (l.flatMap items) := by
  induction l with
  | nil => exact pure
  | cons a l ih => exact (h a).andThen ih

end Emits

theorem Schema.serialize_emits {φ ρ : Type} {push : Push φ ρ} {raw : φ → ρ}
    (hpush : PushLaws push raw) {k : Kind} (s : Schema k) (v : s.Val φ) :
    Emits (s.serialize push v) (s.encode v) ((s.fds v).map raw) := by
  induction s with
  | int t => exact Emits.write _
  | string => exact Emits.write _
  | fd =>
      intro before gathered
      have hitem := hpush v gathered
      simp only [serialize, gather, Eff.onPart, hitem, encode, List.append_nil]
      rfl
  | option s ih =>
      cases v with
      | none => exact (Emits.write _).andThen Emits.pure
      | some v => exact (Emits.write _).andThen (ih v)
  | seq s ih =>
      have hmany := Emits.many ih v.1
      rw [← List.map_flatMap] at hmany
      exact (Emits.write _).andThen hmany
  | array s n ih =>
      have hmany := Emits.many ih v.1
      rw [← List.map_flatMap] at hmany
      exact hmany
  | struct fs ih => exact ih v
  | enum vs fits ih => exact (Emits.write _).andThen (ih v)
  | noFields => exact Emits.pure
  | field s fs ihs ihfs =>
      have hboth := (ihs v.1).andThen (ihfs v.2)
      rw [← List.map_append] at hboth
      exact hboth
  | noVariants => exact Empty.elim v
  | variant fs vs ihfs ihvs =>
      cases v with
      | inl v => exact ihfs v
      | inr v => exact ihvs v

end TereServer.Bincode
