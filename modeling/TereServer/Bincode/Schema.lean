import TereServer.Bincode.Leaf

/-!
# Message schemas

The types a message can be built from, the values of such a type, and the byte
strings that stand for a value.  A leaf `fd` takes no bytes: what it holds is
handed over out of band, in traversal order, so a schema only says where the
out-of-band items are.  Values are parametric in the type of these items.
-/

namespace TereServer.Bincode

inductive Kind
  | value
  | fields
  | variants (n : Nat)

/-- A schema of a value, of the fields of a struct or of one variant, or of the
`n` variants of an enum. -/
inductive Schema : Kind → Type
  | int (t : IntType) : Schema .value
  | string : Schema .value
  | fd : Schema .value
  | option (s : Schema .value) : Schema .value
  | seq (s : Schema .value) : Schema .value
  | array (s : Schema .value) (n : Nat) : Schema .value
  | struct (fs : Schema .fields) : Schema .value
  | enum {n : Nat} (vs : Schema (.variants n)) (fits : n ≤ 2 ^ 32) : Schema .value
  | noFields : Schema .fields
  | field (s : Schema .value) (fs : Schema .fields) : Schema .fields
  | noVariants : Schema (.variants 0)
  | variant {n : Nat} (fs : Schema .fields) (vs : Schema (.variants n)) :
      Schema (.variants (n + 1))

/-- What a reader already knows when it starts on a schema: for the variants of
an enum, which one follows. -/
abbrev Pick : Kind → Type
  | .variants n => Fin n
  | _ => Unit

/-- A Rust vector of a length that fits its length field. -/
abbrev Vec (α : Type) : Type := {l : List α // l.length < 2 ^ 64}

def Vec.len {α : Type} (l : Vec α) : {n : Nat // n < 2 ^ 64} := ⟨l.1.length, l.2⟩

/-- An enum of one variant has an index for it. -/
theorem fits_one : 0 + 1 ≤ 2 ^ 32 := by decide

namespace Schema

variable {φ ψ : Type} {k : Kind}

def Val (φ : Type) : {k : Kind} → Schema k → Type
  | _, int t => t.Val
  | _, string => Str
  | _, fd => φ
  | _, option s => Option (s.Val φ)
  | _, seq s => Vec (s.Val φ)
  | _, array s n => {l : List (s.Val φ) // l.length = n}
  | _, struct fs => fs.Val φ
  | _, enum vs _ => vs.Val φ
  | _, noFields => Unit
  | _, field s fs => s.Val φ × fs.Val φ
  | _, noVariants => Empty
  | _, variant fs vs => fs.Val φ ⊕ vs.Val φ

/-- A byte vector: a sequence of `u8`, each one raw byte. -/
abbrev bytes : Schema .value := .seq (.int .u8)

/-- The out-of-band items of a value, in traversal order. -/
def fds : {k : Kind} → (s : Schema k) → s.Val φ → List φ
  | _, int _, _ => []
  | _, string, _ => []
  | _, fd, x => [x]
  | _, option s, v => v.elim [] s.fds
  | _, seq s, l => l.1.flatMap s.fds
  | _, array s _, l => l.1.flatMap s.fds
  | _, struct fs, v => fs.fds v
  | _, enum vs _, v => vs.fds v
  | _, noFields, _ => []
  | _, field s fs, v => s.fds v.1 ++ fs.fds v.2
  | _, noVariants, v => nomatch v
  | _, variant fs vs, v => v.elim fs.fds vs.fds

def map (f : φ → ψ) : {k : Kind} → (s : Schema k) → s.Val φ → s.Val ψ
  | _, int _, v => v
  | _, string, v => v
  | _, fd, x => f x
  | _, option s, v => Option.map (s.map f) v
  | _, seq s, l => ⟨l.1.map (s.map f), by simpa using l.2⟩
  | _, array s _, l => ⟨l.1.map (s.map f), by simpa using l.2⟩
  | _, struct fs, v => fs.map f v
  | _, enum vs _, v => vs.map f v
  | _, noFields, v => v
  | _, field s fs, v => (s.map f v.1, fs.map f v.2)
  | _, noVariants, v => nomatch v
  | _, variant fs vs, v => Sum.map (fs.map f) (vs.map f) v

def pick : {k : Kind} → (s : Schema k) → s.Val φ → Pick k
  | _, int _, _ => ()
  | _, string, _ => ()
  | _, fd, _ => ()
  | _, option _, _ => ()
  | _, seq _, _ => ()
  | _, array _ _, _ => ()
  | _, struct _, _ => ()
  | _, enum _ _, _ => ()
  | _, noFields, _ => ()
  | _, field _ _, _ => ()
  | _, noVariants, v => nomatch v
  | _, variant (n := n) _ vs, v => v.elim (fun _ => (0 : Fin (n + 1))) fun v => Fin.succ (vs.pick v)

/-! ## Layout -/

/-- A string of `P` followed by a string of `Q`. -/
def Chain (P Q : Bytes → Prop) (bytes : Bytes) : Prop :=
  ∃ front back, bytes = front ++ back ∧ P front ∧ Q back

/-- One string for each element, in order. -/
def Listed {α : Type} (P : α → Bytes → Prop) : List α → Bytes → Prop
  | [], bytes => bytes = []
  | a :: l, bytes => Chain (P a) (Listed P l) bytes

/-- The byte strings that stand for a value; for the variants of an enum, those
of the payload behind the index. -/
def Layout : {k : Kind} → (s : Schema k) → s.Val φ → Bytes → Prop
  | _, int t, v => (Codec.int t).Layout v
  | _, string, v => Codec.string.Layout v
  | _, fd, _ => fun bytes => bytes = []
  | _, option s, v =>
      Chain (Codec.optionTag.Layout v.isSome) (v.elim (fun bytes => bytes = []) s.Layout)
  | _, seq s, l => Chain (Codec.length.Layout (Vec.len l)) (Listed s.Layout l.1)
  | _, array s _, l => Listed s.Layout l.1
  | _, struct fs, v => fs.Layout v
  | _, enum vs fits, v =>
      Chain ((Codec.variantIndex fits).Layout (vs.pick v)) (vs.Layout v)
  | _, noFields, _ => fun bytes => bytes = []
  | _, field s fs, v => Chain (s.Layout v.1) (fs.Layout v.2)
  | _, noVariants, v => nomatch v
  | _, variant fs vs, v => v.elim fs.Layout vs.Layout

/-- The one byte string the serializer emits for a value. -/
def encode : {k : Kind} → (s : Schema k) → s.Val φ → Bytes
  | _, int t, v => (Codec.int t).encode v
  | _, string, v => Codec.string.encode v
  | _, fd, _ => []
  | _, option s, v => Codec.optionTag.encode v.isSome ++ v.elim [] s.encode
  | _, seq s, l => Codec.length.encode (Vec.len l) ++ l.1.flatMap s.encode
  | _, array s _, l => l.1.flatMap s.encode
  | _, struct fs, v => fs.encode v
  | _, enum vs fits, v => (Codec.variantIndex fits).encode (vs.pick v) ++ vs.encode v
  | _, noFields, _ => []
  | _, field s fs, v => s.encode v.1 ++ fs.encode v.2
  | _, noVariants, v => nomatch v
  | _, variant fs vs, v => v.elim fs.encode vs.encode

theorem Chain.append {P Q : Bytes → Prop} {front back : Bytes} (hp : P front) (hq : Q back) :
    Chain P Q (front ++ back) :=
  ⟨front, back, rfl, hp, hq⟩

theorem Chain.congr {P P' Q Q' : Bytes → Prop} (hp : ∀ bytes, P bytes ↔ P' bytes)
    (hq : ∀ bytes, Q bytes ↔ Q' bytes) (bytes : Bytes) : Chain P Q bytes ↔ Chain P' Q' bytes := by
  simp only [Chain, hp, hq]

theorem Listed.flatMap {α : Type} {P : α → Bytes → Prop} {emit : α → Bytes}
    (h : ∀ a, P a (emit a)) (l : List α) : Listed P l (l.flatMap emit) := by
  induction l with
  | nil => rfl
  | cons a l ih => exact Chain.append (h a) ih

theorem layout_encode (s : Schema k) (v : s.Val φ) : s.Layout v (s.encode v) := by
  induction s with
  | int t => exact (Codec.int t).layout_encode v
  | string => exact Codec.string.layout_encode v
  | fd => rfl
  | option s ih =>
      refine Chain.append (Codec.optionTag.layout_encode _) ?_
      cases v with
      | none => rfl
      | some v => exact ih v
  | seq s ih => exact Chain.append (Codec.length.layout_encode _) (Listed.flatMap ih v.1)
  | array s n ih => exact Listed.flatMap ih v.1
  | struct fs ih => exact ih v
  | enum vs fits ih => exact Chain.append ((Codec.variantIndex fits).layout_encode _) (ih v)
  | noFields => rfl
  | field s fs ihs ihfs => exact Chain.append (ihs v.1) (ihfs v.2)
  | noVariants => exact Empty.elim v
  | variant fs vs ihfs ihvs =>
      cases v with
      | inl v => exact ihfs v
      | inr v => exact ihvs v

/-! ## Relabelled values -/

theorem fds_map (f : φ → ψ) (s : Schema k) (v : s.Val φ) :
    s.fds (s.map f v) = (s.fds v).map f := by
  induction s with
  | int t => rfl
  | string => rfl
  | fd => rfl
  | option s ih =>
      cases v with
      | none => rfl
      | some v => exact ih v
  | seq s ih => simp [fds, map, List.flatMap_map, List.map_flatMap, ih]
  | array s n ih => simp [fds, map, List.flatMap_map, List.map_flatMap, ih]
  | struct fs ih => exact ih v
  | enum vs fits ih => exact ih v
  | noFields => rfl
  | field s fs ihs ihfs => simp [fds, map, ihs, ihfs]
  | noVariants => exact Empty.elim v
  | variant fs vs ihfs ihvs =>
      cases v with
      | inl v => exact ihfs v
      | inr v => exact ihvs v

theorem pick_map (f : φ → ψ) (s : Schema k) (v : s.Val φ) : s.pick (s.map f v) = s.pick v := by
  induction s with
  | noVariants => exact Empty.elim v
  | variant fs vs _ ihvs =>
      cases v with
      | inl v => rfl
      | inr v => exact congrArg Fin.succ (ihvs v)
  | _ => rfl

theorem map_map {χ : Type} (f : φ → ψ) (g : ψ → χ) (s : Schema k) (v : s.Val φ) :
    s.map g (s.map f v) = s.map (g ∘ f) v := by
  induction s with
  | int t => rfl
  | string => rfl
  | fd => rfl
  | option s ih =>
      cases v with
      | none => rfl
      | some v => exact congrArg some (ih v)
  | seq s ih => exact Subtype.ext (by simp [map, ih])
  | array s n ih => exact Subtype.ext (by simp [map, ih])
  | struct fs ih => exact ih v
  | enum vs fits ih => exact ih v
  | noFields => rfl
  | field s fs ihs ihfs => exact Prod.ext (ihs v.1) (ihfs v.2)
  | noVariants => exact Empty.elim v
  | variant fs vs ihfs ihvs =>
      cases v with
      | inl v => exact congrArg Sum.inl (ihfs v)
      | inr v => exact congrArg Sum.inr (ihvs v)

/-- What is left of a value without its out-of-band items. -/
abbrev shape (s : Schema k) (v : s.Val φ) : s.Val Unit := s.map (fun _ => ()) v

theorem shape_map (f : φ → ψ) (s : Schema k) (v : s.Val φ) : s.shape (s.map f v) = s.shape v :=
  map_map f _ s v

theorem fds_length_of_shape (s : Schema k) {v : s.Val φ} {w : s.Val ψ}
    (h : s.shape v = s.shape w) : (s.fds v).length = (s.fds w).length := by
  have hfds := congrArg (fun x => (s.fds x).length) h
  simpa only [shape, fds_map, List.length_map] using hfds

theorem list_ext {s : Schema k}
    (hs : ∀ v w : s.Val φ, s.shape v = s.shape w → s.fds v = s.fds w → v = w)
    {l m : List (s.Val φ)} (hshape : l.map s.shape = m.map s.shape)
    (hfds : l.flatMap s.fds = m.flatMap s.fds) : l = m := by
  induction l generalizing m with
  | nil =>
      cases m with
      | nil => rfl
      | cons w m => cases hshape
  | cons v l ih =>
      cases m with
      | nil => cases hshape
      | cons w m =>
          rw [List.map_cons, List.map_cons, List.cons.injEq] at hshape
          rw [List.flatMap_cons, List.flatMap_cons] at hfds
          obtain ⟨hhead, htail⟩ := List.append_inj hfds (fds_length_of_shape s hshape.1)
          rw [hs v w hshape.1 hhead, ih hshape.2 htail]

/-- A value is its shape together with its out-of-band items. -/
theorem val_ext (s : Schema k) {v w : s.Val φ} (hshape : s.shape v = s.shape w)
    (hfds : s.fds v = s.fds w) : v = w := by
  induction s with
  | int t => exact hshape
  | string => exact hshape
  | fd => exact List.cons.inj hfds |>.1
  | option s ih =>
      cases v with
      | none =>
          cases w with
          | none => rfl
          | some w => cases hshape
      | some v =>
          cases w with
          | none => cases hshape
          | some w => exact congrArg some (ih (Option.some.inj hshape) hfds)
  | seq s ih =>
      exact Subtype.ext (list_ext (fun _ _ => ih) (congrArg Subtype.val hshape) hfds)
  | array s n ih =>
      exact Subtype.ext (list_ext (fun _ _ => ih) (congrArg Subtype.val hshape) hfds)
  | struct fs ih => exact ih hshape hfds
  | enum vs fits ih => exact ih hshape hfds
  | noFields => rfl
  | field s fs ihs ihfs =>
      obtain ⟨hs, hfs⟩ := Prod.mk.inj hshape
      obtain ⟨hhead, htail⟩ := List.append_inj hfds (fds_length_of_shape s hs)
      exact Prod.ext (ihs hs hhead) (ihfs hfs htail)
  | noVariants => exact Empty.elim v
  | variant fs vs ihfs ihvs =>
      rcases v with v | v <;> rcases w with w | w
      · exact congrArg Sum.inl (ihfs (Sum.inl.inj hshape) hfds)
      · cases hshape
      · cases hshape
      · exact congrArg Sum.inr (ihvs (Sum.inr.inj hshape) hfds)

end Schema

end TereServer.Bincode
