import Mathlib.Data.Set.Function
import Mathlib.Logic.Relation
import TereServer.Lib.Framing
import TereServer.ProtocolIdentity.Walk

/-!
# What the protocol identity identifies

The input of the hasher is a sequence of records, one for each file and link, in a
self-delimiting code.  Together with the order of the walk this makes two inputs
equal exactly when the trees have the same files and links.
-/

namespace TereServer.ProtocolIdentity

open Bincode Lib

/-! ## Records -/

def Leaf.toSum {α : Type} : Leaf α → α ⊕ PathBuf
  | .file content => .inl content
  | .symlink target => .inr target

theorem toSum_injective {α : Type} : Function.Injective (Leaf.toSum (α := α)) := by
  intro leaf leaf' h
  cases leaf with
  | file content =>
      cases leaf' with
      | file content' => exact congrArg Leaf.file (Sum.inl.inj h)
      | symlink target' => cases h
  | symlink target =>
      cases leaf' with
      | file content' => cases h
      | symlink target' => exact congrArg Leaf.symlink (Sum.inr.inj h)

/-- A tag, then a hash or a target, then the end of the record. -/
def encodeLeaf (leaf : Leaf Hash) : Bytes :=
  Sum.elim (fun hash => 0x46 :: (hash.1 ++ [nul])) (fun dst => 0x4c :: (dst.1 ++ [nul])) leaf.toSum

def encodeRecord (r : PathBuf × Leaf Hash) : Bytes := (r.1.1 ++ [nul]) ++ encodeLeaf r.2

theorem encodeLeaf_file (hash : Hash) :
    encodeLeaf (.file hash) = strBytes "F" ++ (hash.1 ++ [nul]) := rfl

theorem encodeLeaf_symlink (dst : PathBuf) :
    encodeLeaf (.symlink dst) = strBytes "L" ++ (dst.1 ++ [nul]) := rfl

theorem encodeLeaf_selfDelimiting : SelfDelimiting encodeLeaf := by
  have hhash : SelfDelimiting fun hash : Hash => hash.1 ++ [nul] :=
    (SelfDelimiting.fixedLength 32).append_const [nul]
  have htag : (0x46 : UInt8) ≠ 0x4c := by decide
  exact (hhash.tagged htag (.terminated nul)).comp toSum_injective

theorem encodeRecord_selfDelimiting : SelfDelimiting encodeRecord :=
  (SelfDelimiting.terminated nul).pair encodeLeaf_selfDelimiting

theorem encodeRecord_ne_nil (r : PathBuf × Leaf Hash) : encodeRecord r ≠ [] := by
  unfold encodeRecord
  simp

section Stream

variable (blake3 : Bytes → Hash)

/-- The records of the entries of a walk. -/
def records (entries : List DirEntry) : List (PathBuf × Leaf Hash) :=
  (leaves entries).map fun l => (l.1, l.2.map blake3)

theorem update_eq (entry : DirEntry) :
    entry.update blake3 = (records blake3 [entry]).flatMap encodeRecord := by
  obtain ⟨path, leaf⟩ := entry
  cases leaf with
  | none => rfl
  | some leaf =>
      cases leaf with
      | file content => simp [DirEntry.update, records, leaves, encodeRecord, Leaf.map, encodeLeaf_file]
      | symlink dst =>
          simp [DirEntry.update, records, leaves, encodeRecord, Leaf.map, encodeLeaf_symlink]

theorem flatMap_update (entries : List DirEntry) :
    entries.flatMap (DirEntry.update blake3) = (records blake3 entries).flatMap encodeRecord := by
  induction entries with
  | nil => rfl
  | cons entry entries ih =>
      have hcons : records blake3 (entry :: entries) =
          records blake3 [entry] ++ records blake3 entries := by
        unfold records leaves
        rw [← List.map_append, ← List.filterMap_append]
        rfl
      rw [List.flatMap_cons, ih, update_eq, hcons, List.flatMap_append]

/-! ## Trees -/

namespace SourceTree

/-- The map from paths to the hashes of files and the targets of links. -/
def Hashed (tree : SourceTree) (path : PathBuf) (leaf : Leaf Hash) : Prop :=
  ∃ l, tree.Contains path l ∧ l.map blake3 = leaf

/-- The contents of the files of two trees. -/
def contents (tree tree' : SourceTree) : Set Bytes :=
  {content | ∃ path, tree.Contains path (.file content) ∨ tree'.Contains path (.file content)}

/-- The same directories, each listed in any order. -/
structure Relisted (tree tree' : SourceTree) : Prop where
  ipc : Relation.ReflTransGen Node.Relisted tree.ipc tree'.ipc
  proto : Relation.ReflTransGen Node.Relisted tree.proto tree'.proto
  services : Relation.ReflTransGen Node.Relisted tree.services tree'.services

variable {blake3} {tree tree' : SourceTree}

theorem mem_records {path : PathBuf} {leaf : Leaf Hash} :
    (path, leaf) ∈ records blake3 tree.walk ↔ tree.Hashed blake3 path leaf := by
  unfold records
  rw [List.mem_map]
  constructor
  · rintro ⟨⟨path', l⟩, hmem, heq⟩
    cases heq
    exact ⟨l, mem_leaves.1 hmem, rfl⟩
  · rintro ⟨l, hcontains, rfl⟩
    exact ⟨(path, l), mem_leaves.2 hcontains, rfl⟩

theorem records_sorted (tree : SourceTree) : (records blake3 tree.walk).Pairwise Before :=
  List.pairwise_map.2 tree.leaves_sorted

theorem stream_eq (tree : SourceTree) :
    tree.stream blake3 = (records blake3 tree.walk).flatMap encodeRecord :=
  flatMap_update blake3 tree.walk

theorem stream_eq_iff_hashed : tree.stream blake3 = tree'.stream blake3 ↔
    ∀ path leaf, tree.Hashed blake3 path leaf ↔ tree'.Hashed blake3 path leaf := by
  rw [stream_eq, stream_eq]
  constructor
  · intro h path leaf
    have hrecords : records blake3 tree.walk = records blake3 tree'.walk :=
      encodeRecord_selfDelimiting.flatMap_injective encodeRecord_ne_nil h
    rw [← mem_records, ← mem_records, hrecords]
  · intro h
    have hrecords : records blake3 tree.walk = records blake3 tree'.walk := by
      refine List.Pairwise.eq_of_mem_iff tree.records_sorted tree'.records_sorted ?_
      rintro ⟨path, leaf⟩
      rw [mem_records, mem_records]
      exact h path leaf
    rw [hrecords]

theorem map_injOn (hinj : Set.InjOn blake3 (contents tree tree')) {path path' : PathBuf}
    {leaf leaf' : Leaf Bytes} (h : tree.Contains path leaf) (h' : tree'.Contains path' leaf')
    (heq : leaf.map blake3 = leaf'.map blake3) : leaf = leaf' := by
  cases leaf with
  | file content =>
      cases leaf' with
      | file content' =>
          have hcontent := hinj ⟨path, .inl h⟩ ⟨path', .inr h'⟩ (Leaf.file.inj heq)
          exact congrArg Leaf.file hcontent
      | symlink target' => cases heq
  | symlink target =>
      cases leaf' with
      | file content' => cases heq
      | symlink target' => exact congrArg Leaf.symlink (Leaf.symlink.inj heq)

theorem contents_comm : contents tree tree' = contents tree' tree := by
  unfold contents
  simp only [or_comm]

/-- Of trees with the same hashes, where no two contents have the same hash. -/
theorem contains_of_hashed (hinj : Set.InjOn blake3 (contents tree tree'))
    (h : ∀ path leaf, tree.Hashed blake3 path leaf → tree'.Hashed blake3 path leaf)
    {path : PathBuf} {leaf : Leaf Bytes} (hcontains : tree.Contains path leaf) :
    tree'.Contains path leaf := by
  obtain ⟨leaf', hcontains', heq⟩ := h path _ ⟨leaf, hcontains, rfl⟩
  rw [map_injOn hinj hcontains hcontains' heq.symm]
  exact hcontains'

theorem hashed_iff_contains (hinj : Set.InjOn blake3 (contents tree tree')) :
    (∀ path leaf, tree.Hashed blake3 path leaf ↔ tree'.Hashed blake3 path leaf) ↔
      ∀ path leaf, tree.Contains path leaf ↔ tree'.Contains path leaf := by
  constructor
  · intro h path leaf
    have hinj' : Set.InjOn blake3 (contents tree' tree) := by
      rw [contents_comm]
      exact hinj
    exact ⟨contains_of_hashed hinj fun path leaf => (h path leaf).1,
      contains_of_hashed hinj' fun path leaf => (h path leaf).2⟩
  · intro h path leaf
    unfold Hashed
    simp only [h]

theorem at_of_relisted {node node' : Node} (h : Relation.ReflTransGen Node.Relisted node node')
    {names : List FileName} {leaf : Leaf Bytes} (hat : node.At names leaf) :
    node'.At names leaf := by
  induction h with
  | refl => exact hat
  | tail _ hnode ih => exact hnode.at ih

/-- Listing a directory in another order does not change what a tree contains. -/
theorem Relisted.contains (h : tree.Relisted tree') {path : PathBuf} {leaf : Leaf Bytes}
    (hcontains : tree.Contains path leaf) : tree'.Contains path leaf := by
  obtain ⟨root, hroot, names, hleaf, rfl⟩ := hcontains
  simp only [roots, List.mem_cons, List.not_mem_nil, or_false] at hroot
  rcases hroot with rfl | rfl | rfl
  · exact ⟨_, .head _, names, at_of_relisted h.ipc hleaf, rfl⟩
  · exact ⟨_, .tail _ (.head _), names, at_of_relisted h.proto hleaf, rfl⟩
  · exact ⟨_, .tail _ (.tail _ (.head _)), names, at_of_relisted h.services hleaf, rfl⟩

theorem Relisted.symm (h : tree.Relisted tree') : tree'.Relisted tree where
  ipc := Std.Symm.symm _ _ h.ipc
  proto := Std.Symm.symm _ _ h.proto
  services := Std.Symm.symm _ _ h.services

variable (blake3 tree tree')

/-- The inputs of the hasher are equal exactly when the trees have the same files, by
their hashes, and the same links at the same paths; so also by their contents, where
these have different hashes; and the listing order does not matter. -/
theorem stream_eq_iff_same_map :
    (tree.stream blake3 = tree'.stream blake3 ↔
      ∀ path leaf, tree.Hashed blake3 path leaf ↔ tree'.Hashed blake3 path leaf) ∧
    (Set.InjOn blake3 (contents tree tree') → (tree.stream blake3 = tree'.stream blake3 ↔
      ∀ path leaf, tree.Contains path leaf ↔ tree'.Contains path leaf)) ∧
    (tree.Relisted tree' → tree.stream blake3 = tree'.stream blake3) := by
  refine ⟨stream_eq_iff_hashed, ?_, ?_⟩
  · intro hinj
    rw [stream_eq_iff_hashed, hashed_iff_contains hinj]
  · intro hrelisted
    rw [stream_eq_iff_hashed]
    have hcontains : ∀ path leaf, tree.Contains path leaf ↔ tree'.Contains path leaf :=
      fun path leaf => ⟨hrelisted.contains, hrelisted.symm.contains⟩
    intro path leaf
    unfold Hashed
    simp only [hcontains]

end SourceTree

end Stream

/-! ## The identity -/

theorem hexDigit_inj : ∀ m < 16, ∀ n < 16, hexDigit m = hexDigit n → m = n := by decide

theorem hexByte_injective : Function.Injective hexByte := by
  intro b b' h
  have hb := b.toNat_lt
  have hb' := b'.toNat_lt
  obtain ⟨hhigh, hlow⟩ := List.cons.inj h
  have hdiv := hexDigit_inj _ (by omega) _ (by omega) hhigh
  have hmod := hexDigit_inj _ (by omega) _ (by omega) (List.cons.inj hlow).1
  apply UInt8.toNat_inj.1
  omega

theorem toHex_injective : Function.Injective Hash.toHex := by
  have hbyte : SelfDelimiting hexByte := by
    have hdigits : Function.Injective fun b : UInt8 =>
        (⟨hexByte b, rfl⟩ : {digits : List Char // digits.length = 2}) :=
      fun b b' h => hexByte_injective (Subtype.mk.inj h)
    exact (SelfDelimiting.fixedLength 2).comp hdigits
  intro hash hash' h
  have hdigits : hash.1.flatMap hexByte = hash'.1.flatMap hexByte := by
    have hlist := congrArg String.toList h
    simpa only [Hash.toHex, String.toList_ofList] using hlist
  exact Subtype.ext (hbyte.flatMap_injective (fun b => List.cons_ne_nil _ _) hdigits)

/-- Two builds have the same identity exactly when their trees have the same files and
links, where no two inputs of the hash function have the same hash. -/
theorem hashProtocolIdentity_eq_iff {blake3 : Bytes → Hash} {tree tree' : SourceTree}
    (hinj : Set.InjOn blake3 (SourceTree.contents tree tree' ∪
      {tree.stream blake3, tree'.stream blake3})) :
    hashProtocolIdentity blake3 tree = hashProtocolIdentity blake3 tree' ↔
      ∀ path leaf, tree.Contains path leaf ↔ tree'.Contains path leaf := by
  have hcontents : Set.InjOn blake3 (SourceTree.contents tree tree') :=
    hinj.mono Set.subset_union_left
  rw [← SourceTree.hashed_iff_contains hcontents, ← SourceTree.stream_eq_iff_hashed]
  constructor
  · intro h
    exact hinj (.inr (.inl rfl)) (.inr (.inr rfl)) (toHex_injective h)
  · intro h
    unfold hashProtocolIdentity
    rw [h]

/-! ## A file, a link and an edit -/

/-- What `blake3::hash` returns for no bytes and for `abc`. -/
def testBlake3 (content : Bytes) : Hash :=
  if content = [] then
    ⟨[0xaf, 0x13, 0x49, 0xb9, 0xf5, 0xf9, 0xa1, 0xa6, 0xa0, 0x40, 0x4d, 0xea, 0x36, 0xdc, 0xc9,
      0x49, 0x9b, 0xcb, 0x25, 0xc9, 0xad, 0xc1, 0x12, 0xb7, 0xcc, 0x9a, 0x93, 0xca, 0xe4, 0x1f,
      0x32, 0x62], rfl⟩
  else
    ⟨[0x64, 0x37, 0xb3, 0xac, 0x38, 0x46, 0x51, 0x33, 0xff, 0xb6, 0x3b, 0x75, 0x27, 0x3a, 0x8d,
      0xb5, 0x48, 0xc5, 0x58, 0x46, 0x5d, 0x79, 0xdb, 0x03, 0xfd, 0x35, 0x9c, 0x6c, 0xd5, 0xbd,
      0x9d, 0x85], rfl⟩

namespace SourceTree

def modFile : FileName := ⟨strBytes "mod.rs", by decide, by decide, by decide⟩

def linkFile : FileName := ⟨strBytes "link.rs", by decide, by decide, by decide⟩

/-- A file with a link to it. -/
def testListing (content : Bytes) : List (FileName × Node) :=
  [(modFile, .leaf (.file content)), (linkFile, .leaf (.symlink ⟨strBytes "mod.rs", by decide⟩))]

/-- The listing in `src/ipc`, and nothing else. -/
def ofListing (listing : List (FileName × Node)) (h : (Node.dir listing).WellFormed) :
    SourceTree where
  ipc := .dir listing
  proto := .dir []
  services := .dir []
  wellFormed := by
    have hnil : (Node.dir []).WellFormed := .dir List.nodup_nil (List.forall_mem_nil _)
    simp [h, hnil]

theorem testListing_wellFormed {content : Bytes} {listing : List (FileName × Node)}
    (hperm : (testListing content).Perm listing) : (Node.dir listing).WellFormed := by
  have hnames : ((testListing content).map Prod.fst).Nodup := by
    have heq : (testListing content).map Prod.fst = [modFile, linkFile] := rfl
    rw [heq]
    decide
  refine .dir ((hperm.map Prod.fst).nodup_iff.1 hnames) ?_
  intro child hchild
  have hmem := hperm.mem_iff.2 hchild
  simp only [testListing, List.mem_cons, List.not_mem_nil, or_false] at hmem
  rcases hmem with rfl | rfl
  · exact .leaf _
  · exact .leaf _

def testTree (content : Bytes) : SourceTree :=
  ofListing (testListing content) (testListing_wellFormed (.refl _))

def testReversed (content : Bytes) : SourceTree :=
  ofListing (testListing content).reverse (testListing_wellFormed (List.reverse_perm _).symm)

theorem testTree_leaves (content : Bytes) : leaves (testTree content).walk =
    [((src.join ipcName).join linkFile, .symlink ⟨strBytes "mod.rs", by decide⟩),
      ((src.join ipcName).join modFile, .file content)] := rfl

theorem testTree_contains (content : Bytes) :
    (testTree content).Contains ((src.join ipcName).join modFile) (.file content) := by
  rw [← mem_leaves, testTree_leaves]
  exact .tail _ (.head _)

theorem testTree_content {content content' : Bytes} {path : PathBuf}
    (h : (testTree content).Contains path (.file content')) : content' = content := by
  have hmem := mem_leaves.2 h
  rw [testTree_leaves] at hmem
  simp only [List.mem_cons, List.not_mem_nil, or_false, Prod.mk.injEq, reduceCtorEq, and_false,
    false_or, Leaf.file.injEq] at hmem
  exact hmem.2

theorem testTree_injOn {content content' : Bytes} (h : testBlake3 content ≠ testBlake3 content') :
    Set.InjOn testBlake3 (contents (testTree content) (testTree content')) := by
  have hcontents : ∀ c ∈ contents (testTree content) (testTree content'),
      c = content ∨ c = content' := by
    rintro c ⟨path, hc | hc⟩
    · exact .inl (testTree_content hc)
    · exact .inr (testTree_content hc)
  intro c hc c' hc' heq
  rcases hcontents c hc with rfl | rfl
  · rcases hcontents c' hc' with rfl | rfl
    · rfl
    · exact absurd heq h
  · rcases hcontents c' hc' with rfl | rfl
    · exact absurd heq.symm h
    · rfl

/-- Listed the other way round the tree has the same input, and emptying the file
changes it. -/
theorem stream_eq_iff_same_map_test :
    (testTree (strBytes "abc")).stream testBlake3 =
      (testReversed (strBytes "abc")).stream testBlake3 ∧
    (testTree (strBytes "abc")).stream testBlake3 ≠ (testTree []).stream testBlake3 := by
  have hrelisted : (testTree (strBytes "abc")).Relisted (testReversed (strBytes "abc")) :=
    ⟨.single (.dir (List.reverse_perm _).symm), .refl, .refl⟩
  have hne : testBlake3 (strBytes "abc") ≠ testBlake3 [] := by decide
  constructor
  · exact (stream_eq_iff_same_map testBlake3 _ _).2.2 hrelisted
  · intro h
    have hsame := ((stream_eq_iff_same_map testBlake3 _ _).2.1 (testTree_injOn hne)).1 h
    have hempty := testTree_content ((hsame _ _).1 (testTree_contains _))
    exact absurd hempty (by decide)

end SourceTree

end TereServer.ProtocolIdentity
