import Mathlib.Data.List.Nodup
import TereServer.ProtocolIdentity

/-!
# The order of the walk

The files and links that the walk yields are those of the tree, sorted by the
components of their paths.  So the walk is determined by what the tree has at which
path, and the order in which the file system lists a directory does not matter.
-/

namespace TereServer.ProtocolIdentity

open Bincode

/-! ## What a tree contains -/

/-- A file or link below a node, by the names that lead to it. -/
inductive Node.At : Node → List FileName → Leaf Bytes → Prop
  | leaf (leaf : Leaf Bytes) : At (.leaf leaf) [] leaf
  | dir {listing : List (FileName × Node)} {name : FileName} {node : Node}
      {names : List FileName} {leaf : Leaf Bytes} (hmem : (name, node) ∈ listing)
      (h : node.At names leaf) : At (.dir listing) (name :: names) leaf

def PathBuf.joins (path : PathBuf) (names : List FileName) : PathBuf :=
  names.foldl PathBuf.join path

/-- The map from paths to files and links. -/
def SourceTree.Contains (tree : SourceTree) (path : PathBuf) (leaf : Leaf Bytes) : Prop :=
  ∃ root ∈ tree.roots, ∃ names, root.2.At names leaf ∧ path = PathBuf.joins root.1 names

/-- The same node with the entries of one directory listed in another order. -/
inductive Node.Relisted : Node → Node → Prop
  | dir {listing listing' : List (FileName × Node)} (h : listing.Perm listing') :
      Relisted (.dir listing) (.dir listing')
  | child {before after : List (FileName × Node)} {name : FileName} {node node' : Node}
      (h : node.Relisted node') :
      Relisted (.dir (before ++ (name, node) :: after)) (.dir (before ++ (name, node') :: after))

theorem Node.At.of_subset {listing listing' : List (FileName × Node)}
    (hmem : ∀ child, child ∈ listing → child ∈ listing') {names : List FileName}
    {leaf : Leaf Bytes} (h : (Node.dir listing).At names leaf) :
    (Node.dir listing').At names leaf := by
  cases h with
  | dir hchild h => exact .dir (hmem _ hchild) h

theorem Node.Relisted.symm {node node' : Node} (h : node.Relisted node') :
    node'.Relisted node := by
  induction h with
  | dir h => exact .dir h.symm
  | child h ih => exact .child ih

instance : Std.Symm Node.Relisted := ⟨fun _ _ h => h.symm⟩

theorem Node.Relisted.at {node node' : Node} (h : node.Relisted node') {names : List FileName}
    {leaf : Leaf Bytes} (hat : node.At names leaf) : node'.At names leaf := by
  induction h generalizing names with
  | dir h => exact hat.of_subset fun child => h.mem_iff.1
  | @child before after name node node' h ih =>
      cases hat with
      | @dir _ name' child names' _ hmem hat =>
          rw [List.mem_append, List.mem_cons] at hmem
          rcases hmem with hbefore | heq | hafter
          · exact .dir (List.mem_append_left _ hbefore) hat
          · cases heq
            exact .dir (List.mem_append_right _ List.mem_cons_self) (ih hat)
          · exact .dir (List.mem_append_right _ (.tail _ hafter)) hat

/-! ## Components -/

def PathBuf.components (path : PathBuf) : List Bytes := path.1.splitOn slash

theorem components_join (path : PathBuf) (name : FileName) :
    (path.join name).components = path.components ++ [name.bytes] := by
  have hname : name.bytes.splitOn slash = [name.bytes] :=
    List.splitOn_eq_singleton name.slash_free
  unfold PathBuf.components PathBuf.join
  rw [List.splitOn_append_cons_self, hname]

theorem components_joins (path : PathBuf) (names : List FileName) :
    (path.joins names).components = path.components ++ names.map FileName.bytes := by
  induction names generalizing path with
  | nil => simp [PathBuf.joins]
  | cons name names ih =>
      have hjoins : path.joins (name :: names) = (path.join name).joins names := rfl
      rw [hjoins, ih, components_join, List.append_assoc]
      rfl

/-- Names that differ decide the order of the paths through them. -/
theorem components_lt {path : PathBuf} {name name' : FileName} (names names' : List FileName)
    (h : name.bytes < name'.bytes) :
    (path.joins (name :: names)).components < (path.joins (name' :: names')).components := by
  rw [components_joins, components_joins]
  apply List.append_left_lt
  exact List.cons_lt_cons_iff.2 (.inl h)

/-! ## The leaves of the walk -/

section Leaves

/-- The files and links among the entries. -/
def leaves (entries : List DirEntry) : List (PathBuf × Leaf Bytes) :=
  entries.filterMap fun entry => entry.leaf.map (Prod.mk entry.path)

variable {path : PathBuf} {node : Node} {listing : List (FileName × Node)} {leaf : Leaf Bytes}

theorem leaves_walk_leaf : leaves (walk path (.leaf leaf)) = [(path, leaf)] := by
  rw [walk]
  rfl

theorem leaves_walk_dir : leaves (walk path (.dir listing)) =
    (sortByFileName listing).flatMap fun child => leaves (walk (path.join child.1) child.2) := by
  rw [walk_dir]
  exact List.filterMap_flatMap

theorem mem_sortByFileName {child : FileName × Node} :
    child ∈ sortByFileName listing ↔ child ∈ listing := List.mem_insertionSort _

theorem mem_leaves_walk (hwf : node.WellFormed) {p : PathBuf} :
    (p, leaf) ∈ leaves (walk path node) ↔ ∃ names, node.At names leaf ∧ p = path.joins names := by
  induction hwf generalizing path with
  | leaf leaf' =>
      rw [leaves_walk_leaf, List.mem_singleton]
      constructor
      · intro h
        cases h
        exact ⟨[], .leaf leaf, rfl⟩
      · rintro ⟨names, hat, rfl⟩
        cases hat
        rfl
  | dir names nodes ih =>
      rw [leaves_walk_dir, List.mem_flatMap]
      constructor
      · rintro ⟨child, hchild, hleaf⟩
        have hmem := mem_sortByFileName.1 hchild
        obtain ⟨names, hat, rfl⟩ := (ih child hmem).1 hleaf
        exact ⟨child.1 :: names, .dir hmem hat, rfl⟩
      · rintro ⟨names, hat, rfl⟩
        cases hat with
        | dir hmem hat => exact ⟨_, mem_sortByFileName.2 hmem, (ih _ hmem).2 ⟨_, hat, rfl⟩⟩

/-! ## Order -/

/-- The order of the paths by their components. -/
def Before {α : Type} (a b : PathBuf × α) : Prop := a.1.components < b.1.components

instance {α : Type} : Std.Irrefl (@Before α) := ⟨fun a => List.lt_irrefl a.1.components⟩

instance {α : Type} : Std.Antisymm (@Before α) :=
  ⟨fun _ _ h h' => absurd h' (List.lt_asymm h)⟩

theorem sortByFileName_sorted (hnames : (listing.map Prod.fst).Nodup) :
    (sortByFileName listing).Pairwise fun a b => a.1.bytes < b.1.bytes := by
  have hle : (sortByFileName listing).Pairwise fun a b => a.1.bytes ≤ b.1.bytes := by
    have : Std.Total fun a b : FileName × Node => a.1.bytes ≤ b.1.bytes :=
      ⟨fun a b => List.le_total a.1.bytes b.1.bytes⟩
    have : IsTrans (FileName × Node) fun a b => a.1.bytes ≤ b.1.bytes :=
      ⟨fun a b c => List.le_trans⟩
    exact List.pairwise_insertionSort _ _
  have hne : (sortByFileName listing).Pairwise fun a b => a.1 ≠ b.1 := by
    have hperm := (List.perm_insertionSort (fun a b : FileName × Node => a.1.bytes ≤ b.1.bytes)
      listing).map Prod.fst
    exact List.pairwise_map.1 (hperm.nodup_iff.2 hnames)
  refine (hle.and hne).imp ?_
  rintro a b ⟨hle, hne⟩
  exact Std.lt_of_le_of_ne hle fun heq => hne (FileName.ext heq)

theorem leaves_walk_sorted (hwf : node.WellFormed) : (leaves (walk path node)).Pairwise Before := by
  induction hwf generalizing path with
  | leaf leaf =>
      rw [leaves_walk_leaf]
      exact List.pairwise_singleton _ _
  | dir names nodes ih =>
      rw [leaves_walk_dir, List.pairwise_flatMap]
      constructor
      · intro child hchild
        exact ih child (mem_sortByFileName.1 hchild)
      · refine (sortByFileName_sorted names).imp_of_mem ?_
        intro child child' hchild hchild' hlt a ha b hb
        obtain ⟨below, -, hpath⟩ :=
          (mem_leaves_walk (nodes child (mem_sortByFileName.1 hchild))).1 ha
        obtain ⟨below', -, hpath'⟩ :=
          (mem_leaves_walk (nodes child' (mem_sortByFileName.1 hchild'))).1 hb
        unfold Before
        rw [hpath, hpath']
        exact components_lt below below' hlt

end Leaves

/-! ## The three directories -/

namespace SourceTree

def src : PathBuf := ⟨strBytes "src", by decide⟩

def ipcName : FileName := ⟨strBytes "ipc", by decide, by decide, by decide⟩

def protoName : FileName := ⟨strBytes "proto", by decide, by decide, by decide⟩

def servicesName : FileName := ⟨strBytes "services", by decide, by decide, by decide⟩

/-- What the walk visits of `src`. -/
def children (tree : SourceTree) : List (FileName × Node) :=
  [(ipcName, tree.ipc), (protoName, tree.proto), (servicesName, tree.services)]

variable {tree : SourceTree} {path : PathBuf} {leaf : Leaf Bytes}

theorem roots_eq (tree : SourceTree) :
    tree.roots = tree.children.map fun child => (src.join child.1, child.2) := rfl

theorem sort_children (tree : SourceTree) : sortByFileName tree.children = tree.children := rfl

theorem children_wellFormed (tree : SourceTree) : (Node.dir tree.children).WellFormed := by
  refine .dir ?_ ?_
  · have hnames : tree.children.map Prod.fst = [ipcName, protoName, servicesName] := rfl
    rw [hnames]
    decide
  · intro child hchild
    apply tree.wellFormed
    simp only [children, List.mem_cons, List.not_mem_nil, or_false] at hchild
    rcases hchild with rfl | rfl | rfl
    · simp
    · simp
    · simp

/-- The three walks are one of the three directories as the entries of `src`. -/
theorem leaves_walk (tree : SourceTree) :
    leaves tree.walk = leaves (ProtocolIdentity.walk src (.dir tree.children)) := by
  rw [leaves_walk_dir, sort_children, SourceTree.walk, roots_eq, List.flatMap_map]
  exact List.filterMap_flatMap

theorem contains_iff : tree.Contains path leaf ↔
    ∃ names, (Node.dir tree.children).At names leaf ∧ path = src.joins names := by
  unfold SourceTree.Contains
  rw [roots_eq]
  constructor
  · rintro ⟨root, hroot, names, hat, rfl⟩
    obtain ⟨child, hchild, rfl⟩ := List.mem_map.1 hroot
    exact ⟨child.1 :: names, .dir hchild hat, rfl⟩
  · rintro ⟨names, hat, rfl⟩
    cases hat with
    | dir hmem hat => exact ⟨_, List.mem_map_of_mem hmem, _, hat, rfl⟩

theorem mem_leaves : (path, leaf) ∈ leaves tree.walk ↔ tree.Contains path leaf := by
  rw [leaves_walk, mem_leaves_walk tree.children_wellFormed, contains_iff]

theorem leaves_sorted (tree : SourceTree) : (leaves tree.walk).Pairwise Before := by
  rw [leaves_walk]
  exact leaves_walk_sorted tree.children_wellFormed

/-- There is one file or link at a path. -/
theorem Contains.unique {leaf' : Leaf Bytes} (h : tree.Contains path leaf)
    (h' : tree.Contains path leaf') : leaf = leaf' := by
  have hpaths : ((leaves tree.walk).map Prod.fst).Nodup := by
    refine List.pairwise_map.2 ((leaves_sorted tree).imp ?_)
    intro a b hbefore heq
    rw [Before, heq] at hbefore
    exact List.lt_irrefl _ hbefore
  have hleaf := List.inj_on_of_nodup_map hpaths (mem_leaves.2 h) (mem_leaves.2 h') rfl
  exact (Prod.mk.inj hleaf).2

end SourceTree

end TereServer.ProtocolIdentity
