import Mathlib.Data.List.Sort
import TereServer.Bincode.Leaf

/-!
# The protocol identity

What the build script hashes: every file and symbolic link under three source
directories, in the order of a walk that goes depth first and visits the entries of
a directory by file name.
-/

namespace TereServer.ProtocolIdentity

open Bincode

def nul : UInt8 := 0

def slash : UInt8 := 0x2f

abbrev PathBuf := {path : Bytes // nul ∉ path}

@[ext] structure FileName where
  bytes : Bytes
  ne_nil : bytes ≠ []
  nul_free : nul ∉ bytes
  slash_free : slash ∉ bytes
  deriving DecidableEq

abbrev Hash := {hash : Bytes // hash.length = 32}

/-- Anything but a directory; of a file, its content or the hash of that. -/
inductive Leaf (α : Type)
  | file (content : α)
  | symlink (target : PathBuf)
  deriving DecidableEq

def Leaf.map {α β : Type} (f : α → β) : Leaf α → Leaf β
  | .file content => .file (f content)
  | .symlink target => .symlink target

/-- What is at a path.  A directory has its entries in the order in which the file
system lists them. -/
inductive Node
  | leaf (leaf : Leaf Bytes)
  | dir (listing : List (FileName × Node))

/-- No two entries of a directory have the same name. -/
inductive Node.WellFormed : Node → Prop
  | leaf (leaf : Leaf Bytes) : WellFormed (.leaf leaf)
  | dir {listing : List (FileName × Node)} (names : (listing.map Prod.fst).Nodup)
      (nodes : ∀ child ∈ listing, child.2.WellFormed) : WellFormed (.dir listing)

/-- The directories that are walked. -/
structure SourceTree where
  ipc : Node
  proto : Node
  services : Node
  wellFormed : ∀ node ∈ [ipc, proto, services], node.WellFormed

/-! ## The walk -/

/-- The path of an entry of a directory; no path of a directory ends with a slash. -/
def PathBuf.join (path : PathBuf) (name : FileName) : PathBuf where
  val := path.1 ++ slash :: name.bytes
  property := by
    have hslash : nul ≠ slash := by decide
    simp [path.2, name.nul_free, hslash]

/-- What the walk yields: a path, and the file or link there unless it is a directory. -/
structure DirEntry where
  path : PathBuf
  leaf : Option (Leaf Bytes)

def sortByFileName {α : Type} (l : List (FileName × α)) : List (FileName × α) :=
  l.insertionSort fun a b => a.1.bytes ≤ b.1.bytes

mutual

def walk (path : PathBuf) : Node → List DirEntry
  | .leaf leaf => [⟨path, some leaf⟩]
  | .dir listing =>
      ⟨path, none⟩ :: (sortByFileName (walkAll path listing)).flatMap Prod.snd

/-- The entries of a directory, each with the walk of what it names. -/
def walkAll (path : PathBuf) : List (FileName × Node) → List (FileName × List DirEntry)
  | [] => []
  | (name, node) :: listing => (name, walk (path.join name) node) :: walkAll path listing

end

theorem walkAll_eq_map (path : PathBuf) (listing : List (FileName × Node)) :
    walkAll path listing =
      listing.map fun child => (child.1, walk (path.join child.1) child.2) := by
  induction listing with
  | nil => rfl
  | cons child listing ih => rw [walkAll, ih, List.map_cons]

theorem walk_dir (path : PathBuf) (listing : List (FileName × Node)) :
    walk path (.dir listing) = ⟨path, none⟩ ::
      (sortByFileName listing).flatMap fun child => walk (path.join child.1) child.2 := by
  have hsort : sortByFileName (walkAll path listing) =
      (sortByFileName listing).map fun child => (child.1, walk (path.join child.1) child.2) := by
    rw [walkAll_eq_map]
    unfold sortByFileName
    symm
    apply List.map_insertionSort
    intro child _ child' _
    exact Iff.rfl
  rw [walk, hsort, List.flatMap_map]

def SourceTree.roots (tree : SourceTree) : List (PathBuf × Node) :=
  [(⟨strBytes "src/ipc", by decide⟩, tree.ipc), (⟨strBytes "src/proto", by decide⟩, tree.proto),
    (⟨strBytes "src/services", by decide⟩, tree.services)]

def SourceTree.walk (tree : SourceTree) : List DirEntry :=
  tree.roots.flatMap fun root => ProtocolIdentity.walk root.1 root.2

/-! ## The hash -/

section Hash

variable (blake3 : Bytes → Hash)

/-- What an entry of the walk adds to the input of the hasher. -/
def DirEntry.update (entry : DirEntry) : Bytes :=
  match entry.leaf with
  | none => []
  | some (.symlink dst) => entry.path.1 ++ [nul] ++ strBytes "L" ++ dst.1 ++ [nul]
  | some (.file content) => entry.path.1 ++ [nul] ++ strBytes "F" ++ (blake3 content).1 ++ [nul]

/-- The input of the hasher. -/
def SourceTree.stream (tree : SourceTree) : Bytes := tree.walk.flatMap (DirEntry.update blake3)

def hexDigit (n : Nat) : Char := "0123456789abcdef".toList.getD n '0'

def hexByte (b : UInt8) : List Char := [hexDigit (b.toNat / 16), hexDigit (b.toNat % 16)]

def Hash.toHex (hash : Hash) : String := String.ofList (hash.1.flatMap hexByte)

def hashProtocolIdentity (tree : SourceTree) : String :=
  (blake3 (tree.stream blake3)).toHex

end Hash

end TereServer.ProtocolIdentity
