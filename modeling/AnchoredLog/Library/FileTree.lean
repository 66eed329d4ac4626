import Mathlib.Data.List.DropRight
import Mathlib.Data.List.ReduceOption
import Mathlib.Data.Nat.Notation
import Mathlib.Tactic.Common

/-!
# File trees

A directory lists its entries by name, and an entry of it may fail to be read. A path is a list of
names, and its octets have a `/` between them, which tell the path (`eq_of_pathOctets_eq`). `Found`
follows a path down what is listed, whether or not a directory lists every name once.
-/

set_option autoImplicit false
set_option relaxedAutoImplicit false

namespace AnchoredLog.Library.FileTree

/-- The octet between two names. -/
def slash : UInt8 :=
  0x2f

/-- The octet in front of an extension. -/
def dot : UInt8 :=
  0x2e

/-- A name in a directory. -/
@[ext] structure Name where
  octets : List UInt8
  ne_nil : octets ≠ []
  plain : slash ∉ octets
  proper : octets ≠ [dot] ∧ octets ≠ [dot, dot]
deriving DecidableEq

/-- What is not a directory; a directory that cannot be listed; and a directory with its entries, in
the order they are listed in. -/
inductive Node
  | other
  | locked
  | directory (entries : List (Option (Name × Node)))

def Node.isDir : Node → Bool
  | .other => false
  | .locked => true
  | .directory _ => true

mutual

/-- The number of nodes of a tree. -/
def Node.size : Node → ℕ
  | .other => 1
  | .locked => 1
  | .directory entries => 1 + sizeOfEntries entries

def sizeOfEntries : List (Option (Name × Node)) → ℕ
  | [] => 0
  | none :: rest => sizeOfEntries rest
  | some (_, node) :: rest => node.size + sizeOfEntries rest

end

theorem size_directory (entries : List (Option (Name × Node))) :
    (Node.directory entries).size = 1 + sizeOfEntries entries := by
  rw [Node.size.eq_def]

/-- The octets of a path. -/
def pathOctets (path : List Name) : List UInt8 :=
  [slash].intercalate (path.map Name.octets)

/-- What follows the last dot of a name, none when nothing is in front of that dot. -/
def extension (name : List UInt8) : Option (List UInt8) :=
  if (name.rdropWhile (· ≠ dot)).dropLast = [] then none else some (name.rtakeWhile (· ≠ dot))

/-- What a path leads to from a node. -/
def Leads : Node → List Name → Node → Prop
  | node, [], found => found = node
  | node, name :: rest, found =>
    ∃ entries child, node = .directory entries ∧ some (name, child) ∈ entries ∧
      Leads child rest found

/-- What a path leads to, where the nodes at its first names are given. -/
def Found (root : Name → Node) : List Name → Node → Prop
  | [], _ => False
  | name :: rest, node => Leads (root name) rest node

variable {root : Name → Node} {path other : List Name} {name : Name} {node start : Node}

@[simp] theorem found_singleton_iff : Found root [name] node ↔ node = root name :=
  Iff.rfl

/-- What a longer path leads to is listed by a directory its front leads to. -/
theorem leads_concat_iff :
    Leads start (path ++ [name]) node ↔ ∃ entries, Leads start path (.directory entries) ∧
      some (name, node) ∈ entries := by
  induction path generalizing start with
  | nil =>
    constructor
    · rintro ⟨entries, child, rfl, hentry, hfound⟩
      cases hfound
      exact ⟨entries, rfl, hentry⟩
    · rintro ⟨entries, hstart, hentry⟩
      exact ⟨entries, node, hstart.symm, hentry, rfl⟩
  | cons first path ih =>
    constructor
    · rintro ⟨entries, child, hstart, hentry, hrest⟩
      obtain ⟨listing, hlisting, hmem⟩ := ih.mp hrest
      exact ⟨listing, ⟨entries, child, hstart, hentry, hlisting⟩, hmem⟩
    · rintro ⟨listing, ⟨entries, child, hstart, hentry, hlisting⟩, hmem⟩
      exact ⟨entries, child, hstart, hentry, ih.mpr ⟨listing, hlisting, hmem⟩⟩

theorem found_concat_iff (hsome : path ≠ []) :
    Found root (path ++ [name]) node ↔ ∃ entries, Found root path (.directory entries) ∧
      some (name, node) ∈ entries := by
  cases path with
  | nil => exact absurd rfl hsome
  | cons first path => exact leads_concat_iff

/-- The names of a path are read back from its octets. -/
theorem splitOn_pathOctets (hsome : path ≠ []) :
    (pathOctets path).splitOn slash = path.map Name.octets := by
  refine List.splitOn_intercalate slash (fun octets hoctets ↦ ?_) (by simpa using hsome)
  obtain ⟨name, -, rfl⟩ := List.mem_map.mp hoctets
  exact name.plain

/-- Two paths with the same octets are the same. -/
theorem eq_of_pathOctets_eq (hsome : path ≠ []) (hother : other ≠ [])
    (hsame : pathOctets path = pathOctets other) : path = other := by
  have hnames := congrArg (List.splitOn slash) hsame
  rw [splitOn_pathOctets hsome, splitOn_pathOctets hother] at hnames
  exact List.map_injective_iff.mpr (fun _ _ ↦ Name.ext) hnames

end AnchoredLog.Library.FileTree
