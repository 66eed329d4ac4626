import AnchoredLog.Client.BatcherHandoff
import AnchoredLog.Library.FileTree
import AnchoredLog.Library.HashCollision
import AnchoredLog.Library.SortedMap
import AnchoredLog.Library.Worklist
import Mathlib.Data.Char
import Mathlib.Data.List.Lex

/-!
# The fingerprint of the OpenTimestamps client

`fingerprint_against` compares the sources of an installed client with a manifest of their SHA-256
digests, in both directions: every file of the manifest has its digest, and every Python source
below the two packages is in the manifest. The second direction walks the packages with a stack of
directories.

`fingerprint_exact` says which installs are accepted. A source is looked up by its path with
replacements for what is not UTF-8, so the manifest fixes the sources only where their paths are
UTF-8 and what can be read is listed (`Legible`). `pinned_sources_unique` says that two accepted
installs then have the same sources.
-/

set_option autoImplicit false
set_option relaxedAutoImplicit false

namespace AnchoredLog.Client.Fingerprint

open Library.ByteCodec Library.Fallible Library.StrictUtf8 Library.TextFields
open Library.HashCollision Library.FileTree Library.Worklist Library
open BatcherHandoff (hex utf8)

/-! ### The manifest -/

/-- The text in front of the first two spaces in a row, and the text after them. -/
def splitOnce : List Char → Option (List Char × List Char)
  | ' ' :: ' ' :: rest => some ([], rest)
  | first :: rest => (splitOnce rest).map fun parts ↦ (first :: parts.1, parts.2)
  | [] => none

/-- A map from paths to digests, its paths in order. -/
abbrev Listed : Type :=
  List (List Char × List Char)

/-- What differs between an install and the manifest. -/
inductive Wrong
  | unreadable (path : List Char)
  | differs (path want got : List Char)
  | notListable (directory : List Name)
  | notPinned (relative : List Char)
  | noImport
  | otherInterpreter (interpreter venv : List Char)
deriving DecidableEq

/-- Why a fingerprint was refused. -/
inductive FingerprintFailed
  | noVirtualenv
  | libUnreadable
  | noSitePackages
  | malformedLine (line : List Char)
  | listsNoFiles
  | executableUnreadable
  | doesNotMatch (wrong : List Wrong)
deriving DecidableEq

/-- One line of the manifest. -/
def listLine (listed : Listed) (line : List Char) : Except FingerprintFailed Listed := do
  let parts ← okOr (splitOnce line) (.malformedLine line)
  pure (SortedMap.insert parts.2 parts.1 listed)

/-- The files of a manifest. -/
def listedIn (manifest : List Char) : Except FingerprintFailed Listed :=
  ((lines manifest).filter fun line ↦ trim line ≠ []).foldlM listLine []

/-! ### The install -/

/-- A directory of packages: what a read of a path below it gives, however the system resolves that
path, and what is there by name. -/
structure Site where
  read : List Char → Option (List UInt8)
  root : Name → Node

/-- An installed client: the path above the directory of its executable, the entries of `lib` below
that path, and the octets of the executable. An entry that is read has a directory of packages below
it or none. -/
structure Install where
  venv : Option (List UInt8)
  lib : Option (List (Option (Option Site)))
  executable : Option (List UInt8)

/-- The first directory of packages, unless an entry in front of it cannot be read. -/
def firstSite : List (Option (Option Site)) → Except FingerprintFailed Site
  | [] => .error .noSitePackages
  | none :: _ => .error .libUnreadable
  | some none :: rest => firstSite rest
  | some (some site) :: _ => .ok site

/-- The directory of packages of an install. -/
def siteOf (install : Install) : Except FingerprintFailed Site := do
  let entries ← okOr install.lib .libUnreadable
  firstSite entries

def stampsName : Name :=
  ⟨utf8 "opentimestamps".toList, by decide +kernel, by decide +kernel, by decide +kernel⟩

def clientName : Name :=
  ⟨utf8 "otsclient".toList, by decide +kernel, by decide +kernel, by decide +kernel⟩

/-- The packages of the client. -/
def packages : List Name :=
  [stampsName, clientName]

/-- The directory in which Python keeps what it compiled. -/
def pycache : List UInt8 :=
  utf8 "__pycache__".toList

/-- A name of a Python source. -/
def isPython (name : List UInt8) : Prop :=
  extension name = some (utf8 "py".toList)

instance : DecidablePred isPython := fun _ ↦ inferInstanceAs (Decidable (_ = _))

/-- A text holds another. -/
def contains (text part : List Char) : Prop :=
  part <:+: text

instance (text part : List Char) : Decidable (contains text part) :=
  inferInstanceAs (Decidable (_ <:+: _))

/-! ### The comparison -/

section Comparison

variable (sha256 : List UInt8 → Octets 32)

/-- A file of the manifest, compared. -/
def compareFile (site : Site) (entry : List Char × List Char) : Option Wrong :=
  match site.read entry.1 with
  | none => some (.unreadable entry.1)
  | some octets =>
    if hex (sha256 octets).octets = entry.2 then none
    else some (.differs entry.1 entry.2 (hex (sha256 octets).octets))

/-- A directory on the stack: its path below the packages' directory, and what is there. -/
abbrev Pending : Type :=
  List Name × Node

/-- The directories an entry puts on the stack. -/
def pushed (path : List Name) (entry : Name × Node) : Option Pending :=
  if entry.2.isDir = true ∧ entry.1.octets ≠ pycache then some (path ++ [entry.1], entry.2)
  else none

/-- The directories below one, the last that was put on the stack first. -/
def subdirectories (pending : Pending) : List Pending :=
  match pending.2 with
  | .directory entries => (entries.reduceOption.filterMap (pushed pending.1)).reverse
  | _ => []

/-- An entry that is a Python source and not in the manifest. -/
def unpinned (listed : Listed) (path : List Name) (entry : Name × Node) : Option Wrong :=
  let relative := fromUtf8Lossy (pathOctets (path ++ [entry.1]))
  if entry.2.isDir = false ∧ isPython entry.1.octets ∧ relative ∉ listed.map Prod.fst then
    some (.notPinned relative)
  else none

/-- What is wrong in one directory. -/
def examine (listed : Listed) (pending : Pending) : List Wrong :=
  match pending.2 with
  | .directory entries => entries.reduceOption.filterMap (unpinned listed pending.1)
  | _ => [.notListable pending.1]

/-- What is wrong below a package. -/
def walk (listed : Listed) (site : Site) (package : Name) : List Wrong :=
  drain subdirectories (examine listed) (fun pending ↦ pending.2.size)
    [([package], site.root package)]

/-- What is wrong with the entry point. -/
def examineEntryPoint (venv shim : List Char) : List Wrong :=
  let interpreter := (lines shim).head?.getD []
  (if contains shim "from otsclient.ots import main".toList then [] else [.noImport]) ++
    (if "#!".toList <+: interpreter ∧ contains interpreter venv then []
      else [.otherInterpreter interpreter venv])

/-- Compares an install with a manifest, and returns how many files that lists. -/
def fingerprintAgainst (install : Install) (manifest : List Char) :
    Except FingerprintFailed ℕ := do
  let venv ← okOr install.venv .noVirtualenv
  let site ← siteOf install
  let listed ← listedIn manifest
  require (listed ≠ []) .listsNoFiles
  let changed := listed.filterMap (compareFile sha256 site)
  let added := packages.flatMap (walk listed site)
  let shim ← okOr (install.executable.bind decodeUtf8) .executableUnreadable
  let wrong := changed ++ added ++ examineEntryPoint (fromUtf8Lossy venv) shim
  require (wrong = []) (.doesNotMatch wrong)
  pure listed.length

end Comparison

/-! ### What a manifest lists -/

/-- The lines of a manifest that are not empty. -/
def manifestLines (manifest : List Char) : List (List Char) :=
  (lines manifest).filter fun line ↦ trim line ≠ []

/-- The last line of a manifest with a path gives its digest. -/
def Records (manifest path digest : List Char) : Prop :=
  ∃ before line after, manifestLines manifest = before ++ line :: after ∧
    splitOnce line = some (digest, path) ∧
    ∀ later ∈ after, ∀ other, splitOnce later ≠ some (other, path)

theorem foldlM_listLine_eq_ok_iff {written : List (List Char)} {start listed : Listed} :
    written.foldlM listLine start = .ok listed ↔ ∃ entries : Listed,
      List.Forall₂ (fun line entry ↦ splitOnce line = some (entry.2, entry.1)) written entries ∧
        listed = entries.foldl (fun map entry ↦ SortedMap.insert entry.1 entry.2 map) start := by
  induction written generalizing start with
  | nil => simp [eq_comm]
  | cons line written ih =>
    rw [List.foldlM_cons, listLine]
    simp only [List.forall₂_cons_left_iff]
    cases hparts : splitOnce line with
    | none => simp
    | some parts =>
      simp only [okOr_some, bind_ok, pure_eq_ok, ih]
      constructor
      · rintro ⟨entries, hentries, rfl⟩
        exact ⟨_, ⟨(parts.2, parts.1), entries, rfl, hentries, rfl⟩, rfl⟩
      · rintro ⟨_, ⟨entry, entries, hentry, hentries, rfl⟩, rfl⟩
        rw [Option.some.injEq] at hentry
        rw [hentry]
        exact ⟨entries, hentries, rfl⟩

/-- What a line lists: its path and its digest. -/
def entryOf (line : List Char) : List Char × List Char :=
  ((splitOnce line).getD ([], [])).swap

theorem listedIn_eq_ok_iff {manifest : List Char} {listed : Listed} :
    listedIn manifest = .ok listed ↔
      (∀ line ∈ manifestLines manifest, (splitOnce line).isSome) ∧
        listed = SortedMap.collected ((manifestLines manifest).map entryOf) := by
  rw [listedIn, foldlM_listLine_eq_ok_iff]
  change (∃ entries : Listed, List.Forall₂ _ (manifestLines manifest) entries ∧
    listed = SortedMap.collected entries) ↔ _
  have hentries {written : List (List Char)} {entries : Listed} :
      List.Forall₂ (fun line entry ↦ splitOnce line = some (entry.2, entry.1)) written entries ↔
        (∀ line ∈ written, (splitOnce line).isSome) ∧ entries = written.map entryOf := by
    induction written generalizing entries with
    | nil => simp
    | cons line written ih =>
      simp only [List.forall₂_cons_left_iff, List.forall_mem_cons, List.map_cons, ih]
      constructor
      · rintro ⟨entry, rest, hline, ⟨hsome, rfl⟩, rfl⟩
        exact ⟨⟨by rw [hline]; rfl, hsome⟩, by rw [entryOf, hline]; rfl⟩
      · rintro ⟨⟨hline, hsome⟩, rfl⟩
        obtain ⟨parts, hparts⟩ := Option.isSome_iff_exists.mp hline
        exact ⟨entryOf line, _, by rw [entryOf, hparts]; rfl, ⟨hsome, rfl⟩, rfl⟩
  simp only [hentries]
  constructor
  · rintro ⟨_, ⟨hsome, rfl⟩, hlisted⟩
    exact ⟨hsome, hlisted⟩
  · rintro ⟨hsome, hlisted⟩
    exact ⟨_, ⟨hsome, rfl⟩, hlisted⟩

/-- A manifest whose lines are well formed lists what its last line with each path says. -/
theorem mem_listedIn_iff {manifest : List Char} {listed : Listed}
    (hlisted : listedIn manifest = .ok listed) {path digest : List Char} :
    (path, digest) ∈ listed ↔ Records manifest path digest := by
  obtain ⟨hsome, rfl⟩ := listedIn_eq_ok_iff.mp hlisted
  have hentry (line : List Char) (entry : List Char × List Char)
      (hline : line ∈ manifestLines manifest) :
      entryOf line = entry ↔ splitOnce line = some (entry.2, entry.1) := by
    obtain ⟨parts, hparts⟩ := Option.isSome_iff_exists.mp (hsome line hline)
    rw [entryOf, hparts, Option.getD_some, Option.some.injEq, Prod.ext_iff, Prod.ext_iff]
    exact and_comm
  rw [SortedMap.mem_collected_iff, Records]
  constructor
  · rintro ⟨before, after, hsplit, hlater⟩
    obtain ⟨front, rest, hlines, -, hrest⟩ := List.map_eq_append_iff.mp hsplit
    obtain ⟨line, back, rfl, hline, rfl⟩ := List.map_eq_cons_iff.mp hrest
    refine ⟨front, line, back, hlines, ?_, fun later hback other hsame ↦ ?_⟩
    · exact (hentry line _ (by simp [hlines])).mp hline
    · refine hlater (entryOf later) (List.mem_map_of_mem hback) ?_
      rw [(hentry later (path, other) (by simp [hlines, hback])).mpr hsame]
  · rintro ⟨front, line, back, hlines, hline, hlater⟩
    refine ⟨front.map entryOf, back.map entryOf, ?_, fun later hmem hsame ↦ ?_⟩
    · rw [hlines, List.map_append, List.map_cons,
        (hentry line (path, digest) (by simp [hlines])).mpr hline]
    · obtain ⟨found, hback, rfl⟩ := List.mem_map.mp hmem
      refine hlater found hback (entryOf found).2 ?_
      rw [(hentry found _ (by simp [hlines, hback])).mp rfl, hsame]

/-! ### The walk -/

/-- A path from a package down, not through what Python compiled. -/
def Below (path : List Name) : Prop :=
  ∃ package ∈ packages, ∃ within, path = package :: within ∧ ∀ name ∈ within, name.octets ≠ pycache

/-- The path of a Python source of the packages. -/
structure Source (site : Site) (path : List Name) : Prop where
  located : ∃ directory name, path = directory ++ [name] ∧ Below directory ∧ isPython name.octets
  found : ∃ node, Found site.root path node ∧ node.isDir = false

theorem load_subdirectories (path : List Name) (entries : List (Option (Name × Node))) :
    load (fun pending : Pending ↦ pending.2.size)
      ((entries.reduceOption.filterMap (pushed path)).reverse) ≤ sizeOfEntries entries := by
  rw [load, List.map_reverse, List.sum_reverse]
  induction entries with
  | nil => exact Nat.le_refl 0
  | cons entry rest ih =>
    cases entry with
    | none => rwa [List.reduceOption_cons_of_none, sizeOfEntries]
    | some entry =>
      rw [List.reduceOption_cons_of_some, List.filterMap_cons, pushed, sizeOfEntries]
      split_ifs
      · simp only [List.map_cons, List.sum_cons]
        omega
      · dsimp only
        omega

/-- The directories below one are together smaller than it. -/
theorem shrinks_subdirectories :
    Shrinks subdirectories fun pending : Pending ↦ pending.2.size := by
  rintro ⟨path, node⟩
  cases node with
  | other => exact Nat.zero_lt_one
  | locked => exact Nat.zero_lt_one
  | directory entries =>
    have hload := load_subdirectories path entries
    change load _ ((entries.reduceOption.filterMap (pushed path)).reverse) <
      (Node.directory entries).size
    rw [size_directory]
    exact lt_of_le_of_lt hload (Nat.lt_one_add_iff.mpr le_rfl)

theorem child_iff {path : List Name} {node : Node} {found : Pending} :
    Child subdirectories (path, node) found ↔ ∃ entries name child, node = .directory entries ∧
      some (name, child) ∈ entries ∧ child.isDir = true ∧ name.octets ≠ pycache ∧
        found = (path ++ [name], child) := by
  unfold Child subdirectories
  cases node with
  | other => simp
  | locked => simp
  | directory entries =>
    simp only [List.mem_reverse, List.mem_filterMap, pushed, Option.ite_none_right_eq_some,
      Option.some.injEq, Prod.exists, Node.directory.injEq, List.reduceOption_mem_iff]
    constructor
    · rintro ⟨name, child, hmem, ⟨hdir, hname⟩, rfl⟩
      exact ⟨entries, name, child, rfl, hmem, hdir, hname, rfl⟩
    · rintro ⟨_, name, child, rfl, hmem, hdir, hname, rfl⟩
      exact ⟨name, child, hmem, ⟨hdir, hname⟩, rfl⟩

/-- What is reached from a package is found below it, not through what Python compiled. -/
theorem reaches_iff {site : Site} {package : Name} {found : Pending} :
    Relation.ReflTransGen (Child subdirectories) ([package], site.root package) found ↔
      ∃ within, found.1 = package :: within ∧ (∀ name ∈ within, name.octets ≠ pycache) ∧
        Found site.root found.1 found.2 ∧ (within = [] ∨ found.2.isDir = true) := by
  constructor
  · intro hreaches
    induction hreaches with
    | refl => exact ⟨[], rfl, by simp, rfl, .inl rfl⟩
    | @tail middle last _ hchild ih =>
      obtain ⟨within, hpath, hcache, hmiddle, -⟩ := ih
      obtain ⟨entries, name, child, hentries, hmem, hdir, hname, rfl⟩ := child_iff.mp hchild
      rw [hentries, hpath] at hmiddle
      refine ⟨within ++ [name], by rw [hpath, List.cons_append], ?_, ?_, .inr hdir⟩
      · rw [List.forall_mem_append]
        exact ⟨hcache, by simpa using hname⟩
      · rw [hpath]
        exact (found_concat_iff (List.cons_ne_nil _ _)).mpr ⟨entries, hmiddle, hmem⟩
  · rintro ⟨within, hpath, hcache, hfound, hdir⟩
    obtain ⟨place, last⟩ := found
    simp only at hpath hfound hdir
    subst hpath
    induction within using List.reverseRecOn generalizing last with
    | nil =>
      rw [found_singleton_iff.mp hfound]
    | append_singleton front name ih =>
      rw [← List.cons_append] at hfound ⊢
      obtain ⟨entries, hentries, hmem⟩ := (found_concat_iff (List.cons_ne_nil _ _)).mp hfound
      rw [List.forall_mem_append] at hcache
      refine .tail (ih hcache.1 (.directory entries) (.inr rfl) hentries) ?_
      have hlast : last.isDir = true := hdir.resolve_left (by simp)
      exact child_iff.mpr ⟨entries, name, last, rfl, hmem, hlast, by simpa using hcache.2, rfl⟩

theorem examine_eq_nil_iff {listed : Listed} {path : List Name} {node : Node} :
    examine listed (path, node) = [] ↔ ∃ entries, node = .directory entries ∧
      ∀ entry, some entry ∈ entries → unpinned listed path entry = none := by
  cases node with
  | other => simp [examine]
  | locked => simp [examine]
  | directory entries => simp [examine, List.filterMap_eq_nil_iff, List.reduceOption_mem_iff]

theorem unpinned_eq_none_iff {listed : Listed} {path : List Name} {entry : Name × Node} :
    unpinned listed path entry = none ↔ (entry.2.isDir = false → isPython entry.1.octets →
      ∃ digest, (fromUtf8Lossy (pathOctets (path ++ [entry.1])), digest) ∈ listed) := by
  rw [unpinned]
  simp only [ite_eq_right_iff, reduceCtorEq, imp_false, not_and, not_not, List.mem_map,
    Prod.exists, exists_and_right, exists_eq_right]

/-- What the manifest is asked to hold of the sources of the packages, and of their directories. -/
structure Pinned (site : Site) (listed : Listed) : Prop where
  packages : ∀ package ∈ packages, ∃ entries, site.root package = .directory entries
  listable : ∀ path, Below path → ¬Found site.root path .locked
  sources : ∀ path, Source site path →
    ∃ digest, (fromUtf8Lossy (pathOctets path), digest) ∈ listed

theorem walk_eq_nil_iff {site : Site} {listed : Listed} {package : Name} :
    walk listed site package = [] ↔ ∀ within node, (∀ name ∈ within, name.octets ≠ pycache) →
      Found site.root (package :: within) node → (within = [] ∨ node.isDir = true) →
        examine listed (package :: within, node) = [] := by
  rw [walk, drain_eq_nil_iff shrinks_subdirectories]
  simp only [List.mem_singleton, forall_eq, reaches_iff]
  constructor
  · intro hclean within node hcache hnode hdir
    exact hclean (package :: within, node) ⟨within, rfl, hcache, hnode, hdir⟩
  · rintro hclean ⟨path, node⟩ ⟨within, rfl, hcache, hnode, hdir⟩
    exact hclean within node hcache hnode hdir

/-- The walk finds nothing wrong exactly when every source below the packages is pinned and every
directory below them can be listed. -/
theorem flatMap_walk_eq_nil_iff {site : Site} {listed : Listed} :
    packages.flatMap (walk listed site) = [] ↔ Pinned site listed := by
  simp only [List.flatMap_eq_nil_iff, walk_eq_nil_iff]
  constructor
  · intro hclean
    have hdirectory (path : List Name) (node : Node) (hbelow : Below path)
        (hnode : Found site.root path node) (hdir : path.tail = [] ∨ node.isDir = true) :
        ∃ entries, node = .directory entries ∧
          ∀ entry, some entry ∈ entries → unpinned listed path entry = none := by
      obtain ⟨package, hpackage, within, rfl, hcache⟩ := hbelow
      exact examine_eq_nil_iff.mp (hclean package hpackage within node hcache hnode hdir)
    refine ⟨fun package hpackage ↦ ?_, fun path hbelow hlocked ↦ ?_, ?_⟩
    · obtain ⟨entries, hentries, -⟩ := hdirectory [package] (site.root package)
        ⟨package, hpackage, [], rfl, by simp⟩ rfl (.inl rfl)
      exact ⟨entries, hentries⟩
    · obtain ⟨entries, hentries, -⟩ := hdirectory path .locked hbelow hlocked (.inr rfl)
      cases hentries
    · rintro _ ⟨⟨directory, name, rfl, hbelow, hpython⟩, node, hfound, hfile⟩
      have hsome : directory ≠ [] := by
        obtain ⟨package, -, within, rfl, -⟩ := hbelow
        exact List.cons_ne_nil _ _
      obtain ⟨entries, hentries, hmem⟩ := (found_concat_iff hsome).mp hfound
      obtain ⟨listing, hlisting, hpinned⟩ := hdirectory directory _ hbelow hentries (.inr rfl)
      cases hlisting
      exact unpinned_eq_none_iff.mp (hpinned _ hmem) hfile hpython
  · intro hpinned package hpackage within node hcache hnode hdir
    have hbelow : Below (package :: within) := ⟨package, hpackage, within, rfl, hcache⟩
    refine examine_eq_nil_iff.mpr ?_
    cases node with
    | other =>
      obtain rfl : within = [] := hdir.resolve_right (by simp [Node.isDir])
      obtain ⟨entries, hentries⟩ := hpinned.packages package hpackage
      rw [found_singleton_iff, hentries] at hnode
      cases hnode
    | locked => exact absurd hnode (hpinned.listable _ hbelow)
    | directory entries =>
      refine ⟨entries, rfl, fun entry hentry ↦ unpinned_eq_none_iff.mpr fun hfile hpython ↦ ?_⟩
      refine hpinned.sources _ ⟨⟨_, entry.1, rfl, hbelow, hpython⟩, entry.2, ?_, hfile⟩
      exact (found_concat_iff (List.cons_ne_nil _ _)).mpr ⟨entries, hnode, hentry⟩

/-! ### What is accepted -/

section Accepted

variable (sha256 : List UInt8 → Octets 32)

/-- What an accepted install has to be. -/
structure Matches (install : Install) (manifest : List Char) (venv : List UInt8) (site : Site)
    (shim : List Char) : Prop where
  venv_eq : install.venv = some venv
  located : ∃ before after, install.lib = some (before ++ some (some site) :: after) ∧
    ∀ entry ∈ before, entry = some none
  shim_eq : install.executable.bind decodeUtf8 = some shim
  wellFormed : ∀ line ∈ manifestLines manifest, (splitOnce line).isSome
  files : ∀ path digest, Records manifest path digest →
    ∃ octets, site.read path = some octets ∧ hex (sha256 octets).octets = digest
  packages : ∀ package ∈ packages, ∃ entries, site.root package = .directory entries
  listable : ∀ path, Below path → ¬Found site.root path .locked
  sources : ∀ path, Source site path →
    ∃ digest, Records manifest (fromUtf8Lossy (pathOctets path)) digest
  imports : contains shim "from otsclient.ots import main".toList
  interpreter : "#!".toList <+: (lines shim).head?.getD [] ∧
    contains ((lines shim).head?.getD []) (fromUtf8Lossy venv)

end Accepted

variable {sha256 : List UInt8 → Octets 32}

theorem firstSite_eq_ok_iff {entries : List (Option (Option Site))} {site : Site} :
    firstSite entries = .ok site ↔ ∃ before after,
      entries = before ++ some (some site) :: after ∧ ∀ entry ∈ before, entry = some none := by
  induction entries with
  | nil => simp [firstSite]
  | cons entry rest ih =>
    match entry with
    | none =>
      simp only [firstSite, reduceCtorEq, false_iff, not_exists, not_and]
      rintro (_ | ⟨first, before⟩) after hentries hbefore
      · cases hentries
      · have hfirst := hbefore first List.mem_cons_self
        rw [hfirst] at hentries
        cases hentries
    | some none =>
      rw [firstSite, ih]
      constructor
      · rintro ⟨before, after, rfl, hbefore⟩
        exact ⟨some none :: before, after, rfl, List.forall_mem_cons.mpr ⟨rfl, hbefore⟩⟩
      · rintro ⟨_ | ⟨first, before⟩, after, hentries, hbefore⟩
        · cases hentries
        · cases hentries
          exact ⟨before, after, rfl, (List.forall_mem_cons.mp hbefore).2⟩
    | some (some other) =>
      rw [firstSite, Except.ok.injEq]
      constructor
      · rintro rfl
        exact ⟨[], rest, rfl, by simp⟩
      · rintro ⟨_ | ⟨first, before⟩, after, hentries, hbefore⟩
        · cases hentries
          rfl
        · have hfirst := hbefore first List.mem_cons_self
          rw [hfirst] at hentries
          cases hentries

theorem siteOf_eq_ok_iff {install : Install} {site : Site} :
    siteOf install = .ok site ↔ ∃ before after,
      install.lib = some (before ++ some (some site) :: after) ∧
        ∀ entry ∈ before, entry = some none := by
  rw [siteOf, bind_eq_ok_iff]
  simp only [okOr_eq_ok_iff, firstSite_eq_ok_iff]
  constructor
  · rintro ⟨_, hlib, before, after, rfl, hbefore⟩
    exact ⟨before, after, hlib, hbefore⟩
  · rintro ⟨before, after, hlib, hbefore⟩
    exact ⟨_, hlib, before, after, rfl, hbefore⟩

theorem compareFile_eq_none_iff {site : Site} {entry : List Char × List Char} :
    compareFile sha256 site entry = none ↔
      ∃ octets, site.read entry.1 = some octets ∧ hex (sha256 octets).octets = entry.2 := by
  rw [compareFile]
  cases site.read entry.1 with
  | none => simp
  | some octets => simp

theorem examineEntryPoint_eq_nil_iff {venv shim : List Char} :
    examineEntryPoint venv shim = [] ↔ contains shim "from otsclient.ots import main".toList ∧
      "#!".toList <+: (lines shim).head?.getD [] ∧
        contains ((lines shim).head?.getD []) venv := by
  simp only [examineEntryPoint, List.append_eq_nil_iff, ite_eq_left_iff, List.cons_ne_self,
    imp_false, not_not]

/-- A manifest lists every path once. -/
theorem nodup_listedIn {manifest : List Char} {listed : Listed}
    (hlisted : listedIn manifest = .ok listed) : (listed.map Prod.fst).Nodup := by
  obtain ⟨-, rfl⟩ := listedIn_eq_ok_iff.mp hlisted
  exact (SortedMap.ordered_collected _).imp ne_of_lt

theorem fingerprintAgainst_eq_ok_iff {install : Install} {manifest : List Char} {count : ℕ} :
    fingerprintAgainst sha256 install manifest = .ok count ↔ ∃ venv site listed shim,
      install.venv = some venv ∧ siteOf install = .ok site ∧ listedIn manifest = .ok listed ∧
        listed ≠ [] ∧ install.executable.bind decodeUtf8 = some shim ∧
          (∀ entry ∈ listed, compareFile sha256 site entry = none) ∧
            packages.flatMap (walk listed site) = [] ∧
              examineEntryPoint (fromUtf8Lossy venv) shim = [] ∧ count = listed.length := by
  rw [fingerprintAgainst]
  simp only [bind_eq_ok_iff, okOr_eq_ok_iff, require_eq_ok_iff, pure_eq_ok, Except.ok.injEq,
    List.append_eq_nil_iff, List.filterMap_eq_nil_iff]
  constructor
  · rintro ⟨venv, hvenv, site, hsite, listed, hlisted, _, hsome, shim, hshim, _,
      ⟨⟨hfiles, hwalk⟩, hentry⟩, hcount⟩
    exact ⟨venv, site, listed, shim, hvenv, hsite, hlisted, hsome, hshim, hfiles, hwalk, hentry,
      hcount.symm⟩
  · rintro ⟨venv, site, listed, shim, hvenv, hsite, hlisted, hsome, hshim, hfiles, hwalk, hentry,
      hcount⟩
    exact ⟨venv, hvenv, site, hsite, listed, hlisted, (), hsome, shim, hshim, (),
      ⟨⟨hfiles, hwalk⟩, hentry⟩, hcount.symm⟩

/-- An install is accepted exactly when it matches the manifest, and what is returned is how many
paths the manifest records, which are some. -/
theorem fingerprint_exact (install : Install) (manifest : List Char) (count : ℕ) :
    fingerprintAgainst sha256 install manifest = .ok count ↔
      (∃ venv site shim, Matches sha256 install manifest venv site shim) ∧ 0 < count ∧
        ∃ paths : List (List Char), paths.Nodup ∧ paths.length = count ∧
          ∀ path, path ∈ paths ↔ ∃ digest, Records manifest path digest := by
  rw [fingerprintAgainst_eq_ok_iff]
  constructor
  · rintro ⟨venv, site, listed, shim, hvenv, hsite, hlisted, hsome, hshim, hfiles, hwalk, hentry,
      rfl⟩
    obtain ⟨hpackages, hlistable, hsources⟩ := flatMap_walk_eq_nil_iff.mp hwalk
    obtain ⟨himports, hinterpreter⟩ := examineEntryPoint_eq_nil_iff.mp hentry
    have hrecords (path digest : List Char) := @mem_listedIn_iff _ _ hlisted path digest
    refine ⟨⟨venv, site, shim, ?_⟩, List.length_pos_iff.mpr hsome, listed.map Prod.fst,
      nodup_listedIn hlisted, List.length_map _, fun path ↦ ?_⟩
    · refine ⟨hvenv, siteOf_eq_ok_iff.mp hsite, hshim, (listedIn_eq_ok_iff.mp hlisted).1,
        fun path digest hrecord ↦ ?_, hpackages, hlistable, fun path hsource ↦ ?_, himports,
        hinterpreter⟩
      · exact compareFile_eq_none_iff.mp (hfiles _ ((hrecords path digest).mpr hrecord))
      · obtain ⟨digest, hmem⟩ := hsources path hsource
        exact ⟨digest, (hrecords _ _).mp hmem⟩
    · simp only [List.mem_map, Prod.exists, exists_and_right, exists_eq_right, hrecords]
  · rintro ⟨⟨venv, site, shim, hmatches⟩, hpos, paths, hnodup, rfl, hpaths⟩
    have hlisted := listedIn_eq_ok_iff.mpr ⟨hmatches.wellFormed, rfl⟩
    have hrecords (path digest : List Char) := @mem_listedIn_iff _ _ hlisted path digest
    have hperm : (SortedMap.collected ((manifestLines manifest).map entryOf)).map Prod.fst
        |>.Perm paths := by
      refine (List.perm_ext_iff_of_nodup (nodup_listedIn hlisted) hnodup).mpr fun path ↦ ?_
      simp only [hpaths, List.mem_map, Prod.exists, exists_and_right, exists_eq_right, hrecords]
    have hlength := hperm.length_eq
    rw [List.length_map] at hlength
    refine ⟨venv, site, _, shim, hmatches.venv_eq, siteOf_eq_ok_iff.mpr hmatches.located, hlisted,
      ?_, hmatches.shim_eq, fun entry hentry ↦ ?_, ?_, ?_, hlength.symm⟩
    · rw [← List.length_pos_iff, hlength]
      exact hpos
    · obtain ⟨path, digest⟩ := entry
      exact compareFile_eq_none_iff.mpr
        (hmatches.files path digest ((hrecords path digest).mp hentry))
    · refine flatMap_walk_eq_nil_iff.mpr
        ⟨hmatches.packages, hmatches.listable, fun path hsource ↦ ?_⟩
      obtain ⟨digest, hrecord⟩ := hmatches.sources path hsource
      exact ⟨digest, (hrecords _ _).mpr hrecord⟩
    · exact examineEntryPoint_eq_nil_iff.mpr ⟨hmatches.imports, hmatches.interpreter⟩

/-! ### What a manifest fixes -/

/-- The contents a comparison hashes. -/
def hashed (install : Install) (manifest : List Char) : List (List UInt8) :=
  match siteOf install, listedIn manifest with
  | .ok site, .ok listed => listed.filterMap fun entry ↦ site.read entry.1
  | _, _ => []

theorem mem_hashed {install : Install} {manifest path digest : List Char} {site : Site}
    {listed : Listed} {octets : List UInt8} (hsite : siteOf install = .ok site)
    (hlisted : listedIn manifest = .ok listed) (hmem : (path, digest) ∈ listed)
    (hread : site.read path = some octets) :
    octets ∈ hashed install manifest := by
  rw [hashed, hsite, hlisted]
  exact List.mem_filterMap.mpr ⟨(path, digest), hmem, hread⟩

/-- Octets are determined by their hexadecimal digits. -/
theorem eq_of_hex_eq {digest other : Octets 32}
    (hsame : hex digest.octets = hex other.octets) : digest = other := by
  have hread := BatcherHandoff.fromHex_hex digest
  rw [hsame, BatcherHandoff.fromHex_hex other] at hread
  exact (Except.ok.inj hread).symm

/-- The paths of the sources are UTF-8, and what is read at the octets of a path below the packages
is listed there. -/
structure Legible (site : Site) : Prop where
  written : ∀ path, Source site path → ∃ text, pathOctets path = utf8 text
  listed : ∀ directory name text octets, Below directory →
    pathOctets (directory ++ [name]) = utf8 text → site.read text = some octets →
      ∃ node, Found site.root (directory ++ [name]) node ∧ node.isDir = false

/-- The text of the path of a source is recorded. -/
theorem Source.listed_text {site : Site} {listed : Listed} (hpinned : Pinned site listed)
    {path : List Name} {text : List Char} (hsource : Source site path)
    (htext : pathOctets path = utf8 text) : ∃ digest, (text, digest) ∈ listed := by
  have hlossy : fromUtf8Lossy (pathOctets path) = text := by
    rw [htext]
    exact fromUtf8Lossy_flatMap_utf8EncodeChar text
  rw [← hlossy]
  exact hpinned.sources path hsource

/-- A source that one of two accepted installs has is a source of the other. -/
theorem Source.of_pinned {site other : Site} {listed : Listed} (hpinned : Pinned site listed)
    (hlegible : Legible site) (hother : Legible other)
    (hfiles : ∀ entry ∈ listed, compareFile sha256 other entry = none) {path : List Name}
    (hsource : Source site path) : Source other path := by
  obtain ⟨text, htext⟩ := hlegible.written path hsource
  obtain ⟨digest, hmem⟩ := hsource.listed_text hpinned htext
  obtain ⟨octets, hread, -⟩ := compareFile_eq_none_iff.mp (hfiles _ hmem)
  obtain ⟨directory, name, rfl, hbelow, hpython⟩ := hsource.located
  exact ⟨⟨directory, name, rfl, hbelow, hpython⟩,
    hother.listed directory name text octets hbelow htext hread⟩

/-- Two installs that are accepted against one manifest have the same files at the paths it records
and the same Python sources with the same octets, or two contents that were hashed collide. -/
theorem pinned_sources_unique {first second : Install} {manifest : List Char} {count number : ℕ}
    (hlegible : ∀ site, siteOf first = .ok site → Legible site)
    (hother : ∀ site, siteOf second = .ok site → Legible site)
    (hfirst : fingerprintAgainst sha256 first manifest = .ok count)
    (hsecond : fingerprintAgainst sha256 second manifest = .ok number) :
    (∃ site other, siteOf first = .ok site ∧ siteOf second = .ok other ∧
        (∀ path digest, Records manifest path digest → site.read path = other.read path) ∧
          (∀ path, Source site path ↔ Source other path) ∧
            ∀ path text, Source site path → pathOctets path = utf8 text →
              site.read text = other.read text) ∨
      Collides sha256 (hashed first manifest ++ hashed second manifest) := by
  obtain ⟨-, site, listed, -, -, hsite, hlisted, -, -, hfiles, hwalk, -, -⟩ :=
    fingerprintAgainst_eq_ok_iff.mp hfirst
  obtain ⟨-, other, again, -, -, hothersite, hagain, -, -, hotherfiles, hotherwalk, -, -⟩ :=
    fingerprintAgainst_eq_ok_iff.mp hsecond
  obtain rfl : listed = again := Except.ok.inj (hlisted.symm.trans hagain)
  by_cases hcollides : Collides sha256 (hashed first manifest ++ hashed second manifest)
  · exact .inr hcollides
  have hpinned := flatMap_walk_eq_nil_iff.mp hwalk
  have hsame (path digest : List Char) (hmem : (path, digest) ∈ listed) :
      site.read path = other.read path := by
    obtain ⟨octets, hread, hdigest⟩ := compareFile_eq_none_iff.mp (hfiles _ hmem)
    obtain ⟨contents, hcontents, hagree⟩ := compareFile_eq_none_iff.mp (hotherfiles _ hmem)
    have heq := @eq_or_collides _ _ sha256 _ _ _
      (List.mem_append_left _ (mem_hashed hsite hlisted hmem hread))
      (List.mem_append_right _ (mem_hashed hothersite hlisted hmem hcontents))
      (eq_of_hex_eq (hdigest.trans hagree.symm))
    rw [hread, hcontents, heq.resolve_right hcollides]
  refine .inl ⟨site, other, hsite, hothersite, fun path digest hrecord ↦ ?_, fun path ↦ ⟨?_, ?_⟩,
    fun path text hsource htext ↦ ?_⟩
  · exact hsame path digest ((mem_listedIn_iff hlisted).mpr hrecord)
  · exact .of_pinned hpinned (hlegible site hsite) (hother other hothersite) hotherfiles
  · exact .of_pinned (flatMap_walk_eq_nil_iff.mp hotherwalk) (hother other hothersite)
      (hlegible site hsite) hfiles
  · obtain ⟨digest, hmem⟩ := hsource.listed_text hpinned htext
    exact hsame text digest hmem

/-! ### A small install -/

/-- A digest for the small installs. -/
def smallDigest (content : List UInt8) : Octets 32 :=
  ⟨(content ++ List.replicate 32 7).take 32, by simp⟩

def sourceName : Name :=
  ⟨utf8 "__init__.py".toList, by decide +kernel, by decide +kernel, by decide +kernel⟩

def cacheName : Name :=
  ⟨pycache, by decide +kernel, by decide +kernel, by decide +kernel⟩

/-- A name that is not UTF-8. -/
def strangeName : Name :=
  ⟨[0xff], by decide, by decide, by decide⟩

/-- The paths of the sources of a small install. -/
def smallPaths : List (List Name) :=
  [[stampsName, sourceName], [clientName, sourceName]]

/-- Two packages with one empty source each, and what else is next to the first. -/
def smallSite (others : List (Option (Name × Node))) : Site where
  read text := if utf8 text ∈ smallPaths.map pathOctets then some [] else none
  root name :=
    if name = stampsName then .directory (some (sourceName, .other) :: others)
    else if name = clientName then .directory [some (sourceName, .other)]
    else .other

/-- An install with a small site behind an entry of `lib` that has none. -/
def smallInstall (others : List (Option (Name × Node))) : Install where
  venv := some (utf8 "/v".toList)
  lib := some [some none, some (some (smallSite others)), none]
  executable := some (utf8 "#!/v/bin/python\nfrom otsclient.ots import main\n".toList)

/-- The manifest of the two sources. -/
def smallManifest : List Char :=
  hex (smallDigest []).octets ++ "  opentimestamps/__init__.py\n".toList ++
    (hex (smallDigest []).octets ++ "  otsclient/__init__.py\n".toList)

/-- Compiled code that cannot be listed, an entry that cannot be read, and a file of no interest. -/
def smallOthers : List (Option (Name × Node)) :=
  [some (cacheName, .locked), none, some (strangeName, .other)]

/-- Entries a walk has no business with. -/
def Ignored (others : List (Option (Name × Node))) : Prop :=
  ∀ entry, some entry ∈ others →
    entry.1.octets = pycache ∨ entry.2 = .other ∧ ¬isPython entry.1.octets

theorem ignored_smallOthers : Ignored smallOthers := by
  intro entry hentry
  simp only [smallOthers, List.mem_cons, Option.some.injEq, reduceCtorEq, List.not_mem_nil,
    false_or, or_false] at hentry
  rcases hentry with rfl | rfl
  · exact .inl rfl
  · exact .inr ⟨rfl, by decide +kernel⟩

theorem ignored_nil : Ignored [] :=
  fun _ hentry ↦ absurd hentry List.not_mem_nil

section Small

variable {others : List (Option (Name × Node))}

theorem smallSite_root {package : Name} (hpackage : package ∈ packages) :
    ∃ more, (smallSite others).root package = .directory (some (sourceName, .other) :: more) ∧
      (Ignored others → Ignored more) := by
  have hother : clientName ≠ stampsName := by decide +kernel
  rcases List.mem_pair.mp hpackage with rfl | rfl
  · exact ⟨others, by simp only [smallSite, if_true], id⟩
  · exact ⟨[], by simp only [smallSite, hother, if_false, if_true], fun _ ↦ ignored_nil⟩

/-- The only sources of a small install are the two it is made of. -/
theorem mem_smallPaths_of_source (hothers : Ignored others) {path : List Name}
    (hsource : Source (smallSite others) path) : path ∈ smallPaths := by
  obtain ⟨⟨_, name, rfl, ⟨package, hpackage, within, rfl, hcache⟩, hpython⟩, node, hfound, -⟩ :=
    hsource
  obtain ⟨more, hroot, hmore⟩ := smallSite_root hpackage
  obtain ⟨entries, hentries, hmem⟩ := (found_concat_iff (List.cons_ne_nil _ _)).mp hfound
  cases within with
  | nil =>
    rw [found_singleton_iff, hroot] at hentries
    cases hentries
    rcases List.mem_cons.mp hmem with hsame | hother
    · cases hsame
      rcases List.mem_pair.mp hpackage with rfl | rfl
      · exact List.mem_cons_self
      · exact List.mem_cons_of_mem _ List.mem_cons_self
    · rcases hmore hothers _ hother with hpycache | ⟨-, hplain⟩
      · rw [hpycache] at hpython
        exact absurd hpython (by decide +kernel)
      · exact absurd hpython hplain
  | cons first rest =>
    obtain ⟨listing, child, hlisting, hchild, hrest⟩ := hentries
    rw [hroot] at hlisting
    cases hlisting
    have hfile : child = .other := by
      rcases List.mem_cons.mp hchild with hsame | hother
      · cases hsame
        rfl
      · rcases hmore hothers _ hother with hpycache | ⟨hplain, -⟩
        · exact absurd hpycache (hcache first List.mem_cons_self)
        · exact hplain
    rw [hfile] at hrest
    cases rest with
    | nil => cases hrest
    | cons second rest =>
      obtain ⟨_, _, hdirectory, -⟩ := hrest
      cases hdirectory

theorem legible_smallSite (hothers : Ignored others) : Legible (smallSite others) := by
  constructor
  · intro path hsource
    rcases List.mem_pair.mp (mem_smallPaths_of_source hothers hsource) with rfl | rfl
    · exact ⟨"opentimestamps/__init__.py".toList, by decide +kernel⟩
    · exact ⟨"otsclient/__init__.py".toList, by decide +kernel⟩
  · intro directory name text octets _ htext hread
    obtain ⟨hmem, -⟩ := (Option.ite_none_right_eq_some.mp hread)
    obtain ⟨path, hpath, hsame⟩ := List.mem_map.mp hmem
    rw [← htext] at hsame
    have hsome : path ≠ [] := by
      rcases List.mem_pair.mp hpath with rfl | rfl <;> exact List.cons_ne_nil _ _
    rw [← eq_of_pathOctets_eq hsome (by simp) hsame]
    refine ⟨.other, ?_, rfl⟩
    have hfound (package : Name) (hpackage : package ∈ packages) :
        Found (smallSite others).root ([package] ++ [sourceName]) .other := by
      obtain ⟨more, hroot, -⟩ := @smallSite_root others package hpackage
      refine (found_concat_iff (List.cons_ne_nil _ _)).mpr ⟨_, hroot.symm, List.mem_cons_self⟩
    rcases List.mem_pair.mp hpath with rfl | rfl
    · exact hfound stampsName (by simp [packages])
    · exact hfound clientName (by simp [packages])

end Small

/-- One small install with entries of no interest and one without have the same sources. -/
theorem pinned_sources_unique_small :
    (∃ site other, siteOf (smallInstall smallOthers) = .ok site ∧
        siteOf (smallInstall []) = .ok other ∧
          (∀ path digest, Records smallManifest path digest →
            site.read path = other.read path) ∧
            (∀ path, Source site path ↔ Source other path) ∧
              ∀ path text, Source site path → pathOctets path = utf8 text →
                site.read text = other.read text) ∨
      Collides smallDigest (hashed (smallInstall smallOthers) smallManifest ++
        hashed (smallInstall []) smallManifest) := by
  refine pinned_sources_unique (fun site hsite ↦ ?_) (fun site hsite ↦ ?_)
    (by decide +kernel : fingerprintAgainst _ _ _ = .ok 2)
    (by decide +kernel : fingerprintAgainst _ _ _ = .ok 2)
  · cases hsite
    exact legible_smallSite ignored_smallOthers
  · cases hsite
    exact legible_smallSite ignored_nil

end AnchoredLog.Client.Fingerprint
