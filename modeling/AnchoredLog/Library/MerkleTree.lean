import AnchoredLog.Library.HashCollision
import Mathlib.Algebra.Order.Ring.Nat
import Mathlib.Data.Nat.Bitwise
import Mathlib.Tactic.Ring
import Mathlib.Algebra.Order.Group.Nat

/-!
# Complete binary hash trees, their paths and their binding

A level of digests is paired up by hashing a message made of each neighbouring pair (`pairUp`),
and a complete tree over `2 ^ height` leaves is `height` such steps. `subtreeRoot` is the digest
the steps end at, `siblingPath` the siblings met from one leaf upward, and `climb` what a reader
recomputes from a digest, a position and a list of siblings, the position's lowest bit deciding
the side first.

`climb_siblingPath` is completeness: from a leaf of the tree its own siblings climb to the root.
`climb_binds` is the converse for a climb of the tree's own height, with the siblings chosen by
an adversary: a climb that reaches the root started at the leaf of that position with the tree's
own siblings, or the messages hashed by the tree and by the climb collide. `climb_shallow` and
`climb_deep` treat climbs of any other length: a shorter one starts at an interior digest of the
tree, and a longer one passes through a leaf of the tree as one of its own interior digests.

`upperLevels` is the concatenation of all levels above the leaves, the order in which a builder
that keeps them in one array stores them, and `getElem?_upperLevels` locates each level in it.
-/

set_option autoImplicit false
set_option relaxedAutoImplicit false

namespace AnchoredLog.Library.MerkleTree

open HashCollision

variable {Message Digest : Type}

section Levels

variable (combine : Digest → Digest → Digest)

/-! ### Levels -/

/-- The level above a level: neighbours combined in pairs. -/
def pairUp : List Digest → List Digest
  | left :: right :: rest => combine left right :: pairUp rest
  | _ => []

/-- The level `count` steps above a level. -/
def levelAbove : ℕ → List Digest → List Digest
  | 0, level => level
  | count + 1, level => levelAbove count (pairUp combine level)

/-- All levels above a level, lowest first, concatenated. -/
def upperLevels : ℕ → List Digest → List Digest
  | 0, _ => []
  | height + 1, level => pairUp combine level ++ upperLevels height (pairUp combine level)

/-- The first digest of the level `height` steps above a level, which is the root when the level
holds `2 ^ height` digests. -/
def subtreeRoot (height : ℕ) (level : List Digest) : Option Digest :=
  (levelAbove combine height level)[0]?

/-- The position of the sibling: the same position with its lowest bit flipped. -/
def siblingIndex (index : ℕ) : ℕ :=
  if index % 2 = 0 then index + 1 else index - 1

/-- The siblings met from a position upward, one for each of `height` levels. -/
def siblingPath : ℕ → List Digest → ℕ → Option (List Digest)
  | 0, _, _ => some []
  | height + 1, level, index => do
    let sibling ← level[siblingIndex index]?
    let path ← siblingPath height (pairUp combine level) (index / 2)
    return sibling :: path

/-- The digest reached from a digest at a position by combining it with one sibling per level,
the lowest bit of the position deciding the side. -/
def climb : Digest → ℕ → List Digest → Digest
  | reached, _, [] => reached
  | reached, index, sibling :: siblings =>
    climb (if index % 2 = 0 then combine reached sibling else combine sibling reached)
      (index / 2) siblings

@[simp] theorem length_pairUp (level : List Digest) :
    (pairUp combine level).length = level.length / 2 := by
  fun_induction pairUp combine level with
  | case1 left right rest ih =>
    simp only [List.length_cons, ih]
    omega
  | case2 level hshort =>
    match level with
    | [] => simp
    | [_] => simp
    | left :: right :: rest => exact (hshort left right rest rfl).elim

theorem getElem?_pairUp (level : List Digest) (index : ℕ) :
    (pairUp combine level)[index]? = do
      let left ← level[2 * index]?
      let right ← level[2 * index + 1]?
      return combine left right := by
  fun_induction pairUp combine level generalizing index with
  | case1 left right rest ih =>
    cases index with
    | zero => rfl
    | succ index =>
      rw [List.getElem?_cons_succ, ih index]
      rfl
  | case2 level hshort =>
    match level with
    | [] => rfl
    | [_] => cases index <;> rfl
    | left :: right :: rest => exact (hshort left right rest rfl).elim

theorem length_pairUp_of_pow {height : ℕ} {level : List Digest}
    (hlength : level.length = 2 ^ (height + 1)) :
    (pairUp combine level).length = 2 ^ height := by
  rw [length_pairUp, hlength, pow_succ]
  omega

@[simp] theorem levelAbove_zero (level : List Digest) : levelAbove combine 0 level = level :=
  rfl

theorem levelAbove_add (first second : ℕ) (level : List Digest) :
    levelAbove combine (first + second) level =
      levelAbove combine second (levelAbove combine first level) := by
  induction first generalizing level with
  | zero => simp
  | succ first ih =>
    rw [Nat.add_right_comm]
    exact ih (pairUp combine level)

theorem length_levelAbove {count height : ℕ} {level : List Digest}
    (hlength : level.length = 2 ^ (count + height)) :
    (levelAbove combine count level).length = 2 ^ height := by
  induction count generalizing level with
  | zero => simpa using hlength
  | succ count ih =>
    exact ih (length_pairUp_of_pow combine (by rw [hlength]; congr 1; omega))

theorem subtreeRoot_succ (height : ℕ) (level : List Digest) :
    subtreeRoot combine (height + 1) level = subtreeRoot combine height (pairUp combine level) :=
  rfl

theorem subtreeRoot_add (first second : ℕ) (level : List Digest) :
    subtreeRoot combine (first + second) level =
      subtreeRoot combine second (levelAbove combine first level) := by
  rw [subtreeRoot, levelAbove_add, subtreeRoot]

theorem siblingIndex_lt {height index : ℕ} (hindex : index < 2 ^ (height + 1)) :
    siblingIndex index < 2 ^ (height + 1) := by
  rw [pow_succ] at hindex ⊢
  unfold siblingIndex
  split <;> omega

/-- The sibling's position differs from the position in its lowest bit only. -/
theorem siblingIndex_eq_xor (index : ℕ) : siblingIndex index = index ^^^ 1 := by
  rw [siblingIndex]
  split
  · next heven => exact (Nat.xor_one_of_even (Nat.even_iff.mpr heven)).symm
  · next hodd => exact (Nat.xor_one_of_odd (Nat.odd_iff.mpr (by omega))).symm

/-! ### Completeness -/

/-- A digest and its sibling combine to the digest above them, in whichever order they sit. -/
theorem getElem?_pairUp_half {level : List Digest} {index : ℕ} {digest sibling : Digest}
    (hdigest : level[index]? = some digest)
    (hsibling : level[siblingIndex index]? = some sibling) :
    (pairUp combine level)[index / 2]? =
      some (if index % 2 = 0 then combine digest sibling else combine sibling digest) := by
  rw [getElem?_pairUp]
  unfold siblingIndex at hsibling
  by_cases heven : index % 2 = 0
  · rw [if_pos heven] at hsibling ⊢
    rw [show 2 * (index / 2) = index by omega, hdigest, hsibling]
    rfl
  · rw [if_neg heven] at hsibling ⊢
    rw [show 2 * (index / 2) + 1 = index by omega, show 2 * (index / 2) = index - 1 by omega,
      hdigest, hsibling]
    rfl

/-- Completeness: every leaf of a complete tree has one sibling per level, and climbing with
them reaches the root. -/
theorem climb_siblingPath {height index : ℕ} {level : List Digest} {leaf : Digest}
    (hlength : level.length = 2 ^ height) (hleaf : level[index]? = some leaf) :
    ∃ path, siblingPath combine height level index = some path ∧ path.length = height ∧
      subtreeRoot combine height level = some (climb combine leaf index path) := by
  induction height generalizing level index leaf with
  | zero =>
    have hindex : index < 2 ^ 0 := by
      rw [← hlength]
      exact (List.getElem?_eq_some_iff.mp hleaf).1
    obtain rfl : index = 0 := by simpa using hindex
    exact ⟨[], rfl, rfl, hleaf⟩
  | succ height ih =>
    have hindex : index < 2 ^ (height + 1) := by
      rw [← hlength]
      exact (List.getElem?_eq_some_iff.mp hleaf).1
    have hsiblingIndex : siblingIndex index < level.length := by
      rw [hlength]
      exact siblingIndex_lt hindex
    obtain ⟨sibling, hsibling⟩ : ∃ sibling, level[siblingIndex index]? = some sibling :=
      ⟨_, List.getElem?_eq_getElem hsiblingIndex⟩
    obtain ⟨path, hpath, hpathLength, hroot⟩ :=
      ih (length_pairUp_of_pow combine hlength) (getElem?_pairUp_half combine hleaf hsibling)
    refine ⟨sibling :: path, ?_, by simp [hpathLength], ?_⟩
    · rw [siblingPath, hsibling, hpath]
      rfl
    · rw [subtreeRoot_succ, hroot]
      rfl

theorem climb_append (reached : Digest) (index : ℕ) (low high : List Digest) :
    climb combine reached index (low ++ high) =
      climb combine (climb combine reached index low) (index / 2 ^ low.length) high := by
  induction low generalizing reached index with
  | nil => simp [climb]
  | cons sibling low ih =>
    rw [List.cons_append, climb, ih, climb, List.length_cons, pow_succ', Nat.div_div_eq_div_mul]

/-! ### All levels in one array -/

/-- Where a level sits among all levels: the levels below level `count + 1` hold
`2 ^ height - 2 ^ (height - count)` digests. -/
theorem getElem?_upperLevels {count height position : ℕ} {level : List Digest}
    (hlength : level.length = 2 ^ height) (hcount : count < height)
    (hposition : position < 2 ^ (height - (count + 1))) :
    (upperLevels combine height level)[2 ^ height - 2 ^ (height - count) + position]? =
      (levelAbove combine (count + 1) level)[position]? := by
  induction count generalizing height level with
  | zero =>
    obtain ⟨below, rfl⟩ : ∃ below, height = below + 1 := ⟨height - 1, by omega⟩
    have hpaired := length_pairUp_of_pow combine hlength
    rw [upperLevels, Nat.sub_zero, Nat.sub_self, Nat.zero_add,
      List.getElem?_append_left (by simpa [hpaired] using hposition)]
    rfl
  | succ count ih =>
    obtain ⟨below, rfl⟩ : ∃ below, height = below + 1 := ⟨height - 1, by omega⟩
    have hpaired := length_pairUp_of_pow combine hlength
    have hle : 2 ^ (below - count) ≤ 2 ^ below := Nat.pow_le_pow_right (by norm_num) (by omega)
    have hshift : below + 1 - (count + 1) = below - count := by omega
    rw [upperLevels, hshift, List.getElem?_append_right (by rw [hpaired, pow_succ]; omega), hpaired,
      show 2 ^ (below + 1) - 2 ^ (below - count) + position - 2 ^ below =
        2 ^ below - 2 ^ (below - count) + position by rw [pow_succ]; omega,
      ih hpaired (by omega) (by simpa [Nat.succ_sub_succ_eq_sub] using hposition)]
    rfl

end Levels

/-! ### Binding -/

section Binding

variable (hash : Message → Digest) (pair : Digest → Digest → Message)

/-- The digest of a pair of digests. -/
def pairDigest (left right : Digest) : Digest :=
  hash (pair left right)

/-- The messages hashed to pair up one level. -/
def levelMessages : List Digest → List Message
  | left :: right :: rest => pair left right :: levelMessages rest
  | _ => []

/-- The messages hashed by a complete tree above its leaves. -/
def treeMessages : ℕ → List Digest → List Message
  | 0, _ => []
  | height + 1, level =>
    levelMessages pair level ++ treeMessages height (pairUp (pairDigest hash pair) level)

/-- The messages hashed by a climb. -/
def climbMessages : Digest → ℕ → List Digest → List Message
  | _, _, [] => []
  | reached, index, sibling :: siblings =>
    let message := if index % 2 = 0 then pair reached sibling else pair sibling reached
    message :: climbMessages (hash message) (index / 2) siblings

variable {hash pair}

theorem mem_levelMessages {level : List Digest} {index : ℕ} {left right : Digest}
    (hleft : level[2 * index]? = some left) (hright : level[2 * index + 1]? = some right) :
    pair left right ∈ levelMessages pair level := by
  fun_induction levelMessages pair level generalizing index with
  | case1 first second rest ih =>
    cases index with
    | zero =>
      obtain rfl : first = left := by simpa using hleft
      obtain rfl : second = right := by simpa using hright
      exact List.mem_cons_self
    | succ index =>
      have hleftRest : rest[2 * index]? = some left := by simpa [Nat.mul_add] using hleft
      have hrightRest : rest[2 * index + 1]? = some right := by simpa [Nat.mul_add] using hright
      exact List.mem_cons_of_mem _ (ih hleftRest hrightRest)
  | case2 level hshort =>
    match level with
    | [] => simp at hleft
    | [_] => simp at hright
    | first :: second :: rest => exact (hshort first second rest rfl).elim

theorem exists_pair_of_mem_levelMessages {level : List Digest} {message : Message}
    (hmessage : message ∈ levelMessages pair level) :
    ∃ left right, message = pair left right := by
  fun_induction levelMessages pair level with
  | case1 first second rest ih =>
    rcases List.mem_cons.mp hmessage with rfl | hrest
    · exact ⟨first, second, rfl⟩
    · exact ih hrest
  | case2 => simp at hmessage

/-- A tree hashes pair messages only. -/
theorem exists_pair_of_mem_treeMessages {height : ℕ} {level : List Digest} {message : Message}
    (hmessage : message ∈ treeMessages hash pair height level) :
    ∃ left right, message = pair left right := by
  induction height generalizing level with
  | zero => simp [treeMessages] at hmessage
  | succ height ih =>
    rcases List.mem_append.mp hmessage with hlevel | habove
    · exact exists_pair_of_mem_levelMessages hlevel
    · exact ih habove

/-- A climb hashes pair messages only. -/
theorem exists_pair_of_mem_climbMessages {reached : Digest} {index : ℕ} {siblings : List Digest}
    {message : Message} (hmessage : message ∈ climbMessages hash pair reached index siblings) :
    ∃ left right, message = pair left right := by
  induction siblings generalizing reached index with
  | nil => simp [climbMessages] at hmessage
  | cons sibling siblings ih =>
    rcases List.mem_cons.mp hmessage with rfl | hrest
    · by_cases heven : index % 2 = 0
      · exact ⟨reached, sibling, if_pos heven⟩
      · exact ⟨sibling, reached, if_neg heven⟩
    · exact ih hrest

theorem climb_cons (reached sibling : Digest) (index : ℕ) (siblings : List Digest) :
    climb (pairDigest hash pair) reached index (sibling :: siblings) =
      climb (pairDigest hash pair)
        (hash (if index % 2 = 0 then pair reached sibling else pair sibling reached))
        (index / 2) siblings := by
  rw [climb]
  by_cases heven : index % 2 = 0
  · simp only [heven, ↓reduceIte, pairDigest]
  · simp only [heven, ↓reduceIte, pairDigest]

/-- Every digest above the leaves is the hash of a message of the tree. -/
theorem exists_treeMessage {count height index : ℕ} {level : List Digest} {digest : Digest}
    (hcount : count < height)
    (hdigest : (levelAbove (pairDigest hash pair) (count + 1) level)[index]? = some digest) :
    ∃ message ∈ treeMessages hash pair height level, digest = hash message := by
  induction count generalizing height level with
  | zero =>
    obtain ⟨below, rfl⟩ : ∃ below, height = below + 1 := ⟨height - 1, by omega⟩
    have hpaired : (pairUp (pairDigest hash pair) level)[index]? = some digest := hdigest
    rw [getElem?_pairUp] at hpaired
    obtain ⟨left, hleft, right, hright, hcombined⟩ : ∃ left, level[2 * index]? = some left ∧
        ∃ right, level[2 * index + 1]? = some right ∧ pairDigest hash pair left right = digest := by
      simpa [Option.bind_eq_some_iff] using hpaired
    exact ⟨pair left right, List.mem_append_left _ (mem_levelMessages hleft hright),
      hcombined.symm⟩
  | succ count ih =>
    obtain ⟨below, rfl⟩ : ∃ below, height = below + 1 := ⟨height - 1, by omega⟩
    obtain ⟨message, hmessage, heq⟩ := ih (by omega : count < below) hdigest
    exact ⟨message, List.mem_append_right _ hmessage, heq⟩

/-- The messages of the levels above a level are messages of the whole tree. -/
theorem treeMessages_levelAbove_subset (count height : ℕ) (level : List Digest) :
    treeMessages hash pair height (levelAbove (pairDigest hash pair) count level) ⊆
      treeMessages hash pair (count + height) level := by
  induction count generalizing level with
  | zero => simp
  | succ count ih =>
    rw [Nat.add_right_comm]
    exact List.Subset.trans (ih (pairUp (pairDigest hash pair) level))
      (List.subset_append_right _ _)

/-- A climb that takes at least one step ends at the hash of a message it hashed. -/
theorem exists_climbMessage (reached : Digest) (index : ℕ) {siblings : List Digest}
    (hsiblings : siblings ≠ []) :
    ∃ message ∈ climbMessages hash pair reached index siblings,
      climb (pairDigest hash pair) reached index siblings = hash message := by
  induction siblings generalizing reached index with
  | nil => exact (hsiblings rfl).elim
  | cons sibling siblings ih =>
    rw [climb_cons]
    by_cases hlast : siblings = []
    · subst hlast
      exact ⟨_, List.mem_cons_self, rfl⟩
    · obtain ⟨message, hmessage, heq⟩ := ih
        (hash (if index % 2 = 0 then pair reached sibling else pair sibling reached)) (index / 2)
        hlast
      exact ⟨message, List.mem_cons_of_mem _ hmessage, heq⟩

theorem climbMessages_append (reached : Digest) (index : ℕ) (low high : List Digest) :
    climbMessages hash pair reached index (low ++ high) =
      climbMessages hash pair reached index low ++
        climbMessages hash pair (climb (pairDigest hash pair) reached index low)
          (index / 2 ^ low.length) high := by
  induction low generalizing reached index with
  | nil => simp [climb, climbMessages]
  | cons sibling low ih =>
    simp only [List.cons_append, climbMessages, climb_cons, ih, List.length_cons, pow_succ',
      Nat.div_div_eq_div_mul]

/-- One level of the binding argument: a message hashing to the digest above a position is made
of the digest at that position and of its sibling, or it collides with the tree's own. -/
theorem pair_of_getElem?_pairUp {transcript : List Message}
    (hpair : ∀ left right left' right', pair left right = pair left' right' →
      left = left' ∧ right = right')
    {level : List Digest} {index : ℕ} {reached sibling : Digest}
    (htree : levelMessages pair level ⊆ transcript)
    (hmessage : (if index % 2 = 0 then pair reached sibling else pair sibling reached) ∈ transcript)
    (habove : (pairUp (pairDigest hash pair) level)[index / 2]? =
      some (hash (if index % 2 = 0 then pair reached sibling else pair sibling reached))) :
    (level[index]? = some reached ∧ level[siblingIndex index]? = some sibling) ∨
      Collides hash transcript := by
  rw [getElem?_pairUp] at habove
  obtain ⟨left, hleft, right, hright, hdigest⟩ : ∃ left, level[2 * (index / 2)]? = some left ∧
      ∃ right, level[2 * (index / 2) + 1]? = some right ∧ hash (pair left right) =
        hash (if index % 2 = 0 then pair reached sibling else pair sibling reached) := by
    simpa [Option.bind_eq_some_iff, pairDigest] using habove
  have hmember := htree (mem_levelMessages hleft hright)
  rcases eq_or_collides hmember hmessage hdigest with hsame | hcollides
  · refine Or.inl ?_
    unfold siblingIndex
    by_cases heven : index % 2 = 0
    · rw [if_pos heven] at hsame ⊢
      obtain ⟨rfl, rfl⟩ := hpair _ _ _ _ hsame
      rw [show 2 * (index / 2) = index by omega] at hleft hright
      exact ⟨hleft, hright⟩
    · rw [if_neg heven] at hsame ⊢
      obtain ⟨rfl, rfl⟩ := hpair _ _ _ _ hsame
      rw [show 2 * (index / 2) + 1 = index by omega] at hright
      rw [show 2 * (index / 2) = index - 1 by omega] at hleft
      exact ⟨hright, hleft⟩
  · exact Or.inr hcollides

/-- Binding at the tree's own height: a climb of `height` steps that reaches the root started at
the leaf of its position and used the tree's own siblings, or the hashed messages collide.
Assumes: a pair message determines the pair. -/
theorem climb_binds {transcript : List Message}
    (hpair : ∀ left right left' right', pair left right = pair left' right' →
      left = left' ∧ right = right')
    {height index : ℕ} {level siblings : List Digest} {reached : Digest}
    (hindex : index < 2 ^ height) (hsiblings : siblings.length = height)
    (htree : treeMessages hash pair height level ⊆ transcript)
    (hclimb : climbMessages hash pair reached index siblings ⊆ transcript)
    (hroot : subtreeRoot (pairDigest hash pair) height level =
      some (climb (pairDigest hash pair) reached index siblings)) :
    (level[index]? = some reached ∧
        siblingPath (pairDigest hash pair) height level index = some siblings) ∨
      Collides hash transcript := by
  induction height generalizing level index reached siblings with
  | zero =>
    obtain rfl : siblings = [] := List.eq_nil_of_length_eq_zero hsiblings
    obtain rfl : index = 0 := by simpa using hindex
    exact Or.inl ⟨hroot, rfl⟩
  | succ height ih =>
    match siblings with
    | [] => simp at hsiblings
    | sibling :: siblings =>
      rw [climb_cons, subtreeRoot_succ] at hroot
      have hhalf : index / 2 < 2 ^ height := by
        rw [pow_succ] at hindex
        omega
      rcases ih hhalf (by simpa using hsiblings)
        (List.Subset.trans (List.subset_append_right _ _) htree)
        (List.Subset.trans (List.subset_cons_self _ _) hclimb) hroot with
        ⟨habove, hpath⟩ | hcollides
      · rcases pair_of_getElem?_pairUp hpair
          (List.Subset.trans (List.subset_append_left _ _) htree) (hclimb List.mem_cons_self)
          habove with ⟨hreached, hsibling⟩ | hcollides
        · refine Or.inl ⟨hreached, ?_⟩
          rw [siblingPath, hsibling, hpath]
          rfl
        · exact Or.inr hcollides
      · exact Or.inr hcollides

/-- A climb shorter than the tree that reaches the root started at the hash of one of the tree's
own pair messages, or the hashed messages collide. -/
theorem climb_shallow {transcript : List Message}
    (hpair : ∀ left right left' right', pair left right = pair left' right' →
      left = left' ∧ right = right')
    {height index : ℕ} {level siblings : List Digest} {reached : Digest}
    (hindex : index < 2 ^ siblings.length) (hshort : siblings.length < height)
    (htree : treeMessages hash pair height level ⊆ transcript)
    (hclimb : climbMessages hash pair reached index siblings ⊆ transcript)
    (hroot : subtreeRoot (pairDigest hash pair) height level =
      some (climb (pairDigest hash pair) reached index siblings)) :
    (∃ message ∈ treeMessages hash pair height level, reached = hash message) ∨
      Collides hash transcript := by
  obtain ⟨count, rfl⟩ : ∃ count, height = count + 1 + siblings.length :=
    ⟨height - siblings.length - 1, by omega⟩
  rw [subtreeRoot_add] at hroot
  rcases climb_binds hpair hindex rfl
    (List.Subset.trans (treeMessages_levelAbove_subset (count + 1) siblings.length level) htree)
    hclimb hroot with ⟨hreached, -⟩ | hcollides
  · exact Or.inl (exists_treeMessage (by omega) hreached)
  · exact Or.inr hcollides

/-- A climb longer than the tree that reaches the root passes through a leaf of the tree, which
is then the hash of one of the climb's own pair messages, or the hashed messages collide. -/
theorem climb_deep {transcript : List Message}
    (hpair : ∀ left right left' right', pair left right = pair left' right' →
      left = left' ∧ right = right')
    {height index : ℕ} {level siblings : List Digest} {reached : Digest}
    (hindex : index < 2 ^ siblings.length) (hlong : height < siblings.length)
    (htree : treeMessages hash pair height level ⊆ transcript)
    (hclimb : climbMessages hash pair reached index siblings ⊆ transcript)
    (hroot : subtreeRoot (pairDigest hash pair) height level =
      some (climb (pairDigest hash pair) reached index siblings)) :
    (∃ leaf ∈ level, ∃ message ∈ climbMessages hash pair reached index siblings,
        leaf = hash message) ∨
      Collides hash transcript := by
  obtain ⟨low, high, rfl, hhigh⟩ : ∃ low high, siblings = low ++ high ∧ high.length = height :=
    ⟨siblings.take (siblings.length - height), siblings.drop (siblings.length - height),
      (List.take_append_drop _ _).symm, by rw [List.length_drop]; omega⟩
  rw [List.length_append, hhigh] at hlong hindex
  have hlow : low ≠ [] := by
    rintro rfl
    simp at hlong
  rw [climbMessages_append] at hclimb
  rw [climb_append] at hroot
  have hhalf : index / 2 ^ low.length < 2 ^ height := by
    rw [pow_add] at hindex
    exact Nat.div_lt_of_lt_mul hindex
  rcases climb_binds hpair hhalf hhigh htree
    (List.Subset.trans (List.subset_append_right _ _) hclimb) hroot with ⟨hreached, -⟩ | hcollides
  · obtain ⟨message, hmessage, heq⟩ : ∃ message ∈ climbMessages hash pair reached index low,
        climb (pairDigest hash pair) reached index low = hash message :=
      exists_climbMessage reached index hlow
    refine Or.inl ⟨_, List.mem_of_getElem? hreached, message, ?_, heq⟩
    rw [climbMessages_append]
    exact List.mem_append_left _ hmessage
  · exact Or.inr hcollides

end Binding

end AnchoredLog.Library.MerkleTree
