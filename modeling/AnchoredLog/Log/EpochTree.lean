import AnchoredLog.Core.Preimages
import AnchoredLog.Library.LinearProbing
import AnchoredLog.Library.MerkleTree
import Mathlib.Data.List.Sort

/-!
# The fixed-capacity epoch tree and its inclusion verifier

`certimining-log`'s `tree.rs` and `proof.rs`. An epoch is a complete tree of one height whatever
the number of its submissions. The submissions are sorted by identifier, each is placed at the
first free slot from a pseudorandom start, every slot left empty is filled with a pseudorandom
padding leaf, and the levels above the leaves are stored one after the other in one array, from
which a proof reads one sibling per level by offset. The verifier recomputes the path of a
claimed leaf and is pure.

`build`, `BuiltEpoch.proof`, `verify` and `verifyForHeight` are the source's functions, error
paths included. A loop of the source is a fold over the values it runs through, its body a
definition of its own; the loop over the levels recurses on the length of the current level.

Machine words of the platform's size are natural numbers here, since no quantity in this module
exceeds `2 ^ 17`; the checked shifts keep their widths.
-/

set_option autoImplicit false
set_option relaxedAutoImplicit false

namespace AnchoredLog.Log.EpochTree

open Core.Preimages Library.ByteCodec Library.Fallible Library.LinearProbing Library.MerkleTree

/-! ### Inclusion proofs and their verifier -/

/-- The least height of a tree (§1.8). -/
def minHeight : UInt8 :=
  4

/-- The greatest height of a tree (§1.8). -/
def maxHeight : UInt8 :=
  16

/-- The most siblings a proof can carry. -/
def maxSiblings : ℕ :=
  16

/-- The width of a machine word of the platform. -/
def usizeBits : ℕ :=
  64

/-- A vector of at most `maxSiblings` digests. -/
@[ext] structure Siblings where
  /-- The digests, lowest level first. -/
  digests : List Digest
  /-- They fit the vector. -/
  length_le : digests.length ≤ maxSiblings
deriving DecidableEq

/-- The empty vector. -/
def Siblings.new : Siblings :=
  ⟨[], Nat.zero_le _⟩

/-- The vector with one more digest, when there is room. -/
def Siblings.push (siblings : Siblings) (digest : Digest) : Option Siblings :=
  if hroom : (siblings.digests ++ [digest]).length ≤ maxSiblings then
    some ⟨siblings.digests ++ [digest], hroom⟩
  else
    none

/-- One inclusion proof (§2.3). -/
@[ext] structure InclusionProof where
  /-- The height of the tree this proof came from. -/
  height : UInt8
  /-- One sibling per level, from the leaf upward. -/
  siblings : Siblings
  /-- The slot the leaf sits in, whose bits are the path. -/
  slotIndex : UInt16
  /-- The epoch whose root this proof is against. -/
  epoch : UInt64
deriving DecidableEq

/-- One level of a verification: the side is taken from the lowest bit of the index. -/
def verifyLevel (hasher : Hasher) (state : Digest × ℕ) (sibling : Digest) :
    Result (Digest × ℕ) := do
  let (node, index) := state
  let (left, right) := if index &&& 1 = 0 then (node, sibling) else (sibling, node)
  let parent ← digest hasher (NodePreimage.mk left right)
  let index ← okOr (checkedShr 32 index 1) RegistryError.inclusionProofInvalid
  return (parent, index)

/-- Checks a proof against a root for a chain leaf (§2.3). -/
def verify (hasher : Hasher) (leaf : Digest) (proof : InclusionProof) (root : Digest) :
    Result Unit := do
  require (minHeight ≤ proof.height ∧ proof.height ≤ maxHeight) .inclusionProofInvalid
  require (proof.siblings.digests.length = proof.height.toNat) .inclusionProofInvalid
  let capacity ← okOr (checkedShl 32 1 proof.height.toNat) RegistryError.inclusionProofInvalid
  require (¬ capacity ≤ proof.slotIndex.toNat) .inclusionProofInvalid
  let node ← digest hasher (RealLeafPreimage.mk leaf)
  let (node, _) ← proof.siblings.digests.foldlM (verifyLevel hasher)
    (node, proof.slotIndex.toNat)
  require (node = root) .inclusionProofInvalid

/-- The same check for a caller that knows its log's configured height. -/
def verifyForHeight (hasher : Hasher) (leaf : Digest) (proof : InclusionProof) (root : Digest)
    (configuredHeight : UInt8) : Result Unit := do
  require (proof.height = configuredHeight) .inclusionProofInvalid
  verify hasher leaf proof root

/-! ### Slots -/

/-- The number of slots at a height in range. -/
def capacityOf (height : UInt8) : Result ℕ := do
  require (minHeight ≤ height ∧ height ≤ maxHeight) .malformedPayload
  okOr (checkedShl usizeBits 1 height.toNat) .arithmeticOverflow

/-- The seed as a little-endian integer reduced modulo the capacity: the low `height` bits of its
first two octets. -/
def slotFromSeed (seed : Digest) (height : UInt8) : Result UInt16 := do
  require (minHeight ≤ height ∧ height ≤ maxHeight) .malformedPayload
  let low ← okOr (Octets.slice? seed.octets 0 2) RegistryError.malformedPayload
  let value := UInt16.ofNat (leNat low.octets)
  if height = maxHeight then
    return value
  else
    let bound ← okOr (checkedShl 16 1 height.toNat) RegistryError.arithmeticOverflow
    require (1 ≤ bound) .arithmeticOverflow
    return value &&& UInt16.ofNat (bound - 1)

/-- The first free slot met at the listed steps from a start, wrapping at the capacity. -/
def probeSteps (slots : List (Option Digest)) (start capacity : ℕ) : List ℕ → Result UInt16
  | [] => throw .epochCapacityExceeded
  | step :: steps => do
    let index ← okOr (checkedRem (start + step) capacity) RegistryError.arithmeticOverflow
    let cell ← okOr slots[index]? RegistryError.arithmeticOverflow
    if cell = none then
      okOr (tryFromU16 index) RegistryError.arithmeticOverflow
    else
      probeSteps slots start capacity steps

/-- The first free slot at or after a start, stepping upward by one and wrapping. -/
def probe (slots : List (Option Digest)) (start : UInt16) (capacity : ℕ) : Result UInt16 :=
  probeSteps slots start.toNat capacity (List.range capacity)

/-! ### Building an epoch -/

/-- What one sealed epoch carries (§2.3). -/
structure BuiltEpoch where
  epoch : UInt64
  height : UInt8
  /-- The root the checkpoint publishes. -/
  root : Digest
  /-- Every slot's leaf digest, in slot order. -/
  leaves : List Digest
  /-- Submission identifier to slot, ascending by identifier. -/
  assignment : List (SubmissionId × UInt16)
  /-- The levels above the leaves, concatenated. -/
  nodes : List Digest
deriving DecidableEq

/-- The submissions in ascending order of their identifiers. -/
def ordered (real : List (SubmissionId × Digest)) : List (SubmissionId × Digest) :=
  real.insertionSort fun left right ↦ left.1 ≤ right.1

/-- Places one submission: its slot is probed from its seed, and its leaf is hashed into it. -/
def place (hasher : Hasher) (kE : Digest) (height : UInt8) (capacity : ℕ)
    (state : List (Option Digest) × List (SubmissionId × UInt16))
    (entry : SubmissionId × Digest) :
    Result (List (Option Digest) × List (SubmissionId × UInt16)) := do
  let (slots, assignment) := state
  let seed ← slotSeed hasher kE entry.1
  let start ← slotFromSeed seed height
  let slot ← probe slots start capacity
  let leaf ← digest hasher (RealLeafPreimage.mk entry.2)
  require (slot.toNat < slots.length) .arithmeticOverflow
  return (slots.set slot.toNat (some leaf), assignment ++ [(entry.1, slot)])

/-- The leaf of a slot: its own, or the padding leaf of its index. -/
def fill (hasher : Hasher) (kE : Digest) (cell : Option Digest × ℕ) : Result Digest :=
  match cell with
  | (some leaf, _) => return leaf
  | (none, index) => do
    let index ← okOr (tryFromU16 index) RegistryError.arithmeticOverflow
    let prfOutput ← paddingPrf hasher kE index
    digest hasher (PaddingPreimage.mk prfOutput)

/-- The parents of a level's digests, taken in chunks of two. -/
def parentsOf (hasher : Hasher) : List Digest → Result (List Digest)
  | [] => return []
  | [_] => throw .malformedPayload
  | left :: right :: rest => do
    let parent ← digest hasher (NodePreimage.mk left right)
    let parents ← parentsOf hasher rest
    return parent :: parents

theorem length_le_of_parentsOf {hasher : Hasher} {level parents : List Digest}
    (hparents : parentsOf hasher level = .ok parents) : 2 * parents.length ≤ level.length := by
  fun_induction parentsOf hasher level generalizing parents with
  | case1 =>
    obtain rfl : [] = parents := Except.ok.inj hparents
    simp
  | case2 => simp at hparents
  | case3 left right rest ih =>
    rw [digest_node, bind_ok, bind_eq_ok_iff] at hparents
    obtain ⟨above, habove, heq⟩ := hparents
    obtain rfl := Except.ok.inj heq
    have hrest := ih habove
    simp only [List.length_cons]
    omega

/-- The levels above a level, appended to those already stored, and the root. -/
def levelsFrom (hasher : Hasher) (nodes current : List Digest) :
    Result (List Digest × Digest) :=
  if 1 < current.length then
    match _hparents : parentsOf hasher current with
    | .ok parents => levelsFrom hasher (nodes ++ parents) parents
    | .error error => .error error
  else do
    let root ← okOr current[0]? .malformedPayload
    return (nodes, root)
termination_by current.length
decreasing_by
  have hhalf := length_le_of_parentsOf _hparents
  omega

/-- Every level above the leaves, concatenated, and the root (§1.4). -/
def levelsAbove (hasher : Hasher) (leaves : List Digest) : Result (List Digest × Digest) :=
  levelsFrom hasher [] leaves

/-- Builds one epoch under a master key (§2.3). -/
def build (hasher : Hasher) (epoch : UInt64) (height : UInt8) (key : Digest)
    (real : List (SubmissionId × Digest)) : Result BuiltEpoch := do
  let capacity ← capacityOf height
  require (¬ capacity < real.length) .epochCapacityExceeded
  let kE ← epochKey hasher key epoch
  require ((ordered real).IsChain fun left right ↦ ¬ left.1 = right.1) .malformedPayload
  let (slots, assignment) ← (ordered real).foldlM (place hasher kE height capacity)
    (List.replicate capacity none, [])
  let leaves ← slots.zipIdx.mapM (fill hasher kE)
  let (nodes, root) ← levelsAbove hasher leaves
  return {
    epoch := epoch
    height := height
    root := root
    leaves := leaves
    assignment := assignment
    nodes := nodes }

/-- Where a level begins among the stored levels. -/
def levelOffset (level capacity : ℕ) : Result ℕ := do
  require (1 ≤ level) .arithmeticOverflow
  require (level - 1 < 2 ^ 32) .arithmeticOverflow
  let remaining ← okOr (checkedShr usizeBits capacity (level - 1)) .arithmeticOverflow
  require (remaining ≤ capacity) .arithmeticOverflow
  return capacity - remaining

namespace BuiltEpoch

/-- One level of a proof: the sibling is read from the leaves or from the stored levels. -/
def proofLevel (self : BuiltEpoch) (capacity : ℕ) (state : Siblings × ℕ) (level : ℕ) :
    Result (Siblings × ℕ) := do
  let (siblings, index) := state
  let sibling := index ^^^ 1
  let found ←
    if level = 0 then
      pure self.leaves[sibling]?
    else do
      let offset ← levelOffset level capacity
      pure self.nodes[offset + sibling]?
  let digest ← okOr found RegistryError.inclusionProofInvalid
  let siblings ← okOr (siblings.push digest) RegistryError.inclusionProofInvalid
  let index ← okOr (checkedShr usizeBits index 1) RegistryError.arithmeticOverflow
  return (siblings, index)

/-- The inclusion proof for a submission this epoch holds (§2.3). -/
def proof (self : BuiltEpoch) (id : SubmissionId) : Result InclusionProof := do
  let entry ← okOr (self.assignment.find? fun entry ↦ entry.1 == id)
    RegistryError.submissionNotInEpoch
  let slot := entry.2
  let capacity := self.leaves.length
  let (siblings, _) ← (List.range self.height.toNat).foldlM (self.proofLevel capacity)
    (Siblings.new, slot.toNat)
  return {
    height := self.height
    siblings := siblings
    slotIndex := slot
    epoch := self.epoch }

end BuiltEpoch

end AnchoredLog.Log.EpochTree
