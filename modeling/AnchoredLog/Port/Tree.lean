import AnchoredLog.Port.Primitives
import Mathlib.Data.List.Sort

/-!
# The TypeScript epoch tree

`tree.ts`: the pseudorandom uses, slot assignment with linear probing, padding leaves, the
complete-tree build and the inclusion verifier of the port. Where the Rust builder keeps all levels
in one array and reads siblings by offset, the port keeps the leaves alone and rebuilds the levels
for each proof. Its probe walks the slots with a step counter of its own.

Heights, slots and epochs a caller passes in are integers, and the port's range checks on them are
kept. A read past the end of a level is JavaScript's `undefined`, which the preimage writer then
reads through: that is a `TypeError` here.
-/

set_option autoImplicit false
set_option relaxedAutoImplicit false

namespace AnchoredLog.Port.Tree

open Core.Preimages Library.ByteCodec Library.Fallible Primitives

/-! ### Constants, shapes and heights -/

/-- `USE_EPOCH_KEY`. -/
def useEpochKey : UInt8 :=
  0x01

/-- `USE_SLOT`. -/
def useSlot : UInt8 :=
  0x02

/-- `USE_PADDING`. -/
def usePadding : UInt8 :=
  0x03

/-- `MIN_HEIGHT`. -/
def minHeight : ℤ :=
  4

/-- `MAX_HEIGHT`. -/
def maxHeight : ℤ :=
  16

/-- One submission. -/
structure Submission where
  submissionId : List UInt8
  leaf : List UInt8

/-- A submission with the slot it was assigned. -/
structure Assigned where
  submissionId : List UInt8
  slot : ℕ
  leaf : List UInt8

/-- The public part of an assignment. -/
structure AssignmentEntry where
  submissionId : List UInt8
  slot : ℕ

structure InclusionProof where
  height : ℤ
  siblings : List (List UInt8)
  slotIndex : ℤ
  epoch : ℤ

structure BuiltEpoch where
  epoch : ℤ
  height : ℤ
  root : List UInt8
  leaves : List (List UInt8)
  assignment : List AssignmentEntry

/-- `1 << height` on 32-bit integers. -/
def capacityOf (height : ℤ) : ℤ :=
  ((1 <<< (height % 32).toNat : ℕ) : ℤ).bmod (2 ^ 32)

def assertHeight (height : ℤ) : Thrown Unit :=
  orFail (¬ (height < minHeight ∨ maxHeight < height)) .MalformedPayload
    ("tree height " ++ toString height ++ " is outside [4, 16]")

/-- The error of a read through `undefined`. -/
def undefinedRead : Failure :=
  .typeError "Cannot read properties of undefined"

/-! ### The pseudorandom function and the digests -/

section Digests

variable (hasher : Hasher)

def prf (k x : List UInt8) : Thrown (List UInt8) := do
  let preimage ← prfPreimage k x
  return keccak256 hasher preimage

def epochKey (masterKey : List UInt8) (epoch : ℤ) : Thrown (List UInt8) := do
  let encoded ← u64le epoch
  prf hasher masterKey (concat [[useEpochKey], encoded])

def slotSeed (epochKeyDigest submissionId : List UInt8) : Thrown (List UInt8) := do
  orFail (submissionId.length = 16) .MalformedPayload
    ("submission_id must be 16 bytes, got " ++ toString submissionId.length)
  prf hasher epochKeyDigest (concat [[useSlot], submissionId])

/-- The seed read as a little-endian integer and reduced modulo the capacity. -/
def slotFromSeed (seed : List UInt8) (height : ℤ) : Thrown ℕ := do
  assertHeight height
  let value ← readU16le seed 0
  return value &&& (capacityOf height - 1).toNat

def paddingLeaf (epochKeyDigest : List UInt8) (slotIndex : ℕ) : Thrown (List UInt8) := do
  let encoded ← u16le slotIndex
  let output ← prf hasher epochKeyDigest (concat [[usePadding], encoded])
  let preimage ← paddingLeafPreimage output
  return keccak256 hasher preimage

def realLeaf (chainLeaf : List UInt8) : Thrown (List UInt8) := do
  let preimage ← realLeafPreimage chainLeaf
  return keccak256 hasher preimage

def internalNode (left right : List UInt8) : Thrown (List UInt8) := do
  let preimage ← nodePreimage left right
  return keccak256 hasher preimage

/-! ### Slots -/

/-- The probing loop: upward by one from a slot while it is taken, counting the steps. -/
def probeLoop (taken : List Bool) (capacity slot steps : ℕ) : Thrown ℕ :=
  if taken[slot]?.getD false then
    if capacity < steps + 1 then
      throw (.registryFailure .EpochCapacityExceeded "no free slot")
    else
      probeLoop taken capacity ((slot + 1) % capacity) (steps + 1)
  else
    return slot
termination_by capacity - steps

/-- Assigns one submission. -/
def assignSlot (epochKeyDigest : List UInt8) (height : ℤ) (capacity : ℕ)
    (state : List Bool × List Assigned) (entry : Submission) :
    Thrown (List Bool × List Assigned) := do
  let (taken, out) := state
  let seed ← slotSeed hasher epochKeyDigest entry.submissionId
  let start ← slotFromSeed seed height
  let slot ← probeLoop taken capacity start 0
  return (taken.set slot true, out ++ [⟨entry.submissionId, slot, entry.leaf⟩])

/-- The submissions sorted by identifier. -/
def sortSubmissions (real : List Submission) : List Submission :=
  real.insertionSort fun a b ↦ compareBytes a.submissionId b.submissionId ≤ 0

/-- Slot assignment in ascending order of identifiers. -/
def assignSlots (epochKeyDigest : List UInt8) (height : ℤ) (real : List Submission) :
    Thrown (List Assigned) := do
  assertHeight height
  let capacity := (capacityOf height).toNat
  orFail (¬ capacity < real.length) .EpochCapacityExceeded
    (toString real.length ++ " real submissions into " ++ toString capacity ++ " slots")
  let ordered := sortSubmissions real
  orFail (ordered.IsChain fun a b ↦ ¬ compareBytes a.submissionId b.submissionId = 0)
    .MalformedPayload "two submissions carry the same identifier in one epoch"
  let (_, out) ← ordered.foldlM (assignSlot hasher epochKeyDigest height capacity)
    (List.replicate capacity false, [])
  return out

/-! ### The tree -/

/-- The level above a level. -/
def nextLevel : List (List UInt8) → Thrown (List (List UInt8))
  | [] => return []
  | [_] => throw undefinedRead
  | left :: right :: rest => do
    let node ← internalNode hasher left right
    let next ← nextLevel rest
    return node :: next

theorem length_le_of_nextLevel {level next : List (List UInt8)}
    (hnext : nextLevel hasher level = .ok next) : 2 * next.length ≤ level.length := by
  fun_induction nextLevel hasher level generalizing next with
  | case1 =>
    obtain rfl : [] = next := Except.ok.inj hnext
    simp
  | case2 => simp at hnext
  | case3 left right rest ih =>
    rw [bind_eq_ok_iff] at hnext
    obtain ⟨node, -, hnext⟩ := hnext
    rw [bind_eq_ok_iff] at hnext
    obtain ⟨above, habove, heq⟩ := hnext
    obtain rfl := Except.ok.inj heq
    have hrest := ih habove
    simp only [List.length_cons]
    omega

/-- The root of the complete tree over a level. -/
def rootOf (level : List (List UInt8)) : Thrown (List UInt8) :=
  if 1 < level.length then
    match _hnext : nextLevel hasher level with
    | .ok next => rootOf next
    | .error failure => .error failure
  else
    okOr level[0]? undefinedRead
termination_by level.length
decreasing_by
  have hhalf := length_le_of_nextLevel hasher _hnext
  omega

/-- Writes a real leaf into its slot. -/
def writeLeaf (leaves : List (Option (List UInt8))) (a : Assigned) :
    Thrown (List (Option (List UInt8))) := do
  let leaf ← realLeaf hasher a.leaf
  return leaves.set a.slot (some leaf)

/-- The leaf of a slot, the padding leaf of its index when none was written. -/
def fillLeaf (epochKeyDigest : List UInt8) (cell : Option (List UInt8) × ℕ) :
    Thrown (List UInt8) :=
  match cell with
  | (some leaf, _) => return leaf
  | (none, index) => paddingLeaf hasher epochKeyDigest index

/-- Builds one epoch under a master key. -/
def buildEpoch (epoch height : ℤ) (masterKey : List UInt8) (real : List Submission) :
    Thrown BuiltEpoch := do
  assertHeight height
  let ke ← epochKey hasher masterKey epoch
  let assigned ← assignSlots hasher ke height real
  let capacity := (capacityOf height).toNat
  let written ← assigned.foldlM (writeLeaf hasher) (List.replicate capacity none)
  let leaves ← written.zipIdx.mapM (fillLeaf hasher ke)
  let root ← rootOf hasher leaves
  return {
    epoch := epoch
    height := height
    root := root
    leaves := leaves
    assignment := (assigned.map fun a ↦ ⟨a.submissionId, a.slot⟩).insertionSort
      fun a b : AssignmentEntry ↦ compareBytes a.submissionId b.submissionId ≤ 0 }

/-! ### Proofs and their verifier -/

/-- The siblings from a level upward. -/
def siblingsFrom (level : List (List UInt8)) (index : ℕ) : Thrown (List (List UInt8)) :=
  if 1 < level.length then do
    let siblingIndex := if index % 2 = 0 then index + 1 else index - 1
    let sibling ← okOr level[siblingIndex]? undefinedRead
    match _hnext : nextLevel hasher level with
    | .ok next => do
      let siblings ← siblingsFrom next (index / 2)
      return sibling :: siblings
    | .error failure => .error failure
  else
    return []
termination_by level.length
decreasing_by
  have hhalf := length_le_of_nextLevel hasher _hnext
  omega

/-- The inclusion proof for a submission the epoch holds. -/
def proofFor (built : BuiltEpoch) (submissionId : List UInt8) : Thrown InclusionProof := do
  let entry ← okOr (built.assignment.find? fun a ↦ bytesEqual a.submissionId submissionId)
    (Failure.registryFailure .SubmissionNotInEpoch "this epoch holds no such submission")
  let siblings ← siblingsFrom hasher built.leaves entry.slot
  return {
    height := built.height
    siblings := siblings
    slotIndex := entry.slot
    epoch := built.epoch }

/-- One level of a verification. -/
def verifyLevel (slotIndex : ℕ) (node : List UInt8) (cell : List UInt8 × ℕ) :
    Thrown (List UInt8) := do
  let (sibling, level) := cell
  orFail (sibling.length = 32) .InclusionProofInvalid
    ("sibling at level " ++ toString level ++ " is not 32 bytes")
  if (slotIndex >>> level) &&& 1 = 0 then
    internalNode hasher node sibling
  else
    internalNode hasher sibling node

/-- Checks a proof against a root for a chain leaf. -/
def verifyInclusion (leaf : List UInt8) (proof : InclusionProof) (root : List UInt8) :
    Thrown Unit := do
  orFail (¬ (proof.height < minHeight ∨ maxHeight < proof.height)) .InclusionProofInvalid
    ("proof height " ++ toString proof.height ++ " is outside §1.8's [4, 16]")
  orFail ((proof.siblings.length : ℤ) = proof.height) .InclusionProofInvalid
    (toString proof.siblings.length ++ " siblings for height " ++ toString proof.height)
  orFail (¬ (proof.slotIndex < 0 ∨ capacityOf proof.height ≤ proof.slotIndex))
    .InclusionProofInvalid ("slot_index " ++ toString proof.slotIndex ++ " is outside the tree")
  let node ← realLeaf hasher leaf
  let node ← proof.siblings.zipIdx.foldlM (verifyLevel hasher proof.slotIndex.toNat) node
  orFail (bytesEqual node root) .InclusionProofInvalid "the path does not reach the root"

/-- The same check for a caller that knows its log's configured height. -/
def verifyInclusionForHeight (leaf : List UInt8) (proof : InclusionProof) (root : List UInt8)
    (configuredHeight : ℤ) : Thrown Unit := do
  orFail (proof.height = configuredHeight) .InclusionProofInvalid
    ("proof height " ++ toString proof.height ++ " is not the log's " ++
      toString configuredHeight)
  verifyInclusion hasher leaf proof root

end Digests

end AnchoredLog.Port.Tree
