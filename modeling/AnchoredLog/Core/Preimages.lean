import AnchoredLog.Library.ByteCodec
import AnchoredLog.Library.Fallible

/-!
# The engine's primitives and its domain-tagged preimages

`certimining-core` in its lowest layer: the error space with its stable codes, the hasher, verifier
and signer a caller names, and the writers every digest is built from. A preimage is one domain
tag followed by fixed-width little-endian fields; a writer stages its fields in a buffer of its
own and hands them to the caller's buffer in one write, so a refusal leaves no fragment behind.

The writers with a fixed layout are one construction, `staged` applied to a list of fields, and
`digest_of_staged` says once that such a preimage is never refused and that its digest is the
hash of its concatenated fields. The `…_fields_injective` lemmas recover every field from the
concatenation, and `ne_of_tag_ne` keeps preimages under different tags apart.

The hash function, the signature scheme and the signer are parameters. A hasher is a function of
the concatenation of its parts. A verifier answers `0x07` exactly when the signature does not
verify. A signer may fail with any error, and nothing is assumed of what it returns.
-/

set_option autoImplicit false
set_option relaxedAutoImplicit false

namespace AnchoredLog.Core.Preimages

open Library.ByteCodec Library.Fallible

/-! ### Errors, digests and the parties a caller names -/

/-- The engine's error codes (§2.1). -/
inductive RegistryError
  | headMismatch
  | sequenceOutOfOrder
  | malformedPayload
  | attestationMissing
  | attestationInvalid
  | attestationKeyMismatch
  | categorySequenceUnsupported
  | nonMonotonicEffectiveAt
  | domainTagMismatch
  | recordTooLarge
  | epochOutOfOrder
  | checkpointAlreadyWritten
  | unsupportedSchemaVersion
  | arithmeticOverflow
  | canonicalizationFailed
  | epochCapacityExceeded
  | inclusionProofInvalid
  | mergeDelayExceeded
  | receiptAlreadyAttached
  | submissionNotInEpoch
  | promisePolicyInvalid
deriving DecidableEq, Repr

/-- The stable numeric code of an error. -/
def RegistryError.code : RegistryError → UInt16
  | .headMismatch => 0x03
  | .sequenceOutOfOrder => 0x04
  | .malformedPayload => 0x05
  | .attestationMissing => 0x06
  | .attestationInvalid => 0x07
  | .attestationKeyMismatch => 0x08
  | .categorySequenceUnsupported => 0x09
  | .nonMonotonicEffectiveAt => 0x0A
  | .domainTagMismatch => 0x0B
  | .recordTooLarge => 0x0C
  | .epochOutOfOrder => 0x0D
  | .checkpointAlreadyWritten => 0x0E
  | .unsupportedSchemaVersion => 0x0F
  | .arithmeticOverflow => 0x10
  | .canonicalizationFailed => 0x11
  | .epochCapacityExceeded => 0x12
  | .inclusionProofInvalid => 0x13
  | .mergeDelayExceeded => 0x14
  | .receiptAlreadyAttached => 0x15
  | .submissionNotInEpoch => 0x16
  | .promisePolicyInvalid => 0x17

/-- The result of a fallible operation of the engine. -/
abbrev Result (Value : Type) : Type :=
  Except RegistryError Value

/-- A 32-byte digest. -/
abbrev Digest : Type :=
  Octets 32

/-- An Ed25519 public key. -/
abbrev PublicKey : Type :=
  Octets 32

/-- An Ed25519 signature. -/
abbrev Signature : Type :=
  Octets 64

/-- A submission's identifier. -/
abbrev SubmissionId : Type :=
  Octets 16

/-- A hash function, over the concatenation of its parts. -/
structure Hasher where
  /-- The digest of one message. -/
  hash : List UInt8 → Digest

/-- The digest of the concatenation of several parts. -/
def Hasher.hashv (hasher : Hasher) (parts : List (List UInt8)) : Digest :=
  hasher.hash parts.flatten

/-- A signature scheme, as a verifier sees it. -/
structure Verifier where
  /-- Whether a signature by a key over a message is valid. -/
  valid : PublicKey → List UInt8 → Signature → Bool

/-- Nothing when the signature is valid, and `0x07` otherwise. -/
def Verifier.verify (verifier : Verifier) (publicKey : PublicKey) (message : List UInt8)
    (signature : Signature) : Result Unit :=
  require (verifier.valid publicKey message signature = true) .attestationInvalid

/-- A party that signs, which may fail. -/
structure Signer where
  /-- The public half of its key. -/
  publicKey : PublicKey
  /-- A signature over a message, or a failure. -/
  sign : List UInt8 → Result Signature

/-- A hasher that can be evaluated: the message as a little-endian number, reduced modulo the
largest prime below `2 ^ 256`. -/
def residueHasher : Hasher where
  hash := fun message ↦ leOctets 32 (leNat message % (2 ^ 256 - 189))

/-- A verifier that accepts every signature. -/
def permissiveVerifier : Verifier where
  valid := fun _ _ _ ↦ true

/-! ### Domain tags -/

/-- The octets of an ASCII text. -/
def ascii (text : List Char) : List UInt8 :=
  text.map fun character ↦ UInt8.ofNat character.toNat

def tagLeaf : Octets 8 :=
  ⟨ascii ['C', 'M', 'v', '1', 'L', 'E', 'A', 'F'], rfl⟩

/-- The tag over both head preimages, the genesis head and each step. -/
def tagHead : Octets 8 :=
  ⟨ascii ['C', 'M', 'v', '1', 'H', 'E', 'A', 'D'], rfl⟩

/-- The tag over a real leaf as it enters the epoch tree. -/
def tagMtl0 : Octets 8 :=
  ⟨ascii ['C', 'M', 'v', '1', 'M', 'T', 'L', '0'], rfl⟩

/-- The tag over an internal node of the epoch tree. -/
def tagMtn1 : Octets 8 :=
  ⟨ascii ['C', 'M', 'v', '1', 'M', 'T', 'N', '1'], rfl⟩

/-- The tag over a padding leaf. -/
def tagPad : Octets 8 :=
  ⟨ascii ['C', 'M', 'v', '1', 'P', 'A', 'D', 'D'], rfl⟩

/-- The tag over a signed inclusion promise. -/
def tagSpi : Octets 8 :=
  ⟨ascii ['C', 'M', 'v', '1', 'S', 'P', 'I', '0'], rfl⟩

/-- The tag inside the pseudorandom function. -/
def tagPrf : Octets 8 :=
  ⟨ascii ['C', 'M', 'v', '1', 'P', 'R', 'F', '0'], rfl⟩

/-- The tag of the asset commitment. -/
def tagAsset : Octets 8 :=
  ⟨ascii ['C', 'M', 'v', '1', 'A', 'S', 'S', 'T'], rfl⟩

/-- The tag over the digest of a receipt. -/
def tagRcpt : Octets 8 :=
  ⟨ascii ['C', 'M', 'v', '1', 'R', 'C', 'P', 'T'], rfl⟩

/-- The tag over the batcher's hand-off to the worker. -/
def tagHoff : Octets 8 :=
  ⟨ascii ['C', 'M', 'o', 'p', 's', 'H', 'O', 'F'], rfl⟩

/-! ### The sink and the staged write -/

/-- The sink's capacity. -/
def maxPreimageLen : ℕ :=
  256

/-- A buffer that refuses to grow past `maxPreimageLen`. -/
@[ext] structure PreimageBuf where
  /-- The octets written so far. -/
  octets : List UInt8
  /-- They fit the buffer. -/
  length_le : octets.length ≤ maxPreimageLen

/-- An empty buffer. -/
def PreimageBuf.new : PreimageBuf :=
  ⟨[], Nat.zero_le _⟩

/-- Appends octets in full, or refuses with `0x0C` and changes nothing. -/
def PreimageBuf.write (buffer : PreimageBuf) (octets : List UInt8) : Result PreimageBuf :=
  if hfits : (buffer.octets ++ octets).length ≤ maxPreimageLen then
    .ok ⟨buffer.octets ++ octets, hfits⟩
  else
    .error .recordTooLarge

/-- Builds a preimage field by field in a buffer of its own, then hands it over in one write. -/
def staged (out : PreimageBuf) (fields : List (List UInt8)) : Result PreimageBuf := do
  let preimage ← fields.foldlM PreimageBuf.write PreimageBuf.new
  out.write preimage.octets

/-- A preimage: how it is written, domain tag first. -/
class Preimage (Value : Type) where
  /-- Writes the whole preimage, tag included. -/
  writePreimage : Value → PreimageBuf → Result PreimageBuf

/-- The hash of a preimage under a named hasher. -/
def digest {Value : Type} [Preimage Value] (hasher : Hasher) (preimage : Value) :
    Result Digest := do
  let buffer ← Preimage.writePreimage preimage PreimageBuf.new
  return hasher.hashv [buffer.octets]

theorem write_of_le {buffer : PreimageBuf} {octets : List UInt8}
    (hfits : (buffer.octets ++ octets).length ≤ maxPreimageLen) :
    buffer.write octets = .ok ⟨buffer.octets ++ octets, hfits⟩ :=
  dif_pos hfits

theorem foldlM_write_of_le (buffer : PreimageBuf) (fields : List (List UInt8))
    (hfits : (buffer.octets ++ fields.flatten).length ≤ maxPreimageLen) :
    fields.foldlM PreimageBuf.write buffer = .ok ⟨buffer.octets ++ fields.flatten, hfits⟩ := by
  induction fields generalizing buffer with
  | nil => simp
  | cons field fields ih =>
    have hfield : (buffer.octets ++ field).length ≤ maxPreimageLen := by
      simp only [List.flatten_cons, List.length_append] at hfits ⊢
      omega
    rw [List.foldlM_cons, write_of_le hfield, bind_ok, ih]
    · simp
    · simpa using hfits

/-- A staged write of fields that fit is never refused. -/
theorem staged_new_of_le {fields : List (List UInt8)}
    (hfits : fields.flatten.length ≤ maxPreimageLen) :
    staged PreimageBuf.new fields = .ok ⟨fields.flatten, hfits⟩ := by
  rw [staged, foldlM_write_of_le _ _ (by simpa [PreimageBuf.new] using hfits), bind_ok,
    write_of_le (by simpa [PreimageBuf.new] using hfits)]
  simp [PreimageBuf.new]

/-- The digest of a preimage whose writer stages fields that fit is the hash of those fields. -/
theorem digest_of_staged {Value : Type} [Preimage Value] (hasher : Hasher) (preimage : Value)
    {fields : List (List UInt8)}
    (hwrites : Preimage.writePreimage preimage PreimageBuf.new = staged PreimageBuf.new fields)
    (hfits : fields.flatten.length ≤ maxPreimageLen) :
    digest hasher preimage = .ok (hasher.hash fields.flatten) := by
  rw [digest, hwrites, staged_new_of_le hfits]
  simp [Hasher.hashv]

/-! ### The asset commitment's preimage -/

/-- The longest canonical tenure identifier. -/
def maxTenureLen : ℕ :=
  64

/-- The octet is an ASCII capital letter or digit. -/
def isCapitalOrDigit (octet : UInt8) : Bool :=
  (0x41 ≤ octet && octet ≤ 0x5a) || (0x30 ≤ octet && octet ≤ 0x39)

/-- A tenure identifier of 1 to 64 octets, each a capital letter or a digit. -/
def isCanonical (tenure : List UInt8) : Bool :=
  !tenure.isEmpty && tenure.length ≤ maxTenureLen && tenure.all isCapitalOrDigit

/-- `c = Keccak256( TAG_ASSET ‖ J ‖ R ‖ len(T) ‖ T )` (§1.3). -/
structure AssetPreimage where
  jurisdiction : Octets 4
  registry : Octets 8
  tenure : List UInt8

def AssetPreimage.fields (preimage : AssetPreimage) : List (List UInt8) :=
  [tagAsset.octets, preimage.jurisdiction.octets, preimage.registry.octets,
    leList 2 preimage.tenure.length, preimage.tenure]

instance : Preimage AssetPreimage where
  writePreimage := fun preimage out ↦ do
    require (isCanonical preimage.tenure = true) .canonicalizationFailed
    require (preimage.tenure.length < 2 ^ 16) .canonicalizationFailed
    staged out preimage.fields

/-! ### The record chain's preimages -/

/-- `h₀ = Keccak256( TAG_HEAD ‖ c ‖ schema_version )` (§1.3). -/
structure GenesisHeadPreimage where
  assetCommitment : Digest
  schemaVersion : UInt16

/-- `leafₙ₊₁ = Keccak256( TAG_LEAF ‖ c ‖ seq ‖ payload_digest ‖ assessment_digest ‖ qp_key ‖
category ‖ effective_at ‖ change_identified_at )` (§1.3). -/
structure LeafPreimage where
  assetCommitment : Digest
  seq : UInt64
  payloadDigest : Digest
  assessmentDigest : Digest
  qpKey : PublicKey
  category : UInt8
  effectiveAt : Int64
  changeIdentifiedAt : Int64
deriving DecidableEq

/-- `hₙ₊₁ = Keccak256( TAG_HEAD ‖ hₙ ‖ leafₙ₊₁ )` (§1.3). -/
@[ext] structure StepHeadPreimage where
  prevHead : Digest
  leaf : Digest

def GenesisHeadPreimage.fields (preimage : GenesisHeadPreimage) : List (List UInt8) :=
  [tagHead.octets, preimage.assetCommitment.octets, leList 2 preimage.schemaVersion.toNat]

def LeafPreimage.fields (preimage : LeafPreimage) : List (List UInt8) :=
  [tagLeaf.octets, preimage.assetCommitment.octets, leList 8 preimage.seq.toNat,
    preimage.payloadDigest.octets, preimage.assessmentDigest.octets, preimage.qpKey.octets,
    [preimage.category], leList 8 preimage.effectiveAt.toUInt64.toNat,
    leList 8 preimage.changeIdentifiedAt.toUInt64.toNat]

def StepHeadPreimage.fields (preimage : StepHeadPreimage) : List (List UInt8) :=
  [tagHead.octets, preimage.prevHead.octets, preimage.leaf.octets]

instance : Preimage GenesisHeadPreimage where
  writePreimage := fun preimage out ↦ staged out preimage.fields

instance : Preimage LeafPreimage where
  writePreimage := fun preimage out ↦ staged out preimage.fields

instance : Preimage StepHeadPreimage where
  writePreimage := fun preimage out ↦ staged out preimage.fields

/-! ### The epoch tree's preimages -/

/-- `real leaf = Keccak256( TAG_MTL0 ‖ leafₙ )` (§1.4). -/
@[ext] structure RealLeafPreimage where
  leaf : Digest

/-- `padding leaf = Keccak256( TAG_PAD ‖ PRF(k_e, 0x03 ‖ slot_index_le) )` (§1.4). -/
structure PaddingPreimage where
  prfOutput : Digest

/-- `internal node = Keccak256( TAG_MTN1 ‖ left ‖ right )` (§1.4). -/
@[ext] structure NodePreimage where
  left : Digest
  right : Digest

def RealLeafPreimage.fields (preimage : RealLeafPreimage) : List (List UInt8) :=
  [tagMtl0.octets, preimage.leaf.octets]

def PaddingPreimage.fields (preimage : PaddingPreimage) : List (List UInt8) :=
  [tagPad.octets, preimage.prfOutput.octets]

def NodePreimage.fields (preimage : NodePreimage) : List (List UInt8) :=
  [tagMtn1.octets, preimage.left.octets, preimage.right.octets]

instance : Preimage RealLeafPreimage where
  writePreimage := fun preimage out ↦ staged out preimage.fields

instance : Preimage PaddingPreimage where
  writePreimage := fun preimage out ↦ staged out preimage.fields

instance : Preimage NodePreimage where
  writePreimage := fun preimage out ↦ staged out preimage.fields

/-! ### The promise's preimage -/

/-- The signed inclusion promise's preimage, `TAG_SPI ‖ leaf ‖ submission_id ‖ accepted_epoch ‖
promised_epoch ‖ max_merge_delay` (§1.6). -/
structure SpiPreimage where
  leaf : Digest
  submissionId : SubmissionId
  acceptedEpoch : UInt64
  promisedEpoch : UInt64
  maxMergeDelay : UInt8

def SpiPreimage.fields (preimage : SpiPreimage) : List (List UInt8) :=
  [tagSpi.octets, preimage.leaf.octets, preimage.submissionId.octets,
    leList 8 preimage.acceptedEpoch.toNat, leList 8 preimage.promisedEpoch.toNat,
    [preimage.maxMergeDelay]]

instance : Preimage SpiPreimage where
  writePreimage := fun preimage out ↦ staged out preimage.fields

/-! ### The hand-off's preimage -/

/-- What the batcher hands the worker, `TAG_HOFF ‖ epoch ‖ height ‖ root`. -/
structure HandoffPreimage where
  epoch : UInt64
  height : UInt8
  root : Digest
deriving DecidableEq

def HandoffPreimage.fields (preimage : HandoffPreimage) : List (List UInt8) :=
  [tagHoff.octets, leList 8 preimage.epoch.toNat, [preimage.height], preimage.root.octets]

instance : Preimage HandoffPreimage where
  writePreimage := fun preimage out ↦ staged out preimage.fields

/-! ### The pseudorandom function -/

/-- The longest input the pseudorandom function takes. -/
def maxPrfInputLen : ℕ :=
  17

/-- `PRF(k, x)`'s preimage, `TAG_PRF ‖ k ‖ len(x) ‖ x` (§1.1). -/
structure PrfPreimage where
  key : Digest
  input : List UInt8

def PrfPreimage.fields (preimage : PrfPreimage) : List (List UInt8) :=
  [tagPrf.octets, preimage.key.octets, leList 2 preimage.input.length, preimage.input]

instance : Preimage PrfPreimage where
  writePreimage := fun preimage out ↦ do
    require (preimage.input ≠ []) .malformedPayload
    require (preimage.input.length ≤ maxPrfInputLen) .recordTooLarge
    require (preimage.input.length < 2 ^ 16) .recordTooLarge
    staged out preimage.fields

/-- The use code for deriving an epoch key from the master key. -/
def prfUseEpochKey : UInt8 :=
  0x01

/-- The use code for seeding a slot. -/
def prfUseSlot : UInt8 :=
  0x02

/-- The use code for filling a padding leaf. -/
def prfUsePadding : UInt8 :=
  0x03

/-- `k_e = PRF(k_master, 0x01 ‖ e_le)`. -/
def epochKey (hasher : Hasher) (kMaster : Digest) (epoch : UInt64) : Result Digest :=
  digest hasher (PrfPreimage.mk kMaster (prfUseEpochKey :: leList 8 epoch.toNat))

/-- `PRF(k_e, 0x02 ‖ submission_id)`, the seed a slot is chosen from. -/
def slotSeed (hasher : Hasher) (epochKey : Digest) (submissionId : SubmissionId) :
    Result Digest :=
  digest hasher (PrfPreimage.mk epochKey (prfUseSlot :: submissionId.octets))

/-- `PRF(k_e, 0x03 ‖ slot_index_le)`, what a padding leaf commits to. -/
def paddingPrf (hasher : Hasher) (epochKey : Digest) (slotIndex : UInt16) : Result Digest :=
  digest hasher (PrfPreimage.mk epochKey (prfUsePadding :: leList 2 slotIndex.toNat))

/-! ### Every fixed layout fits, so its digest is its hash -/

section Digests

variable (hasher : Hasher)

@[simp] theorem digest_genesisHead (preimage : GenesisHeadPreimage) :
    digest hasher preimage = .ok (hasher.hash preimage.fields.flatten) :=
  digest_of_staged hasher preimage rfl (by simp [GenesisHeadPreimage.fields, maxPreimageLen])

@[simp] theorem writePreimage_leaf (preimage : LeafPreimage) :
    ∃ buffer, Preimage.writePreimage preimage PreimageBuf.new = .ok buffer ∧
      buffer.octets = preimage.fields.flatten :=
  ⟨_, staged_new_of_le (by simp [LeafPreimage.fields, maxPreimageLen]), rfl⟩

@[simp] theorem digest_stepHead (preimage : StepHeadPreimage) :
    digest hasher preimage = .ok (hasher.hash preimage.fields.flatten) :=
  digest_of_staged hasher preimage rfl (by simp [StepHeadPreimage.fields, maxPreimageLen])

@[simp] theorem digest_realLeaf (preimage : RealLeafPreimage) :
    digest hasher preimage = .ok (hasher.hash preimage.fields.flatten) :=
  digest_of_staged hasher preimage rfl (by simp [RealLeafPreimage.fields, maxPreimageLen])

@[simp] theorem digest_padding (preimage : PaddingPreimage) :
    digest hasher preimage = .ok (hasher.hash preimage.fields.flatten) :=
  digest_of_staged hasher preimage rfl (by simp [PaddingPreimage.fields, maxPreimageLen])

@[simp] theorem digest_node (preimage : NodePreimage) :
    digest hasher preimage = .ok (hasher.hash preimage.fields.flatten) :=
  digest_of_staged hasher preimage rfl (by simp [NodePreimage.fields, maxPreimageLen])

@[simp] theorem digest_spi (preimage : SpiPreimage) :
    digest hasher preimage = .ok (hasher.hash preimage.fields.flatten) :=
  digest_of_staged hasher preimage rfl (by simp [SpiPreimage.fields, maxPreimageLen])

/-- The pseudorandom function refuses only an empty or an over-long input. -/
theorem digest_prf {preimage : PrfPreimage} (hnonempty : preimage.input ≠ [])
    (hlength : preimage.input.length ≤ maxPrfInputLen) :
    digest hasher preimage = .ok (hasher.hash preimage.fields.flatten) := by
  have hshort : preimage.input.length ≤ 17 := hlength
  refine digest_of_staged hasher preimage ?_ ?_
  · simp only [Preimage.writePreimage]
    rw [require_of_true hnonempty, require_of_true hlength, require_of_true (by omega)]
    rfl
  · simp only [PrfPreimage.fields, maxPreimageLen, List.flatten_cons, List.length_append,
      Octets.length_octets, length_leList, List.flatten_nil, List.length_nil]
    omega

theorem epochKey_eq (kMaster : Digest) (epoch : UInt64) :
    epochKey hasher kMaster epoch = .ok (hasher.hash
      (PrfPreimage.mk kMaster (prfUseEpochKey :: leList 8 epoch.toNat)).fields.flatten) :=
  digest_prf hasher (by simp) (by simp [maxPrfInputLen])

theorem slotSeed_eq (key : Digest) (submissionId : SubmissionId) :
    slotSeed hasher key submissionId = .ok (hasher.hash
      (PrfPreimage.mk key (prfUseSlot :: submissionId.octets)).fields.flatten) :=
  digest_prf hasher (by simp) (by simp [maxPrfInputLen])

theorem paddingPrf_eq (key : Digest) (slotIndex : UInt16) :
    paddingPrf hasher key slotIndex = .ok (hasher.hash
      (PrfPreimage.mk key (prfUsePadding :: leList 2 slotIndex.toNat)).fields.flatten) :=
  digest_prf hasher (by simp) (by simp [maxPrfInputLen])

end Digests

/-! ### The fields are recovered from the octets -/

theorem leList_toNat_injective {left right : UInt64}
    (heq : leList 8 left.toNat = leList 8 right.toNat) : left = right :=
  UInt64.toNat_inj.mp (leList_injective left.toNat_lt right.toNat_lt heq)

theorem leList_toUInt64_injective {left right : Int64}
    (heq : leList 8 left.toUInt64.toNat = leList 8 right.toUInt64.toNat) : left = right :=
  Int64.toBitVec_inj.mp (congrArg UInt64.toBitVec (leList_toNat_injective heq))

theorem genesisHead_fields_injective {left right : GenesisHeadPreimage}
    (heq : left.fields.flatten = right.fields.flatten) :
    left.assetCommitment = right.assetCommitment := by
  have hfields := flatten_injective (by simp [GenesisHeadPreimage.fields]) heq
  simp only [GenesisHeadPreimage.fields, List.cons.injEq] at hfields
  exact Octets.octets_injective hfields.2.1

theorem leaf_fields_injective {left right : LeafPreimage}
    (heq : left.fields.flatten = right.fields.flatten) : left = right := by
  have hfields := flatten_injective (by simp [LeafPreimage.fields]) heq
  simp only [LeafPreimage.fields, List.cons.injEq, and_true, true_and] at hfields
  obtain ⟨hcommitment, hseq, hpayload, hassessment, hkey, hcategory, heffective, hidentified⟩ :=
    hfields
  rcases left with ⟨⟩
  rcases right with ⟨⟩
  obtain rfl := Octets.octets_injective hcommitment
  obtain rfl := leList_toNat_injective hseq
  obtain rfl := Octets.octets_injective hpayload
  obtain rfl := Octets.octets_injective hassessment
  obtain rfl := Octets.octets_injective hkey
  obtain rfl := hcategory
  obtain rfl := leList_toUInt64_injective heffective
  obtain rfl := leList_toUInt64_injective hidentified
  rfl

theorem stepHead_fields_injective {left right : StepHeadPreimage}
    (heq : left.fields.flatten = right.fields.flatten) :
    left.prevHead = right.prevHead ∧ left.leaf = right.leaf := by
  have hfields := flatten_injective (by simp [StepHeadPreimage.fields]) heq
  simp only [StepHeadPreimage.fields, List.cons.injEq, and_true, true_and] at hfields
  exact ⟨Octets.octets_injective hfields.1, Octets.octets_injective hfields.2⟩

theorem realLeaf_fields_injective {left right : RealLeafPreimage}
    (heq : left.fields.flatten = right.fields.flatten) : left.leaf = right.leaf := by
  have hfields := flatten_injective (by simp [RealLeafPreimage.fields]) heq
  simp only [RealLeafPreimage.fields, List.cons.injEq, and_true, true_and] at hfields
  exact Octets.octets_injective hfields

theorem node_fields_injective {left right : NodePreimage}
    (heq : left.fields.flatten = right.fields.flatten) :
    left.left = right.left ∧ left.right = right.right := by
  have hfields := flatten_injective (by simp [NodePreimage.fields]) heq
  simp only [NodePreimage.fields, List.cons.injEq, and_true, true_and] at hfields
  exact ⟨Octets.octets_injective hfields.1, Octets.octets_injective hfields.2⟩

/-! ### Preimages of different kinds differ -/

/-- A genesis head and a step head carry one tag, and their widths keep them apart. -/
theorem stepHead_ne_genesisHead (step : StepHeadPreimage) (genesis : GenesisHeadPreimage) :
    step.fields.flatten ≠ genesis.fields.flatten := by
  intro heq
  have hlength := congrArg List.length heq
  simp [StepHeadPreimage.fields, GenesisHeadPreimage.fields] at hlength

theorem ne_of_tag_ne {leftTag rightTag : Octets 8} (htags : leftTag ≠ rightTag)
    (leftRest rightRest : List (List UInt8)) :
    (leftTag.octets :: leftRest).flatten ≠ (rightTag.octets :: rightRest).flatten := by
  intro heq
  rw [List.flatten_cons, List.flatten_cons] at heq
  have hprefix := (List.append_inj heq (by simp)).1
  exact htags (Octets.octets_injective hprefix)

theorem realLeaf_ne_node (leaf : RealLeafPreimage) (node : NodePreimage) :
    leaf.fields.flatten ≠ node.fields.flatten :=
  ne_of_tag_ne (by decide) _ _

theorem padding_ne_node (padding : PaddingPreimage) (node : NodePreimage) :
    padding.fields.flatten ≠ node.fields.flatten :=
  ne_of_tag_ne (by decide) _ _

theorem realLeaf_ne_padding (leaf : RealLeafPreimage) (padding : PaddingPreimage) :
    leaf.fields.flatten ≠ padding.fields.flatten :=
  ne_of_tag_ne (by decide) _ _

end AnchoredLog.Core.Preimages
