import AnchoredLog.Core.Preimages

/-!
# The supersession state machine of one asset

`certimining-core`'s `AssetChain`: each record commits against its predecessor's head, and a record
is applied only when it passes the schema gate and conditions (a) to (f) of §1.3, judged in that
order. `apply` is translated as the code has it, reading and writing the chain through a
`Mutation`, so that a refusal returns whatever state the code had reached.

`perform_apply` separates the two halves: `judge` decides the record and `commit` is the state an
accepted one leaves, while a refused one leaves the chain as it was. `judge_eq_ok_iff` says what
acceptance is, as the conjunction of the seven rules in `Acceptable`, and what it returns.
-/

set_option autoImplicit false
set_option relaxedAutoImplicit false

namespace AnchoredLog.Core.RecordChain

open Library.ByteCodec Library.Fallible Preimages

/-! ### Records and chains -/

/-- The longest `payload_uri` a record may carry. -/
def maxPayloadUriLen : ℕ :=
  128

/-- A record's payload URI, at most 128 octets. -/
structure PayloadUri where
  octets : List UInt8
  length_le : octets.length ≤ maxPayloadUriLen

/-- The only schema version this engine writes or accepts. -/
def schemaVersion : UInt16 :=
  1

/-- Flag bit 0: a reserve category with no earlier resource record. -/
def flagReserveWithoutPriorResource : UInt16 :=
  1

/-- Flag bit 1: the category is lower than the previous record's. -/
def flagCategoryDowngrade : UInt16 :=
  (1 : UInt16) <<< (1 : UInt16)

/-- The highest category schema 1 accepts. -/
def maxCategory : UInt8 :=
  4

/-- One record as it arrives (§2.2). -/
structure RecordLeafInput where
  /-- The head this record commits against. -/
  prevHead : Digest
  seq : UInt64
  payloadDigest : Digest
  assessmentDigest : Digest
  qpKey : PublicKey
  /-- The key the caller expected, when it names one. -/
  expectedQpKey : Option PublicKey
  signature : Option Signature
  category : UInt8
  effectiveAt : Int64
  changeIdentifiedAt : Int64
  payloadUri : PayloadUri
  extCommitment : Option Digest

/-- What one accepted transition produced. -/
structure Applied where
  leaf : Digest
  head : Digest
  flags : UInt16
deriving DecidableEq

/-- Enough of a chain to resume it in another process. -/
structure ChainSnapshot where
  head : Digest
  seq : UInt64
  lastEffectiveAt : Int64
  sawResource : Bool
  previousCategory : Option UInt8

/-- One asset's chain. Both ways to build one refuse a schema other than `schemaVersion`. -/
@[ext] structure AssetChain where
  assetCommitment : Digest
  schemaVersion : UInt16
  schemaVersion_eq : schemaVersion = RecordChain.schemaVersion
  head : Digest
  seq : UInt64
  lastEffectiveAt : Int64
  sawResource : Bool
  previousCategory : Option UInt8

/-- The genesis head, for the one schema there is. -/
def genesis (hasher : Hasher) (assetCommitment : Digest) (version : UInt16) : Result Digest := do
  require (version = schemaVersion) .unsupportedSchemaVersion
  digest hasher (GenesisHeadPreimage.mk assetCommitment version)

/-- Starts a chain at its genesis head. -/
def start (hasher : Hasher) (assetCommitment : Digest) (version : UInt16) : Result AssetChain := do
  let head ← genesis hasher assetCommitment version
  if hversion : version = schemaVersion then
    return {
      assetCommitment := assetCommitment
      schemaVersion := version
      schemaVersion_eq := hversion
      head := head
      seq := 0
      lastEffectiveAt := Int64.minValue
      sawResource := false
      previousCategory := none }
  else
    throw .unsupportedSchemaVersion

/-- Resumes a chain from stored state. -/
def resume (assetCommitment : Digest) (version : UInt16) (snapshot : ChainSnapshot) :
    Result AssetChain :=
  if hversion : version = schemaVersion then do
    require (¬ snapshot.previousCategory.any (fun category ↦ maxCategory < category))
      .malformedPayload
    return {
      assetCommitment := assetCommitment
      schemaVersion := version
      schemaVersion_eq := hversion
      head := snapshot.head
      seq := snapshot.seq
      lastEffectiveAt := snapshot.lastEffectiveAt
      sawResource := snapshot.sawResource
      previousCategory := snapshot.previousCategory }
  else
    throw .unsupportedSchemaVersion

namespace AssetChain

/-- The state another process needs to resume this chain. -/
def snapshot (self : AssetChain) : ChainSnapshot where
  head := self.head
  seq := self.seq
  lastEffectiveAt := self.lastEffectiveAt
  sawResource := self.sawResource
  previousCategory := self.previousCategory

/-- The leaf preimage's octets with their digest. -/
def leafBytes (hasher : Hasher) (self : AssetChain) (r : RecordLeafInput) :
    Result (PreimageBuf × Digest) := do
  let preimage : LeafPreimage := {
    assetCommitment := self.assetCommitment
    seq := r.seq
    payloadDigest := r.payloadDigest
    assessmentDigest := r.assessmentDigest
    qpKey := r.qpKey
    category := r.category
    effectiveAt := r.effectiveAt
    changeIdentifiedAt := r.changeIdentifiedAt }
  let buffer ← Preimage.writePreimage preimage PreimageBuf.new
  return (buffer, hasher.hashv [buffer.octets])

/-- The observations a record earns, which never reject it. -/
def flagsFor (self : AssetChain) (r : RecordLeafInput) : UInt16 :=
  let reserve :=
    if (r.category = 3 ∨ r.category = 4) ∧ self.sawResource = false then
      flagReserveWithoutPriorResource
    else
      0
  if self.previousCategory.any (fun previous ↦ r.category < previous) then
    reserve ||| flagCategoryDowngrade
  else
    reserve

end AssetChain

/-! ### The conditions of a transition -/

/-- The schema gate: an extension asks for a schema this engine does not implement. -/
def checkSchema (r : RecordLeafInput) : Result Unit :=
  require (r.extCommitment = none) .unsupportedSchemaVersion

/-- The schemes a payload URI may carry. -/
def payloadUriSchemes : List (List UInt8) :=
  [ascii ['i', 'p', 'f', 's', ':', '/', '/'], ascii ['h', 't', 't', 'p', 's', ':', '/', '/'],
    ascii ['a', 'r', ':', '/', '/']]

/-- Whether a payload URI is 1 to 128 printable octets, one of three schemes and at least one
octet after it. -/
def payloadUriIsWellFormed (uri : List UInt8) : Bool :=
  if uri = [] ∨ maxPayloadUriLen < uri.length then
    false
  else if ¬ uri.all (fun octet ↦ 0x21 ≤ octet ∧ octet ≤ 0x7E) then
    false
  else
    payloadUriSchemes.any fun scheme ↦ scheme.length < uri.length ∧ scheme.isPrefixOf uri

/-- Condition (f): the category is in range and the payload URI is well formed. -/
def checkFields (r : RecordLeafInput) : Result Unit := do
  require (r.category ≤ maxCategory) .malformedPayload
  require (payloadUriIsWellFormed r.payloadUri.octets = true) .malformedPayload

/-- Condition (c): the expected key, then the presence of a signature, then the signature. -/
def checkAttestation (verifier : Verifier) (r : RecordLeafInput) (preimage : List UInt8) :
    Result Unit := do
  match r.expectedQpKey with
  | some expected => require (expected = r.qpKey) .attestationKeyMismatch
  | none => pure ()
  let signature ← okOr r.signature .attestationMissing
  verifier.verify r.qpKey preimage signature

/-- Applies a record when every condition of §1.3 holds, and otherwise changes nothing. -/
def apply (hasher : Hasher) (verifier : Verifier) (r : RecordLeafInput) :
    Mutation RegistryError AssetChain Applied := do
  let self ← get
  checkSchema r
  require (r.prevHead = self.head) RegistryError.headMismatch
  let nextSeq ← okOr (checkedAdd self.seq 1) RegistryError.arithmeticOverflow
  require (r.seq = nextSeq) RegistryError.sequenceOutOfOrder
  let (preimage, leaf) ← self.leafBytes hasher r
  checkAttestation verifier r preimage.octets
  require (¬ r.effectiveAt < self.lastEffectiveAt) RegistryError.nonMonotonicEffectiveAt
  checkFields r
  let flags := self.flagsFor r
  let head ← digest hasher (StepHeadPreimage.mk self.head leaf)
  set { self with
    head := head
    seq := nextSeq
    lastEffectiveAt := r.effectiveAt
    sawResource := self.sawResource || (r.category == 1 || r.category == 2)
    previousCategory := some r.category }
  return { leaf := leaf, head := head, flags := flags }

/-! ### What a record hashes -/

/-- The genesis head's preimage under the one schema. -/
def genesisMessage (assetCommitment : Digest) : List UInt8 :=
  (GenesisHeadPreimage.mk assetCommitment schemaVersion).fields.flatten

/-- The leaf preimage of a record on the chain of an asset. -/
def leafPreimage (assetCommitment : Digest) (r : RecordLeafInput) : LeafPreimage where
  assetCommitment := assetCommitment
  seq := r.seq
  payloadDigest := r.payloadDigest
  assessmentDigest := r.assessmentDigest
  qpKey := r.qpKey
  category := r.category
  effectiveAt := r.effectiveAt
  changeIdentifiedAt := r.changeIdentifiedAt

/-- The octets a record's leaf is the hash of, which are the octets its signature covers. -/
def leafMessage (assetCommitment : Digest) (r : RecordLeafInput) : List UInt8 :=
  (leafPreimage assetCommitment r).fields.flatten

/-- The octets the head after a leaf is the hash of. -/
def stepMessage (head leaf : Digest) : List UInt8 :=
  (StepHeadPreimage.mk head leaf).fields.flatten

/-- A record's leaf. -/
def leafDigest (hasher : Hasher) (assetCommitment : Digest) (r : RecordLeafInput) : Digest :=
  hasher.hash (leafMessage assetCommitment r)

/-- The head step `hₙ₊₁ = Keccak256( TAG_HEAD ‖ hₙ ‖ leafₙ₊₁ )`. -/
def headStep (hasher : Hasher) (head leaf : Digest) : Digest :=
  hasher.hash (stepMessage head leaf)

/-! ### The transition as a judgement and a commit -/

section Transition

variable (hasher : Hasher) (verifier : Verifier)

/-- The seven rules a record must pass, in the order they are judged. -/
structure Acceptable (chain : AssetChain) (r : RecordLeafInput) : Prop where
  schema : r.extCommitment = none
  head : r.prevHead = chain.head
  seq : r.seq.toNat = chain.seq.toNat + 1
  key : ∀ expected ∈ r.expectedQpKey, expected = r.qpKey
  attestation : ∃ signature, r.signature = some signature ∧
    verifier.valid r.qpKey (leafMessage chain.assetCommitment r) signature = true
  effective : chain.lastEffectiveAt ≤ r.effectiveAt
  category : r.category ≤ maxCategory
  payloadUri : payloadUriIsWellFormed r.payloadUri.octets = true

/-- What an accepted record returns. -/
def appliedOf (chain : AssetChain) (r : RecordLeafInput) : Applied where
  leaf := leafDigest hasher chain.assetCommitment r
  head := headStep hasher chain.head (leafDigest hasher chain.assetCommitment r)
  flags := chain.flagsFor r

/-- The state an accepted record leaves. -/
def commit (chain : AssetChain) (r : RecordLeafInput) : AssetChain :=
  { chain with
    head := headStep hasher chain.head (leafDigest hasher chain.assetCommitment r)
    seq := r.seq
    lastEffectiveAt := r.effectiveAt
    sawResource := chain.sawResource || (r.category == 1 || r.category == 2)
    previousCategory := some r.category }

/-- The decision about a record, without the commit. -/
def judge (chain : AssetChain) (r : RecordLeafInput) : Result Applied := do
  checkSchema r
  require (r.prevHead = chain.head) .headMismatch
  let nextSeq ← okOr (checkedAdd chain.seq 1) .arithmeticOverflow
  require (r.seq = nextSeq) .sequenceOutOfOrder
  checkAttestation verifier r (leafMessage chain.assetCommitment r)
  require (¬ r.effectiveAt < chain.lastEffectiveAt) .nonMonotonicEffectiveAt
  checkFields r
  return appliedOf hasher chain r

theorem leafBytes_eq (chain : AssetChain) (r : RecordLeafInput) :
    ∃ buffer, chain.leafBytes hasher r =
        .ok (buffer, leafDigest hasher chain.assetCommitment r) ∧
      buffer.octets = leafMessage chain.assetCommitment r := by
  obtain ⟨buffer, hwrite, hoctets⟩ := writePreimage_leaf (leafPreimage chain.assetCommitment r)
  refine ⟨buffer, ?_, hoctets⟩
  have hbytes : chain.leafBytes hasher r = .ok (buffer, hasher.hashv [buffer.octets]) := by
    rw [AssetChain.leafBytes, ← leafPreimage, hwrite]
    rfl
  rw [hbytes, leafDigest, leafMessage, ← hoctets, Hasher.hashv, List.flatten_cons,
    List.flatten_nil, List.append_nil]

/-- An accepted record commits, and a refused one leaves the chain as it was. -/
theorem perform_apply (chain : AssetChain) (r : RecordLeafInput) :
    perform (apply hasher verifier r) chain =
      match judge hasher verifier chain r with
      | .ok applied => (.ok applied, commit hasher chain r)
      | .error error => (.error error, chain) := by
  obtain ⟨buffer, hbytes, hoctets⟩ := leafBytes_eq hasher chain r
  rw [apply, judge]
  simp only [perform_bind, perform_get, perform_lift, perform_set, perform_pure, hbytes, hoctets]
  cases checkSchema r with
  | error error => rfl
  | ok _ =>
  cases require (r.prevHead = chain.head) RegistryError.headMismatch with
  | error error => rfl
  | ok _ =>
  cases okOr (checkedAdd chain.seq 1) RegistryError.arithmeticOverflow with
  | error error => rfl
  | ok nextSeq =>
  by_cases hseq : r.seq = nextSeq
  · subst hseq
    simp only [require_of_true, bind_ok]
    cases checkAttestation verifier r (leafMessage chain.assetCommitment r) with
    | error error => rfl
    | ok _ =>
    cases require (¬ r.effectiveAt < chain.lastEffectiveAt)
      RegistryError.nonMonotonicEffectiveAt with
    | error error => rfl
    | ok _ =>
    cases checkFields r with
    | error error => rfl
    | ok _ =>
    simp only [digest_stepHead, bind_ok, pure_eq_ok, appliedOf, commit, headStep, stepMessage]
  · simp only [require_of_false hseq, bind_ok, bind_error]

/-- What acceptance is, and what an accepted record returns. -/
theorem judge_eq_ok_iff (chain : AssetChain) (r : RecordLeafInput) (applied : Applied) :
    judge hasher verifier chain r = .ok applied ↔
      Acceptable verifier chain r ∧ applied = appliedOf hasher chain r := by
  have hattestation : checkAttestation verifier r (leafMessage chain.assetCommitment r) = .ok () ↔
      (∀ expected ∈ r.expectedQpKey, expected = r.qpKey) ∧
        ∃ signature, r.signature = some signature ∧
          verifier.valid r.qpKey (leafMessage chain.assetCommitment r) signature = true := by
    rw [checkAttestation]
    cases r.expectedQpKey <;>
      simp [bind_unit_eq_ok_iff, okOr_bind_eq_ok_iff, Verifier.verify, -bind_pure_comp]
  have hfields : checkFields r = .ok () ↔ r.category ≤ maxCategory ∧
      payloadUriIsWellFormed r.payloadUri.octets = true := by
    simp [checkFields, bind_unit_eq_ok_iff]
  simp only [judge, checkSchema, bind_unit_eq_ok_iff, okOr_bind_eq_ok_iff, require_eq_ok_iff,
    hattestation, hfields, checkedAdd_eq_some_iff, Int64.not_lt, pure_eq_ok, Except.ok.injEq]
  constructor
  · rintro ⟨hschema, hhead, nextSeq, hnext, rfl, ⟨hkey, hsignature⟩, heffective,
      ⟨hcategory, huri⟩, rfl⟩
    exact ⟨⟨hschema, hhead, hnext, hkey, hsignature, heffective, hcategory, huri⟩, rfl⟩
  · rintro ⟨haccept, rfl⟩
    exact ⟨haccept.schema, haccept.head, r.seq, haccept.seq, rfl,
      ⟨haccept.key, haccept.attestation⟩, haccept.effective,
      ⟨haccept.category, haccept.payloadUri⟩, rfl⟩

/-- Applying succeeds exactly on an acceptable record. -/
theorem perform_apply_eq_ok_iff (chain next : AssetChain) (r : RecordLeafInput)
    (applied : Applied) :
    perform (apply hasher verifier r) chain = (.ok applied, next) ↔
      Acceptable verifier chain r ∧ applied = appliedOf hasher chain r ∧
        next = commit hasher chain r := by
  rw [perform_apply]
  cases hjudge : judge hasher verifier chain r with
  | error error =>
    simp only [Prod.mk.injEq, reduceCtorEq, false_and, false_iff, not_and]
    intro haccept happlied
    rw [(judge_eq_ok_iff hasher verifier chain r applied).mpr ⟨haccept, happlied⟩] at hjudge
    exact absurd hjudge (by simp)
  | ok result =>
    obtain ⟨haccept, rfl⟩ := (judge_eq_ok_iff hasher verifier chain r result).mp hjudge
    simp only [Prod.mk.injEq, Except.ok.injEq, haccept, true_and]
    exact and_congr eq_comm eq_comm

/-- A refused record leaves the chain as it was. -/
theorem perform_apply_of_error {chain next : AssetChain} {r : RecordLeafInput}
    {error : RegistryError}
    (hrefused : perform (apply hasher verifier r) chain = (.error error, next)) :
    next = chain := by
  rw [perform_apply] at hrefused
  cases hjudge : judge hasher verifier chain r with
  | error refusal =>
    rw [hjudge] at hrefused
    exact (Prod.ext_iff.mp hrefused).2.symm
  | ok applied =>
    rw [hjudge] at hrefused
    simp at hrefused

/-! ### Starting and resuming -/

theorem start_eq (assetCommitment : Digest) :
    start hasher assetCommitment schemaVersion = .ok {
      assetCommitment := assetCommitment
      schemaVersion := schemaVersion
      schemaVersion_eq := rfl
      head := hasher.hash (genesisMessage assetCommitment)
      seq := 0
      lastEffectiveAt := Int64.minValue
      sawResource := false
      previousCategory := none } := by
  simp [start, genesis, require_of_true, genesisMessage]

/-- Resuming from a chain's own snapshot gives the chain back, when its previous category is one
the engine accepts. -/
theorem resume_snapshot {chain : AssetChain}
    (hcategory : ∀ category ∈ chain.previousCategory, category ≤ maxCategory) :
    resume chain.assetCommitment schemaVersion chain.snapshot = .ok chain := by
  have hnone : ¬ chain.previousCategory.any (fun category ↦ maxCategory < category) = true := by
    cases hprevious : chain.previousCategory with
    | none => simp
    | some category => simpa using hcategory category hprevious
  rw [resume, dif_pos rfl, AssetChain.snapshot, require_of_true hnone, bind_ok, pure_eq_ok]
  congr 1
  exact AssetChain.ext rfl chain.schemaVersion_eq.symm rfl rfl rfl rfl rfl

end Transition

end AnchoredLog.Core.RecordChain
