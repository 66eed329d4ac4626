import AnchoredLog.Port.Chain
import AnchoredLog.Port.JsonFields
import AnchoredLog.Port.Promise

/-!
# The disclosure verifier

`disclosure.ts`: what a counterparty runs on one package. The package is any JSON value. The
verifier refuses a field the closed list does not name, reads the 161 preimage octets, compares
the display copy with them, checks the signature, the genesis head, the head step and an optional
chain segment, and last the inclusion proof against a root the caller obtained elsewhere.

The source collects what it established in variables that survive a throw, so the verifier is a
`Mutation` of that draft: a refusal reports whatever had been recorded when it was thrown. An
error that is not one of the two failure classes leaves the function as an exception.
-/

set_option autoImplicit false
set_option relaxedAutoImplicit false

namespace AnchoredLog.Port.Disclosure

open Core.Preimages Library.ByteCodec Library.Fallible Primitives JsonFields

/-! ### Reports -/

/-- `DISCLOSURE_SCHEMA`. -/
def disclosureSchema : String :=
  "certimining/v1/disclosure"

/-- `LEAF_PREIMAGE_LEN`. -/
def leafPreimageLen : ℕ :=
  161

/-- What the 161 bytes say. -/
structure LeafFromBytes where
  assetCommitment : List UInt8
  seq : ℤ
  payloadDigest : List UInt8
  assessmentDigest : List UInt8
  qpKey : List UInt8
  category : ℤ
  effectiveAt : ℤ
  changeIdentifiedAt : ℤ

structure FlagReport where
  declared : ℤ
  recomputed : Option ℤ
  discrepancy : Option Bool
  note : String

/-- What a verifier holding one record can say about where it sits in its chain. -/
structure ChainPosition where
  established : Bool
  detail : String

/-- The status of a check. -/
inductive CheckStatus
  | pass
  | fail
  | skipped
  | unestablished
deriving DecidableEq

structure Check where
  name : String
  status : CheckStatus
  detail : Option String

/-- The failure a report carries. -/
inductive ReportFailure
  | registry (code : ℕ) (codeName : RegistryCodeName) (message : String)
  | package (failure : PackageFailureName) (message : String)

structure DisclosureReport where
  ok : Bool
  failure : Option ReportFailure
  leaf : Option (List UInt8)
  fields : Option LeafFromBytes
  flags : Option FlagReport
  chainPosition : ChainPosition
  checks : List Check
  notes : List String

/-- What the holder knows of the chain before the record. -/
structure ChainContext where
  sawResource : Bool
  previousCategory : Option ℤ
  expectedPrevHead : Option (List UInt8)
  trustedHead : Option (List UInt8)

structure VerifyOptions where
  root : Promise.PublishedRoot
  configuredHeight : Option ℤ
  chainContext : Option ChainContext

/-! ### The closed field list -/

/-- The shape of a value of a package: a single value, an array of them, an array of a shape, or
the fields of an object. -/
inductive Shape
  | scalar
  | scalars
  | array (elements : List Shape)
  | object (fields : List (String × Shape))

/-- `PACKAGE_SHAPE`. -/
def packageShape : Shape :=
  .object [
    ("schema", .scalar),
    ("record", .object [
      ("seq", .scalar),
      ("category", .scalar),
      ("effective_at", .scalar),
      ("change_identified_at", .scalar),
      ("payload_digest", .scalar),
      ("assessment_digest", .scalar),
      ("qp_key", .scalar),
      ("payload_uri", .scalar),
      ("flags", .scalar)]),
    ("preimage_borsh", .scalar),
    ("chain", .object [
      ("prev_head", .scalar),
      ("head", .scalar),
      ("genesis", .scalar),
      ("segment", .array [.object [("leaf", .scalar), ("head", .scalar)]])]),
    ("qp_signature", .scalar),
    ("inclusion", .object [
      ("epoch", .scalar),
      ("height", .scalar),
      ("slot_index", .scalar),
      ("siblings", .scalars)]),
    ("anchor", .object [
      ("solana_tx", .scalar),
      ("solana_slot", .scalar),
      ("ots_receipt_digest", .scalar)])]

def isContainer : Json → Bool
  | .array _ => true
  | .object _ => true
  | _ => false

/-- An `UnlistedField` failure. -/
def unlisted (detail : String) : Failure :=
  .packageFailure .UnlistedField detail

/-- The path of a field below a path. -/
def fieldPath (path field : String) : String :=
  if path = "" then field else path ++ "." ++ field

/-- The path of an element below a path. -/
def elementPath (path : String) (index : ℕ) : String :=
  path ++ "[" ++ toString index ++ "]"

/-- The shape of a field, among the shape's own fields. -/
def shapeOf (shape : List (String × Shape)) (field : String) : Option Shape :=
  (shape.find? fun entry ↦ entry.1 == field).map Prod.snd

mutual

/-- Refuses the first field the list does not name, by its path. A JSON value holds plain objects
and data properties alone. -/
def checkOnlyListedFields : Json → Shape → String → Thrown Unit
  | value, .scalar, path =>
    require (¬ isContainer value)
      (unlisted (path ++ " carries a structure where §2.5 shows a single value"))
  | .array elements, .scalars, path => checkElements elements .scalar path 0
  | .array _, .array [], path => throw (malformed (path ++ ": no element shape"))
  | .array elements, .array (inner :: _), path => checkElements elements inner path 0
  | .object fields, .object shape, path => checkFields fields shape path
  | _, .scalars, path => throw (malformed (path ++ " is not an array"))
  | _, .array _, path => throw (malformed (path ++ " is not an array"))
  | _, .object _, path =>
    throw (malformed ((if path = "" then "the package" else path) ++ " is not a plain object"))

/-- The elements of an array, each against one shape. -/
def checkElements : List Json → Shape → String → ℕ → Thrown Unit
  | [], _, _, _ => return ()
  | element :: elements, shape, path, index => do
    checkOnlyListedFields element shape (elementPath path index)
    checkElements elements shape path (index + 1)

/-- The fields of an object, each against the shape of its name. -/
def checkFields : List (String × Json) → List (String × Shape) → String → Thrown Unit
  | [], _, _ => return ()
  | (field, child) :: fields, shape, path => do
    let inner ← okOr (shapeOf shape field)
      (unlisted (fieldPath path field ++ " is not a field §2.5 lists"))
    checkOnlyListedFields child inner (fieldPath path field)
    checkFields fields shape path

end

/-! ### The preimage and the display copy -/

/-- Reads the 161 bytes as §1.3 lays them out. -/
def readLeafPreimage (preimage : List UInt8) : Thrown LeafFromBytes := do
  orFail (preimage.length = leafPreimageLen) .MalformedPayload
    ("leaf preimage is " ++ toString preimage.length ++ " bytes, and §1.3 fixes it at " ++
      toString leafPreimageLen)
  let body ← readTagged preimage tagLeaf.octets
  let seq ← readU64le body 32
  let category : ℤ := (body[136]?.getD 0).toNat
  orFail (seq ≠ 0) .SequenceOutOfOrder
    "the preimage carries seq 0, and §1.3's condition (b) makes the first sequence 1"
  orFail (¬ (category < Chain.categoryMin ∨ Chain.categoryMax < category)) .MalformedPayload
    ("the preimage carries category " ++ toString category ++ ", and §1.3 allows " ++
      toString Chain.categoryMin ++ " to " ++ toString Chain.categoryMax)
  let effectiveAt ← readI64le body 137
  let changeIdentifiedAt ← readI64le body 145
  return {
    assetCommitment := body.take 32
    seq := seq
    payloadDigest := (body.drop 40).take 32
    assessmentDigest := (body.drop 72).take 32
    qpKey := (body.drop 104).take 32
    category := category
    effectiveAt := effectiveAt
    changeIdentifiedAt := changeIdentifiedAt }

/-- A field whose display copy differs from the bytes. -/
def mismatch (field json borsh : String) : Failure :=
  .packageFailure .JsonBorshMismatch (field ++ ": JSON says " ++ json ++ ", the preimage says " ++
    borsh)

/-- A displayed integer against the bytes. -/
def compareInt (json borsh : ℤ) (field : String) : Thrown Unit :=
  require (json = borsh) (mismatch field (toString json) (toString borsh))

/-- Displayed bytes against the bytes. -/
def compareHex (json borsh : List UInt8) (field : String) : Thrown Unit :=
  require (bytesEqual json borsh) (mismatch field (toHex json) (toHex borsh))

/-- The display copy against the bytes, in the order of the leaf preimage, stopping at the first
field that differs. `flags` and `payload_uri` are not compared. -/
def compareJsonToBytes (record : Json) (bytes : LeafFromBytes) : Thrown Unit := do
  let seq ← intField (record.get "seq") "record.seq"
  compareInt seq bytes.seq "seq"
  let payloadDigest ← hexField (record.get "payload_digest") "record.payload_digest" 32
  compareHex payloadDigest bytes.payloadDigest "payload_digest"
  let assessmentDigest ← hexField (record.get "assessment_digest") "record.assessment_digest" 32
  compareHex assessmentDigest bytes.assessmentDigest "assessment_digest"
  let qpKey ← hexField (record.get "qp_key") "record.qp_key" 32
  compareHex qpKey bytes.qpKey "qp_key"
  let category ← smallInt (record.get "category") "record.category" 255
  compareInt category bytes.category "category"
  let effectiveAt ← intField (record.get "effective_at") "record.effective_at"
  compareInt effectiveAt bytes.effectiveAt "effective_at"
  let changeIdentifiedAt ←
    intField (record.get "change_identified_at") "record.change_identified_at"
  compareInt changeIdentifiedAt bytes.changeIdentifiedAt "change_identified_at"

/-- A sibling of the proof. -/
def readSibling (cell : Json × ℕ) : Thrown (List UInt8) :=
  hexField (some cell.1) (elementPath "inclusion.siblings" cell.2) 32

def parseProof (inclusion : Json) : Thrown Tree.InclusionProof := do
  let epoch ← must (inclusion.get "epoch") "inclusion.epoch"
  let epoch ← intField (some epoch) "inclusion.epoch"
  let height ← must (inclusion.get "height") "inclusion.height"
  let height ← smallInt (some height) "inclusion.height" 255
  let slotIndex ← must (inclusion.get "slot_index") "inclusion.slot_index"
  let slotIndex ← smallInt (some slotIndex) "inclusion.slot_index" 0xffff
  let rawSiblings ← must (inclusion.get "siblings") "inclusion.siblings"
  match rawSiblings with
  | .array elements => do
    let siblings ← elements.zipIdx.mapM readSibling
    return { height := height, siblings := siblings, slotIndex := slotIndex, epoch := epoch }
  | _ => throw (malformed "inclusion.siblings is not an array")

/-! ### The chain segment -/

/-- One entry of a segment: a leaf digest and the head it produces. -/
structure SegmentStep where
  leaf : List UInt8
  head : List UInt8

/-- What a segment settled, once every head in it has been recomputed. -/
structure SegmentOutcome where
  established : Bool
  detail : String
  steps : ℕ

def readStep (cell : Json × ℕ) : Thrown SegmentStep := do
  let path := elementPath "chain.segment" cell.2
  require (isContainer cell.1) (malformed (path ++ " is not an object"))
  let leaf ← must (cell.1.get "leaf") (path ++ ".leaf")
  let leaf ← hexField (some leaf) (path ++ ".leaf") 32
  let head ← must (cell.1.get "head") (path ++ ".head")
  let head ← hexField (some head) (path ++ ".head") 32
  return { leaf := leaf, head := head }

section Verifier

variable (hasher : Hasher)

/-- The links of a segment from the entry at an index on: each head follows from the head before
it and its own leaf. -/
def checkLinks : ℕ → List SegmentStep → Thrown Unit
  | index, before :: step :: rest => do
    let head ← Chain.advanceHead hasher before.head step.leaf
    orFail (bytesEqual head step.head) .HeadMismatch
      (elementPath "chain.segment" (index + 1) ++ ".head is not Keccak256(TAG_HEAD ‖ " ++
        elementPath "chain.segment" index ++ ".head ‖ " ++
        elementPath "chain.segment" (index + 1) ++ ".leaf)")
    checkLinks (index + 1) (step :: rest)
  | _, _ => return ()

/-- The segment ends at this record: its last leaf, its last head and the head before it. -/
def checkEnd (steps : List SegmentStep) (leaf prevHead head : List UInt8) : Thrown Unit := do
  let last ← okOr steps.getLast? (malformed "chain.segment has no last entry")
  orFail (bytesEqual last.leaf leaf) .HeadMismatch
    "chain.segment's last leaf is not the leaf these preimage bytes produce"
  orFail (bytesEqual last.head head) .HeadMismatch "chain.segment's last head is not chain.head"
  match steps.dropLast.getLast? with
  | some second =>
    orFail (bytesEqual second.head prevHead) .HeadMismatch
      "chain.segment's second-to-last head is not chain.prev_head"
  | none => return ()

/-- The anchor, which alone decides whether position is established. -/
def anchorSegment (steps : List SegmentStep) (seq : ℤ) (prevHead genesis : List UInt8)
    (trustedHead : Option (List UInt8)) : Thrown SegmentOutcome := do
  let first ← okOr steps.head? (malformed "chain.segment has no first entry")
  if (steps.length : ℤ) = seq then
    let head ← Chain.advanceHead hasher genesis first.leaf
    orFail (bytesEqual head first.head) .HeadMismatch
      "chain.segment covers the whole chain and its first head does not follow from chain.genesis"
    orFail (¬ (steps.length = 1 ∧ ¬ bytesEqual prevHead genesis)) .HeadMismatch
      "the segment is one entry at seq 1 and chain.prev_head is not the genesis head"
    return {
      established := true
      detail := "the segment covers all " ++ toString steps.length ++ " record(s) of this chain " ++
        "and every head recomputes from h₀, which follows from the signed c"
      steps := steps.length }
  else
    match trustedHead with
    | some trusted =>
      let head ← Chain.advanceHead hasher trusted first.leaf
      orFail (bytesEqual head first.head) .HeadMismatch
        "chain.segment's first head does not follow from the head the caller supplied as trusted"
      return {
        established := true
        detail := "every head in a " ++ toString steps.length ++
          "-entry segment recomputes from " ++
          "the head the caller supplied, so the position holds relative to that input"
        steps := steps.length }
    | none =>
      return {
        established := false
        detail := "the " ++ toString steps.length ++ "-entry segment's links all recompute, and " ++
          "the record is at seq " ++ toString seq ++ ", so the segment starts at a head nothing " ++
          "here vouches for: supply it as trusted, or send a segment reaching h₀"
        steps := steps.length }

/-- Recomputes every head of `chain.segment` and says what that settles, `none` when the package
carries no segment. -/
def walkSegment (raw : Option Json) (seq : ℤ) (leaf prevHead head genesis : List UInt8)
    (trustedHead : Option (List UInt8)) : Thrown (Option SegmentOutcome) :=
  match raw with
  | none => return none
  | some .null => return none
  | some (.array raw) => do
    require (raw.length ≠ 0)
      (malformed "chain.segment is empty, and §2.5 gives it one entry per record")
    orFail (¬ seq < raw.length) .HeadMismatch
      ("chain.segment has " ++ toString raw.length ++ " entries and the record is at seq " ++
        toString seq ++ ": a chain cannot hold more records up to this one than its sequence " ++
        "number")
    let steps ← raw.zipIdx.mapM readStep
    checkLinks hasher 0 steps
    checkEnd steps leaf prevHead head
    let outcome ← anchorSegment hasher steps seq prevHead genesis trustedHead
    return some outcome
  | some _ => throw (malformed "chain.segment is not an array")

end Verifier

/-! ### The verifier -/

/-- The variables the verifier reports from, whether or not it throws. -/
structure Draft where
  leaf : Option (List UInt8)
  fields : Option LeafFromBytes
  flags : Option FlagReport
  chainPosition : ChainPosition
  checks : List Check
  notes : List String

/-- The draft a verification starts from. -/
def Draft.fresh : Draft where
  leaf := none
  fields := none
  flags := none
  chainPosition :=
    { established := false, detail := "verification did not reach the chain segment" }
  checks := []
  notes := []

namespace Draft

variable (draft : Draft)

/-- The draft with one more check. -/
def addCheck (check : Check) : Draft :=
  { draft with checks := draft.checks ++ [check] }

/-- The draft with one more note. -/
def addNote (note : String) : Draft :=
  { draft with notes := draft.notes ++ [note] }

/-- The draft with the fields of the leaf. -/
def setFields (fields : LeafFromBytes) : Draft :=
  { draft with fields := some fields }

/-- The draft with the leaf. -/
def setLeaf (leaf : List UInt8) : Draft :=
  { draft with leaf := some leaf }

/-- The draft with the chain position. -/
def setPosition (established : Bool) (detail : String) : Draft :=
  { draft with chainPosition := { established := established, detail := detail } }

/-- The draft with the report on the flags. -/
def setFlags (flags : FlagReport) : Draft :=
  { draft with flags := some flags }

/-- The report the draft is returned as. -/
def toReport (ok : Bool) (failure : Option ReportFailure) : DisclosureReport where
  ok := ok
  failure := failure
  leaf := draft.leaf
  fields := draft.fields
  flags := draft.flags
  chainPosition := draft.chainPosition
  checks := draft.checks
  notes := draft.notes

end Draft

/-- A verification in progress. -/
abbrev Verification (Output : Type) : Type :=
  Mutation Failure Draft Output

/-- Records a check that ran. -/
def recordCheck (name : String) (status : CheckStatus) (detail : Option String) :
    Verification Unit :=
  modify fun draft ↦ draft.addCheck { name := name, status := status, detail := detail }

/-- Adds a note. -/
def pushNote (note : String) : Verification Unit :=
  modify fun draft ↦ draft.addNote note

/-- The three objects of a package the verifier reads from. -/
structure Parts where
  record : Json
  chain : Json
  inclusion : Json

/-- Whether a value is the text of the schema. -/
def isDisclosureSchema : Option Json → Bool
  | some (.string schema) => schema == disclosureSchema
  | _ => false

/-- The name of the check that prev_head is the head before the record. -/
def positionCheck : String :=
  "prev_head is the chain's head at seq − 1"

section Stages

variable (stringify : Option Json → String) (hasher : Hasher) (verifier : Verifier)

/-- Is this a package at all, and does it hold only listed fields? -/
def openPackage (pkg : Json) : Thrown Parts := do
  require (isContainer pkg) (malformed "not an object")
  require (isDisclosureSchema (pkg.get "schema"))
    (malformed ("schema is " ++ stringify (pkg.get "schema") ++ ", not " ++ disclosureSchema))
  checkOnlyListedFields pkg packageShape ""
  let record ← must (pkg.get "record") "record"
  let chain ← must (pkg.get "chain") "chain"
  let inclusion ← must (pkg.get "inclusion") "inclusion"
  return { record := record, chain := chain, inclusion := inclusion }

/-- The bytes of `preimage_borsh`, an error of the decoder being a malformed package. -/
def readPreimage (pkg : Json) : Thrown (List UInt8) := do
  let value ← must (pkg.get "preimage_borsh") "preimage_borsh"
  match value with
  | .string s =>
    match base64Decode stringify s with
    | .ok preimage => return preimage
    | .error failure => throw (malformed ("preimage_borsh: " ++ failure.message))
  | _ => throw (malformed "preimage_borsh: base64: not a string")

/-- The signature, over the preimage bytes and no other encoding. -/
def checkSignature (pkg : Json) (qpKey preimage : List UInt8) : Thrown Unit :=
  match pkg.get "qp_signature" with
  | none => throw (.registryFailure .AttestationMissing "the package carries no qp_signature")
  | some .null => throw (.registryFailure .AttestationMissing "the package carries no qp_signature")
  | some value => do
    let signature ← hexField (some value) "qp_signature" 64
    orFail (ed25519Verify verifier qpKey preimage signature) .AttestationInvalid
      "qp_signature does not verify over preimage_borsh"

/-- A head of `chain`. -/
def readHead (chain : Json) (field : String) : Thrown (List UInt8) := do
  let value ← must (chain.get field) ("chain." ++ field)
  hexField (some value) ("chain." ++ field) 32

/-- The genesis head of the commitment inside the bytes. -/
def expectedGenesis (assetCommitment : List UInt8) : Thrown (List UInt8) := do
  let preimage ← genesisHeadPreimage assetCommitment Chain.schemaVersion
  return keccak256 hasher preimage

/-- What a walked segment leaves in the report. -/
def reportSegment (walked : SegmentOutcome) : Verification Unit := do
  modify fun draft ↦ draft.setPosition walked.established walked.detail
  recordCheck positionCheck (if walked.established then .pass else .unestablished) walked.detail
  recordCheck ("chain.segment's " ++ toString walked.steps ++ " head(s) recompute") .pass
    (some ("every link is Keccak256(TAG_HEAD ‖ hₙ ‖ leafₙ₊₁), recomputed here and not read from " ++
      "the package"))
  if walked.established = false then
    pushNote ("chain position not established: the segment recomputes but starts at a head " ++
      "nothing vouches for. Supply it as trusted, or send a segment reaching h₀.")
  pushNote
    ("the segment's links are unsigned: §1.3's leaf preimage covers neither prev_head nor " ++
    "head, so this checks the issuer's arithmetic and not the issuer's commitment to an " ++
    "ordering (INV-DISC-04).")

/-- Where the record sits in its chain: by the segment when there is one, else at the first
sequence number, else by the head the caller expects, else not established. -/
def settlePosition (walked : Option SegmentOutcome) (seq : ℤ) (prevHead genesis : List UInt8)
    (expectedPrevHead : Option (List UInt8)) : Verification Unit :=
  match walked with
  | some walked => reportSegment walked
  | none =>
    if seq = 1 then do
      orFail (bytesEqual prevHead genesis) .HeadMismatch
        "the record is at seq 1 and prev_head is not the genesis head"
      modify fun draft ↦ draft.setPosition true
        "the record is at seq 1 and prev_head is the genesis head, which follows from the signed c"
      recordCheck positionCheck .pass (some "at seq 1 that head is h₀, and h₀ follows from c")
    else if expectedPrevHead.isSome then do
      modify fun draft ↦ draft.setPosition true
        "prev_head is the head the caller supplied, so the position holds relative to that input"
      recordCheck positionCheck .pass (some "against the head the caller supplied")
    else do
      let detail := "the record is at seq " ++ toString seq ++
        " and nothing here pins prev_head: " ++
        "§1.3's leaf preimage does not cover it, so no signature binds it; the proof binds only " ++
        "the leaf; and INV-STATE-02 needs the leaves between h₀ and it, which one package does " ++
        "not carry"
      modify fun draft ↦ draft.setPosition false detail
      recordCheck positionCheck .unestablished (some detail)
      pushNote ("chain position not established: this package places the record at seq " ++
        toString seq ++
        " on its own word. Supply the expected prev_head, or the chain, to close it.")

/-- The chain section: the three heads, the genesis head, the expected head, the segment and the
head step. -/
def examineChain (chain : Json) (fields : LeafFromBytes) (leaf : List UInt8)
    (context : Option ChainContext) : Verification Unit := do
  let prevHead ← readHead chain "prev_head"
  let head ← readHead chain "head"
  let genesis ← readHead chain "genesis"
  let expected ← expectedGenesis hasher fields.assetCommitment
  orFail (bytesEqual genesis expected) .HeadMismatch
    ("chain.genesis is not Keccak256(TAG_HEAD ‖ c ‖ " ++ toString Chain.schemaVersion ++
      ") for the c this preimage carries")
  recordCheck "chain.genesis is this asset's genesis head under schema 1" .pass
    (some (toHex expected))
  let expectedPrevHead := context.bind ChainContext.expectedPrevHead
  orFail (¬ expectedPrevHead.any fun expected ↦ ¬ bytesEqual prevHead expected) .HeadMismatch
    "prev_head is not the head the caller expects this record to commit against"
  let walked ← walkSegment hasher (chain.get "segment") fields.seq leaf prevHead head genesis
    (context.bind ChainContext.trustedHead)
  settlePosition walked fields.seq prevHead genesis expectedPrevHead
  let next ← Chain.advanceHead hasher prevHead leaf
  orFail (bytesEqual next head) .HeadMismatch
    "chain.head is not Keccak256(TAG_HEAD ‖ prev_head ‖ leaf)"
  recordCheck "chain.head is consistent with prev_head and the leaf" .pass
    (some "an internal relation between two values the package supplies")

/-- The inclusion proof, against a root the caller obtained independently. -/
def examineInclusion (inclusion : Json) (leaf : List UInt8) (options : VerifyOptions) :
    Verification Unit := do
  let proof ← parseProof inclusion
  require (proof.epoch = options.root.epoch)
    (Failure.packageFailure .RootEpochMismatch ("the proof is for epoch " ++
      toString proof.epoch ++ " and the root for " ++ toString options.root.epoch))
  match options.configuredHeight with
  | none =>
    Tree.verifyInclusion hasher leaf proof options.root.root
    recordCheck "inclusion proof reaches the root" .pass
      (some "no configured height supplied, so §2.3's plain verify ran")
  | some height =>
    Tree.verifyInclusionForHeight hasher leaf proof options.root.root height
    recordCheck "inclusion proof reaches the root at the log's configured height" .pass
      (some ("H = " ++ toString height))

/-- The flags of a category under what the holder knows, the chain's other fields being absent. -/
def recomputeFlags (context : ChainContext) (category : ℤ) : ℕ :=
  Chain.computeFlags {
    assetCommitment := []
    schemaVersion := 0
    head := []
    seq := 0
    lastEffectiveAt := none
    sawResource := context.sawResource
    previousCategory := context.previousCategory } category

/-- The report on the flags, which are advisory and never a reason to refuse. -/
def flagReport (declared category : ℤ) : Option ChainContext → FlagReport
  | none => {
      declared := declared
      recomputed := none
      discrepancy := none
      note :=
        "not recomputable: bit 0 and bit 1 are properties of earlier records in the chain, " ++
        "which one package does not carry" }
  | some context => {
      declared := declared
      recomputed := some (recomputeFlags context category)
      discrepancy := some (decide ((recomputeFlags context category : ℤ) ≠ declared))
      note :=
        if (recomputeFlags context category : ℤ) ≠ declared then
          "declared flags differ from the flags this chain state produces"
        else
          "declared flags match" }

/-- Reports the flags. -/
def examineFlags (record : Json) (category : ℤ) (context : Option ChainContext) :
    Verification Unit := do
  let declared ← smallInt (record.get "flags") "record.flags" 0xffff
  let report := flagReport declared category context
  modify fun draft ↦ draft.setFlags report
  match context with
  | none => recordCheck "flags" .skipped (some report.note)
  | some context =>
    recordCheck "flags recomputed from the chain" .pass (some report.note)
    if report.discrepancy = some true then
      pushNote ("flag discrepancy: package declares " ++ toString declared ++
        ", the chain gives " ++ toString (recomputeFlags context category))

/-- The checks of the verifier, in order. -/
def examine (pkg : Json) (options : VerifyOptions) : Verification Unit := do
  let parts ← openPackage stringify pkg
  recordCheck "package carries only the fields §2.5 lists" .pass none
  let preimage ← readPreimage stringify pkg
  let fields ← readLeafPreimage preimage
  modify fun draft ↦ draft.setFields fields
  recordCheck "preimage_borsh decodes as a §1.3 leaf preimage" .pass none
  compareJsonToBytes parts.record fields
  recordCheck "JSON record agrees with the Borsh preimage" .pass
    (some "flags excluded per INV-DISC-03")
  let leaf := keccak256 hasher preimage
  modify fun draft ↦ draft.setLeaf leaf
  recordCheck "leaf recomputed from preimage_borsh" .pass (some (toHex leaf))
  checkSignature verifier pkg fields.qpKey preimage
  recordCheck "QP signature verifies over the 161 preimage bytes" .pass none
  examineChain hasher parts.chain fields leaf options.chainContext
  examineInclusion hasher parts.inclusion leaf options
  examineFlags parts.record fields.category options.chainContext

/-- A one-line description of a failure. -/
def describeFailure : Failure → String
  | .registryFailure name detail =>
    formatCode (registryCodes name) ++ " " ++ name.text ++ detailText detail
  | .packageFailure failure detail => failure.text ++ " (no §2.1 code)" ++ detailText detail
  | failure => failure.message

/-- What a report says of an error: something exactly when `isFailure` holds of it. -/
def reportFailure (failure : Failure) : Option ReportFailure :=
  match failure with
  | .registryFailure name _ => some (.registry (registryCodes name) name failure.message)
  | .packageFailure name _ => some (.package name failure.message)
  | _ => none

/-- The offline path: a record, a proof and a root. An error that is no failure of the two classes
is thrown on. -/
def verifyDisclosurePackage (pkg : Json) (options : VerifyOptions) : Thrown DisclosureReport :=
  match perform (examine stringify hasher verifier pkg options) Draft.fresh with
  | (.ok _, draft) => return draft.toReport true none
  | (.error failure, draft) =>
    match reportFailure failure with
    | some reported =>
      let check := { name := "verification", status := .fail, detail := describeFailure failure }
      return (draft.addCheck check).toReport false (some reported)
    | none => throw failure

end Stages

end AnchoredLog.Port.Disclosure
