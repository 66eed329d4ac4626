import AnchoredLog.Core.RecordHistory
import AnchoredLog.Port.DisclosureAcceptance

/-!
# Disclosure completeness

What the writers produce, the verifier accepts. A package is assembled from a record of a chain:
its fields, its preimage octets, the heads around it, the proof of its leaf in an epoch that holds
it, and optionally the last entries of the chain up to it. `accepted_contentsOf` checks the
assembled package against every condition of the verifier, and the completeness theorem applies
it to every record of every accepted sequence and every built epoch, for the Rust engine and for
its port.
-/

set_option autoImplicit false
set_option relaxedAutoImplicit false

namespace AnchoredLog.Port.DisclosureCompleteness

open AnchoredLog.Core
open Core.Preimages Library.ByteCodec Library.Fallible Primitives JsonFields Disclosure
open DisclosureAcceptance TreeAgreement

/-! ### Assembling a package -/

/-- What a package is assembled from. -/
structure Contents where
  record : Chain.RecordLeafInput
  flags : ℕ
  preimage : List UInt8
  prevHead : List UInt8
  head : List UInt8
  genesis : List UInt8
  segment : Option (List SegmentStep)
  signature : List UInt8
  proof : Tree.InclusionProof

/-- An integer as a decimal text. -/
def decimal (value : ℤ) : Json :=
  .string (toString value)

/-- Bytes as a hexadecimal text. -/
def hexText (bytes : List UInt8) : Json :=
  .string (toHex bytes)

/-- An entry of a segment. -/
def entryJson (step : SegmentStep) : Json :=
  .object [("leaf", hexText step.leaf), ("head", hexText step.head)]

namespace Contents

variable (contents : Contents)

def recordJson : Json :=
  .object [
    ("seq", decimal contents.record.seq),
    ("category", decimal contents.record.category),
    ("effective_at", decimal contents.record.effectiveAt),
    ("change_identified_at", decimal contents.record.changeIdentifiedAt),
    ("payload_digest", hexText contents.record.payloadDigest),
    ("assessment_digest", hexText contents.record.assessmentDigest),
    ("qp_key", hexText contents.record.qpKey),
    ("payload_uri", .string (String.ofList (contents.record.payloadUri.map Chain.fromCharCode))),
    ("flags", decimal contents.flags)]

def chainJson : Json :=
  .object ([
    ("prev_head", hexText contents.prevHead),
    ("head", hexText contents.head),
    ("genesis", hexText contents.genesis)] ++
      (contents.segment.map fun steps ↦ ("segment", Json.array (steps.map entryJson))).toList)

def inclusionJson : Json :=
  .object [
    ("epoch", decimal contents.proof.epoch),
    ("height", decimal contents.proof.height),
    ("slot_index", decimal contents.proof.slotIndex),
    ("siblings", .array (contents.proof.siblings.map hexText))]

/-- The package. -/
def package : Json :=
  .object [
    ("schema", .string disclosureSchema),
    ("record", contents.recordJson),
    ("preimage_borsh", .string (base64Encode contents.preimage)),
    ("chain", contents.chainJson),
    ("qp_signature", hexText contents.signature),
    ("inclusion", contents.inclusionJson)]

end Contents

/-! ### The package is well formed -/

theorem checkOnlyListedFields_scalars (texts : List (List UInt8)) (path : String) :
    checkElements (texts.map hexText) .scalar path 0 = .ok () := by
  rw [checkElements_eq_ok_iff]
  rintro ⟨element, index⟩ hmember
  obtain ⟨bytes, -, rfl⟩ := List.mem_map.mp (List.fst_mem_of_mem_zipIdx hmember)
  rfl

theorem checkOnlyListedFields_entries (steps : List SegmentStep) (path : String) :
    checkElements (steps.map entryJson) (.object [("leaf", .scalar), ("head", .scalar)]) path 0 =
      .ok () := by
  rw [checkElements_eq_ok_iff]
  rintro ⟨element, index⟩ hmember
  obtain ⟨step, -, rfl⟩ := List.mem_map.mp (List.fst_mem_of_mem_zipIdx hmember)
  rfl

/-- The shape of `chain`. -/
def chainShape : List (String × Shape) :=
  [("prev_head", .scalar), ("head", .scalar), ("genesis", .scalar),
    ("segment", .array [.object [("leaf", .scalar), ("head", .scalar)]])]

theorem checkFields_chain (contents : Contents) (path : String) :
    checkOnlyListedFields contents.chainJson (.object chainShape) path = .ok () := by
  rw [Contents.chainJson, checkOnlyListedFields, checkFields_eq_ok_iff, List.forall_mem_append]
  constructor
  · simp only [List.forall_mem_cons, List.not_mem_nil, false_implies, implies_true, and_true]
    exact ⟨⟨.scalar, rfl, rfl⟩, ⟨.scalar, rfl, rfl⟩, ⟨.scalar, rfl, rfl⟩⟩
  · intro entry hentry
    obtain ⟨steps, -, rfl⟩ := Option.map_eq_some_iff.mp (Option.mem_toList.mp hentry)
    refine ⟨.array [.object [("leaf", .scalar), ("head", .scalar)]], rfl, ?_⟩
    rw [checkOnlyListedFields]
    exact checkOnlyListedFields_entries steps _

theorem checkFields_inclusion (contents : Contents) (path : String) :
    checkOnlyListedFields contents.inclusionJson (.object [("epoch", .scalar), ("height", .scalar),
      ("slot_index", .scalar), ("siblings", .scalars)]) path = .ok () := by
  rw [Contents.inclusionJson, checkOnlyListedFields, checkFields_eq_ok_iff]
  simp only [List.forall_mem_cons, List.not_mem_nil, false_implies, implies_true, and_true]
  refine ⟨⟨.scalar, rfl, rfl⟩, ⟨.scalar, rfl, rfl⟩, ⟨.scalar, rfl, rfl⟩, .scalars, rfl, ?_⟩
  rw [checkOnlyListedFields]
  exact checkOnlyListedFields_scalars contents.proof.siblings _

/-- An assembled package holds only listed fields. -/
theorem checkOnlyListedFields_package (contents : Contents) :
    checkOnlyListedFields contents.package packageShape "" = .ok () := by
  rw [Contents.package, packageShape, checkOnlyListedFields, checkFields_eq_ok_iff]
  simp only [List.forall_mem_cons, List.not_mem_nil, false_implies, implies_true, and_true]
  exact ⟨⟨_, rfl, rfl⟩, ⟨_, rfl, rfl⟩, ⟨_, rfl, rfl⟩, ⟨_, rfl, checkFields_chain contents _⟩,
    ⟨_, rfl, rfl⟩, ⟨_, rfl, checkFields_inclusion contents _⟩⟩

theorem openPackage_package (stringify : Option Json → String) (contents : Contents) :
    openPackage stringify contents.package =
      .ok ⟨contents.recordJson, contents.chainJson, contents.inclusionJson⟩ := by
  have hcontainer : isContainer contents.package = true := rfl
  have hschema : isDisclosureSchema (contents.package.get "schema") = true := rfl
  rw [openPackage, require_of_true hcontainer, bind_ok, require_of_true hschema, bind_ok,
    checkOnlyListedFields_package, bind_ok]
  rfl

/-! ### Reading it back -/

theorem readPreimage_package (stringify : Option Json → String) (contents : Contents) :
    readPreimage stringify contents.package = .ok contents.preimage := by
  have hvalue : must (contents.package.get "preimage_borsh") "preimage_borsh" =
      .ok (.string (base64Encode contents.preimage)) := rfl
  rw [readPreimage, hvalue, bind_ok]
  simp only [base64Decode_base64Encode, pure_eq_ok]

theorem intField_decimal (value : ℤ) (what : String) :
    intField (some (decimal value)) what = .ok value :=
  intField_toString value what

theorem smallInt_decimal {value max : ℤ} (hvalue : 0 ≤ value ∧ value ≤ max) (what : String) :
    smallInt (some (decimal value)) what max = .ok value :=
  smallInt_eq_ok_iff.mpr ⟨intField_decimal value what, hvalue⟩

theorem hexField_hexText {bytes : List UInt8} {width : ℕ} (hlength : bytes.length = width)
    (what : String) : hexField (some (hexText bytes)) what width = .ok bytes :=
  hexField_toHex hlength what

theorem readHead_hexText {chain : Json} {field : String} {bytes : List UInt8}
    (hfield : chain.get field = some (hexText bytes)) (hlength : bytes.length = 32) :
    readHead chain field = .ok bytes := by
  have hmust : must (some (hexText bytes)) ("chain." ++ field) = .ok (hexText bytes) := rfl
  rw [readHead, hfield, hmust, bind_ok, hexField_hexText hlength]

theorem parseProof_inclusionJson {contents : Contents}
    {proof : Log.EpochTree.InclusionProof} (hproof : contents.proof = proofOf proof) :
    parseProof contents.inclusionJson = .ok (proofOf proof) := by
  have hheight := proof.height.toNat_lt
  have hslot := proof.slotIndex.toNat_lt
  have hsiblings : ((contents.proof.siblings.map hexText).zipIdx).mapM readSibling =
      .ok contents.proof.siblings := by
    rw [hproof, proofOf, List.map_map]
    exact mapM_zipIdx_map (fun digest _ ↦ hexField_hexText digest.length_octets _) _ 0
  have hepochField : must (contents.inclusionJson.get "epoch") "inclusion.epoch" =
      .ok (decimal contents.proof.epoch) := rfl
  have hheightField : must (contents.inclusionJson.get "height") "inclusion.height" =
      .ok (decimal contents.proof.height) := rfl
  have hslotField : must (contents.inclusionJson.get "slot_index") "inclusion.slot_index" =
      .ok (decimal contents.proof.slotIndex) := rfl
  have hsiblingsField : must (contents.inclusionJson.get "siblings") "inclusion.siblings" =
      .ok (.array (contents.proof.siblings.map hexText)) := rfl
  rw [parseProof, hepochField, bind_ok, intField_decimal, bind_ok, hheightField, bind_ok,
    smallInt_decimal (by rw [hproof]; simp only [proofOf]; omega), bind_ok, hslotField, bind_ok,
    smallInt_decimal (by rw [hproof]; simp only [proofOf]; omega), bind_ok, hsiblingsField,
    bind_ok]
  simp only [hsiblings, bind_ok, pure_eq_ok]
  rw [hproof]

theorem readStep_entryJson (link : Link) (index : ℕ) :
    readStep (entryJson (stepOf link), index) = .ok (stepOf link) := by
  have hleaf : ∀ what, must ((entryJson (stepOf link)).get "leaf") what =
      .ok (hexText link.leaf.octets) := fun _ ↦ rfl
  have hhead : ∀ what, must ((entryJson (stepOf link)).get "head") what =
      .ok (hexText link.head.octets) := fun _ ↦ rfl
  have hcontainer : isContainer (entryJson (stepOf link)) = true := rfl
  simp only [readStep, hleaf, hhead]
  rw [require_of_true hcontainer, bind_ok, bind_ok, hexField_hexText link.leaf.length_octets,
    bind_ok, bind_ok, hexField_hexText link.head.length_octets, bind_ok]
  rfl

/-! ### The assembled package is accepted -/

/-- What the package of a record of the engine is assembled from. -/
def contentsOf (hasher : Hasher) (assetCommitment : Digest) (r : RecordChain.RecordLeafInput)
    (flags : UInt16) (prevHead : Digest) (segment : Option (List Link)) (signature : Signature)
    (proof : Log.EpochTree.InclusionProof) : Contents where
  record := Chain.ofRecord r
  flags := flags.toNat
  preimage := RecordChain.leafMessage assetCommitment r
  prevHead := prevHead.octets
  head := (RecordChain.headStep hasher prevHead
    (RecordChain.leafDigest hasher assetCommitment r)).octets
  genesis := (hasher.hash (RecordChain.genesisMessage assetCommitment)).octets
  segment := segment.map (List.map stepOf)
  signature := signature.octets
  proof := proofOf proof

/-- What that package is read as. -/
def evidenceOf (hasher : Hasher) (assetCommitment : Digest) (r : RecordChain.RecordLeafInput)
    (flags : UInt16) (prevHead : Digest) (segment : Option (List Link)) (signature : Signature)
    (proof : Log.EpochTree.InclusionProof) : Evidence where
  parts :=
    let contents := contentsOf hasher assetCommitment r flags prevHead segment signature proof
    { record := contents.recordJson
      chain := contents.chainJson
      inclusion := contents.inclusionJson }
  preimage := RecordChain.leafPreimage assetCommitment r
  signature := signature
  prevHead := prevHead
  head := RecordChain.headStep hasher prevHead (RecordChain.leafDigest hasher assetCommitment r)
  segment := segment
  proof := proofOf proof
  declared := flags.toNat

section Accepted

variable {stringify : Option Json → String} {hasher : Hasher} {verifier : Verifier}
  {assetCommitment : Digest} {r : RecordChain.RecordLeafInput} {flags : UInt16} {prevHead : Digest}
  {segment : Option (List Link)} {signature : Signature} {proof : Log.EpochTree.InclusionProof}

theorem displays_contentsOf :
    Displays (contentsOf hasher assetCommitment r flags prevHead segment signature
      proof).recordJson (RecordChain.leafPreimage assetCommitment r) where
  seq := intField_decimal _ _
  payloadDigest := hexField_hexText r.payloadDigest.length_octets _
  assessmentDigest := hexField_hexText r.assessmentDigest.length_octets _
  qpKey := hexField_hexText r.qpKey.length_octets _
  category := by
    have hcategory := r.category.toNat_lt
    exact smallInt_decimal (by simp only [contentsOf, Chain.ofRecord]; omega) _
  effectiveAt := intField_decimal _ _
  changeIdentifiedAt := intField_decimal _ _

theorem segmentRead_contentsOf :
    SegmentRead ((contentsOf hasher assetCommitment r flags prevHead segment signature
      proof).chainJson.get "segment") segment := by
  cases segment with
  | none => exact .absent
  | some links =>
    refine SegmentRead.links ?_
    rw [List.map_map]
    exact mapM_zipIdx_map readStep_entryJson links 0

theorem accepted_contentsOf {options : VerifyOptions} (hseq : 1 ≤ r.seq.toNat)
    (hcategory : r.category.toNat ≤ 4)
    (hvalid : verifier.valid r.qpKey (RecordChain.leafMessage assetCommitment r) signature = true)
    (hexpected : ∀ octets ∈ expectedPrevHead options.chainContext, octets = prevHead.octets)
    (hwalked : ∀ links ∈ segment, Walked hasher links r.seq.toNat
      (RecordChain.leafDigest hasher assetCommitment r) prevHead
      (RecordChain.headStep hasher prevHead (RecordChain.leafDigest hasher assetCommitment r))
      (hasher.hash (RecordChain.genesisMessage assetCommitment))
      (trustedHead options.chainContext))
    (hfirst : r.seq.toNat = 1 → prevHead = hasher.hash (RecordChain.genesisMessage assetCommitment))
    (hepoch : (proof.epoch.toNat : ℤ) = options.root.epoch)
    (hplain : Tree.verifyInclusion hasher (RecordChain.leafDigest hasher assetCommitment r).octets
      (proofOf proof) options.root.root = .ok ())
    (hheight : ∀ height ∈ options.configuredHeight, (proof.height.toNat : ℤ) = height) :
    Accepted stringify hasher verifier
      (contentsOf hasher assetCommitment r flags prevHead segment signature proof).package options
      (evidenceOf hasher assetCommitment r flags prevHead segment signature proof) where
  opened := openPackage_package stringify _
  preimage := readPreimage_package stringify _
  one_le_seq := hseq
  category_le := hcategory
  displays := displays_contentsOf
  signature := hexField_hexText signature.length_octets _
  attested := hvalid
  chain := {
    readPrevHead := readHead_hexText rfl prevHead.length_octets
    readHead := readHead_hexText rfl (Octets.length_octets _)
    readGenesis := readHead_hexText rfl (Octets.length_octets _)
    expected := hexpected
    readSegment := segmentRead_contentsOf
    walked := hwalked
    first := fun _ ↦ hfirst
    step := rfl }
  inclusion := {
    parsed := parseProof_inclusionJson rfl
    epoch := hepoch
    plain := fun _ ↦ hplain
    configured := fun height hmember ↦ bind_unit_eq_ok_iff.mpr
      ⟨orFail_eq_ok_iff.mpr (hheight height hmember), hplain⟩ }
  declared := by
    have hflags := flags.toNat_lt
    exact smallInt_decimal (by simp only [contentsOf]; omega) _

end Accepted

/-! ### The segments of a chain -/

section Segments

variable (hasher : Hasher) (assetCommitment : Digest)

/-- The links of records from a head on. -/
def linksFrom : Digest → List RecordChain.RecordLeafInput → List Link
  | _, [] => []
  | head, r :: records =>
    let leaf := RecordChain.leafDigest hasher assetCommitment r
    let next := RecordChain.headStep hasher head leaf
    ⟨leaf, next⟩ :: linksFrom next records

/-- The list of leaves and heads of a chain, from genesis. -/
def linksOf (records : List RecordChain.RecordLeafInput) : List Link :=
  linksFrom hasher assetCommitment (hasher.hash (RecordChain.genesisMessage assetCommitment))
    records

/-- The head after records from a head on. -/
def headAfter (head : Digest) (records : List RecordChain.RecordLeafInput) : Digest :=
  (records.map (RecordChain.leafDigest hasher assetCommitment)).foldl (RecordChain.headStep hasher)
    head

variable {hasher assetCommitment}

theorem linksFrom_append (head : Digest) (front back : List RecordChain.RecordLeafInput) :
    linksFrom hasher assetCommitment head (front ++ back) =
      linksFrom hasher assetCommitment head front ++
        linksFrom hasher assetCommitment (headAfter hasher assetCommitment head front) back := by
  induction front generalizing head with
  | nil => rfl
  | cons r front ih =>
    simp only [List.cons_append, linksFrom, ih]
    rfl

@[simp] theorem length_linksFrom (head : Digest) (records : List RecordChain.RecordLeafInput) :
    (linksFrom hasher assetCommitment head records).length = records.length := by
  induction records generalizing head with
  | nil => rfl
  | cons r records ih => simp [linksFrom, ih]

theorem follows_of_head? {head : Digest} {records : List RecordChain.RecordLeafInput} {first : Link}
    (hfirst : first ∈ (linksFrom hasher assetCommitment head records).head?) :
    RecordChain.headStep hasher head first.leaf = first.head := by
  cases records with
  | nil => simp [linksFrom] at hfirst
  | cons r records =>
    obtain rfl := Option.some.inj hfirst
    rfl

theorem isChain_linksFrom (head : Digest) (records : List RecordChain.RecordLeafInput) :
    (linksFrom hasher assetCommitment head records).IsChain (Follows hasher) := by
  induction records generalizing head with
  | nil => exact .nil
  | cons r records ih =>
    rw [linksFrom, List.isChain_cons]
    exact ⟨fun first hfirst ↦ follows_of_head? hfirst, ih _⟩

theorem head_of_getLast? {head : Digest} {records : List RecordChain.RecordLeafInput} {last : Link}
    (hlast : last ∈ (linksFrom hasher assetCommitment head records).getLast?) :
    last.head = headAfter hasher assetCommitment head records := by
  cases records using List.reverseRecOn with
  | nil => simp [linksFrom] at hlast
  | append_singleton records r =>
    rw [linksFrom_append, linksFrom, linksFrom, List.getLast?_concat] at hlast
    obtain rfl := Option.some.inj hlast
    simp [headAfter]

theorem headAfter_append (head : Digest) (front back : List RecordChain.RecordLeafInput) :
    headAfter hasher assetCommitment head (front ++ back) =
      headAfter hasher assetCommitment (headAfter hasher assetCommitment head front) back := by
  simp [headAfter]

/-- A suffix of the links of a chain is the links of the later records from the head before
them. -/
theorem drop_linksOf (records : List RecordChain.RecordLeafInput) {count : ℕ}
    (hcount : count ≤ records.length) :
    (linksOf hasher assetCommitment records).drop count =
      linksFrom hasher assetCommitment
        (RecordHistory.headOf hasher assetCommitment (records.take count))
        (records.drop count) := by
  have hsplit := @linksFrom_append hasher assetCommitment
    (hasher.hash (RecordChain.genesisMessage assetCommitment)) (records.take count)
    (records.drop count)
  rw [List.take_append_drop] at hsplit
  rw [linksOf, hsplit]
  refine List.drop_left' ?_
  rw [length_linksFrom, List.length_take, Nat.min_eq_left hcount]

/-- Every suffix of the links of a chain that ends at a record passes the walk, when a head the
caller trusts is the head before the suffix. -/
theorem walked_drop {earlier : List RecordChain.RecordLeafInput} {r : RecordChain.RecordLeafInput}
    {count : ℕ} {trustedHead : Option (List UInt8)} (hcount : count ≤ earlier.length)
    (hseq : r.seq.toNat = earlier.length + 1)
    (htrusted : 0 < count → ∀ octets ∈ trustedHead,
      octets = (RecordHistory.headOf hasher assetCommitment (earlier.take count)).octets) :
    Walked hasher ((linksOf hasher assetCommitment (earlier ++ [r])).drop count) r.seq.toNat
      (RecordChain.leafDigest hasher assetCommitment r)
      (RecordHistory.headOf hasher assetCommitment earlier)
      (RecordChain.headStep hasher (RecordHistory.headOf hasher assetCommitment earlier)
        (RecordChain.leafDigest hasher assetCommitment r))
      (hasher.hash (RecordChain.genesisMessage assetCommitment)) trustedHead := by
  have hreach : headAfter hasher assetCommitment
      (RecordHistory.headOf hasher assetCommitment (earlier.take count)) (earlier.drop count) =
        RecordHistory.headOf hasher assetCommitment earlier := by
    have happend := @headAfter_append hasher assetCommitment
      (hasher.hash (RecordChain.genesisMessage assetCommitment)) (earlier.take count)
      (earlier.drop count)
    rw [List.take_append_drop] at happend
    exact happend.symm
  rw [drop_linksOf _ (by rw [List.length_append]; omega), List.take_append_of_le_length hcount,
    List.drop_append_of_le_length hcount]
  have hlength : (linksFrom hasher assetCommitment
      (RecordHistory.headOf hasher assetCommitment (earlier.take count))
      (earlier.drop count ++ [r])).length = earlier.length - count + 1 := by
    rw [length_linksFrom, List.length_append, List.length_drop, List.length_singleton]
  constructor
  · exact List.ne_nil_of_length_pos (by omega)
  · omega
  · exact isChain_linksFrom _ _
  · rw [linksFrom_append, linksFrom, linksFrom, List.getLast?_concat, hreach]
  · intro second hsecond
    rw [linksFrom_append, linksFrom, linksFrom, List.dropLast_concat] at hsecond
    rw [head_of_getLast? hsecond, hreach]
  · constructor
    · intro hwhole first hfirst
      have hfront : earlier.take count = [] := by
        rw [List.take_eq_nil_iff]
        rw [hlength] at hwhole
        by_cases hzero : count = 0
        · exact Or.inl hzero
        · exact Or.inr (List.eq_nil_of_length_eq_zero (by omega))
      rw [hfront] at hfirst
      exact follows_of_head? hfirst
    · intro hwhole hone
      have hempty : earlier = [] := List.eq_nil_of_length_eq_zero (by omega)
      rw [hempty]
      rfl
    · intro hshort octets hoctets
      have hpositive : 0 < count := by
        by_contra hzero
        exact hshort (by rw [hlength]; omega)
      exact ⟨_, htrusted hpositive octets hoctets, fun first hfirst ↦ follows_of_head? hfirst⟩

end Segments

/-! ### The two writers -/

section Writers

variable (hasher : Hasher) (verifier : Verifier)

/-- The port's state after one record that is accepted. -/
def portAccept (state : Chain.ChainState) (r : Chain.RecordLeafInput) :
    Thrown Chain.ChainState := do
  let applied ← Chain.applyRecord hasher verifier state r
  return Chain.commit state r applied

/-- The port's state after a sequence of records that are all accepted. -/
def portAcceptAll (assetCommitment : Digest) (records : List RecordChain.RecordLeafInput) :
    Thrown Chain.ChainState :=
  (records.map Chain.ofRecord).foldlM (portAccept hasher verifier)
    (Chain.freshState hasher assetCommitment)

/-- What the two writers produced around one record and one epoch that holds its leaf: the chain
before the record and what applying it returned, on both sides, and the proof of the leaf, from
both trees. -/
structure Written (assetCommitment : Digest) (earlier : List RecordChain.RecordLeafInput)
    (r : RecordChain.RecordLeafInput) (key : Digest) (real : List (SubmissionId × Digest))
    (built : Log.EpochTree.BuiltEpoch) (id : SubmissionId) (before : RecordChain.AssetChain)
    (applied : RecordChain.Applied) (signature : Signature)
    (proof : Log.EpochTree.InclusionProof) : Prop where
  accepted : RecordHistory.acceptAll hasher verifier assetCommitment earlier = .ok before
  applies : ∃ after, perform (RecordChain.apply hasher verifier r) before = (.ok applied, after)
  leaf_eq : applied.leaf = RecordChain.leafDigest hasher assetCommitment r
  head_eq : applied.head = RecordChain.headStep hasher before.head applied.leaf
  signed : r.signature = some signature
  proves : built.proof id = .ok proof
  port : ∃ state result, portAcceptAll hasher verifier assetCommitment earlier = .ok state ∧
    Chain.Represents before state ∧
    Chain.applyRecord hasher verifier state (Chain.ofRecord r) = .ok result ∧
    Chain.SameApplied applied result
  portTree : ∃ port, Tree.buildEpoch hasher built.epoch.toNat built.height.toNat key.octets
      (real.map submissionOf) = .ok port ∧ SameBuilt built port ∧
    Tree.proofFor hasher port id.octets = .ok (proofOf proof)

variable {verifier}

theorem exists_applyRecord {chain : RecordChain.AssetChain} {state : Chain.ChainState}
    (hrepresents : Chain.Represents chain state) {r : RecordChain.RecordLeafInput}
    (haccept : RecordChain.Acceptable verifier chain r) :
    ∃ result, Chain.applyRecord hasher verifier state (Chain.ofRecord r) = .ok result ∧
      Chain.SameApplied (RecordChain.appliedOf hasher chain r) result := by
  have hagree := Chain.agree_judge hasher verifier hrepresents r
  rw [(RecordChain.judge_eq_ok_iff hasher verifier chain r _).mpr ⟨haccept, rfl⟩] at hagree
  exact hagree.exists_of_ok

variable {hasher}

/-- The port accepts what the engine accepts, and its state stands for the engine's. -/
theorem exists_portAcceptAll {assetCommitment : Digest}
    {records : List RecordChain.RecordLeafInput} {chain : RecordChain.AssetChain}
    (haccepted : RecordHistory.acceptAll hasher verifier assetCommitment records = .ok chain) :
    ∃ state, portAcceptAll hasher verifier assetCommitment records = .ok state ∧
      Chain.Represents chain state := by
  induction records using List.reverseRecOn generalizing chain with
  | nil =>
    rw [RecordHistory.acceptAll, RecordChain.start_eq, bind_ok, List.foldlM_nil, pure_eq_ok,
      Except.ok.injEq] at haccepted
    subst haccepted
    exact ⟨_, rfl, rfl, rfl, rfl, rfl, Or.inr ⟨rfl, rfl⟩, rfl, rfl⟩
  | append_singleton records r ih =>
    obtain ⟨before, hbefore, haccept, rfl⟩ :=
      (RecordHistory.acceptAll_concat_iff hasher verifier).mp haccepted
    obtain ⟨state, hstate, hrepresents⟩ := ih hbefore
    obtain ⟨result, hresult, hsame⟩ := exists_applyRecord hasher hrepresents haccept
    refine ⟨_, ?_, Chain.represents_commit hasher hrepresents hsame.head⟩
    rw [portAcceptAll] at hstate ⊢
    rw [List.map_append, List.foldlM_append, hstate, bind_ok, List.map_singleton,
      List.foldlM_cons, portAccept, hresult]
    rfl

end Writers

/-! ### Completeness -/

section Completeness

variable {stringify : Option Json → String} {hasher : Hasher} {verifier : Verifier}
  {assetCommitment : Digest} {earlier later : List RecordChain.RecordLeafInput}
  {r : RecordChain.RecordLeafInput} {chain before : RecordChain.AssetChain}
  {applied : RecordChain.Applied} {signature : Signature} {epoch : UInt64} {height : UInt8}
  {key : Digest} {real : List (SubmissionId × Digest)} {built : Log.EpochTree.BuiltEpoch}
  {id : SubmissionId} {proof : Log.EpochTree.InclusionProof}

/-- Every record of an accepted sequence and every built epoch that holds its leaf were written by
both writers. -/
theorem exists_written
    (haccepted : RecordHistory.acceptAll hasher verifier assetCommitment (earlier ++ r :: later) =
      .ok chain)
    (hbuild : Log.EpochTree.build hasher epoch height key real = .ok built)
    (hmember : (id, RecordChain.leafDigest hasher assetCommitment r) ∈ real) :
    ∃ before applied signature proof, Written hasher verifier assetCommitment earlier r key real
      built id before applied signature proof := by
  rw [List.append_cons] at haccepted
  obtain ⟨after, hafter⟩ := RecordHistory.exists_acceptAll_of_append hasher verifier haccepted
  obtain ⟨before, hbefore, haccept, rfl⟩ :=
    (RecordHistory.acceptAll_concat_iff hasher verifier).mp hafter
  obtain ⟨hhistory, -⟩ := RecordHistory.acceptAll_eq_ofHistory hasher verifier hbefore
  have hcommitment : before.assetCommitment = assetCommitment := by
    rw [hhistory]
    rfl
  obtain ⟨signature, hsignature, -⟩ := haccept.attestation
  have hbuilt := Log.TreeCompleteness.builtFrom_of_build hbuild
  obtain ⟨proof, hproof, -⟩ := hbuilt.accepted hmember
  obtain ⟨state, hstate, hrepresents⟩ := exists_portAcceptAll hbefore
  obtain ⟨result, hresult, hsame⟩ := exists_applyRecord hasher hrepresents haccept
  have hport := agree_build hasher epoch height key real
  rw [hbuild] at hport
  obtain ⟨port, hport, hsameBuilt⟩ := hport.exists_of_ok
  have hportProof := agree_proof hbuilt hsameBuilt id
  rw [hproof] at hportProof
  obtain ⟨portProof, hportProof, rfl⟩ := hportProof.exists_of_ok
  refine ⟨before, RecordChain.appliedOf hasher before r, signature, proof, hbefore,
    ⟨RecordChain.commit hasher before r, ?_⟩, ?_, rfl, hsignature, hproof,
    ⟨state, result, hstate, hrepresents, hresult, hsame⟩, port, ?_, hsameBuilt, hportProof⟩
  · exact (RecordChain.perform_apply_eq_ok_iff hasher verifier _ _ _ _).mpr ⟨haccept, rfl, rfl⟩
  · rw [RecordChain.appliedOf, hcommitment]
  · rw [hbuilt.epoch_eq, hbuilt.height_eq]
    exact hport

/-- The options of a caller that knows the epoch, and whose heads, where it gives them, are the
chain's own: the head before the record, and the head before the segment. -/
structure TrueOptions (hasher : Hasher) (assetCommitment : Digest)
    (earlier : List RecordChain.RecordLeafInput) (built : Log.EpochTree.BuiltEpoch)
    (skipped : Option ℕ) (options : VerifyOptions) : Prop where
  root : options.root = ⟨built.epoch.toNat, built.root.octets⟩
  height : ∀ height ∈ options.configuredHeight, height = built.height.toNat
  expected : ∀ octets ∈ expectedPrevHead options.chainContext,
    octets = (RecordHistory.headOf hasher assetCommitment earlier).octets
  trusted : ∀ count ∈ skipped, 0 < count → ∀ octets ∈ trustedHead options.chainContext,
    octets = (RecordHistory.headOf hasher assetCommitment (earlier.take count)).octets

/-- The segment of a package: the links up to the record after those skipped. -/
def segmentOf (hasher : Hasher) (assetCommitment : Digest)
    (earlier : List RecordChain.RecordLeafInput) (r : RecordChain.RecordLeafInput)
    (skipped : Option ℕ) : Option (List Link) :=
  skipped.map fun count ↦ (linksOf hasher assetCommitment (earlier ++ [r])).drop count

/-- The cases in which the position is established: the first record, a whole segment, a shorter
one with a trusted head, and no segment with an expected head. -/
def PositionKnown (r : RecordChain.RecordLeafInput) (skipped : Option ℕ)
    (context : Option ChainContext) : Prop :=
  r.seq = 1 ∨ skipped = some 0 ∨ (skipped.isSome ∧ (trustedHead context).isSome) ∨
    (skipped = none ∧ (expectedPrevHead context).isSome)

theorem acceptable_of_written
    (hwritten : Written hasher verifier assetCommitment earlier r key real built id before applied
      signature proof) :
    RecordChain.Acceptable verifier before r ∧ applied = RecordChain.appliedOf hasher before r ∧
      before = RecordHistory.ofHistory hasher assetCommitment earlier ∧
      r.seq.toNat = earlier.length + 1 := by
  obtain ⟨after, happlies⟩ := hwritten.applies
  obtain ⟨haccept, happlied, -⟩ :=
    (RecordChain.perform_apply_eq_ok_iff hasher verifier _ _ _ _).mp happlies
  obtain ⟨hhistory, hlength⟩ :=
    RecordHistory.acceptAll_eq_ofHistory hasher verifier hwritten.accepted
  exact ⟨haccept, happlied, hhistory, by rw [haccept.seq, hlength]⟩

/-- The package of a written record is accepted, whatever suffix of the chain it carries. -/
theorem accepted_of_written
    (hwritten : Written hasher verifier assetCommitment earlier r key real built id before applied
      signature proof)
    (hbuild : Log.EpochTree.build hasher epoch height key real = .ok built)
    (hmember : (id, RecordChain.leafDigest hasher assetCommitment r) ∈ real) {skipped : Option ℕ}
    (hskipped : ∀ count ∈ skipped, count ≤ earlier.length) {options : VerifyOptions}
    (htrue : TrueOptions hasher assetCommitment earlier built skipped options) :
    Accepted stringify hasher verifier
      (contentsOf hasher assetCommitment r applied.flags before.head
        (segmentOf hasher assetCommitment earlier r skipped) signature proof).package options
      (evidenceOf hasher assetCommitment r applied.flags before.head
        (segmentOf hasher assetCommitment earlier r skipped) signature proof) := by
  obtain ⟨haccept, -, hhistory, hseq⟩ := acceptable_of_written hwritten
  have hhead : before.head = RecordHistory.headOf hasher assetCommitment earlier := by
    rw [hhistory]
    rfl
  have hbuilt := Log.TreeCompleteness.builtFrom_of_build hbuild
  obtain ⟨honest, hhonest, hheight, hepoch, hverified⟩ := hbuilt.accepted hmember
  obtain rfl := Except.ok.inj (hhonest.symm.trans hwritten.proves)
  rw [hhead]
  refine accepted_contentsOf ?_ ?_ ?_ htrue.expected ?_ ?_ ?_ ?_ ?_
  · omega
  · exact UInt8.le_iff_toNat_le.mp haccept.category
  · obtain ⟨found, hfound, hvalid⟩ := haccept.attestation
    obtain rfl := Option.some.inj (hfound.symm.trans hwritten.signed)
    rw [hhistory] at hvalid
    exact hvalid
  · intro links hlinks
    obtain ⟨count, hcount, rfl⟩ := Option.map_eq_some_iff.mp hlinks
    exact walked_drop (hskipped count hcount) hseq (htrue.trusted count hcount)
  · intro hfirst
    obtain rfl : earlier = [] := List.eq_nil_of_length_eq_zero (by omega)
    rfl
  · rw [htrue.root, hepoch, hbuilt.epoch_eq]
  · rw [htrue.root]
    exact verifyInclusion_eq_ok_iff.mpr hverified
  · intro configured hconfigured
    rw [htrue.height configured hconfigured, hheight, hbuilt.height_eq]

theorem establishedBy_segmentOf (hseq : r.seq.toNat = earlier.length + 1) {skipped : Option ℕ}
    (hskipped : ∀ count ∈ skipped, count ≤ earlier.length) {context : Option ChainContext}
    (hknown : PositionKnown r skipped context) :
    establishedBy (segmentOf hasher assetCommitment earlier r skipped) r.seq.toNat context =
      true := by
  have hone : r.seq = 1 ↔ earlier.length = 0 := by
    rw [← UInt64.toNat_inj, hseq, UInt64.toNat_one]
    omega
  rw [PositionKnown, hone] at hknown
  cases skipped with
  | none =>
    have hcases : r.seq.toNat = 1 ∨ (expectedPrevHead context).isSome = true := by
      rcases hknown with hfirst | hwhole | ⟨hsome, -⟩ | ⟨-, hexpected⟩
      · exact Or.inl (by omega)
      · exact absurd hwhole (by simp)
      · exact absurd hsome (by simp)
      · exact Or.inr hexpected
    simpa [establishedBy, segmentOf] using hcases
  | some count =>
    have hlength : ((linksOf hasher assetCommitment (earlier ++ [r])).drop count).length =
        earlier.length + 1 - count := by
      rw [List.length_drop, linksOf, length_linksFrom, List.length_append, List.length_singleton]
    have hle := hskipped count rfl
    have hcases : ((linksOf hasher assetCommitment (earlier ++ [r])).drop count).length =
        r.seq.toNat ∨ (trustedHead context).isSome = true := by
      rcases hknown with hfirst | hwhole | ⟨-, htrusted⟩ | ⟨hnone, -⟩
      · exact Or.inl (by omega)
      · exact Or.inl (by rw [hlength, Option.some.inj hwhole, hseq, Nat.sub_zero])
      · exact Or.inr htrusted
      · exact absurd hnone (by simp)
    simpa only [establishedBy, segmentOf, Option.map_some, Option.getD_some, decide_eq_true_iff]
      using hcases

/-- A context that carries the true history summary gives the flags the engine returned. -/
theorem recomputeFlags_eq (haccept : RecordChain.Acceptable verifier before r)
    {context : ChainContext} (hresource : context.sawResource = before.sawResource)
    (hprevious : context.previousCategory =
      before.previousCategory.map fun category ↦ (category.toNat : ℤ)) :
    recomputeFlags context r.category.toNat = (before.flagsFor r).toNat := by
  let state : Chain.ChainState := {
    assetCommitment := before.assetCommitment.octets
    schemaVersion := before.schemaVersion.toNat
    head := before.head.octets
    seq := before.seq.toNat
    lastEffectiveAt := some before.lastEffectiveAt.toInt
    sawResource := context.sawResource
    previousCategory := context.previousCategory }
  have hrepresents : Chain.Represents before state :=
    ⟨rfl, rfl, rfl, rfl, Or.inl rfl, hresource, hprevious⟩
  exact Chain.computeFlags_eq hrepresents haccept.category

/-- Disclosure completeness. For every asset, every sequence of records accepted from genesis,
every record of it and every epoch built over submissions that include its leaf: both writers
produced the record's chain state and its proof, and the package assembled from them, with no
segment or with any non-empty suffix of the links up to the record, is accepted against the
epoch's root and height; its position is established in each of the four cases; and a caller with
the true history summary recomputes the flags the engine returned, so that no discrepancy is
reported. -/
theorem disclosure_complete (stringify : Option Json → String)
    (haccepted : RecordHistory.acceptAll hasher verifier assetCommitment (earlier ++ r :: later) =
      .ok chain)
    (hbuild : Log.EpochTree.build hasher epoch height key real = .ok built)
    (hmember : (id, RecordChain.leafDigest hasher assetCommitment r) ∈ real) :
    ∃ before applied signature proof,
      Written hasher verifier assetCommitment earlier r key real built id before applied signature
        proof ∧
      ∀ (skipped : Option ℕ) (options : VerifyOptions),
        (∀ count ∈ skipped, count ≤ earlier.length) →
        TrueOptions hasher assetCommitment earlier built skipped options →
        ∃ report, verifyDisclosurePackage stringify hasher verifier
            (contentsOf hasher assetCommitment r applied.flags before.head
              (segmentOf hasher assetCommitment earlier r skipped) signature proof).package
            options = .ok report ∧
          report.ok = true ∧
          (PositionKnown r skipped options.chainContext →
            report.chainPosition.established = true) ∧
          ∀ context ∈ options.chainContext, context.sawResource = before.sawResource →
            context.previousCategory =
              before.previousCategory.map (fun category ↦ (category.toNat : ℤ)) →
            ∃ flags, report.flags = some flags ∧
              flags.recomputed = some (applied.flags.toNat : ℤ) ∧
              flags.discrepancy = some false := by
  obtain ⟨before, applied, signature, proof, hwritten⟩ := exists_written haccepted hbuild hmember
  refine ⟨before, applied, signature, proof, hwritten, fun skipped options hskipped htrue ↦ ?_⟩
  obtain ⟨haccept, happlied, -, hseq⟩ := acceptable_of_written hwritten
  obtain ⟨report, hreport, hok, hfindings⟩ := exists_report_of_accepted
    (accepted_of_written hwritten hbuild hmember hskipped htrue)
  refine ⟨report, hreport, hok, fun hknown ↦ ?_, fun context hcontext hresource hprevious ↦ ?_⟩
  · exact (congrArg Findings.established hfindings).trans
      (establishedBy_segmentOf hseq hskipped hknown)
  · have hflags : (recomputeFlags context r.category.toNat : ℤ) = applied.flags.toNat := by
      rw [recomputeFlags_eq haccept hresource hprevious, happlied]
      rfl
    have hreported : report.flags =
        some (flagReport applied.flags.toNat r.category.toNat options.chainContext) :=
      congrArg Findings.flags hfindings
    refine ⟨_, hreported, ?_⟩
    rw [Option.mem_def.mp hcontext]
    simp only [flagReport, hflags, ne_eq, not_true_eq_false, decide_false, and_self]

end Completeness

/-! ### The package of a second record -/

/-- The leaves of a first record and of the next. -/
def submittedPair : List (SubmissionId × Digest) :=
  [(Octets.zeros 16,
      RecordChain.leafDigest residueHasher (Octets.zeros 32) RecordHistory.firstRecord),
    (leOctets 16 1,
      RecordChain.leafDigest residueHasher (Octets.zeros 32) RecordHistory.nextRecord)]

/-- An epoch that holds both. -/
theorem exists_build_pair :
    ∃ built, Log.EpochTree.build residueHasher 20000 4 (Octets.zeros 32) submittedPair =
      .ok built ∧ built.epoch = 20000 ∧ built.height = 4 := by
  obtain ⟨built, hbuild, hfrom⟩ := Log.TreeCompleteness.exists_build residueHasher 20000
    (Octets.zeros 32) (by decide : Log.EpochTree.minHeight ≤ 4 ∧ (4 : UInt8) ≤
      Log.EpochTree.maxHeight)
    (by decide : ¬ 2 ^ (4 : UInt8).toNat < submittedPair.length)
    (by decide : (submittedPair.map Prod.fst).Nodup)
  exact ⟨built, hbuild, hfrom.epoch_eq, hfrom.height_eq⟩

/-- A holder that trusts the head after the first record and knows what came before the next. -/
def holderOptions (root : Digest) : VerifyOptions where
  root := ⟨20000, root.octets⟩
  configuredHeight := some 4
  chainContext := some {
    sawResource := false
    previousCategory := some 3
    expectedPrevHead := none
    trustedHead := some (RecordHistory.headOf residueHasher (Octets.zeros 32)
      [RecordHistory.firstRecord]).octets }

theorem trueOptions_pair {built : Log.EpochTree.BuiltEpoch} (hepoch : built.epoch = 20000)
    (hheight : built.height = 4) (skipped : Option ℕ) :
    TrueOptions residueHasher (Octets.zeros 32) [RecordHistory.firstRecord] built skipped
      (holderOptions built.root) := by
  constructor
  · rw [hepoch]
    rfl
  · rw [hheight]
    simp [holderOptions]
  · simp [holderOptions, expectedPrevHead]
  · intro count _ hpositive octets hoctets
    rw [List.take_of_length_le hpositive]
    exact (Option.some.inj hoctets).symm

/-- The holder accepts the package of the next record, with both links or with its own alone. -/
theorem exists_accepted_pair :
    ∃ built before applied signature proof,
      Log.EpochTree.build residueHasher 20000 4 (Octets.zeros 32) submittedPair = .ok built ∧
      Written residueHasher permissiveVerifier (Octets.zeros 32) [RecordHistory.firstRecord]
        RecordHistory.nextRecord (Octets.zeros 32) submittedPair built (leOctets 16 1) before
        applied signature proof ∧
      ∀ count ≤ 1, Accepted (fun _ ↦ "") residueHasher permissiveVerifier
        (contentsOf residueHasher (Octets.zeros 32) RecordHistory.nextRecord applied.flags
          before.head (segmentOf residueHasher (Octets.zeros 32) [RecordHistory.firstRecord]
            RecordHistory.nextRecord (some count)) signature proof).package
        (holderOptions built.root)
        (evidenceOf residueHasher (Octets.zeros 32) RecordHistory.nextRecord applied.flags
          before.head (segmentOf residueHasher (Octets.zeros 32) [RecordHistory.firstRecord]
            RecordHistory.nextRecord (some count)) signature proof) := by
  obtain ⟨chain, hchain⟩ := RecordHistory.exists_acceptAll_pair RecordHistory.acceptable_nextRecord
  obtain ⟨built, hbuild, hepoch, hheight⟩ := exists_build_pair
  have hmember : (leOctets 16 1, RecordChain.leafDigest residueHasher (Octets.zeros 32)
      RecordHistory.nextRecord) ∈ submittedPair := List.mem_cons_of_mem _ List.mem_cons_self
  obtain ⟨before, applied, signature, proof, hwritten⟩ :=
    @exists_written residueHasher permissiveVerifier (Octets.zeros 32)
      [RecordHistory.firstRecord] [] RecordHistory.nextRecord chain 20000 4 (Octets.zeros 32) _
      built (leOctets 16 1) hchain hbuild hmember
  exact ⟨built, before, applied, signature, proof, hbuild, hwritten, fun count hcount ↦
    accepted_of_written hwritten hbuild hmember (by simpa using hcount)
      (trueOptions_pair hepoch hheight _)⟩

/-- The package of the next record with its own link alone: a segment shorter than the chain, from
the head the holder trusts. -/
theorem disclosure_complete_trustedHead :
    ∃ built before applied signature proof report,
      Log.EpochTree.build residueHasher 20000 4 (Octets.zeros 32) submittedPair = .ok built ∧
      Written residueHasher permissiveVerifier (Octets.zeros 32) [RecordHistory.firstRecord]
        RecordHistory.nextRecord (Octets.zeros 32) submittedPair built (leOctets 16 1) before
        applied signature proof ∧
      verifyDisclosurePackage (fun _ ↦ "") residueHasher permissiveVerifier
        (contentsOf residueHasher (Octets.zeros 32) RecordHistory.nextRecord applied.flags
          before.head (segmentOf residueHasher (Octets.zeros 32) [RecordHistory.firstRecord]
            RecordHistory.nextRecord (some 1)) signature proof).package
        (holderOptions built.root) = .ok report ∧
      report.ok = true ∧ report.chainPosition.established = true ∧
      ∃ flags, report.flags = some flags ∧ flags.recomputed = some (applied.flags.toNat : ℤ) ∧
        flags.discrepancy = some false := by
  obtain ⟨chain, hchain⟩ := RecordHistory.exists_acceptAll_pair RecordHistory.acceptable_nextRecord
  obtain ⟨built, hbuild, hepoch, hheight⟩ := exists_build_pair
  obtain ⟨before, applied, signature, proof, hwritten, hverified⟩ :=
    @disclosure_complete residueHasher permissiveVerifier (Octets.zeros 32)
      [RecordHistory.firstRecord] [] RecordHistory.nextRecord chain 20000 4 (Octets.zeros 32) _
      built (leOctets 16 1) (fun _ ↦ "") hchain hbuild
      (List.mem_cons_of_mem _ List.mem_cons_self)
  obtain ⟨report, hreport, hok, hestablished, hflags⟩ :=
    hverified (some 1) (holderOptions built.root) (by simp)
      (trueOptions_pair hepoch hheight _)
  obtain ⟨-, -, hhistory, -⟩ := acceptable_of_written hwritten
  refine ⟨built, before, applied, signature, proof, report, hbuild, hwritten, hreport, hok,
    hestablished (.inr (.inr (.inl ⟨rfl, rfl⟩))), hflags _ rfl ?_ ?_⟩
  · rw [hhistory]
    rfl
  · rw [hhistory]
    rfl

end AnchoredLog.Port.DisclosureCompleteness
