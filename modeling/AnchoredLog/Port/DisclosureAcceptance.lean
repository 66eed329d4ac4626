import AnchoredLog.Port.Disclosure
import AnchoredLog.Port.TreeAgreement

/-!
# What an accepted disclosure package holds

The verifier's checks, restated over the engine's own types. `Evidence` is what an accepted
package is read as: a leaf preimage, a signature, two heads, an optional segment of links and an
inclusion proof. `Accepted` lists the conditions on it, one for each check, and
`accepted_iff` says that the verifier returns `ok` on exactly the packages for which there is
evidence that meets them, and what the report then says about the chain position and the flags.
-/

set_option autoImplicit false
set_option relaxedAutoImplicit false

namespace AnchoredLog.Port.DisclosureAcceptance

open AnchoredLog.Core
open Core.Preimages Library.ByteCodec Library.Fallible Library.Layouts Primitives JsonFields
open Disclosure

/-! ### The leaf preimage -/

/-- Every string of 161 octets under the leaf tag is the preimage of some leaf fields. -/
theorem exists_leafPreimage {preimage : List UInt8} (hlength : preimage.length = leafPreimageLen)
    (htag : preimage.take tagLength = tagLeaf.octets) :
    ∃ fields : LeafPreimage, preimage = fields.fields.flatten := by
  obtain ⟨tag, afterTag, rfl, htail⟩ := exists_octets_append 8 153 hlength
  obtain ⟨commitment, afterCommitment, rfl, hcommitment⟩ := exists_octets_append 32 121 htail
  obtain ⟨seq, afterSeq, rfl, hseqTail⟩ := exists_octets_append 8 113 hcommitment
  obtain ⟨payload, afterPayload, rfl, hpayload⟩ := exists_octets_append 32 81 hseqTail
  obtain ⟨assessment, afterAssessment, rfl, hassessment⟩ := exists_octets_append 32 49 hpayload
  obtain ⟨key, afterKey, rfl, hkey⟩ := exists_octets_append 32 17 hassessment
  obtain ⟨category, dates, rfl, hdates⟩ := exists_octets_append 1 16 hkey
  obtain ⟨effective, afterEffective, rfl, hlast⟩ := exists_octets_append 8 8 hdates
  obtain ⟨identified, rest, rfl, hrest⟩ := exists_octets_append 8 0 hlast
  obtain rfl := List.eq_nil_of_length_eq_zero hrest
  obtain ⟨octet, hcategory⟩ := List.length_eq_one_iff.mp category.length_octets
  obtain ⟨seqValue, hseq⟩ := exists_u64 seq
  obtain ⟨effectiveValue, heffective⟩ := exists_i64 effective
  obtain ⟨identifiedValue, hidentified⟩ := exists_i64 identified
  have htagged : tag.octets = tagLeaf.octets := by
    rw [← htag, tagLength, List.take_left' tag.length_octets]
  refine ⟨⟨commitment, seqValue, payload, assessment, key, octet, effectiveValue,
    identifiedValue⟩, ?_⟩
  rw [htagged, hseq, hcategory, heffective, hidentified]
  simp [LeafPreimage.fields]

/-- What the bytes of a leaf preimage are read as. -/
def readingOf (preimage : LeafPreimage) : LeafFromBytes where
  assetCommitment := preimage.assetCommitment.octets
  seq := preimage.seq.toNat
  payloadDigest := preimage.payloadDigest.octets
  assessmentDigest := preimage.assessmentDigest.octets
  qpKey := preimage.qpKey.octets
  category := preimage.category.toNat
  effectiveAt := preimage.effectiveAt.toInt
  changeIdentifiedAt := preimage.changeIdentifiedAt.toInt

/-- Reading the preimage of leaf fields: the two range checks, and the fields themselves. -/
theorem readLeafPreimage_flatten (preimage : LeafPreimage) :
    readLeafPreimage preimage.fields.flatten = (do
      orFail ((preimage.seq.toNat : ℤ) ≠ 0) .SequenceOutOfOrder
        "the preimage carries seq 0, and §1.3's condition (b) makes the first sequence 1"
      orFail (¬ ((preimage.category.toNat : ℤ) < Chain.categoryMin ∨
          Chain.categoryMax < preimage.category.toNat)) .MalformedPayload
        ("the preimage carries category " ++ toString (preimage.category.toNat : ℤ) ++
          ", and §1.3 allows " ++ toString Chain.categoryMin ++ " to " ++
          toString Chain.categoryMax)
      return readingOf preimage) := by
  have hlength : preimage.fields.flatten.length = leafPreimageLen := by
    simp [LeafPreimage.fields, leafPreimageLen]
  let body := preimage.fields.tail
  have hbody : readTagged preimage.fields.flatten tagLeaf.octets = .ok body.flatten := by
    have hsplit : preimage.fields.flatten = tagLeaf.octets ++ body.flatten := rfl
    rw [readTagged, orFail_of_true (by rw [hlength]; decide), bind_ok, hsplit, tagLength,
      List.take_left' tagLeaf.length_octets, List.drop_left' tagLeaf.length_octets,
      orFail_of_true (by rw [bytesEqual_eq]; simp), bind_ok]
    rfl
  have hcommitment : body.flatten.take 32 = preimage.assetCommitment.octets :=
    List.take_left' preimage.assetCommitment.length_octets
  have hseq : readU64le body.flatten 32 = .ok preimage.seq.toNat :=
    readU64le_flatten 1 rfl (by simp [body, LeafPreimage.fields])
  have hpayload : (body.flatten.drop 40).take 32 = preimage.payloadDigest.octets :=
    slice_flatten 2 rfl (by simp [body, LeafPreimage.fields]) (by simp)
  have hassessment : (body.flatten.drop 72).take 32 = preimage.assessmentDigest.octets :=
    slice_flatten 3 rfl (by simp [body, LeafPreimage.fields]) (by simp)
  have hkey : (body.flatten.drop 104).take 32 = preimage.qpKey.octets :=
    slice_flatten 4 rfl (by simp [body, LeafPreimage.fields]) (by simp)
  have hcategory : body.flatten[136]? = some preimage.category :=
    getElem?_flatten 5 rfl (by simp [body, LeafPreimage.fields])
  have heffective : readI64le body.flatten 137 = .ok preimage.effectiveAt.toInt :=
    readI64le_flatten 6 rfl (by simp [body, LeafPreimage.fields])
  have hidentified : readI64le body.flatten 145 = .ok preimage.changeIdentifiedAt.toInt :=
    readI64le_flatten 7 rfl (by simp [body, LeafPreimage.fields])
  rw [readLeafPreimage, orFail_of_true hlength, bind_ok, hbody, bind_ok, hseq, bind_ok,
    heffective, hidentified, hcategory, Option.getD_some, hcommitment, hpayload, hassessment, hkey]
  rfl

/-- The reader accepts exactly the preimages of leaf fields with a sequence number and a category
in range, and returns those fields. -/
theorem readLeafPreimage_eq_ok_iff {octets : List UInt8} {reading : LeafFromBytes} :
    readLeafPreimage octets = .ok reading ↔
      ∃ preimage : LeafPreimage, octets = preimage.fields.flatten ∧ 1 ≤ preimage.seq.toNat ∧
        preimage.category.toNat ≤ 4 ∧ reading = readingOf preimage := by
  have hread : ∀ preimage : LeafPreimage,
      readLeafPreimage preimage.fields.flatten = .ok reading ↔ 1 ≤ preimage.seq.toNat ∧
        preimage.category.toNat ≤ 4 ∧ reading = readingOf preimage := by
    intro preimage
    rw [readLeafPreimage_flatten, bind_unit_eq_ok_iff, orFail_eq_ok_iff, bind_unit_eq_ok_iff,
      orFail_eq_ok_iff, pure_eq_ok, Except.ok.injEq, Chain.categoryMin, Chain.categoryMax]
    constructor
    · rintro ⟨hseq, hcategory, rfl⟩
      exact ⟨by omega, by omega, rfl⟩
    · rintro ⟨hseq, hcategory, rfl⟩
      exact ⟨by omega, by omega, rfl⟩
  constructor
  · intro hok
    have htagged := hok
    rw [readLeafPreimage, bind_unit_eq_ok_iff, orFail_eq_ok_iff] at htagged
    obtain ⟨hlength, hbody⟩ := htagged
    obtain ⟨body, htag, -⟩ := bind_eq_ok_iff.mp hbody
    rw [readTagged, bind_unit_eq_ok_iff, bind_unit_eq_ok_iff, orFail_eq_ok_iff, orFail_eq_ok_iff,
      bytesEqual_iff] at htag
    obtain ⟨preimage, rfl⟩ := exists_leafPreimage hlength htag.2.1
    exact ⟨preimage, rfl, (hread preimage).mp hok⟩
  · rintro ⟨preimage, rfl, hfields⟩
    exact (hread preimage).mpr hfields

/-! ### The closed field list -/

/-- Every element of an array is checked, at its own path. -/
theorem checkElements_eq_ok_iff {elements : List Json} {shape : Shape} {path : String}
    {index : ℕ} :
    checkElements elements shape path index = .ok () ↔ ∀ cell ∈ elements.zipIdx index,
      checkOnlyListedFields cell.1 shape (elementPath path cell.2) = .ok () := by
  induction elements generalizing index with
  | nil => simp [checkElements]
  | cons element elements ih =>
    rw [checkElements, bind_unit_eq_ok_iff, ih, List.zipIdx_cons, List.forall_mem_cons]

/-- Every field of an object is listed, and is checked against its shape at its own path. -/
theorem checkFields_eq_ok_iff {fields : List (String × Json)} {shape : List (String × Shape)}
    {path : String} :
    checkFields fields shape path = .ok () ↔ ∀ entry ∈ fields, ∃ inner,
      shapeOf shape entry.1 = some inner ∧
        checkOnlyListedFields entry.2 inner (fieldPath path entry.1) = .ok () := by
  induction fields with
  | nil => simp [checkFields]
  | cons entry fields ih =>
    rw [checkFields, okOr_bind_eq_ok_iff, List.forall_mem_cons, ← ih]
    simp only [bind_unit_eq_ok_iff]
    constructor
    · rintro ⟨inner, hshape, hchild, hrest⟩
      exact ⟨⟨inner, hshape, hchild⟩, hrest⟩
    · rintro ⟨⟨inner, hshape, hchild⟩, hrest⟩
      exact ⟨inner, hshape, hchild, hrest⟩

/-- A value of the shape of an object is an object whose fields are listed. -/
theorem checkOnlyListedFields_object_iff {value : Json} {shape : List (String × Shape)}
    {path : String} :
    checkOnlyListedFields value (.object shape) path = .ok () ↔
      ∃ fields, value = .object fields ∧ checkFields fields shape path = .ok () := by
  cases value <;> simp [checkOnlyListedFields]

/-! ### The display copy -/

/-- Every displayed field but `flags` and `payload_uri` reads as the value in the bytes. -/
structure Displays (record : Json) (preimage : LeafPreimage) : Prop where
  seq : intField (record.get "seq") "record.seq" = .ok preimage.seq.toNat
  payloadDigest : hexField (record.get "payload_digest") "record.payload_digest" 32 =
    .ok preimage.payloadDigest.octets
  assessmentDigest : hexField (record.get "assessment_digest") "record.assessment_digest" 32 =
    .ok preimage.assessmentDigest.octets
  qpKey : hexField (record.get "qp_key") "record.qp_key" 32 = .ok preimage.qpKey.octets
  category : smallInt (record.get "category") "record.category" 255 = .ok preimage.category.toNat
  effectiveAt : intField (record.get "effective_at") "record.effective_at" =
    .ok preimage.effectiveAt.toInt
  changeIdentifiedAt : intField (record.get "change_identified_at")
    "record.change_identified_at" = .ok preimage.changeIdentifiedAt.toInt

theorem compareInt_eq_ok_iff {json borsh : ℤ} {field : String} :
    compareInt json borsh field = .ok () ↔ json = borsh :=
  require_eq_ok_iff

theorem compareHex_eq_ok_iff {json borsh : List UInt8} {field : String} :
    compareHex json borsh field = .ok () ↔ json = borsh :=
  require_eq_ok_iff.trans bytesEqual_iff

theorem compareJsonToBytes_eq_ok_iff {record : Json} {preimage : LeafPreimage} :
    compareJsonToBytes record (readingOf preimage) = .ok () ↔ Displays record preimage := by
  simp only [compareJsonToBytes, ↓bind_unit_eq_ok_iff, bind_eq_ok_iff, compareInt_eq_ok_iff,
    compareHex_eq_ok_iff, readingOf]
  constructor
  · rintro ⟨seq, hseq, rfl, payload, hpayload, rfl, assessment, hassessment, rfl, key, hkey, rfl,
      category, hcategory, rfl, effective, heffective, rfl, identified, hidentified, rfl⟩
    exact ⟨hseq, hpayload, hassessment, hkey, hcategory, heffective, hidentified⟩
  · rintro ⟨hseq, hpayload, hassessment, hkey, hcategory, heffective, hidentified⟩
    exact ⟨_, hseq, rfl, _, hpayload, rfl, _, hassessment, rfl, _, hkey, rfl, _, hcategory, rfl, _,
      heffective, rfl, _, hidentified, rfl⟩

/-! ### The segment -/

/-- One link of a segment: a leaf and the head it produces. -/
structure Link where
  leaf : Digest
  head : Digest
deriving DecidableEq

/-- The link as the port reads it. -/
def stepOf (link : Link) : SegmentStep where
  leaf := link.leaf.octets
  head := link.head.octets

/-- A string of octets that a reader of 32 octets accepted. -/
theorem exists_digest {value : Option Json} {what : String} {octets : List UInt8}
    (hread : hexField value what 32 = .ok octets) : ∃ digest : Digest, octets = digest.octets :=
  ⟨⟨octets, length_of_hexField hread⟩, rfl⟩

theorem exists_link_of_readStep {cell : Json × ℕ} {step : SegmentStep}
    (hread : readStep cell = .ok step) : ∃ link, step = stepOf link := by
  simp only [readStep, bind_eq_ok_iff, pure_eq_ok, Except.ok.injEq] at hread
  obtain ⟨-, -, _, -, leaf, hleaf, _, -, head, hhead, rfl⟩ := hread
  obtain ⟨leaf, rfl⟩ := exists_digest hleaf
  obtain ⟨head, rfl⟩ := exists_digest hhead
  exact ⟨⟨leaf, head⟩, rfl⟩

/-- A segment that is read is a list of links. -/
theorem exists_links_of_mapM {cells : List (Json × ℕ)} {steps : List SegmentStep}
    (hread : cells.mapM readStep = .ok steps) : ∃ links : List Link, steps = links.map stepOf := by
  rw [mapM_eq_ok_iff] at hread
  induction hread with
  | nil => exact ⟨[], rfl⟩
  | cons hstep _ ih =>
    obtain ⟨link, rfl⟩ := exists_link_of_readStep hstep
    obtain ⟨links, rfl⟩ := ih
    exact ⟨link :: links, rfl⟩

theorem length_of_readStep {raw : List Json} {links : List Link}
    (hread : raw.zipIdx.mapM readStep = .ok (links.map stepOf)) : links.length = raw.length := by
  have hlength := (mapM_eq_ok_iff.mp hread).length_eq
  rw [List.length_zipIdx, List.length_map] at hlength
  exact hlength.symm

section Segment

variable (hasher : Hasher)

/-- The head of a link follows from the head before it and its own leaf. -/
def Follows (before link : Link) : Prop :=
  RecordChain.headStep hasher before.head link.leaf = link.head

theorem checkLinks_eq_ok_iff (index : ℕ) (links : List Link) :
    checkLinks hasher index (links.map stepOf) = .ok () ↔ links.IsChain (Follows hasher) := by
  induction links generalizing index with
  | nil => simp [checkLinks]
  | cons before links ih =>
    cases links with
    | nil => simp [checkLinks]
    | cons link links =>
      rw [List.map_cons, List.map_cons, checkLinks, List.isChain_cons_cons, ← ih (index + 1)]
      simp only [stepOf, Chain.advanceHead_eq, bind_ok, ↓bind_unit_eq_ok_iff, orFail_eq_ok_iff,
        bytesEqual_octets, decide_eq_true_iff, Follows, List.map_cons]

theorem checkEnd_eq_ok_iff {links : List Link} {leaf prevHead head : Digest} :
    checkEnd (links.map stepOf) leaf.octets prevHead.octets head.octets = .ok () ↔
      links.getLast? = some ⟨leaf, head⟩ ∧
        ∀ second ∈ links.dropLast.getLast?, second.head = prevHead := by
  have hlast : (links.map stepOf).getLast? = links.getLast?.map stepOf := List.getLast?_map
  have hsecond : (links.map stepOf).dropLast.getLast? = links.dropLast.getLast?.map stepOf := by
    rw [← List.map_dropLast, List.getLast?_map]
  rw [checkEnd, hlast, hsecond, okOr_bind_eq_ok_iff]
  simp only [↓bind_unit_eq_ok_iff, orFail_eq_ok_iff, bytesEqual_iff]
  constructor
  · rintro ⟨last, hlast, hleaf, hhead, hsecond⟩
    obtain ⟨link, hlink, rfl⟩ := Option.map_eq_some_iff.mp hlast
    obtain rfl : link = ⟨leaf, head⟩ := by
      cases link
      exact congrArg₂ Link.mk (Octets.ext hleaf) (Octets.ext hhead)
    refine ⟨hlink, fun second hmember ↦ ?_⟩
    rw [Option.mem_def.mp hmember] at hsecond
    exact Octets.ext (orFail_eq_ok_iff.mp hsecond)
  · rintro ⟨hlink, hsecond⟩
    refine ⟨stepOf ⟨leaf, head⟩, by rw [hlink, Option.map_some], rfl, rfl, ?_⟩
    cases hlist : links.dropLast.getLast? with
    | none => rfl
    | some second =>
      exact orFail_eq_ok_iff.mpr
        (congrArg Octets.octets (hsecond second (Option.mem_def.mpr hlist)))

/-- A head the caller gave follows from nothing but octets of the right width. -/
theorem advanceHead_eq_ok_iff {previous : List UInt8} {leaf : Digest} {next : List UInt8} :
    Chain.advanceHead hasher previous leaf.octets = .ok next ↔
      ∃ head : Digest, previous = head.octets ∧
        next = (RecordChain.headStep hasher head leaf).octets := by
  constructor
  · intro hok
    have hwidth : previous.length = 32 := by
      simp only [Chain.advanceHead, stepHeadPreimage, fixed, bind_assoc, ↓bind_unit_eq_ok_iff,
        orFail_eq_ok_iff] at hok
      exact hok.1
    refine ⟨⟨previous, hwidth⟩, rfl, ?_⟩
    have heq := Chain.advanceHead_eq hasher ⟨previous, hwidth⟩ leaf
    exact Except.ok.inj (hok.symm.trans heq)
  · rintro ⟨head, rfl, rfl⟩
    exact Chain.advanceHead_eq hasher head leaf

/-- What the anchor of a segment has to satisfy: a whole segment starts at the genesis head, and a
shorter one at the head the caller trusts, when there is one. -/
structure Anchored (links : List Link) (seq : ℕ) (prevHead genesis : Digest)
    (trustedHead : Option (List UInt8)) : Prop where
  whole : links.length = seq → ∀ first ∈ links.head?,
    RecordChain.headStep hasher genesis first.leaf = first.head
  single : links.length = seq → links.length = 1 → prevHead = genesis
  trusted : links.length ≠ seq → ∀ octets ∈ trustedHead, ∃ trusted : Digest,
    octets = trusted.octets ∧ ∀ first ∈ links.head?,
      RecordChain.headStep hasher trusted first.leaf = first.head

/-- The anchor of a segment with entries: accepted when it is anchored, and established when it is
whole or the caller trusts a head. -/
theorem anchorSegment_iff {first : Link} {rest : List Link} {seq : ℕ} {prevHead genesis : Digest}
    {trustedHead : Option (List UInt8)} {established : Bool} :
    (∃ outcome, anchorSegment hasher ((first :: rest).map stepOf) seq prevHead.octets
        genesis.octets trustedHead = .ok outcome ∧ outcome.established = established) ↔
      Anchored hasher (first :: rest) seq prevHead genesis trustedHead ∧
        established = decide ((first :: rest).length = seq ∨ trustedHead.isSome) := by
  have hlength : ((first :: rest).map stepOf).length = (first :: rest).length := List.length_map _
  rw [anchorSegment, List.map_cons, List.head?_cons, okOr_some, bind_ok, ← List.map_cons, hlength]
  by_cases hwhole : (first :: rest).length = seq
  · rw [if_pos (by exact_mod_cast hwhole), stepOf, Chain.advanceHead_eq, bind_ok]
    simp only [↓bind_unit_eq_ok_iff, orFail_eq_ok_iff, bytesEqual_octets, decide_eq_true_iff,
      pure_eq_ok, Except.ok.injEq, hwhole, true_or, decide_true]
    constructor
    · rintro ⟨outcome, ⟨hfirst, hsingle, rfl⟩, rfl⟩
      refine ⟨⟨fun _ ↦ ?_, fun _ hone ↦ ?_, fun hne ↦ absurd hwhole hne⟩, rfl⟩
      · simpa using hfirst
      · by_contra hne
        exact hsingle ⟨hwhole ▸ hone, hne⟩
    · rintro ⟨hanchored, rfl⟩
      refine ⟨_, ⟨hanchored.whole hwhole first rfl, ?_, rfl⟩, rfl⟩
      rintro ⟨hone, hne⟩
      exact hne (hanchored.single hwhole (hwhole.trans hone))
  · rw [if_neg (by exact_mod_cast hwhole)]
    cases trustedHead with
    | none =>
      simp only [pure_eq_ok, Except.ok.injEq, hwhole, Option.isSome_none, Bool.false_eq_true,
        or_self, decide_false]
      constructor
      · rintro ⟨outcome, rfl, rfl⟩
        exact ⟨⟨fun heq ↦ absurd heq hwhole, fun heq ↦ absurd heq hwhole, by simp⟩, rfl⟩
      · rintro ⟨-, rfl⟩
        exact ⟨_, rfl, rfl⟩
    | some octets =>
      simp only [Option.isSome_some, or_true, decide_true]
      constructor
      · rintro ⟨outcome, hok, rfl⟩
        obtain ⟨next, hnext, hchecks⟩ := bind_eq_ok_iff.mp hok
        obtain ⟨trusted, rfl, rfl⟩ := (advanceHead_eq_ok_iff hasher).mp hnext
        rw [bind_unit_eq_ok_iff, orFail_eq_ok_iff, bytesEqual_iff] at hchecks
        obtain ⟨hfirst, heq⟩ := hchecks
        obtain rfl := Except.ok.inj heq
        refine ⟨⟨fun heq ↦ absurd heq hwhole, fun heq ↦ absurd heq hwhole, fun _ octets hoctets ↦
          ⟨trusted, (Option.some.inj hoctets).symm, fun found hfound ↦ ?_⟩⟩, rfl⟩
        obtain rfl := Option.some.inj hfound
        exact Octets.ext hfirst
      · rintro ⟨hanchored, rfl⟩
        obtain ⟨trusted, rfl, hfirst⟩ := hanchored.trusted hwhole octets rfl
        have hnext : Chain.advanceHead hasher trusted.octets (stepOf first).leaf =
            .ok (stepOf first).head := by
          rw [stepOf, Chain.advanceHead_eq, hfirst first rfl]
        rw [hnext, bind_ok, orFail_of_true (bytesEqual_iff.mpr rfl), bind_ok]
        exact ⟨_, rfl, rfl⟩

/-- Whether a package carries a segment, and the links it is read as. -/
inductive SegmentRead : Option Json → Option (List Link) → Prop
  | absent : SegmentRead none none
  | null : SegmentRead (some .null) none
  | links {raw : List Json} {links : List Link}
      (hread : raw.zipIdx.mapM readStep = .ok (links.map stepOf)) :
      SegmentRead (some (.array raw)) (some links)

/-- What a segment has to satisfy against the record it ends at. -/
structure Walked (links : List Link) (seq : ℕ) (leaf prevHead head genesis : Digest)
    (trustedHead : Option (List UInt8)) : Prop where
  nonempty : links ≠ []
  length_le : links.length ≤ seq
  linked : links.IsChain (Follows hasher)
  last : links.getLast? = some ⟨leaf, head⟩
  second : ∀ second ∈ links.dropLast.getLast?, second.head = prevHead
  anchored : Anchored hasher links seq prevHead genesis trustedHead

/-- The walk accepts a segment exactly when its links satisfy every check. -/
theorem walkSegment_iff {raw : Option Json} {seq : ℕ} {leaf prevHead head genesis : Digest}
    {trustedHead : Option (List UInt8)} {established : Option Bool} :
    (∃ outcome, walkSegment hasher raw seq leaf.octets prevHead.octets head.octets genesis.octets
        trustedHead = .ok outcome ∧ outcome.map SegmentOutcome.established = established) ↔
      ∃ segment, SegmentRead raw segment ∧
        (∀ links ∈ segment, Walked hasher links seq leaf prevHead head genesis trustedHead) ∧
        established = segment.map fun links ↦ decide (links.length = seq ∨ trustedHead.isSome) := by
  constructor
  · rintro ⟨outcome, hok, rfl⟩
    unfold walkSegment at hok
    split at hok
    · obtain rfl := Except.ok.inj hok
      exact ⟨none, .absent, by simp, rfl⟩
    · obtain rfl := Except.ok.inj hok
      exact ⟨none, .null, by simp, rfl⟩
    · next raw =>
      rw [bind_unit_eq_ok_iff, require_eq_ok_iff, bind_unit_eq_ok_iff, orFail_eq_ok_iff,
        bind_eq_ok_iff] at hok
      obtain ⟨hnonempty, hshort, steps, hsteps, hok⟩ := hok
      obtain ⟨links, rfl⟩ := exists_links_of_mapM hsteps
      have hlength := length_of_readStep hsteps
      rw [bind_unit_eq_ok_iff, checkLinks_eq_ok_iff, bind_unit_eq_ok_iff, checkEnd_eq_ok_iff,
        bind_eq_ok_iff] at hok
      obtain ⟨hlinked, ⟨hlast, hsecond⟩, anchor, hanchor, heq⟩ := hok
      obtain rfl := Except.ok.inj heq
      cases links with
      | nil => exact absurd hlength.symm hnonempty
      | cons first rest =>
        obtain ⟨hanchored, hestablished⟩ := (anchorSegment_iff hasher).mp ⟨anchor, hanchor, rfl⟩
        refine ⟨some (first :: rest), .links hsteps, ?_, ?_⟩
        · intro found hfound
          obtain rfl := Option.some.inj hfound
          exact ⟨by simp, by omega, hlinked, hlast, hsecond, hanchored⟩
        · simpa using hestablished
    · exact absurd hok (by simp)
  · rintro ⟨segment, hread, hwalked, rfl⟩
    cases hread with
    | absent => exact ⟨none, rfl, rfl⟩
    | null => exact ⟨none, rfl, rfl⟩
    | @links raw links hread =>
      have hsegment := hwalked links rfl
      have hlength := length_of_readStep hread
      have hle := hsegment.length_le
      have hpositive := List.length_pos_of_ne_nil hsegment.nonempty
      cases links with
      | nil => exact absurd rfl hsegment.nonempty
      | cons first rest =>
        obtain ⟨outcome, hanchor, hestablished⟩ :=
          (anchorSegment_iff hasher).mpr ⟨hsegment.anchored, rfl⟩
        refine ⟨some outcome, ?_, by rw [Option.map_some, Option.map_some, hestablished]⟩
        simp only [walkSegment]
        rw [require_of_true (by omega), bind_ok, orFail_of_true (by omega), bind_ok, hread, bind_ok,
          (checkLinks_eq_ok_iff hasher 0 (first :: rest)).mpr hsegment.linked, bind_ok,
          checkEnd_eq_ok_iff.mpr ⟨hsegment.last, hsegment.second⟩, bind_ok, hanchor, bind_ok,
          pure_eq_ok]

end Segment

/-! ### What a verification leaves -/

/-- What a report establishes, apart from the record of the checks that ran. -/
structure Findings where
  leaf : Option (List UInt8)
  fields : Option LeafFromBytes
  flags : Option FlagReport
  established : Bool

/-- The findings of a draft. -/
def findings (draft : Draft) : Findings where
  leaf := draft.leaf
  fields := draft.fields
  flags := draft.flags
  established := draft.chainPosition.established

/-- The findings of a report. -/
def findingsOf (report : DisclosureReport) : Findings where
  leaf := report.leaf
  fields := report.fields
  flags := report.flags
  established := report.chainPosition.established

section Findings

variable (draft : Draft)

@[simp] theorem findings_addCheck (check : Check) :
    findings (draft.addCheck check) = findings draft :=
  rfl

@[simp] theorem findings_addNote (note : String) : findings (draft.addNote note) = findings draft :=
  rfl

@[simp] theorem findings_setFields (fields : LeafFromBytes) :
    findings (draft.setFields fields) = { findings draft with fields := some fields } :=
  rfl

@[simp] theorem findings_setLeaf (leaf : List UInt8) :
    findings (draft.setLeaf leaf) = { findings draft with leaf := some leaf } :=
  rfl

@[simp] theorem findings_setPosition (established : Bool) (detail : String) :
    findings (draft.setPosition established detail) =
      { findings draft with established := established } :=
  rfl

@[simp] theorem findings_setFlags (flags : FlagReport) :
    findings (draft.setFlags flags) = { findings draft with flags := some flags } :=
  rfl

end Findings

/-- The head the caller expects. -/
def expectedPrevHead (context : Option ChainContext) : Option (List UInt8) :=
  context.bind ChainContext.expectedPrevHead

/-- The head the caller trusts. -/
def trustedHead (context : Option ChainContext) : Option (List UInt8) :=
  context.bind ChainContext.trustedHead

section Position

variable {described : Findings → Prop} {draft : Draft}

theorem succeeds_reportSegment {walked : SegmentOutcome} :
    Succeeds (reportSegment walked) draft (fun _ final ↦ described (findings final)) ↔
      described { findings draft with established := walked.established } := by
  rw [reportSegment]
  cases hestablished : walked.established with
  | false =>
    simp only [if_true, recordCheck, pushNote, succeeds_bind, succeeds_modify,
      findings_addNote, findings_addCheck, findings_setPosition]
  | true =>
    simp only [reduceCtorEq, if_false, recordCheck, pushNote, succeeds_bind, succeeds_modify,
      findings_addNote, findings_addCheck, findings_setPosition]

theorem succeeds_settlePosition {walked : Option SegmentOutcome} {seq : ℤ}
    {prevHead genesis : List UInt8} {expected : Option (List UInt8)} :
    Succeeds (settlePosition walked seq prevHead genesis expected) draft
        (fun _ final ↦ described (findings final)) ↔
      (walked = none → seq = 1 → prevHead = genesis) ∧
        described { findings draft with
          established := (walked.map SegmentOutcome.established).getD
            (decide (seq = 1 ∨ expected.isSome)) } := by
  cases walked with
  | some walked => simp [settlePosition, succeeds_reportSegment]
  | none =>
    rw [settlePosition]
    by_cases hfirst : seq = 1
    · simp only [hfirst, if_true, recordCheck, succeeds_bind, succeeds_lift, orFail_eq_ok_iff,
        bytesEqual_iff, succeeds_modify, findings_addCheck, findings_setPosition, exists_and_left,
        exists_const, true_or, decide_true, Option.map_none, Option.getD_none, forall_const]
    · simp only [hfirst, if_false, false_or, false_implies, implies_true, true_and,
        Option.map_none, Option.getD_none]
      by_cases hexpected : expected.isSome = true
      · simp only [hexpected, if_true, recordCheck, succeeds_bind, succeeds_modify,
          findings_addCheck, findings_setPosition, decide_true]
      · simp only [hexpected, if_false, recordCheck, pushNote, succeeds_bind, succeeds_modify,
          findings_addNote, findings_addCheck, findings_setPosition, decide_false,
          Bool.false_eq_true]

end Position

/-! ### Acceptance -/

/-- What an accepted package is read as. -/
structure Evidence where
  parts : Parts
  preimage : LeafPreimage
  signature : Signature
  prevHead : Digest
  head : Digest
  segment : Option (List Link)
  proof : Tree.InclusionProof
  declared : ℤ

section Acceptance

variable (stringify : Option Json → String) (hasher : Hasher) (verifier : Verifier)

/-- The leaf of a preimage. -/
def leafOf (preimage : LeafPreimage) : Digest :=
  hasher.hash preimage.fields.flatten

/-- The genesis head of the commitment inside a preimage. -/
def genesisOf (preimage : LeafPreimage) : Digest :=
  hasher.hash (RecordChain.genesisMessage preimage.assetCommitment)

/-- The chain section's conditions. -/
structure ChainAccepted (chain : Json) (preimage : LeafPreimage)
    (context : Option ChainContext) (prevHead head : Digest) (segment : Option (List Link)) :
    Prop where
  readPrevHead : readHead chain "prev_head" = .ok prevHead.octets
  readHead : readHead chain "head" = .ok head.octets
  readGenesis : Disclosure.readHead chain "genesis" = .ok (genesisOf hasher preimage).octets
  expected : ∀ octets ∈ expectedPrevHead context, octets = prevHead.octets
  readSegment : SegmentRead (chain.get "segment") segment
  walked : ∀ links ∈ segment, Walked hasher links preimage.seq.toNat (leafOf hasher preimage)
    prevHead head (genesisOf hasher preimage) (trustedHead context)
  first : segment = none → preimage.seq.toNat = 1 → prevHead = genesisOf hasher preimage
  step : RecordChain.headStep hasher prevHead (leafOf hasher preimage) = head

/-- Whether the position is reported as established: by a segment that is whole or starts at a
trusted head, and without one at the first sequence number or by the head the caller expects. -/
def establishedBy (segment : Option (List Link)) (seq : ℕ) (context : Option ChainContext) : Bool :=
  (segment.map fun links ↦ decide (links.length = seq ∨ (trustedHead context).isSome)).getD
    (decide (seq = 1 ∨ (expectedPrevHead context).isSome))

theorem expectedGenesis_eq (preimage : LeafPreimage) :
    expectedGenesis hasher preimage.assetCommitment.octets =
      .ok (genesisOf hasher preimage).octets := by
  have hpreimage := genesisHeadPreimage_eq preimage.assetCommitment RecordChain.schemaVersion
  rw [expectedGenesis]
  change (genesisHeadPreimage preimage.assetCommitment.octets
    RecordChain.schemaVersion.toNat >>= _) = _
  rw [hpreimage, bind_ok]
  rfl

theorem exists_digest_of_readHead {chain : Json} {field : String} {octets : List UInt8}
    (hread : readHead chain field = .ok octets) : ∃ digest : Digest, octets = digest.octets := by
  obtain ⟨value, -, hvalue⟩ := bind_eq_ok_iff.mp hread
  exact exists_digest hvalue

/-- The caller's head, where there is one, is the head before the record. -/
theorem callerAgrees_iff {context : Option ChainContext} {prevHead : Digest} :
    (¬ ((expectedPrevHead context).any fun expected ↦ ¬ bytesEqual prevHead.octets expected) =
      true) ↔ ∀ octets ∈ expectedPrevHead context, octets = prevHead.octets := by
  cases expectedPrevHead context with
  | none => simp
  | some expected =>
    simp only [Option.any_some, decide_not, bytesEqual_eq, Bool.not_eq_eq_eq_not, Bool.not_true,
      decide_eq_false_iff_not, decide_eq_true_iff, not_not, Option.mem_def, Option.some.injEq,
      forall_eq']
    exact eq_comm

/-- The last check of the section is that the head follows from the one before and the leaf. -/
theorem headFollows_iff {prevHead head leaf : Digest} {described : Prop} :
    (∃ next, Chain.advanceHead hasher prevHead.octets leaf.octets = .ok next ∧
      ∃ done, orFail (bytesEqual next head.octets) .HeadMismatch
          "chain.head is not Keccak256(TAG_HEAD ‖ prev_head ‖ leaf)" = .ok done ∧ described) ↔
      RecordChain.headStep hasher prevHead leaf = head ∧ described := by
  simp only [Chain.advanceHead_eq, Except.ok.injEq, orFail_eq_ok_iff, exists_const,
    exists_eq_left', bytesEqual_octets, decide_eq_true_iff]

theorem succeeds_examineChain {chain : Json} {preimage : LeafPreimage}
    {context : Option ChainContext} {draft : Draft} {described : Findings → Prop} :
    Succeeds (examineChain hasher chain (readingOf preimage) (leafOf hasher preimage).octets
        context) draft (fun _ final ↦ described (findings final)) ↔
      ∃ prevHead head segment, ChainAccepted hasher chain preimage context prevHead head segment ∧
        described { findings draft with
          established := establishedBy segment preimage.seq.toNat context } := by
  have hsettle : ∀ (walked : Option SegmentOutcome) (prevHead head genesis : Digest)
      (reached : Draft), Succeeds (settlePosition walked (readingOf preimage).seq prevHead.octets
        genesis.octets (expectedPrevHead context)) reached (fun _ final ↦
          RecordChain.headStep hasher prevHead (leafOf hasher preimage) = head ∧
            described (findings final)) ↔
      (walked = none → preimage.seq.toNat = 1 → prevHead = genesis) ∧
        RecordChain.headStep hasher prevHead (leafOf hasher preimage) = head ∧
        described { findings reached with
          established := (walked.map SegmentOutcome.established).getD
            (decide (preimage.seq.toNat = 1 ∨ (expectedPrevHead context).isSome)) } := by
    intro walked prevHead head genesis reached
    rw [@succeeds_settlePosition fun found ↦
      RecordChain.headStep hasher prevHead (leafOf hasher preimage) = head ∧ described found]
    simp only [readingOf, Nat.cast_eq_one, Octets.octets_injective.eq_iff]
  rw [examineChain]
  simp only [recordCheck, succeeds_bind, succeeds_lift, succeeds_modify, findings_addCheck]
  constructor
  · rintro ⟨prevOctets, hprev, headOctets, hhead, genesisOctets, hgenesis, expected, hexpected, _,
      hsame, _, hagrees, outcome, hwalk, hsettled⟩
    obtain ⟨prevHead, rfl⟩ := exists_digest_of_readHead hprev
    obtain ⟨head, rfl⟩ := exists_digest_of_readHead hhead
    obtain rfl := Except.ok.inj ((expectedGenesis_eq hasher preimage).symm.trans hexpected)
    rw [orFail_eq_ok_iff, bytesEqual_iff] at hsame
    subst hsame
    obtain ⟨segment, hread, hwalked, hestablished⟩ :=
      (walkSegment_iff hasher).mp ⟨outcome, hwalk, rfl⟩
    simp only [headFollows_iff] at hsettled
    rw [← expectedPrevHead, hsettle] at hsettled
    obtain ⟨hfirst, hhead', hdescribed⟩ := hsettled
    refine ⟨prevHead, head, segment, ⟨hprev, hhead, hgenesis, ?_, hread, hwalked, ?_, hhead'⟩, ?_⟩
    · exact callerAgrees_iff.mp (orFail_eq_ok_iff.mp hagrees)
    · rintro rfl
      exact hfirst (Option.map_eq_none_iff.mp hestablished)
    · rw [establishedBy, trustedHead, ← hestablished]
      exact hdescribed
  · rintro ⟨prevHead, head, segment, haccepted, hdescribed⟩
    obtain ⟨outcome, hwalk, hestablished⟩ := (walkSegment_iff hasher).mpr
      ⟨segment, haccepted.readSegment, haccepted.walked, rfl⟩
    refine ⟨_, haccepted.readPrevHead, _, haccepted.readHead, _, haccepted.readGenesis, _,
      expectedGenesis_eq hasher preimage, (), orFail_eq_ok_iff.mpr (bytesEqual_iff.mpr rfl), (),
      orFail_eq_ok_iff.mpr (callerAgrees_iff.mpr haccepted.expected), outcome, hwalk, ?_⟩
    simp only [headFollows_iff]
    rw [← expectedPrevHead, hsettle, hestablished]
    refine ⟨?_, haccepted.step, hdescribed⟩
    rintro rfl
    exact haccepted.first (Option.map_eq_none_iff.mp hestablished.symm)

/-- The inclusion section's conditions. -/
structure InclusionAccepted (inclusion : Json) (preimage : LeafPreimage) (options : VerifyOptions)
    (proof : Tree.InclusionProof) : Prop where
  parsed : parseProof inclusion = .ok proof
  epoch : proof.epoch = options.root.epoch
  plain : options.configuredHeight = none →
    Tree.verifyInclusion hasher (leafOf hasher preimage).octets proof options.root.root = .ok ()
  configured : ∀ height ∈ options.configuredHeight, Tree.verifyInclusionForHeight hasher
    (leafOf hasher preimage).octets proof options.root.root height = .ok ()

theorem succeeds_examineInclusion {inclusion : Json} {preimage : LeafPreimage}
    {options : VerifyOptions} {draft : Draft} {described : Findings → Prop} :
    Succeeds (examineInclusion hasher inclusion (leafOf hasher preimage).octets options) draft
        (fun _ final ↦ described (findings final)) ↔
      (∃ proof, InclusionAccepted hasher inclusion preimage options proof) ∧
        described (findings draft) := by
  rw [examineInclusion]
  simp only [succeeds_bind, succeeds_lift, require_eq_ok_iff, exists_const]
  cases hheight : options.configuredHeight with
  | none =>
    simp only [recordCheck, succeeds_bind, succeeds_lift, succeeds_modify, findings_addCheck]
    constructor
    · rintro ⟨proof, hparsed, hepoch, _, hverify, hdescribed⟩
      exact ⟨⟨proof, hparsed, hepoch, fun _ ↦ hverify, by simp [hheight]⟩, hdescribed⟩
    · rintro ⟨⟨proof, haccepted⟩, hdescribed⟩
      exact ⟨proof, haccepted.parsed, haccepted.epoch, (), haccepted.plain hheight, hdescribed⟩
  | some height =>
    simp only [recordCheck, succeeds_bind, succeeds_lift, succeeds_modify, findings_addCheck]
    constructor
    · rintro ⟨proof, hparsed, hepoch, _, hverify, hdescribed⟩
      refine ⟨⟨proof, hparsed, hepoch, by simp [hheight], fun found hfound ↦ ?_⟩, hdescribed⟩
      rw [hheight] at hfound
      obtain rfl := Option.some.inj hfound
      exact hverify
    · rintro ⟨⟨proof, haccepted⟩, hdescribed⟩
      exact ⟨proof, haccepted.parsed, haccepted.epoch, (), haccepted.configured height hheight,
        hdescribed⟩

theorem succeeds_examineFlags {record : Json} {category : ℤ} {context : Option ChainContext}
    {draft : Draft} {described : Findings → Prop} :
    Succeeds (examineFlags record category context) draft
        (fun _ final ↦ described (findings final)) ↔
      ∃ declared, smallInt (record.get "flags") "record.flags" 0xffff = .ok declared ∧
        described { findings draft with flags := some (flagReport declared category context) } := by
  rw [examineFlags]
  simp only [succeeds_bind, succeeds_lift, succeeds_modify]
  refine exists_congr fun declared ↦ and_congr_right fun _ ↦ ?_
  cases context with
  | none => simp only [recordCheck, succeeds_modify, findings_addCheck, findings_setFlags]
  | some context =>
    simp only [recordCheck, succeeds_bind, succeeds_modify]
    by_cases hdiscrepancy : (flagReport declared category (some context)).discrepancy = some true
    · simp only [hdiscrepancy, if_true, pushNote, succeeds_modify, findings_addNote,
        findings_addCheck, findings_setFlags]
    · simp only [hdiscrepancy, if_false, succeeds_pure, findings_addCheck, findings_setFlags]

/-- The conditions an accepted package meets, one for each check. -/
structure Accepted (pkg : Json) (options : VerifyOptions) (evidence : Evidence) : Prop where
  opened : openPackage stringify pkg = .ok evidence.parts
  preimage : readPreimage stringify pkg = .ok evidence.preimage.fields.flatten
  one_le_seq : 1 ≤ evidence.preimage.seq.toNat
  category_le : evidence.preimage.category.toNat ≤ 4
  displays : Displays evidence.parts.record evidence.preimage
  signature : hexField (pkg.get "qp_signature") "qp_signature" 64 = .ok evidence.signature.octets
  attested : verifier.valid evidence.preimage.qpKey evidence.preimage.fields.flatten
    evidence.signature = true
  chain : ChainAccepted hasher evidence.parts.chain evidence.preimage options.chainContext
    evidence.prevHead evidence.head evidence.segment
  inclusion : InclusionAccepted hasher evidence.parts.inclusion evidence.preimage options
    evidence.proof
  declared : smallInt (evidence.parts.record.get "flags") "record.flags" 0xffff =
    .ok evidence.declared

/-- What the report on an accepted package says. -/
def Evidence.report (evidence : Evidence) (options : VerifyOptions) : Findings where
  leaf := some (leafOf hasher evidence.preimage).octets
  fields := some (readingOf evidence.preimage)
  flags := some (flagReport evidence.declared evidence.preimage.category.toNat
    options.chainContext)
  established := establishedBy evidence.segment evidence.preimage.seq.toNat options.chainContext

theorem checkSignature_eq_ok_iff {pkg : Json} {preimage : LeafPreimage} {message : List UInt8} :
    checkSignature verifier pkg preimage.qpKey.octets message = .ok () ↔
      ∃ signature : Signature, hexField (pkg.get "qp_signature") "qp_signature" 64 =
          .ok signature.octets ∧ verifier.valid preimage.qpKey message signature = true := by
  unfold checkSignature
  split
  · next hvalue => simp [hvalue, hexField]
  · next hvalue => simp [hvalue, hexField]
  · next value _ hvalue =>
    rw [hvalue, bind_eq_ok_iff]
    constructor
    · rintro ⟨octets, hread, hvalid⟩
      have hwidth := length_of_hexField hread
      refine ⟨⟨octets, hwidth⟩, hread, ?_⟩
      rw [← ed25519Verify_octets]
      exact orFail_eq_ok_iff.mp hvalid
    · rintro ⟨signature, hread, hvalid⟩
      rw [← ed25519Verify_octets] at hvalid
      exact ⟨_, hread, orFail_eq_ok_iff.mpr hvalid⟩

/-- The sections after the signature. -/
theorem succeeds_sections {parts : Parts} {preimage : LeafPreimage} {options : VerifyOptions}
    {draft : Draft} {described : Findings → Prop} :
    (Succeeds (examineChain hasher parts.chain (readingOf preimage) (leafOf hasher preimage).octets
        options.chainContext) draft fun _ reached ↦
      Succeeds (examineInclusion hasher parts.inclusion (leafOf hasher preimage).octets options)
        reached fun _ reached ↦
        Succeeds (examineFlags parts.record (readingOf preimage).category options.chainContext)
          reached fun _ final ↦ described (findings final)) ↔
      ∃ prevHead head segment proof declared,
        ChainAccepted hasher parts.chain preimage options.chainContext prevHead head segment ∧
        InclusionAccepted hasher parts.inclusion preimage options proof ∧
        smallInt (parts.record.get "flags") "record.flags" 0xffff = .ok declared ∧
        described { findings draft with
          flags := some (flagReport declared preimage.category.toNat options.chainContext)
          established := establishedBy segment preimage.seq.toNat options.chainContext } := by
  simp only [succeeds_examineFlags]
  have hinclusion := fun reached ↦ @succeeds_examineInclusion hasher parts.inclusion preimage
    options reached fun found ↦ ∃ declared,
      smallInt (parts.record.get "flags") "record.flags" 0xffff = .ok declared ∧
        described { found with
          flags := some (flagReport declared preimage.category.toNat options.chainContext) }
  have hchain := @succeeds_examineChain hasher parts.chain preimage options.chainContext draft
    fun found ↦ (∃ proof, InclusionAccepted hasher parts.inclusion preimage options proof) ∧
      ∃ declared, smallInt (parts.record.get "flags") "record.flags" 0xffff = .ok declared ∧
        described { found with
          flags := some (flagReport declared preimage.category.toNat options.chainContext) }
  simp only [← hinclusion] at hchain
  refine hchain.trans ?_
  constructor
  · rintro ⟨prevHead, head, segment, hchain, ⟨proof, hproof⟩, declared, hdeclared, hdescribed⟩
    exact ⟨prevHead, head, segment, proof, declared, hchain, hproof, hdeclared, hdescribed⟩
  · rintro ⟨prevHead, head, segment, proof, declared, hchain, hproof, hdeclared, hdescribed⟩
    exact ⟨prevHead, head, segment, hchain, ⟨proof, hproof⟩, declared, hdeclared, hdescribed⟩

/-- The checks succeed exactly on the packages for which there is evidence. -/
theorem succeeds_examine {pkg : Json} {options : VerifyOptions} {described : Findings → Prop} :
    Succeeds (examine stringify hasher verifier pkg options) Draft.fresh
        (fun _ final ↦ described (findings final)) ↔
      ∃ evidence, Accepted stringify hasher verifier pkg options evidence ∧
        described (evidence.report hasher options) := by
  rw [examine]
  simp only [recordCheck, succeeds_bind, succeeds_lift, succeeds_modify]
  constructor
  · rintro ⟨parts, hopened, octets, hoctets, fields, hfields, _, hdisplays, _, hsignature, hrest⟩
    obtain ⟨preimage, rfl, hseq, hcategory, rfl⟩ := readLeafPreimage_eq_ok_iff.mp hfields
    obtain ⟨signature, hread, hvalid⟩ := (checkSignature_eq_ok_iff verifier).mp hsignature
    obtain ⟨prevHead, head, segment, proof, declared, hchain, hproof, hdeclared, hdescribed⟩ :=
      (succeeds_sections hasher).mp hrest
    exact ⟨⟨parts, preimage, signature, prevHead, head, segment, proof, declared⟩,
      ⟨hopened, hoctets, hseq, hcategory, compareJsonToBytes_eq_ok_iff.mp hdisplays, hread, hvalid,
        hchain, hproof, hdeclared⟩, hdescribed⟩
  · rintro ⟨evidence, haccepted, hdescribed⟩
    refine ⟨evidence.parts, haccepted.opened, _, haccepted.preimage, readingOf evidence.preimage,
      readLeafPreimage_eq_ok_iff.mpr ⟨evidence.preimage, rfl, haccepted.one_le_seq,
        haccepted.category_le, rfl⟩, (), compareJsonToBytes_eq_ok_iff.mpr haccepted.displays, (),
      (checkSignature_eq_ok_iff verifier).mpr
        ⟨evidence.signature, haccepted.signature, haccepted.attested⟩, ?_⟩
    exact (succeeds_sections hasher).mpr ⟨evidence.prevHead, evidence.head, evidence.segment,
      evidence.proof, evidence.declared, haccepted.chain, haccepted.inclusion, haccepted.declared,
      hdescribed⟩

/-- The verifier returns `ok` on exactly the packages for which there is evidence that meets every
condition, and then reports what the evidence gives. -/
theorem accepted_iff {pkg : Json} {options : VerifyOptions} {described : Findings → Prop} :
    (∃ report, verifyDisclosurePackage stringify hasher verifier pkg options = .ok report ∧
        report.ok = true ∧ described (findingsOf report)) ↔
      ∃ evidence, Accepted stringify hasher verifier pkg options evidence ∧
        described (evidence.report hasher options) := by
  rw [← succeeds_examine, Succeeds, verifyDisclosurePackage]
  rcases perform (examine stringify hasher verifier pkg options) Draft.fresh with ⟨outcome, draft⟩
  cases outcome with
  | ok done =>
    constructor
    · rintro ⟨report, hreport, -, hdescribed⟩
      obtain rfl := Except.ok.inj hreport
      exact ⟨done, draft, rfl, hdescribed⟩
    · rintro ⟨value, final, heq, hdescribed⟩
      obtain ⟨-, rfl⟩ := Prod.ext_iff.mp heq
      exact ⟨draft.toReport true none, rfl, rfl, hdescribed⟩
  | error failure =>
    constructor
    · rintro ⟨report, hreport, hok, -⟩
      dsimp only at hreport
      split at hreport
      · obtain rfl := Except.ok.inj hreport
        exact absurd hok (by simp [Draft.toReport])
      · exact absurd hreport (by simp)
    · rintro ⟨value, final, heq, -⟩
      exact absurd heq (by simp)

variable {stringify hasher verifier}

theorem openPackage_eq_ok_iff {pkg : Json} {parts : Parts} :
    openPackage stringify pkg = .ok parts ↔
      isContainer pkg = true ∧ isDisclosureSchema (pkg.get "schema") = true ∧
        checkOnlyListedFields pkg packageShape "" = .ok () ∧
        must (pkg.get "record") "record" = .ok parts.record ∧
        must (pkg.get "chain") "chain" = .ok parts.chain ∧
        must (pkg.get "inclusion") "inclusion" = .ok parts.inclusion := by
  rw [openPackage, bind_unit_eq_ok_iff, require_eq_ok_iff, bind_unit_eq_ok_iff, require_eq_ok_iff,
    bind_unit_eq_ok_iff]
  refine and_congr_right fun _ ↦ and_congr_right fun _ ↦ and_congr_right fun _ ↦ ?_
  constructor
  · intro hfields
    obtain ⟨record, hrecord, hfields⟩ := bind_eq_ok_iff.mp hfields
    obtain ⟨chain, hchain, hfields⟩ := bind_eq_ok_iff.mp hfields
    obtain ⟨inclusion, hinclusion, heq⟩ := bind_eq_ok_iff.mp hfields
    obtain rfl := Except.ok.inj heq
    exact ⟨hrecord, hchain, hinclusion⟩
  · rintro ⟨hrecord, hchain, hinclusion⟩
    rw [hrecord, bind_ok, hchain, bind_ok, hinclusion]
    rfl

theorem get_of_openPackage {pkg : Json} {parts : Parts}
    (hopened : openPackage stringify pkg = .ok parts) :
    pkg.get "record" = some parts.record ∧ pkg.get "chain" = some parts.chain ∧
      pkg.get "inclusion" = some parts.inclusion := by
  obtain ⟨-, -, -, hrecord, hchain, hinclusion⟩ := openPackage_eq_ok_iff.mp hopened
  exact ⟨(must_eq_ok_iff.mp hrecord).1, (must_eq_ok_iff.mp hchain).1,
    (must_eq_ok_iff.mp hinclusion).1⟩

/-- An accepted package is reported as its evidence gives. -/
theorem exists_report_of_accepted {pkg : Json} {options : VerifyOptions} {evidence : Evidence}
    (haccepted : Accepted stringify hasher verifier pkg options evidence) :
    ∃ report, verifyDisclosurePackage stringify hasher verifier pkg options = .ok report ∧
      report.ok = true ∧ findingsOf report = evidence.report hasher options := by
  have hiff := @accepted_iff stringify hasher verifier pkg options
    fun found ↦ found = evidence.report hasher options
  exact hiff.mpr ⟨evidence, haccepted, rfl⟩

/-- A package that is reported as accepted has evidence, and the report is what it gives. -/
theorem exists_evidence_of_ok {pkg : Json} {options : VerifyOptions} {report : DisclosureReport}
    (hreport : verifyDisclosurePackage stringify hasher verifier pkg options = .ok report)
    (hok : report.ok = true) :
    ∃ evidence, Accepted stringify hasher verifier pkg options evidence ∧
      findingsOf report = evidence.report hasher options := by
  have hiff := @accepted_iff stringify hasher verifier pkg options
    fun found ↦ findingsOf report = found
  exact hiff.mp ⟨report, hreport, hok, rfl⟩

end Acceptance

end AnchoredLog.Port.DisclosureAcceptance
