import AnchoredLog.Core.RecordChain
import AnchoredLog.Library.Agreement
import AnchoredLog.Port.Primitives

/-!
# The TypeScript record chain

`chain.ts`: the transition `applyRecord`, which decides a record and returns what it produced,
and `commit`, which returns the successor state. The port keeps no mutable chain; its caller
threads the state.

`Represents` says when a state of the port stands for a chain of the Rust engine: field by field,
the engine's least timestamp standing for the port's null. `agree_judge` compares the two
sequences of checks one by one, in the order both languages make them, and `port_agrees` is the
result: on every record both accept with the same leaf, head, flags and successor state or both
refuse with the same code, and so on every sequence of records, step by step.
-/

set_option autoImplicit false
set_option relaxedAutoImplicit false

namespace AnchoredLog.Port.Chain

open AnchoredLog.Core
open Core.Preimages Library.ByteCodec Library.Fallible Library.Agreement Primitives

/-! ### The port's transition -/

/-- `SCHEMA_VERSION`. -/
def schemaVersion : ℤ :=
  1

/-- `U64_MAX`. -/
def u64Max : ℤ :=
  0xffffffffffffffff

/-- `FLAG_RESERVE_WITHOUT_PRIOR_RESOURCE`. -/
def flagReserveWithoutPriorResource : ℕ :=
  1 <<< 0

/-- `FLAG_CATEGORY_DOWNGRADE`. -/
def flagCategoryDowngrade : ℕ :=
  1 <<< 1

/-- `CATEGORY_MIN`. -/
def categoryMin : ℤ :=
  0

/-- `CATEGORY_MAX`. -/
def categoryMax : ℤ :=
  4

/-- `RESOURCE_CATEGORIES`. -/
def resourceCategories : List ℤ :=
  [1, 2]

/-- `FIRST_RESERVE_CATEGORY`. -/
def firstReserveCategory : ℤ :=
  3

/-- One record as the port takes it. -/
structure RecordLeafInput where
  prevHead : List UInt8
  seq : ℤ
  payloadDigest : List UInt8
  assessmentDigest : List UInt8
  qpKey : List UInt8
  expectedQpKey : Option (List UInt8)
  signature : Option (List UInt8)
  category : ℤ
  effectiveAt : ℤ
  changeIdentifiedAt : ℤ
  payloadUri : List UInt8
  extCommitment : Option (List UInt8)

/-- The chain's state, as the caller threads it. -/
structure ChainState where
  assetCommitment : List UInt8
  schemaVersion : ℤ
  head : List UInt8
  seq : ℤ
  lastEffectiveAt : Option ℤ
  sawResource : Bool
  previousCategory : Option ℤ

/-- What an accepted transition produced. -/
structure Applied where
  leaf : List UInt8
  head : List UInt8
  flags : ℕ

def leafFieldsOf (r : RecordLeafInput) : LeafFields where
  seq := r.seq
  payloadDigest := r.payloadDigest
  assessmentDigest := r.assessmentDigest
  qpKey := r.qpKey
  category := r.category
  effectiveAt := r.effectiveAt
  changeIdentifiedAt := r.changeIdentifiedAt

/-- The bytes the qualified person signs. -/
def leafPreimageOf (assetCommitmentDigest : List UInt8) (r : RecordLeafInput) :
    Thrown (List UInt8) :=
  leafPreimage assetCommitmentDigest (leafFieldsOf r)

def advanceHead (hasher : Hasher) (prevHead leaf : List UInt8) : Thrown (List UInt8) := do
  let preimage ← stepHeadPreimage prevHead leaf
  return keccak256 hasher preimage

/-- `URI_SCHEMES`. -/
def uriSchemes : List (List Char) :=
  [['i', 'p', 'f', 's', ':', '/', '/'], ['h', 't', 't', 'p', 's', ':', '/', '/'],
    ['a', 'r', ':', '/', '/']]

/-- `String.fromCharCode` of one byte. -/
def fromCharCode (b : UInt8) : Char :=
  Char.ofNat b.toNat

/-- One to 128 bytes, printable ASCII, one of three schemes and at least one byte after it. -/
def isWellFormedPayloadUri (uri : List UInt8) : Bool :=
  if uri.length < 1 ∨ 128 < uri.length then
    false
  else if uri.any fun b ↦ b ≤ 0x20 ∨ 0x7f ≤ b then
    false
  else
    let text := uri.map fromCharCode
    uriSchemes.any fun scheme ↦ scheme.isPrefixOf text ∧ scheme.length < text.length

/-- What the engine noticed, never a verdict. -/
def computeFlags (state : ChainState) (category : ℤ) : ℕ :=
  let reserve :=
    if firstReserveCategory ≤ category ∧ ¬ state.sawResource then
      0 ||| flagReserveWithoutPriorResource
    else
      0
  if state.previousCategory.any fun previous ↦ category < previous then
    reserve ||| flagCategoryDowngrade
  else
    reserve

/-- Condition (c): a named expected key that disagrees is decided before verification runs. -/
def checkExpectedKey (r : RecordLeafInput) : Thrown Unit :=
  orFail (¬ r.expectedQpKey.any fun expected ↦ ¬ bytesEqual expected r.qpKey)
    .AttestationKeyMismatch "expected qp_key differs from the record's qp_key"

/-- Condition (d), which an empty chain does not judge. -/
def checkEffectiveAt (state : ChainState) (r : RecordLeafInput) : Thrown Unit :=
  match state.lastEffectiveAt with
  | some last =>
    orFail (¬ r.effectiveAt < last) .NonMonotonicEffectiveAt
      ("effective_at " ++ toString r.effectiveAt ++ " precedes " ++ toString last)
  | none => return ()

/-- The transition of §1.3, its stages and conditions in order. -/
def applyRecord (hasher : Hasher) (verifier : Verifier) (state : ChainState)
    (r : RecordLeafInput) : Thrown Applied := do
  orFail (state.schemaVersion = schemaVersion) .UnsupportedSchemaVersion
    ("chain schema_version " ++ toString state.schemaVersion)
  orFail (r.extCommitment = none) .UnsupportedSchemaVersion
    "record carries ext_commitment, which schema 1 does not hash"
  orFail (bytesEqual r.prevHead state.head) .HeadMismatch
    "prev_head is not the chain's current head"
  orFail (¬ u64Max ≤ state.seq) .ArithmeticOverflow "seq has no successor"
  let nextSeq := state.seq + 1
  orFail (r.seq = nextSeq) .SequenceOutOfOrder
    ("expected seq " ++ toString nextSeq ++ ", got " ++ toString r.seq)
  checkExpectedKey r
  let signature ← okOr r.signature
    (Failure.registryFailure .AttestationMissing "no qualified person's signature")
  let preimage ← leafPreimageOf state.assetCommitment r
  orFail (ed25519Verify verifier r.qpKey preimage signature) .AttestationInvalid
    "signature does not verify over the leaf preimage"
  checkEffectiveAt state r
  let flags := computeFlags state r.category
  orFail (¬ (r.category < categoryMin ∨ categoryMax < r.category)) .MalformedPayload
    ("category " ++ toString r.category ++ " is outside 0..=4")
  orFail (isWellFormedPayloadUri r.payloadUri) .MalformedPayload "payload_uri is not well formed"
  let leaf := keccak256 hasher preimage
  let head ← advanceHead hasher state.head leaf
  return { leaf := leaf, head := head, flags := flags }

/-- The state after an accepted transition. -/
def commit (state : ChainState) (r : RecordLeafInput) (applied : Applied) : ChainState where
  assetCommitment := state.assetCommitment
  schemaVersion := state.schemaVersion
  head := applied.head
  seq := r.seq
  lastEffectiveAt := some r.effectiveAt
  sawResource := state.sawResource || resourceCategories.contains r.category
  previousCategory := some r.category

/-! ### What the port's values represent -/

/-- The record the port is given for a record of the engine. -/
def ofRecord (r : RecordChain.RecordLeafInput) : RecordLeafInput where
  prevHead := r.prevHead.octets
  seq := r.seq.toNat
  payloadDigest := r.payloadDigest.octets
  assessmentDigest := r.assessmentDigest.octets
  qpKey := r.qpKey.octets
  expectedQpKey := r.expectedQpKey.map Octets.octets
  signature := r.signature.map Octets.octets
  category := r.category.toNat
  effectiveAt := r.effectiveAt.toInt
  changeIdentifiedAt := r.changeIdentifiedAt.toInt
  payloadUri := r.payloadUri.octets
  extCommitment := r.extCommitment.map Octets.octets

/-- The port's state stands for a chain of the engine. The engine's least timestamp, which is
what it keeps on an empty chain, stands for the port's null. -/
structure Represents (chain : RecordChain.AssetChain) (state : ChainState) : Prop where
  assetCommitment : state.assetCommitment = chain.assetCommitment.octets
  schemaVersion : state.schemaVersion = chain.schemaVersion.toNat
  head : state.head = chain.head.octets
  seq : state.seq = chain.seq.toNat
  lastEffectiveAt : state.lastEffectiveAt = some chain.lastEffectiveAt.toInt ∨
    state.lastEffectiveAt = none ∧ chain.lastEffectiveAt = Int64.minValue
  sawResource : state.sawResource = chain.sawResource
  previousCategory : state.previousCategory =
    chain.previousCategory.map fun category ↦ (category.toNat : ℤ)

/-- The port's result is the engine's, field by field. -/
structure SameApplied (applied : RecordChain.Applied) (result : Applied) : Prop where
  leaf : result.leaf = applied.leaf.octets
  head : result.head = applied.head.octets
  flags : result.flags = applied.flags.toNat

/-! ### The payload URI -/

theorem fromCharCode_injective : Function.Injective fromCharCode := by
  intro left right heq
  have hcode : ∀ octet : UInt8, (fromCharCode octet).toNat = octet.toNat := by
    intro octet
    have hvalid : octet.toNat.isValidChar := Or.inl (octet.toNat_lt.trans (by norm_num))
    rw [fromCharCode, Char.ofNat, dif_pos hvalid]
    rfl
  apply UInt8.toNat_inj.mp
  rw [← hcode left, ← hcode right, heq]

/-- Reading the bytes as text and comparing prefixes is comparing the bytes. -/
theorem isPrefixOf_map_fromCharCode (scheme uri : List UInt8) :
    (scheme.map fromCharCode).isPrefixOf (uri.map fromCharCode) = scheme.isPrefixOf uri := by
  induction scheme generalizing uri with
  | nil => simp
  | cons octet scheme ih =>
    cases uri with
    | nil => simp
    | cons first uri =>
      rw [List.map_cons, List.map_cons, List.isPrefixOf_cons_cons, List.isPrefixOf_cons_cons, ih]
      congr 1
      rw [Bool.eq_iff_iff, beq_iff_eq, beq_iff_eq, fromCharCode_injective.eq_iff]

/-- The two grammars of a payload URI are one. -/
theorem isWellFormedPayloadUri_eq (uri : List UInt8) :
    isWellFormedPayloadUri uri = RecordChain.payloadUriIsWellFormed uri := by
  have hschemes : uriSchemes = RecordChain.payloadUriSchemes.map (List.map fromCharCode) := by
    decide
  have hempty : uri.length < 1 ↔ uri = [] := by
    rw [Nat.lt_one_iff, List.length_eq_zero_iff]
  have hprintable : (uri.any fun b ↦ b ≤ 0x20 ∨ 0x7f ≤ b) = true ↔
      ¬ (uri.all fun octet ↦ 0x21 ≤ octet ∧ octet ≤ 0x7E) = true := by
    rw [List.any_eq_true, List.all_eq_true]
    push Not
    refine exists_congr fun octet ↦ and_congr_right fun _ ↦ ?_
    rw [decide_eq_true_iff, Ne, decide_eq_true_iff, UInt8.le_iff_toNat_le, UInt8.le_iff_toNat_le,
      UInt8.le_iff_toNat_le, UInt8.le_iff_toNat_le]
    have hlow : (0x20 : UInt8).toNat = 0x20 := rfl
    have hfirst : (0x21 : UInt8).toNat = 0x21 := rfl
    have hlast : (0x7E : UInt8).toNat = 0x7E := rfl
    have hhigh : (0x7f : UInt8).toNat = 0x7f := rfl
    omega
  rw [isWellFormedPayloadUri, RecordChain.payloadUriIsWellFormed, RecordChain.maxPayloadUriLen]
  simp only [hempty, hprintable]
  congr 2
  rw [hschemes, List.any_map]
  refine congrArg (List.any RecordChain.payloadUriSchemes) (funext fun scheme ↦ ?_)
  simp only [Function.comp_apply, isPrefixOf_map_fromCharCode, List.length_map]
  exact decide_eq_decide.mpr and_comm

/-! ### The flags -/

theorem computeFlags_eq {chain : RecordChain.AssetChain} {state : ChainState}
    (hrepresents : Represents chain state) {r : RecordChain.RecordLeafInput}
    (hcategory : r.category ≤ RecordChain.maxCategory) :
    computeFlags state (ofRecord r).category = (chain.flagsFor r).toNat := by
  have hbound : r.category.toNat ≤ 4 := UInt8.le_iff_toNat_le.mp hcategory
  have hreserve : (firstReserveCategory ≤ (ofRecord r).category ∧ ¬ state.sawResource = true) ↔
      (r.category = 3 ∨ r.category = 4) ∧ chain.sawResource = false := by
    rw [hrepresents.sawResource, Bool.not_eq_true, ← UInt8.toNat_inj, ← UInt8.toNat_inj]
    refine and_congr_left fun _ ↦ ?_
    change (3 : ℤ) ≤ r.category.toNat ↔ r.category.toNat = 3 ∨ r.category.toNat = 4
    omega
  have hdowngrade : (state.previousCategory.any
      fun previous ↦ (ofRecord r).category < previous) =
        chain.previousCategory.any fun previous ↦ r.category < previous := by
    rw [hrepresents.previousCategory]
    cases chain.previousCategory with
    | none => rfl
    | some previous =>
      refine decide_eq_decide.mpr ?_
      rw [UInt8.lt_iff_toNat_lt]
      exact Int.ofNat_lt
  rw [computeFlags, RecordChain.AssetChain.flagsFor]
  simp only [hreserve, hdowngrade]
  by_cases hfirst : (r.category = 3 ∨ r.category = 4) ∧ chain.sawResource = false
  · by_cases hsecond : (chain.previousCategory.any fun previous ↦ r.category < previous) = true
    · simp only [hfirst, hsecond, and_self, ↓reduceIte]
      decide
    · simp only [hfirst, hsecond, and_self, ↓reduceIte, Bool.false_eq_true]
      decide
  · by_cases hsecond : (chain.previousCategory.any fun previous ↦ r.category < previous) = true
    · simp only [hfirst, hsecond, ↓reduceIte]
      decide
    · simp only [hfirst, hsecond, ↓reduceIte, Bool.false_eq_true]
      decide

/-! ### One record -/

section Agreement

variable (hasher : Hasher) (verifier : Verifier)

/-- The engine's condition (c) as three checks. -/
theorem checkAttestation_eq (r : RecordChain.RecordLeafInput) (message : List UInt8) :
    RecordChain.checkAttestation verifier r message = (do
      require (∀ expected ∈ r.expectedQpKey, expected = r.qpKey)
        RegistryError.attestationKeyMismatch
      let signature ← okOr r.signature .attestationMissing
      require (verifier.valid r.qpKey message signature = true)
        RegistryError.attestationInvalid) := by
  rw [RecordChain.checkAttestation]
  cases r.expectedQpKey with
  | none =>
    rw [require_of_true (by simp)]
    rfl
  | some expected =>
    by_cases hexpected : expected = r.qpKey
    · rw [require_of_true (by simpa using hexpected)]
      simp only [require_of_true hexpected]
      rfl
    · rw [require_of_false (by simpa using hexpected)]
      simp only [require_of_false hexpected]
      rfl

theorem leafPreimageOf_eq (assetCommitment : Digest) (r : RecordChain.RecordLeafInput) :
    leafPreimageOf assetCommitment.octets (ofRecord r) =
      .ok (RecordChain.leafMessage assetCommitment r) :=
  leafPreimage_eq (RecordChain.leafPreimage assetCommitment r)

theorem advanceHead_eq (head leaf : Digest) :
    advanceHead hasher head.octets leaf.octets =
      .ok (RecordChain.headStep hasher head leaf).octets := by
  rw [advanceHead, stepHeadPreimage_eq, bind_ok]
  rfl

variable {chain : RecordChain.AssetChain} {state : ChainState}

/-- Condition (d) on both sides: below the engine's least timestamp there is nothing. -/
theorem agree_checkEffectiveAt (hrepresents : Represents chain state)
    (r : RecordChain.RecordLeafInput) :
    Agree SameCode (fun _ _ ↦ True)
      (require (¬ r.effectiveAt < chain.lastEffectiveAt) .nonMonotonicEffectiveAt)
      (checkEffectiveAt state (ofRecord r)) := by
  rcases hrepresents.lastEffectiveAt with hlast | ⟨hnone, hleast⟩
  · rw [checkEffectiveAt, hlast]
    refine Agree.require ?_ rfl
    rw [not_iff_not]
    exact Int64.lt_iff_toInt_lt
  · have hmin : ¬ r.effectiveAt < Int64.minValue := by
      rw [Int64.lt_iff_toInt_lt, Int64.toInt_minValue, not_lt]
      exact r.effectiveAt.le_toInt
    rw [checkEffectiveAt, hnone, hleast, require_of_true hmin]
    exact Agree.ok trivial

/-- The engine's decision about a record and the port's agree: accepted by both with the same
leaf, head and flags, or refused by both with the same code. -/
theorem agree_judge (hrepresents : Represents chain state) (r : RecordChain.RecordLeafInput) :
    Agree SameCode SameApplied (RecordChain.judge hasher verifier chain r)
      (applyRecord hasher verifier state (ofRecord r)) := by
  have hversion : state.schemaVersion = schemaVersion := by
    rw [hrepresents.schemaVersion, chain.schemaVersion_eq]
    rfl
  have hseq := hrepresents.seq
  have hseqBound := chain.seq.toNat_lt
  rw [RecordChain.judge, applyRecord, orFail_of_true hversion, bind_ok]
  refine Agree.require_bind ?_ rfl fun _ ↦ ?_
  · change r.extCommitment = none ↔ r.extCommitment.map Octets.octets = none
    rw [Option.map_eq_none_iff]
  refine Agree.require_bind ?_ rfl fun _ ↦ ?_
  · change r.prevHead = chain.head ↔ bytesEqual r.prevHead.octets state.head = true
    rw [hrepresents.head, bytesEqual_octets, decide_eq_true_iff]
  by_cases hfits : chain.seq.toNat + 1 < 2 ^ 64
  · rw [checkedAdd_one_eq_some_iff.mpr ⟨hfits, rfl⟩, okOr_some, bind_ok,
      orFail_of_true (by rw [hseq, u64Max]; omega), bind_ok]
    refine Agree.require_bind ?_ rfl fun _ ↦ ?_
    · change r.seq = chain.seq + 1 ↔ (r.seq.toNat : ℤ) = state.seq + 1
      rw [hseq, ← UInt64.toNat_inj, UInt64.toNat_add, UInt64.toNat_one, Nat.mod_eq_of_lt hfits]
      omega
    rw [checkAttestation_eq, bind_assoc]
    refine Agree.require_bind ?_ rfl fun _ ↦ ?_
    · change (∀ expected ∈ r.expectedQpKey, expected = r.qpKey) ↔
        ¬ ((r.expectedQpKey.map Octets.octets).any
          fun expected ↦ ¬ bytesEqual expected r.qpKey.octets) = true
      cases r.expectedQpKey with
      | none => simp
      | some expected => simp [bytesEqual_octets]
    rw [bind_assoc]
    change Agree SameCode SameApplied _ (okOr (r.signature.map Octets.octets) _ >>= _)
    cases r.signature with
    | none => exact Agree.error rfl
    | some signature =>
      rw [okOr_some, bind_ok, Option.map_some, okOr_some, bind_ok, hrepresents.assetCommitment,
        leafPreimageOf_eq, bind_ok]
      refine Agree.require_bind ?_ rfl fun _ ↦ ?_
      · change _ ↔ ed25519Verify verifier r.qpKey.octets _ signature.octets = true
        rw [ed25519Verify_octets]
      refine Agree.bind (agree_checkEffectiveAt hrepresents r) fun _ _ _ ↦ ?_
      rw [RecordChain.checkFields, bind_assoc]
      refine Agree.require_bind ?_ rfl fun hcategory ↦ ?_
      · change r.category ≤ RecordChain.maxCategory ↔
          ¬ ((r.category.toNat : ℤ) < 0 ∨ 4 < (r.category.toNat : ℤ))
        rw [UInt8.le_iff_toNat_le]
        change r.category.toNat ≤ 4 ↔ _
        omega
      refine Agree.require_bind ?_ rfl fun _ ↦ ?_
      · rw [isWellFormedPayloadUri_eq]
        rfl
      rw [hrepresents.head, keccak256]
      change Agree SameCode SameApplied _ (advanceHead hasher chain.head.octets
        (RecordChain.leafDigest hasher chain.assetCommitment r).octets >>= _)
      rw [advanceHead_eq, bind_ok]
      exact Agree.ok ⟨rfl, rfl, computeFlags_eq hrepresents hcategory⟩
  · rw [checkedAdd_eq_none_iff.mpr (by rw [UInt64.toNat_one]; omega), okOr_none, bind_error,
      orFail_of_false (by rw [hseq, u64Max]; omega), bind_error]
    exact Agree.error rfl

/-- The port's successor state stands for the engine's. -/
theorem represents_commit (hrepresents : Represents chain state)
    {r : RecordChain.RecordLeafInput} {applied : Applied}
    (hhead : applied.head = (RecordChain.commit hasher chain r).head.octets) :
    Represents (RecordChain.commit hasher chain r) (commit state (ofRecord r) applied) where
  assetCommitment := hrepresents.assetCommitment
  schemaVersion := hrepresents.schemaVersion
  head := hhead
  seq := rfl
  lastEffectiveAt := Or.inl rfl
  sawResource := by
    have hcontains : resourceCategories.contains (r.category.toNat : ℤ) =
        (r.category == 1 || r.category == 2) := by
      rw [Bool.eq_iff_iff, List.contains_iff_mem, Bool.or_eq_true, beq_iff_eq, beq_iff_eq,
        ← UInt8.toNat_inj, ← UInt8.toNat_inj]
      change (r.category.toNat : ℤ) ∈ [1, 2] ↔ r.category.toNat = 1 ∨ r.category.toNat = 2
      rw [List.mem_cons, List.mem_singleton]
      omega
    change (state.sawResource || resourceCategories.contains (r.category.toNat : ℤ)) =
      (chain.sawResource || (r.category == 1 || r.category == 2))
    rw [hrepresents.sawResource, hcontains]
  previousCategory := rfl

/-! ### Sequences of records -/

/-- The port's caller: an accepted record is committed, a refused one leaves the state. -/
def offer (state : ChainState) (r : RecordLeafInput) : Thrown Applied × ChainState :=
  match applyRecord hasher verifier state r with
  | .ok applied => (.ok applied, commit state r applied)
  | .error failure => (.error failure, state)

/-- The results of the engine on a sequence of records. -/
def engineRun : RecordChain.AssetChain → List RecordChain.RecordLeafInput →
    List (Result RecordChain.Applied)
  | _, [] => []
  | chain, r :: records =>
    (perform (RecordChain.apply hasher verifier r) chain).1 ::
      engineRun (perform (RecordChain.apply hasher verifier r) chain).2 records

/-- The results of the port on a sequence of records. -/
def portRun : ChainState → List RecordLeafInput → List (Thrown Applied)
  | _, [] => []
  | state, r :: records =>
    (offer hasher verifier state r).1 :: portRun (offer hasher verifier state r).2 records

/-- One record: the results agree, and the successor states stand for one another. -/
theorem agree_offer (hrepresents : Represents chain state) (r : RecordChain.RecordLeafInput) :
    Agree SameCode SameApplied (perform (RecordChain.apply hasher verifier r) chain).1
        (offer hasher verifier state (ofRecord r)).1 ∧
      Represents (perform (RecordChain.apply hasher verifier r) chain).2
        (offer hasher verifier state (ofRecord r)).2 := by
  have hagree := agree_judge hasher verifier hrepresents r
  rw [RecordChain.perform_apply, offer]
  cases hjudge : RecordChain.judge hasher verifier chain r with
  | error error =>
    rw [hjudge] at hagree
    generalize applyRecord hasher verifier state (ofRecord r) = outcome at hagree
    cases hagree with
    | error herror => exact ⟨Agree.error herror, hrepresents⟩
  | ok applied =>
    rw [hjudge] at hagree
    obtain ⟨-, rfl⟩ := (RecordChain.judge_eq_ok_iff hasher verifier chain r applied).mp hjudge
    generalize applyRecord hasher verifier state (ofRecord r) = outcome at hagree
    cases hagree with
    | ok hsame =>
      exact ⟨Agree.ok hsame, represents_commit hasher hrepresents hsame.head⟩

/-- The engine and its port agree: on every record, and step by step on every sequence of
records. -/
theorem port_agrees (hrepresents : Represents chain state) :
    (∀ r, Agree SameCode SameApplied (perform (RecordChain.apply hasher verifier r) chain).1
          (offer hasher verifier state (ofRecord r)).1 ∧
        Represents (perform (RecordChain.apply hasher verifier r) chain).2
          (offer hasher verifier state (ofRecord r)).2) ∧
      ∀ records, List.Forall₂ (Agree SameCode SameApplied) (engineRun hasher verifier chain records)
        (portRun hasher verifier state (records.map ofRecord)) := by
  refine ⟨agree_offer hasher verifier hrepresents, fun records ↦ ?_⟩
  induction records generalizing chain state with
  | nil => exact List.Forall₂.nil
  | cons r records ih =>
    obtain ⟨hresult, hnext⟩ := agree_offer hasher verifier hrepresents r
    exact List.Forall₂.cons hresult (ih hnext)

end Agreement

/-- The port's state for the fresh chain of an asset. -/
def freshState (hasher : Hasher) (assetCommitment : Digest) : ChainState where
  assetCommitment := assetCommitment.octets
  schemaVersion := schemaVersion
  head := (hasher.hash (RecordChain.genesisMessage assetCommitment)).octets
  seq := 0
  lastEffectiveAt := none
  sawResource := false
  previousCategory := none

/-- Agreement holds from the fresh chain of an asset, whose missing timestamp is null. -/
theorem port_agrees_fresh :
    ∃ chain, RecordChain.start residueHasher (Octets.zeros 32) RecordChain.schemaVersion =
        .ok chain ∧
      Represents chain (freshState residueHasher (Octets.zeros 32)) ∧
      ∀ records, List.Forall₂ (Agree SameCode SameApplied)
        (engineRun residueHasher permissiveVerifier chain records)
        (portRun residueHasher permissiveVerifier (freshState residueHasher (Octets.zeros 32))
          (records.map ofRecord)) := by
  have hfresh : Represents ⟨Octets.zeros 32, RecordChain.schemaVersion, rfl,
      residueHasher.hash (RecordChain.genesisMessage (Octets.zeros 32)), 0, Int64.minValue, false,
      none⟩ (freshState residueHasher (Octets.zeros 32)) :=
    ⟨rfl, rfl, rfl, rfl, Or.inr ⟨rfl, rfl⟩, rfl, rfl⟩
  exact ⟨_, RecordChain.start_eq residueHasher (Octets.zeros 32), hfresh,
    (port_agrees residueHasher permissiveVerifier hfresh).2⟩

end AnchoredLog.Port.Chain
