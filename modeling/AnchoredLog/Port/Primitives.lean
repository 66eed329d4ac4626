import AnchoredLog.Core.Preimages
import AnchoredLog.Library.Layouts
import Mathlib.Data.Int.Notation

/-!
# The TypeScript port's primitives and preimage writers

The lower layer of the TypeScript verifier: `errors.ts`, the byte helpers of `bytes.ts` and the
writers of `preimage.ts` that the record chain and the epoch tree use. An array of bytes is a list
of octets of any length, and a `bigint`, like a `number` that holds an integer, is an integer, so
the range and width checks the port makes at run time are all here. A thrown error is one of the
registry's failures, with its code and its text, a failure of a disclosure package, which has a
name and no code, or an error of the language.

The hash function and the signature scheme are the ones the Rust engine is given, read through the
port's own signatures: `keccak256` returns the digest's octets, and `ed25519Verify` first checks
the widths of the key and of the signature.

Each `…_eq` lemma says that on values of the engine's own types a writer never fails and writes
exactly the octets the engine's preimage of the same name hashes.
-/

set_option autoImplicit false
set_option relaxedAutoImplicit false

namespace AnchoredLog.Port.Primitives

open Core.Preimages Library.ByteCodec Library.Fallible Library.Layouts

/-! ### Failures -/

/-- The names of the registry's codes. -/
inductive RegistryCodeName
  | HeadMismatch
  | SequenceOutOfOrder
  | MalformedPayload
  | AttestationMissing
  | AttestationInvalid
  | AttestationKeyMismatch
  | CategorySequenceUnsupported
  | NonMonotonicEffectiveAt
  | DomainTagMismatch
  | RecordTooLarge
  | EpochOutOfOrder
  | CheckpointAlreadyWritten
  | UnsupportedSchemaVersion
  | ArithmeticOverflow
  | CanonicalizationFailed
  | EpochCapacityExceeded
  | InclusionProofInvalid
  | MergeDelayExceeded
  | ReceiptAlreadyAttached
  | SubmissionNotInEpoch
  | PromisePolicyInvalid
deriving DecidableEq, Repr

/-- `REGISTRY_CODES`. -/
def registryCodes : RegistryCodeName → ℕ
  | .HeadMismatch => 0x03
  | .SequenceOutOfOrder => 0x04
  | .MalformedPayload => 0x05
  | .AttestationMissing => 0x06
  | .AttestationInvalid => 0x07
  | .AttestationKeyMismatch => 0x08
  | .CategorySequenceUnsupported => 0x09
  | .NonMonotonicEffectiveAt => 0x0a
  | .DomainTagMismatch => 0x0b
  | .RecordTooLarge => 0x0c
  | .EpochOutOfOrder => 0x0d
  | .CheckpointAlreadyWritten => 0x0e
  | .UnsupportedSchemaVersion => 0x0f
  | .ArithmeticOverflow => 0x10
  | .CanonicalizationFailed => 0x11
  | .EpochCapacityExceeded => 0x12
  | .InclusionProofInvalid => 0x13
  | .MergeDelayExceeded => 0x14
  | .ReceiptAlreadyAttached => 0x15
  | .SubmissionNotInEpoch => 0x16
  | .PromisePolicyInvalid => 0x17

/-- `PACKAGE_FAILURES`: the failures of a package, which the registry has no code for. -/
inductive PackageFailureName
  | MalformedPackage
  | JsonBorshMismatch
  | RootUnavailable
  | RootEpochMismatch
  | UnlistedField
  | EpochBeforeLogStart
  | InconsistentChainView
  | CheckpointNotYetPublished
deriving DecidableEq, Repr

/-- What the port throws: a registry failure or a package failure with its text, a `RangeError`,
or a `TypeError`, such as that of a read through `undefined`. -/
inductive Failure
  | registryFailure (name : RegistryCodeName) (detail : String)
  | packageFailure (failure : PackageFailureName) (detail : String)
  | rangeError (message : String)
  | typeError (message : String)
deriving DecidableEq, Repr

/-- The registry code of a failure that has one. -/
def Failure.code : Failure → Option ℕ
  | .registryFailure name _ => some (registryCodes name)
  | .packageFailure _ _ => none
  | .rangeError _ => none
  | .typeError _ => none

/-- The name of a registry code, as text. -/
def RegistryCodeName.text : RegistryCodeName → String
  | .HeadMismatch => "HeadMismatch"
  | .SequenceOutOfOrder => "SequenceOutOfOrder"
  | .MalformedPayload => "MalformedPayload"
  | .AttestationMissing => "AttestationMissing"
  | .AttestationInvalid => "AttestationInvalid"
  | .AttestationKeyMismatch => "AttestationKeyMismatch"
  | .CategorySequenceUnsupported => "CategorySequenceUnsupported"
  | .NonMonotonicEffectiveAt => "NonMonotonicEffectiveAt"
  | .DomainTagMismatch => "DomainTagMismatch"
  | .RecordTooLarge => "RecordTooLarge"
  | .EpochOutOfOrder => "EpochOutOfOrder"
  | .CheckpointAlreadyWritten => "CheckpointAlreadyWritten"
  | .UnsupportedSchemaVersion => "UnsupportedSchemaVersion"
  | .ArithmeticOverflow => "ArithmeticOverflow"
  | .CanonicalizationFailed => "CanonicalizationFailed"
  | .EpochCapacityExceeded => "EpochCapacityExceeded"
  | .InclusionProofInvalid => "InclusionProofInvalid"
  | .MergeDelayExceeded => "MergeDelayExceeded"
  | .ReceiptAlreadyAttached => "ReceiptAlreadyAttached"
  | .SubmissionNotInEpoch => "SubmissionNotInEpoch"
  | .PromisePolicyInvalid => "PromisePolicyInvalid"

/-- The name of a package failure, as text. -/
def PackageFailureName.text : PackageFailureName → String
  | .MalformedPackage => "MalformedPackage"
  | .JsonBorshMismatch => "JsonBorshMismatch"
  | .RootUnavailable => "RootUnavailable"
  | .RootEpochMismatch => "RootEpochMismatch"
  | .UnlistedField => "UnlistedField"
  | .EpochBeforeLogStart => "EpochBeforeLogStart"
  | .InconsistentChainView => "InconsistentChainView"
  | .CheckpointNotYetPublished => "CheckpointNotYetPublished"

/-- A code as two upper-case hexadecimal digits. -/
def formatCode (code : ℕ) : String :=
  "0x" ++ String.ofList (((Nat.toDigits 16 code).leftpad 2 '0').map Char.toUpper)

/-- The text after the name of a failure, nothing when it has no detail. -/
def detailText (detail : String) : String :=
  if detail = "" then "" else ": " ++ detail

/-- The `message` of a thrown error. -/
def Failure.message : Failure → String
  | .registryFailure name detail =>
    formatCode (registryCodes name) ++ " " ++ name.text ++ detailText detail
  | .packageFailure failure detail => failure.text ++ detailText detail
  | .rangeError message => message
  | .typeError message => message

/-- The port's failure carries the engine's error code. -/
def SameCode (error : RegistryError) (failure : Failure) : Prop :=
  failure.code = some error.code.toNat

/-- A computation of the port that may throw. -/
abbrev Thrown (Value : Type) : Type :=
  Except Failure Value

/-- A registry failure thrown unless a condition holds. -/
def orFail (condition : Prop) [Decidable condition] (name : RegistryCodeName) (detail : String) :
    Thrown Unit :=
  require condition (.registryFailure name detail)

/-! ### Bytes -/

/-- The bytes of several arrays, one after the other. -/
def concat (parts : List (List UInt8)) : List UInt8 :=
  parts.flatten

/-- Equality of two arrays, accumulated over every position. -/
def bytesEqual (a b : List UInt8) : Bool :=
  if a.length ≠ b.length then
    false
  else
    (List.zipWith (· ^^^ ·) a b).foldl (· ||| ·) 0 == 0

/-- Lexicographic byte order: the first differing position decides, then the length. -/
def compareBytes : List UInt8 → List UInt8 → ℤ
  | x :: a, y :: b => if x ≠ y then (if x < y then -1 else 1) else compareBytes a b
  | a, b => if a.length = b.length then 0 else if a.length < b.length then -1 else 1

def u16le (v : ℤ) : Thrown (List UInt8) := do
  require (¬ (v < 0 ∨ 0xffff < v)) (.rangeError ("u16 out of range: " ++ toString v))
  return leList 2 v.toNat

def u64le (v : ℤ) : Thrown (List UInt8) := do
  require (¬ (v < 0 ∨ 0xffffffffffffffff < v)) (.rangeError ("u64 out of range: " ++ toString v))
  return leList 8 v.toNat

/-- Two's complement at eight bytes. -/
def i64le (v : ℤ) : Thrown (List UInt8) := do
  require (¬ (v < -2 ^ 63 ∨ 2 ^ 63 - 1 < v)) (.rangeError ("i64 out of range: " ++ toString v))
  return leList 8 (v % 2 ^ 64).toNat

/-- Two bytes from an offset as a little-endian number. -/
def readU16le (b : List UInt8) (off : ℕ) : Thrown ℕ := do
  require (off + 2 ≤ b.length) (.rangeError "Offset is outside the bounds of the DataView")
  return leNat ((b.drop off).take 2)

/-- Eight bytes from an offset as a little-endian number. -/
def readU64le (b : List UInt8) (off : ℕ) : Thrown ℤ := do
  require (off + 8 ≤ b.length) (.rangeError "Offset is outside the bounds of the DataView")
  return leNat ((b.drop off).take 8)

/-- Eight bytes from an offset as a little-endian number in two's complement. -/
def readI64le (b : List UInt8) (off : ℕ) : Thrown ℤ := do
  require (off + 8 ≤ b.length) (.rangeError "Offset is outside the bounds of the DataView")
  return (leNat ((b.drop off).take 8) : ℤ).bmod (2 ^ 64)

/-! ### Hashing and signatures -/

/-- The digest of a message, as bytes. -/
def keccak256 (hasher : Hasher) (data : List UInt8) : List UInt8 :=
  (hasher.hash data).octets

/-- Signature verification behind the port's own width checks. -/
def ed25519Verify (verifier : Verifier) (publicKey message signature : List UInt8) : Bool :=
  if hwidths : publicKey.length = 32 ∧ signature.length = 64 then
    verifier.valid ⟨publicKey, hwidths.1⟩ message ⟨signature, hwidths.2⟩
  else
    false

/-! ### Preimage writers -/

/-- `MAX_PREIMAGE_LEN`. -/
def maxPreimageLength : ℕ :=
  256

/-- One write to the sink, which refuses to pass `MAX_PREIMAGE_LEN`. -/
def sinkWrite (written bytes : List UInt8) : Thrown (List UInt8) := do
  orFail (¬ maxPreimageLength < written.length + bytes.length) .RecordTooLarge
    ("preimage would reach " ++ toString (written.length + bytes.length) ++ " bytes")
  return written ++ bytes

/-- A tag and then the fields, written in order. -/
def buildPreimage (tag : List UInt8) (fields : List (List UInt8)) : Thrown (List UInt8) :=
  (tag :: fields).foldlM sinkWrite []

/-- An array that must have a stated width. -/
def fixed (name : String) (b : List UInt8) (len : ℕ) : Thrown (List UInt8) := do
  orFail (b.length = len) .MalformedPayload
    (name ++ " must be " ++ toString len ++ " bytes, got " ++ toString b.length)
  return b

/-- `TAG_LEN`. -/
def tagLength : ℕ :=
  8

/-- The body of a preimage that is expected to carry a tag. -/
def readTagged (preimage expectedTag : List UInt8) : Thrown (List UInt8) := do
  orFail (¬ preimage.length < tagLength) .MalformedPayload "preimage shorter than its tag"
  orFail (bytesEqual (preimage.take tagLength) expectedTag) .DomainTagMismatch
    "preimage carries a different domain tag"
  return preimage.drop tagLength

def genesisHeadPreimage (c : List UInt8) (schemaVersion : ℤ) : Thrown (List UInt8) := do
  let commitment ← fixed "asset commitment" c 32
  let version ← u16le schemaVersion
  buildPreimage tagHead.octets [commitment, version]

/-- The fields of a leaf preimage. -/
structure LeafFields where
  seq : ℤ
  payloadDigest : List UInt8
  assessmentDigest : List UInt8
  qpKey : List UInt8
  category : ℤ
  effectiveAt : ℤ
  changeIdentifiedAt : ℤ

def leafPreimage (c : List UInt8) (f : LeafFields) : Thrown (List UInt8) := do
  orFail (¬ (f.category < 0 ∨ 255 < f.category)) .MalformedPayload
    ("category is a u8, got " ++ toString f.category)
  let commitment ← fixed "asset commitment" c 32
  let seq ← u64le f.seq
  let payload ← fixed "payload digest" f.payloadDigest 32
  let assessment ← fixed "assessment digest" f.assessmentDigest 32
  let key ← fixed "qp key" f.qpKey 32
  let effective ← i64le f.effectiveAt
  let identified ← i64le f.changeIdentifiedAt
  buildPreimage tagLeaf.octets [commitment, seq, payload, assessment, key,
    [UInt8.ofNat f.category.toNat], effective, identified]

def stepHeadPreimage (prevHead leaf : List UInt8) : Thrown (List UInt8) := do
  let previous ← fixed "previous head" prevHead 32
  let leaf ← fixed "leaf" leaf 32
  buildPreimage tagHead.octets [previous, leaf]

def realLeafPreimage (leaf : List UInt8) : Thrown (List UInt8) := do
  let leaf ← fixed "leaf" leaf 32
  buildPreimage tagMtl0.octets [leaf]

def paddingLeafPreimage (prfOutput : List UInt8) : Thrown (List UInt8) := do
  let output ← fixed "prf output" prfOutput 32
  buildPreimage tagPad.octets [output]

def nodePreimage (left right : List UInt8) : Thrown (List UInt8) := do
  let left ← fixed "left" left 32
  let right ← fixed "right" right 32
  buildPreimage tagMtn1.octets [left, right]

def prfPreimage (k x : List UInt8) : Thrown (List UInt8) := do
  let key ← fixed "prf key" k 32
  let length ← u16le x.length
  buildPreimage tagPrf.octets [key, length, x]

/-! ### The byte helpers on the engine's values -/

theorem foldl_or_eq_zero_iff (octets : List UInt8) (start : UInt8) :
    octets.foldl (· ||| ·) start = 0 ↔ start = 0 ∧ ∀ octet ∈ octets, octet = 0 := by
  induction octets generalizing start with
  | nil => simp
  | cons octet octets ih =>
    rw [List.foldl_cons, ih, UInt8.or_eq_zero_iff, List.forall_mem_cons, and_assoc]

theorem xor_foldl_eq_zero_iff {a b : List UInt8} (hlength : a.length = b.length) :
    (List.zipWith (· ^^^ ·) a b).foldl (· ||| ·) 0 = 0 ↔ a = b := by
  rw [foldl_or_eq_zero_iff]
  simp only [true_and]
  induction a generalizing b with
  | nil => simp [List.eq_nil_of_length_eq_zero hlength.symm]
  | cons x a ih =>
    cases b with
    | nil => simp at hlength
    | cons y b =>
      rw [List.zipWith_cons_cons, List.forall_mem_cons, ih (by simpa using hlength),
        UInt8.xor_eq_zero_iff, List.cons.injEq]

/-- The accumulated comparison is equality. -/
theorem bytesEqual_eq (a b : List UInt8) : bytesEqual a b = decide (a = b) := by
  unfold bytesEqual
  by_cases hlength : a.length = b.length
  · rw [if_neg (by simpa using hlength), Bool.eq_iff_iff, beq_iff_eq,
      xor_foldl_eq_zero_iff hlength, decide_eq_true_iff]
  · rw [if_pos hlength, eq_comm, decide_eq_false_iff_not]
    exact fun heq ↦ hlength (congrArg List.length heq)

theorem bytesEqual_iff {a b : List UInt8} : bytesEqual a b = true ↔ a = b := by
  rw [bytesEqual_eq, decide_eq_true_iff]

theorem bytesEqual_octets {width : ℕ} (left right : Octets width) :
    bytesEqual left.octets right.octets = decide (left = right) := by
  rw [bytesEqual_eq]
  exact decide_eq_decide.mpr Octets.ext_iff.symm

theorem orFail_of_true {condition : Prop} [Decidable condition] {name : RegistryCodeName}
    {detail : String} (hcondition : condition) : orFail condition name detail = .ok () :=
  require_of_true hcondition

theorem orFail_of_false {condition : Prop} [Decidable condition] {name : RegistryCodeName}
    {detail : String} (hcondition : ¬ condition) :
    orFail condition name detail = .error (.registryFailure name detail) :=
  require_of_false hcondition

@[simp] theorem orFail_eq_ok_iff {condition : Prop} [Decidable condition]
    {name : RegistryCodeName} {detail : String} {result : Unit} :
    orFail condition name detail = .ok result ↔ condition :=
  require_eq_ok_iff

theorem fixed_eq {width : ℕ} (name : String) (string : Octets width) :
    fixed name string.octets width = .ok string.octets := by
  rw [fixed, orFail_of_true string.length_octets]
  rfl

theorem u16le_eq {value : ℕ} (hvalue : value < 2 ^ 16) : u16le value = .ok (leList 2 value) := by
  rw [u16le, require_of_true (by omega), bind_ok, Int.toNat_natCast]
  rfl

theorem u64le_eq (value : UInt64) : u64le value.toNat = .ok (leList 8 value.toNat) := by
  have hbound := value.toNat_lt
  rw [u64le, require_of_true (by omega), bind_ok, Int.toNat_natCast]
  rfl

/-- Two's complement is the reinterpretation of a signed integer as an unsigned one. -/
theorem i64le_eq (value : Int64) : i64le value.toInt = .ok (leList 8 value.toUInt64.toNat) := by
  have hlow := value.le_toInt
  have hhigh := value.toInt_lt
  have hunsigned : (value.toInt % 2 ^ 64).toNat = value.toUInt64.toNat := by
    have hbits : value.toInt = (value.toBitVec.toNat : ℤ).bmod (2 ^ 64) := by
      rw [← Int64.toInt_toBitVec, BitVec.toInt_eq_toNat_bmod]
    have hnat : value.toUInt64.toNat = value.toBitVec.toNat := rfl
    have hlt := value.toBitVec.isLt
    have hmodulus : (2 : ℤ) ^ 64 = ((2 ^ 64 : ℕ) : ℤ) := by norm_num
    rw [hbits, hnat, hmodulus, Int.bmod_emod]
    omega
  rw [i64le, require_of_true (by omega), bind_ok, hunsigned]
  rfl

/-! ### Reading the integers of a record -/

section Records

variable {fields : List (List UInt8)} (index : ℕ) {off : ℕ}

theorem readU16le_flatten {value : UInt16} (hfield : fields[index]? = some (leList 2 value.toNat))
    (hoff : (fields.take index).flatten.length = off) :
    readU16le fields.flatten off = .ok value.toNat := by
  have hvalue := value.toNat_lt
  have hfits : off + 2 ≤ fields.flatten.length := by
    rw [flatten_split hfield, List.length_append, List.length_append, length_leList, hoff]
    omega
  rw [readU16le, require_of_true hfits, bind_ok,
    slice_flatten index hfield hoff (length_leList 2 _), leNat_leList,
    Nat.mod_eq_of_lt (by simpa using hvalue)]
  rfl

theorem readU64le_flatten {value : UInt64} (hfield : fields[index]? = some (leList 8 value.toNat))
    (hoff : (fields.take index).flatten.length = off) :
    readU64le fields.flatten off = .ok value.toNat := by
  have hvalue := value.toNat_lt
  have hfits : off + 8 ≤ fields.flatten.length := by
    rw [flatten_split hfield, List.length_append, List.length_append, length_leList, hoff]
    omega
  rw [readU64le, require_of_true hfits, bind_ok,
    slice_flatten index hfield hoff (length_leList 8 _), leNat_leList,
    Nat.mod_eq_of_lt (by simpa using hvalue)]
  rfl

theorem readI64le_flatten {value : Int64}
    (hfield : fields[index]? = some (leList 8 value.toUInt64.toNat))
    (hoff : (fields.take index).flatten.length = off) :
    readI64le fields.flatten off = .ok value.toInt := by
  have hword := value.toUInt64.toNat_lt
  have hbits : value.toInt = (value.toBitVec.toNat : ℤ).bmod (2 ^ 64) := by
    rw [← Int64.toInt_toBitVec, BitVec.toInt_eq_toNat_bmod]
  have hfits : off + 8 ≤ fields.flatten.length := by
    rw [flatten_split hfield, List.length_append, List.length_append, length_leList, hoff]
    omega
  rw [readI64le, require_of_true hfits, bind_ok,
    slice_flatten index hfield hoff (length_leList 8 _), leNat_leList,
    Nat.mod_eq_of_lt (by simpa using hword), hbits]
  rfl

end Records

theorem ed25519Verify_octets (verifier : Verifier) (publicKey : PublicKey) (message : List UInt8)
    (signature : Signature) :
    ed25519Verify verifier publicKey.octets message signature.octets =
      verifier.valid publicKey message signature :=
  dif_pos ⟨publicKey.length_octets, signature.length_octets⟩

/-! ### The writers on the engine's values -/

theorem foldlM_sinkWrite (written : List UInt8) (fields : List (List UInt8))
    (hfits : (written ++ fields.flatten).length ≤ maxPreimageLength) :
    fields.foldlM sinkWrite written = .ok (written ++ fields.flatten) := by
  induction fields generalizing written with
  | nil => simp
  | cons field fields ih =>
    have hfield : ¬ maxPreimageLength < written.length + field.length := by
      simp only [List.flatten_cons, List.length_append] at hfits
      omega
    rw [List.foldlM_cons, sinkWrite, orFail_of_true hfield, bind_ok, pure_eq_ok, bind_ok, ih]
    · simp
    · simpa using hfits

theorem buildPreimage_eq {tag : List UInt8} {fields : List (List UInt8)}
    (hfits : (tag :: fields).flatten.length ≤ maxPreimageLength) :
    buildPreimage tag fields = .ok (tag :: fields).flatten :=
  foldlM_sinkWrite [] (tag :: fields) hfits

theorem leafPreimage_eq (preimage : LeafPreimage) :
    leafPreimage preimage.assetCommitment.octets
        { seq := preimage.seq.toNat
          payloadDigest := preimage.payloadDigest.octets
          assessmentDigest := preimage.assessmentDigest.octets
          qpKey := preimage.qpKey.octets
          category := preimage.category.toNat
          effectiveAt := preimage.effectiveAt.toInt
          changeIdentifiedAt := preimage.changeIdentifiedAt.toInt } =
      .ok preimage.fields.flatten := by
  have hcategory := preimage.category.toNat_lt
  rw [leafPreimage, orFail_of_true (by dsimp only; omega), bind_ok, fixed_eq, bind_ok, u64le_eq,
    bind_ok, fixed_eq, bind_ok, fixed_eq, bind_ok, fixed_eq, bind_ok, i64le_eq, bind_ok, i64le_eq,
    bind_ok, Int.toNat_natCast, UInt8.ofNat_toNat]
  exact buildPreimage_eq (by simp [maxPreimageLength])

theorem genesisHeadPreimage_eq (assetCommitment : Digest) (version : UInt16) :
    genesisHeadPreimage assetCommitment.octets version.toNat =
      .ok (GenesisHeadPreimage.mk assetCommitment version).fields.flatten := by
  rw [genesisHeadPreimage, fixed_eq, bind_ok, u16le_eq version.toNat_lt, bind_ok]
  exact buildPreimage_eq (by simp [maxPreimageLength])

theorem stepHeadPreimage_eq (prevHead leaf : Digest) :
    stepHeadPreimage prevHead.octets leaf.octets =
      .ok (StepHeadPreimage.mk prevHead leaf).fields.flatten := by
  rw [stepHeadPreimage, fixed_eq, bind_ok, fixed_eq, bind_ok]
  exact buildPreimage_eq (by simp [maxPreimageLength])

theorem realLeafPreimage_eq (leaf : Digest) :
    realLeafPreimage leaf.octets = .ok (RealLeafPreimage.mk leaf).fields.flatten := by
  rw [realLeafPreimage, fixed_eq, bind_ok]
  exact buildPreimage_eq (by simp [maxPreimageLength])

theorem paddingLeafPreimage_eq (prfOutput : Digest) :
    paddingLeafPreimage prfOutput.octets = .ok (PaddingPreimage.mk prfOutput).fields.flatten := by
  rw [paddingLeafPreimage, fixed_eq, bind_ok]
  exact buildPreimage_eq (by simp [maxPreimageLength])

theorem nodePreimage_eq (left right : Digest) :
    nodePreimage left.octets right.octets = .ok (NodePreimage.mk left right).fields.flatten := by
  rw [nodePreimage, fixed_eq, bind_ok, fixed_eq, bind_ok]
  exact buildPreimage_eq (by simp [maxPreimageLength])

theorem prfPreimage_eq (key : Digest) {input : List UInt8} (hlength : input.length ≤ 17) :
    prfPreimage key.octets input = .ok (PrfPreimage.mk key input).fields.flatten := by
  rw [prfPreimage, fixed_eq, bind_ok, u16le_eq (by omega), bind_ok]
  exact buildPreimage_eq (by simp [maxPreimageLength]; omega)

end AnchoredLog.Port.Primitives
