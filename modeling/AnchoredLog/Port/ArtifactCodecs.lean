import AnchoredLog.Client.HandoffCodec
import AnchoredLog.Log.PromiseBytes
import AnchoredLog.Port.DisclosureAcceptance
import AnchoredLog.Port.Promise

/-!
# The octets the artifacts travel as

A signature or a stamp over octets means one artifact when the octets determine it. The leaf
preimage is written by the engine and by the port and read by the port; a promise is written by both
and read by the port; a hand-off is written and read by the client. Each reader inverts each writer,
and what a reader accepts is what a writer writes.
-/

set_option autoImplicit false
set_option relaxedAutoImplicit false

namespace AnchoredLog.Port.ArtifactCodecs

open AnchoredLog.Core
open Core.Preimages Library.ByteCodec Library.Fallible Library.Layouts Log.PromiseBytes
open Primitives Disclosure DisclosureAcceptance Promise Client.HandoffCodec

/-! ### The leaf preimage -/

/-- The fields of a leaf preimage, as the port's writer takes them. -/
def leafFieldsOf (reading : LeafFromBytes) : LeafFields where
  seq := reading.seq
  payloadDigest := reading.payloadDigest
  assessmentDigest := reading.assessmentDigest
  qpKey := reading.qpKey
  category := reading.category
  effectiveAt := reading.effectiveAt
  changeIdentifiedAt := reading.changeIdentifiedAt

/-- The two writers of a leaf preimage write the same octets. -/
theorem writers_agree (preimage : LeafPreimage) :
    (∃ buffer, Preimage.writePreimage preimage PreimageBuf.new = .ok buffer ∧
      buffer.octets = preimage.fields.flatten) ∧
    leafPreimage (readingOf preimage).assetCommitment (leafFieldsOf (readingOf preimage)) =
      .ok preimage.fields.flatten ∧
    preimage.fields.flatten.length = 161 :=
  ⟨writePreimage_leaf preimage, leafPreimage_eq preimage, by simp [LeafPreimage.fields]⟩

/-- What the positions of a leaf preimage hold. -/
theorem positions_of_leafPreimage (preimage : LeafPreimage) :
    preimage.fields.flatten.take 8 = tagLeaf.octets ∧
    leNat ((preimage.fields.flatten.drop 40).take 8) = preimage.seq.toNat ∧
    preimage.fields.flatten[144]? = some preimage.category := by
  have hseq : (preimage.fields.flatten.drop 40).take 8 = leList 8 preimage.seq.toNat :=
    slice_flatten 2 rfl (by simp [LeafPreimage.fields]) (by simp)
  refine ⟨List.take_left' tagLeaf.length_octets, ?_, ?_⟩
  · rw [hseq, leNat_leList, Nat.mod_eq_of_lt (by simpa using preimage.seq.toNat_lt)]
  · exact getElem?_flatten 6 rfl (by simp [LeafPreimage.fields])

/-- The reader accepts 161 octets under the leaf tag with a sequence number that is not zero and a
category of at most four. -/
theorem readLeafPreimage_accepts_iff {bytes : List UInt8} :
    (∃ reading, readLeafPreimage bytes = .ok reading) ↔
      bytes.length = 161 ∧ bytes.take 8 = tagLeaf.octets ∧
        leNat ((bytes.drop 40).take 8) ≠ 0 ∧
        ∃ category, bytes[144]? = some category ∧ category.toNat ≤ 4 := by
  constructor
  · rintro ⟨reading, hread⟩
    obtain ⟨preimage, rfl, hseq, hcategory, -⟩ := readLeafPreimage_eq_ok_iff.mp hread
    obtain ⟨htag, hvalue, hoctet⟩ := positions_of_leafPreimage preimage
    exact ⟨(writers_agree preimage).2.2, htag, by omega, _, hoctet, hcategory⟩
  · rintro ⟨hlength, htag, hseq, category, hcategory, hrange⟩
    obtain ⟨preimage, rfl⟩ := exists_leafPreimage hlength htag
    obtain ⟨-, hvalue, hoctet⟩ := positions_of_leafPreimage preimage
    rw [hoctet, Option.some.injEq] at hcategory
    subst hcategory
    exact ⟨_, readLeafPreimage_eq_ok_iff.mpr ⟨preimage, rfl, by omega, hrange, rfl⟩⟩

/-- For every asset commitment and leaf fields in range, the engine and the port write the same 161
octets and the reader returns exactly those fields. For every octet string, the reader accepts it
when and only when it has 161 octets, the leaf tag, a sequence number that is not zero and a
category of at most four, and both writers then write it again from what was read. -/
theorem leaf_reader_inverts_writers :
    (∀ preimage : LeafPreimage, 1 ≤ preimage.seq.toNat → preimage.category.toNat ≤ 4 →
      ∃ bytes buffer, bytes.length = 161 ∧
        Preimage.writePreimage preimage PreimageBuf.new = .ok buffer ∧ buffer.octets = bytes ∧
        leafPreimage (readingOf preimage).assetCommitment (leafFieldsOf (readingOf preimage)) =
          .ok bytes ∧
        readLeafPreimage bytes = .ok (readingOf preimage)) ∧
    ∀ bytes, ((∃ reading, readLeafPreimage bytes = .ok reading) ↔
        bytes.length = 161 ∧ bytes.take 8 = tagLeaf.octets ∧
          leNat ((bytes.drop 40).take 8) ≠ 0 ∧
          ∃ category, bytes[144]? = some category ∧ category.toNat ≤ 4) ∧
      ∀ reading, readLeafPreimage bytes = .ok reading →
        leafPreimage reading.assetCommitment (leafFieldsOf reading) = .ok bytes ∧
        ∃ preimage buffer, readingOf preimage = reading ∧
          Preimage.writePreimage preimage PreimageBuf.new = .ok buffer ∧
          buffer.octets = bytes := by
  constructor
  · intro preimage hseq hcategory
    obtain ⟨⟨buffer, hbuffer, hoctets⟩, hport, hlength⟩ := writers_agree preimage
    exact ⟨_, buffer, hlength, hbuffer, hoctets, hport,
      readLeafPreimage_eq_ok_iff.mpr ⟨preimage, rfl, hseq, hcategory, rfl⟩⟩
  · intro bytes
    refine ⟨readLeafPreimage_accepts_iff, fun reading hread ↦ ?_⟩
    obtain ⟨preimage, rfl, -, -, rfl⟩ := readLeafPreimage_eq_ok_iff.mp hread
    obtain ⟨⟨buffer, hbuffer, hoctets⟩, hport, -⟩ := writers_agree preimage
    exact ⟨hport, preimage, buffer, rfl, hbuffer, hoctets⟩

/-! ### The promise -/

/-- A number as an element of an array of bytes. -/
def toUint8 (value : ℤ) : UInt8 :=
  UInt8.ofNat (value % 256).toNat

/-- The promise as bytes, in the declared order of its fields. -/
def encodePromise (p : Promise.SignedPromise) : Thrown (List UInt8) := do
  let accepted ← u64le p.acceptedEpoch
  let promised ← u64le p.promisedEpoch
  return concat [p.leaf, p.submissionId, accepted, promised, [toUint8 p.maxMergeDelay],
    p.batcherKey, p.signature]

/-- Reads a promise, of exactly its length. -/
def decodePromise (b : List UInt8) : Thrown Promise.SignedPromise := do
  orFail (b.length = promiseEncodedLen) .MalformedPayload
    ("a promise is " ++ toString promiseEncodedLen ++ " bytes, got " ++ toString b.length)
  let acceptedEpoch ← readU64le b 48
  let promisedEpoch ← readU64le b 56
  return {
    leaf := b.take 32
    submissionId := (b.drop 32).take 16
    acceptedEpoch := acceptedEpoch
    promisedEpoch := promisedEpoch
    maxMergeDelay := (b[64]?.getD 0).toNat
    batcherKey := (b.drop 65).take 32
    signature := (b.drop 97).take 64 }

/-- The port writes a promise as the engine does. -/
theorem encodePromise_eq (promise : Log.Batcher.SignedPromise) :
    encodePromise (promiseOf promise) = .ok (Log.PromiseBytes.encode promise).octets := by
  have hdelay := promise.maxMergeDelay.toNat_lt
  have hoctet : toUint8 promise.maxMergeDelay.toNat = promise.maxMergeDelay := by
    have hsmall :
        ((promise.maxMergeDelay.toNat : ℤ) % 256).toNat = promise.maxMergeDelay.toNat := by
      omega
    rw [toUint8, hsmall, UInt8.ofNat_toNat]
  rw [encodePromise, promiseOf, u64le_eq, bind_ok, u64le_eq, bind_ok, hoctet]
  rfl

/-- The port reads back what both write. -/
theorem decodePromise_encode (promise : Log.Batcher.SignedPromise) :
    decodePromise (Log.PromiseBytes.encode promise).octets = .ok (promiseOf promise) := by
  let record := Log.PromiseBytes.fields promise
  have hrecord : (Log.PromiseBytes.encode promise).octets = record.flatten := rfl
  have hlength : record.flatten.length = promiseEncodedLen :=
    (Log.PromiseBytes.encode promise).length_octets
  have hleaf : record.flatten.take 32 = promise.leaf.octets :=
    List.take_left' promise.leaf.length_octets
  have hid : (record.flatten.drop 32).take 16 = promise.submissionId.octets :=
    slice_flatten 1 rfl (by simp [record, Log.PromiseBytes.fields]) (by simp)
  have haccepted : readU64le record.flatten 48 = .ok promise.acceptedEpoch.toNat :=
    readU64le_flatten 2 rfl (by simp [record, Log.PromiseBytes.fields])
  have hpromised : readU64le record.flatten 56 = .ok promise.promisedEpoch.toNat :=
    readU64le_flatten 3 rfl (by simp [record, Log.PromiseBytes.fields])
  have hdelay : record.flatten[64]? = some promise.maxMergeDelay :=
    getElem?_flatten 4 rfl (by simp [record, Log.PromiseBytes.fields])
  have hkey : (record.flatten.drop 65).take 32 = promise.batcherKey.octets :=
    slice_flatten 5 rfl (by simp [record, Log.PromiseBytes.fields]) (by simp)
  have hsignature : (record.flatten.drop 97).take 64 = promise.signature.octets :=
    slice_flatten 6 rfl (by simp [record, Log.PromiseBytes.fields]) (by simp)
  rw [hrecord, decodePromise, orFail_of_true hlength, bind_ok, haccepted, bind_ok, hpromised,
    bind_ok, hleaf, hid, hdelay, Option.getD_some, hkey, hsignature]
  rfl

/-- The port reads the strings of 161 bytes, each as a promise of the engine. -/
theorem decodePromise_eq_ok_iff {bytes : List UInt8} {decoded : Promise.SignedPromise} :
    decodePromise bytes = .ok decoded ↔ ∃ promise,
      bytes = (Log.PromiseBytes.encode promise).octets ∧ decoded = promiseOf promise := by
  constructor
  · intro hdecode
    have hlength := hdecode
    rw [decodePromise, bind_unit_eq_ok_iff, orFail_eq_ok_iff] at hlength
    obtain ⟨promise, rfl⟩ := exists_promise hlength.1
    rw [decodePromise_encode, Except.ok.injEq] at hdecode
    exact ⟨promise, rfl, hdecode.symm⟩
  · rintro ⟨promise, rfl, rfl⟩
    exact decodePromise_encode promise

/-! ### Bijections -/

/-- For every hand-off the reader gives it back from what was written, and the reader accepts the
strings of 137 octets and no others, each written again from what was read. For every promise the
engine and the port write the same 161 octets and the port reads it back, and the port accepts the
strings of 161 octets and no others, each written again from what was read. -/
theorem artifact_codecs_bijective :
    (∀ handoff, decode (Client.HandoffCodec.encode handoff).octets = .ok handoff) ∧
    (∀ bytes, ((∃ handoff, decode bytes = .ok handoff) ↔ bytes.length = 137) ∧
      ∀ handoff, decode bytes = .ok handoff →
        (Client.HandoffCodec.encode handoff).octets = bytes) ∧
    (∀ promise, (Log.PromiseBytes.encode promise).octets.length = 161 ∧
      encodePromise (promiseOf promise) = .ok (Log.PromiseBytes.encode promise).octets ∧
      decodePromise (Log.PromiseBytes.encode promise).octets = .ok (promiseOf promise)) ∧
    ∀ bytes, ((∃ decoded, decodePromise bytes = .ok decoded) ↔ bytes.length = 161) ∧
      ∀ decoded, decodePromise bytes = .ok decoded → encodePromise decoded = .ok bytes := by
  refine ⟨decode_encode, fun bytes ↦ ⟨⟨?_, fun hlength ↦ ?_⟩, ?_⟩,
    fun promise ↦ ⟨Octets.length_octets _, encodePromise_eq promise, decodePromise_encode promise⟩,
    fun bytes ↦ ⟨⟨?_, fun hlength ↦ ?_⟩, ?_⟩⟩
  · rintro ⟨handoff, hdecode⟩
    rw [decode_eq_ok_iff.mp hdecode, Octets.length_octets]
    rfl
  · obtain ⟨handoff, hbytes⟩ := exists_handoff hlength
    exact ⟨handoff, decode_eq_ok_iff.mpr hbytes⟩
  · exact fun handoff hdecode ↦ (decode_eq_ok_iff.mp hdecode).symm
  · rintro ⟨decoded, hdecode⟩
    obtain ⟨promise, rfl, -⟩ := decodePromise_eq_ok_iff.mp hdecode
    exact Octets.length_octets _
  · obtain ⟨promise, hbytes⟩ := exists_promise hlength
    exact ⟨_, decodePromise_eq_ok_iff.mpr ⟨promise, hbytes, rfl⟩⟩
  · intro decoded hdecode
    obtain ⟨promise, rfl, rfl⟩ := decodePromise_eq_ok_iff.mp hdecode
    exact encodePromise_eq promise

end AnchoredLog.Port.ArtifactCodecs
