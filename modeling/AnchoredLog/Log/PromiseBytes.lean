import AnchoredLog.Library.Layouts
import AnchoredLog.Log.Batcher

/-!
# The octets of a promise

A promise travels as 161 octets: the fields §1.6 signs in their order, then the key and the
signature. The octets determine every field.
-/

set_option autoImplicit false
set_option relaxedAutoImplicit false

namespace AnchoredLog.Log.PromiseBytes

open Core.Preimages Library.ByteCodec Library.Layouts Batcher

/-- The number of octets a promise encodes to. -/
def promiseEncodedLen : ℕ :=
  161

/-- The fields of a promise, each as its octets. -/
def fields (promise : SignedPromise) : List (List UInt8) :=
  [promise.leaf.octets, promise.submissionId.octets, leList 8 promise.acceptedEpoch.toNat,
    leList 8 promise.promisedEpoch.toNat, [promise.maxMergeDelay], promise.batcherKey.octets,
    promise.signature.octets]

/-- The promise as octets. -/
def encode (promise : SignedPromise) : Octets promiseEncodedLen :=
  ⟨(fields promise).flatten, by simp [fields, promiseEncodedLen]⟩

/-- Two promises with the same octets are the same in every field. -/
theorem encode_injective : Function.Injective encode := by
  intro left right hencode
  have hoctets : (fields left).flatten = (fields right).flatten :=
    congrArg Octets.octets hencode
  have hfields := flatten_injective (by simp [fields]) hoctets
  simp only [fields, List.cons.injEq, and_true] at hfields
  obtain ⟨hleaf, hid, haccepted, hpromised, hdelay, hkey, hsignature⟩ := hfields
  rcases left with ⟨⟩
  rcases right with ⟨⟩
  obtain rfl := Octets.octets_injective hleaf
  obtain rfl := Octets.octets_injective hid
  obtain rfl := leList_toNat_injective haccepted
  obtain rfl := leList_toNat_injective hpromised
  obtain rfl := hdelay
  obtain rfl := Octets.octets_injective hkey
  obtain rfl := Octets.octets_injective hsignature
  rfl

/-- Every string of 161 octets is the encoding of a promise. -/
theorem exists_promise {octets : List UInt8} (hlength : octets.length = promiseEncodedLen) :
    ∃ promise, octets = (encode promise).octets := by
  obtain ⟨leaf, afterLeaf, rfl, hleaf⟩ := exists_octets_append 32 129 hlength
  obtain ⟨id, afterId, rfl, hid⟩ := exists_octets_append 16 113 hleaf
  obtain ⟨accepted, afterAccepted, rfl, hepochs⟩ := exists_octets_append 8 105 hid
  obtain ⟨promised, afterPromised, rfl, hrest⟩ := exists_octets_append 8 97 hepochs
  obtain ⟨delay, afterDelay, rfl, hkeys⟩ := exists_octet_cons hrest
  obtain ⟨key, afterKey, rfl, hkey⟩ := exists_octets_append 32 64 hkeys
  obtain ⟨signature, rest, rfl, hlast⟩ := exists_octets_append 64 0 hkey
  obtain rfl := List.eq_nil_of_length_eq_zero hlast
  obtain ⟨acceptedEpoch, haccepted⟩ := exists_u64 accepted
  obtain ⟨promisedEpoch, hpromised⟩ := exists_u64 promised
  refine ⟨⟨leaf, id, acceptedEpoch, promisedEpoch, delay, key, signature⟩, ?_⟩
  rw [haccepted, hpromised]
  simp [encode, fields]

end AnchoredLog.Log.PromiseBytes
