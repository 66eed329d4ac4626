import AnchoredLog.Client.Handoffs
import AnchoredLog.Library.Layouts

/-!
# The codec of a hand-off, octet by octet

The writer moves a cursor over a buffer of zeros and passes over a field that does not fit; the
reader takes each field at a literal position, of octets of one length. `decode_eq_ok_iff` says that
it accepts what the writer writes and nothing else.
-/

set_option autoImplicit false
set_option relaxedAutoImplicit false

namespace AnchoredLog.Client.HandoffCodec

open Library.ByteCodec Library.Fallible Library.Layouts Core.Preimages Worker
open Handoffs

/-! ### The functions of the source -/

/-- Writes the artifact. The order is the struct's. -/
def encode (handoff : Handoff) : Octets handoffLen :=
  let cursor := (Cursor.start handoffLen).put (leList 8 handoff.epoch.toNat)
  let cursor := cursor.put [handoff.height]
  let cursor := cursor.put handoff.root.octets
  let cursor := cursor.put handoff.batcherKey.octets
  let cursor := cursor.put handoff.signature.octets
  cursor.out

/-- The octets between two positions, when there are that many. -/
def field (bytes : List UInt8) (start stop : ℕ) : Option (List UInt8) :=
  if start ≤ stop ∧ stop ≤ bytes.length then some ((bytes.drop start).take (stop - start)) else none

/-- Octets as an array of a width, when they have it. -/
def array (width : ℕ) (octets : List UInt8) : Option (Octets width) :=
  if hwidth : octets.length = width then some ⟨octets, hwidth⟩ else none

/-- Reads the artifact. The length is checked first and exactly. -/
def decode (bytes : List UInt8) : Except HandoffRefused Handoff := do
  require (bytes.length = handoffLen) (.wrongLength bytes.length)
  let epoch ← okOr ((field bytes 0 8).bind (array 8)) (.wrongLength bytes.length)
  let height ← okOr bytes[8]? (.wrongLength bytes.length)
  let root ← okOr ((field bytes 9 41).bind (array 32)) (.wrongLength bytes.length)
  let batcherKey ← okOr ((field bytes 41 73).bind (array 32)) (.wrongLength bytes.length)
  let signature ← okOr ((field bytes 73 137).bind (array 64)) (.wrongLength bytes.length)
  pure ⟨UInt64.ofNat (leNat epoch.octets), height, root, batcherKey, signature⟩

/-! ### The layout -/

/-- The fields of a hand-off, each as its octets. -/
def fields (handoff : Handoff) : List (List UInt8) :=
  [leList 8 handoff.epoch.toNat, [handoff.height], handoff.root.octets, handoff.batcherKey.octets,
    handoff.signature.octets]

theorem length_flatten_fields (handoff : Handoff) :
    (fields handoff).flatten.length = handoffLen := by
  simp [fields, handoffLen]

/-- Every field fits, so none is passed over. -/
theorem octets_encode (handoff : Handoff) : (encode handoff).octets = (fields handoff).flatten :=
  octets_foldl_put_start (length_flatten_fields handoff)

theorem array_field {record : List (List UInt8)} (index : ℕ) {start width : ℕ}
    {string : Octets width} (hfield : record[index]? = some string.octets)
    (hstart : (record.take index).flatten.length = start) :
    (field record.flatten start (start + width)).bind (array width) = some string := by
  have hwidth := string.length_octets
  have hfits : start + width ≤ record.flatten.length := by
    rw [flatten_split hfield, List.length_append, List.length_append, hwidth, hstart]
    omega
  rw [field, if_pos ⟨Nat.le_add_right _ _, hfits⟩, Nat.add_sub_cancel_left,
    slice_flatten index hfield hstart hwidth, Option.bind_some, array, dif_pos hwidth]

/-- Reading what was written gives the hand-off back. -/
theorem decode_encode (handoff : Handoff) : decode (encode handoff).octets = .ok handoff := by
  have hepoch : (field (fields handoff).flatten 0 8).bind (array 8) =
      some (leOctets 8 handoff.epoch.toNat) :=
    @array_field (fields handoff) 0 0 8 (leOctets 8 handoff.epoch.toNat) rfl rfl
  have hheight : (fields handoff).flatten[8]? = some handoff.height :=
    getElem?_flatten 1 rfl (by simp [fields])
  have hroot : (field (fields handoff).flatten 9 41).bind (array 32) = some handoff.root :=
    array_field 2 rfl (by simp [fields])
  have hkey : (field (fields handoff).flatten 41 73).bind (array 32) = some handoff.batcherKey :=
    array_field 3 rfl (by simp [fields])
  have hsignature : (field (fields handoff).flatten 73 137).bind (array 64) =
      some handoff.signature :=
    array_field 4 rfl (by simp [fields])
  rw [octets_encode, decode, require_of_true (length_flatten_fields handoff), bind_ok, hepoch,
    okOr_some, bind_ok, hheight, okOr_some, bind_ok, hroot, okOr_some, bind_ok, hkey, okOr_some,
    bind_ok, hsignature, okOr_some, bind_ok, leNat_leOctets handoff.epoch.toNat_lt,
    UInt64.ofNat_toNat]
  rfl

/-- Octets of the length of a hand-off are what some hand-off is written as. -/
theorem exists_handoff {bytes : List UInt8} (hlength : bytes.length = handoffLen) :
    ∃ handoff, bytes = (encode handoff).octets := by
  obtain ⟨epoch, afterEpoch, rfl, hepoch⟩ := exists_octets_append 8 129 hlength
  obtain ⟨height, afterHeight, rfl, hheight⟩ := exists_octet_cons hepoch
  obtain ⟨root, afterRoot, rfl, hroot⟩ := exists_octets_append 32 96 hheight
  obtain ⟨key, afterKey, rfl, hkey⟩ := exists_octets_append 32 64 hroot
  obtain ⟨signature, rest, rfl, hlast⟩ := exists_octets_append 64 0 hkey
  obtain rfl := List.eq_nil_of_length_eq_zero hlast
  obtain ⟨value, hvalue⟩ := exists_u64 epoch
  refine ⟨⟨value, height, root, key, signature⟩, ?_⟩
  rw [octets_encode, hvalue]
  simp [fields]

/-- The reader accepts the octets of one length. -/
theorem decode_eq_ok_iff {bytes : List UInt8} {handoff : Handoff} :
    decode bytes = .ok handoff ↔ bytes = (encode handoff).octets := by
  constructor
  · intro hdecode
    have hlength := hdecode
    rw [decode, bind_unit_eq_ok_iff, require_eq_ok_iff] at hlength
    obtain ⟨found, rfl⟩ := exists_handoff hlength.1
    rw [decode_encode, Except.ok.injEq] at hdecode
    rw [hdecode]
  · rintro rfl
    exact decode_encode handoff

end AnchoredLog.Client.HandoffCodec
