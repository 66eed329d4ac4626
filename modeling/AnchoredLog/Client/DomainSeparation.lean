import AnchoredLog.Client.Receipts

/-!
# No two preimages coincide

Every digest and every signature of the system is over one of eleven encodings: ten preimages of
the engine and the one of a receipt. Here they are one type, `Encoding`, and its octets determine
it: the first eight octets are the tag of the writer, the two writers that share a tag write
different lengths, and within a writer the fields are recovered from their widths or, for the
last field of three of them, from the length written before it.

`write_of_accepted` and `write_of_refusal` say once what a writer does with an empty buffer: it
refuses what `refusal` lists, and otherwise it writes its fields.
-/

set_option autoImplicit false
set_option relaxedAutoImplicit false

namespace AnchoredLog.Client.DomainSeparation

open Library.ByteCodec Library.Fallible Core.Preimages Receipts

/-! ### The writers -/

/-- The preimage writers of the engine. -/
inductive CoreWriter
  | asset
  | genesisHead
  | leaf
  | stepHead
  | realLeaf
  | padding
  | node
  | spi
  | handoff
  | prf
deriving DecidableEq

namespace CoreWriter

/-- What a writer encodes. -/
abbrev Input : CoreWriter → Type
  | asset => AssetPreimage
  | genesisHead => GenesisHeadPreimage
  | leaf => LeafPreimage
  | stepHead => StepHeadPreimage
  | realLeaf => RealLeafPreimage
  | padding => PaddingPreimage
  | node => NodePreimage
  | spi => SpiPreimage
  | handoff => HandoffPreimage
  | prf => PrfPreimage

/-- Writes a preimage into an empty buffer. -/
def write : (writer : CoreWriter) → writer.Input → Result PreimageBuf
  | asset, preimage => Preimage.writePreimage (preimage : AssetPreimage) .new
  | genesisHead, preimage => Preimage.writePreimage (preimage : GenesisHeadPreimage) .new
  | leaf, preimage => Preimage.writePreimage (preimage : LeafPreimage) .new
  | stepHead, preimage => Preimage.writePreimage (preimage : StepHeadPreimage) .new
  | realLeaf, preimage => Preimage.writePreimage (preimage : RealLeafPreimage) .new
  | padding, preimage => Preimage.writePreimage (preimage : PaddingPreimage) .new
  | node, preimage => Preimage.writePreimage (preimage : NodePreimage) .new
  | spi, preimage => Preimage.writePreimage (preimage : SpiPreimage) .new
  | handoff, preimage => Preimage.writePreimage (preimage : HandoffPreimage) .new
  | prf, preimage => Preimage.writePreimage (preimage : PrfPreimage) .new

/-- The fields a writer writes. -/
def fields : (writer : CoreWriter) → writer.Input → List (List UInt8)
  | asset => AssetPreimage.fields
  | genesisHead => GenesisHeadPreimage.fields
  | leaf => LeafPreimage.fields
  | stepHead => StepHeadPreimage.fields
  | realLeaf => RealLeafPreimage.fields
  | padding => PaddingPreimage.fields
  | node => NodePreimage.fields
  | spi => SpiPreimage.fields
  | handoff => HandoffPreimage.fields
  | prf => PrfPreimage.fields

/-- The tag a writer writes first. -/
def tag : CoreWriter → Octets 8
  | asset => tagAsset
  | genesisHead => tagHead
  | leaf => tagLeaf
  | stepHead => tagHead
  | realLeaf => tagMtl0
  | padding => tagPad
  | node => tagMtn1
  | spi => tagSpi
  | handoff => tagHoff
  | prf => tagPrf

/-- The error a writer refuses a value with: a tenure that is not canonical, and an input of the
pseudorandom function that is empty or too long. -/
def refusal : (writer : CoreWriter) → writer.Input → Option RegistryError
  | asset, preimage =>
    if isCanonical (preimage : AssetPreimage).tenure then none else some .canonicalizationFailed
  | prf, preimage =>
    if (preimage : PrfPreimage).input = [] then some .malformedPayload
    else if maxPrfInputLen < (preimage : PrfPreimage).input.length then some .recordTooLarge
    else none
  | _, _ => none

end CoreWriter

theorem length_le_of_isCanonical {tenure : List UInt8} (hcanonical : isCanonical tenure = true) :
    tenure.length ≤ 64 := by
  simp only [isCanonical, Bool.and_eq_true, decide_eq_true_eq] at hcanonical
  exact hcanonical.1.2

/-- A writer that stages fields that fit writes them. -/
theorem exists_staged {fields : List (List UInt8)}
    (hfits : fields.flatten.length ≤ maxPreimageLen) :
    ∃ buffer, staged PreimageBuf.new fields = .ok buffer ∧ buffer.octets = fields.flatten :=
  ⟨_, staged_new_of_le hfits, rfl⟩

theorem write_asset {preimage : AssetPreimage} (hcanonical : isCanonical preimage.tenure = true) :
    CoreWriter.asset.write preimage = staged .new preimage.fields := by
  have hshort := length_le_of_isCanonical hcanonical
  simp only [CoreWriter.write, Preimage.writePreimage]
  rw [require_of_true hcanonical, bind_ok, require_of_true (by omega), bind_ok]

theorem write_prf {preimage : PrfPreimage} (hnonempty : preimage.input ≠ [])
    (hlength : preimage.input.length ≤ maxPrfInputLen) :
    CoreWriter.prf.write preimage = staged .new preimage.fields := by
  have hshort : preimage.input.length ≤ 17 := hlength
  simp only [CoreWriter.write, Preimage.writePreimage]
  rw [require_of_true hnonempty, bind_ok, require_of_true hlength, bind_ok,
    require_of_true (by omega), bind_ok]

theorem accepted_prf {preimage : PrfPreimage} (haccepted : CoreWriter.prf.refusal preimage = none) :
    preimage.input ≠ [] ∧ preimage.input.length ≤ maxPrfInputLen := by
  simp only [CoreWriter.refusal] at haccepted
  split_ifs at haccepted with hempty hlong
  exact ⟨hempty, not_lt.mp hlong⟩

theorem accepted_asset {preimage : AssetPreimage}
    (haccepted : CoreWriter.asset.refusal preimage = none) :
    isCanonical preimage.tenure = true := by
  simp only [CoreWriter.refusal] at haccepted
  split_ifs at haccepted with hcanonical
  exact hcanonical

/-- A writer writes the fields of what it does not refuse: they fit the buffer. -/
theorem write_of_accepted (writer : CoreWriter) (value : writer.Input)
    (haccepted : writer.refusal value = none) :
    ∃ buffer, writer.write value = .ok buffer ∧
      buffer.octets = (writer.fields value).flatten := by
  cases writer with
  | asset =>
    have hcanonical := accepted_asset haccepted
    have hshort := length_le_of_isCanonical hcanonical
    rw [write_asset hcanonical]
    apply exists_staged
    simp only [AssetPreimage.fields, maxPreimageLen, List.flatten_cons, List.length_append,
      Octets.length_octets, length_leList, List.flatten_nil, List.length_nil]
    omega
  | genesisHead => exact exists_staged (by simp [GenesisHeadPreimage.fields, maxPreimageLen])
  | leaf => exact exists_staged (by simp [LeafPreimage.fields, maxPreimageLen])
  | stepHead => exact exists_staged (by simp [StepHeadPreimage.fields, maxPreimageLen])
  | realLeaf => exact exists_staged (by simp [RealLeafPreimage.fields, maxPreimageLen])
  | padding => exact exists_staged (by simp [PaddingPreimage.fields, maxPreimageLen])
  | node => exact exists_staged (by simp [NodePreimage.fields, maxPreimageLen])
  | spi => exact exists_staged (by simp [SpiPreimage.fields, maxPreimageLen])
  | handoff => exact exists_staged (by simp [HandoffPreimage.fields, maxPreimageLen])
  | prf =>
    obtain ⟨hnonempty, hlength⟩ := accepted_prf haccepted
    have hshort : (value : PrfPreimage).input.length ≤ 17 := hlength
    rw [write_prf hnonempty hlength]
    apply exists_staged
    simp only [PrfPreimage.fields, maxPreimageLen, List.flatten_cons, List.length_append,
      Octets.length_octets, length_leList, List.flatten_nil, List.length_nil]
    omega

theorem write_of_refusal (writer : CoreWriter) (value : writer.Input) {error : RegistryError}
    (hrefusal : writer.refusal value = some error) : writer.write value = .error error := by
  cases writer with
  | asset =>
    simp only [CoreWriter.refusal] at hrefusal
    split_ifs at hrefusal with hcanonical
    rw [Option.some.injEq] at hrefusal
    simp only [CoreWriter.write, Preimage.writePreimage]
    rw [require_of_false hcanonical, bind_error, hrefusal]
  | prf =>
    simp only [CoreWriter.refusal] at hrefusal
    simp only [CoreWriter.write, Preimage.writePreimage]
    split_ifs at hrefusal with hempty hlong
    · rw [Option.some.injEq] at hrefusal
      rw [require_of_false (not_not.mpr hempty), bind_error, hrefusal]
    · rw [Option.some.injEq] at hrefusal
      rw [require_of_true hempty, bind_ok, require_of_false (not_le.mpr hlong), bind_error,
        hrefusal]
  | _ => cases hrefusal

/-- A writer refuses exactly what is listed, with the error listed. -/
theorem write_eq_error_iff (writer : CoreWriter) (value : writer.Input) (error : RegistryError) :
    writer.write value = .error error ↔ writer.refusal value = some error := by
  constructor
  · intro hwrite
    cases hrefusal : writer.refusal value with
    | none =>
      obtain ⟨buffer, hbuffer, -⟩ := write_of_accepted writer value hrefusal
      rw [hwrite] at hbuffer
      cases hbuffer
    | some found =>
      rw [write_of_refusal writer value hrefusal, Except.error.injEq] at hwrite
      rw [hwrite]
  · exact write_of_refusal writer value

/-! ### The fields of one writer -/

/-- Fields of known widths, the length of a last field in two octets and that field are recovered
from their concatenation. -/
theorem lengthPrefixed_injective {left right : List (List UInt8)} {leftLast rightLast : List UInt8}
    (hwidths : left.map List.length = right.map List.length)
    (heq : (left ++ [leList 2 leftLast.length, leftLast]).flatten =
      (right ++ [leList 2 rightLast.length, rightLast]).flatten) :
    left = right ∧ leftLast = rightLast := by
  simp only [List.flatten_append, List.flatten_cons, List.flatten_nil, List.append_nil] at heq
  have hlength : left.flatten.length = right.flatten.length := by
    rw [List.length_flatten, List.length_flatten, hwidths]
  obtain ⟨hfields, hlast⟩ := List.append_inj heq hlength
  exact ⟨flatten_injective hwidths hfields, (List.append_inj hlast (by simp)).2⟩

theorem asset_fields_injective {left right : AssetPreimage}
    (heq : left.fields.flatten = right.fields.flatten) : left = right := by
  have hsplit : ([tagAsset.octets, left.jurisdiction.octets, left.registry.octets] ++
      [leList 2 left.tenure.length, left.tenure]).flatten =
      ([tagAsset.octets, right.jurisdiction.octets, right.registry.octets] ++
      [leList 2 right.tenure.length, right.tenure]).flatten := heq
  have hfields := lengthPrefixed_injective (by simp) hsplit
  simp only [List.cons.injEq, and_true, true_and] at hfields
  rcases left with ⟨⟩
  rcases right with ⟨⟩
  obtain rfl := Octets.octets_injective hfields.1.1
  obtain rfl := Octets.octets_injective hfields.1.2
  obtain rfl := hfields.2
  rfl

theorem prf_fields_injective {left right : PrfPreimage}
    (heq : left.fields.flatten = right.fields.flatten) : left = right := by
  have hsplit : ([tagPrf.octets, left.key.octets] ++
      [leList 2 left.input.length, left.input]).flatten =
      ([tagPrf.octets, right.key.octets] ++
      [leList 2 right.input.length, right.input]).flatten := heq
  have hfields := lengthPrefixed_injective (by simp) hsplit
  simp only [List.cons.injEq, and_true, true_and] at hfields
  rcases left with ⟨⟩
  rcases right with ⟨⟩
  obtain rfl := Octets.octets_injective hfields.1
  obtain rfl := hfields.2
  rfl

theorem leList_toNat_injective_u16 {left right : UInt16}
    (heq : leList 2 left.toNat = leList 2 right.toNat) : left = right :=
  UInt16.toNat_inj.mp (leList_injective left.toNat_lt right.toNat_lt heq)

theorem genesisHead_injective {left right : GenesisHeadPreimage}
    (heq : left.fields.flatten = right.fields.flatten) : left = right := by
  have hfields := flatten_injective (by simp [GenesisHeadPreimage.fields]) heq
  simp only [GenesisHeadPreimage.fields, List.cons.injEq, and_true, true_and] at hfields
  rcases left with ⟨⟩
  rcases right with ⟨⟩
  obtain rfl := Octets.octets_injective hfields.1
  obtain rfl := leList_toNat_injective_u16 hfields.2
  rfl

theorem padding_fields_injective {left right : PaddingPreimage}
    (heq : left.fields.flatten = right.fields.flatten) : left = right := by
  have hfields := flatten_injective (by simp [PaddingPreimage.fields]) heq
  simp only [PaddingPreimage.fields, List.cons.injEq, and_true, true_and] at hfields
  rcases left with ⟨⟩
  rcases right with ⟨⟩
  obtain rfl := Octets.octets_injective hfields
  rfl

theorem spi_fields_injective {left right : SpiPreimage}
    (heq : left.fields.flatten = right.fields.flatten) : left = right := by
  have hfields := flatten_injective (by simp [SpiPreimage.fields]) heq
  simp only [SpiPreimage.fields, List.cons.injEq, and_true, true_and] at hfields
  obtain ⟨hleaf, hsubmission, haccepted, hpromised, hdelay⟩ := hfields
  rcases left with ⟨⟩
  rcases right with ⟨⟩
  obtain rfl := Octets.octets_injective hleaf
  obtain rfl := Octets.octets_injective hsubmission
  obtain rfl := leList_toNat_injective haccepted
  obtain rfl := leList_toNat_injective hpromised
  obtain rfl := hdelay
  rfl

theorem handoff_fields_injective {left right : HandoffPreimage}
    (heq : left.fields.flatten = right.fields.flatten) : left = right := by
  have hfields := flatten_injective (by simp [HandoffPreimage.fields]) heq
  simp only [HandoffPreimage.fields, List.cons.injEq, and_true, true_and] at hfields
  obtain ⟨hepoch, hheight, hroot⟩ := hfields
  rcases left with ⟨⟩
  rcases right with ⟨⟩
  obtain rfl := leList_toNat_injective hepoch
  obtain rfl := hheight
  obtain rfl := Octets.octets_injective hroot
  rfl

/-- The octets of one writer determine what it encoded. -/
theorem fields_injective (writer : CoreWriter) {left right : writer.Input}
    (heq : (writer.fields left).flatten = (writer.fields right).flatten) : left = right := by
  cases writer with
  | asset => exact asset_fields_injective heq
  | genesisHead => exact genesisHead_injective heq
  | leaf => exact leaf_fields_injective heq
  | stepHead =>
    obtain ⟨hprev, hleaf⟩ := stepHead_fields_injective heq
    exact StepHeadPreimage.ext hprev hleaf
  | realLeaf => exact RealLeafPreimage.ext (realLeaf_fields_injective heq)
  | padding => exact padding_fields_injective heq
  | node =>
    obtain ⟨hleft, hright⟩ := node_fields_injective heq
    exact NodePreimage.ext hleft hright
  | spi => exact spi_fields_injective heq
  | handoff => exact handoff_fields_injective heq
  | prf => exact prf_fields_injective heq

/-! ### Across writers -/

/-- What is ever hashed under a tag: a preimage of the engine, or a receipt. -/
inductive Encoding
  | core (writer : CoreWriter) (value : writer.Input)
  | receipt (content : List UInt8)

namespace Encoding

/-- The octets of an encoding that succeeds. -/
def octets : Encoding → Option (List UInt8)
  | core writer value => (writer.write value).toOption.map PreimageBuf.octets
  | receipt content => receiptPreimage content

/-- The tag of an encoding. -/
def tag : Encoding → Octets 8
  | core writer _ => writer.tag
  | receipt _ => tagRcpt

/-- The fields of an encoding. -/
def fields : Encoding → List (List UInt8)
  | core writer value => writer.fields value
  | receipt content => [tagRcpt.octets, leList 2 content.length, content]

/-- An encoding that succeeds is the concatenation of its fields. -/
theorem octets_eq_some {encoding : Encoding} {octets : List UInt8}
    (hencode : encoding.octets = some octets) : octets = encoding.fields.flatten := by
  cases encoding with
  | core writer value =>
    cases hrefusal : writer.refusal value with
    | none =>
      obtain ⟨buffer, hwrite, hbuffer⟩ := write_of_accepted writer value hrefusal
      rw [Encoding.octets, hwrite] at hencode
      exact (Option.some.inj hencode).symm.trans hbuffer
    | some error =>
      rw [Encoding.octets, write_of_refusal writer value hrefusal] at hencode
      cases hencode
  | receipt receipt =>
    simp only [Encoding.octets, receiptPreimage, Option.bind_eq_bind, Option.bind_eq_some_iff,
      Option.pure_def, Option.some.injEq] at hencode
    obtain ⟨len, hlen, rfl⟩ := hencode
    unfold tryFromU16 at hlen
    split_ifs at hlen with hfits
    obtain rfl := Option.some.inj hlen
    rw [UInt16.toNat_ofNat_of_lt' hfits]
    simp [Encoding.fields]

/-- The first field of an encoding is its tag. -/
theorem exists_fields_eq (encoding : Encoding) :
    ∃ rest, encoding.fields = encoding.tag.octets :: rest := by
  cases encoding with
  | core writer value => cases writer <;> exact ⟨_, rfl⟩
  | receipt receipt => exact ⟨_, rfl⟩

theorem tag_eq_of_flatten_eq {left right : Encoding}
    (heq : left.fields.flatten = right.fields.flatten) : left.tag = right.tag := by
  obtain ⟨leftRest, hleft⟩ := left.exists_fields_eq
  obtain ⟨rightRest, hright⟩ := right.exists_fields_eq
  by_contra htags
  rw [hleft, hright] at heq
  exact ne_of_tag_ne htags leftRest rightRest heq

end Encoding

/-- Two writers with one tag are one writer, or the two writers of heads. -/
theorem writer_eq_of_tag_eq {left right : CoreWriter} (htag : left.tag = right.tag) :
    left = right ∨ left = .genesisHead ∧ right = .stepHead ∨
      left = .stepHead ∧ right = .genesisHead := by
  revert htag
  cases left <;> cases right <;> decide

theorem tag_ne_tagRcpt (writer : CoreWriter) : writer.tag ≠ tagRcpt := by
  cases writer <;> decide

theorem fields_flatten_injective {left right : Encoding}
    (heq : left.fields.flatten = right.fields.flatten) : left = right := by
  have htag := Encoding.tag_eq_of_flatten_eq heq
  rcases left with ⟨writer, value⟩ | receipt <;> rcases right with ⟨other, found⟩ | found
  · rcases writer_eq_of_tag_eq htag with rfl | ⟨rfl, rfl⟩ | ⟨rfl, rfl⟩
    · rw [fields_injective writer heq]
    · exact absurd heq.symm (stepHead_ne_genesisHead found value)
    · exact absurd heq (stepHead_ne_genesisHead value found)
  · exact absurd htag (tag_ne_tagRcpt writer)
  · exact absurd htag.symm (tag_ne_tagRcpt other)
  · have hsplit : ([tagRcpt.octets] ++ [leList 2 receipt.length, receipt]).flatten =
        ([tagRcpt.octets] ++ [leList 2 found.length, found]).flatten := heq
    rw [(lengthPrefixed_injective (by simp) hsplit).2]

/-! ### The inputs of the pseudorandom function -/

/-- The uses of the pseudorandom function, each with its argument. -/
inductive PrfUse
  | epochKey (epoch : UInt64)
  | slot (submissionId : SubmissionId)
  | padding (slotIndex : UInt16)

/-- The input of a use: its code and its argument. -/
def PrfUse.input : PrfUse → List UInt8
  | epochKey epoch => prfUseEpochKey :: leList 8 epoch.toNat
  | slot submissionId => prfUseSlot :: submissionId.octets
  | padding slotIndex => prfUsePadding :: leList 2 slotIndex.toNat

/-- The digest the engine derives for a use. -/
def PrfUse.derive (hasher : Hasher) (key : Digest) : PrfUse → Result Digest
  | epochKey epoch => Core.Preimages.epochKey hasher key epoch
  | slot submissionId => slotSeed hasher key submissionId
  | padding slotIndex => paddingPrf hasher key slotIndex

theorem PrfUse.input_injective {left right : PrfUse} (heq : left.input = right.input) :
    left = right := by
  cases left with
  | epochKey epoch =>
    cases right with
    | epochKey other => rw [leList_toNat_injective (List.cons.inj heq).2]
    | slot other => exact absurd (List.cons.inj heq).1 (by decide)
    | padding other => exact absurd (List.cons.inj heq).1 (by decide)
  | slot submissionId =>
    cases right with
    | epochKey other => exact absurd (List.cons.inj heq).1 (by decide)
    | slot other => rw [Octets.octets_injective (List.cons.inj heq).2]
    | padding other => exact absurd (List.cons.inj heq).1 (by decide)
  | padding slotIndex =>
    cases right with
    | epochKey other => exact absurd (List.cons.inj heq).1 (by decide)
    | slot other => exact absurd (List.cons.inj heq).1 (by decide)
    | padding other => rw [leList_toNat_injective_u16 (List.cons.inj heq).2]

/-! ### What is signed -/

/-- The messages the system signs: the preimage of a leaf, the digest of a promise and the
preimage of a hand-off. -/
inductive SignedMessage
  | record (preimage : LeafPreimage)
  | promise (digest : Digest)
  | handoff (preimage : HandoffPreimage)

/-- The kinds of these messages. -/
inductive SignedKind
  | record
  | promise
  | handoff
deriving DecidableEq

namespace SignedMessage

def kind : SignedMessage → SignedKind
  | record _ => .record
  | promise _ => .promise
  | handoff _ => .handoff

/-- The octets that are signed. -/
def octets : SignedMessage → Option (List UInt8)
  | record preimage => (Encoding.core .leaf preimage).octets
  | promise digest => some digest.octets
  | handoff preimage => (Encoding.core .handoff preimage).octets

/-- The length of a message of a kind. -/
def length : SignedKind → ℕ
  | .record => 161
  | .promise => 32
  | .handoff => 49

theorem length_of_octets {message : SignedMessage} {octets : List UInt8}
    (hoctets : message.octets = some octets) : octets.length = length message.kind := by
  cases message with
  | record preimage =>
    have hencode : (Encoding.core .leaf preimage).octets = some octets := hoctets
    rw [Encoding.octets_eq_some hencode]
    simp [Encoding.fields, CoreWriter.fields, LeafPreimage.fields, length, kind]
  | promise digest =>
    rw [← Option.some.inj hoctets]
    simp [length, kind]
  | handoff preimage =>
    have hencode : (Encoding.core .handoff preimage).octets = some octets := hoctets
    rw [Encoding.octets_eq_some hencode]
    simp [Encoding.fields, CoreWriter.fields, HandoffPreimage.fields, length, kind]

theorem length_injective {left right : SignedKind} (heq : length left = length right) :
    left = right := by
  revert heq
  cases left <;> cases right <;> decide

end SignedMessage

/-! ### All preimages together -/

/-- The preimages of the system are jointly injective and separated by domain. -/
structure PreimagesSeparated : Prop where
  /-- Equal octets come from one writer and equal values. -/
  injective : ∀ left right octets, Encoding.octets left = some octets →
    Encoding.octets right = some octets → left = right
  /-- The inputs of the pseudorandom function differ between uses and between arguments. -/
  prf_inputs : ∀ left right : PrfUse, left.input = right.input → left = right
  /-- So do its preimages under one key, whose hashes are the digests the engine derives. -/
  prf_preimages : ∀ key (left right : PrfUse) octets,
    (Encoding.core .prf ⟨key, left.input⟩).octets = some octets →
    (Encoding.core .prf ⟨key, right.input⟩).octets = some octets → left = right
  prf_derived : ∀ (use : PrfUse) hasher key,
    use.derive hasher key = digest hasher (PrfPreimage.mk key use.input)
  /-- A writer of the engine refuses exactly a tenure that is not canonical and an empty or
  over-long input; all else fits the buffer. -/
  refusals : ∀ (writer : CoreWriter) value error,
    writer.write value = .error error ↔ writer.refusal value = some error
  /-- Messages of different kinds that are signed differ. -/
  signed : ∀ (left right : SignedMessage) octets, left.octets = some octets →
    right.octets = some octets → left.kind = right.kind

theorem preimages_separated : PreimagesSeparated := by
  have hinjective : ∀ left right octets, Encoding.octets left = some octets →
      Encoding.octets right = some octets → left = right := by
    intro left right octets hleft hright
    apply fields_flatten_injective
    rw [← Encoding.octets_eq_some hleft, ← Encoding.octets_eq_some hright]
  refine ⟨hinjective, fun _ _ ↦ PrfUse.input_injective, ?_, ?_, write_eq_error_iff, ?_⟩
  · intro key left right octets hleft hright
    have hsame := hinjective _ _ octets hleft hright
    injection hsame with _ hvalue
    injection hvalue with _ hinput
    exact PrfUse.input_injective hinput
  · intro use hasher key
    cases use <;> rfl
  · intro left right octets hleft hright
    apply SignedMessage.length_injective
    rw [← SignedMessage.length_of_octets hleft, ← SignedMessage.length_of_octets hright]

end AnchoredLog.Client.DomainSeparation
