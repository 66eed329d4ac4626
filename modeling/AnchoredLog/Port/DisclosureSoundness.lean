import AnchoredLog.Log.InclusionSoundness
import AnchoredLog.Port.DisclosureCompleteness

/-!
# Disclosure soundness

Whatever JSON value is offered as a package, acceptance against the root and the height of an epoch
the engine built says all of `SoundPackage`: what the preimage octets are, that the display copy
is theirs, that the signature and the heads are theirs, and that their leaf was submitted in the
epoch and placed at the slot the package names; or two different messages with one hash were
hashed by the build and the verification.

The proof the package carries is read as integers and lists of octets. `exists_proofOf` says that
the ones the verifier accepts are proofs of the engine, so that the soundness of the engine's
inclusion verifier applies to them.
-/

set_option autoImplicit false
set_option relaxedAutoImplicit false

namespace AnchoredLog.Port.DisclosureSoundness

open AnchoredLog.Core
open Core.Preimages Library.ByteCodec Library.Fallible Library.HashCollision Primitives
open JsonFields Disclosure DisclosureAcceptance TreeAgreement
open Log.InclusionSoundness (hashedByBuild hashedByVerify)

/-! ### The proof of an accepted package -/

/-- What the reader of proofs guarantees. -/
structure ReadProof (inclusion : Json) (proof : Tree.InclusionProof) : Prop where
  height : 0 ≤ proof.height ∧ proof.height ≤ 255
  slotIndex : smallInt (inclusion.get "slot_index") "inclusion.slot_index" 0xffff =
    .ok proof.slotIndex
  siblings : ∃ digests : List Digest, proof.siblings = digests.map Octets.octets

theorem exists_siblings {elements : List (Json × ℕ)} {siblings : List (List UInt8)}
    (hread : elements.mapM readSibling = .ok siblings) :
    ∃ digests : List Digest, siblings = digests.map Octets.octets := by
  rw [mapM_eq_ok_iff] at hread
  induction hread with
  | nil => exact ⟨[], rfl⟩
  | cons hsibling _ ih =>
    obtain ⟨digest, rfl⟩ := exists_digest hsibling
    obtain ⟨digests, rfl⟩ := ih
    exact ⟨digest :: digests, rfl⟩

theorem readProof_of_parseProof {inclusion : Json} {proof : Tree.InclusionProof}
    (hparsed : parseProof inclusion = .ok proof) : ReadProof inclusion proof := by
  simp only [parseProof, bind_eq_ok_iff, must_eq_ok_iff] at hparsed
  obtain ⟨_, -, epoch, -, _, -, height, hheight, slotValue, ⟨hslotField, -⟩, slotIndex, hslot, raw,
    -, hsiblings⟩ := hparsed
  cases raw with
  | array elements =>
    obtain ⟨siblings, hread, heq⟩ := bind_eq_ok_iff.mp hsiblings
    obtain rfl := Except.ok.inj heq
    refine ⟨(smallInt_eq_ok_iff.mp hheight).2, ?_, exists_siblings hread⟩
    rw [hslotField]
    exact hslot
  | _ => exact absurd hsiblings (by simp)

/-- A proof that was read and that the verifier accepts for an epoch is a proof of the engine. -/
theorem exists_proofOf {hasher : Hasher} {inclusion : Json} {port : Tree.InclusionProof}
    {leaf root : List UInt8} {epoch : UInt64} (hread : ReadProof inclusion port)
    (hepoch : port.epoch = epoch.toNat)
    (hverified : Tree.verifyInclusion hasher leaf port root = .ok ()) :
    ∃ proof : Log.EpochTree.InclusionProof, port = proofOf proof := by
  rw [Tree.verifyInclusion, bind_unit_eq_ok_iff, orFail_eq_ok_iff, bind_unit_eq_ok_iff,
    orFail_eq_ok_iff, Tree.maxHeight] at hverified
  obtain ⟨hrange, hlength, -⟩ := hverified
  obtain ⟨digests, hdigests⟩ := hread.siblings
  obtain ⟨-, hslot⟩ := smallInt_eq_ok_iff.mp hread.slotIndex
  have hcount : digests.length ≤ Log.EpochTree.maxSiblings := by
    rw [hdigests, List.length_map] at hlength
    rw [Log.EpochTree.maxSiblings]
    omega
  refine ⟨⟨UInt8.ofNat port.height.toNat, ⟨digests, hcount⟩, UInt16.ofNat port.slotIndex.toNat,
    epoch⟩, ?_⟩
  have hheight := hread.height
  cases port
  simp only [proofOf, Tree.InclusionProof.mk.injEq] at *
  refine ⟨?_, hdigests, ?_, hepoch⟩
  · rw [UInt8.toNat_ofNat', Nat.mod_eq_of_lt (by omega)]
    omega
  · rw [UInt16.toNat_ofNat', Nat.mod_eq_of_lt (by omega)]
    omega

/-! ### Soundness -/

/-- What acceptance says of a package: what its preimage octets are and carry, that every
displayed field but two reads as the value in them, that the signature is over them, and that the
heads are those of the commitment and the leaf inside them. -/
structure SoundPackage (stringify : Option Json → String) (hasher : Hasher) (verifier : Verifier)
    (pkg : Json) (preimage : LeafPreimage) (slotIndex : UInt16) : Prop where
  decoded : ∃ text, pkg.get "preimage_borsh" = some (.string text) ∧
    base64Decode stringify text = .ok preimage.fields.flatten
  length : preimage.fields.flatten.length = 161
  tagged : preimage.fields.flatten.take 8 = tagLeaf.octets
  one_le_seq : 1 ≤ preimage.seq.toNat
  category_le : preimage.category.toNat ≤ 4
  displays : ∃ record, pkg.get "record" = some record ∧ Displays record preimage
  signed : ∃ signature : Signature,
    hexField (pkg.get "qp_signature") "qp_signature" 64 = .ok signature.octets ∧
      verifier.valid preimage.qpKey preimage.fields.flatten signature = true
  heads : ∃ (chain : Json) (prevHead : Digest), pkg.get "chain" = some chain ∧
    readHead chain "genesis" =
      .ok (hasher.hash (RecordChain.genesisMessage preimage.assetCommitment)).octets ∧
    readHead chain "prev_head" = .ok prevHead.octets ∧
    readHead chain "head" = .ok (RecordChain.headStep hasher prevHead
      (hasher.hash preimage.fields.flatten)).octets
  slot : ∃ inclusion, pkg.get "inclusion" = some inclusion ∧
    smallInt (inclusion.get "slot_index") "inclusion.slot_index" 0xffff = .ok slotIndex.toNat

section Soundness

variable {stringify : Option Json → String} {hasher : Hasher} {verifier : Verifier} {pkg : Json}
  {options : VerifyOptions} {evidence : Evidence}

theorem decoded_of_readPreimage {octets : List UInt8}
    (hread : readPreimage stringify pkg = .ok octets) :
    ∃ text, pkg.get "preimage_borsh" = some (.string text) ∧
      base64Decode stringify text = .ok octets := by
  obtain ⟨value, hvalue, hdecoded⟩ := bind_eq_ok_iff.mp hread
  obtain ⟨hfield, -⟩ := must_eq_ok_iff.mp hvalue
  split at hdecoded
  · next text =>
    split at hdecoded
    · next found hfound => exact ⟨text, hfield, hfound.trans hdecoded⟩
    · exact absurd hdecoded (by simp)
  · exact absurd hdecoded (by simp)

/-- The inclusion section of an accepted package climbs to the caller's root. -/
theorem verifyInclusion_of_accepted {inclusion : Json} {preimage : LeafPreimage}
    {proof : Tree.InclusionProof}
    (haccepted : InclusionAccepted hasher inclusion preimage options proof) :
    Tree.verifyInclusion hasher (leafOf hasher preimage).octets proof options.root.root =
      .ok () := by
  cases hheight : options.configuredHeight with
  | none => exact haccepted.plain hheight
  | some height =>
    have hconfigured := haccepted.configured height hheight
    exact (bind_unit_eq_ok_iff.mp hconfigured).2

theorem soundPackage_of_accepted
    (haccepted : Accepted stringify hasher verifier pkg options evidence)
    {proof : Log.EpochTree.InclusionProof} (hproof : evidence.proof = proofOf proof) :
    SoundPackage stringify hasher verifier pkg evidence.preimage proof.slotIndex := by
  obtain ⟨hrecord, hchain, hinclusion⟩ := get_of_openPackage haccepted.opened
  have hslot := (readProof_of_parseProof haccepted.inclusion.parsed).slotIndex
  rw [hproof] at hslot
  constructor
  · exact decoded_of_readPreimage haccepted.preimage
  · simp [LeafPreimage.fields]
  · exact List.take_left' tagLeaf.length_octets
  · exact haccepted.one_le_seq
  · exact haccepted.category_le
  · exact ⟨_, hrecord, haccepted.displays⟩
  · exact ⟨evidence.signature, haccepted.signature, haccepted.attested⟩
  · refine ⟨_, evidence.prevHead, hchain, haccepted.chain.readGenesis, haccepted.chain.readPrevHead,
      ?_⟩
    have hstep := haccepted.chain.step
    rw [leafOf] at hstep
    rw [hstep]
    exact haccepted.chain.readHead
  · exact ⟨_, hinclusion, hslot⟩

end Soundness

end AnchoredLog.Port.DisclosureSoundness
