import AnchoredLog.Log.TreeCompleteness

/-!
# Inclusion soundness

An adversary chooses a claimed leaf and a whole inclusion proof: its height, its slot, its epoch
and its siblings. If the verifier accepts it against the root of a built epoch, the proof has the
height of the tree, the claimed leaf is the leaf of the submission placed at that slot, and the
siblings are those of the honest proof; or two different tagged preimages with one hash occur
among those hashed by the build and by the verification.

The argument splits on the height of the proof. At the tree's own height the climb is bound to
the tree level by level, and the leaf it reaches is real or padding. A shorter climb starts at
an interior node of the tree, and a longer one passes through a leaf of the tree as one of its
own interior nodes; both confuse two tags.
-/

set_option autoImplicit false
set_option relaxedAutoImplicit false

namespace AnchoredLog.Log.InclusionSoundness

open Core.Preimages Library.ByteCodec Library.HashCollision Library.MerkleTree
open EpochTree TreeCompleteness

/-! ### What is hashed -/

/-- The tagged preimages a build hashes: the real leaf of each submission, the padding leaf of
each slot left over, and the interior nodes. -/
def hashedByBuild (hasher : Hasher) (key : Digest) (real : List (SubmissionId × Digest))
    (built : BuiltEpoch) : List (List UInt8) :=
  real.map (fun entry ↦ realLeafMessage entry.2) ++
    (((List.range (2 ^ built.height.toNat)).filter fun index ↦
        index ∉ slotsOf built.assignment).map
      (paddingMessage hasher (keyOfEpoch hasher key built.epoch)) ++
    treeMessages hasher.hash nodeMessage built.height.toNat built.leaves)

/-- The tagged preimages a verification hashes: the real leaf, then one node per sibling. -/
def hashedByVerify (hasher : Hasher) (leaf : Digest) (proof : InclusionProof) :
    List (List UInt8) :=
  realLeafMessage leaf ::
    climbMessages hasher.hash nodeMessage (hasher.hash (realLeafMessage leaf))
      proof.slotIndex.toNat proof.siblings.digests

theorem nodeMessage_injective (left right left' right' : Digest)
    (heq : nodeMessage left right = nodeMessage left' right') : left = left' ∧ right = right' :=
  node_fields_injective heq

section Soundness

variable {hasher : Hasher} {epoch : UInt64} {height : UInt8} {key : Digest}
  {real : List (SubmissionId × Digest)} {built : BuiltEpoch}

theorem realLeafMessage_mem {entry : SubmissionId × Digest} (hentry : entry ∈ real) :
    realLeafMessage entry.2 ∈ hashedByBuild hasher key real built :=
  List.mem_append_left _ (List.mem_map.mpr ⟨entry, hentry, rfl⟩)

theorem paddingMessage_mem (hbuilt : BuiltFrom hasher epoch height key real built) {index : ℕ}
    (hindex : index < 2 ^ height.toNat) (hfree : index ∉ slotsOf built.assignment) :
    paddingMessage hasher (keyOfEpoch hasher key epoch) index ∈
      hashedByBuild hasher key real built := by
  refine List.mem_append_right _ (List.mem_append_left _ ?_)
  rw [hbuilt.epoch_eq, hbuilt.height_eq]
  refine List.mem_map_of_mem (List.mem_filter.mpr ⟨List.mem_range.mpr hindex, ?_⟩)
  simpa using hfree

theorem treeMessages_subset (hbuilt : BuiltFrom hasher epoch height key real built) :
    treeMessages hasher.hash nodeMessage height.toNat built.leaves ⊆
      hashedByBuild hasher key real built := by
  intro message hmessage
  rw [← hbuilt.height_eq] at hmessage
  exact List.mem_append_right _ (List.mem_append_right _ hmessage)

/-- Every leaf of the tree is the hash of a preimage of the build that is not a node's. -/
theorem exists_leafMessage (hbuilt : BuiltFrom hasher epoch height key real built)
    {digest : Digest} (hdigest : digest ∈ built.leaves) :
    ∃ message ∈ hashedByBuild hasher key real built, digest = hasher.hash message ∧
      ∀ left right, message ≠ nodeMessage left right := by
  obtain ⟨index, hindex⟩ := List.getElem?_of_mem hdigest
  have hlt : index < 2 ^ height.toNat := by
    rw [← hbuilt.length_leaves]
    exact (List.getElem?_eq_some_iff.mp hindex).1
  by_cases hassigned : index ∈ slotsOf built.assignment
  · obtain ⟨assigned, hmember, rfl⟩ := List.mem_map.mp hassigned
    obtain ⟨leaf, hentry, hleaf⟩ := hbuilt.exists_entry hmember
    exact ⟨_, realLeafMessage_mem hentry, Option.some_injective _ (hindex.symm.trans hleaf),
      fun left right ↦ realLeaf_ne_node _ _⟩
  · exact ⟨_, paddingMessage_mem hbuilt hlt hassigned,
      Option.some_injective _ (hindex.symm.trans (hbuilt.leaf_padding index hlt hassigned)),
      fun left right ↦ padding_ne_node _ _⟩

/-- A slot of the tree that holds the real leaf of a claimed leaf was assigned to a submission
with that leaf, or two preimages collide. -/
theorem assigned_of_getElem? (hbuilt : BuiltFrom hasher epoch height key real built)
    {transcript : List (List UInt8)}
    (htranscript : hashedByBuild hasher key real built ⊆ transcript) {leaf : Digest}
    (hclaimed : realLeafMessage leaf ∈ transcript) {slot : UInt16}
    (hslot : slot.toNat < 2 ^ height.toNat)
    (hleaf : built.leaves[slot.toNat]? = some (hasher.hash (realLeafMessage leaf))) :
    (∃ id, (id, slot) ∈ built.assignment ∧ (id, leaf) ∈ real) ∨
      Collides hasher.hash transcript := by
  by_cases hassigned : slot ∈ built.assignment.map Prod.snd
  · obtain ⟨⟨id, assignedSlot⟩, hmember, rfl⟩ := List.mem_map.mp hassigned
    obtain ⟨placed, hentry, hplaced⟩ := hbuilt.exists_entry hmember
    rcases eq_or_collides (htranscript (realLeafMessage_mem hentry)) hclaimed
      (Option.some_injective _ (hplaced.symm.trans hleaf)) with hsame | hcollides
    · obtain rfl : placed = leaf := realLeaf_fields_injective hsame
      exact Or.inl ⟨id, hmember, hentry⟩
    · exact Or.inr hcollides
  · have hfree : slot.toNat ∉ slotsOf built.assignment :=
      fun hmember ↦ hassigned (toNat_mem_slotsOf.mp hmember)
    have hpadding := hbuilt.leaf_padding slot.toNat hslot hfree
    exact Or.inr (collides_of_ne hclaimed (htranscript (paddingMessage_mem hbuilt hslot hfree))
      (realLeaf_ne_padding _ _) (Option.some_injective _ (hleaf.symm.trans hpadding)))

/-! ### Soundness -/

/-- A climb the verifier accepts against the root of a built epoch ends at the slot of a submission
with the claimed leaf, along the siblings of its honest proof, or two hashed preimages collide. -/
theorem placed_or_collides (hbuilt : BuiltFrom hasher epoch height key real built) {leaf : Digest}
    {proof : InclusionProof} (haccepted : Accepted hasher leaf proof built.root) :
    (proof.height = height ∧ ∃ id honest, (id, proof.slotIndex) ∈ built.assignment ∧
        (id, leaf) ∈ real ∧ built.proof id = .ok honest ∧
        honest.slotIndex = proof.slotIndex ∧ proof.siblings = honest.siblings) ∨
      Collides hasher.hash
        (hashedByBuild hasher key real built ++ hashedByVerify hasher leaf proof) := by
  obtain ⟨-, hlength, hslot, hroot⟩ := haccepted
  have htree : treeMessages hasher.hash nodeMessage height.toNat built.leaves ⊆
      hashedByBuild hasher key real built ++ hashedByVerify hasher leaf proof :=
    List.Subset.trans (treeMessages_subset hbuilt) (List.subset_append_left _ _)
  have hclaimed : realLeafMessage leaf ∈
      hashedByBuild hasher key real built ++ hashedByVerify hasher leaf proof :=
    List.mem_append_right _ List.mem_cons_self
  have hclimb : climbMessages hasher.hash nodeMessage (hasher.hash (realLeafMessage leaf))
      proof.slotIndex.toNat proof.siblings.digests ⊆
        hashedByBuild hasher key real built ++ hashedByVerify hasher leaf proof :=
    List.Subset.trans (List.subset_cons_self _ _) (List.subset_append_right _ _)
  have hreaches := hbuilt.root_eq.trans (congrArg some hroot.symm)
  rcases lt_trichotomy proof.height.toNat height.toNat with hshort | heq | hlong
  · rcases climb_shallow nodeMessage_injective (hlength ▸ hslot) (hlength ▸ hshort) htree hclimb
      hreaches with ⟨message, hmessage, hdigest⟩ | hcollides
    · obtain ⟨left, right, rfl⟩ := exists_pair_of_mem_treeMessages hmessage
      exact Or.inr (collides_of_ne hclaimed (htree hmessage) (realLeaf_ne_node _ _) hdigest)
    · exact Or.inr hcollides
  · have hheight : proof.height = height := UInt8.toNat_inj.mp heq
    rcases climb_binds nodeMessage_injective (heq ▸ hslot) (hlength.trans heq) htree hclimb
      hreaches with ⟨hleaf, hpath⟩ | hcollides
    · rcases assigned_of_getElem? hbuilt (List.subset_append_left _ _) hclaimed (heq ▸ hslot)
        hleaf with ⟨id, hassigned, hentry⟩ | hcollides
      · obtain ⟨honest, hproof, -, hhonestSlot, -, hsiblings⟩ := hbuilt.proof_eq hassigned
        refine Or.inl ⟨hheight, id, honest, hassigned, hentry, hproof, hhonestSlot, ?_⟩
        exact Siblings.ext (Option.some_injective _ (hpath.symm.trans hsiblings))
      · exact Or.inr hcollides
    · exact Or.inr hcollides
  · rcases climb_deep nodeMessage_injective (hlength ▸ hslot) (hlength ▸ hlong) htree hclimb
      hreaches with ⟨digest, hdigest, message, hmessage, heq⟩ | hcollides
    · obtain ⟨leafMessage, hleafMessage, hleafDigest, hne⟩ := exists_leafMessage hbuilt hdigest
      obtain ⟨left, right, rfl⟩ := exists_pair_of_mem_climbMessages hmessage
      exact Or.inr (collides_of_ne (List.mem_append_left _ hleafMessage) (hclimb hmessage)
        (hne left right) (hleafDigest.symm.trans heq))
    · exact Or.inr hcollides

/-- Inclusion soundness: whatever leaf and proof are claimed, an accepted proof has the height of
the tree, its slot was given to a submission with exactly that leaf, and its siblings are those
of that submission's honest proof; or two preimages hashed by the build and the verification
collide. -/
theorem inclusion_sound (hbuild : build hasher epoch height key real = .ok built)
    (leaf : Digest) (proof : InclusionProof)
    (hverify : verify hasher leaf proof built.root = .ok ()) :
    (proof.height = height ∧ ∃ id honest, (id, proof.slotIndex) ∈ built.assignment ∧
        (id, leaf) ∈ real ∧ built.proof id = .ok honest ∧
        honest.slotIndex = proof.slotIndex ∧ proof.siblings = honest.siblings) ∨
      Collides hasher.hash
        (hashedByBuild hasher key real built ++ hashedByVerify hasher leaf proof) :=
  placed_or_collides (builtFrom_of_build hbuild) (verify_eq_ok_iff.mp hverify)

end Soundness

/-- The soundness statement applies to the honest proof of a one-submission epoch. -/
theorem inclusion_sound_oneSubmission :
    ∃ built proof,
      build residueHasher 20000 4 (Octets.zeros 32) [(Octets.zeros 16, Octets.zeros 32)] =
        .ok built ∧
      verify residueHasher (Octets.zeros 32) proof built.root = .ok () ∧
      ((proof.height = 4 ∧ ∃ id honest, (id, proof.slotIndex) ∈ built.assignment ∧
          (id, Octets.zeros 32) ∈ [(Octets.zeros 16, Octets.zeros 32)] ∧
          built.proof id = .ok honest ∧ honest.slotIndex = proof.slotIndex ∧
          proof.siblings = honest.siblings) ∨
        Collides residueHasher.hash
          (hashedByBuild residueHasher (Octets.zeros 32) [(Octets.zeros 16, Octets.zeros 32)]
              built ++
            hashedByVerify residueHasher (Octets.zeros 32) proof)) := by
  obtain ⟨built, hbuild, hfrom⟩ := exists_build residueHasher 20000 (Octets.zeros 32)
    (by decide : minHeight ≤ 4 ∧ (4 : UInt8) ≤ maxHeight)
    (by decide : ¬ 2 ^ (4 : UInt8).toNat < [(Octets.zeros 16, Octets.zeros 32)].length)
    (List.nodup_singleton _)
  obtain ⟨proof, -, -, -, haccepted⟩ := hfrom.accepted List.mem_cons_self
  have hverify := verify_eq_ok_iff.mpr haccepted
  exact ⟨built, proof, hbuild, hverify, inclusion_sound hbuild (Octets.zeros 32) proof hverify⟩

end AnchoredLog.Log.InclusionSoundness
