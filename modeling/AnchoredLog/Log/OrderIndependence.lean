import AnchoredLog.Log.TreeCompleteness

/-!
# The epoch tree and the order of submissions

The submissions of an epoch are placed one after the other, each where the ones before it left
room, so the tree depends on the order they are placed in. That order comes from a sort by
identifier which does not say in what order it leaves equal identifiers; but equal identifiers are
refused, and distinct ones have a single ascending order. `buildSorted` is the construction with any
result of such a sort, and `build_order_independent` says that it depends on neither the sort nor
the order of the submissions.
-/

set_option autoImplicit false
set_option relaxedAutoImplicit false

namespace AnchoredLog.Log.OrderIndependence

open Core.Preimages Library.Fallible EpochTree TreeCompleteness

/-! ### Any sort by identifier -/

/-- A result of a sort by identifier, which may leave equal identifiers in any order. -/
structure SortedById (real sorted : List (SubmissionId × Digest)) : Prop where
  perm : sorted.Perm real
  ascending : sorted.Pairwise fun left right ↦ left.1 ≤ right.1

/-- Builds one epoch, from what the sort made of its submissions. -/
def buildSorted (hasher : Hasher) (epoch : UInt64) (height : UInt8) (key : Digest)
    (real sorted : List (SubmissionId × Digest)) : Result BuiltEpoch := do
  let capacity ← capacityOf height
  require (¬ capacity < real.length) .epochCapacityExceeded
  let kE ← epochKey hasher key epoch
  require (sorted.IsChain fun left right ↦ ¬ left.1 = right.1) .malformedPayload
  let (slots, assignment) ← sorted.foldlM (place hasher kE height capacity)
    (List.replicate capacity none, [])
  let leaves ← slots.zipIdx.mapM (fill hasher kE)
  let (nodes, root) ← levelsAbove hasher leaves
  return {
    epoch := epoch
    height := height
    root := root
    leaves := leaves
    assignment := assignment
    nodes := nodes }

theorem sortedById_ordered (real : List (SubmissionId × Digest)) :
    SortedById real (ordered real) :=
  ⟨ordered_perm real, ordered_pairwise real⟩

/-- The construction sorts by one such sort. -/
theorem build_eq_buildSorted (hasher : Hasher) (epoch : UInt64) (height : UInt8) (key : Digest)
    (real : List (SubmissionId × Digest)) :
    build hasher epoch height key real = buildSorted hasher epoch height key real (ordered real) :=
  rfl

section Sorted

variable {real other sorted others : List (SubmissionId × Digest)}

/-- Submissions with distinct identifiers have one ascending order. -/
theorem SortedById.unique (hperm : real.Perm other) (hsorted : SortedById real sorted)
    (hothers : SortedById other others) (hnodup : (real.map Prod.fst).Nodup) : sorted = others := by
  have hsame : sorted.Perm others := (hsorted.perm.trans hperm).trans hothers.perm.symm
  refine hsame.eq_of_pairwise ?_ hsorted.ascending hothers.ascending
  intro left right hleft hright hle hge
  exact List.inj_on_of_nodup_map hnodup (hsorted.perm.mem_iff.mp hleft)
    (hperm.mem_iff.mpr (hothers.perm.mem_iff.mp hright)) (le_antisymm hle hge)

/-- The construction is the same for any order of the submissions and any sort of them. -/
theorem buildSorted_eq (hasher : Hasher) (epoch : UInt64) (height : UInt8) (key : Digest)
    (hperm : real.Perm other) (hsorted : SortedById real sorted)
    (hothers : SortedById other others) :
    buildSorted hasher epoch height key real sorted =
      buildSorted hasher epoch height key other others := by
  by_cases hnodup : (real.map Prod.fst).Nodup
  · rw [hsorted.unique hperm hothers hnodup, buildSorted, hperm.length_eq, buildSorted]
  · have hduplicate : ¬ (other.map Prod.fst).Nodup := fun hdistinct ↦
      hnodup ((hperm.map Prod.fst).nodup_iff.mpr hdistinct)
    rw [← isChain_iff_of_ascending hsorted.perm hsorted.ascending] at hnodup
    rw [← isChain_iff_of_ascending hothers.perm hothers.ascending] at hduplicate
    simp only [buildSorted, hperm.length_eq, require_of_false hnodup, require_of_false hduplicate,
      bind_error]

end Sorted

/-- Any two orders of the same submissions, sorted by any sort, give the same tree and the same
proofs, or are refused with the same error. -/
theorem build_order_independent (hasher : Hasher) (epoch : UInt64) (height : UInt8) (key : Digest)
    (real other : List (SubmissionId × Digest)) (hperm : real.Perm other) :
    (∀ sorted others, SortedById real sorted → SortedById other others →
      buildSorted hasher epoch height key real sorted =
        buildSorted hasher epoch height key other others) ∧
    build hasher epoch height key real = build hasher epoch height key other ∧
    ∀ id, (build hasher epoch height key real >>= fun built ↦ built.proof id) =
      (build hasher epoch height key other >>= fun built ↦ built.proof id) := by
  have hbuild : build hasher epoch height key real = build hasher epoch height key other := by
    rw [build_eq_buildSorted, build_eq_buildSorted]
    exact buildSorted_eq hasher epoch height key hperm (sortedById_ordered real)
      (sortedById_ordered other)
  exact ⟨fun sorted others ↦ buildSorted_eq hasher epoch height key hperm, hbuild,
    fun id ↦ by rw [hbuild]⟩

/-- Two submissions give one tree in either order. -/
theorem build_order_independent_swap :
    build residueHasher 20000 4 (Library.ByteCodec.Octets.zeros 32)
        [(⟨List.replicate 16 1, rfl⟩, Library.ByteCodec.Octets.zeros 32),
          (⟨List.replicate 16 2, rfl⟩, Library.ByteCodec.Octets.zeros 32)] =
      build residueHasher 20000 4 (Library.ByteCodec.Octets.zeros 32)
        [(⟨List.replicate 16 2, rfl⟩, Library.ByteCodec.Octets.zeros 32),
          (⟨List.replicate 16 1, rfl⟩, Library.ByteCodec.Octets.zeros 32)] :=
  (build_order_independent residueHasher 20000 4 (Library.ByteCodec.Octets.zeros 32) _ _
    (.swap _ _ [])).2.1

end AnchoredLog.Log.OrderIndependence
