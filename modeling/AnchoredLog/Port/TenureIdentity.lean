import AnchoredLog.Library.HashCollision
import AnchoredLog.Port.Canonical

/-!
# One asset, one identity

`TenureProjection` states what canonicalization is to the asset commitment: in both languages it
gives the same octets, its results are its fixed points, these are what the two tests of
canonicality accept and what the two commitments take, and spellings with one commitment have one
canonical form. `tenure_projection` holds for every decomposition that leaves ASCII and a
byte-order mark in front as they are.
-/

set_option autoImplicit false
set_option relaxedAutoImplicit false

namespace AnchoredLog.Port.TenureIdentity

open Library.ByteCodec Library.Fallible Library.HashCollision Core.Preimages
open Core.Identity (CanonicalTenure Decomposes commitment commitmentMessage)
open Primitives Canonical

/-- What canonicalization is to the asset commitment. -/
structure TenureProjection (hasher : Hasher) (nfkd normalize : List Char → List Char) : Prop where
  /-- The two canonicalizers give the same octets or both fail. -/
  agree : ∀ raw, SameResult (Core.Identity.canonicalizeBytes nfkd raw)
    (Canonical.canonicalizeBytes normalize raw)
  /-- A result is 1 to 64 octets of `A`–`Z` and `0`–`9`, and is canonicalized to itself. -/
  canonical : ∀ raw tenure, Core.Identity.canonicalizeBytes nfkd raw = .ok tenure →
    1 ≤ tenure.octets.length ∧ tenure.octets.length ≤ 64 ∧
      (∀ octet ∈ tenure.octets, 0x41 ≤ octet ∧ octet ≤ 0x5a ∨ 0x30 ≤ octet ∧ octet ≤ 0x39) ∧
      Core.Identity.canonicalizeBytes nfkd tenure.octets = .ok tenure ∧
      Canonical.canonicalizeBytes normalize tenure.octets = .ok tenure.octets
  /-- The three tests of canonicality are one. -/
  tests : ∀ octets, (isCanonical octets ↔ isCanonicalTenure normalize octets) ∧
    (isCanonical octets ↔ ∃ tenure, Core.Identity.canonicalizeBytes nfkd octets = .ok tenure ∧
      tenure.octets = octets)
  /-- The commitments succeed exactly on the results, and then they are the same. -/
  commits : ∀ j r octets, (∃ digest, commitment hasher j r octets = .ok digest) ↔
    ∃ raw tenure, Core.Identity.canonicalizeBytes nfkd raw = .ok tenure ∧ tenure.octets = octets
  portCommits : ∀ (j : Octets 4) (r : Octets 8) octets,
    (∃ found, assetCommitment hasher normalize j.octets r.octets octets = .ok found) ↔
      ∃ raw, Canonical.canonicalizeBytes normalize raw = .ok octets
  sameCommitment : ∀ j r octets digest, commitment hasher j r octets = .ok digest →
    assetCommitment hasher normalize j.octets r.octets octets = .ok digest.octets
  /-- Two raw spellings have one commitment exactly when they have one canonical form, or the
  messages of their commitments collide. -/
  binds : ∀ j r left right first second,
    Core.Identity.canonicalizeBytes nfkd left = .ok first →
    Core.Identity.canonicalizeBytes nfkd right = .ok second →
    (commitment hasher j r first.octets = commitment hasher j r second.octets ↔ first = second) ∨
      Collides hasher.hash
        [commitmentMessage j r first.octets, commitmentMessage j r second.octets]
  portBinds : ∀ (j : Octets 4) (r : Octets 8) left right first second,
    Core.Identity.canonicalizeBytes nfkd left = .ok first →
    Core.Identity.canonicalizeBytes nfkd right = .ok second →
    (assetCommitmentFromRaw hasher normalize j.octets r.octets left =
        assetCommitmentFromRaw hasher normalize j.octets r.octets right ↔ first = second) ∨
      Collides hasher.hash
        [commitmentMessage j r first.octets, commitmentMessage j r second.octets]

variable {hasher : Hasher} {nfkd : List Char → List Char} {j : Octets 4} {r : Octets 8}

/-- The octets that have a commitment are the canonical ones. -/
theorem exists_commitment_iff {octets : List UInt8} :
    (∃ digest, commitment hasher j r octets = .ok digest) ↔ isCanonical octets := by
  constructor
  · rintro ⟨digest, hdigest⟩
    by_contra hcanonical
    rw [Core.Identity.commitment_of_not_canonical hcanonical] at hdigest
    cases hdigest
  · exact fun hcanonical ↦ ⟨_, Core.Identity.commitment_of_canonical hcanonical⟩

/-- The canonical octets are the results of canonicalization. -/
theorem isCanonical_iff_result (hnfkd : Decomposes nfkd) {octets : List UInt8} :
    isCanonical octets ↔ ∃ raw tenure,
      Core.Identity.canonicalizeBytes nfkd raw = .ok tenure ∧ tenure.octets = octets := by
  constructor
  · exact fun hcanonical ↦ ⟨octets, (Core.Identity.isCanonical_iff_exists hnfkd).mp hcanonical⟩
  · rintro ⟨raw, tenure, hread, rfl⟩
    exact Core.Identity.isCanonical_of_canonicalizeBytes hread

/-- The engine's commitment binds the canonical form. -/
theorem commitment_binds {left right : List UInt8} {first second : CanonicalTenure}
    (hleft : Core.Identity.canonicalizeBytes nfkd left = .ok first)
    (hright : Core.Identity.canonicalizeBytes nfkd right = .ok second) :
    (commitment hasher j r first.octets = commitment hasher j r second.octets ↔ first = second) ∨
      Collides hasher.hash
        [commitmentMessage j r first.octets, commitmentMessage j r second.octets] := by
  rw [Core.Identity.commitment_of_canonical
      (Core.Identity.isCanonical_of_canonicalizeBytes hleft),
    Core.Identity.commitment_of_canonical
      (Core.Identity.isCanonical_of_canonicalizeBytes hright), Except.ok.injEq]
  by_cases hsame : first = second
  · subst hsame
    exact .inl (iff_of_true rfl rfl)
  · by_cases hdigest : hasher.hash (commitmentMessage j r first.octets) =
        hasher.hash (commitmentMessage j r second.octets)
    · right
      refine collides_of_ne (by simp) (by simp) (fun hmessage ↦ hsame ?_) hdigest
      exact CanonicalTenure.ext (Core.Identity.commitmentMessage_injective hmessage)
    · exact .inl (iff_of_false hdigest hsame)

/-- The port commits to a raw spelling as the engine commits to its canonical form. -/
theorem assetCommitmentFromRaw_eq (hnfkd : Decomposes nfkd) {raw : List UInt8}
    {tenure : CanonicalTenure} (hread : Core.Identity.canonicalizeBytes nfkd raw = .ok tenure) :
    assetCommitmentFromRaw hasher nfkd j.octets r.octets raw =
      .ok (hasher.hash (commitmentMessage j r tenure.octets)).octets := by
  have hport : Canonical.canonicalizeBytes nfkd raw = .ok tenure.octets :=
    (canonicalizeBytes_eq_ok_iff hnfkd).mpr ⟨tenure, hread, rfl⟩
  rw [assetCommitmentFromRaw, hport, bind_ok]
  exact (assetCommitment_eq_ok_iff hnfkd).mpr ⟨_, Core.Identity.commitment_of_canonical
    (Core.Identity.isCanonical_of_canonicalizeBytes hread), rfl⟩

/-- Canonicalization is a projection onto what the commitments accept, in both languages. -/
theorem tenure_projection (hasher : Hasher) (nfkd normalize : List Char → List Char)
    (hnfkd : Decomposes nfkd) (hagree : ∀ text, normalize text = nfkd text) :
    TenureProjection hasher nfkd normalize := by
  obtain rfl : normalize = nfkd := funext hagree
  refine ⟨canonicalizeBytes_agree hnfkd, fun raw tenure hread ↦ ?_, fun octets ↦ ?_,
    fun j r octets ↦ ?_, fun j r octets ↦ ?_, fun j r octets digest hdigest ↦ ?_,
    fun j r left right first second hleft hright ↦ commitment_binds hleft hright,
    fun j r left right first second hleft hright ↦ ?_⟩
  · have hcanonical := Core.Identity.isCanonical_of_canonicalizeBytes hread
    obtain ⟨hnonempty, hlength, hoctets⟩ := Core.Identity.isCanonical_iff.mp hcanonical
    have hagain := Core.Identity.canonicalizeBytes_of_canonical hnfkd hcanonical
    refine ⟨List.length_pos_iff.mpr hnonempty, hlength, fun octet hoctet ↦ ?_, hagain,
      (canonicalizeBytes_eq_ok_iff hnfkd).mpr ⟨tenure, hagain, rfl⟩⟩
    simpa [isCapitalOrDigit] using hoctets octet hoctet
  · exact ⟨(isCanonicalTenure_iff hnfkd).symm, Core.Identity.isCanonical_iff_exists hnfkd⟩
  · rw [exists_commitment_iff]
    exact isCanonical_iff_result hnfkd
  · have hcommits : (∃ found, assetCommitment hasher normalize j.octets r.octets octets =
        .ok found) ↔ ∃ digest, commitment hasher j r octets = .ok digest := by
      simp only [assetCommitment_eq_ok_iff hnfkd]
      constructor
      · rintro ⟨found, digest, hdigest, -⟩
        exact ⟨digest, hdigest⟩
      · rintro ⟨digest, hdigest⟩
        exact ⟨_, digest, hdigest, rfl⟩
    simp only [hcommits, canonicalizeBytes_eq_ok_iff hnfkd]
    rw [exists_commitment_iff]
    exact isCanonical_iff_result hnfkd
  · exact (assetCommitment_eq_ok_iff hnfkd).mpr ⟨digest, hdigest, rfl⟩
  · have hcommits := @commitment_binds hasher normalize j r left right first second hleft hright
    rw [assetCommitmentFromRaw_eq hnfkd hleft, assetCommitmentFromRaw_eq hnfkd hright,
      Except.ok.injEq, Octets.octets_injective.eq_iff]
    rwa [Core.Identity.commitment_of_canonical
        (Core.Identity.isCanonical_of_canonicalizeBytes hleft),
      Core.Identity.commitment_of_canonical
        (Core.Identity.isCanonical_of_canonicalizeBytes hright), Except.ok.injEq] at hcommits

/-- The decomposition of texts in which `é` alone decomposes. -/
def decomposeAcute (text : List Char) : List Char :=
  text.flatMap fun ch ↦ if ch = 'é' then ['e', '\u0301'] else [ch]

theorem decomposes_acute : Decomposes decomposeAcute where
  ascii := by
    intro text htext
    induction text with
    | nil => rfl
    | cons ch text ih =>
      rw [List.forall_mem_cons] at htext
      have hplain : ch ≠ 'é' := by
        rintro rfl
        exact absurd htext.1 (by decide)
      rw [decomposeAcute, List.flatMap_cons, if_neg hplain, List.singleton_append]
      exact congrArg (ch :: ·) (ih htext.2)
  mark := fun _ ↦ rfl

/-- Behind a byte-order mark `é1` is canonicalized to `E1`, and on its decomposition all of it
holds. -/
theorem tenure_projection_acute :
    TenureProjection residueHasher decomposeAcute decomposeAcute ∧
      Core.Identity.canonicalizeBytes decomposeAcute [0xef, 0xbb, 0xbf, 0xc3, 0xa9, 0x31] =
        .ok ⟨[0x45, 0x31], by decide⟩ :=
  ⟨tenure_projection residueHasher decomposeAcute decomposeAcute decomposes_acute fun _ ↦ rfl, rfl⟩

end AnchoredLog.Port.TenureIdentity
