import AnchoredLog.Log.Batcher
import AnchoredLog.Port.TreeAgreement

/-!
# The TypeScript promises

`promise.ts`: how the port judges a signed promise, and whether a published root keeps it. The
engine measures its windows by checked subtraction of 64-bit epochs, the port by addition of
integers, and the two judge the windows in different orders.

`window_eq` reads the engine's two steps as one range of natural numbers, so that no epoch wraps;
what remains is a comparison of ranges. All refusals of a window carry one code, so that the order
in which several broken rules are found does not show. `port_promises_agree` is the result.
-/

set_option autoImplicit false
set_option relaxedAutoImplicit false

namespace AnchoredLog.Port.Promise

open Core.Preimages Library.ByteCodec Library.Fallible Library.Agreement Primitives TreeAgreement
open Log.EpochTree Log.TreeCompleteness

/-! ### The port -/

/-- `MAX_MERGE_DELAY`. -/
def maxMergeDelay : ℤ :=
  2

/-- A promise as the port takes it. -/
structure SignedPromise where
  leaf : List UInt8
  submissionId : List UInt8
  acceptedEpoch : ℤ
  promisedEpoch : ℤ
  maxMergeDelay : ℤ
  batcherKey : List UInt8
  signature : List UInt8

/-- A published root as the port takes it. -/
structure PublishedRoot where
  epoch : ℤ
  root : List UInt8

def spiPreimage (p : SignedPromise) : Thrown (List UInt8) := do
  orFail (¬ (p.maxMergeDelay < 0 ∨ 255 < p.maxMergeDelay)) .MalformedPayload
    "max_merge_delay is a u8"
  let leaf ← fixed "leaf" p.leaf 32
  let submissionId ← fixed "submission id" p.submissionId 16
  let accepted ← u64le p.acceptedEpoch
  let promised ← u64le p.promisedEpoch
  buildPreimage tagSpi.octets [leaf, submissionId, accepted, promised,
    [UInt8.ofNat p.maxMergeDelay.toNat]]

/-- The digest the batcher signs. -/
def spiDigest (hasher : Hasher) (p : SignedPromise) : Thrown (List UInt8) := do
  let preimage ← spiPreimage p
  return keccak256 hasher preimage

/-- Checks a promise against the key the counterparty expects, the policy and the epoch it
observed. -/
def verifyPromise (hasher : Hasher) (verifier : Verifier) (promise : SignedPromise)
    (expectedBatcherKey : List UInt8) (observedEpoch : ℤ) : Thrown Unit := do
  orFail (bytesEqual promise.batcherKey expectedBatcherKey) .AttestationKeyMismatch
    "the promise names a batcher key the counterparty does not expect"
  orFail (promise.maxMergeDelay = maxMergeDelay) .PromisePolicyInvalid
    ("max_merge_delay " ++ toString promise.maxMergeDelay ++ ", and INV-SPI-01 fixes it at " ++
      toString maxMergeDelay)
  orFail (¬ (observedEpoch < promise.acceptedEpoch ∨ promise.acceptedEpoch + 1 < observedEpoch))
    .PromisePolicyInvalid ("accepted_epoch " ++ toString promise.acceptedEpoch ++
      " against an observed " ++ toString observedEpoch)
  orFail (¬ (promise.promisedEpoch < promise.acceptedEpoch ∨
      promise.acceptedEpoch + promise.maxMergeDelay < promise.promisedEpoch))
    .PromisePolicyInvalid ("promised_epoch " ++ toString promise.promisedEpoch ++
      " is outside the accepted window")
  let digest ← spiDigest hasher promise
  orFail (ed25519Verify verifier promise.batcherKey digest promise.signature)
    .AttestationInvalid "the promise's signature does not verify over the SPI digest"

/-- Whether a published root keeps a promise. -/
def promiseKept (hasher : Hasher) (promise : SignedPromise) (proof : Tree.InclusionProof)
    (published : PublishedRoot) : Thrown Unit := do
  orFail (proof.epoch = published.epoch) .InclusionProofInvalid
    "the proof is for a different epoch than the root"
  let windowEnd := promise.promisedEpoch + promise.maxMergeDelay
  orFail (¬ (published.epoch < promise.promisedEpoch ∨ windowEnd < published.epoch))
    .MergeDelayExceeded ("epoch " ++ toString published.epoch ++ " is outside " ++
      toString promise.promisedEpoch ++ ".." ++ toString windowEnd)
  Tree.verifyInclusion hasher promise.leaf proof published.root

/-! ### The engine's values as the port takes them -/

def promiseOf (promise : Log.Batcher.SignedPromise) : SignedPromise where
  leaf := promise.leaf.octets
  submissionId := promise.submissionId.octets
  acceptedEpoch := promise.acceptedEpoch.toNat
  promisedEpoch := promise.promisedEpoch.toNat
  maxMergeDelay := promise.maxMergeDelay.toNat
  batcherKey := promise.batcherKey.octets
  signature := promise.signature.octets

def publishedOf (published : Log.Batcher.PublishedRoot) : PublishedRoot where
  epoch := published.epoch.toNat
  root := published.root.octets

theorem spiPreimage_eq (preimage : SpiPreimage) (batcherKey signature : List UInt8) :
    spiPreimage
        { leaf := preimage.leaf.octets
          submissionId := preimage.submissionId.octets
          acceptedEpoch := preimage.acceptedEpoch.toNat
          promisedEpoch := preimage.promisedEpoch.toNat
          maxMergeDelay := preimage.maxMergeDelay.toNat
          batcherKey := batcherKey
          signature := signature } =
      .ok preimage.fields.flatten := by
  have hdelay := preimage.maxMergeDelay.toNat_lt
  rw [spiPreimage, orFail_of_true (by dsimp only; omega), bind_ok, fixed_eq, bind_ok, fixed_eq,
    bind_ok, u64le_eq, bind_ok, u64le_eq, bind_ok, Int.toNat_natCast, UInt8.ofNat_toNat]
  exact buildPreimage_eq (by simp [maxPreimageLength])

/-- The two digests a batcher signs are one. -/
theorem spiDigest_eq (hasher : Hasher) (promise : Log.Batcher.SignedPromise) :
    ∃ digest : Digest, Log.Batcher.promiseDigest hasher promise = .ok digest ∧
      spiDigest hasher (promiseOf promise) = .ok digest.octets := by
  have hwrites := spiPreimage_eq ⟨promise.leaf, promise.submissionId, promise.acceptedEpoch,
    promise.promisedEpoch, promise.maxMergeDelay⟩ promise.batcherKey.octets
    promise.signature.octets
  refine ⟨_, digest_spi hasher _, ?_⟩
  rw [spiDigest, promiseOf, hwrites]
  rfl

/-! ### Windows -/

/-- A checked difference that is then bounded is a range of the first epoch. -/
theorem window_eq {Value : Type} (later earlier : UInt64) (bound : ℕ) (error : RegistryError)
    (rest : Result Value) :
    (okOr (checkedSub later earlier) error >>= fun elapsed ↦
        require (¬ bound < elapsed.toNat) error >>= fun _ ↦ rest) =
      require (earlier.toNat ≤ later.toNat ∧ later.toNat ≤ earlier.toNat + bound) error >>=
        fun _ ↦ rest := by
  cases hdifference : checkedSub later earlier with
  | none =>
    rw [checkedSub_eq_none_iff] at hdifference
    rw [okOr_none, bind_error, require_of_false (by omega), bind_error]
  | some elapsed =>
    rw [checkedSub_eq_some_iff] at hdifference
    rw [okOr_some, bind_ok]
    by_cases hwithin : bound < elapsed.toNat
    · rw [require_of_false (not_not.mpr hwithin), require_of_false (by omega)]
    · rw [require_of_true hwithin, require_of_true (by omega)]

theorem verifyPromise_eq (hasher : Hasher) (verifier : Verifier)
    (promise : Log.Batcher.SignedPromise) (expected : PublicKey) (observed : UInt64) :
    Log.Batcher.verifyPromise hasher verifier promise expected observed = (do
      require (promise.batcherKey = expected) .attestationKeyMismatch
      require (promise.maxMergeDelay = Log.Batcher.maxMergeDelay) .promisePolicyInvalid
      require (promise.acceptedEpoch.toNat ≤ promise.promisedEpoch.toNat ∧
        promise.promisedEpoch.toNat ≤ promise.acceptedEpoch.toNat + 2) .promisePolicyInvalid
      require (promise.acceptedEpoch.toNat ≤ observed.toNat ∧
        observed.toNat ≤ promise.acceptedEpoch.toNat + 1) .promisePolicyInvalid
      let digest ← Log.Batcher.promiseDigest hasher promise
      verifier.verify expected digest.octets promise.signature) := by
  unfold Log.Batcher.verifyPromise
  rw [window_eq, window_eq]
  rfl

/-! ### Agreement -/

/-- Nothing is returned on success. -/
def SameUnit (_ _ : Unit) : Prop :=
  True

section Agreement

variable (hasher : Hasher)

/-- The two verifiers of a proof accept alike and refuse with one code. -/
theorem agree_verify (leaf : Digest) (proof : InclusionProof) (root : Digest) :
    Agree SameCode SameUnit (verify hasher leaf proof root)
      (Tree.verifyInclusion hasher leaf.octets (proofOf proof) root.octets) := by
  have hheight := height_iff proof.height
  rw [verify, Tree.verifyInclusion]
  refine Agree.require_bind hheight rfl fun hmem ↦ ?_
  have hbounds := height_bounds hmem
  refine Agree.require_bind ?_ rfl fun hsiblings ↦ ?_
  · change _ ↔ (((proof.siblings.digests.map Octets.octets).length : ℕ) : ℤ) = _
    rw [List.length_map]
    exact Nat.cast_inj.symm
  rw [checkedShl_one (by omega), okOr_some, bind_ok]
  refine Agree.require_bind ?_ rfl fun hslot ↦ ?_
  · change _ ↔ ¬ ((proof.slotIndex.toNat : ℤ) < 0 ∨
      Tree.capacityOf (proof.height.toNat : ℤ) ≤ (proof.slotIndex.toNat : ℤ))
    rw [TreeAgreement.capacityOf_eq hmem]
    omega
  have hloop := @foldlM_verifyLevel_port hasher proof.slotIndex.toNat 0
    (hasher.hash (realLeafMessage leaf)) proof.siblings.digests
  rw [pow_zero, Nat.div_one] at hloop
  rw [digest_realLeaf, bind_ok, foldlM_verifyLevel, bind_ok, realLeaf_port, bind_ok]
  change Agree _ _ _ (((proof.siblings.digests.map Octets.octets).zipIdx 0).foldlM
    (Tree.verifyLevel hasher proof.slotIndex.toNat) _ >>= _)
  rw [hloop, bind_ok]
  refine Agree.require ?_ rfl
  rw [bytesEqual_octets, decide_eq_true_iff]
  exact Iff.rfl

/-- The two judges of a promise accept alike and refuse with one code. -/
theorem agree_verifyPromise (verifier : Verifier) (promise : Log.Batcher.SignedPromise)
    (expected : PublicKey) (observed : UInt64) :
    Agree SameCode SameUnit (Log.Batcher.verifyPromise hasher verifier promise expected observed)
      (verifyPromise hasher verifier (promiseOf promise) expected.octets observed.toNat) := by
  obtain ⟨digest, hdigest, hport⟩ := spiDigest_eq hasher promise
  rw [verifyPromise_eq, verifyPromise]
  refine Agree.require_bind ?_ rfl fun hkey ↦ ?_
  · change _ ↔ bytesEqual promise.batcherKey.octets expected.octets = true
    rw [bytesEqual_octets, decide_eq_true_iff]
  refine Agree.require_bind ?_ rfl fun hdelay ↦ ?_
  · change _ ↔ (promise.maxMergeDelay.toNat : ℤ) = 2
    rw [← UInt8.toNat_inj]
    change promise.maxMergeDelay.toNat = 2 ↔ _
    omega
  have htwo : promise.maxMergeDelay.toNat = 2 := congrArg UInt8.toNat hdelay
  refine Agree.require_bind_comm ?_ ?_ rfl rfl fun hwindow hobserved ↦ ?_
  · change _ ↔ ¬ ((promise.promisedEpoch.toNat : ℤ) < promise.acceptedEpoch.toNat ∨
      (promise.acceptedEpoch.toNat : ℤ) + promise.maxMergeDelay.toNat <
        promise.promisedEpoch.toNat)
    omega
  · change _ ↔ ¬ ((observed.toNat : ℤ) < promise.acceptedEpoch.toNat ∨
      (promise.acceptedEpoch.toNat : ℤ) + 1 < observed.toNat)
    omega
  rw [hdigest, bind_ok, hport, bind_ok]
  refine Agree.require ?_ rfl
  change _ ↔ ed25519Verify verifier promise.batcherKey.octets digest.octets
    promise.signature.octets = true
  rw [ed25519Verify_octets, hkey]

/-- The two judges of a kept promise accept alike and refuse with one code. -/
theorem agree_promiseKept (promise : Log.Batcher.SignedPromise) (proof : InclusionProof)
    (published : Log.Batcher.PublishedRoot) :
    Agree SameCode SameUnit (Log.Batcher.promiseKept hasher promise proof published)
      (promiseKept hasher (promiseOf promise) (proofOf proof) (publishedOf published)) := by
  rw [Log.Batcher.promiseKept, window_eq, promiseKept]
  refine Agree.require_bind ?_ rfl fun hepoch ↦ ?_
  · change _ ↔ (proof.epoch.toNat : ℤ) = published.epoch.toNat
    rw [← UInt64.toNat_inj, Nat.cast_inj]
  refine Agree.require_bind ?_ rfl fun hwindow ↦ ?_
  · change _ ↔ ¬ ((published.epoch.toNat : ℤ) < promise.promisedEpoch.toNat ∨
      (promise.promisedEpoch.toNat : ℤ) + promise.maxMergeDelay.toNat < published.epoch.toNat)
    omega
  exact agree_verify hasher promise.leaf proof published.root

end Agreement

/-- The engine and its port judge promises alike: on every promise, expected key and observed
epoch, and on every proof and published root, both accept or both refuse with one code. -/
theorem port_promises_agree (hasher : Hasher) (verifier : Verifier) :
    (∀ promise expected observed,
      Agree SameCode SameUnit (Log.Batcher.verifyPromise hasher verifier promise expected observed)
        (verifyPromise hasher verifier (promiseOf promise) expected.octets observed.toNat)) ∧
    ∀ promise proof published,
      Agree SameCode SameUnit (Log.Batcher.promiseKept hasher promise proof published)
        (promiseKept hasher (promiseOf promise) (proofOf proof) (publishedOf published)) :=
  ⟨agree_verifyPromise hasher verifier, agree_promiseKept hasher⟩

end AnchoredLog.Port.Promise
