import AnchoredLog.Log.TreeCompleteness

/-!
# Signed promises and the batcher

`certimining-log`'s `promise.rs` and `batcher.rs`. A batcher takes leaves in, hands a signed
promise back for each, and seals its current epoch into a tree. An epoch holds at most the
tree's capacity; what arrives after that waits in an overflow queue and is promised the epoch it
will reach, as long as that epoch is within the merge delay. A counterparty checks a promise with
`verifyPromise`, and whether a published root keeps it with `promiseKept`.

A batcher carries the proof that its height is in range: `start`, the one way to make a batcher
from nothing, refuses any other height. The operations that mutate the batcher are `submit` and
`sealEpoch`; `perform_submit` and `perform_sealEpoch` separate what each decides (`promiseFor`,
`sealFor`) from the state it leaves (`admitted`, `advanced`), and a refusal leaves the state as
it was. `resume_snapshot` is the specification of a restart: the checks a snapshot passes are
met when its queues and identifiers are as a batcher keeps them (`WellQueued`).
-/

set_option autoImplicit false
set_option relaxedAutoImplicit false

namespace AnchoredLog.Log.Batcher

open Core.Preimages Library.ByteCodec Library.Fallible EpochTree TreeCompleteness

/-! ### Promises -/

/-- How many epochs past the promised one still satisfy a promise (§1.8). -/
def maxMergeDelay : UInt8 :=
  2

/-- An epoch's root as the caller obtained it from a published checkpoint. -/
structure PublishedRoot where
  epoch : UInt64
  root : Digest

/-- A batcher's promise (§1.6). -/
structure SignedPromise where
  /-- The exact leaf the promise binds. -/
  leaf : Digest
  submissionId : SubmissionId
  /-- The epoch the batcher accepted the submission in. -/
  acceptedEpoch : UInt64
  /-- The first epoch whose root may carry the leaf. -/
  promisedEpoch : UInt64
  maxMergeDelay : UInt8
  /-- The public half of the signing key, carried for display. -/
  batcherKey : PublicKey
  signature : Signature
deriving DecidableEq

/-- The digest §1.6 signs. -/
def promiseDigest (hasher : Hasher) (promise : SignedPromise) : Result Digest :=
  digest hasher (SpiPreimage.mk promise.leaf promise.submissionId promise.acceptedEpoch
    promise.promisedEpoch promise.maxMergeDelay)

/-- Checks a promise against the key the counterparty expects, the policy the specification
fixes, and the epoch the counterparty observed when the promise arrived. -/
def verifyPromise (hasher : Hasher) (verifier : Verifier) (promise : SignedPromise)
    (expectedBatcherKey : PublicKey) (observedEpoch : UInt64) : Result Unit := do
  require (promise.batcherKey = expectedBatcherKey) .attestationKeyMismatch
  require (promise.maxMergeDelay = maxMergeDelay) .promisePolicyInvalid
  let deferred ← okOr (checkedSub promise.promisedEpoch promise.acceptedEpoch)
    RegistryError.promisePolicyInvalid
  require (¬ maxMergeDelay.toNat < deferred.toNat) .promisePolicyInvalid
  let behind ← okOr (checkedSub observedEpoch promise.acceptedEpoch)
    RegistryError.promisePolicyInvalid
  require (¬ 1 < behind.toNat) .promisePolicyInvalid
  let digest ← promiseDigest hasher promise
  verifier.verify expectedBatcherKey digest.octets promise.signature

/-- Whether a published root keeps a promise: the proof is for that root's epoch, the epoch is
inside the promised window, and the path verifies for the promise's own leaf. -/
def promiseKept (hasher : Hasher) (promise : SignedPromise) (proof : InclusionProof)
    (published : PublishedRoot) : Result Unit := do
  require (proof.epoch = published.epoch) .inclusionProofInvalid
  let elapsed ← okOr (checkedSub published.epoch promise.promisedEpoch)
    RegistryError.mergeDelayExceeded
  require (¬ promise.maxMergeDelay.toNat < elapsed.toNat) .mergeDelayExceeded
  verify hasher promise.leaf proof published.root

/-! ### The batcher -/

/-- The batcher's private state. -/
@[ext] structure EpochBatcher where
  masterKey : Digest
  height : UInt8
  height_mem : minHeight ≤ height ∧ height ≤ maxHeight
  /-- The epoch being filled. -/
  epoch : UInt64
  /-- The next identifier to mint. -/
  nextSubmission : UInt64
  /-- The current epoch's submissions, in the order they arrived. -/
  pending : List (SubmissionId × Digest)
  /-- Everything promised a later epoch, in the order it arrived. -/
  overflow : List (SubmissionId × Digest)

/-- What a batcher carries across a restart. -/
structure BatcherSnapshot where
  epoch : UInt64
  nextSubmission : UInt64
  pending : List (SubmissionId × Digest)
  overflow : List (SubmissionId × Digest)

/-- A batcher starting at an epoch with nothing queued. -/
def start (masterKey : Digest) (height : UInt8) (epoch : UInt64) : Result EpochBatcher :=
  if hheight : minHeight ≤ height ∧ height ≤ maxHeight then
    return {
      masterKey := masterKey
      height := height
      height_mem := hheight
      epoch := epoch
      nextSubmission := 0
      pending := []
      overflow := [] }
  else
    throw .malformedPayload

/-- The counter an identifier was minted from: the low eight octets, the high ones being zero. -/
def ordinalOf (id : SubmissionId) : Result UInt64 := do
  let low ← okOr (Octets.slice? id.octets 0 8) RegistryError.malformedPayload
  require (¬ (id.octets.drop 8).any fun octet ↦ octet ≠ 0) .malformedPayload
  return UInt64.ofNat (leNat low.octets)

/-- The live identifiers are one ascending run that ends just below the counter. -/
def checkOrdinals (snapshot : BatcherSnapshot) (ordinals : List UInt64) : Result Unit :=
  match ordinals.head? with
  | some first => do
    let last ← okOr ordinals.getLast? RegistryError.malformedPayload
    let expectedLast ← okOr (checkedSub snapshot.nextSubmission 1) RegistryError.malformedPayload
    require (last = expectedLast) .malformedPayload
    let span ← okOr ((checkedSub last first).bind fun span ↦ checkedAdd span 1)
      RegistryError.malformedPayload
    require (span = UInt64.ofNat ordinals.length) .malformedPayload
    require (ordinals.IsChain fun left right ↦ checkedSub right left = some 1) .malformedPayload
  | none => require (snapshot.overflow = []) .malformedPayload

namespace EpochBatcher

/-- The number of slots of an epoch. -/
def capacity (self : EpochBatcher) : Result ℕ :=
  okOr (checkedShl usizeBits 1 self.height.toNat) .arithmeticOverflow

/-- Everything a restart needs. -/
def snapshot (self : EpochBatcher) : BatcherSnapshot where
  epoch := self.epoch
  nextSubmission := self.nextSubmission
  pending := self.pending
  overflow := self.overflow

/-- The identifier of a counter: eight octets, little-endian, and eight zeros. -/
def identifier (counter : UInt64) : SubmissionId :=
  ⟨leList 8 counter.toNat ++ List.replicate 8 0, by simp⟩

/-- The identifier the next submission would take, when the counter can advance past it. -/
def nextIdentifier (self : EpochBatcher) : Result SubmissionId := do
  let _ ← okOr (checkedAdd self.nextSubmission 1) RegistryError.arithmeticOverflow
  return identifier self.nextSubmission

/-- The epoch a submission arriving now can be promised: the current one while it has room, and
otherwise the one its place in the overflow queue reaches, if that is within the merge delay. -/
def promisedEpoch (self : EpochBatcher) : Result UInt64 := do
  let capacity ← self.capacity
  if self.pending.length < capacity then
    return self.epoch
  else
    let full ← okOr (checkedDiv self.overflow.length capacity) RegistryError.arithmeticOverflow
    let epochsAhead := full + 1
    require (¬ maxMergeDelay.toNat < epochsAhead) .epochCapacityExceeded
    require (epochsAhead < 2 ^ 64) .arithmeticOverflow
    okOr (checkedAdd self.epoch (UInt64.ofNat epochsAhead)) .arithmeticOverflow

end EpochBatcher

/-- A batcher continuing from a snapshot, which is checked before it is trusted. -/
def resume (masterKey : Digest) (height : UInt8) (snapshot : BatcherSnapshot) :
    Result EpochBatcher := do
  let batcher ← start masterKey height snapshot.epoch
  let capacity ← batcher.capacity
  require (¬ capacity < snapshot.pending.length) .malformedPayload
  let queueBound := capacity * maxMergeDelay.toNat
  require (¬ queueBound < snapshot.overflow.length) .malformedPayload
  require (¬ (snapshot.overflow ≠ [] ∧ snapshot.pending.length ≠ capacity)) .malformedPayload
  let ordinals ← (snapshot.pending ++ snapshot.overflow).mapM fun entry ↦ ordinalOf entry.1
  checkOrdinals snapshot ordinals
  return { batcher with
    nextSubmission := snapshot.nextSubmission
    pending := snapshot.pending
    overflow := snapshot.overflow }

/-- Mints an identifier, queues the leaf and returns its promise (§2.3). -/
def submit (hasher : Hasher) (leaf : Digest) (signer : Signer) :
    Mutation RegistryError EpochBatcher SignedPromise := do
  let self ← get
  let promisedEpoch ← self.promisedEpoch
  let capacity ← self.capacity
  let submissionId ← self.nextIdentifier
  let promise : SignedPromise := {
    leaf := leaf
    submissionId := submissionId
    acceptedEpoch := self.epoch
    promisedEpoch := promisedEpoch
    maxMergeDelay := maxMergeDelay
    batcherKey := signer.publicKey
    signature := Octets.zeros 64 }
  let digest ← promiseDigest hasher promise
  let signature ← signer.sign digest.octets
  let nextSubmission ← okOr (checkedAdd self.nextSubmission 1) RegistryError.arithmeticOverflow
  set { self with nextSubmission := nextSubmission }
  let self ← get
  if self.pending.length < capacity then
    set { self with pending := self.pending ++ [(submissionId, leaf)] }
  else
    set { self with overflow := self.overflow ++ [(submissionId, leaf)] }
  return { promise with signature := signature }

/-- Builds the tree of the current epoch, then advances and pulls what it can from the overflow
queue (§2.3). -/
def sealEpoch (hasher : Hasher) (epoch : UInt64) :
    Mutation RegistryError EpochBatcher BuiltEpoch := do
  let self ← get
  require (epoch = self.epoch) RegistryError.epochOutOfOrder
  let built ← build hasher epoch self.height self.masterKey self.pending
  let capacity ← self.capacity
  let nextEpoch ← okOr (checkedAdd epoch 1) RegistryError.arithmeticOverflow
  set { self with epoch := nextEpoch }
  let self ← get
  let moving := min capacity self.overflow.length
  set { self with
    pending := self.overflow.take moving
    overflow := self.overflow.drop moving }
  return built

/-! ### What a submission decides and what it leaves -/

section Submitting

variable (hasher : Hasher) (leaf : Digest) (signer : Signer)

/-- The promise a submission arriving now would get, without the commit. -/
def promiseFor (self : EpochBatcher) : Result SignedPromise := do
  let promisedEpoch ← self.promisedEpoch
  let submissionId ← self.nextIdentifier
  let promise : SignedPromise := {
    leaf := leaf
    submissionId := submissionId
    acceptedEpoch := self.epoch
    promisedEpoch := promisedEpoch
    maxMergeDelay := maxMergeDelay
    batcherKey := signer.publicKey
    signature := Octets.zeros 64 }
  let digest ← promiseDigest hasher promise
  let signature ← signer.sign digest.octets
  return { promise with signature := signature }

/-- The batcher once it has taken a leaf in. -/
def admitted (self : EpochBatcher) : EpochBatcher :=
  if self.pending.length < 2 ^ self.height.toNat then
    { self with
      nextSubmission := self.nextSubmission + 1
      pending := self.pending ++ [(EpochBatcher.identifier self.nextSubmission, leaf)] }
  else
    { self with
      nextSubmission := self.nextSubmission + 1
      overflow := self.overflow ++ [(EpochBatcher.identifier self.nextSubmission, leaf)] }

theorem admitted_masterKey (self : EpochBatcher) :
    (admitted leaf self).masterKey = self.masterKey := by
  rw [admitted]
  split <;> rfl

theorem admitted_height (self : EpochBatcher) :
    (admitted leaf self).height = self.height := by
  rw [admitted]
  split <;> rfl

theorem admitted_epoch (self : EpochBatcher) :
    (admitted leaf self).epoch = self.epoch := by
  rw [admitted]
  split <;> rfl

theorem admitted_nextSubmission (self : EpochBatcher) :
    (admitted leaf self).nextSubmission = self.nextSubmission + 1 := by
  rw [admitted]
  split <;> rfl

theorem capacity_eq (self : EpochBatcher) : self.capacity = .ok (2 ^ self.height.toNat) := by
  have hbounds := height_bounds self.height_mem
  rw [EpochBatcher.capacity, usizeBits, checkedShl_one (by omega), okOr_some]

theorem checkedAdd_one_of_nextIdentifier {self : EpochBatcher} {submissionId : SubmissionId}
    (hid : self.nextIdentifier = .ok submissionId) :
    submissionId = EpochBatcher.identifier self.nextSubmission ∧
      checkedAdd self.nextSubmission 1 = some (self.nextSubmission + 1) := by
  rw [EpochBatcher.nextIdentifier, okOr_bind_eq_ok_iff] at hid
  obtain ⟨next, hnext, heq⟩ := hid
  obtain ⟨-, rfl⟩ := checkedAdd_one_eq_some_iff.mp hnext
  exact ⟨(Except.ok.inj heq).symm, hnext⟩

/-- An accepted submission commits, and a refused one leaves the batcher as it was. -/
theorem perform_submit (self : EpochBatcher) :
    perform (submit hasher leaf signer) self =
      match promiseFor hasher leaf signer self with
      | .ok promise => (.ok promise, admitted leaf self)
      | .error error => (.error error, self) := by
  rw [submit, promiseFor]
  simp only [perform_bind, perform_get, perform_lift, perform_set, capacity_eq]
  cases self.promisedEpoch with
  | error error => rfl
  | ok promisedEpoch =>
  cases hid : self.nextIdentifier with
  | error error => rfl
  | ok submissionId =>
  obtain ⟨rfl, hnext⟩ := checkedAdd_one_of_nextIdentifier hid
  simp only [bind_ok, hnext, okOr_some]
  generalize promiseDigest hasher _ = digested
  cases digested with
  | error error => rfl
  | ok digest =>
  cases hsign : signer.sign digest.octets with
  | error error => simp only [hsign, bind_ok, bind_error]
  | ok signature =>
    simp only [hsign, bind_ok, pure_eq_ok, admitted]
    by_cases hroom : self.pending.length < 2 ^ self.height.toNat
    · simp only [hroom, ↓reduceIte, perform_bind, perform_set, perform_pure]
    · simp only [hroom, ↓reduceIte, perform_bind, perform_set, perform_pure]

/-- What the promise of an accepted submission says. -/
structure PromiseOf (batcher : EpochBatcher) (promise : SignedPromise) : Prop where
  leaf : promise.leaf = leaf
  submissionId : promise.submissionId = EpochBatcher.identifier batcher.nextSubmission
  acceptedEpoch : promise.acceptedEpoch = batcher.epoch
  maxMergeDelay : promise.maxMergeDelay = Batcher.maxMergeDelay
  batcherKey : promise.batcherKey = signer.publicKey
  signature : ∃ digest, promiseDigest hasher promise = .ok digest ∧
    signer.sign digest.octets = .ok promise.signature
  /-- The counter can advance. -/
  counter : batcher.nextSubmission.toNat + 1 < 2 ^ 64
  /-- A current epoch with room is promised. -/
  current : batcher.pending.length < 2 ^ batcher.height.toNat →
    promise.promisedEpoch = batcher.epoch
  /-- Otherwise the epoch the place in the queue reaches is promised, at most two ahead. -/
  queued : ¬ batcher.pending.length < 2 ^ batcher.height.toNat →
    promise.promisedEpoch.toNat =
        batcher.epoch.toNat + 1 + batcher.overflow.length / 2 ^ batcher.height.toNat ∧
      batcher.overflow.length / 2 ^ batcher.height.toNat ≤ 1

theorem promisedEpoch_of_full {self : EpochBatcher} {promised : UInt64}
    (hfull : ¬ self.pending.length < 2 ^ self.height.toNat)
    (hpromised : self.promisedEpoch = .ok promised) :
    promised.toNat = self.epoch.toNat + 1 + self.overflow.length / 2 ^ self.height.toNat ∧
      self.overflow.length / 2 ^ self.height.toNat ≤ 1 := by
  rw [EpochBatcher.promisedEpoch, capacity_eq, bind_ok, if_neg hfull,
    checkedDiv_of_pos (Nat.two_pow_pos _), okOr_some, bind_ok, bind_unit_eq_ok_iff,
    require_eq_ok_iff, bind_unit_eq_ok_iff, require_eq_ok_iff, okOr_eq_ok_iff,
    checkedAdd_eq_some_iff, UInt64.toNat_ofNat'] at hpromised
  obtain ⟨hdelay, hfits, hsum⟩ := hpromised
  have hbound : ¬ 2 < self.overflow.length / 2 ^ self.height.toNat + 1 := hdelay
  rw [Nat.mod_eq_of_lt hfits] at hsum
  omega

theorem promiseOf_of_promiseFor {self : EpochBatcher} {promise : SignedPromise}
    (hpromise : promiseFor hasher leaf signer self = .ok promise) :
    PromiseOf hasher leaf signer self promise := by
  rw [promiseFor, bind_eq_ok_iff] at hpromise
  obtain ⟨promisedEpoch, hpromised, hpromise⟩ := hpromise
  rw [bind_eq_ok_iff] at hpromise
  obtain ⟨submissionId, hid, hpromise⟩ := hpromise
  obtain ⟨rfl, hnext⟩ := checkedAdd_one_of_nextIdentifier hid
  rw [bind_eq_ok_iff] at hpromise
  obtain ⟨digest, hdigest, hpromise⟩ := hpromise
  rw [bind_eq_ok_iff] at hpromise
  obtain ⟨signature, hsignature, hpromise⟩ := hpromise
  obtain rfl := Except.ok.inj hpromise
  refine ⟨rfl, rfl, rfl, rfl, rfl, ⟨digest, hdigest, hsignature⟩,
    (checkedAdd_one_eq_some_iff.mp hnext).1, ?_, ?_⟩
  · intro hroom
    rw [EpochBatcher.promisedEpoch, capacity_eq, bind_ok, if_pos hroom] at hpromised
    exact (Except.ok.inj hpromised).symm
  · intro hfull
    exact promisedEpoch_of_full hfull hpromised

end Submitting

/-! ### What a seal decides and what it leaves -/

section Sealing

variable (hasher : Hasher) (epoch : UInt64)

/-- The tree a seal would return, without the commit. -/
def sealFor (self : EpochBatcher) : Result BuiltEpoch := do
  require (epoch = self.epoch) .epochOutOfOrder
  let built ← build hasher epoch self.height self.masterKey self.pending
  let _ ← okOr (checkedAdd epoch 1) RegistryError.arithmeticOverflow
  return built

/-- The batcher once its epoch is sealed. -/
def advanced (self : EpochBatcher) : EpochBatcher :=
  { self with
    epoch := self.epoch + 1
    pending := self.overflow.take (2 ^ self.height.toNat)
    overflow := self.overflow.drop (2 ^ self.height.toNat) }

/-- A seal that returns a tree commits, and a refused one leaves the batcher as it was. -/
theorem perform_sealEpoch (self : EpochBatcher) :
    perform (sealEpoch hasher epoch) self =
      match sealFor hasher epoch self with
      | .ok built => (.ok built, advanced self)
      | .error error => (.error error, self) := by
  rw [sealEpoch, sealFor]
  simp only [perform_bind, perform_get, perform_lift, perform_set, perform_pure, capacity_eq]
  by_cases hepoch : epoch = self.epoch
  · subst hepoch
    rw [require_of_true rfl, bind_ok]
    cases build hasher self.epoch self.height self.masterKey self.pending with
    | error error => rfl
    | ok built =>
      rw [bind_ok]
      cases hnext : checkedAdd self.epoch 1 with
      | none => rfl
      | some next =>
        obtain ⟨-, rfl⟩ := checkedAdd_one_eq_some_iff.mp hnext
        rw [okOr_some, bind_ok, pure_eq_ok]
        have htake : self.overflow.take (min (2 ^ self.height.toNat) self.overflow.length) =
            self.overflow.take (2 ^ self.height.toNat) := by
          rw [List.take_eq_take_iff]
          omega
        have hdrop : self.overflow.drop (min (2 ^ self.height.toNat) self.overflow.length) =
            self.overflow.drop (2 ^ self.height.toNat) := by
          rw [List.drop_eq_drop_iff]
          omega
        simp only [htake, hdrop, advanced]
  · rw [require_of_false hepoch, bind_error]

theorem sealFor_eq_ok_iff {self : EpochBatcher} {built : BuiltEpoch} :
    sealFor hasher epoch self = .ok built ↔
      epoch = self.epoch ∧ epoch.toNat + 1 < 2 ^ 64 ∧
        build hasher epoch self.height self.masterKey self.pending = .ok built := by
  rw [sealFor, bind_unit_eq_ok_iff, require_eq_ok_iff, bind_eq_ok_iff]
  constructor
  · rintro ⟨hepoch, tree, hbuild, hrest⟩
    rw [okOr_bind_eq_ok_iff] at hrest
    obtain ⟨next, hnext, heq⟩ := hrest
    obtain rfl := Except.ok.inj heq
    exact ⟨hepoch, (checkedAdd_one_eq_some_iff.mp hnext).1, hbuild⟩
  · rintro ⟨hepoch, hfits, hbuild⟩
    refine ⟨hepoch, built, hbuild, ?_⟩
    rw [checkedAdd_one_eq_some_iff.mpr ⟨hfits, rfl⟩, okOr_some, bind_ok]
    rfl

end Sealing

/-! ### Restarting from a snapshot -/

theorem leNat_identifier (counter : UInt64) :
    leNat ((EpochBatcher.identifier counter).octets.take 8) = counter.toNat := by
  have hlow : (EpochBatcher.identifier counter).octets.take 8 = leList 8 counter.toNat :=
    List.take_left' (length_leList 8 _)
  rw [hlow, leNat_leList]
  exact Nat.mod_eq_of_lt counter.toNat_lt

theorem identifier_injective : Function.Injective EpochBatcher.identifier := by
  intro left right heq
  apply UInt64.toNat_inj.mp
  rw [← leNat_identifier left, ← leNat_identifier right, heq]

/-- The counter is read back from the identifier it minted. -/
theorem ordinalOf_identifier (counter : UInt64) :
    ordinalOf (EpochBatcher.identifier counter) = .ok counter := by
  have hlength : ((EpochBatcher.identifier counter).octets.take 8).length = 8 := by simp
  have hslice : Octets.slice? (EpochBatcher.identifier counter).octets 0 8 =
      some ⟨(EpochBatcher.identifier counter).octets.take 8, hlength⟩ := by
    rw [Octets.slice?, dif_pos (by rw [List.drop_zero, hlength])]
    simp
  have hhigh : (EpochBatcher.identifier counter).octets.drop 8 = List.replicate 8 0 :=
    List.drop_left' (length_leList 8 _)
  rw [ordinalOf, hslice, okOr_some, bind_ok, require_of_true (by rw [hhigh]; decide), bind_ok,
    leNat_identifier, pure_eq_ok, UInt64.ofNat_toNat]

/-- The queues of a batcher: the current epoch no fuller than its capacity, nothing waiting beside
a current epoch with room, no more waiting than the merge delay absorbs, and the live identifiers
those just below the counter, in order. -/
structure WellQueued (batcher : EpochBatcher) : Prop where
  pending_le : batcher.pending.length ≤ 2 ^ batcher.height.toNat
  overflow_le : batcher.overflow.length ≤ 2 ^ batcher.height.toNat * 2
  full : batcher.overflow ≠ [] → batcher.pending.length = 2 ^ batcher.height.toNat
  identifiers : ∃ oldest, (batcher.pending ++ batcher.overflow).map Prod.fst =
      (List.range' oldest (batcher.pending ++ batcher.overflow).length).map
        (fun counter ↦ EpochBatcher.identifier (UInt64.ofNat counter)) ∧
    oldest + (batcher.pending ++ batcher.overflow).length = batcher.nextSubmission.toNat

/-- A run of consecutive counters that ends just below the next one passes the check. -/
theorem checkOrdinals_eq {snapshot : BatcherSnapshot} {oldest count : ℕ}
    (hnext : oldest + count = snapshot.nextSubmission.toNat)
    (hempty : count = 0 → snapshot.overflow = []) :
    checkOrdinals snapshot ((List.range' oldest count).map UInt64.ofNat) = .ok () := by
  have hbound := snapshot.nextSubmission.toNat_lt
  have hnumber : ∀ counter < 2 ^ 64, (UInt64.ofNat counter).toNat = counter :=
    fun counter hcounter ↦ by rw [UInt64.toNat_ofNat', Nat.mod_eq_of_lt hcounter]
  rw [checkOrdinals]
  cases count with
  | zero => simpa using hempty rfl
  | succ count =>
    have hlast : ((List.range' oldest (count + 1)).map UInt64.ofNat).getLast? =
        some (UInt64.ofNat (oldest + count)) := by
      rw [List.range'_concat, List.map_append, List.map_cons, List.map_nil,
        List.getLast?_concat, one_mul]
    have hexpected : checkedSub snapshot.nextSubmission 1 = some (UInt64.ofNat (oldest + count)) :=
      checkedSub_eq_some_iff.mpr (by
        rw [hnumber _ (by omega), ← hnext]
        rfl)
    have hspan : checkedSub (UInt64.ofNat (oldest + count)) (UInt64.ofNat oldest) =
        some (UInt64.ofNat count) :=
      checkedSub_eq_some_iff.mpr (by
        rw [hnumber _ (by omega), hnumber _ (by omega), hnumber _ (by omega)]
        omega)
    have hcount : checkedAdd (UInt64.ofNat count) 1 = some (UInt64.ofNat (count + 1)) :=
      checkedAdd_eq_some_iff.mpr (by
        rw [hnumber _ (by omega), hnumber _ (by omega)]
        rfl)
    have hchain : ((List.range' oldest (count + 1)).map UInt64.ofNat).IsChain
        fun left right ↦ checkedSub right left = some 1 := by
      rw [List.isChain_map, List.isChain_iff_getElem]
      intro position hposition
      rw [List.length_range'] at hposition
      refine checkedSub_eq_some_iff.mpr ?_
      rw [List.getElem_range', List.getElem_range', hnumber _ (by omega), hnumber _ (by omega)]
      have hone : (1 : UInt64).toNat = 1 := rfl
      omega
    rw [List.range'_succ, List.map_cons, List.head?_cons, ← List.map_cons, ← List.range'_succ]
    simp only [hlast, hexpected, hspan, hcount, okOr_some, bind_ok, Option.bind_some]
    rw [require_of_true trivial, bind_ok, List.length_map, List.length_range',
      require_of_true rfl, bind_ok, require_of_true hchain]

/-- A restart from a batcher's own snapshot is never refused and gives the batcher back. -/
theorem resume_snapshot {self : EpochBatcher} (hqueued : WellQueued self) :
    resume self.masterKey self.height self.snapshot = .ok self := by
  obtain ⟨oldest, hids, hnext⟩ := hqueued.identifiers
  have hordinals : (self.pending ++ self.overflow).mapM (fun entry ↦ ordinalOf entry.1) =
      .ok ((List.range' oldest (self.pending ++ self.overflow).length).map UInt64.ofNat) := by
    have hmap : ((self.pending ++ self.overflow).map Prod.fst).mapM ordinalOf =
        (self.pending ++ self.overflow).mapM (fun entry ↦ ordinalOf entry.1) := by
      rw [List.mapM_map]
      rfl
    rw [← hmap, hids, List.mapM_map]
    exact mapM_eq_ok_map _ fun counter _ ↦ ordinalOf_identifier _
  have hempty : (self.pending ++ self.overflow).length = 0 → self.overflow = [] := by
    intro hzero
    exact (List.append_eq_nil_iff.mp (List.eq_nil_of_length_eq_zero hzero)).2
  have hpending : ¬ 2 ^ self.height.toNat < self.snapshot.pending.length :=
    not_lt.mpr hqueued.pending_le
  have hoverflow : ¬ 2 ^ self.height.toNat * maxMergeDelay.toNat < self.snapshot.overflow.length :=
    not_lt.mpr hqueued.overflow_le
  have hbeside : ¬ (self.snapshot.overflow ≠ [] ∧
      self.snapshot.pending.length ≠ 2 ^ self.height.toNat) :=
    fun hboth ↦ hboth.2 (hqueued.full hboth.1)
  have hchecked : checkOrdinals self.snapshot
      ((List.range' oldest (self.pending ++ self.overflow).length).map UInt64.ofNat) = .ok () :=
    checkOrdinals_eq hnext hempty
  rw [resume]
  refine bind_eq_ok_iff.mpr ⟨_, dif_pos self.height_mem, ?_⟩
  refine bind_eq_ok_iff.mpr ⟨_, capacity_eq _, ?_⟩
  refine bind_unit_eq_ok_iff.mpr ⟨require_of_true hpending, ?_⟩
  refine bind_unit_eq_ok_iff.mpr ⟨require_of_true hoverflow, ?_⟩
  refine bind_unit_eq_ok_iff.mpr ⟨require_of_true hbeside, ?_⟩
  exact bind_eq_ok_iff.mpr ⟨_, hordinals, bind_unit_eq_ok_iff.mpr ⟨hchecked, rfl⟩⟩

end AnchoredLog.Log.Batcher
