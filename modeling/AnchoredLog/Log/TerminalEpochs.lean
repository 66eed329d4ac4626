import AnchoredLog.Log.Snapshots

/-!
# Promises at the end of the epoch counter

A promise can be kept when the epochs up to the promised one can be sealed. The promised epoch is
computed with checked arithmetic and may be the greatest number of its width; sealing advances past
the sealed epoch with checked arithmetic, so that one cannot be sealed. `keepable_iff` says that
every other promise can be kept, whatever is submitted in between, and that a promise of that epoch
cannot.
-/

set_option autoImplicit false
set_option relaxedAutoImplicit false

namespace AnchoredLog.Log.TerminalEpochs

open Core.Preimages Library.ByteCodec Library.Fallible EpochTree Batcher Snapshots

/-! ### Reachable batchers -/

section Reachable

variable (hasher : Hasher) (masterKey : Digest) (height : UInt8)

/-- The batchers that can be reached: from a start at any epoch or a restart from any accepted
snapshot, by submissions and seals, accepted or refused. -/
inductive Reachable : EpochBatcher → Prop
  | start {epoch : UInt64} {batcher : EpochBatcher}
      (hstarted : start masterKey height epoch = .ok batcher) : Reachable batcher
  | resume {snapshot : BatcherSnapshot} {batcher : EpochBatcher}
      (hresumed : resume masterKey height snapshot = .ok batcher) : Reachable batcher
  | submit {batcher : EpochBatcher} (hreachable : Reachable batcher) (leaf : Digest)
      (signer : Signer) : Reachable (perform (submit hasher leaf signer) batcher).2
  | sealEpoch {batcher : EpochBatcher} (hreachable : Reachable batcher) (epoch : UInt64) :
      Reachable (perform (sealEpoch hasher epoch) batcher).2

variable {hasher masterKey height}

theorem Reachable.wellQueued {batcher : EpochBatcher}
    (hreachable : Reachable hasher masterKey height batcher) : WellQueued batcher := by
  induction hreachable with
  | @start epoch batcher hstarted =>
    rw [Batcher.start] at hstarted
    split at hstarted
    · next hheight =>
      obtain rfl := Except.ok.inj hstarted
      exact ⟨Nat.zero_le _, Nat.zero_le _, fun hne ↦ absurd rfl hne, 0, rfl, rfl⟩
    · cases hstarted
  | resume hresumed =>
    obtain ⟨hformed, -, rfl, rfl⟩ := resume_eq_ok_iff.mp hresumed
    exact wellQueued_iff.mpr hformed
  | submit hreachable leaf signer ih => exact wellQueued_submit ih leaf signer
  | sealEpoch hreachable epoch ih => exact wellQueued_sealEpoch ih epoch

end Reachable

/-! ### Promises that can be kept -/

/-- The epochs from the current one to the promised one can be sealed in order, whatever is
submitted before each seal. -/
def Keepable (hasher : Hasher) (promise : SignedPromise) (batcher : EpochBatcher) : Prop :=
  ∀ rounds : List (List (Digest × Signer)),
    rounds.length = promise.promisedEpoch.toNat + 1 - batcher.epoch.toNat →
      ∃ trees final, sealInOrder hasher batcher.epoch batcher rounds = .ok (trees, final)

/-- The epoch that the next submission has a place in: the current one while it has room, and
otherwise the one its place in the queue reaches. -/
def nextPlace (batcher : EpochBatcher) : ℕ :=
  if batcher.pending.length < 2 ^ batcher.height.toNat then batcher.epoch.toNat
  else batcher.epoch.toNat + 1 + batcher.overflow.length / 2 ^ batcher.height.toNat

theorem toNat_promisedEpoch {hasher : Hasher} {leaf : Digest} {signer : Signer}
    {promise : SignedPromise} {batcher : EpochBatcher}
    (hpromise : PromiseOf hasher leaf signer batcher promise) :
    promise.promisedEpoch.toNat = nextPlace batcher := by
  unfold nextPlace
  split
  · next hroom => rw [hpromise.current hroom]
  · next hfull => exact (hpromise.queued hfull).1

/-- A promise can be kept exactly when the place of its submission is before the last epoch of the
counter. -/
theorem keepable_iff (hasher : Hasher) (masterKey : Digest) (height : UInt8)
    (batcher : EpochBatcher) (hreachable : Reachable hasher masterKey height batcher)
    (leaf : Digest) (signer : Signer) (promise : SignedPromise) (next : EpochBatcher)
    (hsubmitted : perform (submit hasher leaf signer) batcher = (.ok promise, next)) :
    Keepable hasher promise next ↔ nextPlace batcher < 2 ^ 64 - 1 := by
  have hqueued := hreachable.wellQueued
  rw [perform_submit] at hsubmitted
  cases hpromised : promiseFor hasher leaf signer batcher with
  | error error => simp [hpromised] at hsubmitted
  | ok issued =>
    rw [hpromised] at hsubmitted
    obtain ⟨hissued, rfl⟩ := Prod.mk.inj hsubmitted
    obtain rfl := Except.ok.inj hissued
    have hpromise := promiseOf_of_promiseFor hasher leaf signer hpromised
    have hplace := toNat_promisedEpoch hpromise
    have hepoch := admitted_epoch leaf batcher
    have hahead : batcher.epoch.toNat ≤ nextPlace batcher := by
      unfold nextPlace
      split
      · exact le_rfl
      · exact (Nat.le_succ _).trans (Nat.le_add_right _ _)
    constructor
    · intro hkeepable
      obtain ⟨trees, final, hsealed⟩ := hkeepable
        (List.replicate (issued.promisedEpoch.toNat + 1 - batcher.epoch.toNat) [])
        (by rw [List.length_replicate, hepoch])
      have hfits := lt_of_sealInOrder hsealed
      rw [List.length_replicate, hepoch] at hfits
      omega
    · intro hbefore rounds hrounds
      refine exists_sealInOrder (wellQueued_admitted hqueued hpromise) rounds ?_
      rw [hrounds, hepoch]
      omega

/-! ### The last epoch -/

/-- A signer whose signatures are zeros. -/
def zeroSigner : Signer :=
  ⟨Octets.zeros 32, fun _ ↦ .ok (Octets.zeros 64)⟩

/-- A batcher that starts at an epoch. -/
def freshBatcher (epoch : UInt64) : EpochBatcher :=
  ⟨Octets.zeros 32, 4, by decide, epoch, 0, [], []⟩

/-- A submission to a fresh batcher is promised its epoch. -/
theorem exists_promise_freshBatcher (epoch : UInt64) :
    ∃ promise, perform (submit residueHasher (Octets.zeros 32) zeroSigner) (freshBatcher epoch) =
        (.ok promise, admitted (Octets.zeros 32) (freshBatcher epoch)) ∧
      promise.promisedEpoch = epoch := by
  have hpromised : ∃ promise,
      promiseFor residueHasher (Octets.zeros 32) zeroSigner (freshBatcher epoch) = .ok promise ∧
        promise.promisedEpoch = epoch := ⟨_, rfl, rfl⟩
  obtain ⟨promise, hpromise, hepoch⟩ := hpromised
  exact ⟨promise, by rw [perform_submit, hpromise], hepoch⟩

/-- A promise of the last epoch cannot be kept. -/
theorem not_keepable_lastEpoch :
    ∃ batcher promise next, Reachable residueHasher (Octets.zeros 32) 4 batcher ∧
      perform (submit residueHasher (Octets.zeros 32) zeroSigner) batcher = (.ok promise, next) ∧
      ¬ Keepable residueHasher promise next := by
  obtain ⟨promise, hsubmitted, hepoch⟩ := exists_promise_freshBatcher 0xffffffffffffffff
  have hsame : (admitted (Octets.zeros 32) (freshBatcher 0xffffffffffffffff)).epoch =
      0xffffffffffffffff := admitted_epoch _ _
  refine ⟨_, promise, _, .start rfl, hsubmitted, fun hkeepable ↦ ?_⟩
  obtain ⟨trees, final, hsealed⟩ := hkeepable [[]] (by rw [hepoch, hsame]; decide)
  have hfits := lt_of_sealInOrder hsealed
  rw [hsame] at hfits
  exact absurd hfits (by decide)

/-- A promise of an epoch before the last can be kept. -/
theorem keepable_iff_freshBatcher :
    ∃ promise next, perform (submit residueHasher (Octets.zeros 32) zeroSigner)
        (freshBatcher 20000) = (.ok promise, next) ∧ Keepable residueHasher promise next := by
  obtain ⟨promise, hsubmitted, -⟩ := exists_promise_freshBatcher 20000
  exact ⟨promise, _, hsubmitted,
    (keepable_iff residueHasher (Octets.zeros 32) 4 (freshBatcher 20000) (.start rfl)
      (Octets.zeros 32) zeroSigner promise _ hsubmitted).mpr (by decide)⟩

end AnchoredLog.Log.TerminalEpochs
