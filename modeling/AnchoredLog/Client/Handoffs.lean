import AnchoredLog.Client.Worker
import AnchoredLog.Core.Preimages

/-!
# Signed hand-offs

The artifact the batcher hands a root over in: an epoch, the height of the tree, the root, the key
that signed and the signature. `verify` gives the root once the key, the height, the epoch and the
signature have been checked, in that order.
-/

set_option autoImplicit false
set_option relaxedAutoImplicit false

namespace AnchoredLog.Client.Handoffs

open Library.ByteCodec Library.Fallible Core.Preimages Worker

/-- The artifact. -/
structure Handoff where
  epoch : UInt64
  height : UInt8
  root : Digest
  batcherKey : PublicKey
  signature : Signature
deriving DecidableEq

/-- Why a hand-off was refused. -/
inductive HandoffRefused
  | wrongLength (found : ℕ)
  | unexpectedKey
  | badSignature
  | heightOutOfRange (height : UInt8)
  | wrongEpoch (found wanted : UInt64)
deriving DecidableEq

namespace Handoff

/-- The octets the signature covers. -/
def preimage (handoff : Handoff) : Except HandoffRefused PreimageBuf :=
  match Preimage.writePreimage
    (⟨handoff.epoch, handoff.height, handoff.root⟩ : HandoffPreimage) .new with
  | .ok buffer => .ok buffer
  | .error _ => .error (.heightOutOfRange handoff.height)

/-- The root of the artifact, once it has earned being believed. -/
def verify (verifier : Verifier) (handoff : Handoff) (expectedBatcherKey : PublicKey)
    (wantedEpoch : UInt64) : Except HandoffRefused Digest := do
  require (handoff.batcherKey = expectedBatcherKey) .unexpectedKey
  require (4 ≤ handoff.height ∧ handoff.height ≤ 16) (.heightOutOfRange handoff.height)
  require (handoff.epoch = wantedEpoch) (.wrongEpoch handoff.epoch wantedEpoch)
  let buffer ← handoff.preimage
  match verifier.verify handoff.batcherKey buffer.octets handoff.signature with
  | .ok _ => pure handoff.root
  | .error _ => throw .badSignature

end Handoff

/-! ### What is verified -/

/-- The octets the signature of a hand-off covers. -/
def signedOctets (epoch : UInt64) (height : UInt8) (root : Digest) : List UInt8 :=
  (HandoffPreimage.fields ⟨epoch, height, root⟩).flatten

theorem exists_writePreimage (epoch : UInt64) (height : UInt8) (root : Digest) :
    ∃ buffer, Preimage.writePreimage (⟨epoch, height, root⟩ : HandoffPreimage) .new = .ok buffer ∧
      buffer.octets = signedOctets epoch height root :=
  ⟨_, staged_new_of_le (by simp [HandoffPreimage.fields, maxPreimageLen]), rfl⟩

/-- A hand-off gives its root when its fields are the expected ones and its key signed them. -/
theorem Handoff.verify_eq_ok_iff {verifier : Verifier} {handoff : Handoff} {key : PublicKey}
    {epoch : UInt64} {root : Digest} :
    handoff.verify verifier key epoch = .ok root ↔
      handoff.batcherKey = key ∧ (4 ≤ handoff.height ∧ handoff.height ≤ 16) ∧
        handoff.epoch = epoch ∧ handoff.root = root ∧
        verifier.valid key (signedOctets epoch handoff.height root) handoff.signature = true := by
  obtain ⟨buffer, hbuffer, hoctets⟩ :=
    exists_writePreimage handoff.epoch handoff.height handoff.root
  have hpreimage : handoff.preimage = .ok buffer := by
    rw [Handoff.preimage, hbuffer]
  have hsignature (result : Digest) :
      (match verifier.verify handoff.batcherKey buffer.octets handoff.signature with
        | .ok _ => pure handoff.root
        | .error _ => throw HandoffRefused.badSignature : Except HandoffRefused Digest) =
          .ok result ↔
      handoff.root = result ∧ verifier.valid handoff.batcherKey
        (signedOctets handoff.epoch handoff.height handoff.root) handoff.signature = true := by
    rw [← hoctets, Verifier.verify]
    cases verifier.valid handoff.batcherKey buffer.octets handoff.signature with
    | false => simp [require]
    | true => simp [require]
  rw [Handoff.verify, hpreimage]
  simp only [bind_unit_eq_ok_iff, require_eq_ok_iff, bind_ok, hsignature]
  constructor
  · rintro ⟨rfl, hheight, rfl, rfl, hvalid⟩
    exact ⟨rfl, hheight, rfl, rfl, hvalid⟩
  · rintro ⟨rfl, hheight, rfl, rfl, hvalid⟩
    exact ⟨rfl, hheight, rfl, rfl, hvalid⟩

end AnchoredLog.Client.Handoffs
