import AnchoredLog.Client.Confirmations
import AnchoredLog.Client.Worker
import AnchoredLog.Log.PromiseBytes

/-!
# Promises that travel with a receipt

A holder who observed nothing judges a promise by a receipt over its 161 octets: the receipt has to
be for exactly those octets, the block it names has to be six blocks deep in a verified range, and
the day of that block stands in for the epoch the holder did not observe.

The parser of receipts is outside this repository. A parsed receipt is a tree whose steps each hold
what they reach; that a step reaches what its operation makes of what the step before it reached is
`Executed`, and `exists_route_of_confirmed` reads off the tree the route from the digest the receipt
starts from to the attestation.
-/

set_option autoImplicit false
set_option relaxedAutoImplicit false

namespace AnchoredLog.Client.TransferredPromise

open Core.Preimages Library.ByteCodec Library.Fallible Library.HashCollision Log.Batcher
open Log.PromiseBytes CompactTarget BitcoinHeaders HeaderRules Receipts Confirmations Worker

/-! ### The functions of the source -/

/-- What a confirmed receipt established about a promise. -/
structure Established where
  confirmed : Confirmed
  /-- The day of the block, which the promise existed by. -/
  existedByEpoch : UInt64
deriving DecidableEq

/-- Why a transferred promise was refused. -/
inductive TransferRefused
  | notThisPromise (reason : ReceiptRefused)
  | notInBitcoin (reason : HeaderRefused)
  | noDayIndex (time : UInt32)
  | notYetBuriedDeepEnough (height : UInt32) (depth required : ℕ)
  | promise (error : RegistryError)
deriving DecidableEq

section Verification

variable (hasher : Hasher) (verifier : Verifier) (format : ReceiptFormat) (sha256d : DoubleHash)
  (promise : SignedPromise) (expectedBatcherKey : PublicKey)

/-- Checks a promise against the epoch a confirmed block establishes. -/
def judgeAgainstConfirmation (confirmed : Confirmed) : Except TransferRefused Established := do
  let existedByEpoch ← okOr (dayIndex (Int64.ofNat confirmed.time.toNat))
    (TransferRefused.noDayIndex confirmed.time)
  (verifyPromise hasher verifier promise expectedBatcherKey existedByEpoch).mapError .promise
  pure ⟨confirmed, existedByEpoch⟩

/-- Checks a promise against a receipt over its own encoding, and against Bitcoin. -/
def verifyTransferredPromise (receipt : List UInt8) (checkpoint : Checkpoint)
    (headers : List Header) : Except TransferRefused Established := do
  let claim ← (verifyReceipt format receipt (encode promise).octets).mapError .notThisPromise
  match ← (confirm sha256d claim checkpoint headers).mapError .notInBitcoin with
  | .confirmed confirmed =>
    judgeAgainstConfirmation hasher verifier promise expectedBatcherKey confirmed
  | .pending height depth required => throw (.notYetBuriedDeepEnough height depth required)

end Verification

/-! ### The operations of a receipt -/

/-- What each operation makes of octets. -/
abbrev Execution : Type :=
  Op → List UInt8 → List UInt8

/-- What a step makes of octets: an operation executes, a fork and an attestation pass them on. -/
def applied (execute : Execution) : StepData → List UInt8 → List UInt8
  | .op op, input => execute op input
  | _, input => input

/-- Every step of a tree reaches what it makes of what was reached before it. -/
inductive Executed (execute : Execution) : List UInt8 → TimestampStep → Prop
  | mk {input : List UInt8} {data : StepData} {output : List UInt8} {next : List TimestampStep}
      (houtput : output = applied execute data input)
      (hnext : ∀ step ∈ next, Executed execute output step) :
      Executed execute input (.mk data output next)

/-- A way down a tree to an attestation of a height, step after step. -/
inductive Route : TimestampStep → ℕ → List TimestampStep → Prop
  | attestation (height : ℕ) (output : List UInt8) (next : List TimestampStep) :
      Route (.mk (.bitcoin height) output next) height [.mk (.bitcoin height) output next]
  | descend {data : StepData} {output : List UInt8} {next route : List TimestampStep}
      {step : TimestampStep} {height : ℕ} (hdata : data.bitcoinHeight = none) (hstep : step ∈ next)
      (hroute : Route step height route) :
      Route (.mk data output next) height (.mk data output next :: route)

theorem eq_bitcoin_of_bitcoinHeight {data : StepData} {height : ℕ}
    (hdata : data.bitcoinHeight = some height) : data = .bitcoin height := by
  cases data with
  | bitcoin found => rw [Option.some.inj hdata]
  | fork => cases hdata
  | op op => cases hdata
  | otherAttestation => cases hdata

/-- What the steps of a route make of some octets. -/
def reached (execute : Execution) (input : List UInt8) (route : List TimestampStep) : List UInt8 :=
  route.foldl (fun octets step ↦ applied execute step.data octets) input

mutual

/-- The attestation that is found lies at the end of a route, and holds what the route reaches. -/
theorem exists_route_of_confirmed {execute : Execution} {height : ℕ} {output : List UInt8} :
    (step : TimestampStep) → (input : List UInt8) → Executed execute input step →
      confirmed step = some (height, output) →
      ∃ route, Route step height route ∧ output = reached execute input route
  | .mk data octets next, input, hexecuted, hconfirmed => by
    rw [confirmed] at hconfirmed
    obtain ⟨houtput, hnext⟩ := hexecuted
    cases hdata : data.bitcoinHeight with
    | some found =>
      rw [hdata, Option.some.injEq, Prod.mk.injEq] at hconfirmed
      obtain ⟨rfl, rfl⟩ := hconfirmed
      obtain rfl := eq_bitcoin_of_bitcoinHeight hdata
      exact ⟨_, .attestation found octets next, houtput⟩
    | none =>
      rw [hdata] at hconfirmed
      obtain ⟨step, hstep, route, hroute, hreached⟩ :=
        exists_route_of_confirmedAny next octets hnext hconfirmed
      refine ⟨_, .descend hdata hstep hroute, ?_⟩
      rw [reached, List.foldl_cons, TimestampStep.data, ← houtput]
      exact hreached

theorem exists_route_of_confirmedAny {execute : Execution} {height : ℕ} {output : List UInt8} :
    (steps : List TimestampStep) → (input : List UInt8) →
      (∀ step ∈ steps, Executed execute input step) →
      confirmedAny steps = some (height, output) →
      ∃ step ∈ steps, ∃ route, Route step height route ∧ output = reached execute input route
  | [], _, _, hconfirmed => by
    rw [confirmedAny] at hconfirmed
    cases hconfirmed
  | step :: rest, input, hexecuted, hconfirmed => by
    rw [confirmedAny, Option.or_eq_some_iff] at hconfirmed
    rcases hconfirmed with hfirst | ⟨-, hlater⟩
    · obtain ⟨route, hroute⟩ := exists_route_of_confirmed step input
        (hexecuted step List.mem_cons_self) hfirst
      exact ⟨step, List.mem_cons_self, route, hroute⟩
    · obtain ⟨found, hfound, hroute⟩ := exists_route_of_confirmedAny rest input
        (fun other hother ↦ hexecuted other (List.mem_cons_of_mem step hother)) hlater
      exact ⟨found, List.mem_cons_of_mem step hfound, hroute⟩

end

/-- A receipt that is believed starts from the hash of what was stamped and reaches an
attestation. -/
theorem exists_parsed_of_verifyReceipt {format : ReceiptFormat} {receipt stamped : List UInt8}
    {claim : BitcoinClaim} (hverified : verifyReceipt format receipt stamped = .ok claim) :
    ∃ parsed, format.parse receipt = .ok parsed ∧
      parsed.startDigest = (format.sha256 stamped).octets ∧
      confirmed parsed.firstStep = some (claim.height.toNat, claim.attestedDigest.octets) := by
  rw [verifyReceipt] at hverified
  split at hverified
  · cases hverified
  · next parsed hparsed =>
    split_ifs at hverified with hstart
    split at hverified
    · cases hverified
    · next height output hconfirmed =>
      split_ifs at hverified with hheight hlength
      cases hverified
      refine ⟨parsed, hparsed, not_not.mp hstart, ?_⟩
      rw [hconfirmed, UInt32.toNat_ofNat', Nat.mod_eq_of_lt hheight]

/-! ### What an accepted promise is known to be -/

section Acceptance

variable {hasher : Hasher} {verifier : Verifier} {format : ReceiptFormat} {sha256d : DoubleHash}
  {promise : SignedPromise} {expectedBatcherKey : PublicKey} {receipt : List UInt8}
  {checkpoint : Checkpoint} {headers : List Header} {established : Established}

/-- A promise is accepted on the claim of its receipt, the block that confirms the claim, and the
judgment against the day of that block. -/
theorem verifyTransferredPromise_eq_ok_iff :
    verifyTransferredPromise hasher verifier format sha256d promise expectedBatcherKey receipt
        checkpoint headers = .ok established ↔
      ∃ claim, verifyReceipt format receipt (encode promise).octets = .ok claim ∧
        confirm sha256d claim checkpoint headers = .ok (.confirmed established.confirmed) ∧
        dayIndex (Int64.ofNat established.confirmed.time.toNat) =
          some established.existedByEpoch ∧
        verifyPromise hasher verifier promise expectedBatcherKey established.existedByEpoch =
          .ok () := by
  have hjudge : ∀ confirmed, judgeAgainstConfirmation hasher verifier promise expectedBatcherKey
      confirmed = .ok established ↔ confirmed = established.confirmed ∧
        dayIndex (Int64.ofNat confirmed.time.toNat) = some established.existedByEpoch ∧
        verifyPromise hasher verifier promise expectedBatcherKey established.existedByEpoch =
          .ok () := by
    intro confirmed
    rw [judgeAgainstConfirmation, okOr_bind_eq_ok_iff]
    constructor
    · rintro ⟨day, hday, hrest⟩
      rw [bind_unit_eq_ok_iff, mapError_eq_ok_iff, pure_eq_ok, Except.ok.injEq] at hrest
      obtain ⟨hpromise, rfl⟩ := hrest
      exact ⟨rfl, hday, hpromise⟩
    · rintro ⟨rfl, hday, hpromise⟩
      refine ⟨_, hday, ?_⟩
      rw [bind_unit_eq_ok_iff, mapError_eq_ok_iff]
      exact ⟨hpromise, rfl⟩
  rw [verifyTransferredPromise, bind_eq_ok_iff]
  simp only [mapError_eq_ok_iff, bind_eq_ok_iff]
  constructor
  · rintro ⟨claim, hclaim, confirmation, hconfirmed, hrest⟩
    cases confirmation with
    | confirmed block =>
      obtain ⟨rfl, hday, hpromise⟩ := (hjudge block).mp hrest
      exact ⟨claim, hclaim, hconfirmed, hday, hpromise⟩
    | pending height depth required => cases hrest
  · rintro ⟨claim, hclaim, hconfirmed, hday, hpromise⟩
    exact ⟨claim, hclaim, _, hconfirmed, (hjudge _).mpr ⟨rfl, hday, hpromise⟩⟩

/-- The policy of an accepted promise, as ranges of natural numbers. -/
theorem policy_of_verifyPromise {observed : UInt64}
    (hpromise : verifyPromise hasher verifier promise expectedBatcherKey observed = .ok ()) :
    promise.batcherKey = expectedBatcherKey ∧
      (promise.acceptedEpoch.toNat = observed.toNat ∨
        promise.acceptedEpoch.toNat + 1 = observed.toNat) ∧
      promise.acceptedEpoch.toNat ≤ promise.promisedEpoch.toNat ∧
      promise.promisedEpoch.toNat ≤ promise.acceptedEpoch.toNat + 2 ∧
      ∃ digest, promiseDigest hasher promise = .ok digest ∧
        verifier.verify expectedBatcherKey digest.octets promise.signature = .ok () := by
  rw [verifyPromise, bind_unit_eq_ok_iff, require_eq_ok_iff, bind_unit_eq_ok_iff] at hpromise
  obtain ⟨hkey, -, hrest⟩ := hpromise
  obtain ⟨deferred, hdeferred, hrest⟩ := okOr_bind_eq_ok_iff.mp hrest
  rw [bind_unit_eq_ok_iff, require_eq_ok_iff] at hrest
  obtain ⟨hdelay, hrest⟩ := hrest
  obtain ⟨behind, hbehind, hrest⟩ := okOr_bind_eq_ok_iff.mp hrest
  rw [bind_unit_eq_ok_iff, require_eq_ok_iff] at hrest
  obtain ⟨hone, hrest⟩ := hrest
  obtain ⟨digest, hdigest, hvalid⟩ := bind_eq_ok_iff.mp hrest
  rw [checkedSub_eq_some_iff] at hdeferred hbehind
  have hmax : Log.Batcher.maxMergeDelay.toNat = 2 := rfl
  exact ⟨hkey, by omega, by omega, by omega, digest, hdigest, hvalid⟩

/-- The block of a confirmation is that of the header at the claimed height, six blocks deep. -/
theorem exists_header_of_confirm {claim : BitcoinClaim} {block : Confirmed}
    (hconfirmed : confirm sha256d claim checkpoint headers = .ok (.confirmed block)) :
    ∃ hashes offset header, verifyChain sha256d checkpoint headers = .ok hashes ∧
      claim.height.toNat = checkpoint.height.toNat + 1 + offset ∧
      headers[offset]? = some header ∧ 6 ≤ (headers.drop (offset + 1)).length ∧
      header.merkleRoot = claim.attestedDigest ∧ block.height = claim.height ∧
      block.time = header.time := by
  obtain ⟨hashes, hverified⟩ := exists_verified_of_confirm hconfirmed
  rcases @exists_header_or_heightNotCovered _ _ _ claim _ hverified with
    ⟨offset, header, hheight, hheader⟩ | ⟨top, hrefused⟩
  · rw [confirm_of_header hverified hheight hheader] at hconfirmed
    split_ifs at hconfirmed with hdigest hshallow
    · cases hconfirmed
    · cases hconfirmed
      have hdepth : confirmationDepth = 6 := rfl
      refine ⟨hashes, offset, header, hverified, hheight, hheader, ?_, hdigest, rfl, rfl⟩
      rw [List.length_drop]
      omega
  · cases hrefused.symm.trans hconfirmed

/-- The day of a block is its time in whole days. -/
theorem toNat_of_dayIndex {time : UInt32} {today : UInt64}
    (hday : dayIndex (Int64.ofNat time.toNat) = some today) :
    today.toNat = time.toNat / 86400 := by
  have htime := time.toNat_lt
  rw [dayIndex_eq_some_iff, Int64.toInt_ofNat_of_lt (by omega)] at hday
  omega

end Acceptance

/-! ### Soundness -/

/-- What is known of a promise that was accepted with a receipt. -/
structure Stamped (hasher : Hasher) (verifier : Verifier) (format : ReceiptFormat)
    (execute : Execution) (sha256d : DoubleHash) (promise : SignedPromise)
    (expectedBatcherKey : PublicKey) (receipt : List UInt8) (checkpoint : Checkpoint)
    (headers : List Header) (established : Established) : Prop where
  /-- The verified header at the height the receipt attests has six verified headers above it,
  carries what the operations reach from the hash of the encoding, and gives the day. -/
  block : ∃ hashes offset header parsed route,
    verifyChain sha256d checkpoint headers = .ok hashes ∧
      established.confirmed.height.toNat = checkpoint.height.toNat + 1 + offset ∧
      headers[offset]? = some header ∧ 6 ≤ (headers.drop (offset + 1)).length ∧
      format.parse receipt = .ok parsed ∧
      Route parsed.firstStep established.confirmed.height.toNat route ∧
      header.merkleRoot.octets =
        reached execute (format.sha256 (encode promise).octets).octets route ∧
      established.existedByEpoch.toNat = header.time.toNat / 86400
  /-- The promise was accepted on that day or on the one before it. -/
  accepted : promise.acceptedEpoch.toNat = established.existedByEpoch.toNat ∨
    promise.acceptedEpoch.toNat + 1 = established.existedByEpoch.toNat
  promised : promise.acceptedEpoch.toNat ≤ promise.promisedEpoch.toNat ∧
    promise.promisedEpoch.toNat ≤ promise.acceptedEpoch.toNat + 2
  signature : ∃ digest, promiseDigest hasher promise = .ok digest ∧
    verifier.verify expectedBatcherKey digest.octets promise.signature = .ok ()

section Soundness

variable {hasher : Hasher} {verifier : Verifier} {format : ReceiptFormat} {sha256d : DoubleHash}
  {promise other : SignedPromise} {expectedBatcherKey otherKey : PublicKey} {receipt : List UInt8}
  {checkpoint otherCheckpoint : Checkpoint} {headers otherHeaders : List Header}
  {established otherEstablished : Established}

theorem stamped_of_verifyTransferredPromise {execute : Execution}
    (hparser : ∀ receipt parsed, format.parse receipt = .ok parsed →
      Executed execute parsed.startDigest parsed.firstStep)
    (haccepted : verifyTransferredPromise hasher verifier format sha256d promise
      expectedBatcherKey receipt checkpoint headers = .ok established) :
    Stamped hasher verifier format execute sha256d promise expectedBatcherKey receipt checkpoint
      headers established := by
  obtain ⟨claim, hclaim, hconfirmed, hday, hpromise⟩ :=
    verifyTransferredPromise_eq_ok_iff.mp haccepted
  obtain ⟨parsed, hparsed, hstart, hattested⟩ := exists_parsed_of_verifyReceipt hclaim
  obtain ⟨route, hroute, hreached⟩ := exists_route_of_confirmed parsed.firstStep
    parsed.startDigest (hparser receipt parsed hparsed) hattested
  obtain ⟨hashes, offset, header, hverified, hheight, hheader, hdepth, hroot, hblock, htime⟩ :=
    exists_header_of_confirm hconfirmed
  obtain ⟨-, hepoch, hlow, hhigh, hsignature⟩ := policy_of_verifyPromise hpromise
  refine ⟨⟨hashes, offset, header, parsed, route, hverified, ?_, hheader, hdepth, hparsed, ?_, ?_,
    ?_⟩, hepoch, ⟨hlow, hhigh⟩, hsignature⟩
  · rw [hblock, hheight]
  · rw [hblock]
    exact hroute
  · rw [hroot, hreached, hstart]
  · rw [toNat_of_dayIndex hday, htime]

/-- A receipt that is accepted with two promises starts from the hash of both encodings. -/
theorem eq_or_collides_of_verifyTransferredPromise
    (haccepted : verifyTransferredPromise hasher verifier format sha256d promise
      expectedBatcherKey receipt checkpoint headers = .ok established)
    (hother : verifyTransferredPromise hasher verifier format sha256d other otherKey receipt
      otherCheckpoint otherHeaders = .ok otherEstablished) :
    promise = other ∨
      Collides format.sha256 [(encode promise).octets, (encode other).octets] := by
  obtain ⟨claim, hclaim, -⟩ := verifyTransferredPromise_eq_ok_iff.mp haccepted
  obtain ⟨otherClaim, hotherClaim, -⟩ := verifyTransferredPromise_eq_ok_iff.mp hother
  obtain ⟨parsed, hparsed, hstart, -⟩ := exists_parsed_of_verifyReceipt hclaim
  obtain ⟨found, hfound, hotherStart, -⟩ := exists_parsed_of_verifyReceipt hotherClaim
  obtain rfl := Except.ok.inj (hparsed.symm.trans hfound)
  have hdigest : format.sha256 (encode promise).octets = format.sha256 (encode other).octets :=
    Octets.octets_injective (hstart.symm.trans hotherStart)
  rcases @eq_or_collides _ _ format.sha256 [(encode promise).octets, (encode other).octets] _ _
    (by simp) (by simp) hdigest with hsame | hcollides
  · exact .inl (encode_injective (Octets.octets_injective hsame))
  · exact .inr hcollides

end Soundness

/-- For every promise that is accepted with a receipt, the verified header at the height the receipt
attests lies six deep and carries what the receipt makes of the 161 octets, its day bounds the
epochs the promise names, and the signature is the expected key's. A receipt that is accepted with
two promises is accepted with one, or their encodings collide. -/
theorem transferred_promise_sound (hasher : Hasher) (verifier : Verifier) (format : ReceiptFormat)
    (execute : Execution) (sha256d : DoubleHash)
    (hparser : ∀ receipt parsed, format.parse receipt = .ok parsed →
      Executed execute parsed.startDigest parsed.firstStep) :
    (∀ promise expectedBatcherKey receipt checkpoint headers established,
      verifyTransferredPromise hasher verifier format sha256d promise expectedBatcherKey receipt
        checkpoint headers = .ok established →
      Stamped hasher verifier format execute sha256d promise expectedBatcherKey receipt checkpoint
        headers established) ∧
    ∀ receipt promise expectedBatcherKey checkpoint headers established other otherKey
      otherCheckpoint otherHeaders otherEstablished,
      verifyTransferredPromise hasher verifier format sha256d promise expectedBatcherKey receipt
        checkpoint headers = .ok established →
      verifyTransferredPromise hasher verifier format sha256d other otherKey receipt
        otherCheckpoint otherHeaders = .ok otherEstablished →
      promise = other ∨
        Collides format.sha256 [(encode promise).octets, (encode other).octets] :=
  ⟨fun _ _ _ _ _ _ haccepted ↦ stamped_of_verifyTransferredPromise hparser haccepted,
    fun _ _ _ _ _ _ _ _ _ _ _ haccepted hother ↦
      eq_or_collides_of_verifyTransferredPromise haccepted hother⟩

/-- A promise of zeros within the policy. -/
def zeroPromise : SignedPromise :=
  ⟨Octets.zeros 32, Octets.zeros 16, 0, 0, 2, Octets.zeros 32, Octets.zeros 64⟩

/-- The SHA-256 of the octets of the promise of zeros. -/
def zeroPromiseDigest : Octets 32 :=
  ⟨[0xab, 0xd5, 0x20, 0xbd, 0xb6, 0xfc, 0x43, 0xef, 0xcd, 0x60, 0x91, 0x74, 0x75, 0x4f, 0x86, 0x8a,
    0x3b, 0x22, 0xe9, 0xc1, 0x8c, 0xb7, 0x87, 0xa5, 0xcb, 0x82, 0x74, 0x0d, 0x63, 0x9c, 0x96, 0x05],
    rfl⟩

/-- The SHA-256 of that digest. -/
def attestedDigest : Octets 32 :=
  ⟨[0x31, 0x82, 0x9d, 0x77, 0x49, 0x53, 0x8d, 0x30, 0x61, 0x35, 0x9c, 0xd1, 0x1c, 0xeb, 0x9d, 0xe4,
    0xf2, 0xd1, 0x84, 0xbb, 0x96, 0xbe, 0xfb, 0xc3, 0x3d, 0x21, 0xd0, 0x05, 0x3c, 0x94, 0xa9, 0x1b],
    rfl⟩

/-- A receipt over the promise of zeros: one SHA-256, then an attestation of block 1. -/
def zeroReceipt : List UInt8 :=
  [0x00, 0x4f, 0x70, 0x65, 0x6e, 0x54, 0x69, 0x6d, 0x65, 0x73, 0x74, 0x61, 0x6d, 0x70, 0x73, 0x00,
    0x00, 0x50, 0x72, 0x6f, 0x6f, 0x66, 0x00, 0xbf, 0x89, 0xe2, 0xe8, 0x84, 0xe8, 0x92, 0x94, 0x01,
    0x08] ++ zeroPromiseDigest.octets ++
    [0x08, 0x00, 0x05, 0x88, 0x96, 0x0d, 0x73, 0xd7, 0x19, 0x01, 0x01, 0x01]

/-- What that receipt is parsed as. -/
def zeroTimestamp : DetachedTimestamp :=
  ⟨zeroPromiseDigest.octets,
    .mk (.op .sha256) attestedDigest.octets [.mk (.bitcoin 1) attestedDigest.octets []]⟩

/-- The format, on that receipt and on what is hashed with it. -/
def zeroFormat : ReceiptFormat where
  parse := fun receipt ↦ if receipt = zeroReceipt then .ok zeroTimestamp else .error "bad magic"
  sha256 := fun octets ↦
    if octets = (encode zeroPromise).octets then zeroPromiseDigest
    else if octets = zeroPromiseDigest.octets then attestedDigest
    else Octets.zeros 32

/-- The operations, the hash functions but for the one of that receipt left out. -/
def zeroExecution : Execution
  | .sha256, input => (zeroFormat.sha256 input).octets
  | .reverse, input => input.reverse
  | .append octets, input => input ++ octets
  | .prepend octets, input => octets ++ input
  | _, input => input

/-- A header that carries the attested digest at the easiest target. -/
def attestedHeader : Header :=
  ⟨⟨[1, 0, 0, 0] ++ List.replicate 32 0 ++ attestedDigest.octets ++ List.replicate 4 0 ++
    [0xff, 0xff, 0x00, 0x1d] ++ List.replicate 4 0, rfl⟩⟩

/-- Where every block hash is zero, the promise of zeros is accepted with its receipt. -/
theorem transferred_promise_sound_zeroPromise : ∃ established,
    Stamped residueHasher permissiveVerifier zeroFormat zeroExecution (fun _ ↦ Octets.zeros 32)
      zeroPromise (Octets.zeros 32) zeroReceipt zeroCheckpoint
      (attestedHeader :: List.replicate 6 zeroHeader) established := by
  have hparser : ∀ receipt parsed, zeroFormat.parse receipt = .ok parsed →
      Executed zeroExecution parsed.startDigest parsed.firstStep := by
    intro receipt parsed hparsed
    have hzero : zeroTimestamp = parsed := by
      dsimp only [zeroFormat] at hparsed
      split_ifs at hparsed
      exact Except.ok.inj hparsed
    rw [← hzero]
    refine .mk (by decide +kernel) fun step hstep ↦ ?_
    rw [List.mem_singleton.mp hstep]
    exact .mk rfl (by simp)
  exact ⟨⟨⟨1, attestedDigest, 0, false⟩, 0⟩,
    (transferred_promise_sound residueHasher permissiveVerifier zeroFormat zeroExecution
      (fun _ ↦ Octets.zeros 32) hparser).1 zeroPromise (Octets.zeros 32) zeroReceipt zeroCheckpoint
      (attestedHeader :: List.replicate 6 zeroHeader) _ (by decide +kernel)⟩

end AnchoredLog.Client.TransferredPromise
