import AnchoredLog.Library.Interactions
import AnchoredLog.Program.Checkpoint

/-!
# Publishing a checkpoint over a network

The client's `publish`: one root for one epoch, sent again while nothing says that the program was
reached, and settled against the chain when the program says that the epoch has a checkpoint. The
decisions (`classify`, `settle`, `shouldRetry`, `decodeCheckpoint`, `lineageOf`, `provenanceIn`)
are functions. What goes to the endpoint and to the signers is a request, so that `publish` is an
interaction, and nothing is said here about the answers.

`publish_guarded` says what a success of the client rests on: a submission of this root that was
confirmed, or an account read for this epoch that carries this root. `publish_atMost` bounds the
submissions.
-/

set_option autoImplicit false
set_option relaxedAutoImplicit false

namespace AnchoredLog.Client.Publish

open Library.ByteCodec Library.Interactions
open Program.AccountLayouts Program.ChainRuntime Program.Checkpoint

/-! ### What an outcome means -/

/-- What the outcome of a submission means for the caller. -/
inductive Outcome
  | landed
  | alreadyPublished
  | retry
  | refused (code : UInt32)
deriving DecidableEq

/-- What the framework adds to a code of the program. -/
def anchorOffset : UInt32 :=
  6000

/-- The code of an epoch that has a checkpoint. -/
def checkpointAlreadyWritten : UInt32 :=
  anchorOffset + 0x0E

/-- What an outcome means, given the error code of the program when it produced one. -/
def classify : Option UInt32 → Outcome
  | none => .retry
  | some code => if code = checkpointAlreadyWritten then .alreadyPublished else .refused code

/-- Whether to send again, given what happened and how many attempts remain. -/
def shouldRetry (outcome : Outcome) (attemptsLeft : ℕ) : Bool :=
  outcome = .retry ∧ 0 < attemptsLeft

/-- What an epoch that has a checkpoint turns out to hold. -/
inductive Settlement
  | matches
  | equivocation (onChain : Octets 32)
  | unwritten
deriving DecidableEq

/-- Compares the root that was to be published with the one the chain holds. -/
def settle (requested : Octets 32) : Option (Octets 32) → Settlement
  | none => .unwritten
  | some found => if found = requested then .matches else .equivocation found

/-! ### The error code in a rendered failure -/

/-- What follows the first occurrence of a marker. -/
def afterFirst (marker : List Char) : List Char → Option (List Char)
  | [] => if marker.isEmpty then some [] else none
  | first :: rest =>
    if marker.isPrefixOf (first :: rest) then some ((first :: rest).drop marker.length)
    else afterFirst marker rest

/-- The value of a hexadecimal digit. -/
def hexDigit (digit : Char) : Option ℕ :=
  if '0' ≤ digit ∧ digit ≤ '9' then some (digit.toNat - 48)
  else if 'a' ≤ digit ∧ digit ≤ 'f' then some (digit.toNat - 87)
  else if 'A' ≤ digit ∧ digit ≤ 'F' then some (digit.toNat - 55)
  else none

/-- The 32-bit number the hexadecimal digits spell; none for no digit and for a greater number. -/
def fromHex (digits : List ℕ) : Option UInt32 :=
  let value := digits.foldl (fun sum digit ↦ 16 * sum + digit) 0
  if digits ≠ [] ∧ value < 2 ^ 32 then some (UInt32.ofNat value) else none

/-- The error code of the program in the rendering of a failed transaction. -/
def programErrorCode (rendered : String) : Option UInt32 := do
  let rest ← afterFirst "custom program error: ".toList rendered.toList
  let hex ← rest.dropPrefix? "0x".toList
  fromHex ((hex.map hexDigit).takeWhile Option.isSome).reduceOption

/-! ### Reading the checkpoint of an epoch -/

/-- What the client accepts as the checkpoint of an epoch. -/
structure PublishedCheckpoint where
  epoch : UInt64
  root : Octets 32
  publishedSlot : UInt64
  publishedUnix : Int64
  receiptDigest : Octets 32
  anchorKind : UInt8
deriving DecidableEq

/-- Why an account was refused. -/
inductive Refused
  | notTheProgram
  | tooShort
  | wrongDiscriminator
  | unsupportedSchema
  | wrongEpoch
  | malformed
deriving DecidableEq

/-- The endpoint could not be asked. -/
structure Unreachable where
  reason : String
deriving DecidableEq

/-- What asking for an epoch produced. -/
inductive Fetched
  | placed (checkpoint : PublishedCheckpoint)
  | refused (reason : Refused)
  | absent
deriving DecidableEq

/-- An account as the endpoint answered it, and the slot of the answer. -/
structure Observation where
  slot : Option UInt64
  account : Option (Pubkey × List UInt8)

/-- The fields of a checkpoint account the client keeps. -/
def publishedCheckpoint (account : CheckpointAccount) : PublishedCheckpoint :=
  ⟨account.epoch, account.root, account.publishedSlot, account.publishedUnix,
    account.receiptDigest, account.anchorKind⟩

/-- Places an account before it is believed: its owner, its length, its discriminator, its fields,
its schema version and its epoch. -/
def decodeCheckpoint (owner : Pubkey) (data : List UInt8) (epoch : UInt64) :
    Except Refused PublishedCheckpoint :=
  if owner ≠ programId then .error .notTheProgram
  else if data.length < CheckpointAccount.len then .error .tooShort
  else if data.take 8 ≠ CheckpointAccount.discriminator.octets then .error .wrongDiscriminator
  else
    match CheckpointAccount.deserialize (data.drop 8) with
    | none => .error .malformed
    | some account =>
      if account.schemaVersion ≠ schemaVersion then .error .unsupportedSchema
      else if account.epoch ≠ epoch then .error .wrongEpoch
      else .ok (publishedCheckpoint account)

/-- The checkpoint of an epoch in what the endpoint holds at its address. -/
def fetched (epoch : UInt64) : Option (Pubkey × List UInt8) → Fetched
  | none => .absent
  | some (owner, data) =>
    match decodeCheckpoint owner data epoch with
    | .ok checkpoint => .placed checkpoint
    | .error reason => .refused reason

/-! ### Where a publication landed -/

/-- What the endpoint said about the slot of a signature's transaction. -/
inductive WhereItLanded
  | slot (landed : UInt64)
  | notFound
  | notAsked (reason : String)
deriving DecidableEq

/-- What ties a publication to a chain. -/
inductive Lineage
  | atItsSlot
  | disagreed (transactionSlot : UInt64)
  | unknown
  | unasked (reason : String)
  | noSignature
deriving DecidableEq

/-- Where a published root can be found. -/
structure AnchorRef where
  epoch : UInt64
  signature : String
  publishedSlot : UInt64
  lineage : Lineage
deriving DecidableEq

/-- An entry of the chain's listing of what touched an account. -/
structure Touched where
  signature : String
  slot : UInt64
  succeeded : Bool

/-- The lineage of a publication from the slot its account records and what the endpoint said. -/
def lineageOf (publishedSlot : UInt64) (signature : String) (landed : WhereItLanded) : Lineage :=
  if signature.isEmpty then .noSignature
  else
    match landed with
    | .notAsked reason => .unasked reason
    | .notFound => .unknown
    | .slot slot => if slot = publishedSlot then .atItsSlot else .disagreed slot

/-- The signature of the one successful transaction at a slot, when there is exactly one. -/
def provenanceIn (publishedSlot : UInt64) (touched : List Touched) : Option String :=
  match touched.filter fun entry ↦
    entry.succeeded && entry.slot == publishedSlot && !entry.signature.isEmpty with
  | [only] => some only.signature
  | _ => none

/-! ### Requests -/

/-- The message of a publication: the accounts of the instruction and its arguments. The payer of
the accounts pays for it. -/
structure Message where
  accounts : PublishAccounts
  epoch : UInt64
  root : Octets 32
  checkpointBump : UInt8

/-- A message signed by its payer and its authority for a blockhash. -/
structure SignedTransaction where
  message : Message
  blockhash : Octets 32

/-- What the client asks of the endpoint and of the signers. -/
inductive Request
  | latestBlockhash
  | trySign (message : Message) (blockhash : Octets 32)
  | sendAndConfirm (signed : SignedTransaction)
  | account (address : Pubkey)
  | signaturesForAddress (address : Pubkey)
  | signatureStatuses (signature : Octets 64)

/-- The answers to a request, where a failure is a rendered reason. -/
abbrev Answer : Request → Type
  | .latestBlockhash => Except String (Octets 32)
  | .trySign _ _ => Except String Unit
  | .sendAndConfirm _ => Except String (Octets 64)
  | .account _ => Except String Observation
  | .signaturesForAddress _ => Except String (List Touched)
  | .signatureStatuses _ => Except String (List (Option UInt64))

/-- A dialogue of the client. -/
abbrev Dialogue (Output : Type) : Type :=
  Interaction Request Answer Output

/-- Asks for the blockhash a transaction is signed for. -/
def getLatestBlockhash : Dialogue (Except String (Octets 32)) :=
  request Request.latestBlockhash

/-- Asks the signers for their signatures. -/
def trySign (message : Message) (blockhash : Octets 32) : Dialogue (Except String Unit) :=
  request (Request.trySign message blockhash)

/-- Submits a transaction and waits for its confirmation. -/
def sendAndConfirmTransaction (signed : SignedTransaction) :
    Dialogue (Except String (Octets 64)) :=
  request (Request.sendAndConfirm signed)

/-- Reads an account. -/
def accountAt (address : Pubkey) : Dialogue (Except String Observation) :=
  request (Request.account address)

/-- Lists what touched an account. -/
def getSignaturesForAddress (address : Pubkey) : Dialogue (Except String (List Touched)) :=
  request (Request.signaturesForAddress address)

/-- Asks for the slot of a signature. -/
def getSignatureStatuses (signature : Octets 64) :
    Dialogue (Except String (List (Option UInt64))) :=
  request (Request.signatureStatuses signature)

/-- The text of a signature, of the signature library. -/
structure SignatureFormat where
  render : Octets 64 → String
  parse : String → Except String (Octets 64)

/-- Why a publication did not produce a reference. -/
inductive PublishFailed
  | refused (code : UInt32)
  | notPublished (settlement : Settlement)
  | unreachable (reason : Unreachable)
  | outOfAttempts
  | signingFailed
deriving DecidableEq

/-- Why one attempt did not produce a signature. -/
inductive SendPublishFailed
  | signing
  | submission (code : Option UInt32)
deriving DecidableEq

/-! ### The client -/

section Client

variable (format : SignatureFormat)

/-- One attempt, with a blockhash of its own. -/
def sendPublish (message : Message) : Dialogue (Except SendPublishFailed String) := do
  match ← getLatestBlockhash with
  | .error _ => pure (.error (.submission none))
  | .ok blockhash =>
    match ← trySign message blockhash with
    | .error _ => pure (.error .signing)
    | .ok _ =>
      match ← sendAndConfirmTransaction ⟨message, blockhash⟩ with
      | .ok signature => pure (.ok (format.render signature))
      | .error rendered => pure (.error (.submission (programErrorCode rendered)))

/-- The root of an epoch, read at its address. -/
def rootForEpoch (address : Pubkey) (epoch : UInt64) :
    Dialogue (Except Unreachable Fetched) := do
  match ← accountAt address with
  | .error reason => pure (.error ⟨reason⟩)
  | .ok seen => pure (.ok (fetched epoch seen.account))

/-- The slot the transaction of a signature landed in. -/
def whereItLanded (signature : String) : Dialogue WhereItLanded :=
  match format.parse signature with
  | .error reason => pure (.notAsked (signature ++ ": " ++ reason))
  | .ok parsed => do
    match ← getSignatureStatuses parsed with
    | .error reason => pure (.notAsked reason)
    | .ok (some slot :: _) => pure (.slot slot)
    | .ok (none :: _) => pure .notFound
    | .ok [] => pure (.notAsked
        "the endpoint returned no entry for the one signature it was asked about")

/-- Where the epoch ended up, read back from the chain. -/
def reference (address : Pubkey) (epoch : UInt64) (signature : String) :
    Dialogue (Except PublishFailed AnchorRef) := do
  match ← rootForEpoch address epoch with
  | .error reason => pure (.error (.unreachable reason))
  | .ok (.placed checkpoint) =>
    let landed ← (if signature.isEmpty then pure .notFound else whereItLanded format signature)
    pure (.ok ⟨epoch, signature, checkpoint.publishedSlot,
      lineageOf checkpoint.publishedSlot signature landed⟩)
  | .ok _ => pure (.error (.notPublished .unwritten))

/-- The signature the chain says wrote the checkpoint of an epoch. -/
def wroteIt (address : Pubkey) (publishedSlot : UInt64) : Dialogue (Option String) := do
  match ← getSignaturesForAddress address with
  | .error _ => pure none
  | .ok listing => pure (provenanceIn publishedSlot listing)

/-- Compares the root with the one the chain holds for the epoch. -/
def settleAgainstChain (address : Pubkey) (epoch : UInt64) (root : Octets 32) :
    Dialogue (Except PublishFailed AnchorRef) := do
  match ← rootForEpoch address epoch with
  | .error reason => pure (.error (.unreachable reason))
  | .ok (.placed checkpoint) =>
    match settle root (some checkpoint.root) with
    | .matches =>
      let recovered ← wroteIt address checkpoint.publishedSlot
      reference format address epoch (recovered.getD "")
    | other => pure (.error (.notPublished other))
  | .ok _ => pure (.error (.notPublished (settle root none)))

/-- What the client does with an attempt, where `again` is the next one. -/
def afterAttempt (message : Message) (left : ℕ)
    (again : Dialogue (Except PublishFailed AnchorRef)) :
    Except SendPublishFailed String → Dialogue (Except PublishFailed AnchorRef)
  | .ok signature => reference format message.accounts.checkpoint message.epoch signature
  | .error .signing => pure (.error .signingFailed)
  | .error (.submission code) =>
    match classify code with
    | .alreadyPublished =>
      settleAgainstChain format message.accounts.checkpoint message.epoch message.root
    | .refused code => pure (.error (.refused code))
    | outcome => if shouldRetry outcome left then again else pure (.error .outOfAttempts)

/-- The attempts at a publication, `left` of them after the first. -/
def publishLoop (message : Message) : ℕ → Dialogue (Except PublishFailed AnchorRef)
  | 0 => do
    afterAttempt format message 0 (pure (.error .outOfAttempts)) (← sendPublish format message)
  | left + 1 => do
    afterAttempt format message (left + 1) (publishLoop message left) (← sendPublish format message)

/-- The message of a publication, with the addresses of the epoch's checkpoint and of the
configuration derived from their seeds. None where there is no such address. -/
def publishMessage (chain : Chain) (epoch : UInt64) (root : Octets 32) (payer authority : Pubkey) :
    Option Message := do
  let checkpoint ← findProgramAddress chain [CheckpointAccount.seed, leList 8 epoch.toNat]
  let config ← findProgramAddress chain [LogConfig.seed]
  pure ⟨⟨config.1, checkpoint.1, authority, payer, systemProgramId⟩, epoch, root, checkpoint.2⟩

/-- Publishes one root for one epoch. The derivation of an address panics where there is none, which
is an output without a result. -/
def publish (chain : Chain) (epoch : UInt64) (root : Octets 32) (payer authority : Pubkey)
    (attempts : UInt32) : Dialogue (Option (Except PublishFailed AnchorRef)) :=
  match publishMessage chain epoch root payer authority with
  | none => pure none
  | some message => do
    let result ← publishLoop format message attempts.toNat
    pure (some result)

end Client

/-! ### What a success rests on -/

/-- The answers that show a root on chain for an epoch: a confirmed submission of it, and an account
that is read as the epoch's checkpoint and carries it. -/
def Evidence (epoch : UInt64) (root : Octets 32) : (asked : Request) → Answer asked → Prop
  | .sendAndConfirm signed, answer =>
    (∃ signature, answer = .ok signature) ∧ signed.message.epoch = epoch ∧
      signed.message.root = root
  | .account _, answer =>
    ∃ seen checkpoint, answer = .ok seen ∧ fetched epoch seen.account = .placed checkpoint ∧
      checkpoint.root = root
  | _, _ => False

/-- The result is a success. -/
def Succeeded {Failure Value : Type} (result : Except Failure Value) : Prop :=
  ∃ value, result = .ok value

theorem guarded_error {Failure Value : Type}
    {evidence : (asked : Request) → Answer asked → Prop} {seen : Prop} (failure : Failure) :
    Guarded evidence Succeeded seen
      (.done (.error failure) : Dialogue (Except Failure Value)) := by
  rintro ⟨value, hvalue⟩
  cases hvalue

variable {format : SignatureFormat} {message : Message} {epoch : UInt64} {root : Octets 32}

theorem sendPublish_guarded :
    Guarded (Evidence message.epoch message.root) Succeeded False (sendPublish format message) := by
  rintro (_ | blockhash)
  · exact guarded_error _
  · rintro (_ | _)
    · exact guarded_error _
    · rintro (_ | signature)
      · exact guarded_error _
      · exact fun _ ↦ .inr ⟨⟨signature, rfl⟩, rfl, rfl⟩

theorem rootForEpoch_guarded (address : Pubkey) :
    Guarded (Evidence epoch root)
      (fun result ↦ ∃ checkpoint, result = .ok (.placed checkpoint) ∧ checkpoint.root = root)
      False (rootForEpoch address epoch) := by
  rintro (reason | seen)
  · rintro ⟨checkpoint, hresult, -⟩
    cases hresult
  · rintro ⟨checkpoint, hresult, hroot⟩
    exact .inr ⟨seen, checkpoint, rfl, Except.ok.inj hresult, hroot⟩

/-- Settling against the chain succeeds only after the root was read from it. -/
theorem settleAgainstChain_guarded (address : Pubkey) :
    Guarded (Evidence epoch root) Succeeded False
      (settleAgainstChain format address epoch root) := by
  refine guarded_bind (rootForEpoch_guarded address) fun result ↦ ?_
  rcases result with reason | checkpoint | reason | _
  · exact guarded_error _
  · by_cases hroot : checkpoint.root = root
    · exact guarded_of_seen (.inr ⟨checkpoint, rfl, hroot⟩) _
    · simp only [settle, if_neg hroot]
      exact guarded_error _
  · exact guarded_error _
  · exact guarded_error _

theorem afterAttempt_guarded {left : ℕ} {again : Dialogue (Except PublishFailed AnchorRef)}
    (hagain : Guarded (Evidence message.epoch message.root) Succeeded False again)
    (result : Except SendPublishFailed String) :
    Guarded (Evidence message.epoch message.root) Succeeded (False ∨ Succeeded result)
      (afterAttempt format message left again result) := by
  rcases result with (_ | code) | signature
  · exact guarded_error _
  · dsimp only [afterAttempt]
    split
    · exact (settleAgainstChain_guarded message.accounts.checkpoint).mono False.elim
    · exact guarded_error _
    · split
      · exact hagain.mono False.elim
      · exact guarded_error _
  · exact guarded_of_seen (.inr ⟨signature, rfl⟩) _

theorem publishLoop_guarded (left : ℕ) :
    Guarded (Evidence message.epoch message.root) Succeeded False
      (publishLoop format message left) := by
  induction left with
  | zero =>
    exact guarded_bind sendPublish_guarded fun result ↦
      afterAttempt_guarded (guarded_error _) result
  | succ left ih =>
    exact guarded_bind sendPublish_guarded fun result ↦ afterAttempt_guarded ih result

/-- The message of a publication is for its epoch and its root. -/
theorem message_of_publishMessage {chain : Chain} {payer authority : Pubkey}
    (hmessage : publishMessage chain epoch root payer authority = some message) :
    message.epoch = epoch ∧ message.root = root := by
  simp only [publishMessage, Option.bind_eq_bind, Option.bind_eq_some_iff, Option.pure_def,
    Option.some.injEq] at hmessage
  obtain ⟨-, -, -, -, rfl⟩ := hmessage
  exact ⟨rfl, rfl⟩

/-- The client succeeds only on evidence that the root it was asked to publish is on chain. -/
theorem publish_guarded (chain : Chain) (epoch : UInt64) (root : Octets 32)
    (payer authority : Pubkey) (attempts : UInt32) :
    Guarded (Evidence epoch root) (fun output ↦ ∃ reference, output = some (.ok reference)) False
      (publish format chain epoch root payer authority attempts) := by
  unfold publish
  cases hmessage : publishMessage chain epoch root payer authority with
  | none =>
    rintro ⟨reference, hreference⟩
    cases hreference
  | some message =>
    have hsame := message_of_publishMessage hmessage
    have hloop : Guarded (Evidence epoch root) Succeeded False
        (publishLoop format message attempts.toNat) := by
      rw [← hsame.1, ← hsame.2]
      exact publishLoop_guarded attempts.toNat
    refine guarded_bind hloop fun result ↦ ?_
    rintro ⟨reference, hreference⟩
    exact .inr ⟨reference, Option.some.inj hreference⟩

/-! ### How often the client submits -/

/-- The request is a submission. -/
def Submits : Request → Prop
  | .sendAndConfirm _ => True
  | _ => False

theorem sendPublish_atMost : AtMost Submits 1 (sendPublish format message) := by
  refine .inl ⟨id, ?_⟩
  rintro (_ | blockhash)
  · trivial
  · refine .inl ⟨id, ?_⟩
    rintro (_ | _)
    · trivial
    · refine .inr ⟨0, rfl, ?_⟩
      rintro (_ | signature)
      · trivial
      · trivial

theorem rootForEpoch_atMost (address : Pubkey) :
    AtMost Submits 0 (rootForEpoch address epoch) := by
  refine .inl ⟨id, ?_⟩
  rintro (reason | seen)
  · trivial
  · trivial

theorem whereItLanded_atMost (signature : String) :
    AtMost Submits 0 (whereItLanded format signature) := by
  unfold whereItLanded
  cases format.parse signature with
  | error reason => trivial
  | ok parsed =>
    refine .inl ⟨id, ?_⟩
    rintro (reason | _ | ⟨_ | slot, rest⟩)
    · trivial
    · trivial
    · trivial
    · trivial

theorem reference_atMost (address : Pubkey) (signature : String) :
    AtMost Submits 0 (reference format address epoch signature) := by
  refine atMost_uncounted_bind (rootForEpoch_atMost address) fun result ↦ ?_
  rcases result with reason | checkpoint | reason | _
  · trivial
  · refine atMost_uncounted_bind ?_ fun _ ↦ atMost_done 0 _
    split
    · trivial
    · exact whereItLanded_atMost signature
  · trivial
  · trivial

theorem settleAgainstChain_atMost (address : Pubkey) :
    AtMost Submits 0 (settleAgainstChain format address epoch root) := by
  refine atMost_uncounted_bind (rootForEpoch_atMost address) fun result ↦ ?_
  rcases result with reason | checkpoint | reason | _
  · trivial
  · dsimp only
    cases settle root (some checkpoint.root) with
    | «matches» =>
      refine atMost_uncounted_bind ?_ fun recovered ↦ reference_atMost address _
      refine .inl ⟨id, ?_⟩
      rintro (reason | listing)
      · trivial
      · trivial
    | equivocation onChain => trivial
    | unwritten => trivial
  · trivial
  · trivial

theorem afterAttempt_atMost {counted : Request → Prop}
    (hsubmits : ∀ asked, counted asked → Submits asked) {left bound : ℕ}
    {again : Dialogue (Except PublishFailed AnchorRef)} (hagain : AtMost counted bound again)
    (result : Except SendPublishFailed String) :
    AtMost counted bound (afterAttempt format message left again result) := by
  rcases result with (_ | code) | signature
  · trivial
  · dsimp only [afterAttempt]
    split
    · exact ((settleAgainstChain_atMost message.accounts.checkpoint).of_imp hsubmits).mono
        (Nat.zero_le bound)
    · trivial
    · split
      · exact hagain
      · trivial
  · exact ((reference_atMost message.accounts.checkpoint signature).of_imp hsubmits).mono
      (Nat.zero_le bound)

theorem publishLoop_atMost (left : ℕ) :
    AtMost Submits (left + 1) (publishLoop format message left) := by
  induction left with
  | zero =>
    exact atMost_bind sendPublish_atMost fun result ↦
      afterAttempt_atMost (fun _ ↦ id) (atMost_done 0 _) result
  | succ left ih =>
    rw [Nat.add_comm]
    exact atMost_bind sendPublish_atMost fun result ↦ afterAttempt_atMost (fun _ ↦ id) ih result

/-- The client submits at most once more than the attempts it was given. -/
theorem publish_atMost (chain : Chain) (epoch : UInt64) (root : Octets 32)
    (payer authority : Pubkey) (attempts : UInt32) :
    AtMost Submits (attempts.toNat + 1)
      (publish format chain epoch root payer authority attempts) := by
  unfold publish
  cases publishMessage chain epoch root payer authority with
  | none => trivial
  | some message =>
    exact atMost_bind (publishLoop_atMost attempts.toNat) fun result ↦ atMost_done 0 (some result)

/-! ### What the client submits -/

/-- The request submits a message that is not one of the submittable ones. -/
def SubmitsOther (submittable : Message → Prop) : Request → Prop
  | .sendAndConfirm signed => ¬ submittable signed.message
  | _ => False

variable {submittable : Message → Prop}

theorem SubmitsOther.submits {asked : Request} (hother : SubmitsOther submittable asked) :
    Submits asked := by
  cases asked with
  | sendAndConfirm signed => trivial
  | latestBlockhash => exact hother.elim
  | trySign message blockhash => exact hother.elim
  | account address => exact hother.elim
  | signaturesForAddress address => exact hother.elim
  | signatureStatuses signature => exact hother.elim

theorem sendPublish_submits (hmessage : submittable message) :
    AtMost (SubmitsOther submittable) 0 (sendPublish format message) := by
  refine .inl ⟨id, ?_⟩
  rintro (_ | blockhash)
  · trivial
  · refine .inl ⟨id, ?_⟩
    rintro (_ | _)
    · trivial
    · refine .inl ⟨fun hother ↦ hother hmessage, ?_⟩
      rintro (_ | signature)
      · trivial
      · trivial

theorem publishLoop_submits (hmessage : submittable message) (left : ℕ) :
    AtMost (SubmitsOther submittable) 0 (publishLoop format message left) := by
  induction left with
  | zero =>
    exact atMost_uncounted_bind (sendPublish_submits hmessage) fun result ↦
      afterAttempt_atMost (fun _ ↦ SubmitsOther.submits) (atMost_done 0 _) result
  | succ left ih =>
    exact atMost_uncounted_bind (sendPublish_submits hmessage) fun result ↦
      afterAttempt_atMost (fun _ ↦ SubmitsOther.submits) ih result

/-- Every attempt of the client submits the one message of the publication. -/
theorem publish_submits (chain : Chain) (epoch : UInt64) (root : Octets 32)
    (payer authority : Pubkey) (attempts : UInt32) :
    AtMost (SubmitsOther fun message ↦
      publishMessage chain epoch root payer authority = some message) 0
      (publish format chain epoch root payer authority attempts) := by
  unfold publish
  cases hmessage : publishMessage chain epoch root payer authority with
  | none => trivial
  | some message =>
    refine atMost_uncounted_bind (publishLoop_submits ?_ attempts.toNat) fun result ↦
      atMost_done 0 (some result)
    exact rfl

end AnchoredLog.Client.Publish
