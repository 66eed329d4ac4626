import AnchoredLog.Client.HandoffCodec
import AnchoredLog.Client.Observe
import AnchoredLog.Client.Receipts

/-!
# A cycle of the worker

One pass of the worker's loop: it observes, decides, and performs the one step it decided on. What
goes to the chain, to the receipts directory, to the hand-offs and to the OpenTimestamps client is a
request, so that a cycle is an interaction, and it ends with how it went and with the number of
failures in a row that the next cycle starts from, or with the reason for which the worker stops.

The observation resets that number before the step is performed; every failure that is retried
raises it through `retryPartition`.
-/

set_option autoImplicit false
set_option relaxedAutoImplicit false

namespace AnchoredLog.Client.WorkerCycle

open Library.ByteCodec Library.Fallible Library.Interactions Core.Preimages
open Program.AccountLayouts Program.ChainRuntime Program.Checkpoint
open Publish Fetch Worker Observe Receipts Handoffs

/-! ### Requests -/

/-- The message of an attachment: the accounts of the instruction, its arguments and who pays. -/
structure AttachMessage where
  accounts : AttachAccounts
  payer : Pubkey
  epoch : UInt64
  receiptDigest : Digest
  kind : UInt8

/-- An attachment signed by its payer and its authority for a blockhash. -/
structure SignedAttachment where
  message : AttachMessage
  blockhash : Octets 32

/-- What the OpenTimestamps client is run for. -/
inductive OtsCommand
  | version
  | stamp (epoch : UInt64)
  | upgrade (epoch : UInt64)

/-- How a command ended, and what it wrote. -/
structure CommandOutput where
  success : Bool
  stdout : List UInt8

/-- What the worker asks of the chain, of its signers, of its disk and of the client. -/
inductive Request
  | observe (question : Question)
  | cluster (asked : Publish.Request)
  | trySignAttachment (message : AttachMessage) (blockhash : Octets 32)
  | sendAttachment (signed : SignedAttachment)
  | runOts (command : OtsCommand)
  | createReceipts
  | writeStamped (epoch : UInt64) (root : List UInt8)
  | readStamped (epoch : UInt64)
  | readReceipt (epoch : UInt64)
  | readHandoff (epoch : UInt64)

/-- The answers to a request, where a failure is a rendered reason. -/
abbrev Answer : Request → Type
  | .observe question => question.Answer
  | .cluster asked => Publish.Answer asked
  | .trySignAttachment _ _ => Except String Unit
  | .sendAttachment _ => Except String (Octets 64)
  | .runOts _ => Except String CommandOutput
  | .createReceipts => Except String Unit
  | .writeStamped _ _ => Except String Unit
  | .readStamped _ => Except String (List UInt8)
  | .readReceipt _ => Except String (List UInt8)
  | .readHandoff _ => Except String (List UInt8)

/-- A dialogue of the worker. -/
abbrev Dialogue (Output : Type) : Type :=
  Interaction Request Answer Output

/-- An inquiry of the worker. -/
def ofInquiry {Output : Type} (inquiry : Inquiry Output) : Dialogue Output :=
  embed Request.observe (fun _ answer ↦ answer) inquiry

/-- A dialogue with the cluster. -/
def ofCluster {Output : Type} (dialogue : Publish.Dialogue Output) : Dialogue Output :=
  embed Request.cluster (fun _ answer ↦ answer) dialogue

/-- Asks one request. -/
def ask (asked : Request) : Dialogue (Answer asked) :=
  request asked

/-! ### The parts of the worker -/

/-- The worker: the chain it writes to, the libraries it uses, its keys and its policy. -/
structure Worker where
  chain : Chain
  signatureFormat : SignatureFormat
  receiptFormat : ReceiptFormat
  hasher : Hasher
  verifier : Verifier
  batcherKey : PublicKey
  payer : Pubkey
  authority : Pubkey
  schedule : Schedule
  policy : WorkerPolicy

/-- The addresses of the log. Where an address cannot be derived the source panics; here some other
account is read. -/
def addressesOf (chain : Chain) : Addresses where
  config := ((findProgramAddress chain [LogConfig.seed]).map Prod.fst).getD systemProgramId
  checkpoint := fun epoch ↦
    ((findProgramAddress chain [CheckpointAccount.seed, leList 8 epoch.toNat]).map
      Prod.fst).getD systemProgramId

/-- Why the root of an epoch could not be taken from its hand-off. -/
inductive HandoffFailed
  | unreadable (reason : String)
  | refused (reason : HandoffRefused)
deriving DecidableEq

/-- Why the OpenTimestamps half of a step failed. -/
inductive OtsFailed
  | command (reason : String)
  | exited (command : String)
  | notPinned (stdout : List UInt8)
  | file (reason : String)
  | overDifferentRoot (epoch : UInt64)
  | unfinishedStamp (epoch : UInt64) (why : String)
  | pairDisagrees (epoch : UInt64)
  | refused (reason : ReceiptRefused)
  | tooLong
deriving DecidableEq

/-- Why an attachment was refused. -/
inductive AttachRefused
  | cluster (reason : String)
  | notPublished (found : Fetched)
  | receipt (reason : ReceiptRefused)
  | tooLong
  | signingFailed
deriving DecidableEq

/-- What the pinned client reports as its version, `v0.7.2` and a newline. -/
def pinnedReport : List UInt8 :=
  [0x76, 0x30, 0x2e, 0x37, 0x2e, 0x32, 0x0a]

/-- Refuses a client that is not the pinned version. -/
def checkVersion : Dialogue (Except OtsFailed Unit) := do
  match ← ask (.runOts .version) with
  | .error reason => pure (.error (.command reason))
  | .ok output =>
    if output.success then
      if output.stdout = pinnedReport then pure (.ok ())
      else pure (.error (.notPinned output.stdout))
    else pure (.error (.exited "--version"))

section Worker

variable (worker : Worker)

/-- The root of an epoch, from a hand-off the worker verifies itself. -/
def rootFor (epoch : UInt64) : Dialogue (Except HandoffFailed Digest) := do
  match ← ask (.readHandoff epoch) with
  | .error reason => pure (.error (.unreadable reason))
  | .ok bytes =>
    match HandoffCodec.decode bytes with
    | .error reason => pure (.error (.refused reason))
    | .ok handoff =>
      match handoff.verify worker.verifier worker.batcherKey epoch with
      | .error reason => pure (.error (.refused reason))
      | .ok root => pure (.ok root)

/-- What becomes of a submission whose receipt is there: it counts when the receipt parses and both
it and the stamped file are of the root. -/
def submitAgain (epoch : UInt64) (root : Digest) : Dialogue (Except OtsFailed Unit) := do
  match ← ask (.readStamped epoch) with
  | .error reason => pure (.error (.file reason))
  | .ok existing =>
    if existing ≠ root.octets then pure (.error (.overDifferentRoot epoch))
    else
      match ← ask (.readReceipt epoch) with
      | .error reason => pure (.error (.file reason))
      | .ok bytes =>
        match verifyReceipt worker.receiptFormat bytes existing with
        | .ok _ => pure (.ok ())
        | .error .notYetConfirmed => pure (.ok ())
        | .error (.unparsable why) => pure (.error (.unfinishedStamp epoch why))
        | .error .wrongRoot => pure (.error (.pairDisagrees epoch))

/-- Stamps the root of an epoch whose receipt is not there. -/
def stamp (epoch : UInt64) (root : Digest) : Dialogue (Except OtsFailed Unit) := do
  match ← ask (.writeStamped epoch root.octets) with
  | .error reason => pure (.error (.file reason))
  | .ok _ =>
    match ← ask (.runOts (.stamp epoch)) with
    | .error reason => pure (.error (.command reason))
    | .ok output =>
      if output.success then pure (.ok ()) else pure (.error (.exited "stamp"))

/-- Submits a root to the calendars. -/
def submit (epoch : UInt64) (root : Digest) : Dialogue (Except OtsFailed Unit) := do
  match ← checkVersion with
  | .error failure => pure (.error failure)
  | .ok _ =>
    match ← ask .createReceipts with
    | .error reason => pure (.error (.file reason))
    | .ok _ =>
      let there : Bool ← ask (.observe (.receiptExists epoch))
      if there then submitAgain worker epoch root else stamp epoch root

/-- Upgrades a receipt: nothing while Bitcoin has not confirmed, then its digest. How the command
exits is not looked at. -/
def upgrade (epoch : UInt64) (root : Digest) : Dialogue (Except OtsFailed (Option Digest)) := do
  match ← checkVersion with
  | .error failure => pure (.error failure)
  | .ok _ =>
    let _ ← ask (.runOts (.upgrade epoch))
    match ← ask (.readReceipt epoch) with
    | .error reason => pure (.error (.file reason))
    | .ok bytes =>
      match verifyReceipt worker.receiptFormat bytes root.octets with
      | .ok _ =>
        match receiptDigest worker.hasher bytes with
        | some digest => pure (.ok (some digest))
        | none => pure (.error .tooLong)
      | .error .notYetConfirmed => pure (.ok none)
      | .error other => pure (.error (.refused other))

/-- Signs and sends an attachment. -/
def sendAttach (message : AttachMessage) : Dialogue (Except AttachRefused Unit) := do
  match ← ofCluster getLatestBlockhash with
  | .error reason => pure (.error (.cluster reason))
  | .ok blockhash =>
    match ← ask (.trySignAttachment message blockhash) with
    | .error _ => pure (.error .signingFailed)
    | .ok _ =>
      match ← ask (.sendAttachment ⟨message, blockhash⟩) with
      | .error reason => pure (.error (.cluster reason))
      | .ok _ => pure (.ok ())

/-- Attaches a receipt, after it was verified against the root the chain holds. An address that
cannot be derived panics, which is an output without a result. -/
def attach (epoch : UInt64) (receipt : List UInt8) :
    Dialogue (Option (Except AttachRefused (Digest × BitcoinClaim))) :=
  match findProgramAddress worker.chain [CheckpointAccount.seed, leList 8 epoch.toNat],
    findProgramAddress worker.chain [LogConfig.seed] with
  | some (checkpoint, _), some (config, _) => do
    match ← ofCluster (rootForEpoch checkpoint epoch) with
    | .error reason => pure (some (.error (.cluster reason.reason)))
    | .ok (.placed published) =>
      match verifyReceipt worker.receiptFormat receipt published.root.octets with
      | .error reason => pure (some (.error (.receipt reason)))
      | .ok claim =>
        match receiptDigest worker.hasher receipt with
        | none => pure (some (.error .tooLong))
        | some digest =>
          match ← sendAttach ⟨⟨config, checkpoint, worker.authority⟩, worker.payer, epoch, digest,
            1⟩ with
          | .error refused => pure (some (.error refused))
          | .ok _ => pure (some (.ok (digest, claim)))
    | .ok other => pure (some (.error (.notPublished other)))
  | _, _ => pure none

/-! ### The loop -/

/-- The operations whose failures are retried. -/
inductive Operation
  | observation
  | publication
  | submission
  | attachment
  | upgrade
deriving DecidableEq

/-- What is printed of a failed operation. -/
def Operation.message : Operation → String
  | .observation => "fresh state observation failed"
  | .publication => "checkpoint publication did not settle"
  | .submission => "calendar submission failed"
  | .attachment => "receipt attachment did not settle"
  | .upgrade => "receipt upgrade failed"

/-- Why the worker stops. -/
inductive Stop
  | clock
  | refused (refusal : Refusal)
  | exhausted (operation : String) (budget : UInt32)
  | handoff (failure : HandoffFailed)
  | publication (epoch : UInt64) (failure : PublishFailed)
  | receiptUnreadable (epoch : UInt64)
  | attachment (epoch : UInt64) (refused : AttachRefused)
  | panicked
deriving DecidableEq

/-- How a cycle went: what it completed, or which operation failed. -/
inductive Happened
  | waited
  | published
  | submitted
  | unconfirmed
  | attached
  | failed (operation : Operation)
  | stopped
deriving DecidableEq

/-- How a cycle went, and what the next one starts from, or why there is none. -/
structure CycleResult where
  happened : Happened
  next : Except Stop UInt32
deriving DecidableEq

/-- A completed step. -/
def completed (happened : Happened) : CycleResult where
  happened := happened
  next := .ok 0

/-- A stop that is not for the budget. -/
def stopped (reason : Stop) : CycleResult where
  happened := .stopped
  next := .error reason

/-- Counts a failure, and stops when the budget is exhausted. -/
def retryPartition (consecutiveFailures : UInt32) (operation : Operation) : CycleResult :=
  let consecutiveFailures :=
    if consecutiveFailures.toNat + 1 < 2 ^ 32 then consecutiveFailures + 1 else consecutiveFailures
  match worker.policy.partitionRetryDelay consecutiveFailures with
  | none => ⟨.failed operation,
      .error (.exhausted operation.message worker.policy.partitionRetryLimit)⟩
  | some _ => ⟨.failed operation, .ok consecutiveFailures⟩

/-- Publishes an epoch. -/
def performPublish (epoch : UInt64) (consecutiveFailures : UInt32) : Dialogue CycleResult := do
  match ← rootFor worker epoch with
  | .error failure => pure (stopped (.handoff failure))
  | .ok root =>
    let attempts :=
      if worker.policy.publishAttempts = 0 then 0 else worker.policy.publishAttempts - 1
    match ← ofCluster (publish worker.signatureFormat worker.chain epoch root worker.payer
      worker.authority attempts) with
    | none => pure (stopped .panicked)
    | some (.ok _) => pure (completed .published)
    | some (.error .outOfAttempts) => pure (retryPartition worker consecutiveFailures .publication)
    | some (.error (.unreachable _)) =>
      pure (retryPartition worker consecutiveFailures .publication)
    | some (.error failure) => pure (stopped (.publication epoch failure))

/-- Submits the root of an epoch. -/
def performSubmit (epoch : UInt64) (consecutiveFailures : UInt32) : Dialogue CycleResult := do
  match ← rootFor worker epoch with
  | .error failure => pure (stopped (.handoff failure))
  | .ok root =>
    match ← submit worker epoch root with
    | .ok _ => pure (completed .submitted)
    | .error _ => pure (retryPartition worker consecutiveFailures .submission)

/-- Attaches the receipt that was read back after its upgrade. -/
def performAttachment (epoch : UInt64) (consecutiveFailures : UInt32) : Dialogue CycleResult := do
  match ← ask (.readReceipt epoch) with
  | .error _ => pure (stopped (.receiptUnreadable epoch))
  | .ok receipt =>
    match ← attach worker epoch receipt with
    | none => pure (stopped .panicked)
    | some (.ok _) => pure (completed .attached)
    | some (.error (.cluster _)) => pure (retryPartition worker consecutiveFailures .attachment)
    | some (.error refused) => pure (stopped (.attachment epoch refused))

/-- Upgrades the receipt of an epoch and attaches it once Bitcoin has confirmed. -/
def performAttach (epoch : UInt64) (consecutiveFailures : UInt32) : Dialogue CycleResult := do
  match ← rootFor worker epoch with
  | .error failure => pure (stopped (.handoff failure))
  | .ok root =>
    let there : Bool ← ask (.observe (.receiptExists epoch))
    if there then
      match ← upgrade worker epoch root with
      | .ok none => pure (completed .unconfirmed)
      | .ok (some _) => performAttachment worker epoch consecutiveFailures
      | .error _ => pure (retryPartition worker consecutiveFailures .upgrade)
    else pure (stopped (.receiptUnreadable epoch))

/-- Performs a step. -/
def perform (consecutiveFailures : UInt32) : Step → Dialogue CycleResult
  | .refuse refusal => pure (stopped (.refused refusal))
  | .wait _ => pure (completed .waited)
  | .publish epoch => performPublish worker epoch consecutiveFailures
  | .submit epoch => performSubmit worker epoch consecutiveFailures
  | .attach epoch => performAttach worker epoch consecutiveFailures

/-- What the worker observes at a time of a day. -/
def look (now : Int64) (today : UInt64) : Dialogue (Except ObserveFailed Observed) :=
  ofInquiry (observe programId (addressesOf worker.chain) now today)

/-- A cycle, from the number of failures in a row before it. A clock that cannot be read stops the
worker. -/
def cycle (consecutiveFailures : UInt32) (clock : Option Int64) : Dialogue CycleResult :=
  match clock with
  | none => pure (stopped .clock)
  | some now =>
    match dayIndex now with
    | none => pure (stopped .clock)
    | some today => do
      match ← look worker now today with
      | .error _ => pure (retryPartition worker consecutiveFailures .observation)
      | .ok observed => perform worker 0 (nextStepWithPolicy worker.schedule observed worker.policy)

end Worker

end AnchoredLog.Client.WorkerCycle
