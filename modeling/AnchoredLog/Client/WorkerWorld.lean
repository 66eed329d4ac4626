import AnchoredLog.Client.WorkerLog
import AnchoredLog.Library.SharedWorld
import Mathlib.Logic.Relation

/-!
# The world of the worker

What the worker's cycles have in common: the ledger, the receipts directory, and what the worker has
sent and read. A submission that was sent lands at any later time or never, and other transactions
that the log's authority has not signed run at any time. A read of the chain returns the current
state or fails, and every other operation may fail with or without its effect; a receipt, once
there, is not deleted. The test for a receipt has one answer for a file that is not there and for
one whose metadata cannot be read; where the disk is `truthful` it does not fail.

`Sound` is what an interrupted cycle may rely on: every epoch before a published one is attached,
what is still in flight may land, and every receipt on chain was verified against the root of its
epoch. It is kept when the world moves (`sound_of_moves`) and by every request that is `Allowed`
(`sound_of_effect`), whether the disk is truthful or not.
-/

set_option autoImplicit false
set_option relaxedAutoImplicit false

namespace AnchoredLog.Client.WorkerWorld

open Library.ByteCodec Library.Interactions Library.SharedWorld Core.Preimages
open Program.AccountLayouts Program.ChainRuntime Program.Checkpoint Program.LogInvariant
open Program.Balances PublishNetwork Fetch Receipts WorkerCycle WorkerLog
open Publish hiding Request Answer Dialogue

/-! ### The world -/

/-- The chain, the receipts directory and every receipt it ever held, the hand-offs that were read,
the submissions that were sent, and the epochs of those that landed, in their order. -/
structure World where
  ledger : Ledger
  receipts : UInt64 → Option (List UInt8)
  wrote : List (UInt64 × List UInt8)
  handoffs : List (UInt64 × List UInt8)
  sentPublications : List SignedTransaction
  sentAttachments : List SignedAttachment
  published : List UInt64
  attached : List UInt64

/-- The world in which the worker is started: nothing was read or sent and the directory is
empty. -/
def World.start (initial : Ledger) : World where
  ledger := initial
  receipts := fun _ ↦ none
  wrote := []
  handoffs := []
  sentPublications := []
  sentAttachments := []
  published := []
  attached := []

/-- An attachment as the chain runs it at a reading of its clock. -/
def attachmentOf (signed : SignedAttachment) (clock : Clock) : Transaction :=
  ⟨⟨[signed.message.payer, signed.message.accounts.authority], clock⟩,
    .attachAnchorReceipt signed.message.accounts signed.message.epoch signed.message.receiptDigest
      signed.message.kind⟩

/-- The world after a receipt was written. -/
def World.writes (world : World) (epoch : UInt64) (receipt : List UInt8) : World :=
  { world with
    receipts := Function.update world.receipts epoch (some receipt)
    wrote := (epoch, receipt) :: world.wrote }

@[simp] theorem World.receipts_writes_self (world : World) (epoch : UInt64)
    (receipt : List UInt8) : (world.writes epoch receipt).receipts epoch = some receipt := by
  simp [World.writes]

theorem World.receipts_writes_of_ne (world : World) {epoch other : UInt64}
    (haway : other ≠ epoch) (receipt : List UInt8) :
    (world.writes epoch receipt).receipts other = world.receipts other := by
  simp [World.writes, haway]

/-- The world after a hand-off was read, when it was. -/
def World.readsHandoff (world : World) (epoch : UInt64) : Except String (List UInt8) → World
  | .ok bytes => { world with handoffs := (epoch, bytes) :: world.handoffs }
  | .error _ => world

/-- The world after a publication was sent. -/
def World.sendsPublication (world : World) (signed : SignedTransaction) : World :=
  { world with sentPublications := signed :: world.sentPublications }

/-- The world after an attachment was sent. -/
def World.sendsAttachment (world : World) (signed : SignedAttachment) : World :=
  { world with sentAttachments := signed :: world.sentAttachments }

/-- How the world moves by itself: what was sent lands, and others transact without the authority's
signature. -/
inductive Moves (worker : Worker) (world : World) : World → Prop
  | publishes {signed : SignedTransaction} {clock : Clock} {reached : Ledger}
      (hsent : signed ∈ world.sentPublications)
      (hrun : execute worker.chain (transactionOf signed clock) world.ledger = .ok reached) :
      Moves worker world
        { world with ledger := reached, published := world.published ++ [signed.message.epoch] }
  | attaches {signed : SignedAttachment} {clock : Clock} {reached : Ledger}
      (hsent : signed ∈ world.sentAttachments)
      (hrun : execute worker.chain (attachmentOf signed clock) world.ledger = .ok reached) :
      Moves worker world
        { world with ledger := reached, attached := world.attached ++ [signed.message.epoch] }
  | others {transaction : Transaction} {reached : Ledger}
      (hforeign : worker.authority ∉ transaction.context.signers)
      (hrun : execute worker.chain transaction world.ledger = .ok reached) :
      Moves worker world { world with ledger := reached }

/-- What a request does and how it is answered. A read of the chain returns its current state or
fails, and of what was sent and what a command did nothing is told. A test for a receipt that fails
is answered as one for a receipt that is not there, and on a `truthful` disk none fails. -/
def Effect (worker : Worker) (truthful : Prop) (before : World) :
    (asked : Request) → Answer asked → World → Prop
  | .observe (.accountsAt addresses), answer, after => after = before ∧
      ∀ view, answer = .ok view → view.accounts = addresses.map (accountOf before.ledger)
  | .observe (.status epoch), answer, after => after = before ∧
      ∀ status, answer = .ok status → status = statusOf (fetched epoch
        (accountOf before.ledger ((addressesOf worker.chain).checkpoint epoch)))
  | .observe (.receiptExists epoch), answer, after =>
      after = before ∧ (answer = true → (before.receipts epoch).isSome) ∧
        (truthful → (before.receipts epoch).isSome → answer = true)
  | .cluster (.account address), answer, after => after = before ∧
      ∀ seen, answer = .ok seen → seen.account = accountOf before.ledger address
  | .cluster (.sendAndConfirm signed), _, after => after = before.sendsPublication signed
  | .sendAttachment signed, _, after => after = before.sendsAttachment signed
  | .runOts (.stamp epoch), _, after =>
      after = before ∨ ∃ receipt, after = before.writes epoch receipt
  | .runOts (.upgrade epoch), _, after =>
      after = before ∨ ∃ receipt, (before.receipts epoch).isSome ∧
        after = before.writes epoch receipt
  | .readReceipt epoch, answer, after => after = before ∧
      ∀ receipt, answer = .ok receipt → before.receipts epoch = some receipt
  | .readHandoff epoch, answer, after => after = before.readsHandoff epoch answer
  | _, _, after => after = before

/-! ### What the worker may ask -/

/-- A publication may be sent when every earlier epoch of the log is attached. -/
structure Publishable (worker : Worker) (start : UInt64) (ledger : Ledger)
    (signed : SignedTransaction) : Prop where
  message : publishMessage worker.chain signed.message.epoch signed.message.root worker.payer
    worker.authority = some signed.message
  attached : ∀ earlier, start ≤ earlier → earlier < signed.message.epoch →
    IsAttached ledger earlier

/-- A digest is of a receipt of the epoch that verifies against a root and carries a Bitcoin
attestation. -/
def Verified (worker : Worker) (world : World) (epoch : UInt64) (root : Octets 32)
    (digest : Digest) : Prop :=
  ∃ receipt claim, (epoch, receipt) ∈ world.wrote ∧
    verifyReceipt worker.receiptFormat receipt root.octets = .ok claim ∧
    receiptDigest worker.hasher receipt = some digest

/-- An attachment may be sent with a receipt verified against the root the chain holds. -/
def Attachable (worker : Worker) (world : World) (signed : SignedAttachment) : Prop :=
  ∃ root, RootOnChain world.ledger signed.message.epoch root ∧
    Verified worker world signed.message.epoch root signed.message.receiptDigest

/-- What the worker may ask: submissions that may be sent and, on a truthful disk, stamps of epochs
with no receipt. -/
def Allowed (worker : Worker) (truthful : Prop) (start : UInt64) (world : World) : Request → Prop
  | .cluster (.sendAndConfirm signed) => Publishable worker start world.ledger signed
  | .sendAttachment signed => Attachable worker world signed
  | .runOts (.stamp epoch) => truthful → world.receipts epoch = none
  | _ => True

theorem moves_refl (worker : Worker) (world : World) :
    Relation.ReflTransGen (Moves worker) world world :=
  .refl

theorem moves_trans (worker : Worker) (first second third : World)
    (hfirst : Relation.ReflTransGen (Moves worker) first second)
    (hsecond : Relation.ReflTransGen (Moves worker) second third) :
    Relation.ReflTransGen (Moves worker) first third :=
  hfirst.trans hsecond

/-- The surroundings of the worker's programs. -/
def around (worker : Worker) (truthful : Prop) (start : UInt64) :
    Surroundings Request Answer World where
  Moves := Relation.ReflTransGen (Moves worker)
  Effect := Effect worker truthful
  Allowed := Allowed worker truthful start
  refl := moves_refl worker
  trans := moves_trans worker

/-! ### What stays as it was -/

/-- What a later world keeps of an earlier one. -/
structure Later (before after : World) : Prop where
  ledger : Preserves before.ledger after.ledger
  wrote : before.wrote ⊆ after.wrote
  there : ∀ epoch, (before.receipts epoch).isSome → (after.receipts epoch).isSome

theorem Later.refl (world : World) : Later world world :=
  ⟨.refl world.ledger, fun _ hentry ↦ hentry, fun _ ↦ id⟩

variable {worker : Worker} {truthful : Prop} {start epoch : UInt64} {before after world : World}

theorem Verified.later {root : Octets 32} {digest : Digest}
    (hverified : Verified worker before epoch root digest) (hlater : Later before after) :
    Verified worker after epoch root digest := by
  obtain ⟨receipt, claim, hwrote, hclaim, hdigest⟩ := hverified
  exact ⟨receipt, claim, hlater.wrote hwrote, hclaim, hdigest⟩

theorem Publishable.later {signed : SignedTransaction}
    (hpublishable : Publishable worker start before.ledger signed) (hlater : Later before after) :
    Publishable worker start after.ledger signed where
  message := hpublishable.message
  attached := fun earlier hfirst hless ↦
    (hpublishable.attached earlier hfirst hless).preserved hlater.ledger

theorem Attachable.later {signed : SignedAttachment}
    (hattachable : Attachable worker before signed) (hlater : Later before after) :
    Attachable worker after signed := by
  obtain ⟨root, hroot, hverified⟩ := hattachable
  exact ⟨root, hroot.preserved hlater.ledger, hverified.later hlater⟩

/-! ### The invariant of the world -/

/-- What holds of the world between any two effects of the worker. -/
structure Sound (worker : Worker) (start : UInt64) (world : World) : Prop where
  log : ∃ address config,
    OwnLog worker.chain worker.authority start world.ledger address config ∧
      start.toNat + world.published.length = config.lastEpoch.toNat + 1
  contiguous : world.published.map UInt64.toNat =
    List.range' start.toNat world.published.length
  /-- Every epoch of the log before a published one is attached. -/
  ordered : ∀ epoch, IsPublished world.ledger epoch → ∀ earlier, start ≤ earlier →
    earlier < epoch → IsAttached world.ledger earlier
  publishable : ∀ signed ∈ world.sentPublications, Publishable worker start world.ledger signed
  attachable : ∀ signed ∈ world.sentAttachments, Attachable worker world signed
  once : world.attached.Nodup
  attached : ∀ epoch, epoch ∈ world.attached ↔ IsAttached world.ledger epoch
  verified : ∀ address checkpoint, readCheckpoint world.ledger address = some checkpoint →
    checkpoint.receiptDigest ≠ noReceipt →
    Verified worker world checkpoint.epoch checkpoint.root checkpoint.receiptDigest
  held : ∀ epoch receipt, world.receipts epoch = some receipt → (epoch, receipt) ∈ world.wrote
  kept : ∀ entry ∈ world.wrote, (world.receipts entry.1).isSome

theorem Sound.consistent (hsound : Sound worker start world) :
    Consistent worker.chain world.ledger := by
  obtain ⟨address, config, hlog, -⟩ := hsound.log
  exact .inr ⟨address, config, hlog.started⟩

/-- The world stays sound when the ledger goes on, as far as the log is concerned. -/
theorem Sound.reach (hsound : Sound worker start world) {reached : Ledger}
    (hpreserves : Preserves world.ledger reached) (hlog : ∃ address config,
      OwnLog worker.chain worker.authority start reached address config ∧
        start.toNat + world.published.length = config.lastEpoch.toNat + 1)
    (hsame : ∀ other, contentAt reached other = contentAt world.ledger other) :
    Sound worker start { world with ledger := reached } := by
  have hlater : Later world { world with ledger := reached } :=
    ⟨hpreserves, fun _ hentry ↦ hentry, fun _ ↦ id⟩
  refine ⟨hlog, hsound.contiguous, ?_, fun signed hsent ↦ ?_, fun signed hsent ↦ ?_, hsound.once,
    fun epoch ↦ (hsound.attached epoch).trans (isAttached_congr hsame).symm, ?_, hsound.held,
    hsound.kept⟩
  · rintro epoch ⟨address, checkpoint, hread, hepoch⟩ earlier hfirst hless
    rw [readCheckpoint_congr (hsame address)] at hread
    exact (hsound.ordered epoch ⟨address, checkpoint, hread, hepoch⟩ earlier hfirst
      hless).preserved hpreserves
  · exact (hsound.publishable signed hsent).later hlater
  · exact (hsound.attachable signed hsent).later hlater
  · intro address checkpoint hread hreceipt
    rw [readCheckpoint_congr (hsame address)] at hread
    exact hsound.verified address checkpoint hread hreceipt

/-- A transaction the authority has not signed keeps the world sound. -/
theorem Sound.others (hsystem : worker.chain.system.Documented)
    (hsound : Sound worker start world) {transaction : Transaction} {reached : Ledger}
    (hforeign : worker.authority ∉ transaction.context.signers)
    (hrun : execute worker.chain transaction world.ledger = .ok reached) :
    Sound worker start { world with ledger := reached } := by
  obtain ⟨address, config, hlog, hcount⟩ := hsound.log
  obtain ⟨hsame, hafter⟩ := hlog.foreign hsystem hforeign hrun
  exact hsound.reach (preserves_of_execute hsystem hsound.consistent hrun)
    ⟨address, config, hafter, hcount⟩ hsame

theorem exists_derived_of_publishMessage {chain : Chain} {root : Octets 32}
    {payer authority : Pubkey} {message : Message}
    (hmessage : publishMessage chain epoch root payer authority = some message) :
    ∃ bump, findProgramAddress chain [CheckpointAccount.seed, leList 8 epoch.toNat] =
      some (message.accounts.checkpoint, bump) := by
  simp only [publishMessage, Option.bind_eq_bind, Option.bind_eq_some_iff, Option.pure_def,
    Option.some.injEq] at hmessage
  obtain ⟨⟨checkpoint, bump⟩, hderived, config, -, rfl⟩ := hmessage
  exact ⟨bump, hderived⟩

/-- A publication that lands keeps the world sound. -/
theorem Sound.publishes (hsystem : worker.chain.system.Documented) (hrents : Rents worker.chain)
    (hsound : Sound worker start world) {signed : SignedTransaction} {clock : Clock}
    {reached : Ledger} (hsent : signed ∈ world.sentPublications)
    (hrun : execute worker.chain (transactionOf signed clock) world.ledger = .ok reached) :
    Sound worker start
      { world with ledger := reached, published := world.published ++ [signed.message.epoch] } := by
  obtain ⟨address, config, hlog, hcount⟩ := hsound.log
  have hpublishable := hsound.publishable signed hsent
  obtain ⟨derived, hderived⟩ := exists_derived_of_publishMessage hpublishable.message
  obtain ⟨hnext, hread, hafter⟩ := hlog.published hsystem hrents hderived hrun
  have hpreserves := preserves_of_execute hsystem hsound.consistent hrun
  have hlater : Later world
      { world with ledger := reached, published := world.published ++ [signed.message.epoch] } :=
    ⟨hpreserves, fun _ hentry ↦ hentry, fun _ ↦ id⟩
  refine ⟨⟨address, _, hafter, ?_⟩, ?_, ?_, fun other hother ↦ ?_, fun other hother ↦ ?_,
    hsound.once, fun epoch ↦ ?_, ?_, hsound.held, hsound.kept⟩
  · simp only [List.length_append, List.length_singleton]
    omega
  · rw [List.map_append, hsound.contiguous, List.length_append, List.length_singleton,
      List.range'_concat, List.map_singleton]
    simp only [Nat.one_mul]
    rw [show start.toNat + world.published.length = signed.message.epoch.toNat by omega]
  · intro epoch hpublished earlier hfirst hless
    obtain ⟨hlow, hhigh⟩ := hafter.isPublished_iff.mp hpublished
    by_cases hnew : epoch = signed.message.epoch
    · rw [hnew] at hless
      exact (hpublishable.attached earlier hfirst hless).preserved hpreserves
    · have hold : IsPublished world.ledger epoch := by
        have hne : epoch.toNat ≠ signed.message.epoch.toNat :=
          fun hsame ↦ hnew (UInt64.toNat_inj.mp hsame)
        have hle : epoch.toNat ≤ signed.message.epoch.toNat := UInt64.le_iff_toNat_le.mp hhigh
        exact hlog.isPublished_iff.mpr ⟨hlow, UInt64.le_iff_toNat_le.mpr (by omega)⟩
      exact (hsound.ordered epoch hold earlier hfirst hless).preserved hpreserves
  · exact (hsound.publishable other hother).later hlater
  · exact (hsound.attachable other hother).later hlater
  · refine (hsound.attached epoch).trans ⟨fun hattached ↦ hattached.preserved hpreserves, ?_⟩
    rintro ⟨place, checkpoint, hcheckpoint, hepoch, hreceipt⟩
    exact ⟨place, checkpoint, hread place checkpoint hcheckpoint hreceipt, hepoch, hreceipt⟩
  · intro place checkpoint hcheckpoint hreceipt
    exact (hsound.verified place checkpoint (hread place checkpoint hcheckpoint hreceipt)
      hreceipt).later hlater

section Attachment

variable {context : Context} {accounts : AttachAccounts} {digest : Digest} {ledger reached : Ledger}
  {config : LogConfig} {checkpoint : CheckpointAccount}
  (heffect : Attached context accounts epoch digest ledger reached config checkpoint)

include heffect in
/-- The attached epoch had no receipt before and has one after. -/
theorem isAttached_of_attached {chain : Chain} {address : Pubkey}
    (hstarted : Started chain ledger address config) :
    ¬ IsAttached ledger epoch ∧ IsAttached reached epoch := by
  constructor
  · rintro ⟨other, found, hfound, hepoch, hreceipt⟩
    have hloaded : readCheckpoint ledger accounts.checkpoint = some checkpoint :=
      toOption_eq_some_iff.mpr heffect.loaded
    have hsame := hstarted.unique other accounts.checkpoint found checkpoint hfound hloaded
      (hepoch.trans heffect.sameEpoch.symm)
    rw [hsame, hloaded, Option.some.injEq] at hfound
    rw [← hfound] at hreceipt
    exact hreceipt heffect.unattached
  · exact ⟨accounts.checkpoint, _, readCheckpoint_of_content (contentAt_attached heffect),
      heffect.sameEpoch, heffect.received⟩

include heffect in
/-- A checkpoint after the attachment is one of before or the one that got the receipt. -/
theorem readCheckpoint_of_attached {other : Pubkey} {found : CheckpointAccount}
    (hread : readCheckpoint reached other = some found) :
    readCheckpoint ledger other = some found ∨
      found.epoch = epoch ∧ found.root = checkpoint.root ∧ found.receiptDigest = digest := by
  by_cases hsame : other = accounts.checkpoint
  · subst hsame
    rw [readCheckpoint_of_content (contentAt_attached heffect), Option.some.injEq] at hread
    subst hread
    exact .inr ⟨heffect.sameEpoch, rfl, rfl⟩
  · rw [readCheckpoint_congr (contentAt_unattached heffect hsame)] at hread
    exact .inl hread

end Attachment

/-- An attachment that lands keeps the world sound. -/
theorem Sound.attaches (hsystem : worker.chain.system.Documented)
    (hsound : Sound worker start world) {signed : SignedAttachment} {clock : Clock}
    {reached : Ledger} (hsent : signed ∈ world.sentAttachments)
    (hrun : execute worker.chain (attachmentOf signed clock) world.ledger = .ok reached) :
    Sound worker start
      { world with ledger := reached, attached := world.attached ++ [signed.message.epoch] } := by
  obtain ⟨address, config, hlog, hcount⟩ := hsound.log
  obtain ⟨⟨checkpoint, heffect⟩, hafter⟩ := hlog.attached hrun
  obtain ⟨hbefore, hattached⟩ := isAttached_of_attached heffect hlog.started
  have hpreserves := preserves_of_execute hsystem hsound.consistent hrun
  have hlater : Later world
      { world with ledger := reached, attached := world.attached ++ [signed.message.epoch] } :=
    ⟨hpreserves, fun _ hentry ↦ hentry, fun _ ↦ id⟩
  refine ⟨⟨address, config, hafter, hcount⟩, hsound.contiguous, ?_, fun other hother ↦ ?_,
    fun other hother ↦ ?_, ?_, fun epoch ↦ ?_, ?_, hsound.held, hsound.kept⟩
  · intro epoch hpublished earlier hfirst hless
    have hold := hlog.isPublished_iff.mpr (hafter.isPublished_iff.mp hpublished)
    exact (hsound.ordered epoch hold earlier hfirst hless).preserved hpreserves
  · exact (hsound.publishable other hother).later hlater
  · exact (hsound.attachable other hother).later hlater
  · refine hsound.once.append (List.nodup_singleton _) (List.disjoint_singleton.mpr ?_)
    rwa [hsound.attached]
  · simp only [List.mem_append, List.mem_singleton, hsound.attached]
    constructor
    · rintro (hold | rfl)
      · exact hold.preserved hpreserves
      · exact hattached
    · rintro ⟨place, found, hread, hepoch, hreceipt⟩
      rcases readCheckpoint_of_attached heffect hread with hold | ⟨hnew, -, -⟩
      · exact .inl ⟨place, found, hold, hepoch, hreceipt⟩
      · exact .inr (hepoch.symm.trans hnew)
  · intro place found hread hreceipt
    rcases readCheckpoint_of_attached heffect hread with hold | ⟨hnew, hroot, hdigest⟩
    · exact (hsound.verified place found hold hreceipt).later hlater
    · obtain ⟨root, honChain, hverified⟩ := hsound.attachable signed hsent
      have hsame := honChain.unique hsound.consistent
        ⟨_, checkpoint, toOption_eq_some_iff.mpr heffect.loaded, heffect.sameEpoch, rfl⟩
      rw [hnew, hroot, hdigest, ← hsame]
      exact hverified.later hlater

/-- Whatever the world does keeps it sound. -/
theorem sound_of_moves (hsystem : worker.chain.system.Documented) (hrents : Rents worker.chain)
    (hsound : Sound worker start before)
    (hmoves : Relation.ReflTransGen (Moves worker) before after) : Sound worker start after := by
  induction hmoves with
  | refl => exact hsound
  | tail _ hmove ih =>
    cases hmove with
    | publishes hsent hrun => exact ih.publishes hsystem hrents hsent hrun
    | attaches hsent hrun => exact ih.attaches hsystem hsent hrun
    | others hforeign hrun => exact ih.others hsystem hforeign hrun

/-- The world leaves the receipts directory alone. -/
theorem receipts_of_moves (hmoves : Relation.ReflTransGen (Moves worker) before after) :
    after.receipts = before.receipts ∧ after.wrote = before.wrote := by
  induction hmoves with
  | refl => exact ⟨rfl, rfl⟩
  | tail _ hmove ih =>
    cases hmove with
    | publishes hsent hrun => exact ih
    | attaches hsent hrun => exact ih
    | others hforeign hrun => exact ih

/-- What is written on chain stays while the world moves. -/
theorem preserves_of_moves (hsystem : worker.chain.system.Documented) (hrents : Rents worker.chain)
    (hsound : Sound worker start before)
    (hmoves : Relation.ReflTransGen (Moves worker) before after) :
    Preserves before.ledger after.ledger := by
  induction hmoves with
  | refl => exact .refl before.ledger
  | tail hearlier hmove ih =>
    have hconsistent := (sound_of_moves hsystem hrents hsound hearlier).consistent
    cases hmove with
    | publishes hsent hrun =>
      exact ih.trans (preserves_of_execute hsystem hconsistent hrun)
    | attaches hsent hrun => exact ih.trans (preserves_of_execute hsystem hconsistent hrun)
    | others hforeign hrun => exact ih.trans (preserves_of_execute hsystem hconsistent hrun)

theorem later_of_moves (hsystem : worker.chain.system.Documented) (hrents : Rents worker.chain)
    (hsound : Sound worker start before)
    (hmoves : Relation.ReflTransGen (Moves worker) before after) : Later before after := by
  obtain ⟨hreceipts, hwrote⟩ := receipts_of_moves hmoves
  refine ⟨preserves_of_moves hsystem hrents hsound hmoves, ?_, ?_⟩
  · rw [hwrote]
    exact fun _ hentry ↦ hentry
  · intro epoch
    rw [hreceipts]
    exact id

/-! ### What a request changes -/

/-- Everything a request can do to the world. -/
theorem effect_cases {asked : Request} {answer : Answer asked}
    (heffect : Effect worker truthful before asked answer after) :
    after = before ∨
      (∃ other, asked = .readHandoff other ∧ ∃ bytes, after =
        { before with handoffs := (other, bytes) :: before.handoffs }) ∨
      (∃ signed, asked = .cluster (.sendAndConfirm signed) ∧
        after = before.sendsPublication signed) ∨
      (∃ signed, asked = .sendAttachment signed ∧ after = before.sendsAttachment signed) ∨
      ∃ epoch receipt, (asked = .runOts (.stamp epoch) ∨ (before.receipts epoch).isSome) ∧
        after = before.writes epoch receipt := by
  cases asked with
  | observe question =>
    cases question with
    | accountsAt addresses => exact .inl heffect.1
    | status epoch => exact .inl heffect.1
    | receiptExists epoch => exact .inl heffect.1
  | cluster asked =>
    cases asked with
    | sendAndConfirm signed => exact .inr (.inr (.inl ⟨signed, rfl, heffect⟩))
    | account address => exact .inl heffect.1
    | latestBlockhash => exact .inl heffect
    | trySign message blockhash => exact .inl heffect
    | signaturesForAddress address => exact .inl heffect
    | signatureStatuses signature => exact .inl heffect
  | sendAttachment signed => exact .inr (.inr (.inr (.inl ⟨signed, rfl, heffect⟩)))
  | runOts command =>
    cases command with
    | version => exact .inl heffect
    | stamp epoch =>
      rcases heffect with hsame | ⟨receipt, hwrites⟩
      · exact .inl hsame
      · exact .inr (.inr (.inr (.inr ⟨epoch, receipt, .inl rfl, hwrites⟩)))
    | upgrade epoch =>
      rcases heffect with hsame | ⟨receipt, hthere, hwrites⟩
      · exact .inl hsame
      · exact .inr (.inr (.inr (.inr ⟨epoch, receipt, .inr hthere, hwrites⟩)))
  | readReceipt epoch => exact .inl heffect.1
  | trySignAttachment message blockhash => exact .inl heffect
  | createReceipts => exact .inl heffect
  | writeStamped epoch root => exact .inl heffect
  | readStamped epoch => exact .inl heffect
  | readHandoff epoch =>
    cases answer with
    | error reason => exact .inl heffect
    | ok bytes => exact .inr (.inl ⟨epoch, rfl, bytes, heffect⟩)

theorem later_writes (world : World) (epoch : UInt64) (receipt : List UInt8) :
    Later world (world.writes epoch receipt) := by
  refine ⟨.refl world.ledger, List.subset_cons_self _ _, fun other hthere ↦ ?_⟩
  by_cases hsame : other = epoch
  · rw [hsame, World.receipts_writes_self]
    rfl
  · rwa [world.receipts_writes_of_ne hsame]

theorem later_of_effect {asked : Request} {answer : Answer asked}
    (heffect : Effect worker truthful before asked answer after) : Later before after := by
  rcases effect_cases heffect with rfl | ⟨other, -, bytes, rfl⟩ | ⟨signed, -, rfl⟩ |
    ⟨signed, -, rfl⟩ | ⟨epoch, receipt, -, rfl⟩
  · exact .refl after
  · exact ⟨.refl before.ledger, fun _ hentry ↦ hentry, fun _ ↦ id⟩
  · exact ⟨.refl before.ledger, fun _ hentry ↦ hentry, fun _ ↦ id⟩
  · exact ⟨.refl before.ledger, fun _ hentry ↦ hentry, fun _ ↦ id⟩
  · exact later_writes before epoch receipt

/-- No request changes the ledger by itself. -/
theorem ledger_of_effect {asked : Request} {answer : Answer asked}
    (heffect : Effect worker truthful before asked answer after) :
    after.ledger = before.ledger := by
  rcases effect_cases heffect with rfl | ⟨other, -, bytes, rfl⟩ | ⟨signed, -, rfl⟩ |
    ⟨signed, -, rfl⟩ | ⟨epoch, receipt, -, rfl⟩
  all_goals rfl

/-- A receipt that is written keeps the world sound. -/
theorem Sound.writes (hsound : Sound worker start world) (epoch : UInt64)
    (receipt : List UInt8) : Sound worker start (world.writes epoch receipt) := by
  have hlater := later_writes world epoch receipt
  refine ⟨hsound.log, hsound.contiguous, hsound.ordered, hsound.publishable,
    fun signed hsent ↦ (hsound.attachable signed hsent).later hlater, hsound.once,
    hsound.attached, fun address checkpoint hread hreceipt ↦
      (hsound.verified address checkpoint hread hreceipt).later hlater, ?_, ?_⟩
  · intro other held hheld
    by_cases hsame : other = epoch
    · subst hsame
      rw [World.receipts_writes_self, Option.some.injEq] at hheld
      rw [← hheld]
      exact List.mem_cons_self
    · rw [world.receipts_writes_of_ne hsame] at hheld
      exact List.mem_cons_of_mem _ (hsound.held other held hheld)
  · intro entry hentry
    rcases List.mem_cons.mp hentry with rfl | hold
    · rw [World.receipts_writes_self]
      rfl
    · exact hlater.there entry.1 (hsound.kept entry hold)

/-- A request that is allowed keeps the world sound. -/
theorem sound_of_effect (hsound : Sound worker start before) {asked : Request}
    (hallowed : Allowed worker truthful start before asked) {answer : Answer asked}
    (heffect : Effect worker truthful before asked answer after) : Sound worker start after := by
  rcases effect_cases heffect with rfl | ⟨other, -, bytes, rfl⟩ | ⟨signed, rfl, rfl⟩ |
    ⟨signed, rfl, rfl⟩ | ⟨epoch, receipt, -, rfl⟩
  · exact hsound
  · exact ⟨hsound.log, hsound.contiguous, hsound.ordered, hsound.publishable, hsound.attachable,
      hsound.once, hsound.attached, hsound.verified, hsound.held, hsound.kept⟩
  · refine { hsound with publishable := ?_ }
    intro other hother
    rcases List.mem_cons.mp hother with rfl | hold
    · exact hallowed
    · exact hsound.publishable other hold
  · refine { hsound with attachable := ?_ }
    intro other hother
    rcases List.mem_cons.mp hother with rfl | hold
    · exact hallowed
    · exact hsound.attachable other hold
  · exact hsound.writes epoch receipt

end AnchoredLog.Client.WorkerWorld
