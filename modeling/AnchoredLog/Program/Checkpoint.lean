import AnchoredLog.Program.ChainRuntime

/-!
# The checkpoint program

The three instructions of the program, each a function from the ledger it runs on to the ledger
it leaves or the error it fails with: the account checks it declares, its body, and the accounts
it writes back. A failed instruction leaves the ledger as it was, and a lamport transfer by a
third party is a fourth kind of transaction.

`initializeLog_effect`, `publishCheckpoint_effect` and `attachAnchorReceipt_effect` say once what
an instruction that succeeds has checked and what it does to the contents of the ledger.
-/

set_option autoImplicit false
set_option relaxedAutoImplicit false

namespace AnchoredLog.Program.Checkpoint

open Library.ByteCodec Library.Fallible AccountLayouts ChainRuntime

/-! ### Constants -/

/-- The seconds of a day. An epoch is a day counted from the start of 1970 in UTC. -/
def secondsPerDay : UInt64 :=
  86400

/-- The least height of the tree of an epoch. -/
def minTreeHeight : UInt8 :=
  4

/-- The greatest height of the tree of an epoch. -/
def maxTreeHeight : UInt8 :=
  16

/-- The schema version written into both accounts. -/
def schemaVersion : UInt16 :=
  1

/-- The one kind of receipt there is. -/
def anchorKindOpenTimestamps : UInt8 :=
  1

/-- The digest of an epoch without a receipt. -/
def noReceipt : Octets 32 :=
  Octets.zeros 32

/-! ### The accounts of the instructions -/

/-- The accounts named in an `initialize`. -/
structure InitializeAccounts where
  config : Pubkey
  payer : Pubkey
  systemProgram : Pubkey

/-- The accounts named in a `publish_checkpoint`. -/
structure PublishAccounts where
  config : Pubkey
  checkpoint : Pubkey
  authority : Pubkey
  payer : Pubkey
  systemProgram : Pubkey

/-- The accounts named in an `attach_anchor_receipt`. -/
structure AttachAccounts where
  config : Pubkey
  checkpoint : Pubkey
  authority : Pubkey

/-- The seeds of the configuration's address with a bump. -/
def configSeeds (bump : UInt8) : List (List UInt8) :=
  [LogConfig.seed, [bump]]

/-- The seeds of an epoch's checkpoint address with a bump. -/
def checkpointSeeds (epoch : UInt64) (bump : UInt8) : List (List UInt8) :=
  [CheckpointAccount.seed, leList 8 epoch.toNat, [bump]]

/-! ### The instructions -/

section Instructions

variable (chain : Chain) (context : Context)

/-- Writes the authority and the tree height once, at the day the chain's clock shows. -/
def initializeLog (accounts : InitializeAccounts) (authority : Pubkey) (treeHeight : UInt8)
    (startEpoch : UInt64) (ledger : Ledger) : Except ProgramError Ledger := do
  require (accounts.payer ∈ context.signers) (.anchor .accountNotSigner)
  require (accounts.systemProgram = systemProgramId) (.anchor .invalidProgramId)
  let derived ← okOr (findProgramAddress chain [LogConfig.seed]) (.anchor .constraintSeeds)
  require (accounts.config = derived.1) (.anchor .constraintSeeds)
  let ledger ← initAccount chain context accounts.payer accounts.config LogConfig.len
    (configSeeds derived.2) ledger
  require (minTreeHeight ≤ treeHeight ∧ treeHeight ≤ maxTreeHeight)
    (.checkpoint .malformedPayload)
  let unixTimestamp ← okOr (tryFromU64 context.clock.unixTimestamp.toInt)
    (.checkpoint .arithmeticOverflow)
  require (startEpoch = unixTimestamp / secondsPerDay) (.checkpoint .malformedPayload)
  let lastEpoch ← okOr (checkedSub startEpoch 1) (.checkpoint .arithmeticOverflow)
  writeAccount (LogConfig.octets ⟨schemaVersion, authority, lastEpoch, treeHeight, derived.2,
    startEpoch, Octets.zeros 8⟩) accounts.config ledger

/-- Tops a checkpoint address up to the rent it does not hold yet. -/
def topUp (payer target : Pubkey) (rent : UInt64) (ledger : Ledger) :
    Except ProgramError Ledger :=
  if (ledger target).lamports < rent then do
    let missing ← okOr (checkedSub rent (ledger target).lamports) (.checkpoint .arithmeticOverflow)
    invoke (chain.system.transfer context.signers payer target missing ledger)
  else
    .ok ledger

/-- Creates the checkpoint account: at once where the address holds nothing, and otherwise by
topping it up, allocating and assigning it. -/
def createCheckpoint (payer target : Pubkey) (seeds : List (List UInt8)) (ledger : Ledger) :
    Except ProgramError Ledger := do
  let rent := chain.minimumBalance CheckpointAccount.len
  if (ledger target).lamports = 0 then
    invoke (chain.system.createAccount (signersWith chain context seeds) payer target rent
      CheckpointAccount.len programId ledger)
  else
    let ledger ← topUp chain context payer target rent ledger
    let ledger ← invoke (chain.system.allocate (signersWith chain context seeds) target
      CheckpointAccount.len ledger)
    invoke (chain.system.assign (signersWith chain context seeds) target programId ledger)

/-- Publishes one root for the epoch after the last one, not ahead of the chain's day. -/
def publishCheckpoint (accounts : PublishAccounts) (epoch : UInt64) (root : Octets 32)
    (checkpointBump : UInt8) (ledger : Ledger) : Except ProgramError Ledger := do
  let config ← loadAccount LogConfig.discriminator LogConfig.deserialize ledger accounts.config
  require (accounts.authority ∈ context.signers) (.anchor .accountNotSigner)
  require (accounts.payer ∈ context.signers) (.anchor .accountNotSigner)
  require (accounts.systemProgram = systemProgramId) (.anchor .invalidProgramId)
  requireSeeds chain (configSeeds config.bump) accounts.config
  require (config.authority = accounts.authority) (.anchor .constraintHasOne)
  requireSeeds chain (checkpointSeeds epoch checkpointBump) accounts.checkpoint
  require (config.schemaVersion = schemaVersion) (.checkpoint .unsupportedSchemaVersion)
  require ((ledger accounts.checkpoint).owner ≠ programId ∨ (ledger accounts.checkpoint).data = [])
    (.checkpoint .checkpointAlreadyWritten)
  require ((ledger accounts.checkpoint).owner = systemProgramId ∧
    (ledger accounts.checkpoint).data = []) (.checkpoint .malformedPayload)
  let next ← okOr (checkedAdd config.lastEpoch 1) (.checkpoint .epochOutOfOrder)
  require (epoch = next) (.checkpoint .epochOutOfOrder)
  let chainDay ← okOr (tryFromU64 (context.clock.unixTimestamp.toInt.tdiv 86400))
    (.checkpoint .epochOutOfOrder)
  require (epoch ≤ chainDay) (.checkpoint .epochOutOfOrder)
  let ledger ← createCheckpoint chain context accounts.payer accounts.checkpoint
    (checkpointSeeds epoch checkpointBump) ledger
  let ledger ← writeAccount (CheckpointAccount.octets ⟨schemaVersion, epoch, root,
    context.clock.slot, context.clock.unixTimestamp, noReceipt, 0, checkpointBump,
    Octets.zeros 6⟩) accounts.checkpoint ledger
  writeAccount (LogConfig.octets { config with lastEpoch := epoch }) accounts.config ledger

/-- Attaches the digest of a receipt to an epoch, once. -/
def attachAnchorReceipt (accounts : AttachAccounts) (epoch : UInt64) (receiptDigest : Octets 32)
    (kind : UInt8) (ledger : Ledger) : Except ProgramError Ledger := do
  let config ← loadAccount LogConfig.discriminator LogConfig.deserialize ledger accounts.config
  let checkpoint ← loadAccount CheckpointAccount.discriminator CheckpointAccount.deserialize
    ledger accounts.checkpoint
  require (accounts.authority ∈ context.signers) (.anchor .accountNotSigner)
  requireSeeds chain (configSeeds config.bump) accounts.config
  require (config.authority = accounts.authority) (.anchor .constraintHasOne)
  requireSeeds chain (checkpointSeeds epoch checkpoint.bump) accounts.checkpoint
  require (config.schemaVersion = schemaVersion) (.checkpoint .unsupportedSchemaVersion)
  require (kind = anchorKindOpenTimestamps) (.checkpoint .malformedPayload)
  require (receiptDigest ≠ noReceipt) (.checkpoint .malformedPayload)
  require (checkpoint.epoch = epoch) (.checkpoint .epochOutOfOrder)
  require (checkpoint.receiptDigest = noReceipt) (.checkpoint .receiptAlreadyAttached)
  writeAccount (CheckpointAccount.octets
    { checkpoint with receiptDigest := receiptDigest, anchorKind := kind })
    accounts.checkpoint ledger

end Instructions

/-! ### Transactions -/

/-- What a transaction does: one of the program's instructions, or a transfer of lamports. -/
inductive Instruction
  | initializeLog (accounts : InitializeAccounts) (authority : Pubkey) (treeHeight : UInt8)
      (startEpoch : UInt64)
  | publishCheckpoint (accounts : PublishAccounts) (epoch : UInt64) (root : Octets 32)
      (checkpointBump : UInt8)
  | attachAnchorReceipt (accounts : AttachAccounts) (epoch : UInt64) (receiptDigest : Octets 32)
      (kind : UInt8)
  | transfer (source target : Pubkey) (lamports : UInt64)

/-- An instruction, who signed it and when the chain runs it. -/
structure Transaction where
  context : Context
  instruction : Instruction

/-- The outcome of a transaction. -/
def execute (chain : Chain) (transaction : Transaction) (ledger : Ledger) :
    Except ProgramError Ledger :=
  match transaction.instruction with
  | .initializeLog accounts authority treeHeight startEpoch =>
    initializeLog chain transaction.context accounts authority treeHeight startEpoch ledger
  | .publishCheckpoint accounts epoch root checkpointBump =>
    publishCheckpoint chain transaction.context accounts epoch root checkpointBump ledger
  | .attachAnchorReceipt accounts epoch receiptDigest kind =>
    attachAnchorReceipt chain transaction.context accounts epoch receiptDigest kind ledger
  | .transfer source target lamports =>
    invoke (chain.system.transfer transaction.context.signers source target lamports ledger)

/-- The ledger after a transaction: what it leaves, or the ledger as it was when it failed. -/
def advance (chain : Chain) (ledger : Ledger) (transaction : Transaction) : Ledger :=
  match execute chain transaction ledger with
  | .ok reached => reached
  | .error _ => ledger

/-- The ledger after a list of transactions. -/
def advanceAll (chain : Chain) (ledger : Ledger) (transactions : List Transaction) : Ledger :=
  transactions.foldl (advance chain) ledger

/-! ### What an instruction that succeeds has done -/

/-- The checkpoint a publication writes. -/
def published (context : Context) (epoch : UInt64) (root : Octets 32) (bump : UInt8) :
    CheckpointAccount :=
  ⟨schemaVersion, epoch, root, context.clock.slot, context.clock.unixTimestamp, noReceipt, 0, bump,
    Octets.zeros 6⟩

/-- What an `initialize` that succeeds has done: the canonical address was empty and holds the
configuration after. -/
structure Initialized (chain : Chain) (before after : Ledger) (address : Pubkey)
    (config : LogConfig) : Prop where
  derived : findProgramAddress chain [LogConfig.seed] = some (address, config.bump)
  vacant : contentAt before address = (systemProgramId, [])
  schema : config.schemaVersion = schemaVersion
  first : config.startEpoch.toNat = config.lastEpoch.toNat + 1
  effect : ∀ other, contentAt after other =
    if other = address then (programId, config.octets) else contentAt before other

/-- What a `publish_checkpoint` that succeeds has done: the authority signed, the address derived
from the epoch after the last was empty and holds the checkpoint after, and the configuration
counts the epoch. -/
structure Published (chain : Chain) (context : Context) (accounts : PublishAccounts)
    (epoch : UInt64) (root : Octets 32) (bump : UInt8) (before after : Ledger)
    (config : LogConfig) : Prop where
  loaded : loadAccount LogConfig.discriminator LogConfig.deserialize before accounts.config =
    .ok config
  signed : config.authority ∈ context.signers
  derived : chain.createProgramAddress (checkpointSeeds epoch bump) programId =
    some accounts.checkpoint
  vacant : contentAt before accounts.checkpoint = (systemProgramId, [])
  next : epoch.toNat = config.lastEpoch.toNat + 1
  calendar : (epoch.toNat : ℤ) ≤ context.clock.unixTimestamp.toInt.tdiv 86400
  effect : ∀ other, contentAt after other =
    if other = accounts.config then (programId, { config with lastEpoch := epoch }.octets)
    else if other = accounts.checkpoint then (programId, (published context epoch root bump).octets)
    else contentAt before other

/-- What an `attach_anchor_receipt` that succeeds has done: the authority signed, and the
checkpoint of the epoch, which had no receipt, has one. -/
structure Attached (context : Context) (accounts : AttachAccounts) (epoch : UInt64)
    (receiptDigest : Octets 32) (before after : Ledger) (config : LogConfig)
    (checkpoint : CheckpointAccount) : Prop where
  configLoaded : loadAccount LogConfig.discriminator LogConfig.deserialize before
    accounts.config = .ok config
  loaded : loadAccount CheckpointAccount.discriminator CheckpointAccount.deserialize before
    accounts.checkpoint = .ok checkpoint
  signed : config.authority ∈ context.signers
  received : receiptDigest ≠ noReceipt
  sameEpoch : checkpoint.epoch = epoch
  unattached : checkpoint.receiptDigest = noReceipt
  effect : ∀ other, contentAt after other =
    if other = accounts.checkpoint then
      (programId, { checkpoint with receiptDigest := receiptDigest, anchorKind := 1 }.octets)
    else contentAt before other

variable {chain : Chain} {context : Context} {before after : Ledger}

/-- An `initialize` that succeeds writes its authority and its day. -/
theorem initializeLog_writes (hsystem : chain.system.Documented) {accounts : InitializeAccounts}
    {authority : Pubkey} {treeHeight : UInt8} {startEpoch : UInt64}
    (hrun : initializeLog chain context accounts authority treeHeight startEpoch before =
      .ok after) : ∃ address lastEpoch bump, Initialized chain before after address
        ⟨schemaVersion, authority, lastEpoch, treeHeight, bump, startEpoch, Octets.zeros 8⟩ := by
  simp only [initializeLog, bind_unit_eq_ok_iff, okOr_bind_eq_ok_iff, require_eq_ok_iff] at hrun
  obtain ⟨-, -, ⟨address, bump⟩, hderived, haddress, hrest⟩ := hrun
  obtain ⟨created, hinit, hbody⟩ := bind_eq_ok_iff.mp hrest
  simp only [bind_unit_eq_ok_iff, okOr_bind_eq_ok_iff, require_eq_ok_iff] at hbody
  obtain ⟨-, unixTimestamp, -, -, lastEpoch, hlast, hwrite⟩ := hbody
  have hcreates := creates_of_initAccount hsystem hinit
  rw [haddress] at hcreates hwrite
  have hfirst := checkedSub_eq_some_iff.mp hlast
  refine ⟨address, lastEpoch, bump, hderived, hcreates.1, rfl, hfirst.symm, ?_⟩
  exact hcreates.write (length_octets_logConfig _) hwrite

theorem initializeLog_effect (hsystem : chain.system.Documented) {accounts : InitializeAccounts}
    {authority : Pubkey} {treeHeight : UInt8} {startEpoch : UInt64}
    (hrun : initializeLog chain context accounts authority treeHeight startEpoch before =
      .ok after) : ∃ address config, Initialized chain before after address config := by
  obtain ⟨address, lastEpoch, bump, heffect⟩ := initializeLog_writes hsystem hrun
  exact ⟨address, _, heffect⟩

theorem contentAt_topUp (hsystem : chain.system.Documented) {payer target : Pubkey}
    {rent : UInt64} (htopUp : topUp chain context payer target rent before = .ok after)
    (address : Pubkey) : contentAt after address = contentAt before address := by
  unfold topUp at htopUp
  split at htopUp
  · obtain ⟨missing, -, htransfer⟩ := okOr_bind_eq_ok_iff.mp htopUp
    rw [invoke_eq_ok_iff] at htransfer
    exact contentAt_transfer hsystem htransfer address
  · rw [Except.ok.injEq] at htopUp
    rw [htopUp]

/-- Both ways of creating the checkpoint account leave the same contents. -/
theorem creates_of_createCheckpoint (hsystem : chain.system.Documented) {payer target : Pubkey}
    {seeds : List (List UInt8)}
    (hcreate : createCheckpoint chain context payer target seeds before = .ok after) :
    Creates target CheckpointAccount.len before after := by
  unfold createCheckpoint at hcreate
  by_cases hheld : (before target).lamports = 0
  · rw [if_pos hheld, invoke_eq_ok_iff] at hcreate
    exact creates_of_createAccount hsystem hcreate
  · rw [if_neg hheld] at hcreate
    obtain ⟨funded, htopUp, hrest⟩ := bind_eq_ok_iff.mp hcreate
    obtain ⟨reached, hallocate, hassign⟩ := bind_eq_ok_iff.mp hrest
    rw [invoke_eq_ok_iff] at hallocate hassign
    exact (creates_of_allocate hsystem hallocate hassign).of_content
      (contentAt_topUp hsystem htopUp)

theorem requireSeeds_eq_ok_iff {seeds : List (List UInt8)} {address : Pubkey} :
    requireSeeds chain seeds address = .ok () ↔
      chain.createProgramAddress seeds programId = some address := by
  rw [requireSeeds, okOr_bind_eq_ok_iff]
  constructor
  · rintro ⟨derived, hderived, hsame⟩
    rw [require_eq_ok_iff] at hsame
    rw [hsame, hderived]
  · intro hderived
    exact ⟨address, hderived, require_of_true rfl⟩

theorem publishCheckpoint_effect (hsystem : chain.system.Documented) {accounts : PublishAccounts}
    {epoch : UInt64} {root : Octets 32} {bump : UInt8}
    (hlength : (before accounts.config).data.length = LogConfig.len)
    (hrun : publishCheckpoint chain context accounts epoch root bump before = .ok after) :
    ∃ config, Published chain context accounts epoch root bump before after config := by
  obtain ⟨config, hloaded, hbody⟩ := bind_eq_ok_iff.mp hrun
  simp only [bind_unit_eq_ok_iff, okOr_bind_eq_ok_iff, require_eq_ok_iff,
    requireSeeds_eq_ok_iff] at hbody
  obtain ⟨hsigned, -, -, -, hauthority, hderived, -, -, hvacant, next, hnext, rfl, day, hday, hle,
    hrest⟩ := hbody
  obtain ⟨created, hcreate, hwrites⟩ := bind_eq_ok_iff.mp hrest
  obtain ⟨written, hcheckpoint, hconfig⟩ := bind_eq_ok_iff.mp hwrites
  have howner : (before accounts.config).owner = programId := (loadAccount_eq_ok hloaded).1
  have hapart : accounts.config ≠ accounts.checkpoint := by
    intro hsame
    rw [hsame, hvacant.1] at howner
    exact programId_ne_systemProgramId howner.symm
  have hwritten := (creates_of_createCheckpoint hsystem hcreate).write
    (length_octets_checkpoint _) hcheckpoint
  have hkept : contentAt written accounts.config = contentAt before accounts.config := by
    rw [hwritten, if_neg hapart]
  have hdata : (written accounts.config).data = (before accounts.config).data :=
    congrArg Prod.snd hkept
  have hstill : (written accounts.config).owner = programId :=
    (congrArg Prod.fst hkept).trans howner
  have hafter := contentAt_writeAccount
    (by rw [hdata, hlength, length_octets_logConfig]) hconfig
  refine ⟨config, hloaded, hauthority ▸ hsigned, hderived, Prod.ext hvacant.1 hvacant.2,
    ?_, ?_, fun other ↦ ?_⟩
  · have hsum := checkedAdd_eq_some_iff.mp hnext
    exact hsum
  · have hword := tryFromU64_eq_some_iff.mp hday
    have hnat : epoch.toNat ≤ day.toNat := UInt64.le_iff_toNat_le.mp hle
    omega
  · rw [hafter other, hstill]
    by_cases hsame : other = accounts.config
    · rw [if_pos hsame, if_pos hsame]
    · rw [if_neg hsame, if_neg hsame]
      exact hwritten other

theorem attachAnchorReceipt_effect {accounts : AttachAccounts} {epoch : UInt64}
    {receiptDigest : Octets 32} {kind : UInt8}
    (hlength : (before accounts.checkpoint).data.length = CheckpointAccount.len)
    (hrun : attachAnchorReceipt chain context accounts epoch receiptDigest kind before =
      .ok after) :
    ∃ config checkpoint,
      Attached context accounts epoch receiptDigest before after config checkpoint := by
  obtain ⟨config, hconfig, hbody⟩ := bind_eq_ok_iff.mp hrun
  obtain ⟨checkpoint, hloaded, hrest⟩ := bind_eq_ok_iff.mp hbody
  simp only [bind_unit_eq_ok_iff, require_eq_ok_iff, requireSeeds_eq_ok_iff] at hrest
  obtain ⟨hsigned, -, hauthority, -, -, hkind, hreceived, hepoch, hunattached, hwrite⟩ := hrest
  have howner : (before accounts.checkpoint).owner = programId := (loadAccount_eq_ok hloaded).1
  have hafter := contentAt_writeAccount
    (by rw [hlength, length_octets_checkpoint]) hwrite
  refine ⟨config, checkpoint, hconfig, hloaded, hauthority ▸ hsigned, hreceived, hepoch,
    hunattached, fun other ↦ ?_⟩
  rw [hafter other, howner, hkind]
  rfl

end AnchoredLog.Program.Checkpoint
