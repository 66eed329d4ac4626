import AnchoredLog.Client.PublishNetwork
import AnchoredLog.Client.WorkerCycle
import AnchoredLog.Program.Balances

/-!
# A log with one writer

The ledger of a log that only the worker writes to, as `OwnLog` describes it: the program's accounts
are the configuration and one checkpoint for every epoch from the first to the last, each at the
address the client derives, with the schema the client accepts, and with lamports. So whoever asks
for an epoch of the log is answered with its checkpoint, and whoever asks for the configuration with
the bounds of the log.

`OwnLog` holds after an `initialize` and is kept by the worker's publications, by attachments, and
by every transaction the authority has not signed.
-/

set_option autoImplicit false
set_option relaxedAutoImplicit false

namespace AnchoredLog.Client.WorkerLog

open Library.ByteCodec Library.Fallible
open Program.AccountLayouts Program.ChainRuntime Program.Checkpoint Program.LogInvariant
open Program.Balances Publish PublishNetwork Fetch WorkerCycle

/-! ### Epochs on chain -/

/-- The ledger holds a checkpoint of the epoch. -/
def IsPublished (ledger : Ledger) (epoch : UInt64) : Prop :=
  ∃ address checkpoint, readCheckpoint ledger address = some checkpoint ∧ checkpoint.epoch = epoch

/-- The ledger holds a checkpoint of the epoch with a receipt. -/
def IsAttached (ledger : Ledger) (epoch : UInt64) : Prop :=
  ∃ address checkpoint, readCheckpoint ledger address = some checkpoint ∧
    checkpoint.epoch = epoch ∧ checkpoint.receiptDigest ≠ noReceipt

variable {chain : Chain} {authority : Pubkey} {start epoch : UInt64} {before after ledger : Ledger}
  {address : Pubkey} {config : LogConfig}

theorem IsPublished.preserved (hpublished : IsPublished before epoch)
    (hpreserves : Preserves before after) : IsPublished after epoch := by
  obtain ⟨address, checkpoint, hread, hepoch⟩ := hpublished
  obtain ⟨kept, hkept, hsame⟩ := hpreserves.checkpoint address checkpoint hread
  exact ⟨address, kept, hkept, hsame.epoch.trans hepoch⟩

theorem IsAttached.preserved (hattached : IsAttached before epoch)
    (hpreserves : Preserves before after) : IsAttached after epoch := by
  obtain ⟨address, checkpoint, hread, hepoch, hreceipt⟩ := hattached
  obtain ⟨kept, hkept, hsame⟩ := hpreserves.checkpoint address checkpoint hread
  refine ⟨address, kept, hkept, hsame.epoch.trans hepoch, ?_⟩
  rcases hsame.receipt with ⟨hdigest, -⟩ | ⟨⟨hnone, -⟩, -⟩
  · rw [hdigest]
    exact hreceipt
  · exact absurd hnone hreceipt

theorem IsAttached.isPublished (hattached : IsAttached ledger epoch) :
    IsPublished ledger epoch := by
  obtain ⟨address, checkpoint, hread, hepoch, -⟩ := hattached
  exact ⟨address, checkpoint, hread, hepoch⟩

theorem isAttached_congr (hsame : ∀ other, contentAt after other = contentAt before other) :
    IsAttached after epoch ↔ IsAttached before epoch := by
  simp only [IsAttached, readCheckpoint_congr (hsame _)]

/-! ### The ledger of one writer -/

/-- A log whose only writer derives its addresses as the client does. -/
structure OwnLog (chain : Chain) (authority : Pubkey) (start : UInt64) (ledger : Ledger)
    (address : Pubkey) (config : LogConfig) : Prop where
  started : Started chain ledger address config
  startEpoch : config.startEpoch = start
  authority : config.authority = authority
  schema : config.schemaVersion = schemaVersion
  canonical : ∀ other checkpoint, readCheckpoint ledger other = some checkpoint →
    checkpoint.schemaVersion = schemaVersion ∧
      ∃ bump, findProgramAddress chain
        [CheckpointAccount.seed, leList 8 checkpoint.epoch.toNat] = some (other, bump)
  paid : RentPaid ledger

theorem OwnLog.isPublished_iff (hlog : OwnLog chain authority start ledger address config) :
    IsPublished ledger epoch ↔ start ≤ epoch ∧ epoch ≤ config.lastEpoch := by
  rw [← hlog.startEpoch]
  constructor
  · rintro ⟨other, checkpoint, hread, rfl⟩
    obtain ⟨-, -, hplaced⟩ := hlog.started.stored_of_readCheckpoint hread
    exact ⟨hplaced.first, hplaced.last⟩
  · rintro ⟨hfirst, hlast⟩
    exact hlog.started.covered epoch hfirst hlast

/-- An account of the program is answered with its content. -/
theorem OwnLog.accountOf_eq (hlog : OwnLog chain authority start ledger address config)
    {other : Pubkey} {data : List UInt8} (hcontent : contentAt ledger other = (programId, data)) :
    accountOf ledger other = some (programId, data) := by
  rw [accountOf, if_neg (hlog.paid other (congrArg Prod.fst hcontent)), hcontent]

theorem decodeCheckpoint_octets {checkpoint : CheckpointAccount}
    (hschema : checkpoint.schemaVersion = schemaVersion) :
    decodeCheckpoint programId checkpoint.octets checkpoint.epoch =
      .ok (publishedCheckpoint checkpoint) := by
  have htake : checkpoint.octets.take 8 = CheckpointAccount.discriminator.octets := by
    rw [CheckpointAccount.octets, List.take_left' (Octets.length_octets _)]
  have hdrop : checkpoint.octets.drop 8 = checkpoint.serialize := by
    rw [CheckpointAccount.octets, List.drop_left' (Octets.length_octets _)]
  simp only [decodeCheckpoint, length_octets_checkpoint, lt_irrefl, ne_eq, not_true_eq_false,
    htake, hdrop, deserialize_serialize_checkpoint, hschema, if_false]

theorem decodeConfig_octets (hschema : config.schemaVersion = schemaVersion) :
    decodeConfig programId programId config.octets = .ok config := by
  have htake : config.octets.take 8 = LogConfig.discriminator.octets := by
    rw [LogConfig.octets, List.take_left' (Octets.length_octets _)]
  have hdrop : config.octets.drop 8 = config.serialize := by
    rw [LogConfig.octets, List.drop_left' (Octets.length_octets _)]
  simp only [decodeConfig, length_octets_logConfig, lt_irrefl, ne_eq, not_true_eq_false,
    htake, hdrop, deserialize_serialize_logConfig, hschema, if_false]

/-- Whoever asks for an epoch of the log is answered with its checkpoint. -/
theorem OwnLog.fetched_eq (hlog : OwnLog chain authority start ledger address config)
    {other : Pubkey} {checkpoint : CheckpointAccount}
    (hread : readCheckpoint ledger other = some checkpoint) :
    fetched checkpoint.epoch (accountOf ledger
      ((addressesOf chain).checkpoint checkpoint.epoch)) =
        .placed (publishedCheckpoint checkpoint) := by
  obtain ⟨hschema, bump, hderived⟩ := hlog.canonical other checkpoint hread
  obtain ⟨-, hcontent, -⟩ := hlog.started.stored_of_readCheckpoint hread
  have haddress : (addressesOf chain).checkpoint checkpoint.epoch = other := by
    simp only [addressesOf, hderived, Option.map_some, Option.getD_some]
  rw [haddress, hlog.accountOf_eq hcontent, fetched]
  simp only [decodeCheckpoint_octets hschema]

/-- The status of an epoch of the log says whether its receipt is attached. -/
theorem OwnLog.isAttached_iff (hlog : OwnLog chain authority start ledger address config)
    (hpublished : IsPublished ledger epoch) :
    IsAttached ledger epoch ↔ statusOf (fetched epoch (accountOf ledger
      ((addressesOf chain).checkpoint epoch))) ≠ .single := by
  obtain ⟨other, checkpoint, hread, rfl⟩ := hpublished
  rw [hlog.fetched_eq hread]
  by_cases hreceipt : checkpoint.receiptDigest = noReceipt
  · have hsingle : statusOf (.placed (publishedCheckpoint checkpoint)) = .single := if_pos hreceipt
    refine iff_of_false ?_ (not_not.mpr hsingle)
    rintro ⟨place, found, hfound, hepoch, hattached⟩
    have hplace := hlog.started.unique place other found checkpoint hfound hread hepoch
    rw [hplace, hread, Option.some.injEq] at hfound
    rw [← hfound] at hattached
    exact hattached hreceipt
  · have hdual : statusOf (.placed (publishedCheckpoint checkpoint)) = .dual := if_neg hreceipt
    refine iff_of_true ⟨other, checkpoint, hread, rfl, hreceipt⟩ ?_
    rw [hdual]
    simp

/-- Whoever asks for the configuration is answered with it. -/
theorem OwnLog.configOf_eq (hlog : OwnLog chain authority start ledger address config)
    (slot : Option UInt64) (rest : List (Option (Pubkey × List UInt8))) :
    configOf programId ⟨slot, accountOf ledger (addressesOf chain).config :: rest⟩ =
      .ok config := by
  have haddress : (addressesOf chain).config = address := by
    simp only [addressesOf, hlog.started.derived, Option.map_some, Option.getD_some]
  rw [haddress, hlog.accountOf_eq hlog.started.stored, configOf]
  simp only [decodeConfig_octets hlog.schema]

/-! ### How the log goes on -/

/-- The log of an `initialize` on a chain where the program owns nothing. -/
theorem ownLog_of_initializeLog (hsystem : chain.system.Documented) (hrents : Rents chain)
    {context : Context} {accounts : InitializeAccounts} {treeHeight : UInt8}
    (hunstarted : Unstarted before)
    (hrun : initializeLog chain context accounts authority treeHeight start before =
      .ok after) : ∃ address config, OwnLog chain authority start after address config ∧
        start.toNat = config.lastEpoch.toNat + 1 := by
  obtain ⟨address, lastEpoch, bump, heffect⟩ := initializeLog_writes hsystem hrun
  have hstarted := started_of_initialized hunstarted heffect
  have hnone : ∀ other checkpoint, readCheckpoint after other ≠ some checkpoint := by
    intro other checkpoint hread
    obtain ⟨-, -, hplaced⟩ := hstarted.stored_of_readCheckpoint hread
    have hfirst := UInt64.le_iff_toNat_le.mp hplaced.first
    have hlast := UInt64.le_iff_toNat_le.mp hplaced.last
    have hbounds := heffect.first
    omega
  refine ⟨address, _, ⟨hstarted, rfl, rfl, rfl, ?_, ?_⟩, heffect.first⟩
  · intro other checkpoint hread
    exact absurd hread (hnone other checkpoint)
  · exact rentPaid_initializeLog hsystem hrents hunstarted hrun

/-- A transaction that changes no content keeps the log. -/
theorem OwnLog.of_content (hlog : OwnLog chain authority start before address config)
    (hsame : ∀ other, contentAt after other = contentAt before other) (hpaid : RentPaid after) :
    OwnLog chain authority start after address config where
  started := hlog.started.of_content hsame
  startEpoch := hlog.startEpoch
  authority := hlog.authority
  schema := hlog.schema
  canonical := by
    intro other checkpoint hread
    rw [readCheckpoint_congr (hsame other)] at hread
    exact hlog.canonical other checkpoint hread
  paid := hpaid

/-- A publication to the address the client derives puts the next epoch on the log, without a
receipt. -/
theorem OwnLog.published (hsystem : chain.system.Documented) (hrents : Rents chain)
    (hlog : OwnLog chain authority start before address config) {context : Context}
    {accounts : PublishAccounts} {root : Octets 32} {bump derived : UInt8}
    (hderived : findProgramAddress chain [CheckpointAccount.seed, leList 8 epoch.toNat] =
      some (accounts.checkpoint, derived))
    (hrun : publishCheckpoint chain context accounts epoch root bump before = .ok after) :
    epoch.toNat = config.lastEpoch.toNat + 1 ∧
      (∀ other checkpoint, readCheckpoint after other = some checkpoint →
        checkpoint.receiptDigest ≠ noReceipt → readCheckpoint before other = some checkpoint) ∧
      OwnLog chain authority start after address { config with lastEpoch := epoch } := by
  obtain ⟨found, hstarted, heffect⟩ :=
    published_of_publishCheckpoint hsystem (.inr ⟨address, config, hlog.started⟩) hrun
  obtain ⟨rfl, rfl⟩ := hlog.started.readConfig_eq_some_iff.mp
    (readConfig_of_content hstarted.stored)
  refine ⟨heffect.next, ?_, started_of_published hstarted heffect, hlog.startEpoch,
    hlog.authority, hlog.schema, ?_,
    rentPaid_publishCheckpoint hsystem hrents hlog.paid heffect hrun⟩
  · intro other checkpoint hread hreceipt
    rcases (readCheckpoint_published hstarted heffect).mp hread with ⟨-, rfl⟩ | hbefore
    · exact absurd rfl hreceipt
    · exact hbefore
  · intro other checkpoint hread
    rcases (readCheckpoint_published hstarted heffect).mp hread with ⟨rfl, rfl⟩ | hbefore
    · exact ⟨rfl, derived, hderived⟩
    · exact hlog.canonical other checkpoint hbefore

/-- An attachment gives an epoch of the log its receipt. -/
theorem OwnLog.attached (hlog : OwnLog chain authority start before address config)
    {context : Context} {accounts : AttachAccounts} {receiptDigest : Octets 32} {kind : UInt8}
    (hrun : attachAnchorReceipt chain context accounts epoch receiptDigest kind before =
      .ok after) : (∃ checkpoint,
        Attached context accounts epoch receiptDigest before after config checkpoint) ∧
      OwnLog chain authority start after address config := by
  obtain ⟨found, checkpoint, hstarted, heffect⟩ :=
    attached_of_attachAnchorReceipt (.inr ⟨address, config, hlog.started⟩) hrun
  obtain ⟨rfl, rfl⟩ := hlog.started.readConfig_eq_some_iff.mp
    (readConfig_of_content hstarted.stored)
  refine ⟨⟨checkpoint, heffect⟩, started_of_attached hstarted heffect, hlog.startEpoch,
    hlog.authority, hlog.schema, ?_, rentPaid_attachAnchorReceipt hlog.paid heffect hrun⟩
  intro other found hread
  by_cases hsame : other = accounts.checkpoint
  · subst hsame
    rw [readCheckpoint_of_content (contentAt_attached heffect), Option.some.injEq] at hread
    subst hread
    exact hlog.canonical _ checkpoint (toOption_eq_some_iff.mpr heffect.loaded)
  · rw [readCheckpoint_congr (contentAt_unattached heffect hsame)] at hread
    exact hlog.canonical other found hread

/-- A transaction the authority has not signed changes nothing of the log. -/
theorem OwnLog.foreign (hsystem : chain.system.Documented)
    (hlog : OwnLog chain authority start before address config) {transaction : Transaction}
    (hforeign : authority ∉ transaction.context.signers)
    (hrun : execute chain transaction before = .ok after) :
    (∀ other, contentAt after other = contentAt before other) ∧
      OwnLog chain authority start after address config := by
  obtain ⟨context, instruction⟩ := transaction
  have hconsistent : Consistent chain before := .inr ⟨address, config, hlog.started⟩
  have hunsigned (found : LogConfig) {place : Pubkey}
      (hstarted : Started chain before place found) :
      found.authority ∉ context.signers := by
    obtain ⟨-, rfl⟩ := hlog.started.readConfig_eq_some_iff.mp
      (readConfig_of_content hstarted.stored)
    rw [hlog.authority]
    exact hforeign
  cases instruction with
  | initializeLog accounts other treeHeight startEpoch =>
    obtain ⟨place, found, heffect⟩ := initializeLog_effect hsystem hrun
    have howner : (before address).owner = programId := congrArg Prod.fst hlog.started.stored
    exact absurd howner (unstarted_of_initialized heffect hconsistent address)
  | publishCheckpoint accounts other root bump =>
    obtain ⟨found, hstarted, heffect⟩ := published_of_publishCheckpoint hsystem hconsistent hrun
    exact absurd heffect.signed (hunsigned found hstarted)
  | attachAnchorReceipt accounts other receiptDigest kind =>
    obtain ⟨found, checkpoint, hstarted, heffect⟩ :=
      attached_of_attachAnchorReceipt hconsistent hrun
    exact absurd heffect.signed (hunsigned found hstarted)
  | transfer source target lamports =>
    have htransfer := invoke_eq_ok_iff.mp hrun
    have hsame := contentAt_transfer hsystem htransfer
    refine ⟨hsame, hlog.of_content hsame (rentPaid_of_keeps hlog.paid
      (keepsOwned_transfer hsystem htransfer) fun other howner hbefore ↦ ?_)⟩
    exact absurd ((congrArg Prod.fst (hsame other)).symm.trans howner) hbefore

end AnchoredLog.Client.WorkerLog
