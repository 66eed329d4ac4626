import AnchoredLog.Port.Accounts
import AnchoredLog.Program.Griefing

/-!
# What the program stores and what is read of it

In every ledger of a run, an account of the program holds the octets of one record, of the schema
the program writes. Both readers return the record from these octets: the client every field it
keeps, for the epoch of the record and from no other owner, and the port every field it keeps. What
they report of its anchoring is the same (`stored_accounts_read`).
-/

set_option autoImplicit false
set_option relaxedAutoImplicit false

namespace AnchoredLog.Port.StoredAccounts

open Library.ByteCodec Library.Runs Primitives Accounts
open Program.AccountLayouts Program.ChainRuntime Program.Checkpoint Program.LogInvariant
open Program.LogSafety Program.Griefing
open Client.Publish Client.Fetch

/-! ### Reading a record -/

/-- The status the port reports, in the client's terms. -/
def statusInClient : PortAnchorStatus → AnchorStatus
  | .single => .single
  | .dual => .dual

/-- Both readers return a configuration from its octets. -/
structure ConfigRead (sha256 : List UInt8 → Octets 32) (config : LogConfig) : Prop where
  client : decodeConfig programId programId config.octets = .ok config
  port : decodeLogConfig sha256 config.octets = .ok (portConfig config)

/-- Both readers return a checkpoint from its octets, and report the same of its anchoring. -/
structure CheckpointRead (sha256 : List UInt8 → Octets 32) (checkpoint : CheckpointAccount) :
    Prop where
  client : decodeCheckpointOf programId programId checkpoint.octets checkpoint.epoch =
    .ok (publishedCheckpoint checkpoint)
  port : decodeCheckpointAccount sha256 checkpoint.octets = .ok (portCheckpoint checkpoint)
  status : statusOf (.placed (publishedCheckpoint checkpoint)) =
    statusInClient (anchorStatus (portCheckpoint checkpoint))
  single : anchorStatus (portCheckpoint checkpoint) = .single ↔
    checkpoint.receiptDigest = noReceipt
  otherEpoch : ∀ epoch, epoch ≠ checkpoint.epoch →
    decodeCheckpointOf programId programId checkpoint.octets epoch = .error .wrongEpoch
  otherOwner : ∀ owner epoch, owner ≠ programId →
    decodeCheckpointOf programId owner checkpoint.octets epoch = .error .notTheProgram

theorem all_zero_iff {width : ℕ} {string : Octets width} :
    string.octets.all (· == 0) ↔ string = Octets.zeros width := by
  rw [List.all_eq_true, Octets.ext_iff, Octets.zeros, List.eq_replicate_iff]
  simp [string.length_octets]

/-- The port reports one anchor when no receipt is attached. -/
theorem anchorStatus_portCheckpoint (checkpoint : CheckpointAccount) :
    anchorStatus (portCheckpoint checkpoint) =
      if checkpoint.receiptDigest = noReceipt then .single else .dual :=
  if_congr all_zero_iff rfl rfl

/-- The client refuses a checkpoint that is not of the epoch asked for. -/
theorem decodeCheckpointOf_otherEpoch {checkpoint : CheckpointAccount} {epoch : UInt64}
    (hschema : checkpoint.schemaVersion = schemaVersion) (hother : epoch ≠ checkpoint.epoch) :
    decodeCheckpointOf programId programId checkpoint.octets epoch = .error .wrongEpoch := by
  have hlength : ¬ checkpoint.octets.length < CheckpointAccount.len := by
    rw [length_octets_checkpoint]
    exact lt_irrefl _
  rw [decodeCheckpointOf, if_neg (not_not.mpr rfl), if_neg hlength, CheckpointAccount.octets,
    List.take_left' (Octets.length_octets _), if_neg (not_not.mpr rfl),
    List.drop_left' (Octets.length_octets _), deserialize_serialize_checkpoint]
  dsimp only
  rw [if_neg (not_not.mpr hschema), if_pos hother.symm]

section Readers

variable {sha256 : List UInt8 → Octets 32} (hsha : Discriminators sha256)

include hsha

theorem configRead_of_schema {config : LogConfig} (hschema : config.schemaVersion = schemaVersion) :
    ConfigRead sha256 config where
  client := decodeConfig_eq_ok_iff.mpr ⟨rfl, hschema, [], (List.append_nil _).symm⟩
  port := decodeLogConfig_octets hsha hschema

theorem checkpointRead_of_schema {checkpoint : CheckpointAccount}
    (hschema : checkpoint.schemaVersion = schemaVersion) : CheckpointRead sha256 checkpoint where
  client := decodeCheckpointOf_eq_ok_iff.mpr
    ⟨rfl, checkpoint, [], (List.append_nil _).symm, hschema, rfl, rfl⟩
  port := decodeCheckpointAccount_octets hsha hschema
  status := by
    rw [anchorStatus_portCheckpoint, statusOf, publishedCheckpoint]
    split_ifs
    · rfl
    · rfl
  single := by
    rw [anchorStatus_portCheckpoint]
    split_ifs with hreceipt
    · exact iff_of_true rfl hreceipt
    · exact iff_of_false (by decide) hreceipt
  otherEpoch := fun _ hother ↦ decodeCheckpointOf_otherEpoch hschema hother
  otherOwner := fun _ _ howner ↦ if_pos howner

end Readers

/-! ### The schema of what is stored -/

/-- The checkpoints have the schema the program writes. -/
def CurrentCheckpoints (ledger : Ledger) : Prop :=
  ∀ address checkpoint, readCheckpoint ledger address = some checkpoint →
    checkpoint.schemaVersion = schemaVersion

variable {chain : Chain} {transaction : Transaction} {before after : Ledger}

/-- A change leaves the schema of the checkpoints as it was. -/
theorem currentCheckpoints_of_change (hchange : Change chain transaction before after)
    (hcurrent : CurrentCheckpoints before) : CurrentCheckpoints after := by
  intro address checkpoint hread
  cases hchange with
  | nothing hsame =>
    rw [readCheckpoint_congr (hsame address)] at hread
    exact hcurrent address checkpoint hread
  | initialized hunstarted heffect =>
    have hstarted := started_of_initialized hunstarted heffect
    obtain ⟨haway, -, -⟩ := hstarted.stored_of_readCheckpoint hread
    have hsame : contentAt after address = contentAt before address := by
      rw [heffect.effect, if_neg haway]
    rw [readCheckpoint_congr hsame] at hread
    exact hcurrent address checkpoint hread
  | published hstarted heffect =>
    rcases (readCheckpoint_published hstarted heffect).mp hread with ⟨-, rfl⟩ | hbefore
    · rfl
    · exact hcurrent address checkpoint hbefore
  | @attached accounts _ _ _ earlier hstarted heffect =>
    by_cases hsame : address = accounts.checkpoint
    · rw [hsame, readCheckpoint_of_content (contentAt_attached heffect),
        Option.some.injEq] at hread
      rw [← hread]
      exact hcurrent _ earlier (toOption_eq_some_iff.mpr heffect.loaded)
    · rw [readCheckpoint_congr (contentAt_unattached heffect hsame)] at hread
      exact hcurrent address checkpoint hread

/-- What holds of the accounts of every ledger of a run. -/
structure Stored (chain : Chain) (ledger : Ledger) : Prop where
  consistent : Consistent chain ledger
  configs : CurrentSchema ledger
  checkpoints : CurrentCheckpoints ledger

theorem stored_advance (hsystem : chain.system.Documented) (ledger : Ledger)
    (transaction : Transaction) (hstored : Stored chain ledger) :
    Stored chain (advance chain ledger transaction) := by
  have hchange : Change chain transaction ledger (advance chain ledger transaction) :=
    change_of_advance hsystem hstored.consistent
  exact ⟨consistent_of_change hstored.consistent hchange, schema_of_change hchange hstored.configs,
    currentCheckpoints_of_change hchange hstored.checkpoints⟩

theorem stored_advanceAll (hsystem : chain.system.Documented) {initial : Ledger}
    (hunstarted : Unstarted initial) (transactions : List Transaction) :
    Stored chain (advanceAll chain initial transactions) := by
  refine run_invariant (stored_advance hsystem) ⟨.inl hunstarted, ?_, ?_⟩ transactions
  · intro address config hread
    rw [hunstarted.readConfig_eq_none] at hread
    cases hread
  · intro address checkpoint hread
    rw [hunstarted.readCheckpoint_eq_none] at hread
    cases hread

/-- An account of the program holds the octets of a configuration or of a checkpoint, of the
schema the program writes. -/
theorem Stored.exists_record {ledger : Ledger} (hstored : Stored chain ledger) {address : Pubkey}
    (howner : (ledger address).owner = programId) :
    (∃ config, (ledger address).data = LogConfig.octets config ∧
        config.schemaVersion = schemaVersion) ∨
      ∃ checkpoint, (ledger address).data = CheckpointAccount.octets checkpoint ∧
        checkpoint.schemaVersion = schemaVersion := by
  rcases hstored.consistent with hunstarted | ⟨place, config, hstarted⟩
  · exact absurd howner (hunstarted address)
  · by_cases hplace : address = place
    · subst hplace
      exact .inl ⟨config, congrArg Prod.snd hstarted.stored,
        hstored.configs address config (readConfig_of_content hstarted.stored)⟩
    · obtain ⟨checkpoint, hcontent, -⟩ := hstarted.owned address hplace howner
      exact .inr ⟨checkpoint, congrArg Prod.snd hcontent,
        hstored.checkpoints address checkpoint (readCheckpoint_of_content hcontent)⟩

/-- What the program writes, both readers read: every configuration and every checkpoint of the
schema, and every account the program owns in a ledger of a run is one of these. -/
theorem stored_accounts_read (sha256 : List UInt8 → Octets 32) (hsha : Discriminators sha256)
    (chain : Chain) (hsystem : chain.system.Documented) (initial : Ledger)
    (hunstarted : Unstarted initial) (transactions : List Transaction) :
    (∀ config, config.schemaVersion = schemaVersion → ConfigRead sha256 config) ∧
      (∀ checkpoint, checkpoint.schemaVersion = schemaVersion →
        CheckpointRead sha256 checkpoint) ∧
      ∀ address, (advanceAll chain initial transactions address).owner = programId →
        (∃ config, (advanceAll chain initial transactions address).data =
            LogConfig.octets config ∧ ConfigRead sha256 config) ∨
          ∃ checkpoint, (advanceAll chain initial transactions address).data =
            CheckpointAccount.octets checkpoint ∧ CheckpointRead sha256 checkpoint := by
  refine ⟨fun _ ↦ configRead_of_schema hsha, fun _ ↦ checkpointRead_of_schema hsha, ?_⟩
  intro address howner
  have hstored := stored_advanceAll hsystem hunstarted transactions
  rcases hstored.exists_record howner with
    ⟨config, hdata, hschema⟩ | ⟨checkpoint, hdata, hschema⟩
  · exact .inl ⟨config, hdata, configRead_of_schema hsha hschema⟩
  · exact .inr ⟨checkpoint, hdata, checkpointRead_of_schema hsha hschema⟩

/-- The accounts of a log with one epoch, one of which the program owns at the address of that
epoch. -/
theorem stored_accounts_read_oneEpoch :
    ((∀ config, config.schemaVersion = schemaVersion → ConfigRead accountDigests config) ∧
      (∀ checkpoint, checkpoint.schemaVersion = schemaVersion →
        CheckpointRead accountDigests checkpoint) ∧
      ∀ address, (advanceAll plainChain fundedLedger oneEpoch address).owner = programId →
        (∃ config, (advanceAll plainChain fundedLedger oneEpoch address).data =
            LogConfig.octets config ∧ ConfigRead accountDigests config) ∨
          ∃ checkpoint, (advanceAll plainChain fundedLedger oneEpoch address).data =
            CheckpointAccount.octets checkpoint ∧ CheckpointRead accountDigests checkpoint) ∧
      (advanceAll plainChain fundedLedger oneEpoch
        ⟨CheckpointAccount.seed ++ leList 8 20000 ++ [255] ++ List.replicate 16 0, rfl⟩).owner =
          programId :=
  ⟨stored_accounts_read accountDigests discriminators_accountDigests plainChain
    referenceSystem_documented fundedLedger (fun _ ↦ programId_ne_systemProgramId.symm) oneEpoch,
    by decide +kernel⟩

end AnchoredLog.Port.StoredAccounts
