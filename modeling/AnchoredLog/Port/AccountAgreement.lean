import AnchoredLog.Port.Accounts

/-!
# Where the two account readers agree

The client reads a record from the front of an answer, the port from an answer that is the record.
They part on one kind of answer: octets that begin with a record of the schema and go on after it
(`account_readers_agree_iff`).
-/

set_option autoImplicit false
set_option relaxedAutoImplicit false

namespace AnchoredLog.Port.AccountAgreement

open Library.ByteCodec Library.Layouts Primitives Accounts
open Program.AccountLayouts Program.Checkpoint
open Client.Publish Client.Fetch

/-- Both readers accept or neither does, and what they read is the same. -/
structure Agree {Value Found : Type} (same : Value → Found → Prop)
    (client : Except Refused Value) (port : Thrown Found) : Prop where
  accept : (∃ value, client = .ok value) ↔ ∃ found, port = .ok found
  fields : ∀ value found, client = .ok value → port = .ok found → same value found

/-- A reader of the front of an answer and a reader of a whole answer agree unless the answer goes
on after a record. -/
theorem agree_iff {Record Value Found : Type} {octets : Record → List UInt8} {len : ℕ}
    {Current : Record → Prop} {view : Record → Value} {portView : Record → Found}
    {same : Value → Found → Prop} {client : Except Refused Value} {port : Thrown Found}
    {data : List UInt8} (hlength : ∀ record, (octets record).length = len)
    (hinjective : Function.Injective octets)
    (hclient : ∀ value, client = .ok value ↔
      ∃ record rest, data = octets record ++ rest ∧ Current record ∧ value = view record)
    (hport : ∀ found, port = .ok found ↔
      ∃ record, data = octets record ∧ Current record ∧ found = portView record)
    (hsame : ∀ record, same (view record) (portView record)) :
    Agree same client port ↔
      ¬ ∃ record rest, data = octets record ++ rest ∧ Current record ∧ rest ≠ [] := by
  constructor
  · rintro hagree ⟨record, rest, hdata, hcurrent, hrest⟩
    have hread := (hclient (view record)).mpr ⟨record, rest, hdata, hcurrent, rfl⟩
    obtain ⟨found, hfound⟩ := hagree.accept.mp ⟨view record, hread⟩
    obtain ⟨other, hother, -⟩ := (hport found).mp hfound
    have hlengths := congrArg List.length (hdata.symm.trans hother)
    rw [List.length_append, hlength, hlength] at hlengths
    exact hrest (List.eq_nil_of_length_eq_zero (by omega))
  · intro hexact
    refine ⟨⟨?_, ?_⟩, ?_⟩
    · rintro ⟨value, hvalue⟩
      obtain ⟨record, rest, hdata, hcurrent, -⟩ := (hclient value).mp hvalue
      have hrest : rest = [] := by
        by_contra hne
        exact hexact ⟨record, rest, hdata, hcurrent, hne⟩
      rw [hrest, List.append_nil] at hdata
      exact ⟨portView record, (hport _).mpr ⟨record, hdata, hcurrent, rfl⟩⟩
    · rintro ⟨found, hfound⟩
      obtain ⟨record, hdata, hcurrent, -⟩ := (hport found).mp hfound
      rw [← List.append_nil (octets record)] at hdata
      exact ⟨view record, (hclient _).mpr ⟨record, [], hdata, hcurrent, rfl⟩⟩
    · intro value found hvalue hfound
      obtain ⟨record, rest, hdata, -, rfl⟩ := (hclient value).mp hvalue
      obtain ⟨other, hother, -, rfl⟩ := (hport found).mp hfound
      have hoctets : octets record = octets other :=
        (List.append_inj (by rw [← hdata, hother, List.append_nil])
          ((hlength record).trans (hlength other).symm)).1
      rw [← hinjective hoctets]
      exact hsame record

/-! ### The fields the two hold in common -/

/-- The port holds the fields of a configuration. -/
def SameConfig (config : LogConfig) (found : PortLogConfig) : Prop :=
  found.schemaVersion = config.schemaVersion.toNat ∧ found.authority = config.authority.octets ∧
    found.lastEpoch = config.lastEpoch.toNat ∧ found.treeHeight = config.treeHeight.toNat ∧
      found.bump = config.bump.toNat ∧ found.startEpoch = config.startEpoch.toNat ∧
        found.reserved = config.reserved.octets

/-- The port holds the fields the client keeps of a checkpoint. -/
def SameCheckpoint (checkpoint : PublishedCheckpoint) (found : PortCheckpoint) : Prop :=
  found.epoch = checkpoint.epoch.toNat ∧ found.root = checkpoint.root.octets ∧
    found.publishedSlot = checkpoint.publishedSlot.toNat ∧
      found.publishedUnix = checkpoint.publishedUnix.toInt ∧
        found.receiptDigest = checkpoint.receiptDigest.octets ∧
          found.anchorKind = checkpoint.anchorKind.toNat

theorem sameConfig_portConfig (config : LogConfig) : SameConfig config (portConfig config) :=
  ⟨rfl, rfl, rfl, rfl, rfl, rfl, rfl⟩

theorem sameCheckpoint_portCheckpoint (checkpoint : CheckpointAccount) :
    SameCheckpoint (publishedCheckpoint checkpoint) (portCheckpoint checkpoint) :=
  ⟨rfl, rfl, rfl, rfl, rfl, rfl⟩

/-! ### Answers that go on after a record -/

/-- An answer of more octets than the layout has, under its discriminator and of the schema. -/
def GoesOn (len : ℕ) (discriminator : Octets 8) (data : List UInt8) : Prop :=
  len < data.length ∧ data.take 8 = discriminator.octets ∧
    leNat ((data.drop 8).take 2) = portSchemaVersion

/-- The epoch of a checkpoint, at its place in an answer. -/
def epochCarried (data : List UInt8) : UInt64 :=
  UInt64.ofNat (leNat ((data.drop 10).take 8))

theorem leNat_slice_flatten {fields : List (List UInt8)} (index : ℕ) {off width value : ℕ}
    (hfield : fields[index]? = some (leList width value))
    (hoff : (fields.take index).flatten.length = off) (hvalue : value < 256 ^ width) :
    leNat ((fields.flatten.drop off).take width) = value := by
  rw [slice_flatten index hfield hoff (length_leList width value), leNat_leList,
    Nat.mod_eq_of_lt hvalue]

theorem append_eq_flatten (record : List (List UInt8)) (rest : List UInt8) :
    record.flatten ++ rest = (record ++ [rest]).flatten := by
  simp

theorem schema_config_append (config : LogConfig) (rest : List UInt8) :
    leNat (((config.octets ++ rest).drop 8).take 2) = config.schemaVersion.toNat := by
  rw [octets_logConfig, append_eq_flatten]
  exact leNat_slice_flatten 1 rfl (by simp [configRecord]) config.schemaVersion.toNat_lt

theorem schema_checkpoint_append (checkpoint : CheckpointAccount) (rest : List UInt8) :
    leNat (((checkpoint.octets ++ rest).drop 8).take 2) = checkpoint.schemaVersion.toNat := by
  rw [octets_checkpoint, append_eq_flatten]
  exact leNat_slice_flatten 1 rfl (by simp [checkpointRecord]) checkpoint.schemaVersion.toNat_lt

theorem epochCarried_append (checkpoint : CheckpointAccount) (rest : List UInt8) :
    epochCarried (checkpoint.octets ++ rest) = checkpoint.epoch := by
  have hvalue := checkpoint.epoch.toNat_lt
  rw [epochCarried, octets_checkpoint, append_eq_flatten,
    leNat_slice_flatten 2 rfl (by simp [checkpointRecord]) (by simpa using hvalue),
    UInt64.ofNat_toNat]

theorem goesOn_config_iff {data : List UInt8} :
    GoesOn LogConfig.len LogConfig.discriminator data ↔
      ∃ config rest, data = LogConfig.octets config ++ rest ∧
        config.schemaVersion = schemaVersion ∧ rest ≠ [] := by
  constructor
  · rintro ⟨hlong, htag, hversion⟩
    obtain ⟨config, rest, rfl⟩ := exists_config hlong.le htag
    rw [schema_config_append] at hversion
    refine ⟨config, rest, rfl, UInt16.toNat_inj.mp hversion, ?_⟩
    rintro rfl
    rw [List.append_nil, length_octets_logConfig] at hlong
    exact lt_irrefl _ hlong
  · rintro ⟨config, rest, rfl, hschema, hrest⟩
    have hpositive := List.length_pos_iff.mpr hrest
    refine ⟨?_, ?_, ?_⟩
    · rw [List.length_append, length_octets_logConfig]
      omega
    · rw [LogConfig.octets, List.append_assoc, List.take_left' (Octets.length_octets _)]
    · rw [schema_config_append, hschema]
      rfl

theorem goesOn_checkpoint_iff {data : List UInt8} :
    GoesOn CheckpointAccount.len CheckpointAccount.discriminator data ↔
      ∃ checkpoint rest, data = CheckpointAccount.octets checkpoint ++ rest ∧
        checkpoint.schemaVersion = schemaVersion ∧ rest ≠ [] := by
  constructor
  · rintro ⟨hlong, htag, hversion⟩
    obtain ⟨checkpoint, rest, rfl⟩ := exists_checkpoint hlong.le htag
    rw [schema_checkpoint_append] at hversion
    refine ⟨checkpoint, rest, rfl, UInt16.toNat_inj.mp hversion, ?_⟩
    rintro rfl
    rw [List.append_nil, length_octets_checkpoint] at hlong
    exact lt_irrefl _ hlong
  · rintro ⟨checkpoint, rest, rfl, hschema, hrest⟩
    have hpositive := List.length_pos_iff.mpr hrest
    refine ⟨?_, ?_, ?_⟩
    · rw [List.length_append, length_octets_checkpoint]
      omega
    · rw [CheckpointAccount.octets, List.append_assoc, List.take_left' (Octets.length_octets _)]
    · rw [schema_checkpoint_append, hschema]
      rfl

/-! ### Agreement -/

section Readers

variable {sha256 : List UInt8 → Octets 32} {program : Pubkey} {data : List UInt8}

theorem config_readers_agree_iff (hsha : Discriminators sha256) :
    Agree SameConfig (decodeConfig program program data) (decodeLogConfig sha256 data) ↔
      ¬ GoesOn LogConfig.len LogConfig.discriminator data := by
  rw [goesOn_config_iff]
  refine agree_iff length_octets_logConfig octets_injective_logConfig (fun config ↦ ?_)
    (fun found ↦ decodeLogConfig_eq_ok_iff hsha) sameConfig_portConfig
  rw [decodeConfig_eq_ok_iff]
  constructor
  · rintro ⟨-, hschema, rest, hdata⟩
    exact ⟨config, rest, hdata, hschema, rfl⟩
  · rintro ⟨record, rest, hdata, hschema, rfl⟩
    exact ⟨rfl, hschema, rest, hdata⟩

theorem checkpoint_readers_agree_iff (hsha : Discriminators sha256) :
    Agree SameCheckpoint (decodeCheckpointOf program program data (epochCarried data))
        (decodeCheckpointAccount sha256 data) ↔
      ¬ GoesOn CheckpointAccount.len CheckpointAccount.discriminator data := by
  rw [goesOn_checkpoint_iff]
  refine agree_iff length_octets_checkpoint octets_injective_checkpoint (fun found ↦ ?_)
    (fun found ↦ decodeCheckpointAccount_eq_ok_iff hsha) sameCheckpoint_portCheckpoint
  rw [decodeCheckpointOf_eq_ok_iff]
  constructor
  · rintro ⟨-, checkpoint, rest, hdata, hschema, -, hfound⟩
    exact ⟨checkpoint, rest, hdata, hschema, hfound⟩
  · rintro ⟨checkpoint, rest, hdata, hschema, hfound⟩
    refine ⟨rfl, checkpoint, rest, hdata, hschema, ?_, hfound⟩
    rw [hdata, epochCarried_append]

end Readers

/-- On every answer of a program's account the two readers of configurations agree, and so do the
two readers of checkpoints, exactly when the answer does not go on after a record. -/
theorem account_readers_agree_iff (sha256 : List UInt8 → Octets 32) (hsha : Discriminators sha256)
    (program : Pubkey) (data : List UInt8) :
    (Agree SameConfig (decodeConfig program program data) (decodeLogConfig sha256 data) ↔
        ¬ GoesOn LogConfig.len LogConfig.discriminator data) ∧
      (Agree SameCheckpoint (decodeCheckpointOf program program data (epochCarried data))
          (decodeCheckpointAccount sha256 data) ↔
        ¬ GoesOn CheckpointAccount.len CheckpointAccount.discriminator data) :=
  ⟨config_readers_agree_iff hsha, checkpoint_readers_agree_iff hsha⟩

/-- A configuration of the schema. -/
def plainConfig : LogConfig where
  schemaVersion := 1
  authority := Octets.zeros 32
  lastEpoch := 20000
  treeHeight := 10
  bump := 254
  startEpoch := 20001
  reserved := Octets.zeros 8

/-- On that configuration alone the readers agree. -/
theorem account_readers_agree_iff_plain :
    (Agree SameConfig (decodeConfig (Octets.zeros 32) (Octets.zeros 32) plainConfig.octets)
          (decodeLogConfig accountDigests plainConfig.octets) ↔
        ¬ GoesOn LogConfig.len LogConfig.discriminator plainConfig.octets) ∧
      (Agree SameCheckpoint
          (decodeCheckpointOf (Octets.zeros 32) (Octets.zeros 32) plainConfig.octets
            (epochCarried plainConfig.octets))
          (decodeCheckpointAccount accountDigests plainConfig.octets) ↔
        ¬ GoesOn CheckpointAccount.len CheckpointAccount.discriminator plainConfig.octets) :=
  account_readers_agree_iff accountDigests discriminators_accountDigests (Octets.zeros 32)
    plainConfig.octets

/-- A checkpoint of the schema. -/
def plainCheckpoint : CheckpointAccount where
  schemaVersion := 1
  epoch := 20001
  root := Octets.zeros 32
  publishedSlot := 7
  publishedUnix := 1728086400
  receiptDigest := Octets.zeros 32
  anchorKind := 0
  bump := 253
  reserved := Octets.zeros 6

/-- One octet after a record: the client reads the record and the port refuses the answer. -/
theorem one_octet_divides_the_readers :
    (decodeConfig (Octets.zeros 32) (Octets.zeros 32) (plainConfig.octets ++ [0]) =
          .ok plainConfig ∧
        (∀ found, decodeLogConfig accountDigests (plainConfig.octets ++ [0]) ≠ .ok found) ∧
        ¬ Agree SameConfig
          (decodeConfig (Octets.zeros 32) (Octets.zeros 32) (plainConfig.octets ++ [0]))
          (decodeLogConfig accountDigests (plainConfig.octets ++ [0]))) ∧
      decodeCheckpointOf (Octets.zeros 32) (Octets.zeros 32) (plainCheckpoint.octets ++ [0])
          (epochCarried (plainCheckpoint.octets ++ [0])) =
        .ok (publishedCheckpoint plainCheckpoint) ∧
      (∀ found, decodeCheckpointAccount accountDigests (plainCheckpoint.octets ++ [0]) ≠
        .ok found) ∧
      ¬ Agree SameCheckpoint
        (decodeCheckpointOf (Octets.zeros 32) (Octets.zeros 32) (plainCheckpoint.octets ++ [0])
          (epochCarried (plainCheckpoint.octets ++ [0])))
        (decodeCheckpointAccount accountDigests (plainCheckpoint.octets ++ [0])) := by
  have hconfig : decodeConfig (Octets.zeros 32) (Octets.zeros 32) (plainConfig.octets ++ [0]) =
      .ok plainConfig := decodeConfig_eq_ok_iff.mpr ⟨rfl, rfl, [0], rfl⟩
  have hcheckpoint : decodeCheckpointOf (Octets.zeros 32) (Octets.zeros 32)
      (plainCheckpoint.octets ++ [0]) (epochCarried (plainCheckpoint.octets ++ [0])) =
        .ok (publishedCheckpoint plainCheckpoint) :=
    decodeCheckpointOf_eq_ok_iff.mpr
      ⟨rfl, plainCheckpoint, [0], rfl, rfl, (epochCarried_append _ _).symm, rfl⟩
  have hlongConfig : ∀ config, plainConfig.octets ++ [0] ≠ LogConfig.octets config := by
    intro config hsame
    have hlengths := congrArg List.length hsame
    rw [List.length_append, length_octets_logConfig, length_octets_logConfig] at hlengths
    cases hlengths
  have hlongCheckpoint : ∀ checkpoint,
      plainCheckpoint.octets ++ [0] ≠ CheckpointAccount.octets checkpoint := by
    intro checkpoint hsame
    have hlengths := congrArg List.length hsame
    rw [List.length_append, length_octets_checkpoint, length_octets_checkpoint] at hlengths
    cases hlengths
  have hportConfig : ∀ found,
      decodeLogConfig accountDigests (plainConfig.octets ++ [0]) ≠ .ok found := by
    intro found hfound
    obtain ⟨config, hsame, -⟩ :=
      (decodeLogConfig_eq_ok_iff discriminators_accountDigests).mp hfound
    exact hlongConfig config hsame
  have hportCheckpoint : ∀ found,
      decodeCheckpointAccount accountDigests (plainCheckpoint.octets ++ [0]) ≠ .ok found := by
    intro found hfound
    obtain ⟨checkpoint, hsame, -⟩ :=
      (decodeCheckpointAccount_eq_ok_iff discriminators_accountDigests).mp hfound
    exact hlongCheckpoint checkpoint hsame
  refine ⟨⟨hconfig, hportConfig, ?_⟩, hcheckpoint, hportCheckpoint, ?_⟩
  · intro hagree
    obtain ⟨found, hfound⟩ := hagree.accept.mp ⟨plainConfig, hconfig⟩
    exact hportConfig found hfound
  · intro hagree
    obtain ⟨found, hfound⟩ := hagree.accept.mp ⟨_, hcheckpoint⟩
    exact hportCheckpoint found hfound

end AnchoredLog.Port.AccountAgreement
