import AnchoredLog.Client.Fetch
import AnchoredLog.Port.JsonFields

/-!
# The two readers of the program's accounts

The Rust client places an account by its owner, a least length, its discriminator, its fields, its
schema version and its epoch. The TypeScript port has `solana/accounts.ts`: an exact length, the
discriminator it computes itself, the schema version, and the fields at literal offsets.

Each reader accepts what a record is written as: `decodeLogConfig_eq_ok_iff` and
`decodeCheckpointAccount_eq_ok_iff` exactly that, `decodeConfig_eq_ok_iff` and
`decodeCheckpointOf_eq_ok_iff` with any octets after it.
-/

set_option autoImplicit false
set_option relaxedAutoImplicit false

namespace AnchoredLog.Port.Accounts

open Library.ByteCodec Library.FieldReader Library.Fallible Library.Layouts Core.Preimages
open Primitives JsonFields Program.AccountLayouts Program.Checkpoint
open Client.Publish Client.Fetch

/-! ### The port -/

/-- The first eight bytes of the SHA-256 of `account:` and the name of a struct. -/
def accountDiscriminator (sha256 : List UInt8 → Octets 32) (structName : List Char) : List UInt8 :=
  (sha256 (ascii ("account:".toList ++ structName))).octets.take 8

/-- `LOG_CONFIG_DISCRIMINATOR`. -/
def logConfigDiscriminator (sha256 : List UInt8 → Octets 32) : List UInt8 :=
  accountDiscriminator sha256 "LogConfig".toList

/-- `CHECKPOINT_DISCRIMINATOR`. -/
def checkpointDiscriminator (sha256 : List UInt8 → Octets 32) : List UInt8 :=
  accountDiscriminator sha256 "CheckpointAccount".toList

/-- `LOG_CONFIG_LEN`. -/
def logConfigLen : ℕ :=
  68

/-- `CHECKPOINT_LEN`. -/
def checkpointLen : ℕ :=
  106

/-- `SCHEMA_VERSION`. -/
def portSchemaVersion : ℕ :=
  1

/-- A configuration as the port reads it. -/
structure PortLogConfig where
  schemaVersion : ℤ
  authority : List UInt8
  lastEpoch : ℤ
  treeHeight : ℤ
  bump : ℤ
  startEpoch : ℤ
  reserved : List UInt8

/-- A checkpoint as the port reads it. -/
structure PortCheckpoint where
  schemaVersion : ℤ
  epoch : ℤ
  root : List UInt8
  publishedSlot : ℤ
  publishedUnix : ℤ
  receiptDigest : List UInt8
  anchorKind : ℤ
  bump : ℤ

/-- The length, then the discriminator, then the schema. -/
def checkAccount (data : List UInt8) (expectedLen : ℕ) (discriminator : List UInt8)
    (what : String) : Thrown Unit := do
  require (data.length = expectedLen) (.packageFailure .RootUnavailable
    (what ++ " is " ++ toString data.length ++ " bytes, and §2.4 fixes it at " ++
      toString expectedLen))
  require (∀ i < 8, data[i]? = discriminator[i]?) (.packageFailure .RootUnavailable
    (what ++ " carries " ++ toHex (data.take 8) ++ ", not " ++ toHex discriminator))
  let schemaVersion ← readU16le data 8
  orFail (schemaVersion = portSchemaVersion) .UnsupportedSchemaVersion
    (what ++ " carries schema_version " ++ toString schemaVersion)

/-- An element of an array of bytes as a number. -/
def byteAt (data : List UInt8) (off : ℕ) : ℤ :=
  (data[off]?.getD 0).toNat

section Decoders

variable (sha256 : List UInt8 → Octets 32) (data : List UInt8)

def decodeLogConfig : Thrown PortLogConfig := do
  checkAccount data logConfigLen (logConfigDiscriminator sha256) "LogConfig"
  let schemaVersion ← readU16le data 8
  let lastEpoch ← readU64le data 42
  let startEpoch ← readU64le data 52
  return {
    schemaVersion := schemaVersion
    authority := (data.drop 10).take 32
    lastEpoch := lastEpoch
    treeHeight := byteAt data 50
    bump := byteAt data 51
    startEpoch := startEpoch
    reserved := (data.drop 60).take 8 }

def decodeCheckpointAccount : Thrown PortCheckpoint := do
  checkAccount data checkpointLen (checkpointDiscriminator sha256) "CheckpointAccount"
  let schemaVersion ← readU16le data 8
  let epoch ← readU64le data 10
  let publishedSlot ← readU64le data 50
  let publishedUnix ← readI64le data 58
  return {
    schemaVersion := schemaVersion
    epoch := epoch
    root := (data.drop 18).take 32
    publishedSlot := publishedSlot
    publishedUnix := publishedUnix
    receiptDigest := (data.drop 66).take 32
    anchorKind := byteAt data 98
    bump := byteAt data 99 }

end Decoders

/-- What the port reports of a checkpoint. -/
inductive PortAnchorStatus
  | single
  | dual
deriving DecidableEq

/-- Until a receipt is attached a checkpoint has one anchor. -/
def anchorStatus (checkpoint : PortCheckpoint) : PortAnchorStatus :=
  if checkpoint.receiptDigest.all (· == 0) then .single else .dual

/-! ### The records -/

/-- The parts of a configuration account, each as its octets. -/
def configRecord (config : LogConfig) : List (List UInt8) :=
  [LogConfig.discriminator.octets, leList 2 config.schemaVersion.toNat, config.authority.octets,
    leList 8 config.lastEpoch.toNat, [config.treeHeight], [config.bump],
    leList 8 config.startEpoch.toNat, config.reserved.octets]

/-- The parts of a checkpoint account, each as its octets. -/
def checkpointRecord (checkpoint : CheckpointAccount) : List (List UInt8) :=
  [CheckpointAccount.discriminator.octets, leList 2 checkpoint.schemaVersion.toNat,
    leList 8 checkpoint.epoch.toNat, checkpoint.root.octets,
    leList 8 checkpoint.publishedSlot.toNat, leList 8 checkpoint.publishedUnix.toUInt64.toNat,
    checkpoint.receiptDigest.octets, [checkpoint.anchorKind], [checkpoint.bump],
    checkpoint.reserved.octets]

theorem octets_logConfig (config : LogConfig) : config.octets = (configRecord config).flatten := by
  simp [LogConfig.octets, LogConfig.serialize, configRecord]

theorem octets_checkpoint (checkpoint : CheckpointAccount) :
    checkpoint.octets = (checkpointRecord checkpoint).flatten := by
  simp [CheckpointAccount.octets, CheckpointAccount.serialize, checkpointRecord]

/-- Octets under the discriminator of a configuration, and as many, begin with a configuration. -/
theorem exists_config {data : List UInt8} (hlength : LogConfig.len ≤ data.length)
    (hdiscriminator : data.take 8 = LogConfig.discriminator.octets) :
    ∃ config rest, data = LogConfig.octets config ++ rest := by
  have hsplit : data.length = 8 + (60 + (data.length - 68)) := by
    rw [LogConfig.len] at hlength
    omega
  obtain ⟨tag, body, rfl, hbody⟩ := exists_octets_append 8 _ hsplit
  generalize (tag.octets ++ body).length - 68 = spare at hbody
  have hschema : body.length = 2 + (58 + spare) := by omega
  obtain ⟨schema, afterSchema, rfl, hauthority⟩ := exists_octets_append 2 _ hschema
  have hauthority : afterSchema.length = 32 + (26 + spare) := by omega
  obtain ⟨authority, afterAuthority, rfl, hlast⟩ := exists_octets_append 32 _ hauthority
  have hlast : afterAuthority.length = 8 + (18 + spare) := by omega
  obtain ⟨last, afterLast, rfl, hheight⟩ := exists_octets_append 8 _ hlast
  have hheight : afterLast.length = 17 + spare + 1 := by omega
  obtain ⟨height, afterHeight, rfl, hbump⟩ := exists_octet_cons hheight
  have hbump : afterHeight.length = 16 + spare + 1 := by omega
  obtain ⟨bump, afterBump, rfl, hstart⟩ := exists_octet_cons hbump
  have hstart : afterBump.length = 8 + (8 + spare) := by omega
  obtain ⟨start, afterStart, rfl, hreserved⟩ := exists_octets_append 8 _ hstart
  obtain ⟨reserved, rest, rfl, -⟩ := exists_octets_append 8 _ hreserved
  obtain ⟨schemaVersion, hschemaVersion⟩ := exists_u16 schema
  obtain ⟨lastEpoch, hlastEpoch⟩ := exists_u64 last
  obtain ⟨startEpoch, hstartEpoch⟩ := exists_u64 start
  rw [List.take_left' tag.length_octets] at hdiscriminator
  refine ⟨⟨schemaVersion, authority, lastEpoch, height, bump, startEpoch, reserved⟩, rest, ?_⟩
  rw [octets_logConfig, hdiscriminator, hschemaVersion, hlastEpoch, hstartEpoch]
  simp [configRecord]

/-- Octets under the discriminator of a checkpoint, and as many, begin with a checkpoint. -/
theorem exists_checkpoint {data : List UInt8} (hlength : CheckpointAccount.len ≤ data.length)
    (hdiscriminator : data.take 8 = CheckpointAccount.discriminator.octets) :
    ∃ checkpoint rest, data = CheckpointAccount.octets checkpoint ++ rest := by
  have hsplit : data.length = 8 + (98 + (data.length - 106)) := by
    rw [CheckpointAccount.len] at hlength
    omega
  obtain ⟨tag, body, rfl, hbody⟩ := exists_octets_append 8 _ hsplit
  generalize (tag.octets ++ body).length - 106 = spare at hbody
  have hschema : body.length = 2 + (96 + spare) := by omega
  obtain ⟨schema, afterSchema, rfl, hepoch⟩ := exists_octets_append 2 _ hschema
  have hepoch : afterSchema.length = 8 + (88 + spare) := by omega
  obtain ⟨epochOctets, afterEpoch, rfl, hroot⟩ := exists_octets_append 8 _ hepoch
  have hroot : afterEpoch.length = 32 + (56 + spare) := by omega
  obtain ⟨root, afterRoot, rfl, hslot⟩ := exists_octets_append 32 _ hroot
  have hslot : afterRoot.length = 8 + (48 + spare) := by omega
  obtain ⟨slotOctets, afterSlot, rfl, hunix⟩ := exists_octets_append 8 _ hslot
  have hunix : afterSlot.length = 8 + (40 + spare) := by omega
  obtain ⟨unixOctets, afterUnix, rfl, hreceipt⟩ := exists_octets_append 8 _ hunix
  have hreceipt : afterUnix.length = 32 + (8 + spare) := by omega
  obtain ⟨receipt, afterReceipt, rfl, hkind⟩ := exists_octets_append 32 _ hreceipt
  have hkind : afterReceipt.length = 7 + spare + 1 := by omega
  obtain ⟨kind, afterKind, rfl, hbump⟩ := exists_octet_cons hkind
  have hbump : afterKind.length = 6 + spare + 1 := by omega
  obtain ⟨bump, afterBump, rfl, hreserved⟩ := exists_octet_cons hbump
  obtain ⟨reserved, rest, rfl, -⟩ := exists_octets_append 6 _ hreserved
  obtain ⟨schemaVersion, hschemaVersion⟩ := exists_u16 schema
  obtain ⟨epoch, hepochValue⟩ := exists_u64 epochOctets
  obtain ⟨slot, hslotValue⟩ := exists_u64 slotOctets
  obtain ⟨unix, hunixValue⟩ := exists_i64 unixOctets
  rw [List.take_left' tag.length_octets] at hdiscriminator
  refine ⟨⟨schemaVersion, epoch, root, slot, unix, receipt, kind, bump, reserved⟩, rest, ?_⟩
  rw [octets_checkpoint, hdiscriminator, hschemaVersion, hepochValue, hslotValue, hunixValue]
  simp [checkpointRecord]

/-! ### What the client accepts -/

section Client

variable {program owner : Pubkey} {data : List UInt8}

/-- The client reads a configuration from the program's octets that begin with one. -/
theorem decodeConfig_eq_ok_iff {config : LogConfig} :
    decodeConfig program owner data = .ok config ↔
      owner = program ∧ config.schemaVersion = schemaVersion ∧
        ∃ rest, data = config.octets ++ rest := by
  constructor
  · intro hdecode
    unfold decodeConfig at hdecode
    split_ifs at hdecode with howner hlength hdiscriminator
    obtain ⟨found, rest, rfl⟩ := exists_config (not_lt.mp hlength) (not_not.mp hdiscriminator)
    rw [LogConfig.octets, List.append_assoc, List.drop_left' (Octets.length_octets _),
      deserialize_logConfig_append] at hdecode
    dsimp only at hdecode
    split_ifs at hdecode with hschema
    rw [Except.ok.injEq] at hdecode
    subst hdecode
    exact ⟨not_not.mp howner, not_not.mp hschema, rest, rfl⟩
  · rintro ⟨rfl, hschema, rest, rfl⟩
    have hlength : ¬ (config.octets ++ rest).length < LogConfig.len := by
      rw [List.length_append, length_octets_logConfig]
      omega
    rw [decodeConfig, if_neg (not_not.mpr rfl), if_neg hlength, LogConfig.octets,
      List.append_assoc, List.take_left' (Octets.length_octets _), if_neg (not_not.mpr rfl),
      List.drop_left' (Octets.length_octets _), deserialize_logConfig_append]
    exact if_neg (not_not.mpr hschema)

/-- The client reads a checkpoint from the program's octets that begin with one of the epoch. -/
theorem decodeCheckpointOf_eq_ok_iff {epoch : UInt64} {found : PublishedCheckpoint} :
    decodeCheckpointOf program owner data epoch = .ok found ↔
      owner = program ∧ ∃ checkpoint rest, data = CheckpointAccount.octets checkpoint ++ rest ∧
        checkpoint.schemaVersion = schemaVersion ∧ checkpoint.epoch = epoch ∧
          found = publishedCheckpoint checkpoint := by
  constructor
  · intro hdecode
    unfold decodeCheckpointOf at hdecode
    split_ifs at hdecode with howner hlength hdiscriminator
    obtain ⟨checkpoint, rest, rfl⟩ :=
      exists_checkpoint (not_lt.mp hlength) (not_not.mp hdiscriminator)
    rw [CheckpointAccount.octets, List.append_assoc, List.drop_left' (Octets.length_octets _),
      deserialize_checkpoint_append] at hdecode
    dsimp only at hdecode
    split_ifs at hdecode with hschema hepoch
    rw [Except.ok.injEq] at hdecode
    exact ⟨not_not.mp howner, checkpoint, rest, rfl, not_not.mp hschema, not_not.mp hepoch,
      hdecode.symm⟩
  · rintro ⟨rfl, checkpoint, rest, rfl, hschema, hepoch, rfl⟩
    have hlength : ¬ (checkpoint.octets ++ rest).length < CheckpointAccount.len := by
      rw [List.length_append, length_octets_checkpoint]
      omega
    rw [decodeCheckpointOf, if_neg (not_not.mpr rfl), if_neg hlength, CheckpointAccount.octets,
      List.append_assoc, List.take_left' (Octets.length_octets _), if_neg (not_not.mpr rfl),
      List.drop_left' (Octets.length_octets _), deserialize_checkpoint_append]
    dsimp only
    rw [if_neg (not_not.mpr hschema), if_neg (not_not.mpr hepoch)]

end Client

/-! ### What the port accepts -/

/-- The port computes the discriminators the program was built with. -/
structure Discriminators (sha256 : List UInt8 → Octets 32) : Prop where
  logConfig : logConfigDiscriminator sha256 = LogConfig.discriminator.octets
  checkpoint : checkpointDiscriminator sha256 = CheckpointAccount.discriminator.octets

/-- The SHA-256 digests of `account:LogConfig` and of `account:CheckpointAccount`, and zeros for any
other message. -/
def accountDigests (message : List UInt8) : Octets 32 :=
  if message = ascii "account:LogConfig".toList then
    ⟨[0x1c, 0xf0, 0x75, 0x7f, 0x1a, 0xa6, 0xbf, 0x37, 0x8f, 0x72, 0xf8, 0xfa, 0x2c, 0x6b, 0x3f,
      0xb2, 0x2e, 0x65, 0x31, 0xcd, 0x12, 0xc3, 0x67, 0x0d, 0x6a, 0x65, 0xa8, 0x20, 0x6f, 0x06,
      0x69, 0x02], rfl⟩
  else if message = ascii "account:CheckpointAccount".toList then
    ⟨[0x4d, 0x11, 0x99, 0xcb, 0x01, 0xec, 0x47, 0x59, 0xcd, 0x02, 0x26, 0x16, 0x23, 0xf9, 0x03,
      0x12, 0xa2, 0xe7, 0x87, 0x16, 0x7d, 0x1b, 0x8c, 0x39, 0xf4, 0x17, 0x18, 0x46, 0x01, 0xbd,
      0xfd, 0x74], rfl⟩
  else
    Octets.zeros 32

theorem discriminators_accountDigests : Discriminators accountDigests :=
  ⟨by decide, by decide⟩

/-- The fields of a configuration as the port holds them. -/
def portConfig (config : LogConfig) : PortLogConfig where
  schemaVersion := config.schemaVersion.toNat
  authority := config.authority.octets
  lastEpoch := config.lastEpoch.toNat
  treeHeight := config.treeHeight.toNat
  bump := config.bump.toNat
  startEpoch := config.startEpoch.toNat
  reserved := config.reserved.octets

/-- The fields of a checkpoint as the port holds them. -/
def portCheckpoint (checkpoint : CheckpointAccount) : PortCheckpoint where
  schemaVersion := checkpoint.schemaVersion.toNat
  epoch := checkpoint.epoch.toNat
  root := checkpoint.root.octets
  publishedSlot := checkpoint.publishedSlot.toNat
  publishedUnix := checkpoint.publishedUnix.toInt
  receiptDigest := checkpoint.receiptDigest.octets
  anchorKind := checkpoint.anchorKind.toNat
  bump := checkpoint.bump.toNat

/-- Elements that agree with a discriminator at each of its positions are the discriminator. -/
theorem take_eq_iff {width : ℕ} {data : List UInt8} {discriminator : Octets width} :
    (∀ i < width, data[i]? = discriminator.octets[i]?) ↔
      data.take width = discriminator.octets := by
  constructor
  · intro hsame
    apply List.ext_getElem?
    intro i
    rw [List.getElem?_take]
    split_ifs with hi
    · exact hsame i hi
    · rw [List.getElem?_eq_none]
      rw [discriminator.length_octets]
      exact not_lt.mp hi
  · intro htake i hi
    rw [← htake, List.getElem?_take, if_pos hi]

theorem checkAccount_eq_ok_iff {data : List UInt8} {expectedLen : ℕ} {discriminator : Octets 8}
    {what : String} :
    checkAccount data expectedLen discriminator.octets what = .ok () ↔
      data.length = expectedLen ∧ data.take 8 = discriminator.octets ∧
        readU16le data 8 = .ok portSchemaVersion := by
  rw [checkAccount, bind_unit_eq_ok_iff, bind_unit_eq_ok_iff, require_eq_ok_iff,
    require_eq_ok_iff, take_eq_iff, bind_eq_ok_iff]
  simp only [orFail_eq_ok_iff, exists_eq_right]

/-- The schema version a record carries. -/
theorem readU16le_record {fields : List (List UInt8)} {version : UInt16}
    (hversion : fields[1]? = some (leList 2 version.toNat))
    (htag : (fields.take 1).flatten.length = 8) :
    readU16le fields.flatten 8 = .ok portSchemaVersion ↔ version = schemaVersion := by
  rw [readU16le_flatten 1 hversion htag, Except.ok.injEq, portSchemaVersion, ← UInt16.toNat_inj,
    show schemaVersion.toNat = 1 from rfl]

theorem byteAt_flatten {fields : List (List UInt8)} (index : ℕ) {off : ℕ} {octet : UInt8}
    (hfield : fields[index]? = some [octet])
    (hoff : (fields.take index).flatten.length = off) :
    byteAt fields.flatten off = octet.toNat := by
  rw [byteAt, getElem?_flatten index hfield hoff, Option.getD_some]

section Port

variable {sha256 : List UInt8 → Octets 32}

/-- The port reads every field of a configuration. -/
theorem decodeLogConfig_octets (hsha : Discriminators sha256) {config : LogConfig}
    (hschema : config.schemaVersion = schemaVersion) :
    decodeLogConfig sha256 config.octets = .ok (portConfig config) := by
  have hrecord : (configRecord config).flatten.length = logConfigLen := by
    rw [← octets_logConfig]
    exact length_octets_logConfig config
  have htag : (configRecord config).flatten.take 8 = LogConfig.discriminator.octets :=
    slice_flatten 0 rfl rfl (Octets.length_octets _)
  have hversion : readU16le (configRecord config).flatten 8 = .ok config.schemaVersion.toNat :=
    readU16le_flatten 1 rfl (by simp [configRecord])
  have hcheck : checkAccount (configRecord config).flatten logConfigLen
      LogConfig.discriminator.octets "LogConfig" = .ok () :=
    checkAccount_eq_ok_iff.mpr ⟨hrecord, htag,
      (readU16le_record rfl (by simp [configRecord])).mpr hschema⟩
  have hauthority : ((configRecord config).flatten.drop 10).take 32 = config.authority.octets :=
    slice_flatten 2 rfl (by simp [configRecord]) (Octets.length_octets _)
  have hlast : readU64le (configRecord config).flatten 42 = .ok config.lastEpoch.toNat :=
    readU64le_flatten 3 rfl (by simp [configRecord])
  have hheight : byteAt (configRecord config).flatten 50 = config.treeHeight.toNat :=
    byteAt_flatten 4 rfl (by simp [configRecord])
  have hbump : byteAt (configRecord config).flatten 51 = config.bump.toNat :=
    byteAt_flatten 5 rfl (by simp [configRecord])
  have hstart : readU64le (configRecord config).flatten 52 = .ok config.startEpoch.toNat :=
    readU64le_flatten 6 rfl (by simp [configRecord])
  have hreserved : ((configRecord config).flatten.drop 60).take 8 = config.reserved.octets :=
    slice_flatten 7 rfl (by simp [configRecord]) (Octets.length_octets _)
  rw [octets_logConfig, decodeLogConfig, hsha.logConfig, hcheck, hversion, hlast, hstart,
    hauthority, hheight, hbump, hreserved]
  rfl

/-- The port reads every field of a checkpoint but the reserved ones. -/
theorem decodeCheckpointAccount_octets (hsha : Discriminators sha256)
    {checkpoint : CheckpointAccount} (hschema : checkpoint.schemaVersion = schemaVersion) :
    decodeCheckpointAccount sha256 checkpoint.octets = .ok (portCheckpoint checkpoint) := by
  have hrecord : (checkpointRecord checkpoint).flatten.length = checkpointLen := by
    rw [← octets_checkpoint]
    exact length_octets_checkpoint checkpoint
  have htag : (checkpointRecord checkpoint).flatten.take 8 =
      CheckpointAccount.discriminator.octets :=
    slice_flatten 0 rfl rfl (Octets.length_octets _)
  have hversion : readU16le (checkpointRecord checkpoint).flatten 8 =
      .ok checkpoint.schemaVersion.toNat :=
    readU16le_flatten 1 rfl (by simp [checkpointRecord])
  have hcheck : checkAccount (checkpointRecord checkpoint).flatten checkpointLen
      CheckpointAccount.discriminator.octets "CheckpointAccount" = .ok () :=
    checkAccount_eq_ok_iff.mpr ⟨hrecord, htag,
      (readU16le_record rfl (by simp [checkpointRecord])).mpr hschema⟩
  have hepoch : readU64le (checkpointRecord checkpoint).flatten 10 = .ok checkpoint.epoch.toNat :=
    readU64le_flatten 2 rfl (by simp [checkpointRecord])
  have hroot : ((checkpointRecord checkpoint).flatten.drop 18).take 32 = checkpoint.root.octets :=
    slice_flatten 3 rfl (by simp [checkpointRecord]) (Octets.length_octets _)
  have hslot : readU64le (checkpointRecord checkpoint).flatten 50 =
      .ok checkpoint.publishedSlot.toNat :=
    readU64le_flatten 4 rfl (by simp [checkpointRecord])
  have hunix : readI64le (checkpointRecord checkpoint).flatten 58 =
      .ok checkpoint.publishedUnix.toInt :=
    readI64le_flatten 5 rfl (by simp [checkpointRecord])
  have hreceipt : ((checkpointRecord checkpoint).flatten.drop 66).take 32 =
      checkpoint.receiptDigest.octets :=
    slice_flatten 6 rfl (by simp [checkpointRecord]) (Octets.length_octets _)
  have hkind : byteAt (checkpointRecord checkpoint).flatten 98 = checkpoint.anchorKind.toNat :=
    byteAt_flatten 7 rfl (by simp [checkpointRecord])
  have hbump : byteAt (checkpointRecord checkpoint).flatten 99 = checkpoint.bump.toNat :=
    byteAt_flatten 8 rfl (by simp [checkpointRecord])
  rw [octets_checkpoint, decodeCheckpointAccount, hsha.checkpoint, hcheck, hversion, hepoch,
    hslot, hunix, hroot, hreceipt, hkind, hbump]
  rfl

/-- The port reads a configuration from its octets and from nothing else. -/
theorem decodeLogConfig_eq_ok_iff (hsha : Discriminators sha256) {data : List UInt8}
    {found : PortLogConfig} :
    decodeLogConfig sha256 data = .ok found ↔
      ∃ config, data = LogConfig.octets config ∧ config.schemaVersion = schemaVersion ∧
        found = portConfig config := by
  constructor
  · intro hdecode
    have hcheck := (bind_unit_eq_ok_iff.mp hdecode).1
    rw [hsha.logConfig, checkAccount_eq_ok_iff] at hcheck
    obtain ⟨hlength, htag, hversion⟩ := hcheck
    obtain ⟨config, rest, rfl⟩ := exists_config hlength.ge htag
    have hrest : rest = [] := by
      rw [List.length_append, length_octets_logConfig, LogConfig.len, logConfigLen] at hlength
      exact List.eq_nil_of_length_eq_zero (by omega)
    subst hrest
    rw [List.append_nil] at hdecode hversion ⊢
    rw [octets_logConfig] at hversion
    have hschema := (readU16le_record rfl (by simp [configRecord])).mp hversion
    rw [decodeLogConfig_octets hsha hschema, Except.ok.injEq] at hdecode
    exact ⟨config, rfl, hschema, hdecode.symm⟩
  · rintro ⟨config, rfl, hschema, rfl⟩
    exact decodeLogConfig_octets hsha hschema

/-- The port reads a checkpoint from its octets and from nothing else. -/
theorem decodeCheckpointAccount_eq_ok_iff (hsha : Discriminators sha256) {data : List UInt8}
    {found : PortCheckpoint} :
    decodeCheckpointAccount sha256 data = .ok found ↔
      ∃ checkpoint, data = CheckpointAccount.octets checkpoint ∧
        checkpoint.schemaVersion = schemaVersion ∧ found = portCheckpoint checkpoint := by
  constructor
  · intro hdecode
    have hcheck := (bind_unit_eq_ok_iff.mp hdecode).1
    rw [hsha.checkpoint, checkAccount_eq_ok_iff] at hcheck
    obtain ⟨hlength, htag, hversion⟩ := hcheck
    obtain ⟨checkpoint, rest, rfl⟩ := exists_checkpoint hlength.ge htag
    have hrest : rest = [] := by
      rw [List.length_append, length_octets_checkpoint, CheckpointAccount.len, checkpointLen]
        at hlength
      exact List.eq_nil_of_length_eq_zero (by omega)
    subst hrest
    rw [List.append_nil] at hdecode hversion ⊢
    rw [octets_checkpoint] at hversion
    have hschema := (readU16le_record rfl (by simp [checkpointRecord])).mp hversion
    rw [decodeCheckpointAccount_octets hsha hschema, Except.ok.injEq] at hdecode
    exact ⟨checkpoint, rfl, hschema, hdecode.symm⟩
  · rintro ⟨checkpoint, rfl, hschema, rfl⟩
    exact decodeCheckpointAccount_octets hsha hschema

end Port

end AnchoredLog.Port.Accounts
