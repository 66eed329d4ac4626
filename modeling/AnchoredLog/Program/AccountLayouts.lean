import AnchoredLog.Library.FieldReader

/-!
# The two accounts of the checkpoint program

The configuration of the log and the checkpoint of one epoch, as records and as the octets an
account holds: an eight-octet discriminator that names the kind of the account, and the fields
one after the other with integers little-endian. `tryDeserialize` checks the discriminator and
reads the fields; on what `serialize` writes it returns the record, and it refuses what the other
kind of account writes.
-/

set_option autoImplicit false
set_option relaxedAutoImplicit false

namespace AnchoredLog.Program.AccountLayouts

open Library.ByteCodec Library.FieldReader

/-- An address on the chain. -/
abbrev Pubkey : Type :=
  Octets 32

/-- The configuration of the log. -/
structure LogConfig where
  schemaVersion : UInt16
  authority : Pubkey
  lastEpoch : UInt64
  treeHeight : UInt8
  bump : UInt8
  startEpoch : UInt64
  reserved : Octets 8
deriving DecidableEq

/-- The checkpoint of one epoch. -/
structure CheckpointAccount where
  schemaVersion : UInt16
  epoch : UInt64
  root : Octets 32
  publishedSlot : UInt64
  publishedUnix : Int64
  receiptDigest : Octets 32
  anchorKind : UInt8
  bump : UInt8
  reserved : Octets 6
deriving DecidableEq

namespace LogConfig

/-- The length of a configuration account. -/
def len : ℕ :=
  68

/-- The seed of its address, `cm_cfg`. -/
def seed : List UInt8 :=
  [0x63, 0x6d, 0x5f, 0x63, 0x66, 0x67]

/-- The first eight octets of the hash of `account:LogConfig`. -/
def discriminator : Octets 8 :=
  ⟨[0x1c, 0xf0, 0x75, 0x7f, 0x1a, 0xa6, 0xbf, 0x37], rfl⟩

/-- The fields of a configuration, one after the other. -/
def serialize (config : LogConfig) : List UInt8 :=
  leList 2 config.schemaVersion.toNat ++ (config.authority.octets ++
    (leList 8 config.lastEpoch.toNat ++ ([config.treeHeight] ++ ([config.bump] ++
      (leList 8 config.startEpoch.toNat ++ config.reserved.octets)))))

/-- Reads the fields of a configuration from the front of a list of octets. -/
def deserialize (body : List UInt8) : Option LogConfig := do
  let (schemaVersion, body) ← readUInt16 body
  let (authority, body) ← readOctets 32 body
  let (lastEpoch, body) ← readUInt64 body
  let (treeHeight, body) ← readUInt8 body
  let (bump, body) ← readUInt8 body
  let (startEpoch, body) ← readUInt64 body
  let (reserved, _) ← readOctets 8 body
  pure ⟨schemaVersion, authority, lastEpoch, treeHeight, bump, startEpoch, reserved⟩

/-- The octets a configuration account holds. -/
def octets (config : LogConfig) : List UInt8 :=
  discriminator.octets ++ config.serialize

end LogConfig

namespace CheckpointAccount

/-- The length of a checkpoint account. -/
def len : ℕ :=
  106

/-- The seed of its address, `cm_ckpt`. -/
def seed : List UInt8 :=
  [0x63, 0x6d, 0x5f, 0x63, 0x6b, 0x70, 0x74]

/-- The first eight octets of the hash of `account:CheckpointAccount`. -/
def discriminator : Octets 8 :=
  ⟨[0x4d, 0x11, 0x99, 0xcb, 0x01, 0xec, 0x47, 0x59], rfl⟩

/-- The fields of a checkpoint, one after the other. -/
def serialize (checkpoint : CheckpointAccount) : List UInt8 :=
  leList 2 checkpoint.schemaVersion.toNat ++ (leList 8 checkpoint.epoch.toNat ++
    (checkpoint.root.octets ++ (leList 8 checkpoint.publishedSlot.toNat ++
      (leList 8 checkpoint.publishedUnix.toUInt64.toNat ++ (checkpoint.receiptDigest.octets ++
        ([checkpoint.anchorKind] ++ ([checkpoint.bump] ++ checkpoint.reserved.octets)))))))

/-- Reads the fields of a checkpoint from the front of a list of octets. -/
def deserialize (body : List UInt8) : Option CheckpointAccount := do
  let (schemaVersion, body) ← readUInt16 body
  let (epoch, body) ← readUInt64 body
  let (root, body) ← readOctets 32 body
  let (publishedSlot, body) ← readUInt64 body
  let (publishedUnix, body) ← readInt64 body
  let (receiptDigest, body) ← readOctets 32 body
  let (anchorKind, body) ← readUInt8 body
  let (bump, body) ← readUInt8 body
  let (reserved, _) ← readOctets 6 body
  pure ⟨schemaVersion, epoch, root, publishedSlot, publishedUnix, receiptDigest, anchorKind, bump,
    reserved⟩

/-- The octets a checkpoint account holds. -/
def octets (checkpoint : CheckpointAccount) : List UInt8 :=
  discriminator.octets ++ checkpoint.serialize

end CheckpointAccount

/-! ### Writing and reading back -/

theorem length_octets_logConfig (config : LogConfig) : config.octets.length = LogConfig.len := by
  simp [LogConfig.octets, LogConfig.serialize, LogConfig.len]

theorem length_octets_checkpoint (checkpoint : CheckpointAccount) :
    checkpoint.octets.length = CheckpointAccount.len := by
  simp [CheckpointAccount.octets, CheckpointAccount.serialize, CheckpointAccount.len]

/-- A configuration is read from the front of octets that begin with it. -/
theorem deserialize_logConfig_append (config : LogConfig) (rest : List UInt8) :
    LogConfig.deserialize (config.serialize ++ rest) = some config := by
  simp only [LogConfig.deserialize, LogConfig.serialize, List.append_assoc, readUInt16_append,
    readOctets_append, readUInt64_append, List.cons_append, List.nil_append, readUInt8_cons,
    Option.bind_eq_bind, Option.bind_some, Option.pure_def]

theorem deserialize_serialize_logConfig (config : LogConfig) :
    LogConfig.deserialize config.serialize = some config := by
  have hread := deserialize_logConfig_append config []
  rwa [List.append_nil] at hread

/-- The octets of a configuration are its fields. -/
theorem octets_injective_logConfig : Function.Injective LogConfig.octets := by
  intro left right hsame
  have hserialize := List.append_cancel_left hsame
  rw [← Option.some_inj, ← deserialize_serialize_logConfig left, hserialize,
    deserialize_serialize_logConfig]

/-- A checkpoint is read from the front of octets that begin with it. -/
theorem deserialize_checkpoint_append (checkpoint : CheckpointAccount) (rest : List UInt8) :
    CheckpointAccount.deserialize (checkpoint.serialize ++ rest) = some checkpoint := by
  simp only [CheckpointAccount.deserialize, CheckpointAccount.serialize, List.append_assoc,
    readUInt16_append, readOctets_append, readUInt64_append, readInt64_append, List.cons_append,
    List.nil_append, readUInt8_cons, Option.bind_eq_bind, Option.bind_some, Option.pure_def]

theorem deserialize_serialize_checkpoint (checkpoint : CheckpointAccount) :
    CheckpointAccount.deserialize checkpoint.serialize = some checkpoint := by
  have hread := deserialize_checkpoint_append checkpoint []
  rwa [List.append_nil] at hread

/-- The octets of a checkpoint are its fields. -/
theorem octets_injective_checkpoint : Function.Injective CheckpointAccount.octets := by
  intro left right hsame
  have hserialize := List.append_cancel_left hsame
  rw [← Option.some_inj, ← deserialize_serialize_checkpoint left, hserialize,
    deserialize_serialize_checkpoint]

end AnchoredLog.Program.AccountLayouts
