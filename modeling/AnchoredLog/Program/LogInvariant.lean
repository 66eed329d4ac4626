import AnchoredLog.Program.Checkpoint

/-!
# What holds of the log in every reachable state

`Consistent` is the invariant of the ledger: either the program owns no account, or it owns one
configuration at the canonical address and, besides, exactly one checkpoint for every epoch from
the first to the last, each at an address derived from its epoch and its bump. `Change` lists
everything a transaction can do to the contents of a consistent ledger. The invariant and the
relations between the ledgers before and after are proved once for a change: `consistent_of_change`,
`preserves_of_change` for what has been written, and `signed_of_change` for who changed it.
-/

set_option autoImplicit false
set_option relaxedAutoImplicit false

namespace AnchoredLog.Program.LogInvariant

open Library.ByteCodec Library.Fallible AccountLayouts ChainRuntime Checkpoint

/-! ### Reading the accounts of the log -/

/-- The configuration at an address, as the program itself reads it. -/
def readConfig (ledger : Ledger) (address : Pubkey) : Option LogConfig :=
  (loadAccount LogConfig.discriminator LogConfig.deserialize ledger address).toOption

/-- The checkpoint at an address, as the program itself reads it. -/
def readCheckpoint (ledger : Ledger) (address : Pubkey) : Option CheckpointAccount :=
  (loadAccount CheckpointAccount.discriminator CheckpointAccount.deserialize ledger
    address).toOption

theorem toOption_eq_some_iff {Error Value : Type} {result : Except Error Value} {value : Value} :
    result.toOption = some value ↔ result = .ok value := by
  cases result <;> simp [Except.toOption]

/-- What is read from an account depends on its content alone. -/
theorem loadAccount_eq_ok_iff {Record : Type} {discriminator : Octets 8}
    {deserialize : List UInt8 → Option Record} {ledger : Ledger} {address : Pubkey}
    {record : Record} : loadAccount discriminator deserialize ledger address = .ok record ↔
      (contentAt ledger address).1 = programId ∧ 8 ≤ (contentAt ledger address).2.length ∧
        (contentAt ledger address).2.take 8 = discriminator.octets ∧
        deserialize ((contentAt ledger address).2.drop 8) = some record := by
  simp only [loadAccount, bind_unit_eq_ok_iff, require_eq_ok_iff, okOr_eq_ok_iff, contentAt,
    Account.content]
  constructor
  · exact fun hload ↦ hload.2
  · intro hload
    refine ⟨fun hempty ↦ programId_ne_systemProgramId ?_, hload⟩
    rw [← hload.1, hempty.1]

theorem loadAccount_of_content {Record : Type} {discriminator : Octets 8}
    {deserialize : List UInt8 → Option Record} {ledger : Ledger} {address : Pubkey}
    {body : List UInt8} {record : Record} (hbody : deserialize body = some record)
    (hcontent : contentAt ledger address = (programId, discriminator.octets ++ body)) :
    loadAccount discriminator deserialize ledger address = .ok record := by
  have hlength := discriminator.length_octets
  rw [loadAccount_eq_ok_iff, hcontent]
  refine ⟨rfl, ?_, List.take_left' hlength, ?_⟩
  · simp
  · rw [List.drop_left' hlength, hbody]

theorem readConfig_congr {left right : Ledger} {address : Pubkey}
    (hcontent : contentAt left address = contentAt right address) :
    readConfig left address = readConfig right address := by
  ext config
  rw [readConfig, readConfig, toOption_eq_some_iff, toOption_eq_some_iff, loadAccount_eq_ok_iff,
    loadAccount_eq_ok_iff, hcontent]

theorem readCheckpoint_congr {left right : Ledger} {address : Pubkey}
    (hcontent : contentAt left address = contentAt right address) :
    readCheckpoint left address = readCheckpoint right address := by
  ext checkpoint
  rw [readCheckpoint, readCheckpoint, toOption_eq_some_iff, toOption_eq_some_iff,
    loadAccount_eq_ok_iff, loadAccount_eq_ok_iff, hcontent]

theorem readConfig_of_content {ledger : Ledger} {address : Pubkey} {config : LogConfig}
    (hcontent : contentAt ledger address = (programId, config.octets)) :
    readConfig ledger address = some config :=
  toOption_eq_some_iff.mpr
    (loadAccount_of_content (deserialize_serialize_logConfig config) hcontent)

theorem readCheckpoint_of_content {ledger : Ledger} {address : Pubkey}
    {checkpoint : CheckpointAccount}
    (hcontent : contentAt ledger address = (programId, checkpoint.octets)) :
    readCheckpoint ledger address = some checkpoint :=
  toOption_eq_some_iff.mpr
    (loadAccount_of_content (deserialize_serialize_checkpoint checkpoint) hcontent)

/-- An account that holds a checkpoint is not read as a configuration. -/
theorem readConfig_ne_some_of_checkpoint {ledger : Ledger} {address : Pubkey}
    {checkpoint : CheckpointAccount} {config : LogConfig}
    (hcontent : contentAt ledger address = (programId, checkpoint.octets)) :
    readConfig ledger address ≠ some config := by
  intro hread
  have hdata : (ledger address).data = checkpoint.octets := congrArg Prod.snd hcontent
  have htag := (loadAccount_eq_ok (toOption_eq_some_iff.mp hread)).2.1
  rw [hdata, CheckpointAccount.octets,
    List.take_left' CheckpointAccount.discriminator.length_octets] at htag
  exact absurd htag (by decide)

/-- An account that holds a configuration is not read as a checkpoint. -/
theorem readCheckpoint_ne_some_of_config {ledger : Ledger} {address : Pubkey}
    {checkpoint : CheckpointAccount} {config : LogConfig}
    (hcontent : contentAt ledger address = (programId, config.octets)) :
    readCheckpoint ledger address ≠ some checkpoint := by
  intro hread
  have hdata : (ledger address).data = config.octets := congrArg Prod.snd hcontent
  have htag := (loadAccount_eq_ok (toOption_eq_some_iff.mp hread)).2.1
  rw [hdata, LogConfig.octets, List.take_left' LogConfig.discriminator.length_octets] at htag
  exact absurd htag (by decide)

theorem owner_of_readConfig {ledger : Ledger} {address : Pubkey} {config : LogConfig}
    (hread : readConfig ledger address = some config) : (ledger address).owner = programId :=
  (loadAccount_eq_ok (toOption_eq_some_iff.mp hread)).1

theorem owner_of_readCheckpoint {ledger : Ledger} {address : Pubkey}
    {checkpoint : CheckpointAccount} (hread : readCheckpoint ledger address = some checkpoint) :
    (ledger address).owner = programId :=
  (loadAccount_eq_ok (toOption_eq_some_iff.mp hread)).1

/-! ### The invariant -/

/-- The program owns nothing. -/
def Unstarted (ledger : Ledger) : Prop :=
  ∀ address, (ledger address).owner ≠ programId

/-- What holds of every checkpoint beside its configuration. -/
structure Placed (chain : Chain) (config : LogConfig) (address : Pubkey)
    (checkpoint : CheckpointAccount) : Prop where
  /-- Its epoch is one of the log. -/
  first : config.startEpoch ≤ checkpoint.epoch
  last : checkpoint.epoch ≤ config.lastEpoch
  /-- It is at an address derived from its epoch and its bump. -/
  derived : chain.createProgramAddress (checkpointSeeds checkpoint.epoch checkpoint.bump)
    programId = some address
  /-- Its epoch is not after the day of its publication. -/
  calendar : (checkpoint.epoch.toNat : ℤ) ≤ checkpoint.publishedUnix.toInt / 86400
  /-- It has a receipt of the one kind, or none. -/
  receipt : checkpoint.receiptDigest = noReceipt ∧ checkpoint.anchorKind = 0 ∨
    checkpoint.receiptDigest ≠ noReceipt ∧ checkpoint.anchorKind = 1

/-- The program owns one configuration, at the canonical address, and besides it exactly one
checkpoint for every epoch of the log. -/
structure Started (chain : Chain) (ledger : Ledger) (address : Pubkey) (config : LogConfig) :
    Prop where
  derived : findProgramAddress chain [LogConfig.seed] = some (address, config.bump)
  stored : contentAt ledger address = (programId, config.octets)
  positive : 1 ≤ config.startEpoch.toNat
  contiguous : config.startEpoch.toNat ≤ config.lastEpoch.toNat + 1
  owned : ∀ other, other ≠ address → (ledger other).owner = programId →
    ∃ checkpoint, contentAt ledger other = (programId, checkpoint.octets) ∧
      Placed chain config other checkpoint
  covered : ∀ epoch, config.startEpoch ≤ epoch → epoch ≤ config.lastEpoch →
    ∃ other checkpoint, readCheckpoint ledger other = some checkpoint ∧ checkpoint.epoch = epoch
  unique : ∀ left right first second, readCheckpoint ledger left = some first →
    readCheckpoint ledger right = some second → first.epoch = second.epoch → left = right

/-- The invariant of the ledger. -/
def Consistent (chain : Chain) (ledger : Ledger) : Prop :=
  Unstarted ledger ∨ ∃ address config, Started chain ledger address config

section Started

variable {chain : Chain} {ledger : Ledger} {address : Pubkey} {config : LogConfig}

/-- A started log has one configuration. -/
theorem Started.readConfig_eq_some_iff (hstarted : Started chain ledger address config)
    {other : Pubkey} {found : LogConfig} :
    readConfig ledger other = some found ↔ other = address ∧ found = config := by
  constructor
  · intro hread
    by_cases hsame : other = address
    · rw [hsame, readConfig_of_content hstarted.stored, Option.some.injEq] at hread
      exact ⟨hsame, hread.symm⟩
    · obtain ⟨checkpoint, hcontent, -⟩ :=
        hstarted.owned other hsame (owner_of_readConfig hread)
      exact absurd hread (readConfig_ne_some_of_checkpoint hcontent)
  · rintro ⟨rfl, rfl⟩
    exact readConfig_of_content hstarted.stored

/-- A checkpoint of a started log is stored as it is read, away from the configuration. -/
theorem Started.stored_of_readCheckpoint (hstarted : Started chain ledger address config)
    {other : Pubkey} {checkpoint : CheckpointAccount}
    (hread : readCheckpoint ledger other = some checkpoint) :
    other ≠ address ∧ contentAt ledger other = (programId, checkpoint.octets) ∧
      Placed chain config other checkpoint := by
  have haway : other ≠ address := by
    rintro rfl
    exact absurd hread (readCheckpoint_ne_some_of_config hstarted.stored)
  obtain ⟨found, hcontent, hplaced⟩ :=
    hstarted.owned other haway (owner_of_readCheckpoint hread)
  rw [readCheckpoint_of_content hcontent, Option.some.injEq] at hread
  subst hread
  exact ⟨haway, hcontent, hplaced⟩

theorem Unstarted.readConfig_eq_none (hunstarted : Unstarted ledger) (other : Pubkey) :
    readConfig ledger other = none := by
  rw [Option.eq_none_iff_forall_ne_some]
  intro found hread
  exact hunstarted other (owner_of_readConfig hread)

theorem Unstarted.readCheckpoint_eq_none (hunstarted : Unstarted ledger) (other : Pubkey) :
    readCheckpoint ledger other = none := by
  rw [Option.eq_none_iff_forall_ne_some]
  intro found hread
  exact hunstarted other (owner_of_readCheckpoint hread)

/-- In a consistent ledger a configuration that can be read is that of a started log. -/
theorem Consistent.started (hconsistent : Consistent chain ledger) {other : Pubkey}
    {found : LogConfig} (hread : readConfig ledger other = some found) :
    Started chain ledger other found := by
  rcases hconsistent with hunstarted | ⟨address, config, hstarted⟩
  · rw [hunstarted.readConfig_eq_none] at hread
    exact absurd hread (by simp)
  · obtain ⟨rfl, rfl⟩ := hstarted.readConfig_eq_some_iff.mp hread
    exact hstarted

end Started

/-! ### What a transaction can change -/

/-- Everything a transaction can do to the contents of a consistent ledger. -/
inductive Change (chain : Chain) (transaction : Transaction) (before after : Ledger) : Prop
  | nothing (hsame : ∀ address, contentAt after address = contentAt before address)
  | initialized {address : Pubkey} {config : LogConfig} (hunstarted : Unstarted before)
      (heffect : Initialized chain before after address config)
  | published {accounts : PublishAccounts} {epoch : UInt64} {root : Octets 32} {bump : UInt8}
      {config : LogConfig} (hstarted : Started chain before accounts.config config)
      (heffect : Published chain transaction.context accounts epoch root bump before after config)
  | attached {accounts : AttachAccounts} {epoch : UInt64} {receiptDigest : Octets 32}
      {config : LogConfig} {checkpoint : CheckpointAccount}
      (hstarted : Started chain before accounts.config config)
      (heffect : Attached transaction.context accounts epoch receiptDigest before after config
        checkpoint)

variable {chain : Chain} {transaction : Transaction} {before after : Ledger}

/-- A log that is started cannot be started again. -/
theorem unstarted_of_initialized {address : Pubkey} {config : LogConfig}
    (heffect : Initialized chain before after address config)
    (hconsistent : Consistent chain before) : Unstarted before := by
  rcases hconsistent with hunstarted | ⟨started, found, hstarted⟩
  · exact hunstarted
  · have hderived := hstarted.derived
    rw [heffect.derived, Option.some.injEq, Prod.mk.injEq] at hderived
    have hstored := hstarted.stored
    rw [← hderived.1, heffect.vacant, Prod.mk.injEq] at hstored
    exact absurd hstored.1.symm programId_ne_systemProgramId

/-- A publication that succeeds on a consistent ledger is one into a started log. -/
theorem published_of_publishCheckpoint (hsystem : chain.system.Documented)
    (hconsistent : Consistent chain before) {context : Context} {accounts : PublishAccounts}
    {epoch : UInt64} {root : Octets 32} {bump : UInt8}
    (hrun : publishCheckpoint chain context accounts epoch root bump before = .ok after) :
    ∃ config, Started chain before accounts.config config ∧
      Published chain context accounts epoch root bump before after config := by
  obtain ⟨config, hloaded, -⟩ := bind_eq_ok_iff.mp hrun
  have hstarted := hconsistent.started (toOption_eq_some_iff.mpr hloaded)
  have hdata : (before accounts.config).data = config.octets := congrArg Prod.snd hstarted.stored
  obtain ⟨found, heffect⟩ := publishCheckpoint_effect hsystem
    (by rw [hdata, length_octets_logConfig]) hrun
  have hfound := heffect.loaded
  rw [hloaded, Except.ok.injEq] at hfound
  subst hfound
  exact ⟨config, hstarted, heffect⟩

/-- An attachment that succeeds on a consistent ledger is one to an epoch of a started log. -/
theorem attached_of_attachAnchorReceipt (hconsistent : Consistent chain before) {context : Context}
    {accounts : AttachAccounts} {epoch : UInt64} {receiptDigest : Octets 32} {kind : UInt8}
    (hrun : attachAnchorReceipt chain context accounts epoch receiptDigest kind before =
      .ok after) : ∃ config checkpoint, Started chain before accounts.config config ∧
        Attached context accounts epoch receiptDigest before after config checkpoint := by
  obtain ⟨config, hconfig, hrest⟩ := bind_eq_ok_iff.mp hrun
  obtain ⟨checkpoint, hloaded, -⟩ := bind_eq_ok_iff.mp hrest
  have hstarted := hconsistent.started (toOption_eq_some_iff.mpr hconfig)
  obtain ⟨-, hcontent, -⟩ := hstarted.stored_of_readCheckpoint (toOption_eq_some_iff.mpr hloaded)
  have hdata : (before accounts.checkpoint).data = checkpoint.octets := congrArg Prod.snd hcontent
  obtain ⟨foundConfig, found, heffect⟩ := attachAnchorReceipt_effect
    (by rw [hdata, length_octets_checkpoint]) hrun
  have hsame := heffect.configLoaded
  rw [hconfig, Except.ok.injEq] at hsame
  subst hsame
  exact ⟨config, found, hstarted, heffect⟩

/-- Everything a transaction does to a consistent ledger is one of the changes. -/
theorem change_of_advance (hsystem : chain.system.Documented)
    (hconsistent : Consistent chain before) :
    Change chain transaction before (advance chain before transaction) := by
  unfold advance
  cases hrun : execute chain transaction before with
  | error error => exact .nothing fun _ ↦ rfl
  | ok reached =>
    obtain ⟨context, instruction⟩ := transaction
    cases instruction with
    | initializeLog accounts authority treeHeight startEpoch =>
      obtain ⟨address, config, heffect⟩ := initializeLog_effect hsystem hrun
      exact .initialized (unstarted_of_initialized heffect hconsistent) heffect
    | publishCheckpoint accounts epoch root checkpointBump =>
      obtain ⟨config, hstarted, heffect⟩ := published_of_publishCheckpoint hsystem hconsistent hrun
      exact .published hstarted heffect
    | attachAnchorReceipt accounts epoch receiptDigest kind =>
      obtain ⟨config, checkpoint, hstarted, heffect⟩ :=
        attached_of_attachAnchorReceipt hconsistent hrun
      exact .attached hstarted heffect
    | transfer source target lamports =>
      exact .nothing (contentAt_transfer hsystem (invoke_eq_ok_iff.mp hrun))

/-! ### A change keeps the invariant -/

theorem Started.of_content {address : Pubkey} {config : LogConfig}
    (hstarted : Started chain before address config)
    (hsame : ∀ other, contentAt after other = contentAt before other) :
    Started chain after address config where
  derived := hstarted.derived
  stored := (hsame address).trans hstarted.stored
  positive := hstarted.positive
  contiguous := hstarted.contiguous
  owned := by
    intro other haway howner
    rw [show (after other).owner = (before other).owner from congrArg Prod.fst (hsame other)]
      at howner
    obtain ⟨checkpoint, hcontent, hplaced⟩ := hstarted.owned other haway howner
    exact ⟨checkpoint, (hsame other).trans hcontent, hplaced⟩
  covered := by
    intro epoch hfirst hlast
    obtain ⟨other, checkpoint, hread, hepoch⟩ := hstarted.covered epoch hfirst hlast
    exact ⟨other, checkpoint, (readCheckpoint_congr (hsame other)).trans hread, hepoch⟩
  unique := by
    intro left right first second hleft hright hepoch
    rw [readCheckpoint_congr (hsame left)] at hleft
    rw [readCheckpoint_congr (hsame right)] at hright
    exact hstarted.unique left right first second hleft hright hepoch

/-- A log that has just been started has a configuration and no checkpoint. -/
theorem started_of_initialized {address : Pubkey} {config : LogConfig}
    (hunstarted : Unstarted before) (heffect : Initialized chain before after address config) :
    Started chain after address config := by
  have hnothing (other : Pubkey) (haway : other ≠ address) : (after other).owner ≠ programId := by
    have hcontent := heffect.effect other
    rw [if_neg haway] at hcontent
    rw [show (after other).owner = (before other).owner from congrArg Prod.fst hcontent]
    exact hunstarted other
  have hstored : contentAt after address = (programId, config.octets) := by
    rw [heffect.effect, if_pos rfl]
  have hunread (other : Pubkey) (checkpoint : CheckpointAccount) :
      readCheckpoint after other ≠ some checkpoint := by
    intro hread
    by_cases hsame : other = address
    · rw [hsame] at hread
      exact readCheckpoint_ne_some_of_config hstored hread
    · exact hnothing other hsame (owner_of_readCheckpoint hread)
  have hfirst := heffect.first
  refine ⟨heffect.derived, hstored, by omega, by omega, fun other haway howner ↦ ?_,
    fun epoch hlow hhigh ↦ ?_, fun left right first second hleft ↦ ?_⟩
  · exact absurd howner (hnothing other haway)
  · have hlower := UInt64.le_iff_toNat_le.mp hlow
    have hupper := UInt64.le_iff_toNat_le.mp hhigh
    omega
  · exact absurd hleft (hunread left first)

section Publication

variable {context : Context} {accounts : PublishAccounts} {epoch : UInt64} {root : Octets 32}
  {bump : UInt8} {config : LogConfig} (hstarted : Started chain before accounts.config config)
  (heffect : Published chain context accounts epoch root bump before after config)

include hstarted heffect in
theorem config_ne_checkpoint : accounts.config ≠ accounts.checkpoint := by
  intro hsame
  have hstored := hstarted.stored
  rw [hsame, heffect.vacant, Prod.mk.injEq] at hstored
  exact programId_ne_systemProgramId hstored.1.symm

include hstarted heffect in
theorem contentAt_published :
    contentAt after accounts.checkpoint =
      (programId, (published context epoch root bump).octets) := by
  rw [heffect.effect, if_neg (config_ne_checkpoint hstarted heffect).symm, if_pos rfl]

include hstarted heffect in
/-- The checkpoints before a publication are the checkpoints after it, apart from the new one. -/
theorem readCheckpoint_published {other : Pubkey} {checkpoint : CheckpointAccount} :
    readCheckpoint after other = some checkpoint ↔
      (other = accounts.checkpoint ∧
        checkpoint = published context epoch root bump) ∨
      readCheckpoint before other = some checkpoint := by
  have hnew := readCheckpoint_of_content (contentAt_published hstarted heffect)
  by_cases hcheckpoint : other = accounts.checkpoint
  · have hvacant : readCheckpoint before other ≠ some checkpoint := by
      intro hread
      have howner := owner_of_readCheckpoint hread
      rw [hcheckpoint, show (before accounts.checkpoint).owner = systemProgramId from
        congrArg Prod.fst heffect.vacant] at howner
      exact programId_ne_systemProgramId howner.symm
    rw [hcheckpoint] at hvacant ⊢
    rw [hnew, Option.some.injEq]
    exact ⟨fun heq ↦ .inl ⟨rfl, heq.symm⟩, fun hcase ↦
      hcase.elim (fun heq ↦ heq.2.symm) fun hread ↦ absurd hread hvacant⟩
  · by_cases hconfig : other = accounts.config
    · have hbefore : readCheckpoint before accounts.config ≠ some checkpoint :=
        readCheckpoint_ne_some_of_config hstarted.stored
      have hafter : readCheckpoint after accounts.config ≠ some checkpoint :=
        readCheckpoint_ne_some_of_config (by rw [heffect.effect, if_pos rfl])
      rw [hconfig]
      simp [hbefore, hafter, config_ne_checkpoint hstarted heffect]
    · have hsame : contentAt after other = contentAt before other := by
        rw [heffect.effect, if_neg hconfig, if_neg hcheckpoint]
      rw [readCheckpoint_congr hsame]
      simp [hcheckpoint]

include heffect in
/-- The day of a publication is not before its epoch. -/
theorem calendar_of_published :
    (epoch.toNat : ℤ) ≤ context.clock.unixTimestamp.toInt / 86400 := by
  have hcalendar := heffect.calendar
  have hnext := heffect.next
  have hnonneg : 0 ≤ context.clock.unixTimestamp.toInt := by
    by_contra hnegative
    have hflipped : 0 ≤ (-context.clock.unixTimestamp.toInt).tdiv 86400 :=
      Int.tdiv_nonneg (by omega) (by norm_num)
    rw [Int.neg_tdiv] at hflipped
    omega
  rwa [Int.tdiv_eq_ediv_of_nonneg hnonneg] at hcalendar

include hstarted heffect in
theorem started_of_published :
    Started chain after accounts.config { config with lastEpoch := epoch } := by
  have hnext := heffect.next
  have hcontiguous := hstarted.contiguous
  have hgrown : config.lastEpoch ≤ epoch := UInt64.le_iff_toNat_le.mpr (by omega)
  refine ⟨hstarted.derived, by rw [heffect.effect, if_pos rfl], hstarted.positive, ?_,
    fun other haway howner ↦ ?_, fun day hfirst hlast ↦ ?_,
    fun left right first second hleft hright hepoch ↦ ?_⟩
  · show config.startEpoch.toNat ≤ epoch.toNat + 1
    omega
  · by_cases hcheckpoint : other = accounts.checkpoint
    · refine ⟨published context epoch root bump, ?_, ?_, UInt64.le_refl epoch, ?_,
        calendar_of_published heffect, .inl ⟨rfl, rfl⟩⟩
      · rw [hcheckpoint, contentAt_published hstarted heffect]
      · exact UInt64.le_iff_toNat_le.mpr (by show config.startEpoch.toNat ≤ epoch.toNat; omega)
      · rw [hcheckpoint]
        exact heffect.derived
    · have hsame : contentAt after other = contentAt before other := by
        rw [heffect.effect, if_neg haway, if_neg hcheckpoint]
      rw [show (after other).owner = (before other).owner from congrArg Prod.fst hsame] at howner
      obtain ⟨checkpoint, hcontent, hplaced⟩ := hstarted.owned other haway howner
      exact ⟨checkpoint, hsame.trans hcontent, hplaced.first, UInt64.le_trans hplaced.last hgrown,
        hplaced.derived, hplaced.calendar, hplaced.receipt⟩
  · by_cases hnew : day = epoch
    · exact ⟨accounts.checkpoint, published context epoch root bump,
        (readCheckpoint_published hstarted heffect).mpr (.inl ⟨rfl, rfl⟩), hnew.symm⟩
    · have hold : day ≤ config.lastEpoch := by
        have hne : day.toNat ≠ epoch.toNat := fun heq ↦ hnew (UInt64.toNat_inj.mp heq)
        have hle : day.toNat ≤ epoch.toNat := UInt64.le_iff_toNat_le.mp hlast
        exact UInt64.le_iff_toNat_le.mpr (by omega)
      obtain ⟨other, checkpoint, hread, hday⟩ := hstarted.covered day hfirst hold
      exact ⟨other, checkpoint, (readCheckpoint_published hstarted heffect).mpr (.inr hread), hday⟩
  · have hfresh (other : Pubkey) (checkpoint : CheckpointAccount)
        (hread : readCheckpoint before other = some checkpoint) : checkpoint.epoch ≠ epoch := by
      intro heq
      have hlast := (hstarted.stored_of_readCheckpoint hread).2.2.last
      have hle : checkpoint.epoch.toNat ≤ config.lastEpoch.toNat := UInt64.le_iff_toNat_le.mp hlast
      rw [heq] at hle
      omega
    rcases (readCheckpoint_published hstarted heffect).mp hleft with ⟨rfl, rfl⟩ | hleft
    · rcases (readCheckpoint_published hstarted heffect).mp hright with ⟨rfl, rfl⟩ | hright
      · rfl
      · exact absurd hepoch.symm (hfresh right second hright)
    · rcases (readCheckpoint_published hstarted heffect).mp hright with ⟨rfl, rfl⟩ | hright
      · exact absurd hepoch (hfresh left first hleft)
      · exact hstarted.unique left right first second hleft hright hepoch

end Publication

section Attachment

variable {context : Context} {accounts : AttachAccounts} {epoch : UInt64}
  {receiptDigest : Octets 32} {config : LogConfig} {checkpoint : CheckpointAccount}
  (hstarted : Started chain before accounts.config config)
  (heffect : Attached context accounts epoch receiptDigest before after config
    checkpoint)

include heffect in
theorem contentAt_attached : contentAt after accounts.checkpoint =
    (programId, { checkpoint with receiptDigest := receiptDigest, anchorKind := 1 }.octets) := by
  rw [heffect.effect, if_pos rfl]

include heffect in
theorem contentAt_unattached {other : Pubkey} (haway : other ≠ accounts.checkpoint) :
    contentAt after other = contentAt before other := by
  rw [heffect.effect, if_neg haway]

include heffect in
/-- The checkpoints before an attachment are the checkpoints after it, one of them with its
receipt. -/
theorem readCheckpoint_attached {other : Pubkey} {found : CheckpointAccount}
    (hread : readCheckpoint after other = some found) :
    ∃ earlier, readCheckpoint before other = some earlier ∧ earlier.epoch = found.epoch := by
  by_cases hsame : other = accounts.checkpoint
  · subst hsame
    rw [readCheckpoint_of_content (contentAt_attached heffect), Option.some.injEq] at hread
    exact ⟨checkpoint, toOption_eq_some_iff.mpr heffect.loaded, by rw [← hread]⟩
  · rw [readCheckpoint_congr (contentAt_unattached heffect hsame)] at hread
    exact ⟨found, hread, rfl⟩

include hstarted heffect in
theorem started_of_attached : Started chain after accounts.config config := by
  obtain ⟨haway, hcontent, hplaced⟩ :=
    hstarted.stored_of_readCheckpoint (toOption_eq_some_iff.mpr heffect.loaded)
  refine ⟨hstarted.derived, ?_, hstarted.positive, hstarted.contiguous,
    fun other hother howner ↦ ?_, fun day hfirst hlast ↦ ?_,
    fun left right first second hleft hright hepoch ↦ ?_⟩
  · rw [contentAt_unattached heffect haway.symm, hstarted.stored]
  · by_cases hsame : other = accounts.checkpoint
    · subst hsame
      exact ⟨_, contentAt_attached heffect, hplaced.first, hplaced.last, hplaced.derived,
        hplaced.calendar, .inr ⟨heffect.received, rfl⟩⟩
    · have hkept := contentAt_unattached heffect hsame
      rw [show (after other).owner = (before other).owner from congrArg Prod.fst hkept] at howner
      obtain ⟨found, hfound, hother⟩ := hstarted.owned other hother howner
      exact ⟨found, hkept.trans hfound, hother⟩
  · obtain ⟨other, found, hread, hday⟩ := hstarted.covered day hfirst hlast
    by_cases hsame : other = accounts.checkpoint
    · subst hsame
      rw [readCheckpoint_of_content hcontent, Option.some.injEq] at hread
      subst hread
      exact ⟨accounts.checkpoint, _, readCheckpoint_of_content (contentAt_attached heffect), hday⟩
    · exact ⟨other, found,
        (readCheckpoint_congr (contentAt_unattached heffect hsame)).trans hread, hday⟩
  · obtain ⟨earlier, hearlier, hsame⟩ := readCheckpoint_attached heffect hleft
    obtain ⟨other, hother, hsecond⟩ := readCheckpoint_attached heffect hright
    exact hstarted.unique left right earlier other hearlier hother
      (by rw [hsame, hepoch, hsecond])

end Attachment

/-- A change keeps the invariant. -/
theorem consistent_of_change (hconsistent : Consistent chain before)
    (hchange : Change chain transaction before after) : Consistent chain after := by
  cases hchange with
  | nothing hsame =>
    rcases hconsistent with hunstarted | ⟨address, config, hstarted⟩
    · left
      intro address
      rw [show (after address).owner = (before address).owner from
        congrArg Prod.fst (hsame address)]
      exact hunstarted address
    · exact .inr ⟨address, config, hstarted.of_content hsame⟩
  | initialized hunstarted heffect => exact .inr ⟨_, _, started_of_initialized hunstarted heffect⟩
  | published hstarted heffect => exact .inr ⟨_, _, started_of_published hstarted heffect⟩
  | attached hstarted heffect => exact .inr ⟨_, _, started_of_attached hstarted heffect⟩

theorem consistent_advance (hsystem : chain.system.Documented) (ledger : Ledger)
    (transaction : Transaction) (hconsistent : Consistent chain ledger) :
    Consistent chain (advance chain ledger transaction) :=
  consistent_of_change hconsistent (change_of_advance hsystem hconsistent)

/-! ### What a change leaves as it was -/

/-- The configuration with the terms it was written with. -/
structure SameTerms (earlier later : LogConfig) : Prop where
  schemaVersion : later.schemaVersion = earlier.schemaVersion
  authority : later.authority = earlier.authority
  treeHeight : later.treeHeight = earlier.treeHeight
  bump : later.bump = earlier.bump
  startEpoch : later.startEpoch = earlier.startEpoch

/-- The same publication, its receipt as it was or attached since. -/
structure SamePublication (earlier later : CheckpointAccount) : Prop where
  epoch : later.epoch = earlier.epoch
  root : later.root = earlier.root
  publishedSlot : later.publishedSlot = earlier.publishedSlot
  publishedUnix : later.publishedUnix = earlier.publishedUnix
  bump : later.bump = earlier.bump
  receipt : later.receiptDigest = earlier.receiptDigest ∧ later.anchorKind = earlier.anchorKind ∨
    (earlier.receiptDigest = noReceipt ∧ earlier.anchorKind = 0) ∧
      later.receiptDigest ≠ noReceipt ∧ later.anchorKind = 1

/-- Every configuration and every checkpoint that can be read in the earlier ledger can be read at
the same address of the later one, with the same terms and the same publication. -/
structure Preserves (earlier later : Ledger) : Prop where
  config : ∀ address found, readConfig earlier address = some found →
    ∃ kept, readConfig later address = some kept ∧ SameTerms found kept
  checkpoint : ∀ address found, readCheckpoint earlier address = some found →
    ∃ kept, readCheckpoint later address = some kept ∧ SamePublication found kept

theorem SameTerms.refl (config : LogConfig) : SameTerms config config :=
  ⟨rfl, rfl, rfl, rfl, rfl⟩

theorem SamePublication.refl (checkpoint : CheckpointAccount) :
    SamePublication checkpoint checkpoint :=
  ⟨rfl, rfl, rfl, rfl, rfl, .inl ⟨rfl, rfl⟩⟩

theorem SameTerms.trans {first second third : LogConfig} (hfirst : SameTerms first second)
    (hsecond : SameTerms second third) : SameTerms first third :=
  ⟨hsecond.schemaVersion.trans hfirst.schemaVersion, hsecond.authority.trans hfirst.authority,
    hsecond.treeHeight.trans hfirst.treeHeight, hsecond.bump.trans hfirst.bump,
    hsecond.startEpoch.trans hfirst.startEpoch⟩

/-- A receipt attached in the first of two spans is not attached again in the second. -/
theorem SamePublication.trans {first second third : CheckpointAccount}
    (hfirst : SamePublication first second) (hsecond : SamePublication second third) :
    SamePublication first third := by
  refine ⟨hsecond.epoch.trans hfirst.epoch, hsecond.root.trans hfirst.root,
    hsecond.publishedSlot.trans hfirst.publishedSlot,
    hsecond.publishedUnix.trans hfirst.publishedUnix, hsecond.bump.trans hfirst.bump, ?_⟩
  rcases hfirst.receipt with ⟨hdigest, hkind⟩ | ⟨hnone, hdigest, hkind⟩
  · rcases hsecond.receipt with ⟨hnext, hlast⟩ | ⟨hunset, hset⟩
    · exact .inl ⟨hnext.trans hdigest, hlast.trans hkind⟩
    · exact .inr ⟨by rwa [hdigest, hkind] at hunset, hset⟩
  · rcases hsecond.receipt with ⟨hnext, hlast⟩ | ⟨hunset, hset⟩
    · exact .inr ⟨hnone, by rwa [hnext], by rwa [hlast]⟩
    · exact absurd hunset.1 hdigest

theorem Preserves.refl (ledger : Ledger) : Preserves ledger ledger :=
  ⟨fun _ found hread ↦ ⟨found, hread, .refl found⟩,
    fun _ found hread ↦ ⟨found, hread, .refl found⟩⟩

theorem Preserves.trans {first second third : Ledger} (hfirst : Preserves first second)
    (hsecond : Preserves second third) : Preserves first third := by
  constructor
  · intro address found hread
    obtain ⟨middle, hmiddle, hterms⟩ := hfirst.config address found hread
    obtain ⟨kept, hkept, hlater⟩ := hsecond.config address middle hmiddle
    exact ⟨kept, hkept, hterms.trans hlater⟩
  · intro address found hread
    obtain ⟨middle, hmiddle, hsame⟩ := hfirst.checkpoint address found hread
    obtain ⟨kept, hkept, hlater⟩ := hsecond.checkpoint address middle hmiddle
    exact ⟨kept, hkept, hsame.trans hlater⟩

/-- A change preserves what has been written. -/
theorem preserves_of_change (hchange : Change chain transaction before after) :
    Preserves before after := by
  cases hchange with
  | nothing hsame =>
    constructor
    · intro address found hread
      exact ⟨found, (readConfig_congr (hsame address)).trans hread, .refl found⟩
    · intro address found hread
      exact ⟨found, (readCheckpoint_congr (hsame address)).trans hread, .refl found⟩
  | initialized hunstarted heffect =>
    constructor
    · intro address found hread
      rw [hunstarted.readConfig_eq_none] at hread
      exact absurd hread (by simp)
    · intro address found hread
      rw [hunstarted.readCheckpoint_eq_none] at hread
      exact absurd hread (by simp)
  | published hstarted heffect =>
    constructor
    · intro address found hread
      obtain ⟨rfl, rfl⟩ := hstarted.readConfig_eq_some_iff.mp hread
      exact ⟨_, readConfig_of_content (started_of_published hstarted heffect).stored,
        ⟨rfl, rfl, rfl, rfl, rfl⟩⟩
    · intro address found hread
      exact ⟨found, (readCheckpoint_published hstarted heffect).mpr (.inr hread), .refl found⟩
  | @attached accounts epoch receiptDigest config checkpoint hstarted heffect =>
    constructor
    · intro address found hread
      obtain ⟨rfl, rfl⟩ := hstarted.readConfig_eq_some_iff.mp hread
      exact ⟨_, readConfig_of_content (started_of_attached hstarted heffect).stored, .refl _⟩
    · intro address found hread
      by_cases hsame : address = accounts.checkpoint
      · subst hsame
        have hloaded : readCheckpoint before accounts.checkpoint = some checkpoint :=
          toOption_eq_some_iff.mpr heffect.loaded
        rw [hloaded, Option.some.injEq] at hread
        subst hread
        have hreceipt := (hstarted.stored_of_readCheckpoint hloaded).2.2.receipt
        have hunset : checkpoint.receiptDigest = noReceipt ∧ checkpoint.anchorKind = 0 :=
          hreceipt.resolve_right fun hset ↦ hset.1 heffect.unattached
        exact ⟨_, readCheckpoint_of_content (contentAt_attached heffect), rfl, rfl, rfl, rfl, rfl,
          .inr ⟨hunset, heffect.received, rfl⟩⟩
      · exact ⟨found, (readCheckpoint_congr (contentAt_unattached heffect hsame)).trans hread,
          .refl found⟩

theorem preserves_advance (hsystem : chain.system.Documented) (ledger : Ledger)
    (transaction : Transaction) (hconsistent : Consistent chain ledger) :
    Preserves ledger (advance chain ledger transaction) :=
  preserves_of_change (change_of_advance hsystem hconsistent)

theorem preserves_of_execute (hsystem : chain.system.Documented)
    (hconsistent : Consistent chain before) (hrun : execute chain transaction before = .ok after) :
    Preserves before after := by
  have hpreserves := preserves_advance hsystem before transaction hconsistent
  rwa [advance, hrun] at hpreserves

/-- A change of a started log was signed by its authority. -/
theorem signed_of_change (hchange : Change chain transaction before after) {address : Pubkey}
    {config : LogConfig} (hread : readConfig before address = some config)
    (hdifferent : ∃ other, contentAt after other ≠ contentAt before other) :
    config.authority ∈ transaction.context.signers := by
  cases hchange with
  | nothing hsame =>
    obtain ⟨other, hother⟩ := hdifferent
    exact absurd (hsame other) hother
  | initialized hunstarted heffect =>
    rw [hunstarted.readConfig_eq_none] at hread
    exact absurd hread (by simp)
  | published hstarted heffect =>
    obtain ⟨-, rfl⟩ := hstarted.readConfig_eq_some_iff.mp hread
    exact heffect.signed
  | attached hstarted heffect =>
    obtain ⟨-, rfl⟩ := hstarted.readConfig_eq_some_iff.mp hread
    exact heffect.signed

end AnchoredLog.Program.LogInvariant
