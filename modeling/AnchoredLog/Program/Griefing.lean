import AnchoredLog.Program.Balances

/-!
# Publishing to an address somebody has funded

The address of a checkpoint is derived from public seeds, so that anyone can send lamports to it
before the checkpoint is published. Here no such transfer stops the publication: from every state
the program reaches, the authority publishes the next epoch whatever the balance of its address,
and the account and the configuration it leaves do not depend on that balance.

`Ready` is the invariant that makes this so: the configuration has the schema the program writes,
and the addresses of the epochs that are not published yet hold nothing but lamports. What is
assumed of the derivation of addresses is `Separated` for the seeds of this program and that a
derived address has no key.
-/

set_option autoImplicit false
set_option relaxedAutoImplicit false

namespace AnchoredLog.Program.Griefing

open Library.ByteCodec Library.Fallible Library.Runs AccountLayouts ChainRuntime Checkpoint
open LogInvariant LogSafety Balances

/-! ### Addresses of epochs to come -/

/-- The addresses derived for the configuration and for the checkpoints of different epochs are
different. -/
structure Separated (chain : Chain) : Prop where
  config : ∀ bump epoch other address,
    chain.createProgramAddress (configSeeds bump) programId = some address →
    chain.createProgramAddress (checkpointSeeds epoch other) programId ≠ some address
  checkpoint : ∀ first second left right address,
    chain.createProgramAddress (checkpointSeeds first left) programId = some address →
    chain.createProgramAddress (checkpointSeeds second right) programId = some address →
    first = second

/-- The configuration has the schema the program writes. -/
def CurrentSchema (ledger : Ledger) : Prop :=
  ∀ address config, readConfig ledger address = some config →
    config.schemaVersion = schemaVersion

/-- The addresses of the epochs after the last hold nothing but lamports. -/
def VacantAhead (chain : Chain) (ledger : Ledger) : Prop :=
  ∀ epoch bump address,
    chain.createProgramAddress (checkpointSeeds epoch bump) programId = some address →
    (∀ other config, readConfig ledger other = some config → config.lastEpoch < epoch) →
    contentAt ledger address = (systemProgramId, [])

/-- What holds of every ledger from which the next epoch can be published. -/
structure Ready (chain : Chain) (ledger : Ledger) : Prop where
  consistent : Consistent chain ledger
  schema : CurrentSchema ledger
  vacant : VacantAhead chain ledger

variable {chain : Chain} {transaction : Transaction} {before after ledger : Ledger}

/-- The bump found for some seeds derives the address found. -/
theorem createProgramAddress_of_findProgramAddress {seeds : List (List UInt8)} {address : Pubkey}
    {bump : UInt8} (hfound : findProgramAddress chain seeds = some (address, bump)) :
    chain.createProgramAddress (seeds ++ [[bump]]) programId = some address := by
  obtain ⟨tried, -, htried⟩ := List.exists_of_findSome?_eq_some hfound
  rw [Option.map_eq_some_iff] at htried
  obtain ⟨derived, hderived, hpair⟩ := htried
  rw [Prod.mk.injEq] at hpair
  rw [← hpair.1, ← hpair.2, hderived]

theorem schema_of_change (hchange : Change chain transaction before after)
    (hschema : CurrentSchema before) : CurrentSchema after := by
  intro address config hread
  cases hchange with
  | nothing hsame =>
    rw [readConfig_congr (hsame address)] at hread
    exact hschema address config hread
  | initialized hunstarted heffect =>
    obtain ⟨-, rfl⟩ :=
      (started_of_initialized hunstarted heffect).readConfig_eq_some_iff.mp hread
    exact heffect.schema
  | @published accounts epoch root bump kept hstarted heffect =>
    obtain ⟨-, rfl⟩ := (started_of_published hstarted heffect).readConfig_eq_some_iff.mp hread
    exact hschema accounts.config kept (readConfig_of_content hstarted.stored)
  | attached hstarted heffect =>
    obtain ⟨-, rfl⟩ := (started_of_attached hstarted heffect).readConfig_eq_some_iff.mp hread
    exact hschema _ _ (readConfig_of_content hstarted.stored)

theorem vacant_of_change (hseparated : Separated chain)
    (hchange : Change chain transaction before after) (hvacant : VacantAhead chain before) :
    VacantAhead chain after := by
  intro epoch bump address hderived hahead
  cases hchange with
  | nothing hsame =>
    rw [hsame address]
    refine hvacant epoch bump address hderived fun other config hread ↦ ?_
    rw [← readConfig_congr (hsame other)] at hread
    exact hahead other config hread
  | initialized hunstarted heffect =>
    have haway := hseparated.config _ epoch bump _
      (createProgramAddress_of_findProgramAddress heffect.derived)
    rw [heffect.effect address, if_neg]
    · refine hvacant epoch bump address hderived fun other config hread ↦ ?_
      rw [hunstarted.readConfig_eq_none] at hread
      exact absurd hread (by simp)
    · rintro rfl
      exact haway hderived
  | @published accounts published root publishedBump config hstarted heffect =>
    have hlast : published < epoch := hahead _ _
      (readConfig_of_content (started_of_published hstarted heffect).stored)
    have hconfig : address ≠ accounts.config := by
      rintro rfl
      exact hseparated.config _ epoch bump _
        (createProgramAddress_of_findProgramAddress hstarted.derived) hderived
    have hcheckpoint : address ≠ accounts.checkpoint := by
      rintro rfl
      have hsame := hseparated.checkpoint _ _ _ _ _ heffect.derived hderived
      rw [hsame] at hlast
      exact UInt64.lt_irrefl epoch hlast
    rw [heffect.effect address, if_neg hconfig, if_neg hcheckpoint]
    refine hvacant epoch bump address hderived fun other found hread ↦ ?_
    obtain ⟨-, rfl⟩ := hstarted.readConfig_eq_some_iff.mp hread
    have hnext := heffect.next
    rw [UInt64.lt_iff_toNat_lt] at hlast ⊢
    omega
  | @attached accounts attached receiptDigest config checkpoint hstarted heffect =>
    have hbefore : contentAt before address = (systemProgramId, []) := by
      refine hvacant epoch bump address hderived fun other found hread ↦ ?_
      obtain ⟨rfl, rfl⟩ := hstarted.readConfig_eq_some_iff.mp hread
      exact hahead _ _ (readConfig_of_content (started_of_attached hstarted heffect).stored)
    rw [heffect.effect address, if_neg]
    · exact hbefore
    · rintro rfl
      have howner := owner_of_readCheckpoint (toOption_eq_some_iff.mpr heffect.loaded)
      rw [show (before accounts.checkpoint).owner = systemProgramId from
        congrArg Prod.fst hbefore] at howner
      exact programId_ne_systemProgramId howner.symm

theorem ready_advance (hsystem : chain.system.Documented) (hseparated : Separated chain)
    (ledger : Ledger) (transaction : Transaction) (hready : Ready chain ledger) :
    Ready chain (advance chain ledger transaction) := by
  have hchange : Change chain transaction ledger (advance chain ledger transaction) :=
    change_of_advance hsystem hready.consistent
  exact ⟨consistent_advance hsystem ledger transaction hready.consistent,
    schema_of_change hchange hready.schema, vacant_of_change hseparated hchange hready.vacant⟩

/-- The addresses of the program were empty before it ran. -/
def Unclaimed (chain : Chain) (ledger : Ledger) : Prop :=
  ∀ seeds address, chain.createProgramAddress seeds programId = some address →
    contentAt ledger address = (systemProgramId, [])

theorem ready_advanceAll (hsystem : chain.system.Documented) (hseparated : Separated chain)
    {initial : Ledger} (hfresh : ∀ address, (initial address).owner ≠ programId)
    (hunclaimed : Unclaimed chain initial) (transactions : List Transaction) :
    Ready chain (advanceAll chain initial transactions) := by
  refine run_invariant (ready_advance hsystem hseparated) ⟨.inl hfresh, ?_, ?_⟩ transactions
  · intro address config hread
    exact absurd (owner_of_readConfig hread) (hfresh address)
  · intro epoch bump address hderived _
    exact hunclaimed _ address hderived

/-! ### Creating the account from any balance -/

/-- The payer can pay the rent of a checkpoint. -/
structure CanPay (chain : Chain) (ledger : Ledger) (payer : Pubkey) : Prop where
  owner : (ledger payer).owner = systemProgramId
  data : (ledger payer).data = []
  rent : chain.minimumBalance CheckpointAccount.len ≤ (ledger payer).lamports

section Creation

variable {context : Context} {payer target : Pubkey} {seeds : List (List UInt8)}
  (hsystem : chain.system.Documented) (hvacant : contentAt ledger target = (systemProgramId, []))
  (hderived : chain.createProgramAddress seeds programId = some target)
  (hpayer : payer ∈ context.signers) (haway : payer ≠ target) (hpays : CanPay chain ledger payer)

include hderived in
theorem mem_signersWith : target ∈ signersWith chain context seeds := by
  rw [signersWith, hderived]
  simp

include hvacant hderived in
theorem canAllocate : CanAllocate (signersWith chain context seeds) target CheckpointAccount.len
    ledger :=
  ⟨mem_signersWith hderived, congrArg Prod.fst hvacant, congrArg Prod.snd hvacant, by decide⟩

include hsystem hvacant hderived in
/-- An address that holds nothing but lamports can be allocated and assigned. -/
theorem exists_assign : ∃ allocatedLedger created,
    chain.system.allocate (signersWith chain context seeds) target CheckpointAccount.len ledger =
        .ok allocatedLedger ∧
      chain.system.assign (signersWith chain context seeds) target programId allocatedLedger =
        .ok created ∧
      (created target).lamports = (ledger target).lamports := by
  have hallocatable : CanAllocate (signersWith chain context seeds) target CheckpointAccount.len
      ledger := canAllocate hvacant hderived
  have hallocate := hsystem.allocate_eq_ok_iff.mpr ⟨hallocatable, rfl⟩
  have hcontent := contentAt_allocated target CheckpointAccount.len ledger target
  rw [if_pos rfl] at hcontent
  have howner : (allocated target CheckpointAccount.len ledger target).owner = systemProgramId :=
    (congrArg Prod.fst hcontent).trans (congrArg Prod.fst hvacant)
  have hzeros : (allocated target CheckpointAccount.len ledger target).data =
      List.replicate CheckpointAccount.len 0 := congrArg Prod.snd hcontent
  have hassignable : CanAssign (signersWith chain context seeds) target
      (allocated target CheckpointAccount.len ledger) := by
    refine ⟨mem_signersWith hderived, howner, fun octet hoctet ↦ ?_⟩
    rw [hzeros] at hoctet
    exact List.eq_of_mem_replicate hoctet
  refine ⟨_, _, hallocate, hsystem.assign_eq_ok_iff.mpr ⟨hassignable, rfl⟩, ?_⟩
  rw [lamports_assigned, lamports_allocated]

include hsystem hpayer haway hpays in
/-- Topping an address up leaves it at least the rent. -/
theorem exists_topUp : ∃ funded,
    topUp chain context payer target (chain.minimumBalance CheckpointAccount.len) ledger =
        .ok funded ∧
      chain.minimumBalance CheckpointAccount.len ≤ (funded target).lamports := by
  unfold topUp
  by_cases hless : (ledger target).lamports < chain.minimumBalance CheckpointAccount.len
  · rw [if_pos hless]
    have hle : (ledger target).lamports.toNat ≤
        (chain.minimumBalance CheckpointAccount.len).toNat :=
      (UInt64.lt_iff_toNat_lt.mp hless).le
    have hsub := UInt64.toNat_sub_of_le _ _ (UInt64.le_iff_toNat_le.mpr hle)
    have hmissing : checkedSub (chain.minimumBalance CheckpointAccount.len)
        (ledger target).lamports =
        some (chain.minimumBalance CheckpointAccount.len - (ledger target).lamports) := by
      rw [checkedSub_eq_some_iff]
      omega
    have hrent : (chain.minimumBalance CheckpointAccount.len).toNat ≤
        (ledger payer).lamports.toNat := UInt64.le_iff_toNat_le.mp hpays.rent
    have hbound := (chain.minimumBalance CheckpointAccount.len).toNat_lt
    have htransfer : CanTransfer context.signers payer target
        (chain.minimumBalance CheckpointAccount.len - (ledger target).lamports) ledger := by
      refine ⟨hpayer, hpays.owner, hpays.data, ?_, .inr ?_⟩
      · rw [UInt64.le_iff_toNat_le]
        omega
      · omega
    refine ⟨_, okOr_bind_eq_ok_iff.mpr ⟨_, hmissing, invoke_eq_ok_iff.mpr
      (hsystem.transfer_eq_ok_iff.mpr ⟨htransfer, rfl⟩)⟩, ?_⟩
    rw [lamports_moved haway, UInt64.le_iff_toNat_le, UInt64.toNat_add]
    omega
  · rw [if_neg hless]
    exact ⟨ledger, rfl, UInt64.not_lt.mp hless⟩

include hsystem hvacant hderived hpayer haway hpays in
/-- The account of a checkpoint is created from any balance, and holds at least the rent. -/
theorem exists_createCheckpoint : ∃ created,
    createCheckpoint chain context payer target seeds ledger = .ok created ∧
      chain.minimumBalance CheckpointAccount.len ≤ (created target).lamports := by
  unfold createCheckpoint
  by_cases hheld : (ledger target).lamports = 0
  · rw [if_pos hheld]
    have htransfer : CanTransfer (signersWith chain context seeds) payer target
        (chain.minimumBalance CheckpointAccount.len) ledger := by
      refine ⟨?_, hpays.owner, hpays.data, hpays.rent, .inr ?_⟩
      · exact List.mem_append_left _ hpayer
      · rw [hheld]
        have hbound := (chain.minimumBalance CheckpointAccount.len).toNat_lt
        simpa using hbound
    refine ⟨_, invoke_eq_ok_iff.mpr (hsystem.createAccount_eq_ok_iff.mpr
      ⟨⟨haway, hheld, canAllocate hvacant hderived, htransfer⟩, rfl⟩), ?_⟩
    rw [lamports_moved haway, lamports_assigned, lamports_allocated, hheld, UInt64.zero_add]
    exact UInt64.le_refl _
  · rw [if_neg hheld]
    obtain ⟨funded, htopUp, hrent⟩ := exists_topUp hsystem hpayer haway hpays
    have hstill : contentAt funded target = (systemProgramId, []) :=
      (contentAt_topUp hsystem htopUp target).trans hvacant
    obtain ⟨allocatedLedger, created, hallocate, hassign, hlamports⟩ :=
      exists_assign hsystem hstill hderived
    refine ⟨created, ?_, hlamports ▸ hrent⟩
    refine bind_eq_ok_iff.mpr ⟨funded, htopUp, ?_⟩
    exact bind_eq_ok_iff.mpr ⟨allocatedLedger, invoke_eq_ok_iff.mpr hallocate,
      invoke_eq_ok_iff.mpr hassign⟩

end Creation

/-- Octets that fit into an account can be written, and no balance changes. -/
theorem exists_writeAccount {octets : List UInt8} {address : Pubkey}
    (hlength : octets.length ≤ (ledger address).data.length) :
    ∃ written, writeAccount octets address ledger = .ok written ∧
      ∀ other, (written other).lamports = (ledger other).lamports := by
  refine ⟨_, bind_unit_eq_ok_iff.mpr ⟨require_of_true hlength, rfl⟩, fun other ↦ ?_⟩
  rw [lamports_set]
  split
  · next hsame => rw [hsame]
  · rfl

/-! ### Publishing the next epoch -/

/-- A ledger with another balance at an address. -/
def withBalance (ledger : Ledger) (address : Pubkey) (lamports : UInt64) : Ledger :=
  ledger.set address { ledger address with lamports := lamports }

theorem contentAt_withBalance (ledger : Ledger) (address : Pubkey) (lamports : UInt64)
    (other : Pubkey) : contentAt (withBalance ledger address lamports) other =
      contentAt ledger other := by
  rw [withBalance, contentAt_set]
  split
  · next hsame => rw [hsame]; rfl
  · rfl

section Publication

variable {context : Context} {address payer target : Pubkey} {config : LogConfig} {epoch : UInt64}
  {bump : UInt8}

/-- The authority and a payer who can pay publish the next epoch of a started log, whose address
holds nothing but lamports. -/
theorem exists_publishCheckpoint (hsystem : chain.system.Documented)
    (hstarted : Started chain ledger address config)
    (hschema : config.schemaVersion = schemaVersion)
    (hvacant : contentAt ledger target = (systemProgramId, []))
    (hderived : chain.createProgramAddress (checkpointSeeds epoch bump) programId = some target)
    (hnext : epoch.toNat = config.lastEpoch.toNat + 1)
    (hday : (epoch.toNat : ℤ) ≤ context.clock.unixTimestamp.toInt / 86400)
    (hauthority : config.authority ∈ context.signers) (hpayer : payer ∈ context.signers)
    (haway : payer ≠ target) (hpays : CanPay chain ledger payer) (root : Octets 32) :
    ∃ reached, publishCheckpoint chain context
        ⟨address, target, config.authority, payer, systemProgramId⟩ epoch root bump ledger =
          .ok reached ∧
      chain.minimumBalance CheckpointAccount.len ≤ (reached target).lamports := by
  have hloaded := toOption_eq_some_iff.mp (readConfig_of_content hstarted.stored)
  have hconfigSeeds := createProgramAddress_of_findProgramAddress hstarted.derived
  have hapart : address ≠ target := by
    rintro rfl
    rw [hstarted.stored, Prod.mk.injEq] at hvacant
    exact programId_ne_systemProgramId hvacant.1
  have hempty : (ledger target).owner = systemProgramId ∧ (ledger target).data = [] :=
    ⟨congrArg Prod.fst hvacant, congrArg Prod.snd hvacant⟩
  have hsum : checkedAdd config.lastEpoch 1 = some epoch := checkedAdd_eq_some_iff.mpr hnext
  obtain ⟨day, hchainDay, hepoch⟩ : ∃ day,
      tryFromU64 (context.clock.unixTimestamp.toInt.tdiv 86400) = some day ∧ epoch ≤ day := by
    have hpositive : 0 ≤ context.clock.unixTimestamp.toInt := by omega
    have hbound := context.clock.unixTimestamp.toInt_lt
    rw [Int.tdiv_eq_ediv_of_nonneg hpositive]
    refine ⟨UInt64.ofNat (context.clock.unixTimestamp.toInt / 86400).toNat, ?_, ?_⟩
    · rw [tryFromU64_eq_some_iff, UInt64.toNat_ofNat']
      omega
    · rw [UInt64.le_iff_toNat_le, UInt64.toNat_ofNat']
      omega
  obtain ⟨created, hcreate, hrent⟩ :=
    exists_createCheckpoint hsystem hvacant hderived hpayer haway hpays
  have hcreates := creates_of_createCheckpoint hsystem hcreate
  have hcreated : (created target).data = List.replicate CheckpointAccount.len 0 := by
    have hcontent := hcreates.2 target
    rw [if_pos rfl] at hcontent
    exact congrArg Prod.snd hcontent
  obtain ⟨written, hwrite, hkept⟩ : ∃ written,
      writeAccount (published context epoch root bump).octets target created = .ok written ∧
        ∀ other, (written other).lamports = (created other).lamports := by
    apply exists_writeAccount
    rw [hcreated, length_octets_checkpoint, List.length_replicate]
  have hconfig : contentAt written address = (programId, config.octets) := by
    rw [hcreates.write (length_octets_checkpoint _) hwrite address, if_neg hapart,
      hstarted.stored]
  obtain ⟨reached, hfinal, hsame⟩ : ∃ reached,
      writeAccount { config with lastEpoch := epoch }.octets address written = .ok reached ∧
        ∀ other, (reached other).lamports = (written other).lamports := by
    apply exists_writeAccount
    rw [show (written address).data = config.octets from congrArg Prod.snd hconfig,
      length_octets_logConfig, length_octets_logConfig]
  refine ⟨reached, ?_, ?_⟩
  · refine bind_eq_ok_iff.mpr ⟨config, hloaded, ?_⟩
    simp only [bind_unit_eq_ok_iff, okOr_bind_eq_ok_iff, require_eq_ok_iff,
      requireSeeds_eq_ok_iff]
    refine ⟨hauthority, hpayer, trivial, hconfigSeeds, trivial, hderived, hschema, .inr hempty.2,
      hempty, epoch, hsum, rfl, day, hchainDay, hepoch, ?_⟩
    exact bind_eq_ok_iff.mpr ⟨created, hcreate, bind_eq_ok_iff.mpr ⟨written, hwrite, hfinal⟩⟩
  · rw [hsame, hkept]
    exact hrent

/-- What a publication into a started log leaves at every address. -/
theorem contentAt_publishCheckpoint (hsystem : chain.system.Documented)
    {accounts : PublishAccounts} (hstarted : Started chain ledger accounts.config config)
    {root : Octets 32} {reached : Ledger}
    (hrun : publishCheckpoint chain context accounts epoch root bump ledger = .ok reached)
    (other : Pubkey) : contentAt reached other =
      if other = accounts.config then (programId, { config with lastEpoch := epoch }.octets)
      else if other = accounts.checkpoint then
        (programId, (published context epoch root bump).octets)
      else contentAt ledger other := by
  obtain ⟨found, hfound, heffect⟩ :=
    published_of_publishCheckpoint hsystem (.inr ⟨accounts.config, config, hstarted⟩) hrun
  obtain ⟨-, rfl⟩ := hstarted.readConfig_eq_some_iff.mp (readConfig_of_content hfound.stored)
  exact heffect.effect other

/-- Who can pay can do so whatever the balance of another address. -/
theorem CanPay.withBalance (hpays : CanPay chain ledger payer) (haway : payer ≠ target)
    (lamports : UInt64) : CanPay chain (withBalance ledger target lamports) payer := by
  have hsame : Griefing.withBalance ledger target lamports payer = ledger payer :=
    Function.update_of_ne haway _ _
  exact ⟨hsame ▸ hpays.owner, hsame ▸ hpays.data, hsame ▸ hpays.rent⟩

end Publication

/-- What the publication of the next epoch does when third parties have sent lamports to its
address, against what it does when nobody has. -/
structure Unaffected (chain : Chain) (context : Context) (accounts : PublishAccounts)
    (epoch : UInt64) (root : Octets 32) (bump : UInt8) (config : LogConfig)
    (ledger : Ledger) (sent : UInt64) : Prop where
  /-- Both publications succeed, and the owner and the data of every account are the same after
  them. -/
  same : ∃ reached unsent,
    publishCheckpoint chain context accounts epoch root bump
        (withBalance ledger accounts.checkpoint sent) = .ok reached ∧
      publishCheckpoint chain context accounts epoch root bump
        (withBalance ledger accounts.checkpoint 0) = .ok unsent ∧
      ∀ address, contentAt reached address = contentAt unsent address
  /-- The account holds the checkpoint in 106 octets and at least the rent, and the configuration
  counts the epoch. -/
  written : ∀ reached,
    publishCheckpoint chain context accounts epoch root bump
      (withBalance ledger accounts.checkpoint sent) = .ok reached →
    (reached accounts.checkpoint).owner = programId ∧
      (reached accounts.checkpoint).data = (published context epoch root bump).octets ∧
      (reached accounts.checkpoint).data.length = 106 ∧
      contentAt reached accounts.config = (programId, { config with lastEpoch := epoch }.octets) ∧
      chain.minimumBalance CheckpointAccount.len ≤ (reached accounts.checkpoint).lamports

/-- Whatever lamports third parties have sent to the address of the next epoch, the authority
publishes it, and leaves what it would have left without them. -/
theorem publication_resists_griefing (chain : Chain) (hsystem : chain.system.Documented)
    (hseparated : Separated chain) (initial : Ledger)
    (hfresh : ∀ address, (initial address).owner ≠ programId)
    (hunclaimed : Unclaimed chain initial) (transactions : List Transaction)
    (address : Pubkey) (config : LogConfig)
    (hconfig : readConfig (advanceAll chain initial transactions) address = some config)
    (epoch : UInt64) (hnext : epoch.toNat = config.lastEpoch.toNat + 1)
    (bump : UInt8) (target : Pubkey)
    (hderived : chain.createProgramAddress (checkpointSeeds epoch bump) programId = some target)
    (context : Context)
    (hkeys : ∀ signer ∈ context.signers, ∀ seeds,
      chain.createProgramAddress seeds programId ≠ some signer)
    (hday : (epoch.toNat : ℤ) ≤ context.clock.unixTimestamp.toInt / 86400)
    (hauthority : config.authority ∈ context.signers) (payer : Pubkey)
    (hpayer : payer ∈ context.signers)
    (hpays : CanPay chain (advanceAll chain initial transactions) payer)
    (root : Octets 32) (sent : UInt64) :
    Unaffected chain context ⟨address, target, config.authority, payer, systemProgramId⟩ epoch root
      bump config (advanceAll chain initial transactions) sent := by
  have hready := ready_advanceAll hsystem hseparated hfresh hunclaimed transactions
  have hstarted := hready.consistent.started hconfig
  have hschema := hready.schema address config hconfig
  have haway : payer ≠ target := by
    rintro rfl
    exact hkeys payer hpayer _ hderived
  have hvacant : contentAt (advanceAll chain initial transactions) target =
      (systemProgramId, []) := by
    refine hready.vacant epoch bump target hderived fun other found hread ↦ ?_
    obtain ⟨-, rfl⟩ := hstarted.readConfig_eq_some_iff.mp hread
    rw [UInt64.lt_iff_toNat_lt]
    omega
  have hlog (held : UInt64) : Started chain
      (withBalance (advanceAll chain initial transactions) target held) address config :=
    hstarted.of_content (contentAt_withBalance _ target held)
  have hpublish (held : UInt64) := exists_publishCheckpoint hsystem (hlog held) hschema
    ((contentAt_withBalance _ target held target).trans hvacant) hderived hnext hday hauthority
    hpayer haway (hpays.withBalance haway held) root
  have hcontent (held : UInt64) {reached : Ledger}
      (hrun : publishCheckpoint chain context
        ⟨address, target, config.authority, payer, systemProgramId⟩ epoch root bump
        (withBalance (advanceAll chain initial transactions) target held) = .ok reached) :=
    contentAt_publishCheckpoint hsystem (hlog held) hrun
  have hapart : target ≠ address := by
    rintro rfl
    rw [hstarted.stored, Prod.mk.injEq] at hvacant
    exact programId_ne_systemProgramId hvacant.1
  obtain ⟨reached, hrun, hrent⟩ := hpublish sent
  obtain ⟨unsent, hplain, -⟩ := hpublish 0
  constructor
  · refine ⟨reached, unsent, hrun, hplain, fun other ↦ ?_⟩
    rw [hcontent sent hrun other, hcontent 0 hplain other, contentAt_withBalance,
      contentAt_withBalance]
  · intro other hother
    rw [hrun, Except.ok.injEq] at hother
    subst hother
    have htarget := hcontent sent hrun target
    rw [if_neg hapart, if_pos rfl] at htarget
    have hdata : (reached target).data = (published context epoch root bump).octets :=
      congrArg Prod.snd htarget
    refine ⟨congrArg Prod.fst htarget, hdata, ?_, ?_, hrent⟩
    · rw [hdata, length_octets_checkpoint]
      rfl
    · rw [hcontent sent hrun address, if_pos rfl]

/-- The address of the configuration of the deployment. -/
def deployedConfig : Pubkey :=
  ⟨[0xab, 0xb9, 0xdc, 0x3b, 0x41, 0x7c, 0x0d, 0x0f, 0xe2, 0xb9, 0x9d, 0x10, 0x9e, 0x5d, 0x1b,
    0x0b, 0x8b, 0x71, 0xc7, 0xe6, 0x93, 0xc2, 0x0e, 0x75, 0x6c, 0xab, 0xdf, 0x7e, 0x6d, 0x30,
    0xd6, 0xfc], rfl⟩

/-- The address of the checkpoint of the day 20000 of the deployment. -/
def deployedCheckpoint : Pubkey :=
  ⟨[0x45, 0x95, 0xc7, 0x67, 0x7f, 0x61, 0x79, 0x18, 0xdd, 0x26, 0x3f, 0x29, 0x15, 0x2c, 0xdf,
    0xc8, 0x38, 0x6e, 0xda, 0xcd, 0xfe, 0xb5, 0x4a, 0xa0, 0xf9, 0x04, 0xb6, 0xf6, 0x9c, 0xd6,
    0xfc, 0x43], rfl⟩

/-- A chain that derives these two addresses. -/
def griefedChain : Chain where
  createProgramAddress := fun seeds _ ↦
    if seeds = configSeeds 250 then some deployedConfig
    else if seeds = checkpointSeeds 20000 255 then some deployedCheckpoint
    else none
  minimumBalance := fun _ ↦ 1000
  system := referenceSystem

/-- An address that chain derives is one of the two, and from its seeds. -/
theorem derived_griefedChain {seeds : List (List UInt8)} {address : Pubkey}
    (hderived : griefedChain.createProgramAddress seeds programId = some address) :
    seeds = configSeeds 250 ∧ address = deployedConfig ∨
      seeds = checkpointSeeds 20000 255 ∧ address = deployedCheckpoint := by
  simp only [griefedChain] at hderived
  split_ifs at hderived with hconfig hcheckpoint
  · exact .inl ⟨hconfig, (Option.some.inj hderived).symm⟩
  · exact .inr ⟨hcheckpoint, (Option.some.inj hderived).symm⟩

theorem separated_griefedChain : Separated griefedChain := by
  have happart : deployedConfig ≠ deployedCheckpoint := by decide
  have hlengths (bump other : UInt8) (epoch : UInt64) :
      configSeeds bump ≠ checkpointSeeds epoch other := fun hsame ↦ by
    cases congrArg List.length hsame
  have hepoch {epoch : UInt64} {bump : UInt8} {address : Pubkey}
      (hderived : griefedChain.createProgramAddress (checkpointSeeds epoch bump) programId =
        some address) : epoch = 20000 ∧ address = deployedCheckpoint := by
    rcases derived_griefedChain hderived with ⟨hseeds, -⟩ | ⟨hseeds, haddress⟩
    · exact absurd hseeds.symm (hlengths 250 bump epoch)
    · have hnumber := (List.cons.inj (List.cons.inj hseeds).2).1
      exact ⟨UInt64.toNat_inj.mp (leList_injective epoch.toNat_lt (by decide) hnumber), haddress⟩
  constructor
  · intro bump epoch other address hconfig hcheckpoint
    obtain ⟨-, rfl⟩ := hepoch hcheckpoint
    rcases derived_griefedChain hconfig with ⟨-, hsame⟩ | ⟨hseeds, -⟩
    · exact happart hsame.symm
    · exact hlengths bump 255 20000 hseeds
  · intro first second left right address hfirst hsecond
    rw [(hepoch hfirst).1, (hepoch hsecond).1]

/-- A log started there, to the first epoch of which a third party has sent a lamport. -/
def griefedStart : List Transaction :=
  [signedByOperator (.initializeLog ⟨deployedConfig, operator, systemProgramId⟩ operator 10 20000),
    signedByOperator (.transfer operator deployedCheckpoint 1)]

/-- The first epoch of that log is published as if nothing had been sent. -/
theorem publication_resists_griefing_oneLamport :
    Unaffected griefedChain ⟨[operator], ⟨5, 1728000000⟩⟩
      ⟨deployedConfig, deployedCheckpoint, operator, operator, systemProgramId⟩ 20000 operator 255
      ⟨1, operator, 19999, 10, 250, 20000, Octets.zeros 8⟩
      (advanceAll griefedChain fundedLedger griefedStart) 1 := by
  refine publication_resists_griefing griefedChain referenceSystem_documented
    separated_griefedChain fundedLedger (fun _ ↦ programId_ne_systemProgramId.symm)
    (fun _ _ _ ↦ rfl) griefedStart deployedConfig
    ⟨1, operator, 19999, 10, 250, 20000, Octets.zeros 8⟩ (by decide +kernel) 20000 (by decide) 255
    deployedCheckpoint (by decide +kernel) ⟨[operator], ⟨5, 1728000000⟩⟩ ?_ (by decide) (by decide)
    operator (by decide) ⟨by decide +kernel, by decide +kernel, by decide +kernel⟩ operator 1
  intro signer hsigner seeds hderived
  rw [List.mem_singleton.mp hsigner] at hderived
  rcases derived_griefedChain hderived with ⟨-, hsame⟩ | ⟨-, hsame⟩
  · exact absurd hsame (by decide)
  · exact absurd hsame (by decide)

end AnchoredLog.Program.Griefing
