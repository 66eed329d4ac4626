import AnchoredLog.Program.LogSafety

/-!
# The balances of the program's accounts

An account of the program holds lamports: it is created with the rent of its length, only its
owner could debit it, and no instruction of the program does. `RentPaid` is kept by every
transaction, where the rent of an account is not zero.
-/

set_option autoImplicit false
set_option relaxedAutoImplicit false

namespace AnchoredLog.Program.Balances

open Library.ByteCodec Library.Fallible Library.Runs AccountLayouts ChainRuntime Checkpoint
open LogInvariant LogSafety

/-! ### What the system program does to balances -/

theorem lamports_set (ledger : Ledger) (address : Pubkey) (account : Account) (other : Pubkey) :
    (ledger.set address account other).lamports =
      if other = address then account.lamports else (ledger other).lamports := by
  rw [Ledger.set, Function.update_apply]
  split <;> rfl

theorem lamports_moved {source target : Pubkey} (haway : source ≠ target) (lamports : UInt64)
    (ledger : Ledger) :
    (moved source target lamports ledger target).lamports =
      (ledger target).lamports + lamports := by
  simp only [moved]
  rw [lamports_set, if_pos rfl, lamports_set, if_neg haway.symm]

theorem lamports_moved_of_ne {source target other : Pubkey} (hsource : other ≠ source)
    (htarget : other ≠ target) (lamports : UInt64) (ledger : Ledger) :
    (moved source target lamports ledger other).lamports = (ledger other).lamports := by
  simp only [moved]
  rw [lamports_set, if_neg htarget, lamports_set, if_neg hsource]

theorem lamports_allocated (target : Pubkey) (space : ℕ) (ledger : Ledger) (other : Pubkey) :
    (allocated target space ledger other).lamports = (ledger other).lamports := by
  rw [allocated, lamports_set]
  split
  · next hsame => rw [hsame]
  · rfl

theorem lamports_assigned (target owner : Pubkey) (ledger : Ledger) (other : Pubkey) :
    (assigned target owner ledger other).lamports = (ledger other).lamports := by
  rw [assigned, lamports_set]
  split
  · next hsame => rw [hsame]
  · rfl

theorem lamports_writeAccount {octets : List UInt8} {address : Pubkey} {before after : Ledger}
    (hwrite : writeAccount octets address before = .ok after) (other : Pubkey) :
    (after other).lamports = (before other).lamports := by
  rw [writeAccount, bind_unit_eq_ok_iff, pure_eq_ok, Except.ok.injEq] at hwrite
  rw [← hwrite.2, lamports_set]
  split
  · next hsame => rw [hsame]
  · rfl

/-! ### Accounts that are not debited -/

/-- A balance that is not zero is not zero after. -/
def KeepsBalance (before after : Ledger) (address : Pubkey) : Prop :=
  (before address).lamports ≠ 0 → (after address).lamports ≠ 0

/-- The accounts that do not belong to the system program keep their balance. -/
def KeepsOwned (before after : Ledger) : Prop :=
  ∀ address, (before address).owner ≠ systemProgramId → KeepsBalance before after address

variable {chain : Chain} {context : Context} {before after : Ledger}

theorem keepsBalance_of_eq {address : Pubkey}
    (hsame : (after address).lamports = (before address).lamports) :
    KeepsBalance before after address := by
  rw [KeepsBalance, hsame]
  exact id

/-- A transfer leaves its target and every account but its source no less than they held. -/
theorem keepsBalance_transfer (hsystem : chain.system.Documented) {signers : List Pubkey}
    {source target : Pubkey} {lamports : UInt64}
    (htransfer : chain.system.transfer signers source target lamports before = .ok after)
    {address : Pubkey} (haddress : address ≠ source ∨ address = target) :
    KeepsBalance before after address := by
  obtain ⟨⟨-, -, -, hheld, hfits⟩, rfl⟩ := hsystem.transfer_eq_ok_iff.mp htransfer
  intro hpaid
  by_cases htarget : address = target
  · subst htarget
    by_cases hself : source = address
    · subst hself
      simpa [moved, lamports_set, Ledger.set] using hpaid
    · rw [lamports_moved hself]
      intro hzero
      have hsum := congrArg UInt64.toNat hzero
      rw [UInt64.toNat_add, Nat.mod_eq_of_lt (hfits.resolve_left hself)] at hsum
      exact hpaid (UInt64.toNat_inj.mp (Nat.eq_zero_of_add_eq_zero_right hsum))
  · rw [lamports_moved_of_ne (haddress.resolve_right htarget) htarget]
    exact hpaid

/-- The source of a transfer belongs to the system program. -/
theorem keepsOwned_transfer (hsystem : chain.system.Documented) {signers : List Pubkey}
    {source target : Pubkey} {lamports : UInt64}
    (htransfer : chain.system.transfer signers source target lamports before = .ok after) :
    KeepsOwned before after := by
  intro address howner
  refine keepsBalance_transfer hsystem htransfer (.inl ?_)
  rintro rfl
  exact howner (hsystem.transfer_eq_ok_iff.mp htransfer).1.2.1

/-- Both ways of creating an account pay for it and debit no account of another program. -/
structure PaysFor (target : Pubkey) (before after : Ledger) : Prop where
  paid : (after target).lamports ≠ 0
  others : KeepsOwned before after

theorem paysFor_createAccount (hsystem : chain.system.Documented) {signers : List Pubkey}
    {payer target owner : Pubkey} {rent : UInt64} (hrent : rent ≠ 0) {space : ℕ}
    (hcreate : chain.system.createAccount signers payer target rent space owner before =
      .ok after) : PaysFor target before after := by
  obtain ⟨⟨haway, hzero, hallocate, htransfer⟩, rfl⟩ :=
    hsystem.createAccount_eq_ok_iff.mp hcreate
  refine ⟨?_, fun address howner ↦ keepsBalance_of_eq ?_⟩
  · rw [lamports_moved haway, lamports_assigned, lamports_allocated, hzero, UInt64.zero_add]
    exact hrent
  · have hpayer : address ≠ payer := by
      rintro rfl
      exact howner htransfer.2.1
    have htarget : address ≠ target := by
      rintro rfl
      exact howner hallocate.2.1
    rw [lamports_moved_of_ne hpayer htarget, lamports_assigned, lamports_allocated]

/-- Allocating and assigning an account changes no balance. -/
theorem lamports_allocate_assign (hsystem : chain.system.Documented) {signers : List Pubkey}
    {target owner : Pubkey} {space : ℕ} {reached : Ledger}
    (hallocate : chain.system.allocate signers target space before = .ok reached)
    (hassign : chain.system.assign signers target owner reached = .ok after) (other : Pubkey) :
    (after other).lamports = (before other).lamports := by
  obtain ⟨-, rfl⟩ := hsystem.allocate_eq_ok_iff.mp hallocate
  obtain ⟨-, rfl⟩ := hsystem.assign_eq_ok_iff.mp hassign
  rw [lamports_assigned, lamports_allocated]

theorem KeepsOwned.congr {reached : Ledger} (hkeeps : KeepsOwned before reached)
    (hsame : ∀ other, (after other).lamports = (reached other).lamports) :
    KeepsOwned before after := by
  intro address howner hpaid
  rw [hsame]
  exact hkeeps address howner hpaid

theorem PaysFor.congr {target : Pubkey} {reached : Ledger} (hpays : PaysFor target before reached)
    (hsame : ∀ other, (after other).lamports = (reached other).lamports) :
    PaysFor target before after :=
  ⟨by rw [hsame]; exact hpays.paid, hpays.others.congr hsame⟩

theorem paysFor_createCheckpoint (hsystem : chain.system.Documented)
    (hrent : chain.minimumBalance CheckpointAccount.len ≠ 0) {payer target : Pubkey}
    {seeds : List (List UInt8)}
    (hcreate : createCheckpoint chain context payer target seeds before = .ok after) :
    PaysFor target before after := by
  unfold createCheckpoint at hcreate
  by_cases hheld : (before target).lamports = 0
  · rw [if_pos hheld, invoke_eq_ok_iff] at hcreate
    exact paysFor_createAccount hsystem hrent hcreate
  · rw [if_neg hheld] at hcreate
    obtain ⟨funded, htopUp, hrest⟩ := bind_eq_ok_iff.mp hcreate
    obtain ⟨reached, hallocate, hassign⟩ := bind_eq_ok_iff.mp hrest
    rw [invoke_eq_ok_iff] at hallocate hassign
    have hfunded : PaysFor target before funded := by
      unfold topUp at htopUp
      split at htopUp
      · obtain ⟨missing, -, htransfer⟩ := okOr_bind_eq_ok_iff.mp htopUp
        rw [invoke_eq_ok_iff] at htransfer
        exact ⟨keepsBalance_transfer hsystem htransfer (.inr rfl) hheld,
          keepsOwned_transfer hsystem htransfer⟩
      · obtain rfl := Except.ok.inj htopUp
        exact ⟨hheld, fun address _ ↦ id⟩
    exact hfunded.congr (lamports_allocate_assign hsystem hallocate hassign)

theorem paysFor_initAccount (hsystem : chain.system.Documented) {space : ℕ}
    (hrent : chain.minimumBalance space ≠ 0) {payer target : Pubkey} {seeds : List (List UInt8)}
    (hinit : initAccount chain context payer target space seeds before = .ok after) :
    PaysFor target before after := by
  unfold initAccount at hinit
  by_cases hheld : (before target).lamports = 0
  · rw [if_pos hheld, invoke_eq_ok_iff] at hinit
    exact paysFor_createAccount hsystem hrent hinit
  · rw [if_neg hheld, bind_unit_eq_ok_iff] at hinit
    obtain ⟨-, hrest⟩ := hinit
    obtain ⟨funded, hfund, hrest⟩ := bind_eq_ok_iff.mp hrest
    obtain ⟨reached, hallocate, hassign⟩ := bind_eq_ok_iff.mp hrest
    rw [invoke_eq_ok_iff] at hallocate hassign
    have hfunded : PaysFor target before funded := by
      generalize (if chain.minimumBalance space ≤ 1 then 1 else chain.minimumBalance space) =
        needed at hfund
      unfold fund at hfund
      split at hfund
      · rw [invoke_eq_ok_iff] at hfund
        exact ⟨keepsBalance_transfer hsystem hfund (.inr rfl) hheld,
          keepsOwned_transfer hsystem hfund⟩
      · obtain rfl := Except.ok.inj hfund
        exact ⟨hheld, fun address _ ↦ id⟩
    exact hfunded.congr (lamports_allocate_assign hsystem hallocate hassign)

/-! ### The balances of the program's accounts -/

/-- Every account of the program holds lamports. -/
def RentPaid (ledger : Ledger) : Prop :=
  ∀ address, (ledger address).owner = programId → (ledger address).lamports ≠ 0

/-- What the program needs of the rent: its accounts pay some. -/
structure Rents (chain : Chain) : Prop where
  config : chain.minimumBalance LogConfig.len ≠ 0
  checkpoint : chain.minimumBalance CheckpointAccount.len ≠ 0

/-- The accounts of the program pay when those it had keep their balance and the new one pays. -/
theorem rentPaid_of_keeps (hpaid : RentPaid before) (hkeeps : KeepsOwned before after)
    (hnew : ∀ address, (after address).owner = programId → (before address).owner ≠ programId →
      (after address).lamports ≠ 0) : RentPaid after := by
  intro address howner
  by_cases hbefore : (before address).owner = programId
  · refine hkeeps address ?_ (hpaid address hbefore)
    rw [hbefore]
    exact programId_ne_systemProgramId
  · exact hnew address howner hbefore

theorem rentPaid_initializeLog (hsystem : chain.system.Documented) (hrents : Rents chain)
    {accounts : InitializeAccounts} {authority : Pubkey} {treeHeight : UInt8}
    {startEpoch : UInt64} (hunstarted : Unstarted before)
    (hrun : initializeLog chain context accounts authority treeHeight startEpoch before =
      .ok after) : RentPaid after := by
  simp only [initializeLog, bind_unit_eq_ok_iff, okOr_bind_eq_ok_iff, require_eq_ok_iff] at hrun
  obtain ⟨-, -, derived, hderived, haddress, hrest⟩ := hrun
  obtain ⟨created, hinit, hbody⟩ := bind_eq_ok_iff.mp hrest
  simp only [bind_unit_eq_ok_iff, okOr_bind_eq_ok_iff, require_eq_ok_iff] at hbody
  obtain ⟨-, unixTimestamp, -, -, lastEpoch, -, hwrite⟩ := hbody
  have hpays := (paysFor_initAccount hsystem hrents.config hinit).congr
    (lamports_writeAccount hwrite)
  have heffect := (creates_of_initAccount hsystem hinit).write (length_octets_logConfig _) hwrite
  refine rentPaid_of_keeps (fun address howner ↦ absurd howner (hunstarted address)) hpays.others
    fun address howner hbefore ↦ ?_
  by_cases hsame : address = accounts.config
  · rw [hsame]
    exact hpays.paid
  · have hcontent := heffect address
    rw [if_neg hsame] at hcontent
    exact absurd ((congrArg Prod.fst hcontent).symm.trans howner) hbefore

theorem rentPaid_publishCheckpoint (hsystem : chain.system.Documented) (hrents : Rents chain)
    {accounts : PublishAccounts} {epoch : UInt64} {root : Octets 32} {bump : UInt8}
    (hpaid : RentPaid before) {config : LogConfig}
    (heffect : Published chain context accounts epoch root bump before after config)
    (hrun : publishCheckpoint chain context accounts epoch root bump before = .ok after) :
    RentPaid after := by
  obtain ⟨loaded, -, hbody⟩ := bind_eq_ok_iff.mp hrun
  simp only [bind_unit_eq_ok_iff, okOr_bind_eq_ok_iff, require_eq_ok_iff] at hbody
  obtain ⟨-, -, -, -, -, -, -, -, -, next, -, -, day, -, -, hrest⟩ := hbody
  obtain ⟨created, hcreate, hwrites⟩ := bind_eq_ok_iff.mp hrest
  obtain ⟨written, hcheckpoint, hconfig⟩ := bind_eq_ok_iff.mp hwrites
  have hpays := ((paysFor_createCheckpoint hsystem hrents.checkpoint hcreate).congr
    (lamports_writeAccount hcheckpoint)).congr (lamports_writeAccount hconfig)
  refine rentPaid_of_keeps hpaid hpays.others fun address howner hbefore ↦ ?_
  by_cases hsame : address = accounts.checkpoint
  · rw [hsame]
    exact hpays.paid
  · have hcontent := heffect.effect address
    by_cases hconfigured : address = accounts.config
    · subst hconfigured
      exact absurd (loadAccount_eq_ok heffect.loaded).1 hbefore
    · rw [if_neg hconfigured, if_neg hsame] at hcontent
      exact absurd ((congrArg Prod.fst hcontent).symm.trans howner) hbefore

theorem rentPaid_attachAnchorReceipt {accounts : AttachAccounts} {epoch : UInt64}
    {receiptDigest : Octets 32} {kind : UInt8} (hpaid : RentPaid before) {config : LogConfig}
    {checkpoint : CheckpointAccount}
    (heffect : Attached context accounts epoch receiptDigest before after config checkpoint)
    (hrun : attachAnchorReceipt chain context accounts epoch receiptDigest kind before =
      .ok after) : RentPaid after := by
  obtain ⟨loaded, -, hbody⟩ := bind_eq_ok_iff.mp hrun
  obtain ⟨found, -, hrest⟩ := bind_eq_ok_iff.mp hbody
  simp only [bind_unit_eq_ok_iff, require_eq_ok_iff, requireSeeds_eq_ok_iff] at hrest
  obtain ⟨-, -, -, -, -, -, -, -, -, hwrite⟩ := hrest
  have hsame := lamports_writeAccount hwrite
  refine rentPaid_of_keeps hpaid (fun address _ ↦ keepsBalance_of_eq (hsame address))
    fun address howner hbefore ↦ ?_
  have hcontent := heffect.effect address
  by_cases hattached : address = accounts.checkpoint
  · subst hattached
    exact absurd (loadAccount_eq_ok heffect.loaded).1 hbefore
  · rw [if_neg hattached] at hcontent
    exact absurd ((congrArg Prod.fst hcontent).symm.trans howner) hbefore

/-- The accounts of the program go on paying rent, whatever the transaction. -/
theorem rentPaid_advance (hsystem : chain.system.Documented) (hrents : Rents chain)
    (ledger : Ledger) (transaction : Transaction)
    (hledger : Consistent chain ledger ∧ RentPaid ledger) :
    Consistent chain (advance chain ledger transaction) ∧
      RentPaid (advance chain ledger transaction) := by
  obtain ⟨hconsistent, hpaid⟩ := hledger
  refine ⟨consistent_advance hsystem ledger transaction hconsistent, ?_⟩
  unfold advance
  cases hrun : execute chain transaction ledger with
  | error error => exact hpaid
  | ok reached =>
    obtain ⟨context, instruction⟩ := transaction
    cases instruction with
    | initializeLog accounts authority treeHeight startEpoch =>
      obtain ⟨address, config, heffect⟩ := initializeLog_effect hsystem hrun
      exact rentPaid_initializeLog hsystem hrents
        (unstarted_of_initialized heffect hconsistent) hrun
    | publishCheckpoint accounts epoch root bump =>
      obtain ⟨config, -, heffect⟩ := published_of_publishCheckpoint hsystem hconsistent hrun
      exact rentPaid_publishCheckpoint hsystem hrents hpaid heffect hrun
    | attachAnchorReceipt accounts epoch receiptDigest kind =>
      obtain ⟨config, checkpoint, -, heffect⟩ := attached_of_attachAnchorReceipt hconsistent hrun
      exact rentPaid_attachAnchorReceipt hpaid heffect hrun
    | transfer source target lamports =>
      have htransfer := invoke_eq_ok_iff.mp hrun
      refine rentPaid_of_keeps hpaid (keepsOwned_transfer hsystem htransfer)
        fun address howner hbefore ↦ ?_
      exact absurd ((congrArg Prod.fst (contentAt_transfer hsystem htransfer address)).symm.trans
        howner) hbefore

/-- In every ledger of a run, the accounts of the program pay rent. -/
theorem rentPaid_advanceAll (hsystem : chain.system.Documented) (hrents : Rents chain)
    {initial : Ledger} (hunstarted : Unstarted initial) (transactions : List Transaction) :
    RentPaid (advanceAll chain initial transactions) :=
  (run_invariant (rentPaid_advance hsystem hrents)
    ⟨.inl hunstarted, fun address howner ↦ absurd howner (hunstarted address)⟩ transactions).2

end AnchoredLog.Program.Balances
