import AnchoredLog.Library.Agreement
import AnchoredLog.Program.LogSafety

/-!
# What a run shows besides its digests

Two runs whose transactions differ in the roots that are published and in the digests of the
receipts that are attached show the same apart from these: the same transactions succeed, the
others fail with the same error, every balance and every owner is the same, and the data of every
account agree outside the 32 octets of a root and the 32 octets of a receipt's digest.

`Alike` relates two such ledgers. Each operation of the program on them agrees, one lemma for each,
and `agree_execute` puts them together for a transaction; `runs_alike` carries the relation over
runs.
-/

set_option autoImplicit false
set_option relaxedAutoImplicit false

namespace AnchoredLog.Program.Footprint

open Library.ByteCodec Library.Fallible Library.Agreement
open AccountLayouts ChainRuntime Checkpoint LogInvariant LogSafety

/-! ### Ledgers that are alike -/

/-- Two checkpoints that differ in their roots and in the digests of their receipts alone. -/
structure SameFootprint (left right : CheckpointAccount) : Prop where
  schemaVersion : left.schemaVersion = right.schemaVersion
  epoch : left.epoch = right.epoch
  publishedSlot : left.publishedSlot = right.publishedSlot
  publishedUnix : left.publishedUnix = right.publishedUnix
  receipt : left.receiptDigest = noReceipt ↔ right.receiptDigest = noReceipt
  anchorKind : left.anchorKind = right.anchorKind
  bump : left.bump = right.bump
  reserved : left.reserved = right.reserved

/-- The same data, or two such checkpoints with the same data after them. -/
def AlikeData (left right : List UInt8) : Prop :=
  left = right ∨ ∃ first second rest, SameFootprint first second ∧
    left = CheckpointAccount.octets first ++ rest ∧ right = CheckpointAccount.octets second ++ rest

/-- The same balance and owner, and data that are alike. -/
structure AlikeAccount (left right : Account) : Prop where
  lamports : left.lamports = right.lamports
  owner : left.owner = right.owner
  data : AlikeData left.data right.data

/-- The accounts at every address are alike. -/
def Alike (left right : Ledger) : Prop :=
  ∀ address, AlikeAccount (left address) (right address)

/-- The same error, or any two of the system program. -/
def SameError (left right : ProgramError) : Prop :=
  left = right ∨ (∃ code, left = .system code) ∧ ∃ code, right = .system code

theorem SameFootprint.refl (checkpoint : CheckpointAccount) :
    SameFootprint checkpoint checkpoint :=
  ⟨rfl, rfl, rfl, rfl, .rfl, rfl, rfl, rfl⟩

theorem SameError.refl (error : ProgramError) : SameError error error :=
  .inl rfl

theorem AlikeAccount.refl (account : Account) : AlikeAccount account account :=
  ⟨rfl, rfl, .inl rfl⟩

theorem Alike.refl (ledger : Ledger) : Alike ledger ledger :=
  fun address ↦ .refl (ledger address)

section Data

variable {left right : List UInt8} (halike : AlikeData left right)

include halike

theorem AlikeData.length : left.length = right.length := by
  obtain rfl | ⟨first, second, rest, -, rfl, rfl⟩ := halike
  · rfl
  · simp [length_octets_checkpoint]

theorem AlikeData.take : left.take 8 = right.take 8 := by
  obtain rfl | ⟨first, second, rest, -, rfl, rfl⟩ := halike
  · rfl
  · simp only [CheckpointAccount.octets, List.append_assoc,
      List.take_left' CheckpointAccount.discriminator.length_octets]

theorem AlikeData.drop : left.drop CheckpointAccount.len = right.drop CheckpointAccount.len := by
  obtain rfl | ⟨first, second, rest, -, rfl, rfl⟩ := halike
  · rfl
  · rw [List.drop_left' (length_octets_checkpoint first),
      List.drop_left' (length_octets_checkpoint second)]

theorem AlikeData.nil_iff : left = [] ↔ right = [] := by
  rw [← List.length_eq_zero_iff, halike.length, List.length_eq_zero_iff]

/-- Neither of two checkpoints is all zeros. -/
theorem AlikeData.zeros_iff : (∀ octet ∈ left, octet = 0) ↔ ∀ octet ∈ right, octet = 0 := by
  obtain rfl | ⟨first, second, rest, -, rfl, rfl⟩ := halike
  · rfl
  · have htag (checkpoint : CheckpointAccount) :
        ¬ ∀ octet ∈ checkpoint.octets ++ rest, octet = 0 := by
      intro hzeros
      refine absurd (hzeros 0x4d ?_) (by decide)
      simp [CheckpointAccount.octets, CheckpointAccount.discriminator]
    exact iff_of_false (htag first) (htag second)

/-- Data under another discriminator are the same. -/
theorem AlikeData.eq_of_take
    (htag : left.take 8 ≠ CheckpointAccount.discriminator.octets) : left = right := by
  obtain rfl | ⟨first, second, rest, -, rfl, rfl⟩ := halike
  · rfl
  · rw [CheckpointAccount.octets, List.append_assoc,
      List.take_left' CheckpointAccount.discriminator.length_octets] at htag
    exact absurd rfl htag

end Data

section Ledgers

variable {left right : Ledger} (halike : Alike left right)

include halike

theorem Alike.set {address : Pubkey} {account other : Account}
    (haccount : AlikeAccount account other) :
    Alike (left.set address account) (right.set address other) := by
  intro place
  simp only [Ledger.set, Function.update_apply]
  split
  · exact haccount
  · exact halike place

theorem Alike.moved (source target : Pubkey) (lamports : UInt64) :
    Alike (moved source target lamports left) (moved source target lamports right) := by
  have hsource := halike source
  have hdebited : Alike
      (left.set source { left source with lamports := (left source).lamports - lamports })
      (right.set source { right source with lamports := (right source).lamports - lamports }) :=
    halike.set ⟨by rw [hsource.lamports], hsource.owner, hsource.data⟩
  have htarget := hdebited target
  exact hdebited.set ⟨by rw [htarget.lamports], htarget.owner, htarget.data⟩

theorem Alike.allocated (target : Pubkey) (space : ℕ) :
    Alike (allocated target space left) (allocated target space right) :=
  halike.set ⟨(halike target).lamports, (halike target).owner, .inl rfl⟩

theorem Alike.assigned (target owner : Pubkey) :
    Alike (assigned target owner left) (assigned target owner right) :=
  halike.set ⟨(halike target).lamports, rfl, (halike target).data⟩

theorem Alike.canTransfer_iff {signers : List Pubkey} {source target : Pubkey}
    {lamports : UInt64} : CanTransfer signers source target lamports left ↔
      CanTransfer signers source target lamports right := by
  rw [CanTransfer, CanTransfer, (halike source).owner, (halike source).data.nil_iff,
    (halike source).lamports, (halike target).lamports]

theorem Alike.canAllocate_iff {signers : List Pubkey} {target : Pubkey} {space : ℕ} :
    CanAllocate signers target space left ↔ CanAllocate signers target space right := by
  rw [CanAllocate, CanAllocate, (halike target).owner, (halike target).data.nil_iff]

theorem Alike.canAssign_iff {signers : List Pubkey} {target : Pubkey} :
    CanAssign signers target left ↔ CanAssign signers target right := by
  rw [CanAssign, CanAssign, (halike target).owner, (halike target).data.zeros_iff]

theorem Alike.canCreate_iff {signers : List Pubkey} {source target : Pubkey} {lamports : UInt64}
    {space : ℕ} : CanCreate signers source target lamports space left ↔
      CanCreate signers source target lamports space right := by
  rw [CanCreate, CanCreate, (halike target).lamports, halike.canAllocate_iff,
    halike.canTransfer_iff]

end Ledgers

/-! ### The operations of the program on ledgers that are alike -/

/-- An instruction of the system program that does what is documented agrees where its condition
does. -/
theorem agree_invoke {first second : Except UInt32 Ledger} {can could : Prop}
    {reached other : Ledger} (hfirst : ∀ result, first = .ok result ↔ can ∧ result = reached)
    (hsecond : ∀ result, second = .ok result ↔ could ∧ result = other) (hiff : can ↔ could)
    (halike : Alike reached other) : Agree SameError Alike (invoke first) (invoke second) := by
  by_cases hcan : can
  · rw [(hfirst reached).mpr ⟨hcan, rfl⟩, (hsecond other).mpr ⟨hiff.mp hcan, rfl⟩]
    exact .ok halike
  · cases first with
    | ok result => exact absurd ((hfirst result).mp rfl).1 hcan
    | error code =>
      cases second with
      | ok result => exact absurd (hiff.mpr ((hsecond result).mp rfl).1) hcan
      | error another => exact .error (.inr ⟨⟨code, rfl⟩, another, rfl⟩)

section Operations

variable {chain : Chain} {context : Context} {left right : Ledger} (halike : Alike left right)

include halike

theorem agree_transfer (hsystem : chain.system.Documented) (signers : List Pubkey)
    (source target : Pubkey) (lamports : UInt64) :
    Agree SameError Alike (invoke (chain.system.transfer signers source target lamports left))
      (invoke (chain.system.transfer signers source target lamports right)) :=
  agree_invoke (fun _ ↦ hsystem.transfer_eq_ok_iff) (fun _ ↦ hsystem.transfer_eq_ok_iff)
    halike.canTransfer_iff (halike.moved source target lamports)

theorem agree_createAccount (hsystem : chain.system.Documented) (signers : List Pubkey)
    (source target owner : Pubkey) (lamports : UInt64) (space : ℕ) :
    Agree SameError Alike
      (invoke (chain.system.createAccount signers source target lamports space owner left))
      (invoke (chain.system.createAccount signers source target lamports space owner right)) :=
  agree_invoke (fun _ ↦ hsystem.createAccount_eq_ok_iff) (fun _ ↦ hsystem.createAccount_eq_ok_iff)
    halike.canCreate_iff (((halike.allocated target space).assigned target owner).moved source
      target lamports)

theorem agree_allocate (hsystem : chain.system.Documented) (signers : List Pubkey)
    (target : Pubkey) (space : ℕ) :
    Agree SameError Alike (invoke (chain.system.allocate signers target space left))
      (invoke (chain.system.allocate signers target space right)) :=
  agree_invoke (fun _ ↦ hsystem.allocate_eq_ok_iff) (fun _ ↦ hsystem.allocate_eq_ok_iff)
    halike.canAllocate_iff (halike.allocated target space)

theorem agree_assign (hsystem : chain.system.Documented) (signers : List Pubkey)
    (target owner : Pubkey) :
    Agree SameError Alike (invoke (chain.system.assign signers target owner left))
      (invoke (chain.system.assign signers target owner right)) :=
  agree_invoke (fun _ ↦ hsystem.assign_eq_ok_iff) (fun _ ↦ hsystem.assign_eq_ok_iff)
    halike.canAssign_iff (halike.assigned target owner)

theorem agree_fund (hsystem : chain.system.Documented) (payer target : Pubkey) (needed : UInt64) :
    Agree SameError Alike (fund chain context payer target needed left)
      (fund chain context payer target needed right) := by
  unfold fund
  rw [(halike target).lamports]
  split
  · exact agree_transfer halike hsystem _ payer target _
  · exact .ok halike

theorem agree_topUp (hsystem : chain.system.Documented) (payer target : Pubkey) (rent : UInt64) :
    Agree SameError Alike (topUp chain context payer target rent left)
      (topUp chain context payer target rent right) := by
  unfold topUp
  rw [(halike target).lamports]
  split
  · refine Agree.bind (Agree.refl .refl _) ?_
    rintro missing - rfl
    exact agree_transfer halike hsystem _ payer target missing
  · exact .ok halike

theorem agree_initAccount (hsystem : chain.system.Documented) (payer target : Pubkey) (space : ℕ)
    (seeds : List (List UInt8)) :
    Agree SameError Alike (initAccount chain context payer target space seeds left)
      (initAccount chain context payer target space seeds right) := by
  unfold initAccount
  rw [(halike target).lamports]
  split
  · exact agree_createAccount halike hsystem _ payer target programId _ space
  · refine Agree.require_bind .rfl (.refl _) fun _ ↦ ?_
    refine Agree.bind (agree_fund halike hsystem payer target _) fun funded other hfunded ↦ ?_
    refine Agree.bind (agree_allocate hfunded hsystem _ target space) fun reached _ hreached ↦ ?_
    exact agree_assign hreached hsystem _ target programId

theorem agree_createCheckpoint (hsystem : chain.system.Documented) (payer target : Pubkey)
    (seeds : List (List UInt8)) :
    Agree SameError Alike (createCheckpoint chain context payer target seeds left)
      (createCheckpoint chain context payer target seeds right) := by
  unfold createCheckpoint
  simp only [(halike target).lamports]
  split
  · exact agree_createAccount halike hsystem _ payer target programId _ _
  · refine Agree.bind (agree_topUp halike hsystem payer target _) fun funded other hfunded ↦ ?_
    refine Agree.bind (agree_allocate hfunded hsystem _ target _) fun reached _ hreached ↦ ?_
    exact agree_assign hreached hsystem _ target programId

/-- An account is read as the same configuration, and then its data are the same. -/
theorem agree_loadConfig (address : Pubkey) :
    Agree SameError
      (fun config other ↦ config = other ∧ (left address).data = (right address).data)
      (loadAccount LogConfig.discriminator LogConfig.deserialize left address)
      (loadAccount LogConfig.discriminator LogConfig.deserialize right address) := by
  have haccount := halike address
  simp only [loadAccount]
  refine Agree.require_bind (by rw [haccount.owner, haccount.lamports]) (.refl _) fun _ ↦ ?_
  refine Agree.require_bind (by rw [haccount.owner]) (.refl _) fun _ ↦ ?_
  refine Agree.require_bind (by rw [haccount.data.length]) (.refl _) fun _ ↦ ?_
  refine Agree.require_bind (by rw [haccount.data.take]) (.refl _) fun htag ↦ ?_
  have hsame : (left address).data = (right address).data := by
    refine haccount.data.eq_of_take ?_
    rw [htag]
    decide
  rw [hsame]
  cases LogConfig.deserialize ((right address).data.drop 8) with
  | none => exact .error (.refl _)
  | some config => exact .ok ⟨rfl, rfl⟩

/-- An account is read as checkpoints with one footprint. -/
theorem agree_loadCheckpoint (address : Pubkey) :
    Agree SameError SameFootprint
      (loadAccount CheckpointAccount.discriminator CheckpointAccount.deserialize left address)
      (loadAccount CheckpointAccount.discriminator CheckpointAccount.deserialize right
        address) := by
  have haccount := halike address
  simp only [loadAccount]
  refine Agree.require_bind (by rw [haccount.owner, haccount.lamports]) (.refl _) fun _ ↦ ?_
  refine Agree.require_bind (by rw [haccount.owner]) (.refl _) fun _ ↦ ?_
  refine Agree.require_bind (by rw [haccount.data.length]) (.refl _) fun _ ↦ ?_
  refine Agree.require_bind (by rw [haccount.data.take]) (.refl _) fun _ ↦ ?_
  rcases haccount.data with hsame | ⟨first, second, rest, hsame, hfirst, hsecond⟩
  · rw [hsame]
    cases CheckpointAccount.deserialize ((right address).data.drop 8) with
    | none => exact .error (.refl _)
    | some checkpoint => exact .ok (.refl checkpoint)
  · rw [hfirst, hsecond]
    simp only [CheckpointAccount.octets, List.append_assoc,
      List.drop_left' CheckpointAccount.discriminator.length_octets,
      deserialize_checkpoint_append]
    exact .ok hsame

/-- Two checkpoints with one footprint are written over accounts that are alike. -/
theorem agree_writeCheckpoint {first second : CheckpointAccount}
    (hsame : SameFootprint first second)
    (address : Pubkey) : Agree SameError Alike (writeAccount first.octets address left)
      (writeAccount second.octets address right) := by
  have haccount := halike address
  simp only [writeAccount, length_octets_checkpoint]
  refine Agree.require_bind (by rw [haccount.data.length]) (.refl _) fun _ ↦ .ok ?_
  refine halike.set ⟨haccount.lamports, haccount.owner, .inr ⟨first, second, _, hsame, rfl, ?_⟩⟩
  rw [haccount.data.drop]

/-- The same octets are written over the same data. -/
theorem agree_writeSame (octets : List UInt8) {address : Pubkey}
    (hdata : (left address).data = (right address).data) :
    Agree SameError Alike (writeAccount octets address left)
      (writeAccount octets address right) := by
  simp only [writeAccount, hdata]
  exact Agree.require_bind .rfl (.refl _) fun _ ↦
    .ok (halike.set ⟨(halike address).lamports, (halike address).owner, .inl rfl⟩)

end Operations

/-! ### The instructions -/

theorem data_writeAccount {octets : List UInt8} {address other : Pubkey} {before after : Ledger}
    (hwrite : writeAccount octets address before = .ok after) (haway : other ≠ address) :
    (after other).data = (before other).data := by
  rw [writeAccount, bind_unit_eq_ok_iff, pure_eq_ok, Except.ok.injEq] at hwrite
  rw [← hwrite.2, Ledger.set, Function.update_of_ne haway]

section Instructions

variable {chain : Chain} {context : Context} {left right : Ledger} (halike : Alike left right)
  (hsystem : chain.system.Documented)

include halike hsystem

theorem agree_initializeLog (accounts : InitializeAccounts) (authority : Pubkey)
    (treeHeight : UInt8) (startEpoch : UInt64) :
    Agree SameError Alike
      (initializeLog chain context accounts authority treeHeight startEpoch left)
      (initializeLog chain context accounts authority treeHeight startEpoch right) := by
  unfold initializeLog
  refine Agree.require_bind .rfl (.refl _) fun _ ↦ ?_
  refine Agree.require_bind .rfl (.refl _) fun _ ↦ ?_
  refine Agree.bind (Agree.refl .refl _) ?_
  rintro derived - rfl
  refine Agree.require_bind .rfl (.refl _) fun _ ↦ ?_
  refine Agree.bind (agree_initAccount halike hsystem _ _ _ _).and_ok ?_
  rintro created other ⟨hcreated, hleft, hright⟩
  refine Agree.require_bind .rfl (.refl _) fun _ ↦ ?_
  refine Agree.bind (Agree.refl .refl _) ?_
  rintro seconds - rfl
  refine Agree.require_bind .rfl (.refl _) fun _ ↦ ?_
  refine Agree.bind (Agree.refl .refl _) ?_
  rintro lastEpoch - rfl
  refine agree_writeSame hcreated _ ?_
  have hfirst := (creates_of_initAccount hsystem hleft).2 accounts.config
  have hsecond := (creates_of_initAccount hsystem hright).2 accounts.config
  rw [if_pos rfl] at hfirst hsecond
  exact congrArg Prod.snd (hfirst.trans hsecond.symm)

/-- Publications of two roots agree. -/
theorem agree_publishCheckpoint (accounts : PublishAccounts) (epoch : UInt64)
    (root another : Octets 32) (bump : UInt8) :
    Agree SameError Alike (publishCheckpoint chain context accounts epoch root bump left)
      (publishCheckpoint chain context accounts epoch another bump right) := by
  unfold publishCheckpoint
  refine Agree.bind (agree_loadConfig halike accounts.config).and_ok ?_
  rintro config other ⟨⟨rfl, hdata⟩, hloaded, -⟩
  have haccount := halike accounts.checkpoint
  refine Agree.require_bind .rfl (.refl _) fun _ ↦ ?_
  refine Agree.require_bind .rfl (.refl _) fun _ ↦ ?_
  refine Agree.require_bind .rfl (.refl _) fun _ ↦ ?_
  refine Agree.bind (Agree.refl .refl _) fun _ _ _ ↦ ?_
  refine Agree.require_bind .rfl (.refl _) fun _ ↦ ?_
  refine Agree.bind (Agree.refl .refl _) fun _ _ _ ↦ ?_
  refine Agree.require_bind .rfl (.refl _) fun _ ↦ ?_
  refine Agree.require_bind (by rw [haccount.owner, haccount.data.nil_iff]) (.refl _) fun _ ↦ ?_
  refine Agree.require_bind (by rw [haccount.owner, haccount.data.nil_iff]) (.refl _)
    fun hvacant ↦ ?_
  refine Agree.bind (Agree.refl .refl _) ?_
  rintro next - rfl
  refine Agree.require_bind .rfl (.refl _) fun _ ↦ ?_
  refine Agree.bind (Agree.refl .refl _) ?_
  rintro day - rfl
  refine Agree.require_bind .rfl (.refl _) fun _ ↦ ?_
  have haway : accounts.config ≠ accounts.checkpoint := by
    intro hsame
    have howner := (loadAccount_eq_ok hloaded).1
    rw [hsame, hvacant.1] at howner
    exact programId_ne_systemProgramId howner.symm
  refine Agree.bind (agree_createCheckpoint halike hsystem _ _ _).and_ok ?_
  rintro created other ⟨hcreated, hleft, hright⟩
  have hfootprint : SameFootprint (published context epoch root bump)
      (published context epoch another bump) := ⟨rfl, rfl, rfl, rfl, .rfl, rfl, rfl, rfl⟩
  refine Agree.bind (agree_writeCheckpoint hcreated hfootprint _).and_ok ?_
  rintro written twin ⟨hwritten, hfirst, hsecond⟩
  refine agree_writeSame hwritten _ ?_
  have hkept := (creates_of_createCheckpoint hsystem hleft).2 accounts.config
  have hsame := (creates_of_createCheckpoint hsystem hright).2 accounts.config
  rw [if_neg haway] at hkept hsame
  calc (written accounts.config).data
      = (created accounts.config).data := data_writeAccount hfirst haway
    _ = (left accounts.config).data := congrArg Prod.snd hkept
    _ = (right accounts.config).data := hdata
    _ = (other accounts.config).data := (congrArg Prod.snd hsame).symm
    _ = (twin accounts.config).data := (data_writeAccount hsecond haway).symm

omit hsystem in
/-- Attachments of two digests agree, when neither or both of these are no receipt. -/
theorem agree_attachAnchorReceipt (accounts : AttachAccounts) (epoch : UInt64)
    {receiptDigest another : Octets 32} (kind : UInt8)
    (hreceipt : receiptDigest = noReceipt ↔ another = noReceipt) :
    Agree SameError Alike
      (attachAnchorReceipt chain context accounts epoch receiptDigest kind left)
      (attachAnchorReceipt chain context accounts epoch another kind right) := by
  unfold attachAnchorReceipt
  refine Agree.bind (agree_loadConfig halike accounts.config) ?_
  rintro config - ⟨rfl, -⟩
  refine Agree.bind (agree_loadCheckpoint halike accounts.checkpoint) ?_
  intro checkpoint other hsame
  have hseeds : Agree SameError Eq
      (requireSeeds chain (checkpointSeeds epoch checkpoint.bump) accounts.checkpoint)
      (requireSeeds chain (checkpointSeeds epoch other.bump) accounts.checkpoint) := by
    rw [hsame.bump]
    exact .refl .refl _
  refine Agree.require_bind .rfl (.refl _) fun _ ↦ ?_
  refine Agree.bind (Agree.refl .refl _) fun _ _ _ ↦ ?_
  refine Agree.require_bind .rfl (.refl _) fun _ ↦ ?_
  refine Agree.bind hseeds fun _ _ _ ↦ ?_
  refine Agree.require_bind .rfl (.refl _) fun _ ↦ ?_
  refine Agree.require_bind .rfl (.refl _) fun _ ↦ ?_
  refine Agree.require_bind (not_congr hreceipt) (.refl _) fun _ ↦ ?_
  refine Agree.require_bind (by rw [hsame.epoch]) (.refl _) fun _ ↦ ?_
  refine Agree.require_bind hsame.receipt (.refl _) fun _ ↦ ?_
  have hfootprint : SameFootprint
      { checkpoint with receiptDigest := receiptDigest, anchorKind := kind }
      { other with receiptDigest := another, anchorKind := kind } :=
    ⟨hsame.schemaVersion, hsame.epoch, hsame.publishedSlot, hsame.publishedUnix, hreceipt, rfl,
      hsame.bump, hsame.reserved⟩
  exact agree_writeCheckpoint halike hfootprint _

end Instructions

/-! ### Runs -/

/-- Transactions that differ in the root that is published, or in the digest of the receipt that is
attached, alone. -/
inductive SameButDigests : Transaction → Transaction → Prop
  | same (transaction : Transaction) : SameButDigests transaction transaction
  | published (context : Context) (accounts : PublishAccounts) (epoch : UInt64)
    (root another : Octets 32) (bump : UInt8) :
    SameButDigests ⟨context, .publishCheckpoint accounts epoch root bump⟩
      ⟨context, .publishCheckpoint accounts epoch another bump⟩
  | attached (context : Context) (accounts : AttachAccounts) (epoch : UInt64)
    {receiptDigest another : Octets 32} (kind : UInt8)
    (hreceipt : receiptDigest = noReceipt ↔ another = noReceipt) :
    SameButDigests ⟨context, .attachAnchorReceipt accounts epoch receiptDigest kind⟩
      ⟨context, .attachAnchorReceipt accounts epoch another kind⟩

variable {chain : Chain} {left right : Ledger} {transaction other : Transaction}

/-- The outcomes of such transactions agree. -/
theorem agree_execute (hsystem : chain.system.Documented)
    (hsame : SameButDigests transaction other) (halike : Alike left right) :
    Agree SameError Alike (execute chain transaction left) (execute chain other right) := by
  cases hsame with
  | same =>
    obtain ⟨context, instruction⟩ := transaction
    cases instruction with
    | initializeLog accounts authority treeHeight startEpoch =>
      exact agree_initializeLog halike hsystem accounts authority treeHeight startEpoch
    | publishCheckpoint accounts epoch root bump =>
      exact agree_publishCheckpoint halike hsystem accounts epoch root root bump
    | attachAnchorReceipt accounts epoch receiptDigest kind =>
      exact agree_attachAnchorReceipt halike accounts epoch kind .rfl
    | transfer source target lamports =>
      exact agree_transfer halike hsystem _ source target lamports
  | published context accounts epoch root another bump =>
    exact agree_publishCheckpoint halike hsystem accounts epoch root another bump
  | attached context accounts epoch kind hreceipt =>
    exact agree_attachAnchorReceipt halike accounts epoch kind hreceipt

theorem alike_advance (hsystem : chain.system.Documented) (hsame : SameButDigests transaction other)
    (halike : Alike left right) :
    Alike (advance chain left transaction) (advance chain right other) := by
  have hagree := agree_execute hsystem hsame halike
  unfold advance
  generalize execute chain transaction left = first at hagree
  generalize execute chain other right = second at hagree
  cases hagree with
  | ok hreached => exact hreached
  | error _ => exact halike

theorem alike_advanceAll (hsystem : chain.system.Documented)
    {transactions others : List Transaction}
    (hsame : List.Forall₂ SameButDigests transactions others) (halike : Alike left right) :
    Alike (advanceAll chain left transactions) (advanceAll chain right others) := by
  induction hsame generalizing left right with
  | nil => exact halike
  | cons hfirst _ ih => exact ih (alike_advance hsystem hfirst halike)

/-- The octet at a position of an account is one of a root or of the digest of a receipt. -/
def InDigest (index : ℕ) : Prop :=
  18 ≤ index ∧ index < 50 ∨ 66 ≤ index ∧ index < 98

/-- What two runs show alike. -/
structure RunsAlike (chain : Chain) (initial : Ledger) (transactions others : List Transaction) :
    Prop where
  /-- The same transactions succeed, and the others fail with the same error. -/
  outcomes : ∀ (count : ℕ) (transaction other : Transaction),
    transactions[count]? = some transaction → others[count]? = some other →
      Agree SameError Alike
        (execute chain transaction (advanceAll chain initial (transactions.take count)))
        (execute chain other (advanceAll chain initial (others.take count)))
  /-- At every time, every account has the same balance, the same owner and data of one length. -/
  accounts : ∀ (count : ℕ) (address : Pubkey),
    (advanceAll chain initial (transactions.take count) address).lamports =
        (advanceAll chain initial (others.take count) address).lamports ∧
      (advanceAll chain initial (transactions.take count) address).owner =
        (advanceAll chain initial (others.take count) address).owner ∧
      (advanceAll chain initial (transactions.take count) address).data.length =
        (advanceAll chain initial (others.take count) address).data.length
  /-- Every octet of it outside the digests is the same. -/
  octets : ∀ (count : ℕ) (address : Pubkey) (index : ℕ), ¬ InDigest index →
    (advanceAll chain initial (transactions.take count) address).data[index]? =
      (advanceAll chain initial (others.take count) address).data[index]?

/-- Two lists with a part of one length in the same place are the same around it. -/
theorem getElem?_around {front left right tail other : List UInt8} {index : ℕ}
    (hlength : left.length = right.length)
    (houtside : ¬ (front.length ≤ index ∧ index < front.length + left.length))
    (htail : front.length + left.length ≤ index → tail[index - front.length - left.length]? =
      other[index - front.length - left.length]?) :
    (front ++ (left ++ tail))[index]? = (front ++ (right ++ other))[index]? := by
  by_cases hfront : index < front.length
  · rw [List.getElem?_append_left hfront, List.getElem?_append_left hfront]
  · have hafter : front.length + left.length ≤ index := by omega
    rw [List.getElem?_append_right (by omega), List.getElem?_append_right (by omega),
      List.getElem?_append_right (by omega), List.getElem?_append_right (by omega), ← hlength]
    exact htail hafter

/-- Checkpoints with one footprint have the same octets outside the digests. -/
theorem octets_of_footprint {first second : CheckpointAccount} (hsame : SameFootprint first second)
    (rest : List UInt8) {index : ℕ} (houtside : ¬ InDigest index) :
    (first.octets ++ rest)[index]? = (second.octets ++ rest)[index]? := by
  have hsplit (checkpoint : CheckpointAccount) : checkpoint.octets ++ rest =
      (CheckpointAccount.discriminator.octets ++ (leList 2 checkpoint.schemaVersion.toNat ++
        leList 8 checkpoint.epoch.toNat)) ++ (checkpoint.root.octets ++
          ((leList 8 checkpoint.publishedSlot.toNat ++
            leList 8 checkpoint.publishedUnix.toUInt64.toNat) ++ (checkpoint.receiptDigest.octets ++
              ([checkpoint.anchorKind] ++ [checkpoint.bump] ++ checkpoint.reserved.octets ++
                rest)))) := by
    simp [CheckpointAccount.octets, CheckpointAccount.serialize]
  unfold InDigest at houtside
  rw [hsplit, hsplit, hsame.schemaVersion, hsame.epoch, hsame.publishedSlot, hsame.publishedUnix,
    hsame.anchorKind, hsame.bump, hsame.reserved]
  refine getElem?_around (by simp) (by simp; omega) fun _ ↦ ?_
  exact getElem?_around (by simp) (by simp; omega) fun _ ↦ rfl

theorem AlikeData.getElem? {left right : List UInt8} (halike : AlikeData left right) {index : ℕ}
    (houtside : ¬ InDigest index) : left[index]? = right[index]? := by
  obtain rfl | ⟨first, second, rest, hsame, rfl, rfl⟩ := halike
  · rfl
  · exact octets_of_footprint hsame rest houtside

/-- Two runs that differ in the digests they carry are alike in everything else. -/
theorem runs_alike (chain : Chain) (hsystem : chain.system.Documented) (initial : Ledger)
    (transactions others : List Transaction)
    (hsame : List.Forall₂ SameButDigests transactions others) :
    RunsAlike chain initial transactions others := by
  have halike (count : ℕ) : Alike (advanceAll chain initial (transactions.take count))
      (advanceAll chain initial (others.take count)) :=
    alike_advanceAll hsystem (List.forall₂_take count hsame) (.refl initial)
  refine ⟨fun count transaction other htransaction hother ↦ ?_, fun count address ↦ ?_,
    fun count address index houtside ↦ ?_⟩
  · obtain ⟨hcount, rfl⟩ := List.getElem?_eq_some_iff.mp htransaction
    obtain ⟨hlength, rfl⟩ := List.getElem?_eq_some_iff.mp hother
    exact agree_execute hsystem (hsame.get hcount hlength) (halike count)
  · exact ⟨(halike count address).lamports, (halike count address).owner,
      (halike count address).data.length⟩
  · exact (halike count address).data.getElem? houtside

/-- A transaction with another root in place of the one it publishes. -/
def withRoot (root : Octets 32) (transaction : Transaction) : Transaction :=
  match transaction.instruction with
  | .publishCheckpoint accounts epoch _ bump =>
    { transaction with instruction := .publishCheckpoint accounts epoch root bump }
  | _ => transaction

/-- A log of one epoch is alike whichever root it publishes, and it is not the same. -/
theorem runs_alike_oneEpoch :
    RunsAlike plainChain fundedLedger oneEpoch (oneEpoch.map (withRoot (Octets.zeros 32))) ∧
      contentAt (advanceAll plainChain fundedLedger oneEpoch)
          ⟨CheckpointAccount.seed ++ leList 8 20000 ++ [255] ++ List.replicate 16 0, rfl⟩ ≠
        contentAt (advanceAll plainChain fundedLedger
            (oneEpoch.map (withRoot (Octets.zeros 32))))
          ⟨CheckpointAccount.seed ++ leList 8 20000 ++ [255] ++ List.replicate 16 0, rfl⟩ :=
  ⟨runs_alike plainChain referenceSystem_documented fundedLedger _ _
    (.cons (.same _) (.cons (.same _) (.cons (.published _ _ _ _ _ _) .nil))), by decide +kernel⟩

end AnchoredLog.Program.Footprint
