import AnchoredLog.Library.Fallible
import AnchoredLog.Program.AccountLayouts
import Mathlib.Logic.Function.Basic

/-!
# The chain the checkpoint program runs on

A ledger gives every address an account: a balance, the program that owns it and its data. The
system program, the derivation of program addresses and the rent of an account are outside this
repository. The first is a record of four functions whose documented behaviour is
`SystemProgram.Documented`; the other two are parameters of `Chain` about which nothing is
assumed. The framework's account checks (ownership, discriminator, seeds, signature) and its
creation of an `init` account are written out in the order in which they are made.

What the program can observe of an account apart from its balance is its `content`, and every
effect below is stated as what it does to contents.
-/

set_option autoImplicit false
set_option relaxedAutoImplicit false

namespace AnchoredLog.Program.ChainRuntime

open Library.ByteCodec Library.Fallible AccountLayouts

/-! ### Ledgers -/

/-- The address of the system program. -/
def systemProgramId : Pubkey :=
  Octets.zeros 32

/-- The address of the checkpoint program. -/
def programId : Pubkey :=
  ⟨[0xa2, 0xf2, 0x83, 0xcb, 0x90, 0xea, 0x20, 0xaf, 0x16, 0x4f, 0x79, 0x10, 0x73, 0xb8, 0x9f, 0x5f,
    0x22, 0xf5, 0x90, 0x81, 0xf8, 0x50, 0x9f, 0x66, 0x47, 0x21, 0xec, 0x57, 0xdf, 0x9f, 0xb7, 0xee],
    rfl⟩

theorem programId_ne_systemProgramId : programId ≠ systemProgramId := by
  decide

/-- An account of the chain. -/
structure Account where
  lamports : UInt64
  owner : Pubkey
  data : List UInt8
deriving DecidableEq

/-- The owner and the data of an account. -/
def Account.content (account : Account) : Pubkey × List UInt8 :=
  (account.owner, account.data)

/-- The account at every address. -/
abbrev Ledger : Type :=
  Pubkey → Account

/-- The content at an address of a ledger. -/
def contentAt (ledger : Ledger) (address : Pubkey) : Pubkey × List UInt8 :=
  (ledger address).content

/-- The ledger with another account at an address. -/
def Ledger.set (ledger : Ledger) (address : Pubkey) (account : Account) : Ledger :=
  Function.update ledger address account

theorem contentAt_set (ledger : Ledger) (address : Pubkey) (account : Account) (other : Pubkey) :
    contentAt (ledger.set address account) other =
      if other = address then account.content else contentAt ledger other := by
  unfold contentAt Ledger.set
  by_cases hsame : other = address
  · rw [if_pos hsame, hsame, Function.update_self]
  · rw [if_neg hsame, Function.update_of_ne hsame]

/-! ### Errors -/

/-- The refusals of the program itself. -/
inductive CheckpointError
  | malformedPayload
  | epochOutOfOrder
  | checkpointAlreadyWritten
  | unsupportedSchemaVersion
  | receiptAlreadyAttached
  | arithmeticOverflow
deriving DecidableEq

/-- The refusals of the framework's account checks. -/
inductive AnchorError
  | constraintHasOne
  | constraintSeeds
  | accountDiscriminatorNotFound
  | accountDiscriminatorMismatch
  | accountDidNotDeserialize
  | accountDidNotSerialize
  | accountOwnedByWrongProgram
  | invalidProgramId
  | accountNotSigner
  | accountNotInitialized
  | tryingToInitPayerAsProgramAccount
deriving DecidableEq

/-- Why an instruction failed. -/
inductive ProgramError
  | checkpoint (error : CheckpointError)
  | anchor (error : AnchorError)
  | system (code : UInt32)
deriving DecidableEq

/-! ### The system program -/

/-- The ledger after lamports moved from one address to another. -/
def moved (source target : Pubkey) (lamports : UInt64) (ledger : Ledger) : Ledger :=
  let debited := ledger.set source
    { ledger source with lamports := (ledger source).lamports - lamports }
  debited.set target { debited target with lamports := (debited target).lamports + lamports }

/-- The ledger after an address got `space` zero octets of data. -/
def allocated (target : Pubkey) (space : ℕ) (ledger : Ledger) : Ledger :=
  ledger.set target { ledger target with data := List.replicate space 0 }

/-- The ledger after an address got another owner. -/
def assigned (target owner : Pubkey) (ledger : Ledger) : Ledger :=
  ledger.set target { ledger target with owner := owner }

/-- The source signed, belongs to the system program, carries no data and holds the amount, which
fits into the balance of the target. -/
def CanTransfer (signers : List Pubkey) (source target : Pubkey) (lamports : UInt64)
    (ledger : Ledger) : Prop :=
  source ∈ signers ∧ (ledger source).owner = systemProgramId ∧ (ledger source).data = [] ∧
    lamports ≤ (ledger source).lamports ∧
    (source = target ∨ (ledger target).lamports.toNat + lamports.toNat < 2 ^ 64)

/-- The target signed, belongs to the system program and carries no data, and the space is within
the greatest length of an account. -/
def CanAllocate (signers : List Pubkey) (target : Pubkey) (space : ℕ) (ledger : Ledger) : Prop :=
  target ∈ signers ∧ (ledger target).owner = systemProgramId ∧ (ledger target).data = [] ∧
    space ≤ 10485760

/-- The target signed, belongs to the system program and carries no data other than zeros. -/
def CanAssign (signers : List Pubkey) (target : Pubkey) (ledger : Ledger) : Prop :=
  target ∈ signers ∧ (ledger target).owner = systemProgramId ∧
    ∀ octet ∈ (ledger target).data, octet = 0

/-- The target holds no lamports, can be allocated, and the source can pay for it. -/
def CanCreate (signers : List Pubkey) (source target : Pubkey) (lamports : UInt64) (space : ℕ)
    (ledger : Ledger) : Prop :=
  source ≠ target ∧ (ledger target).lamports = 0 ∧ CanAllocate signers target space ledger ∧
    CanTransfer signers source target lamports ledger

instance decidableCanTransfer (signers : List Pubkey) (source target : Pubkey) (lamports : UInt64)
    (ledger : Ledger) : Decidable (CanTransfer signers source target lamports ledger) :=
  inferInstanceAs (Decidable (_ ∧ _))

instance decidableCanAllocate (signers : List Pubkey) (target : Pubkey) (space : ℕ)
    (ledger : Ledger) : Decidable (CanAllocate signers target space ledger) :=
  inferInstanceAs (Decidable (_ ∧ _))

instance decidableCanAssign (signers : List Pubkey) (target : Pubkey) (ledger : Ledger) :
    Decidable (CanAssign signers target ledger) :=
  inferInstanceAs (Decidable (_ ∧ _))

instance decidableCanCreate (signers : List Pubkey) (source target : Pubkey) (lamports : UInt64)
    (space : ℕ) (ledger : Ledger) :
    Decidable (CanCreate signers source target lamports space ledger) :=
  inferInstanceAs (Decidable (_ ∧ _))

/-- The instructions of the system program the checkpoint program invokes, each with the addresses
that signed the invocation. A failure is reported by its code. -/
structure SystemProgram where
  createAccount : (signers : List Pubkey) → (source target : Pubkey) → (lamports : UInt64) →
    (space : ℕ) → (owner : Pubkey) → Ledger → Except UInt32 Ledger
  transfer : (signers : List Pubkey) → (source target : Pubkey) → (lamports : UInt64) →
    Ledger → Except UInt32 Ledger
  allocate : (signers : List Pubkey) → (target : Pubkey) → (space : ℕ) →
    Ledger → Except UInt32 Ledger
  assign : (signers : List Pubkey) → (target owner : Pubkey) → Ledger → Except UInt32 Ledger

/-- The documented behaviour of the system program: when each instruction succeeds, and with which
ledger. -/
structure SystemProgram.Documented (system : SystemProgram) : Prop where
  createAccount_eq_ok_iff : ∀ {signers source target lamports space owner ledger result},
    system.createAccount signers source target lamports space owner ledger = .ok result ↔
      CanCreate signers source target lamports space ledger ∧
        result =
          moved source target lamports (assigned target owner (allocated target space ledger))
  transfer_eq_ok_iff : ∀ {signers source target lamports ledger result},
    system.transfer signers source target lamports ledger = .ok result ↔
      CanTransfer signers source target lamports ledger ∧
        result = moved source target lamports ledger
  allocate_eq_ok_iff : ∀ {signers target space ledger result},
    system.allocate signers target space ledger = .ok result ↔
      CanAllocate signers target space ledger ∧ result = allocated target space ledger
  assign_eq_ok_iff : ∀ {signers target owner ledger result},
    system.assign signers target owner ledger = .ok result ↔
      CanAssign signers target ledger ∧ result = assigned target owner ledger

/-- A system program that does what is documented and reports every failure with one code. -/
def referenceSystem : SystemProgram where
  createAccount := fun signers source target lamports space owner ledger ↦
    if CanCreate signers source target lamports space ledger then
      .ok (moved source target lamports (assigned target owner (allocated target space ledger)))
    else .error 0
  transfer := fun signers source target lamports ledger ↦
    if CanTransfer signers source target lamports ledger then
      .ok (moved source target lamports ledger)
    else .error 0
  allocate := fun signers target space ledger ↦
    if CanAllocate signers target space ledger then .ok (allocated target space ledger)
    else .error 0
  assign := fun signers target owner ledger ↦
    if CanAssign signers target ledger then .ok (assigned target owner ledger) else .error 0

theorem referenceSystem_documented : referenceSystem.Documented := by
  constructor <;>
  · intros
    simp only [referenceSystem]
    split
    · next hcan => simp only [Except.ok.injEq, hcan, true_and, eq_comm]
    · next hcannot => simp only [reduceCtorEq, hcannot, false_and]

theorem contentAt_moved (source target : Pubkey) (lamports : UInt64) (ledger : Ledger)
    (address : Pubkey) : contentAt (moved source target lamports ledger) address =
      contentAt ledger address := by
  have hdebited (other : Pubkey) : contentAt (ledger.set source
      { ledger source with lamports := (ledger source).lamports - lamports }) other =
      contentAt ledger other := by
    rw [contentAt_set]
    split
    · next hsame => rw [hsame]; rfl
    · rfl
  simp only [moved]
  rw [contentAt_set]
  split
  · next hsame =>
    rw [hsame]
    exact hdebited target
  · exact hdebited address

theorem contentAt_allocated (target : Pubkey) (space : ℕ) (ledger : Ledger) (address : Pubkey) :
    contentAt (allocated target space ledger) address =
      if address = target then ((ledger target).owner, List.replicate space 0)
      else contentAt ledger address := by
  rw [allocated, contentAt_set]
  rfl

theorem contentAt_assigned (target owner : Pubkey) (ledger : Ledger) (address : Pubkey) :
    contentAt (assigned target owner ledger) address =
      if address = target then (owner, (ledger target).data) else contentAt ledger address := by
  rw [assigned, contentAt_set]
  rfl

/-! ### What an instruction runs against -/

/-- The parts of the chain outside the ledger. -/
structure Chain where
  /-- The address derived from seeds for a program, when it is not on the curve. -/
  createProgramAddress : List (List UInt8) → Pubkey → Option Pubkey
  /-- The balance that exempts an account of a length from rent. -/
  minimumBalance : ℕ → UInt64
  system : SystemProgram

/-- The reading of the chain's clock. -/
structure Clock where
  slot : UInt64
  unixTimestamp : Int64

/-- Who signed a transaction, and when the chain runs it. -/
structure Context where
  signers : List Pubkey
  clock : Clock

section Framework

variable (chain : Chain)

/-- The first address derived from the seeds and a bump, the bump searched from 255 downward. -/
def findProgramAddress (seeds : List (List UInt8)) : Option (Pubkey × UInt8) :=
  (List.range 255).findSome? fun tried ↦
    (chain.createProgramAddress (seeds ++ [[UInt8.ofNat (255 - tried)]]) programId).map
      fun address ↦ (address, UInt8.ofNat (255 - tried))

variable (context : Context)

/-- The signers of an invocation the program signs with the address derived from seeds. -/
def signersWith (seeds : List (List UInt8)) : List Pubkey :=
  context.signers ++ (chain.createProgramAddress seeds programId).toList

/-- The outcome of an invocation of the system program. -/
def invoke (result : Except UInt32 Ledger) : Except ProgramError Ledger :=
  result.mapError .system

/-- Reads an account of the program as a record: it is initialised, it belongs to the program, it
carries the discriminator of the record and the fields after it. -/
def loadAccount {Record : Type} (discriminator : Octets 8)
    (deserialize : List UInt8 → Option Record) (ledger : Ledger) (address : Pubkey) :
    Except ProgramError Record := do
  let account := ledger address
  require (¬ (account.owner = systemProgramId ∧ account.lamports = 0))
    (.anchor .accountNotInitialized)
  require (account.owner = programId) (.anchor .accountOwnedByWrongProgram)
  require (8 ≤ account.data.length) (.anchor .accountDiscriminatorNotFound)
  require (account.data.take 8 = discriminator.octets) (.anchor .accountDiscriminatorMismatch)
  okOr (deserialize (account.data.drop 8)) (.anchor .accountDidNotDeserialize)

/-- Writes octets over the front of an account's data. -/
def writeAccount (octets : List UInt8) (address : Pubkey) (ledger : Ledger) :
    Except ProgramError Ledger := do
  let account := ledger address
  require (octets.length ≤ account.data.length) (.anchor .accountDidNotSerialize)
  pure (ledger.set address { account with data := octets ++ account.data.drop octets.length })

/-- An address is the one derived from seeds. -/
def requireSeeds (seeds : List (List UInt8)) (address : Pubkey) : Except ProgramError Unit := do
  let derived ← okOr (chain.createProgramAddress seeds programId) (.anchor .constraintSeeds)
  require (address = derived) (.anchor .constraintSeeds)

/-- Tops an address up to a balance it does not hold yet. -/
def fund (payer target : Pubkey) (needed : UInt64) (ledger : Ledger) :
    Except ProgramError Ledger :=
  if (ledger target).lamports < needed then
    invoke (chain.system.transfer context.signers payer target
      (needed - (ledger target).lamports) ledger)
  else
    .ok ledger

/-- Creates an account of the program at an address: at once where the address holds nothing, and
otherwise by topping it up, allocating and assigning it. -/
def initAccount (payer target : Pubkey) (space : ℕ) (seeds : List (List UInt8))
    (ledger : Ledger) : Except ProgramError Ledger := do
  if (ledger target).lamports = 0 then
    invoke (chain.system.createAccount (signersWith chain context seeds) payer target
      (chain.minimumBalance space) space programId ledger)
  else
    require (payer ≠ target) (.anchor .tryingToInitPayerAsProgramAccount)
    let ledger ← fund chain context payer target
      (if chain.minimumBalance space ≤ 1 then 1 else chain.minimumBalance space) ledger
    let ledger ←
      invoke (chain.system.allocate (signersWith chain context seeds) target space ledger)
    invoke (chain.system.assign (signersWith chain context seeds) target programId ledger)

end Framework

/-! ### What these do to contents -/

/-- The address was empty and belongs to the program with `space` zero octets after; nothing else
has changed but balances. -/
def Creates (target : Pubkey) (space : ℕ) (before after : Ledger) : Prop :=
  contentAt before target = (systemProgramId, []) ∧
    ∀ address, contentAt after address =
      if address = target then (programId, List.replicate space 0) else contentAt before address

@[simp] theorem invoke_eq_ok_iff {result : Except UInt32 Ledger} {ledger : Ledger} :
    invoke result = .ok ledger ↔ result = .ok ledger := by
  cases result <;> simp [invoke, Except.mapError]

section Effects

variable {system : SystemProgram} (hsystem : system.Documented) {signers : List Pubkey}
  {source target : Pubkey} {lamports : UInt64} {space : ℕ} {before after : Ledger}

include hsystem in
theorem contentAt_transfer
    (htransfer : system.transfer signers source target lamports before = .ok after)
    (address : Pubkey) : contentAt after address = contentAt before address := by
  obtain ⟨-, rfl⟩ := hsystem.transfer_eq_ok_iff.mp htransfer
  exact contentAt_moved source target lamports before address

include hsystem in
theorem creates_of_createAccount
    (hcreate : system.createAccount signers source target lamports space programId before =
      .ok after) : Creates target space before after := by
  obtain ⟨⟨-, -, ⟨-, howner, hdata, -⟩, -⟩, rfl⟩ := hsystem.createAccount_eq_ok_iff.mp hcreate
  refine ⟨Prod.ext howner hdata, fun address ↦ ?_⟩
  rw [contentAt_moved, contentAt_assigned, contentAt_allocated]
  by_cases hsame : address = target
  · rw [if_pos hsame, if_pos hsame]
    simp [allocated, Ledger.set]
  · rw [if_neg hsame, if_neg hsame, if_neg hsame]

include hsystem in
theorem creates_of_allocate {reached : Ledger}
    (hallocate : system.allocate signers target space before = .ok reached)
    (hassign : system.assign signers target programId reached = .ok after) :
    Creates target space before after := by
  obtain ⟨⟨-, howner, hdata, -⟩, rfl⟩ := hsystem.allocate_eq_ok_iff.mp hallocate
  obtain ⟨-, rfl⟩ := hsystem.assign_eq_ok_iff.mp hassign
  refine ⟨Prod.ext howner hdata, fun address ↦ ?_⟩
  rw [contentAt_assigned, contentAt_allocated]
  by_cases hsame : address = target
  · rw [if_pos hsame, if_pos hsame]
    simp [allocated, Ledger.set]
  · rw [if_neg hsame, if_neg hsame, if_neg hsame]

end Effects

/-- A creation from a ledger with the same contents. -/
theorem Creates.of_content {target : Pubkey} {space : ℕ} {before reached after : Ledger}
    (hcreates : Creates target space reached after)
    (hsame : ∀ address, contentAt reached address = contentAt before address) :
    Creates target space before after := by
  refine ⟨(hsame target).symm.trans hcreates.1, fun address ↦ ?_⟩
  rw [hcreates.2 address, hsame address]

theorem contentAt_fund {chain : Chain} (hsystem : chain.system.Documented) {context : Context}
    {payer target : Pubkey} {needed : UInt64} {before after : Ledger}
    (hfund : fund chain context payer target needed before = .ok after) (address : Pubkey) :
    contentAt after address = contentAt before address := by
  unfold fund at hfund
  split at hfund
  · rw [invoke_eq_ok_iff] at hfund
    exact contentAt_transfer hsystem hfund address
  · rw [Except.ok.injEq] at hfund
    rw [hfund]

theorem creates_of_initAccount {chain : Chain} (hsystem : chain.system.Documented)
    {context : Context} {payer target : Pubkey} {space : ℕ} {seeds : List (List UInt8)}
    {before after : Ledger}
    (hinit : initAccount chain context payer target space seeds before = .ok after) :
    Creates target space before after := by
  unfold initAccount at hinit
  by_cases hheld : (before target).lamports = 0
  · rw [if_pos hheld, invoke_eq_ok_iff] at hinit
    exact creates_of_createAccount hsystem hinit
  · rw [if_neg hheld, bind_unit_eq_ok_iff] at hinit
    obtain ⟨reached, htopUp, hrest⟩ := bind_eq_ok_iff.mp hinit.2
    obtain ⟨allocatedLedger, hallocate, hassign⟩ := bind_eq_ok_iff.mp hrest
    rw [invoke_eq_ok_iff] at hallocate hassign
    exact (creates_of_allocate hsystem hallocate hassign).of_content
      (contentAt_fund hsystem htopUp)

/-- Writing octets as long as the data replaces the data. -/
theorem contentAt_writeAccount {octets : List UInt8} {address : Pubkey} {before after : Ledger}
    (hlength : (before address).data.length = octets.length)
    (hwrite : writeAccount octets address before = .ok after) (other : Pubkey) :
    contentAt after other =
      if other = address then ((before address).owner, octets) else contentAt before other := by
  rw [writeAccount, bind_unit_eq_ok_iff, pure_eq_ok, Except.ok.injEq] at hwrite
  rw [← hwrite.2, contentAt_set]
  simp [Account.content, ← hlength]

/-- Writing a record into an account just created replaces its zeros. -/
theorem Creates.write {target : Pubkey} {space : ℕ} {before created after : Ledger}
    (hcreates : Creates target space before created) {octets : List UInt8}
    (hlength : octets.length = space) (hwrite : writeAccount octets target created = .ok after)
    (other : Pubkey) : contentAt after other =
      if other = target then (programId, octets) else contentAt before other := by
  have hcontent : contentAt created target = (programId, List.replicate space 0) := by
    rw [hcreates.2 target, if_pos rfl]
  have hdata : (created target).data = List.replicate space 0 := congrArg Prod.snd hcontent
  have howner : (created target).owner = programId := congrArg Prod.fst hcontent
  rw [contentAt_writeAccount (by rw [hdata, List.length_replicate, hlength]) hwrite other, howner]
  by_cases hsame : other = target
  · rw [if_pos hsame, if_pos hsame]
  · rw [if_neg hsame, if_neg hsame, hcreates.2 other, if_neg hsame]

theorem loadAccount_eq_ok {Record : Type} {discriminator : Octets 8}
    {deserialize : List UInt8 → Option Record} {ledger : Ledger} {address : Pubkey}
    {record : Record} (hload : loadAccount discriminator deserialize ledger address = .ok record) :
    (ledger address).owner = programId ∧
      (ledger address).data.take 8 = discriminator.octets ∧
      deserialize ((ledger address).data.drop 8) = some record := by
  simp only [loadAccount, bind_unit_eq_ok_iff, require_eq_ok_iff, okOr_eq_ok_iff] at hload
  exact ⟨hload.2.1, hload.2.2.2.1, hload.2.2.2.2⟩

end AnchoredLog.Program.ChainRuntime
