import AnchoredLog.Library.Runs
import AnchoredLog.Program.LogInvariant

/-!
# Runs of the checkpoint program

A run is any list of transactions, by any signers, with any arguments, at any clock readings,
lamport transfers by third parties among them. `RunSafe` states what such a run keeps, over its
ledgers and over every span of it, and `log_safe` that every run from a chain on which the program
owns nothing is safe.
-/

set_option autoImplicit false
set_option relaxedAutoImplicit false

namespace AnchoredLog.Program.LogSafety

open Library.ByteCodec Library.Fallible Library.Runs AccountLayouts ChainRuntime Checkpoint
open LogInvariant

/-- The transaction is an `initialize` and succeeds on the ledger. -/
def InitializesAt (chain : Chain) (ledger : Ledger) (transaction : Transaction) : Prop :=
  (∃ accounts authority treeHeight startEpoch,
    transaction.instruction = .initializeLog accounts authority treeHeight startEpoch) ∧
    ∃ reached, execute chain transaction ledger = .ok reached

/-- What a run keeps. -/
structure RunSafe (chain : Chain) (initial : Ledger) (transactions : List Transaction) :
    Prop where
  /-- An `initialize` succeeds at most once. -/
  initialized_once : ∀ earlier first middle second later,
    transactions = earlier ++ first :: (middle ++ second :: later) →
    InitializesAt chain (advanceAll chain initial earlier) first →
    ¬ InitializesAt chain (advanceAll chain initial (earlier ++ first :: middle)) second
  /-- Over every span of the run, the configuration keeps its terms and a checkpoint its
  publication, and a receipt changes only from none to some, together with its kind. -/
  preserved : ∀ earlier span later, transactions = earlier ++ (span ++ later) →
    Preserves (advanceAll chain initial earlier) (advanceAll chain initial (earlier ++ span))
  /-- There is one configuration. -/
  one_config : ∀ left right first second,
    readConfig (advanceAll chain initial transactions) left = some first →
    readConfig (advanceAll chain initial transactions) right = some second → left = right
  /-- The log starts at an epoch from one on, and ends at the earliest just before it starts. -/
  bounds : ∀ address config,
    readConfig (advanceAll chain initial transactions) address = some config →
    1 ≤ config.startEpoch.toNat ∧ config.startEpoch.toNat - 1 ≤ config.lastEpoch.toNat
  /-- Every epoch of the log has exactly one checkpoint account, over all bumps. -/
  one_checkpoint : ∀ address config,
    readConfig (advanceAll chain initial transactions) address = some config →
    ∀ epoch, config.startEpoch ≤ epoch → epoch ≤ config.lastEpoch →
      ∃! other, ∃ checkpoint,
        readCheckpoint (advanceAll chain initial transactions) other = some checkpoint ∧
          checkpoint.epoch = epoch
  /-- A checkpoint account is one of an epoch of the log, at the address its epoch and its bump
  give. -/
  no_other_checkpoint : ∀ other checkpoint,
    readCheckpoint (advanceAll chain initial transactions) other = some checkpoint →
    chain.createProgramAddress (checkpointSeeds checkpoint.epoch checkpoint.bump) programId =
        some other ∧
      ∃ address config,
        readConfig (advanceAll chain initial transactions) address = some config ∧
          config.startEpoch ≤ checkpoint.epoch ∧ checkpoint.epoch ≤ config.lastEpoch
  /-- Once there is a configuration, a transaction that changes the owner or the data of any
  account was signed by its authority. -/
  authorised : ∀ earlier transaction later, transactions = earlier ++ transaction :: later →
    ∀ address config, readConfig (advanceAll chain initial earlier) address = some config →
      (∃ other, contentAt (advanceAll chain initial (earlier ++ [transaction])) other ≠
        contentAt (advanceAll chain initial earlier) other) →
      config.authority ∈ transaction.context.signers
  /-- The epoch of a checkpoint is not after the day of its publication in UTC. -/
  calendar : ∀ other checkpoint,
    readCheckpoint (advanceAll chain initial transactions) other = some checkpoint →
    (checkpoint.epoch.toNat : ℤ) ≤ checkpoint.publishedUnix.toInt / 86400

variable {chain : Chain} {initial : Ledger}

theorem advanceAll_append (ledger : Ledger) (earlier later : List Transaction) :
    advanceAll chain ledger (earlier ++ later) =
      advanceAll chain (advanceAll chain ledger earlier) later :=
  List.foldl_append

/-- Every ledger of a run is consistent. -/
theorem consistent_advanceAll (hsystem : chain.system.Documented)
    (hfresh : ∀ address, (initial address).owner ≠ programId) (transactions : List Transaction) :
    Consistent chain (advanceAll chain initial transactions) :=
  run_invariant (fun ledger transaction ↦ consistent_advance hsystem ledger transaction)
    (.inl hfresh) transactions

/-- A run preserves what has been written. -/
theorem preserves_advanceAll (hsystem : chain.system.Documented) {ledger : Ledger}
    (hconsistent : Consistent chain ledger) (transactions : List Transaction) :
    Preserves ledger (advanceAll chain ledger transactions) :=
  run_related .refl (fun _ _ _ ↦ .trans)
    (fun ledger transaction ↦ consistent_advance hsystem ledger transaction)
    (fun ledger transaction ↦ preserves_advance hsystem ledger transaction) hconsistent
    transactions

/-- After an `initialize` that succeeded there is a configuration. -/
theorem exists_config_of_initializesAt (hsystem : chain.system.Documented) {ledger : Ledger}
    {transaction : Transaction} (hinitializes : InitializesAt chain ledger transaction) :
    ∃ address config, readConfig (advance chain ledger transaction) address = some config := by
  obtain ⟨⟨accounts, authority, treeHeight, startEpoch, hinstruction⟩, reached, hrun⟩ :=
    hinitializes
  have hadvance : advance chain ledger transaction = reached := by rw [advance, hrun]
  rw [execute, hinstruction] at hrun
  obtain ⟨address, config, heffect⟩ := initializeLog_effect hsystem hrun
  refine ⟨address, config, readConfig_of_content ?_⟩
  rw [hadvance, heffect.effect, if_pos rfl]

/-- Where there is a configuration, no `initialize` succeeds. -/
theorem not_initializesAt (hsystem : chain.system.Documented) {ledger : Ledger}
    (hconsistent : Consistent chain ledger) {address : Pubkey} {config : LogConfig}
    (hread : readConfig ledger address = some config) (transaction : Transaction) :
    ¬ InitializesAt chain ledger transaction := by
  rintro ⟨⟨accounts, authority, treeHeight, startEpoch, hinstruction⟩, reached, hrun⟩
  rw [execute, hinstruction] at hrun
  obtain ⟨derived, written, heffect⟩ := initializeLog_effect hsystem hrun
  have hunstarted := unstarted_of_initialized heffect hconsistent
  rw [hunstarted.readConfig_eq_none] at hread
  exact absurd hread (by simp)

/-- Every run from a chain on which the program owns nothing is safe. -/
theorem log_safe (chain : Chain) (hsystem : chain.system.Documented) (initial : Ledger)
    (hfresh : ∀ address, (initial address).owner ≠ programId)
    (transactions : List Transaction) : RunSafe chain initial transactions := by
  have hconsistent := consistent_advanceAll hsystem hfresh
  constructor
  · rintro earlier first middle second later - hfirst
    obtain ⟨address, config, hread⟩ := exists_config_of_initializesAt hsystem hfirst
    obtain ⟨kept, hkept, -⟩ :=
      (preserves_advanceAll hsystem (consistent_advance hsystem _ first (hconsistent earlier))
        middle).config address config hread
    have hthere : readConfig (advanceAll chain initial (earlier ++ first :: middle)) address =
        some kept := by
      rw [advanceAll_append]
      exact hkept
    exact not_initializesAt hsystem (hconsistent _) hthere second
  · rintro earlier span later -
    rw [advanceAll_append]
    exact preserves_advanceAll hsystem (hconsistent earlier) span
  · intro left right first second hleft hright
    have hstarted := (hconsistent transactions).started hright
    exact (hstarted.readConfig_eq_some_iff.mp hleft).1
  · intro address config hread
    have hstarted := (hconsistent transactions).started hread
    have hcontiguous := hstarted.contiguous
    exact ⟨hstarted.positive, by omega⟩
  · intro address config hread epoch hfirst hlast
    have hstarted := (hconsistent transactions).started hread
    obtain ⟨other, checkpoint, hcheckpoint, hepoch⟩ := hstarted.covered epoch hfirst hlast
    refine ⟨other, ⟨checkpoint, hcheckpoint, hepoch⟩, ?_⟩
    rintro another ⟨found, hfound, hsame⟩
    exact hstarted.unique another other found checkpoint hfound hcheckpoint
      (hsame.trans hepoch.symm)
  · intro other checkpoint hread
    rcases hconsistent transactions with hunstarted | ⟨address, config, hstarted⟩
    · rw [hunstarted.readCheckpoint_eq_none] at hread
      exact absurd hread (by simp)
    · have hplaced := (hstarted.stored_of_readCheckpoint hread).2.2
      exact ⟨hplaced.derived, address, config, readConfig_of_content hstarted.stored,
        hplaced.first, hplaced.last⟩
  · rintro earlier transaction later - address config hread hdifferent
    rw [advanceAll_append] at hdifferent
    exact signed_of_change (change_of_advance hsystem (hconsistent earlier)) hread hdifferent
  · intro other checkpoint hread
    rcases hconsistent transactions with hunstarted | ⟨address, config, hstarted⟩
    · rw [hunstarted.readCheckpoint_eq_none] at hread
      exact absurd hread (by simp)
    · exact (hstarted.stored_of_readCheckpoint hread).2.2.calendar

/-- A chain that derives an address by writing the seeds out. -/
def plainChain : Chain where
  createProgramAddress := fun seeds _ ↦
    some ⟨(seeds.flatten ++ List.replicate 32 0).take 32, by simp⟩
  minimumBalance := fun _ ↦ 1000
  system := referenceSystem

/-- The operator of a log. -/
def operator : Pubkey :=
  ⟨List.replicate 32 7, rfl⟩

/-- A chain on which only the operator holds lamports. -/
def fundedLedger : Ledger := fun address ↦
  ⟨if address = operator then 1000000 else 0, systemProgramId, []⟩

/-- A transaction the operator signs on the day 20000 of the epoch clock. -/
def signedByOperator (instruction : Instruction) : Transaction :=
  ⟨⟨[operator], ⟨5, 1728000000⟩⟩, instruction⟩

/-- A log started and one epoch published into it, at an address a third party had funded. -/
def oneEpoch : List Transaction :=
  let config : Pubkey := ⟨LogConfig.seed ++ [255] ++ List.replicate 25 0, rfl⟩
  let checkpoint : Pubkey :=
    ⟨CheckpointAccount.seed ++ leList 8 20000 ++ [255] ++ List.replicate 16 0, rfl⟩
  [signedByOperator (.initializeLog ⟨config, operator, systemProgramId⟩ operator 10 20000),
    signedByOperator (.transfer operator checkpoint 1),
    signedByOperator (.publishCheckpoint ⟨config, checkpoint, operator, operator, systemProgramId⟩
      20000 operator 255)]

/-- The run of that log is safe, and it has the checkpoint. -/
theorem log_safe_oneEpoch :
    RunSafe plainChain fundedLedger oneEpoch ∧
      (readCheckpoint (advanceAll plainChain fundedLedger oneEpoch)
        ⟨CheckpointAccount.seed ++ leList 8 20000 ++ [255] ++ List.replicate 16 0, rfl⟩).map
          CheckpointAccount.epoch = some 20000 :=
  ⟨log_safe plainChain referenceSystem_documented fundedLedger
    (fun _ ↦ programId_ne_systemProgramId.symm) oneEpoch, by decide +kernel⟩

end AnchoredLog.Program.LogSafety
