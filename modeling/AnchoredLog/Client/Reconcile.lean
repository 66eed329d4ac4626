import AnchoredLog.Client.BatcherHandoff
import AnchoredLog.Client.SequenceLag
import AnchoredLog.Client.WorkerLog
import AnchoredLog.Port.StoredAccounts

/-!
# Reconciling an epoch

`reconcile-anchor-cycle.rs` compares what the batcher signed and the receipt that was kept with what
the chain holds of an epoch. It reads its files once and the cluster three times, and the chain may
have moved in between, or be answered from an earlier state than before.

`reconciled_for_good` says what its verdict is worth: an epoch that is reconciled agrees with the
files in every state of the chain from the first one that was read on, and one that agrees is
reconciled by every later run whose reads succeed.
-/

set_option autoImplicit false
set_option relaxedAutoImplicit false

namespace AnchoredLog.Client.Reconcile

open Core.Preimages Library.ByteCodec Library.Fallible Library.Interactions Library.TextFields
open Program.AccountLayouts Program.ChainRuntime Program.Checkpoint Program.LogInvariant
open Program.LogSafety Program.Balances Port.StoredAccounts
open PublishNetwork Handoffs Receipts Fetch SequenceLag WorkerCycle WorkerLog
open BatcherHandoff (File Host HexFailed hex32)
open Publish hiding Request Answer Dialogue

/-! ### What is reconciled -/

variable {Path : Type}

/-- Why an epoch was not reconciled. -/
inductive ReconcileFailed (Path : Type)
  | notSet (name : String)
  | notANumber (raw : String)
  | notAnAddress (reason : String)
  | otherProgram
  | batcherKey (why : HexFailed)
  | unreadable (path : Path)
  | handoff (path : Path) (why : HandoffRefused)
  | receipt (path : Path) (why : ReceiptRefused)
  | tooLong (path : Path)
  | checkpointRead (why : Unreachable)
  | notPlaced (epoch : UInt64) (found : Fetched)
  | rootDiffers
  | receiptDiffers (kind : UInt8) (chain own : Digest)
  | statusRead (why : Unreachable)
  | notDual (epoch : UInt64) (status : AnchorStatus)
  | continuity (why : Unreachable)
  | outsideRange (epoch : UInt64) (lag : Lag)

/-- What the files say of an epoch: the root that was signed for it, and the digest and the claim of
its receipt. -/
structure Prepared where
  epoch : UInt64
  root : Digest
  digest : Digest
  claim : BitcoinClaim

/-- Whether every epoch asked about had a usable root. -/
def isEmpty (lag : Lag) : Bool :=
  lag.beforeLogStart.isEmpty && lag.notYetPublished.isEmpty && lag.refused.isEmpty

section Run

variable (pubkeyOf : String → Except String Pubkey) (format : ReceiptFormat) (hasher : Hasher)
  (verifier : Verifier) (chain : Chain)

def envOf (host : Host Path) (name : String) : Except (ReconcileFailed Path) String :=
  okOr (host.env name) (.notSet name)

/-- What a process reads before it asks the cluster. -/
def prepare (host : Host Path) : Except (ReconcileFailed Path) Prepared := do
  let raw ← envOf host "CERTIMINING_EPOCH"
  let number ← okOr (fromStrRadix 10 (2 ^ 64) raw.toList) (.notANumber raw)
  let epoch := UInt64.ofNat number
  let program ← (pubkeyOf (← envOf host "CERTIMINING_PROGRAM_ID")).mapError .notAnAddress
  require (program = programId) .otherProgram
  let batcher ← (hex32 (← envOf host "CERTIMINING_BATCHER_KEY").toList).mapError .batcherKey
  let handoffs ← envOf host "CERTIMINING_HANDOFFS"
  let handoffPath :=
    host.join (host.pathOf handoffs) (toString epoch.toNat ++ ".handoff")
  let handoffFile ← okOr (host.file handoffPath) (.unreadable handoffPath)
  let handoff ← (HandoffCodec.decode handoffFile.octets).mapError (.handoff handoffPath)
  let root ← (handoff.verify verifier batcher epoch).mapError (.handoff handoffPath)
  let receipts ← envOf host "CERTIMINING_RECEIPTS"
  let receiptPath :=
    host.join (host.pathOf receipts) (toString epoch.toNat ++ ".root.ots")
  let receiptFile ← okOr (host.file receiptPath) (.unreadable receiptPath)
  let claim ← (verifyReceipt format receiptFile.octets root.octets).mapError (.receipt receiptPath)
  let digest ← okOr (receiptDigest hasher receiptFile.octets) (.tooLong receiptPath)
  let _ ← envOf host "CERTIMINING_RPC"
  pure ⟨epoch, root, digest, claim⟩

/-- Compares the checkpoint of an epoch with the files. -/
def checkCheckpoint (prepared : Prepared) :
    Except Unreachable Fetched → Except (ReconcileFailed Path) Unit
  | .error reason => .error (.checkpointRead reason)
  | .ok (.placed checkpoint) => do
    require (checkpoint.root = prepared.root) .rootDiffers
    require (checkpoint.anchorKind = 1 ∧ checkpoint.receiptDigest = prepared.digest)
      (.receiptDiffers checkpoint.anchorKind checkpoint.receiptDigest prepared.digest)
  | .ok other => .error (.notPlaced prepared.epoch other)

/-- §2.3's `status` of an epoch must be `Dual`. -/
def checkStatus (prepared : Prepared) :
    Except Unreachable Fetched → Except (ReconcileFailed Path) Unit
  | .error reason => .error (.statusRead reason)
  | .ok found => require (statusOf found = .dual) (.notDual prepared.epoch (statusOf found))

/-- An epoch must be one of the contiguous range that is published. -/
def checkRange (prepared : Prepared) :
    Except Unreachable Lag → Except (ReconcileFailed Path) Unit
  | .error reason => .error (.continuity reason)
  | .ok lag => require (isEmpty lag = true ∧ lag.configurationMoved = false ∧
      lag.startEpoch ≤ prepared.epoch ∧ prepared.epoch ≤ lag.lastPublished)
      (.outsideRange prepared.epoch lag)

/-- Compares an epoch with what the cluster answers. An address that cannot be derived panics; here
some other account is read. -/
def reconcile (prepared : Prepared) : Dialogue (Except (ReconcileFailed Path) Prepared) := do
  let address := (addressesOf chain).checkpoint prepared.epoch
  match checkCheckpoint prepared (← ofCluster (rootForEpoch address prepared.epoch)) with
  | .error failure => pure (.error failure)
  | .ok () =>
    match checkStatus prepared (← ofCluster (rootForEpoch address prepared.epoch)) with
    | .error failure => pure (.error failure)
    | .ok () =>
      let lag ← ofInquiry
        (sequenceLag programId (addressesOf chain) prepared.epoch prepared.epoch)
      pure ((checkRange prepared lag).map fun _ ↦ prepared)

/-- A process. -/
def run (host : Host Path) : Dialogue (Except (ReconcileFailed Path) Prepared) :=
  match prepare pubkeyOf format hasher verifier host with
  | .error failure => pure (.error failure)
  | .ok prepared => reconcile chain prepared

end Run

/-! ### The three reads -/

/-- What reading a checkpoint comes to. -/
def readCheckpointOf (epoch : UInt64) : Except String Observation → Except Unreachable Fetched
  | .error reason => .error ⟨reason⟩
  | .ok seen => .ok (fetched epoch seen.account)

/-- What reading one epoch of the sequence comes to. -/
def readLagOf (addresses : Addresses) (epoch : UInt64) :
    Except Unreachable OneView → Except Unreachable Lag
  | .error reason => .error reason
  | .ok view => concluded (readView programId addresses [epoch] view .start)

section Reads

variable {Output : Type} {addresses : Addresses} {address : Pubkey} {epoch : UInt64}

theorem ofCluster_rootForEpoch_bind (next : Except Unreachable Fetched → Dialogue Output) :
    ofCluster (rootForEpoch address epoch) >>= next =
      .ask (.cluster (.account address)) fun answer ↦ next (readCheckpointOf epoch answer) := by
  refine congrArg (Interaction.ask _) (funext fun answer ↦ ?_)
  cases answer with
  | error reason => rfl
  | ok seen => rfl

theorem planOf_self (epoch : UInt64) : planOf epoch epoch = [[epoch]] := by
  have hepochs : epochsBetween epoch epoch = [epoch] := by
    simp [epochsBetween]
  simp [planOf, hepochs, batches, chunks, oneViewLimit]

/-- One epoch of the sequence is read in one view. -/
theorem sequenceLag_self :
    sequenceLag programId addresses epoch epoch =
      .ask (.accountsAt [addresses.config, addresses.checkpoint epoch]) fun answer ↦
        .done (readLagOf addresses epoch answer) := by
  rw [sequenceLag, show batches (epochsBetween epoch epoch) = [[epoch]] from planOf_self epoch,
    readBatches, accountsAt, request_bind, ask_bind]
  refine congrArg (Interaction.ask _) (funext fun answer ↦ ?_)
  cases answer with
  | error reason => rfl
  | ok view =>
    rw [readLagOf]
    dsimp only
    cases hread : readView programId addresses [epoch] view .start with
    | error reason => rfl
    | ok reading =>
      simp only [readBatches, pure_eq_done, done_bind, concluded]
      cases reading.lag <;> rfl

theorem ofInquiry_sequenceLag_bind (next : Except Unreachable Lag → Dialogue Output) :
    ofInquiry (sequenceLag programId addresses epoch epoch) >>= next =
      .ask (.observe (.accountsAt [addresses.config, addresses.checkpoint epoch])) fun answer ↦
        next (readLagOf addresses epoch answer) := by
  rw [sequenceLag_self]
  rfl

/-- What is answered to the three requests. -/
structure Reconciles (chain : Chain) (prepared : Prepared)
    (answers : ℕ → (asked : Request) → Answer asked) : Prop where
  checkpoint : ∃ found, readCheckpointOf prepared.epoch
      (answers 0 (.cluster (.account ((addressesOf chain).checkpoint prepared.epoch)))) =
        .ok (.placed found) ∧
    found.root = prepared.root ∧ found.anchorKind = 1 ∧ found.receiptDigest = prepared.digest
  status : ∃ found, readCheckpointOf prepared.epoch
      (answers 1 (.cluster (.account ((addressesOf chain).checkpoint prepared.epoch)))) =
        .ok found ∧ statusOf found = .dual
  range : ∃ lag, readLagOf (addressesOf chain) prepared.epoch
      (answers 2 (.observe (.accountsAt [(addressesOf chain).config,
        (addressesOf chain).checkpoint prepared.epoch]))) = .ok lag ∧
    isEmpty lag = true ∧ lag.configurationMoved = false ∧ lag.startEpoch ≤ prepared.epoch ∧
      prepared.epoch ≤ lag.lastPublished

variable {chain : Chain} {prepared other : Prepared}
  {answers : ℕ → (asked : Request) → Answer asked}

theorem checkCheckpoint_eq_ok_iff {answer : Except Unreachable Fetched} :
    @checkCheckpoint Path prepared answer = .ok () ↔ ∃ found, answer = .ok (.placed found) ∧
      found.root = prepared.root ∧ found.anchorKind = 1 ∧
        found.receiptDigest = prepared.digest := by
  rcases answer with reason | (checkpoint | reason | _)
  · simp [checkCheckpoint]
  · simp [checkCheckpoint, bind_unit_eq_ok_iff]
  · simp [checkCheckpoint]
  · simp [checkCheckpoint]

theorem checkStatus_eq_ok_iff {answer : Except Unreachable Fetched} :
    @checkStatus Path prepared answer = .ok () ↔
      ∃ found, answer = .ok found ∧ statusOf found = .dual := by
  cases answer with
  | error reason => simp [checkStatus]
  | ok found => simp [checkStatus]

theorem checkRange_eq_ok_iff {answer : Except Unreachable Lag} :
    @checkRange Path prepared answer = .ok () ↔ ∃ lag, answer = .ok lag ∧ isEmpty lag = true ∧
      lag.configurationMoved = false ∧ lag.startEpoch ≤ prepared.epoch ∧
        prepared.epoch ≤ lag.lastPublished := by
  cases answer with
  | error reason => simp [checkRange]
  | ok lag => simp [checkRange]

/-- An epoch is reconciled when and only when it is what the three answers say. -/
theorem conduct_reconcile_eq_ok_iff :
    (conduct answers 0 (@reconcile Path chain prepared)).2 = .ok other ↔
      other = prepared ∧ Reconciles chain prepared answers := by
  have hcheckpoint := @checkCheckpoint_eq_ok_iff Path prepared (readCheckpointOf prepared.epoch
    (answers 0 (.cluster (.account ((addressesOf chain).checkpoint prepared.epoch)))))
  have hstatus := @checkStatus_eq_ok_iff Path prepared (readCheckpointOf prepared.epoch
    (answers 1 (.cluster (.account ((addressesOf chain).checkpoint prepared.epoch)))))
  have hrange := @checkRange_eq_ok_iff Path prepared (readLagOf (addressesOf chain) prepared.epoch
    (answers 2 (.observe (.accountsAt [(addressesOf chain).config,
      (addressesOf chain).checkpoint prepared.epoch]))))
  simp only [reconcile, ofCluster_rootForEpoch_bind, ofInquiry_sequenceLag_bind, pure_eq_done]
  rw [conduct_ask]
  dsimp only
  cases hfirst : @checkCheckpoint Path prepared (readCheckpointOf prepared.epoch
    (answers 0 (.cluster (.account ((addressesOf chain).checkpoint prepared.epoch))))) with
  | error failure =>
    rw [hfirst] at hcheckpoint
    refine iff_of_false (by simp) fun hboth ↦ ?_
    exact absurd (hcheckpoint.mpr hboth.2.checkpoint) (by simp)
  | ok =>
    rw [hfirst] at hcheckpoint
    dsimp only
    rw [conduct_ask]
    dsimp only
    cases hsecond : @checkStatus Path prepared (readCheckpointOf prepared.epoch
      (answers 1 (.cluster (.account ((addressesOf chain).checkpoint prepared.epoch))))) with
    | error failure =>
      rw [hsecond] at hstatus
      refine iff_of_false (by simp) fun hboth ↦ ?_
      exact absurd (hstatus.mpr hboth.2.status) (by simp)
    | ok =>
      rw [hsecond] at hstatus
      dsimp only
      rw [conduct_ask, conduct_done, map_eq_ok_iff]
      constructor
      · rintro ⟨⟨⟩, hthird, rfl⟩
        exact ⟨rfl, hcheckpoint.mp rfl, hstatus.mp rfl, hrange.mp hthird⟩
      · rintro ⟨rfl, hreconciles⟩
        exact ⟨(), hrange.mpr hreconciles.range, rfl⟩

end Reads

/-! ### What the chain holds -/

/-- An answer shows the chain: what is read is what the ledger holds. -/
def Shows (ledger : Ledger) : (asked : Request) → Answer asked → Prop
  | .cluster (.account address), answer =>
      ∀ seen, answer = .ok seen → seen.account = accountOf ledger address
  | .observe (.accountsAt addresses), answer =>
      ∀ view, answer = .ok view → view.accounts = addresses.map (accountOf ledger)
  | _, _ => True

/-- A read that did not fail. -/
def Answered : (asked : Request) → Answer asked → Prop
  | .cluster (.account _), answer => ∃ seen, answer = .ok seen
  | .observe (.accountsAt _), answer => ∃ view, answer = .ok view
  | _, _ => True

/-- A checkpoint agrees with what the files say of its epoch. -/
structure Matches (prepared : Prepared) (checkpoint : CheckpointAccount) : Prop where
  epoch : checkpoint.epoch = prepared.epoch
  root : checkpoint.root = prepared.root
  receiptDigest : checkpoint.receiptDigest = prepared.digest
  anchorKind : checkpoint.anchorKind = 1

/-- What the chain holds of an epoch agrees with the files: the epoch is one of the log, and it has
one checkpoint, which agrees. -/
structure Agrees (ledger : Ledger) (prepared : Prepared) (address : Pubkey) : Prop where
  held : ∃ checkpoint, readCheckpoint ledger address = some checkpoint ∧ Matches prepared checkpoint
  alone : ∀ other checkpoint, readCheckpoint ledger other = some checkpoint →
    checkpoint.epoch = prepared.epoch → other = address
  range : ∃ place config, readConfig ledger place = some config ∧
    config.startEpoch ≤ prepared.epoch ∧ prepared.epoch ≤ config.lastEpoch

section Chain

variable {chain : Chain} {ledger : Ledger} {prepared : Prepared} {address : Pubkey}

/-- A checkpoint that agrees is the only one of its epoch, and its epoch is one of the log. -/
theorem agrees_of_matches (hconsistent : Consistent chain ledger) {checkpoint : CheckpointAccount}
    (hread : readCheckpoint ledger address = some checkpoint)
    (hmatches : Matches prepared checkpoint) : Agrees ledger prepared address := by
  rcases hconsistent with hunstarted | ⟨place, config, hstarted⟩
  · rw [hunstarted.readCheckpoint_eq_none] at hread
    cases hread
  · obtain ⟨-, -, hplaced⟩ := hstarted.stored_of_readCheckpoint hread
    refine ⟨⟨checkpoint, hread, hmatches⟩, fun other found hfound hepoch ↦ ?_,
      place, config, hstarted.readConfig_eq_some_iff.mpr ⟨rfl, rfl⟩, ?_, ?_⟩
    · exact hstarted.unique other address found checkpoint hfound hread
        (hepoch.trans hmatches.epoch.symm)
    · rw [← hmatches.epoch]
      exact hplaced.first
    · rw [← hmatches.epoch]
      exact hplaced.last

/-- What agrees goes on to agree. -/
theorem Agrees.preserved {later : Ledger} (hagrees : Agrees ledger prepared address)
    (hconsistent : Consistent chain later) (hpreserves : Preserves ledger later) :
    Agrees later prepared address := by
  obtain ⟨checkpoint, hread, hmatches⟩ := hagrees.held
  obtain ⟨kept, hkept, hsame⟩ := hpreserves.checkpoint address checkpoint hread
  refine agrees_of_matches hconsistent hkept ⟨hsame.epoch.trans hmatches.epoch,
    hsame.root.trans hmatches.root, ?_, ?_⟩
  all_goals
    rcases hsame.receipt with ⟨hdigest, hkind⟩ | ⟨⟨-, hunset⟩, -⟩
    · first | exact hdigest.trans hmatches.receiptDigest | exact hkind.trans hmatches.anchorKind
    · rw [hmatches.anchorKind] at hunset
      exact absurd hunset (by decide)

/-- What the client places is what the chain holds. -/
theorem exists_readCheckpoint_of_fetched {epoch : UInt64} {found : PublishedCheckpoint}
    (hfetched : fetched epoch (accountOf ledger address) = .placed found) :
    ∃ checkpoint, readCheckpoint ledger address = some checkpoint ∧ checkpoint.epoch = epoch ∧
      found = publishedCheckpoint checkpoint := by
  unfold accountOf at hfetched
  split_ifs at hfetched
  · cases hfetched
  · unfold fetched at hfetched
    dsimp only at hfetched
    split at hfetched
    · next placed hdecode =>
      cases hfetched
      obtain ⟨account, howner, hlength, htag, hfields, hepoch, rfl⟩ :=
        decodeCheckpoint_eq_ok hdecode
      refine ⟨account, ?_, hepoch, rfl⟩
      rw [readCheckpoint, toOption_eq_some_iff, loadAccount_eq_ok_iff]
      exact ⟨howner, le_trans (by decide) hlength, htag, hfields⟩
    · cases hfetched

variable {checkpoint : CheckpointAccount}

/-- What the chain holds is answered. -/
theorem accountOf_of_readCheckpoint (hconsistent : Consistent chain ledger)
    (hpaid : RentPaid ledger) (hread : readCheckpoint ledger address = some checkpoint) :
    accountOf ledger address = some (programId, checkpoint.octets) := by
  rcases hconsistent with hunstarted | ⟨place, config, hstarted⟩
  · rw [hunstarted.readCheckpoint_eq_none] at hread
    cases hread
  · obtain ⟨-, hcontent, -⟩ := hstarted.stored_of_readCheckpoint hread
    rw [accountOf, if_neg (hpaid address (congrArg Prod.fst hcontent)), hcontent]

/-- A checkpoint the chain holds is placed. -/
theorem fetched_of_readCheckpoint (hstored : Stored chain ledger) (hpaid : RentPaid ledger)
    (hread : readCheckpoint ledger address = some checkpoint) :
    fetched checkpoint.epoch (accountOf ledger address) =
      .placed (publishedCheckpoint checkpoint) := by
  rw [accountOf_of_readCheckpoint hstored.consistent hpaid hread, fetched]
  simp only [decodeCheckpoint_octets (hstored.checkpoints address checkpoint hread)]

/-- One view of a log and one of its epochs says that the epoch is published. -/
theorem readLagOf_of_readCheckpoint (hstored : Stored chain ledger) (hpaid : RentPaid ledger)
    {epoch : UInt64} (hepoch : checkpoint.epoch = epoch)
    (hread : readCheckpoint ledger ((addressesOf chain).checkpoint epoch) = some checkpoint)
    {view : OneView} (hview : view.accounts = [accountOf ledger (addressesOf chain).config,
      accountOf ledger ((addressesOf chain).checkpoint epoch)]) :
    ∃ lag, readLagOf (addressesOf chain) epoch (.ok view) = .ok lag ∧ isEmpty lag = true ∧
      lag.configurationMoved = false ∧ lag.startEpoch ≤ epoch ∧ epoch ≤ lag.lastPublished := by
  subst hepoch
  rcases hstored.consistent with hunstarted | ⟨place, config, hstarted⟩
  · rw [hunstarted.readCheckpoint_eq_none] at hread
    cases hread
  · obtain ⟨-, -, hplaced⟩ := hstarted.stored_of_readCheckpoint hread
    have hplace : (addressesOf chain).config = place := by
      simp only [addressesOf, hstarted.derived, Option.map_some, Option.getD_some]
    have hschema : config.schemaVersion = schemaVersion :=
      hstored.configs place config (hstarted.readConfig_eq_some_iff.mpr ⟨rfl, rfl⟩)
    have hconfig : accountOf ledger place = some (programId, config.octets) := by
      rw [accountOf, if_neg (hpaid place (congrArg Prod.fst hstarted.stored)), hstarted.stored]
    rw [accountOf_of_readCheckpoint hstored.consistent hpaid hread, hplace, hconfig] at hview
    refine ⟨⟨config.startEpoch, config.lastEpoch, [], [], [], 1, false⟩, ?_, rfl, rfl,
      hplaced.first, hplaced.last⟩
    have hfront : configOf programId view = .ok config :=
      configOf_eq_ok_iff.mpr ⟨programId, config.octets, by rw [hview]; rfl,
        decodeConfig_octets hschema⟩
    have hdecode : decodeCheckpointOf programId programId checkpoint.octets checkpoint.epoch =
        .ok (publishedCheckpoint checkpoint) :=
      decodeCheckpoint_octets (hstored.checkpoints _ checkpoint hread)
    have hjudge (lag : Lag) :
        judgeEpoch programId config view.accounts lag (checkpoint.epoch, 0) = .ok lag := by
      refine judgeEpoch_eq_ok_iff.mpr ⟨.accepted, ?_, rfl⟩
      simp only [placeOf, if_neg (UInt64.not_lt.mpr hplaced.first),
        if_neg (UInt64.not_lt.mpr hplaced.last), hview, List.getElem?_cons_succ,
        List.getElem?_cons_zero, hdecode]
    have hlength : view.accounts.length =
        ((addressesOf chain).ofBatch [checkpoint.epoch]).length := by
      rw [hview]
      rfl
    simp only [readLagOf, readView, hlength, hfront, Reading.start, require_of_true, bind_ok,
      List.zipIdx_cons, List.zipIdx_nil, List.foldlM_cons, List.foldlM_nil, hjudge, pure_eq_ok,
      Option.getD_none, concluded]
    rfl

end Chain

section Answers

variable {ledger : Ledger} {prepared : Prepared} {address : Pubkey} {epoch : UInt64}

/-- What is placed of an answer is what the chain holds. -/
theorem exists_readCheckpoint_of_readCheckpointOf {answer : Except String Observation}
    (hshows : Shows ledger (.cluster (.account address)) answer) {found : PublishedCheckpoint}
    (hfound : readCheckpointOf epoch answer = .ok (.placed found)) :
    ∃ checkpoint, readCheckpoint ledger address = some checkpoint ∧ checkpoint.epoch = epoch ∧
      found = publishedCheckpoint checkpoint := by
  cases answer with
  | error reason => cases hfound
  | ok seen =>
    rw [readCheckpointOf, hshows seen rfl, Except.ok.injEq] at hfound
    exact exists_readCheckpoint_of_fetched hfound

/-- A checkpoint the chain holds is placed of every answer. -/
theorem readCheckpointOf_of_readCheckpoint {chain : Chain} (hstored : Stored chain ledger)
    (hpaid : RentPaid ledger) {checkpoint : CheckpointAccount} (hepoch : checkpoint.epoch = epoch)
    (hread : readCheckpoint ledger address = some checkpoint) {answer : Except String Observation}
    (hshows : Shows ledger (.cluster (.account address)) answer)
    (hanswered : Answered (.cluster (.account address)) answer) :
    readCheckpointOf epoch answer = .ok (.placed (publishedCheckpoint checkpoint)) := by
  obtain ⟨seen, rfl⟩ := hanswered
  rw [readCheckpointOf, hshows seen rfl, ← hepoch, fetched_of_readCheckpoint hstored hpaid hread]

/-- A checkpoint that agrees has the status of both anchors. -/
theorem statusOf_of_matches {chain : Chain} (hconsistent : Consistent chain ledger)
    {checkpoint : CheckpointAccount} (hread : readCheckpoint ledger address = some checkpoint)
    (hmatches : Matches prepared checkpoint) :
    statusOf (.placed (publishedCheckpoint checkpoint)) = .dual := by
  rcases hconsistent with hunstarted | ⟨place, config, hstarted⟩
  · rw [hunstarted.readCheckpoint_eq_none] at hread
    cases hread
  · obtain ⟨-, -, hplaced⟩ := hstarted.stored_of_readCheckpoint hread
    rcases hplaced.receipt with ⟨-, hkind⟩ | ⟨hreceipt, -⟩
    · rw [hmatches.anchorKind] at hkind
      exact absurd hkind (by decide)
    · exact if_neg hreceipt

end Answers

/-! ### What the files prove -/

/-- What a process that read its files knows of the epoch it was asked about: the hand-off file of
the epoch is of the batcher's key and its signature over the root is valid, and the receipt file of
the epoch carries a Bitcoin attestation of the root and has the digest. -/
structure Sourced (format : ReceiptFormat) (hasher : Hasher) (verifier : Verifier)
    (host : Host Path) (prepared : Prepared) : Prop where
  asked : ∃ raw number, host.env "CERTIMINING_EPOCH" = some raw ∧
    fromStrRadix 10 (2 ^ 64) raw.toList = some number ∧ prepared.epoch = UInt64.ofNat number
  signed : ∃ text key handoffs file handoff, host.env "CERTIMINING_BATCHER_KEY" = some text ∧
    hex32 text.toList = .ok key ∧ host.env "CERTIMINING_HANDOFFS" = some handoffs ∧
    host.file (host.join (host.pathOf handoffs)
      (toString prepared.epoch.toNat ++ ".handoff")) = some file ∧
    HandoffCodec.decode file.octets = .ok handoff ∧ handoff.epoch = prepared.epoch ∧
    handoff.root = prepared.root ∧ handoff.batcherKey = key ∧
    4 ≤ handoff.height ∧ handoff.height ≤ 16 ∧ verifier.valid key
      (signedOctets prepared.epoch handoff.height prepared.root) handoff.signature = true
  attested : ∃ receipts file, host.env "CERTIMINING_RECEIPTS" = some receipts ∧
    host.file (host.join (host.pathOf receipts)
      (toString prepared.epoch.toNat ++ ".root.ots")) = some file ∧
    verifyReceipt format file.octets prepared.root.octets = .ok prepared.claim ∧
    receiptDigest hasher file.octets = some prepared.digest

variable {pubkeyOf : String → Except String Pubkey} {format : ReceiptFormat} {hasher : Hasher}
  {verifier : Verifier} {chain : Chain} {host : Host Path}

theorem sourced_of_prepare {prepared : Prepared}
    (hprepare : prepare pubkeyOf format hasher verifier host = .ok prepared) :
    Sourced format hasher verifier host prepared := by
  simp only [prepare, envOf, bind_eq_ok_iff, okOr_eq_ok_iff, mapError_eq_ok_iff] at hprepare
  obtain ⟨raw, hraw, number, hnumber, programText, -, program, -, -, -, text, htext, key, hkey,
    handoffs, hhandoffs, file, hfile, handoff, hdecode, root, hroot, receipts, hreceipts, receipt,
    hreceipt, claim, hclaim, digest, hdigest, -, -, hprepared⟩ := hprepare
  rw [pure_eq_ok, Except.ok.injEq] at hprepared
  subst hprepared
  obtain ⟨hsame, ⟨hlow, hhigh⟩, hepoch, hsigned, hvalid⟩ := Handoff.verify_eq_ok_iff.mp hroot
  exact ⟨⟨raw, number, hraw, hnumber, rfl⟩,
    ⟨text, key, handoffs, file, handoff, htext, hkey, hhandoffs, hfile, hdecode, hepoch, hsigned,
      hsame, hlow, hhigh, hvalid⟩,
    receipts, receipt, hreceipts, hreceipt, hclaim, hdigest⟩

/-! ### Every run -/

/-- A request that changes nothing. -/
def IsRead : Request → Prop
  | .cluster (.account _) => True
  | .observe (.accountsAt _) => True
  | _ => False

/-- What the verdict of a process is worth, whose reads are answered from states of a run. -/
structure ReconciledForGood (pubkeyOf : String → Except String Pubkey) (format : ReceiptFormat)
    (hasher : Hasher) (verifier : Verifier) (chain : Chain) (initial : Ledger)
    (transactions : List Transaction) (seen : ℕ → ℕ)
    (answers : ℕ → (asked : Request) → Answer asked) (host : Host Path) : Prop where
  /-- The process asks for nothing but reads. -/
  reads : ∀ asked ∈ (conduct answers 0
    (run pubkeyOf format hasher verifier chain host)).1, IsRead asked
  /-- An epoch that is reconciled agrees with the files in the state its checkpoint was first read
  in, and in every later one. -/
  sound : ∀ prepared, (conduct answers 0
      (run pubkeyOf format hasher verifier chain host)).2 = .ok prepared →
    Sourced format hasher verifier host prepared ∧ ∀ later, seen 0 ≤ later →
      Agrees (advanceAll chain initial (transactions.take later)) prepared
        ((addressesOf chain).checkpoint prepared.epoch)
  /-- An epoch that agrees with the files is reconciled from then on, where no read fails. -/
  complete : ∀ prepared earlier, prepare pubkeyOf format hasher verifier host = .ok prepared →
    Agrees (advanceAll chain initial (transactions.take earlier)) prepared
        ((addressesOf chain).checkpoint prepared.epoch) →
      (∀ turn, earlier ≤ seen turn) → (∀ turn asked, Answered asked (answers turn asked)) →
        (conduct answers 0 (run pubkeyOf format hasher verifier chain host)).2 = .ok prepared

theorem preserves_take (hsystem : chain.system.Documented) {initial : Ledger}
    (hunstarted : Unstarted initial) (transactions : List Transaction) {earlier later : ℕ}
    (hlater : earlier ≤ later) :
    Preserves (advanceAll chain initial (transactions.take earlier))
      (advanceAll chain initial (transactions.take later)) := by
  obtain ⟨rest, hrest⟩ := List.take_prefix_take_left hlater (l := transactions)
  rw [← hrest, advanceAll_append]
  exact preserves_advanceAll hsystem (consistent_advanceAll hsystem hunstarted _) rest

/-- A process asks for nothing but reads. -/
theorem run_reads :
    AtMost (fun asked ↦ ¬ IsRead asked) 0 (run pubkeyOf format hasher verifier chain host) := by
  unfold run
  split
  · exact atMost_done _ _
  · simp only [reconcile, ofCluster_rootForEpoch_bind, ofInquiry_sequenceLag_bind]
    refine .inl ⟨not_not.mpr trivial, fun checkpoint ↦ ?_⟩
    dsimp only
    split
    · exact atMost_done _ _
    · refine .inl ⟨not_not.mpr trivial, fun found ↦ ?_⟩
      dsimp only
      split
      · exact atMost_done _ _
      · exact .inl ⟨not_not.mpr trivial, fun lag ↦ atMost_done _ _⟩

/-- Wherever in a run the reads of the process are answered: what it reconciles agrees with the
files from then on, and what agrees with the files it reconciles. -/
theorem reconciled_for_good (pubkeyOf : String → Except String Pubkey) (format : ReceiptFormat)
    (hasher : Hasher) (verifier : Verifier) (chain : Chain) (hsystem : chain.system.Documented)
    (hrents : Rents chain) (initial : Ledger) (hunstarted : Unstarted initial)
    (transactions : List Transaction) (seen : ℕ → ℕ)
    (answers : ℕ → (asked : Request) → Answer asked)
    (hshows : ∀ turn asked, Shows
      (advanceAll chain initial (transactions.take (seen turn))) asked (answers turn asked))
    (host : Host Path) :
    ReconciledForGood pubkeyOf format hasher verifier chain initial transactions seen answers
      host := by
  have hstored (count : ℕ) := stored_advanceAll hsystem hunstarted (transactions.take count)
  have hpaid (count : ℕ) :=
    rentPaid_advanceAll hsystem hrents hunstarted (transactions.take count)
  refine ⟨fun asked hasked ↦ not_not.mp (not_counted_of_mem_conduct run_reads hasked),
    fun prepared hrun ↦ ?_, fun prepared earlier hprepare hagrees hseen hanswered ↦ ?_⟩
  · rw [run] at hrun
    cases hprepare : prepare pubkeyOf format hasher verifier host with
    | error failure =>
      rw [hprepare] at hrun
      cases hrun
    | ok found =>
      rw [hprepare] at hrun
      obtain ⟨rfl, hreconciles⟩ := conduct_reconcile_eq_ok_iff.mp hrun
      refine ⟨sourced_of_prepare hprepare, fun later hlater ↦ ?_⟩
      obtain ⟨placed, hplaced, hroot, hkind, hdigest⟩ := hreconciles.checkpoint
      obtain ⟨checkpoint, hread, hepoch, rfl⟩ :=
        exists_readCheckpoint_of_readCheckpointOf (hshows 0 _) hplaced
      exact (agrees_of_matches (hstored (seen 0)).consistent hread
        ⟨hepoch, hroot, hdigest, hkind⟩).preserved (hstored later).consistent
          (preserves_take hsystem hunstarted transactions hlater)
  · have hkept (turn : ℕ) := (hagrees.preserved (hstored (seen turn)).consistent
      (preserves_take hsystem hunstarted transactions (hseen turn))).held
    rw [run, hprepare]
    refine conduct_reconcile_eq_ok_iff.mpr ⟨rfl, ?_, ?_, ?_⟩
    · obtain ⟨checkpoint, hread, hmatches⟩ := hkept 0
      exact ⟨_, readCheckpointOf_of_readCheckpoint (hstored (seen 0)) (hpaid (seen 0))
        hmatches.epoch hread (hshows 0 _) (hanswered 0 _), hmatches.root, hmatches.anchorKind,
        hmatches.receiptDigest⟩
    · obtain ⟨checkpoint, hread, hmatches⟩ := hkept 1
      exact ⟨_, readCheckpointOf_of_readCheckpoint (hstored (seen 1)) (hpaid (seen 1))
        hmatches.epoch hread (hshows 1 _) (hanswered 1 _),
        statusOf_of_matches (hstored (seen 1)).consistent hread hmatches⟩
    · obtain ⟨checkpoint, hread, hmatches⟩ := hkept 2
      obtain ⟨view, hview⟩ := hanswered 2 (.observe (.accountsAt [(addressesOf chain).config,
        (addressesOf chain).checkpoint prepared.epoch]))
      have hshown := hshows 2 (.observe (.accountsAt [(addressesOf chain).config,
        (addressesOf chain).checkpoint prepared.epoch])) view hview
      rw [hview]
      exact readLagOf_of_readCheckpoint (hstored (seen 2)) (hpaid (seen 2)) hmatches.epoch hread
        hshown

/-! ### A reconciled epoch -/

/-- A parser that finds a Bitcoin attestation in every receipt. -/
def attestingFormat : ReceiptFormat where
  parse := fun _ ↦ .ok ⟨List.replicate 32 0, .mk (.bitcoin 863000) (List.replicate 32 1) []⟩
  sha256 := fun _ ↦ Octets.zeros 32

/-- A host with the hand-off and the receipt of an epoch. -/
def auditingHost : Host (List String) where
  env := fun name ↦
    if name = "CERTIMINING_EPOCH" then some "20000"
    else if name = "CERTIMINING_PROGRAM_ID" then some "program"
    else if name = "CERTIMINING_BATCHER_KEY" then some (String.ofList (List.replicate 64 '0'))
    else if name = "CERTIMINING_HANDOFFS" then some "handoffs"
    else if name = "CERTIMINING_RECEIPTS" then some "receipts"
    else if name = "CERTIMINING_RPC" then some "http://localhost:8899"
    else none
  pathOf := fun text ↦ [text]
  join := fun path name ↦ path ++ [name]
  canonicalize := fun _ ↦ none
  file := fun path ↦
    if path = ["handoffs", "20000.handoff"] then
      some ⟨0o644, (HandoffCodec.encode
        ⟨20000, 4, operator, Octets.zeros 32, Octets.zeros 64⟩).octets⟩
    else if path = ["receipts", "20000.root.ots"] then some ⟨0o644, [1]⟩
    else none
  clock := none

/-- The epoch is published and its receipt is attached. -/
def attachedRun : List Transaction :=
  oneEpoch ++ [signedByOperator (.attachAnchorReceipt
    ⟨oneMessage.accounts.config, oneMessage.accounts.checkpoint, operator⟩ 20000
    ((receiptDigest residueHasher [1]).getD (Octets.zeros 32)) 1)]

/-- An endpoint that answers every read from one ledger. -/
def endpointOf (ledger : Ledger) : (asked : Request) → Answer asked
  | .observe (.accountsAt addresses) => .ok ⟨none, addresses.map (accountOf ledger)⟩
  | .observe (.status _) => .error ⟨"not asked"⟩
  | .observe (.receiptExists _) => false
  | .cluster .latestBlockhash => .error "not asked"
  | .cluster (.trySign _ _) => .error "not asked"
  | .cluster (.sendAndConfirm _) => .error "not asked"
  | .cluster (.account address) => .ok ⟨none, accountOf ledger address⟩
  | .cluster (.signaturesForAddress _) => .error "not asked"
  | .cluster (.signatureStatuses _) => .error "not asked"
  | .trySignAttachment _ _ => .error "not asked"
  | .sendAttachment _ => .error "not asked"
  | .runOts _ => .error "not asked"
  | .createReceipts => .error "not asked"
  | .writeStamped _ _ => .error "not asked"
  | .readStamped _ => .error "not asked"
  | .readReceipt _ => .error "not asked"
  | .readHandoff _ => .error "not asked"

theorem shows_endpointOf (ledger : Ledger) (asked : Request) :
    Shows ledger asked (endpointOf ledger asked) := by
  cases asked with
  | observe question =>
    cases question with
    | accountsAt addresses =>
      rintro view ⟨⟩
      rfl
    | _ => trivial
  | cluster asked =>
    cases asked with
    | account address =>
      rintro seen ⟨⟩
      rfl
    | _ => trivial
  | _ => trivial

/-- The epoch is reconciled. -/
theorem reconciled_for_good_attached :
    ReconciledForGood (fun _ ↦ .ok programId) attestingFormat residueHasher permissiveVerifier
        plainChain fundedLedger attachedRun (fun _ ↦ 4)
        (fun _ ↦ endpointOf (advanceAll plainChain fundedLedger (attachedRun.take 4)))
        auditingHost ∧
      (conduct (fun _ ↦ endpointOf (advanceAll plainChain fundedLedger (attachedRun.take 4))) 0
        (run (fun _ ↦ .ok programId) attestingFormat residueHasher permissiveVerifier plainChain
          auditingHost)).2.isOk = true :=
  ⟨reconciled_for_good _ _ _ _ plainChain referenceSystem_documented ⟨by decide, by decide⟩
    fundedLedger (fun _ ↦ programId_ne_systemProgramId.symm) attachedRun _ _
    (fun _ asked ↦ shows_endpointOf _ asked) auditingHost, by decide +kernel⟩

end AnchoredLog.Client.Reconcile
