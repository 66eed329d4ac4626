import AnchoredLog.Client.WorkerSafety

/-!
# The worker acts on hand-offs

Whatever is in the directory of the hand-offs, a root the worker publishes or stamps came in one it
read there for the epoch, of the batcher's key and with a signature that is valid. Its programs ask
for nothing else once the hand-off was read (`perform_handed`), the world lands nothing else, and
what was read is not forgotten, so that `roots_signed` holds of every checkpoint of every reachable
state.
-/

set_option autoImplicit false
set_option relaxedAutoImplicit false

namespace AnchoredLog.Client.SignedRoots

open Library.ByteCodec Library.Fallible Library.Interactions Library.SharedWorld Core.Preimages
open Program.AccountLayouts Program.ChainRuntime Program.Checkpoint Program.LogInvariant
open Program.LogSafety Program.Balances PublishNetwork Worker Observe Receipts Handoffs WorkerCycle
open WorkerLog WorkerWorld WorkerActions WorkerObservation WorkerSafety WorkerRetry
open Publish hiding Request Answer Dialogue

/-! ### Roots that were handed over -/

/-- A root came in a hand-off that was read for the epoch: it names the epoch and a height of trees
that are built, it is of the batcher's key, and its signature is valid. -/
def HandedOver (worker : Worker) (world : World) (epoch : UInt64) (root : Digest) : Prop :=
  ∃ bytes handoff, (epoch, bytes) ∈ world.handoffs ∧ HandoffCodec.decode bytes = .ok handoff ∧
    handoff.epoch = epoch ∧ handoff.root = root ∧ 4 ≤ handoff.height ∧ handoff.height ≤ 16 ∧
    handoff.batcherKey = worker.batcherKey ∧ worker.verifier.valid worker.batcherKey
      (signedOctets epoch handoff.height root) handoff.signature = true

/-- The request writes a root, on chain or to be stamped. -/
def WritesRoot : Request → Prop
  | .cluster (.sendAndConfirm _) => True
  | .writeStamped _ _ => True
  | _ => False

/-- The request writes another root than that of an epoch. -/
def WritesOther (epoch : UInt64) (root : Digest) : Request → Prop
  | .cluster (.sendAndConfirm signed) => ¬ (signed.message.epoch = epoch ∧
      signed.message.root = root)
  | .writeStamped other bytes => ¬ (other = epoch ∧ bytes = root.octets)
  | _ => False

/-- What the request writes was handed over. -/
def Backed (worker : Worker) (world : World) : Request → Prop
  | .cluster (.sendAndConfirm signed) =>
    HandedOver worker world signed.message.epoch signed.message.root
  | .writeStamped epoch bytes => ∃ root, bytes = root.octets ∧ HandedOver worker world epoch root
  | _ => True

variable {worker : Worker} {truthful : Prop} {start epoch : UInt64} {root : Digest}
  {Output : Type} {before after world : World}

theorem WritesOther.writesRoot {asked : Request} (hother : WritesOther epoch root asked) :
    WritesRoot asked := by
  cases asked with
  | cluster asked =>
    cases asked with
    | sendAndConfirm signed => trivial
    | _ => exact hother.elim
  | writeStamped epoch bytes => trivial
  | _ => exact hother.elim

theorem backed_of_handedOver (hhanded : HandedOver worker world epoch root) {asked : Request}
    (hasked : ¬ WritesOther epoch root asked) : Backed worker world asked := by
  cases asked with
  | cluster asked =>
    cases asked with
    | sendAndConfirm signed =>
      obtain ⟨hepoch, hroot⟩ := not_not.mp hasked
      show HandedOver worker world signed.message.epoch signed.message.root
      rwa [hepoch, hroot]
    | _ => trivial
  | writeStamped other bytes =>
    obtain ⟨rfl, rfl⟩ := not_not.mp hasked
    exact ⟨root, rfl, hhanded⟩
  | _ => trivial

theorem backed_of_not_writesRoot {asked : Request} (hquiet : ¬ WritesRoot asked) :
    Backed worker world asked := by
  cases asked with
  | cluster asked =>
    cases asked with
    | sendAndConfirm signed => exact absurd trivial hquiet
    | _ => trivial
  | writeStamped epoch bytes => exact absurd trivial hquiet
  | _ => trivial

/-- What was handed over stays so while hand-offs are only added. -/
theorem HandedOver.later (hhanded : HandedOver worker before epoch root)
    (hlater : before.handoffs ⊆ after.handoffs) : HandedOver worker after epoch root := by
  obtain ⟨bytes, handoff, hread, hverified⟩ := hhanded
  exact ⟨bytes, handoff, hlater hread, hverified⟩

/-- The world leaves the hand-offs that were read alone. -/
theorem handoffs_of_moves (hmoves : Relation.ReflTransGen (Moves worker) before after) :
    after.handoffs = before.handoffs := by
  induction hmoves with
  | refl => rfl
  | tail _ hmove ih =>
    cases hmove with
    | publishes hsent hrun => exact ih
    | attaches hsent hrun => exact ih
    | others hforeign hrun => exact ih

theorem handoffs_subset_of_moves (hmoves : Relation.ReflTransGen (Moves worker) before after) :
    before.handoffs ⊆ after.handoffs := by
  rw [handoffs_of_moves hmoves]
  exact fun _ hentry ↦ hentry

theorem handoffs_subset_of_effect {asked : Request} {answer : Answer asked}
    (heffect : Effect worker truthful before asked answer after) :
    before.handoffs ⊆ after.handoffs := by
  rcases effect_cases heffect with rfl | ⟨other, -, bytes, rfl⟩ | ⟨signed, -, rfl⟩ |
    ⟨signed, -, rfl⟩ | ⟨other, receipt, -, rfl⟩
  · exact fun _ hentry ↦ hentry
  · exact List.subset_cons_self _ _
  · exact fun _ hentry ↦ hentry
  · exact fun _ hentry ↦ hentry
  · exact fun _ hentry ↦ hentry

/-! ### What the programs write -/

theorem rootFor_writesNone : AtMost WritesRoot 0 (rootFor worker epoch) := by
  refine .inl ⟨id, ?_⟩
  rintro (reason | bytes)
  · trivial
  · dsimp only [andThen]
    cases HandoffCodec.decode bytes with
    | error reason => trivial
    | ok handoff =>
      dsimp only
      cases handoff.verify worker.verifier worker.batcherKey epoch with
      | error reason => trivial
      | ok root => trivial

theorem checkVersion_writesNone : AtMost WritesRoot 0 checkVersion := by
  refine .inl ⟨id, ?_⟩
  rintro (reason | output)
  · trivial
  · dsimp only [andThen]
    split_ifs
    · trivial
    · trivial
    · trivial

theorem submitAgain_writesNone : AtMost WritesRoot 0 (submitAgain worker epoch root) := by
  refine .inl ⟨id, ?_⟩
  rintro (reason | existing)
  · trivial
  · dsimp only [andThen]
    split_ifs
    · trivial
    · refine .inl ⟨id, ?_⟩
      rintro (reason | bytes)
      · trivial
      · dsimp only [andThen]
        cases verifyReceipt worker.receiptFormat bytes existing with
        | ok claim => trivial
        | error refused => cases refused <;> trivial

theorem upgrade_writesNone : AtMost WritesRoot 0 (upgrade worker epoch root) := by
  refine atMost_uncounted_bind checkVersion_writesNone fun checked ↦ ?_
  cases checked with
  | error failure => trivial
  | ok pinned =>
    refine .inl ⟨id, fun upgraded ↦ .inl ⟨id, ?_⟩⟩
    rintro (reason | bytes)
    · trivial
    · dsimp only [andThen]
      cases verifyReceipt worker.receiptFormat bytes root.octets with
      | ok claim =>
        dsimp only
        cases receiptDigest worker.hasher bytes with
        | none => trivial
        | some digest => trivial
      | error refused => cases refused <;> trivial

theorem ofCluster_writesNone {program : Publish.Dialogue Output}
    (hquiet : AtMost Submits 0 program) : AtMost WritesRoot 0 (ofCluster program) := by
  refine atMost_embed (hquiet.of_imp ?_)
  rintro (_ | _ | signed | _ | _ | _) hwrites
  · exact hwrites
  · exact hwrites
  · trivial
  · exact hwrites
  · exact hwrites
  · exact hwrites

theorem sendAttach_writesNone (message : AttachMessage) :
    AtMost WritesRoot 0 (sendAttach message) := by
  refine atMost_uncounted_bind (ofCluster_writesNone getLatestBlockhash_atMost) fun latest ↦ ?_
  cases latest with
  | error reason => trivial
  | ok blockhash =>
    refine .inl ⟨id, ?_⟩
    rintro (reason | _)
    · trivial
    · refine .inl ⟨id, ?_⟩
      rintro (reason | signature)
      · trivial
      · trivial

theorem rootForEpoch_atMost (address : Pubkey) : AtMost Submits 0 (rootForEpoch address epoch) := by
  refine .inl ⟨id, ?_⟩
  rintro (reason | seen)
  · trivial
  · trivial

theorem attach_writesNone (receipt : List UInt8) :
    AtMost WritesRoot 0 (attach worker epoch receipt) := by
  unfold attach
  split
  · refine atMost_uncounted_bind (ofCluster_writesNone (rootForEpoch_atMost _)) ?_
    rintro (reason | published | reason | _)
    · trivial
    · dsimp only
      split
      · trivial
      · split
        · trivial
        · refine atMost_uncounted_bind (sendAttach_writesNone _) ?_
          rintro (refused | _)
          · trivial
          · trivial
    · trivial
    · trivial
  · trivial

theorem performAttachment_writesNone (failures : UInt32) :
    AtMost WritesRoot 0 (performAttachment worker epoch failures) := by
  refine .inl ⟨id, ?_⟩
  rintro (reason | receipt)
  · trivial
  · refine atMost_uncounted_bind (attach_writesNone receipt) ?_
    rintro (_ | (_ | _ | _ | _ | _) | attached)
    · trivial
    · trivial
    · trivial
    · trivial
    · trivial
    · trivial
    · trivial

theorem performAttach_writesNone (failures : UInt32) :
    AtMost WritesRoot 0 (performAttach worker epoch failures) := by
  refine atMost_uncounted_bind rootFor_writesNone ?_
  rintro (failure | root)
  · trivial
  · refine .inl ⟨id, ?_⟩
    rintro (_ | _)
    · trivial
    · refine atMost_uncounted_bind upgrade_writesNone ?_
      rintro (failure | _ | digest)
      · trivial
      · trivial
      · exact performAttachment_writesNone failures

/-- An observation writes no root. -/
theorem look_writesNone (now : Int64) (today : UInt64) :
    AtMost WritesRoot 0 (look worker now today) :=
  atMost_embed (atMost_of_never (fun _ ↦ id) _)

theorem other_of_writesNone {program : Dialogue Output} (hnone : AtMost WritesRoot 0 program) :
    AtMost (WritesOther epoch root) 0 program :=
  hnone.of_imp fun _ ↦ WritesOther.writesRoot

/-- A root is stamped, and no other. -/
theorem stamp_writesOne : AtMost (WritesOther epoch root) 0 (stamp epoch root) := by
  refine .inl ⟨fun hother ↦ hother ⟨rfl, rfl⟩, ?_⟩
  rintro (reason | _)
  · trivial
  · refine .inl ⟨id, ?_⟩
    rintro (reason | output)
    · trivial
    · dsimp only [andThen]
      split_ifs
      · trivial
      · trivial

theorem submit_writesOne : AtMost (WritesOther epoch root) 0 (submit worker epoch root) := by
  refine atMost_uncounted_bind (other_of_writesNone checkVersion_writesNone) ?_
  rintro (failure | _)
  · trivial
  · refine .inl ⟨id, ?_⟩
    rintro (reason | _)
    · trivial
    · refine .inl ⟨id, fun there ↦ ?_⟩
      cases there with
      | true => exact other_of_writesNone submitAgain_writesNone
      | false => exact stamp_writesOne

theorem publish_writesOne (attempts : UInt32) :
    AtMost (WritesOther epoch root) 0 (ofCluster (publish worker.signatureFormat worker.chain epoch
      root worker.payer worker.authority attempts)) := by
  have hsubmits := @publish_submits worker.signatureFormat worker.chain epoch root worker.payer
    worker.authority attempts
  refine atMost_embed (hsubmits.of_imp ?_)
  rintro (_ | _ | signed | _ | _ | _) hother
  · exact hother
  · exact hother
  · exact fun hmessage ↦ hother (message_of_publishMessage hmessage)
  · exact hother
  · exact hother
  · exact hother

/-! ### What the programs write in the world -/

/-- The surroundings in which a request is allowed when what it writes was handed over. -/
def writing (worker : Worker) (truthful : Prop) : Surroundings Request Answer World where
  Moves := Relation.ReflTransGen (Moves worker)
  Effect := Effect worker truthful
  Allowed := Backed worker
  refl := moves_refl worker
  trans := moves_trans worker

/-- A program that writes no root is allowed everywhere. -/
theorem safe_of_writesNone {program : Dialogue Output} (hnone : AtMost WritesRoot 0 program) :
    Safe (writing worker truthful) (fun _ _ ↦ True) world program := by
  refine safe_of_harmless (fun _ _ _ _ ↦ trivial) ?_ hnone trivial
  intro before asked _ hquiet
  exact ⟨backed_of_not_writesRoot hquiet, fun _ _ _ ↦ trivial⟩

/-- A program that writes one root is allowed once that root was handed over. -/
theorem safe_of_writesOne (hhanded : HandedOver worker world epoch root)
    {program : Dialogue Output} (hone : AtMost (WritesOther epoch root) 0 program) :
    Safe (writing worker truthful) (fun _ _ ↦ True) world program := by
  have hkept : Safe (writing worker truthful) (fun later _ ↦ HandedOver worker later epoch root)
      world program := by
    refine safe_of_harmless ?_ ?_ hone hhanded
    · exact fun before after hbefore hmoves ↦ hbefore.later (handoffs_subset_of_moves hmoves)
    · intro before asked hbefore hasked
      exact ⟨backed_of_handedOver hbefore hasked, fun answer after heffect ↦
        hbefore.later (handoffs_subset_of_effect heffect)⟩
  exact hkept.mono fun _ _ _ ↦ trivial

/-- A root that is taken from a hand-off was handed over. -/
theorem safe_rootFor : Safe (writing worker truthful) (fun later result ↦
    ∀ root, result = .ok root → HandedOver worker later epoch root) world
      (rootFor worker epoch) := by
  intro asked hasked
  refine ⟨trivial, ?_⟩
  rintro (reason | bytes) after hafter
  · rintro later hlater root ⟨⟩
  · dsimp only [andThen]
    cases hdecode : HandoffCodec.decode bytes with
    | error reason =>
      rintro later hlater root ⟨⟩
    | ok handoff =>
      dsimp only
      cases hverify : handoff.verify worker.verifier worker.batcherKey epoch with
      | error reason =>
        rintro later hlater root ⟨⟩
      | ok found =>
        rintro later hlater root ⟨⟩
        obtain ⟨hkey, ⟨hlow, hhigh⟩, hepoch, hroot, hvalid⟩ := Handoff.verify_eq_ok_iff.mp hverify
        have hread : (epoch, bytes) ∈ later.handoffs := by
          rw [handoffs_of_moves hlater, show after = _ from hafter]
          exact List.mem_cons_self
        exact ⟨bytes, handoff, hread, hdecode, hepoch, hroot, hlow, hhigh, hkey, hvalid⟩

theorem performPublish_handed (failures : UInt32) : Safe (writing worker truthful)
    (fun _ _ ↦ True) world (performPublish worker epoch failures) := by
  refine safe_bind safe_rootFor ?_
  rintro (failure | root) later hroot
  · exact fun _ _ ↦ trivial
  · refine safe_of_writesOne (hroot root rfl)
      (atMost_uncounted_bind (publish_writesOne _) ?_)
    rintro (_ | (_ | _ | _ | _ | _) | reference)
    · trivial
    · trivial
    · trivial
    · trivial
    · trivial
    · trivial
    · trivial

theorem performSubmit_handed (failures : UInt32) : Safe (writing worker truthful)
    (fun _ _ ↦ True) world (performSubmit worker epoch failures) := by
  refine safe_bind safe_rootFor ?_
  rintro (failure | root) later hroot
  · exact fun _ _ ↦ trivial
  · refine safe_of_writesOne (hroot root rfl) (atMost_uncounted_bind submit_writesOne ?_)
    rintro (failure | _)
    · trivial
    · trivial

/-- Whatever step is performed, only roots that were handed over are written. -/
theorem perform_handed (failures : UInt32) (step : Step) : Safe (writing worker truthful)
    (fun _ _ ↦ True) world (perform worker failures step) := by
  cases step with
  | refuse refusal => exact fun _ _ ↦ trivial
  | wait untilTime => exact fun _ _ ↦ trivial
  | publish epoch => exact performPublish_handed failures
  | submit epoch => exact performSubmit_handed failures
  | attach epoch => exact safe_of_writesNone (performAttach_writesNone failures)

/-! ### The world -/

/-- Everything that was sent or landed was handed over. -/
structure HandedWorld (worker : Worker) (world : World) : Prop where
  sent : ∀ signed ∈ world.sentPublications,
    HandedOver worker world signed.message.epoch signed.message.root
  landed : ∀ address checkpoint, readCheckpoint world.ledger address = some checkpoint →
    HandedOver worker world checkpoint.epoch checkpoint.root

/-- The world moves on with roots that were handed over. -/
theorem HandedWorld.moves (hsystem : worker.chain.system.Documented)
    (hsound : Sound worker start before) (hhanded : HandedWorld worker before)
    (hmoves : Moves worker before after) : HandedWorld worker after := by
  obtain ⟨address, config, hlog, -⟩ := hsound.log
  have hkept := handoffs_subset_of_moves (.single hmoves)
  have hsent (signed) (hmem : signed ∈ before.sentPublications) :=
    (hhanded.sent signed hmem).later hkept
  have hlanded (place checkpoint) (hread : readCheckpoint before.ledger place = some checkpoint) :=
    (hhanded.landed place checkpoint hread).later hkept
  cases hmoves with
  | @publishes signed clock reached hpublished hrun =>
    refine ⟨hsent, fun other checkpoint hread ↦ ?_⟩
    obtain ⟨found, hstarted, heffect⟩ :=
      published_of_publishCheckpoint hsystem hsound.consistent hrun
    rcases (readCheckpoint_published hstarted heffect).mp hread with ⟨-, rfl⟩ | hold
    · exact hsent signed hpublished
    · exact hlanded other checkpoint hold
  | @attaches signed clock reached hattached hrun =>
    refine ⟨hsent, fun other checkpoint hread ↦ ?_⟩
    obtain ⟨⟨attached, heffect⟩, -⟩ := hlog.attached hrun
    rcases readCheckpoint_of_attached heffect hread with hold | ⟨hepoch, hroot, -⟩
    · exact hlanded other checkpoint hold
    · have hloaded : readCheckpoint before.ledger signed.message.accounts.checkpoint =
          some attached :=
        toOption_eq_some_iff.mpr heffect.loaded
      rw [hepoch, hroot, ← heffect.sameEpoch]
      exact hlanded _ attached hloaded
  | others hforeign hrun =>
    refine ⟨hsent, fun other checkpoint hread ↦ ?_⟩
    rw [readCheckpoint_congr ((hlog.foreign hsystem hforeign hrun).1 other)] at hread
    exact hlanded other checkpoint hread

/-- A request that is backed keeps it so. -/
theorem HandedWorld.effect (hhanded : HandedWorld worker before) {asked : Request}
    (hbacked : Backed worker before asked) {answer : Answer asked}
    (heffect : Effect worker truthful before asked answer after) : HandedWorld worker after := by
  have hkept := handoffs_subset_of_effect heffect
  have hledger := ledger_of_effect heffect
  refine ⟨fun signed hsent ↦ ?_, fun address checkpoint hread ↦ ?_⟩
  · rcases effect_cases heffect with rfl | ⟨other, -, bytes, rfl⟩ | ⟨last, rfl, rfl⟩ |
      ⟨last, -, rfl⟩ | ⟨other, receipt, -, rfl⟩
    · exact hhanded.sent signed hsent
    · exact (hhanded.sent signed hsent).later hkept
    · rcases List.mem_cons.mp hsent with rfl | hold
      · exact HandedOver.later hbacked hkept
      · exact (hhanded.sent signed hold).later hkept
    · exact (hhanded.sent signed hsent).later hkept
    · exact (hhanded.sent signed hsent).later hkept
  · rw [hledger] at hread
    exact (hhanded.landed address checkpoint hread).later hkept

/-! ### Whole runs -/

/-- What is left of a running program writes only what was handed over. -/
def Process.Backed (worker : Worker) (truthful : Prop) (world : World) : Process → Prop
  | .idle => True
  | .observing inquiry => Safe (writing worker truthful) (fun _ _ ↦ True) world inquiry
  | .performing _ program => Safe (writing worker truthful) (fun _ _ ↦ True) world program

theorem handed_transition {system reached : System} (hsystem : worker.chain.system.Documented)
    (hsound : Sound worker start system.world) (hworld : HandedWorld worker system.world)
    (hprocess : Process.Backed worker truthful system.world system.process)
    (htransition : Transition worker truthful system reached) :
    HandedWorld worker reached.world ∧
      Process.Backed worker truthful reached.world reached.process := by
  cases htransition with
  | @moves world after process hmoves =>
    refine ⟨hworld.moves hsystem hsound hmoves, ?_⟩
    cases process with
    | idle => trivial
    | observing inquiry => exact safe_of_moves hprocess (.single hmoves)
    | performing step program => exact safe_of_moves hprocess (.single hmoves)
  | stops => exact ⟨hworld, trivial⟩
  | begins hday => exact ⟨hworld, safe_of_writesNone (look_writesNone _ _)⟩
  | looks answer heffect =>
    obtain ⟨hbacked, hnext⟩ := hprocess _ .refl
    exact ⟨hworld.effect hbacked heffect, hnext answer _ heffect⟩
  | decides => exact ⟨hworld, perform_handed 0 _⟩
  | acts answer heffect =>
    obtain ⟨hbacked, hnext⟩ := hprocess _ .refl
    exact ⟨hworld.effect hbacked heffect, hnext answer _ heffect⟩

/-- What a reachable state says of the hand-offs. -/
structure RootsHanded (worker : Worker) (system : System) : Prop where
  /-- Every root on chain was handed over for its epoch. -/
  landed : ∀ address checkpoint, readCheckpoint system.world.ledger address = some checkpoint →
    HandedOver worker system.world checkpoint.epoch checkpoint.root
  /-- So was every root that was sent. -/
  sent : ∀ signed ∈ system.world.sentPublications,
    HandedOver worker system.world signed.message.epoch signed.message.root
  /-- So was every root that is stamped. -/
  stamped : ∀ epoch bytes, Asks system (.writeStamped epoch bytes) →
    ∃ root, bytes = root.octets ∧ HandedOver worker system.world epoch root

theorem rootsHanded_of_reachable {context : Context} {accounts : InitializeAccounts}
    {treeHeight : UInt8} {before initial : Ledger} {system : System}
    (hsystem : worker.chain.system.Documented) (hrents : Rents worker.chain)
    (hunstarted : Unstarted before)
    (hinitialized : initializeLog worker.chain context accounts worker.authority treeHeight start
      before = .ok initial)
    (hreachable : Relation.ReflTransGen (Transition worker truthful) (System.start initial)
      system) : RootsHanded worker system := by
  obtain ⟨address, config, hlog, hfirst⟩ :=
    ownLog_of_initializeLog hsystem hrents hunstarted hinitialized
  have hhanded : HandedWorld worker system.world ∧
      Process.Backed worker truthful system.world system.process := by
    induction hreachable with
    | refl =>
      refine ⟨⟨fun signed hsent ↦ absurd hsent List.not_mem_nil, ?_⟩, trivial⟩
      intro place checkpoint hread
      have hpublished := hlog.isPublished_iff.mp ⟨place, checkpoint, hread, rfl⟩
      rw [UInt64.le_iff_toNat_le, UInt64.le_iff_toNat_le] at hpublished
      omega
    | tail hearlier htransition ih =>
      have hinvariant :=
        invariant_of_initialized hsystem hrents hunstarted hinitialized hearlier
      exact handed_transition hsystem hinvariant.world ih.1 ih.2 htransition
  refine ⟨hhanded.1.landed, hhanded.1.sent, ?_⟩
  rintro epoch bytes ⟨step, next, hperforming⟩
  have hprocess := hhanded.2
  rw [hperforming] at hprocess
  exact (hprocess _ .refl).1

/-- Whatever is in the directory of the hand-offs, whatever fails, is lost or crashes, and whatever
others transact: from a log that was just initialised on, the worker sends and stamps only roots of
hand-offs it read for their epochs and verified, and no other root is ever on chain. -/
theorem roots_signed (worker : Worker) (truthful : Prop)
    (hsystem : worker.chain.system.Documented) (hrents : Rents worker.chain) (context : Context)
    (accounts : InitializeAccounts) (treeHeight : UInt8) (start : UInt64) (before initial : Ledger)
    (hunstarted : Unstarted before)
    (hinitialized : initializeLog worker.chain context accounts worker.authority treeHeight start
      before = .ok initial) (system : System)
    (hreachable : Relation.ReflTransGen (Transition worker truthful) (System.start initial)
      system) : RootsHanded worker system :=
  rootsHanded_of_reachable hsystem hrents hunstarted hinitialized hreachable

/-- A publication landed. -/
theorem roots_signed_landed : ∃ system,
    Relation.ReflTransGen (Transition attestingWorker True) (System.start startedLedger) system ∧
      system.world.published = [20000] ∧ RootsHanded attestingWorker system := by
  have hreachable := reachable_played true 3
  rw [eq_self] at hreachable
  exact ⟨_, hreachable, by decide +kernel, roots_signed attestingWorker True
    referenceSystem_documented ⟨by decide, by decide⟩ _ _ 10 20000 fundedLedger startedLedger
    (fun _ ↦ programId_ne_systemProgramId.symm) initializeLog_startedLedger _ hreachable⟩

end AnchoredLog.Client.SignedRoots
