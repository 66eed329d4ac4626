import AnchoredLog.Client.WorkerWorld

/-!
# What the worker does to the world

The programs that perform a step, each safe in every sound world: a publication is sent only while
every earlier epoch is attached, a stamp is made on a truthful disk only where no receipt is, and an
attachment is sent only with a receipt that was read from the directory and verified against the
root of the chain. All other requests are harmless whenever they are asked (`safe_of_notRisky`).
-/

set_option autoImplicit false
set_option relaxedAutoImplicit false

namespace AnchoredLog.Client.WorkerActions

open Library.ByteCodec Library.Interactions Library.SharedWorld Core.Preimages
open Program.AccountLayouts Program.ChainRuntime Program.Checkpoint Program.LogInvariant
open Program.Balances PublishNetwork Fetch Worker Receipts Handoffs WorkerCycle WorkerLog
open WorkerWorld
open Publish hiding Request Answer Dialogue

/-! ### Harmless requests -/

/-- The request may do harm, unless it submits a message that may be submitted. -/
def Risky (submittable : Message → Prop) : Request → Prop
  | .cluster (.sendAndConfirm signed) => ¬ submittable signed.message
  | .sendAttachment _ => True
  | .runOts (.stamp _) => True
  | _ => False

/-- What stays true as the world goes on. -/
def Stable (Holds : World → Prop) : Prop :=
  ∀ before after, Later before after → Holds before → Holds after

variable {worker : Worker} {truthful : Prop} {start epoch : UInt64} {world : World}
  {Output : Type} {Holds : World → Prop}

theorem allowed_of_notRisky {submittable : Message → Prop}
    (hsubmittable : ∀ signed : SignedTransaction, submittable signed.message →
      Publishable worker start world.ledger signed)
    {asked : Request} (hharmless : ¬ Risky submittable asked) :
    Allowed worker truthful start world asked := by
  cases asked with
  | cluster asked =>
    cases asked with
    | sendAndConfirm signed => exact hsubmittable signed (not_not.mp hharmless)
    | _ => trivial
  | sendAttachment signed => exact absurd trivial hharmless
  | runOts command =>
    cases command with
    | stamp epoch => exact absurd trivial hharmless
    | _ => trivial
  | _ => trivial

section Safety

variable (hsystem : worker.chain.system.Documented) (hrents : Rents worker.chain)

include hsystem hrents in
/-- A program without risky requests is safe in a sound world, and ends with what is stable. -/
theorem safe_of_notRisky {submittable : Message → Prop} (hstable : Stable Holds)
    (hsubmittable : ∀ later, Holds later → ∀ signed : SignedTransaction,
      submittable signed.message → Publishable worker start later.ledger signed)
    {program : Dialogue Output} (hquiet : AtMost (Risky submittable) 0 program)
    (hsound : Sound worker start world) (hholds : Holds world) :
    Safe (around worker truthful start) (fun later _ ↦ Sound worker start later ∧ Holds later) world
      program := by
  refine safe_of_harmless ?_ ?_ hquiet ⟨hsound, hholds⟩
  · rintro before after ⟨hbefore, hkept⟩ hmoves
    exact ⟨sound_of_moves hsystem hrents hbefore hmoves,
      hstable before after (later_of_moves hsystem hrents hbefore hmoves) hkept⟩
  · rintro before asked ⟨hbefore, hkept⟩ hharmless
    have hallowed : Allowed worker truthful start before asked :=
      allowed_of_notRisky (hsubmittable before hkept) hharmless
    refine ⟨hallowed, fun answer after heffect ↦ ⟨sound_of_effect hbefore hallowed heffect, ?_⟩⟩
    exact hstable before after (later_of_effect heffect) hkept

include hsystem hrents in
/-- A program that sends nothing and stamps nothing is safe. -/
theorem safe_of_quiet {program : Dialogue Output}
    (hquiet : AtMost (Risky fun _ ↦ False) 0 program) (hstable : Stable Holds)
    (hsound : Sound worker start world) (hholds : Holds world) :
    Safe (around worker truthful start) (fun later _ ↦ Sound worker start later ∧ Holds later) world
      program :=
  safe_of_notRisky hsystem hrents hstable (fun _ _ _ ↦ False.elim) hquiet hsound hholds

end Safety

/-! ### Programs that only ask -/

theorem rootFor_quiet : AtMost (Risky fun _ ↦ False) 0 (rootFor worker epoch) := by
  refine .inl ⟨id, ?_⟩
  rintro (reason | bytes)
  · trivial
  · dsimp only [andThen]
    cases HandoffCodec.decode bytes with
    | error reason => trivial
    | ok handoff =>
      dsimp only
      cases handoff.verify worker.verifier worker.batcherKey epoch with
      | error reason => trivial
      | ok root => trivial

theorem checkVersion_quiet : AtMost (Risky fun _ ↦ False) 0 checkVersion := by
  refine .inl ⟨id, ?_⟩
  rintro (reason | output)
  · trivial
  · dsimp only [andThen]
    split_ifs
    · trivial
    · trivial
    · trivial

theorem submitAgain_quiet (root : Digest) :
    AtMost (Risky fun _ ↦ False) 0 (submitAgain worker epoch root) := by
  refine .inl ⟨id, ?_⟩
  rintro (reason | existing)
  · trivial
  · dsimp only [andThen]
    split_ifs
    · trivial
    · refine .inl ⟨id, ?_⟩
      rintro (reason | bytes)
      · trivial
      · dsimp only [andThen]
        cases verifyReceipt worker.receiptFormat bytes existing with
        | ok claim => trivial
        | error refused => cases refused <;> trivial

theorem upgrade_quiet (root : Digest) :
    AtMost (Risky fun _ ↦ False) 0 (upgrade worker epoch root) := by
  refine atMost_uncounted_bind checkVersion_quiet fun checked ↦ ?_
  cases checked with
  | error failure => trivial
  | ok pinned =>
    refine .inl ⟨id, fun upgraded ↦ .inl ⟨id, ?_⟩⟩
    rintro (reason | bytes)
    · trivial
    · dsimp only [andThen]
      cases verifyReceipt worker.receiptFormat bytes root.octets with
      | ok claim =>
        dsimp only
        cases receiptDigest worker.hasher bytes with
        | none => trivial
        | some digest => trivial
      | error refused => cases refused <;> trivial

theorem ofCluster_notRisky {submittable : Message → Prop} {program : Publish.Dialogue Output}
    (hquiet : AtMost (SubmitsOther submittable) 0 program) :
    AtMost (Risky submittable) 0 (ofCluster program) := by
  refine atMost_embed (hquiet.of_imp ?_)
  rintro (_ | _ | signed | _ | _ | _) hrisky
  · exact hrisky
  · exact hrisky
  · exact hrisky
  · exact hrisky
  · exact hrisky
  · exact hrisky

theorem ofCluster_quiet {program : Publish.Dialogue Output} (hquiet : AtMost Submits 0 program) :
    AtMost (Risky fun _ ↦ False) 0 (ofCluster program) :=
  ofCluster_notRisky (hquiet.of_imp fun _ ↦ SubmitsOther.submits)

/-! ### Publishing -/

/-- Every earlier epoch of the log is attached. -/
def AttachedBefore (start epoch : UInt64) (world : World) : Prop :=
  ∀ earlier, start ≤ earlier → earlier < epoch → IsAttached world.ledger earlier

theorem stable_attachedBefore (start epoch : UInt64) : Stable (AttachedBefore start epoch) :=
  fun _ _ hlater hattached earlier hfirst hless ↦
    (hattached earlier hfirst hless).preserved hlater.ledger

/-- Any output is fine for a program that has come to its end. -/
theorem safe_done (output : Output) :
    Safe (around worker truthful start) (fun _ _ ↦ True) world (.done output) :=
  fun _ _ ↦ trivial

section Actions

variable (hsystem : worker.chain.system.Documented) (hrents : Rents worker.chain)

include hsystem hrents in
/-- An epoch is published safely while every earlier epoch is attached. -/
theorem safe_performPublish (hsound : Sound worker start world)
    (hattached : AttachedBefore start epoch world) (failures : UInt32) :
    Safe (around worker truthful start) (fun _ _ ↦ True) world
      (performPublish worker epoch failures) := by
  have hstable := stable_attachedBefore start epoch
  refine safe_bind (safe_of_quiet hsystem hrents rootFor_quiet hstable hsound hattached) ?_
  rintro (failure | root) later ⟨hlater, hkept⟩
  · exact safe_done _
  · have hquiet := ofCluster_notRisky (@publish_submits worker.signatureFormat worker.chain epoch
      root worker.payer worker.authority
      (if worker.policy.publishAttempts = 0 then 0 else worker.policy.publishAttempts - 1))
    refine safe_bind (safe_of_notRisky hsystem hrents hstable ?_ hquiet hlater hkept) ?_
    · intro last hlast signed hmessage
      obtain ⟨hepoch, hroot⟩ := message_of_publishMessage hmessage
      refine ⟨?_, ?_⟩
      · rw [hepoch, hroot]
        exact hmessage
      · rw [hepoch]
        exact hlast
    · rintro (_ | (_ | _ | _ | _ | _) | reference) last -
      · exact safe_done _
      · exact safe_done _
      · exact safe_done _
      · exact safe_done _
      · exact safe_done _
      · exact safe_done _
      · exact safe_done _

/-- Nothing but what the invariant says. -/
theorem stable_true : Stable fun _ ↦ True :=
  fun _ _ _ _ ↦ trivial

/-- On a truthful disk a stamp is made only where no receipt is, for the world leaves the directory
alone. -/
theorem safe_stamp (hnone : truthful → world.receipts epoch = none) (root : Digest) :
    Safe (around worker truthful start) (fun _ _ ↦ True) world (stamp epoch root) := by
  intro later hlater
  refine ⟨trivial, ?_⟩
  rintro (reason | _) after hafter
  · exact safe_done _
  · intro last hlast
    refine ⟨?_, ?_⟩
    · have hkept := (receipts_of_moves hlast).1
      have hbefore := (receipts_of_moves hlater).1
      rw [show after = later from hafter] at hkept
      intro htruthful
      rw [hkept, hbefore, hnone htruthful]
    · rintro (reason | output) final -
      · exact safe_done _
      · dsimp only [andThen]
        split_ifs
        · exact safe_done _
        · exact safe_done _

include hsystem hrents in
/-- A root is stamped only when its receipt was looked for and not found. -/
theorem safe_submit (hsound : Sound worker start world) (root : Digest) :
    Safe (around worker truthful start) (fun _ _ ↦ True) world (submit worker epoch root) := by
  refine safe_bind (safe_of_quiet hsystem hrents checkVersion_quiet stable_true hsound trivial) ?_
  rintro (failure | pinned) later ⟨hlater, -⟩
  · exact safe_done _
  · intro created hcreated
    refine ⟨trivial, ?_⟩
    rintro (reason | _) after hafter
    · exact safe_done _
    · intro looked hlooked
      refine ⟨trivial, fun there final hfinal ↦ ?_⟩
      obtain ⟨rfl, -, hthere⟩ := hfinal
      have hsound : Sound worker start final := by
        rw [show after = created from hafter] at hlooked
        exact sound_of_moves hsystem hrents
          (sound_of_moves hsystem hrents hlater hcreated) hlooked
      show Safe (around worker truthful start) (fun _ _ ↦ True) final
        (if there then submitAgain worker epoch root else stamp epoch root)
      split_ifs with htrue
      · exact (safe_of_quiet hsystem hrents (submitAgain_quiet root) stable_true hsound
          trivial).mono fun _ _ _ ↦ trivial
      · refine safe_stamp (fun htruthful ↦ ?_) root
        exact Option.not_isSome_iff_eq_none.mp fun hsome ↦ htrue (hthere htruthful hsome)

include hsystem hrents in
theorem safe_performSubmit (hsound : Sound worker start world) (failures : UInt32) :
    Safe (around worker truthful start) (fun _ _ ↦ True) world
      (performSubmit worker epoch failures) := by
  refine safe_bind (safe_of_quiet hsystem hrents rootFor_quiet stable_true hsound trivial) ?_
  rintro (failure | root) later ⟨hlater, -⟩
  · exact safe_done _
  · refine safe_bind (safe_submit hsystem hrents hlater root) ?_
    rintro (failure | _) last -
    · exact safe_done _
    · exact safe_done _

/-! ### Attaching -/

include hsystem hrents in
/-- The root that is read of an epoch is the one on chain. -/
theorem safe_rootForEpoch (hstable : Stable Holds) (hsound : Sound worker start world)
    (hholds : Holds world) (address : Pubkey) :
    Safe (around worker truthful start) (fun later result ↦
        (Sound worker start later ∧ Holds later) ∧
          ∀ published, result = .ok (.placed published) →
            RootOnChain later.ledger epoch published.root) world
      (ofCluster (rootForEpoch address epoch)) := by
  intro later hlater
  have hmoved := sound_of_moves hsystem hrents hsound hlater
  have hkept := hstable world later (later_of_moves hsystem hrents hsound hlater) hholds
  refine ⟨trivial, ?_⟩
  rintro (reason | seen) after ⟨rfl, hseen⟩
  · intro last hlast
    refine ⟨⟨sound_of_moves hsystem hrents hmoved hlast,
      hstable after last (later_of_moves hsystem hrents hmoved hlast) hkept⟩, ?_⟩
    rintro published ⟨⟩
  · intro last hlast
    have hafter := later_of_moves hsystem hrents hmoved hlast
    refine ⟨⟨sound_of_moves hsystem hrents hmoved hlast, hstable after last hafter hkept⟩, ?_⟩
    intro published hplaced
    have hfetched : fetched epoch seen.account = .placed published := Except.ok.inj hplaced
    rw [hseen seen rfl] at hfetched
    exact (rootOnChain_of_fetched hfetched).preserved hafter.ledger

/-- Attaching with a message is allowed, whatever it is signed for. -/
def AttachableMessage (worker : Worker) (message : AttachMessage) (world : World) : Prop :=
  ∀ blockhash, Attachable worker world ⟨message, blockhash⟩

theorem stable_attachableMessage (message : AttachMessage) :
    Stable (AttachableMessage worker message) :=
  fun _ _ hlater hattachable blockhash ↦ (hattachable blockhash).later hlater

theorem getLatestBlockhash_atMost : AtMost Submits 0 getLatestBlockhash :=
  .inl ⟨id, fun _ ↦ trivial⟩

include hsystem hrents in
theorem safe_sendAttach (hsound : Sound worker start world) {message : AttachMessage}
    (hattachable : AttachableMessage worker message world) :
    Safe (around worker truthful start) (fun _ _ ↦ True) world (sendAttach message) := by
  refine safe_bind (safe_of_quiet hsystem hrents (ofCluster_quiet getLatestBlockhash_atMost)
    (stable_attachableMessage message) hsound hattachable) ?_
  rintro (reason | blockhash) later ⟨hlater, hkept⟩
  · exact safe_done _
  · intro signed hsigned
    refine ⟨trivial, ?_⟩
    rintro (reason | _) after hafter
    · exact safe_done _
    · intro last hlast
      rw [show after = signed from hafter] at hlast
      have hmoved := later_of_moves hsystem hrents hlater (hsigned.trans hlast)
      refine ⟨stable_attachableMessage message later last hmoved hkept blockhash, ?_⟩
      rintro (reason | signature) final -
      · exact safe_done _
      · exact safe_done _

include hsystem hrents in
/-- A receipt from the directory is attached only after it was verified against the root on
chain. -/
theorem safe_attach (hsound : Sound worker start world) {receipt : List UInt8}
    (hwrote : (epoch, receipt) ∈ world.wrote) :
    Safe (around worker truthful start) (fun _ _ ↦ True) world (attach worker epoch receipt) := by
  have hstable : Stable fun later ↦ (epoch, receipt) ∈ later.wrote :=
    fun _ _ hlater hentry ↦ hlater.wrote hentry
  unfold attach
  split
  · refine safe_bind (safe_rootForEpoch hsystem hrents hstable hsound hwrote _) ?_
    rintro (reason | published | reason | _) later ⟨⟨hlater, hentry⟩, hroot⟩
    · exact safe_done _
    · dsimp only
      split
      · exact safe_done _
      · next claim hclaim =>
        split
        · exact safe_done _
        · next digest hdigest =>
          refine safe_bind (safe_sendAttach hsystem hrents hlater fun blockhash ↦
            ⟨published.root, hroot published rfl, receipt, claim, hentry, hclaim, hdigest⟩) ?_
          rintro (refused | _) last -
          · exact safe_done _
          · exact safe_done _
    · exact safe_done _
    · exact safe_done _
  · exact safe_done _

include hsystem hrents in
theorem safe_performAttachment (hsound : Sound worker start world) (failures : UInt32) :
    Safe (around worker truthful start) (fun _ _ ↦ True) world
      (performAttachment worker epoch failures) := by
  intro later hlater
  have hmoved := sound_of_moves hsystem hrents hsound hlater
  refine ⟨trivial, ?_⟩
  rintro (reason | receipt) after ⟨rfl, hread⟩
  · exact safe_done _
  · refine safe_bind (safe_attach hsystem hrents hmoved
      (hmoved.held epoch receipt (hread receipt rfl))) ?_
    rintro (_ | (_ | _ | _ | _ | _) | attached) last -
    · exact safe_done _
    · exact safe_done _
    · exact safe_done _
    · exact safe_done _
    · exact safe_done _
    · exact safe_done _
    · exact safe_done _

include hsystem hrents in
theorem safe_performAttach (hsound : Sound worker start world) (failures : UInt32) :
    Safe (around worker truthful start) (fun _ _ ↦ True) world
      (performAttach worker epoch failures) := by
  refine safe_bind (safe_of_quiet hsystem hrents rootFor_quiet stable_true hsound trivial) ?_
  rintro (failure | root) later ⟨hlater, -⟩
  · exact safe_done _
  · intro looked hlooked
    refine ⟨trivial, ?_⟩
    rintro there after ⟨rfl, -⟩
    have hsound := sound_of_moves hsystem hrents hlater hlooked
    cases there with
    | false => exact safe_done _
    | true =>
      refine safe_bind (safe_of_quiet hsystem hrents (upgrade_quiet root) stable_true hsound
        trivial) ?_
      rintro (failure | _ | digest) last ⟨hlast, -⟩
      · exact safe_done _
      · exact safe_done _
      · exact safe_performAttachment hsystem hrents hlast failures

include hsystem hrents in
/-- Every step is performed safely, a publication while every earlier epoch is attached. -/
theorem safe_perform (hsound : Sound worker start world) (failures : UInt32) {step : Step}
    (hpublish : ∀ epoch, step = .publish epoch → AttachedBefore start epoch world) :
    Safe (around worker truthful start) (fun _ _ ↦ True) world (perform worker failures step) := by
  cases step with
  | refuse refusal => exact safe_done _
  | wait untilTime => exact safe_done _
  | publish epoch => exact safe_performPublish hsystem hrents hsound (hpublish epoch rfl) failures
  | submit epoch => exact safe_performSubmit hsystem hrents hsound failures
  | attach epoch => exact safe_performAttach hsystem hrents hsound failures

end Actions

end AnchoredLog.Client.WorkerActions
