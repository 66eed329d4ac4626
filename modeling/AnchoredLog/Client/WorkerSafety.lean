import AnchoredLog.Client.WorkerActions
import AnchoredLog.Client.WorkerObservation
import AnchoredLog.Client.WorkerRetry

/-!
# The worker over whole runs

The worker's cycles in a world that moves. A process observes, decides and performs one step, one
request after the other; it may stop between any two of them, at the end of a cycle or by a crash,
and starts again by observing. Nothing but the world is carried from one process to the next.

`Invariant` adds to the soundness of the world what is left of the running program: it is safe in
the world it is in. It is kept by every transition, and `worker_cycle_safe` reads off it what a run
never does. Where a test for a receipt may fail, a run is still `Orderly`, but an epoch may be
stamped again whose receipt is there; where none does it is `CycleSafe`.
-/

set_option autoImplicit false
set_option relaxedAutoImplicit false

namespace AnchoredLog.Client.WorkerSafety

open Library.ByteCodec Library.Fallible Library.Interactions Library.SharedWorld
open Program.AccountLayouts Program.ChainRuntime Program.Checkpoint Program.LogInvariant
open Program.LogSafety Program.Balances PublishNetwork Fetch Worker Observe Receipts Handoffs
open WorkerCycle WorkerLog WorkerWorld WorkerActions WorkerObservation WorkerRetry
open Publish hiding Request Answer Dialogue

/-! ### Processes -/

/-- Where the process is: not running, observing, or performing the step it decided on. -/
inductive Process
  | idle
  | observing (inquiry : Dialogue (Except ObserveFailed Observed))
  | performing (step : Step) (program : Dialogue CycleResult)

/-- The world and the one process of the worker. -/
structure System where
  world : World
  process : Process

/-- The system before the first process. -/
def System.start (initial : Ledger) : System where
  world := World.start initial
  process := .idle

/-- One effect of the world or of the process. The process goes through `cycle`, whose observation
and whose step are two programs here, and starts from nothing after it stopped or crashed. On a
`truthful` disk the tests for receipts do not fail. -/
inductive Transition (worker : Worker) (truthful : Prop) : System → System → Prop
  | moves {world after : World} {process : Process} (hmoves : Moves worker world after) :
      Transition worker truthful ⟨world, process⟩ ⟨after, process⟩
  | stops {world : World} {process : Process} :
      Transition worker truthful ⟨world, process⟩ ⟨world, .idle⟩
  | begins {world : World} {now : Int64} {today : UInt64} (hday : dayIndex now = some today) :
      Transition worker truthful ⟨world, .idle⟩ ⟨world, .observing (look worker now today)⟩
  | looks {world after : World} {asked : Request}
      {next : Answer asked → Dialogue (Except ObserveFailed Observed)} (answer : Answer asked)
      (heffect : Effect worker truthful world asked answer after) :
      Transition worker truthful ⟨world, .observing (.ask asked next)⟩
        ⟨after, .observing (next answer)⟩
  | decides {world : World} {observed : Observed} :
      Transition worker truthful ⟨world, .observing (.done (.ok observed))⟩
        ⟨world, .performing (nextStepWithPolicy worker.schedule observed worker.policy)
          (perform worker 0 (nextStepWithPolicy worker.schedule observed worker.policy))⟩
  | acts {world after : World} {step : Step} {asked : Request}
      {next : Answer asked → Dialogue CycleResult} (answer : Answer asked)
      (heffect : Effect worker truthful world asked answer after) :
      Transition worker truthful ⟨world, .performing step (.ask asked next)⟩
        ⟨after, .performing step (next answer)⟩

/-! ### The invariant -/

/-- What is left of a running program is safe in the world it is in. -/
def Process.Sound (worker : Worker) (truthful : Prop) (start : UInt64) (world : World) :
    Process → Prop
  | .idle => True
  | .observing inquiry => Safe (around worker truthful start) (fun later result ↦
      WorkerWorld.Sound worker start later ∧
        ∀ observed, result = .ok observed → Seen truthful start later observed) world inquiry
  | .performing _ program => Safe (around worker truthful start) (fun _ _ ↦ True) world program

/-- What holds of the system in every reachable state. -/
structure Invariant (worker : Worker) (truthful : Prop) (start : UInt64) (system : System) :
    Prop where
  world : Sound worker start system.world
  process : system.process.Sound worker truthful start system.world

variable {worker : Worker} {truthful : Prop} {start : UInt64} {system before after : System}

theorem sound_start {initial : Ledger} {address : Pubkey} {config : LogConfig}
    (hlog : OwnLog worker.chain worker.authority start initial address config)
    (hfirst : start.toNat = config.lastEpoch.toNat + 1) :
    Sound worker start (World.start initial) := by
  have hnone (epoch : UInt64) : ¬ IsPublished initial epoch := by
    intro hpublished
    obtain ⟨hlow, hhigh⟩ := hlog.isPublished_iff.mp hpublished
    have hlower := UInt64.le_iff_toNat_le.mp hlow
    have hupper := UInt64.le_iff_toNat_le.mp hhigh
    omega
  refine ⟨⟨address, config, hlog, hfirst⟩, rfl, fun epoch hpublished ↦ ?_, fun signed hsent ↦ ?_,
    fun signed hsent ↦ ?_, List.nodup_nil, fun epoch ↦ ?_, fun place checkpoint hread _ ↦ ?_, ?_,
    fun entry hentry ↦ ?_⟩
  · exact absurd hpublished (hnone epoch)
  · exact absurd hsent List.not_mem_nil
  · exact absurd hsent List.not_mem_nil
  · exact iff_of_false List.not_mem_nil fun hattached ↦ hnone epoch hattached.isPublished
  · exact absurd ⟨place, checkpoint, hread, rfl⟩ (hnone checkpoint.epoch)
  · rintro epoch receipt ⟨⟩
  · exact absurd hentry List.not_mem_nil

/-- A program that may have been interrupted by the world is as safe as before. -/
theorem Process.Sound.moves {world later : World} {process : Process}
    (hprocess : process.Sound worker truthful start world) (hmoves : Moves worker world later) :
    process.Sound worker truthful start later := by
  have hlater : Relation.ReflTransGen (Moves worker) world later := .single hmoves
  cases process with
  | idle => trivial
  | observing inquiry => exact safe_of_moves hprocess hlater
  | performing step program => exact safe_of_moves hprocess hlater

theorem invariant_transition (hsystem : worker.chain.system.Documented)
    (hrents : Rents worker.chain) (hinvariant : Invariant worker truthful start before)
    (htransition : Transition worker truthful before after) :
    Invariant worker truthful start after := by
  obtain ⟨hworld, hprocess⟩ := hinvariant
  cases htransition with
  | moves hmoves =>
    exact ⟨sound_of_moves hsystem hrents hworld (.single hmoves), hprocess.moves hmoves⟩
  | stops => exact ⟨hworld, trivial⟩
  | begins hday => exact ⟨hworld, safe_look hsystem hrents hworld _ _⟩
  | looks answer heffect =>
    obtain ⟨hallowed, hnext⟩ := hprocess _ .refl
    exact ⟨sound_of_effect hworld hallowed heffect, hnext answer _ heffect⟩
  | @decides world observed =>
    have hseen := (hprocess world .refl).2 observed rfl
    refine ⟨hworld, safe_perform hsystem hrents hworld 0 ?_⟩
    intro epoch hpublish earlier hfirst hless
    exact hseen.attachedBefore hworld hpublish hfirst hless
  | acts answer heffect =>
    obtain ⟨hallowed, hnext⟩ := hprocess _ .refl
    exact ⟨sound_of_effect hworld hallowed heffect, hnext answer _ heffect⟩

/-- The invariant holds in every state a run reaches. -/
theorem invariant_of_reachable (hsystem : worker.chain.system.Documented)
    (hrents : Rents worker.chain) (hbefore : Invariant worker truthful start before)
    (hreachable : Relation.ReflTransGen (Transition worker truthful) before system) :
    Invariant worker truthful start system := by
  induction hreachable with
  | refl => exact hbefore
  | tail _ htransition ih => exact invariant_transition hsystem hrents ih htransition

/-! ### What a run never does -/

/-- The process decides on a step. -/
def Decides (worker : Worker) (system : System) (step : Step) : Prop :=
  ∃ observed, system.process = .observing (.done (.ok observed)) ∧
    nextStepWithPolicy worker.schedule observed worker.policy = step

/-- The process performs a step and asks a request next. -/
def Asks (system : System) (asked : Request) : Prop :=
  ∃ step next, system.process = .performing step (.ask asked next)

/-- What holds of the worker's runs in every state, whatever its tests for receipts answer. -/
structure Orderly (worker : Worker) (start : UInt64) (system : System) : Prop where
  /-- The publications that landed are of one epoch after the other, from the first. -/
  contiguous : system.world.published.map UInt64.toNat =
    List.range' start.toNat system.world.published.length
  published : ∀ epoch, epoch ∈ system.world.published ↔ IsPublished system.world.ledger epoch
  /-- A publication is decided on when every earlier epoch of the log is attached. -/
  publishes : ∀ epoch, Decides worker system (.publish epoch) → ∀ earlier, start ≤ earlier →
    earlier < epoch → IsAttached system.world.ledger earlier
  /-- An epoch is attached once. -/
  once : system.world.attached.Nodup
  attached : ∀ epoch, epoch ∈ system.world.attached ↔ IsAttached system.world.ledger epoch
  /-- An epoch is chosen for attachment, and its attachment is sent, when its receipt is there. -/
  attaches : ∀ epoch, Decides worker system (.attach epoch) ∨
      (∃ signed, Asks system (.sendAttachment signed) ∧ signed.message.epoch = epoch) →
    (system.world.receipts epoch).isSome
  /-- What is attached is a receipt of the epoch, from the directory, that verifies against the root
  on chain and carries a Bitcoin attestation. -/
  verified : ∀ address checkpoint,
    readCheckpoint system.world.ledger address = some checkpoint →
    checkpoint.receiptDigest ≠ noReceipt → (system.world.receipts checkpoint.epoch).isSome ∧
      Verified worker system.world checkpoint.epoch checkpoint.root checkpoint.receiptDigest
  /-- The worker never refuses its observation as contradicting itself. -/
  consistent : ∀ refusal, Decides worker system (.refuse refusal) → ¬ Contradicts refusal

/-- What is wanted of the worker's runs in every state. -/
structure CycleSafe (worker : Worker) (start : UInt64) (system : System) : Prop extends
    Orderly worker start system where
  /-- An epoch whose receipt is there is neither chosen for submission nor stamped. -/
  submits : ∀ epoch, Decides worker system (.submit epoch) ∨ Asks system (.runOts (.stamp epoch)) →
    system.world.receipts epoch = none

theorem mem_published_iff {world : World} (hsound : Sound worker start world) {epoch : UInt64} :
    epoch ∈ world.published ↔ IsPublished world.ledger epoch := by
  obtain ⟨address, config, hlog, hcount⟩ := hsound.log
  have hmem : epoch ∈ world.published ↔
      epoch.toNat ∈ world.published.map UInt64.toNat := by
    rw [List.mem_map]
    constructor
    · exact fun hepoch ↦ ⟨epoch, hepoch, rfl⟩
    · rintro ⟨other, hother, hsame⟩
      rwa [← UInt64.toNat_inj.mp hsame]
  rw [hmem, hsound.contiguous, List.mem_range'_1, hlog.isPublished_iff, UInt64.le_iff_toNat_le,
    UInt64.le_iff_toNat_le]
  omega

theorem Verified.there {world : World} (hsound : Sound worker start world) {epoch : UInt64}
    {root : Octets 32} {digest : Octets 32} (hverified : Verified worker world epoch root digest) :
    (world.receipts epoch).isSome := by
  obtain ⟨receipt, claim, hwrote, -⟩ := hverified
  exact hsound.kept (epoch, receipt) hwrote

/-- What is decided on follows from an observation that is true of the world. -/
theorem Invariant.seen (hinvariant : Invariant worker truthful start system) {step : Step}
    (hdecides : Decides worker system step) : ∃ observed,
      Seen truthful start system.world observed ∧
        nextStepWithPolicy worker.schedule observed worker.policy = step := by
  obtain ⟨world, process⟩ := system
  obtain ⟨observed, hobserving, hstep⟩ := hdecides
  dsimp only at hobserving
  subst hobserving
  exact ⟨observed, (hinvariant.process world .refl).2 observed rfl, hstep⟩

/-- What is asked next is allowed. -/
theorem Invariant.allowed (hinvariant : Invariant worker truthful start system) {asked : Request}
    (hasks : Asks system asked) : Allowed worker truthful start system.world asked := by
  obtain ⟨world, process⟩ := system
  obtain ⟨step, next, hperforming⟩ := hasks
  dsimp only at hperforming
  subst hperforming
  exact (hinvariant.process world .refl).1

theorem Invariant.orderly (hinvariant : Invariant worker truthful start system) :
    Orderly worker start system := by
  have hsound := hinvariant.world
  refine ⟨hsound.contiguous, fun epoch ↦ mem_published_iff hsound, ?_, hsound.once,
    hsound.attached, ?_, ?_, ?_⟩
  · intro epoch hdecides earlier hfirst hless
    obtain ⟨observed, hobserved, hstep⟩ := hinvariant.seen hdecides
    exact hobserved.attachedBefore hsound hstep hfirst hless
  · rintro epoch (hdecides | ⟨signed, hasks, rfl⟩)
    · obtain ⟨observed, hobserved, hstep⟩ := hinvariant.seen hdecides
      exact hobserved.there hstep
    · obtain ⟨root, -, hverified⟩ := hinvariant.allowed hasks
      exact Verified.there hsound hverified
  · intro address checkpoint hread hreceipt
    have hverified := hsound.verified address checkpoint hread hreceipt
    exact ⟨Verified.there hsound hverified, hverified⟩
  · intro refusal hdecides
    obtain ⟨observed, hobserved, hstep⟩ := hinvariant.seen hdecides
    exact hobserved.not_contradicts hstep

theorem Invariant.cycleSafe (htruthful : truthful)
    (hinvariant : Invariant worker truthful start system) : CycleSafe worker start system := by
  refine ⟨hinvariant.orderly, ?_⟩
  rintro epoch (hdecides | hasks)
  · obtain ⟨observed, hobserved, hstep⟩ := hinvariant.seen hdecides
    exact hobserved.not_there htruthful hstep
  · exact hinvariant.allowed hasks htruthful

/-- The invariant holds of every state a run reaches from a log that was just initialised. -/
theorem invariant_of_initialized {context : Context} {accounts : InitializeAccounts}
    {treeHeight : UInt8} {before initial : Ledger} (hsystem : worker.chain.system.Documented)
    (hrents : Rents worker.chain) (hunstarted : Unstarted before)
    (hinitialized : initializeLog worker.chain context accounts worker.authority treeHeight start
      before = .ok initial)
    (hreachable : Relation.ReflTransGen (Transition worker truthful) (System.start initial)
      system) : Invariant worker truthful start system := by
  obtain ⟨address, config, hlog, hfirst⟩ :=
    ownLog_of_initializeLog hsystem hrents hunstarted hinitialized
  have hstart : Invariant worker truthful start (System.start initial) :=
    ⟨sound_start hlog hfirst, trivial⟩
  exact invariant_of_reachable hsystem hrents hstart hreachable

/-- Whatever fails, is lost or crashes: from a log that was just initialised and an empty receipts
directory, the worker publishes the epochs in their order, each once and each after the earlier ones
were attached, and attaches each once, with a verified receipt. Where no test for a receipt fails,
it submits no epoch whose receipt is there. -/
theorem worker_cycle_safe (worker : Worker) (hsystem : worker.chain.system.Documented)
    (hrents : Rents worker.chain) (context : Context) (accounts : InitializeAccounts)
    (treeHeight : UInt8) (start : UInt64) (before initial : Ledger) (hunstarted : Unstarted before)
    (hinitialized : initializeLog worker.chain context accounts worker.authority treeHeight start
      before = .ok initial) :
    (∀ system, Relation.ReflTransGen (Transition worker False) (System.start initial) system →
      Orderly worker start system) ∧
    (∀ system, Relation.ReflTransGen (Transition worker True) (System.start initial) system →
      CycleSafe worker start system) :=
  ⟨fun _ hreachable ↦
      (invariant_of_initialized hsystem hrents hunstarted hinitialized hreachable).orderly,
    fun _ hreachable ↦
      (invariant_of_initialized hsystem hrents hunstarted hinitialized hreachable).cycleSafe
        trivial⟩

/-! ### Runs that are played -/

/-- One way in which every request of a run is answered and changes the world. -/
structure Script (worker : Worker) (truthful : Prop) where
  answers : World → (asked : Request) → Answer asked
  changes : World → Request → World
  effect : ∀ world asked,
    Effect worker truthful world asked (answers world asked) (changes world asked)

namespace Script

variable (script : Script worker truthful)

theorem looks_play (world : World) (inquiry : Dialogue (Except ObserveFailed Observed)) :
    Relation.ReflTransGen (Transition worker truthful) ⟨world, .observing inquiry⟩
      ⟨(play script.answers script.changes world inquiry).1,
        .observing (.done (play script.answers script.changes world inquiry).2)⟩ := by
  induction inquiry generalizing world with
  | done output => exact .refl
  | ask asked next ih =>
    exact .head (.looks (script.answers world asked) (script.effect world asked)) (ih _ _)

theorem acts_playFor (count : ℕ) (world : World) (step : Step) (program : Dialogue CycleResult) :
    Relation.ReflTransGen (Transition worker truthful) ⟨world, .performing step program⟩
      ⟨(playFor script.answers script.changes count world program).1,
        .performing step (playFor script.answers script.changes count world program).2⟩ := by
  induction program generalizing count world with
  | done output => cases count <;> exact .refl
  | ask asked next ih =>
    cases count with
    | zero => exact .refl
    | succ count =>
      exact .head (.acts (script.answers world asked) (script.effect world asked)) (ih _ _ _)

/-- Where a process is that started at some time, after its observation and a number of requests of
its step. -/
def acted (now : Int64) (today : UInt64) (count : ℕ) (world : World) : System :=
  let seen := play script.answers script.changes world (look worker now today)
  match seen.2 with
  | .ok observed =>
    let step := nextStepWithPolicy worker.schedule observed worker.policy
    let left := playFor script.answers script.changes count seen.1 (perform worker 0 step)
    ⟨left.1, .performing step left.2⟩
  | .error failure => ⟨seen.1, .observing (.done (.error failure))⟩

theorem reachable_acted {now : Int64} {today : UInt64} (hday : dayIndex now = some today)
    (count : ℕ) (world : World) :
    Relation.ReflTransGen (Transition worker truthful) ⟨world, .idle⟩
      (script.acted now today count world) := by
  have hbegun : Relation.ReflTransGen (Transition worker truthful) ⟨world, .idle⟩
      ⟨world, .observing (look worker now today)⟩ :=
    .single (.begins hday)
  have hlooked := hbegun.trans (script.looks_play world _)
  rw [acted]
  cases hseen : (play script.answers script.changes world (look worker now today)).2 with
  | error failure =>
    rw [hseen] at hlooked
    exact hlooked
  | ok observed =>
    rw [hseen] at hlooked
    exact (hlooked.tail .decides).trans (script.acts_playFor count _ _ _)

/-- The world after the last publication that was sent landed, where it can. -/
def landsPublication (worker : Worker) (clock : Clock) (world : World) : World :=
  match world.sentPublications.head? with
  | none => world
  | some signed =>
    match execute worker.chain (transactionOf signed clock) world.ledger with
    | .ok reached =>
      { world with ledger := reached, published := world.published ++ [signed.message.epoch] }
    | .error _ => world

theorem moves_landsPublication (clock : Clock) (world : World) :
    Relation.ReflTransGen (Moves worker) world (landsPublication worker clock world) := by
  unfold landsPublication
  split
  · exact .refl
  · next signed hsigned =>
    split
    · next reached hrun => exact .single (.publishes (List.mem_of_head? hsigned) hrun)
    · exact .refl

/-- The world after the last attachment that was sent landed, where it can. -/
def landsAttachment (worker : Worker) (clock : Clock) (world : World) : World :=
  match world.sentAttachments.head? with
  | none => world
  | some signed =>
    match execute worker.chain (attachmentOf signed clock) world.ledger with
    | .ok reached =>
      { world with ledger := reached, attached := world.attached ++ [signed.message.epoch] }
    | .error _ => world

theorem moves_landsAttachment (clock : Clock) (world : World) :
    Relation.ReflTransGen (Moves worker) world (landsAttachment worker clock world) := by
  unfold landsAttachment
  split
  · exact .refl
  · next signed hsigned =>
    split
    · next reached hrun => exact .single (.attaches (List.mem_of_head? hsigned) hrun)
    · exact .refl

/-- The world after a process that stopped, once what it sent has landed. -/
def turn (now : Int64) (today : UInt64) (count : ℕ) (world : World) : World :=
  landsAttachment worker ⟨0, now⟩
    (landsPublication worker ⟨0, now⟩ (script.acted now today count world).world)

theorem reachable_turn {now : Int64} {today : UInt64} (hday : dayIndex now = some today)
    (count : ℕ) (world : World) :
    Relation.ReflTransGen (Transition worker truthful) ⟨world, .idle⟩
      ⟨script.turn now today count world, .idle⟩ := by
  have hmoves := (moves_landsPublication ⟨0, now⟩ _).trans (moves_landsAttachment ⟨0, now⟩
    (landsPublication worker ⟨0, now⟩ (script.acted now today count world).world))
  have hlanded := hmoves.lift (fun later ↦
    (⟨later, (script.acted now today count world).process⟩ : System)) fun _ _ ↦
      @Transition.moves worker truthful _ _ _
  exact ((script.reachable_acted hday count world).trans hlanded).tail .stops

end Script

/-- A receipt as it is stamped. -/
def pendingReceipt : List UInt8 :=
  [0]

/-- A receipt as it is upgraded. -/
def upgradedReceipt : List UInt8 :=
  [1]

/-- Everything succeeds and the hand-offs are given, but a test for a receipt may fail to find
one. -/
def openAnswers (worker : Worker) (handoff : UInt64 → Handoff) (finds : Bool) (world : World) :
    (asked : Request) → Answer asked
  | .observe (.accountsAt addresses) => .ok ⟨none, addresses.map (accountOf world.ledger)⟩
  | .observe (.status epoch) => .ok (statusOf (fetched epoch
      (accountOf world.ledger ((addressesOf worker.chain).checkpoint epoch))))
  | .observe (.receiptExists epoch) => finds && (world.receipts epoch).isSome
  | .cluster .latestBlockhash => .ok (Octets.zeros 32)
  | .cluster (.trySign _ _) => .ok ()
  | .cluster (.sendAndConfirm _) => .ok (Octets.zeros 64)
  | .cluster (.account address) => .ok ⟨none, accountOf world.ledger address⟩
  | .cluster (.signaturesForAddress _) => .error "timed out"
  | .cluster (.signatureStatuses _) => .error "timed out"
  | .trySignAttachment _ _ => .ok ()
  | .sendAttachment _ => .ok (Octets.zeros 64)
  | .runOts .version => .ok ⟨true, pinnedReport⟩
  | .runOts _ => .ok ⟨true, []⟩
  | .createReceipts => .ok ()
  | .writeStamped _ _ => .ok ()
  | .readStamped _ => .error "no such file"
  | .readReceipt epoch => (world.receipts epoch).elim (.error "no such file") .ok
  | .readHandoff epoch => .ok (HandoffCodec.encode (handoff epoch)).octets

/-- A stamp writes a receipt that is pending, and an upgrade makes one of it that is not. -/
def openChanges (handoff : UInt64 → Handoff) (world : World) : Request → World
  | .cluster (.sendAndConfirm signed) => world.sendsPublication signed
  | .sendAttachment signed => world.sendsAttachment signed
  | .runOts (.stamp epoch) => world.writes epoch pendingReceipt
  | .runOts (.upgrade epoch) =>
    if (world.receipts epoch).isSome then world.writes epoch upgradedReceipt else world
  | .readHandoff epoch =>
    world.readsHandoff epoch (.ok (HandoffCodec.encode (handoff epoch)).octets)
  | _ => world

theorem effect_open (worker : Worker) (handoff : UInt64 → Handoff) {finds : Bool}
    {truthful : Prop} (hfinds : truthful → finds = true) (world : World) (asked : Request) :
    Effect worker truthful world asked (openAnswers worker handoff finds world asked)
      (openChanges handoff world asked) := by
  cases asked with
  | observe question =>
    cases question with
    | accountsAt addresses =>
      refine ⟨rfl, ?_⟩
      rintro view ⟨⟩
      rfl
    | status epoch =>
      refine ⟨rfl, ?_⟩
      rintro status ⟨⟩
      rfl
    | receiptExists epoch =>
      refine ⟨rfl, fun hfound ↦ (Bool.and_eq_true_iff.mp hfound).2, fun htruthful hthere ↦ ?_⟩
      exact Bool.and_eq_true_iff.mpr ⟨hfinds htruthful, hthere⟩
  | cluster asked =>
    cases asked with
    | account address =>
      refine ⟨rfl, ?_⟩
      rintro seen ⟨⟩
      rfl
    | _ => rfl
  | runOts command =>
    cases command with
    | version => rfl
    | stamp epoch => exact .inr ⟨pendingReceipt, rfl⟩
    | upgrade epoch =>
      by_cases hthere : (world.receipts epoch).isSome
      · exact .inr ⟨upgradedReceipt, hthere, if_pos hthere⟩
      · exact .inl (if_neg hthere)
  | readReceipt epoch =>
    refine ⟨rfl, fun receipt hread ↦ ?_⟩
    cases hheld : world.receipts epoch with
    | none =>
      simp only [openAnswers, hheld] at hread
      cases hread
    | some held =>
      simp only [openAnswers, hheld] at hread
      cases hread
      rfl
  | _ => rfl

/-- The script of an environment that does everything it is asked. -/
def openScript (worker : Worker) (handoff : UInt64 → Handoff) (finds : Bool) {truthful : Prop}
    (hfinds : truthful → finds = true) : Script worker truthful where
  answers := openAnswers worker handoff finds
  changes := openChanges handoff
  effect := effect_open worker handoff hfinds

/-- A worker that finds a Bitcoin attestation in a receipt that was upgraded. -/
def attestingWorker : Worker :=
  { deployedWorker with
    receiptFormat :=
      { parse := fun receipt ↦ .ok ⟨List.replicate 32 0,
          .mk (if receipt = upgradedReceipt then .bitcoin 863000 else .otherAttestation)
            (List.replicate 32 1) []⟩
        sha256 := fun _ ↦ Octets.zeros 32 } }

/-- The hand-offs it is given. -/
def zeroHandoff (epoch : UInt64) : Handoff :=
  ⟨epoch, 10, Octets.zeros 32, Octets.zeros 32, Octets.zeros 64⟩

/-- The log it is started on. -/
def startedLedger : Ledger :=
  advance plainChain fundedLedger oneStart

theorem initializeLog_startedLedger : initializeLog plainChain ⟨[operator], ⟨5, 1728000000⟩⟩
    ⟨oneMessage.accounts.config, operator, systemProgramId⟩ operator 10 20000 fundedLedger =
      .ok startedLedger := by
  have hruns : (execute plainChain oneStart fundedLedger).isOk = true := by
    decide +kernel
  obtain ⟨reached, hrun⟩ := exists_eq_ok_of_isOk hruns
  rw [startedLedger, advance, hrun]
  exact hrun

/-- A day on which the first epoch is published. -/
def firstDay : Int64 :=
  1728090000

/-- The world after a number of processes that are all given what they ask for. -/
def played (finds : Bool) (count : ℕ) : World :=
  ((openScript attestingWorker zeroHandoff finds id).turn firstDay 20001 100)^[count]
    (World.start startedLedger)

theorem reachable_played (finds : Bool) (count : ℕ) :
    Relation.ReflTransGen (Transition attestingWorker (finds = true))
      (System.start startedLedger) ⟨played finds count, .idle⟩ := by
  induction count with
  | zero => exact .refl
  | succ count ih =>
    rw [played, Function.iterate_succ_apply']
    exact ih.trans (Script.reachable_turn _ (by decide) 100 _)

/-- On a disk that can be read, the first process publishes an epoch, the second stamps it and the
third attaches its receipt. -/
theorem worker_cycle_safe_attached : ∃ system,
    Relation.ReflTransGen (Transition attestingWorker True) (System.start startedLedger) system ∧
      system.world.published = [20000] ∧ system.world.wrote.length = 2 ∧
      system.world.attached = [20000] ∧ CycleSafe attestingWorker 20000 system := by
  have hreachable := reachable_played true 3
  rw [eq_self] at hreachable
  have hsafe := (worker_cycle_safe attestingWorker referenceSystem_documented
    ⟨by decide, by decide⟩ _ _ 10 20000 fundedLedger startedLedger
    (fun _ ↦ programId_ne_systemProgramId.symm) initializeLog_startedLedger).2 _ hreachable
  exact ⟨_, hreachable, by decide +kernel, by decide +kernel, by decide +kernel, hsafe⟩

/-- The epoch a process is about to stamp. -/
def stampNext : Process → Option UInt64
  | .performing _ (.ask (.runOts (.stamp epoch)) _) => some epoch
  | _ => none

theorem asks_of_stampNext {system : System} {epoch : UInt64}
    (hstamps : stampNext system.process = some epoch) : Asks system (.runOts (.stamp epoch)) := by
  unfold stampNext at hstamps
  split at hstamps
  · next step other next hprocess =>
    obtain rfl := Option.some.inj hstamps
    exact ⟨step, next, hprocess⟩
  · cases hstamps

/-- On a disk that cannot be read, the third process is about to stamp the epoch again, whose
receipt is there. -/
theorem not_cycleSafe_resubmission : ∃ system,
    Relation.ReflTransGen (Transition attestingWorker False) (System.start startedLedger) system ∧
      (system.world.receipts 20000).isSome ∧ Asks system (.runOts (.stamp 20000)) ∧
      ¬ CycleSafe attestingWorker 20000 system := by
  have hsecond := reachable_played false 2
  rw [Bool.false_eq_true] at hsecond
  have hday : dayIndex firstDay = some 20001 := by decide
  have hthird := hsecond.trans ((openScript attestingWorker zeroHandoff false
    False.elim).reachable_acted hday 5 _)
  have hthere : ((openScript attestingWorker zeroHandoff false False.elim).acted firstDay 20001 5
      (played false 2)).world.receipts 20000 = some pendingReceipt := by
    decide +kernel
  have hasks := asks_of_stampNext (show stampNext ((openScript attestingWorker zeroHandoff false
    False.elim).acted firstDay 20001 5 (played false 2)).process = some 20000 by decide +kernel)
  refine ⟨_, hthird, ?_, hasks, fun hsafe ↦ ?_⟩
  · rw [hthere]
    rfl
  · have hnone := hsafe.submits 20000 (.inr hasks)
    rw [hthere] at hnone
    cases hnone

end AnchoredLog.Client.WorkerSafety
