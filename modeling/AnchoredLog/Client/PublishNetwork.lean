import AnchoredLog.Client.Publish
import AnchoredLog.Program.LogSafety
import Mathlib.Logic.Relation

/-!
# Publishing loops over a lossy network

Any number of clients publish to one chain. A submission goes into the network and may execute at
any later time, any number of times or never; a response may be lost, so that the client sees a
failure of a submission that landed; a read returns the account of some past ledger; and any other
transaction may execute between any two steps. What is assumed of an answer is `Permitted`: a
submission is confirmed only when it executed on the chain, and an account that is returned is one
of a past ledger.

`Invariant` is kept by every step: a client that is still running succeeds only on evidence, and
whatever is evidence shows its root on the chain that the later ledgers preserve.
-/

set_option autoImplicit false
set_option relaxedAutoImplicit false

namespace AnchoredLog.Client.PublishNetwork

open Library.ByteCodec Library.Interactions Library.Fallible
open Program.AccountLayouts Program.ChainRuntime Program.Checkpoint Program.LogInvariant
open Program.LogSafety Publish

/-! ### The network -/

/-- What a client was asked to publish. -/
structure Task where
  epoch : UInt64
  root : Octets 32
  payer : Pubkey
  authority : Pubkey
  attempts : UInt32

/-- The output of a publication, none where it panicked. -/
abbrev Result : Type :=
  Option (Except PublishFailed AnchorRef)

/-- Where a client is: before its next request, or waiting for the response to a submission. -/
inductive Progress
  | running (program : Dialogue Result)
  | awaiting (signed : SignedTransaction)
      (next : Except String (Octets 64) → Dialogue Result)

/-- A client and the number of its submissions. -/
structure Loop where
  progress : Progress
  submissions : ℕ

/-- The chain, its past, the submissions that were sent and those that landed, and the clients. -/
structure Network (Index : Type) where
  ledger : Ledger
  past : List Ledger
  sent : List SignedTransaction
  landed : List SignedTransaction
  loops : Index → Loop

/-- A submission as the chain runs it at a reading of its clock. -/
def transactionOf (signed : SignedTransaction) (clock : Clock) : Transaction :=
  ⟨⟨[signed.message.accounts.payer, signed.message.accounts.authority], clock⟩,
    .publishCheckpoint signed.message.accounts signed.message.epoch signed.message.root
      signed.message.checkpointBump⟩

/-- The account an endpoint with a ledger returns for an address. -/
def accountOf (ledger : Ledger) (address : Pubkey) : Option (Pubkey × List UInt8) :=
  if (ledger address).lamports = 0 then none else some (contentAt ledger address)

section Network

variable {Index : Type} [DecidableEq Index]

/-- The network in which no client has asked anything yet. -/
def Network.start (format : SignatureFormat) (chain : Chain) (initial : Ledger)
    (tasks : Index → Task) : Network Index where
  ledger := initial
  past := [initial]
  sent := []
  landed := []
  loops := fun index ↦
    ⟨.running (publish format chain (tasks index).epoch (tasks index).root (tasks index).payer
      (tasks index).authority (tasks index).attempts), 0⟩

/-- The network after the chain reached a ledger. -/
def Network.reach (network : Network Index) (reached : Ledger) : Network Index :=
  { network with ledger := reached, past := reached :: network.past }

/-- The network after a submission landed with a ledger. -/
def Network.land (network : Network Index) (signed : SignedTransaction) (reached : Ledger) :
    Network Index :=
  { network.reach reached with landed := signed :: network.landed }

/-- The network after a client submitted. -/
def Network.submit (network : Network Index) (index : Index) (signed : SignedTransaction)
    (next : Except String (Octets 64) → Dialogue Result) : Network Index :=
  { network with
    sent := signed :: network.sent
    loops := Function.update network.loops index
      ⟨.awaiting signed next, (network.loops index).submissions + 1⟩ }

/-- The network after a client got an answer and goes on with a program. -/
def Network.resume (network : Network Index) (index : Index) (program : Dialogue Result) :
    Network Index :=
  { network with
    loops := Function.update network.loops index
      ⟨.running program, (network.loops index).submissions⟩ }

/-- What is assumed of an answer: a confirmation only of what landed, and an account only of a past
ledger. A failure can be answered to anything. -/
def Permitted (network : Network Index) : (asked : Request) → Answer asked → Prop
  | .sendAndConfirm signed, answer => ∀ signature, answer = .ok signature → signed ∈ network.landed
  | .account address, answer => ∀ seen, answer = .ok seen →
      ∃ ledger ∈ network.past, seen.account = accountOf ledger address
  | _, _ => True

/-- A step of the network. -/
inductive Step (chain : Chain) (network : Network Index) : Network Index → Prop
  | lands {signed : SignedTransaction} {clock : Clock} {reached : Ledger}
      (hsent : signed ∈ network.sent)
      (hrun : execute chain (transactionOf signed clock) network.ledger = .ok reached) :
      Step chain network (network.land signed reached)
  | advances (transaction : Transaction) :
      Step chain network (network.reach (advance chain network.ledger transaction))
  | submits {index : Index} {signed : SignedTransaction}
      {next : Answer (.sendAndConfirm signed) → Dialogue Result}
      (hrunning : (network.loops index).progress = .running (.ask (.sendAndConfirm signed) next)) :
      Step chain network (network.submit index signed next)
  | responds {index : Index} {signed : SignedTransaction}
      {next : Except String (Octets 64) → Dialogue Result}
      (hawaiting : (network.loops index).progress = .awaiting signed next)
      (answer : Except String (Octets 64))
      (hpermitted : Permitted network (.sendAndConfirm signed) answer) :
      Step chain network (network.resume index (next answer))
  | answers {index : Index} {asked : Request} {next : Answer asked → Dialogue Result}
      (hrunning : (network.loops index).progress = .running (.ask asked next))
      (hrequest : ¬ Submits asked) (answer : Answer asked)
      (hpermitted : Permitted network asked answer) :
      Step chain network (network.resume index (next answer))

end Network

/-! ### Roots on chain -/

/-- A ledger holds a checkpoint of the epoch with the root. -/
def RootOnChain (ledger : Ledger) (epoch : UInt64) (root : Octets 32) : Prop :=
  ∃ address checkpoint, readCheckpoint ledger address = some checkpoint ∧
    checkpoint.epoch = epoch ∧ checkpoint.root = root

variable {chain : Chain} {before after ledger : Ledger} {epoch : UInt64} {root : Octets 32}

theorem RootOnChain.preserved (hroot : RootOnChain before epoch root)
    (hpreserves : Preserves before after) : RootOnChain after epoch root := by
  obtain ⟨address, checkpoint, hread, hepoch, hsame⟩ := hroot
  obtain ⟨kept, hkept, hpublication⟩ := hpreserves.checkpoint address checkpoint hread
  exact ⟨address, kept, hkept, hpublication.epoch.trans hepoch, hpublication.root.trans hsame⟩

/-- A consistent ledger holds one root for an epoch. -/
theorem RootOnChain.unique (hconsistent : Consistent chain ledger) {left right : Octets 32}
    (hleft : RootOnChain ledger epoch left) (hright : RootOnChain ledger epoch right) :
    left = right := by
  obtain ⟨leftAddress, first, hfirst, hfirstEpoch, rfl⟩ := hleft
  obtain ⟨rightAddress, second, hsecond, hsecondEpoch, rfl⟩ := hright
  rcases hconsistent with hunstarted | ⟨address, config, hstarted⟩
  · rw [hunstarted.readCheckpoint_eq_none] at hfirst
    exact absurd hfirst (by simp)
  · have hsame := hstarted.unique leftAddress rightAddress first second hfirst hsecond
      (hfirstEpoch.trans hsecondEpoch.symm)
    rw [hsame, hsecond, Option.some.injEq] at hfirst
    rw [hfirst]

/-- A submission that executed put its root on chain. -/
theorem rootOnChain_of_execute (hsystem : chain.system.Documented)
    (hconsistent : Consistent chain before) {signed : SignedTransaction} {clock : Clock}
    (hrun : execute chain (transactionOf signed clock) before = .ok after) :
    RootOnChain after signed.message.epoch signed.message.root := by
  have hpublish : publishCheckpoint chain (transactionOf signed clock).context
      signed.message.accounts signed.message.epoch signed.message.root
      signed.message.checkpointBump before = .ok after := hrun
  obtain ⟨config, hstarted, heffect⟩ :=
    published_of_publishCheckpoint hsystem hconsistent hpublish
  have hread := (readCheckpoint_published hstarted heffect).mpr (.inl ⟨rfl, rfl⟩)
  exact ⟨_, _, hread, rfl, rfl⟩

theorem decodeCheckpoint_eq_ok {owner : Pubkey} {data : List UInt8}
    {checkpoint : PublishedCheckpoint}
    (hdecode : decodeCheckpoint owner data epoch = .ok checkpoint) :
    ∃ account, owner = programId ∧ CheckpointAccount.len ≤ data.length ∧
      data.take 8 = CheckpointAccount.discriminator.octets ∧
      CheckpointAccount.deserialize (data.drop 8) = some account ∧ account.epoch = epoch ∧
      checkpoint = publishedCheckpoint account := by
  unfold decodeCheckpoint at hdecode
  split_ifs at hdecode with howner hshort htag
  split at hdecode
  · cases hdecode
  · next account haccount =>
    split_ifs at hdecode with hschema hepoch
    exact ⟨account, not_not.mp howner, not_lt.mp hshort, not_not.mp htag, haccount,
      not_not.mp hepoch, (Except.ok.inj hdecode).symm⟩

/-- An account the client places is a checkpoint the program reads. -/
theorem rootOnChain_of_fetched {address : Pubkey} {checkpoint : PublishedCheckpoint}
    (hfetched : fetched epoch (accountOf ledger address) = .placed checkpoint) :
    RootOnChain ledger epoch checkpoint.root := by
  unfold accountOf at hfetched
  split_ifs at hfetched
  · cases hfetched
  · unfold fetched at hfetched
    dsimp only at hfetched
    split at hfetched
    · next found hdecode =>
      cases hfetched
      obtain ⟨account, howner, hlength, htag, hfields, hepoch, rfl⟩ :=
        decodeCheckpoint_eq_ok hdecode
      have hread : readCheckpoint ledger address = some account := by
        rw [readCheckpoint, toOption_eq_some_iff, loadAccount_eq_ok_iff]
        refine ⟨howner, ?_, htag, hfields⟩
        exact le_trans (by decide) hlength
      exact ⟨address, account, hread, hepoch, rfl⟩
    · cases hfetched

/-! ### The invariant -/

/-- The client returned a reference. -/
def Success (output : Result) : Prop :=
  ∃ reference, output = some (.ok reference)

/-- A client succeeds only when its root is on the chain or an answer to come shows it there. -/
def Progress.Sound (ledger : Ledger) (task : Task) : Progress → Prop
  | .running program => Guarded (Evidence task.epoch task.root) Success
      (RootOnChain ledger task.epoch task.root) program
  | .awaiting signed next => ∀ answer, Guarded (Evidence task.epoch task.root) Success
      (RootOnChain ledger task.epoch task.root ∨
        Evidence task.epoch task.root (.sendAndConfirm signed) answer) (next answer)

/-- A client submits at most `left` times more. -/
def Progress.Bounded (left : ℕ) : Progress → Prop
  | .running program => AtMost Submits left program
  | .awaiting _ next => ∀ answer, AtMost Submits left (next answer)

/-- What holds of the network in every reachable state. -/
structure Invariant {Index : Type} (chain : Chain) (tasks : Index → Task)
    (network : Network Index) : Prop where
  consistent : Consistent chain network.ledger
  current : network.ledger ∈ network.past
  preserved : ∀ ledger ∈ network.past, Preserves ledger network.ledger
  landed : ∀ signed ∈ network.landed,
    RootOnChain network.ledger signed.message.epoch signed.message.root
  sound : ∀ index, (network.loops index).progress.Sound network.ledger (tasks index)
  bounded : ∀ index, ∃ left, (network.loops index).progress.Bounded left ∧
    (network.loops index).submissions + left ≤ (tasks index).attempts.toNat + 1

theorem Progress.Sound.preserved {task : Task} {progress : Progress}
    (hsound : progress.Sound before task) (hpreserves : Preserves before after) :
    progress.Sound after task := by
  cases progress with
  | running program => exact hsound.mono fun hroot ↦ hroot.preserved hpreserves
  | awaiting signed next =>
    exact fun answer ↦ (hsound answer).mono (Or.imp_left fun hroot ↦ hroot.preserved hpreserves)

section Reachable

variable {Index : Type} {tasks : Index → Task} {network : Network Index}

theorem invariant_start (format : SignatureFormat) {initial : Ledger}
    (hfresh : ∀ address, (initial address).owner ≠ programId) :
    Invariant chain tasks (Network.start format chain initial tasks) where
  consistent := .inl hfresh
  current := List.mem_singleton_self initial
  preserved := by
    intro ledger hledger
    rw [List.mem_singleton.mp hledger]
    exact .refl initial
  landed := by
    intro signed hsigned
    exact absurd hsigned List.not_mem_nil
  sound := by
    intro index
    exact (publish_guarded chain _ _ _ _ _).mono False.elim
  bounded := by
    intro index
    exact ⟨_, publish_atMost chain _ _ _ _ (tasks index).attempts, (Nat.zero_add _).le⟩

/-- The invariant is kept when the chain goes on to a ledger that preserves the one before. -/
theorem Invariant.reach (hinvariant : Invariant chain tasks network) {reached : Ledger}
    (hconsistent : Consistent chain reached) (hpreserves : Preserves network.ledger reached) :
    Invariant chain tasks (network.reach reached) where
  consistent := hconsistent
  current := List.mem_cons_self
  preserved := by
    intro ledger hledger
    rcases List.mem_cons.mp hledger with rfl | hpast
    · exact .refl ledger
    · exact (hinvariant.preserved ledger hpast).trans hpreserves
  landed := by
    intro signed hsigned
    exact (hinvariant.landed signed hsigned).preserved hpreserves
  sound := by
    intro index
    exact (hinvariant.sound index).preserved hpreserves
  bounded := hinvariant.bounded

/-- A permitted answer that is evidence shows the root on the chain. -/
theorem Invariant.rootOnChain_of_evidence (hinvariant : Invariant chain tasks network)
    {asked : Request} {answer : Answer asked} (hpermitted : Permitted network asked answer)
    (hevidence : Evidence epoch root asked answer) : RootOnChain network.ledger epoch root := by
  cases asked with
  | sendAndConfirm signed =>
    obtain ⟨⟨signature, hanswer⟩, rfl, rfl⟩ := hevidence
    exact hinvariant.landed signed (hpermitted signature hanswer)
  | account address =>
    obtain ⟨seen, checkpoint, hanswer, hfetched, rfl⟩ := hevidence
    obtain ⟨ledger, hledger, hsame⟩ := hpermitted seen hanswer
    rw [hsame] at hfetched
    exact (rootOnChain_of_fetched hfetched).preserved (hinvariant.preserved ledger hledger)
  | latestBlockhash => exact hevidence.elim
  | trySign message blockhash => exact hevidence.elim
  | signaturesForAddress address => exact hevidence.elim
  | signatureStatuses signature => exact hevidence.elim

variable [DecidableEq Index]

/-- The invariant is kept when one client goes on and the chain stays. -/
theorem Invariant.update (hinvariant : Invariant chain tasks network) (index : Index) (loop : Loop)
    (hsound : loop.progress.Sound network.ledger (tasks index))
    (hbounded : ∃ left, loop.progress.Bounded left ∧
      loop.submissions + left ≤ (tasks index).attempts.toNat + 1)
    {sent : List SignedTransaction} :
    Invariant chain tasks
      { network with sent := sent, loops := Function.update network.loops index loop } where
  consistent := hinvariant.consistent
  current := hinvariant.current
  preserved := hinvariant.preserved
  landed := hinvariant.landed
  sound := by
    intro other
    by_cases hsame : other = index
    · subst hsame
      simpa only [Function.update_self] using hsound
    · simpa only [Function.update_of_ne hsame] using hinvariant.sound other
  bounded := by
    intro other
    by_cases hsame : other = index
    · subst hsame
      simpa only [Function.update_self] using hbounded
    · simpa only [Function.update_of_ne hsame] using hinvariant.bounded other

theorem invariant_step (hsystem : chain.system.Documented) {reached : Network Index}
    (hinvariant : Invariant chain tasks network) (hstep : Step chain network reached) :
    Invariant chain tasks reached := by
  cases hstep with
  | @lands signed clock ledger hsent hrun =>
    have hadvance : advance chain network.ledger (transactionOf signed clock) = ledger := by
      rw [advance, hrun]
    have hconsistent := consistent_advance hsystem network.ledger (transactionOf signed clock)
      hinvariant.consistent
    have hpreserves := preserves_advance hsystem network.ledger (transactionOf signed clock)
      hinvariant.consistent
    rw [hadvance] at hconsistent hpreserves
    have hreached := hinvariant.reach hconsistent hpreserves
    refine { hreached with landed := ?_ }
    intro other hother
    rcases List.mem_cons.mp hother with rfl | hother
    · exact rootOnChain_of_execute hsystem hinvariant.consistent hrun
    · exact hreached.landed other hother
  | advances transaction =>
    exact hinvariant.reach
      (consistent_advance hsystem network.ledger transaction hinvariant.consistent)
      (preserves_advance hsystem network.ledger transaction hinvariant.consistent)
  | @submits index signed next hrunning =>
    have hsound := hinvariant.sound index
    obtain ⟨left, hbounded, hcount⟩ := hinvariant.bounded index
    rw [hrunning] at hsound hbounded
    rcases hbounded with ⟨huncounted, -⟩ | ⟨remaining, rfl, hnext⟩
    · exact absurd trivial huncounted
    · refine hinvariant.update index ⟨.awaiting signed next, _⟩ hsound ⟨remaining, hnext, ?_⟩
      dsimp only
      omega
  | @responds index signed next hawaiting answer hpermitted =>
    have hsound := hinvariant.sound index
    obtain ⟨left, hbounded, hcount⟩ := hinvariant.bounded index
    rw [hawaiting] at hsound hbounded
    refine hinvariant.update index ⟨.running (next answer), _⟩ ((hsound answer).mono ?_)
      ⟨left, hbounded answer, hcount⟩
    exact fun hseen ↦ hseen.elim id (hinvariant.rootOnChain_of_evidence hpermitted)
  | @answers index asked next hrunning hrequest answer hpermitted =>
    have hsound := hinvariant.sound index
    obtain ⟨left, hbounded, hcount⟩ := hinvariant.bounded index
    rw [hrunning] at hsound hbounded
    have hrest : AtMost Submits left (next answer) := by
      rcases hbounded with ⟨-, hnext⟩ | ⟨remaining, rfl, hnext⟩
      · exact hnext answer
      · exact (hnext answer).mono (Nat.le_succ remaining)
    refine hinvariant.update index ⟨.running (next answer), _⟩ ((hsound answer).mono ?_)
      ⟨left, hrest, hcount⟩
    exact fun hseen ↦ hseen.elim id (hinvariant.rootOnChain_of_evidence hpermitted)

/-- The invariant holds in every state the network reaches. -/
theorem invariant_of_reachable (hsystem : chain.system.Documented) {start : Network Index}
    (hstart : Invariant chain tasks start)
    (hreachable : Relation.ReflTransGen (Step chain) start network) :
    Invariant chain tasks network := by
  induction hreachable with
  | refl => exact hstart
  | tail _ hstep ih => exact invariant_step hsystem ih hstep

end Reachable

/-! ### Exactly one publication -/

/-- The client has returned a result. -/
def Loop.Returned (loop : Loop) (result : Except PublishFailed AnchorRef) : Prop :=
  loop.progress = .running (.done (some result))

/-- What holds of any number of clients in every state of the network. -/
structure ExactlyOnce {Index : Type} (tasks : Index → Task) (network : Network Index) : Prop where
  /-- A client submits at most once more than its attempts. -/
  submissions : ∀ index,
    (network.loops index).submissions ≤ (tasks index).attempts.toNat + 1
  /-- Over all ledgers there ever were, an epoch has one root. -/
  one_root : ∀ first ∈ network.past, ∀ second ∈ network.past, ∀ epoch left right,
    RootOnChain first epoch left → RootOnChain second epoch right → left = right
  /-- A client that succeeded has its root, and no other, on chain for its epoch. -/
  success : ∀ index reference, (network.loops index).Returned (.ok reference) →
    ∀ root, RootOnChain network.ledger (tasks index).epoch root ↔ root = (tasks index).root
  /-- A client for whose epoch another root was ever on chain has not succeeded. -/
  other_root : ∀ index, ∀ ledger ∈ network.past, ∀ root, root ≠ (tasks index).root →
    RootOnChain ledger (tasks index).epoch root →
    ∀ reference, ¬ (network.loops index).Returned (.ok reference)

theorem Invariant.exactlyOnce {Index : Type} {tasks : Index → Task} {network : Network Index}
    (hinvariant : Invariant chain tasks network) : ExactlyOnce tasks network := by
  have hunique : ∀ first ∈ network.past, ∀ second ∈ network.past, ∀ epoch left right,
      RootOnChain first epoch left → RootOnChain second epoch right → left = right := by
    intro first hfirst second hsecond epoch left right hleft hright
    exact (hleft.preserved (hinvariant.preserved first hfirst)).unique hinvariant.consistent
      (hright.preserved (hinvariant.preserved second hsecond))
  have hsuccess : ∀ index reference, (network.loops index).Returned (.ok reference) →
      RootOnChain network.ledger (tasks index).epoch (tasks index).root := by
    intro index reference hreturned
    have hsound := hinvariant.sound index
    rw [hreturned] at hsound
    exact hsound ⟨reference, rfl⟩
  refine ⟨fun index ↦ ?_, hunique, fun index reference hreturned root ↦ ⟨fun hroot ↦ ?_, ?_⟩, ?_⟩
  · obtain ⟨left, -, hcount⟩ := hinvariant.bounded index
    omega
  · exact hunique _ hinvariant.current _ hinvariant.current _ _ _ hroot
      (hsuccess index reference hreturned)
  · rintro rfl
    exact hsuccess index reference hreturned
  · intro index ledger hledger root hother hroot reference hreturned
    exact hother (hunique _ hledger _ hinvariant.current _ _ _ hroot
      (hsuccess index reference hreturned))

/-- Whatever the network does, every epoch is published at most once, and a client succeeds only
with the root that is on chain. -/
theorem publication_exactly_once {Index : Type} [DecidableEq Index] (format : SignatureFormat)
    (chain : Chain) (hsystem : chain.system.Documented) (initial : Ledger)
    (hfresh : ∀ address, (initial address).owner ≠ programId) (tasks : Index → Task)
    (network : Network Index)
    (hreachable : Relation.ReflTransGen (Step chain)
      (Network.start format chain initial tasks) network) : ExactlyOnce tasks network :=
  (invariant_of_reachable hsystem (invariant_start format hfresh) hreachable).exactlyOnce

/-- The operator publishes one epoch with one attempt to spare. -/
def oneTask : Task :=
  ⟨20000, operator, operator, operator, 1⟩

/-- The message of that publication. -/
def oneMessage : Message :=
  ⟨⟨⟨LogConfig.seed ++ 255 :: List.replicate 25 0, rfl⟩,
    ⟨CheckpointAccount.seed ++ leList 8 20000 ++ 255 :: List.replicate 16 0, rfl⟩,
    operator, operator, systemProgramId⟩, 20000, operator, 255⟩

/-- The start of the log it is published into. -/
def oneStart : Transaction :=
  signedByOperator (.initializeLog ⟨oneMessage.accounts.config, operator, systemProgramId⟩
    operator 10 20000)

/-- A format that renders the signature of zeros. -/
def zeroFormat : SignatureFormat where
  render := fun _ ↦ String.ofList (List.replicate 64 '1')
  parse := fun _ ↦ .ok (Octets.zeros 64)

/-- The response of a submission that landed is lost, and the client goes on to its second
attempt. -/
theorem publication_exactly_once_lostResponse :
    ∃ network : Network Unit, (∃ signed, signed ∈ network.landed) ∧
      (network.loops ()).submissions = 1 ∧ ExactlyOnce (fun _ ↦ oneTask) network := by
  have hfresh : ∀ address, (fundedLedger address).owner ≠ programId :=
    fun _ ↦ programId_ne_systemProgramId.symm
  have hruns : ∃ reached,
      execute plainChain (transactionOf ⟨oneMessage, Octets.zeros 32⟩ ⟨5, 1728000000⟩)
        (advance plainChain fundedLedger oneStart) = .ok reached := by
    apply exists_eq_ok_of_isOk
    decide +kernel
  obtain ⟨reached, hrun⟩ := hruns
  have hstarted : Relation.ReflTransGen (Step plainChain)
      (Network.start zeroFormat plainChain fundedLedger fun _ : Unit ↦ oneTask) _ :=
    .single (.advances oneStart)
  have hblockhash := hstarted.tail (@Step.answers Unit _ plainChain _ () .latestBlockhash _ rfl id
    (.ok (Octets.zeros 32)) trivial)
  have hsigned := hblockhash.tail (@Step.answers Unit _ plainChain _ ()
    (.trySign oneMessage (Octets.zeros 32)) _ rfl id (.ok ()) trivial)
  have hsent := hsigned.tail
    (@Step.submits Unit _ plainChain _ () ⟨oneMessage, Octets.zeros 32⟩ _ rfl)
  have hlanded := hsent.tail (.lands List.mem_cons_self hrun)
  have hlost := hlanded.tail
    (@Step.responds Unit _ plainChain _ () _ _ rfl (.error "timed out") (by rintro _ ⟨⟩))
  exact ⟨_, ⟨_, List.mem_cons_self⟩, rfl, publication_exactly_once zeroFormat plainChain
    referenceSystem_documented fundedLedger hfresh _ _ hlost⟩

end AnchoredLog.Client.PublishNetwork
