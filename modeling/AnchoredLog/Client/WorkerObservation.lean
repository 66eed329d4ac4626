import AnchoredLog.Client.WorkerWorld

/-!
# What the worker observes of its world

An observation asks one question after the other, of a world that moves in between. `Seen` says what
it comes to all the same: the bounds are those of the log or of a shorter one, the last submission
is the last epoch within them whose receipt was found, and an epoch with a receipt that was found
and that is not reported is attached. What is found is there, and on a truthful disk what is there
is found. Every mark is justified at the time it is made and stays so, for the world leaves the
receipts alone and keeps what is on chain.

What the worker decides on such an observation follows from the invariant of the world: an earlier
epoch that is not attached stops a publication, the barriers that compare the marks with the bounds
are passed and, on a truthful disk, an epoch with a receipt is not submitted.
-/

set_option autoImplicit false
set_option relaxedAutoImplicit false

namespace AnchoredLog.Client.WorkerObservation

open Library.Fallible Library.Interactions Library.SharedWorld
open Program.AccountLayouts Program.ChainRuntime Program.Checkpoint Program.LogInvariant
open Program.Balances Publish PublishNetwork Fetch Worker Observe WorkerLog WorkerWorld
open WorkerCycle hiding Request Answer Dialogue

/-! ### The marks -/

/-- The receipt of an epoch is there. -/
def There (world : World) (epoch : UInt64) : Bool :=
  (world.receipts epoch).isSome

/-- What the marks come to after some epochs were looked at, among which the receipts of some were
found. -/
structure Marked (truthful : Prop) (world : World) (seen found : List UInt64) (marks : Marks) :
    Prop where
  among : found.Sublist seen
  there : ∀ epoch ∈ found, There world epoch
  complete : truthful → ∀ epoch ∈ seen, There world epoch → epoch ∈ found
  lastSubmitted : marks.lastSubmitted = found.getLast?
  awaiting : ∀ epoch, marks.awaitingAttach = some epoch → epoch ∈ found
  attached : marks.awaitingAttach = none → ∀ epoch ∈ found, IsAttached world.ledger epoch

variable {worker : Worker} {truthful : Prop} {start epoch : UInt64} {before after world : World}
  {seen found : List UInt64} {marks : Marks}

theorem marked_start (world : World) : Marked truthful world [] [] .start where
  among := .slnil
  there := by
    intro epoch hepoch
    exact absurd hepoch List.not_mem_nil
  complete := by
    intro _ epoch hepoch
    exact absurd hepoch List.not_mem_nil
  lastSubmitted := rfl
  awaiting := by
    rintro epoch ⟨⟩
  attached := by
    intro _ epoch hepoch
    exact absurd hepoch List.not_mem_nil

/-- The marks stay right while the receipts stay and the chain keeps what it holds. -/
theorem Marked.later (hmarked : Marked truthful before seen found marks)
    (hreceipts : after.receipts = before.receipts)
    (hpreserves : Preserves before.ledger after.ledger) :
    Marked truthful after seen found marks := by
  have hthere : There after = There before := by
    funext epoch
    rw [There, There, hreceipts]
  refine ⟨hmarked.among, ?_, ?_, hmarked.lastSubmitted, hmarked.awaiting, ?_⟩
  · rw [hthere]
    exact hmarked.there
  · rw [hthere]
    exact hmarked.complete
  · exact fun hnone epoch hfound ↦ (hmarked.attached hnone epoch hfound).preserved hpreserves

/-- One more epoch is marked, whose receipt was found. -/
theorem Marked.markFound (hmarked : Marked truthful world seen found marks)
    (hthere : There world epoch) {status : AnchorStatus}
    (hstatus : status ≠ .single → IsAttached world.ledger epoch) :
    Marked truthful world (seen ++ [epoch]) (found ++ [epoch]) (marks.mark epoch status true) := by
  refine ⟨hmarked.among.append_right _, ?_, ?_, ?_, ?_, ?_⟩
  · exact List.forall_mem_append.mpr ⟨hmarked.there, List.forall_mem_singleton.mpr hthere⟩
  · intro htruthful other hother hlooked
    rcases List.mem_append.mp hother with hold | hnew
    · exact List.mem_append_left _ (hmarked.complete htruthful other hold hlooked)
    · exact List.mem_append_right _ hnew
  · simp [Marks.mark]
  · intro other hother
    by_cases hmark : marks.awaitingAttach = none ∧ status = .single
    · simp only [Marks.mark, hmark.1, hmark.2, Option.isNone_none, and_self, if_true,
        Option.some.injEq] at hother
      rw [← hother]
      exact List.mem_append_right _ (List.mem_singleton_self _)
    · have hkept : marks.awaitingAttach = some other := by
        simpa [Marks.mark, hmark] using hother
      exact List.mem_append_left _ (hmarked.awaiting other hkept)
  · intro hnone
    have hkept : marks.awaitingAttach = none ∧ status ≠ .single := by
      by_cases hmark : marks.awaitingAttach = none ∧ status = .single
      · simp [Marks.mark, hmark.1, hmark.2] at hnone
      · have hold : marks.awaitingAttach = none := by
          simpa [Marks.mark, hmark] using hnone
        exact ⟨hold, fun hsingle ↦ hmark ⟨hold, hsingle⟩⟩
    exact List.forall_mem_append.mpr
      ⟨hmarked.attached hkept.1, List.forall_mem_singleton.mpr (hstatus hkept.2)⟩

/-- One more epoch is marked, whose receipt was not found. -/
theorem Marked.markMissing (hmarked : Marked truthful world seen found marks)
    (hmissing : truthful → ¬ There world epoch) (status : AnchorStatus) :
    Marked truthful world (seen ++ [epoch]) found (marks.mark epoch status false) := by
  have hsame : marks.mark epoch status false =
      { marks with oldestSingle := (marks.mark epoch status false).oldestSingle } := by
    simp [Marks.mark]
  rw [hsame]
  refine ⟨hmarked.among.trans (List.sublist_append_left _ _), hmarked.there, ?_,
    hmarked.lastSubmitted, hmarked.awaiting, hmarked.attached⟩
  intro htruthful other hother hlooked
  rcases List.mem_append.mp hother with hold | hnew
  · exact hmarked.complete htruthful other hold hlooked
  · rw [List.mem_singleton.mp hnew] at hlooked
    exact absurd hlooked (hmissing htruthful)

/-! ### The loop over the epochs -/

/-- The surroundings of an inquiry of the worker. -/
def asking (worker : Worker) (truthful : Prop) (start : UInt64) :
    Surroundings Question Question.Answer World :=
  (around worker truthful start).within WorkerCycle.Request.observe fun _ answer ↦ answer

section Safety

variable (hsystem : worker.chain.system.Documented) (hrents : Rents worker.chain)

include hsystem hrents in
/-- The loop marks every epoch it looks at. -/
theorem safe_observeEpochs {pending : List UInt64} (hsound : Sound worker start world)
    (hpublished : ∀ epoch ∈ pending, IsPublished world.ledger epoch)
    (hmarked : Marked truthful world seen found marks) :
    Safe (asking worker truthful start) (fun later result ↦ Sound worker start later ∧
      Preserves world.ledger later.ledger ∧ ∀ reached, result = .ok reached →
        ∃ found, Marked truthful later (seen ++ pending) found reached) world
      (observeEpochs pending marks) := by
  induction pending generalizing world seen found marks with
  | nil =>
    intro later hlater
    have hpreserves := preserves_of_moves hsystem hrents hsound hlater
    refine ⟨sound_of_moves hsystem hrents hsound hlater, hpreserves, ?_⟩
    rintro reached ⟨⟩
    rw [List.append_nil]
    exact ⟨found, hmarked.later (receipts_of_moves hlater).1 hpreserves⟩
  | cons epoch rest ih =>
    intro asked hasked
    have haskedSound := sound_of_moves hsystem hrents hsound hasked
    have haskedPreserves := preserves_of_moves hsystem hrents hsound hasked
    refine ⟨trivial, ?_⟩
    rintro (cause | status) after ⟨-, rfl, rfl, hstatus⟩
    · intro later hlater
      refine ⟨sound_of_moves hsystem hrents haskedSound hlater,
        haskedPreserves.trans (preserves_of_moves hsystem hrents haskedSound hlater), ?_⟩
      rintro reached ⟨⟩
    · intro looked hlooked
      have hlookedSound := sound_of_moves hsystem hrents haskedSound hlooked
      have hlookedPreserves := preserves_of_moves hsystem hrents haskedSound hlooked
      refine ⟨trivial, ?_⟩
      rintro there final ⟨answered, hsame, rfl, hfinds, hmisses⟩
      have hbefore := haskedPreserves.trans hlookedPreserves
      have hkept := (hmarked.later (receipts_of_moves hasked).1 haskedPreserves).later
        (receipts_of_moves hlooked).1 hlookedPreserves
      have hattached : status ≠ .single → IsAttached final.ledger epoch := by
        intro hother
        obtain ⟨address, config, hlog, -⟩ := haskedSound.log
        have honChain := (hpublished epoch List.mem_cons_self).preserved haskedPreserves
        rw [hstatus status rfl] at hother
        exact ((hlog.isAttached_iff honChain).mpr hother).preserved hlookedPreserves
      obtain ⟨marked, hnext⟩ : ∃ marked,
          Marked truthful final (seen ++ [epoch]) marked (marks.mark epoch status there) := by
        rw [show answered = there from hsame] at hfinds hmisses
        cases there with
        | true => exact ⟨_, hkept.markFound (hfinds rfl) hattached⟩
        | false =>
          refine ⟨_, hkept.markMissing (fun htruthful hlooked ↦ ?_) status⟩
          exact absurd (hmisses htruthful hlooked) Bool.false_ne_true
      refine (ih hlookedSound (fun other hother ↦
        (hpublished other (List.mem_cons_of_mem epoch hother)).preserved hbefore) hnext).mono ?_
      rintro last result ⟨hlast, hpreserves, hreached⟩
      refine ⟨hlast, hbefore.trans hpreserves, fun reached hresult ↦ ?_⟩
      rw [List.append_cons]
      exact hreached reached hresult

/-! ### The observation -/

/-- The bounds that were read are those of the log, which may have grown since. -/
structure Bounds (start : UInt64) (world : World) (first last : UInt64) : Prop where
  first : first = start
  reaches : start.toNat ≤ last.toNat + 1
  published : ∀ epoch, start ≤ epoch → epoch ≤ last → IsPublished world.ledger epoch

theorem Bounds.preserved {first last : UInt64} (hbounds : Bounds start before first last)
    (hpreserves : Preserves before.ledger after.ledger) : Bounds start after first last where
  first := hbounds.first
  reaches := hbounds.reaches
  published := fun epoch hfirst hlast ↦
    (hbounds.published epoch hfirst hlast).preserved hpreserves

include hsystem hrents in
/-- A failure concludes nothing. -/
theorem safe_error {Failure Value : Type} {Good : World → Value → Prop}
    (hsound : Sound worker start world) (failure : Failure) :
    Safe (asking worker truthful start) (fun later (result : Except Failure Value) ↦
      Sound worker start later ∧ ∀ value, result = .ok value → Good later value) world
      (.done (.error failure)) := by
  intro later hlater
  refine ⟨sound_of_moves hsystem hrents hsound hlater, ?_⟩
  rintro value ⟨⟩

include hsystem hrents in
/-- The bounds are read from one view of the chain. -/
theorem safe_sequenceLag (hsound : Sound worker start world) (today : UInt64) :
    Safe (asking worker truthful start) (fun later result ↦ Sound worker start later ∧
      ∀ lag, result = .ok lag → Bounds start later lag.startEpoch lag.lastPublished) world
      (sequenceLag programId (WorkerCycle.addressesOf worker.chain) today today) := by
  simp only [sequenceLag, batches_epochsBetween_self, readBatches, accountsAt, request_bind,
    ask_bind]
  intro later hlater
  have hmoved := sound_of_moves hsystem hrents hsound hlater
  refine ⟨trivial, ?_⟩
  rintro (cause | view) after ⟨-, rfl, rfl, hview⟩
  · exact safe_error hsystem hrents hmoved cause
  · dsimp only
    cases hread : readView programId (WorkerCycle.addressesOf worker.chain) [today] view .start with
    | error cause => exact safe_error hsystem hrents hmoved cause
    | ok reading =>
      obtain ⟨config, lag, hconfig, hlag, hfirst, hlast⟩ := exists_config_of_readView hread
      obtain ⟨address, stored, hlog, -⟩ := hmoved.log
      have hknown : config = stored := by
        obtain ⟨slot, accounts⟩ := view
        obtain rfl : accounts = _ := hview _ rfl
        exact Except.ok.inj (hconfig.symm.trans (hlog.configOf_eq slot _))
      subst hknown
      simp only [pure_eq_done, done_bind, hlag]
      have hbounds : Bounds start after lag.startEpoch lag.lastPublished := by
        rw [hfirst, hlast]
        have hcontiguous := hlog.started.contiguous
        rw [hlog.startEpoch] at hcontiguous
        exact ⟨hlog.startEpoch, hcontiguous, fun epoch hlow hhigh ↦
          hlog.isPublished_iff.mpr ⟨hlow, hhigh⟩⟩
      intro last hmoves
      refine ⟨sound_of_moves hsystem hrents hmoved hmoves, ?_⟩
      rintro reported ⟨⟩
      exact hbounds.preserved (preserves_of_moves hsystem hrents hmoved hmoves)

/-- What an observation says of the world. -/
structure Seen (truthful : Prop) (start : UInt64) (world : World) (observed : Observed) :
    Prop where
  bounds : Bounds start world observed.startEpoch observed.lastEpoch
  marks : ∃ found, Marked truthful world (epochsBetween start observed.lastEpoch) found
    ⟨observed.lastSubmitted, observed.awaitingAttach, observed.oldestSingle⟩

include hsystem hrents in
theorem safe_observe (hsound : Sound worker start world) (now : Int64) (today : UInt64) :
    Safe (asking worker truthful start) (fun later result ↦ Sound worker start later ∧
      ∀ observed, result = .ok observed → Seen truthful start later observed) world
      (observe programId (WorkerCycle.addressesOf worker.chain) now today) := by
  refine safe_bind (safe_sequenceLag hsystem hrents hsound today) ?_
  rintro (cause | lag) later ⟨hlater, hread⟩
  · exact safe_error hsystem hrents hlater _
  · have hbounds := hread lag rfl
    have hpublished : ∀ epoch ∈ epochsBetween lag.startEpoch lag.lastPublished,
        IsPublished later.ledger epoch := by
      intro epoch hepoch
      rw [hbounds.first, mem_epochsBetween] at hepoch
      exact hbounds.published epoch hepoch.1 hepoch.2
    refine safe_bind (safe_observeEpochs hsystem hrents hlater hpublished (marked_start later)) ?_
    rintro (failure | marks) final ⟨hfinal, hpreserves, hmarks⟩
    · exact safe_error hsystem hrents hfinal _
    · obtain ⟨found, hmarked⟩ := hmarks marks rfl
      rw [List.nil_append, hbounds.first] at hmarked
      intro last hlast
      have hkept := preserves_of_moves hsystem hrents hfinal hlast
      refine ⟨sound_of_moves hsystem hrents hfinal hlast, ?_⟩
      rintro observed ⟨⟩
      exact ⟨hbounds.preserved (hpreserves.trans hkept),
        found, hmarked.later (receipts_of_moves hlast).1 hkept⟩

include hsystem hrents in
/-- Whatever happens while the worker looks, what it ends with is true of the world by then. -/
theorem safe_look (hsound : Sound worker start world) (now : Int64) (today : UInt64) :
    Safe (around worker truthful start) (fun later result ↦ Sound worker start later ∧
      ∀ observed, result = .ok observed → Seen truthful start later observed) world
      (WorkerCycle.look worker now today) :=
  safe_embed (safe_observe hsystem hrents hsound now today)

end Safety

/-! ### What is decided on an observation -/

section Decision

variable {observed : Observed} {schedule : Schedule} {policy : WorkerPolicy}

/-- The last of some ascending epochs is not before any of them. -/
theorem exists_getLast?_of_mem {epochs : List UInt64} (hsorted : epochs.Pairwise (· < ·))
    (hmem : epoch ∈ epochs) : ∃ last, epochs.getLast? = some last ∧ epoch ≤ last := by
  rcases epochs.eq_nil_or_concat with rfl | ⟨before, last, rfl⟩
  · exact absurd hmem List.not_mem_nil
  · rw [List.concat_eq_append] at hsorted hmem ⊢
    refine ⟨last, List.getLast?_concat, ?_⟩
    rcases List.mem_append.mp hmem with hold | hlast
    · exact UInt64.le_of_lt ((List.pairwise_append.mp hsorted).2.2 epoch hold last
        (List.mem_singleton_self last))
    · rw [List.mem_singleton.mp hlast]
      exact UInt64.le_refl last

/-- On a truthful disk, an epoch within the bounds whose receipt is there is not after the last
submission. -/
theorem Seen.submitted (hseen : Seen truthful start world observed) (htruthful : truthful)
    (hfirst : start ≤ epoch) (hlast : epoch ≤ observed.lastEpoch) (hthere : There world epoch) :
    ∃ submitted, observed.lastSubmitted = some submitted ∧ epoch ≤ submitted := by
  obtain ⟨found, hmarked⟩ := hseen.marks
  have hfound := hmarked.complete htruthful epoch (mem_epochsBetween.mpr ⟨hfirst, hlast⟩) hthere
  obtain ⟨submitted, hsubmitted, hle⟩ := exists_getLast?_of_mem
    ((pairwise_epochsBetween start observed.lastEpoch).sublist hmarked.among) hfound
  exact ⟨submitted, hmarked.lastSubmitted.trans hsubmitted, hle⟩

/-- The last submission is an epoch within the bounds, and its receipt is there. -/
theorem Seen.of_submitted (hseen : Seen truthful start world observed)
    (hsubmitted : observed.lastSubmitted = some epoch) :
    start ≤ epoch ∧ epoch ≤ observed.lastEpoch ∧ There world epoch := by
  obtain ⟨found, hmarked⟩ := hseen.marks
  have hmem := List.mem_of_getLast? (hmarked.lastSubmitted.symm.trans hsubmitted)
  obtain ⟨hfirst, hlast⟩ := mem_epochsBetween.mp (hmarked.among.subset hmem)
  exact ⟨hfirst, hlast, hmarked.there epoch hmem⟩

/-- The epoch to attach is one within the bounds, its receipt is there, and it is not after the last
submission. -/
theorem Seen.of_awaiting (hseen : Seen truthful start world observed)
    (hawaiting : observed.awaitingAttach = some epoch) :
    start ≤ epoch ∧ epoch ≤ observed.lastEpoch ∧ There world epoch ∧
      ∃ submitted, observed.lastSubmitted = some submitted ∧ epoch ≤ submitted := by
  obtain ⟨found, hmarked⟩ := hseen.marks
  have hmem := hmarked.awaiting epoch hawaiting
  obtain ⟨hfirst, hlast⟩ := mem_epochsBetween.mp (hmarked.among.subset hmem)
  obtain ⟨submitted, hsubmitted, hle⟩ := exists_getLast?_of_mem
    ((pairwise_epochsBetween start observed.lastEpoch).sublist hmarked.among) hmem
  exact ⟨hfirst, hlast, hmarked.there epoch hmem, submitted,
    hmarked.lastSubmitted.trans hsubmitted, hle⟩

/-- A refusal for marks and bounds that contradict each other. -/
def Contradicts : Refusal → Prop
  | .lastBeforeStart _ _ => True
  | .awaitingAttachOutsideLog _ _ _ => True
  | .submissionAheadOfLog _ _ => True
  | .attachmentAheadOfSubmission _ _ => True
  | _ => False

theorem Seen.checkAwaitingAttach (hseen : Seen truthful start world observed) :
    Worker.checkAwaitingAttach observed = .ok () := by
  unfold Worker.checkAwaitingAttach
  cases hawaiting : observed.awaitingAttach with
  | none => rfl
  | some epoch =>
    obtain ⟨hfirst, hlast, -, submitted, hsubmitted, hle⟩ := hseen.of_awaiting hawaiting
    dsimp only
    rw [require_of_true, require_of_true]
    · rfl
    · exact ⟨submitted, hsubmitted, hle⟩
    · rw [hseen.bounds.first, not_or, UInt64.not_lt, UInt64.not_lt]
      exact ⟨hfirst, hlast⟩

theorem Seen.checkLastSubmitted (hseen : Seen truthful start world observed) :
    Worker.checkLastSubmitted observed = .ok () := by
  unfold Worker.checkLastSubmitted
  cases hsubmitted : observed.lastSubmitted with
  | none => rfl
  | some submitted => exact require_of_true (hseen.of_submitted hsubmitted).2.1

theorem Seen.startEpoch_le (hseen : Seen truthful start world observed) :
    observed.startEpoch ≤ saturatingAddU64 observed.lastEpoch 1 := by
  have hword := start.toNat_lt
  have hreaches := hseen.bounds.reaches
  rw [hseen.bounds.first, UInt64.le_iff_toNat_le, toNat_saturatingAddU64, UInt64.toNat_one]
  omega

/-- The worker does not refuse what it observed as contradicting itself. -/
theorem Seen.not_contradicts (hseen : Seen truthful start world observed) {refusal : Refusal}
    (hrefuse : nextStepWithPolicy schedule observed policy = .refuse refusal) :
    ¬ Contradicts refusal := by
  intro hcontradicts
  have hother {other : Refusal} (hother : ¬ Contradicts other) : other ≠ refusal := by
    rintro rfl
    exact hother hcontradicts
  have hstep : stepOrRefusal schedule observed policy ≠ .error refusal := by
    refine bind_ne_error (okOr_ne_error (hother id)) fun today _ ↦ ?_
    refine bind_ne_error (okOr_ne_error (hother id)) fun newest _ ↦ ?_
    refine bind_ne_error (require_ne_error (.inl hseen.startEpoch_le)) fun _ _ ↦ ?_
    refine bind_ne_error (require_ne_error (.inr (hother id))) fun _ _ ↦ ?_
    rw [hseen.checkAwaitingAttach, bind_ok, hseen.checkLastSubmitted, bind_ok]
    cases observed.awaitingAttach with
    | some epoch => simp
    | none =>
      dsimp only
      split_ifs
      · simp
      · refine bind_ne_error (okOr_ne_error (hother id)) fun candidate _ ↦ ?_
        refine bind_ne_error (require_ne_error (.inr (hother id))) fun _ _ ↦ ?_
        refine bind_ne_error (okOr_ne_error (hother id)) fun scheduled _ ↦ ?_
        simp
  exact hstep (nextStepWithPolicy_eq_refuse_iff.mp hrefuse)

/-- A publication is chosen when every earlier epoch of the log is attached. -/
theorem Seen.attachedBefore (hseen : Seen truthful start world observed)
    (hsound : Sound worker start world)
    (hpublish : nextStepWithPolicy schedule observed policy = .publish epoch) {earlier : UInt64}
    (hfirst : start ≤ earlier) (hless : earlier < epoch) : IsAttached world.ledger earlier := by
  obtain ⟨today, scheduled, hchosen⟩ := exists_chosenPublication hpublish
  have hnext := hchosen.next
  have hnat := UInt64.lt_iff_toNat_lt.mp hless
  have hlow := UInt64.le_iff_toNat_le.mp hfirst
  have hlast : start ≤ observed.lastEpoch := UInt64.le_iff_toNat_le.mpr (by omega)
  have hpublished := hseen.bounds.published observed.lastEpoch hlast (UInt64.le_refl _)
  by_cases hbefore : earlier < observed.lastEpoch
  · exact hsound.ordered observed.lastEpoch hpublished earlier hfirst hbefore
  · have hsame : earlier = observed.lastEpoch := by
      have hhigh := UInt64.le_iff_toNat_le.mp (UInt64.not_lt.mp hbefore)
      exact UInt64.toNat_inj.mp (by omega)
    have hthrough := hchosen.submitted
    rw [submittedThrough] at hthrough
    cases hsubmitted : observed.lastSubmitted with
    | none =>
      obtain ⟨address, config, hlog, -⟩ := hsound.log
      have hpositive := hlog.started.positive
      rw [hlog.startEpoch] at hpositive
      rw [hsubmitted, Option.getD_none, UInt64.lt_iff_toNat_lt, toNat_saturatingSubU64,
        hseen.bounds.first, UInt64.toNat_one] at hthrough
      omega
    | some submitted =>
      rw [hsubmitted, Option.getD_some, UInt64.not_lt] at hthrough
      obtain ⟨-, hhigh, -⟩ := hseen.of_submitted hsubmitted
      obtain ⟨found, hmarked⟩ := hseen.marks
      have hequal : submitted = earlier := by
        rw [hsame]
        exact UInt64.le_antisymm hhigh hthrough
      rw [hequal] at hsubmitted
      exact hmarked.attached hchosen.awaiting earlier
        (List.mem_of_getLast? (hmarked.lastSubmitted.symm.trans hsubmitted))

/-- A log whose last epoch is not submitted has an epoch. -/
theorem Seen.first_le_of_behind (hseen : Seen truthful start world observed)
    (hbehind : submittedThrough observed < observed.lastEpoch) : start ≤ observed.lastEpoch := by
  by_contra hempty
  have hless := UInt64.lt_iff_toNat_lt.mp (UInt64.not_le.mp hempty)
  have hreaches := hseen.bounds.reaches
  rw [submittedThrough] at hbehind
  cases hsubmitted : observed.lastSubmitted with
  | none =>
    rw [hsubmitted, Option.getD_none, UInt64.lt_iff_toNat_lt, toNat_saturatingSubU64,
      hseen.bounds.first, UInt64.toNat_one] at hbehind
    omega
  | some submitted =>
    obtain ⟨hfirst, hlast, -⟩ := hseen.of_submitted hsubmitted
    exact hempty (UInt64.le_trans hfirst hlast)

/-- On a truthful disk, an epoch is chosen for submission when its receipt is not there. -/
theorem Seen.not_there (hseen : Seen truthful start world observed) (htruthful : truthful)
    (hsubmit : nextStepWithPolicy schedule observed policy = .submit epoch) :
    world.receipts epoch = none := by
  rw [nextStepWithPolicy_eq_iff (by simp), stepOrRefusal_eq_ok_iff] at hsubmit
  obtain ⟨today, newest, -, -, -, -, -, -, hrest⟩ := hsubmit
  cases hawaiting : observed.awaitingAttach with
  | some awaiting =>
    rw [hawaiting] at hrest
    cases hrest
  | none =>
    rw [hawaiting] at hrest
    dsimp only at hrest
    split_ifs at hrest with hbehind
    · obtain rfl := Step.submit.inj hrest
      by_contra hsome
      have hthere : There world observed.lastEpoch :=
        Option.isSome_iff_ne_none.mpr hsome
      have hinside := hseen.first_le_of_behind hbehind
      obtain ⟨submitted, hsubmitted, hle⟩ :=
        hseen.submitted htruthful hinside (UInt64.le_refl _) hthere
      rw [submittedThrough, hsubmitted, Option.getD_some] at hbehind
      exact UInt64.not_lt.mpr hle hbehind
    · obtain ⟨candidate, scheduled, -, -, -, hchosen⟩ := publishOrWait_eq_ok_iff.mp hrest
      split_ifs at hchosen

/-- An epoch is chosen for attachment when its receipt is there. -/
theorem Seen.there (hseen : Seen truthful start world observed)
    (hattach : nextStepWithPolicy schedule observed policy = .attach epoch) :
    (world.receipts epoch).isSome := by
  rw [nextStepWithPolicy_eq_iff (by simp), stepOrRefusal_eq_ok_iff] at hattach
  obtain ⟨today, newest, -, -, -, -, -, -, hrest⟩ := hattach
  cases hawaiting : observed.awaitingAttach with
  | some awaiting =>
    rw [hawaiting] at hrest
    obtain rfl := Step.attach.inj hrest
    exact (hseen.of_awaiting hawaiting).2.2.1
  | none =>
    rw [hawaiting] at hrest
    dsimp only at hrest
    split_ifs at hrest
    obtain ⟨candidate, scheduled, -, -, -, hchosen⟩ := publishOrWait_eq_ok_iff.mp hrest
    split_ifs at hchosen

end Decision

end AnchoredLog.Client.WorkerObservation
