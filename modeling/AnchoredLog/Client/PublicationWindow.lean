import AnchoredLog.Client.Worker
import AnchoredLog.Program.Checkpoint

/-!
# The window in which an epoch is published

Three components judge the same calendar: the batcher that writes the hand-off of an epoch, the
worker that publishes it, and the program that accepts it. `nextStepWithPolicy_of_caughtUp` says
what the worker answers on a log that only waits for its next epoch, and the two results compare
it: `handoff_window_agrees` with the batcher, for every schedule and policy, and
`publication_window_exact` with the calendar itself and with the program, for the deployed schedule.
-/

set_option autoImplicit false
set_option relaxedAutoImplicit false

namespace AnchoredLog.Client.PublicationWindow

open Library.ByteCodec Library.Fallible Worker
open Program.AccountLayouts Program.ChainRuntime Program.Checkpoint

/-! ### A log that only waits for its next epoch -/

/-- Everything is submitted to the calendars and nothing awaits attachment. A log without an epoch
has nothing to submit. -/
structure CaughtUp (observed : Observed) : Prop where
  submitted : observed.lastSubmitted = some observed.lastEpoch ∨
    observed.lastSubmitted = none ∧ observed.lastEpoch < observed.startEpoch
  awaiting : observed.awaitingAttach = none

section CaughtUp

variable {schedule : Schedule} {observed : Observed} {policy : WorkerPolicy}

theorem CaughtUp.checkAwaitingAttach (hcaughtUp : CaughtUp observed) :
    checkAwaitingAttach observed = .ok () := by
  rw [Worker.checkAwaitingAttach, hcaughtUp.awaiting]
  rfl

theorem CaughtUp.checkLastSubmitted (hcaughtUp : CaughtUp observed) :
    checkLastSubmitted observed = .ok () := by
  rcases hcaughtUp.submitted with hsome | ⟨hnone, -⟩
  · rw [Worker.checkLastSubmitted, hsome]
    exact require_of_true (UInt64.le_refl _)
  · rw [Worker.checkLastSubmitted, hnone]
    rfl

theorem CaughtUp.not_submittedThrough_lt (hcaughtUp : CaughtUp observed) :
    ¬ submittedThrough observed < observed.lastEpoch := by
  rcases hcaughtUp.submitted with hsome | ⟨hnone, hbefore⟩
  · rw [submittedThrough, hsome]
    exact UInt64.lt_irrefl _
  · rw [submittedThrough, hnone, Option.getD_none, UInt64.lt_iff_toNat_lt, toNat_saturatingSubU64]
    have hnat := UInt64.lt_iff_toNat_lt.mp hbefore
    rw [UInt64.toNat_one]
    omega

/-- On such a log the worker compares the last epoch with the frontier, then publishes or waits. -/
theorem CaughtUp.stepOrRefusal (hcaughtUp : CaughtUp observed) {today newest : UInt64}
    (htoday : observed.today = some today) (hnewest : newest.toNat + 1 = today.toNat)
    (hlog : observed.startEpoch.toNat ≤ observed.lastEpoch.toNat + 1) :
    stepOrRefusal schedule observed policy =
      if observed.lastEpoch ≤ newest then publishOrWait schedule observed policy today newest
      else .error (.logAheadOfCalendar observed.lastEpoch newest) := by
  have hfrontier : observed.newestPublishable = some newest :=
    newestPublishable_eq_some_iff.mpr ⟨today, htoday, hnewest⟩
  have hstart : observed.startEpoch ≤ saturatingAddU64 observed.lastEpoch 1 := by
    rw [UInt64.le_iff_toNat_le, toNat_saturatingAddU64, UInt64.toNat_one]
    have hword := observed.startEpoch.toNat_lt
    omega
  rw [Worker.stepOrRefusal, htoday, hfrontier]
  simp only [okOr_some, bind_ok]
  rw [require_of_true hstart, bind_ok]
  by_cases hcalendar : observed.lastEpoch ≤ newest
  · rw [require_of_true hcalendar, bind_ok, hcaughtUp.checkAwaitingAttach, bind_ok,
      hcaughtUp.checkLastSubmitted, bind_ok, hcaughtUp.awaiting, if_pos hcalendar]
    exact if_neg hcaughtUp.not_submittedThrough_lt
  · rw [require_of_false hcalendar, bind_error, if_neg hcalendar]

/-- What the worker answers on such a log whose last epoch is before the day. -/
theorem nextStepWithPolicy_of_caughtUp (hcaughtUp : CaughtUp observed) {today newest : UInt64}
    (htoday : observed.today = some today) (hnewest : newest.toNat + 1 = today.toNat)
    (hlog : observed.startEpoch.toNat ≤ observed.lastEpoch.toNat + 1)
    (hbefore : observed.lastEpoch < today) {scheduled : Int64}
    (hscheduled : publicationTime schedule (observed.lastEpoch + 1) = some scheduled) :
    nextStepWithPolicy schedule observed policy =
      if policy.lastPublishableDay (observed.lastEpoch + 1) < today then
        .refuse (.epochSlipExceeded observed.lastEpoch newest policy.maxEpochSlip)
      else if observed.now < scheduled then .wait scheduled
      else .publish (observed.lastEpoch + 1) := by
  have hnat := UInt64.lt_iff_toNat_lt.mp hbefore
  have hword := today.toNat_lt
  have hcalendar : observed.lastEpoch ≤ newest := UInt64.le_iff_toNat_le.mpr (by omega)
  have hcandidate : checkedAdd observed.lastEpoch 1 = some (observed.lastEpoch + 1) :=
    checkedAdd_one_eq_some_iff.mpr ⟨by omega, rfl⟩
  rw [nextStepWithPolicy, hcaughtUp.stepOrRefusal htoday hnewest hlog, if_pos hcalendar,
    publishOrWait, hcandidate, okOr_some, bind_ok]
  by_cases hslip : policy.lastPublishableDay (observed.lastEpoch + 1) < today
  · rw [require_of_false (UInt64.not_le.mpr hslip), bind_error, if_pos hslip]
  · rw [require_of_true (UInt64.not_lt.mp hslip), bind_ok, hscheduled, if_neg hslip]
    rfl

end CaughtUp

/-! ### The batcher and the worker -/

section Handoff

variable {schedule : Schedule} {policy : WorkerPolicy} {epoch : UInt64} {now : Int64}
  {bytes : Octets handoffLen}

/-- When the batcher may write a hand-off of which there is none. -/
theorem refuseToWrite_none_eq_ok_iff :
    refuseToWrite schedule policy epoch now none bytes = .ok () ↔
      ∃ today start, dayIndex now = some today ∧ epoch ≤ today ∧
        buildStart schedule epoch = some start ∧ start ≤ now ∧
        today ≤ policy.lastPublishableDay epoch := by
  rw [refuseToWrite, if_neg (by simp)]
  simp only [bind_unit_eq_ok_iff, okOr_bind_eq_ok_iff, require_eq_ok_iff, pure_eq_ok, and_true]
  constructor
  · rintro ⟨today, htoday, hepoch, start, hstart, hnow, hslip⟩
    exact ⟨today, start, htoday, hepoch, hstart, hnow, hslip⟩
  · rintro ⟨today, start, htoday, hepoch, hstart, hnow, hslip⟩
    exact ⟨today, htoday, hepoch, start, hstart, hnow, hslip⟩

/-- A scheduled epoch has a build start, which is not after its publication. -/
theorem exists_buildStart (hoffset : 0 ≤ schedule.publishOffset) (hlead : 0 ≤ schedule.buildLead)
    {scheduled : Int64} (hscheduled : publicationTime schedule epoch = some scheduled) :
    ∃ start, buildStart schedule epoch = some start ∧ start ≤ scheduled := by
  have hoffset : 0 ≤ schedule.publishOffset.toInt := Int64.le_iff_toInt_le.mp hoffset
  have hlead : 0 ≤ schedule.buildLead.toInt := Int64.le_iff_toInt_le.mp hlead
  have hvalue := (publicationTime_eq_some_iff.mp hscheduled).2
  have hword := schedule.buildLead.toInt_lt
  have hfits := scheduled.toInt_lt
  have hstart := Int64.toInt_ofInt_of_le (n := scheduled.toInt - schedule.buildLead.toInt)
    (by omega) (by omega)
  refine ⟨_, buildStart_eq_some_iff.mpr ⟨scheduled, hscheduled, hstart⟩, ?_⟩
  rw [Int64.le_iff_toInt_le, hstart]
  omega

end Handoff

/-- The batcher may write the hand-off of an epoch only when the worker of a log that waits for it
publishes it or waits for its time, and whenever the worker publishes it the batcher may write. -/
theorem handoff_window_agrees (schedule : Schedule) (policy : WorkerPolicy) (epoch : UInt64)
    (observed : Observed) (bytes : Octets handoffLen) (hoffset : 0 ≤ schedule.publishOffset)
    (hlead : 0 ≤ schedule.buildLead) (hepoch : 1 ≤ epoch) (hstart : observed.startEpoch ≤ epoch)
    (hlast : observed.lastEpoch = epoch - 1) (hcaughtUp : CaughtUp observed) :
    (refuseToWrite schedule policy epoch observed.now none bytes = .ok () →
      nextStepWithPolicy schedule observed policy = .publish epoch ∨
        ∃ scheduled, publicationTime schedule epoch = some scheduled ∧
          nextStepWithPolicy schedule observed policy = .wait scheduled) ∧
    (nextStepWithPolicy schedule observed policy = .publish epoch →
      refuseToWrite schedule policy epoch observed.now none bytes = .ok ()) := by
  have hpositive : 1 ≤ epoch.toNat := UInt64.le_iff_toNat_le.mp hepoch
  have hnat : observed.lastEpoch.toNat + 1 = epoch.toNat := by
    rw [hlast, UInt64.toNat_sub_of_le _ _ hepoch, UInt64.toNat_one]
    omega
  have hnext : observed.lastEpoch + 1 = epoch := by
    rw [hlast, UInt64.sub_add_cancel]
  have hlog : observed.startEpoch.toNat ≤ observed.lastEpoch.toNat + 1 := by
    rw [hnat]
    exact UInt64.le_iff_toNat_le.mp hstart
  constructor
  · intro hwrite
    obtain ⟨today, start, htoday, hcalendar, hbuild, hnow, hslip⟩ :=
      refuseToWrite_none_eq_ok_iff.mp hwrite
    obtain ⟨scheduled, hscheduled, -⟩ := buildStart_eq_some_iff.mp hbuild
    have hday : epoch.toNat ≤ today.toNat := UInt64.le_iff_toNat_le.mp hcalendar
    have hnewest : (today - 1).toNat + 1 = today.toNat := by
      rw [UInt64.toNat_sub_of_le _ _ (UInt64.le_trans hepoch hcalendar), UInt64.toNat_one]
      omega
    rw [nextStepWithPolicy_of_caughtUp hcaughtUp htoday hnewest hlog
      (UInt64.lt_iff_toNat_lt.mpr (by omega)) (by rw [hnext, hscheduled]), hnext,
      if_neg (UInt64.not_lt.mpr hslip)]
    by_cases hearly : observed.now < scheduled
    · rw [if_pos hearly]
      exact .inr ⟨scheduled, hscheduled, rfl⟩
    · rw [if_neg hearly]
      exact .inl rfl
  · intro hpublish
    obtain ⟨today, scheduled, hchosen⟩ := exists_chosenPublication hpublish
    obtain ⟨start, hbuild, hbefore⟩ := exists_buildStart hoffset hlead hchosen.timed
    have hday := UInt64.lt_iff_toNat_lt.mp hchosen.beforeToday
    exact refuseToWrite_none_eq_ok_iff.mpr ⟨today, start, hchosen.dated,
      UInt64.le_iff_toNat_le.mpr (by omega), hbuild, Int64.le_trans hbefore hchosen.due,
      hchosen.allowed⟩

/-- A log whose last epoch is 20736, at noon of the day 20738. -/
def waitingLog : Observed :=
  ⟨1791806400, 20700, 20736, none, some 20736, none⟩

/-- At that time the worker publishes the epoch 20737, so that the batcher may write it. -/
theorem handoff_window_agrees_waitingLog :
    nextStepWithPolicy .deployed waitingLog .production = .publish 20737 ∧
      refuseToWrite .deployed .production 20737 waitingLog.now none (Octets.zeros handoffLen) =
        .ok () :=
  ⟨by decide +kernel, (handoff_window_agrees .deployed .production 20737 waitingLog
    (Octets.zeros handoffLen) (by decide) (by decide) (by decide) (by decide) (by decide)
    ⟨.inl rfl, rfl⟩).2 (by decide +kernel)⟩

/-! ### The calendar and the program -/

theorem invoke_ne_error_checkpoint {result : Except UInt32 Ledger} {error : CheckpointError} :
    invoke result ≠ .error (.checkpoint error) := by
  cases result <;> simp [invoke, Except.mapError]

theorem writeAccount_ne_error_checkpoint {octets : List UInt8} {address : Pubkey}
    {ledger : Ledger} {error : CheckpointError} :
    writeAccount octets address ledger ≠ .error (.checkpoint error) :=
  bind_ne_error (require_ne_error (.inr (by simp))) fun _ _ ↦ by simp

theorem requireSeeds_ne_error_checkpoint {chain : Chain} {seeds : List (List UInt8)}
    {address : Pubkey} {error : CheckpointError} :
    requireSeeds chain seeds address ≠ .error (.checkpoint error) :=
  bind_ne_error (okOr_ne_error (by simp)) fun _ _ ↦ require_ne_error (.inr (by simp))

theorem createCheckpoint_ne_epochOutOfOrder {chain : Chain} {context : Context}
    {payer target : Pubkey} {seeds : List (List UInt8)} {ledger : Ledger} :
    createCheckpoint chain context payer target seeds ledger ≠
      .error (.checkpoint .epochOutOfOrder) := by
  unfold createCheckpoint
  dsimp only
  split
  · exact invoke_ne_error_checkpoint
  · refine bind_ne_error ?_ fun _ _ ↦ bind_ne_error invoke_ne_error_checkpoint fun _ _ ↦
      invoke_ne_error_checkpoint
    unfold topUp
    split
    · exact bind_ne_error (okOr_ne_error (by simp)) fun _ _ ↦ invoke_ne_error_checkpoint
    · simp

/-- A publication of the epoch after the last one is neither out of order nor, by a clock that shows
at least the start of that epoch, ahead of its calendar. -/
theorem publishCheckpoint_ne_epochOutOfOrder {chain : Chain} {context : Context}
    {accounts : PublishAccounts} {epoch : UInt64} {root : Octets 32} {bump : UInt8}
    {ledger : Ledger} {config : LogConfig}
    (hconfig : loadAccount LogConfig.discriminator LogConfig.deserialize ledger accounts.config =
      .ok config)
    (hnext : epoch.toNat = config.lastEpoch.toNat + 1)
    (hclock : (epoch.toNat : ℤ) * 86400 ≤ context.clock.unixTimestamp.toInt) :
    publishCheckpoint chain context accounts epoch root bump ledger ≠
      .error (.checkpoint .epochOutOfOrder) := by
  have horder : checkedAdd config.lastEpoch 1 = some epoch := checkedAdd_eq_some_iff.mpr hnext
  have hword := context.clock.unixTimestamp.toInt_lt
  have hday : context.clock.unixTimestamp.toInt.tdiv 86400 =
      context.clock.unixTimestamp.toInt / 86400 :=
    Int.tdiv_eq_ediv_of_nonneg (by omega)
  obtain ⟨chainDay, hreading, hvalue⟩ := @exists_tryFromU64
    (context.clock.unixTimestamp.toInt.tdiv 86400) (by omega) (by omega)
  have hcalendar : epoch ≤ chainDay := UInt64.le_iff_toNat_le.mpr (by omega)
  rw [publishCheckpoint, hconfig, bind_ok]
  refine bind_ne_error (require_ne_error (.inr (by simp))) fun _ _ ↦ ?_
  refine bind_ne_error (require_ne_error (.inr (by simp))) fun _ _ ↦ ?_
  refine bind_ne_error (require_ne_error (.inr (by simp))) fun _ _ ↦ ?_
  refine bind_ne_error requireSeeds_ne_error_checkpoint fun _ _ ↦ ?_
  refine bind_ne_error (require_ne_error (.inr (by simp))) fun _ _ ↦ ?_
  refine bind_ne_error requireSeeds_ne_error_checkpoint fun _ _ ↦ ?_
  refine bind_ne_error (require_ne_error (.inr (by simp))) fun _ _ ↦ ?_
  refine bind_ne_error (require_ne_error (.inr (by simp))) fun _ _ ↦ ?_
  refine bind_ne_error (require_ne_error (.inr (by simp))) fun _ _ ↦ ?_
  rw [horder, okOr_some, bind_ok]
  refine bind_ne_error (require_ne_error (.inl rfl)) fun _ _ ↦ ?_
  rw [hreading, okOr_some, bind_ok]
  refine bind_ne_error (require_ne_error (.inl hcalendar)) fun _ _ ↦ ?_
  refine bind_ne_error createCheckpoint_ne_epochOutOfOrder fun _ _ ↦ ?_
  exact bind_ne_error writeAccount_ne_error_checkpoint fun _ _ ↦ writeAccount_ne_error_checkpoint

/-- The slip allowance saturates past every day. -/
theorem lastPublishableDay_lt_iff {policy : WorkerPolicy} {epoch today : UInt64} :
    policy.lastPublishableDay epoch < today ↔
      epoch.toNat + policy.maxEpochSlip.toNat < today.toNat := by
  have hword := today.toNat_lt
  rw [WorkerPolicy.lastPublishableDay, UInt64.lt_iff_toNat_lt, toNat_saturatingAddU64]
  omega

/-- From the second day on there is a day and a newest publishable epoch. -/
theorem exists_today {observed : Observed} (hlow : 86400 ≤ observed.now.toInt) :
    ∃ today newest, observed.today = some today ∧ observed.newestPublishable = some newest ∧
      (today.toNat : ℤ) = observed.now.toInt / 86400 ∧ newest.toNat + 1 = today.toNat := by
  have hword := observed.now.toInt_lt
  obtain ⟨today, htoday, hvalue⟩ := @exists_tryFromU64 (observed.now.toInt / 86400) (by omega)
    (by omega)
  have hone : (1 : UInt64) ≤ today :=
    UInt64.le_iff_toNat_le.mpr (by rw [UInt64.toNat_one]; omega)
  have hnewest : (today - 1).toNat + 1 = today.toNat := by
    rw [UInt64.toNat_sub_of_le _ _ hone, UInt64.toNat_one]
    omega
  exact ⟨today, today - 1, htoday, newestPublishable_eq_some_iff.mpr ⟨today, htoday, hnewest⟩,
    hvalue, hnewest⟩

/-- The deployed schedule places every epoch before a day the clock can show. -/
theorem exists_deployed_publicationTime {epoch : UInt64} (hepoch : epoch.toNat * 86400 < 2 ^ 62) :
    ∃ scheduled, publicationTime .deployed epoch = some scheduled ∧
      scheduled.toInt = epoch.toNat * 86400 + 90000 := by
  have hvalue := Int64.toInt_ofInt_of_le (n := epoch.toNat * 86400 + 90000) (by omega) (by omega)
  refine ⟨_, publicationTime_eq_some_iff.mpr ⟨by omega, hvalue.trans ?_⟩, hvalue⟩
  rw [show Schedule.deployed.publishOffset.toInt = 3600 from rfl]
  omega

section Deployed

variable {policy : WorkerPolicy} {observed : Observed} (hcaughtUp : CaughtUp observed)
  {today newest : UInt64} (htoday : observed.today = some today)
  (hvalue : (today.toNat : ℤ) = observed.now.toInt / 86400)
  (hnewest : newest.toNat + 1 = today.toNat)
  (hlog : observed.startEpoch.toNat ≤ observed.lastEpoch.toNat + 1)
  (hbefore : observed.lastEpoch < today) (hhigh : observed.now.toInt < 2 ^ 62)

include hvalue hbefore hhigh in
/-- The epoch after one before the day is scheduled, a day and an hour after it begins. -/
theorem exists_scheduled :
    (observed.lastEpoch + 1).toNat = observed.lastEpoch.toNat + 1 ∧
      ∃ scheduled, publicationTime .deployed (observed.lastEpoch + 1) = some scheduled ∧
        scheduled.toInt = (observed.lastEpoch.toNat + 1) * 86400 + 90000 := by
  have hnat := UInt64.lt_iff_toNat_lt.mp hbefore
  have hadvance : checkedAdd observed.lastEpoch 1 = some (observed.lastEpoch + 1) :=
    checkedAdd_one_eq_some_iff.mpr ⟨by omega, rfl⟩
  have hcandidate := checkedAdd_eq_some_iff.mp hadvance
  rw [UInt64.toNat_one] at hcandidate
  obtain ⟨scheduled, hscheduled, htime⟩ :=
    @exists_deployed_publicationTime (observed.lastEpoch + 1) (by omega)
  refine ⟨hcandidate, scheduled, hscheduled, ?_⟩
  rw [htime, hcandidate]
  push_cast
  ring

include hcaughtUp htoday hvalue hnewest hlog hbefore in
/-- The three answers of the deployed worker on a log that is not ahead of the calendar. -/
theorem deployed_cases (hslip : 1 ≤ policy.maxEpochSlip.toNat)
    (hcandidate : (observed.lastEpoch + 1).toNat = observed.lastEpoch.toNat + 1)
    {scheduled : Int64}
    (hscheduled : publicationTime .deployed (observed.lastEpoch + 1) = some scheduled)
    (htime : scheduled.toInt = (observed.lastEpoch.toNat + 1) * 86400 + 90000) :
    (observed.now < scheduled ∧
        nextStepWithPolicy .deployed observed policy = .wait scheduled) ∨
      (scheduled ≤ observed.now ∧
        today.toNat ≤ observed.lastEpoch.toNat + 1 + policy.maxEpochSlip.toNat ∧
        nextStepWithPolicy .deployed observed policy = .publish (observed.lastEpoch + 1)) ∨
      (scheduled ≤ observed.now ∧
        observed.lastEpoch.toNat + 1 + policy.maxEpochSlip.toNat < today.toNat ∧
        nextStepWithPolicy .deployed observed policy =
          .refuse (.epochSlipExceeded observed.lastEpoch newest policy.maxEpochSlip)) := by
  have hstep := @nextStepWithPolicy_of_caughtUp .deployed observed policy hcaughtUp _ _ htoday
    hnewest hlog hbefore _ hscheduled
  simp only [lastPublishableDay_lt_iff, hcandidate] at hstep
  by_cases hearly : observed.now < scheduled
  · have hnow := Int64.lt_iff_toInt_lt.mp hearly
    rw [if_neg (by omega), if_pos hearly] at hstep
    exact .inl ⟨hearly, hstep⟩
  · rw [if_neg hearly] at hstep
    have hdue := Int64.not_lt.mp hearly
    by_cases hwide : observed.lastEpoch.toNat + 1 + policy.maxEpochSlip.toNat < today.toNat
    · rw [if_pos hwide] at hstep
      exact .inr (.inr ⟨hdue, hwide, hstep⟩)
    · rw [if_neg hwide] at hstep
      exact .inr (.inl ⟨hdue, not_lt.mp hwide, hstep⟩)

include hcaughtUp hlog in
/-- At the time a wait ends, the epoch is published. -/
theorem nextStepWithPolicy_at_scheduled (hslip : 1 ≤ policy.maxEpochSlip.toNat)
    (hcandidate : (observed.lastEpoch + 1).toNat = observed.lastEpoch.toNat + 1)
    {scheduled : Int64}
    (hscheduled : publicationTime .deployed (observed.lastEpoch + 1) = some scheduled)
    (htime : scheduled.toInt = (observed.lastEpoch.toNat + 1) * 86400 + 90000) :
    nextStepWithPolicy .deployed { observed with now := scheduled } policy =
      .publish (observed.lastEpoch + 1) := by
  obtain ⟨today, newest, htoday, -, hvalue, hnewest⟩ :=
    @exists_today { observed with now := scheduled } (by dsimp only; omega)
  dsimp only at hvalue
  have hbefore : observed.lastEpoch < today := UInt64.lt_iff_toNat_lt.mpr (by omega)
  rw [@nextStepWithPolicy_of_caughtUp .deployed { observed with now := scheduled } policy
    ⟨hcaughtUp.submitted, hcaughtUp.awaiting⟩ _ _ htoday hnewest hlog hbefore _ hscheduled,
    if_neg (by rw [lastPublishableDay_lt_iff, hcandidate]; omega)]
  exact if_neg fun hearly ↦ Int64.lt_irrefl hearly

include hcaughtUp htoday hnewest hlog in
/-- A log that has reached the day is ahead of the calendar. -/
theorem nextStepWithPolicy_of_ahead (hahead : today ≤ observed.lastEpoch) (schedule : Schedule) :
    nextStepWithPolicy schedule observed policy =
      .refuse (.logAheadOfCalendar observed.lastEpoch newest) := by
  have hle := UInt64.le_iff_toNat_le.mp hahead
  have hpast : ¬ observed.lastEpoch ≤ newest := by
    rw [UInt64.le_iff_toNat_le]
    omega
  rw [nextStepWithPolicy, hcaughtUp.stepOrRefusal htoday hnewest hlog, if_neg hpast]

end Deployed

/-- What the deployed worker answers on a log that only waits for its next epoch is decided by the
calendar: a wait ends in the publication it waits for, and a publication passes the order and the
calendar checks of the program, by a chain's clock that is at most a day and an hour behind. -/
theorem publication_window_exact (policy : WorkerPolicy) (observed : Observed)
    (hslip : 1 ≤ policy.maxEpochSlip) (hstart : 1 ≤ observed.startEpoch)
    (hlog : observed.startEpoch.toNat - 1 ≤ observed.lastEpoch.toNat)
    (hcaughtUp : CaughtUp observed) (hlow : 86400 ≤ observed.now.toInt)
    (hhigh : observed.now.toInt < 2 ^ 62) :
    ∃ today newest, observed.today = some today ∧ observed.newestPublishable = some newest ∧
      (today.toNat : ℤ) = observed.now.toInt / 86400 ∧
      (nextStepWithPolicy .deployed observed policy =
          .refuse (.logAheadOfCalendar observed.lastEpoch newest) ↔
        today ≤ observed.lastEpoch) ∧
      (observed.lastEpoch < today →
        ∃ scheduled, publicationTime .deployed (observed.lastEpoch + 1) = some scheduled ∧
          (∀ untilTime, nextStepWithPolicy .deployed observed policy = .wait untilTime ↔
            observed.now < scheduled ∧ untilTime = scheduled) ∧
          (∀ epoch, nextStepWithPolicy .deployed observed policy = .publish epoch ↔
            epoch = observed.lastEpoch + 1 ∧ scheduled ≤ observed.now ∧
              today.toNat ≤ observed.lastEpoch.toNat + 1 + policy.maxEpochSlip.toNat) ∧
          (nextStepWithPolicy .deployed observed policy =
              .refuse (.epochSlipExceeded observed.lastEpoch newest policy.maxEpochSlip) ↔
            scheduled ≤ observed.now ∧
              observed.lastEpoch.toNat + 1 + policy.maxEpochSlip.toNat < today.toNat)) ∧
      (∀ untilTime, nextStepWithPolicy .deployed observed policy = .wait untilTime →
        nextStepWithPolicy .deployed { observed with now := untilTime } policy =
          .publish (observed.lastEpoch + 1)) ∧
      (∀ epoch, nextStepWithPolicy .deployed observed policy = .publish epoch →
        ∀ (chain : Chain) (context : Context) (accounts : PublishAccounts) (root : Octets 32)
          (bump : UInt8) (ledger : Ledger) (config : LogConfig),
          loadAccount LogConfig.discriminator LogConfig.deserialize ledger accounts.config =
            .ok config → config.lastEpoch = observed.lastEpoch →
          observed.now.toInt - 90000 ≤ context.clock.unixTimestamp.toInt →
          publishCheckpoint chain context accounts epoch root bump ledger ≠
            .error (.checkpoint .epochOutOfOrder)) := by
  obtain ⟨today, newest, htoday, hfrontier, hvalue, hnewest⟩ := exists_today hlow
  have hone : 1 ≤ observed.startEpoch.toNat := UInt64.le_iff_toNat_le.mp hstart
  have hslip : 1 ≤ policy.maxEpochSlip.toNat := UInt64.le_iff_toNat_le.mp hslip
  have hlog : observed.startEpoch.toNat ≤ observed.lastEpoch.toNat + 1 := by omega
  refine ⟨today, newest, htoday, hfrontier, hvalue, ?_⟩
  by_cases hbefore : observed.lastEpoch < today
  · obtain ⟨hcandidate, scheduled, hscheduled, htime⟩ := exists_scheduled hvalue hbefore hhigh
    have hcases := deployed_cases hcaughtUp htoday hvalue hnewest hlog hbefore hslip hcandidate
      hscheduled htime
    have hahead : ¬ today ≤ observed.lastEpoch := UInt64.not_le.mpr hbefore
    refine ⟨?_, fun _ ↦ ⟨scheduled, hscheduled, ?_, ?_, ?_⟩, ?_, ?_⟩
    · rcases hcases with ⟨-, hstep⟩ | ⟨-, -, hstep⟩ | ⟨-, -, hstep⟩ <;> simp [hstep, hahead]
    · rcases hcases with ⟨hearly, hstep⟩ | ⟨hdue, -, hstep⟩ | ⟨hdue, -, hstep⟩
      · simp [hstep, hearly, eq_comm]
      · simp [hstep, Int64.not_lt.mpr hdue]
      · simp [hstep, Int64.not_lt.mpr hdue]
    · rcases hcases with ⟨hearly, hstep⟩ | ⟨hdue, hallowed, hstep⟩ | ⟨-, hwide, hstep⟩
      · simp [hstep, Int64.not_le.mpr hearly]
      · simp [hstep, hdue, hallowed, eq_comm]
      · simp [hstep, Nat.not_le.mpr hwide]
    · rcases hcases with ⟨hearly, hstep⟩ | ⟨-, hallowed, hstep⟩ | ⟨hdue, hwide, hstep⟩
      · simp [hstep, Int64.not_le.mpr hearly]
      · simp [hstep, Nat.not_lt.mpr hallowed]
      · simp [hstep, hdue, hwide]
    · intro untilTime hwait
      rcases hcases with ⟨hearly, hstep⟩ | ⟨-, -, hstep⟩ | ⟨-, -, hstep⟩
      · rw [hstep, Step.wait.injEq] at hwait
        subst hwait
        exact nextStepWithPolicy_at_scheduled hcaughtUp hlog hslip hcandidate hscheduled htime
      · simp [hstep] at hwait
      · simp [hstep] at hwait
    · intro epoch hpublish chain context accounts root bump ledger config hconfig hsame hclock
      rcases hcases with ⟨-, hstep⟩ | ⟨hdue, -, hstep⟩ | ⟨-, -, hstep⟩
      · simp [hstep] at hpublish
      · rw [hstep, Step.publish.injEq] at hpublish
        subst hpublish
        have hnow := Int64.le_iff_toInt_le.mp hdue
        exact publishCheckpoint_ne_epochOutOfOrder hconfig (by rw [hsame, hcandidate])
          (by rw [hcandidate]; push_cast; omega)
      · simp [hstep] at hpublish
  · have hahead := UInt64.not_lt.mp hbefore
    have hstep := @nextStepWithPolicy_of_ahead policy observed hcaughtUp _ _ htoday hnewest hlog
      hahead .deployed
    refine ⟨by simp [hstep, hahead], fun hless ↦ absurd hless hbefore, ?_, ?_⟩
    · intro untilTime hwait
      simp [hstep] at hwait
    · intro epoch hpublish
      simp [hstep] at hpublish

/-- The window of a log at noon of the day after its next epoch: it is open. -/
theorem publication_window_exact_waitingLog :
    ∃ today newest, waitingLog.today = some today ∧ waitingLog.newestPublishable = some newest ∧
      nextStepWithPolicy .deployed waitingLog .production = .publish 20737 := by
  obtain ⟨today, newest, htoday, hnewest, -, -, hwindow, -⟩ :=
    publication_window_exact .production waitingLog (by decide) (by decide) (by decide)
      ⟨.inl rfl, rfl⟩ (by decide) (by decide)
  have hday : today = 20738 := by
    rw [show waitingLog.today = some 20738 by decide +kernel, Option.some.injEq] at htoday
    exact htoday.symm
  obtain ⟨scheduled, hscheduled, -, hpublish, -⟩ := hwindow (by rw [hday]; decide)
  have htime : scheduled = 1791766800 := by
    rw [show publicationTime .deployed (waitingLog.lastEpoch + 1) = some 1791766800 by
      decide +kernel, Option.some.injEq] at hscheduled
    exact hscheduled.symm
  exact ⟨today, newest, htoday, hnewest, (hpublish 20737).mpr ⟨by decide, by rw [htime]; decide,
    by rw [hday]; decide⟩⟩

end AnchoredLog.Client.PublicationWindow
