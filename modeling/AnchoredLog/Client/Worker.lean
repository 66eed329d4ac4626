import AnchoredLog.Library.ByteCodec
import AnchoredLog.Library.Fallible

/-!
# What the worker does next

The decisions of the anchor-B worker and of the batcher that hands roots over to it, as functions of
what was observed: the publication schedule, the worker's policy, the next step of the worker
(`nextStepWithPolicy`) and the batcher's permission to write a hand-off (`refuseToWrite`). Each is a
sequence of barriers, evaluated in the order of the source, and a refusal carries what it compared.

An epoch is a day counted from the start of 1970 in UTC. Times are signed 64-bit seconds, and the
schedule computes them with checked arithmetic; the slip allowance is added with saturation.
-/

set_option autoImplicit false
set_option relaxedAutoImplicit false

namespace AnchoredLog.Client.Worker

open Library.ByteCodec Library.Fallible

/-! ### The schedule -/

/-- The seconds of an epoch. -/
def epochSeconds : ℤ :=
  86400

/-- When each epoch is published, and how long before that its tree starts building. -/
structure Schedule where
  publishOffset : Int64
  buildLead : Int64
deriving DecidableEq

/-- The schedule of the deployment: an hour after the epoch ends, and ten minutes of building. -/
def Schedule.deployed : Schedule where
  publishOffset := 3600
  buildLead := 600

/-- The time at which the checkpoint of an epoch is submitted. -/
def publicationTime (schedule : Schedule) (epoch : UInt64) : Option Int64 := do
  let day ← tryFromI64 epoch.toNat
  let began ← tryFromI64 (day.toInt * epochSeconds)
  let ended ← tryFromI64 (began.toInt + epochSeconds)
  tryFromI64 (ended.toInt + schedule.publishOffset.toInt)

/-- The time at which the tree of an epoch starts building. -/
def buildStart (schedule : Schedule) (epoch : UInt64) : Option Int64 := do
  let published ← publicationTime schedule epoch
  tryFromI64 (published.toInt - schedule.buildLead.toInt)

/-- The day a time falls in; none before 1970. -/
def dayIndex (now : Int64) : Option UInt64 :=
  tryFromU64 (now.toInt / epochSeconds)

/-! ### The policy -/

/-- A duration in nanoseconds. -/
abbrev Duration : Type :=
  ℕ

/-- The greatest duration. -/
def Duration.max : Duration :=
  (2 ^ 64 - 1) * 1000000000 + 999999999

/-- A duration of whole seconds. -/
def Duration.fromSecs (seconds : ℕ) : Duration :=
  seconds * 1000000000

/-- A duration times a number, or the greatest one. -/
def Duration.saturatingMul (duration : Duration) (factor : ℕ) : Duration :=
  min (duration * factor) Duration.max

/-- The bounds of the unattended worker. -/
structure WorkerPolicy where
  publishAttempts : UInt32
  partitionRetryLimit : UInt32
  retryInitial : Duration
  retryMax : Duration
  maxEpochSlip : UInt64
deriving DecidableEq

namespace WorkerPolicy

/-- The policy of the deployment. -/
def production : WorkerPolicy where
  publishAttempts := 3
  partitionRetryLimit := 5
  retryInitial := Duration.fromSecs 1
  retryMax := Duration.fromSecs 30
  maxEpochSlip := 1

/-- The last day on which an epoch can still be selected for publication. -/
def lastPublishableDay (policy : WorkerPolicy) (epoch : UInt64) : UInt64 :=
  saturatingAddU64 epoch policy.maxEpochSlip

/-- The delay after a number of failures in a row; none is a stop. -/
def partitionRetryDelay (policy : WorkerPolicy) (consecutiveFailures : UInt32) :
    Option Duration :=
  if consecutiveFailures = 0 ∨ policy.partitionRetryLimit < consecutiveFailures then none
  else some ((List.range (consecutiveFailures.toNat - 1)).foldl
    (fun delay _ ↦ min (delay.saturatingMul 2) policy.retryMax) policy.retryInitial)

end WorkerPolicy

/-! ### The next step -/

/-- Everything the worker decides from. -/
structure Observed where
  now : Int64
  startEpoch : UInt64
  lastEpoch : UInt64
  awaitingAttach : Option UInt64
  lastSubmitted : Option UInt64
  oldestSingle : Option UInt64
deriving DecidableEq

/-- The day of the observation. -/
def Observed.today (observed : Observed) : Option UInt64 :=
  dayIndex observed.now

/-- The newest epoch that can be published at the time of the observation. -/
def Observed.newestPublishable (observed : Observed) : Option UInt64 := do
  let today ← observed.today
  checkedSub today 1

/-- A state the worker refuses to act on. -/
inductive Refusal
  | logAheadOfCalendar (lastEpoch newestPublishable : UInt64)
  | undatableClock (now : Int64)
  | lastBeforeStart (lastEpoch startEpoch : UInt64)
  | epochSlipExceeded (lastEpoch newestPublishable maxEpochSlip : UInt64)
  | awaitingAttachOutsideLog (awaitingAttach startEpoch lastEpoch : UInt64)
  | submissionAheadOfLog (lastSubmitted lastEpoch : UInt64)
  | attachmentAheadOfSubmission (awaitingAttach : UInt64) (lastSubmitted : Option UInt64)
  | unschedulable (epoch : UInt64)
deriving DecidableEq

/-- The one thing the worker does next. -/
inductive Step
  | publish (epoch : UInt64)
  | submit (epoch : UInt64)
  | attach (epoch : UInt64)
  | wait (untilTime : Int64)
  | refuse (refusal : Refusal)
deriving DecidableEq

/-- The barriers on the receipt that awaits attachment. -/
def checkAwaitingAttach (observed : Observed) : Except Refusal Unit :=
  match observed.awaitingAttach with
  | none => pure ()
  | some epoch => do
    require (¬ (epoch < observed.startEpoch ∨ observed.lastEpoch < epoch))
      (.awaitingAttachOutsideLog epoch observed.startEpoch observed.lastEpoch)
    require (∃ submitted ∈ observed.lastSubmitted, epoch ≤ submitted)
      (.attachmentAheadOfSubmission epoch observed.lastSubmitted)

/-- The barrier on the last submission. -/
def checkLastSubmitted (observed : Observed) : Except Refusal Unit :=
  match observed.lastSubmitted with
  | none => pure ()
  | some submitted =>
    require (submitted ≤ observed.lastEpoch) (.submissionAheadOfLog submitted observed.lastEpoch)

/-- The epoch up to which everything was submitted to the calendars. -/
def submittedThrough (observed : Observed) : UInt64 :=
  observed.lastSubmitted.getD (saturatingSubU64 observed.startEpoch 1)

/-- The barriers on the epoch after the last one, and when it is published. -/
def publishOrWait (schedule : Schedule) (observed : Observed) (policy : WorkerPolicy)
    (today newestPublishable : UInt64) : Except Refusal Step := do
  let candidate ← okOr (checkedAdd observed.lastEpoch 1)
    (.logAheadOfCalendar observed.lastEpoch newestPublishable)
  require (today ≤ policy.lastPublishableDay candidate)
    (.epochSlipExceeded observed.lastEpoch newestPublishable policy.maxEpochSlip)
  let scheduled ← okOr (publicationTime schedule candidate) (.unschedulable candidate)
  pure (if observed.now < scheduled then .wait scheduled else .publish candidate)

/-- The step of the worker, or the barrier that refuses it. -/
def stepOrRefusal (schedule : Schedule) (observed : Observed) (policy : WorkerPolicy) :
    Except Refusal Step := do
  let today ← okOr observed.today (.undatableClock observed.now)
  let newestPublishable ← okOr observed.newestPublishable (.undatableClock observed.now)
  require (observed.startEpoch ≤ saturatingAddU64 observed.lastEpoch 1)
    (.lastBeforeStart observed.lastEpoch observed.startEpoch)
  require (observed.lastEpoch ≤ newestPublishable)
    (.logAheadOfCalendar observed.lastEpoch newestPublishable)
  checkAwaitingAttach observed
  checkLastSubmitted observed
  match observed.awaitingAttach with
  | some epoch => pure (.attach epoch)
  | none =>
    if submittedThrough observed < observed.lastEpoch then pure (.submit observed.lastEpoch)
    else publishOrWait schedule observed policy today newestPublishable

/-- The next step of the worker under a policy. -/
def nextStepWithPolicy (schedule : Schedule) (observed : Observed) (policy : WorkerPolicy) :
    Step :=
  match stepOrRefusal schedule observed policy with
  | .ok step => step
  | .error refusal => .refuse refusal

/-- The next step of the worker. -/
def nextStep (schedule : Schedule) (observed : Observed) : Step :=
  nextStepWithPolicy schedule observed WorkerPolicy.production

/-! ### The hand-off of the batcher -/

/-- The octets of a hand-off. -/
def handoffLen : ℕ :=
  137

/-- Why the batcher may not write a hand-off. -/
inductive HandoffWriteRefused
  | undatableClock (now : Int64)
  | epochAheadOfToday (epoch today : UInt64)
  | beforeBuildStart (epoch : UInt64) (now start : Int64)
  | alreadyWrittenDifferently (epoch : UInt64)
  | pastTheSlipAllowance (epoch today latestDay : UInt64)
  | unschedulable (epoch : UInt64)
deriving DecidableEq

/-- Whether the batcher may write a hand-off, given what is at its destination. -/
def refuseToWrite (schedule : Schedule) (policy : WorkerPolicy) (epoch : UInt64) (now : Int64)
    (existing : Option (List UInt8)) (bytes : Octets handoffLen) :
    Except HandoffWriteRefused Unit :=
  if existing = some bytes.octets then pure ()
  else do
    let today ← okOr (dayIndex now) (.undatableClock now)
    require (epoch ≤ today) (.epochAheadOfToday epoch today)
    let start ← okOr (buildStart schedule epoch) (.unschedulable epoch)
    require (start ≤ now) (.beforeBuildStart epoch now start)
    require (today ≤ policy.lastPublishableDay epoch)
      (.pastTheSlipAllowance epoch today (policy.lastPublishableDay epoch))
    match existing with
    | some _ => throw (.alreadyWrittenDifferently epoch)
    | none => pure ()

/-! ### What the schedule computes -/

section Schedule

variable {schedule : Schedule} {epoch : UInt64} {scheduled start now : Int64}

/-- An epoch is scheduled exactly where every intermediate time fits. -/
theorem publicationTime_eq_some_iff :
    publicationTime schedule epoch = some scheduled ↔
      (epoch.toNat : ℤ) * 86400 + 86400 < 2 ^ 63 ∧
        scheduled.toInt = epoch.toNat * 86400 + 86400 + schedule.publishOffset.toInt := by
  simp only [publicationTime, Option.bind_eq_bind, Option.bind_eq_some_iff,
    tryFromI64_eq_some_iff, epochSeconds]
  constructor
  · rintro ⟨day, hday, began, hbegan, ended, hended, hscheduled⟩
    have hfits := ended.toInt_lt
    rw [hbegan, hday] at hended
    rw [hended] at hfits hscheduled
    exact ⟨hfits, hscheduled⟩
  · rintro ⟨hfits, hscheduled⟩
    have hword (value : ℤ) (hlow : 0 ≤ value) (hhigh : value < 2 ^ 63) :
        (Int64.ofInt value).toInt = value :=
      Int64.toInt_ofInt_of_le (by omega) hhigh
    refine ⟨Int64.ofInt epoch.toNat, hword _ (by omega) (by omega),
      Int64.ofInt (epoch.toNat * 86400), ?_, Int64.ofInt (epoch.toNat * 86400 + 86400), ?_, ?_⟩
    · rw [hword _ (by omega) (by omega), hword _ (by omega) (by omega)]
    · rw [hword _ (by omega) hfits, hword _ (by omega) (by omega)]
    · rw [hword _ (by omega) hfits, hscheduled]

theorem buildStart_eq_some_iff :
    buildStart schedule epoch = some start ↔
      ∃ scheduled, publicationTime schedule epoch = some scheduled ∧
        start.toInt = scheduled.toInt - schedule.buildLead.toInt := by
  simp only [buildStart, Option.bind_eq_bind, Option.bind_eq_some_iff, tryFromI64_eq_some_iff]

theorem dayIndex_eq_some_iff {today : UInt64} :
    dayIndex now = some today ↔ (today.toNat : ℤ) = now.toInt / 86400 :=
  tryFromU64_eq_some_iff

theorem newestPublishable_eq_some_iff {observed : Observed} {newest : UInt64} :
    observed.newestPublishable = some newest ↔
      ∃ today, observed.today = some today ∧ newest.toNat + 1 = today.toNat := by
  simp only [Observed.newestPublishable, Option.bind_eq_bind, Option.bind_eq_some_iff,
    checkedSub_eq_some_iff, UInt64.toNat_one]

end Schedule

/-! ### What a step rests on -/

section Steps

variable {schedule : Schedule} {observed : Observed} {policy : WorkerPolicy}

theorem nextStepWithPolicy_eq_iff {step : Step} (hstep : ∀ refusal, step ≠ .refuse refusal) :
    nextStepWithPolicy schedule observed policy = step ↔
      stepOrRefusal schedule observed policy = .ok step := by
  rw [nextStepWithPolicy]
  cases stepOrRefusal schedule observed policy with
  | ok taken => simp
  | error refusal => simpa using (hstep refusal).symm

theorem publishOrWait_eq_ok_iff {today newest : UInt64} {step : Step} :
    publishOrWait schedule observed policy today newest = .ok step ↔
      ∃ candidate scheduled, checkedAdd observed.lastEpoch 1 = some candidate ∧
        today ≤ policy.lastPublishableDay candidate ∧
        publicationTime schedule candidate = some scheduled ∧
        step = if observed.now < scheduled then .wait scheduled else .publish candidate := by
  simp only [publishOrWait, okOr_bind_eq_ok_iff, bind_unit_eq_ok_iff, require_eq_ok_iff,
    pure_eq_ok, Except.ok.injEq]
  constructor
  · rintro ⟨candidate, hcandidate, hslip, scheduled, hscheduled, hstep⟩
    exact ⟨candidate, scheduled, hcandidate, hslip, hscheduled, hstep.symm⟩
  · rintro ⟨candidate, scheduled, hcandidate, hslip, hscheduled, hstep⟩
    exact ⟨candidate, hcandidate, hslip, scheduled, hscheduled, hstep.symm⟩

/-- A step that is no refusal has passed the barriers on the observation, and is the first thing
that is due. -/
theorem stepOrRefusal_eq_ok_iff {step : Step} :
    stepOrRefusal schedule observed policy = .ok step ↔
      ∃ today newest, observed.today = some today ∧ observed.newestPublishable = some newest ∧
        observed.startEpoch ≤ saturatingAddU64 observed.lastEpoch 1 ∧
        observed.lastEpoch ≤ newest ∧ checkAwaitingAttach observed = .ok () ∧
        checkLastSubmitted observed = .ok () ∧
        match observed.awaitingAttach with
        | some epoch => step = .attach epoch
        | none =>
          if submittedThrough observed < observed.lastEpoch then step = .submit observed.lastEpoch
          else publishOrWait schedule observed policy today newest = .ok step := by
  have hlast (today newest : UInt64) :
      (match observed.awaitingAttach with
        | some epoch => (pure (.attach epoch) : Except Refusal Step)
        | none =>
          if submittedThrough observed < observed.lastEpoch then pure (.submit observed.lastEpoch)
          else publishOrWait schedule observed policy today newest) = .ok step ↔
        match observed.awaitingAttach with
        | some epoch => step = .attach epoch
        | none =>
          if submittedThrough observed < observed.lastEpoch then step = .submit observed.lastEpoch
          else publishOrWait schedule observed policy today newest = .ok step := by
    cases observed.awaitingAttach with
    | some epoch => simp only [pure_eq_ok, Except.ok.injEq, eq_comm]
    | none =>
      dsimp only
      split
      · simp only [pure_eq_ok, Except.ok.injEq, eq_comm]
      · exact Iff.rfl
  simp only [stepOrRefusal, okOr_bind_eq_ok_iff, bind_unit_eq_ok_iff, require_eq_ok_iff]
  constructor
  · rintro ⟨today, htoday, newest, hnewest, hstart, hcalendar, hawaiting, hsubmitted, hrest⟩
    exact ⟨today, newest, htoday, hnewest, hstart, hcalendar, hawaiting, hsubmitted,
      (hlast today newest).mp hrest⟩
  · rintro ⟨today, newest, htoday, hnewest, hstart, hcalendar, hawaiting, hsubmitted, hrest⟩
    exact ⟨today, htoday, newest, hnewest, hstart, hcalendar, hawaiting, hsubmitted,
      (hlast today newest).mpr hrest⟩

/-- The one thing that is due when the barriers are passed. -/
theorem ne_refuse_of_stepOrRefusal {step : Step}
    (hstep : stepOrRefusal schedule observed policy = .ok step) (refusal : Refusal) :
    step ≠ .refuse refusal := by
  obtain ⟨today, newest, -, -, -, -, -, -, hrest⟩ := stepOrRefusal_eq_ok_iff.mp hstep
  rintro rfl
  cases hawaiting : observed.awaitingAttach with
  | some epoch =>
    rw [hawaiting] at hrest
    cases hrest
  | none =>
    rw [hawaiting] at hrest
    dsimp only at hrest
    split_ifs at hrest
    obtain ⟨candidate, scheduled, -, -, -, hchosen⟩ := publishOrWait_eq_ok_iff.mp hrest
    split_ifs at hchosen

theorem nextStepWithPolicy_eq_refuse_iff {refusal : Refusal} :
    nextStepWithPolicy schedule observed policy = .refuse refusal ↔
      stepOrRefusal schedule observed policy = .error refusal := by
  rw [nextStepWithPolicy]
  cases hresult : stepOrRefusal schedule observed policy with
  | ok step => simpa using ne_refuse_of_stepOrRefusal hresult refusal
  | error failure => simp

/-- What a publication has been chosen on. -/
structure ChosenPublication (schedule : Schedule) (observed : Observed) (policy : WorkerPolicy)
    (epoch today : UInt64) (scheduled : Int64) : Prop where
  dated : observed.today = some today
  awaiting : observed.awaitingAttach = none
  submitted : ¬ submittedThrough observed < observed.lastEpoch
  withinLog : ∀ last ∈ observed.lastSubmitted, last ≤ observed.lastEpoch
  beforeToday : observed.lastEpoch < today
  next : epoch.toNat = observed.lastEpoch.toNat + 1
  allowed : today ≤ policy.lastPublishableDay epoch
  timed : publicationTime schedule epoch = some scheduled
  due : scheduled ≤ observed.now

/-- A publication is chosen for the epoch after the last one, when it is due and nothing else is. -/
theorem exists_chosenPublication {epoch : UInt64}
    (hpublish : nextStepWithPolicy schedule observed policy = .publish epoch) :
    ∃ today scheduled, ChosenPublication schedule observed policy epoch today scheduled := by
  rw [nextStepWithPolicy_eq_iff (by simp), stepOrRefusal_eq_ok_iff] at hpublish
  obtain ⟨today, newest, htoday, hnewest, -, hcalendar, -, hsubmitted, hrest⟩ := hpublish
  cases hawaiting : observed.awaitingAttach with
  | some awaiting =>
    rw [hawaiting] at hrest
    cases hrest
  | none =>
    rw [hawaiting] at hrest
    dsimp only at hrest
    split at hrest
    · cases hrest
    · next hthrough =>
      obtain ⟨candidate, scheduled, hcandidate, hslip, hscheduled, hstep⟩ :=
        publishOrWait_eq_ok_iff.mp hrest
      split at hstep
      · cases hstep
      · next hdue =>
        cases hstep
        obtain ⟨day, hday, hfrontier⟩ := newestPublishable_eq_some_iff.mp hnewest
        rw [htoday, Option.some.injEq] at hday
        subst hday
        have hle : observed.lastEpoch.toNat ≤ newest.toNat := UInt64.le_iff_toNat_le.mp hcalendar
        refine ⟨today, scheduled, htoday, hawaiting, hthrough, ?_,
          UInt64.lt_iff_toNat_lt.mpr (by omega), checkedAdd_eq_some_iff.mp hcandidate, hslip,
          hscheduled, ?_⟩
        · intro last hlast
          rw [checkLastSubmitted, Option.mem_def.mp hlast] at hsubmitted
          exact require_eq_ok_iff.mp hsubmitted
        · exact Int64.not_lt.mp hdue

end Steps

end AnchoredLog.Client.Worker
