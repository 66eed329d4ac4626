import AnchoredLog.Client.PublicationWindow

/-!
# The conditions an operator is told about

`alerts` lists every condition an observation and what a supervisor knows satisfy, in the order of
the source. The two that concern the calendar compare a backlog with a threshold, where the worker
compares days: `calendar_alerts_agree` says that they come to the same on every log, and that
neither depends on the receipts.
-/

set_option autoImplicit false
set_option relaxedAutoImplicit false

namespace AnchoredLog.Client.Alerts

open Library.Fallible Worker PublicationWindow

/-! ### Alerts -/

/-- How long each condition is tolerated. -/
structure Thresholds where
  heartbeatGrace : Int64
  publicationGrace : Int64
  sequenceLag : UInt64
  receiptBudget : Int64
  consecutiveRefusals : UInt32
deriving DecidableEq

/-- The thresholds of the deployment. -/
def Thresholds.deployed : Thresholds where
  heartbeatGrace := 1800
  publicationGrace := 7200
  sequenceLag := 1
  receiptBudget := 259200
  consecutiveRefusals := 3

/-- What a supervisor knows that the chain does not say. -/
structure Supervision where
  lastHeartbeat : Int64
  consecutiveRefusals : UInt32
  lastRefusal : Option Refusal
deriving DecidableEq

/-- What the worker can report of itself. -/
def Supervision.fromWorker (now : Int64) : Supervision where
  lastHeartbeat := now
  consecutiveRefusals := 0
  lastRefusal := none

/-- A condition worth telling an operator about. -/
inductive Alert
  | processSilent (since grace : Int64)
  | publicationMissed (epoch : UInt64) (due now : Int64)
  | sequenceLag (lastEpoch newestPublishable limit : UInt64)
  | receiptUnconfirmed (epoch : UInt64) (waiting budget : Int64)
  | repeatedRefusal (refusal : Refusal) (consecutive : UInt32)
deriving DecidableEq

/-- The alert of a scheduled time, when it is exceeded by more than a bound. -/
def overdue (scheduled : Option Int64) (now bound : Int64) (alertOf : Int64 → Alert) : List Alert :=
  match scheduled with
  | some time => if bound < saturatingSubI64 now time then [alertOf time] else []
  | none => []

section Conditions

variable (schedule : Schedule) (observed : Observed) (supervision : Supervision)
  (thresholds : Thresholds)

/-- The process has not reported within the grace. -/
def processSilent : List Alert :=
  if thresholds.heartbeatGrace < saturatingSubI64 observed.now supervision.lastHeartbeat then
    [.processSilent supervision.lastHeartbeat thresholds.heartbeatGrace]
  else []

/-- The epoch after the last one is publishable and overdue by more than the grace. -/
def publicationMissed (newestPublishable : UInt64) : List Alert :=
  let owed := saturatingAddU64 observed.lastEpoch 1
  if owed ≤ newestPublishable then
    overdue (publicationTime schedule owed) observed.now thresholds.publicationGrace fun due ↦
      .publicationMissed owed due observed.now
  else []

/-- The log is further behind the newest publishable epoch than the limit. -/
def sequenceLag (newestPublishable : UInt64) : List Alert :=
  if thresholds.sequenceLag < saturatingSubU64 newestPublishable observed.lastEpoch then
    [.sequenceLag observed.lastEpoch newestPublishable thresholds.sequenceLag]
  else []

/-- The oldest epoch without a receipt on chain has been so for longer than the budget. -/
def receiptUnconfirmed : List Alert :=
  match observed.oldestSingle with
  | some epoch =>
    overdue (publicationTime schedule epoch) observed.now thresholds.receiptBudget fun published ↦
      .receiptUnconfirmed epoch (saturatingSubI64 observed.now published) thresholds.receiptBudget
  | none => []

/-- The worker has refused as often in a row as the threshold. -/
def repeatedRefusal : List Alert :=
  match supervision.lastRefusal with
  | some refusal =>
    if thresholds.consecutiveRefusals ≤ supervision.consecutiveRefusals then
      [.repeatedRefusal refusal supervision.consecutiveRefusals]
    else []
  | none => []

/-- Every condition the state satisfies. A clock without a day is judged by its silence alone. -/
def alerts : List Alert :=
  processSilent observed supervision thresholds ++
    match observed.newestPublishable with
    | none => []
    | some newestPublishable =>
      publicationMissed schedule observed thresholds newestPublishable ++
        sequenceLag observed thresholds newestPublishable ++
        receiptUnconfirmed schedule observed thresholds ++
        repeatedRefusal supervision thresholds

end Conditions

/-! ### Which alerts are raised -/

section Raised

variable {schedule : Schedule} {observed : Observed} {supervision : Supervision}
  {thresholds : Thresholds} {newest : UInt64} {alert : Alert}

/-- The alerts of a datable observation, by kind. -/
theorem mem_alerts_iff (hnewest : observed.newestPublishable = some newest) :
    alert ∈ alerts schedule observed supervision thresholds ↔
      alert ∈ processSilent observed supervision thresholds ∨
        alert ∈ publicationMissed schedule observed thresholds newest ∨
        alert ∈ sequenceLag observed thresholds newest ∨
        alert ∈ receiptUnconfirmed schedule observed thresholds ∨
        alert ∈ repeatedRefusal supervision thresholds := by
  rw [alerts, hnewest]
  simp only [List.mem_append, or_assoc]

theorem eq_of_mem_processSilent (hmem : alert ∈ processSilent observed supervision thresholds) :
    alert = .processSilent supervision.lastHeartbeat thresholds.heartbeatGrace := by
  rw [processSilent] at hmem
  split at hmem
  · exact List.mem_singleton.mp hmem
  · exact absurd hmem List.not_mem_nil

theorem mem_sequenceLag_iff : alert ∈ sequenceLag observed thresholds newest ↔
    thresholds.sequenceLag.toNat < newest.toNat - observed.lastEpoch.toNat ∧
      alert = .sequenceLag observed.lastEpoch newest thresholds.sequenceLag := by
  rw [sequenceLag, ← toNat_saturatingSubU64, ← UInt64.lt_iff_toNat_lt]
  split
  · next hbehind => simp [hbehind]
  · next hbehind => simp [hbehind]

/-- An alert on a scheduled time is raised when the time is exceeded by more than the bound,
wherever the difference does not saturate. -/
theorem mem_overdue_iff {scheduled : Option Int64} {now bound : Int64} {alertOf : Int64 → Alert}
    (hexact : ∀ time, scheduled = some time →
      (bound < saturatingSubI64 now time ↔ bound.toInt < now.toInt - time.toInt)) :
    alert ∈ overdue scheduled now bound alertOf ↔
      ∃ time, scheduled = some time ∧ bound.toInt < now.toInt - time.toInt ∧
        alert = alertOf time := by
  cases scheduled with
  | none => simp [overdue]
  | some time =>
    have hlate := hexact time rfl
    by_cases hover : bound < saturatingSubI64 now time
    · simp [overdue, hover, hlate.mp hover]
    · simp only [overdue, hover, if_false, List.not_mem_nil, false_iff]
      rintro ⟨other, hsame, hdifference, -⟩
      rw [Option.some.injEq] at hsame
      subst hsame
      exact hover (hlate.mpr hdifference)

theorem exists_eq_of_mem_overdue {scheduled : Option Int64} {now bound : Int64}
    {alertOf : Int64 → Alert} (hmem : alert ∈ overdue scheduled now bound alertOf) :
    ∃ time, alert = alertOf time := by
  cases scheduled with
  | none => simp [overdue] at hmem
  | some time =>
    by_cases hover : bound < saturatingSubI64 now time
    · exact ⟨time, by simpa [overdue, hover] using hmem⟩
    · simp [overdue, hover] at hmem

theorem mem_publicationMissed_iff (hgrace : thresholds.publicationGrace.toInt < 2 ^ 63 - 1) :
    alert ∈ publicationMissed schedule observed thresholds newest ↔
      saturatingAddU64 observed.lastEpoch 1 ≤ newest ∧
        ∃ due, publicationTime schedule (saturatingAddU64 observed.lastEpoch 1) = some due ∧
          thresholds.publicationGrace.toInt < observed.now.toInt - due.toInt ∧
          alert = .publicationMissed (saturatingAddU64 observed.lastEpoch 1) due observed.now := by
  have hexact (time : Int64) : thresholds.publicationGrace < saturatingSubI64 observed.now time ↔
      thresholds.publicationGrace.toInt < observed.now.toInt - time.toInt :=
    lt_saturatingSubI64_iff hgrace
  unfold publicationMissed
  generalize saturatingAddU64 observed.lastEpoch 1 = owed
  dsimp only
  split
  · next howed => rw [mem_overdue_iff fun time _ ↦ hexact time, and_iff_right howed]
  · next howed => simp [howed]

theorem mem_receiptUnconfirmed_iff
    (hexact : ∀ epoch time, publicationTime schedule epoch = some time →
      (thresholds.receiptBudget < saturatingSubI64 observed.now time ↔
        thresholds.receiptBudget.toInt < observed.now.toInt - time.toInt)) :
    alert ∈ receiptUnconfirmed schedule observed thresholds ↔
      ∃ epoch, observed.oldestSingle = some epoch ∧
        ∃ published, publicationTime schedule epoch = some published ∧
          thresholds.receiptBudget.toInt < observed.now.toInt - published.toInt ∧
          alert = .receiptUnconfirmed epoch (saturatingSubI64 observed.now published)
            thresholds.receiptBudget := by
  unfold receiptUnconfirmed
  cases hsingle : observed.oldestSingle with
  | none => simp
  | some epoch =>
    simp only [Option.some.injEq, exists_eq_left']
    exact mem_overdue_iff (hexact epoch)

theorem exists_eq_of_mem_publicationMissed
    (hmem : alert ∈ publicationMissed schedule observed thresholds newest) :
    ∃ epoch due, alert = .publicationMissed epoch due observed.now := by
  unfold publicationMissed at hmem
  dsimp only at hmem
  split at hmem
  · obtain ⟨due, halert⟩ := exists_eq_of_mem_overdue hmem
    exact ⟨_, due, halert⟩
  · exact absurd hmem List.not_mem_nil

/-- An alert of the receipt condition is one of its kind. -/
theorem exists_eq_of_mem_receiptUnconfirmed
    (hmem : alert ∈ receiptUnconfirmed schedule observed thresholds) :
    ∃ epoch waiting budget, alert = .receiptUnconfirmed epoch waiting budget := by
  unfold receiptUnconfirmed at hmem
  cases hsingle : observed.oldestSingle with
  | none =>
    rw [hsingle] at hmem
    exact absurd hmem List.not_mem_nil
  | some epoch =>
    rw [hsingle] at hmem
    obtain ⟨published, halert⟩ := exists_eq_of_mem_overdue hmem
    exact ⟨epoch, _, _, halert⟩

theorem exists_eq_of_mem_repeatedRefusal (hmem : alert ∈ repeatedRefusal supervision thresholds) :
    ∃ refusal, alert = .repeatedRefusal refusal supervision.consecutiveRefusals := by
  rw [repeatedRefusal] at hmem
  split at hmem
  · split at hmem
    · exact ⟨_, List.mem_singleton.mp hmem⟩
    · exact absurd hmem List.not_mem_nil
  · exact absurd hmem List.not_mem_nil

/-- An alert is raised when the condition of its own kind raises it. -/
theorem mem_alerts_iff_of_kind (hnewest : observed.newestPublishable = some newest) :
    alert ∈ alerts schedule observed supervision thresholds ↔
      alert ∈ match alert with
        | .processSilent _ _ => processSilent observed supervision thresholds
        | .publicationMissed _ _ _ => publicationMissed schedule observed thresholds newest
        | .sequenceLag _ _ _ => sequenceLag observed thresholds newest
        | .receiptUnconfirmed _ _ _ => receiptUnconfirmed schedule observed thresholds
        | .repeatedRefusal _ _ => repeatedRefusal supervision thresholds := by
  rw [mem_alerts_iff hnewest]
  constructor
  · rintro (hsilent | hmissed | hlag | hreceipt | hrefusal)
    · obtain rfl := eq_of_mem_processSilent hsilent
      exact hsilent
    · obtain ⟨epoch, due, rfl⟩ := exists_eq_of_mem_publicationMissed hmissed
      exact hmissed
    · obtain ⟨-, rfl⟩ := mem_sequenceLag_iff.mp hlag
      exact hlag
    · obtain ⟨epoch, waiting, budget, rfl⟩ := exists_eq_of_mem_receiptUnconfirmed hreceipt
      exact hreceipt
    · obtain ⟨refusal, rfl⟩ := exists_eq_of_mem_repeatedRefusal hrefusal
      exact hrefusal
  · intro hraised
    cases alert with
    | processSilent since grace => exact .inl hraised
    | publicationMissed epoch due now => exact .inr (.inl hraised)
    | sequenceLag lastEpoch frontier limit => exact .inr (.inr (.inl hraised))
    | receiptUnconfirmed epoch waiting budget => exact .inr (.inr (.inr (.inl hraised)))
    | repeatedRefusal refusal consecutive => exact .inr (.inr (.inr (.inr hraised)))

end Raised

/-! ### The calendar -/

/-- The log is reported as lagging. -/
def RaisesSequenceLag (raised : List Alert) : Prop :=
  ∃ lastEpoch newest limit, Alert.sequenceLag lastEpoch newest limit ∈ raised

/-- A publication is reported as missed. -/
def RaisesPublicationMissed (raised : List Alert) : Prop :=
  ∃ epoch due now, Alert.publicationMissed epoch due now ∈ raised

/-- The worker refuses because too many epochs are absent. -/
def RefusesForSlip (step : Step) : Prop :=
  ∃ lastEpoch newest slip, step = .refuse (.epochSlipExceeded lastEpoch newest slip)

section Calendar

variable {observed : Observed} {supervision : Supervision} {newest : UInt64}

theorem raisesSequenceLag_iff (hnewest : observed.newestPublishable = some newest) :
    RaisesSequenceLag (alerts .deployed observed supervision .deployed) ↔
      1 < newest.toNat - observed.lastEpoch.toNat := by
  constructor
  · rintro ⟨lastEpoch, frontier, limit, hraised⟩
    exact (mem_sequenceLag_iff.mp ((mem_alerts_iff_of_kind hnewest).mp hraised)).1
  · intro hbehind
    exact ⟨_, _, _, (mem_alerts_iff_of_kind hnewest).mpr
      (mem_sequenceLag_iff.mpr ⟨hbehind, rfl⟩)⟩

theorem raisesPublicationMissed_iff (hnewest : observed.newestPublishable = some newest) :
    RaisesPublicationMissed (alerts .deployed observed supervision .deployed) ↔
      saturatingAddU64 observed.lastEpoch 1 ≤ newest ∧
        ∃ due, publicationTime .deployed (saturatingAddU64 observed.lastEpoch 1) = some due ∧
          7200 < observed.now.toInt - due.toInt := by
  constructor
  · rintro ⟨named, time, now, hraised⟩
    obtain ⟨howed, due, hdue, hlate, -⟩ := (mem_publicationMissed_iff (by decide)).mp
      ((mem_alerts_iff_of_kind hnewest).mp hraised)
    exact ⟨howed, due, hdue, hlate⟩
  · rintro ⟨howed, due, hdue, hlate⟩
    exact ⟨_, _, _, (mem_alerts_iff_of_kind hnewest).mpr
      ((mem_publicationMissed_iff (by decide)).mpr ⟨howed, due, hdue, hlate, rfl⟩)⟩

end Calendar

/-- The two calendar alerts say of a log, whatever its receipts are, what the deployed worker would
answer were everything submitted and nothing awaiting attachment. -/
theorem calendar_alerts_agree (observed settled : Observed) (supervision : Supervision)
    (today : UInt64) (hnow : settled.now = observed.now)
    (hfirst : settled.startEpoch = observed.startEpoch)
    (hlast : settled.lastEpoch = observed.lastEpoch) (hcaughtUp : CaughtUp settled)
    (hstart : 1 ≤ observed.startEpoch)
    (hlog : observed.startEpoch.toNat - 1 ≤ observed.lastEpoch.toNat)
    (htoday : observed.today = some today) (hbefore : observed.lastEpoch < today)
    (hlow : 86400 ≤ observed.now.toInt) (hhigh : observed.now.toInt < 2 ^ 62) :
    (RaisesSequenceLag (alerts .deployed observed supervision .deployed) ↔
        RefusesForSlip (nextStep .deployed settled)) ∧
      (RaisesPublicationMissed (alerts .deployed observed supervision .deployed) ↔
        ((∃ epoch, nextStep .deployed settled = .publish epoch) ∨
          RefusesForSlip (nextStep .deployed settled)) ∧
        ∃ due, publicationTime .deployed (observed.lastEpoch + 1) = some due ∧
          due.toInt + 7200 < observed.now.toInt) ∧
      (∀ untilTime, nextStep .deployed settled = .wait untilTime →
        ¬ RaisesSequenceLag (alerts .deployed observed supervision .deployed) ∧
          ¬ RaisesPublicationMissed (alerts .deployed observed supervision .deployed)) ∧
      (RefusesForSlip (nextStep .deployed settled) →
        RaisesSequenceLag (alerts .deployed observed supervision .deployed) ∧
          RaisesPublicationMissed (alerts .deployed observed supervision .deployed)) ∧
      ∀ awaitingAttach lastSubmitted oldestSingle,
        (RaisesSequenceLag (alerts .deployed
            { observed with
              awaitingAttach := awaitingAttach
              lastSubmitted := lastSubmitted
              oldestSingle := oldestSingle } supervision .deployed) ↔
          RaisesSequenceLag (alerts .deployed observed supervision .deployed)) ∧
        (RaisesPublicationMissed (alerts .deployed
            { observed with
              awaitingAttach := awaitingAttach
              lastSubmitted := lastSubmitted
              oldestSingle := oldestSingle } supervision .deployed) ↔
          RaisesPublicationMissed (alerts .deployed observed supervision .deployed)) := by
  obtain ⟨day, newest, hday, hnewest, hvalue, hfrontier⟩ := exists_today hlow
  rw [htoday, Option.some.injEq] at hday
  subst hday
  have hone : 1 ≤ observed.startEpoch.toNat := UInt64.le_iff_toNat_le.mp hstart
  have hnat : observed.lastEpoch.toNat < today.toNat := UInt64.lt_iff_toNat_lt.mp hbefore
  obtain ⟨hcandidate, due, hdue, htime⟩ := exists_scheduled hvalue hbefore hhigh
  have howed : saturatingAddU64 observed.lastEpoch 1 = observed.lastEpoch + 1 := by
    have hword := today.toNat_lt
    rw [← UInt64.toNat_inj, toNat_saturatingAddU64, hcandidate, UInt64.toNat_one]
    omega
  have hsettled : settled.today = some today := by
    rw [Observed.today, hnow]
    exact htoday
  have hcases := @deployed_cases .production settled hcaughtUp _ _ hsettled (by rw [hnow, hvalue])
    hfrontier (by rw [hfirst, hlast]; omega) (by rw [hlast]; exact hbefore) (by decide)
    (by rw [hlast, hcandidate]) due (by rw [hlast, hdue]) (by rw [hlast, htime])
  rw [hnow, hlast, show WorkerPolicy.production.maxEpochSlip.toNat = 1 from rfl] at hcases
  have hmissed : RaisesPublicationMissed (alerts .deployed observed supervision .deployed) ↔
      due.toInt + 7200 < observed.now.toInt := by
    rw [raisesPublicationMissed_iff hnewest, howed, UInt64.le_iff_toNat_le, hcandidate, hdue]
    simp only [Option.some.injEq, exists_eq_left']
    omega
  have hlag := @raisesSequenceLag_iff observed supervision newest hnewest
  have hanswer : (RefusesForSlip (nextStep .deployed settled) ↔
      observed.lastEpoch.toNat + 2 < today.toNat) ∧
      ((∃ epoch, nextStep .deployed settled = .publish epoch) ↔
        due.toInt ≤ observed.now.toInt ∧ today.toNat ≤ observed.lastEpoch.toNat + 2) ∧
      ((∃ untilTime, nextStep .deployed settled = .wait untilTime) ↔
        observed.now.toInt < due.toInt) := by
    rw [Int64.lt_iff_toInt_lt, Int64.le_iff_toInt_le] at hcases
    rw [nextStep]
    rcases hcases with ⟨hearly, hstep⟩ | ⟨hlate, hallowed, hstep⟩ | ⟨hlate, hwide, hstep⟩
    · simp only [RefusesForSlip, hstep, reduceCtorEq, exists_const, false_iff, Step.wait.injEq,
        exists_eq', true_iff]
      omega
    · simp only [RefusesForSlip, hstep, reduceCtorEq, exists_const, false_iff, Step.publish.injEq,
        exists_eq', true_iff]
      omega
    · simp only [RefusesForSlip, hstep, reduceCtorEq, exists_const, false_iff, Step.refuse.injEq,
        Refusal.epochSlipExceeded.injEq, exists_eq', exists_and_left, and_true, true_iff]
      omega
  obtain ⟨hslip, hpublish, hwait⟩ := hanswer
  refine ⟨?_, ?_, ?_, ?_, ?_⟩
  · rw [hlag, hslip]
    omega
  · rw [hmissed, hpublish, hslip, hdue]
    simp only [Option.some.injEq, exists_eq_left']
    omega
  · intro untilTime hstep
    have hearly := hwait.mp ⟨untilTime, hstep⟩
    rw [hlag, hmissed]
    omega
  · intro hrefuses
    have hwide := hslip.mp hrefuses
    rw [hlag, hmissed]
    omega
  · intro awaitingAttach lastSubmitted oldestSingle
    have hsame : ({ observed with
        awaitingAttach := awaitingAttach
        lastSubmitted := lastSubmitted
        oldestSingle := oldestSingle } : Observed).newestPublishable = some newest := hnewest
    constructor
    · rw [raisesSequenceLag_iff hsame, hlag]
    · rw [raisesPublicationMissed_iff hsame, raisesPublicationMissed_iff hnewest]

/-- A log two epochs behind the frontier, with a receipt awaited. -/
def laggingLog : Observed :=
  ⟨1791806400, 20700, 20735, some 20735, some 20735, some 20735⟩

/-- That log is reported as lagging, since the worker refuses it once its receipt is attached. -/
theorem calendar_alerts_agree_laggingLog :
    RaisesSequenceLag (alerts .deployed laggingLog (.fromWorker laggingLog.now) .deployed) ∧
      nextStep .deployed { laggingLog with awaitingAttach := none } =
        .refuse (.epochSlipExceeded 20735 20737 1) :=
  ⟨(calendar_alerts_agree laggingLog { laggingLog with awaitingAttach := none }
    (.fromWorker laggingLog.now) 20738 rfl rfl rfl ⟨.inl rfl, rfl⟩ (by decide) (by decide)
    (by decide +kernel) (by decide) (by decide) (by decide)).1.mpr
      ⟨20735, 20737, 1, by decide +kernel⟩, by decide +kernel⟩

end AnchoredLog.Client.Alerts
