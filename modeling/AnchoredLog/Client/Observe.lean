import AnchoredLog.Client.Alerts
import AnchoredLog.Client.Fetch

/-!
# What the worker can see

`observe` reads the bounds of the log and then, for every epoch of the log, its status on chain and
whether its receipt is there, and keeps three marks: the last epoch with a receipt, the first epoch
with a receipt that the chain calls single, and the first epoch that the chain calls single. The
marks are first-wins and last-wins updates of one loop; `marked` says what they come to.

`receipt_alert_ignores_disk` follows one of them into the alert that reads it: it is the same for
any two receipts directories, and is raised for the lowest single epoch.
-/

set_option autoImplicit false
set_option relaxedAutoImplicit false

namespace AnchoredLog.Client.Observe

open Library.ByteCodec Library.Fallible Library.Interactions Program.AccountLayouts
open Publish Fetch Worker Alerts PublicationWindow

/-! ### The observation -/

/-- Why an observation could not be made. -/
inductive ObserveFailed
  | configuration (cause : Unreachable)
  | status (epoch : UInt64) (cause : Unreachable)
deriving DecidableEq

/-- What the loop over the epochs keeps. -/
structure Marks where
  lastSubmitted : Option UInt64
  awaitingAttach : Option UInt64
  oldestSingle : Option UInt64
deriving DecidableEq

/-- Nothing has been marked. -/
def Marks.start : Marks where
  lastSubmitted := none
  awaitingAttach := none
  oldestSingle := none

/-- The marks after an epoch, from its status and whether its receipt is there. -/
def Marks.mark (marks : Marks) (epoch : UInt64) (status : AnchorStatus) (there : Bool) : Marks where
  lastSubmitted := if there then some epoch else marks.lastSubmitted
  awaitingAttach :=
    if there ∧ marks.awaitingAttach.isNone ∧ status = .single then some epoch
    else marks.awaitingAttach
  oldestSingle :=
    if status = .single ∧ marks.oldestSingle.isNone then some epoch else marks.oldestSingle

/-- Asks about one epoch after the other. -/
def observeEpochs : List UInt64 → Marks → Inquiry (Except ObserveFailed Marks)
  | [], marks => pure (.ok marks)
  | epoch :: rest, marks => do
    match ← status epoch with
    | .error cause => pure (.error (.status epoch cause))
    | .ok answer =>
      let there ← receiptExists epoch
      observeEpochs rest (marks.mark epoch answer there)

/-- The observation with the marks of its loop. -/
def observedOf (now : Int64) (lag : Lag) (marks : Marks) : Observed :=
  ⟨now, lag.startEpoch, lag.lastPublished, marks.awaitingAttach, marks.lastSubmitted,
    marks.oldestSingle⟩

/-- The log's bounds, which epochs it has submitted and attached, and which is the oldest that
waits. The day bounds the read of the configuration. -/
def observe (program : Pubkey) (addresses : Addresses) (now : Int64) (today : UInt64) :
    Inquiry (Except ObserveFailed Observed) := do
  match ← sequenceLag program addresses today today with
  | .error cause => pure (.error (.configuration cause))
  | .ok lag =>
    match ← observeEpochs (epochsBetween lag.startEpoch lag.lastPublished) .start with
    | .error failure => pure (.error failure)
    | .ok marks => pure (.ok (observedOf now lag marks))

/-! ### What the marks come to -/

section Marks

variable {epochs : List UInt64} {statuses : UInt64 → AnchorStatus} {there : UInt64 → Bool}

/-- The marks after a list of epochs. -/
def marked (statuses : UInt64 → AnchorStatus) (there : UInt64 → Bool) (epochs : List UInt64)
    (marks : Marks) : Marks :=
  epochs.foldl (fun marks epoch ↦ marks.mark epoch (statuses epoch) (there epoch)) marks

theorem oldestSingle_marked (marks : Marks) :
    (marked statuses there epochs marks).oldestSingle =
      marks.oldestSingle.or (epochs.find? fun epoch ↦ statuses epoch = .single) := by
  induction epochs generalizing marks with
  | nil => simp [marked]
  | cons epoch epochs ih =>
    have hstep := ih (marks.mark epoch (statuses epoch) (there epoch))
    rw [marked, List.foldl_cons, ← marked, hstep, List.find?_cons, Marks.mark]
    cases marks.oldestSingle with
    | some oldest => simp
    | none => by_cases hsingle : statuses epoch = .single <;> simp [hsingle]

end Marks

/-! ### An observation of one source -/

section Source

variable {program : Pubkey} {addresses : Addresses} {source : Source} {receipts : UInt64 → Bool}

/-- The status a source gives an epoch; none counts as pending. -/
def statusIn (source : Source) (epoch : UInt64) : AnchorStatus :=
  match source.status epoch with
  | .ok answer => answer
  | .error _ => .pending

/-- The loop succeeds when every epoch has a status, and keeps the marks of all of them. -/
theorem answerWith_observeEpochs_eq_ok_iff {epochs : List UInt64} {marks reached : Marks} :
    answerWith (source.answers receipts) (observeEpochs epochs marks) = .ok reached ↔
      (∀ epoch ∈ epochs, ∃ answer, source.status epoch = .ok answer) ∧
        reached = marked (statusIn source) receipts epochs marks := by
  induction epochs generalizing marks with
  | nil => simp [observeEpochs, marked, eq_comm]
  | cons epoch epochs ih =>
    simp only [observeEpochs, status, receiptExists, request_bind, answerWith_ask, Source.answers,
      List.forall_mem_cons]
    cases hstatus : source.status epoch with
    | error cause => simp
    | ok answer =>
      have hsame : statusIn source epoch = answer := by rw [statusIn, hstatus]
      simp only [answerWith_ask, Source.answers, ih, Except.ok.injEq, exists_eq', true_and,
        marked, List.foldl_cons, hsame]

/-- The observation succeeds when the configuration can be read and every epoch of the log has a
status. -/
theorem answerWith_observe_eq_ok_iff {now : Int64} {today : UInt64} {observed : Observed} :
    answerWith (source.answers receipts) (observe program addresses now today) = .ok observed ↔
      ∃ lag, answerWith (source.answers receipts) (sequenceLag program addresses today today) =
          .ok lag ∧
        (∀ epoch ∈ epochsBetween lag.startEpoch lag.lastPublished,
          ∃ answer, source.status epoch = .ok answer) ∧
        observed = observedOf now lag (marked (statusIn source) receipts
          (epochsBetween lag.startEpoch lag.lastPublished) .start) := by
  simp only [observe, answerWith_bind]
  cases answerWith (source.answers receipts) (sequenceLag program addresses today today) with
  | error cause => simp
  | ok lag =>
    simp only [answerWith_bind, Except.ok.injEq, exists_eq_left']
    have hloop (reached : Marks) := @answerWith_observeEpochs_eq_ok_iff source receipts
      (epochsBetween lag.startEpoch lag.lastPublished) .start reached
    cases hmarks : answerWith (source.answers receipts)
        (observeEpochs (epochsBetween lag.startEpoch lag.lastPublished) .start) with
    | error failure =>
      simp only [hmarks, reduceCtorEq, false_iff, not_and] at hloop
      simp only [pure_eq_done, answerWith_done, reduceCtorEq, false_iff, not_and]
      exact fun hstatuses ↦ absurd rfl (hloop _ hstatuses)
    | ok marks =>
      obtain ⟨hstatuses, rfl⟩ := (hloop marks).mp hmarks
      simp only [pure_eq_done, answerWith_done, Except.ok.injEq]
      exact ⟨fun heq ↦ ⟨hstatuses, heq.symm⟩, fun hboth ↦ hboth.2.symm⟩

end Source

/-! ### The receipt alert -/

/-- An earlier epoch is published earlier by the deployed schedule, at a time not below zero. -/
theorem exists_deployed_publicationTime_le {earlier later : UInt64} {time : Int64}
    (hle : earlier ≤ later) (htime : publicationTime .deployed later = some time) :
    ∃ published, publicationTime .deployed earlier = some published ∧
      0 ≤ published.toInt ∧ published.toInt ≤ time.toInt := by
  have hnat : earlier.toNat ≤ later.toNat := UInt64.le_iff_toNat_le.mp hle
  have hoffset : Schedule.deployed.publishOffset.toInt = 3600 := rfl
  obtain ⟨hfits, hvalue⟩ := publicationTime_eq_some_iff.mp htime
  have hword := time.toInt_lt
  have hpublished := Int64.toInt_ofInt_of_le (n := earlier.toNat * 86400 + 86400 + 3600)
    (by omega) (by omega)
  exact ⟨_, publicationTime_eq_some_iff.mpr ⟨by omega, hpublished⟩, by omega, by omega⟩

/-- A receipt is reported as unconfirmed. -/
def RaisesReceiptUnconfirmed (raised : List Alert) : Prop :=
  ∃ epoch waiting budget, Alert.receiptUnconfirmed epoch waiting budget ∈ raised

section ReceiptAlert

variable {observed : Observed} {supervision : Supervision} {thresholds : Thresholds}
  (hday : 86400 ≤ observed.now.toInt)

include hday in
/-- The receipt alert is raised for the oldest single epoch, when its publication is longer ago than
the budget. -/
theorem receiptUnconfirmed_mem_alerts_iff {epoch : UInt64} {waiting budget : Int64} :
    .receiptUnconfirmed epoch waiting budget ∈ alerts .deployed observed supervision thresholds ↔
      observed.oldestSingle = some epoch ∧
        ∃ published, publicationTime .deployed epoch = some published ∧
          thresholds.receiptBudget.toInt < observed.now.toInt - published.toInt ∧
          waiting = saturatingSubI64 observed.now published ∧
            budget = thresholds.receiptBudget := by
  obtain ⟨today, newest, -, hnewest, -, -⟩ := exists_today hday
  have hexact (named : UInt64) (time : Int64)
      (htime : publicationTime .deployed named = some time) :
      thresholds.receiptBudget < saturatingSubI64 observed.now time ↔
        thresholds.receiptBudget.toInt < observed.now.toInt - time.toInt := by
    obtain ⟨same, hsame, hnonneg, -⟩ :=
      exists_deployed_publicationTime_le (UInt64.le_refl named) htime
    rw [htime, Option.some.injEq] at hsame
    subst hsame
    exact lt_saturatingSubI64_iff_of_nonneg (by omega) hnonneg
  rw [mem_alerts_iff_of_kind hnewest]
  refine (mem_receiptUnconfirmed_iff hexact).trans ?_
  constructor
  · rintro ⟨named, hnamed, published, hpublished, hlate, halert⟩
    cases halert
    exact ⟨hnamed, published, hpublished, hlate, rfl, rfl⟩
  · rintro ⟨hsingle, published, hpublished, hlate, rfl, rfl⟩
    exact ⟨epoch, hsingle, published, hpublished, hlate, rfl⟩

end ReceiptAlert

theorem statusIn_eq_single_iff {source : Source} {epoch : UInt64} :
    statusIn source epoch = .single ↔ source.status epoch = .ok .single := by
  rw [statusIn]
  cases source.status epoch <;> simp

/-- The epoch that is found among those of a range is the lowest that the source calls single. -/
theorem find?_single_eq_some {source : Source} {first last epoch : UInt64}
    (hfind : (epochsBetween first last).find? (fun epoch ↦ statusIn source epoch = .single) =
      some epoch) :
    first ≤ epoch ∧ epoch ≤ last ∧ source.status epoch = .ok .single ∧
      ∀ lower, first ≤ lower → lower < epoch → source.status lower ≠ .ok .single := by
  have hfound := find?_epochsBetween_eq_some hfind
  simp only [decide_eq_true_eq, statusIn_eq_single_iff] at hfound
  exact hfound

/-- The oldest single epoch of an observation is read from the statuses alone. -/
theorem oldestSingle_observedOf (source : Source) (now : Int64) (lag : Lag)
    (receipts : UInt64 → Bool) :
    (observedOf now lag (marked (statusIn source) receipts
      (epochsBetween lag.startEpoch lag.lastPublished) .start)).oldestSingle =
      (epochsBetween lag.startEpoch lag.lastPublished).find? fun epoch ↦
        statusIn source epoch = .single :=
  (oldestSingle_marked .start).trans Option.none_or

/-- Whether the receipt alert is raised, and for which epoch, is read from the statuses alone. -/
theorem receiptUnconfirmed_mem_alerts_observedOf (source : Source) {now : Int64} (lag : Lag)
    (supervision : Supervision) (thresholds : Thresholds) (hday : 86400 ≤ now.toInt)
    (receipts : UInt64 → Bool) {epoch : UInt64} {waiting budget : Int64} :
    .receiptUnconfirmed epoch waiting budget ∈
        alerts .deployed (observedOf now lag (marked (statusIn source) receipts
          (epochsBetween lag.startEpoch lag.lastPublished) .start)) supervision thresholds ↔
      (epochsBetween lag.startEpoch lag.lastPublished).find?
          (fun epoch ↦ statusIn source epoch = .single) = some epoch ∧
        ∃ published, publicationTime .deployed epoch = some published ∧
          thresholds.receiptBudget.toInt < now.toInt - published.toInt ∧
          waiting = saturatingSubI64 now published ∧ budget = thresholds.receiptBudget := by
  rw [← oldestSingle_observedOf source now lag receipts]
  exact @receiptUnconfirmed_mem_alerts_iff (observedOf now lag _) _ _ hday _ _ _

/-- Any two receipts directories beside one chain give the same receipt alerts. The alert is raised
when some single epoch of the log was published longer ago than the budget, and names the lowest
single epoch. -/
theorem receipt_alert_ignores_disk (program : Pubkey) (addresses : Addresses) (source : Source)
    (now : Int64) (today : UInt64) (left right : UInt64 → Bool) (supervision : Supervision)
    (thresholds : Thresholds) (observed : Observed) (hday : 86400 ≤ now.toInt)
    (hobserved : answerWith (source.answers left) (observe program addresses now today) =
      .ok observed) :
    ∃ other view config,
      answerWith (source.answers right) (observe program addresses now today) = .ok other ∧
      source.accountsAt [addresses.config, addresses.checkpoint today] = .ok view ∧
      configOf program view = .ok config ∧
      (∀ epoch waiting budget,
        .receiptUnconfirmed epoch waiting budget ∈
            alerts .deployed observed supervision thresholds ↔
          .receiptUnconfirmed epoch waiting budget ∈
            alerts .deployed other supervision thresholds) ∧
      (RaisesReceiptUnconfirmed (alerts .deployed observed supervision thresholds) ↔
        ∃ epoch, config.startEpoch ≤ epoch ∧ epoch ≤ config.lastEpoch ∧
          source.status epoch = .ok .single ∧
          ∃ published, publicationTime .deployed epoch = some published ∧
            published.toInt + thresholds.receiptBudget.toInt < now.toInt) ∧
      ∀ epoch waiting budget,
        .receiptUnconfirmed epoch waiting budget ∈
            alerts .deployed observed supervision thresholds →
          config.startEpoch ≤ epoch ∧ epoch ≤ config.lastEpoch ∧
            source.status epoch = .ok .single ∧
            ∀ lower, config.startEpoch ≤ lower → lower < epoch →
              source.status lower ≠ .ok .single := by
  obtain ⟨lag, hlag, hstatuses, rfl⟩ := answerWith_observe_eq_ok_iff.mp hobserved
  obtain ⟨view, config, hview, hconfig, hstart, hlast⟩ := exists_config_of_sequenceLag hlag
  have hother := (@answerWith_observe_eq_ok_iff _ _ _ _ now _ _).mpr
    ⟨lag, (answerWith_sequenceLag right left today today).trans hlag, hstatuses, rfl⟩
  have hreceipt := @receiptUnconfirmed_mem_alerts_observedOf source now lag supervision thresholds
    hday
  have hlowest {epoch : UInt64} (hfind : (epochsBetween lag.startEpoch lag.lastPublished).find?
      (fun epoch ↦ statusIn source epoch = .single) = some epoch) :
      config.startEpoch ≤ epoch ∧ epoch ≤ config.lastEpoch ∧
        source.status epoch = .ok .single ∧
        ∀ lower, config.startEpoch ≤ lower → lower < epoch →
          source.status lower ≠ .ok .single := by
    rw [hstart, hlast] at hfind
    exact find?_single_eq_some hfind
  refine ⟨_, view, config, hother, hview, hconfig, ?_, ?_, ?_⟩
  · intro epoch waiting budget
    exact (hreceipt left).trans (hreceipt right).symm
  · constructor
    · rintro ⟨epoch, waiting, budget, hraised⟩
      obtain ⟨hfind, published, hpublished, hlate, -, -⟩ := (hreceipt left).mp hraised
      obtain ⟨hlow, hhigh, hchain, -⟩ := hlowest hfind
      exact ⟨epoch, hlow, hhigh, hchain, published, hpublished, by omega⟩
    · rintro ⟨epoch, hlow, hhigh, hchain, time, htime, hlate⟩
      have hmem : epoch ∈ epochsBetween lag.startEpoch lag.lastPublished :=
        mem_epochsBetween.mpr ⟨hstart ▸ hlow, hlast ▸ hhigh⟩
      have hthere : ((epochsBetween lag.startEpoch lag.lastPublished).find? fun epoch ↦
          statusIn source epoch = .single).isSome :=
        List.find?_isSome.mpr ⟨epoch, hmem, decide_eq_true (statusIn_eq_single_iff.mpr hchain)⟩
      obtain ⟨oldest, hfind⟩ := Option.isSome_iff_exists.mp hthere
      obtain ⟨-, -, -, hbelow⟩ := hlowest hfind
      have hle : oldest ≤ epoch := UInt64.not_lt.mp fun hless ↦ hbelow epoch hlow hless hchain
      obtain ⟨published, hpublished, -, hearlier⟩ := exists_deployed_publicationTime_le hle htime
      exact ⟨oldest, _, _,
        (hreceipt left).mpr ⟨hfind, published, hpublished, by omega, rfl, rfl⟩⟩
  · intro epoch waiting budget hraised
    exact hlowest ((hreceipt left).mp hraised).1

/-- The configuration of a log of two epochs. -/
def recordedConfig : LogConfig :=
  ⟨1, Octets.zeros 32, 20701, 10, 255, 20700, Octets.zeros 8⟩

/-- A chain on which the second epoch of that log has no receipt. -/
def recordedSource : Source where
  accountsAt := fun _ ↦
    .ok ⟨some 5, [some (Program.ChainRuntime.programId, recordedConfig.octets), none]⟩
  status := fun epoch ↦ .ok (if epoch = 20700 then .dual else .single)

/-- What is observed on day 20710 when the receipt of the second epoch was lost. -/
def lostReceipt : Observed :=
  ⟨1789344000, 20700, 20701, none, some 20700, some 20701⟩

/-- The lost receipt is reported. -/
theorem receipt_alert_ignores_disk_lostReceipt :
    RaisesReceiptUnconfirmed
      (alerts .deployed lostReceipt (.fromWorker lostReceipt.now) .deployed) := by
  obtain ⟨other, view, config, -, hview, hconfig, -, hraised, -⟩ :=
    receipt_alert_ignores_disk Program.ChainRuntime.programId
      ⟨Octets.zeros 32, fun _ ↦ Octets.zeros 32⟩ recordedSource lostReceipt.now 20710
      (fun epoch ↦ epoch = 20700) (fun _ ↦ true) (.fromWorker lostReceipt.now) .deployed lostReceipt
      (by decide) (by rfl)
  have hknown : configOf Program.ChainRuntime.programId view = .ok recordedConfig := by
    cases hview
    rfl
  rw [hconfig, Except.ok.injEq] at hknown
  subst hknown
  exact hraised.mpr ⟨20701, by decide, by decide, rfl, 1788656400, by decide +kernel, by decide⟩

end AnchoredLog.Client.Observe
