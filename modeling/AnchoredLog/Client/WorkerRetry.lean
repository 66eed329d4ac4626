import AnchoredLog.Client.PublishNetwork
import AnchoredLog.Client.WorkerCycle

/-!
# The retry budget of the worker

A run of the worker's loop is a list of how its cycles went. The budget is meant to bound the failed
operations in a row: the one after the last of the budget stops the loop. Every failure is counted
by `retryPartition`, but an observation that succeeds starts the count over before the operation of
its cycle is performed. `cycleOutcome_of_ends` says what one cycle can do with the count, and
`retry_budget_bounds` that the budget bounds every run in which no cycle loses the count in this
way.
-/

set_option autoImplicit false
set_option relaxedAutoImplicit false

namespace AnchoredLog.Client.WorkerRetry

open Library.ByteCodec Library.Fallible Library.Interactions Core.Preimages
open Program.ChainRuntime Program.LogSafety PublishNetwork Fetch Worker Observe Handoffs WorkerCycle

/-! ### Failures in a row -/

/-- The cycle ended in a failed operation. -/
def isFailed : Happened → Bool
  | .failed _ => true
  | _ => false

/-- The number of failed operations since the last cycle that completed a step. -/
def failedInARow (history : List Happened) : ℕ :=
  (history.reverse.takeWhile isFailed).length

theorem failedInARow_append (history : List Happened) (happened : Happened) :
    failedInARow (history ++ [happened]) =
      if isFailed happened then failedInARow history + 1 else 0 := by
  rw [failedInARow, List.reverse_append, List.reverse_singleton, List.singleton_append,
    List.takeWhile_cons]
  split <;> rfl

@[simp] theorem failedInARow_append_failed (history : List Happened) (operation : Operation) :
    failedInARow (history ++ [.failed operation]) = failedInARow history + 1 :=
  failedInARow_append history _

theorem failedInARow_append_of_not {history : List Happened} {happened : Happened}
    (hnot : isFailed happened = false) : failedInARow (history ++ [happened]) = 0 := by
  rw [failedInARow_append, hnot, if_neg Bool.false_ne_true]

/-! ### What a cycle does with the count -/

/-- How a cycle can end: its observation fails and is counted, its operation fails and is the first
to be counted, it completes its step, or the worker stops for another reason. -/
inductive CycleOutcome (worker : Worker) (failures : UInt32) : CycleResult → Prop
  | observation : CycleOutcome worker failures (retryPartition worker failures .observation)
  | operation (operation : Operation) (hoperation : operation ≠ .observation) :
      CycleOutcome worker failures (retryPartition worker 0 operation)
  | completed (happened : Happened) (hcompleted : isFailed happened = false) :
      CycleOutcome worker failures (completed happened)
  | stopped (reason : Stop) (hreason : ∀ operation budget, reason ≠ .exhausted operation budget) :
      CycleOutcome worker failures (stopped reason)

section Cycle

variable {worker : Worker} {failures : UInt32} {epoch : UInt64} {result : CycleResult}

theorem cycleOutcome_of_ends_publish (hends : Ends (performPublish worker epoch 0) result) :
    CycleOutcome worker failures result := by
  obtain ⟨root, -, hrest⟩ := ends_bind_iff.mp hends
  cases root with
  | error failure =>
    obtain rfl := ends_done_iff.mp hrest
    exact .stopped _ fun _ _ ↦ nofun
  | ok root =>
    obtain ⟨published, -, hlast⟩ := ends_bind_iff.mp hrest
    split at hlast <;> obtain rfl := ends_done_iff.mp hlast
    · exact .stopped _ fun _ _ ↦ nofun
    · exact .completed _ rfl
    · exact .operation _ nofun
    · exact .operation _ nofun
    · exact .stopped _ fun _ _ ↦ nofun

theorem cycleOutcome_of_ends_submit (hends : Ends (performSubmit worker epoch 0) result) :
    CycleOutcome worker failures result := by
  obtain ⟨root, -, hrest⟩ := ends_bind_iff.mp hends
  cases root with
  | error failure =>
    obtain rfl := ends_done_iff.mp hrest
    exact .stopped _ fun _ _ ↦ nofun
  | ok root =>
    obtain ⟨submitted, -, hlast⟩ := ends_bind_iff.mp hrest
    split at hlast <;> obtain rfl := ends_done_iff.mp hlast
    · exact .completed _ rfl
    · exact .operation _ nofun

theorem cycleOutcome_of_ends_attachment (hends : Ends (performAttachment worker epoch 0) result) :
    CycleOutcome worker failures result := by
  obtain ⟨receipt, -, hrest⟩ := ends_bind_iff.mp hends
  cases receipt with
  | error failure =>
    obtain rfl := ends_done_iff.mp hrest
    exact .stopped _ fun _ _ ↦ nofun
  | ok receipt =>
    obtain ⟨attached, -, hlast⟩ := ends_bind_iff.mp hrest
    split at hlast <;> obtain rfl := ends_done_iff.mp hlast
    · exact .stopped _ fun _ _ ↦ nofun
    · exact .completed _ rfl
    · exact .operation _ nofun
    · exact .stopped _ fun _ _ ↦ nofun

theorem cycleOutcome_of_ends_attach (hends : Ends (performAttach worker epoch 0) result) :
    CycleOutcome worker failures result := by
  obtain ⟨root, -, hrest⟩ := ends_bind_iff.mp hends
  cases root with
  | error failure =>
    obtain rfl := ends_done_iff.mp hrest
    exact .stopped _ fun _ _ ↦ nofun
  | ok root =>
    obtain ⟨there, -, hupgrades⟩ := ends_bind_iff.mp hrest
    cases there with
    | false =>
      obtain rfl := ends_done_iff.mp hupgrades
      exact .stopped _ fun _ _ ↦ nofun
    | true =>
      obtain ⟨upgraded, -, hlast⟩ := ends_bind_iff.mp hupgrades
      split at hlast
      · obtain rfl := ends_done_iff.mp hlast
        exact .completed _ rfl
      · exact cycleOutcome_of_ends_attachment hlast
      · obtain rfl := ends_done_iff.mp hlast
        exact .operation _ nofun

theorem cycleOutcome_of_ends_perform {step : Step} (hends : Ends (perform worker 0 step) result) :
    CycleOutcome worker failures result := by
  cases step with
  | refuse refusal =>
    obtain rfl := ends_done_iff.mp hends
    exact .stopped _ fun _ _ ↦ nofun
  | wait time =>
    obtain rfl := ends_done_iff.mp hends
    exact .completed _ rfl
  | publish epoch => exact cycleOutcome_of_ends_publish hends
  | submit epoch => exact cycleOutcome_of_ends_submit hends
  | attach epoch => exact cycleOutcome_of_ends_attach hends

/-- Whatever its requests are answered with, a cycle that observed the chain counts from zero. -/
theorem cycleOutcome_of_ends {clock : Option Int64}
    (hends : Ends (cycle worker failures clock) result) : CycleOutcome worker failures result := by
  unfold WorkerCycle.cycle at hends
  split at hends
  · obtain rfl := ends_done_iff.mp hends
    exact .stopped _ fun _ _ ↦ nofun
  · split at hends
    · obtain rfl := ends_done_iff.mp hends
      exact .stopped _ fun _ _ ↦ nofun
    · obtain ⟨observed, -, hrest⟩ := ends_bind_iff.mp hends
      cases observed with
      | error failure =>
        obtain rfl := ends_done_iff.mp hrest
        exact .observation
      | ok observed => exact cycleOutcome_of_ends_perform hrest

end Cycle

/-! ### Runs of the loop -/

/-- The runs of the loop whose cycles are all allowed: how each cycle went, and what the next one
starts from, or why there is none. Every cycle reads the clock anew, and its requests are answered
with anything. -/
inductive Reached (worker : Worker) (Allowed : UInt32 → Happened → Prop) :
    List Happened → Except Stop UInt32 → Prop
  | start : Reached worker Allowed [] (.ok 0)
  | cycle {history : List Happened} {failures : UInt32} {clock : Option Int64}
      {result : CycleResult} (hreached : Reached worker Allowed history (.ok failures))
      (hends : Ends (cycle worker failures clock) result)
      (hallowed : Allowed failures result.happened) :
      Reached worker Allowed (history ++ [result.happened]) result.next

/-- The budget bounds the failed operations in a row: there are more of them only when the last one
stopped the loop for the budget. -/
def Bounded (worker : Worker) (history : List Happened) (next : Except Stop UInt32) : Prop :=
  failedInARow history ≤ worker.policy.partitionRetryLimit.toNat ∨
    failedInARow history = worker.policy.partitionRetryLimit.toNat + 1 ∧
      ∃ operation, history.getLast? = some (.failed operation) ∧
        next = .error (.exhausted operation.message worker.policy.partitionRetryLimit)

/-- A cycle does not lose the count: when one starts after a failed cycle, it is not its own
operation that fails after the chain was observed. -/
def KeepsCount (failures : UInt32) (happened : Happened) : Prop :=
  failures = 0 ∨ ∀ operation, happened = .failed operation → operation = .observation

/-- A counted failure stops the loop, or there is budget for it. -/
theorem retryPartition_cases {worker : Worker} {failures : UInt32} {operation : Operation}
    (hlimit : worker.policy.partitionRetryLimit.toNat + 1 < 2 ^ 32)
    (hfailures : failures.toNat ≤ worker.policy.partitionRetryLimit.toNat) :
    (failures.toNat = worker.policy.partitionRetryLimit.toNat ∧
      retryPartition worker failures operation = ⟨.failed operation,
        .error (.exhausted operation.message worker.policy.partitionRetryLimit)⟩) ∨
    (∃ counted : UInt32, counted.toNat = failures.toNat + 1 ∧
      counted.toNat ≤ worker.policy.partitionRetryLimit.toNat ∧
      retryPartition worker failures operation = ⟨.failed operation, .ok counted⟩) := by
  have hcounted : (failures + 1).toNat = failures.toNat + 1 := by
    rw [UInt32.toNat_add, UInt32.toNat_one, Nat.mod_eq_of_lt (by omega)]
  have hpositive : failures + 1 ≠ 0 := fun heq ↦ by
    rw [heq, UInt32.toNat_zero] at hcounted
    omega
  rw [retryPartition, if_pos (by omega)]
  rw [WorkerPolicy.partitionRetryDelay]
  rcases Nat.lt_or_ge worker.policy.partitionRetryLimit.toNat (failures.toNat + 1) with
    hover | hfits
  · rw [if_pos (.inr (UInt32.lt_iff_toNat_lt.mpr (hcounted ▸ hover)))]
    exact .inl ⟨by omega, rfl⟩
  · rw [if_neg (fun hstops ↦ hstops.elim hpositive fun hover ↦ by
      have hless := UInt32.lt_iff_toNat_lt.mp hover
      omega)]
    exact .inr ⟨failures + 1, hcounted, by omega, rfl⟩

/-- In a run whose cycles keep the count, the count of a loop that goes on is the number of failures
in a row. -/
theorem count_of_reached {worker : Worker}
    (hlimit : worker.policy.partitionRetryLimit.toNat + 1 < 2 ^ 32) {history : List Happened}
    {next : Except Stop UInt32} (hreached : Reached worker KeepsCount history next) :
    Bounded worker history next ∧ ∀ failures, next = .ok failures →
      failures.toNat = failedInARow history ∧
        failedInARow history ≤ worker.policy.partitionRetryLimit.toNat := by
  induction hreached with
  | start =>
    refine ⟨.inl (Nat.zero_le _), fun failures hnext ↦ ?_⟩
    cases hnext
    exact ⟨rfl, Nat.zero_le _⟩
  | @cycle history failures clock result hreached hends hallowed ih =>
    obtain ⟨hcount, hwithin⟩ := ih.2 failures rfl
    have hretried (counted : UInt32) (operation : Operation)
        (hsame : counted.toNat = failedInARow history)
        (hresult : result = retryPartition worker counted operation) :
        Bounded worker (history ++ [result.happened]) result.next ∧
          ∀ failures, result.next = .ok failures →
            failures.toNat = failedInARow (history ++ [result.happened]) ∧
              failedInARow (history ++ [result.happened]) ≤
                worker.policy.partitionRetryLimit.toNat := by
      rcases @retryPartition_cases worker counted operation hlimit (by omega) with
        ⟨hspent, hretry⟩ | ⟨raised, hraised, hfits, hretry⟩ <;> rw [hresult, hretry]
      · refine ⟨.inr ⟨?_, operation, List.getLast?_concat, rfl⟩, fun _ hnext ↦ nomatch hnext⟩
        rw [failedInARow_append_failed, ← hsame, hspent]
      · have hrow : failedInARow (history ++ [.failed operation]) = raised.toNat := by
          rw [failedInARow_append_failed, hraised, hsame]
        refine ⟨.inl (hrow ▸ hfits), fun failures hnext ↦ ?_⟩
        cases hnext
        exact ⟨hrow.symm, hrow ▸ hfits⟩
    cases cycleOutcome_of_ends hends with
    | observation => exact hretried failures _ hcount rfl
    | operation operation hoperation =>
      have hzero : failures = 0 := by
        refine hallowed.resolve_right fun hkept ↦ hoperation (hkept operation ?_)
        rw [retryPartition]
        split <;> rfl
      subst hzero
      exact hretried 0 operation hcount rfl
    | completed happened hcompleted =>
      have hbroken : failedInARow (history ++ [happened]) = 0 :=
        failedInARow_append_of_not hcompleted
      refine ⟨.inl (hbroken.trans_le (Nat.zero_le _)), fun failures hnext ↦ ?_⟩
      cases hnext
      exact ⟨hbroken.symm, hbroken.trans_le (Nat.zero_le _)⟩
    | stopped reason hreason =>
      exact ⟨.inl ((failedInARow_append_of_not rfl).trans_le (Nat.zero_le _)),
        fun _ hnext ↦ nomatch hnext⟩

/-- The budget bounds every outage of a run in which no cycle loses the count. -/
theorem retry_budget_bounds (worker : Worker)
    (hlimit : worker.policy.partitionRetryLimit.toNat + 1 < 2 ^ 32) (history : List Happened)
    (next : Except Stop UInt32) (hreached : Reached worker KeepsCount history next) :
    Bounded worker history next :=
  (count_of_reached hlimit hreached).1

/-! ### Calendars that cannot be reached -/

/-- A worker with the deployed schedule and policy. -/
def deployedWorker : Worker where
  chain := plainChain
  signatureFormat := zeroFormat
  receiptFormat := ⟨fun _ ↦ .error "not a receipt", fun _ ↦ Octets.zeros 32⟩
  hasher := residueHasher
  verifier := permissiveVerifier
  batcherKey := Octets.zeros 32
  payer := operator
  authority := operator
  schedule := .deployed
  policy := .production

/-- A chain of two epochs answers, of which only the first was submitted, the hand-off of the second
is there, and the OpenTimestamps client cannot be run. -/
def calendarOutage : (asked : WorkerCycle.Request) → WorkerCycle.Answer asked
  | .observe question => recordedSource.answers (fun epoch ↦ epoch = 20700) question
  | .cluster .latestBlockhash => .ok (Octets.zeros 32)
  | .cluster (.trySign _ _) => .ok ()
  | .cluster (.sendAndConfirm _) => .error "not sent"
  | .cluster (.account _) => .error "not read"
  | .cluster (.signaturesForAddress _) => .error "not listed"
  | .cluster (.signatureStatuses _) => .error "not known"
  | .trySignAttachment _ _ => .ok ()
  | .sendAttachment _ => .error "not sent"
  | .runOts _ => .error "not found"
  | .createReceipts => .ok ()
  | .writeStamped _ _ => .ok ()
  | .readStamped _ => .error "no such file"
  | .readReceipt _ => .error "no such file"
  | .readHandoff _ =>
    .ok (HandoffCodec.encode
      ⟨20701, 10, Octets.zeros 32, Octets.zeros 32, Octets.zeros 64⟩).octets

/-- What is observed during the outage. -/
theorem answerWith_look_calendarOutage :
    answerWith calendarOutage (look deployedWorker lostReceipt.now 20710) =
      .ok lostReceipt := by
  rw [look, ofInquiry, answerWith_embed]
  rfl

theorem answerWith_submit_calendarOutage (epoch : UInt64) (root : Digest) :
    answerWith calendarOutage (submit deployedWorker epoch root) =
      .error (.command "not found") :=
  rfl

/-- The hand-off of the second epoch is believed. -/
theorem answerWith_rootFor_calendarOutage :
    answerWith calendarOutage (rootFor deployedWorker 20701) = .ok (Octets.zeros 32) := by
  decide +kernel

/-- Every cycle of the outage observes the chain and fails to submit, and the next one starts from
one failure. -/
theorem answerWith_cycle_calendarOutage (failures : UInt32) :
    answerWith calendarOutage (WorkerCycle.cycle deployedWorker failures (some lostReceipt.now)) =
      ⟨.failed .submission, .ok 1⟩ := by
  have hday : dayIndex lostReceipt.now = some 20710 := by decide
  have hstep : nextStepWithPolicy .deployed lostReceipt .production = .submit 20701 := by decide
  have hperform : answerWith calendarOutage (performSubmit deployedWorker 20701 0) =
      ⟨.failed .submission, .ok 1⟩ := by
    rw [performSubmit, answerWith_bind, answerWith_rootFor_calendarOutage, answerWith_bind,
      answerWith_submit_calendarOutage]
    rfl
  unfold WorkerCycle.cycle
  simp only [hday]
  rw [answerWith_bind, answerWith_look_calendarOutage]
  dsimp only [deployedWorker] at hperform ⊢
  rw [hstep]
  exact hperform

/-- The loop goes through any number of failed submissions in a row. -/
theorem reached_calendarOutage (count : ℕ) :
    Reached deployedWorker (fun _ _ ↦ True) (List.replicate (count + 1) (.failed .submission))
      (.ok 1) := by
  have hstep (history : List Happened) (failures : UInt32)
      (hreached : Reached deployedWorker (fun _ _ ↦ True) history (.ok failures)) :
      Reached deployedWorker (fun _ _ ↦ True) (history ++ [.failed .submission]) (.ok 1) := by
    have hends := ends_answerWith calendarOutage
      (WorkerCycle.cycle deployedWorker failures (some lostReceipt.now))
    rw [answerWith_cycle_calendarOutage] at hends
    exact .cycle hreached hends trivial
  induction count with
  | zero => exact hstep [] 0 .start
  | succ count ih =>
    rw [List.replicate_succ']
    exact hstep _ _ ih

/-- Observations that keep succeeding turn an outage of the calendars into a loop that the budget
does not bound. -/
theorem not_bounded_calendarOutage :
    ¬ ∀ history next, Reached deployedWorker (fun _ _ ↦ True) history next →
      Bounded deployedWorker history next := by
  intro hbounded
  rcases hbounded _ _ (reached_calendarOutage 5) with hwithin | ⟨-, _, -, hstopped⟩
  · exact absurd hwithin (by decide)
  · cases hstopped

/-- An outage of the chain is bounded: the sixth observation that fails stops the loop. -/
theorem retry_budget_bounds_chainOutage :
    Bounded deployedWorker (List.replicate 6 (.failed .observation))
      (.error (.exhausted "fresh state observation failed" 5)) := by
  have hstep (history : List Happened) (failures : UInt32)
      (hreached : Reached deployedWorker KeepsCount history (.ok failures)) :
      Reached deployedWorker KeepsCount (history ++ [.failed .observation])
        (retryPartition deployedWorker failures .observation).next := by
    have hends : Ends (WorkerCycle.cycle deployedWorker failures (some lostReceipt.now))
        (retryPartition deployedWorker failures .observation) :=
      .ask (.error ⟨"unreachable"⟩) (.done _)
    have hhappened : (retryPartition deployedWorker failures .observation).happened =
        .failed .observation := by
      rw [retryPartition]
      split <;> rfl
    have hcycle := Reached.cycle hreached hends (.inr (by rw [hhappened]; rintro _ ⟨⟩; rfl))
    rwa [hhappened] at hcycle
  exact retry_budget_bounds deployedWorker (by decide) _ _
    (hstep _ 5 (hstep _ 4 (hstep _ 3 (hstep _ 2 (hstep _ 1 (hstep [] 0 .start))))))

end AnchoredLog.Client.WorkerRetry
