import AnchoredLog.Log.Batcher

/-!
# Every promise the batcher issues is kept

A run of a batcher is any finite interleaving of submissions, each with a signer that may fail,
of seals, each for the right or a wrong epoch, and of restarts through `resume` and `snapshot`.
The promises issued and the epochs sealed along the run are recorded beside the batcher, and
`promises_kept` says what holds of them in every state reached: a refused operation changes
nothing, a restart is never refused, identifiers are distinct, the deferral of a promise is at
most the merge delay, and a sealed epoch holds exactly the submissions promised that epoch, each
with a proof that keeps its promise.

The invariant is `Ledger`: the issued promises are, in order, those already settled, those of the
current epoch and those waiting, and the promise at position `k` of the queue names the epoch
`k / C` after the next. A seal settles the current ones and moves the first `C` waiting ones up,
which shifts every other position by exactly `C`.
-/

set_option autoImplicit false
set_option relaxedAutoImplicit false

namespace AnchoredLog.Log.PromiseKeeping

open Core.Preimages Library.ByteCodec Library.Fallible EpochTree TreeCompleteness Batcher

/-! ### Runs of a batcher -/

/-- One event of a run. -/
inductive BatcherEvent
  | submit (leaf : Digest) (signer : Signer)
  | sealEpoch (epoch : UInt64)
  | restart

/-- A run so far: the batcher, the promises it issued with the signer of each, and the epochs it
sealed, oldest first. -/
structure BatcherRun where
  batcher : EpochBatcher
  issued : List (SignedPromise × Signer)
  sealedEpochs : List (UInt64 × BuiltEpoch)

/-- The promises issued so far. -/
def BatcherRun.promises (run : BatcherRun) : List SignedPromise :=
  run.issued.map Prod.fst

section Runs

variable (hasher : Hasher) (masterKey : Digest) (height : UInt8)

/-- One event. It fails only when `resume` refuses the snapshot of a restart. -/
def advance (run : BatcherRun) : BatcherEvent → Result BatcherRun
  | .submit leaf signer =>
    match perform (submit hasher leaf signer) run.batcher with
    | (.ok promise, batcher) => .ok { run with
        batcher := batcher
        issued := run.issued ++ [(promise, signer)] }
    | (.error _, batcher) => .ok { run with batcher := batcher }
  | .sealEpoch epoch =>
    match perform (sealEpoch hasher epoch) run.batcher with
    | (.ok built, batcher) => .ok { run with
        batcher := batcher
        sealedEpochs := run.sealedEpochs ++ [(epoch, built)] }
    | (.error _, batcher) => .ok { run with batcher := batcher }
  | .restart => do
    let batcher ← resume masterKey height run.batcher.snapshot
    return { run with batcher := batcher }

/-- A whole run from a fresh batcher. -/
def runEvents (epoch : UInt64) (events : List BatcherEvent) : Result BatcherRun := do
  let batcher ← start masterKey height epoch
  events.foldlM (advance hasher masterKey height) ⟨batcher, [], []⟩

end Runs

/-! ### The ledger of promises -/

/-- What a promise puts into a queue. -/
def entryOf (promise : SignedPromise) : SubmissionId × Digest :=
  (promise.submissionId, promise.leaf)

/-- The issued promises split into those settled by a seal, those of the current epoch and those
waiting in the overflow queue. -/
structure Ledger (batcher : EpochBatcher) (promises settled current waiting : List SignedPromise) :
    Prop where
  split : promises = settled ++ (current ++ waiting)
  pending : batcher.pending = current.map entryOf
  overflow : batcher.overflow = waiting.map entryOf
  settled_lt : ∀ promise ∈ settled, promise.promisedEpoch.toNat < batcher.epoch.toNat
  current_eq : ∀ promise ∈ current, promise.promisedEpoch = batcher.epoch
  waiting_eq : ∀ (position : ℕ) (promise : SignedPromise), waiting[position]? = some promise →
    promise.promisedEpoch.toNat =
      batcher.epoch.toNat + 1 + position / 2 ^ batcher.height.toNat
  current_le : current.length ≤ 2 ^ batcher.height.toNat
  waiting_le : waiting.length ≤ 2 ^ batcher.height.toNat * 2
  full : waiting ≠ [] → current.length = 2 ^ batcher.height.toNat

section Ledgers

variable {batcher : EpochBatcher} {promises settled current waiting : List SignedPromise}

theorem Ledger.waiting_gt (hledger : Ledger batcher promises settled current waiting)
    {promise : SignedPromise} (hpromise : promise ∈ waiting) :
    batcher.epoch.toNat < promise.promisedEpoch.toNat := by
  obtain ⟨position, hposition⟩ := List.getElem?_of_mem hpromise
  rw [hledger.waiting_eq position promise hposition]
  exact (Nat.lt_succ_self _).trans_le (Nat.le_add_right _ _)

/-- The promises of the current epoch are exactly the issued ones that name it. -/
theorem Ledger.filter_current (hledger : Ledger batcher promises settled current waiting) :
    promises.filter (fun promise ↦ promise.promisedEpoch = batcher.epoch) = current := by
  have hsettled : settled.filter (fun promise ↦ promise.promisedEpoch = batcher.epoch) = [] := by
    rw [List.filter_eq_nil_iff]
    intro promise hpromise hsame
    have hlt := hledger.settled_lt promise hpromise
    rw [of_decide_eq_true hsame] at hlt
    exact lt_irrefl _ hlt
  have hwaiting : waiting.filter (fun promise ↦ promise.promisedEpoch = batcher.epoch) = [] := by
    rw [List.filter_eq_nil_iff]
    intro promise hpromise hsame
    have hgt := hledger.waiting_gt hpromise
    rw [of_decide_eq_true hsame] at hgt
    exact lt_irrefl _ hgt
  have hcurrent : current.filter (fun promise ↦ promise.promisedEpoch = batcher.epoch) =
      current := by
    rw [List.filter_eq_self]
    exact fun promise hpromise ↦ decide_eq_true (hledger.current_eq promise hpromise)
  rw [hledger.split, List.filter_append, List.filter_append, hsettled, hwaiting, hcurrent,
    List.nil_append, List.append_nil]

/-- A submission adds its promise to the current epoch while it has room, and to the queue
otherwise. -/
theorem Ledger.admitted {hasher : Hasher} {leaf : Digest} {signer : Signer}
    {promise : SignedPromise} (hledger : Ledger batcher promises settled current waiting)
    (hpromise : PromiseOf hasher leaf signer batcher promise) :
    ∃ current' waiting', Ledger (Batcher.admitted leaf batcher) (promises ++ [promise]) settled
      current' waiting' := by
  have hentry : entryOf promise = (EpochBatcher.identifier batcher.nextSubmission, leaf) := by
    rw [entryOf, hpromise.submissionId, hpromise.leaf]
  have hpending : batcher.pending.length = current.length := by
    rw [hledger.pending, List.length_map]
  have hoverflow : batcher.overflow.length = waiting.length := by
    rw [hledger.overflow, List.length_map]
  rw [Batcher.admitted]
  split
  · next hroom =>
    obtain rfl : waiting = [] := by
      by_contra hwaiting
      have hfull := hledger.full hwaiting
      omega
    refine ⟨current ++ [promise], [], ⟨?_, ?_, hledger.overflow, hledger.settled_lt, ?_, ?_, ?_, ?_,
      fun hne ↦ (hne rfl).elim⟩⟩
    · rw [hledger.split, List.append_nil, List.append_nil, List.append_assoc]
    · rw [List.map_append, ← hledger.pending, List.map_singleton, hentry]
    · intro other hother
      rcases List.mem_append.mp hother with hearlier | hlast
      · exact hledger.current_eq other hearlier
      · rw [List.mem_singleton.mp hlast]
        exact hpromise.current hroom
    · intro position other hother
      simp at hother
    · rw [List.length_append, List.length_singleton]
      dsimp only
      omega
    · simp
  · next hfull =>
    obtain ⟨hepoch, hahead⟩ := hpromise.queued hfull
    have hpositive := Nat.two_pow_pos batcher.height.toNat
    refine ⟨current, waiting ++ [promise], ⟨?_, hledger.pending, ?_, hledger.settled_lt,
      hledger.current_eq, ?_, hledger.current_le, ?_, fun _ ↦ ?_⟩⟩
    · rw [hledger.split, List.append_assoc, List.append_assoc]
    · rw [List.map_append, ← hledger.overflow, List.map_singleton, hentry]
    · intro position other hother
      rcases lt_trichotomy position waiting.length with hlt | rfl | hgt
      · rw [List.getElem?_append_left hlt] at hother
        exact hledger.waiting_eq position other hother
      · rw [List.getElem?_concat_length] at hother
        obtain rfl : promise = other := Option.some_injective _ hother
        rw [hepoch, hoverflow]
      · rw [List.getElem?_eq_none (by simp only [List.length_append, List.length_singleton]; omega)]
          at hother
        simp at hother
    · have hbound : waiting.length < 2 ^ batcher.height.toNat * 2 := by
        rw [hoverflow] at hahead
        exact (Nat.div_lt_iff_lt_mul hpositive).mp (by omega) |>.trans_eq (Nat.mul_comm _ _)
      rw [List.length_append, List.length_singleton]
      exact hbound
    · have hle := hledger.current_le
      dsimp only
      omega

/-- A seal settles the promises of the current epoch and moves the first of the queue up. -/
theorem Ledger.advanced (hledger : Ledger batcher promises settled current waiting)
    (hepoch : batcher.epoch.toNat + 1 < 2 ^ 64) :
    ∃ settled' current' waiting', Ledger (Batcher.advanced batcher) promises settled' current'
      waiting' := by
  have hpositive := Nat.two_pow_pos batcher.height.toNat
  have hnext : (batcher.epoch + 1).toNat = batcher.epoch.toNat + 1 := by
    rw [UInt64.toNat_add]
    exact Nat.mod_eq_of_lt hepoch
  have hbound := hledger.waiting_le
  refine ⟨settled ++ current, waiting.take (2 ^ batcher.height.toNat),
    waiting.drop (2 ^ batcher.height.toNat), ⟨?_, ?_, ?_, ?_, ?_, ?_, ?_, ?_, ?_⟩⟩
  · rw [hledger.split, List.take_append_drop, List.append_assoc]
  · rw [Batcher.advanced, hledger.overflow, List.map_take]
  · rw [Batcher.advanced, hledger.overflow, List.map_drop]
  · intro promise hpromise
    change promise.promisedEpoch.toNat < (batcher.epoch + 1).toNat
    rw [hnext]
    rcases List.mem_append.mp hpromise with hsettled | hcurrent
    · exact (hledger.settled_lt promise hsettled).trans (Nat.lt_succ_self _)
    · rw [hledger.current_eq promise hcurrent]
      exact Nat.lt_succ_self _
  · intro promise hpromise
    obtain ⟨position, hposition⟩ := List.getElem?_of_mem hpromise
    have hlt : position < 2 ^ batcher.height.toNat := by
      by_contra hge
      rw [List.getElem?_take_eq_none (by omega)] at hposition
      simp at hposition
    rw [List.getElem?_take_of_lt hlt] at hposition
    have hwaiting := hledger.waiting_eq position promise hposition
    rw [Nat.div_eq_of_lt hlt, Nat.add_zero, ← hnext] at hwaiting
    exact UInt64.toNat_inj.mp hwaiting
  · intro position promise hposition
    rw [List.getElem?_drop] at hposition
    have hwaiting := hledger.waiting_eq _ promise hposition
    change promise.promisedEpoch.toNat =
      (batcher.epoch + 1).toNat + 1 + position / 2 ^ batcher.height.toNat
    rw [Nat.add_div_left position hpositive] at hwaiting
    rw [hwaiting, hnext]
    omega
  · exact List.length_take_le _ _
  · rw [List.length_drop]
    change waiting.length - 2 ^ batcher.height.toNat ≤ 2 ^ batcher.height.toNat * 2
    omega
  · intro hne
    rw [List.length_take]
    change min (2 ^ batcher.height.toNat) waiting.length = 2 ^ batcher.height.toNat
    rw [Ne, List.drop_eq_nil_iff] at hne
    omega

end Ledgers

/-! ### The invariant of a run -/

section Invariant

variable (hasher : Hasher) (masterKey : Digest) (height : UInt8) (firstEpoch : UInt64)

/-- What one issued promise keeps: its deferral is within the merge delay, and its signer signed
its digest. -/
structure Issued (promise : SignedPromise) (signer : Signer) : Prop where
  accepted_le : promise.acceptedEpoch.toNat ≤ promise.promisedEpoch.toNat
  promised_le : promise.promisedEpoch.toNat ≤ promise.acceptedEpoch.toNat + 2
  maxMergeDelay : promise.maxMergeDelay = Batcher.maxMergeDelay
  batcherKey : promise.batcherKey = signer.publicKey
  signature : ∃ digest, promiseDigest hasher promise = .ok digest ∧
    signer.sign digest.octets = .ok promise.signature

/-- The state of a run: the queues split the issued promises, identifiers are minted in order,
and every epoch from the first to the current one was sealed over exactly the promises that name
it. -/
structure Consistent (run : BatcherRun) : Prop where
  masterKey_eq : run.batcher.masterKey = masterKey
  height_eq : run.batcher.height = height
  ledger : ∃ settled current waiting,
    Ledger run.batcher run.promises settled current waiting
  identifiers : run.promises.map SignedPromise.submissionId =
    (List.range run.promises.length).map
      fun counter ↦ EpochBatcher.identifier (UInt64.ofNat counter)
  counter : run.promises.length = run.batcher.nextSubmission.toNat
  issued : ∀ issue ∈ run.issued, Issued hasher issue.1 issue.2
  sealed_lt : ∀ entry ∈ run.sealedEpochs, entry.1.toNat < run.batcher.epoch.toNat
  sealed_from : ∀ entry ∈ run.sealedEpochs, BuiltFrom hasher entry.1 height masterKey
    ((run.promises.filter fun promise ↦ promise.promisedEpoch = entry.1).map entryOf) entry.2
  first_le : firstEpoch.toNat ≤ run.batcher.epoch.toNat
  promised_ge : ∀ promise ∈ run.promises, firstEpoch.toNat ≤ promise.promisedEpoch.toNat
  sealed_all : ∀ epoch : UInt64, firstEpoch.toNat ≤ epoch.toNat →
    epoch.toNat < run.batcher.epoch.toNat → ∃ built, (epoch, built) ∈ run.sealedEpochs

variable {hasher masterKey height firstEpoch} {run : BatcherRun}

/-- The queues of a consistent run pass every check of a restart. -/
theorem Consistent.wellQueued (hrun : Consistent hasher masterKey height firstEpoch run) :
    WellQueued run.batcher := by
  obtain ⟨settled, current, waiting, hledger⟩ := hrun.ledger
  have hlive : run.batcher.pending ++ run.batcher.overflow = (current ++ waiting).map entryOf := by
    rw [hledger.pending, hledger.overflow, List.map_append]
  refine ⟨?_, ?_, ?_, settled.length, ?_, ?_⟩
  · rw [hledger.pending, List.length_map]
    exact hledger.current_le
  · rw [hledger.overflow, List.length_map]
    exact hledger.waiting_le
  · intro hne
    rw [hledger.pending, List.length_map]
    refine hledger.full fun hempty ↦ hne ?_
    rw [hledger.overflow, hempty, List.map_nil]
  · have hids : settled.map SignedPromise.submissionId ++
        (current ++ waiting).map SignedPromise.submissionId =
          (List.range' 0 settled.length).map
              (fun counter ↦ EpochBatcher.identifier (UInt64.ofNat counter)) ++
            (List.range' settled.length (current ++ waiting).length).map
              (fun counter ↦ EpochBatcher.identifier (UInt64.ofNat counter)) := by
      have hrange := @List.range'_append_1 0 settled.length (current ++ waiting).length
      rw [Nat.zero_add] at hrange
      rw [← List.map_append, ← List.map_append, hrange, ← List.range_eq_range',
        ← List.length_append, ← hledger.split, hrun.identifiers]
    have hlast := (List.append_inj hids (by simp)).2
    rw [hlive, List.map_map, List.length_map]
    exact hlast
  · rw [hlive, List.length_map, ← List.length_append, ← hledger.split]
    exact hrun.counter

theorem Consistent.resumes (hrun : Consistent hasher masterKey height firstEpoch run) :
    resume masterKey height run.batcher.snapshot = .ok run.batcher := by
  have hresume := resume_snapshot hrun.wellQueued
  rwa [hrun.masterKey_eq, hrun.height_eq] at hresume

theorem consistent_start (hheight : minHeight ≤ height ∧ height ≤ maxHeight) :
    Consistent hasher masterKey height firstEpoch
      ⟨⟨masterKey, height, hheight, firstEpoch, 0, [], []⟩, [], []⟩ where
  masterKey_eq := rfl
  height_eq := rfl
  ledger := ⟨[], [], [], rfl, rfl, rfl, by simp, by simp, by simp, by simp, by simp, by simp⟩
  identifiers := rfl
  counter := rfl
  issued := by simp
  sealed_lt := by simp
  sealed_from := by simp
  first_le := le_rfl
  promised_ge := by simp [BatcherRun.promises]
  sealed_all := fun epoch hfirst hlt ↦ by
    exact absurd hlt (not_lt.mpr hfirst)

theorem PromiseOf.promised_mem {leaf : Digest} {signer : Signer} {batcher : EpochBatcher}
    {promise : SignedPromise} (hpromise : PromiseOf hasher leaf signer batcher promise) :
    batcher.epoch.toNat ≤ promise.promisedEpoch.toNat ∧
      promise.promisedEpoch.toNat ≤ batcher.epoch.toNat + 2 := by
  by_cases hroom : batcher.pending.length < 2 ^ batcher.height.toNat
  · rw [hpromise.current hroom]
    exact ⟨le_rfl, Nat.le_add_right _ _⟩
  · obtain ⟨hepoch, hahead⟩ := hpromise.queued hroom
    rw [hepoch]
    generalize batcher.overflow.length / 2 ^ batcher.height.toNat = ahead at hahead
    omega

theorem PromiseOf.issued {leaf : Digest} {signer : Signer} {batcher : EpochBatcher}
    {promise : SignedPromise} (hpromise : PromiseOf hasher leaf signer batcher promise) :
    Issued hasher promise signer := by
  obtain ⟨hle, hbound⟩ := PromiseOf.promised_mem hpromise
  refine ⟨?_, ?_, hpromise.maxMergeDelay, hpromise.batcherKey, hpromise.signature⟩
  · rwa [hpromise.acceptedEpoch]
  · rwa [hpromise.acceptedEpoch]

/-- An accepted submission keeps the run consistent. -/
theorem Consistent.submitted (hrun : Consistent hasher masterKey height firstEpoch run)
    {leaf : Digest} {signer : Signer} {promise : SignedPromise}
    (hpromise : PromiseOf hasher leaf signer run.batcher promise) :
    Consistent hasher masterKey height firstEpoch
      ⟨admitted leaf run.batcher, run.issued ++ [(promise, signer)], run.sealedEpochs⟩ := by
  obtain ⟨settled, current, waiting, hledger⟩ := hrun.ledger
  obtain ⟨current', waiting', hadmitted⟩ := hledger.admitted hpromise
  obtain ⟨hpromised, -⟩ := PromiseOf.promised_mem hpromise
  have hpromises :
      (run.issued ++ [(promise, signer)]).map Prod.fst = run.promises ++ [promise] := by
    rw [List.map_append, BatcherRun.promises]
    rfl
  have hcounter : UInt64.ofNat run.promises.length = run.batcher.nextSubmission := by
    rw [hrun.counter, UInt64.ofNat_toNat]
  have hfirst := hrun.first_le
  refine ⟨?_, ?_, ⟨settled, current', waiting', ?_⟩, ?_, ?_, ?_, ?_, ?_, ?_, ?_, ?_⟩
  · rw [admitted_masterKey, hrun.masterKey_eq]
  · rw [admitted_height, hrun.height_eq]
  · rw [BatcherRun.promises, hpromises]
    exact hadmitted
  · rw [BatcherRun.promises, hpromises, List.length_append, List.length_singleton,
      List.range_succ, List.map_append, List.map_append, hrun.identifiers, List.map_singleton,
      List.map_singleton, hpromise.submissionId, hcounter]
  · rw [BatcherRun.promises, hpromises, List.length_append, List.length_singleton, hrun.counter,
      admitted_nextSubmission, UInt64.toNat_add]
    exact (Nat.mod_eq_of_lt hpromise.counter).symm
  · intro issue hissue
    rcases List.mem_append.mp hissue with hearlier | hlast
    · exact hrun.issued issue hearlier
    · rw [List.mem_singleton.mp hlast]
      exact PromiseOf.issued hpromise
  · intro entry hentry
    rw [admitted_epoch]
    exact hrun.sealed_lt entry hentry
  · intro entry hentry
    have hlater : ¬ promise.promisedEpoch = entry.1 := by
      intro heq
      have hlt := hrun.sealed_lt entry hentry
      rw [← heq] at hlt
      exact absurd hpromised (not_le.mpr hlt)
    rw [BatcherRun.promises, hpromises, List.filter_append, List.filter_singleton]
    simp only [hlater, decide_false, Bool.cond_false, List.append_nil]
    exact hrun.sealed_from entry hentry
  · rw [admitted_epoch]
    exact hfirst
  · intro other hother
    rw [BatcherRun.promises, hpromises] at hother
    rcases List.mem_append.mp hother with hearlier | hlast
    · exact hrun.promised_ge other hearlier
    · rw [List.mem_singleton.mp hlast]
      exact hfirst.trans hpromised
  · intro epoch hge hlt
    rw [admitted_epoch] at hlt
    exact hrun.sealed_all epoch hge hlt

/-- A seal that returns a tree keeps the run consistent. -/
theorem Consistent.sealedEpoch (hrun : Consistent hasher masterKey height firstEpoch run)
    {built : BuiltEpoch} (hepoch : run.batcher.epoch.toNat + 1 < 2 ^ 64)
    (hbuild : build hasher run.batcher.epoch run.batcher.height run.batcher.masterKey
      run.batcher.pending = .ok built) :
    Consistent hasher masterKey height firstEpoch
      ⟨advanced run.batcher, run.issued, run.sealedEpochs ++ [(run.batcher.epoch, built)]⟩ := by
  obtain ⟨settled, current, waiting, hledger⟩ := hrun.ledger
  have hnext : (run.batcher.epoch + 1).toNat = run.batcher.epoch.toNat + 1 := by
    rw [UInt64.toNat_add]
    exact Nat.mod_eq_of_lt hepoch
  have hfrom := builtFrom_of_build hbuild
  rw [hledger.pending, ← hledger.filter_current, hrun.masterKey_eq, hrun.height_eq] at hfrom
  have hfirst := hrun.first_le
  refine ⟨hrun.masterKey_eq, hrun.height_eq, hledger.advanced hepoch, hrun.identifiers,
    hrun.counter,
    hrun.issued, ?_, ?_, ?_, hrun.promised_ge, ?_⟩
  · intro entry hentry
    change entry.1.toNat < (run.batcher.epoch + 1).toNat
    rw [hnext]
    rcases List.mem_append.mp hentry with hearlier | hlast
    · exact (hrun.sealed_lt entry hearlier).trans (Nat.lt_succ_self _)
    · rw [List.mem_singleton.mp hlast]
      exact Nat.lt_succ_self _
  · intro entry hentry
    rcases List.mem_append.mp hentry with hearlier | hlast
    · exact hrun.sealed_from entry hearlier
    · rw [List.mem_singleton.mp hlast]
      exact hfrom
  · change firstEpoch.toNat ≤ (run.batcher.epoch + 1).toNat
    omega
  · intro epoch hge hlt
    change epoch.toNat < (run.batcher.epoch + 1).toNat at hlt
    by_cases hcurrent : epoch = run.batcher.epoch
    · exact ⟨built, List.mem_append_right _ (by rw [hcurrent]; exact List.mem_singleton_self _)⟩
    · have hne : epoch.toNat ≠ run.batcher.epoch.toNat :=
        fun heq ↦ hcurrent (UInt64.toNat_inj.mp heq)
      obtain ⟨earlier, hearlier⟩ := hrun.sealed_all epoch hge (by omega)
      exact ⟨earlier, List.mem_append_left _ hearlier⟩

/-- Every event keeps the run consistent, and none fails. -/
theorem exists_advance (event : BatcherEvent)
    (hrun : Consistent hasher masterKey height firstEpoch run) :
    ∃ reached, advance hasher masterKey height run event = .ok reached ∧
      Consistent hasher masterKey height firstEpoch reached := by
  cases event with
  | submit leaf signer =>
    rw [advance, perform_submit]
    cases hpromise : promiseFor hasher leaf signer run.batcher with
    | error error => exact ⟨_, rfl, hrun⟩
    | ok promise =>
      exact ⟨_, rfl, hrun.submitted (promiseOf_of_promiseFor hasher leaf signer hpromise)⟩
  | sealEpoch epoch =>
    rw [advance, perform_sealEpoch]
    cases hseal : sealFor hasher epoch run.batcher with
    | error error => exact ⟨_, rfl, hrun⟩
    | ok built =>
      obtain ⟨rfl, hfits, hbuild⟩ := (sealFor_eq_ok_iff hasher epoch).mp hseal
      exact ⟨_, rfl, hrun.sealedEpoch hfits hbuild⟩
  | restart =>
    rw [advance, hrun.resumes]
    exact ⟨_, rfl, hrun⟩

/-! ### What a counterparty can check -/

/-- The verifier accepts an issued promise observed in its acceptance epoch or the next one. -/
theorem Issued.verifies {promise : SignedPromise} {signer : Signer}
    (hissued : Issued hasher promise signer) {verifier : Verifier}
    (hvalid : ∀ digest, promiseDigest hasher promise = .ok digest →
      signer.sign digest.octets = .ok promise.signature →
        verifier.valid signer.publicKey digest.octets promise.signature = true)
    {observed : UInt64} (hobserved : observed = promise.acceptedEpoch ∨
      observed.toNat = promise.acceptedEpoch.toNat + 1) :
    verifyPromise hasher verifier promise signer.publicKey observed = .ok () := by
  obtain ⟨digest, hdigest, hsignature⟩ := hissued.signature
  have hle := hissued.accepted_le
  have hbound := hissued.promised_le
  obtain ⟨deferred, hdeferred⟩ : ∃ deferred,
      checkedSub promise.promisedEpoch promise.acceptedEpoch = some deferred :=
    Option.ne_none_iff_exists'.mp fun hnone ↦ by
      have hlt := checkedSub_eq_none_iff.mp hnone
      omega
  obtain ⟨behind, hbehind⟩ : ∃ behind, checkedSub observed promise.acceptedEpoch = some behind :=
    Option.ne_none_iff_exists'.mp fun hnone ↦ by
      have hlt := checkedSub_eq_none_iff.mp hnone
      rcases hobserved with rfl | hnext <;> omega
  have hdeferredNat := checkedSub_eq_some_iff.mp hdeferred
  have hbehindNat := checkedSub_eq_some_iff.mp hbehind
  have hdelay : ¬ Batcher.maxMergeDelay.toNat < deferred.toNat := by
    change ¬ 2 < deferred.toNat
    omega
  have hone : ¬ 1 < behind.toNat := by
    rcases hobserved with rfl | hnext <;> omega
  rw [verifyPromise, require_of_true hissued.batcherKey, bind_ok,
    require_of_true hissued.maxMergeDelay, bind_ok, hdeferred, okOr_some, bind_ok,
    require_of_true hdelay, bind_ok, hbehind, okOr_some, bind_ok, require_of_true hone, bind_ok,
    hdigest, bind_ok, Verifier.verify, require_of_true (hvalid digest hdigest hsignature)]

/-- The root of a sealed epoch keeps every promise that names the epoch. -/
theorem Consistent.kept (hrun : Consistent hasher masterKey height firstEpoch run)
    {entry : UInt64 × BuiltEpoch} (hentry : entry ∈ run.sealedEpochs) {promise : SignedPromise}
    (hpromise : promise ∈ run.promises) (hepoch : promise.promisedEpoch = entry.1) :
    (∃ slot leaf, (promise.submissionId, slot) ∈ entry.2.assignment ∧
        digest hasher (RealLeafPreimage.mk promise.leaf) = .ok leaf ∧
        entry.2.leaves[slot.toNat]? = some leaf) ∧
      ∃ proof, entry.2.proof promise.submissionId = .ok proof ∧
        promiseKept hasher promise proof ⟨entry.1, entry.2.root⟩ = .ok () := by
  have hfrom := hrun.sealed_from entry hentry
  have hreal : entryOf promise ∈
      (run.promises.filter fun promise ↦ promise.promisedEpoch = entry.1).map entryOf :=
    List.mem_map_of_mem (List.mem_filter.mpr ⟨hpromise, decide_eq_true hepoch⟩)
  obtain ⟨slot, hassigned, hleaf⟩ := hfrom.exists_slot hreal
  obtain ⟨proof, hproof, -, hproofEpoch, haccepted⟩ := hfrom.accepted hreal
  refine ⟨⟨slot, _, hassigned, digest_realLeaf hasher _, hleaf⟩, proof, hproof, ?_⟩
  have helapsed : checkedSub entry.1 promise.promisedEpoch = some 0 :=
    checkedSub_eq_some_iff.mpr (by rw [hepoch]; exact Nat.zero_add _)
  have hwindow : ¬ promise.maxMergeDelay.toNat < (0 : UInt64).toNat := Nat.not_lt_zero _
  rw [promiseKept, require_of_true hproofEpoch, bind_ok, helapsed, okOr_some, bind_ok,
    require_of_true hwindow, bind_ok]
  exact verify_eq_ok_iff.mpr haccepted

/-- A sealed epoch holds exactly the identifiers promised that epoch. -/
theorem Consistent.mem_assignment (hrun : Consistent hasher masterKey height firstEpoch run)
    {entry : UInt64 × BuiltEpoch} (hentry : entry ∈ run.sealedEpochs) {id : SubmissionId} :
    id ∈ entry.2.assignment.map Prod.fst ↔
      ∃ promise ∈ run.promises, promise.promisedEpoch = entry.1 ∧ promise.submissionId = id := by
  rw [(hrun.sealed_from entry hentry).mem_ids, List.map_map, List.mem_map]
  constructor
  · rintro ⟨promise, hpromise, rfl⟩
    obtain ⟨hissued, hepoch⟩ := List.mem_filter.mp hpromise
    exact ⟨promise, hissued, of_decide_eq_true hepoch, rfl⟩
  · rintro ⟨promise, hissued, hepoch, rfl⟩
    exact ⟨promise, List.mem_filter.mpr ⟨hissued, decide_eq_true hepoch⟩, rfl⟩

theorem Consistent.nodup_ids (hrun : Consistent hasher masterKey height firstEpoch run) :
    (run.promises.map SignedPromise.submissionId).Nodup := by
  have hbound := run.batcher.nextSubmission.toNat_lt
  rw [hrun.identifiers]
  refine List.nodup_range.map_on fun first hfirst second hsecond heq ↦ ?_
  have hnumbers := congrArg UInt64.toNat (identifier_injective heq)
  rw [List.mem_range, hrun.counter] at hfirst hsecond
  rwa [UInt64.toNat_ofNat', UInt64.toNat_ofNat', Nat.mod_eq_of_lt (hfirst.trans hbound),
    Nat.mod_eq_of_lt (hsecond.trans hbound)] at hnumbers

end Invariant

/-! ### Promise keeping -/

/-- What holds of a run in every state it reaches, in the terms of the source's own functions. -/
structure PromisesKept (hasher : Hasher) (verifier : Verifier) (masterKey : Digest)
    (height : UInt8) (run : BatcherRun) : Prop where
  /-- A refused submission changes nothing. -/
  refused_submit : ∀ leaf signer error next,
    perform (submit hasher leaf signer) run.batcher = (.error error, next) → next = run.batcher
  /-- A refused seal changes nothing. -/
  refused_seal : ∀ epoch error next,
    perform (sealEpoch hasher epoch) run.batcher = (.error error, next) → next = run.batcher
  /-- A restart is never refused. -/
  resumes : resume masterKey height run.batcher.snapshot = .ok run.batcher
  ids_nodup : (run.promises.map SignedPromise.submissionId).Nodup
  /-- A promise is deferred by at most two epochs. -/
  window : ∀ promise ∈ run.promises,
    promise.acceptedEpoch.toNat ≤ promise.promisedEpoch.toNat ∧
      promise.promisedEpoch.toNat - promise.acceptedEpoch.toNat ≤ 2
  /-- A verifier that accepts what the signer signed accepts the promise in its acceptance epoch
  and in the next one. -/
  verifies : ∀ issue ∈ run.issued,
    (∀ digest, promiseDigest hasher issue.1 = .ok digest →
      issue.2.sign digest.octets = .ok issue.1.signature →
        verifier.valid issue.2.publicKey digest.octets issue.1.signature = true) →
    ∀ observed : UInt64, observed = issue.1.acceptedEpoch ∨
        observed.toNat = issue.1.acceptedEpoch.toNat + 1 →
      verifyPromise hasher verifier issue.1 issue.2.publicKey observed = .ok ()
  /-- A sealed epoch holds exactly the identifiers promised that epoch, each once. -/
  sealed_exact : ∀ entry ∈ run.sealedEpochs, (entry.2.assignment.map Prod.fst).Nodup ∧
    ∀ id, id ∈ entry.2.assignment.map Prod.fst ↔
      ∃ promise ∈ run.promises, promise.promisedEpoch = entry.1 ∧ promise.submissionId = id
  /-- Each is on the leaf its promise names, and its proof keeps the promise. -/
  kept : ∀ entry ∈ run.sealedEpochs, ∀ promise ∈ run.promises,
    promise.promisedEpoch = entry.1 →
      (∃ slot leaf, (promise.submissionId, slot) ∈ entry.2.assignment ∧
          digest hasher (RealLeafPreimage.mk promise.leaf) = .ok leaf ∧
          entry.2.leaves[slot.toNat]? = some leaf) ∧
        ∃ proof, entry.2.proof promise.submissionId = .ok proof ∧
          promiseKept hasher promise proof ⟨entry.1, entry.2.root⟩ = .ok ()
  /-- Once the batcher is past an epoch, what was promised that epoch is sealed in it. -/
  none_lost : ∀ promise ∈ run.promises,
    promise.promisedEpoch.toNat < run.batcher.epoch.toNat →
      ∃ built, (promise.promisedEpoch, built) ∈ run.sealedEpochs

theorem Consistent.promisesKept {hasher : Hasher} {masterKey : Digest} {height : UInt8}
    {firstEpoch : UInt64} {run : BatcherRun}
    (hrun : Consistent hasher masterKey height firstEpoch run) (verifier : Verifier) :
    PromisesKept hasher verifier masterKey height run where
  refused_submit := by
    intro leaf signer error next hrefused
    rw [perform_submit] at hrefused
    split at hrefused
    · simp at hrefused
    · exact (Prod.ext_iff.mp hrefused).2.symm
  refused_seal := by
    intro epoch error next hrefused
    rw [perform_sealEpoch] at hrefused
    split at hrefused
    · simp at hrefused
    · exact (Prod.ext_iff.mp hrefused).2.symm
  resumes := hrun.resumes
  ids_nodup := hrun.nodup_ids
  window := by
    intro promise hpromise
    obtain ⟨issue, hissue, rfl⟩ := List.mem_map.mp hpromise
    have hissued := hrun.issued issue hissue
    have hbound := hissued.promised_le
    exact ⟨hissued.accepted_le, by omega⟩
  verifies := fun issue hissue hvalid _ hobserved ↦
    (hrun.issued issue hissue).verifies hvalid hobserved
  sealed_exact := fun entry hentry ↦
    ⟨(hrun.sealed_from entry hentry).nodup_ids, fun _ ↦ hrun.mem_assignment hentry⟩
  kept := fun _ hentry _ hpromise hepoch ↦ hrun.kept hentry hpromise hepoch
  none_lost := fun promise hpromise hlt ↦
    hrun.sealed_all promise.promisedEpoch (hrun.promised_ge promise hpromise) hlt

/-- Every promise is kept: whatever the interleaving of submissions, seals and restarts, the run
goes through and keeps every promise it issues. -/
theorem promises_kept (hasher : Hasher) (verifier : Verifier) (masterKey : Digest)
    {height : UInt8} (hheight : minHeight ≤ height ∧ height ≤ maxHeight) (epoch : UInt64)
    (events : List BatcherEvent) :
    ∃ run, runEvents hasher masterKey height epoch events = .ok run ∧
      PromisesKept hasher verifier masterKey height run := by
  have hfresh : Consistent hasher masterKey height epoch
      ⟨⟨masterKey, height, hheight, epoch, 0, [], []⟩, [], []⟩ :=
    consistent_start hheight
  obtain ⟨run, hevents, hrun⟩ :=
    exists_foldlM_eq_ok (fun _ event hstate ↦ exists_advance event hstate) events hfresh
  refine ⟨run, ?_, hrun.promisesKept verifier⟩
  rw [runEvents, start, dif_pos hheight, pure_eq_ok, bind_ok, hevents]

/-- Promise keeping applies to a run that submits, restarts and seals at the smallest height. -/
theorem promises_kept_oneSubmission :
    ∃ run, runEvents residueHasher (Octets.zeros 32) 4 20000
        [.submit (Octets.zeros 32) ⟨Octets.zeros 32, fun _ ↦ .ok (Octets.zeros 64)⟩, .restart,
          .sealEpoch 20000] = .ok run ∧
      PromisesKept residueHasher permissiveVerifier (Octets.zeros 32) 4 run :=
  promises_kept residueHasher permissiveVerifier (Octets.zeros 32) (by decide) 20000 _

end AnchoredLog.Log.PromiseKeeping
