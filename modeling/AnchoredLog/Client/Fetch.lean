import AnchoredLog.Client.Publish

/-!
# Reading the published sequence

`sequenceLag` reads a range of epochs in views, each one request that holds the configuration of the
log and up to 99 checkpoints, and says of every epoch where it sits relative to the log by the
configuration of its own view. What it asks of the source is an interaction; what it makes of a view
is a function, `readView`.
-/

set_option autoImplicit false
set_option relaxedAutoImplicit false

namespace AnchoredLog.Client.Fetch

open Library.ByteCodec Library.Fallible Library.Interactions
open Program.AccountLayouts Program.Checkpoint Publish

/-! ### Placing an account -/

/-- Places an account before it is believed to be the checkpoint of an epoch of a program's log. -/
def decodeCheckpointOf (program owner : Pubkey) (data : List UInt8) (epoch : UInt64) :
    Except Refused PublishedCheckpoint :=
  if owner ≠ program then .error .notTheProgram
  else if data.length < CheckpointAccount.len then .error .tooShort
  else if data.take 8 ≠ CheckpointAccount.discriminator.octets then .error .wrongDiscriminator
  else
    match CheckpointAccount.deserialize (data.drop 8) with
    | none => .error .malformed
    | some account =>
      if account.schemaVersion ≠ schemaVersion then .error .unsupportedSchema
      else if account.epoch ≠ epoch then .error .wrongEpoch
      else .ok (publishedCheckpoint account)

/-- Places an account before it is believed to be the configuration of a program's log. -/
def decodeConfig (program owner : Pubkey) (data : List UInt8) : Except Refused LogConfig :=
  if owner ≠ program then .error .notTheProgram
  else if data.length < LogConfig.len then .error .tooShort
  else if data.take 8 ≠ LogConfig.discriminator.octets then .error .wrongDiscriminator
  else
    match LogConfig.deserialize (data.drop 8) with
    | none => .error .malformed
    | some config =>
      if config.schemaVersion ≠ schemaVersion then .error .unsupportedSchema else .ok config

/-- The name of a reason, as it is printed. -/
def Refused.debug : Refused → String
  | .notTheProgram => "NotTheProgram"
  | .tooShort => "TooShort"
  | .wrongDiscriminator => "WrongDiscriminator"
  | .unsupportedSchema => "UnsupportedSchema"
  | .wrongEpoch => "WrongEpoch"
  | .malformed => "Malformed"

/-! ### Views -/

/-- Several accounts as the source answered them in one request, in the order asked. -/
structure OneView where
  slot : Option UInt64
  accounts : List (Option (Pubkey × List UInt8))

/-- How many addresses one request may carry. -/
def oneViewLimit : ℕ :=
  100

/-- The addresses of a program's log. -/
structure Addresses where
  config : Pubkey
  checkpoint : UInt64 → Pubkey

/-- Where each epoch that was asked about sits relative to the log. -/
structure Lag where
  startEpoch : UInt64
  lastPublished : UInt64
  beforeLogStart : List UInt64
  notYetPublished : List UInt64
  refused : List (UInt64 × Refused)
  views : ℕ
  configurationMoved : Bool
deriving DecidableEq

/-- What has been read so far: the answer, the bounds of the first view, the number of views and
whether the bounds moved. -/
structure Reading where
  lag : Option Lag
  firstConfig : Option (UInt64 × UInt64)
  views : ℕ
  moved : Bool
deriving DecidableEq

/-- Nothing has been read. -/
def Reading.start : Reading where
  lag := none
  firstConfig := none
  views := 0
  moved := false

/-- The epochs from the first to the last, both included. -/
def epochsBetween (first last : UInt64) : List UInt64 :=
  (List.range (last.toNat + 1 - first.toNat)).map fun index ↦ UInt64.ofNat (first.toNat + index)

/-- A list cut into pieces of a length, the last of which may be shorter. -/
def chunks {Element : Type} (size : ℕ) (elements : List Element) : List (List Element) :=
  (List.range ((elements.length + size - 1) / size)).map fun index ↦
    (elements.drop (index * size)).take size

/-- The requests for a range: one at the least, each of up to 99 epochs. -/
def batches (epochs : List UInt64) : List (List UInt64) :=
  if epochs.isEmpty then [[]] else chunks (oneViewLimit - 1) epochs

/-- The addresses of a request: the configuration, then the checkpoints. -/
def Addresses.ofBatch (addresses : Addresses) (batch : List UInt64) : List Pubkey :=
  addresses.config :: batch.map addresses.checkpoint

/-- Judges one epoch of a view by the configuration of that view. -/
def judgeEpoch (program : Pubkey) (config : LogConfig)
    (accounts : List (Option (Pubkey × List UInt8))) (lag : Lag) (entry : UInt64 × ℕ) :
    Except Unreachable Lag :=
  let (epoch, offset) := entry
  if epoch < config.startEpoch then
    .ok { lag with beforeLogStart := lag.beforeLogStart ++ [epoch] }
  else if config.lastEpoch < epoch then
    .ok { lag with notYetPublished := lag.notYetPublished ++ [epoch] }
  else
    match accounts[offset + 1]? with
    | none => .error ⟨s!"epoch {epoch.toNat} had no entry in a view that was asked for it"⟩
    | some none => .error ⟨s!"epoch {epoch.toNat} is inside the published range " ++
        s!"{config.startEpoch.toNat}..={config.lastEpoch.toNat} and its account is not in the " ++
        "same view the range was read from. `publish_checkpoint` writes the checkpoint before " ++
        "it advances `last_epoch`, so one view cannot hold both facts: this is evidence about " ++
        "the log and not about the responses."⟩
    | some (some (owner, data)) =>
      match decodeCheckpointOf program owner data epoch with
      | .ok _ => .ok lag
      | .error reason => .ok { lag with refused := lag.refused ++ [(epoch, reason)] }

/-- The configuration a view holds at its front. -/
def configOf (program : Pubkey) (view : OneView) : Except Unreachable LogConfig :=
  match view.accounts with
  | some (owner, data) :: _ =>
    match decodeConfig program owner data with
    | .ok config => .ok config
    | .error reason => .error ⟨s!"the log's configuration was refused: {Refused.debug reason}"⟩
  | _ => .error ⟨"the log has no configuration account, so nothing can be said about where an " ++
      "epoch sits relative to it"⟩

/-- What a view adds to what has been read. -/
def readView (program : Pubkey) (addresses : Addresses) (batch : List UInt64) (view : OneView)
    (reading : Reading) : Except Unreachable Reading := do
  require (view.accounts.length = (addresses.ofBatch batch).length)
    ⟨s!"{(addresses.ofBatch batch).length} addresses were asked about and " ++
      s!"{view.accounts.length} answers came back. A view missing an entry is not a view: " ++
      "nothing here can be matched to the address it belongs to."⟩
  let config ← configOf program view
  let bounds := (config.startEpoch, config.lastEpoch)
  let lag := reading.lag.getD ⟨config.startEpoch, config.lastEpoch, [], [], [], 0, false⟩
  let lag ← batch.zipIdx.foldlM (judgeEpoch program config view.accounts)
    { lag with startEpoch := config.startEpoch, lastPublished := config.lastEpoch }
  pure { lag := some lag
         firstConfig := some (reading.firstConfig.getD bounds)
         views := reading.views + 1
         moved := reading.moved || (reading.firstConfig.any fun earlier ↦ earlier != bounds) }

/-! ### Asking -/

/-- What is asked of the chain and of the receipts directory. -/
inductive Question
  | accountsAt (addresses : List Pubkey)
  | status (epoch : UInt64)
  | receiptExists (epoch : UInt64)

/-- What the chain says of an epoch's anchoring. -/
inductive AnchorStatus
  | pending
  | single
  | dual
deriving DecidableEq

/-- The status of an epoch in what asking for it produced. -/
def statusOf : Fetched → AnchorStatus
  | .placed checkpoint => if checkpoint.receiptDigest = noReceipt then .single else .dual
  | .absent => .pending
  | .refused _ => .pending

/-- The answers to a question. -/
abbrev Question.Answer : Question → Type
  | .accountsAt _ => Except Unreachable OneView
  | .status _ => Except Unreachable AnchorStatus
  | .receiptExists _ => Bool

/-- A program that asks such questions. -/
abbrev Inquiry (Output : Type) : Type :=
  Interaction Question Question.Answer Output

/-- Asks for several accounts as one view. -/
def accountsAt (addresses : List Pubkey) : Inquiry (Except Unreachable OneView) :=
  request (Question.accountsAt addresses)

/-- Asks for the status of an epoch. -/
def status (epoch : UInt64) : Inquiry (Except Unreachable AnchorStatus) :=
  request (Question.status epoch)

/-- Asks whether the receipt of an epoch is there. -/
def receiptExists (epoch : UInt64) : Inquiry Bool :=
  request (Question.receiptExists epoch)

/-- Reads one batch after the other. -/
def readBatches (program : Pubkey) (addresses : Addresses) :
    List (List UInt64) → Reading → Inquiry (Except Unreachable Reading)
  | [], reading => pure (.ok reading)
  | batch :: rest, reading => do
    match ← accountsAt (addresses.ofBatch batch) with
    | .error reason => pure (.error reason)
    | .ok view =>
      match readView program addresses batch view reading with
      | .error reason => pure (.error reason)
      | .ok reading => readBatches program addresses rest reading

/-- How far the published sequence lags the epochs from the first to the last. -/
def sequenceLag (program : Pubkey) (addresses : Addresses) (first last : UInt64) :
    Inquiry (Except Unreachable Lag) := do
  match ← readBatches program addresses (batches (epochsBetween first last)) .start with
  | .error reason => pure (.error reason)
  | .ok reading =>
    match reading.lag with
    | none => pure (.error ⟨"no view was read, so there is nothing to report"⟩)
    | some lag =>
      pure (.ok { lag with views := reading.views, configurationMoved := reading.moved })

/-! ### What is read from one view -/

theorem mem_epochsBetween {first last epoch : UInt64} :
    epoch ∈ epochsBetween first last ↔ first ≤ epoch ∧ epoch ≤ last := by
  have hfirst := first.toNat_lt
  have hlast := last.toNat_lt
  have hepoch := epoch.toNat_lt
  simp only [epochsBetween, List.mem_map, List.mem_range, UInt64.le_iff_toNat_le]
  constructor
  · rintro ⟨index, hindex, rfl⟩
    rw [UInt64.toNat_ofNat']
    omega
  · rintro ⟨hlow, hhigh⟩
    refine ⟨epoch.toNat - first.toNat, by omega, ?_⟩
    rw [← UInt64.toNat_inj, UInt64.toNat_ofNat']
    omega

theorem epochsBetween_self (epoch : UInt64) : epochsBetween epoch epoch = [epoch] := by
  rw [epochsBetween, Nat.add_sub_cancel_left]
  simp

/-- One epoch is read in one request. -/
theorem batches_epochsBetween_self (epoch : UInt64) :
    batches (epochsBetween epoch epoch) = [[epoch]] := by
  rw [epochsBetween_self]
  simp [batches, chunks, oneViewLimit]

/-- The epochs are in ascending order. -/
theorem pairwise_epochsBetween (first last : UInt64) :
    (epochsBetween first last).Pairwise (· < ·) := by
  have hlast := last.toNat_lt
  rw [epochsBetween, List.pairwise_map]
  refine List.Pairwise.imp_of_mem ?_ List.pairwise_lt_range
  intro left right hleft hright hless
  rw [List.mem_range] at hleft hright
  rw [UInt64.lt_iff_toNat_lt, UInt64.toNat_ofNat', UInt64.toNat_ofNat']
  omega

/-- The first epoch of the range with a property is the lowest one. -/
theorem find?_epochsBetween_eq_some {first last epoch : UInt64} {property : UInt64 → Bool}
    (hfind : (epochsBetween first last).find? property = some epoch) :
    first ≤ epoch ∧ epoch ≤ last ∧ property epoch ∧
      ∀ lower, first ≤ lower → lower < epoch → ¬ property lower := by
  obtain ⟨hproperty, before, after, hsplit, hnone⟩ := List.find?_eq_some_iff_append.mp hfind
  have hmem : epoch ∈ epochsBetween first last := by
    rw [hsplit]
    simp
  obtain ⟨hlow, hhigh⟩ := mem_epochsBetween.mp hmem
  refine ⟨hlow, hhigh, hproperty, ?_⟩
  intro lower hfirst hless
  have hsorted := pairwise_epochsBetween first last
  have hlower : lower ∈ epochsBetween first last :=
    mem_epochsBetween.mpr ⟨hfirst, UInt64.le_trans (UInt64.le_of_lt hless) hhigh⟩
  rw [hsplit] at hsorted hlower
  rcases List.mem_append.mp hlower with hbefore | hafter
  · simpa using hnone lower hbefore
  · rcases List.mem_cons.mp hafter with rfl | hlater
    · exact absurd hless (UInt64.lt_irrefl _)
    · have hgreater := List.rel_of_pairwise_cons (List.pairwise_append.mp hsorted).2.1 hlater
      exact absurd hless (UInt64.lt_asymm hgreater)

/-- Judging an epoch keeps the bounds of the log. -/
theorem judgeEpoch_bounds {program : Pubkey} {config : LogConfig}
    {accounts : List (Option (Pubkey × List UInt8))} {lag reached : Lag} {entry : UInt64 × ℕ}
    (hjudge : judgeEpoch program config accounts lag entry = .ok reached) :
    reached.startEpoch = lag.startEpoch ∧ reached.lastPublished = lag.lastPublished := by
  unfold judgeEpoch at hjudge
  dsimp only at hjudge
  split_ifs at hjudge
  · cases hjudge
    exact ⟨rfl, rfl⟩
  · cases hjudge
    exact ⟨rfl, rfl⟩
  · split at hjudge
    · cases hjudge
    · cases hjudge
    · split at hjudge
      · cases hjudge
        exact ⟨rfl, rfl⟩
      · cases hjudge
        exact ⟨rfl, rfl⟩

/-- Judging the epochs of a batch keeps the bounds of the log. -/
theorem foldlM_judgeEpoch_bounds {program : Pubkey} {config : LogConfig}
    {accounts : List (Option (Pubkey × List UInt8))} {entries : List (UInt64 × ℕ)}
    {lag reached : Lag}
    (hjudged : entries.foldlM (judgeEpoch program config accounts) lag = .ok reached) :
    reached.startEpoch = lag.startEpoch ∧ reached.lastPublished = lag.lastPublished := by
  refine @foldlM_keeps _ _ _
    (fun later : Lag ↦ later.startEpoch = lag.startEpoch ∧ later.lastPublished = lag.lastPublished)
    _ (fun before entry after hjudge hkept ↦ ?_) _ _ _ hjudged ⟨rfl, rfl⟩
  have hsame := judgeEpoch_bounds hjudge
  exact ⟨hsame.1.trans hkept.1, hsame.2.trans hkept.2⟩

/-- The bounds that are reported are those of the configuration in the last view. -/
theorem exists_config_of_readView {program : Pubkey} {addresses : Addresses} {batch : List UInt64}
    {view : OneView} {reading reached : Reading}
    (hread : readView program addresses batch view reading = .ok reached) :
    ∃ config lag, configOf program view = .ok config ∧ reached.lag = some lag ∧
      lag.startEpoch = config.startEpoch ∧ lag.lastPublished = config.lastEpoch := by
  rw [readView, bind_unit_eq_ok_iff] at hread
  obtain ⟨config, hconfig, hrest⟩ := bind_eq_ok_iff.mp hread.2
  obtain ⟨lag, hlag, hreached⟩ := bind_eq_ok_iff.mp hrest
  rw [pure_eq_ok, Except.ok.injEq] at hreached
  have hbounds := foldlM_judgeEpoch_bounds hlag
  exact ⟨config, lag, hconfig, by rw [← hreached], hbounds.1, hbounds.2⟩

/-! ### A source -/

/-- A source of account views and of statuses. -/
structure Source where
  accountsAt : List Pubkey → Except Unreachable OneView
  status : UInt64 → Except Unreachable AnchorStatus

/-- The answers of a source beside a receipts directory. -/
def Source.answers (source : Source) (receipts : UInt64 → Bool) : (asked : Question) → asked.Answer
  | .accountsAt addresses => source.accountsAt addresses
  | .status epoch => source.status epoch
  | .receiptExists epoch => receipts epoch

section Source

variable {program : Pubkey} {addresses : Addresses} {source : Source}

/-- Reading the sequence asks nothing of the receipts directory. -/
theorem answerWith_readBatches (left right : UInt64 → Bool) (pending : List (List UInt64))
    (reading : Reading) :
    answerWith (source.answers left) (readBatches program addresses pending reading) =
      answerWith (source.answers right) (readBatches program addresses pending reading) := by
  induction pending generalizing reading with
  | nil => rfl
  | cons batch rest ih =>
    simp only [readBatches, accountsAt, request_bind, answerWith_ask, Source.answers]
    cases source.accountsAt (addresses.ofBatch batch) with
    | error reason => rfl
    | ok view =>
      dsimp only
      cases readView program addresses batch view reading with
      | error reason => rfl
      | ok reached => exact ih reached

theorem answerWith_sequenceLag (left right : UInt64 → Bool) (first last : UInt64) :
    answerWith (source.answers left) (sequenceLag program addresses first last) =
      answerWith (source.answers right) (sequenceLag program addresses first last) := by
  simp only [sequenceLag, answerWith_bind]
  rw [answerWith_readBatches left right]
  split
  · rfl
  · split <;> rfl

/-- The bounds of the log as they are read with one epoch. -/
theorem exists_config_of_sequenceLag {receipts : UInt64 → Bool} {today : UInt64} {lag : Lag}
    (hlag : answerWith (source.answers receipts) (sequenceLag program addresses today today) =
      .ok lag) :
    ∃ view config, source.accountsAt [addresses.config, addresses.checkpoint today] = .ok view ∧
      configOf program view = .ok config ∧ lag.startEpoch = config.startEpoch ∧
      lag.lastPublished = config.lastEpoch := by
  simp only [sequenceLag, answerWith_bind, batches_epochsBetween_self, readBatches, accountsAt,
    request_bind,
    answerWith_ask, Source.answers] at hlag
  cases hview : source.accountsAt (addresses.ofBatch [today]) with
  | error reason =>
    rw [hview] at hlag
    cases hlag
  | ok view =>
    rw [hview] at hlag
    dsimp only at hlag
    cases hread : readView program addresses [today] view .start with
    | error reason =>
      rw [hread] at hlag
      cases hlag
    | ok reached =>
      obtain ⟨config, found, hconfig, hfound, hstart, hlast⟩ := exists_config_of_readView hread
      rw [hread] at hlag
      simp only [pure_eq_done, answerWith_done, hfound, Except.ok.injEq] at hlag
      subst hlag
      exact ⟨view, config, hview, hconfig, hstart, hlast⟩

end Source

end AnchoredLog.Client.Fetch
