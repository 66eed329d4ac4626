import AnchoredLog.Client.Fetch

/-!
# Every epoch is judged once, by its own view

A source answers each request of `sequenceLag` as it likes: `conduct` runs the reading against
answers that may depend on how many were given before. The reading is one loop over the answered
requests; what it has established after some of them, `Reads`, is a list of verdicts, each reached
within one view, and the bounds those views reported.
-/

set_option autoImplicit false
set_option relaxedAutoImplicit false

namespace AnchoredLog.Client.SequenceLag

open Library.Fallible Library.Interactions Program.AccountLayouts Program.Checkpoint Publish Fetch

/-! ### The requests -/

section Chunks

variable {Element : Type} {size : ℕ}

theorem flatten_map_range_chunk (count : ℕ) (elements : List Element) :
    ((List.range count).map fun index ↦ (elements.drop (index * size)).take size).flatten =
      elements.take (count * size) := by
  induction count with
  | zero => simp
  | succ count ih =>
    rw [List.range_succ, List.map_append, List.flatten_append, ih, Nat.succ_mul, List.take_add]
    simp

/-- The pieces of a list make up the list. -/
theorem flatten_chunks (hsize : 0 < size) (elements : List Element) :
    (chunks size elements).flatten = elements := by
  rw [chunks, flatten_map_range_chunk]
  refine List.take_of_length_le ?_
  have hquotient := Nat.lt_div_mul_add hsize (a := elements.length + size - 1)
  omega

theorem length_le_of_mem_chunks {elements piece : List Element}
    (hpiece : piece ∈ chunks size elements) : piece.length ≤ size := by
  obtain ⟨index, _, rfl⟩ := List.mem_map.mp hpiece
  exact List.length_take_le _ _

end Chunks

/-- The requests for the epochs from the first to the last. -/
def planOf (first last : UInt64) : List (List UInt64) :=
  batches (epochsBetween first last)

theorem length_epochsBetween (first last : UInt64) :
    (epochsBetween first last).length = last.toNat + 1 - first.toNat := by
  rw [epochsBetween, List.length_map, List.length_range]

/-- One request for each 99 epochs or part of them, and one when there are none. -/
theorem length_planOf (first last : UInt64) :
    (planOf first last).length = max 1 ((last.toNat + 1 - first.toNat + 98) / 99) := by
  rw [planOf, batches, ← length_epochsBetween]
  split
  · next hempty =>
    rw [List.isEmpty_iff.mp hempty]
    rfl
  · next hnonempty =>
    have hpositive : (epochsBetween first last).length ≠ 0 := by
      rwa [List.isEmpty_iff_length_eq_zero] at hnonempty
    rw [chunks, List.length_map, List.length_range, oneViewLimit]
    omega

/-- The requests hold every epoch of the range, in ascending order. -/
theorem flatten_planOf (first last : UInt64) :
    (planOf first last).flatten = epochsBetween first last := by
  rw [planOf, batches]
  split
  · next hempty => rw [List.isEmpty_iff.mp hempty]; rfl
  · exact flatten_chunks (by decide) _

theorem length_le_of_mem_planOf {first last : UInt64} {batch : List UInt64}
    (hbatch : batch ∈ planOf first last) : batch.length ≤ 99 := by
  rw [planOf, batches] at hbatch
  split at hbatch
  · rw [List.mem_singleton.mp hbatch]
    exact Nat.zero_le _
  · exact length_le_of_mem_chunks hbatch

/-! ### One epoch -/

/-- Where an epoch sits relative to the log. -/
inductive Place
  | beforeLogStart
  | notYetPublished
  | refused (reason : Refused)
  | accepted
deriving DecidableEq

/-- Where the epoch at an offset of a batch sits by the configuration of its view; nowhere, when it
is published and the view has no account for it. -/
def placeOf (program : Pubkey) (config : LogConfig)
    (accounts : List (Option (Pubkey × List UInt8))) (entry : UInt64 × ℕ) : Option Place :=
  if entry.1 < config.startEpoch then some .beforeLogStart
  else if config.lastEpoch < entry.1 then some .notYetPublished
  else
    match accounts[entry.2 + 1]? with
    | some (some (owner, data)) =>
      match decodeCheckpointOf program owner data entry.1 with
      | .ok _ => some .accepted
      | .error reason => some (.refused reason)
    | _ => none

/-- The answer with one epoch more in the list of its place. -/
def record (lag : Lag) (epoch : UInt64) : Place → Lag
  | .beforeLogStart => { lag with beforeLogStart := lag.beforeLogStart ++ [epoch] }
  | .notYetPublished => { lag with notYetPublished := lag.notYetPublished ++ [epoch] }
  | .refused reason => { lag with refused := lag.refused ++ [(epoch, reason)] }
  | .accepted => lag

variable {program : Pubkey} {config : LogConfig}
  {accounts : List (Option (Pubkey × List UInt8))}

/-- Judging an epoch records its place. -/
theorem judgeEpoch_eq_ok_iff {lag reached : Lag} {entry : UInt64 × ℕ} :
    judgeEpoch program config accounts lag entry = .ok reached ↔
      ∃ place, placeOf program config accounts entry = some place ∧
        reached = record lag entry.1 place := by
  unfold judgeEpoch placeOf
  dsimp only
  split_ifs
  · simp [record, eq_comm]
  · simp [record, eq_comm]
  · rcases accounts[entry.2 + 1]? with _ | _ | ⟨owner, data⟩
    · simp
    · simp
    · dsimp only
      cases decodeCheckpointOf program owner data entry.1 <;> simp [record, eq_comm]

theorem judgeEpoch_eq_error_iff (lag : Lag) (entry : UInt64 × ℕ) :
    (∃ reason, judgeEpoch program config accounts lag entry = .error reason) ↔
      placeOf program config accounts entry = none := by
  constructor
  · rintro ⟨reason, hreason⟩
    rw [Option.eq_none_iff_forall_ne_some]
    intro place hplace
    rw [judgeEpoch_eq_ok_iff.mpr ⟨place, hplace, rfl⟩] at hreason
    cases hreason
  · intro hnowhere
    cases hjudge : judgeEpoch program config accounts lag entry with
    | error reason => exact ⟨reason, rfl⟩
    | ok reached =>
      obtain ⟨place, hplace, _⟩ := judgeEpoch_eq_ok_iff.mp hjudge
      rw [hnowhere] at hplace
      cases hplace

/-- The reason of a refusal. -/
def reasonOf : Place → Option Refused
  | .refused reason => some reason
  | _ => none

/-- The lists of an answer are those of some verdicts. -/
structure Tallies (verdicts : List (UInt64 × Place)) (lag : Lag) : Prop where
  beforeLogStart : lag.beforeLogStart =
    (verdicts.filter fun verdict ↦ verdict.2 = .beforeLogStart).map Prod.fst
  notYetPublished : lag.notYetPublished =
    (verdicts.filter fun verdict ↦ verdict.2 = .notYetPublished).map Prod.fst
  refused : lag.refused =
    verdicts.filterMap fun verdict ↦ (reasonOf verdict.2).map (verdict.1, ·)

theorem Tallies.record {verdicts : List (UInt64 × Place)} {lag : Lag}
    (htallies : Tallies verdicts lag) (epoch : UInt64) (place : Place) :
    Tallies (verdicts ++ [(epoch, place)]) (record lag epoch place) := by
  obtain ⟨hbefore, hnotYet, hrefused⟩ := htallies
  cases place <;> constructor <;>
    simp [SequenceLag.record, hbefore, hnotYet, hrefused, reasonOf, List.filterMap_append]

/-! ### One view -/

/-- The verdicts on the epochs of a batch, by a configuration and the accounts of its view. -/
def verdictsBy (program : Pubkey) (config : LogConfig)
    (accounts : List (Option (Pubkey × List UInt8))) (entries : List (UInt64 × ℕ)) :
    List (UInt64 × Place) :=
  entries.filterMap fun entry ↦ (placeOf program config accounts entry).map (entry.1, ·)

/-- Judging the epochs of a view adds its verdicts. -/
theorem tallies_of_foldlM_judgeEpoch {entries : List (UInt64 × ℕ)} {lag reached : Lag}
    {verdicts : List (UInt64 × Place)}
    (hjudge : entries.foldlM (judgeEpoch program config accounts) lag = .ok reached)
    (htallies : Tallies verdicts lag) :
    Tallies (verdicts ++ verdictsBy program config accounts entries) reached := by
  refine @foldlM_tracks _ _ _
    (fun past lag ↦ Tallies (verdicts ++ verdictsBy program config accounts past) lag) _ ?_
    [] entries lag reached hjudge (by simpa [verdictsBy] using htallies)
  intro past lag entry reached hone hpast
  obtain ⟨place, hplace, rfl⟩ := judgeEpoch_eq_ok_iff.mp hone
  have hsplit : verdictsBy program config accounts (past ++ [entry]) =
      verdictsBy program config accounts past ++ [(entry.1, place)] := by
    rw [verdictsBy, List.filterMap_append, List.filterMap_cons, hplace]
    rfl
  rw [hsplit, ← List.append_assoc]
  exact hpast.record entry.1 place

/-- A view has a configuration at its front. -/
def ConfigIn (program : Pubkey) (view : OneView) (config : LogConfig) : Prop :=
  ∃ owner data, view.accounts.head? = some (some (owner, data)) ∧
    decodeConfig program owner data = .ok config

theorem configOf_eq_ok_iff {view : OneView} :
    configOf program view = .ok config ↔ ConfigIn program view config := by
  unfold configOf ConfigIn
  rcases view.accounts with _ | ⟨_ | ⟨owner, data⟩, rest⟩
  · simp
  · simp
  · dsimp only
    cases hdecode : decodeConfig program owner data with
    | ok found =>
      constructor
      · rintro ⟨⟩
        exact ⟨owner, data, rfl, hdecode⟩
      · rintro ⟨_, _, ⟨⟩, hfound⟩
        exact congrArg Except.ok (Except.ok.inj (hdecode.symm.trans hfound))
    | error reason =>
      constructor
      · rintro ⟨⟩
      · rintro ⟨_, _, ⟨⟩, hfound⟩
        rw [hdecode] at hfound
        cases hfound

/-- An answer to the request for a batch that the reading does not go on from. -/
inductive Unusable (program : Pubkey) (batch : List UInt64) : Except Unreachable OneView → Prop
  | failed (reason : Unreachable) : Unusable program batch (.error reason)
  | miscounted {view : OneView} (hcount : view.accounts.length ≠ batch.length + 1) :
      Unusable program batch (.ok view)
  | unconfigured {view : OneView} (hconfig : ∀ config, ¬ ConfigIn program view config) :
      Unusable program batch (.ok view)
  | missing {view : OneView} {config : LogConfig} (hconfig : ConfigIn program view config)
      {offset : ℕ} {epoch : UInt64} (hepoch : batch[offset]? = some epoch)
      (hlow : config.startEpoch ≤ epoch) (hhigh : epoch ≤ config.lastEpoch)
      (hmissing : view.accounts[offset + 1]? = some none) : Unusable program batch (.ok view)

theorem ConfigIn.unique {view : OneView} {other : LogConfig}
    (hconfig : ConfigIn program view config) (hother : ConfigIn program view other) :
    config = other :=
  Except.ok.inj ((configOf_eq_ok_iff.mpr hconfig).symm.trans (configOf_eq_ok_iff.mpr hother))

theorem placeOf_eq_none_iff {entry : UInt64 × ℕ} (hentry : entry.2 + 1 < accounts.length) :
    placeOf program config accounts entry = none ↔
      config.startEpoch ≤ entry.1 ∧ entry.1 ≤ config.lastEpoch ∧
        accounts[entry.2 + 1]? = some none := by
  unfold placeOf
  split_ifs with hbefore hafter
  · simp [UInt64.not_le.mpr hbefore]
  · simp [UInt64.not_le.mpr hafter]
  · rw [List.getElem?_eq_getElem hentry]
    rcases accounts[entry.2 + 1] with _ | ⟨owner, data⟩
    · simp [UInt64.not_lt.mp hbefore, UInt64.not_lt.mp hafter]
    · dsimp only
      cases decodeCheckpointOf program owner data entry.1 <;> simp

theorem length_ofBatch (addresses : Addresses) (batch : List UInt64) :
    (addresses.ofBatch batch).length = batch.length + 1 := by
  rw [Addresses.ofBatch, List.length_cons, List.length_map]

/-- Judging the epochs of a view fails when one of them is published and has no account there. -/
theorem foldlM_judgeEpoch_eq_error_iff {view : OneView} {batch : List UInt64}
    (hcount : view.accounts.length = batch.length + 1) (lag : Lag) :
    (∃ reason, batch.zipIdx.foldlM (judgeEpoch program config view.accounts) lag =
      .error reason) ↔ ∃ offset epoch, batch[offset]? = some epoch ∧
        config.startEpoch ≤ epoch ∧ epoch ≤ config.lastEpoch ∧
          view.accounts[offset + 1]? = some none := by
  rw [foldlM_eq_error_iff judgeEpoch_eq_error_iff]
  constructor
  · rintro ⟨⟨epoch, offset⟩, hentry, hnowhere⟩
    have hepoch := List.mem_zipIdx_iff_getElem?.mp hentry
    have hoffset := (List.getElem?_eq_some_iff.mp hepoch).1
    have hbound : offset + 1 < view.accounts.length := by omega
    exact ⟨offset, epoch, hepoch, (placeOf_eq_none_iff hbound).mp hnowhere⟩
  · rintro ⟨offset, epoch, hepoch, hmissing⟩
    have hoffset := (List.getElem?_eq_some_iff.mp hepoch).1
    have hbound : offset + 1 < view.accounts.length := by omega
    exact ⟨(epoch, offset), List.mem_zipIdx_iff_getElem?.mpr hepoch,
      (placeOf_eq_none_iff hbound).mpr hmissing⟩

/-- What the answer to the request for a batch adds to what has been read. -/
def readAnswer (program : Pubkey) (addresses : Addresses) (reading : Reading)
    (answered : List UInt64 × Except Unreachable OneView) : Except Unreachable Reading :=
  answered.2 >>= fun view ↦ readView program addresses answered.1 view reading

/-- Reading fails on account of the answer alone. -/
theorem readAnswer_eq_error_iff (addresses : Addresses) (reading : Reading)
    (answered : List UInt64 × Except Unreachable OneView) :
    (∃ reason, readAnswer program addresses reading answered = .error reason) ↔
      Unusable program answered.1 answered.2 := by
  obtain ⟨batch, reason | view⟩ := answered
  · exact ⟨fun _ ↦ .failed reason, fun _ ↦ ⟨reason, rfl⟩⟩
  rw [readAnswer, bind_ok, readView, length_ofBatch]
  by_cases hcount : view.accounts.length = batch.length + 1
  · rw [require_of_true hcount, bind_ok]
    cases hconfig : configOf program view with
    | error reason =>
      refine ⟨fun _ ↦ .unconfigured fun config hin ↦ ?_, fun _ ↦ ⟨reason, rfl⟩⟩
      rw [configOf_eq_ok_iff.mpr hin] at hconfig
      cases hconfig
    | ok config =>
      have hin := configOf_eq_ok_iff.mp hconfig
      rw [bind_ok]
      dsimp only
      constructor
      · rintro ⟨reason, hreason⟩
        cases hjudge : batch.zipIdx.foldlM (judgeEpoch program config view.accounts) _ with
        | ok lag =>
          rw [hjudge] at hreason
          cases hreason
        | error failure =>
          obtain ⟨offset, epoch, hepoch, hlow, hhigh, hmissing⟩ :=
            (foldlM_judgeEpoch_eq_error_iff hcount _).mp ⟨failure, hjudge⟩
          exact .missing hin hepoch hlow hhigh hmissing
      · intro hunusable
        cases hunusable with
        | miscounted hother => exact absurd hcount hother
        | unconfigured hnone => exact absurd hin (hnone config)
        | missing hother hepoch hlow hhigh hmissing =>
          obtain rfl := hin.unique hother
          obtain ⟨failure, hjudge⟩ := (foldlM_judgeEpoch_eq_error_iff hcount _).mpr
            ⟨_, _, hepoch, hlow, hhigh, hmissing⟩
          exact ⟨failure, by rw [hjudge]; rfl⟩
  · rw [require_of_false hcount]
    exact ⟨fun _ ↦ .miscounted hcount, fun _ ↦ ⟨_, rfl⟩⟩

/-! ### All the views -/

variable {addresses : Addresses} {answers : ℕ → (asked : Question) → asked.Answer}

/-- The batches of some requests with their answers, from a number of requests on. -/
def answered (answers : ℕ → (asked : Question) → asked.Answer) (addresses : Addresses)
    (plan : List (List UInt64)) (made : ℕ) : List (List UInt64 × Except Unreachable OneView) :=
  (plan.zipIdx made).map fun entry ↦
    (entry.1, answers entry.2 (.accountsAt (addresses.ofBatch entry.1)))

theorem answered_cons (batch : List UInt64) (rest : List (List UInt64)) (made : ℕ) :
    answered answers addresses (batch :: rest) made =
      (batch, answers made (.accountsAt (addresses.ofBatch batch))) ::
        answered answers addresses rest (made + 1) :=
  rfl

/-- The requests for some batches. -/
def requestsOf (addresses : Addresses) (plan : List (List UInt64)) : List Question :=
  plan.map fun batch ↦ .accountsAt (addresses.ofBatch batch)

/-- Reading the batches is a loop over the answered requests. -/
theorem conduct_readBatches (plan : List (List UInt64)) (made : ℕ) (reading : Reading) :
    (conduct answers made (readBatches program addresses plan reading)).2 =
      (answered answers addresses plan made).foldlM (readAnswer program addresses) reading := by
  induction plan generalizing made reading with
  | nil => rfl
  | cons batch rest ih =>
    rw [answered_cons, List.foldlM_cons, readAnswer, readBatches, accountsAt, request_bind,
      conduct_ask]
    cases answers made (.accountsAt (addresses.ofBatch batch)) with
    | error reason => rfl
    | ok view =>
      rw [bind_ok]
      dsimp only
      cases readView program addresses batch view reading with
      | error reason => rfl
      | ok reached => exact ih (made + 1) reached

/-- The requests that are made are the first of the planned ones. -/
theorem requests_readBatches_front (plan : List (List UInt64)) (made : ℕ) (reading : Reading) :
    (conduct answers made (readBatches program addresses plan reading)).1 <+:
      requestsOf addresses plan := by
  induction plan generalizing made reading with
  | nil => exact List.prefix_rfl
  | cons batch rest ih =>
    rw [readBatches, accountsAt, request_bind, conduct_ask, requestsOf, List.map_cons]
    refine List.cons_prefix_cons.mpr ⟨rfl, ?_⟩
    cases answers made (.accountsAt (addresses.ofBatch batch)) with
    | error reason => exact List.nil_prefix
    | ok view =>
      dsimp only
      cases readView program addresses batch view reading with
      | error reason => exact List.nil_prefix
      | ok reached => exact ih (made + 1) reached

/-- A reading that succeeds has made all of the planned requests. -/
theorem requests_readBatches_of_ok {plan : List (List UInt64)} {made : ℕ}
    {reading reached : Reading}
    (hread : (conduct answers made (readBatches program addresses plan reading)).2 =
      .ok reached) :
    (conduct answers made (readBatches program addresses plan reading)).1 =
      requestsOf addresses plan := by
  induction plan generalizing made reading with
  | nil => rfl
  | cons batch rest ih =>
    rw [readBatches, accountsAt, request_bind, conduct_ask] at hread ⊢
    rw [requestsOf, List.map_cons]
    refine List.cons_eq_cons.mpr ⟨rfl, ?_⟩
    cases hanswer : answers made (.accountsAt (addresses.ofBatch batch)) with
    | error reason =>
      rw [hanswer] at hread
      cases hread
    | ok view =>
      rw [hanswer] at hread
      dsimp only at hread ⊢
      cases hview : readView program addresses batch view reading with
      | error reason =>
        rw [hview] at hread
        cases hread
      | ok next =>
        rw [hview] at hread
        exact ih hread

/-- The verdicts of an answer. -/
def verdictsOf (program : Pubkey) (answer : List UInt64 × Except Unreachable OneView) :
    List (UInt64 × Place) :=
  match answer.2 with
  | .error _ => []
  | .ok view =>
    match configOf program view with
    | .error _ => []
    | .ok config => verdictsBy program config view.accounts answer.1.zipIdx

/-- The bounds an answer reports. -/
def boundsOf (program : Pubkey) (answer : List UInt64 × Except Unreachable OneView) :
    Option (UInt64 × UInt64) :=
  match answer.2 with
  | .error _ => none
  | .ok view =>
    match configOf program view with
    | .error _ => none
    | .ok config => some (config.startEpoch, config.lastEpoch)

/-- What a reading has established of the answers behind it. -/
structure Reads (program : Pubkey) (past : List (List UInt64 × Except Unreachable OneView))
    (reading : Reading) : Prop where
  tallies : ∀ lag, reading.lag = some lag → Tallies (past.flatMap (verdictsOf program)) lag
  unread : reading.lag = none → past = []
  reported : reading.lag.map (fun lag ↦ (lag.startEpoch, lag.lastPublished)) =
    (past.filterMap (boundsOf program)).getLast?
  first : reading.firstConfig = (past.filterMap (boundsOf program)).head?
  moved : reading.moved = true ↔ ∃ left ∈ past.filterMap (boundsOf program),
    ∃ right ∈ past.filterMap (boundsOf program), left ≠ right
  views : reading.views = past.length

theorem reads_start : Reads program [] .start where
  tallies := fun _ hlag ↦ nomatch hlag
  unread := fun _ ↦ rfl
  reported := rfl
  first := rfl
  moved := by simp [Reading.start]
  views := rfl

/-- A list with one element more has two different ones when it had, or when its first one differs
from the last. -/
theorem exists_ne_append_singleton_iff {Element : Type} [BEq Element] [LawfulBEq Element]
    {elements : List Element} {last : Element} :
    (∃ left ∈ elements ++ [last], ∃ right ∈ elements ++ [last], left ≠ right) ↔
      (∃ left ∈ elements, ∃ right ∈ elements, left ≠ right) ∨
        elements.head?.any (· != last) = true := by
  rcases elements with _ | ⟨first, rest⟩
  · simp
  · simp only [List.head?_cons, Option.any_some, bne_iff_ne]
    constructor
    · rintro ⟨left, hleft, right, hright, hne⟩
      by_cases hlast : first = last
      · subst hlast
        have hold : ∀ element ∈ (first :: rest) ++ [first], element ∈ first :: rest := by
          intro element helement
          rcases List.mem_append.mp helement with hold | hlast
          · exact hold
          · exact List.mem_singleton.mp hlast ▸ List.mem_cons_self
        exact .inl ⟨left, hold left hleft, right, hold right hright, hne⟩
      · exact .inr hlast
    · rintro (⟨left, hleft, right, hright, hne⟩ | hne)
      · exact ⟨left, List.mem_append_left _ hleft, right, List.mem_append_left _ hright, hne⟩
      · exact ⟨first, by simp, last, by simp, hne⟩

/-- An answer that can be gone on from is a view with a configuration and a place for each epoch. -/
theorem exists_view_of_not_unusable {answer : List UInt64 × Except Unreachable OneView}
    (husable : ¬ Unusable program answer.1 answer.2) :
    ∃ view config, answer.2 = .ok view ∧ view.accounts.length = answer.1.length + 1 ∧
      ConfigIn program view config ∧
      ∀ entry ∈ answer.1.zipIdx, placeOf program config view.accounts entry ≠ none := by
  obtain ⟨batch, reason | view⟩ := answer
  · exact absurd (.failed reason) husable
  have hcount : view.accounts.length = batch.length + 1 := by
    by_contra hcount
    exact husable (.miscounted hcount)
  obtain ⟨config, hconfig⟩ : ∃ config, ConfigIn program view config := by
    by_contra hnone
    exact husable (.unconfigured (not_exists.mp hnone))
  refine ⟨view, config, rfl, hcount, hconfig, ?_⟩
  rintro ⟨epoch, offset⟩ hentry hnowhere
  have hepoch := List.mem_zipIdx_iff_getElem?.mp hentry
  have hoffset := (List.getElem?_eq_some_iff.mp hepoch).1
  have hbound : offset + 1 < view.accounts.length := by
    dsimp only at hcount hoffset
    omega
  obtain ⟨hlow, hhigh, hmissing⟩ := (placeOf_eq_none_iff hbound).mp hnowhere
  exact husable (.missing hconfig hepoch hlow hhigh hmissing)

theorem verdictsOf_eq {batch : List UInt64} {view : OneView}
    (hconfig : ConfigIn program view config) :
    verdictsOf program (batch, .ok view) =
      verdictsBy program config view.accounts batch.zipIdx := by
  rw [verdictsOf]
  dsimp only
  rw [configOf_eq_ok_iff.mpr hconfig]

theorem boundsOf_eq {batch : List UInt64} {view : OneView}
    (hconfig : ConfigIn program view config) :
    boundsOf program (batch, .ok view) = some (config.startEpoch, config.lastEpoch) := by
  rw [boundsOf]
  dsimp only
  rw [configOf_eq_ok_iff.mpr hconfig]

theorem tallies_empty (start last : UInt64) (views : ℕ) (moved : Bool) :
    Tallies [] ⟨start, last, [], [], [], views, moved⟩ :=
  ⟨rfl, rfl, rfl⟩

theorem Tallies.of_lists {verdicts : List (UInt64 × Place)} {lag other : Lag}
    (htallies : Tallies verdicts lag) (hbefore : other.beforeLogStart = lag.beforeLogStart)
    (hnotYet : other.notYetPublished = lag.notYetPublished)
    (hrefused : other.refused = lag.refused) : Tallies verdicts other :=
  ⟨hbefore.trans htallies.beforeLogStart, hnotYet.trans htallies.notYetPublished,
    hrefused.trans htallies.refused⟩

/-- One answer more is established as the ones before. -/
theorem Reads.step {past : List (List UInt64 × Except Unreachable OneView)}
    {reading reached : Reading} {answer : List UInt64 × Except Unreachable OneView}
    (hanswer : readAnswer program addresses reading answer = .ok reached)
    (hreads : Reads program past reading) : Reads program (past ++ [answer]) reached := by
  obtain ⟨batch, outcome⟩ := answer
  rw [readAnswer, bind_eq_ok_iff] at hanswer
  obtain ⟨view, rfl, hread⟩ := hanswer
  rw [readView, bind_unit_eq_ok_iff] at hread
  obtain ⟨config, hconfig, hrest⟩ := bind_eq_ok_iff.mp hread.2
  obtain ⟨lag, hlag, hreached⟩ := bind_eq_ok_iff.mp hrest
  rw [pure_eq_ok, Except.ok.injEq] at hreached
  subst hreached
  have hin := configOf_eq_ok_iff.mp hconfig
  have hbounds : (past ++ [(batch, Except.ok view)]).filterMap (boundsOf program) =
      past.filterMap (boundsOf program) ++ [(config.startEpoch, config.lastEpoch)] := by
    rw [List.filterMap_append, List.filterMap_cons, boundsOf_eq hin]
    rfl
  constructor
  · rintro _ ⟨⟩
    rw [List.flatMap_append, List.flatMap_singleton, verdictsOf_eq hin]
    refine tallies_of_foldlM_judgeEpoch hlag ?_
    cases hold : reading.lag with
    | none =>
      rw [hreads.unread hold]
      exact tallies_empty _ _ _ _
    | some old => exact (hreads.tallies old hold).of_lists rfl rfl rfl
  · rintro ⟨⟩
  · have hkept := foldlM_judgeEpoch_bounds hlag
    rw [hbounds, List.getLast?_concat, Option.map_some, hkept.1, hkept.2]
  · rw [hbounds, List.head?_append, ← hreads.first]
    cases reading.firstConfig <;> rfl
  · rw [hbounds, exists_ne_append_singleton_iff, ← hreads.moved, ← hreads.first]
    exact Iff.of_eq (Bool.or_eq_true _ _)
  · rw [List.length_append, hreads.views]
    rfl

/-- A reading that succeeds has met no unusable answer, and has established them all. -/
theorem reads_of_foldlM_readAnswer {past : List (List UInt64 × Except Unreachable OneView)}
    {reading : Reading}
    (hread : past.foldlM (readAnswer program addresses) .start = .ok reading) :
    Reads program past reading ∧ ∀ answer ∈ past, ¬ Unusable program answer.1 answer.2 := by
  constructor
  · exact foldlM_tracks (fun _ _ _ _ ↦ Reads.step) hread reads_start
  · intro answer hanswer hunusable
    obtain ⟨reason, hreason⟩ :=
      (foldlM_eq_error_iff (readAnswer_eq_error_iff addresses) past .start).mpr
        ⟨answer, hanswer, hunusable⟩
    rw [hread] at hreason
    cases hreason

/-! ### Every epoch is in one list -/

theorem map_fst_verdictsBy {entries : List (UInt64 × ℕ)}
    (hplaced : ∀ entry ∈ entries, placeOf program config accounts entry ≠ none) :
    (verdictsBy program config accounts entries).map Prod.fst = entries.map Prod.fst := by
  induction entries with
  | nil => rfl
  | cons entry entries ih =>
    obtain ⟨place, hplace⟩ := Option.ne_none_iff_exists'.mp (hplaced entry List.mem_cons_self)
    rw [verdictsBy, List.filterMap_cons, hplace, Option.map_some, List.map_cons, List.map_cons]
    exact congrArg _ (ih fun other hother ↦ hplaced other (List.mem_cons_of_mem _ hother))

/-- The verdicts are on the epochs of the batches. -/
theorem map_fst_verdictsOf {past : List (List UInt64 × Except Unreachable OneView)}
    (husable : ∀ answer ∈ past, ¬ Unusable program answer.1 answer.2) :
    (past.flatMap (verdictsOf program)).map Prod.fst = (past.map Prod.fst).flatten := by
  induction past with
  | nil => rfl
  | cons answer past ih =>
    obtain ⟨batch, outcome⟩ := answer
    obtain ⟨view, config, rfl, _, hconfig, hplaced⟩ :=
      exists_view_of_not_unusable (husable (batch, outcome) List.mem_cons_self)
    rw [List.flatMap_cons, List.map_append, verdictsOf_eq hconfig, map_fst_verdictsBy hplaced,
      ih fun other hother ↦ husable other (List.mem_cons_of_mem _ hother), List.map_cons,
      List.flatten_cons, List.zipIdx_map_fst]

theorem map_fst_answered (plan : List (List UInt64)) (made : ℕ) :
    (answered answers addresses plan made).map Prod.fst = plan := by
  rw [answered, List.map_map]
  exact List.zipIdx_map_fst made plan

theorem sublist_map_fst_filterMap {Reason : Type} (verdicts : List (UInt64 × Place))
    (reasonOf : Place → Option Reason) :
    ((verdicts.filterMap fun verdict ↦ (reasonOf verdict.2).map (verdict.1, ·)).map
      Prod.fst).Sublist (verdicts.map Prod.fst) := by
  induction verdicts with
  | nil => exact List.Sublist.refl _
  | cons verdict verdicts ih =>
    rw [List.filterMap_cons, List.map_cons]
    cases reasonOf verdict.2 with
    | none => exact ih.cons _
    | some reason => exact ih.cons_cons _

/-- The answer has an epoch in the list of a place; an accepted one is in none of them. -/
def Listed (lag : Lag) (epoch : UInt64) : Place → Prop
  | .beforeLogStart => epoch ∈ lag.beforeLogStart
  | .notYetPublished => epoch ∈ lag.notYetPublished
  | .refused reason => (epoch, reason) ∈ lag.refused
  | .accepted => epoch ∉ lag.beforeLogStart ∧ epoch ∉ lag.notYetPublished ∧
      ∀ reason, (epoch, reason) ∉ lag.refused

/-- An epoch sits in a place by a configuration and by what its view has at its address. -/
def Sits (program : Pubkey) (config : LogConfig) (account : Option (Pubkey × List UInt8))
    (epoch : UInt64) : Place → Prop
  | .beforeLogStart => epoch < config.startEpoch
  | .notYetPublished => config.startEpoch ≤ epoch ∧ config.lastEpoch < epoch
  | .refused reason => config.startEpoch ≤ epoch ∧ epoch ≤ config.lastEpoch ∧
      ∃ owner data, account = some (owner, data) ∧
        decodeCheckpointOf program owner data epoch = .error reason
  | .accepted => config.startEpoch ≤ epoch ∧ epoch ≤ config.lastEpoch ∧
      ∃ owner data checkpoint, account = some (owner, data) ∧
        decodeCheckpointOf program owner data epoch = .ok checkpoint

/-- The place that is found is the one the epoch sits in. -/
theorem sits_iff {account : Option (Pubkey × List UInt8)} {epoch : UInt64} {offset : ℕ}
    {place other : Place} (haccount : accounts[offset + 1]? = some account)
    (hplace : placeOf program config accounts (epoch, offset) = some place) :
    Sits program config account epoch other ↔ other = place := by
  unfold placeOf at hplace
  dsimp only at hplace
  split_ifs at hplace with hbefore hafter
  · obtain rfl := Option.some.inj hplace
    have hnot := UInt64.not_le.mpr hbefore
    cases other <;> simp [Sits, hbefore, hnot]
  · obtain rfl := Option.some.inj hplace
    have hnot := UInt64.not_le.mpr hafter
    have hstart := UInt64.not_lt.mp hbefore
    cases other <;> simp [Sits, hafter, hnot, hbefore, hstart]
  · rw [haccount] at hplace
    have hstart := UInt64.not_lt.mp hbefore
    have hlast := UInt64.not_lt.mp hafter
    rcases account with _ | ⟨owner, data⟩
    · cases hplace
    · dsimp only at hplace
      cases hdecode : decodeCheckpointOf program owner data epoch with
      | ok checkpoint =>
        rw [hdecode] at hplace
        obtain rfl := Option.some.inj hplace
        cases other <;> simp [Sits, hbefore, hafter, hstart, hlast, hdecode]
      | error reason =>
        rw [hdecode] at hplace
        obtain rfl := Option.some.inj hplace
        cases other <;> simp [Sits, hbefore, hafter, hstart, hlast, hdecode, eq_comm]

/-- An epoch is in the list of its verdict and in no other. -/
theorem Tallies.listed_iff {verdicts : List (UInt64 × Place)} {lag : Lag}
    (htallies : Tallies verdicts lag) (hnodup : (verdicts.map Prod.fst).Nodup) {epoch : UInt64}
    {place other : Place} (hverdict : (epoch, place) ∈ verdicts) :
    Listed lag epoch other ↔ other = place := by
  have honly : ∀ found, (epoch, found) ∈ verdicts ↔ found = place := by
    intro found
    constructor
    · intro hfound
      exact (Prod.ext_iff.mp (List.inj_on_of_nodup_map hnodup hfound hverdict rfl)).2
    · rintro rfl
      exact hverdict
  have hbefore : epoch ∈ lag.beforeLogStart ↔ Place.beforeLogStart = place := by
    rw [htallies.beforeLogStart, ← honly]
    simp
  have hnotYet : epoch ∈ lag.notYetPublished ↔ Place.notYetPublished = place := by
    rw [htallies.notYetPublished, ← honly]
    simp
  have hrefused : ∀ reason, (epoch, reason) ∈ lag.refused ↔ Place.refused reason = place := by
    intro reason
    rw [htallies.refused, List.mem_filterMap, ← honly]
    constructor
    · rintro ⟨⟨other, found⟩, hmem, hsome⟩
      cases found <;> simp [reasonOf] at hsome
      obtain ⟨rfl, rfl⟩ := hsome
      exact hmem
    · exact fun hmem ↦ ⟨_, hmem, rfl⟩
  cases other with
  | beforeLogStart => exact hbefore
  | notYetPublished => exact hnotYet
  | refused reason => exact hrefused reason
  | accepted =>
    simp only [Listed, hbefore, hnotYet, hrefused]
    cases place <;> simp

/-! ### The whole range -/

/-- The answer to the request for a batch is a view with a configuration. -/
structure Saw (program : Pubkey) (addresses : Addresses)
    (answers : ℕ → (asked : Question) → asked.Answer) (first last : UInt64) (index : ℕ)
    (batch : List UInt64) (view : OneView) (config : LogConfig) : Prop where
  planned : (planOf first last)[index]? = some batch
  answer : answers index (.accountsAt (addresses.ofBatch batch)) = .ok view
  config : ConfigIn program view config

/-- The answer to a range judges every epoch by its own view. -/
structure Classifies (program : Pubkey) (addresses : Addresses)
    (answers : ℕ → (asked : Question) → asked.Answer) (first last : UInt64) (lag : Lag) :
    Prop where
  /-- Every request was answered by a view with a configuration. -/
  seen : ∀ index < (planOf first last).length, ∃ batch view config,
    Saw program addresses answers first last index batch view config
  /-- Every epoch is in exactly one place, the one it sits in by its view. -/
  place : ∀ index batch view config,
    Saw program addresses answers first last index batch view config →
      ∀ offset epoch, batch[offset]? = some epoch → ∃ account,
        view.accounts[offset + 1]? = some account ∧ (∃! place, Listed lag epoch place) ∧
          ∀ place, Listed lag epoch place ↔ Sits program config account epoch place
  /-- Only epochs of the range are listed. -/
  within : ∀ epoch, (epoch ∈ lag.beforeLogStart ∨ epoch ∈ lag.notYetPublished ∨
    epoch ∈ lag.refused.map Prod.fst) → first ≤ epoch ∧ epoch ≤ last
  ascending : lag.beforeLogStart.Pairwise (· < ·) ∧ lag.notYetPublished.Pairwise (· < ·) ∧
    (lag.refused.map Prod.fst).Pairwise (· < ·)
  /-- The bounds are those of the last view. -/
  bounds : ∀ batch view config,
    Saw program addresses answers first last ((planOf first last).length - 1) batch view config →
      lag.startEpoch = config.startEpoch ∧ lag.lastPublished = config.lastEpoch
  /-- The configuration moved when two views reported different bounds. -/
  moved : lag.configurationMoved = true ↔
    ∃ index batch view config other otherBatch otherView otherConfig,
      Saw program addresses answers first last index batch view config ∧
        Saw program addresses answers first last other otherBatch otherView otherConfig ∧
          (config.startEpoch, config.lastEpoch) ≠ (otherConfig.startEpoch, otherConfig.lastEpoch)
  views : lag.views = (planOf first last).length

variable {first last : UInt64}

theorem getElem?_answered {plan : List (List UInt64)} {index : ℕ} {batch : List UInt64}
    (hbatch : plan[index]? = some batch) :
    (answered answers addresses plan 0)[index]? =
      some (batch, answers index (.accountsAt (addresses.ofBatch batch))) := by
  rw [answered, List.getElem?_map, List.getElem?_zipIdx, hbatch, Nat.zero_add]
  rfl

theorem mem_answered_iff {plan : List (List UInt64)}
    {answer : List UInt64 × Except Unreachable OneView} :
    answer ∈ answered answers addresses plan 0 ↔ ∃ index batch, plan[index]? = some batch ∧
      answer = (batch, answers index (.accountsAt (addresses.ofBatch batch))) := by
  rw [answered, List.mem_map]
  constructor
  · rintro ⟨⟨batch, index⟩, hmem, rfl⟩
    exact ⟨index, batch, List.mem_zipIdx_iff_getElem?.mp hmem, rfl⟩
  · rintro ⟨index, batch, hbatch, rfl⟩
    exact ⟨(batch, index), List.mem_zipIdx_iff_getElem?.mpr hbatch, rfl⟩

theorem Saw.mem {index : ℕ} {batch : List UInt64} {view : OneView}
    (hsaw : Saw program addresses answers first last index batch view config) :
    (batch, .ok view) ∈ answered answers addresses (planOf first last) 0 := by
  rw [← hsaw.answer]
  exact mem_answered_iff.mpr ⟨index, batch, hsaw.planned, rfl⟩

/-- The bounds that were reported are those of the views that were seen. -/
theorem mem_bounds_iff {bounds : UInt64 × UInt64} :
    bounds ∈ (answered answers addresses (planOf first last) 0).filterMap (boundsOf program) ↔
      ∃ index batch view config, Saw program addresses answers first last index batch view config ∧
        bounds = (config.startEpoch, config.lastEpoch) := by
  rw [List.mem_filterMap]
  constructor
  · rintro ⟨answer, hanswer, hbounds⟩
    obtain ⟨index, batch, hbatch, rfl⟩ := mem_answered_iff.mp hanswer
    rw [boundsOf] at hbounds
    dsimp only at hbounds
    cases hview : answers index (.accountsAt (addresses.ofBatch batch)) with
    | error reason =>
      rw [hview] at hbounds
      cases hbounds
    | ok view =>
      rw [hview] at hbounds
      dsimp only at hbounds
      cases hconfig : configOf program view with
      | error reason =>
        rw [hconfig] at hbounds
        cases hbounds
      | ok config =>
        rw [hconfig] at hbounds
        exact ⟨index, batch, view, config, ⟨hbatch, hview, configOf_eq_ok_iff.mp hconfig⟩,
          (Option.some.inj hbounds).symm⟩
  · rintro ⟨index, batch, view, config, hsaw, rfl⟩
    exact ⟨_, hsaw.mem, boundsOf_eq hsaw.config⟩

/-- Two of the bounds that were reported differ exactly when two views that were seen do. -/
theorem exists_bounds_ne_iff :
    (∃ left ∈ (answered answers addresses (planOf first last) 0).filterMap (boundsOf program),
      ∃ right ∈ (answered answers addresses (planOf first last) 0).filterMap (boundsOf program),
        left ≠ right) ↔
      ∃ index batch view config other otherBatch otherView otherConfig,
        Saw program addresses answers first last index batch view config ∧
        Saw program addresses answers first last other otherBatch otherView otherConfig ∧
        (config.startEpoch, config.lastEpoch) ≠
          (otherConfig.startEpoch, otherConfig.lastEpoch) := by
  constructor
  · rintro ⟨left, hleft, right, hright, hne⟩
    obtain ⟨index, batch, view, config, hsaw, rfl⟩ := mem_bounds_iff.mp hleft
    obtain ⟨other, otherBatch, otherView, otherConfig, hother, rfl⟩ := mem_bounds_iff.mp hright
    exact ⟨index, batch, view, config, other, otherBatch, otherView, otherConfig, hsaw, hother,
      hne⟩
  · rintro ⟨index, batch, view, config, other, otherBatch, otherView, otherConfig, hsaw, hother,
      hne⟩
    exact ⟨_, mem_bounds_iff.mpr ⟨index, batch, view, config, hsaw, rfl⟩, _,
      mem_bounds_iff.mpr ⟨other, otherBatch, otherView, otherConfig, hother, rfl⟩, hne⟩

theorem planOf_ne_nil (first last : UInt64) : planOf first last ≠ [] := by
  intro hnil
  have hlength := length_planOf first last
  rw [hnil, List.length_nil] at hlength
  omega

/-- No answer to a planned request is one the reading does not go on from. -/
def AllUsable (program : Pubkey) (addresses : Addresses)
    (answers : ℕ → (asked : Question) → asked.Answer) (first last : UInt64) : Prop :=
  ∀ answer ∈ answered answers addresses (planOf first last) 0, ¬ Unusable program answer.1 answer.2

theorem exists_saw (husable : AllUsable program addresses answers first last) {index : ℕ}
    (hindex : index < (planOf first last).length) : ∃ batch view config,
      Saw program addresses answers first last index batch view config := by
  have hbatch := List.getElem?_eq_getElem hindex
  obtain ⟨view, config, hview, _, hconfig, _⟩ :=
    exists_view_of_not_unusable (husable _ (mem_answered_iff.mpr ⟨index, _, hbatch, rfl⟩))
  exact ⟨_, view, config, hbatch, hview, hconfig⟩

/-- The verdict on an epoch of a batch is the place it sits in by the view of the batch. -/
theorem exists_verdict_of_saw (husable : AllUsable program addresses answers first last)
    {index : ℕ} {batch : List UInt64} {view : OneView}
    (hsaw : Saw program addresses answers first last index batch view config) {offset : ℕ}
    {epoch : UInt64} (hepoch : batch[offset]? = some epoch) :
    ∃ account place, view.accounts[offset + 1]? = some account ∧
      placeOf program config view.accounts (epoch, offset) = some place ∧
        (epoch, place) ∈ (answered answers addresses (planOf first last) 0).flatMap
          (verdictsOf program) := by
  obtain ⟨found, other, hfound, hcount, hother, hplaced⟩ :=
    exists_view_of_not_unusable (husable _ hsaw.mem)
  obtain rfl := Except.ok.inj hfound
  obtain rfl := hsaw.config.unique hother
  have hentry : (epoch, offset) ∈ batch.zipIdx := List.mem_zipIdx_iff_getElem?.mpr hepoch
  obtain ⟨place, hplace⟩ := Option.ne_none_iff_exists'.mp (hplaced _ hentry)
  have hoffset := (List.getElem?_eq_some_iff.mp hepoch).1
  have hbound : offset + 1 < view.accounts.length := by
    dsimp only at hcount
    omega
  refine ⟨view.accounts[offset + 1], place, List.getElem?_eq_getElem hbound, hplace,
    List.mem_flatMap.mpr ⟨_, hsaw.mem, ?_⟩⟩
  rw [verdictsOf_eq hsaw.config, verdictsBy, List.mem_filterMap]
  exact ⟨(epoch, offset), hentry, by rw [hplace]; rfl⟩

/-- The lists of an answer hold the epochs of its verdicts in their order. -/
theorem Tallies.sublists {verdicts : List (UInt64 × Place)} {lag : Lag}
    (htallies : Tallies verdicts lag) :
    lag.beforeLogStart.Sublist (verdicts.map Prod.fst) ∧
      lag.notYetPublished.Sublist (verdicts.map Prod.fst) ∧
        (lag.refused.map Prod.fst).Sublist (verdicts.map Prod.fst) := by
  rw [htallies.beforeLogStart, htallies.notYetPublished, htallies.refused]
  exact ⟨List.filter_sublist.map _, List.filter_sublist.map _,
    sublist_map_fst_filterMap verdicts reasonOf⟩

/-- The bounds that are reported are those of the last view. -/
theorem bounds_of_saw_last {reading : Reading} {lag : Lag}
    (hreads : Reads program (answered answers addresses (planOf first last) 0) reading)
    (hlag : reading.lag = some lag) {batch : List UInt64} {view : OneView}
    (hsaw : Saw program addresses answers first last ((planOf first last).length - 1) batch view
      config) :
    lag.startEpoch = config.startEpoch ∧ lag.lastPublished = config.lastEpoch := by
  obtain ⟨before, hbefore⟩ : ∃ before, answered answers addresses (planOf first last) 0 =
      before ++ [(batch, .ok view)] := by
    refine List.getLast?_eq_some_iff.mp ?_
    rw [List.getLast?_eq_getElem?, ← List.length_map Prod.fst, map_fst_answered,
      getElem?_answered hsaw.planned, hsaw.answer]
  have hreported := hreads.reported
  rw [hbefore, List.filterMap_append, List.filterMap_cons, boundsOf_eq hsaw.config, hlag,
    List.filterMap_nil, List.getLast?_concat, Option.map_some, Option.some.injEq,
    Prod.mk.injEq] at hreported
  exact hreported

/-- What a reading of every batch comes to classifies the range. -/
theorem classifies_of_foldlM_readAnswer {reading : Reading} {lag : Lag}
    (hread : (answered answers addresses (planOf first last) 0).foldlM
      (readAnswer program addresses) .start = .ok reading) (hlag : reading.lag = some lag) :
    Classifies program addresses answers first last
      { lag with views := reading.views, configurationMoved := reading.moved } := by
  obtain ⟨hreads, husable⟩ := reads_of_foldlM_readAnswer hread
  have hepochs := map_fst_verdictsOf husable
  rw [map_fst_answered, flatten_planOf] at hepochs
  have hascending := pairwise_epochsBetween first last
  rw [← hepochs] at hascending
  have hnodup := hascending.imp fun hless ↦ UInt64.ne_of_lt hless
  have htallies : Tallies _
      { lag with views := reading.views, configurationMoved := reading.moved } :=
    (hreads.tallies lag hlag).of_lists rfl rfl rfl
  obtain ⟨hbefore, hnotYet, hrefused⟩ := htallies.sublists
  refine
    { seen := fun index hindex ↦ exists_saw husable hindex
      place := ?_
      within := ?_
      ascending := ⟨hascending.sublist hbefore, hascending.sublist hnotYet,
        hascending.sublist hrefused⟩
      bounds := ?_
      moved := ?_
      views := ?_ }
  · intro index batch view config hsaw offset epoch hepoch
    obtain ⟨account, place, haccount, hplace, hverdict⟩ :=
      exists_verdict_of_saw husable hsaw hepoch
    have hlisted : ∀ other, Listed _ epoch other ↔ other = place :=
      fun other ↦ htallies.listed_iff hnodup hverdict
    refine ⟨account, haccount, ⟨place, (hlisted place).mpr rfl, fun other ↦ (hlisted other).mp⟩, ?_⟩
    exact fun other ↦ (hlisted other).trans (sits_iff haccount hplace).symm
  · intro epoch hepoch
    rw [← mem_epochsBetween, ← hepochs]
    rcases hepoch with hepoch | hepoch | hepoch
    · exact hbefore.subset hepoch
    · exact hnotYet.subset hepoch
    · exact hrefused.subset hepoch
  · intro batch view config hsaw
    have hbounds := bounds_of_saw_last hreads hlag hsaw
    exact hbounds
  · exact hreads.moved.trans exists_bounds_ne_iff
  · rw [hreads.views, ← List.length_map Prod.fst, map_fst_answered]

/-! ### The reading as a whole -/

theorem exists_lag_of_foldlM_readAnswer {reading : Reading}
    (hread : (answered answers addresses (planOf first last) 0).foldlM
      (readAnswer program addresses) .start = .ok reading) : ∃ lag, reading.lag = some lag := by
  refine Option.ne_none_iff_exists'.mp fun hnone ↦ planOf_ne_nil first last ?_
  have hpast := (reads_of_foldlM_readAnswer hread).1.unread hnone
  rw [← @map_fst_answered addresses answers (planOf first last) 0, hpast,
    List.map_nil]

/-- What is answered when a reading has ended. -/
def concluded : Except Unreachable Reading → Except Unreachable Lag
  | .error reason => .error reason
  | .ok reading =>
    match reading.lag with
    | none => .error ⟨"no view was read, so there is nothing to report"⟩
    | some lag => .ok { lag with views := reading.views, configurationMoved := reading.moved }

theorem concluded_of_some {reading : Reading} {lag : Lag} (hlag : reading.lag = some lag) :
    concluded (.ok reading) =
      .ok { lag with views := reading.views, configurationMoved := reading.moved } := by
  rw [concluded, hlag]

theorem concluded_eq_error_iff :
    (∃ reason, concluded ((answered answers addresses (planOf first last) 0).foldlM
      (readAnswer program addresses) .start) = .error reason) ↔
      ∃ reason, (answered answers addresses (planOf first last) 0).foldlM
        (readAnswer program addresses) .start = .error reason := by
  cases hread : (answered answers addresses (planOf first last) 0).foldlM
      (readAnswer program addresses) .start with
  | error reason => simp [concluded]
  | ok reading =>
    obtain ⟨lag, hlag⟩ := exists_lag_of_foldlM_readAnswer hread
    simp [concluded_of_some hlag]

theorem conduct_sequenceLag (first last : UInt64) :
    conduct answers 0 (sequenceLag program addresses first last) =
      ((conduct answers 0 (readBatches program addresses (planOf first last) .start)).1,
        concluded ((answered answers addresses (planOf first last) 0).foldlM
          (readAnswer program addresses) .start)) := by
  rw [← conduct_readBatches, sequenceLag]
  refine conduct_bind_done 0 _ fun outcome ↦ ?_
  rcases outcome with reason | reading
  · rfl
  · unfold concluded
    dsimp only
    cases reading.lag <;> rfl

/-- For every source of account views, every program and every range, the epochs are asked about in
requests of up to 99 that each hold the configuration. The reading fails when and only when an
answer is unusable; otherwise every request was made and every epoch is judged once, by its own
view. -/
theorem sequenceLag_classifies_by_own_view (program : Pubkey) (addresses : Addresses)
    (answers : ℕ → (asked : Question) → asked.Answer) (first last : UInt64) :
    ((planOf first last).length = max 1 ((last.toNat + 1 - first.toNat + 98) / 99) ∧
      (planOf first last).flatten = epochsBetween first last ∧
      ∀ batch ∈ planOf first last, batch.length ≤ 99) ∧
    (conduct answers 0 (sequenceLag program addresses first last)).1 <+:
      requestsOf addresses (planOf first last) ∧
    ((∃ reason, (conduct answers 0 (sequenceLag program addresses first last)).2 = .error reason) ↔
      ∃ index batch, (planOf first last)[index]? = some batch ∧
        Unusable program batch (answers index (.accountsAt (addresses.ofBatch batch)))) ∧
    ∀ lag, (conduct answers 0 (sequenceLag program addresses first last)).2 = .ok lag →
      (conduct answers 0 (sequenceLag program addresses first last)).1 =
        requestsOf addresses (planOf first last) ∧
      Classifies program addresses answers first last lag := by
  have hplan := length_planOf first last
  refine ⟨⟨hplan, flatten_planOf first last, fun batch hbatch ↦ length_le_of_mem_planOf hbatch⟩, ?_⟩
  rw [conduct_sequenceLag]
  refine ⟨requests_readBatches_front _ _ _, ?_, ?_⟩
  · rw [concluded_eq_error_iff, foldlM_eq_error_iff (readAnswer_eq_error_iff addresses)]
    constructor
    · rintro ⟨answer, hanswer, hunusable⟩
      obtain ⟨index, batch, hbatch, rfl⟩ := mem_answered_iff.mp hanswer
      exact ⟨index, batch, hbatch, hunusable⟩
    · rintro ⟨index, batch, hbatch, hunusable⟩
      exact ⟨_, mem_answered_iff.mpr ⟨index, batch, hbatch, rfl⟩, hunusable⟩
  · intro lag hlag
    cases hread : (answered answers addresses (planOf first last) 0).foldlM
        (readAnswer program addresses) .start with
    | error reason =>
      rw [hread] at hlag
      cases hlag
    | ok reading =>
      obtain ⟨found, hfound⟩ := exists_lag_of_foldlM_readAnswer hread
      rw [hread, concluded_of_some hfound, Except.ok.injEq] at hlag
      subst hlag
      have houtput := (conduct_readBatches (planOf first last) 0 .start).trans hread
      exact ⟨requests_readBatches_of_ok houtput, classifies_of_foldlM_readAnswer hread hfound⟩

end AnchoredLog.Client.SequenceLag
