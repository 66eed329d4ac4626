import AnchoredLog.Core.RecordChain
import AnchoredLog.Library.HashCollision

/-!
# The record chain as a function of its accepted history

Two results about whole runs of the supersession state machine.

`chain_eq_ofHistory` is about one run: records are offered in any order, each accepted or refused,
and the run is cut anywhere by a restart through `resume` and `snapshot`. The state reached is
`ofHistory` of the accepted records alone, the flags returned for a record are the ones its earlier
accepted records determine (`HistoryFlags`), a refusal leaves the chain as it was, and a restart
gives the same chain back. The invariant carried along the run is `FollowsHistory`.

`head_binds_history` is about two runs: two sequences of accepted records, of any lengths and on
any two assets, that reach one head are the same sequence on the same asset in every field the leaf
commits to, or two different preimages with one hash occur among those the two runs hashed. It is
`Library.HashCollision.chainHead_binds` at the head step, followed by one comparison of leaf
preimages for each position.
-/

set_option autoImplicit false
set_option relaxedAutoImplicit false

namespace AnchoredLog.Core.RecordHistory

open Library.ByteCodec Library.Fallible Library.HashCollision Preimages RecordChain

variable (hasher : Hasher) (verifier : Verifier)

/-! ### The state an accepted history determines -/

/-- Whether a record is a resource record that a later reserve may rest on. -/
def IsResource (r : RecordLeafInput) : Prop :=
  r.category = 1 ∨ r.category = 2

instance (r : RecordLeafInput) : Decidable (IsResource r) :=
  inferInstanceAs (Decidable (_ ∨ _))

/-- Whether a record is a reserve record. -/
def IsReserve (r : RecordLeafInput) : Prop :=
  r.category = 3 ∨ r.category = 4

/-- The head after a list of records: the head step folded over their leaves from genesis. -/
def headOf (assetCommitment : Digest) (records : List RecordLeafInput) : Digest :=
  (records.map (leafDigest hasher assetCommitment)).foldl (headStep hasher)
    (hasher.hash (genesisMessage assetCommitment))

/-- The chain state computed from a list of accepted records alone. -/
def ofHistory (assetCommitment : Digest) (records : List RecordLeafInput) : AssetChain where
  assetCommitment := assetCommitment
  schemaVersion := schemaVersion
  schemaVersion_eq := rfl
  head := headOf hasher assetCommitment records
  seq := UInt64.ofNat records.length
  lastEffectiveAt := (records.getLast?.map RecordLeafInput.effectiveAt).getD Int64.minValue
  sawResource := records.any fun r ↦ IsResource r
  previousCategory := records.getLast?.map RecordLeafInput.category

/-- What the flags of a record say about the records accepted before it: bit 0 that it is a
reserve with no earlier resource, bit 1 that its category is below its immediate predecessor's,
and no other bit. -/
structure HistoryFlags (earlier : List RecordLeafInput) (r : RecordLeafInput) (flags : UInt16) :
    Prop where
  reserve : flags.toNat.testBit 0 = true ↔ IsReserve r ∧ ∀ e ∈ earlier, ¬ IsResource e
  downgrade : flags.toNat.testBit 1 = true ↔
    ∃ previous, earlier.getLast? = some previous ∧ r.category < previous.category
  reserved : ∀ bit, 2 ≤ bit → flags.toNat.testBit bit = false

/-! ### Runs with refusals and restarts -/

/-- One event of a run. -/
inductive ChainEvent
  | offer (r : RecordLeafInput)
  | restart

/-- A run so far: the chain, and the accepted records with what each returned. -/
structure ChainRun where
  chain : AssetChain
  accepted : List (RecordLeafInput × Applied)

/-- The records accepted so far, oldest first. -/
def ChainRun.records (run : ChainRun) : List RecordLeafInput :=
  run.accepted.map Prod.fst

/-- One event: a record is offered to `apply`, or the chain is rebuilt from its snapshot. The
event itself fails only when `resume` refuses. -/
def advance (assetCommitment : Digest) (run : ChainRun) : ChainEvent → Result ChainRun
  | .offer r =>
    match perform (apply hasher verifier r) run.chain with
    | (.ok applied, chain) => .ok ⟨chain, run.accepted ++ [(r, applied)]⟩
    | (.error _, chain) => .ok ⟨chain, run.accepted⟩
  | .restart => do
    let chain ← resume assetCommitment schemaVersion run.chain.snapshot
    return ⟨chain, run.accepted⟩

/-- A whole run from a fresh chain. -/
def runEvents (assetCommitment : Digest) (events : List ChainEvent) : Result ChainRun := do
  let chain ← start hasher assetCommitment schemaVersion
  events.foldlM (advance hasher verifier assetCommitment) ⟨chain, []⟩

/-! ### The invariant of a run -/

/-- The chain of a run is the one its accepted records determine, and every accepted record
returned its own leaf, the head after it and its history-level flags. -/
structure FollowsHistory (assetCommitment : Digest) (run : ChainRun) : Prop where
  chain : run.chain = ofHistory hasher assetCommitment run.records
  seq : run.chain.seq.toNat = run.accepted.length
  category : ∀ r ∈ run.records, r.category ≤ maxCategory
  latest : ∀ r ∈ run.records, r.effectiveAt ≤ run.chain.lastEffectiveAt
  returned : ∀ earlier r applied later, run.accepted = earlier ++ (r, applied) :: later →
    applied.leaf = leafDigest hasher assetCommitment r ∧
      applied.head = headOf hasher assetCommitment (earlier.map Prod.fst ++ [r]) ∧
      HistoryFlags (earlier.map Prod.fst) r applied.flags

theorem headOf_concat (assetCommitment : Digest) (records : List RecordLeafInput)
    (r : RecordLeafInput) :
    headOf hasher assetCommitment (records ++ [r]) =
      headStep hasher (headOf hasher assetCommitment records)
        (leafDigest hasher assetCommitment r) := by
  simp [headOf]

/-- Committing an acceptable record to the state of a history gives the state of the longer
history. -/
theorem commit_ofHistory {assetCommitment : Digest} {records : List RecordLeafInput}
    {r : RecordLeafInput} (hseq : r.seq.toNat = records.length + 1) :
    commit hasher (ofHistory hasher assetCommitment records) r =
      ofHistory hasher assetCommitment (records ++ [r]) := by
  have hcount : r.seq = UInt64.ofNat (records ++ [r]).length := by
    apply UInt64.toNat_inj.mp
    have hbound := r.seq.toNat_lt
    rw [UInt64.toNat_ofNat', List.length_append, List.length_singleton, ← hseq,
      Nat.mod_eq_of_lt hbound]
  apply AssetChain.ext
  · rfl
  · rfl
  · exact (headOf_concat hasher assetCommitment records r).symm
  · exact hcount
  · simp [commit, ofHistory]
  · have hresource : (r.category == 1 || r.category == 2) = decide (IsResource r) := by
      rw [Bool.eq_iff_iff, decide_eq_true_iff]
      simp [IsResource]
    simp [commit, ofHistory, hresource]
  · simp [commit, ofHistory]

/-- Two conditions set the two flag bits and no other. -/
theorem testBit_flags (reserve downgrade : Prop) [Decidable reserve] [Decidable downgrade]
    {flags : UInt16}
    (hflags : flags = if downgrade then
        (if reserve then flagReserveWithoutPriorResource else 0) ||| flagCategoryDowngrade
      else
        if reserve then flagReserveWithoutPriorResource else 0) :
    (flags.toNat.testBit 0 = true ↔ reserve) ∧ (flags.toNat.testBit 1 = true ↔ downgrade) ∧
      ∀ bit, 2 ≤ bit → flags.toNat.testBit bit = false := by
  have hvalues : flags.toNat < 2 ^ 2 ∧ (flags.toNat.testBit 0 = true ↔ reserve) ∧
      (flags.toNat.testBit 1 = true ↔ downgrade) := by
    subst hflags
    by_cases hreserve : reserve <;> by_cases hdowngrade : downgrade <;>
      simp only [hreserve, hdowngrade, ↓reduceIte] <;> decide
  refine ⟨hvalues.2.1, hvalues.2.2, fun bit hbit ↦ ?_⟩
  exact Nat.testBit_lt_two_pow
    (lt_of_lt_of_le hvalues.1 (Nat.pow_le_pow_right (by norm_num) hbit))

/-- The flags the summary gives are the flags the history determines. -/
theorem historyFlags_flagsFor (assetCommitment : Digest) (records : List RecordLeafInput)
    (r : RecordLeafInput) :
    HistoryFlags records r ((ofHistory hasher assetCommitment records).flagsFor r) := by
  have hresource : (ofHistory hasher assetCommitment records).sawResource = false ↔
      ∀ e ∈ records, ¬ IsResource e := by
    simp [ofHistory]
  have hprevious : (ofHistory hasher assetCommitment records).previousCategory.any
      (fun previous ↦ r.category < previous) = true ↔
      ∃ previous, records.getLast? = some previous ∧ r.category < previous.category := by
    cases hlast : records.getLast? <;> simp [ofHistory, hlast]
  obtain ⟨hreserve, hdowngrade, hreserved⟩ := testBit_flags _ _ (rfl :
    (ofHistory hasher assetCommitment records).flagsFor r = _)
  exact ⟨hreserve.trans (and_congr Iff.rfl hresource), hdowngrade.trans hprevious, hreserved⟩

theorem getLast?_effectiveAt_le {records : List RecordLeafInput} {bound : Int64}
    {r : RecordLeafInput} (hbound : ∀ e ∈ records, e.effectiveAt ≤ bound)
    (hle : bound ≤ r.effectiveAt) : ∀ e ∈ records ++ [r], e.effectiveAt ≤ r.effectiveAt := by
  intro e he
  rcases List.mem_append.mp he with hearlier | hlast
  · exact Int64.le_trans (hbound e hearlier) hle
  · rw [List.mem_singleton.mp hlast]
    exact Int64.le_refl _

/-- An accepted record extends the history by itself. -/
theorem followsHistory_accept {assetCommitment : Digest} {run : ChainRun} {r : RecordLeafInput}
    (hfollows : FollowsHistory hasher assetCommitment run)
    (haccept : Acceptable verifier run.chain r) :
    FollowsHistory hasher assetCommitment
      ⟨commit hasher run.chain r, run.accepted ++ [(r, appliedOf hasher run.chain r)]⟩ := by
  have hcommitment : run.chain.assetCommitment = assetCommitment := by
    rw [hfollows.chain]
    rfl
  have hseq : r.seq.toNat = run.records.length + 1 := by
    rw [haccept.seq, hfollows.seq, ChainRun.records, List.length_map]
  have hrecords : (run.accepted ++ [(r, appliedOf hasher run.chain r)]).map Prod.fst =
      run.records ++ [r] := by
    simp [ChainRun.records]
  have happlied : (appliedOf hasher run.chain r).leaf = leafDigest hasher assetCommitment r ∧
      (appliedOf hasher run.chain r).head =
        headOf hasher assetCommitment (run.records ++ [r]) ∧
      HistoryFlags run.records r (appliedOf hasher run.chain r).flags := by
    refine ⟨by rw [appliedOf, hcommitment], ?_, ?_⟩
    · rw [headOf_concat, appliedOf, hcommitment]
      show headStep hasher run.chain.head _ = _
      rw [hfollows.chain]
      rfl
    · show HistoryFlags run.records r (run.chain.flagsFor r)
      rw [hfollows.chain]
      exact historyFlags_flagsFor hasher assetCommitment run.records r
  constructor
  · show commit hasher run.chain r = ofHistory hasher assetCommitment _
    rw [ChainRun.records, hrecords, hfollows.chain]
    exact commit_ofHistory hasher hseq
  · simpa [commit, ChainRun.records] using hseq
  · intro e he
    rw [ChainRun.records, hrecords] at he
    rcases List.mem_append.mp he with hearlier | hlast
    · exact hfollows.category e hearlier
    · rw [List.mem_singleton.mp hlast]
      exact haccept.category
  · intro e he
    rw [ChainRun.records, hrecords] at he
    exact getLast?_effectiveAt_le hfollows.latest haccept.effective e he
  · intro earlier e applied later hsplit
    rcases List.eq_nil_or_concat later with rfl | ⟨rest, last, rfl⟩
    · obtain ⟨rfl, hlast⟩ := List.append_inj' hsplit rfl
      obtain ⟨rfl, rfl⟩ : r = e ∧ appliedOf hasher run.chain r = applied := by
        simpa using hlast
      exact happlied
    · have hsplit' : run.accepted ++ [(r, appliedOf hasher run.chain r)] =
          (earlier ++ (e, applied) :: rest) ++ [last] := by
        simpa using hsplit
      exact hfollows.returned earlier e applied rest (List.append_inj' hsplit' rfl).1

theorem resume_of_followsHistory {assetCommitment : Digest} {run : ChainRun}
    (hfollows : FollowsHistory hasher assetCommitment run) :
    resume assetCommitment schemaVersion run.chain.snapshot = .ok run.chain := by
  have hcommitment : run.chain.assetCommitment = assetCommitment := by
    rw [hfollows.chain]
    rfl
  rw [← hcommitment]
  refine resume_snapshot fun category hcategory ↦ ?_
  rw [hfollows.chain] at hcategory
  obtain ⟨r, hlast, rfl⟩ := Option.map_eq_some_iff.mp hcategory
  exact hfollows.category r (List.mem_of_getLast? hlast)

/-- Every event keeps the invariant, and no restart is refused. -/
theorem advance_followsHistory {assetCommitment : Digest} (run : ChainRun) (event : ChainEvent)
    (hfollows : FollowsHistory hasher assetCommitment run) :
    ∃ reached, advance hasher verifier assetCommitment run event = .ok reached ∧
      FollowsHistory hasher assetCommitment reached := by
  cases event with
  | offer r =>
    rw [advance]
    rcases hperform : perform (apply hasher verifier r) run.chain with ⟨outcome, next⟩
    cases outcome with
    | error error =>
      obtain rfl := perform_apply_of_error hasher verifier hperform
      exact ⟨run, rfl, hfollows⟩
    | ok applied =>
      obtain ⟨haccept, rfl, rfl⟩ :=
        (perform_apply_eq_ok_iff hasher verifier _ _ _ _).mp hperform
      exact ⟨_, rfl, followsHistory_accept hasher verifier hfollows haccept⟩
  | restart =>
    refine ⟨run, ?_, hfollows⟩
    rw [advance, resume_of_followsHistory hasher hfollows]
    rfl

theorem runEvents_followsHistory (assetCommitment : Digest) (events : List ChainEvent) :
    ∃ run, runEvents hasher verifier assetCommitment events = .ok run ∧
      FollowsHistory hasher assetCommitment run := by
  rw [runEvents, start_eq, bind_ok]
  refine exists_foldlM_eq_ok (advance_followsHistory hasher verifier) events ?_
  exact ⟨rfl, rfl, by simp [ChainRun.records], by simp [ChainRun.records], by simp⟩

/-- The state of a chain is a function of its accepted history. For every asset and every run of
offered records and restarts: the run goes through, no restart being refused; the chain is the one
computed from the accepted records alone, its sequence number their count and its last effective
date the largest of theirs; every accepted record returned the flags its earlier accepted records
determine; whatever is offered next, a refusal leaves the chain identical; and a restart gives
back the same chain, so it changes no later outcome. -/
theorem chain_eq_ofHistory (assetCommitment : Digest) (events : List ChainEvent) :
    ∃ run, runEvents hasher verifier assetCommitment events = .ok run ∧
      run.chain = ofHistory hasher assetCommitment run.records ∧
      run.chain.seq.toNat = run.records.length ∧
      (∀ r ∈ run.records, r.effectiveAt ≤ run.chain.lastEffectiveAt) ∧
      (∀ earlier r applied later, run.accepted = earlier ++ (r, applied) :: later →
        applied.leaf = leafDigest hasher assetCommitment r ∧
          applied.head = headOf hasher assetCommitment (earlier.map Prod.fst ++ [r]) ∧
          HistoryFlags (earlier.map Prod.fst) r applied.flags) ∧
      (∀ r error next, perform (apply hasher verifier r) run.chain = (.error error, next) →
        next = run.chain) ∧
      resume assetCommitment schemaVersion run.chain.snapshot = .ok run.chain := by
  obtain ⟨run, hrun, hfollows⟩ := runEvents_followsHistory hasher verifier assetCommitment events
  refine ⟨run, hrun, hfollows.chain, ?_, hfollows.latest, hfollows.returned, ?_, ?_⟩
  · rw [hfollows.seq, ChainRun.records, List.length_map]
  · exact fun r error next hrefused ↦ perform_apply_of_error hasher verifier hrefused
  · exact resume_of_followsHistory hasher hfollows

/-! ### A head binds the whole history -/

/-- The chain after one record that is accepted. -/
def acceptOne (chain : AssetChain) (r : RecordLeafInput) : Result AssetChain :=
  match perform (apply hasher verifier r) chain with
  | (.ok _, next) => .ok next
  | (.error error, _) => .error error

/-- The chain after a sequence of records that are all accepted. -/
def acceptAll (assetCommitment : Digest) (records : List RecordLeafInput) : Result AssetChain := do
  let chain ← start hasher assetCommitment schemaVersion
  records.foldlM (acceptOne hasher verifier) chain

/-- The preimages hashed while applying records from a head: each record's leaf preimage, then the
step over it. -/
def recordMessages (assetCommitment : Digest) :
    Digest → List RecordLeafInput → List (List UInt8)
  | _, [] => []
  | head, r :: records =>
    let leaf := leafDigest hasher assetCommitment r
    leafMessage assetCommitment r :: stepMessage head leaf ::
      recordMessages assetCommitment (headStep hasher head leaf) records

/-- The preimages hashed by a whole run of accepted records, genesis first. -/
def hashedBy (assetCommitment : Digest) (records : List RecordLeafInput) : List (List UInt8) :=
  genesisMessage assetCommitment ::
    recordMessages hasher assetCommitment (hasher.hash (genesisMessage assetCommitment)) records

/-- Two records agree in every field the leaf commits to. -/
structure SameCommitted (r r' : RecordLeafInput) : Prop where
  seq : r.seq = r'.seq
  payloadDigest : r.payloadDigest = r'.payloadDigest
  assessmentDigest : r.assessmentDigest = r'.assessmentDigest
  qpKey : r.qpKey = r'.qpKey
  category : r.category = r'.category
  effectiveAt : r.effectiveAt = r'.effectiveAt
  changeIdentifiedAt : r.changeIdentifiedAt = r'.changeIdentifiedAt

theorem acceptOne_eq_ok_iff {chain next : AssetChain} {r : RecordLeafInput} :
    acceptOne hasher verifier chain r = .ok next ↔
      Acceptable verifier chain r ∧ next = commit hasher chain r := by
  rw [acceptOne]
  rcases hperform : perform (apply hasher verifier r) chain with ⟨outcome, reached⟩
  cases outcome with
  | error error =>
    simp only [reduceCtorEq, false_iff, not_and]
    intro haccept
    rw [(perform_apply_eq_ok_iff hasher verifier chain _ r _).mpr ⟨haccept, rfl, rfl⟩] at hperform
    simp at hperform
  | ok applied =>
    obtain ⟨haccept, -, rfl⟩ := (perform_apply_eq_ok_iff hasher verifier _ _ _ _).mp hperform
    simpa [haccept] using eq_comm

/-- The head of a run of accepted records is the head step folded over their leaves. -/
theorem head_foldlM {records : List RecordLeafInput} {first last : AssetChain}
    (haccepted : records.foldlM (acceptOne hasher verifier) first = .ok last) :
    last.head = (records.map (leafDigest hasher first.assetCommitment)).foldl (headStep hasher)
      first.head := by
  induction records generalizing first with
  | nil =>
    obtain rfl : first = last := by simpa using haccepted
    rfl
  | cons r records ih =>
    rw [List.foldlM_cons] at haccepted
    obtain ⟨next, hnext, hrest⟩ := bind_eq_ok_iff.mp haccepted
    obtain ⟨-, rfl⟩ := (acceptOne_eq_ok_iff hasher verifier).mp hnext
    rw [ih hrest]
    rfl

theorem head_acceptAll {assetCommitment : Digest} {records : List RecordLeafInput}
    {chain : AssetChain}
    (haccepted : acceptAll hasher verifier assetCommitment records = .ok chain) :
    chain.head = headOf hasher assetCommitment records := by
  rw [acceptAll, start_eq, bind_ok] at haccepted
  exact head_foldlM hasher verifier haccepted

theorem acceptAll_concat_iff {assetCommitment : Digest} {records : List RecordLeafInput}
    {r : RecordLeafInput} {next : AssetChain} :
    acceptAll hasher verifier assetCommitment (records ++ [r]) = .ok next ↔
      ∃ before, acceptAll hasher verifier assetCommitment records = .ok before ∧
        Acceptable verifier before r ∧ next = commit hasher before r := by
  simp only [acceptAll, bind_eq_ok_iff, List.foldlM_append, List.foldlM_cons, List.foldlM_nil,
    acceptOne_eq_ok_iff, pure_eq_ok, Except.ok.injEq]
  constructor
  · rintro ⟨first, hstart, before, hbefore, reached, ⟨haccept, rfl⟩, rfl⟩
    exact ⟨before, ⟨first, hstart, hbefore⟩, haccept, rfl⟩
  · rintro ⟨before, ⟨first, hstart, hbefore⟩, haccept, rfl⟩
    exact ⟨first, hstart, before, hbefore, _, ⟨haccept, rfl⟩, rfl⟩

/-- A sequence of accepted records is accepted up to any of its records. -/
theorem exists_acceptAll_of_append {assetCommitment : Digest}
    {front back : List RecordLeafInput} {chain : AssetChain}
    (haccepted : acceptAll hasher verifier assetCommitment (front ++ back) = .ok chain) :
    ∃ reached, acceptAll hasher verifier assetCommitment front = .ok reached := by
  rw [acceptAll, start_eq, bind_ok, List.foldlM_append] at haccepted
  obtain ⟨reached, hreached, -⟩ := bind_eq_ok_iff.mp haccepted
  refine ⟨reached, ?_⟩
  rw [acceptAll, start_eq, bind_ok]
  exact hreached

/-- The chain a sequence of accepted records reaches is the one the records determine. -/
theorem acceptAll_eq_ofHistory {assetCommitment : Digest} {records : List RecordLeafInput}
    {chain : AssetChain}
    (haccepted : acceptAll hasher verifier assetCommitment records = .ok chain) :
    chain = ofHistory hasher assetCommitment records ∧ chain.seq.toNat = records.length := by
  induction records using List.reverseRecOn generalizing chain with
  | nil =>
    rw [acceptAll, start_eq, bind_ok, List.foldlM_nil, pure_eq_ok, Except.ok.injEq] at haccepted
    subst haccepted
    exact ⟨rfl, rfl⟩
  | append_singleton records r ih =>
    obtain ⟨before, hbefore, haccept, rfl⟩ :=
      (acceptAll_concat_iff hasher verifier).mp haccepted
    obtain ⟨rfl, hlength⟩ := ih hbefore
    have hseq : r.seq.toNat = records.length + 1 := by
      rw [haccept.seq, hlength]
    refine ⟨commit_ofHistory hasher hseq, ?_⟩
    rw [List.length_append, List.length_singleton, ← hseq]
    rfl

/-- The head of a history is the head of a hash chain over its leaves. -/
theorem headOf_eq_chainHead (assetCommitment : Digest) (records : List RecordLeafInput) :
    headOf hasher assetCommitment records =
      chainHead hasher.hash stepMessage (genesisMessage assetCommitment)
        (records.map (leafDigest hasher assetCommitment)) :=
  rfl

theorem chainSteps_subset (assetCommitment head : Digest) (records : List RecordLeafInput) :
    chainSteps hasher.hash stepMessage head (records.map (leafDigest hasher assetCommitment)) ⊆
      recordMessages hasher assetCommitment head records := by
  induction records generalizing head with
  | nil => exact List.nil_subset _
  | cons r records ih =>
    refine List.cons_subset.mpr ⟨?_, ?_⟩
    · exact List.mem_cons_of_mem _ List.mem_cons_self
    · exact List.Subset.trans (ih _)
        (List.subset_cons_of_subset _ (List.subset_cons_of_subset _ (List.Subset.refl _)))

theorem chainTranscript_subset (assetCommitment : Digest) (records : List RecordLeafInput) :
    chainTranscript hasher.hash stepMessage (genesisMessage assetCommitment)
        (records.map (leafDigest hasher assetCommitment)) ⊆
      hashedBy hasher assetCommitment records :=
  List.cons_subset_cons _ (chainSteps_subset hasher assetCommitment _ records)

theorem leafMessage_mem_recordMessages {assetCommitment head : Digest}
    {records : List RecordLeafInput} {r : RecordLeafInput} (hr : r ∈ records) :
    leafMessage assetCommitment r ∈ recordMessages hasher assetCommitment head records := by
  induction records generalizing head with
  | nil => simp at hr
  | cons first records ih =>
    rcases List.mem_cons.mp hr with rfl | hrest
    · exact List.mem_cons_self
    · exact List.mem_cons_of_mem _ (List.mem_cons_of_mem _ (ih hrest))

theorem leafMessage_mem_hashedBy {assetCommitment : Digest} {records : List RecordLeafInput}
    {r : RecordLeafInput} (hr : r ∈ records) :
    leafMessage assetCommitment r ∈ hashedBy hasher assetCommitment records :=
  List.mem_cons_of_mem _ (leafMessage_mem_recordMessages hasher hr)

theorem sameCommitted_of_leafMessage {assetCommitment assetCommitment' : Digest}
    {r r' : RecordLeafInput}
    (heq : leafMessage assetCommitment r = leafMessage assetCommitment' r') :
    SameCommitted r r' := by
  have hpreimage := leaf_fields_injective heq
  simp only [leafPreimage, LeafPreimage.mk.injEq] at hpreimage
  obtain ⟨-, hseq, hpayload, hassessment, hkey, hcategory, heffective, hidentified⟩ := hpreimage
  exact ⟨hseq, hpayload, hassessment, hkey, hcategory, heffective, hidentified⟩

/-- Equal leaves at every position come from equal records, or two leaf preimages collide. -/
theorem forall₂_sameCommitted {assetCommitment assetCommitment' : Digest}
    {transcript : List (List UInt8)} {records records' : List RecordLeafInput}
    (hrecords : ∀ r ∈ records, leafMessage assetCommitment r ∈ transcript)
    (hrecords' : ∀ r ∈ records', leafMessage assetCommitment' r ∈ transcript)
    (hleaves : records.map (leafDigest hasher assetCommitment) =
      records'.map (leafDigest hasher assetCommitment')) :
    List.Forall₂ SameCommitted records records' ∨ Collides hasher.hash transcript := by
  induction records generalizing records' with
  | nil =>
    obtain rfl : records' = [] := by simpa [eq_comm] using hleaves
    exact Or.inl List.Forall₂.nil
  | cons r records ih =>
    match records' with
    | [] => simp at hleaves
    | r' :: records' =>
      simp only [List.map_cons, List.cons.injEq] at hleaves
      rcases eq_or_collides (hrecords r List.mem_cons_self) (hrecords' r' List.mem_cons_self)
        hleaves.1 with hsame | hcollides
      · rcases ih (fun e he ↦ hrecords e (List.mem_cons_of_mem _ he))
          (fun e he ↦ hrecords' e (List.mem_cons_of_mem _ he)) hleaves.2 with hrest | hcollides
        · exact Or.inl (List.Forall₂.cons (sameCommitted_of_leafMessage hsame) hrest)
        · exact Or.inr hcollides
      · exact Or.inr hcollides

/-- A head binds the whole history. For any two assets and any two sequences of records accepted
from genesis, of any lengths, that reach the same head: the assets are the same, the sequences have
the same length, and they agree position by position in every field the leaf commits to, or two
distinct preimages with the same hash occur among those hashed by the two runs. -/
theorem head_binds_history {assetCommitment assetCommitment' : Digest}
    {records records' : List RecordLeafInput} {chain chain' : AssetChain}
    (haccepted : acceptAll hasher verifier assetCommitment records = .ok chain)
    (haccepted' : acceptAll hasher verifier assetCommitment' records' = .ok chain')
    (hheads : chain.head = chain'.head) :
    (assetCommitment = assetCommitment' ∧ records.length = records'.length ∧
        List.Forall₂ SameCommitted records records') ∨
      Collides hasher.hash
        (hashedBy hasher assetCommitment records ++ hashedBy hasher assetCommitment' records') := by
  rw [head_acceptAll hasher verifier haccepted, head_acceptAll hasher verifier haccepted',
    headOf_eq_chainHead, headOf_eq_chainHead] at hheads
  rcases chainHead_binds (fun _ _ _ _ heq ↦ stepHead_fields_injective heq)
    (fun _ _ ↦ stepHead_ne_genesisHead _ _) (fun _ _ ↦ stepHead_ne_genesisHead _ _) _ _ hheads with
    ⟨horigin, hleaves⟩ | hcollides
  · rcases forall₂_sameCommitted hasher
      (fun r hr ↦ List.mem_append_left _ (leafMessage_mem_hashedBy hasher hr))
      (fun r hr ↦ List.mem_append_right _ (leafMessage_mem_hashedBy hasher hr)) hleaves with
      hsame | hcollides
    · exact Or.inl ⟨genesisHead_fields_injective horigin, hsame.length_eq, hsame⟩
    · exact Or.inr hcollides
  · exact Or.inr (hcollides.mono (List.append_subset.mpr
      ⟨List.subset_append_of_subset_left _ (chainTranscript_subset hasher _ _),
        List.subset_append_of_subset_right _ (chainTranscript_subset hasher _ _)⟩))

/-- A first record accepted on the chain of the all-zero asset. -/
def firstRecord : RecordLeafInput where
  prevHead := residueHasher.hash (genesisMessage (Octets.zeros 32))
  seq := 1
  payloadDigest := leOctets 32 7
  assessmentDigest := Octets.zeros 32
  qpKey := leOctets 32 11
  expectedQpKey := none
  signature := some (Octets.zeros 64)
  category := 3
  effectiveAt := 1700000000
  changeIdentifiedAt := 0
  payloadUri := ⟨ascii ['a', 'r', ':', '/', '/', 'x'], by decide⟩
  extCommitment := none

theorem exists_acceptAll_firstRecord :
    ∃ chain, acceptAll residueHasher permissiveVerifier (Octets.zeros 32) [firstRecord] =
      .ok chain := by
  rw [acceptAll, start_eq, bind_ok, List.foldlM_cons,
    (acceptOne_eq_ok_iff residueHasher permissiveVerifier).mpr ⟨⟨rfl, rfl, rfl,
      by simp [firstRecord], ⟨_, rfl, rfl⟩, by decide, by decide, by decide⟩, rfl⟩]
  exact ⟨_, rfl⟩

/-- A record after the first. -/
def nextRecord : RecordLeafInput :=
  { firstRecord with
    prevHead := headOf residueHasher (Octets.zeros 32) [firstRecord]
    seq := 2
    effectiveAt := 1700086400 }

/-- That record with another signature and no check of its key. -/
def resignedRecord : RecordLeafInput :=
  { nextRecord with expectedQpKey := some (leOctets 32 11), signature := some (leOctets 64 1) }

theorem acceptable_nextRecord : Acceptable permissiveVerifier
    (ofHistory residueHasher (Octets.zeros 32) [firstRecord]) nextRecord where
  schema := rfl
  head := rfl
  seq := by decide
  key := by simp [nextRecord, firstRecord]
  attestation := ⟨_, rfl, rfl⟩
  effective := by decide
  category := by decide
  payloadUri := by decide

theorem acceptable_resignedRecord : Acceptable permissiveVerifier
    (ofHistory residueHasher (Octets.zeros 32) [firstRecord]) resignedRecord :=
  { acceptable_nextRecord with
    key := by simp [resignedRecord, nextRecord, firstRecord]
    attestation := ⟨_, rfl, rfl⟩ }

theorem exists_acceptAll_pair {r : RecordLeafInput} (haccept : Acceptable permissiveVerifier
    (ofHistory residueHasher (Octets.zeros 32) [firstRecord]) r) :
    ∃ chain, acceptAll residueHasher permissiveVerifier (Octets.zeros 32) [firstRecord, r] =
      .ok chain := by
  obtain ⟨before, hbefore⟩ := exists_acceptAll_firstRecord
  obtain ⟨rfl, -⟩ := acceptAll_eq_ofHistory residueHasher permissiveVerifier hbefore
  have hchain := (acceptAll_concat_iff residueHasher permissiveVerifier).mpr
    ⟨_, hbefore, haccept, rfl⟩
  exact ⟨_, hchain⟩

theorem leafDigest_resignedRecord : leafDigest residueHasher (Octets.zeros 32) resignedRecord =
    leafDigest residueHasher (Octets.zeros 32) nextRecord := by
  have hpreimage : leafPreimage (Octets.zeros 32) resignedRecord =
      leafPreimage (Octets.zeros 32) nextRecord := rfl
  rw [leafDigest, leafDigest, leafMessage, leafMessage, hpreimage]

/-- Two records, the second of them signed twice: the two runs reach one head. -/
theorem head_binds_history_resigned :
    ∃ chain chain', acceptAll residueHasher permissiveVerifier (Octets.zeros 32)
        [firstRecord, nextRecord] = .ok chain ∧
      acceptAll residueHasher permissiveVerifier (Octets.zeros 32)
        [firstRecord, resignedRecord] = .ok chain' ∧
      (((Octets.zeros 32 : Digest) = Octets.zeros 32 ∧
          [firstRecord, nextRecord].length = [firstRecord, resignedRecord].length ∧
          List.Forall₂ SameCommitted [firstRecord, nextRecord] [firstRecord, resignedRecord]) ∨
        Collides residueHasher.hash
          (hashedBy residueHasher (Octets.zeros 32) [firstRecord, nextRecord] ++
            hashedBy residueHasher (Octets.zeros 32) [firstRecord, resignedRecord])) := by
  obtain ⟨chain, hchain⟩ := exists_acceptAll_pair acceptable_nextRecord
  obtain ⟨chain', hchain'⟩ := exists_acceptAll_pair acceptable_resignedRecord
  refine ⟨chain, chain', hchain, hchain',
    head_binds_history residueHasher permissiveVerifier hchain hchain' ?_⟩
  rw [head_acceptAll residueHasher permissiveVerifier hchain,
    head_acceptAll residueHasher permissiveVerifier hchain']
  simp only [headOf, List.map_cons, List.map_nil, leafDigest_resignedRecord]

end AnchoredLog.Core.RecordHistory
