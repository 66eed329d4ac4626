import AnchoredLog.Log.Batcher

/-!
# The snapshots a restart accepts

`WellFormed` says of a snapshot what a batcher keeps of its queues: the current epoch is no fuller
than its capacity, nothing waits beside one with room, no more waits than the merge delay absorbs,
and the live identifiers are consecutive counters that end just below the next one.
`resume_eq_ok_iff` says that a restart accepts exactly these, and `wellQueued_submit` and
`wellQueued_sealEpoch` that submissions and seals keep them.

`sealInOrder` seals one epoch after the other, with submissions before each. From a well-formed
snapshot it fails only where the epoch counter cannot advance, and the tree at a position holds what
the queue held for it.
-/

set_option autoImplicit false
set_option relaxedAutoImplicit false

namespace AnchoredLog.Log.Snapshots

open Core.Preimages Library.ByteCodec Library.Fallible EpochTree TreeCompleteness Batcher

/-! ### Well-formed snapshots -/

/-- The counters the live identifiers were minted from, in order of arrival. -/
def liveOrdinals (snapshot : BatcherSnapshot) : List ℕ :=
  (snapshot.pending ++ snapshot.overflow).map fun entry ↦ leNat (entry.1.octets.take 8)

/-- A snapshot as a batcher leaves it. -/
structure WellFormed (height : UInt8) (snapshot : BatcherSnapshot) : Prop where
  height_mem : minHeight ≤ height ∧ height ≤ maxHeight
  pending_le : snapshot.pending.length ≤ 2 ^ height.toNat
  overflow_le : snapshot.overflow.length ≤ 2 ^ height.toNat * 2
  /-- Nothing waits beside an epoch with room. -/
  full : snapshot.overflow ≠ [] → snapshot.pending.length = 2 ^ height.toNat
  /-- The upper octets of every identifier are zero. -/
  high_zero : ∀ entry ∈ snapshot.pending ++ snapshot.overflow,
    ∀ octet ∈ entry.1.octets.drop 8, octet = 0
  /-- The counters are consecutive. -/
  consecutive : (liveOrdinals snapshot).IsChain fun left right ↦ right = left + 1
  /-- The last one is just below the next. -/
  last : ∀ last ∈ (liveOrdinals snapshot).getLast?, last + 1 = snapshot.nextSubmission.toNat

/-- Consecutive numbers are a range. -/
theorem exists_eq_range' {ordinals : List ℕ}
    (hchain : ordinals.IsChain fun left right ↦ right = left + 1) :
    ∃ oldest, ordinals = List.range' oldest ordinals.length := by
  induction ordinals with
  | nil => exact ⟨0, rfl⟩
  | cons first rest ih =>
    refine ⟨first, ?_⟩
    obtain ⟨oldest, hrest⟩ := ih hchain.of_cons
    cases rest with
    | nil => rfl
    | cons second others =>
      have hnext : second = first + 1 := (List.isChain_cons_cons.mp hchain).1
      obtain rfl : second = oldest := (List.cons.inj hrest).1
      rw [List.length_cons, List.range'_succ, ← hnext, ← hrest]

theorem leNat_take_lt (id : SubmissionId) : leNat (id.octets.take 8) < 2 ^ 64 := by
  have hbound := leNat_lt (id.octets.take 8)
  rw [List.length_take, id.length_octets] at hbound
  exact hbound

/-- An identifier whose upper octets are zero was minted from its lower ones. -/
theorem eq_identifier {id : SubmissionId} (hhigh : ∀ octet ∈ id.octets.drop 8, octet = 0) :
    id = EpochBatcher.identifier (UInt64.ofNat (leNat (id.octets.take 8))) := by
  have hlow : (id.octets.take 8).length = 8 := by rw [List.length_take, id.length_octets]; rfl
  have hzeros : id.octets.drop 8 = List.replicate 8 0 := by
    have hall := List.eq_replicate_of_mem hhigh
    rwa [List.length_drop, id.length_octets] at hall
  have hwritten : leList 8 (leNat (id.octets.take 8)) = id.octets.take 8 := by
    have hwrite := leList_leNat (id.octets.take 8)
    rwa [hlow] at hwrite
  apply Octets.octets_injective
  show id.octets = leList 8 (UInt64.ofNat (leNat (id.octets.take 8))).toNat ++ List.replicate 8 0
  rw [UInt64.toNat_ofNat', Nat.mod_eq_of_lt (leNat_take_lt id), hwritten, ← hzeros,
    List.take_append_drop]

section WellFormed

variable {batcher : EpochBatcher}

/-- The queues of a batcher are in order exactly when its snapshot is well formed. -/
theorem wellQueued_iff : WellQueued batcher ↔ WellFormed batcher.height batcher.snapshot := by
  constructor
  · intro hqueued
    obtain ⟨oldest, hids, hnext⟩ := hqueued.identifiers
    have hbound := batcher.nextSubmission.toNat_lt
    have hlive : liveOrdinals batcher.snapshot =
        List.range' oldest (batcher.pending ++ batcher.overflow).length := by
      have hmap : liveOrdinals batcher.snapshot = ((batcher.pending ++ batcher.overflow).map
          Prod.fst).map fun id ↦ leNat (id.octets.take 8) := by
        rw [List.map_map]
        rfl
      rw [hmap, hids, List.map_map, List.map_congr_left, List.map_id]
      intro counter hcounter
      rw [List.mem_range'_1] at hcounter
      rw [Function.comp_apply, leNat_identifier, UInt64.toNat_ofNat', Nat.mod_eq_of_lt (by omega)]
      rfl
    refine ⟨batcher.height_mem, hqueued.pending_le, hqueued.overflow_le, hqueued.full, ?_, ?_, ?_⟩
    · intro entry hentry octet hoctet
      have hid : entry.1 ∈ (batcher.pending ++ batcher.overflow).map Prod.fst :=
        List.mem_map_of_mem hentry
      rw [hids] at hid
      obtain ⟨counter, -, hcounter⟩ := List.mem_map.mp hid
      have hhigh : (EpochBatcher.identifier (UInt64.ofNat counter)).octets.drop 8 =
          List.replicate 8 0 := List.drop_left' (length_leList 8 _)
      rw [← hcounter, hhigh] at hoctet
      exact List.eq_of_mem_replicate hoctet
    · rw [hlive]
      exact List.isChain_range' _ _ _
    · intro last hlast
      rw [hlive, Option.mem_def, List.getLast?_range'] at hlast
      split at hlast
      · cases hlast
      · rw [Option.some.injEq] at hlast
        show last + 1 = batcher.nextSubmission.toNat
        omega
  · intro hformed
    obtain ⟨oldest, hrange⟩ := exists_eq_range' hformed.consecutive
    have hlength : (liveOrdinals batcher.snapshot).length =
        (batcher.pending ++ batcher.overflow).length := List.length_map _
    refine ⟨hformed.pending_le, hformed.overflow_le, hformed.full, ?_⟩
    have hids : (batcher.pending ++ batcher.overflow).map Prod.fst =
        (liveOrdinals batcher.snapshot).map
          fun counter ↦ EpochBatcher.identifier (UInt64.ofNat counter) := by
      rw [liveOrdinals, List.map_map]
      exact List.map_congr_left fun entry hentry ↦ eq_identifier (hformed.high_zero entry hentry)
    by_cases hempty : (batcher.pending ++ batcher.overflow).length = 0
    · refine ⟨batcher.nextSubmission.toNat, ?_, by rw [hempty, Nat.add_zero]⟩
      rw [List.eq_nil_of_length_eq_zero hempty]
      rfl
    · refine ⟨oldest, by rw [hids, hrange, hlength], ?_⟩
      have hlast := hformed.last (oldest + (batcher.pending ++ batcher.overflow).length - 1)
        (by
          rw [Option.mem_def, hrange, List.getLast?_range', hlength, if_neg hempty])
      change _ = batcher.nextSubmission.toNat at hlast
      omega

/-! ### What a restart accepts -/

theorem ordinalOf_eq_ok_iff {id : SubmissionId} {ordinal : UInt64} :
    ordinalOf id = .ok ordinal ↔ (∀ octet ∈ id.octets.drop 8, octet = 0) ∧
      ordinal = UInt64.ofNat (leNat (id.octets.take 8)) := by
  have hlow : (id.octets.take 8).length = 8 := by rw [List.length_take, id.length_octets]; rfl
  have hslice : Octets.slice? id.octets 0 8 = some ⟨id.octets.take 8, hlow⟩ := by
    rw [Octets.slice?, dif_pos (by rw [List.drop_zero, hlow])]
    simp
  rw [ordinalOf, hslice, okOr_some, bind_ok, bind_unit_eq_ok_iff, require_eq_ok_iff]
  refine and_congr ?_ ⟨fun heq ↦ (Except.ok.inj heq).symm, fun heq ↦ heq ▸ rfl⟩
  simp

/-- The counters a restart reads, when it reads them all. -/
theorem mapM_ordinalOf_eq_ok {entries : List (SubmissionId × Digest)} {ordinals : List UInt64}
    (hread : (entries.mapM fun entry ↦ ordinalOf entry.1) = .ok ordinals) :
    (∀ entry ∈ entries, ∀ octet ∈ entry.1.octets.drop 8, octet = 0) ∧
      ordinals.map UInt64.toNat = entries.map fun entry ↦ leNat (entry.1.octets.take 8) := by
  have hall := mapM_eq_ok_iff.mp hread
  induction hall with
  | nil => exact ⟨fun _ hentry ↦ absurd hentry List.not_mem_nil, rfl⟩
  | @cons entry ordinal entries ordinals hfirst hrest ih =>
    obtain ⟨hhigh, hordinals⟩ := ih (mapM_eq_ok_iff.mpr hrest)
    obtain ⟨hzero, rfl⟩ := ordinalOf_eq_ok_iff.mp hfirst
    refine ⟨List.forall_mem_cons.mpr ⟨hzero, hhigh⟩, ?_⟩
    rw [List.map_cons, List.map_cons, hordinals, UInt64.toNat_ofNat',
      Nat.mod_eq_of_lt (leNat_take_lt entry.1)]

/-- The counters that pass the check are consecutive and end just below the next one. -/
theorem chain_of_checkOrdinals {snapshot : BatcherSnapshot} {ordinals : List UInt64}
    (hchecked : checkOrdinals snapshot ordinals = .ok ()) :
    ((ordinals.map UInt64.toNat).IsChain fun left right ↦ right = left + 1) ∧
      ∀ last ∈ (ordinals.map UInt64.toNat).getLast?,
        last + 1 = snapshot.nextSubmission.toNat := by
  have hone : (1 : UInt64).toNat = 1 := rfl
  rw [checkOrdinals] at hchecked
  cases ordinals with
  | nil => exact ⟨.nil, by simp⟩
  | cons first rest =>
    simp only [List.head?_cons, okOr_bind_eq_ok_iff, bind_unit_eq_ok_iff, require_eq_ok_iff]
      at hchecked
    obtain ⟨last, hlast, expected, hexpected, rfl, -, -, -, hchain⟩ := hchecked
    constructor
    · rw [List.isChain_map]
      exact hchain.imp fun left right hnext ↦ by
        have hdifference := checkedSub_eq_some_iff.mp hnext
        omega
    · intro value hvalue
      rw [List.getLast?_map, hlast, Option.map_some, Option.mem_def, Option.some.injEq] at hvalue
      have hdifference := checkedSub_eq_some_iff.mp hexpected
      omega

end WellFormed

/-- A restart accepts exactly the well-formed snapshots, and continues from what they say. -/
theorem resume_eq_ok_iff {masterKey : Digest} {height : UInt8} {snapshot : BatcherSnapshot}
    {batcher : EpochBatcher} :
    resume masterKey height snapshot = .ok batcher ↔ WellFormed height snapshot ∧
      batcher.masterKey = masterKey ∧ batcher.height = height ∧ batcher.snapshot = snapshot := by
  constructor
  · intro hresumed
    rw [resume] at hresumed
    obtain ⟨fresh, hfresh, hrest⟩ := bind_eq_ok_iff.mp hresumed
    rw [start] at hfresh
    split at hfresh
    · next hheight =>
      obtain rfl := Except.ok.inj hfresh
      obtain ⟨capacity, hcapacity, hchecks⟩ := bind_eq_ok_iff.mp hrest
      rw [capacity_eq] at hcapacity
      obtain rfl := Except.ok.inj hcapacity
      simp only [bind_unit_eq_ok_iff, require_eq_ok_iff] at hchecks
      obtain ⟨hpending, hoverflow, hbeside, hordinals⟩ := hchecks
      obtain ⟨ordinals, hread, hlast⟩ := bind_eq_ok_iff.mp hordinals
      obtain ⟨hchecked, hbatcher⟩ := bind_unit_eq_ok_iff.mp hlast
      obtain rfl := Except.ok.inj hbatcher
      obtain ⟨hhigh, hnumbers⟩ := mapM_ordinalOf_eq_ok hread
      obtain ⟨hchain, hend⟩ := chain_of_checkOrdinals hchecked
      rw [hnumbers] at hchain hend
      refine ⟨⟨hheight, not_lt.mp hpending, not_lt.mp hoverflow, fun hne ↦ ?_, hhigh, hchain,
        hend⟩, rfl, rfl, rfl⟩
      by_contra hlength
      exact hbeside ⟨hne, hlength⟩
    · cases hfresh
  · rintro ⟨hformed, rfl, rfl, rfl⟩
    exact resume_snapshot (wellQueued_iff.mpr hformed)

/-! ### What submissions and seals keep -/

section Preserved

variable {hasher : Hasher} {batcher : EpochBatcher}

theorem wellQueued_admitted {leaf : Digest} {signer : Signer} {promise : SignedPromise}
    (hqueued : WellQueued batcher) (hpromise : PromiseOf hasher leaf signer batcher promise) :
    WellQueued (Batcher.admitted leaf batcher) := by
  obtain ⟨oldest, hids, hnext⟩ := hqueued.identifiers
  have hcounter : (batcher.nextSubmission + 1).toNat = batcher.nextSubmission.toNat + 1 := by
    rw [UInt64.toNat_add]
    exact Nat.mod_eq_of_lt hpromise.counter
  generalize hqueue : batcher.pending ++ batcher.overflow = queue at hids hnext
  have hminted (live : List (SubmissionId × Digest))
      (hlive : live = queue ++ [(EpochBatcher.identifier batcher.nextSubmission, leaf)]) :
      ∃ oldest, live.map Prod.fst = (List.range' oldest live.length).map
          (fun counter ↦ EpochBatcher.identifier (UInt64.ofNat counter)) ∧
        oldest + live.length = (batcher.nextSubmission + 1).toNat := by
    refine ⟨oldest, ?_, ?_⟩
    · rw [hlive, List.map_append, hids, List.length_append, List.length_singleton,
        List.range'_concat, List.map_append, one_mul, hnext, List.map_singleton,
        List.map_singleton, UInt64.ofNat_toNat]
    · rw [hlive, hcounter, ← hnext, List.length_append, List.length_singleton]
      rfl
  have hpending := hqueued.pending_le
  have hoverflow := hqueued.overflow_le
  unfold Batcher.admitted
  split
  · next hroom =>
    have hempty : batcher.overflow = [] := by
      by_contra hne
      have hfull := hqueued.full hne
      omega
    refine ⟨?_, hoverflow, fun hne ↦ absurd hempty hne, hminted _ ?_⟩
    · rw [List.length_append, List.length_singleton]
      exact hroom
    · rw [← hqueue, hempty, List.append_nil, List.append_nil]
  · next hfull =>
    obtain ⟨-, hahead⟩ := hpromise.queued hfull
    have hpositive := Nat.two_pow_pos batcher.height.toNat
    have hlength : batcher.overflow.length < 2 * 2 ^ batcher.height.toNat :=
      (Nat.div_lt_iff_lt_mul hpositive).mp (by omega)
    refine ⟨hpending, ?_, fun _ ↦ ?_, hminted _ (hqueue ▸ (List.append_assoc _ _ _).symm)⟩
    · rw [List.length_append, List.length_singleton, Nat.mul_comm]
      exact hlength
    · exact le_antisymm hpending (not_lt.mp hfull)

theorem wellQueued_advanced (hqueued : WellQueued batcher) :
    WellQueued (Batcher.advanced batcher) := by
  obtain ⟨oldest, hids, hnext⟩ := hqueued.identifiers
  have hoverflow := hqueued.overflow_le
  have hlive : (Batcher.advanced batcher).pending ++ (Batcher.advanced batcher).overflow =
      batcher.overflow := List.take_append_drop _ _
  refine ⟨List.length_take_le _ _, ?_, fun hne ↦ ?_, oldest + batcher.pending.length, ?_, ?_⟩
  · show (batcher.overflow.drop _).length ≤ _
    rw [List.length_drop]
    exact (Nat.sub_le _ _).trans hoverflow
  · show (batcher.overflow.take _).length = _
    rw [List.length_take]
    have hlong : ¬ batcher.overflow.length ≤ 2 ^ batcher.height.toNat := fun hle ↦
      hne (List.drop_eq_nil_iff.mpr hle)
    exact Nat.min_eq_left (not_le.mp hlong).le
  · rw [hlive]
    rw [List.map_append, List.length_append, ← List.range'_append_1, List.map_append] at hids
    exact (List.append_inj hids (by simp)).2
  · rw [hlive, Nat.add_assoc, ← List.length_append, hnext]
    rfl

/-- A submission keeps the queues in order, whether it is accepted or refused. -/
theorem wellQueued_submit (hqueued : WellQueued batcher) (leaf : Digest) (signer : Signer) :
    WellQueued (perform (submit hasher leaf signer) batcher).2 := by
  rw [perform_submit]
  cases hpromise : promiseFor hasher leaf signer batcher with
  | error error => exact hqueued
  | ok promise =>
    exact wellQueued_admitted hqueued (promiseOf_of_promiseFor hasher leaf signer hpromise)

/-- A seal keeps the queues in order, whether it is accepted or refused. -/
theorem wellQueued_sealEpoch (hqueued : WellQueued batcher) (epoch : UInt64) :
    WellQueued (perform (sealEpoch hasher epoch) batcher).2 := by
  rw [perform_sealEpoch]
  cases sealFor hasher epoch batcher with
  | error error => exact hqueued
  | ok built => exact wellQueued_advanced hqueued

/-- An epoch of a batcher with its queues in order is sealed wherever the epoch can advance. -/
theorem exists_sealFor (hqueued : WellQueued batcher) (hepoch : batcher.epoch.toNat + 1 < 2 ^ 64) :
    ∃ built, sealFor hasher batcher.epoch batcher = .ok built := by
  obtain ⟨oldest, hids, hnext⟩ := hqueued.identifiers
  have hbound := batcher.nextSubmission.toNat_lt
  have hnodup : (batcher.pending.map Prod.fst).Nodup := by
    have hall : ((batcher.pending ++ batcher.overflow).map Prod.fst).Nodup := by
      rw [hids]
      refine List.Nodup.map_on (fun left hleft right hright hsame ↦ ?_) List.nodup_range'
      rw [List.mem_range'_1] at hleft hright
      have hnumbers := congrArg UInt64.toNat (identifier_injective hsame)
      rwa [UInt64.toNat_ofNat', UInt64.toNat_ofNat', Nat.mod_eq_of_lt (by omega),
        Nat.mod_eq_of_lt (by omega)] at hnumbers
    rw [List.map_append] at hall
    exact (List.nodup_append.mp hall).1
  obtain ⟨built, hbuilt, -⟩ :=
    exists_build hasher batcher.epoch batcher.masterKey batcher.height_mem
      (not_lt.mpr hqueued.pending_le) hnodup
  exact ⟨built, (sealFor_eq_ok_iff hasher batcher.epoch).mpr ⟨rfl, hepoch, hbuilt⟩⟩

end Preserved

/-! ### Sealing in order -/

/-- The batcher after submissions, each accepted or refused. -/
def submitAll (hasher : Hasher) (batcher : EpochBatcher) (submissions : List (Digest × Signer)) :
    EpochBatcher :=
  submissions.foldl (fun batcher submission ↦
    (perform (submit hasher submission.1 submission.2) batcher).2) batcher

/-- Seals an epoch and the ones after it, one for each round, each after the submissions of its
round: the trees and the batcher that is left, or the first refusal. -/
def sealInOrder (hasher : Hasher) : UInt64 → EpochBatcher → List (List (Digest × Signer)) →
    Result (List BuiltEpoch × EpochBatcher)
  | _, batcher, [] => .ok ([], batcher)
  | epoch, batcher, submissions :: rounds =>
    match perform (sealEpoch hasher epoch) (submitAll hasher batcher submissions) with
    | (.ok built, next) => do
      let (trees, final) ← sealInOrder hasher (epoch + 1) next rounds
      return (built :: trees, final)
    | (.error error, _) => .error error

section Sealing

variable {hasher : Hasher} {batcher : EpochBatcher}

theorem perform_submit_epoch (leaf : Digest) (signer : Signer) (self : EpochBatcher) :
    (perform (submit hasher leaf signer) self).2.epoch = self.epoch := by
  rw [perform_submit]
  cases promiseFor hasher leaf signer self with
  | error error => rfl
  | ok promise => exact admitted_epoch leaf self

theorem submitAll_keeps (hqueued : WellQueued batcher) (submissions : List (Digest × Signer)) :
    WellQueued (submitAll hasher batcher submissions) ∧
      (submitAll hasher batcher submissions).epoch = batcher.epoch := by
  induction submissions generalizing batcher with
  | nil => exact ⟨hqueued, rfl⟩
  | cons submission submissions ih =>
    obtain ⟨hrest, hepoch⟩ :=
      ih (@wellQueued_submit hasher batcher hqueued submission.1 submission.2)
    exact ⟨hrest, hepoch.trans (perform_submit_epoch submission.1 submission.2 batcher)⟩

/-- A round that is sealed leaves the batcher in its next epoch. -/
theorem sealInOrder_cons_eq_ok_iff {epoch : UInt64} {submissions : List (Digest × Signer)}
    {rounds : List (List (Digest × Signer))} {trees : List BuiltEpoch} {final : EpochBatcher} :
    sealInOrder hasher epoch batcher (submissions :: rounds) = .ok (trees, final) ↔
      ∃ built rest, sealFor hasher epoch (submitAll hasher batcher submissions) = .ok built ∧
        sealInOrder hasher (epoch + 1) (advanced (submitAll hasher batcher submissions)) rounds =
          .ok (rest, final) ∧ trees = built :: rest := by
  rw [sealInOrder, perform_sealEpoch]
  cases sealFor hasher epoch (submitAll hasher batcher submissions) with
  | error error => simp
  | ok built =>
    simp only [bind_eq_ok_iff, Except.ok.injEq]
    constructor
    · rintro ⟨⟨rest, last⟩, hrest, heq⟩
      obtain ⟨rfl, rfl⟩ := Prod.mk.inj (Except.ok.inj heq)
      exact ⟨built, rest, rfl, hrest, rfl⟩
    · rintro ⟨other, rest, rfl, hrest, rfl⟩
      exact ⟨(rest, final), hrest, rfl⟩

/-- Sealing in order succeeds wherever the epoch can advance, whatever is submitted in between. -/
theorem exists_sealInOrder (hqueued : WellQueued batcher) (rounds : List (List (Digest × Signer)))
    (hepoch : batcher.epoch.toNat + rounds.length < 2 ^ 64) :
    ∃ trees final, sealInOrder hasher batcher.epoch batcher rounds = .ok (trees, final) := by
  induction rounds generalizing batcher with
  | nil => exact ⟨[], batcher, rfl⟩
  | cons submissions rounds ih =>
    rw [List.length_cons] at hepoch
    obtain ⟨hkept, hsame⟩ := @submitAll_keeps hasher _ hqueued submissions
    obtain ⟨built, hbuilt⟩ := @exists_sealFor hasher _ hkept (by rw [hsame]; omega)
    have hnext : (advanced (submitAll hasher batcher submissions)).epoch = batcher.epoch + 1 :=
      congrArg (· + 1) hsame
    have hnumber : (batcher.epoch + 1).toNat = batcher.epoch.toNat + 1 := by
      rw [UInt64.toNat_add, UInt64.toNat_one]
      exact Nat.mod_eq_of_lt (by omega)
    obtain ⟨trees, final, hrest⟩ := ih (wellQueued_advanced hkept) (by rw [hnext, hnumber]; omega)
    rw [hnext] at hrest
    rw [hsame] at hbuilt
    exact ⟨_, _, sealInOrder_cons_eq_ok_iff.mpr ⟨built, trees, hbuilt, hrest, rfl⟩⟩

/-- Sealing in order fails where the epoch cannot advance. -/
theorem lt_of_sealInOrder {epoch : UInt64} {rounds : List (List (Digest × Signer))}
    {trees : List BuiltEpoch} {final : EpochBatcher}
    (hsealed : sealInOrder hasher epoch batcher rounds = .ok (trees, final)) :
    epoch.toNat + rounds.length < 2 ^ 64 := by
  induction rounds generalizing epoch batcher trees with
  | nil => exact epoch.toNat_lt
  | cons submissions rounds ih =>
    obtain ⟨built, rest, hbuilt, hrest, -⟩ := sealInOrder_cons_eq_ok_iff.mp hsealed
    have hfits := ((sealFor_eq_ok_iff hasher epoch).mp hbuilt).2.1
    have hlater := ih hrest
    rw [UInt64.toNat_add,
      Nat.mod_eq_of_lt (show epoch.toNat + (1 : UInt64).toNat < 2 ^ 64 from hfits)]
      at hlater
    have hone : (1 : UInt64).toNat = 1 := rfl
    rw [List.length_cons]
    omega

end Sealing

/-! ### What is sealed when -/

/-- What the queues of a batcher hold for the epoch at a distance from its own. -/
def queueAt (height : UInt8) (snapshot : BatcherSnapshot) : ℕ → List (SubmissionId × Digest)
  | 0 => snapshot.pending
  | ahead + 1 => (snapshot.overflow.drop (ahead * 2 ^ height.toNat)).take (2 ^ height.toNat)

theorem queueAt_advanced (batcher : EpochBatcher) (ahead : ℕ) :
    queueAt batcher.height (advanced batcher).snapshot ahead =
      queueAt batcher.height batcher.snapshot (ahead + 1) := by
  cases ahead with
  | zero => rw [queueAt, queueAt, Nat.zero_mul, List.drop_zero]; rfl
  | succ ahead =>
    rw [queueAt, queueAt, Nat.succ_mul, Nat.add_comm (ahead * _), ← List.drop_drop]
    rfl

/-- An entry waits for the epoch its place in the queue reaches. -/
theorem mem_queueAt_of_overflow {height : UInt8} {snapshot : BatcherSnapshot} {position : ℕ}
    {entry : SubmissionId × Digest} (hentry : snapshot.overflow[position]? = some entry) :
    entry ∈ queueAt height snapshot (1 + position / 2 ^ height.toNat) := by
  have hpositive := Nat.two_pow_pos height.toNat
  have hread : (snapshot.overflow.drop
      (position / 2 ^ height.toNat * 2 ^ height.toNat))[position % 2 ^ height.toNat]? =
        some entry := by
    rw [List.getElem?_drop, Nat.div_add_mod', hentry]
  rw [Nat.add_comm, queueAt]
  refine List.mem_of_getElem? (i := position % 2 ^ height.toNat) ?_
  rw [List.getElem?_take_of_lt (Nat.mod_lt _ hpositive), hread]

section Contents

variable {hasher : Hasher} {batcher : EpochBatcher}

/-- Without submissions in between, the tree of every epoch is built from what the queue held for
it. -/
theorem builtFrom_of_sealInOrder {count : ℕ} {trees : List BuiltEpoch} {final : EpochBatcher}
    (hsealed : sealInOrder hasher batcher.epoch batcher (List.replicate count []) =
      .ok (trees, final)) :
    trees.length = count ∧ ∀ ahead tree, trees[ahead]? = some tree →
      BuiltFrom hasher (batcher.epoch + UInt64.ofNat ahead) batcher.height batcher.masterKey
        (queueAt batcher.height batcher.snapshot ahead) tree := by
  induction count generalizing batcher trees with
  | zero =>
    obtain ⟨rfl, -⟩ := Prod.mk.inj (Except.ok.inj hsealed)
    exact ⟨rfl, fun ahead tree htree ↦ by simp at htree⟩
  | succ count ih =>
    rw [List.replicate_succ] at hsealed
    obtain ⟨built, rest, hbuilt, hrest, rfl⟩ := sealInOrder_cons_eq_ok_iff.mp hsealed
    obtain ⟨hlength, hcontents⟩ := @ih (advanced batcher) rest hrest
    refine ⟨by rw [List.length_cons, hlength], fun ahead tree htree ↦ ?_⟩
    cases ahead with
    | zero =>
      obtain rfl : built = tree := Option.some_injective _ htree
      have hzero : batcher.epoch + UInt64.ofNat 0 = batcher.epoch := UInt64.add_zero _
      rw [hzero]
      exact builtFrom_of_build ((sealFor_eq_ok_iff hasher batcher.epoch).mp hbuilt).2.2
    | succ ahead =>
      rw [List.getElem?_cons_succ] at htree
      have hlater := hcontents ahead tree htree
      have hepoch : (advanced batcher).epoch + UInt64.ofNat ahead =
          batcher.epoch + UInt64.ofNat (ahead + 1) := by
        show batcher.epoch + 1 + UInt64.ofNat ahead = _
        rw [UInt64.add_assoc, UInt64.add_comm 1, UInt64.ofNat_add]
        rfl
      rw [← hepoch, ← queueAt_advanced]
      exact hlater

end Contents

/-- A tree of an epoch has a slot for an entry, which holds the leaf of the entry. -/
structure SealedIn (hasher : Hasher) (epoch : UInt64) (tree : BuiltEpoch)
    (entry : SubmissionId × Digest) : Prop where
  epoch_eq : tree.epoch = epoch
  exists_slot : ∃ slot, (entry.1, slot) ∈ tree.assignment ∧
    tree.leaves[slot.toNat]? = some (hasher.hash (realLeafMessage entry.2))

/-- A restart accepts exactly the well-formed snapshots; submissions and seals keep them well
formed; and sealing from one in order succeeds as long as the epoch can advance, every entry being
sealed in the epoch its place reaches. -/
theorem snapshots_stay_well_formed (hasher : Hasher) (masterKey : Digest) (height : UInt8) :
    (∀ snapshot, (∃ batcher, resume masterKey height snapshot = .ok batcher) ↔
      WellFormed height snapshot) ∧
    (∀ (batcher : EpochBatcher), WellFormed batcher.height batcher.snapshot →
      (∀ leaf signer, WellFormed batcher.height
        (perform (submit hasher leaf signer) batcher).2.snapshot) ∧
      ∀ epoch, WellFormed batcher.height (perform (sealEpoch hasher epoch) batcher).2.snapshot) ∧
    ∀ snapshot batcher, resume masterKey height snapshot = .ok batcher →
      batcher.snapshot = snapshot ∧
      ∀ count : ℕ, snapshot.epoch.toNat + count < 2 ^ 64 → ∃ trees final,
        sealInOrder hasher snapshot.epoch batcher (List.replicate count []) = .ok (trees, final) ∧
        trees.length = count ∧
        (∀ (ahead : ℕ) (tree : BuiltEpoch), trees[ahead]? = some tree →
          (tree.assignment.map Prod.fst).Perm ((queueAt height snapshot ahead).map Prod.fst)) ∧
        (∀ entry ∈ snapshot.pending, ∀ tree, trees[0]? = some tree →
          SealedIn hasher snapshot.epoch tree entry) ∧
        ∀ position entry tree, snapshot.overflow[position]? = some entry →
          trees[1 + position / 2 ^ height.toNat]? = some tree →
            SealedIn hasher
              (snapshot.epoch + 1 + UInt64.ofNat (position / 2 ^ height.toNat)) tree entry := by
  refine ⟨fun snapshot ↦ ⟨?_, fun hformed ↦ ?_⟩, fun batcher hformed ↦ ⟨fun leaf signer ↦ ?_,
    fun epoch ↦ ?_⟩, fun snapshot batcher hresumed ↦ ?_⟩
  · rintro ⟨batcher, hresumed⟩
    exact (resume_eq_ok_iff.mp hresumed).1
  · exact ⟨⟨masterKey, height, hformed.height_mem, snapshot.epoch, snapshot.nextSubmission,
      snapshot.pending, snapshot.overflow⟩, resume_eq_ok_iff.mpr ⟨hformed, rfl, rfl, rfl⟩⟩
  · have hkept := @wellQueued_submit hasher _ (wellQueued_iff.mpr hformed) leaf signer
    have hheight : (perform (submit hasher leaf signer) batcher).2.height = batcher.height := by
      rw [perform_submit]
      cases promiseFor hasher leaf signer batcher with
      | error error => rfl
      | ok promise => exact admitted_height leaf batcher
    exact hheight ▸ wellQueued_iff.mp hkept
  · have hkept := @wellQueued_sealEpoch hasher _ (wellQueued_iff.mpr hformed) epoch
    have hheight : (perform (sealEpoch hasher epoch) batcher).2.height = batcher.height := by
      rw [perform_sealEpoch]
      cases sealFor hasher epoch batcher <;> rfl
    exact hheight ▸ wellQueued_iff.mp hkept
  · obtain ⟨hformed, rfl, rfl, rfl⟩ := resume_eq_ok_iff.mp hresumed
    refine ⟨rfl, fun count hcount ↦ ?_⟩
    obtain ⟨trees, final, hsealed⟩ := @exists_sealInOrder hasher _ (wellQueued_iff.mpr hformed)
      (List.replicate count []) (by rwa [List.length_replicate])
    obtain ⟨hlength, hcontents⟩ := builtFrom_of_sealInOrder hsealed
    refine ⟨trees, final, hsealed, hlength, fun ahead tree htree ↦ ?_,
      fun entry hentry tree htree ↦ ?_, fun position entry tree hentry htree ↦ ?_⟩
    · rw [(hcontents ahead tree htree).ids]
      exact (ordered_perm _).map Prod.fst
    · have hbuilt := hcontents 0 tree htree
      exact ⟨hbuilt.epoch_eq.trans (UInt64.add_zero _), hbuilt.exists_slot hentry⟩
    · have hbuilt := hcontents _ tree htree
      refine ⟨hbuilt.epoch_eq.trans ?_, hbuilt.exists_slot (mem_queueAt_of_overflow hentry)⟩
      rw [UInt64.ofNat_add, ← UInt64.add_assoc]
      rfl

end AnchoredLog.Log.Snapshots
