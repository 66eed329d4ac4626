import AnchoredLog.Client.BitcoinHeaders

/-!
# The header rules a verified chain follows

`FollowsRules` states the contextual rules of the main network that need no clock, in terms of
heights and numbers: every header names the hash of the block below it, keeps the version floor
and the median time, carries the compact encoding of the target in force at its height and meets
that target. `InForce` is the target in force at a height, recomputed at every multiple of 2016
from the times of the first and the last block of the period that closed.

`Walked` is what the walk knows after a number of headers. `walked_of_judgeHeader` says that a turn
that succeeds keeps it and that its header follows the rules, `exists_judgeHeader` that a turn
over a header that follows the rules succeeds, and `verifyChain_eq_ok_iff` that the walk accepts
exactly the chains that follow the rules.
-/

set_option autoImplicit false
set_option relaxedAutoImplicit false

namespace AnchoredLog.Client.HeaderRules

open Library.ByteCodec Library.Fallible CompactTarget BitcoinHeaders

/-! ### The rules -/

section Rules

variable (sha256d : DoubleHash) (checkpoint : Checkpoint) (headers : List Header)

/-- The hash of the block at a height: the checkpoint's, or that of a header of the range. -/
inductive BlockHash : ℕ → Octets 32 → Prop
  | checkpoint : BlockHash checkpoint.height.toNat checkpoint.hash
  | header {offset : ℕ} {header : Header} (hheader : headers[offset]? = some header) :
      BlockHash (checkpoint.height.toNat + 1 + offset) (header.blockHash sha256d)

/-- The time of the block at a height: the checkpoint's, where it carries one, or that of a header
of the range. -/
inductive BlockTime : ℕ → ℕ → Prop
  | checkpoint {time : UInt32} (htime : checkpoint.time = some time) :
      BlockTime checkpoint.height.toNat time.toNat
  | header {offset : ℕ} {header : Header} (hheader : headers[offset]? = some header) :
      BlockTime (checkpoint.height.toNat + 1 + offset) header.time.toNat

/-- The target in force at a height. It is the checkpoint's until the first multiple of 2016, and
at each of these it is recomputed from the times of the first and the last block of the period
that closed. -/
inductive InForce : ℕ → ℕ → Prop
  | checkpoint : InForce checkpoint.height.toNat (number checkpoint.target)
  | within {height target : ℕ} (hbelow : InForce height target) (hperiod : ¬ 2016 ∣ height + 1) :
      InForce (height + 1) target
  | boundary {height target began closed : ℕ} (hbelow : InForce height target)
      (hperiod : 2016 ∣ height + 1)
      (hbegan : BlockTime checkpoint headers (height + 1 - 2016) began)
      (hclosed : BlockTime checkpoint headers height closed) :
      InForce (height + 1) (retargeted target ((closed : ℤ) - began))

/-- The rules for the header at a position of the range. -/
structure HeaderFollowsRules (offset : ℕ) (header : Header) : Prop where
  /-- The header names the hash of the block below it. -/
  names_predecessor :
    BlockHash sha256d checkpoint headers (checkpoint.height.toNat + offset) header.prevHash
  /-- From height 388381 on, its version is at least four. -/
  version_floor : 388381 ≤ checkpoint.height.toNat + 1 + offset → 4 ≤ header.version
  /-- Where eleven headers of the range precede it, its time is above their median. -/
  after_median : 11 ≤ offset → ∃ middle,
    median (((headers.drop (offset - 11)).take 11).map Header.time) = some middle ∧
      middle < header.time
  /-- It carries the encoding of the target in force at its height and its hash is not above
  that target. -/
  meets_target : ∃ target,
    InForce checkpoint headers (checkpoint.height.toNat + 1 + offset) target ∧
      IsCompactOf header.bits target ∧ leNat (header.blockHash sha256d).octets ≤ target

/-- The rules for a range of headers above a checkpoint. -/
structure FollowsRules : Prop where
  /-- The checkpoint's target is not easier than the network permits. -/
  target_permitted : number checkpoint.target ≤ 0xffff * 2 ^ 208
  /-- A height of the range is a multiple of 2016 only above a checkpoint that is at one and
  carries its time. -/
  boundary_known : ∀ height, checkpoint.height.toNat < height →
    height ≤ checkpoint.height.toNat + headers.length → 2016 ∣ height →
      2016 ∣ checkpoint.height.toNat ∧ checkpoint.time.isSome
  /-- Every header follows the rules for its position. -/
  each_header : ∀ offset header, headers[offset]? = some header →
    HeaderFollowsRules sha256d checkpoint headers offset header

end Rules

variable {sha256d : DoubleHash} {checkpoint : Checkpoint} {headers : List Header}

/-! ### What is at a height is unique -/

theorem blockHash_unique {height : ℕ} {left right : Octets 32}
    (hleft : BlockHash sha256d checkpoint headers height left)
    (hright : BlockHash sha256d checkpoint headers height right) : left = right := by
  generalize hheight : height = other at hright
  cases hleft with
  | checkpoint =>
    cases hright with
    | checkpoint => rfl
    | header hheader => omega
  | header hfirst =>
    cases hright with
    | checkpoint => omega
    | header hsecond =>
      rw [Nat.add_left_cancel hheight, hsecond, Option.some.injEq] at hfirst
      rw [hfirst]

theorem blockTime_unique {height left right : ℕ} (hleft : BlockTime checkpoint headers height left)
    (hright : BlockTime checkpoint headers height right) : left = right := by
  generalize hheight : height = other at hright
  cases hleft with
  | checkpoint hfirst =>
    cases hright with
    | checkpoint hsecond =>
      rw [hfirst, Option.some.injEq] at hsecond
      rw [hsecond]
    | header hheader => omega
  | header hfirst =>
    cases hright with
    | checkpoint hsecond => omega
    | header hsecond =>
      rw [Nat.add_left_cancel hheight, hsecond, Option.some.injEq] at hfirst
      rw [hfirst]

theorem InForce.le_height {height target : ℕ} (hforce : InForce checkpoint headers height target) :
    checkpoint.height.toNat ≤ height := by
  induction hforce with
  | checkpoint => exact le_rfl
  | within hbelow hperiod ih => omega
  | boundary hbelow hperiod hbegan hclosed ih => omega

theorem InForce.unique {height left right : ℕ} (hleft : InForce checkpoint headers height left)
    (hright : InForce checkpoint headers height right) : left = right := by
  induction hleft generalizing right with
  | checkpoint =>
    generalize hheight : checkpoint.height.toNat = other at hright
    cases hright with
    | checkpoint => rfl
    | within hbelow hperiod => exact absurd hbelow.le_height (by omega)
    | boundary hbelow hperiod hbegan hclosed => exact absurd hbelow.le_height (by omega)
  | @within height target hbelow hperiod ih =>
    generalize hheight : height + 1 = other at hright
    cases hright with
    | checkpoint => exact absurd hbelow.le_height (by omega)
    | within hother hnot =>
      obtain rfl := Nat.succ_injective hheight
      exact ih hother
    | boundary hother hyes hbegan hclosed =>
      rw [hheight] at hperiod
      exact absurd hyes hperiod
  | @boundary height target began closed hbelow hperiod hbegan hclosed ih =>
    generalize hheight : height + 1 = other at hright
    cases hright with
    | checkpoint => exact absurd hbelow.le_height (by omega)
    | within hother hnot =>
      rw [hheight] at hperiod
      exact absurd hperiod hnot
    | boundary hother hyes hfirst hlast =>
      obtain rfl := Nat.succ_injective hheight
      rw [ih hother, blockTime_unique hbegan hfirst, blockTime_unique hclosed hlast]

/-! ### The functions of one header -/

theorem compare_eq_true_iff {left right : List UInt8} (hlength : left.length = right.length) :
    lessThanOrEqualReversed.compare left right = true ↔ beNat left ≤ beNat right := by
  induction left generalizing right with
  | nil =>
    rw [List.eq_nil_of_length_eq_zero hlength.symm]
    simp [lessThanOrEqualReversed.compare]
  | cons first rest ih =>
    cases right with
    | nil => simp at hlength
    | cons other others =>
      have htail : rest.length = others.length := by simpa using hlength
      rw [lessThanOrEqualReversed.compare]
      by_cases hsame : first = other
      · rw [if_neg (by simpa using hsame), ih htail, hsame, beNat_cons, beNat_cons, htail]
        omega
      · rw [if_pos hsame, decide_eq_true_eq, ← not_lt, beNat_lt_beNat_iff hlength.symm,
          List.cons_lt_cons_iff]
        constructor
        · rintro hbelow (hlt | ⟨heq, -⟩)
          · exact lt_asymm hbelow hlt
          · exact hsame heq.symm
        · intro hnot
          rcases lt_trichotomy first other with hlt | heq | hgt
          · exact hlt
          · exact absurd heq hsame
          · exact absurd (Or.inl hgt) hnot

/-- The comparison of a hash with a target compares the numbers they stand for. -/
theorem lessThanOrEqualReversed_eq_true_iff (hash target : Octets 32) :
    lessThanOrEqualReversed hash target = true ↔ leNat hash.octets ≤ number target := by
  rw [lessThanOrEqualReversed, compare_eq_true_iff (by simp), beNat, List.reverse_reverse, number]

/-- The median is taken exactly where eleven headers precede a header of the range. -/
theorem medianTimePast_eq {offset : ℕ} (hoffset : offset ≤ headers.length) :
    medianTimePast headers offset =
      if 11 ≤ offset then median (((headers.drop (offset - 11)).take 11).map Header.time)
      else none := by
  unfold medianTimePast
  by_cases hfar : 11 ≤ offset
  · have hstart : checkedDiff offset medianTimeSpan = some (offset - 11) := checkedDiff_of_le hfar
    have hwidth : offset - (offset - 11) = 11 := by omega
    have hlength : ((headers.drop (offset - 11)).take 11).length = medianTimeSpan := by
      rw [List.length_take, List.length_drop]
      exact Nat.min_eq_left (by omega)
    rw [hstart, Option.bind_eq_bind, Option.bind_some, hwidth, if_neg (not_not.mpr hlength),
      if_pos hfar]
  · have hstart : checkedDiff offset medianTimeSpan = none := if_neg hfar
    rw [hstart, if_neg hfar]
    rfl

theorem exists_median {times : List UInt32} (hlength : times.length = 11) :
    ∃ middle, median times = some middle := by
  have hindex :
      times.length / 2 < (times.mergeSort fun left right ↦ decide (left ≤ right)).length := by
    rw [List.length_mergeSort, hlength]
    norm_num
  exact ⟨_, List.getElem?_eq_getElem hindex⟩

/-! ### Heights -/

theorem toNat_saturatingAdd {left right : UInt32} (hsum : left.toNat + right.toNat < 2 ^ 32) :
    (saturatingAdd left right).toNat = left.toNat + right.toNat := by
  rw [saturatingAdd, if_pos hsum, UInt32.toNat_add, Nat.mod_eq_of_lt hsum]

theorem toNat_saturatingFrom {count : ℕ} (hcount : count < 2 ^ 32) :
    (saturatingFrom count).toNat = count := by
  rw [saturatingFrom, if_pos hcount, UInt32.toNat_ofNat']
  exact Nat.mod_eq_of_lt hcount

theorem toNat_heightOf {offset : ℕ} (hheight : checkpoint.height.toNat + offset + 1 < 2 ^ 32) :
    (heightOf checkpoint offset).toNat = checkpoint.height.toNat + 1 + offset := by
  have hoffset := toNat_saturatingFrom (show offset < 2 ^ 32 by omega)
  have hsum : (saturatingAdd checkpoint.height (saturatingFrom offset)).toNat =
      checkpoint.height.toNat + offset := by
    rw [toNat_saturatingAdd (by omega), hoffset]
  have hone : (1 : UInt32).toNat = 1 := rfl
  rw [heightOf, toNat_saturatingAdd (by omega), hsum, hone]
  omega

theorem opensPeriod_iff (height : UInt32) :
    opensPeriod height mainnet.interval ↔ 2016 ∣ height.toNat := by
  have hinterval : mainnet.interval = 2016 := rfl
  have hnat : (2016 : UInt32).toNat = 2016 := rfl
  have hzero : (0 : UInt32).toNat = 0 := rfl
  rw [opensPeriod, hinterval, ← UInt32.toNat_inj, UInt32.toNat_mod, hnat, hzero]
  simp only [ne_eq, Nat.dvd_iff_mod_eq_zero]
  exact ⟨fun hopens ↦ hopens.2, fun hdvd ↦ ⟨by decide, hdvd⟩⟩

theorem toNat_period (height : UInt32) :
    (period height mainnet.interval).toNat = height.toNat / 2016 := by
  have hinterval : mainnet.interval = 2016 := rfl
  have hnat : (2016 : UInt32).toNat = 2016 := rfl
  rw [period, hinterval, if_neg (by decide), UInt32.toNat_div, hnat]

/-- The range stays in the period of its checkpoint, or starts on a boundary at a known time,
exactly when every multiple of 2016 in it is above such a checkpoint. -/
theorem boundary_check_iff (hrange : checkpoint.height.toNat + headers.length < 2 ^ 32) :
    ¬ (tipPeriod mainnet checkpoint headers ≠ period checkpoint.height mainnet.interval ∧
        ¬ (opensPeriod checkpoint.height mainnet.interval ∧ checkpoint.time.isSome)) ↔
      ∀ height, checkpoint.height.toNat < height →
        height ≤ checkpoint.height.toNat + headers.length → 2016 ∣ height →
          2016 ∣ checkpoint.height.toNat ∧ checkpoint.time.isSome := by
  have hspan := toNat_saturatingFrom (show headers.length < 2 ^ 32 by omega)
  have htip : (tipPeriod mainnet checkpoint headers).toNat =
      (checkpoint.height.toNat + headers.length) / 2016 := by
    rw [tipPeriod, toNat_period, toNat_saturatingAdd (by omega), hspan]
  rw [opensPeriod_iff, ne_eq, ← UInt32.toNat_inj, htip, toNat_period]
  constructor
  · intro hcheck height hlow hhigh hdvd
    by_contra hunknown
    refine hcheck ⟨?_, hunknown⟩
    omega
  · rintro hknown ⟨hleaves, hunknown⟩
    refine hunknown (hknown ((checkpoint.height.toNat + headers.length) / 2016 * 2016) ?_ ?_ ?_)
    · omega
    · omega
    · exact Nat.dvd_mul_left _ _

/-! ### One turn of the walk -/

/-- What the walk knows after `offset` headers. -/
structure Walked (sha256d : DoubleHash) (checkpoint : Checkpoint) (headers : List Header)
    (offset : ℕ) (walk : Walk) : Prop where
  /-- The next header has to name the block below it. -/
  previous : BlockHash sha256d checkpoint headers (checkpoint.height.toNat + offset) walk.previous
  /-- The target carried is the one in force. -/
  inForce : InForce checkpoint headers (checkpoint.height.toNat + offset) (number walk.inForce)
  /-- The target carried is permitted. -/
  permitted : number walk.inForce ≤ 0xffff * 2 ^ 208
  /-- Above a boundary at a known time, the time carried is that of the period's first block. -/
  periodBegan : 2016 ∣ checkpoint.height.toNat → checkpoint.time.isSome →
    ∃ began, walk.periodBegan = some began ∧ BlockTime checkpoint headers
      ((checkpoint.height.toNat + offset) / 2016 * 2016) began.toNat
  /-- The hashes are those of the headers walked. -/
  hashes : walk.hashes = (headers.take offset).map (Header.blockHash sha256d)

theorem judgeTime_eq_ok_iff {offset : ℕ} {header : Header} :
    judgeTime checkpoint headers offset header = .ok () ↔
      ∀ middle, medianTimePast headers offset = some middle → middle < header.time := by
  unfold judgeTime
  cases medianTimePast headers offset with
  | none => simp
  | some middle =>
    simp only [require_eq_ok_iff, Option.some.injEq, forall_eq']
    exact UInt32.not_le

/-- A turn succeeds exactly when the header names the hash carried, keeps the version floor and
the median, and round trips through the target in force, which its hash meets. -/
theorem judgeHeader_eq_ok_iff {walk next : Walk} {offset : ℕ} {header : Header} :
    judgeHeader sha256d mainnet checkpoint headers walk offset header = .ok next ↔
      header.prevHash = walk.previous ∧
      ¬ (388381 ≤ heightOf checkpoint offset ∧ header.version < 4) ∧
      (∀ middle, medianTimePast headers offset = some middle → middle < header.time) ∧
      ∃ target began,
        atBoundary mainnet checkpoint headers walk offset header = .ok (target, began) ∧
        target ≤ powLimit ∧
        (targetFromBits header.bits = some target ∧ bitsFromTarget target = some header.bits) ∧
        leNat (header.blockHash sha256d).octets ≤ number target ∧
        next = ⟨header.blockHash sha256d, target, began,
          walk.hashes ++ [header.blockHash sha256d]⟩ := by
  have hrules : mainnet.versionFloorFrom = 388381 ∧ mainnet.versionFloor = 4 ∧
      mainnet.powLimit = powLimit := ⟨rfl, rfl, rfl⟩
  simp only [judgeHeader, bind_unit_eq_ok_iff, okOr_bind_eq_ok_iff, require_eq_ok_iff, pure_eq_ok,
    judgeTime_eq_ok_iff, hrules, lessThanOrEqualReversed_eq_true_iff]
  refine and_congr_right fun _ ↦ and_congr_right fun _ ↦ and_congr_right fun _ ↦ ?_
  constructor
  · rintro ⟨target, hexpanded, hpermitted, hrest⟩
    obtain ⟨⟨inForce, began⟩, hboundary, htail⟩ := bind_eq_ok_iff.mp hrest
    simp only [okOr_bind_eq_ok_iff, bind_unit_eq_ok_iff, require_eq_ok_iff,
      Except.ok.injEq] at htail
    obtain ⟨canonical, hcompressed, rfl, rfl, hwork, rfl⟩ := htail
    exact ⟨target, began, hboundary, hpermitted, ⟨hexpanded, hcompressed⟩, hwork, rfl⟩
  · rintro ⟨target, began, hboundary, hpermitted, ⟨hexpanded, hcompressed⟩, hwork, rfl⟩
    refine ⟨target, hexpanded, hpermitted, bind_eq_ok_iff.mpr ⟨(target, began), hboundary, ?_⟩⟩
    simp only [okOr_bind_eq_ok_iff, bind_unit_eq_ok_iff, require_eq_ok_iff]
    exact ⟨header.bits, hcompressed, rfl, trivial, hwork, trivial⟩

section Turn

variable {walk : Walk} {offset : ℕ} {header : Header}
  (hrange : checkpoint.height.toNat + headers.length < 2 ^ 32)
  (hknown : ∀ height, checkpoint.height.toNat < height →
    height ≤ checkpoint.height.toNat + headers.length → 2016 ∣ height →
      2016 ∣ checkpoint.height.toNat ∧ checkpoint.time.isSome)
  (hwalked : Walked sha256d checkpoint headers offset walk)
  (hheader : headers[offset]? = some header)

include hrange hheader in
theorem toNat_heightOf_header :
    (heightOf checkpoint offset).toNat = checkpoint.height.toNat + 1 + offset := by
  have hoffset : offset < headers.length := (List.getElem?_eq_some_iff.mp hheader).1
  exact toNat_heightOf (by omega)

include hrange hheader in
/-- Inside a period nothing changes. -/
theorem atBoundary_within (hperiod : ¬ 2016 ∣ checkpoint.height.toNat + offset + 1) :
    atBoundary mainnet checkpoint headers walk offset header =
      .ok (walk.inForce, walk.periodBegan) := by
  have hheight := toNat_heightOf_header hrange hheader
  have hcloses : ¬ opensPeriod (heightOf checkpoint offset) mainnet.interval := by
    rw [opensPeriod_iff, hheight]
    rwa [Nat.add_right_comm] at hperiod
  rw [atBoundary, if_neg hcloses, pure_eq_ok]

include hrange hknown hwalked hheader in
/-- At a boundary the target is recomputed from the times of the closed period's first and last
blocks. -/
theorem atBoundary_opening (hperiod : 2016 ∣ checkpoint.height.toNat + offset + 1) :
    ∃ began closed,
      BlockTime checkpoint headers (checkpoint.height.toNat + offset + 1 - 2016) began ∧
      BlockTime checkpoint headers (checkpoint.height.toNat + offset) closed ∧
      ∀ target time, atBoundary mainnet checkpoint headers walk offset header = .ok (target, time) ↔
        retarget walk.inForce ((closed : ℤ) - began) = some target ∧ time = some header.time := by
  have hoffset : offset < headers.length := (List.getElem?_eq_some_iff.mp hheader).1
  have hheight := toNat_heightOf_header hrange hheader
  obtain ⟨hbase, htime⟩ :=
    hknown (checkpoint.height.toNat + offset + 1) (by omega) (by omega) hperiod
  obtain ⟨began, hbegan, hfirst⟩ := hwalked.periodBegan hbase htime
  have hfar : 1 ≤ offset := by omega
  obtain ⟨before, hbefore⟩ : ∃ before, headers[offset - 1]? = some before :=
    ⟨_, List.getElem?_eq_getElem (by omega)⟩
  have hclosed : BlockTime checkpoint headers (checkpoint.height.toNat + offset)
      before.time.toNat := by
    have hlast : BlockTime checkpoint headers _ _ := .header hbefore
    rwa [show checkpoint.height.toNat + 1 + (offset - 1) = checkpoint.height.toNat + offset by
      omega] at hlast
  have hopens : opensPeriod (heightOf checkpoint offset) mainnet.interval := by
    rw [opensPeriod_iff, hheight]
    rwa [Nat.add_right_comm] at hperiod
  refine ⟨began.toNat, before.time.toNat, ?_, hclosed, fun target time ↦ ?_⟩
  · have hstart : (checkpoint.height.toNat + offset) / 2016 * 2016 =
        checkpoint.height.toNat + offset + 1 - 2016 := by omega
    rw [hstart] at hfirst
    exact hfirst
  · rw [atBoundary, if_pos hopens, hbegan, okOr_some, bind_ok, checkedDiff_of_le hfar,
      Option.bind_some, hbefore, okOr_some, bind_ok, okOr_bind_eq_ok_iff]
    constructor
    · rintro ⟨found, hretarget, heq⟩
      rw [pure_eq_ok, Except.ok.injEq, Prod.mk.injEq] at heq
      exact ⟨heq.1 ▸ hretarget, heq.2.symm⟩
    · rintro ⟨hretarget, rfl⟩
      exact ⟨target, hretarget, rfl⟩

include hrange hknown hwalked hheader in
/-- The target a turn goes on with is the one in force at its header. -/
theorem inForce_of_atBoundary {target : Octets 32} {time : Option UInt32}
    (hboundary : atBoundary mainnet checkpoint headers walk offset header = .ok (target, time)) :
    InForce checkpoint headers (checkpoint.height.toNat + offset + 1) (number target) ∧
      number target ≤ 0xffff * 2 ^ 208 := by
  by_cases hperiod : 2016 ∣ checkpoint.height.toNat + offset + 1
  · obtain ⟨began, closed, hbegan, hclosed, hiff⟩ :=
      atBoundary_opening hrange hknown hwalked hheader hperiod
    obtain ⟨-, hnumber⟩ := retarget_eq_some_iff.mp ((hiff target time).mp hboundary).1
    rw [hnumber]
    exact ⟨.boundary hwalked.inForce hperiod hbegan hclosed, retargeted_le _ _⟩
  · rw [atBoundary_within hrange hheader hperiod, Except.ok.injEq, Prod.mk.injEq] at hboundary
    obtain ⟨rfl, -⟩ := hboundary
    exact ⟨.within hwalked.inForce hperiod, hwalked.permitted⟩

include hrange hknown hwalked hheader in
/-- The time a turn goes on with is that of the first block of the period of its header. -/
theorem periodBegan_of_atBoundary {target : Octets 32} {time : Option UInt32}
    (hboundary : atBoundary mainnet checkpoint headers walk offset header = .ok (target, time))
    (hbase : 2016 ∣ checkpoint.height.toNat) (htime : checkpoint.time.isSome) :
    ∃ began, time = some began ∧ BlockTime checkpoint headers
      ((checkpoint.height.toNat + (offset + 1)) / 2016 * 2016) began.toNat := by
  by_cases hperiod : 2016 ∣ checkpoint.height.toNat + offset + 1
  · obtain ⟨began, closed, hbegan, hclosed, hiff⟩ :=
      atBoundary_opening hrange hknown hwalked hheader hperiod
    refine ⟨header.time, ((hiff target time).mp hboundary).2, ?_⟩
    have hstart : (checkpoint.height.toNat + (offset + 1)) / 2016 * 2016 =
        checkpoint.height.toNat + 1 + offset := by omega
    rw [hstart]
    exact .header hheader
  · rw [atBoundary_within hrange hheader hperiod, Except.ok.injEq, Prod.mk.injEq] at hboundary
    obtain ⟨-, rfl⟩ := hboundary
    have hstart : (checkpoint.height.toNat + (offset + 1)) / 2016 =
        (checkpoint.height.toNat + offset) / 2016 := by omega
    rw [hstart]
    exact hwalked.periodBegan hbase htime

include hrange hknown hwalked hheader in
/-- Where a target other than zero is in force at a header, a turn goes on with it. -/
theorem exists_atBoundary {value : ℕ} (hvalue : value ≠ 0)
    (hforce : InForce checkpoint headers (checkpoint.height.toNat + offset + 1) value) :
    ∃ target time, number target = value ∧
      atBoundary mainnet checkpoint headers walk offset header = .ok (target, time) := by
  by_cases hperiod : 2016 ∣ checkpoint.height.toNat + offset + 1
  · obtain ⟨began, closed, hbegan, hclosed, hiff⟩ :=
      atBoundary_opening hrange hknown hwalked hheader hperiod
    have heq : value = retargeted (number walk.inForce) ((closed : ℤ) - began) :=
      hforce.unique (.boundary hwalked.inForce hperiod hbegan hclosed)
    have hscaled : scaledTarget (number walk.inForce) ((closed : ℤ) - began) ≠ 0 := by
      intro hzero
      exact hvalue (heq.trans (retargeted_eq_zero hzero))
    obtain ⟨target, htarget⟩ := exists_number_eq
      (lt_of_le_of_lt (retargeted_le (number walk.inForce) ((closed : ℤ) - began)) (by norm_num))
    refine ⟨target, some header.time, htarget.trans heq.symm, (hiff _ _).mpr ⟨?_, rfl⟩⟩
    exact retarget_eq_some_iff.mpr ⟨hscaled, htarget⟩
  · exact ⟨walk.inForce, walk.periodBegan,
      InForce.unique (.within hwalked.inForce hperiod) hforce,
      atBoundary_within hrange hheader hperiod⟩

include hrange hheader in
/-- The version check of a turn is the version rule of its header. -/
theorem version_check_iff :
    ¬ (388381 ≤ heightOf checkpoint offset ∧ header.version < 4) ↔
      (388381 ≤ checkpoint.height.toNat + 1 + offset → 4 ≤ header.version) := by
  have hheight := toNat_heightOf_header hrange hheader
  have hfloor : (388381 : UInt32).toNat = 388381 := rfl
  rw [UInt32.le_iff_toNat_le, hheight, hfloor, not_and, not_lt]

include hheader in
/-- The median check of a turn is the median rule of its header. -/
theorem median_check_iff :
    (∀ middle, medianTimePast headers offset = some middle → middle < header.time) ↔
      (11 ≤ offset → ∃ middle,
        median (((headers.drop (offset - 11)).take 11).map Header.time) = some middle ∧
          middle < header.time) := by
  have hoffset : offset < headers.length := (List.getElem?_eq_some_iff.mp hheader).1
  rw [medianTimePast_eq (by omega)]
  by_cases hfar : 11 ≤ offset
  · have hlength : (((headers.drop (offset - 11)).take 11).map Header.time).length = 11 := by
      rw [List.length_map, List.length_take, List.length_drop]
      omega
    obtain ⟨middle, hmiddle⟩ := exists_median hlength
    rw [if_pos hfar, hmiddle]
    simp only [Option.some.injEq, forall_eq', hfar, true_implies, exists_eq_left']
  · simp [hfar]

include hrange hknown hwalked hheader in
/-- A turn that succeeds was over a header that follows the rules, and the walk knows one header
more. -/
theorem walked_of_judgeHeader {next : Walk}
    (hjudged : judgeHeader sha256d mainnet checkpoint headers walk offset header = .ok next) :
    HeaderFollowsRules sha256d checkpoint headers offset header ∧
      Walked sha256d checkpoint headers (offset + 1) next := by
  obtain ⟨hprevious, hversion, hmedian, target, began, hboundary, hpermitted, hround, hwork, rfl⟩ :=
    judgeHeader_eq_ok_iff.mp hjudged
  obtain ⟨hforce, hle⟩ := inForce_of_atBoundary hrange hknown hwalked hheader hboundary
  have hcompact := (roundTrip_iff (lt_of_le_of_lt hle (by norm_num))).mp hround
  constructor
  · refine ⟨hprevious ▸ hwalked.previous, (version_check_iff hrange hheader).mp hversion,
      (median_check_iff hheader).mp hmedian, number target, ?_, hcompact, hwork⟩
    rw [Nat.add_right_comm]
    exact hforce
  · refine ⟨?_, hforce, hle, ?_, ?_⟩
    · have hhash : BlockHash sha256d checkpoint headers _ _ := .header hheader
      rwa [Nat.add_right_comm, Nat.add_assoc] at hhash
    · exact periodBegan_of_atBoundary hrange hknown hwalked hheader hboundary
    · show walk.hashes ++ [header.blockHash sha256d] = _
      rw [hwalked.hashes, List.take_add_one, hheader, Option.toList_some, List.map_append,
        List.map_singleton]

include hrange hknown hwalked hheader in
/-- A turn over a header that follows the rules succeeds. -/
theorem exists_judgeHeader
    (hfollows : HeaderFollowsRules sha256d checkpoint headers offset header) :
    ∃ next, judgeHeader sha256d mainnet checkpoint headers walk offset header = .ok next := by
  obtain ⟨value, hforce, hcompact, hwork⟩ := hfollows.meets_target
  rw [Nat.add_right_comm] at hforce
  obtain ⟨target, began, rfl, hboundary⟩ :=
    exists_atBoundary hrange hknown hwalked hheader hcompact.1 hforce
  have hle := (inForce_of_atBoundary hrange hknown hwalked hheader hboundary).2
  refine ⟨_, judgeHeader_eq_ok_iff.mpr
    ⟨blockHash_unique hfollows.names_predecessor hwalked.previous,
    (version_check_iff hrange hheader).mpr hfollows.version_floor,
    (median_check_iff hheader).mpr hfollows.after_median, target, began, hboundary, ?_,
    (roundTrip_iff (lt_of_le_of_lt hle (by norm_num))).mpr hcompact, hwork, rfl⟩⟩
  rwa [← number_le_number_iff, number_powLimit]

end Turn

/-! ### The whole walk -/

section Run

variable (hrange : checkpoint.height.toNat + headers.length < 2 ^ 32)
  (hknown : ∀ height, checkpoint.height.toNat < height →
    height ≤ checkpoint.height.toNat + headers.length → 2016 ∣ height →
      2016 ∣ checkpoint.height.toNat ∧ checkpoint.time.isSome)

include hrange hknown in
/-- A walk that succeeds was over headers that follow the rules, and knows all of them. -/
theorem walked_of_walkFrom {rest : List Header} {offset : ℕ} {walk final : Walk}
    (hrest : headers.drop offset = rest) (hwalked : Walked sha256d checkpoint headers offset walk)
    (hfinal : walkFrom sha256d mainnet checkpoint headers walk offset rest = .ok final) :
    (∀ position header, offset ≤ position → headers[position]? = some header →
      HeaderFollowsRules sha256d checkpoint headers position header) ∧
      Walked sha256d checkpoint headers (offset + rest.length) final := by
  induction rest generalizing offset walk with
  | nil =>
    rw [walkFrom, Except.ok.injEq] at hfinal
    subst hfinal
    refine ⟨fun position header hposition hheader ↦ ?_, hwalked⟩
    have hlength := List.drop_eq_nil_iff.mp hrest
    have hinside := (List.getElem?_eq_some_iff.mp hheader).1
    omega
  | cons header rest ih =>
    rw [walkFrom] at hfinal
    obtain ⟨next, hjudged, hwalk⟩ := bind_eq_ok_iff.mp hfinal
    have hheader : headers[offset]? = some header := by
      rw [← List.head?_drop, hrest, List.head?_cons]
    have htail : headers.drop (offset + 1) = rest := by
      rw [← List.tail_drop, hrest, List.tail_cons]
    obtain ⟨hfollows, hnext⟩ := walked_of_judgeHeader hrange hknown hwalked hheader hjudged
    obtain ⟨hafter, hdone⟩ := ih htail hnext hwalk
    constructor
    · intro position other hposition hother
      by_cases hsame : position = offset
      · subst hsame
        rw [hheader, Option.some.injEq] at hother
        rwa [← hother]
      · exact hafter position other (by omega) hother
    · rw [List.length_cons, Nat.add_comm rest.length, ← Nat.add_assoc]
      exact hdone

include hrange hknown in
/-- A walk over headers that follow the rules succeeds. -/
theorem exists_walkFrom {rest : List Header} {offset : ℕ} {walk : Walk}
    (hrest : headers.drop offset = rest) (hwalked : Walked sha256d checkpoint headers offset walk)
    (hfollows : ∀ position header, headers[position]? = some header →
      HeaderFollowsRules sha256d checkpoint headers position header) :
    ∃ final, walkFrom sha256d mainnet checkpoint headers walk offset rest = .ok final := by
  induction rest generalizing offset walk with
  | nil => exact ⟨walk, rfl⟩
  | cons header rest ih =>
    have hheader : headers[offset]? = some header := by
      rw [← List.head?_drop, hrest, List.head?_cons]
    have htail : headers.drop (offset + 1) = rest := by
      rw [← List.tail_drop, hrest, List.tail_cons]
    obtain ⟨next, hjudged⟩ :=
      exists_judgeHeader hrange hknown hwalked hheader (hfollows offset header hheader)
    obtain ⟨-, hnext⟩ := walked_of_judgeHeader hrange hknown hwalked hheader hjudged
    obtain ⟨final, hfinal⟩ := ih htail hnext
    exact ⟨final, by rw [walkFrom, hjudged, bind_ok, hfinal]⟩

end Run

/-- The walk starts at the checkpoint. -/
theorem walked_zero (hpermitted : number checkpoint.target ≤ 0xffff * 2 ^ 208) :
    Walked sha256d checkpoint headers 0
      ⟨checkpoint.hash, checkpoint.target, checkpoint.time, []⟩ := by
  refine ⟨.checkpoint, .checkpoint, hpermitted, fun hbase htime ↦ ?_, rfl⟩
  obtain ⟨time, hsome⟩ := Option.isSome_iff_exists.mp htime
  have hstart : (checkpoint.height.toNat + 0) / 2016 * 2016 = checkpoint.height.toNat := by omega
  rw [hstart]
  exact ⟨time, hsome, .checkpoint hsome⟩

/-- Below the greatest height, the verification accepts exactly the ranges that follow the header
rules, and returns the hashes of their headers in order. -/
theorem verifyChain_eq_ok_iff (sha256d : DoubleHash) (checkpoint : Checkpoint)
    (headers : List Header) (hrange : checkpoint.height.toNat + headers.length < 2 ^ 32)
    (hashes : List (Octets 32)) :
    verifyChain sha256d checkpoint headers = .ok hashes ↔
      FollowsRules sha256d checkpoint headers ∧
        hashes = headers.map (Header.blockHash sha256d) := by
  have hlimit : checkpoint.target ≤ mainnet.powLimit ↔
      number checkpoint.target ≤ 0xffff * 2 ^ 208 := by
    rw [← number_powLimit]
    exact number_le_number_iff.symm
  rw [verifyChain, verifyChainIn, bind_unit_eq_ok_iff, require_eq_ok_iff, bind_unit_eq_ok_iff,
    require_eq_ok_iff, boundary_check_iff hrange, hlimit]
  constructor
  · rintro ⟨hpermitted, hknown, hwalk⟩
    obtain ⟨final, hfinal, hhashes⟩ := bind_eq_ok_iff.mp hwalk
    obtain ⟨hfollows, hdone⟩ :=
      walked_of_walkFrom hrange hknown List.drop_zero (walked_zero hpermitted) hfinal
    refine ⟨⟨hpermitted, hknown, fun offset header ↦ hfollows offset header (Nat.zero_le _)⟩, ?_⟩
    rw [pure_eq_ok, Except.ok.injEq, hdone.hashes, Nat.zero_add, List.take_length] at hhashes
    exact hhashes.symm
  · rintro ⟨hrules, rfl⟩
    refine ⟨hrules.target_permitted, hrules.boundary_known, ?_⟩
    obtain ⟨final, hfinal⟩ := exists_walkFrom hrange hrules.boundary_known List.drop_zero
      (walked_zero hrules.target_permitted) hrules.each_header
    obtain ⟨-, hdone⟩ := walked_of_walkFrom hrange hrules.boundary_known List.drop_zero
      (walked_zero hrules.target_permitted) hfinal
    rw [hfinal, bind_ok, pure_eq_ok, hdone.hashes, Nat.zero_add, List.take_length]

/-- A block of the main network: its hash, and what its header adds to the hash of the block below
and to the target. -/
structure MinedBlock where
  hash : ℕ
  merkleRoot : ℕ
  version : ℕ
  time : ℕ
  nonce : ℕ

/-- The header of a block above another. -/
def MinedBlock.header (block : MinedBlock) (below : ℕ) : Header :=
  ⟨⟨leList 4 block.version ++ leList 32 below ++ leList 32 block.merkleRoot ++
    leList 4 block.time ++ leList 4 0x17021ef0 ++ leList 4 block.nonce, by simp⟩⟩

/-- The headers of blocks above another. -/
def headersAbove : ℕ → List MinedBlock → List Header
  | _, [] => []
  | below, block :: rest => block.header below :: headersAbove block.hash rest

/-- The block 971178 and its target. -/
def minedCheckpoint : Checkpoint where
  height := 971178
  hash := leOctets 32 0xd64c47fb082a1a974e06279a62881b116994f992bd8f
  target := (targetFromBits 0x17021ef0).getD powLimit
  time := none

/-- The blocks from 971179 on. -/
def minedBlocks : List MinedBlock :=
  [⟨0x5b441bc1aaf349673d1ce3ba96410fcb0c5b11aca8c0,
      0x9bd825dd1411ff6543b9769e66f85e9d962cdf11db066c38ce29a1dde76092f8,
      562298880, 1791861114, 3174818759⟩,
    ⟨0x94e8443197ab6c2dd858f9ab553ffa3ebce52f97335e,
      0x2a04db0e338e2f272b880945aa39aa09c1325236de1b801e69a43f86477f1d7a,
      537264128, 1791861373, 2578433666⟩,
    ⟨0x21b2b1f5273ad68e9982ea9645ffdb59986c54cd0060d,
      0xf524b8d49c5025299ef1ab7873face39e4deef5f7652a2f181d703caa2ec8ab6,
      549249024, 1791861580, 659880519⟩,
    ⟨0x1a219af12a48ee90070cfe2c6d331db85710889015f68,
      0x4d482984729ddc17e6aaeac003a4f532d8e4bb7cab1f148b3de22e97cb768491,
      686194688, 1791861805, 4072448313⟩,
    ⟨0x1ecec10f99a3ce64af63d9a2cf65a3f4dae4ccaf2d9b3,
      0xee3069ccc2ea3929b4a781398b3ff6575df645c35cda1d853001cc1ad8b46caa,
      576159744, 1791862208, 2592450608⟩,
    ⟨0x1c1081712f82ae95200474f8955c9730dc21fa690de,
      0xe838a821098ab38a331c24c297ea8658693b02ff8f0138546e5e6a7e9919c9cf,
      536928256, 1791863325, 2389629730⟩,
    ⟨0x149c5cdd2d0ddda06104f784093556a908d2b6f48ca38,
      0xe18db132cc48df7a765cf16df3756f27a81300835243d76a16fffdf0ebd792fb,
      959528960, 1791863397, 3658191084⟩,
    ⟨0x15eaadbd2109fdadf5894919682dfa03a3dfec3c8d317,
      0x30c3af93feec7a35d2159c79a93a07e613502503fb38b7fff40f9af73ce4950c,
      982589440, 1791863418, 59775672⟩,
    ⟨0x175f543064dacf039d59335fffa5c3219f6446d808325,
      0xcbce422c4637e4fa0acea7add7bf05f22743e3d8f5a3ef39477f0c43e8a3d79b,
      536870912, 1791864521, 3598681357⟩,
    ⟨0xcec96d0357ef97fd4ac0bb907c256c5e092398b1484f,
      0xf9f976cc012a0358a3d68ca0870e0492f83a034c5887daeb026711ef724cc098,
      584818688, 1791864532, 1355421757⟩,
    ⟨0x215796f426b8ad599054d4721b029f17ae379c15ebcf9,
      0xa4bd68df3e580423c91283160d42342c693b70d61456395616fb21bd679a6a0c,
      561774592, 1791865366, 45105245⟩,
    ⟨0xe9befa3b61541c61e06959fde7121cca892dc043e4d,
      0x5ee5b36665a65a767e2eaa0aad2996cfdb274df6ca50830121229edf30fde8d2,
      703815680, 1791866189, 2344079454⟩,
    ⟨0x191abfb5cce10d6b45e155a3d2d1fb4fdc1c8316ed8c8,
      0x5b6d3b08ad9b069aad5707fd9e0d19d89a384dd0aaa45771de1ff3d98e69737c,
      571572224, 1791866421, 427801690⟩]

def minedHeaders : List Header :=
  headersAbove 0xd64c47fb082a1a974e06279a62881b116994f992bd8f minedBlocks

/-- The double hashes of their headers. -/
def minedHash (message : List UInt8) : Octets 32 :=
  ((minedHeaders.zip minedBlocks).find? fun mined ↦ mined.1.raw.octets = message).elim
    (Octets.zeros 32) fun mined ↦ leOctets 32 mined.2.hash

theorem mined_links : ∀ offset < 12,
    minedHeaders[offset + 1]?.map Header.prevHash =
      minedHeaders[offset]?.map (Header.blockHash minedHash) := by
  decide +kernel

theorem mined_work : ∀ header ∈ minedHeaders, 4 ≤ header.version ∧
    (number minedCheckpoint.target ≠ 0 ∧
      header.bits.toNat = compactOf (number minedCheckpoint.target) ∧
      compactValue header.bits.toNat = number minedCheckpoint.target) ∧
    leNat (header.blockHash minedHash).octets ≤ number minedCheckpoint.target := by
  decide +kernel

theorem mined_times : (minedHeaders.map Header.time).Pairwise (· < ·) := by
  decide +kernel

/-- Where the times increase, each is above the median of the eleven before it. -/
theorem after_median_of_increasing (htimes : (headers.map Header.time).Pairwise (· < ·))
    {offset : ℕ} {header : Header} (hheader : headers[offset]? = some header)
    (hfar : 11 ≤ offset) : ∃ middle,
      median (((headers.drop (offset - 11)).take 11).map Header.time) = some middle ∧
        middle < header.time := by
  obtain ⟨hoffset, hfound⟩ := List.getElem?_eq_some_iff.mp hheader
  have hsorted : (((headers.drop (offset - 11)).take 11).map Header.time).Pairwise
      fun left right ↦ decide (left ≤ right) = true := by
    rw [List.map_take, List.map_drop]
    refine ((htimes.sublist (List.drop_sublist _ _)).sublist (List.take_sublist _ _)).imp ?_
    intro left right hless
    exact decide_eq_true (UInt32.le_of_lt hless)
  refine ⟨headers[offset - 6].time, ?_, ?_⟩
  · rw [median, List.mergeSort_of_pairwise hsorted, List.length_map, List.length_take,
      List.length_drop, min_eq_left (by omega), List.getElem?_map, List.getElem?_take,
      if_pos (by omega), List.getElem?_drop, List.getElem?_eq_getElem (by omega)]
    simp only [Option.map_some, Nat.reduceDiv, show offset - 11 + 5 = offset - 6 by omega]
  · have hless := List.pairwise_iff_getElem.mp htimes (offset - 6) offset (by simp; omega)
      (by simpa using hoffset) (by omega)
    rw [List.getElem_map, List.getElem_map, hfound] at hless
    exact hless

theorem mined_inForce {offset : ℕ} (hoffset : offset ≤ 13) :
    InForce minedCheckpoint minedHeaders (minedCheckpoint.height.toNat + offset)
      (number minedCheckpoint.target) := by
  have hheight : minedCheckpoint.height.toNat = 971178 := rfl
  induction offset with
  | zero => exact .checkpoint
  | succ offset ih =>
    have hperiod : ¬ 2016 ∣ minedCheckpoint.height.toNat + offset + 1 := by
      rw [hheight]
      omega
    exact .within (ih (by omega)) hperiod

theorem followsRules_mined : FollowsRules minedHash minedCheckpoint minedHeaders where
  target_permitted := by decide +kernel
  boundary_known height hbelow hwithin hperiod := by
    have hheight : minedCheckpoint.height.toNat = 971178 := rfl
    have hlength : minedHeaders.length = 13 := rfl
    rw [hheight] at hbelow hwithin
    omega
  each_header offset header hheader := by
    obtain ⟨hversion, hbits, hwork⟩ := mined_work header (List.mem_of_getElem? hheader)
    have hoffset : offset < 13 := (List.getElem?_eq_some_iff.mp hheader).1
    constructor
    · cases offset with
      | zero =>
        have hfirst : minedHeaders[0]?.map Header.prevHash = some minedCheckpoint.hash := by
          decide +kernel
        rw [hheader, Option.map_some, Option.some.injEq] at hfirst
        rw [hfirst]
        exact .checkpoint
      | succ offset =>
        have hlink := mined_links offset (by omega)
        rw [hheader] at hlink
        obtain ⟨below, hbelow, hsame⟩ := Option.map_eq_some_iff.mp hlink.symm
        rw [← hsame, ← Nat.add_assoc, Nat.add_right_comm]
        exact .header hbelow
    · exact fun _ ↦ hversion
    · exact after_median_of_increasing mined_times hheader
    · refine ⟨number minedCheckpoint.target, ?_, hbits, hwork⟩
      rw [Nat.add_assoc]
      exact mined_inForce (by omega)

/-- Thirteen blocks are verified, the last two above the median of the eleven before them. -/
theorem verifyChain_eq_ok_iff_mined :
    verifyChain minedHash minedCheckpoint minedHeaders =
      .ok (minedBlocks.map fun block ↦ leOctets 32 block.hash) :=
  (verifyChain_eq_ok_iff minedHash minedCheckpoint minedHeaders (by decide +kernel) _).mpr
    ⟨followsRules_mined, by decide +kernel⟩

end AnchoredLog.Client.HeaderRules
