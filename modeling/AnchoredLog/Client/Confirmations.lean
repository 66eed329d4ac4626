import AnchoredLog.Client.HeaderRules
import AnchoredLog.Client.Receipts

/-!
# Confirmations of a receipt's attestation

A claim that a block commits a digest is confirmed by a verified range of headers in which the
header at the claimed height carries the digest as its merkle root and at least six headers lie
above it; with fewer above it, the claim is pending.

What the verification of a header reads of the range lies below that header, so a verified range
stays verified when it is cut short (`verifyChain_of_append`), and what it says of a claim changes
only from pending to confirmed when headers are added.
-/

set_option autoImplicit false
set_option relaxedAutoImplicit false

namespace AnchoredLog.Client.Confirmations

open Library.ByteCodec Library.Fallible CompactTarget BitcoinHeaders HeaderRules Receipts

/-! ### The functions of the source -/

section Verification

variable (sha256d : DoubleHash) (rules : Network) (checkpoint : Checkpoint) (headers : List Header)

/-- The greatest height a range covers. -/
def covered : UInt32 :=
  saturatingAdd checkpoint.height (saturatingFrom headers.length)

/-- The position of a height in the range above a checkpoint. -/
def offsetOf (height : UInt32) : Except HeaderRefused ℕ :=
  okOr ((checkedDiff height.toNat checkpoint.height.toNat).bind fun above ↦ checkedDiff above 1)
    (.heightNotCovered height (covered checkpoint headers))

/-- The header of the block at a height, from a range that is verified first. -/
def headerAtIn (height : UInt32) : Except HeaderRefused Header := do
  let _ ← verifyChainIn sha256d rules checkpoint headers
  let offset ← offsetOf checkpoint headers height
  okOr headers[offset]? (.heightNotCovered height (covered checkpoint headers))

end Verification

/-- A block that was seen to commit the digest of a receipt. -/
structure Confirmed where
  height : UInt32
  merkleRoot : Octets 32
  time : UInt32
  checkedAgainstMedianTimePast : Bool
deriving DecidableEq

/-- How many verified headers have to lie above the attested block. -/
def confirmationDepth : ℕ :=
  6

/-- What a verified range says about the block a receipt names. -/
inductive Confirmation
  | confirmed (block : Confirmed)
  | pending (height : UInt32) (depth required : ℕ)
deriving DecidableEq

section Confirm

variable (sha256d : DoubleHash) (claim : BitcoinClaim) (checkpoint : Checkpoint)
  (headers : List Header)

/-- Confirms the claim of a receipt against a range of headers. -/
def confirmIn (rules : Network) : Except HeaderRefused Confirmation := do
  let header ← headerAtIn sha256d rules checkpoint headers claim.height
  let offset ← offsetOf checkpoint headers claim.height
  require (header.merkleRoot = claim.attestedDigest)
    (.digestNotInTheBlock claim.height (hex claim.attestedDigest.octets)
      (hex header.merkleRoot.octets))
  let depth := headers.length - offset - 1
  if depth < confirmationDepth then
    pure (.pending claim.height depth confirmationDepth)
  else
    pure (.confirmed ⟨claim.height, header.merkleRoot, header.time,
      (medianTimePast headers offset).isSome⟩)

/-- The confirmation by the rules of the main network. -/
def confirm : Except HeaderRefused Confirmation :=
  confirmIn sha256d claim checkpoint headers mainnet

end Confirm

variable {sha256d : DoubleHash} {checkpoint : Checkpoint} {headers more : List Header}

/-! ### Ranges cut short -/

theorem medianTimePast_append {offset : ℕ} (hoffset : offset ≤ headers.length) :
    medianTimePast (headers ++ more) offset = medianTimePast headers offset := by
  unfold medianTimePast
  cases hstart : checkedDiff offset medianTimeSpan with
  | none => rfl
  | some start =>
    have hbelow : start ≤ offset := (checkedDiff_eq_some_iff.mp hstart).2 ▸ Nat.sub_le _ _
    have hwindow : ((headers ++ more).drop start).take (offset - start) =
        (headers.drop start).take (offset - start) := by
      rw [List.drop_append_of_le_length (hbelow.trans hoffset), List.take_append_of_le_length]
      rw [List.length_drop]
      exact Nat.sub_le_sub_right hoffset start
    simp only [Option.bind_eq_bind, Option.bind_some, hwindow]

theorem atBoundary_append {walk : Walk} {offset : ℕ} {header : Header}
    {next : Octets 32 × Option UInt32} (hoffset : offset < headers.length) :
    atBoundary mainnet checkpoint (headers ++ more) walk offset header = .ok next ↔
      atBoundary mainnet checkpoint headers walk offset header = .ok next := by
  have hbefore : ((checkedDiff offset 1).bind fun i ↦ (headers ++ more)[i]?) =
      (checkedDiff offset 1).bind fun i ↦ headers[i]? := by
    cases hprevious : checkedDiff offset 1 with
    | none => rfl
    | some previous =>
      have hbelow := (checkedDiff_eq_some_iff.mp hprevious).2
      exact List.getElem?_append_left (by omega)
  unfold atBoundary
  by_cases hopens : opensPeriod (heightOf checkpoint offset) mainnet.interval
  · simp only [if_pos hopens, okOr_bind_eq_ok_iff, hbefore]
  · simp only [if_neg hopens]

/-- What a turn reads of the range lies below its header. -/
theorem judgeHeader_append {walk next : Walk} {offset : ℕ} {header : Header}
    (hoffset : offset < headers.length) :
    judgeHeader sha256d mainnet checkpoint (headers ++ more) walk offset header = .ok next ↔
      judgeHeader sha256d mainnet checkpoint headers walk offset header = .ok next := by
  simp only [judgeHeader_eq_ok_iff, medianTimePast_append hoffset.le, atBoundary_append hoffset]

theorem walkFrom_context {rest : List Header} {walk final : Walk} {offset : ℕ}
    (hinside : offset + rest.length ≤ headers.length) :
    walkFrom sha256d mainnet checkpoint (headers ++ more) walk offset rest = .ok final ↔
      walkFrom sha256d mainnet checkpoint headers walk offset rest = .ok final := by
  induction rest generalizing walk offset with
  | nil => rfl
  | cons header rest ih =>
    rw [List.length_cons] at hinside
    have hjudges (next : Walk) := @judgeHeader_append sha256d checkpoint headers more walk next
      offset header (by omega)
    have hrest (next : Walk) := @ih next (offset + 1) (by omega)
    simp only [walkFrom, bind_eq_ok_iff, hjudges, hrest]

theorem walkFrom_append {first second : List Header} {walk final : Walk} {offset : ℕ}
    (hwalk : walkFrom sha256d mainnet checkpoint headers walk offset (first ++ second) =
      .ok final) :
    ∃ middle, walkFrom sha256d mainnet checkpoint headers walk offset first = .ok middle ∧
      walkFrom sha256d mainnet checkpoint headers middle (offset + first.length) second =
        .ok final := by
  induction first generalizing walk offset with
  | nil => exact ⟨walk, rfl, hwalk⟩
  | cons header first ih =>
    rw [List.cons_append, walkFrom] at hwalk
    obtain ⟨next, hjudged, hrest⟩ := bind_eq_ok_iff.mp hwalk
    obtain ⟨middle, hfirst, hsecond⟩ := ih hrest
    refine ⟨middle, by rw [walkFrom, hjudged, bind_ok, hfirst], ?_⟩
    rw [List.length_cons, Nat.add_comm first.length, ← Nat.add_assoc]
    exact hsecond

theorem hashes_of_walkFrom {rest : List Header} {walk final : Walk} {offset : ℕ}
    (hwalk : walkFrom sha256d mainnet checkpoint headers walk offset rest = .ok final) :
    final.hashes = walk.hashes ++ rest.map (Header.blockHash sha256d) := by
  induction rest generalizing walk offset with
  | nil =>
    rw [walkFrom, Except.ok.injEq] at hwalk
    rw [hwalk, List.map_nil, List.append_nil]
  | cons header rest ih =>
    rw [walkFrom] at hwalk
    obtain ⟨next, hjudged, hrest⟩ := bind_eq_ok_iff.mp hwalk
    obtain ⟨-, -, -, target, began, -, -, -, -, rfl⟩ := judgeHeader_eq_ok_iff.mp hjudged
    rw [ih hrest, List.map_cons, List.append_assoc, List.singleton_append]

theorem toNat_covered : (covered checkpoint headers).toNat =
    min (checkpoint.height.toNat + headers.length) (2 ^ 32 - 1) := by
  have hheight := checkpoint.height.toNat_lt
  have hgreatest : (0xffffffff : UInt32).toNat = 2 ^ 32 - 1 := rfl
  by_cases hcount : headers.length < 2 ^ 32
  · by_cases hsum : checkpoint.height.toNat + headers.length < 2 ^ 32
    · rw [covered, toNat_saturatingAdd (by rwa [toNat_saturatingFrom hcount]),
        toNat_saturatingFrom hcount]
      omega
    · rw [covered, saturatingAdd, if_neg (by rwa [toNat_saturatingFrom hcount]), hgreatest]
      omega
  · have hsaturated : saturatingFrom headers.length = 0xffffffff := if_neg hcount
    rw [covered, hsaturated, saturatingAdd]
    split
    · rw [UInt32.toNat_add, hgreatest]
      omega
    · rw [hgreatest]
      omega

/-- A range cut short leaves the period of its checkpoint only when the whole range does. -/
theorem tipPeriod_eq_of_append
    (htip : tipPeriod mainnet checkpoint (headers ++ more) =
      period checkpoint.height mainnet.interval) :
    tipPeriod mainnet checkpoint headers = period checkpoint.height mainnet.interval := by
  have hwhole : (tipPeriod mainnet checkpoint (headers ++ more)).toNat =
      (covered checkpoint (headers ++ more)).toNat / 2016 := toNat_period _
  have hcut : (tipPeriod mainnet checkpoint headers).toNat =
      (covered checkpoint headers).toNat / 2016 := toNat_period _
  rw [toNat_covered, List.length_append] at hwhole
  rw [toNat_covered] at hcut
  rw [← UInt32.toNat_inj, toNat_period] at htip ⊢
  have hheight := checkpoint.height.toNat_lt
  omega

/-- A verified range stays verified when it is cut short. -/
theorem verifyChain_of_append {hashes : List (Octets 32)}
    (hverified : verifyChain sha256d checkpoint (headers ++ more) = .ok hashes) :
    verifyChain sha256d checkpoint headers = .ok (hashes.take headers.length) := by
  rw [verifyChain, verifyChainIn, bind_unit_eq_ok_iff, require_eq_ok_iff, bind_unit_eq_ok_iff,
    require_eq_ok_iff] at hverified ⊢
  obtain ⟨hpermitted, hboundary, hwalk⟩ := hverified
  obtain ⟨final, hfinal, hhashes⟩ := bind_eq_ok_iff.mp hwalk
  obtain ⟨middle, hfirst, hsecond⟩ := walkFrom_append hfinal
  have hcut := (walkFrom_context (Nat.zero_add headers.length).le).mp hfirst
  refine ⟨hpermitted, ?_, bind_eq_ok_iff.mpr ⟨middle, hcut, ?_⟩⟩
  · rintro ⟨hleaves, hunknown⟩
    exact hboundary ⟨fun htip ↦ hleaves (tipPeriod_eq_of_append htip), hunknown⟩
  · rw [pure_eq_ok, Except.ok.injEq] at hhashes ⊢
    rw [← hhashes, hashes_of_walkFrom hsecond, hashes_of_walkFrom hfirst, List.nil_append,
      List.take_left' (List.length_map _)]

/-! ### What a verified range says of a claim -/

theorem offsetOf_eq_ok_iff {height : UInt32} {offset : ℕ} :
    offsetOf checkpoint headers height = .ok offset ↔
      height.toNat = checkpoint.height.toNat + 1 + offset := by
  rw [offsetOf, okOr_eq_ok_iff, Option.bind_eq_some_iff]
  simp only [checkedDiff_eq_some_iff]
  constructor
  · rintro ⟨above, ⟨hle, rfl⟩, hone, rfl⟩
    omega
  · intro hheight
    exact ⟨1 + offset, by omega, by omega, by omega⟩

section Verified

variable {claim : BitcoinClaim} {hashes : List (Octets 32)} {offset : ℕ} {header : Header}
  (hverified : verifyChain sha256d checkpoint headers = .ok hashes)

include hverified in
/-- The answer is read off the header at the claimed height. -/
theorem confirm_of_header
    (hheight : claim.height.toNat = checkpoint.height.toNat + 1 + offset)
    (hheader : headers[offset]? = some header) :
    confirm sha256d claim checkpoint headers =
      if header.merkleRoot = claim.attestedDigest then
        if headers.length - (offset + 1) < confirmationDepth then
          .ok (.pending claim.height (headers.length - (offset + 1)) confirmationDepth)
        else
          .ok (.confirmed ⟨claim.height, header.merkleRoot, header.time,
            (medianTimePast headers offset).isSome⟩)
      else
        .error (.digestNotInTheBlock claim.height (hex claim.attestedDigest.octets)
          (hex header.merkleRoot.octets)) := by
  have hoffset : offsetOf checkpoint headers claim.height = .ok offset :=
    offsetOf_eq_ok_iff.mpr hheight
  have hread : headerAtIn sha256d mainnet checkpoint headers claim.height = .ok header := by
    rw [verifyChain] at hverified
    rw [headerAtIn, hverified, bind_ok, hoffset, bind_ok, hheader, okOr_some]
  rw [confirm, confirmIn, hread, bind_ok, hoffset, bind_ok, Nat.sub_sub]
  by_cases hdigest : header.merkleRoot = claim.attestedDigest
  · rw [if_pos hdigest, require_of_true hdigest]
    rfl
  · rw [if_neg hdigest, require_of_false hdigest]
    rfl

include hverified in
/-- A claimed height without a header in the range is refused for that. -/
theorem exists_header_or_heightNotCovered :
    (∃ offset header, claim.height.toNat = checkpoint.height.toNat + 1 + offset ∧
      headers[offset]? = some header) ∨
    ∃ top, confirm sha256d claim checkpoint headers =
      .error (.heightNotCovered claim.height top) := by
  rw [verifyChain] at hverified
  cases hoffset : offsetOf checkpoint headers claim.height with
  | error reason =>
    have hreason : reason = .heightNotCovered claim.height (covered checkpoint headers) :=
      eq_of_okOr_eq_error hoffset
    refine .inr ⟨covered checkpoint headers, ?_⟩
    rw [confirm, confirmIn, headerAtIn, hverified, bind_ok, hoffset, hreason]
    rfl
  | ok offset =>
    cases hheader : headers[offset]? with
    | none =>
      refine .inr ⟨covered checkpoint headers, ?_⟩
      rw [confirm, confirmIn, headerAtIn, hverified, bind_ok, hoffset, bind_ok, hheader]
      rfl
    | some header => exact .inl ⟨offset, header, offsetOf_eq_ok_iff.mp hoffset, hheader⟩

end Verified

theorem exists_verified_of_confirm {claim : BitcoinClaim} {confirmation : Confirmation}
    (hconfirmed : confirm sha256d claim checkpoint headers = .ok confirmation) :
    ∃ hashes, verifyChain sha256d checkpoint headers = .ok hashes := by
  obtain ⟨header, hread, -⟩ := bind_eq_ok_iff.mp hconfirmed
  obtain ⟨hashes, hverified, -⟩ := bind_eq_ok_iff.mp hread
  exact ⟨hashes, hverified⟩

/-! ### Stability -/

/-- Cutting a verified range short leaves a verified range, and adding headers to one changes its
answer to a claim only by raising the depth, to a confirmation at six. A range confirms a claim, or
finds it pending, by the header at its height, with the headers above it for its depth. -/
theorem confirmation_stable (sha256d : DoubleHash) (checkpoint : Checkpoint)
    (headers more : List Header) (hashes : List (Octets 32))
    (hverified : verifyChain sha256d checkpoint (headers ++ more) = .ok hashes)
    (claim : BitcoinClaim) :
    verifyChain sha256d checkpoint headers = .ok (hashes.take headers.length) ∧
    (∀ block, confirm sha256d claim checkpoint headers = .ok (.confirmed block) →
      confirm sha256d claim checkpoint (headers ++ more) = .ok (.confirmed block)) ∧
    (∀ height depth required,
      confirm sha256d claim checkpoint headers = .ok (.pending height depth required) →
        (depth + more.length < 6 → confirm sha256d claim checkpoint (headers ++ more) =
          .ok (.pending height (depth + more.length) required)) ∧
        (6 ≤ depth + more.length → ∃ block,
          confirm sha256d claim checkpoint (headers ++ more) = .ok (.confirmed block))) ∧
    (∀ height attested merkleRoot, confirm sha256d claim checkpoint headers =
        .error (.digestNotInTheBlock height attested merkleRoot) →
      confirm sha256d claim checkpoint (headers ++ more) =
        .error (.digestNotInTheBlock height attested merkleRoot)) ∧
    ∀ confirmation, confirm sha256d claim checkpoint headers = .ok confirmation →
      ∃ offset header, claim.height.toNat = checkpoint.height.toNat + 1 + offset ∧
        headers[offset]? = some header ∧ header.merkleRoot = claim.attestedDigest ∧
        ∀ height depth required, confirmation = .pending height depth required →
          depth = (headers.drop (offset + 1)).length := by
  have hcut := verifyChain_of_append hverified
  have hdepth : confirmationDepth = 6 := rfl
  rcases @exists_header_or_heightNotCovered _ _ _ claim _ hcut with
    ⟨offset, header, hheight, hheader⟩ | ⟨top, hrefused⟩
  · have hinside := (List.getElem?_eq_some_iff.mp hheader).1
    have hanswer := confirm_of_header hcut hheight hheader
    have hlonger := confirm_of_header hverified hheight
      ((List.getElem?_append_left hinside).trans hheader)
    rw [medianTimePast_append hinside.le, List.length_append] at hlonger
    have hraised : headers.length + more.length - (offset + 1) =
        headers.length - (offset + 1) + more.length := by omega
    rw [hraised] at hlonger
    refine ⟨hcut, ?_, ?_, ?_, ?_⟩
    · intro block hconfirmed
      rw [hanswer] at hconfirmed
      split_ifs at hconfirmed with hdigest hshallow
      · cases hconfirmed
      · rw [hlonger, if_pos hdigest, if_neg (by omega), hconfirmed]
    · intro height depth required hpending
      rw [hanswer] at hpending
      split_ifs at hpending with hdigest hshallow
      · cases hpending
        refine ⟨fun hbelow ↦ ?_, fun hreached ↦ ⟨⟨claim.height, header.merkleRoot,
          header.time, (medianTimePast headers offset).isSome⟩, ?_⟩⟩
        · rw [hlonger, if_pos hdigest, if_pos (hdepth ▸ hbelow)]
        · rw [hlonger, if_pos hdigest, if_neg (by omega)]
      · cases hpending
    · intro height attested merkleRoot hrefused
      rw [hanswer] at hrefused
      split_ifs at hrefused with hdigest hshallow
      rw [hlonger, if_neg hdigest, hrefused]
    · intro confirmation hconfirmed
      rw [hanswer] at hconfirmed
      split_ifs at hconfirmed with hdigest hshallow
      · refine ⟨offset, header, hheight, hheader, hdigest, fun height depth required hpending ↦ ?_⟩
        cases hconfirmed
        cases hpending
        exact (List.length_drop).symm
      · refine ⟨offset, header, hheight, hheader, hdigest, fun height depth required hpending ↦ ?_⟩
        cases hconfirmed
        cases hpending
  · refine ⟨hcut, fun block hconfirmed ↦ ?_, fun height depth required hpending ↦ ?_,
      fun height attested merkleRoot hother ↦ ?_, fun confirmation hconfirmed ↦ ?_⟩
    · cases hrefused.symm.trans hconfirmed
    · cases hrefused.symm.trans hpending
    · cases hrefused.symm.trans hother
    · cases hrefused.symm.trans hconfirmed

/-- A checkpoint whose successors name zeros. -/
def zeroCheckpoint : Checkpoint :=
  ⟨0, Octets.zeros 32, powLimit, some 0⟩

/-- A header that names zeros at the easiest target. -/
def zeroHeader : Header :=
  ⟨⟨[1, 0, 0, 0] ++ List.replicate 68 0 ++ [0xff, 0xff, 0x00, 0x1d] ++ List.replicate 4 0, rfl⟩⟩

/-- Where every hash is zero, a claim that is pending at two headers is confirmed by four more. -/
theorem confirmation_stable_zeroHeader : ∃ block,
    confirm (fun _ ↦ Octets.zeros 32) ⟨1, Octets.zeros 32⟩ zeroCheckpoint
      (List.replicate 3 zeroHeader ++ List.replicate 4 zeroHeader) = .ok (.confirmed block) := by
  obtain ⟨-, -, hpending, -, -⟩ := confirmation_stable (fun _ ↦ Octets.zeros 32) zeroCheckpoint
    (List.replicate 3 zeroHeader) (List.replicate 4 zeroHeader) (List.replicate 7 (Octets.zeros 32))
    (by decide +kernel) ⟨1, Octets.zeros 32⟩
  exact (hpending 1 2 6 (by decide +kernel)).2 (by decide)

end AnchoredLog.Client.Confirmations
