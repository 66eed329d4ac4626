import AnchoredLog.Client.CompactTarget

/-!
# Bitcoin block headers, verified against their own work

The header and its fields, the checkpoint a chain starts from, the reasons for which a chain is
refused, and the walk of `verifyChainIn` over the headers. The walk carries the hash the next
header has to name, the target in force, the time of the first block of the current period and
the hashes found so far; `judgeHeader` is one turn of it. The double hash over the octets of a
header is a parameter.
-/

set_option autoImplicit false
set_option relaxedAutoImplicit false

namespace AnchoredLog.Client.BitcoinHeaders

open Library.ByteCodec Library.Fallible CompactTarget

/-! ### Headers -/

/-- A raw block header of 80 octets. -/
@[ext] structure Header where
  raw : Octets 80
deriving DecidableEq

/-- The double hash of a string of octets. -/
abbrev DoubleHash : Type :=
  List UInt8 → Octets 32

namespace Header

/-- The `width` octets of a header from position `start` on. -/
def field (header : Header) (start width : ℕ) : Octets width :=
  (Octets.slice? header.raw.octets start width).getD (Octets.zeros width)

/-- The hash of the header, in internal byte order. -/
def blockHash (sha256d : DoubleHash) (header : Header) : Octets 32 :=
  sha256d header.raw.octets

/-- The block version, little-endian and signed. -/
def version (header : Header) : ℤ :=
  let value := leNat (header.field 0 4).octets
  if value < 2 ^ 31 then value else value - 2 ^ 32

/-- The predecessor the header names. -/
def prevHash (header : Header) : Octets 32 :=
  header.field 4 32

/-- The merkle root of the block's transactions. -/
def merkleRoot (header : Header) : Octets 32 :=
  header.field 36 32

/-- The time of the block, little-endian. -/
def time (header : Header) : UInt32 :=
  UInt32.ofNat (leNat (header.field 68 4).octets)

/-- The compact target, little-endian. -/
def bits (header : Header) : UInt32 :=
  UInt32.ofNat (leNat (header.field 72 4).octets)

end Header

/-- The digits of an octet string, two to an octet. -/
def hex (octets : List UInt8) : String :=
  String.ofList (octets.flatMap fun octet ↦
    [Nat.digitChar (octet.toNat / 16), Nat.digitChar (octet.toNat % 16)])

/-- Why a header or a chain of them was refused. -/
inductive HeaderRefused
  | notFromTheCheckpoint (expected found : String)
  | broken (height : UInt32) (expected found : String)
  | insufficientWork (height : UInt32) (hash : String)
  | malformedTarget (height bits : UInt32)
  | easierThanThePowLimit (height : UInt32) (target limit network : String)
  | difficultyNotCanonical (height bits canonical : UInt32)
  | targetNotTheOneInForce (height bits : UInt32) (expected : String)
  | crossesARetargetBoundary (checkpointPeriod tipPeriod : UInt32)
  | timestampNotAfterMedianTimePast (height time median : UInt32)
  | versionTooOld (height : UInt32) (version floor : ℤ) (network : String)
  | heightNotCovered (wanted covered : UInt32)
  | digestNotInTheBlock (height : UInt32) (attested merkleRoot : String)
deriving DecidableEq

/-- A height, the hash of the block at it, the target in force there and, where it is known, its
time. -/
structure Checkpoint where
  height : UInt32
  hash : Octets 32
  target : Octets 32
  time : Option UInt32

/-! ### The rules of one header -/

/-- The number of blocks the median time is taken over. -/
def medianTimeSpan : ℕ :=
  11

/-- The middle one of a list of times in ascending order. -/
def median (times : List UInt32) : Option UInt32 :=
  (times.mergeSort fun left right ↦ decide (left ≤ right))[times.length / 2]?

/-- The median of the eleven times below a position, where the range holds all eleven. -/
def medianTimePast (headers : List Header) (offset : ℕ) : Option UInt32 := do
  let start ← checkedDiff offset medianTimeSpan
  let window := (headers.drop start).take (offset - start)
  if window.length ≠ medianTimeSpan then
    none
  else
    median (window.map Header.time)

/-- Whether a little-endian hash is at or below a big-endian target, compared octet by octet from
the most significant one. -/
def lessThanOrEqualReversed (hashLe targetBe : Octets 32) : Bool :=
  compare hashLe.octets.reverse targetBe.octets
where
  /-- The first octets that differ decide. -/
  compare : List UInt8 → List UInt8 → Bool
    | hash :: hashes, target :: targets =>
      if hash ≠ target then hash < target else compare hashes targets
    | _, _ => true

/-! ### The walk -/

/-- The sum of two heights, at most the greatest height. -/
def saturatingAdd (left right : UInt32) : UInt32 :=
  if left.toNat + right.toNat < 2 ^ 32 then left + right else 0xffffffff

/-- A count as a height, the greatest height when it does not fit. -/
def saturatingFrom (count : ℕ) : UInt32 :=
  if count < 2 ^ 32 then UInt32.ofNat count else 0xffffffff

/-- The period a height lies in. -/
def period (height interval : UInt32) : UInt32 :=
  if interval = 0 then 0 else height / interval

/-- Whether a height opens a period. -/
def opensPeriod (height interval : UInt32) : Prop :=
  interval ≠ 0 ∧ height % interval = 0

instance decidableOpensPeriod (height interval : UInt32) :
    Decidable (opensPeriod height interval) :=
  inferInstanceAs (Decidable (_ ∧ _))

/-- What the walk carries from header to header. -/
structure Walk where
  /-- The hash the next header has to name. -/
  previous : Octets 32
  /-- The target in force. -/
  inForce : Octets 32
  /-- The time of the first block of the current period. -/
  periodBegan : Option UInt32
  /-- The hashes of the headers walked. -/
  hashes : List (Octets 32)

section Verification

variable (sha256d : DoubleHash) (rules : Network) (checkpoint : Checkpoint) (headers : List Header)

/-- The period of the last header. -/
def tipPeriod : UInt32 :=
  period (saturatingAdd checkpoint.height (saturatingFrom headers.length)) rules.interval

/-- The refusal of a range that leaves the period of its checkpoint. -/
def crossesABoundary : HeaderRefused :=
  .crossesARetargetBoundary (period checkpoint.height rules.interval)
    (tipPeriod rules checkpoint headers)

/-- The height of the header at a position of the range. -/
def heightOf (offset : ℕ) : UInt32 :=
  saturatingAdd (saturatingAdd checkpoint.height (saturatingFrom offset)) 1

/-- The target in force at a header and the time of the first block of its period: both are
replaced at the first block of a period. -/
def atBoundary (walk : Walk) (offset : ℕ) (header : Header) :
    Except HeaderRefused (Octets 32 × Option UInt32) := do
  let height := heightOf checkpoint offset
  if opensPeriod height rules.interval then
    let began ← okOr walk.periodBegan (crossesABoundary rules checkpoint headers)
    let before ← okOr ((checkedDiff offset 1).bind fun i ↦ headers[i]?)
      (crossesABoundary rules checkpoint headers)
    let elapsed : ℤ := before.time.toNat - began.toNat
    let inForce ← okOr (retargetIn walk.inForce elapsed rules)
      (.malformedTarget height header.bits)
    pure (inForce, some header.time)
  else
    pure (walk.inForce, walk.periodBegan)

/-- The time of a header against the median of the eleven below it, where that can be computed. -/
def judgeTime (offset : ℕ) (header : Header) : Except HeaderRefused Unit :=
  match medianTimePast headers offset with
  | some median =>
    require (¬ header.time ≤ median)
      (.timestampNotAfterMedianTimePast (heightOf checkpoint offset) header.time median)
  | none => pure ()

/-- One turn of the walk: every rule the header at a position of the range is held to. -/
def judgeHeader (walk : Walk) (offset : ℕ) (header : Header) : Except HeaderRefused Walk := do
  let height := heightOf checkpoint offset
  require (header.prevHash = walk.previous)
    (if offset = 0 then
      .notFromTheCheckpoint (hex walk.previous.octets) (hex header.prevHash.octets)
    else
      .broken height (hex walk.previous.octets) (hex header.prevHash.octets))
  require (¬ (rules.versionFloorFrom ≤ height ∧ header.version < rules.versionFloor))
    (.versionTooOld height header.version rules.versionFloor rules.name)
  judgeTime checkpoint headers offset header
  let target ← okOr (targetFromBits header.bits) (.malformedTarget height header.bits)
  require (target ≤ rules.powLimit)
    (.easierThanThePowLimit height (hex target.octets) (hex rules.powLimit.octets) rules.name)
  let (inForce, periodBegan) ← atBoundary rules checkpoint headers walk offset header
  let canonical ← okOr (bitsFromTarget target) (.malformedTarget height header.bits)
  require (canonical = header.bits)
    (.difficultyNotCanonical height header.bits canonical)
  require (target = inForce)
    (.targetNotTheOneInForce height header.bits (hex inForce.octets))
  let hash := header.blockHash sha256d
  require (lessThanOrEqualReversed hash target = true)
    (.insufficientWork height (hex hash.octets))
  pure ⟨hash, inForce, periodBegan, walk.hashes ++ [hash]⟩

/-- The loop over the headers from a position on. -/
def walkFrom : Walk → ℕ → List Header → Except HeaderRefused Walk
  | walk, _, [] => .ok walk
  | walk, offset, header :: rest => do
    let next ← judgeHeader sha256d rules checkpoint headers walk offset header
    walkFrom next (offset + 1) rest

/-- Verifies that the headers are one chain of real work from the checkpoint's successor on, and
returns their hashes. -/
def verifyChainIn : Except HeaderRefused (List (Octets 32)) := do
  require (checkpoint.target ≤ rules.powLimit)
    (.easierThanThePowLimit checkpoint.height (hex checkpoint.target.octets)
      (hex rules.powLimit.octets) rules.name)
  require (¬ (tipPeriod rules checkpoint headers ≠ period checkpoint.height rules.interval ∧
      ¬ (opensPeriod checkpoint.height rules.interval ∧ checkpoint.time.isSome)))
    (crossesABoundary rules checkpoint headers)
  let walk ← walkFrom sha256d rules checkpoint headers
    ⟨checkpoint.hash, checkpoint.target, checkpoint.time, []⟩ 0 headers
  pure walk.hashes

/-- The verification by the rules of the main network. -/
def verifyChain : Except HeaderRefused (List (Octets 32)) :=
  verifyChainIn sha256d mainnet checkpoint headers

end Verification

end AnchoredLog.Client.BitcoinHeaders
