import AnchoredLog.Library.LongArithmetic
import Mathlib.Data.Nat.Log
import Mathlib.Data.Nat.Bitwise

/-!
# Proof-of-work targets and their compact encoding

A target is 32 big-endian octets; a block header carries it as a compact value of one exponent
octet and a 23-bit mantissa below a sign bit. `targetFromBits` expands a compact value,
`bitsFromTarget` compresses a target, `mulDiv` scales one and `retargetIn` computes the target of
the next period.

The second half reads the four functions as arithmetic. `compactValue` is the number a compact
value stands for and `compactOf` the compact value of a number; `targetFromBits_eq_some_iff`,
`bitsFromTarget_eq_some_iff`, `mulDiv_eq_some_iff` and `retarget_eq_some_iff` say that the
octet loops compute exactly these numbers.
-/

set_option autoImplicit false
set_option relaxedAutoImplicit false

namespace AnchoredLog.Client.CompactTarget

open Library.ByteCodec Library.Fallible Library.LongArithmetic

/-! ### The functions of the source -/

/-- The four octets of a 32-bit number, most significant first. -/
def toBeBytes (value : ℕ) : List UInt8 :=
  (leList 4 value).reverse

/-- Expands a compact value into 32 big-endian octets. Nothing for a set sign bit, a zero mantissa
or an exponent above 32. -/
def targetFromBits (bits : UInt32) : Option (Octets 32) := do
  let exponent := bits.toNat >>> 24
  let mantissa := bits.toNat &&& 0x007fffff
  if bits.toNat &&& 0x00800000 ≠ 0 ∨ mantissa = 0 then
    none
  else if exponent ≤ 3 then
    let below ← checkedDiff 3 exponent
    let shift ← fits 32 (8 * below)
    let shifted ← checkedShr 32 mantissa shift
    (Octets.zeros 32).overwrite? 28 (toBeBytes shifted)
  else if 32 < exponent then
    none
  else
    let above ← checkedDiff exponent 3
    let stop ← checkedDiff 32 above
    let start ← checkedDiff stop 3
    (Octets.zeros 32).overwrite? start ((toBeBytes mantissa).drop 1)

/-- The three octets of a string from position `first` on as one number, zeros standing past its
end. -/
def leadingMantissa (octets : List UInt8) (first : ℕ) : Option ℕ :=
  [0, 1, 2].foldlM (fun mantissa i ↦ do
    let byte := (octets[first + i]?).getD 0
    let shifted ← checkedShl 32 mantissa 8
    fits 32 (shifted + byte.toNat)) 0

/-- The size of a number in the octet above its mantissa. -/
def joinBits (size mantissa : ℕ) : Option UInt32 := do
  let shifted ← checkedShl 32 size 24
  let bits ← fits 32 (shifted + mantissa)
  pure (UInt32.ofNat bits)

/-- Compresses a target into the compact value a header carries. Nothing for zero. -/
def bitsFromTarget (target : Octets 32) : Option UInt32 := do
  let first ← target.octets.findIdx? (· ≠ 0)
  let significant ← checkedDiff 32 first
  let size ← fits 32 significant
  let mantissa ← leadingMantissa target.octets first
  if mantissa &&& 0x00800000 ≠ 0 then
    let grown ← fits 32 (size + 1)
    joinBits grown (mantissa >>> 8)
  else
    joinBits size mantissa

/-- `value * mul / div` through a product of 40 octets. Nothing when the divisor is zero or the
quotient needs more than 32 octets. -/
def mulDiv (value : Octets 32) (mul div : UInt64) : Option (Octets 32) := do
  if div = 0 then
    none
  else
    let (low, carry) ← multiplyOctets mul.toNat value.octets
    let high := (leList 8 carry).reverse
    if carry >>> 64 ≠ 0 then
      none
    else
      let (quotient, _) ← divideOctets div.toNat 0 (high ++ low)
      if (quotient.take 8).any (· ≠ 0) then
        none
      else
        (Octets.zeros 32).overwrite? 0 (quotient.drop 8)

/-- The easiest target the main network permits. -/
def powLimit : Octets 32 :=
  ⟨[0x00, 0x00, 0x00, 0x00, 0xff, 0xff, 0x00, 0x00, 0x00, 0x00, 0x00, 0x00, 0x00, 0x00, 0x00, 0x00,
    0x00, 0x00, 0x00, 0x00, 0x00, 0x00, 0x00, 0x00, 0x00, 0x00, 0x00, 0x00, 0x00, 0x00, 0x00, 0x00],
    rfl⟩

/-- The number of blocks for which a target is fixed. -/
def retargetInterval : UInt32 :=
  2016

/-- Two weeks in seconds, the time a period is meant to take. -/
def targetTimespan : ℤ :=
  14 * 24 * 60 * 60

/-- The consensus constants a chain is judged by. -/
structure Network where
  interval : UInt32
  powLimit : Octets 32
  versionFloor : ℤ
  versionFloorFrom : UInt32
  name : String

/-- The height from which the main network refuses blocks of a version below four. -/
def versionFloorFrom : UInt32 :=
  388381

/-- The version floor in force from that height. -/
def versionFloor : ℤ :=
  4

/-- The constants of the main network. -/
def mainnet : Network where
  interval := retargetInterval
  powLimit := powLimit
  versionFloor := versionFloor
  versionFloorFrom := versionFloorFrom
  name := "mainnet"

/-- The target after a retarget, from the one before it and the timespan of the closed period. -/
def retargetIn (previous : Octets 32) (actualTimespan : ℤ) (rules : Network) :
    Option (Octets 32) := do
  let clamped := max (targetTimespan / 4) (min actualTimespan (targetTimespan * 4))
  let scaled ← tryFromU64 clamped
  let timespan ← tryFromU64 targetTimespan
  let computed :=
    match mulDiv previous scaled timespan with
    | some target => if target ≤ rules.powLimit then target else rules.powLimit
    | none => rules.powLimit
  let bits ← bitsFromTarget computed
  targetFromBits bits

/-- The retarget of the main network. -/
def retarget (previous : Octets 32) (actualTimespan : ℤ) : Option (Octets 32) :=
  retargetIn previous actualTimespan mainnet

/-! ### The numbers behind the encodings -/

/-- The number a target stands for. -/
def number (target : Octets 32) : ℕ :=
  beNat target.octets

/-- The number a compact value stands for: its mantissa moved left by its exponent less three
octets, truncated. -/
def compactValue (bits : ℕ) : ℕ :=
  bits % 2 ^ 23 * 256 ^ (bits / 2 ^ 24) / 256 ^ 3

/-- The compact value of a number: its octet count above its three leading octets, one octet
further when those would set the sign bit. -/
def compactOf (value : ℕ) : ℕ :=
  let size := Nat.log 256 value + 1
  let mantissa := value * 256 ^ 3 / 256 ^ size
  if value = 0 then 0
  else if 2 ^ 23 ≤ mantissa then (size + 1) * 2 ^ 24 + mantissa / 256
  else size * 2 ^ 24 + mantissa

theorem number_injective : Function.Injective number := by
  intro left right heq
  exact Octets.ext (beNat_injective_of_length (by simp) heq)

theorem number_lt (target : Octets 32) : number target < 2 ^ 256 := by
  have hlt := beNat_lt target.octets
  rw [target.length_octets] at hlt
  exact hlt

theorem exists_number_eq {value : ℕ} (hvalue : value < 2 ^ 256) :
    ∃ target, number target = value := by
  refine ⟨⟨(leList 32 value).reverse, by simp⟩, ?_⟩
  show beNat (leList 32 value).reverse = value
  rw [beNat_reverse_leList]
  exact Nat.mod_eq_of_lt hvalue

theorem number_le_number_iff {left right : Octets 32} : number left ≤ number right ↔ left ≤ right :=
  beNat_le_beNat_iff

/-- The three leading octets of a positive number, as a mantissa. -/
theorem leading_bounds {value : ℕ} (hvalue : value ≠ 0) :
    256 ^ 2 ≤ value * 256 ^ 3 / 256 ^ (Nat.log 256 value + 1) ∧
      value * 256 ^ 3 / 256 ^ (Nat.log 256 value + 1) < 256 ^ 3 := by
  have hpow : 0 < 256 ^ (Nat.log 256 value + 1) := by positivity
  have hlow : 256 ^ Nat.log 256 value ≤ value := Nat.pow_log_le_self 256 hvalue
  have hhigh : value < 256 ^ (Nat.log 256 value + 1) :=
    Nat.lt_pow_succ_log_self (by norm_num) value
  constructor
  · rw [Nat.le_div_iff_mul_le hpow, pow_succ 256 (Nat.log 256 value)]
    omega
  · rw [Nat.div_lt_iff_lt_mul hpow]
    omega

/-- The compact value of a positive number is an exponent of at most one more than its octet
count above a normalised significand, which together stand for no more than the number. Below
`2 ^ 255` the exponent is at most 32. -/
theorem compactOf_eq {value : ℕ} (hvalue : value ≠ 0) :
    ∃ exponent significand, compactOf value = exponent * 2 ^ 24 + significand ∧
      significand ≠ 0 ∧ significand < 2 ^ 23 ∧ (value < 2 ^ 255 → exponent ≤ 32) ∧
      significand * 256 ^ exponent ≤ value * 256 ^ 3 := by
  obtain ⟨hlow, hhigh⟩ := leading_bounds hvalue
  have hscaled := Nat.div_mul_le_self (value * 256 ^ 3) (256 ^ (Nat.log 256 value + 1))
  by_cases hsign : 2 ^ 23 ≤ value * 256 ^ 3 / 256 ^ (Nat.log 256 value + 1)
  · refine ⟨Nat.log 256 value + 2, value * 256 ^ 3 / 256 ^ (Nat.log 256 value + 1) / 256, ?_,
      by omega, by omega, fun hsmall ↦ ?_, ?_⟩
    · simp only [compactOf, if_neg hvalue, if_pos hsign]
    · by_contra hlarge
      have hpow : 256 ^ 32 ≤ 256 ^ (Nat.log 256 value + 1) :=
        Nat.pow_le_pow_right (by norm_num) (by omega)
      have hleading := Nat.mul_le_mul hsign hpow
      omega
    · calc
        _ = value * 256 ^ 3 / 256 ^ (Nat.log 256 value + 1) / 256 * 256 *
              256 ^ (Nat.log 256 value + 1) := by rw [pow_succ 256 (Nat.log 256 value + 1)]; ring
        _ ≤ value * 256 ^ 3 / 256 ^ (Nat.log 256 value + 1) *
              256 ^ (Nat.log 256 value + 1) :=
          Nat.mul_le_mul_right _ (Nat.div_mul_le_self _ 256)
        _ ≤ _ := hscaled
  · refine ⟨Nat.log 256 value + 1, value * 256 ^ 3 / 256 ^ (Nat.log 256 value + 1), ?_,
      by omega, by omega, fun hsmall ↦ ?_, hscaled⟩
    · simp only [compactOf, if_neg hvalue, if_neg hsign]
    · have hlog := Nat.log_lt_of_lt_pow hvalue (show value < 256 ^ 32 by omega)
      omega

theorem compactValue_of_parts {exponent significand : ℕ} (hsignificand : significand < 2 ^ 23) :
    compactValue (exponent * 2 ^ 24 + significand) = significand * 256 ^ exponent / 256 ^ 3 := by
  have hlow : (exponent * 2 ^ 24 + significand) % 2 ^ 23 = significand := by omega
  have hhigh : (exponent * 2 ^ 24 + significand) / 2 ^ 24 = exponent := by omega
  rw [compactValue, hlow, hhigh]

@[simp] theorem compactOf_zero : compactOf 0 = 0 := by
  simp [compactOf]

/-- The compact encoding never stands for more than the number it encodes. -/
theorem compactValue_compactOf_le (value : ℕ) : compactValue (compactOf value) ≤ value := by
  by_cases hvalue : value = 0
  · rw [hvalue, compactOf_zero]
    simp [compactValue]
  · obtain ⟨exponent, significand, hcompact, -, hsignificand, -, hle⟩ := compactOf_eq hvalue
    rw [hcompact, compactValue_of_parts hsignificand]
    calc
      _ ≤ value * 256 ^ 3 / 256 ^ 3 := Nat.div_le_div_right hle
      _ = value := Nat.mul_div_cancel value (by norm_num)

/-! ### Expanding -/

theorem and_mantissaMask (bits : ℕ) : bits &&& 0x007fffff = bits % 2 ^ 23 :=
  Nat.and_two_pow_sub_one_eq_mod bits 23

theorem and_signMask_eq_zero_iff (bits : ℕ) :
    bits &&& 0x00800000 = 0 ↔ bits % 2 ^ 24 < 2 ^ 23 := by
  rw [show (0x00800000 : ℕ) = 2 ^ 23 from rfl, Nat.and_two_pow, Nat.testBit_eq_decide_div_mod_eq]
  by_cases hbit : bits / 2 ^ 23 % 2 = 1
  · simp only [hbit, decide_true, Bool.toNat_true]
    omega
  · simp only [hbit, decide_false, Bool.toNat_false]
    omega

theorem overwrite?_eq_some_iff {start : ℕ} {source : List UInt8} {target : Octets 32}
    (hfits : start + source.length ≤ 32) :
    (Octets.zeros 32).overwrite? start source = some target ↔
      number target = beNat source * 256 ^ (32 - (start + source.length)) := by
  constructor
  · exact beNat_overwrite?_zeros
  · intro hnumber
    have hwritten : ∃ written, (Octets.zeros 32).overwrite? start source = some written := by
      rw [Octets.overwrite?, dif_pos hfits]
      exact ⟨_, rfl⟩
    obtain ⟨written, hwritten⟩ := hwritten
    rw [hwritten, Option.some.injEq]
    exact number_injective ((beNat_overwrite?_zeros hwritten).trans hnumber.symm)

theorem beNat_toBeBytes {value : ℕ} (hvalue : value < 2 ^ 32) :
    beNat (toBeBytes value) = value := by
  rw [toBeBytes, beNat_reverse_leList]
  exact Nat.mod_eq_of_lt hvalue

theorem length_toBeBytes (value : ℕ) : (toBeBytes value).length = 4 := by
  simp [toBeBytes]

theorem beNat_drop_toBeBytes {value : ℕ} (hvalue : value < 2 ^ 24) :
    beNat ((toBeBytes value).drop 1) = value := by
  rw [toBeBytes, List.drop_reverse, length_leList]
  show beNat (leList 3 value).reverse = value
  rw [beNat_reverse_leList]
  exact Nat.mod_eq_of_lt hvalue

theorem truncated_shift {exponent mantissa : ℕ} (hexponent : exponent ≤ 3) :
    mantissa / 2 ^ (8 * (3 - exponent)) = mantissa * 256 ^ exponent / 256 ^ 3 := by
  have hpow : (256 : ℕ) ^ 3 = 2 ^ (8 * (3 - exponent)) * 256 ^ exponent := by
    interval_cases exponent <;> norm_num
  rw [hpow, Nat.mul_div_mul_right _ _ (by positivity)]

/-- Expanding succeeds exactly on a clear sign bit, a mantissa and an exponent that fits, and
yields the number the compact value stands for. -/
theorem targetFromBits_eq_some_iff {bits : UInt32} {target : Octets 32} :
    targetFromBits bits = some target ↔
      bits.toNat % 2 ^ 24 < 2 ^ 23 ∧ bits.toNat % 2 ^ 23 ≠ 0 ∧ bits.toNat / 2 ^ 24 ≤ 32 ∧
        number target = compactValue bits.toNat := by
  have hmantissa : bits.toNat % 2 ^ 23 < 2 ^ 23 := Nat.mod_lt _ (by norm_num)
  simp only [targetFromBits, compactValue, and_mantissaMask, Nat.shiftRight_eq_div_pow, ne_eq,
    and_signMask_eq_zero_iff]
  generalize bits.toNat % 2 ^ 23 = mantissa at hmantissa
  generalize bits.toNat / 2 ^ 24 = exponent
  by_cases hrefused : ¬ bits.toNat % 2 ^ 24 < 2 ^ 23 ∨ mantissa = 0
  · rw [if_pos hrefused]
    tauto
  · rw [if_neg hrefused]
    rw [not_or, not_not] at hrefused
    simp only [hrefused, not_false_eq_true, true_and]
    by_cases hsmall : exponent ≤ 3
    · have hshifted : mantissa / 2 ^ (8 * (3 - exponent)) < 2 ^ 32 :=
        lt_of_le_of_lt (Nat.div_le_self _ _) (by omega)
      have hexponent : exponent ≤ 32 := by omega
      have hamount : fits 32 (8 * (3 - exponent)) = some (8 * (3 - exponent)) :=
        fits_of_lt (by omega)
      have hshift : checkedShr 32 mantissa (8 * (3 - exponent)) =
          some (mantissa / 2 ^ (8 * (3 - exponent))) := checkedShr_of_lt (by omega)
      rw [if_pos hsmall, checkedDiff_of_le hsmall]
      simp only [Option.bind_eq_bind, Option.bind_some, hamount, hshift, hexponent, true_and]
      rw [overwrite?_eq_some_iff (by rw [length_toBeBytes]), beNat_toBeBytes hshifted,
        length_toBeBytes, truncated_shift hsmall]
      simp
    · rw [if_neg hsmall]
      by_cases hlarge : 32 < exponent
      · simp only [hlarge, if_true, reduceCtorEq, false_iff]
        omega
      · have hlength : ((toBeBytes mantissa).drop 1).length = 3 := by simp [toBeBytes]
        rw [if_neg hlarge, checkedDiff_of_le (show 3 ≤ exponent by omega)]
        simp only [Option.bind_eq_bind, Option.bind_some,
          checkedDiff_of_le (show exponent - 3 ≤ 32 by omega),
          checkedDiff_of_le (show 3 ≤ 32 - (exponent - 3) by omega)]
        rw [overwrite?_eq_some_iff (by rw [hlength]; omega), beNat_drop_toBeBytes (by omega),
          hlength, show 32 - (32 - (exponent - 3) - 3 + 3) = exponent - 3 by omega,
          show exponent = exponent - 3 + 3 by omega, pow_add, ← Nat.mul_assoc,
          Nat.mul_div_cancel _ (by norm_num)]
        simp only [Nat.add_sub_cancel]
        omega

/-! ### Compressing -/

/-- A string whose first octet other than zero is at a position is that many zeros and a rest
that starts with it. -/
theorem eq_replicate_append_of_findIdx? {octets : List UInt8} {first : ℕ}
    (hfirst : octets.findIdx? (· ≠ 0) = some first) :
    ∃ lead rest, octets = List.replicate first 0 ++ lead :: rest ∧ lead ≠ 0 := by
  induction octets generalizing first with
  | nil => simp at hfirst
  | cons octet octets ih =>
    by_cases hoctet : octet = 0
    · rw [List.findIdx?_cons, if_neg (by simp [hoctet]), Option.map_eq_some_iff] at hfirst
      obtain ⟨position, hposition, rfl⟩ := hfirst
      obtain ⟨lead, rest, hsplit, hlead⟩ := ih hposition
      exact ⟨lead, rest, by rw [hsplit, hoctet, List.replicate_succ, List.cons_append], hlead⟩
    · rw [List.findIdx?_cons, if_pos (by simpa using hoctet), Option.some.injEq] at hfirst
      exact ⟨octet, octets, by simp [← hfirst], hoctet⟩

theorem number_eq_zero_of_findIdx? {target : Octets 32}
    (hfirst : target.octets.findIdx? (· ≠ 0) = none) : number target = 0 := by
  have hzeros : target.octets = List.replicate target.octets.length 0 :=
    List.eq_replicate_of_mem fun octet hoctet ↦ by
      simpa using List.findIdx?_eq_none_iff.mp hfirst octet hoctet
  rw [number, hzeros, beNat_replicate_zero]

theorem pow_le_beNat {lead : UInt8} (rest : List UInt8) (hlead : lead ≠ 0) :
    256 ^ rest.length ≤ beNat (lead :: rest) := by
  have hpositive : 1 ≤ lead.toNat := by
    have hne : lead.toNat ≠ 0 := fun hzero ↦ hlead (UInt8.toNat_inj.mp hzero)
    omega
  have hscaled := Nat.mul_le_mul_right (256 ^ rest.length) hpositive
  rw [beNat_cons]
  omega

/-- The octet count of a number is the length of its octets from the first that is not zero. -/
theorem log_beNat {lead : UInt8} (rest : List UInt8) (hlead : lead ≠ 0) :
    Nat.log 256 (beNat (lead :: rest)) = rest.length :=
  Nat.log_eq_of_pow_le_of_lt_pow (pow_le_beNat rest hlead) (beNat_lt (lead :: rest))

/-- The three octets from the first that is not zero are the leading octets of the number. -/
theorem leadingMantissa_eq {first : ℕ} {lead : UInt8} {rest : List UInt8} :
    leadingMantissa (List.replicate first 0 ++ lead :: rest) first =
      some (beNat (lead :: rest) * 256 ^ 3 / 256 ^ (rest.length + 1)) := by
  have hstep (mantissa : ℕ) (byte : UInt8) (hmantissa : mantissa < 2 ^ 16) :
      ((checkedShl 32 mantissa 8).bind fun shifted ↦ fits 32 (shifted + byte.toNat)) =
        some (mantissa * 256 + byte.toNat) := by
    have hbyte := byte.toNat_lt
    have hshift : checkedShl 32 mantissa 8 = some (mantissa * 256) :=
      checkedShl_of_lt (by norm_num) (by omega)
    rw [hshift, Option.bind_some, fits_of_lt (by omega)]
  have hread (i : ℕ) :
      (List.replicate first 0 ++ lead :: rest)[first + i]? = (lead :: rest)[i]? := by
    rw [List.getElem?_append_right (by simp)]
    simp
  have hlead := lead.toNat_lt
  have hsecond := ((lead :: rest)[1]?.getD 0).toNat_lt
  simp only [leadingMantissa, List.foldlM_cons, List.foldlM_nil, Option.bind_eq_bind, hread,
    Option.pure_def]
  rw [hstep 0 _ (by norm_num), Option.bind_some, List.getElem?_cons_zero, Option.getD_some,
    hstep _ _ (by omega), Option.bind_some, hstep _ _ (by omega), Option.bind_some,
    Option.some.injEq]
  rcases rest with - | ⟨second, - | ⟨third, tail⟩⟩
  · simp
    omega
  · simp
    omega
  · have hpow : (256 : ℕ) ^ (tail.length + 1 + 1 + 1) = 256 ^ tail.length * 256 ^ 3 := by ring
    have hnumber : beNat (lead :: second :: third :: tail) = 256 ^ tail.length *
        ((lead.toNat * 256 + second.toNat) * 256 + third.toNat) + beNat tail := by
      simp only [beNat_cons, List.length_cons, pow_succ]
      ring
    simp only [List.length_cons, hpow]
    rw [Nat.mul_div_mul_right _ _ (by norm_num), hnumber, Nat.mul_add_div (by positivity),
      Nat.div_eq_of_lt (beNat_lt tail)]
    simp

theorem joinBits_eq {size mantissa : ℕ} (hsize : size ≤ 33) (hmantissa : mantissa < 2 ^ 24) :
    joinBits size mantissa = some (UInt32.ofNat (size * 2 ^ 24 + mantissa)) := by
  have hshl : checkedShl 32 size 24 = some (size * 2 ^ 24) :=
    checkedShl_of_lt (by norm_num) (by omega)
  have hbits : fits 32 (size * 2 ^ 24 + mantissa) = some (size * 2 ^ 24 + mantissa) :=
    fits_of_lt (by omega)
  rw [joinBits, hshl, Option.bind_eq_bind, Option.bind_some, hbits]
  rfl

theorem packed_eq {size mantissa : ℕ} (hsize : size ≤ 32) (hmantissa : mantissa < 2 ^ 24) :
    (if mantissa &&& 0x00800000 ≠ 0 then
        (fits 32 (size + 1)).bind fun grown ↦ joinBits grown (mantissa >>> 8)
      else joinBits size mantissa) =
      some (UInt32.ofNat (if 2 ^ 23 ≤ mantissa then (size + 1) * 2 ^ 24 + mantissa / 256
        else size * 2 ^ 24 + mantissa)) := by
  have hsign : mantissa &&& 0x00800000 ≠ 0 ↔ 2 ^ 23 ≤ mantissa := by
    rw [ne_eq, and_signMask_eq_zero_iff, Nat.mod_eq_of_lt hmantissa, not_lt]
  by_cases hlarge : 2 ^ 23 ≤ mantissa
  · have hgrown : fits 32 (size + 1) = some (size + 1) := fits_of_lt (by omega)
    have hmoved : mantissa >>> 8 = mantissa / 256 := Nat.shiftRight_eq_div_pow mantissa 8
    have hjoined : joinBits (size + 1) (mantissa / 256) =
        some (UInt32.ofNat ((size + 1) * 2 ^ 24 + mantissa / 256)) :=
      joinBits_eq (by omega) (by omega)
    rw [if_pos (hsign.mpr hlarge), if_pos hlarge, hgrown, hmoved, Option.bind_some, hjoined]
  · rw [if_neg (fun hset ↦ hlarge (hsign.mp hset)), if_neg hlarge]
    exact joinBits_eq (by omega) hmantissa

/-- Compressing fails on zero alone, and yields the compact value of the number. -/
theorem bitsFromTarget_eq_some_iff {target : Octets 32} {bits : UInt32} :
    bitsFromTarget target = some bits ↔
      number target ≠ 0 ∧ bits = UInt32.ofNat (compactOf (number target)) := by
  cases hfirst : target.octets.findIdx? (· ≠ 0) with
  | none =>
    rw [number_eq_zero_of_findIdx? hfirst]
    simp only [bitsFromTarget, hfirst, Option.bind_eq_bind, Option.bind_none]
    simp
  | some first =>
    obtain ⟨lead, rest, hoctets, hlead⟩ := eq_replicate_append_of_findIdx? hfirst
    have hwidth : first + (rest.length + 1) = 32 := by
      have hlength := target.length_octets
      rwa [hoctets, List.length_append, List.length_replicate, List.length_cons] at hlength
    have hnumber : number target = beNat (lead :: rest) := by
      rw [number, hoctets, beNat_append, beNat_replicate_zero, Nat.zero_mul, Nat.zero_add]
    have hlog : Nat.log 256 (number target) = rest.length := by rw [hnumber, log_beNat rest hlead]
    have hpositive : number target ≠ 0 := by
      have hle := pow_le_beNat rest hlead
      have hpow : 0 < 256 ^ rest.length := by positivity
      omega
    have hmantissa : leadingMantissa target.octets first =
        some (number target * 256 ^ 3 / 256 ^ (Nat.log 256 (number target) + 1)) := by
      rw [hlog, hoctets, leadingMantissa_eq, hnumber]
    have hsignificant : checkedDiff 32 first = some (Nat.log 256 (number target) + 1) := by
      rw [checkedDiff_of_le (by omega), hlog, show 32 - first = rest.length + 1 by omega]
    have hsize : Nat.log 256 (number target) + 1 ≤ 32 := by omega
    have hfits : fits 32 (Nat.log 256 (number target) + 1) =
        some (Nat.log 256 (number target) + 1) := fits_of_lt (by omega)
    have hresult : bitsFromTarget target = some (UInt32.ofNat (compactOf (number target))) := by
      have hpacked := packed_eq hsize (leading_bounds hpositive).2
      rw [bitsFromTarget, hfirst, Option.bind_eq_bind, Option.bind_some, hsignificant,
        Option.bind_some, hfits, Option.bind_some, hmantissa, Option.bind_some, hpacked]
      simp only [compactOf, if_neg hpositive]
    rw [hresult, Option.some.injEq]
    exact ⟨fun heq ↦ ⟨hpositive, heq.symm⟩, fun heq ↦ heq.2.symm⟩

/-! ### The encoding a header has to carry -/

/-- The compact value is the encoding of the number and loses nothing of it. -/
def IsCompactOf (bits : UInt32) (value : ℕ) : Prop :=
  value ≠ 0 ∧ bits.toNat = compactOf value ∧ compactValue bits.toNat = value

/-- The encoding of a number below `2 ^ 255` is a compact value that can be expanded. -/
theorem toNat_ofNat_compactOf {value : ℕ} (hvalue : value < 2 ^ 255) :
    (UInt32.ofNat (compactOf value)).toNat = compactOf value := by
  rw [UInt32.toNat_ofNat']
  apply Nat.mod_eq_of_lt
  by_cases hzero : value = 0
  · simp [hzero]
  · obtain ⟨exponent, significand, hcompact, -, hsignificand, hexponent, -⟩ := compactOf_eq hzero
    have hsmall := hexponent hvalue
    rw [hcompact]
    omega

theorem targetFromBits_compactOf {bits : UInt32} {value : ℕ} {target : Octets 32}
    (hzero : value ≠ 0) (hvalue : value < 2 ^ 255) (hbits : bits.toNat = compactOf value) :
    targetFromBits bits = some target ↔ number target = compactValue (compactOf value) := by
  obtain ⟨exponent, significand, hcompact, hpositive, hsignificand, hexponent, -⟩ :=
    compactOf_eq hzero
  have hlarge := hexponent hvalue
  rw [targetFromBits_eq_some_iff, hbits, hcompact]
  have hsign : (exponent * 2 ^ 24 + significand) % 2 ^ 24 < 2 ^ 23 := by omega
  have hmantissa : (exponent * 2 ^ 24 + significand) % 2 ^ 23 ≠ 0 := by omega
  have hsmall : (exponent * 2 ^ 24 + significand) / 2 ^ 24 ≤ 32 := by omega
  exact ⟨fun hexpanded ↦ hexpanded.2.2.2, fun hnumber ↦ ⟨hsign, hmantissa, hsmall, hnumber⟩⟩

/-- Expanding a compact value to a target and compressing the target to the same value is to
carry the encoding of the target's number. -/
theorem roundTrip_iff {bits : UInt32} {target : Octets 32} (htarget : number target < 2 ^ 255) :
    targetFromBits bits = some target ∧ bitsFromTarget target = some bits ↔
      IsCompactOf bits (number target) := by
  constructor
  · rintro ⟨hexpanded, hcompressed⟩
    obtain ⟨hzero, hbits⟩ := bitsFromTarget_eq_some_iff.mp hcompressed
    have hencoded : bits.toNat = compactOf (number target) := by
      rw [hbits, toNat_ofNat_compactOf htarget]
    exact ⟨hzero, hencoded, (targetFromBits_eq_some_iff.mp hexpanded).2.2.2.symm⟩
  · rintro ⟨hzero, hencoded, hexact⟩
    constructor
    · rw [targetFromBits_compactOf hzero htarget hencoded, ← hencoded, hexact]
    · refine bitsFromTarget_eq_some_iff.mpr ⟨hzero, ?_⟩
      rw [← hencoded, UInt32.ofNat_toNat]

/-! ### Scaling -/

theorem any_ne_zero_eq_false_iff (octets : List UInt8) :
    octets.any (· ≠ 0) = false ↔ beNat octets = 0 := by
  constructor
  · intro hany
    have hzeros : octets = List.replicate octets.length 0 :=
      List.eq_replicate_of_mem fun octet hoctet ↦ by
        simpa using List.any_eq_false.mp hany octet hoctet
    rw [hzeros, beNat_replicate_zero]
  · intro hzero
    have hzeros : octets = List.replicate octets.length 0 :=
      beNat_injective_of_length (by simp) (by rw [hzero, beNat_replicate_zero])
    rw [hzeros]
    simp

/-- The carry and the octets below it are the product, and the carry is a number of 64 bits. -/
theorem multiplyOctets_wide (mul : UInt64) (value : Octets 32) :
    ∃ low carry, multiplyOctets mul.toNat value.octets = some (low, carry) ∧ carry >>> 64 = 0 ∧
      ((leList 8 carry).reverse ++ low).length = 40 ∧
      beNat ((leList 8 carry).reverse ++ low) = number value * mul.toNat := by
  obtain ⟨low, carry, hproduct, hlow, hcarry, hvalue⟩ :=
    multiplyOctets_eq mul.toNat_lt value.octets
  have hmul := mul.toNat_lt
  have hhigh : beNat (leList 8 carry).reverse = carry := by
    rw [beNat_reverse_leList]
    exact Nat.mod_eq_of_lt (by omega)
  refine ⟨low, carry, hproduct, ?_, ?_, ?_⟩
  · rw [Nat.shiftRight_eq_div_pow]
    exact Nat.div_eq_of_lt (by omega)
  · rw [List.length_append, List.length_reverse, length_leList, hlow, value.length_octets]
  · rw [beNat_append, hhigh, hlow, hvalue, number]

/-- Dividing octets from a zero remainder yields the octets of the truncated quotient. -/
theorem divideOctets_exact {div : UInt64} (hdiv : 0 < div.toNat) (octets : List UInt8) :
    ∃ quotient last, divideOctets div.toNat 0 octets = some (quotient, last) ∧
      quotient.length = octets.length ∧ beNat quotient = beNat octets / div.toNat := by
  obtain ⟨quotient, last, hquotient, hlength, hlast, hdivided⟩ :=
    divideOctets_eq div.toNat_lt octets hdiv
  rw [Nat.zero_mul, Nat.zero_add] at hdivided
  refine ⟨quotient, last, hquotient, hlength, ?_⟩
  symm
  rw [Nat.div_eq_iff hdiv]
  constructor
  · omega
  · omega

/-- The low octets of a number are its target when the high ones are zero, and there is none
otherwise. -/
theorem lowOctets_eq_some_iff {octets : List UInt8} (hlength : octets.length = 40)
    {out : Octets 32} :
    (if (octets.take 8).any (· ≠ 0) then none
      else (Octets.zeros 32).overwrite? 0 (octets.drop 8)) = some out ↔
      number out = beNat octets := by
  have hrest : (octets.drop 8).length = 32 := by rw [List.length_drop, hlength]
  have hsplit : beNat octets = beNat (octets.take 8) * 256 ^ 32 + beNat (octets.drop 8) := by
    rw [← hrest, ← beNat_append, List.take_append_drop]
  have hdropped := beNat_lt (octets.drop 8)
  rw [hrest] at hdropped
  have hout : number out < 256 ^ 32 := number_lt out
  by_cases hany : (octets.take 8).any (· ≠ 0) = true
  · rw [if_pos hany]
    have hpositive : beNat (octets.take 8) ≠ 0 := by
      intro hzero
      rw [(any_ne_zero_eq_false_iff _).mpr hzero] at hany
      exact absurd hany (by simp)
    simp only [reduceCtorEq, false_iff]
    omega
  · rw [if_neg hany]
    rw [Bool.not_eq_true, any_ne_zero_eq_false_iff] at hany
    rw [overwrite?_eq_some_iff (by omega), hrest, hsplit, hany]
    simp

/-- Scaling yields the truncated quotient, and fails exactly when that is no number of 32 octets. -/
theorem mulDiv_eq_some_iff {value out : Octets 32} {mul div : UInt64} (hdiv : 0 < div.toNat) :
    mulDiv value mul div = some out ↔ number out = number value * mul.toNat / div.toNat := by
  obtain ⟨low, carry, hproduct, hnone, hlength, hwide⟩ := multiplyOctets_wide mul value
  obtain ⟨quotient, last, hquotient, hwidth, hexact⟩ :=
    divideOctets_exact hdiv ((leList 8 carry).reverse ++ low)
  have hne : div ≠ 0 := by
    intro hzero
    rw [hzero] at hdiv
    exact absurd hdiv (by decide)
  simp only [mulDiv, if_neg hne, hproduct, hnone, ne_eq, not_true_eq_false, if_false, hquotient,
    Option.bind_eq_bind, Option.bind_some]
  rw [← hwide, ← hexact]
  exact lowOctets_eq_some_iff (hwidth.trans hlength)

/-! ### Retargeting -/

/-- A period's target scaled by its timespan over two weeks, the timespan clamped to a factor of
four either way and the result to the easiest target permitted. -/
def scaledTarget (previous : ℕ) (timespan : ℤ) : ℕ :=
  min (0xffff * 2 ^ 208) (previous * (max 302400 (min timespan 4838400)).toNat / 1209600)

/-- The target of the next period: the scaled target as far as a header can carry it. -/
def retargeted (previous : ℕ) (timespan : ℤ) : ℕ :=
  compactValue (compactOf (scaledTarget previous timespan))

theorem number_powLimit : number powLimit = 0xffff * 2 ^ 208 := by
  decide +kernel

theorem retargeted_le (previous : ℕ) (timespan : ℤ) :
    retargeted previous timespan ≤ 0xffff * 2 ^ 208 :=
  (compactValue_compactOf_le _).trans (Nat.min_le_left _ _)

theorem retargeted_eq_zero {previous : ℕ} {timespan : ℤ}
    (hscaled : scaledTarget previous timespan = 0) :
    retargeted previous timespan = 0 := by
  rw [retargeted, hscaled, compactOf_zero]
  rfl

/-- The clamped target is the least of the scaled one and the easiest permitted. -/
theorem number_clamped {previous : Octets 32} {mul div : UInt64} (hdiv : 0 < div.toNat) :
    number (match mulDiv previous mul div with
      | some target => if target ≤ powLimit then target else powLimit
      | none => powLimit) =
      min (0xffff * 2 ^ 208) (number previous * mul.toNat / div.toNat) := by
  rw [← number_powLimit]
  cases hscaled : mulDiv previous mul div with
  | none =>
    have hlarge : ¬ number previous * mul.toNat / div.toNat < 2 ^ 256 := by
      intro hsmall
      obtain ⟨out, hout⟩ := exists_number_eq hsmall
      rw [← mulDiv_eq_some_iff hdiv, hscaled] at hout
      exact absurd hout (by simp)
    have hlimit := number_lt powLimit
    show number powLimit = _
    omega
  | some target =>
    have htarget := (mulDiv_eq_some_iff hdiv).mp hscaled
    by_cases hle : target ≤ powLimit
    · simp only [if_pos hle, ← htarget]
      exact (Nat.min_eq_right (number_le_number_iff.mpr hle)).symm
    · simp only [if_neg hle, ← htarget]
      rw [← number_le_number_iff] at hle
      omega

/-- The clamped timespan is a word of 64 bits. -/
theorem tryFromU64_clamped (timespan : ℤ) :
    tryFromU64 (max (targetTimespan / 4) (min timespan (targetTimespan * 4))) =
      some (UInt64.ofNat (max 302400 (min timespan 4838400)).toNat) := by
  have hclamped : max (targetTimespan / 4) (min timespan (targetTimespan * 4)) =
      max 302400 (min timespan 4838400) := rfl
  rw [hclamped, tryFromU64, if_pos (by omega)]

theorem toNat_clamped (timespan : ℤ) :
    (UInt64.ofNat (max 302400 (min timespan 4838400)).toNat).toNat =
      (max 302400 (min timespan 4838400)).toNat := by
  rw [UInt64.toNat_ofNat']
  exact Nat.mod_eq_of_lt (by omega)

/-- The retarget of the main network compresses and expands the scaled target. -/
theorem exists_retarget_eq (previous : Octets 32) (timespan : ℤ) :
    ∃ computed, number computed = scaledTarget (number previous) timespan ∧
      retarget previous timespan = (bitsFromTarget computed).bind targetFromBits := by
  have htimespan : tryFromU64 targetTimespan = some 1209600 := by decide
  have hdivisor : 0 < (1209600 : UInt64).toNat := by decide
  refine ⟨match mulDiv previous (UInt64.ofNat (max 302400 (min timespan 4838400)).toNat)
      1209600 with
    | some target => if target ≤ powLimit then target else powLimit
    | none => powLimit, ?_, ?_⟩
  · rw [number_clamped hdivisor, toNat_clamped]
    rfl
  · rw [retarget, retargetIn, tryFromU64_clamped, htimespan]
    rfl

theorem scaledTarget_lt (previous : ℕ) (timespan : ℤ) : scaledTarget previous timespan < 2 ^ 255 :=
  lt_of_le_of_lt (Nat.min_le_left _ _) (by norm_num)

/-- The retarget of the main network fails only when the scaled target is zero, and yields the
target of the next period. -/
theorem retarget_eq_some_iff {previous target : Octets 32} {timespan : ℤ} :
    retarget previous timespan = some target ↔
      scaledTarget (number previous) timespan ≠ 0 ∧
        number target = retargeted (number previous) timespan := by
  obtain ⟨computed, hnumber, hretarget⟩ := exists_retarget_eq previous timespan
  have hsmall : number computed < 2 ^ 255 := hnumber.trans_lt (scaledTarget_lt _ _)
  rw [hretarget, Option.bind_eq_some_iff, retargeted, ← hnumber]
  constructor
  · rintro ⟨bits, hbits, hexpanded⟩
    obtain ⟨hzero, hencoded⟩ := bitsFromTarget_eq_some_iff.mp hbits
    have hword : bits.toNat = compactOf (number computed) := by
      rw [hencoded, toNat_ofNat_compactOf hsmall]
    exact ⟨hzero, (targetFromBits_compactOf hzero hsmall hword).mp hexpanded⟩
  · rintro ⟨hzero, htarget⟩
    refine ⟨UInt32.ofNat (compactOf (number computed)),
      bitsFromTarget_eq_some_iff.mpr ⟨hzero, rfl⟩, ?_⟩
    exact (targetFromBits_compactOf hzero hsmall (toNat_ofNat_compactOf hsmall)).mpr htarget

end AnchoredLog.Client.CompactTarget
