import AnchoredLog.Client.CompactTarget

/-!
# The laws of compact targets and of the retarget

Compressing a target and expanding the result keeps its leading significant octets, three of them or
two where the first would set the sign bit, and clears the rest; on what an expansion yields it
loses nothing. `truncated` is the target that is left. The laws are proved on numbers, where the
octets a compact value keeps are a quotient by a power of 256, and read back on octets by
`number_truncated`.

The retarget compresses and expands the exact scaled target; `mulDiv` computes that scale exactly,
or fails where the quotient is no number of 256 bits.
-/

set_option autoImplicit false
set_option relaxedAutoImplicit false

namespace AnchoredLog.Client.CompactLaws

open Library.ByteCodec Library.Fallible CompactTarget

/-! ### The octets that are kept -/

/-- The number of octets of a number without its leading zeros. -/
def size (value : ℕ) : ℕ :=
  Nat.log 256 value + 1

/-- How many leading octets the compact value of a number keeps. -/
def kept (value : ℕ) : ℕ :=
  if 128 ≤ value / 256 ^ Nat.log 256 value then 2 else 3

/-- A number without the octets below those that are kept. -/
def leadingPart (value : ℕ) : ℕ :=
  value / 256 ^ (size value - kept value) * 256 ^ (size value - kept value)

theorem kept_pos (value : ℕ) : 0 < kept value := by
  unfold kept
  split <;> norm_num

theorem leadingPart_le (value : ℕ) : leadingPart value ≤ value :=
  Nat.div_mul_le_self _ _

/-- The leading octet decides whether the three leading octets would set the sign bit. -/
theorem signBit_iff (value : ℕ) :
    2 ^ 23 ≤ value * 256 ^ 3 / 256 ^ (Nat.log 256 value + 1) ↔
      128 ≤ value / 256 ^ Nat.log 256 value := by
  have hpow : 0 < 256 ^ Nat.log 256 value := by positivity
  rw [Nat.le_div_iff_mul_le (by positivity), Nat.le_div_iff_mul_le hpow, pow_succ]
  omega

/-- The compact value of a positive number: the octets it keeps below an exponent that counts them
in. -/
theorem compactOf_eq_kept {value : ℕ} (hvalue : value ≠ 0) :
    compactOf value = (size value + (3 - kept value)) * 2 ^ 24 +
      value * 256 ^ kept value / 256 ^ size value := by
  by_cases hsign : 128 ≤ value / 256 ^ Nat.log 256 value
  · have hscaled : value * 256 ^ 3 / 256 ^ (Nat.log 256 value + 1) / 256 =
        value * 256 ^ 2 / 256 ^ (Nat.log 256 value + 1) := by
      rw [Nat.div_div_eq_div_mul, show value * 256 ^ 3 = value * 256 ^ 2 * 256 by ring,
        Nat.mul_div_mul_right _ _ (by norm_num)]
    simp only [compactOf, if_neg hvalue, if_pos ((signBit_iff value).mpr hsign), kept, if_pos hsign,
      size, hscaled]
  · simp only [compactOf, if_neg hvalue, if_neg (fun hset ↦ hsign ((signBit_iff value).mp hset)),
      kept, if_neg hsign, size, Nat.sub_self, Nat.add_zero]

/-- Moving a number down by some octets and back up clears them, and moving it up and back down
changes nothing. -/
theorem div_mul_pow (value up down : ℕ) :
    value * 256 ^ up / 256 ^ down * 256 ^ down / 256 ^ up =
      value / 256 ^ (down - up) * 256 ^ (down - up) := by
  rcases Nat.le_total up down with hle | hle
  · obtain ⟨rest, rfl⟩ := Nat.exists_eq_add_of_le hle
    rw [Nat.add_sub_cancel_left, pow_add, Nat.mul_comm value,
      Nat.mul_div_mul_left _ _ (by positivity), Nat.mul_comm (256 ^ up), ← Nat.mul_assoc,
      Nat.mul_div_cancel _ (by positivity)]
  · obtain ⟨rest, rfl⟩ := Nat.exists_eq_add_of_le hle
    rw [Nat.sub_eq_zero_of_le hle, pow_zero, Nat.div_one, Nat.mul_one, pow_add,
      show value * (256 ^ down * 256 ^ rest) = value * 256 ^ rest * 256 ^ down by ring,
      Nat.mul_div_cancel _ (by positivity),
      show value * 256 ^ rest * 256 ^ down = value * (256 ^ down * 256 ^ rest) by ring,
      Nat.mul_div_cancel _ (by positivity)]

/-- Compressing and expanding keeps the leading octets. -/
theorem compactValue_compactOf {value : ℕ} (hvalue : value ≠ 0) :
    compactValue (compactOf value) = leadingPart value := by
  have hmantissa : value * 256 ^ kept value / 256 ^ size value < 2 ^ 23 := by
    by_cases hsign : 128 ≤ value / 256 ^ Nat.log 256 value
    · rw [kept, if_pos hsign, size, Nat.div_lt_iff_lt_mul (by positivity)]
      have hbelow : value < 256 ^ (Nat.log 256 value + 1) :=
        Nat.lt_pow_succ_log_self (by norm_num) value
      calc
        value * 256 ^ 2 < 256 ^ (Nat.log 256 value + 1) * 256 ^ 2 :=
          Nat.mul_lt_mul_of_pos_right hbelow (by norm_num)
        _ ≤ 2 ^ 23 * 256 ^ (Nat.log 256 value + 1) := by
          rw [Nat.mul_comm]
          exact Nat.mul_le_mul_right _ (by norm_num)
    · rw [kept, if_neg hsign, size, ← not_le]
      exact fun hset ↦ hsign ((signBit_iff value).mp hset)
  rw [compactOf_eq_kept hvalue, compactValue_of_parts hmantissa, leadingPart, ← div_mul_pow]
  by_cases hsign : 128 ≤ value / 256 ^ Nat.log 256 value
  · have hkept : kept value = 2 := if_pos hsign
    rw [hkept, pow_add, pow_one, ← Nat.mul_assoc, show (256 : ℕ) ^ 3 = 256 ^ 2 * 256 by norm_num,
      Nat.mul_div_mul_right _ _ (by norm_num)]
  · have hkept : kept value = 3 := if_neg hsign
    rw [hkept, Nat.sub_self, Nat.add_zero]

/-! ### What is kept of what was kept -/

section LeadingPart

variable {value : ℕ}

theorem pow_le_leadingPart (hvalue : value ≠ 0) : 256 ^ Nat.log 256 value ≤ leadingPart value := by
  have hkept := kept_pos value
  have hsplit : 256 ^ Nat.log 256 value = 256 ^ (Nat.log 256 value - (size value - kept value)) *
      256 ^ (size value - kept value) := by
    rw [← pow_add]
    congr 1
    unfold size
    omega
  have hlow : 256 ^ Nat.log 256 value ≤ value := Nat.pow_log_le_self 256 hvalue
  rw [hsplit] at hlow
  rw [hsplit]
  exact Nat.mul_le_mul_right _ ((Nat.le_div_iff_mul_le (by positivity)).mpr hlow)

theorem leadingPart_pos (hvalue : value ≠ 0) : 0 < leadingPart value :=
  lt_of_lt_of_le (by positivity) (pow_le_leadingPart hvalue)

theorem log_leadingPart (hvalue : value ≠ 0) :
    Nat.log 256 (leadingPart value) = Nat.log 256 value :=
  Nat.log_eq_of_pow_le_of_lt_pow (pow_le_leadingPart hvalue)
    (lt_of_le_of_lt (leadingPart_le value) (Nat.lt_pow_succ_log_self (by norm_num) value))

/-- The leading octet stays. -/
theorem leadingPart_div :
    leadingPart value / 256 ^ Nat.log 256 value = value / 256 ^ Nat.log 256 value := by
  have hkept := kept_pos value
  have hsplit : 256 ^ Nat.log 256 value = 256 ^ (size value - kept value) *
      256 ^ (Nat.log 256 value - (size value - kept value)) := by
    rw [← pow_add]
    congr 1
    unfold size
    omega
  rw [hsplit, ← Nat.div_div_eq_div_mul, ← Nat.div_div_eq_div_mul, leadingPart,
    Nat.mul_div_cancel _ (by positivity)]

theorem kept_leadingPart (hvalue : value ≠ 0) : kept (leadingPart value) = kept value := by
  rw [kept, log_leadingPart hvalue, leadingPart_div, kept]

/-- What is kept has the same compact value. -/
theorem compactOf_leadingPart (hvalue : value ≠ 0) :
    compactOf (leadingPart value) = compactOf value := by
  have hmantissa : leadingPart value * 256 ^ kept value / 256 ^ size value =
      value * 256 ^ kept value / 256 ^ size value := by
    rcases Nat.le_total (kept value) (size value) with hle | hle
    · have hsplit : (256 : ℕ) ^ size value =
          256 ^ (size value - kept value) * 256 ^ kept value := by
        rw [← pow_add, Nat.sub_add_cancel hle]
      rw [hsplit, Nat.mul_div_mul_right _ _ (by positivity),
        Nat.mul_div_mul_right _ _ (by positivity), leadingPart,
        Nat.mul_div_cancel _ (by positivity)]
    · rw [leadingPart, Nat.sub_eq_zero_of_le hle, pow_zero, Nat.div_one, Nat.mul_one]
  rw [compactOf_eq_kept (leadingPart_pos hvalue).ne', compactOf_eq_kept hvalue,
    kept_leadingPart hvalue, size, log_leadingPart hvalue, ← size, hmantissa]

/-- A significand of 23 bits, moved up by some octets, is kept whole. -/
theorem leadingPart_eq_self {octets : ℕ} (hvalue : value ≠ 0) (hdvd : 256 ^ octets ∣ value)
    (hlt : value < 2 ^ 23 * 256 ^ octets) : leadingPart value = value := by
  have hlow : 256 ^ Nat.log 256 value ≤ value := Nat.pow_log_le_self 256 hvalue
  have hcut : size value - kept value ≤ octets := by
    by_contra hlarge
    by_cases hsign : 128 ≤ value / 256 ^ Nat.log 256 value
    · have hkept : kept value = 2 := if_pos hsign
      have hpow : 256 ^ (octets + 2) ≤ 256 ^ Nat.log 256 value :=
        Nat.pow_le_pow_right (by norm_num) (by unfold size at hlarge; omega)
      rw [Nat.le_div_iff_mul_le (by positivity)] at hsign
      rw [pow_add] at hpow
      omega
    · have hkept : kept value = 3 := if_neg hsign
      have hpow : 256 ^ (octets + 3) ≤ 256 ^ Nat.log 256 value :=
        Nat.pow_le_pow_right (by norm_num) (by unfold size at hlarge; omega)
      rw [pow_add] at hpow
      omega
  exact Nat.div_mul_cancel ((pow_dvd_pow 256 hcut).trans hdvd)

end LeadingPart

/-- What a compact value stands for is a significand of 23 bits moved up by some octets. -/
theorem leadingPart_compactValue {bits : ℕ} (hpositive : compactValue bits ≠ 0) :
    leadingPart (compactValue bits) = compactValue bits := by
  have hsignificand : bits % 2 ^ 23 < 2 ^ 23 := Nat.mod_lt _ (by norm_num)
  rcases Nat.le_total 3 (bits / 2 ^ 24) with hle | hle
  · have hvalue : compactValue bits = bits % 2 ^ 23 * 256 ^ (bits / 2 ^ 24 - 3) := by
      rw [compactValue, show bits / 2 ^ 24 = bits / 2 ^ 24 - 3 + 3 by omega, pow_add,
        ← Nat.mul_assoc, Nat.mul_div_cancel _ (by norm_num)]
      simp only [Nat.add_sub_cancel]
    exact @leadingPart_eq_self _ (bits / 2 ^ 24 - 3) hpositive (hvalue ▸ Nat.dvd_mul_left _ _)
      (hvalue ▸ Nat.mul_lt_mul_of_pos_right hsignificand (by positivity))
  · have hpow : (256 : ℕ) ^ (bits / 2 ^ 24) ≤ 256 ^ 3 := Nat.pow_le_pow_right (by norm_num) hle
    have hsmall : compactValue bits ≤ bits % 2 ^ 23 := by
      rw [compactValue]
      refine Nat.div_le_of_le_mul ?_
      rw [Nat.mul_comm (256 ^ 3)]
      exact Nat.mul_le_mul_left _ hpow
    exact @leadingPart_eq_self _ 0 hpositive (by simp) (by omega)

/-! ### The truncation of a target -/

/-- The position of the first octet of a target that is not zero. -/
def firstSignificant (target : Octets 32) : ℕ :=
  target.octets.findIdx (· ≠ 0)

/-- How many octets are kept from the first significant one on: three, or two where that one is at
least `0x80`. -/
def keptOctets (target : Octets 32) : ℕ :=
  if 0x80 ≤ (target.octets[firstSignificant target]?).getD 0 then 2 else 3

/-- The position of the first octet that is not kept, or the end of the target. -/
def keptEnd (target : Octets 32) : ℕ :=
  min (firstSignificant target + keptOctets target) 32

/-- The target with its leading significant octets, and zeros below. -/
def truncated (target : Octets 32) : Octets 32 :=
  ⟨target.octets.take (keptEnd target) ++ List.replicate (32 - keptEnd target) 0, by
    have hend : keptEnd target ≤ 32 := Nat.min_le_right _ _
    rw [List.length_append, List.length_take, target.length_octets, List.length_replicate]
    omega⟩

/-- A target other than zero, from its first significant octet on. -/
theorem exists_lead {target : Octets 32} (hpositive : number target ≠ 0) :
    ∃ lead rest, target.octets = List.replicate (firstSignificant target) 0 ++ lead :: rest ∧
      firstSignificant target + rest.length = 31 ∧ number target = beNat (lead :: rest) ∧
      Nat.log 256 (number target) = rest.length := by
  cases hfirst : target.octets.findIdx? (· ≠ 0) with
  | none => exact absurd (number_eq_zero_of_findIdx? hfirst) hpositive
  | some first =>
    obtain ⟨lead, rest, hoctets, hlead⟩ := eq_replicate_append_of_findIdx? hfirst
    have hindex : firstSignificant target = first :=
      (List.findIdx?_eq_some_iff_findIdx_eq.mp hfirst).2
    have hnumber : number target = beNat (lead :: rest) := by
      rw [number, hoctets, beNat_append, beNat_replicate_zero, Nat.zero_mul, Nat.zero_add]
    have hlength := target.length_octets
    rw [hoctets, List.length_append, List.length_replicate, List.length_cons] at hlength
    exact ⟨lead, rest, hindex ▸ hoctets, by omega, hnumber, hnumber ▸ log_beNat rest hlead⟩

/-- The truncation of a target stands for the leading part of its number. -/
theorem number_truncated {target : Octets 32} (hpositive : number target ≠ 0) :
    number (truncated target) = leadingPart (number target) := by
  obtain ⟨lead, rest, hoctets, hwidth, hnumber, hlog⟩ := exists_lead hpositive
  have hread : target.octets[firstSignificant target]? = some lead := by
    conv_lhs => rw [hoctets]
    rw [List.getElem?_append_right (by simp)]
    simp
  have hleading : number target / 256 ^ Nat.log 256 (number target) = lead.toNat := by
    rw [hlog, hnumber, beNat_cons, Nat.mul_comm, Nat.mul_add_div (by positivity),
      Nat.div_eq_of_lt (beNat_lt rest), Nat.add_zero]
  have hkept : keptOctets target = kept (number target) := by
    rw [keptOctets, kept, hread, Option.getD_some, hleading]
    exact if_congr UInt8.le_iff_toNat_le rfl rfl
  have hend : 32 - keptEnd target = size (number target) - kept (number target) := by
    rw [keptEnd, size, hlog, hkept]
    omega
  have hsplit : number target = beNat (target.octets.take (keptEnd target)) *
      256 ^ (32 - keptEnd target) + beNat (target.octets.drop (keptEnd target)) := by
    have hdrop : (target.octets.drop (keptEnd target)).length = 32 - keptEnd target := by
      rw [List.length_drop, target.length_octets]
    rw [← hdrop, ← beNat_append, List.take_append_drop, number]
  have hbelow : beNat (target.octets.drop (keptEnd target)) < 256 ^ (32 - keptEnd target) := by
    have hlt := beNat_lt (target.octets.drop (keptEnd target))
    rwa [List.length_drop, target.length_octets] at hlt
  have hquotient : number target / 256 ^ (32 - keptEnd target) =
      beNat (target.octets.take (keptEnd target)) := by
    rw [hsplit, Nat.mul_comm, Nat.mul_add_div (by positivity), Nat.div_eq_of_lt hbelow,
      Nat.add_zero]
  rw [leadingPart, ← hend, hquotient, number, truncated]
  dsimp only
  rw [beNat_append, beNat_replicate_zero, List.length_replicate, Nat.add_zero]

/-- A target below `2 ^ 255` has a compact value, and it expands to the truncation. -/
theorem exists_bitsFromTarget_eq {target : Octets 32} (hpositive : 0 < number target)
    (hsmall : number target < 2 ^ 255) : ∃ bits, bitsFromTarget target = some bits ∧
      targetFromBits bits = some (truncated target) := by
  refine ⟨UInt32.ofNat (compactOf (number target)),
    bitsFromTarget_eq_some_iff.mpr ⟨hpositive.ne', rfl⟩, ?_⟩
  rw [targetFromBits_compactOf hpositive.ne' hsmall (toNat_ofNat_compactOf hsmall),
    compactValue_compactOf hpositive.ne', number_truncated hpositive.ne']

/-! ### The laws -/

/-- A target below `2 ^ 255` has a compact value, which expands to its truncation; a compact value
expands to the number it stands for, and what it expands to is its own truncation and has one
compact value that it expands from and compresses to. -/
theorem compact_encoding_laws :
    (∀ target : Octets 32, 0 < number target → number target < 2 ^ 255 → ∃ bits,
      bitsFromTarget target = some bits ∧ targetFromBits bits = some (truncated target) ∧
        0 < number (truncated target) ∧ number (truncated target) ≤ number target ∧
        bitsFromTarget (truncated target) = some bits) ∧
    (∀ (bits : UInt32) (target : Octets 32), targetFromBits bits = some target →
      0 < number target →
        (bitsFromTarget target).bind targetFromBits = some target ∧
        ∃! canonical, targetFromBits canonical = some target ∧
          bitsFromTarget target = some canonical) ∧
    ∀ (bits : UInt32) (target : Octets 32), targetFromBits bits = some target →
      number target = bits.toNat % 2 ^ 23 * 256 ^ (bits.toNat / 2 ^ 24) / 256 ^ 3 := by
  refine ⟨fun target hpositive hsmall ↦ ?_, fun bits target hbits hpositive ↦ ?_,
    fun bits target hbits ↦ (targetFromBits_eq_some_iff.mp hbits).2.2.2⟩
  · obtain ⟨bits, hcompressed, hexpanded⟩ := exists_bitsFromTarget_eq hpositive hsmall
    have hnumber := number_truncated hpositive.ne'
    refine ⟨bits, hcompressed, hexpanded, hnumber ▸ leadingPart_pos hpositive.ne',
      hnumber ▸ leadingPart_le _, bitsFromTarget_eq_some_iff.mpr ⟨?_, ?_⟩⟩
    · exact hnumber ▸ (leadingPart_pos hpositive.ne').ne'
    · rw [hnumber, compactOf_leadingPart hpositive.ne',
        (bitsFromTarget_eq_some_iff.mp hcompressed).2]
  · obtain ⟨-, -, hexponent, hvalue⟩ := targetFromBits_eq_some_iff.mp hbits
    have hsame : truncated target = target := by
      apply number_injective
      rw [number_truncated hpositive.ne', hvalue, leadingPart_compactValue (hvalue ▸ hpositive.ne')]
    have hsmall : number target < 2 ^ 255 := by
      rw [hvalue, compactValue, Nat.div_lt_iff_lt_mul (by norm_num)]
      calc
        _ < 2 ^ 23 * 256 ^ (bits.toNat / 2 ^ 24) :=
          Nat.mul_lt_mul_of_pos_right (Nat.mod_lt _ (by norm_num)) (by positivity)
        _ ≤ 2 ^ 23 * 256 ^ 32 :=
          Nat.mul_le_mul_left _ (Nat.pow_le_pow_right (by norm_num) hexponent)
        _ = 2 ^ 255 * 256 ^ 3 := by norm_num
    obtain ⟨canonical, hcompressed, hexpanded⟩ := exists_bitsFromTarget_eq hpositive hsmall
    rw [hsame] at hexpanded
    refine ⟨by rw [hcompressed, Option.bind_some, hexpanded], canonical, ⟨hexpanded, hcompressed⟩,
      fun other hother ↦ ?_⟩
    rw [hcompressed, Option.some.injEq] at hother
    exact hother.2.symm

/-- Scaling is exact or fails where the quotient is no target, and the retarget compresses and
expands the scaled target, failing where that is zero. -/
theorem retarget_exact :
    (∀ (value : Octets 32) (mul div : UInt64),
      (0 < div.toNat → number value * mul.toNat / div.toNat < 2 ^ 256 →
        ∃ out, mulDiv value mul div = some out ∧
          number out = number value * mul.toNat / div.toNat) ∧
      (¬ (0 < div.toNat ∧ number value * mul.toNat / div.toNat < 2 ^ 256) →
        mulDiv value mul div = none)) ∧
    ∀ (previous : Octets 32) (timespan : ℤ), ∃ computed : Octets 32,
      number computed = min (number powLimit)
        (number previous * (max 302400 (min timespan 4838400)).toNat / 1209600) ∧
      retarget previous timespan = (bitsFromTarget computed).bind targetFromBits ∧
      (retarget previous timespan = none ↔ number computed = 0) := by
  constructor
  · intro value mul div
    constructor
    · intro hdiv hsmall
      obtain ⟨out, hout⟩ := exists_number_eq hsmall
      exact ⟨out, (mulDiv_eq_some_iff hdiv).mpr hout, hout⟩
    · intro hnot
      rcases Nat.eq_zero_or_pos div.toNat with hzero | hdiv
      · rw [mulDiv, if_pos (UInt64.toNat_inj.mp hzero)]
      · rw [Option.eq_none_iff_forall_ne_some]
        intro out hout
        rw [mulDiv_eq_some_iff hdiv] at hout
        exact hnot ⟨hdiv, hout ▸ number_lt out⟩
  · intro previous timespan
    obtain ⟨computed, hnumber, hretarget⟩ := exists_retarget_eq previous timespan
    refine ⟨computed, number_powLimit ▸ hnumber, hretarget, ?_⟩
    have hsmall : number computed < 2 ^ 255 := hnumber.trans_lt (scaledTarget_lt _ _)
    constructor
    · intro hnone
      by_contra hzero
      obtain ⟨bits, hcompressed, hexpanded⟩ :=
        exists_bitsFromTarget_eq (Nat.pos_of_ne_zero hzero) hsmall
      rw [hretarget, hcompressed, Option.bind_some, hexpanded] at hnone
      cases hnone
    · intro hzero
      rw [hretarget, Option.bind_eq_none_iff]
      exact fun bits hbits ↦ absurd hzero (bitsFromTarget_eq_some_iff.mp hbits).1

end AnchoredLog.Client.CompactLaws
