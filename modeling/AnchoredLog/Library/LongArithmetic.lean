import AnchoredLog.Library.ByteCodec
import AnchoredLog.Library.Fallible

/-!
# Long multiplication and division of big-endian octet strings

A big-endian octet string is multiplied by one machine word from its last octet to its first and
divided by one machine word from its first octet to its last. Both loops keep an accumulator of
128 bits and check every operation on it. `multiplyOctets_eq` and `divideOctets_eq` say that with
words of 64 bits no check fails and that the octets and the accumulator together hold the exact
product, or the exact quotient and remainder.
-/

set_option autoImplicit false
set_option relaxedAutoImplicit false

namespace AnchoredLog.Library.LongArithmetic

open ByteCodec Fallible

/-! ### The loops -/

/-- The octets of a product by one word, and the carry out of the first octet. -/
def multiplyOctets (multiplier : ℕ) : List UInt8 → Option (List UInt8 × ℕ)
  | [] => some ([], 0)
  | octet :: octets => do
    let (low, carry) ← multiplyOctets multiplier octets
    let product ← fits 128 (octet.toNat * multiplier)
    let value ← fits 128 (product + carry)
    pure (UInt8.ofNat (value % 256) :: low, value / 256)

/-- The octets of a quotient by one word, from a remainder carried in, and the last remainder. -/
def divideOctets (divisor : ℕ) : ℕ → List UInt8 → Option (List UInt8 × ℕ)
  | remainder, [] => some ([], remainder)
  | remainder, octet :: octets => do
    let shifted ← checkedShl 128 remainder 8
    let current ← fits 128 (shifted + octet.toNat)
    let quotient ← checkedDiv current divisor
    let remainder ← checkedRem current divisor
    let (low, last) ← divideOctets divisor remainder octets
    pure (UInt8.ofNat quotient :: low, last)

/-! ### Exactness -/

/-- Multiplication by a word succeeds, and the carry together with the octets is the product. -/
theorem multiplyOctets_eq {multiplier : ℕ} (hmultiplier : multiplier < 2 ^ 64)
    (octets : List UInt8) :
    ∃ low carry, multiplyOctets multiplier octets = some (low, carry) ∧
      low.length = octets.length ∧ carry ≤ multiplier ∧
      carry * 256 ^ octets.length + beNat low = beNat octets * multiplier := by
  induction octets with
  | nil => exact ⟨[], 0, rfl, rfl, Nat.zero_le _, by simp⟩
  | cons octet octets ih =>
    obtain ⟨low, carry, hrest, hlength, hcarry, hproduct⟩ := ih
    have hoctet : octet.toNat ≤ 255 := Nat.le_of_lt_succ octet.toNat_lt
    have hdigit : octet.toNat * multiplier ≤ 255 * multiplier :=
      Nat.mul_le_mul_right multiplier hoctet
    have hfirst : fits 128 (octet.toNat * multiplier) = some (octet.toNat * multiplier) :=
      fits_of_lt (by omega)
    have hsecond : fits 128 (octet.toNat * multiplier + carry) =
        some (octet.toNat * multiplier + carry) := fits_of_lt (by omega)
    refine ⟨UInt8.ofNat ((octet.toNat * multiplier + carry) % 256) :: low,
      (octet.toNat * multiplier + carry) / 256, ?_, ?_, by omega, ?_⟩
    · simp [multiplyOctets, hrest, hfirst, hsecond]
    · rw [List.length_cons, List.length_cons, hlength]
    · have hsplit := Nat.div_add_mod (octet.toNat * multiplier + carry) 256
      rw [beNat_cons, beNat_cons, hlength, List.length_cons, UInt8.toNat_ofNat',
        Nat.mod_mod, Nat.add_mul, ← hproduct, pow_succ]
      calc
        _ = (256 * ((octet.toNat * multiplier + carry) / 256) +
              (octet.toNat * multiplier + carry) % 256) * 256 ^ octets.length + beNat low := by
          ring
        _ = (octet.toNat * multiplier + carry) * 256 ^ octets.length + beNat low := by
          rw [hsplit]
        _ = _ := by ring

/-- Division by a word succeeds from any smaller remainder, and the quotient and the last
remainder are those of the whole number. -/
theorem divideOctets_eq {divisor : ℕ} (hdivisor : divisor < 2 ^ 64) (octets : List UInt8)
    {remainder : ℕ} (hremainder : remainder < divisor) :
    ∃ low last, divideOctets divisor remainder octets = some (low, last) ∧
      low.length = octets.length ∧ last < divisor ∧
      beNat low * divisor + last = remainder * 256 ^ octets.length + beNat octets := by
  induction octets generalizing remainder with
  | nil => exact ⟨[], remainder, rfl, rfl, hremainder, by simp⟩
  | cons octet octets ih =>
    have hpositive : 0 < divisor := by omega
    have hoctet := octet.toNat_lt
    obtain ⟨low, last, hrest, hlength, hlast, hquotient⟩ :=
      ih (Nat.mod_lt (remainder * 256 + octet.toNat) hpositive)
    have hshifted : checkedShl 128 remainder 8 = some (remainder * 256) :=
      checkedShl_of_lt (by norm_num) (by omega)
    have hcurrent : fits 128 (remainder * 256 + octet.toNat) =
        some (remainder * 256 + octet.toNat) := fits_of_lt (by omega)
    have hdigit : (remainder * 256 + octet.toNat) / divisor < 256 := by
      rw [Nat.div_lt_iff_lt_mul hpositive]
      omega
    refine ⟨UInt8.ofNat ((remainder * 256 + octet.toNat) / divisor) :: low, last, ?_, ?_,
      hlast, ?_⟩
    · simp [divideOctets, hshifted, hcurrent, checkedDiv_of_pos hpositive,
        checkedRem_of_pos hpositive, hrest]
    · rw [List.length_cons, List.length_cons, hlength]
    · have hsplit := Nat.div_add_mod (remainder * 256 + octet.toNat) divisor
      rw [beNat_cons, beNat_cons, hlength, List.length_cons, UInt8.toNat_ofNat',
        Nat.mod_eq_of_lt hdigit, pow_succ]
      calc
        _ = (remainder * 256 + octet.toNat) / divisor * 256 ^ octets.length * divisor +
              (beNat low * divisor + last) := by ring
        _ = (divisor * ((remainder * 256 + octet.toNat) / divisor) +
              (remainder * 256 + octet.toNat) % divisor) * 256 ^ octets.length +
              beNat octets := by
          rw [hquotient]
          ring
        _ = (remainder * 256 + octet.toNat) * 256 ^ octets.length + beNat octets := by
          rw [hsplit]
        _ = _ := by ring

end AnchoredLog.Library.LongArithmetic
