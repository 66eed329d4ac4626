import Mathlib.Data.List.DropRight
import Mathlib.Data.Nat.Digits.Lemmas

/-!
# Radix conversion with leading zeros

A number written with its digits least significant first is multiplied and increased by one pass
with a carry (`mulAdd`); doing so for every digit of a source, most significant first, gives the
digits of the number in the new base (`foldl_mulAdd`). The leading zeros of the source, which say
nothing of the number, are written as zeros in front. So written, a source is the conversion of its
conversion back: `convert_convert`.
-/

set_option autoImplicit false
set_option relaxedAutoImplicit false

namespace AnchoredLog.Library.RadixConversion

/-- Multiplies a number by `mult` and adds a carry, digit by digit; what is left of the carry gives
the digits on top. -/
def mulAdd (base mult : ℕ) : List ℕ → ℕ → List ℕ
  | [], carry => Nat.digits base carry
  | digit :: digits, carry =>
    (carry + digit * mult) % base :: mulAdd base mult digits ((carry + digit * mult) / base)

/-- The numbers a pass takes apart into a digit and a carry, and the carry that is left. -/
def sums (base mult : ℕ) : List ℕ → ℕ → List ℕ
  | [], carry => [carry]
  | digit :: digits, carry =>
    (carry + digit * mult) :: sums base mult digits ((carry + digit * mult) / base)

/-- How many zeros a list starts with. -/
def leadingZeros (source : List ℕ) : ℕ :=
  (source.takeWhile (· == 0)).length

/-- The digits in base `base`, most significant first, of digits in base `mult`, a leading zero for
a leading zero. -/
def convert (base mult : ℕ) (source : List ℕ) : List ℕ :=
  List.replicate (leadingZeros source) 0 ++ (source.foldl (mulAdd base mult) []).reverse

variable {base mult : ℕ}

/-- One pass over the digits of a number gives the digits of its multiple and the carry. -/
theorem mulAdd_digits (hbase : 1 < base) (hmult : 0 < mult) (number carry : ℕ) :
    mulAdd base mult (Nat.digits base number) carry =
      Nat.digits base (carry + mult * number) := by
  induction number using Nat.strong_induction_on generalizing carry with
  | _ number ih =>
    rcases Nat.eq_zero_or_pos number with rfl | hpositive
    · rw [Nat.digits_zero, mulAdd, Nat.mul_zero, Nat.add_zero]
    · have hsum : 0 < carry + mult * number :=
        Nat.add_pos_right carry (Nat.mul_pos hmult hpositive)
      have hsplit : carry + mult * number =
          carry + number % base * mult + base * (mult * (number / base)) := by
        conv_lhs => rw [← Nat.mod_add_div number base]
        ring
      rw [Nat.digits_def' hbase hpositive, Nat.digits_def' hbase hsum, mulAdd,
        ih (number / base) (Nat.div_lt_self hpositive hbase), hsplit, Nat.add_mul_mod_self_left,
        Nat.add_mul_div_left _ _ (by omega)]

/-- The digits of a source, taken in one by one, give the digits of the number it writes. -/
theorem foldl_mulAdd (hbase : 1 < base) (hmult : 0 < mult) (source : List ℕ) :
    source.foldl (mulAdd base mult) [] = Nat.digits base (Nat.ofDigits mult source.reverse) := by
  induction source using List.reverseRecOn with
  | nil => simp
  | append_singleton source digit ih =>
    rw [List.foldl_append, ih, List.foldl_cons, List.foldl_nil, mulAdd_digits hbase hmult,
      List.reverse_append, List.reverse_singleton, List.singleton_append, Nat.ofDigits_cons]

/-- With digits below the base and a carry below the factor, every number of a pass is below their
product. -/
theorem lt_of_mem_sums (hbase : 0 < base) {digits : List ℕ}
    (hdigits : ∀ digit ∈ digits, digit < base)
    {carry : ℕ} (hcarry : carry < mult) {sum : ℕ} (hsum : sum ∈ sums base mult digits carry) :
    sum < base * mult := by
  induction digits generalizing carry with
  | nil =>
    rw [sums, List.mem_singleton] at hsum
    rw [hsum]
    exact lt_of_lt_of_le hcarry (Nat.le_mul_of_pos_left mult hbase)
  | cons digit digits ih =>
    rw [List.forall_mem_cons] at hdigits
    have hfirst : carry + digit * mult < base * mult := by
      calc carry + digit * mult < mult + digit * mult := Nat.add_lt_add_right hcarry _
        _ = (digit + 1) * mult := by ring
        _ ≤ base * mult := Nat.mul_le_mul_right mult hdigits.1
    rw [sums, List.mem_cons] at hsum
    rcases hsum with rfl | hrest
    · exact hfirst
    · exact ih hdigits.2 (Nat.div_lt_of_lt_mul hfirst) hrest

/-- No zero stands on top of the digits of a number. -/
theorem head?_reverse_digits_ne_zero (base number : ℕ) :
    (Nat.digits base number).reverse.head? ≠ some 0 := by
  rw [List.head?_reverse]
  by_cases hzero : number = 0
  · simp [hzero]
  · rw [List.getLast?_eq_some_getLast (Nat.digits_ne_nil_iff_ne_zero.mpr hzero), ne_eq,
      Option.some.injEq]
    exact Nat.getLast_digit_ne_zero base hzero

/-- Zeros in front of a list that starts with no zero are its leading zeros. -/
theorem leadingZeros_append {source : List ℕ} (hhead : source.head? ≠ some 0) (count : ℕ) :
    leadingZeros (List.replicate count 0 ++ source) = count := by
  have hnone : source.takeWhile (· == 0) = [] := by
    cases source with
    | nil => rfl
    | cons first rest =>
      refine List.takeWhile_cons_of_neg fun hzero ↦ hhead ?_
      rw [beq_iff_eq.mp hzero, List.head?_cons]
  rw [leadingZeros, List.takeWhile_append_of_pos fun digit hdigit ↦ ?_, hnone, List.append_nil,
    List.length_replicate]
  rw [List.eq_of_mem_replicate hdigit]
  rfl

/-- A list is its leading zeros and what starts with no zero. -/
theorem exists_leadingZeros (source : List ℕ) :
    ∃ rest, source = List.replicate (leadingZeros source) 0 ++ rest ∧ rest.head? ≠ some 0 := by
  refine ⟨source.dropWhile (· == 0), ?_, fun hhead ↦ ?_⟩
  · have hzeros : source.takeWhile (· == 0) = List.replicate (leadingZeros source) 0 := by
      refine List.eq_replicate_of_mem fun digit hdigit ↦ ?_
      exact beq_iff_eq.mp (@List.mem_takeWhile_imp _ (· == 0) _ _ hdigit)
    rw [← hzeros, List.takeWhile_append_dropWhile]
  · have hnot := List.head?_dropWhile_not (· == 0) source
    rw [hhead] at hnot
    exact absurd hnot (by decide)

/-- Leading zeros say nothing of the number. -/
theorem ofDigits_reverse_append (base count : ℕ) (source : List ℕ) :
    Nat.ofDigits base (List.replicate count 0 ++ source).reverse =
      Nat.ofDigits base source.reverse := by
  rw [List.reverse_append, List.reverse_replicate, Nat.ofDigits_append_replicate_zero]

/-- What a conversion is: the leading zeros, and the digits of the number in the new base. -/
theorem convert_eq (hbase : 1 < base) (hmult : 0 < mult) (source : List ℕ) :
    convert base mult source = List.replicate (leadingZeros source) 0 ++
      (Nat.digits base (Nat.ofDigits mult source.reverse)).reverse := by
  rw [convert, foldl_mulAdd hbase hmult]

theorem lt_of_mem_convert (hbase : 1 < base) (hmult : 0 < mult) {source : List ℕ} {digit : ℕ}
    (hdigit : digit ∈ convert base mult source) : digit < base := by
  rw [convert_eq hbase hmult] at hdigit
  rcases List.mem_append.mp hdigit with hzero | hdigits
  · rw [List.eq_of_mem_replicate hzero]
    omega
  · exact Nat.digits_lt_base hbase (List.mem_reverse.mp hdigits)

/-- A source is the conversion back of its conversion. -/
theorem convert_convert (hbase : 1 < base) (hmult : 1 < mult) {source : List ℕ}
    (hsource : ∀ digit ∈ source, digit < mult) :
    convert mult base (convert base mult source) = source := by
  obtain ⟨rest, hsplit, hhead⟩ := exists_leadingZeros source
  generalize leadingZeros source = count at hsplit
  subst hsplit
  have hdigits : Nat.digits mult (Nat.ofDigits mult rest.reverse) = rest.reverse := by
    refine Nat.digits_ofDigits mult hmult _ (fun digit hdigit ↦ ?_) fun hrest hlast ↦ hhead ?_
    · exact hsource digit (List.mem_append_right _ (List.mem_reverse.mp hdigit))
    · rw [← List.getLast?_reverse, List.getLast?_eq_some_getLast hrest, hlast]
  rw [convert_eq hbase (by omega), leadingZeros_append hhead, ofDigits_reverse_append,
    convert_eq hmult (by omega), leadingZeros_append (head?_reverse_digits_ne_zero _ _),
    ofDigits_reverse_append, List.reverse_reverse, Nat.ofDigits_digits, hdigits,
    List.reverse_reverse]

/-- The conversion of a source that has digits has digits. -/
theorem convert_ne_nil (hbase : 1 < base) (hmult : 1 < mult) {source : List ℕ}
    (hsource : ∀ digit ∈ source, digit < mult) (hnonempty : source ≠ []) :
    convert base mult source ≠ [] := by
  intro hempty
  have hback := convert_convert hbase hmult hsource
  rw [hempty] at hback
  exact hnonempty hback.symm

end AnchoredLog.Library.RadixConversion
