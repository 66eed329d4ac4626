import Mathlib.Data.Nat.Digits.Lemmas
import Mathlib.Data.List.Lex
import Mathlib.Data.List.Flatten
import Mathlib.Tactic.NormNum

/-!
# Fixed-width octet strings and little-endian integers

An `Octets width` is a list of octets together with the proof that it has the stated width, so a
value of the wrong width cannot be built. Octet strings of one width are ordered
lexicographically, which is the order of a fixed array of unsigned octets.

`leNat` reads a list of octets as a little-endian number and `leOctets` writes a number at a
fixed width; each inverts the other on numbers that fit (`leNat_leOctets`) and on octet strings
of that width (`leList_leNat`). `beNat` is the big-endian reading. `beNat_lt_beNat_iff` says
that on strings of one width the lexicographic order is the numeric order of the big-endian
readings, and `flatten_injective` that a concatenation of fields determines the fields once
their widths are known.
-/

set_option autoImplicit false
set_option relaxedAutoImplicit false

namespace AnchoredLog.Library.ByteCodec

/-! ### Octets -/

/-- Octets are ordered by value. -/
instance linearOrderUInt8 : LinearOrder UInt8 where
  le_refl := UInt8.le_refl
  le_trans := fun _ _ _ ↦ UInt8.le_trans
  le_antisymm := fun _ _ ↦ UInt8.le_antisymm
  le_total := UInt8.le_total
  lt_iff_le_not_ge := fun left right ↦ by
    rw [UInt8.lt_iff_toNat_lt, UInt8.le_iff_toNat_le, UInt8.le_iff_toNat_le]
    omega
  toDecidableLE := inferInstance

/-! ### Octet strings of a fixed width -/

/-- A string of exactly `width` octets. -/
@[ext] structure Octets (width : ℕ) where
  /-- The octets, first to last. -/
  octets : List UInt8
  /-- There are exactly `width` of them. -/
  length_octets : octets.length = width
deriving DecidableEq

namespace Octets

variable {width : ℕ}

attribute [simp] length_octets

theorem octets_injective : Function.Injective (octets : Octets width → List UInt8) :=
  fun _ _ heq ↦ Octets.ext heq

/-- Octet strings of one width are ordered as lists, the first differing octet deciding. -/
instance linearOrderOctets : LinearOrder (Octets width) :=
  LinearOrder.lift' octets octets_injective

theorem le_iff_octets_le {left right : Octets width} : left ≤ right ↔ left.octets ≤ right.octets :=
  Iff.rfl

theorem lt_iff_octets_lt {left right : Octets width} : left < right ↔ left.octets < right.octets :=
  Iff.rfl

/-- The string of `width` zero octets. -/
def zeros (width : ℕ) : Octets width :=
  ⟨List.replicate width 0, List.length_replicate⟩

instance : Inhabited (Octets width) :=
  ⟨zeros width⟩

/-- The `width` octets of a list from position `start` on, when the list holds that many. -/
def slice? (source : List UInt8) (start width : ℕ) : Option (Octets width) :=
  if h : ((source.drop start).take width).length = width then
    some ⟨(source.drop start).take width, h⟩
  else
    none

/-- The string with `source` copied over its octets from position `start` on, when they fit. -/
def overwrite? (string : Octets width) (start : ℕ) (source : List UInt8) : Option (Octets width) :=
  if h : start + source.length ≤ width then
    some ⟨string.octets.take start ++ source ++ string.octets.drop (start + source.length), by
      simp only [List.length_append, List.length_take, List.length_drop, length_octets]
      omega⟩
  else
    none

end Octets

/-! ### Little-endian integers -/

/-- A list of octets read as a little-endian number. -/
def leNat (octets : List UInt8) : ℕ :=
  Nat.ofDigits 256 (octets.map UInt8.toNat)

@[simp] theorem leNat_nil : leNat [] = 0 :=
  rfl

@[simp] theorem leNat_cons (octet : UInt8) (octets : List UInt8) :
    leNat (octet :: octets) = octet.toNat + 256 * leNat octets := by
  simp [leNat, Nat.ofDigits_cons]

theorem leNat_append (low high : List UInt8) :
    leNat (low ++ high) = leNat low + 256 ^ low.length * leNat high := by
  simp [leNat, Nat.ofDigits_append]

theorem leNat_lt (octets : List UInt8) : leNat octets < 256 ^ octets.length := by
  induction octets with
  | nil => simp
  | cons octet octets ih =>
    have hoctet := octet.toNat_lt
    rw [leNat_cons, List.length_cons, pow_succ]
    omega

/-- The low `width` octets of a number, least significant first. -/
def leList : ℕ → ℕ → List UInt8
  | 0, _ => []
  | width + 1, value => UInt8.ofNat value :: leList width (value / 256)

@[simp] theorem length_leList (width value : ℕ) : (leList width value).length = width := by
  induction width generalizing value with
  | zero => rfl
  | succ width ih => simp [leList, ih]

/-- Writing a number at a width and reading it back keeps the number modulo that width. -/
@[simp] theorem leNat_leList (width value : ℕ) :
    leNat (leList width value) = value % 256 ^ width := by
  induction width generalizing value with
  | zero => simp [leList, Nat.mod_one]
  | succ width ih =>
    rw [leList, leNat_cons, ih, pow_succ', Nat.mod_mul]
    simp

/-- Reading octets and writing the number at their width gives the octets back. -/
theorem leList_leNat (octets : List UInt8) : leList octets.length (leNat octets) = octets := by
  induction octets with
  | nil => rfl
  | cons octet octets ih =>
    have hoctet := octet.toNat_lt
    have hquotient : (octet.toNat + 256 * leNat octets) / 256 = leNat octets := by omega
    have hremainder : UInt8.ofNat (octet.toNat + 256 * leNat octets) = octet := by
      apply UInt8.toNat_inj.mp
      rw [UInt8.toNat_ofNat']
      omega
    rw [List.length_cons, leNat_cons, leList, hquotient, hremainder, ih]

theorem leNat_injective_of_length {left right : List UInt8} (hlength : left.length = right.length)
    (heq : leNat left = leNat right) : left = right := by
  rw [← leList_leNat left, ← leList_leNat right, hlength, heq]

/-- The low `width` octets of a number as a string of that width. -/
def leOctets (width value : ℕ) : Octets width :=
  ⟨leList width value, length_leList width value⟩

@[simp] theorem octets_leOctets (width value : ℕ) :
    (leOctets width value).octets = leList width value :=
  rfl

theorem leNat_leOctets {width value : ℕ} (hvalue : value < 256 ^ width) :
    leNat (leOctets width value).octets = value := by
  rw [octets_leOctets, leNat_leList, Nat.mod_eq_of_lt hvalue]

theorem leList_injective {width left right : ℕ} (hleft : left < 256 ^ width)
    (hright : right < 256 ^ width) (heq : leList width left = leList width right) :
    left = right := by
  have hread := congrArg leNat heq
  rwa [leNat_leList, leNat_leList, Nat.mod_eq_of_lt hleft, Nat.mod_eq_of_lt hright] at hread

/-! ### Big-endian readings and the lexicographic order -/

/-- A list of octets read as a big-endian number. -/
def beNat (octets : List UInt8) : ℕ :=
  leNat octets.reverse

@[simp] theorem beNat_nil : beNat [] = 0 :=
  rfl

@[simp] theorem beNat_cons (octet : UInt8) (octets : List UInt8) :
    beNat (octet :: octets) = octet.toNat * 256 ^ octets.length + beNat octets := by
  rw [beNat, List.reverse_cons, leNat_append, List.length_reverse, leNat_cons, leNat_nil, beNat]
  ring

theorem beNat_append (high low : List UInt8) :
    beNat (high ++ low) = beNat high * 256 ^ low.length + beNat low := by
  rw [beNat, List.reverse_append, leNat_append, List.length_reverse, beNat, beNat]
  ring

@[simp] theorem beNat_replicate_zero (count : ℕ) : beNat (List.replicate count 0) = 0 := by
  induction count with
  | zero => rfl
  | succ count ih => rw [List.replicate_succ, beNat_cons, ih]; simp

@[simp] theorem beNat_reverse_leList (width value : ℕ) :
    beNat (leList width value).reverse = value % 256 ^ width := by
  rw [beNat, List.reverse_reverse, leNat_leList]

theorem beNat_lt (octets : List UInt8) : beNat octets < 256 ^ octets.length := by
  simpa [beNat] using leNat_lt octets.reverse

theorem beNat_injective_of_length {left right : List UInt8} (hlength : left.length = right.length)
    (heq : beNat left = beNat right) : left = right :=
  List.reverse_injective (leNat_injective_of_length (by simpa using hlength) heq)

/-- On octet strings of one length the lexicographic order is the numeric order of the
big-endian readings. -/
theorem beNat_lt_beNat_iff {left right : List UInt8} (hlength : left.length = right.length) :
    beNat left < beNat right ↔ left < right := by
  induction left generalizing right with
  | nil =>
    have hright : right = [] := List.eq_nil_of_length_eq_zero hlength.symm
    simp [hright]
  | cons first rest ih =>
    cases right with
    | nil => simp at hlength
    | cons other others =>
      have htail : rest.length = others.length := by simpa using hlength
      have hrest := beNat_lt rest
      have hothers := beNat_lt others
      rw [beNat_cons, beNat_cons, List.cons_lt_cons_iff, ← ih htail, ← htail]
      rw [← htail] at hothers
      rcases lt_trichotomy first other with hlt | rfl | hgt
      · have hdigit : first.toNat + 1 ≤ other.toNat := UInt8.lt_iff_toNat_lt.mp hlt
        have hscaled := Nat.mul_le_mul_right (256 ^ rest.length) hdigit
        rw [Nat.add_mul, one_mul] at hscaled
        simp only [hlt, true_or, iff_true]
        omega
      · simp
      · have hdigit : other.toNat + 1 ≤ first.toNat := UInt8.lt_iff_toNat_lt.mp hgt
        have hscaled := Nat.mul_le_mul_right (256 ^ rest.length) hdigit
        rw [Nat.add_mul, one_mul] at hscaled
        have hne : first ≠ other := ne_of_gt hgt
        simp only [not_lt_of_gt hgt, hne, false_and, or_self, iff_false, not_lt]
        omega

theorem beNat_le_beNat_iff {width : ℕ} {left right : Octets width} :
    beNat left.octets ≤ beNat right.octets ↔ left ≤ right := by
  rw [← not_lt, ← not_lt, Octets.lt_iff_octets_lt, beNat_lt_beNat_iff (by simp)]

/-- Octets copied into a string of zeros are the number they read, moved left by what follows
them. -/
theorem beNat_overwrite?_zeros {width start : ℕ} {source : List UInt8} {string : Octets width}
    (hstring : (Octets.zeros width).overwrite? start source = some string) :
    beNat string.octets = beNat source * 256 ^ (width - (start + source.length)) := by
  unfold Octets.overwrite? at hstring
  split at hstring
  · next hfits =>
    rw [Option.some.injEq] at hstring
    subst hstring
    simp only [Octets.zeros, List.take_replicate, List.drop_replicate, beNat_append,
      beNat_replicate_zero, List.length_replicate, Nat.zero_mul, Nat.zero_add, Nat.add_zero]
  · exact absurd hstring (by simp)

/-! ### Concatenated fields -/

/-- A concatenation of fields determines the fields once their widths are known. -/
theorem flatten_injective {left right : List (List UInt8)}
    (hwidths : left.map List.length = right.map List.length)
    (heq : left.flatten = right.flatten) : left = right :=
  List.eq_iff_flatten_eq.mpr ⟨heq, hwidths⟩

end AnchoredLog.Library.ByteCodec
