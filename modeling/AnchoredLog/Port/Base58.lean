import AnchoredLog.Library.RadixConversion
import AnchoredLog.Port.PackageText

/-!
# Base58

Both directions are one conversion of digits, from base 256 to base 58 and from base 58 to base 256
(`base58Encode_eq`, `base58Decode_values`), so that each undoes the other. Every number either loop
computes is below 58 · 256 (`encode_sums_lt`, `decode_sums_lt`), so the shifts and masks of 32-bit
numbers are products, quotients and remainders.

A string of the language is a list of 16-bit units, and `base58_round_trips` is about these.
-/

set_option autoImplicit false
set_option relaxedAutoImplicit false

namespace AnchoredLog.Port.Base58

open Library.ByteCodec Library.Fallible Library.JsonText Library.RadixConversion
open Primitives JsonFields PackageText

/-! ### The port -/

/-- `ALPHABET`. -/
def base58Alphabet : List Char :=
  ['1', '2', '3', '4', '5', '6', '7', '8', '9', 'A', 'B', 'C', 'D', 'E', 'F', 'G', 'H', 'J', 'K',
    'L', 'M', 'N', 'P', 'Q', 'R', 'S', 'T', 'U', 'V', 'W', 'X', 'Y', 'Z', 'a', 'b', 'c', 'd', 'e',
    'f', 'g', 'h', 'i', 'j', 'k', 'm', 'n', 'o', 'p', 'q', 'r', 's', 't', 'u', 'v', 'w', 'x', 'y',
    'z']

/-- The character of a value below fifty-eight. -/
def base58Char (value : ℕ) : Char :=
  base58Alphabet[value]?.getD ' '

/-- The digits in base 58, least significant first, with one byte more. -/
def base58Byte (digits : List ℕ) (byte : UInt8) : List ℕ :=
  mulAdd 58 256 digits byte.toNat

def base58Encode (bytes : List UInt8) : String :=
  if bytes.length = 0 then
    ""
  else
    let digits := bytes.foldl base58Byte []
    let zeros := (bytes.takeWhile (· == 0)).length
    String.ofList (List.replicate zeros (base58Char 0) ++ digits.reverse.map base58Char)

section Text

variable (stringify : Option Json → String)

/-- The magnitude in base 256, least significant first, with one character more. -/
def base58Step (magnitude : List ℕ) (ch : Char) : Thrown (List ℕ) := do
  let value ← okOr (base58Alphabet.findIdx? (· == ch))
    (Failure.typeError ("base58: invalid character " ++
      stringify (some (.string (String.singleton ch)))))
  return mulAdd 256 58 magnitude value

def base58Decode (s : String) : Thrown (List UInt8) := do
  let text := s.toList
  require (text ≠ []) (.typeError "base58: empty")
  let magnitude ← text.foldlM (base58Step stringify) []
  let magnitude := magnitude.rdropWhile (· == 0)
  let leading := (text.takeWhile (· == base58Char 0)).length
  return List.replicate leading 0 ++ magnitude.reverse.map UInt8.ofNat

end Text

/-! ### Both directions as conversions -/

theorem findIdx?_base58Char {value : ℕ} (hvalue : value < 58) :
    base58Alphabet.findIdx? (· == base58Char value) = some value := by
  revert value
  decide

theorem base58Char_injective {left right : ℕ} (hleft : left < 58) (hright : right < 58)
    (hsame : base58Char left = base58Char right) : left = right := by
  have hindex := findIdx?_base58Char hleft
  rw [hsame, findIdx?_base58Char hright] at hindex
  exact (Option.some.inj hindex).symm

theorem toNat_base58Char_lt {value : ℕ} (hvalue : value < 58) :
    (base58Char value).toNat < 128 := by
  revert value
  decide

/-- The characters of the alphabet are those of the values below fifty-eight. -/
theorem mem_base58Alphabet_iff {ch : Char} :
    ch ∈ base58Alphabet ↔ ∃ value < 58, ch = base58Char value := by
  constructor
  · intro hmember
    obtain ⟨value, hvalue, rfl⟩ := List.getElem_of_mem hmember
    refine ⟨value, hvalue, ?_⟩
    rw [base58Char, List.getElem?_eq_getElem hvalue, Option.getD_some]
  · rintro ⟨value, hvalue, rfl⟩
    rw [base58Char, List.getElem?_eq_getElem hvalue, Option.getD_some]
    exact List.getElem_mem hvalue

/-- A list of images is the image of a list. -/
theorem exists_map_eq {Source Target : Type} {property : Source → Prop} {image : Source → Target}
    {targets : List Target}
    (htargets : ∀ target ∈ targets, ∃ source, property source ∧ target = image source) :
    ∃ sources : List Source, (∀ source ∈ sources, property source) ∧
      targets = sources.map image := by
  induction targets with
  | nil => exact ⟨[], by simp, rfl⟩
  | cons target targets ih =>
    rw [List.forall_mem_cons] at htargets
    obtain ⟨source, hsource, rfl⟩ := htargets.1
    obtain ⟨sources, hsources, rfl⟩ := ih htargets.2
    exact ⟨source :: sources, List.forall_mem_cons.mpr ⟨hsource, hsources⟩, rfl⟩

/-- The text of some values. -/
def textOf (values : List ℕ) : String :=
  String.ofList (values.map base58Char)

/-- The encoder converts from base 256 to base 58. -/
theorem base58Encode_eq (bytes : List UInt8) :
    base58Encode bytes = textOf (convert 58 256 (bytes.map UInt8.toNat)) := by
  have hzeros : (bytes.takeWhile (· == 0)).length = leadingZeros (bytes.map UInt8.toNat) := by
    rw [leadingZeros, List.takeWhile_map, List.length_map]
    refine congrArg (fun test ↦ (bytes.takeWhile test).length) (funext fun byte ↦ ?_)
    rw [Function.comp_apply, Bool.eq_iff_iff, beq_iff_eq, beq_iff_eq, ← UInt8.toNat_inj]
    rfl
  rw [base58Encode, textOf, convert]
  split_ifs with hempty
  · rw [List.eq_nil_of_length_eq_zero hempty]
    rfl
  · rw [hzeros, List.map_append, List.map_replicate, List.foldl_map]
    rfl

/-- Every number the encoder's inner loop computes is below 58 · 256. -/
theorem encode_sums_lt (bytes : List UInt8) (byte : UInt8) {sum : ℕ}
    (hsum : sum ∈ sums 58 256 (bytes.foldl base58Byte []) byte.toNat) : sum < 58 * 256 := by
  have hdigits : bytes.foldl base58Byte [] =
      Nat.digits 58 (Nat.ofDigits 256 (bytes.map UInt8.toNat).reverse) := by
    rw [← foldl_mulAdd (by norm_num) (by norm_num), List.foldl_map]
    rfl
  rw [hdigits] at hsum
  exact lt_of_mem_sums (by norm_num) (fun _ ↦ Nat.digits_lt_base (by norm_num)) byte.toNat_lt hsum

/-- Every number the decoder's inner loop computes is below 256 · 58. -/
theorem decode_sums_lt (values : List ℕ) {value sum : ℕ} (hvalue : value < 58)
    (hsum : sum ∈ sums 256 58 (values.foldl (mulAdd 256 58) []) value) : sum < 256 * 58 := by
  rw [foldl_mulAdd (by norm_num) (by norm_num)] at hsum
  exact lt_of_mem_sums (by norm_num) (fun _ ↦ Nat.digits_lt_base (by norm_num)) hvalue hsum

section Text

variable {stringify : Option Json → String}

theorem base58Step_base58Char {value : ℕ} (hvalue : value < 58) (magnitude : List ℕ) :
    base58Step stringify magnitude (base58Char value) = .ok (mulAdd 256 58 magnitude value) := by
  rw [base58Step, findIdx?_base58Char hvalue]
  rfl

theorem foldlM_base58Step {values : List ℕ} (hvalues : ∀ value ∈ values, value < 58)
    (magnitude : List ℕ) :
    (values.map base58Char).foldlM (base58Step stringify) magnitude =
      .ok (values.foldl (mulAdd 256 58) magnitude) := by
  induction values generalizing magnitude with
  | nil => rfl
  | cons value values ih =>
    rw [List.forall_mem_cons] at hvalues
    rw [List.map_cons, List.foldlM_cons, base58Step_base58Char hvalues.1, bind_ok, ih hvalues.2,
      List.foldl_cons]

/-- The characters of the digit zero in front of a text are the leading zeros of its values. -/
theorem length_takeWhile_map_base58Char {values : List ℕ}
    (hvalues : ∀ value ∈ values, value < 58) :
    ((values.map base58Char).takeWhile (· == base58Char 0)).length = leadingZeros values := by
  induction values with
  | nil => rfl
  | cons value values ih =>
    rw [List.forall_mem_cons] at hvalues
    rw [leadingZeros] at ih ⊢
    by_cases hzero : value = 0
    · simp only [hzero, List.map_cons, List.takeWhile_cons, beq_self_eq_true, if_true,
        List.length_cons, ih hvalues.2]
    · have hchar : base58Char value ≠ base58Char 0 :=
        fun hsame ↦ hzero (base58Char_injective hvalues.1 (by norm_num) hsame)
      rw [List.map_cons, List.takeWhile_cons_of_neg (by simpa using hchar),
        List.takeWhile_cons_of_neg (by simpa using hzero)]
      rfl

/-- The decoder converts from base 58 to base 256. -/
theorem base58Decode_values {values : List ℕ} (hvalues : ∀ value ∈ values, value < 58)
    (hnonempty : values ≠ []) :
    base58Decode stringify (textOf values) =
      .ok ((convert 256 58 values).map UInt8.ofNat) := by
  have htop : (values.foldl (mulAdd 256 58) []).rdropWhile (· == 0) =
      values.foldl (mulAdd 256 58) [] := by
    rw [foldl_mulAdd (by norm_num) (by norm_num), List.rdropWhile_eq_self_iff]
    intro hdigits hzero
    exact Nat.getLast_digit_ne_zero 256 (Nat.digits_ne_nil_iff_ne_zero.mp hdigits)
      (beq_iff_eq.mp hzero)
  have htext : values.map base58Char ≠ [] := by simpa using hnonempty
  rw [base58Decode, textOf]
  simp only [String.toList_ofList]
  rw [require_of_true htext, bind_ok, foldlM_base58Step hvalues, bind_ok, htop,
    length_takeWhile_map_base58Char hvalues, convert, List.map_append, List.map_replicate]
  rfl

/-- Characters the loop runs through are those of values. -/
theorem exists_values_of_foldlM {text : List Char} {magnitude final : List ℕ}
    (hloop : text.foldlM (base58Step stringify) magnitude = .ok final) :
    ∃ values : List ℕ, (∀ value ∈ values, value < 58) ∧ text = values.map base58Char := by
  induction text generalizing magnitude with
  | nil => exact ⟨[], by simp, rfl⟩
  | cons ch text ih =>
    rw [List.foldlM_cons] at hloop
    obtain ⟨reached, hstep, hrest⟩ := bind_eq_ok_iff.mp hloop
    obtain ⟨index, hindex, -⟩ := okOr_bind_eq_ok_iff.mp hstep
    obtain ⟨hlength, hsame, -⟩ := List.findIdx?_eq_some_iff_getElem.mp hindex
    have hmember : ch ∈ base58Alphabet := by
      rw [← beq_iff_eq.mp hsame]
      exact List.getElem_mem hlength
    obtain ⟨value, hvalue, rfl⟩ := mem_base58Alphabet_iff.mp hmember
    obtain ⟨values, hvalues, rfl⟩ := ih hrest
    exact ⟨value :: values, List.forall_mem_cons.mpr ⟨hvalue, hvalues⟩, rfl⟩

/-- A string that is decoded is a nonempty text of values. -/
theorem exists_values_of_base58Decode {s : String} {bytes : List UInt8}
    (hdecode : base58Decode stringify s = .ok bytes) :
    ∃ values : List ℕ, (∀ value ∈ values, value < 58) ∧ values ≠ [] ∧ s = textOf values := by
  rw [base58Decode, bind_unit_eq_ok_iff, require_eq_ok_iff] at hdecode
  obtain ⟨hnonempty, hdecode⟩ := hdecode
  obtain ⟨magnitude, hloop, -⟩ := bind_eq_ok_iff.mp hdecode
  obtain ⟨values, hvalues, htext⟩ := exists_values_of_foldlM hloop
  refine ⟨values, hvalues, ?_, ?_⟩
  · rintro rfl
    exact hnonempty htext
  · rw [textOf, ← htext, String.ofList_toList]

theorem toNat_map_ofNat {digits : List ℕ} (hdigits : ∀ digit ∈ digits, digit < 256) :
    (digits.map UInt8.ofNat).map UInt8.toNat = digits := by
  rw [List.map_map, List.map_congr_left (g := id), List.map_id]
  intro digit hdigit
  exact UInt8.toNat_ofNat_of_lt' (hdigits digit hdigit)

theorem ofNat_map_toNat (bytes : List UInt8) :
    (bytes.map UInt8.toNat).map UInt8.ofNat = bytes := by
  rw [List.map_map]
  exact (List.map_congr_left fun byte _ ↦ UInt8.ofNat_toNat).trans (List.map_id bytes)

/-- Bytes are decoded from their encoding. -/
theorem base58Decode_base58Encode {bytes : List UInt8} (hnonempty : bytes ≠ []) :
    base58Decode stringify (base58Encode bytes) = .ok bytes := by
  have hbytes : ∀ digit ∈ bytes.map UInt8.toNat, digit < 256 := by
    intro digit hdigit
    obtain ⟨byte, -, rfl⟩ := List.mem_map.mp hdigit
    exact byte.toNat_lt
  have hdigits : bytes.map UInt8.toNat ≠ [] := by simpa using hnonempty
  rw [base58Encode_eq, base58Decode_values
    (fun _ hvalue ↦ lt_of_mem_convert (by norm_num) (by norm_num) hvalue)
    (convert_ne_nil (by norm_num) (by norm_num) hbytes hdigits),
    convert_convert (by norm_num) (by norm_num) hbytes, ofNat_map_toNat]

/-- A nonempty text of values is the encoding of what it is decoded to. -/
theorem base58Encode_decoded {values : List ℕ} (hvalues : ∀ value ∈ values, value < 58) :
    base58Encode ((convert 256 58 values).map UInt8.ofNat) = textOf values := by
  rw [base58Encode_eq, toNat_map_ofNat
    (fun _ hdigit ↦ lt_of_mem_convert (by norm_num) (by norm_num) hdigit),
    convert_convert (by norm_num) (by norm_num) hvalues]

/-- What is decoded is encoded to the string it was decoded from. -/
theorem base58Encode_of_base58Decode {s : String} {bytes : List UInt8}
    (hdecode : base58Decode stringify s = .ok bytes) : base58Encode bytes = s := by
  obtain ⟨values, hvalues, hnonempty, rfl⟩ := exists_values_of_base58Decode hdecode
  rw [base58Decode_values hvalues hnonempty, Except.ok.injEq] at hdecode
  rw [← hdecode]
  exact base58Encode_decoded hvalues

/-- The strings that are decoded are the nonempty ones over the alphabet. -/
theorem exists_base58Decode_iff {s : String} :
    (∃ bytes, base58Decode stringify s = .ok bytes) ↔
      s ≠ "" ∧ ∀ ch ∈ s.toList, ch ∈ base58Alphabet := by
  constructor
  · rintro ⟨bytes, hdecode⟩
    obtain ⟨values, hvalues, hnonempty, rfl⟩ := exists_values_of_base58Decode hdecode
    rw [textOf, String.toList_ofList]
    refine ⟨fun hempty ↦ hnonempty ?_, fun ch hch ↦ ?_⟩
    · have htext := congrArg String.toList hempty
      rw [String.toList_ofList] at htext
      exact List.map_eq_nil_iff.mp htext
    · obtain ⟨value, hvalue, rfl⟩ := List.mem_map.mp hch
      exact mem_base58Alphabet_iff.mpr ⟨value, hvalues value hvalue, rfl⟩
  · rintro ⟨hnonempty, hall⟩
    obtain ⟨values, hvalues, htext⟩ :=
      exists_map_eq fun ch hch ↦ mem_base58Alphabet_iff.mp (hall ch hch)
    have hs : s = textOf values := by
      rw [textOf, ← htext, String.ofList_toList]
    refine ⟨_, hs ▸ base58Decode_values hvalues ?_⟩
    rintro rfl
    exact hnonempty hs

/-- A string that is not decoded is refused. -/
theorem exists_failure {s : String} (hrefused : ¬ ∃ bytes, base58Decode stringify s = .ok bytes) :
    ∃ failure, base58Decode stringify s = .error failure := by
  cases hdecode : base58Decode stringify s with
  | error failure => exact ⟨failure, rfl⟩
  | ok bytes => exact absurd ⟨bytes, hdecode⟩ hrefused

end Text

/-! ### Strings of units -/

/-- The units of a text of characters below 128, one a character. -/
theorem utf16_of_ascii {text : String} (hascii : ∀ ch ∈ text.toList, ch.toNat < 128) :
    utf16 text = text.toList.map unitOf := by
  rw [utf16]
  generalize text.toList = characters at hascii
  induction characters with
  | nil => rfl
  | cons ch characters ih =>
    rw [List.forall_mem_cons] at hascii
    rw [List.flatMap_cons, ih hascii.2, characterUnits, if_pos (hascii.1.trans (by norm_num))]
    rfl

/-- The units are those of a nonempty string over the alphabet. -/
def OverAlphabet (units : Units) : Prop :=
  units ≠ [] ∧ ∀ unit ∈ units, unit ∈ base58Alphabet.map unitOf

theorem toNat_lt_of_mem_base58Alphabet {ch : Char} (hch : ch ∈ base58Alphabet) :
    ch.toNat < 128 := by
  obtain ⟨value, hvalue, rfl⟩ := mem_base58Alphabet_iff.mp hch
  exact toNat_base58Char_lt hvalue

theorem overAlphabet_iff {units : Units} :
    OverAlphabet units ↔
      stringOf units ≠ "" ∧ ∀ ch ∈ (stringOf units).toList, ch ∈ base58Alphabet := by
  constructor
  · rintro ⟨hnonempty, hall⟩
    obtain ⟨characters, hcharacters, rfl⟩ := exists_map_eq fun unit hunit ↦ by
      obtain ⟨ch, hch, hsame⟩ := List.mem_map.mp (hall unit hunit)
      exact ⟨ch, hch, hsame.symm⟩
    have hlist : (String.ofList characters).toList = characters := String.toList_ofList
    have hstring : stringOf (characters.map unitOf) = String.ofList characters := by
      rw [stringOf_eq_iff_of_ascii, utf16_of_ascii, hlist]
      · exact fun ch hch ↦ toNat_lt_of_mem_base58Alphabet (hcharacters ch (hlist ▸ hch))
      · exact fun ch hch ↦ toNat_lt_of_mem_base58Alphabet (hcharacters ch (hlist ▸ hch))
    rw [hstring, hlist]
    refine ⟨fun hempty ↦ hnonempty ?_, hcharacters⟩
    rw [← hlist, hempty]
    rfl
  · rintro ⟨hnonempty, hall⟩
    have hascii : ∀ ch ∈ (stringOf units).toList, ch.toNat < 128 :=
      fun ch hch ↦ toNat_lt_of_mem_base58Alphabet (hall ch hch)
    have hunits := (stringOf_eq_iff_of_ascii hascii).mp rfl
    rw [utf16_of_ascii hascii] at hunits
    refine ⟨?_, fun unit hunit ↦ ?_⟩
    · rintro rfl
      exact hnonempty rfl
    · rw [hunits] at hunit
      obtain ⟨ch, hch, rfl⟩ := List.mem_map.mp hunit
      exact List.mem_map_of_mem (hall ch hch)

/-- The codec round-trips: nonempty bytes are decoded from their encoding, a nonempty string over
the alphabet is the encoding of what it is decoded to, and every other string is refused, whatever
its units. -/
theorem base58_round_trips (stringify : Option Json → String) :
    (∀ bytes, bytes ≠ [] → base58Decode stringify (base58Encode bytes) = .ok bytes) ∧
      (∀ units, OverAlphabet units → ∃ bytes,
        base58Decode stringify (stringOf units) = .ok bytes ∧
          utf16 (base58Encode bytes) = units) ∧
      ∀ units, ¬ OverAlphabet units → ∃ failure,
        base58Decode stringify (stringOf units) = .error failure := by
  refine ⟨fun bytes ↦ base58Decode_base58Encode, fun units hover ↦ ?_, fun units hover ↦ ?_⟩
  · have haccepted := overAlphabet_iff.mp hover
    obtain ⟨bytes, hdecode⟩ := exists_base58Decode_iff.mpr haccepted
    refine ⟨bytes, hdecode, ?_⟩
    rw [base58Encode_of_base58Decode hdecode]
    exact ((stringOf_eq_iff_of_ascii fun ch hch ↦
      toNat_lt_of_mem_base58Alphabet (haccepted.2 ch hch)).mp rfl).symm
  · exact exists_failure fun haccepted ↦
      hover (overAlphabet_iff.mpr (exists_base58Decode_iff.mp haccepted))

end AnchoredLog.Port.Base58
