import AnchoredLog.Port.PackageText

/-!
# Base64, strictly

The decoder's loop over characters of the alphabet writes the bytes that the encoder writes with
these characters, when the bits the last group does not use are zero (`foldlM_values`). Together
with the padding, which is what the length leaves, an accepted text is the encoding of what it is
decoded to: `base64Decode_eq_ok_iff`.

A string of the language is a list of 16-bit units, and `base64_strict` is about these.
-/

set_option autoImplicit false
set_option relaxedAutoImplicit false

namespace AnchoredLog.Port.Base64

open Library.ByteCodec Library.Fallible Library.JsonText Primitives JsonFields PackageText

section Text

variable (stringify : Option Json → String)

/-- A character the decoder takes is one of the alphabet. -/
theorem exists_value_of_findIdx? {ch : Char} {value : ℕ}
    (hfound : base64Alphabet.findIdx? (· == ch) = some value) :
    value < 64 ∧ ch = base64Char value := by
  obtain ⟨hlength, hsame, -⟩ := List.findIdx?_eq_some_iff_getElem.mp hfound
  refine ⟨hlength, ?_⟩
  rw [base64Char, List.getElem?_eq_getElem hlength, Option.getD_some]
  exact (beq_iff_eq.mp hsame).symm

/-- Characters the loop runs through are characters of the alphabet. -/
theorem exists_values_of_foldlM {body : List Char} {state final : Base64State}
    (hloop : body.foldlM (base64Step stringify) state = .ok final) :
    ∃ values : List ℕ, (∀ value ∈ values, value < 64) ∧ body = values.map base64Char := by
  induction body generalizing state with
  | nil => exact ⟨[], by simp, rfl⟩
  | cons ch body ih =>
    rw [List.foldlM_cons] at hloop
    obtain ⟨reached, hstep, hrest⟩ := bind_eq_ok_iff.mp hloop
    obtain ⟨value, hfound, -⟩ := okOr_bind_eq_ok_iff.mp hstep
    obtain ⟨hvalue, rfl⟩ := exists_value_of_findIdx? hfound
    obtain ⟨values, hvalues, rfl⟩ := ih hrest
    exact ⟨value :: values, List.forall_mem_cons.mpr ⟨hvalue, hvalues⟩, rfl⟩

/-- Two values are the characters of a byte and of four bits of the next. -/
theorem exists_firstByte {first second : ℕ} (hfirst : first < 64) (hsecond : second < 64) :
    ∃ byte : UInt8, byte.toNat >>> 2 = first ∧ byte.toNat % 4 * 16 + second % 16 = second := by
  have hlt : first * 4 + second / 16 < 2 ^ 8 := by omega
  have hbyte : (UInt8.ofNat (first * 4 + second / 16)).toNat = first * 4 + second / 16 :=
    UInt8.toNat_ofNat_of_lt' hlt
  refine ⟨UInt8.ofNat (first * 4 + second / 16), ?_⟩
  rw [hbyte, Nat.shiftRight_eq_div_pow]
  omega

/-- Three values are the characters of two bytes and of two bits of the next. -/
theorem exists_twoBytes {first second third : ℕ} (hfirst : first < 64) (hsecond : second < 64)
    (hthird : third < 64) :
    ∃ b0 b1 : UInt8, b0.toNat >>> 2 = first ∧ b0.toNat % 4 * 16 + b1.toNat / 16 = second ∧
      b1.toNat % 16 * 4 + third % 4 = third := by
  obtain ⟨b0, hhigh, hlow⟩ := exists_firstByte hfirst hsecond
  have hlt : second % 16 * 16 + third / 4 < 2 ^ 8 := by omega
  have hbyte : (UInt8.ofNat (second % 16 * 16 + third / 4)).toNat =
      second % 16 * 16 + third / 4 := UInt8.toNat_ofNat_of_lt' hlt
  refine ⟨b0, UInt8.ofNat (second % 16 * 16 + third / 4), hhigh, ?_⟩
  rw [hbyte]
  omega

/-- Four values are the characters of three bytes. -/
theorem exists_threeBytes {first second third fourth : ℕ} (hfirst : first < 64)
    (hsecond : second < 64) (hthird : third < 64) (hfourth : fourth < 64) :
    ∃ b0 b1 b2 : UInt8, b0.toNat >>> 2 = first ∧ b0.toNat % 4 * 16 + b1.toNat / 16 = second ∧
      b1.toNat % 16 * 4 + b2.toNat / 64 = third ∧ b2.toNat % 64 = fourth := by
  obtain ⟨b0, b1, hhigh, hmiddle, hlow⟩ := exists_twoBytes hfirst hsecond hthird
  have hlt : third % 4 * 64 + fourth < 2 ^ 8 := by omega
  have hbyte : (UInt8.ofNat (third % 4 * 64 + fourth)).toNat = third % 4 * 64 + fourth :=
    UInt8.toNat_ofNat_of_lt' hlt
  refine ⟨b0, b1, UInt8.ofNat (third % 4 * 64 + fourth), hhigh, hmiddle, ?_⟩
  rw [hbyte]
  omega

/-- The loop over characters of the alphabet, not one alone in the last group, writes bytes whose
characters these are when the bits of the last group that are left are zero. -/
theorem foldlM_values : ∀ (values : List ℕ) (out : List UInt8) (acc : ℕ),
    (∀ value ∈ values, value < 64) → values.length % 4 ≠ 1 →
    ∃ (bytes : List UInt8) (kept bits : ℕ),
      (values.map base64Char).foldlM (base64Step stringify) ⟨out, acc, 0⟩ =
        .ok ⟨out ++ bytes, kept, bits⟩ ∧
      bytes.length = values.length * 3 / 4 ∧
      (kept % 2 ^ bits = 0 → values.map base64Char = base64Body bytes)
  | [], out, acc, _, _ => ⟨[], acc, 0, by simp, rfl, fun _ ↦ rfl⟩
  | [_], _, _, _, hlength => absurd rfl hlength
  | [first, second], out, acc, hvalues, _ => by
    simp only [List.forall_mem_cons] at hvalues
    obtain ⟨byte, hhigh, hlow⟩ := exists_firstByte hvalues.1 hvalues.2.1
    obtain ⟨kept, hloop, hkept⟩ :=
      base64_firstByte stringify byte (Nat.mod_lt second (by norm_num)) out acc []
    rw [hhigh, hlow] at hloop
    refine ⟨[byte], kept, 4, hloop, by simp, fun hzero ↦ ?_⟩
    have hlast : byte.toNat % 4 * 16 = second := by omega
    simp only [List.map_cons, List.map_nil, base64Body, base64_alone, hhigh, hlast]
  | [first, second, third], out, acc, hvalues, _ => by
    simp only [List.forall_mem_cons] at hvalues
    obtain ⟨b0, b1, hhigh, hmiddle, hlow⟩ :=
      exists_twoBytes hvalues.1 hvalues.2.1 hvalues.2.2.1
    obtain ⟨kept, hloop, hkept⟩ :=
      base64_twoBytes stringify b0 b1 (Nat.mod_lt third (by norm_num)) out acc []
    rw [hhigh, hmiddle, hlow] at hloop
    refine ⟨[b0, b1], kept, 2, hloop, by simp, fun hzero ↦ ?_⟩
    have hlast : b1.toNat % 16 * 4 = third := by omega
    simp only [List.map_cons, List.map_nil, base64Body, base64_second b1.toNat_lt, base64_last,
      hhigh, hmiddle, hlast]
  | first :: second :: third :: fourth :: rest, out, acc, hvalues, hlength => by
    simp only [List.forall_mem_cons] at hvalues
    obtain ⟨b0, b1, b2, hfirst, hsecond, hthird, hfourth⟩ :=
      exists_threeBytes hvalues.1 hvalues.2.1 hvalues.2.2.1 hvalues.2.2.2.1
    obtain ⟨next, hgroup⟩ := base64_group stringify b0 b1 b2 out acc (rest.map base64Char)
    obtain ⟨bytes, last, bits, hloop, hbytes, hsame⟩ := foldlM_values rest
      (out ++ [b0, b1, b2]) next hvalues.2.2.2.2
      (by simp only [List.length_cons] at hlength; omega)
    refine ⟨b0 :: b1 :: b2 :: bytes, last, bits, ?_, ?_, fun hzero ↦ ?_⟩
    · rw [hfirst, hsecond, hthird, hfourth] at hgroup
      rw [List.map_cons, List.map_cons, List.map_cons, List.map_cons, hgroup, hloop,
        List.append_assoc]
      rfl
    · simp only [List.length_cons, hbytes]
      omega
    · have hmask : b2.toNat &&& 63 = fourth :=
        (Nat.and_two_pow_sub_one_eq_mod b2.toNat 6).trans hfourth
      simp only [List.map_cons, base64Body, base64_second b1.toNat_lt, base64_third b2.toNat_lt,
        hfirst, hsecond, hthird, hmask, hsame hzero]

/-- The bits that are left are zero exactly when the decoder does not find one set. -/
theorem mod_two_pow_eq_zero {kept bits : ℕ}
    (hzero : ¬(0 < bits ∧ kept &&& ((1 <<< bits) - 1) ≠ 0)) : kept % 2 ^ bits = 0 := by
  rw [Nat.one_shiftLeft, Nat.and_two_pow_sub_one_eq_mod] at hzero
  by_cases hbits : bits = 0
  · rw [hbits]
    exact Nat.mod_one kept
  · by_contra hkept
    exact hzero ⟨Nat.pos_of_ne_zero hbits, hkept⟩

/-- The padding is what the number of bytes leaves of the last group. -/
theorem base64Padding_eq {bytes : List UInt8} {count padding : ℕ} (hpadding : padding ≤ 2)
    (hunits : (count + padding) % 4 = 0) (hbytes : bytes.length = count * 3 / 4) :
    base64Padding bytes = padding := by
  obtain ⟨groups, hgroups⟩ := Nat.dvd_of_mod_eq_zero hunits
  rw [base64Padding, hbytes]
  interval_cases padding
  · omega
  · omega
  · omega

/-- A text is what stands before its padding and its padding. -/
theorem exists_padding (text : List Char) :
    ∃ padding ≤ 2,
      (if ['=', '='].isSuffixOf text then 2 else if ['='].isSuffixOf text then 1 else 0) =
        padding ∧
      text = text.take (text.length - padding) ++ List.replicate padding '=' := by
  have hends : ∀ suffix : List Char, suffix.isSuffixOf text →
      text = text.take (text.length - suffix.length) ++ suffix := by
    intro suffix hsuffix
    obtain ⟨front, hfront⟩ := List.isSuffixOf_iff_suffix.mp hsuffix
    rw [← hfront, List.length_append, Nat.add_sub_cancel, List.take_left]
  split_ifs with htwo hone
  · exact ⟨2, le_refl _, rfl, hends _ htwo⟩
  · exact ⟨1, by norm_num, rfl, hends _ hone⟩
  · exact ⟨0, by norm_num, rfl, by simp⟩

/-- Characters of the alphabet and padding are one unit each. -/
theorem codeUnits_values {values : List ℕ} (hvalues : ∀ value ∈ values, value < 64)
    (padding : ℕ) : codeUnits (values.map base64Char ++ List.replicate padding '=') =
      values.length + padding := by
  rw [codeUnits_eq_length, List.length_append, List.length_map, List.length_replicate]
  intro character hmember
  rcases List.mem_append.mp hmember with hmember | hmember
  · obtain ⟨value, hvalue, rfl⟩ := List.mem_map.mp hmember
    exact base64Char_lt (hvalues value hvalue)
  · rw [List.eq_of_mem_replicate hmember]
    decide

/-- A text is decoded exactly when it is an encoding, and then to what it encodes. -/
theorem base64Decode_eq_ok_iff {s : String} {b : List UInt8} :
    base64Decode stringify s = .ok b ↔ s = base64Encode b := by
  constructor
  · intro hdecode
    obtain ⟨padding, hpadding, hpad, htext⟩ := exists_padding s.toList
    rw [base64Decode] at hdecode
    simp only [hpad] at hdecode
    rw [bind_unit_eq_ok_iff, bind_unit_eq_ok_iff, require_eq_ok_iff, require_eq_ok_iff] at hdecode
    obtain ⟨hunits, -, hdecode⟩ := hdecode
    obtain ⟨final, hloop, hdecode⟩ := bind_eq_ok_iff.mp hdecode
    rw [bind_unit_eq_ok_iff, bind_unit_eq_ok_iff, require_eq_ok_iff, require_eq_ok_iff, pure_eq_ok,
      Except.ok.injEq] at hdecode
    obtain ⟨hzero, -, hout⟩ := hdecode
    obtain ⟨values, hvalues, hbody⟩ := exists_values_of_foldlM stringify hloop
    rw [hbody] at hloop htext
    rw [htext, codeUnits_values hvalues] at hunits
    obtain ⟨bytes, kept, bits, hfold, hbytes, hsame⟩ :=
      foldlM_values stringify values [] 0 hvalues (by omega)
    rw [hfold, Except.ok.injEq] at hloop
    subst hloop
    rw [List.nil_append] at hout
    rw [base64Encode, base64Chars_eq, ← hout, ← hsame (mod_two_pow_eq_zero hzero),
      base64Padding_eq hpadding hunits hbytes, ← htext, String.ofList_toList]
  · rintro rfl
    exact base64Decode_base64Encode stringify b

end Text

/-! ### Strings of units -/

/-- The characters of an encoding are below 128. -/
theorem toNat_lt_of_mem_base64Chars {b : List UInt8} {character : Char}
    (hmember : character ∈ base64Chars b) : character.toNat < 128 := by
  have halphabet : ∀ value < 64, (base64Char value).toNat < 128 := by decide
  rw [base64Chars_eq] at hmember
  rcases List.mem_append.mp hmember with hbody | hpadding
  · obtain ⟨value, hvalue, rfl⟩ := exists_of_mem_base64Body hbody
    exact halphabet value hvalue
  · rw [List.eq_of_mem_replicate hpadding]
    decide

/-- The codec is strict and exact: bytes are decoded from their encoding, and a string, whatever
its units, is accepted exactly when it is an encoding and then decoded to what it encodes. -/
theorem base64_strict (stringify : Option Json → String) :
    (∀ b, base64Decode stringify (base64Encode b) = .ok b) ∧
      (∀ s b, base64Decode stringify s = .ok b ↔ s = base64Encode b) ∧
      ∀ units b, base64Decode stringify (stringOf units) = .ok b ↔
        units = utf16 (base64Encode b) := by
  refine ⟨base64Decode_base64Encode stringify, fun s b ↦ base64Decode_eq_ok_iff stringify,
    fun units b ↦ ?_⟩
  rw [base64Decode_eq_ok_iff]
  refine stringOf_eq_iff_of_ascii fun character hmember ↦ ?_
  rw [base64Encode, String.toList_ofList] at hmember
  exact toNat_lt_of_mem_base64Chars hmember

end AnchoredLog.Port.Base64
