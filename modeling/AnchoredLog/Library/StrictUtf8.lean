import Mathlib.Data.Nat.Notation
import Mathlib.Tactic.Common

/-!
# Strict UTF-8

`decodeUtf8` gives the characters of a list of octets that is the UTF-8 encoding of a text, and
nothing for any other list. The encoding of a character at the front is read as that character
(`decodeUtf8_append`), and octets below 128 are the characters of their codes
(`decodeUtf8_of_ascii`).

`fromUtf8Lossy` gives characters for any list of octets: what is not the encoding of a character
becomes a replacement character, one for the longest front that could have begun an encoding. A text
is read back from its encoding (`fromUtf8Lossy_flatMap_utf8EncodeChar`).
-/

set_option autoImplicit false
set_option relaxedAutoImplicit false

namespace AnchoredLog.Library.StrictUtf8

/-- The characters whose UTF-8 encoding some octets are. -/
def decodeUtf8 (octets : List UInt8) : Option (List Char) :=
  octets.toByteArray.utf8Decode?.map Array.toList

@[simp] theorem decodeUtf8_nil : decodeUtf8 [] = some [] := by
  simp [decodeUtf8]

/-- The encoding of a character at the front is read as the character. -/
theorem decodeUtf8_append (character : Char) (rest : List UInt8) :
    decodeUtf8 (String.utf8EncodeChar character ++ rest) =
      (decodeUtf8 rest).map (character :: ·) := by
  have hcons : Array.toList ∘ (#[character] ++ ·) = (character :: ·) ∘ Array.toList := by
    funext characters
    simp
  rw [decodeUtf8, List.toByteArray_append, ← List.utf8Encode_singleton,
    ByteArray.utf8Decode?_utf8Encode_singleton_append, decodeUtf8, Option.map_map, Option.map_map,
    hcons]

theorem toNat_ofUInt8 (octet : UInt8) : (Char.ofUInt8 octet).toNat = octet.toNat :=
  UInt8.toNat_toUInt32 octet

theorem utf8EncodeChar_ofUInt8 {octet : UInt8} (hascii : octet < 0x80) :
    String.utf8EncodeChar (Char.ofUInt8 octet) = [octet] := by
  have hcode : (Char.ofUInt8 octet).val.toNat ≤ 0x7f := by
    rw [Char.toNat_val, toNat_ofUInt8]
    exact Nat.le_of_lt_succ (UInt8.lt_iff_toNat_lt.mp hascii)
  rw [String.utf8EncodeChar, if_pos hcode, Char.toNat_val, toNat_ofUInt8, UInt8.ofNat_toNat]

/-- Octets below 128 are the characters of their codes. -/
theorem decodeUtf8_of_ascii {octets : List UInt8} (hascii : ∀ octet ∈ octets, octet < 0x80) :
    decodeUtf8 octets = some (octets.map Char.ofUInt8) := by
  induction octets with
  | nil => exact decodeUtf8_nil
  | cons octet octets ih =>
    rw [List.forall_mem_cons] at hascii
    have hfirst := decodeUtf8_append (Char.ofUInt8 octet) octets
    rw [utf8EncodeChar_ofUInt8 hascii.1, ih hascii.2] at hfirst
    exact hfirst

/-! ### Replacing what is not UTF-8 -/

/-- An octet of a character that is not its first. -/
def isTail (octet : UInt8) : Prop :=
  0x80 ≤ octet ∧ octet ≤ 0xbf

instance : DecidablePred isTail := fun _ ↦ inferInstanceAs (Decidable (_ ∧ _))

/-- The first two octets of a character of three. -/
def opensThree (first second : UInt8) : Prop :=
  first = 0xe0 ∧ 0xa0 ≤ second ∧ second ≤ 0xbf ∨ 0xe1 ≤ first ∧ first ≤ 0xec ∧ isTail second ∨
    first = 0xed ∧ 0x80 ≤ second ∧ second ≤ 0x9f ∨ 0xee ≤ first ∧ first ≤ 0xef ∧ isTail second

instance (first second : UInt8) : Decidable (opensThree first second) :=
  inferInstanceAs (Decidable (_ ∨ _))

/-- The first two octets of a character of four. -/
def opensFour (first second : UInt8) : Prop :=
  first = 0xf0 ∧ 0x90 ≤ second ∧ second ≤ 0xbf ∨ 0xf1 ≤ first ∧ first ≤ 0xf3 ∧ isTail second ∨
    first = 0xf4 ∧ 0x80 ≤ second ∧ second ≤ 0x8f

instance (first second : UInt8) : Decidable (opensFour first second) :=
  inferInstanceAs (Decidable (_ ∨ _))

/-- How many octets one replacement character stands for, where no character is encoded. -/
def replacedLength : List UInt8 → ℕ
  | first :: second :: rest =>
    if opensThree first second then 2
    else if opensFour first second then
      if ∃ third ∈ rest.head?, isTail third then 3 else 2
    else 1
  | _ => 1

def replacementCharacter : Char :=
  Char.ofNat 0xfffd

/-- The characters of the first so many characters and gaps of some octets. -/
def replacing : ℕ → List UInt8 → List Char
  | 0, _ => []
  | _ + 1, [] => []
  | turns + 1, first :: rest =>
    match (first :: rest).toByteArray.utf8DecodeChar? 0 with
    | some character => character :: replacing turns ((first :: rest).drop character.utf8Size)
    | none =>
      let length := replacedLength (first :: rest)
      replacementCharacter :: replacing turns ((first :: rest).drop length)

/-- The characters of some octets, with replacements for what is not UTF-8. -/
def fromUtf8Lossy (octets : List UInt8) : List Char :=
  replacing octets.length octets

theorem replacing_utf8EncodeChar_append {turns : ℕ} (character : Char) (rest : List UInt8) :
    replacing (turns + 1) (String.utf8EncodeChar character ++ rest) =
      character :: replacing turns rest := by
  obtain ⟨first, back, hfront⟩ := List.exists_cons_of_length_pos
    (l := String.utf8EncodeChar character) (by
      rw [String.length_utf8EncodeChar]
      exact character.utf8Size_pos)
  have hlength := String.length_utf8EncodeChar character
  have hdecode : (String.utf8EncodeChar character ++ rest).toByteArray.utf8DecodeChar? 0 =
      some character := by
    rw [List.toByteArray_append, ByteArray.utf8DecodeChar?_utf8EncodeChar_append]
  have hdrop : (String.utf8EncodeChar character ++ rest).drop character.utf8Size = rest := by
    rw [← hlength, List.drop_left]
  rw [hfront, List.cons_append] at hdecode hdrop ⊢
  rw [replacing, hdecode]
  exact congrArg (character :: replacing turns ·) hdrop

/-- A text is read back from its encoding. -/
theorem fromUtf8Lossy_flatMap_utf8EncodeChar (text : List Char) :
    fromUtf8Lossy (text.flatMap String.utf8EncodeChar) = text := by
  have hreplacing (turns : ℕ) (hturns : (text.flatMap String.utf8EncodeChar).length ≤ turns) :
      replacing turns (text.flatMap String.utf8EncodeChar) = text := by
    induction text generalizing turns with
    | nil => cases turns <;> rfl
    | cons character text ih =>
      have hpositive := character.utf8Size_pos
      rw [List.flatMap_cons, List.length_append, String.length_utf8EncodeChar] at hturns
      cases turns with
      | zero => omega
      | succ turns =>
        rw [List.flatMap_cons, replacing_utf8EncodeChar_append, ih turns (by omega)]
  exact hreplacing _ (Nat.le_refl _)

end AnchoredLog.Library.StrictUtf8
