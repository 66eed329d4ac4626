import AnchoredLog.Port.Primitives
import Mathlib.Data.Rat.Defs

/-!
# JSON values and the readers of their fields

What `JSON.parse` yields, and the hand-written readers a disclosure package goes through: the
hexadecimal and base64 codecs of `bytes.ts` and the field readers of `disclosure.ts`. A missing
field is JavaScript's `undefined`, which is `none` here. The members of an object stand in the
order they are enumerated in, and `JSON.parse` keeps one member a name. A number is the value of a
double, which may be an infinity; the one question the readers ask of it is whether it is an
exactly representable integer.

The text of `JSON.stringify` goes into messages alone and is a parameter.

The reading lemmas come in two directions. `length_of_hexField` and its like say what an accepted
field is, whoever wrote it; `hexField_toHex`, `base64Decode_base64Encode` and
`intField_toString` say that the port's own spellings are read back exactly.
-/

set_option autoImplicit false
set_option relaxedAutoImplicit false

namespace AnchoredLog.Port.JsonFields

open Library.ByteCodec Library.Fallible Primitives

/-! ### Values -/

/-- The value of a double that a JSON text can denote. -/
inductive JsNumber
  | finite (value : ℚ)
  | infinite (negative : Bool)

/-- A value `JSON.parse` yields. -/
inductive Json
  | null
  | boolean (value : Bool)
  | number (value : JsNumber)
  | string (value : String)
  | array (elements : List Json)
  | object (fields : List (String × Json))

/-- `Number.isSafeInteger`. -/
def JsNumber.isSafeInteger : JsNumber → Bool
  | .finite value => value.den = 1 ∧ value.num.natAbs ≤ 2 ^ 53 - 1
  | .infinite _ => false

/-- `BigInt` of a number that holds an integer. -/
def JsNumber.toBigInt : JsNumber → ℤ
  | .finite value => value.num
  | .infinite _ => 0

/-- The member of a list of fields. -/
def lookup (fields : List (String × Json)) (field : String) : Option Json :=
  (fields.find? fun entry ↦ entry.1 == field).map Prod.snd

/-- A property read: a value that is not an object has none of a package's properties. -/
def Json.get (value : Json) (field : String) : Option Json :=
  match value with
  | .object fields => lookup fields field
  | _ => none

/-- A `MalformedPackage` failure. -/
def malformed (detail : String) : Failure :=
  .packageFailure .MalformedPackage detail

/-- A field that must be present and not null. -/
def must (value : Option Json) (what : String) : Thrown Json :=
  match value with
  | none => throw (malformed ("missing " ++ what))
  | some .null => throw (malformed ("missing " ++ what))
  | some value => return value

/-! ### Hexadecimal -/

/-- The value of a hexadecimal digit of either case. -/
def hexValue (digit : Char) : Option ℕ :=
  if '0' ≤ digit ∧ digit ≤ '9' then
    some (digit.toNat - '0'.toNat)
  else if 'a' ≤ digit ∧ digit ≤ 'f' then
    some (digit.toNat - 'a'.toNat + 10)
  else if 'A' ≤ digit ∧ digit ≤ 'F' then
    some (digit.toNat - 'A'.toNat + 10)
  else
    none

/-- Whether every character is a hexadecimal digit. -/
def allHex (text : List Char) : Bool :=
  text.all fun digit ↦ (hexValue digit).isSome

/-- `HEX_RE`: an optional `0x`, then hexadecimal digits to the end. -/
def matchesHex (text : List Char) : Bool :=
  allHex text || (['0', 'x'].isPrefixOf text && allHex (text.drop 2))

/-- The bytes of the digits, two at a time. -/
def bytesOfHex : List Char → List UInt8
  | high :: low :: rest =>
    UInt8.ofNat (16 * (hexValue high).getD 0 + (hexValue low).getD 0) :: bytesOfHex rest
  | _ => []

/-- Strict hexadecimal: no odd length, no stray character, and the width that is named. -/
def fromHex (s : String) (expectedLen : ℕ) : Thrown (List UInt8) := do
  let text := s.toList
  require (matchesHex text) (.typeError ("not hex: " ++ s))
  let body :=
    if ['0', 'x'].isPrefixOf text ∨ ['0', 'X'].isPrefixOf text then text.drop 2 else text
  require (body.length % 2 = 0) (.typeError ("odd-length hex: " ++ s))
  let out := bytesOfHex body
  require (out.length = expectedLen)
    (.typeError ("expected " ++ toString expectedLen ++ " bytes, got " ++ toString out.length))
  return out

/-- The digit of a value below sixteen. -/
def hexDigit (value : ℕ) : Char :=
  if value < 10 then Char.ofNat ('0'.toNat + value) else Char.ofNat ('a'.toNat + (value - 10))

/-- The two digits of a byte. -/
def hexPair (byte : UInt8) : List Char :=
  [hexDigit (byte.toNat / 16), hexDigit (byte.toNat % 16)]

def toHex (b : List UInt8) : String :=
  String.ofList ('0' :: 'x' :: b.flatMap hexPair)

/-! ### Base64 -/

/-- `B64_ALPHABET`. -/
def base64Alphabet : List Char :=
  ['A', 'B', 'C', 'D', 'E', 'F', 'G', 'H', 'I', 'J', 'K', 'L', 'M', 'N', 'O', 'P',
    'Q', 'R', 'S', 'T', 'U', 'V', 'W', 'X', 'Y', 'Z', 'a', 'b', 'c', 'd', 'e', 'f',
    'g', 'h', 'i', 'j', 'k', 'l', 'm', 'n', 'o', 'p', 'q', 'r', 's', 't', 'u', 'v',
    'w', 'x', 'y', 'z', '0', '1', '2', '3', '4', '5', '6', '7', '8', '9', '+', '/']

/-- The length of a text in the language's 16-bit units. -/
def codeUnits (text : List Char) : ℕ :=
  (text.map fun character ↦ if character.toNat < 0x10000 then 1 else 2).sum

section Text

variable (stringify : Option Json → String)

/-- The decoder's loop state: the bytes written, the 32-bit accumulator and the bits it holds. -/
structure Base64State where
  out : List UInt8
  acc : ℕ
  bits : ℕ

/-- One character of the body. -/
def base64Step (state : Base64State) (ch : Char) : Thrown Base64State := do
  let v ← okOr (base64Alphabet.findIdx? (· == ch))
    (Failure.typeError ("base64: invalid character " ++
      stringify (some (.string (String.singleton ch)))))
  let acc := (state.acc <<< 6 ||| v) % 2 ^ 32
  let bits := state.bits + 6
  if 8 ≤ bits then
    return ⟨state.out ++ [UInt8.ofNat ((acc >>> (bits - 8)) &&& 0xff)], acc, bits - 8⟩
  else
    return ⟨state.out, acc, bits⟩

/-- Strict base64: no whitespace, no other alphabet, and padding that is required and
canonical. -/
def base64Decode (s : String) : Thrown (List UInt8) := do
  let text := s.toList
  require (codeUnits text % 4 = 0) (.typeError "base64: length is not a multiple of four")
  let pad := if ['=', '='].isSuffixOf text then 2 else if ['='].isSuffixOf text then 1 else 0
  let body := text.take (text.length - pad)
  require ('=' ∉ body) (.typeError "base64: padding inside the body")
  let size := codeUnits text / 4 * 3 - pad
  let state ← body.foldlM (base64Step stringify) ⟨[], 0, 0⟩
  require (¬ (0 < state.bits ∧ state.acc &&& ((1 <<< state.bits) - 1) ≠ 0))
    (.typeError "base64: non-canonical padding bits")
  require (state.out.length = size) (.typeError "base64: short decode")
  return state.out

/-- The character of a value below sixty-four. -/
def base64Char (value : ℕ) : Char :=
  base64Alphabet[value]?.getD '='

/-- The characters of a string of bytes, three bytes at a time. -/
def base64Chars : List UInt8 → List Char
  | [] => []
  | [b0] => [base64Char (b0.toNat >>> 2), base64Char ((b0.toNat &&& 3) <<< 4), '=', '=']
  | [b0, b1] => [base64Char (b0.toNat >>> 2),
      base64Char ((b0.toNat &&& 3) <<< 4 ||| b1.toNat >>> 4),
      base64Char ((b1.toNat &&& 15) <<< 2), '=']
  | b0 :: b1 :: b2 :: rest => base64Char (b0.toNat >>> 2) ::
      base64Char ((b0.toNat &&& 3) <<< 4 ||| b1.toNat >>> 4) ::
      base64Char ((b1.toNat &&& 15) <<< 2 ||| b2.toNat >>> 6) ::
      base64Char (b2.toNat &&& 63) :: base64Chars rest

def base64Encode (b : List UInt8) : String :=
  String.ofList (base64Chars b)

end Text

/-! ### Field readers -/

/-- A field of hexadecimal bytes of a stated width. -/
def hexField (value : Option Json) (what : String) (len : ℕ) : Thrown (List UInt8) :=
  match value with
  | some (.string s) =>
    match fromHex s len with
    | .ok bytes => return bytes
    | .error failure => throw (malformed (what ++ ": " ++ failure.message))
  | _ => throw (malformed (what ++ " is not a string"))

/-- The digits of a decimal integer, after its sign. -/
def decimalDigits (text : List Char) : List Char :=
  if ['-'].isPrefixOf text then text.drop 1 else text

/-- `/^-?\d+$/`. -/
def isDecimal (text : List Char) : Bool :=
  decimalDigits text ≠ [] ∧ (decimalDigits text).all Char.isDigit

/-- `BigInt` of a decimal text. -/
def bigIntOfDecimal (text : List Char) : ℤ :=
  let magnitude : ℤ := Nat.ofDigitChars 10 (decimalDigits text) 0
  if ['-'].isPrefixOf text then -magnitude else magnitude

/-- An integer as a number or as a decimal text, read exactly or refused. -/
def intField (value : Option Json) (what : String) : Thrown ℤ :=
  match value with
  | some (.number value) => do
    require value.isSafeInteger (malformed (what ++ " is not an exactly representable integer"))
    return value.toBigInt
  | some (.string s) => do
    require (isDecimal s.toList) (malformed (what ++ " is not an integer"))
    return bigIntOfDecimal s.toList
  | _ => throw (malformed (what ++ " is not an integer"))

/-- An integer from zero to a bound. -/
def smallInt (value : Option Json) (what : String) (max : ℤ) : Thrown ℤ := do
  let v ← intField value what
  require (¬ (v < 0 ∨ max < v)) (malformed (what ++ " is outside 0.." ++ toString max))
  return v

/-! ### What the readers accept -/

theorem length_of_fromHex {s : String} {width : ℕ} {bytes : List UInt8}
    (hread : fromHex s width = .ok bytes) : bytes.length = width := by
  simp only [fromHex, bind_unit_eq_ok_iff, require_eq_ok_iff, pure_eq_ok, Except.ok.injEq] at hread
  obtain ⟨-, -, hlength, rfl⟩ := hread
  exact hlength

/-- A field the hexadecimal reader accepts is a string, and has the width that was asked for. -/
theorem length_of_hexField {value : Option Json} {what : String} {width : ℕ} {bytes : List UInt8}
    (hread : hexField value what width = .ok bytes) : bytes.length = width := by
  unfold hexField at hread
  split at hread
  · next s =>
    split at hread
    · next found hfound =>
      obtain rfl := Except.ok.inj hread
      exact length_of_fromHex hfound
    · exact absurd hread (by simp)
  · exact absurd hread (by simp)

theorem smallInt_eq_ok_iff {value : Option Json} {what : String} {max result : ℤ} :
    smallInt value what max = .ok result ↔
      intField value what = .ok result ∧ 0 ≤ result ∧ result ≤ max := by
  rw [smallInt, bind_eq_ok_iff]
  simp only [bind_unit_eq_ok_iff, require_eq_ok_iff, pure_eq_ok, Except.ok.injEq]
  constructor
  · rintro ⟨value, hvalue, hrange, rfl⟩
    exact ⟨hvalue, by omega⟩
  · rintro ⟨hvalue, hrange⟩
    exact ⟨result, hvalue, by omega, rfl⟩

theorem must_eq_ok_iff {value : Option Json} {what : String} {result : Json} :
    must value what = .ok result ↔ value = some result ∧ result ≠ .null := by
  unfold must
  split
  · simp
  · simp only [throw_eq_error, reduceCtorEq, Option.some.injEq, false_iff, not_and, not_not]
    exact fun heq ↦ heq.symm
  · next found hfound =>
    simp only [pure_eq_ok, Except.ok.injEq, Option.some.injEq]
    constructor
    · rintro rfl
      exact ⟨rfl, fun hnull ↦ hfound (by rw [hnull])⟩
    · exact And.left

/-! ### The port's own spellings -/

theorem hexValue_hexDigit {value : ℕ} (hvalue : value < 16) :
    hexValue (hexDigit value) = some value := by
  revert value
  decide

theorem bytesOfHex_flatMap (bytes : List UInt8) : bytesOfHex (bytes.flatMap hexPair) = bytes := by
  induction bytes with
  | nil => rfl
  | cons byte bytes ih =>
    have hbyte := byte.toNat_lt
    have hsplit : 16 * (byte.toNat / 16) + byte.toNat % 16 = byte.toNat := by omega
    rw [List.flatMap_cons, hexPair, List.cons_append, List.cons_append, List.nil_append,
      bytesOfHex, hexValue_hexDigit (by omega), hexValue_hexDigit (by omega), ih,
      Option.getD_some, Option.getD_some, hsplit, UInt8.ofNat_toNat]

theorem allHex_flatMap (bytes : List UInt8) : allHex (bytes.flatMap hexPair) = true := by
  rw [allHex, List.all_eq_true]
  intro digit hdigit
  obtain ⟨byte, -, hmember⟩ := List.mem_flatMap.mp hdigit
  have hbyte := byte.toNat_lt
  rw [hexPair, List.mem_cons, List.mem_singleton] at hmember
  rcases hmember with rfl | rfl
  · rw [hexValue_hexDigit (by omega)]
    rfl
  · rw [hexValue_hexDigit (by omega)]
    rfl

theorem length_flatMap_hexPair (bytes : List UInt8) :
    (bytes.flatMap hexPair).length = 2 * bytes.length := by
  induction bytes with
  | nil => rfl
  | cons byte bytes ih =>
    rw [List.flatMap_cons, List.length_append, ih, hexPair, List.length_cons, List.length_cons,
      List.length_cons, List.length_nil]
    omega

/-- The hexadecimal writer's text is read back as the bytes it was written from. -/
theorem fromHex_toHex (bytes : List UInt8) : fromHex (toHex bytes) bytes.length = .ok bytes := by
  have hmarked : ['0', 'x'].isPrefixOf ('0' :: 'x' :: bytes.flatMap hexPair) = true := by
    simp [List.isPrefixOf]
  have hmatches : matchesHex ('0' :: 'x' :: bytes.flatMap hexPair) = true := by
    rw [matchesHex, hmarked, List.drop_succ_cons, List.drop_succ_cons, List.drop_zero,
      allHex_flatMap, Bool.and_self, Bool.or_true]
  rw [fromHex, toHex]
  simp only [String.toList_ofList]
  rw [require_of_true hmatches, bind_ok, if_pos (Or.inl hmarked), List.drop_succ_cons,
    List.drop_succ_cons, List.drop_zero, require_of_true (by rw [length_flatMap_hexPair]; omega),
    bind_ok, bytesOfHex_flatMap, require_of_true rfl, bind_ok, pure_eq_ok]

theorem hexField_toHex {bytes : List UInt8} {width : ℕ} (hlength : bytes.length = width)
    (what : String) : hexField (some (.string (toHex bytes))) what width = .ok bytes := by
  subst hlength
  simp only [hexField, fromHex_toHex, pure_eq_ok]

/-! ### Base64 there and back -/

/-- The characters of a string of bytes before the padding. -/
def base64Body : List UInt8 → List Char
  | [] => []
  | [b0] => [base64Char (b0.toNat >>> 2), base64Char ((b0.toNat &&& 3) <<< 4)]
  | [b0, b1] => [base64Char (b0.toNat >>> 2),
      base64Char ((b0.toNat &&& 3) <<< 4 ||| b1.toNat >>> 4),
      base64Char ((b1.toNat &&& 15) <<< 2)]
  | b0 :: b1 :: b2 :: rest => base64Char (b0.toNat >>> 2) ::
      base64Char ((b0.toNat &&& 3) <<< 4 ||| b1.toNat >>> 4) ::
      base64Char ((b1.toNat &&& 15) <<< 2 ||| b2.toNat >>> 6) ::
      base64Char (b2.toNat &&& 63) :: base64Body rest

/-- How many characters of padding a string of bytes is written with. -/
def base64Padding (b : List UInt8) : ℕ :=
  (3 - b.length % 3) % 3

theorem base64Chars_eq (b : List UInt8) :
    base64Chars b = base64Body b ++ List.replicate (base64Padding b) '=' := by
  fun_induction base64Chars b with
  | case1 => rfl
  | case2 b0 => rfl
  | case3 b0 b1 => rfl
  | case4 b0 b1 b2 rest ih =>
    have hpadding : base64Padding (b0 :: b1 :: b2 :: rest) = base64Padding rest := by
      simp only [base64Padding, List.length_cons]
      omega
    rw [base64Body, ih, hpadding]
    simp

theorem findIdx?_base64Char {value : ℕ} (hvalue : value < 64) :
    base64Alphabet.findIdx? (· == base64Char value) = some value := by
  revert value
  decide

theorem base64_alone (b0 : ℕ) : (b0 &&& 3) <<< 4 = b0 % 4 * 16 := by
  rw [Nat.and_two_pow_sub_one_eq_mod b0 2, Nat.shiftLeft_eq]

theorem base64_last (b1 : ℕ) : (b1 &&& 15) <<< 2 = b1 % 16 * 4 := by
  rw [Nat.and_two_pow_sub_one_eq_mod b1 4, Nat.shiftLeft_eq]

/-- A group's second character takes two bits of the first byte and four of the second. -/
theorem base64_second {b0 b1 : ℕ} (hb1 : b1 < 256) :
    (b0 &&& 3) <<< 4 ||| b1 >>> 4 = b0 % 4 * 16 + b1 / 16 := by
  have hlow : b1 / 2 ^ 4 < 2 ^ 4 := by omega
  have hmask : b0 &&& 3 = b0 % 4 := Nat.and_two_pow_sub_one_eq_mod b0 2
  rw [hmask, Nat.shiftRight_eq_div_pow, ← Nat.shiftLeft_add_eq_or_of_lt hlow, Nat.shiftLeft_eq]
  norm_num

theorem base64_third {b1 b2 : ℕ} (hb2 : b2 < 256) :
    (b1 &&& 15) <<< 2 ||| b2 >>> 6 = b1 % 16 * 4 + b2 / 64 := by
  have hlow : b2 / 2 ^ 6 < 2 ^ 2 := by omega
  have hmask : b1 &&& 15 = b1 % 16 := Nat.and_two_pow_sub_one_eq_mod b1 4
  rw [hmask, Nat.shiftRight_eq_div_pow, ← Nat.shiftLeft_add_eq_or_of_lt hlow, Nat.shiftLeft_eq]
  norm_num

section Text

variable (stringify : Option Json → String)

/-- A character of the alphabet shifts its six bits in, and a byte comes out once eight are
there. -/
theorem base64Step_base64Char {value : ℕ} (hvalue : value < 64) (out : List UInt8)
    (acc bits : ℕ) :
    base64Step stringify ⟨out, acc, bits⟩ (base64Char value) =
      .ok (if 8 ≤ bits + 6 then
        ⟨out ++ [UInt8.ofNat ((acc * 64 + value) % 2 ^ 32 / 2 ^ (bits + 6 - 8) % 256)],
          (acc * 64 + value) % 2 ^ 32, bits + 6 - 8⟩
      else
        ⟨out, (acc * 64 + value) % 2 ^ 32, bits + 6⟩) := by
  have hshift : acc <<< 6 ||| value = acc * 64 + value := by
    rw [← Nat.shiftLeft_add_eq_or_of_lt hvalue, Nat.shiftLeft_eq]
  have hmask : ∀ word : ℕ, word &&& 0xff = word % 256 :=
    fun word ↦ Nat.and_two_pow_sub_one_eq_mod word 8
  rw [base64Step, findIdx?_base64Char hvalue, okOr_some, bind_ok]
  simp only [hshift, hmask, Nat.shiftRight_eq_div_pow]
  split <;> rfl

theorem ofNat_eq_of_eq_toNat {value : ℕ} {byte : UInt8} (heq : value = byte.toNat) :
    UInt8.ofNat value = byte := by
  rw [heq, UInt8.ofNat_toNat]

/-- The first two characters of a group write its first byte and keep four bits. -/
theorem base64_firstByte (byte : UInt8) {low : ℕ} (hlow : low < 16) (out : List UInt8) (acc : ℕ)
    (rest : List Char) :
    ∃ kept, (base64Char (byte.toNat >>> 2) :: base64Char (byte.toNat % 4 * 16 + low) ::
        rest).foldlM (base64Step stringify) ⟨out, acc, 0⟩ =
      rest.foldlM (base64Step stringify) ⟨out ++ [byte], kept, 4⟩ ∧ kept % 16 = low := by
  have hbyte := byte.toNat_lt
  have hhigh : byte.toNat >>> 2 = byte.toNat / 4 := Nat.shiftRight_eq_div_pow byte.toNat 2
  refine ⟨((acc * 64 + byte.toNat / 4) % 2 ^ 32 * 64 + (byte.toNat % 4 * 16 + low)) % 2 ^ 32,
    ?_, by omega⟩
  rw [hhigh, List.foldlM_cons, base64Step_base64Char stringify (by omega),
    if_neg (by norm_num), bind_ok, List.foldlM_cons,
    base64Step_base64Char stringify (by omega), if_pos (by norm_num), bind_ok,
    ofNat_eq_of_eq_toNat (by omega : _ = byte.toNat)]

/-- The third character of a group writes its second byte and keeps two bits. -/
theorem base64_secondByte (byte : UInt8) {low : ℕ} (hlow : low < 4) (out : List UInt8) {acc : ℕ}
    (hacc : acc % 16 = byte.toNat / 16) :
    ∃ kept, base64Step stringify ⟨out, acc, 4⟩ (base64Char (byte.toNat % 16 * 4 + low)) =
      .ok ⟨out ++ [byte], kept, 2⟩ ∧ kept % 4 = low := by
  have hbyte := byte.toNat_lt
  refine ⟨(acc * 64 + (byte.toNat % 16 * 4 + low)) % 2 ^ 32, ?_, by omega⟩
  rw [base64Step_base64Char stringify (by omega), if_pos (by norm_num),
    ofNat_eq_of_eq_toNat (by omega : _ = byte.toNat)]

/-- The fourth character of a group writes its third byte. -/
theorem base64_thirdByte (byte : UInt8) (out : List UInt8) {acc : ℕ}
    (hacc : acc % 4 = byte.toNat / 64) :
    ∃ kept, base64Step stringify ⟨out, acc, 2⟩ (base64Char (byte.toNat % 64)) =
      .ok ⟨out ++ [byte], kept, 0⟩ := by
  have hbyte := byte.toNat_lt
  refine ⟨(acc * 64 + byte.toNat % 64) % 2 ^ 32, ?_⟩
  rw [base64Step_base64Char stringify (by omega), if_pos (by norm_num),
    ofNat_eq_of_eq_toNat (by omega : _ = byte.toNat)]

/-- Three characters write two bytes and keep two bits. -/
theorem base64_twoBytes (b0 b1 : UInt8) {low : ℕ} (hlow : low < 4) (out : List UInt8) (acc : ℕ)
    (rest : List Char) :
    ∃ kept, (base64Char (b0.toNat >>> 2) :: base64Char (b0.toNat % 4 * 16 + b1.toNat / 16) ::
        base64Char (b1.toNat % 16 * 4 + low) :: rest).foldlM (base64Step stringify) ⟨out, acc, 0⟩ =
      rest.foldlM (base64Step stringify) ⟨out ++ [b0, b1], kept, 2⟩ ∧ kept % 4 = low := by
  have hb1 := b1.toNat_lt
  obtain ⟨first, hfirst, hfour⟩ := base64_firstByte stringify b0
    (by omega : b1.toNat / 16 < 16) out acc (base64Char (b1.toNat % 16 * 4 + low) :: rest)
  obtain ⟨kept, hsecond, hkept⟩ := base64_secondByte stringify b1 hlow (out ++ [b0]) hfour
  refine ⟨kept, ?_, hkept⟩
  rw [hfirst, List.foldlM_cons, hsecond, bind_ok, List.append_assoc]
  rfl

/-- Four characters write three bytes and keep nothing that is read again. -/
theorem base64_group (b0 b1 b2 : UInt8) (out : List UInt8) (acc : ℕ) (rest : List Char) :
    ∃ kept, (base64Char (b0.toNat >>> 2) :: base64Char (b0.toNat % 4 * 16 + b1.toNat / 16) ::
        base64Char (b1.toNat % 16 * 4 + b2.toNat / 64) :: base64Char (b2.toNat % 64) ::
        rest).foldlM (base64Step stringify) ⟨out, acc, 0⟩ =
      rest.foldlM (base64Step stringify) ⟨out ++ [b0, b1, b2], kept, 0⟩ := by
  have hb2 := b2.toNat_lt
  obtain ⟨second, htwo, hlow⟩ := base64_twoBytes stringify b0 b1
    (by omega : b2.toNat / 64 < 4) out acc (base64Char (b2.toNat % 64) :: rest)
  obtain ⟨kept, hthird⟩ := base64_thirdByte stringify b2 (out ++ [b0, b1]) hlow
  refine ⟨kept, ?_⟩
  rw [htwo, List.foldlM_cons, hthird, bind_ok, List.append_assoc]
  rfl

/-- The loop over the characters of a string of bytes writes exactly those bytes, and leaves no
bit of the last group set. -/
theorem foldlM_base64Body (b : List UInt8) (out : List UInt8) (acc : ℕ) :
    ∃ kept bits, (base64Body b).foldlM (base64Step stringify) ⟨out, acc, 0⟩ =
      .ok ⟨out ++ b, kept, bits⟩ ∧ kept % 2 ^ bits = 0 := by
  fun_induction base64Body b generalizing out acc with
  | case1 => exact ⟨acc, 0, by simp [Nat.mod_one]⟩
  | case2 b0 =>
    obtain ⟨kept, hfirst, hkept⟩ :=
      base64_firstByte stringify b0 (by norm_num : 0 < 16) out acc []
    rw [base64_alone, ← Nat.add_zero (b0.toNat % 4 * 16), hfirst]
    exact ⟨kept, 4, rfl, hkept⟩
  | case3 b0 b1 =>
    obtain ⟨kept, htwo, hkept⟩ :=
      base64_twoBytes stringify b0 b1 (by norm_num : 0 < 4) out acc []
    rw [base64_second b1.toNat_lt, base64_last, ← Nat.add_zero (b1.toNat % 16 * 4), htwo]
    exact ⟨kept, 2, rfl, hkept⟩
  | case4 b0 b1 b2 rest ih =>
    obtain ⟨next, hgroup⟩ := base64_group stringify b0 b1 b2 out acc (base64Body rest)
    obtain ⟨kept, bits, hrest, hkept⟩ := ih (out ++ [b0, b1, b2]) next
    have hlast : b2.toNat &&& 63 = b2.toNat % 64 := Nat.and_two_pow_sub_one_eq_mod b2.toNat 6
    refine ⟨kept, bits, ?_, hkept⟩
    rw [base64_second b1.toNat_lt, base64_third b2.toNat_lt, hlast, hgroup, hrest,
      List.append_assoc]
    rfl

theorem base64Char_ne_padding {value : ℕ} (hvalue : value < 64) : base64Char value ≠ '=' := by
  revert value
  decide

theorem base64Char_lt {value : ℕ} (hvalue : value < 64) : (base64Char value).toNat < 0x10000 := by
  revert value
  decide

/-- The values whose characters the body holds are below sixty-four. -/
theorem exists_of_mem_base64Body {b : List UInt8} {character : Char}
    (hmember : character ∈ base64Body b) : ∃ value < 64, character = base64Char value := by
  have hhigh : ∀ byte : UInt8, byte.toNat >>> 2 < 64 := by
    intro byte
    have hbyte := byte.toNat_lt
    rw [Nat.shiftRight_eq_div_pow]
    omega
  fun_induction base64Body b with
  | case1 => simp at hmember
  | case2 b0 =>
    rw [base64_alone, List.mem_cons, List.mem_singleton] at hmember
    rcases hmember with rfl | rfl
    · exact ⟨_, hhigh b0, rfl⟩
    · exact ⟨_, by omega, rfl⟩
  | case3 b0 b1 =>
    have hb1 := b1.toNat_lt
    rw [base64_second hb1, base64_last, List.mem_cons, List.mem_cons, List.mem_singleton]
      at hmember
    rcases hmember with rfl | rfl | rfl
    · exact ⟨_, hhigh b0, rfl⟩
    · exact ⟨_, by omega, rfl⟩
    · exact ⟨_, by omega, rfl⟩
  | case4 b0 b1 b2 rest ih =>
    have hb1 := b1.toNat_lt
    have hb2 := b2.toNat_lt
    have hmask : b2.toNat &&& 63 = b2.toNat % 64 := Nat.and_two_pow_sub_one_eq_mod b2.toNat 6
    rw [base64_second hb1, base64_third hb2, hmask, List.mem_cons, List.mem_cons, List.mem_cons,
      List.mem_cons] at hmember
    rcases hmember with rfl | rfl | rfl | rfl | hrest
    · exact ⟨_, hhigh b0, rfl⟩
    · exact ⟨_, by omega, rfl⟩
    · exact ⟨_, by omega, rfl⟩
    · exact ⟨_, by omega, rfl⟩
    · exact ih hrest

theorem length_base64Body (b : List UInt8) :
    (base64Body b).length + base64Padding b = (b.length + 2) / 3 * 4 := by
  fun_induction base64Body b with
  | case1 => rfl
  | case2 b0 => simp [base64Padding]
  | case3 b0 b1 => simp [base64Padding]
  | case4 b0 b1 b2 rest ih =>
    simp only [base64Padding, List.length_cons] at ih ⊢
    omega

theorem codeUnits_eq_length {text : List Char}
    (htext : ∀ character ∈ text, character.toNat < 0x10000) : codeUnits text = text.length := by
  rw [codeUnits, List.map_congr_left fun character hmember ↦ if_pos (htext character hmember)]
  simp

theorem isPrefixOf_replicate_append {rest : List Char} (hrest : '=' ∉ rest) (count padding : ℕ) :
    (List.replicate count '=').isPrefixOf (List.replicate padding '=' ++ rest) =
      decide (count ≤ padding) := by
  induction count generalizing padding with
  | zero => simp
  | succ count ih =>
    cases padding with
    | zero =>
      cases rest with
      | nil => simp [List.replicate_succ]
      | cons first rest =>
        have hfirst : '=' ≠ first := fun heq ↦ hrest (heq ▸ List.mem_cons_self)
        simp [List.replicate_succ, List.isPrefixOf, hfirst]
    | succ padding =>
      rw [List.replicate_succ, List.replicate_succ, List.cons_append, List.isPrefixOf_cons_cons,
        ih, beq_self_eq_true, Bool.true_and]
      simp

/-- The padding the decoder sees is the padding that was written. -/
theorem padding_of_append_replicate {body : List Char} (hbody : '=' ∉ body) {padding : ℕ}
    (hpadding : padding ≤ 2) :
    (if ['=', '='].isSuffixOf (body ++ List.replicate padding '=') then 2
      else if ['='].isSuffixOf (body ++ List.replicate padding '=') then 1 else 0) = padding := by
  have hreverse : (body ++ List.replicate padding '=').reverse =
      List.replicate padding '=' ++ body.reverse := by
    rw [List.reverse_append, List.reverse_replicate]
  have hrest : '=' ∉ body.reverse := by simpa using hbody
  have htwo := isPrefixOf_replicate_append hrest 2 padding
  have hone := isPrefixOf_replicate_append hrest 1 padding
  simp only [List.isSuffixOf, hreverse]
  rw [show ['=', '='].reverse = List.replicate 2 '=' from rfl,
    show ['='].reverse = List.replicate 1 '=' from rfl, htwo, hone]
  simp only [decide_eq_true_iff]
  split
  · omega
  · split <;> omega

/-- The encoder's text is read back as the bytes it was written from. -/
theorem base64Decode_base64Encode (b : List UInt8) :
    base64Decode stringify (base64Encode b) = .ok b := by
  have hbody : '=' ∉ base64Body b := by
    intro hmember
    obtain ⟨value, hvalue, heq⟩ := exists_of_mem_base64Body hmember
    exact base64Char_ne_padding hvalue heq.symm
  have hascii : ∀ character ∈ base64Body b ++ List.replicate (base64Padding b) '=',
      character.toNat < 0x10000 := by
    intro character hmember
    rcases List.mem_append.mp hmember with hmember | hmember
    · obtain ⟨value, hvalue, rfl⟩ := exists_of_mem_base64Body hmember
      exact base64Char_lt hvalue
    · rw [List.eq_of_mem_replicate hmember]
      decide
  have hlength := length_base64Body b
  obtain ⟨kept, bits, hfold, hkept⟩ := foldlM_base64Body stringify b [] 0
  have hcanonical : ¬ (0 < bits ∧ kept &&& ((1 <<< bits) - 1) ≠ 0) := by
    rw [Nat.one_shiftLeft, Nat.and_two_pow_sub_one_eq_mod, hkept]
    simp
  have hsize : b.length = (b.length + 2) / 3 * 4 / 4 * 3 - base64Padding b := by
    rw [base64Padding]
    omega
  have hpad := padding_of_append_replicate hbody
    (Nat.lt_succ_iff.mp (Nat.mod_lt _ (by norm_num)) : base64Padding b ≤ 2)
  rw [base64Decode, base64Encode]
  simp only [String.toList_ofList, base64Chars_eq, codeUnits_eq_length hascii, hpad,
    List.length_append, List.length_replicate, hlength]
  rw [require_of_true (Nat.mul_mod_left _ _), bind_ok, ← hlength, Nat.add_sub_cancel,
    List.take_left, require_of_true hbody, bind_ok, hfold, bind_ok, require_of_true hcanonical,
    bind_ok, hlength, List.nil_append, require_of_true hsize, bind_ok]
  rfl

end Text

/-! ### Decimal integers -/

theorem intField_toString (value : ℤ) (what : String) :
    intField (some (.string (toString value))) what = .ok value := by
  have hdigits : ∀ magnitude : ℕ, (Nat.toDigits 10 magnitude).all Char.isDigit = true := by
    intro magnitude
    rw [List.all_eq_true]
    exact fun digit hdigit ↦ Nat.isDigit_of_mem_toDigits (by norm_num) (by norm_num) hdigit
  have hsign : ∀ magnitude : ℕ, ['-'].isPrefixOf (Nat.toDigits 10 magnitude) = false := by
    intro magnitude
    cases htext : Nat.toDigits 10 magnitude with
    | nil => rfl
    | cons first rest =>
      have hfirst : first.isDigit = true :=
        Nat.isDigit_of_mem_toDigits (by norm_num) (by norm_num)
          (htext ▸ List.mem_cons_self : first ∈ Nat.toDigits 10 magnitude)
      have hne : '-' ≠ first := by
        rintro rfl
        exact absurd hfirst (by decide)
      simp [List.isPrefixOf, hne]
  rw [intField]
  cases value with
  | ofNat magnitude =>
    have htext : (toString (Int.ofNat magnitude)).toList = Nat.toDigits 10 magnitude :=
      Nat.toList_repr
    simp only [htext, isDecimal, bigIntOfDecimal, decimalDigits, hsign, Bool.false_eq_true,
      if_false]
    rw [require_of_true (by simp [hdigits, Nat.toDigits_ne_nil]), bind_ok,
      Nat.ofDigitChars_ten_toDigits]
    rfl
  | negSucc magnitude =>
    have htext : (toString (Int.negSucc magnitude)).toList =
        '-' :: Nat.toDigits 10 (magnitude + 1) := by
      rw [Int.toString_eq_repr, Int.repr, String.toList_append, Nat.toList_repr]
      rfl
    have hmarked : ['-'].isPrefixOf ('-' :: Nat.toDigits 10 (magnitude + 1)) = true := by
      simp [List.isPrefixOf]
    simp only [htext, isDecimal, bigIntOfDecimal, decimalDigits, hmarked, if_true,
      List.drop_succ_cons, List.drop_zero]
    rw [require_of_true (by simp [hdigits, Nat.toDigits_ne_nil]), bind_ok,
      Nat.ofDigitChars_ten_toDigits]
    rfl

end AnchoredLog.Port.JsonFields
