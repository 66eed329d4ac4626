import AnchoredLog.Library.StrictUtf8
import Mathlib.Data.List.DropRight
import Mathlib.Data.Nat.Notation
import Mathlib.Tactic.Common

/-!
# Lines, fields and numerals of a text

A text is cut into its lines (`lines`), a line into the fields between its white space (`words`),
and a field is read as a numeral (`fromStrRadix`). What is written one line after the other is cut
into these lines (`lines_flatMap`), fields with white space around them are the fields of the line
(`words_of_blank`, `words_solid`), and the digits of a number are read as the number
(`fromStrRadix_map`).
-/

set_option autoImplicit false
set_option relaxedAutoImplicit false

namespace AnchoredLog.Library.TextFields

/-! ### White space -/

/-- The characters with the property of white space. -/
def isWhitespace (character : Char) : Bool :=
  let code := character.toNat
  (9 ≤ code && code ≤ 13) || code == 0x20 || code == 0x85 || code == 0xa0 || code == 0x1680 ||
    (0x2000 ≤ code && code ≤ 0x200a) || code == 0x2028 || code == 0x2029 || code == 0x202f ||
    code == 0x205f || code == 0x3000

/-- White space and nothing else. -/
def Blank (text : List Char) : Prop :=
  ∀ character ∈ text, isWhitespace character = true

/-- No white space. -/
def Solid (text : List Char) : Prop :=
  text ≠ [] ∧ ∀ character ∈ text, isWhitespace character = false

/-- A text without the white space around it. -/
def trim (text : List Char) : List Char :=
  (text.dropWhile isWhitespace).rdropWhile isWhitespace

/-- The fields between the white space. -/
def words (text : List Char) : List (List Char) :=
  (text.splitOnP isWhitespace).filter (!·.isEmpty)

/-- A line without the carriage return at its end. -/
def dropReturn (line : List Char) : List Char :=
  if line.getLast? = some '\r' then line.dropLast else line

/-- The lines of a text; a line that nothing follows and that is empty is none. -/
def lines (text : List Char) : List (List Char) :=
  let pieces := text.splitOn '\n'
  pieces.dropLast.map dropReturn ++ (pieces.getLast?.filter (!·.isEmpty)).toList

section Text

variable {before body after line rest : List Char}

theorem dropWhile_of_blank (hbefore : Blank before) :
    (before ++ body).dropWhile isWhitespace = body.dropWhile isWhitespace := by
  induction before with
  | nil => rfl
  | cons character before ih =>
    rw [Blank, List.forall_mem_cons] at hbefore
    rw [List.cons_append, List.dropWhile_cons_of_pos hbefore.1, ih hbefore.2]

theorem rdropWhile_of_blank (hafter : Blank after) :
    (body ++ after).rdropWhile isWhitespace = body.rdropWhile isWhitespace := by
  rw [List.rdropWhile, List.reverse_append, dropWhile_of_blank, List.rdropWhile]
  intro character hcharacter
  exact hafter character (List.mem_reverse.mp hcharacter)

/-- White space around a text is dropped, and white space inside it is not. -/
theorem trim_padded (hbefore : Blank before) (hafter : Blank after)
    (hfirst : ∀ character, body.head? = some character → isWhitespace character = false)
    (hlast : ∀ character, body.getLast? = some character → isWhitespace character = false) :
    trim (before ++ (body ++ after)) = body := by
  rw [trim, dropWhile_of_blank hbefore]
  cases body with
  | nil =>
    rw [List.nil_append, List.dropWhile_eq_nil_iff.mpr hafter, List.rdropWhile_nil]
  | cons character body =>
    rw [List.cons_append, List.dropWhile_cons_of_neg (by rw [hfirst character rfl]; decide),
      ← List.cons_append, rdropWhile_of_blank hafter, List.rdropWhile_eq_self_iff]
    intro hnonempty
    rw [hlast _ (List.getLast?_eq_getLast_of_ne_nil hnonempty)]
    decide

theorem trim_of_blank (hblank : Blank line) : trim line = [] := by
  rw [trim, List.dropWhile_eq_nil_iff.mpr hblank, List.rdropWhile_nil]

theorem Solid.trim (hsolid : Solid body) : trim body = body := by
  have hpadded := @trim_padded [] body [] (by simp [Blank]) (by simp [Blank])
    (fun character hfirst ↦ hsolid.2 character (List.mem_of_mem_head? hfirst))
    (fun character hlast ↦ hsolid.2 character (List.mem_of_getLast? hlast))
  rwa [List.nil_append, List.append_nil] at hpadded

/-- A text and white space after it are trimmed to the same. -/
theorem trim_append_of_blank (hafter : Blank after) : trim (line ++ after) = trim line := by
  rw [trim, trim, List.dropWhile_append]
  by_cases hline : Blank line
  · rw [List.dropWhile_eq_nil_iff.mpr hline]
    simp [List.dropWhile_eq_nil_iff.mpr hafter]
  · have hsome : (line.dropWhile isWhitespace).isEmpty = false := by
      rw [List.isEmpty_eq_false_iff]
      exact fun hnil ↦ hline (List.dropWhile_eq_nil_iff.mp hnil)
    rw [hsome]
    exact rdropWhile_of_blank hafter

theorem trim_dropReturn (line : List Char) : trim (dropReturn line) = trim line := by
  unfold dropReturn
  split_ifs with hreturn
  · have hline : line = line.dropLast ++ ['\r'] :=
      (List.dropLast_append_getLast? '\r' (by simpa using hreturn)).symm
    rw [hline, List.dropLast_concat, trim_append_of_blank]
    intro character hcharacter
    rw [List.mem_singleton.mp hcharacter]
    decide
  · rfl

@[simp] theorem words_nil : words [] = [] :=
  rfl

theorem words_of_blank (hbefore : Blank before) : words (before ++ rest) = words rest := by
  induction before with
  | nil => rfl
  | cons character before ih =>
    rw [Blank, List.forall_mem_cons] at hbefore
    rw [← ih hbefore.2, List.cons_append, words, ← List.nil_append (character :: (before ++ rest)),
      List.splitOnP_append_cons _ _ hbefore.1]
    rfl

/-- A field that white space follows, or nothing, is the first one. -/
theorem words_solid (hsolid : Solid body)
    (hrest : ∀ character, rest.head? = some character → isWhitespace character = true) :
    words (body ++ rest) = body :: words rest := by
  have hkept (pieces : List (List Char)) : (body :: pieces).filter (!·.isEmpty) =
      body :: pieces.filter (!·.isEmpty) := by
    cases body with
    | nil => exact absurd rfl hsolid.1
    | cons character body => rfl
  cases rest with
  | nil =>
    rw [List.append_nil, words, List.splitOnP_eq_singleton hsolid.2, hkept]
    rfl
  | cons character rest =>
    have hspace := hrest character rfl
    have hdropped := @words_of_blank [character] rest (by simpa [Blank])
    rw [words, List.splitOnP_append_cons_of_forall_mem hsolid.2 _ hspace, hkept]
    exact congrArg (body :: ·) hdropped.symm

theorem lines_nil : lines [] = [] := by
  decide

/-- A line that is ended is the first one. -/
theorem lines_append (hline : '\n' ∉ line) :
    lines (line ++ '\n' :: rest) = dropReturn line :: lines rest := by
  have hpieces : (line ++ '\n' :: rest).splitOn '\n' = line :: rest.splitOn '\n' :=
    List.splitOn_append_cons_self_of_not_mem hline _
  have hnonempty := List.splitOn_ne_nil '\n' rest
  rw [lines, lines, hpieces, List.dropLast_cons_of_ne_nil hnonempty,
    List.getLast?_cons_of_ne_nil hnonempty]
  rfl

/-- Lines that are ended one after the other are cut apart again. -/
theorem lines_flatMap {written : List (List Char)} (hwritten : ∀ line ∈ written, '\n' ∉ line) :
    lines (written.flatMap (· ++ ['\n'])) = written.map dropReturn := by
  induction written with
  | nil => exact lines_nil
  | cons line written ih =>
    rw [List.forall_mem_cons] at hwritten
    rw [List.flatMap_cons, List.append_assoc, List.singleton_append, lines_append hwritten.1,
      ih hwritten.2, List.map_cons]

end Text

/-! ### Numerals -/

/-- The value of a digit below a radix of up to 36. -/
def toDigit (radix : ℕ) (digit : Char) : Option ℕ :=
  let value : Option ℕ :=
    if '0' ≤ digit ∧ digit ≤ '9' then some (digit.toNat - 48)
    else if 'a' ≤ digit ∧ digit ≤ 'z' then some (digit.toNat - 87)
    else if 'A' ≤ digit ∧ digit ≤ 'Z' then some (digit.toNat - 55)
    else none
  value.filter (· < radix)

/-- The digits of a numeral, which may have a plus sign in front of them. -/
def unsigned : List Char → List Char
  | '+' :: digits => digits
  | digits => digits

/-- The number below a bound that a numeral spells; none for no digit. -/
def fromStrRadix (radix bound : ℕ) (text : List Char) : Option ℕ :=
  if unsigned text = [] then none
  else do
    let digits ← (unsigned text).mapM (toDigit radix)
    let value := digits.foldl (fun sum digit ↦ radix * sum + digit) 0
    if value < bound then some value else none

/-- A numeral written in the digits of its values is read as what they come to. -/
theorem fromStrRadix_map {radix bound : ℕ} {write : ℕ → Char}
    (hwrite : ∀ value < radix, toDigit radix (write value) = some value ∧ write value ≠ '+')
    {values : List ℕ} (hvalues : ∀ value ∈ values, value < radix) (hsome : values ≠ [])
    (hbound : values.foldl (fun sum digit ↦ radix * sum + digit) 0 < bound) :
    fromStrRadix radix bound (values.map write) =
      some (values.foldl (fun sum digit ↦ radix * sum + digit) 0) := by
  have hunsigned : unsigned (values.map write) = values.map write := by
    cases values with
    | nil => exact absurd rfl hsome
    | cons value values =>
      have hplus := (hwrite value (hvalues value List.mem_cons_self)).2
      rw [List.map_cons, unsigned]
      rintro rest hcons
      exact hplus (List.cons.inj hcons).1
  have hdigits : (values.map write).mapM (toDigit radix) = some values := by
    rw [List.mapM_map]
    clear hunsigned hbound hsome
    induction values with
    | nil => rfl
    | cons value values ih =>
      rw [List.forall_mem_cons] at hvalues
      rw [List.mapM_cons, Function.comp_apply, (hwrite value hvalues.1).1, ih hvalues.2]
      rfl
  rw [fromStrRadix, hunsigned, if_neg (by simpa using hsome), hdigits]
  exact if_pos hbound

end AnchoredLog.Library.TextFields
