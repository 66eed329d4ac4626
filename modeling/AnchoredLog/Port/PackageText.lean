import AnchoredLog.Library.JsonText
import AnchoredLog.Port.DisclosureCompleteness
import Mathlib.Data.Int.Log
import Mathlib.Data.Rat.Floor

/-!
# A package as text

`verifyDisclosureJson` parses a text and verifies the value. The field walk sees the value alone,
and `JSON.parse` keeps the last member of each name in an object, so a member that a later one of
its name replaces is in the text and not in the value. `Listed` says of the syntax tree, where
every member stands, that each is at a path the closed list names and holds what the list allows
there. `accepted_listed_iff` says that an accepted text is listed exactly when the walk would also
have accepted every replaced member, and `verifyDisclosureJson_smuggled` that whatever a replaced
member carries, the report is the same.

A string of the language is a list of 16-bit units. A `String` cannot hold an unpaired surrogate,
which stands as U+FFFD in a value: no name of the list and nothing the readers accept holds either.
-/

set_option autoImplicit false
set_option relaxedAutoImplicit false

namespace AnchoredLog.Port.PackageText

open AnchoredLog.Core
open Core.Preimages Library.ByteCodec Library.Fallible Library.JsonText Primitives
open JsonFields Disclosure DisclosureAcceptance DisclosureCompleteness

/-! ### Strings -/

def isHighSurrogate (unit : UInt16) : Bool :=
  0xd800 ≤ unit && unit < 0xdc00

def isLowSurrogate (unit : UInt16) : Bool :=
  0xdc00 ≤ unit && unit < 0xe000

/-- The character of a unit that is not half of a pair. -/
def characterOf (unit : UInt16) : Char :=
  if isHighSurrogate unit || isLowSurrogate unit then Char.ofNat 0xfffd else Char.ofNat unit.toNat

/-- The character of a pair of surrogates. -/
def pairedCharacter (high low : UInt16) : Char :=
  Char.ofNat (0x10000 + (high.toNat - 0xd800) * 0x400 + (low.toNat - 0xdc00))

/-- The characters the units are the encoding of. -/
def charactersOf : Units → List Char
  | [] => []
  | [last] => [characterOf last]
  | first :: second :: rest =>
    if isHighSurrogate first && isLowSurrogate second then
      pairedCharacter first second :: charactersOf rest
    else
      characterOf first :: charactersOf (second :: rest)

/-- The string of the units. -/
def stringOf (units : Units) : String :=
  String.ofList (charactersOf units)

/-- The units of a character. -/
def characterUnits (character : Char) : Units :=
  if character.toNat < 0x10000 then [.ofNat character.toNat]
  else [.ofNat (0xd800 + (character.toNat - 0x10000) / 0x400),
    .ofNat (0xdc00 + (character.toNat - 0x10000) % 0x400)]

/-- The units of a string. -/
def utf16 (text : String) : Units :=
  text.toList.flatMap characterUnits

/-! ### `JSON.parse` -/

/-- The double nearest to a rational, the even one of two. -/
def nearestDouble (value : ℚ) : JsNumber :=
  let exponent := max (Int.log 2 |value| - 52) (-1074)
  let scaled := |value| / (2 : ℚ) ^ exponent
  let gap := scaled - ⌊scaled⌋
  let digits : ℤ :=
    if gap < 1 / 2 ∨ (gap = 1 / 2 ∧ ⌊scaled⌋ % 2 = 0) then ⌊scaled⌋ else ⌊scaled⌋ + 1
  let magnitude := digits * (2 : ℚ) ^ exponent
  if 2 ^ 1024 ≤ magnitude then .infinite (value < 0)
  else .finite (if value < 0 then -magnitude else magnitude)

/-- A member replaces the one of its name, in its place, and is otherwise the last. -/
def defineMember (kept : List (Units × Json)) (member : Units × Json) : List (Units × Json) :=
  if member.1 ∈ kept.map Prod.fst then
    kept.map fun before ↦ if before.1 = member.1 then member else before
  else
    kept ++ [member]

/-- One member a name. -/
def keepLast (members : List (Units × Json)) : List (Units × Json) :=
  members.foldl defineMember []

/-- The number of a name that is an array index. -/
def arrayIndex (name : String) : Option ℕ :=
  let index := Nat.ofDigitChars 10 name.toList 0
  if name.toList.all Char.isDigit ∧ name = toString index ∧ index < 2 ^ 32 - 1 then some index
  else none

/-- The order the fields of an object are enumerated in: array indices first, by their number. -/
def enumerated (fields : List (String × Json)) : List (String × Json) :=
  (fields.filter fun field ↦ (arrayIndex field.1).isSome).mergeSort
      (fun first second ↦ (arrayIndex first.1).getD 0 ≤ (arrayIndex second.1).getD 0) ++
    fields.filter fun field ↦ (arrayIndex field.1).isNone

mutual

/-- The value of a tree. -/
def valueOf : SyntaxTree → Json
  | .null => .null
  | .boolean value => .boolean value
  | .number literal => .number (nearestDouble literal.value)
  | .string units => .string (stringOf units)
  | .array elements => .array (elementValues elements)
  | .object members =>
    .object (enumerated ((keepLast (memberValues members)).map fun member ↦
      (stringOf member.1, member.2)))

def elementValues : List SyntaxTree → List Json
  | [] => []
  | element :: elements => valueOf element :: elementValues elements

def memberValues : List (Units × SyntaxTree) → List (Units × Json)
  | [] => []
  | (name, value) :: members => (name, valueOf value) :: memberValues members

end

/-- `JSON.parse`, which throws on a text outside the grammar. -/
def jsonParse (text : Units) : Option Json :=
  (read text).map valueOf

section Verifier

variable (syntaxError : Units → String) (stringify : Option Json → String) (hasher : Hasher)
  (verifier : Verifier)

/-- The text path: parse, then verify. The message of a parser's error is the engine's. -/
def verifyDisclosureJson (text : Units) (options : VerifyOptions) : Thrown DisclosureReport :=
  match jsonParse text with
  | none => return {
      ok := false
      failure := some (.package .MalformedPackage ("MalformedPackage: " ++ syntaxError text))
      leaf := none
      fields := none
      flags := none
      chainPosition := { established := false, detail := "the package did not parse" }
      checks := [{ name := "package parses as JSON", status := .fail, detail := none }]
      notes := [] }
  | some parsed => verifyDisclosurePackage stringify hasher verifier parsed options

end Verifier

/-! ### Members and the list -/

/-- A step of a path through a text. -/
inductive Step
  | field (name : Units)
  | element (index : ℕ)

/-- The members of the objects of a tree, at any depth, each at its path. -/
inductive MemberAt : SyntaxTree → List Step → SyntaxTree → Prop
  | here {members : List (Units × SyntaxTree)} {name : Units} {value : SyntaxTree}
      (hmember : (name, value) ∈ members) : MemberAt (.object members) [.field name] value
  | field {members : List (Units × SyntaxTree)} {name : Units} {child value : SyntaxTree}
      {path : List Step} (hmember : (name, child) ∈ members) (hinner : MemberAt child path value) :
      MemberAt (.object members) (.field name :: path) value
  | element {elements : List SyntaxTree} {index : ℕ} {child value : SyntaxTree}
      {path : List Step} (helement : elements[index]? = some child)
      (hinner : MemberAt child path value) :
      MemberAt (.array elements) (.element index :: path) value

/-- The members that a later member of the same object replaces. -/
inductive ReplacedAt : SyntaxTree → List Step → SyntaxTree → Prop
  | here {before after : List (Units × SyntaxTree)} {name : Units} {value : SyntaxTree}
      (hlater : name ∈ after.map Prod.fst) :
      ReplacedAt (.object (before ++ (name, value) :: after)) [.field name] value
  | field {members : List (Units × SyntaxTree)} {name : Units} {child value : SyntaxTree}
      {path : List Step} (hmember : (name, child) ∈ members)
      (hinner : ReplacedAt child path value) :
      ReplacedAt (.object members) (.field name :: path) value
  | element {elements : List SyntaxTree} {index : ℕ} {child value : SyntaxTree}
      {path : List Step} (helement : elements[index]? = some child)
      (hinner : ReplacedAt child path value) :
      ReplacedAt (.array elements) (.element index :: path) value

/-- The shape of the elements of an array. -/
def elementShape : Shape → Option Shape
  | .scalars => some .scalar
  | .array (inner :: _) => some inner
  | _ => none

/-- The shape of a field of an object. -/
def fieldShape (shape : Shape) (field : String) : Option Shape :=
  match shape with
  | .object fields => shapeOf fields field
  | _ => none

/-- The shape the list gives to a path, `none` when it does not name it. -/
def shapeAt (shape : Shape) : List Step → Option Shape
  | [] => some shape
  | .field name :: path => (fieldShape shape (stringOf name)).bind fun inner ↦ shapeAt inner path
  | .element _ :: path => (elementShape shape).bind fun inner ↦ shapeAt inner path

/-- Whether a tree is an array or an object. -/
def isContainerTree : SyntaxTree → Bool
  | .array _ => true
  | .object _ => true
  | _ => false

/-- The kind of value a shape allows: a single value, an array of values of a kind, or an
object. -/
def HasKind (tree : SyntaxTree) : Shape → Prop
  | .scalar => isContainerTree tree = false
  | .scalars => ∃ elements, tree = .array elements ∧
      ∀ element ∈ elements, isContainerTree element = false
  | .array [] => False
  | .array (inner :: _) => ∃ elements, tree = .array elements ∧
      ∀ element ∈ elements, HasKind element inner
  | .object _ => ∃ members, tree = .object members

/-- Every member is at a path the shape names, with the kind of value it allows. -/
def Listed (tree : SyntaxTree) (shape : Shape) : Prop :=
  ∀ path value, MemberAt tree path value →
    ∃ inner, shapeAt shape path = some inner ∧ HasKind value inner

/-- The field walk accepts a value. Its path goes into messages alone. -/
def Walked (value : Json) (shape : Shape) : Prop :=
  ∀ path, checkOnlyListedFields value shape path = .ok ()

/-- The walk would accept every replaced member at its path. -/
def ReplacedWalked (tree : SyntaxTree) (shape : Shape) : Prop :=
  ∀ path value, ReplacedAt tree path value →
    ∃ inner, shapeAt shape path = some inner ∧ Walked (valueOf value) inner

/-! ### The members that are kept -/

theorem mem_defineMember {kept : List (Units × Json)} {member found : Units × Json} :
    found ∈ defineMember kept member ↔ found = member ∨ found ∈ kept ∧ found.1 ≠ member.1 := by
  rw [defineMember]
  split
  · next hdefined =>
    obtain ⟨old, hold, hname⟩ := List.mem_map.mp hdefined
    rw [List.mem_map]
    constructor
    · rintro ⟨before, hbefore, rfl⟩
      by_cases hsame : before.1 = member.1
      · exact Or.inl (if_pos hsame)
      · rw [if_neg hsame]
        exact Or.inr ⟨hbefore, hsame⟩
    · rintro (rfl | ⟨hfound, hother⟩)
      · exact ⟨old, hold, if_pos hname⟩
      · exact ⟨found, hfound, if_neg hother⟩
  · next hnew =>
    rw [List.mem_append, List.mem_singleton, or_comm]
    refine or_congr_right ⟨fun hfound ↦ ⟨hfound, fun hname ↦ hnew ?_⟩, And.left⟩
    rw [← hname]
    exact List.mem_map_of_mem hfound

theorem mem_of_mem_foldl {kept members : List (Units × Json)} {found : Units × Json}
    (hfound : found ∈ members.foldl defineMember kept) : found ∈ kept ∨ found ∈ members := by
  induction members generalizing kept with
  | nil => exact Or.inl hfound
  | cons member members ih =>
    rcases ih hfound with hkept | hlater
    · rcases mem_defineMember.mp hkept with rfl | ⟨hbefore, -⟩
      · exact Or.inr List.mem_cons_self
      · exact Or.inl hbefore
    · exact Or.inr (List.mem_cons_of_mem _ hlater)

theorem mem_foldl_of_notMem {kept members : List (Units × Json)} {found : Units × Json}
    (hkept : found ∈ kept) (hlast : found.1 ∉ members.map Prod.fst) :
    found ∈ members.foldl defineMember kept := by
  induction members generalizing kept with
  | nil => exact hkept
  | cons member members ih =>
    rw [List.map_cons, List.mem_cons, not_or] at hlast
    exact ih (mem_defineMember.mpr (Or.inr ⟨hkept, hlast.1⟩)) hlast.2

theorem mem_keepLast_of_last {before after : List (Units × Json)} {member : Units × Json}
    (hlast : member.1 ∉ after.map Prod.fst) : member ∈ keepLast (before ++ member :: after) := by
  rw [keepLast, List.foldl_append, List.foldl_cons]
  exact mem_foldl_of_notMem (mem_defineMember.mpr (Or.inl rfl)) hlast

theorem mem_of_mem_keepLast {members : List (Units × Json)} {found : Units × Json}
    (hfound : found ∈ keepLast members) : found ∈ members := by
  rcases mem_of_mem_foldl hfound with hnone | hmember
  · cases hnone
  · exact hmember

theorem mem_enumerated {fields : List (String × Json)} {field : String × Json} :
    field ∈ enumerated fields ↔ field ∈ fields := by
  rw [enumerated, List.mem_append, List.mem_mergeSort, List.mem_filter, List.mem_filter,
    ← and_or_left]
  cases arrayIndex field.1 <;> simp

theorem elementValues_eq (elements : List SyntaxTree) :
    elementValues elements = elements.map valueOf := by
  induction elements with
  | nil => rfl
  | cons element elements ih => rw [elementValues, ih, List.map_cons]

theorem memberValues_eq (members : List (Units × SyntaxTree)) :
    memberValues members = members.map fun member ↦ (member.1, valueOf member.2) := by
  induction members with
  | nil => rfl
  | cons member members ih =>
    obtain ⟨name, value⟩ := member
    rw [memberValues, ih, List.map_cons]

/-- The fields of the value of an object. -/
def fieldsOf (members : List (Units × SyntaxTree)) : List (String × Json) :=
  enumerated ((keepLast (memberValues members)).map fun member ↦ (stringOf member.1, member.2))

theorem valueOf_object (members : List (Units × SyntaxTree)) :
    valueOf (.object members) = .object (fieldsOf members) := by
  rw [valueOf, fieldsOf]

theorem valueOf_array (elements : List SyntaxTree) :
    valueOf (.array elements) = .array (elements.map valueOf) := by
  rw [valueOf, elementValues_eq]

/-- Every field is one of the members. -/
theorem exists_member_of_mem_fieldsOf {members : List (Units × SyntaxTree)}
    {field : String × Json} (hfield : field ∈ fieldsOf members) :
    ∃ member ∈ members, field = (stringOf member.1, valueOf member.2) := by
  obtain ⟨kept, hkept, rfl⟩ := List.mem_map.mp (mem_enumerated.mp hfield)
  have hvalue := mem_of_mem_keepLast hkept
  rw [memberValues_eq] at hvalue
  obtain ⟨member, hmember, rfl⟩ := List.mem_map.mp hvalue
  exact ⟨member, hmember, rfl⟩

/-- A member that no later one replaces is a field. -/
theorem mem_fieldsOf_of_last {before after : List (Units × SyntaxTree)}
    {member : Units × SyntaxTree} (hlast : member.1 ∉ after.map Prod.fst) :
    (stringOf member.1, valueOf member.2) ∈ fieldsOf (before ++ member :: after) := by
  have hnames : (member.1, valueOf member.2).1 ∉ (memberValues after).map Prod.fst := by
    rw [memberValues_eq, List.map_map]
    exact hlast
  have hkept : (member.1, valueOf member.2) ∈ keepLast
      (memberValues before ++ (member.1, valueOf member.2) :: memberValues after) :=
    mem_keepLast_of_last hnames
  refine mem_enumerated.mpr (List.mem_map.mpr ⟨(member.1, valueOf member.2), ?_, rfl⟩)
  rw [memberValues_eq, List.map_append, List.map_cons, ← memberValues_eq, ← memberValues_eq]
  exact hkept

/-! ### One container of the walk -/

theorem check_array_iff {elements : List Json} {shape : Shape} {path : String} :
    checkOnlyListedFields (.array elements) shape path = .ok () ↔
      ∃ inner, elementShape shape = some inner ∧ ∀ cell ∈ elements.zipIdx,
        checkOnlyListedFields cell.1 inner (elementPath path cell.2) = .ok () := by
  cases shape with
  | scalar => simp [checkOnlyListedFields, elementShape, isContainer]
  | scalars => simp only [checkOnlyListedFields, elementShape, checkElements_eq_ok_iff,
      Option.some.injEq, exists_eq_left']
  | array inner =>
    cases inner with
    | nil => simp [checkOnlyListedFields, elementShape]
    | cons inner more => simp only [checkOnlyListedFields, elementShape, checkElements_eq_ok_iff,
        Option.some.injEq, exists_eq_left']
  | object fields => simp [checkOnlyListedFields, elementShape]

theorem check_object_iff {fields : List (String × Json)} {shape : Shape} {path : String} :
    checkOnlyListedFields (.object fields) shape path = .ok () ↔
      (∃ listed, shape = .object listed) ∧ ∀ field ∈ fields, ∃ inner,
        fieldShape shape field.1 = some inner ∧
          checkOnlyListedFields field.2 inner (fieldPath path field.1) = .ok () := by
  cases shape with
  | scalar => simp [checkOnlyListedFields, isContainer]
  | scalars => simp [checkOnlyListedFields]
  | array inner => cases inner <;> simp [checkOnlyListedFields]
  | object listed => simp [checkOnlyListedFields, checkFields_eq_ok_iff, fieldShape]

theorem check_single_iff {value : Json} {shape : Shape} {path : String}
    (hvalue : isContainer value = false) :
    checkOnlyListedFields value shape path = .ok () ↔ shape = .scalar := by
  cases value with
  | array => cases hvalue
  | object => cases hvalue
  | _ =>
    cases shape with
    | array inner => cases inner <;> simp [checkOnlyListedFields]
    | _ => simp [checkOnlyListedFields, isContainer]

theorem hasKind_array_iff {elements : List SyntaxTree} {shape : Shape} :
    HasKind (.array elements) shape ↔
      ∃ inner, elementShape shape = some inner ∧ ∀ element ∈ elements, HasKind element inner := by
  cases shape with
  | scalar => simp [HasKind, elementShape, isContainerTree]
  | scalars => simp [HasKind, elementShape]
  | array inner => cases inner <;> simp [HasKind, elementShape]
  | object fields => simp [HasKind, elementShape]

theorem hasKind_object_iff {members : List (Units × SyntaxTree)} {shape : Shape} :
    HasKind (.object members) shape ↔ ∃ listed, shape = .object listed := by
  cases shape with
  | array inner => cases inner <;> simp [HasKind]
  | _ => simp [HasKind, isContainerTree]

theorem hasKind_single_iff {tree : SyntaxTree} {shape : Shape}
    (htree : isContainerTree tree = false) : HasKind tree shape ↔ shape = .scalar := by
  cases tree with
  | array => cases htree
  | object => cases htree
  | _ =>
    cases shape with
    | array inner => cases inner <;> simp [HasKind]
    | _ => simp [HasKind, isContainerTree]

/-! ### One container of the list -/

theorem listed_array_iff {elements : List SyntaxTree} {shape inner : Shape}
    (hinner : elementShape shape = some inner) :
    Listed (.array elements) shape ↔ ∀ element ∈ elements, Listed element inner := by
  constructor
  · intro hlisted element helement path value hmember
    obtain ⟨index, hindex⟩ := List.mem_iff_getElem?.mp helement
    have hfound := hlisted (.element index :: path) value (.element hindex hmember)
    rwa [shapeAt, hinner, Option.bind_some] at hfound
  · intro hall path value hmember
    cases hmember with
    | element helement hmember =>
      rw [shapeAt, hinner, Option.bind_some]
      exact hall _ (List.mem_of_getElem? helement) _ value hmember

theorem replacedWalked_array_iff {elements : List SyntaxTree} {shape inner : Shape}
    (hinner : elementShape shape = some inner) :
    ReplacedWalked (.array elements) shape ↔
      ∀ element ∈ elements, ReplacedWalked element inner := by
  constructor
  · intro hwalked element helement path value hreplaced
    obtain ⟨index, hindex⟩ := List.mem_iff_getElem?.mp helement
    have hfound := hwalked (.element index :: path) value (.element hindex hreplaced)
    rwa [shapeAt, hinner, Option.bind_some] at hfound
  · intro hall path value hreplaced
    cases hreplaced with
    | element helement hreplaced =>
      rw [shapeAt, hinner, Option.bind_some]
      exact hall _ (List.mem_of_getElem? helement) _ value hreplaced

theorem listed_object_iff {members : List (Units × SyntaxTree)} {shape : Shape} :
    Listed (.object members) shape ↔ ∀ member ∈ members, ∃ inner,
      fieldShape shape (stringOf member.1) = some inner ∧ HasKind member.2 inner ∧
        Listed member.2 inner := by
  constructor
  · intro hlisted member hmember
    obtain ⟨inner, hinner, hkind⟩ := hlisted [.field member.1] member.2 (.here hmember)
    rw [shapeAt, Option.bind_eq_some_iff] at hinner
    obtain ⟨found, hfound, heq⟩ := hinner
    obtain rfl := Option.some.inj heq
    refine ⟨found, hfound, hkind, fun path value hvalue ↦ ?_⟩
    have hdeep := hlisted (.field member.1 :: path) value (.field hmember hvalue)
    rwa [shapeAt, hfound, Option.bind_some] at hdeep
  · intro hall path value hvalue
    cases hvalue with
    | here hmember =>
      obtain ⟨inner, hinner, hkind, -⟩ := hall _ hmember
      refine ⟨inner, ?_, hkind⟩
      rw [shapeAt, hinner]
      rfl
    | field hmember hvalue =>
      obtain ⟨inner, hinner, -, hlisted⟩ := hall _ hmember
      rw [shapeAt, hinner, Option.bind_some]
      exact hlisted _ value hvalue

theorem replacedWalked_member {members : List (Units × SyntaxTree)} {shape inner : Shape}
    (hwalked : ReplacedWalked (.object members) shape) {member : Units × SyntaxTree}
    (hmember : member ∈ members) (hinner : fieldShape shape (stringOf member.1) = some inner) :
    ReplacedWalked member.2 inner := by
  intro path value hreplaced
  have hfound := hwalked (.field member.1 :: path) value (.field hmember hreplaced)
  rwa [shapeAt, hinner, Option.bind_some] at hfound

/-! ### The whole text -/

/-- The statement of `walk_iff`. -/
def WalkDecides (tree : SyntaxTree) : Prop :=
  ∀ shape path, checkOnlyListedFields (valueOf tree) shape path = .ok () ∧
    ReplacedWalked tree shape ↔ HasKind tree shape ∧ Listed tree shape

theorem walkDecides_single {tree : SyntaxTree} (htree : isContainerTree tree = false)
    (hvalue : isContainer (valueOf tree) = false) : WalkDecides tree := by
  intro shape path
  have hreplaced : ReplacedWalked tree shape := by
    intro path value hreplaced
    cases hreplaced <;> cases htree
  have hlisted : Listed tree shape := by
    intro path value hmember
    cases hmember <;> cases htree
  rw [check_single_iff hvalue, hasKind_single_iff htree]
  exact and_congr_right fun _ ↦ iff_of_true hreplaced hlisted

theorem walkDecides_array {elements : List SyntaxTree}
    (hall : ∀ element ∈ elements, WalkDecides element) : WalkDecides (.array elements) := by
  intro shape path
  rw [valueOf_array, check_array_iff, hasKind_array_iff]
  constructor
  · rintro ⟨⟨inner, hinner, hcells⟩, hreplaced⟩
    rw [replacedWalked_array_iff hinner] at hreplaced
    have helement : ∀ element ∈ elements, HasKind element inner ∧ Listed element inner := by
      intro element helement
      obtain ⟨index, hindex⟩ := List.mem_iff_getElem?.mp helement
      have hcell : (valueOf element, index) ∈ (elements.map valueOf).zipIdx := by
        rw [List.mem_zipIdx_iff_getElem?, List.getElem?_map, hindex]
        rfl
      exact (hall element helement inner _).mp ⟨hcells _ hcell, hreplaced element helement⟩
    exact ⟨⟨inner, hinner, fun element hmember ↦ (helement element hmember).1⟩,
      (listed_array_iff hinner).mpr fun element hmember ↦ (helement element hmember).2⟩
  · rintro ⟨⟨inner, hinner, hkinds⟩, hlisted⟩
    rw [listed_array_iff hinner] at hlisted
    refine ⟨⟨inner, hinner, fun cell hcell ↦ ?_⟩, (replacedWalked_array_iff hinner).mpr
      fun element helement ↦ ((hall element helement inner path).mpr
        ⟨hkinds element helement, hlisted element helement⟩).2⟩
    obtain ⟨element, helement, heq⟩ := List.mem_map.mp (List.fst_mem_of_mem_zipIdx hcell)
    rw [← heq]
    exact ((hall element helement inner _).mpr
      ⟨hkinds element helement, hlisted element helement⟩).1

/-- Every member of an accepted object is accepted: the last of its name because the walk saw it,
the others by assumption. -/
theorem exists_walk_of_member {members : List (Units × SyntaxTree)} {shape : Shape} {path : String}
    (hfields : ∀ field ∈ fieldsOf members, ∃ inner, fieldShape shape field.1 = some inner ∧
      checkOnlyListedFields field.2 inner (fieldPath path field.1) = .ok ())
    (hreplaced : ReplacedWalked (.object members) shape) {member : Units × SyntaxTree}
    (hmember : member ∈ members) :
    ∃ inner path, fieldShape shape (stringOf member.1) = some inner ∧
      checkOnlyListedFields (valueOf member.2) inner path = .ok () := by
  obtain ⟨before, after, rfl⟩ := List.append_of_mem hmember
  by_cases hlater : member.1 ∈ after.map Prod.fst
  · obtain ⟨inner, hinner, hwalked⟩ := hreplaced [.field member.1] member.2 (.here hlater)
    rw [shapeAt, Option.bind_eq_some_iff] at hinner
    obtain ⟨found, hfound, heq⟩ := hinner
    obtain rfl := Option.some.inj heq
    exact ⟨found, "", hfound, hwalked ""⟩
  · obtain ⟨inner, hinner, hcheck⟩ := hfields _ (mem_fieldsOf_of_last hlater)
    exact ⟨inner, _, hinner, hcheck⟩

theorem walkDecides_object {members : List (Units × SyntaxTree)}
    (hall : ∀ member ∈ members, WalkDecides member.2) : WalkDecides (.object members) := by
  intro shape path
  rw [valueOf_object, check_object_iff, hasKind_object_iff, listed_object_iff]
  constructor
  · rintro ⟨⟨hshape, hfields⟩, hreplaced⟩
    refine ⟨hshape, fun member hmember ↦ ?_⟩
    obtain ⟨inner, path, hinner, hcheck⟩ := exists_walk_of_member hfields hreplaced hmember
    exact ⟨inner, hinner, (hall member hmember inner path).mp
      ⟨hcheck, replacedWalked_member hreplaced hmember hinner⟩⟩
  · rintro ⟨hshape, hmembers⟩
    have hwalk : ∀ member ∈ members, ∃ inner, fieldShape shape (stringOf member.1) = some inner ∧
        Walked (valueOf member.2) inner ∧ ReplacedWalked member.2 inner := by
      intro member hmember
      obtain ⟨inner, hinner, hlisted⟩ := hmembers member hmember
      exact ⟨inner, hinner, fun path ↦ ((hall member hmember inner path).mpr hlisted).1,
        ((hall member hmember inner "").mpr hlisted).2⟩
    refine ⟨⟨hshape, fun field hfield ↦ ?_⟩, fun path value hreplaced ↦ ?_⟩
    · obtain ⟨member, hmember, rfl⟩ := exists_member_of_mem_fieldsOf hfield
      obtain ⟨inner, hinner, hwalked, -⟩ := hwalk member hmember
      exact ⟨inner, hinner, hwalked _⟩
    · cases hreplaced with
      | here hlater =>
        obtain ⟨inner, hinner, hwalked, -⟩ :=
          hwalk _ (List.mem_append_right _ List.mem_cons_self)
        refine ⟨inner, ?_, hwalked⟩
        rw [shapeAt, hinner]
        rfl
      | field hmember hreplaced =>
        obtain ⟨inner, hinner, -, hinside⟩ := hwalk _ hmember
        rw [shapeAt, hinner, Option.bind_some]
        exact hinside _ value hreplaced

/-- The walk over the value, and over what each replaced member would have been, decides whether
the text is listed. -/
theorem walk_iff (tree : SyntaxTree) : WalkDecides tree := by
  induction tree using SyntaxTree.inductionOn with
  | null => exact walkDecides_single rfl rfl
  | boolean value => exact walkDecides_single rfl rfl
  | number literal => exact walkDecides_single rfl rfl
  | string units => exact walkDecides_single rfl rfl
  | array elements ih => exact walkDecides_array ih
  | object members ih => exact walkDecides_object ih

/-! ### Writing a value -/

theorem isHighSurrogate_iff (unit : UInt16) :
    isHighSurrogate unit = true ↔ 0xd800 ≤ unit.toNat ∧ unit.toNat < 0xdc00 := by
  simp [isHighSurrogate, UInt16.le_iff_toNat_le, UInt16.lt_iff_toNat_lt]

theorem isLowSurrogate_iff (unit : UInt16) :
    isLowSurrogate unit = true ↔ 0xdc00 ≤ unit.toNat ∧ unit.toNat < 0xe000 := by
  simp [isLowSurrogate, UInt16.le_iff_toNat_le, UInt16.lt_iff_toNat_lt]

theorem charactersOf_cons {unit : UInt16} (hhigh : isHighSurrogate unit = false) (rest : Units) :
    charactersOf (unit :: rest) = characterOf unit :: charactersOf rest := by
  cases rest with
  | nil => rfl
  | cons second rest => rw [charactersOf, hhigh, Bool.false_and, if_neg Bool.false_ne_true]

/-- The characters of a string are read back from its units. -/
theorem charactersOf_characterUnits (character : Char) (rest : Units) :
    charactersOf (characterUnits character ++ rest) = character :: charactersOf rest := by
  have hvalid : character.toNat < 0xd800 ∨ 0xdfff < character.toNat ∧ character.toNat < 0x110000 :=
    character.valid
  rw [characterUnits]
  split
  · next hsmall =>
    have hunit : (UInt16.ofNat character.toNat).toNat = character.toNat :=
      UInt16.toNat_ofNat_of_lt hsmall
    have hhigh : isHighSurrogate (.ofNat character.toNat) = false := by
      rw [Bool.eq_false_iff, ne_eq, isHighSurrogate_iff, hunit]
      omega
    have hlow : isLowSurrogate (.ofNat character.toNat) = false := by
      rw [Bool.eq_false_iff, ne_eq, isLowSurrogate_iff, hunit]
      omega
    rw [List.singleton_append, charactersOf_cons hhigh, characterOf, hhigh, hlow, Bool.or_false,
      if_neg Bool.false_ne_true, hunit, Char.ofNat_toNat]
  · next hlarge =>
    have hfirst : (UInt16.ofNat (0xd800 + (character.toNat - 0x10000) / 0x400)).toNat =
        0xd800 + (character.toNat - 0x10000) / 0x400 := UInt16.toNat_ofNat_of_lt (by
      change _ < 65536
      omega)
    have hsecond : (UInt16.ofNat (0xdc00 + (character.toNat - 0x10000) % 0x400)).toNat =
        0xdc00 + (character.toNat - 0x10000) % 0x400 := UInt16.toNat_ofNat_of_lt (by
      change _ < 65536
      omega)
    have hhigh : isHighSurrogate (.ofNat (0xd800 + (character.toNat - 0x10000) / 0x400)) =
        true := by
      rw [isHighSurrogate_iff, hfirst]
      omega
    have hlow : isLowSurrogate (.ofNat (0xdc00 + (character.toNat - 0x10000) % 0x400)) = true := by
      rw [isLowSurrogate_iff, hsecond]
      omega
    have hcode : 0x10000 + (0xd800 + (character.toNat - 0x10000) / 0x400 - 0xd800) * 0x400 +
        (0xdc00 + (character.toNat - 0x10000) % 0x400 - 0xdc00) = character.toNat := by omega
    rw [List.cons_append, List.cons_append, List.nil_append, charactersOf, hhigh, hlow,
      Bool.and_self, if_pos rfl, pairedCharacter, hfirst, hsecond, hcode, Char.ofNat_toNat]

theorem stringOf_utf16 (text : String) : stringOf (utf16 text) = text := by
  have hall : ∀ characters : List Char,
      charactersOf (characters.flatMap characterUnits) = characters := by
    intro characters
    induction characters with
    | nil => rfl
    | cons character characters ih =>
      rw [List.flatMap_cons, charactersOf_characterUnits, ih]
  rw [stringOf, utf16, hall, String.ofList_toList]

theorem utf16_injective : Function.Injective utf16 :=
  Function.LeftInverse.injective stringOf_utf16

theorem toNat_ofNat_of_isValidChar {code : ℕ} (hvalid : code.isValidChar) :
    (Char.ofNat code).toNat = code := by
  rw [Char.ofNat, dif_pos hvalid]
  rfl

/-- Units whose characters are all below U+FFFD are the units of their characters. -/
theorem flatMap_characterUnits_charactersOf {units : Units}
    (hsmall : ∀ character ∈ charactersOf units, character.toNat < 0xfffd) :
    (charactersOf units).flatMap characterUnits = units := by
  have hunit : ∀ unit : UInt16, (characterOf unit).toNat < 0xfffd →
      characterUnits (characterOf unit) = [unit] := by
    intro unit hunit
    have hplain : (isHighSurrogate unit || isLowSurrogate unit) = false := by
      by_contra hsurrogate
      rw [characterOf, if_pos (eq_true_of_ne_false hsurrogate)] at hunit
      exact absurd hunit (by decide)
    have hlt := unit.toNat_lt
    have hvalid : unit.toNat.isValidChar := by
      rw [Bool.or_eq_false_iff, Bool.eq_false_iff, Bool.eq_false_iff, ne_eq, ne_eq,
        isHighSurrogate_iff, isLowSurrogate_iff] at hplain
      rw [Nat.isValidChar]
      omega
    have hcode : (characterOf unit).toNat = unit.toNat := by
      rw [characterOf, hplain, if_neg Bool.false_ne_true]
      exact toNat_ofNat_of_isValidChar hvalid
    rw [characterUnits, hcode, if_pos (by omega), UInt16.ofNat_toNat]
  fun_induction charactersOf units with
  | case1 => rfl
  | case2 last =>
    rw [List.forall_mem_singleton] at hsmall
    rw [List.flatMap_singleton, hunit last hsmall]
  | case3 first second rest hpair ih =>
    rw [List.forall_mem_cons] at hsmall
    rw [Bool.and_eq_true, isHighSurrogate_iff, isLowSurrogate_iff] at hpair
    have hvalid : Nat.isValidChar (0x10000 + (first.toNat - 0xd800) * 0x400 +
        (second.toNat - 0xdc00)) := by
      rw [Nat.isValidChar]
      omega
    have hcode := toNat_ofNat_of_isValidChar hvalid
    rw [pairedCharacter, hcode] at hsmall
    omega
  | case4 first second rest hplain ih =>
    rw [List.forall_mem_cons] at hsmall
    rw [List.flatMap_cons, hunit first hsmall.1, ih hsmall.2]
    rfl

/-- A string of characters below 128 is read from its units alone. -/
theorem stringOf_eq_iff_of_ascii {units : Units} {text : String}
    (hascii : ∀ character ∈ text.toList, character.toNat < 128) :
    stringOf units = text ↔ units = utf16 text := by
  constructor
  · rintro rfl
    rw [stringOf, String.toList_ofList] at hascii
    rw [utf16, stringOf, String.toList_ofList, flatMap_characterUnits_charactersOf]
    exact fun character hmember ↦ (hascii character hmember).trans (by norm_num)
  · rintro rfl
    exact stringOf_utf16 text

/-- One field a name, and no name that is an array index. -/
def PlainNames (names : List String) : Prop :=
  names.Nodup ∧ ∀ name ∈ names, arrayIndex name = none

instance (names : List String) : Decidable (PlainNames names) :=
  inferInstanceAs (Decidable (names.Nodup ∧ ∀ name ∈ names, arrayIndex name = none))

/-- Values that hold no number, and whose objects have plain names. -/
inductive Textual : Json → Prop
  | null : Textual .null
  | boolean (value : Bool) : Textual (.boolean value)
  | string (value : String) : Textual (.string value)
  | array {elements : List Json} (helements : ∀ element ∈ elements, Textual element) :
      Textual (.array elements)
  | object {fields : List (String × Json)} (hnames : PlainNames (fields.map Prod.fst))
      (hfields : ∀ field ∈ fields, Textual field.2) : Textual (.object fields)

theorem enumerated_eq_self {fields : List (String × Json)}
    (hindices : ∀ name ∈ fields.map Prod.fst, arrayIndex name = none) :
    enumerated fields = fields := by
  have hnone : (fields.filter fun field ↦ (arrayIndex field.1).isSome) = [] := by
    rw [List.filter_eq_nil_iff]
    intro field hfield
    simp [hindices field.1 (List.mem_map_of_mem hfield)]
  have hall : (fields.filter fun field ↦ (arrayIndex field.1).isNone) = fields := by
    rw [List.filter_eq_self]
    intro field hfield
    simp [hindices field.1 (List.mem_map_of_mem hfield)]
  rw [enumerated, hnone, hall, List.mergeSort_nil, List.nil_append]

theorem foldl_defineMember_of_nodup {kept members : List (Units × Json)}
    (hnames : ((kept ++ members).map Prod.fst).Nodup) :
    members.foldl defineMember kept = kept ++ members := by
  induction members generalizing kept with
  | nil => rw [List.foldl_nil, List.append_nil]
  | cons member members ih =>
    have hnew : member.1 ∉ kept.map Prod.fst := by
      intro hold
      rw [List.map_append, List.nodup_append] at hnames
      exact hnames.2.2 _ hold _ (by simp) rfl
    have hsplit : kept ++ member :: members = kept ++ [member] ++ members := by simp
    rw [hsplit] at hnames ⊢
    rw [List.foldl_cons, defineMember, if_neg hnew, ih hnames]

theorem exists_elements {values : List Json}
    (hwritten : ∀ value ∈ values, ∃ tree, valueOf tree = value) :
    ∃ elements, elementValues elements = values := by
  induction values with
  | nil => exact ⟨[], rfl⟩
  | cons value values ih =>
    rw [List.forall_mem_cons] at hwritten
    obtain ⟨tree, htree⟩ := hwritten.1
    obtain ⟨elements, helements⟩ := ih hwritten.2
    refine ⟨tree :: elements, ?_⟩
    rw [elementValues, htree, helements]

/-- Each field of a value can be written, under the units of its name. -/
theorem exists_members {fields : List (String × Json)}
    (hwritten : ∀ field ∈ fields, ∃ tree, valueOf tree = field.2) :
    ∃ members, memberValues members = fields.map fun field ↦ (utf16 field.1, field.2) := by
  induction fields with
  | nil => exact ⟨[], rfl⟩
  | cons field fields ih =>
    rw [List.forall_mem_cons] at hwritten
    obtain ⟨tree, htree⟩ := hwritten.1
    obtain ⟨members, hmembers⟩ := ih hwritten.2
    refine ⟨(utf16 field.1, tree) :: members, ?_⟩
    rw [memberValues, htree, hmembers, List.map_cons]

theorem fieldsOf_of_textual {fields : List (String × Json)}
    (hnames : PlainNames (fields.map Prod.fst)) {members : List (Units × SyntaxTree)}
    (hmembers : memberValues members = fields.map fun field ↦ (utf16 field.1, field.2)) :
    fieldsOf members = fields := by
  have hnodup : (([] ++ memberValues members).map Prod.fst).Nodup := by
    have hunits : ((fields.map fun field ↦ (utf16 field.1, field.2)).map Prod.fst) =
        (fields.map Prod.fst).map utf16 := by
      rw [List.map_map, List.map_map]
      rfl
    rw [List.nil_append, hmembers, hunits]
    exact hnames.1.map utf16_injective
  have hfields : (fields.map fun field ↦ (stringOf (utf16 field.1), field.2)) = fields := by
    simp only [stringOf_utf16, Prod.mk.eta, List.map_id']
  rw [fieldsOf, keepLast, foldl_defineMember_of_nodup hnodup, List.nil_append, hmembers,
    List.map_map]
  change enumerated (fields.map fun field ↦ (stringOf (utf16 field.1), field.2)) = fields
  rw [hfields, enumerated_eq_self hnames.2]

/-- Every such value is the value of a tree. -/
theorem exists_tree {value : Json} (htextual : Textual value) : ∃ tree, valueOf tree = value := by
  induction htextual with
  | null => exact ⟨.null, rfl⟩
  | boolean value => exact ⟨.boolean value, rfl⟩
  | string value => exact ⟨.string (utf16 value), by rw [valueOf, stringOf_utf16]⟩
  | array helements ih =>
    obtain ⟨elements, hvalues⟩ := exists_elements ih
    exact ⟨.array elements, by rw [valueOf, hvalues]⟩
  | object hnames hfields ih =>
    obtain ⟨members, hmembers⟩ := exists_members ih
    exact ⟨.object members, by rw [valueOf_object, fieldsOf_of_textual hnames hmembers]⟩

theorem textual_hexTexts (texts : List (List UInt8)) : Textual (.array (texts.map hexText)) := by
  refine .array fun element helement ↦ ?_
  obtain ⟨bytes, -, rfl⟩ := List.mem_map.mp helement
  exact .string _

theorem textual_entryJson (step : SegmentStep) : Textual (entryJson step) := by
  have hnames : PlainNames ["leaf", "head"] := by decide
  refine .object hnames ?_
  simp [hexText, Textual.string]

theorem textual_chainJson (contents : Contents) : Textual contents.chainJson := by
  rw [Contents.chainJson]
  cases contents.segment with
  | none =>
    have hnames : PlainNames ["prev_head", "head", "genesis"] := by decide
    refine .object hnames ?_
    simp [hexText, Textual.string]
  | some steps =>
    have hnames : PlainNames ["prev_head", "head", "genesis", "segment"] := by decide
    have hsteps : Textual (.array (steps.map entryJson)) := by
      refine .array fun element helement ↦ ?_
      obtain ⟨step, -, rfl⟩ := List.mem_map.mp helement
      exact textual_entryJson step
    refine .object hnames ?_
    simp [hexText, Textual.string, hsteps]

/-- An assembled package holds no number. -/
theorem textual_package (contents : Contents) : Textual contents.package := by
  have hrecord : Textual contents.recordJson := by
    have hnames : PlainNames ["seq", "category", "effective_at", "change_identified_at",
      "payload_digest", "assessment_digest", "qp_key", "payload_uri", "flags"] := by decide
    refine .object hnames ?_
    simp [hexText, decimal, Textual.string]
  have hinclusion : Textual contents.inclusionJson := by
    have hnames : PlainNames ["epoch", "height", "slot_index", "siblings"] := by decide
    refine .object hnames ?_
    simp [decimal, Textual.string, textual_hexTexts]
  have hnames : PlainNames ["schema", "record", "preimage_borsh", "chain", "qp_signature",
    "inclusion"] := by decide
  refine .object hnames ?_
  simp [hexText, hrecord, textual_chainJson, hinclusion, Textual.string]

theorem jsonParse_write (tree : SyntaxTree) : jsonParse (write tree) = some (valueOf tree) := by
  rw [jsonParse, read_write, Option.map_some]

/-- A first member that the second replaces is not in the value. -/
theorem valueOf_smuggled (name : Units) (smuggled value : SyntaxTree)
    (members : List (Units × SyntaxTree)) :
    valueOf (.object ((name, smuggled) :: (name, value) :: members)) =
      valueOf (.object ((name, value) :: members)) := by
  have hreplaced : defineMember (defineMember [] (name, valueOf smuggled)) (name, valueOf value) =
      defineMember [] (name, valueOf value) := by
    simp [defineMember]
  rw [valueOf_object, valueOf_object, fieldsOf, fieldsOf, memberValues, memberValues, keepLast,
    keepLast, List.foldl_cons, List.foldl_cons, List.foldl_cons, hreplaced]

/-- The value of an object of the list is an object's. -/
theorem hasKind_of_check {tree : SyntaxTree} {listed : List (String × Shape)} {path : String}
    (hcheck : checkOnlyListedFields (valueOf tree) (.object listed) path = .ok ()) :
    HasKind tree (.object listed) := by
  cases tree with
  | object members => exact ⟨members, rfl⟩
  | array elements =>
    rw [valueOf_array, check_array_iff] at hcheck
    obtain ⟨inner, hinner, -⟩ := hcheck
    cases hinner
  | _ => cases (check_single_iff (by rfl)).mp hcheck

/-! ### Accepted texts -/

section Accepted

variable {syntaxError : Units → String} {stringify : Option Json → String} {hasher : Hasher}
  {verifier : Verifier}

/-- Whatever a replaced member carries, the report is the one without it. -/
theorem verifyDisclosureJson_smuggled (name : Units) (smuggled value : SyntaxTree)
    (members : List (Units × SyntaxTree)) (options : VerifyOptions) :
    verifyDisclosureJson syntaxError stringify hasher verifier
        (write (.object ((name, smuggled) :: (name, value) :: members))) options =
      verifyDisclosureJson syntaxError stringify hasher verifier
        (write (.object ((name, value) :: members))) options := by
  rw [verifyDisclosureJson, verifyDisclosureJson, jsonParse_write, jsonParse_write,
    valueOf_smuggled]

/-- An accepted text is a tree whose value the verifier accepts. -/
theorem exists_tree_of_accepted {text : Units} {options : VerifyOptions}
    {report : DisclosureReport}
    (hreport : verifyDisclosureJson syntaxError stringify hasher verifier text options = .ok report)
    (hok : report.ok = true) :
    ∃ tree, read text = some tree ∧
      verifyDisclosurePackage stringify hasher verifier (valueOf tree) options = .ok report := by
  rw [verifyDisclosureJson] at hreport
  split at hreport
  · obtain rfl := Except.ok.inj hreport
    cases hok
  · next parsed hparsed =>
    obtain ⟨tree, htree, rfl⟩ := Option.map_eq_some_iff.mp hparsed
    exact ⟨tree, htree, hreport⟩

/-- In an accepted text every member is at a path the closed list names, with the kind of value it
allows, exactly when the field walk would have accepted every member that a later one of its name
replaced. -/
theorem accepted_listed_iff {text : Units} {options : VerifyOptions} {report : DisclosureReport}
    (hreport : verifyDisclosureJson syntaxError stringify hasher verifier text options = .ok report)
    (hok : report.ok = true) :
    ∃ tree, read text = some tree ∧
      (Listed tree packageShape ↔ ReplacedWalked tree packageShape) := by
  obtain ⟨tree, htree, hverified⟩ := exists_tree_of_accepted hreport hok
  obtain ⟨evidence, haccepted, -⟩ := exists_evidence_of_ok hverified hok
  obtain ⟨-, -, hwalk, -⟩ := openPackage_eq_ok_iff.mp haccepted.opened
  refine ⟨tree, htree, fun hlisted ↦ ?_, fun hreplaced ↦ ?_⟩
  · exact ((walk_iff tree packageShape "").mpr ⟨hasKind_of_check hwalk, hlisted⟩).2
  · exact ((walk_iff tree packageShape "").mp ⟨hwalk, hreplaced⟩).2

end Accepted

/-! ### A package with a passenger -/

/-- The epoch key of the records' epoch, as the member of an object. -/
def passenger : SyntaxTree :=
  .object [(utf16 "epoch_key", .string (utf16 (toHex (Octets.zeros 32).octets)))]

/-- The text of the package of a second record, with its first member named. -/
theorem exists_text_pair :
    ∃ (contents : Contents) (schema : SyntaxTree) (members : List (Units × SyntaxTree))
      (options : VerifyOptions) (report : DisclosureReport),
      valueOf (.object ((utf16 "schema", schema) :: members)) = contents.package ∧
      verifyDisclosureJson (fun _ ↦ "") (fun _ ↦ "") residueHasher permissiveVerifier
        (write (.object ((utf16 "schema", schema) :: members))) options = .ok report ∧
      report.ok = true := by
  obtain ⟨built, before, applied, signature, proof, -, -, haccepted⟩ := exists_accepted_pair
  obtain ⟨report, hreport, hok, -⟩ := exists_report_of_accepted (haccepted 1 le_rfl)
  let contents := contentsOf residueHasher (Octets.zeros 32) RecordHistory.nextRecord
    applied.flags before.head (segmentOf residueHasher (Octets.zeros 32)
      [RecordHistory.firstRecord] RecordHistory.nextRecord (some 1)) signature proof
  obtain ⟨fields, hpackage⟩ : ∃ fields,
      contents.package = .object (("schema", .string disclosureSchema) :: fields) := ⟨_, rfl⟩
  have htextual := textual_package contents
  rw [hpackage] at htextual
  cases htextual with
  | object hnames hfields =>
    obtain ⟨members, hmembers⟩ :=
      exists_members fun field hfield ↦ exists_tree (hfields field hfield)
    have hvalue : valueOf (.object members) = contents.package := by
      rw [valueOf_object, fieldsOf_of_textual hnames hmembers, hpackage]
    cases members with
    | nil => cases hmembers
    | cons member members =>
      obtain ⟨name, schema⟩ := member
      obtain rfl : name = utf16 "schema" :=
        congrArg Prod.fst (List.cons.inj hmembers).1
      refine ⟨contents, schema, members, holderOptions built.root, report, hvalue, ?_, hok⟩
      rw [verifyDisclosureJson, jsonParse_write, hvalue]
      exact hreport

/-- The text of a package accepted for a record, to which a member was added that its
`schema` replaces, is accepted as well, and the added member carries the epoch key at a path the
list does not name. -/
theorem exists_accepted_not_listed :
    ∃ (contents : Contents) (schema : SyntaxTree) (members : List (Units × SyntaxTree))
      (options : VerifyOptions) (report : DisclosureReport) (text : Units) (tree : SyntaxTree),
      valueOf (.object ((utf16 "schema", schema) :: members)) = contents.package ∧
      tree = .object ((utf16 "schema", passenger) :: (utf16 "schema", schema) :: members) ∧
      text = write tree ∧
      verifyDisclosureJson (fun _ ↦ "") (fun _ ↦ "") residueHasher permissiveVerifier text
        options = .ok report ∧
      report.ok = true ∧ read text = some tree ∧
      MemberAt tree [.field (utf16 "schema"), .field (utf16 "epoch_key")]
        (.string (utf16 (toHex (Octets.zeros 32).octets))) ∧
      shapeAt packageShape [.field (utf16 "schema"), .field (utf16 "epoch_key")] = none ∧
      ¬ Listed tree packageShape := by
  obtain ⟨contents, schema, members, options, report, hvalue, hreport, hok⟩ :=
    exists_text_pair
  have hmember : MemberAt
      (.object ((utf16 "schema", passenger) :: (utf16 "schema", schema) :: members))
      [.field (utf16 "schema"), .field (utf16 "epoch_key")]
      (.string (utf16 (toHex (Octets.zeros 32).octets))) :=
    .field List.mem_cons_self (.here List.mem_cons_self)
  have hunlisted : shapeAt packageShape [.field (utf16 "schema"), .field (utf16 "epoch_key")] =
      none := by
    have hschema : fieldShape packageShape (stringOf (utf16 "schema")) = some .scalar := by
      rw [stringOf_utf16]
      rfl
    rw [shapeAt, hschema]
    rfl
  refine ⟨contents, schema, members, options, report, _, _, hvalue, rfl, rfl, ?_, hok,
    read_write _, hmember, hunlisted, fun hlisted ↦ ?_⟩
  · rw [verifyDisclosureJson_smuggled]
    exact hreport
  · obtain ⟨inner, hinner, -⟩ := hlisted _ _ hmember
    rw [hunlisted] at hinner
    cases hinner

/-- The condition at that text with an earlier schema in front, which the walk accepts. -/
theorem accepted_listed_iff_replaced :
    ∃ (tree : SyntaxTree) (options : VerifyOptions) (report : DisclosureReport),
      verifyDisclosureJson (fun _ ↦ "") (fun _ ↦ "") residueHasher permissiveVerifier (write tree)
        options = .ok report ∧
      report.ok = true ∧
      ReplacedAt tree [.field (utf16 "schema")] (.string (utf16 "draft")) ∧
      shapeAt packageShape [.field (utf16 "schema")] = some .scalar ∧
      Walked (valueOf (.string (utf16 "draft"))) .scalar ∧
      (Listed tree packageShape ↔ ReplacedWalked tree packageShape) := by
  obtain ⟨contents, schema, members, options, report, -, hreport, hok⟩ := exists_text_pair
  rw [← verifyDisclosureJson_smuggled (utf16 "schema") (.string (utf16 "draft"))] at hreport
  obtain ⟨tree, htree, hiff⟩ := accepted_listed_iff hreport hok
  rw [read_write, Option.some.injEq] at htree
  subst htree
  refine ⟨_, options, report, hreport, hok, ?_, ?_, fun path ↦ ?_, hiff⟩
  · exact @ReplacedAt.here [] _ _ _ List.mem_cons_self
  · rw [shapeAt, stringOf_utf16]
    rfl
  · exact (check_single_iff rfl).mpr rfl

end AnchoredLog.Port.PackageText
