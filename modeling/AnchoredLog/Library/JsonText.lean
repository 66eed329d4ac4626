import Mathlib.Algebra.Field.Rat
import Mathlib.Data.List.TakeWhile
import Mathlib.Data.Rat.Defs
import Mathlib.Tactic.Common

/-!
# JSON texts

A text is a list of 16-bit units, and `read` gives its syntax tree. The scanner cuts the text into
tokens: a word is a maximal run of letters, digits and number signs, and is a token when it is a
literal name or a number. A machine with a stack of the containers still open then reads the tokens
into a tree. The tree keeps every member of an object in the order of the text, two members of one
name included, and a number as it is spelled.

The grammar of values is `SyntaxTree.tokens`, the token sequence of a tree: `parse_eq_some_iff`
says that the machine accepts exactly these, each as its own tree. `read_write` says that every
tree is read back from the text `write` spells it as.
-/

set_option autoImplicit false
set_option relaxedAutoImplicit false

namespace AnchoredLog.Library.JsonText

/-! ### Units -/

/-- The 16-bit units of a text. -/
abbrev Units : Type :=
  List UInt16

/-- The unit of a character below 2¹⁶. -/
def unitOf (character : Char) : UInt16 :=
  .ofNat character.toNat

/-- The units of a text of such characters. -/
def unitsOf (text : String) : Units :=
  text.toList.map unitOf

def isDigit (unit : UInt16) : Bool :=
  unitOf '0' ≤ unit && unit ≤ unitOf '9'

/-- Space, tab, line feed and carriage return. -/
def isSpace (unit : UInt16) : Bool :=
  unit == unitOf ' ' || unit == 0x09 || unit == 0x0a || unit == 0x0d

/-- What the literal names and the numbers are written with. -/
def isWordUnit (unit : UInt16) : Bool :=
  isDigit unit || (unitOf 'a' ≤ unit && unit ≤ unitOf 'z') ||
    (unitOf 'A' ≤ unit && unit ≤ unitOf 'Z') || unit == unitOf '+' || unit == unitOf '-' ||
    unit == unitOf '.'

/-! ### Numbers -/

/-- The digits a text starts with, one at least, and what follows them. -/
def takeDigits (text : Units) : Option (Units × Units) :=
  if text.takeWhile isDigit = [] then none
  else some (text.takeWhile isDigit, text.dropWhile isDigit)

/-- The number the digits are the decimal digits of. -/
def digitsValue (digits : Units) : ℕ :=
  digits.foldl (fun value digit ↦ 10 * value + (digit.toNat - (unitOf '0').toNat)) 0

/-- The fraction digits a text starts with, after their point. -/
def takeFraction (text : Units) : Option (Units × Units) :=
  match text with
  | [] => some ([], [])
  | unit :: rest => if unit = unitOf '.' then takeDigits rest else some ([], unit :: rest)

/-- The sign of an exponent is optional. -/
def takeSign (text : Units) : Bool × Units :=
  match text with
  | [] => (false, [])
  | unit :: rest =>
    if unit = unitOf '-' then (true, rest)
    else if unit = unitOf '+' then (false, rest)
    else (false, unit :: rest)

/-- The exponent a text starts with, zero when it has none. -/
def takeExponent (text : Units) : Option (ℤ × Units) :=
  match text with
  | [] => some (0, [])
  | unit :: rest =>
    if unit = unitOf 'e' ∨ unit = unitOf 'E' then do
      let (digits, rest') ← takeDigits (takeSign rest).2
      let magnitude : ℤ := digitsValue digits
      return (if (takeSign rest).1 then -magnitude else magnitude, rest')
    else
      some (0, unit :: rest)

/-- The parts of a number. -/
structure NumberParts where
  negative : Bool
  whole : Units
  fraction : Units
  exponent : ℤ

/-- The parts a number is spelled from: no plus sign, no leading zero, and digits on both sides of
a point. -/
def numberParts (text : Units) : Option NumberParts := do
  let negative := text.head? == some (unitOf '-')
  let (whole, rest) ← takeDigits (if negative then text.tail else text)
  let (fraction, rest) ← takeFraction rest
  let (exponent, rest) ← takeExponent rest
  if (whole.length = 1 ∨ whole.head? ≠ some (unitOf '0')) ∧ rest = [] then
    return { negative := negative, whole := whole, fraction := fraction, exponent := exponent }
  else
    none

/-- The number the parts spell. -/
def NumberParts.value (parts : NumberParts) : ℚ :=
  let magnitude : ℚ := digitsValue (parts.whole ++ parts.fraction) *
    (10 : ℚ) ^ (parts.exponent - parts.fraction.length)
  if parts.negative then -magnitude else magnitude

/-- A number as a text spells it. -/
structure NumberLiteral where
  units : Units
  spelled : (numberParts units).isSome

/-- The number a literal spells. -/
def NumberLiteral.value (literal : NumberLiteral) : ℚ :=
  ((numberParts literal.units).get literal.spelled).value

/-! ### Strings -/

def quote : UInt16 :=
  unitOf '"'

def backslash : UInt16 :=
  unitOf '\\'

/-- What a unit after a backslash stands for, other than the start of four digits. -/
def shortEscape (unit : UInt16) : Option UInt16 :=
  if unit = quote ∨ unit = backslash ∨ unit = unitOf '/' then some unit
  else if unit = unitOf 'b' then some 0x08
  else if unit = unitOf 'f' then some 0x0c
  else if unit = unitOf 'n' then some 0x0a
  else if unit = unitOf 'r' then some 0x0d
  else if unit = unitOf 't' then some 0x09
  else none

/-- The value of a hexadecimal digit of either case. -/
def hexUnit (unit : UInt16) : Option ℕ :=
  if isDigit unit then some (unit.toNat - (unitOf '0').toNat)
  else if unitOf 'a' ≤ unit ∧ unit ≤ unitOf 'f' then some (unit.toNat - (unitOf 'a').toNat + 10)
  else if unitOf 'A' ≤ unit ∧ unit ≤ unitOf 'F' then some (unit.toNat - (unitOf 'A').toNat + 10)
  else none

/-- The unit four hexadecimal digits stand for. -/
def longEscape (first second third fourth : UInt16) : Option UInt16 := do
  let first ← hexUnit first
  let second ← hexUnit second
  let third ← hexUnit third
  let fourth ← hexUnit fourth
  return .ofNat (first * 4096 + second * 256 + third * 16 + fourth)

/-- The units of a string, from what stands between its quotes. A control unit must be escaped. -/
def unescape : Units → Option Units
  | [] => some []
  | unit :: rest =>
    if unit = backslash then
      match rest with
      | [] => none
      | escape :: rest =>
        if escape = unitOf 'u' then
          match rest with
          | first :: second :: third :: fourth :: rest => do
            let unit ← longEscape first second third fourth
            let units ← unescape rest
            return unit :: units
          | _ => none
        else do
          let unit ← shortEscape escape
          let units ← unescape rest
          return unit :: units
    else if unit < 0x20 then none
    else do
      let units ← unescape rest
      return unit :: units

/-! ### Tokens -/

inductive Token
  | openObject
  | closeObject
  | openArray
  | closeArray
  | colon
  | comma
  | null
  | boolean (value : Bool)
  | number (literal : NumberLiteral)
  | string (units : Units)

/-- The token of a unit that is one by itself. -/
def punctuator (unit : UInt16) : Option Token :=
  if unit = unitOf '\x7b' then some .openObject
  else if unit = unitOf '\x7d' then some .closeObject
  else if unit = unitOf '[' then some .openArray
  else if unit = unitOf ']' then some .closeArray
  else if unit = unitOf ':' then some .colon
  else if unit = unitOf ',' then some .comma
  else none

/-- The token of a word. -/
def wordToken (word : Units) : Option Token :=
  if word = unitsOf "null" then some .null
  else if word = unitsOf "true" then some (.boolean true)
  else if word = unitsOf "false" then some (.boolean false)
  else if hspelled : (numberParts word).isSome then some (.number ⟨word, hspelled⟩)
  else none

/-- Where the scanner is: between tokens, or in one whose units it has collected. -/
inductive Mode
  | between
  | word (collected : Units)
  | string (collected : Units)
  | escape (collected : Units)

/-- A unit outside every token. -/
def startToken (unit : UInt16) : Option (List Token × Mode) :=
  if isSpace unit then some ([], .between)
  else if unit = quote then some ([], .string [])
  else if isWordUnit unit then some ([], .word [unit])
  else (punctuator unit).map fun token ↦ ([token], .between)

/-- The tokens a unit completes, and the mode after it. -/
def scanStep : Mode → UInt16 → Option (List Token × Mode)
  | .between, unit => startToken unit
  | .word collected, unit =>
    if isWordUnit unit then some ([], .word (collected ++ [unit]))
    else do
      let token ← wordToken collected
      let (tokens, mode) ← startToken unit
      return (token :: tokens, mode)
  | .string collected, unit =>
    if unit = quote then do
      let units ← unescape collected
      return ([.string units], .between)
    else if unit = backslash then some ([], .escape (collected ++ [unit]))
    else some ([], .string (collected ++ [unit]))
  | .escape collected, unit => some ([], .string (collected ++ [unit]))

/-- The tokens of the text that is left. -/
def scan : Mode → Units → Option (List Token)
  | .between, [] => some []
  | .word collected, [] => do
    let token ← wordToken collected
    return [token]
  | .string _, [] => none
  | .escape _, [] => none
  | mode, unit :: rest => do
    let (tokens, next) ← scanStep mode unit
    let more ← scan next rest
    return tokens ++ more

/-! ### Trees -/

inductive SyntaxTree
  | null
  | boolean (value : Bool)
  | number (literal : NumberLiteral)
  | string (units : Units)
  | array (elements : List SyntaxTree)
  | object (members : List (Units × SyntaxTree))

/-- A container the machine has not seen the end of: what it has read of it, and for an object the
name of the member being read. -/
inductive Frame
  | elements (collected : List SyntaxTree)
  | members (collected : List (Units × SyntaxTree)) (name : Units)

/-- What the machine expects next, under the containers still open. -/
inductive State
  | value (stack : List Frame)
  | firstElement (stack : List Frame)
  | afterElement (collected : List SyntaxTree) (last : SyntaxTree) (stack : List Frame)
  | firstName (stack : List Frame)
  | nextName (collected : List (Units × SyntaxTree)) (stack : List Frame)
  | afterName (collected : List (Units × SyntaxTree)) (name : Units) (stack : List Frame)
  | afterMember (collected : List (Units × SyntaxTree)) (name : Units) (last : SyntaxTree)
      (stack : List Frame)
  | complete (tree : SyntaxTree)

/-- A value is complete. -/
def deliver (tree : SyntaxTree) : List Frame → State
  | [] => .complete tree
  | .elements collected :: stack => .afterElement collected tree stack
  | .members collected name :: stack => .afterMember collected name tree stack

/-- The first token of a value. -/
def startValue (stack : List Frame) : Token → Option State
  | .openObject => some (.firstName stack)
  | .openArray => some (.firstElement stack)
  | .null => some (deliver .null stack)
  | .boolean value => some (deliver (.boolean value) stack)
  | .number literal => some (deliver (.number literal) stack)
  | .string units => some (deliver (.string units) stack)
  | .closeObject => none
  | .closeArray => none
  | .colon => none
  | .comma => none

/-- One token. -/
def parseStep : State → Token → Option State
  | .value stack, token => startValue stack token
  | .firstElement stack, .closeArray => some (deliver (.array []) stack)
  | .firstElement stack, token => startValue (.elements [] :: stack) token
  | .afterElement collected last stack, .comma =>
    some (.value (.elements (collected ++ [last]) :: stack))
  | .afterElement collected last stack, .closeArray =>
    some (deliver (.array (collected ++ [last])) stack)
  | .firstName stack, .closeObject => some (deliver (.object []) stack)
  | .firstName stack, .string name => some (.afterName [] name stack)
  | .nextName collected stack, .string name => some (.afterName collected name stack)
  | .afterName collected name stack, .colon => some (.value (.members collected name :: stack))
  | .afterMember collected name last stack, .comma =>
    some (.nextName (collected ++ [(name, last)]) stack)
  | .afterMember collected name last stack, .closeObject =>
    some (deliver (.object (collected ++ [(name, last)])) stack)
  | _, _ => none

/-- The tree of a finished machine. -/
def State.tree : State → Option SyntaxTree
  | .complete tree => some tree
  | _ => none

/-- The tree of the tokens. -/
def parse (tokens : List Token) : Option SyntaxTree := do
  let state ← tokens.foldlM parseStep (.value [])
  state.tree

/-- The tree of a text. -/
def read (text : Units) : Option SyntaxTree := do
  let tokens ← scan .between text
  parse tokens

/-! ### The grammar -/

mutual

/-- The token sequence of a tree. -/
def SyntaxTree.tokens : SyntaxTree → List Token
  | .null => [.null]
  | .boolean value => [.boolean value]
  | .number literal => [.number literal]
  | .string units => [.string units]
  | .array elements => .openArray :: (elementTokens elements ++ [.closeArray])
  | .object members => .openObject :: (memberTokens members ++ [.closeObject])

/-- The elements of an array, between commas. -/
def elementTokens : List SyntaxTree → List Token
  | [] => []
  | [last] => last.tokens
  | first :: second :: rest => first.tokens ++ .comma :: elementTokens (second :: rest)

/-- The members of an object, between commas. -/
def memberTokens : List (Units × SyntaxTree) → List Token
  | [] => []
  | [(name, last)] => .string name :: .colon :: last.tokens
  | (name, first) :: second :: rest =>
    .string name :: .colon :: (first.tokens ++ .comma :: memberTokens (second :: rest))

end

/-- Elements with a comma after each. -/
def elementsBefore (elements : List SyntaxTree) : List Token :=
  elements.flatMap fun element ↦ element.tokens ++ [.comma]

/-- Members with a comma after each. -/
def membersBefore (members : List (Units × SyntaxTree)) : List Token :=
  members.flatMap fun member ↦ .string member.1 :: .colon :: (member.2.tokens ++ [.comma])

theorem elementTokens_append (elements : List SyntaxTree) (last : SyntaxTree) :
    elementTokens (elements ++ [last]) = elementsBefore elements ++ last.tokens := by
  induction elements with
  | nil => simp [elementTokens, elementsBefore]
  | cons first rest ih =>
    have hcons : elementTokens (first :: (rest ++ [last])) =
        first.tokens ++ .comma :: elementTokens (rest ++ [last]) := by
      cases rest <;> rfl
    rw [List.cons_append, hcons, ih]
    simp [elementsBefore]

theorem memberTokens_append (members : List (Units × SyntaxTree)) (name : Units)
    (last : SyntaxTree) : memberTokens (members ++ [(name, last)]) =
      membersBefore members ++ .string name :: .colon :: last.tokens := by
  induction members with
  | nil => simp [memberTokens, membersBefore]
  | cons first rest ih =>
    have hcons : memberTokens (first :: (rest ++ [(name, last)])) = .string first.1 :: .colon ::
        (first.2.tokens ++ .comma :: memberTokens (rest ++ [(name, last)])) := by
      cases rest <;> rfl
    rw [List.cons_append, hcons, ih]
    simp [membersBefore]

/-! ### What the machine accepts -/

/-- The tokens read since an open container began. -/
def Frame.tokens : Frame → List Token
  | .elements collected => .openArray :: elementsBefore collected
  | .members collected name =>
    .openObject :: (membersBefore collected ++ [.string name, .colon])

/-- The tokens read before the value the top container waits for. -/
def stackTokens (stack : List Frame) : List Token :=
  stack.reverse.flatMap Frame.tokens

@[simp] theorem stackTokens_cons (frame : Frame) (stack : List Frame) :
    stackTokens (frame :: stack) = stackTokens stack ++ frame.tokens := by
  simp [stackTokens]

/-- The tokens the machine has read. -/
def State.tokens : State → List Token
  | .value stack => stackTokens stack
  | .firstElement stack => stackTokens stack ++ [.openArray]
  | .afterElement collected last stack =>
    stackTokens stack ++ .openArray :: elementTokens (collected ++ [last])
  | .firstName stack => stackTokens stack ++ [.openObject]
  | .nextName collected stack => stackTokens stack ++ .openObject :: membersBefore collected
  | .afterName collected name stack =>
    stackTokens stack ++ .openObject :: (membersBefore collected ++ [.string name])
  | .afterMember collected name last stack =>
    stackTokens stack ++ .openObject :: memberTokens (collected ++ [(name, last)])
  | .complete tree => tree.tokens

theorem tokens_deliver (tree : SyntaxTree) (stack : List Frame) :
    (deliver tree stack).tokens = stackTokens stack ++ tree.tokens := by
  cases stack with
  | nil => rfl
  | cons frame stack =>
    cases frame with
    | elements collected =>
      simp [deliver, State.tokens, Frame.tokens, elementTokens_append]
    | members collected name =>
      simp [deliver, State.tokens, Frame.tokens, memberTokens_append]

theorem tokens_startValue {stack : List Frame} {token : Token} {next : State}
    (hstep : startValue stack token = some next) :
    next.tokens = stackTokens stack ++ [token] := by
  cases token with
  | openObject | openArray =>
    obtain rfl := Option.some.inj hstep
    rfl
  | null | boolean | number | string =>
    obtain rfl := Option.some.inj hstep
    rw [tokens_deliver]
    rfl
  | closeObject | closeArray | colon | comma => cases hstep

theorem elementsBefore_append (elements : List SyntaxTree) (last : SyntaxTree) :
    elementsBefore (elements ++ [last]) = elementsBefore elements ++ last.tokens ++ [.comma] := by
  simp [elementsBefore]

theorem membersBefore_append (members : List (Units × SyntaxTree)) (name : Units)
    (last : SyntaxTree) : membersBefore (members ++ [(name, last)]) =
      membersBefore members ++ .string name :: .colon :: last.tokens ++ [.comma] := by
  simp [membersBefore]

/-- A step adds its token to those the state stands for. -/
theorem tokens_parseStep {state next : State} {token : Token}
    (hstep : parseStep state token = some next) : next.tokens = state.tokens ++ [token] := by
  cases state with
  | value stack => exact tokens_startValue hstep
  | firstElement stack =>
    by_cases hclose : token = .closeArray
    · subst hclose
      obtain rfl := Option.some.inj hstep
      rw [tokens_deliver]
      simp [State.tokens, SyntaxTree.tokens, elementTokens]
    · have hstart : startValue (.elements [] :: stack) token = some next := by
        cases token <;> first | exact hstep | exact absurd rfl hclose
      rw [tokens_startValue hstart]
      simp [State.tokens, Frame.tokens, elementsBefore]
  | afterElement collected last stack =>
    cases token <;> simp only [parseStep, Option.some.injEq, reduceCtorEq] at hstep <;> subst hstep
    · rw [tokens_deliver]
      simp [State.tokens, SyntaxTree.tokens]
    · simp [State.tokens, Frame.tokens, elementsBefore_append, elementTokens_append]
  | firstName stack =>
    cases token <;> simp only [parseStep, Option.some.injEq, reduceCtorEq] at hstep <;> subst hstep
    · rw [tokens_deliver]
      simp [State.tokens, SyntaxTree.tokens, memberTokens]
    · simp [State.tokens, membersBefore]
  | nextName collected stack =>
    cases token <;> simp only [parseStep, Option.some.injEq, reduceCtorEq] at hstep
    subst hstep
    simp [State.tokens]
  | afterName collected name stack =>
    cases token <;> simp only [parseStep, Option.some.injEq, reduceCtorEq] at hstep
    subst hstep
    simp [State.tokens, Frame.tokens]
  | afterMember collected name last stack =>
    cases token <;> simp only [parseStep, Option.some.injEq, reduceCtorEq] at hstep <;> subst hstep
    · rw [tokens_deliver]
      simp [State.tokens, SyntaxTree.tokens]
    · simp [State.tokens, membersBefore_append, memberTokens_append]
  | complete tree => cases token <;> simp [parseStep] at hstep

theorem tokens_run {state final : State} {tokens : List Token}
    (hrun : tokens.foldlM parseStep state = some final) :
    final.tokens = state.tokens ++ tokens := by
  induction tokens generalizing state with
  | nil =>
    obtain rfl := Option.some.inj hrun
    rw [List.append_nil]
  | cons token tokens ih =>
    obtain ⟨next, hstep, hrest⟩ := Option.bind_eq_some_iff.mp hrun
    rw [ih hrest, tokens_parseStep hstep, List.append_assoc, List.singleton_append]

/-- No value starts with the end of an array. -/
theorem parseStep_firstElement {token : Token} (htoken : token ≠ .closeArray)
    (stack : List Frame) :
    parseStep (.firstElement stack) token = parseStep (.value (.elements [] :: stack)) token := by
  cases token with
  | closeArray => exact absurd rfl htoken
  | _ => rfl

theorem exists_elementTokens_eq_cons (first : SyntaxTree) (rest : List SyntaxTree) :
    ∃ token tokens, elementTokens (first :: rest) = token :: tokens ∧ token ≠ .closeArray := by
  have hfirst : ∃ token tokens, first.tokens = token :: tokens ∧ token ≠ .closeArray := by
    cases first <;> simp [SyntaxTree.tokens]
  obtain ⟨token, tokens, htokens, htoken⟩ := hfirst
  cases rest with
  | nil => exact ⟨token, tokens, htokens, htoken⟩
  | cons second rest =>
    rw [elementTokens, htokens]
    exact ⟨token, _, rfl, htoken⟩

/-- What holds of a container when it holds of all it contains holds of every tree. -/
@[elab_as_elim]
theorem SyntaxTree.inductionOn {motive : SyntaxTree → Prop} (tree : SyntaxTree)
    (null : motive .null) (boolean : ∀ value, motive (.boolean value))
    (number : ∀ literal, motive (.number literal)) (string : ∀ units, motive (.string units))
    (array : ∀ elements, (∀ element ∈ elements, motive element) → motive (.array elements))
    (object : ∀ members, (∀ member ∈ members, motive member.2) → motive (.object members)) :
    motive tree := by
  induction hsize : sizeOf tree using Nat.strongRecOn generalizing tree with
  | ind size ih =>
    subst hsize
    cases tree with
    | null => exact null
    | boolean value => exact boolean value
    | number literal => exact number literal
    | string units => exact string units
    | array elements =>
      refine array elements fun element helement ↦ ih _ ?_ element rfl
      have hsmaller := List.sizeOf_lt_of_mem helement
      rw [SyntaxTree.array.sizeOf_spec]
      omega
    | object members =>
      refine object members fun member hmember ↦ ih _ ?_ member.2 rfl
      have hsmaller := List.sizeOf_lt_of_mem hmember
      have hpair : sizeOf member = 1 + sizeOf member.1 + sizeOf member.2 := rfl
      rw [SyntaxTree.object.sizeOf_spec]
      omega

/-- The tokens of a tree take the machine from waiting for a value to having been given it. -/
def Delivers (tree : SyntaxTree) : Prop :=
  ∀ stack, tree.tokens.foldlM parseStep (.value stack) = some (deliver tree stack)

theorem run_elements {first : SyntaxTree} {rest : List SyntaxTree}
    (hall : ∀ element ∈ first :: rest, Delivers element) (collected : List SyntaxTree)
    (stack : List Frame) :
    (elementTokens (first :: rest) ++ [Token.closeArray]).foldlM parseStep
      (.value (.elements collected :: stack)) =
        some (deliver (.array (collected ++ first :: rest)) stack) := by
  induction rest generalizing first collected with
  | nil =>
    rw [elementTokens, List.foldlM_append, hall first List.mem_cons_self]
    rfl
  | cons second rest ih =>
    rw [elementTokens, List.append_assoc, List.foldlM_append, hall first List.mem_cons_self]
    refine (ih (fun element helement ↦ hall element (List.mem_cons_of_mem _ helement))
      (collected ++ [first])).trans ?_
    rw [List.append_assoc, List.singleton_append]

theorem run_members {first : Units × SyntaxTree} {rest : List (Units × SyntaxTree)}
    (hall : ∀ member ∈ first :: rest, Delivers member.2) (collected : List (Units × SyntaxTree))
    (stack : List Frame) :
    (memberTokens (first :: rest) ++ [Token.closeObject]).foldlM parseStep
      (.nextName collected stack) =
        some (deliver (.object (collected ++ first :: rest)) stack) := by
  induction rest generalizing first collected with
  | nil =>
    obtain ⟨name, last⟩ := first
    have hlast := hall _ List.mem_cons_self (.members collected name :: stack)
    change (last.tokens ++ [Token.closeObject]).foldlM parseStep
      (.value (.members collected name :: stack)) = _
    rw [List.foldlM_append, hlast]
    rfl
  | cons second rest ih =>
    obtain ⟨name, last⟩ := first
    have hlast := hall _ List.mem_cons_self (.members collected name :: stack)
    change (last.tokens ++ Token.comma :: memberTokens (second :: rest) ++
      [Token.closeObject]).foldlM parseStep (.value (.members collected name :: stack)) = _
    rw [List.append_assoc, List.foldlM_append, hlast]
    refine (ih (fun member hmember ↦ hall member (List.mem_cons_of_mem _ hmember))
      (collected ++ [(name, last)])).trans ?_
    rw [List.append_assoc, List.singleton_append]

theorem delivers (tree : SyntaxTree) : Delivers tree := by
  induction tree using SyntaxTree.inductionOn with
  | null => exact fun _ ↦ rfl
  | boolean value => exact fun _ ↦ rfl
  | number literal => exact fun _ ↦ rfl
  | string units => exact fun _ ↦ rfl
  | array elements ih =>
    intro stack
    cases elements with
    | nil => rfl
    | cons first rest =>
      have hrun := run_elements ih [] stack
      obtain ⟨token, tokens, htokens, htoken⟩ := exists_elementTokens_eq_cons first rest
      rw [htokens] at hrun
      rw [SyntaxTree.tokens, htokens]
      change Option.bind (parseStep (.firstElement stack) token) _ = _
      rw [parseStep_firstElement htoken]
      exact hrun
  | object members ih =>
    intro stack
    cases members with
    | nil => rfl
    | cons first rest =>
      have hrun := run_members ih [] stack
      cases rest with
      | nil => exact hrun
      | cons second rest => exact hrun

/-- The machine accepts the token sequences of trees, each as its own tree, and no others. -/
theorem parse_eq_some_iff {tokens : List Token} {tree : SyntaxTree} :
    parse tokens = some tree ↔ tokens = tree.tokens := by
  constructor
  · intro hparse
    obtain ⟨final, hrun, hfinal⟩ := Option.bind_eq_some_iff.mp hparse
    have htokens := tokens_run hrun
    cases final with
    | complete found =>
      obtain rfl := Option.some.inj hfinal
      exact htokens.symm
    | _ => cases hfinal
  · rintro rfl
    rw [parse, delivers]
    rfl

/-! ### Writing a tree -/

/-- The hexadecimal digit of a value below sixteen. -/
def hexDigit (value : ℕ) : UInt16 :=
  if value < 10 then .ofNat ((unitOf '0').toNat + value)
  else .ofNat ((unitOf 'a').toNat + (value - 10))

/-- A unit between quotes. -/
def escapeUnit (unit : UInt16) : Units :=
  if 0x20 ≤ unit ∧ unit ≠ quote ∧ unit ≠ backslash then [unit]
  else [backslash, unitOf 'u', hexDigit (unit.toNat / 4096), hexDigit (unit.toNat / 256 % 16),
    hexDigit (unit.toNat / 16 % 16), hexDigit (unit.toNat % 16)]

/-- A spelling of a token. -/
def Token.units : Token → Units
  | .openObject => [unitOf '\x7b']
  | .closeObject => [unitOf '\x7d']
  | .openArray => [unitOf '[']
  | .closeArray => [unitOf ']']
  | .colon => [unitOf ':']
  | .comma => [unitOf ',']
  | .null => unitsOf "null"
  | .boolean true => unitsOf "true"
  | .boolean false => unitsOf "false"
  | .number literal => literal.units
  | .string units => quote :: (units.flatMap escapeUnit ++ [quote])

/-- A text of a tree, with a space after every token. -/
def write (tree : SyntaxTree) : Units :=
  tree.tokens.flatMap fun token ↦ token.units ++ [unitOf ' ']

/-! ### Reading what was written -/

theorem hexUnit_hexDigit {value : ℕ} (hvalue : value < 16) :
    hexUnit (hexDigit value) = some value := by
  revert value
  decide

theorem hexDigit_ne {value : ℕ} (hvalue : value < 16) :
    hexDigit value ≠ quote ∧ hexDigit value ≠ backslash := by
  revert value
  decide

theorem longEscape_hexDigit (unit : UInt16) :
    longEscape (hexDigit (unit.toNat / 4096)) (hexDigit (unit.toNat / 256 % 16))
      (hexDigit (unit.toNat / 16 % 16)) (hexDigit (unit.toNat % 16)) = some unit := by
  have hunit := unit.toNat_lt
  have hsplit : unit.toNat / 4096 * 4096 + unit.toNat / 256 % 16 * 256 +
      unit.toNat / 16 % 16 * 16 + unit.toNat % 16 = unit.toNat := by omega
  rw [longEscape, hexUnit_hexDigit (by omega), hexUnit_hexDigit (by omega),
    hexUnit_hexDigit (by omega), hexUnit_hexDigit (by omega)]
  change some (UInt16.ofNat _) = some unit
  rw [hsplit, UInt16.ofNat_toNat]

theorem unescape_escapeUnit (unit : UInt16) (rest : Units) :
    unescape (escapeUnit unit ++ rest) = (unescape rest).map (unit :: ·) := by
  rw [escapeUnit]
  split
  · next hplain =>
    rw [List.singleton_append, unescape.eq_def]
    simp only [if_neg hplain.2.2, if_neg (UInt16.not_lt.mpr hplain.1)]
    cases unescape rest <;> rfl
  · simp only [List.cons_append, List.nil_append]
    rw [unescape.eq_def]
    simp only [if_true, longEscape_hexDigit]
    cases unescape rest <;> rfl

theorem unescape_escape (units : Units) : unescape (units.flatMap escapeUnit) = some units := by
  induction units with
  | nil => rfl
  | cons unit units ih =>
    rw [List.flatMap_cons, unescape_escapeUnit, ih]
    rfl

theorem scan_cons {mode next : Mode} {unit : UInt16} {tokens : List Token}
    (hstep : scanStep mode unit = some (tokens, next)) (rest : Units) :
    scan mode (unit :: rest) = (scan next rest).map (tokens ++ ·) := by
  have hscan : scan mode (unit :: rest) = (scanStep mode unit).bind fun found ↦
      (scan found.2 rest).bind fun more ↦ some (found.1 ++ more) := by
    cases mode <;> rw [scan] <;> rfl
  rw [hscan, hstep, Option.bind_some]
  cases scan next rest <;> rfl

theorem scan_cons_nil {mode next : Mode} {unit : UInt16}
    (hstep : scanStep mode unit = some ([], next)) (rest : Units) :
    scan mode (unit :: rest) = scan next rest := by
  rw [scan_cons hstep]
  simp

/-- A unit that is neither a quote nor a backslash is part of the string. -/
theorem scanStep_string {unit : UInt16} (hquote : unit ≠ quote) (hbackslash : unit ≠ backslash)
    (collected : Units) :
    scanStep (.string collected) unit = some ([], .string (collected ++ [unit])) := by
  rw [scanStep, if_neg hquote, if_neg hbackslash]

theorem scan_escapeUnit (unit : UInt16) (collected rest : Units) :
    scan (.string collected) (escapeUnit unit ++ rest) =
      scan (.string (collected ++ escapeUnit unit)) rest := by
  have hunit := unit.toNat_lt
  have hdigit : ∀ {value : ℕ}, value < 16 → ∀ collected,
      scanStep (.string collected) (hexDigit value) =
        some ([], .string (collected ++ [hexDigit value])) :=
    fun hvalue collected ↦ scanStep_string (hexDigit_ne hvalue).1 (hexDigit_ne hvalue).2 collected
  rw [escapeUnit]
  split
  · next hplain => exact scan_cons_nil (scanStep_string hplain.2.1 hplain.2.2 collected) rest
  · simp only [List.cons_append, List.nil_append]
    have hstart : scanStep (.string collected) backslash =
        some ([], .escape (collected ++ [backslash])) := rfl
    have hescape : scanStep (.escape (collected ++ [backslash])) (unitOf 'u') =
        some ([], .string (collected ++ [backslash] ++ [unitOf 'u'])) := rfl
    rw [scan_cons_nil hstart, scan_cons_nil hescape,
      scan_cons_nil (hdigit (by omega) _), scan_cons_nil (hdigit (by omega) _),
      scan_cons_nil (hdigit (by omega) _), scan_cons_nil (hdigit (by omega) _)]
    simp only [List.append_assoc, List.cons_append, List.nil_append]

theorem scan_escape (units collected rest : Units) :
    scan (.string collected) (units.flatMap escapeUnit ++ rest) =
      scan (.string (collected ++ units.flatMap escapeUnit)) rest := by
  induction units generalizing collected with
  | nil => rw [List.flatMap_nil, List.nil_append, List.append_nil]
  | cons unit units ih =>
    rw [List.flatMap_cons, List.append_assoc, scan_escapeUnit, ih, List.append_assoc]

/-- What a word is written with. -/
def IsWord (units : Units) : Prop :=
  units ≠ [] ∧ ∀ unit ∈ units, isWordUnit unit = true

instance (units : Units) : Decidable (IsWord units) :=
  decidable_of_iff (units ≠ [] ∧ units.all isWordUnit = true)
    (and_congr_right fun _ ↦ List.all_eq_true)

theorem scan_word {word : Units} (hword : ∀ unit ∈ word, isWordUnit unit = true)
    (collected rest : Units) :
    scan (.word collected) (word ++ rest) = scan (.word (collected ++ word)) rest := by
  induction word generalizing collected with
  | nil => rw [List.nil_append, List.append_nil]
  | cons unit word ih =>
    rw [List.forall_mem_cons] at hword
    have hstep : scanStep (.word collected) unit = some ([], .word (collected ++ [unit])) :=
      if_pos hword.1
    rw [List.cons_append, scan_cons_nil hstep, ih hword.2, List.append_assoc,
      List.singleton_append]

theorem not_space_of_isWordUnit {unit : UInt16} (hword : isWordUnit unit = true) :
    isSpace unit = false ∧ unit ≠ quote := by
  constructor
  · rw [Bool.eq_false_iff]
    intro hspace
    simp only [isSpace, Bool.or_eq_true, beq_iff_eq] at hspace
    rcases hspace with ((rfl | rfl) | rfl) | rfl <;> exact absurd hword (by decide)
  · rintro rfl
    exact absurd hword (by decide)

theorem scan_wordToken {word : Units} {token : Token} (hword : IsWord word)
    (htoken : wordToken word = some token) (rest : Units) :
    scan .between (word ++ unitOf ' ' :: rest) = (scan .between rest).map (token :: ·) := by
  obtain ⟨hnonempty, hunits⟩ := hword
  cases word with
  | nil => exact absurd rfl hnonempty
  | cons unit word =>
    rw [List.forall_mem_cons] at hunits
    obtain ⟨hspace, hquote⟩ := not_space_of_isWordUnit hunits.1
    have hstart : scanStep .between unit = some ([], .word [unit]) := by
      rw [scanStep, startToken, hspace, if_neg Bool.false_ne_true, if_neg hquote, if_pos hunits.1]
    have hend : scanStep (.word (unit :: word)) (unitOf ' ') = some ([token], .between) := by
      rw [scanStep, if_neg (by decide), htoken]
      rfl
    rw [List.cons_append, scan_cons_nil hstart, scan_word hunits.2, List.singleton_append,
      scan_cons hend]
    rfl

/-! ### A number is a word -/

theorem isWordUnit_of_isDigit {unit : UInt16} (hdigit : isDigit unit = true) :
    isWordUnit unit = true := by
  rw [isWordUnit, hdigit]
  rfl

theorem isWord_takeDigits {text digits rest : Units} (htake : takeDigits text = some (digits, rest))
    (hrest : ∀ unit ∈ rest, isWordUnit unit = true) : IsWord text := by
  rw [takeDigits] at htake
  split at htake
  · cases htake
  · next hdigits =>
    obtain ⟨rfl, rfl⟩ := Prod.mk.inj (Option.some.inj htake)
    refine ⟨fun hempty ↦ hdigits (by rw [hempty]; rfl), fun unit hunit ↦ ?_⟩
    rw [← List.takeWhile_append_dropWhile (p := isDigit) (l := text), List.mem_append] at hunit
    rcases hunit with hunit | hunit
    · exact isWordUnit_of_isDigit (List.mem_takeWhile_imp hunit)
    · exact hrest unit hunit

theorem word_takeFraction {text fraction rest : Units}
    (htake : takeFraction text = some (fraction, rest))
    (hrest : ∀ unit ∈ rest, isWordUnit unit = true) : ∀ unit ∈ text, isWordUnit unit = true := by
  cases text with
  | nil => simp
  | cons unit text =>
    rw [takeFraction] at htake
    split at htake
    · next hpoint =>
      subst hpoint
      exact List.forall_mem_cons.mpr ⟨by decide, (isWord_takeDigits htake hrest).2⟩
    · obtain ⟨-, rfl⟩ := Prod.mk.inj (Option.some.inj htake)
      exact hrest

theorem word_takeSign {text : Units} (hrest : ∀ unit ∈ (takeSign text).2, isWordUnit unit = true) :
    ∀ unit ∈ text, isWordUnit unit = true := by
  cases text with
  | nil => simp
  | cons unit text =>
    rw [takeSign] at hrest
    split at hrest
    · next hsign =>
      subst hsign
      exact List.forall_mem_cons.mpr ⟨by decide, hrest⟩
    · split at hrest
      · next hsign =>
        subst hsign
        exact List.forall_mem_cons.mpr ⟨by decide, hrest⟩
      · exact hrest

theorem word_takeExponent {text rest : Units} {exponent : ℤ}
    (htake : takeExponent text = some (exponent, rest))
    (hrest : ∀ unit ∈ rest, isWordUnit unit = true) : ∀ unit ∈ text, isWordUnit unit = true := by
  cases text with
  | nil => simp
  | cons unit text =>
    rw [takeExponent] at htake
    split at htake
    · next hmark =>
      obtain ⟨⟨digits, after⟩, hdigits, hfound⟩ := Option.bind_eq_some_iff.mp htake
      obtain ⟨-, rfl⟩ := Prod.mk.inj (Option.some.inj hfound)
      refine List.forall_mem_cons.mpr ⟨?_, word_takeSign (isWord_takeDigits hdigits hrest).2⟩
      rcases hmark with rfl | rfl <;> decide
    · obtain ⟨-, rfl⟩ := Prod.mk.inj (Option.some.inj htake)
      exact hrest

theorem isWord_of_numberParts {text : Units} (hspelled : (numberParts text).isSome) :
    IsWord text := by
  obtain ⟨parts, hparts⟩ := Option.isSome_iff_exists.mp hspelled
  obtain ⟨⟨whole, afterWhole⟩, hwhole, hparts⟩ := Option.bind_eq_some_iff.mp hparts
  obtain ⟨⟨fraction, afterFraction⟩, hfraction, hparts⟩ := Option.bind_eq_some_iff.mp hparts
  obtain ⟨⟨exponent, rest⟩, hexponent, hparts⟩ := Option.bind_eq_some_iff.mp hparts
  dsimp only at hparts
  split at hparts
  · next hshape =>
    have hrest : ∀ unit ∈ rest, isWordUnit unit = true := by
      rw [hshape.2]
      simp
    have hbody := isWord_takeDigits hwhole
      (word_takeFraction hfraction (word_takeExponent hexponent hrest))
    split at hbody
    · next hminus =>
      cases text with
      | nil => cases hminus
      | cons unit text =>
        obtain rfl := Option.some.inj (beq_iff_eq.mp hminus)
        exact ⟨List.cons_ne_nil _ _, List.forall_mem_cons.mpr ⟨by decide, hbody.2⟩⟩
    · exact hbody
  · cases hparts

theorem wordToken_number (literal : NumberLiteral) :
    wordToken literal.units = some (.number literal) := by
  have hspelled := literal.spelled
  have hname : ∀ name : Units, numberParts name = none → literal.units ≠ name := by
    rintro name hnone heq
    rw [heq, hnone] at hspelled
    cases hspelled
  rw [wordToken, if_neg (hname _ (by decide)), if_neg (hname _ (by decide)),
    if_neg (hname _ (by decide)), dif_pos hspelled]

/-! ### The round trip -/

/-- A token followed by a space is read back. -/
theorem scan_token (token : Token) (rest : Units) :
    scan .between (token.units ++ unitOf ' ' :: rest) = (scan .between rest).map (token :: ·) := by
  have hspace : scan .between (unitOf ' ' :: rest) = scan .between rest := scan_cons_nil rfl rest
  have hsingle : ∀ unit, scanStep .between unit = some ([token], .between) →
      scan .between ([unit] ++ unitOf ' ' :: rest) = (scan .between rest).map (token :: ·) := by
    intro unit hstep
    rw [List.singleton_append, scan_cons hstep, hspace]
    rfl
  cases token with
  | openObject | closeObject | openArray | closeArray | colon | comma => exact hsingle _ rfl
  | null => exact scan_wordToken (by decide) rfl rest
  | boolean value => cases value <;> exact scan_wordToken (by decide) rfl rest
  | number literal =>
    exact scan_wordToken (isWord_of_numberParts literal.spelled) (wordToken_number literal) rest
  | string units =>
    have hend : scanStep (.string (units.flatMap escapeUnit)) quote =
        some ([.string units], .between) := by
      rw [scanStep, if_pos rfl, unescape_escape]
      rfl
    have hstart : scanStep .between quote = some ([], .string []) := rfl
    rw [Token.units, List.cons_append, scan_cons_nil hstart, List.append_assoc, scan_escape,
      List.nil_append, List.singleton_append, scan_cons hend, hspace]
    rfl

/-- Every tree is the tree of the text it is written as. -/
theorem read_write (tree : SyntaxTree) : read (write tree) = some tree := by
  have hscan : ∀ tokens : List Token,
      scan .between (tokens.flatMap fun token ↦ token.units ++ [unitOf ' ']) = some tokens := by
    intro tokens
    induction tokens with
    | nil => rfl
    | cons token tokens ih =>
      rw [List.flatMap_cons, List.append_assoc, List.singleton_append, scan_token, ih]
      rfl
  rw [read, write, hscan]
  exact parse_eq_some_iff.mpr rfl

end AnchoredLog.Library.JsonText
