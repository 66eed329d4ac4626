import Mathlib.Algebra.Order.Ring.Nat
import Mathlib.Data.List.Forall2
import Mathlib.Tactic.Common
import Mathlib.Tactic.NormNum

/-!
# Fallible computations, mutable state and checked arithmetic

A fallible function returns `Except`, and its early exits are `require` and `okOr`. Code that
mutates its receiver is a `Mutation`: the error transformer over the state monad, in that order,
so that a computation that fails still returns the state it had reached. `perform` runs one from
a state, and the `perform_…` lemmas say what each primitive does to the outcome and to the state.
`Succeeds` describes a successful run by its value and final state, and the `succeeds_…` lemmas
take such a description backwards through a computation.

The checked operations on unsigned 64-bit integers return nothing where the mathematical result
is out of range; `checkedAdd_eq_some_iff` and `checkedSub_eq_some_iff` are their specifications.
The checked shifts take the width of their operand, and the operand itself is a natural number;
`fits` is the range check of a sum or a product at any width.
-/

set_option autoImplicit false
set_option relaxedAutoImplicit false

namespace AnchoredLog.Library.Fallible

variable {Error State Value Output : Type}

/-! ### Early exits -/

/-- The value, or the error when there is none. -/
def okOr (value : Option Value) (error : Error) : Except Error Value :=
  match value with
  | some value => .ok value
  | none => .error error

/-- Nothing when the condition holds, the error when it does not. -/
def require (condition : Prop) [Decidable condition] (error : Error) : Except Error Unit :=
  if condition then .ok () else .error error

@[simp] theorem okOr_some (value : Value) (error : Error) : okOr (some value) error = .ok value :=
  rfl

@[simp] theorem okOr_none (error : Error) :
    okOr (none : Option Value) error = .error error :=
  rfl

@[simp] theorem okOr_eq_ok_iff {value : Option Value} {error : Error} {result : Value} :
    okOr value error = .ok result ↔ value = some result := by
  cases value <;> simp [okOr]

theorem eq_of_okOr_eq_error {value : Option Value} {error failure : Error}
    (hfailed : okOr value error = .error failure) : failure = error := by
  cases value with
  | none => exact (Except.error.inj hfailed).symm
  | some found => cases hfailed

theorem require_of_true {condition : Prop} [Decidable condition] {error : Error}
    (hcondition : condition) : require condition error = .ok () :=
  if_pos hcondition

theorem require_of_false {condition : Prop} [Decidable condition] {error : Error}
    (hcondition : ¬ condition) : require condition error = .error error :=
  if_neg hcondition

@[simp] theorem require_eq_ok_iff {condition : Prop} [Decidable condition] {error : Error}
    {result : Unit} : require condition error = .ok result ↔ condition := by
  by_cases hcondition : condition <;> simp [require, hcondition]

theorem require_eq_error_iff {condition : Prop} [Decidable condition] {error failure : Error} :
    require condition error = .error failure ↔ ¬ condition ∧ error = failure := by
  by_cases hcondition : condition <;> simp [require, hcondition]

@[simp] theorem bind_ok (value : Value) (next : Value → Except Error Output) :
    (Except.ok value >>= next) = next value :=
  rfl

@[simp] theorem bind_error (error : Error) (next : Value → Except Error Output) :
    (Except.error error >>= next) = .error error :=
  rfl

@[simp] theorem pure_eq_ok (value : Value) : (pure value : Except Error Value) = .ok value :=
  rfl

@[simp] theorem throw_eq_error (error : Error) :
    (throw error : Except Error Value) = .error error :=
  rfl

/-- A sequence succeeds exactly when its first part does and the rest succeeds on its value. -/
theorem bind_eq_ok_iff {first : Except Error Value} {next : Value → Except Error Output}
    {result : Output} :
    (first >>= next) = .ok result ↔ ∃ value, first = .ok value ∧ next value = .ok result := by
  cases first <;> simp

theorem bind_unit_eq_ok_iff {first : Except Error Unit} {next : Unit → Except Error Output}
    {result : Output} :
    (first >>= next) = .ok result ↔ first = .ok () ∧ next () = .ok result := by
  cases first <;> simp

theorem okOr_bind_eq_ok_iff {value : Option Value} {error : Error}
    {next : Value → Except Error Output} {result : Output} :
    (okOr value error >>= next) = .ok result ↔
      ∃ found, value = some found ∧ next found = .ok result := by
  simp [bind_eq_ok_iff]

theorem mapError_eq_ok_iff {Failure : Type} {first : Except Error Value} {rename : Error → Failure}
    {value : Value} : first.mapError rename = .ok value ↔ first = .ok value := by
  cases first <;> simp [Except.mapError]

theorem map_eq_ok_iff {change : Value → Output} {first : Except Error Value} {result : Output} :
    first.map change = .ok result ↔ ∃ value, first = .ok value ∧ change value = result := by
  cases first <;> simp [Except.map]

/-- A sequence does not fail with an error that none of its parts fails with. -/
theorem bind_ne_error {first : Except Error Value} {next : Value → Except Error Output}
    {error : Error} (hfirst : first ≠ .error error)
    (hnext : ∀ value, first = .ok value → next value ≠ .error error) :
    (first >>= next) ≠ .error error := by
  cases first with
  | error other =>
    intro hsame
    exact hfirst (congrArg Except.error (Except.error.inj hsame))
  | ok value => exact hnext value rfl

theorem require_ne_error {condition : Prop} [Decidable condition] {error failure : Error}
    (hdifferent : condition ∨ error ≠ failure) : require condition error ≠ .error failure := by
  intro hfails
  obtain ⟨hfalse, hsame⟩ := require_eq_error_iff.mp hfails
  exact hdifferent.elim hfalse fun hne ↦ hne hsame

theorem okOr_ne_error {value : Option Value} {error failure : Error}
    (hdifferent : error ≠ failure) :
    okOr value error ≠ .error failure := by
  cases value with
  | some value => simp
  | none => simpa using hdifferent

/-- A loop whose every step succeeds and keeps an invariant succeeds and keeps it. -/
theorem exists_foldlM_eq_ok {Event : Type} {Invariant : State → Prop}
    {step : State → Event → Except Error State}
    (hstep : ∀ state event, Invariant state →
      ∃ reached, step state event = .ok reached ∧ Invariant reached)
    (events : List Event) {state : State} (hstate : Invariant state) :
    ∃ reached, events.foldlM step state = .ok reached ∧ Invariant reached := by
  induction events generalizing state with
  | nil => exact ⟨state, rfl, hstate⟩
  | cons event events ih =>
    obtain ⟨next, hnext, hinvariant⟩ := hstep state event hstate
    obtain ⟨reached, hreached, hfinal⟩ := ih hinvariant
    exact ⟨reached, by rw [List.foldlM_cons, hnext, bind_ok, hreached], hfinal⟩

/-- What every step of a loop keeps when it succeeds, the loop keeps. -/
theorem foldlM_keeps {Event : Type} {Invariant : State → Prop}
    {step : State → Event → Except Error State}
    (hstep : ∀ state event reached, step state event = .ok reached → Invariant state →
      Invariant reached)
    {events : List Event} {state reached : State} (hrun : events.foldlM step state = .ok reached)
    (hstate : Invariant state) : Invariant reached := by
  induction events generalizing state with
  | nil =>
    rw [List.foldlM_nil, pure_eq_ok, Except.ok.injEq] at hrun
    exact hrun ▸ hstate
  | cons event events ih =>
    rw [List.foldlM_cons, bind_eq_ok_iff] at hrun
    obtain ⟨next, hnext, hrest⟩ := hrun
    exact ih hrest (hstep state event next hnext hstate)

/-- What a loop has established of the events behind it, it has established of all of them. -/
theorem foldlM_tracks {Event : Type} {Invariant : List Event → State → Prop}
    {step : State → Event → Except Error State}
    (hstep : ∀ past state event reached, step state event = .ok reached → Invariant past state →
      Invariant (past ++ [event]) reached)
    {past events : List Event} {state reached : State}
    (hrun : events.foldlM step state = .ok reached) (hstate : Invariant past state) :
    Invariant (past ++ events) reached := by
  induction events generalizing past state with
  | nil =>
    rw [List.foldlM_nil, pure_eq_ok, Except.ok.injEq] at hrun
    rw [List.append_nil, ← hrun]
    exact hstate
  | cons event events ih =>
    rw [List.foldlM_cons, bind_eq_ok_iff] at hrun
    obtain ⟨next, hnext, hrest⟩ := hrun
    rw [List.append_cons]
    exact ih hrest (hstep past state event next hnext hstate)

/-- A loop whose steps fail on account of their events alone fails exactly when some step does. -/
theorem foldlM_eq_error_iff {Event : Type} {Bad : Event → Prop}
    {step : State → Event → Except Error State}
    (hstep : ∀ state event, (∃ error, step state event = .error error) ↔ Bad event)
    (events : List Event) (state : State) :
    (∃ error, events.foldlM step state = .error error) ↔ ∃ event ∈ events, Bad event := by
  induction events generalizing state with
  | nil => simp
  | cons event events ih =>
    rw [List.foldlM_cons, List.exists_mem_cons_iff, ← hstep state event]
    cases hnext : step state event with
    | error error => simp
    | ok next =>
      rw [bind_ok, ih next]
      simp

/-- A loop that collects values succeeds exactly when every step does, with its value. -/
theorem mapM_eq_ok_iff {Event : Type} {step : Event → Except Error Value} {events : List Event}
    {values : List Value} :
    events.mapM step = .ok values ↔
      List.Forall₂ (fun event value ↦ step event = .ok value) events values := by
  induction events generalizing values with
  | nil =>
    rw [List.mapM_nil, pure_eq_ok, Except.ok.injEq, List.forall₂_nil_left_iff]
    exact eq_comm
  | cons event events ih =>
    rw [List.mapM_cons, bind_eq_ok_iff, List.forall₂_cons_left_iff]
    simp only [bind_eq_ok_iff, pure_eq_ok, Except.ok.injEq, ih]
    constructor
    · rintro ⟨value, hvalue, rest, hrest, rfl⟩
      exact ⟨value, rest, hvalue, hrest, rfl⟩
    · rintro ⟨value, rest, hvalue, hrest, rfl⟩
      exact ⟨value, hvalue, rest, hrest, rfl⟩

/-- A loop that collects the values of steps that all succeed is a map. -/
theorem mapM_eq_ok_map {Event : Type} {step : Event → Except Error Value} {value : Event → Value}
    (events : List Event) (hstep : ∀ event ∈ events, step event = .ok (value event)) :
    events.mapM step = .ok (events.map value) := by
  induction events with
  | nil => rfl
  | cons event events ih =>
    rw [List.mapM_cons, hstep event List.mem_cons_self, bind_ok,
      ih fun other hother ↦ hstep other (List.mem_cons_of_mem _ hother)]
    rfl

/-- A loop over numbered cells that reads every cell back is a map. -/
theorem mapM_zipIdx_map {Event Cell : Type} {encode : Event → Cell} {value : Event → Value}
    {step : Cell × ℕ → Except Error Value}
    (hstep : ∀ event index, step (encode event, index) = .ok (value event)) (events : List Event)
    (start : ℕ) : ((events.map encode).zipIdx start).mapM step = .ok (events.map value) := by
  induction events generalizing start with
  | nil => rfl
  | cons event events ih =>
    rw [List.map_cons, List.zipIdx_cons, List.mapM_cons, hstep, bind_ok, ih]
    rfl

/-! ### Mutable state -/

/-- A computation that may mutate its state and may fail, keeping the state it had reached. -/
abbrev Mutation (Error State Output : Type) : Type :=
  ExceptT Error (StateM State) Output

/-- The outcome of a mutation from a state, and the state it leaves. -/
def perform (mutation : Mutation Error State Output) (state : State) :
    Except Error Output × State :=
  mutation.run state

@[simp] theorem perform_pure (value : Output) (state : State) :
    perform (pure value : Mutation Error State Output) state = (.ok value, state) :=
  rfl

@[simp] theorem perform_get (state : State) :
    perform (get : Mutation Error State State) state = (.ok state, state) :=
  rfl

@[simp] theorem perform_set (replacement state : State) :
    perform (set replacement : Mutation Error State PUnit) state =
      (.ok PUnit.unit, replacement) :=
  rfl

@[simp] theorem perform_modify (update : State → State) (state : State) :
    perform (modify update : Mutation Error State PUnit) state =
      (.ok PUnit.unit, update state) :=
  rfl

@[simp] theorem perform_throw (error : Error) (state : State) :
    perform (throw error : Mutation Error State Output) state = (.error error, state) :=
  rfl

@[simp] theorem perform_lift (result : Except Error Output) (state : State) :
    perform (liftM result : Mutation Error State Output) state = (result, state) :=
  rfl

/-- A sequence stops at the first failure, in the state that failure left. -/
theorem perform_bind (first : Mutation Error State Value)
    (next : Value → Mutation Error State Output) (state : State) :
    perform (first >>= next) state =
      match perform first state with
      | (.ok value, reached) => perform (next value) reached
      | (.error error, reached) => (.error error, reached) := by
  simp only [perform, ExceptT.run_bind]
  show (StateT.bind first.run _) state = _
  simp only [StateT.bind]
  rcases first.run state with ⟨outcome, reached⟩
  cases outcome <;> rfl

/-- The mutation succeeds from a state, with a value and a final state as described. -/
def Succeeds (mutation : Mutation Error State Output) (state : State)
    (described : Output → State → Prop) : Prop :=
  ∃ value final, perform mutation state = (.ok value, final) ∧ described value final

/-- A sequence succeeds exactly when its first part does and the rest succeeds from there. -/
theorem succeeds_bind {first : Mutation Error State Value}
    {next : Value → Mutation Error State Output} {state : State}
    {described : Output → State → Prop} :
    Succeeds (first >>= next) state described ↔
      Succeeds first state fun value reached ↦ Succeeds (next value) reached described := by
  rw [Succeeds, perform_bind, Succeeds]
  rcases perform first state with ⟨outcome, reached⟩
  cases outcome with
  | ok value => simp [Succeeds]
  | error error => simp

theorem succeeds_lift {result : Except Error Output} {state : State}
    {described : Output → State → Prop} :
    Succeeds (liftM result : Mutation Error State Output) state described ↔
      ∃ value, result = .ok value ∧ described value state := by
  rw [Succeeds, perform_lift]
  cases result <;> simp

theorem succeeds_pure {value : Output} {state : State} {described : Output → State → Prop} :
    Succeeds (pure value : Mutation Error State Output) state described ↔
      described value state := by
  rw [Succeeds, perform_pure]
  simp

theorem succeeds_modify {update : State → State} {state : State}
    {described : PUnit → State → Prop} :
    Succeeds (modify update : Mutation Error State PUnit) state described ↔
      described PUnit.unit (update state) := by
  rw [Succeeds, perform_modify]
  constructor
  · rintro ⟨value, final, heq, hdescribed⟩
    obtain ⟨hvalue, rfl⟩ := Prod.ext_iff.mp heq
    exact hdescribed
  · exact fun hdescribed ↦ ⟨PUnit.unit, update state, rfl, hdescribed⟩

/-! ### Checked arithmetic -/

/-- The sum of two unsigned 64-bit integers, when it fits. -/
def checkedAdd (left right : UInt64) : Option UInt64 :=
  if left.toNat + right.toNat < 2 ^ 64 then some (left + right) else none

/-- The difference of two unsigned 64-bit integers, when it is not negative. -/
def checkedSub (left right : UInt64) : Option UInt64 :=
  if right ≤ left then some (left - right) else none

/-- The value shifted left within `bits` bits, when the shift is below the width. -/
def checkedShl (bits value shift : ℕ) : Option ℕ :=
  if shift < bits then some ((value <<< shift) % 2 ^ bits) else none

/-- The value shifted right, when the shift is below the width. -/
def checkedShr (bits value shift : ℕ) : Option ℕ :=
  if shift < bits then some (value >>> shift) else none

/-- The remainder, when the divisor is not zero. -/
def checkedRem (value divisor : ℕ) : Option ℕ :=
  if divisor = 0 then none else some (value % divisor)

/-- The quotient, when the divisor is not zero. -/
def checkedDiv (value divisor : ℕ) : Option ℕ :=
  if divisor = 0 then none else some (value / divisor)

/-- The number, when it fits in `bits` bits: the outcome of a checked sum or product. -/
def fits (bits value : ℕ) : Option ℕ :=
  if value < 2 ^ bits then some value else none

/-- The difference of two natural numbers, when it is not negative. -/
def checkedDiff (left right : ℕ) : Option ℕ :=
  if right ≤ left then some (left - right) else none

/-- The number as an unsigned 16-bit integer, when it fits. -/
def tryFromU16 (value : ℕ) : Option UInt16 :=
  if value < 2 ^ 16 then some (UInt16.ofNat value) else none

/-- A signed number as an unsigned 64-bit integer, when it fits. -/
def tryFromU64 (value : ℤ) : Option UInt64 :=
  if 0 ≤ value ∧ value < 2 ^ 64 then some (UInt64.ofNat value.toNat) else none

/-- The sum of two unsigned 64-bit integers, or the greatest one where it does not fit. -/
def saturatingAddU64 (left right : UInt64) : UInt64 :=
  (checkedAdd left right).getD 18446744073709551615

/-- The difference of two unsigned 64-bit integers, or zero where it is negative. -/
def saturatingSubU64 (left right : UInt64) : UInt64 :=
  (checkedSub left right).getD 0

/-- A number as a signed 64-bit integer, when it fits: the outcome of a checked operation. -/
def tryFromI64 (value : ℤ) : Option Int64 :=
  if -2 ^ 63 ≤ value ∧ value < 2 ^ 63 then some (Int64.ofInt value) else none

/-- The difference of two signed 64-bit integers, or the bound it is beyond. -/
def saturatingSubI64 (left right : Int64) : Int64 :=
  Int64.ofInt (max (-2 ^ 63) (min (left.toInt - right.toInt) (2 ^ 63 - 1)))

theorem checkedShl_one {bits shift : ℕ} (hshift : shift < bits) :
    checkedShl bits 1 shift = some (2 ^ shift) := by
  rw [checkedShl, if_pos hshift, Nat.one_shiftLeft,
    Nat.mod_eq_of_lt (Nat.pow_lt_pow_right (by norm_num) hshift)]

theorem checkedShr_one {bits value : ℕ} (hbits : 1 < bits) :
    checkedShr bits value 1 = some (value / 2) := by
  rw [checkedShr, if_pos hbits, Nat.shiftRight_eq_div_pow, pow_one]

theorem checkedShr_of_lt {bits value shift : ℕ} (hshift : shift < bits) :
    checkedShr bits value shift = some (value / 2 ^ shift) := by
  rw [checkedShr, if_pos hshift, Nat.shiftRight_eq_div_pow]

theorem checkedShl_of_lt {bits value shift : ℕ} (hshift : shift < bits)
    (hvalue : value * 2 ^ shift < 2 ^ bits) :
    checkedShl bits value shift = some (value * 2 ^ shift) := by
  rw [checkedShl, if_pos hshift, Nat.shiftLeft_eq, Nat.mod_eq_of_lt hvalue]

theorem fits_of_lt {bits value : ℕ} (hvalue : value < 2 ^ bits) : fits bits value = some value :=
  if_pos hvalue

theorem checkedDiff_of_le {left right : ℕ} (hle : right ≤ left) :
    checkedDiff left right = some (left - right) :=
  if_pos hle

theorem checkedDiff_eq_some_iff {left right difference : ℕ} :
    checkedDiff left right = some difference ↔ right ≤ left ∧ difference = left - right := by
  unfold checkedDiff
  split
  · simp_all [eq_comm]
  · simp_all

theorem checkedRem_of_pos {value divisor : ℕ} (hdivisor : 0 < divisor) :
    checkedRem value divisor = some (value % divisor) :=
  if_neg (by omega)

theorem checkedDiv_of_pos {value divisor : ℕ} (hdivisor : 0 < divisor) :
    checkedDiv value divisor = some (value / divisor) :=
  if_neg (by omega)

theorem tryFromU16_of_lt {value : ℕ} (hvalue : value < 2 ^ 16) :
    tryFromU16 value = some (UInt16.ofNat value) :=
  if_pos hvalue

theorem tryFromU64_eq_some_iff {value : ℤ} {word : UInt64} :
    tryFromU64 value = some word ↔ (word.toNat : ℤ) = value := by
  have hword := word.toNat_lt
  rw [tryFromU64]
  split
  · next hfits =>
    rw [Option.some.injEq, ← UInt64.toNat_inj, UInt64.toNat_ofNat']
    omega
  · next hout =>
    simp only [reduceCtorEq, false_iff]
    omega

theorem exists_tryFromU64 {value : ℤ} (hlow : 0 ≤ value) (hhigh : value < 2 ^ 64) :
    ∃ word, tryFromU64 value = some word ∧ (word.toNat : ℤ) = value :=
  ⟨_, if_pos ⟨hlow, hhigh⟩, tryFromU64_eq_some_iff.mp (if_pos ⟨hlow, hhigh⟩)⟩

theorem checkedAdd_eq_some_iff {left right sum : UInt64} :
    checkedAdd left right = some sum ↔ sum.toNat = left.toNat + right.toNat := by
  have hsum := sum.toNat_lt
  rw [checkedAdd]
  split
  · next hfits =>
    rw [Option.some.injEq, ← UInt64.toNat_inj, UInt64.toNat_add, Nat.mod_eq_of_lt hfits]
    exact eq_comm
  · next hoverflow =>
    simp only [reduceCtorEq, false_iff]
    omega

theorem checkedAdd_one_eq_some_iff {value next : UInt64} :
    checkedAdd value 1 = some next ↔ value.toNat + 1 < 2 ^ 64 ∧ next = value + 1 := by
  have hone : (1 : UInt64).toNat = 1 := rfl
  rw [checkedAdd, hone]
  split
  · next hfits => simp only [Option.some.injEq, hfits, true_and, eq_comm]
  · next hoverflow => simp only [hoverflow, reduceCtorEq, false_and]

theorem checkedAdd_eq_none_iff {left right : UInt64} :
    checkedAdd left right = none ↔ 2 ^ 64 ≤ left.toNat + right.toNat := by
  rw [checkedAdd]
  split <;> simp <;> omega

theorem checkedSub_eq_some_iff {left right difference : UInt64} :
    checkedSub left right = some difference ↔
      difference.toNat + right.toNat = left.toNat := by
  rw [checkedSub]
  split
  · next hle =>
    have hnat : right.toNat ≤ left.toNat := UInt64.le_iff_toNat_le.mp hle
    rw [Option.some.injEq, ← UInt64.toNat_inj, UInt64.toNat_sub_of_le _ _ hle]
    omega
  · next hgt =>
    have hnat : ¬ right.toNat ≤ left.toNat := fun hle ↦ hgt (UInt64.le_iff_toNat_le.mpr hle)
    simp only [reduceCtorEq, false_iff]
    omega

theorem checkedSub_eq_none_iff {left right : UInt64} :
    checkedSub left right = none ↔ left.toNat < right.toNat := by
  rw [checkedSub]
  split
  · next hle => simpa using UInt64.le_iff_toNat_le.mp hle
  · next hgt => simpa [UInt64.le_iff_toNat_le] using hgt

theorem toNat_saturatingAddU64 (left right : UInt64) :
    (saturatingAddU64 left right).toNat = min (left.toNat + right.toNat) (2 ^ 64 - 1) := by
  cases hsum : checkedAdd left right with
  | none =>
    have hoverflow := checkedAdd_eq_none_iff.mp hsum
    rw [saturatingAddU64, hsum, Nat.min_eq_right (by omega)]
    rfl
  | some sum =>
    have hfits := sum.toNat_lt
    have hvalue := checkedAdd_eq_some_iff.mp hsum
    rw [saturatingAddU64, hsum, Nat.min_eq_left (by omega)]
    exact hvalue

theorem toNat_saturatingSubU64 (left right : UInt64) :
    (saturatingSubU64 left right).toNat = left.toNat - right.toNat := by
  cases hdifference : checkedSub left right with
  | none =>
    have hnegative := checkedSub_eq_none_iff.mp hdifference
    rw [saturatingSubU64, hdifference, Nat.sub_eq_zero_of_le hnegative.le]
    rfl
  | some difference =>
    have hvalue := checkedSub_eq_some_iff.mp hdifference
    rw [saturatingSubU64, hdifference, ← hvalue, Nat.add_sub_cancel]
    rfl

theorem tryFromI64_eq_some_iff {value : ℤ} {word : Int64} :
    tryFromI64 value = some word ↔ word.toInt = value := by
  have hlow := word.le_toInt
  have hhigh := word.toInt_lt
  rw [tryFromI64]
  split
  · next hfits =>
    rw [Option.some.injEq, ← Int64.toInt_inj, Int64.toInt_ofInt_of_le hfits.1 hfits.2]
    exact eq_comm
  · next hout =>
    simp only [reduceCtorEq, false_iff]
    omega

theorem toInt_saturatingSubI64 (left right : Int64) :
    (saturatingSubI64 left right).toInt =
      max (-2 ^ 63) (min (left.toInt - right.toInt) (2 ^ 63 - 1)) :=
  Int64.toInt_ofInt_of_le (by omega) (by omega)

/-- Saturation does not hide that a difference is above a bound below the greatest integer. -/
theorem lt_saturatingSubI64_iff {left right bound : Int64} (hbound : bound.toInt < 2 ^ 63 - 1) :
    bound < saturatingSubI64 left right ↔ bound.toInt < left.toInt - right.toInt := by
  have hlow := bound.le_toInt
  rw [Int64.lt_iff_toInt_lt, toInt_saturatingSubI64]
  omega

/-- The difference of two integers that are not negative is exact. -/
theorem lt_saturatingSubI64_iff_of_nonneg {left right bound : Int64} (hleft : 0 ≤ left.toInt)
    (hright : 0 ≤ right.toInt) :
    bound < saturatingSubI64 left right ↔ bound.toInt < left.toInt - right.toInt := by
  have hleft := left.toInt_lt
  have hright := right.toInt_lt
  rw [Int64.lt_iff_toInt_lt, toInt_saturatingSubI64]
  omega

theorem exists_eq_ok_of_isOk {Error Value : Type} {result : Except Error Value}
    (hok : result.isOk = true) : ∃ value, result = .ok value := by
  cases result with
  | ok value => exact ⟨value, rfl⟩
  | error error => cases hok

end AnchoredLog.Library.Fallible
