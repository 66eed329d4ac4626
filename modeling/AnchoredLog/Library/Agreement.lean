import AnchoredLog.Library.Fallible

/-!
# Agreement of two fallible computations

Two computations that report errors of different types agree when both succeed with related
values or both fail with related errors. `Agree` is that relation, and its rules follow the shape
of the computations: agreement of the first parts and, for related values, of the rests
(`Agree.bind`), and two early exits with equivalent conditions (`Agree.require`). A comparison of
two long sequences of checks is then one rule per check, and a change to one check touches one
step of the comparison.
-/

set_option autoImplicit false
set_option relaxedAutoImplicit false

namespace AnchoredLog.Library.Agreement

open Fallible

variable {Error Failure Value Output NextValue NextOutput : Type}

/-- Both succeed with related values, or both fail with related errors. -/
inductive Agree (sameError : Error → Failure → Prop) (sameValue : Value → Output → Prop) :
    Except Error Value → Except Failure Output → Prop
  | ok {value : Value} {output : Output} (hvalue : sameValue value output) :
    Agree sameError sameValue (.ok value) (.ok output)
  | error {error : Error} {failure : Failure} (herror : sameError error failure) :
    Agree sameError sameValue (.error error) (.error failure)

variable {sameError : Error → Failure → Prop} {sameValue : Value → Output → Prop}
  {sameNext : NextValue → NextOutput → Prop}

/-- Where one side succeeds the other does, with a related value. -/
theorem Agree.exists_of_ok {value : Value} {second : Except Failure Output}
    (hagree : Agree sameError sameValue (.ok value) second) :
    ∃ output, second = .ok output ∧ sameValue value output := by
  cases hagree with
  | ok hvalue => exact ⟨_, rfl, hvalue⟩

/-- Sequences agree when their first parts do and, on related values, their rests do. -/
theorem Agree.bind {first : Except Error Value} {second : Except Failure Output}
    {rest : Value → Except Error NextValue} {otherRest : Output → Except Failure NextOutput}
    (hfirst : Agree sameError sameValue first second)
    (hrest : ∀ value output, sameValue value output →
      Agree sameError sameNext (rest value) (otherRest output)) :
    Agree sameError sameNext (first >>= rest) (second >>= otherRest) := by
  cases hfirst with
  | ok hvalue => exact hrest _ _ hvalue
  | error herror => exact Agree.error herror

/-- A computation agrees with itself. -/
theorem Agree.refl {Error Value : Type} {sameError : Error → Error → Prop}
    (hrefl : ∀ error, sameError error error) (result : Except Error Value) :
    Agree sameError Eq result result := by
  cases result with
  | ok value => exact .ok rfl
  | error error => exact .error (hrefl error)

/-- Computations that agree do so with what each of them is known to return. -/
theorem Agree.and_ok {first : Except Error Value} {second : Except Failure Output}
    (hagree : Agree sameError sameValue first second) :
    Agree sameError
      (fun value output ↦ sameValue value output ∧ first = .ok value ∧ second = .ok output)
      first second := by
  cases hagree with
  | ok hvalue => exact .ok ⟨hvalue, rfl, rfl⟩
  | error herror => exact .error herror

/-- Two early exits agree when their conditions are equivalent and their errors related. -/
theorem Agree.require {condition other : Prop} [Decidable condition] [Decidable other]
    {error : Error} {failure : Failure} (hiff : condition ↔ other)
    (herror : sameError error failure) :
    Agree sameError (fun _ _ ↦ True) (require condition error) (require other failure) := by
  by_cases hcondition : condition
  · rw [require_of_true hcondition, require_of_true (hiff.mp hcondition)]
    exact Agree.ok trivial
  · rw [require_of_false hcondition, require_of_false (fun hother ↦ hcondition (hiff.mpr hother))]
    exact Agree.error herror

/-- One check after the other: the rests are compared under the condition both checked. -/
theorem Agree.require_bind {condition other : Prop} [Decidable condition] [Decidable other]
    {error : Error} {failure : Failure} {rest : Unit → Except Error NextValue}
    {otherRest : Unit → Except Failure NextOutput} (hiff : condition ↔ other)
    (herror : sameError error failure)
    (hrest : condition → Agree sameError sameNext (rest ()) (otherRest ())) :
    Agree sameError sameNext (Fallible.require condition error >>= rest)
      (Fallible.require other failure >>= otherRest) := by
  by_cases hcondition : condition
  · rw [require_of_true hcondition, require_of_true (hiff.mp hcondition)]
    exact hrest hcondition
  · rw [require_of_false hcondition, require_of_false (fun hother ↦ hcondition (hiff.mpr hother))]
    exact Agree.error herror

/-- Two checks made in one order on one side and in the other order on the other side, where the
side that comes first reports both with one error. -/
theorem Agree.require_bind_comm {first second otherFirst otherSecond : Prop} [Decidable first]
    [Decidable second] [Decidable otherFirst] [Decidable otherSecond] {error : Error}
    {failure laterFailure : Failure} {rest : Except Error NextValue}
    {otherRest : Except Failure NextOutput} (hfirst : first ↔ otherFirst)
    (hsecond : second ↔ otherSecond) (herror : sameError error failure)
    (hlater : sameError error laterFailure)
    (hrest : first → second → Agree sameError sameNext rest otherRest) :
    Agree sameError sameNext
      (Fallible.require first error >>= fun _ ↦ Fallible.require second error >>= fun _ ↦ rest)
      (Fallible.require otherSecond failure >>= fun _ ↦
        Fallible.require otherFirst laterFailure >>= fun _ ↦ otherRest) := by
  have hswap : (Fallible.require first error >>= fun _ ↦
      Fallible.require second error >>= fun _ ↦ rest) =
      (Fallible.require second error >>= fun _ ↦
        Fallible.require first error >>= fun _ ↦ rest) := by
    by_cases hone : first
    · rw [require_of_true hone, bind_ok]
      by_cases htwo : second
      · rw [require_of_true htwo, bind_ok, bind_ok]
      · rw [require_of_false htwo, bind_error, bind_error]
    · rw [require_of_false hone, bind_error]
      by_cases htwo : second
      · rw [require_of_true htwo, bind_ok, bind_error]
      · rw [require_of_false htwo, bind_error]
  rw [hswap]
  refine Agree.require_bind hsecond herror fun htwo ↦ ?_
  exact Agree.require_bind hfirst hlater fun hone ↦ hrest hone htwo

end AnchoredLog.Library.Agreement
