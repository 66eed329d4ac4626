import Mathlib.Order.Defs.Unbundled
import Mathlib.Tactic.Common

/-!
# Runs of a step function

A run folds a step function over a list of events. `run_invariant` carries an invariant of one
step over a run, and `run_related` a preorder between the states before and after one step to the
states before and after a run, where a step may assume the invariant.
-/

set_option autoImplicit false
set_option relaxedAutoImplicit false

namespace AnchoredLog.Library.Runs

variable {State Event : Type} {step : State → Event → State} {Invariant : State → Prop}

/-- What every step keeps, every run keeps. -/
theorem run_invariant
    (hstep : ∀ state event, Invariant state → Invariant (step state event))
    {state : State} (hstate : Invariant state) (events : List Event) :
    Invariant (events.foldl step state) := by
  induction events generalizing state with
  | nil => exact hstate
  | cons event events ih => exact ih (hstep state event hstate)

/-- A preorder that relates the states of every step relates the states of every run. -/
theorem run_related {Related : State → State → Prop} (hrefl : ∀ state, Related state state)
    (htrans : ∀ first second third, Related first second → Related second third →
      Related first third)
    (hstep : ∀ state event, Invariant state → Invariant (step state event))
    (hrelated : ∀ state event, Invariant state → Related state (step state event))
    {state : State} (hstate : Invariant state) (events : List Event) :
    Related state (events.foldl step state) := by
  induction events generalizing state with
  | nil => exact hrefl state
  | cons event events ih =>
    exact htrans _ _ _ (hrelated state event hstate) (ih (hstep state event hstate))

end AnchoredLog.Library.Runs
