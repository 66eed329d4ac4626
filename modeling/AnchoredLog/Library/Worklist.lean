import Mathlib.Algebra.BigOperators.Group.List.Basic
import Mathlib.Algebra.Order.Ring.Nat
import Mathlib.Data.Nat.Notation
import Mathlib.Logic.Relation
import Mathlib.Tactic.Common

/-!
# Worklists

A loop that takes a state from a stack, reports on it and puts its children on the stack, until the
stack is empty. Where the children of a state are together smaller than the state (`Shrinks`), the
loop ends, and what it reports is what is reported of the states that can be reached from the stack
(`mem_drain_iff`), in whatever order they are taken.
-/

set_option autoImplicit false
set_option relaxedAutoImplicit false

namespace AnchoredLog.Library.Worklist

variable {State Report : Type}

/-- A step from a state to one of its children. -/
def Child (children : State → List State) (state child : State) : Prop :=
  child ∈ children state

/-- The size of a stack. -/
def load (size : State → ℕ) (stack : List State) : ℕ :=
  (stack.map size).sum

/-- The children of a state are together smaller than it. -/
def Shrinks (children : State → List State) (size : State → ℕ) : Prop :=
  ∀ state, load size (children state) < size state

section Loop

variable (children : State → List State) (reports : State → List Report) (size : State → ℕ)

/-- A number of turns of the loop. -/
def drainFor : ℕ → List State → List Report
  | 0, _ => []
  | _ + 1, [] => []
  | turns + 1, state :: stack => reports state ++ drainFor turns (children state ++ stack)

/-- The loop, for as many turns as its stack can take. -/
def drain (stack : List State) : List Report :=
  drainFor children reports (load size stack) stack

end Loop

variable {children : State → List State} {reports : State → List Report} {size : State → ℕ}

@[simp] theorem load_cons (state : State) (stack : List State) :
    load size (state :: stack) = size state + load size stack := by
  simp [load]

@[simp] theorem load_append (first second : List State) :
    load size (first ++ second) = load size first + load size second := by
  simp [load]

/-- More turns than the size of the stack make no difference. -/
theorem drainFor_eq (hshrinks : Shrinks children size) {turns others : ℕ} {stack : List State}
    (hturns : load size stack ≤ turns) (hothers : load size stack ≤ others) :
    drainFor children reports turns stack = drainFor children reports others stack := by
  induction turns generalizing others stack with
  | zero =>
    cases stack with
    | nil => cases others <;> rfl
    | cons state stack =>
      have hsmaller := hshrinks state
      rw [load_cons] at hturns
      omega
  | succ turns ih =>
    cases stack with
    | nil => cases others <;> rfl
    | cons state stack =>
      have hsmaller := hshrinks state
      rw [load_cons] at hturns hothers
      cases others with
      | zero => omega
      | succ others =>
        rw [drainFor, drainFor, ih]
        all_goals
          rw [load_append]
          omega

@[simp] theorem drain_nil : drain children reports size [] = [] :=
  rfl

/-- One turn of the loop. -/
theorem drain_cons (hshrinks : Shrinks children size) (state : State) (stack : List State) :
    drain children reports size (state :: stack) =
      reports state ++ drain children reports size (children state ++ stack) := by
  have hsmaller := hshrinks state
  obtain ⟨turns, hturns⟩ : ∃ turns, load size (state :: stack) = turns + 1 :=
    Nat.exists_eq_succ_of_ne_zero (by rw [load_cons]; omega)
  rw [drain, hturns, drainFor, drain]
  rw [load_cons] at hturns
  refine congrArg (reports state ++ ·) (drainFor_eq hshrinks ?_ (Nat.le_refl _))
  rw [load_append]
  omega

/-- What the loop reports is what is reported of the states that can be reached from its stack. -/
theorem mem_drain_iff (hshrinks : Shrinks children size) {stack : List State} {report : Report} :
    report ∈ drain children reports size stack ↔ ∃ start ∈ stack, ∃ state,
      Relation.ReflTransGen (Child children) start state ∧ report ∈ reports state := by
  induction hload : load size stack using Nat.strongRecOn generalizing stack with
  | ind total ih =>
    cases stack with
    | nil => simp
    | cons first stack =>
      have hsmaller := hshrinks first
      rw [load_cons] at hload
      rw [drain_cons hshrinks, List.mem_append,
        ih _ (by rw [load_append]; omega) rfl]
      constructor
      · rintro (hreport | ⟨start, hstart, state, hreaches, hreport⟩)
        · exact ⟨first, List.mem_cons_self, first, .refl, hreport⟩
        · rcases List.mem_append.mp hstart with hchild | hrest
          · exact ⟨first, List.mem_cons_self, state, .head hchild hreaches, hreport⟩
          · exact ⟨start, List.mem_cons_of_mem _ hrest, state, hreaches, hreport⟩
      · rintro ⟨start, hstart, state, hreaches, hreport⟩
        rcases List.mem_cons.mp hstart with rfl | hrest
        · rcases Relation.ReflTransGen.cases_head hreaches with rfl | ⟨child, hchild, hfurther⟩
          · exact .inl hreport
          · exact .inr ⟨child, List.mem_append_left _ hchild, state, hfurther, hreport⟩
        · exact .inr ⟨start, List.mem_append_right _ hrest, state, hreaches, hreport⟩

/-- The loop reports nothing when and only when nothing is reported of a state it can reach. -/
theorem drain_eq_nil_iff (hshrinks : Shrinks children size) {stack : List State} :
    drain children reports size stack = [] ↔ ∀ start ∈ stack, ∀ state,
      Relation.ReflTransGen (Child children) start state → reports state = [] := by
  constructor
  · intro hnothing start hstart state hreaches
    refine List.eq_nil_iff_forall_not_mem.mpr fun report hreport ↦ ?_
    have hmem := (mem_drain_iff hshrinks).mpr ⟨start, hstart, state, hreaches, hreport⟩
    rw [hnothing] at hmem
    exact List.not_mem_nil hmem
  · intro hclean
    refine List.eq_nil_iff_forall_not_mem.mpr fun report hmem ↦ ?_
    obtain ⟨start, hstart, state, hreaches, hreport⟩ := (mem_drain_iff hshrinks).mp hmem
    rw [hclean start hstart state hreaches] at hreport
    exact List.not_mem_nil hreport

end AnchoredLog.Library.Worklist
