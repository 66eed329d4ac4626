import Mathlib.Data.List.Nodup
import Mathlib.Data.List.Perm.Subperm
import Mathlib.Data.Nat.Find
import Mathlib.Data.Nat.ModEq
import Mathlib.Tactic.Common

/-!
# Open addressing with linear probing

A table of `capacity` slots is filled one key at a time. Each key has a start, and it takes the
first slot at or after its start, stepping upward by one and wrapping at the capacity, that no
earlier key has taken. `FirstFree` is that slot, `Probed` the property of a whole sequence of
slots, and neither mentions how the slot is searched for.

`exists_firstFree` is termination: a table that is not full has a first free slot from every
start. `FirstFree.unique` and `Probed.unique` say that the starts determine the slots, and
`Probed.nodup` and `Probed.lt_capacity` that the slots are distinct and in range, however full
the table is.
-/

set_option autoImplicit false
set_option relaxedAutoImplicit false

namespace AnchoredLog.Library.LinearProbing

/-! ### The first free slot -/

/-- `slot` is the first slot cyclically at or after `start` that is not taken. -/
def FirstFree (taken : ℕ → Prop) (capacity start slot : ℕ) : Prop :=
  ∃ step < capacity, slot = (start + step) % capacity ∧ ¬ taken slot ∧
    ∀ earlier < step, taken ((start + earlier) % capacity)

variable {taken : ℕ → Prop} {capacity start slot : ℕ}

theorem FirstFree.lt_capacity (hfirst : FirstFree taken capacity start slot) :
    slot < capacity := by
  obtain ⟨step, hstep, rfl, -, -⟩ := hfirst
  exact Nat.mod_lt _ (by omega)

theorem FirstFree.not_taken (hfirst : FirstFree taken capacity start slot) : ¬ taken slot := by
  obtain ⟨-, -, -, hfree, -⟩ := hfirst
  exact hfree

/-- The start determines the first free slot. -/
theorem FirstFree.unique {other : ℕ} (hfirst : FirstFree taken capacity start slot)
    (hother : FirstFree taken capacity start other) : slot = other := by
  obtain ⟨step, -, rfl, hfree, hbefore⟩ := hfirst
  obtain ⟨otherStep, -, rfl, hotherFree, hotherBefore⟩ := hother
  rcases lt_trichotomy step otherStep with hlt | rfl | hgt
  · exact (hfree (hotherBefore step hlt)).elim
  · rfl
  · exact (hotherFree (hbefore otherStep hgt)).elim

/-- From any start, the steps below the capacity reach every slot. -/
theorem exists_step {index : ℕ} (start : ℕ) (hindex : index < capacity) :
    ∃ step < capacity, (start + step) % capacity = index := by
  refine ⟨(index + (capacity - start % capacity)) % capacity, Nat.mod_lt _ (by omega), ?_⟩
  have hstart : start % capacity < capacity := Nat.mod_lt _ (by omega)
  rw [Nat.add_mod, Nat.mod_mod, Nat.add_mod_mod,
    show start % capacity + (index + (capacity - start % capacity)) = index + capacity by omega,
    Nat.add_mod_right, Nat.mod_eq_of_lt hindex]

/-- A table that is not full has a first free slot from every start. -/
theorem exists_firstFree (slots : List ℕ) (start : ℕ) (hroom : slots.length < capacity) :
    ∃ slot, FirstFree (· ∈ slots) capacity start slot := by
  have hfree : ∃ step, step < capacity ∧ (start + step) % capacity ∉ slots := by
    by_contra hnone
    have hsubset : List.range capacity ⊆ slots := by
      intro index hindex
      obtain ⟨step, hstep, rfl⟩ := exists_step start (List.mem_range.mp hindex)
      by_contra hmissing
      exact hnone ⟨step, hstep, hmissing⟩
    have hlength := (List.Nodup.subperm List.nodup_range hsubset).length_le
    rw [List.length_range] at hlength
    omega
  classical
  refine ⟨_, Nat.find hfree, (Nat.find_spec hfree).1, rfl, (Nat.find_spec hfree).2, ?_⟩
  intro earlier hearlier
  by_contra hmissing
  exact Nat.find_min hfree hearlier ⟨hearlier.trans (Nat.find_spec hfree).1, hmissing⟩

/-! ### A sequence of keys -/

/-- The slots of a sequence of keys: each is the first one free from its own start when the keys
before it have been placed. -/
structure Probed (capacity : ℕ) (starts slots : List ℕ) : Prop where
  /-- Every key has a slot. -/
  length_eq : slots.length = starts.length
  /-- Each slot is the first free one among those the earlier keys left. -/
  firstFree : ∀ (position start slot : ℕ), starts[position]? = some start →
    slots[position]? = some slot → FirstFree (· ∈ slots.take position) capacity start slot

variable {starts slots : List ℕ}

theorem probed_nil (capacity : ℕ) : Probed capacity [] [] :=
  ⟨rfl, fun _ _ _ hstart ↦ by simp at hstart⟩

/-- One more key takes the first slot the earlier ones left. -/
theorem Probed.concat (hprobed : Probed capacity starts slots)
    (hfirst : FirstFree (· ∈ slots) capacity start slot) :
    Probed capacity (starts ++ [start]) (slots ++ [slot]) := by
  have hlengths := hprobed.length_eq
  refine ⟨by simp [hlengths], fun position otherStart otherSlot hstart hslot ↦ ?_⟩
  rcases lt_trichotomy position starts.length with hlt | rfl | hgt
  · rw [List.getElem?_append_left hlt] at hstart
    rw [List.getElem?_append_left (by omega)] at hslot
    rw [List.take_append_of_le_length (by omega)]
    exact hprobed.firstFree position otherStart otherSlot hstart hslot
  · rw [List.getElem?_concat_length] at hstart
    rw [← hlengths, List.getElem?_concat_length] at hslot
    obtain rfl : start = otherStart := Option.some_injective _ hstart
    obtain rfl : slot = otherSlot := Option.some_injective _ hslot
    rw [← hlengths, List.take_left]
    exact hfirst
  · rw [List.getElem?_eq_none (by simp only [List.length_append, List.length_singleton]; omega)]
      at hstart
    simp at hstart

theorem Probed.exists_start (hprobed : Probed capacity starts slots) {position : ℕ}
    (hslot : slots[position]? = some slot) : ∃ start, starts[position]? = some start := by
  have hposition : position < starts.length := by
    rw [← hprobed.length_eq]
    exact (List.getElem?_eq_some_iff.mp hslot).1
  exact ⟨_, List.getElem?_eq_getElem hposition⟩

theorem Probed.lt_capacity (hprobed : Probed capacity starts slots) (hslot : slot ∈ slots) :
    slot < capacity := by
  obtain ⟨position, hposition⟩ := List.getElem?_of_mem hslot
  obtain ⟨start, hstart⟩ := hprobed.exists_start hposition
  exact (hprobed.firstFree position start slot hstart hposition).lt_capacity

/-- No slot is taken twice. -/
theorem Probed.nodup (hprobed : Probed capacity starts slots) : slots.Nodup := by
  rw [List.nodup_iff_getElem?_ne_getElem?]
  intro first second hlt hsecond heq
  obtain ⟨slot, hslot⟩ : ∃ slot, slots[second]? = some slot :=
    ⟨_, List.getElem?_eq_getElem hsecond⟩
  obtain ⟨start, hstart⟩ := hprobed.exists_start hslot
  have hfree := (hprobed.firstFree second start slot hstart hslot).not_taken
  refine hfree (List.mem_of_getElem? (i := first) ?_)
  rw [List.getElem?_take_of_lt hlt, heq, hslot]

/-- The starts determine the slots. -/
theorem Probed.unique {others : List ℕ} (hprobed : Probed capacity starts slots)
    (hothers : Probed capacity starts others) : slots = others := by
  have hlengths : slots.length = others.length := by
    rw [hprobed.length_eq, hothers.length_eq]
  have htake : ∀ count, slots.take count = others.take count := by
    intro count
    induction count with
    | zero => simp
    | succ count ih =>
      rw [List.take_add_one, List.take_add_one, ih]
      congr 1
      by_cases hcount : count < slots.length
      · obtain ⟨slot, hslot⟩ : ∃ slot, slots[count]? = some slot :=
          ⟨_, List.getElem?_eq_getElem hcount⟩
        obtain ⟨other, hother⟩ : ∃ other, others[count]? = some other :=
          ⟨_, List.getElem?_eq_getElem (hlengths ▸ hcount)⟩
        obtain ⟨start, hstart⟩ := hprobed.exists_start hslot
        have hfirst := hprobed.firstFree count start slot hstart hslot
        have hsecond := hothers.firstFree count start other hstart hother
        rw [← ih] at hsecond
        rw [hslot, hother, hfirst.unique hsecond]
      · rw [List.getElem?_eq_none (by omega), List.getElem?_eq_none (by omega)]
  have hall := htake slots.length
  rwa [List.take_length, hlengths, List.take_length] at hall

end AnchoredLog.Library.LinearProbing
