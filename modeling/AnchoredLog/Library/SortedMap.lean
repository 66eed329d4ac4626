import Mathlib.Data.List.Induction
import Mathlib.Order.Lattice
import Mathlib.Tactic.Common

/-!
# Maps as ordered lists

A map is the list of its entries with their keys in order, each key once. Inserting an entry
replaces the one with its key (`mem_insert_iff`), so that of several entries with one key the last
one stays (`mem_collected_iff`).
-/

set_option autoImplicit false
set_option relaxedAutoImplicit false

namespace AnchoredLog.Library.SortedMap

variable {Key Value : Type} [LinearOrder Key]

/-- The map with an entry. -/
def insert (key : Key) (value : Value) : List (Key × Value) → List (Key × Value)
  | [] => [(key, value)]
  | entry :: rest =>
    if key = entry.1 then (key, value) :: rest
    else if key < entry.1 then (key, value) :: entry :: rest
    else entry :: insert key value rest

/-- The map of a list of entries. -/
def collected (entries : List (Key × Value)) : List (Key × Value) :=
  entries.foldl (fun map entry ↦ insert entry.1 entry.2 map) []

/-- The keys are in order. -/
def Ordered (map : List (Key × Value)) : Prop :=
  (map.map Prod.fst).Pairwise (· < ·)

variable {map : List (Key × Value)} {key : Key} {value : Value}

theorem ordered_cons_iff {entry : Key × Value} :
    Ordered (entry :: map) ↔ (∀ other ∈ map, entry.1 < other.1) ∧ Ordered map := by
  simp [Ordered]

/-- What is in the map after an entry is inserted. -/
theorem mem_insert_iff (hordered : Ordered map) {entry : Key × Value} :
    entry ∈ insert key value map ↔ entry = (key, value) ∨ entry.1 ≠ key ∧ entry ∈ map := by
  induction map with
  | nil => simp [insert]
  | cons first rest ih =>
    rw [ordered_cons_iff] at hordered
    obtain ⟨hfirst, hrest⟩ := hordered
    unfold insert
    split_ifs with hsame hbefore
    · have haway (hentry : entry ∈ rest) : entry.1 ≠ key := by
        rw [hsame]
        exact (hfirst entry hentry).ne'
      rw [List.mem_cons, List.mem_cons]
      constructor
      · exact Or.imp_right fun hentry ↦ ⟨haway hentry, .inr hentry⟩
      · rintro (rfl | ⟨hother, rfl | hentry⟩)
        · exact .inl rfl
        · exact absurd hsame.symm hother
        · exact .inr hentry
    · have haway (hentry : entry ∈ first :: rest) : entry.1 ≠ key := by
        rcases List.mem_cons.mp hentry with rfl | hlater
        · exact hbefore.ne'
        · exact (hbefore.trans (hfirst entry hlater)).ne'
      rw [List.mem_cons]
      exact or_congr_right ⟨fun hentry ↦ ⟨haway hentry, hentry⟩, And.right⟩
    · rw [List.mem_cons, List.mem_cons, ih hrest]
      constructor
      · rintro (rfl | rfl | ⟨hother, hentry⟩)
        · exact .inr ⟨Ne.symm hsame, .inl rfl⟩
        · exact .inl rfl
        · exact .inr ⟨hother, .inr hentry⟩
      · rintro (rfl | ⟨hother, rfl | hentry⟩)
        · exact .inr (.inl rfl)
        · exact .inl rfl
        · exact .inr (.inr ⟨hother, hentry⟩)

theorem ordered_insert (hordered : Ordered map) : Ordered (insert key value map) := by
  induction map with
  | nil => simp [insert, Ordered]
  | cons first rest ih =>
    have hall := hordered
    rw [ordered_cons_iff] at hordered
    obtain ⟨hfirst, hrest⟩ := hordered
    unfold insert
    split_ifs with hsame hbefore
    · rw [ordered_cons_iff]
      exact ⟨fun other hother ↦ hsame ▸ hfirst other hother, hrest⟩
    · rw [ordered_cons_iff]
      refine ⟨fun other hother ↦ ?_, hall⟩
      rcases List.mem_cons.mp hother with rfl | hlater
      · exact hbefore
      · exact hbefore.trans (hfirst other hlater)
    · rw [ordered_cons_iff]
      refine ⟨fun other hother ↦ ?_, ih hrest⟩
      rcases (mem_insert_iff hrest).mp hother with rfl | ⟨-, hlater⟩
      · exact lt_of_le_of_ne (not_lt.mp hbefore) (Ne.symm hsame)
      · exact hfirst other hlater

theorem ordered_collected (entries : List (Key × Value)) : Ordered (collected entries) := by
  induction entries using List.reverseRecOn with
  | nil => exact .nil
  | append_singleton entries entry ih =>
    rw [collected, List.foldl_append]
    exact ordered_insert ih

/-- Of several entries with one key the last one is in the map. -/
theorem mem_collected_iff {entries : List (Key × Value)} {entry : Key × Value} :
    entry ∈ collected entries ↔ ∃ before after, entries = before ++ entry :: after ∧
      ∀ later ∈ after, later.1 ≠ entry.1 := by
  induction entries using List.reverseRecOn with
  | nil => simp [collected]
  | append_singleton entries last ih =>
    have hinsert : collected (entries ++ [last]) = insert last.1 last.2 (collected entries) := by
      rw [collected, List.foldl_append]
      rfl
    rw [hinsert, mem_insert_iff (ordered_collected entries), ih]
    constructor
    · rintro (rfl | ⟨hother, before, after, rfl, hlater⟩)
      · exact ⟨entries, [], rfl, fun later hlater ↦ absurd hlater List.not_mem_nil⟩
      · refine ⟨before, after ++ [last], by simp, fun later hmem ↦ ?_⟩
        rcases List.mem_append.mp hmem with hafter | hlast
        · exact hlater later hafter
        · rw [List.mem_singleton.mp hlast]
          exact Ne.symm hother
    · rintro ⟨before, after, hsplit, hlater⟩
      rcases List.eq_nil_or_concat after with rfl | ⟨front, final, rfl⟩
      · obtain ⟨-, hlast⟩ := List.append_inj' hsplit rfl
        exact .inl (List.cons.inj hlast).1.symm
      · rw [List.concat_eq_append, ← List.cons_append, ← List.append_assoc] at hsplit
        obtain ⟨hfront, hlast⟩ := List.append_inj' hsplit rfl
        rw [List.concat_eq_append] at hlater
        refine .inr ⟨?_, before, front, hfront, fun later hmem ↦
          hlater later (List.mem_append_left _ hmem)⟩
        rw [(List.cons.inj hlast).1]
        exact (hlater final (List.mem_append_right _ List.mem_cons_self)).symm

end AnchoredLog.Library.SortedMap
