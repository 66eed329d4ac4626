import Mathlib.Logic.Relation
import Mathlib.Tactic.Common

/-!
# Logs that only grow

A log is opened once with terms that never change. Items are appended to it in order, and every
item can be given one note, once. `Step` is one of these three moves, from and to a log that may
not have been opened. What any number of moves keeps is `Extends`: the terms, every item at its
position, and every note (`extends_of_steps`).
-/

set_option autoImplicit false
set_option relaxedAutoImplicit false

namespace AnchoredLog.Library.WriteOnceLog

variable {Terms Item Note : Type}

/-- An item of a log and its note, if it has one. -/
structure Entry (Item Note : Type) where
  item : Item
  note : Option Note
deriving DecidableEq

/-- A log that has been opened. -/
structure OpenLog (Terms Item Note : Type) where
  terms : Terms
  entries : List (Entry Item Note)
deriving DecidableEq

/-- The log with an item after the last. -/
def OpenLog.append (log : OpenLog Terms Item Note) (item : Item) : OpenLog Terms Item Note :=
  { log with entries := log.entries ++ [⟨item, none⟩] }

/-- The log with a note on the item at a position. -/
def OpenLog.annotate (log : OpenLog Terms Item Note) (index : ℕ) (note : Note) :
    OpenLog Terms Item Note :=
  { log with entries := log.entries.modify index fun entry ↦ { entry with note := some note } }

/-- One move. -/
inductive Step : Option (OpenLog Terms Item Note) → Option (OpenLog Terms Item Note) → Prop
  | opened (terms : Terms) : Step none (some ⟨terms, []⟩)
  | appended (log : OpenLog Terms Item Note) (item : Item) :
    Step (some log) (some (log.append item))
  | annotated (log : OpenLog Terms Item Note) {index : ℕ} {item : Item} (note : Note)
    (hentry : log.entries[index]? = some ⟨item, none⟩) :
    Step (some log) (some (log.annotate index note))

/-- Any number of moves. -/
abbrev Steps :
    Option (OpenLog Terms Item Note) → Option (OpenLog Terms Item Note) → Prop :=
  Relation.ReflTransGen Step

/-- The same item, with the note it had. -/
structure Entry.Keeps (earlier later : Entry Item Note) : Prop where
  item : later.item = earlier.item
  note : ∀ note, earlier.note = some note → later.note = some note

/-- The same terms, and every entry at its position. -/
structure OpenLog.Keeps (earlier later : OpenLog Terms Item Note) : Prop where
  terms : later.terms = earlier.terms
  entries : ∀ (index : ℕ) (entry : Entry Item Note), earlier.entries[index]? = some entry →
    ∃ kept, later.entries[index]? = some kept ∧ entry.Keeps kept

/-- A log that was open is open, and has kept what was in it. -/
def Extends (earlier later : Option (OpenLog Terms Item Note)) : Prop :=
  ∀ log, earlier = some log → ∃ kept, later = some kept ∧ log.Keeps kept

theorem Entry.Keeps.refl (entry : Entry Item Note) : entry.Keeps entry :=
  ⟨rfl, fun _ hnote ↦ hnote⟩

theorem Extends.refl (log : Option (OpenLog Terms Item Note)) : Extends log log :=
  fun opened hopened ↦ ⟨opened, hopened, rfl, fun _ entry hentry ↦ ⟨entry, hentry, .refl entry⟩⟩

theorem Extends.trans {first second third : Option (OpenLog Terms Item Note)}
    (hfirst : Extends first second) (hsecond : Extends second third) : Extends first third := by
  intro log hlog
  obtain ⟨middle, hmiddle, hkept⟩ := hfirst log hlog
  obtain ⟨last, hlast, hlater⟩ := hsecond middle hmiddle
  refine ⟨last, hlast, hlater.terms.trans hkept.terms, fun index entry hentry ↦ ?_⟩
  obtain ⟨between, hbetween, hentries⟩ := hkept.entries index entry hentry
  obtain ⟨kept, hread, hrest⟩ := hlater.entries index between hbetween
  exact ⟨kept, hread, hrest.item.trans hentries.item,
    fun note hnote ↦ hrest.note note (hentries.note note hnote)⟩

theorem OpenLog.entries_append (log : OpenLog Terms Item Note) (item : Item) (index : ℕ) :
    (log.append item).entries[index]? =
      if index = log.entries.length then some ⟨item, none⟩ else log.entries[index]? := by
  rw [OpenLog.append, List.getElem?_append]
  rcases Nat.lt_trichotomy index log.entries.length with hless | hsame | hgreater
  · rw [if_pos hless, if_neg (by omega)]
  · rw [if_neg (by omega), if_pos hsame, hsame, Nat.sub_self]
    rfl
  · rw [if_neg (by omega), if_neg (by omega), List.getElem?_eq_none (by simp; omega),
      List.getElem?_eq_none (by omega)]

theorem OpenLog.entries_annotate (log : OpenLog Terms Item Note) (position : ℕ) (note : Note)
    (index : ℕ) : (log.annotate position note).entries[index]? =
      if index = position then
        (log.entries[index]?).map fun entry ↦ { entry with note := some note }
      else log.entries[index]? := by
  rw [OpenLog.annotate, List.getElem?_modify]
  by_cases hsame : index = position
  · rw [if_pos hsame]
    simp [hsame]
  · rw [if_neg hsame]
    simp [Ne.symm hsame]

/-- One move keeps what was in the log. -/
theorem extends_step {earlier later : Option (OpenLog Terms Item Note)}
    (hstep : Step earlier later) : Extends earlier later := by
  cases hstep with
  | opened terms =>
    intro log hlog
    cases hlog
  | appended log item =>
    intro opened hopened
    obtain rfl := Option.some.inj hopened
    refine ⟨_, rfl, rfl, fun index entry hentry ↦ ⟨entry, ?_, .refl entry⟩⟩
    have hless : index < log.entries.length := (List.getElem?_eq_some_iff.mp hentry).1
    rw [OpenLog.entries_append, if_neg (by omega), hentry]
  | @annotated log position item note hfree =>
    intro opened hopened
    obtain rfl := Option.some.inj hopened
    refine ⟨_, rfl, rfl, fun index entry hentry ↦ ?_⟩
    rw [OpenLog.entries_annotate]
    by_cases hsame : index = position
    · rw [hsame, hfree, Option.some.injEq] at hentry
      refine ⟨⟨item, some note⟩, by rw [if_pos hsame, hsame, hfree]; rfl, ?_, ?_⟩
      · rw [← hentry]
      · intro earlier hearlier
        rw [← hentry] at hearlier
        cases hearlier
    · exact ⟨entry, by rw [if_neg hsame, hentry], .refl entry⟩

/-- Any number of moves keeps what was in the log. -/
theorem extends_of_steps {earlier later : Option (OpenLog Terms Item Note)}
    (hsteps : Steps earlier later) : Extends earlier later := by
  induction hsteps with
  | refl => exact .refl _
  | tail _ hstep ih => exact ih.trans (extends_step hstep)

end AnchoredLog.Library.WriteOnceLog
