import AnchoredLog.Library.Interactions

/-!
# Programs in a world that moves

A program asks its requests of a world that others change too. Between two requests of the program
the world may move, and a request changes the world and is answered by an `Effect`. `Safe` says of
a program that in every world it can meet, each request it asks is allowed and each output it ends
in is good: the requests are judged in the world they are asked in, the output in the world it is
returned in.

`Safe` is kept when the world moves (`safe_of_moves`), follows the program (`safe_bind`,
`safe_embed`), and holds of every program whose requests are all harmless (`safe_of_harmless`).
-/

set_option autoImplicit false
set_option relaxedAutoImplicit false

namespace AnchoredLog.Library.SharedWorld

open Interactions

variable {Request : Type} {Answer : Request → Type} {World Value Output : Type}

/-- What surrounds a program: how the world may move, what a request does, and which requests are
allowed. -/
structure Surroundings (Request : Type) (Answer : Request → Type) (World : Type) where
  Moves : World → World → Prop
  Effect : World → (asked : Request) → Answer asked → World → Prop
  Allowed : World → Request → Prop
  refl : ∀ world, Moves world world
  trans : ∀ first second third, Moves first second → Moves second third → Moves first third

variable (around : Surroundings Request Answer World)

/-- Whatever the world does, the program asks only what is allowed and ends only in what is
good. -/
def Safe (Good : World → Output → Prop) : World → Interaction Request Answer Output → Prop
  | world, .done output => ∀ later, around.Moves world later → Good later output
  | world, .ask asked next => ∀ later, around.Moves world later →
      around.Allowed later asked ∧
        ∀ answer after, around.Effect later asked answer after → Safe Good after (next answer)

variable {around} {Good : World → Output → Prop} {world later : World}

/-- A safe program is safe in every world it may find itself in. -/
theorem safe_of_moves {program : Interaction Request Answer Output}
    (hsafe : Safe around Good world program) (hmoves : around.Moves world later) :
    Safe around Good later program := by
  cases program with
  | done output => exact fun last hlast ↦ hsafe last (around.trans _ _ _ hmoves hlast)
  | ask asked next => exact fun last hlast ↦ hsafe last (around.trans _ _ _ hmoves hlast)

theorem Safe.mono {Better : World → Output → Prop}
    (hgood : ∀ world output, Good world output → Better world output)
    {program : Interaction Request Answer Output} (hsafe : Safe around Good world program) :
    Safe around Better world program := by
  induction program generalizing world with
  | done output => exact fun last hlast ↦ hgood last output (hsafe last hlast)
  | ask asked next ih =>
    intro last hlast
    obtain ⟨hallowed, hnext⟩ := hsafe last hlast
    exact ⟨hallowed, fun answer after heffect ↦ ih answer (hnext answer after heffect)⟩

/-- A program followed by another is safe when the other is, from every good output of the
first. -/
theorem safe_bind {Middle : World → Value → Prop} {program : Interaction Request Answer Value}
    (hprogram : Safe around Middle world program)
    {next : Value → Interaction Request Answer Output}
    (hnext : ∀ value later, Middle later value → Safe around Good later (next value)) :
    Safe around Good world (program >>= next) := by
  induction program generalizing world with
  | done value => exact hnext value world (hprogram world (around.refl world))
  | ask asked rest ih =>
    intro last hlast
    obtain ⟨hallowed, hrest⟩ := hprogram last hlast
    exact ⟨hallowed, fun answer after heffect ↦ ih answer (hrest answer after heffect)⟩

/-- The surroundings of a program that is one of a larger system. -/
def Surroundings.within {Smaller : Type} {SmallerAnswer : Smaller → Type}
    (around : Surroundings Request Answer World) (into : Smaller → Request)
    (back : (asked : Smaller) → Answer (into asked) → SmallerAnswer asked) :
    Surroundings Smaller SmallerAnswer World where
  Moves := around.Moves
  Effect := fun before asked answer after ↦
    ∃ larger, back asked larger = answer ∧ around.Effect before (into asked) larger after
  Allowed := fun world asked ↦ around.Allowed world (into asked)
  refl := around.refl
  trans := around.trans

/-- A program that is safe on its own is safe as one of the larger system. -/
theorem safe_embed {Smaller : Type} {SmallerAnswer : Smaller → Type} {into : Smaller → Request}
    {back : (asked : Smaller) → Answer (into asked) → SmallerAnswer asked}
    {program : Interaction Smaller SmallerAnswer Output}
    (hsafe : Safe (around.within into back) Good world program) :
    Safe around Good world (embed into back program) := by
  induction program generalizing world with
  | done output => exact hsafe
  | ask asked next ih =>
    intro last hlast
    obtain ⟨hallowed, hnext⟩ := hsafe last hlast
    exact ⟨hallowed, fun answer after heffect ↦
      ih (back asked answer) (hnext _ after ⟨answer, rfl, heffect⟩)⟩

/-- A program that asks nothing harmful keeps what every move and every harmless request keeps. -/
theorem safe_of_harmless {harmful : Request → Prop} {Kept : World → Prop}
    (hmoves : ∀ before after, Kept before → around.Moves before after → Kept after)
    (hharmless : ∀ before asked, Kept before → ¬ harmful asked → around.Allowed before asked ∧
      ∀ answer after, around.Effect before asked answer after → Kept after)
    {program : Interaction Request Answer Output} (hnone : AtMost harmful 0 program)
    (hkept : Kept world) : Safe around (fun later _ ↦ Kept later) world program := by
  induction program generalizing world with
  | done output => exact fun last hlast ↦ hmoves _ _ hkept hlast
  | ask asked next ih =>
    intro last hlast
    rcases hnone with ⟨hsafe, hnext⟩ | ⟨left, hleft, -⟩
    · obtain ⟨hallowed, heffects⟩ := hharmless last asked (hmoves _ _ hkept hlast) hsafe
      exact ⟨hallowed, fun answer after heffect ↦
        ih answer (hnext answer) (heffects answer after heffect)⟩
    · cases hleft

/-! ### One way the world may go -/

/-- A program in a world that stands still between its requests, and answers and changes in one
way. -/
def play (answers : World → (asked : Request) → Answer asked) (changes : World → Request → World) :
    World → Interaction Request Answer Output → World × Output
  | world, .done output => (world, output)
  | world, .ask asked next =>
    play answers changes (changes world asked) (next (answers world asked))

/-- What is left of such a program after a number of its requests. -/
def playFor (answers : World → (asked : Request) → Answer asked)
    (changes : World → Request → World) :
    ℕ → World → Interaction Request Answer Output → World × Interaction Request Answer Output
  | 0, world, program => (world, program)
  | _, world, .done output => (world, .done output)
  | count + 1, world, .ask asked next =>
    playFor answers changes count (changes world asked) (next (answers world asked))

end AnchoredLog.Library.SharedWorld
