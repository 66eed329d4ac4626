import Mathlib.Tactic.Common

/-!
# Programs that ask their environment

An `Interaction` is a program that is done with an output or asks a request and goes on with the
answer. It terminates whatever the answers are, and says nothing about what they can be; a system
runs it by answering one request after the other, and `answerWith` runs it against answers that are
a function of the request.

`Guarded` bounds what such a program concludes from what it was told: it ends in a good output
only after an answer that is evidence. `AtMost` bounds how often it asks: on no path does it make
more than a number of the counted requests. Both follow the program: `guarded_bind` and
`atMost_bind` are their rules for one program followed by another.
-/

set_option autoImplicit false
set_option relaxedAutoImplicit false

namespace AnchoredLog.Library.Interactions

/-- A program that asks requests and ends in an output. -/
inductive Interaction (Request : Type) (Answer : Request → Type) (Output : Type) : Type
  | done (output : Output)
  | ask (request : Request) (next : Answer request → Interaction Request Answer Output)

variable {Request : Type} {Answer : Request → Type} {Value Output : Type}

/-- One program followed by another on its output. -/
def andThen : Interaction Request Answer Value → (Value → Interaction Request Answer Output) →
    Interaction Request Answer Output
  | .done value, next => next value
  | .ask request rest, next => .ask request fun answer ↦ andThen (rest answer) next

instance monadInteraction : Monad (Interaction Request Answer) where
  pure := .done
  bind := andThen

/-- The program that asks one request and ends in its answer. -/
def request (asked : Request) : Interaction Request Answer (Answer asked) :=
  .ask asked .done

@[simp] theorem pure_eq_done (value : Value) :
    (pure value : Interaction Request Answer Value) = .done value :=
  rfl

@[simp] theorem done_bind (value : Value) (next : Value → Interaction Request Answer Output) :
    (Interaction.done value >>= next) = next value :=
  rfl

@[simp] theorem ask_bind (asked : Request) (rest : Answer asked → Interaction Request Answer Value)
    (next : Value → Interaction Request Answer Output) :
    (Interaction.ask asked rest >>= next) = .ask asked fun answer ↦ rest answer >>= next :=
  rfl

@[simp] theorem request_bind (asked : Request)
    (next : Answer asked → Interaction Request Answer Output) :
    (request asked >>= next) = .ask asked next :=
  rfl

/-! ### Answering every request -/

/-- The output of a program all of whose requests are answered by a function. -/
def answerWith (answers : (asked : Request) → Answer asked) :
    Interaction Request Answer Output → Output
  | .done output => output
  | .ask asked next => answerWith answers (next (answers asked))

@[simp] theorem answerWith_done (answers : (asked : Request) → Answer asked) (output : Output) :
    answerWith answers (.done output) = output :=
  rfl

@[simp] theorem answerWith_ask (answers : (asked : Request) → Answer asked) (asked : Request)
    (next : Answer asked → Interaction Request Answer Output) :
    answerWith answers (.ask asked next) = answerWith answers (next (answers asked)) :=
  rfl

@[simp] theorem answerWith_bind (answers : (asked : Request) → Answer asked)
    (program : Interaction Request Answer Value)
    (next : Value → Interaction Request Answer Output) :
    answerWith answers (program >>= next) =
      answerWith answers (next (answerWith answers program)) := by
  induction program with
  | done value => rfl
  | ask asked rest ih => exact ih (answers asked)

/-! ### Answering in turn -/

/-- The requests a program makes and its output, when an answer may depend on how many requests were
made before it as well as on the request. -/
def conduct (answers : ℕ → (asked : Request) → Answer asked) :
    ℕ → Interaction Request Answer Output → List Request × Output
  | _, .done output => ([], output)
  | made, .ask asked next =>
    let rest := conduct answers (made + 1) (next (answers made asked))
    (asked :: rest.1, rest.2)

variable {inTurn : ℕ → (asked : Request) → Answer asked}

@[simp] theorem conduct_done (made : ℕ) (output : Output) :
    conduct inTurn made (.done output : Interaction Request Answer Output) = ([], output) :=
  rfl

@[simp] theorem conduct_ask (made : ℕ) (asked : Request)
    (next : Answer asked → Interaction Request Answer Output) :
    conduct inTurn made (.ask asked next) =
      (asked :: (conduct inTurn (made + 1) (next (inTurn made asked))).1,
        (conduct inTurn (made + 1) (next (inTurn made asked))).2) :=
  rfl

/-- A program that asks nothing after another adds no request. -/
theorem conduct_bind_done {after : Value → Output} (made : ℕ)
    (program : Interaction Request Answer Value)
    {next : Value → Interaction Request Answer Output}
    (hnext : ∀ value, next value = .done (after value)) :
    conduct inTurn made (program >>= next) =
      ((conduct inTurn made program).1, after (conduct inTurn made program).2) := by
  induction program generalizing made with
  | done value => rw [done_bind, hnext, conduct_done, conduct_done]
  | ask asked rest ih => rw [ask_bind, conduct_ask, conduct_ask, ih]

/-- The program may end in an output, whatever each of its requests is answered with. -/
inductive Ends : Interaction Request Answer Output → Output → Prop
  | done (output : Output) : Ends (.done output) output
  | ask {asked : Request} {next : Answer asked → Interaction Request Answer Output}
      {output : Output} (answer : Answer asked) (hends : Ends (next answer) output) :
      Ends (.ask asked next) output

theorem ends_answerWith (answers : (asked : Request) → Answer asked)
    (program : Interaction Request Answer Output) : Ends program (answerWith answers program) := by
  induction program with
  | done output => exact .done output
  | ask asked next ih => exact .ask (answers asked) (ih (answers asked))

@[simp] theorem ends_done_iff {output ending : Output} :
    Ends (.done output : Interaction Request Answer Output) ending ↔ ending = output := by
  constructor
  · rintro ⟨⟩
    rfl
  · rintro rfl
    exact .done ending

/-- A sequence ends where its second part may end after an end of the first. -/
theorem ends_bind_iff {program : Interaction Request Answer Value}
    {next : Value → Interaction Request Answer Output} {output : Output} :
    Ends (program >>= next) output ↔ ∃ value, Ends program value ∧ Ends (next value) output := by
  induction program with
  | done value =>
    constructor
    · exact fun hends ↦ ⟨value, .done value, hends⟩
    · rintro ⟨other, hother, hends⟩
      cases hother
      exact hends
  | ask asked rest ih =>
    constructor
    · intro hends
      cases hends with
      | ask answer hrest =>
        obtain ⟨value, hvalue, houtput⟩ := (ih answer).mp hrest
        exact ⟨value, .ask answer hvalue, houtput⟩
    · rintro ⟨value, hvalue, houtput⟩
      cases hvalue with
      | ask answer hrest => exact .ask answer ((ih answer).mpr ⟨value, hrest, houtput⟩)

/-! ### A larger system of requests -/

/-- The program as one of a larger system, whose answers to its requests are the same. -/
def embed {Larger : Type} {LargerAnswer : Larger → Type} (into : Request → Larger)
    (back : (asked : Request) → LargerAnswer (into asked) → Answer asked) :
    Interaction Request Answer Output → Interaction Larger LargerAnswer Output
  | .done output => .done output
  | .ask asked next => .ask (into asked) fun answer ↦ embed into back (next (back asked answer))

theorem answerWith_embed {Larger : Type} {LargerAnswer : Larger → Type} (into : Request → Larger)
    (back : (asked : Request) → LargerAnswer (into asked) → Answer asked)
    (answers : (asked : Larger) → LargerAnswer asked)
    (program : Interaction Request Answer Output) :
    answerWith answers (embed into back program) =
      answerWith (fun asked ↦ back asked (answers (into asked))) program := by
  induction program with
  | done output => rfl
  | ask asked next ih => exact ih (back asked (answers (into asked)))

/-! ### Conclusions from evidence -/

/-- The program ends in a good output only when evidence was seen before it ran or an answer it
got is evidence. -/
def Guarded (evidence : (asked : Request) → Answer asked → Prop) (Good : Output → Prop) :
    Prop → Interaction Request Answer Output → Prop
  | seen, .done output => Good output → seen
  | seen, .ask asked next => ∀ answer, Guarded evidence Good (seen ∨ evidence asked answer)
      (next answer)

variable {evidence : (asked : Request) → Answer asked → Prop} {Good : Output → Prop}

/-- Once evidence was seen, every conclusion is guarded. -/
theorem guarded_of_seen {seen : Prop} (hseen : seen)
    (program : Interaction Request Answer Output) : Guarded evidence Good seen program := by
  induction program generalizing seen with
  | done output => exact fun _ ↦ hseen
  | ask asked next ih => exact fun answer ↦ ih answer (.inl hseen)

/-- More evidence guards the same conclusions. -/
theorem Guarded.mono {seen more : Prop} (hmore : seen → more)
    {program : Interaction Request Answer Output} (hguarded : Guarded evidence Good seen program) :
    Guarded evidence Good more program := by
  induction program generalizing seen more with
  | done output => exact fun hgood ↦ hmore (hguarded hgood)
  | ask asked next ih =>
    exact fun answer ↦ ih answer (Or.imp_left hmore) (hguarded answer)

/-- A program followed by another is guarded when the other is, given what the first tells. -/
theorem guarded_bind {Tells : Value → Prop} {seen : Prop}
    {program : Interaction Request Answer Value}
    (hprogram : Guarded evidence Tells seen program)
    {next : Value → Interaction Request Answer Output}
    (hnext : ∀ value, Guarded evidence Good (seen ∨ Tells value) (next value)) :
    Guarded evidence Good seen (program >>= next) := by
  induction program generalizing seen with
  | done value =>
    exact (hnext value).mono fun htold ↦ htold.elim id hprogram
  | ask asked rest ih =>
    intro answer
    exact ih answer (hprogram answer) fun value ↦ (hnext value).mono (Or.imp_left Or.inl)

/-! ### Counting requests -/

/-- On no path does the program make more than `bound` of the counted requests. -/
def AtMost (counted : Request → Prop) :
    ℕ → Interaction Request Answer Output → Prop
  | _, .done _ => True
  | bound, .ask asked next =>
      (¬ counted asked ∧ ∀ answer, AtMost counted bound (next answer)) ∨
        ∃ left, bound = left + 1 ∧ ∀ answer, AtMost counted left (next answer)

variable {counted : Request → Prop}

theorem atMost_done (bound : ℕ) (output : Output) :
    AtMost counted bound (.done output : Interaction Request Answer Output) :=
  trivial

theorem AtMost.mono {bound more : ℕ} (hmore : bound ≤ more)
    {program : Interaction Request Answer Output} (hbound : AtMost counted bound program) :
    AtMost counted more program := by
  induction program generalizing bound more with
  | done output => trivial
  | ask asked next ih =>
    rcases hbound with ⟨huncounted, hnext⟩ | ⟨left, hleft, hnext⟩
    · exact .inl ⟨huncounted, fun answer ↦ ih answer hmore (hnext answer)⟩
    · exact .inr ⟨more - 1, by omega, fun answer ↦ ih answer (by omega) (hnext answer)⟩

/-- The bound holds when fewer requests are counted. -/
theorem AtMost.of_imp {fewer : Request → Prop} (hfewer : ∀ asked, fewer asked → counted asked)
    {bound : ℕ} {program : Interaction Request Answer Output}
    (hbound : AtMost counted bound program) : AtMost fewer bound program := by
  induction program generalizing bound with
  | done output => trivial
  | ask asked next ih =>
    rcases hbound with ⟨huncounted, hnext⟩ | ⟨left, hleft, hnext⟩
    · exact .inl ⟨fun hcounted ↦ huncounted (hfewer asked hcounted), fun answer ↦
        ih answer (hnext answer)⟩
    · exact .inr ⟨left, hleft, fun answer ↦ ih answer (hnext answer)⟩

/-- A program makes no request of a kind there is none of. -/
theorem atMost_of_never (hnever : ∀ asked, ¬ counted asked)
    (program : Interaction Request Answer Output) : AtMost counted 0 program := by
  induction program with
  | done output => trivial
  | ask asked next ih => exact .inl ⟨hnever asked, ih⟩

/-- The counts of a program and of what follows it add up. -/
theorem atMost_bind {first second : ℕ} {program : Interaction Request Answer Value}
    (hprogram : AtMost counted first program)
    {next : Value → Interaction Request Answer Output}
    (hnext : ∀ value, AtMost counted second (next value)) :
    AtMost counted (first + second) (program >>= next) := by
  induction program generalizing first with
  | done value => exact (hnext value).mono (Nat.le_add_left second first)
  | ask asked rest ih =>
    rcases hprogram with ⟨huncounted, hrest⟩ | ⟨left, rfl, hrest⟩
    · exact .inl ⟨huncounted, fun answer ↦ ih answer (hrest answer)⟩
    · exact .inr ⟨left + second, by omega, fun answer ↦ ih answer (hrest answer)⟩

/-- A program without counted requests adds nothing to what follows it. -/
theorem atMost_uncounted_bind {bound : ℕ} {program : Interaction Request Answer Value}
    (hprogram : AtMost counted 0 program) {next : Value → Interaction Request Answer Output}
    (hnext : ∀ value, AtMost counted bound (next value)) :
    AtMost counted bound (program >>= next) := by
  have hsum := atMost_bind hprogram hnext
  rwa [Nat.zero_add] at hsum

/-- A program that asks none of the counted requests asks none of them when it is conducted. -/
theorem not_counted_of_mem_conduct {answers : ℕ → (asked : Request) → Answer asked} {made : ℕ}
    {program : Interaction Request Answer Output} (hnone : AtMost counted 0 program)
    {asked : Request} (hasked : asked ∈ (conduct answers made program).1) : ¬ counted asked := by
  induction program generalizing made with
  | done output => cases hasked
  | ask first next ih =>
    rcases hnone with ⟨hfirst, hnext⟩ | ⟨left, hleft, -⟩
    · rcases List.mem_cons.mp hasked with rfl | hrest
      · exact hfirst
      · exact ih _ (hnext _) hrest
    · cases hleft

/-- A program makes as many counted requests as one of a larger system. -/
theorem atMost_embed {Larger : Type} {LargerAnswer : Larger → Type} {into : Request → Larger}
    {back : (asked : Request) → LargerAnswer (into asked) → Answer asked} {counted : Larger → Prop}
    {bound : ℕ} {program : Interaction Request Answer Output}
    (hbound : AtMost (fun asked ↦ counted (into asked)) bound program) :
    AtMost counted bound (embed into back program) := by
  induction program generalizing bound with
  | done output => trivial
  | ask asked next ih =>
    rcases hbound with ⟨huncounted, hnext⟩ | ⟨left, hleft, hnext⟩
    · exact .inl ⟨huncounted, fun answer ↦ ih _ (hnext _)⟩
    · exact .inr ⟨left, hleft, fun answer ↦ ih _ (hnext _)⟩

end AnchoredLog.Library.Interactions
