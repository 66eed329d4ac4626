import Mathlib.Data.Nat.Notation
import Mathlib.Data.List.Induction
import Mathlib.Data.List.Forall2
import Mathlib.Tactic.Common

/-!
# Hash transcripts and hash chains

Security of a construction over an unspecified hash is stated here as a reduction: either the
conclusion holds, or two different messages with one hash occur among the messages that were
actually hashed. `Collides` is that second alternative for a transcript of hashed messages, and
`eq_or_collides` its only introduction rule: two hashed messages with one digest are one message,
or they collide.

A hash chain folds a step message over a list of links from a first digest that is itself the
hash of an origin message. `chainHead_binds` is the binding theorem: chains with equal heads,
of any two lengths, have equal origins and equal links, or the messages they hashed collide. It
needs the step message to determine both of its arguments and never to be an origin message.
-/

set_option autoImplicit false
set_option relaxedAutoImplicit false

namespace AnchoredLog.Library.HashCollision

variable {Message Digest : Type}

/-! ### Collisions among hashed messages -/

/-- Two different messages of the transcript have the same hash. -/
def Collides (hash : Message → Digest) (transcript : List Message) : Prop :=
  ∃ first ∈ transcript, ∃ second ∈ transcript, first ≠ second ∧ hash first = hash second

variable {hash : Message → Digest} {transcript : List Message}

/-- Two hashed messages with one digest are one message, or they collide. -/
theorem eq_or_collides {first second : Message} (hfirst : first ∈ transcript)
    (hsecond : second ∈ transcript) (hdigest : hash first = hash second) :
    first = second ∨ Collides hash transcript := by
  by_cases heq : first = second
  · exact Or.inl heq
  · exact Or.inr ⟨first, hfirst, second, hsecond, heq, hdigest⟩

/-- Two different hashed messages with one digest collide. -/
theorem collides_of_ne {first second : Message} (hfirst : first ∈ transcript)
    (hsecond : second ∈ transcript) (hne : first ≠ second) (hdigest : hash first = hash second) :
    Collides hash transcript :=
  ⟨first, hfirst, second, hsecond, hne, hdigest⟩

theorem Collides.mono {larger : List Message} (hcollides : Collides hash transcript)
    (hsubset : transcript ⊆ larger) : Collides hash larger := by
  obtain ⟨first, hfirst, second, hsecond, hne, hdigest⟩ := hcollides
  exact ⟨first, hsubset hfirst, second, hsubset hsecond, hne, hdigest⟩

/-! ### Hash chains -/

variable {Link : Type}

/-- The head of a chain: the origin's digest, then one step message hashed for each link. -/
def chainHead (hash : Message → Digest) (step : Digest → Link → Message) (origin : Message)
    (links : List Link) : Digest :=
  links.foldl (fun head link ↦ hash (step head link)) (hash origin)

/-- The step messages a chain hashes from a given head on. -/
def chainSteps (hash : Message → Digest) (step : Digest → Link → Message) :
    Digest → List Link → List Message
  | _, [] => []
  | head, link :: links => step head link :: chainSteps hash step (hash (step head link)) links

/-- The messages a chain hashes, the origin first. -/
def chainTranscript (hash : Message → Digest) (step : Digest → Link → Message)
    (origin : Message) (links : List Link) : List Message :=
  origin :: chainSteps hash step (hash origin) links

variable {step : Digest → Link → Message} {origin otherOrigin : Message}

@[simp] theorem chainHead_nil : chainHead hash step origin [] = hash origin :=
  rfl

@[simp] theorem chainHead_concat (links : List Link) (link : Link) :
    chainHead hash step origin (links ++ [link]) =
      hash (step (chainHead hash step origin links) link) := by
  simp [chainHead]

theorem chainSteps_concat (head : Digest) (links : List Link) (link : Link) :
    chainSteps hash step head (links ++ [link]) =
      chainSteps hash step head links ++
        [step (links.foldl (fun reached link ↦ hash (step reached link)) head) link] := by
  induction links generalizing head with
  | nil => rfl
  | cons first links ih => simp [chainSteps, ih]

theorem chainTranscript_concat (links : List Link) (link : Link) :
    chainTranscript hash step origin (links ++ [link]) =
      chainTranscript hash step origin links ++
        [step (chainHead hash step origin links) link] := by
  simp [chainTranscript, chainSteps_concat, chainHead]

theorem origin_mem_chainTranscript (links : List Link) :
    origin ∈ chainTranscript hash step origin links :=
  List.mem_cons_self

theorem last_mem_chainTranscript (links : List Link) (link : Link) :
    step (chainHead hash step origin links) link ∈
      chainTranscript hash step origin (links ++ [link]) := by
  rw [chainTranscript_concat]
  exact List.mem_append_right _ List.mem_cons_self

/-- A chain's head binds its origin and its links: two chains with one head, of any lengths, are
one chain, or the messages they hashed collide. Assumes: a step message determines the head and
the link it was made from, and is neither origin. -/
theorem chainHead_binds
    (hstep : ∀ head link head' link', step head link = step head' link' →
      head = head' ∧ link = link')
    (horigin : ∀ head link, step head link ≠ origin)
    (hother : ∀ head link, step head link ≠ otherOrigin) (links links' : List Link)
    (hheads : chainHead hash step origin links = chainHead hash step otherOrigin links') :
    (origin = otherOrigin ∧ links = links') ∨
      Collides hash (chainTranscript hash step origin links ++
        chainTranscript hash step otherOrigin links') := by
  induction links using List.reverseRecOn generalizing links' with
  | nil =>
    cases links' using List.reverseRecOn with
    | nil =>
      rw [chainHead_nil, chainHead_nil] at hheads
      rcases eq_or_collides (List.mem_append_left _ (origin_mem_chainTranscript []))
        (List.mem_append_right _ (origin_mem_chainTranscript [])) hheads with heq | hcollides
      · exact Or.inl ⟨heq, rfl⟩
      · exact Or.inr hcollides
    | append_singleton links' link' =>
      rw [chainHead_nil, chainHead_concat] at hheads
      exact Or.inr (collides_of_ne (List.mem_append_left _ (origin_mem_chainTranscript []))
        (List.mem_append_right _ (last_mem_chainTranscript links' link')) (horigin _ _).symm
        hheads)
  | append_singleton links link ih =>
    cases links' using List.reverseRecOn with
    | nil =>
      rw [chainHead_nil, chainHead_concat] at hheads
      exact Or.inr (collides_of_ne (List.mem_append_left _ (last_mem_chainTranscript links link))
        (List.mem_append_right _ (origin_mem_chainTranscript [])) (hother _ _) hheads)
    | append_singleton links' link' =>
      rw [chainHead_concat, chainHead_concat] at hheads
      rcases eq_or_collides (List.mem_append_left _ (last_mem_chainTranscript links link))
        (List.mem_append_right _ (last_mem_chainTranscript links' link')) hheads with
        heq | hcollides
      · obtain ⟨hprevious, rfl⟩ := hstep _ _ _ _ heq
        rcases ih links' hprevious with ⟨hsame, rfl⟩ | hcollides
        · exact Or.inl ⟨hsame, rfl⟩
        · refine Or.inr (hcollides.mono fun message hmessage ↦ ?_)
          simp only [chainTranscript_concat, List.mem_append] at hmessage ⊢
          tauto
      · exact Or.inr hcollides

end AnchoredLog.Library.HashCollision
