import AnchoredLog.Library.HashCollision
import AnchoredLog.Port.DisclosureCompleteness

/-!
# What an established chain position rests on

A package that is reported as established has an anchor: the first sequence number, a head the
caller expects, a segment that is the whole chain, or a segment that starts at a head the caller
trusts. In the last two the head step folded over the leaves of the segment gives every listed
head, `prev_head` before the last entry and `chain.head` after it (`Folds`). A segment of one entry
under a trusted head is the one case the walk does not compare with `prev_head`; there the later
check of the head step closes the argument, up to a collision.

The other direction is a refusal: a segment with a link that does not follow, or that ends
elsewhere, is not accepted. And a head binds what leads to it: two accepted packages with one
`chain.head` carry the same record, the same `prev_head` and the same links as far as both
segments reach.

Collisions are among the messages the verifier hashed on the packages in question
(`hashedByVerifier`).
-/

set_option autoImplicit false
set_option relaxedAutoImplicit false

namespace AnchoredLog.Port.ChainPosition

open AnchoredLog.Core
open Core.Preimages Library.ByteCodec Library.Fallible Library.HashCollision Primitives
open JsonFields Disclosure DisclosureAcceptance

/-! ### What the verifier hashes -/

/-- The step messages between the links of a segment. -/
def linkMessages : List Link → List (List UInt8)
  | before :: link :: rest =>
    RecordChain.stepMessage before.head link.leaf :: linkMessages (link :: rest)
  | _ => []

/-- The step message under the anchor of a segment: from genesis when the segment is whole, else
from the head the caller trusts. -/
def anchorMessages (first : Link) (whole : Bool) (genesis : Digest)
    (trustedHead : Option (List UInt8)) : List (List UInt8) :=
  if whole then
    [RecordChain.stepMessage genesis first.leaf]
  else
    match trustedHead with
    | some octets =>
      if hwidth : octets.length = 32 then [RecordChain.stepMessage ⟨octets, hwidth⟩ first.leaf]
      else []
    | none => []

/-- The messages hashed while a segment is walked. -/
def segmentMessages (links : List Link) (seq : ℕ) (genesis : Digest)
    (trustedHead : Option (List UInt8)) : List (List UInt8) :=
  match links with
  | first :: rest =>
    anchorMessages first ((first :: rest).length == seq) genesis trustedHead ++
      linkMessages (first :: rest)
  | [] => []

section Verifier

variable (hasher : Hasher)

/-- The messages the chain section of the verifier hashes on a package: the leaf preimage, the
genesis head, the segment's steps and the step from `prev_head`. -/
def hashedByVerifier (evidence : Evidence) (context : Option ChainContext) : List (List UInt8) :=
  evidence.preimage.fields.flatten ::
    RecordChain.genesisMessage evidence.preimage.assetCommitment ::
    RecordChain.stepMessage evidence.prevHead (leafOf hasher evidence.preimage) ::
    (evidence.segment.map fun links ↦ segmentMessages links evidence.preimage.seq.toNat
      (genesisOf hasher evidence.preimage) (trustedHead context)).getD []

/-- The head step folded over leaves from a head. -/
def foldHeads (start : Digest) (leaves : List Digest) : Digest :=
  leaves.foldl (RecordChain.headStep hasher) start

/-- A segment is the fold of the head step over its leaves from a head: the fold gives every
listed head, `prevHead` before the last entry and `head` after it, and the last leaf is the
record's. -/
structure Folds (start : Digest) (links : List Link) (leaf prevHead head : Digest) : Prop where
  last : links.getLast?.map Link.leaf = some leaf
  listed : ∀ front link back, links = front ++ link :: back →
    foldHeads hasher start ((front ++ [link]).map Link.leaf) = link.head
  before : foldHeads hasher start (links.dropLast.map Link.leaf) = prevHead
  after : foldHeads hasher start (links.map Link.leaf) = head

/-- What anchors the position of a record. -/
inductive AnchoredPosition (evidence : Evidence) (context : Option ChainContext) : Prop
  | first (hseq : evidence.preimage.seq.toNat = 1)
      (hprevHead : evidence.prevHead = genesisOf hasher evidence.preimage)
  | expected (hexpected : expectedPrevHead context = some evidence.prevHead.octets)
  | whole (links : List Link) (hsegment : evidence.segment = some links)
      (hlength : links.length = evidence.preimage.seq.toNat)
      (hfolds : Folds hasher (genesisOf hasher evidence.preimage) links
        (leafOf hasher evidence.preimage) evidence.prevHead evidence.head)
  | trusted (links : List Link) (head : Digest) (hsegment : evidence.segment = some links)
      (htrusted : trustedHead context = some head.octets)
      (hfolds : Folds hasher head links (leafOf hasher evidence.preimage) evidence.prevHead
        evidence.head)

/-! ### A segment is a fold -/

variable {hasher}

/-- Links that follow one another from a head on fold to every head they list. -/
theorem foldHeads_of_isChain {start : Digest} {links : List Link}
    (hlinked : links.IsChain (Follows hasher))
    (hfirst : ∀ first ∈ links.head?, RecordChain.headStep hasher start first.leaf = first.head)
    {front back : List Link} {link : Link} (hsplit : links = front ++ link :: back) :
    foldHeads hasher start ((front ++ [link]).map Link.leaf) = link.head := by
  induction links generalizing start front with
  | nil => simp at hsplit
  | cons first rest ih =>
    have hstep := hfirst first rfl
    rw [List.isChain_cons] at hlinked
    cases front with
    | nil =>
      obtain ⟨rfl, -⟩ := List.cons.inj hsplit
      exact hstep
    | cons other front =>
      obtain ⟨rfl, hrest⟩ := List.cons.inj hsplit
      have htail := ih hlinked.2 (fun next hnext ↦ hlinked.1 next hnext) hrest
      rw [← hstep] at htail
      exact htail

/-- A segment that was walked, and whose first head follows from a head, is the fold from it. The
head before the last entry is the one thing the walk may leave open, and only for one entry. -/
theorem folds_of_walked {links : List Link} {seq : ℕ} {leaf prevHead head genesis start : Digest}
    {trustedHead : Option (List UInt8)}
    (hwalked : Walked hasher links seq leaf prevHead head genesis trustedHead)
    (hfirst : ∀ first ∈ links.head?, RecordChain.headStep hasher start first.leaf = first.head)
    (hsingle : links.length = 1 → start = prevHead) :
    Folds hasher start links leaf prevHead head := by
  have hlisted : ∀ front link back, links = front ++ link :: back →
      foldHeads hasher start ((front ++ [link]).map Link.leaf) = link.head :=
    fun _ _ _ hsplit ↦ foldHeads_of_isChain hwalked.linked hfirst hsplit
  have hlast := hwalked.last
  obtain ⟨front, rfl⟩ := List.getLast?_eq_some_iff.mp hlast
  constructor
  · rw [hlast, Option.map_some]
  · exact hlisted
  · have hsecond := hwalked.second
    rw [List.dropLast_concat] at hsecond ⊢
    rcases List.eq_nil_or_concat' front with rfl | ⟨earlier, second, rfl⟩
    · exact hsingle rfl
    · rw [List.getLast?_concat] at hsecond
      rw [hlisted earlier second [⟨leaf, head⟩] (by simp), hsecond second rfl]
  · exact hlisted front ⟨leaf, head⟩ [] rfl

theorem segmentMessages_subset {evidence : Evidence} {context : Option ChainContext}
    {links : List Link} (hsegment : evidence.segment = some links) :
    segmentMessages links evidence.preimage.seq.toNat (genesisOf hasher evidence.preimage)
      (trustedHead context) ⊆ hashedByVerifier hasher evidence context := by
  intro message hmessage
  rw [hashedByVerifier, hsegment, Option.map_some, Option.getD_some]
  exact List.mem_cons_of_mem _ (List.mem_cons_of_mem _ (List.mem_cons_of_mem _ hmessage))

theorem step_mem_hashedByVerifier (evidence : Evidence) (context : Option ChainContext) :
    RecordChain.stepMessage evidence.prevHead (leafOf hasher evidence.preimage) ∈
      hashedByVerifier hasher evidence context :=
  List.mem_cons_of_mem _ (List.mem_cons_of_mem _ List.mem_cons_self)

/-- The step from a trusted head is hashed when the segment is not whole. -/
theorem trusted_mem_segmentMessages {first : Link} {rest : List Link} {seq : ℕ}
    {genesis trusted : Digest} (hshort : (first :: rest).length ≠ seq) :
    RecordChain.stepMessage trusted first.leaf ∈
      segmentMessages (first :: rest) seq genesis (some trusted.octets) := by
  refine List.mem_append_left _ ?_
  unfold anchorMessages
  rw [if_neg (by simpa using hshort)]
  simp only [trusted.length_octets, dif_pos]
  exact List.mem_cons_self

theorem whole_mem_segmentMessages {first : Link} {rest : List Link} {seq : ℕ} {genesis : Digest}
    {trustedHead : Option (List UInt8)} (hwhole : (first :: rest).length = seq) :
    RecordChain.stepMessage genesis first.leaf ∈
      segmentMessages (first :: rest) seq genesis trustedHead := by
  refine List.mem_append_left _ ?_
  unfold anchorMessages
  rw [if_pos (by simpa using hwhole)]
  exact List.mem_cons_self

/-! ### An established position is anchored -/

variable {stringify : Option Json → String} {verifier : Verifier} {pkg : Json}
  {options : VerifyOptions} {evidence : Evidence}

/-- The fold from genesis, when the segment is the whole chain. -/
theorem folds_of_whole (haccepted : Accepted stringify hasher verifier pkg options evidence)
    {links : List Link} (hsegment : evidence.segment = some links)
    (hwhole : links.length = evidence.preimage.seq.toNat) :
    Folds hasher (genesisOf hasher evidence.preimage) links (leafOf hasher evidence.preimage)
      evidence.prevHead evidence.head := by
  have hwalked := haccepted.chain.walked links hsegment
  exact folds_of_walked hwalked (hwalked.anchored.whole hwhole)
    fun hone ↦ (hwalked.anchored.single hwhole hone).symm

/-- The fold from a trusted head, when the segment is shorter. With one entry, the trusted head and
`prev_head` lead to one head over one leaf. -/
theorem folds_of_trusted (haccepted : Accepted stringify hasher verifier pkg options evidence)
    {links : List Link} (hsegment : evidence.segment = some links)
    (hshort : links.length ≠ evidence.preimage.seq.toNat) {octets : List UInt8}
    (htrusted : trustedHead options.chainContext = some octets) :
    (∃ trusted : Digest, octets = trusted.octets ∧ Folds hasher trusted links
        (leafOf hasher evidence.preimage) evidence.prevHead evidence.head) ∨
      Collides hasher.hash (hashedByVerifier hasher evidence options.chainContext) := by
  have hwalked := haccepted.chain.walked links hsegment
  obtain ⟨trusted, rfl, hfirst⟩ := hwalked.anchored.trusted hshort octets htrusted
  by_cases hone : links.length = 1
  · obtain ⟨first, rfl⟩ := List.length_eq_one_iff.mp hone
    have hlast : first = ⟨leafOf hasher evidence.preimage, evidence.head⟩ :=
      Option.some.inj hwalked.last
    have hhash : hasher.hash (RecordChain.stepMessage trusted first.leaf) =
        hasher.hash (RecordChain.stepMessage evidence.prevHead
          (leafOf hasher evidence.preimage)) := by
      have hstep := (hfirst first rfl).trans (congrArg Link.head hlast)
      exact hstep.trans haccepted.chain.step.symm
    have hmember : RecordChain.stepMessage trusted first.leaf ∈
        hashedByVerifier hasher evidence options.chainContext := by
      refine segmentMessages_subset hsegment ?_
      rw [htrusted]
      exact trusted_mem_segmentMessages hshort
    rcases eq_or_collides hmember (step_mem_hashedByVerifier evidence options.chainContext)
      hhash with heq | hcollides
    · obtain ⟨hprev, -⟩ := stepHead_fields_injective heq
      exact Or.inl ⟨trusted, rfl, folds_of_walked hwalked hfirst fun _ ↦ hprev⟩
    · exact Or.inr hcollides
  · exact Or.inl ⟨trusted, rfl, folds_of_walked hwalked hfirst fun heq ↦ absurd heq hone⟩

theorem anchoredPosition_of_accepted
    (haccepted : Accepted stringify hasher verifier pkg options evidence)
    (hestablished : establishedBy evidence.segment evidence.preimage.seq.toNat
      options.chainContext = true) :
    AnchoredPosition hasher evidence options.chainContext ∨
      Collides hasher.hash (hashedByVerifier hasher evidence options.chainContext) := by
  cases hsegment : evidence.segment with
  | none =>
    rw [hsegment, establishedBy, Option.map_none, Option.getD_none, decide_eq_true_iff]
      at hestablished
    rcases hestablished with hone | hexpected
    · exact Or.inl (.first hone (haccepted.chain.first hsegment hone))
    · obtain ⟨octets, hoctets⟩ := Option.isSome_iff_exists.mp hexpected
      refine Or.inl (.expected ?_)
      rw [hoctets, haccepted.chain.expected octets hoctets]
  | some links =>
    rw [hsegment, establishedBy, Option.map_some, Option.getD_some, decide_eq_true_iff]
      at hestablished
    by_cases hwhole : links.length = evidence.preimage.seq.toNat
    · exact Or.inl (.whole links hsegment hwhole (folds_of_whole haccepted hsegment hwhole))
    · obtain ⟨octets, htrusted⟩ :=
        Option.isSome_iff_exists.mp (hestablished.resolve_left hwhole)
      rcases folds_of_trusted haccepted hsegment hwhole htrusted with
        ⟨trusted, rfl, hfolds⟩ | hcollides
      · exact Or.inl (.trusted links trusted hsegment htrusted hfolds)
      · exact Or.inr hcollides

/-! ### What is refused -/

/-- A segment that does not bear out the record it is given with: a listed head that does not
follow from the head before it and its own leaf, or an end at another leaf, another head or
another head before it. -/
inductive Unfounded (hasher : Hasher) (links : List Link) (leaf prevHead head : Digest) : Prop
  | broken (front back : List Link) (before link : Link)
      (hsplit : links = front ++ before :: link :: back)
      (hstep : RecordChain.headStep hasher before.head link.leaf ≠ link.head)
  | leaf (last : Link) (hlast : links.getLast? = some last) (hleaf : last.leaf ≠ leaf)
  | head (last : Link) (hlast : links.getLast? = some last) (hhead : last.head ≠ head)
  | prevHead (second : Link) (hsecond : links.dropLast.getLast? = some second)
      (hprevHead : second.head ≠ prevHead)

theorem not_unfounded_of_walked {links : List Link} {seq : ℕ}
    {leaf prevHead head genesis : Digest} {trustedHead : Option (List UInt8)}
    (hwalked : Walked hasher links seq leaf prevHead head genesis trustedHead) :
    ¬ Unfounded hasher links leaf prevHead head := by
  intro hunfounded
  cases hunfounded with
  | broken front back before link hsplit hstep =>
    have hlinked := hwalked.linked
    rw [hsplit, List.isChain_append_cons_cons] at hlinked
    exact hstep hlinked.2.1
  | leaf last hlast hleaf =>
    exact hleaf (congrArg Link.leaf (Option.some.inj (hlast.symm.trans hwalked.last)))
  | head last hlast hhead =>
    exact hhead (congrArg Link.head (Option.some.inj (hlast.symm.trans hwalked.last)))
  | prevHead second hsecond hprevHead => exact hprevHead (hwalked.second second hsecond)

/-- The chain section of a package as it is read: the heads, the octets of the preimage and the
links of the segment. -/
structure ReadSegment (stringify : Option Json → String) (pkg : Json) (octets : List UInt8)
    (prevHead head : Digest) (links : List Link) : Prop where
  preimage : readPreimage stringify pkg = .ok octets
  segment : ∃ chain raw, pkg.get "chain" = some chain ∧
    readHead chain "prev_head" = .ok prevHead.octets ∧ readHead chain "head" = .ok head.octets ∧
    chain.get "segment" = some (.array raw) ∧
    raw.zipIdx.mapM readStep = .ok (links.map stepOf)

theorem stepOf_injective : Function.Injective stepOf := by
  intro left right heq
  obtain ⟨hleaf, hhead⟩ := SegmentStep.mk.inj heq
  cases left
  cases right
  exact congrArg₂ Link.mk (Octets.ext hleaf) (Octets.ext hhead)

/-- The evidence of an accepted package is what its chain section reads as. -/
theorem evidence_of_readSegment
    (haccepted : Accepted stringify hasher verifier pkg options evidence) {octets : List UInt8}
    {prevHead head : Digest} {links : List Link}
    (hread : ReadSegment stringify pkg octets prevHead head links) :
    evidence.preimage.fields.flatten = octets ∧ evidence.prevHead = prevHead ∧
      evidence.head = head ∧ evidence.segment = some links := by
  obtain ⟨chain, raw, hchain, hprevHead, hhead, hraw, hlinks⟩ := hread.segment
  obtain ⟨-, hparts, -⟩ := get_of_openPackage haccepted.opened
  obtain rfl := Option.some.inj (hchain.symm.trans hparts)
  refine ⟨Except.ok.inj (haccepted.preimage.symm.trans hread.preimage), ?_, ?_, ?_⟩
  · exact Octets.ext (Except.ok.inj (haccepted.chain.readPrevHead.symm.trans hprevHead))
  · exact Octets.ext (Except.ok.inj (haccepted.chain.readHead.symm.trans hhead))
  · have hsegment := haccepted.chain.readSegment
    rw [hraw] at hsegment
    cases hsegmentOf : evidence.segment with
    | none =>
      rw [hsegmentOf] at hsegment
      cases hsegment
    | some found =>
      rw [hsegmentOf] at hsegment
      cases hsegment with
      | links hfound =>
        have hsame := Except.ok.inj (hfound.symm.trans hlinks)
        rw [stepOf_injective.list_map hsame]

/-- A package whose segment does not bear out its record is refused. -/
theorem refused_of_unfounded {octets : List UInt8} {prevHead head : Digest} {links : List Link}
    (hread : ReadSegment stringify pkg octets prevHead head links)
    (hunfounded : Unfounded hasher links (hasher.hash octets) prevHead head)
    {report : DisclosureReport}
    (hreport : verifyDisclosurePackage stringify hasher verifier pkg options = .ok report) :
    report.ok = false := by
  by_contra hok
  obtain ⟨evidence, haccepted, -⟩ :=
    exists_evidence_of_ok hreport (by simpa using hok)
  obtain ⟨rfl, rfl, rfl, hsegment⟩ := evidence_of_readSegment haccepted hread
  exact not_unfounded_of_walked (haccepted.chain.walked links hsegment) hunfounded

/-! ### A head binds what leads to it -/

/-- The head of a link follows from the head before it, and the step between them was hashed. -/
def HashedLink (hasher : Hasher) (transcript : List (List UInt8)) (before link : Link) : Prop :=
  Follows hasher before link ∧ RecordChain.stepMessage before.head link.leaf ∈ transcript

/-- One segment ends another: its heads are the last of the other's, and so are its links after
the first, whose leaf nothing before it pins. -/
structure Ends (shorter longer : List Link) : Prop where
  heads : shorter.map Link.head <:+ longer.map Link.head
  links : shorter.tail <:+ longer

theorem isChain_hashedLink {transcript : List (List UInt8)} {links : List Link}
    (hlinked : links.IsChain (Follows hasher)) (hsubset : linkMessages links ⊆ transcript) :
    links.IsChain (HashedLink hasher transcript) := by
  induction links with
  | nil => exact .nil
  | cons before links ih =>
    cases links with
    | nil => exact .singleton before
    | cons link rest =>
      rw [linkMessages, List.cons_subset] at hsubset
      rw [List.isChain_cons_cons] at hlinked ⊢
      exact ⟨⟨hlinked.1, hsubset.1⟩, ih hlinked.2 hsubset.2⟩

/-- Two heads that are one head, each a step that was hashed, have one predecessor and one leaf, or
the steps collide. -/
theorem step_eq_or_collides {transcript : List (List UInt8)} {head leaf head' leaf' : Digest}
    (hmember : RecordChain.stepMessage head leaf ∈ transcript)
    (hmember' : RecordChain.stepMessage head' leaf' ∈ transcript)
    (hheads : RecordChain.headStep hasher head leaf = RecordChain.headStep hasher head' leaf') :
    (head = head' ∧ leaf = leaf') ∨ Collides hasher.hash transcript := by
  rcases eq_or_collides hmember hmember' hheads with heq | hcollides
  · exact Or.inl (stepHead_fields_injective heq)
  · exact Or.inr hcollides

/-- Of two segments with one last head, the shorter ends the longer, or two steps collide. -/
theorem ends_or_collides {transcript : List (List UInt8)} {links links' : List Link}
    (hlinked : links.IsChain (HashedLink hasher transcript))
    (hlinked' : links'.IsChain (HashedLink hasher transcript))
    (hlength : links.length ≤ links'.length)
    (hlast : ∀ link ∈ links.getLast?, ∀ link' ∈ links'.getLast?, link.head = link'.head) :
    Ends links links' ∨ Collides hasher.hash transcript := by
  induction links using List.reverseRecOn generalizing links' with
  | nil => exact Or.inl ⟨List.nil_suffix, List.nil_suffix⟩
  | append_singleton front link ih =>
    obtain ⟨front', link', rfl⟩ : ∃ front' link', links' = front' ++ [link'] := by
      rcases List.eq_nil_or_concat' links' with rfl | hconcat
      · simp at hlength
      · exact hconcat
    simp only [List.length_append, List.length_singleton, Nat.add_le_add_iff_right] at hlength
    have hhead : link.head = link'.head :=
      hlast link (by simp) link' (by simp)
    rw [List.isChain_append] at hlinked hlinked'
    rcases List.eq_nil_or_concat' front with rfl | ⟨earlier, before, rfl⟩
    · refine Or.inl ⟨⟨front'.map Link.head, ?_⟩, List.nil_suffix⟩
      simp [hhead]
    · obtain ⟨earlier', before', rfl⟩ : ∃ earlier' before', front' = earlier' ++ [before'] := by
        rcases List.eq_nil_or_concat' front' with rfl | hconcat
        · simp at hlength
        · exact hconcat
      obtain ⟨hfollows, hmember⟩ := hlinked.2.2 before (by simp) link (by simp)
      obtain ⟨hfollows', hmember'⟩ := hlinked'.2.2 before' (by simp) link' (by simp)
      have hsteps := (hfollows.trans hhead).trans hfollows'.symm
      rcases step_eq_or_collides hmember hmember' hsteps with ⟨hbefore, hleaf⟩ | hcollides
      · have hlinkEq : link = link' := by
          cases link
          cases link'
          exact congrArg₂ Link.mk hleaf hhead
        have hbeforeLast : ∀ last ∈ (earlier ++ [before]).getLast?,
            ∀ last' ∈ (earlier' ++ [before']).getLast?, last.head = last'.head := by
          simpa using hbefore
        rcases ih hlinked.1 hlinked'.1 hlength hbeforeLast with hends | hcollides
        · refine Or.inl ⟨?_, ?_⟩
          · rw [hlinkEq, List.map_append, @List.map_append _ _ Link.head _ [link']]
            exact List.suffix_append_self_iff.mpr hends.heads
          · rw [List.tail_append_of_ne_nil (by simp), hlinkEq]
            exact List.suffix_append_self_iff.mpr hends.links
        · exact Or.inr hcollides
      · exact Or.inr hcollides

/-- Two whole segments, one of which ends the other, are one segment, or their first steps
collide. -/
theorem whole_eq_or_collides {transcript : List (List UInt8)} {links links' : List Link}
    {genesis : Digest} (hends : Ends links links') (hlength : links.length = links'.length)
    (hfirst : ∀ first ∈ links.head?, RecordChain.headStep hasher genesis first.leaf = first.head ∧
      RecordChain.stepMessage genesis first.leaf ∈ transcript)
    (hfirst' : ∀ first ∈ links'.head?,
      RecordChain.headStep hasher genesis first.leaf = first.head ∧
        RecordChain.stepMessage genesis first.leaf ∈ transcript) :
    links = links' ∨ Collides hasher.hash transcript := by
  cases links with
  | nil => exact Or.inl (List.eq_nil_of_length_eq_zero hlength.symm).symm
  | cons first rest =>
    cases links' with
    | nil => simp at hlength
    | cons first' rest' =>
      have hrest : rest = rest' := by
        rcases List.suffix_cons_iff.mp hends.links with heq | hsuffix
        · have hcount := congrArg List.length heq
          simp only [List.tail_cons, List.length_cons] at hcount hlength
          omega
        · exact hsuffix.eq_of_length (by simpa using hlength)
      have hheads := hends.heads.eq_of_length (by simpa using hlength)
      obtain ⟨hstep, hmember⟩ := hfirst first rfl
      obtain ⟨hstep', hmember'⟩ := hfirst' first' rfl
      have hhead : first.head = first'.head := (List.cons.inj hheads).1
      rcases step_eq_or_collides hmember hmember' ((hstep.trans hhead).trans hstep'.symm) with
        ⟨-, hleaf⟩ | hcollides
      · refine Or.inl ?_
        cases first
        cases first'
        exact congrArg₂ List.cons (congrArg₂ Link.mk hleaf hhead) hrest
      · exact Or.inr hcollides

/-- What two accepted packages with one head share: the record, the head before it, the links as
far as both segments reach, and the whole segment where both have it. -/
structure SameHistory (evidence evidence' : Evidence) : Prop where
  preimage : evidence.preimage = evidence'.preimage
  prevHead : evidence.prevHead = evidence'.prevHead
  ends : ∀ links ∈ evidence.segment, ∀ links' ∈ evidence'.segment,
    (links.length ≤ links'.length → Ends links links') ∧
      (links'.length ≤ links.length → Ends links' links)
  whole : ∀ links ∈ evidence.segment, ∀ links' ∈ evidence'.segment,
    links.length = evidence.preimage.seq.toNat → links'.length = evidence'.preimage.seq.toNat →
      links = links'

theorem linkMessages_subset {evidence : Evidence} {context : Option ChainContext}
    {links : List Link} (hsegment : evidence.segment = some links) :
    linkMessages links ⊆ hashedByVerifier hasher evidence context := by
  refine List.Subset.trans ?_ (segmentMessages_subset hsegment)
  cases links with
  | nil => exact List.nil_subset _
  | cons first rest => exact List.subset_append_right _ _

/-- A segment of an accepted package follows link by link, each step among those hashed. -/
theorem isChain_of_accepted (haccepted : Accepted stringify hasher verifier pkg options evidence)
    {links : List Link} (hsegment : evidence.segment = some links)
    {transcript : List (List UInt8)}
    (hsubset : hashedByVerifier hasher evidence options.chainContext ⊆ transcript) :
    links.IsChain (HashedLink hasher transcript) :=
  isChain_hashedLink (haccepted.chain.walked links hsegment).linked
    (List.Subset.trans (linkMessages_subset hsegment) hsubset)

/-- The first step of a whole segment of an accepted package starts at genesis and is hashed. -/
theorem first_of_accepted (haccepted : Accepted stringify hasher verifier pkg options evidence)
    {links : List Link} (hsegment : evidence.segment = some links)
    (hwhole : links.length = evidence.preimage.seq.toNat) {transcript : List (List UInt8)}
    (hsubset : hashedByVerifier hasher evidence options.chainContext ⊆ transcript) :
    ∀ first ∈ links.head?,
      RecordChain.headStep hasher (genesisOf hasher evidence.preimage) first.leaf = first.head ∧
        RecordChain.stepMessage (genesisOf hasher evidence.preimage) first.leaf ∈ transcript := by
  intro first hfirst
  refine ⟨(haccepted.chain.walked links hsegment).anchored.whole hwhole first hfirst, ?_⟩
  cases links with
  | nil => simp at hfirst
  | cons head rest =>
    obtain rfl := Option.some.inj hfirst
    exact hsubset (segmentMessages_subset hsegment (whole_mem_segmentMessages hwhole))

/-- Two accepted packages with one head share their history, or what was hashed on them
collides. -/
theorem sameHistory_or_collides {pkg' : Json} {options' : VerifyOptions} {evidence' : Evidence}
    (haccepted : Accepted stringify hasher verifier pkg options evidence)
    (haccepted' : Accepted stringify hasher verifier pkg' options' evidence')
    (hhead : evidence.head = evidence'.head) :
    SameHistory evidence evidence' ∨
      Collides hasher.hash (hashedByVerifier hasher evidence options.chainContext ++
        hashedByVerifier hasher evidence' options'.chainContext) := by
  by_contra hnot
  rw [not_or] at hnot
  obtain ⟨hdiffer, hfree⟩ := hnot
  have hleft := List.subset_append_left
    (hashedByVerifier hasher evidence options.chainContext)
    (hashedByVerifier hasher evidence' options'.chainContext)
  have hright := List.subset_append_right
    (hashedByVerifier hasher evidence options.chainContext)
    (hashedByVerifier hasher evidence' options'.chainContext)
  have hstep := (haccepted.chain.step.trans hhead).trans haccepted'.chain.step.symm
  obtain ⟨hprevHead, hleaf⟩ := (step_eq_or_collides
    (hleft (step_mem_hashedByVerifier evidence options.chainContext))
    (hright (step_mem_hashedByVerifier evidence' options'.chainContext)) hstep).resolve_right hfree
  have hpreimage := leaf_fields_injective ((eq_or_collides (hleft List.mem_cons_self)
    (hright List.mem_cons_self) hleaf).resolve_right hfree)
  have hlast : ∀ links ∈ evidence.segment, ∀ links' ∈ evidence'.segment,
      ∀ link ∈ links.getLast?, ∀ link' ∈ links'.getLast?, link.head = link'.head := by
    intro links hlinks links' hlinks' link hlink link' hlink'
    rw [(haccepted.chain.walked links hlinks).last] at hlink
    rw [(haccepted'.chain.walked links' hlinks').last] at hlink'
    rw [← Option.some.inj hlink, ← Option.some.inj hlink']
    exact hhead
  have hends : ∀ links ∈ evidence.segment, ∀ links' ∈ evidence'.segment,
      links.length ≤ links'.length → Ends links links' := by
    intro links hlinks links' hlinks' hlength
    exact (ends_or_collides (isChain_of_accepted haccepted hlinks hleft)
      (isChain_of_accepted haccepted' hlinks' hright) hlength
      (hlast links hlinks links' hlinks')).resolve_right hfree
  refine hdiffer ⟨hpreimage, hprevHead, fun links hlinks links' hlinks' ↦ ⟨hends links hlinks links'
    hlinks', fun hlength ↦ ?_⟩, fun links hlinks links' hlinks' hwhole hwhole' ↦ ?_⟩
  · exact (ends_or_collides (isChain_of_accepted haccepted' hlinks' hright)
      (isChain_of_accepted haccepted hlinks hleft) hlength fun link' hlink' link hlink ↦
        (hlast links hlinks links' hlinks' link hlink link' hlink').symm).resolve_right hfree
  · have hlength : links.length = links'.length := by
      rw [hwhole, hwhole', hpreimage]
    have hfirst' := first_of_accepted haccepted' hlinks' hwhole' hright
    rw [← hpreimage] at hfirst'
    exact (whole_eq_or_collides (hends links hlinks links' hlinks' hlength.le) hlength
      (first_of_accepted haccepted hlinks hwhole hleft) hfirst').resolve_right hfree

end Verifier

/-- A chain position reported as established is anchored. For every package and options: an
accepted package whose position is established has one of the four anchors, or two messages
hashed on it collide; a package whose segment has a head that does not follow, or that ends at
another leaf, head or previous head, is refused; and two accepted packages with one head carry one
record, one previous head and one history as far as both segments reach, or two messages hashed on
them collide. -/
theorem established_position_anchored (stringify : Option Json → String) (hasher : Hasher)
    (verifier : Verifier) :
    (∀ pkg options report,
      verifyDisclosurePackage stringify hasher verifier pkg options = .ok report →
      report.ok = true → report.chainPosition.established = true →
      ∃ evidence, Accepted stringify hasher verifier pkg options evidence ∧
        (AnchoredPosition hasher evidence options.chainContext ∨
          Collides hasher.hash (hashedByVerifier hasher evidence options.chainContext))) ∧
    (∀ pkg options octets prevHead head links,
      ReadSegment stringify pkg octets prevHead head links →
      Unfounded hasher links (hasher.hash octets) prevHead head →
      ∀ report, verifyDisclosurePackage stringify hasher verifier pkg options = .ok report →
        report.ok = false) ∧
    ∀ pkg pkg' options options' report report',
      verifyDisclosurePackage stringify hasher verifier pkg options = .ok report →
      report.ok = true →
      verifyDisclosurePackage stringify hasher verifier pkg' options' = .ok report' →
      report'.ok = true →
      ∃ evidence evidence', Accepted stringify hasher verifier pkg options evidence ∧
        Accepted stringify hasher verifier pkg' options' evidence' ∧
        (evidence.head = evidence'.head → SameHistory evidence evidence' ∨
          Collides hasher.hash (hashedByVerifier hasher evidence options.chainContext ++
            hashedByVerifier hasher evidence' options'.chainContext)) := by
  refine ⟨?_, ?_, ?_⟩
  · intro pkg options report hreport hok hestablished
    obtain ⟨evidence, haccepted, hfindings⟩ := exists_evidence_of_ok hreport hok
    have hposition := (congrArg Findings.established hfindings).symm.trans hestablished
    exact ⟨evidence, haccepted, anchoredPosition_of_accepted haccepted hposition⟩
  · intro pkg options octets prevHead head links hread hunfounded report hreport
    exact refused_of_unfounded hread hunfounded hreport
  · intro pkg pkg' options options' report report' hreport hok hreport' hok'
    obtain ⟨evidence, haccepted, -⟩ := exists_evidence_of_ok hreport hok
    obtain ⟨evidence', haccepted', -⟩ := exists_evidence_of_ok hreport' hok'
    exact ⟨evidence, evidence', haccepted, haccepted',
      fun hhead ↦ sameHistory_or_collides haccepted haccepted' hhead⟩

/-! ### The packages of a second record -/

/-- The package of a record is read as it was written. -/
theorem readSegment_contentsOf (stringify : Option Json → String) {hasher : Hasher}
    {assetCommitment prevHead : Digest} {r : RecordChain.RecordLeafInput} {flags : UInt16}
    {links : List Link} {signature : Signature} {proof : Log.EpochTree.InclusionProof} :
    ReadSegment stringify
      (DisclosureCompleteness.contentsOf hasher assetCommitment r flags prevHead (some links)
        signature proof).package
      (RecordChain.leafMessage assetCommitment r) prevHead
      (RecordChain.headStep hasher prevHead (RecordChain.leafDigest hasher assetCommitment r))
      links where
  preimage := DisclosureCompleteness.readPreimage_package stringify _
  segment := by
    refine ⟨_, _, rfl, DisclosureCompleteness.readHead_hexText rfl prevHead.length_octets,
      DisclosureCompleteness.readHead_hexText rfl (Octets.length_octets _), rfl, ?_⟩
    rw [List.map_map]
    exact mapM_zipIdx_map DisclosureCompleteness.readStep_entryJson links 0

/-- A link to no record. -/
def strayLink : Link :=
  ⟨Octets.zeros 32, Octets.zeros 32⟩

/-- The packages of a second record, with its own link and with both: the first is established, both
carry one history, and with a stray link it would be refused. -/
theorem established_position_anchored_pair :
    ∃ built pkg stray whole report other,
      Log.EpochTree.build residueHasher 20000 4 (Octets.zeros 32)
        DisclosureCompleteness.submittedPair = .ok built ∧
      verifyDisclosurePackage (fun _ ↦ "") residueHasher permissiveVerifier pkg
        (DisclosureCompleteness.holderOptions built.root) = .ok report ∧
      report.ok = true ∧ report.chainPosition.established = true ∧
      (∃ evidence, Accepted (fun _ ↦ "") residueHasher permissiveVerifier pkg
          (DisclosureCompleteness.holderOptions built.root) evidence ∧
        (AnchoredPosition residueHasher evidence
            (DisclosureCompleteness.holderOptions built.root).chainContext ∨
          Collides residueHasher.hash (hashedByVerifier residueHasher evidence
            (DisclosureCompleteness.holderOptions built.root).chainContext))) ∧
      (∀ report, verifyDisclosurePackage (fun _ ↦ "") residueHasher permissiveVerifier stray
          (DisclosureCompleteness.holderOptions built.root) = .ok report →
        report.ok = false) ∧
      verifyDisclosurePackage (fun _ ↦ "") residueHasher permissiveVerifier whole
        (DisclosureCompleteness.holderOptions built.root) = .ok other ∧
      other.ok = true ∧
      ∃ evidence evidence', Accepted (fun _ ↦ "") residueHasher permissiveVerifier pkg
          (DisclosureCompleteness.holderOptions built.root) evidence ∧
        Accepted (fun _ ↦ "") residueHasher permissiveVerifier whole
          (DisclosureCompleteness.holderOptions built.root) evidence' ∧
        (SameHistory evidence evidence' ∨
          Collides residueHasher.hash (hashedByVerifier residueHasher evidence
              (DisclosureCompleteness.holderOptions built.root).chainContext ++
            hashedByVerifier residueHasher evidence'
              (DisclosureCompleteness.holderOptions built.root).chainContext)) := by
  obtain ⟨built, before, applied, signature, proof, hbuild, -, haccepted⟩ :=
    DisclosureCompleteness.exists_accepted_pair
  obtain ⟨report, hreport, hok, hfindings⟩ := exists_report_of_accepted (haccepted 1 le_rfl)
  obtain ⟨other, hother, hotherok, -⟩ := exists_report_of_accepted (haccepted 0 (Nat.zero_le 1))
  have hestablished : report.chainPosition.established = true :=
    (congrArg Findings.established hfindings).trans rfl
  obtain ⟨hanchored, hrefused, hbinds⟩ :=
    established_position_anchored (fun _ ↦ "") residueHasher permissiveVerifier
  obtain ⟨evidence, evidence', hevidence, hevidence', hsame⟩ :=
    hbinds _ _ _ _ _ _ hreport hok hother hotherok
  obtain ⟨-, -, hhead, -⟩ := evidence_of_readSegment hevidence (readSegment_contentsOf _)
  obtain ⟨-, -, hhead', -⟩ := evidence_of_readSegment hevidence' (readSegment_contentsOf _)
  refine ⟨built, _, _, _, report, other, hbuild, hreport, hok, hestablished,
    hanchored _ _ report hreport hok hestablished,
    hrefused _ _ _ _ _ [strayLink] (@readSegment_contentsOf (fun _ ↦ "") residueHasher
      (Octets.zeros 32) before.head RecordHistory.nextRecord applied.flags _ signature proof)
      (.leaf strayLink rfl ?_),
    hother, hotherok, evidence, evidence', hevidence, hevidence', hsame ?_⟩
  · decide +kernel
  · exact hhead.trans hhead'.symm

end AnchoredLog.Port.ChainPosition
