import AnchoredLog.Port.DisclosureCompleteness

/-!
# Adding a segment to an accepted package

A package without a segment whose position is established, by the first sequence number or by the
head the caller expects, and a segment for it that holds up: every link follows, it ends at the
package's record, and it starts where the caller says. With the segment added the package is still
accepted. Its position, though, is decided by the segment alone: `added_segment_established_iff`
says that it stays established exactly when the segment is the whole chain or the caller gave a
trusted head. With an expected head and a shorter segment the position is lost, and
`added_segment_loses_position` is a package for which it is.
-/

set_option autoImplicit false
set_option relaxedAutoImplicit false

namespace AnchoredLog.Port.AddedSegment

open AnchoredLog.Core
open Core.Preimages Library.ByteCodec Library.Fallible Primitives JsonFields Disclosure
open DisclosureAcceptance DisclosureCompleteness TreeAgreement

/-! ### A package with a segment added -/

/-- The chain object with an array as its segment. -/
def putSegment (raw : List Json) : Json → Json
  | .object fields =>
    .object (fields.filter (fun entry ↦ entry.1 ≠ "segment") ++ [("segment", .array raw)])
  | value => value

/-- The package with an array as the segment of its chain. -/
def withSegment (raw : List Json) : Json → Json
  | .object fields =>
    .object (fields.map fun entry ↦
      (entry.1, if entry.1 = "chain" then putSegment raw entry.2 else entry.2))
  | value => value

/-- The array is a segment a package may carry: it holds only listed fields, and it reads as
links. -/
structure SegmentJson (raw : List Json) (links : List Link) : Prop where
  listed : checkElements raw (.object [("leaf", .scalar), ("head", .scalar)]) "chain.segment" 0 =
    .ok ()
  read : raw.zipIdx.mapM readStep = .ok (links.map stepOf)

/-- Members updated by their names are looked up updated. -/
theorem lookup_map (update : String → Json → Json) (fields : List (String × Json))
    (name : String) :
    lookup (fields.map fun entry ↦ (entry.1, update entry.1 entry.2)) name =
      (lookup fields name).map (update name) := by
  induction fields with
  | nil => rfl
  | cons entry fields ih =>
    rw [lookup] at ih ⊢
    by_cases hname : entry.1 = name
    · simp [lookup, hname]
    · simpa [lookup, hname] using ih

theorem get_withSegment (raw : List Json) (pkg : Json) (name : String) :
    (withSegment raw pkg).get name =
      (pkg.get name).map fun value ↦ if name = "chain" then putSegment raw value else value := by
  cases pkg with
  | object fields =>
    exact lookup_map (fun name value ↦ if name = "chain" then putSegment raw value else value)
      fields name
  | _ => rfl

theorem get_withSegment_of_ne (raw : List Json) (pkg : Json) {name : String}
    (hname : name ≠ "chain") : (withSegment raw pkg).get name = pkg.get name := by
  rw [get_withSegment]
  simp [hname]

theorem get_putSegment_of_ne (raw : List Json) (chain : Json) {name : String}
    (hname : name ≠ "segment") : (putSegment raw chain).get name = chain.get name := by
  cases chain with
  | object fields =>
    have hlast : [("segment", Json.array raw)].find? (fun entry ↦ entry.1 == name) = none := by
      simpa using hname.symm
    simp only [putSegment, Json.get, lookup]
    rw [List.find?_append, List.find?_filter, hlast, Option.or_none]
    congr 2
    funext entry
    by_cases hentry : entry.1 = name
    · simp [hentry, hname]
    · simp [hentry]
  | _ => rfl

/-- A value that has some member is an object, and its segment is the array that was put there. -/
theorem get_putSegment {raw : List Json} {chain value : Json} {name : String}
    (hget : chain.get name = some value) :
    (putSegment raw chain).get "segment" = some (.array raw) := by
  cases chain with
  | object fields =>
    have hnone : (fields.filter fun entry ↦ entry.1 ≠ "segment").find?
        (fun entry ↦ entry.1 == "segment") = none := by
      rw [List.find?_eq_none]
      intro entry hentry
      simpa using (List.mem_filter.mp hentry).2
    simp only [putSegment, Json.get, lookup]
    rw [List.find?_append, hnone]
    rfl
  | _ => cases hget

/-! ### The package with the segment is well formed -/

theorem checkFields_putSegment {raw : List Json} {links : List Link}
    (hraw : SegmentJson raw links) {chain : Json}
    (hchain : checkOnlyListedFields chain (.object chainShape) "chain" = .ok ()) :
    checkOnlyListedFields (putSegment raw chain) (.object chainShape) "chain" = .ok () := by
  obtain ⟨fields, rfl, hfields⟩ := checkOnlyListedFields_object_iff.mp hchain
  rw [checkFields_eq_ok_iff] at hfields
  refine checkOnlyListedFields_object_iff.mpr ⟨_, rfl, ?_⟩
  rw [checkFields_eq_ok_iff, List.forall_mem_append]
  refine ⟨fun entry hentry ↦ hfields entry (List.mem_filter.mp hentry).1, ?_⟩
  intro entry hentry
  obtain rfl := List.mem_singleton.mp hentry
  refine ⟨.array [.object [("leaf", .scalar), ("head", .scalar)]], rfl, ?_⟩
  rw [checkOnlyListedFields]
  exact hraw.listed

theorem checkOnlyListedFields_withSegment {raw : List Json} {links : List Link}
    (hraw : SegmentJson raw links) {pkg : Json}
    (hpkg : checkOnlyListedFields pkg packageShape "" = .ok ()) :
    checkOnlyListedFields (withSegment raw pkg) packageShape "" = .ok () := by
  rw [packageShape] at hpkg ⊢
  obtain ⟨fields, rfl, hfields⟩ := checkOnlyListedFields_object_iff.mp hpkg
  rw [checkFields_eq_ok_iff] at hfields
  refine checkOnlyListedFields_object_iff.mpr ⟨_, rfl, ?_⟩
  rw [checkFields_eq_ok_iff]
  intro updated hupdated
  obtain ⟨entry, hentry, rfl⟩ := List.mem_map.mp hupdated
  obtain ⟨inner, hshape, hvalue⟩ := hfields entry hentry
  refine ⟨inner, hshape, ?_⟩
  by_cases hname : entry.1 = "chain"
  · obtain ⟨name, value⟩ := entry
    obtain rfl : name = "chain" := hname
    obtain rfl : Shape.object chainShape = inner := Option.some.inj hshape
    exact checkFields_putSegment hraw hvalue
  · simpa only [hname, if_false] using hvalue

theorem openPackage_withSegment {stringify : Option Json → String} {raw : List Json}
    {links : List Link} (hraw : SegmentJson raw links) {pkg : Json} {parts : Parts}
    (hopened : openPackage stringify pkg = .ok parts) :
    openPackage stringify (withSegment raw pkg) =
      .ok ⟨parts.record, putSegment raw parts.chain, parts.inclusion⟩ := by
  obtain ⟨hcontainer, hschema, hlisted, hrecord, hchain, hinclusion⟩ :=
    openPackage_eq_ok_iff.mp hopened
  have hmust : must ((withSegment raw pkg).get "chain") "chain" =
      .ok (putSegment raw parts.chain) := by
    obtain ⟨hget, hnull⟩ := must_eq_ok_iff.mp hchain
    refine must_eq_ok_iff.mpr ⟨by rw [get_withSegment, hget]; rfl, ?_⟩
    cases hvalue : parts.chain with
    | null => exact absurd hvalue hnull
    | _ => simp [putSegment]
  refine openPackage_eq_ok_iff.mpr ⟨?_, ?_, checkOnlyListedFields_withSegment hraw hlisted, ?_,
    hmust, ?_⟩
  · cases pkg <;> exact hcontainer
  · rw [get_withSegment_of_ne raw pkg (by decide)]
    exact hschema
  · rw [get_withSegment_of_ne raw pkg (by decide)]
    exact hrecord
  · rw [get_withSegment_of_ne raw pkg (by decide)]
    exact hinclusion

/-! ### The added segment is walked -/

/-- A segment that holds up against the record of a package: it is not empty and no longer than the
sequence number, its heads follow one another, it ends at the record's leaf, head and previous
head, it starts at the genesis head when it has as many entries as the sequence number, and at the
head the caller trusts, when there is one. -/
structure ValidSegment (hasher : Hasher) (evidence : Evidence) (context : Option ChainContext)
    (links : List Link) : Prop where
  nonempty : links ≠ []
  length_le : links.length ≤ evidence.preimage.seq.toNat
  linked : links.IsChain (Follows hasher)
  last : links.getLast? = some ⟨leafOf hasher evidence.preimage, evidence.head⟩
  second : ∀ second ∈ links.dropLast.getLast?, second.head = evidence.prevHead
  genesis : links.length = evidence.preimage.seq.toNat → ∀ first ∈ links.head?,
    RecordChain.headStep hasher (genesisOf hasher evidence.preimage) first.leaf = first.head
  trusted : ∀ octets ∈ trustedHead context, ∃ trusted : Digest, octets = trusted.octets ∧
    ∀ first ∈ links.head?, RecordChain.headStep hasher trusted first.leaf = first.head

/-- What a package with a segment added is read as. -/
def addSegment (evidence : Evidence) (raw : List Json) (links : List Link) : Evidence :=
  { evidence with
    parts := ⟨evidence.parts.record, putSegment raw evidence.parts.chain, evidence.parts.inclusion⟩
    segment := some links }

section Added

variable {stringify : Option Json → String} {hasher : Hasher} {verifier : Verifier} {pkg : Json}
  {options : VerifyOptions} {evidence : Evidence} {raw : List Json} {links : List Link}

theorem walked_of_validSegment
    (haccepted : Accepted stringify hasher verifier pkg options evidence)
    (habsent : evidence.segment = none)
    (hvalid : ValidSegment hasher evidence options.chainContext links) :
    Walked hasher links evidence.preimage.seq.toNat (leafOf hasher evidence.preimage)
      evidence.prevHead evidence.head (genesisOf hasher evidence.preimage)
      (trustedHead options.chainContext) where
  nonempty := hvalid.nonempty
  length_le := hvalid.length_le
  linked := hvalid.linked
  last := hvalid.last
  second := hvalid.second
  anchored := {
    whole := hvalid.genesis
    single := fun hwhole hone ↦ haccepted.chain.first habsent (hwhole.symm.trans hone)
    trusted := fun _ ↦ hvalid.trusted }

theorem readHead_putSegment (chain : Json) {field : String} (hfield : field ≠ "segment") :
    readHead (putSegment raw chain) field = readHead chain field := by
  rw [readHead, readHead, get_putSegment_of_ne raw chain hfield]

/-- The package with the segment is accepted. -/
theorem accepted_withSegment
    (haccepted : Accepted stringify hasher verifier pkg options evidence)
    (habsent : evidence.segment = none) (hraw : SegmentJson raw links)
    (hvalid : ValidSegment hasher evidence options.chainContext links) :
    Accepted stringify hasher verifier (withSegment raw pkg) options
      (addSegment evidence raw links) where
  opened := openPackage_withSegment hraw haccepted.opened
  preimage := by
    rw [readPreimage, get_withSegment_of_ne raw pkg (by decide)]
    exact haccepted.preimage
  one_le_seq := haccepted.one_le_seq
  category_le := haccepted.category_le
  displays := haccepted.displays
  signature := by
    rw [get_withSegment_of_ne raw pkg (by decide)]
    exact haccepted.signature
  attested := haccepted.attested
  chain := {
    readPrevHead := by
      rw [addSegment, readHead_putSegment _ (by decide)]
      exact haccepted.chain.readPrevHead
    readHead := by
      rw [addSegment, readHead_putSegment _ (by decide)]
      exact haccepted.chain.readHead
    readGenesis := by
      rw [addSegment, readHead_putSegment _ (by decide)]
      exact haccepted.chain.readGenesis
    expected := haccepted.chain.expected
    readSegment := by
      obtain ⟨value, hvalue, -⟩ := bind_eq_ok_iff.mp haccepted.chain.readPrevHead
      rw [addSegment, get_putSegment (must_eq_ok_iff.mp hvalue).1]
      exact .links hraw.read
    walked := by
      intro found hfound
      obtain rfl := Option.some.inj hfound
      have hwalked := walked_of_validSegment haccepted habsent hvalid
      exact hwalked
    first := fun hnone ↦ absurd hnone (by simp [addSegment])
    step := haccepted.chain.step }
  inclusion := ⟨haccepted.inclusion.parsed, haccepted.inclusion.epoch, haccepted.inclusion.plain,
    haccepted.inclusion.configured⟩
  declared := haccepted.declared

/-- The package with the segment is reported as accepted, and as established exactly when the
segment is the whole chain or the caller trusts a head. -/
theorem exists_report_withSegment
    (haccepted : Accepted stringify hasher verifier pkg options evidence)
    (habsent : evidence.segment = none) (hraw : SegmentJson raw links)
    (hvalid : ValidSegment hasher evidence options.chainContext links) :
    ∃ report, verifyDisclosurePackage stringify hasher verifier (withSegment raw pkg) options =
        .ok report ∧ report.ok = true ∧
      (report.chainPosition.established = true ↔
        links.length = evidence.preimage.seq.toNat ∨
          (trustedHead options.chainContext).isSome = true) := by
  obtain ⟨report, hreport, hok, hfindings⟩ :=
    exists_report_of_accepted (accepted_withSegment haccepted habsent hraw hvalid)
  refine ⟨report, hreport, hok, ?_⟩
  have hestablished : report.chainPosition.established =
      decide (links.length = evidence.preimage.seq.toNat ∨
        (trustedHead options.chainContext).isSome = true) :=
    congrArg Findings.established hfindings
  rw [hestablished, decide_eq_true_iff]

/-- When adding a valid segment keeps an established position. Every accepted package, and so every
one whose position is established, has evidence such that: if it carries no segment, then for every
segment that holds up against it, the package with the segment is accepted with an established
position if and only if the segment has as many entries as the sequence number, or the caller gives
a trusted head. -/
theorem added_segment_established_iff {report : DisclosureReport}
    (hreport : verifyDisclosurePackage stringify hasher verifier pkg options = .ok report)
    (hok : report.ok = true) :
    ∃ evidence, Accepted stringify hasher verifier pkg options evidence ∧
      (evidence.segment = none → ∀ raw links, SegmentJson raw links →
        ValidSegment hasher evidence options.chainContext links →
        ((∃ report', verifyDisclosurePackage stringify hasher verifier (withSegment raw pkg)
              options = .ok report' ∧ report'.ok = true ∧
            report'.chainPosition.established = true) ↔
          links.length = evidence.preimage.seq.toNat ∨
            (trustedHead options.chainContext).isSome = true)) := by
  obtain ⟨evidence, haccepted, -⟩ := exists_evidence_of_ok hreport hok
  refine ⟨evidence, haccepted, fun habsent raw links hraw hvalid ↦ ?_⟩
  obtain ⟨reached, hreached, hreachedOk, hiff⟩ :=
    exists_report_withSegment haccepted habsent hraw hvalid
  constructor
  · rintro ⟨report', hreport', -, hposition⟩
    obtain rfl := Except.ok.inj (hreached.symm.trans hreport')
    exact hiff.mp hposition
  · intro hcondition
    exact ⟨reached, hreached, hreachedOk, hiff.mpr hcondition⟩

end Added

/-! ### A package that loses its position -/

theorem segmentJson_entryJson (links : List Link) :
    SegmentJson (links.map fun link ↦ entryJson (stepOf link)) links := by
  refine ⟨?_, mapM_zipIdx_map readStep_entryJson links 0⟩
  have hentries := checkOnlyListedFields_entries (links.map stepOf) "chain.segment"
  rwa [List.map_map] at hentries

/-- A record at the second sequence number. -/
def secondRecord : RecordChain.RecordLeafInput :=
  { RecordHistory.firstRecord with seq := 2 }

/-- The leaf of that record. -/
def secondLeaf : Digest :=
  RecordChain.leafDigest residueHasher (Octets.zeros 32) secondRecord

/-- The head after it, from an all-zero head. -/
def secondHead : Digest :=
  RecordChain.headStep residueHasher (Octets.zeros 32) secondLeaf

/-- A caller that expects the all-zero head before the record and trusts no other head. -/
def callerOptions (root : Digest) : VerifyOptions where
  root := ⟨20000, root.octets⟩
  configuredHeight := some 4
  chainContext := some {
    sawResource := false
    previousCategory := none
    expectedPrevHead := some (Octets.zeros 32 : Digest).octets
    trustedHead := none }

/-- The package of the record without a segment, given the proof of its leaf. -/
def secondPackage (proof : Log.EpochTree.InclusionProof) : Json :=
  (contentsOf residueHasher (Octets.zeros 32) secondRecord 0 (Octets.zeros 32) none
    (Octets.zeros 64) proof).package

/-- The segment of the record alone. -/
def secondSegment : List Json :=
  [entryJson (stepOf ⟨secondLeaf, secondHead⟩)]

/-- The package is accepted, and its position is established by the head the caller expects. -/
theorem exists_secondPackage :
    ∃ built proof, Log.EpochTree.build residueHasher 20000 4 (Octets.zeros 32)
        [(Octets.zeros 16, secondLeaf)] = .ok built ∧
      built.proof (Octets.zeros 16) = .ok proof ∧
      Accepted (fun _ ↦ "") residueHasher permissiveVerifier (secondPackage proof)
        (callerOptions built.root)
        (evidenceOf residueHasher (Octets.zeros 32) secondRecord 0 (Octets.zeros 32) none
          (Octets.zeros 64) proof) := by
  obtain ⟨built, hbuild, hfrom⟩ := Log.TreeCompleteness.exists_build residueHasher 20000
    (Octets.zeros 32)
    (by decide : Log.EpochTree.minHeight ≤ 4 ∧ (4 : UInt8) ≤ Log.EpochTree.maxHeight)
    (by decide : ¬ 2 ^ (4 : UInt8).toNat < [((Octets.zeros 16 : SubmissionId), secondLeaf)].length)
    (List.nodup_singleton _)
  obtain ⟨proof, hproof, hheight, hepoch, hverified⟩ := hfrom.accepted List.mem_cons_self
  refine ⟨built, proof, hbuild, hproof, accepted_contentsOf (by decide) (by decide) rfl ?_ ?_ ?_ ?_
    ?_ ?_⟩
  · simp [callerOptions, expectedPrevHead]
  · simp
  · intro hfirst
    exact absurd hfirst (by decide)
  · rw [hepoch]
    rfl
  · exact verifyInclusion_eq_ok_iff.mpr hverified
  · rw [hheight]
    simp [callerOptions]

theorem validSegment_second (proof : Log.EpochTree.InclusionProof) {context : Option ChainContext}
    (htrusted : trustedHead context = none) :
    ValidSegment residueHasher (evidenceOf residueHasher (Octets.zeros 32) secondRecord 0
      (Octets.zeros 32) none (Octets.zeros 64) proof) context [⟨secondLeaf, secondHead⟩] := by
  have hleaf : leafOf residueHasher (RecordChain.leafPreimage (Octets.zeros 32) secondRecord) =
      secondLeaf := by
    rw [secondLeaf, RecordChain.leafDigest, RecordChain.leafMessage, leafOf]
  have hseq : (1 : ℕ) < secondRecord.seq.toNat := by decide
  constructor
  · simp
  · exact hseq.le
  · exact .singleton _
  · rw [List.getLast?_singleton]
    simp only [evidenceOf, hleaf]
    rw [secondHead, secondLeaf]
  · simp
  · exact fun hwhole ↦ absurd hwhole hseq.ne
  · simp [htrusted]

/-- The statement applies to the package of a second record. -/
theorem added_segment_established_secondPackage :
    ∃ built proof report, Log.EpochTree.build residueHasher 20000 4 (Octets.zeros 32)
        [(Octets.zeros 16, secondLeaf)] = .ok built ∧
      verifyDisclosurePackage (fun _ ↦ "") residueHasher permissiveVerifier (secondPackage proof)
        (callerOptions built.root) = .ok report ∧
      report.ok = true ∧
      ∃ evidence, Accepted (fun _ ↦ "") residueHasher permissiveVerifier (secondPackage proof)
          (callerOptions built.root) evidence ∧
        (evidence.segment = none → ∀ raw links, SegmentJson raw links →
          ValidSegment residueHasher evidence (callerOptions built.root).chainContext links →
          ((∃ report', verifyDisclosurePackage (fun _ ↦ "") residueHasher permissiveVerifier
                (withSegment raw (secondPackage proof)) (callerOptions built.root) =
                  .ok report' ∧ report'.ok = true ∧ report'.chainPosition.established = true) ↔
            links.length = evidence.preimage.seq.toNat ∨
              (trustedHead (callerOptions built.root).chainContext).isSome = true)) := by
  obtain ⟨built, proof, hbuild, -, haccepted⟩ := exists_secondPackage
  obtain ⟨report, hreport, hok, -⟩ := exists_report_of_accepted haccepted
  exact ⟨built, proof, report, hbuild, hreport, hok, added_segment_established_iff hreport hok⟩

/-- A package of a second record, accepted and established by the head the caller expects, that is
no longer established once the segment of its own record is added. -/
theorem added_segment_loses_position :
    ∃ built proof report, Log.EpochTree.build residueHasher 20000 4 (Octets.zeros 32)
        [(Octets.zeros 16, secondLeaf)] = .ok built ∧
      built.proof (Octets.zeros 16) = .ok proof ∧
      verifyDisclosurePackage (fun _ ↦ "") residueHasher permissiveVerifier (secondPackage proof)
        (callerOptions built.root) = .ok report ∧
      report.ok = true ∧ report.chainPosition.established = true ∧
      ∃ evidence, Accepted (fun _ ↦ "") residueHasher permissiveVerifier (secondPackage proof)
          (callerOptions built.root) evidence ∧
        evidence.segment = none ∧
        SegmentJson secondSegment [⟨secondLeaf, secondHead⟩] ∧
        ValidSegment residueHasher evidence (callerOptions built.root).chainContext
          [⟨secondLeaf, secondHead⟩] ∧
        ¬ ∃ report', verifyDisclosurePackage (fun _ ↦ "") residueHasher permissiveVerifier
            (withSegment secondSegment (secondPackage proof)) (callerOptions built.root) =
              .ok report' ∧ report'.ok = true ∧ report'.chainPosition.established = true := by
  obtain ⟨built, proof, hbuild, hproof, haccepted⟩ := exists_secondPackage
  obtain ⟨report, hreport, hok, hfindings⟩ := exists_report_of_accepted haccepted
  have hraw := segmentJson_entryJson [⟨secondLeaf, secondHead⟩]
  have hvalid := @validSegment_second proof (callerOptions built.root).chainContext rfl
  refine ⟨built, proof, report, hbuild, hproof, hreport, hok,
    congrArg Findings.established hfindings, _, haccepted, rfl, hraw, hvalid, ?_⟩
  rintro ⟨report', hreport', -, hposition⟩
  obtain ⟨reached, hreached, -, hiff⟩ := exists_report_withSegment haccepted rfl hraw hvalid
  obtain rfl := Except.ok.inj (hreached.symm.trans hreport')
  rcases hiff.mp hposition with hwhole | htrusted
  · exact absurd hwhole (by decide : (1 : ℕ) ≠ secondRecord.seq.toNat)
  · exact absurd htrusted (by simp [callerOptions, trustedHead])

end AnchoredLog.Port.AddedSegment
