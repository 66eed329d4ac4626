import AnchoredLog.Log.EpochTree

/-!
# What building an epoch produces

`BuiltFrom` says what a built epoch is in terms of the library's linear probing and complete hash
trees: the submissions in ascending order of their identifiers, each at the first free slot from
its own start (`Placed`), padding leaves in the slots left over, all levels above the leaves in
one array, and the root on top. `exists_build` and `builtFrom_of_build` are the specification of
`build`, and `verify_eq_ok_iff` that of the verifier: it accepts exactly the climbs that end at
the root (`Accepted`). Everything later modules prove of a tree they prove from these.

`BuiltFrom.proof_eq` follows the proof's loop over the stored levels and shows that the siblings
it reads by offset are the sibling path of the slot. `build_complete` collects what a caller
relies on, in the terms of the source's own functions: the three refusals in their order, and
otherwise a complete tree with an accepted proof for each submission and for nothing else.
-/

set_option autoImplicit false
set_option relaxedAutoImplicit false

namespace AnchoredLog.Log.TreeCompleteness

open Core.Preimages Library.ByteCodec Library.Fallible Library.LinearProbing Library.MerkleTree
open EpochTree

/-! ### What a tree hashes -/

/-- The octets a real leaf of the tree is the hash of. -/
def realLeafMessage (leaf : Digest) : List UInt8 :=
  (RealLeafPreimage.mk leaf).fields.flatten

/-- The octets an interior node is the hash of. -/
def nodeMessage (left right : Digest) : List UInt8 :=
  (NodePreimage.mk left right).fields.flatten

/-- The pseudorandom output the padding leaf of a slot commits to. -/
def paddingOutput (hasher : Hasher) (kE : Digest) (index : ℕ) : Digest :=
  hasher.hash (PrfPreimage.mk kE (prfUsePadding :: leList 2 index)).fields.flatten

/-- The octets the padding leaf of a slot is the hash of. -/
def paddingMessage (hasher : Hasher) (kE : Digest) (index : ℕ) : List UInt8 :=
  (PaddingPreimage.mk (paddingOutput hasher kE index)).fields.flatten

/-- The key of an epoch under a master key. -/
def keyOfEpoch (hasher : Hasher) (key : Digest) (epoch : UInt64) : Digest :=
  hasher.hash (PrfPreimage.mk key (prfUseEpochKey :: leList 8 epoch.toNat)).fields.flatten

/-- The seed of a submission's slot. -/
def seedOf (hasher : Hasher) (kE : Digest) (id : SubmissionId) : Digest :=
  hasher.hash (PrfPreimage.mk kE (prfUseSlot :: id.octets)).fields.flatten

/-- The slot a seed starts the probe at. -/
def startOf (seed : Digest) (height : UInt8) : ℕ :=
  leNat (seed.octets.take 2) % 2 ^ height.toNat

/-- The digest of an interior node. -/
abbrev nodeDigest (hasher : Hasher) : Digest → Digest → Digest :=
  pairDigest hasher.hash nodeMessage

theorem digest_node_eq (hasher : Hasher) (left right : Digest) :
    digest hasher (NodePreimage.mk left right) = .ok (nodeDigest hasher left right) :=
  digest_node hasher _

/-- A height in range, as numbers. -/
theorem height_bounds {height : UInt8} (hheight : minHeight ≤ height ∧ height ≤ maxHeight) :
    4 ≤ height.toNat ∧ height.toNat ≤ 16 :=
  ⟨UInt8.le_iff_toNat_le.mp hheight.1, UInt8.le_iff_toNat_le.mp hheight.2⟩

theorem two_pow_height_le {height : UInt8} (hheight : minHeight ≤ height ∧ height ≤ maxHeight) :
    2 ^ height.toNat ≤ 2 ^ 16 :=
  Nat.pow_le_pow_right (by norm_num) (height_bounds hheight).2

/-! ### Verification is a climb -/

theorem verifyLevel_eq (hasher : Hasher) (node sibling : Digest) (index : ℕ) :
    verifyLevel hasher (node, index) sibling =
      .ok (if index % 2 = 0 then nodeDigest hasher node sibling else nodeDigest hasher sibling node,
        index / 2) := by
  have hparity : (index &&& 1 = 0) = (index % 2 = 0) := by rw [Nat.and_one_is_mod]
  rw [verifyLevel]
  simp only [hparity]
  by_cases heven : index % 2 = 0
  · simp only [heven, ↓reduceIte, digest_node_eq, bind_ok, checkedShr_one (by norm_num : 1 < 32),
      okOr_some, pure_eq_ok]
  · simp only [heven, ↓reduceIte, digest_node_eq, bind_ok, checkedShr_one (by norm_num : 1 < 32),
      okOr_some, pure_eq_ok]

theorem foldlM_verifyLevel (hasher : Hasher) (node : Digest) (index : ℕ) (siblings : List Digest) :
    siblings.foldlM (verifyLevel hasher) (node, index) =
      .ok (climb (nodeDigest hasher) node index siblings, index / 2 ^ siblings.length) := by
  induction siblings generalizing node index with
  | nil => simp [climb]
  | cons sibling siblings ih =>
    rw [List.foldlM_cons, verifyLevel_eq, bind_ok, ih, climb, List.length_cons, pow_succ',
      Nat.div_div_eq_div_mul]

/-- What the verifier accepts: a height in range, as many siblings, a slot of that tree, and a
climb that ends at the root. -/
structure Accepted (hasher : Hasher) (leaf : Digest) (proof : InclusionProof) (root : Digest) :
    Prop where
  height : minHeight ≤ proof.height ∧ proof.height ≤ maxHeight
  siblings : proof.siblings.digests.length = proof.height.toNat
  slotIndex : proof.slotIndex.toNat < 2 ^ proof.height.toNat
  root : climb (nodeDigest hasher) (hasher.hash (realLeafMessage leaf)) proof.slotIndex.toNat
    proof.siblings.digests = root

theorem verify_eq_ok_iff {hasher : Hasher} {leaf root : Digest} {proof : InclusionProof} :
    verify hasher leaf proof root = .ok () ↔ Accepted hasher leaf proof root := by
  rw [verify, bind_unit_eq_ok_iff, require_eq_ok_iff, bind_unit_eq_ok_iff, require_eq_ok_iff]
  constructor
  · rintro ⟨hheight, hsiblings, hrest⟩
    have hbounds := height_bounds hheight
    rw [checkedShl_one (by omega), okOr_some, bind_ok, bind_unit_eq_ok_iff, require_eq_ok_iff,
      digest_realLeaf, bind_ok, foldlM_verifyLevel, bind_ok, require_eq_ok_iff] at hrest
    exact ⟨hheight, hsiblings, by omega, hrest.2⟩
  · rintro ⟨hheight, hsiblings, hslot, hroot⟩
    have hbounds := height_bounds hheight
    refine ⟨hheight, hsiblings, ?_⟩
    rw [checkedShl_one (by omega), okOr_some, bind_ok, bind_unit_eq_ok_iff, require_eq_ok_iff,
      digest_realLeaf, bind_ok, foldlM_verifyLevel, bind_ok, require_eq_ok_iff]
    exact ⟨by omega, hroot⟩

theorem verifyForHeight_eq_ok_iff {hasher : Hasher} {leaf root : Digest} {proof : InclusionProof}
    {configuredHeight : UInt8} :
    verifyForHeight hasher leaf proof root configuredHeight = .ok () ↔
      proof.height = configuredHeight ∧ Accepted hasher leaf proof root := by
  rw [verifyForHeight, bind_unit_eq_ok_iff, require_eq_ok_iff, verify_eq_ok_iff]

/-! ### The start of a probe -/

theorem startOf_lt (seed : Digest) (height : UInt8) : startOf seed height < 2 ^ height.toNat :=
  Nat.mod_lt _ (Nat.two_pow_pos _)

theorem length_take_two (seed : Digest) : (seed.octets.take 2).length = 2 := by
  simp

theorem slotFromSeed_eq (seed : Digest) {height : UInt8}
    (hheight : minHeight ≤ height ∧ height ≤ maxHeight) :
    ∃ start, slotFromSeed seed height = .ok start ∧ start.toNat = startOf seed height := by
  have hbounds := height_bounds hheight
  have hlow := leNat_lt (seed.octets.take 2)
  rw [length_take_two, show 256 ^ 2 = 2 ^ 16 by norm_num] at hlow
  have hslice : Octets.slice? seed.octets 0 2 =
      some ⟨seed.octets.take 2, length_take_two seed⟩ := by
    rw [Octets.slice?, dif_pos (by rw [List.drop_zero, length_take_two])]
    simp
  rw [slotFromSeed, require_of_true hheight, bind_ok, hslice, okOr_some, bind_ok]
  by_cases hmax : height = maxHeight
  · refine ⟨_, if_pos hmax, ?_⟩
    rw [UInt16.toNat_ofNat', startOf, hmax]
    rfl
  · have hne : height.toNat ≠ 16 := fun heq ↦ hmax (UInt8.toNat_inj.mp heq)
    have hpower : 2 ^ height.toNat ≤ 2 ^ 15 := Nat.pow_le_pow_right (by norm_num) (by omega)
    have hpositive := Nat.two_pow_pos height.toNat
    rw [if_neg hmax, checkedShl_one (by omega), okOr_some, bind_ok, require_of_true (by omega),
      bind_ok]
    refine ⟨_, rfl, ?_⟩
    rw [UInt16.toNat_and, UInt16.toNat_ofNat', UInt16.toNat_ofNat', Nat.mod_eq_of_lt hlow,
      Nat.mod_eq_of_lt (by omega : 2 ^ height.toNat - 1 < 2 ^ 16), Nat.and_two_pow_sub_one_eq_mod,
      startOf]

/-! ### Probing -/

theorem probeSteps_eq {slots : List (Option Digest)} {capacity start first count step : ℕ}
    (hlength : slots.length = capacity) (hcapacity : capacity ≤ 2 ^ 16)
    (hfirst : first ≤ step) (hstep : step < first + count) (hrange : step < capacity)
    (hfree : slots[(start + step) % capacity]? = some none)
    (hbefore : ∀ earlier < step, slots[(start + earlier) % capacity]? ≠ some none) :
    probeSteps slots start capacity (List.range' first count) =
      .ok (UInt16.ofNat ((start + step) % capacity)) := by
  have hpositive : 0 < capacity := by omega
  induction count generalizing first with
  | zero => omega
  | succ count ih =>
    have hindex := Nat.mod_lt (start + first) hpositive
    obtain ⟨cell, hcell⟩ : ∃ cell, slots[(start + first) % capacity]? = some cell :=
      ⟨_, List.getElem?_eq_getElem (by omega)⟩
    rw [List.range'_succ, probeSteps, checkedRem_of_pos hpositive, okOr_some, bind_ok, hcell,
      okOr_some, bind_ok]
    rcases Nat.eq_or_lt_of_le hfirst with rfl | hlt
    · obtain rfl : cell = none := Option.some_injective _ (hcell.symm.trans hfree)
      rw [if_pos rfl, tryFromU16_of_lt (by omega), okOr_some]
    · have hoccupied : cell ≠ none := fun hnone ↦ hbefore first hlt (hnone ▸ hcell)
      rw [if_neg hoccupied]
      exact ih (by omega) (by omega)

/-- The probe returns the first free slot. -/
theorem probe_eq {slots : List (Option Digest)} {capacity slot : ℕ} {start : UInt16}
    (hlength : slots.length = capacity) (hcapacity : capacity ≤ 2 ^ 16) {taken : ℕ → Prop}
    (htaken : ∀ index < capacity, slots[index]? = some none ↔ ¬ taken index)
    (hfirst : FirstFree taken capacity start.toNat slot) :
    probe slots start capacity = .ok (UInt16.ofNat slot) := by
  obtain ⟨step, hstep, rfl, hfree, hbefore⟩ := hfirst
  have hindex : ∀ step, (start.toNat + step) % capacity < capacity :=
    fun step ↦ Nat.mod_lt _ (by omega)
  rw [probe, List.range_eq_range']
  refine probeSteps_eq hlength hcapacity (Nat.zero_le _) (by omega) hstep
    ((htaken _ (hindex step)).mpr hfree) ?_
  intro earlier hearlier hnone
  exact (htaken _ (hindex earlier)).mp hnone (hbefore earlier hearlier)

/-! ### Placing the submissions -/

/-- The slots of an assignment, as numbers. -/
def slotsOf (assignment : List (SubmissionId × UInt16)) : List ℕ :=
  assignment.map fun entry ↦ entry.2.toNat

/-- The table and the assignment once a list of submissions has been placed. -/
structure Placed (hasher : Hasher) (kE : Digest) (height : UInt8)
    (placed : List (SubmissionId × Digest)) (slots : List (Option Digest))
    (assignment : List (SubmissionId × UInt16)) : Prop where
  length_slots : slots.length = 2 ^ height.toNat
  /-- The submissions are assigned in the order they were placed in. -/
  ids : assignment.map Prod.fst = placed.map Prod.fst
  /-- Each took the first free slot from its own start. -/
  probed : Probed (2 ^ height.toNat)
    (placed.map fun entry ↦ startOf (seedOf hasher kE entry.1) height) (slotsOf assignment)
  /-- Each one's cell holds its own real leaf. -/
  cell_real : ∀ (position : ℕ) (entry : SubmissionId × Digest) (assigned : SubmissionId × UInt16),
    placed[position]? = some entry → assignment[position]? = some assigned →
      slots[assigned.2.toNat]? = some (some (hasher.hash (realLeafMessage entry.2)))
  /-- Exactly the other cells are free. -/
  cell_free : ∀ index < 2 ^ height.toNat,
    slots[index]? = some none ↔ ¬ index ∈ slotsOf assignment

section Placing

variable {hasher : Hasher} {kE : Digest} {height : UInt8}
  {placed : List (SubmissionId × Digest)} {slots : List (Option Digest)}
  {assignment : List (SubmissionId × UInt16)}

theorem placed_nil (hasher : Hasher) (kE : Digest) (height : UInt8) :
    Placed hasher kE height [] (List.replicate (2 ^ height.toNat) none) [] where
  length_slots := List.length_replicate
  ids := rfl
  probed := probed_nil _
  cell_real := fun _ _ _ hentry ↦ by simp at hentry
  cell_free := fun index hindex ↦ by simp [slotsOf, hindex]

theorem Placed.length_assignment (hplaced : Placed hasher kE height placed slots assignment) :
    assignment.length = placed.length := by
  have hlengths := congrArg List.length hplaced.ids
  rwa [List.length_map, List.length_map] at hlengths

/-- The table with one more leaf written into a cell that was free. -/
theorem Placed.concat (hplaced : Placed hasher kE height placed slots assignment)
    {entry : SubmissionId × Digest} {slot : UInt16}
    (hfirst : FirstFree (· ∈ slotsOf assignment) (2 ^ height.toNat)
      (startOf (seedOf hasher kE entry.1) height) slot.toNat) :
    Placed hasher kE height (placed ++ [entry])
      (slots.set slot.toNat (some (hasher.hash (realLeafMessage entry.2))))
      (assignment ++ [(entry.1, slot)]) := by
  have hslots : slotsOf (assignment ++ [(entry.1, slot)]) = slotsOf assignment ++ [slot.toNat] := by
    simp [slotsOf]
  have hslot : slot.toNat < slots.length := by
    rw [hplaced.length_slots]
    exact hfirst.lt_capacity
  have hlengths := hplaced.length_assignment
  refine ⟨by rw [List.length_set, hplaced.length_slots], by simp [hplaced.ids], ?_, ?_, ?_⟩
  · rw [hslots, List.map_append]
    exact hplaced.probed.concat hfirst
  · intro position other assigned hother hassigned
    rcases lt_trichotomy position placed.length with hlt | rfl | hgt
    · rw [List.getElem?_append_left hlt] at hother
      rw [List.getElem?_append_left (by omega)] at hassigned
      have hmember : assigned.2.toNat ∈ slotsOf assignment :=
        List.mem_map_of_mem (List.mem_of_getElem? hassigned)
      have hne : slot.toNat ≠ assigned.2.toNat :=
        fun heq ↦ hfirst.not_taken (heq ▸ hmember)
      rw [List.getElem?_set_ne hne]
      exact hplaced.cell_real position other assigned hother hassigned
    · rw [List.getElem?_concat_length] at hother
      rw [← hlengths, List.getElem?_concat_length] at hassigned
      obtain rfl : entry = other := Option.some_injective _ hother
      obtain rfl : (entry.1, slot) = assigned := Option.some_injective _ hassigned
      rw [List.getElem?_set_self hslot]
    · rw [List.getElem?_eq_none (by simp only [List.length_append, List.length_singleton]; omega)]
        at hother
      simp at hother
  · intro index hindex
    rw [hslots, List.mem_append, List.mem_singleton, not_or, ← hplaced.cell_free index hindex]
    by_cases heq : index = slot.toNat
    · simp [heq, hslot]
    · rw [List.getElem?_set_ne (Ne.symm heq)]
      simp [heq]

/-- One submission is placed at the first slot free from its start, as long as there is one. -/
theorem place_eq (hheight : minHeight ≤ height ∧ height ≤ maxHeight)
    (hplaced : Placed hasher kE height placed slots assignment)
    (hroom : placed.length < 2 ^ height.toNat) (entry : SubmissionId × Digest) :
    ∃ state, place hasher kE height (2 ^ height.toNat) (slots, assignment) entry = .ok state ∧
      Placed hasher kE height (placed ++ [entry]) state.1 state.2 := by
  have hcapacity := two_pow_height_le hheight
  obtain ⟨start, hstart, hstartNat⟩ := slotFromSeed_eq (seedOf hasher kE entry.1) hheight
  obtain ⟨slot, hfirst⟩ := exists_firstFree (slotsOf assignment)
    (startOf (seedOf hasher kE entry.1) height)
    (by rwa [slotsOf, List.length_map, hplaced.length_assignment])
  have hslot := hfirst.lt_capacity
  have hslotNat : (UInt16.ofNat slot).toNat = slot := by
    rw [UInt16.toNat_ofNat', Nat.mod_eq_of_lt (by omega)]
  have hprobe := probe_eq hplaced.length_slots hcapacity hplaced.cell_free (hstartNat ▸ hfirst)
  have hwithin : (UInt16.ofNat slot).toNat < slots.length := by
    rw [hplaced.length_slots, hslotNat]
    exact hslot
  refine ⟨(slots.set (UInt16.ofNat slot).toNat (some (hasher.hash (realLeafMessage entry.2))),
    assignment ++ [(entry.1, UInt16.ofNat slot)]), ?_, hplaced.concat (hslotNat.symm ▸ hfirst)⟩
  simp only [place]
  rw [slotSeed_eq, bind_ok]
  change (slotFromSeed (seedOf hasher kE entry.1) height >>= _) = _
  rw [hstart, bind_ok, hprobe, bind_ok, digest_realLeaf, bind_ok, require_of_true hwithin, bind_ok]
  rfl

/-- Every list of submissions that fits the tree is placed, however full the tree becomes. -/
theorem foldlM_place_eq (hasher : Hasher) (kE : Digest)
    (hheight : minHeight ≤ height ∧ height ≤ maxHeight) (entries : List (SubmissionId × Digest))
    (hroom : entries.length ≤ 2 ^ height.toNat) :
    ∃ state, entries.foldlM (place hasher kE height (2 ^ height.toNat))
        (List.replicate (2 ^ height.toNat) none, []) = .ok state ∧
      Placed hasher kE height entries state.1 state.2 := by
  induction entries using List.reverseRecOn with
  | nil => exact ⟨_, rfl, placed_nil hasher kE height⟩
  | append_singleton entries entry ih =>
    rw [List.length_append, List.length_singleton] at hroom
    obtain ⟨state, hstate, hplaced⟩ := ih (by omega)
    obtain ⟨next, hnext, hplacedNext⟩ := place_eq hheight hplaced (by omega) entry
    refine ⟨next, ?_, hplacedNext⟩
    rw [List.foldlM_append, hstate, bind_ok, List.foldlM_cons, hnext, bind_ok, List.foldlM_nil]
    rfl

end Placing

/-! ### Filling the free slots -/

/-- The leaf of a cell: its own, or the padding leaf of its index. -/
def leafOfCell (hasher : Hasher) (kE : Digest) (cell : Option Digest × ℕ) : Digest :=
  cell.1.getD (hasher.hash (paddingMessage hasher kE cell.2))

theorem fill_eq (hasher : Hasher) (kE : Digest) {cell : Option Digest × ℕ}
    (hindex : cell.2 < 2 ^ 16) : fill hasher kE cell = .ok (leafOfCell hasher kE cell) := by
  rcases cell with ⟨_ | leaf, index⟩
  · have hnumber : (UInt16.ofNat index).toNat = index := by
      rw [UInt16.toNat_ofNat', Nat.mod_eq_of_lt hindex]
    rw [fill, tryFromU16_of_lt hindex, okOr_some, bind_ok, paddingPrf_eq, bind_ok, digest_padding,
      hnumber]
    rfl
  · rfl

theorem mapM_fill_eq (hasher : Hasher) (kE : Digest) {slots : List (Option Digest)}
    (hlength : slots.length ≤ 2 ^ 16) :
    slots.zipIdx.mapM (fill hasher kE) = .ok (slots.zipIdx.map (leafOfCell hasher kE)) := by
  refine mapM_eq_ok_map _ fun cell hcell ↦ fill_eq hasher kE ?_
  have hindex := (List.mem_zipIdx' (x := cell.1) (i := cell.2) hcell).1
  omega

theorem getElem?_map_leafOfCell (hasher : Hasher) (kE : Digest) (slots : List (Option Digest))
    (index : ℕ) : (slots.zipIdx.map (leafOfCell hasher kE))[index]? =
      slots[index]?.map fun cell ↦ leafOfCell hasher kE (cell, index) := by
  rw [List.getElem?_map, List.getElem?_zipIdx, Option.map_map, Nat.zero_add]
  rfl

/-! ### The levels above the leaves -/

theorem parentsOf_eq (hasher : Hasher) (level : List Digest) (heven : level.length % 2 = 0) :
    parentsOf hasher level = .ok (pairUp (nodeDigest hasher) level) := by
  fun_induction parentsOf hasher level with
  | case1 => rfl
  | case2 => simp at heven
  | case3 left right rest ih =>
    have hrest : rest.length % 2 = 0 := by
      simp only [List.length_cons] at heven
      omega
    rw [digest_node_eq, bind_ok, ih hrest, bind_ok, pairUp]
    rfl

/-- The stored levels are the levels of a complete tree, and the root is its root. -/
theorem levelsFrom_eq (hasher : Hasher) {height : ℕ} (nodes : List Digest) {current : List Digest}
    (hlength : current.length = 2 ^ height) :
    ∃ root, levelsFrom hasher nodes current =
        .ok (nodes ++ upperLevels (nodeDigest hasher) height current, root) ∧
      subtreeRoot (nodeDigest hasher) height current = some root := by
  induction height generalizing nodes current with
  | zero =>
    obtain ⟨root, rfl⟩ : ∃ root, current = [root] :=
      List.length_eq_one_iff.mp (by simpa using hlength)
    refine ⟨root, ?_, rfl⟩
    rw [levelsFrom, if_neg (by simp)]
    simp [upperLevels]
  | succ height ih =>
    have hpositive := Nat.two_pow_pos height
    have hpaired := length_pairUp_of_pow (nodeDigest hasher) hlength
    have hparents := parentsOf_eq hasher current (by rw [hlength, pow_succ]; omega)
    obtain ⟨root, hrest, hroot⟩ := ih (nodes ++ pairUp (nodeDigest hasher) current) hpaired
    refine ⟨root, ?_, by rw [subtreeRoot_succ, hroot]⟩
    rw [levelsFrom, if_pos (by rw [hlength, pow_succ]; omega)]
    split
    · next parents hsome =>
      obtain rfl : pairUp (nodeDigest hasher) current = parents :=
        Except.ok.inj (hparents.symm.trans hsome)
      rw [hrest, upperLevels, List.append_assoc]
    · next error hnone => exact absurd (hparents.symm.trans hnone) (by simp)

/-! ### The ascending order of the submissions -/

theorem ordered_perm (real : List (SubmissionId × Digest)) : (ordered real).Perm real :=
  List.perm_insertionSort _ real

theorem length_ordered (real : List (SubmissionId × Digest)) :
    (ordered real).length = real.length :=
  (ordered_perm real).length_eq

theorem mem_ordered {real : List (SubmissionId × Digest)} {entry : SubmissionId × Digest} :
    entry ∈ ordered real ↔ entry ∈ real :=
  (ordered_perm real).mem_iff

theorem ordered_pairwise (real : List (SubmissionId × Digest)) :
    (ordered real).Pairwise fun left right ↦ left.1 ≤ right.1 := by
  have : Std.Total fun left right : SubmissionId × Digest ↦ left.1 ≤ right.1 :=
    ⟨fun left right ↦ le_total left.1 right.1⟩
  have : IsTrans (SubmissionId × Digest) fun left right ↦ left.1 ≤ right.1 :=
    ⟨fun _ _ _ hfirst hsecond ↦ le_trans hfirst hsecond⟩
  exact List.pairwise_insertionSort _ real

/-- In ascending order, distinct neighbours are distinct throughout. -/
theorem isChain_iff_of_ascending {real sorted : List (SubmissionId × Digest)}
    (hperm : sorted.Perm real) (hascending : sorted.Pairwise fun left right ↦ left.1 ≤ right.1) :
    (sorted.IsChain fun left right ↦ ¬ left.1 = right.1) ↔ (real.map Prod.fst).Nodup := by
  rw [← (hperm.map Prod.fst).nodup_iff, List.Nodup, List.pairwise_map]
  constructor
  · intro hchain
    have hstrict : sorted.IsChain fun left right ↦ left.1 < right.1 :=
      List.isChain_iff_getElem.mpr fun position hposition ↦
        lt_of_le_of_ne (List.isChain_iff_getElem.mp hascending.isChain _ hposition)
          (List.isChain_iff_getElem.mp hchain _ hposition)
    have : IsTrans (SubmissionId × Digest) fun left right ↦ left.1 < right.1 :=
      ⟨fun _ _ _ hfirst hsecond ↦ lt_trans hfirst hsecond⟩
    exact hstrict.pairwise.imp fun hlt ↦ ne_of_lt hlt
  · exact fun hpairwise ↦ hpairwise.isChain

theorem isChain_ordered_iff (real : List (SubmissionId × Digest)) :
    ((ordered real).IsChain fun left right ↦ ¬ left.1 = right.1) ↔
      (real.map Prod.fst).Nodup :=
  isChain_iff_of_ascending (ordered_perm real) (ordered_pairwise real)

/-! ### The specification of a built epoch -/

/-- What a built epoch is: the submissions, distinct and no more than the capacity, probed in
ascending order of their identifiers, their leaves and the padding leaves in their slots, and a
complete hash tree above them. -/
structure BuiltFrom (hasher : Hasher) (epoch : UInt64) (height : UInt8) (key : Digest)
    (real : List (SubmissionId × Digest)) (built : BuiltEpoch) : Prop where
  height_mem : minHeight ≤ height ∧ height ≤ maxHeight
  length_le : real.length ≤ 2 ^ height.toNat
  nodup : (real.map Prod.fst).Nodup
  epoch_eq : built.epoch = epoch
  height_eq : built.height = height
  ids : built.assignment.map Prod.fst = (ordered real).map Prod.fst
  probed : Probed (2 ^ height.toNat)
    ((ordered real).map fun entry ↦
      startOf (seedOf hasher (keyOfEpoch hasher key epoch) entry.1) height)
    (slotsOf built.assignment)
  length_leaves : built.leaves.length = 2 ^ height.toNat
  leaf_real : ∀ (position : ℕ) (entry : SubmissionId × Digest) (assigned : SubmissionId × UInt16),
    (ordered real)[position]? = some entry → built.assignment[position]? = some assigned →
      built.leaves[assigned.2.toNat]? = some (hasher.hash (realLeafMessage entry.2))
  leaf_padding : ∀ index < 2 ^ height.toNat, index ∉ slotsOf built.assignment →
    built.leaves[index]? =
      some (hasher.hash (paddingMessage hasher (keyOfEpoch hasher key epoch) index))
  nodes_eq : built.nodes = upperLevels (nodeDigest hasher) height.toNat built.leaves
  root_eq : subtreeRoot (nodeDigest hasher) height.toNat built.leaves = some built.root

section Building

variable {hasher : Hasher} {epoch : UInt64} {height : UInt8} {key : Digest}
  {real : List (SubmissionId × Digest)} {built : BuiltEpoch}

theorem capacityOf_eq (hheight : minHeight ≤ height ∧ height ≤ maxHeight) :
    capacityOf height = .ok (2 ^ height.toNat) := by
  have hbounds := height_bounds hheight
  rw [capacityOf, require_of_true hheight, bind_ok, usizeBits, checkedShl_one (by omega),
    okOr_some]

theorem build_of_height (hheight : ¬ (minHeight ≤ height ∧ height ≤ maxHeight)) :
    build hasher epoch height key real = .error .malformedPayload := by
  rw [build, capacityOf, require_of_false hheight]
  rfl

theorem build_of_length (hheight : minHeight ≤ height ∧ height ≤ maxHeight)
    (hlength : 2 ^ height.toNat < real.length) :
    build hasher epoch height key real = .error .epochCapacityExceeded := by
  rw [build, capacityOf_eq hheight, bind_ok, require_of_false (by simpa using hlength)]
  rfl

theorem build_of_duplicate (hheight : minHeight ≤ height ∧ height ≤ maxHeight)
    (hlength : ¬ 2 ^ height.toNat < real.length) (hduplicate : ¬ (real.map Prod.fst).Nodup) :
    build hasher epoch height key real = .error .malformedPayload := by
  rw [build, capacityOf_eq hheight, bind_ok, require_of_true hlength, bind_ok, epochKey_eq,
    bind_ok, require_of_false (by rwa [isChain_ordered_iff])]
  rfl

/-- Distinct submissions that fit the tree are built. -/
theorem exists_build (hasher : Hasher) (epoch : UInt64) (key : Digest)
    (hheight : minHeight ≤ height ∧ height ≤ maxHeight)
    (hlength : ¬ 2 ^ height.toNat < real.length) (hnodup : (real.map Prod.fst).Nodup) :
    ∃ built, build hasher epoch height key real = .ok built ∧
      BuiltFrom hasher epoch height key real built := by
  have hcapacity := two_pow_height_le hheight
  obtain ⟨⟨slots, assignment⟩, hplace, hplaced⟩ :=
    foldlM_place_eq hasher (keyOfEpoch hasher key epoch) hheight (ordered real)
      (by rw [length_ordered]; omega)
  have hfill := mapM_fill_eq hasher (keyOfEpoch hasher key epoch)
    (hplaced.length_slots.trans_le hcapacity)
  have hlengthLeaves :
      (slots.zipIdx.map (leafOfCell hasher (keyOfEpoch hasher key epoch))).length =
        2 ^ height.toNat := by
    rw [List.length_map, List.length_zipIdx, hplaced.length_slots]
  obtain ⟨root, hlevels, hroot⟩ := levelsFrom_eq hasher [] hlengthLeaves
  let leaves := slots.zipIdx.map (leafOfCell hasher (keyOfEpoch hasher key epoch))
  refine ⟨⟨epoch, height, root, leaves, assignment,
    upperLevels (nodeDigest hasher) height.toNat leaves⟩, ?_, ⟨hheight, by omega, hnodup, rfl, rfl,
    hplaced.ids, hplaced.probed, hlengthLeaves, ?_, ?_, rfl, hroot⟩⟩
  · rw [build, capacityOf_eq hheight, bind_ok, require_of_true hlength, bind_ok, epochKey_eq,
      bind_ok, require_of_true ((isChain_ordered_iff real).mpr hnodup), bind_ok]
    change ((ordered real).foldlM
      (place hasher (keyOfEpoch hasher key epoch) height (2 ^ height.toNat)) _ >>= _) = _
    rw [hplace, bind_ok]
    change (slots.zipIdx.mapM (fill hasher (keyOfEpoch hasher key epoch)) >>= _) = _
    rw [hfill, bind_ok, levelsAbove, hlevels, bind_ok]
    rfl
  · intro position entry assigned hentry hassigned
    rw [getElem?_map_leafOfCell, hplaced.cell_real position entry assigned hentry hassigned]
    rfl
  · intro index hindex hfree
    rw [getElem?_map_leafOfCell, (hplaced.cell_free index hindex).mpr hfree]
    rfl

/-- Every epoch that is built meets the specification. -/
theorem builtFrom_of_build (hbuild : build hasher epoch height key real = .ok built) :
    BuiltFrom hasher epoch height key real built := by
  by_cases hheight : minHeight ≤ height ∧ height ≤ maxHeight
  · by_cases hlength : 2 ^ height.toNat < real.length
    · rw [build_of_length hheight hlength] at hbuild
      exact absurd hbuild (by simp)
    · by_cases hnodup : (real.map Prod.fst).Nodup
      · obtain ⟨other, hother, hfrom⟩ := exists_build hasher epoch key hheight hlength hnodup
        obtain rfl : built = other := Except.ok.inj (hbuild.symm.trans hother)
        exact hfrom
      · rw [build_of_duplicate hheight hlength hnodup] at hbuild
        exact absurd hbuild (by simp)
  · rw [build_of_height hheight] at hbuild
    exact absurd hbuild (by simp)

/-! ### Reading a proof -/

theorem BuiltFrom.nodup_ids (hbuilt : BuiltFrom hasher epoch height key real built) :
    (built.assignment.map Prod.fst).Nodup := by
  rw [hbuilt.ids]
  exact ((ordered_perm real).map Prod.fst).nodup_iff.mpr hbuilt.nodup

theorem BuiltFrom.mem_ids (hbuilt : BuiltFrom hasher epoch height key real built)
    {id : SubmissionId} : id ∈ built.assignment.map Prod.fst ↔ id ∈ real.map Prod.fst := by
  rw [hbuilt.ids]
  exact ((ordered_perm real).map Prod.fst).mem_iff

/-- Every submission has a slot, which holds its leaf. -/
theorem BuiltFrom.exists_slot (hbuilt : BuiltFrom hasher epoch height key real built)
    {entry : SubmissionId × Digest} (hentry : entry ∈ real) :
    ∃ slot, (entry.1, slot) ∈ built.assignment ∧
      built.leaves[slot.toNat]? = some (hasher.hash (realLeafMessage entry.2)) := by
  obtain ⟨position, hposition⟩ := List.getElem?_of_mem (mem_ordered.mpr hentry)
  have hid : (built.assignment.map Prod.fst)[position]? = some entry.1 := by
    rw [hbuilt.ids, List.getElem?_map, hposition]
    rfl
  rw [List.getElem?_map, Option.map_eq_some_iff] at hid
  obtain ⟨⟨id, slot⟩, hassigned, rfl⟩ := hid
  exact ⟨slot, List.mem_of_getElem? hassigned,
    hbuilt.leaf_real position entry _ hposition hassigned⟩

/-- Every assigned slot is some submission's, and holds its leaf. -/
theorem BuiltFrom.exists_entry (hbuilt : BuiltFrom hasher epoch height key real built)
    {assigned : SubmissionId × UInt16} (hassigned : assigned ∈ built.assignment) :
    ∃ leaf, (assigned.1, leaf) ∈ real ∧
      built.leaves[assigned.2.toNat]? = some (hasher.hash (realLeafMessage leaf)) := by
  obtain ⟨position, hposition⟩ := List.getElem?_of_mem hassigned
  have hid : ((ordered real).map Prod.fst)[position]? = some assigned.1 := by
    rw [← hbuilt.ids, List.getElem?_map, hposition]
    rfl
  rw [List.getElem?_map, Option.map_eq_some_iff] at hid
  obtain ⟨⟨id, leaf⟩, hentry, heq⟩ := hid
  refine ⟨leaf, ?_, hbuilt.leaf_real position _ _ hentry hposition⟩
  rw [← heq]
  exact mem_ordered.mp (List.mem_of_getElem? hentry)

theorem BuiltFrom.slot_lt (hbuilt : BuiltFrom hasher epoch height key real built)
    {assigned : SubmissionId × UInt16} (hassigned : assigned ∈ built.assignment) :
    assigned.2.toNat < 2 ^ height.toNat :=
  hbuilt.probed.lt_capacity (List.mem_map_of_mem hassigned)

/-- The entry of an identifier is found, since identifiers are assigned once. -/
theorem find?_assignment {assignment : List (SubmissionId × UInt16)}
    (hnodup : (assignment.map Prod.fst).Nodup) {assigned : SubmissionId × UInt16}
    (hassigned : assigned ∈ assignment) :
    assignment.find? (fun entry ↦ entry.1 == assigned.1) = some assigned := by
  induction assignment with
  | nil => simp at hassigned
  | cons entry assignment ih =>
    rw [List.map_cons, List.nodup_cons] at hnodup
    rcases List.mem_cons.mp hassigned with rfl | hlater
    · simp
    · have hne : entry.1 ≠ assigned.1 :=
        fun heq ↦ hnodup.1 (heq ▸ List.mem_map_of_mem hlater)
      rw [List.find?_cons_of_neg (by simpa using hne)]
      exact ih hnodup.2 hlater

theorem push_eq {siblings : Siblings} {digest : Digest}
    (hroom : siblings.digests.length < maxSiblings) :
    ∃ pushed, siblings.push digest = some pushed ∧
      pushed.digests = siblings.digests ++ [digest] := by
  have hfits : (siblings.digests ++ [digest]).length ≤ maxSiblings := by
    simp only [List.length_append, List.length_singleton]
    omega
  exact ⟨_, dif_pos hfits, rfl⟩

/-- A level of the tree begins among the stored levels where the source says it does. -/
theorem levelOffset_eq {height level : ℕ} (hheight : height ≤ 16) (hlevel : level < height) :
    levelOffset (level + 1) (2 ^ height) = .ok (2 ^ height - 2 ^ (height - level)) := by
  have hquotient : 2 ^ height / 2 ^ level = 2 ^ (height - level) :=
    Nat.pow_div (by omega) (by norm_num)
  have hle : 2 ^ (height - level) ≤ 2 ^ height := Nat.pow_le_pow_right (by norm_num) (by omega)
  rw [levelOffset, require_of_true (by omega), bind_ok, Nat.add_sub_cancel,
    require_of_true (by omega), bind_ok, usizeBits, checkedShr_of_lt (by omega), okOr_some,
    bind_ok, hquotient, require_of_true hle, bind_ok]
  rfl

/-- One level of a proof reads the sibling of the current position at that level. -/
theorem proofLevel_eq (hbuilt : BuiltFrom hasher epoch height key real built) {level index : ℕ}
    (hlevel : level < height.toNat) {siblings : Siblings}
    (hsiblings : siblings.digests.length = level) {sibling : Digest}
    (hfound : (levelAbove (nodeDigest hasher) level built.leaves)[siblingIndex index]? =
      some sibling) :
    ∃ pushed, built.proofLevel (2 ^ height.toNat) (siblings, index) level =
        .ok (pushed, index / 2) ∧ pushed.digests = siblings.digests ++ [sibling] := by
  have hbounds := height_bounds hbuilt.height_mem
  obtain ⟨pushed, hpush, hpushed⟩ : ∃ pushed, siblings.push sibling = some pushed ∧
      pushed.digests = siblings.digests ++ [sibling] :=
    push_eq (by rw [hsiblings, maxSiblings]; omega)
  refine ⟨pushed, ?_, hpushed⟩
  simp only [BuiltEpoch.proofLevel, ← siblingIndex_eq_xor]
  cases level with
  | zero =>
    rw [levelAbove_zero] at hfound
    rw [if_pos rfl, pure_eq_ok, bind_ok, hfound, okOr_some, bind_ok, hpush, okOr_some, bind_ok,
      usizeBits, checkedShr_one (by norm_num), okOr_some]
    rfl
  | succ level =>
    have hlength : (levelAbove (nodeDigest hasher) (level + 1) built.leaves).length =
        2 ^ (height.toNat - (level + 1)) :=
      length_levelAbove (nodeDigest hasher) (by rw [hbuilt.length_leaves]; congr 1; omega)
    have hposition : siblingIndex index < 2 ^ (height.toNat - (level + 1)) := by
      rw [← hlength]
      exact (List.getElem?_eq_some_iff.mp hfound).1
    have hstored := getElem?_upperLevels (nodeDigest hasher) hbuilt.length_leaves
      (by omega : level < height.toNat) hposition
    rw [if_neg (Nat.succ_ne_zero level), levelOffset_eq hbounds.2 (by omega), bind_ok, pure_eq_ok,
      bind_ok, hbuilt.nodes_eq, hstored, hfound, okOr_some, bind_ok, hpush, okOr_some, bind_ok,
      usizeBits, checkedShr_one (by norm_num), okOr_some]
    rfl

/-- The loop of a proof collects the sibling path of its position. -/
theorem foldlM_proofLevel_eq (hbuilt : BuiltFrom hasher epoch height key real built)
    {level count index : ℕ} (hlevel : level + count = height.toNat) {siblings : Siblings}
    (hsiblings : siblings.digests.length = level) {path : List Digest}
    (hpath : siblingPath (nodeDigest hasher) count
      (levelAbove (nodeDigest hasher) level built.leaves) index = some path) :
    ∃ collected final, (List.range' level count).foldlM (built.proofLevel (2 ^ height.toNat))
        (siblings, index) = .ok (collected, final) ∧
      collected.digests = siblings.digests ++ path := by
  induction count generalizing level index siblings path with
  | zero =>
    obtain rfl : [] = path := Option.some_injective _ hpath
    exact ⟨siblings, index, rfl, by simp⟩
  | succ count ih =>
    rw [siblingPath] at hpath
    obtain ⟨sibling, hsibling, rest, hrest, heq⟩ : ∃ sibling,
        (levelAbove (nodeDigest hasher) level built.leaves)[siblingIndex index]? = some sibling ∧
          ∃ rest, siblingPath (nodeDigest hasher) count
            (pairUp (nodeDigest hasher) (levelAbove (nodeDigest hasher) level built.leaves))
            (index / 2) = some rest ∧ sibling :: rest = path := by
      simpa [Option.bind_eq_some_iff] using hpath
    obtain ⟨pushed, hstep, hpushed⟩ := proofLevel_eq hbuilt (by omega) hsiblings hsibling
    have hnext : pairUp (nodeDigest hasher) (levelAbove (nodeDigest hasher) level built.leaves) =
        levelAbove (nodeDigest hasher) (level + 1) built.leaves :=
      (levelAbove_add (nodeDigest hasher) level 1 built.leaves).symm
    rw [hnext] at hrest
    obtain ⟨collected, final, hfold, hcollected⟩ :=
      ih (by omega) (by rw [hpushed, List.length_append, hsiblings, List.length_singleton]) hrest
    refine ⟨collected, final, ?_, ?_⟩
    · rw [List.range'_succ, List.foldlM_cons, hstep, bind_ok, hfold]
    · rw [hcollected, hpushed, List.append_assoc, List.singleton_append, heq]

/-- The proof of an assigned submission carries the sibling path of its slot. -/
theorem BuiltFrom.proof_eq (hbuilt : BuiltFrom hasher epoch height key real built)
    {assigned : SubmissionId × UInt16} (hassigned : assigned ∈ built.assignment) :
    ∃ proof, built.proof assigned.1 = .ok proof ∧ proof.height = height ∧
      proof.slotIndex = assigned.2 ∧ proof.epoch = epoch ∧
      siblingPath (nodeDigest hasher) height.toNat built.leaves assigned.2.toNat =
        some proof.siblings.digests := by
  obtain ⟨leaf, -, hleaf⟩ := hbuilt.exists_entry hassigned
  obtain ⟨path, hpath, -, -⟩ := climb_siblingPath (nodeDigest hasher) hbuilt.length_leaves hleaf
  have hnew : Siblings.new.digests.length = 0 := rfl
  obtain ⟨collected, final, hfold, hcollected⟩ :=
    foldlM_proofLevel_eq hbuilt (Nat.zero_add _) hnew hpath
  refine ⟨⟨built.height, collected, assigned.2, built.epoch⟩, ?_, hbuilt.height_eq, rfl,
    hbuilt.epoch_eq, ?_⟩
  · simp only [BuiltEpoch.proof]
    rw [find?_assignment hbuilt.nodup_ids hassigned, okOr_some, bind_ok,
      hbuilt.length_leaves, hbuilt.height_eq, List.range_eq_range', hfold, bind_ok]
    rfl
  · rw [hpath, hcollected]
    rfl

/-- A submission the epoch does not hold has no proof. -/
theorem BuiltFrom.proof_of_not_mem (hbuilt : BuiltFrom hasher epoch height key real built)
    {id : SubmissionId} (hmissing : id ∉ real.map Prod.fst) :
    built.proof id = .error .submissionNotInEpoch := by
  have hnone : built.assignment.find? (fun entry ↦ entry.1 == id) = none := by
    rw [List.find?_eq_none]
    intro entry hentry heq
    have hid : entry.1 = id := by simpa using heq
    exact hmissing (hbuilt.mem_ids.mp (hid ▸ List.mem_map_of_mem hentry))
  rw [BuiltEpoch.proof, hnone]
  rfl

/-- A submission's proof climbs from its leaf to the root. -/
theorem BuiltFrom.accepted (hbuilt : BuiltFrom hasher epoch height key real built)
    {entry : SubmissionId × Digest} (hentry : entry ∈ real) :
    ∃ proof, built.proof entry.1 = .ok proof ∧ proof.height = height ∧ proof.epoch = epoch ∧
      Accepted hasher entry.2 proof built.root := by
  obtain ⟨slot, hassigned, hleaf⟩ := hbuilt.exists_slot hentry
  obtain ⟨proof, hproof, hheight, hslot, hepoch, hsiblings⟩ := hbuilt.proof_eq hassigned
  obtain ⟨path, hpath, hlength, hroot⟩ :=
    climb_siblingPath (nodeDigest hasher) hbuilt.length_leaves hleaf
  obtain rfl : path = proof.siblings.digests :=
    Option.some_injective _ (hpath.symm.trans hsiblings)
  refine ⟨proof, hproof, hheight, hepoch, ⟨hheight ▸ hbuilt.height_mem, by rw [hlength, hheight],
    ?_, ?_⟩⟩
  · rw [hslot, hheight]
    exact hbuilt.slot_lt hassigned
  · rw [hslot]
    exact Option.some_injective _ (hroot.symm.trans hbuilt.root_eq)

end Building

/-! ### Completeness -/

/-- What a caller relies on of a built epoch, in the terms of the source's own functions. -/
structure CompleteTree (hasher : Hasher) (epoch : UInt64) (height : UInt8) (key : Digest)
    (real : List (SubmissionId × Digest)) (built : BuiltEpoch) : Prop where
  epoch_eq : built.epoch = epoch
  height_eq : built.height = height
  length_leaves : built.leaves.length = 2 ^ height.toNat
  slots_lt : ∀ assigned ∈ built.assignment, assigned.2.toNat < 2 ^ height.toNat
  /-- No slot is assigned twice. -/
  slots_nodup : (built.assignment.map Prod.snd).Nodup
  /-- The identifiers ascend, and they are the submitted ones. -/
  ids_ascending : (built.assignment.map Prod.fst).Pairwise (· < ·)
  ids_perm : (built.assignment.map Prod.fst).Perm (real.map Prod.fst)
  /-- Each slot is the first free one from the slot its own seed names, once the identifiers
  below it have been placed. -/
  firstFree : ∀ (position : ℕ) (id : SubmissionId) (slot : UInt16),
    built.assignment[position]? = some (id, slot) →
      ∃ kE seed start, epochKey hasher key epoch = .ok kE ∧ slotSeed hasher kE id = .ok seed ∧
        slotFromSeed seed height = .ok start ∧
        FirstFree (· ∈ (built.assignment.take position).map fun earlier ↦ earlier.2.toNat)
          (2 ^ height.toNat) start.toNat slot.toNat
  /-- Every slot left over holds the padding leaf of its own index. -/
  padding : ∀ slot : UInt16, slot.toNat < 2 ^ height.toNat →
    slot ∉ built.assignment.map Prod.snd →
      ∃ kE prfOutput leaf, epochKey hasher key epoch = .ok kE ∧
        paddingPrf hasher kE slot = .ok prfOutput ∧
        digest hasher (PaddingPreimage.mk prfOutput) = .ok leaf ∧
        built.leaves[slot.toNat]? = some leaf
  /-- Every submission has a proof that the verifier accepts for its leaf. -/
  proofs : ∀ entry ∈ real, ∃ proof, built.proof entry.1 = .ok proof ∧
    proof.siblings.digests.length = height.toNat ∧
    verifyForHeight hasher entry.2 proof built.root height = .ok ()
  /-- No other identifier has one. -/
  no_others : ∀ id ∉ real.map Prod.fst, built.proof id = .error .submissionNotInEpoch

section Completeness

variable {hasher : Hasher} {epoch : UInt64} {height : UInt8} {key : Digest}
  {real : List (SubmissionId × Digest)} {built : BuiltEpoch}

theorem toNat_mem_slotsOf {assignment : List (SubmissionId × UInt16)} {slot : UInt16} :
    slot.toNat ∈ slotsOf assignment ↔ slot ∈ assignment.map Prod.snd := by
  simp [slotsOf, UInt16.toNat_inj]

theorem BuiltFrom.ids_ascending (hbuilt : BuiltFrom hasher epoch height key real built) :
    (built.assignment.map Prod.fst).Pairwise (· < ·) := by
  have hle : (built.assignment.map Prod.fst).Pairwise (· ≤ ·) := by
    rw [hbuilt.ids, List.pairwise_map]
    exact ordered_pairwise real
  exact hle.imp₂ (fun _ _ hle hne ↦ lt_of_le_of_ne hle hne) hbuilt.nodup_ids

theorem BuiltFrom.firstFree (hbuilt : BuiltFrom hasher epoch height key real built)
    {position : ℕ} {id : SubmissionId} {slot : UInt16}
    (hassigned : built.assignment[position]? = some (id, slot)) :
    ∃ kE seed start, epochKey hasher key epoch = .ok kE ∧ slotSeed hasher kE id = .ok seed ∧
      slotFromSeed seed height = .ok start ∧
      FirstFree (· ∈ (built.assignment.take position).map fun earlier ↦ earlier.2.toNat)
        (2 ^ height.toNat) start.toNat slot.toNat := by
  obtain ⟨start, hstart, hstartNat⟩ :=
    slotFromSeed_eq (seedOf hasher (keyOfEpoch hasher key epoch) id) hbuilt.height_mem
  refine ⟨_, _, start, epochKey_eq hasher key epoch, slotSeed_eq hasher _ id, hstart, ?_⟩
  have hid : ((ordered real).map Prod.fst)[position]? = some id := by
    rw [← hbuilt.ids, List.getElem?_map, hassigned]
    rfl
  rw [List.getElem?_map, Option.map_eq_some_iff] at hid
  obtain ⟨entry, hentry, rfl⟩ := hid
  have hfirst := hbuilt.probed.firstFree position
    (startOf (seedOf hasher (keyOfEpoch hasher key epoch) entry.1) height) slot.toNat
    (by rw [List.getElem?_map, hentry]; rfl) (by rw [slotsOf, List.getElem?_map, hassigned]; rfl)
  rw [hstartNat]
  rwa [slotsOf, ← List.map_take] at hfirst

theorem BuiltFrom.completeTree (hbuilt : BuiltFrom hasher epoch height key real built) :
    CompleteTree hasher epoch height key real built where
  epoch_eq := hbuilt.epoch_eq
  height_eq := hbuilt.height_eq
  length_leaves := hbuilt.length_leaves
  slots_lt := fun _ hassigned ↦ hbuilt.slot_lt hassigned
  slots_nodup := by
    have hslots : slotsOf built.assignment =
        (built.assignment.map Prod.snd).map UInt16.toNat := by
      simp [slotsOf]
    have hnodup := hbuilt.probed.nodup
    rw [hslots] at hnodup
    exact hnodup.of_map _
  ids_ascending := hbuilt.ids_ascending
  ids_perm := by
    rw [hbuilt.ids]
    exact (ordered_perm real).map Prod.fst
  firstFree := fun _ _ _ hassigned ↦ hbuilt.firstFree hassigned
  padding := by
    intro slot hslot hfree
    refine ⟨_, _, _, epochKey_eq hasher key epoch, paddingPrf_eq hasher _ slot,
      digest_padding hasher _, ?_⟩
    exact hbuilt.leaf_padding slot.toNat hslot (fun hmember ↦ hfree (toNat_mem_slotsOf.mp hmember))
  proofs := by
    intro entry hentry
    obtain ⟨proof, hproof, hheight, -, haccepted⟩ := hbuilt.accepted hentry
    refine ⟨proof, hproof, ?_, verifyForHeight_eq_ok_iff.mpr ⟨hheight, haccepted⟩⟩
    rw [haccepted.siblings, hheight]
  no_others := fun _ hmissing ↦ hbuilt.proof_of_not_mem hmissing

end Completeness

/-- Tree completeness: a build is refused for a height out of range, then for more submissions
than slots, then for two submissions of one identifier, and otherwise it returns a complete tree
over exactly the submitted set. -/
theorem build_complete (hasher : Hasher) (epoch : UInt64) (height : UInt8) (key : Digest)
    (real : List (SubmissionId × Digest)) :
    if ¬ (minHeight ≤ height ∧ height ≤ maxHeight) then
      build hasher epoch height key real = .error .malformedPayload
    else if 2 ^ height.toNat < real.length then
      build hasher epoch height key real = .error .epochCapacityExceeded
    else if ¬ (real.map Prod.fst).Nodup then
      build hasher epoch height key real = .error .malformedPayload
    else
      ∃ built, build hasher epoch height key real = .ok built ∧
        CompleteTree hasher epoch height key real built := by
  split
  · next hheight => exact build_of_height hheight
  · next hheight =>
    have hmem : minHeight ≤ height ∧ height ≤ maxHeight := not_not.mp hheight
    split
    · next hlength => exact build_of_length hmem hlength
    · next hlength =>
      split
      · next hduplicate => exact build_of_duplicate hmem hlength hduplicate
      · next hduplicate =>
        obtain ⟨built, hbuild, hfrom⟩ :=
          exists_build hasher epoch key hmem hlength (not_not.mp hduplicate)
        exact ⟨built, hbuild, hfrom.completeTree⟩

end AnchoredLog.Log.TreeCompleteness
