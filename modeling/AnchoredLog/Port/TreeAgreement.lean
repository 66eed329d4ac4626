import AnchoredLog.Library.Agreement
import AnchoredLog.Log.TreeCompleteness
import AnchoredLog.Port.Tree

/-!
# The epoch tree and its TypeScript port agree

Both builders are compared through the specification of a built epoch, not through each other:
the port's slots are probed from the same starts, and starts determine slots (`Probed.unique`);
its leaves are the leaves `BuiltFrom` names slot by slot; and its root and its siblings are those
of the complete hash tree over them. `agree_build` compares the two builds with their refusals,
`agree_proof` the two proofs of one identifier, and `verifyInclusion_eq_ok_iff` says that the
port's verifier accepts exactly the climbs the engine's does. `port_tree_agrees` collects them.
-/

set_option autoImplicit false
set_option relaxedAutoImplicit false

namespace AnchoredLog.Port.TreeAgreement

open Core.Preimages Library.ByteCodec Library.Fallible Library.LinearProbing Library.MerkleTree
open Library.Agreement Primitives Log.TreeCompleteness

/-! ### The byte order -/

theorem compareBytes_eq_zero_iff (a b : List UInt8) : compareBytes a b = 0 ↔ a = b := by
  induction a generalizing b with
  | nil =>
    cases b with
    | nil => simp [compareBytes]
    | cons y b => simp [compareBytes]
  | cons x a ih =>
    cases b with
    | nil => simp [compareBytes]
    | cons y b =>
      unfold compareBytes
      by_cases heq : x = y
      · rw [if_neg (not_not.mpr heq), ih, List.cons.injEq, and_iff_right heq]
      · rw [if_pos heq]
        by_cases hlt : x < y
        · simp [hlt, heq]
        · simp [hlt, heq]

/-- The port's byte order is the order of the engine's identifiers. -/
theorem compareBytes_le_zero_iff (a b : List UInt8) : compareBytes a b ≤ 0 ↔ ¬ b < a := by
  induction a generalizing b with
  | nil =>
    cases b with
    | nil => simp [compareBytes]
    | cons y b => simp [compareBytes]
  | cons x a ih =>
    cases b with
    | nil => simp [compareBytes]
    | cons y b =>
      unfold compareBytes
      rw [List.cons_lt_cons_iff]
      by_cases heq : x = y
      · rw [if_neg (not_not.mpr heq), ih, heq]
        simp
      · rw [if_pos heq]
        have hne : ¬ y = x := fun hyx ↦ heq hyx.symm
        by_cases hlt : x < y
        · simp [hlt, hne, not_lt_of_gt hlt]
        · have hgt : y < x := lt_of_le_of_ne (not_lt.mp hlt) hne
          simp [hlt, hgt]

/-! ### Heights, seeds and digests -/

section Digests

variable (hasher : Hasher)

theorem capacityOf_eq {height : UInt8}
    (hheight : Log.EpochTree.minHeight ≤ height ∧ height ≤ Log.EpochTree.maxHeight) :
    Tree.capacityOf height.toNat = ((2 ^ height.toNat : ℕ) : ℤ) := by
  obtain ⟨hlow, hhigh⟩ := height_bounds hheight
  generalize height.toNat = levels at hlow hhigh
  interval_cases levels <;> rfl

theorem height_iff (height : UInt8) :
    (Log.EpochTree.minHeight ≤ height ∧ height ≤ Log.EpochTree.maxHeight) ↔
      ¬ ((height.toNat : ℤ) < Tree.minHeight ∨ Tree.maxHeight < (height.toNat : ℤ)) := by
  rw [UInt8.le_iff_toNat_le, UInt8.le_iff_toNat_le]
  change 4 ≤ height.toNat ∧ height.toNat ≤ 16 ↔
    ¬ ((height.toNat : ℤ) < 4 ∨ 16 < (height.toNat : ℤ))
  omega

theorem prf_eq (key : Digest) {input : List UInt8} (hlength : input.length ≤ 17) :
    Tree.prf hasher key.octets input =
      .ok (hasher.hash (PrfPreimage.mk key input).fields.flatten).octets := by
  rw [Tree.prf, prfPreimage_eq key hlength, bind_ok]
  rfl

theorem epochKey_port (key : Digest) (epoch : UInt64) :
    Tree.epochKey hasher key.octets epoch.toNat = .ok (keyOfEpoch hasher key epoch).octets := by
  rw [Tree.epochKey, u64le_eq, bind_ok, prf_eq hasher key (by simp [concat])]
  simp only [concat, List.flatten_cons, List.flatten_nil, List.append_nil]
  rfl

theorem slotSeed_port (kE : Digest) (id : SubmissionId) :
    Tree.slotSeed hasher kE.octets id.octets = .ok (seedOf hasher kE id).octets := by
  rw [Tree.slotSeed, orFail_of_true id.length_octets, bind_ok, prf_eq hasher kE (by simp [concat])]
  simp only [concat, List.flatten_cons, List.flatten_nil, List.append_nil]
  rfl

theorem slotFromSeed_port (seed : Digest) {height : UInt8}
    (hheight : Log.EpochTree.minHeight ≤ height ∧ height ≤ Log.EpochTree.maxHeight) :
    Tree.slotFromSeed seed.octets height.toNat = .ok (startOf seed height) := by
  have hpositive := Nat.two_pow_pos height.toNat
  have hmask : (((2 ^ height.toNat : ℕ) : ℤ) - 1).toNat = 2 ^ height.toNat - 1 := by omega
  rw [Tree.slotFromSeed, Tree.assertHeight, orFail_of_true ((height_iff height).mp hheight),
    bind_ok, readU16le, require_of_true (by simp), bind_ok, pure_eq_ok, bind_ok,
    capacityOf_eq hheight, hmask, Nat.and_two_pow_sub_one_eq_mod, List.drop_zero]
  rfl

theorem paddingLeaf_port (kE : Digest) {index : ℕ} (hindex : index < 2 ^ 16) :
    Tree.paddingLeaf hasher kE.octets index =
      .ok (hasher.hash (paddingMessage hasher kE index)).octets := by
  rw [Tree.paddingLeaf, u16le_eq hindex, bind_ok, prf_eq hasher kE (by simp [concat]), bind_ok,
    paddingLeafPreimage_eq, bind_ok]
  simp only [concat, List.flatten_cons, List.flatten_nil, List.append_nil]
  rfl

theorem realLeaf_port (leaf : Digest) :
    Tree.realLeaf hasher leaf.octets = .ok (hasher.hash (realLeafMessage leaf)).octets := by
  rw [Tree.realLeaf, realLeafPreimage_eq, bind_ok]
  rfl

theorem internalNode_port (left right : Digest) :
    Tree.internalNode hasher left.octets right.octets =
      .ok (nodeDigest hasher left right).octets := by
  rw [Tree.internalNode, nodePreimage_eq, bind_ok]
  rfl

/-! ### Levels, roots and siblings -/

theorem nextLevel_port (level : List Digest) (heven : level.length % 2 = 0) :
    Tree.nextLevel hasher (level.map Octets.octets) =
      .ok ((pairUp (nodeDigest hasher) level).map Octets.octets) := by
  fun_induction pairUp (nodeDigest hasher) level with
  | case1 left right rest ih =>
    have hrest : rest.length % 2 = 0 := by
      simp only [List.length_cons] at heven
      omega
    rw [List.map_cons, List.map_cons, Tree.nextLevel, internalNode_port, bind_ok, ih hrest, bind_ok]
    rfl
  | case2 level hshort =>
    rcases level with - | ⟨left, - | ⟨right, rest⟩⟩
    · rfl
    · simp at heven
    · exact (hshort left right rest rfl).elim

/-- The port's root of a complete level is the engine's. -/
theorem rootOf_port {height : ℕ} {level : List Digest} (hlength : level.length = 2 ^ height)
    {root : Digest} (hroot : subtreeRoot (nodeDigest hasher) height level = some root) :
    Tree.rootOf hasher (level.map Octets.octets) = .ok root.octets := by
  induction height generalizing level with
  | zero =>
    obtain ⟨only, rfl⟩ : ∃ only, level = [only] :=
      List.length_eq_one_iff.mp (by simpa using hlength)
    obtain rfl : only = root := Option.some_injective _ hroot
    rw [Tree.rootOf, if_neg (by simp)]
    rfl
  | succ height ih =>
    have hpositive := Nat.two_pow_pos height
    have hnext := nextLevel_port hasher level (by rw [hlength, pow_succ]; omega)
    rw [Tree.rootOf, if_pos (by rw [List.length_map, hlength, pow_succ]; omega)]
    split
    · next above habove =>
      obtain rfl := Except.ok.inj (hnext.symm.trans habove)
      exact ih (length_pairUp_of_pow _ hlength) hroot
    · next failure hfailure => exact absurd (hnext.symm.trans hfailure) (by simp)

/-- The siblings the port collects are the sibling path. -/
theorem siblingsFrom_port {height index : ℕ} {level path : List Digest}
    (hlength : level.length = 2 ^ height)
    (hpath : siblingPath (nodeDigest hasher) height level index = some path) :
    Tree.siblingsFrom hasher (level.map Octets.octets) index = .ok (path.map Octets.octets) := by
  induction height generalizing level index path with
  | zero =>
    obtain rfl : [] = path := Option.some_injective _ hpath
    rw [Tree.siblingsFrom, if_neg (by rw [List.length_map, hlength]; simp)]
    rfl
  | succ height ih =>
    have hpositive := Nat.two_pow_pos height
    have hnext := nextLevel_port hasher level (by rw [hlength, pow_succ]; omega)
    rw [siblingPath] at hpath
    obtain ⟨sibling, hsibling, rest, hrest, rfl⟩ : ∃ sibling,
        level[siblingIndex index]? = some sibling ∧
          ∃ rest, siblingPath (nodeDigest hasher) height (pairUp (nodeDigest hasher) level)
            (index / 2) = some rest ∧ sibling :: rest = path := by
      simpa [Option.bind_eq_some_iff] using hpath
    rw [Tree.siblingsFrom, if_pos (by rw [List.length_map, hlength, pow_succ]; omega)]
    change (okOr (level.map Octets.octets)[siblingIndex index]? Tree.undefinedRead >>= _) = _
    rw [List.getElem?_map, hsibling, Option.map_some, okOr_some, bind_ok]
    split
    · next above habove =>
      obtain rfl := Except.ok.inj (hnext.symm.trans habove)
      rw [ih (length_pairUp_of_pow _ hlength) hrest, bind_ok]
      rfl
    · next failure hfailure => exact absurd (hnext.symm.trans hfailure) (by simp)

end Digests

/-! ### Slots -/

/-- The submission the port is given for one of the engine's. -/
def submissionOf (entry : SubmissionId × Digest) : Tree.Submission :=
  ⟨entry.1.octets, entry.2.octets⟩

/-- The port's record of a submission placed at a slot. -/
def assignedOf (entry : SubmissionId × Digest) (slot : ℕ) : Tree.Assigned :=
  ⟨entry.1.octets, slot, entry.2.octets⟩

/-- Both sort by identifier. -/
theorem sortSubmissions_map (real : List (SubmissionId × Digest)) :
    Tree.sortSubmissions (real.map submissionOf) =
      (Log.EpochTree.ordered real).map submissionOf := by
  rw [Tree.sortSubmissions, Log.EpochTree.ordered]
  refine (List.map_insertionSort _ _ submissionOf real fun left _ right _ ↦ ?_).symm
  rw [Octets.le_iff_octets_le, ← not_lt]
  exact (compareBytes_le_zero_iff _ _).symm

/-- Both refuse two submissions of one identifier. -/
theorem isChain_submissions_iff (real : List (SubmissionId × Digest)) :
    ((Log.EpochTree.ordered real).map submissionOf).IsChain
        (fun a b ↦ ¬ compareBytes a.submissionId b.submissionId = 0) ↔
      (real.map Prod.fst).Nodup := by
  rw [List.isChain_map, ← isChain_ordered_iff]
  refine List.IsChain.iff fun left right ↦ not_congr ?_
  rw [compareBytes_eq_zero_iff, Octets.ext_iff]
  rfl

/-- The probing loop ends at the first slot that is not taken. -/
theorem probeLoop_eq {taken : List Bool} {capacity start step steps : ℕ} (hstep : step < capacity)
    (hfree : taken[(start + step) % capacity]?.getD false = false)
    (hbefore : ∀ earlier < step, taken[(start + earlier) % capacity]?.getD false = true)
    (hsteps : steps ≤ step) :
    Tree.probeLoop taken capacity ((start + steps) % capacity) steps =
      .ok ((start + step) % capacity) := by
  induction hremaining : step - steps generalizing steps with
  | zero =>
    obtain rfl : steps = step := by omega
    rw [Tree.probeLoop, if_neg (by simp [hfree])]
    rfl
  | succ remaining ih =>
    rw [Tree.probeLoop, if_pos (hbefore steps (by omega)), if_neg (by omega), Nat.mod_add_mod,
      Nat.add_assoc]
    exact ih (by omega) (by omega)

section Slots

variable {hasher : Hasher} {kE : Digest} {height : UInt8}

/-- The port's table once a list of submissions has been assigned slots. -/
structure Taken (hasher : Hasher) (kE : Digest) (height : UInt8)
    (entries : List (SubmissionId × Digest)) (taken : List Bool) (slots : List ℕ) : Prop where
  length_taken : taken.length = 2 ^ height.toNat
  probed : Probed (2 ^ height.toNat)
    (entries.map fun entry ↦ startOf (seedOf hasher kE entry.1) height) slots
  taken_iff : ∀ index, taken[index]?.getD false = true ↔ index ∈ slots

theorem zipWith_concat (entries : List (SubmissionId × Digest)) (slots : List ℕ)
    (hlengths : slots.length = entries.length) (entry : SubmissionId × Digest) (slot : ℕ) :
    List.zipWith assignedOf (entries ++ [entry]) (slots ++ [slot]) =
      List.zipWith assignedOf entries slots ++ [assignedOf entry slot] := by
  rw [List.zipWith_append hlengths.symm]
  rfl

/-- One submission takes the first slot free from its start. -/
theorem assignSlot_port
    (hheight : Log.EpochTree.minHeight ≤ height ∧ height ≤ Log.EpochTree.maxHeight)
    {entries : List (SubmissionId × Digest)} {taken : List Bool} {slots : List ℕ}
    (htaken : Taken hasher kE height entries taken slots)
    (hroom : entries.length < 2 ^ height.toNat) (out : List Tree.Assigned)
    (entry : SubmissionId × Digest) :
    ∃ taken' slot, Tree.assignSlot hasher kE.octets height.toNat (2 ^ height.toNat) (taken, out)
        (submissionOf entry) = .ok (taken', out ++ [assignedOf entry slot]) ∧
      Taken hasher kE height (entries ++ [entry]) taken' (slots ++ [slot]) := by
  have hlengths : slots.length = entries.length := by
    rw [htaken.probed.length_eq, List.length_map]
  obtain ⟨slot, hfirst⟩ := exists_firstFree slots (startOf (seedOf hasher kE entry.1) height)
    (hlengths.trans_lt hroom)
  have hslot := hfirst.lt_capacity
  have hprobe : Tree.probeLoop taken (2 ^ height.toNat)
      (startOf (seedOf hasher kE entry.1) height) 0 = .ok slot := by
    obtain ⟨step, hstep, rfl, hfree, hbefore⟩ := hfirst
    have hloop := probeLoop_eq hstep
      (Bool.eq_false_iff.mpr fun htrue ↦ hfree ((htaken.taken_iff _).mp htrue))
      (fun earlier hearlier ↦ (htaken.taken_iff _).mpr (hbefore earlier hearlier)) (Nat.zero_le _)
    rwa [Nat.add_zero, Nat.mod_eq_of_lt (startOf_lt _ _)] at hloop
  refine ⟨taken.set slot true, slot, ?_, ⟨?_, ?_, ?_⟩⟩
  · simp only [Tree.assignSlot, submissionOf]
    rw [slotSeed_port, bind_ok, slotFromSeed_port _ hheight, bind_ok, hprobe, bind_ok]
    rfl
  · rw [List.length_set, htaken.length_taken]
  · rw [List.map_append]
    exact htaken.probed.concat hfirst
  · intro index
    rw [List.mem_append, List.mem_singleton]
    by_cases heq : index = slot
    · rw [heq, List.getElem?_set_self (by rw [htaken.length_taken]; exact hslot)]
      simp
    · rw [List.getElem?_set_ne (Ne.symm heq), htaken.taken_iff]
      simp [heq]

theorem foldlM_assignSlot_port (hasher : Hasher) (kE : Digest)
    (hheight : Log.EpochTree.minHeight ≤ height ∧ height ≤ Log.EpochTree.maxHeight)
    (entries : List (SubmissionId × Digest)) (hroom : entries.length ≤ 2 ^ height.toNat) :
    ∃ taken slots, (entries.map submissionOf).foldlM
        (Tree.assignSlot hasher kE.octets height.toNat (2 ^ height.toNat))
        (List.replicate (2 ^ height.toNat) false, []) =
          .ok (taken, List.zipWith assignedOf entries slots) ∧
      Taken hasher kE height entries taken slots := by
  induction entries using List.reverseRecOn with
  | nil =>
    refine ⟨_, [], rfl, List.length_replicate, probed_nil _, fun index ↦ ?_⟩
    rw [List.getElem?_replicate]
    split <;> simp
  | append_singleton entries entry ih =>
    rw [List.length_append, List.length_singleton] at hroom
    obtain ⟨taken, slots, hfold, htaken⟩ := ih (by omega)
    have hlengths : slots.length = entries.length := by
      rw [htaken.probed.length_eq, List.length_map]
    obtain ⟨taken', slot, hstep, htaken'⟩ :=
      assignSlot_port hheight htaken (by omega) (List.zipWith assignedOf entries slots) entry
    refine ⟨taken', slots ++ [slot], ?_, htaken'⟩
    rw [List.map_append, List.foldlM_append, hfold, bind_ok, List.map_singleton, List.foldlM_cons,
      hstep, bind_ok, List.foldlM_nil, zipWith_concat entries slots hlengths]
    rfl

end Slots

/-! ### Leaves -/

/-- Writing the real leaves: each assigned slot holds its own, and no other cell changes. -/
theorem foldlM_writeLeaf_port (hasher : Hasher) (entries : List (SubmissionId × Digest))
    (slots : List ℕ) (hnodup : slots.Nodup) (hlengths : slots.length = entries.length)
    (cells : List (Option (List UInt8))) (hbound : ∀ slot ∈ slots, slot < cells.length) :
    ∃ written, (List.zipWith assignedOf entries slots).foldlM (Tree.writeLeaf hasher) cells =
        .ok written ∧ written.length = cells.length ∧
      (∀ index ∉ slots, written[index]? = cells[index]?) ∧
      ∀ (position : ℕ) (entry : SubmissionId × Digest) (slot : ℕ),
        entries[position]? = some entry → slots[position]? = some slot →
          written[slot]? = some (some (hasher.hash (realLeafMessage entry.2)).octets) := by
  induction entries generalizing slots cells with
  | nil => exact ⟨cells, rfl, rfl, fun _ _ ↦ rfl, fun _ _ _ hentry ↦ by simp at hentry⟩
  | cons first entries ih =>
    match slots with
    | [] => simp at hlengths
    | slot :: slots =>
      rw [List.nodup_cons] at hnodup
      obtain ⟨written, hfold, hlength, hother, hwritten⟩ :=
        ih slots hnodup.2 (by simpa using hlengths)
        (cells.set slot (some (hasher.hash (realLeafMessage first.2)).octets))
        (fun other hmember ↦ by
          rw [List.length_set]
          exact hbound other (List.mem_cons_of_mem _ hmember))
      refine ⟨written, ?_, by rw [hlength, List.length_set], ?_, ?_⟩
      · rw [List.zipWith_cons_cons, List.foldlM_cons, Tree.writeLeaf, assignedOf, realLeaf_port,
          bind_ok]
        exact hfold
      · intro index hindex
        rw [List.mem_cons, not_or] at hindex
        rw [hother index hindex.2, List.getElem?_set_ne (Ne.symm hindex.1)]
      · intro position entry otherSlot hentry hslot
        cases position with
        | zero =>
          obtain rfl : first = entry := Option.some_injective _ hentry
          obtain rfl : slot = otherSlot := Option.some_injective _ hslot
          rw [hother slot hnodup.1, List.getElem?_set_self (hbound slot List.mem_cons_self)]
        | succ position => exact hwritten position entry otherSlot hentry hslot

/-- The leaf the port leaves in a cell. -/
def leafOfPortCell (hasher : Hasher) (kE : Digest) (cell : Option (List UInt8) × ℕ) : List UInt8 :=
  cell.1.getD (hasher.hash (paddingMessage hasher kE cell.2)).octets

theorem mapM_fillLeaf_port (hasher : Hasher) (kE : Digest) {cells : List (Option (List UInt8))}
    (hlength : cells.length ≤ 2 ^ 16) :
    cells.zipIdx.mapM (Tree.fillLeaf hasher kE.octets) =
      .ok (cells.zipIdx.map (leafOfPortCell hasher kE)) := by
  refine mapM_eq_ok_map _ fun cell hcell ↦ ?_
  have hindex := (List.mem_zipIdx' (x := cell.1) (i := cell.2) hcell).1
  rcases cell with ⟨_ | leaf, index⟩
  · exact paddingLeaf_port hasher kE (by dsimp only at hindex; omega)
  · rfl

/-! ### Building -/

/-- The port's built epoch is the engine's, field by field. -/
structure SameBuilt (built : Log.EpochTree.BuiltEpoch) (port : Tree.BuiltEpoch) : Prop where
  epoch : port.epoch = built.epoch.toNat
  height : port.height = built.height.toNat
  root : port.root = built.root.octets
  leaves : port.leaves = built.leaves.map Octets.octets
  assignment : port.assignment =
    built.assignment.map fun assigned ↦ ⟨assigned.1.octets, assigned.2.toNat⟩

section Building

variable {hasher : Hasher} {epoch : UInt64} {height : UInt8} {key : Digest}
  {real : List (SubmissionId × Digest)} {built : Log.EpochTree.BuiltEpoch}

theorem toNat_capacityOf
    (hheight : Log.EpochTree.minHeight ≤ height ∧ height ≤ Log.EpochTree.maxHeight) :
    (Tree.capacityOf height.toNat).toNat = 2 ^ height.toNat := by
  rw [capacityOf_eq hheight, Int.toNat_natCast]

theorem assertHeight_eq
    (hheight : Log.EpochTree.minHeight ≤ height ∧ height ≤ Log.EpochTree.maxHeight) :
    Tree.assertHeight height.toNat = .ok () :=
  orFail_of_true ((height_iff height).mp hheight)

/-- The port assigns the slots the engine does. -/
theorem assignSlots_port (hbuilt : BuiltFrom hasher epoch height key real built) :
    Tree.assignSlots hasher (keyOfEpoch hasher key epoch).octets height.toNat
        (real.map submissionOf) =
      .ok (List.zipWith assignedOf (Log.EpochTree.ordered real) (slotsOf built.assignment)) := by
  obtain ⟨taken, slots, hfold, htaken⟩ :=
    foldlM_assignSlot_port hasher (keyOfEpoch hasher key epoch) hbuilt.height_mem
      (Log.EpochTree.ordered real) (by rw [length_ordered]; exact hbuilt.length_le)
  obtain rfl : slots = slotsOf built.assignment := htaken.probed.unique hbuilt.probed
  have hlength : ¬ 2 ^ height.toNat < (real.map submissionOf).length := by
    rw [List.length_map]
    exact not_lt.mpr hbuilt.length_le
  simp only [Tree.assignSlots, toNat_capacityOf hbuilt.height_mem, sortSubmissions_map]
  rw [assertHeight_eq hbuilt.height_mem, bind_ok, orFail_of_true hlength, bind_ok,
    orFail_of_true ((isChain_submissions_iff real).mpr hbuilt.nodup), bind_ok, hfold, bind_ok]
  rfl

/-- The cells the port fills are the engine's leaves, slot by slot. -/
theorem leaves_port (hbuilt : BuiltFrom hasher epoch height key real built) :
    ∃ written, (List.zipWith assignedOf (Log.EpochTree.ordered real)
          (slotsOf built.assignment)).foldlM (Tree.writeLeaf hasher)
        (List.replicate (2 ^ height.toNat) none) = .ok written ∧
      written.zipIdx.mapM (Tree.fillLeaf hasher (keyOfEpoch hasher key epoch).octets) =
        .ok (built.leaves.map Octets.octets) := by
  have hlengths : (slotsOf built.assignment).length = (Log.EpochTree.ordered real).length := by
    rw [hbuilt.probed.length_eq, List.length_map]
  obtain ⟨written, hfold, hlength, hother, hwritten⟩ :=
    foldlM_writeLeaf_port hasher (Log.EpochTree.ordered real) (slotsOf built.assignment)
      hbuilt.probed.nodup hlengths (List.replicate (2 ^ height.toNat) none)
      (fun slot hslot ↦ by
        rw [List.length_replicate]
        exact hbuilt.probed.lt_capacity hslot)
  rw [List.length_replicate] at hlength
  refine ⟨written, hfold, ?_⟩
  rw [mapM_fillLeaf_port hasher _ (hlength.trans_le (two_pow_height_le hbuilt.height_mem))]
  refine congrArg Except.ok (List.ext_getElem? fun index ↦ ?_)
  rw [List.getElem?_map, List.getElem?_zipIdx, List.getElem?_map, Option.map_map, Nat.zero_add]
  by_cases hindex : index < 2 ^ height.toNat
  · by_cases hassigned : index ∈ slotsOf built.assignment
    · obtain ⟨position, hposition⟩ := List.getElem?_of_mem hassigned
      obtain ⟨entry, hentry⟩ : ∃ entry, (Log.EpochTree.ordered real)[position]? = some entry :=
        ⟨_, List.getElem?_eq_getElem (hlengths ▸ (List.getElem?_eq_some_iff.mp hposition).1)⟩
      rw [hwritten position entry index hentry hposition]
      rw [slotsOf, List.getElem?_map, Option.map_eq_some_iff] at hposition
      obtain ⟨assigned, hassignedAt, rfl⟩ := hposition
      rw [hbuilt.leaf_real position entry assigned hentry hassignedAt]
      rfl
    · rw [hother index hassigned, List.getElem?_replicate_of_lt hindex,
        hbuilt.leaf_padding index hindex hassigned]
      rfl
  · rw [List.getElem?_eq_none (by omega),
      List.getElem?_eq_none (by rw [hbuilt.length_leaves]; omega)]
    rfl

/-- The port lists the assignment as the engine does: it is already in ascending order. -/
theorem assignment_port (hbuilt : BuiltFrom hasher epoch height key real built) :
    (List.zipWith assignedOf (Log.EpochTree.ordered real) (slotsOf built.assignment)).map
        (fun a ↦ (⟨a.submissionId, a.slot⟩ : Tree.AssignmentEntry)) =
      built.assignment.map fun assigned ↦ ⟨assigned.1.octets, assigned.2.toNat⟩ := by
  refine List.ext_getElem? fun position ↦ ?_
  rw [List.getElem?_map, List.getElem?_map, List.getElem?_zipWith, slotsOf, List.getElem?_map]
  have hids : ((Log.EpochTree.ordered real)[position]?).map Prod.fst =
      (built.assignment[position]?).map Prod.fst := by
    rw [← List.getElem?_map, ← List.getElem?_map, hbuilt.ids]
  cases hentry : (Log.EpochTree.ordered real)[position]? with
  | none =>
    rw [hentry] at hids
    rw [Option.map_eq_none_iff.mp hids.symm]
    rfl
  | some entry =>
    rw [hentry, Option.map_some, eq_comm, Option.map_eq_some_iff] at hids
    obtain ⟨assigned, hassigned, heq⟩ := hids
    rw [hassigned]
    simp only [Option.map_some, assignedOf, heq]

theorem sorted_assignment_port (hbuilt : BuiltFrom hasher epoch height key real built) :
    (built.assignment.map fun assigned ↦
        (⟨assigned.1.octets, assigned.2.toNat⟩ : Tree.AssignmentEntry)).insertionSort
          (fun a b ↦ compareBytes a.submissionId b.submissionId ≤ 0) =
      built.assignment.map fun assigned ↦ ⟨assigned.1.octets, assigned.2.toNat⟩ := by
  refine List.Pairwise.insertionSort_eq ?_
  rw [List.pairwise_map]
  have hascending := hbuilt.ids_ascending
  rw [List.pairwise_map] at hascending
  exact hascending.imp fun hlt ↦ (compareBytes_le_zero_iff _ _).mpr (not_lt_of_gt hlt)

theorem buildEpoch_port (hbuilt : BuiltFrom hasher epoch height key real built) :
    ∃ port, Tree.buildEpoch hasher epoch.toNat height.toNat key.octets (real.map submissionOf) =
        .ok port ∧ SameBuilt built port := by
  obtain ⟨written, hwritten, hleaves⟩ := leaves_port hbuilt
  have hroot := rootOf_port hasher hbuilt.length_leaves hbuilt.root_eq
  refine ⟨⟨epoch.toNat, height.toNat, built.root.octets, built.leaves.map Octets.octets,
    built.assignment.map fun assigned ↦ ⟨assigned.1.octets, assigned.2.toNat⟩⟩, ?_, ?_⟩
  · simp only [Tree.buildEpoch, toNat_capacityOf hbuilt.height_mem]
    rw [assertHeight_eq hbuilt.height_mem, bind_ok, epochKey_port, bind_ok,
      assignSlots_port hbuilt, bind_ok, hwritten, bind_ok, hleaves, bind_ok, hroot, bind_ok,
      assignment_port hbuilt, sorted_assignment_port hbuilt]
    rfl
  · exact ⟨by rw [hbuilt.epoch_eq], by rw [hbuilt.height_eq], rfl, rfl, rfl⟩

/-- The two builds agree: the same refusal, or the same root, leaves and assignment. -/
theorem agree_build (hasher : Hasher) (epoch : UInt64) (height : UInt8) (key : Digest)
    (real : List (SubmissionId × Digest)) :
    Agree SameCode SameBuilt (Log.EpochTree.build hasher epoch height key real)
      (Tree.buildEpoch hasher epoch.toNat height.toNat key.octets (real.map submissionOf)) := by
  by_cases hheight : Log.EpochTree.minHeight ≤ height ∧ height ≤ Log.EpochTree.maxHeight
  · have hrefusal : ∀ failure, Tree.assignSlots hasher (keyOfEpoch hasher key epoch).octets
          height.toNat (real.map submissionOf) = .error failure →
        Tree.buildEpoch hasher epoch.toNat height.toNat key.octets (real.map submissionOf) =
          .error failure := by
      intro failure hassign
      rw [Tree.buildEpoch, assertHeight_eq hheight, bind_ok, epochKey_port, bind_ok, hassign]
      rfl
    by_cases hlength : 2 ^ height.toNat < real.length
    · rw [build_of_length hheight hlength, hrefusal (.registryFailure .EpochCapacityExceeded
        (toString real.length ++ " real submissions into " ++ toString (2 ^ height.toNat) ++
          " slots"))]
      · exact Agree.error rfl
      · simp only [Tree.assignSlots, toNat_capacityOf hheight, List.length_map]
        rw [assertHeight_eq hheight, bind_ok, orFail_of_false (not_not.mpr hlength)]
        rfl
    · by_cases hnodup : (real.map Prod.fst).Nodup
      · obtain ⟨built, hbuild, hbuilt⟩ := exists_build hasher epoch key hheight hlength hnodup
        obtain ⟨port, hport, hsame⟩ := buildEpoch_port hbuilt
        rw [hbuild, hport]
        exact Agree.ok hsame
      · rw [build_of_duplicate hheight hlength hnodup, hrefusal (.registryFailure .MalformedPayload
          "two submissions carry the same identifier in one epoch")]
        · exact Agree.error rfl
        · simp only [Tree.assignSlots, toNat_capacityOf hheight, List.length_map,
            sortSubmissions_map]
          rw [assertHeight_eq hheight, bind_ok, orFail_of_true hlength, bind_ok,
            orFail_of_false (fun hchain ↦ hnodup ((isChain_submissions_iff real).mp hchain))]
          rfl
  · rw [build_of_height hheight, Tree.buildEpoch, Tree.assertHeight,
      orFail_of_false (fun hrange ↦ hheight ((height_iff height).mpr hrange)), bind_error]
    exact Agree.error rfl

end Building

/-! ### Proofs -/

/-- The proof the port is given for one of the engine's. -/
def proofOf (proof : Log.EpochTree.InclusionProof) : Tree.InclusionProof where
  height := proof.height.toNat
  siblings := proof.siblings.digests.map Octets.octets
  slotIndex := proof.slotIndex.toNat
  epoch := proof.epoch.toNat

/-- The port's proof is the engine's, field by field. -/
def SameProof (proof : Log.EpochTree.InclusionProof) (port : Tree.InclusionProof) : Prop :=
  port = proofOf proof

/-- The two proofs of an identifier agree on every built epoch. -/
theorem agree_proof {hasher : Hasher} {epoch : UInt64} {height : UInt8} {key : Digest}
    {real : List (SubmissionId × Digest)} {built : Log.EpochTree.BuiltEpoch}
    {port : Tree.BuiltEpoch} (hbuilt : BuiltFrom hasher epoch height key real built)
    (hsame : SameBuilt built port) (id : SubmissionId) :
    Agree SameCode SameProof (built.proof id) (Tree.proofFor hasher port id.octets) := by
  have hfind : port.assignment.find? (fun a ↦ bytesEqual a.submissionId id.octets) =
      (built.assignment.find? fun entry ↦ entry.1 == id).map
        fun assigned ↦ ⟨assigned.1.octets, assigned.2.toNat⟩ := by
    rw [hsame.assignment, List.find?_map]
    congr 2
    funext assigned
    exact (bytesEqual_octets assigned.1 id).trans rfl
  cases hentry : built.assignment.find? fun entry ↦ entry.1 == id with
  | none =>
    rw [hentry] at hfind
    rw [Log.EpochTree.BuiltEpoch.proof, hentry, Tree.proofFor, hfind]
    exact Agree.error rfl
  | some assigned =>
    rw [hentry] at hfind
    have hassigned := List.mem_of_find?_eq_some hentry
    have hid : assigned.1 = id := by simpa using List.find?_some hentry
    obtain ⟨proof, hproof, hheight, hslot, hepoch, hsiblings⟩ := hbuilt.proof_eq hassigned
    rw [hid] at hproof
    rw [hproof, Tree.proofFor, hfind, Option.map_some, okOr_some, bind_ok, hsame.leaves,
      siblingsFrom_port hasher hbuilt.length_leaves hsiblings, bind_ok]
    refine Agree.ok ?_
    simp only [SameProof, proofOf, hsame.height, hsame.epoch, hbuilt.height_eq, hbuilt.epoch_eq,
      hheight, hepoch, hslot]

/-! ### Verification -/

section Verification

variable {hasher : Hasher} {leaf root : Digest} {proof : Log.EpochTree.InclusionProof}

theorem verifyLevel_port (slotIndex level : ℕ) (node sibling : Digest) :
    Tree.verifyLevel hasher slotIndex node.octets (sibling.octets, level) =
      .ok (if (slotIndex / 2 ^ level) % 2 = 0 then nodeDigest hasher node sibling
        else nodeDigest hasher sibling node).octets := by
  simp only [Tree.verifyLevel]
  rw [orFail_of_true sibling.length_octets, bind_ok, Nat.shiftRight_eq_div_pow, Nat.and_one_is_mod]
  by_cases heven : (slotIndex / 2 ^ level) % 2 = 0
  · rw [if_pos heven, if_pos heven, internalNode_port]
  · rw [if_neg heven, if_neg heven, internalNode_port]

/-- The port's loop over the siblings is a climb, the bit of each level read from the slot. -/
theorem foldlM_verifyLevel_port (slotIndex level : ℕ) (node : Digest) (siblings : List Digest) :
    ((siblings.map Octets.octets).zipIdx level).foldlM (Tree.verifyLevel hasher slotIndex)
        node.octets =
      .ok (climb (nodeDigest hasher) node (slotIndex / 2 ^ level) siblings).octets := by
  induction siblings generalizing level node with
  | nil => rfl
  | cons sibling siblings ih =>
    rw [List.map_cons, List.zipIdx_cons, List.foldlM_cons, verifyLevel_port, bind_ok, ih, climb,
      pow_succ, Nat.div_div_eq_div_mul]

/-- The port's verifier accepts exactly the proofs the engine's does. -/
theorem verifyInclusion_eq_ok_iff :
    Tree.verifyInclusion hasher leaf.octets (proofOf proof) root.octets = .ok () ↔
      Accepted hasher leaf proof root := by
  have hheight := height_iff proof.height
  rw [Tree.verifyInclusion, bind_unit_eq_ok_iff, orFail, require_eq_ok_iff, bind_unit_eq_ok_iff,
    orFail, require_eq_ok_iff, bind_unit_eq_ok_iff, orFail, require_eq_ok_iff, realLeaf_port,
    bind_ok]
  have hloop := @foldlM_verifyLevel_port hasher proof.slotIndex.toNat 0
    (hasher.hash (realLeafMessage leaf)) proof.siblings.digests
  rw [pow_zero, Nat.div_one] at hloop
  change _ ∧ _ ∧ _ ∧ (((proof.siblings.digests.map Octets.octets).zipIdx 0).foldlM
    (Tree.verifyLevel hasher proof.slotIndex.toNat) _ >>= _) = _ ↔ _
  rw [hloop, bind_ok, orFail, require_eq_ok_iff, bytesEqual_octets, decide_eq_true_iff]
  simp only [proofOf, List.length_map, Nat.cast_inj]
  constructor
  · rintro ⟨hrange, hsiblings, hslot, hroot⟩
    have hmem := hheight.mpr hrange
    rw [capacityOf_eq hmem] at hslot
    exact ⟨hmem, hsiblings, by omega, hroot⟩
  · rintro ⟨hmem, hsiblings, hslot, hroot⟩
    refine ⟨hheight.mp hmem, hsiblings, ?_, hroot⟩
    rw [capacityOf_eq hmem]
    omega

end Verification

/-- The epoch tree and its port agree: on every build with its refusals, on the proof of every
identifier of every built epoch, and on what either verifier accepts. -/
theorem port_tree_agrees (hasher : Hasher) :
    (∀ epoch height key real,
      Agree SameCode SameBuilt (Log.EpochTree.build hasher epoch height key real)
        (Tree.buildEpoch hasher epoch.toNat height.toNat key.octets (real.map submissionOf))) ∧
    (∀ epoch height key real built port,
      Log.EpochTree.build hasher epoch height key real = .ok built →
      Tree.buildEpoch hasher epoch.toNat height.toNat key.octets (real.map submissionOf) =
        .ok port →
      ∀ id, Agree SameCode SameProof (built.proof id) (Tree.proofFor hasher port id.octets)) ∧
    (∀ leaf proof root, Log.EpochTree.verify hasher leaf proof root = .ok () ↔
      Tree.verifyInclusion hasher leaf.octets (proofOf proof) root.octets = .ok ()) ∧
    ∀ leaf proof root (configuredHeight : UInt8),
      Log.EpochTree.verifyForHeight hasher leaf proof root configuredHeight = .ok () ↔
        Tree.verifyInclusionForHeight hasher leaf.octets (proofOf proof) root.octets
          configuredHeight.toNat = .ok () := by
  refine ⟨agree_build hasher, ?_, ?_, ?_⟩
  · intro epoch height key real built port hbuild hport id
    have hagree := agree_build hasher epoch height key real
    rw [hbuild, hport] at hagree
    cases hagree with
    | ok hsame => exact agree_proof (builtFrom_of_build hbuild) hsame id
  · intro leaf proof root
    rw [verify_eq_ok_iff, verifyInclusion_eq_ok_iff]
  · intro leaf proof root configuredHeight
    rw [verifyForHeight_eq_ok_iff, Tree.verifyInclusionForHeight, bind_unit_eq_ok_iff, orFail,
      require_eq_ok_iff, verifyInclusion_eq_ok_iff, ← UInt8.toNat_inj]
    simp only [proofOf, Nat.cast_inj]

end AnchoredLog.Port.TreeAgreement
