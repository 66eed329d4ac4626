import AnchoredLog.Library.FieldReader

/-!
# Records at literal offsets

A record of fixed-width fields is the concatenation of its fields. A reader that takes a field at a
literal offset takes the field whose predecessors have that many octets (`slice_flatten`), and
octets of the right number are cut into fields from the front (`exists_octets_append`).

A `Cursor` writes such a record into a buffer of a fixed width: it passes over a field that does not
fit, and fills the buffer when the fields have its width (`octets_foldl_put`).
-/

set_option autoImplicit false
set_option relaxedAutoImplicit false

namespace AnchoredLog.Library.Layouts

open ByteCodec

/-! ### Reading at an offset -/

variable {fields : List (List UInt8)} {off width : ℕ} {field : List UInt8}

theorem flatten_split {index : ℕ} (hfield : fields[index]? = some field) :
    fields.flatten =
      (fields.take index).flatten ++ (field ++ (fields.drop (index + 1)).flatten) := by
  obtain ⟨hindex, rfl⟩ := List.getElem?_eq_some_iff.mp hfield
  rw [← List.flatten_cons, ← List.drop_eq_getElem_cons hindex, ← List.flatten_append,
    List.take_append_drop]

/-- The octets at an offset are the field that starts there. -/
theorem slice_flatten (index : ℕ) (hfield : fields[index]? = some field)
    (hoff : (fields.take index).flatten.length = off) (hwidth : field.length = width) :
    (fields.flatten.drop off).take width = field := by
  rw [flatten_split hfield, List.drop_left' hoff, List.take_left' hwidth]

/-- The octet at an offset is the field of one octet that starts there. -/
theorem getElem?_flatten (index : ℕ) {octet : UInt8} (hfield : fields[index]? = some [octet])
    (hoff : (fields.take index).flatten.length = off) : fields.flatten[off]? = some octet := by
  rw [flatten_split hfield, List.getElem?_append_right hoff.le, hoff, Nat.sub_self]
  rfl

/-! ### Cutting fields from the front -/

theorem exists_octets_append (width rest : ℕ) {source : List UInt8}
    (hlength : source.length = width + rest) :
    ∃ (string : Octets width) (tail : List UInt8),
      source = string.octets ++ tail ∧ tail.length = rest := by
  have htake : (source.take width).length = width := by
    rw [List.length_take]
    omega
  refine ⟨⟨source.take width, htake⟩, source.drop width, ?_, ?_⟩
  · exact (List.take_append_drop width source).symm
  · rw [List.length_drop]
    omega

theorem exists_octet_cons {rest : ℕ} {source : List UInt8} (hlength : source.length = rest + 1) :
    ∃ octet tail, source = octet :: tail ∧ tail.length = rest := by
  obtain ⟨octet, tail, rfl⟩ := List.exists_cons_of_length_eq_add_one hlength
  exact ⟨octet, tail, rfl, Nat.succ.inj hlength⟩

/-- Two octets are the encoding of an unsigned integer. -/
theorem exists_u16 (string : Octets 2) :
    ∃ value : UInt16, string.octets = leList 2 value.toNat := by
  have hlt := leNat_lt string.octets
  have hround := leList_leNat string.octets
  rw [string.length_octets] at hlt hround
  refine ⟨UInt16.ofNat (leNat string.octets), ?_⟩
  rw [UInt16.toNat_ofNat', Nat.mod_eq_of_lt (by simpa using hlt), hround]

/-- Eight octets are the encoding of an unsigned integer. -/
theorem exists_u64 (string : Octets 8) :
    ∃ value : UInt64, string.octets = leList 8 value.toNat := by
  have hlt := leNat_lt string.octets
  have hround := leList_leNat string.octets
  rw [string.length_octets] at hlt hround
  refine ⟨UInt64.ofNat (leNat string.octets), ?_⟩
  rw [UInt64.toNat_ofNat', Nat.mod_eq_of_lt (by simpa using hlt), hround]

/-- Eight octets are the encoding of a signed integer. -/
theorem exists_i64 (string : Octets 8) :
    ∃ value : Int64, string.octets = leList 8 value.toUInt64.toNat := by
  obtain ⟨word, hword⟩ := exists_u64 string
  exact ⟨word.toInt64, hword⟩

/-! ### Writing with a cursor -/

/-- A buffer of a fixed width and the position of the next write. -/
structure Cursor (width : ℕ) where
  out : Octets width
  position : ℕ

/-- A cursor at the front of a buffer of zeros. -/
def Cursor.start (width : ℕ) : Cursor width :=
  ⟨Octets.zeros width, 0⟩

/-- Writes octets at the position when they fit there, and moves past them in any case. -/
def Cursor.put (cursor : Cursor width) (octets : List UInt8) : Cursor width :=
  ⟨(cursor.out.overwrite? cursor.position octets).getD cursor.out, cursor.position + octets.length⟩

theorem octets_overwrite? {string replaced : Octets width} {start : ℕ} {source : List UInt8}
    (hreplaced : string.overwrite? start source = some replaced) :
    replaced.octets =
      string.octets.take start ++ source ++ string.octets.drop (start + source.length) := by
  unfold Octets.overwrite? at hreplaced
  split at hreplaced
  · rw [← Option.some.inj hreplaced]
  · cases hreplaced

/-- Fields that fit into what is left of the buffer are written one after the other. -/
theorem octets_foldl_put (fields : List (List UInt8)) {cursor : Cursor width}
    (hfits : cursor.position + fields.flatten.length ≤ width) :
    (fields.foldl Cursor.put cursor).out.octets =
      cursor.out.octets.take cursor.position ++ fields.flatten ++
        cursor.out.octets.drop (cursor.position + fields.flatten.length) := by
  induction fields generalizing cursor with
  | nil => simp
  | cons field fields ih =>
    rw [List.flatten_cons, List.length_append] at hfits ⊢
    have hfield : cursor.position + field.length ≤ width := by omega
    obtain ⟨replaced, hreplaced⟩ : ∃ replaced,
        cursor.out.overwrite? cursor.position field = some replaced := ⟨_, dif_pos hfield⟩
    have hput : cursor.put field = ⟨replaced, cursor.position + field.length⟩ := by
      rw [Cursor.put, hreplaced, Option.getD_some]
    have hwidth := cursor.out.length_octets
    have hbefore : (cursor.out.octets.take cursor.position ++ field).length =
        cursor.position + field.length := by
      rw [List.length_append, List.length_take]
      omega
    rw [List.foldl_cons, hput, ih (by dsimp only; omega), octets_overwrite? hreplaced,
      List.take_left' hbefore, ← List.drop_drop, List.drop_left' hbefore, List.drop_drop]
    simp [Nat.add_assoc]

/-- Fields of the width of the buffer fill it. -/
theorem octets_foldl_put_start {fields : List (List UInt8)}
    (hwidth : fields.flatten.length = width) :
    (fields.foldl Cursor.put (Cursor.start width)).out.octets = fields.flatten := by
  have hfits : (Cursor.start width).position + fields.flatten.length ≤ width := by
    rw [hwidth]
    exact (Nat.zero_add width).le
  rw [octets_foldl_put fields hfits, Cursor.start, hwidth]
  simp [Octets.zeros]

end AnchoredLog.Library.Layouts
