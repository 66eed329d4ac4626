import AnchoredLog.Library.ByteCodec

/-!
# Reading fixed-width fields from the front of an octet string

A reader takes one field from the front of a list of octets and returns it with what is left, or
nothing when the list is too short. Integers are little-endian. Each reader undoes the writer of
its field in front of any rest, which are the lemmas named `…_append`; a record is then read back
by one rewriting per field.
-/

set_option autoImplicit false
set_option relaxedAutoImplicit false

namespace AnchoredLog.Library.FieldReader

open ByteCodec

/-- The next `width` octets. -/
def readOctets (width : ℕ) (source : List UInt8) : Option (Octets width × List UInt8) :=
  if h : (source.take width).length = width then
    some (⟨source.take width, h⟩, source.drop width)
  else
    none

/-- The next octet. -/
def readUInt8 : List UInt8 → Option (UInt8 × List UInt8)
  | [] => none
  | octet :: rest => some (octet, rest)

/-- The next unsigned 16-bit integer. -/
def readUInt16 (source : List UInt8) : Option (UInt16 × List UInt8) := do
  let (octets, rest) ← readOctets 2 source
  pure (UInt16.ofNat (leNat octets.octets), rest)

/-- The next unsigned 64-bit integer. -/
def readUInt64 (source : List UInt8) : Option (UInt64 × List UInt8) := do
  let (octets, rest) ← readOctets 8 source
  pure (UInt64.ofNat (leNat octets.octets), rest)

/-- The next signed 64-bit integer. -/
def readInt64 (source : List UInt8) : Option (Int64 × List UInt8) := do
  let (word, rest) ← readUInt64 source
  pure (word.toInt64, rest)

@[simp] theorem readOctets_append {width : ℕ} (string : Octets width) (rest : List UInt8) :
    readOctets width (string.octets ++ rest) = some (string, rest) := by
  have hlength := string.length_octets
  have htake : (string.octets ++ rest).take width = string.octets :=
    List.take_left' hlength
  have hdrop : (string.octets ++ rest).drop width = rest :=
    List.drop_left' hlength
  rw [readOctets, dif_pos (by rw [htake, hlength]), Option.some.injEq, Prod.mk.injEq]
  exact ⟨Octets.ext htake, hdrop⟩

@[simp] theorem readUInt8_cons (octet : UInt8) (rest : List UInt8) :
    readUInt8 (octet :: rest) = some (octet, rest) :=
  rfl

@[simp] theorem readUInt16_append (value : UInt16) (rest : List UInt8) :
    readUInt16 (leList 2 value.toNat ++ rest) = some (value, rest) := by
  have hread : readOctets 2 (leList 2 value.toNat ++ rest) = some (leOctets 2 value.toNat, rest) :=
    readOctets_append (leOctets 2 value.toNat) rest
  have hvalue : leNat (leOctets 2 value.toNat).octets = value.toNat :=
    leNat_leOctets value.toNat_lt
  rw [readUInt16, hread]
  show some (UInt16.ofNat (leNat (leOctets 2 value.toNat).octets), rest) = some (value, rest)
  rw [hvalue, UInt16.ofNat_toNat]

@[simp] theorem readUInt64_append (value : UInt64) (rest : List UInt8) :
    readUInt64 (leList 8 value.toNat ++ rest) = some (value, rest) := by
  have hread : readOctets 8 (leList 8 value.toNat ++ rest) = some (leOctets 8 value.toNat, rest) :=
    readOctets_append (leOctets 8 value.toNat) rest
  have hvalue : leNat (leOctets 8 value.toNat).octets = value.toNat :=
    leNat_leOctets value.toNat_lt
  rw [readUInt64, hread]
  show some (UInt64.ofNat (leNat (leOctets 8 value.toNat).octets), rest) = some (value, rest)
  rw [hvalue, UInt64.ofNat_toNat]

@[simp] theorem readInt64_append (value : Int64) (rest : List UInt8) :
    readInt64 (leList 8 value.toUInt64.toNat ++ rest) = some (value, rest) := by
  rw [readInt64, readUInt64_append, Option.bind_eq_bind, Option.bind_some]
  rfl

end AnchoredLog.Library.FieldReader
