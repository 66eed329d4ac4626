import AnchoredLog.Core.Preimages
import AnchoredLog.Library.StrictUtf8

/-!
# Canonical tenure identifiers and the asset commitment

A tenure identifier is canonicalized by NFKD, then uppercasing of `a` to `z` only, then removal of
every character other than `A`–`Z` and `0`–`9` (§1.3). The decomposition of a text is a parameter.

`canonicalizeBytes_eq_ok_iff` says what is accepted and as what, and
`canonicalizeBytes_of_canonical` that what is canonical is canonicalized to itself.
-/

set_option autoImplicit false
set_option relaxedAutoImplicit false

namespace AnchoredLog.Core.Identity

open Library.ByteCodec Library.Fallible Library.StrictUtf8 Preimages

/-- The longest raw tenure identifier. -/
def maxRawTenureLen : ℕ :=
  256

/-- A vector of at most 64 octets. -/
@[ext] structure CanonicalTenure where
  octets : List UInt8
  length_le : octets.length ≤ maxTenureLen

namespace CanonicalTenure

/-- An empty vector. -/
def new : CanonicalTenure :=
  ⟨[], Nat.zero_le _⟩

/-- Appends an octet when there is room for it. -/
def push (tenure : CanonicalTenure) (octet : UInt8) : Option CanonicalTenure :=
  if hroom : (tenure.octets ++ [octet]).length ≤ maxTenureLen then
    some ⟨tenure.octets ++ [octet], hroom⟩
  else
    none

end CanonicalTenure

/-- The octet of a character below 256. -/
def octetOfChar (ch : Char) : Option UInt8 :=
  if ch.toNat < 256 then some (UInt8.ofNat ch.toNat) else none

/-- Takes a character into the canonical form if it belongs there. -/
def pushChar (out : CanonicalTenure) (ch : Char) : Result CanonicalTenure :=
  if ch.isUpper ∨ ch.isDigit then do
    let byte ← okOr (octetOfChar ch) .canonicalizationFailed
    okOr (out.push byte) .canonicalizationFailed
  else
    .ok out

/-- Canonicalizes raw octets, which may not be valid UTF-8. -/
def canonicalizeBytes (nfkd : List Char → List Char) (tenureRaw : List UInt8) :
    Result CanonicalTenure := do
  require (tenureRaw.length ≤ maxRawTenureLen) .canonicalizationFailed
  let text ← okOr (decodeUtf8 tenureRaw) .canonicalizationFailed
  let out ← ((nfkd text).map Char.toUpper).foldlM pushChar CanonicalTenure.new
  require (out.octets ≠ []) .canonicalizationFailed
  return out

/-- The asset commitment; refuses a tenure that is not already canonical. -/
def commitment (hasher : Hasher) (j : Octets 4) (r : Octets 8) (tenure : List UInt8) :
    Result Digest :=
  digest hasher (AssetPreimage.mk j r tenure)

/-! ### What is kept of a text -/

/-- The code of a character, of the capital where it is one of `a` to `z`. -/
def upperCode (ch : Char) : ℕ :=
  if 0x61 ≤ ch.toNat ∧ ch.toNat ≤ 0x7a then ch.toNat - 0x20 else ch.toNat

/-- The code is that of a capital or of a digit. -/
def IsKept (code : ℕ) : Prop :=
  0x41 ≤ code ∧ code ≤ 0x5a ∨ 0x30 ≤ code ∧ code ≤ 0x39

instance (code : ℕ) : Decidable (IsKept code) :=
  inferInstanceAs (Decidable (_ ∨ _))

/-- The codes that are kept of a text. -/
def keptCodes (text : List Char) : List ℕ :=
  (text.map upperCode).filter (IsKept ·)

/-- The octets that are kept of a text. -/
def keptOctets (text : List Char) : List UInt8 :=
  (keptCodes text).map UInt8.ofNat

theorem toNat_toUpper (ch : Char) : ch.toUpper.toNat = upperCode ch := by
  have hletter : ('a'.val ≤ ch.val ∧ ch.val ≤ 'z'.val) ↔
      (0x61 ≤ ch.toNat ∧ ch.toNat ≤ 0x7a) := Iff.rfl
  by_cases hlower : 'a'.val ≤ ch.val ∧ ch.val ≤ 'z'.val
  · have hbounds := hletter.mp hlower
    have hcode : ch.val.toNat = ch.toNat := rfl
    have hupper : ch.toUpper.val = ch.val + ('A'.val - 'a'.val) := by
      delta Char.toUpper
      rw [dif_pos hlower]
    have hoffset : ('A'.val - 'a'.val).toNat = 2 ^ 32 - 0x20 := rfl
    rw [upperCode, if_pos hbounds, ← Char.toNat_val, hupper, UInt32.toNat_add, hoffset, hcode]
    omega
  · have hsame : ch.toUpper = ch := dif_neg hlower
    rw [hsame, upperCode, if_neg (mt hletter.mpr hlower)]

theorem isKept_iff (ch : Char) : IsKept ch.toNat ↔ ch.isUpper ∨ ch.isDigit := by
  have hupper : ch.isUpper ↔ 0x41 ≤ ch.toNat ∧ ch.toNat ≤ 0x5a := by
    show decide (ch.val ≥ 'A'.val ∧ ch.val ≤ 'Z'.val) = true ↔ _
    exact decide_eq_true_iff
  have hdigit : ch.isDigit ↔ 0x30 ≤ ch.toNat ∧ ch.toNat ≤ 0x39 := by
    rw [Char.isDigit, Bool.and_eq_true, decide_eq_true_iff, decide_eq_true_iff]
    exact Iff.rfl
  rw [IsKept, hupper, hdigit]

theorem isKept_toNat_iff {octet : UInt8} : IsKept octet.toNat ↔ isCapitalOrDigit octet := by
  simp only [isCapitalOrDigit, Bool.or_eq_true, Bool.and_eq_true, decide_eq_true_iff]
  exact Iff.rfl

theorem isKept_ofNat {code : ℕ} (hkept : IsKept code) : isCapitalOrDigit (UInt8.ofNat code) := by
  have hlt : code < 256 := by
    rw [IsKept] at hkept
    omega
  rw [← isKept_toNat_iff, UInt8.toNat_ofNat_of_lt' hlt]
  exact hkept

@[simp] theorem keptOctets_nil : keptOctets [] = [] :=
  rfl

theorem keptOctets_cons (ch : Char) (text : List Char) :
    keptOctets (ch :: text) =
      if IsKept (upperCode ch) then UInt8.ofNat (upperCode ch) :: keptOctets text
      else keptOctets text := by
  rw [keptOctets, keptCodes, List.map_cons, List.filter_cons]
  split_ifs with hkept hboth hboth
  · rfl
  · exact absurd (of_decide_eq_true hkept) hboth
  · exact absurd (decide_eq_true hboth) hkept
  · rfl

/-- What is kept is a capital or a digit. -/
theorem isCapitalOrDigit_of_mem_keptOctets {text : List Char} {octet : UInt8}
    (hoctet : octet ∈ keptOctets text) : isCapitalOrDigit octet := by
  obtain ⟨code, hcode, rfl⟩ := List.mem_map.mp hoctet
  exact isKept_ofNat (of_decide_eq_true (List.mem_filter.mp hcode).2)

/-! ### What is accepted -/

theorem pushChar_toUpper (out : CanonicalTenure) (ch : Char) :
    pushChar out ch.toUpper =
      if IsKept (upperCode ch) then
        okOr (out.push (UInt8.ofNat (upperCode ch))) .canonicalizationFailed
      else .ok out := by
  rw [pushChar, ← toNat_toUpper]
  refine ite_congr (propext (isKept_iff _).symm) (fun hkept ↦ ?_) fun _ ↦ rfl
  have hlt : ch.toUpper.toNat < 256 := by
    rw [IsKept] at hkept
    omega
  rw [octetOfChar, if_pos hlt, okOr_some, bind_ok]

/-- The characters are taken one by one until there is no room. -/
theorem foldlM_pushChar (text : List Char) (out : CanonicalTenure) :
    (text.map Char.toUpper).foldlM pushChar out =
      if hroom : (out.octets ++ keptOctets text).length ≤ maxTenureLen then
        .ok ⟨out.octets ++ keptOctets text, hroom⟩
      else .error .canonicalizationFailed := by
  induction text generalizing out with
  | nil => simp [out.length_le]
  | cons ch text ih =>
    rw [List.map_cons, List.foldlM_cons, pushChar_toUpper]
    by_cases hkept : IsKept (upperCode ch)
    · have hsplit : out.octets ++ keptOctets (ch :: text) =
          out.octets ++ [UInt8.ofNat (upperCode ch)] ++ keptOctets text := by
        rw [keptOctets_cons, if_pos hkept, List.append_assoc, List.singleton_append]
      simp only [if_pos hkept, hsplit]
      by_cases hroom : (out.octets ++ [UInt8.ofNat (upperCode ch)]).length ≤ maxTenureLen
      · rw [CanonicalTenure.push, dif_pos hroom, okOr_some, bind_ok, ih]
      · rw [CanonicalTenure.push, dif_neg hroom, okOr_none, bind_error, dif_neg]
        rw [List.length_append]
        omega
    · simp only [if_neg hkept, bind_ok, ih, keptOctets_cons]

variable {nfkd : List Char → List Char} {raw : List UInt8} {tenure : CanonicalTenure}

/-- Raw octets are accepted as what is kept of their decomposed text. -/
theorem canonicalizeBytes_eq_ok_iff :
    canonicalizeBytes nfkd raw = .ok tenure ↔
      raw.length ≤ maxRawTenureLen ∧ ∃ text, decodeUtf8 raw = some text ∧
        tenure.octets = keptOctets (nfkd text) ∧ tenure.octets ≠ [] := by
  rw [canonicalizeBytes, bind_unit_eq_ok_iff, require_eq_ok_iff, okOr_bind_eq_ok_iff]
  refine and_congr_right fun _ ↦ exists_congr fun text ↦ and_congr_right fun _ ↦ ?_
  rw [bind_eq_ok_iff, foldlM_pushChar, CanonicalTenure.new]
  simp only [List.nil_append]
  constructor
  · rintro ⟨out, hout, hrest⟩
    split_ifs at hout with hroom
    rw [bind_unit_eq_ok_iff, require_eq_ok_iff, pure_eq_ok, Except.ok.injEq] at hrest
    obtain ⟨hnonempty, rfl⟩ := hrest
    rw [Except.ok.injEq] at hout
    exact ⟨(congrArg CanonicalTenure.octets hout).symm, hnonempty⟩
  · rintro ⟨hoctets, hnonempty⟩
    have hroom : (keptOctets (nfkd text)).length ≤ maxTenureLen := by
      rw [← hoctets]
      exact tenure.length_le
    refine ⟨tenure, ?_, ?_⟩
    · rw [dif_pos hroom, Except.ok.injEq]
      exact CanonicalTenure.ext hoctets.symm
    · rw [bind_unit_eq_ok_iff, require_eq_ok_iff]
      exact ⟨hnonempty, rfl⟩

/-- There is one way to be refused. -/
theorem eq_of_canonicalizeBytes_eq_error {error : RegistryError}
    (hrefused : canonicalizeBytes nfkd raw = .error error) : error = .canonicalizationFailed := by
  by_contra hother
  have hdifferent : RegistryError.canonicalizationFailed ≠ error := Ne.symm hother
  refine bind_ne_error (require_ne_error (.inr hdifferent)) (fun _ _ ↦ ?_) hrefused
  refine bind_ne_error (okOr_ne_error hdifferent) fun text _ ↦ bind_ne_error ?_ fun out _ ↦ ?_
  · rw [foldlM_pushChar]
    split_ifs
    · intro haccepted
      cases haccepted
    · exact fun hsame ↦ hdifferent (Except.error.inj hsame)
  · refine bind_ne_error (require_ne_error (.inr hdifferent)) fun _ _ haccepted ↦ ?_
    cases haccepted

/-! ### What is canonical -/

theorem isCanonical_iff {octets : List UInt8} :
    isCanonical octets ↔ octets ≠ [] ∧ octets.length ≤ maxTenureLen ∧
      ∀ octet ∈ octets, isCapitalOrDigit octet := by
  simp [isCanonical, and_assoc]

/-- What canonicalization returns is canonical. -/
theorem isCanonical_of_canonicalizeBytes (hread : canonicalizeBytes nfkd raw = .ok tenure) :
    isCanonical tenure.octets := by
  obtain ⟨-, text, -, hkept, hnonempty⟩ := canonicalizeBytes_eq_ok_iff.mp hread
  refine isCanonical_iff.mpr ⟨hnonempty, tenure.length_le, fun octet hoctet ↦ ?_⟩
  rw [hkept] at hoctet
  exact isCapitalOrDigit_of_mem_keptOctets hoctet

/-- What is known of NFKD: it leaves ASCII as it is, and it leaves a byte-order mark in front. -/
structure Decomposes (nfkd : List Char → List Char) : Prop where
  ascii : ∀ text : List Char, (∀ ch ∈ text, ch.toNat < 128) → nfkd text = text
  mark : ∀ text : List Char, nfkd ('\uFEFF' :: text) = '\uFEFF' :: nfkd text

theorem lt_of_isCapitalOrDigit {octet : UInt8} (hoctet : isCapitalOrDigit octet) :
    octet < 0x80 := by
  have hkept := isKept_toNat_iff.mpr hoctet
  rw [IsKept] at hkept
  rw [UInt8.lt_iff_toNat_lt]
  exact lt_of_le_of_lt (show octet.toNat ≤ 0x5a by omega) (by decide)

theorem upperCode_ofUInt8 {octet : UInt8} (hoctet : isCapitalOrDigit octet) :
    upperCode (Char.ofUInt8 octet) = octet.toNat := by
  have hkept := isKept_toNat_iff.mpr hoctet
  rw [IsKept] at hkept
  rw [upperCode, toNat_ofUInt8, if_neg (by omega)]

/-- Of capitals and digits all is kept. -/
theorem keptOctets_map_ofUInt8 {octets : List UInt8}
    (hoctets : ∀ octet ∈ octets, isCapitalOrDigit octet) :
    keptOctets (octets.map Char.ofUInt8) = octets := by
  induction octets with
  | nil => rfl
  | cons octet octets ih =>
    rw [List.forall_mem_cons] at hoctets
    rw [List.map_cons, keptOctets_cons, upperCode_ofUInt8 hoctets.1,
      if_pos (isKept_toNat_iff.mpr hoctets.1), UInt8.ofNat_toNat, ih hoctets.2]

/-- What is canonical is canonicalized to itself. -/
theorem canonicalizeBytes_of_canonical (hnfkd : Decomposes nfkd)
    (hcanonical : isCanonical tenure.octets) :
    canonicalizeBytes nfkd tenure.octets = .ok tenure := by
  obtain ⟨hnonempty, hlength, hoctets⟩ := isCanonical_iff.mp hcanonical
  have hascii : ∀ ch ∈ tenure.octets.map Char.ofUInt8, ch.toNat < 128 := by
    intro ch hch
    obtain ⟨octet, hoctet, rfl⟩ := List.mem_map.mp hch
    rw [toNat_ofUInt8]
    exact UInt8.lt_iff_toNat_lt.mp (lt_of_isCapitalOrDigit (hoctets octet hoctet))
  refine canonicalizeBytes_eq_ok_iff.mpr ⟨?_, tenure.octets.map Char.ofUInt8, ?_, ?_, hnonempty⟩
  · exact hlength.trans (by decide)
  · exact decodeUtf8_of_ascii fun octet hoctet ↦ lt_of_isCapitalOrDigit (hoctets octet hoctet)
  · rw [hnfkd.ascii _ hascii, keptOctets_map_ofUInt8 hoctets]

/-- The canonical octets are those that canonicalization returns, from some octets or from
themselves. -/
theorem isCanonical_iff_exists (hnfkd : Decomposes nfkd) {octets : List UInt8} :
    isCanonical octets ↔ ∃ tenure, canonicalizeBytes nfkd octets = .ok tenure ∧
      tenure.octets = octets := by
  constructor
  · intro hcanonical
    have hlength := (isCanonical_iff.mp hcanonical).2.1
    let tenure : CanonicalTenure := ⟨octets, hlength⟩
    exact ⟨tenure, @canonicalizeBytes_of_canonical nfkd tenure hnfkd hcanonical, rfl⟩
  · rintro ⟨tenure, hread, rfl⟩
    exact isCanonical_of_canonicalizeBytes hread

/-! ### The commitment -/

/-- The message whose hash is an asset commitment. -/
def commitmentMessage (j : Octets 4) (r : Octets 8) (tenure : List UInt8) : List UInt8 :=
  (AssetPreimage.mk j r tenure).fields.flatten

variable {hasher : Hasher} {j : Octets 4} {r : Octets 8}

theorem length_commitmentMessage (j : Octets 4) (r : Octets 8) (octets : List UInt8) :
    (commitmentMessage j r octets).length = 22 + octets.length := by
  simp [commitmentMessage, AssetPreimage.fields]
  omega

theorem writePreimage_asset (preimage : AssetPreimage) (out : PreimageBuf) :
    Preimage.writePreimage preimage out = (do
      require (isCanonical preimage.tenure = true) RegistryError.canonicalizationFailed
      require (preimage.tenure.length < 2 ^ 16) RegistryError.canonicalizationFailed
      staged out preimage.fields) :=
  rfl

/-- A canonical tenure has a commitment. -/
theorem commitment_of_canonical {octets : List UInt8} (hcanonical : isCanonical octets) :
    commitment hasher j r octets = .ok (hasher.hash (commitmentMessage j r octets)) := by
  have hlength := (isCanonical_iff.mp hcanonical).2.1
  rw [maxTenureLen] at hlength
  have hwrites : Preimage.writePreimage (AssetPreimage.mk j r octets) PreimageBuf.new =
      staged PreimageBuf.new (AssetPreimage.mk j r octets).fields := by
    rw [writePreimage_asset, require_of_true hcanonical, bind_ok,
      require_of_true (by dsimp only; omega), bind_ok]
  refine digest_of_staged hasher _ hwrites ?_
  rw [← commitmentMessage, length_commitmentMessage, maxPreimageLen]
  omega

/-- No other octets have a commitment. -/
theorem commitment_of_not_canonical {octets : List UInt8} (hcanonical : ¬ isCanonical octets) :
    commitment hasher j r octets = .error .canonicalizationFailed := by
  have hwrites : Preimage.writePreimage (AssetPreimage.mk j r octets) PreimageBuf.new =
      .error .canonicalizationFailed := by
    rw [writePreimage_asset, require_of_false hcanonical, bind_error]
  rw [commitment, digest, hwrites, bind_error]

/-- The message determines the tenure. -/
theorem commitmentMessage_injective {left right : List UInt8}
    (hsame : commitmentMessage j r left = commitmentMessage j r right) : left = right := by
  simp only [commitmentMessage, AssetPreimage.fields, List.flatten_cons, List.flatten_nil,
    List.append_nil] at hsame
  have hlast := List.append_cancel_left (List.append_cancel_left (List.append_cancel_left hsame))
  exact (List.append_inj hlast (by simp)).2

end AnchoredLog.Core.Identity
