import AnchoredLog.Core.Identity
import AnchoredLog.Port.Primitives

/-!
# The port's canonical tenure and asset commitment

The port decodes with the platform's text decoder, which drops a byte-order mark in front, and says
what is canonical by canonicalizing again. `canonicalizeBytes_agree` compares it with the engine on
every list of octets.
-/

set_option autoImplicit false
set_option relaxedAutoImplicit false

namespace AnchoredLog.Port.Canonical

open Library.ByteCodec Library.Fallible Library.StrictUtf8 Core.Preimages
open Core.Identity (CanonicalTenure Decomposes IsKept commitment commitmentMessage keptCodes
  keptOctets maxRawTenureLen upperCode)
open Primitives

/-! ### The port -/

/-- UTF-8 decoding that refuses invalid input and drops a byte-order mark in front. -/
def utf8StrictDecode (b : List UInt8) : Thrown (List Char) :=
  okOr (decodeUtf8 (if b.take 3 = [0xef, 0xbb, 0xbf] then b.drop 3 else b))
    (.typeError "The encoded data was not valid for encoding utf-8")

/-- `MAX_RAW_TENURE_BYTES`. -/
def maxRawTenureBytes : ℕ :=
  256

/-- `MAX_CANONICAL_TENURE_BYTES`. -/
def maxCanonicalTenureBytes : ℕ :=
  64

/-- Takes a code point into the canonical form if it belongs there. -/
def pushCodePoint (out : List ℕ) (ch : Char) : List ℕ :=
  let cp := ch.toNat
  let upper := if 0x61 ≤ cp ∧ cp ≤ 0x7a then cp - 0x20 else cp
  if 0x41 ≤ upper ∧ upper ≤ 0x5a ∨ 0x30 ≤ upper ∧ upper ≤ 0x39 then out ++ [upper] else out

section Canonicalize

variable (normalize : List Char → List Char)

def canonicalizeDecoded (s : List Char) : Thrown (List UInt8) := do
  let out := (normalize s).foldl pushCodePoint []
  orFail (out.length ≠ 0) .CanonicalizationFailed "canonical tenure is empty"
  orFail (¬ maxCanonicalTenureBytes < out.length) .CanonicalizationFailed
    ("canonical tenure is " ++ toString out.length ++ " bytes, over " ++
      toString maxCanonicalTenureBytes)
  return out.map UInt8.ofNat

/-- Canonicalizes raw octets, which may not be valid UTF-8. -/
def canonicalizeBytes (raw : List UInt8) : Thrown (List UInt8) := do
  orFail (¬ maxRawTenureBytes < raw.length) .CanonicalizationFailed
    ("raw tenure is " ++ toString raw.length ++ " bytes, over " ++ toString maxRawTenureBytes)
  match utf8StrictDecode raw with
  | .error _ =>
    throw (.registryFailure .CanonicalizationFailed "raw tenure is not valid UTF-8")
  | .ok decoded => canonicalizeDecoded normalize decoded

/-- Whether octets are what canonicalizing them gives. -/
def isCanonicalTenure (t : List UInt8) : Bool :=
  match canonicalizeBytes normalize t with
  | .error _ => false
  | .ok again =>
    if again.length ≠ t.length then false
    else (List.range t.length).all fun i ↦ again[i]? = t[i]?

end Canonicalize

def assetPreimage (j r tenure : List UInt8) : Thrown (List UInt8) := do
  let j ← fixed "jurisdiction" j 4
  let r ← fixed "registry" r 8
  orFail (¬ (tenure.length < 1 ∨ 64 < tenure.length)) .CanonicalizationFailed
    ("tenure must be 1..64 bytes, got " ++ toString tenure.length)
  let length ← u16le tenure.length
  buildPreimage tagAsset.octets [j, r, length, tenure]

section Commit

variable (hasher : Hasher) (normalize : List Char → List Char)

/-- The asset commitment; refuses a tenure that is not already canonical. -/
def assetCommitment (j r tenure : List UInt8) : Thrown (List UInt8) := do
  orFail (isCanonicalTenure normalize tenure = true) .CanonicalizationFailed
    "tenure is not in canonical form"
  let preimage ← assetPreimage j r tenure
  return keccak256 hasher preimage

/-- Canonicalizes a raw spelling and then commits to it. -/
def assetCommitmentFromRaw (j r rawTenure : List UInt8) : Thrown (List UInt8) := do
  let tenure ← canonicalizeBytes normalize rawTenure
  assetCommitment hasher normalize j r tenure

end Commit

/-! ### The two canonicalizers -/

theorem pushCodePoint_eq (out : List ℕ) (ch : Char) :
    pushCodePoint out ch = if IsKept (upperCode ch) then out ++ [upperCode ch] else out :=
  rfl

theorem foldl_pushCodePoint (text : List Char) (out : List ℕ) :
    text.foldl pushCodePoint out = out ++ keptCodes text := by
  induction text generalizing out with
  | nil => simp [keptCodes]
  | cons ch text ih =>
    rw [List.foldl_cons, ih, pushCodePoint_eq, keptCodes, keptCodes, List.map_cons,
      List.filter_cons]
    by_cases hkept : IsKept (upperCode ch)
    · simp [hkept]
    · simp [hkept]

/-- Both results or both refusals, the port's under the engine's code. -/
def SameResult (engine : Result CanonicalTenure) (port : Thrown (List UInt8)) : Prop :=
  (∃ tenure, engine = .ok tenure ∧ port = .ok tenure.octets) ∨
    engine = .error .canonicalizationFailed ∧
      ∃ detail, port = .error (.registryFailure .CanonicalizationFailed detail)

variable {nfkd : List Char → List Char} {raw : List UInt8}

/-- The octets of a byte-order mark. -/
theorem utf8EncodeChar_mark : String.utf8EncodeChar '\uFEFF' = [0xef, 0xbb, 0xbf] := by
  decide

theorem keptOctets_mark (text : List Char) :
    keptOctets ('\uFEFF' :: text) = keptOctets text := by
  rw [Core.Identity.keptOctets_cons, if_neg (by decide)]

/-- The two decoders accept the same octets, and of both texts the same is kept. -/
theorem utf8StrictDecode_agree (hnfkd : Decomposes nfkd) (raw : List UInt8) :
    (∃ text portText, decodeUtf8 raw = some text ∧ utf8StrictDecode raw = .ok portText ∧
        keptOctets (nfkd text) = keptOctets (nfkd portText)) ∨
      decodeUtf8 raw = none ∧ ∃ failure, utf8StrictDecode raw = .error failure := by
  rw [utf8StrictDecode]
  by_cases hmark : raw.take 3 = [0xef, 0xbb, 0xbf]
  · have hdecode : decodeUtf8 raw = (decodeUtf8 (raw.drop 3)).map ('\uFEFF' :: ·) := by
      rw [← decodeUtf8_append, utf8EncodeChar_mark, ← hmark, List.take_append_drop]
    rw [if_pos hmark, hdecode]
    cases decodeUtf8 (raw.drop 3) with
    | none => exact .inr ⟨rfl, _, rfl⟩
    | some text =>
      refine .inl ⟨_, text, rfl, rfl, ?_⟩
      rw [hnfkd.mark, keptOctets_mark]
  · rw [if_neg hmark]
    cases decodeUtf8 raw with
    | none => exact .inr ⟨rfl, _, rfl⟩
    | some text => exact .inl ⟨text, text, rfl, rfl, rfl⟩

theorem canonicalizeDecoded_eq (text : List Char) :
    (keptOctets (nfkd text) ≠ [] ∧ (keptOctets (nfkd text)).length ≤ maxTenureLen ∧
        canonicalizeDecoded nfkd text = .ok (keptOctets (nfkd text))) ∨
      ¬ (keptOctets (nfkd text) ≠ [] ∧ (keptOctets (nfkd text)).length ≤ maxTenureLen) ∧
        ∃ detail, canonicalizeDecoded nfkd text =
          .error (.registryFailure .CanonicalizationFailed detail) := by
  have hlength : (keptOctets (nfkd text)).length = (keptCodes (nfkd text)).length :=
    List.length_map UInt8.ofNat
  rw [canonicalizeDecoded, foldl_pushCodePoint, List.nil_append, ← List.length_pos_iff, hlength]
  by_cases hempty : (keptCodes (nfkd text)).length = 0
  · exact .inr ⟨fun hfits ↦ hfits.1.ne' hempty, _, by
      rw [orFail_of_false (not_not.mpr hempty), bind_error]⟩
  · rw [orFail_of_true hempty, bind_ok]
    by_cases hlong : maxCanonicalTenureBytes < (keptCodes (nfkd text)).length
    · exact .inr ⟨fun hfits ↦ absurd hlong (not_lt.mpr hfits.2), _, by
        rw [orFail_of_false (not_not.mpr hlong), bind_error]⟩
    · refine .inl ⟨Nat.pos_of_ne_zero hempty, not_lt.mp hlong, ?_⟩
      rw [orFail_of_true hlong, bind_ok]
      rfl

/-- The engine refuses what it does not accept. -/
theorem canonicalizeBytes_refused (hrefused : ∀ tenure,
    Core.Identity.canonicalizeBytes nfkd raw ≠ .ok tenure) :
    Core.Identity.canonicalizeBytes nfkd raw = .error .canonicalizationFailed := by
  cases hread : Core.Identity.canonicalizeBytes nfkd raw with
  | ok tenure => exact absurd hread (hrefused tenure)
  | error error => rw [Core.Identity.eq_of_canonicalizeBytes_eq_error hread]

/-- The two canonicalizers give the same octets or both fail. -/
theorem canonicalizeBytes_agree (hnfkd : Decomposes nfkd) (raw : List UInt8) :
    SameResult (Core.Identity.canonicalizeBytes nfkd raw) (canonicalizeBytes nfkd raw) := by
  rw [canonicalizeBytes]
  by_cases hlong : maxRawTenureBytes < raw.length
  · refine .inr ⟨canonicalizeBytes_refused fun tenure hread ↦ ?_, _, by
      rw [orFail_of_false (not_not.mpr hlong), bind_error]⟩
    exact absurd hlong (not_lt.mpr (Core.Identity.canonicalizeBytes_eq_ok_iff.mp hread).1)
  · rw [orFail_of_true hlong, bind_ok]
    rcases utf8StrictDecode_agree hnfkd raw with
      ⟨text, portText, htext, hport, hkept⟩ | ⟨hnone, failure, hfailure⟩
    · rw [hport]
      dsimp only
      rcases canonicalizeDecoded_eq portText with
        ⟨hnonempty, hfits, hport⟩ | ⟨hrefused, detail, hport⟩
      · rw [← hkept] at hnonempty hfits hport
        refine .inl ⟨⟨keptOctets (nfkd text), hfits⟩, ?_, hport⟩
        exact Core.Identity.canonicalizeBytes_eq_ok_iff.mpr
          ⟨not_lt.mp hlong, text, htext, rfl, hnonempty⟩
      · rw [← hkept] at hrefused
        refine .inr ⟨canonicalizeBytes_refused fun tenure hread ↦ hrefused ?_, detail, hport⟩
        obtain ⟨-, found, hfound, hoctets, hnonempty⟩ :=
          Core.Identity.canonicalizeBytes_eq_ok_iff.mp hread
        rw [htext, Option.some.injEq] at hfound
        rw [hfound, ← hoctets]
        exact ⟨hnonempty, tenure.length_le⟩
    · rw [hfailure]
      refine .inr ⟨canonicalizeBytes_refused fun tenure hread ↦ ?_, _, rfl⟩
      obtain ⟨-, found, hfound, -⟩ := Core.Identity.canonicalizeBytes_eq_ok_iff.mp hread
      rw [hnone] at hfound
      cases hfound

/-- The port canonicalizes to some octets exactly when the engine does. -/
theorem canonicalizeBytes_eq_ok_iff (hnfkd : Decomposes nfkd) {octets : List UInt8} :
    canonicalizeBytes nfkd raw = .ok octets ↔
      ∃ tenure, Core.Identity.canonicalizeBytes nfkd raw = .ok tenure ∧ tenure.octets = octets := by
  rcases canonicalizeBytes_agree hnfkd raw with ⟨tenure, hread, hport⟩ | ⟨hread, detail, hport⟩
  · rw [hread, hport, Except.ok.injEq]
    constructor
    · exact fun hsame ↦ ⟨tenure, rfl, hsame⟩
    · rintro ⟨other, hother, rfl⟩
      rw [Except.ok.inj hother]
  · rw [hread, hport]
    constructor
    · intro hsame
      cases hsame
    · rintro ⟨tenure, hother, -⟩
      cases hother

/-- What the port says is canonical is what the engine says is. -/
theorem isCanonicalTenure_iff (hnfkd : Decomposes nfkd) {octets : List UInt8} :
    isCanonicalTenure nfkd octets ↔ isCanonical octets := by
  have hsame : ∀ again : List UInt8, (if again.length ≠ octets.length then false
      else (List.range octets.length).all fun i ↦ again[i]? = octets[i]?) = true ↔
        again = octets := by
    intro again
    split_ifs with hlength
    · refine iff_of_false not_false ?_
      rintro rfl
      exact hlength rfl
    · simp only [List.all_eq_true, List.mem_range, decide_eq_true_iff]
      constructor
      · intro helements
        apply List.ext_getElem?
        intro i
        by_cases hi : i < octets.length
        · exact helements i hi
        · rw [List.getElem?_eq_none (by omega), List.getElem?_eq_none (by omega)]
      · rintro rfl i -
        rfl
  rw [Core.Identity.isCanonical_iff_exists hnfkd, ← canonicalizeBytes_eq_ok_iff hnfkd,
    isCanonicalTenure]
  cases hread : canonicalizeBytes nfkd octets with
  | error failure => simp
  | ok again =>
    rw [Except.ok.injEq]
    exact hsame again

/-! ### The two commitments -/

variable {hasher : Hasher} {j : Octets 4} {r : Octets 8}

theorem assetPreimage_eq {octets : List UInt8} (hcanonical : isCanonical octets) :
    assetPreimage j.octets r.octets octets = .ok (commitmentMessage j r octets) := by
  obtain ⟨hnonempty, hlength, -⟩ := Core.Identity.isCanonical_iff.mp hcanonical
  have hpositive := List.length_pos_iff.mpr hnonempty
  rw [maxTenureLen] at hlength
  have hmessage := Core.Identity.length_commitmentMessage j r octets
  rw [assetPreimage, fixed_eq, bind_ok, fixed_eq, bind_ok, orFail_of_true (by omega), bind_ok,
    u16le_eq (by omega), bind_ok]
  refine buildPreimage_eq (show (commitmentMessage j r octets).length ≤ 256 from ?_)
  omega

/-- The port commits to what the engine commits to, and to nothing else. -/
theorem assetCommitment_eq_ok_iff (hnfkd : Decomposes nfkd) {octets found : List UInt8} :
    assetCommitment hasher nfkd j.octets r.octets octets = .ok found ↔
      ∃ digest, commitment hasher j r octets = .ok digest ∧ found = digest.octets := by
  by_cases hcanonical : isCanonical octets
  · rw [assetCommitment, orFail_of_true ((isCanonicalTenure_iff hnfkd).mpr hcanonical), bind_ok,
      assetPreimage_eq hcanonical, bind_ok, Core.Identity.commitment_of_canonical hcanonical,
      pure_eq_ok, Except.ok.injEq, keccak256]
    constructor
    · exact fun hsame ↦ ⟨_, rfl, hsame.symm⟩
    · rintro ⟨digest, hdigest, rfl⟩
      rw [Except.ok.inj hdigest]
  · rw [assetCommitment, orFail_of_false (mt (isCanonicalTenure_iff hnfkd).mp hcanonical),
      bind_error, Core.Identity.commitment_of_not_canonical hcanonical]
    constructor
    · intro hsame
      cases hsame
    · rintro ⟨digest, hdigest, -⟩
      cases hdigest

end AnchoredLog.Port.Canonical
