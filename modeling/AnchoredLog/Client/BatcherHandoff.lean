import AnchoredLog.Client.HandoffCodec
import AnchoredLog.Client.PublicationWindow
import AnchoredLog.Library.TextFields
import AnchoredLog.Log.TreeCompleteness
import AnchoredLog.Port.JsonFields
import Mathlib.Data.List.ReduceOption

/-!
# The batcher's process

`batcher-handoff.rs`: a process reads its environment, its submissions and its two keys, builds the
tree of an epoch, signs the hand-off of its root and writes it to a file of the epoch. Everything it
reads is a `Host`, but for the hand-off that may be there already: it is read when the process
decides whether to write, and a failed read is taken for none. The files are a state that many
processes change, and a process that is interrupted while it writes leaves the front of its hand-off
behind.

`handoffs_kept` is about any number of such processes: every hand-off that can be read is one a
process signed for the root of the tree it built, inside the epoch's window. Where no read fails and
no two processes are about to write at one path, what is there is never replaced, at most cut short.
-/

set_option autoImplicit false
set_option relaxedAutoImplicit false

namespace AnchoredLog.Client.BatcherHandoff

open Core.Preimages Library.ByteCodec Library.Fallible Library.StrictUtf8 Library.TextFields
open Log.EpochTree Log.TreeCompleteness Handoffs Worker PublicationWindow
open Port.JsonFields (hexDigit hexPair)

/-! ### What a process reads -/

/-- A file: its mode and its octets. -/
structure File where
  mode : ℕ
  octets : List UInt8

/-- What a process is given: the environment, the paths, the files it reads and the seconds of its
clock, none before the Unix epoch. -/
structure Host (Path : Type) where
  env : String → Option String
  pathOf : String → Path
  join : Path → String → Path
  canonicalize : Path → Option Path
  file : Path → Option File
  clock : Option UInt64

/-- A key that signs. -/
structure SigningKey where
  verifyingKey : PublicKey
  sign : List UInt8 → Signature

/-- §1.8's deployed default. -/
def defaultHeight : UInt8 :=
  8

/-- Where the one key that runs unattended is, below the home directory. -/
def authority : String :=
  ".config/certimining/checkpoint-authority.json"

/-! ### Hexadecimal -/

/-- Why a text is not the octets of a width. -/
inductive HexFailed
  | wrongLength (found : ℕ)
  | notADigit (pair : List UInt8)
  | tooLong
deriving DecidableEq

/-- The octets of a text. -/
def utf8 (text : List Char) : List UInt8 :=
  text.flatMap String.utf8EncodeChar

/-- Octets two by two, without the last one of an odd number. -/
def octetPairs : List UInt8 → List (List UInt8)
  | first :: second :: rest => [first, second] :: octetPairs rest
  | _ => []

/-- The octet that two octets of a text spell. -/
def hexByte (pair : List UInt8) : Except HexFailed UInt8 :=
  okOr (((decodeUtf8 pair).bind (fromStrRadix 16 256)).map UInt8.ofNat) (.notADigit pair)

/-- Octets of a width from two digits each. -/
def fromHex (width : ℕ) (text : List UInt8) : Except HexFailed (Octets width) := do
  require (text.length = 2 * width) (.wrongLength text.length)
  let octets ← (octetPairs text).mapM hexByte
  if hwidth : octets.length = width then pure ⟨octets, hwidth⟩ else throw .tooLong

/-- 64 hexadecimal characters as the 32 octets they spell. -/
def hex32 (text : List Char) : Except HexFailed (Octets 32) :=
  fromHex 32 (utf8 (trim text))

/-! ### Submissions -/

/-- Why a line is not a submission. -/
inductive LineFailed
  | notTwoFields
  | moreThanTwoFields
  | submissionId (why : HexFailed)
  | leaf (why : HexFailed)
deriving DecidableEq

/-- Why a file is not a list of submissions. -/
inductive SubmissionsFailed
  | unreadable
  | line (number : ℕ) (why : LineFailed)
  | notADigit (pair : List UInt8)
deriving DecidableEq

/-- The failure of a line under its number. A pair of an identifier that is no octet is reported
without one. -/
def LineFailed.numbered (number : ℕ) : LineFailed → SubmissionsFailed
  | .submissionId (.notADigit pair) => .notADigit pair
  | why => .line number why

/-- A submission as a line gives it, and nothing from an empty line or a comment. -/
def readLine (line : List Char) : Except LineFailed (Option (SubmissionId × Digest)) :=
  if trim line = [] ∨ (trim line).head? = some '#' then .ok none
  else
    match words (trim line) with
    | id :: leaf :: rest => do
      require (rest = []) .moreThanTwoFields
      let id ← (fromHex 16 (utf8 id)).mapError .submissionId
      let leaf ← (hex32 leaf).mapError .leaf
      pure (some (id, leaf))
    | _ => .error .notTwoFields

/-- One more line. -/
def collect (out : List (SubmissionId × Digest)) (entry : List Char × ℕ) :
    Except SubmissionsFailed (List (SubmissionId × Digest)) :=
  match readLine entry.1 with
  | .ok record => .ok (out ++ record.toList)
  | .error why => .error (why.numbered (entry.2 + 1))

/-- The submissions of a text. -/
def submissionsIn (text : List Char) : Except SubmissionsFailed (List (SubmissionId × Digest)) :=
  (lines text).zipIdx.foldlM collect []

/-! ### What is written is read -/

/-- Octets in hexadecimal. -/
def hex (octets : List UInt8) : List Char :=
  octets.flatMap hexPair

theorem toDigit_hexDigit : ∀ value < 16, toDigit 16 (hexDigit value) = some value ∧
    hexDigit value ≠ '+' := by
  decide

theorem utf8EncodeChar_hexDigit : ∀ value < 16,
    (String.utf8EncodeChar (hexDigit value)).length = 1 ∧
      isWhitespace (hexDigit value) = false ∧ hexDigit value ≠ '#' := by
  decide

/-- The two digits of an octet are two octets, which are read as it. -/
theorem exists_hexByte (octet : UInt8) : ∃ first second, utf8 (hexPair octet) = [first, second] ∧
    hexByte [first, second] = .ok octet := by
  have hoctet := octet.toNat_lt
  have hhigh : octet.toNat / 16 < 16 := by omega
  have hlow : octet.toNat % 16 < 16 := Nat.mod_lt _ (by decide)
  obtain ⟨first, hfirst⟩ := List.length_eq_one_iff.mp (utf8EncodeChar_hexDigit _ hhigh).1
  obtain ⟨second, hsecond⟩ := List.length_eq_one_iff.mp (utf8EncodeChar_hexDigit _ hlow).1
  refine ⟨first, second, by simp [utf8, hexPair, hfirst, hsecond], ?_⟩
  have hdecode := decodeUtf8_append (hexDigit (octet.toNat / 16)) [second]
  have hsingle := decodeUtf8_append (hexDigit (octet.toNat % 16)) []
  rw [hsecond, List.append_nil, decodeUtf8_nil, Option.map_some] at hsingle
  rw [hfirst, hsingle, Option.map_some, List.singleton_append] at hdecode
  have hnumber := @fromStrRadix_map 16 256 hexDigit toDigit_hexDigit
    [octet.toNat / 16, octet.toNat % 16] (by simp [hhigh, hlow]) (by simp)
    (by simp only [List.foldl_cons, List.foldl_nil]; omega)
  rw [hexByte, hdecode, Option.bind_some]
  rw [show [hexDigit (octet.toNat / 16), hexDigit (octet.toNat % 16)] =
    [octet.toNat / 16, octet.toNat % 16].map hexDigit from rfl, hnumber]
  simp only [List.foldl_cons, List.foldl_nil, Option.map_some, okOr_some]
  rw [show 16 * (16 * 0 + octet.toNat / 16) + octet.toNat % 16 = octet.toNat by omega,
    UInt8.ofNat_toNat]

theorem mapM_octetPairs (octets : List UInt8) :
    (utf8 (hex octets)).length = 2 * octets.length ∧
      (octetPairs (utf8 (hex octets))).mapM hexByte = .ok octets := by
  induction octets with
  | nil => exact ⟨rfl, rfl⟩
  | cons octet octets ih =>
    obtain ⟨first, second, hpair, hbyte⟩ := exists_hexByte octet
    have hcons : utf8 (hex (octet :: octets)) = first :: second :: utf8 (hex octets) := by
      rw [hex, List.flatMap_cons, utf8, List.flatMap_append]
      exact congrArg (· ++ utf8 (hex octets)) hpair
    rw [hcons]
    refine ⟨by simp only [List.length_cons, ih.1]; omega, ?_⟩
    rw [octetPairs, List.mapM_cons, hbyte, bind_ok, ih.2, bind_ok]
    rfl

theorem fromHex_hex {width : ℕ} (octets : Octets width) :
    fromHex width (utf8 (hex octets.octets)) = .ok octets := by
  obtain ⟨hlength, hbytes⟩ := mapM_octetPairs octets.octets
  rw [octets.length_octets] at hlength
  rw [fromHex, require_of_true hlength, bind_ok, hbytes, bind_ok]
  exact dif_pos octets.length_octets

theorem solid_hex {octets : List UInt8} (hsome : octets ≠ []) : Solid (hex octets) := by
  constructor
  · cases octets with
    | nil => exact absurd rfl hsome
    | cons octet octets => simp [hex, hexPair]
  · intro character hcharacter
    obtain ⟨octet, -, hmem⟩ := List.mem_flatMap.mp hcharacter
    have hoctet := octet.toNat_lt
    simp only [hexPair, List.mem_cons, List.not_mem_nil, or_false] at hmem
    rcases hmem with rfl | rfl
    · exact (utf8EncodeChar_hexDigit _ (by omega)).2.1
    · exact (utf8EncodeChar_hexDigit _ (by omega)).2.1

theorem solid_octets {width : ℕ} (octets : Octets (width + 1)) : Solid (hex octets.octets) := by
  refine solid_hex fun hnil ↦ ?_
  have hlength := octets.length_octets
  rw [hnil] at hlength
  cases hlength

/-- How a line of a submissions file may be written: an empty line, a comment, or an identifier and
a leaf with any white space around them. -/
inductive Written : List Char → Option (SubmissionId × Digest) → Prop
  | empty {line : List Char} (hline : Blank line) : Written line none
  | comment {before after : List Char} (hbefore : Blank before) :
      Written (before ++ '#' :: after) none
  | record {before between after : List Char} (hbefore : Blank before) (hbetween : Blank between)
      (hsome : between ≠ []) (hafter : Blank after) (id : SubmissionId) (leaf : Digest) :
      Written (before ++ (hex id.octets ++ (between ++ (hex leaf.octets ++ after))))
        (some (id, leaf))

theorem readLine_congr {line other : List Char} (hsame : trim line = trim other) :
    readLine line = readLine other := by
  rw [readLine, readLine, hsame]

theorem head?_hex_append {octets : List UInt8} {text : List Char} (hsome : octets ≠ []) :
    (hex octets ++ text).head? ≠ some '#' := by
  cases octets with
  | nil => exact absurd rfl hsome
  | cons octet octets =>
    have hoctet := octet.toNat_lt
    have hdigit := (utf8EncodeChar_hexDigit (octet.toNat / 16) (by omega)).2.2
    simpa [hex, hexPair] using hdigit

/-- A line that is written so is read. -/
theorem readLine_of_written {line : List Char} {record : Option (SubmissionId × Digest)}
    (hwritten : Written line record) : readLine line = .ok record := by
  cases hwritten with
  | empty hline => rw [readLine, if_pos (.inl (trim_of_blank hline))]
  | @comment before after hbefore =>
    have hhead : (trim (before ++ '#' :: after)).head? = some '#' := by
      rw [trim, dropWhile_of_blank hbefore, List.dropWhile_cons_of_neg (by decide)]
      have hfront := List.rdropWhile_prefix isWhitespace ('#' :: after)
      have hsome : ('#' :: after).rdropWhile isWhitespace ≠ [] := by
        rw [Ne, List.rdropWhile_eq_nil_iff]
        exact fun hblank ↦ absurd (hblank '#' List.mem_cons_self) (by decide)
      obtain ⟨first, rest, hfirst⟩ := List.exists_cons_of_ne_nil hsome
      rw [hfirst] at hfront ⊢
      rw [(List.cons_prefix_cons.mp hfront).1]
      rfl
    rw [readLine, if_pos (.inr hhead)]
  | @record before between after hbefore hbetween hsome hafter id leaf =>
    have hid : Solid (hex id.octets) := solid_octets id
    have hleaf : Solid (hex leaf.octets) := solid_octets leaf
    have htrim : trim (before ++ (hex id.octets ++ (between ++ (hex leaf.octets ++ after)))) =
        hex id.octets ++ (between ++ hex leaf.octets) := by
      have hassoc : hex id.octets ++ (between ++ (hex leaf.octets ++ after)) =
          (hex id.octets ++ (between ++ hex leaf.octets)) ++ after := by
        simp only [List.append_assoc]
      rw [hassoc, trim_padded hbefore hafter]
      · intro character hfirst
        rw [List.head?_append_of_ne_nil _ hid.1] at hfirst
        exact hid.2 character (List.mem_of_mem_head? hfirst)
      · intro character hlast
        rw [← List.append_assoc, List.getLast?_append_of_ne_nil _ hleaf.1] at hlast
        exact hleaf.2 character (List.mem_of_getLast? hlast)
    have hwords : words (hex id.octets ++ (between ++ hex leaf.octets)) =
        [hex id.octets, hex leaf.octets] := by
      have hlast := @words_solid (hex leaf.octets) [] hleaf (by simp)
      rw [List.append_nil, words_nil] at hlast
      rw [words_solid hid, words_of_blank hbetween, hlast]
      intro character hfirst
      rw [List.head?_append_of_ne_nil _ hsome] at hfirst
      exact hbetween character (List.mem_of_mem_head? hfirst)
    have hnotComment : ¬ (hex id.octets ++ (between ++ hex leaf.octets) = [] ∨
        (hex id.octets ++ (between ++ hex leaf.octets)).head? = some '#') := by
      rintro (hnil | hcomment)
      · exact hid.1 (List.append_eq_nil_iff.mp hnil).1
      · refine head?_hex_append ?_ hcomment
        intro hnil
        exact hid.1 (by rw [hnil]; rfl)
    rw [readLine, htrim, if_neg hnotComment, hwords]
    dsimp only
    rw [require_of_true rfl, bind_ok, fromHex_hex, hex32, hleaf.trim, fromHex_hex]
    rfl

/-- The submissions of a file whose lines are written so are those of its lines, in their order. -/
theorem submissionsIn_written (written : List (List Char × Option (SubmissionId × Digest)))
    (hlines : ∀ line ∈ written, '\n' ∉ line.1 ∧ Written line.1 line.2) :
    submissionsIn (written.flatMap fun line ↦ line.1 ++ ['\n']) =
      .ok (written.filterMap Prod.snd) := by
  have hcut := @lines_flatMap (written.map Prod.fst) (by
    intro line hline
    obtain ⟨entry, hentry, rfl⟩ := List.mem_map.mp hline
    exact (hlines entry hentry).1)
  rw [List.flatMap_map] at hcut
  rw [submissionsIn, hcut, List.map_map]
  have hfold (start : ℕ) (out : List (SubmissionId × Digest)) :
      ((written.map (dropReturn ∘ Prod.fst)).zipIdx start).foldlM collect out =
        .ok (out ++ written.filterMap Prod.snd) := by
    clear hcut
    induction written generalizing start out with
    | nil => simp
    | cons line written ih =>
      rw [List.forall_mem_cons] at hlines
      have hread := readLine_of_written hlines.1.2
      rw [← readLine_congr (trim_dropReturn line.1)] at hread
      rw [List.map_cons, List.zipIdx_cons, List.foldlM_cons, collect, Function.comp_apply, hread]
      dsimp only
      rw [bind_ok, ih hlines.2]
      cases hrecord : line.2 <;> simp [hrecord]
  exact hfold 0 []

theorem reduceOption_cons_eq {Value : Type} (record : Option Value) (read : List (Option Value)) :
    (record :: read).reduceOption = record.toList ++ read.reduceOption := by
  cases record <;> simp

theorem foldlM_collect_eq_ok_iff {written : List (List Char)} {start : ℕ}
    {out records : List (SubmissionId × Digest)} :
    (written.zipIdx start).foldlM collect out = .ok records ↔
      ∃ read, List.Forall₂ (fun line record ↦ readLine line = .ok record) written read ∧
        records = out ++ read.reduceOption := by
  induction written generalizing start out with
  | nil => simp [eq_comm]
  | cons line written ih =>
    rw [List.zipIdx_cons, List.foldlM_cons, collect]
    simp only [List.forall₂_cons_left_iff]
    cases hread : readLine line with
    | error why => simp
    | ok record =>
      simp only [bind_ok, ih, Except.ok.injEq]
      constructor
      · rintro ⟨read, hrest, rfl⟩
        exact ⟨record :: read, ⟨record, read, rfl, hrest, rfl⟩,
          by rw [reduceOption_cons_eq, List.append_assoc]⟩
      · rintro ⟨_, ⟨_, read, rfl, hrest, rfl⟩, rfl⟩
        exact ⟨read, hrest, by rw [reduceOption_cons_eq, List.append_assoc]⟩

theorem foldlM_collect_eq_error_iff {written : List (List Char)} {start : ℕ}
    {out : List (SubmissionId × Digest)} {failure : SubmissionsFailed} :
    (written.zipIdx start).foldlM collect out = .error failure ↔
      ∃ before line after why, written = before ++ line :: after ∧
        (∀ earlier ∈ before, ∃ record, readLine earlier = .ok record) ∧
        readLine line = .error why ∧ failure = why.numbered (start + before.length + 1) := by
  induction written generalizing start out with
  | nil => simp
  | cons line written ih =>
    rw [List.zipIdx_cons, List.foldlM_cons, collect]
    cases hread : readLine line with
    | error why =>
      simp only [bind_error, Except.error.injEq]
      constructor
      · rintro rfl
        exact ⟨[], line, written, why, rfl, by simp, hread, rfl⟩
      · rintro ⟨_ | ⟨first, before⟩, other, after, found, hsplit, hbefore, hother, rfl⟩
        · obtain ⟨rfl, -⟩ := List.cons.inj hsplit
          rw [hread, Except.error.injEq] at hother
          rw [hother]
          rfl
        · obtain ⟨rfl, -⟩ := List.cons.inj hsplit
          obtain ⟨record, hrecord⟩ := hbefore line List.mem_cons_self
          rw [hread] at hrecord
          cases hrecord
    | ok record =>
      have hnumber (count : ℕ) : start + (count + 1) + 1 = start + 1 + count + 1 := by omega
      simp only [bind_ok, ih]
      constructor
      · rintro ⟨before, other, after, why, rfl, hbefore, hother, rfl⟩
        refine ⟨line :: before, other, after, why, rfl, ?_, hother, ?_⟩
        · exact List.forall_mem_cons.mpr ⟨⟨record, hread⟩, hbefore⟩
        · rw [List.length_cons, hnumber]
      · rintro ⟨_ | ⟨first, before⟩, other, after, why, hsplit, hbefore, hother, rfl⟩
        · obtain ⟨rfl, -⟩ := List.cons.inj hsplit
          rw [hread] at hother
          cases hother
        · obtain ⟨rfl, rfl⟩ := List.cons.inj hsplit
          refine ⟨before, other, after, why, rfl, (List.forall_mem_cons.mp hbefore).2, hother, ?_⟩
          rw [List.length_cons, hnumber]

/-- A file of submissions gives the records of its lines in their order, or fails with the failure
of the first line that is none, under its number where it has one. Whatever is written in the file's
format, with any white space, empty lines and comments, gives the records that were written. -/
theorem submissions_read (text : List Char) :
    (∀ records, submissionsIn text = .ok records ↔
      ∃ read, List.Forall₂ (fun line record ↦ readLine line = .ok record) (lines text) read ∧
        records = read.reduceOption) ∧
    (∀ failure, submissionsIn text = .error failure ↔
      ∃ before line after why, lines text = before ++ line :: after ∧
        (∀ earlier ∈ before, ∃ record, readLine earlier = .ok record) ∧
        readLine line = .error why ∧ failure = why.numbered (before.length + 1)) ∧
    ∀ written : List (List Char × Option (SubmissionId × Digest)),
      (∀ line ∈ written, '\n' ∉ line.1 ∧ Written line.1 line.2) →
        text = written.flatMap (fun line ↦ line.1 ++ ['\n']) →
          submissionsIn text = .ok (written.filterMap Prod.snd) := by
  refine ⟨fun records ↦ foldlM_collect_eq_ok_iff, fun failure ↦ ?_, ?_⟩
  · rw [submissionsIn, foldlM_collect_eq_error_iff]
    simp only [Nat.zero_add]
  · rintro written hlines rfl
    exact submissionsIn_written written hlines

section Process

variable {Path : Type} [DecidableEq Path]

/-- The submissions of a file, or no file and no records. -/
def submissions (host : Host Path) :
    Option Path → Except SubmissionsFailed (List (SubmissionId × Digest))
  | none => pure []
  | some path => do
    let file ← okOr (host.file path) .unreadable
    let text ← okOr (decodeUtf8 file.octets) .unreadable
    submissionsIn text

/-! ### Keys -/

/-- Why a key was not read. -/
inductive SecretFailed
  | unreadable
  | readable (mode : ℕ)
  | notAKey (why : HexFailed)
deriving DecidableEq

/-- Refuses a key file at any mode but 0600. -/
def refuseAReadableKey (host : Host Path) (path : Path) : Except SecretFailed Unit := do
  let file ← okOr (host.file path) .unreadable
  require (file.mode &&& 0o777 = 0o600) (.readable (file.mode &&& 0o777))

/-- 32 octets read from a file. -/
def secretAt (host : Host Path) (path : Path) : Except SecretFailed (Octets 32) := do
  refuseAReadableKey host path
  let file ← okOr (host.file path) .unreadable
  let raw ← okOr (decodeUtf8 file.octets) .unreadable
  (hex32 raw).mapError .notAKey

/-- Why a process stopped before it wrote. -/
inductive BatchFailed (Path : Type)
  | notSet (name : String)
  | notANumber (name raw : String)
  | authoritysKey (path : Path)
  | clockBeforeEpoch
  | clockTooLate
  | undatable (now : Int64)
  | submissions (why : SubmissionsFailed)
  | secret (path : Path) (why : SecretFailed)
  | doesNotBuild (error : RegistryError)
  | doesNotEncode (error : RegistryError)
  | refused (path : Path) (why : HandoffWriteRefused)

/-- A variable that must be set. -/
def envOf (host : Host Path) (name : String) : Except (BatchFailed Path) String :=
  okOr (host.env name) (.notSet name)

/-- A number below a bound, from the text of a variable. -/
def numberOf (bound : ℕ) (name raw : String) : Except (BatchFailed Path) ℕ :=
  okOr (fromStrRadix 10 bound (trim raw.toList)) (.notANumber name raw)

/-- Refuses a batcher key that is the checkpoint authority's own file, as it is written or as the
file system resolves it. -/
def refuseTheAuthoritysKey (host : Host Path) (path : Path) : Except (BatchFailed Path) Unit := do
  let home ← envOf host "HOME"
  let authority := host.join (host.pathOf home) authority
  let same := path = authority ∨
    ((host.canonicalize path).isSome ∧ host.canonicalize path = host.canonicalize authority)
  require (¬ same) (.authoritysKey path)

/-! ### The process -/

/-- What a process works on, once it has read everything. -/
structure Settings (Path : Type) where
  epoch : UInt64
  height : UInt8
  handoffs : Path
  now : Int64
  records : List (SubmissionId × Digest)
  master : Digest
  seed : Octets 32

/-- What a process reads, in its order: the keys last. -/
def settingsOf (host : Host Path) : Except (BatchFailed Path) (Settings Path) := do
  let raw ← envOf host "CERTIMINING_EPOCH"
  let epoch ← numberOf (2 ^ 64) "CERTIMINING_EPOCH" raw
  let height ←
    match host.env "CERTIMINING_HEIGHT" with
    | some raw => numberOf (2 ^ 8) "CERTIMINING_HEIGHT" raw
    | none => pure defaultHeight.toNat
  let handoffs ← envOf host "CERTIMINING_HANDOFFS"
  let signing ← envOf host "CERTIMINING_BATCHER_SIGNING_KEY"
  refuseTheAuthoritysKey host (host.pathOf signing)
  let seconds ← okOr host.clock .clockBeforeEpoch
  let now ← okOr (tryFromI64 seconds.toNat) .clockTooLate
  require (dayIndex now).isSome (.undatable now)
  let records ← (submissions host
    ((host.env "CERTIMINING_SUBMISSIONS").map host.pathOf)).mapError .submissions
  let master ← envOf host "CERTIMINING_MASTER_KEY"
  let masterKey ← (secretAt host (host.pathOf master)).mapError (.secret (host.pathOf master))
  let seed ← (secretAt host (host.pathOf signing)).mapError (.secret (host.pathOf signing))
  pure ⟨UInt64.ofNat epoch, UInt8.ofNat height, host.pathOf handoffs, now, records, masterKey, seed⟩

/-- What a process writes, and where. -/
structure Batch (Path : Type) where
  destination : Path
  handoff : Handoff

/-- The hand-off of a root, signed. -/
def signedHandoff (key : SigningKey) (epoch : UInt64) (height : UInt8) (root : Digest) :
    Result Handoff := do
  let buffer ← Preimage.writePreimage (⟨epoch, height, root⟩ : HandoffPreimage) .new
  pure ⟨epoch, height, root, key.verifyingKey, key.sign buffer.octets⟩

variable (keyOf : Octets 32 → SigningKey) (hasher : Hasher)

/-- What a process comes to write, given what it reads of the hand-offs. A hand-off that cannot be
read is taken for none. -/
def run (host : Host Path) (read : Path → Option (List UInt8)) :
    Except (BatchFailed Path) (Batch Path) := do
  let settings ← settingsOf host
  let built ← (build hasher settings.epoch settings.height settings.master
    settings.records).mapError .doesNotBuild
  let handoff ← (signedHandoff (keyOf settings.seed) settings.epoch settings.height
    built.root).mapError .doesNotEncode
  let destination := host.join settings.handoffs (toString settings.epoch.toNat ++ ".handoff")
  (refuseToWrite .deployed .production settings.epoch settings.now (read destination)
    (HandoffCodec.encode handoff)).mapError (.refused destination)
  pure ⟨destination, handoff⟩

/-- A process comes to sign a message with its key. -/
def Signs (host : Host Path) (key : PublicKey) (message : List UInt8) : Prop :=
  ∃ settings built buffer, settingsOf host = .ok settings ∧
    build hasher settings.epoch settings.height settings.master settings.records = .ok built ∧
    Preimage.writePreimage (⟨settings.epoch, settings.height, built.root⟩ : HandoffPreimage) .new =
      .ok buffer ∧
    (keyOf settings.seed).verifyingKey = key ∧ buffer.octets = message

/-! ### Many processes -/

/-- The hand-offs that are written. -/
abbrev Files (Path : Type) : Type :=
  Path → Option (List UInt8)

/-- The hand-offs that are written, and what each process has decided to write. -/
structure Disk (Id Path : Type) where
  files : Files Path
  pending : Id → Option (Batch Path)

/-- The disk before the first process. -/
def Disk.start {Id : Type} : Disk Id Path where
  files := fun _ ↦ none
  pending := fun _ ↦ none

variable {Id : Type} [DecidableEq Id]

/-- What a process may read at a path: nothing, or the front of what is there or of what another
process is writing there. -/
def Readable (disk : Disk Id Path) (path : Path) (bytes : List UInt8) : Prop :=
  (∃ found, disk.files path = some found ∧ bytes <+: found) ∨
    ∃ other batch, disk.pending other = some batch ∧ batch.destination = path ∧
      bytes <+: (HandoffCodec.encode batch.handoff).octets

/-- One effect of a process: it reads and decides, or it writes what it decided on, of which some
front reaches the file at once and all of it unless the process is interrupted, or it stops before
it writes. In an `orderly` run the hand-offs can be read, and no process decides where another has
still to write. -/
inductive Step (orderly : Prop) (before : Disk Id Path) : Disk Id Path → Prop
  | decides {host : Host Path} {read : Path → Option (List UInt8)} {batch : Batch Path} (id : Id)
      (hread : ∀ path bytes, read path = some bytes → Readable before path bytes)
      (horderly : orderly → read = before.files ∧ ∀ other pending,
        before.pending other = some pending → pending.destination ≠ batch.destination)
      (hrun : run keyOf hasher host read = .ok batch) :
      Step orderly before { before with pending := Function.update before.pending id (some batch) }
  | writes {id : Id} {batch : Batch Path} (hpending : before.pending id = some batch)
      (length : ℕ) : Step orderly before
        ⟨Function.update before.files batch.destination
          (some ((HandoffCodec.encode batch.handoff).octets.take length)),
        Function.update before.pending id none⟩
  | stops (id : Id) :
      Step orderly before { before with pending := Function.update before.pending id none }

/-- A hand-off is of the root of the tree a process built from what it read, signed with its
key. -/
structure Produced (settings : Settings Path) (built : BuiltEpoch) (handoff : Handoff) : Prop where
  tree : build hasher settings.epoch settings.height settings.master settings.records = .ok built
  signed : signedHandoff (keyOf settings.seed) settings.epoch settings.height built.root =
    .ok handoff

omit [DecidableEq Path] in
/-- A process runs when the hand-off of its epoch may be written. -/
def InWindow (settings : Settings Path) : Prop :=
  ∃ today start, dayIndex settings.now = some today ∧ settings.epoch ≤ today ∧
    buildStart .deployed settings.epoch = some start ∧ start ≤ settings.now ∧
    today ≤ WorkerPolicy.production.lastPublishableDay settings.epoch

/-- A hand-off was produced inside its window. -/
def InTime (handoff : Handoff) : Prop :=
  ∃ settings built, @Produced Path keyOf hasher settings built handoff ∧ InWindow settings

/-- Whatever is at a path is the front of a hand-off that was produced inside its window, and so is
what a process has decided to write. -/
structure Sourced (disk : Disk Id Path) : Prop where
  files : ∀ path bytes, disk.files path = some bytes → ∃ handoff,
    @InTime Path keyOf hasher handoff ∧ bytes <+: (HandoffCodec.encode handoff).octets
  pending : ∀ id batch, disk.pending id = some batch → @InTime Path keyOf hasher batch.handoff

/-- Nothing else is there where a process has still to write, and no two have to write at one
path. -/
structure Settled (disk : Disk Id Path) : Prop where
  agrees : ∀ id batch, disk.pending id = some batch → disk.files batch.destination = none ∨
    disk.files batch.destination = some (HandoffCodec.encode batch.handoff).octets
  apart : ∀ id other first second, disk.pending id = some first →
    disk.pending other = some second → first.destination = second.destination → id = other

/-- Whatever is at a path stays there, at most cut short. -/
def Kept (before after : Files Path) : Prop :=
  ∀ path bytes, before path = some bytes → ∃ left, after path = some left ∧ left <+: bytes

variable {keyOf hasher} {orderly : Prop} {before after : Disk Id Path} {verifier : Verifier}

omit [DecidableEq Path] in
theorem Kept.refl (files : Files Path) : Kept files files :=
  fun _ bytes hbytes ↦ ⟨bytes, hbytes, List.prefix_rfl⟩

omit [DecidableEq Path] in
theorem Kept.trans {first middle last : Files Path} (hfirst : Kept first middle)
    (hsecond : Kept middle last) : Kept first last := by
  intro path bytes hbytes
  obtain ⟨middleBytes, hmiddle, hfront⟩ := hfirst path bytes hbytes
  obtain ⟨left, hleft, hfurther⟩ := hsecond path middleBytes hmiddle
  exact ⟨left, hleft, hfurther.trans hfront⟩

/-- The front of a hand-off that is as long as a hand-off is all of it. -/
theorem eq_of_encode_isPrefix {first second : Handoff}
    (hfront : (HandoffCodec.encode first).octets <+: (HandoffCodec.encode second).octets) :
    first = second := by
  have hsame : (HandoffCodec.encode first).octets = (HandoffCodec.encode second).octets :=
    hfront.eq_of_length (by simp)
  have hdecode := HandoffCodec.decode_encode first
  rw [hsame, HandoffCodec.decode_encode, Except.ok.injEq] at hdecode
  exact hdecode.symm

/-- What may be written where something is: nothing else than what is there, and inside the window
where nothing is. -/
theorem refuseToWrite_eq_ok {schedule : Schedule} {policy : WorkerPolicy} {epoch : UInt64}
    {now : Int64} {existing : Option (List UInt8)} {bytes : Octets handoffLen}
    (hwrite : refuseToWrite schedule policy epoch now existing bytes = .ok ()) :
    existing = some bytes.octets ∨
      (existing = none ∧ refuseToWrite schedule policy epoch now none bytes = .ok ()) := by
  by_cases hsame : existing = some bytes.octets
  · exact .inl hsame
  · cases existing with
    | none => exact .inr ⟨rfl, hwrite⟩
    | some found =>
      rw [refuseToWrite, if_neg hsame] at hwrite
      simp only [bind_eq_ok_iff, throw_eq_error, reduceCtorEq, and_false, exists_false] at hwrite

/-- What a process that decides to write produced, and what it read at its destination. -/
theorem exists_of_run {host : Host Path} {read : Path → Option (List UInt8)} {batch : Batch Path}
    (hrun : run keyOf hasher host read = .ok batch) :
    ∃ settings built, settingsOf host = .ok settings ∧
      @Produced Path keyOf hasher settings built batch.handoff ∧
      (read batch.destination = some (HandoffCodec.encode batch.handoff).octets ∨
        read batch.destination = none ∧ InWindow settings) := by
  simp only [run, bind_eq_ok_iff, mapError_eq_ok_iff, pure_eq_ok, Except.ok.injEq] at hrun
  obtain ⟨settings, hsettings, built, hbuilt, handoff, hsigned, _, hwrite, rfl⟩ := hrun
  exact ⟨settings, built, hsettings, ⟨hbuilt, hsigned⟩, (refuseToWrite_eq_ok hwrite).imp_right
    fun hwindow ↦ ⟨hwindow.1, refuseToWrite_none_eq_ok_iff.mp hwindow.2⟩⟩

/-- A process that decides to write does so again over what it wrote. -/
theorem run_again {host : Host Path} {read again : Path → Option (List UInt8)}
    {batch : Batch Path} (hrun : run keyOf hasher host read = .ok batch)
    (hthere : again batch.destination = some (HandoffCodec.encode batch.handoff).octets) :
    run keyOf hasher host again = .ok batch := by
  simp only [run, bind_eq_ok_iff, mapError_eq_ok_iff, pure_eq_ok, Except.ok.injEq] at hrun ⊢
  obtain ⟨settings, hsettings, built, hbuilt, handoff, hsigned, _, -, rfl⟩ := hrun
  exact ⟨settings, hsettings, built, hbuilt, handoff, hsigned, (), if_pos hthere, rfl⟩

omit [DecidableEq Path] [DecidableEq Id] in
/-- What can be read where something was produced in time is that. -/
theorem Sourced.inTime_of_readable (hsourced : Sourced keyOf hasher before) {path : Path}
    {handoff : Handoff}
    (hreadable : Readable before path (HandoffCodec.encode handoff).octets) :
    @InTime Path keyOf hasher handoff := by
  rcases hreadable with ⟨found, hfound, hfront⟩ | ⟨other, batch, hpending, -, hfront⟩
  · obtain ⟨source, hsource, hfurther⟩ := hsourced.files path found hfound
    rwa [eq_of_encode_isPrefix (hfront.trans hfurther)]
  · rw [eq_of_encode_isPrefix hfront]
    exact hsourced.pending other batch hpending

omit [DecidableEq Path] [DecidableEq Id] in
theorem sourced_start : Sourced keyOf hasher (Disk.start : Disk Id Path) where
  files := by
    rintro path bytes ⟨⟩
  pending := by
    rintro id batch ⟨⟩

omit [DecidableEq Path] in
/-- Once a process has decided, it or an earlier one is pending. -/
theorem pending_decided {pending : Id → Option (Batch Path)} {id other : Id}
    {batch found : Batch Path} (hpending : Function.update pending id (some batch) other =
      some found) : (other = id ∧ found = batch) ∨ (other ≠ id ∧ pending other = some found) := by
  by_cases hsame : other = id
  · rw [hsame, Function.update_self, Option.some.injEq] at hpending
    exact .inl ⟨hsame, hpending.symm⟩
  · rw [Function.update_of_ne hsame] at hpending
    exact .inr ⟨hsame, hpending⟩

omit [DecidableEq Path] in
/-- Once a process has come to its end, another is pending. -/
theorem pending_ended {pending : Id → Option (Batch Path)} {id other : Id} {found : Batch Path}
    (hpending : Function.update pending id none other = some found) :
    other ≠ id ∧ pending other = some found := by
  by_cases hsame : other = id
  · rw [hsame, Function.update_self] at hpending
    cases hpending
  · rw [Function.update_of_ne hsame] at hpending
    exact ⟨hsame, hpending⟩

/-- Every effect keeps the hand-offs sourced, whatever was read. -/
theorem sourced_of_step (hsourced : Sourced keyOf hasher before)
    (hstep : Step keyOf hasher orderly before after) : Sourced keyOf hasher after := by
  cases hstep with
  | @decides host read batch id hread horderly hrun =>
    refine ⟨hsourced.files, fun other pending hpending ↦ ?_⟩
    rcases pending_decided hpending with ⟨-, rfl⟩ | ⟨-, hold⟩
    · obtain ⟨settings, built, -, hproduced, hthere | ⟨-, hwindow⟩⟩ := exists_of_run hrun
      · exact hsourced.inTime_of_readable (hread _ _ hthere)
      · exact ⟨settings, built, hproduced, hwindow⟩
    · exact hsourced.pending other pending hold
  | @writes id batch hpending length =>
    refine ⟨fun path bytes hbytes ↦ ?_, fun other pending hother ↦
      hsourced.pending other pending (pending_ended hother).2⟩
    by_cases hpath : path = batch.destination
    · dsimp only at hbytes
      rw [hpath, Function.update_self, Option.some.injEq] at hbytes
      rw [← hbytes]
      exact ⟨batch.handoff, hsourced.pending id batch hpending, List.take_prefix _ _⟩
    · dsimp only at hbytes
      rw [Function.update_of_ne hpath] at hbytes
      exact hsourced.files path bytes hbytes
  | stops id =>
    exact ⟨hsourced.files, fun other pending hother ↦
      hsourced.pending other pending (pending_ended hother).2⟩

omit [DecidableEq Path] [DecidableEq Id] in
theorem settled_start : Settled (Disk.start : Disk Id Path) where
  agrees := by
    rintro id batch ⟨⟩
  apart := by
    rintro id other first second ⟨⟩

omit [DecidableEq Path] in
/-- A disk on which less is pending is as settled. -/
theorem Settled.ended (hsettled : Settled before) (id : Id) :
    Settled { before with pending := Function.update before.pending id none } where
  agrees := fun other batch hpending ↦ hsettled.agrees other batch (pending_ended hpending).2
  apart := fun first second one two hone htwo ↦
    hsettled.apart first second one two (pending_ended hone).2 (pending_ended htwo).2

omit [DecidableEq Path] in
/-- A process that decides where nothing else is or is to be written keeps the disk settled. -/
theorem Settled.decided (hsettled : Settled before) {batch : Batch Path}
    (hthere : before.files batch.destination = none ∨
      before.files batch.destination = some (HandoffCodec.encode batch.handoff).octets)
    (haway : ∀ other pending, before.pending other = some pending →
      pending.destination ≠ batch.destination) (id : Id) :
    Settled { before with pending := Function.update before.pending id (some batch) } := by
  refine ⟨fun other pending hpending ↦ ?_, fun first second one two hone htwo hdest ↦ ?_⟩
  · rcases pending_decided hpending with ⟨-, rfl⟩ | ⟨-, hold⟩
    · exact hthere
    · exact hsettled.agrees other pending hold
  · rcases pending_decided hone with ⟨rfl, rfl⟩ | ⟨-, honeBefore⟩
    · rcases pending_decided htwo with ⟨rfl, -⟩ | ⟨-, htwoBefore⟩
      · rfl
      · exact absurd hdest.symm (haway second two htwoBefore)
    · rcases pending_decided htwo with ⟨rfl, rfl⟩ | ⟨-, htwoBefore⟩
      · exact absurd hdest (haway first one honeBefore)
      · exact hsettled.apart first second one two honeBefore htwoBefore hdest

/-- A process that writes where the disk is settled keeps it so, and what is there. -/
theorem Settled.written (hsettled : Settled before) {id : Id} {batch : Batch Path}
    (hpending : before.pending id = some batch) (length : ℕ) :
    Settled ⟨Function.update before.files batch.destination
      (some ((HandoffCodec.encode batch.handoff).octets.take length)),
        Function.update before.pending id none⟩ ∧
    Kept before.files (Function.update before.files batch.destination
      (some ((HandoffCodec.encode batch.handoff).octets.take length))) := by
  refine ⟨⟨fun other pending hother ↦ ?_, (hsettled.ended id).apart⟩, fun path bytes hbytes ↦ ?_⟩
  · obtain ⟨hne, hold⟩ := pending_ended hother
    have haway : pending.destination ≠ batch.destination :=
      fun hdest ↦ hne (hsettled.apart other id pending batch hold hpending hdest)
    dsimp only
    rw [Function.update_of_ne haway]
    exact hsettled.agrees other pending hold
  · by_cases hpath : path = batch.destination
    · subst hpath
      rw [Function.update_self]
      refine ⟨_, rfl, ?_⟩
      rcases hsettled.agrees id batch hpending with hnone | hsame
      · rw [hnone] at hbytes
        cases hbytes
      · rw [hsame, Option.some.injEq] at hbytes
        rw [← hbytes]
        exact List.take_prefix _ _
    · rw [Function.update_of_ne hpath]
      exact ⟨bytes, hbytes, List.prefix_rfl⟩

/-- In an orderly run every effect keeps the disk settled and what is there. -/
theorem settled_of_step (horder : orderly) (hsettled : Settled before)
    (hstep : Step keyOf hasher orderly before after) :
    Settled after ∧ Kept before.files after.files := by
  cases hstep with
  | @decides host read batch id hread horderly hrun =>
    obtain ⟨hsame, haway⟩ := horderly horder
    obtain ⟨settings, built, -, -, hthere⟩ := exists_of_run hrun
    rw [hsame] at hthere
    exact ⟨hsettled.decided (hthere.symm.imp_left And.left) haway id, .refl before.files⟩
  | writes hpending length => exact hsettled.written hpending length
  | stops id => exact ⟨hsettled.ended id, .refl before.files⟩

omit [DecidableEq Path] in
/-- A hand-off that was produced is verified as the root of the tree. -/
theorem Produced.verify {settings : Settings Path} {built : BuiltEpoch} {handoff : Handoff}
    (hsigns : ∀ seed message,
      verifier.valid (keyOf seed).verifyingKey message ((keyOf seed).sign message) = true)
    (hproduced : Produced keyOf hasher settings built handoff) :
    handoff.verify verifier (keyOf settings.seed).verifyingKey settings.epoch =
      .ok built.root := by
  have hsigned := hproduced.signed
  obtain ⟨buffer, hbuffer, hoctets⟩ :=
    exists_writePreimage settings.epoch settings.height built.root
  rw [signedHandoff, hbuffer, bind_ok, hoctets, pure_eq_ok, Except.ok.injEq] at hsigned
  subst hsigned
  exact Handoff.verify_eq_ok_iff.mpr
    ⟨rfl, (builtFrom_of_build hproduced.tree).height_mem, rfl, rfl, hsigns _ _⟩

/-- Every hand-off that can be read is verified, and its root is that of the tree a process built
inside its window. -/
def HandoffsVerified (keyOf : Octets 32 → SigningKey) (hasher : Hasher) (verifier : Verifier)
    (files : Files Path) : Prop :=
  ∀ path bytes handoff, files path = some bytes → HandoffCodec.decode bytes = .ok handoff →
    ∃ settings built, @Produced Path keyOf hasher settings built handoff ∧ InWindow settings ∧
      handoff.verify verifier (keyOf settings.seed).verifyingKey settings.epoch = .ok built.root

/-- What is said of the hand-offs at two moments of a run. -/
structure HandoffsKept (before after : Files Path) : Prop where
  /-- What is at a path is not replaced, and cut short at the most. -/
  kept : Kept before after
  /-- The hand-offs that can be read at a path are one. -/
  same : ∀ path bytes left first second, before path = some bytes → after path = some left →
    HandoffCodec.decode bytes = .ok first → HandoffCodec.decode left = .ok second → first = second

omit [DecidableEq Path] [DecidableEq Id] in
theorem Sourced.verified (hsigns : ∀ seed message,
      verifier.valid (keyOf seed).verifyingKey message ((keyOf seed).sign message) = true)
    (hsourced : Sourced keyOf hasher before) :
    HandoffsVerified keyOf hasher verifier before.files := by
  intro path bytes handoff hbytes hdecode
  obtain ⟨source, ⟨settings, built, hproduced, hwindow⟩, hfront⟩ :=
    hsourced.files path bytes hbytes
  rw [HandoffCodec.decode_eq_ok_iff] at hdecode
  rw [hdecode] at hfront
  rw [eq_of_encode_isPrefix hfront]
  exact ⟨settings, built, hproduced, hwindow, hproduced.verify hsigns⟩

omit [DecidableEq Path] in
theorem Kept.handoffsKept {first last : Files Path} (hkept : Kept first last) :
    HandoffsKept first last := by
  refine ⟨hkept, fun path bytes left one two hbytes hleft hone htwo ↦ ?_⟩
  obtain ⟨found, hfound, hfront⟩ := hkept path bytes hbytes
  rw [hleft, Option.some.injEq] at hfound
  rw [HandoffCodec.decode_eq_ok_iff] at hone htwo
  rw [← hfound, hone, htwo] at hfront
  exact (eq_of_encode_isPrefix hfront).symm

/-- A process that has the disk for itself writes what it decided on. -/
theorem reachable_alone {host : Host Path} {batch : Batch Path} {files : Files Path}
    (hrun : run keyOf hasher host files = .ok batch) (id : Id) (length : ℕ) :
    @Relation.ReflTransGen (Disk Id Path) (Step keyOf hasher True) ⟨files, fun _ ↦ none⟩
      ⟨Function.update files batch.destination
        (some ((HandoffCodec.encode batch.handoff).octets.take length)), fun _ ↦ none⟩ := by
  have hdecided : Step keyOf hasher True ⟨files, fun _ ↦ none⟩
      ⟨files, Function.update (fun _ ↦ none) id (some batch)⟩ :=
    .decides id (fun _ bytes hbytes ↦ .inl ⟨bytes, hbytes, List.prefix_rfl⟩)
      (fun _ ↦ ⟨rfl, nofun⟩) hrun
  have hpending : Function.update (fun _ ↦ none) id (some batch) id = some batch :=
    Function.update_self ..
  have hwritten : Step keyOf hasher True ⟨files, Function.update (fun _ ↦ none) id (some batch)⟩
      ⟨Function.update files batch.destination
        (some ((HandoffCodec.encode batch.handoff).octets.take length)),
        Function.update (Function.update (fun _ ↦ none) id (some batch)) id none⟩ :=
    .writes hpending length
  rw [Function.update_idem, Function.update_eq_self] at hwritten
  exact (Relation.ReflTransGen.single hdecided).tail hwritten

end Process

/-- A signature that is a residue of the message and of the key. -/
def residueSignature (key : PublicKey) (message : List UInt8) : Signature :=
  leOctets 64 ((leNat message + leNat key.octets) % (2 ^ 512 - 569))

/-- A key that signs so. -/
def residueKey (seed : Octets 32) : SigningKey :=
  ⟨seed, residueSignature seed⟩

/-- A verifier of such signatures. -/
def residueVerifier : Verifier where
  valid := fun key message signature ↦ signature == residueSignature key message

theorem valid_residueKey (seed : Octets 32) (message : List UInt8) :
    residueVerifier.valid (residueKey seed).verifyingKey message ((residueKey seed).sign message) =
      true :=
  beq_self_eq_true (residueSignature seed message)

/-- A host on whose clock the epoch 20000 may be built, with one submission. -/
def builtHost : Host (List String) where
  env := fun name ↦
    if name = "CERTIMINING_EPOCH" then some "20000"
    else if name = "CERTIMINING_HEIGHT" then some "4"
    else if name = "CERTIMINING_HANDOFFS" then some "handoffs"
    else if name = "CERTIMINING_BATCHER_SIGNING_KEY" then some "signing"
    else if name = "CERTIMINING_MASTER_KEY" then some "master"
    else if name = "CERTIMINING_SUBMISSIONS" then some "submissions"
    else if name = "HOME" then some "home"
    else none
  pathOf := fun text ↦ [text]
  join := fun path name ↦ path ++ [name]
  canonicalize := fun _ ↦ none
  file := fun path ↦
    if path = ["submissions"] then
      some ⟨0o644, List.replicate 32 0x61 ++ [0x20] ++ List.replicate 64 0x62 ++ [0x0a]⟩
    else some ⟨0o600, List.replicate 64 0x30⟩
  clock := some 1728090000

end AnchoredLog.Client.BatcherHandoff
