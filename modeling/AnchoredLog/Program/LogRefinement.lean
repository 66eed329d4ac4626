import AnchoredLog.Library.WriteOnceLog
import AnchoredLog.Program.LogSafety

/-!
# The log the program keeps

What the program is for is a log that only grows: terms fixed when it is opened, one publication
for every epoch from the first on, in order, and at most one receipt for a publication. `logOf`
reads that log from a ledger, `perform` says what a transaction that succeeds does to it and
`Permitted` which transactions it admits. `logOf_of_execute` is the simulation: the program on its
accounts does to the log what `perform` does, and only where that is permitted. `log_refined`
carries it over runs.
-/

set_option autoImplicit false
set_option relaxedAutoImplicit false

namespace AnchoredLog.Program.LogRefinement

open Library.ByteCodec Library.Fallible Library.Runs Library.WriteOnceLog
open AccountLayouts ChainRuntime Checkpoint LogInvariant LogSafety

/-! ### The log -/

/-- What is fixed when the log is opened. -/
structure Terms where
  authority : Pubkey
  treeHeight : UInt8
  startEpoch : UInt64
deriving DecidableEq

/-- What is published for an epoch. -/
structure Publication where
  root : Octets 32
  slot : UInt64
  unixTimestamp : Int64
deriving DecidableEq

/-- A log of publications, with the digest of a receipt as the note of each. -/
abbrev PublicLog : Type :=
  OpenLog Terms Publication (Octets 32)

/-- The terms in a configuration. -/
def termsOf (config : LogConfig) : Terms :=
  ⟨config.authority, config.treeHeight, config.startEpoch⟩

/-- The publication in a checkpoint, and its receipt. -/
def entryOf (checkpoint : CheckpointAccount) : Entry Publication (Octets 32) :=
  ⟨⟨checkpoint.root, checkpoint.publishedSlot, checkpoint.publishedUnix⟩,
    if checkpoint.receiptDigest = noReceipt then none else some checkpoint.receiptDigest⟩

section Reading

variable (chain : Chain) (ledger : Ledger)

/-- The checkpoint of an epoch, looked for under every bump. -/
def checkpointOf (epoch : UInt64) : Option CheckpointAccount :=
  (List.range 256).findSome? fun bump ↦ do
    let address ← chain.createProgramAddress (checkpointSeeds epoch (UInt8.ofNat bump)) programId
    let checkpoint ← readCheckpoint ledger address
    if checkpoint.epoch = epoch then some checkpoint else none

/-- How many epochs a configuration counts. -/
def epochCount (config : LogConfig) : ℕ :=
  config.lastEpoch.toNat + 1 - config.startEpoch.toNat

/-- The epoch at a position of the log. -/
def epochAt (config : LogConfig) (index : ℕ) : UInt64 :=
  UInt64.ofNat (config.startEpoch.toNat + index)

/-- The log in the accounts of a ledger. -/
def logOf : Option PublicLog := do
  let derived ← findProgramAddress chain [LogConfig.seed]
  let config ← readConfig ledger derived.1
  pure ⟨termsOf config, (List.range (epochCount config)).filterMap fun index ↦
    (checkpointOf chain ledger (epochAt config index)).map entryOf⟩

end Reading

/-- The entry of an epoch. -/
def lookupEpoch (log : Option PublicLog) (epoch : UInt64) :
    Option (Entry Publication (Octets 32)) :=
  log.bind fun opened ↦
    if opened.terms.startEpoch ≤ epoch then
      opened.entries[epoch.toNat - opened.terms.startEpoch.toNat]?
    else none

/-- What a transaction that succeeds does to the log. -/
def perform (log : Option PublicLog) (transaction : Transaction) : Option PublicLog :=
  match transaction.instruction, log with
  | .initializeLog _ authority treeHeight startEpoch, none =>
    some ⟨⟨authority, treeHeight, startEpoch⟩, []⟩
  | .publishCheckpoint _ _ root _, some log =>
    some (log.append
      ⟨root, transaction.context.clock.slot, transaction.context.clock.unixTimestamp⟩)
  | .attachAnchorReceipt _ epoch receiptDigest _, some log =>
    some (log.annotate (epoch.toNat - log.terms.startEpoch.toNat) receiptDigest)
  | _, log => log

/-- The transactions a log admits: it is opened once, on the day of the clock; its authority
publishes the next epoch, when its day has come; its authority attaches a receipt to an epoch that
has none. -/
def Permitted (log : Option PublicLog) (transaction : Transaction) : Prop :=
  match transaction.instruction with
  | .initializeLog _ _ treeHeight startEpoch =>
    log = none ∧ minTreeHeight ≤ treeHeight ∧ treeHeight ≤ maxTreeHeight ∧
      1 ≤ startEpoch.toNat ∧
        (startEpoch.toNat : ℤ) = transaction.context.clock.unixTimestamp.toInt / 86400
  | .publishCheckpoint _ epoch _ _ =>
    ∃ opened, log = some opened ∧ opened.terms.authority ∈ transaction.context.signers ∧
      epoch.toNat = opened.terms.startEpoch.toNat + opened.entries.length ∧
        (epoch.toNat : ℤ) ≤ transaction.context.clock.unixTimestamp.toInt / 86400
  | .attachAnchorReceipt _ epoch receiptDigest kind =>
    ∃ opened item, log = some opened ∧ opened.terms.authority ∈ transaction.context.signers ∧
      opened.terms.startEpoch ≤ epoch ∧
        opened.entries[epoch.toNat - opened.terms.startEpoch.toNat]? = some ⟨item, none⟩ ∧
          receiptDigest ≠ noReceipt ∧ kind = anchorKindOpenTimestamps
  | .transfer _ _ _ => True

/-- The transactions of a run that succeed. -/
def accepted (chain : Chain) : Ledger → List Transaction → List Transaction
  | _, [] => []
  | ledger, transaction :: rest =>
    match execute chain transaction ledger with
    | .ok reached => transaction :: accepted chain reached rest
    | .error _ => accepted chain ledger rest

/-! ### Reading a log -/

variable {chain : Chain} {ledger before after : Ledger} {address : Pubkey} {config : LogConfig}

section Found

variable {Value : Type} {count : ℕ} {found : ℕ → Option Value}

theorem length_filterMap_range (hfound : ∀ index < count, ∃ value, found index = some value) :
    ((List.range count).filterMap found).length = count := by
  induction count with
  | zero => rfl
  | succ count ih =>
    obtain ⟨value, hvalue⟩ := hfound count (by omega)
    rw [List.range_succ, List.filterMap_append, List.length_append,
      ih fun index hindex ↦ hfound index (by omega), List.filterMap_cons_some hvalue]
    rfl

/-- What is found for the numbers below a bound, when something is found for each. -/
theorem getElem?_filterMap_range (hfound : ∀ index < count, ∃ value, found index = some value)
    (index : ℕ) :
    ((List.range count).filterMap found)[index]? = if index < count then found index else none := by
  induction count with
  | zero => rfl
  | succ count ih =>
    have hprevious : ∀ lower < count, ∃ value, found lower = some value :=
      fun lower hlower ↦ hfound lower (by omega)
    obtain ⟨value, hvalue⟩ := hfound count (by omega)
    rw [List.range_succ, List.filterMap_append, List.getElem?_append,
      length_filterMap_range hprevious, ih hprevious, List.filterMap_cons_some hvalue]
    rcases Nat.lt_trichotomy index count with hless | hsame | hgreater
    · rw [if_pos hless, if_pos hless, if_pos (by omega)]
    · rw [if_neg (by omega), if_pos (by omega), hsame, hvalue, Nat.sub_self]
      rfl
    · rw [if_neg (by omega), if_neg (by omega)]
      exact List.getElem?_eq_none (by simp; omega)

end Found

/-- In a started log an epoch has the checkpoint that can be read for it. -/
theorem checkpointOf_eq_some_iff (hstarted : Started chain ledger address config)
    {epoch : UInt64} {checkpoint : CheckpointAccount} :
    checkpointOf chain ledger epoch = some checkpoint ↔
      ∃ other, readCheckpoint ledger other = some checkpoint ∧ checkpoint.epoch = epoch := by
  have hfound {found : CheckpointAccount} (hfind : checkpointOf chain ledger epoch = some found) :
      ∃ other, readCheckpoint ledger other = some found ∧ found.epoch = epoch := by
    obtain ⟨bump, -, hbump⟩ := List.exists_of_findSome?_eq_some hfind
    simp only [Option.bind_eq_bind, Option.bind_eq_some_iff] at hbump
    obtain ⟨other, -, read, hread, hsame⟩ := hbump
    split_ifs at hsame with hepoch
    obtain rfl := Option.some.inj hsame
    exact ⟨other, hread, hepoch⟩
  refine ⟨hfound, ?_⟩
  rintro ⟨other, hread, hepoch⟩
  have hplaced := (hstarted.stored_of_readCheckpoint hread).2.2
  have hsome : (checkpointOf chain ledger epoch).isSome := by
    rw [checkpointOf, List.findSome?_isSome_iff]
    refine ⟨checkpoint.bump.toNat, List.mem_range.mpr checkpoint.bump.toNat_lt, ?_⟩
    rw [← hepoch, UInt8.ofNat_toNat, hplaced.derived]
    simp [hread]
  obtain ⟨found, hfind⟩ := Option.isSome_iff_exists.mp hsome
  obtain ⟨place, hplace, hsame⟩ := hfound hfind
  obtain rfl := hstarted.unique place other found checkpoint hplace hread (hsame.trans hepoch.symm)
  rw [hfind, ← hplace, hread]

theorem toNat_epochAt {index : ℕ} (hindex : index < epochCount config) :
    (epochAt config index).toNat = config.startEpoch.toNat + index := by
  have hlast := config.lastEpoch.toNat_lt
  rw [epochCount] at hindex
  rw [epochAt, UInt64.toNat_ofNat']
  omega

/-- Every epoch a started log counts has an entry. -/
theorem exists_entry (hstarted : Started chain ledger address config) {index : ℕ}
    (hindex : index < epochCount config) :
    ∃ entry, (checkpointOf chain ledger (epochAt config index)).map entryOf = some entry := by
  have hepoch := toNat_epochAt hindex
  rw [epochCount] at hindex
  obtain ⟨other, checkpoint, hread, hsame⟩ := hstarted.covered (epochAt config index)
    (UInt64.le_iff_toNat_le.mpr (by omega)) (UInt64.le_iff_toNat_le.mpr (by omega))
  exact ⟨entryOf checkpoint,
    by rw [(checkpointOf_eq_some_iff hstarted).mpr ⟨other, hread, hsame⟩]; rfl⟩

/-- The log in the accounts of a started log. -/
theorem logOf_eq_some_iff (hstarted : Started chain ledger address config) {log : PublicLog} :
    logOf chain ledger = some log ↔ log.terms = termsOf config ∧
      ∀ index, log.entries[index]? = if index < epochCount config then
        (checkpointOf chain ledger (epochAt config index)).map entryOf else none := by
  have hentries := getElem?_filterMap_range fun index hindex ↦ exists_entry hstarted hindex
  have hlog : logOf chain ledger = some ⟨termsOf config, (List.range (epochCount config)).filterMap
      fun index ↦ (checkpointOf chain ledger (epochAt config index)).map entryOf⟩ := by
    simp only [logOf, hstarted.derived, readConfig_of_content hstarted.stored,
      Option.bind_eq_bind, Option.bind_some, Option.pure_def]
  rw [hlog, Option.some.injEq]
  constructor
  · rintro rfl
    exact ⟨rfl, hentries⟩
  · intro hfields
    obtain ⟨terms, entries⟩ := log
    obtain ⟨rfl, hsame⟩ := hfields
    congr 1
    exact List.ext_getElem? fun index ↦ (hentries index).trans (hsame index).symm

theorem exists_logOf (hstarted : Started chain ledger address config) :
    ∃ log, logOf chain ledger = some log :=
  ⟨⟨termsOf config, _⟩, (logOf_eq_some_iff hstarted).mpr
    ⟨rfl, getElem?_filterMap_range fun _ hindex ↦ exists_entry hstarted hindex⟩⟩

theorem length_entries (hstarted : Started chain ledger address config) {log : PublicLog}
    (hlog : logOf chain ledger = some log) : log.entries.length = epochCount config := by
  have hentries := ((logOf_eq_some_iff hstarted).mp hlog).2
  refine le_antisymm (not_lt.mp fun hlong ↦ ?_) (not_lt.mp fun hshort ↦ ?_)
  · have hlast := hentries (epochCount config)
    rw [if_neg (lt_irrefl _), List.getElem?_eq_none_iff] at hlast
    omega
  · obtain ⟨entry, hentry⟩ := exists_entry hstarted hshort
    have hlast := hentries log.entries.length
    rw [if_pos hshort, hentry, List.getElem?_eq_none (le_refl _)] at hlast
    cases hlast

theorem logOf_of_unstarted (hunstarted : Unstarted ledger) : logOf chain ledger = none := by
  cases hderived : findProgramAddress chain [LogConfig.seed] <;>
    simp [logOf, hderived, hunstarted.readConfig_eq_none]

theorem logOf_congr (hsame : ∀ address, contentAt after address = contentAt before address) :
    logOf chain after = logOf chain before := by
  have hconfig : readConfig after = readConfig before :=
    funext fun address ↦ readConfig_congr (hsame address)
  have hcheckpoint : readCheckpoint after = readCheckpoint before :=
    funext fun address ↦ readCheckpoint_congr (hsame address)
  simp only [logOf, checkpointOf, hconfig, hcheckpoint]

/-- The position of an epoch of the log. -/
theorem epochAt_position {epoch : UInt64} (hfirst : config.startEpoch ≤ epoch)
    (hlast : epoch ≤ config.lastEpoch) :
    epoch.toNat - config.startEpoch.toNat < epochCount config ∧
      epochAt config (epoch.toNat - config.startEpoch.toNat) = epoch := by
  rw [UInt64.le_iff_toNat_le] at hfirst hlast
  refine ⟨by rw [epochCount]; omega, ?_⟩
  rw [epochAt, Nat.add_sub_cancel' hfirst, UInt64.ofNat_toNat]

/-- The entry of an epoch is that of its checkpoint. -/
theorem lookupEpoch_logOf (hconsistent : Consistent chain ledger) (epoch : UInt64) :
    lookupEpoch (logOf chain ledger) epoch = (checkpointOf chain ledger epoch).map entryOf := by
  rcases hconsistent with hunstarted | ⟨address, config, hstarted⟩
  · have hnone : checkpointOf chain ledger epoch = none := by
      rw [checkpointOf, List.findSome?_eq_none_iff]
      intro bump _
      simp [hunstarted.readCheckpoint_eq_none]
    rw [logOf_of_unstarted hunstarted, hnone]
    rfl
  · obtain ⟨log, hlog⟩ := exists_logOf hstarted
    obtain ⟨hterms, hentries⟩ := (logOf_eq_some_iff hstarted).mp hlog
    rw [hlog, lookupEpoch, Option.bind_some, hterms, termsOf, hentries]
    by_cases hwithin : config.startEpoch ≤ epoch ∧ epoch ≤ config.lastEpoch
    · obtain ⟨hposition, hsame⟩ := epochAt_position hwithin.1 hwithin.2
      rw [if_pos hwithin.1, if_pos hposition, hsame]
    · have hnone : checkpointOf chain ledger epoch = none := by
        rw [Option.eq_none_iff_forall_ne_some]
        intro checkpoint hfound
        obtain ⟨other, hread, rfl⟩ := (checkpointOf_eq_some_iff hstarted).mp hfound
        have hplaced := (hstarted.stored_of_readCheckpoint hread).2.2
        exact hwithin ⟨hplaced.first, hplaced.last⟩
      rw [hnone, Option.map_none]
      by_cases hfirst : config.startEpoch ≤ epoch
      · have hlast : ¬ epoch.toNat ≤ config.lastEpoch.toNat :=
          fun hle ↦ hwithin ⟨hfirst, UInt64.le_iff_toNat_le.mpr hle⟩
        rw [if_pos hfirst, if_neg]
        show ¬ epoch.toNat - config.startEpoch.toNat < epochCount config
        rw [epochCount]
        omega
      · rw [if_neg hfirst]

/-- What a log holds for an epoch is what can be read of it in the ledger. -/
theorem lookupEpoch_logOf_eq_some_iff (hconsistent : Consistent chain ledger) {epoch : UInt64}
    {entry : Entry Publication (Octets 32)} :
    lookupEpoch (logOf chain ledger) epoch = some entry ↔
      ∃ place checkpoint, readCheckpoint ledger place = some checkpoint ∧
        checkpoint.epoch = epoch ∧ entryOf checkpoint = entry := by
  rw [lookupEpoch_logOf hconsistent, Option.map_eq_some_iff]
  rcases hconsistent with hunstarted | ⟨address, config, hstarted⟩
  · constructor
    · rintro ⟨checkpoint, hfound, -⟩
      rw [checkpointOf, List.findSome?_eq_some_iff] at hfound
      obtain ⟨-, bump, -, -, hbump, -⟩ := hfound
      simp [hunstarted.readCheckpoint_eq_none] at hbump
    · rintro ⟨place, checkpoint, hread, -⟩
      rw [hunstarted.readCheckpoint_eq_none] at hread
      cases hread
  · constructor
    · rintro ⟨checkpoint, hfound, hentry⟩
      obtain ⟨place, hread, hepoch⟩ := (checkpointOf_eq_some_iff hstarted).mp hfound
      exact ⟨place, checkpoint, hread, hepoch, hentry⟩
    · rintro ⟨place, checkpoint, hread, hepoch, hentry⟩
      exact ⟨checkpoint, (checkpointOf_eq_some_iff hstarted).mpr ⟨place, hread, hepoch⟩, hentry⟩

/-! ### What a change does to the log -/

theorem logOf_initialized (hunstarted : Unstarted before)
    (heffect : Initialized chain before after address config) :
    logOf chain after = some ⟨termsOf config, []⟩ := by
  have hfirst := heffect.first
  refine (logOf_eq_some_iff (started_of_initialized hunstarted heffect)).mpr
    ⟨rfl, fun index ↦ ?_⟩
  rw [if_neg (by rw [epochCount]; omega)]
  rfl

section Publication

variable {context : Context} {accounts : PublishAccounts} {epoch : UInt64} {root : Octets 32}
  {bump : UInt8} (hstarted : Started chain before accounts.config config)
  (heffect : Published chain context accounts epoch root bump before after config)

include hstarted heffect in
theorem checkpointOf_published (day : UInt64) : checkpointOf chain after day =
    if day = epoch then some (published context epoch root bump)
    else checkpointOf chain before day := by
  ext checkpoint
  rw [checkpointOf_eq_some_iff (started_of_published hstarted heffect)]
  simp only [readCheckpoint_published hstarted heffect]
  by_cases hday : day = epoch
  · rw [if_pos hday, Option.some.injEq]
    constructor
    · rintro ⟨other, ⟨-, rfl⟩ | hread, hepoch⟩
      · rfl
      · have hlast := (hstarted.stored_of_readCheckpoint hread).2.2.last
        have hnext := heffect.next
        rw [hepoch, hday, UInt64.le_iff_toNat_le] at hlast
        omega
    · rintro rfl
      exact ⟨accounts.checkpoint, .inl ⟨rfl, rfl⟩, hday.symm⟩
  · rw [if_neg hday, checkpointOf_eq_some_iff hstarted]
    constructor
    · rintro ⟨other, ⟨-, rfl⟩ | hread, hepoch⟩
      · exact absurd hepoch.symm hday
      · exact ⟨other, hread, hepoch⟩
    · rintro ⟨other, hread, hepoch⟩
      exact ⟨other, .inr hread, hepoch⟩

include hstarted heffect in
/-- A publication appends to the log. -/
theorem logOf_published {log : PublicLog} (hlog : logOf chain before = some log) :
    logOf chain after =
      some (log.append ⟨root, context.clock.slot, context.clock.unixTimestamp⟩) := by
  obtain ⟨hterms, hentries⟩ := (logOf_eq_some_iff hstarted).mp hlog
  have hlength := length_entries hstarted hlog
  have hnext := heffect.next
  have hcontiguous := hstarted.contiguous
  have hcount : epochCount { config with lastEpoch := epoch } = epochCount config + 1 := by
    simp only [epochCount]
    omega
  refine (logOf_eq_some_iff (started_of_published hstarted heffect)).mpr ⟨hterms, fun index ↦ ?_⟩
  rw [OpenLog.entries_append, hlength, hcount]
  have hsame : epochAt { config with lastEpoch := epoch } index = epochAt config index := rfl
  rw [hsame, checkpointOf_published hstarted heffect]
  by_cases hnew : index = epochCount config
  · have hday : epochAt config index = epoch := by
      rw [epochAt, ← UInt64.toNat_inj, UInt64.toNat_ofNat', hnew, epochCount]
      have hepoch := epoch.toNat_lt
      omega
    rw [if_pos hnew, if_pos (by omega), if_pos hday]
    rfl
  · rw [if_neg hnew, hentries index]
    by_cases hold : index < epochCount config
    · have hday : epochAt config index ≠ epoch := by
        intro hday
        have hposition := toNat_epochAt hold
        rw [hday] at hposition
        rw [epochCount] at hold
        omega
      rw [if_pos hold, if_pos (by omega), if_neg hday]
    · rw [if_neg hold, if_neg (by omega)]

end Publication

section Attachment

variable {context : Context} {accounts : AttachAccounts} {epoch : UInt64}
  {receiptDigest : Octets 32} {checkpoint : CheckpointAccount}
  (hstarted : Started chain before accounts.config config)
  (heffect : Attached context accounts epoch receiptDigest before after config checkpoint)

include hstarted heffect in
theorem checkpointOf_unattached : checkpointOf chain before epoch = some checkpoint :=
  (checkpointOf_eq_some_iff hstarted).mpr
    ⟨accounts.checkpoint, toOption_eq_some_iff.mpr heffect.loaded, heffect.sameEpoch⟩

include hstarted heffect in
theorem checkpointOf_attached (day : UInt64) : checkpointOf chain after day =
    if day = epoch then some { checkpoint with receiptDigest := receiptDigest, anchorKind := 1 }
    else checkpointOf chain before day := by
  have hafter := started_of_attached hstarted heffect
  by_cases hday : day = epoch
  · rw [if_pos hday, hday, checkpointOf_eq_some_iff hafter]
    exact ⟨accounts.checkpoint, readCheckpoint_of_content (contentAt_attached heffect),
      heffect.sameEpoch⟩
  · have hread (other : Pubkey) (found : CheckpointAccount) (hepoch : found.epoch = day) :
        readCheckpoint after other = some found ↔ readCheckpoint before other = some found := by
      by_cases hsame : other = accounts.checkpoint
      · have hloaded : readCheckpoint before accounts.checkpoint = some checkpoint :=
          toOption_eq_some_iff.mpr heffect.loaded
        rw [hsame, readCheckpoint_of_content (contentAt_attached heffect), hloaded,
          Option.some.injEq, Option.some.injEq]
        constructor
        · rintro rfl
          exact absurd (hepoch.symm.trans heffect.sameEpoch) hday
        · rintro rfl
          exact absurd (hepoch.symm.trans heffect.sameEpoch) hday
      · rw [readCheckpoint_congr (contentAt_unattached heffect hsame)]
    ext found
    rw [if_neg hday, checkpointOf_eq_some_iff hafter, checkpointOf_eq_some_iff hstarted]
    exact exists_congr fun other ↦ and_congr_left fun hepoch ↦ hread other found hepoch

include hstarted heffect in
/-- The position of the epoch a receipt is attached to. -/
theorem index_of_attached : epoch.toNat - config.startEpoch.toNat < epochCount config ∧
    epochAt config (epoch.toNat - config.startEpoch.toNat) = epoch ∧
      config.startEpoch ≤ epoch := by
  have hplaced := (hstarted.stored_of_readCheckpoint (toOption_eq_some_iff.mpr heffect.loaded)).2.2
  rw [← heffect.sameEpoch]
  obtain ⟨hposition, hsame⟩ := epochAt_position hplaced.first hplaced.last
  exact ⟨hposition, hsame, hplaced.first⟩

include hstarted heffect in
/-- The entry a receipt is attached to has none. -/
theorem entry_unattached {log : PublicLog} (hlog : logOf chain before = some log) :
    ∃ item, log.entries[epoch.toNat - log.terms.startEpoch.toNat]? = some ⟨item, none⟩ := by
  obtain ⟨hterms, hentries⟩ := (logOf_eq_some_iff hstarted).mp hlog
  obtain ⟨hindex, hepoch, -⟩ := index_of_attached hstarted heffect
  refine ⟨(entryOf checkpoint).item, ?_⟩
  rw [hterms, termsOf, hentries, if_pos hindex, hepoch, checkpointOf_unattached hstarted heffect,
    Option.map_some, entryOf, if_pos heffect.unattached]

include hstarted heffect in
/-- An attachment annotates the log. -/
theorem logOf_attached {log : PublicLog} (hlog : logOf chain before = some log) :
    logOf chain after =
      some (log.annotate (epoch.toNat - log.terms.startEpoch.toNat) receiptDigest) := by
  obtain ⟨hterms, hentries⟩ := (logOf_eq_some_iff hstarted).mp hlog
  obtain ⟨hindex, hepoch, hfirst⟩ := index_of_attached hstarted heffect
  refine (logOf_eq_some_iff (started_of_attached hstarted heffect)).mpr ⟨hterms, fun index ↦ ?_⟩
  rw [OpenLog.entries_annotate, hterms, termsOf, hentries, checkpointOf_attached hstarted heffect]
  by_cases hsame : index = epoch.toNat - config.startEpoch.toNat
  · rw [if_pos hsame, hsame, if_pos hindex, if_pos hindex, hepoch, if_pos rfl,
      checkpointOf_unattached hstarted heffect]
    simp only [Option.map_some, entryOf, if_neg heffect.received]
  · rw [if_neg hsame]
    by_cases hcounted : index < epochCount config
    · have hother : epochAt config index ≠ epoch := by
        intro hday
        have hposition := toNat_epochAt hcounted
        rw [hday] at hposition
        omega
      rw [if_pos hcounted, if_pos hcounted, if_neg hother]
    · rw [if_neg hcounted, if_neg hcounted]

end Attachment

/-! ### The simulation -/

variable {context : Context} {transaction : Transaction} {reached : Ledger}

/-- An `initialize` that succeeds is one on the day of the clock, with a height in its bounds. -/
theorem initializeLog_admits {accounts : InitializeAccounts} {authority : Pubkey}
    {treeHeight : UInt8} {startEpoch : UInt64}
    (hrun : initializeLog chain context accounts authority treeHeight startEpoch before =
      .ok after) : minTreeHeight ≤ treeHeight ∧ treeHeight ≤ maxTreeHeight ∧
        1 ≤ startEpoch.toNat ∧
          (startEpoch.toNat : ℤ) = context.clock.unixTimestamp.toInt / 86400 := by
  simp only [initializeLog, bind_unit_eq_ok_iff, okOr_bind_eq_ok_iff, require_eq_ok_iff] at hrun
  obtain ⟨-, -, derived, -, -, hrest⟩ := hrun
  obtain ⟨created, -, hbody⟩ := bind_eq_ok_iff.mp hrest
  simp only [bind_unit_eq_ok_iff, okOr_bind_eq_ok_iff, require_eq_ok_iff] at hbody
  obtain ⟨hheight, seconds, hseconds, hday, lastEpoch, hlast, -⟩ := hbody
  have hword := tryFromU64_eq_some_iff.mp hseconds
  have hfirst := checkedSub_eq_some_iff.mp hlast
  have hone : (1 : UInt64).toNat = 1 := rfl
  refine ⟨hheight.1, hheight.2, by omega, ?_⟩
  rw [hday, UInt64.toNat_div, ← hword]
  rfl

theorem attachAnchorReceipt_kind {accounts : AttachAccounts} {epoch : UInt64}
    {receiptDigest : Octets 32} {kind : UInt8}
    (hrun : attachAnchorReceipt chain context accounts epoch receiptDigest kind before =
      .ok after) : kind = anchorKindOpenTimestamps := by
  obtain ⟨config, -, hbody⟩ := bind_eq_ok_iff.mp hrun
  obtain ⟨checkpoint, -, hrest⟩ := bind_eq_ok_iff.mp hbody
  simp only [bind_unit_eq_ok_iff, require_eq_ok_iff] at hrest
  obtain ⟨-, -, -, -, -, hkind, -⟩ := hrest
  exact hkind

/-- A transaction that succeeds was permitted by the log, and does to it what it is for. -/
theorem logOf_of_execute (hsystem : chain.system.Documented) (hconsistent : Consistent chain before)
    (hrun : execute chain transaction before = .ok reached) :
    Permitted (logOf chain before) transaction ∧
      logOf chain reached = perform (logOf chain before) transaction := by
  obtain ⟨context, instruction⟩ := transaction
  cases instruction with
  | initializeLog accounts authority treeHeight startEpoch =>
    obtain ⟨address, lastEpoch, bump, heffect⟩ := initializeLog_writes hsystem hrun
    have hunstarted := unstarted_of_initialized heffect hconsistent
    rw [logOf_initialized hunstarted heffect, logOf_of_unstarted hunstarted]
    exact ⟨⟨rfl, initializeLog_admits hrun⟩, rfl⟩
  | publishCheckpoint accounts epoch root bump =>
    obtain ⟨config, hstarted, heffect⟩ := published_of_publishCheckpoint hsystem hconsistent hrun
    obtain ⟨log, hlog⟩ := exists_logOf hstarted
    have hterms := ((logOf_eq_some_iff hstarted).mp hlog).1
    have hlength := length_entries hstarted hlog
    have hnext := heffect.next
    have hcontiguous := hstarted.contiguous
    rw [logOf_published hstarted heffect hlog, hlog]
    refine ⟨⟨log, rfl, by rw [hterms]; exact heffect.signed, ?_, calendar_of_published heffect⟩,
      rfl⟩
    rw [hlength, hterms, epochCount]
    show epoch.toNat = config.startEpoch.toNat + _
    omega
  | attachAnchorReceipt accounts epoch receiptDigest kind =>
    obtain ⟨config, checkpoint, hstarted, heffect⟩ :=
      attached_of_attachAnchorReceipt hconsistent hrun
    obtain ⟨log, hlog⟩ := exists_logOf hstarted
    have hterms := ((logOf_eq_some_iff hstarted).mp hlog).1
    obtain ⟨item, hitem⟩ := entry_unattached hstarted heffect hlog
    rw [logOf_attached hstarted heffect hlog, hlog]
    refine ⟨⟨log, item, rfl, by rw [hterms]; exact heffect.signed, ?_, hitem, heffect.received,
      attachAnchorReceipt_kind hrun⟩, rfl⟩
    rw [hterms]
    exact (index_of_attached hstarted heffect).2.2
  | transfer source target lamports =>
    refine ⟨trivial, ?_⟩
    rw [logOf_congr (contentAt_transfer hsystem (invoke_eq_ok_iff.mp hrun))]
    cases logOf chain before <;> rfl

/-- A permitted transaction is at most one move of the log. -/
theorem step_of_permitted {log : Option PublicLog} (hpermitted : Permitted log transaction) :
    Relation.ReflGen Step log (perform log transaction) := by
  obtain ⟨context, instruction⟩ := transaction
  cases instruction with
  | initializeLog accounts authority treeHeight startEpoch =>
    obtain ⟨rfl, -⟩ := hpermitted
    exact .single (.opened _)
  | publishCheckpoint accounts epoch root bump =>
    obtain ⟨opened, rfl, -⟩ := hpermitted
    exact .single (.appended opened _)
  | attachAnchorReceipt accounts epoch receiptDigest kind =>
    obtain ⟨opened, item, rfl, -, -, hitem, -⟩ := hpermitted
    exact .single (.annotated opened receiptDigest hitem)
  | transfer source target lamports =>
    cases log <;> exact .refl

/-! ### Runs -/

/-- How a run of the program is a run of the log. -/
structure RunRefines (chain : Chain) (initial : Ledger) (transactions : List Transaction) :
    Prop where
  /-- The log is what the transactions that succeeded make of no log. -/
  folded : logOf chain (advanceAll chain initial transactions) =
    (accepted chain initial transactions).foldl perform none
  /-- Each of these was permitted by the log it met. -/
  permitted : ∀ earlier transaction later, transactions = earlier ++ transaction :: later →
    (∃ reached, execute chain transaction (advanceAll chain initial earlier) = .ok reached) →
      Permitted (logOf chain (advanceAll chain initial earlier)) transaction
  /-- Every transaction of the run is no move of the log or one. -/
  moves : ∀ earlier transaction later, transactions = earlier ++ transaction :: later →
    Relation.ReflGen Step (logOf chain (advanceAll chain initial earlier))
      (logOf chain (advanceAll chain initial (earlier ++ [transaction])))
  /-- Over every span of the run the log only grows. -/
  grows : ∀ earlier span later, transactions = earlier ++ (span ++ later) →
    Extends (logOf chain (advanceAll chain initial earlier))
      (logOf chain (advanceAll chain initial (earlier ++ span)))
  /-- In every state of the run, what can be read in the ledger for an epoch is what the log holds
  for it. -/
  held : ∀ earlier later, transactions = earlier ++ later → ∀ epoch entry,
    lookupEpoch (logOf chain (advanceAll chain initial earlier)) epoch = some entry ↔
      ∃ address checkpoint,
        readCheckpoint (advanceAll chain initial earlier) address = some checkpoint ∧
          checkpoint.epoch = epoch ∧ entryOf checkpoint = entry

theorem step_advance (hsystem : chain.system.Documented) (ledger : Ledger)
    (transaction : Transaction) (hconsistent : Consistent chain ledger) :
    Relation.ReflGen Step (logOf chain ledger)
      (logOf chain (advance chain ledger transaction)) := by
  unfold advance
  cases hrun : execute chain transaction ledger with
  | error error => exact .refl
  | ok reached =>
    obtain ⟨hpermitted, hlog⟩ := logOf_of_execute hsystem hconsistent hrun
    dsimp only
    rw [hlog]
    exact step_of_permitted hpermitted

theorem extends_advanceAll (hsystem : chain.system.Documented)
    (hconsistent : Consistent chain ledger) (transactions : List Transaction) :
    Extends (logOf chain ledger) (logOf chain (advanceAll chain ledger transactions)) :=
  @run_related _ _ _ _ (fun left right ↦ Extends (logOf chain left) (logOf chain right))
    (fun _ ↦ .refl _) (fun _ _ _ ↦ .trans)
    (fun ledger transaction ↦ consistent_advance hsystem ledger transaction)
    (fun ledger transaction hbefore ↦
      extends_of_steps (step_advance hsystem ledger transaction hbefore).to_reflTransGen) ledger
    hconsistent transactions

/-- The log of a run is the fold of the transactions that succeeded. -/
theorem logOf_advanceAll (hsystem : chain.system.Documented) (hconsistent : Consistent chain ledger)
    (transactions : List Transaction) : logOf chain (advanceAll chain ledger transactions) =
      (accepted chain ledger transactions).foldl perform (logOf chain ledger) := by
  induction transactions generalizing ledger with
  | nil => rfl
  | cons transaction rest ih =>
    have hafter := consistent_advance hsystem ledger transaction hconsistent
    have hstep : advanceAll chain ledger (transaction :: rest) =
        advanceAll chain (advance chain ledger transaction) rest := rfl
    rw [hstep, ih hafter, accepted]
    unfold advance
    cases hrun : execute chain transaction ledger with
    | error error => rfl
    | ok reached =>
      dsimp only
      rw [List.foldl_cons, (logOf_of_execute hsystem hconsistent hrun).2]

/-- An epoch that has an entry has one ever after. -/
theorem exists_lookupEpoch_of_extends {earlier later : Option PublicLog}
    (hextends : Extends earlier later)
    {epoch : UInt64} {entry : Entry Publication (Octets 32)}
    (hentry : lookupEpoch earlier epoch = some entry) :
    ∃ kept, lookupEpoch later epoch = some kept ∧ entry.Keeps kept := by
  obtain ⟨log, rfl, hlookup⟩ := Option.bind_eq_some_iff.mp hentry
  obtain ⟨reached, rfl, hterms, hentries⟩ := hextends log rfl
  split_ifs at hlookup with hfirst
  obtain ⟨kept, hkept, hkeeps⟩ := hentries _ entry hlookup
  exact ⟨kept, by rw [lookupEpoch, Option.bind_some, hterms, if_pos hfirst, hkept], hkeeps⟩

/-- Every run from a chain on which the program owns nothing is a run of the log. -/
theorem log_refined (chain : Chain) (hsystem : chain.system.Documented) (initial : Ledger)
    (hfresh : ∀ address, (initial address).owner ≠ programId)
    (transactions : List Transaction) : RunRefines chain initial transactions := by
  have hconsistent (earlier : List Transaction) :
      Consistent chain (advanceAll chain initial earlier) :=
    consistent_advanceAll hsystem hfresh earlier
  constructor
  · rw [logOf_advanceAll hsystem (.inl hfresh), logOf_of_unstarted hfresh]
  · rintro earlier transaction later - ⟨reached, hrun⟩
    exact (logOf_of_execute hsystem (hconsistent earlier) hrun).1
  · rintro earlier transaction later -
    rw [advanceAll_append]
    exact step_advance hsystem _ transaction (hconsistent earlier)
  · rintro earlier span later -
    rw [advanceAll_append]
    exact extends_advanceAll hsystem (hconsistent earlier) span
  · rintro earlier later - epoch entry
    exact lookupEpoch_logOf_eq_some_iff (hconsistent earlier)

/-- The log of one epoch. -/
theorem log_refined_oneEpoch : RunRefines plainChain fundedLedger oneEpoch ∧
    logOf plainChain (advanceAll plainChain fundedLedger oneEpoch) =
      some ⟨⟨operator, 10, 20000⟩, [⟨⟨operator, 5, 1728000000⟩, none⟩]⟩ :=
  ⟨log_refined plainChain referenceSystem_documented fundedLedger
    (fun _ ↦ programId_ne_systemProgramId.symm) oneEpoch, by decide +kernel⟩

end AnchoredLog.Program.LogRefinement
