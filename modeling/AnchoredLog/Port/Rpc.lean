import AnchoredLog.Port.Base58
import AnchoredLog.Port.ProgramAddresses
import AnchoredLog.Port.StoredAccounts
import AnchoredLog.Program.LogRefinement

/-!
# The port reads a root

`rpc.ts` reads one account at a time: the checkpoint of an epoch and, when there is no account, the
configuration, to say why there is none. Each read shows the chain as it was at some time, the
second not necessarily a later one. `verdict` is what the log at these two times says of the epoch,
and `port_reads_log` that it is what the port reports, with the fields of the log or with the
failure of that name.
-/

set_option autoImplicit false
set_option relaxedAutoImplicit false

namespace AnchoredLog.Port.Rpc

open Library.ByteCodec Library.Fallible Library.Interactions Library.WriteOnceLog
open Primitives JsonFields Base58 Accounts StoredAccounts
open Program.AccountLayouts Program.ChainRuntime Program.Checkpoint Program.LogInvariant
open Program.LogSafety Program.LogRefinement Program.Balances
open Program.Griefing hiding Ready
open ProgramAddresses hiding findProgramAddress createProgramAddress

/-! ### The port -/

/-- `DEVNET_PROGRAM_ID`. -/
def devnetProgramId : String :=
  "By5XeTsCS4Qf17U9EuGUTzEFz29wQdFFeqJtfhnFQkZB"

/-- `DEVNET_RPC_URL`. -/
def devnetRpcUrl : String :=
  "https://api.devnet.solana.com"

/-- The options of a read, apart from the function that posts. -/
structure RpcOptions where
  rpcUrl : Option String
  programId : Option String
  commitment : Option String
  logConfig : Option PortLogConfig

/-- The program's address in base58. -/
def RpcOptions.programIdText (options : RpcOptions) : String :=
  options.programId.getD devnetProgramId

/-- A `getAccountInfo` that is posted to an endpoint. -/
structure AccountQuery where
  url : String
  address : String
  commitment : String
deriving DecidableEq

/-- What posting came to: a rejection, or a response with its status and its body, which may not be
JSON. -/
inductive Posted
  | rejected (message : String)
  | answered (ok : Bool) (status : ℕ) (body : Except String Json)

/-- A program that posts such queries. -/
abbrev Reading (Output : Type) : Type :=
  Interaction AccountQuery (fun _ ↦ Posted) Output

/-- An account as the endpoint answered it. -/
structure FetchedAccount where
  data : List UInt8
  owner : Json

/-- Whether a value counts as true. -/
def isTruthy : Json → Bool
  | .null => false
  | .boolean value => value
  | .number (.finite value) => value ≠ 0
  | .number (.infinite _) => true
  | .string value => value ≠ ""
  | .array _ => true
  | .object _ => true

/-- The value is a text. -/
def isText (value : Json) (text : String) : Bool :=
  match value with
  | .string found => found == text
  | _ => false

/-- A `RootUnavailable` failure. -/
def rootUnavailable (detail : String) : Exception :=
  .thrown (.packageFailure .RootUnavailable detail)

section Texts

variable (stringify : Option Json → String) (display : Json → String)

/-- The message of an error in a response. -/
def errorMessage (error : Json) : String :=
  match error.get "message" with
  | none => "unknown"
  | some .null => "unknown"
  | some message => display message

/-- The account in the value of a response. -/
def readValue (value : Json) : Fetching FetchedAccount :=
  match value.get "data" with
  | some (.array (text :: .string "base64" :: _)) =>
    match text with
    | .string text => do
      let data ← lifted (base64Decode stringify text)
      return ⟨data, match value.get "owner" with
        | none => .string ""
        | some .null => .string ""
        | some owner => owner⟩
    | _ => throw (.thrown (.typeError "base64: not a string"))
  | _ => throw (rootUnavailable
      "RPC returned an account in an encoding this verifier did not ask for")

/-- The account in the body of a response. -/
def readBody (body : Json) : Fetching (Option FetchedAccount) :=
  match body with
  | .null => throw (.thrown (.typeError "Cannot read properties of null (reading 'error')"))
  | body => do
    let error := (body.get "error").getD .null
    require (¬ isTruthy error) (rootUnavailable ("RPC error: " ++ errorMessage display error))
    match (body.get "result").bind fun result ↦ result.get "value" with
    | none => return none
    | some .null => return none
    | some value => do
      let account ← readValue stringify value
      return some account

/-- The account in what posting came to. -/
def readPosted : Posted → Fetching (Option FetchedAccount)
  | .rejected message => throw (.error message)
  | .answered false status _ => throw (rootUnavailable ("RPC returned HTTP " ++ toString status))
  | .answered true _ (.error message) => throw (.error message)
  | .answered true _ (.ok body) => readBody stringify display body

/-- The query for one account. -/
def queryFor (address : Pubkey) (options : RpcOptions) : AccountQuery :=
  ⟨options.rpcUrl.getD devnetRpcUrl, base58Encode address.octets,
    options.commitment.getD "confirmed"⟩

/-- Asks for one account. -/
def getAccountInfo (address : Pubkey) (options : RpcOptions) :
    Reading (Fetching (Option FetchedAccount)) := do
  let posted ← request (queryFor address options)
  pure (readPosted stringify display posted)

def programIdBytes (options : RpcOptions) : Fetching (List UInt8) :=
  lifted (base58Decode stringify options.programIdText)

variable (sha256 : List UInt8 → Octets 32) (isOnCurve : Octets 32 → Bool)

/-- The configuration in the account at its address. -/
def configIn (options : RpcOptions) : Option FetchedAccount → Fetching PortLogConfig
  | none => throw (rootUnavailable "no LogConfig account at the derived address")
  | some account => do
    require (isText account.owner options.programIdText)
      (rootUnavailable ("LogConfig is owned by " ++ display account.owner))
    lifted (decodeLogConfig sha256 account.data)

/-- Reads the configuration of the log. -/
def fetchLogConfig (options : RpcOptions) : Reading (Fetching PortLogConfig) :=
  match (do
    let programId ← programIdBytes stringify options
    deriveLogConfigAddress sha256 isOnCurve programId) with
  | .error thrown => pure (.error thrown)
  | .ok derived => do
    let answer ← getAccountInfo stringify display derived.1 options
    pure (answer >>= configIn display sha256 options)

/-- Where an epoch falls against the log's own life. -/
inductive EpochPlacement
  | beforeLogStart (startEpoch : ℤ)
  | insidePublishedRange (startEpoch lastEpoch : ℤ)
  | notYetPublished (lastEpoch : ℤ)
deriving DecidableEq

def placeEpoch (config : PortLogConfig) (epoch : ℤ) : EpochPlacement :=
  if epoch < config.startEpoch then .beforeLogStart config.startEpoch
  else if epoch ≤ config.lastEpoch then
    .insidePublishedRange config.startEpoch config.lastEpoch
  else .notYetPublished config.lastEpoch

/-- The failure an absent account is reported with. -/
def placementFailure (epoch : ℤ) : EpochPlacement → Exception
  | .beforeLogStart startEpoch => .thrown (.packageFailure .EpochBeforeLogStart
      ("epoch " ++ toString epoch ++ " precedes the log's start_epoch " ++ toString startEpoch ++
        ": a day the log did not exist for, not a gap"))
  | .insidePublishedRange startEpoch lastEpoch => .thrown (.packageFailure .InconsistentChainView
      ("epoch " ++ toString epoch ++ " lies inside the published sequence " ++
        toString startEpoch ++ ".." ++ toString lastEpoch ++ ", which runs unbroken, " ++
        "so an absent account means these answers did not come from one view of the chain"))
  | .notYetPublished lastEpoch => .thrown (.packageFailure .CheckpointNotYetPublished
      ("the sequence has reached epoch " ++ toString lastEpoch ++ "; epoch " ++ toString epoch ++
        " has not been published. Lag is measured against a day index the caller supplies, " ++
        "with lagAgainst"))

/-- The failure an absent account is reported with, from what reading the configuration came to. -/
def missingFailure (epoch : ℤ) : Fetching PortLogConfig → Exception
  | .error thrown => rootUnavailable ("no checkpoint account for epoch " ++ toString epoch ++
      ", and the log's configuration could not be read either: " ++ thrown.message)
  | .ok config => placementFailure epoch (placeEpoch config epoch)

/-- Names the reason a checkpoint account is absent. -/
def refuseMissingCheckpoint (epoch : ℤ) (options : RpcOptions) :
    Reading (Fetching PortCheckpoint) := do
  let config ← (match options.logConfig with
    | some config => pure (.ok config)
    | none => fetchLogConfig stringify display sha256 isOnCurve options)
  pure (.error (missingFailure epoch config))

/-- The checkpoint of an epoch in the account at its address. -/
def checkpointIn (epoch : ℤ) (options : RpcOptions) (account : FetchedAccount) :
    Fetching PortCheckpoint := do
  require (isText account.owner options.programIdText) (rootUnavailable
    ("checkpoint account is owned by " ++ display account.owner ++ ", not the program"))
  let checkpoint ← lifted (decodeCheckpointAccount sha256 account.data)
  require (checkpoint.epoch = epoch) (.thrown (.packageFailure .RootEpochMismatch
    ("account at the epoch-" ++ toString epoch ++ " address carries epoch " ++
      toString checkpoint.epoch)))
  return checkpoint

/-- Reads the checkpoint of an epoch. -/
def fetchCheckpoint (epoch : ℤ) (options : RpcOptions) : Reading (Fetching PortCheckpoint) :=
  match (do
    let programId ← programIdBytes stringify options
    deriveCheckpointAddress sha256 isOnCurve programId epoch) with
  | .error thrown => pure (.error thrown)
  | .ok derived => do
    match ← getAccountInfo stringify display derived.1 options with
    | .error thrown => pure (.error thrown)
    | .ok none => refuseMissingCheckpoint stringify display sha256 isOnCurve epoch options
    | .ok (some account) => pure (checkpointIn display sha256 epoch options account)

/-- An epoch's root. -/
structure EpochRoot where
  epoch : ℤ
  root : List UInt8

/-- Reads the root of an epoch. -/
def fetchRoot (epoch : ℤ) (options : RpcOptions) : Reading (Fetching EpochRoot) := do
  let answer ← fetchCheckpoint stringify display sha256 isOnCurve epoch options
  pure (answer.map fun checkpoint ↦ ⟨checkpoint.epoch, checkpoint.root⟩)

end Texts

/-! ### An endpoint that shows the chain -/

/-- The body of a response that holds an account: no error, and no value for an account without
lamports. -/
structure HoldsAccount (account : Account) (body : Json) : Prop where
  noError : body.get "error" = none
  absent : account.lamports = 0 →
    ∃ result, body.get "result" = some result ∧ result.get "value" = some .null
  present : account.lamports ≠ 0 → ∃ result value, body.get "result" = some result ∧
    result.get "value" = some value ∧
      value.get "data" = some (.array [.string (base64Encode account.data), .string "base64"]) ∧
        value.get "owner" = some (.string (base58Encode account.owner.octets))

/-- The endpoint answers with the account a ledger holds at the address it is asked about. -/
def Shows (ledger : Ledger) (query : AccountQuery) (posted : Posted) : Prop :=
  ∀ address : Pubkey, query.address = base58Encode address.octets →
    ∃ status body, posted = .answered true status (.ok body) ∧ HoldsAccount (ledger address) body

theorem base58Encode_programId : base58Encode programId.octets = devnetProgramId := by
  decide +kernel

theorem octets_ne_nil (address : Pubkey) : address.octets ≠ [] := by
  intro hempty
  have hlength := address.length_octets
  rw [hempty] at hlength
  cases hlength

theorem base58Encode_injective {left right : Pubkey}
    (hsame : base58Encode left.octets = base58Encode right.octets) : left = right := by
  have hdecode : base58Decode (fun _ ↦ "") (base58Encode left.octets) = .ok left.octets :=
    base58Decode_base58Encode (octets_ne_nil left)
  rw [hsame, base58Decode_base58Encode (octets_ne_nil right), Except.ok.injEq] at hdecode
  exact Octets.ext hdecode.symm

variable {stringify : Option Json → String} {display : Json → String}
  {sha256 : List UInt8 → Octets 32} {isOnCurve : Octets 32 → Bool} {options : RpcOptions}
  {ledger : Ledger} {chain : Chain} {address : Pubkey} {epoch : UInt64}

/-- The account of a ledger as the port reads it. -/
def shown (ledger : Ledger) (address : Pubkey) : Option FetchedAccount :=
  if (ledger address).lamports = 0 then none
  else some ⟨(ledger address).data, .string (base58Encode (ledger address).owner.octets)⟩

/-- What the port reads of an account that is shown. -/
theorem readPosted_of_shows {posted : Posted}
    (hshows : Shows ledger (queryFor address options) posted) :
    readPosted stringify display posted = .ok (shown ledger address) := by
  obtain ⟨status, body, rfl, hholds⟩ := hshows address rfl
  unfold shown
  have hobject {result : Json} (hresult : body.get "result" = some result) :
      readBody stringify display body =
        match result.get "value" with
        | none => .ok none
        | some .null => .ok none
        | some value => readValue stringify value >>= fun account ↦ .ok (some account) := by
    cases body with
    | null => cases hresult
    | boolean value => cases hresult
    | number value => cases hresult
    | string value => cases hresult
    | array elements => cases hresult
    | object fields =>
      simp only [readBody, hholds.noError, hresult]
      rfl
  by_cases hlamports : (ledger address).lamports = 0
  · obtain ⟨result, hresult, hvalue⟩ := hholds.absent hlamports
    rw [if_pos hlamports, readPosted, hobject hresult, hvalue]
  · obtain ⟨result, value, hresult, hvalue, hdata, howner⟩ := hholds.present hlamports
    rw [if_neg hlamports, readPosted, hobject hresult, hvalue]
    cases value with
    | null => cases hdata
    | boolean value => cases hdata
    | number value => cases hdata
    | string value => cases hdata
    | array elements => cases hdata
    | object fields =>
      simp only [readValue, hdata, howner, base64Decode_base64Encode]
      rfl

theorem isText_owner {owner : Pubkey} (hprogram : options.programIdText = devnetProgramId) :
    isText (.string (base58Encode owner.octets)) options.programIdText = true ↔
      owner = programId := by
  rw [isText, beq_iff_eq, hprogram, ← base58Encode_programId]
  exact ⟨base58Encode_injective, fun hsame ↦ by rw [hsame]⟩

theorem programIdBytes_eq (hprogram : options.programIdText = devnetProgramId) :
    programIdBytes stringify options = .ok programId.octets := by
  rw [programIdBytes, hprogram, ← base58Encode_programId,
    base58Decode_base58Encode (octets_ne_nil programId)]
  rfl

theorem shown_of_owner (hpaid : RentPaid ledger) (howner : (ledger address).owner = programId) :
    shown ledger address =
      some ⟨(ledger address).data, .string (base58Encode programId.octets)⟩ := by
  rw [shown, if_neg (hpaid address howner), howner]

/-- The configuration of a started log is read. -/
theorem configIn_of_started (hsha : Discriminators sha256)
    (hprogram : options.programIdText = devnetProgramId) (hpaid : RentPaid ledger)
    {config : LogConfig} (hschema : config.schemaVersion = schemaVersion)
    (hstarted : Started chain ledger address config) :
    configIn display sha256 options (shown ledger address) = .ok (portConfig config) := by
  have howner : (ledger address).owner = programId := congrArg Prod.fst hstarted.stored
  have hdata : (ledger address).data = config.octets := congrArg Prod.snd hstarted.stored
  rw [shown_of_owner hpaid howner, configIn, require_of_true ((isText_owner hprogram).mpr rfl),
    hdata, decodeLogConfig_octets hsha hschema]
  rfl

/-- Nothing is read where the program owns nothing. -/
theorem configIn_of_unstarted (hprogram : options.programIdText = devnetProgramId)
    (hunstarted : Unstarted ledger) :
    ∃ thrown, configIn display sha256 options (shown ledger address) = .error thrown := by
  unfold shown
  split_ifs with hlamports
  · exact ⟨_, rfl⟩
  · have howner : ¬ isText (.string (base58Encode (ledger address).owner.octets))
        options.programIdText := fun htext ↦ hunstarted address ((isText_owner hprogram).mp htext)
    exact ⟨_, by rw [configIn, require_of_false howner]; rfl⟩

/-- An account of the program at the address of an epoch holds the checkpoint of that epoch. -/
theorem exists_checkpoint_of_owner (hstored : Stored chain ledger) (hseparated : Separated chain)
    {bump : UInt8}
    (hderived : chain.createProgramAddress (checkpointSeeds epoch bump) programId = some address)
    (howner : (ledger address).owner = programId) :
    ∃ checkpoint, readCheckpoint ledger address = some checkpoint ∧
      (ledger address).data = checkpoint.octets ∧ checkpoint.epoch = epoch := by
  rcases hstored.consistent with hunstarted | ⟨place, config, hstarted⟩
  · exact absurd howner (hunstarted address)
  · have haway : address ≠ place := by
      rintro rfl
      exact hseparated.config _ epoch bump _
        (createProgramAddress_of_findProgramAddress hstarted.derived) hderived
    obtain ⟨checkpoint, hcontent, hplaced⟩ := hstarted.owned address haway howner
    exact ⟨checkpoint, readCheckpoint_of_content hcontent, congrArg Prod.snd hcontent,
      hseparated.checkpoint _ _ _ _ _ hplaced.derived hderived⟩

/-- The checkpoint of an epoch is read. -/
theorem checkpointIn_of_read (hsha : Discriminators sha256)
    (hprogram : options.programIdText = devnetProgramId) {checkpoint : CheckpointAccount}
    (hschema : checkpoint.schemaVersion = schemaVersion) (hepoch : checkpoint.epoch = epoch) :
    checkpointIn display sha256 epoch.toNat options
      ⟨checkpoint.octets, .string (base58Encode programId.octets)⟩ =
        .ok (portCheckpoint checkpoint) := by
  have hsame : (portCheckpoint checkpoint).epoch = epoch.toNat := by
    rw [← hepoch]
    rfl
  rw [checkpointIn, require_of_true ((isText_owner hprogram).mpr rfl),
    decodeCheckpointAccount_octets hsha hschema]
  simp only [lifted, Except.mapError, bind_ok, require_of_true hsame]
  rfl

/-- An account of another owner is refused. -/
theorem checkpointIn_of_owner (hprogram : options.programIdText = devnetProgramId)
    {data : List UInt8} {owner : Pubkey} (howner : owner ≠ programId) :
    ∃ detail, checkpointIn display sha256 epoch.toNat options
      ⟨data, .string (base58Encode owner.octets)⟩ = .error (rootUnavailable detail) := by
  have htext : ¬ isText (.string (base58Encode owner.octets)) options.programIdText :=
    fun htext ↦ howner ((isText_owner hprogram).mp htext)
  exact ⟨_, by rw [checkpointIn, require_of_false htext]; rfl⟩

section Requests

variable {answers : ℕ → AccountQuery → Posted} {made : ℕ}

/-- The configuration is read with one query. -/
theorem conduct_fetchLogConfig (hderives : Derives sha256 isOnCurve chain)
    (hprogram : options.programIdText = devnetProgramId) {bump : UInt8}
    (hfound : Program.ChainRuntime.findProgramAddress chain [LogConfig.seed] =
      some (address, bump))
    (hshows : ∀ query, Shows ledger query (answers made query)) :
    conduct answers made (fetchLogConfig stringify display sha256 isOnCurve options) =
      ([queryFor address options], configIn display sha256 options (shown ledger address)) := by
  rw [fetchLogConfig, programIdBytes_eq hprogram, bind_ok, deriveLogConfigAddress_eq hderives
    hfound]
  simp only [getAccountInfo, request_bind, ask_bind, pure_eq_done, done_bind, conduct_ask,
    conduct_done, readPosted_of_shows (hshows _), bind_ok]

/-- The checkpoint is read with one query, and the configuration with another where there is no
account. -/
theorem conduct_fetchCheckpoint (hderives : Derives sha256 isOnCurve chain)
    (hprogram : options.programIdText = devnetProgramId) {bump : UInt8}
    (hfound : Program.ChainRuntime.findProgramAddress chain
      [CheckpointAccount.seed, leList 8 epoch.toNat] = some (address, bump))
    (hshows : ∀ query, Shows ledger query (answers 0 query)) :
    conduct answers 0 (fetchCheckpoint stringify display sha256 isOnCurve epoch.toNat options) =
      match shown ledger address with
      | none =>
        let missing := conduct answers 1
          (refuseMissingCheckpoint stringify display sha256 isOnCurve epoch.toNat options)
        (queryFor address options :: missing.1, missing.2)
      | some account =>
        ([queryFor address options], checkpointIn display sha256 epoch.toNat options account) := by
  rw [fetchCheckpoint, programIdBytes_eq hprogram, bind_ok, deriveCheckpointAddress_eq hderives
    hfound]
  simp only [getAccountInfo, request_bind, ask_bind, pure_eq_done, done_bind, conduct_ask,
    readPosted_of_shows (hshows _)]
  cases shown ledger address with
  | none => rfl
  | some account => rfl

end Requests

/-! ### What the log says of an epoch -/

/-- What is said of an epoch: the entry its account holds, and otherwise, when its address is not
occupied, where it falls against the first and the last epoch of the log. -/
def verdict (held : Option (Entry Publication (Octets 32))) (occupied : Bool)
    (bounds : Option (ℤ × ℤ)) (epoch : ℤ) :
    Except PackageFailureName (Entry Publication (Octets 32)) :=
  match held with
  | some entry => .ok entry
  | none =>
    if occupied then .error .RootUnavailable
    else
      match bounds with
      | none => .error .RootUnavailable
      | some (first, last) =>
        if epoch < first then .error .EpochBeforeLogStart
        else if epoch ≤ last then .error .InconsistentChainView
        else .error .CheckpointNotYetPublished

/-- The first and the last epoch of a log. -/
def boundsOf (log : Option PublicLog) : Option (ℤ × ℤ) :=
  log.map fun opened ↦ (opened.terms.startEpoch.toNat,
    opened.terms.startEpoch.toNat + opened.entries.length - 1)

/-- A checkpoint the port returns carries the fields of an entry. -/
structure SameEntry (epoch : ℤ) (entry : Entry Publication (Octets 32)) (found : PortCheckpoint) :
    Prop where
  epoch : found.epoch = epoch
  root : found.root = entry.item.root.octets
  slot : found.publishedSlot = entry.item.slot.toNat
  unixTimestamp : found.publishedUnix = entry.item.unixTimestamp.toInt
  single : anchorStatus found = .single ↔ entry.note = none
  receipt : ∀ digest, entry.note = some digest → found.receiptDigest = digest.octets

/-- The port reports what is said: the entry, or the failure of that name. -/
def Reports (epoch : ℤ) (result : Fetching PortCheckpoint) :
    Except PackageFailureName (Entry Publication (Octets 32)) → Prop
  | .ok entry => ∃ found, result = .ok found ∧ SameEntry epoch entry found
  | .error name => ∃ detail, result = .error (.thrown (.packageFailure name detail))

theorem sameEntry_portCheckpoint (checkpoint : CheckpointAccount) :
    SameEntry checkpoint.epoch.toNat (entryOf checkpoint) (portCheckpoint checkpoint) where
  epoch := rfl
  root := rfl
  slot := rfl
  unixTimestamp := rfl
  single := by
    rw [anchorStatus_portCheckpoint, entryOf]
    split_ifs
    · exact iff_of_true rfl rfl
    · exact iff_of_false (by decide) (by simp)
  receipt := by
    intro digest hdigest
    simp only [entryOf] at hdigest
    split_ifs at hdigest
    rw [← Option.some.inj hdigest]
    rfl

/-- The bounds of the log are those of its configuration. -/
theorem boundsOf_logOf {config : LogConfig} (hstarted : Started chain ledger address config) :
    boundsOf (logOf chain ledger) =
      some ((config.startEpoch.toNat : ℤ), (config.lastEpoch.toNat : ℤ)) := by
  obtain ⟨log, hlog⟩ := exists_logOf hstarted
  have hterms := ((logOf_eq_some_iff hstarted).mp hlog).1
  have hlength := length_entries hstarted hlog
  have hcontiguous := hstarted.contiguous
  rw [hlog, boundsOf, Option.map_some, hterms, hlength, termsOf, epochCount, Option.some.injEq,
    Prod.mk.injEq]
  refine ⟨rfl, ?_⟩
  show ((config.startEpoch.toNat : ℤ) + _ - 1) = _
  omega

/-- Why an account is missing is reported from the bounds that were read. -/
theorem reports_missingFailure (epoch : ℤ) (config : Fetching PortLogConfig) :
    Reports epoch (.error (missingFailure epoch config)) (verdict none false
      (config.toOption.map fun found ↦ (found.startEpoch, found.lastEpoch)) epoch) := by
  cases config with
  | error thrown => exact ⟨_, rfl⟩
  | ok config =>
    simp only [Except.toOption, Option.map_some, verdict, missingFailure, placeEpoch,
      Bool.false_eq_true, if_false]
    split_ifs
    · exact ⟨_, rfl⟩
    · exact ⟨_, rfl⟩
    · exact ⟨_, rfl⟩

/-- The bounds the port reads from a ledger of a run are those of the log. -/
theorem bounds_of_configIn (display : Json → String) (hsha : Discriminators sha256)
    (hprogram : options.programIdText = devnetProgramId) (hstored : Stored chain ledger)
    (hpaid : RentPaid ledger) {bump : UInt8}
    (hfound : Program.ChainRuntime.findProgramAddress chain [LogConfig.seed] =
      some (address, bump)) :
    (configIn display sha256 options (shown ledger address)).toOption.map
      (fun found ↦ (found.startEpoch, found.lastEpoch)) = boundsOf (logOf chain ledger) := by
  rcases hstored.consistent with hunstarted | ⟨place, config, hstarted⟩
  · obtain ⟨thrown, hthrown⟩ : ∃ thrown,
        configIn display sha256 options (shown ledger address) = .error thrown :=
      configIn_of_unstarted hprogram hunstarted
    rw [hthrown, logOf_of_unstarted hunstarted]
    rfl
  · have hplace := hstarted.derived
    rw [hfound, Option.some.injEq, Prod.mk.injEq] at hplace
    rw [← hplace.1] at hstarted
    have hschema := hstored.configs _ _ (readConfig_of_content hstarted.stored)
    rw [configIn_of_started hsha hprogram hpaid hschema hstarted, boundsOf_logOf hstarted]
    rfl

/-! ### Publications at the canonical address -/

/-- A publication names the address the client derives for its epoch. -/
def PublishesCanonically (chain : Chain) (transaction : Transaction) : Prop :=
  ∀ accounts epoch root bump,
    transaction.instruction = .publishCheckpoint accounts epoch root bump →
      ∃ canonical, Program.ChainRuntime.findProgramAddress chain
        [CheckpointAccount.seed, leList 8 epoch.toNat] = some (accounts.checkpoint, canonical)

/-- Every checkpoint is at the address the client derives for its epoch. -/
def Canonical (chain : Chain) (ledger : Ledger) : Prop :=
  ∀ other checkpoint, readCheckpoint ledger other = some checkpoint →
    ∃ canonical, Program.ChainRuntime.findProgramAddress chain
      [CheckpointAccount.seed, leList 8 checkpoint.epoch.toNat] = some (other, canonical)

theorem canonical_advance (hsystem : chain.system.Documented)
    (hconsistent : Consistent chain ledger) (hcanonical : Canonical chain ledger)
    {transaction : Transaction} (hpublishes : PublishesCanonically chain transaction) :
    Canonical chain (advance chain ledger transaction) := by
  unfold advance
  cases hrun : execute chain transaction ledger with
  | error error => exact hcanonical
  | ok reached =>
    intro other checkpoint hread
    obtain ⟨context, instruction⟩ := transaction
    cases instruction with
    | initializeLog accounts authority treeHeight startEpoch =>
      obtain ⟨address, config, heffect⟩ := initializeLog_effect hsystem hrun
      have hstarted := started_of_initialized (unstarted_of_initialized heffect hconsistent) heffect
      have haway := (hstarted.stored_of_readCheckpoint hread).1
      have hsame : contentAt reached other = contentAt ledger other := by
        rw [heffect.effect, if_neg haway]
      rw [readCheckpoint_congr hsame] at hread
      exact hcanonical other checkpoint hread
    | publishCheckpoint accounts epoch root bump =>
      obtain ⟨config, hstarted, heffect⟩ := published_of_publishCheckpoint hsystem hconsistent hrun
      rcases (readCheckpoint_published hstarted heffect).mp hread with ⟨rfl, rfl⟩ | hbefore
      · exact hpublishes accounts epoch root bump rfl
      · exact hcanonical other checkpoint hbefore
    | attachAnchorReceipt accounts epoch receiptDigest kind =>
      obtain ⟨config, found, hstarted, heffect⟩ := attached_of_attachAnchorReceipt hconsistent hrun
      obtain ⟨earlier, hearlier, hepoch⟩ := readCheckpoint_attached heffect hread
      rw [← hepoch]
      exact hcanonical other earlier hearlier
    | transfer source target lamports =>
      refine hcanonical other checkpoint ?_
      rwa [readCheckpoint_congr
        (contentAt_transfer hsystem (invoke_eq_ok_iff.mp hrun) other)] at hread

theorem canonical_advanceAll (hsystem : chain.system.Documented)
    (hconsistent : Consistent chain ledger) (hcanonical : Canonical chain ledger)
    {transactions : List Transaction}
    (hpublishes : ∀ transaction ∈ transactions, PublishesCanonically chain transaction) :
    Canonical chain (advanceAll chain ledger transactions) := by
  induction transactions generalizing ledger with
  | nil => exact hcanonical
  | cons transaction rest ih =>
    rw [List.forall_mem_cons] at hpublishes
    exact ih (consistent_advance hsystem ledger transaction hconsistent)
      (canonical_advance hsystem hconsistent hcanonical hpublishes.1) hpublishes.2

/-- Where the checkpoints are at their canonical addresses, an epoch's address holds its entry. -/
theorem held_eq_lookupEpoch (hconsistent : Consistent chain ledger)
    (hcanonical : Canonical chain ledger)
    {bump : UInt8} (hfound : Program.ChainRuntime.findProgramAddress chain
      [CheckpointAccount.seed, leList 8 epoch.toNat] = some (address, bump))
    (hheld : ∀ checkpoint, readCheckpoint ledger address = some checkpoint →
      checkpoint.epoch = epoch) :
    (readCheckpoint ledger address).map entryOf = lookupEpoch (logOf chain ledger) epoch := by
  rw [lookupEpoch_logOf hconsistent]
  congr 1
  rcases hconsistent with hunstarted | ⟨place, config, hstarted⟩
  · rw [hunstarted.readCheckpoint_eq_none, checkpointOf, eq_comm, List.findSome?_eq_none_iff]
    intro bump _
    simp [hunstarted.readCheckpoint_eq_none]
  · ext checkpoint
    rw [checkpointOf_eq_some_iff hstarted]
    constructor
    · exact fun hread ↦ ⟨address, hread, hheld checkpoint hread⟩
    · rintro ⟨other, hread, rfl⟩
      obtain ⟨canonical, hother⟩ := hcanonical other checkpoint hread
      rw [hfound, Option.some.injEq, Prod.mk.injEq] at hother
      rwa [← hother.1] at hread

/-! ### The port against a run -/

/-- The bounds an absent account is judged by: those the caller supplied or those of the log. -/
def judgingBounds (options : RpcOptions) (log : Option PublicLog) : Option (ℤ × ℤ) :=
  match options.logConfig with
  | some config => some (config.startEpoch, config.lastEpoch)
  | none => boundsOf log

/-- How a read of the port answers to the log, at the view its first and its second query are
answered from. -/
structure ReadsLog (chain : Chain) (address : Pubkey) (first second : Ledger) (epoch : UInt64)
    (options : RpcOptions) (result : Fetching PortCheckpoint) : Prop where
  /-- What is reported is the verdict of the two views. -/
  reports : Reports epoch.toNat result
    (verdict ((readCheckpoint first address).map entryOf) ((first address).lamports ≠ 0)
      (judgingBounds options (logOf chain second)) epoch.toNat)
  /-- An entry that is reported is one of the log. -/
  sound : ∀ entry, (readCheckpoint first address).map entryOf = some entry →
    lookupEpoch (logOf chain first) epoch = some entry
  /-- Where every publication was at its canonical address, every entry is reported. -/
  complete : Canonical chain first →
    (readCheckpoint first address).map entryOf = lookupEpoch (logOf chain first) epoch

section Views

variable {first second : Ledger}

/-- A read of the port reports the log at its two views. -/
theorem readsLog_of_stored (stringify : Option Json → String) (display : Json → String)
    (hsha : Discriminators sha256)
    (hderives : Derives sha256 isOnCurve chain) (hseparated : Separated chain)
    (hprogram : options.programIdText = devnetProgramId)
    (hfirst : Stored chain first) (hsecond : Stored chain second) (hpaid : RentPaid first)
    (hpaidSecond : RentPaid second) {bump configBump : UInt8} {configAddress : Pubkey}
    (hepoch : Program.ChainRuntime.findProgramAddress chain
      [CheckpointAccount.seed, leList 8 epoch.toNat] = some (address, bump))
    (hconfig : Program.ChainRuntime.findProgramAddress chain [LogConfig.seed] =
      some (configAddress, configBump))
    {answers : ℕ → AccountQuery → Posted} (hshows : ∀ query, Shows first query (answers 0 query))
    (hagain : ∀ query, Shows second query (answers 1 query)) :
    ReadsLog chain address first second epoch options
      (conduct answers 0
        (fetchCheckpoint stringify display sha256 isOnCurve epoch.toNat options)).2 := by
  have hderived := createProgramAddress_of_findProgramAddress hepoch
  have hheld : ∀ checkpoint, readCheckpoint first address = some checkpoint →
      checkpoint.epoch = epoch := by
    intro checkpoint hread
    obtain ⟨found, hfound, -, hsame⟩ := exists_checkpoint_of_owner hfirst hseparated hderived
      (owner_of_readCheckpoint hread)
    rw [hfound, Option.some.injEq] at hread
    rwa [← hread]
  refine ⟨?_, fun entry hentry ↦ ?_,
    fun hcanonical ↦ held_eq_lookupEpoch hfirst.consistent hcanonical hepoch hheld⟩
  · rw [conduct_fetchCheckpoint hderives hprogram hepoch hshows]
    by_cases howner : (first address).owner = programId
    · obtain ⟨checkpoint, hread, hdata, hsame⟩ :=
        exists_checkpoint_of_owner hfirst hseparated hderived howner
      rw [shown_of_owner hpaid howner, hread, hdata]
      refine ⟨portCheckpoint checkpoint,
        checkpointIn_of_read hsha hprogram (hfirst.checkpoints _ _ hread) hsame, ?_⟩
      rw [← hsame]
      exact sameEntry_portCheckpoint checkpoint
    · have hnone : readCheckpoint first address = none := by
        rw [Option.eq_none_iff_forall_ne_some]
        exact fun checkpoint hread ↦ howner (owner_of_readCheckpoint hread)
      rw [hnone, Option.map_none]
      by_cases hlamports : (first address).lamports = 0
      · rw [shown, if_pos hlamports]
        have hvacant : decide ((first address).lamports ≠ 0) = false := by simpa using hlamports
        rw [hvacant]
        cases hsupplied : options.logConfig with
        | some config =>
          simp only [refuseMissingCheckpoint, judgingBounds, hsupplied, pure_eq_done, done_bind,
            conduct_done]
          exact reports_missingFailure epoch.toNat (.ok config)
        | none =>
          have hbounds := bounds_of_configIn display hsha hprogram hsecond hpaidSecond hconfig
          simp only [refuseMissingCheckpoint, judgingBounds, hsupplied, ← hbounds, pure_eq_done]
          rw [conduct_bind_done 1 _ (fun _ ↦ rfl),
            conduct_fetchLogConfig hderives hprogram hconfig hagain]
          exact reports_missingFailure epoch.toNat _
      · rw [shown, if_neg hlamports]
        have hoccupied : decide ((first address).lamports ≠ 0) = true := by simpa using hlamports
        rw [hoccupied]
        exact checkpointIn_of_owner hprogram howner
  · obtain ⟨checkpoint, hread, rfl⟩ := Option.map_eq_some_iff.mp hentry
    rw [lookupEpoch_logOf hfirst.consistent]
    rcases hfirst.consistent with hunstarted | ⟨place, config, hstarted⟩
    · rw [hunstarted.readCheckpoint_eq_none] at hread
      cases hread
    · rw [(checkpointOf_eq_some_iff hstarted).mpr ⟨address, hread, hheld checkpoint hread⟩]
      rfl

end Views

/-- How every read of the port answers to a run, the views of its queries anywhere in it. -/
structure PortReads (chain : Chain) (initial : Ledger) (transactions : List Transaction)
    (seen : ℕ → ℕ) (address : Pubkey) (epoch : UInt64) (options : RpcOptions)
    (result : Fetching PortCheckpoint) : Prop where
  readsLog : ReadsLog chain address (advanceAll chain initial (transactions.take (seen 0)))
    (advanceAll chain initial (transactions.take (seen 1))) epoch options result
  /-- Where every publication is at its canonical address, an epoch of the log is reported. -/
  complete : (∀ transaction ∈ transactions, PublishesCanonically chain transaction) →
    ∀ entry,
      lookupEpoch (logOf chain (advanceAll chain initial (transactions.take (seen 0)))) epoch =
      some entry → ∃ found, result = .ok found ∧ SameEntry epoch.toNat entry found
  /-- An inconsistency is then reported only where the second view is the later one. -/
  inconsistent : (∀ transaction ∈ transactions, PublishesCanonically chain transaction) →
    options.logConfig = none →
      (∃ detail, result = .error (.thrown (.packageFailure .InconsistentChainView detail))) →
        seen 0 < seen 1

/-- What is reported determines the failure that was said. -/
theorem verdict_of_reports {name : PackageFailureName} {detail : String} {epoch : ℤ}
    {expected : Except PackageFailureName (Entry Publication (Octets 32))}
    (hreports : Reports epoch (.error (.thrown (.packageFailure name detail))) expected) :
    expected = .error name := by
  cases expected with
  | ok entry =>
    obtain ⟨found, hfound, -⟩ := hreports
    cases hfound
  | error other =>
    obtain ⟨another, hsame⟩ := hreports
    cases hsame
    rfl

theorem bounds_of_inconsistent {held : Option (Entry Publication (Octets 32))} {occupied : Bool}
    {bounds : Option (ℤ × ℤ)} {epoch : ℤ}
    (hverdict : verdict held occupied bounds epoch = .error .InconsistentChainView) :
    held = none ∧ ∃ first last, bounds = some (first, last) ∧ first ≤ epoch ∧ epoch ≤ last := by
  unfold verdict at hverdict
  split at hverdict
  · cases hverdict
  · split_ifs at hverdict
    · cases hverdict
    · split at hverdict
      · cases hverdict
      · next first last =>
        split_ifs at hverdict with hfirst hlast
        · cases hverdict
        · exact ⟨rfl, first, last, rfl, not_lt.mp hfirst, hlast⟩
        · cases hverdict

theorem exists_lookupEpoch_of_bounds {log : Option PublicLog} {first last : ℤ}
    (hbounds : boundsOf log = some (first, last)) (hfirst : first ≤ (epoch.toNat : ℤ))
    (hlast : (epoch.toNat : ℤ) ≤ last) : ∃ entry, lookupEpoch log epoch = some entry := by
  obtain ⟨opened, rfl, hpair⟩ := Option.map_eq_some_iff.mp hbounds
  obtain ⟨rfl, rfl⟩ := Prod.mk.inj hpair
  have hstart : opened.terms.startEpoch ≤ epoch := UInt64.le_iff_toNat_le.mpr (by omega)
  have hposition : epoch.toNat - opened.terms.startEpoch.toNat < opened.entries.length := by omega
  exact ⟨_, by
    rw [lookupEpoch, Option.bind_some, if_pos hstart, List.getElem?_eq_getElem hposition]⟩

/-- Every read of the port reports the log at the views it is answered from, or two of the
messages hashed for the addresses of the log collide. -/
theorem port_reads_log (stringify : Option Json → String) (display : Json → String)
    (sha256 : List UInt8 → Octets 32) (isOnCurve : Octets 32 → Bool) (chain : Chain)
    (hsha : Discriminators sha256) (hsystem : chain.system.Documented) (hrents : Rents chain)
    (hderives : Derives sha256 isOnCurve chain) (initial : Ledger)
    (hunstarted : Unstarted initial) (transactions : List Transaction) (seen : ℕ → ℕ)
    (options : RpcOptions) (hprogram : options.programIdText = devnetProgramId) (epoch : UInt64)
    (address configAddress : Pubkey) (bump configBump : UInt8)
    (hepoch : Program.ChainRuntime.findProgramAddress chain
      [CheckpointAccount.seed, leList 8 epoch.toNat] = some (address, bump))
    (hconfig : Program.ChainRuntime.findProgramAddress chain [LogConfig.seed] =
      some (configAddress, configBump))
    (answers : ℕ → AccountQuery → Posted)
    (hshows : ∀ turn query, Shows
      (advanceAll chain initial (transactions.take (seen turn))) query (answers turn query)) :
    PortReads chain initial transactions seen address epoch options
      (conduct answers 0
        (fetchCheckpoint stringify display sha256 isOnCurve epoch.toNat options)).2 ∨
      AddressCollision sha256 := by
  rcases separated_or_collision hderives with hseparated | hcollision
  · left
    have hstored (count : ℕ) := stored_advanceAll hsystem hunstarted (transactions.take count)
    have hpaid (count : ℕ) :=
      rentPaid_advanceAll hsystem hrents hunstarted (transactions.take count)
    have hreads := readsLog_of_stored stringify display hsha hderives hseparated hprogram
      (hstored (seen 0)) (hstored (seen 1)) (hpaid (seen 0)) (hpaid (seen 1)) hepoch hconfig
      (hshows 0) (hshows 1)
    have hcanonical (hpublishes : ∀ transaction ∈ transactions,
        PublishesCanonically chain transaction) :
        Canonical chain (advanceAll chain initial (transactions.take (seen 0))) := by
      refine canonical_advanceAll hsystem (.inl hunstarted) ?_
        fun transaction htaken ↦ hpublishes transaction (List.mem_of_mem_take htaken)
      intro other checkpoint hread
      rw [hunstarted.readCheckpoint_eq_none] at hread
      cases hread
    refine ⟨hreads, fun hpublishes entry hentry ↦ ?_, fun hpublishes hsupplied hresult ↦ ?_⟩
    · have hreports := hreads.reports
      rw [hreads.complete (hcanonical hpublishes), hentry] at hreports
      exact hreports
    · obtain ⟨detail, hdetail⟩ := hresult
      have hreports := hreads.reports
      rw [hdetail] at hreports
      obtain ⟨hnone, first, last, hbounds, hfirst, hlast⟩ :=
        bounds_of_inconsistent (verdict_of_reports hreports)
      rw [judgingBounds, hsupplied] at hbounds
      obtain ⟨entry, hentry⟩ := exists_lookupEpoch_of_bounds hbounds hfirst hlast
      by_contra hearlier
      have hprefix : (transactions.take (seen 0)).take (seen 1) = transactions.take (seen 1) := by
        rw [List.take_take, min_eq_left (not_lt.mp hearlier)]
      have hsplit : transactions.take (seen 0) = transactions.take (seen 1) ++
          (transactions.take (seen 0)).drop (seen 1) := by
        rw [← hprefix, List.take_append_drop]
      have hextends : Extends
          (logOf chain (advanceAll chain initial (transactions.take (seen 1))))
          (logOf chain (advanceAll chain initial (transactions.take (seen 0)))) := by
        rw [hsplit, advanceAll_append]
        exact extends_advanceAll hsystem (hstored (seen 1)).consistent _
      obtain ⟨kept, hkept, -⟩ := exists_lookupEpoch_of_extends hextends hentry
      rw [hreads.complete (hcanonical hpublishes), hkept] at hnone
      cases hnone
  · exact .inr hcollision

/-! ### A read of the deployed log -/

/-- The log of the deployment, with the epoch 20000. -/
def deployedRun : List Transaction :=
  let config := deployedDigests (addressMessage (configSeeds 250))
  let checkpoint := deployedDigests (addressMessage (checkpointSeeds 20000 255))
  [signedByOperator (.initializeLog ⟨config, operator, systemProgramId⟩ operator 10 20000),
    signedByOperator (.publishCheckpoint ⟨config, checkpoint, operator, operator, systemProgramId⟩
      20000 operator 255)]

/-- The body of a response with an account. -/
def bodyOf (account : Account) : Json :=
  .object [("result", .object [("value",
    if account.lamports = 0 then .null
    else .object [("data", .array [.string (base64Encode account.data), .string "base64"]),
      ("owner", .string (base58Encode account.owner.octets))])])]

/-- An endpoint that answers from one ledger. -/
def endpointOf (ledger : Ledger) (query : AccountQuery) : Posted :=
  match base58Decode (fun _ ↦ "") query.address with
  | .ok octets =>
    if hlength : octets.length = 32 then
      .answered true 200 (.ok (bodyOf (ledger ⟨octets, hlength⟩)))
    else .rejected "invalid address"
  | .error _ => .rejected "invalid address"

theorem shows_endpointOf (ledger : Ledger) (query : AccountQuery) :
    Shows ledger query (endpointOf ledger query) := by
  intro address haddress
  refine ⟨200, bodyOf (ledger address), ?_, rfl, fun hlamports ↦ ?_, fun hlamports ↦ ?_⟩
  · rw [endpointOf, haddress, base58Decode_base58Encode (octets_ne_nil address)]
    exact dif_pos address.length_octets
  · exact ⟨_, rfl, by rw [if_pos hlamports]; rfl⟩
  · exact ⟨_, _, rfl, by rw [if_neg hlamports]; rfl, rfl, rfl⟩

/-- The port reads the epoch 20000 of that log. -/
theorem port_reads_log_deployed :
    (PortReads deployedChain fundedLedger deployedRun (fun _ ↦ 2)
        (deployedDigests (addressMessage (checkpointSeeds 20000 255))) 20000
        ⟨none, none, none, none⟩
        (conduct (fun _ ↦ endpointOf (advanceAll deployedChain fundedLedger deployedRun)) 0
          (fetchCheckpoint (fun _ ↦ "") (fun _ ↦ "") deployedDigests deployedOnCurve
            (20000 : UInt64).toNat ⟨none, none, none, none⟩)).2 ∨
      AddressCollision deployedDigests) ∧
    lookupEpoch (logOf deployedChain (advanceAll deployedChain fundedLedger deployedRun)) 20000 =
      some ⟨⟨operator, 5, 1728000000⟩, none⟩ :=
  ⟨port_reads_log (fun _ ↦ "") (fun _ ↦ "") deployedDigests deployedOnCurve deployedChain
    ⟨by decide +kernel, by decide +kernel⟩ referenceSystem_documented ⟨by decide, by decide⟩
    (fun _ _ _ ↦ rfl) fundedLedger (fun _ ↦ programId_ne_systemProgramId.symm) deployedRun
    (fun _ ↦ 2) ⟨none, none, none, none⟩ rfl 20000 _
    (deployedDigests (addressMessage (configSeeds 250))) 255 250 (by decide +kernel)
    (by decide +kernel) _ fun _ query ↦ shows_endpointOf _ query, by decide +kernel⟩

end AnchoredLog.Port.Rpc
