import AnchoredLog.Port.Accounts
import AnchoredLog.Program.Griefing

/-!
# The addresses the port derives

`pda.ts` derives the addresses of the log itself: an address is the SHA-256 of the seeds, the
program's address and a marker, unless that is a point of the curve, and the bump is searched from
255 downward. Where the runtime derives addresses in this way, the port finds the address and the
bump the client finds (`deriveCheckpointAddress_eq`, `deriveLogConfigAddress_eq`), and the
addresses of the configuration and of different epochs are different, or two of the messages
hashed for them collide (`separated_or_collision`).
-/

set_option autoImplicit false
set_option relaxedAutoImplicit false

namespace AnchoredLog.Port.ProgramAddresses

open Library.ByteCodec Library.Fallible Core.Preimages Primitives Accounts
open Program.AccountLayouts Program.ChainRuntime Program.Checkpoint
open Program.Griefing (Separated deployedConfig deployedCheckpoint)

/-! ### The port -/

/-- What is thrown next to a failure of the port: a plain `Error`, with its message. -/
inductive Exception
  | thrown (failure : Failure)
  | error (message : String)
deriving DecidableEq

/-- The message of what was thrown. -/
def Exception.message : Exception → String
  | .thrown failure => failure.message
  | .error message => message

/-- What the fetching layer throws or returns. -/
abbrev Fetching (Value : Type) : Type :=
  Except Exception Value

/-- What a part of the port throws, thrown by the layer above it. -/
def lifted {Value : Type} (result : Thrown Value) : Fetching Value :=
  result.mapError .thrown

/-- `PDA_MARKER`. -/
def pdaMarker : List UInt8 :=
  ascii "ProgramDerivedAddress".toList

/-- `SEED_LOG_CONFIG`. -/
def seedLogConfig : List UInt8 :=
  ascii "cm_cfg".toList

/-- `SEED_CHECKPOINT`. -/
def seedCheckpoint : List UInt8 :=
  ascii "cm_ckpt".toList

/-- `MAX_SEED_LEN`. -/
def maxSeedLen : ℕ :=
  32

/-- `MAX_SEEDS`. -/
def maxSeeds : ℕ :=
  16

section Derivation

variable (sha256 : List UInt8 → Octets 32) (isOnCurve : Octets 32 → Bool)

/-- The address of some seeds, where it is not a point of the curve. -/
def createProgramAddress (seeds : List (List UInt8)) (programId : List UInt8) :
    Fetching (Option Pubkey) := do
  require (seeds.length ≤ maxSeeds) (.thrown (.rangeError "too many seeds"))
  require (∀ seed ∈ seeds, seed.length ≤ maxSeedLen)
    (.thrown (.rangeError "seed is longer than 32 bytes"))
  require (programId.length = 32) (.thrown (.rangeError "program id must be 32 bytes"))
  let address := sha256 (concat (seeds ++ [programId, pdaMarker]))
  return if isOnCurve address then none else some address

/-- The search for a bump below a bound, downward. -/
def findBelow (seeds : List (List UInt8)) (programId : List UInt8) :
    ℕ → Fetching (Pubkey × UInt8)
  | 0 => throw (.error "no off-curve address for these seeds")
  | bump + 1 => do
    match ← createProgramAddress sha256 isOnCurve (seeds ++ [[UInt8.ofNat bump]]) programId with
    | some address => return (address, UInt8.ofNat bump)
    | none => findBelow seeds programId bump

/-- The first address that is not on the curve, the bump searched from 255 downward. -/
def findProgramAddress (seeds : List (List UInt8)) (programId : List UInt8) :
    Fetching (Pubkey × UInt8) :=
  findBelow sha256 isOnCurve seeds programId 256

def deriveLogConfigAddress (programId : List UInt8) : Fetching (Pubkey × UInt8) :=
  findProgramAddress sha256 isOnCurve [seedLogConfig] programId

def deriveCheckpointAddress (programId : List UInt8) (epoch : ℤ) :
    Fetching (Pubkey × UInt8) := do
  let octets ← lifted (u64le epoch)
  findProgramAddress sha256 isOnCurve [seedCheckpoint, octets] programId

/-! ### The runtime that derives in this way -/

/-- The message whose hash is the address of some seeds of this program. -/
def addressMessage (seeds : List (List UInt8)) : List UInt8 :=
  concat (seeds ++ [programId.octets, pdaMarker])

/-- The runtime's derivation, for seeds within its bounds. -/
def Derives (chain : Chain) : Prop :=
  ∀ seeds : List (List UInt8), seeds.length ≤ maxSeeds →
    (∀ seed ∈ seeds, seed.length ≤ maxSeedLen) →
      chain.createProgramAddress seeds programId =
        if isOnCurve (sha256 (addressMessage seeds)) then none
        else some (sha256 (addressMessage seeds))

/-- The messages hashed for the addresses of the log. -/
inductive AddressMessage : List UInt8 → Prop
  | config (bump : UInt8) : AddressMessage (addressMessage (configSeeds bump))
  | checkpoint (epoch : UInt64) (bump : UInt8) :
    AddressMessage (addressMessage (checkpointSeeds epoch bump))

/-- Two different messages hashed for addresses of the log have one hash. -/
def AddressCollision : Prop :=
  ∃ first second, AddressMessage first ∧ AddressMessage second ∧ first ≠ second ∧
    sha256 first = sha256 second

end Derivation

/-! ### The seeds -/

/-- Seeds a bump may be added to. -/
structure Short (seeds : List (List UInt8)) : Prop where
  count : seeds.length < maxSeeds
  lengths : ∀ seed ∈ seeds, seed.length ≤ maxSeedLen

theorem Short.with_bump {seeds : List (List UInt8)} (hshort : Short seeds) (bump : UInt8) :
    (seeds ++ [[bump]]).length ≤ maxSeeds ∧
      ∀ seed ∈ seeds ++ [[bump]], seed.length ≤ maxSeedLen := by
  have hcount := hshort.count
  refine ⟨by rw [List.length_append, List.length_singleton]; omega, fun seed hseed ↦ ?_⟩
  rcases List.mem_append.mp hseed with hold | hnew
  · exact hshort.lengths seed hold
  · rw [List.mem_singleton.mp hnew, List.length_singleton, maxSeedLen]
    omega

theorem short_config : Short [LogConfig.seed] :=
  ⟨by decide, by simp [LogConfig.seed, maxSeedLen]⟩

theorem short_checkpoint (epoch : UInt64) :
    Short [CheckpointAccount.seed, leList 8 epoch.toNat] :=
  ⟨by simp [maxSeeds], by simp [CheckpointAccount.seed, maxSeedLen]⟩

/-! ### The port finds what the client finds -/

variable {sha256 : List UInt8 → Octets 32} {isOnCurve : Octets 32 → Bool} {chain : Chain}

/-- On short seeds of the program the port derives what the runtime derives. -/
theorem createProgramAddress_eq (hderives : Derives sha256 isOnCurve chain)
    {seeds : List (List UInt8)} (hcount : seeds.length ≤ maxSeeds)
    (hlengths : ∀ seed ∈ seeds, seed.length ≤ maxSeedLen) :
    createProgramAddress sha256 isOnCurve seeds programId.octets =
      .ok (chain.createProgramAddress seeds programId) := by
  rw [hderives seeds hcount hlengths, createProgramAddress, require_of_true hcount,
    require_of_true hlengths, require_of_true programId.length_octets]
  rfl

/-- How far the search has come after some bumps. -/
theorem findBelow_eq (hderives : Derives sha256 isOnCurve chain) {seeds : List (List UInt8)}
    (hshort : Short seeds) {tried : ℕ} (htried : tried ≤ 255) :
    findBelow sha256 isOnCurve seeds programId.octets 256 =
      match (List.range tried).findSome? fun index ↦
        (chain.createProgramAddress (seeds ++ [[UInt8.ofNat (255 - index)]]) programId).map
          fun address ↦ (address, UInt8.ofNat (255 - index)) with
      | some found => .ok found
      | none => findBelow sha256 isOnCurve seeds programId.octets (256 - tried) := by
  induction tried with
  | zero => rfl
  | succ tried ih =>
    have hnext : 256 - tried = (255 - tried) + 1 := by omega
    have hrest : 256 - (tried + 1) = 255 - tried := by omega
    have hbump := hshort.with_bump (UInt8.ofNat (255 - tried))
    rw [ih (by omega), List.range_succ, List.findSome?_append]
    cases (List.range tried).findSome? fun index ↦
      (chain.createProgramAddress (seeds ++ [[UInt8.ofNat (255 - index)]]) programId).map
        fun address ↦ (address, UInt8.ofNat (255 - index)) with
    | some found => rfl
    | none =>
      rw [Option.none_or, List.findSome?_singleton, hnext, hrest, findBelow,
        createProgramAddress_eq hderives hbump.1 hbump.2, bind_ok]
      cases chain.createProgramAddress (seeds ++ [[UInt8.ofNat (255 - tried)]]) programId with
      | none => rfl
      | some address => rfl

theorem findProgramAddress_eq (hderives : Derives sha256 isOnCurve chain)
    {seeds : List (List UInt8)} (hshort : Short seeds) {found : Pubkey × UInt8}
    (hfound : Program.ChainRuntime.findProgramAddress chain seeds = some found) :
    findProgramAddress sha256 isOnCurve seeds programId.octets = .ok found := by
  rw [Program.ChainRuntime.findProgramAddress] at hfound
  rw [findProgramAddress, findBelow_eq hderives hshort (le_refl 255), hfound]

/-- The configuration's address is the one the client reads. -/
theorem deriveLogConfigAddress_eq (hderives : Derives sha256 isOnCurve chain)
    {found : Pubkey × UInt8}
    (hfound : Program.ChainRuntime.findProgramAddress chain [LogConfig.seed] = some found) :
    deriveLogConfigAddress sha256 isOnCurve programId.octets = .ok found :=
  findProgramAddress_eq hderives short_config hfound

/-- The address of an epoch is the one the client publishes at and reads. -/
theorem deriveCheckpointAddress_eq (hderives : Derives sha256 isOnCurve chain) {epoch : UInt64}
    {found : Pubkey × UInt8} (hfound : Program.ChainRuntime.findProgramAddress chain
      [CheckpointAccount.seed, leList 8 epoch.toNat] = some found) :
    deriveCheckpointAddress sha256 isOnCurve programId.octets epoch.toNat = .ok found := by
  rw [deriveCheckpointAddress, u64le_eq]
  exact findProgramAddress_eq hderives (short_checkpoint epoch) hfound

/-! ### Different seeds, different addresses -/

theorem addressMessage_eq (seeds : List (List UInt8)) :
    addressMessage seeds = seeds.flatten ++ (programId.octets ++ pdaMarker) := by
  simp [addressMessage, concat]

/-- An address that was derived is the hash of its message. -/
theorem sha256_of_derived (hderives : Derives sha256 isOnCurve chain)
    {seeds : List (List UInt8)} (hshort : Short seeds) {bump : UInt8} {address : Pubkey}
    (hderived : chain.createProgramAddress (seeds ++ [[bump]]) programId = some address) :
    sha256 (addressMessage (seeds ++ [[bump]])) = address := by
  have hbump := hshort.with_bump bump
  rw [hderives _ hbump.1 hbump.2] at hderived
  split_ifs at hderived
  exact Option.some.inj hderived

theorem config_ne_checkpoint_message (bump other : UInt8) (epoch : UInt64) :
    addressMessage (configSeeds bump) ≠ addressMessage (checkpointSeeds epoch other) := by
  intro hsame
  have hlength := congrArg List.length hsame
  simp [addressMessage_eq, configSeeds, checkpointSeeds, LogConfig.seed, CheckpointAccount.seed]
    at hlength
  omega

/-- The message of a checkpoint's address determines its epoch. -/
theorem epoch_of_message {first second : UInt64} {left right : UInt8}
    (hsame : addressMessage (checkpointSeeds first left) =
      addressMessage (checkpointSeeds second right)) : first = second := by
  simp only [addressMessage_eq, checkpointSeeds, List.flatten_cons, List.flatten_nil,
    List.append_assoc] at hsame
  have hepoch := List.append_cancel_left hsame
  have hoctets := (List.append_inj hepoch (by simp)).1
  rw [← UInt64.toNat_inj]
  exact leList_injective first.toNat_lt second.toNat_lt hoctets

/-- The addresses of the configuration and of different epochs are different, or the messages
hashed for two of them collide. -/
theorem separated_or_collision (hderives : Derives sha256 isOnCurve chain) :
    Separated chain ∨ AddressCollision sha256 := by
  by_cases hcollision : AddressCollision sha256
  · exact .inr hcollision
  · have hapart {first second : List UInt8} (hfirst : AddressMessage first)
        (hsecond : AddressMessage second) (hhash : sha256 first = sha256 second) :
        first = second := by
      by_contra hne
      exact hcollision ⟨first, second, hfirst, hsecond, hne, hhash⟩
    refine .inl ⟨fun bump epoch other address hconfig hcheckpoint ↦ ?_,
      fun first second left right address hfirst hsecond ↦ ?_⟩
    · refine config_ne_checkpoint_message bump other epoch (hapart (.config bump)
        (.checkpoint epoch other) ?_)
      exact (sha256_of_derived hderives short_config hconfig).trans
        (sha256_of_derived hderives (short_checkpoint epoch) hcheckpoint).symm
    · refine epoch_of_message (hapart (.checkpoint first left) (.checkpoint second right) ?_)
      exact (sha256_of_derived hderives (short_checkpoint first) hfirst).trans
        (sha256_of_derived hderives (short_checkpoint second) hsecond).symm

/-- Where the runtime derives addresses in this way, the port finds the addresses and the bumps the
client finds, of the configuration and of every epoch, and these are different, or the messages
hashed for two of them collide. -/
theorem port_derives_addresses (sha256 : List UInt8 → Octets 32) (isOnCurve : Octets 32 → Bool)
    (chain : Chain) (hderives : Derives sha256 isOnCurve chain) :
    (∀ found, Program.ChainRuntime.findProgramAddress chain [LogConfig.seed] = some found →
        deriveLogConfigAddress sha256 isOnCurve programId.octets = .ok found) ∧
      (∀ (epoch : UInt64) (found : Pubkey × UInt8),
        Program.ChainRuntime.findProgramAddress chain
            [CheckpointAccount.seed, leList 8 epoch.toNat] = some found →
          deriveCheckpointAddress sha256 isOnCurve programId.octets epoch.toNat = .ok found) ∧
      (Separated chain ∨ AddressCollision sha256) :=
  ⟨fun _ hfound ↦ deriveLogConfigAddress_eq hderives hfound,
    fun _ _ hfound ↦ deriveCheckpointAddress_eq hderives hfound, separated_or_collision hderives⟩

/-! ### The addresses of the deployment -/

/-- The SHA-256 digests of the messages hashed for the configuration and for the epoch 20000, and
those of the names of the accounts. -/
def deployedDigests (message : List UInt8) : Octets 32 :=
  if message = addressMessage (configSeeds 255) then
    ⟨[0x02, 0xd6, 0x03, 0x3a, 0x13, 0x10, 0x96, 0xde, 0x3a, 0xb6, 0xf9, 0x10, 0xfb, 0xeb, 0x3a,
      0xd3, 0x52, 0x45, 0xd8, 0x67, 0x8d, 0x32, 0x8f, 0xde, 0x88, 0xee, 0xb5, 0xf6, 0xf7, 0x44,
      0xd9, 0xfd], rfl⟩
  else if message = addressMessage (configSeeds 254) then
    ⟨[0xdd, 0x7d, 0x79, 0x72, 0x5e, 0x01, 0x58, 0x25, 0x0c, 0xbe, 0xac, 0xc0, 0xeb, 0x2c, 0xff,
      0x49, 0xdd, 0xfc, 0x37, 0xa6, 0x30, 0xb4, 0xcb, 0x1f, 0xef, 0xe6, 0xa4, 0xaa, 0x7b, 0x91,
      0xa6, 0xfe], rfl⟩
  else if message = addressMessage (configSeeds 253) then
    ⟨[0x7f, 0x72, 0x06, 0x36, 0x2d, 0xdf, 0x3c, 0xe9, 0x65, 0xe0, 0xf3, 0xb0, 0xa0, 0x73, 0x89,
      0xd2, 0x21, 0x0b, 0xe0, 0xdf, 0xb5, 0x0b, 0x6f, 0x1e, 0xb6, 0x75, 0x60, 0x98, 0x76, 0x5a,
      0x08, 0x4a], rfl⟩
  else if message = addressMessage (configSeeds 252) then
    ⟨[0x4a, 0xbf, 0x48, 0xcb, 0x3e, 0x20, 0x18, 0xb9, 0x3b, 0xb9, 0x52, 0x82, 0xad, 0xdf, 0x48,
      0x7b, 0xdc, 0xe0, 0x8a, 0x4b, 0x24, 0x42, 0xbb, 0xd6, 0xdc, 0x7b, 0x04, 0x0d, 0xe5, 0x46,
      0x59, 0xf5], rfl⟩
  else if message = addressMessage (configSeeds 251) then
    ⟨[0xc8, 0x04, 0x04, 0xf1, 0x6e, 0x21, 0xaa, 0x43, 0x4e, 0xed, 0xf1, 0x5a, 0xe1, 0xbd, 0xb5,
      0xdf, 0x30, 0xea, 0xbc, 0xb7, 0x46, 0x05, 0xe7, 0xb0, 0x7f, 0xe1, 0x46, 0xe6, 0xf3, 0x70,
      0x37, 0x2f], rfl⟩
  else if message = addressMessage (configSeeds 250) then
    deployedConfig
  else if message = addressMessage (checkpointSeeds 20000 255) then
    deployedCheckpoint
  else
    accountDigests message

/-- The points of the curve among these digests. -/
def deployedOnCurve (address : Octets 32) : Bool :=
  address ≠ deployedDigests (addressMessage (configSeeds 250)) ∧
    address ≠ deployedDigests (addressMessage (checkpointSeeds 20000 255))

/-- A chain that derives its addresses from these digests. -/
def deployedChain : Chain where
  createProgramAddress := fun seeds _ ↦
    if deployedOnCurve (deployedDigests (addressMessage seeds)) then none
    else some (deployedDigests (addressMessage seeds))
  minimumBalance := fun _ ↦ 1000
  system := referenceSystem

/-- The addresses of the deployment are derived in this way, the configuration's with the bump
250. -/
theorem port_derives_addresses_deployed :
    ((∀ found, Program.ChainRuntime.findProgramAddress deployedChain [LogConfig.seed] =
          some found →
        deriveLogConfigAddress deployedDigests deployedOnCurve programId.octets = .ok found) ∧
      (∀ (epoch : UInt64) (found : Pubkey × UInt8),
        Program.ChainRuntime.findProgramAddress deployedChain
            [CheckpointAccount.seed, leList 8 epoch.toNat] = some found →
          deriveCheckpointAddress deployedDigests deployedOnCurve programId.octets epoch.toNat =
            .ok found) ∧
      (Separated deployedChain ∨ AddressCollision deployedDigests)) ∧
    Program.ChainRuntime.findProgramAddress deployedChain [LogConfig.seed] =
      some (deployedDigests (addressMessage (configSeeds 250)), 250) :=
  ⟨port_derives_addresses deployedDigests deployedOnCurve deployedChain fun _ _ _ ↦ rfl,
    by decide +kernel⟩

end AnchoredLog.Port.ProgramAddresses
