import AnchoredLog.Core.Preimages

/-!
# Receipts

What the chain stores of an OpenTimestamps receipt is its digest, over a tag, the length of the
receipt in two octets and the receipt. A receipt whose length does not fit has none.

Before a receipt is believed it is parsed, by a library outside this repository: a parsed receipt is
a tree of steps below the digest it starts from. `verifyReceipt` compares that digest with the one
of the stamped octets and searches the tree for a Bitcoin attestation.
-/

set_option autoImplicit false
set_option relaxedAutoImplicit false

namespace AnchoredLog.Client.Receipts

open Library.ByteCodec Library.Fallible Core.Preimages

/-- The octets the digest of a receipt is over. -/
def receiptPreimage (receipt : List UInt8) : Option (List UInt8) := do
  let len ← tryFromU16 receipt.length
  pure ([tagRcpt.octets, leList 2 len.toNat].flatten ++ receipt)

/-- `Keccak256( TAG_RCPT ‖ len(receipt) ‖ receipt )` (§2.4). -/
def receiptDigest (hasher : Hasher) (receipt : List UInt8) : Option Digest := do
  let preimage ← receiptPreimage receipt
  pure (hasher.hashv [preimage])

/-! ### Verifying a receipt -/

/-- An operation on what was reached so far. -/
inductive Op
  | sha1
  | sha256
  | ripemd160
  | hexlify
  | reverse
  | append (octets : List UInt8)
  | prepend (octets : List UInt8)
deriving DecidableEq

/-- What a step does: it branches, executes an operation, attests the height of a Bitcoin block, or
attests something else. -/
inductive StepData
  | fork
  | op (op : Op)
  | bitcoin (height : ℕ)
  | otherAttestation
deriving DecidableEq

/-- The height a step attests. -/
def StepData.bitcoinHeight : StepData → Option ℕ
  | .bitcoin height => some height
  | _ => none

/-- A step of a parsed receipt: what it does, what the operations up to it reach, and the steps
after it. -/
inductive TimestampStep
  | mk (data : StepData) (output : List UInt8) (next : List TimestampStep)

def TimestampStep.data : TimestampStep → StepData
  | .mk data _ _ => data

/-- A parsed receipt. -/
structure DetachedTimestamp where
  startDigest : List UInt8
  firstStep : TimestampStep

/-- The parser of receipts and the hash of what was stamped. -/
structure ReceiptFormat where
  parse : List UInt8 → Except String DetachedTimestamp
  sha256 : List UInt8 → Octets 32

mutual

/-- The first Bitcoin attestation at or after a step, with what the operations reach there. -/
def confirmed : TimestampStep → Option (ℕ × List UInt8)
  | .mk data output next =>
    match data.bitcoinHeight with
    | some height => some (height, output)
    | none => confirmedAny next

/-- The first Bitcoin attestation among several branches. -/
def confirmedAny : List TimestampStep → Option (ℕ × List UInt8)
  | [] => none
  | step :: rest => (confirmed step).or (confirmedAny rest)

end

/-- The Bitcoin attestation a receipt carries. -/
structure BitcoinClaim where
  height : UInt32
  attestedDigest : Octets 32
deriving DecidableEq

/-- Why a receipt was refused. -/
inductive ReceiptRefused
  | unparsable (reason : String)
  | wrongRoot
  | notYetConfirmed
deriving DecidableEq

/-- Parses a receipt and checks that it timestamps the stamped octets and carries a Bitcoin
attestation. -/
def verifyReceipt (format : ReceiptFormat) (receipt stamped : List UInt8) :
    Except ReceiptRefused BitcoinClaim :=
  match format.parse receipt with
  | .error reason => .error (.unparsable reason)
  | .ok parsed =>
    if parsed.startDigest ≠ (format.sha256 stamped).octets then .error .wrongRoot
    else
      match confirmed parsed.firstStep with
      | none => .error .notYetConfirmed
      | some (height, output) =>
        if height < 2 ^ 32 then
          if hlength : output.length = 32 then .ok ⟨UInt32.ofNat height, ⟨output, hlength⟩⟩
          else .error (.unparsable (s!"the attestation's operations reach {output.length} bytes " ++
            "and a merkle root is 32"))
        else .error (.unparsable s!"the attestation names block height {height}")

end AnchoredLog.Client.Receipts
