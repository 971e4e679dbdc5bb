import Pomodorough.Restore.Trees

/-! # The recovery lineage

`restore_drill.py`: the recovery domain and the chain of authenticated receipts
in a ledger, and the binding that ties account data to one receipt of it. -/
namespace Pomodorough.Restore.Lineage
open Pomodorough.Library.Fallible Pomodorough.Library.OrderedMaps
open Pomodorough.Library.JsonText Pomodorough.Library.TextBytes
open Pomodorough.Restore.Trees

def recoveryDomainFile : Str := text ".recovery-domain.json"

def recoveryBindingFile : Str := text ".recovery-lineage.json"

def receiptPrefix : Str := text ".recovery-receipt-"

def zeroDigest : Str := List.replicate 64 0x30

/-- `RECOVERY_RECEIPT_FILE`: sixteen digits. -/
def recoveryReceiptFile (name : Str) : Option Nat :=
  (receiptPrefix.isPrefixOf? name).bind fun rest =>
    if (rest.take 16).length = 16 ∧ (rest.take 16).all isDigit = true ∧
        rest.drop 16 = text ".json" then
      some (digitsValue (rest.take 16))
    else none

/-- The name of a receipt: `f".recovery-receipt-{sequence:016d}.json"`. -/
def receiptName (sequence : Nat) : Str :=
  receiptPrefix ++ List.replicate (16 - (decimal sequence).length) 0x30 ++ decimal sequence ++
    text ".json"

/-! ## Private records -/

/-- `private_json`: a small file only its owner can read. -/
def privateJson (host : Host) (tree : Tree) (path : Str) :
    Except Failure (List (Str × Json) × Bytes) := do
  let (contents, mode) ← readRegular tree path (some 4096)
  check (mode &&& 0o077 = 0) (.valueError "private recovery record has unsafe mode")
  let fields ← strictJsonBytes host contents
  .ok (fields, contents)

/-- `write_private_json` to a new name. -/
def writeNew (tree : Tree) (path : Str) (value : Json) : Except Failure Tree :=
  makeNew tree path (.file 0o600 (canonicalJson value))

/-- `write_private_json` over what is there; a rename does not replace a directory. -/
def writeOver (tree : Tree) (path : Str) (value : Json) : Except Failure Tree :=
  match tree.find? path with
  | some (.directory _) => .error .osError
  | _ => .ok (tree.write path (.file 0o600 (canonicalJson value)))

def pendingPrefix : Str := text ".pending-recovery-"

/-- `cleanup_pending_recovery`, for one root. -/
def cleanupPendingRecovery (root : Tree) : Except Failure Tree := do
  checkAll (fun e => match e with
    | (_, .file _ _) => .ok ()
    | (_, _) => .error (.valueError "unsafe interrupted recovery file"))
    ((children root).filter fun e => pendingPrefix.isPrefixOf e.1)
  .ok (root.keep fun path => !(pendingPrefix.isPrefixOf path && !path.contains slash))

/-! ## The domain -/

structure RecoveryDomain where
  domainId : Str
  authenticationKey : Str
  deriving DecidableEq

def loadRecoveryDomain (host : Host) (ledger : Tree) : Except Failure RecoveryDomain := do
  let (fields, _) ← privateJson host ledger recoveryDomainFile
  check (hasKeys fields ["version", "domainId", "authenticationKey"] = true ∧
      equalsInt (field fields "version") 1 = true)
    (.valueError "recovery domain record is invalid")
  match validHex (field fields "domainId"), validHex (field fields "authenticationKey") with
  | some domainId, some authenticationKey => .ok { domainId, authenticationKey }
  | _, _ => .error (.valueError "recovery domain identity or key is invalid")

/-- `recovery_receipt_paths`: the names in the order of their numbers. -/
def recoveryReceiptPaths (ledger : Tree) : Except Failure (List (Nat × Str)) := do
  let names := (children ledger).map Prod.fst
  check (∀ name ∈ names, receiptPrefix.isPrefixOf name = true →
      (recoveryReceiptFile name).isSome = true)
    (.valueError "invalid recovery receipt filename")
  .ok ((names.filterMap fun name => (recoveryReceiptFile name).map fun n => (n, name)).insertionSort
    fun a b => a.1 ≤ b.1)

/-- `ensure_recovery_domain`, with the two random numbers a new domain gets. -/
def ensureRecoveryDomain (host : Host) (fresh : RecoveryDomain) (ledger : Tree) :
    Except Failure (RecoveryDomain × Tree) :=
  match loadRecoveryDomain host ledger with
  | .ok domain => .ok (domain, ledger)
  | .error .fileNotFound => do
    let paths ← recoveryReceiptPaths ledger
    check (paths = []) (.valueError "recovery receipts lack recovery domain")
    let ledger ← writeNew ledger recoveryDomainFile (.obj [(text "version", .int 1),
      (text "domainId", .str fresh.domainId),
      (text "authenticationKey", .str fresh.authenticationKey)])
    let domain ← loadRecoveryDomain host ledger
    .ok (domain, ledger)
  | .error e => .error e

/-! ## Receipts -/

def recoveryTag (host : Host) (domain : RecoveryDomain) (value : Json) : Str :=
  host.hmacSha256 domain.authenticationKey (canonicalJson value)

structure RecoveryReceipt where
  sequence : Nat
  dataInventorySha256 : Str
  receiptSha256 : Str
  deriving DecidableEq

/-- The fields of an object without its tag, which is a tag of the others. -/
def payloadOf (fields : List (Str × Json)) (keys : List String) : Json :=
  .obj (keys.map fun key => (text key, field fields key))

def receiptKeys : List String :=
  ["version", "domainId", "sequence", "previousReceiptSha256", "dataInventorySha256"]

def parseRecoveryReceipt (host : Host) (domain : RecoveryDomain) (ledger : Tree) (path : Str)
    (sequence : Nat) (previousDigest : Str) : Except Failure RecoveryReceipt := do
  let (fields, contents) ← privateJson host ledger path
  check (hasKeys fields (receiptKeys ++ ["authenticationTag"]) = true ∧
      equalsInt (field fields "version") 1 = true)
    (.valueError "recovery receipt schema mismatch")
  let validLink := equalsInt (field fields "sequence") sequence &&
    equalsStr (field fields "previousReceiptSha256") previousDigest
  match validHex (field fields "dataInventorySha256") with
  | none => .error (.valueError "recovery receipt lineage mismatch")
  | some dataInventorySha256 =>
    check (validLink = true ∧ equalsStr (field fields "domainId") domain.domainId = true)
      (.valueError "recovery receipt lineage mismatch")
    check (validHex (field fields "authenticationTag") =
        some (recoveryTag host domain (payloadOf fields receiptKeys)))
      (.valueError "recovery receipt authentication failed")
    .ok { sequence, dataInventorySha256, receiptSha256 := host.sha256 contents }

/-- The loop of `load_recovery_receipts`. -/
def loadReceiptsFrom (host : Host) (domain : RecoveryDomain) (ledger : Tree) (expected : Nat)
    (previousDigest : Str) : List (Nat × Str) → Except Failure (List RecoveryReceipt)
  | [] => .ok []
  | (sequence, path) :: paths => do
    check (sequence = expected) (.valueError "recovery receipt sequence is not contiguous")
    let receipt ← parseRecoveryReceipt host domain ledger path sequence previousDigest
    let receipts ← loadReceiptsFrom host domain ledger (expected + 1) receipt.receiptSha256 paths
    .ok (receipt :: receipts)

def loadRecoveryReceipts (host : Host) (domain : RecoveryDomain) (ledger : Tree) :
    Except Failure (List RecoveryReceipt) := do
  let paths ← recoveryReceiptPaths ledger
  loadReceiptsFrom host domain ledger 1 zeroDigest paths

/-! ## The binding -/

structure RecoveryBinding where
  sequence : Nat
  receiptSha256 : Str
  dataInventorySha256 : Str
  deriving DecidableEq

def bindingKeys : List String :=
  ["version", "domainId", "sequence", "receiptSha256", "dataInventorySha256"]

/-- The checks of `load_recovery_binding` on a record that is there. -/
def parseRecoveryBinding (host : Host) (domain : RecoveryDomain) (receipts : List RecoveryReceipt)
    (fields : List (Str × Json)) : Except Failure RecoveryBinding := do
  check (hasKeys fields (bindingKeys ++ ["authenticationTag"]) = true ∧
      equalsInt (field fields "version") 1 = true)
    (.valueError "recovery data binding schema mismatch")
  match (validGeneration (field fields "sequence")).bind fun sequence =>
      receipts[sequence - 1]?.map fun receipt => (sequence, receipt) with
  | none => .error (.valueError "recovery data binding sequence is invalid")
  | some (sequence, receipt) =>
    check (equalsStr (field fields "domainId") domain.domainId = true ∧
        equalsStr (field fields "receiptSha256") receipt.receiptSha256 = true ∧
        equalsStr (field fields "dataInventorySha256") receipt.dataInventorySha256 = true ∧
        validHex (field fields "authenticationTag") =
          some (recoveryTag host domain (payloadOf fields bindingKeys)))
      (.valueError "recovery data binding authentication failed")
    .ok { sequence, receiptSha256 := receipt.receiptSha256,
          dataInventorySha256 := receipt.dataInventorySha256 }

def loadRecoveryBinding (host : Host) (data : Tree) (domain : RecoveryDomain)
    (receipts : List RecoveryReceipt) (required : Bool) : Except Failure (Option RecoveryBinding) :=
  match privateJson host data recoveryBindingFile with
  | .error .fileNotFound =>
    if required then .error (.valueError "account data lacks authenticated recovery lineage")
    else .ok none
  | .error e => .error e
  | .ok (fields, _) => do
    let binding ← parseRecoveryBinding host domain receipts fields
    .ok (some binding)

def dataStateInventory (host : Host) (data : Tree) : Except Failure (List Entry) := do
  let entries ← inventory host data
  .ok (entries.filter fun entry => entry.path ≠ recoveryBindingFile)

def inventorySha256 (host : Host) (entries : List Entry) : Str :=
  host.sha256 (canonicalJson (inventoryJson entries))

/-! ## A new receipt -/

/-- An object with its own authentication tag. -/
def tagged (host : Host) (domain : RecoveryDomain) (payload : List (Str × Json)) : Json :=
  .obj (payload ++ [(text "authenticationTag", .str (recoveryTag host domain (.obj payload)))])

def receiptJson (host : Host) (domain : RecoveryDomain) (sequence : Nat) (previous dataDigest : Str) :
    Json :=
  tagged host domain [(text "version", .int 1), (text "domainId", .str domain.domainId),
    (text "sequence", .int sequence), (text "previousReceiptSha256", .str previous),
    (text "dataInventorySha256", .str dataDigest)]

def writeRecoveryReceipt (host : Host) (ledger : Tree) (domain : RecoveryDomain) (sequence : Nat)
    (previous dataDigest : Str) : Except Failure (RecoveryReceipt × Tree) := do
  let receipt := receiptJson host domain sequence previous dataDigest
  let ledger ← writeNew ledger (receiptName sequence) receipt
  .ok ({ sequence, dataInventorySha256 := dataDigest,
         receiptSha256 := host.sha256 (canonicalJson receipt) }, ledger)

def writeRecoveryBinding (host : Host) (data : Tree) (domain : RecoveryDomain)
    (receipt : RecoveryReceipt) : Except Failure Tree :=
  writeOver data recoveryBindingFile (tagged host domain [(text "version", .int 1),
    (text "domainId", .str domain.domainId), (text "sequence", .int receipt.sequence),
    (text "receiptSha256", .str receipt.receiptSha256),
    (text "dataInventorySha256", .str receipt.dataInventorySha256)])

/-- `advance_recovery_lineage`: the data and the ledger it leaves. -/
def advanceRecoveryLineage (host : Host) (fresh : RecoveryDomain) (data ledger : Tree) :
    Except Failure (Tree × Tree) := do
  let (domain, ledger) ← ensureRecoveryDomain host fresh ledger
  let receipts ← loadRecoveryReceipts host domain ledger
  let binding ← loadRecoveryBinding host data domain receipts false
  let state ← dataStateInventory host data
  let dataDigest := inventorySha256 host state
  check (¬ (binding = none ∧ (receipts.getLast?.any fun last =>
      last.dataInventorySha256 ≠ dataDigest) = true))
    (.valueError "unbound account data does not match interrupted recovery receipt")
  let sequence := receipts.length + 1
  check (sequence ≤ MAX_SAFE_REVISION) (.valueError "recovery receipt sequence exhausted")
  let previous := (receipts.getLast?.map RecoveryReceipt.receiptSha256).getD zeroDigest
  let (receipt, ledger) ← writeRecoveryReceipt host ledger domain sequence previous dataDigest
  let data ← writeRecoveryBinding host data domain receipt
  .ok (data, ledger)

structure RecoveryLineage where
  recoveryDomainId : Str
  recoverySequence : Nat
  recoveryReceiptSha256 : Str
  dataInventorySha256 : Str
  deriving DecidableEq

def validateRecoveryLineage (host : Host) (data ledger : Tree) : Except Failure RecoveryLineage := do
  let domain ← loadRecoveryDomain host ledger
  let receipts ← loadRecoveryReceipts host domain ledger
  let binding ← loadRecoveryBinding host data domain receipts true
  let state ← dataStateInventory host data
  match binding with
  | none => .error (.valueError "recovery data binding does not match account data")
  | some binding =>
    check (binding.dataInventorySha256 = inventorySha256 host state)
      (.valueError "recovery data binding does not match account data")
    .ok { recoveryDomainId := domain.domainId, recoverySequence := binding.sequence,
          recoveryReceiptSha256 := binding.receiptSha256,
          dataInventorySha256 := binding.dataInventorySha256 }

end Pomodorough.Restore.Lineage
