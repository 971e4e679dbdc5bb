import Pomodorough.Restore.Ledger
import Pomodorough.Restore.Lineage

/-! # Snapshots

`restore_drill.py`: a bound copy of account data and deletion ledger with its
manifest, its verification, and the restore of older data under a trusted
ledger. The paths the tool is called with are checked to be independent and new
before any of this; here a directory is its contents. -/
namespace Pomodorough.Restore.Snapshots
open Pomodorough.Library.Fallible Pomodorough.Library.OrderedMaps
open Pomodorough.Library.JsonText Pomodorough.Library.TextBytes
open Pomodorough.Restore.Trees Pomodorough.Restore.Ledger Pomodorough.Restore.Lineage

def SNAPSHOT_VERSION : Nat := 2

/-! ## Manifests -/

structure Manifest where
  createdAtUnixNs : Nat
  dataInventory : List Entry
  ledgerInventory : List Entry
  ledgerHighWatermark : Watermark
  lineage : RecoveryLineage
  deriving DecidableEq

def stateText : LifecycleState → Str
  | .active => text "active"
  | .deleted => text "deleted"

def HighWatermark.toJson (highWatermark : HighWatermark) : Json :=
  .obj [(text "generation", .int highWatermark.generation),
    (text "state", .str (stateText highWatermark.state)),
    (text "lifecycleGeneration", .int highWatermark.lifecycleGeneration),
    (text "deletedGeneration", .int highWatermark.deletedGeneration)]

def watermarkJson (watermark : Watermark) : Json :=
  .obj (watermark.map fun (digest, highWatermark) => (digest, HighWatermark.toJson highWatermark))

def Manifest.toJson (manifest : Manifest) : Json :=
  .obj [(text "version", .int SNAPSHOT_VERSION),
    (text "createdAtUnixNs", .int manifest.createdAtUnixNs),
    (text "dataInventory", inventoryJson manifest.dataInventory),
    (text "ledgerInventory", inventoryJson manifest.ledgerInventory),
    (text "ledgerHighWatermark", watermarkJson manifest.ledgerHighWatermark),
    (text "recoveryDomainId", .str manifest.lineage.recoveryDomainId),
    (text "recoverySequence", .int manifest.lineage.recoverySequence),
    (text "recoveryReceiptSha256", .str manifest.lineage.recoveryReceiptSha256),
    (text "dataInventorySha256", .str manifest.lineage.dataInventorySha256)]

def manifestPayload (host : Host) (timeNs : Nat) (data ledger : Tree) : Except Failure Manifest := do
  let lineage ← validateRecoveryLineage host data ledger
  let dataInventory ← inventory host data
  let ledgerInventory ← inventory host ledger
  let ledgerHighWatermark ← validateDataAgainstLedger host data ledger
  .ok { createdAtUnixNs := timeNs, dataInventory, ledgerInventory, ledgerHighWatermark, lineage }

/-! ## Creation -/

/-- A snapshot directory. -/
structure Snapshot where
  manifest : Bytes
  checksum : Bytes
  data : Tree
  ledger : Tree
  deriving DecidableEq

/-- `write_manifest`: the manifest and the line with its digest. -/
def writeManifest (host : Host) (manifest : Manifest) : Bytes × Bytes :=
  let contents := canonicalJson manifest.toJson
  (contents, encode (host.sha256 contents ++ text "  manifest.json\n"))

/-- What `create_snapshot` leaves: the live directories and the snapshot. -/
structure Created where
  data : Tree
  ledger : Tree
  manifest : Manifest
  snapshot : Snapshot
  deriving DecidableEq

/-- The inventories of a pair of directories are still the recorded ones. -/
def unchanged (host : Host) (data ledger : Tree) (dataInventory ledgerInventory : List Entry)
    (failure : Failure) : Except Failure Unit := do
  let dataNow ← inventory host data
  let ledgerNow ← inventory host ledger
  check (dataNow = dataInventory ∧ ledgerNow = ledgerInventory) failure

/-- `create_snapshot`, on directories that only it changes. -/
def createSnapshot (host : Host) (umask : Mode) (timeNs : Nat) (fresh : RecoveryDomain)
    (data ledger : Tree) : Except Failure Created := do
  let data ← cleanupPendingRecovery data
  let ledger ← cleanupPendingRecovery ledger
  let _ ← validateDataAgainstLedger host data ledger
  let (data, ledger) ← advanceRecoveryLineage host fresh data ledger
  let dataBefore ← inventory host data
  let ledgerBefore ← inventory host ledger
  let ledgerCopy ← copyInventory host umask ledger ledgerBefore
  let dataCopy ← copyInventory host umask data dataBefore
  unchanged host data ledger dataBefore ledgerBefore
    (.runtimeError "source storage changed during snapshot")
  let manifest ← manifestPayload host timeNs dataCopy ledgerCopy
  check (manifest.dataInventory = dataBefore ∧ manifest.ledgerInventory = ledgerBefore)
    (.runtimeError "snapshot copy does not match source inventory")
  unchanged host dataCopy ledgerCopy dataBefore ledgerBefore
    (.runtimeError "snapshot validation changed copied storage")
  let (contents, checksum) := writeManifest host manifest
  .ok { data, ledger, manifest,
        snapshot := { manifest := contents, checksum, data := dataCopy, ledger := ledgerCopy } }

/-! ## Verification -/

def manifestLimit : Nat := 1048576

/-- The separators of `str.split()` in ASCII. -/
def isSeparator (c : Nat) : Bool := (0x09 ≤ c && c ≤ 0x0d) || (0x1c ≤ c && c ≤ 0x20)

/-- `str.split()`. -/
def words (s : Str) : List Str := (s.splitOnP isSeparator).filter (· ≠ [])

def decodeAscii (bytes : Bytes) : Option Str :=
  if bytes.all (·.toNat < 0x80) then some (bytes.map UInt8.toNat) else none

/-- `read_snapshot_manifest`. -/
def readSnapshotManifest (host : Host) (snapshot : Snapshot) (expectedDigest : Option Str) :
    Except Failure (List (Str × Json) × Str) := do
  check (snapshot.manifest.length ≤ manifestLimit) (.valueError "file exceeds safe size")
  let manifestDigest := host.sha256 snapshot.manifest
  check (expectedDigest.all isDigest = true) (.valueError "trusted manifest SHA-256 is invalid")
  check (expectedDigest.all (· = manifestDigest) = true)
    (.valueError "trusted manifest SHA-256 mismatch")
  check (snapshot.checksum.length ≤ 256) (.valueError "file exceeds safe size")
  match decodeAscii snapshot.checksum with
  | none => .error (.valueError "ordinal not in range(128)")
  | some checksum =>
    check (words checksum = [manifestDigest, text "manifest.json"])
      (.valueError "snapshot manifest checksum mismatch")
    let fields ← strictJsonBytes host snapshot.manifest
    .ok (fields, manifestDigest)

def manifestKeys : List String :=
  ["version", "createdAtUnixNs", "dataInventory", "ledgerInventory", "ledgerHighWatermark",
    "recoveryDomainId", "recoverySequence", "recoveryReceiptSha256", "dataInventorySha256"]

/-- A manifest whose schema was validated. Its watermark is any object. -/
structure ManifestSchema where
  createdAtUnixNs : Nat
  dataInventory : List Entry
  ledgerInventory : List Entry
  ledgerHighWatermark : List (Str × Json)
  lineage : RecoveryLineage

/-- A digest of the manifest: `valid_hex(manifest[field])`. -/
def manifestDigest (fields : List (Str × Json)) (key : String) : Except Failure Str :=
  match validHex (field fields key) with
  | some digest => .ok digest
  | none => .error (.valueError ("snapshot manifest " ++ key ++ " is invalid"))

def validateManifestSchema (fields : List (Str × Json)) : Except Failure ManifestSchema := do
  check (hasKeys fields manifestKeys = true ∧
      equalsInt (field fields "version") SNAPSHOT_VERSION = true)
    (.valueError "snapshot manifest schema mismatch")
  match validPositiveInteger (field fields "createdAtUnixNs"),
      validGeneration (field fields "recoverySequence") with
  | some createdAtUnixNs, some recoverySequence => do
    let recoveryDomainId ← manifestDigest fields "recoveryDomainId"
    let recoveryReceiptSha256 ← manifestDigest fields "recoveryReceiptSha256"
    let dataInventorySha256 ← manifestDigest fields "dataInventorySha256"
    let dataInventory ← validateInventory (field fields "dataInventory")
    let ledgerInventory ← validateInventory (field fields "ledgerInventory")
    match field fields "ledgerHighWatermark" with
    | .obj ledgerHighWatermark =>
      .ok { createdAtUnixNs, dataInventory, ledgerInventory, ledgerHighWatermark,
            lineage := { recoveryDomainId, recoverySequence, recoveryReceiptSha256,
                         dataInventorySha256 } }
    | _ => .error (.valueError "snapshot ledger high-watermark is invalid")
  | _, _ => .error (.valueError "snapshot manifest sequence or timestamp is invalid")

/-- `==` of one account's watermark and a value. -/
def HighWatermark.equals (highWatermark : HighWatermark) : Json → Bool
  | .obj fields =>
    hasKeys fields ["generation", "state", "lifecycleGeneration", "deletedGeneration"] &&
      equalsInt (field fields "generation") highWatermark.generation &&
      equalsStr (field fields "state") (stateText highWatermark.state) &&
      equalsInt (field fields "lifecycleGeneration") highWatermark.lifecycleGeneration &&
      equalsInt (field fields "deletedGeneration") highWatermark.deletedGeneration
  | _ => false

/-- `==` of a watermark and an object. -/
def watermarkEquals (watermark : Watermark) (fields : List (Str × Json)) : Bool :=
  watermark.length == fields.length &&
    watermark.all fun (digest, highWatermark) =>
      (fields.lookup digest).any (HighWatermark.equals highWatermark)

/-- `validate_snapshot_copy`. The watermark the schema holds equals the one that
is computed, which stands for it from here on. -/
def validateSnapshotCopy (host : Host) (data ledger : Tree) (schema : ManifestSchema) :
    Except Failure Watermark := do
  let watermark ← validateDataAgainstLedger host data ledger
  check (watermarkEquals watermark schema.ledgerHighWatermark = true)
    (.valueError "snapshot ledger high-watermark mismatch")
  let lineage ← validateRecoveryLineage host data ledger
  check (lineage = schema.lineage) (.valueError "snapshot recovery lineage mismatch")
  unchanged host data ledger schema.dataInventory schema.ledgerInventory
    (.valueError "snapshot validation changed copied storage")
  .ok watermark

/-- What a snapshot directory holds while it is verified: when it is read and
listed, when it is copied, and when it is listed again. -/
structure Reading where
  listed : Snapshot
  copied : Snapshot
  listedAgain : Snapshot

/-- A directory nobody changes meanwhile. -/
def Snapshot.still (snapshot : Snapshot) : Reading := ⟨snapshot, snapshot, snapshot⟩

def verifySnapshot (host : Host) (umask : Mode) (reading : Reading) (expectedDigest : Option Str) :
    Except Failure Manifest := do
  let (fields, manifestDigest) ← readSnapshotManifest host reading.listed expectedDigest
  let schema ← validateManifestSchema fields
  let dataInventory ← inventory host reading.listed.data
  let ledgerInventory ← inventory host reading.listed.ledger
  check (dataInventory = schema.dataInventory ∧ ledgerInventory = schema.ledgerInventory)
    (.valueError "snapshot inventory mismatch")
  let dataCopy ← copyInventory host umask reading.copied.data dataInventory
  let ledgerCopy ← copyInventory host umask reading.copied.ledger ledgerInventory
  let ledgerHighWatermark ← validateSnapshotCopy host dataCopy ledgerCopy schema
  unchanged host reading.listedAgain.data reading.listedAgain.ledger dataInventory ledgerInventory
    (.valueError "snapshot inventory changed during verification")
  check (host.sha256 reading.listedAgain.manifest = manifestDigest)
    (.valueError "snapshot manifest changed during verification")
  .ok { createdAtUnixNs := schema.createdAtUnixNs, dataInventory, ledgerInventory,
        ledgerHighWatermark, lineage := schema.lineage }

/-! ## Restore -/

def mutableLedgerFile (path : Str) : Bool :=
  (lifecycleFile (name path)).isSome || (tombstoneFile (name path)).isSome

/-- `newer_rank < older_rank`, of pairs. -/
def staleRank (newer older : HighWatermark) : Bool :=
  newer.generation < older.generation ||
    (newer.generation == older.generation && newer.state != .deleted && older.state == .deleted)

/-- One account of the loop in `require_ledger_dominates`. -/
def requireAccountDominates (trusted : Watermark) : Str × HighWatermark → Except Failure Unit
  | (digest, older) =>
    match trusted.lookup digest with
    | none => .error (.valueError "trusted ledger rolls back deletion watermark")
    | some newer => do
      check (older.deletedGeneration ≤ newer.deletedGeneration)
        (.valueError "trusted ledger rolls back deletion watermark")
      check (staleRank newer older = false) (.valueError "trusted ledger is stale")

/-- One entry of its second loop; a later entry of a path wins. -/
def requireImmutableEntry (trusted : List Entry) (item : Entry) : Except Failure Unit :=
  check (item.isFile = true → mutableLedgerFile item.path = false →
      (trusted.filter Entry.isFile).reverse.find? (·.path = item.path) = some item)
    (.valueError "trusted ledger omits immutable inventory")

def requireLedgerDominates (trusted baseline : Manifest) : Except Failure Unit := do
  check (trusted.lineage.recoveryDomainId = baseline.lineage.recoveryDomainId)
    (.valueError "trusted ledger belongs to a different recovery domain")
  checkAll (requireAccountDominates trusted.ledgerHighWatermark) baseline.ledgerHighWatermark
  check (baseline.lineage.recoverySequence ≤ trusted.lineage.recoverySequence)
    (.valueError "trusted ledger rolls back recovery sequence")
  checkAll (requireImmutableEntry trusted.ledgerInventory) baseline.ledgerInventory

/-- What a snapshot directory holds during a restore: while it is verified, when
it is copied, and while it is verified again. -/
structure RestoreReading where
  verified : Reading
  copied : Snapshot
  verifiedAgain : Reading

def Snapshot.stillRestored (snapshot : Snapshot) : RestoreReading :=
  ⟨snapshot.still, snapshot, snapshot.still⟩

/-- The directories a restore installs. -/
structure Restored where
  data : Tree
  ledger : Tree
  deriving DecidableEq

/-- `restore_snapshot`, to two new directories. -/
def restoreSnapshot (host : Host) (umask : Mode) (snapshot ledgerSnapshot : RestoreReading)
    (dataDigest ledgerDigest : Str) : Except Failure Restored := do
  let manifest ← verifySnapshot host umask snapshot.verified (some dataDigest)
  let ledgerManifest ← verifySnapshot host umask ledgerSnapshot.verified (some ledgerDigest)
  requireLedgerDominates ledgerManifest manifest
  let ledger ← copyInventory host umask ledgerSnapshot.copied.ledger ledgerManifest.ledgerInventory
  let data ← copyInventory host umask snapshot.copied.data manifest.dataInventory
  let _ ← validateDataAgainstLedger host data ledger
  let lineage ← validateRecoveryLineage host data ledger
  check (lineage = manifest.lineage)
    (.valueError "selected data is not linked to trusted ledger recovery sequence")
  let dataNow ← inventory host data
  check (dataNow = manifest.dataInventory)
    (.runtimeError "restored data changed during validation")
  let ledgerNow ← inventory host ledger
  check (ledgerNow = ledgerManifest.ledgerInventory)
    (.runtimeError "restored ledger changed during validation")
  let _ ← verifySnapshot host umask snapshot.verifiedAgain (some dataDigest)
  let _ ← verifySnapshot host umask ledgerSnapshot.verifiedAgain (some ledgerDigest)
  .ok { data, ledger }

end Pomodorough.Restore.Snapshots
