import TradingBot.Foundation.Text

/-!
# The audit trail

The trail that records state changes, from `src/backend/security/audit_trail.rs`. An entry carries
the SHA-256 digest of its fields, which include the digest of the entry before it, and an HMAC of
that digest under the trail's key.
-/

open Text

namespace TradingBot.Security

/-- The two primitives the trail takes from its libraries, on bytes. -/
structure Crypto where
  /-- `Sha256::digest`. -/
  sha256 : List UInt8 → List UInt8
  /-- `HmacSha256`: a key, of any length, and a message. -/
  hmac : List UInt8 → List UInt8 → List UInt8

/-- `AuditEntry`. -/
structure AuditEntry where
  id : UInt64
  /-- Unix epoch milliseconds. -/
  timestamp : UInt64
  eventType : String
  data : String
  previousHash : String
  entryHash : String
  signature : String
  deriving DecidableEq, Repr

/-- `AuditError`, without the errors it wraps. -/
inductive AuditError where
  | io
  | json
  | invalidKeyLength
  | integrityViolation
  deriving DecidableEq, Repr

/-- The lines of a log file, each as the entry that `serde_json::from_str` reads from it, if any. -/
abbrev LogFile := List (Option AuditEntry)

/-- Whether the log file takes a line. -/
inductive Disk where
  | writes
  | refuses
  deriving DecidableEq, Repr

def maxMemoryEntries : Nat := 10000

/-- `AuditTrail`, with what the file at `log_path` holds: nothing until it exists. -/
structure AuditTrail where
  entries : List AuditEntry
  logFile : Option LogFile
  signingKey : List UInt8
  entryCounter : UInt64
  lastHash : String
  totalEntries : UInt64

/-- The text that an entry's hash is taken of. -/
def AuditEntry.content (entry : AuditEntry) : String :=
  s!"{entry.id}:{entry.timestamp}:{entry.eventType}:{entry.data}:{entry.previousHash}"

/-- The hash an entry is to have. -/
def Crypto.entryHash (crypto : Crypto) (entry : AuditEntry) : String :=
  hexEncode (crypto.sha256 (asBytes entry.content))

/-- The signature of an entry hash. -/
def Crypto.sign (crypto : Crypto) (key : List UInt8) (entryHash : String) : String :=
  hexEncode (crypto.hmac key (asBytes entryHash))

/-- The entries in memory after one more: the oldest leaves when there is no room. -/
def remember (entries : List AuditEntry) (entry : AuditEntry) : List AuditEntry :=
  (if maxMemoryEntries ≤ entries.length then entries.drop 1 else entries) ++ [entry]

/-- One line of `load_existing_entries`. -/
def AuditTrail.loadLine (trail : AuditTrail) : Option AuditEntry → Except AuditError AuditTrail
  | none => .error .json
  | some entry => .ok
    { trail with
      lastHash := entry.entryHash
      totalEntries := trail.totalEntries + 1
      entryCounter :=
        if trail.entryCounter ≤ entry.id then entry.id + 1 else trail.entryCounter
      entries := remember trail.entries entry }

/-- `AuditTrail::new`, on what the file at `log_path` holds. -/
def AuditTrail.new (logFile : Option LogFile) (signingKey : List UInt8) :
    Except AuditError AuditTrail :=
  (logFile.getD []).foldlM AuditTrail.loadLine
    { entries := [], logFile, signingKey, entryCounter := 0, lastHash := "genesis",
      totalEntries := 0 }

/-- The entry that `record` makes at a reading of the clock, in milliseconds. -/
def AuditTrail.newEntry (crypto : Crypto) (trail : AuditTrail) (millis : Nat)
    (eventType data : String) : AuditEntry :=
  let unsigned : AuditEntry :=
    { id := trail.entryCounter
      timestamp := UInt64.ofNat millis
      eventType, data
      previousHash := trail.lastHash
      entryHash := ""
      signature := "" }
  let entryHash := crypto.entryHash unsigned
  { unsigned with entryHash, signature := crypto.sign trail.signingKey entryHash }

/-- `persist_entry`: the line is appended to the log file, which is made if there is none. -/
def AuditTrail.persistEntry (trail : AuditTrail) (entry : AuditEntry) :
    Disk → Except AuditError AuditTrail
  | .writes => .ok { trail with logFile := some (trail.logFile.getD [] ++ [some entry]) }
  | .refuses => .error .io

/-- `record`. The chain in memory has moved on by the time the line is written. -/
def AuditTrail.record (crypto : Crypto) (trail : AuditTrail) (millis : Nat)
    (eventType data : String) (disk : Disk) : Except AuditError AuditEntry × AuditTrail :=
  let entry := trail.newEntry crypto millis eventType data
  let moved :=
    { trail with
      entryCounter := trail.entryCounter + 1
      lastHash := entry.entryHash
      totalEntries := trail.totalEntries + 1
      entries := remember trail.entries entry }
  match moved.persistEntry entry disk with
  | .ok persisted => (.ok entry, persisted)
  | .error error => (.error error, moved)

/-- The lines that `verify_integrity` has yet to read, after a line with the hash `prevHash`. -/
def verifyLines (crypto : Crypto) (key : List UInt8) :
    String → LogFile → Except AuditError Bool
  | _, [] => .ok true
  | _, none :: _ => .error .json
  | prevHash, some entry :: rest =>
    if entry.previousHash ≠ prevHash then
      .ok false
    else if entry.entryHash ≠ crypto.entryHash entry then
      .ok false
    else if entry.signature ≠ crypto.sign key entry.entryHash then
      .ok false
    else
      verifyLines crypto key entry.entryHash rest

/-- `verify_integrity`. The number of lines it counts is compared with nothing. -/
def AuditTrail.verifyIntegrity (crypto : Crypto) (trail : AuditTrail) : Except AuditError Bool :=
  match trail.logFile with
  | none => .ok true
  | some lines => verifyLines crypto trail.signingKey "genesis" lines

end TradingBot.Security
