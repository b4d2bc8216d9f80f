import AgenticSoc.BlackboardRecord
import Mathlib.Data.Rat.Defs
import Mathlib.Data.List.Sort
import Mathlib.Data.String.Basic

/-!
# One replica's tables and their transactions

Each table is the list of its rows in insertion order. A transaction reads and
edits the tables and either succeeds with the new tables or raises, in which case
the caller keeps the old ones: nothing of a failed transaction is visible. SQL
statements are the small edits below under the names of what they do.
-/
namespace BlackboardStorage

open BlackboardRecord

/-- The object serialised in the `record_json` column of a staged proposal. -/
structure StagedRecord where
  schemaVersion : String
  recordId : String
  recordKey : String
  recordType : BlackboardRecordType
  recordVersion : Nat
  logicalTimestamp : Option String
  windowId : Option Nat
  authorId : String
  sourceComponent : String
  payloadJson : String
  provenanceJson : String
  contentHash : String
  deriving DecidableEq, Repr

structure CommittedRow extends StagedRecord where
  operationId : String
  committedAtUtc : String
  deriving DecidableEq, Repr

structure PendingRow where
  recordKey : String
  recordVersion : Nat
  recordId : String
  contentHash : String
  operationId : String
  recordJson : StagedRecord
  createdAtUtc : String
  createdEpoch : Rat
  deriving DecidableEq, Repr

structure Tables where
  committedRecords : List CommittedRow
  keyHeads : List (String × Nat)
  pendingPrepares : List PendingRow
  deriving DecidableEq, Repr

def emptyTables : Tables := ⟨[], [], []⟩

/-- An exception raised by a statement, with its text. -/
structure StorageError where
  message : String
  deriving DecidableEq, Repr

def overflowError : StorageError := ⟨"OverflowError: Python int too large to convert to SQLite INTEGER"⟩

/-- SQLite integers are 64-bit signed values. -/
def fitsInteger (n : Nat) : Bool := n < 2 ^ 63

inductive PrepareOutcome where
  | prepared | preparedLeaseTakeover | rejectStale | rejectAhead | rejectConflict
  deriving DecidableEq, Repr

structure PrepareResult where
  outcome : PrepareOutcome
  currentVersion : Option Nat
  conflictingOperationId : Option String
  deriving DecidableEq, Repr

inductive CommitOutcome where
  | committed | unknownOperation | refusedNonForward
  deriving DecidableEq, Repr

inductive UpsertStatus where
  | inserted | identical | refused
  deriving DecidableEq, Repr

structure UpsertExternalResult where
  status : UpsertStatus
  detail : Option String
  deriving DecidableEq, Repr

/-! ## Reads -/

def getHeadVersion (t : Tables) (recordKey : String) : Option Nat :=
  (t.keyHeads.find? fun h => h.1 = recordKey).map Prod.snd

/-- A missing head is head zero. -/
def head (t : Tables) (recordKey : String) : Nat := (getHeadVersion t recordKey).getD 0

def getCommittedRow (t : Tables) (recordKey : String) (recordVersion : Nat) : Option CommittedRow :=
  t.committedRecords.find? fun r => r.recordKey = recordKey ∧ r.recordVersion = recordVersion

/-- One step of `ORDER BY record_version DESC LIMIT 1`. -/
def newest (best : Option CommittedRow) (row : CommittedRow) : Option CommittedRow :=
  match best with
  | none => some row
  | some b => if b.recordVersion < row.recordVersion then some row else some b

def getHeadRow (t : Tables) (recordKey : String) : Option CommittedRow :=
  (t.committedRecords.filter fun r => r.recordKey = recordKey).foldl newest none

def getPendingRow (t : Tables) (recordKey : String) (recordVersion : Nat) : Option PendingRow :=
  t.pendingPrepares.find? fun p => p.recordKey = recordKey ∧ p.recordVersion = recordVersion

/-- The `LIKE` operator: `%` matches any run, `_` one character, ASCII letters
match in either case. -/
def likeMatch : List Char → List Char → Bool
  | [], s => s.isEmpty
  | c :: p, s =>
    if c = '%' then s.tails.any (likeMatch p)
    else match s with
      | [] => false
      | d :: s' => (c = '_' || c.toLower = d.toLower) && likeMatch p s'

def rowBefore (a b : CommittedRow) : Prop :=
  a.recordKey < b.recordKey ∨ (a.recordKey = b.recordKey ∧ a.recordVersion ≤ b.recordVersion)

instance : DecidableRel rowBefore := fun a b =>
  inferInstanceAs (Decidable (a.recordKey < b.recordKey ∨
    (a.recordKey = b.recordKey ∧ a.recordVersion ≤ b.recordVersion)))

/-- Bounded projection of the committed rows in key and version order. -/
def iterCommittedRows (t : Tables) (keyStart : Option String) (limit offset : Nat) :
    List CommittedRow :=
  let rows := match keyStart with
    | none => t.committedRecords
    | some p => t.committedRecords.filter fun r => likeMatch (p ++ "%").toList r.recordKey.toList
  ((rows.insertionSort rowBefore).drop offset).take (min limit 10000)

/-! ## Statements -/

def inSlot (recordKey : String) (recordVersion : Nat) (p : PendingRow) : Bool :=
  p.recordKey = recordKey && p.recordVersion = recordVersion

/-- `UPDATE pending_prepares SET operation_id, created_at_utc, created_epoch`. -/
def updatePending (t : Tables) (recordKey : String) (recordVersion : Nat)
    (operationId createdAtUtc : String) (nowEpoch : Rat) : Tables :=
  { t with pendingPrepares := t.pendingPrepares.map fun p =>
      if inSlot recordKey recordVersion p then
        { p with operationId := operationId, createdAtUtc := createdAtUtc,
                 createdEpoch := nowEpoch }
      else p }

def deletePending (t : Tables) (recordKey : String) (recordVersion : Nat) : Tables :=
  { t with pendingPrepares := t.pendingPrepares.filter fun p => !inSlot recordKey recordVersion p }

def insertPending (t : Tables) (p : PendingRow) : Tables :=
  { t with pendingPrepares := t.pendingPrepares ++ [p] }

/-- Insert with the column types, the primary key and the unique record index
checked. -/
def insertCommitted (t : Tables) (row : CommittedRow) : Except StorageError Tables :=
  if !(fitsInteger row.recordVersion && row.windowId.all fitsInteger) then .error overflowError
  else if t.committedRecords.any fun r =>
      r.recordKey = row.recordKey ∧ r.recordVersion = row.recordVersion then
    .error ⟨"IntegrityError: UNIQUE constraint failed: committed_records.record_key, committed_records.record_version"⟩
  else if t.committedRecords.any fun r => r.recordId = row.recordId then
    .error ⟨"IntegrityError: UNIQUE constraint failed: committed_records.record_id"⟩
  else .ok { t with committedRecords := t.committedRecords ++ [row] }

/-- `INSERT INTO key_heads ... ON CONFLICT(record_key) DO UPDATE`. -/
def setHead (t : Tables) (recordKey : String) (headVersion : Nat) : Tables :=
  { t with keyHeads :=
      if t.keyHeads.any fun h => h.1 = recordKey then
        t.keyHeads.map fun h => if h.1 = recordKey then (h.1, headVersion) else h
      else t.keyHeads ++ [(recordKey, headVersion)] }

/-! ## Transactions -/

/-- Atomic compare-and-stage of one proposal: the target version must be the head
plus one, a live lease of other content in the slot is a conflict, an expired one
is taken over, and the same content is staged again under the new operation. -/
def prepareInsert (t : Tables) (recordKey : String) (recordVersion : Nat)
    (recordId contentHash operationId : String) (recordJson : StagedRecord)
    (createdAtUtc : String) (nowEpoch leaseSeconds : Rat) :
    Except StorageError (Tables × PrepareResult) :=
  let current := head t recordKey
  if recordVersion ≤ current then .ok (t, ⟨.rejectStale, some current, none⟩)
  else if recordVersion ≠ current + 1 then .ok (t, ⟨.rejectAhead, some current, none⟩)
  else if !fitsInteger recordVersion then .error overflowError
  else
    let row : PendingRow :=
      { recordKey := recordKey, recordVersion := recordVersion, recordId := recordId,
        contentHash := contentHash, operationId := operationId, recordJson := recordJson,
        createdAtUtc := createdAtUtc, createdEpoch := nowEpoch }
    match getPendingRow t recordKey recordVersion with
    | none => .ok (insertPending t row, ⟨.prepared, some current, none⟩)
    | some pending =>
      if pending.recordId = recordId then
        .ok (updatePending t recordKey recordVersion operationId createdAtUtc nowEpoch,
          ⟨.prepared, some current, none⟩)
      else if leaseSeconds < nowEpoch - pending.createdEpoch then
        .ok (insertPending (deletePending t recordKey recordVersion) row,
          ⟨.preparedLeaseTakeover, some current, none⟩)
      else .ok (t, ⟨.rejectConflict, some current, some pending.operationId⟩)

/-- Atomically move a prepared proposal into committed state. -/
def commitPromote (t : Tables) (recordKey : String) (recordVersion : Nat)
    (recordId operationId committedAtUtc : String) :
    Except StorageError (Tables × CommitOutcome) :=
  if !fitsInteger recordVersion then .error overflowError
  else match getPendingRow t recordKey recordVersion with
  | none => .ok (t, .unknownOperation)
  | some pending =>
    if pending.operationId ≠ operationId ∨ pending.recordId ≠ recordId then
      .ok (t, .unknownOperation)
    else if recordVersion ≠ head t recordKey + 1 then .ok (t, .refusedNonForward)
    else
      let row : CommittedRow :=
        { toStagedRecord := pending.recordJson
          operationId := operationId
          committedAtUtc := committedAtUtc }
      match insertCommitted (deletePending t recordKey recordVersion) row with
      | .error e => .error e
      | .ok t' => .ok (setHead t' recordKey recordVersion, .committed)

/-- Remove a pending proposal; with an operation id only that operation's staging.
The flag says whether a row was removed. -/
def abortPending (t : Tables) (recordKey : String) (recordVersion : Nat)
    (operationId : Option String) : Except StorageError (Tables × Bool) :=
  if !fitsInteger recordVersion then .error overflowError
  else
    let hit (p : PendingRow) : Bool :=
      inSlot recordKey recordVersion p && operationId.all fun op => p.operationId = op
    .ok ({ t with pendingPrepares := t.pendingPrepares.filter fun p => !hit p },
      t.pendingPrepares.any hit)

/-- Explicit replication repair: insert only at the head plus one, and leave an
existing row alone. -/
def upsertCommittedExternal (t : Tables) (values : CommittedRow) :
    Except StorageError (Tables × UpsertExternalResult) :=
  if !fitsInteger values.recordVersion then .error overflowError
  else match getCommittedRow t values.recordKey values.recordVersion with
  | some existing =>
    if existing.recordId = values.recordId then .ok (t, ⟨.identical, none⟩)
    else .ok (t, ⟨.refused, some "different content already committed at slot"⟩)
  | none =>
    if values.recordVersion ≠ head t values.recordKey + 1 then
      .ok (t, ⟨.refused, some ("non-forward insert (local head=" ++
        Nat.repr (head t values.recordKey) ++ ")")⟩)
    else match insertCommitted t values with
    | .error e => .error e
    | .ok t' =>
      .ok (deletePending (setHead t' values.recordKey values.recordVersion)
        values.recordKey values.recordVersion, ⟨.inserted, none⟩)

end BlackboardStorage
