import AgenticSoc.BlackboardStorageInvariant
import Mathlib.Data.Fintype.Card

/-!
# One replica: health, acknowledgements and operations

A replica object answers each operation with an explicit acknowledgement. An
unavailable replica refuses before it touches its store; a fault hook may fail
the operation first and may substitute the record of a prepare; a storage fault
rolls the transaction back. Everything that reaches the store has passed the
integrity check, so a replica's store holds storage forms of verified records
only, and the store type carries that.
-/
namespace BlackboardReplica

open BlackboardRecord BlackboardStorage

inductive ReplicaId where
  | replicaA | replicaB | replicaC
  deriving DecidableEq, Repr

instance : Fintype ReplicaId where
  elems := {.replicaA, .replicaB, .replicaC}
  complete := by
    intro ρ
    cases ρ <;> decide

inductive ReplicaHealth where
  | healthy | unavailable | diverged
  deriving DecidableEq, Repr

structure ReplicaStatus where
  health : ReplicaHealth
  unavailableReason : Option String
  divergenceHistory : List String
  deriving DecidableEq, Repr

/-- A replica object as its constructor leaves it. -/
def newStatus : ReplicaStatus := ⟨.healthy, none, []⟩

/-- The constructor arguments of a replica object. -/
structure ReplicaSettings where
  maxRecordBytes : Nat
  pendingLeaseSeconds : Rat
  divergenceHistoryLimit : Nat

def setUnavailable (reason : String) (st : ReplicaStatus) : ReplicaStatus :=
  { st with health := .unavailable, unavailableReason := some reason }

def setAvailable (st : ReplicaStatus) : ReplicaStatus :=
  { st with health := .healthy, unavailableReason := none }

/-- The history is a bounded queue that drops its oldest entries. -/
def markDiverged (limit : Nat) (detail : String) (st : ReplicaStatus) : ReplicaStatus :=
  { st with
    health := .diverged
    divergenceHistory := (st.divergenceHistory ++ [detail]).drop
      (st.divergenceHistory.length + 1 - limit) }

def clearDivergence (st : ReplicaStatus) : ReplicaStatus :=
  if st.health = .diverged then { st with health := .healthy } else st

inductive AckStatus where
  | ackPrepared | ackCommitted | aborted | rejectStale | rejectConflict | rejectSchema
  | rejectIntegrity | rejectAuthorization | unavailable | storageError
  deriving DecidableEq, Repr

def AckStatus.value : AckStatus → String
  | .ackPrepared => "ACK_PREPARED"
  | .ackCommitted => "ACK_COMMITTED"
  | .aborted => "ABORTED"
  | .rejectStale => "REJECT_STALE"
  | .rejectConflict => "REJECT_CONFLICT"
  | .rejectSchema => "REJECT_SCHEMA"
  | .rejectIntegrity => "REJECT_INTEGRITY"
  | .rejectAuthorization => "REJECT_AUTHORIZATION"
  | .unavailable => "UNAVAILABLE"
  | .storageError => "STORAGE_ERROR"

inductive ReplicaOperationKind where
  | prepare | commit | abort | externalUpsert
  deriving DecidableEq, Repr

structure ReplicaAckV1 where
  operationId : String
  replicaId : ReplicaId
  operationKind : ReplicaOperationKind
  ackStatus : AckStatus
  reason : Option String
  recordId : Option String
  recordKey : Option String
  recordVersion : Option Nat
  contentHash : Option String
  logicalTimestamp : Option String
  currentVersionAtReplica : Option Nat
  deriving DecidableEq, Repr

/-- Python's `or` on an optional text: an empty text gives way to the default. -/
def textOr (text : Option String) (default : String) : String :=
  match text with
  | some s => if s = "" then default else s
  | none => default

/-- How one operation may fail: the hook reports unavailability or raises, or a
statement of the transaction raises. -/
inductive Fault where
  | hookUnavailable (message : String)
  | hookError (message : String)
  | storageError (message : String)
  deriving DecidableEq, Repr

/-- What the record hook returns: nothing, another record, or something else. -/
inductive Intercept (V : Type) where
  | original
  | substitute (record : BlackboardRecordV1 V)
  | foreign

/-- What one operation meets: a fault, the clock and the hook's answer. -/
structure Env (V : Type) where
  fault : Option Fault
  now : Rat
  utc : String
  intercept : Intercept V

variable {V : Type} (cd : RecordCodec V)

def fullRecordJson (r : BlackboardRecordV1 V) : StagedRecord :=
  { schemaVersion := r.schemaVersion
    recordId := r.recordId
    recordKey := r.recordKey
    recordType := r.recordType
    recordVersion := r.recordVersion
    logicalTimestamp := r.logicalTimestamp
    windowId := r.windowId
    authorId := r.authorId
    sourceComponent := r.sourceComponent
    payloadJson := cd.canonicalJsonStr r.payload
    provenanceJson := cd.canonicalJsonStr r.provenance
    contentHash := r.contentHash }

/-- The committed row of a record inserted by repair. -/
def recordToStorageValues (r : BlackboardRecordV1 V) (operationId committedAtUtc : String) :
    CommittedRow :=
  { toStagedRecord := fullRecordJson cd r, operationId := operationId,
    committedAtUtc := committedAtUtc }

/-- Rebuild a record from its row: parse, validate, and compare the stored bytes
with the canonical form of what was parsed. -/
def rowToRecord (row : CommittedRow) : Except String (BlackboardRecordV1 V) :=
  match cd.loads row.payloadJson, cd.loads row.provenanceJson with
  | some payload, some provenance =>
    let r : BlackboardRecordV1 V :=
      { schemaVersion := row.schemaVersion
        recordKey := row.recordKey
        recordType := row.recordType
        recordVersion := row.recordVersion
        logicalTimestamp := row.logicalTimestamp
        windowId := row.windowId
        authorId := row.authorId
        sourceComponent := row.sourceComponent
        payload := payload
        provenance := provenance
        recordId := row.recordId
        contentHash := row.contentHash }
    match validateRecord cd r with
    | .error e => .error e
    | .ok () =>
      if cd.canonicalJsonStr payload ≠ row.payloadJson ∨
          cd.canonicalJsonStr provenance ≠ row.provenanceJson then
        .error ("stored serialization drift for " ++ row.recordId)
      else .ok r
  | _, _ => .error "stored payload or provenance is not JSON"

/-- A row that loads is the storage form of the verified record it loads as. -/
theorem rowToRecord_ok {row : CommittedRow} {r : BlackboardRecordV1 V}
    (h : rowToRecord cd row = .ok r) :
    fullRecordJson cd r = row.toStagedRecord ∧ Verified cd r := by
  unfold rowToRecord at h
  cases hp : cd.loads row.payloadJson with
  | none => simp [hp] at h
  | some payload =>
    cases hq : cd.loads row.provenanceJson with
    | none => simp [hp, hq] at h
    | some provenance =>
      simp only [hp, hq] at h
      split at h
      · cases h
      · rename_i hv
        split at h
        · cases h
        · rename_i hsame
          cases h
          push Not at hsame
          refine ⟨?_, verified_of_validateRecord cd hv⟩
          unfold fullRecordJson
          rw [hsame.1, hsame.2]

/-- The storage form of a verified record. -/
def Genuine (s : StagedRecord) : Prop := ∃ r, Verified cd r ∧ s = fullRecordJson cd r

/-- A replica's store: valid tables that hold genuine records only. -/
structure ReplicaDatabase where
  tables : Tables
  valid : Valid tables
  genuine : Sourced (Genuine cd) tables

def emptyDatabase : ReplicaDatabase cd where
  tables := emptyTables
  valid := valid_empty
  genuine := ⟨fun _ hr => absurd hr List.not_mem_nil, fun _ hp => absurd hp List.not_mem_nil⟩

/-! ## Operations -/

section Operations

variable (ρ : ReplicaId) (st : ReplicaStatus) (e : Env V)

def baseAck (operationId : String) (kind : ReplicaOperationKind) (status : AckStatus)
    (record : Option (BlackboardRecordV1 V)) (reason : Option String)
    (currentVersionAtReplica : Option Nat) : ReplicaAckV1 :=
  { operationId := operationId
    replicaId := ρ
    operationKind := kind
    ackStatus := status
    reason := reason
    recordId := record.map fun r => r.recordId
    recordKey := record.map fun r => r.recordKey
    recordVersion := record.map fun r => r.recordVersion
    contentHash := record.map fun r => r.contentHash
    logicalTimestamp := record.bind fun r => r.logicalTimestamp
    currentVersionAtReplica := currentVersionAtReplica }

/-- The acknowledgement of an operation that ends before its transaction: the
replica is marked unavailable or the hook fails. -/
def refusal (operationId : String) (kind : ReplicaOperationKind)
    (record : Option (BlackboardRecordV1 V)) : Option ReplicaAckV1 :=
  if st.health = .unavailable then
    some (baseAck ρ operationId kind .unavailable record
      (some (textOr st.unavailableReason "replica marked unavailable")) none)
  else match e.fault with
  | some (.hookUnavailable m) =>
    some (baseAck ρ operationId kind .unavailable record
      (some ("hook simulated unavailability: " ++ m)) none)
  | some (.hookError m) => some (baseAck ρ operationId kind .storageError record (some m) none)
  | _ => none

/-- The transaction under its storage fault. -/
def guarded {α : Type} (r : Except StorageError α) : Except StorageError α :=
  match e.fault with
  | some (.storageError m) => .error ⟨m⟩
  | _ => r

/-- The acknowledgement of a prepare transaction. -/
def prepareAck (operationId : String) (staged : BlackboardRecordV1 V) (res : PrepareResult) :
    ReplicaAckV1 :=
  let current := Nat.repr (res.currentVersion.getD 0)
  match res.outcome with
  | .prepared => baseAck ρ operationId .prepare .ackPrepared (some staged) none none
  | .preparedLeaseTakeover =>
    baseAck ρ operationId .prepare .ackPrepared (some staged)
      (some "took over expired pending lease") none
  | .rejectStale =>
    baseAck ρ operationId .prepare .rejectStale (some staged)
      (some ("current committed version is " ++ current)) res.currentVersion
  | .rejectAhead =>
    baseAck ρ operationId .prepare .rejectSchema (some staged)
      (some ("expected_version ahead of committed state (current=" ++ current ++ ")"))
      res.currentVersion
  | .rejectConflict =>
    baseAck ρ operationId .prepare .rejectConflict (some staged)
      (some ("a different proposal holds this (key, next-version) slot (pending operation " ++
        res.conflictingOperationId.getD "None" ++ ")")) res.currentVersion

/-- Stage a record that came through the hook. -/
def stageRecord (cfg : ReplicaSettings) (operationId : String) (staged : BlackboardRecordV1 V)
    (t : Tables) : Tables × ReplicaAckV1 :=
  match verifyRecordIntegrity cd staged with
  | .error .unserialisable =>
    (t, baseAck ρ operationId .prepare .storageError (some staged)
      (some "record content is not canonically serializable") none)
  | .error (.mismatch m) =>
    (t, baseAck ρ operationId .prepare .rejectIntegrity (some staged)
      (some ("integrity verification failed: " ++ m)) none)
  | .ok () =>
    match runChecks [firewallCheck cd "payload" staged.payload,
        firewallCheck cd "provenance" staged.provenance],
      ensureRecordSize cd staged cfg.maxRecordBytes with
    | .error m, _ =>
      (t, baseAck ρ operationId .prepare .rejectSchema (some staged) (some m) none)
    | .ok (), .error m =>
      (t, baseAck ρ operationId .prepare .rejectSchema (some staged) (some m) none)
    | .ok (), .ok () =>
      match guarded e (prepareInsert t staged.recordKey staged.recordVersion staged.recordId
          staged.contentHash operationId (fullRecordJson cd staged) e.utc e.now
          cfg.pendingLeaseSeconds) with
      | .error err =>
        (t, baseAck ρ operationId .prepare .storageError (some staged) (some err.message) none)
      | .ok (t', res) => (t', prepareAck ρ operationId staged res)

def prepare (cfg : ReplicaSettings) (operationId : String) (record : BlackboardRecordV1 V)
    (t : Tables) : Tables × ReplicaAckV1 :=
  match refusal ρ st e operationId .prepare (some record) with
  | some ack => (t, ack)
  | none =>
    match e.intercept with
    | .foreign =>
      (t, baseAck ρ operationId .prepare .rejectSchema (none : Option (BlackboardRecordV1 V))
        (some "staged object is not a BlackboardRecordV1") none)
    | .original => stageRecord cd ρ e cfg operationId record t
    | .substitute staged => stageRecord cd ρ e cfg operationId staged t

/-- Promote the replica's staged intent; the flag of a failed promotion is in the
reason. -/
def commit (operationId : String) (record : BlackboardRecordV1 V) (t : Tables) :
    Tables × ReplicaAckV1 :=
  match refusal ρ st e operationId .commit (some record) with
  | some ack => (t, ack)
  | none =>
    match guarded e (commitPromote t record.recordKey record.recordVersion record.recordId
        operationId e.utc) with
    | .error err =>
      (t, baseAck ρ operationId .commit .storageError (some record) (some err.message) none)
    | .ok (t', .committed) =>
      (t', baseAck ρ operationId .commit .ackCommitted (some record) none none)
    | .ok (t', .unknownOperation) =>
      (t', baseAck ρ operationId .commit .storageError (some record)
        (some "commit could not find matching prepared intent (UNKNOWN_OPERATION)") none)
    | .ok (t', .refusedNonForward) =>
      (t', baseAck ρ operationId .commit .storageError (some record)
        (some "commit could not find matching prepared intent (REFUSED_NON_FORWARD)") none)

def abort (operationId recordKey : String) (recordVersion : Nat) (t : Tables) :
    Tables × ReplicaAckV1 :=
  match refusal ρ st e operationId .abort none with
  | some ack => (t, ack)
  | none =>
    match guarded e (abortPending t recordKey recordVersion (some operationId)) with
    | .error err =>
      (t, baseAck ρ operationId .abort .storageError (none : Option (BlackboardRecordV1 V))
        (some err.message) none)
    | .ok (t', removed) =>
      (t', baseAck ρ operationId .abort .aborted (none : Option (BlackboardRecordV1 V))
        (if removed then none else some "no matching pending row (idempotent)") none)

/-- Explicit replication repair entry point. -/
def upsertExternal (operationId : String) (record : BlackboardRecordV1 V) (t : Tables) :
    Tables × ReplicaAckV1 :=
  match refusal ρ st e operationId .externalUpsert (some record) with
  | some ack => (t, ack)
  | none =>
    match verifyRecordIntegrity cd record with
    | .error .unserialisable =>
      (t, baseAck ρ operationId .externalUpsert .storageError (some record)
        (some "record content is not canonically serializable") none)
    | .error (.mismatch m) =>
      (t, baseAck ρ operationId .externalUpsert .storageError (some record)
        (some ("RecordIntegrityError: " ++ m)) none)
    | .ok () =>
      match guarded e (upsertCommittedExternal t
          (recordToStorageValues cd record operationId e.utc)) with
      | .error err =>
        (t, baseAck ρ operationId .externalUpsert .storageError (some record)
          (some err.message) none)
      | .ok (t', ⟨.inserted, _⟩) =>
        (t', baseAck ρ operationId .externalUpsert .ackCommitted (some record)
          (some "inserted by explicit reconciliation") none)
      | .ok (t', ⟨.identical, _⟩) =>
        (t', baseAck ρ operationId .externalUpsert .ackCommitted (some record)
          (some "already identical") none)
      | .ok (t', ⟨.refused, detail⟩) =>
        (t', baseAck ρ operationId .externalUpsert .rejectConflict (some record)
          (some (textOr detail "external upsert refused")) none)

/-- A committed read of one replica: the head row, or the row of one version. -/
def committedRow (recordKey : String) (recordVersion : Option Nat) (t : Tables) :
    Except StorageError (Option CommittedRow) :=
  guarded e (match recordVersion with
    | none => .ok (getHeadRow t recordKey)
    | some v => if fitsInteger v then .ok (getCommittedRow t recordKey v) else .error overflowError)

end Operations

/-! ## What each operation does -/

section Effects

variable {cd} {ρ : ReplicaId} {st : ReplicaStatus} {e : Env V} {t : Tables}

theorem refusal_some {operationId : String} {kind : ReplicaOperationKind}
    {record : Option (BlackboardRecordV1 V)} {ack : ReplicaAckV1}
    (h : refusal ρ st e operationId kind record = some ack) :
    ∃ status reason, ack = baseAck ρ operationId kind status record reason none ∧
      (status = .unavailable ∨ status = .storageError) := by
  unfold refusal at h
  split at h
  · cases h; exact ⟨_, _, rfl, .inl rfl⟩
  · split at h
    · cases h; exact ⟨_, _, rfl, .inl rfl⟩
    · cases h; exact ⟨_, _, rfl, .inr rfl⟩
    · cases h

/-- A replica marked unavailable refuses. -/
theorem refusal_of_unavailable (hst : st.health = .unavailable) (operationId : String)
    (kind : ReplicaOperationKind) (record : Option (BlackboardRecordV1 V)) :
    refusal ρ st e operationId kind record = some (baseAck ρ operationId kind .unavailable record
      (some (textOr st.unavailableReason "replica marked unavailable")) none) := by
  unfold refusal
  rw [if_pos hst]

/-- The answer of an operation that an unavailable replica refuses. -/
def Refuses (out : Tables × ReplicaAckV1) (t : Tables) : Prop :=
  out.1 = t ∧ out.2.ackStatus = .unavailable

theorem prepare_refuses (hst : st.health = .unavailable) (cfg : ReplicaSettings) (operationId : String)
    (record : BlackboardRecordV1 V) (t : Tables) :
    Refuses (prepare cd ρ st e cfg operationId record t) t := by
  unfold prepare
  rw [refusal_of_unavailable hst]
  exact ⟨rfl, rfl⟩

theorem commit_refuses (hst : st.health = .unavailable) (operationId : String)
    (record : BlackboardRecordV1 V) (t : Tables) : Refuses (commit ρ st e operationId record t) t := by
  unfold commit
  rw [refusal_of_unavailable hst]
  exact ⟨rfl, rfl⟩

theorem abort_refuses (hst : st.health = .unavailable) (operationId recordKey : String)
    (recordVersion : Nat) (t : Tables) :
    Refuses (abort ρ st e operationId recordKey recordVersion t) t := by
  unfold abort
  rw [refusal_of_unavailable hst]
  exact ⟨rfl, rfl⟩

theorem upsertExternal_refuses (hst : st.health = .unavailable) (operationId : String)
    (record : BlackboardRecordV1 V) (t : Tables) :
    Refuses (upsertExternal cd ρ st e operationId record t) t := by
  unfold upsertExternal
  rw [refusal_of_unavailable hst]
  exact ⟨rfl, rfl⟩

theorem guarded_ok {α : Type} {r : Except StorageError α} {a : α} (h : guarded e r = .ok a) :
    r = .ok a := by
  unfold guarded at h
  split at h
  · cases h
  · exact h

/-- The pending row a prepare of `staged` writes. -/
def stagedRow (cd : RecordCodec V) (e : Env V) (operationId : String)
    (staged : BlackboardRecordV1 V) : PendingRow :=
  { recordKey := staged.recordKey
    recordVersion := staged.recordVersion
    recordId := staged.recordId
    contentHash := staged.contentHash
    operationId := operationId
    recordJson := fullRecordJson cd staged
    createdAtUtc := e.utc
    createdEpoch := e.now }

/-- The record that reaches the store: the proposed one or the hook's substitute. -/
def Passes (e : Env V) (record staged : BlackboardRecordV1 V) : Prop :=
  (e.intercept = .original ∧ staged = record) ∨ e.intercept = .substitute staged

variable (cd ρ st e t)

/-- Either nothing is staged, or one verified record is and its acknowledgement
carries the identity of that record. -/
theorem stageRecord_effect (cfg : ReplicaSettings) (operationId : String)
    (staged : BlackboardRecordV1 V) :
    let out := stageRecord cd ρ e cfg operationId staged t
    (out.2.ackStatus ≠ .ackPrepared ∧ out.1 = t) ∨
    (out.2.ackStatus = .ackPrepared ∧ Verified cd staged ∧
      (∃ reason, out.2 = baseAck ρ operationId .prepare .ackPrepared (some staged) reason none) ∧
      ∃ res, PrepareEffect t (stagedRow cd e operationId staged) cfg.pendingLeaseSeconds out.1 res ∧
        (res.outcome = .prepared ∨ res.outcome = .preparedLeaseTakeover)) := by
  intro out
  simp only [out, stageRecord]
  split
  · exact .inl ⟨nofun, rfl⟩
  · exact .inl ⟨nofun, rfl⟩
  · rename_i hverify
    split
    · exact .inl ⟨nofun, rfl⟩
    · exact .inl ⟨nofun, rfl⟩
    · split
      · exact .inl ⟨nofun, rfl⟩
      · rename_i t' res hins
        have heffect : PrepareEffect t (stagedRow cd e operationId staged)
            cfg.pendingLeaseSeconds t' res := prepareInsert_effect (guarded_ok hins)
        have hverified := (verifyRecordIntegrity_ok cd staged).mp hverify
        cases heffect with
        | stale _ => exact .inl ⟨nofun, rfl⟩
        | ahead _ => exact .inl ⟨nofun, rfl⟩
        | conflict p _ _ _ _ => exact .inl ⟨nofun, rfl⟩
        | fresh hver hnone =>
          exact .inr ⟨rfl, hverified, ⟨_, rfl⟩, _, .fresh hver hnone, .inl rfl⟩
        | restaged p hver hp hid =>
          exact .inr ⟨rfl, hverified, ⟨_, rfl⟩, _, .restaged p hver hp hid, .inl rfl⟩
        | takeover p hver hp hid hl =>
          exact .inr ⟨rfl, hverified, ⟨_, rfl⟩, _, .takeover p hver hp hid hl, .inr rfl⟩

/-- The same for a prepare: an unprepared acknowledgement leaves the tables alone. -/
theorem prepare_effect (cfg : ReplicaSettings) (operationId : String)
    (record : BlackboardRecordV1 V) :
    let out := prepare cd ρ st e cfg operationId record t
    (out.2.ackStatus ≠ .ackPrepared ∧ out.1 = t) ∨
    (out.2.ackStatus = .ackPrepared ∧ ∃ staged, Passes e record staged ∧ Verified cd staged ∧
      (∃ reason, out.2 = baseAck ρ operationId .prepare .ackPrepared (some staged) reason none) ∧
      ∃ res, PrepareEffect t (stagedRow cd e operationId staged) cfg.pendingLeaseSeconds out.1 res ∧
        (res.outcome = .prepared ∨ res.outcome = .preparedLeaseTakeover)) := by
  intro out
  simp only [out, prepare]
  split
  · rename_i ack hack
    obtain ⟨status, reason, rfl, hs⟩ := refusal_some hack
    refine .inl ⟨?_, rfl⟩
    rcases hs with rfl | rfl <;> exact nofun
  · split
    · exact .inl ⟨nofun, rfl⟩
    · rename_i hint
      rcases stageRecord_effect cd ρ e t cfg operationId record with
        h | ⟨hs, hv, hack, hres⟩
      · exact .inl h
      · exact .inr ⟨hs, record, .inl ⟨hint, rfl⟩, hv, hack, hres⟩
    · rename_i staged hint
      rcases stageRecord_effect cd ρ e t cfg operationId staged with
        h | ⟨hs, hv, hack, hres⟩
      · exact .inl h
      · exact .inr ⟨hs, staged, .inr hint, hv, hack, hres⟩

theorem prepare_edit (cfg : ReplicaSettings) (operationId : String)
    (record : BlackboardRecordV1 V) :
    Edit (fun s => ∃ r, Passes e record r ∧ Verified cd r ∧ s = fullRecordJson cd r) t
      (prepare cd ρ st e cfg operationId record t).1 := by
  rcases prepare_effect cd ρ st e t cfg operationId record with
    ⟨-, h⟩ | ⟨-, staged, hpass, hv, -, res, heffect, -⟩
  · rw [h]; exact .same
  · exact heffect.edit ⟨rfl, rfl, rfl⟩ ⟨staged, hpass, hv, rfl⟩

/-- A commit acknowledgement names the record it was sent. -/
theorem commit_ack (operationId : String) (record : BlackboardRecordV1 V) :
    ∃ status reason, (commit ρ st e operationId record t).2 =
      baseAck ρ operationId .commit status (some record) reason none := by
  unfold commit
  split
  · rename_i ack hack
    obtain ⟨status, reason, rfl, -⟩ := refusal_some hack
    exact ⟨status, reason, rfl⟩
  · split <;> exact ⟨_, _, rfl⟩

/-- A commit that is acknowledged promotes the row staged by its own operation for
its own record; any other changes nothing. -/
theorem commit_effect (operationId : String) (record : BlackboardRecordV1 V) :
    let out := commit ρ st e operationId record t
    (out.2.ackStatus ≠ .ackCommitted ∧ out.1 = t) ∨
    (out.2.ackStatus = .ackCommitted ∧
      ∃ p, getPendingRow t record.recordKey record.recordVersion = some p ∧
        p.operationId = operationId ∧ p.recordId = record.recordId ∧
        record.recordVersion = head t record.recordKey + 1 ∧
        out.1 = promoteRow t record.recordKey record.recordVersion
          { p.recordJson with operationId := operationId, committedAtUtc := e.utc }) := by
  intro out
  simp only [out, commit]
  split
  · rename_i ack hack
    obtain ⟨status, reason, rfl, hs⟩ := refusal_some hack
    refine .inl ⟨?_, rfl⟩
    rcases hs with rfl | rfl <;> exact nofun
  · split
    · exact .inl ⟨nofun, rfl⟩
    all_goals rename_i t' hres
    · rcases commitPromote_effect (guarded_ok hres) with ⟨hne, -⟩ | ⟨-, h⟩
      · exact absurd rfl hne
      · exact .inr ⟨rfl, h⟩
    · rcases commitPromote_effect (guarded_ok hres) with ⟨-, h⟩ | ⟨hne, -⟩
      · exact .inl ⟨nofun, h⟩
      · cases hne
    · rcases commitPromote_effect (guarded_ok hres) with ⟨-, h⟩ | ⟨hne, -⟩
      · exact .inl ⟨nofun, h⟩
      · cases hne

theorem commit_edit {t : Tables} (hv : Valid t) (operationId : String) (record : BlackboardRecordV1 V) :
    Edit (fun _ => False) t (commit ρ st e operationId record t).1 := by
  unfold commit
  split
  · exact .same
  · split
    · exact .same
    all_goals rename_i hres; exact commitPromote_edit hv (guarded_ok hres)

/-- An acknowledged abort removes the rows its operation staged in the slot. -/
theorem abort_effect (operationId recordKey : String) (recordVersion : Nat) :
    let out := abort ρ st e operationId recordKey recordVersion t
    (out.2.ackStatus ≠ .aborted ∧ out.1 = t) ∨
    (out.2.ackStatus = .aborted ∧ out.1 = { t with
      pendingPrepares := t.pendingPrepares.filter fun p =>
        !(inSlot recordKey recordVersion p && decide (p.operationId = operationId)) }) := by
  intro out
  simp only [out, abort]
  split
  · rename_i ack hack
    obtain ⟨status, reason, rfl, hs⟩ := refusal_some hack
    refine .inl ⟨?_, rfl⟩
    rcases hs with rfl | rfl <;> exact nofun
  · split
    · exact .inl ⟨nofun, rfl⟩
    · rename_i t' removed hres
      have hok := guarded_ok hres
      unfold abortPending at hok
      split at hok
      · cases hok
      · cases hok
        exact .inr ⟨rfl, rfl⟩

theorem abort_edit (operationId recordKey : String) (recordVersion : Nat) :
    Edit (fun _ => False) t (abort ρ st e operationId recordKey recordVersion t).1 := by
  rcases abort_effect ρ st e t operationId recordKey recordVersion with
    ⟨-, h⟩ | ⟨-, h⟩
  · rw [h]; exact .same
  · rw [h]; exact .unstage _

/-- An acknowledged repair leaves the record's identity in its slot. -/
theorem upsertExternal_effect (operationId : String) (record : BlackboardRecordV1 V) :
    let out := upsertExternal cd ρ st e operationId record t
    (out.2.ackStatus ≠ .ackCommitted ∧ out.1 = t) ∨
    (out.2.ackStatus = .ackCommitted ∧ out.1 = t ∧
      ∃ old, getCommittedRow t record.recordKey record.recordVersion = some old ∧
        old.recordId = record.recordId) ∨
    (out.2.ackStatus = .ackCommitted ∧ Verified cd record ∧
      record.recordVersion = head t record.recordKey + 1 ∧
      out.1 = promoteRow t record.recordKey record.recordVersion
        (recordToStorageValues cd record operationId e.utc)) := by
  intro out
  simp only [out, upsertExternal]
  split
  · rename_i ack hack
    obtain ⟨status, reason, rfl, hs⟩ := refusal_some hack
    refine .inl ⟨?_, rfl⟩
    rcases hs with rfl | rfl <;> exact nofun
  · split
    · exact .inl ⟨nofun, rfl⟩
    · exact .inl ⟨nofun, rfl⟩
    · rename_i hverify
      have hverified := (verifyRecordIntegrity_ok cd record).mp hverify
      split
      · exact .inl ⟨nofun, rfl⟩
      all_goals rename_i t' detail hres
      · rcases upsertCommittedExternal_effect (guarded_ok hres) with ⟨hs, -⟩ | ⟨hs, -⟩ | ⟨-, hn, h⟩
        · cases hs
        · cases hs
        · exact .inr (.inr ⟨rfl, hverified, hn, h⟩)
      · rcases upsertCommittedExternal_effect (guarded_ok hres) with ⟨hs, -⟩ | ⟨-, h, hold⟩ | ⟨hs, -⟩
        · cases hs
        · exact .inr (.inl ⟨rfl, h, hold⟩)
        · cases hs
      · rcases upsertCommittedExternal_effect (guarded_ok hres) with ⟨-, h⟩ | ⟨hs, -⟩ | ⟨hs, -⟩
        · exact .inl ⟨nofun, h⟩
        · cases hs
        · cases hs

theorem upsertExternal_edit (operationId : String) (record : BlackboardRecordV1 V) :
    Edit (fun s => Verified cd record ∧ s = fullRecordJson cd record) t
      (upsertExternal cd ρ st e operationId record t).1 := by
  rcases upsertExternal_effect cd ρ st e t operationId record with
    ⟨-, h⟩ | ⟨-, h, -⟩ | ⟨-, hv, hn, h⟩
  · rw [h]; exact .same
  · rw [h]; exact .same
  · rw [h]
    exact .promote (recordToStorageValues cd record operationId e.utc) hn (.inl ⟨hv, rfl⟩)

end Effects

end BlackboardReplica
