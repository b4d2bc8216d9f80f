import AgenticSoc.BlackboardReplica
import AgenticSoc.Interaction
import AgenticSoc.Grouping

/-!
# The coordinator

The write lifecycle, the consistent reads, the explicit repair and the service's
retry loop, as programs over the replica operations. One replica call is one
atomic step; everything between two calls is local to the coordinator.
-/
namespace BlackboardCoordinator

open BlackboardRecord BlackboardStorage BlackboardReplica Interaction

/-! ## Replica calls -/

/-- What a coordinator sees of one replica in a read. -/
structure Observation (V : Type) where
  replicaId : ReplicaId
  responded : Bool
  found : Bool
  recordVersion : Option Nat
  contentHash : Option String
  record : Option (BlackboardRecordV1 V)
  detail : Option String

inductive Call (V : Type) where
  | prepare (ρ : ReplicaId) (operationId : String) (record : BlackboardRecordV1 V)
  | commit (ρ : ReplicaId) (operationId : String) (record : BlackboardRecordV1 V)
  | abort (ρ : ReplicaId) (operationId recordKey : String) (recordVersion : Nat)
  | upsertExternal (ρ : ReplicaId) (operationId : String) (record : BlackboardRecordV1 V)
  | observe (ρ : ReplicaId) (recordKey : String) (recordVersion : Option Nat)
  | headRow (ρ : ReplicaId) (recordKey : String)
  | health (ρ : ReplicaId)
  | markDiverged (ρ : ReplicaId) (detail : String)
  | clearDivergence (ρ : ReplicaId)

@[reducible] def Call.Reply {V : Type} : Call V → Type
  | .prepare .. | .commit .. | .abort .. | .upsertExternal .. => ReplicaAckV1
  | .observe .. => Observation V
  | .headRow .. => Except StorageError (Option CommittedRow)
  | .health .. => ReplicaHealth
  | .markDiverged .. | .clearDivergence .. => Unit

@[reducible] def Blackboard (V : Type) : Interface := ⟨Call V, Call.Reply⟩

variable {V : Type}

def callPrepare (operationId : String) (record : BlackboardRecordV1 V) (ρ : ReplicaId) :
    Prog (Blackboard V) ReplicaAckV1 := perform (I := Blackboard V) (.prepare ρ operationId record)

def callCommit (operationId : String) (record : BlackboardRecordV1 V) (ρ : ReplicaId) :
    Prog (Blackboard V) ReplicaAckV1 := perform (I := Blackboard V) (.commit ρ operationId record)

def callAbort (operationId recordKey : String) (recordVersion : Nat) (ρ : ReplicaId) :
    Prog (Blackboard V) ReplicaAckV1 :=
  perform (I := Blackboard V) (.abort ρ operationId recordKey recordVersion)

def callUpsert (operationId : String) (record : BlackboardRecordV1 V) (ρ : ReplicaId) :
    Prog (Blackboard V) ReplicaAckV1 :=
  perform (I := Blackboard V) (.upsertExternal ρ operationId record)

def callObserve (recordKey : String) (recordVersion : Option Nat) (ρ : ReplicaId) :
    Prog (Blackboard V) (Observation V) :=
  perform (I := Blackboard V) (.observe ρ recordKey recordVersion)

def callHeadRow (recordKey : String) (ρ : ReplicaId) :
    Prog (Blackboard V) (Except StorageError (Option CommittedRow)) :=
  perform (I := Blackboard V) (.headRow ρ recordKey)

def callHealth (ρ : ReplicaId) : Prog (Blackboard V) ReplicaHealth :=
  perform (I := Blackboard V) (.health ρ)

def callMark (detail : String) (ρ : ReplicaId) : Prog (Blackboard V) Unit :=
  perform (I := Blackboard V) (.markDiverged ρ detail)

def callClear (ρ : ReplicaId) : Prog (Blackboard V) Unit :=
  perform (I := Blackboard V) (.clearDivergence ρ)

/-! ## Settings, authorization and results -/

structure BlackboardSettings where
  maxRecordCanonicalBytes : Nat
  quorumSize : Nat
  sizePositive : 1 ≤ maxRecordCanonicalBytes
  quorumPositive : 1 ≤ quorumSize

inductive BlackboardOperation where
  | read | write
  deriving DecidableEq, Repr

structure AuthzRequest where
  principal : String
  operation : BlackboardOperation
  recordType : Option BlackboardRecordType
  recordKey : Option String

structure AuthorizationDecision where
  allowed : Bool
  policyId : String
  reason : String

def allowAllDevelopmentAuthorizer (_ : AuthzRequest) : AuthorizationDecision :=
  ⟨true, "allow_all_dev_v1", "development default policy allows all operations"⟩

/-- A coordinator object: `name` tells whose write lock it is and `site` whose
replica objects it drives. -/
structure Coordinator where
  name : Nat
  site : Nat
  replicas : List ReplicaId
  distinct : replicas.Nodup
  three : replicas.length = 3
  authorizer : AuthzRequest → AuthorizationDecision
  settings : BlackboardSettings

inductive WriteOutcome where
  | committed | partialCommit | rejectedStale | rejectedConflict | rejectedSchema
  | rejectedAuthorization | failedQuorum | failedStorage
  deriving DecidableEq, Repr

inductive ReplicationSyncState where
  | synced | divergentRequiresReconciliation | notPrepared | aborted | unavailable
  deriving DecidableEq, Repr

structure WriteResultV1 where
  operationId : String
  outcome : WriteOutcome
  reason : Option String
  principal : String
  recordId : Option String
  recordKey : Option String
  recordType : Option BlackboardRecordType
  recordVersion : Option Nat
  contentHash : Option String
  acks : List ReplicaAckV1
  replicaSync : List (ReplicaId × ReplicationSyncState)
  deriving DecidableEq, Repr

inductive ReadOutcome where
  | consistent | degradedConsistent | notFound | insufficientQuorum | inconsistent
  | unavailable | authorizationRejected
  deriving DecidableEq, Repr

structure ReplicaReadObservationV1 where
  replicaId : ReplicaId
  responded : Bool
  found : Bool
  recordVersion : Option Nat
  contentHash : Option String
  detail : Option String
  deriving DecidableEq, Repr

structure ReadResultV1 (V : Type) where
  readOperationId : String
  principal : String
  recordKey : String
  requestedVersion : Option Nat
  outcome : ReadOutcome
  record : Option (BlackboardRecordV1 V)
  reason : Option String
  observations : List ReplicaReadObservationV1
  divergentReplicas : List ReplicaId
  unavailableReplicas : List ReplicaId

def ReplicaId.text : ReplicaId → String
  | .replicaA => "replica_a"
  | .replicaB => "replica_b"
  | .replicaC => "replica_c"

/-- Python's text of a list of strings. -/
def listText (l : List String) : String :=
  "[" ++ String.intercalate ", " (l.map fun s => "'" ++ s ++ "'") ++ "]"

/-! ## Quorum evaluation -/

inductive Decision where
  | quorumMet | insufficientCompatibleAcks | incompatiblePreparedAcks
  deriving DecidableEq, Repr

structure QuorumDecision where
  decision : Decision
  compatibleReplicaIds : List ReplicaId
  groupRecordId : Option String
  groupContentHash : Option String
  groupSizes : List (Nat × String)
  deriving DecidableEq, Repr

/-- The full compatibility identity of a prepared acknowledgement. -/
def compatibilityKey (a : ReplicaAckV1) : Option (String × String × Nat × String) :=
  if a.ackStatus = .ackPrepared then
    match a.recordId, a.recordKey, a.recordVersion, a.contentHash with
    | some i, some k, some v, some h => some (i, k, v, h)
    | _, _, _, _ => none
  else none

/-- Group the prepared acknowledgements by identity; the largest group must reach
the required size, ties going to the smaller content hash. -/
def evaluateQuorum (acks : List ReplicaAckV1) (required : Nat) : QuorumDecision :=
  let keyed := acks.filterMap fun a => (compatibilityKey a).map fun k => (k, a)
  let ordered := Grouping.ordered (fun k : String × String × Nat × String => k.2.2.2)
    (Grouping.groupOn Prod.fst keyed)
  let sizes := ordered.map fun g => (g.2.length, g.1.2.2.2)
  match ordered with
  | [] => ⟨.insufficientCompatibleAcks, [], none, none, sizes⟩
  | best :: rest =>
    if required ≤ best.2.length then
      ⟨.quorumMet, best.2.map fun m => m.2.replicaId, some best.1.1, some best.1.2.2.2, sizes⟩
    else if rest ≠ [] then ⟨.incompatiblePreparedAcks, [], none, none, sizes⟩
    else ⟨.insufficientCompatibleAcks, [], none, none, sizes⟩

/-! ## Writes -/

/-- What `propose` accepts: a draft, or a record that was built before. -/
inductive Proposal (V : Type) where
  | draft (d : BlackboardRecordDraft V)
  | record (r : BlackboardRecordV1 V)

/-- The record of a proposal, when it can be built and is not oversized. -/
def Proposal.build (cd : RecordCodec V) (maxBytes : Nat) (p : Proposal V) :
    Except String (BlackboardRecordV1 V) :=
  let built := match p with
    | .draft d => d.toRecord cd
    | .record r => .ok r
  match built with
  | .error e => .error e
  | .ok r =>
    match ensureRecordSize cd r maxBytes with
    | .error e => .error e
    | .ok () => .ok r

/-- Acknowledgements of durable commits of the record. -/
def isDurable (recordId contentHash : Option String) (a : ReplicaAckV1) : Bool :=
  a.ackStatus = .ackCommitted && a.recordId = recordId && a.contentHash = contentHash

/-- Assemble the result; the instrumentation refuses a `COMMITTED` that carries
fewer than two durable acknowledgements by raising. -/
def writeResult (operationId principal : String) (outcome : WriteOutcome) (reason : Option String)
    (record : Option (BlackboardRecordV1 V)) (acks : List ReplicaAckV1)
    (replicaSync : List (ReplicaId × ReplicationSyncState)) : Except String WriteResultV1 :=
  let result : WriteResultV1 :=
    { operationId := operationId
      outcome := outcome
      reason := reason
      principal := principal
      recordId := record.map fun r => r.recordId
      recordKey := record.map fun r => r.recordKey
      recordType := record.map fun r => r.recordType
      recordVersion := record.map fun r => r.recordVersion
      contentHash := record.map fun r => r.contentHash
      acks := acks
      replicaSync := replicaSync }
  let durable := acks.filter (isDurable result.recordId result.contentHash)
  if outcome = .committed ∧ durable.length < 2 then
    .error ("AssertionError: invariant violated: COMMITTED with " ++ Nat.repr durable.length ++
      " compatible ACK_COMMITTED (operation " ++ operationId ++ ")")
  else .ok result

/-- The acknowledgement says something about the record, not only that the replica
could not answer. -/
def isTerminal (a : ReplicaAckV1) : Bool :=
  !(a.ackStatus = .unavailable || a.ackStatus = .storageError)

def mixedRejection (acks : List ReplicaAckV1) : WriteOutcome × String :=
  (.failedQuorum, "mixed rejection statuses across replicas: " ++
    listText ((acks.map fun a => a.ackStatus.value).dedup.insertionSort (· ≤ ·)))

/-- No replica prepared: one common rejection is reported as such, anything else
as a failed quorum. -/
def classifyTotalRejection (acks : List ReplicaAckV1) : WriteOutcome × String :=
  match acks.filter isTerminal with
  | [] => (.failedQuorum, "no responsive replica could prepare the proposal")
  | first :: rest =>
    if rest.all fun a => a.ackStatus = first.ackStatus then
      let detail := textOr (((first :: rest).find? fun a => textOr a.reason "" ≠ "").bind
        fun a => a.reason) first.ackStatus.value
      let text := first.ackStatus.value ++ ": " ++ detail
      match first.ackStatus with
      | .rejectStale =>
        let current := (first :: rest).foldl
          (fun m a => max m (a.currentVersionAtReplica.getD 0)) 0
        (.rejectedStale, "proposal is stale; current committed version is " ++ Nat.repr current)
      | .rejectConflict => (.rejectedConflict, text)
      | .rejectSchema => (.rejectedSchema, text)
      | .rejectIntegrity => (.rejectedSchema, text)
      | .rejectAuthorization => (.rejectedAuthorization, text)
      | _ => mixedRejection acks
    else mixedRejection acks

/-- Abort on exactly the replicas that acknowledged the prepare. -/
def abortPrepared (operationId : String) (record : BlackboardRecordV1 V)
    (prepareAcks : List ReplicaAckV1) : Prog (Blackboard V) (List ReplicaAckV1) :=
  forEach (fun a => callAbort operationId record.recordKey record.recordVersion a.replicaId)
    (prepareAcks.filter fun a => a.ackStatus = .ackPrepared)

/-- Best-effort abort on the replicas that did not prepare but named a slot. -/
def abortUnprepared (operationId : String) (prepareAcks : List ReplicaAckV1) :
    Prog (Blackboard V) (List ReplicaAckV1) :=
  forEach (fun a => callAbort operationId (a.recordKey.getD "") (a.recordVersion.getD 0) a.replicaId)
    (prepareAcks.filter fun a =>
      a.ackStatus ≠ .ackPrepared && a.recordKey.isSome && a.recordVersion.isSome)

def syncStateAfterFailure (a : ReplicaAckV1) : ReplicationSyncState :=
  if a.ackStatus = .aborted then .aborted
  else if a.ackStatus = .unavailable then .unavailable
  else .notPrepared

/-- The first acknowledgement of a replica decides its entry. -/
def syncMapAfterFailure (acks : List ReplicaAckV1) : List (ReplicaId × ReplicationSyncState) :=
  acks.foldl (fun m a =>
    if m.any fun s => s.1 = a.replicaId then m
    else m ++ [(a.replicaId, syncStateAfterFailure a)]) []

/-- What the commit loop does with one prepare acknowledgement. -/
structure CommitStep where
  sync : ReplicaId × ReplicationSyncState
  commitAck : Option ReplicaAckV1
  loserAbortAck : Option ReplicaAckV1

/-- Promote on a member of the compatible group and mark a missed commit; abort a
prepared replica outside it; skip the others. -/
def commitStep (operationId : String) (record : BlackboardRecordV1 V) (winningIds : List ReplicaId)
    (ack : ReplicaAckV1) : Prog (Blackboard V) CommitStep :=
  if ack.ackStatus ≠ .ackPrepared then
    .ret ⟨(ack.replicaId, if ack.ackStatus = .unavailable then .unavailable else .notPrepared),
      none, none⟩
  else if ack.replicaId ∉ winningIds then do
    let l ← callAbort operationId record.recordKey record.recordVersion ack.replicaId
    return ⟨(ack.replicaId, if l.ackStatus = .aborted then .aborted else .unavailable),
      none, some l⟩
  else do
    let a ← callCommit operationId record ack.replicaId
    if a.ackStatus = .ackCommitted then
      return ⟨(ack.replicaId, .synced), some a, none⟩
    else do
      callMark ("missed commit op=" ++ operationId ++ " key=" ++ record.recordKey ++ " v=" ++
        Nat.repr record.recordVersion ++ " status=" ++ a.ackStatus.value) ack.replicaId
      return ⟨(ack.replicaId, .divergentRequiresReconciliation), some a, none⟩

/-- The final outcome is decided by the durable acknowledgements alone. -/
def commitOutcome (required : Nat) (prepareAcks durable : List ReplicaAckV1)
    (winningIds : List ReplicaId) : WriteOutcome × Option String :=
  if required ≤ durable.length then (.committed, none)
  else if durable.length = 1 then
    let committedReplicas := durable.map fun a => a.replicaId
    let failedReplicas := (prepareAcks.filter fun a =>
      a.replicaId ∈ winningIds && a.replicaId ∉ committedReplicas).map fun a => a.replicaId
    (.partialCommit, some ("partial/indeterminate commit: " ++ Nat.repr durable.length ++ " of " ++
      Nat.repr required ++ " required commit acknowledgements succeeded (committed=" ++
      listText (committedReplicas.map ReplicaId.text) ++ ", failed=" ++
      listText (failedReplicas.map ReplicaId.text) ++ "); state requires reconciliation"))
  else (.failedStorage, some "quorum prepared but zero replicas completed the commit phase")

/-- The lifecycle of a valid, authorized record, from its prepares to its result. -/
def writeRecord (c : Coordinator) (operationId principal : String) (record : BlackboardRecordV1 V) :
    Prog (Blackboard V) (Except String WriteResultV1) := do
  let prepareAcks ← forEach (callPrepare operationId record) c.replicas
  if prepareAcks.all fun a => a.ackStatus ≠ .ackPrepared then
    let rejection := classifyTotalRejection prepareAcks
    return writeResult operationId principal rejection.1 (some rejection.2) (some record) prepareAcks
      (c.replicas.map fun ρ => (ρ, .notPrepared))
  else
    let quorum := evaluateQuorum prepareAcks c.settings.quorumSize
    if quorum.decision ≠ .quorumMet then do
      let abortAcks ← abortPrepared operationId record prepareAcks
      return writeResult operationId principal .failedQuorum
        (some (if quorum.decision = .incompatiblePreparedAcks then
          "incompatible prepared acknowledgements cannot form a quorum"
          else "insufficient compatible prepared acknowledgements"))
        (some record) (prepareAcks ++ abortAcks) (syncMapAfterFailure (prepareAcks ++ abortAcks))
    else do
      let steps ← forEach (commitStep operationId record quorum.compatibleReplicaIds) prepareAcks
      let cleanupAcks ← abortUnprepared operationId prepareAcks
      let commitAcks := steps.filterMap fun s => s.commitAck
      let loserAbortAcks := steps.filterMap fun s => s.loserAbortAck
      let durable := commitAcks.filter
        (isDurable (some record.recordId) (some record.contentHash))
      let out := commitOutcome c.settings.quorumSize prepareAcks durable
        quorum.compatibleReplicaIds
      return writeResult operationId principal out.1 out.2 (some record)
        (prepareAcks ++ commitAcks ++ loserAbortAcks ++ cleanupAcks) (steps.map fun s => s.sync)

/-- The full write lifecycle. -/
def propose (cd : RecordCodec V) (c : Coordinator) (operationId : String) (proposal : Proposal V)
    (principal : String) : Prog (Blackboard V) (Except String WriteResultV1) :=
  if isBlank principal then
    .ret (writeResult (V := V) operationId principal .rejectedAuthorization
      (some "principal must be a non-empty string") none [] [])
  else match proposal.build cd c.settings.maxRecordCanonicalBytes with
  | .error e =>
    .ret (writeResult (V := V) operationId principal .rejectedSchema (some e) none [] [])
  | .ok record =>
    let decision := c.authorizer ⟨principal, .write, some record.recordType, some record.recordKey⟩
    if decision.allowed then writeRecord c operationId principal record
    else .ret (writeResult operationId principal .rejectedAuthorization
      (some (decision.policyId ++ ": " ++ decision.reason)) (some record) [] [])

/-! ## Reads -/

def Observation.publicView (o : Observation V) : ReplicaReadObservationV1 :=
  ⟨o.replicaId, o.responded, o.found, o.recordVersion, o.contentHash, o.detail⟩

def observationKey (o : Observation V) : Nat × String :=
  (o.recordVersion.getD 0, o.contentHash.getD "")

/-- The groups of agreeing observations, the largest first. -/
def orderedGroups (present : List (Observation V)) :
    List ((Nat × String) × List (Observation V)) :=
  Grouping.ordered (fun k : Nat × String => k.2) (Grouping.groupOn observationKey present)

def startsWithText (start s : String) : Bool := start.toList.isPrefixOf s.toList

def versionText (v : Option Nat) : String := (v.map Nat.repr).getD "None"

/-- Mark the replicas whose stored record failed verification. -/
def markIntegrityFailures (readOp : String) (observations : List (Observation V)) :
    Prog (Blackboard V) (List Unit) :=
  forEach (fun o => callMark ("stored-record integrity failure op=" ++ readOp ++ ": " ++
      o.detail.getD "None") o.replicaId)
    (observations.filter fun o => startsWithText "integrity" (o.detail.getD ""))

/-- Mark the replicas that disagree with, or lag behind, a confirmed majority. -/
def markDivergent (readOp recordKey : String) (bestKey : Nat × String)
    (divergent : List (Observation V)) : Prog (Blackboard V) (List Unit) :=
  let majority := "v" ++ Nat.repr bestKey.1 ++ "/" ++ bestKey.2
  forEach (fun o =>
    if o.found then
      callMark ("read divergence op=" ++ readOp ++ " key=" ++ recordKey ++ " observed=v" ++
        versionText o.recordVersion ++ "/" ++ o.contentHash.getD "None" ++ " majority=" ++ majority)
        o.replicaId
    else
      callMark ("read lag op=" ++ readOp ++ " key=" ++ recordKey ++
        ": no committed value while majority holds " ++ majority) o.replicaId) divergent

/-- Classify the observations of a read. -/
def concludeRead (c : Coordinator) (readOp principal recordKey : String)
    (recordVersion : Option Nat) (observations : List (Observation V)) :
    Prog (Blackboard V) (ReadResultV1 V) :=
  let responses := observations.filter fun o => o.responded
  let present := responses.filter fun o => o.found
  let absent := responses.filter fun o => !o.found
  let unavailable := (observations.filter fun o => !o.responded).map fun o => o.replicaId
  let required := c.settings.quorumSize
  let finish (outcome : ReadOutcome) (record : Option (BlackboardRecordV1 V))
      (divergent : List ReplicaId) (unavailable : List ReplicaId) (reason : Option String) :
      ReadResultV1 V :=
    { readOperationId := readOp
      principal := principal
      recordKey := recordKey
      requestedVersion := recordVersion
      outcome := outcome
      record := record
      reason := reason
      observations := observations.map Observation.publicView
      divergentReplicas := divergent
      unavailableReplicas := unavailable }
  if responses = [] then
    .ret (finish .unavailable none [] unavailable (some "no replica responded"))
  else match orderedGroups present with
  | [] =>
    if required ≤ responses.length then
      .ret (finish .notFound none [] unavailable
        (if responses.length = c.replicas.length then none
          else some "absence confirmed by responding majority only; some replicas unavailable"))
    else
      .ret (finish .insufficientQuorum none [] unavailable
        (some ("absence confirmed by only " ++ Nat.repr responses.length ++ " of " ++
          Nat.repr required ++ " required replicas")))
  | (bestKey, bestGroup) :: _ => do
    let divergent := (present.filter fun o => observationKey o ≠ bestKey) ++ absent
    let divergentIds := divergent.map fun o => o.replicaId
    let bestRecord := bestGroup.head?.bind fun o => o.record
    let _ ← markIntegrityFailures readOp observations
    if responses.length < required then
      return finish .insufficientQuorum none divergentIds unavailable
        (some ("only " ++ Nat.repr responses.length ++ " of " ++ Nat.repr required ++
          " required replicas responded; a value cannot be confirmed"))
    else if bestGroup.length = responses.length ∧ responses.length = c.replicas.length then
      return finish .consistent bestRecord [] [] none
    else if required ≤ bestGroup.length then do
      let _ ← markDivergent readOp recordKey bestKey divergent
      return finish .degradedConsistent bestRecord divergentIds unavailable
        (some "compatible majority returned; some replicas unavailable/divergent/lagging")
    else
      return finish .inconsistent none divergentIds unavailable
        (some "no compatible majority across replicas")

/-- The shared body of `read_latest` and `read_version`. -/
def read (c : Coordinator) (readOp principal recordKey : String) (recordVersion : Option Nat) :
    Prog (Blackboard V) (ReadResultV1 V) :=
  let rejected (reason : String) : ReadResultV1 V :=
    ⟨readOp, principal, recordKey, recordVersion, .authorizationRejected, none, some reason, [], [], []⟩
  if isBlank principal then .ret (rejected "principal must be a non-empty string")
  else
    let decision := c.authorizer ⟨principal, .read, none, some recordKey⟩
    if decision.allowed then do
      let observations ← forEach (callObserve recordKey recordVersion) c.replicas
      concludeRead c readOp principal recordKey recordVersion observations
    else .ret (rejected (decision.policyId ++ ": " ++ decision.reason))

def readLatest (c : Coordinator) (readOp principal recordKey : String) :
    Prog (Blackboard V) (ReadResultV1 V) := read c readOp principal recordKey none

def readVersion (c : Coordinator) (readOp principal recordKey : String) (recordVersion : Nat) :
    Prog (Blackboard V) (ReadResultV1 V) := read c readOp principal recordKey (some recordVersion)

/-! ## Repair -/

inductive ResyncStatus where
  | authorizationRejected | noMajoritySource | repaired | partiallyRepaired | refused
  deriving DecidableEq, Repr

structure ResyncReport where
  repairOperationId : String
  status : ResyncStatus
  reason : Option String
  source : Option (String × Nat × String)
  replicas : List (ReplicaId × String)
  deriving DecidableEq, Repr

/-- The record of the largest group of head observations, if it reaches a quorum. -/
def majorityRecord (required : Nat) (observations : List (Observation V)) :
    Option (BlackboardRecordV1 V) :=
  match orderedGroups (observations.filter fun o => o.responded && o.found) with
  | [] => none
  | (_, bestGroup) :: _ =>
    if bestGroup.length < required then none else bestGroup.head?.bind fun o => o.record

/-- A head row that cannot be read counts as none. -/
def rowOrNone : Except StorageError (Option CommittedRow) → Option CommittedRow
  | .ok row => row
  | .error _ => none

/-- Repair one target and say whether it was applied. -/
def repairReplica (repairOp recordKey : String) (probe : BlackboardRecordV1 V) (ρ : ReplicaId) :
    Prog (Blackboard V) (Bool × ReplicaId × String) := do
  let ack ← callUpsert repairOp probe ρ
  let reply ← callHeadRow recordKey ρ
  let row := rowOrNone reply
  let aligned := row.any fun h => h.recordId = probe.recordId
  if ack.ackStatus = .ackCommitted ∧ aligned = true then do
    callClear ρ
    return (true, ρ, "REPAIRED (" ++ ack.reason.getD "None" ++ ")")
  else match row.filter fun h => probe.recordVersion < h.recordVersion with
  | some h => do
    callMark ("resync op=" ++ repairOp ++ " key=" ++ recordKey ++ ": head v" ++
      Nat.repr h.recordVersion ++ " ahead of majority head v" ++ Nat.repr probe.recordVersion ++
      "; committed data preserved") ρ
    return (false, ρ, "PRESERVED_DIVERGENT_HEAD (local head v" ++ Nat.repr h.recordVersion ++ " kept)")
  | none =>
    return (false, ρ, "REFUSED (" ++ ack.ackStatus.value ++ ": " ++ ack.reason.getD "None" ++ ")")

/-- Bring replicas back to the compatible majority of one key. -/
def resyncReplicasFromMajority (c : Coordinator) (repairOp principal recordKey : String)
    (replicaIds : Option (List ReplicaId)) : Prog (Blackboard V) ResyncReport :=
  let decision := c.authorizer ⟨principal, .write, none, some recordKey⟩
  if decision.allowed then do
    let observations ← forEach (callObserve recordKey none) c.replicas
    match majorityRecord c.settings.quorumSize observations with
    | none =>
      return ⟨repairOp, .noMajoritySource, some "no compatible majority exists to repair from",
        none, []⟩
    | some probe => do
      let reports ← forEach (repairReplica repairOp recordKey probe) (replicaIds.getD c.replicas)
      let applied := reports.any fun r => r.1
      let refused := reports.any fun r => !r.1
      return ⟨repairOp,
        if applied && !refused then .repaired else if applied then .partiallyRepaired else .refused,
        none, some (probe.recordId, probe.recordVersion, probe.contentHash),
        reports.map fun r => r.2⟩
  else
    .ret ⟨repairOp, .authorizationRejected, some (decision.policyId ++ ": " ++ decision.reason),
      none, []⟩

/-! ## The next version -/

/-- The head hint of the first replica that is not unavailable. -/
def headVersionFrom (recordKey : String) : List ReplicaId → Prog (Blackboard V) (Except StorageError Nat)
  | [] => .ret (.ok 0)
  | ρ :: rest => do
    let h ← callHealth ρ
    if h = .unavailable then headVersionFrom recordKey rest
    else do
      let reply ← callHeadRow recordKey ρ
      return reply.map fun row => (row.map fun r => r.recordVersion).getD 0

def headVersion (c : Coordinator) (recordKey : String) : Prog (Blackboard V) (Except StorageError Nat) :=
  headVersionFrom recordKey c.replicas

def maxProposeRetries : Nat := 5

/-- The service's write helper: propose the version after the head hint, again
while the proposal is stale. A draft that does not validate, a failing head read
and the instrumentation's refusal raise. -/
def proposeNextVersionLoop (cd : RecordCodec V) (c : Coordinator) (operationId : Nat → String)
    (draft : Nat → BlackboardRecordDraft V) (recordKey principal : String)
    (last : Option WriteResultV1) : Nat → Prog (Blackboard V) (Except String (Option WriteResultV1))
  | 0 => .ret (.ok last)
  | n + 1 => do
    let hint ← headVersion c recordKey
    match hint with
    | .error e => return .error e.message
    | .ok h =>
      match validateDraft cd (draft (h + 1)) with
      | .error e => return .error e
      | .ok () => do
        let result ← propose cd c (operationId n) (.draft (draft (h + 1))) principal
        match result with
        | .error e => return .error e
        | .ok r =>
          if r.outcome = .rejectedStale then
            proposeNextVersionLoop cd c operationId draft recordKey principal (some r) n
          else return .ok (some r)

/-- The fields a service call fixes; the version is chosen by the loop. -/
structure VersionlessDraft (V : Type) where
  recordKey : String
  recordType : BlackboardRecordType
  logicalTimestamp : Option String
  windowId : Option Nat
  authorId : String
  sourceComponent : String
  payload : V
  provenance : V

def VersionlessDraft.atVersion (d : VersionlessDraft V) (version : Nat) : BlackboardRecordDraft V :=
  { recordKey := d.recordKey
    recordType := d.recordType
    recordVersion := version
    logicalTimestamp := d.logicalTimestamp
    windowId := d.windowId
    authorId := d.authorId
    sourceComponent := d.sourceComponent
    payload := d.payload
    provenance := d.provenance }

def proposeNextVersion (cd : RecordCodec V) (c : Coordinator) (operationId : Nat → String)
    (draft : VersionlessDraft V) (principal : Option String) :
    Prog (Blackboard V) (Except String (Option WriteResultV1)) :=
  proposeNextVersionLoop cd c operationId draft.atVersion draft.recordKey
    (textOr principal draft.authorId) none maxProposeRetries

end BlackboardCoordinator
