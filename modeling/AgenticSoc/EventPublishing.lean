import AgenticSoc.BlackboardFirewall
import AgenticSoc.EventStreams

/-!
# Published event sequences

Each stream has a counter that is read and raised before the envelope is built and
checked. So a rejected envelope uses a number up, and the numbers of a stream are gapless
just as long as none of its envelopes is rejected.
-/
namespace EventPublishing

open PythonJson BlackboardFirewall
open BlackboardRecord (runChecks)
open EventStreams (EventBroker)

inductive ReplayEventType where
  | replayCreated | replayStarted | replayPaused | replayResumed | replayStepped
  | replayCompleted | replayFailed
  | windowStarted | windowCompleted
  | networkFinding | behaviorFinding
  | gatewayAccepted | gatewayRejected
  | deviceState | deviceRiskGraphSnapshot | communicationGraphSnapshot | srepSnapshot
  | blackboardWriteProposed | blackboardReplicaAck | blackboardWriteCommitted | blackboardWritePartial
  | blackboardWriteAborted | blackboardWriteRejected | blackboardStaleWrite | blackboardConflict
  | blackboardQuorumFailed | blackboardStorageFailed | blackboardRead | blackboardReadInconsistent
  | blackboardReplicaStatus
  | orchestrationRequestReceived | orchestratorProposal | orchestratorVote | orchestratorTimeout
  | orchestratorDelayed | orchestratorOmission | orchestratorStatus | orchestrationQuorumReached
  | orchestrationNoQuorum | orchestrationDecision
  | workflowWindowStarted | agentDispatched | agentExecutionStarted | agentExecutionCompleted
  | agentExecutionFailed | agentExecutionSkipped | threatCorrelationProduced | riskRecommendationProduced
  | accessRecommendationProduced | enforcementDecisionCommitted | confirmedFeedbackRecorded
  | workflowWindowCompleted | workflowWindowFailed
  deriving DecidableEq, Repr

structure EventEnvelopeV1 (F : Type) where
  replayId : String
  eventId : String
  sequenceNumber : Nat
  eventType : ReplayEventType
  logicalTimestamp : Option String
  windowId : Option Int
  sourceComponent : String
  entityId : Option String
  payload : PyValue F
  provenance : PyValue F

/-- The fixed streams outside any replay. -/
def operationalIds : List String := ["blackboard-ops", "orchestration-ops"]

section Publishing

variable {F : Type} (fmt : PyFloats F) (lc : LowerCase)

def dictOf (fields : List (String × PyValue F)) : PyValue F := .dict none (fields.map fun e => (.str e.1, e.2))

/-- What an envelope has to pass: the number and the event type are right by their types. -/
def envelopeChecks (payload provenance : PyValue F) : List (Bool × String) :=
  [(isTextDict payload, "payload"), (isTextDict provenance, "provenance"),
    ((findGroundTruthViolations fmt lc payload "$").isEmpty, "ground-truth leakage in EventEnvelopeV1"),
    ((findGroundTruthViolations fmt lc provenance "$").isEmpty, "ground-truth leakage in EventEnvelopeV1")]

/-- What the publisher knows of a replay. -/
structure RunInfo where
  replayId : String
  sessionTrace : String
  sourceMode : String

/-- The arguments of a publication: a payload of its own, or else the rest of the keyword
arguments. -/
structure EventData (F : Type) where
  eventType : ReplayEventType
  payload : Option (PyValue F)
  rest : List (String × PyValue F)
  logicalTimestamp : Option String
  windowId : Option Int
  entityId : Option String
  sourceComponent : Option String

inductive Attempt (F : Type) where
  | replay (run : RunInfo) (data : EventData F)
  | operational (streamId : String) (provenanceNamespace sourceComponent : String) (payload : PyValue F)
      (data : EventData F)

/-- The counters of the replays and of the operational streams, whose identities are
distinct, and what went to the broker. -/
structure Publisher (F : Type) where
  sequence : String → Nat
  broker : EventBroker (EventEnvelopeV1 F)
  published : List (EventEnvelopeV1 F)

def Publisher.start (broker : EventBroker (EventEnvelopeV1 F)) : Publisher F := ⟨fun _ => 0, broker, []⟩

/-- The locked section: the counter is raised, then the envelope is built and published. -/
def publishNext (p : Publisher F) (streamId : String) (data : EventData F) (sourceComponent : String)
    (payload provenance : PyValue F) : Publisher F × Except String (EventEnvelopeV1 F) :=
  let seq := p.sequence streamId
  let p := { p with sequence := fun id => if id = streamId then seq + 1 else p.sequence id }
  match runChecks (envelopeChecks fmt lc payload provenance) with
  | .error message => (p, .error message)
  | .ok () =>
    let envelope : EventEnvelopeV1 F :=
      { replayId := streamId
        eventId := streamId ++ "-" ++ Nat.repr seq
        sequenceNumber := seq
        eventType := data.eventType
        logicalTimestamp := data.logicalTimestamp
        windowId := data.windowId
        sourceComponent := sourceComponent
        entityId := data.entityId
        payload := payload
        provenance := provenance }
    ({ p with
        broker := EventStreams.publish EventEnvelopeV1.replayId p.broker envelope
        published := p.published ++ [envelope] }, .ok envelope)

def EventData.content (data : EventData F) : PyValue F := data.payload.getD (dictOf data.rest)

def RunInfo.provenance (run : RunInfo) : PyValue F :=
  dictOf [("session_trace", .str run.sessionTrace), ("source_mode", .str run.sourceMode)]

def publish (p : Publisher F) (run : RunInfo) (data : EventData F) : Publisher F × Except String (EventEnvelopeV1 F) :=
  publishNext fmt lc p run.replayId data
    (data.sourceComponent.getD "backend.app.services.replay_controller") data.content run.provenance

def publishOperationalEvent (p : Publisher F) (streamId provenanceNamespace sourceComponent : String)
    (payload : PyValue F) (data : EventData F) : Publisher F × Except String (EventEnvelopeV1 F) :=
  if streamId ∈ operationalIds then
    publishNext fmt lc p streamId data sourceComponent payload (dictOf [("namespace", .str provenanceNamespace)])
  else (p, .error "unknown operational event stream")

def attempt (p : Publisher F) : Attempt F → Publisher F
  | .replay run data => (publish fmt lc p run data).1
  | .operational streamId ns source payload data => (publishOperationalEvent fmt lc p streamId ns source payload data).1

def run (p : Publisher F) (attempts : List (Attempt F)) : Publisher F := attempts.foldl (attempt fmt lc) p

/-! ## Numbers of a stream -/

/-- The stream that the attempt takes a number of. -/
def Attempt.streamId : Attempt F → Option String
  | .replay run _ => some run.replayId
  | .operational streamId _ _ _ _ => if streamId ∈ operationalIds then some streamId else none

/-- The envelope of the attempt meets its contract. -/
def Attempt.passes : Attempt F → Bool
  | .replay run data => (runChecks (envelopeChecks fmt lc data.content run.provenance)).isOk
  | .operational _ ns _ payload _ => (runChecks (envelopeChecks fmt lc payload (dictOf [("namespace", .str ns)]))).isOk

def numbers (p : Publisher F) (streamId : String) : List Nat :=
  (p.published.filter fun e => e.replayId = streamId).map EventEnvelopeV1.sequenceNumber

/-- The published envelopes of the stream carry just the numbers below its counter. -/
def Gapless (p : Publisher F) (streamId : String) : Prop := numbers p streamId = List.range (p.sequence streamId)

/-- What an attempt does to the numbers of a stream. -/
theorem publishNext_numbers (p : Publisher F) (own : String) (data : EventData F) (source : String)
    (payload provenance : PyValue F) (streamId : String) :
    let p' := (publishNext fmt lc p own data source payload provenance).1
    (own ≠ streamId → numbers p' streamId = numbers p streamId ∧ p'.sequence streamId = p.sequence streamId) ∧
    (own = streamId → p'.sequence streamId = p.sequence streamId + 1 ∧ numbers p' streamId =
      numbers p streamId ++ if (runChecks (envelopeChecks fmt lc payload provenance)).isOk then [p.sequence streamId] else []) := by
  intro p'
  simp only [p', publishNext]
  cases runChecks (envelopeChecks fmt lc payload provenance) with
  | error message =>
    refine ⟨fun hne => ⟨rfl, if_neg (Ne.symm hne)⟩, ?_⟩
    rintro rfl
    exact ⟨if_pos rfl, by simp [numbers, Except.isOk, Except.toBool]⟩
  | ok u =>
    refine ⟨fun hne => ⟨?_, if_neg (Ne.symm hne)⟩, ?_⟩
    · simp [numbers, List.filter_append, hne]
    · rintro rfl
      exact ⟨if_pos rfl, by simp [numbers, List.filter_append, Except.isOk, Except.toBool]⟩

theorem attempt_other {a : Attempt F} {streamId : String} (h : a.streamId ≠ some streamId) (p : Publisher F) :
    numbers (attempt fmt lc p a) streamId = numbers p streamId ∧
      (attempt fmt lc p a).sequence streamId = p.sequence streamId := by
  cases a with
  | replay run data => exact (publishNext_numbers fmt lc p run.replayId data _ _ _ streamId).1 fun he => h (congrArg some he)
  | operational own ns source payload data =>
    simp only [attempt, publishOperationalEvent]
    by_cases hin : own ∈ operationalIds
    · rw [if_pos hin]
      refine (publishNext_numbers fmt lc p own data source payload _ streamId).1 fun he => h ?_
      rw [Attempt.streamId, if_pos hin, he]
    · rw [if_neg hin]
      exact ⟨rfl, rfl⟩

theorem attempt_own {a : Attempt F} {streamId : String} (h : a.streamId = some streamId) (p : Publisher F) :
    (attempt fmt lc p a).sequence streamId = p.sequence streamId + 1 ∧
      numbers (attempt fmt lc p a) streamId =
        numbers p streamId ++ if a.passes fmt lc then [p.sequence streamId] else [] := by
  cases a with
  | replay run data => exact (publishNext_numbers fmt lc p run.replayId data _ _ _ streamId).2 (Option.some.inj h)
  | operational own ns source payload data =>
    simp only [attempt, publishOperationalEvent]
    by_cases hin : own ∈ operationalIds
    · rw [Attempt.streamId, if_pos hin] at h
      rw [if_pos hin]
      exact (publishNext_numbers fmt lc p own data source payload _ streamId).2 (Option.some.inj h)
    · rw [Attempt.streamId, if_neg hin] at h
      cases h

/-- How many of the attempts on the stream were rejected. -/
def rejected (attempts : List (Attempt F)) (streamId : String) : Nat :=
  attempts.countP fun a => a.streamId = some streamId && !a.passes fmt lc

/-- The published numbers come in their order, and each rejected attempt used one up. -/
theorem run_numbers (attempts : List (Attempt F)) (broker : EventBroker (EventEnvelopeV1 F)) (streamId : String) :
    let p := run fmt lc (.start broker) attempts
    (numbers p streamId).Sublist (List.range (p.sequence streamId)) ∧
      (numbers p streamId).length + rejected fmt lc attempts streamId = p.sequence streamId := by
  induction attempts using List.reverseRecOn with
  | nil => exact ⟨List.Sublist.refl _, rfl⟩
  | append_singleton attempts a ih =>
    obtain ⟨hsub, hcount⟩ := ih
    simp only [run, List.foldl_append, List.foldl_cons, List.foldl_nil, rejected, List.countP_append,
      List.countP_singleton] at hsub hcount ⊢
    by_cases h : a.streamId = some streamId
    · obtain ⟨hseq, hnumbers⟩ := attempt_own fmt lc h (attempts.foldl (attempt fmt lc) (.start broker))
      rw [hseq, hnumbers, List.range_succ]
      cases hpass : a.passes fmt lc with
      | true =>
        refine ⟨hsub.append (List.Sublist.refl _), ?_⟩
        simp only [h, if_true, List.length_append, List.length_singleton, decide_true, Bool.not_true, Bool.and_false,
          Bool.false_eq_true, if_false]
        omega
      | false =>
        refine ⟨by simpa using hsub.trans (List.sublist_append_left _ _), ?_⟩
        simp only [h, Bool.false_eq_true, if_false, List.append_nil, decide_true, Bool.not_false, Bool.and_self, if_true]
        omega
    · obtain ⟨hnumbers, hseq⟩ := attempt_other fmt lc h (attempts.foldl (attempt fmt lc) (.start broker))
      rw [hseq, hnumbers]
      exact ⟨hsub, by simpa [h] using hcount⟩

/-- The numbers of a stream are gapless just when every attempt on it met the contract. -/
theorem gapless_iff (broker : EventBroker (EventEnvelopeV1 F)) (attempts : List (Attempt F)) (streamId : String) :
    Gapless (run fmt lc (.start broker) attempts) streamId ↔
      ∀ a ∈ attempts, a.streamId = some streamId → a.passes fmt lc = true := by
  obtain ⟨hsub, hcount⟩ := run_numbers fmt lc attempts broker streamId
  have hnone : (∀ a ∈ attempts, a.streamId = some streamId → a.passes fmt lc = true) ↔
      rejected fmt lc attempts streamId = 0 := by
    simp [rejected, List.countP_eq_zero]
  rw [hnone]
  constructor
  · intro hgapless
    have hlength := congrArg List.length hgapless
    rw [List.length_range] at hlength
    omega
  · intro hzero
    refine hsub.eq_of_length ?_
    rw [List.length_range]
    omega

end Publishing

/-! ## A rejected payload -/

def devRun : RunInfo := ⟨"replay", "trace", "feature_store"⟩

def devData (payload : PyValue Unit) : EventData Unit :=
  ⟨.networkFinding, some payload, [], none, some 0, none, none⟩

/-- The second of three payloads names a label: the third envelope carries the number 2. -/
theorem gap_after_rejection :
    ¬ Gapless (run nanOnly asciiLowerCase (.start (.start 4 (by decide) 4 (by decide)))
      [.replay devRun (devData (dictOf [("score", .int 1)])), .replay devRun (devData (dictOf [("label", .int 1)])),
        .replay devRun (devData (dictOf [("score", .int 1)]))]) "replay" := by
  rw [gapless_iff]
  intro h
  have hlabel := h _ (List.mem_cons_of_mem _ List.mem_cons_self) rfl
  revert hlabel
  decide

end EventPublishing
