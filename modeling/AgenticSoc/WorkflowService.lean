import AgenticSoc.EventPublishing
import AgenticSoc.FindingGateway
import AgenticSoc.Grouping
import AgenticSoc.OrchestrationRound
import AgenticSoc.Procedure
import AgenticSoc.WorkflowGateway
import AgenticSoc.WorkflowReadiness

/-!
# Workflow windows

One window after the other is run through five agents, each dispatched by the
orchestration. What the service calls outside (the orchestration, the detectors, the
agents' own computations, the blackboard, the publisher) may answer anything and raise at
any time.
-/
namespace WorkflowService

open Procedure WorkflowReadiness WorkflowGateway DeviceAbm FindingGateway
open OrchestrationMessages OrchestrationRound
open EventPublishing (ReplayEventType)
open BlackboardRecord (runChecks)
open PythonJson (PyFloats PyObject PyDict)

/-- A feature row of either kind, with whether its modality was observed. -/
structure Row (ρ : Type) where
  windowId : Int
  observed : Bool
  windowStartUtc : Option String
  content : ρ

/-- What the orchestration answers to a request. -/
structure Answer where
  decisionId : String
  decision : OrchestrationDecisionV1

inductive WindowStatus where
  | started | completed | failed
  deriving DecidableEq, Repr

inductive Failure where
  | orchestrationNoQuorum (ready : List AgentId)
  | selectedNotReady (selected : Option String)
  | notReady
  | agent (a : AgentId) (error : String)
  deriving DecidableEq

structure AgentExecution where
  agentId : AgentId
  dispatchId : String
  executionId : String
  deriving DecidableEq

structure WorkflowWindowState where
  windowId : Int
  workflowId : String
  replayId : String
  entityId : String
  logicalTimestamp : String
  status : WindowStatus
  dispatchIds : List String
  executionIds : List String
  agentExecutions : List AgentExecution
  threatCorrelationIds : List (String × String)
  riskRecommendationIds : List (String × String)
  accessRecommendationIds : List (String × String)
  enforcementDecisionIds : List (String × String)
  failures : List Failure
  entityIds : List String

def primaryEntity : String := "window-scope"

/-- The references that all events of an orchestration trace carry. -/
structure RoundReference where
  requestId : String
  roundId : String
  decisionId : String

/-- What the downstream work of an entity is bound to. -/
structure Scope where
  replayId : String
  windowId : Int
  logicalTimestamp : String
  entityId : String

def workflowIdOf (replayId : String) : String := replayId ++ "-workflow"

/-- Six hexadecimal digits of a random number. -/
structure Hex6 where
  text : String
  six : text.length = 6
  digits : ∀ c ∈ text.toList, isIdChar c = true

section Model

variable {P : Type} (R : Runtime P)

/-- The events of a window with their payloads. -/
inductive EventData where
  | workflowWindowStarted (workflowId : String)
  | orchestrationRequestReceived (request : OrchestrationRequestV1 R.floats)
  | adjudicationError (requestId roundId reason : String)
  | orchestratorProposal (reference : RoundReference) (summary : ProposalSummaryV1)
  | orchestratorVote (reference : RoundReference) (summary : VoteSummaryV1)
  | orchestratorTimeout (reference : RoundReference) (orchestratorId : String)
  | orchestratorDelayed (reference : RoundReference) (orchestratorId : String)
  | orchestratorOmission (reference : RoundReference) (orchestratorId : String)
  | orchestratorUnavailable (reference : RoundReference) (orchestratorId : String)
  | quorumReached (reference : RoundReference) (supporting : List String) (selectedRouteId : Option String)
      (selectedProposalDigest : Option String)
  | noQuorum (reference : RoundReference) (outcome : OrchestrationOutcome) (reason : String)
  | orchestrationDecision (answer : Answer)
  | agentDispatched (a : AgentId) (dispatchId workflowId : String) (reference : RoundReference) (selectedRouteId : String)
  | agentExecutionStarted (a : AgentId) (dispatchId : String)
  | agentExecutionCompleted (a : AgentId) (executionId : String) (findings : Option Nat)
  | agentExecutionSkipped (a : AgentId)
  | agentExecutionFailed (a : AgentId) (error : String)
  | threatCorrelationProduced (output : ThreatCorrelationV1)
  | riskRecommendationProduced (output : RiskRecommendationV1)
  | accessRecommendationProduced (output : AccessRecommendationV1)
  | enforcementDecisionCommitted (output : EnforcementDecisionV1)
  | windowFailedNoQuorum (ready : List AgentId)
  | windowFailedNotReady (selected : Option String)
  | windowFailed (workflowId : String) (failures : List Failure)
  | windowCompleted (workflowId : String) (dispatchIds : List String)

def EventData.eventType : EventData R → ReplayEventType
  | .workflowWindowStarted _ => .workflowWindowStarted
  | .orchestrationRequestReceived _ => .orchestrationRequestReceived
  | .adjudicationError _ _ _ => .orchestrationNoQuorum
  | .orchestratorProposal _ _ => .orchestratorProposal
  | .orchestratorVote _ _ => .orchestratorVote
  | .orchestratorTimeout _ _ => .orchestratorTimeout
  | .orchestratorDelayed _ _ => .orchestratorDelayed
  | .orchestratorOmission _ _ => .orchestratorOmission
  | .orchestratorUnavailable _ _ => .orchestratorStatus
  | .quorumReached _ _ _ _ => .orchestrationQuorumReached
  | .noQuorum _ _ _ => .orchestrationNoQuorum
  | .orchestrationDecision _ => .orchestrationDecision
  | .agentDispatched _ _ _ _ _ => .agentDispatched
  | .agentExecutionStarted _ _ => .agentExecutionStarted
  | .agentExecutionCompleted _ _ _ => .agentExecutionCompleted
  | .agentExecutionSkipped _ => .agentExecutionSkipped
  | .agentExecutionFailed _ _ => .agentExecutionFailed
  | .threatCorrelationProduced _ => .threatCorrelationProduced
  | .riskRecommendationProduced _ => .riskRecommendationProduced
  | .accessRecommendationProduced _ => .accessRecommendationProduced
  | .enforcementDecisionCommitted _ => .enforcementDecisionCommitted
  | .windowFailedNoQuorum _ => .workflowWindowFailed
  | .windowFailedNotReady _ => .workflowWindowFailed
  | .windowFailed _ _ => .workflowWindowFailed
  | .windowCompleted _ _ => .workflowWindowCompleted

structure WorkflowEvent where
  replayId : String
  windowId : Int
  entityId : Option String
  logicalTimestamp : Option String
  data : EventData R

/-- What the service calls outside. The detector and the profiler have states of their own,
all else shares one. -/
structure Environment (F σ δ π ρ : Type) where
  hex6 : σ → Hex6 × σ
  uuid4 : σ → String × σ
  utcNow : σ → String × σ
  validTimestamp : String → Bool
  /-- An orchestration with a coordinator is attached. -/
  orchestrated : Bool
  blackboardEnabled : Bool
  safe : Output → Bool
  /-- Whether the event was published. -/
  publish : WorkflowEvent R → σ → Except String Bool × σ
  adjudicate : OrchestrationRequestV1 R.floats → σ → Except String Answer × σ
  findingsFromRecords : List (Row ρ) → δ → Except String (List (NetworkFinding F)) × δ
  predictRecord : Row ρ → Bool → Int → π → Except String (Option (BehaviorFinding F)) × π
  onFinding : Finding F → σ → Except String Unit × σ
  /-- Faults inside the propagation, the snapshot of a step, and its spill to disk. -/
  propagateFault : σ → Option String × σ
  snapshotFault : σ → Option String × σ
  spillFault : σ → Option String × σ
  correlate : Scope → List (Finding F) → σ → Except String ThreatCorrelationV1 × σ
  analyze : Scope → DeviceState F → Option ThreatCorrelationV1 → σ → Except String RiskRecommendationV1 × σ
  decide : Scope → RiskRecommendationV1 → Option ThreatCorrelationV1 → σ → Except String AccessRecommendationV1 × σ
  /-- The outcome of a blackboard write, if there is one. -/
  recordWorkflowOutput : Scope → Output → σ → Except String (Option String) × σ
  commit : Scope → AccessRecommendationV1 → σ → Except String EnforcementDecisionV1 × σ

/-- What happens in a window, as far as its dispatches go. -/
inductive Happening where
  | requested (request : OrchestrationRequestV1 R.floats)
  | answered (ready : List AgentId) (answer : Option Answer)
  | executing (a : AgentId)
  | finished (a : AgentId)
  | joined
  | joinFailed

/-- The calls on the device model that the scientific record is about. -/
inductive AbmCall (F : Type) where
  | evidence (f : Finding F)
  | propagated
  | recorded (windowId : Option Int)

/-- The local variables of a window, with what has happened in it. -/
structure Frame (F : Type) where
  completed : List AgentId
  findings : List (Finding F)
  deviceRiskAvailable : Bool
  riskRecAvailable : Bool
  threatCorrs : List (String × ThreatCorrelationV1)
  riskRecs : List (String × RiskRecommendationV1)
  record : List (Happening R)

def Frame.start (F : Type) : Frame R F := ⟨[], [], false, false, [], [], []⟩

structure World (F σ δ π : Type) where
  env : σ
  detector : δ
  profiler : π
  gateway : Gateway F
  outputs : WorkflowOutputGateway
  windows : List WorkflowWindowState
  published : List (WorkflowEvent R)
  frame : Frame R F
  abmCalls : List (AbmCall F)

/-- The arguments of a window. -/
structure Call (ρ : Type) where
  replayId : String
  windowId : Int
  logicalTimestamp : Option String
  netRows : List (Row ρ)
  behRows : List (Row ρ)

def Call.workflowId {ρ : Type} (call : Call ρ) : String := workflowIdOf call.replayId

def Call.scope {ρ : Type} (call : Call ρ) (logicalTimestamp entityId : String) : Scope :=
  ⟨call.replayId, call.windowId, logicalTimestamp, entityId⟩

/-- A window's work: what it computes in the world, or raises. -/
abbrev Work (F σ δ π α : Type) := Proc String (World R F σ δ π) α

variable {R} {F σ δ π ρ : Type}

/-- An entry of a dictionary is set: in its place if the key is there, or else at the end. -/
def setKey {α : Type} (key : String) (value : α) (entries : List (String × α)) : List (String × α) :=
  if entries.any (fun e => e.1 = key) then entries.map fun e => if e.1 = key then (key, value) else e
  else entries ++ [(key, value)]

def getKey {α : Type} (key : String) (entries : List (String × α)) : Option α :=
  (entries.find? fun e => e.1 = key).map Prod.snd

def sortedKeys {α : Type} (entries : List (String × α)) : List String := Sorting.sortBy id (entries.map Prod.fst)

/-! ## Small steps -/

def ask {α : Type} (op : σ → Except String α × σ) : Work R F σ δ π α := fun s =>
  ((op s.env).1, { s with env := (op s.env).2 })

def fresh {α : Type} (op : σ → α × σ) : Work R F σ δ π α := fun s =>
  (.ok (op s.env).1, { s with env := (op s.env).2 })

def detect (E : Environment R F σ δ π ρ) (rows : List (Row ρ)) : Work R F σ δ π (List (NetworkFinding F)) := fun s =>
  ((E.findingsFromRecords rows s.detector).1, { s with detector := (E.findingsFromRecords rows s.detector).2 })

def predict (E : Environment R F σ δ π ρ) (row : Row ρ) (contextActive : Bool) (windowId : Int) :
    Work R F σ δ π (Option (BehaviorFinding F)) := fun s =>
  ((E.predictRecord row contextActive windowId s.profiler).1,
    { s with profiler := (E.predictRecord row contextActive windowId s.profiler).2 })

def noteHappening (h : Happening R) : Work R F σ δ π Unit :=
  update fun s => { s with frame := { s.frame with record := s.frame.record ++ [h] } }

def onFrame (f : Frame R F → Frame R F) : Work R F σ δ π Unit := update fun s => { s with frame := f s.frame }

def onWindow (windowId : Int) (f : WorkflowWindowState → WorkflowWindowState) : Work R F σ δ π Unit :=
  update fun s => { s with windows := s.windows.map fun w => if w.windowId = windowId then f w else w }

def setStatus (windowId : Int) (status : WindowStatus) : Work R F σ δ π Unit :=
  onWindow windowId fun w => { w with status := status }

def onAbm (f : Abm F → Abm F) : Work R F σ δ π Unit :=
  update fun s => { s with gateway := { s.gateway with abm := f s.gateway.abm } }

def noteAbmCall (c : AbmCall F) : Work R F σ δ π Unit := update fun s => { s with abmCalls := s.abmCalls ++ [c] }

section Window

variable [RiskNumber F] (E : Environment R F σ δ π ρ) (call : Call ρ)

def publish (data : EventData R) (entityId : Option String) (logicalTimestamp : Option String) : Work R F σ δ π Bool :=
  fun s =>
    let event : WorkflowEvent R := ⟨call.replayId, call.windowId, entityId, logicalTimestamp, data⟩
    match E.publish event s.env with
    | (.error e, env) => (.error e, { s with env := env })
    | (.ok true, env) => (.ok true, { s with env := env, published := s.published ++ [event] })
    | (.ok false, env) => (.ok false, { s with env := env })

/-- An event of the window as a whole. -/
def publishWindow (data : EventData R) (logicalTimestamp : Option String) : Work R F σ δ π Unit := do
  let _ ← publish E call data (some primaryEntity) logicalTimestamp

/-- A fault of the outside, if there is one. -/
def mayFail (fault : σ → Option String × σ) : Work R F σ δ π Unit := fun s =>
  match fault s.env with
  | (some e, env) => (.error e, { s with env := env })
  | (none, env) => (.ok (), { s with env := env })

def propagate : Work R F σ δ π Unit := do
  mayFail E.propagateFault
  let abm ← read fun s => s.gateway.abm
  match abm.propagate with
  | .error e => raise e
  | .ok abm => do
    onAbm fun _ => abm
    noteAbmCall .propagated

def recordStep : Work R F σ δ π Unit := do
  onAbm Abm.countStep
  mayFail E.snapshotFault
  let abm ← read fun s => s.gateway.abm
  onAbm Abm.remember
  noteAbmCall (.recorded abm.currentWindowId)
  mayFail E.spillFault

def setCurrentWindow (windowId : Int) : Work R F σ δ π Unit := onAbm fun abm => { abm with currentWindowId := some windowId }

/-- A finding goes through the gateway, and an accepted one to the subscribers. -/
def submitFinding (f : Finding F) : Work R F σ δ π Bool := fun s =>
  match FindingGateway.submit E.validTimestamp s.gateway (.finding f) with
  | (g, .error e) => (.error e, { s with gateway := g })
  | (g, .ok false) => (.ok false, { s with gateway := g })
  | (g, .ok true) =>
    let s := { s with gateway := g, abmCalls := s.abmCalls ++ [AbmCall.evidence f] }
    ((E.onFinding f s.env).1.map fun _ => true, { s with env := (E.onFinding f s.env).2 })

/-! ## Dispatch -/

/-- The events of a decision: its proposals and votes, who was missing, and what came of it. -/
def traceEvents (request : OrchestrationRequestV1 R.floats) (answer : Answer) : List (EventData R × Option String) :=
  let d := answer.decision
  let reference : RoundReference := ⟨request.requestId, request.roundId, answer.decisionId⟩
  d.proposalSummaries.map (fun p => (.orchestratorProposal reference p, some p.orchestratorId)) ++
  d.voteSummaries.map (fun v => (.orchestratorVote reference v, some v.orchestratorId)) ++
  d.timedOutOrchestrators.map (fun id => (.orchestratorTimeout reference id, some id)) ++
  d.delayedOrchestrators.map (fun id => (.orchestratorDelayed reference id, some id)) ++
  d.omittedOrchestrators.map (fun id => (.orchestratorOmission reference id, some id)) ++
  d.unavailableOrchestrators.map (fun id => (.orchestratorUnavailable reference id, some id)) ++
  [if d.quorumFormed then
      (.quorumReached reference d.supportingOrchestrators d.selectedRouteId d.selectedProposalDigest, none)
    else (.noQuorum reference d.outcome d.reason, none),
    (.orchestrationDecision answer, none)]

def publishOrchestrationTrace (request : OrchestrationRequestV1 R.floats) (answer : Answer) : Work R F σ δ π Unit :=
  each (fun (e : EventData R × Option String) => do
    let _ ← publish E call e.1 e.2 request.logicalTimestamp) (traceEvents request answer)

/-- The provenance of a dispatch. -/
def dispatchProvenance {P : Type} (fmt : PyFloats P) (replayId : String) : PyDict fmt where
  toPyObject := PyObject.ofJson fmt (.obj [("replay_id", .str replayId), ("workflow_dispatch", .bool true)])
    (.obj _ (by simp) (by
      intro m hm
      simp only [List.mem_cons, List.not_mem_nil, or_false] at hm
      rcases hm with rfl | rfl
      · exact .str _
      · exact .bool _))
  textDict := rfl

def dispatchRequest (logicalTimestamp : String) (ready : List AgentId) (requestHex roundHex : String) :
    OrchestrationRequestV1 R.floats :=
  { requestId := call.replayId ++ "-" ++ toString call.windowId ++ "-" ++ requestHex
    requestVersion := 1
    roundId := call.replayId ++ "-" ++ toString call.windowId ++ "-" ++ roundHex
    decisionKind := "WORKFLOW_DISPATCH"
    candidateRoutes := (sortedByName ready).map fun a => ⟨agentToRoute a, 0⟩
    logicalTimestamp := some logicalTimestamp
    windowId := some call.windowId
    scopeId := none
    sourceComponent := "agentic_workflow.workflow_service"
    provenance := dispatchProvenance R.floats call.replayId }

def dispatchViaOrchestration (logicalTimestamp : String) (ready : List AgentId) : Work R F σ δ π (Option Answer) := do
  if ready.isEmpty then return none
  let requestHex ← fresh E.hex6
  let roundHex ← fresh E.hex6
  let request := dispatchRequest (R := R) call logicalTimestamp ready requestHex.text roundHex.text
  noteHappening (.requested request)
  match runChecks (requestChecks R request) with
  | .error message => raise message
  | .ok () =>
    if !E.orchestrated then return none
    let requestPublished ← publish E call (.orchestrationRequestReceived request) none request.logicalTimestamp
    let answer ← attempt (do
        let answer ← ask (E.adjudicate request)
        return some answer) fun e => do
      if requestPublished then
        let _ ← publish E call (.adjudicationError request.requestId request.roundId e) none request.logicalTimestamp
      return none
    match answer with
    | none => return none
    | some answer =>
      if requestPublished then publishOrchestrationTrace E call request answer
      return some answer

/-! ## Agents -/

/-- The execution is noted with a new identity, which is published. -/
def publishCompleted (a : AgentId) (dispatchId : String) (findings : Option Nat) : Work R F σ δ π Unit := do
  let executionId ← fresh E.uuid4
  onWindow call.windowId fun w =>
    { w with
      executionIds := w.executionIds ++ [executionId]
      agentExecutions := w.agentExecutions ++ [⟨a, dispatchId, executionId⟩] }
  publishWindow E call (.agentExecutionCompleted a executionId findings) none

def complete (a : AgentId) : Work R F σ δ π Unit := do
  onFrame fun f => { f with completed := f.completed ++ [a] }
  noteHappening (.finished a)

/-- With both detectors done, the step of the window is propagated and recorded. What this
raises is dropped. -/
def joinDetectors : Work R F σ δ π Unit := do
  let completed ← read fun s => s.frame.completed
  if .networkAnomalyDetector ∈ completed ∧ .iotBehavioralProfiler ∈ completed then
    attempt (do
      setCurrentWindow call.windowId
      propagate E
      recordStep E
      onFrame fun f => { f with deviceRiskAvailable := true }
      noteHappening .joined) fun _ => noteHappening .joinFailed
  else return ()

/-- An accepted finding counts for the window. -/
def gatherFinding (f : Finding F) : Work R F σ δ π Bool := do
  let accepted ← submitFinding E f
  if accepted then onFrame fun fr => { fr with findings := fr.findings ++ [f] }
  return accepted

def networkWork (dispatchId : String) : Work R F σ δ π Unit := do
  let eligible := call.netRows.filter Row.observed
  if eligible.isEmpty then publishWindow E call (.agentExecutionSkipped .networkAnomalyDetector) none
  else
    let findings ← detect E eligible
    each (fun f => do let _ ← gatherFinding E (.network f)) findings
    publishCompleted E call .networkAnomalyDetector dispatchId (some findings.length)

/-- The findings of a row that were accepted are counted. -/
def profileRows (contextActive : Bool) : List (Row ρ) → Nat → Work R F σ δ π Nat
  | [], accepted => return accepted
  | row :: rows, accepted => do
    let finding ← predict E row contextActive call.windowId
    match finding with
    | none => profileRows contextActive rows accepted
    | some f => do
      let ok ← gatherFinding E (.behavior f)
      profileRows contextActive rows (if ok then accepted + 1 else accepted)

def behaviorWork (dispatchId : String) : Work R F σ δ π Unit := do
  let accepted ← profileRows E call (call.behRows.any Row.observed) call.behRows 0
  publishCompleted E call .iotBehavioralProfiler dispatchId (some accepted)

/-- A downstream output goes through the output gateway and, where there is one, to the
blackboard. -/
def submitOutput (label : String) (expected : Expected) (entityId : String) (o : Output) : Work R F σ δ π Unit := do
  let outputs ← read fun s => s.outputs
  let (outputs', accepted) := WorkflowGateway.submit E.safe outputs o expected
  update fun s => { s with outputs := outputs' }
  if accepted then return () else raise (label ++ " gateway rejected for " ++ entityId)

def recordOutput (label logicalTimestamp entityId : String) (o : Output) : Work R F σ δ π Unit := do
  if E.blackboardEnabled then
    let outcome ← ask (E.recordWorkflowOutput (call.scope logicalTimestamp entityId) o)
    if outcome = some "COMMITTED" then return () else raise (label ++ " blackboard failed for " ++ entityId)
  else return ()

def expectedOf (entityId : String) : Expected := ⟨some call.workflowId, none, some call.windowId, some entityId⟩

def threatEntity (logicalTimestamp : String) (group : String × List (Finding F)) : Work R F σ δ π Unit := do
  let entityId := group.1
  let abm ← read fun s => s.gateway.abm
  match abm.resolve entityId with
  | none => return ()
  | some st =>
    if !st.isProtectedAsset then return ()
    let corr ← ask (E.correlate (call.scope logicalTimestamp entityId) group.2)
    submitOutput E "threat" (expectedOf call entityId) entityId (.threat corr)
    recordOutput E call "threat" logicalTimestamp entityId (.threat corr)
    onFrame fun f => { f with threatCorrs := setKey entityId corr f.threatCorrs }
    onWindow call.windowId fun w =>
      { w with threatCorrelationIds := setKey entityId corr.correlationId w.threatCorrelationIds }
    let _ ← publish E call (.threatCorrelationProduced corr) (some entityId) none

def threatWork (logicalTimestamp dispatchId : String) : Work R F σ δ π Unit := do
  let findings ← read fun s => s.frame.findings
  let groups := Sorting.sortBy Prod.fst (Grouping.groupOn Finding.entityId (findings.filter fun f => f.entityId ≠ ""))
  onWindow call.windowId fun w => { w with entityIds := groups.map Prod.fst }
  each (threatEntity E call logicalTimestamp) groups
  publishCompleted E call .threatIntelligenceCorrelator dispatchId none

def riskEntity (logicalTimestamp entityId : String) : Work R F σ δ π Unit := do
  let abm ← read fun s => s.gateway.abm
  let corr ← read fun s => getKey entityId s.frame.threatCorrs
  match abm.resolve entityId with
  | none => return ()
  | some st =>
    if !st.isProtectedAsset then return ()
    let rec ← ask (E.analyze (call.scope logicalTimestamp entityId) st corr)
    submitOutput E "risk" (expectedOf call entityId) entityId (.risk rec)
    recordOutput E call "risk" logicalTimestamp entityId (.risk rec)
    onWindow call.windowId fun w =>
      { w with riskRecommendationIds := setKey entityId rec.recommendationId w.riskRecommendationIds }
    onFrame fun f => { f with riskRecs := setKey entityId rec f.riskRecs }
    let _ ← publish E call (.riskRecommendationProduced rec) (some entityId) none

def riskWork (logicalTimestamp dispatchId : String) : Work R F σ δ π Unit := do
  attempt (propagate E) fun _ => return ()
  onFrame fun f => { f with deviceRiskAvailable := true }
  let corrs ← read fun s => s.frame.threatCorrs
  each (riskEntity E call logicalTimestamp) (sortedKeys corrs)
  publishCompleted E call .riskPropagationAnalyst dispatchId none

def accessEntity (logicalTimestamp entityId : String) : Work R F σ δ π Unit := do
  let riskRec ← read fun s => getKey entityId s.frame.riskRecs
  let corr ← read fun s => getKey entityId s.frame.threatCorrs
  match riskRec with
  | none => return ()
  | some riskRec =>
    let accessRec ← ask (E.decide (call.scope logicalTimestamp entityId) riskRec corr)
    submitOutput E "access" (expectedOf call entityId) entityId (.access accessRec)
    recordOutput E call "access" logicalTimestamp entityId (.access accessRec)
    onWindow call.windowId fun w =>
      { w with accessRecommendationIds := setKey entityId accessRec.recommendationId w.accessRecommendationIds }
    let _ ← publish E call (.accessRecommendationProduced accessRec) (some entityId) none
    let enforcement ← ask (E.commit (call.scope logicalTimestamp entityId) accessRec)
    submitOutput E "enforcement" { expectedOf call entityId with replayId := some call.replayId } entityId
      (.enforcement enforcement)
    onWindow call.windowId fun w =>
      { w with enforcementDecisionIds := setKey entityId enforcement.decisionId w.enforcementDecisionIds }
    let _ ← publish E call (.enforcementDecisionCommitted enforcement) (some entityId) none

def accessWork (logicalTimestamp dispatchId : String) : Work R F σ δ π Unit := do
  let recs ← read fun s => s.frame.riskRecs
  each (accessEntity E call logicalTimestamp) (sortedKeys recs)
  publishCompleted E call .trustAccessController dispatchId none

/-- One agent, and what its completion makes available. -/
def execute (logicalTimestamp dispatchId : String) : AgentId → Work R F σ δ π Unit
  | .networkAnomalyDetector => do
    networkWork E call dispatchId
    complete .networkAnomalyDetector
    joinDetectors E call
  | .iotBehavioralProfiler => do
    behaviorWork E call dispatchId
    complete .iotBehavioralProfiler
    joinDetectors E call
  | .threatIntelligenceCorrelator => do
    threatWork E call logicalTimestamp dispatchId
    complete .threatIntelligenceCorrelator
  | .riskPropagationAnalyst => do
    riskWork E call logicalTimestamp dispatchId
    complete .riskPropagationAnalyst
    onFrame fun f => { f with deviceRiskAvailable := true, riskRecAvailable := true }
  | .trustAccessController => do
    accessWork E call logicalTimestamp dispatchId
    complete .trustAccessController
    onFrame fun f => { f with riskRecAvailable := true }

/-! ## The window -/

def addFailure (failure : Failure) : Work R F σ δ π Unit :=
  onWindow call.windowId fun w => { w with failures := w.failures ++ [failure] }

/-- The route that a decided answer selects. -/
def selectedRoute (answer : Option Answer) : Option (Answer × Option String) :=
  match answer with
  | none => none
  | some a => if a.decision.outcome = .decided then some (a, a.decision.selectedRouteId) else none

/-- The dispatched agent runs, and what it raises fails the window. Whether the loop goes on. -/
def executeAgent (logicalTimestamp : String) (a : AgentId) (answer : Answer) (selected : String) : Work R F σ δ π Bool := do
  let dispatchId ← fresh E.uuid4
  onWindow call.windowId fun w => { w with dispatchIds := w.dispatchIds ++ [dispatchId] }
  publishWindow E call (.agentDispatched a dispatchId call.workflowId
    ⟨answer.decision.requestId, answer.decision.roundId, answer.decisionId⟩ selected) none
  publishWindow E call (.agentExecutionStarted a dispatchId) none
  noteHappening (.executing a)
  attempt (do
    execute E call logicalTimestamp dispatchId a
    return true) fun e => do
      addFailure call (.agent a e)
      publishWindow E call (.agentExecutionFailed a e) none
      setStatus call.windowId .failed
      return false

/-- What an answer comes to: the agent that it selects runs, or the window fails. Whether the
loop goes on. -/
def settleAnswer (logicalTimestamp : String) (ready : List AgentId) (answer : Option Answer) : Work R F σ δ π Bool :=
  match selectedRoute answer with
  | none => do
    addFailure call (.orchestrationNoQuorum ready)
    setStatus call.windowId .failed
    publishWindow E call (.windowFailedNoQuorum ready) none
    return false
  | some (answer, selected) =>
    match selected.bind fun route => if route ∈ ready.map agentToRoute then some route else none with
    | none => do
      addFailure call (.selectedNotReady selected)
      setStatus call.windowId .failed
      publishWindow E call (.windowFailedNotReady selected) none
      return false
    | some route =>
      match routeToAgent route with
      | none => raise "KeyError"
      | some a =>
        if a ∈ ready then executeAgent E call logicalTimestamp a answer route
        else do
          addFailure call .notReady
          setStatus call.windowId .failed
          return false

/-- One round of the dispatch loop. Whether the loop goes on. -/
def dispatchRound (logicalTimestamp : String) : Work R F σ δ π Bool := do
  let frame ← read World.frame
  let ready := readyAgents frame.completed frame.deviceRiskAvailable frame.riskRecAvailable
  if ready.isEmpty then return false
  let answer ← dispatchViaOrchestration E call logicalTimestamp ready
  noteHappening (.answered ready answer)
  settleAnswer E call logicalTimestamp ready answer

def dispatchLoop (logicalTimestamp : String) : Nat → Work R F σ δ π Unit
  | 0 => return ()
  | rounds + 1 => do
    let goesOn ← dispatchRound E call logicalTimestamp
    if goesOn then dispatchLoop logicalTimestamp rounds else return ()

def maxIterations : Nat := 6

/-- The first window that is over is dropped. -/
def evictTerminal : List WorkflowWindowState → Option (List WorkflowWindowState)
  | [] => none
  | w :: windows => if w.status = .started then (evictTerminal windows).map (w :: ·) else some windows

/-- Windows that are over make room, at most so many. -/
def makeRoom (limit : Nat) : Nat → List WorkflowWindowState → Except String (List WorkflowWindowState)
  | 0, windows => .ok windows
  | evictions + 1, windows =>
    if windows.length < limit then .ok windows
    else
      match evictTerminal windows with
      | none => .error "window_states capacity exhausted by active windows"
      | some windows => makeRoom limit evictions windows

def rememberWindowState (limit : Nat) (windows : List WorkflowWindowState) (w : WorkflowWindowState) :
    Except String (List WorkflowWindowState) :=
  if windows.any fun w' => w'.windowId = w.windowId then .error ("duplicate workflow window " ++ toString w.windowId)
  else (makeRoom limit windows.length windows).map (· ++ [w])

structure WindowResult where
  workflowId : String
  windowId : Int
  entityId : String
  status : WindowStatus
  executions : List AgentExecution
  failures : List Failure
  network : Nat
  behavior : Nat
  findingsNetwork : Nat
  behaviorObserved : Nat
  behaviorAbsence : Nat

def isAbsence (f : BehaviorFinding F) : Bool := "unexpected_absence".toList.isPrefixOf f.explanation.toList

def networkCount (findings : List (Finding F)) : Nat :=
  findings.countP fun f => match f with | .network _ => true | .behavior _ => false

def behaviorCount (findings : List (Finding F)) : Nat :=
  findings.countP fun f => match f with | .network _ => false | .behavior _ => true

def absenceCount (findings : List (Finding F)) : Nat :=
  findings.countP fun f => match f with | .network _ => false | .behavior f => isAbsence f

def windowResult (findings : List (Finding F)) (w : WorkflowWindowState) : WindowResult :=
  { workflowId := w.workflowId
    windowId := w.windowId
    entityId := primaryEntity
    status := w.status
    executions := w.agentExecutions
    failures := w.failures
    network := networkCount findings
    behavior := behaviorCount findings
    findingsNetwork := networkCount findings
    behaviorObserved := behaviorCount findings - absenceCount findings
    behaviorAbsence := absenceCount findings }

def findWindow (windowId : Int) (windows : List WorkflowWindowState) : Option WorkflowWindowState :=
  windows.find? fun w => w.windowId = windowId

/-- A window that has not failed is completed, and its end is published. -/
def finishWindow (w : WorkflowWindowState) : Work R F σ δ π Unit := do
  if w.status ≠ .failed then
    setStatus call.windowId .completed
    publishWindow E call (.windowCompleted w.workflowId w.dispatchIds) none
  else publishWindow E call (.windowFailed w.workflowId w.failures) none

def newWindow (logicalTimestamp : String) : WorkflowWindowState :=
  ⟨call.windowId, call.workflowId, call.replayId, primaryEntity, logicalTimestamp, .started, [], [], [], [], [], [], [],
    [], []⟩

/-- The window joins the table, or the call raises. -/
def registerWindow (limit : Nat) (logicalTimestamp : String) : Work R F σ δ π Unit := do
  let windows ← read World.windows
  match rememberWindowState limit windows (newWindow call logicalTimestamp) with
  | .error e => raise e
  | .ok windows => update fun s => { s with windows := windows }

/-- The end of a window and what is returned of it. -/
def closeWindow : Work R F σ δ π (Option WindowResult) := do
  let w ← read fun s => findWindow call.windowId s.windows
  each (finishWindow E call) w.toList
  let w ← read fun s => findWindow call.windowId s.windows
  let findings ← read fun s => s.frame.findings
  return w.map (windowResult findings)

/-- The window from its registration on. -/
def runWindow (logicalTimestamp : String) : Work R F σ δ π (Option WindowResult) := do
  publishWindow E call (.workflowWindowStarted call.workflowId) (some logicalTimestamp)
  dispatchLoop E call logicalTimestamp maxIterations
  closeWindow E call

def executeWindow (limit : Nat) : Work R F σ δ π (Option WindowResult) := do
  onFrame fun _ => .start R F
  setCurrentWindow call.windowId
  let now ← match call.logicalTimestamp.filter (· ≠ "") with
    | some text => pure text
    | none => fresh E.utcNow
  registerWindow call limit now
  runWindow E call now

end Window

end Model

end WorkflowService
