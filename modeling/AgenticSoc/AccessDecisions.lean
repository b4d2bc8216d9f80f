import AgenticSoc.ActionCommits
import AgenticSoc.WorkflowService

/-!
# From the risks of a device to an action

The risk analyst reads the state of a device and names what it sees. The access controller
turns that into an action by the thresholds of its policy, and the committer takes the action
as it is.
-/
namespace AccessDecisions

open WorkflowGateway DeviceAbm WorkflowService
open ActionLookup (Turn)

variable {F : Type}

/-! ## What is decided -/

structure Stage8PolicyConfig (F : Type) where
  policyId : String
  policyVersion : String
  monitorThreshold : F
  blockThreshold : F

/-- The levels at which the analyst names a risk. -/
structure RiskLevels (F : Type) where
  propagated : F
  elevated : F
  medium : F
  high : F

/-- A risk recommendation with the rest of its fields. -/
structure RiskAssessment (F : Type) extends RiskRecommendationV1 where
  logicalTimestamp : String
  networkRisk : Option F
  behaviorRisk : Option F
  behaviorSupported : Bool
  directRisk : Option F
  propagatedRisk : F
  systemicRisk : F
  evidenceComplete : Bool
  reasonCodes : List String
  recommendedEscalation : ActionType

/-- What the agents check their inputs and outputs with. -/
structure Checks (F : Type) where
  safeState : DeviceState F → Bool
  safeRisk : RiskAssessment F → Bool
  /-- Whether the contract of the output takes it. -/
  riskContract : RiskAssessment F → Bool
  accessContract : AccessRecommendationV1 → Bool

/-- The first correlation that is bound otherwise, with what is wrong about it. -/
def correlationMismatch (scope : Scope) (workflowId : String) (corrs : List ThreatCorrelationV1) : Option String :=
  corrs.findSome? fun corr =>
    if corr.workflowId ≠ workflowId then some "threat correlation workflow_id mismatch"
    else if corr.entityId ≠ scope.entityId then some "threat correlation entity_id mismatch"
    else if corr.windowId ≠ scope.windowId then some "threat correlation window_id mismatch"
    else none

/-- A device without behaviour needs no evidence of it. -/
def evidenceComplete (st : DeviceState F) : Bool := st.networkObserved && (!st.behaviorSupported || st.behaviorObserved)

section Agents

variable [RiskNumber F]

def directRisk (st : DeviceState F) : Option F :=
  match st.networkRisk, st.behaviorRisk with
  | none, none => none
  | some nr, none => some nr
  | none, some br => some br
  | some nr, some br => some (max nr br)

def oneOf (c : Prop) [Decidable c] (code : String) : List String := if c then [code] else []

def reasonCodes (levels : RiskLevels F) (st : DeviceState F) : List String :=
  oneOf (∃ r ∈ st.networkRisk, levels.elevated ≤ r) "network_risk_elevated" ++
  oneOf (∃ r ∈ st.behaviorRisk, levels.elevated ≤ r) "behavior_risk_elevated" ++
  oneOf (levels.propagated < st.propagatedRisk) "propagated_risk_present" ++
  [if levels.high ≤ st.systemicRisk then "systemic_risk_high"
    else if levels.medium ≤ st.systemicRisk then "systemic_risk_medium"
    else "systemic_risk_low"] ++
  oneOf (evidenceComplete st = false) "incomplete_evidence"

def escalation (levels : RiskLevels F) (st : DeviceState F) : ActionType :=
  if levels.high ≤ st.systemicRisk then .block
  else if levels.medium ≤ st.systemicRisk ∨ evidenceComplete st = false then .monitor
  else .allow

/-- The recommendation of the risk analyst, under a new identity. -/
def analyze (levels : RiskLevels F) (checks : Checks F) (scope : Scope) (recommendationId : String) (st : DeviceState F)
    (corrs : List ThreatCorrelationV1) : Except String (RiskAssessment F) :=
  if !checks.safeState st then .error "ground-truth leakage in risk_analyst device_state"
  else
    match correlationMismatch scope (workflowIdOf scope.replayId) corrs with
    | some message => .error message
    | none =>
      if st.nodeId ≠ scope.entityId then .error "device_state entity_id mismatch"
      else if !st.behaviorSupported && st.behaviorRisk.isSome then
        .error "behavior_risk must be None when behavior_supported is False"
      else
        let assessment : RiskAssessment F :=
          { recommendationId := recommendationId
            workflowId := workflowIdOf scope.replayId
            entityId := scope.entityId
            windowId := scope.windowId
            threatCorrelationRefs := corrs.map ThreatCorrelationV1.correlationId
            logicalTimestamp := scope.logicalTimestamp
            networkRisk := st.networkRisk
            behaviorRisk := st.behaviorRisk
            behaviorSupported := st.behaviorSupported
            directRisk := directRisk st
            propagatedRisk := st.propagatedRisk
            systemicRisk := st.systemicRisk
            evidenceComplete := evidenceComplete st
            reasonCodes := reasonCodes levels st
            recommendedEscalation := escalation levels st }
        if checks.riskContract assessment then .ok assessment else .error "ValidationError"

/-- Without evidence nothing is allowed. -/
def Stage8PolicyConfig.action (policy : Stage8PolicyConfig F) (systemic : F) (complete : Bool) : ActionType :=
  if !complete then if policy.blockThreshold ≤ systemic then .block else .monitor
  else if policy.blockThreshold ≤ systemic then .block
  else if policy.monitorThreshold ≤ systemic then .monitor
  else .allow

/-- The recommendation of the access controller, under a new identity. -/
def decide (policy : Stage8PolicyConfig F) (checks : Checks F) (scope : Scope) (recommendationId : String)
    (risk : RiskAssessment F) (corrs : List ThreatCorrelationV1) : Except String AccessRecommendationV1 :=
  if !checks.safeRisk risk then .error "ground-truth leakage in access_controller risk_recommendation"
  else if risk.workflowId ≠ workflowIdOf scope.replayId then .error "risk recommendation workflow_id mismatch"
  else if risk.entityId ≠ scope.entityId then .error "risk recommendation entity_id mismatch"
  else if risk.windowId ≠ scope.windowId then .error "risk recommendation window_id mismatch"
  else if risk.logicalTimestamp ≠ scope.logicalTimestamp then .error "risk recommendation logical_timestamp mismatch"
  else
    match correlationMismatch scope (workflowIdOf scope.replayId) corrs with
    | some message => .error message
    | none =>
      let recommendation : AccessRecommendationV1 :=
        { recommendationId := recommendationId
          workflowId := workflowIdOf scope.replayId
          entityId := scope.entityId
          windowId := scope.windowId
          logicalTimestamp := scope.logicalTimestamp
          action := policy.action risk.systemicRisk risk.evidenceComplete
          policyId := policy.policyId
          policyVersion := policy.policyVersion
          evidenceRefs := risk.recommendationId :: corrs.map ThreatCorrelationV1.correlationId
          evidenceComplete := risk.evidenceComplete
          behaviorSupported := risk.behaviorSupported
          reasonCodes := risk.reasonCodes ++ oneOf (risk.evidenceComplete = false) "missing_evidence_conservative" }
      if checks.accessContract recommendation then .ok recommendation else .error "ValidationError"

/-! ## What the agents do -/

/-- An assessment is of the device, and says what its state says. -/
structure Assesses (a : RiskAssessment F) (st : DeviceState F) : Prop where
  entity : a.entityId = st.nodeId
  systemic : a.systemicRisk = st.systemicRisk
  complete : a.evidenceComplete = evidenceComplete st

theorem analyze_ok {levels : RiskLevels F} {checks : Checks F} {scope : Scope} {id : String} {st : DeviceState F}
    {corrs : List ThreatCorrelationV1} {a : RiskAssessment F} (h : analyze levels checks scope id st corrs = .ok a) :
    Assesses a st := by
  unfold analyze at h
  split at h
  · cases h
  split at h
  · cases h
  split at h
  · cases h
  rename_i hnode
  split at h
  · cases h
  dsimp only at h
  split at h
  · cases h
    exact ⟨(not_not.mp hnode).symm, rfl, rfl⟩
  · cases h

theorem decide_ok {policy : Stage8PolicyConfig F} {checks : Checks F} {scope : Scope} {id : String} {risk : RiskAssessment F}
    {corrs : List ThreatCorrelationV1} {rec : AccessRecommendationV1} (h : decide policy checks scope id risk corrs = .ok rec) :
    rec.action = policy.action risk.systemicRisk risk.evidenceComplete := by
  unfold decide at h
  split at h
  · cases h
  split at h
  · cases h
  split at h
  · cases h
  split at h
  · cases h
  split at h
  · cases h
  split at h
  · cases h
  dsimp only at h
  split at h
  · cases h
    rfl
  · cases h

/-! ## The policy -/

variable (policy : Stage8PolicyConfig F)

theorem action_block {systemic : F} (h : policy.blockThreshold ≤ systemic) (complete : Bool) :
    policy.action systemic complete = .block := by
  cases complete <;> simp [Stage8PolicyConfig.action, h]

theorem action_allow {systemic : F} {complete : Bool} (h : policy.action systemic complete = .allow) :
    complete = true ∧ systemic < policy.blockThreshold ∧ systemic < policy.monitorThreshold := by
  unfold Stage8PolicyConfig.action at h
  cases complete with
  | false =>
    rw [Bool.not_false, if_pos rfl] at h
    split at h <;> cases h
  | true =>
    rw [Bool.not_true, if_neg Bool.false_ne_true] at h
    split at h
    · cases h
    split at h
    · cases h
    exact ⟨rfl, not_le.mp ‹_›, not_le.mp ‹_›⟩

/-- By the levels of the analyst, the policy does what the analyst recommends. -/
theorem action_escalation {levels : RiskLevels F} (hblock : policy.blockThreshold = levels.high)
    (hmonitor : policy.monitorThreshold = levels.medium) (st : DeviceState F) :
    policy.action st.systemicRisk (evidenceComplete st) = escalation levels st := by
  unfold Stage8PolicyConfig.action escalation
  rw [hblock, hmonitor]
  cases evidenceComplete st <;> simp

end Agents

/-! ## Committers -/

/-- Who commits actions, with what it keeps. It commits the action that is recommended. -/
structure Committer (κ : Type) where
  commit : Turn → κ → Except String EnforcementDecisionV1 × κ
  follows : ∀ t k d, (commit t k).1 = .ok d → d.action = t.recommendation.action

/-- A committer on a ledger in memory. -/
def memoryCommitter (safe : AccessRecommendationV1 → Bool) (text : ActionCommits.CommitError → String) :
    Committer ActionCommits.InMemoryLedger where
  commit t l := ((ActionCommits.commit safe l t).1.mapError text, (ActionCommits.commit safe l t).2)
  follows t l d h := by
    rcases @ActionCommits.commit_cases safe l t with ⟨e, hcommit⟩ | ⟨x, -, haction, -, hcommit⟩ | ⟨-, hcommit⟩ <;>
      rw [hcommit] at h <;> cases h
    · exact haction
    · rfl

/-- The ledger of the blackboard answers with the recommended action or not at all. -/
theorem board_action {s : ActionLookup.ActionState} {t : Turn} {d : EnforcementDecisionV1}
    (h : (ActionLookup.commit s t).1 = .ok d) : d.action = t.recommendation.action := by
  unfold ActionLookup.commit at h
  split at h
  · cases h
  split at h
  · cases h
  split at h
  · cases h
  split at h
  · cases h
  split at h
  · cases h
  · split at h
    · rename_i hsame
      cases h
      exact hsame.1
    · cases h
  · split at h
    · cases h
      rfl
    · cases h

/-- A committer on the ledger of the blackboard, which may refuse any of its writes. -/
def boardCommitter (text : ActionLookup.CommitError → String) : Committer (ActionLookup.ActionState × (Nat → Bool)) where
  commit t k :=
    let out := ActionLookup.commit k.1 { t with written := k.2 0 }
    (out.1.mapError text, out.2, fun n => k.2 (n + 1))
  follows t k d h := by
    dsimp only at h
    cases hout : (ActionLookup.commit k.1 { t with written := k.2 0 }).1 with
    | error e =>
      rw [hout] at h
      cases h
    | ok d' =>
      rw [hout] at h
      cases h
      have haction := board_action hout
      exact haction

end AccessDecisions
