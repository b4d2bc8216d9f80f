import AgenticSoc.Sorting
import Mathlib.Data.String.Basic

/-!
# Readiness

The five agents of a window, what each depends on, and the routes that stand for them. An
agent is ready when it has not completed and all that it depends on has; the last two need
a flag as well.
-/
namespace WorkflowReadiness

inductive AgentId where
  | networkAnomalyDetector | iotBehavioralProfiler | threatIntelligenceCorrelator | riskPropagationAnalyst
  | trustAccessController
  deriving DecidableEq, Repr

def AgentId.value : AgentId → String
  | .networkAnomalyDetector => "network_anomaly_detector"
  | .iotBehavioralProfiler => "iot_behavioral_profiler"
  | .threatIntelligenceCorrelator => "threat_intelligence_correlator"
  | .riskPropagationAnalyst => "risk_propagation_analyst"
  | .trustAccessController => "trust_access_controller"

/-- All agents in the order of their declaration. -/
def agentIds : List AgentId :=
  [.networkAnomalyDetector, .iotBehavioralProfiler, .threatIntelligenceCorrelator, .riskPropagationAnalyst,
    .trustAccessController]

def dependencies : AgentId → List AgentId
  | .networkAnomalyDetector => []
  | .iotBehavioralProfiler => []
  | .threatIntelligenceCorrelator => [.networkAnomalyDetector, .iotBehavioralProfiler]
  | .riskPropagationAnalyst => [.threatIntelligenceCorrelator]
  | .trustAccessController => [.riskPropagationAnalyst]

def agentToRoute (a : AgentId) : String := "agent." ++ a.value

def routeToAgent (route : String) : Option AgentId := agentIds.find? fun a => agentToRoute a = route

def isReady (a : AgentId) (completed : List AgentId) (deviceRiskAvailable riskRecommendationAvailable : Bool) : Bool :=
  match a with
  | .riskPropagationAnalyst =>
    if .threatIntelligenceCorrelator ∉ completed then false else deviceRiskAvailable
  | .trustAccessController =>
    if .riskPropagationAnalyst ∉ completed then false else riskRecommendationAvailable
  | a => (dependencies a).all (· ∈ completed)

def readyAgents (completed : List AgentId) (deviceRiskAvailable riskRecommendationAvailable : Bool) : List AgentId :=
  agentIds.filter fun a =>
    a ∉ completed && isReady a completed deviceRiskAvailable riskRecommendationAvailable

/-- The candidates of a dispatch by name. -/
def sortedByName (ready : List AgentId) : List AgentId := Sorting.sortBy AgentId.value ready

theorem mem_agentIds (a : AgentId) : a ∈ agentIds := by cases a <;> decide

theorem agentToRoute_injective {a b : AgentId} (h : agentToRoute a = agentToRoute b) : a = b := by
  revert h
  cases a <;> cases b <;> decide

@[simp] theorem routeToAgent_agentToRoute (a : AgentId) : routeToAgent (agentToRoute a) = some a := by
  cases a <;> decide

theorem ready_nodup (completed : List AgentId) (deviceRisk riskRecommendation : Bool) :
    (readyAgents completed deviceRisk riskRecommendation).Nodup :=
  List.Nodup.filter _ (by decide : agentIds.Nodup)

/-- A ready agent has not completed, and all that it depends on has. -/
theorem ready_spec {a : AgentId} {completed : List AgentId} {deviceRisk riskRecommendation : Bool}
    (h : a ∈ readyAgents completed deviceRisk riskRecommendation) :
    a ∉ completed ∧ ∀ b ∈ dependencies a, b ∈ completed := by
  obtain ⟨-, hready⟩ := List.mem_filter.mp h
  simp only [Bool.and_eq_true, decide_eq_true_eq] at hready
  refine ⟨hready.1, fun b hb => ?_⟩
  cases a with
  | networkAnomalyDetector => cases hb
  | iotBehavioralProfiler => cases hb
  | threatIntelligenceCorrelator => exact of_decide_eq_true (List.all_eq_true.mp hready.2 b hb)
  | riskPropagationAnalyst =>
    rw [List.mem_singleton.mp hb]
    by_contra hmissing
    simp [isReady, hmissing] at hready
  | trustAccessController =>
    rw [List.mem_singleton.mp hb]
    by_contra hmissing
    simp [isReady, hmissing] at hready

theorem mem_ready {a : AgentId} {completed : List AgentId} {deviceRisk riskRecommendation : Bool} :
    a ∈ readyAgents completed deviceRisk riskRecommendation ↔
      a ∉ completed ∧ isReady a completed deviceRisk riskRecommendation = true := by
  simp [readyAgents, mem_agentIds]

/-- The analyst waits for the flag of the device risk. -/
theorem ready_flag {completed : List AgentId} {deviceRisk riskRecommendation : Bool}
    (h : .riskPropagationAnalyst ∈ readyAgents completed deviceRisk riskRecommendation) : deviceRisk = true := by
  have hready := ((mem_ready).mp h).2
  by_contra hoff
  simp [isReady, hoff] at hready

/-- A dispatch needs no more than these: who is not in the way of anyone is done. With nobody
ready, the detectors have completed and so has the correlator. -/
theorem stuck_spec {completed : List AgentId} {deviceRisk riskRecommendation : Bool}
    (h : readyAgents completed deviceRisk riskRecommendation = []) :
    .networkAnomalyDetector ∈ completed ∧ .iotBehavioralProfiler ∈ completed ∧ .threatIntelligenceCorrelator ∈ completed ∧
    (deviceRisk = true → .riskPropagationAnalyst ∈ completed) ∧
    (.riskPropagationAnalyst ∈ completed → riskRecommendation = true → .trustAccessController ∈ completed) := by
  have hnone : ∀ a, isReady a completed deviceRisk riskRecommendation = true → a ∈ completed := by
    intro a ha
    by_contra hmissing
    have hmem := (mem_ready).mpr ⟨hmissing, ha⟩
    rw [h] at hmem
    cases hmem
  have hnetwork : .networkAnomalyDetector ∈ completed := hnone _ rfl
  have hbehavior : .iotBehavioralProfiler ∈ completed := hnone _ rfl
  have hthreat : .threatIntelligenceCorrelator ∈ completed :=
    hnone _ (by simp [isReady, dependencies, hnetwork, hbehavior])
  refine ⟨hnetwork, hbehavior, hthreat, fun hrisk => ?_, fun hdone hrec => ?_⟩
  · exact hnone _ (by simp [isReady, hthreat, hrisk])
  · exact hnone _ (by simp [isReady, hdone, hrec])

end WorkflowReadiness
