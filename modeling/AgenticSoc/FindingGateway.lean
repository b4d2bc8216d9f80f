import AgenticSoc.DeviceAbm

/-!
# The finding gateway

The single boundary between the detectors and the device model. What is submitted is
counted, and either rejected with a reason or applied as evidence.
-/
namespace FindingGateway

open DeviceAbm

inductive Finding (F : Type) where
  | network (f : NetworkFinding F)
  | behavior (f : BehaviorFinding F)

/-- What may be submitted: a finding, or another object with these attributes. -/
inductive Submission (F : Type) where
  | finding (f : Finding F)
  | other (findingType : Option String) (timestampUtc : Option String)

structure GatewayStats where
  submitted : Nat
  acceptedNetwork : Nat
  acceptedBehavior : Nat
  rejectedUnknownEntity : Nat
  rejectedSchema : Nat
  rejectedTimestamp : Nat
  deriving DecidableEq

structure Gateway (F : Type) where
  abm : Abm F
  stats : GatewayStats

section Model

variable {F : Type}

def Finding.entityId : Finding F → String
  | .network f => f.entityId
  | .behavior f => f.entityId

def Finding.windowId : Finding F → Int
  | .network f => f.windowId
  | .behavior f => f.windowId

def Finding.timestampUtc : Finding F → String
  | .network f => f.timestampUtc
  | .behavior f => f.timestampUtc

def Submission.findingType : Submission F → Option String
  | .finding (.network _) => some "NetworkFinding"
  | .finding (.behavior _) => some "BehaviorFinding"
  | .other findingType _ => findingType

def Submission.timestampUtc : Submission F → Option String
  | .finding f => some f.timestampUtc
  | .other _ timestampUtc => timestampUtc

variable [RiskNumber F]

def applyEvidence (abm : Abm F) : Finding F → Except String (Abm F)
  | .network f => applyNetworkEvidence abm f
  | .behavior f => applyBehaviorEvidence abm f

def GatewayStats.accept (stats : GatewayStats) : Finding F → GatewayStats
  | .network _ => { stats with acceptedNetwork := stats.acceptedNetwork + 1 }
  | .behavior _ => { stats with acceptedBehavior := stats.acceptedBehavior + 1 }

/-- The submission up to the call of the subscribers. -/
def submit (validTimestamp : String → Bool) (g : Gateway F) (x : Submission F) : Gateway F × Except String Bool :=
  let stats := { g.stats with submitted := g.stats.submitted + 1 }
  if x.findingType ≠ some "NetworkFinding" ∧ x.findingType ≠ some "BehaviorFinding" then
    ({ g with stats := { stats with rejectedSchema := stats.rejectedSchema + 1 } }, .ok false)
  else if !x.timestampUtc.any validTimestamp then
    ({ g with stats := { stats with rejectedTimestamp := stats.rejectedTimestamp + 1 } }, .ok false)
  else
    match x with
    | .other _ _ => ({ g with stats := { stats with rejectedSchema := stats.rejectedSchema + 1 } }, .ok false)
    | .finding f =>
      match g.abm.resolve f.entityId with
      | none => ({ g with stats := { stats with rejectedUnknownEntity := stats.rejectedUnknownEntity + 1 } }, .ok false)
      | some _ =>
        match applyEvidence g.abm f with
        | .error e => ({ g with stats := stats }, .error e)
        | .ok abm => (⟨abm, stats.accept f⟩, .ok true)

end Model

end FindingGateway
