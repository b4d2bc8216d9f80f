import AgenticSoc.ReplayMerge
import AgenticSoc.WorkflowWindows

/-!
# Replays with and without the workflow

What a replay does within a window: the orchestrated workflow with the step that the runner
makes up for, or the detectors directly.
-/
namespace ReplayWorkflow

open Procedure WorkflowReadiness DeviceAbm FindingGateway WorkflowService ReplayRunner
open OrchestrationMessages (Runtime)

/-- The communication graph, as far as a replay drives it. -/
structure GraphOps (γ ρ : Type) where
  beginWindow : Int → γ → γ
  applyMany : List (Row ρ) → γ → γ

/-- The counts of a run. -/
structure Tally where
  acceptedNetwork : Nat
  acceptedBehavior : Nat
  findingsNetwork : Nat
  behaviorObserved : Nat
  behaviorAbsence : Nat
  deriving DecidableEq

def Tally.zero : Tally := ⟨0, 0, 0, 0, 0⟩

variable {P : Type} (R : Runtime P)

structure Scene (F σ δ π γ : Type) where
  world : World R F σ δ π
  graph : γ
  tally : Tally

variable {R} {F σ δ π γ ρ : Type}

/-- What the service does, seen from the run. -/
def inWorld {α : Type} (p : Work R F σ δ π α) : Proc String (Scene R F σ δ π γ) α := fun s =>
  ((p s.world).1, { s with world := (p s.world).2 })

def onTally (f : Tally → Tally) : Proc String (Scene R F σ δ π γ) Unit := update fun s => { s with tally := f s.tally }

section Bodies

variable [RiskNumber F] (E : Environment R F σ δ π ρ) (G : GraphOps γ ρ) (replayId : String) (limit : Nat)

/-- The arguments of the callback: the time is that of the first row. -/
def callOf (w : Window (Row ρ)) : Call ρ where
  replayId := replayId
  windowId := w.windowId
  logicalTimestamp :=
    match w.network, w.behavior with
    | row :: _, _ => row.windowStartUtc
    | [], row :: _ => row.windowStartUtc
    | [], [] => none
  netRows := w.network
  behRows := w.behavior

/-- The counts that the callback returns. -/
def Tally.add (t : Tally) (r : WindowResult) : Tally :=
  ⟨t.acceptedNetwork + r.network, t.acceptedBehavior + r.behavior, t.findingsNetwork + r.findingsNetwork,
    t.behaviorObserved + r.behaviorObserved, t.behaviorAbsence + r.behaviorAbsence⟩

def beginWindow (windowId : Int) (s : Scene R F σ δ π γ) : Scene R F σ δ π γ :=
  { s with graph := G.beginWindow windowId s.graph }

def applyMany (rows : List (Row ρ)) : Proc String (Scene R F σ δ π γ) Unit :=
  update fun s => { s with graph := if rows.isEmpty then s.graph else G.applyMany rows s.graph }

/-- The workflow callback. What it raises counts nothing. -/
def workflowCallback (w : Window (Row ρ)) : Proc String (Scene R F σ δ π γ) Unit := do
  let result ← attempt (inWorld (executeWindow E (callOf replayId w) limit)) fun _ => return none
  match result with
  | none => return ()
  | some r => onTally fun t => t.add r

/-- The step of a window that the callback did not leave as the current one. -/
def fallback (windowId : Int) : Work R F σ δ π Unit := do
  let abm ← read fun s => s.gateway.abm
  if abm.currentWindowId ≠ some windowId then
    setCurrentWindow windowId
    attempt (propagate E) fun _ => return ()
    recordStep E
  else return ()

def workflowBody : Body (Row ρ) String (Scene R F σ δ π γ) where
  beginWindow := beginWindow G
  process w := do
    applyMany G w.communication
    workflowCallback E replayId limit w
    inWorld (fallback E w.windowId)

/-- A finding of the network detector, counted before and after the gateway. -/
def directNetwork (f : NetworkFinding F) : Proc String (Scene R F σ δ π γ) Unit := do
  let accepted ← inWorld (submitFinding E (.network f))
  if accepted then onTally fun t => { t with acceptedNetwork := t.acceptedNetwork + 1 } else return ()

def noteBehavior (f : BehaviorFinding F) (t : Tally) : Tally :=
  if isAbsence f then { t with behaviorAbsence := t.behaviorAbsence + 1 }
  else { t with behaviorObserved := t.behaviorObserved + 1 }

def directBehavior (contextActive : Bool) (windowId : Int) (row : Row ρ) : Proc String (Scene R F σ δ π γ) Unit := do
  let finding ← inWorld (predict E row contextActive windowId)
  match finding with
  | none => return ()
  | some f => do
    onTally (noteBehavior f)
    let accepted ← inWorld (submitFinding E (.behavior f))
    if accepted then onTally fun t => { t with acceptedBehavior := t.acceptedBehavior + 1 } else return ()

def directDetectors (w : Window (Row ρ)) : Proc String (Scene R F σ δ π γ) Unit := do
  let eligible := w.network.filter Row.observed
  if eligible.isEmpty then return ()
  else
    let findings ← inWorld (detect E eligible)
    onTally fun t => { t with findingsNetwork := t.findingsNetwork + findings.length }
    each (directNetwork E) findings

def directBody : Body (Row ρ) String (Scene R F σ δ π γ) where
  beginWindow := beginWindow G
  process w := do
    applyMany G w.communication
    directDetectors E w
    each (directBehavior E (w.behavior.any Row.observed) w.windowId) w.behavior
    inWorld (setCurrentWindow w.windowId)
    inWorld (propagate E)
    inWorld (recordStep E)

end Bodies

/-! ## The summary of a run -/

structure Emitted where
  network : Nat
  behavior : Nat
  behaviorAbsence : Nat
  deriving DecidableEq

structure RejectedStats where
  submitted : Nat
  rejectedUnknownEntity : Nat
  rejectedSchema : Nat
  rejectedTimestamp : Nat
  deriving DecidableEq

structure Report (F : Type) where
  findingsEmitted : Emitted
  findingsAccepted : Nat × Nat
  gatewayStats : RejectedStats
  abmFinalDigest : Digest F
  historyLength : Nat
  historyLimit : Nat

def report [RiskNumber F] (s : Scene R F σ δ π γ) : Report F :=
  let stats := s.world.gateway.stats
  { findingsEmitted := ⟨s.tally.findingsNetwork, s.tally.behaviorObserved + s.tally.behaviorAbsence, s.tally.behaviorAbsence⟩
    findingsAccepted := (s.tally.acceptedNetwork, s.tally.acceptedBehavior)
    gatewayStats := ⟨stats.submitted, stats.rejectedUnknownEntity, stats.rejectedSchema, stats.rejectedTimestamp⟩
    abmFinalDigest := s.world.gateway.abm.finalDigest
    historyLength := s.world.gateway.abm.history.length
    historyLimit := s.world.gateway.abm.historyLimit }

end ReplayWorkflow
