import AgenticSoc.DashboardState

/-!
# The dashboard's synchronizer

The asynchronous methods of the synchronizer as tasks of one thread. A task runs from one
`await` to the next without interruption; then it waits for a response, for another task,
or for its turn to go on with the result of a method it called.
-/
namespace DashboardSynchronizer

open DashboardState
open Function (update)

inductive RestError where
  | conflict (status : Nat) (code message : String)
  | other (message : String)
  deriving DecidableEq

def RestError.message : RestError → String
  | .conflict status code message => s!"Backend conflict ({status}): [{code}] {message}"
  | .other message => message

def includes (s part : String) : Bool := part.toList <:+: s.toList

inductive Control where
  | play | pause | resume | step
  deriving DecidableEq

/-- What a refresh of the status is followed by. -/
inductive AfterStatus where
  | done
  | science
  | window
  | final
  | controlFailed (action : Control) (requestedStart : Bool) (error : RestError)
  | requestFailed (error : RestError)
  deriving DecidableEq

/-- What a refresh of the scientific state is followed by. -/
inductive AfterScience where
  | done
  | window
  | controlFailed (action : Control) (requestedStart : Bool) (error : RestError)
  deriving DecidableEq

/-- Where a task waits. In the places with `Settled` a called method has returned. -/
inductive TaskAt where
  | creating
  | controlling (action : Control) (replayId : String) (requestedStart : Bool)
  | restarting (replayId : String)
  | settingSpeed (replayId : String)
  | status (replayId : String) (reportFailure : Bool) (next : AfterStatus)
  | statusSettled (replayId : String) (status : Option ReplayStatusV1) (next : AfterStatus)
  | science (replayId : String) (status : Option ReplayStatusV1) (next : AfterScience)
  | scienceSettled (replayId : String) (status : Option ReplayStatusV1) (next : AfterScience)
  | windowSettled
  | joiningWindow (replayId : String) (task : Nat)
  | health (reportFailure : Bool)
  | recovering (replayId : String) (starting reportFailure : Bool)
  | recoverySettled (recovered : Bool)
  | joiningRecovery (task : Nat) (error : RestError)
  | ended (recovered : Bool)
  deriving DecidableEq

/-- A task has been where it is since a moment, at which it sent its requests. -/
structure Task where
  place : TaskAt
  since : Nat
  deriving DecidableEq

/-- The dispatched actions are kept beside the state they lead to, and the moves are counted. -/
structure State (X P : Type) where
  ui : ReplayState X P
  log : List (ReplayAction X P)
  pendingTimer : Option String
  windowRefresh : Option Nat
  trailingWindowReplayId : Option String
  activeRecovery : Option Nat
  tasks : Nat → Task
  taskCount : Nat
  now : Nat

/-- The schemas of the snapshot payloads. -/
structure Schemas (X P : Type) where
  deviceState : P → Except String (DeviceStateV1 X)
  deviceRiskGraph : P → Except String (SnapshotV1 X)
  communicationGraph : P → Except String (SnapshotV1 X)
  srepSnapshot : P → Except String (SnapshotV1 X)

/-- A response, or the error a request ended with. -/
inductive Reply (X : Type) where
  | created (replayId : String) (status : ReplayStatusV1)
  | restarted (newReplayId : String)
  | done
  | status (payload : ReplayStatusV1)
  | science (devices : List (DeviceStateV1 X)) (riskGraph communicationGraph srep : SnapshotV1 X)
  | health (activeReplay : Option String) (starting : Bool)
  | failed (error : RestError)

section Synchronizer

variable {X P : Type}

def start : State X P where
  ui := createInitialReplayState
  log := []
  pendingTimer := none
  windowRefresh := none
  trailingWindowReplayId := none
  activeRecovery := none
  tasks := fun _ => ⟨.ended false, 0⟩
  taskCount := 0
  now := 0

namespace State

def dispatch (s : State X P) (a : ReplayAction X P) : State X P :=
  { s with ui := replayReducer s.ui a, log := s.log ++ [a] }

def reportError (s : State X P) (message : String) (cause : Cause) : State X P := s.dispatch (.error ⟨message, cause⟩)

def setTask (s : State X P) (t : Nat) (place : TaskAt) : State X P :=
  { s with tasks := update s.tasks t ⟨place, s.now⟩ }

/-- A method is called and runs to its first `await`. -/
def spawn (s : State X P) (place : TaskAt) : State X P :=
  { s.setTask s.taskCount place with taskCount := s.taskCount + 1 }

def cancelPendingRefresh (s : State X P) : State X P := { s with trailingWindowReplayId := none, pendingTimer := none }

def scheduleWindowRefresh (s : State X P) (replayId : String) : State X P :=
  if s.pendingTimer ≠ none then s
  else if s.windowRefresh ≠ none then { s with trailingWindowReplayId := some replayId }
  else { s with pendingTimer := some replayId }

/-- A move begins. -/
def tick (s : State X P) : State X P := { s with now := s.now + 1 }

/-- The recovery under way, or a new one. -/
def recoverActiveReplay (s : State X P) (reportFailure : Bool) : State X P × Nat :=
  match s.activeRecovery with
  | some t => (s, t)
  | none => ({ s.spawn (.health reportFailure) with activeRecovery := some s.taskCount }, s.taskCount)

end State

open State

/-! ## Responses -/

/-- An ended replay with an error shows it. -/
def settleStatus (s : State X P) (t : Nat) (replayId : String) (reportFailure : Bool) (next : AfterStatus)
    (reply : Except RestError ReplayStatusV1) : State X P :=
  if s.ui.replayId ≠ some replayId then s.setTask t (.statusSettled replayId none next)
  else match reply with
    | .ok payload =>
      let s' := s.dispatch (.status payload)
      let s'' := match payload.error with
        | some message =>
          if payload.state = ReplayLifecycle.ReplayState.failed ∧ message ≠ "" then s'.reportError message (.request replayId) else s'
        | none => s'
      s''.setTask t (.statusSettled replayId (some payload) next)
    | .error error =>
      let s' := if reportFailure then s.reportError error.message (.request replayId) else s
      s'.setTask t (.statusSettled replayId none next)

def isExpectedUnavailable (error : RestError) (replayId : String) (status : Option ReplayStatusV1) : Bool :=
  match error with
  | .conflict code errorCode _ =>
    code = 409 ∧ errorCode = "no_scientific_state" ∧
      status.all fun st => st.replayId ≠ replayId ∨ st.windowsProcessed = 0
  | .other _ => false

def settleScience (s : State X P) (t : Nat) (replayId : String) (status : Option ReplayStatusV1) (next : AfterScience)
    (reply : Except RestError (List (DeviceStateV1 X) × SnapshotV1 X × SnapshotV1 X × SnapshotV1 X)) : State X P :=
  if s.ui.replayId ≠ some replayId then s.setTask t (.scienceSettled replayId status next)
  else match reply with
    | .ok (devices, riskGraph, communicationGraph, srep) =>
      let s' := ((((s.dispatch (.deviceStates devices)).dispatch (.riskGraph riskGraph)).dispatch
        (.commGraph communicationGraph)).dispatch (.srep srep)).dispatch .scientificAvailable
      s'.setTask t (.scienceSettled replayId status next)
    | .error error =>
      let s' := if isExpectedUnavailable error replayId status then s.dispatch .scientificUnavailable
        else s.reportError error.message (.request replayId)
      s'.setTask t (.scienceSettled replayId status next)

def isNotFound : RestError → Bool
  | .conflict status code _ => status = 404 ∨ code = "not_found"
  | .other _ => false

def recoveryFailed (s : State X P) (t : Nat) (reportFailure : Bool) (error : RestError) : State X P :=
  let s' := if ¬ isNotFound error ∧ reportFailure then s.reportError error.message .recovery else s
  s'.setTask t (.recoverySettled false)

def createFailed (s : State X P) (t : Nat) (error : RestError) : State X P :=
  match error with
  | .conflict _ "replay_already_active" _ =>
    let (s', recovery) := s.recoverActiveReplay false
    s'.setTask t (.joiningRecovery recovery error)
  | _ => (s.reportError error.message .create).setTask t (.ended false)

/-- A response to the requests a task waits for; none for a response of another kind. -/
def respond (s : State X P) (t : Nat) (reply : Reply X) : Option (State X P) :=
  match (s.tasks t).place, reply with
  | .creating, .created replayId status =>
    some ((s.dispatch (.replaySet replayId (some status))).setTask t (.ended false))
  | .creating, .failed error => some (createFailed s t error)
  | .controlling _ replayId _, .done => some (s.setTask t (.status replayId true .done))
  | .controlling action replayId requestedStart, .failed error =>
    some (s.setTask t (.status replayId false (.controlFailed action requestedStart error)))
  | .restarting _, .restarted newReplayId =>
    some ((s.cancelPendingRefresh.dispatch (.replaySet newReplayId none)).setTask t (.ended false))
  | .restarting replayId, .failed error => some (s.setTask t (.status replayId false (.requestFailed error)))
  | .settingSpeed replayId, .done => some (s.setTask t (.status replayId true .done))
  | .settingSpeed replayId, .failed error => some (s.setTask t (.status replayId false (.requestFailed error)))
  | .status replayId reportFailure next, .status payload =>
    some (settleStatus s t replayId reportFailure next (.ok payload))
  | .status replayId reportFailure next, .failed error =>
    some (settleStatus s t replayId reportFailure next (.error error))
  | .science replayId status next, .science devices riskGraph communicationGraph srep =>
    some (settleScience s t replayId status next (.ok (devices, riskGraph, communicationGraph, srep)))
  | .science replayId status next, .failed error => some (settleScience s t replayId status next (.error error))
  | .health reportFailure, .health activeReplay starting =>
    match activeReplay with
    | some replayId =>
      if replayId = "" then some (s.setTask t (.recoverySettled false))
      else some (s.setTask t (.recovering replayId starting reportFailure))
    | none => some (s.setTask t (.recoverySettled false))
  | .health reportFailure, .failed error => some (recoveryFailed s t reportFailure error)
  | .recovering replayId starting _, .status payload =>
    let s' := s.cancelPendingRefresh.dispatch (.replaySet replayId (some payload))
    some ((if starting then s'.dispatch .startRequested else s').setTask t (.recoverySettled true))
  | .recovering _ _ reportFailure, .failed error => some (recoveryFailed s t reportFailure error)
  | _, _ => none

/-! ## Turns -/

def started (status : Option ReplayStatusV1) : Bool := status.any fun st => 0 < st.windowsProcessed

/-- A conflict that shows a play request came too late is no error. -/
def isDuplicateStart (action : Control) (error : RestError) (status : Option ReplayStatusV1) : Bool :=
  match error with
  | .conflict _ code _ =>
    code = "invalid_transition" ∧ (action = .play ∨ action = .resume) ∧
      status.any fun st => st.state = .running ∨ (st.state = .created ∧ includes error.message "already running")
  | .other _ => false

def controlFailed (s : State X P) (t : Nat) (replayId : String) (action : Control) (requestedStart : Bool) (error : RestError)
    (status : Option ReplayStatusV1) : State X P :=
  if s.ui.replayId ≠ some replayId then s.setTask t (.ended false)
  else if isDuplicateStart action error status then s.setTask t (.ended false)
  else
    let s' := if requestedStart then s.dispatch .startCancelled else s
    (s'.reportError error.message (.request replayId)).setTask t (.ended false)

def afterStatus (s : State X P) (t : Nat) (replayId : String) (status : Option ReplayStatusV1) : AfterStatus → State X P
  | .done => s.setTask t (.ended false)
  | .science => if started status then s.setTask t (.science replayId status .done) else s.setTask t (.ended false)
  | .window => if status.isSome then s.setTask t (.science replayId status .window) else s.setTask t .windowSettled
  | .final => s.setTask t (.science replayId status .done)
  | .controlFailed action requestedStart error =>
    if started status then s.setTask t (.science replayId status (.controlFailed action requestedStart error))
    else controlFailed s t replayId action requestedStart error status
  | .requestFailed error =>
    let s' := if s.ui.replayId = some replayId then s.reportError error.message (.request replayId) else s
    s'.setTask t (.ended false)

def afterScience (s : State X P) (t : Nat) (replayId : String) (status : Option ReplayStatusV1) : AfterScience → State X P
  | .done => s.setTask t (.ended false)
  | .window => s.setTask t .windowSettled
  | .controlFailed action requestedStart error => controlFailed s t replayId action requestedStart error status

/-- The refresh of a window is over; a window that was completed meanwhile is refreshed too. -/
def windowOver (s : State X P) (t : Nat) : State X P :=
  let s' := { s with windowRefresh := none, trailingWindowReplayId := none }
  let s'' := match s.trailingWindowReplayId with
    | some replayId => if replayId ≠ "" ∧ s.ui.replayId = some replayId then s'.scheduleWindowRefresh replayId else s'
    | none => s'
  s''.setTask t (.ended false)

/-- A task goes on; none while it waits for a response or a task that has not ended. -/
def resume (s : State X P) (t : Nat) : Option (State X P) :=
  match (s.tasks t).place with
  | .statusSettled replayId status next => some (afterStatus s t replayId status next)
  | .scienceSettled replayId status next => some (afterScience s t replayId status next)
  | .windowSettled => some (windowOver s t)
  | .joiningWindow replayId task =>
    match (s.tasks task).place with
    | .ended _ => some (s.setTask t (.status replayId true .final))
    | _ => none
  | .recoverySettled recovered =>
    let activeRecovery := if s.activeRecovery = some t then none else s.activeRecovery
    some ({ s with activeRecovery := activeRecovery }.setTask t (.ended recovered))
  | .joiningRecovery task error =>
    match (s.tasks task).place with
    | .ended true => some (s.setTask t (.ended false))
    | .ended false => some ((s.reportError error.message .create).setTask t (.ended false))
    | _ => none
  | _ => none

/-! ## Calls -/

def applyPayload {A : Type} (s : State X P) (envelope : EventEnvelopeV1 P) (eventName : String) (replayIdOf : A → String)
    (apply : A → ReplayAction X P) : Except String A → State X P
  | .error message => s.reportError s!"Invalid {eventName} payload: {message}" (.payload envelope.replayId)
  | .ok payload =>
    if replayIdOf payload ≠ envelope.replayId then
      s.reportError s!"{eventName} payload belongs to a different replay" (.payload envelope.replayId)
    else s.dispatch (apply payload)

def finalRefresh (s : State X P) (replayId : String) : State X P :=
  let s' := s.cancelPendingRefresh
  match s'.windowRefresh with
  | some task => s'.spawn (.joiningWindow replayId task)
  | none => s'.spawn (.status replayId true .final)

def handleEvent (schemas : Schemas X P) (s : State X P) (envelope : EventEnvelopeV1 P) : State X P :=
  if s.ui.replayId ≠ some envelope.replayId then s
  else
    let s' := s.dispatch (.event envelope)
    match envelope.eventType with
    | .replayCreated | .replayStarted | .replayResumed | .replayFailed =>
      s'.spawn (.status envelope.replayId true .done)
    | .windowCompleted => s'.scheduleWindowRefresh envelope.replayId
    | .replayPaused | .replayStepped => s'.spawn (.status envelope.replayId true .science)
    | .deviceState =>
      applyPayload s' envelope "DEVICE_STATE" DeviceStateV1.replayId .upsertDeviceState
        (schemas.deviceState envelope.payload)
    | .deviceRiskGraphSnapshot =>
      applyPayload s' envelope "DEVICE_RISK_GRAPH_SNAPSHOT" SnapshotV1.replayId .riskGraph
        (schemas.deviceRiskGraph envelope.payload)
    | .communicationGraphSnapshot =>
      applyPayload s' envelope "COMMUNICATION_GRAPH_SNAPSHOT" SnapshotV1.replayId .commGraph
        (schemas.communicationGraph envelope.payload)
    | .srepSnapshot =>
      applyPayload s' envelope "SREP_SNAPSHOT" SnapshotV1.replayId .srep (schemas.srepSnapshot envelope.payload)
    | .replayCompleted => finalRefresh s' envelope.replayId
    | _ => s'

/-- What the dashboard calls, and the timer of the window refresh. -/
inductive Operation (P : Type) where
  | createReplay
  | control (action : Control) (replayId : String)
  | restart (replayId : String)
  | setSpeed (replayId : String)
  | refreshStatus (replayId : String) (reportFailure : Bool)
  | hydrateReplay (replayId : String)
  | recoverActiveReplay (reportFailure : Bool)
  | handleEvent (envelope : EventEnvelopeV1 P)
  | handleGap (replayId : String)
  | connection (state : String)
  | cancelPendingRefresh
  | timer

def requestsStart (ui : ReplayState X P) (action : Control) (replayId : String) : Bool :=
  action = .play ∧ ui.replayId = some replayId ∧ ui.status.any fun st => st.state = .created

def invoke (schemas : Schemas X P) (s : State X P) : Operation P → State X P
  | .createReplay => (s.dispatch .clearError).cancelPendingRefresh.spawn .creating
  | .control action replayId =>
    let s' := s.dispatch .clearError
    let requestedStart := requestsStart s'.ui action replayId
    let s'' := if requestedStart then s'.dispatch .startRequested else s'
    s''.spawn (.controlling action replayId requestedStart)
  | .restart replayId => (s.dispatch .clearError).spawn (.restarting replayId)
  | .setSpeed replayId => (s.dispatch .clearError).spawn (.settingSpeed replayId)
  | .refreshStatus replayId reportFailure => s.spawn (.status replayId reportFailure .done)
  | .hydrateReplay replayId => s.spawn (.status replayId true .science)
  | .recoverActiveReplay reportFailure => (s.recoverActiveReplay reportFailure).1
  | .handleEvent envelope => handleEvent schemas s envelope
  | .handleGap replayId => (s.dispatch .eventGap).spawn (.status replayId true .science)
  | .connection state => s.dispatch (.connection state)
  | .cancelPendingRefresh => s.cancelPendingRefresh
  | .timer =>
    match s.pendingTimer with
    | some replayId =>
      { s.spawn (.status replayId true .window) with pendingTimer := none, windowRefresh := some s.taskCount }
    | none => s

inductive Move (X P : Type) where
  | invoke (operation : Operation P)
  | respond (task : Nat) (reply : Reply X)
  | resume (task : Nat)

def step (schemas : Schemas X P) (s : State X P) : Move X P → Option (State X P)
  | .invoke operation => some (invoke schemas s.tick operation)
  | .respond task reply => respond s.tick task reply
  | .resume task => resume s.tick task

def run (schemas : Schemas X P) (s : State X P) : List (Move X P) → Option (State X P)
  | [] => some s
  | m :: ms => (step schemas s m).bind fun s' => run schemas s' ms

end Synchronizer

end DashboardSynchronizer
