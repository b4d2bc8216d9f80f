import AgenticSoc.EventPublishing
import Mathlib.Logic.Function.Basic

/-!
# The life of a replay

Control calls and worker threads interleave. A control call changes a run under the
controller's lock and publishes after it; creating and restarting a replay also hold the
lifecycle lock, over several sections of the other one and over a join. A worker takes the
lock for each change of its run and builds, runs, finalizes and closes outside of it.
-/
namespace ReplayLifecycle

open EventPublishing (ReplayEventType)
open Function (update)

inductive ReplayState where
  | created | running | paused | completed | failed
  deriving DecidableEq, Repr

def ReplayState.terminal : ReplayState → Bool
  | .completed | .failed => true
  | .created | .running | .paused => false

structure ReplayControl where
  pauseEvent : Bool
  cancelled : Bool
  deriving DecidableEq, Repr

def ReplayControl.cancel (_ : ReplayControl) : ReplayControl := ⟨true, true⟩

/-- Of the runtime only its control is kept; `thread` is the worker started last. -/
structure Run where
  replayId : String
  state : ReplayState
  cancelRequested : Bool
  runtime : Option ReplayControl
  thread : Option Nat
  deriving DecidableEq, Repr

def Run.new (replayId : String) : Run := ⟨replayId, .created, false, none, none⟩

/-- The next thing a worker does. An exception leads to `failing`, with whether it was the
cancellation of the replay. -/
inductive WorkerAt where
  | start | building | built | ready | running | returned | finalizing | announcing
  | failing (cancelled : Bool)
  | reporting | closing | ended
  deriving DecidableEq, Repr

structure Worker where
  run : Nat
  place : WorkerAt
  deriving DecidableEq, Repr

inductive CreateAt where
  | checking
  | joining (terminalId : String) (thread : Option Nat)
  | dropping (terminalId : String)
  | registering
  | announcing (run : Nat)
  deriving DecidableEq, Repr

/-- The next thing a control call does; a restart creates and then plays. -/
inductive CallAt where
  | idle
  | publishing (run : Nat) (event : ReplayEventType)
  | creating (place : CreateAt) (restarting : Bool)
  | playing (replayId : String)
  | cancelling (replayId : String)
  | joining (replayId : String) (run : Nat)
  | dropping (replayId : String)
  deriving DecidableEq, Repr

/-- What can be seen in order: registrations and published events, of runs by number. -/
inductive Entry where
  | registered (run : Nat)
  | published (run : Nat) (event : ReplayEventType)
  deriving DecidableEq, Repr

/-- Run objects and threads are numbered in the order they come into being. -/
structure State where
  runs : Nat → Run
  runCount : Nat
  registry : List (String × Nat)
  activeId : Option String
  workers : Nat → Worker
  workerCount : Nat
  calls : Nat → CallAt
  lifecycleLock : Option Nat
  log : List Entry

def start : State where
  runs := fun _ => Run.new ""
  runCount := 0
  registry := []
  activeId := none
  workers := fun _ => ⟨0, .ended⟩
  workerCount := 0
  calls := fun _ => .idle
  lifecycleLock := none
  log := []

namespace State

def setRun (s : State) (r : Nat) (run : Run) : State := { s with runs := update s.runs r run }

def setWorker (s : State) (w : Nat) (place : WorkerAt) : State :=
  { s with workers := update s.workers w ⟨(s.workers w).run, place⟩ }

def setCall (s : State) (c : Nat) (place : CallAt) : State := { s with calls := update s.calls c place }

def publish (s : State) (r : Nat) (event : ReplayEventType) : State := { s with log := s.log ++ [.published r event] }

/-- The call is over; the lifecycle lock is free again if it held it. -/
def finish (s : State) (c : Nat) : State :=
  { s with
    calls := update s.calls c .idle
    lifecycleLock := if s.lifecycleLock = some c then none else s.lifecycleLock }

def isAlive (s : State) (thread : Option Nat) : Bool := thread.any fun w => (s.workers w).place ≠ .ended

def startWorker (s : State) (r : Nat) : State :=
  { s with
    runs := update s.runs r { s.runs r with thread := some s.workerCount }
    workers := update s.workers s.workerCount ⟨r, .start⟩
    workerCount := s.workerCount + 1 }

def pop (s : State) (replayId : String) : State :=
  { s with
    registry := s.registry.filter fun e => e.1 ≠ replayId
    activeId := if s.activeId = some replayId then none else s.activeId }

/-- The new run object enters the registry and becomes the active one. -/
def register (s : State) (replayId : String) : State :=
  { s with
    runs := update s.runs s.runCount (Run.new replayId)
    runCount := s.runCount + 1
    registry := (s.registry.filter fun e => e.1 ≠ replayId) ++ [(replayId, s.runCount)]
    activeId := some replayId
    log := s.log ++ [.registered s.runCount] }

end State

/-! ## Control calls -/

inductive ControllerError where
  | unknownReplay | replayAlreadyActive | unknownSession | unsupportedSourceMode
  | replayStopping | replayFailed | replayCompleted | invalidTransition | restartTimeout
  deriving DecidableEq, Repr

def ControllerError.statusCode : ControllerError → Nat
  | .unknownReplay | .unknownSession => 404
  | _ => 409

inductive Failure where
  | controller (e : ControllerError)
  | assertion
  deriving DecidableEq, Repr

def require (s : State) (replayId : String) : Except Failure Nat :=
  match s.registry.lookup replayId with
  | none => .error (.controller .unknownReplay)
  | some r => .ok r

def ensureActiveRunnable (run : Run) : Except Failure Unit :=
  if run.cancelRequested then .error (.controller .replayStopping)
  else if run.state = .failed then .error (.controller .replayFailed)
  else if run.state = .completed then .error (.controller .replayCompleted)
  else .ok ()

/-- The changed state, and the event that is published after the lock is released. -/
abbrev Section := Except Failure (State × Option (Nat × ReplayEventType))

/-- Continue or reach the end of a pause: the event is set. -/
def wake (run : Run) (control : ReplayControl) : Run := { run with runtime := some { control with pauseEvent := true } }

def play (s : State) (replayId : String) : Section := do
  let r ← require s replayId
  let run := s.runs r
  ensureActiveRunnable run
  if run.state = .running then .error (.controller .invalidTransition)
  else if run.state = .created then
    if s.isAlive run.thread then .error (.controller .invalidTransition)
    else .ok (s.startWorker r, none)
  else match run.runtime with
    | none => .error .assertion
    | some control => .ok (s.setRun r { wake run control with state := .running }, some (r, .replayResumed))

def pause (s : State) (replayId : String) : Section := do
  let r ← require s replayId
  let run := s.runs r
  ensureActiveRunnable run
  if run.state ≠ .running then .error (.controller .invalidTransition)
  else
    let runtime := run.runtime.map fun control => { control with pauseEvent := false }
    .ok (s.setRun r { run with runtime := runtime, state := .paused }, some (r, .replayPaused))

def stepReplay (s : State) (replayId : String) : Section := do
  let r ← require s replayId
  let run := s.runs r
  ensureActiveRunnable run
  if run.state ≠ .paused then .error (.controller .invalidTransition)
  else match run.runtime with
    | none => .error .assertion
    | some control => .ok (s.setRun r (wake run control), some (r, .replayStepped))

inductive Request where
  | create
  | restart (replayId : String)
  | play (replayId : String)
  | pause (replayId : String)
  | step (replayId : String)
  deriving DecidableEq, Repr

/-- After its section a control call publishes, if it has something to publish. -/
def afterSection (s : State) (c : Nat) : Section → State
  | .error _ => s.finish c
  | .ok (s', none) => s'.finish c
  | .ok (s', some (r, event)) => s'.setCall c (.publishing r event)

/-- A call that has to wait for the lifecycle lock does not begin. -/
def acquire (s : State) (c : Nat) (place : CallAt) : Option State :=
  if s.lifecycleLock = none then some { s.setCall c place with lifecycleLock := some c } else none

def request (s : State) (c : Nat) (q : Request) : Option State :=
  if s.calls c = .idle then
    match q with
    | .create => acquire s c (.creating .checking false)
    | .restart replayId => acquire s c (.cancelling replayId)
    | .play replayId => some (afterSection s c (play s replayId))
    | .pause replayId => some (afterSection s c (pause s replayId))
    | .step replayId => some (afterSection s c (stepReplay s replayId))
  else none

/-- How an operation outside the model's reach ends: the catalog's answers, the conversion
of the pacing and publishing may raise, the last with the event delivered or not. -/
inductive Outcome where
  | returns
  | raises (delivered : Bool)
  deriving DecidableEq, Repr

def published (s : State) (r : Nat) (event : ReplayEventType) : Outcome → State
  | .returns => s.publish r event
  | .raises delivered => if delivered then s.publish r event else s

/-- The catalog is asked once no replay stands in the way. -/
def checkActive (s : State) (c : Nat) (restarting : Bool) (o : Outcome) : State :=
  let caps := fun place => if o = .returns then s.setCall c (.creating place restarting) else s.finish c
  match s.activeId with
  | none => caps .registering
  | some activeId =>
    match s.registry.lookup activeId with
    | none => caps .registering
    | some r =>
      if (s.runs r).state.terminal then caps (.joining activeId (s.runs r).thread)
      else s.finish c

/-- One step of `_create_replay`, with the identifier drawn for a new replay. -/
def createStep (s : State) (c : Nat) (restarting : Bool) (o : Outcome) (hex : String) : CreateAt → State
  | .checking => checkActive s c restarting o
  | .joining terminalId thread =>
    if s.isAlive thread then s.finish c else s.setCall c (.creating (.dropping terminalId) restarting)
  | .dropping terminalId => (s.pop terminalId).setCall c (.creating .registering restarting)
  | .registering =>
    if o = .returns then (s.register hex).setCall c (.creating (.announcing s.runCount) restarting) else s.finish c
  | .announcing r =>
    let s' := published s r .replayCreated o
    if o = .returns ∧ restarting then s'.setCall c (.playing (s.runs r).replayId) else s'.finish c

/-- A join that runs out of time ends the call with an error. -/
def callStep (s : State) (c : Nat) (o : Outcome) (hex : String) : Option State :=
  match s.calls c with
  | .idle => none
  | .publishing r event => some ((published s r event o).finish c)
  | .creating place restarting => some (createStep s c restarting o hex place)
  | .playing replayId => some (afterSection s c (play s replayId))
  | .cancelling replayId =>
    match require s replayId with
    | .error _ => some (s.finish c)
    | .ok r =>
      let run := s.runs r
      let cancelled := { run with cancelRequested := true, runtime := run.runtime.map ReplayControl.cancel }
      some ((s.setRun r cancelled).setCall c (.joining replayId r))
  | .joining replayId r =>
    if s.isAlive (s.runs r).thread then some (s.finish c) else some (s.setCall c (.dropping replayId))
  | .dropping replayId => some ((s.pop replayId).setCall c (.creating .checking true))

/-! ## Workers -/

/-- The events the runner's sink passes on. -/
def sinkEvents : List ReplayEventType :=
  [.replayStarted, .windowStarted, .windowCompleted, .networkFinding, .behaviorFinding, .gatewayAccepted,
    .gatewayRejected]

def snapshotEvents : List ReplayEventType :=
  [.deviceState, .deviceRiskGraphSnapshot, .communicationGraphSnapshot, .srepSnapshot]

/-- What happens to a worker inside the runner and the other operations it calls. -/
inductive WorkerMove where
  | goes
  | raises (delivered : Bool)
  | publishes (event : ReplayEventType)
  | findsCancelled
  | clearsEvent
  deriving DecidableEq, Repr

/-- Of the runner only what it does to the run is kept: it publishes, finds the replay
cancelled at a checkpoint, clears the pause event at a step limit, raises or returns. -/
def workerStep (s : State) (w : Nat) (m : WorkerMove) : Option State :=
  let r := (s.workers w).run
  let run := s.runs r
  match (s.workers w).place, m with
  | .start, .goes => some (s.setWorker w (if run.cancelRequested then .failing true else .building))
  | .building, .goes => some (s.setWorker w .built)
  | .building, .raises _ => some (s.setWorker w (.failing false))
  | .built, .goes =>
    if run.cancelRequested then some (s.setWorker w (.failing true))
    else some ((s.setRun r { run with runtime := some ⟨true, false⟩ }).setWorker w .ready)
  | .ready, .goes =>
    let state := if run.state = .created then .running else run.state
    some ((s.setRun r { run with state := state }).setWorker w .running)
  | .running, .publishes event => if event ∈ sinkEvents then some (s.publish r event) else some s
  | .running, .findsCancelled =>
    if run.runtime.any ReplayControl.cancelled then some (s.setWorker w (.failing true)) else none
  | .running, .clearsEvent =>
    some (s.setRun r { run with runtime := run.runtime.map fun control => { control with pauseEvent := false } })
  | .running, .raises _ => some (s.setWorker w (.failing false))
  | .running, .goes => some (s.setWorker w .returned)
  | .returned, .goes => some ((s.setRun r { run with state := .completed }).setWorker w .finalizing)
  | .finalizing, .publishes event => if event ∈ snapshotEvents then some (s.publish r event) else none
  | .finalizing, .raises _ => some (s.setWorker w (.failing false))
  | .finalizing, .goes => some (s.setWorker w .announcing)
  | .announcing, .goes => some ((s.publish r .replayCompleted).setWorker w .closing)
  | .announcing, .raises delivered =>
    some ((published s r .replayCompleted (.raises delivered)).setWorker w (.failing false))
  | .failing cancelled, .goes =>
    some ((s.setRun r { run with state := .failed }).setWorker w (if cancelled then .closing else .reporting))
  | .reporting, .goes => some ((s.publish r .replayFailed).setWorker w .closing)
  | .reporting, .raises delivered => some ((published s r .replayFailed (.raises delivered)).setWorker w .closing)
  | .closing, .goes => some (s.setWorker w .ended)
  | .closing, .raises _ => some (s.setWorker w .ended)
  | _, _ => none

inductive Move where
  | request (call : Nat) (q : Request)
  | call (call : Nat) (o : Outcome) (hex : String)
  | worker (w : Nat) (m : WorkerMove)
  deriving DecidableEq, Repr

def step (s : State) : Move → Option State
  | .request c q => request s c q
  | .call c o hex => callStep s c o hex
  | .worker w m => workerStep s w m

def run (s : State) : List Move → Option State
  | [] => some s
  | m :: ms => (step s m).bind fun s' => run s' ms

/-! ## What every reachable state keeps -/

def Live (s : State) (w : Nat) : Prop := (s.workers w).place ≠ .ended

def entryRegistered : Entry → Option Nat
  | .registered r => some r
  | .published _ _ => none

/-- No event of the runner's sink follows the registration of a later run. -/
def Unsuperseded (e e' : Entry) : Prop :=
  ∀ n r event, e = .registered n → e' = .published r event → event ∈ sinkEvents → n ≤ r

/-- The run cannot be started any more. -/
def Run.Stopping (run : Run) : Prop := run.state.terminal = true ∨ run.cancelRequested = true

/-- The run of the registry is stopping and no worker of it lives. -/
def Stopped (s : State) (replayId : String) : Prop :=
  ∃ r, s.registry = [(replayId, r)] ∧ (s.runs r).Stopping ∧ ∀ w, Live s w → (s.workers w).run ≠ r

/-- A call in one of these places holds the lifecycle lock. -/
def CallAt.locked : CallAt → Bool
  | .idle | .publishing _ _ => false
  | .creating _ _ | .playing _ | .cancelling _ | .joining _ _ | .dropping _ => true

/-- The events of control calls after their section. -/
def controlEvents : List ReplayEventType := [.replayPaused, .replayResumed, .replayStepped]

/-- What a call can rely on, mostly because it holds the lifecycle lock. -/
def Reliable (s : State) : CallAt → Prop
  | .publishing _ event => event ∈ controlEvents
  | .creating (.joining terminalId thread) _ =>
    ∃ r, s.registry = [(terminalId, r)] ∧ (s.runs r).state.terminal = true ∧ (s.runs r).thread = thread
  | .creating (.dropping terminalId) _ => Stopped s terminalId
  | .creating .registering _ => s.registry = []
  | .joining replayId r => s.registry = [(replayId, r)] ∧ (s.runs r).cancelRequested = true
  | .dropping replayId => Stopped s replayId
  | _ => True

structure Kept (s : State) : Prop where
  single : (s.registry = [] ∧ s.activeId = none) ∨
    ∃ replayId r, s.registry = [(replayId, r)] ∧ s.activeId = some replayId ∧ r + 1 = s.runCount
  live : ∀ w, Live s w → (∃ replayId, s.registry = [(replayId, (s.workers w).run)]) ∧
    (s.runs (s.workers w).run).thread = some w
  fresh : ∀ w, s.workerCount ≤ w → ¬ Live s w
  owned : ∀ r w, (s.runs r).thread = some w → w < s.workerCount ∧ (s.workers w).run = r
  unborn : ∀ r, s.runCount ≤ r → (s.runs r).thread = none ∧ (s.runs r).state = .created
  locked : ∀ c, (s.calls c).locked = true → s.lifecycleLock = some c
  reliable : ∀ c, Reliable s (s.calls c)
  numbered : s.log.filterMap entryRegistered = List.range s.runCount
  ordered : s.log.Pairwise Unsuperseded

theorem kept_start : Kept start where
  single := .inl ⟨rfl, rfl⟩
  live := fun _ h => absurd rfl h
  fresh := fun _ _ h => absurd rfl h
  owned := fun _ _ h => Option.noConfusion rfl (heq_of_eq h)
  unborn := fun _ _ => ⟨rfl, rfl⟩
  locked := fun _ h => Bool.noConfusion h
  reliable := fun _ => trivial
  numbered := rfl
  ordered := .nil

section Keeping

variable {s : State} {c w r : Nat} {replayId : String}

/-- A call relies on the registry, on what only grows of a run, and on workers that do not
come back. -/
theorem Reliable.mono {s' : State} {place : CallAt} (h : Reliable s place) (hregistry : s'.registry = s.registry)
    (hruns : ∀ r, (s'.runs r).thread = (s.runs r).thread ∧ ((s.runs r).state.terminal = true → (s'.runs r).state.terminal = true) ∧
      ((s.runs r).cancelRequested = true → (s'.runs r).cancelRequested = true))
    (hlive : ∀ w, Live s' w → Live s w ∧ (s'.workers w).run = (s.workers w).run) : Reliable s' place := by
  have hstopped : ∀ id, Stopped s id → Stopped s' id := by
    rintro id ⟨r, hr, hstop, hdead⟩
    refine ⟨r, hregistry.trans hr, hstop.imp (hruns r).2.1 (hruns r).2.2, fun w hw => ?_⟩
    rw [(hlive w hw).2]
    exact hdead w (hlive w hw).1
  unfold Reliable at h ⊢
  split at h
  · exact h
  · obtain ⟨r, hr, hterminal, hthread⟩ := h
    exact ⟨r, hregistry.trans hr, (hruns r).2.1 hterminal, (hruns r).1.trans hthread⟩
  · exact hstopped _ h
  · exact hregistry.trans h
  · exact ⟨hregistry.trans h.1, (hruns _).2.2 h.2⟩
  · exact hstopped _ h
  · trivial

/-- A change of a run that keeps its thread and does not take back its end. -/
theorem Kept.setRun (h : Kept s) {run : Run} (hr : r < s.runCount) (hthread : run.thread = (s.runs r).thread)
    (hterminal : (s.runs r).state.terminal = true → run.state.terminal = true)
    (hcancel : (s.runs r).cancelRequested = true → run.cancelRequested = true) : Kept (s.setRun r run) := by
  have hruns : ∀ r', ((s.setRun r run).runs r').thread = (s.runs r').thread ∧
      ((s.runs r').state.terminal = true → ((s.setRun r run).runs r').state.terminal = true) ∧
      ((s.runs r').cancelRequested = true → ((s.setRun r run).runs r').cancelRequested = true) := by
    intro r'
    by_cases hsame : r' = r
    · subst hsame
      rw [show (s.setRun r' run).runs r' = run from Function.update_self ..]
      exact ⟨hthread, hterminal, hcancel⟩
    · rw [show (s.setRun r run).runs r' = s.runs r' from Function.update_of_ne hsame ..]
      exact ⟨rfl, id, id⟩
  refine ⟨h.single, fun w hw => ?_, h.fresh, fun r' w hw => ?_, fun r' hr' => ?_, h.locked, fun c => ?_, h.numbered,
    h.ordered⟩
  · obtain ⟨hregistry, hown⟩ := h.live w hw
    exact ⟨hregistry, (hruns _).1.trans hown⟩
  · exact h.owned r' w ((hruns r').1.symm.trans hw)
  · rw [show (s.setRun r run).runs r' = s.runs r' from Function.update_of_ne (Nat.ne_of_gt (Nat.lt_of_lt_of_le hr hr')) ..]
    exact h.unborn r' hr'
  · exact (h.reliable c).mono rfl hruns fun w hw => ⟨hw, rfl⟩

theorem setWorker_run (s : State) (w : Nat) (place : WorkerAt) (w' : Nat) :
    ((s.setWorker w place).workers w').run = (s.workers w').run := by
  by_cases hw : w' = w
  · subst hw
    rw [show (s.setWorker w' place).workers w' = ⟨(s.workers w').run, place⟩ from Function.update_self ..]
  · rw [show (s.setWorker w place).workers w' = s.workers w' from Function.update_of_ne hw ..]

/-- A live worker goes on or ends. -/
theorem Kept.setWorker (h : Kept s) (hlive : Live s w) (place : WorkerAt) : Kept (s.setWorker w place) := by
  have hworkers : ∀ w', Live (s.setWorker w place) w' → Live s w' ∧ ((s.setWorker w place).workers w').run = (s.workers w').run := by
    intro w' hw'
    unfold Live at hw' ⊢
    by_cases hw : w' = w
    · subst hw
      rw [show (s.setWorker w' place).workers w' = ⟨(s.workers w').run, place⟩ from Function.update_self ..]
      exact ⟨hlive, rfl⟩
    · rw [show (s.setWorker w place).workers w' = s.workers w' from Function.update_of_ne hw ..] at hw' ⊢
      exact ⟨hw', rfl⟩
  refine ⟨h.single, fun w' hw' => ?_, fun w' hw' hl => ?_, fun r w' hw' => ?_, h.unborn, h.locked, fun c => ?_, h.numbered,
    h.ordered⟩
  · rw [(hworkers w' hw').2]
    exact h.live w' (hworkers w' hw').1
  · exact h.fresh w' hw' (hworkers w' hl).1
  · rw [setWorker_run]
    exact h.owned r w' hw'
  · exact (h.reliable c).mono rfl (fun _ => ⟨rfl, id, id⟩) hworkers

theorem Kept.registered_lt (h : Kept s) {n : Nat} (hn : Entry.registered n ∈ s.log) : n < s.runCount := by
  have hmem : n ∈ s.log.filterMap entryRegistered := List.mem_filterMap.mpr ⟨_, hn, rfl⟩
  rw [h.numbered] at hmem
  exact List.mem_range.mp hmem

/-- The run of a live worker is the last one. -/
theorem Kept.live_last (h : Kept s) (hlive : Live s w) : (s.workers w).run + 1 = s.runCount := by
  obtain ⟨replayId, hone⟩ := (h.live w hlive).1
  rcases h.single with ⟨hnil, -⟩ | ⟨replayId', r, hr, -, hlast⟩
  · rw [hone] at hnil
    cases hnil
  · rw [hone] at hr
    cases hr
    exact hlast

/-- An event of the sink is published by a live worker; other events by anyone. -/
theorem Kept.publish (h : Kept s) {event : ReplayEventType} (hevent : event ∈ sinkEvents → r + 1 = s.runCount) :
    Kept (s.publish r event) := by
  refine ⟨h.single, h.live, h.fresh, h.owned, h.unborn, h.locked, fun c => (h.reliable c).mono rfl (fun _ => ⟨rfl, id, id⟩) fun _ hw => ⟨hw, rfl⟩,
    ?_, ?_⟩
  · rw [show (s.publish r event).log = s.log ++ [.published r event] from rfl, List.filterMap_append, h.numbered]
    exact List.append_nil _
  · refine List.pairwise_append.mpr ⟨h.ordered, List.pairwise_singleton .., ?_⟩
    rintro e he e' he' n r' event' rfl rfl hsink
    rw [List.mem_singleton] at he'
    cases he'
    have hn := h.registered_lt he
    have hlast := hevent hsink
    omega

theorem Kept.published (h : Kept s) {event : ReplayEventType} (hevent : event ∈ sinkEvents → r + 1 = s.runCount)
    (o : Outcome) : Kept (published s r event o) := by
  cases o with
  | returns => exact h.publish hevent
  | raises delivered =>
    cases delivered with
    | false => exact h
    | true => exact h.publish hevent

/-- A call moves on to a place where it may rely on what holds. -/
theorem Kept.setCall (h : Kept s) {place : CallAt} (hlocked : place.locked = true → s.lifecycleLock = some c)
    (hreliable : Reliable s place) : Kept (s.setCall c place) := by
  refine ⟨h.single, h.live, h.fresh, h.owned, h.unborn, fun c' hc' => ?_, fun c' => ?_, h.numbered, h.ordered⟩
  · by_cases hc : c' = c
    · subst hc
      rw [show (s.setCall c' place).calls c' = place from Function.update_self ..] at hc'
      exact hlocked hc'
    · rw [show (s.setCall c place).calls c' = s.calls c' from Function.update_of_ne hc ..] at hc'
      exact h.locked c' hc'
  · by_cases hc : c' = c
    · subst hc
      rw [show (s.setCall c' place).calls c' = place from Function.update_self ..]
      exact hreliable
    · rw [show (s.setCall c place).calls c' = s.calls c' from Function.update_of_ne hc ..]
      exact h.reliable c'

theorem Kept.finish (h : Kept s) : Kept (s.finish c) := by
  refine ⟨h.single, h.live, h.fresh, h.owned, h.unborn, fun c' hc' => ?_, fun c' => ?_, h.numbered, h.ordered⟩
  · by_cases hc : c' = c
    · subst hc
      rw [show (s.finish c').calls c' = .idle from Function.update_self ..] at hc'
      cases hc'
    · rw [show (s.finish c).calls c' = s.calls c' from Function.update_of_ne hc ..] at hc'
      have hown := h.locked c' hc'
      change (if s.lifecycleLock = some c then none else s.lifecycleLock) = some c'
      rw [if_neg (by rw [hown]; exact fun hsame => hc (Option.some.inj hsame)), hown]
  · by_cases hc : c' = c
    · subst hc
      rw [show (s.finish c').calls c' = .idle from Function.update_self ..]
      trivial
    · rw [show (s.finish c).calls c' = s.calls c' from Function.update_of_ne hc ..]
      exact h.reliable c'

/-- While one call holds the lock, the others do not rely on the state. -/
theorem Kept.other_reliable (h : Kept s) (hown : s.lifecycleLock = some c) {c' : Nat} (hc : c' ≠ c) (s' : State) :
    Reliable s' (s.calls c') := by
  have hunlocked : (s.calls c').locked = false := by
    cases hlocked : (s.calls c').locked with
    | false => rfl
    | true => exact absurd (Option.some.inj ((h.locked c' hlocked).symm.trans hown)) hc
  have hreliable := h.reliable c'
  cases hplace : s.calls c' with
  | idle => trivial
  | publishing r event => rwa [hplace] at hreliable
  | creating place restarting => rw [hplace] at hunlocked; cases hunlocked
  | playing replayId => trivial
  | cancelling replayId => trivial
  | joining replayId r => rw [hplace] at hunlocked; cases hunlocked
  | dropping replayId => rw [hplace] at hunlocked; cases hunlocked

/-- A stopped run leaves the registry, which is empty then. -/
theorem Kept.pop (h : Kept s) (hown : s.lifecycleLock = some c) (hstopped : Stopped s replayId) {place : CallAt}
    (hplace : ∀ s' : State, s'.registry = [] → Reliable s' place) : Kept ((s.pop replayId).setCall c place) := by
  obtain ⟨r, hr, -, hdead⟩ := hstopped
  have hnil : (s.pop replayId).registry = [] := by
    change s.registry.filter _ = []
    rw [hr]
    simp
  have hactive : (s.pop replayId).activeId = none := by
    rcases h.single with ⟨hnone, -⟩ | ⟨_, _, hone, hactive, -⟩
    · rw [hr] at hnone
      cases hnone
    · rw [hr] at hone
      cases hone
      exact if_pos hactive
  have hquiet : ∀ w, ¬ Live s w := by
    intro w hw
    obtain ⟨⟨_, hone⟩, -⟩ := h.live w hw
    rw [hr] at hone
    cases hone
    exact hdead w hw rfl
  refine ⟨.inl ⟨hnil, hactive⟩, fun w hw => absurd hw (hquiet w), h.fresh, h.owned, h.unborn, fun c' hc' => ?_,
    fun c' => ?_, h.numbered, h.ordered⟩
  · by_cases hc : c' = c
    · rw [hc]
      exact hown
    · rw [show ((s.pop replayId).setCall c place).calls c' = s.calls c' from Function.update_of_ne hc ..] at hc'
      exact h.locked c' hc'
  · by_cases hc : c' = c
    · subst hc
      rw [show ((s.pop replayId).setCall c' place).calls c' = place from Function.update_self ..]
      exact hplace _ hnil
    · rw [show ((s.pop replayId).setCall c place).calls c' = s.calls c' from Function.update_of_ne hc ..]
      exact h.other_reliable hown hc _

/-- A run enters the empty registry. -/
theorem Kept.register (h : Kept s) (hown : s.lifecycleLock = some c) (hempty : s.registry = []) (restarting : Bool) :
    Kept ((s.register replayId).setCall c (.creating (.announcing s.runCount) restarting)) := by
  have hquiet : ∀ w, ¬ Live s w := by
    intro w hw
    obtain ⟨⟨_, hone⟩, -⟩ := h.live w hw
    rw [hempty] at hone
    cases hone
  have hruns : ∀ r, r ≠ s.runCount → (s.register replayId).runs r = s.runs r := fun r hr => Function.update_of_ne hr ..
  refine ⟨.inr ⟨replayId, s.runCount, ?_, rfl, rfl⟩, fun w hw => absurd hw (hquiet w), h.fresh, fun r w hw => ?_,
    fun r hr => ?_, fun c' hc' => ?_, fun c' => ?_, ?_, ?_⟩
  · change s.registry.filter _ ++ [(replayId, s.runCount)] = _
    rw [hempty]
    rfl
  · by_cases hr : r = s.runCount
    · subst hr
      rw [show ((s.register replayId).setCall c _).runs s.runCount = Run.new replayId from Function.update_self ..] at hw
      cases hw
    · rw [show ((s.register replayId).setCall c _).runs r = s.runs r from hruns r hr] at hw
      exact h.owned r w hw
  · rw [show ((s.register replayId).setCall c _).runs r = s.runs r from hruns r (Nat.ne_of_gt hr)]
    exact h.unborn r (Nat.le_of_succ_le hr)
  · by_cases hc : c' = c
    · rw [hc]
      exact hown
    · rw [show ((s.register replayId).setCall c _).calls c' = s.calls c' from Function.update_of_ne hc ..] at hc'
      exact h.locked c' hc'
  · by_cases hc : c' = c
    · subst hc
      rw [show ((s.register replayId).setCall c' _).calls c' = _ from Function.update_self ..]
      trivial
    · rw [show ((s.register replayId).setCall c _).calls c' = s.calls c' from Function.update_of_ne hc ..]
      exact h.other_reliable hown hc _
  · change (s.log ++ [Entry.registered s.runCount]).filterMap entryRegistered = List.range (s.runCount + 1)
    rw [List.filterMap_append, h.numbered, List.range_succ]
    rfl
  · refine List.pairwise_append.mpr ⟨h.ordered, List.pairwise_singleton .., ?_⟩
    rintro e - e' he' n r event - rfl
    rw [List.mem_singleton] at he'
    cases he'

theorem not_stopping {run : Run} (h : ensureActiveRunnable run = .ok ()) : ¬ run.Stopping := by
  unfold ensureActiveRunnable at h
  rintro (hterminal | hcancel)
  · cases hstate : run.state with
    | created => rw [hstate] at hterminal; cases hterminal
    | running => rw [hstate] at hterminal; cases hterminal
    | paused => rw [hstate] at hterminal; cases hterminal
    | completed => rw [hstate] at h; split at h <;> cases h
    | failed => rw [hstate] at h; split at h <;> cases h
  · rw [if_pos hcancel] at h
    cases h

theorem lookup_single {registry : List (String × Nat)} {replayId id : String} {r r' : Nat}
    (hone : registry = [(replayId, r)]) (h : registry.lookup id = some r') : id = replayId ∧ r' = r := by
  subst hone
  rw [List.lookup_cons] at h
  split at h
  · next hsame =>
    cases h
    exact ⟨beq_iff_eq.mp hsame, rfl⟩
  · cases h

/-- The run of the registry is the last one. -/
theorem Kept.lookup_last (h : Kept s) (hlookup : s.registry.lookup replayId = some r) : r + 1 = s.runCount := by
  rcases h.single with ⟨hnil, -⟩ | ⟨id, r', hone, -, hlast⟩
  · rw [hnil] at hlookup
    cases hlookup
  · obtain ⟨-, rfl⟩ := lookup_single hone hlookup
    exact hlast

theorem Kept.lookup_lt (h : Kept s) (hlookup : s.registry.lookup replayId = some r) : r < s.runCount :=
  Nat.lt_of_succ_le (h.lookup_last hlookup).le

/-- A worker is started for the run of the registry when the last one is dead. -/
theorem Kept.startWorker (h : Kept s) (hlookup : s.registry.lookup replayId = some r)
    (hrunnable : ensureActiveRunnable (s.runs r) = .ok ()) (hdead : s.isAlive (s.runs r).thread = false) :
    Kept (s.startWorker r) := by
  have hgoing := not_stopping hrunnable
  have hone : ∃ id, s.registry = [(id, r)] := by
    rcases h.single with ⟨hnil, -⟩ | ⟨id, r', hone, -⟩
    · rw [hnil] at hlookup
      cases hlookup
    · obtain ⟨-, rfl⟩ := lookup_single hone hlookup
      exact ⟨id, hone⟩
  obtain ⟨id, hone⟩ := hone
  have hquiet : ∀ w, ¬ Live s w := by
    intro w hw
    obtain ⟨⟨_, hown⟩, hthread⟩ := h.live w hw
    rw [hone] at hown
    cases hown
    rw [hthread] at hdead
    exact hw (by simpa [State.isAlive] using hdead)
  have honly : ∀ w, Live (s.startWorker r) w → w = s.workerCount := by
    intro w hw
    by_contra hne
    refine hquiet w ?_
    unfold Live at hw ⊢
    rwa [show (s.startWorker r).workers w = s.workers w from Function.update_of_ne hne ..] at hw
  have hlast := h.lookup_last hlookup
  have hruns : ∀ r', r' ≠ r → (s.startWorker r).runs r' = s.runs r' := fun r' hr' => Function.update_of_ne hr' ..
  refine ⟨h.single, fun w hw => ?_, fun w hcount hw => ?_, fun r' w hw => ?_, fun r' hr' => ?_, h.locked, fun c => ?_,
    h.numbered, h.ordered⟩
  · obtain rfl := honly w hw
    rw [show (s.startWorker r).workers s.workerCount = ⟨r, .start⟩ from Function.update_self ..]
    refine ⟨⟨id, hone⟩, ?_⟩
    rw [show (s.startWorker r).runs r = _ from Function.update_self ..]
  · obtain rfl := honly w hw
    exact Nat.not_succ_le_self _ hcount
  · by_cases hr' : r' = r
    · subst hr'
      rw [show (s.startWorker r').runs r' = _ from Function.update_self ..] at hw
      cases hw
      rw [show (s.startWorker r').workers s.workerCount = ⟨r', .start⟩ from Function.update_self ..]
      exact ⟨Nat.lt_succ_self _, rfl⟩
    · rw [hruns r' hr'] at hw
      obtain ⟨hlt, hown⟩ := h.owned r' w hw
      rw [show (s.startWorker r).workers w = s.workers w from Function.update_of_ne (Nat.ne_of_lt hlt) ..]
      exact ⟨Nat.lt_succ_of_lt hlt, hown⟩
  · have hgt : r < r' := Nat.lt_of_succ_le (hlast.le.trans hr')
    rw [hruns r' (Nat.ne_of_gt hgt)]
    exact h.unborn r' hr'
  · have hreliable := h.reliable c
    have hstopped : ∀ id', ¬ Stopped s id' := by
      rintro id' ⟨r', hr', hstop, -⟩
      rw [hone] at hr'
      cases hr'
      exact hgoing hstop
    change Reliable (s.startWorker r) (s.calls c)
    unfold Reliable at hreliable ⊢
    split at hreliable
    · exact hreliable
    · obtain ⟨r', hr', hterminal, -⟩ := hreliable
      rw [hone] at hr'
      cases hr'
      exact absurd (.inl hterminal) hgoing
    · exact absurd hreliable (hstopped _)
    · rw [hone] at hreliable
      cases hreliable
    · obtain ⟨hr', hcancel⟩ := hreliable
      rw [hone] at hr'
      cases hr'
      exact absurd (.inr hcancel) hgoing
    · exact absurd hreliable (hstopped _)
    · trivial

end Keeping

/-! ## Every move keeps it -/

/-- A section that succeeds keeps the state and announces an event of its own. -/
def KeepsSection (s : State) (sec : Section) : Prop :=
  ∀ s' announced, sec = .ok (s', announced) → Kept s' ∧ s'.lifecycleLock = s.lifecycleLock ∧
    ∀ r event, announced = some (r, event) → event ∈ controlEvents

section Moves

variable {s s' : State} {c w r : Nat} {replayId : String}

theorem require_ok (h : require s replayId = .ok r) : s.registry.lookup replayId = some r := by
  unfold require at h
  split at h
  · cases h
  · next hr =>
    cases h
    exact hr

theorem control_not_sink : ∀ event ∈ controlEvents, event ∉ sinkEvents := by decide

theorem section_ok {f : Nat → Section} {result : State × Option (Nat × ReplayEventType)}
    (h : (require s replayId >>= fun r => ensureActiveRunnable (s.runs r) >>= fun _ => f r) = .ok result) :
    ∃ r, s.registry.lookup replayId = some r ∧ ensureActiveRunnable (s.runs r) = .ok () ∧ f r = .ok result := by
  cases hrequire : require s replayId with
  | error e =>
    rw [hrequire] at h
    cases h
  | ok r =>
    rw [hrequire] at h
    replace h : (ensureActiveRunnable (s.runs r) >>= fun _ => f r) = .ok result := h
    cases hrunnable : ensureActiveRunnable (s.runs r) with
    | error e =>
      rw [hrunnable] at h
      cases h
    | ok u =>
      rw [hrunnable] at h
      exact ⟨r, require_ok hrequire, hrunnable, h⟩

theorem play_kept (h : Kept s) : KeepsSection s (play s replayId) := by
  intro s' announced hplay
  obtain ⟨r, hlookup, hrunnable, hplay⟩ := section_ok hplay
  have hgoing := not_stopping hrunnable
  split at hplay
  · cases hplay
  split at hplay
  · split at hplay
    · cases hplay
    · next hdead =>
      cases hplay
      exact ⟨h.startWorker hlookup hrunnable (Bool.eq_false_iff.mpr hdead), rfl, fun _ _ hsome => nomatch hsome⟩
  · split at hplay
    · cases hplay
    · cases hplay
      refine ⟨h.setRun (h.lookup_lt hlookup) rfl (fun hterminal => absurd (.inl hterminal) hgoing) id, rfl, ?_⟩
      intro _ _ hsome
      cases hsome
      decide

theorem pause_kept (h : Kept s) : KeepsSection s (pause s replayId) := by
  intro s' announced hpause
  obtain ⟨r, hlookup, hrunnable, hpause⟩ := section_ok hpause
  split at hpause
  · cases hpause
  · cases hpause
    refine ⟨h.setRun (h.lookup_lt hlookup) rfl (fun hterminal => absurd (.inl hterminal) (not_stopping hrunnable)) id, rfl, ?_⟩
    intro _ _ hsome
    cases hsome
    decide

theorem stepReplay_kept (h : Kept s) : KeepsSection s (stepReplay s replayId) := by
  intro s' announced hstep
  obtain ⟨r, hlookup, -, hstep⟩ := section_ok hstep
  split at hstep
  · cases hstep
  · split at hstep
    · cases hstep
    · cases hstep
      refine ⟨h.setRun (h.lookup_lt hlookup) rfl id id, rfl, ?_⟩
      intro _ _ hsome
      cases hsome
      decide

theorem afterSection_kept (h : Kept s) {sec : Section} (hsec : KeepsSection s sec) : Kept (afterSection s c sec) := by
  cases hresult : sec with
  | error e => exact h.finish
  | ok result =>
    obtain ⟨s', announced⟩ := result
    obtain ⟨hkept, -, hevent⟩ := hsec s' announced hresult
    cases announced with
    | none => exact hkept.finish
    | some announced =>
      obtain ⟨r, event⟩ := announced
      exact hkept.setCall (fun hlocked => Bool.noConfusion hlocked) (hevent r event rfl)

theorem acquire_kept (h : Kept s) (place : CallAt) (hreliable : ∀ s', Reliable s' place)
    (hacquire : acquire s c place = some s') : Kept s' := by
  unfold acquire at hacquire
  split at hacquire
  · next hfree =>
    cases hacquire
    have hnone : ∀ c', (s.calls c').locked = false := by
      intro c'
      cases hlocked : (s.calls c').locked with
      | false => rfl
      | true =>
        rw [h.locked c' hlocked] at hfree
        cases hfree
    refine ⟨h.single, h.live, h.fresh, h.owned, h.unborn, fun c' hc' => ?_, fun c' => ?_, h.numbered, h.ordered⟩
    · by_cases hc : c' = c
      · rw [hc]
      · change (update s.calls c place c').locked = true at hc'
        rw [Function.update_of_ne hc, hnone] at hc'
        cases hc'
    · change Reliable _ (update s.calls c place c')
      by_cases hc : c' = c
      · subst hc
        rw [Function.update_self]
        exact hreliable _
      · rw [Function.update_of_ne hc]
        exact (h.reliable c').mono rfl (fun _ => ⟨rfl, id, id⟩) fun _ hw => ⟨hw, rfl⟩
  · cases hacquire

theorem request_kept (h : Kept s) {q : Request} (hrequest : request s c q = some s') : Kept s' := by
  unfold request at hrequest
  split at hrequest
  · cases q with
    | create => exact acquire_kept h (.creating .checking false) (fun _ => trivial) hrequest
    | restart replayId => exact acquire_kept h (.cancelling replayId) (fun _ => trivial) hrequest
    | play replayId =>
      cases hrequest
      exact afterSection_kept h (play_kept h)
    | pause replayId =>
      cases hrequest
      exact afterSection_kept h (pause_kept h)
    | step replayId =>
      cases hrequest
      exact afterSection_kept h (stepReplay_kept h)
  · cases hrequest

theorem checkActive_kept (h : Kept s) (hown : s.lifecycleLock = some c) (restarting : Bool) (o : Outcome) :
    Kept (checkActive s c restarting o) := by
  have hcaps : ∀ place, Reliable s (.creating place restarting) →
      Kept (if o = .returns then s.setCall c (.creating place restarting) else s.finish c) := by
    intro place hreliable
    split
    · exact h.setCall (fun _ => hown) hreliable
    · exact h.finish
  unfold checkActive
  rcases h.single with ⟨hnil, hnone⟩ | ⟨id, r, hone, hactive, -⟩
  · rw [hnone]
    exact hcaps _ hnil
  · have hlookup : s.registry.lookup id = some r := by
      rw [hone, List.lookup_cons, beq_self_eq_true]
    rw [hactive]
    simp only [hlookup]
    split
    · next hterminal => exact hcaps _ ⟨r, hone, hterminal, rfl⟩
    · exact h.finish

theorem isAlive_of_live (hlive : Live s w) : s.isAlive (some w) = true := by
  simpa [State.isAlive, Live] using hlive

theorem stopped_of_dead (h : Kept s) (hone : s.registry = [(replayId, r)]) (hstop : (s.runs r).Stopping)
    (hdead : s.isAlive (s.runs r).thread = false) : Stopped s replayId := by
  refine ⟨r, hone, hstop, ?_⟩
  rintro w hw rfl
  rw [(h.live w hw).2, isAlive_of_live hw] at hdead
  cases hdead

theorem createStep_kept (h : Kept s) (hown : s.lifecycleLock = some c) {place : CreateAt} {restarting : Bool}
    (hreliable : Reliable s (.creating place restarting)) (o : Outcome) (hex : String) :
    Kept (createStep s c restarting o hex place) := by
  cases place with
  | checking => exact checkActive_kept h hown restarting o
  | joining terminalId thread =>
    obtain ⟨r, hone, hterminal, rfl⟩ := hreliable
    simp only [createStep]
    split
    · exact h.finish
    · next hdead =>
      exact h.setCall (fun _ => hown) (stopped_of_dead h hone (.inl hterminal) (Bool.eq_false_iff.mpr hdead))
  | dropping terminalId => exact h.pop hown hreliable fun _ hnil => hnil
  | registering =>
    simp only [createStep]
    split
    · exact h.register hown hreliable restarting
    · exact h.finish
  | announcing r =>
    have hkept : Kept (published s r .replayCreated o) := h.published (fun hsink => absurd hsink (by decide)) o
    simp only [createStep]
    split
    · refine hkept.setCall (fun _ => ?_) trivial
      rw [← hown]
      cases o with
      | returns => rfl
      | raises delivered => cases delivered <;> rfl
    · exact hkept.finish

theorem callStep_kept (h : Kept s) {o : Outcome} {hex : String} (hcall : callStep s c o hex = some s') : Kept s' := by
  have hreliable := h.reliable c
  have hlocked := h.locked c
  unfold callStep at hcall
  cases hplace : s.calls c with
  | idle =>
    rw [hplace] at hcall
    cases hcall
  | publishing r event =>
    rw [hplace] at hcall hreliable
    cases hcall
    exact (h.published (fun hsink => absurd hsink (control_not_sink event hreliable)) o).finish
  | creating place restarting =>
    rw [hplace] at hcall hreliable hlocked
    cases hcall
    exact createStep_kept h (hlocked rfl) hreliable o hex
  | playing replayId =>
    rw [hplace] at hcall
    cases hcall
    exact afterSection_kept h (play_kept h)
  | cancelling replayId =>
    rw [hplace] at hcall hlocked
    cases hrequire : require s replayId with
    | error e =>
      simp only [hrequire] at hcall
      cases hcall
      exact h.finish
    | ok r =>
      simp only [hrequire] at hcall
      cases hcall
      refine Kept.setCall (h.setRun (h.lookup_lt (require_ok hrequire)) ?_ ?_ ?_) (fun _ => hlocked rfl) ?_
      · rfl
      · exact id
      · exact fun _ => rfl
      rcases h.single with ⟨hnil, -⟩ | ⟨id, r', hone, -⟩
      · have hlookup := require_ok hrequire
        rw [hnil] at hlookup
        cases hlookup
      · obtain ⟨rfl, rfl⟩ := lookup_single hone (require_ok hrequire)
        refine ⟨hone, ?_⟩
        change (update s.runs r _ r).cancelRequested = true
        rw [Function.update_self]
  | joining replayId r =>
    rw [hplace] at hcall hreliable hlocked
    simp only at hcall
    split at hcall
    · cases hcall
      exact h.finish
    · next hdead =>
      cases hcall
      exact h.setCall (fun _ => hlocked rfl)
        (stopped_of_dead h hreliable.1 (.inr hreliable.2) (Bool.eq_false_iff.mpr hdead))
  | dropping replayId =>
    rw [hplace] at hcall hreliable hlocked
    cases hcall
    exact h.pop (hlocked rfl) hreliable fun _ _ => trivial

/-- A worker that moves is alive; it changes its own run only, and publishes for it. -/
theorem workerStep_kept (h : Kept s) {m : WorkerMove} (hworker : workerStep s w m = some s') : Kept s' := by
  have hlive : Live s w := by
    intro hended
    unfold workerStep at hworker
    rw [hended] at hworker
    cases m <;> cases hworker
  have hlast : ∀ event : ReplayEventType, event ∈ sinkEvents → (s.workers w).run + 1 = s.runCount :=
    fun _ _ => h.live_last hlive
  have hlt : (s.workers w).run < s.runCount := Nat.lt_of_succ_le (h.live_last hlive).le
  have hlive_run : ∀ run, Live (s.setRun (s.workers w).run run) w := fun _ => hlive
  have hlive_published : ∀ event o, Live (published s (s.workers w).run event o) w := by
    intro event o
    cases o with
    | returns => exact hlive
    | raises delivered => cases delivered <;> exact hlive
  unfold workerStep at hworker
  dsimp only at hworker
  split at hworker
  · cases hworker
    exact h.setWorker hlive _
  · cases hworker
    exact h.setWorker hlive _
  · cases hworker
    exact h.setWorker hlive _
  · split at hworker
    · cases hworker
      exact h.setWorker hlive _
    · cases hworker
      exact Kept.setWorker (h.setRun hlt (by rfl) (by exact id) (by exact id)) (hlive_run _) _
  · cases hworker
    refine Kept.setWorker (h.setRun hlt (by rfl) (fun hterminal => ?_) (by exact id)) (hlive_run _) _
    cases hstate : (s.runs (s.workers w).run).state <;> rw [hstate] at hterminal <;> exact hterminal
  · split at hworker
    · cases hworker
      exact h.publish (hlast _)
    · cases hworker
      exact h
  · split at hworker
    · cases hworker
      exact h.setWorker hlive _
    · cases hworker
  · cases hworker
    exact h.setRun hlt rfl id id
  · cases hworker
    exact h.setWorker hlive _
  · cases hworker
    exact h.setWorker hlive _
  · cases hworker
    exact Kept.setWorker (h.setRun hlt (by rfl) (by exact fun _ => rfl) (by exact id)) (hlive_run _) _
  · split at hworker
    · cases hworker
      exact h.publish (hlast _)
    · cases hworker
  · cases hworker
    exact h.setWorker hlive _
  · cases hworker
    exact h.setWorker hlive _
  · cases hworker
    exact (h.publish (hlast _)).setWorker hlive _
  · cases hworker
    exact (h.published (hlast _) _).setWorker (hlive_published _ _) _
  · cases hworker
    exact Kept.setWorker (h.setRun hlt (by rfl) (by exact fun _ => rfl) (by exact id)) (hlive_run _) _
  · cases hworker
    exact (h.publish (hlast _)).setWorker hlive _
  · cases hworker
    exact (h.published (hlast _) _).setWorker (hlive_published _ _) _
  · cases hworker
    exact h.setWorker hlive _
  · cases hworker
    exact h.setWorker hlive _
  · cases hworker

theorem step_kept (h : Kept s) {m : Move} (hstep : step s m = some s') : Kept s' := by
  cases m with
  | request c q => exact request_kept h hstep
  | call c o hex => exact callStep_kept h hstep
  | worker w m => exact workerStep_kept h hstep

theorem run_kept (h : Kept s) {ms : List Move} (hrun : run s ms = some s') : Kept s' := by
  induction ms generalizing s with
  | nil =>
    cases hrun
    exact h
  | cons m ms ih =>
    obtain ⟨t, ht, hrest⟩ := Option.bind_eq_some_iff.mp hrun
    exact ih (step_kept h ht) hrest

end Moves

/-- Runs are numbered in the order of their registration, so a later run has a larger number. -/
theorem registry_kept {ms : List Move} {s : State} (hrun : run start ms = some s) :
    s.registry.length ≤ 1 ∧ (∀ replayId r, (replayId, r) ∈ s.registry → s.activeId = some replayId) ∧
      (∀ w w', Live s w → Live s w' → (s.runs (s.workers w).run).state.terminal = false →
        (s.runs (s.workers w').run).state.terminal = false → (s.workers w).run = (s.workers w').run) ∧
      (∀ w w', Live s w → Live s w' → (s.workers w).run = (s.workers w').run → w = w') ∧
      s.log.filterMap entryRegistered = List.range s.runCount ∧ s.log.Pairwise Unsuperseded := by
  have h := run_kept kept_start hrun
  refine ⟨?_, ?_, ?_, ?_, h.numbered, h.ordered⟩
  · rcases h.single with ⟨hnil, -⟩ | ⟨replayId, r, hone, -⟩
    · rw [hnil]
      exact Nat.zero_le 1
    · rw [hone]
      exact Nat.le_refl 1
  · intro replayId r hmem
    rcases h.single with ⟨hnil, -⟩ | ⟨replayId', r', hone, hactive, -⟩
    · rw [hnil] at hmem
      cases hmem
    · rw [hone, List.mem_singleton] at hmem
      cases hmem
      exact hactive
  · intro w w' hw hw' _ _
    exact Nat.succ_injective ((h.live_last hw).trans (h.live_last hw').symm)
  · intro w w' hw hw' hsame
    have hthread := (h.live w' hw').2
    rw [← hsame, (h.live w hw).2] at hthread
    exact Option.some.inj hthread

/-- A replay is created, played and restarted while it runs. -/
def restarted : List Move :=
  [.request 0 .create, .call 0 .returns "", .call 0 .returns "a", .call 0 .returns "", .request 0 (.play "a"),
    .worker 0 .goes, .worker 0 .goes, .worker 0 .goes, .worker 0 .goes, .worker 0 (.publishes .windowStarted),
    .request 1 (.restart "a"), .call 1 .returns "", .worker 0 .findsCancelled, .worker 0 .goes, .worker 0 .goes,
    .call 1 .returns "", .call 1 .returns "", .call 1 .returns "", .call 1 .returns "b", .call 1 .returns "",
    .call 1 .returns "", .worker 1 .goes, .worker 1 .goes, .worker 1 .goes, .worker 1 .goes,
    .worker 1 (.publishes .windowStarted)]

theorem registry_kept_restarted : ∃ s, run start restarted = some s ∧ s.registry = [("b", 1)] ∧ s.registry.length ≤ 1 :=
  ⟨_, rfl, rfl, (registry_kept (show run start restarted = _ from rfl)).1⟩

end ReplayLifecycle
