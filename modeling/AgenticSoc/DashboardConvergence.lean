import AgenticSoc.DashboardSynchronizer

/-!
# The dashboard at the end of a replay

A run of the synchronizer over one replay, whose responses are snapshots of the backend
taken between request and response. Statuses have a number and an outdated one is dropped.
The scientific state has none: a response that was taken before the replay completed but
arrives behind the final refresh replaces what that has shown.
-/
namespace DashboardConvergence

open DashboardState DashboardSynchronizer
open Function (update)

/-! ## What the dashboard shows -/

structure Screen (X : Type) where
  replayId : Option String
  status : Option ReplayStatusV1
  deviceStates : List (DeviceStateV1 X)
  riskGraph : Option (SnapshotV1 X)
  commGraph : Option (SnapshotV1 X)
  srep : Option (SnapshotV1 X)

def screen {X P : Type} (u : ReplayState X P) : Screen X :=
  ⟨u.replayId, u.status, u.deviceStates, u.riskGraph, u.commGraph, u.srep⟩

/-- Actions that change nothing of it. -/
def Quiet {X P : Type} : ReplayAction X P → Prop
  | .connection _ | .startRequested | .startCancelled | .event _ | .eventGap => True
  | .scientificUnavailable | .scientificAvailable | .error _ | .clearError => True
  | _ => False

/-- Calls that stay with the replay that is shown. -/
def StaysWith {P : Type} : Operation P → Prop
  | .createReplay | .restart _ | .recoverActiveReplay _ => False
  | _ => True

/-- Places of the tasks that these calls start. -/
def Plain : TaskAt → Prop
  | .creating | .restarting _ | .health _ | .recovering _ _ _ | .recoverySettled _ | .joiningRecovery _ _ => False
  | _ => True

section Screens

variable {X P : Type} {schemas : Schemas X P} {s s' : State X P} {t t' : Nat}

theorem screen_dispatch {a : ReplayAction X P} (hquiet : Quiet a) : screen (s.dispatch a).ui = screen s.ui := by
  cases a with
  | event envelope =>
    change screen (reduceEvent s.ui envelope) = screen s.ui
    unfold reduceEvent
    split
    · rfl
    · simp only [screen]
  | connection state => rfl
  | startRequested => rfl
  | startCancelled => rfl
  | eventGap => rfl
  | scientificUnavailable => rfl
  | scientificAvailable => rfl
  | error notice => rfl
  | clearError => rfl
  | replaySet replayId status => cases hquiet
  | replayCleared => cases hquiet
  | status payload => cases hquiet
  | deviceStates payload => cases hquiet
  | upsertDeviceState payload => cases hquiet
  | riskGraph payload => cases hquiet
  | commGraph payload => cases hquiet
  | srep payload => cases hquiet

theorem screen_reportError (message : String) (cause : Cause) : screen (s.reportError message cause).ui = screen s.ui :=
  screen_dispatch (a := .error ⟨message, cause⟩) trivial

theorem settleStatus_ok_screen (hid : s.ui.replayId = some replayId) (reportFailure : Bool) (next : AfterStatus)
    (payload : ReplayStatusV1) :
    screen (settleStatus s t replayId reportFailure next (.ok payload)).ui = screen (reduceStatus s.ui payload) := by
  unfold settleStatus
  rw [if_neg (not_not.mpr hid)]
  dsimp only
  split
  · split
    · exact screen_reportError _ _
    · rfl
  · rfl

theorem settleStatus_other_screen {reply : Except RestError ReplayStatusV1} {reportFailure : Bool} {next : AfterStatus}
    (h : s.ui.replayId ≠ some replayId ∨ ∃ e, reply = .error e) :
    screen (settleStatus s t replayId reportFailure next reply).ui = screen s.ui := by
  unfold settleStatus
  split
  · rfl
  · next hsame =>
    obtain ⟨e, rfl⟩ := h.resolve_left hsame
    dsimp only
    split
    · exact screen_reportError _ _
    · rfl

theorem settleScience_ok_screen (hid : s.ui.replayId = some replayId) (status : Option ReplayStatusV1) (next : AfterScience)
    (devices : List (DeviceStateV1 X)) (riskGraph communicationGraph srep : SnapshotV1 X) :
    screen (settleScience s t replayId status next (.ok (devices, riskGraph, communicationGraph, srep))).ui =
      ⟨s.ui.replayId, s.ui.status, devices, some riskGraph, some communicationGraph, some srep⟩ := by
  unfold settleScience
  rw [if_neg (not_not.mpr hid)]
  rfl

theorem settleScience_other_screen
    {reply : Except RestError (List (DeviceStateV1 X) × SnapshotV1 X × SnapshotV1 X × SnapshotV1 X)}
    {status : Option ReplayStatusV1} {next : AfterScience} (h : s.ui.replayId ≠ some replayId ∨ ∃ e, reply = .error e) :
    screen (settleScience s t replayId status next reply).ui = screen s.ui := by
  unfold settleScience
  split
  · rfl
  · next hsame =>
    obtain ⟨e, rfl⟩ := h.resolve_left hsame
    dsimp only
    split
    · rfl
    · exact screen_reportError _ _

theorem controlFailed_screen (replayId : String) (action : Control) (requestedStart : Bool) (error : RestError)
    (status : Option ReplayStatusV1) :
    screen (controlFailed s t replayId action requestedStart error status).ui = screen s.ui := by
  unfold controlFailed
  repeat' split
  · rfl
  · rfl
  · exact (screen_reportError _ _).trans (screen_dispatch (a := .startCancelled) trivial)
  · exact screen_reportError _ _

theorem scheduleWindowRefresh_screen (replayId : String) : screen (s.scheduleWindowRefresh replayId).ui = screen s.ui := by
  unfold State.scheduleWindowRefresh
  repeat' split
  all_goals rfl

/-- A task that goes on changes nothing that is shown. -/
theorem resume_screen (hresume : resume s t = some s') : screen s'.ui = screen s.ui := by
  unfold resume at hresume
  split at hresume
  · cases hresume
    unfold afterStatus
    split
    · rfl
    · split <;> rfl
    · split <;> rfl
    · rfl
    · split
      · rfl
      · exact controlFailed_screen ..
    · dsimp only
      split
      · exact screen_reportError _ _
      · rfl
  · cases hresume
    unfold afterScience
    split
    · rfl
    · rfl
    · exact controlFailed_screen ..
  · cases hresume
    unfold windowOver
    dsimp only
    split
    · split
      · exact scheduleWindowRefresh_screen _
      · rfl
    · rfl
  · split at hresume
    · cases hresume
      rfl
    · cases hresume
  · cases hresume
    rfl
  · split at hresume
    · cases hresume
      rfl
    · cases hresume
      exact screen_reportError _ _
    · cases hresume
  · cases hresume

/-- Only a snapshot event changes what is shown, of the calls that stay with the replay. -/
def isSnapshotEvent (e : EventEnvelopeV1 P) : Prop :=
  e.eventType = .deviceState ∨ e.eventType = .deviceRiskGraphSnapshot ∨ e.eventType = .communicationGraphSnapshot ∨
    e.eventType = .srepSnapshot

theorem finalRefresh_screen (replayId : String) : screen (finalRefresh s replayId).ui = screen s.ui := by
  unfold finalRefresh
  dsimp only
  split <;> rfl

theorem handleEvent_screen {e : EventEnvelopeV1 P} (h : s.ui.replayId ≠ some e.replayId ∨ ¬ isSnapshotEvent e) :
    screen (handleEvent schemas s e).ui = screen s.ui := by
  have hevent : screen (s.dispatch (.event e)).ui = screen s.ui := screen_dispatch (a := .event e) trivial
  unfold handleEvent
  split
  · rfl
  next hsame =>
  have hnot := h.resolve_left hsame
  dsimp only
  split
  · exact hevent
  · exact hevent
  · exact hevent
  · exact hevent
  · exact (scheduleWindowRefresh_screen _).trans hevent
  · exact hevent
  · exact hevent
  · next htype => exact absurd (.inl htype) hnot
  · next htype => exact absurd (.inr (.inl htype)) hnot
  · next htype => exact absurd (.inr (.inr (.inl htype))) hnot
  · next htype => exact absurd (.inr (.inr (.inr htype))) hnot
  · exact (finalRefresh_screen _).trans hevent
  · exact hevent

theorem invoke_screen {operation : Operation P} (hstays : StaysWith operation)
    (hevent : ∀ e, operation = .handleEvent e → s.ui.replayId ≠ some e.replayId ∨ ¬ isSnapshotEvent e) :
    screen (invoke schemas s operation).ui = screen s.ui := by
  cases operation with
  | createReplay => cases hstays
  | restart replayId => cases hstays
  | recoverActiveReplay reportFailure => cases hstays
  | control action replayId =>
    simp only [invoke]
    split <;> rfl
  | setSpeed replayId => rfl
  | refreshStatus replayId reportFailure => rfl
  | hydrateReplay replayId => rfl
  | handleEvent e => exact handleEvent_screen (hevent e rfl)
  | handleGap replayId => rfl
  | connection state => rfl
  | cancelPendingRefresh => rfl
  | timer =>
    simp only [invoke]
    split <;> rfl

end Screens

/-! ## What happens to the tasks -/

section Tasks

variable {X P : Type} {schemas : Schemas X P} {s s' : State X P} {t t' : Nat}

/-- One task has moved to a place of this kind since now; the others are where they were. -/
structure Moved (s : State X P) (t : Nat) (s' : State X P) : Prop where
  others : ∀ t', t' ≠ t → s'.tasks t' = s.tasks t'
  plain : Plain (s'.tasks t).place
  since : (s'.tasks t).since = s.now
  count : s'.taskCount = s.taskCount
  now : s'.now = s.now

/-- The state it moves in may have changed otherwise. -/
theorem moved {s₁ : State X P} (h : s₁.tasks = s.tasks ∧ s₁.taskCount = s.taskCount ∧ s₁.now = s.now) {place : TaskAt}
    (hplain : Plain place) : Moved s t (s₁.setTask t place) := by
  have hself : (s₁.setTask t place).tasks t = ⟨place, s₁.now⟩ := Function.update_self ..
  refine ⟨fun t' ht => ?_, ?_, ?_, h.2.1, h.2.2⟩
  · rw [← h.1]
    exact Function.update_of_ne ht ..
  · rw [hself]
    exact hplain
  · rw [hself]
    exact h.2.2

theorem settleStatus_moved (replayId : String) (reportFailure : Bool) (next : AfterStatus)
    (reply : Except RestError ReplayStatusV1) : Moved s t (settleStatus s t replayId reportFailure next reply) := by
  unfold settleStatus
  split
  · exact moved (by exact ⟨rfl, rfl, rfl⟩) (by exact trivial)
  · split
    · dsimp only
      split
      · split <;> exact moved (by exact ⟨rfl, rfl, rfl⟩) (by exact trivial)
      · exact moved (by exact ⟨rfl, rfl, rfl⟩) (by exact trivial)
    · dsimp only
      split <;> exact moved (by exact ⟨rfl, rfl, rfl⟩) (by exact trivial)

theorem settleScience_moved (replayId : String) (status : Option ReplayStatusV1) (next : AfterScience)
    (reply : Except RestError (List (DeviceStateV1 X) × SnapshotV1 X × SnapshotV1 X × SnapshotV1 X)) :
    Moved s t (settleScience s t replayId status next reply) := by
  unfold settleScience
  split
  · exact moved (by exact ⟨rfl, rfl, rfl⟩) (by exact trivial)
  · split
    · exact moved (by exact ⟨rfl, rfl, rfl⟩) (by exact trivial)
    · dsimp only
      split <;> exact moved (by exact ⟨rfl, rfl, rfl⟩) (by exact trivial)

theorem respond_moved {reply : Reply X} (hplain : Plain (s.tasks t).place) (hrespond : respond s t reply = some s') :
    Moved s t s' := by
  unfold respond at hrespond
  split at hrespond
  · next hplace =>
    rw [hplace] at hplain
    cases hplain
  · next hplace =>
    rw [hplace] at hplain
    cases hplain
  · cases hrespond
    exact moved (by exact ⟨rfl, rfl, rfl⟩) (by exact trivial)
  · cases hrespond
    exact moved (by exact ⟨rfl, rfl, rfl⟩) (by exact trivial)
  · next hplace =>
    rw [hplace] at hplain
    cases hplain
  · next hplace =>
    rw [hplace] at hplain
    cases hplain
  · cases hrespond
    exact moved (by exact ⟨rfl, rfl, rfl⟩) (by exact trivial)
  · cases hrespond
    exact moved (by exact ⟨rfl, rfl, rfl⟩) (by exact trivial)
  · cases hrespond
    exact settleStatus_moved ..
  · cases hrespond
    exact settleStatus_moved ..
  · cases hrespond
    exact settleScience_moved ..
  · cases hrespond
    exact settleScience_moved ..
  · next hplace =>
    rw [hplace] at hplain
    cases hplain
  · next hplace =>
    rw [hplace] at hplain
    cases hplain
  · next hplace =>
    rw [hplace] at hplain
    cases hplain
  · next hplace =>
    rw [hplace] at hplain
    cases hplain
  · cases hrespond

theorem controlFailed_moved (replayId : String) (action : Control) (requestedStart : Bool) (error : RestError)
    (status : Option ReplayStatusV1) : Moved s t (controlFailed s t replayId action requestedStart error status) := by
  unfold controlFailed
  repeat' split
  all_goals exact moved (by exact ⟨rfl, rfl, rfl⟩) (by exact trivial)

theorem resume_moved (hplain : Plain (s.tasks t).place) (hresume : resume s t = some s') : Moved s t s' := by
  unfold resume at hresume
  split at hresume
  · cases hresume
    unfold afterStatus
    split
    · exact moved (by exact ⟨rfl, rfl, rfl⟩) (by exact trivial)
    · split <;> exact moved (by exact ⟨rfl, rfl, rfl⟩) (by exact trivial)
    · split <;> exact moved (by exact ⟨rfl, rfl, rfl⟩) (by exact trivial)
    · exact moved (by exact ⟨rfl, rfl, rfl⟩) (by exact trivial)
    · split
      · exact moved (by exact ⟨rfl, rfl, rfl⟩) (by exact trivial)
      · exact controlFailed_moved ..
    · dsimp only
      split <;> exact moved (by exact ⟨rfl, rfl, rfl⟩) (by exact trivial)
  · cases hresume
    unfold afterScience
    split
    · exact moved (by exact ⟨rfl, rfl, rfl⟩) (by exact trivial)
    · exact moved (by exact ⟨rfl, rfl, rfl⟩) (by exact trivial)
    · exact controlFailed_moved ..
  · cases hresume
    unfold windowOver
    dsimp only
    split
    · split
      · unfold State.scheduleWindowRefresh
        repeat' split
        all_goals exact moved (by exact ⟨rfl, rfl, rfl⟩) (by exact trivial)
      · exact moved (by exact ⟨rfl, rfl, rfl⟩) (by exact trivial)
    · exact moved (by exact ⟨rfl, rfl, rfl⟩) (by exact trivial)
  · split at hresume
    · cases hresume
      exact moved (by exact ⟨rfl, rfl, rfl⟩) (by exact trivial)
    · cases hresume
  · next hplace =>
    rw [hplace] at hplain
    cases hplain
  · next hplace =>
    rw [hplace] at hplain
    cases hplain
  · cases hresume

/-- A call starts at most one task, the next one. -/
structure Called (s s' : State X P) : Prop where
  others : ∀ t', t' ≠ s.taskCount → s'.tasks t' = s.tasks t'
  plain : s'.tasks s.taskCount = s.tasks s.taskCount ∨ Plain (s'.tasks s.taskCount).place
  count : s.taskCount ≤ s'.taskCount
  now : s'.now = s.now

theorem called_spawn {s₁ : State X P} (h : s₁.tasks = s.tasks ∧ s₁.taskCount = s.taskCount ∧ s₁.now = s.now)
    {place : TaskAt} (hplain : Plain place) : Called s (s₁.spawn place) := by
  have hmoved : Moved s s.taskCount (s₁.setTask s.taskCount place) := moved h hplain
  have htasks : (s₁.spawn place).tasks = (s₁.setTask s.taskCount place).tasks := by
    rw [← h.2.1]
    rfl
  refine ⟨?_, ?_, ?_, h.2.2⟩
  · rw [htasks]
    exact hmoved.others
  · rw [htasks]
    exact .inr hmoved.plain
  · change s.taskCount ≤ s₁.taskCount + 1
    rw [h.2.1]
    exact Nat.le_succ _

theorem Called.fields {s₁ s₂ : State X P} (h : Called s s₁)
    (hsame : s₂.tasks = s₁.tasks ∧ s₂.taskCount = s₁.taskCount ∧ s₂.now = s₁.now) : Called s s₂ := by
  obtain ⟨htasks, hcount, hnow⟩ := hsame
  refine ⟨?_, ?_, hcount ▸ h.count, hnow.trans h.now⟩
  · rw [htasks]
    exact h.others
  · rw [htasks]
    exact h.plain

theorem called_same (h : s'.tasks = s.tasks ∧ s'.taskCount = s.taskCount ∧ s'.now = s.now) : Called s s' := by
  refine ⟨fun t' _ => ?_, .inl ?_, h.2.1.ge, h.2.2⟩
  · rw [h.1]
  · rw [h.1]

theorem scheduleWindowRefresh_tasks (replayId : String) : (s.scheduleWindowRefresh replayId).tasks = s.tasks ∧
    (s.scheduleWindowRefresh replayId).taskCount = s.taskCount ∧ (s.scheduleWindowRefresh replayId).now = s.now := by
  unfold State.scheduleWindowRefresh
  repeat' split
  all_goals exact ⟨rfl, rfl, rfl⟩

theorem applyPayload_tasks {A : Type} (e : EventEnvelopeV1 P) (eventName : String) (replayIdOf : A → String)
    (apply : A → ReplayAction X P) (payload : Except String A) :
    (applyPayload s e eventName replayIdOf apply payload).tasks = s.tasks ∧
      (applyPayload s e eventName replayIdOf apply payload).taskCount = s.taskCount ∧
      (applyPayload s e eventName replayIdOf apply payload).now = s.now := by
  unfold applyPayload
  repeat' split
  all_goals exact ⟨rfl, rfl, rfl⟩

theorem handleEvent_called (e : EventEnvelopeV1 P) : Called s (handleEvent schemas s e) := by
  unfold handleEvent
  split
  · exact called_same (by exact ⟨rfl, rfl, rfl⟩)
  dsimp only
  split
  · exact called_spawn (by exact ⟨rfl, rfl, rfl⟩) (by exact trivial)
  · exact called_spawn (by exact ⟨rfl, rfl, rfl⟩) (by exact trivial)
  · exact called_spawn (by exact ⟨rfl, rfl, rfl⟩) (by exact trivial)
  · exact called_spawn (by exact ⟨rfl, rfl, rfl⟩) (by exact trivial)
  · exact called_same (scheduleWindowRefresh_tasks (s := s.dispatch (.event e)) _)
  · exact called_spawn (by exact ⟨rfl, rfl, rfl⟩) (by exact trivial)
  · exact called_spawn (by exact ⟨rfl, rfl, rfl⟩) (by exact trivial)
  · exact called_same (applyPayload_tasks (s := s.dispatch (.event e)) ..)
  · exact called_same (applyPayload_tasks (s := s.dispatch (.event e)) ..)
  · exact called_same (applyPayload_tasks (s := s.dispatch (.event e)) ..)
  · exact called_same (applyPayload_tasks (s := s.dispatch (.event e)) ..)
  · unfold finalRefresh
    dsimp only
    split <;> exact called_spawn (by exact ⟨rfl, rfl, rfl⟩) (by exact trivial)
  · exact called_same (by exact ⟨rfl, rfl, rfl⟩)

theorem invoke_called {operation : Operation P} (hstays : StaysWith operation) : Called s (invoke schemas s operation) := by
  cases operation with
  | createReplay => cases hstays
  | restart replayId => cases hstays
  | recoverActiveReplay reportFailure => cases hstays
  | control action replayId =>
    simp only [invoke]
    split <;> exact called_spawn (by exact ⟨rfl, rfl, rfl⟩) (by exact trivial)
  | setSpeed replayId => exact called_spawn (by exact ⟨rfl, rfl, rfl⟩) (by exact trivial)
  | refreshStatus replayId reportFailure => exact called_spawn (by exact ⟨rfl, rfl, rfl⟩) (by exact trivial)
  | hydrateReplay replayId => exact called_spawn (by exact ⟨rfl, rfl, rfl⟩) (by exact trivial)
  | handleEvent e => exact handleEvent_called e
  | handleGap replayId => exact called_spawn (by exact ⟨rfl, rfl, rfl⟩) (by exact trivial)
  | connection state => exact called_same (by exact ⟨rfl, rfl, rfl⟩)
  | cancelPendingRefresh => exact called_same (by exact ⟨rfl, rfl, rfl⟩)
  | timer =>
    simp only [invoke]
    split
    · next replayId _ =>
      have hspawn : Called s (s.spawn (.status replayId true .window)) :=
        called_spawn (by exact ⟨rfl, rfl, rfl⟩) (by exact trivial)
      exact hspawn.fields ⟨rfl, rfl, rfl⟩
    · exact called_same (by exact ⟨rfl, rfl, rfl⟩)

end Tasks

/-! ## A backend that completes its replay -/

/-- What the backend would answer at each moment for one replay. -/
structure Backend (X : Type) where
  replayId : String
  status : Nat → ReplayStatusV1
  devices : Nat → List (DeviceStateV1 X)
  riskGraph : Nat → SnapshotV1 X
  commGraph : Nat → SnapshotV1 X
  srep : Nat → SnapshotV1 X

/-- From the moment on the replay is completed and nothing changes but its number. -/
structure Completes {X : Type} (b : Backend X) (moment : Nat) : Prop where
  own : ∀ m, (b.status m).replayId = b.replayId
  ordered : Monotone fun m => (b.status m).sequenceNumber
  unfailed : ∀ m, (b.status m).state ≠ .failed
  completed : ∀ m, moment ≤ m → (b.status m).state = .completed
  steady : ∀ m, moment ≤ m → b.devices m = b.devices moment ∧ b.riskGraph m = b.riskGraph moment ∧
    b.commGraph m = b.commGraph moment ∧ b.srep m = b.srep moment
  distinct : ((b.devices moment).map DeviceStateV1.entityId).Nodup

section Runs

variable {X P : Type} {schemas : Schemas X P} {b : Backend X} {moment : Nat} {s s' : State X P} {t : Nat}

/-- Responses for the replay are snapshots taken between request and response. -/
def Honest (b : Backend X) (s : State X P) : Move X P → Prop
  | .invoke operation => StaysWith operation
  | .respond task reply =>
    let taken := fun m => (s.tasks task).since ≤ m ∧ m ≤ s.now + 1
    match (s.tasks task).place, reply with
    | .status replayId _ _, .status payload => replayId = b.replayId → ∃ m, taken m ∧ payload = b.status m
    | .science replayId _ _, .science devices riskGraph communicationGraph srep =>
      replayId = b.replayId → (∃ m, taken m ∧ devices = b.devices m) ∧ (∃ m, taken m ∧ riskGraph = b.riskGraph m) ∧
        (∃ m, taken m ∧ communicationGraph = b.commGraph m) ∧ ∃ m, taken m ∧ srep = b.srep m
    | _, _ => True
  | .resume _ => True

def AllHonest (schemas : Schemas X P) (b : Backend X) (s : State X P) : List (Move X P) → Prop
  | [] => True
  | m :: ms => Honest b s m ∧ ∀ s', step schemas s m = some s' → AllHonest schemas b s' ms

/-- The replay is shown with a status of the backend, by tasks that stay with it. -/
structure Facts (b : Backend X) (s : State X P) : Prop where
  shown : s.ui.replayId = some b.replayId
  plain : ∀ t, Plain (s.tasks t).place
  status : ∀ st, s.ui.status = some st → ∃ m, m ≤ s.now ∧ st = b.status m

def ShowsCompleted (u : ReplayState X P) : Prop := ∃ st, u.status = some st ∧ st.state = .completed

/-- The final scientific state is shown. -/
def ShowsFinal (b : Backend X) (moment : Nat) (u : ReplayState X P) : Prop :=
  u.deviceStates = b.devices moment ∧ u.riskGraph = some (b.riskGraph moment) ∧
    u.commGraph = some (b.commGraph moment) ∧ u.srep = some (b.srep moment)

/-! ### The status -/

theorem reduceStatus_screen (u : ReplayState X P) (payload : ReplayStatusV1) :
    ∃ st, screen (reduceStatus u payload) = { screen u with status := st } ∧ (st = u.status ∨ st = some payload) := by
  unfold reduceStatus
  repeat' split
  · exact ⟨_, rfl, .inl rfl⟩
  · exact ⟨_, rfl, .inl rfl⟩
  · exact ⟨_, rfl, .inl rfl⟩
  all_goals exact ⟨_, rfl, .inr rfl⟩

theorem completed_of_terminal {st : ReplayStatusV1} (h : st.state.terminal = true) (hunfailed : st.state ≠ .failed) :
    st.state = .completed := by
  cases hstate : st.state with
  | completed => rfl
  | failed => exact absurd hstate hunfailed
  | created => rw [hstate] at h; cases h
  | running => rw [hstate] at h; cases h
  | paused => rw [hstate] at h; cases h

/-- A completed replay stays so, whichever status arrives. -/
theorem reduceStatus_completed {u : ReplayState X P} (h : ShowsCompleted u) {payload : ReplayStatusV1}
    (hunfailed : payload.state ≠ .failed) : ShowsCompleted (reduceStatus u payload) := by
  unfold reduceStatus
  split
  · exact h
  split
  · exact h
  split
  · exact h
  · next hends =>
    obtain ⟨st, hst, hcompleted⟩ := h
    refine ⟨payload, rfl, completed_of_terminal ?_ hunfailed⟩
    rw [hst] at hends
    simp only [revives, Option.any_some, decide_eq_true_eq, not_and, not_not] at hends
    exact hends (by rw [hcompleted]; rfl)

/-- A status taken after the completion shows it, unless a later one did before. -/
theorem reduceStatus_completes (hc : Completes b moment) {u : ReplayState X P} (hshown : u.replayId = some b.replayId)
    (hstatus : ∀ st, u.status = some st → ∃ m, st = b.status m) {m : Nat} (hm : moment ≤ m) :
    ShowsCompleted (reduceStatus u (b.status m)) := by
  unfold reduceStatus
  rw [if_neg (by rw [hc.own, hshown]; exact fun hne => hne rfl)]
  split
  · next hold =>
    cases hcurrent : u.status with
    | none =>
      rw [hcurrent] at hold
      cases hold
    | some st =>
      obtain ⟨m', rfl⟩ := hstatus st hcurrent
      rw [hcurrent] at hold
      simp only [outdated, Option.any_some, decide_eq_true_eq] at hold
      have hlater : m < m' := by
        by_contra hle
        exact absurd (hc.ordered (not_lt.mp hle)) (not_le.mpr hold.2)
      exact ⟨_, hcurrent, hc.completed m' (hm.trans hlater.le)⟩
  · rw [if_neg]
    · exact ⟨_, rfl, hc.completed m hm⟩
    · cases u.status with
      | none => exact Bool.false_ne_true
      | some st =>
        simp only [revives, Option.any_some, decide_eq_true_eq, not_and, not_not]
        intro _
        rw [hc.completed m hm]
        rfl

/-! ### What a move does -/

/-- What a response to a task changes. -/
theorem respond_cases {reply : Reply X} (hplain : Plain (s.tasks t).place) (hrespond : respond s t reply = some s') :
    screen s'.ui = screen s.ui ∨
    (∃ replayId reportFailure next payload, (s.tasks t).place = .status replayId reportFailure next ∧
      reply = .status payload ∧ s.ui.replayId = some replayId ∧ screen s'.ui = screen (reduceStatus s.ui payload)) ∨
    ∃ replayId status next devices riskGraph communicationGraph srep, (s.tasks t).place = .science replayId status next ∧
      reply = .science devices riskGraph communicationGraph srep ∧ s.ui.replayId = some replayId ∧
      screen s'.ui = ⟨s.ui.replayId, s.ui.status, devices, some riskGraph, some communicationGraph, some srep⟩ := by
  unfold respond at hrespond
  split at hrespond
  · next hplace =>
    rw [hplace] at hplain
    cases hplain
  · next hplace =>
    rw [hplace] at hplain
    cases hplain
  · cases hrespond
    exact .inl rfl
  · cases hrespond
    exact .inl rfl
  · next hplace =>
    rw [hplace] at hplain
    cases hplain
  · next hplace =>
    rw [hplace] at hplain
    cases hplain
  · cases hrespond
    exact .inl rfl
  · cases hrespond
    exact .inl rfl
  · next replayId reportFailure next payload hplace =>
    cases hrespond
    by_cases hid : s.ui.replayId = some replayId
    · exact .inr (.inl ⟨replayId, reportFailure, next, payload, hplace, rfl, hid, settleStatus_ok_screen hid ..⟩)
    · exact .inl (settleStatus_other_screen (.inl hid))
  · cases hrespond
    exact .inl (settleStatus_other_screen (.inr ⟨_, rfl⟩))
  · next replayId status next devices riskGraph communicationGraph srep hplace =>
    cases hrespond
    by_cases hid : s.ui.replayId = some replayId
    · exact .inr (.inr ⟨replayId, status, next, devices, riskGraph, communicationGraph, srep, hplace, rfl, hid,
        settleScience_ok_screen hid ..⟩)
    · exact .inl (settleScience_other_screen (.inl hid))
  · cases hrespond
    exact .inl (settleScience_other_screen (.inr ⟨_, rfl⟩))
  · next hplace =>
    rw [hplace] at hplain
    cases hplain
  · next hplace =>
    rw [hplace] at hplain
    cases hplain
  · next hplace =>
    rw [hplace] at hplain
    cases hplain
  · next hplace =>
    rw [hplace] at hplain
    cases hplain
  · cases hrespond

/-- Events do not change the replay or its status. -/
theorem handleEvent_status (e : EventEnvelopeV1 P) : (handleEvent schemas s e).ui.replayId = s.ui.replayId ∧
    (handleEvent schemas s e).ui.status = s.ui.status := by
  have hkept : ∀ s₁ : State X P, screen s₁.ui = screen s.ui → s₁.ui.replayId = s.ui.replayId ∧ s₁.ui.status = s.ui.status :=
    fun s₁ hsame => ⟨congrArg Screen.replayId hsame, congrArg Screen.status hsame⟩
  by_cases hsnapshot : s.ui.replayId ≠ some e.replayId ∨ ¬ isSnapshotEvent e
  · exact hkept _ (handleEvent_screen hsnapshot)
  · obtain ⟨hid, hsnap⟩ := not_or.mp hsnapshot
    have hevent := hkept (s.dispatch (.event e)) (screen_dispatch (a := .event e) trivial)
    have hpayload : ∀ {A : Type} eventName (replayIdOf : A → String) (apply : A → ReplayAction X P) payload,
        (∀ p, (replayReducer (s.dispatch (.event e)).ui (apply p)).replayId = (s.dispatch (.event e)).ui.replayId ∧
          (replayReducer (s.dispatch (.event e)).ui (apply p)).status = (s.dispatch (.event e)).ui.status) →
        (applyPayload (s.dispatch (.event e)) e eventName replayIdOf apply payload).ui.replayId = s.ui.replayId ∧
          (applyPayload (s.dispatch (.event e)) e eventName replayIdOf apply payload).ui.status = s.ui.status := by
      intro A eventName replayIdOf apply payload happly
      unfold applyPayload
      split
      · exact hevent
      · split
        · exact hevent
        · exact ⟨(happly _).1.trans hevent.1, (happly _).2.trans hevent.2⟩
    unfold handleEvent
    rw [if_neg hid]
    rcases not_not.mp hsnap with htype | htype | htype | htype <;> simp only [htype]
    · exact hpayload _ _ _ _ fun p => ⟨rfl, rfl⟩
    · exact hpayload _ _ _ _ fun p => ⟨rfl, rfl⟩
    · exact hpayload _ _ _ _ fun p => ⟨rfl, rfl⟩
    · exact hpayload _ _ _ _ fun p => ⟨rfl, rfl⟩

theorem invoke_status {operation : Operation P} (hstays : StaysWith operation) :
    (invoke schemas s operation).ui.replayId = s.ui.replayId ∧ (invoke schemas s operation).ui.status = s.ui.status := by
  by_cases hevent : ∃ e, operation = .handleEvent e
  · obtain ⟨e, rfl⟩ := hevent
    exact handleEvent_status e
  · have hsame : screen (invoke schemas s operation).ui = screen s.ui :=
      invoke_screen hstays fun e he => absurd ⟨e, he⟩ hevent
    exact ⟨congrArg Screen.replayId hsame, congrArg Screen.status hsame⟩

theorem Moved.plain_all (h : Moved s t s') (hplain : ∀ t, Plain (s.tasks t).place) (t' : Nat) : Plain (s'.tasks t').place := by
  by_cases ht : t' = t
  · rw [ht]
    exact h.plain
  · rw [h.others t' ht]
    exact hplain t'

theorem Called.plain_all (h : Called s s') (hplain : ∀ t, Plain (s.tasks t).place) (t : Nat) : Plain (s'.tasks t).place := by
  by_cases ht : t = s.taskCount
  · subst ht
    rcases h.plain with hold | hnew
    · rw [hold]
      exact hplain _
    · exact hnew
  · rw [h.others t ht]
    exact hplain t

/-- Every honest move keeps the facts. -/
theorem step_facts (hc : Completes b moment) (h : Facts b s) {m : Move X P} (hhonest : Honest b s m)
    (hstep : step schemas s m = some s') : Facts b s' ∧ s'.now = s.now + 1 ∧ (ShowsCompleted s.ui → ShowsCompleted s'.ui) := by
  have hlater : ∀ st, s.ui.status = some st → ∃ m, m ≤ s.now + 1 ∧ st = b.status m := by
    intro st hst
    obtain ⟨m, hm, heq⟩ := h.status st hst
    exact ⟨m, Nat.le_succ_of_le hm, heq⟩
  have hsame : ∀ u : ReplayState X P, u.replayId = s.ui.replayId → u.status = s.ui.status →
      (u.replayId = some b.replayId ∧ (∀ st, u.status = some st → ∃ m, m ≤ s.now + 1 ∧ st = b.status m)) ∧
        (ShowsCompleted s.ui → ShowsCompleted u) := by
    intro u hid hstatus
    refine ⟨⟨hid.trans h.shown, ?_⟩, ?_⟩
    · rw [hstatus]
      exact hlater
    · rintro ⟨st, hst, hcompleted⟩
      exact ⟨st, hstatus.trans hst, hcompleted⟩
  cases m with
  | invoke operation =>
    cases hstep
    have hcalled : Called s.tick (invoke schemas s.tick operation) := invoke_called hhonest
    have hkept : (invoke schemas s.tick operation).ui.replayId = s.ui.replayId ∧
        (invoke schemas s.tick operation).ui.status = s.ui.status := invoke_status hhonest
    obtain ⟨hid, hstatus⟩ := hkept
    obtain ⟨⟨hshown, hstatuses⟩, hcompleted⟩ := hsame _ hid hstatus
    refine ⟨⟨hshown, hcalled.plain_all h.plain, ?_⟩, hcalled.now, hcompleted⟩
    rw [hcalled.now]
    exact hstatuses
  | resume t =>
    have hresume : resume s.tick t = some s' := hstep
    have hscreen : screen s'.ui = screen s.tick.ui := resume_screen hresume
    have hmoved : Moved s.tick t s' := resume_moved (h.plain t) hresume
    obtain ⟨⟨hshown, hstatuses⟩, hcompleted⟩ := hsame s'.ui (congrArg Screen.replayId hscreen) (congrArg Screen.status hscreen)
    refine ⟨⟨hshown, hmoved.plain_all h.plain, ?_⟩, hmoved.now, hcompleted⟩
    rw [hmoved.now]
    exact hstatuses
  | respond t reply =>
    have hmoved : Moved s.tick t s' := respond_moved (h.plain t) hstep
    have hassemble : ((s'.ui.replayId = some b.replayId ∧
        (∀ st, s'.ui.status = some st → ∃ m, m ≤ s.now + 1 ∧ st = b.status m)) ∧
          (ShowsCompleted s.ui → ShowsCompleted s'.ui)) → Facts b s' ∧ s'.now = s.now + 1 ∧
            (ShowsCompleted s.ui → ShowsCompleted s'.ui) := by
      rintro ⟨⟨hshown, hstatuses⟩, hcompleted⟩
      refine ⟨⟨hshown, hmoved.plain_all h.plain, ?_⟩, hmoved.now, hcompleted⟩
      rw [hmoved.now]
      exact hstatuses
    refine hassemble ?_
    rcases respond_cases (show Plain (s.tick.tasks t).place from h.plain t) hstep with hscreen | ⟨replayId, reportFailure, next, payload, hplace, rfl, hid, hscreen⟩ |
      ⟨replayId, status, next, devices, riskGraph, communicationGraph, srep, -, -, -, hscreen⟩
    · exact hsame _ (congrArg Screen.replayId hscreen) (congrArg Screen.status hscreen)
    · have hown : replayId = b.replayId := Option.some.inj (hid.symm.trans h.shown)
      have hplace' : (s.tasks t).place = .status replayId reportFailure next := hplace
      unfold Honest at hhonest
      simp only [hplace'] at hhonest
      obtain ⟨m, ⟨-, hm⟩, rfl⟩ := hhonest hown
      obtain ⟨st, hreduced, hst⟩ := reduceStatus_screen s.ui (b.status m)
      have hscreen' : screen s'.ui = { screen s.ui with status := st } := hscreen.trans hreduced
      have hstatus : s'.ui.status = st := congrArg Screen.status hscreen'
      refine ⟨⟨(congrArg Screen.replayId hscreen').trans h.shown, ?_⟩, ?_⟩
      · rw [hstatus]
        rcases hst with rfl | rfl
        · exact hlater
        · rintro st ⟨⟩
          exact ⟨m, hm, rfl⟩
      · intro hcompleted
        obtain ⟨st', hst', hdone⟩ := reduceStatus_completed hcompleted (hc.unfailed m)
        exact ⟨st', (congrArg Screen.status hscreen).trans hst', hdone⟩
    · exact hsame _ (congrArg Screen.replayId hscreen) (congrArg Screen.status hscreen)

/-! ### The refresh at the end -/

/-- The task's refresh has been applied, or could not be. -/
def applied : TaskAt → Bool
  | .scienceSettled _ _ _ | .ended _ => true
  | _ => false

/-- How far the task of the completion event has come. -/
def Phase (b : Backend X) (moment : Nat) (s : State X P) (t : Nat) : Prop :=
  match (s.tasks t).place with
  | .joiningWindow replayId _ => replayId = b.replayId
  | .status replayId _ next => replayId = b.replayId ∧ next = .final ∧ moment ≤ (s.tasks t).since
  | .statusSettled replayId _ next => replayId = b.replayId ∧ next = .final ∧ ShowsCompleted s.ui
  | .science replayId _ next => replayId = b.replayId ∧ next = .done ∧ moment ≤ (s.tasks t).since ∧ ShowsCompleted s.ui
  | .scienceSettled _ _ next => next = .done ∧ ShowsCompleted s.ui
  | .ended _ => ShowsCompleted s.ui
  | _ => False

theorem Phase.mono (h : Phase b moment s t) (htask : s'.tasks t = s.tasks t)
    (hcompleted : ShowsCompleted s.ui → ShowsCompleted s'.ui) : Phase b moment s' t := by
  unfold Phase at h ⊢
  rw [htask]
  split at h
  · exact h
  · exact h
  · exact ⟨h.1, h.2.1, hcompleted h.2.2⟩
  · exact ⟨h.1, h.2.1, h.2.2.1, hcompleted h.2.2.2⟩
  · exact ⟨h.1, hcompleted h.2⟩
  · exact hcompleted h
  · exact h

theorem Phase.completed (h : Phase b moment s t) (happlied : applied (s.tasks t).place = true) : ShowsCompleted s.ui := by
  unfold Phase at h
  unfold applied at happlied
  cases hplace : (s.tasks t).place with
  | scienceSettled replayId status next =>
    rw [hplace] at h
    exact h.2
  | ended recovered =>
    rw [hplace] at h
    exact h
  | _ => rw [hplace] at happlied; cases happlied

/-- A response that is no error. -/
def Succeeds : Move X P → Prop
  | .respond _ (.failed _) => False
  | _ => True

theorem tasks_setTask (s : State X P) (t : Nat) (place : TaskAt) : (s.setTask t place).tasks t = ⟨place, s.now⟩ :=
  Function.update_self ..

theorem settleStatus_ok_place (hid : s.ui.replayId = some replayId) (reportFailure : Bool) (next : AfterStatus)
    (payload : ReplayStatusV1) :
    ((settleStatus s t replayId reportFailure next (.ok payload)).tasks t).place =
      .statusSettled replayId (some payload) next := by
  unfold settleStatus
  rw [if_neg (not_not.mpr hid)]
  dsimp only
  rw [tasks_setTask]

theorem settleScience_ok_place (hid : s.ui.replayId = some replayId) (status : Option ReplayStatusV1) (next : AfterScience)
    (devices : List (DeviceStateV1 X)) (riskGraph communicationGraph srep : SnapshotV1 X) :
    ((settleScience s t replayId status next (.ok (devices, riskGraph, communicationGraph, srep))).tasks t).place =
      .scienceSettled replayId status next := by
  unfold settleScience
  rw [if_neg (not_not.mpr hid)]
  dsimp only
  rw [tasks_setTask]

/-- A turn of the refresh: it asks for the status, for the scientific state, or is over. -/
theorem resume_phase (hphase : Phase b moment s t) (hnow : moment ≤ s.now) (hresume : resume s.tick t = some s') :
    Phase b moment s' t ∧ applied (s'.tasks t).place = applied (s.tasks t).place := by
  have hcompleted : ∀ place, ShowsCompleted s.ui → ShowsCompleted (s.tick.setTask t place).ui := fun _ h => h
  have hsince : moment ≤ s.tick.now := Nat.le_succ_of_le hnow
  unfold Phase at hphase
  unfold resume at hresume
  rw [show s.tick.tasks = s.tasks from rfl] at hresume
  cases hplace : (s.tasks t).place with
  | joiningWindow replayId task =>
    rw [hplace] at hphase hresume
    dsimp only at hresume
    split at hresume
    · cases hresume
      unfold Phase
      rw [tasks_setTask]
      exact ⟨⟨hphase, rfl, hsince⟩, rfl⟩
    · cases hresume
  | statusSettled replayId status next =>
    rw [hplace] at hphase hresume
    obtain ⟨hid, rfl, hshows⟩ := hphase
    cases hresume
    unfold Phase
    rw [show (afterStatus s.tick t replayId status .final).tasks t = ⟨.science replayId status .done, s.tick.now⟩ from
      tasks_setTask ..]
    exact ⟨⟨hid, rfl, hsince, hshows⟩, rfl⟩
  | scienceSettled replayId status next =>
    rw [hplace] at hphase hresume
    obtain ⟨rfl, hshows⟩ := hphase
    cases hresume
    unfold Phase
    rw [show (afterScience s.tick t replayId status .done).tasks t = ⟨.ended false, s.tick.now⟩ from tasks_setTask ..]
    exact ⟨hshows, rfl⟩
  | status replayId reportFailure next =>
    rw [hplace] at hresume
    cases hresume
  | science replayId status next =>
    rw [hplace] at hresume
    cases hresume
  | ended recovered =>
    rw [hplace] at hresume
    cases hresume
  | _ => rw [hplace] at hphase; cases hphase

/-- A response to the refresh is a snapshot of the completed replay. -/
theorem respond_phase (hc : Completes b moment) (h : Facts b s) (hphase : Phase b moment s t) {reply : Reply X}
    (hhonest : Honest b s (.respond t reply)) (hsucceeds : Succeeds (X := X) (P := P) (.respond t reply))
    (hrespond : respond s.tick t reply = some s') :
    Phase b moment s' t ∧ applied (s.tasks t).place = false ∧
      (applied (s'.tasks t).place = true → ShowsFinal b moment s'.ui) := by
  unfold Phase at hphase
  unfold respond at hrespond
  rw [show s.tick.tasks = s.tasks from rfl] at hrespond
  unfold Honest at hhonest
  dsimp only at hhonest
  cases hplace : (s.tasks t).place with
  | status replayId reportFailure next =>
    rw [hplace] at hphase hrespond hhonest
    obtain ⟨rfl, rfl, hsince⟩ := hphase
    have hid : s.tick.ui.replayId = some b.replayId := h.shown
    cases reply with
    | status payload =>
      cases hrespond
      obtain ⟨m, ⟨hm, -⟩, rfl⟩ := hhonest rfl
      refine ⟨?_, rfl, ?_⟩
      · unfold Phase
        rw [settleStatus_ok_place hid]
        refine ⟨rfl, rfl, ?_⟩
        obtain ⟨st, hst, hdone⟩ := reduceStatus_completes hc h.shown
          (fun st hst => (h.status st hst).imp fun _ hm => hm.2) (hsince.trans hm)
        exact ⟨st, (congrArg Screen.status (settleStatus_ok_screen hid ..)).trans hst, hdone⟩
      · rw [settleStatus_ok_place hid]
        exact fun hno => Bool.noConfusion hno
    | failed error => cases hsucceeds
    | _ => cases hrespond
  | science replayId status next =>
    rw [hplace] at hphase hrespond hhonest
    obtain ⟨rfl, rfl, hsince, hshows⟩ := hphase
    have hid : s.tick.ui.replayId = some b.replayId := h.shown
    cases reply with
    | science devices riskGraph communicationGraph srep =>
      cases hrespond
      obtain ⟨⟨m₁, ⟨h₁, -⟩, rfl⟩, ⟨m₂, ⟨h₂, -⟩, rfl⟩, ⟨m₃, ⟨h₃, -⟩, rfl⟩, m₄, ⟨h₄, -⟩, rfl⟩ := hhonest rfl
      have hscreen := settleScience_ok_screen (t := t) hid status .done (b.devices m₁) (b.riskGraph m₂) (b.commGraph m₃)
        (b.srep m₄)
      refine ⟨?_, rfl, fun _ => ⟨?_, ?_, ?_, ?_⟩⟩
      · unfold Phase
        rw [settleScience_ok_place hid]
        obtain ⟨st, hst, hdone⟩ := hshows
        exact ⟨rfl, st, (congrArg Screen.status hscreen).trans hst, hdone⟩
      · exact (congrArg Screen.deviceStates hscreen).trans (hc.steady m₁ (hsince.trans h₁)).1
      · exact (congrArg Screen.riskGraph hscreen).trans (congrArg some (hc.steady m₂ (hsince.trans h₂)).2.1)
      · exact (congrArg Screen.commGraph hscreen).trans (congrArg some (hc.steady m₃ (hsince.trans h₃)).2.2.1)
      · exact (congrArg Screen.srep hscreen).trans (congrArg some (hc.steady m₄ (hsince.trans h₄)).2.2.2)
    | failed error => cases hsucceeds
    | _ => cases hrespond
  | joiningWindow replayId task =>
    rw [hplace] at hrespond
    cases hrespond
  | statusSettled replayId status next =>
    rw [hplace] at hrespond
    cases hrespond
  | scienceSettled replayId status next =>
    rw [hplace] at hrespond
    cases hrespond
  | ended recovered =>
    rw [hplace] at hrespond
    cases hrespond
  | _ => rw [hplace] at hphase; cases hphase

/-- The refresh goes through its places; once it is applied the final state is shown. -/
theorem step_phase (hc : Completes b moment) (h : Facts b s) (hphase : Phase b moment s t) (ht : t < s.taskCount)
    (hnow : moment ≤ s.now) {m : Move X P} (hhonest : Honest b s m) (hsucceeds : Succeeds m)
    (hstep : step schemas s m = some s') :
    Phase b moment s' t ∧ t < s'.taskCount ∧ (applied (s.tasks t).place = true → applied (s'.tasks t).place = true) ∧
      (applied (s.tasks t).place = false → applied (s'.tasks t).place = true → ShowsFinal b moment s'.ui) := by
  obtain ⟨hfacts', -, hcompleted⟩ := step_facts hc h hhonest hstep
  have hsame : s'.tasks t = s.tasks t → s.taskCount ≤ s'.taskCount →
      Phase b moment s' t ∧ t < s'.taskCount ∧ (applied (s.tasks t).place = true → applied (s'.tasks t).place = true) ∧
        (applied (s.tasks t).place = false → applied (s'.tasks t).place = true → ShowsFinal b moment s'.ui) := by
    intro htask hcount
    refine ⟨hphase.mono htask hcompleted, Nat.lt_of_lt_of_le ht hcount, ?_, ?_⟩
    · rw [htask]
      exact id
    · rw [htask]
      intro hnot hyes
      rw [hnot] at hyes
      cases hyes
  cases m with
  | invoke operation =>
    cases hstep
    have hcalled : Called s.tick (invoke schemas s.tick operation) := invoke_called hhonest
    exact hsame (hcalled.others t (Nat.ne_of_lt ht)) hcalled.count
  | resume task =>
    have hresume : resume s.tick task = some s' := hstep
    have hmoved : Moved s.tick task s' := resume_moved (h.plain task) hresume
    by_cases htask : t = task
    · subst htask
      obtain ⟨hphase', happlied⟩ := resume_phase hphase hnow hresume
      refine ⟨hphase', hmoved.count ▸ ht, fun hyes => happlied.trans hyes, fun hnot hyes => ?_⟩
      rw [happlied, hnot] at hyes
      cases hyes
    · exact hsame (hmoved.others t htask) hmoved.count.ge
  | respond task reply =>
    have hrespond : respond s.tick task reply = some s' := hstep
    have hmoved : Moved s.tick task s' := respond_moved (h.plain task) hrespond
    by_cases htask : t = task
    · subst htask
      obtain ⟨hphase', hnot, hfinal⟩ := respond_phase hc h hphase hhonest hsucceeds hrespond
      refine ⟨hphase', hmoved.count ▸ ht, fun hyes => ?_, fun _ => hfinal⟩
      rw [hnot] at hyes
      cases hyes
    · exact hsame (hmoved.others t htask) hmoved.count.ge

/-! ### What keeps the final state -/

/-- A scientific response for the replay holds its final state. -/
def FreshReply (b : Backend X) (moment : Nat) (place : TaskAt) (reply : Reply X) : Prop :=
  match place, reply with
  | .science replayId _ _, .science devices riskGraph communicationGraph srep =>
    replayId = b.replayId → devices = b.devices moment ∧ riskGraph = b.riskGraph moment ∧
      communicationGraph = b.commGraph moment ∧ srep = b.srep moment
  | _, _ => True

/-- A snapshot event of the replay is one of its final snapshots. -/
def FreshEvent (schemas : Schemas X P) (b : Backend X) (moment : Nat) (e : EventEnvelopeV1 P) : Prop :=
  e.replayId = b.replayId →
    (e.eventType = .deviceState → ∀ p, schemas.deviceState e.payload = .ok p → p.replayId = b.replayId →
      p ∈ b.devices moment) ∧
    (e.eventType = .deviceRiskGraphSnapshot → ∀ p, schemas.deviceRiskGraph e.payload = .ok p → p.replayId = b.replayId →
      p = b.riskGraph moment) ∧
    (e.eventType = .communicationGraphSnapshot → ∀ p, schemas.communicationGraph e.payload = .ok p →
      p.replayId = b.replayId → p = b.commGraph moment) ∧
    (e.eventType = .srepSnapshot → ∀ p, schemas.srepSnapshot e.payload = .ok p → p.replayId = b.replayId →
      p = b.srep moment)

def FreshStep (schemas : Schemas X P) (b : Backend X) (moment : Nat) (s : State X P) : Move X P → Prop
  | .respond task reply => FreshReply b moment (s.tasks task).place reply
  | .invoke (.handleEvent e) => FreshEvent schemas b moment e
  | _ => True

theorem mem_upsert_self (l : List (DeviceStateV1 X)) (p : DeviceStateV1 X) : p ∈ upsert l p := by
  unfold upsert
  split
  · next hany =>
    obtain ⟨d, hd, hid⟩ := List.any_eq_true.mp hany
    exact List.mem_map.mpr ⟨d, hd, if_pos (of_decide_eq_true hid)⟩
  · exact List.mem_append_right _ (List.mem_singleton.mpr rfl)

/-- Where each device has one state, an update changes nothing just when it is already there. -/
theorem upsert_eq_iff {l : List (DeviceStateV1 X)} (hdistinct : (l.map DeviceStateV1.entityId).Nodup) (p : DeviceStateV1 X) :
    upsert l p = l ↔ p ∈ l := by
  constructor
  · intro hsame
    have hmem := mem_upsert_self l p
    rwa [hsame] at hmem
  · intro hp
    unfold upsert
    rw [if_pos (List.any_eq_true.mpr ⟨p, hp, decide_eq_true rfl⟩)]
    refine (List.map_congr_left fun d hd => ?_).trans (List.map_id l)
    split
    · next hid => exact List.inj_on_of_nodup_map hdistinct hp hd hid.symm
    · rfl

theorem showsFinal_of_screen {u u' : ReplayState X P} (hdevices : u'.deviceStates = u.deviceStates)
    (hrisk : u'.riskGraph = u.riskGraph) (hcomm : u'.commGraph = u.commGraph) (hsrep : u'.srep = u.srep) :
    ShowsFinal b moment u' ↔ ShowsFinal b moment u := by
  unfold ShowsFinal
  rw [hdevices, hrisk, hcomm, hsrep]

theorem showsFinal_same {u u' : ReplayState X P} (h : screen u' = screen u) :
    ShowsFinal b moment u' ↔ ShowsFinal b moment u :=
  showsFinal_of_screen (congrArg Screen.deviceStates h) (congrArg Screen.riskGraph h) (congrArg Screen.commGraph h)
    (congrArg Screen.srep h)

/-- An accepted payload of the replay is applied; others change nothing. -/
theorem applyPayload_final {A : Type} {e : EventEnvelopeV1 P} (hid : e.replayId = b.replayId) (hfinal : ShowsFinal b moment s.ui)
    (eventName : String) (replayIdOf : A → String) (apply : A → ReplayAction X P) (payload : Except String A) (Q : A → Prop)
    (happly : ∀ p, ShowsFinal b moment (replayReducer s.ui (apply p)) ↔ Q p) :
    ShowsFinal b moment (applyPayload s e eventName replayIdOf apply payload).ui ↔
      ∀ p, payload = .ok p → replayIdOf p = b.replayId → Q p := by
  unfold applyPayload
  split
  · refine iff_of_true ((showsFinal_same (screen_reportError _ _)).mpr hfinal) ?_
    rintro p ⟨⟩
  · next p =>
    split
    · next hother =>
      refine iff_of_true ((showsFinal_same (screen_reportError _ _)).mpr hfinal) ?_
      rintro q ⟨⟩ hq
      exact absurd (hq.trans hid.symm) hother
    · next hsame =>
      refine (happly p).trans ⟨?_, fun hall => hall p rfl ((not_not.mp hsame).trans hid)⟩
      rintro hq q ⟨⟩ -
      exact hq

theorem handleEvent_final (hc : Completes b moment) (hshown : s.ui.replayId = some b.replayId)
    (hfinal : ShowsFinal b moment s.ui) (e : EventEnvelopeV1 P) :
    ShowsFinal b moment (handleEvent schemas s e).ui ↔ FreshEvent schemas b moment e := by
  by_cases hown : e.replayId = b.replayId
  swap
  · have hne : s.ui.replayId ≠ some e.replayId := by
      rw [hshown]
      exact fun hsame => hown (Option.some.inj hsame).symm
    exact iff_of_true ((showsFinal_same (handleEvent_screen (.inl hne))).mpr hfinal) fun hsame => absurd hsame hown
  by_cases hsnapshot : isSnapshotEvent e
  swap
  · refine iff_of_true ((showsFinal_same (handleEvent_screen (.inr hsnapshot))).mpr hfinal) fun _ => ⟨?_, ?_, ?_, ?_⟩
    · exact fun htype => absurd (.inl htype) hsnapshot
    · exact fun htype => absurd (.inr (.inl htype)) hsnapshot
    · exact fun htype => absurd (.inr (.inr (.inl htype))) hsnapshot
    · exact fun htype => absurd (.inr (.inr (.inr htype))) hsnapshot
  have hevent : ShowsFinal b moment (s.dispatch (.event e)).ui :=
    (showsFinal_same (screen_dispatch (a := .event e) trivial)).mpr hfinal
  obtain ⟨hdevices, hrisk, hcomm, hsrep⟩ := hevent
  have hid : ¬ s.ui.replayId ≠ some e.replayId := by
    rw [hown]
    exact not_not.mpr hshown
  have hrest : ∀ (Q : Prop), (FreshEvent schemas b moment e ↔ Q) → ∀ u : ReplayState X P, (ShowsFinal b moment u ↔ Q) →
      (ShowsFinal b moment u ↔ FreshEvent schemas b moment e) := fun Q hfresh u hu => hu.trans hfresh.symm
  unfold handleEvent
  rw [if_neg hid]
  rcases hsnapshot with htype | htype | htype | htype <;> simp only [htype]
  · refine hrest _ ⟨fun hfresh => (hfresh hown).1 htype, fun hall _ => ⟨fun _ => hall, ?_, ?_, ?_⟩⟩ _
      (applyPayload_final hown ⟨hdevices, hrisk, hcomm, hsrep⟩ _ _ _ _ (· ∈ b.devices moment) fun p => ?_)
    · exact fun hother => by rw [htype] at hother; cases hother
    · exact fun hother => by rw [htype] at hother; cases hother
    · exact fun hother => by rw [htype] at hother; cases hother
    · rw [← upsert_eq_iff hc.distinct p]
      refine ⟨fun hafter => ?_, fun hsame => ⟨?_, hrisk, hcomm, hsrep⟩⟩
      · rw [← hdevices]
        exact hafter.1.trans hdevices.symm
      · change upsert (s.dispatch (.event e)).ui.deviceStates p = b.devices moment
        rw [hdevices]
        exact hsame
  · refine hrest _ ⟨fun hfresh => (hfresh hown).2.1 htype, fun hall _ => ⟨?_, fun _ => hall, ?_, ?_⟩⟩ _
      (applyPayload_final hown ⟨hdevices, hrisk, hcomm, hsrep⟩ _ _ _ _ (· = b.riskGraph moment) fun p => ?_)
    · exact fun hother => by rw [htype] at hother; cases hother
    · exact fun hother => by rw [htype] at hother; cases hother
    · exact fun hother => by rw [htype] at hother; cases hother
    · exact ⟨fun hafter => Option.some.inj hafter.2.1, fun hsame => ⟨hdevices, congrArg some hsame, hcomm, hsrep⟩⟩
  · refine hrest _ ⟨fun hfresh => (hfresh hown).2.2.1 htype, fun hall _ => ⟨?_, ?_, fun _ => hall, ?_⟩⟩ _
      (applyPayload_final hown ⟨hdevices, hrisk, hcomm, hsrep⟩ _ _ _ _ (· = b.commGraph moment) fun p => ?_)
    · exact fun hother => by rw [htype] at hother; cases hother
    · exact fun hother => by rw [htype] at hother; cases hother
    · exact fun hother => by rw [htype] at hother; cases hother
    · exact ⟨fun hafter => Option.some.inj hafter.2.2.1, fun hsame => ⟨hdevices, hrisk, congrArg some hsame, hsrep⟩⟩
  · refine hrest _ ⟨fun hfresh => (hfresh hown).2.2.2 htype, fun hall _ => ⟨?_, ?_, ?_, fun _ => hall⟩⟩ _
      (applyPayload_final hown ⟨hdevices, hrisk, hcomm, hsrep⟩ _ _ _ _ (· = b.srep moment) fun p => ?_)
    · exact fun hother => by rw [htype] at hother; cases hother
    · exact fun hother => by rw [htype] at hother; cases hother
    · exact fun hother => by rw [htype] at hother; cases hother
    · exact ⟨fun hafter => Option.some.inj hafter.2.2.2, fun hsame => ⟨hdevices, hrisk, hcomm, congrArg some hsame⟩⟩

theorem showsFinal_applied {u : ReplayState X P} {replayId : Option String} {status : Option ReplayStatusV1}
    {devices : List (DeviceStateV1 X)} {riskGraph communicationGraph srep : SnapshotV1 X}
    (h : screen u = ⟨replayId, status, devices, some riskGraph, some communicationGraph, some srep⟩) :
    ShowsFinal b moment u ↔ devices = b.devices moment ∧ riskGraph = b.riskGraph moment ∧
      communicationGraph = b.commGraph moment ∧ srep = b.srep moment := by
  have hdevices : u.deviceStates = devices := congrArg Screen.deviceStates h
  have hrisk : u.riskGraph = some riskGraph := congrArg Screen.riskGraph h
  have hcomm : u.commGraph = some communicationGraph := congrArg Screen.commGraph h
  have hsrep : u.srep = some srep := congrArg Screen.srep h
  unfold ShowsFinal
  rw [hdevices, hrisk, hcomm, hsrep, Option.some.injEq, Option.some.injEq, Option.some.injEq]

theorem freshReply_of_other {place : TaskAt} {reply : Reply X}
    (h : ¬ ∃ replayId status next devices riskGraph communicationGraph srep, place = .science replayId status next ∧
      reply = .science devices riskGraph communicationGraph srep) : FreshReply b moment place reply := by
  unfold FreshReply
  split
  · exact absurd ⟨_, _, _, _, _, _, _, rfl, rfl⟩ h
  · trivial

theorem respond_final (h : Facts b s) (hfinal : ShowsFinal b moment s.ui) {reply : Reply X}
    (hrespond : respond s t reply = some s') :
    ShowsFinal b moment s'.ui ↔ FreshReply b moment (s.tasks t).place reply := by
  by_cases hscience : ∃ replayId status next devices riskGraph communicationGraph srep,
      (s.tasks t).place = .science replayId status next ∧ reply = .science devices riskGraph communicationGraph srep
  · obtain ⟨replayId, status, next, devices, riskGraph, communicationGraph, srep, hplace, rfl⟩ := hscience
    unfold respond at hrespond
    simp only [hplace] at hrespond
    cases hrespond
    rw [hplace]
    by_cases hown : replayId = b.replayId
    · subst hown
      have hscreen := settleScience_ok_screen (t := t) h.shown status next devices riskGraph communicationGraph srep
      refine (showsFinal_applied hscreen).trans ⟨fun hall _ => hall, fun hall => hall rfl⟩
    · have hne : s.ui.replayId ≠ some replayId := by
        rw [h.shown]
        exact fun hsame => hown (Option.some.inj hsame).symm
      exact iff_of_true ((showsFinal_same (settleScience_other_screen (.inl hne))).mpr hfinal) fun hsame => absurd hsame hown
  · refine iff_of_true ?_ (freshReply_of_other hscience)
    rcases respond_cases (h.plain t) hrespond with hscreen | ⟨_, _, _, payload, -, -, -, hscreen⟩ |
      ⟨_, _, _, _, _, _, _, hplace, hreply, -⟩
    · exact (showsFinal_same hscreen).mpr hfinal
    · obtain ⟨st, hreduced, -⟩ := reduceStatus_screen s.ui payload
      have hscreen' : screen s'.ui = { screen s.ui with status := st } := hscreen.trans hreduced
      exact (showsFinal_of_screen (congrArg Screen.deviceStates hscreen') (congrArg Screen.riskGraph hscreen')
        (congrArg Screen.commGraph hscreen') (congrArg Screen.srep hscreen')).mpr hfinal
    · exact absurd ⟨_, _, _, _, _, _, _, hplace, hreply⟩ hscience

/-- A move keeps the final state on the screen just when what it applies is final. -/
theorem step_final (hc : Completes b moment) (h : Facts b s) (hfinal : ShowsFinal b moment s.ui) {m : Move X P}
    (hhonest : Honest b s m) (hstep : step schemas s m = some s') :
    ShowsFinal b moment s'.ui ↔ FreshStep schemas b moment s m := by
  have hfacts : Facts b s.tick := ⟨h.shown, h.plain, fun st hst => by
    obtain ⟨m, hm, heq⟩ := h.status st hst
    exact ⟨m, Nat.le_succ_of_le hm, heq⟩⟩
  cases m with
  | resume task =>
    have hscreen : screen s'.ui = screen s.tick.ui := resume_screen hstep
    exact iff_of_true ((showsFinal_same hscreen).mpr hfinal) trivial
  | respond task reply => exact respond_final hfacts hfinal hstep
  | invoke operation =>
    cases hstep
    by_cases hevent : ∃ e, operation = .handleEvent e
    · obtain ⟨e, rfl⟩ := hevent
      exact handleEvent_final hc hfacts.shown hfinal e
    · have hscreen : screen (invoke schemas s.tick operation).ui = screen s.tick.ui :=
        invoke_screen hhonest fun e he => absurd ⟨e, he⟩ hevent
      refine iff_of_true ((showsFinal_same hscreen).mpr hfinal) ?_
      cases operation with
      | handleEvent e => exact absurd ⟨e, rfl⟩ hevent
      | _ => trivial

/-! ## Runs -/

/-- The dashboard has converged to the backend's final state. -/
def Converged (b : Backend X) (moment : Nat) (u : ReplayState X P) : Prop := ShowsCompleted u ∧ ShowsFinal b moment u

/-- Everything applied after the task's refresh is final. -/
def FreshFrom (schemas : Schemas X P) (b : Backend X) (moment t : Nat) (s : State X P) : List (Move X P) → Prop
  | [] => True
  | m :: ms => (applied (s.tasks t).place = true → FreshStep schemas b moment s m) ∧
      ∀ s', step schemas s m = some s' → FreshFrom schemas b moment t s' ms

/-- The dashboard has converged in every state after the task's refresh. -/
def ConvergedFrom (schemas : Schemas X P) (b : Backend X) (moment t : Nat) (s : State X P) : List (Move X P) → Prop
  | [] => applied (s.tasks t).place = true → Converged b moment s.ui
  | m :: ms => (applied (s.tasks t).place = true → Converged b moment s.ui) ∧
      ∀ s', step schemas s m = some s' → ConvergedFrom schemas b moment t s' ms

theorem convergedFrom_start {ms : List (Move X P)} (h : ConvergedFrom schemas b moment t s ms)
    (happlied : applied (s.tasks t).place = true) : Converged b moment s.ui := by
  cases ms with
  | nil => exact h happlied
  | cons m ms => exact h.1 happlied

theorem convergedFrom_end {ms : List (Move X P)} (h : ConvergedFrom schemas b moment t s ms)
    (hrun : run schemas s ms = some s') (happlied : applied (s'.tasks t).place = true) : Converged b moment s'.ui := by
  induction ms generalizing s with
  | nil =>
    cases hrun
    exact h happlied
  | cons m ms ih =>
    obtain ⟨u, hu, hrest⟩ := Option.bind_eq_some_iff.mp hrun
    exact ih (h.2 u hu) hrest

/-- A run with the completion's refresh under way or applied. -/
theorem converged_iff_fresh (hc : Completes b moment) {ms : List (Move X P)} (h : Facts b s) (hphase : Phase b moment s t)
    (ht : t < s.taskCount) (hnow : moment ≤ s.now) (hshows : applied (s.tasks t).place = true → Converged b moment s.ui)
    (hrun : run schemas s ms = some s') (hhonest : AllHonest schemas b s ms) (hsucceed : ∀ m ∈ ms, Succeeds m) :
    ConvergedFrom schemas b moment t s ms ↔ FreshFrom schemas b moment t s ms := by
  induction ms generalizing s with
  | nil => exact iff_of_true hshows trivial
  | cons m ms ih =>
    obtain ⟨u, hu, hrest⟩ := Option.bind_eq_some_iff.mp hrun
    obtain ⟨hfacts, hnow', -⟩ := step_facts hc h hhonest.1 hu
    obtain ⟨hphase', ht', hstays, harrives⟩ :=
      step_phase hc h hphase ht hnow hhonest.1 (hsucceed m List.mem_cons_self) hu
    have hlater : moment ≤ u.now := by
      rw [hnow']
      exact Nat.le_succ_of_le hnow
    have hih := fun hshows' => ih hfacts hphase' ht' hlater hshows' hrest (hhonest.2 u hu)
      fun m' hm' => hsucceed m' (List.mem_cons_of_mem m hm')
    have honly : ∀ {Q : State X P → Prop}, Q u → ∀ s', step schemas s m = some s' → Q s' := by
      intro Q hq s' hs'
      rw [hu] at hs'
      cases hs'
      exact hq
    by_cases happlied : applied (s.tasks t).place = true
    · have hkeeps := step_final hc h (hshows happlied).2 hhonest.1 hu
      constructor
      · intro hall
        have hconverged := convergedFrom_start (hall.2 u hu) (hstays happlied)
        exact ⟨fun _ => hkeeps.mp hconverged.2, honly ((hih fun _ => hconverged).mp (hall.2 u hu))⟩
      · intro hfresh
        have hconverged : Converged b moment u.ui :=
          ⟨hphase'.completed (hstays happlied), hkeeps.mpr (hfresh.1 happlied)⟩
        exact ⟨hshows, honly ((hih fun _ => hconverged).mpr (hfresh.2 u hu))⟩
    · have hnot : applied (s.tasks t).place = false := Bool.eq_false_iff.mpr happlied
      have hiff := hih fun hyes => ⟨hphase'.completed hyes, harrives hnot hyes⟩
      constructor
      · exact fun hall => ⟨fun hyes => absurd hyes happlied, honly (hiff.mp (hall.2 u hu))⟩
      · exact fun hfresh => ⟨hshows, honly (hiff.mpr (hfresh.2 u hu))⟩

/-- The dashboard of a replay, with no status or the one it had at first. -/
def opened (replayId : String) (status : Option ReplayStatusV1) : State X P := start.dispatch (.replaySet replayId status)

/-- In a run over the replay its completion has just been handled, by this task. -/
structure HandlesCompletion (schemas : Schemas X P) (b : Backend X) (moment : Nat) (t : Nat) (s : State X P) where
  status : Option ReplayStatusV1
  first : ∀ st, status = some st → st = b.status 0
  before : List (Move X P)
  reached : State X P
  runs : run schemas (opened b.replayId status) before = some reached
  honest : AllHonest schemas b (opened b.replayId status) before
  event : EventEnvelopeV1 P
  completes : event.eventType = .replayCompleted
  own : event.replayId = b.replayId
  since : moment ≤ reached.now + 1
  task : t = reached.taskCount
  handled : step schemas reached (.invoke (.handleEvent event)) = some s

theorem run_facts (hc : Completes b moment) {ms : List (Move X P)} (h : Facts b s) (hhonest : AllHonest schemas b s ms)
    (hrun : run schemas s ms = some s') : Facts b s' := by
  induction ms generalizing s with
  | nil =>
    cases hrun
    exact h
  | cons m ms ih =>
    obtain ⟨u, hu, hrest⟩ := Option.bind_eq_some_iff.mp hrun
    exact ih (step_facts hc h hhonest.1 hu).1 (hhonest.2 u hu) hrest

/-- The completion is handled by a task that waits for the refresh of a window, or asks for
the status. -/
theorem handlesCompletion_phase (hc : Completes b moment) (h : HandlesCompletion schemas b moment t s) :
    Facts b s ∧ Phase b moment s t ∧ t < s.taskCount ∧ moment ≤ s.now ∧ applied (s.tasks t).place = false := by
  obtain ⟨status, hfirst, before, reached, hruns, hbefore, event, hcompletes, hown, hmoment, rfl, hstep⟩ := h
  have hopened : Facts b (opened b.replayId status : State X P) :=
    ⟨rfl, fun _ => trivial, fun st hst => ⟨0, Nat.le_refl 0, hfirst st hst⟩⟩
  have hreached := run_facts hc hopened hbefore hruns
  obtain ⟨hfacts, hnow, -⟩ := step_facts hc hreached (m := .invoke (.handleEvent event)) trivial hstep
  have hsince : moment ≤ reached.tick.now := hmoment
  have hhandled : finalRefresh (reached.tick.dispatch (.event event)) event.replayId = s := by
    have hshown : ¬ reached.tick.ui.replayId ≠ some event.replayId := by
      rw [hown]
      exact not_not.mpr hreached.shown
    simp only [step, invoke, handleEvent, if_neg hshown, hcompletes] at hstep
    exact Option.some.inj hstep
  have hspawned : ∀ place, (reached.tick.dispatch (.event event)).cancelPendingRefresh.spawn place = s →
      s.tasks reached.taskCount = ⟨place, reached.tick.now⟩ ∧ reached.taskCount < s.taskCount := by
    rintro place rfl
    exact ⟨Function.update_self .., Nat.lt_succ_self _⟩
  have hlater : moment ≤ s.now := by
    rw [hnow]
    exact hmoment
  unfold finalRefresh at hhandled
  dsimp only at hhandled
  split at hhandled
  · obtain ⟨hplace, hlt⟩ := hspawned _ hhandled
    refine ⟨hfacts, ?_, hlt, hlater, ?_⟩
    · unfold Phase
      rw [hplace]
      exact hown
    · rw [hplace]
      rfl
  · obtain ⟨hplace, hlt⟩ := hspawned _ hhandled
    refine ⟨hfacts, ?_, hlt, hlater, ?_⟩
    · unfold Phase
      rw [hplace]
      exact ⟨hown, rfl, hsince⟩
    · rw [hplace]
      rfl

/-- After the completion's refresh the dashboard shows the final state as long as nothing
older is applied, and when all tasks have ended it does if nothing older was. -/
theorem dashboard_converges {after : List (Move X P)} (hc : Completes b moment)
    (hhandles : HandlesCompletion schemas b moment t s) (hrun : run schemas s after = some s')
    (hhonest : AllHonest schemas b s after) (hsucceed : ∀ m ∈ after, Succeeds m) :
    (ConvergedFrom schemas b moment t s after ↔ FreshFrom schemas b moment t s after) ∧
      ((∀ t, ∃ recovered, (s'.tasks t).place = .ended recovered) → FreshFrom schemas b moment t s after →
        Converged b moment s'.ui) := by
  obtain ⟨hfacts, hphase, ht, hnow, hnot⟩ := handlesCompletion_phase hc hhandles
  have hiff := converged_iff_fresh hc hfacts hphase ht hnow
    (fun hyes => absurd (hnot.symm.trans hyes) Bool.false_ne_true) hrun hhonest hsucceed
  refine ⟨hiff, fun hended hfresh => ?_⟩
  obtain ⟨recovered, hplace⟩ := hended t
  exact convergedFrom_end (hiff.mpr hfresh) hrun (by rw [hplace]; rfl)

end Runs

/-! ## Two runs -/

/-- A replay of one device that completes at the sixth moment. -/
def devBackend : Backend Nat where
  replayId := "a"
  status := fun m => ⟨"a", if m < 6 then .running else .completed, 1, m, none⟩
  devices := fun m => [⟨"a", "device", if m < 6 then 0 else 1⟩]
  riskGraph := fun m => ⟨"a", if m < 6 then 0 else 1⟩
  commGraph := fun m => ⟨"a", if m < 6 then 0 else 1⟩
  srep := fun m => ⟨"a", if m < 6 then 0 else 1⟩

theorem devBackend_completes : Completes devBackend 6 where
  own := fun _ => rfl
  ordered := fun m m' h => by
    change (m : ℚ) ≤ m'
    exact_mod_cast h
  unfailed := fun m h => by
    change (if m < 6 then ReplayLifecycle.ReplayState.running else .completed) = .failed at h
    split at h <;> cases h
  completed := fun m h => if_neg (not_lt.mpr h)
  steady := fun m h => by
    simp only [devBackend, if_neg (not_lt.mpr h), if_neg (lt_irrefl 6), and_self]
  distinct := by decide

def devSchemas : Schemas Nat Unit where
  deviceState := fun _ => .error "unread"
  deviceRiskGraph := fun _ => .error "unread"
  communicationGraph := fun _ => .error "unread"
  srepSnapshot := fun _ => .error "unread"

def devCompleted : EventEnvelopeV1 Unit := ⟨"a", "a-9", .replayCompleted, ()⟩

/-- A hydration has asked for the scientific state before the replay completes. -/
def devBefore : List (Move Nat Unit) :=
  [.invoke (.hydrateReplay "a"), .respond 0 (.status (devBackend.status 1)), .resume 0, .invoke (.connection "OPEN"),
    .invoke (.connection "OPEN")]

/-- The scientific state as the backend had it at a moment. -/
def devScience (m : Nat) : Reply Nat :=
  .science (devBackend.devices m) (devBackend.riskGraph m) (devBackend.commGraph m) (devBackend.srep m)

/-- The final refresh, and the hydration's response before it or behind it. -/
def devFinal (m : Nat) : List (Move Nat Unit) :=
  [.respond 1 (.status (devBackend.status 6)), .resume 1, .respond 1 (devScience m), .resume 1]

def devHydration : List (Move Nat Unit) := [.respond 0 (devScience 4), .resume 0]

def devReached : State Nat Unit := (run devSchemas (opened "a" none) devBefore).getD start

def devHandled : State Nat Unit := (step devSchemas devReached (.invoke (.handleEvent devCompleted))).getD start

theorem devBefore_honest : AllHonest devSchemas devBackend (opened "a" none) devBefore := by
  refine ⟨trivial, fun _ h => ?_⟩
  cases h
  refine ⟨fun _ => ⟨1, ⟨by decide, by decide⟩, rfl⟩, fun _ h => ?_⟩
  cases h
  refine ⟨trivial, fun _ h => ?_⟩
  cases h
  refine ⟨trivial, fun _ h => ?_⟩
  cases h
  exact ⟨trivial, fun _ _ => trivial⟩

def devHandles : HandlesCompletion devSchemas devBackend 6 1 devHandled where
  status := none
  first := fun _ h => nomatch h
  before := devBefore
  reached := devReached
  runs := rfl
  honest := devBefore_honest
  event := devCompleted
  completes := rfl
  own := rfl
  since := by decide
  task := rfl
  handled := rfl

theorem devTaken {s : State Nat Unit} {t m : Nat} (h : (s.tasks t).since ≤ m ∧ m ≤ s.now + 1) :
    (∃ m', ((s.tasks t).since ≤ m' ∧ m' ≤ s.now + 1) ∧ devBackend.devices m = devBackend.devices m') ∧
      (∃ m', ((s.tasks t).since ≤ m' ∧ m' ≤ s.now + 1) ∧ devBackend.riskGraph m = devBackend.riskGraph m') ∧
      (∃ m', ((s.tasks t).since ≤ m' ∧ m' ≤ s.now + 1) ∧ devBackend.commGraph m = devBackend.commGraph m') ∧
      ∃ m', ((s.tasks t).since ≤ m' ∧ m' ≤ s.now + 1) ∧ devBackend.srep m = devBackend.srep m' :=
  ⟨⟨m, h, rfl⟩, ⟨m, h, rfl⟩, ⟨m, h, rfl⟩, m, h, rfl⟩

theorem devLate_honest : AllHonest devSchemas devBackend devHandled (devFinal 8 ++ devHydration) := by
  refine ⟨fun _ => ⟨6, ⟨by decide, by decide⟩, rfl⟩, fun _ h => ?_⟩
  cases h
  refine ⟨trivial, fun _ h => ?_⟩
  cases h
  refine ⟨fun _ => devTaken ⟨by decide, by decide⟩, fun _ h => ?_⟩
  cases h
  refine ⟨trivial, fun _ h => ?_⟩
  cases h
  refine ⟨fun _ => devTaken ⟨by decide, by decide⟩, fun _ h => ?_⟩
  cases h
  exact ⟨trivial, fun _ _ => trivial⟩

theorem devEarly_honest : AllHonest devSchemas devBackend devHandled (devHydration ++ devFinal 10) := by
  refine ⟨fun _ => devTaken ⟨by decide, by decide⟩, fun _ h => ?_⟩
  cases h
  refine ⟨trivial, fun _ h => ?_⟩
  cases h
  refine ⟨fun _ => ⟨6, ⟨by decide, by decide⟩, rfl⟩, fun _ h => ?_⟩
  cases h
  refine ⟨trivial, fun _ h => ?_⟩
  cases h
  refine ⟨fun _ => devTaken ⟨by decide, by decide⟩, fun _ h => ?_⟩
  cases h
  exact ⟨trivial, fun _ _ => trivial⟩

theorem devEarly_fresh : FreshFrom devSchemas devBackend 6 1 devHandled (devHydration ++ devFinal 10) := by
  refine ⟨fun h => (nomatch h), fun _ h => ?_⟩
  cases h
  refine ⟨fun h => (nomatch h), fun _ h => ?_⟩
  cases h
  refine ⟨fun h => (nomatch h), fun _ h => ?_⟩
  cases h
  refine ⟨fun h => (nomatch h), fun _ h => ?_⟩
  cases h
  refine ⟨fun h => (nomatch h), fun _ h => ?_⟩
  cases h
  exact ⟨fun _ => trivial, fun _ _ => trivial⟩

theorem dashboard_converges_early : ∃ s, run devSchemas devHandled (devHydration ++ devFinal 10) = some s ∧
    Converged devBackend 6 s.ui := by
  refine ⟨_, rfl, (dashboard_converges devBackend_completes devHandles (show run devSchemas devHandled _ = _ from rfl)
    devEarly_honest ?_).2 ?_ devEarly_fresh⟩
  · intro m hm
    simp only [devHydration, devFinal, devScience, List.mem_append, List.mem_cons, List.not_mem_nil, or_false] at hm
    rcases hm with (rfl | rfl) | rfl | rfl | rfl | rfl <;> trivial
  · rintro (_ | _ | t) <;> exact ⟨false, rfl⟩

/-- The hydration's response replaces the final state. -/
theorem dashboard_stale : Completes devBackend 6 ∧ Nonempty (HandlesCompletion devSchemas devBackend 6 1 devHandled) ∧
    ∃ s, run devSchemas devHandled (devFinal 8 ++ devHydration) = some s ∧
    AllHonest devSchemas devBackend devHandled (devFinal 8 ++ devHydration) ∧
    (∀ m ∈ devFinal 8 ++ devHydration, Succeeds m) ∧ (∀ t, ∃ recovered, (s.tasks t).place = .ended recovered) ∧
    s.ui.riskGraph = some ⟨"a", 0⟩ ∧ devBackend.riskGraph 6 = ⟨"a", 1⟩ ∧ ¬ Converged devBackend 6 s.ui := by
  refine ⟨devBackend_completes, ⟨devHandles⟩, _, rfl, devLate_honest, ?_, ?_, rfl, rfl, ?_⟩
  · intro m hm
    simp only [devHydration, devFinal, devScience, List.mem_append, List.mem_cons, List.not_mem_nil, or_false] at hm
    rcases hm with (rfl | rfl | rfl | rfl) | rfl | rfl <;> trivial
  · rintro (_ | _ | t) <;> exact ⟨false, rfl⟩
  · rintro ⟨-, -, hrisk, -⟩
    cases hrisk

end DashboardConvergence
