import AgenticSoc.ReplayLifecycle
import Mathlib.Data.Rat.Defs
import Mathlib.Algebra.Order.Ring.Rat
import Mathlib.Data.List.Infix

/-!
# The dashboard's view of a replay

The reducer of the dashboard. An error keeps what caused it, which the code does not: it
says whose request failed.
-/
namespace DashboardState

open EventPublishing (ReplayEventType)

structure ReplayStatusV1 where
  replayId : String
  state : ReplayLifecycle.ReplayState
  windowsProcessed : ℚ
  sequenceNumber : ℚ
  error : Option String
  deriving DecidableEq

structure DeviceStateV1 (X : Type) where
  replayId : String
  entityId : String
  content : X
  deriving DecidableEq

/-- A risk graph, a communication graph or a propagation report. -/
structure SnapshotV1 (X : Type) where
  replayId : String
  content : X
  deriving DecidableEq

structure EventEnvelopeV1 (P : Type) where
  replayId : String
  eventId : String
  eventType : ReplayEventType
  payload : P
  deriving DecidableEq

/-- Where an error comes from: creating a replay, looking for the active one, a control or
refresh request for a replay, or the payload of one of its events. -/
inductive Cause where
  | create
  | recovery
  | request (replayId : String)
  | payload (replayId : String)
  deriving DecidableEq

structure Notice where
  message : String
  cause : Cause
  deriving DecidableEq

def eventBufferLimit : Nat := 1500

structure ReplayState (X P : Type) where
  replayId : Option String
  connectionState : String
  status : Option ReplayStatusV1
  deviceStates : List (DeviceStateV1 X)
  riskGraph : Option (SnapshotV1 X)
  commGraph : Option (SnapshotV1 X)
  srep : Option (SnapshotV1 X)
  events : List (EventEnvelopeV1 P)
  eventHistoryTruncated : Bool
  gapDetected : Bool
  scientificUnavailable : Bool
  error : Option Notice
  isStarting : Bool

inductive ReplayAction (X P : Type) where
  | replaySet (replayId : String) (status : Option ReplayStatusV1)
  | replayCleared
  | connection (state : String)
  | startRequested
  | startCancelled
  | status (payload : ReplayStatusV1)
  | deviceStates (payload : List (DeviceStateV1 X))
  | upsertDeviceState (payload : DeviceStateV1 X)
  | riskGraph (payload : SnapshotV1 X)
  | commGraph (payload : SnapshotV1 X)
  | srep (payload : SnapshotV1 X)
  | event (envelope : EventEnvelopeV1 P)
  | eventGap
  | scientificUnavailable
  | scientificAvailable
  | error (notice : Notice)
  | clearError

section Reducer

variable {X P : Type}

def createInitialReplayState : ReplayState X P where
  replayId := none
  connectionState := "IDLE"
  status := none
  deviceStates := []
  riskGraph := none
  commGraph := none
  srep := none
  events := []
  eventHistoryTruncated := false
  gapDetected := false
  scientificUnavailable := false
  error := none
  isStarting := false

/-- A status of the same replay with a smaller number is out of date. -/
def outdated (current : Option ReplayStatusV1) (payload : ReplayStatusV1) : Bool :=
  current.any fun st => st.replayId = payload.replayId ∧ payload.sequenceNumber < st.sequenceNumber

/-- An ended replay does not go on. -/
def revives (current : Option ReplayStatusV1) (payload : ReplayStatusV1) : Bool :=
  current.any fun st => st.state.terminal ∧ ¬ payload.state.terminal

def reduceStatus (s : ReplayState X P) (payload : ReplayStatusV1) : ReplayState X P :=
  if some payload.replayId ≠ s.replayId then s
  else if outdated s.status payload then s
  else if revives s.status payload then s
  else { s with
    status := some payload
    isStarting := if payload.state = .created then s.isStarting else false }

def upsert (devices : List (DeviceStateV1 X)) (payload : DeviceStateV1 X) : List (DeviceStateV1 X) :=
  if devices.any fun device => device.entityId = payload.entityId then
    devices.map fun device => if device.entityId = payload.entityId then payload else device
  else devices ++ [payload]

/-- The newest events, as many as the buffer holds. -/
def buffered (events : List (EventEnvelopeV1 P)) : List (EventEnvelopeV1 P) :=
  events.drop (events.length - eventBufferLimit)

def reduceEvent (s : ReplayState X P) (envelope : EventEnvelopeV1 P) : ReplayState X P :=
  if s.events.any fun event => event.eventId = envelope.eventId then s
  else { s with
    events := buffered (s.events ++ [envelope])
    eventHistoryTruncated := eventBufferLimit < (s.events ++ [envelope]).length || s.eventHistoryTruncated }

def replayReducer (s : ReplayState X P) : ReplayAction X P → ReplayState X P
  | .replaySet replayId status =>
    { createInitialReplayState with
      replayId := some replayId, connectionState := s.connectionState, status := status, isStarting := status.isNone }
  | .replayCleared => { createInitialReplayState with connectionState := s.connectionState }
  | .connection state => { s with connectionState := state }
  | .startRequested => { s with isStarting := true }
  | .startCancelled => { s with isStarting := false }
  | .status payload => reduceStatus s payload
  | .deviceStates payload => { s with deviceStates := payload, scientificUnavailable := false }
  | .upsertDeviceState payload => { s with deviceStates := upsert s.deviceStates payload, scientificUnavailable := false }
  | .riskGraph payload => { s with riskGraph := some payload, scientificUnavailable := false }
  | .commGraph payload => { s with commGraph := some payload, scientificUnavailable := false }
  | .srep payload => { s with srep := some payload, scientificUnavailable := false }
  | .event envelope => reduceEvent s envelope
  | .eventGap => { s with gapDetected := true }
  | .scientificUnavailable => { s with scientificUnavailable := true }
  | .scientificAvailable => { s with scientificUnavailable := false }
  | .error notice => { s with error := some notice }
  | .clearError => { s with error := none }

/-- The state after so many actions. -/
def reduced (actions : List (ReplayAction X P)) : ReplayState X P := actions.foldl replayReducer createInitialReplayState

theorem reduced_concat (actions : List (ReplayAction X P)) (a : ReplayAction X P) :
    reduced (actions ++ [a]) = replayReducer (reduced actions) a :=
  List.foldl_concat ..

theorem reduced_append (actions more : List (ReplayAction X P)) :
    reduced (actions ++ more) = more.foldl replayReducer (reduced actions) :=
  List.foldl_append ..

end Reducer

/-! ## One replay at a time -/

section Isolation

variable {X P : Type}

/-- Everything in the state belongs to its replay, and a stored error of a request too. -/
structure Clean (s : ReplayState X P) : Prop where
  status : ∀ st, s.status = some st → s.replayId = some st.replayId
  devices : ∀ d ∈ s.deviceStates, s.replayId = some d.replayId
  risk : ∀ g, s.riskGraph = some g → s.replayId = some g.replayId
  comm : ∀ g, s.commGraph = some g → s.replayId = some g.replayId
  srep : ∀ g, s.srep = some g → s.replayId = some g.replayId
  events : ∀ e ∈ s.events, s.replayId = some e.replayId
  error : ∀ n r, s.error = some n → n.cause = .request r → s.replayId = some r

/-- The action is for the replay of the state. -/
def Fits (s : ReplayState X P) : ReplayAction X P → Prop
  | .replaySet replayId status => ∀ st, status = some st → st.replayId = replayId
  | .deviceStates payload => ∀ d ∈ payload, s.replayId = some d.replayId
  | .upsertDeviceState payload => s.replayId = some payload.replayId
  | .riskGraph payload | .commGraph payload | .srep payload => s.replayId = some payload.replayId
  | .event envelope => s.replayId = some envelope.replayId
  | .error notice => ∀ r, notice.cause = .request r → s.replayId = some r
  | _ => True

variable {s : ReplayState X P}

theorem clean_initial : Clean (createInitialReplayState : ReplayState X P) where
  status := fun _ h => nomatch h
  devices := fun _ h => nomatch h
  risk := fun _ h => nomatch h
  comm := fun _ h => nomatch h
  srep := fun _ h => nomatch h
  events := fun _ h => nomatch h
  error := fun _ _ h => nomatch h

theorem mem_upsert {devices : List (DeviceStateV1 X)} {payload d : DeviceStateV1 X} (h : d ∈ upsert devices payload) :
    d = payload ∨ d ∈ devices := by
  unfold upsert at h
  split at h
  · obtain ⟨device, hdevice, hd⟩ := List.mem_map.mp h
    split at hd
    · exact .inl hd.symm
    · exact .inr (hd ▸ hdevice)
  · rcases List.mem_append.mp h with h | h
    · exact .inr h
    · exact .inl (List.mem_singleton.mp h)

theorem clean_reduceStatus (h : Clean s) (payload : ReplayStatusV1) : Clean (reduceStatus s payload) := by
  unfold reduceStatus
  split
  · exact h
  next hsame =>
  split
  · exact h
  split
  · exact h
  · refine { h with status := ?_ }
    intro st hst
    cases hst
    exact (not_not.mp hsame).symm

theorem clean_reduceEvent (h : Clean s) {envelope : EventEnvelopeV1 P} (hfits : s.replayId = some envelope.replayId) :
    Clean (reduceEvent s envelope) := by
  have hevents : ∀ e ∈ buffered (s.events ++ [envelope]), s.replayId = some e.replayId := by
    intro e he
    rcases List.mem_append.mp (List.mem_of_mem_drop he) with he | he
    · exact h.events e he
    · rw [List.mem_singleton.mp he]
      exact hfits
  unfold reduceEvent
  split
  · exact h
  · refine ⟨h.status, h.devices, h.risk, h.comm, h.srep, ?_, h.error⟩
    dsimp only
    exact hevents

/-- An action for the replay of the state leaves nothing of another replay in it. -/
theorem clean_reducer (h : Clean s) {a : ReplayAction X P} (hfits : Fits s a) : Clean (replayReducer s a) := by
  cases a with
  | replaySet replayId status =>
    refine ⟨?_, ?_, ?_, ?_, ?_, ?_, ?_⟩
    · intro st hst
      exact congrArg some (hfits st hst).symm
    all_goals intros; contradiction
  | replayCleared =>
    refine ⟨?_, ?_, ?_, ?_, ?_, ?_, ?_⟩
    all_goals intros; contradiction
  | connection state => exact { h with }
  | startRequested => exact { h with }
  | startCancelled => exact { h with }
  | status payload => exact clean_reduceStatus h payload
  | deviceStates payload => exact { h with devices := hfits }
  | upsertDeviceState payload =>
    refine { h with devices := ?_ }
    intro d hd
    rcases mem_upsert hd with rfl | hd
    · exact hfits
    · exact h.devices d hd
  | riskGraph payload =>
    refine { h with risk := ?_ }
    rintro g ⟨⟩
    exact hfits
  | commGraph payload =>
    refine { h with comm := ?_ }
    rintro g ⟨⟩
    exact hfits
  | srep payload =>
    refine { h with srep := ?_ }
    rintro g ⟨⟩
    exact hfits
  | event envelope => exact clean_reduceEvent h hfits
  | eventGap => exact { h with }
  | scientificUnavailable => exact { h with }
  | scientificAvailable => exact { h with }
  | error notice =>
    refine { h with error := ?_ }
    rintro n r ⟨⟩ hcause
    exact hfits r hcause
  | clearError => exact { h with error := fun _ _ hnone => nomatch hnone }

/-- The number of the status does not fall and an ended replay stays ended. -/
def StatusKept (status status' : Option ReplayStatusV1) : Prop :=
  ∀ st, status = some st → ∃ st', status' = some st' ∧ st.sequenceNumber ≤ st'.sequenceNumber ∧
    (st.state.terminal = true → st'.state.terminal = true)

theorem statusKept_refl (status : Option ReplayStatusV1) : StatusKept status status :=
  fun st hst => ⟨st, hst, le_refl _, id⟩

theorem StatusKept.trans {status status' status'' : Option ReplayStatusV1} (h : StatusKept status status')
    (h' : StatusKept status' status'') : StatusKept status status'' := by
  intro st hst
  obtain ⟨st', hst', hnumber, hterminal⟩ := h st hst
  obtain ⟨st'', hst'', hnumber', hterminal'⟩ := h' st' hst'
  exact ⟨st'', hst'', hnumber.trans hnumber', fun hend => hterminal' (hterminal hend)⟩

theorem reduceStatus_kept (h : Clean s) (payload : ReplayStatusV1) :
    StatusKept s.status (reduceStatus s payload).status := by
  unfold reduceStatus
  split
  · exact statusKept_refl _
  next hsame =>
  split
  · exact statusKept_refl _
  next hfresh =>
  split
  · exact statusKept_refl _
  next hends =>
  intro st hst
  have hid : st.replayId = payload.replayId :=
    Option.some.inj ((h.status st hst).symm.trans (not_not.mp hsame).symm)
  rw [hst] at hfresh hends
  simp only [outdated, revives, Option.any_some, decide_eq_true_eq, not_and, not_lt, not_not] at hfresh hends
  exact ⟨payload, rfl, hfresh hid, hends⟩

/-- Whether the action starts over with a replay, or with none. -/
def Resets : ReplayAction X P → Prop
  | .replaySet _ _ | .replayCleared => True
  | _ => False

theorem reducer_kept (h : Clean s) {a : ReplayAction X P} (hkeeps : ¬ Resets a) :
    StatusKept s.status (replayReducer s a).status := by
  cases a with
  | replaySet replayId status => exact absurd trivial hkeeps
  | replayCleared => exact absurd trivial hkeeps
  | status payload => exact reduceStatus_kept h payload
  | event envelope =>
    simp only [replayReducer, reduceEvent]
    split <;> exact statusKept_refl _
  | connection state => exact statusKept_refl _
  | startRequested => exact statusKept_refl _
  | startCancelled => exact statusKept_refl _
  | deviceStates payload => exact statusKept_refl _
  | upsertDeviceState payload => exact statusKept_refl _
  | riskGraph payload => exact statusKept_refl _
  | commGraph payload => exact statusKept_refl _
  | srep payload => exact statusKept_refl _
  | eventGap => exact statusKept_refl _
  | scientificUnavailable => exact statusKept_refl _
  | scientificAvailable => exact statusKept_refl _
  | error notice => exact statusKept_refl _
  | clearError => exact statusKept_refl _

/-- The state was clean before each of the actions and after them. -/
def CleanThroughout (actions : List (ReplayAction X P)) : Prop := ∀ before, before <+: actions → Clean (reduced before)

theorem cleanThroughout_nil : CleanThroughout ([] : List (ReplayAction X P)) := by
  intro before hbefore
  rw [List.prefix_nil.mp hbefore]
  exact clean_initial

theorem CleanThroughout.concat {actions : List (ReplayAction X P)} (h : CleanThroughout actions) {a : ReplayAction X P}
    (hfits : Fits (reduced actions) a) : CleanThroughout (actions ++ [a]) := by
  intro before hbefore
  rcases List.prefix_concat_iff.mp hbefore with rfl | hbefore
  · rw [reduced_concat]
    exact clean_reducer (h actions List.prefix_rfl) hfits
  · exact h before hbefore

theorem CleanThroughout.kept {actions before more : List (ReplayAction X P)} (h : CleanThroughout actions)
    (hmore : before ++ more <+: actions) (hkeeps : ∀ a ∈ more, ¬ Resets a) :
    StatusKept (reduced before).status (reduced (before ++ more)).status := by
  induction more using List.reverseRecOn with
  | nil =>
    rw [List.append_nil]
    exact statusKept_refl _
  | append_singleton more a ih =>
    have hshorter : before ++ more <+: actions := by
      refine List.IsPrefix.trans ?_ hmore
      rw [← List.append_assoc]
      exact List.prefix_append ..
    refine (ih hshorter fun a ha => hkeeps a (List.mem_append_left _ ha)).trans ?_
    rw [← List.append_assoc, reduced_concat]
    exact reducer_kept (h _ hshorter) (hkeeps a (List.mem_append_right _ (List.mem_singleton.mpr rfl)))

end Isolation

end DashboardState
