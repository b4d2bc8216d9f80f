import AgenticSoc.DashboardSynchronizer

/-!
# Replays do not mix in the dashboard

Each action is dispatched for the replay of the state, since a task looks at the state's
replay after every wait. So the state is clean after every action, whatever replays the
tasks in between belong to.
-/
namespace DashboardIsolation

open DashboardState DashboardSynchronizer
open Function (update)

variable {X P : Type} {schemas : Schemas X P} {s s' : State X P}

/-- The state is what the dispatched actions lead to, and was clean all along. -/
def Tidy (s : State X P) : Prop := s.ui = reduced s.log ∧ CleanThroughout s.log

theorem tidy_start : Tidy (start : State X P) := ⟨rfl, cleanThroughout_nil⟩

theorem Tidy.clean (h : Tidy s) : Clean s.ui := h.1 ▸ h.2 s.log List.prefix_rfl

theorem Tidy.dispatch (h : Tidy s) (a : ReplayAction X P) (hfits : Fits s.ui a) : Tidy (s.dispatch a) := by
  refine ⟨?_, h.2.concat (h.1 ▸ hfits)⟩
  change replayReducer s.ui a = reduced (s.log ++ [a])
  rw [reduced_concat, h.1]

theorem Tidy.reportError (h : Tidy s) (message : String) (cause : Cause)
    (hcause : ∀ r, cause = .request r → s.ui.replayId = some r) : Tidy (s.reportError message cause) :=
  h.dispatch _ hcause

/-- An error of a request for the state's own replay. -/
theorem Tidy.reportRequest (h : Tidy s) {replayId : String} (hid : s.ui.replayId = some replayId) (message : String) :
    Tidy (s.reportError message (.request replayId)) := by
  refine h.reportError _ _ ?_
  rintro r ⟨⟩
  exact hid

/-- The replay of the state stays when an action does not start over. -/
theorem replayId_dispatch {a : ReplayAction X P} (hkeeps : ¬ Resets a) : (s.dispatch a).ui.replayId = s.ui.replayId := by
  change (replayReducer s.ui a).replayId = s.ui.replayId
  cases a with
  | replaySet replayId status => exact absurd trivial hkeeps
  | replayCleared => exact absurd trivial hkeeps
  | status payload =>
    simp only [replayReducer, reduceStatus]
    repeat' split
    all_goals rfl
  | event envelope =>
    simp only [replayReducer, reduceEvent]
    split <;> rfl
  | connection state => rfl
  | startRequested => rfl
  | startCancelled => rfl
  | deviceStates payload => rfl
  | upsertDeviceState payload => rfl
  | riskGraph payload => rfl
  | commGraph payload => rfl
  | srep payload => rfl
  | eventGap => rfl
  | scientificUnavailable => rfl
  | scientificAvailable => rfl
  | error notice => rfl
  | clearError => rfl

/-! ## Responses that carry their replay -/

/-- A response is for the replay it was requested for. -/
def Carries (s : State X P) : Move X P → Prop
  | .respond task reply =>
    match (s.tasks task).place, reply with
    | .creating, .created replayId status => status.replayId = replayId
    | .status replayId _ _, .status payload => payload.replayId = replayId
    | .recovering replayId _ _, .status payload => payload.replayId = replayId
    | .science replayId _ _, .science devices riskGraph communicationGraph srep =>
      (∀ d ∈ devices, d.replayId = replayId) ∧ riskGraph.replayId = replayId ∧
        communicationGraph.replayId = replayId ∧ srep.replayId = replayId
    | _, _ => True
  | _ => True

def AllCarry (schemas : Schemas X P) (s : State X P) : List (Move X P) → Prop
  | [] => True
  | m :: ms => Carries s m ∧ ∀ s', step schemas s m = some s' → AllCarry schemas s' ms

/-! ## Every move keeps the state tidy -/

theorem settleStatus_tidy (h : Tidy s) (t : Nat) (replayId : String) (reportFailure : Bool) (next : AfterStatus)
    (reply : Except RestError ReplayStatusV1) : Tidy (settleStatus s t replayId reportFailure next reply) := by
  unfold settleStatus
  split
  · exact h
  next hsame =>
  have hid : s.ui.replayId = some replayId := not_not.mp hsame
  split
  · next payload =>
    have hstatus := h.dispatch (.status payload) trivial
    have hid' : (s.dispatch (.status payload)).ui.replayId = some replayId := (replayId_dispatch id).trans hid
    dsimp only
    split
    · split
      · exact hstatus.reportRequest hid' _
      · exact hstatus
    · exact hstatus
  · dsimp only
    split
    · exact h.reportRequest hid _
    · exact h

theorem settleScience_tidy (h : Tidy s) (t : Nat) (replayId : String) (status : Option ReplayStatusV1) (next : AfterScience)
    {reply : Except RestError (List (DeviceStateV1 X) × SnapshotV1 X × SnapshotV1 X × SnapshotV1 X)}
    (hcarry : ∀ devices riskGraph communicationGraph srep, reply = .ok (devices, riskGraph, communicationGraph, srep) →
      (∀ d ∈ devices, d.replayId = replayId) ∧ riskGraph.replayId = replayId ∧
        communicationGraph.replayId = replayId ∧ srep.replayId = replayId) :
    Tidy (settleScience s t replayId status next reply) := by
  unfold settleScience
  split
  · exact h
  next hsame =>
  have hid : s.ui.replayId = some replayId := not_not.mp hsame
  split
  · next devices riskGraph communicationGraph srep =>
    obtain ⟨hdevices, hrisk, hcomm, hsrep⟩ := hcarry devices riskGraph communicationGraph srep rfl
    have h₁ := h.dispatch (.deviceStates devices) fun d hd => by rw [hdevices d hd, hid]
    have h₂ := h₁.dispatch (.riskGraph riskGraph) (hid.trans (congrArg some hrisk.symm))
    have h₃ := h₂.dispatch (.commGraph communicationGraph) (hid.trans (congrArg some hcomm.symm))
    have h₄ := h₃.dispatch (.srep srep) (hid.trans (congrArg some hsrep.symm))
    exact h₄.dispatch .scientificAvailable trivial
  · dsimp only
    split
    · exact h.dispatch .scientificUnavailable trivial
    · exact h.reportRequest hid _

theorem recoveryFailed_tidy (h : Tidy s) (t : Nat) (reportFailure : Bool) (error : RestError) :
    Tidy (recoveryFailed s t reportFailure error) := by
  unfold recoveryFailed
  dsimp only
  split
  · exact h.reportError _ .recovery fun r hr => nomatch hr
  · exact h

theorem recoverActiveReplay_tidy (h : Tidy s) (reportFailure : Bool) : Tidy (s.recoverActiveReplay reportFailure).1 := by
  unfold State.recoverActiveReplay
  split <;> exact h

theorem createFailed_tidy (h : Tidy s) (t : Nat) (error : RestError) : Tidy (createFailed s t error) := by
  unfold createFailed
  split
  · exact recoverActiveReplay_tidy h false
  · exact h.reportError _ .create fun r hr => nomatch hr

theorem controlFailed_tidy (h : Tidy s) (t : Nat) (replayId : String) (action : Control) (requestedStart : Bool)
    (error : RestError) (status : Option ReplayStatusV1) :
    Tidy (controlFailed s t replayId action requestedStart error status) := by
  unfold controlFailed
  split
  · exact h
  next hsame =>
  have hid : s.ui.replayId = some replayId := not_not.mp hsame
  split
  · exact h
  · dsimp only
    split
    · exact (h.dispatch .startCancelled trivial).reportRequest hid _
    · exact h.reportRequest hid _

theorem scheduleWindowRefresh_tidy (h : Tidy s) (replayId : String) : Tidy (s.scheduleWindowRefresh replayId) := by
  unfold State.scheduleWindowRefresh
  repeat' split
  all_goals exact h

theorem respond_tidy (h : Tidy s) {t : Nat} {reply : Reply X} (hcarry : Carries s (.respond t reply))
    (hrespond : respond s t reply = some s') : Tidy s' := by
  unfold respond at hrespond
  unfold Carries at hcarry
  split at hrespond
  · next replayId status hplace =>
    cases hrespond
    simp only [hplace] at hcarry
    refine h.dispatch (.replaySet replayId (some status)) ?_
    rintro st ⟨⟩
    exact hcarry
  · cases hrespond
    exact createFailed_tidy h t _
  · cases hrespond
    exact h
  · cases hrespond
    exact h
  · next newReplayId _ =>
    cases hrespond
    exact Tidy.dispatch (s := s.cancelPendingRefresh) h (.replaySet newReplayId none) fun st hst => by cases hst
  · cases hrespond
    exact h
  · cases hrespond
    exact h
  · cases hrespond
    exact h
  · cases hrespond
    exact settleStatus_tidy h ..
  · cases hrespond
    exact settleStatus_tidy h ..
  · next hplace =>
    cases hrespond
    simp only [hplace] at hcarry
    refine settleScience_tidy h _ _ _ _ ?_
    rintro _ _ _ _ ⟨⟩
    exact hcarry
  · cases hrespond
    refine settleScience_tidy h _ _ _ _ ?_
    rintro _ _ _ _ ⟨⟩
  · split at hrespond
    · split at hrespond <;> cases hrespond <;> exact h
    · cases hrespond
      exact h
  · cases hrespond
    exact recoveryFailed_tidy h ..
  · next replayId starting reportFailure payload hplace =>
    simp only [hplace] at hcarry
    have hset := Tidy.dispatch (s := s.cancelPendingRefresh) h (.replaySet replayId (some payload)) fun st hst => by
      cases hst
      exact hcarry
    cases hrespond
    split
    · exact hset.dispatch .startRequested trivial
    · exact hset
  · cases hrespond
    exact recoveryFailed_tidy h ..
  · cases hrespond

theorem resume_tidy (h : Tidy s) {t : Nat} (hresume : resume s t = some s') : Tidy s' := by
  unfold resume at hresume
  split at hresume
  · next next _ =>
    cases hresume
    unfold afterStatus
    split
    · exact h
    · split <;> exact h
    · split <;> exact h
    · exact h
    · split
      · exact h
      · exact controlFailed_tidy h ..
    · dsimp only
      split
      · next hid => exact h.reportRequest hid _
      · exact h
  · cases hresume
    unfold afterScience
    split
    · exact h
    · exact h
    · exact controlFailed_tidy h ..
  · cases hresume
    unfold windowOver
    dsimp only
    split
    · split
      · exact scheduleWindowRefresh_tidy (s := { s with windowRefresh := none, trailingWindowReplayId := none }) h _
      · exact h
    · exact h
  · split at hresume
    · cases hresume
      exact h
    · cases hresume
  · cases hresume
    exact h
  · split at hresume
    · cases hresume
      exact h
    · cases hresume
      exact h.reportError _ .create fun r hr => nomatch hr
    · cases hresume
  · cases hresume

theorem applyPayload_tidy {A : Type} {envelope : EventEnvelopeV1 P} (h : Tidy s) (eventName : String)
    (replayIdOf : A → String) {apply : A → ReplayAction X P}
    (happly : ∀ payload, replayIdOf payload = envelope.replayId → Fits s.ui (apply payload)) (payload : Except String A) :
    Tidy (applyPayload s envelope eventName replayIdOf apply payload) := by
  unfold applyPayload
  split
  · exact h.reportError _ (.payload envelope.replayId) fun r hr => nomatch hr
  · split
    · exact h.reportError _ (.payload envelope.replayId) fun r hr => nomatch hr
    · next hsame => exact h.dispatch _ (happly _ (not_not.mp hsame))

theorem handleEvent_tidy (h : Tidy s) (envelope : EventEnvelopeV1 P) : Tidy (handleEvent schemas s envelope) := by
  unfold handleEvent
  split
  · exact h
  next hsame =>
  have hid : s.ui.replayId = some envelope.replayId := not_not.mp hsame
  have hevent := h.dispatch (.event envelope) hid
  have hid' : (s.dispatch (.event envelope)).ui.replayId = some envelope.replayId := (replayId_dispatch id).trans hid
  dsimp only
  split
  · exact hevent
  · exact hevent
  · exact hevent
  · exact hevent
  · exact scheduleWindowRefresh_tidy hevent _
  · exact hevent
  · exact hevent
  · refine applyPayload_tidy hevent _ _ ?_ _
    exact fun payload hpayload => hid'.trans (congrArg some hpayload.symm)
  · refine applyPayload_tidy hevent _ _ ?_ _
    exact fun payload hpayload => hid'.trans (congrArg some hpayload.symm)
  · refine applyPayload_tidy hevent _ _ ?_ _
    exact fun payload hpayload => hid'.trans (congrArg some hpayload.symm)
  · refine applyPayload_tidy hevent _ _ ?_ _
    exact fun payload hpayload => hid'.trans (congrArg some hpayload.symm)
  · unfold finalRefresh
    dsimp only
    split <;> exact hevent
  · exact hevent

theorem invoke_tidy (h : Tidy s) (operation : Operation P) : Tidy (invoke schemas s operation) := by
  have hclear := h.dispatch .clearError trivial
  cases operation with
  | createReplay => exact hclear
  | control action replayId =>
    unfold invoke
    dsimp only
    split
    · exact hclear.dispatch .startRequested trivial
    · exact hclear
  | restart replayId => exact hclear
  | setSpeed replayId => exact hclear
  | refreshStatus replayId reportFailure => exact h
  | hydrateReplay replayId => exact h
  | recoverActiveReplay reportFailure => exact recoverActiveReplay_tidy h reportFailure
  | handleEvent envelope => exact handleEvent_tidy h envelope
  | handleGap replayId => exact h.dispatch .eventGap trivial
  | connection state => exact h.dispatch (.connection state) trivial
  | cancelPendingRefresh => exact h
  | timer =>
    simp only [invoke]
    split <;> exact h

theorem step_tidy (h : Tidy s) {m : Move X P} (hcarry : Carries s m) (hstep : step schemas s m = some s') : Tidy s' := by
  have hnow : Tidy s.tick := h
  cases m with
  | invoke operation =>
    cases hstep
    exact invoke_tidy hnow operation
  | respond task reply => exact respond_tidy hnow hcarry hstep
  | resume task => exact resume_tidy hnow hstep

theorem run_tidy {ms : List (Move X P)} (h : Tidy s) (hcarry : AllCarry schemas s ms) (hrun : run schemas s ms = some s') :
    Tidy s' := by
  induction ms generalizing s with
  | nil =>
    cases hrun
    exact h
  | cons m ms ih =>
    obtain ⟨t, ht, hrest⟩ := Option.bind_eq_some_iff.mp hrun
    exact ih (step_tidy h hcarry.1 ht) (hcarry.2 t ht) hrest

/-- In every run the state belongs to its replay, and from one action to a later one the
status does not go back as long as no replay is set between them. -/
theorem replays_isolated {ms : List (Move X P)} (hrun : run schemas start ms = some s) (hcarry : AllCarry schemas start ms) :
    Clean s.ui ∧ s.ui = reduced s.log ∧ (∀ before, before <+: s.log → Clean (reduced before)) ∧
      ∀ before more, before ++ more <+: s.log → (∀ a ∈ more, ¬ Resets a) →
        StatusKept (reduced before).status (reduced (before ++ more)).status := by
  have h := run_tidy tidy_start hcarry hrun
  exact ⟨h.clean, h.1, h.2, fun before more hmore hkeeps => h.2.kept hmore hkeeps⟩

def devSchemas : Schemas Unit Unit where
  deviceState := fun _ => .error "unread"
  deviceRiskGraph := fun _ => .error "unread"
  communicationGraph := fun _ => .error "unread"
  srepSnapshot := fun _ => .error "unread"

def devStatus (replayId : String) (state : ReplayLifecycle.ReplayState) (number windows : ℚ) : ReplayStatusV1 :=
  ⟨replayId, state, windows, number, none⟩

/-- A replay is created and restarted while a status request for it is on its way. -/
def restartRace : List (Move Unit Unit) :=
  [.invoke .createReplay, .respond 0 (.created "a" (devStatus "a" .created 0 0)), .invoke (.hydrateReplay "a"),
    .invoke (.restart "a"), .respond 2 (.restarted "b"), .respond 1 (.status (devStatus "a" .running 3 1))]

theorem restartRace_carries : AllCarry devSchemas start restartRace := by
  refine ⟨trivial, fun _ h => ?_⟩
  cases h
  refine ⟨rfl, fun _ h => ?_⟩
  cases h
  refine ⟨trivial, fun _ h => ?_⟩
  cases h
  refine ⟨trivial, fun _ h => ?_⟩
  cases h
  refine ⟨trivial, fun _ h => ?_⟩
  cases h
  exact ⟨rfl, fun _ _ => trivial⟩

theorem replays_isolated_restartRace : ∃ s, run devSchemas start restartRace = some s ∧ s.ui.replayId = some "b" ∧
    s.ui.status = none ∧ Clean s.ui :=
  ⟨_, rfl, rfl, rfl, (replays_isolated (show run devSchemas start restartRace = _ from rfl) restartRace_carries).1⟩

end DashboardIsolation
