import AgenticSoc.WorkflowRequests

/-!
# The dispatch loop

What one round of the dispatch loop can do to the control of a window, and from it what a
window does over all its rounds: which agents run, and how the window ends.
-/
namespace WorkflowDispatch

open Procedure WorkflowReadiness WorkflowGateway DeviceAbm FindingGateway WorkflowService
open OrchestrationMessages OrchestrationRound WorkflowRequests
open EventPublishing (ReplayEventType)
open BlackboardRecord (runChecks)

section Views

variable {P : Type} {R : Runtime P} {F σ δ π ρ : Type}

/-- The events that start or end a window. -/
def isWindowEvent (t : ReplayEventType) : Bool :=
  t = .workflowWindowStarted || t = .workflowWindowCompleted || t = .workflowWindowFailed

/-- What decides the course of a window, with the states of all windows and the events that
started or ended one. -/
@[ext] structure Control (R : Runtime P) where
  completed : List AgentId
  deviceRisk : Bool
  riskRec : Bool
  record : List (Happening R)
  statuses : List (Int × WindowStatus)
  windowEvents : List (Int × ReplayEventType)

/-- What the detectors and the device model have come to. -/
structure Science (F δ π : Type) where
  gateway : Gateway F
  abmCalls : List (AbmCall F)
  detector : δ
  profiler : π
  findings : List (Finding F)

def windowEvents (published : List (WorkflowEvent R)) : List (Int × ReplayEventType) :=
  (published.filter fun e => isWindowEvent e.data.eventType).map fun e => (e.windowId, e.data.eventType)

def statuses (windows : List WorkflowWindowState) : List (Int × WindowStatus) :=
  windows.map fun w => (w.windowId, w.status)

def control (s : World R F σ δ π) : Control R :=
  ⟨s.frame.completed, s.frame.deviceRiskAvailable, s.frame.riskRecAvailable, s.frame.record, statuses s.windows,
    windowEvents s.published⟩

def science (s : World R F σ δ π) : Science F δ π :=
  ⟨s.gateway, s.abmCalls, s.detector, s.profiler, s.frame.findings⟩

def both (s : World R F σ δ π) : Control R × Science F δ π := (control s, science s)

/-! ## What the small steps leave alone -/

theorem ask_keeps {α : Type} (op : σ → Except String α × σ) : Keeps both (ask op : Work R F σ δ π α) := fun _ => rfl

theorem fresh_keeps {α : Type} (op : σ → α × σ) : Keeps both (fresh op : Work R F σ δ π α) := fun _ => rfl

theorem mayFail_keeps (fault : σ → Option String × σ) : Keeps both (mayFail fault : Work R F σ δ π Unit) := by
  intro s
  unfold mayFail
  rcases fault s.env with ⟨_ | e, env⟩ <;> rfl

theorem onFrame_keeps {f : Frame R F → Frame R F}
    (h : ∀ fr, (f fr).completed = fr.completed ∧ (f fr).deviceRiskAvailable = fr.deviceRiskAvailable ∧
      (f fr).riskRecAvailable = fr.riskRecAvailable ∧ (f fr).record = fr.record ∧ (f fr).findings = fr.findings) :
    Keeps both (onFrame f : Work R F σ δ π Unit) := by
  refine keeps_update fun s => ?_
  obtain ⟨hcompleted, hdevice, hrisk, hrecord, hfindings⟩ := h s.frame
  simp only [both, control, science, hcompleted, hdevice, hrisk, hrecord, hfindings]

theorem onWindow_keeps (windowId : Int) {f : WorkflowWindowState → WorkflowWindowState}
    (h : ∀ w, (f w).windowId = w.windowId ∧ (f w).status = w.status) :
    Keeps both (onWindow windowId f : Work R F σ δ π Unit) := by
  refine keeps_update fun s => ?_
  have hsame : statuses (s.windows.map fun w => if w.windowId = windowId then f w else w) = statuses s.windows := by
    simp only [statuses, List.map_map]
    refine List.map_congr_left fun w _ => ?_
    by_cases hw : w.windowId = windowId <;> simp [hw, h w]
  simp only [both, control, science, hsame]

variable (E : Environment R F σ δ π ρ) (call : Call ρ)

theorem publish_keeps {data : EventData R} (h : isWindowEvent data.eventType = false) (entityId ts : Option String) :
    Keeps both (publish E call data entityId ts) := by
  intro s
  unfold WorkflowService.publish
  simp only
  split
  · rfl
  · simp [both, control, science, windowEvents, List.filter_append, h]
  · rfl

theorem publishWindow_keeps {data : EventData R} (h : isWindowEvent data.eventType = false) (ts : Option String) :
    Keeps both (publishWindow E call data ts) :=
  Keeps.bind (publish_keeps E call h _ ts) fun _ => keeps_pure ()

theorem submitOutput_keeps (label : String) (expected : Expected) (entityId : String) (o : Output) :
    Keeps both (submitOutput E label expected entityId o) := by
  unfold submitOutput
  refine Keeps.bind (keeps_read _) fun outputs => ?_
  simp only
  refine Keeps.bind (keeps_update fun s => rfl) fun _ => ?_
  split
  · exact keeps_pure ()
  · exact keeps_raise _

theorem recordOutput_keeps (label ts entityId : String) (o : Output) : Keeps both (recordOutput E call label ts entityId o) := by
  unfold recordOutput
  split
  · refine Keeps.bind (ask_keeps _) fun outcome => ?_
    split
    · exact keeps_pure ()
    · exact keeps_raise _
  · exact keeps_pure ()

theorem publishCompleted_keeps (a : AgentId) (dispatchId : String) (findings : Option Nat) :
    Keeps both (publishCompleted E call a dispatchId findings) := by
  refine Keeps.bind (fresh_keeps _) fun executionId => ?_
  exact Keeps.bind (onWindow_keeps _ fun w => ⟨rfl, rfl⟩) fun _ => publishWindow_keeps E call rfl none

theorem threatEntity_keeps (ts : String) (group : String × List (Finding F)) :
    Keeps both (threatEntity E call ts group) := by
  refine Keeps.bind (keeps_read _) fun abm => ?_
  split
  · exact keeps_pure ()
  · split
    · exact keeps_pure ()
    · refine Keeps.bind (ask_keeps _) fun corr => ?_
      refine Keeps.bind (submitOutput_keeps E _ _ _ _) fun _ => ?_
      refine Keeps.bind (recordOutput_keeps E call _ _ _ _) fun _ => ?_
      refine Keeps.bind (onFrame_keeps fun fr => ⟨rfl, rfl, rfl, rfl, rfl⟩) fun _ => ?_
      refine Keeps.bind (onWindow_keeps _ fun w => ⟨rfl, rfl⟩) fun _ => ?_
      exact Keeps.bind (publish_keeps E call rfl _ _) fun _ => keeps_pure ()

theorem threatWork_keeps (ts dispatchId : String) : Keeps both (threatWork E call ts dispatchId) := by
  refine Keeps.bind (keeps_read _) fun findings => ?_
  simp only
  refine Keeps.bind (onWindow_keeps _ fun w => ⟨rfl, rfl⟩) fun _ => ?_
  refine Keeps.bind (keeps_each fun group _ => threatEntity_keeps E call ts group) fun _ => ?_
  exact publishCompleted_keeps E call _ dispatchId _

theorem riskEntity_keeps (ts entityId : String) : Keeps both (riskEntity E call ts entityId) := by
  refine Keeps.bind (keeps_read _) fun abm => ?_
  refine Keeps.bind (keeps_read _) fun corr => ?_
  split
  · exact keeps_pure ()
  · split
    · exact keeps_pure ()
    · refine Keeps.bind (ask_keeps _) fun riskRec => ?_
      refine Keeps.bind (submitOutput_keeps E _ _ _ _) fun _ => ?_
      refine Keeps.bind (recordOutput_keeps E call _ _ _ _) fun _ => ?_
      refine Keeps.bind (onWindow_keeps _ fun w => ⟨rfl, rfl⟩) fun _ => ?_
      refine Keeps.bind (onFrame_keeps fun fr => ⟨rfl, rfl, rfl, rfl, rfl⟩) fun _ => ?_
      exact Keeps.bind (publish_keeps E call rfl _ _) fun _ => keeps_pure ()

/-- The risk analyst's work behind its propagation. -/
theorem riskEntities_keeps (ts dispatchId : String) (entities : List String) :
    Keeps both (each (riskEntity E call ts) entities >>= fun _ =>
      publishCompleted E call .riskPropagationAnalyst dispatchId none) :=
  Keeps.bind (keeps_each fun entityId _ => riskEntity_keeps E call ts entityId) fun _ =>
    publishCompleted_keeps E call _ dispatchId _

theorem accessEntity_keeps (ts entityId : String) : Keeps both (accessEntity E call ts entityId) := by
  refine Keeps.bind (keeps_read _) fun riskRec => ?_
  refine Keeps.bind (keeps_read _) fun corr => ?_
  split
  · exact keeps_pure ()
  · refine Keeps.bind (ask_keeps _) fun accessRec => ?_
    refine Keeps.bind (submitOutput_keeps E _ _ _ _) fun _ => ?_
    refine Keeps.bind (recordOutput_keeps E call _ _ _ _) fun _ => ?_
    refine Keeps.bind (onWindow_keeps _ fun w => ⟨rfl, rfl⟩) fun _ => ?_
    refine Keeps.bind (publish_keeps E call rfl _ _) fun _ => ?_
    refine Keeps.bind (ask_keeps _) fun enforcement => ?_
    refine Keeps.bind (submitOutput_keeps E _ _ _ _) fun _ => ?_
    refine Keeps.bind (onWindow_keeps _ fun w => ⟨rfl, rfl⟩) fun _ => ?_
    exact Keeps.bind (publish_keeps E call rfl _ _) fun _ => keeps_pure ()

theorem accessWork_keeps (ts dispatchId : String) : Keeps both (accessWork E call ts dispatchId) := by
  refine Keeps.bind (keeps_read _) fun recs => ?_
  exact Keeps.bind (keeps_each fun entityId _ => accessEntity_keeps E call ts entityId) fun _ =>
    publishCompleted_keeps E call _ dispatchId _

/-! ## What the agents leave alone -/

theorem noteAbmCall_keeps (c : AbmCall F) : Keeps control (noteAbmCall c : Work R F σ δ π Unit) := fun _ => rfl

theorem onAbm_keeps (f : Abm F → Abm F) : Keeps control (onAbm f : Work R F σ δ π Unit) := fun _ => rfl

theorem onFindings_keeps (g : List (Finding F) → List (Finding F)) :
    Keeps control (onFrame fun fr => { fr with findings := g fr.findings } : Work R F σ δ π Unit) := fun _ => rfl

variable [RiskNumber F]

theorem submitFinding_keeps (f : Finding F) : Keeps control (submitFinding E f : Work R F σ δ π Bool) := by
  intro s
  unfold submitFinding
  split <;> rfl

theorem gatherFinding_keeps (f : Finding F) : Keeps control (gatherFinding E f : Work R F σ δ π Bool) := by
  refine Keeps.bind (submitFinding_keeps E f) fun accepted => ?_
  cases accepted with
  | true => exact Keeps.bind (onFindings_keeps fun findings => findings ++ [f]) fun _ => keeps_pure _
  | false => exact keeps_pure _

theorem networkWork_keeps (dispatchId : String) : Keeps control (networkWork E call dispatchId) := by
  have hcompleted : ∀ n, Keeps control (publishCompleted E call .networkAnomalyDetector dispatchId n) :=
    fun n => (publishCompleted_keeps E call _ dispatchId n).map Prod.fst
  have hskipped : Keeps control (publishWindow E call (.agentExecutionSkipped .networkAnomalyDetector) none) :=
    (publishWindow_keeps E call rfl none).map Prod.fst
  unfold networkWork
  simp only
  split
  · exact hskipped
  · refine Keeps.bind (fun s => rfl) fun findings => ?_
    refine Keeps.bind (keeps_each fun f _ => ?_) fun _ => hcompleted _
    exact Keeps.bind (gatherFinding_keeps E (.network f)) fun _ => keeps_pure _

theorem profileRows_keeps (contextActive : Bool) (rows : List (Row ρ)) (accepted : Nat) :
    Keeps control (profileRows E call contextActive rows accepted) := by
  induction rows generalizing accepted with
  | nil => exact keeps_pure _
  | cons row rows ih =>
    refine Keeps.bind (fun s => rfl) fun finding => ?_
    cases finding with
    | none => exact ih accepted
    | some f => exact Keeps.bind (gatherFinding_keeps E (.behavior f)) fun ok => ih _

theorem behaviorWork_keeps (dispatchId : String) : Keeps control (behaviorWork E call dispatchId) :=
  Keeps.bind (profileRows_keeps E call _ _ 0) fun _ => (publishCompleted_keeps E call _ dispatchId _).map Prod.fst

theorem propagate_keeps : Keeps control (propagate E) := by
  refine Keeps.bind ((mayFail_keeps _).map Prod.fst) fun _ => ?_
  refine Keeps.bind (keeps_read _) fun abm => ?_
  split
  · exact keeps_raise _
  · exact Keeps.bind (onAbm_keeps _) fun _ => noteAbmCall_keeps _

theorem recordStep_keeps : Keeps control (recordStep E) := by
  refine Keeps.bind (onAbm_keeps _) fun _ => ?_
  refine Keeps.bind ((mayFail_keeps _).map Prod.fst) fun _ => ?_
  refine Keeps.bind (keeps_read _) fun abm => ?_
  refine Keeps.bind (onAbm_keeps _) fun _ => ?_
  refine Keeps.bind (noteAbmCall_keeps _) fun _ => ?_
  exact (mayFail_keeps _).map Prod.fst

end Views

/-! ## An agent -/

section Agents

variable {P : Type} {R : Runtime P} {F σ δ π ρ : Type}

def Control.noting (c : Control R) (h : Happening R) : Control R := { c with record := c.record ++ [h] }

def Control.completing (c : Control R) (a : AgentId) : Control R :=
  { c with completed := c.completed ++ [a], record := c.record ++ [.finished a] }

def bothDetectors (completed : List AgentId) : Prop :=
  .networkAnomalyDetector ∈ completed ∧ .iotBehavioralProfiler ∈ completed

/-- What an agent that does not raise has done to the control. -/
inductive Executed : AgentId → Control R → Control R → Prop where
  | detector {a : AgentId} {c : Control R} : a = .networkAnomalyDetector ∨ a = .iotBehavioralProfiler →
      ¬ bothDetectors (c.completed ++ [a]) → Executed a c (c.completing a)
  | joined {a : AgentId} {c : Control R} : a = .networkAnomalyDetector ∨ a = .iotBehavioralProfiler →
      bothDetectors (c.completed ++ [a]) → Executed a c { (c.completing a).noting .joined with deviceRisk := true }
  | joinFailed {a : AgentId} {c : Control R} : a = .networkAnomalyDetector ∨ a = .iotBehavioralProfiler →
      bothDetectors (c.completed ++ [a]) → Executed a c ((c.completing a).noting .joinFailed)
  | threat {c : Control R} : Executed .threatIntelligenceCorrelator c (c.completing .threatIntelligenceCorrelator)
  | risk {c : Control R} : Executed .riskPropagationAnalyst c
      { c.completing .riskPropagationAnalyst with deviceRisk := true, riskRec := true }
  | access {c : Control R} : Executed .trustAccessController c
      { c.completing .trustAccessController with riskRec := true }

variable [RiskNumber F] (E : Environment R F σ δ π ρ) (call : Call ρ)

/-- The join of the detectors sets the flag of the device risk, or it is noted as failed. -/
theorem join_spec {a : AgentId} (ha : a = .networkAnomalyDetector ∨ a = .iotBehavioralProfiler) (s : World R F σ δ π)
    (c : Control R) (hc : control s = c.completing a) :
    Ends (joinDetectors E call) s fun r s' => r = .ok () ∧ Executed a c (control s') := by
  have hcompleted : s.frame.completed = c.completed ++ [a] := congrArg Control.completed hc
  refine ends_bind (ends_read (Q := fun r s' => r = .ok s.frame.completed ∧ s' = s) ⟨rfl, rfl⟩) ?_ (by simp)
  rintro completed s' ⟨hr, rfl⟩
  cases hr
  rw [hcompleted]
  split
  · rename_i hboth
    refine ends_attempt (M := fun r s'' => match r with
      | .ok () => control s'' = { (control s').noting .joined with deviceRisk := true }
      | .error _ => control s'' = control s') ?_ ?_ ?_
    · refine ends_bind (ends_keeps (onAbm_keeps _)) (fun _ s₁ h₁ => ?_) fun e s₁ h₁ => h₁
      refine ends_bind (ends_keeps (propagate_keeps E)) (fun _ s₂ h₂ => ?_) fun e s₂ h₂ => h₂.trans h₁
      refine ends_bind (ends_keeps (recordStep_keeps E)) (fun _ s₃ h₃ => ?_) fun e s₃ h₃ => h₃.trans (h₂.trans h₁)
      have hsame := h₃.trans (h₂.trans h₁)
      change _ = _
      rw [← hsame]
      rfl
    · rintro ⟨⟩ s'' h
      refine ⟨rfl, ?_⟩
      simp only at h
      rw [h, hc]
      exact .joined ha hboth
    · intro e s'' h
      refine ⟨rfl, ?_⟩
      change Executed a c ((control s'').noting .joinFailed)
      simp only at h
      rw [h, hc]
      exact .joinFailed ha hboth
  · rename_i hnot
    refine ⟨rfl, ?_⟩
    change Executed a c (control s')
    rw [hc]
    exact .detector ha hnot

theorem execute_spec (ts dispatchId : String) (a : AgentId) (s : World R F σ δ π) :
    Ends (execute E call ts dispatchId a) s fun r s' => match r with
      | .ok () => Executed a (control s) (control s')
      | .error _ => ∃ d, control s' = { control s with deviceRisk := d } := by
  have hsame : ∀ {s' : World R F σ δ π}, control s' = control s →
      ∃ d, control s' = { control s with deviceRisk := d } := fun h => ⟨(control s).deviceRisk, h⟩
  cases a with
  | networkAnomalyDetector =>
    refine ends_bind (ends_keeps (networkWork_keeps E call dispatchId)) (fun _ s₁ h₁ => ?_) fun e s₁ h₁ => hsame h₁
    refine ends_bind (M := fun r s₂ => r = .ok () ∧ control s₂ = (control s).completing .networkAnomalyDetector)
      ⟨rfl, by rw [← h₁]; rfl⟩ (fun _ s₂ h₂ => ?_) (by simp)
    refine (join_spec E call (.inl rfl) s₂ _ h₂.2).mono fun r s₃ h₃ => ?_
    rw [h₃.1]
    exact h₃.2
  | iotBehavioralProfiler =>
    refine ends_bind (ends_keeps (behaviorWork_keeps E call dispatchId)) (fun _ s₁ h₁ => ?_) fun e s₁ h₁ => hsame h₁
    refine ends_bind (M := fun r s₂ => r = .ok () ∧ control s₂ = (control s).completing .iotBehavioralProfiler)
      ⟨rfl, by rw [← h₁]; rfl⟩ (fun _ s₂ h₂ => ?_) (by simp)
    refine (join_spec E call (.inr rfl) s₂ _ h₂.2).mono fun r s₃ h₃ => ?_
    rw [h₃.1]
    exact h₃.2
  | threatIntelligenceCorrelator =>
    have hkeeps := (threatWork_keeps E call ts dispatchId).map Prod.fst
    refine ends_bind (ends_keeps hkeeps) (fun _ s₁ h₁ => ?_) fun e s₁ h₁ => hsame h₁
    change Executed _ _ ((control s₁).completing .threatIntelligenceCorrelator)
    have h₁ : control s₁ = control s := h₁
    rw [h₁]
    exact .threat
  | riskPropagationAnalyst =>
    have hpropagate : Keeps control (attempt (propagate E) fun _ => pure ()) :=
      (propagate_keeps E).attempt fun _ => keeps_pure ()
    have hwork : Ends (riskWork E call ts dispatchId) s
        fun r s' => control s' = { control s with deviceRisk := true } ∨ r.isOk = false ∧ control s' = control s := by
      refine ends_bind (ends_keeps hpropagate) (fun _ s₁ h₁ => ?_) fun e s₁ h₁ => .inr ⟨rfl, h₁⟩
      have hflag : control { s₁ with frame := { s₁.frame with deviceRiskAvailable := true } } =
          { control s with deviceRisk := true } := by
        rw [← h₁]
        rfl
      have hrest := (riskEntities_keeps E call ts dispatchId (sortedKeys s₁.frame.threatCorrs)).map Prod.fst
        { s₁ with frame := { s₁.frame with deviceRiskAvailable := true } }
      exact .inl (hrest.trans hflag)
    refine ends_bind hwork (fun _ s₁ h₁ => ?_) fun e s₁ h₁ => ?_
    · have h₁ : control s₁ = { control s with deviceRisk := true } := by
        rcases h₁ with h₁ | ⟨hok, -⟩
        · exact h₁
        · cases hok
      change Executed _ _ { (control s₁).completing .riskPropagationAnalyst with deviceRisk := true, riskRec := true }
      rw [h₁]
      exact .risk
    · rcases h₁ with h₁ | ⟨-, h₁⟩
      · exact ⟨true, h₁⟩
      · exact hsame h₁
  | trustAccessController =>
    have hkeeps := (accessWork_keeps E call ts dispatchId).map Prod.fst
    refine ends_bind (ends_keeps hkeeps) (fun _ s₁ h₁ => ?_) fun e s₁ h₁ => hsame h₁
    change Executed _ _ { (control s₁).completing .trustAccessController with riskRec := true }
    have h₁ : control s₁ = control s := h₁
    rw [h₁]
    exact .access

end Agents

/-! ## A round -/

section Rounds

variable {P : Type} {R : Runtime P} {F σ δ π ρ : Type}

/-- Some event is not published. -/
def Blocked (E : Environment R F σ δ π ρ) : Prop := ∃ event env, (E.publish event env).1 ≠ .ok true

/-- The answer is decided for the route of an agent that was offered. -/
def Chosen (ready : List AgentId) (answer : Option Answer) (a : AgentId) : Prop :=
  ∃ ans, answer = some ans ∧ ans.decision.outcome = .decided ∧ ans.decision.selectedRouteId = some (agentToRoute a) ∧
    a ∈ ready

def Control.ready (c : Control R) : List AgentId := readyAgents c.completed c.deviceRisk c.riskRec

def Control.setting (c : Control R) (windowId : Int) (status : WindowStatus) : Control R :=
  { c with statuses := c.statuses.map fun e => if e.1 = windowId then (e.1, status) else e }

def Control.failing (c : Control R) (windowId : Int) : Control R := c.setting windowId .failed

/-- The request offers the routes of these agents. -/
def Asked (ready : List AgentId) (request : OrchestrationRequestV1 R.floats) : Prop :=
  request.candidateRoutes = (sortedByName ready).map fun a => ⟨agentToRoute a, 0⟩

def Control.statusOf (c : Control R) (windowId : Int) : Option WindowStatus :=
  (c.statuses.find? fun e => e.1 = windowId).map Prod.snd

def Control.publishing (c : Control R) (windowId : Int) (t : ReplayEventType) : Control R :=
  { c with windowEvents := c.windowEvents ++ [(windowId, t)] }

/-- A dispatch was asked for and answered. -/
def Control.answering (c : Control R) (request : OrchestrationRequestV1 R.floats) (answer : Option Answer) : Control R :=
  (c.noting (.requested request)).noting (.answered c.ready answer)

/-- All that a round of the loop can do to the control, with what it ends in. Whether the
requests of the window are valid does not change. -/
inductive Round (valid blocked : Prop) (windowId : Int) (c : Control R) : Except String Bool → Control R → Prop where
  | idle : c.ready = [] → Round valid blocked windowId c (.ok false) c
  | requestRaised (request : OrchestrationRequestV1 R.floats) (e : String) : c.ready ≠ [] → ¬ valid ∨ blocked →
      Round valid blocked windowId c (.error e) (c.noting (.requested request))
  | refused (request : OrchestrationRequestV1 R.floats) (answer : Option Answer) : c.ready ≠ [] → valid →
      (∀ a, ¬ Chosen c.ready answer a) →
      Round valid blocked windowId c (.ok false)
        (((c.answering request answer).failing windowId).publishing windowId .workflowWindowFailed)
  | refusedUntold (request : OrchestrationRequestV1 R.floats) (answer : Option Answer) (r : Except String Bool) :
      c.ready ≠ [] → valid → (∀ a, ¬ Chosen c.ready answer a) → blocked → r ≠ .ok true →
      Round valid blocked windowId c r ((c.answering request answer).failing windowId)
  | dispatchRaised (request : OrchestrationRequestV1 R.floats) (answer : Option Answer) (a : AgentId) (e : String) :
      Chosen c.ready answer a → blocked → Round valid blocked windowId c (.error e) (c.answering request answer)
  | executed (request : OrchestrationRequestV1 R.floats) (answer : Option Answer) (a : AgentId) (c' : Control R) :
      valid → Asked c.ready request → Chosen c.ready answer a → Executed a ((c.answering request answer).noting (.executing a)) c' →
      Round valid blocked windowId c (.ok true) c'
  | failed (request : OrchestrationRequestV1 R.floats) (answer : Option Answer) (a : AgentId) (d : Bool) :
      valid → Asked c.ready request → Chosen c.ready answer a →
      Round valid blocked windowId c (.ok false)
        (({ (c.answering request answer).noting (.executing a) with deviceRisk := d } : Control R).failing windowId)
  | failureRaised (request : OrchestrationRequestV1 R.floats) (answer : Option Answer) (a : AgentId) (d : Bool) (e : String) :
      Asked c.ready request → Chosen c.ready answer a → blocked →
      Round valid blocked windowId c (.error e) { (c.answering request answer).noting (.executing a) with deviceRisk := d }

variable (E : Environment R F σ δ π ρ) (call : Call ρ)

theorem publish_ends (data : EventData R) (entityId ts : Option String) (s : World R F σ δ π) :
    Ends (publish E call data entityId ts) s fun r s' => science s' = science s ∧
      (r = .ok true ∧ (control s' = if isWindowEvent data.eventType then
          (control s).publishing call.windowId data.eventType else control s) ∨
        r ≠ .ok true ∧ Blocked E ∧ control s' = control s) := by
  unfold Ends WorkflowService.publish
  simp only
  split
  · rename_i e env hpublish
    exact ⟨rfl, .inr ⟨by simp, ⟨_, _, by rw [hpublish]; simp⟩, rfl⟩⟩
  · refine ⟨rfl, .inl ⟨rfl, ?_⟩⟩
    simp only [control, windowEvents, List.filter_append, List.map_append, Control.publishing]
    split
    · rename_i hwindow
      simp [hwindow]
    · rename_i hquiet
      simp [hquiet]
  · rename_i env hpublish
    exact ⟨rfl, .inr ⟨by simp, ⟨_, _, by rw [hpublish]; simp⟩, rfl⟩⟩

/-- The events of a window's course leave the views alone. -/
theorem publish_quiet {data : EventData R} (h : isWindowEvent data.eventType = false) (entityId ts : Option String)
    (s : World R F σ δ π) :
    Ends (publish E call data entityId ts) s fun r s' => both s' = both s ∧ (r = .ok true ∨ Blocked E) := by
  refine (publish_ends E call data entityId ts s).mono fun r s' ⟨hscience, hcontrol⟩ => ?_
  rw [h] at hcontrol
  rcases hcontrol with ⟨hok, hsame⟩ | ⟨-, hblocked, hsame⟩
  · exact ⟨Prod.ext hsame hscience, .inl hok⟩
  · exact ⟨Prod.ext hsame hscience, .inr hblocked⟩

theorem publishWindow_quiet {data : EventData R} (h : isWindowEvent data.eventType = false) (ts : Option String)
    (s : World R F σ δ π) :
    Ends (publishWindow E call data ts) s fun r s' => both s' = both s ∧ (r = .ok () ∨ Blocked E) := by
  refine ends_bind (publish_quiet E call h _ ts s) (fun b s' h' => ⟨h'.1, .inl rfl⟩) fun e s' h' => ⟨h'.1, .inr ?_⟩
  exact h'.2.resolve_left (by simp)

theorem publishWindow_ends {data : EventData R} (h : isWindowEvent data.eventType = true) (ts : Option String)
    (s : World R F σ δ π) :
    Ends (publishWindow E call data ts) s fun r s' => science s' = science s ∧
      (r = .ok () ∧ control s' = (control s).publishing call.windowId data.eventType ∨
        Blocked E ∧ control s' = control s) := by
  refine ends_bind (publish_ends E call data _ ts s) (fun b s' h' => ⟨h'.1, ?_⟩) fun e s' h' => ⟨h'.1, ?_⟩
  · rcases h'.2 with ⟨-, hsame⟩ | ⟨-, hblocked, hsame⟩
    · rw [h] at hsame
      exact .inl ⟨rfl, hsame⟩
    · exact .inr ⟨hblocked, hsame⟩
  · rcases h'.2 with ⟨hok, -⟩ | ⟨-, hblocked, hsame⟩
    · cases hok
    · exact .inr ⟨hblocked, hsame⟩

theorem traceEvents_quiet (request : OrchestrationRequestV1 R.floats) (answer : Answer) :
    ∀ e ∈ traceEvents request answer, isWindowEvent e.1.eventType = false := by
  intro e he
  simp only [traceEvents, List.mem_append, List.mem_map, List.mem_cons, List.not_mem_nil, or_false] at he
  rcases he with ((((((⟨x, -, rfl⟩ | ⟨x, -, rfl⟩) | ⟨x, -, rfl⟩) | ⟨x, -, rfl⟩) | ⟨x, -, rfl⟩) | ⟨x, -, rfl⟩) | rfl | rfl)
  all_goals try rfl
  split <;> rfl

theorem trace_ends (request : OrchestrationRequestV1 R.floats) (answer : Answer) (s : World R F σ δ π) :
    Ends (publishOrchestrationTrace E call request answer) s fun r s' => both s' = both s ∧ (r = .ok () ∨ Blocked E) := by
  refine ends_each (fun _ s' => both s' = both s) (fun done x rest s₁ hl h₁ => ?_) (fun s₁ h₁ => ⟨h₁, .inl rfl⟩) rfl
  have hquiet := traceEvents_quiet request answer x (hl ▸ List.mem_append_right _ List.mem_cons_self)
  refine ends_bind (publish_quiet E call hquiet _ _ s₁) (fun b s₂ h₂ => h₂.1.trans h₁) fun e s₂ h₂ => ⟨h₂.1.trans h₁, .inr ?_⟩
  exact h₂.2.resolve_left (by simp)

theorem fresh_ends {α : Type} (op : σ → α × σ) (s : World R F σ δ π) :
    Ends (fresh op : Work R F σ δ π α) s fun r s' => (∃ a, r = .ok a) ∧ both s' = both s := ⟨⟨_, rfl⟩, rfl⟩

/-- The request of a dispatch and its answer, once the request is noted. -/
theorem adjudicate_ends (request : OrchestrationRequestV1 R.floats) (requestPublished : Bool) (s : World R F σ δ π) :
    Ends (do
      let answer ← attempt (do
          let answer ← ask (E.adjudicate request)
          return some answer) fun e => do
        if requestPublished then
          let _ ← publish E call (.adjudicationError request.requestId request.roundId e) none request.logicalTimestamp
        return none
      match answer with
      | none => return none
      | some answer =>
        if requestPublished then publishOrchestrationTrace E call request answer
        return some answer : Work R F σ δ π (Option Answer)) s
      fun r s' => both s' = both s ∧ ∀ e, r = .error e → Blocked E := by
  have hasked : Ends (attempt (do
      let answer ← ask (E.adjudicate request)
      return some answer) fun e => do
        if requestPublished then
          let _ ← publish E call (.adjudicationError request.requestId request.roundId e) none request.logicalTimestamp
        return none : Work R F σ δ π (Option Answer)) s
      fun r s' => both s' = both s ∧ ∀ e, r = .error e → Blocked E := by
    refine ends_attempt (M := fun _ s' => both s' = both s) ?_ (fun a s₁ h₁ => ⟨h₁, nofun⟩) fun e s₁ h₁ => ?_
    · exact ends_keeps (Keeps.bind (ask_keeps _) fun a => keeps_pure _)
    · cases requestPublished with
      | false => exact ⟨h₁, nofun⟩
      | true =>
        refine ends_bind (publish_quiet E call rfl _ _ s₁) (fun b s₂ h₂ => ⟨h₂.1.trans h₁, nofun⟩) fun e' s₂ h₂ => ?_
        exact ⟨h₂.1.trans h₁, fun _ _ => h₂.2.resolve_left (by simp)⟩
  refine ends_bind hasked (fun answer s₁ h₁ => ?_) fun e s₁ h₁ => ⟨h₁.1, fun _ _ => h₁.2 e rfl⟩
  cases answer with
  | none => exact ⟨h₁.1, nofun⟩
  | some answer =>
    cases requestPublished with
    | false => exact ⟨h₁.1, nofun⟩
    | true =>
      refine ends_bind (trace_ends E call request answer s₁) (fun b s₂ h₂ => ⟨h₂.1.trans h₁.1, nofun⟩) fun e s₂ h₂ => ?_
      exact ⟨h₂.1.trans h₁.1, fun _ _ => h₂.2.resolve_left (by simp)⟩

/-- A dispatch asks once, and notes its request. -/
theorem dispatch_ends (ts : String) {ready : List AgentId} (hready : ready ≠ []) (hnodup : ready.Nodup) (s : World R F σ δ π) :
    Ends (dispatchViaOrchestration E call ts ready) s fun r s' => ∃ request,
      control s' = (control s).noting (.requested request) ∧ science s' = science s ∧ Asked ready request ∧
      (∀ a, r = .ok a → Addressable call ts) ∧ (∀ e, r = .error e → ¬ Addressable call ts ∨ Blocked E) := by
  unfold dispatchViaOrchestration
  rw [if_neg (by simpa using hready)]
  refine ends_bind (fresh_ends E.hex6 s) (fun requestHex s₁ h₁ => ?_) (by simp)
  refine ends_bind (fresh_ends E.hex6 s₁) (fun roundHex s₂ h₂ => ?_) (by simp)
  have hsame : both s₂ = both s := h₂.2.trans h₁.2
  have hcontrol : control s₂ = control s := congrArg Prod.fst hsame
  have hscience : science s₂ = science s := congrArg Prod.snd hsame
  have hasked : Asked ready (dispatchRequest (R := R) call ts ready requestHex.text roundHex.text) := rfl
  have hiff := valid_dispatch (R := R) call ts hready hnodup requestHex roundHex
  generalize dispatchRequest (R := R) call ts ready requestHex.text roundHex.text = request at hasked hiff ⊢
  refine ends_bind (M := fun r s₃ => r = .ok () ∧ control s₃ = (control s).noting (.requested request) ∧
    science s₃ = science s) ⟨rfl, by rw [← hcontrol]; rfl, hscience⟩ (fun _ s₃ h₃ => ?_) (by simp)
  obtain ⟨-, hnoted, hscience₃⟩ := h₃
  cases hvalid : runChecks (requestChecks R request) with
  | error message =>
    refine ⟨request, hnoted, hscience₃, hasked, fun _ hr => (by cases hr), fun _ _ => .inl ?_⟩
    rw [← hiff, Valid, hvalid]
    intro hvalid'
    cases hvalid'
  | ok u =>
    have hdone : ∀ {r : Except String (Option Answer)} {s' : World R F σ δ π}, both s' = both s₃ →
        (∀ e, r = .error e → Blocked E) → ∃ request, control s' = (control s).noting (.requested request) ∧
          science s' = science s ∧ Asked ready request ∧ (∀ a, r = .ok a → Addressable call ts) ∧ (∀ e, r = .error e → ¬ Addressable call ts ∨ Blocked E) :=
      fun hboth hraised => ⟨request, (congrArg Prod.fst hboth).trans hnoted, (congrArg Prod.snd hboth).trans hscience₃,
        hasked, fun _ _ => hiff.mp hvalid, fun e he => .inr (hraised e he)⟩
    cases horchestrated : E.orchestrated with
    | false => exact hdone rfl fun _ he => by cases he
    | true =>
      refine ends_bind (publish_quiet E call rfl _ _ s₃) (fun b s₄ h₄ => ?_) fun e s₄ h₄ =>
        hdone h₄.1 fun _ _ => h₄.2.resolve_left (by simp)
      exact (adjudicate_ends E call request b s₄).mono fun r s₅ h₅ => hdone (h₅.1.trans h₄.1) h₅.2

theorem statuses_setStatus (windows : List WorkflowWindowState) (windowId : Int) (status : WindowStatus) :
    statuses (windows.map fun w => if w.windowId = windowId then { w with status := status } else w) =
      (statuses windows).map fun e => if e.1 = windowId then (e.1, status) else e := by
  simp only [statuses, List.map_map]
  refine List.map_congr_left fun w _ => ?_
  by_cases hw : w.windowId = windowId <;> simp [hw]

theorem setStatus_ends (windowId : Int) (status : WindowStatus) (s : World R F σ δ π) :
    Ends (setStatus windowId status : Work R F σ δ π Unit) s fun r s' =>
      r = .ok () ∧ control s' = (control s).setting windowId status ∧ science s' = science s := by
  refine ⟨rfl, ?_, rfl⟩
  change (⟨_, _, _, _, statuses (s.windows.map fun w => if w.windowId = windowId then { w with status := status } else w), _⟩ :
    Control R) = _
  rw [statuses_setStatus]
  rfl

theorem onWindow_ends (windowId : Int) {f : WorkflowWindowState → WorkflowWindowState}
    (h : ∀ w, (f w).windowId = w.windowId ∧ (f w).status = w.status) (s : World R F σ δ π) :
    Ends (onWindow windowId f : Work R F σ δ π Unit) s fun r s' => r = .ok () ∧ both s' = both s :=
  ⟨rfl, onWindow_keeps windowId h s⟩

theorem addFailure_ends (failure : Failure) (s : World R F σ δ π) :
    Ends (addFailure call failure : Work R F σ δ π Unit) s fun r s' => r = .ok () ∧ both s' = both s := by
  refine onWindow_ends _ (fun w => ?_) s
  exact ⟨rfl, rfl⟩

/-- A window fails, and tells so. -/
theorem refusal_ends (failure : Failure) {data : EventData R} (hdata : data.eventType = .workflowWindowFailed)
    (s : World R F σ δ π) :
    Ends (do
      addFailure call failure
      setStatus call.windowId .failed
      publishWindow E call data none
      return false : Work R F σ δ π Bool) s fun r s' => science s' = science s ∧ r ≠ .ok true ∧
        (r = .ok false ∧ control s' = ((control s).failing call.windowId).publishing call.windowId .workflowWindowFailed ∨
          Blocked E ∧ control s' = (control s).failing call.windowId) := by
  refine ends_bind (addFailure_ends call failure s) (fun _ s₁ h₁ => ?_) (by simp)
  refine ends_bind (setStatus_ends call.windowId .failed s₁) (fun _ s₂ h₂ => ?_) (by simp)
  have hcontrol : control s₂ = (control s).failing call.windowId := by
    rw [h₂.2.1, show control s₁ = control s from congrArg Prod.fst h₁.2, Control.failing]
  have hscience : science s₂ = science s := h₂.2.2.trans (congrArg Prod.snd h₁.2)
  refine ends_bind (publishWindow_ends E call (by rw [hdata]; rfl) none s₂) (fun _ s₃ h₃ => ?_) fun e s₃ h₃ => ?_
  · refine ⟨h₃.1.trans hscience, nofun, ?_⟩
    rcases h₃.2 with ⟨-, htold⟩ | ⟨hblocked, hsame⟩
    · rw [hdata, hcontrol] at htold
      exact .inl ⟨rfl, htold⟩
    · exact .inr ⟨hblocked, hsame.trans hcontrol⟩
  · refine ⟨h₃.1.trans hscience, by simp, ?_⟩
    rcases h₃.2 with ⟨hok, -⟩ | ⟨hblocked, hsame⟩
    · cases hok
    · exact .inr ⟨hblocked, hsame.trans hcontrol⟩

variable [RiskNumber F]

/-- What the execution of a chosen agent ends in. -/
inductive Ran (blocked : Prop) (windowId : Int) (a : AgentId) (c : Control R) : Except String Bool → Control R → Prop where
  | raised (e : String) : blocked → Ran blocked windowId a c (.error e) c
  | executed (c' : Control R) : Executed a (c.noting (.executing a)) c' → Ran blocked windowId a c (.ok true) c'
  | failed (d : Bool) : Ran blocked windowId a c (.ok false)
      (({ c.noting (.executing a) with deviceRisk := d } : Control R).failing windowId)
  | failureRaised (d : Bool) (e : String) : blocked →
      Ran blocked windowId a c (.error e) { c.noting (.executing a) with deviceRisk := d }

theorem executeAgent_ends (ts : String) (a : AgentId) (answer : Answer) (selected : String) (s : World R F σ δ π) :
    Ends (executeAgent E call ts a answer selected) s fun r s' => Ran (Blocked E) call.windowId a (control s) r (control s') := by
  refine ends_bind (fresh_ends E.uuid4 s) (fun dispatchId s₁ h₁ => ?_) (by simp)
  refine ends_bind (onWindow_ends _ (fun w => ?_) s₁) (fun _ s₂ h₂ => ?_) fun e s₂ h₂ => by cases h₂.1
  · exact ⟨rfl, rfl⟩
  have hboth₂ : both s₂ = both s := h₂.2.trans h₁.2
  have hraised : ∀ {s' : World R F σ δ π} (e : String), both s' = both s → Blocked E →
      Ran (Blocked E) call.windowId a (control s) (.error e) (control s') := by
    intro s' e hboth hblocked
    rw [show control s' = control s from congrArg Prod.fst hboth]
    exact .raised e hblocked
  refine ends_bind (publishWindow_quiet E call rfl none s₂) (fun _ s₃ h₃ => ?_) fun e s₃ h₃ =>
    hraised e (h₃.1.trans hboth₂) (h₃.2.resolve_left (by simp))
  refine ends_bind (publishWindow_quiet E call rfl none s₃) (fun _ s₄ h₄ => ?_) fun e s₄ h₄ =>
    hraised e (h₄.1.trans (h₃.1.trans hboth₂)) (h₄.2.resolve_left (by simp))
  have hcontrol₄ : control s₄ = control s := congrArg Prod.fst (h₄.1.trans (h₃.1.trans hboth₂))
  refine ends_bind (M := fun r s₅ => r = .ok () ∧ control s₅ = (control s).noting (.executing a))
    ⟨rfl, by rw [← hcontrol₄]; rfl⟩ (fun _ s₅ h₅ => ?_) (by simp)
  obtain ⟨-, hcontrol₅⟩ := h₅
  refine ends_attempt (M := fun r s₆ =>
    (∀ b, r = .ok b → b = true ∧ Executed a ((control s).noting (.executing a)) (control s₆)) ∧
    (∀ e, r = .error e → ∃ d, control s₆ = { (control s).noting (.executing a) with deviceRisk := d })) ?_ ?_ ?_
  · refine ends_bind (execute_spec E call ts dispatchId a s₅) (fun _ s₆ h₆ => ?_) fun e s₆ h₆ => ?_
    · simp only [hcontrol₅] at h₆
      refine ⟨fun b hb => ?_, fun e he => by cases he⟩
      cases hb
      exact ⟨rfl, h₆⟩
    · simp only [hcontrol₅] at h₆
      exact ⟨fun b hb => (by cases hb), fun e he => h₆⟩
  · intro b s₆ h₆
    obtain ⟨rfl, hran⟩ := h₆.1 b rfl
    exact .executed _ hran
  · intro e s₆ h₆
    obtain ⟨d, h₆⟩ := h₆.2 e rfl
    refine ends_bind (addFailure_ends call _ s₆) (fun _ s₇ h₇ => ?_) (by simp)
    have hcontrol₇ : control s₇ = { (control s).noting (.executing a) with deviceRisk := d } :=
      (congrArg Prod.fst h₇.2).trans h₆
    refine ends_bind (publishWindow_quiet E call rfl none s₇) (fun _ s₈ h₈ => ?_) fun e' s₈ h₈ => ?_
    · have hcontrol₈ : control s₈ = control s₇ := congrArg Prod.fst h₈.1
      refine ends_bind (setStatus_ends call.windowId .failed s₈) (fun _ s₉ h₉ => ?_) (by simp)
      change Ran _ _ _ _ (.ok false) (control s₉)
      rw [h₉.2.1, hcontrol₈, hcontrol₇]
      exact .failed d
    · rw [show control s₈ = control s₇ from congrArg Prod.fst h₈.1, hcontrol₇]
      exact .failureRaised d e' (h₈.2.resolve_left (by simp))

/-- Only the route of a ready agent gets past the checks of an answer. -/
theorem selected_spec (answer : Option Answer) (ready : List AgentId) :
    (∀ a, ¬ Chosen ready answer a) ∧ (selectedRoute answer = none ∨ ∃ ans selected,
      selectedRoute answer = some (ans, selected) ∧
        (selected.bind fun route => if route ∈ ready.map agentToRoute then some route else none) = none) ∨
    ∃ ans a, selectedRoute answer = some (ans, some (agentToRoute a)) ∧ Chosen ready answer a := by
  cases answer with
  | none => exact .inl ⟨fun a ⟨_, h, _⟩ => (nomatch h), .inl rfl⟩
  | some ans =>
    by_cases hdecided : ans.decision.outcome = .decided
    · have hroute : selectedRoute (some ans) = some (ans, ans.decision.selectedRouteId) := if_pos hdecided
      by_cases hin : ∃ a ∈ ready, ans.decision.selectedRouteId = some (agentToRoute a)
      · obtain ⟨a, ha, hselected⟩ := hin
        exact .inr ⟨ans, a, by rw [hroute, hselected], ans, rfl, hdecided, hselected, ha⟩
      · refine .inl ⟨?_, .inr ⟨ans, ans.decision.selectedRouteId, hroute, ?_⟩⟩
        · rintro a ⟨ans', hans, -, hselected, ha⟩
          cases hans
          exact hin ⟨a, ha, hselected⟩
        · cases hselected : ans.decision.selectedRouteId with
          | none => rfl
          | some route =>
            refine if_neg fun hmem => ?_
            obtain ⟨a, ha, rfl⟩ := List.mem_map.mp hmem
            exact hin ⟨a, ha, hselected⟩
    · refine .inl ⟨?_, .inl (if_neg hdecided)⟩
      rintro a ⟨ans', hans, hdec, -⟩
      cases hans
      exact hdecided hdec

/-- A round of the loop does to the control what a round can do. -/
theorem dispatchRound_spec (ts : String) (s : World R F σ δ π) :
    Ends (dispatchRound E call ts) s fun r s' => Round (Addressable call ts) (Blocked E) call.windowId (control s) r (control s') := by
  refine ends_bind (M := fun r s' => r = .ok s.frame ∧ s' = s) ⟨rfl, rfl⟩ ?_ (by simp)
  rintro frame s' ⟨hframe, rfl⟩
  cases hframe
  by_cases hready : (control s').ready = []
  · have hempty : (readyAgents s'.frame.completed s'.frame.deviceRiskAvailable s'.frame.riskRecAvailable).isEmpty = true := by
      rw [List.isEmpty_iff]
      exact hready
    simp only [hempty, if_true]
    exact .idle hready
  have hnonempty : ¬ (readyAgents s'.frame.completed s'.frame.deviceRiskAvailable s'.frame.riskRecAvailable).isEmpty = true := by
    rw [List.isEmpty_iff]
    exact hready
  simp only [if_neg hnonempty]
  change Ends (dispatchViaOrchestration E call ts (control s').ready >>= _) s' _
  refine ends_bind (dispatch_ends E call ts hready (ready_nodup _ _ _) s') (fun answer s₁ h₁ => ?_) fun e s₁ h₁ => ?_
  · obtain ⟨request, hcontrol₁, -, hasked, hvalid, -⟩ := h₁
    have hvalid := hvalid answer rfl
    refine ends_bind (M := fun r s₂ => r = .ok () ∧ control s₂ = (control s').answering request answer)
      ⟨rfl, by rw [Control.answering, ← hcontrol₁]; rfl⟩ (fun _ s₂ h₂ => ?_) (by simp)
    obtain ⟨-, hcontrol₂⟩ := h₂
    have hrefused : (∀ a, ¬ Chosen (control s').ready answer a) → ∀ {r : Except String Bool} {s₃ : World R F σ δ π},
        (science s₃ = science s₂ ∧ r ≠ .ok true ∧
          (r = .ok false ∧ control s₃ = ((control s₂).failing call.windowId).publishing call.windowId .workflowWindowFailed ∨
            Blocked E ∧ control s₃ = (control s₂).failing call.windowId)) →
        Round (Addressable call ts) (Blocked E) call.windowId (control s') r (control s₃) := by
      rintro hnone r s₃ ⟨-, hr, hend⟩
      rcases hend with ⟨rfl, hend⟩ | ⟨hblocked, hend⟩
      · rw [hend, hcontrol₂]
        exact .refused request answer hready hvalid hnone
      · rw [hend, hcontrol₂]
        exact .refusedUntold request answer r hready hvalid hnone hblocked hr
    unfold settleAnswer
    rcases selected_spec answer (control s').ready with ⟨hnone, hsel⟩ | ⟨ans, a, hsel, hchosen⟩
    · rcases hsel with hsel | ⟨ans, selected, hsel, hout⟩
      · simp only [hsel]
        exact (refusal_ends E call _ rfl s₂).mono fun r s₃ h₃ => hrefused hnone h₃
      · simp only [hsel]
        have hnobody : (selected.bind fun route =>
            if route ∈ (readyAgents s'.frame.completed s'.frame.deviceRiskAvailable s'.frame.riskRecAvailable).map agentToRoute
            then some route else none) = none := hout
        simp only [hnobody]
        exact (refusal_ends E call _ rfl s₂).mono fun r s₃ h₃ => hrefused hnone h₃
    · have hin : a ∈ (control s').ready := by
        obtain ⟨_, _, _, _, ha⟩ := hchosen
        exact ha
      have hroute : ((some (agentToRoute a)).bind fun route =>
          if route ∈ (readyAgents s'.frame.completed s'.frame.deviceRiskAvailable s'.frame.riskRecAvailable).map agentToRoute
          then some route else none) = some (agentToRoute a) :=
        if_pos (List.mem_map.mpr ⟨a, hin, rfl⟩)
      simp only [hsel, hroute, routeToAgent_agentToRoute]
      change Ends (if a ∈ (control s').ready then _ else _) s₂ _
      rw [if_pos hin]
      refine (executeAgent_ends E call ts a ans _ s₂).mono fun r s₃ h₃ => ?_
      rw [hcontrol₂] at h₃
      generalize control s₃ = c₃ at h₃
      cases h₃ with
      | raised e hblocked => exact .dispatchRaised request answer a e hchosen hblocked
      | executed c' hexecuted => exact .executed request answer a c₃ hvalid hasked hchosen hexecuted
      | failed d => exact .failed request answer a d hvalid hasked hchosen
      | failureRaised d e hblocked => exact .failureRaised request answer a d e hasked hchosen hblocked
  · obtain ⟨request, hcontrol₁, -, -, -, hraised⟩ := h₁
    rw [hcontrol₁]
    exact .requestRaised request e hready (hraised e rfl)

end Rounds

end WorkflowDispatch
