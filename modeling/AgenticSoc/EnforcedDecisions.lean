import AgenticSoc.AccessDecisions
import AgenticSoc.ReplaySteps
import AgenticSoc.WorkflowScience

/-!
# The decisions of a window

The decisions that a window commits follow from the states of its devices, whatever is
dispatched when and whatever fails. A window in which all agents have completed has decided
about each protected device with an accepted finding.
-/
namespace EnforcedDecisions

open Procedure WorkflowReadiness WorkflowGateway DeviceAbm FindingGateway WorkflowService WorkflowDispatch WorkflowSteps
open OrchestrationMessages (Runtime)
open BlackboardRecord (runChecks)
open EventPublishing (ReplayEventType)
open AccessDecisions

section Staffed

variable {P : Type} {R : Runtime P} {F σ κ δ π ρ : Type}

/-- The outside, with the recommendations of the analyst as the objects they are and what the
committer keeps. -/
structure Office (σ κ F : Type) where
  outside : σ
  riskRecs : String → Option (RiskAssessment F)
  ledger : κ

def onOutside {α : Type} (op : σ → α × σ) (o : Office σ κ F) : α × Office σ κ F :=
  ((op o.outside).1, { o with outside := (op o.outside).2 })

/-- Who decides in a window. -/
structure Staff (F κ : Type) where
  levels : RiskLevels F
  policy : Stage8PolicyConfig F
  checks : Checks F
  committer : Committer κ

def decisionIn : EventData R → Option EnforcementDecisionV1
  | .enforcementDecisionCommitted d => some d
  | _ => none

/-- The decisions that were published as committed. -/
def decisionsOf (published : List (WorkflowEvent R)) : List EnforcementDecisionV1 :=
  published.filterMap fun e => decisionIn e.data

/-- The papers that pass between the last three agents, and the decisions they end in. -/
structure Papers (F : Type) where
  available : Bool
  threatCorrs : List (String × ThreatCorrelationV1)
  riskRecs : List (String × RiskRecommendationV1)
  objects : String → Option (RiskAssessment F)
  decisions : List EnforcementDecisionV1

def papers (s : World R F (Office σ κ F) δ π) : Papers F :=
  ⟨s.frame.deviceRiskAvailable, s.frame.threatCorrs, s.frame.riskRecs, s.env.riskRecs, decisionsOf s.published⟩

abbrev Doing (R : Runtime P) (F σ κ δ π α : Type) := Work R F (Office σ κ F) δ π α

/-- A propagation would change nothing. -/
def Settled [RiskNumber F] (abm : Abm F) : Prop := abm.propagate = .ok abm

/-! ## What leaves the papers alone -/

theorem ask_papers {α : Type} (op : σ → Except String α × σ) : Keeps papers (ask (onOutside op) : Doing R F σ κ δ π α) :=
  fun _ => rfl

theorem fresh_papers {α : Type} (op : σ → α × σ) : Keeps papers (fresh (onOutside op) : Doing R F σ κ δ π α) := fun _ => rfl

theorem onWindow_papers (windowId : Int) (f : WorkflowWindowState → WorkflowWindowState) :
    Keeps papers (onWindow windowId f : Doing R F σ κ δ π Unit) := fun _ => rfl

theorem noteHappening_papers (h : Happening R) : Keeps papers (noteHappening h : Doing R F σ κ δ π Unit) := fun _ => rfl

theorem onAbm_papers (f : Abm F → Abm F) : Keeps papers (onAbm f : Doing R F σ κ δ π Unit) := fun _ => rfl

theorem mayFail_papers (fault : σ → Option String × σ) : Keeps papers (mayFail (onOutside fault) : Doing R F σ κ δ π Unit) := by
  intro s
  simp only [mayFail, onOutside]
  cases (fault s.env.outside).1 <;> rfl

variable [RiskNumber F] (E : Environment R F σ δ π ρ) (staff : Staff F κ)

/-- The environment in which the analyst, the controller and the committer are those of the
workflow. All else is as outside. -/
def staffed : Environment R F (Office σ κ F) δ π ρ where
  hex6 := onOutside E.hex6
  uuid4 := onOutside E.uuid4
  utcNow := onOutside E.utcNow
  validTimestamp := E.validTimestamp
  orchestrated := E.orchestrated
  blackboardEnabled := E.blackboardEnabled
  safe := E.safe
  publish event := onOutside (E.publish event)
  adjudicate request := onOutside (E.adjudicate request)
  findingsFromRecords := E.findingsFromRecords
  predictRecord := E.predictRecord
  onFinding f := onOutside (E.onFinding f)
  propagateFault := onOutside E.propagateFault
  snapshotFault := onOutside E.snapshotFault
  spillFault := onOutside E.spillFault
  correlate scope findings := onOutside (E.correlate scope findings)
  analyze scope st corr o :=
    let (id, o) := onOutside E.uuid4 o
    match analyze staff.levels staff.checks scope id st corr.toList with
    | .error e => (.error e, o)
    | .ok a => (.ok a.toRiskRecommendationV1,
        { o with riskRecs := fun entityId => if entityId = scope.entityId then some a else o.riskRecs entityId })
  decide scope _ corr o :=
    let (id, o) := onOutside E.uuid4 o
    match o.riskRecs scope.entityId with
    | none => (.error "KeyError", o)
    | some a => (decide staff.policy staff.checks scope id a corr.toList, o)
  recordWorkflowOutput scope output := onOutside (E.recordWorkflowOutput scope output)
  commit scope rec o :=
    let (id, o) := onOutside E.uuid4 o
    let out := staff.committer.commit
      ⟨workflowIdOf scope.replayId, scope.replayId, scope.windowId, scope.logicalTimestamp, scope.entityId, rec, id, true, true⟩
      o.ledger
    (out.1, { o with ledger := out.2 })

variable (call : Call ρ)

theorem publish_papers {data : EventData R} (h : decisionIn data = none) (entityId ts : Option String) :
    Keeps papers (publish (staffed E staff) call data entityId ts) := by
  intro s
  have hnone : decisionsOf (s.published ++ [⟨call.replayId, call.windowId, entityId, ts, data⟩]) = decisionsOf s.published := by
    simp [decisionsOf, h]
  simp only [publish, staffed, onOutside]
  cases (E.publish ⟨call.replayId, call.windowId, entityId, ts, data⟩ s.env.outside).1 with
  | error e => rfl
  | ok published =>
    cases published with
    | true =>
      simp only [papers]
      rw [hnone]
    | false => rfl

theorem publishWindow_papers {data : EventData R} (h : decisionIn data = none) (ts : Option String) :
    Keeps papers (publishWindow (staffed E staff) call data ts) :=
  (publish_papers E staff call h _ ts).bind fun _ => keeps_pure ()

theorem submitOutput_papers (label : String) (expected : Expected) (entityId : String) (o : Output) :
    Keeps papers (submitOutput (staffed E staff) label expected entityId o) := by
  refine (keeps_read _).bind fun outputs => ?_
  dsimp only
  refine Keeps.bind (fun _ => rfl) fun _ => ?_
  split
  · exact keeps_pure ()
  · exact keeps_raise _

theorem recordOutput_papers (label ts entityId : String) (o : Output) :
    Keeps papers (recordOutput (staffed E staff) call label ts entityId o) := by
  unfold recordOutput
  split
  · refine (ask_papers _).bind fun outcome => ?_
    split
    · exact keeps_pure ()
    · exact keeps_raise _
  · exact keeps_pure ()

theorem publishCompleted_papers (a : AgentId) (dispatchId : String) (findings : Option Nat) :
    Keeps papers (publishCompleted (staffed E staff) call a dispatchId findings) :=
  (fresh_papers _).bind fun _ => (onWindow_papers _ _).bind fun _ => publishWindow_papers E staff call rfl none

/-! ## The detectors -/

theorem submitFinding_papers (f : Finding F) : Keeps papers (submitFinding (staffed E staff) f : Doing R F σ κ δ π Bool) := by
  intro s
  unfold submitFinding
  split <;> rfl

theorem gatherFinding_papers (f : Finding F) : Keeps papers (gatherFinding (staffed E staff) f : Doing R F σ κ δ π Bool) := by
  refine (submitFinding_papers E staff f).bind fun accepted => ?_
  cases accepted with
  | true => exact Keeps.bind (fun _ => rfl) fun _ => keeps_pure _
  | false => exact keeps_pure _

theorem networkWork_papers (dispatchId : String) : Keeps papers (networkWork (staffed E staff) call dispatchId) := by
  unfold networkWork
  dsimp only
  split
  · exact publishWindow_papers E staff call rfl none
  · refine Keeps.bind (fun _ => rfl) fun findings => ?_
    refine Keeps.bind (keeps_each fun f _ => ?_) fun _ => publishCompleted_papers E staff call _ dispatchId _
    exact (gatherFinding_papers E staff (.network f)).bind fun _ => keeps_pure _

theorem profileRows_papers (contextActive : Bool) (rows : List (Row ρ)) (accepted : Nat) :
    Keeps papers (profileRows (staffed E staff) call contextActive rows accepted) := by
  induction rows generalizing accepted with
  | nil => exact keeps_pure _
  | cons row rows ih =>
    refine Keeps.bind (fun _ => rfl) fun finding => ?_
    cases finding with
    | none => exact ih accepted
    | some f => exact (gatherFinding_papers E staff (.behavior f)).bind fun ok => ih _

theorem behaviorWork_papers (dispatchId : String) : Keeps papers (behaviorWork (staffed E staff) call dispatchId) :=
  (profileRows_papers E staff call _ _ 0).bind fun _ => publishCompleted_papers E staff call _ dispatchId _

theorem propagate_papers : Keeps papers (propagate (staffed E staff)) := by
  refine (mayFail_papers _).bind fun _ => (keeps_read _).bind fun abm => ?_
  split
  · exact keeps_raise _
  · exact (onAbm_papers _).bind fun _ => fun _ => rfl

theorem recordStep_papers : Keeps papers (recordStep (staffed E staff)) := by
  refine (onAbm_papers _).bind fun _ => (mayFail_papers _).bind fun _ => (keeps_read _).bind fun abm => ?_
  exact (onAbm_papers _).bind fun _ => Keeps.bind (fun _ => rfl) fun _ => mayFail_papers _

omit [RiskNumber F] in
/-- What a procedure ends in, and what it keeps. -/
theorem ends_with {ε τ α γ : Type} {p : Proc ε τ α} {s : τ} {Q : Except ε α → τ → Prop} {view : τ → γ} (h : Ends p s Q)
    (hkeeps : Keeps view p) : Ends p s fun r s' => Q r s' ∧ view s' = view s := ⟨h, hkeeps s⟩

/-- The join makes the risks available when it has propagated them. -/
theorem join_papers (s : World R F (Office σ κ F) δ π) :
    Ends (joinDetectors (staffed E staff) call) s fun _ s' =>
      s'.frame.completed = s.frame.completed ∧ (papers s' = papers s ∨ bothDetectors s.frame.completed ∧
        papers s' = { papers s with available := true } ∧ Settled s'.gateway.abm) := by
  refine ends_bind (M := fun r s' => r = .ok s.frame.completed ∧ s' = s) ⟨rfl, rfl⟩ ?_ (by simp)
  rintro completed s' ⟨hr, rfl⟩
  cases hr
  split
  · rename_i hboth
    refine ends_attempt (M := fun r s'' => s''.frame.completed = s'.frame.completed ∧ match r with
      | .ok _ => papers s'' = { papers s' with available := true } ∧ Settled s''.gateway.abm
      | .error _ => papers s'' = papers s') ?_ (fun _ s'' h => ⟨h.1, .inr ⟨hboth, h.2⟩⟩) fun _ s'' h => ⟨h.1, .inl h.2⟩
    refine ends_bind (M := fun _ s₁ => s₁ = { s' with gateway := GatewayOrder.current (some call.windowId) s'.gateway }) rfl ?_ ?_
    · rintro ⟨⟩ s₁ rfl
      refine ends_bind (ends_with (propagate_ends (staffed E staff) _) (propagate_papers E staff)) ?_ fun e s₂ h₂ =>
        ⟨congrArg Frame.completed h₂.1.1, h₂.2⟩
      rintro ⟨⟩ s₂ ⟨⟨hframe₂, -, -, hstats₂, -, hpropagated⟩, hpapers₂⟩
      refine ends_bind (ends_with (recordStep_ends (staffed E staff) s₂) (recordStep_papers E staff)) ?_ fun e s₃ h₃ =>
        ⟨congrArg Frame.completed (h₃.1.1.trans hframe₂), h₃.2.trans hpapers₂⟩
      rintro ⟨⟩ s₃ ⟨⟨hframe₃, hstats₃, -, habm₃⟩, hpapers₃⟩
      have hcompleted : s₃.frame.completed = s'.frame.completed := congrArg Frame.completed (hframe₃.trans hframe₂)
      have hpapers : papers s₃ = papers s' := hpapers₃.trans hpapers₂
      have hstepped : GatewayOrder.stepped call.windowId s'.gateway = some s₃.gateway := by
        unfold GatewayOrder.stepped
        rw [hpropagated]
        simp only [Option.some.injEq]
        rw [← habm₃, ← show s₃.gateway.stats = s'.gateway.stats from hstats₃.trans hstats₂]
      refine ends_bind (M := fun r s₄ => r = .ok () ∧ s₄ = { s₃ with frame := { s₃.frame with deviceRiskAvailable := true } })
        ⟨rfl, rfl⟩ ?_ ?_
      · rintro ⟨⟩ s₄ ⟨-, rfl⟩
        exact ends_update ⟨hcompleted, by rw [← hpapers]; rfl, GatewayOrder.propagate_stepped hstepped⟩
      · rintro e s₄ ⟨he, -⟩
        cases he
    · rintro e s₁ rfl
      exact ⟨rfl, rfl⟩
  · exact ends_pure ⟨rfl, .inl rfl⟩

omit [RiskNumber F] in
theorem traceEvents_undecided (request : OrchestrationMessages.OrchestrationRequestV1 R.floats) (answer : Answer) :
    ∀ e ∈ traceEvents request answer, decisionIn e.1 = none := by
  intro e he
  simp only [traceEvents, List.mem_append, List.mem_map, List.mem_cons, List.not_mem_nil, or_false] at he
  rcases he with ((((((⟨_, _, rfl⟩ | ⟨_, _, rfl⟩) | ⟨_, _, rfl⟩) | ⟨_, _, rfl⟩) | ⟨_, _, rfl⟩) | ⟨_, _, rfl⟩) | rfl | rfl)
  any_goals rfl
  split <;> rfl

theorem dispatch_papers (ts : String) (ready : List AgentId) :
    Keeps papers (dispatchViaOrchestration (staffed E staff) call ts ready) := by
  unfold dispatchViaOrchestration
  split
  · exact keeps_pure _
  refine (fresh_papers _).bind fun requestHex => (fresh_papers _).bind fun roundHex => ?_
  refine (noteHappening_papers _).bind fun _ => ?_
  split
  · exact keeps_raise _
  split
  · exact keeps_pure _
  refine (publish_papers E staff call rfl _ _).bind fun requestPublished => ?_
  refine Keeps.bind (Keeps.attempt ((ask_papers _).bind fun _ => keeps_pure _) fun e => ?_) fun answer => ?_
  · cases requestPublished with
    | true => exact (publish_papers E staff call rfl _ _).bind fun _ => keeps_pure _
    | false => exact keeps_pure _
  · cases answer with
    | none => exact keeps_pure _
    | some answer =>
      have htrace : Keeps papers (publishOrchestrationTrace (staffed E staff) call
          (dispatchRequest (R := R) call ts ready requestHex.text roundHex.text) answer) := by
        refine keeps_each fun e he => (publish_papers E staff call (traceEvents_undecided _ _ e he) _ _).bind fun _ => keeps_pure _
      cases requestPublished with
      | true => exact htrace.bind fun _ => keeps_pure _
      | false => exact keeps_pure _

/-! ## The keys of a table -/

omit [RiskNumber F] in
theorem mem_setKey {α : Type} {key : String} {value : α} {entries : List (String × α)} {e : String × α}
    (h : e ∈ setKey key value entries) : e = (key, value) ∨ e ∈ entries ∧ e.1 ≠ key := by
  unfold setKey at h
  split at h
  · obtain ⟨x, hx, rfl⟩ := List.mem_map.mp h
    by_cases hkey : x.1 = key
    · rw [if_pos hkey]
      exact .inl rfl
    · rw [if_neg hkey]
      exact .inr ⟨hx, hkey⟩
  · rename_i hnew
    rcases List.mem_append.mp h with h | h
    · refine .inr ⟨h, fun hkey => hnew (List.any_eq_true.mpr ⟨e, h, decide_eq_true hkey⟩)⟩
    · exact .inl (List.mem_singleton.mp h)

omit [RiskNumber F] in
theorem keys_setKey {α : Type} {key : String} {value : α} {entries : List (String × α)} {id : String} :
    id ∈ (setKey key value entries).map Prod.fst ↔ id ∈ entries.map Prod.fst ∨ id = key := by
  unfold setKey
  split
  · rename_i hold
    obtain ⟨x, hx, hkey⟩ := List.any_eq_true.mp hold
    have hsame : (entries.map fun e => if e.1 = key then (key, value) else e).map Prod.fst = entries.map Prod.fst := by
      rw [List.map_map]
      refine List.map_congr_left fun e _ => ?_
      by_cases he : e.1 = key <;> simp [he]
    rw [hsame, iff_self_or]
    rintro rfl
    exact List.mem_map.mpr ⟨x, hx, of_decide_eq_true hkey⟩
  · simp

omit [RiskNumber F] in
theorem getKey_some {α : Type} {key : String} {entries : List (String × α)} (h : key ∈ entries.map Prod.fst) :
    ∃ value, getKey key entries = some value ∧ (key, value) ∈ entries := by
  obtain ⟨x, hx, rfl⟩ := List.mem_map.mp h
  have hfound : (entries.find? fun e => e.1 = x.1).isSome := by
    rw [List.find?_isSome]
    exact ⟨x, hx, decide_eq_true rfl⟩
  obtain ⟨e, he⟩ := Option.isSome_iff_exists.mp hfound
  have hkey : e.1 = x.1 := by simpa using List.find?_some he
  refine ⟨e.2, by rw [getKey, he]; rfl, ?_⟩
  rw [← hkey]
  exact List.mem_of_find?_eq_some he

/-! ## The correlator -/

theorem not_returned {e : String} {p : Prop} (h : (.error e : Except String Unit) = .ok ()) : p := by
  cases h

/-- The correlation of a protected device is kept under it. -/
theorem threatEntity_ends (ts : String) (group : String × List (Finding F)) (s : World R F (Office σ κ F) δ π) :
    Ends (threatEntity (staffed E staff) call ts group) s fun r s' =>
      ∃ corrs, papers s' = { papers s with threatCorrs := corrs } ∧
        (r = .ok () → ∀ id, id ∈ corrs.map Prod.fst ↔ id ∈ (papers s).threatCorrs.map Prod.fst ∨
          id = group.1 ∧ s.gateway.abm.isProtected group.1 = true) := by
  have hsame : ∀ {r : Except String Unit} {s' : World R F (Office σ κ F) δ π}, papers s' = papers s →
      (r = .ok () → s.gateway.abm.isProtected group.1 = false) →
      ∃ corrs, papers s' = { papers s with threatCorrs := corrs } ∧
        (r = .ok () → ∀ id, id ∈ corrs.map Prod.fst ↔ id ∈ (papers s).threatCorrs.map Prod.fst ∨
          id = group.1 ∧ s.gateway.abm.isProtected group.1 = true) := by
    intro r s' hpapers hunprotected
    refine ⟨(papers s).threatCorrs, hpapers, fun hr id => ?_⟩
    simp [hunprotected hr]
  refine ends_bind (M := fun r s' => r = .ok s.gateway.abm ∧ s' = s) ⟨rfl, rfl⟩ ?_ (by simp)
  rintro abm s₁ ⟨habm, rfl⟩
  cases habm
  split
  · rename_i hnone
    exact ends_pure (hsame rfl fun _ => by rw [Abm.isProtected, hnone]; rfl)
  rename_i st hst
  split
  · rename_i hunprotected
    exact ends_pure (hsame rfl fun _ => by rw [Abm.isProtected, hst]; simpa using hunprotected)
  rename_i hprotected
  refine ends_bind (ends_keeps (ask_papers _)) (fun corr s₂ h₂ => ?_) fun e s₂ h₂ => hsame h₂ not_returned
  refine ends_bind (ends_keeps (submitOutput_papers E staff _ _ _ _)) (fun _ s₃ h₃ => ?_) fun e s₃ h₃ => hsame (h₃.trans h₂) not_returned
  refine ends_bind (ends_keeps (recordOutput_papers E staff call _ _ _ _)) (fun _ s₄ h₄ => ?_) fun e s₄ h₄ =>
    hsame (h₄.trans (h₃.trans h₂)) not_returned
  have hpapers : papers s₄ = papers s₁ := h₄.trans (h₃.trans h₂)
  refine ends_bind (M := fun _ s₅ => papers s₅ = { papers s₁ with threatCorrs := setKey group.1 corr (papers s₁).threatCorrs })
    (by rw [← hpapers]; rfl) (fun _ s₅ h₅ => ?_) fun e s₅ h₅ => ⟨_, h₅, not_returned⟩
  refine ends_bind (ends_keeps (onWindow_papers _ _)) (fun _ s₆ h₆ => ?_) fun e s₆ h₆ => ⟨_, h₆.trans h₅, not_returned⟩
  refine ends_bind (ends_keeps (publish_papers E staff call rfl _ _)) (fun _ s₇ h₇ => ?_) fun e s₇ h₇ =>
    ⟨_, h₇.trans (h₆.trans h₅), not_returned⟩
  refine ends_pure ⟨_, h₇.trans (h₆.trans h₅), fun _ id => ?_⟩
  have hisProtected : s₁.gateway.abm.isProtected group.1 = true := by
    rw [Abm.isProtected, hst]
    simpa using hprotected
  rw [keys_setKey, hisProtected]
  simp

/-- The devices that a window decides about: protected ones with an accepted finding. -/
def Concerns (findings : List (Finding F)) (abm : Abm F) (id : String) : Prop :=
  id ≠ "" ∧ (∃ f ∈ findings, f.entityId = id) ∧ abm.isProtected id = true

theorem threatWork_ends (ts dispatchId : String) (s : World R F (Office σ κ F) δ π) :
    Ends (threatWork (staffed E staff) call ts dispatchId) s fun r s' =>
      ∃ corrs, papers s' = { papers s with threatCorrs := corrs } ∧
        (r = .ok () → ∀ id, id ∈ corrs.map Prod.fst ↔ id ∈ (papers s).threatCorrs.map Prod.fst ∨
          Concerns s.frame.findings s.gateway.abm id) := by
  refine ends_bind (M := fun r s' => r = .ok s.frame.findings ∧ s' = s) ⟨rfl, rfl⟩ ?_ (by simp)
  rintro findings s₁ ⟨hfindings, rfl⟩
  cases hfindings
  dsimp only
  generalize hgroups : Sorting.sortBy Prod.fst
    (Grouping.groupOn Finding.entityId (s₁.frame.findings.filter fun f => f.entityId ≠ "")) = groups
  have hconcerns : ∀ id, (∃ g ∈ groups, id = g.1 ∧ s₁.gateway.abm.isProtected g.1 = true) ↔
      Concerns s₁.frame.findings s₁.gateway.abm id := by
    intro id
    have hkeys : id ∈ groups.map Prod.fst ↔ ∃ f ∈ s₁.frame.findings.filter fun f => f.entityId ≠ "", f.entityId = id := by
      rw [← hgroups, List.mem_map]
      simp only [Sorting.mem_sortBy]
      rw [← List.mem_map, Grouping.mem_groupOn_keys]
    constructor
    · rintro ⟨g, hg, rfl, hprotected⟩
      obtain ⟨f, hf, hid⟩ := hkeys.mp (List.mem_map_of_mem hg)
      obtain ⟨hf, hne⟩ := List.mem_filter.mp hf
      exact ⟨by simpa [hid] using hne, ⟨f, hf, hid⟩, hprotected⟩
    · rintro ⟨hne, ⟨f, hf, rfl⟩, hprotected⟩
      obtain ⟨g, hg, hid⟩ := List.mem_map.mp (hkeys.mpr ⟨f, List.mem_filter.mpr ⟨hf, by simpa using hne⟩, rfl⟩)
      exact ⟨g, hg, hid.symm, hid ▸ hprotected⟩
  refine ends_bind (ends_with (ends_keeps (onWindow_papers _ _)) (onWindow_course _ _)) (fun _ s₂ h₂ => ?_) fun e s₂ h₂ =>
    ⟨_, h₂.1, not_returned⟩
  have habm : s₂.gateway.abm = s₁.gateway.abm := congrArg (fun v => v.gateway.abm) h₂.2
  refine ends_bind (M := fun r s₃ => ∃ corrs, papers s₃ = { papers s₁ with threatCorrs := corrs } ∧
    (r = .ok () → ∀ id, id ∈ corrs.map Prod.fst ↔ id ∈ (papers s₁).threatCorrs.map Prod.fst ∨
      Concerns s₁.frame.findings s₁.gateway.abm id)) ?_ (fun _ s₃ h₃ => ?_) fun e s₃ h₃ => ?_
  · refine ends_each (fun done s₃ => both s₃ = both s₂ ∧ ∃ corrs, papers s₃ = { papers s₁ with threatCorrs := corrs } ∧
      ∀ id, id ∈ corrs.map Prod.fst ↔ id ∈ (papers s₁).threatCorrs.map Prod.fst ∨
        ∃ g ∈ done, id = g.1 ∧ s₁.gateway.abm.isProtected g.1 = true) ?_ ?_ ⟨rfl, (papers s₁).threatCorrs, h₂.1, by simp⟩
    · rintro done group rest s₃ - ⟨hboth, corrs, hpapers, hkeys⟩
      have hsame : s₃.gateway.abm = s₁.gateway.abm :=
        (congrArg (fun v => v.2.gateway.abm) hboth).trans habm
      refine (ends_with (threatEntity_ends E staff call ts group s₃) (threatEntity_keeps (staffed E staff) call ts group)).mono ?_
      rintro r s₄ ⟨⟨corrs', hpapers', hkeys'⟩, hboth'⟩
      have hall : papers s₄ = { papers s₁ with threatCorrs := corrs' } := by rw [hpapers', hpapers]
      cases r with
      | error e => exact ⟨corrs', hall, not_returned⟩
      | ok u =>
        refine ⟨hboth'.trans hboth, corrs', hall, fun id => ?_⟩
        rw [hkeys' rfl id, hpapers, hsame]
        change _ ∈ corrs.map Prod.fst ∨ _ ↔ _
        rw [hkeys id, or_assoc]
        simp [or_and_right, exists_or]
    · rintro s₃ ⟨-, corrs, hpapers, hkeys⟩
      exact ⟨corrs, hpapers, fun _ id => by rw [hkeys id, hconcerns id]⟩
  · obtain ⟨corrs, hpapers, hkeys⟩ := h₃
    refine (ends_keeps (publishCompleted_papers E staff call _ dispatchId _)).mono fun r s₄ h₄ => ?_
    exact ⟨corrs, h₄.trans hpapers, fun _ => hkeys rfl⟩
  · obtain ⟨corrs, hpapers, -⟩ := h₃
    exact ⟨corrs, hpapers, not_returned⟩

/-! ## The analyst -/

/-- The analyst's recommendation for a device, and the object it is. -/
theorem riskEntity_ends (ts : String) {id : String} {st : DeviceState F} (s : World R F (Office σ κ F) δ π)
    (hst : s.gateway.abm.resolve id = some st) (hprotected : st.isProtectedAsset = true) :
    Ends (riskEntity (staffed E staff) call ts id) s fun r s' =>
      ∃ recs objects, papers s' = { papers s with riskRecs := recs, objects := objects } ∧
        (r = .ok () → ∃ rec a, recs = setKey id rec (papers s).riskRecs ∧
          objects = (fun entityId => if entityId = id then some a else (papers s).objects entityId) ∧ Assesses a st) := by
  refine ends_bind (M := fun r s' => r = .ok s.gateway.abm ∧ s' = s) ⟨rfl, rfl⟩ ?_ (by simp)
  rintro abm s₁ ⟨habm, rfl⟩
  cases habm
  refine ends_bind (M := fun r s' => r = .ok (getKey id s₁.frame.threatCorrs) ∧ s' = s₁) ⟨rfl, rfl⟩ ?_ (by simp)
  rintro corr s₂ ⟨hcorr, rfl⟩
  cases hcorr
  simp only [hst, hprotected, Bool.not_true, Bool.false_eq_true, if_false]
  refine ends_bind (M := fun r s₃ => ∃ objects, papers s₃ = { papers s₂ with objects := objects } ∧ ∀ rec, r = .ok rec →
    ∃ a, objects = (fun entityId => if entityId = id then some a else (papers s₂).objects entityId) ∧ Assesses a st) ?_
    (fun rec s₃ h₃ => ?_) fun e s₃ h₃ => ?_
  · unfold Ends ask staffed
    dsimp only
    split
    · exact ⟨(papers s₂).objects, rfl, nofun⟩
    · rename_i a ha
      exact ⟨_, rfl, fun rec _ => ⟨a, rfl, analyze_ok ha⟩⟩
  · obtain ⟨objects, hpapers, hok⟩ := h₃
    obtain ⟨a, hobjects, hassesses⟩ := hok rec rfl
    refine ends_bind (ends_keeps (submitOutput_papers E staff _ _ _ _)) (fun _ s₄ h₄ => ?_) fun e s₄ h₄ =>
      ⟨_, objects, h₄.trans hpapers, not_returned⟩
    refine ends_bind (ends_keeps (recordOutput_papers E staff call _ _ _ _)) (fun _ s₅ h₅ => ?_) fun e s₅ h₅ =>
      ⟨_, objects, h₅.trans (h₄.trans hpapers), not_returned⟩
    refine ends_bind (ends_keeps (onWindow_papers _ _)) (fun _ s₆ h₆ => ?_) fun e s₆ h₆ =>
      ⟨_, objects, h₆.trans (h₅.trans (h₄.trans hpapers)), not_returned⟩
    have hsame : papers s₆ = { papers s₂ with objects := objects } := h₆.trans (h₅.trans (h₄.trans hpapers))
    refine ends_bind (M := fun _ s₇ => papers s₇ = { papers s₂ with
      riskRecs := setKey id rec (papers s₂).riskRecs, objects := objects }) ?_ (fun _ s₇ h₇ => ?_) fun e s₇ h₇ => ⟨_, _, h₇, not_returned⟩
    · have hrecs : (papers s₆).riskRecs = (papers s₂).riskRecs := by rw [hsame]
      change { papers s₆ with riskRecs := setKey id rec (papers s₆).riskRecs } = _
      rw [hrecs, hsame]
    · refine ends_bind (ends_keeps (publish_papers E staff call rfl _ _)) (fun _ s₈ h₈ => ?_) fun e s₈ h₈ =>
        ⟨_, _, h₈.trans h₇, not_returned⟩
      exact ends_pure ⟨_, _, h₈.trans h₇, fun _ => ⟨rec, a, rfl, hobjects, hassesses⟩⟩
  · obtain ⟨objects, hpapers, -⟩ := h₃
    exact ⟨_, objects, hpapers, not_returned⟩

/-! ## The controller and the committer -/

/-- The decision is of the window, and its action follows from the state of a protected device. -/
structure Enforced (abm : Abm F) (d : EnforcementDecisionV1) : Prop where
  replay : d.replayId = call.replayId
  window : d.windowId = call.windowId
  device : ∃ st, abm.resolve d.entityId = some st ∧ st.isProtectedAsset = true ∧
    d.action = staff.policy.action st.systemicRisk (evidenceComplete st)

/-- Every event finds its replay running. -/
def Published : Prop := ∀ event env, (E.publish event env).1 = .ok true

omit [RiskNumber F] in
theorem submit_matches {safe : Output → Bool} {g g' : WorkflowOutputGateway} {o : Output} {e : Expected}
    (h : WorkflowGateway.submit safe g o e = (g', true)) : mismatch o e = none := by
  unfold WorkflowGateway.submit at h
  dsimp only at h
  split at h
  · cases h
  split at h
  · cases h
  split at h
  · cases h
  · cases h
  · assumption

omit [RiskNumber F] in
/-- A decision that is taken for an entity of the window is bound to it. -/
theorem matches_bound {d : EnforcementDecisionV1} {id : String}
    (h : mismatch (.enforcement d) { expectedOf call id with replayId := some call.replayId } = none) :
    d.replayId = call.replayId ∧ d.windowId = call.windowId ∧ d.entityId = id := by
  unfold mismatch expectedOf at h
  simp only [Option.isSome_some, Bool.true_and, decide_eq_true_eq] at h
  split at h
  · cases h
  split at h
  · cases h
  rename_i hreplay
  split at h
  · cases h
  rename_i hwindow
  split at h
  · cases h
  rename_i hentity
  simp only [ne_eq, not_not] at hreplay hwindow hentity
  exact ⟨Option.some.inj hreplay, Option.some.inj hwindow, Option.some.inj hentity⟩

theorem submitOutput_ends (label : String) (expected : Expected) (entityId : String) (o : Output)
    (s : World R F (Office σ κ F) δ π) :
    Ends (submitOutput (staffed E staff) label expected entityId o) s fun r s' =>
      papers s' = papers s ∧ (r = .ok () → mismatch o expected = none) := by
  refine ⟨submitOutput_papers E staff label expected entityId o s, fun hr => ?_⟩
  cases hsubmit : WorkflowGateway.submit (staffed E staff).safe s.outputs o expected with
  | mk outputs accepted =>
    cases accepted with
    | true => exact submit_matches hsubmit
    | false =>
      have hraised : (submitOutput (staffed E staff) label expected entityId o s).1 =
          .error (label ++ " gateway rejected for " ++ entityId) := by
        unfold submitOutput
        rw [run_read, hsubmit]
        rfl
      rw [hraised] at hr
      cases hr

theorem publish_decision (d : EnforcementDecisionV1) (entityId : Option String) (s : World R F (Office σ κ F) δ π) :
    Ends (publish (staffed E staff) call (.enforcementDecisionCommitted d) entityId none) s fun _ s' =>
      ∃ news, papers s' = { papers s with decisions := (papers s).decisions ++ news } ∧ (∀ d' ∈ news, d' = d) ∧
        (Published E → d ∈ news) := by
  have hadded : ∀ e : WorkflowEvent R, e.data = .enforcementDecisionCommitted d →
      decisionsOf (s.published ++ [e]) = decisionsOf s.published ++ [d] := by
    intro e he
    simp [decisionsOf, he, decisionIn]
  unfold Ends publish staffed onOutside
  dsimp only
  cases hout : (E.publish ⟨call.replayId, call.windowId, entityId, none, .enforcementDecisionCommitted d⟩ s.env.outside).1 with
  | error e =>
    refine ⟨[], by simp [papers], nofun, fun hpublished => ?_⟩
    rw [hpublished] at hout
    cases hout
  | ok published =>
    cases published with
    | true => exact ⟨[d], by simp [papers, hadded], by simp, fun _ => List.mem_singleton_self d⟩
    | false =>
      refine ⟨[], by simp [papers], nofun, fun hpublished => ?_⟩
      rw [hpublished] at hout
      cases hout

/-- The decision about a device. -/
theorem accessEntity_ends (ts : String) {id : String} {st : DeviceState F} {a : RiskAssessment F}
    (s : World R F (Office σ κ F) δ π) (hst : s.gateway.abm.resolve id = some st) (hprotected : st.isProtectedAsset = true)
    (hrec : id ∈ (papers s).riskRecs.map Prod.fst) (ha : (papers s).objects id = some a) (hassesses : Assesses a st) :
    Ends (accessEntity (staffed E staff) call ts id) s fun r s' =>
      ∃ news, papers s' = { papers s with decisions := (papers s).decisions ++ news } ∧
        (∀ d ∈ news, Enforced staff call s.gateway.abm d) ∧ (r = .ok () → Published E → ∃ d ∈ news, d.entityId = id) := by
  obtain ⟨rec, hget, -⟩ := getKey_some hrec
  have hsame : ∀ {e : String} {s' : World R F (Office σ κ F) δ π}, papers s' = papers s →
      ∃ news, papers s' = { papers s with decisions := (papers s).decisions ++ news } ∧
        (∀ d ∈ news, Enforced staff call s.gateway.abm d) ∧
        ((.error e : Except String Unit) = .ok () → Published E → ∃ d ∈ news, d.entityId = id) := by
    intro e s' hpapers
    exact ⟨[], by rw [hpapers, List.append_nil], nofun, nofun⟩
  refine ends_bind (M := fun r s' => r = .ok (some rec) ∧ s' = s) ⟨congrArg Except.ok hget, rfl⟩ ?_ (by simp)
  rintro found s₁ ⟨hfound, rfl⟩
  cases hfound
  refine ends_bind (M := fun r s' => r = .ok (getKey id s₁.frame.threatCorrs) ∧ s' = s₁) ⟨rfl, rfl⟩ ?_ (by simp)
  rintro corr s₂ ⟨hcorr, rfl⟩
  cases hcorr
  dsimp only
  refine ends_bind (M := fun r s₃ => papers s₃ = papers s₂ ∧ ∀ access, r = .ok access →
    access.action = staff.policy.action st.systemicRisk (evidenceComplete st)) ?_ (fun access s₃ h₃ => ?_)
    fun e s₃ h₃ => hsame h₃.1
  · have hobject : s₂.env.riskRecs id = some a := ha
    unfold Ends ask staffed onOutside
    simp only [Call.scope, hobject]
    refine ⟨rfl, fun access haccess => ?_⟩
    rw [decide_ok haccess, hassesses.systemic, hassesses.complete]
  have haction := h₃.2 access rfl
  refine ends_bind (ends_keeps (submitOutput_papers E staff _ _ _ _)) (fun _ s₄ h₄ => ?_) fun e s₄ h₄ => hsame (h₄.trans h₃.1)
  have hpapers₄ : papers s₄ = papers s₂ := h₄.trans h₃.1
  refine ends_bind (ends_keeps (recordOutput_papers E staff call _ _ _ _)) (fun _ s₅ h₅ => ?_) fun e s₅ h₅ =>
    hsame (h₅.trans hpapers₄)
  refine ends_bind (ends_keeps (onWindow_papers _ _)) (fun _ s₆ h₆ => ?_) fun e s₆ h₆ => hsame (h₆.trans (h₅.trans hpapers₄))
  have hpapers₆ : papers s₆ = papers s₂ := h₆.trans (h₅.trans hpapers₄)
  refine ends_bind (ends_keeps (publish_papers E staff call rfl _ _)) (fun _ s₇ h₇ => ?_) fun e s₇ h₇ => hsame (h₇.trans hpapers₆)
  have hpapers₇ : papers s₇ = papers s₂ := h₇.trans hpapers₆
  refine ends_bind (M := fun r s₈ => papers s₈ = papers s₇ ∧ ∀ d, r = .ok d → d.action = access.action)
    ⟨rfl, fun d hd => staff.committer.follows _ _ d hd⟩ (fun d s₈ h₈ => ?_) fun e s₈ h₈ => hsame (h₈.1.trans hpapers₇)
  have hd : d.action = staff.policy.action st.systemicRisk (evidenceComplete st) := (h₈.2 d rfl).trans haction
  have hpapers₈ : papers s₈ = papers s₂ := h₈.1.trans hpapers₇
  refine ends_bind (submitOutput_ends E staff _ _ _ _ s₈) (fun _ s₉ h₉ => ?_) fun e s₉ h₉ => hsame (h₉.1.trans hpapers₈)
  obtain ⟨hreplay, hwindow, hentity⟩ := matches_bound call (h₉.2 rfl)
  have henforced : Enforced staff call s₂.gateway.abm d := ⟨hreplay, hwindow, st, by rw [hentity]; exact hst, hprotected, hd⟩
  refine ends_bind (ends_keeps (onWindow_papers _ _)) (fun _ s₁₀ h₁₀ => ?_) fun e s₁₀ h₁₀ => hsame (h₁₀.trans (h₉.1.trans hpapers₈))
  have hpapers₁₀ : papers s₁₀ = papers s₂ := h₁₀.trans (h₉.1.trans hpapers₈)
  refine ends_bind (publish_decision E staff call d (some id) s₁₀) (fun _ s₁₁ h₁₁ => ?_) fun e s₁₁ h₁₁ => ?_
  · obtain ⟨news, hnews, honly, hin⟩ := h₁₁
    rw [hpapers₁₀] at hnews
    exact ends_pure ⟨news, hnews, fun d' hd' => honly d' hd' ▸ henforced, fun _ hpublished => ⟨d, hin hpublished, hentity⟩⟩
  · obtain ⟨news, hnews, honly, -⟩ := h₁₁
    rw [hpapers₁₀] at hnews
    exact ⟨news, hnews, fun d' hd' => honly d' hd' ▸ henforced, nofun⟩

/-! ## Where a window stands -/

/-- What the last three agents work from, with what has come of it. -/
structure Desk (F : Type) where
  completed : List AgentId
  findings : List (Finding F)
  abm : Abm F
  papers : Papers F

def desk (s : World R F (Office σ κ F) δ π) : Desk F := ⟨s.frame.completed, s.frame.findings, s.gateway.abm, papers s⟩

omit [RiskNumber F] in
@[simp] theorem desk_completed (s : World R F (Office σ κ F) δ π) : (desk s).completed = s.frame.completed := rfl

omit [RiskNumber F] in
theorem keeps_desk {α : Type} {p : Doing R F σ κ δ π α} (hcourse : Keeps course p) (hpapers : Keeps papers p) : Keeps desk p := by
  intro s
  have hcompleted : (p s).2.frame.completed = s.frame.completed := congrArg View.completed (hcourse s)
  have hfindings : (p s).2.frame.findings = s.frame.findings := congrArg View.findings (hcourse s)
  have hgateway : (p s).2.gateway = s.gateway := congrArg View.gateway (hcourse s)
  rw [desk, hcompleted, hfindings, hgateway, hpapers s]
  rfl

/-- The devices that the window decides about are assessed from their states. -/
structure Assessed (v : Desk F) : Prop where
  keys : ∀ id, id ∈ v.papers.riskRecs.map Prod.fst ↔ Concerns v.findings v.abm id
  objects : ∀ id ∈ v.papers.riskRecs.map Prod.fst, ∃ a st, v.papers.objects id = some a ∧ v.abm.resolve id = some st ∧
    st.isProtectedAsset = true ∧ Assesses a st

/-- The decisions since the window began follow from the states of their devices. With a
controller, each of the devices has one. -/
def Decided (base : List EnforcementDecisionV1) (v : Desk F) : Prop :=
  ∃ news, v.papers.decisions = base ++ news ∧ (∀ d ∈ news, Enforced staff call v.abm d ∧ Settled v.abm) ∧
    (.trustAccessController ∈ v.completed → Published E →
      ∀ id, Concerns v.findings v.abm id → ∃ d ∈ news, d.entityId = id)

/-- Where a window stands between two agents. -/
inductive Standing (base : List EnforcementDecisionV1) (v : Desk F) : Prop where
  | gathering (hthreat : .threatIntelligenceCorrelator ∉ v.completed) (hrisk : .riskPropagationAnalyst ∉ v.completed)
      (haccess : .trustAccessController ∉ v.completed) (hcorrs : v.papers.threatCorrs = []) (hrecs : v.papers.riskRecs = [])
      (hdecisions : v.papers.decisions = base)
      (havailable : v.papers.available = true → bothDetectors v.completed ∧ Settled v.abm)
  | correlated (hboth : bothDetectors v.completed) (hthreat : .threatIntelligenceCorrelator ∈ v.completed)
      (hrisk : .riskPropagationAnalyst ∉ v.completed) (haccess : .trustAccessController ∉ v.completed)
      (hcorrs : ∀ id, id ∈ v.papers.threatCorrs.map Prod.fst ↔ Concerns v.findings v.abm id) (hrecs : v.papers.riskRecs = [])
      (hdecisions : v.papers.decisions = base) (havailable : v.papers.available = true → Settled v.abm)
  | assessed (hboth : bothDetectors v.completed) (hthreat : .threatIntelligenceCorrelator ∈ v.completed)
      (hrisk : .riskPropagationAnalyst ∈ v.completed) (haccess : .trustAccessController ∉ v.completed)
      (hsettled : Settled v.abm) (hrecs : Assessed v) (hdecisions : v.papers.decisions = base)
  | decided (hboth : bothDetectors v.completed) (hthreat : .threatIntelligenceCorrelator ∈ v.completed)
      (hrisk : .riskPropagationAnalyst ∈ v.completed) (haccess : .trustAccessController ∈ v.completed)
      (hdecided : Decided E staff call base v)

/-- What an agent leaves: where the window stands if it returned, and in any case the decisions. -/
def Leaving (base : List EnforcementDecisionV1) (returned : Prop) (v : Desk F) : Prop :=
  (returned → Standing E staff call base v) ∧ Decided E staff call base v

variable {E staff call} {base : List EnforcementDecisionV1}

theorem Decided.nothing {v : Desk F} (hdecisions : v.papers.decisions = base) (haccess : .trustAccessController ∉ v.completed) :
    Decided E staff call base v :=
  ⟨[], by rw [hdecisions, List.append_nil], nofun, fun hdone => absurd hdone haccess⟩

theorem Standing.decisions {v : Desk F} (h : Standing E staff call base v) : Decided E staff call base v := by
  cases h with
  | gathering _ _ haccess _ _ hdecisions _ => exact .nothing hdecisions haccess
  | correlated _ _ _ haccess _ _ hdecisions _ => exact .nothing hdecisions haccess
  | assessed _ _ _ haccess _ _ hdecisions => exact .nothing hdecisions haccess
  | decided _ _ _ _ hdecided => exact hdecided

theorem Standing.leaving {v : Desk F} (h : Standing E staff call base v) (returned : Prop) :
    Leaving E staff call base returned v := ⟨fun _ => h, h.decisions⟩

theorem Leaving.short {v : Desk F} (h : Decided E staff call base v) {returned : Prop} (hreturned : ¬ returned) :
    Leaving E staff call base returned v := ⟨fun hr => absurd hr hreturned, h⟩

/-! ## One agent -/

/-- A detector that has not completed finds no papers, and leaves none. -/
theorem detector_stands {a : AgentId} (ha : a = .networkAnomalyDetector ∨ a = .iotBehavioralProfiler)
    {s s₁ : World R F (Office σ κ F) δ π} (h : Standing E staff call base (desk s)) (hmissing : a ∉ s.frame.completed)
    (hcompleted : s₁.frame.completed = s.frame.completed) (hpapers : papers s₁ = papers s) :
    Ends (complete a >>= fun _ => joinDetectors (staffed E staff) call) s₁ fun _ s' => Standing E staff call base (desk s') := by
  have hnot : ¬ bothDetectors s.frame.completed := by
    rintro ⟨hnetwork, hbehavior⟩
    rcases ha with rfl | rfl
    · exact hmissing hnetwork
    · exact hmissing hbehavior
  cases h with
  | correlated hboth => exact absurd hboth hnot
  | assessed hboth => exact absurd hboth hnot
  | decided hboth => exact absurd hboth hnot
  | gathering hthreat hrisk haccess hcorrs hrecs hdecisions havailable =>
    refine ends_bind (M := fun r s₂ => r = .ok () ∧ s₂.frame.completed = s.frame.completed ++ [a] ∧ papers s₂ = papers s)
      ⟨rfl, by rw [← hcompleted]; rfl, hpapers⟩ ?_ (by simp)
    rintro ⟨⟩ s₂ ⟨-, hadded, hsame⟩
    refine (join_papers E staff call s₂).mono fun r s₃ ⟨hkept, hjoined⟩ => ?_
    have hcompleted₃ : (desk s₃).completed = s.frame.completed ++ [a] := hkept.trans hadded
    have hold : ∀ b, b ≠ a → b ∉ s.frame.completed → b ∉ (desk s₃).completed := by
      intro b hb hmissing'
      rw [hcompleted₃]
      simp [hb, hmissing']
    have hpapers₃ : ∃ available, papers s₃ = { papers s with available := available } ∧
        (available = true → bothDetectors (desk s₃).completed ∧ Settled s₃.gateway.abm) := by
      rcases hjoined with hunjoined | ⟨hboth, hset, hsettled⟩
      · exact ⟨(papers s).available, hunjoined.trans hsame, fun hon => absurd (havailable hon).1 hnot⟩
      · exact ⟨true, by rw [hset, hsame], fun _ => ⟨by rwa [desk_completed, hkept], hsettled⟩⟩
    obtain ⟨available, hpapers₃, hon⟩ := hpapers₃
    refine .gathering (hold _ ?_ hthreat) (hold _ ?_ hrisk) (hold _ ?_ haccess) ?_ ?_ ?_ ?_
    · rcases ha with rfl | rfl <;> nofun
    · rcases ha with rfl | rfl <;> nofun
    · rcases ha with rfl | rfl <;> nofun
    · change (papers s₃).threatCorrs = []
      rw [hpapers₃]
      exact hcorrs
    · change (papers s₃).riskRecs = []
      rw [hpapers₃]
      exact hrecs
    · change (papers s₃).decisions = base
      rw [hpapers₃]
      exact hdecisions
    · change (papers s₃).available = true → _
      rw [hpapers₃]
      exact hon

theorem threat_stands (ts dispatchId : String) (s : World R F (Office σ κ F) δ π) (h : Standing E staff call base (desk s))
    (hable : Able .threatIntelligenceCorrelator (course s)) :
    Ends (execute (staffed E staff) call ts dispatchId .threatIntelligenceCorrelator) s fun r s' =>
      Leaving E staff call base (r = .ok ()) (desk s') := by
  have hboth : bothDetectors s.frame.completed := ⟨hable.2 _ (by decide), hable.2 _ (by decide)⟩
  cases h with
  | correlated _ hthreat => exact absurd hthreat hable.1
  | assessed _ hthreat => exact absurd hthreat hable.1
  | decided _ hthreat => exact absurd hthreat hable.1
  | gathering _ hrisk haccess hcorrs hrecs hdecisions havailable =>
    refine ends_bind (ends_with (threatWork_ends E staff call ts dispatchId s) (threatWork_keeps (staffed E staff) call ts dispatchId))
      (fun _ s₁ h₁ => ?_) fun e s₁ h₁ => .short (.nothing ?_ ?_) nofun
    · obtain ⟨⟨corrs, hpapers, hkeys⟩, hkept⟩ := h₁
      have hcompleted : s₁.frame.completed = s.frame.completed := congrArg (fun v => v.1.completed) hkept
      have hfindings : s₁.frame.findings = s.frame.findings := congrArg (fun v => v.2.findings) hkept
      have hgateway : s₁.gateway = s.gateway := congrArg (fun v => v.2.gateway) hkept
      have hdesk : desk s₁ = ⟨s.frame.completed, s.frame.findings, s.gateway.abm, { papers s with threatCorrs := corrs }⟩ := by
        rw [desk, hcompleted, hfindings, hgateway, hpapers]
      have hlast : Ends (complete .threatIntelligenceCorrelator : Doing R F σ κ δ π Unit) s₁ fun r s₂ =>
          desk s₂ = { desk s₁ with completed := (desk s₁).completed ++ [.threatIntelligenceCorrelator] } := rfl
      refine hlast.mono fun r s₂ h₂ => Standing.leaving ?_ _
      rw [h₂, hdesk]
      refine .correlated ?_ ?_ ?_ ?_ ?_ hrecs hdecisions fun hon => (havailable hon).2
      · exact ⟨List.mem_append_left _ hboth.1, List.mem_append_left _ hboth.2⟩
      · simp
      · simpa using hrisk
      · simpa using haccess
      · intro id
        have hkeys := hkeys rfl id
        rw [show (papers s).threatCorrs = [] from hcorrs] at hkeys
        simpa using hkeys
    · obtain ⟨⟨corrs, hpapers, -⟩, -⟩ := h₁
      change (papers s₁).decisions = base
      rw [hpapers]
      exact hdecisions
    · have hcompleted : s₁.frame.completed = s.frame.completed := congrArg (fun v => v.1.completed) h₁.2
      change _ ∉ s₁.frame.completed
      rw [hcompleted]
      exact haccess

/-- With the risks settled, another propagation changes nothing on the desk. -/
theorem propagate_settled (s : World R F (Office σ κ F) δ π) (hsettled : Settled s.gateway.abm) :
    Ends (attempt (propagate (staffed E staff)) fun _ => pure ()) s fun _ s' => desk s' = desk s := by
  have hall := ends_with (propagate_ends (staffed E staff) s) (propagate_papers E staff)
  refine ends_attempt hall (fun u s' h => ?_) fun e s' h => ends_pure ?_
  · obtain ⟨⟨hframe, -, -, -, -, hpropagated⟩, hpapers⟩ := h
    have habm : s'.gateway.abm = s.gateway.abm := Except.ok.inj (hpropagated.symm.trans hsettled)
    rw [desk, hframe, habm, hpapers]
    rfl
  · obtain ⟨⟨hframe, -, -, -, -, hgateway⟩, hpapers⟩ := h
    rw [desk, hframe, hgateway, hpapers]
    rfl

/-- The devices with correlations are assessed one after the other. -/
theorem riskEntities_ends (ts : String) (ids : List String) (s : World R F (Office σ κ F) δ π)
    (hids : ∀ id ∈ ids, Concerns s.frame.findings s.gateway.abm id) (hrecs : (papers s).riskRecs = []) :
    Ends (each (riskEntity (staffed E staff) call ts) ids) s fun r s' =>
      both s' = both s ∧ ∃ recs objects, papers s' = { papers s with riskRecs := recs, objects := objects } ∧
        (r = .ok () → (∀ id, id ∈ recs.map Prod.fst ↔ id ∈ ids) ∧ ∀ id ∈ ids, ∃ a st, objects id = some a ∧
          s.gateway.abm.resolve id = some st ∧ st.isProtectedAsset = true ∧ Assesses a st) := by
  refine ends_each (fun done s₁ => both s₁ = both s ∧ ∃ recs objects,
    papers s₁ = { papers s with riskRecs := recs, objects := objects } ∧ (∀ id, id ∈ recs.map Prod.fst ↔ id ∈ done) ∧
      ∀ id ∈ done, ∃ a st, objects id = some a ∧ s.gateway.abm.resolve id = some st ∧ st.isProtectedAsset = true ∧
        Assesses a st) ?_ ?_ ⟨rfl, [], (papers s).objects, by rw [← hrecs], by simp, nofun⟩
  · rintro done id rest s₁ hsplit ⟨hkept, recs, objects, hpapers, hkeys, hobjects⟩
    have habm : s₁.gateway.abm = s.gateway.abm := congrArg (fun v => v.2.gateway.abm) hkept
    obtain ⟨-, -, hprotected⟩ := hids id (by rw [hsplit]; simp)
    obtain ⟨st, hst, hprotected⟩ := (Option.any_eq_true _ _).mp hprotected
    have hst₁ : s₁.gateway.abm.resolve id = some st := by rw [habm]; exact hst
    refine (ends_with (riskEntity_ends E staff call ts s₁ hst₁ hprotected) (riskEntity_keeps (staffed E staff) call ts id)).mono ?_
    rintro r s₂ ⟨⟨recs', objects', hpapers', hok⟩, hkept'⟩
    have hall : papers s₂ = { papers s with riskRecs := recs', objects := objects' } := by rw [hpapers', hpapers]
    cases r with
    | error e => exact ⟨hkept'.trans hkept, recs', objects', hall, nofun⟩
    | ok u =>
      obtain ⟨rec, a, hrecs', hobjects', hassesses⟩ := hok rfl
      rw [hpapers] at hrecs'
      refine ⟨hkept'.trans hkept, recs', objects', hall, fun id' => ?_, fun id' hid' => ?_⟩
      · rw [hrecs', keys_setKey, hkeys, List.mem_append, List.mem_singleton]
      · rw [hobjects']
        by_cases hsame : id' = id
        · exact ⟨a, st, if_pos hsame, hsame ▸ hst, hprotected, hassesses⟩
        · rw [List.mem_append, List.mem_singleton] at hid'
          obtain ⟨a', st', ha', hrest⟩ := hobjects id' (hid'.resolve_right hsame)
          exact ⟨a', st', (if_neg hsame).trans (by rw [hpapers]; exact ha'), hrest⟩
  · rintro s₁ ⟨hkept, recs, objects, hpapers, hkeys, hobjects⟩
    exact ⟨hkept, recs, objects, hpapers, fun _ => ⟨hkeys, hobjects⟩⟩

/-- The analyst's work on settled risks. -/
theorem riskWork_ends (ts dispatchId : String) (s : World R F (Office σ κ F) δ π) (hsettled : Settled s.gateway.abm)
    (hcorrs : ∀ id, id ∈ (papers s).threatCorrs.map Prod.fst ↔ Concerns s.frame.findings s.gateway.abm id)
    (hrecs : (papers s).riskRecs = []) :
    Ends (riskWork (staffed E staff) call ts dispatchId) s fun r s' => ∃ available recs objects,
      desk s' = { desk s with papers := { papers s with available := available, riskRecs := recs, objects := objects } } ∧
        (r = .ok () → Assessed (desk s')) := by
  refine ends_bind (propagate_settled s hsettled) (fun _ s₁ h₁ => ?_) fun e s₁ h₁ => ⟨_, _, _, h₁, nofun⟩
  have hset : Ends (onFrame fun f => { f with deviceRiskAvailable := true } : Doing R F σ κ δ π Unit) s₁ fun r s₂ =>
      r = .ok () ∧ desk s₂ = { desk s with papers := { papers s with available := true } } := by
    refine ⟨rfl, ?_⟩
    rw [show ({ desk s with papers := { papers s with available := true } } : Desk F) =
      { desk s with papers := { (desk s).papers with available := true } } from rfl, ← h₁]
    rfl
  refine ends_bind hset (fun _ s₂ h₂ => ?_) fun e s₂ h₂ => nomatch h₂.1
  have hdesk₂ := h₂.2
  have hfindings : s₂.frame.findings = s.frame.findings := congrArg Desk.findings hdesk₂
  have habm : s₂.gateway.abm = s.gateway.abm := congrArg Desk.abm hdesk₂
  have hpapers₂ : papers s₂ = { papers s with available := true } := congrArg Desk.papers hdesk₂
  refine ends_bind (M := fun r s' => r = .ok s₂.frame.threatCorrs ∧ s' = s₂) ⟨rfl, rfl⟩ ?_ (by simp)
  rintro corrs s₃ ⟨hcorrs₃, rfl⟩
  cases hcorrs₃
  have hkeys : ∀ id, id ∈ sortedKeys s₃.frame.threatCorrs ↔ Concerns s₃.frame.findings s₃.gateway.abm id := by
    intro id
    rw [sortedKeys, Sorting.mem_sortBy, hfindings, habm, ← hcorrs id]
    have hsame : s₃.frame.threatCorrs = (papers s).threatCorrs := congrArg Papers.threatCorrs hpapers₂
    rw [hsame]
  have hempty : (papers s₃).riskRecs = [] := by rw [hpapers₂]; exact hrecs
  refine ends_bind (riskEntities_ends ts _ s₃ (fun id hid => (hkeys id).mp hid) hempty) (fun _ s₄ h₄ => ?_) fun e s₄ h₄ => ?_
  all_goals
    obtain ⟨hkept, recs, objects, hpapers₄, hok⟩ := h₄
    have hdesk₄ : desk s₄ = { desk s with papers := { papers s with available := true, riskRecs := recs, objects := objects } } := by
      have hcourse := keeps_of_both hkept
      have hcompleted : s₄.frame.completed = s₃.frame.completed := congrArg View.completed hcourse
      have hfindings₄ : s₄.frame.findings = s₃.frame.findings := congrArg View.findings hcourse
      have hgateway : s₄.gateway = s₃.gateway := congrArg View.gateway hcourse
      have hold : s₃.frame.completed = s.frame.completed := congrArg Desk.completed hdesk₂
      rw [desk, hcompleted, hfindings₄, hgateway, hpapers₄, hpapers₂, hold, hfindings, habm]
      rfl
  · obtain ⟨hrecKeys, hobjects⟩ := hok rfl
    have hlast := keeps_desk (keeps_course (publishCompleted_keeps (staffed E staff) call .riskPropagationAnalyst dispatchId none))
      (publishCompleted_papers E staff call .riskPropagationAnalyst dispatchId none)
    refine (ends_keeps hlast).mono fun r s₅ h₅ => ⟨_, _, _, h₅.trans hdesk₄, fun _ => ?_⟩
    rw [h₅, hdesk₄]
    refine ⟨fun id => ?_, fun id hid => ?_⟩
    · change id ∈ recs.map Prod.fst ↔ Concerns s.frame.findings s.gateway.abm id
      rw [hrecKeys id, hkeys id, hfindings, habm]
    · obtain ⟨a, st, ha, hst, hrest⟩ := hobjects id ((hrecKeys id).mp hid)
      rw [habm] at hst
      exact ⟨a, st, ha, hst, hrest⟩
  · exact ⟨_, _, _, hdesk₄, nofun⟩

theorem risk_stands (ts dispatchId : String) (s : World R F (Office σ κ F) δ π) (h : Standing E staff call base (desk s))
    (hable : Able .riskPropagationAnalyst (course s)) (hon : s.frame.deviceRiskAvailable = true) :
    Ends (execute (staffed E staff) call ts dispatchId .riskPropagationAnalyst) s fun r s' =>
      Leaving E staff call base (r = .ok ()) (desk s') := by
  cases h with
  | gathering hthreat => exact absurd (hable.2 _ (by decide)) hthreat
  | assessed _ _ hrisk => exact absurd hrisk hable.1
  | decided _ _ hrisk => exact absurd hrisk hable.1
  | correlated hboth hthreat hrisk haccess hcorrs hrecs hdecisions havailable =>
    have hsettled : Settled s.gateway.abm := havailable hon
    refine ends_bind (riskWork_ends ts dispatchId s hsettled hcorrs hrecs) (fun _ s₁ h₁ => ?_) fun e s₁ h₁ => ?_
    all_goals obtain ⟨available, recs, objects, hdesk, hassessed⟩ := h₁
    · have hlast : Ends (complete .riskPropagationAnalyst >>= fun _ => onFrame fun f =>
          { f with deviceRiskAvailable := true, riskRecAvailable := true } : Doing R F σ κ δ π Unit) s₁ fun r s₂ =>
          desk s₂ = { desk s₁ with
            completed := (desk s₁).completed ++ [.riskPropagationAnalyst]
            papers := { (desk s₁).papers with available := true } } := rfl
      refine hlast.mono fun r s₂ h₂ => Standing.leaving ?_ _
      have hassessed := hassessed rfl
      rw [h₂]
      refine .assessed ?_ ?_ ?_ ?_ ?_ ⟨hassessed.keys, hassessed.objects⟩ ?_
      all_goals rw [hdesk]
      · exact ⟨List.mem_append_left _ hboth.1, List.mem_append_left _ hboth.2⟩
      · exact List.mem_append_left _ hthreat
      · exact List.mem_append_right _ (List.mem_singleton_self _)
      · simpa using haccess
      · exact hsettled
      · exact hdecisions
    · refine .short (.nothing ?_ ?_) nofun
      all_goals rw [hdesk]
      · exact hdecisions
      · exact haccess

/-- The assessed devices are decided about one after the other. -/
theorem accessEntities_ends (ts : String) (ids : List String) (s : World R F (Office σ κ F) δ π) (hassessed : Assessed (desk s))
    (hids : ∀ id ∈ ids, id ∈ (papers s).riskRecs.map Prod.fst) :
    Ends (each (accessEntity (staffed E staff) call ts) ids) s fun r s' => both s' = both s ∧ ∃ news,
      papers s' = { papers s with decisions := (papers s).decisions ++ news } ∧
        (∀ d ∈ news, Enforced staff call s.gateway.abm d) ∧
        (r = .ok () → Published E → ∀ id ∈ ids, ∃ d ∈ news, d.entityId = id) := by
  refine ends_each (fun done s₁ => both s₁ = both s ∧ ∃ news,
    papers s₁ = { papers s with decisions := (papers s).decisions ++ news } ∧
      (∀ d ∈ news, Enforced staff call s.gateway.abm d) ∧ (Published E → ∀ id ∈ done, ∃ d ∈ news, d.entityId = id)) ?_ ?_
    ⟨rfl, [], by simp, nofun, nofun⟩
  · rintro done id rest s₁ hsplit ⟨hkept, news, hpapers, henforced, hanswered⟩
    have habm : s₁.gateway.abm = s.gateway.abm := congrArg (fun v => v.2.gateway.abm) hkept
    have hrec := hids id (by rw [hsplit]; simp)
    obtain ⟨a, st, ha, hst, hprotected, hassesses⟩ := hassessed.objects id hrec
    have hst₁ : s₁.gateway.abm.resolve id = some st := by rw [habm]; exact hst
    have hrec₁ : id ∈ (papers s₁).riskRecs.map Prod.fst := by rw [hpapers]; exact hrec
    have ha₁ : (papers s₁).objects id = some a := by rw [hpapers]; exact ha
    refine (ends_with (accessEntity_ends E staff call ts s₁ hst₁ hprotected hrec₁ ha₁ hassesses)
      (accessEntity_keeps (staffed E staff) call ts id)).mono ?_
    rintro r s₂ ⟨⟨news', hpapers', henforced', hanswered'⟩, hkept'⟩
    have hall : papers s₂ = { papers s with decisions := (papers s).decisions ++ (news ++ news') } := by
      rw [hpapers', hpapers, List.append_assoc]
    have hsound : ∀ d ∈ news ++ news', Enforced staff call s.gateway.abm d := by
      intro d hd
      rcases List.mem_append.mp hd with hd | hd
      · exact henforced d hd
      · exact habm ▸ henforced' d hd
    cases r with
    | error e => exact ⟨hkept'.trans hkept, _, hall, hsound, nofun⟩
    | ok u =>
      refine ⟨hkept'.trans hkept, _, hall, hsound, fun hpublished id' hid' => ?_⟩
      rcases List.mem_append.mp hid' with hid' | hid'
      · obtain ⟨d, hd, hid⟩ := hanswered hpublished id' hid'
        exact ⟨d, List.mem_append_left _ hd, hid⟩
      · obtain ⟨d, hd, hid⟩ := hanswered' rfl hpublished
        exact ⟨d, List.mem_append_right _ hd, hid.trans (List.mem_singleton.mp hid').symm⟩
  · rintro s₁ ⟨hkept, news, hpapers, henforced, hanswered⟩
    exact ⟨hkept, news, hpapers, henforced, fun _ => hanswered⟩

theorem access_stands (ts dispatchId : String) (s : World R F (Office σ κ F) δ π) (h : Standing E staff call base (desk s))
    (hable : Able .trustAccessController (course s)) :
    Ends (execute (staffed E staff) call ts dispatchId .trustAccessController) s fun r s' =>
      Leaving E staff call base (r = .ok ()) (desk s') := by
  cases h with
  | gathering _ hrisk => exact absurd (hable.2 _ (by decide)) hrisk
  | correlated _ _ hrisk => exact absurd (hable.2 _ (by decide)) hrisk
  | decided _ _ _ haccess => exact absurd haccess hable.1
  | assessed hboth hthreat hrisk haccess hsettled hassessed hdecisions =>
    have hwork : Ends (accessWork (staffed E staff) call ts dispatchId) s fun r s' => ∃ news,
        desk s' = { desk s with papers := { papers s with decisions := base ++ news } } ∧
          (∀ d ∈ news, Enforced staff call s.gateway.abm d) ∧
          (r = .ok () → Published E → ∀ id, Concerns s.frame.findings s.gateway.abm id → ∃ d ∈ news, d.entityId = id) := by
      have hkeys : ∀ id, id ∈ sortedKeys s.frame.riskRecs ↔ id ∈ (papers s).riskRecs.map Prod.fst := by
        intro id
        rw [sortedKeys, Sorting.mem_sortBy]
        rfl
      refine ends_bind (M := fun r s' => r = .ok s.frame.riskRecs ∧ s' = s) ⟨rfl, rfl⟩ ?_ (by simp)
      rintro recs s₁ ⟨hrecs, rfl⟩
      cases hrecs
      refine ends_bind (accessEntities_ends ts _ s₁ hassessed fun id hid => (hkeys id).mp hid) (fun _ s₂ h₂ => ?_) fun e s₂ h₂ => ?_
      all_goals
        obtain ⟨hkept, news, hpapers, henforced, hanswered⟩ := h₂
        have hdesk : desk s₂ = { desk s₁ with papers := { papers s₁ with decisions := base ++ news } } := by
          have hcourse := keeps_of_both hkept
          have hcompleted : s₂.frame.completed = s₁.frame.completed := congrArg View.completed hcourse
          have hfindings : s₂.frame.findings = s₁.frame.findings := congrArg View.findings hcourse
          have hgateway : s₂.gateway = s₁.gateway := congrArg View.gateway hcourse
          have hbase : (papers s₁).decisions = base := hdecisions
          rw [desk, hcompleted, hfindings, hgateway, hpapers, hbase]
          rfl
      · have hlast := keeps_desk (keeps_course (publishCompleted_keeps (staffed E staff) call .trustAccessController dispatchId none))
          (publishCompleted_papers E staff call .trustAccessController dispatchId none)
        refine (ends_keeps hlast).mono fun r s₃ h₃ => ⟨news, h₃.trans hdesk, henforced, fun _ hpublished id hid => ?_⟩
        exact hanswered rfl hpublished id ((hkeys id).mpr ((hassessed.keys id).mpr hid))
      · exact ⟨news, hdesk, henforced, nofun⟩
    refine ends_bind hwork (fun _ s₁ h₁ => ?_) fun e s₁ h₁ => ?_
    all_goals obtain ⟨news, hdesk, henforced, hanswered⟩ := h₁
    · have hlast : Ends (complete .trustAccessController >>= fun _ => onFrame fun f => { f with riskRecAvailable := true } :
          Doing R F σ κ δ π Unit) s₁ fun r s₂ =>
          desk s₂ = { desk s₁ with completed := (desk s₁).completed ++ [.trustAccessController] } := rfl
      refine hlast.mono fun r s₂ h₂ => Standing.leaving ?_ _
      rw [h₂]
      refine .decided ?_ ?_ ?_ ?_ ⟨news, ?_, ?_, fun _ hpublished id hid => ?_⟩
      all_goals rw [hdesk] at *
      · exact ⟨List.mem_append_left _ hboth.1, List.mem_append_left _ hboth.2⟩
      · exact List.mem_append_left _ hthreat
      · exact List.mem_append_left _ hrisk
      · exact List.mem_append_right _ (List.mem_singleton_self _)
      · exact fun d hd => ⟨henforced d hd, hsettled⟩
      · exact hanswered rfl hpublished id hid
    · refine .short ⟨news, ?_, ?_, fun hdone => absurd hdone ?_⟩ nofun
      all_goals rw [hdesk]
      · exact fun d hd => ⟨henforced d hd, hsettled⟩
      · exact haccess

/-! ## Rounds and windows -/

/-- Until both detectors have completed nothing is decided. -/
theorem Standing.undecided {v : Desk F} (h : Standing E staff call base v) (hnot : ¬ bothDetectors v.completed) :
    v.papers.decisions = base ∧ .trustAccessController ∉ v.completed := by
  cases h with
  | gathering _ _ haccess _ _ hdecisions _ => exact ⟨hdecisions, haccess⟩
  | correlated hboth => exact absurd hboth hnot
  | assessed hboth => exact absurd hboth hnot
  | decided hboth => exact absurd hboth hnot

/-- An agent that is ready, and the analyst with the risks available. -/
def Ready (a : AgentId) (v : Desk F) : Prop :=
  (a ∉ v.completed ∧ ∀ b ∈ dependencies a, b ∈ v.completed) ∧ (a = .riskPropagationAnalyst → v.papers.available = true)

theorem execute_stands (ts dispatchId : String) (a : AgentId) (s : World R F (Office σ κ F) δ π)
    (h : Standing E staff call base (desk s)) (hready : Ready a (desk s)) :
    Ends (execute (staffed E staff) call ts dispatchId a) s fun r s' => Leaving E staff call base (r = .ok ()) (desk s') := by
  have hstop : ∀ {s₁ : World R F (Office σ κ F) δ π}, ¬ bothDetectors s.frame.completed →
      s₁.frame.completed = s.frame.completed → papers s₁ = papers s → Decided E staff call base (desk s₁) := by
    intro s₁ hnot hcompleted hpapers
    obtain ⟨hdecisions, haccess⟩ := h.undecided hnot
    exact .nothing ((congrArg Papers.decisions hpapers).trans hdecisions) (by rw [desk_completed, hcompleted]; exact haccess)
  cases a with
  | networkAnomalyDetector =>
    have hkept : (networkWork (staffed E staff) call dispatchId s).2.frame.completed = s.frame.completed :=
      congrArg Control.completed (networkWork_keeps (staffed E staff) call dispatchId s)
    refine ends_bind (M := fun _ s₁ => s₁.frame.completed = s.frame.completed ∧ papers s₁ = papers s)
      ⟨hkept, networkWork_papers E staff call dispatchId s⟩ (fun _ s₁ h₁ => ?_) fun e s₁ h₁ => .short ?_ nofun
    · exact (detector_stands (.inl rfl) h hready.1.1 h₁.1 h₁.2).mono fun r s' h' => h'.leaving _
    · exact hstop (fun hboth => hready.1.1 hboth.1) h₁.1 h₁.2
  | iotBehavioralProfiler =>
    have hkept : (behaviorWork (staffed E staff) call dispatchId s).2.frame.completed = s.frame.completed :=
      congrArg Control.completed (behaviorWork_keeps (staffed E staff) call dispatchId s)
    refine ends_bind (M := fun _ s₁ => s₁.frame.completed = s.frame.completed ∧ papers s₁ = papers s)
      ⟨hkept, behaviorWork_papers E staff call dispatchId s⟩ (fun _ s₁ h₁ => ?_) fun e s₁ h₁ => .short ?_ nofun
    · exact (detector_stands (.inr rfl) h hready.1.1 h₁.1 h₁.2).mono fun r s' h' => h'.leaving _
    · exact hstop (fun hboth => hready.1.1 hboth.2) h₁.1 h₁.2
  | threatIntelligenceCorrelator => exact threat_stands ts dispatchId s h hready.1
  | riskPropagationAnalyst => exact risk_stands ts dispatchId s h hready.1 (hready.2 rfl)
  | trustAccessController => exact access_stands ts dispatchId s h hready.1

/-- A step that leaves the desk alone, and then the rest. -/
theorem desk_then {α β : Type} {p : Doing R F σ κ δ π β} {f : β → Doing R F σ κ δ π α} {done : α}
    {s : World R F (Office σ κ F) δ π} {ready : List AgentId} (hp : Keeps desk p)
    (h : Standing E staff call base (desk s) ∧ ∀ a ∈ ready, Ready a (desk s))
    (hf : ∀ b s', Standing E staff call base (desk s') ∧ (∀ a ∈ ready, Ready a (desk s')) →
      Ends (f b) s' fun r s'' => Leaving E staff call base (r = .ok done) (desk s'')) :
    Ends (p >>= f) s fun r s'' => Leaving E staff call base (r = .ok done) (desk s'') := by
  refine ends_bind (ends_keeps hp) (fun b s' hs => hf b s' ?_) fun e s' hs => Standing.leaving ?_ _
  · rw [hs]
    exact h
  · rw [hs]
    exact h.1

variable (E staff call) in
theorem publishWindow_desk {data : EventData R} (h : decisionIn data = none) (ts : Option String) :
    Keeps desk (publishWindow (staffed E staff) call data ts) :=
  keeps_desk (publishWindow_course _ _ _ _) (publishWindow_papers E staff call h ts)

omit [RiskNumber F] in
theorem onWindow_desk (windowId : Int) (f : WorkflowWindowState → WorkflowWindowState) :
    Keeps desk (onWindow windowId f : Doing R F σ κ δ π Unit) := fun _ => rfl

theorem executeAgent_stands (ts : String) {a : AgentId} {ready : List AgentId} (ha : a ∈ ready) (answer : Answer)
    (selected : String) (s : World R F (Office σ κ F) δ π)
    (h : Standing E staff call base (desk s) ∧ ∀ a ∈ ready, Ready a (desk s)) :
    Ends (executeAgent (staffed E staff) call ts a answer selected) s fun r s' =>
      Leaving E staff call base (r = .ok true) (desk s') := by
  refine desk_then (keeps_desk (fresh_course _) (fresh_papers _)) h fun dispatchId s₁ h₁ => ?_
  refine desk_then (onWindow_desk _ _) h₁ fun _ s₂ h₂ => ?_
  refine desk_then (publishWindow_desk E staff call rfl _) h₂ fun _ s₃ h₃ => ?_
  refine desk_then (publishWindow_desk E staff call rfl _) h₃ fun _ s₄ h₄ => ?_
  refine desk_then (keeps_desk (noteHappening_course (by nofun)) (noteHappening_papers _)) h₄ fun _ s₅ h₅ => ?_
  refine ends_attempt (M := fun r s' => Leaving E staff call base (r = .ok true) (desk s')) ?_ (fun b s' h' => h') fun e s' h' => ?_
  · refine ends_bind (execute_stands ts dispatchId a s₅ h₅.1 (h₅.2 a ha)) (fun _ s' h' => ?_) fun e s' h' => .short h'.2 nofun
    exact ends_pure ((h'.1 rfl).leaving _)
  · have hhandler : Keeps desk (do
        addFailure call (.agent a e)
        publishWindow (staffed E staff) call (.agentExecutionFailed a e) none
        setStatus call.windowId .failed
        return false : Doing R F σ κ δ π Bool) :=
      (onWindow_desk _ _).bind fun _ => (publishWindow_desk E staff call rfl _).bind fun _ =>
        (onWindow_desk _ _).bind fun _ => keeps_pure _
    have hreturned : ∀ s', Ends (do
        addFailure call (.agent a e)
        publishWindow (staffed E staff) call (.agentExecutionFailed a e) none
        setStatus call.windowId .failed
        return false : Doing R F σ κ δ π Bool) s' fun r _ => r ≠ .ok true := by
      intro s'
      refine ends_bind (M := fun _ _ => True) trivial (fun _ s₁ _ => ?_) fun _ _ _ => nofun
      refine ends_bind (M := fun _ _ => True) trivial (fun _ s₂ _ => ?_) fun _ _ _ => nofun
      exact ends_bind (M := fun _ _ => True) trivial (fun _ s₃ _ => nofun) fun _ _ _ => nofun
    refine .short ?_ (hreturned s')
    rw [hhandler s']
    exact h'.2

theorem dispatchRound_stands (ts : String) (s : World R F (Office σ κ F) δ π) (h : Standing E staff call base (desk s)) :
    Ends (dispatchRound (staffed E staff) call ts) s fun r s' => Leaving E staff call base (r = .ok true) (desk s') := by
  unfold dispatchRound
  refine ends_bind (M := fun r s' => r = .ok s.frame ∧ s' = s) ⟨rfl, rfl⟩ ?_ (by simp)
  rintro frame s₁ ⟨hr, rfl⟩
  cases hr
  dsimp only
  split
  · exact ends_pure (h.leaving _)
  have hready : ∀ a ∈ readyAgents s₁.frame.completed s₁.frame.deviceRiskAvailable s₁.frame.riskRecAvailable, Ready a (desk s₁) := by
    intro a ha
    refine ⟨ready_spec ha, ?_⟩
    rintro rfl
    exact ready_flag ha
  refine desk_then (keeps_desk (dispatch_course _ _ _ _) (dispatch_papers E staff call ts _)) ⟨h, hready⟩ fun answer s₂ h₂ => ?_
  refine desk_then (keeps_desk (noteHappening_course (by nofun)) (noteHappening_papers _)) h₂ fun _ s₃ h₃ => ?_
  have hrefused : ∀ {p : Doing R F σ κ δ π Bool}, Keeps desk p →
      Ends p s₃ fun r s' => Leaving E staff call base (r = .ok true) (desk s') := by
    intro p hp
    refine Standing.leaving ?_ _
    rw [hp s₃]
    exact h₃.1
  unfold settleAnswer
  split
  · exact hrefused ((onWindow_desk _ _).bind fun _ => (onWindow_desk _ _).bind fun _ =>
      (publishWindow_desk E staff call rfl _).bind fun _ => keeps_pure _)
  split
  · exact hrefused ((onWindow_desk _ _).bind fun _ => (onWindow_desk _ _).bind fun _ =>
      (publishWindow_desk E staff call rfl _).bind fun _ => keeps_pure _)
  split
  · exact hrefused (keeps_raise _)
  split
  · rename_i hmem
    exact executeAgent_stands ts hmem _ _ s₃ h₃
  · exact hrefused ((onWindow_desk _ _).bind fun _ => (onWindow_desk _ _).bind fun _ => keeps_pure _)

theorem dispatchLoop_decided (ts : String) (n : Nat) (s : World R F (Office σ κ F) δ π)
    (h : Standing E staff call base (desk s)) :
    Ends (dispatchLoop (staffed E staff) call ts n) s fun _ s' => Decided E staff call base (desk s') := by
  induction n generalizing s with
  | zero => exact ends_pure h.decisions
  | succ n ih =>
    refine ends_bind (dispatchRound_stands ts s h) (fun goesOn s₁ h₁ => ?_) fun e s₁ h₁ => h₁.2
    cases goesOn with
    | true => exact ih s₁ (h₁.1 rfl)
    | false => exact ends_pure h₁.2

variable (E staff call) in
theorem closeWindow_desk : Keeps desk (closeWindow (staffed E staff) call) := by
  refine keeps_desk (closeWindow_course _ _) ?_
  refine (keeps_read _).bind fun w => ?_
  refine (keeps_each fun w _ => ?_).bind fun _ => (keeps_read _).bind fun _ => (keeps_read _).bind fun _ => keeps_pure _
  unfold finishWindow
  split
  · exact (onWindow_papers _ _).bind fun _ => publishWindow_papers E staff call rfl _
  · exact publishWindow_papers E staff call rfl _

omit [RiskNumber F] in
theorem registerWindow_desk (limit : Nat) (ts : String) :
    Keeps desk (registerWindow call limit ts : Doing R F σ κ δ π Unit) := by
  refine (keeps_read _).bind fun windows => ?_
  split
  · exact keeps_raise _
  · exact keeps_update fun s => rfl

/-- The decisions of a window, whatever happens in it. -/
theorem executeWindow_decided (limit : Nat) (s : World R F (Office σ κ F) δ π) :
    Decided E staff call (decisionsOf s.published) (desk (executeWindow (staffed E staff) call limit s).2) := by
  have hrest : ∀ ts s₁, Standing E staff call (decisionsOf s.published) (desk s₁) →
      Ends (registerWindow call limit ts >>= fun _ => runWindow (staffed E staff) call ts) s₁ fun _ s' =>
        Decided E staff call (decisionsOf s.published) (desk s') := by
    intro ts s₁ h₁
    refine ends_bind (ends_keeps (registerWindow_desk limit ts)) (fun _ s₂ h₂ => ?_) fun e s₂ h₂ => by rw [h₂]; exact h₁.decisions
    rw [← h₂] at h₁
    refine ends_bind (ends_keeps (publishWindow_desk E staff call rfl _)) (fun _ s₃ h₃ => ?_) fun e s₃ h₃ => by
      rw [h₃]
      exact h₁.decisions
    rw [← h₃] at h₁
    refine ends_bind (dispatchLoop_decided ts maxIterations s₃ h₁) (fun _ s₄ h₄ => ?_) fun e s₄ h₄ => h₄
    refine (ends_keeps (closeWindow_desk E staff call)).mono fun r s₅ h₅ => ?_
    rw [h₅]
    exact h₄
  have hstart : Standing E staff call (decisionsOf s.published)
      (desk { s with frame := .start R F, gateway := GatewayOrder.current (some call.windowId) s.gateway }) := by
    refine .gathering ?_ ?_ ?_ ?_ ?_ rfl ?_
    all_goals simp [desk, papers, Frame.start]
  unfold executeWindow
  split
  · exact hrest _ _ hstart
  · refine (ends_bind (ends_keeps (keeps_desk (fresh_course _) (fresh_papers _))) (fun ts s₁ h₁ => hrest ts s₁ ?_)
      (fun e s₁ h₁ => ?_) : Ends _ _ fun _ s' => Decided E staff call (decisionsOf s.published) (desk s'))
    · rw [h₁]
      exact hstart
    · rw [h₁]
      exact hstart.decisions

end Staffed

/-! ## What a window enforces -/

section Enforcing

variable {P : Type} {R : Runtime P} {F σ κ δ π ρ : Type} [RiskNumber F] (E : Environment R F σ δ π ρ) (staff : Staff F κ)
  (call : Call ρ)

/-- Whatever is dispatched in a window and whatever fails: each decision that it publishes is
about a protected device, and its action is what the policy makes of the device's systemic risk
and evidence, with the risks of all devices propagated. A policy with the levels of the analyst
follows the escalation that the analyst recommends. -/
theorem decisions_follow_devices (limit : Nat) (s : World R F (Office σ κ F) δ π) :
    let s' := (executeWindow (staffed E staff) call limit s).2
    ∃ news, decisionsOf s'.published = decisionsOf s.published ++ news ∧
      ∀ d ∈ news, d.replayId = call.replayId ∧ d.windowId = call.windowId ∧
        s'.gateway.abm.propagate = .ok s'.gateway.abm ∧
        ∃ st, s'.gateway.abm.resolve d.entityId = some st ∧ st.isProtectedAsset = true ∧
          d.action = staff.policy.action st.systemicRisk (evidenceComplete st) ∧
          (staff.policy.blockThreshold = staff.levels.high → staff.policy.monitorThreshold = staff.levels.medium →
            d.action = escalation staff.levels st) := by
  obtain ⟨news, hnews, henforced, -⟩ := @executeWindow_decided _ _ _ _ _ _ _ _ _ E staff call limit s
  refine ⟨news, hnews, fun d hd => ?_⟩
  obtain ⟨hdecision, hsettled⟩ := henforced d hd
  obtain ⟨st, hst, hprotected, haction⟩ := hdecision.device
  refine ⟨hdecision.replay, hdecision.window, hsettled, st, hst, hprotected, haction, fun hblock hmonitor => ?_⟩
  exact haction.trans (action_escalation staff.policy hblock hmonitor st)

omit [RiskNumber F] in
theorem resolve_isProtected {abm : Abm F} {id : String} {st : DeviceState F} (hst : abm.resolve id = some st) :
    abm.isProtected id = st.isProtectedAsset := by
  rw [Abm.isProtected, hst]
  rfl

/-- All risks of a device are in its systemic risk, once they are propagated. -/
theorem risks_le_systemic {abm : Abm F} (h : Settled abm) {id : String} {st : DeviceState F} (hst : abm.resolve id = some st) :
    (∀ r ∈ st.networkRisk, r ≤ st.systemicRisk) ∧ (∀ r ∈ st.behaviorRisk, r ≤ st.systemicRisk) ∧
      st.propagatedRisk ≤ st.systemicRisk := by
  obtain ⟨propagated, -, habm⟩ := GatewayOrder.propagate_parts h
  have hstates : abm.states = abm.states.map (DeviceState.refresh propagated) := congrArg Abm.states habm
  have hmem : st ∈ abm.states.map (DeviceState.refresh propagated) := by
    rw [← hstates]
    exact List.mem_of_find?_eq_some hst
  obtain ⟨st₀, -, rfl⟩ := List.mem_map.mp hmem
  simp only [DeviceState.refresh, DeviceState.systemic]
  cases st₀.networkRisk <;> cases st₀.behaviorRisk <;> simp

/-- In a window that all agents complete, each protected device with an accepted finding is
decided about. It is blocked if any of its risks is at the block threshold, and it is not
allowed at the monitor threshold or without complete evidence. -/
theorem findings_answered (hpublished : Published E) (limit : Nat) (s : World R F (Office σ κ F) δ π) :
    let s' := (executeWindow (staffed E staff) call limit s).2
    .trustAccessController ∈ s'.frame.completed → ∀ f ∈ s'.frame.findings, f.entityId ≠ "" →
      ∀ st, s'.gateway.abm.resolve f.entityId = some st → st.isProtectedAsset = true →
        ∃ d ∈ (decisionsOf s'.published).drop (decisionsOf s.published).length, d.entityId = f.entityId ∧
          ((∃ r ∈ st.networkRisk, staff.policy.blockThreshold ≤ r) ∨ (∃ r ∈ st.behaviorRisk, staff.policy.blockThreshold ≤ r) ∨
            staff.policy.blockThreshold ≤ st.propagatedRisk → d.action = .block) ∧
          (d.action = .allow → evidenceComplete st = true ∧ (∀ r ∈ st.networkRisk, r < staff.policy.monitorThreshold) ∧
            (∀ r ∈ st.behaviorRisk, r < staff.policy.monitorThreshold) ∧ st.propagatedRisk < staff.policy.monitorThreshold) := by
  intro s' hdone f hf hne st hst hprotected
  obtain ⟨news, hnews, henforced, hanswered⟩ := @executeWindow_decided _ _ _ _ _ _ _ _ _ E staff call limit s
  obtain ⟨d, hd, hentity⟩ := hanswered hdone hpublished f.entityId ⟨hne, ⟨f, hf, rfl⟩, (resolve_isProtected hst).trans hprotected⟩
  obtain ⟨st', hst', -, haction⟩ := (henforced d hd).1.device
  have hsame : st' = st := by
    rw [hentity] at hst'
    exact Option.some.inj (hst'.symm.trans hst)
  rw [hsame] at haction
  obtain ⟨hnetwork, hbehavior, hpropagated⟩ := risks_le_systemic (henforced d hd).2 hst
  refine ⟨d, ?_, hentity, fun hrisk => ?_, fun hallow => ?_⟩
  · have hdecisions : decisionsOf s'.published = decisionsOf s.published ++ news := hnews
    rw [hdecisions, List.drop_left]
    exact hd
  · rw [haction]
    refine action_block staff.policy ?_ _
    rcases hrisk with ⟨r, hr, hle⟩ | ⟨r, hr, hle⟩ | hle
    · exact hle.trans (hnetwork r hr)
    · exact hle.trans (hbehavior r hr)
    · exact hle.trans hpropagated
  · obtain ⟨hcomplete, -, hlow⟩ := action_allow staff.policy (haction.symm.trans hallow)
    exact ⟨hcomplete, fun r hr => (hnetwork r hr).trans_lt hlow, fun r hr => (hbehavior r hr).trans_lt hlow,
      hpropagated.trans_lt hlow⟩

end Enforcing

/-! ## A window with an attack on a sensor -/

section Small

open WorkflowRequests WorkflowWindows WorkflowOutcomes ReplaySteps
open OrchestrationReplica (devRuntime)
open ActionCommits (InMemoryLedger)

def spotted : NetworkFinding Percent := ⟨"sensor", 0, devTime, (90 : Nat), "ddos", (95 : Nat)⟩

/-- Each window finds the attack and correlates it. -/
def watchful : Environment devRuntime Percent Unit Unit Unit Unit :=
  { devEnvironment none with
    findingsFromRecords := fun _ _ => (.ok [spotted], ())
    correlate := fun scope _ _ =>
      (.ok ⟨"correlation-1", workflowIdOf scope.replayId, scope.entityId, scope.windowId, [], []⟩, ()) }

def devStaff : Staff Percent InMemoryLedger where
  levels := ⟨(10 : Nat), (50 : Nat), (50 : Nat), (80 : Nat)⟩
  policy := ⟨"policy-1", "1", (50 : Nat), (80 : Nat)⟩
  checks := ⟨fun _ => true, fun _ => true, fun _ => true, fun _ => true⟩
  committer := memoryCommitter (fun _ => true) fun _ => "refused"

abbrev OfficeWorld : Type := World devRuntime Percent (Office Unit InMemoryLedger Percent) Unit Unit

def watched : Environment devRuntime Percent (Office Unit InMemoryLedger Percent) Unit Unit Unit := staffed watchful devStaff

def sensor : DeviceState Percent :=
  ⟨"sensor", "sensor", true, false, false, none, none, false, false, (0 : Nat), (0 : Nat), false, none, none, none, none⟩

/-- A protected sensor without neighbours. -/
def sensorWorld : OfficeWorld where
  env := ⟨(), fun _ => none, .new ⟨1, Nat.one_pos⟩⟩
  detector := ()
  profiler := ()
  gateway := { devWorld.gateway with abm := { devWorld.gateway.abm with states := [sensor], topology := fun _ => some [] } }
  outputs := .start
  windows := []
  published := []
  frame := .start devRuntime Percent
  abmCalls := []

def sensorRegistered : OfficeWorld :=
  { sensorWorld with
    gateway := ⟨{ sensorWorld.gateway.abm with currentWindowId := some 0 }, sensorWorld.gateway.stats⟩
    windows := [newWindow rowCall devTime] }

def sensorStart : OfficeWorld :=
  (publishWindow watched rowCall (.workflowWindowStarted rowCall.workflowId) (some devTime) sensorRegistered).2

def sensorRound (s : OfficeWorld) : OfficeWorld := (roundUnchecked watched rowCall devTime s).2

/-- The rounds of the two detectors, and of the three other agents. -/
def sensorJoined : OfficeWorld := sensorRound (sensorRound sensorStart)

def sensorRounds : OfficeWorld := sensorRound (sensorRound (sensorRound sensorJoined))

theorem sensor_after : executeWindow watched rowCall 64 sensorWorld = closeWindow watched rowCall sensorRounds := by
  have hloop : dispatchLoop watched rowCall devTime maxIterations sensorStart = (.ok (), sensorRounds) := by
    have hstop : dispatchRound watched rowCall devTime sensorRounds = (.ok false, sensorRounds) := by
      have hready : readyAgents sensorRounds.frame.completed sensorRounds.frame.deviceRiskAvailable
          sensorRounds.frame.riskRecAvailable = [] := by decide +kernel
      rw [round_unchecked _ rowAddressable, roundUnchecked, run_bind (rfl : read World.frame sensorRounds = _)]
      simp only [hready]
      rfl
    rw [maxIterations, dispatchLoop_goesOn _ (round_unchecked_ends rowAddressable (by decide +kernel)),
      dispatchLoop_goesOn _ (round_unchecked_ends rowAddressable (by decide +kernel)),
      dispatchLoop_goesOn _ (round_unchecked_ends rowAddressable (by decide +kernel)),
      dispatchLoop_goesOn _ (round_unchecked_ends rowAddressable (by decide +kernel)),
      dispatchLoop_goesOn _ (round_unchecked_ends rowAddressable (by decide +kernel))]
    exact dispatchLoop_stops _ hstop
  have htimed : rowCall.logicalTimestamp.filter (· ≠ "") = some devTime := by decide +kernel
  have hregister : registerWindow rowCall 64 devTime { sensorWorld with
      frame := .start devRuntime Percent
      gateway := { sensorWorld.gateway with
        abm := { sensorWorld.gateway.abm with currentWindowId := some rowCall.windowId } } } = (.ok (), sensorRegistered) := rfl
  have hstart : publishWindow watched rowCall (.workflowWindowStarted rowCall.workflowId) (some devTime) sensorRegistered =
      (.ok (), sensorStart) := rfl
  exact executeWindow_run _ _ htimed hregister hstart hloop

/-- The sensor is decided about, and blocked. -/
theorem sensor_blocked : Published watchful ∧
    ∃ d ∈ decisionsOf (executeWindow watched rowCall 64 sensorWorld).2.published, d.entityId = "sensor" ∧ d.action = .block := by
  have hpublished : Published watchful := fun _ _ => rfl
  have hdone : .trustAccessController ∈ (closeWindow watched rowCall sensorRounds).2.frame.completed := by decide +kernel
  have hfinding : ∃ f ∈ (closeWindow watched rowCall sensorRounds).2.frame.findings, f.entityId = "sensor" := by decide +kernel
  have hstate : ((closeWindow watched rowCall sensorRounds).2.gateway.abm.resolve "sensor").any (fun st =>
      st.isProtectedAsset && st.networkRisk.any fun r => decide (devStaff.policy.blockThreshold ≤ r)) = true := by
    decide +kernel
  have hanswered := findings_answered watchful devStaff rowCall hpublished 64 sensorWorld
  rw [show staffed watchful devStaff = watched from rfl] at hanswered
  refine ⟨hpublished, ?_⟩
  rw [sensor_after] at hanswered ⊢
  generalize (closeWindow watched rowCall sensorRounds).2 = s' at hdone hfinding hstate hanswered ⊢
  obtain ⟨f, hf, hentity⟩ := hfinding
  cases hst : s'.gateway.abm.resolve "sensor" with
  | none =>
    rw [hst] at hstate
    cases hstate
  | some st =>
    rw [hst, Option.any_some, Bool.and_eq_true] at hstate
    obtain ⟨d, hd, hd', hblock, -⟩ := hanswered hdone f hf (by rw [hentity]; decide) st (by rw [hentity]; exact hst) hstate.1
    obtain ⟨r, hr, hle⟩ := (Option.any_eq_true ..).mp hstate.2
    exact ⟨d, hd, hd'.trans hentity, hblock (.inl ⟨r, hr, of_decide_eq_true hle⟩)⟩

end Small

end EnforcedDecisions
