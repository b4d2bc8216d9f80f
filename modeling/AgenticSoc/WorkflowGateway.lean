import Mathlib.Data.List.Infix
import Mathlib.Tactic.Common

/-!
# The workflow output gateway

Downstream outputs are bound to their workflow, window and entity when they are accepted,
all kinds in one table. A reference is checked against the binding of its identity, so
the chain of references is sound as long as no identity stands for two kinds of outputs
or for two bindings.
-/
namespace WorkflowGateway

inductive ActionType where
  | allow | monitor | block
  deriving DecidableEq, Repr

structure ThreatCorrelationV1 where
  correlationId : String
  workflowId : String
  entityId : String
  windowId : Int
  sourceFindingIds : List String
  evidenceRefs : List String
  deriving DecidableEq

structure RiskRecommendationV1 where
  recommendationId : String
  workflowId : String
  entityId : String
  windowId : Int
  threatCorrelationRefs : List String
  deriving DecidableEq

structure AccessRecommendationV1 where
  recommendationId : String
  workflowId : String
  entityId : String
  windowId : Int
  logicalTimestamp : String
  action : ActionType
  policyId : String
  policyVersion : String
  evidenceRefs : List String
  evidenceComplete : Bool
  behaviorSupported : Bool
  reasonCodes : List String
  deriving DecidableEq

structure EnforcementDecisionV1 where
  decisionId : String
  workflowId : String
  replayId : String
  windowId : Int
  logicalTimestamp : String
  entityId : String
  action : ActionType
  controllerRecommendationId : String
  policyId : String
  policyVersion : String
  evidenceRefs : List String
  reasonCodes : List String
  evidenceComplete : Bool
  behaviorSupported : Bool
  deriving DecidableEq

structure ConfirmedFeedbackV1 where
  feedbackId : String
  replayId : String
  windowId : Int
  entityId : String
  deriving DecidableEq

/-- What a caller may submit; the last case is no contract of the workflow. -/
inductive Output where
  | threat (output : ThreatCorrelationV1)
  | risk (output : RiskRecommendationV1)
  | access (output : AccessRecommendationV1)
  | enforcement (output : EnforcementDecisionV1)
  | feedback (output : ConfirmedFeedbackV1)
  | other (windowId : Int) (entityId : String)
  deriving DecidableEq

/-- The schemas that the statistics count. -/
inductive Schema where
  | threat | risk | access | enforcement | feedback
  deriving DecidableEq, Repr

def Output.schema : Output → Option Schema
  | .threat _ => some .threat
  | .risk _ => some .risk
  | .access _ => some .access
  | .enforcement _ => some .enforcement
  | .feedback _ => some .feedback
  | .other _ _ => none

def Output.workflowId : Output → Option String
  | .threat o => some o.workflowId
  | .risk o => some o.workflowId
  | .access o => some o.workflowId
  | .enforcement o => some o.workflowId
  | .feedback _ | .other _ _ => none

def Output.replayId : Output → Option String
  | .enforcement o => some o.replayId
  | .feedback o => some o.replayId
  | .threat _ | .risk _ | .access _ | .other _ _ => none

def Output.windowId : Output → Int
  | .threat o => o.windowId
  | .risk o => o.windowId
  | .access o => o.windowId
  | .enforcement o => o.windowId
  | .feedback o => o.windowId
  | .other windowId _ => windowId

def Output.entityId : Output → String
  | .threat o => o.entityId
  | .risk o => o.entityId
  | .access o => o.entityId
  | .enforcement o => o.entityId
  | .feedback o => o.entityId
  | .other _ entityId => entityId

/-- The identity under which an accepted output is bound; feedback is not bound. -/
def Output.boundId : Output → Option String
  | .threat o => some o.correlationId
  | .risk o => some o.recommendationId
  | .access o => some o.recommendationId
  | .enforcement o => some o.decisionId
  | .feedback _ | .other _ _ => none

structure Binding where
  workflowId : String
  windowId : Int
  entityId : String
  deriving DecidableEq, Repr

def Output.binding (o : Output) : Binding := ⟨o.workflowId.getD "", o.windowId, o.entityId⟩

/-- What the caller expects of the output. -/
structure Expected where
  workflowId : Option String
  replayId : Option String
  windowId : Option Int
  entityId : Option String

structure WorkflowGatewayStats where
  submitted : Nat
  accepted : Schema → Nat
  rejectedSchema : Nat
  rejectedBinding : Nat

structure WorkflowOutputGateway where
  stats : WorkflowGatewayStats
  outputBindings : String → Option Binding

def WorkflowOutputGateway.start : WorkflowOutputGateway := ⟨⟨0, fun _ => 0, 0, 0⟩, fun _ => none⟩

/-- The first expectation that the output does not meet. -/
def mismatch (o : Output) (e : Expected) : Option String :=
  if e.workflowId.isSome && o.workflowId ≠ e.workflowId then some "workflow_id_mismatch"
  else if e.replayId.isSome && o.replayId ≠ e.replayId then some "replay_id_mismatch"
  else if e.windowId.isSome && some o.windowId ≠ e.windowId then some "window_id_mismatch"
  else if e.entityId.isSome && some o.entityId ≠ e.entityId then some "entity_id_mismatch"
  else none

/-- Every reference is bound as the output is. -/
def bound (g : WorkflowOutputGateway) (o : Output) (refs : List String) : Bool :=
  refs.all fun ref => g.outputBindings ref = some o.binding

/-- The first reference check that the output fails. -/
def badReference (g : WorkflowOutputGateway) (o : Output) : Option String :=
  match o with
  | .threat t =>
    if t.sourceFindingIds.any (fun ref => !(t.entityId ++ ":").toList.isPrefixOf ref.toList) ||
      t.evidenceRefs.any (fun ref => ref ≠ "finding:" ++ t.entityId)
    then some "finding_reference_mismatch" else none
  | .risk r => if !bound g o r.threatCorrelationRefs then some "threat_reference_mismatch" else none
  | .access a => if !bound g o a.evidenceRefs then some "evidence_reference_mismatch" else none
  | .enforcement d =>
    if !bound g o [d.controllerRecommendationId] then some "controller_reference_mismatch"
    else if !bound g o d.evidenceRefs then some "evidence_reference_mismatch"
    else none
  | .feedback _ | .other _ _ => none

def rejectSchema (g : WorkflowOutputGateway) : WorkflowOutputGateway :=
  { g with stats := { g.stats with rejectedSchema := g.stats.rejectedSchema + 1 } }

def rejectBinding (g : WorkflowOutputGateway) : WorkflowOutputGateway :=
  { g with stats := { g.stats with rejectedBinding := g.stats.rejectedBinding + 1 } }

/-- The output is bound, whatever its identity stood for before. -/
def bind (g : WorkflowOutputGateway) (o : Output) : WorkflowOutputGateway :=
  match o.boundId with
  | some id => { g with outputBindings := fun id' => if id' = id then some o.binding else g.outputBindings id' }
  | none => g

section Gateway

/- The check of the output's dump for forbidden content. -/
variable (safe : Output → Bool)

def submit (g : WorkflowOutputGateway) (o : Output) (e : Expected) : WorkflowOutputGateway × Bool :=
  let g := { g with stats := { g.stats with submitted := g.stats.submitted + 1 } }
  if !safe o then (rejectSchema g, false)
  else
    match o.schema with
    | none => (rejectSchema g, false)
    | some schema =>
      match mismatch o e, badReference g o with
      | some _, _ => (rejectBinding g, false)
      | none, some _ => (rejectBinding g, false)
      | none, none =>
        let g := bind g o
        ({ g with stats := { g.stats with accepted := fun s =>
            if s = schema then g.stats.accepted s + 1 else g.stats.accepted s } }, true)

/-- A gateway with the outputs that it has accepted, in their order. -/
structure Run where
  gateway : WorkflowOutputGateway
  accepted : List Output

def Run.start : Run := ⟨.start, []⟩

def Run.submit (s : Run) (c : Output × Expected) : Run :=
  match WorkflowGateway.submit safe s.gateway c.1 c.2 with
  | (g, true) => ⟨g, s.accepted ++ [c.1]⟩
  | (g, false) => ⟨g, s.accepted⟩

def run (s : Run) (calls : List (Output × Expected)) : Run := calls.foldl (Run.submit safe) s

/-! ## The chain of references -/

/-- The output gives no identity another binding. -/
def Unmoved (before : List Output) (o : Output) : Prop :=
  ∀ p ∈ before, p.boundId = o.boundId → p.boundId ≠ none → p.binding = o.binding

/-- What the output references as of one kind has been accepted as of no other kind. -/
def KindsKept (before : List Output) : Output → Prop
  | .risk r => ∀ p ∈ before, ∀ ref ∈ r.threatCorrelationRefs, p.boundId = some ref → p.schema = some .threat
  | .enforcement d => ∀ p ∈ before, p.boundId = some d.controllerRecommendationId → p.schema = some .access
  | .threat _ | .access _ | .feedback _ | .other _ _ => True

def Distinct (before : List Output) (o : Output) : Prop := Unmoved before o ∧ KindsKept before o

instance (before : List Output) (o : Output) : Decidable (KindsKept before o) :=
  match o with
  | .risk r => inferInstanceAs (Decidable (∀ p ∈ before, ∀ ref ∈ r.threatCorrelationRefs, _ → _))
  | .enforcement d => inferInstanceAs (Decidable (∀ p ∈ before, p.boundId = some d.controllerRecommendationId → _))
  | .threat _ | .access _ | .feedback _ | .other _ _ => isTrue trivial

instance (before : List Output) (o : Output) : Decidable (Unmoved before o) :=
  inferInstanceAs (Decidable (∀ p ∈ before, p.boundId = o.boundId → p.boundId ≠ none → p.binding = o.binding))

instance (before : List Output) (o : Output) : Decidable (Distinct before o) :=
  inferInstanceAs (Decidable (Unmoved before o ∧ KindsKept before o))

/-- Each call of the run comes in a state that meets the condition. -/
def Along (P : List Output → Output → Prop) : Run → List (Output × Expected) → Prop
  | _, [] => True
  | s, c :: calls => P s.accepted c.1 ∧ Along P (s.submit safe c) calls

/-- Every reference of the output is to an output of its kind and binding among the ones
before it. -/
def Chained (before : List Output) : Output → Prop
  | .risk r => ∀ ref ∈ r.threatCorrelationRefs, ∃ t, .threat t ∈ before ∧ t.correlationId = ref ∧
      (Output.threat t).binding = (Output.risk r).binding
  | .enforcement d => ∃ a, .access a ∈ before ∧ a.recommendationId = d.controllerRecommendationId ∧
      (Output.access a).binding = (Output.enforcement d).binding
  | _ => True

/-- The table holds what accepted outputs are bound to. -/
def Recorded (s : Run) : Prop :=
  ∀ id b, s.gateway.outputBindings id = some b → ∃ p ∈ s.accepted, p.boundId = some id ∧ p.binding = b

theorem submit_accepted {g g' : WorkflowOutputGateway} {o : Output} {e : Expected} (h : submit safe g o e = (g', true)) :
    badReference g o = none ∧ g'.outputBindings = (bind g o).outputBindings := by
  unfold submit at h
  simp only at h
  split at h
  · cases h
  · split at h
    · cases h
    · split at h
      · cases h
      · cases h
      · rename_i hbad
        cases h
        have hsame : badReference g o = none := by rw [← hbad]; cases o <;> rfl
        refine ⟨hsame, ?_⟩
        unfold bind
        cases o.boundId <;> rfl

theorem submit_rejected {g g' : WorkflowOutputGateway} {o : Output} {e : Expected} (h : submit safe g o e = (g', false)) :
    g'.outputBindings = g.outputBindings := by
  unfold submit at h
  simp only at h
  split at h
  · cases h
    rfl
  · split at h
    · cases h
      rfl
    · split at h <;> cases h <;> rfl

theorem bound_refs {g : WorkflowOutputGateway} {o : Output} {refs : List String} (h : bound g o refs = true) :
    ∀ ref ∈ refs, g.outputBindings ref = some o.binding := by
  intro ref hin
  exact of_decide_eq_true (List.all_eq_true.mp h ref hin)

/-- What the reference checks leave, whatever the kinds: each reference is to an output
that was accepted with the same binding. -/
theorem references_bound {s : Run} (h : Recorded s) {o : Output} {refs : List String}
    (hbound : bound s.gateway o refs = true) :
    ∀ ref ∈ refs, ∃ p ∈ s.accepted, p.boundId = some ref ∧ p.binding = o.binding :=
  fun ref hin => h ref _ (bound_refs hbound ref hin)

theorem recorded_bind {s : Run} (h : Recorded s) {g' : WorkflowOutputGateway} {o : Output}
    (hg : g'.outputBindings = (bind s.gateway o).outputBindings) : Recorded ⟨g', s.accepted ++ [o]⟩ := by
  intro id b hb
  change g'.outputBindings id = some b at hb
  have hold : s.gateway.outputBindings id = some b → ∃ p ∈ s.accepted ++ [o], p.boundId = some id ∧ p.binding = b := by
    intro hs
    obtain ⟨p, hp, hid⟩ := h id b hs
    exact ⟨p, List.mem_append_left _ hp, hid⟩
  rw [hg] at hb
  unfold bind at hb
  cases hid : o.boundId with
  | none =>
    rw [hid] at hb
    exact hold hb
  | some id' =>
    rw [hid] at hb
    simp only at hb
    split at hb
    · rename_i he
      refine ⟨o, List.mem_append_right _ (List.mem_singleton.mpr rfl), ?_, Option.some.inj hb⟩
      rw [hid, he]
    · exact hold hb

/-- A checked output whose references are distinct closes the chain. -/
theorem chained_of_distinct {s : Run} (h : Recorded s) {o : Output} (hdistinct : Distinct s.accepted o)
    (hbad : badReference s.gateway o = none) : Chained s.accepted o := by
  cases o with
  | threat t => trivial
  | access a => trivial
  | feedback f => trivial
  | other w e => trivial
  | risk r =>
    have hbound : bound s.gateway (.risk r) r.threatCorrelationRefs = true := by
      by_contra hne
      rw [Bool.not_eq_true] at hne
      simp [badReference, hne] at hbad
    intro ref href
    obtain ⟨p, hp, hid, hbinding⟩ := references_bound h hbound ref href
    have hkind := hdistinct.2 p hp ref href hid
    cases p with
    | threat t => exact ⟨t, hp, Option.some.inj hid, hbinding⟩
    | risk _ | access _ | enforcement _ | feedback _ | other _ _ => cases hkind
  | enforcement d =>
    have hbound : bound s.gateway (.enforcement d) [d.controllerRecommendationId] = true := by
      by_contra hne
      rw [Bool.not_eq_true] at hne
      simp [badReference, hne] at hbad
    obtain ⟨p, hp, hid, hbinding⟩ := references_bound h hbound _ (List.mem_singleton.mpr rfl)
    have hkind := hdistinct.2 p hp hid
    cases p with
    | access a => exact ⟨a, hp, Option.some.inj hid, hbinding⟩
    | threat _ | risk _ | enforcement _ | feedback _ | other _ _ => cases hkind

/-- Every accepted output is chained to the ones before it and moves none of them. -/
def Sound (s : Run) : Prop :=
  ∀ before o after, s.accepted = before ++ o :: after → Chained before o ∧ Unmoved before o

theorem sound_append {s : Run} (h : Sound s) {g' : WorkflowOutputGateway} {o : Output} (hchained : Chained s.accepted o)
    (hunmoved : Unmoved s.accepted o) : Sound ⟨g', s.accepted ++ [o]⟩ := by
  intro before p after hsplit
  change s.accepted ++ [o] = before ++ p :: after at hsplit
  rcases List.eq_nil_or_concat after with rfl | ⟨init, last, rfl⟩
  · obtain ⟨hbefore, hp⟩ := List.append_inj' hsplit rfl
    cases hp
    rw [← hbefore]
    exact ⟨hchained, hunmoved⟩
  · rw [List.concat_eq_append, ← List.cons_append, ← List.append_assoc] at hsplit
    obtain ⟨hbefore, -⟩ := List.append_inj' hsplit rfl
    exact h before p init hbefore

theorem Sound.submit {s : Run} (h : Recorded s ∧ Sound s) {c : Output × Expected} (hdistinct : Distinct s.accepted c.1) :
    Recorded (s.submit safe c) ∧ Sound (s.submit safe c) := by
  unfold Run.submit
  split
  · rename_i g' heq
    obtain ⟨hbad, hg⟩ := submit_accepted safe heq
    exact ⟨recorded_bind h.1 hg, sound_append h.2 (chained_of_distinct h.1 hdistinct hbad) hdistinct.1⟩
  · rename_i g' heq
    refine ⟨fun id b hb => ?_, h.2⟩
    change g'.outputBindings id = some b at hb
    rw [submit_rejected safe heq] at hb
    exact h.1 id b hb

end Gateway

/-! ## One table for all kinds -/

def devExpected : Expected := ⟨some "workflow", none, some 1, some "camera"⟩

def devThreat (correlationId : String) : Output := .threat ⟨correlationId, "workflow", "camera", 1, ["camera:1"], []⟩

def devRisk (recommendationId ref : String) : Output := .risk ⟨recommendationId, "workflow", "camera", 1, [ref]⟩

def devAccess (recommendationId : String) (refs : List String) : Output :=
  .access ⟨recommendationId, "workflow", "camera", 1, "2026-01-01T00:00:00Z", .monitor, "policy", "1", refs, true, true, []⟩

def devDecision (decisionId controllerRecommendationId : String) : Output :=
  .enforcement ⟨decisionId, "workflow", "replay", 1, "2026-01-01T00:00:00Z", "camera", .monitor,
    controllerRecommendationId, "policy", "1", [], [], true, true⟩

end WorkflowGateway
