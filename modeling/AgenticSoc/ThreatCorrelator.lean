import AgenticSoc.RiskPropagation
import AgenticSoc.WorkflowScience

/-!
# Threat mapping

The correlator maps the findings of an entity to a threat behaviour by the first finding that
matches a rule of the catalog. The mapping hangs on the order of the findings exactly when a
network finding and a behaviour finding both match, or when the firewall, which looks at
five hundred findings, would see leaking ones in some orders only.
-/
namespace ThreatCorrelator

open DeviceAbm FindingGateway BlackboardRecord

inductive MappingStatus where
  | matched | unmapped | unsupported
  deriving DecidableEq, Repr

def MappingStatus.value : MappingStatus → String
  | .matched => "MappingStatus.MATCHED"
  | .unmapped => "MappingStatus.UNMAPPED"
  | .unsupported => "MappingStatus.UNSUPPORTED"

def catalogVersion : String := "threat_catalog_v1"

structure CatalogRule where
  ruleId : String
  threatBehaviorId : String
  threatBehaviorName : String
  mappingBasis : String
  deriving DecidableEq, Repr

def networkAttackHighConfidence : CatalogRule :=
  { ruleId := "rule_network_attack_high_confidence"
    threatBehaviorId := "TB-NET-01"
    threatBehaviorName := "network_anomaly_confirmed"
    mappingBasis := "network_detector_attack_with_confidence_threshold" }

def behaviorHighDeviation : CatalogRule :=
  { ruleId := "rule_behavior_high_deviation"
    threatBehaviorId := "TB-BEH-01"
    threatBehaviorName := "behavioral_deviation_confirmed"
    mappingBasis := "behavior_profiler_high_deviation_score" }

/-- The numbers of risks, with the thresholds of the catalog. -/
class CatalogNumber (F : Type) extends RiskNumber F where
  sixTenths : F
  eightTenths : F

/-- A finding with its provenance, or an object of another type with these attributes. -/
inductive Evidence (F P : Type) where
  | finding (f : Finding F) (provenance : P)
  | other (entityId : Option String) (windowId : Option Int)

/-- A drawn identity. -/
structure Uuid where
  text : String
  length : text.length = 36

/-- The arguments besides the findings, and the identity drawn for the correlation. -/
structure Request (Q : Type) where
  correlationId : Uuid
  workflowId : String
  entityId : String
  windowId : Int
  logicalTimestamp : String
  provenance : Option Q
  catalogVersion : String

structure Correlation where
  correlationId : String
  workflowId : String
  entityId : String
  windowId : Int
  logicalTimestamp : String
  sourceFindingIds : List String
  mappingStatus : MappingStatus
  threatBehaviorId : Option String
  threatBehaviorName : Option String
  mappingCatalogVersion : String
  mappingRuleId : Option String
  mappingBasis : Option String
  evidenceRefs : List String
  deriving DecidableEq

/-- Which objects and which provenance the firewall lets pass. -/
structure Firewall (F P Q : Type) where
  object : Evidence F P → Bool
  provenance : Q → Bool

section Model

variable {F P Q : Type}

def Evidence.entityId : Evidence F P → Option String
  | .finding f _ => some f.entityId
  | .other entityId _ => entityId

def Evidence.windowId : Evidence F P → Option Int
  | .finding f _ => some f.windowId
  | .other _ windowId => windowId

def Evidence.supported : Evidence F P → Bool
  | .finding _ _ => true
  | .other _ _ => false

/-- The text of an attribute, or a question mark where there is none. -/
def textOr {α : Type} (text : α → String) (x : Option α) : String := (x.map text).getD "?"

def Evidence.sourceId (e : Evidence F P) : String := textOr id e.entityId ++ ":" ++ textOr toString e.windowId

def Evidence.ref (e : Evidence F P) : String := "finding:" ++ textOr id e.entityId

/-- A text of at least and at most so many characters. -/
def within (least most : Nat) (s : String) : Bool := least ≤ s.length && s.length ≤ most

def optionalWithin (most : Nat) (s : Option String) : Bool := s.all fun s => s.length ≤ most

def carries (s : Option String) : Bool := s.any fun s => s ≠ ""

/-- What the contract of a correlation checks. -/
def correlationChecks (fw : Firewall F P Q) (r : Request Q) (c : Correlation) : List (Bool × String) :=
  [(within 1 128 c.correlationId, "correlation_id"),
    (within 1 128 c.workflowId, "workflow_id"),
    (within 1 128 c.entityId, "entity_id"),
    (0 ≤ c.windowId, "window_id"),
    (within 1 64 c.logicalTimestamp, "logical_timestamp"),
    (optionalWithin 64 c.threatBehaviorId, "threat_behavior_id"),
    (optionalWithin 128 c.threatBehaviorName, "threat_behavior_name"),
    (within 1 32 c.mappingCatalogVersion, "mapping_catalog_version"),
    (optionalWithin 64 c.mappingRuleId, "mapping_rule_id"),
    (optionalWithin 256 c.mappingBasis, "mapping_basis"),
    (r.provenance.all fw.provenance, "ground-truth leakage in ThreatCorrelationV1"),
    (c.mappingStatus ≠ .matched || (carries c.threatBehaviorId && carries c.threatBehaviorName && carries c.mappingRuleId),
      "MATCHED requires threat_behavior and rule_id"),
    (c.mappingStatus = .matched || (c.threatBehaviorId.isNone && c.threatBehaviorName.isNone),
      c.mappingStatus.value ++ " must not carry threat_behavior")]

/-- The correlation of the findings, with the mapping by a rule or by none. -/
def Request.correlation (r : Request Q) (evidence : List (Evidence F P)) (status : MappingStatus) (rule : Option CatalogRule) :
    Correlation :=
  { correlationId := r.correlationId.text
    workflowId := r.workflowId
    entityId := r.entityId
    windowId := r.windowId
    logicalTimestamp := r.logicalTimestamp
    sourceFindingIds := evidence.map Evidence.sourceId
    mappingStatus := status
    threatBehaviorId := rule.map CatalogRule.threatBehaviorId
    threatBehaviorName := rule.map CatalogRule.threatBehaviorName
    mappingCatalogVersion := r.catalogVersion
    mappingRuleId := rule.map CatalogRule.ruleId
    mappingBasis := rule.map CatalogRule.mappingBasis
    evidenceRefs := evidence.map Evidence.ref }

/-- Every object is to be of this entity and window, up to the first of another type. -/
def allSupported (entityId : String) (windowId : Int) : List (Evidence F P) → Except String Bool
  | [] => .ok true
  | e :: evidence =>
    if e.entityId ≠ some entityId then .error "finding entity_id mismatch"
    else if e.windowId ≠ some windowId then .error "finding window_id mismatch"
    else if !e.supported then .ok false
    else allSupported entityId windowId evidence

variable [CatalogNumber F]

def ruleOf : Evidence F P → Option CatalogRule
  | .finding (.network f) _ =>
    if f.predictedClass = "attack" ∧ CatalogNumber.sixTenths ≤ f.confidence then some networkAttackHighConfidence else none
  | .finding (.behavior f) _ => if CatalogNumber.eightTenths ≤ f.deviationScore then some behaviorHighDeviation else none
  | .other _ _ => none

/-- The firewall looks at so many members of a list. -/
def firewallWidth : Nat := 500

def correlate (fw : Firewall F P Q) (r : Request Q) (evidence : List (Evidence F P)) : Except String Correlation := do
  if !(evidence.take firewallWidth).all fw.object then throw "ground-truth leakage in threat_correlator findings"
  if !r.provenance.all fw.provenance then throw "ground-truth leakage in threat_correlator provenance"
  let supported ← allSupported r.entityId r.windowId evidence
  let matchedRule := if supported then evidence.findSome? ruleOf else none
  let status := if !supported then .unsupported else if matchedRule.isSome then .matched else .unmapped
  let correlation := r.correlation evidence status matchedRule
  runChecks (correlationChecks fw r correlation)
  return correlation

end Model

/-! ## First matches -/

section FirstMatches

variable {α β : Type}

/-- The first match is the same in every order when all matches are the same. -/
theorem findSome?_stable (f : α → Option β) (l : List α) : (∀ l' : List α, l'.Perm l → l'.findSome? f = l.findSome? f) ↔
    ∀ a ∈ l, ∀ b ∈ l, ∀ x y, f a = some x → f b = some y → x = y := by
  constructor
  · intro h
    have hfirst : ∀ a ∈ l, ∀ x, f a = some x → l.findSome? f = some x := by
      intro a ha x hx
      obtain ⟨before, after, rfl⟩ := List.append_of_mem ha
      rw [← h _ List.perm_middle.symm, List.findSome?_cons, hx]
    intro a ha b hb x y hx hy
    exact Option.some.inj ((hfirst a ha x hx).symm.trans (hfirst b hb y hy))
  · intro h l' hl
    cases hfound : l.findSome? f with
    | none =>
      rw [List.findSome?_eq_none_iff] at hfound ⊢
      exact fun a ha => hfound a (hl.mem_iff.mp ha)
    | some x =>
      obtain ⟨a, ha, hx⟩ := List.exists_of_findSome?_eq_some hfound
      cases hfound' : l'.findSome? f with
      | none => exact absurd hx (by simp [List.findSome?_eq_none_iff.mp hfound' a (hl.mem_iff.mpr ha)])
      | some y =>
        obtain ⟨b, hb, hy⟩ := List.exists_of_findSome?_eq_some hfound'
        rw [h a ha b (hl.mem_iff.mp hb) x y hx hy]

/-- With enough members of a kind, some order has only those in front. -/
theorem exists_front (p : α → Bool) {n : Nat} {l : List α} (h : min n l.length ≤ l.countP p) :
    ∃ l' : List α, l'.Perm l ∧ ∀ a ∈ l'.take n, p a = true := by
  refine ⟨l.filter p ++ l.filter (fun a => !p a), List.filter_append_perm p l, ?_⟩
  intro a ha
  rw [List.countP_eq_length_filter] at h
  have hlength : n ≤ (l.filter p).length ∨ l.filter (fun a => !p a) = [] := by
    by_cases hn : n ≤ (l.filter p).length
    · exact .inl hn
    · refine .inr (List.eq_nil_of_length_eq_zero ?_)
      have hsum := (List.filter_append_perm p l).length_eq
      rw [List.length_append] at hsum
      omega
  have hin : a ∈ l.filter p := by
    rcases hlength with hn | hnone
    · rw [List.take_append_of_le_length hn] at ha
      exact List.mem_of_mem_take ha
    · rw [hnone, List.append_nil] at ha
      exact List.mem_of_mem_take ha
  exact (List.mem_filter.mp hin).2

/-- With too few of them, no order has. -/
theorem exists_other (p : α → Bool) {n : Nat} {l : List α} (h : l.countP p < min n l.length) :
    ∃ a ∈ l.take n, p a = false := by
  by_contra hall
  simp only [not_exists, not_and, Bool.not_eq_false] at hall
  have hcount : (l.take n).countP p = (l.take n).length := List.countP_eq_length.mpr hall
  have hle := (List.take_sublist n l).countP_le (p := p)
  rw [hcount, List.length_take] at hle
  omega

end FirstMatches

/-! ## What a correlation comes to -/

section Outcomes

variable {F P Q : Type} [CatalogNumber F] {fw : Firewall F P Q} {r : Request Q}

/-- The status of a correlation and what it is mapped to. -/
structure Mapping where
  status : MappingStatus
  threatBehaviorId : Option String
  threatBehaviorName : Option String
  ruleId : Option String
  deriving DecidableEq

def Correlation.mapping (c : Correlation) : Mapping :=
  ⟨c.mappingStatus, c.threatBehaviorId, c.threatBehaviorName, c.mappingRuleId⟩

/-- Network and behaviour findings as evidence. -/
def evidenceOf (fs : List (Finding F × P)) : List (Evidence F P) := fs.map fun e => .finding e.1 e.2

def outcome (fw : Firewall F P Q) (r : Request Q) (fs : List (Finding F × P)) : Option Mapping :=
  (correlate fw r (evidenceOf fs)).toOption.map Correlation.mapping

def safeFinding (fw : Firewall F P Q) (e : Finding F × P) : Bool := fw.object (.finding e.1 e.2)

def findingRule (e : Finding F × P) : Option CatalogRule := ruleOf (.finding e.1 e.2)

/-- The arguments besides the findings meet the contract and the firewall. -/
structure Addressed (fw : Firewall F P Q) (r : Request Q) : Prop where
  workflowId : within 1 128 r.workflowId = true
  entityId : within 1 128 r.entityId = true
  windowId : 0 ≤ r.windowId
  logicalTimestamp : within 1 64 r.logicalTimestamp = true
  catalogVersion : within 1 32 r.catalogVersion = true
  provenance : r.provenance.all fw.provenance = true

/-- All that a correlation checks whatever the order: the arguments, and the entity and the
window of each finding. -/
def Bound (fw : Firewall F P Q) (r : Request Q) (fs : List (Finding F × P)) : Prop :=
  Addressed fw r ∧ ∀ e ∈ fs, e.1.entityId = r.entityId ∧ e.1.windowId = r.windowId

def mappedBy (rule : Option CatalogRule) : Mapping :=
  { status := if rule.isSome then .matched else .unmapped
    threatBehaviorId := rule.map CatalogRule.threatBehaviorId
    threatBehaviorName := rule.map CatalogRule.threatBehaviorName
    ruleId := rule.map CatalogRule.ruleId }

theorem findingRule_cases (e : Finding F × P) : findingRule e = none ∨ findingRule e = some networkAttackHighConfidence ∨
    findingRule e = some behaviorHighDeviation := by
  obtain ⟨f, provenance⟩ := e
  cases f with
  | network f =>
    simp only [findingRule, ruleOf]
    split
    · exact .inr (.inl rfl)
    · exact .inl rfl
  | behavior f =>
    simp only [findingRule, ruleOf]
    split
    · exact .inr (.inr rfl)
    · exact .inl rfl

theorem matched_cases (fs : List (Finding F × P)) : fs.findSome? findingRule = none ∨
    fs.findSome? findingRule = some networkAttackHighConfidence ∨ fs.findSome? findingRule = some behaviorHighDeviation := by
  cases hfound : fs.findSome? findingRule with
  | none => exact .inl rfl
  | some rule =>
    obtain ⟨e, -, he⟩ := List.exists_of_findSome?_eq_some hfound
    rcases findingRule_cases e with hnone | hrule | hrule
    · rw [hnone] at he
      cases he
    · exact .inr (.inl (he.symm.trans hrule))
    · exact .inr (.inr (he.symm.trans hrule))

/-- The correlation of findings, mapped by the first that matches. -/
def correlationOf (r : Request Q) (fs : List (Finding F × P)) : Correlation :=
  r.correlation (evidenceOf fs) (if (fs.findSome? findingRule).isSome then .matched else .unmapped)
    (fs.findSome? findingRule)

/-- The contract of a correlation asks no more of a mapping by the catalog. -/
theorem correlationChecks_ok (fs : List (Finding F × P)) :
    runChecks (correlationChecks fw r (correlationOf r fs)) = .ok () ↔ Addressed fw r := by
  have hid : within 1 128 r.correlationId.text = true := by
    rw [within, r.correlationId.length]
    decide
  rw [runChecks_ok]
  constructor
  · intro h
    simp only [correlationChecks, correlationOf, Request.correlation, List.forall_mem_cons] at h
    obtain ⟨-, hworkflow, hentity, hwindow, htimestamp, -, -, hversion, -, -, hprovenance, -⟩ := h
    exact ⟨hworkflow, hentity, of_decide_eq_true hwindow, htimestamp, hversion, hprovenance⟩
  · intro h
    unfold correlationOf
    rcases matched_cases fs with hrule | hrule | hrule <;> rw [hrule] <;>
      simp only [correlationChecks, Request.correlation, List.forall_mem_cons] <;>
      simp [hid, h.workflowId, h.entityId, h.windowId, h.logicalTimestamp, h.catalogVersion, h.provenance] <;> decide

omit [CatalogNumber F] in
theorem allSupported_ok (entityId : String) (windowId : Int) (fs : List (Finding F × P)) :
    allSupported entityId windowId (evidenceOf fs) = .ok true ↔ ∀ e ∈ fs, e.1.entityId = entityId ∧ e.1.windowId = windowId := by
  induction fs with
  | nil => simp [evidenceOf, allSupported]
  | cons e fs ih =>
    have hcons : evidenceOf (e :: fs) = Evidence.finding e.1 e.2 :: evidenceOf fs := rfl
    rw [hcons, allSupported, List.forall_mem_cons, ← ih]
    simp only [Evidence.entityId, Evidence.windowId, Evidence.supported, Bool.not_true, Bool.false_eq_true, if_false,
      Option.some_inj, ne_eq]
    by_cases hentity : e.1.entityId = entityId <;> by_cases hwindow : e.1.windowId = windowId <;> simp [hentity, hwindow]

omit [CatalogNumber F] in
theorem allSupported_findings (entityId : String) (windowId : Int) (fs : List (Finding F × P)) :
    allSupported entityId windowId (evidenceOf fs) ≠ .ok false := by
  induction fs with
  | nil => nofun
  | cons e fs ih =>
    have hcons : evidenceOf (e :: fs) = Evidence.finding e.1 e.2 :: evidenceOf fs := rfl
    rw [hcons, allSupported]
    split
    · nofun
    split
    · nofun
    · exact ih

/-- Findings are mapped by the first that matches, or refused altogether. -/
theorem outcome_eq (fw : Firewall F P Q) (r : Request Q) (fs : List (Finding F × P)) :
    (Bound fw r fs ∧ (∀ e ∈ fs.take firewallWidth, safeFinding fw e = true) ∧
        outcome fw r fs = some (mappedBy (fs.findSome? findingRule))) ∨
      (¬ (Bound fw r fs ∧ ∀ e ∈ fs.take firewallWidth, safeFinding fw e = true) ∧ outcome fw r fs = none) := by
  have hrule : (evidenceOf fs).findSome? ruleOf = fs.findSome? findingRule := by
    rw [evidenceOf, List.findSome?_map]
    rfl
  have hsafe : ((evidenceOf fs).take firewallWidth).all fw.object = true ↔
      ∀ e ∈ fs.take firewallWidth, safeFinding fw e = true := by
    rw [evidenceOf, ← List.map_take, List.all_map, List.all_eq_true]
    rfl
  by_cases hfirewall : ((evidenceOf fs).take firewallWidth).all fw.object = true
  · by_cases hprovenance : r.provenance.all fw.provenance = true
    · cases hsupported : allSupported r.entityId r.windowId (evidenceOf fs) with
      | error message =>
        refine .inr ⟨fun h => ?_, ?_⟩
        · rw [(allSupported_ok r.entityId r.windowId fs).mpr h.1.2] at hsupported
          cases hsupported
        · simp only [outcome, correlate, hfirewall, hprovenance, hsupported]
          rfl
      | ok supported =>
        have htrue : supported = true := by
          cases supported with
          | true => rfl
          | false => exact absurd hsupported (allSupported_findings _ _ fs)
        subst htrue
        have hbound := (allSupported_ok r.entityId r.windowId fs).mp hsupported
        have hcorrelate : correlate fw r (evidenceOf fs) =
            (runChecks (correlationChecks fw r (correlationOf r fs))).map fun _ => correlationOf r fs := by
          unfold correlate correlationOf
          rw [hfirewall, hprovenance, hsupported, ← hrule]
          rfl
        have hchecks : runChecks (correlationChecks fw r (correlationOf r fs)) = .ok () ↔ Addressed fw r :=
          correlationChecks_ok fs
        cases hrun : runChecks (correlationChecks fw r (correlationOf r fs)) with
        | ok u =>
          refine .inl ⟨⟨hchecks.mp hrun, hbound⟩, hsafe.mp hfirewall, ?_⟩
          rw [outcome, hcorrelate, hrun]
          rfl
        | error message =>
          refine .inr ⟨fun h => ?_, ?_⟩
          · rw [hchecks.mpr h.1.1] at hrun
            cases hrun
          · rw [outcome, hcorrelate, hrun]
            rfl
    · refine .inr ⟨fun h => hprovenance h.1.1.provenance, ?_⟩
      simp only [outcome, correlate, hfirewall, hprovenance]
      rfl
  · refine .inr ⟨fun h => hfirewall (hsafe.mpr h.2), ?_⟩
    simp only [outcome, correlate, hfirewall]
    rfl

/-! ## Which findings are mapped alike in every order -/

/-- Any order of the findings, and any identity drawn, gives the same mapping or none. -/
def OrderFree (fw : Firewall F P Q) (r : Request Q) (fs : List (Finding F × P)) : Prop :=
  ∀ gs id, gs.Perm fs → outcome fw { r with correlationId := id } gs = outcome fw r fs

/-- A finding of each kind matches its rule. -/
def Contested (fs : List (Finding F × P)) : Prop :=
  (∃ e ∈ fs, findingRule e = some networkAttackHighConfidence) ∧ ∃ e ∈ fs, findingRule e = some behaviorHighDeviation

/-- Refused in every order, or all seen to be safe and not matched by both rules. -/
def Settled (fw : Firewall F P Q) (r : Request Q) (fs : List (Finding F × P)) : Prop :=
  ¬ Bound fw r fs ∨ fs.countP (safeFinding fw) < min firewallWidth fs.length ∨
    ((∀ e ∈ fs, safeFinding fw e = true) ∧ ¬ Contested fs)

omit [CatalogNumber F] in
theorem bound_perm {fs gs : List (Finding F × P)} (h : gs.Perm fs) (id : Uuid) :
    Bound fw { r with correlationId := id } gs ↔ Bound fw r fs := by
  refine and_congr ⟨fun a => ?_, fun a => ?_⟩ (forall_congr' fun e => by rw [h.mem_iff])
  · exact ⟨a.workflowId, a.entityId, a.windowId, a.logicalTimestamp, a.catalogVersion, a.provenance⟩
  · exact ⟨a.workflowId, a.entityId, a.windowId, a.logicalTimestamp, a.catalogVersion, a.provenance⟩

/-- Once all pass the firewall, the mapping is that of the first match, whatever the order. -/
theorem outcome_safe {fs gs : List (Finding F × P)} (hbound : Bound fw r fs) (hsafe : ∀ e ∈ fs, safeFinding fw e = true)
    (h : gs.Perm fs) (id : Uuid) :
    outcome fw { r with correlationId := id } gs = some (mappedBy (gs.findSome? findingRule)) := by
  rcases outcome_eq fw { r with correlationId := id } gs with ⟨-, -, hsome⟩ | ⟨hrefused, -⟩
  · exact hsome
  · exact absurd ⟨(bound_perm h id).mpr hbound, fun e he => hsafe e (h.mem_iff.mp (List.mem_of_mem_take he))⟩ hrefused

theorem uncontested_iff (fs : List (Finding F × P)) : ¬ Contested fs ↔
    ∀ a ∈ fs, ∀ b ∈ fs, ∀ x y, findingRule a = some x → findingRule b = some y → x = y := by
  constructor
  · intro h a ha b hb x y hx hy
    rcases findingRule_cases a with hnone | hrule | hrule
    · rw [hnone] at hx
      cases hx
    · rcases findingRule_cases b with hnone | hrule' | hrule'
      · rw [hnone] at hy
        cases hy
      · exact Option.some.inj (hx.symm.trans (hrule.trans (hrule'.symm.trans hy)))
      · exact absurd ⟨⟨a, ha, hrule⟩, b, hb, hrule'⟩ h
    · rcases findingRule_cases b with hnone | hrule' | hrule'
      · rw [hnone] at hy
        cases hy
      · exact absurd ⟨⟨b, hb, hrule'⟩, a, ha, hrule⟩ h
      · exact Option.some.inj (hx.symm.trans (hrule.trans (hrule'.symm.trans hy)))
  · rintro h ⟨⟨a, ha, hx⟩, b, hb, hy⟩
    exact absurd (h a ha b hb _ _ hx hy) (by decide)

theorem mappedBy_cases {x y : Option CatalogRule} (h : mappedBy x = mappedBy y)
    (hx : x = none ∨ x = some networkAttackHighConfidence ∨ x = some behaviorHighDeviation)
    (hy : y = none ∨ y = some networkAttackHighConfidence ∨ y = some behaviorHighDeviation) : x = y := by
  rcases hx with rfl | rfl | rfl <;> rcases hy with rfl | rfl | rfl <;> first | rfl | exact absurd h (by decide)

theorem orderFree_of_settled {fs : List (Finding F × P)} (h : Settled fw r fs) : OrderFree fw r fs := by
  intro gs id hperm
  by_cases hbound : Bound fw r fs
  · rcases h with hnot | hfew | ⟨hsafe, huncontested⟩
    · exact absurd hbound hnot
    · have hrefused : ∀ (gs : List (Finding F × P)) id, gs.Perm fs → outcome fw { r with correlationId := id } gs = none := by
        intro gs id hperm
        rw [← hperm.countP_eq, ← hperm.length_eq] at hfew
        obtain ⟨e, he, hleaks⟩ := exists_other (safeFinding fw) hfew
        rcases outcome_eq fw { r with correlationId := id } gs with ⟨-, hall, -⟩ | ⟨-, hnone⟩
        · rw [hall e he] at hleaks
          cases hleaks
        · exact hnone
      rw [hrefused gs id hperm]
      exact (hrefused fs r.correlationId (.refl fs)).symm
    · rw [outcome_safe hbound hsafe hperm id, show outcome fw r fs = _ from outcome_safe hbound hsafe (.refl fs) r.correlationId,
        (findSome?_stable findingRule fs).mpr ((uncontested_iff fs).mp huncontested) gs hperm]
  · have hrefused : ∀ (gs : List (Finding F × P)) id, gs.Perm fs → outcome fw { r with correlationId := id } gs = none := by
      intro gs id hperm
      rcases outcome_eq fw { r with correlationId := id } gs with ⟨hbound', -⟩ | ⟨-, hnone⟩
      · exact absurd ((bound_perm hperm id).mp hbound') hbound
      · exact hnone
    rw [hrefused gs id hperm]
    exact (hrefused fs r.correlationId (.refl fs)).symm

theorem settled_of_orderFree {fs : List (Finding F × P)} (h : OrderFree fw r fs) : Settled fw r fs := by
  by_contra hnot
  simp only [Settled, not_or, not_not, not_lt] at hnot
  obtain ⟨hbound, hmany, hcontested⟩ := hnot
  have hsafe : ∀ e ∈ fs, safeFinding fw e = true := by
    by_contra hleaks
    simp only [not_forall, Bool.not_eq_true] at hleaks
    obtain ⟨e, he, hleaks⟩ := hleaks
    obtain ⟨front, hfront, hfrontSafe⟩ := exists_front (safeFinding fw) hmany
    obtain ⟨before, after, rfl⟩ := List.append_of_mem he
    -- with the safe ones in front the findings are mapped, with the leaking one they are not
    have hmapped : outcome fw r (before ++ e :: after) ≠ none := by
      rw [← h front r.correlationId hfront]
      rcases outcome_eq fw r front with ⟨-, -, hsome⟩ | ⟨hrefused, -⟩
      · exact fun hnone => by cases hsome.symm.trans hnone
      · exact absurd ⟨(bound_perm hfront r.correlationId).mpr hbound, hfrontSafe⟩ hrefused
    have hperm : (e :: (before ++ after)).Perm (before ++ e :: after) := List.perm_middle.symm
    refine hmapped ?_
    rw [← h _ r.correlationId hperm]
    rcases outcome_eq fw r (e :: (before ++ after)) with ⟨-, hall, -⟩ | ⟨-, hnone⟩
    · have hhead := hall e (by simp [firewallWidth])
      rw [hleaks] at hhead
      cases hhead
    · exact hnone
  refine hcontested ⟨hsafe, (uncontested_iff fs).mpr ((findSome?_stable findingRule fs).mp fun gs hperm => ?_)⟩
  have hsame := h gs r.correlationId hperm
  rw [outcome_safe hbound hsafe hperm, show outcome fw r fs = _ from outcome_safe hbound hsafe (.refl fs) r.correlationId] at hsame
  exact mappedBy_cases (Option.some.inj hsame) (matched_cases gs) (matched_cases fs)

end Outcomes

/-! ## The findings of a window -/

section Windows

open WorkflowReadiness WorkflowService WorkflowDispatch WorkflowSteps WorkflowScience
open OrchestrationMessages (Runtime)

variable {T : Type} {R : Runtime T} {F σ δ π ρ : Type} [RiskNumber F]

/-- The findings of a window by entity, as they are given to the correlator. -/
def groups (findings : List (Finding F)) : List (String × List (Finding F)) :=
  Grouping.groupOn Finding.entityId (findings.filter fun f => f.entityId ≠ "")

omit [RiskNumber F] in
theorem groups_perm {fs fs' : List (Finding F)} (h : fs'.Perm fs) : ∀ group ∈ groups fs,
    ∃ group' ∈ groups fs', group'.1 = group.1 ∧ group'.2.Perm group.2 := by
  intro group hgroup
  have hfiltered := h.filter fun f => f.entityId ≠ ""
  have hkey : group.1 ∈ (groups fs).map Prod.fst := List.mem_map_of_mem hgroup
  obtain ⟨f, hf, hentity⟩ := Grouping.mem_groupOn_keys.mp hkey
  have hkey' : group.1 ∈ (groups fs').map Prod.fst := Grouping.mem_groupOn_keys.mpr ⟨f, hfiltered.mem_iff.mpr hf, hentity⟩
  obtain ⟨group', hgroup', hsame⟩ := List.mem_map.mp hkey'
  refine ⟨group', hgroup', hsame, ?_⟩
  rw [(Grouping.covers_groupOn _ _).members group' hgroup', (Grouping.covers_groupOn _ _).members group hgroup, hsame]
  exact hfiltered.filter _

/-- Two windows of the same rows that ran both detectors have found the same, whichever was
dispatched first. -/
theorem executeWindow_findings (E : Environment R F σ δ π ρ) (call : Call ρ) (limit : Nat) {s s' : World R F σ δ π}
    (hgateway : s'.gateway = s.gateway) (hdetector : s'.detector = s.detector) (hprofiler : s'.profiler = s.profiler)
    (hboth : bothDetectors (executeWindow E call limit s).2.frame.completed)
    (hboth' : bothDetectors (executeWindow E call limit s').2.frame.completed) :
    (executeWindow E call limit s').2.frame.findings.Perm (executeWindow E call limit s).2.frame.findings := by
  have hfound : ∀ completed, bothDetectors completed → foundBy E call s.detector s.profiler completed =
      (networkOf E call.netRows s.detector).1.map .network ++
        (behaviorOf E (call.behRows.any Row.observed) call.windowId call.behRows s.profiler).1.map .behavior := by
    intro completed h
    rw [foundBy, if_pos h.1, if_pos h.2]
  have hfirst := (executeWindow_tracks limit s).resolve_right (not_not.mpr hboth)
  have hsecond := (executeWindow_tracks limit s').resolve_right (not_not.mpr hboth')
  have hfindings := hfirst.findings
  have hfindings' := hsecond.findings
  rw [hfound (course _).completed hboth] at hfindings
  rw [hgateway, hdetector, hprofiler, hfound (course _).completed hboth'] at hfindings'
  exact hfindings'.trans hfindings.symm

end Windows

/-! ## The mapping and the order of the findings -/

instance : CatalogNumber ℚ where
  toRiskNumber := inferInstance
  sixTenths := 6 / 10
  eightTenths := 8 / 10

section Claim

open WorkflowService WorkflowDispatch
open OrchestrationMessages (Runtime)

/-- The mapping does not depend on the order of the findings exactly when they are settled.
So two windows of the same rows that ran both detectors correlate settled findings alike. -/
theorem mapping_order_free {F P Q : Type} [CatalogNumber F] (fw : Firewall F P Q) (r : Request Q) :
    (∀ fs, OrderFree fw r fs ↔ Settled fw r fs) ∧
      ∀ {T : Type} {R : Runtime T} {σ δ π ρ : Type} (E : Environment R F σ δ π ρ) (call : Call ρ) (limit : Nat)
        (s s' : World R F σ δ π), s'.gateway = s.gateway → s'.detector = s.detector → s'.profiler = s.profiler →
        bothDetectors (executeWindow E call limit s).2.frame.completed →
        bothDetectors (executeWindow E call limit s').2.frame.completed →
        ∀ group ∈ groups (executeWindow E call limit s).2.frame.findings,
          ∃ group' ∈ groups (executeWindow E call limit s').2.frame.findings, group'.1 = group.1 ∧
            ∀ (provenanceOf : Finding F → P) id, Settled fw r (group.2.map fun f => (f, provenanceOf f)) →
              outcome fw { r with correlationId := id } (group'.2.map fun f => (f, provenanceOf f)) =
                outcome fw r (group.2.map fun f => (f, provenanceOf f)) := by
  refine ⟨fun fs => ⟨settled_of_orderFree, orderFree_of_settled⟩, ?_⟩
  intro T R σ δ π ρ E call limit s s' hgateway hdetector hprofiler hboth hboth' group hgroup
  have hperm := executeWindow_findings E call limit hgateway hdetector hprofiler hboth hboth'
  obtain ⟨group', hgroup', hsame, hmembers⟩ := groups_perm hperm group hgroup
  exact ⟨group', hgroup', hsame, fun provenanceOf id hsettled => orderFree_of_settled hsettled _ id (hmembers.map _)⟩

/-- An attack seen by the network detector and a deviation seen by the profiler. -/
def bothSuspicious : List (Finding ℚ × Unit) :=
  [(.network ⟨"rfid-sensor", 7, "2026-01-01T00:00:00Z", 9 / 10, "attack", 9 / 10⟩, ()),
    (.behavior ⟨"rfid-sensor", 7, "2026-01-01T00:00:00Z", 9 / 10, "continuous", 9 / 10, "deviation"⟩, ())]

def suspicionRequest : Request Unit :=
  { correlationId := ⟨"00000000-0000-4000-8000-000000000000", by decide⟩
    workflowId := "replay-1"
    entityId := "rfid-sensor"
    windowId := 7
    logicalTimestamp := "2026-01-01T00:00:00Z"
    provenance := none
    catalogVersion := catalogVersion }

/-- The first gives a network anomaly, the second a deviation in behaviour. -/
theorem suspicion_order_bound : ¬ OrderFree (P := Unit) ⟨fun _ => true, fun _ => true⟩ suspicionRequest bothSuspicious := by
  intro h
  have hswapped := h bothSuspicious.reverse suspicionRequest.correlationId (List.reverse_perm _)
  exact absurd hswapped (by decide +kernel)

end Claim

end ThreatCorrelator
