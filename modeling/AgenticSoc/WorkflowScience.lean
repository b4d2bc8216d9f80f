import AgenticSoc.GatewayOrder
import AgenticSoc.WorkflowSteps

/-!
# What a window's science comes to

The findings of a window are decided by its rows and by the detector and the profiler, and
what the gateway makes of them by the findings. The workflow comes to just that, in whichever
order its two detectors ran.
-/
namespace WorkflowScience

open Procedure WorkflowReadiness DeviceAbm FindingGateway WorkflowService WorkflowDispatch WorkflowSteps GatewayOrder
open OrchestrationMessages (Runtime)

section Findings

variable {P : Type} {R : Runtime P} {F σ δ π ρ : Type} (E : Environment R F σ δ π ρ)

/-- What the detector finds in the rows, if it does not raise. -/
def networkOf (rows : List (Row ρ)) (d : δ) : List (NetworkFinding F) × δ :=
  if (rows.filter Row.observed).isEmpty then ([], d)
  else
    match E.findingsFromRecords (rows.filter Row.observed) d with
    | (.ok findings, d) => (findings, d)
    | (.error _, d) => ([], d)

/-- What the profiler finds in the rows, one after the other, if it does not raise. -/
def behaviorOf (contextActive : Bool) (windowId : Int) : List (Row ρ) → π → List (BehaviorFinding F) × π
  | [], p => ([], p)
  | row :: rows, p =>
    match E.predictRecord row contextActive windowId p with
    | (.ok found, p) => (found.toList ++ (behaviorOf contextActive windowId rows p).1, (behaviorOf contextActive windowId rows p).2)
    | (.error _, p) => ([], p)

variable [RiskNumber F]

/-- Whether the gateway accepts the finding, with these devices. -/
def accepts (devices : List (String × Bool)) (f : Finding F) : Bool := verdict E.validTimestamp devices f = .accepted

def instruments (s : World R F σ δ π) : δ × π := (s.detector, s.profiler)

/-! ## Submissions -/

/-- A submission that does not raise leaves the gateway as the finding's verdict says. -/
theorem submitFinding_ok (f : Finding F) (s : World R F σ δ π) :
    Ends (submitFinding E f) s fun r s' => instruments s' = instruments s ∧ s'.frame = s.frame ∧ ∀ b, r = .ok b →
      b = accepts E (roster s.gateway.abm) f ∧ s'.gateway = absorb E.validTimestamp s.gateway [f] := by
  have habsorb : absorb E.validTimestamp s.gateway [f] =
      enact f (verdict E.validTimestamp (roster s.gateway.abm) f) s.gateway := by
    rw [absorb, List.foldl_cons, List.foldl_nil, submit_verdict]
  unfold Ends submitFinding
  rw [submit_verdict, habsorb]
  unfold accepts
  cases verdict E.validTimestamp (roster s.gateway.abm) f with
  | accepted =>
    refine ⟨rfl, rfl, fun b hb => ?_⟩
    simp only [Verdict.answer] at hb
    cases honFinding : (E.onFinding f s.env).1 with
    | error e =>
      rw [honFinding] at hb
      cases hb
    | ok u =>
      rw [honFinding] at hb
      cases hb
      exact ⟨rfl, rfl⟩
  | unknownEntity => exact ⟨rfl, rfl, fun b hb => by cases hb; exact ⟨rfl, rfl⟩⟩
  | badTimestamp => exact ⟨rfl, rfl, fun b hb => by cases hb; exact ⟨rfl, rfl⟩⟩
  | unsupported => exact ⟨rfl, rfl, fun b hb => by cases hb⟩

/-- Findings gathered since another state. -/
structure Gathered (fs : List (Finding F)) (s s' : World R F σ δ π) : Prop where
  gateway : s'.gateway = absorb E.validTimestamp s.gateway fs
  findings : s'.frame.findings = s.frame.findings ++ fs.filter (accepts E (roster s.gateway.abm))
  completed : s'.frame.completed = s.frame.completed

theorem Gathered.refl (s : World R F σ δ π) : Gathered E [] s s := ⟨rfl, (List.append_nil _).symm, rfl⟩

theorem Gathered.trans {fs fs' : List (Finding F)} {s s' s'' : World R F σ δ π} (h : Gathered E fs s s')
    (h' : Gathered E fs' s' s'') : Gathered E (fs ++ fs') s s'' := by
  have hroster : roster s'.gateway.abm = roster s.gateway.abm := by rw [h.gateway, roster_absorb]
  refine ⟨?_, ?_, h'.completed.trans h.completed⟩
  · rw [h'.gateway, h.gateway, absorb, absorb, absorb, List.foldl_append]
  · rw [h'.findings, h.findings, hroster, List.filter_append, List.append_assoc]

theorem gatherFinding_ok (f : Finding F) (s : World R F σ δ π) :
    Ends (gatherFinding E f) s fun r s' => instruments s' = instruments s ∧ ∀ b, r = .ok b → Gathered E [f] s s' := by
  refine ends_bind (submitFinding_ok E f s) (fun b s₁ h₁ => ?_) fun e s₁ h₁ => ⟨h₁.1, nofun⟩
  obtain ⟨hinstruments, hframe, hok⟩ := h₁
  obtain ⟨hb, hgateway⟩ := hok b rfl
  have hcompleted : s₁.frame.completed = s.frame.completed := congrArg Frame.completed hframe
  cases b with
  | true =>
    refine ⟨hinstruments, fun _ _ => ⟨hgateway, ?_, hcompleted⟩⟩
    change s₁.frame.findings ++ [f] = _
    rw [hframe, List.filter_cons_of_pos hb.symm, List.filter_nil]
  | false =>
    refine ⟨hinstruments, fun _ _ => ⟨hgateway, ?_, hcompleted⟩⟩
    change s₁.frame.findings = _
    rw [hframe, List.filter_cons_of_neg (by rw [← hb]; exact Bool.false_ne_true), List.filter_nil, List.append_nil]

theorem gatherAll_ok (ns : List (NetworkFinding F)) (s : World R F σ δ π) :
    Ends (each (fun f => do let _ ← gatherFinding E (.network f)) ns) s fun r s' =>
      instruments s' = instruments s ∧ (r = .ok () → Gathered E (ns.map .network) s s') := by
  induction ns generalizing s with
  | nil => exact ⟨rfl, fun _ => .refl E s⟩
  | cons f ns ih =>
    refine ends_bind (M := fun r s₁ => instruments s₁ = instruments s ∧ (r = .ok () → Gathered E [.network f] s s₁)) ?_
      (fun _ s₁ h₁ => ?_) fun e s₁ h₁ => ⟨h₁.1, nofun⟩
    · exact ends_bind (gatherFinding_ok E (.network f) s) (fun b s₁ h₁ => ⟨h₁.1, fun _ => h₁.2 b rfl⟩) fun e s₁ h₁ => ⟨h₁.1, nofun⟩
    · exact (ih s₁).mono fun r s₂ h₂ => ⟨h₂.1.trans h₁.1, fun hr => (h₁.2 rfl).trans E (h₂.2 hr)⟩

variable (call : Call ρ)

/-- The network detector leaves what it finds. -/
theorem networkWork_ok (dispatchId : String) (s : World R F σ δ π) :
    Ends (networkWork E call dispatchId) s fun r s' => r = .ok () →
      instruments s' = ((networkOf E call.netRows s.detector).2, s.profiler) ∧
      Gathered E ((networkOf E call.netRows s.detector).1.map .network) s s' := by
  have hsame : ∀ {fs : List (Finding F)} {s₁ s₂ : World R F σ δ π}, course s₂ = course s₁ → Gathered E fs s s₁ →
      instruments s₂ = instruments s₁ ∧ Gathered E fs s s₂ := by
    intro fs s₁ s₂ h h₁
    refine ⟨congrArg (fun v => (v.detector, v.profiler)) h, ?_, ?_, ?_⟩
    · exact (congrArg View.gateway h).trans h₁.gateway
    · exact (congrArg View.findings h).trans h₁.findings
    · exact (congrArg View.completed h).trans h₁.completed
  unfold networkWork networkOf
  simp only
  split
  · exact fun _ => hsame (publishWindow_course E call _ _ s) (.refl E s)
  · cases hdetect : E.findingsFromRecords (call.netRows.filter Row.observed) s.detector with
    | mk found d =>
      cases found with
      | error e =>
        have hraised : detect E (call.netRows.filter Row.observed) s = (.error e, { s with detector := d }) := by
          unfold detect
          rw [hdetect]
        rw [Ends, run_bind_error hraised]
        exact nofun
      | ok ns =>
        have hfound : detect E (call.netRows.filter Row.observed) s = (.ok ns, { s with detector := d }) := by
          unfold detect
          rw [hdetect]
        rw [Ends, run_bind hfound]
        refine ends_bind (Q := fun r s' => r = .ok () → instruments s' = (d, s.profiler) ∧ Gathered E (ns.map .network) s s')
          (gatherAll_ok E ns { s with detector := d }) (fun _ s₁ h₁ => ?_) fun e s₁ _ => nofun
        intro _
        have hgathered : Gathered E (ns.map .network) s s₁ := ⟨(h₁.2 rfl).gateway, (h₁.2 rfl).findings, (h₁.2 rfl).completed⟩
        have hlast := hsame (keeps_course (publishCompleted_keeps E call .networkAnomalyDetector dispatchId (some ns.length)) s₁)
          hgathered
        exact ⟨hlast.1.trans h₁.1, hlast.2⟩

theorem profileRows_ok (contextActive : Bool) (rows : List (Row ρ)) (accepted : Nat) (s : World R F σ δ π) :
    Ends (profileRows E call contextActive rows accepted) s fun r s' => ∀ n, r = .ok n →
      instruments s' = (s.detector, (behaviorOf E contextActive call.windowId rows s.profiler).2) ∧
      Gathered E ((behaviorOf E contextActive call.windowId rows s.profiler).1.map .behavior) s s' := by
  induction rows generalizing accepted s with
  | nil => exact fun _ _ => ⟨rfl, .refl E s⟩
  | cons row rows ih =>
    unfold profileRows behaviorOf
    cases hpredict : E.predictRecord row contextActive call.windowId s.profiler with
    | mk found p =>
      cases found with
      | error e =>
        have hraised : predict E row contextActive call.windowId s = (.error e, { s with profiler := p }) := by
          unfold predict
          rw [hpredict]
        rw [Ends, run_bind_error hraised]
        exact nofun
      | ok found =>
        have hfound : predict E row contextActive call.windowId s = (.ok found, { s with profiler := p }) := by
          unfold predict
          rw [hpredict]
        rw [Ends, run_bind hfound]
        cases found with
        | none =>
          intro n hn
          obtain ⟨hinstruments, hgathered⟩ := ih accepted { s with profiler := p } n hn
          exact ⟨hinstruments, hgathered.gateway, hgathered.findings, hgathered.completed⟩
        | some f =>
          refine ends_bind (Q := fun r s' => ∀ n, r = .ok n → instruments s' = _ ∧ Gathered E _ s s')
            (gatherFinding_ok E (.behavior f) { s with profiler := p }) (fun ok s₁ h₁ => ?_) fun e s₁ _ => nofun
          have hfirst : Gathered E [.behavior f] s s₁ := ⟨(h₁.2 ok rfl).gateway, (h₁.2 ok rfl).findings, (h₁.2 ok rfl).completed⟩
          have hdetector : s₁.detector = s.detector := congrArg Prod.fst h₁.1
          have hprofiler : s₁.profiler = p := congrArg Prod.snd h₁.1
          intro n hn
          obtain ⟨hinstruments, hgathered⟩ := ih _ s₁ n hn
          rw [hprofiler] at hinstruments hgathered
          rw [hdetector] at hinstruments
          exact ⟨hinstruments, hfirst.trans E hgathered⟩

/-- The profiler leaves what it finds. -/
theorem behaviorWork_ok (dispatchId : String) (s : World R F σ δ π) :
    Ends (behaviorWork E call dispatchId) s fun r s' => r = .ok () →
      instruments s' = (s.detector, (behaviorOf E (call.behRows.any Row.observed) call.windowId call.behRows s.profiler).2) ∧
      Gathered E ((behaviorOf E (call.behRows.any Row.observed) call.windowId call.behRows s.profiler).1.map .behavior) s s' := by
  refine ends_bind (profileRows_ok E call _ call.behRows 0 s) (fun n s₁ h₁ _ => ?_) fun e s₁ _ => nofun
  obtain ⟨hinstruments, hgathered⟩ := h₁ n rfl
  have hsame := keeps_course (publishCompleted_keeps E call .iotBehavioralProfiler dispatchId (some n)) s₁
  refine ⟨(congrArg (fun v => (v.detector, v.profiler)) hsame).trans hinstruments, ?_, ?_, ?_⟩
  · exact (congrArg View.gateway hsame).trans hgathered.gateway
  · exact (congrArg View.findings hsame).trans hgathered.findings
  · exact (congrArg View.completed hsame).trans hgathered.completed

/-! ## The science of a window -/

/-- The findings of the detectors that are done. -/
def foundBy (d₀ : δ) (p₀ : π) (completed : List AgentId) : List (Finding F) :=
  (if .networkAnomalyDetector ∈ completed then (networkOf E call.netRows d₀).1.map .network else []) ++
  if .iotBehavioralProfiler ∈ completed then
    (behaviorOf E (call.behRows.any Row.observed) call.windowId call.behRows p₀).1.map .behavior else []

/-- A window has come to what its findings make of the gateway, since the window began. -/
structure Tracks (g₀ : Gateway F) (d₀ : δ) (p₀ : π) (v : View F δ π) : Prop where
  ordered : .threatIntelligenceCorrelator ∈ v.completed → bothDetectors v.completed
  detector : v.detector = if .networkAnomalyDetector ∈ v.completed then (networkOf E call.netRows d₀).2 else d₀
  profiler : v.profiler = if .iotBehavioralProfiler ∈ v.completed then
    (behaviorOf E (call.behRows.any Row.observed) call.windowId call.behRows p₀).2 else p₀
  findings : v.findings.Perm ((foundBy E call d₀ p₀ v.completed).filter (accepts E (roster g₀.abm)))
  unjoined : ¬ bothDetectors v.completed →
    current none v.gateway = current none (absorb E.validTimestamp g₀ (foundBy E call d₀ p₀ v.completed))
  joined : bothDetectors v.completed → ¬ v.joinFailed →
    stepped call.windowId (absorb E.validTimestamp g₀ (foundBy E call d₀ p₀ v.completed)) = some v.gateway

theorem absorb_append (validTimestamp : String → Bool) (g : Gateway F) (l m : List (Finding F)) :
    absorb validTimestamp g (l ++ m) = absorb validTimestamp (absorb validTimestamp g l) m := List.foldl_append

theorem absorb_congr (validTimestamp : String → Bool) {g g' : Gateway F} (h : current none g = current none g')
    (fs : List (Finding F)) :
    current none (absorb validTimestamp g fs) = current none (absorb validTimestamp g' fs) := by
  have hroster : roster g.abm = roster g'.abm := by
    rw [← roster_current none g, h, roster_current]
  rw [current_absorb, current_absorb, hroster, h]

/-- What a detector adds to what the other has found, in whichever order they ran. -/
theorem found_next {a : AgentId} (ha : a = .networkAnomalyDetector ∨ a = .iotBehavioralProfiler) (d₀ : δ) (p₀ : π)
    {completed : List AgentId} (hmissing : a ∉ completed) (g : Gateway F) :
    (foundBy E call d₀ p₀ completed ++ foundBy E call d₀ p₀ [a]).Perm (foundBy E call d₀ p₀ (completed ++ [a])) ∧
    current none (absorb E.validTimestamp g (foundBy E call d₀ p₀ completed ++ foundBy E call d₀ p₀ [a])) =
      current none (absorb E.validTimestamp g (foundBy E call d₀ p₀ (completed ++ [a]))) := by
  unfold foundBy
  rcases ha with rfl | rfl
  · by_cases hbehavior : .iotBehavioralProfiler ∈ completed
    · simp [hmissing, hbehavior, List.perm_append_comm, absorb_swap]
    · simp [hmissing, hbehavior]
  · by_cases hnetwork : .networkAnomalyDetector ∈ completed
    · simp [hmissing, hnetwork]
    · simp [hmissing, hnetwork]

/-! ## The join -/

omit [RiskNumber F] in
theorem mayFail_instruments (fault : σ → Option String × σ) : Keeps instruments (mayFail fault : Work R F σ δ π Unit) := by
  intro s
  unfold mayFail
  split <;> rfl

omit [RiskNumber F] in
theorem onAbm_instruments (f : Abm F → Abm F) : Keeps instruments (onAbm f : Work R F σ δ π Unit) := fun _ => rfl

omit [RiskNumber F] in
theorem noteAbmCall_instruments (c : AbmCall F) : Keeps instruments (noteAbmCall c : Work R F σ δ π Unit) := fun _ => rfl

omit [RiskNumber F] in
theorem onFrame_instruments (f : Frame R F → Frame R F) : Keeps instruments (onFrame f : Work R F σ δ π Unit) := fun _ => rfl

theorem propagate_instruments : Keeps instruments (propagate E) := by
  refine (mayFail_instruments _).bind fun _ => (keeps_read _).bind fun abm => ?_
  split
  · exact keeps_raise _
  · exact (onAbm_instruments _).bind fun _ => noteAbmCall_instruments _

theorem recordStep_instruments : Keeps instruments (recordStep E) := by
  refine (onAbm_instruments _).bind fun _ => (mayFail_instruments _).bind fun _ => (keeps_read _).bind fun abm => ?_
  exact (onAbm_instruments _).bind fun _ => (noteAbmCall_instruments _).bind fun _ => mayFail_instruments _

theorem join_instruments : Keeps instruments (joinDetectors E call) := by
  refine (keeps_read _).bind fun completed => ?_
  split
  · refine Keeps.attempt ?_ fun e => fun s => rfl
    exact (onAbm_instruments _).bind fun _ => (propagate_instruments E).bind fun _ =>
      (recordStep_instruments E).bind fun _ => (onFrame_instruments _).bind fun _ => fun s => rfl
  · exact keeps_pure _

/-- The join takes the step on what the gateway holds, unless it is noted as failed. -/
theorem join_steps (s : World R F σ δ π) :
    Ends (joinDetectors E call) s fun _ s' => s'.frame.completed = s.frame.completed ∧
      s'.frame.findings = s.frame.findings ∧ (¬ bothDetectors s.frame.completed → s'.gateway = s.gateway) ∧
      (bothDetectors s.frame.completed → .joinFailed ∉ s'.frame.record → stepped call.windowId s.gateway = some s'.gateway) := by
  refine ends_bind (M := fun r s' => r = .ok s.frame.completed ∧ s' = s) ⟨rfl, rfl⟩ ?_ (by simp)
  rintro completed s' ⟨hr, rfl⟩
  cases hr
  split
  · rename_i hboth
    refine ends_attempt (M := fun r s'' => s''.frame.completed = s'.frame.completed ∧ s''.frame.findings = s'.frame.findings ∧
      match r with
      | .ok _ => stepped call.windowId s'.gateway = some s''.gateway
      | .error _ => True) ?_ (fun _ s'' h => ⟨h.1, h.2.1, fun hnot => absurd hboth hnot, fun _ _ => h.2.2⟩) ?_
    · refine ends_bind (M := fun _ s₁ => s₁ = { s' with gateway := current (some call.windowId) s'.gateway }) rfl ?_ ?_
      · rintro ⟨⟩ s₁ rfl
        refine ends_bind (propagate_ends E _) ?_ fun e s₂ h₂ =>
          ⟨congrArg Frame.completed h₂.1, congrArg Frame.findings h₂.1, trivial⟩
        rintro ⟨⟩ s₂ ⟨hframe₂, -, -, hstats₂, -, hpropagate⟩
        refine ends_bind (recordStep_ends E s₂) ?_ fun e s₃ h₃ =>
          ⟨congrArg Frame.completed (h₃.1.trans hframe₂), congrArg Frame.findings (h₃.1.trans hframe₂), trivial⟩
        rintro ⟨⟩ s₃ ⟨hframe₃, hstats₃, -, habm₃⟩
        have hcompleted : s₃.frame.completed = s'.frame.completed := congrArg Frame.completed (hframe₃.trans hframe₂)
        have hfindings : s₃.frame.findings = s'.frame.findings := congrArg Frame.findings (hframe₃.trans hframe₂)
        have hstepped : stepped call.windowId s'.gateway = some s₃.gateway := by
          unfold stepped
          rw [hpropagate]
          simp only [Option.some.injEq]
          rw [← habm₃, ← show s₃.gateway.stats = s'.gateway.stats from hstats₃.trans hstats₂]
        refine ends_bind (M := fun _ s₄ => s₄ = { s₃ with frame := { s₃.frame with deviceRiskAvailable := true } }) rfl ?_ ?_
        · rintro ⟨⟩ s₄ rfl
          exact ends_update ⟨hcompleted, hfindings, hstepped⟩
        · rintro e s₄ rfl
          exact ⟨hcompleted, hfindings, trivial⟩
      · rintro e s₁ rfl
        exact ⟨rfl, rfl, trivial⟩
    · rintro e s'' ⟨hcompleted, hfindings, -⟩
      refine ends_update ⟨hcompleted, hfindings, fun hnot => absurd hboth hnot, fun _ hnone => absurd ?_ hnone⟩
      exact List.mem_append_right _ (List.mem_singleton.mpr rfl)
  · rename_i hnot
    exact ends_pure ⟨rfl, rfl, fun _ => rfl, fun hboth => absurd hboth hnot⟩

/-- A detector that has left what it finds completes and joins. -/
theorem detector_tracks {a : AgentId} (ha : a = .networkAnomalyDetector ∨ a = .iotBehavioralProfiler) {g₀ : Gateway F}
    {d₀ : δ} {p₀ : π} {s s₁ : World R F σ δ π} (h : Tracks E call g₀ d₀ p₀ (course s)) (hmissing : a ∉ s.frame.completed)
    (hinstruments : instruments s₁ = ((if a = .networkAnomalyDetector then (networkOf E call.netRows s.detector).2 else s.detector),
      if a = .iotBehavioralProfiler then
        (behaviorOf E (call.behRows.any Row.observed) call.windowId call.behRows s.profiler).2 else s.profiler))
    (hgathered : Gathered E (foundBy E call s.detector s.profiler [a]) s s₁) :
    Ends (complete a >>= fun _ => joinDetectors E call) s₁ fun _ s' => Tracks E call g₀ d₀ p₀ (course s') := by
  refine ends_bind (M := fun r s₂ => r = .ok () ∧ s₂.frame.completed = s₁.frame.completed ++ [a] ∧
    s₂.frame.findings = s₁.frame.findings ∧ s₂.gateway = s₁.gateway ∧ instruments s₂ = instruments s₁)
    ⟨rfl, rfl, rfl, rfl, rfl⟩ ?_ (by simp)
  rintro ⟨⟩ s₂ ⟨-, hcompleted, hfindings, hgateway, hsame⟩
  have hjoin := join_steps E call s₂
  have hkept := (join_instruments E call s₂).trans (hsame.trans hinstruments)
  unfold Ends at hjoin ⊢
  generalize (joinDetectors E call s₂).2 = s₃ at hjoin hkept ⊢
  obtain ⟨hcompleted₃, hfindings₃, hunjoined₃, hjoined₃⟩ := hjoin
  have hnot : ¬ bothDetectors s.frame.completed := by
    rintro ⟨hnetwork, hbehavior⟩
    rcases ha with rfl | rfl
    · exact hmissing hnetwork
    · exact hmissing hbehavior
  have hbefore : current none s.gateway = current none (absorb E.validTimestamp g₀ (foundBy E call d₀ p₀ s.frame.completed)) :=
    h.unjoined hnot
  have hroster : roster s.gateway.abm = roster g₀.abm := by
    rw [← roster_current none s.gateway, hbefore, roster_current, roster_absorb]
  have hfound : foundBy E call s.detector s.profiler [a] = foundBy E call d₀ p₀ [a] := by
    rcases ha with rfl | rfl
    · have hd : s.detector = d₀ := h.detector.trans (if_neg hmissing)
      simp [foundBy, hd]
    · have hp : s.profiler = p₀ := h.profiler.trans (if_neg hmissing)
      simp [foundBy, hp]
  rw [hfound] at hgathered
  obtain ⟨hperm, hswap⟩ := found_next E call ha d₀ p₀ hmissing g₀
  have hall : s₃.frame.completed = s.frame.completed ++ [a] := by
    rw [hcompleted₃, hcompleted, hgathered.completed]
  have hafter : current none s₂.gateway =
      current none (absorb E.validTimestamp g₀ (foundBy E call d₀ p₀ (s.frame.completed ++ [a]))) := by
    rw [hgateway, hgathered.gateway, absorb_congr E.validTimestamp hbefore, ← absorb_append, hswap]
  rw [← hcompleted₃, hall] at hunjoined₃ hjoined₃
  have hdetector : s₃.detector = _ := congrArg Prod.fst hkept
  have hprofiler : s₃.profiler = _ := congrArg Prod.snd hkept
  constructor
  · intro hthreat
    change .threatIntelligenceCorrelator ∈ s₃.frame.completed at hthreat
    rw [hall, List.mem_append, List.mem_singleton] at hthreat
    rcases hthreat with hold | hnew
    · exact absurd (h.ordered hold) hnot
    · rcases ha with rfl | rfl <;> cases hnew
  · change s₃.detector = if .networkAnomalyDetector ∈ s₃.frame.completed then _ else _
    rw [hdetector, hall]
    have hold : s.detector = if .networkAnomalyDetector ∈ s.frame.completed then _ else _ := h.detector
    rcases ha with rfl | rfl
    · rw [if_neg hmissing] at hold
      simp [hold]
    · simp [hold]
  · change s₃.profiler = if .iotBehavioralProfiler ∈ s₃.frame.completed then _ else _
    rw [hprofiler, hall]
    have hold : s.profiler = if .iotBehavioralProfiler ∈ s.frame.completed then _ else _ := h.profiler
    rcases ha with rfl | rfl
    · simp [hold]
    · rw [if_neg hmissing] at hold
      simp [hold]
  · change s₃.frame.findings.Perm ((foundBy E call d₀ p₀ s₃.frame.completed).filter _)
    rw [hfindings₃, hfindings, hgathered.findings, hroster, hall]
    refine (h.findings.append_right _).trans ?_
    rw [← List.filter_append]
    exact hperm.filter _
  · intro hboth
    change current none s₃.gateway = current none (absorb _ _ (foundBy E call d₀ p₀ s₃.frame.completed))
    rw [hunjoined₃ (hall ▸ hboth), hafter, hall]
  · intro hboth hjoined
    change stepped _ (absorb _ _ (foundBy E call d₀ p₀ s₃.frame.completed)) = _
    rw [hall, ← stepped_congr hafter]
    exact hjoined₃ (hall ▸ hboth) hjoined

/-! ## Agents and rounds -/

section Rounds

variable {E call} {g₀ : Gateway F} {d₀ : δ} {p₀ : π}

/-- The other agents add nothing to what was found. -/
theorem Tracks.completing {a : AgentId} (hn : a ≠ .networkAnomalyDetector) (hb : a ≠ .iotBehavioralProfiler)
    {v v' : View F δ π} (h : Tracks E call g₀ d₀ p₀ v) (hable : Able a v) (hcompleted : v'.completed = v.completed ++ [a])
    (hfailed : v.joinFailed → v'.joinFailed) (hgateway : v'.gateway = v.gateway) (hdetector : v'.detector = v.detector)
    (hprofiler : v'.profiler = v.profiler) (hfindings : v'.findings = v.findings) : Tracks E call g₀ d₀ p₀ v' := by
  have hnetwork : .networkAnomalyDetector ∈ v'.completed ↔ .networkAnomalyDetector ∈ v.completed := by
    rw [hcompleted, List.mem_append, List.mem_singleton, or_iff_left hn.symm]
  have hbehavior : .iotBehavioralProfiler ∈ v'.completed ↔ .iotBehavioralProfiler ∈ v.completed := by
    rw [hcompleted, List.mem_append, List.mem_singleton, or_iff_left hb.symm]
  have hboth : bothDetectors v'.completed ↔ bothDetectors v.completed := and_congr hnetwork hbehavior
  have hfound : foundBy E call d₀ p₀ v'.completed = foundBy E call d₀ p₀ v.completed := by
    simp only [foundBy, hnetwork, hbehavior]
  constructor
  · intro hthreat
    rw [hcompleted, List.mem_append, List.mem_singleton] at hthreat
    rcases hthreat with hold | rfl
    · exact hboth.mpr (h.ordered hold)
    · exact hboth.mpr ⟨hable.2 _ (by decide), hable.2 _ (by decide)⟩
  · rw [hdetector, h.detector]
    simp only [hnetwork]
  · rw [hprofiler, h.profiler]
    simp only [hbehavior]
  · rw [hfindings, hfound]
    exact h.findings
  · rw [hboth, hfound, hgateway]
    exact h.unjoined
  · rw [hboth, hfound, hgateway]
    exact fun hdone hjoined => h.joined hdone fun hfault => hjoined (hfailed hfault)

/-- Behind the step another propagation changes nothing. -/
theorem propagate_tracks (s : World R F σ δ π) (hthreat : .threatIntelligenceCorrelator ∈ s.frame.completed)
    (h : Tracks E call g₀ d₀ p₀ (course s)) :
    Ends (attempt (propagate E) fun _ => pure ()) s fun _ s' => s'.frame = s.frame ∧ Tracks E call g₀ d₀ p₀ (course s') := by
  have hboth := h.ordered hthreat
  have hends := propagate_ends E s
  have hsame := propagate_instruments E s
  unfold Ends attempt at *
  generalize propagate E s = out at hends hsame ⊢
  obtain ⟨r, s'⟩ := out
  have hdetector : s'.detector = s.detector := congrArg Prod.fst hsame
  have hprofiler : s'.profiler = s.profiler := congrArg Prod.snd hsame
  have hframe : s'.frame = s.frame := hends.1
  have hgateway : .joinFailed ∉ s.frame.record → s'.gateway = s.gateway := by
    intro hjoined
    obtain ⟨-, -, -, hstats, hresult⟩ := hends
    cases r with
    | error e => exact hresult.2
    | ok u =>
      have hagain := propagate_stepped (h.joined hboth hjoined)
      have habm : s'.gateway.abm = s.gateway.abm := Except.ok.inj (hresult.2.symm.trans hagain)
      calc s'.gateway = ⟨s'.gateway.abm, s'.gateway.stats⟩ := rfl
        _ = ⟨s.gateway.abm, s.gateway.stats⟩ := by rw [habm, show s'.gateway.stats = s.gateway.stats from hstats]
        _ = s.gateway := rfl
  have htracks : Tracks E call g₀ d₀ p₀ (course s') := by
    have hfield : course s' = { course s with gateway := s'.gateway, abmCalls := s'.abmCalls } := by
      unfold course
      rw [hframe, hdetector, hprofiler]
    rw [hfield]
    refine ⟨h.ordered, h.detector, h.profiler, h.findings, fun hnot => absurd hboth hnot, fun _ hjoined => ?_⟩
    change _ = some s'.gateway
    rw [hgateway hjoined]
    exact h.joined hboth hjoined
  cases r with
  | ok u => exact ⟨hframe, htracks⟩
  | error e => exact ⟨hframe, htracks⟩

/-- Where a part of a window has ended: on track when it returned, and otherwise on track or
short of a detector. -/
def Leaves (E : Environment R F σ δ π ρ) (call : Call ρ) (g₀ : Gateway F) (d₀ : δ) (p₀ : π) (returned : Prop)
    (s : World R F σ δ π) : Prop :=
  (returned → Tracks E call g₀ d₀ p₀ (course s)) ∧
    (Tracks E call g₀ d₀ p₀ (course s) ∨ ¬ bothDetectors s.frame.completed)

theorem Leaves.of_tracks {returned : Prop} {s : World R F σ δ π} (h : Tracks E call g₀ d₀ p₀ (course s)) :
    Leaves E call g₀ d₀ p₀ returned s := ⟨fun _ => h, .inl h⟩

theorem Leaves.of_short {returned : Prop} {s : World R F σ δ π} (hreturned : ¬ returned)
    (h : ¬ bothDetectors s.frame.completed) : Leaves E call g₀ d₀ p₀ returned s := ⟨fun hr => absurd hr hreturned, .inr h⟩

theorem execute_tracks (ts dispatchId : String) (a : AgentId) (s : World R F σ δ π) (h : Tracks E call g₀ d₀ p₀ (course s))
    (hable : Able a (course s)) :
    Ends (execute E call ts dispatchId a) s fun r s' => Leaves E call g₀ d₀ p₀ (r = .ok ()) s' := by
  cases a with
  | networkAnomalyDetector =>
    have hkept : (networkWork E call dispatchId s).2.frame.completed = s.frame.completed :=
      congrArg Control.completed (networkWork_keeps E call dispatchId s)
    refine ends_bind (M := fun r s' => s'.frame.completed = s.frame.completed ∧ (r = .ok () →
      instruments s' = ((networkOf E call.netRows s.detector).2, s.profiler) ∧
      Gathered E ((networkOf E call.netRows s.detector).1.map .network) s s')) ⟨hkept, networkWork_ok E call dispatchId s⟩
      (fun _ s₁ h₁ => ?_) fun e s₁ h₁ => .of_short nofun fun hboth => hable.1 ?_
    · obtain ⟨hinstruments, hgathered⟩ := h₁.2 rfl
      refine (detector_tracks E call (.inl rfl) h hable.1 (hinstruments.trans ?_) ?_).mono fun r s' h' => .of_tracks h'
      · simp
      · simpa [foundBy] using hgathered
    · exact (congrArg (AgentId.networkAnomalyDetector ∈ ·) h₁.1).mp hboth.1
  | iotBehavioralProfiler =>
    have hkept : (behaviorWork E call dispatchId s).2.frame.completed = s.frame.completed :=
      congrArg Control.completed (behaviorWork_keeps E call dispatchId s)
    refine ends_bind (M := fun r s' => s'.frame.completed = s.frame.completed ∧ (r = .ok () →
      instruments s' = (s.detector, (behaviorOf E (call.behRows.any Row.observed) call.windowId call.behRows s.profiler).2) ∧
      Gathered E ((behaviorOf E (call.behRows.any Row.observed) call.windowId call.behRows s.profiler).1.map .behavior) s s'))
      ⟨hkept, behaviorWork_ok E call dispatchId s⟩ (fun _ s₁ h₁ => ?_) fun e s₁ h₁ => .of_short nofun fun hboth => hable.1 ?_
    · obtain ⟨hinstruments, hgathered⟩ := h₁.2 rfl
      refine (detector_tracks E call (.inr rfl) h hable.1 (hinstruments.trans ?_) ?_).mono fun r s' h' => .of_tracks h'
      · simp
      · simpa [foundBy] using hgathered
    · exact (congrArg (AgentId.iotBehavioralProfiler ∈ ·) h₁.1).mp hboth.2
  | threatIntelligenceCorrelator =>
    refine ends_bind (ends_keeps (threatWork_keeps E call ts dispatchId)) (fun _ s' h' => ?_) fun e s' h' => ?_
    · have hsame := keeps_of_both h'
      rw [← hsame] at h hable
      exact .of_tracks (h.completing (by decide) (by decide) hable rfl (List.mem_append_left _) rfl rfl rfl rfl)
    · exact .of_tracks (by rw [keeps_of_both h']; exact h)
  | riskPropagationAnalyst =>
    have hthreat : .threatIntelligenceCorrelator ∈ s.frame.completed := hable.2 _ (by decide)
    have hwork : Ends (riskWork E call ts dispatchId) s fun _ s' =>
        s'.frame.completed = s.frame.completed ∧ Tracks E call g₀ d₀ p₀ (course s') := by
      refine ends_bind (propagate_tracks s hthreat h) (fun _ s₁ h₁ => ?_) fun e s₁ h₁ =>
        ⟨congrArg Frame.completed h₁.1, h₁.2⟩
      refine ends_bind (M := fun _ s₂ => course s₂ = course s₁) rfl (fun _ s₂ h₂ => ?_) fun e s₂ h₂ =>
        ⟨(congrArg View.completed h₂).trans (congrArg Frame.completed h₁.1), by rw [h₂]; exact h₁.2⟩
      refine ends_bind (M := fun _ s₃ => s₃ = s₂) rfl ?_ ?_
      · rintro corrs s₃ rfl
        have hrest := keeps_of_both (riskEntities_keeps E call ts dispatchId (sortedKeys corrs) s₃)
        refine ⟨?_, ?_⟩
        · exact (congrArg View.completed (hrest.trans h₂)).trans (congrArg Frame.completed h₁.1)
        · rw [hrest.trans h₂]
          exact h₁.2
      · rintro e s₃ rfl
        exact ⟨(congrArg View.completed h₂).trans (congrArg Frame.completed h₁.1), by rw [h₂]; exact h₁.2⟩
    refine ends_bind hwork (fun _ s' h' => ?_) fun e s' h' => .of_tracks h'.2
    have hable' : Able .riskPropagationAnalyst (course s') := by
      unfold Able course
      rw [h'.1]
      exact hable
    exact .of_tracks (h'.2.completing (by decide) (by decide) hable' rfl (List.mem_append_left _) rfl rfl rfl rfl)
  | trustAccessController =>
    refine ends_bind (ends_keeps (accessWork_keeps E call ts dispatchId)) (fun _ s' h' => ?_) fun e s' h' => ?_
    · have hsame := keeps_of_both h'
      rw [← hsame] at h hable
      exact .of_tracks (h.completing (by decide) (by decide) hable rfl (List.mem_append_left _) rfl rfl rfl rfl)
    · exact .of_tracks (by rw [keeps_of_both h']; exact h)

/-- A step that leaves the course alone, and then the rest. -/
theorem keeps_then {α β : Type} {p : Work R F σ δ π β} {f : β → Work R F σ δ π α} {done : α} {s : World R F σ δ π}
    {ready : List AgentId} (hp : Keeps course p)
    (h : Tracks E call g₀ d₀ p₀ (course s) ∧ ∀ a ∈ ready, Able a (course s))
    (hf : ∀ b s', Tracks E call g₀ d₀ p₀ (course s') ∧ (∀ a ∈ ready, Able a (course s')) →
      Ends (f b) s' fun r s'' => Leaves E call g₀ d₀ p₀ (r = .ok done) s'') :
    Ends (p >>= f) s fun r s'' => Leaves E call g₀ d₀ p₀ (r = .ok done) s'' := by
  refine ends_bind (ends_keeps hp) (fun b s' hs => hf b s' ?_) fun e s' hs => .of_tracks ?_
  · rw [hs]
    exact h
  · rw [hs]
    exact h.1

theorem executeAgent_tracks (ts : String) {a : AgentId} {ready : List AgentId} (ha : a ∈ ready) (answer : Answer)
    (selected : String) (s : World R F σ δ π) (h : Tracks E call g₀ d₀ p₀ (course s) ∧ ∀ a ∈ ready, Able a (course s)) :
    Ends (executeAgent E call ts a answer selected) s fun r s' => Leaves E call g₀ d₀ p₀ (r = .ok true) s' := by
  refine keeps_then (fresh_course E.uuid4) h fun dispatchId s₁ h₁ => ?_
  refine keeps_then (onWindow_course _ _) h₁ fun _ s₂ h₂ => ?_
  refine keeps_then (publishWindow_course E call _ _) h₂ fun _ s₃ h₃ => ?_
  refine keeps_then (publishWindow_course E call _ _) h₃ fun _ s₄ h₄ => ?_
  refine keeps_then (noteHappening_course (by nofun)) h₄ fun _ s₅ h₅ => ?_
  refine ends_attempt (M := fun r s' => Leaves E call g₀ d₀ p₀ (r = .ok true) s') ?_ (fun b s' h' => h') fun e s' h' => ?_
  · refine ends_bind (execute_tracks ts dispatchId a s₅ h₅.1 (h₅.2 a ha)) (fun _ s' h' => ?_) fun e s' h' => ?_
    · exact .of_tracks (h'.1 rfl)
    · exact ⟨nofun, h'.2⟩
  · have hhandler : Keeps course (do
        addFailure call (.agent a e)
        publishWindow E call (.agentExecutionFailed a e) none
        setStatus call.windowId .failed
        return false : Work R F σ δ π Bool) :=
      (onWindow_course _ _).bind fun _ => (publishWindow_course E call _ _).bind fun _ =>
        (onWindow_course _ _).bind fun _ => keeps_pure _
    have hreturned : ∀ s', Ends (do
        addFailure call (.agent a e)
        publishWindow E call (.agentExecutionFailed a e) none
        setStatus call.windowId .failed
        return false : Work R F σ δ π Bool) s' fun r _ => r ≠ .ok true := by
      intro s'
      refine ends_bind (M := fun _ _ => True) trivial (fun _ s₁ _ => ?_) fun _ _ _ => nofun
      refine ends_bind (M := fun _ _ => True) trivial (fun _ s₂ _ => ?_) fun _ _ _ => nofun
      exact ends_bind (M := fun _ _ => True) trivial (fun _ s₃ _ => nofun) fun _ _ _ => nofun
    refine ⟨fun hr => absurd hr (hreturned s'), ?_⟩
    rcases h'.2 with htracks | hshort
    · exact .inl (by rw [hhandler s']; exact htracks)
    · exact .inr ((congrArg (fun v => ¬ bothDetectors v.completed) (hhandler s')).mpr hshort)

theorem dispatchRound_tracks (ts : String) (s : World R F σ δ π) (h : Tracks E call g₀ d₀ p₀ (course s)) :
    Ends (dispatchRound E call ts) s fun r s' => Leaves E call g₀ d₀ p₀ (r = .ok true) s' := by
  unfold dispatchRound
  refine ends_bind (M := fun r s' => r = .ok s.frame ∧ s' = s) ⟨rfl, rfl⟩ ?_ (by simp)
  rintro frame s₁ ⟨hr, rfl⟩
  cases hr
  simp only
  split
  · exact .of_tracks h
  have hable : ∀ a ∈ readyAgents s₁.frame.completed s₁.frame.deviceRiskAvailable s₁.frame.riskRecAvailable, Able a (course s₁) :=
    fun a ha => ready_spec ha
  refine keeps_then (dispatch_course E call ts _) ⟨h, hable⟩ fun answer s₂ h₂ => ?_
  refine keeps_then (noteHappening_course (by nofun)) h₂ fun _ s₃ h₃ => ?_
  have hrefused : ∀ {p : Work R F σ δ π Bool}, Keeps course p → Ends p s₃ fun r s' => Leaves E call g₀ d₀ p₀ (r = .ok true) s' := by
    intro p hp
    refine .of_tracks ?_
    rw [hp s₃]
    exact h₃.1
  unfold settleAnswer
  split
  · exact hrefused ((onWindow_course _ _).bind fun _ => (onWindow_course _ _).bind fun _ =>
      (publishWindow_course E call _ _).bind fun _ => keeps_pure _)
  split
  · exact hrefused ((onWindow_course _ _).bind fun _ => (onWindow_course _ _).bind fun _ =>
      (publishWindow_course E call _ _).bind fun _ => keeps_pure _)
  split
  · exact hrefused (keeps_raise _)
  split
  · rename_i hready
    exact executeAgent_tracks ts hready _ _ s₃ h₃
  · exact hrefused ((onWindow_course _ _).bind fun _ => (onWindow_course _ _).bind fun _ => keeps_pure _)

theorem dispatchLoop_tracks (ts : String) (n : Nat) (s : World R F σ δ π) (h : Tracks E call g₀ d₀ p₀ (course s)) :
    Ends (dispatchLoop E call ts n) s fun _ s' => Leaves E call g₀ d₀ p₀ False s' := by
  induction n generalizing s with
  | zero => exact ends_pure (.of_tracks h)
  | succ n ih =>
    refine ends_bind (dispatchRound_tracks ts s h) (fun goesOn s₁ h₁ => ?_) fun e s₁ h₁ => ⟨nofun, h₁.2⟩
    cases goesOn with
    | true => exact ih s₁ (h₁.1 rfl)
    | false => exact ends_pure ⟨nofun, h₁.2⟩

/-- Whatever happens in a window, it is on track at its end or short of a detector. -/
theorem executeWindow_tracks (limit : Nat) (s : World R F σ δ π) :
    Tracks E call s.gateway s.detector s.profiler (course (executeWindow E call limit s).2) ∨
      ¬ bothDetectors (executeWindow E call limit s).2.frame.completed := by
  have hstart : Tracks E call s.gateway s.detector s.profiler
      (course { s with frame := .start R F, gateway := current (some call.windowId) s.gateway }) := by
    refine ⟨fun h => absurd h List.not_mem_nil, rfl, rfl, List.Perm.refl _, fun _ => rfl, fun h => absurd h.1 List.not_mem_nil⟩
  have hregister : ∀ now, Keeps course (registerWindow call limit now : Work R F σ δ π Unit) := by
    intro now
    refine (keeps_read _).bind fun windows => ?_
    split
    · exact keeps_raise _
    · exact keeps_update fun s => rfl
  have hrest : ∀ now s₁, Tracks E call s.gateway s.detector s.profiler (course s₁) →
      Ends (registerWindow call limit now >>= fun _ => runWindow E call now) s₁ fun _ s' =>
        Leaves E call s.gateway s.detector s.profiler False s' := by
    intro now s₁ h₁
    refine ends_bind (ends_keeps (hregister now)) (fun _ s₂ h₂ => ?_) fun e s₂ h₂ => .of_tracks (by rw [h₂]; exact h₁)
    rw [← h₂] at h₁
    refine ends_bind (ends_keeps (publishWindow_course E call _ _)) (fun _ s₃ h₃ => ?_) fun e s₃ h₃ =>
      .of_tracks (by rw [h₃]; exact h₁)
    rw [← h₃] at h₁
    refine ends_bind (dispatchLoop_tracks now maxIterations s₃ h₁) (fun _ s₄ h₄ => ⟨nofun, ?_⟩) fun e s₄ h₄ => h₄
    have hsame := closeWindow_course E call s₄
    rcases h₄.2 with htracks | hshort
    · exact .inl (by rw [hsame]; exact htracks)
    · exact .inr ((congrArg (fun v => ¬ bothDetectors v.completed) hsame).mpr hshort)
  unfold executeWindow
  split
  · exact (hrest _ _ hstart).2
  · refine (ends_bind (ends_keeps (fresh_course E.utcNow)) (fun now s₁ h₁ => hrest now s₁ ?_)
      (fun e s₁ h₁ => .of_tracks ?_) : Ends _ _ fun _ s' => Leaves E call s.gateway s.detector s.profiler False s').2
    · rw [h₁]
      exact hstart
    · rw [h₁]
      exact hstart

/-- What a window returns is read off its state. -/
theorem executeWindow_result (limit : Nat) (s : World R F σ δ π) :
    Ends (executeWindow E call limit) s fun r s' => ∀ x, r = .ok x →
      x = (findWindow call.windowId s'.windows).map (windowResult s'.frame.findings) := by
  have hclose : ∀ s₁, Ends (closeWindow E call) s₁ fun r s' => ∀ x, r = .ok x →
      x = (findWindow call.windowId s'.windows).map (windowResult s'.frame.findings) := by
    intro s₁
    refine ends_bind (M := fun _ _ => True) trivial (fun w s₂ _ => ?_) fun _ _ _ => nofun
    refine ends_bind (M := fun _ _ => True) trivial (fun _ s₃ _ => ?_) fun _ _ _ => nofun
    rintro x ⟨⟩
    rfl
  have hrest : ∀ now s₁, Ends (registerWindow call limit now >>= fun _ => runWindow E call now) s₁ fun r s' => ∀ x, r = .ok x →
      x = (findWindow call.windowId s'.windows).map (windowResult s'.frame.findings) := by
    intro now s₁
    refine ends_bind (M := fun _ _ => True) trivial (fun _ s₂ _ => ?_) fun _ _ _ => nofun
    refine ends_bind (M := fun _ _ => True) trivial (fun _ s₃ _ => ?_) fun _ _ _ => nofun
    exact ends_bind (M := fun _ _ => True) trivial (fun _ s₄ _ => hclose s₄) fun _ _ _ => nofun
  unfold executeWindow
  refine ends_bind (M := fun _ _ => True) trivial (fun _ s₁ _ => ?_) fun _ _ _ => nofun
  refine ends_bind (M := fun _ _ => True) trivial (fun _ s₂ _ => ?_) fun _ _ _ => nofun
  split
  · exact hrest _ s₂
  · exact ends_bind (M := fun _ _ => True) trivial (fun now s₃ _ => hrest now s₃) fun _ _ _ => nofun

end Rounds

end Findings

end WorkflowScience
