import AgenticSoc.WorkflowWindows

/-!
# Steps of the device model in a window

What the workflow of a window does to the device model: evidence until both detectors are
done, then one step, then at most propagations.
-/
namespace WorkflowSteps

open Procedure WorkflowReadiness DeviceAbm FindingGateway WorkflowService WorkflowDispatch
open OrchestrationMessages OrchestrationRound
open BlackboardRecord (runChecks)

section Course

variable {P : Type} {R : Runtime P} {F σ δ π ρ : Type}

/-- What decides the steps of the device model and what they are taken on: who is done, whether
the join has failed, and what the detectors and the gateway have come to. -/
structure View (F δ π : Type) where
  completed : List AgentId
  joinFailed : Prop
  gateway : Gateway F
  abmCalls : List (AbmCall F)
  detector : δ
  profiler : π
  findings : List (Finding F)

def course (s : World R F σ δ π) : View F δ π :=
  ⟨s.frame.completed, .joinFailed ∈ s.frame.record, s.gateway, s.abmCalls, s.detector, s.profiler, s.frame.findings⟩

/-! ## What leaves the course alone -/

theorem fresh_course {α : Type} (op : σ → α × σ) : Keeps course (fresh op : Work R F σ δ π α) := fun _ => rfl

theorem ask_course {α : Type} (op : σ → Except String α × σ) : Keeps course (ask op : Work R F σ δ π α) := fun _ => rfl

theorem onWindow_course (windowId : Int) (f : WorkflowWindowState → WorkflowWindowState) :
    Keeps course (onWindow windowId f : Work R F σ δ π Unit) := fun _ => rfl

theorem noteHappening_course {h : Happening R} (hh : h ≠ .joinFailed) :
    Keeps course (noteHappening h : Work R F σ δ π Unit) := by
  refine keeps_update fun s => ?_
  have hsame : (Happening.joinFailed ∈ s.frame.record ++ [h]) = (Happening.joinFailed ∈ s.frame.record) := by
    rw [List.mem_append, List.mem_singleton, eq_iff_iff, or_iff_left hh.symm]
  unfold course
  rw [hsame]

theorem mayFail_course (fault : σ → Option String × σ) : Keeps course (mayFail fault : Work R F σ δ π Unit) := by
  intro s
  unfold mayFail
  split <;> rfl

variable (E : Environment R F σ δ π ρ) (call : Call ρ)

theorem publish_course (data : EventData R) (entityId ts : Option String) : Keeps course (publish E call data entityId ts) := by
  intro s
  simp only [publish]
  split <;> rfl

theorem publishWindow_course (data : EventData R) (ts : Option String) : Keeps course (publishWindow E call data ts) :=
  (publish_course E call data _ ts).bind fun _ => keeps_pure ()

theorem keeps_of_both {s s' : World R F σ δ π} (h : both s' = both s) : course s' = course s := by
  have hcontrol : control s' = control s := congrArg Prod.fst h
  have hscience : science s' = science s := congrArg Prod.snd h
  have hcompleted : s'.frame.completed = s.frame.completed := congrArg Control.completed hcontrol
  have hrecord : s'.frame.record = s.frame.record := congrArg Control.record hcontrol
  have hgateway : s'.gateway = s.gateway := congrArg Science.gateway hscience
  have hcalls : s'.abmCalls = s.abmCalls := congrArg Science.abmCalls hscience
  have hdetector : s'.detector = s.detector := congrArg Science.detector hscience
  have hprofiler : s'.profiler = s.profiler := congrArg Science.profiler hscience
  have hfindings : s'.frame.findings = s.frame.findings := congrArg Science.findings hscience
  rw [course, hcompleted, hrecord, hgateway, hcalls, hdetector, hprofiler, hfindings]
  rfl

theorem keeps_course {α : Type} {p : Work R F σ δ π α} (h : Keeps both p) : Keeps course p := fun s => keeps_of_both (h s)

theorem dispatch_course (ts : String) (ready : List AgentId) : Keeps course (dispatchViaOrchestration E call ts ready) := by
  unfold dispatchViaOrchestration
  split
  · exact keeps_pure _
  refine (fresh_course _).bind fun requestHex => (fresh_course _).bind fun roundHex => ?_
  refine (noteHappening_course (by nofun)).bind fun _ => ?_
  split
  · exact keeps_raise _
  split
  · exact keeps_pure _
  refine (publish_course E call _ _ _).bind fun requestPublished => ?_
  refine Keeps.bind (Keeps.attempt ((ask_course _).bind fun _ => keeps_pure _) fun e => ?_) fun answer => ?_
  · cases requestPublished with
    | true => exact (publish_course E call _ _ _).bind fun _ => keeps_pure _
    | false => exact keeps_pure _
  · cases answer with
    | none => exact keeps_pure _
    | some answer =>
      have htrace : Keeps course (publishOrchestrationTrace E call (dispatchRequest (R := R) call ts ready requestHex.text
          roundHex.text) answer) :=
        keeps_each fun e _ => (publish_course E call _ _ _).bind fun _ => keeps_pure _
      cases requestPublished with
      | true => exact htrace.bind fun _ => keeps_pure _
      | false => exact keeps_pure _

end Course

/-! ## The course of a window -/

section Steps

variable {P : Type} {R : Runtime P} {F σ δ π ρ : Type}

/-- Nothing but evidence since the given calls. -/
def Gathering (calls : List (AbmCall F)) (steps : Nat) (v : View F δ π) : Prop :=
  ∃ findings : List (Finding F), v.abmCalls = calls ++ findings.map .evidence ∧ v.gateway.abm.steps = steps

/-- The step of the window, propagated on its evidence, and at most propagations after it. -/
def Recorded (target : Int) (calls : List (AbmCall F)) (steps : Nat) (v : View F δ π) : Prop :=
  ∃ (findings : List (Finding F)) (again : Nat),
    v.abmCalls = calls ++ (findings.map .evidence ++ [.propagated, .recorded (some target)]) ++ List.replicate again .propagated ∧
    v.gateway.abm.steps = steps + 1 ∧ v.gateway.abm.currentWindowId = some target

def Early (calls : List (AbmCall F)) (steps : Nat) (v : View F δ π) : Prop :=
  ¬ bothDetectors v.completed ∧ .threatIntelligenceCorrelator ∉ v.completed ∧ Gathering calls steps v

def OnCourse (target : Int) (calls : List (AbmCall F)) (steps : Nat) (v : View F δ π) : Prop :=
  Early calls steps v ∨ bothDetectors v.completed ∧ (¬ v.joinFailed → Recorded target calls steps v)

variable [RiskNumber F] (E : Environment R F σ δ π ρ) (call : Call ρ)

theorem applyEvidence_steps {abm abm' : Abm F} {f : Finding F} (h : applyEvidence abm f = .ok abm') :
    abm'.steps = abm.steps := by
  cases f with
  | network f =>
    simp only [applyEvidence, applyNetworkEvidence] at h
    split at h <;> cases h
    rfl
  | behavior f =>
    simp only [applyEvidence, applyBehaviorEvidence] at h
    split at h
    · cases h
    · split at h <;> cases h
      rfl

theorem submit_steps (validTimestamp : String → Bool) (g : Gateway F) (x : Submission F) :
    (FindingGateway.submit validTimestamp g x).1.abm.steps = g.abm.steps := by
  unfold FindingGateway.submit
  simp only
  split
  · rfl
  split
  · rfl
  split
  · rfl
  split
  · rfl
  split
  · rfl
  · rename_i h
    exact applyEvidence_steps h

theorem submitFinding_early (calls : List (AbmCall F)) (steps : Nat) (f : Finding F) :
    Preserves (fun s => Early calls steps (course s)) (submitFinding E f : Work R F σ δ π Bool) := by
  rintro s ⟨hboth, hthreat, findings, hcalls, hsteps⟩
  have hsame := submit_steps E.validTimestamp s.gateway (.finding f)
  unfold submitFinding
  split <;> rename_i h <;> rw [h] at hsame
  · exact ⟨hboth, hthreat, findings, hcalls, hsame.trans hsteps⟩
  · exact ⟨hboth, hthreat, findings, hcalls, hsame.trans hsteps⟩
  · refine ⟨hboth, hthreat, findings ++ [f], ?_, hsame.trans hsteps⟩
    change s.abmCalls ++ [AbmCall.evidence f] = _
    rw [show s.abmCalls = calls ++ findings.map .evidence from hcalls, List.map_append, List.append_assoc]
    rfl

theorem gatherFinding_early (calls : List (AbmCall F)) (steps : Nat) (f : Finding F) :
    Preserves (fun s => Early calls steps (course s)) (gatherFinding E f : Work R F σ δ π Bool) := by
  refine (submitFinding_early E calls steps f).bind fun accepted => ?_
  have hfindings : Preserves (fun s => Early calls steps (course s))
      (onFrame fun fr => { fr with findings := fr.findings ++ [f] } : Work R F σ δ π Unit) := fun s h => h
  cases accepted with
  | true => exact hfindings.bind fun _ => preserves_pure _
  | false => exact preserves_pure _

theorem networkWork_early (calls : List (AbmCall F)) (steps : Nat) (dispatchId : String) :
    Preserves (fun s => Early calls steps (course s)) (networkWork E call dispatchId) := by
  unfold networkWork
  simp only
  split
  · exact (publishWindow_course E call _ _).preserves _
  · refine Preserves.bind (fun s h => h) fun findings => ?_
    refine (preserves_each fun f _ => (gatherFinding_early E calls steps (.network f)).bind fun _ => preserves_pure _).bind
      fun _ => ?_
    exact (keeps_course (publishCompleted_keeps E call _ dispatchId _)).preserves _

theorem profileRows_early (calls : List (AbmCall F)) (steps : Nat) (contextActive : Bool) (rows : List (Row ρ)) (accepted : Nat) :
    Preserves (fun s => Early calls steps (course s)) (profileRows E call contextActive rows accepted) := by
  induction rows generalizing accepted with
  | nil => exact preserves_pure _
  | cons row rows ih =>
    refine Preserves.bind (fun s h => h) fun finding => ?_
    cases finding with
    | none => exact ih accepted
    | some f => exact (gatherFinding_early E calls steps (.behavior f)).bind fun ok => ih _

theorem behaviorWork_early (calls : List (AbmCall F)) (steps : Nat) (dispatchId : String) :
    Preserves (fun s => Early calls steps (course s)) (behaviorWork E call dispatchId) :=
  (profileRows_early E call calls steps _ _ 0).bind fun _ =>
    (keeps_course (publishCompleted_keeps E call _ dispatchId _)).preserves _

/-! ## The join -/

/-- A propagation that returns is noted; one that raises has changed no device. -/
theorem propagate_ends (s : World R F σ δ π) :
    Ends (propagate E) s fun r s' => s'.frame = s.frame ∧ s'.gateway.abm.steps = s.gateway.abm.steps ∧
      s'.gateway.abm.currentWindowId = s.gateway.abm.currentWindowId ∧ s'.gateway.stats = s.gateway.stats ∧ match r with
      | .ok () => s'.abmCalls = s.abmCalls ++ [.propagated] ∧ s.gateway.abm.propagate = .ok s'.gateway.abm
      | .error _ => s'.abmCalls = s.abmCalls ∧ s'.gateway = s.gateway := by
  unfold propagate
  refine ends_bind (M := fun r s' => s'.frame = s.frame ∧ s'.gateway = s.gateway ∧ s'.abmCalls = s.abmCalls) ?_ ?_ ?_
  · unfold Ends mayFail
    split <;> exact ⟨rfl, rfl, rfl⟩
  · rintro ⟨⟩ s₁ ⟨hframe, hgateway, hcalls⟩
    refine ends_bind (M := fun r s' => r = .ok s₁.gateway.abm ∧ s' = s₁) ⟨rfl, rfl⟩ ?_ (by simp)
    rintro abm s₂ ⟨habm, rfl⟩
    cases habm
    split
    · refine ends_raise ⟨hframe, ?_, ?_, ?_, hcalls, hgateway⟩ <;> rw [hgateway]
    · rename_i abm habm
      have hkept : abm.steps = s₂.gateway.abm.steps ∧ abm.currentWindowId = s₂.gateway.abm.currentWindowId := by
        unfold Abm.propagate at habm
        split at habm <;> cases habm
        exact ⟨rfl, rfl⟩
      refine ends_update ⟨hframe, ?_, ?_, ?_, ?_, ?_⟩
      · rw [← hgateway]
        exact hkept.1
      · rw [← hgateway]
        exact hkept.2
      · rw [← hgateway]
      · rw [← hcalls]
      · rw [← hgateway]
        exact habm
  · rintro e s₁ ⟨hframe, hgateway, hcalls⟩
    exact ⟨hframe, by rw [hgateway], by rw [hgateway], by rw [hgateway], hcalls, hgateway⟩

/-- A recorded step counts one and is noted under the current window. -/
theorem recordStep_ends (s : World R F σ δ π) :
    Ends (recordStep E) s fun r s' => s'.frame = s.frame ∧ s'.gateway.stats = s.gateway.stats ∧ match r with
      | .ok () => s'.abmCalls = s.abmCalls ++ [.recorded s.gateway.abm.currentWindowId] ∧
          s'.gateway.abm = s.gateway.abm.recordStep
      | .error _ => True := by
  unfold recordStep
  refine ends_bind (M := fun r s' => s' = { s with gateway := { s.gateway with abm := s.gateway.abm.countStep } }) rfl ?_ ?_
  · rintro ⟨⟩ s₁ rfl
    refine ends_bind (M := fun r s' => s'.frame = s.frame ∧ s'.abmCalls = s.abmCalls ∧
      s'.gateway = { s.gateway with abm := s.gateway.abm.countStep }) ?_ ?_ ?_
    · unfold Ends mayFail
      split <;> exact ⟨rfl, rfl, rfl⟩
    · rintro ⟨⟩ s₂ ⟨hframe, hcalls, hgateway⟩
      refine ends_bind (M := fun r s' => r = .ok s₂.gateway.abm ∧ s' = s₂) ⟨rfl, rfl⟩ ?_ (by simp)
      rintro abm s₃ ⟨habm, rfl⟩
      cases habm
      refine ends_bind (M := fun r s' => s' = { s₃ with gateway := { s₃.gateway with abm := s₃.gateway.abm.remember } }) rfl ?_ ?_
      · rintro ⟨⟩ s₄ rfl
        refine ends_bind (M := fun r s' => s' = { s₃ with
          gateway := { s₃.gateway with abm := s₃.gateway.abm.remember }
          abmCalls := s₃.abmCalls ++ [.recorded s₃.gateway.abm.currentWindowId] }) rfl ?_ ?_
        · rintro ⟨⟩ s₅ rfl
          unfold Ends mayFail
          split
          · exact ⟨hframe, by rw [hgateway], trivial⟩
          · refine ⟨hframe, by rw [hgateway], ?_, ?_⟩
            · change s₃.abmCalls ++ _ = _
              rw [hcalls, hgateway]
              rfl
            · change s₃.gateway.abm.remember = _
              rw [hgateway]
              rfl
        · rintro e s₅ rfl
          exact ⟨hframe, by rw [hgateway], trivial⟩
      · rintro e s₄ rfl
        exact ⟨hframe, by rw [hgateway], trivial⟩
    · rintro e s₂ ⟨hframe, hcalls, hgateway⟩
      exact ⟨hframe, by rw [hgateway], trivial⟩
  · rintro e s₁ rfl
    exact ⟨rfl, rfl, trivial⟩

/-- The join of the detectors takes the step of the window. -/
theorem join_onCourse {calls : List (AbmCall F)} {steps : Nat} (s : World R F σ δ π)
    (hthreat : .threatIntelligenceCorrelator ∉ s.frame.completed) (h : Gathering calls steps (course s)) :
    Ends (joinDetectors E call) s fun _ s' => OnCourse call.windowId calls steps (course s') := by
  obtain ⟨findings, hcalls, hsteps⟩ := h
  refine ends_bind (M := fun r s' => r = .ok s.frame.completed ∧ s' = s) ⟨rfl, rfl⟩ ?_ (by simp)
  rintro completed s' ⟨hr, rfl⟩
  cases hr
  split
  · rename_i hboth
    refine ends_attempt (M := fun r s'' => s''.frame.completed = s'.frame.completed ∧ match r with
      | .ok _ => Recorded call.windowId calls steps (course s'')
      | .error _ => True) ?_ (fun _ s'' h => .inr ⟨by rw [course, h.1]; exact hboth, fun _ => h.2⟩) ?_
    · refine ends_bind (M := fun _ s₁ => s₁ = { s' with
        gateway := { s'.gateway with abm := { s'.gateway.abm with currentWindowId := some call.windowId } } }) rfl ?_ ?_
      · rintro ⟨⟩ s₁ rfl
        refine ends_bind (propagate_ends E _) ?_ fun e s₂ h₂ => ⟨congrArg Frame.completed h₂.1, trivial⟩
        rintro ⟨⟩ s₂ ⟨hframe₂, hsteps₂, hcurrent₂, -, hcalls₂, -⟩
        refine ends_bind (recordStep_ends E s₂) ?_ fun e s₃ h₃ => ⟨congrArg Frame.completed (h₃.1.trans hframe₂), trivial⟩
        rintro ⟨⟩ s₃ ⟨hframe₃, -, hcalls₃, habm₃⟩
        have hcompleted : s₃.frame.completed = s'.frame.completed := congrArg Frame.completed (hframe₃.trans hframe₂)
        refine ends_bind (M := fun _ s₄ => s₄ = { s₃ with frame := { s₃.frame with deviceRiskAvailable := true } }) rfl ?_ ?_
        · rintro ⟨⟩ s₄ rfl
          refine ends_update ⟨hcompleted, findings, 0, ?_, ?_, ?_⟩
          · change s₃.abmCalls = _
            rw [hcalls₃, hcalls₂, hcurrent₂, show s'.abmCalls = calls ++ findings.map .evidence from hcalls]
            simp
          · change s₃.gateway.abm.steps = _
            rw [habm₃]
            change s₂.gateway.abm.steps + 1 = _
            rw [hsteps₂]
            exact congrArg (· + 1) hsteps
          · change s₃.gateway.abm.currentWindowId = _
            rw [habm₃]
            exact hcurrent₂
        · rintro e s₄ rfl
          exact ⟨hcompleted, trivial⟩
      · rintro e s₁ rfl
        exact ⟨rfl, trivial⟩
    · rintro e s'' ⟨hcompleted, -⟩
      refine ends_update (.inr ⟨?_, fun hnot => absurd ?_ hnot⟩)
      · change bothDetectors s''.frame.completed
        rw [hcompleted]
        exact hboth
      · exact List.mem_append_right _ (List.mem_singleton.mpr rfl)
  · rename_i hnot
    exact ends_pure (.inl ⟨hnot, hthreat, findings, hcalls, hsteps⟩)

/-- Who is ready has not completed, and all that it depends on has. -/
def Able (a : AgentId) (v : View F δ π) : Prop := a ∉ v.completed ∧ ∀ b ∈ dependencies a, b ∈ v.completed

omit [RiskNumber F] in
theorem OnCourse.early {a : AgentId} (ha : a = .networkAnomalyDetector ∨ a = .iotBehavioralProfiler) {target : Int}
    {calls : List (AbmCall F)} {steps : Nat} {v : View F δ π} (h : OnCourse target calls steps v) (hable : Able a v) :
    Early calls steps v := by
  refine h.resolve_right fun hlate => hable.1 ?_
  rcases ha with rfl | rfl
  · exact hlate.1.1
  · exact hlate.1.2

/-- A detector that has completed may join. -/
theorem detector_onCourse {a : AgentId} (ha : a = .networkAnomalyDetector ∨ a = .iotBehavioralProfiler)
    {calls : List (AbmCall F)} {steps : Nat} (s : World R F σ δ π) (h : Early calls steps (course s)) :
    Ends (complete a >>= fun _ => joinDetectors E call) s fun _ s' => OnCourse call.windowId calls steps (course s') := by
  refine ends_bind (M := fun r s' => r = .ok () ∧ s'.frame.completed = s.frame.completed ++ [a] ∧
    s'.gateway = s.gateway ∧ s'.abmCalls = s.abmCalls) ⟨rfl, rfl, rfl, rfl⟩ ?_ (by simp)
  rintro ⟨⟩ s' ⟨-, hcompleted, hgateway, hcalls⟩
  obtain ⟨-, hthreat, findings, hfound, hsteps⟩ := h
  refine join_onCourse E call s' ?_ ⟨findings, hcalls.trans hfound, (congrArg (fun g => g.abm.steps) hgateway).trans hsteps⟩
  rw [hcompleted, List.mem_append, List.mem_singleton]
  rintro (hold | hnew)
  · exact hthreat hold
  · rcases ha with rfl | rfl <;> cases hnew

omit [RiskNumber F] in
/-- The other agents come in after the join, or leave a window without one alone. -/
theorem OnCourse.completing {a : AgentId} (hn : a ≠ .networkAnomalyDetector) (hb : a ≠ .iotBehavioralProfiler) {target : Int}
    {calls : List (AbmCall F)} {steps : Nat} {s s' : World R F σ δ π} (h : OnCourse target calls steps (course s))
    (hable : Able a (course s)) (hcompleted : s'.frame.completed = s.frame.completed ++ [a])
    (hfailed : .joinFailed ∈ s.frame.record → .joinFailed ∈ s'.frame.record) (hgateway : s'.gateway = s.gateway)
    (hcalls : s'.abmCalls = s.abmCalls) : OnCourse target calls steps (course s') := by
  have hboth : bothDetectors s'.frame.completed ↔ bothDetectors s.frame.completed := by
    rw [hcompleted]
    simp [bothDetectors, hn.symm, hb.symm]
  rcases h with ⟨hnot, hthreat, findings, hfound, hsteps⟩ | ⟨hlate, hrecorded⟩
  · refine .inl ⟨fun h => hnot (hboth.mp h), ?_, findings, hcalls.trans hfound, (congrArg (fun g => g.abm.steps) hgateway).trans hsteps⟩
    change _ ∉ s'.frame.completed
    rw [hcompleted, List.mem_append, List.mem_singleton]
    rintro (hold | rfl)
    · exact hthreat hold
    · exact hnot ⟨hable.2 _ (by decide), hable.2 _ (by decide)⟩
  · refine .inr ⟨hboth.mpr hlate, fun hnone => ?_⟩
    obtain ⟨findings, again, hfound, hsteps, hcurrent⟩ := hrecorded fun hold => hnone (hfailed hold)
    refine ⟨findings, again, hcalls.trans hfound, (congrArg (fun g => g.abm.steps) hgateway).trans hsteps, ?_⟩
    exact (congrArg (fun g => g.abm.currentWindowId) hgateway).trans hcurrent

/-- A propagation after the join is one more. -/
theorem propagate_onCourse {target : Int} {calls : List (AbmCall F)} {steps : Nat} (s : World R F σ δ π)
    (hthreat : .threatIntelligenceCorrelator ∈ s.frame.completed) (h : OnCourse target calls steps (course s)) :
    Ends (attempt (propagate E) fun _ => pure ()) s fun _ s' => s'.frame = s.frame ∧ OnCourse target calls steps (course s') := by
  obtain ⟨hboth, hrecorded⟩ := h.resolve_left fun hearly => hearly.2.1 hthreat
  refine ends_attempt (propagate_ends E s) ?_ fun e s' h' => ⟨h'.1, ?_⟩
  · rintro ⟨⟩ s' ⟨hframe, hsteps', hcurrent', -, hcalls', -⟩
    refine ⟨hframe, .inr ⟨by rw [course, hframe]; exact hboth, fun hnone => ?_⟩⟩
    rw [course, hframe] at hnone
    obtain ⟨findings, again, hcalls, hsteps, hcurrent⟩ := hrecorded hnone
    refine ⟨findings, again + 1, ?_, hsteps'.trans hsteps, hcurrent'.trans hcurrent⟩
    change s'.abmCalls = _
    rw [hcalls', show s.abmCalls = _ from hcalls, List.replicate_succ', List.append_assoc]
  · obtain ⟨hframe, -, -, -, hcalls, hgateway⟩ := h'
    change OnCourse target calls steps (course s')
    rw [course, hframe, hgateway, hcalls]
    exact .inr ⟨hboth, hrecorded⟩

/-! ## Agents and rounds -/

theorem execute_onCourse (ts dispatchId : String) (a : AgentId) {calls : List (AbmCall F)} {steps : Nat} (s : World R F σ δ π)
    (h : OnCourse call.windowId calls steps (course s)) (hable : Able a (course s)) :
    Ends (execute E call ts dispatchId a) s fun _ s' => OnCourse call.windowId calls steps (course s') := by
  cases a with
  | networkAnomalyDetector =>
    have hearly := networkWork_early E call calls steps dispatchId s (h.early (.inl rfl) hable)
    exact ends_bind (M := fun _ s' => Early calls steps (course s')) hearly
      (fun _ s' h' => detector_onCourse E call (.inl rfl) s' h') fun e s' h' => .inl h'
  | iotBehavioralProfiler =>
    have hearly := behaviorWork_early E call calls steps dispatchId s (h.early (.inr rfl) hable)
    exact ends_bind (M := fun _ s' => Early calls steps (course s')) hearly
      (fun _ s' h' => detector_onCourse E call (.inr rfl) s' h') fun e s' h' => .inl h'
  | threatIntelligenceCorrelator =>
    refine ends_bind (ends_keeps (threatWork_keeps E call ts dispatchId)) (fun _ s' h' => ?_) fun e s' h' => ?_
    · have hsame := keeps_of_both h'
      rw [← hsame] at h hable
      exact h.completing (by decide) (by decide) hable rfl (List.mem_append_left _) rfl rfl
    · rw [keeps_of_both h']
      exact h
  | riskPropagationAnalyst =>
    have hthreat : .threatIntelligenceCorrelator ∈ s.frame.completed := hable.2 _ (by decide)
    have hwork : Ends (riskWork E call ts dispatchId) s fun _ s' =>
        s'.frame.completed = s.frame.completed ∧ OnCourse call.windowId calls steps (course s') := by
      refine ends_bind (propagate_onCourse E s hthreat h) (fun _ s₁ h₁ => ?_) fun e s₁ h₁ =>
        ⟨congrArg Frame.completed h₁.1, h₁.2⟩
      refine ends_bind (M := fun _ s₂ => course s₂ = course s₁) rfl (fun _ s₂ h₂ => ?_) fun e s₂ h₂ =>
        ⟨(congrArg View.completed h₂).trans (congrArg Frame.completed h₁.1), by rw [h₂]; exact h₁.2⟩
      refine ends_bind (M := fun _ s₃ => s₃ = s₂) rfl ?_ ?_
      · rintro corrs s₃ rfl
        have hrest := keeps_of_both (riskEntities_keeps E call ts dispatchId (sortedKeys corrs) s₃)
        refine ⟨?_, ?_⟩
        · exact (congrArg View.completed (hrest.trans h₂)).trans (congrArg Frame.completed h₁.1)
        · rw [hrest.trans h₂]
          exact h₁.2
      · rintro e s₃ rfl
        exact ⟨(congrArg View.completed h₂).trans (congrArg Frame.completed h₁.1), by rw [h₂]; exact h₁.2⟩
    refine ends_bind hwork (fun _ s' h' => ?_) fun e s' h' => h'.2
    have hable' : Able .riskPropagationAnalyst (course s') := by
      unfold Able course
      rw [h'.1]
      exact hable
    exact h'.2.completing (by decide) (by decide) hable' rfl (List.mem_append_left _) rfl rfl
  | trustAccessController =>
    refine ends_bind (ends_keeps (accessWork_keeps E call ts dispatchId)) (fun _ s' h' => ?_) fun e s' h' => ?_
    · have hsame := keeps_of_both h'
      rw [← hsame] at h hable
      exact h.completing (by decide) (by decide) hable rfl (List.mem_append_left _) rfl rfl
    · rw [keeps_of_both h']
      exact h

/-- On course, with agents that may run. -/
def Poised (ready : List AgentId) (target : Int) (calls : List (AbmCall F)) (steps : Nat) (v : View F δ π) : Prop :=
  OnCourse target calls steps v ∧ ∀ a ∈ ready, Able a v

theorem executeAgent_onCourse (ts : String) {a : AgentId} {ready : List AgentId} (ha : a ∈ ready) (answer : Answer)
    (selected : String) (calls : List (AbmCall F)) (steps : Nat) :
    Leads course (Poised ready call.windowId calls steps) (OnCourse call.windowId calls steps)
      (executeAgent E call ts a answer selected) := by
  refine (fresh_course E.uuid4).then_leads (fun _ hv => hv.1) fun dispatchId => ?_
  refine (onWindow_course _ _).then_leads (fun _ hv => hv.1) fun _ => ?_
  refine (publishWindow_course E call _ _).then_leads (fun _ hv => hv.1) fun _ => ?_
  refine (publishWindow_course E call _ _).then_leads (fun _ hv => hv.1) fun _ => ?_
  refine (noteHappening_course (by nofun)).then_leads (fun _ hv => hv.1) fun _ s h => ?_
  have hhandler : ∀ e, Keeps course (do
      addFailure call (.agent a e)
      publishWindow E call (.agentExecutionFailed a e) none
      setStatus call.windowId .failed
      return false : Work R F σ δ π Bool) := fun e =>
    (onWindow_course _ _).bind fun _ => (publishWindow_course E call _ _).bind fun _ =>
      (onWindow_course _ _).bind fun _ => keeps_pure _
  refine ends_attempt (M := fun _ s' => OnCourse call.windowId calls steps (course s'))
    (Q := fun _ s' => OnCourse call.windowId calls steps (course s')) ?_ (fun _ _ h' => h') fun e s' h' => ?_
  · exact ends_bind (execute_onCourse E call ts dispatchId a s h.1 (h.2 a ha)) (fun _ s' h' => h') fun e s' h' => h'
  · exact (hhandler e).preserves (OnCourse call.windowId calls steps) s' h'

theorem settleAnswer_onCourse (ts : String) (ready : List AgentId) (answer : Option Answer) (calls : List (AbmCall F))
    (steps : Nat) :
    Leads course (Poised ready call.windowId calls steps) (OnCourse call.windowId calls steps)
      (settleAnswer E call ts ready answer) := by
  have hfailure : ∀ failure, Keeps course (addFailure call failure : Work R F σ δ π Unit) := fun _ => onWindow_course _ _
  have hfailed : Keeps course (setStatus call.windowId .failed : Work R F σ δ π Unit) := onWindow_course _ _
  have hrefused : ∀ failure data, Keeps course (do
      addFailure call failure
      setStatus call.windowId .failed
      publishWindow E call data none
      return false : Work R F σ δ π Bool) := fun failure data =>
    (hfailure failure).bind fun _ => hfailed.bind fun _ => (publishWindow_course E call data none).bind fun _ => keeps_pure _
  unfold settleAnswer
  split
  · exact (hrefused _ _).leads fun _ hv => hv.1
  split
  · exact (hrefused _ _).leads fun _ hv => hv.1
  split
  · exact (keeps_raise _).leads fun _ hv => hv.1
  split
  · rename_i hready
    exact executeAgent_onCourse E call ts hready _ _ calls steps
  · exact ((hfailure _).bind fun _ => hfailed.bind fun _ => keeps_pure _).leads fun _ hv => hv.1

theorem dispatchRound_onCourse (ts : String) {calls : List (AbmCall F)} {steps : Nat} :
    Preserves (fun s => OnCourse call.windowId calls steps (course s)) (dispatchRound E call ts) := by
  intro s h
  unfold dispatchRound
  refine ends_bind (M := fun r s' => r = .ok s.frame ∧ s' = s)
    (Q := fun _ s' => OnCourse call.windowId calls steps (course s')) ⟨rfl, rfl⟩ ?_ (by simp)
  rintro frame s₁ ⟨hr, rfl⟩
  cases hr
  simp only
  split
  · exact h
  have hable : ∀ a ∈ readyAgents s₁.frame.completed s₁.frame.deviceRiskAvailable s₁.frame.riskRecAvailable, Able a (course s₁) :=
    fun a ha => ready_spec ha
  refine (dispatch_course E call ts _).then_leads (J := Poised _ call.windowId calls steps) (fun _ hv => hv.1)
    (fun answer => ?_) s₁ ⟨h, hable⟩
  exact (noteHappening_course (by nofun)).then_leads (fun _ hv => hv.1) fun _ =>
    settleAnswer_onCourse E call ts _ answer calls steps

theorem dispatchLoop_onCourse (ts : String) (n : Nat) {calls : List (AbmCall F)} {steps : Nat} :
    Preserves (fun s => OnCourse call.windowId calls steps (course s)) (dispatchLoop E call ts n) := by
  induction n with
  | zero => exact preserves_pure ()
  | succ n ih =>
    refine (dispatchRound_onCourse E call ts).bind fun goesOn => ?_
    split
    · exact ih
    · exact preserves_pure ()

omit [RiskNumber F] in
theorem closeWindow_course : Keeps course (closeWindow E call) := by
  refine (keeps_read _).bind fun w => ?_
  refine (keeps_each fun w _ => ?_).bind fun _ => (keeps_read _).bind fun _ => (keeps_read _).bind fun _ => keeps_pure _
  unfold finishWindow
  split
  · exact (onWindow_course _ _).bind fun _ => publishWindow_course E call _ _
  · exact publishWindow_course E call _ _

/-- Whatever is asked, answered and raised in a window, it stays on its course. -/
theorem executeWindow_onCourse (limit : Nat) (s : World R F σ δ π) :
    OnCourse call.windowId s.abmCalls s.gateway.abm.steps (course (executeWindow E call limit s).2) := by
  have hstart : OnCourse (F := F) call.windowId s.abmCalls s.gateway.abm.steps
      (course { s with frame := .start R F, gateway := { s.gateway with abm := { s.gateway.abm with currentWindowId := some call.windowId } } }) :=
    .inl ⟨by simp [bothDetectors, course, Frame.start], by simp [course, Frame.start], [], by simp [course], rfl⟩
  have hregister : ∀ now, Keeps course (registerWindow call limit now : Work R F σ δ π Unit) := by
    intro now
    refine (keeps_read _).bind fun windows => ?_
    split
    · exact keeps_raise _
    · exact keeps_update fun s => rfl
  have hrest : ∀ now, Preserves (fun s' => OnCourse call.windowId s.abmCalls s.gateway.abm.steps (course s'))
      (registerWindow call limit now >>= fun _ => runWindow E call now) := by
    intro now
    refine Preserves.bind ((hregister now).preserves _) fun _ => ?_
    refine Preserves.bind ((publishWindow_course E call _ _).preserves _) fun _ => ?_
    exact Preserves.bind (dispatchLoop_onCourse E call now maxIterations) fun _ => (closeWindow_course E call).preserves _
  unfold executeWindow
  split
  · exact hrest _ _ hstart
  · exact Preserves.bind ((fresh_course E.utcNow).preserves _) hrest _ hstart

end Steps

end WorkflowSteps
