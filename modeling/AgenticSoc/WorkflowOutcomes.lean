import AgenticSoc.OrchestrationReplica
import AgenticSoc.WorkflowWindows

/-!
# What windows end in

No agent runs unless it was chosen, and once at most. With publishing available a
registered window starts and ends visibly exactly when its requests are valid and are
decided for agents that they offer. A window that is completed has run all its agents
unless the join of the detectors raised.
-/
namespace WorkflowOutcomes

open Procedure WorkflowReadiness WorkflowGateway DeviceAbm FindingGateway WorkflowService WorkflowDispatch WorkflowWindows
open OrchestrationMessages OrchestrationRound OrchestrationReplica WorkflowRequests
open EventPublishing (ReplayEventType)

section Safety

variable {P : Type} {R : Runtime P} {F σ δ π ρ : Type}

theorem finished_record {blocked : Prop} {windowId : Int} {c c' : Control R} (h : Finished blocked windowId c c') :
    c'.record = c.record := by
  cases h <;> rfl

theorem going_started {valid blocked : Prop} {windowId : Int} {c c₁ : Control R} (hgoing : Going valid c)
    (h : c₁ = c.publishing windowId .workflowWindowStarted ∨ blocked ∧ c₁ = c) : Going valid c₁ := by
  rcases h with rfl | ⟨-, rfl⟩
  · exact hgoing.publishing windowId .workflowWindowStarted
  · exact hgoing

theorem windowed_safe {valid blocked : Prop} {windowId : Int} {c c' : Control R} (h : Windowed valid blocked windowId c c')
    (hgoing : Going valid c) : Safe c'.record := by
  cases h with
  | startRaised hblocked => exact hgoing.safe
  | loopRaised hstart last => exact round_safe last.round last.going
  | finished hstart last hfinished =>
    rw [finished_record hfinished]
    exact round_safe last.round last.going

/-- An agent is executed only when a decided answer has selected its route from the
candidates of its request, with all it depends on completed, and not again. -/
theorem dispatch_safe [RiskNumber F] (E : Environment R F σ δ π ρ) (call : Call ρ) (limit : Nat) (s : World R F σ δ π) :
    Safe (executeWindow E call limit s).2.frame.record := by
  rcases executeWindow_spec E call limit s with ⟨-, hrecord, -⟩ | ⟨room, -, -, hwindowed⟩
  · rw [hrecord]
    exact safe_nil
  · exact windowed_safe hwindowed (going_registered _ room _ _)

end Safety

/-! ## Visible windows -/

section Visibility

variable {P : Type} {R : Runtime P} {F σ δ π ρ : Type}

/-- How many events of the window are among these. -/
def countOf (windowId : Int) (types : List ReplayEventType) (published : List (WorkflowEvent R)) : Nat :=
  published.countP fun e => decide (e.windowId = windowId) && decide (e.data.eventType ∈ types)

/-- The window has one start and one end more than before, and its state is terminal. -/
structure Visible (windowId : Int) (s s' : World R F σ δ π) : Prop where
  started : countOf windowId [.workflowWindowStarted] s'.published =
    countOf windowId [.workflowWindowStarted] s.published + 1
  ended : countOf windowId [.workflowWindowCompleted, .workflowWindowFailed] s'.published =
    countOf windowId [.workflowWindowCompleted, .workflowWindowFailed] s.published + 1
  stored : ∃ w, findWindow windowId s'.windows = some w ∧ (w.status = .completed ∨ w.status = .failed)

theorem countOf_windowEvents (windowId : Int) {types : List ReplayEventType} (htypes : ∀ t ∈ types, isWindowEvent t = true)
    (published : List (WorkflowEvent R)) :
    countOf windowId types published = (windowEvents published).countP fun e => decide (e.1 = windowId) && decide (e.2 ∈ types) := by
  rw [windowEvents, List.countP_map, List.countP_filter, countOf]
  refine List.countP_congr fun e _ => ?_
  simp only [Function.comp_apply, Bool.and_eq_true, decide_eq_true_eq]
  exact ⟨fun h => ⟨h, htypes _ h.2⟩, fun h => h.1⟩

/-- Visibility as the control shows it. -/
theorem visible_iff {windowId : Int} {s s' : World R F σ δ π} {news : List (Int × ReplayEventType)}
    (hevents : windowEvents s'.published = windowEvents s.published ++ news) :
    Visible windowId s s' ↔
      news.countP (fun e => decide (e.1 = windowId) && decide (e.2 ∈ [ReplayEventType.workflowWindowStarted])) = 1 ∧
      news.countP (fun e => decide (e.1 = windowId) &&
        decide (e.2 ∈ [ReplayEventType.workflowWindowCompleted, .workflowWindowFailed])) = 1 ∧
      ((control s').statusOf windowId = some .completed ∨ (control s').statusOf windowId = some .failed) := by
  have hcount : ∀ types : List ReplayEventType, (∀ t ∈ types, isWindowEvent t = true) →
      (countOf windowId types s'.published = countOf windowId types s.published + 1 ↔
        news.countP (fun e => decide (e.1 = windowId) && decide (e.2 ∈ types)) = 1) := by
    intro types htypes
    rw [countOf_windowEvents windowId htypes, countOf_windowEvents windowId htypes, hevents, List.countP_append]
    omega
  have hstored : (∃ w, findWindow windowId s'.windows = some w ∧ (w.status = .completed ∨ w.status = .failed)) ↔
      ((control s').statusOf windowId = some .completed ∨ (control s').statusOf windowId = some .failed) := by
    rw [statusOf_control]
    cases findWindow windowId s'.windows with
    | none => simp
    | some w => simp
  rw [← hstored, ← hcount _ (by decide), ← hcount _ (by decide)]
  exact ⟨fun h => ⟨h.started, h.ended, h.stored⟩, fun h => ⟨h.1, h.2.1, h.2.2⟩⟩

theorem statusOf_congr {c c' : Control R} (h : c'.statuses = c.statuses) (windowId : Int) :
    c'.statusOf windowId = c.statusOf windowId := by
  rw [Control.statusOf, Control.statusOf, h]

/-- A round that refuses its answer has an answer that is not decided for an agent on offer. -/
theorem not_decided_of_refused {c : Control R} {request : OrchestrationRequestV1 R.floats} {answer : Option Answer}
    (hnone : ∀ a, ¬ Chosen c.ready answer a) : ¬ Decided (c.answering request answer).record := by
  intro hdecided
  obtain ⟨a, ha⟩ := hdecided c.ready answer (by simp [Control.answering, Control.noting])
  exact hnone a ha

/-- With publishing available, a window whose requests are valid and decided ends visibly;
any other is left without an end, or fails twice. -/
theorem windowed_outcome {valid blocked : Prop} {windowId : Int} {c c' : Control R} (hopen : ¬ blocked)
    (h : Windowed valid blocked windowId c c') (hstarted : c.statusOf windowId = some .started) :
    ((valid ∧ Decided c'.record) ∧ ∃ t status, t ∈ [ReplayEventType.workflowWindowCompleted, .workflowWindowFailed] ∧
      status ≠ WindowStatus.started ∧ c'.statuses = (c.setting windowId status).statuses ∧
      c'.windowEvents = c.windowEvents ++ [(windowId, .workflowWindowStarted), (windowId, t)]) ∨
    (¬ (valid ∧ Decided c'.record) ∧ (c'.windowEvents = c.windowEvents ++ [(windowId, .workflowWindowStarted)] ∨
      c'.windowEvents = c.windowEvents ++ [(windowId, .workflowWindowStarted), (windowId, .workflowWindowFailed),
        (windowId, .workflowWindowFailed)])) := by
  cases h with
  | startRaised hblocked => exact absurd hblocked hopen
  | loopRaised hstart last =>
    obtain rfl := hstart.resolve_right fun h => hopen h.1
    obtain ⟨before, ending, hbefore, hstatuses, hevents, hround, hresult⟩ := last
    have hevents : before.windowEvents = c.windowEvents ++ [(windowId, .workflowWindowStarted)] := hevents
    rcases hresult with ⟨-, hr⟩ | ⟨e, rfl, -⟩
    · cases hr
    cases hround with
    | requestRaised request e hready hraised =>
      exact .inr ⟨fun h => hraised.resolve_right hopen h.1, .inl hevents⟩
    | refusedUntold request answer r hready hvalid hnone hblocked hr => exact absurd hblocked hopen
    | dispatchRaised request answer a e hchosen hblocked => exact absurd hblocked hopen
    | failureRaised request answer a d e hasked hchosen hblocked => exact absurd hblocked hopen
  | finished hstart last hfinished =>
    obtain rfl := hstart.resolve_right fun h => hopen h.1
    obtain ⟨before, ending, hbefore, hstatuses, hevents, hround, hresult⟩ := last
    have hstatuses : before.statuses = c.statuses := hstatuses
    have hevents : before.windowEvents = c.windowEvents ++ [(windowId, .workflowWindowStarted)] := hevents
    have hset : ∀ {d : Control R}, d.statuses = before.statuses → ∀ status,
        (d.setting windowId status).statuses = (c.setting windowId status).statuses := by
      intro d hd status
      rw [Control.setting, Control.setting, hd, hstatuses]
    have hfailed : ∀ {d : Control R}, d.statuses = before.statuses →
        (d.failing windowId).statusOf windowId = some .failed := by
      intro d hd
      rw [Control.failing, statusOf_setting, statusOf_congr (hd.trans hstatuses), hstarted]
      rfl
    rcases hresult with ⟨rfl, -⟩ | ⟨e, rfl, hr⟩
    · cases hround with
      | idle hready =>
        cases hfinished with
        | completed hne =>
          have hvalid : valid := by
            refine hbefore.begun.resolve_left fun hempty => ?_
            have hnetwork := (stuck_spec hready).1
            rw [hempty] at hnetwork
            cases hnetwork
          refine .inl ⟨⟨hvalid, hbefore.decided⟩, .workflowWindowCompleted, .completed, by simp, by simp, hset rfl _, ?_⟩
          simp [Control.publishing, Control.setting, hevents]
        | completedUntold hne hblocked => exact absurd hblocked hopen
        | failed hfailed' =>
          rw [statusOf_congr hstatuses, hstarted] at hfailed'
          cases hfailed'
        | failedUntold hfailed' hblocked => exact absurd hblocked hopen
      | refused request answer hready hvalid hnone =>
        cases hfinished with
        | completed hne => exact absurd (hfailed rfl) hne
        | completedUntold hne hblocked => exact absurd hblocked hopen
        | failed _ =>
          refine .inr ⟨fun h => not_decided_of_refused hnone h.2, .inr ?_⟩
          simp [Control.publishing, Control.failing, Control.setting, Control.answering, Control.noting, hevents]
        | failedUntold _ hblocked => exact absurd hblocked hopen
      | refusedUntold request answer r hready hvalid hnone hblocked hr => exact absurd hblocked hopen
      | failed request answer a d hvalid hasked hchosen =>
        cases hfinished with
        | completed hne =>
          exact absurd (@hfailed { (before.answering request answer).noting (.executing a) with deviceRisk := d } rfl) hne
        | completedUntold hne hblocked => exact absurd hblocked hopen
        | failed _ =>
          refine .inl ⟨?_, .workflowWindowFailed, .failed, by simp, by simp, ?_, ?_⟩
          · exact ⟨hvalid, hbefore.decided.answered hchosen⟩
          · exact @hset { (before.answering request answer).noting (.executing a) with deviceRisk := d } rfl _
          · simp [Control.publishing, Control.failing, Control.setting, Control.answering, Control.noting, hevents]
        | failedUntold _ hblocked => exact absurd hblocked hopen
    · cases hr

/-- A registered window is visible exactly when its requests are valid and decided. -/
theorem visible_of_registered [RiskNumber F] (E : Environment R F σ δ π ρ) (call : Call ρ) (limit : Nat)
    (s : World R F σ δ π) (hopen : ¬ Blocked E) (hregisters : Registers limit s.windows call.windowId) :
    Visible call.windowId s (executeWindow E call limit s).2 ↔
      Addressable call (windowTime E call s) ∧ Decided (executeWindow E call limit s).2.frame.record := by
  obtain ⟨room, hnew, hroom, hwindowed⟩ := (executeWindow_spec E call limit s).resolve_left fun h => h.1 hregisters
  generalize (executeWindow E call limit s).2 = s' at hwindowed ⊢
  have hstarted := statusOf_registered (R := R) s.published fun w hw => hnew w ((makeRoom_sublist hroom).subset hw)
  rcases windowed_outcome hopen hwindowed hstarted with
    ⟨hdecided, t, status, ht, hstatus, hstatuses, hevents⟩ | ⟨hdisorder, hevents⟩
  · refine iff_of_true ((visible_iff hevents).mpr ⟨?_, ?_, ?_⟩) hdecided
    · rcases List.mem_pair.mp ht with rfl | rfl <;> simp
    · rcases List.mem_pair.mp ht with rfl | rfl <;> simp
    · rw [statusOf_congr hstatuses, statusOf_setting, hstarted]
      cases status with
      | started => exact absurd rfl hstatus
      | completed => exact .inl rfl
      | failed => exact .inr rfl
  · refine iff_of_false (fun hvisible => ?_) hdisorder
    rcases hevents with hevents | hevents
    · simpa using ((visible_iff hevents).mp hvisible).2.1
    · simpa using ((visible_iff hevents).mp hvisible).2.1

/-! ## Calls one after the other -/

/-- No window of the table is still active. -/
def AllOver (windows : List WorkflowWindowState) : Prop := ∀ w ∈ windows, w.status ≠ .started

theorem makeRoom_ok {limit n : Nat} {windows : List WorkflowWindowState} (hlimit : 0 < limit) (hover : AllOver windows) :
    ∃ room, makeRoom limit n windows = .ok room := by
  induction n generalizing windows with
  | zero => exact ⟨windows, rfl⟩
  | succ n ih =>
    rw [makeRoom]
    split
    · exact ⟨windows, rfl⟩
    · cases windows with
      | nil => simp_all
      | cons w windows =>
        have hw : w.status ≠ .started := hover w List.mem_cons_self
        simp only [evictTerminal, if_neg hw]
        exact ih fun w' hw' => hover w' (List.mem_cons_of_mem w hw')

theorem allOver_statuses {windows : List WorkflowWindowState} : AllOver windows ↔ ∀ e ∈ statuses windows, e.2 ≠ .started := by
  simp only [AllOver, statuses, List.forall_mem_map]

theorem duplicate_ne (windowId : Int) : "duplicate workflow window " ++ toString windowId ≠
    "window_states capacity exhausted by active windows" := by
  intro h
  have hhead := congrArg (fun text => text.toList.head?) h
  simp only [String.toList_append, List.head?_append] at hhead
  exact absurd hhead (by simp)

variable [RiskNumber F] (E : Environment R F σ δ π ρ) (limit : Nat)

/-- The world after these calls, whatever each has ended in. -/
def executeWindows (calls : List (Call ρ)) (s : World R F σ δ π) : World R F σ δ π :=
  calls.foldl (fun s call => (executeWindow E call limit s).2) s

/-- A call whose requests are valid and decided leaves no window active. -/
theorem allOver_step {E : Environment R F σ δ π ρ} {limit : Nat} (hopen : ¬ Blocked E) {call : Call ρ}
    {s : World R F σ δ π} (hover : AllOver s.windows)
    (hdecided : Addressable call (windowTime E call s) ∧ Decided (executeWindow E call limit s).2.frame.record) :
    AllOver (executeWindow E call limit s).2.windows := by
  have hends := executeWindow_spec E call limit s
  unfold Ends at hends
  generalize (executeWindow E call limit s).2 = s' at hends hdecided ⊢
  rcases hends with ⟨-, -, hwindows⟩ | ⟨room, hnew, hroom, hwindowed⟩
  · rw [hwindows]
    exact hover
  · have hsublist := makeRoom_sublist hroom
    have hstarted := statusOf_registered (R := R) s.published fun w hw => hnew w (hsublist.subset hw)
    rcases windowed_outcome hopen hwindowed hstarted with ⟨-, t, status, -, hstatus, hstatuses, -⟩ | ⟨hdisorder, -⟩
    · rw [allOver_statuses]
      intro e he
      change e ∈ (control s').statuses at he
      rw [hstatuses] at he
      obtain ⟨e', he', rfl⟩ := List.mem_map.mp he
      by_cases hid : e'.1 = call.windowId
      · rw [if_pos hid]
        exact hstatus
      · rw [if_neg hid]
        rcases List.mem_append.mp he' with hold | hlast
        · exact (allOver_statuses).mp (fun w hw => hover w (hsublist.subset hw)) e' hold
        · exact absurd (congrArg Prod.fst (List.mem_singleton.mp hlast)) hid
    · exact absurd hdecided hdisorder

theorem allOver_run {E : Environment R F σ δ π ρ} {limit : Nat} (hopen : ¬ Blocked E) {calls : List (Call ρ)}
    {s : World R F σ δ π} (hover : AllOver s.windows)
    (hdecided : ∀ earlier call later, calls = earlier ++ call :: later →
      Addressable call (windowTime E call (executeWindows E limit earlier s)) ∧
        Decided (executeWindow E call limit (executeWindows E limit earlier s)).2.frame.record) :
    AllOver (executeWindows E limit calls s).windows := by
  induction calls generalizing s with
  | nil => exact hover
  | cons call calls ih =>
    refine ih (allOver_step hopen hover (hdecided [] call calls rfl)) fun earlier call' later hsplit => ?_
    exact hdecided (call :: earlier) call' later (by rw [hsplit]; rfl)

/-- With publishing available, a registered window is visible exactly when its requests are
valid and decided; after calls that are all so there is always room. -/
theorem visible_windows (available : ∀ event env, (E.publish event env).1 = .ok true) (hlimit : 0 < limit) :
    (∀ (call : Call ρ) (s : World R F σ δ π), Registers limit s.windows call.windowId →
      (Visible call.windowId s (executeWindow E call limit s).2 ↔
        Addressable call (windowTime E call s) ∧ Decided (executeWindow E call limit s).2.frame.record)) ∧
    (∀ (calls : List (Call ρ)) (s : World R F σ δ π), AllOver s.windows →
      (∀ earlier call later, calls = earlier ++ call :: later →
        Addressable call (windowTime E call (executeWindows E limit earlier s)) ∧
          Decided (executeWindow E call limit (executeWindows E limit earlier s)).2.frame.record) →
      ∀ w, rememberWindowState limit (executeWindows E limit calls s).windows w ≠
        .error "window_states capacity exhausted by active windows") := by
  have hopen : ¬ Blocked E := fun ⟨event, env, h⟩ => h (available event env)
  refine ⟨fun call s hregisters => visible_of_registered E call limit s hopen hregisters, fun calls s hover hdecided w => ?_⟩
  have hover' := allOver_run hopen hover hdecided
  obtain ⟨room, hroom⟩ := makeRoom_ok (n := (executeWindows E limit calls s).windows.length) hlimit hover'
  unfold rememberWindowState
  split
  · intro h
    injection h with h
    exact duplicate_ne _ h
  · rw [hroom]
    exact nofun

end Visibility

/-! ## Complete windows -/

section Completeness

variable {P : Type} {R : Runtime P} {F σ δ π ρ : Type}

/-- Behind a failed join nobody is ready once the correlator is done. -/
theorem ready_after_fault {valid : Prop} {c : Control R} (hgoing : Going valid c) (hfault : .joinFailed ∈ c.record)
    (hthreat : .finished .threatIntelligenceCorrelator ∈ c.record) : c.ready = [] := by
  obtain ⟨⟨hnetwork, hbehavior⟩, hoff⟩ := hgoing.fault hfault
  rw [List.eq_nil_iff_forall_not_mem]
  intro a ha
  obtain ⟨hmissing, hsupplied⟩ := ready_spec ha
  cases a with
  | networkAnomalyDetector => exact hmissing hnetwork
  | iotBehavioralProfiler => exact hmissing hbehavior
  | threatIntelligenceCorrelator => exact hmissing ((hgoing.finished _).mp hthreat)
  | riskPropagationAnalyst => exact absurd (ready_flag ha) (by simp [hoff])
  | trustAccessController =>
    have hrisk := (hgoing.risk (hsupplied _ (List.mem_singleton.mpr rfl))).1
    exact absurd hrisk (by simp [hoff])

/-- With nobody ready and no failed join, all agents have completed. -/
theorem all_finished {valid : Prop} {c : Control R} (hgoing : Going valid c) (hready : c.ready = []) (hjoin : .joinFailed ∉ c.record)
    (a : AgentId) : .finished a ∈ c.record := by
  obtain ⟨hnetwork, hbehavior, hthreat, hrisk, haccess⟩ := stuck_spec hready
  have hdone := hrisk ((hgoing.join ⟨hnetwork, hbehavior⟩).resolve_right hjoin)
  rw [hgoing.finished]
  cases a with
  | networkAnomalyDetector => exact hnetwork
  | iotBehavioralProfiler => exact hbehavior
  | threatIntelligenceCorrelator => exact hthreat
  | riskPropagationAnalyst => exact hdone
  | trustAccessController => exact haccess hdone (hgoing.risk hdone).2

/-- A last round in which somebody was ready adds no completion, and leaves the window
failed or its loop raised. -/
theorem round_unfinished {valid blocked : Prop} {windowId : Int} {c c' : Control R} {b : Except String Bool}
    (h : Round valid blocked windowId c b c') (hb : b ≠ .ok true) :
    c.ready = [] ∧ c = c' ∧ b = .ok false ∨
    c.ready ≠ [] ∧ (∀ x : Happening R, x = .joinFailed ∨ x = .finished .threatIntelligenceCorrelator →
      x ∈ c'.record → x ∈ c.record) ∧
      (c'.statuses = (c.failing windowId).statuses ∨ (∃ e, b = .error e) ∧ c'.statuses = c.statuses) := by
  have hchosenReady : ∀ {answer : Option Answer} {a : AgentId}, Chosen c.ready answer a → c.ready ≠ [] := by
    rintro answer a ⟨_, _, _, _, ha⟩ hempty
    rw [hempty] at ha
    cases ha
  have hnotes : ∀ request answer (x : Happening R), x = .joinFailed ∨ x = .finished .threatIntelligenceCorrelator →
      x ∈ (c.answering request answer).record → x ∈ c.record := by
    rintro request answer x (rfl | rfl) hx <;> simpa [Control.answering, Control.noting] using hx
  have hexecuting : ∀ request answer a (x : Happening R), x = .joinFailed ∨ x = .finished .threatIntelligenceCorrelator →
      x ∈ ((c.answering request answer).noting (.executing a)).record → x ∈ c.record := by
    rintro request answer a x (rfl | rfl) hx <;> simpa [Control.answering, Control.noting] using hx
  cases h with
  | idle hready => exact .inl ⟨hready, rfl, rfl⟩
  | requestRaised request e hready hraised =>
    refine .inr ⟨hready, ?_, .inr ⟨⟨e, rfl⟩, rfl⟩⟩
    rintro x (rfl | rfl) hx <;> simpa [Control.noting] using hx
  | refused request answer hready hvalid hnone => exact .inr ⟨hready, hnotes request answer, .inl rfl⟩
  | refusedUntold request answer r hready hvalid hnone hblocked hr => exact .inr ⟨hready, hnotes request answer, .inl rfl⟩
  | dispatchRaised request answer a e hchosen hblocked =>
    exact .inr ⟨hchosenReady hchosen, hnotes request answer, .inr ⟨⟨e, rfl⟩, rfl⟩⟩
  | executed request answer a c' hvalid hasked hchosen hexecuted => exact absurd rfl hb
  | failed request answer a d hvalid hasked hchosen =>
    exact .inr ⟨hchosenReady hchosen, hexecuting request answer a, .inl rfl⟩
  | failureRaised request answer a d e hasked hchosen hblocked =>
    exact .inr ⟨hchosenReady hchosen, hexecuting request answer a, .inr ⟨⟨e, rfl⟩, rfl⟩⟩

theorem windowed_complete {valid blocked : Prop} {windowId : Int} {c c' : Control R} (h : Windowed valid blocked windowId c c')
    (hgoing : Going valid c) (hempty : c.record = []) (hstarted : c.statusOf windowId = some .started) :
    (c'.statusOf windowId = some .completed → ∀ a, .finished a ∈ c'.record) ↔
      ¬ (.joinFailed ∈ c'.record ∧ .finished .threatIntelligenceCorrelator ∈ c'.record) := by
  have hinto : ∀ {c₁ : Control R}, c₁ = c.publishing windowId .workflowWindowStarted ∨ blocked ∧ c₁ = c →
      c₁.statuses = c.statuses := by
    rintro c₁ (rfl | ⟨-, rfl⟩) <;> rfl
  have hfailed : ∀ {d : Control R}, d.statuses = c.statuses → (d.failing windowId).statusOf windowId = some .failed := by
    intro d hd
    rw [Control.failing, statusOf_setting, statusOf_congr hd, hstarted]
    rfl
  -- where somebody was ready in the last round, the window is not completed and no join lies behind
  have hready : ∀ {before c₂ c₃ : Control R}, Going valid before → before.ready ≠ [] → c₃.record = c₂.record →
      (∀ x : Happening R, x = .joinFailed ∨ x = .finished .threatIntelligenceCorrelator → x ∈ c₂.record → x ∈ before.record) →
      c₃.statusOf windowId ≠ some .completed →
      ((c₃.statusOf windowId = some .completed → ∀ a, .finished a ∈ c₃.record) ↔
        ¬ (.joinFailed ∈ c₃.record ∧ .finished .threatIntelligenceCorrelator ∈ c₃.record)) := by
    intro before c₂ c₃ hbefore hsome hrecord hmem hstatus
    refine iff_of_true (fun h => absurd h hstatus) fun hboth => hsome ?_
    obtain ⟨hfault, hthreat⟩ := hboth
    rw [hrecord] at hfault hthreat
    exact ready_after_fault hbefore (hmem _ (.inl rfl) hfault) (hmem _ (.inr rfl) hthreat)
  cases h with
  | startRaised hblocked => simp [hempty, hstarted]
  | loopRaised hstart last =>
    obtain ⟨before, ending, hbefore, hstatuses, hevents, hround, hresult⟩ := last
    have hstatuses := hstatuses.trans (hinto hstart)
    rcases hresult with ⟨-, hr⟩ | ⟨e, rfl, -⟩
    · cases hr
    rcases round_unfinished hround (by simp) with ⟨-, -, hb⟩ | ⟨hsome, hmem, hend⟩
    · cases hb
    · refine hready hbefore hsome rfl hmem ?_
      rcases hend with hend | ⟨-, hend⟩
      · rw [statusOf_congr hend, hfailed hstatuses]
        simp
      · rw [statusOf_congr (hend.trans hstatuses), hstarted]
        simp
  | finished hstart last hfinished =>
    obtain ⟨before, ending, hbefore, hstatuses, hevents, hround, hresult⟩ := last
    have hstatuses := hstatuses.trans (hinto hstart)
    rcases hresult with ⟨rfl, -⟩ | ⟨e, rfl, hr⟩
    · rcases round_unfinished hround (by simp) with ⟨hidle, rfl, -⟩ | ⟨hsome, hmem, hend⟩
      · have hcompleted : c'.statusOf windowId = some .completed := by
          have hset := statusOf_setting before windowId .completed
          rw [statusOf_congr hstatuses, hstarted] at hset
          cases hfinished with
          | completed hne => exact hset
          | completedUntold hne hblocked => exact hset
          | failed hfailed' =>
            rw [statusOf_congr hstatuses, hstarted] at hfailed'
            cases hfailed'
          | failedUntold hfailed' hblocked =>
            rw [statusOf_congr hstatuses, hstarted] at hfailed'
            cases hfailed'
        rw [finished_record hfinished]
        refine ⟨fun hall hboth => ?_, fun hnot _ => ?_⟩
        · have hfault := hboth.1
          have hrisk := (hbefore.risk ((hbefore.finished _).mp (hall hcompleted .riskPropagationAnalyst))).1
          exact absurd hrisk (by simp [(hbefore.fault hfault).2])
        · refine all_finished hbefore hidle fun hfault => hnot ⟨hfault, ?_⟩
          exact (hbefore.finished _).mpr (stuck_spec hidle).2.2.1
      · have hfailed₂ := hend.resolve_right fun hnever => by
          obtain ⟨e, he⟩ := hnever.1
          cases he
        refine hready hbefore hsome (finished_record hfinished) hmem ?_
        have hstatus := hfailed hstatuses
        rw [← statusOf_congr hfailed₂] at hstatus
        cases hfinished with
        | completed hne => exact absurd hstatus hne
        | completedUntold hne hblocked => exact absurd hstatus hne
        | failed _ =>
          change Control.statusOf _ windowId ≠ _
          intro h
          cases hstatus.symm.trans h
        | failedUntold _ hblocked => simp [hstatus]
    · cases hr

/-- A window that is completed has completed all its agents exactly when no failed join lies
behind its correlator. -/
theorem complete_windows [RiskNumber F] (E : Environment R F σ δ π ρ) (call : Call ρ) (limit : Nat) (s : World R F σ δ π)
    (hregisters : Registers limit s.windows call.windowId) :
    let s' := (executeWindow E call limit s).2
    ((∃ w, findWindow call.windowId s'.windows = some w ∧ w.status = .completed) →
        ∀ a, .finished a ∈ s'.frame.record) ↔
      ¬ (.joinFailed ∈ s'.frame.record ∧ .finished .threatIntelligenceCorrelator ∈ s'.frame.record) := by
  obtain ⟨room, hnew, hroom, hwindowed⟩ := (executeWindow_spec E call limit s).resolve_left fun h => h.1 hregisters
  generalize (executeWindow E call limit s).2 = s' at hwindowed
  have hstarted := statusOf_registered (R := R) s.published fun w hw => hnew w ((makeRoom_sublist hroom).subset hw)
  have hcompleted : (∃ w, findWindow call.windowId s'.windows = some w ∧ w.status = .completed) ↔
      (control s').statusOf call.windowId = some .completed := by
    rw [statusOf_control, Option.map_eq_some_iff]
  change ((∃ w, findWindow call.windowId s'.windows = some w ∧ w.status = .completed) → _) ↔ _
  rw [hcompleted]
  exact windowed_complete hwindowed (going_registered _ room _ _) rfl hstarted

end Completeness

/-! ## A small environment -/

section Small

/-- Risks in whole percents. -/
def Percent : Type := Nat
  deriving DecidableEq

instance : RiskNumber Percent where
  toLinearOrder := inferInstanceAs (LinearOrder Nat)
  zero := (0 : Nat)
  half := (50 : Nat)
  least := (0 : Nat)
  plus a b := Nat.add a b
  times a b := Nat.div (Nat.mul a b) 100
  power a n := Nat.div (Nat.pow a n * 100) (100 ^ n)
  round6 a := a

/-- A decided answer for this route. -/
def devAnswer (request : OrchestrationRequestV1 devRuntime.floats) (route : Option String) : Answer where
  decisionId := "decision-1"
  decision :=
    { requestId := request.requestId
      requestVersion := request.requestVersion
      roundId := request.roundId
      requestDigest := ""
      outcome := .decided
      selectedRouteId := route
      selectedProposalDigest := none
      proposalSummaries := []
      voteSummaries := []
      rejections := []
      supportingOrchestrators := ["orchestrator_a", "orchestrator_b"]
      disagreeingOrchestrators := []
      timedOutOrchestrators := []
      delayedOrchestrators := []
      omittedOrchestrators := []
      unavailableOrchestrators := ["orchestrator_c"]
      quorumFormed := true
      reason := "quorum"
      logicalTimestamp := request.logicalTimestamp
      windowId := request.windowId }

/-- Every dispatch is decided for the first candidate, and nothing is found. The propagation
of the device model may have a fault. -/
def devEnvironment (fault : Option String) : Environment devRuntime Percent Unit Unit Unit Unit where
  hex6 _ := (zeros, ())
  uuid4 _ := ("00000000-0000-4000-8000-000000000000", ())
  utcNow _ := ("2026-01-01T00:00:00Z", ())
  validTimestamp _ := true
  orchestrated := true
  blackboardEnabled := false
  safe _ := true
  publish _ _ := (.ok true, ())
  adjudicate request _ := (.ok (devAnswer request (request.candidateRoutes.head?.map CandidateRouteV1.routeId)), ())
  findingsFromRecords _ _ := (.ok [], ())
  predictRecord _ _ _ _ := (.ok none, ())
  onFinding _ _ := (.ok (), ())
  propagateFault _ := (fault, ())
  snapshotFault _ := (none, ())
  spillFault _ := (none, ())
  correlate _ _ _ := (.error "unavailable", ())
  analyze _ _ _ _ := (.error "unavailable", ())
  decide _ _ _ _ := (.error "unavailable", ())
  recordWorkflowOutput _ _ _ := (.ok none, ())
  commit _ _ _ := (.error "unavailable", ())

/-- No device, and no window so far. -/
def devWorld : World devRuntime Percent Unit Unit Unit where
  env := ()
  detector := ()
  profiler := ()
  gateway := ⟨⟨⟨(30 : Nat), (50 : Nat), 2, fun _ => (100 : Nat)⟩, fun _ => none, 64, [], [], none, 0⟩, ⟨0, 0, 0, 0, 0, 0⟩⟩
  outputs := .start
  windows := []
  published := []
  frame := .start devRuntime Percent
  abmCalls := []

def devTime : String := "2026-01-01T00:00:00Z"

def devCall (windowId : Int) : Call Unit := ⟨"replay-1", windowId, some devTime, [], []⟩

theorem devRegisters (windowId : Int) : Registers 64 devWorld.windows (devCall windowId).windowId :=
  ⟨fun _ hw => absurd hw List.not_mem_nil, [], rfl⟩

theorem visible_windows_dev : (∀ event env, ((devEnvironment none).publish event env).1 = .ok true) ∧
    (Visible (devCall 0).windowId devWorld (executeWindow (devEnvironment none) (devCall 0) 64 devWorld).2 ↔
      Addressable (devCall 0) (windowTime (devEnvironment none) (devCall 0) devWorld) ∧
        Decided (executeWindow (devEnvironment none) (devCall 0) 64 devWorld).2.frame.record) :=
  ⟨fun _ _ => rfl, (visible_windows (devEnvironment none) 64 (fun _ _ => rfl) (by decide)).1 (devCall 0) devWorld
    (devRegisters 0)⟩

/-- A window before the start of the replay makes no valid request, and is never over. -/
theorem negative_window_active : (∀ event env, ((devEnvironment none).publish event env).1 = .ok true) ∧
    Registers 64 devWorld.windows (devCall (-1)).windowId ∧
    ¬ Visible (devCall (-1)).windowId devWorld (executeWindow (devEnvironment none) (devCall (-1)) 64 devWorld).2 := by
  have hopen : ¬ Blocked (devEnvironment none) := fun ⟨_, _, h⟩ => h rfl
  have hnot : ¬ Addressable (devCall (-1)) (windowTime (devEnvironment none) (devCall (-1)) devWorld) :=
    fun h => absurd h.window (by decide)
  exact ⟨fun _ _ => rfl, devRegisters (-1), fun hvisible =>
    hnot ((visible_of_registered (devEnvironment none) (devCall (-1)) 64 devWorld hopen (devRegisters (-1))).mp hvisible).1⟩

theorem complete_windows_dev : Registers 64 devWorld.windows (devCall 0).windowId ∧
    (((∃ w, findWindow (devCall 0).windowId (executeWindow (devEnvironment none) (devCall 0) 64 devWorld).2.windows = some w ∧
          w.status = .completed) →
        ∀ a, .finished a ∈ (executeWindow (devEnvironment none) (devCall 0) 64 devWorld).2.frame.record) ↔
      ¬ (.joinFailed ∈ (executeWindow (devEnvironment none) (devCall 0) 64 devWorld).2.frame.record ∧
        .finished .threatIntelligenceCorrelator ∈
          (executeWindow (devEnvironment none) (devCall 0) 64 devWorld).2.frame.record)) :=
  ⟨devRegisters 0, complete_windows (devEnvironment none) (devCall 0) 64 devWorld (devRegisters 0)⟩

theorem devAddressable : Addressable (devCall 0) devTime := by
  have htext : (identityStem (devCall 0) ++ "000000").toList = "replay-1-0-000000".toList := by
    simp only [identityStem, devCall, String.toList_append]
    decide +kernel
  refine ⟨by decide, ?_, by decide +kernel⟩
  rw [matchesId, htext]
  decide +kernel

/-- The registered window. -/
def devRegistered : World devRuntime Percent Unit Unit Unit :=
  { devWorld with
    gateway := ⟨{ devWorld.gateway.abm with currentWindowId := some 0 }, devWorld.gateway.stats⟩
    windows := [newWindow (devCall 0) devTime] }

theorem devRegister : registerWindow (devCall 0) 64 devTime { devWorld with
    frame := .start devRuntime Percent
    gateway := { devWorld.gateway with abm := { devWorld.gateway.abm with currentWindowId := some (devCall 0).windowId } } } =
    (.ok (), devRegistered) := rfl

/-- The window in which the propagation raises, before its first round. -/
def faultyStart : World devRuntime Percent Unit Unit Unit :=
  (publishWindow (devEnvironment (some "RuntimeError")) (devCall 0) (.workflowWindowStarted (devCall 0).workflowId)
    (some devTime) devRegistered).2

def faultyRound (s : World devRuntime Percent Unit Unit Unit) : World devRuntime Percent Unit Unit Unit :=
  (roundUnchecked (devEnvironment (some "RuntimeError")) (devCall 0) devTime s).2

/-- The rounds of the profiler, of the detector with the join, and of the correlator. -/
def faultyRounds : World devRuntime Percent Unit Unit Unit := faultyRound (faultyRound (faultyRound faultyStart))

theorem faulty_after : executeWindow (devEnvironment (some "RuntimeError")) (devCall 0) 64 devWorld =
    closeWindow (devEnvironment (some "RuntimeError")) (devCall 0) faultyRounds := by
  have hloop : dispatchLoop (devEnvironment (some "RuntimeError")) (devCall 0) devTime maxIterations faultyStart =
      (.ok (), faultyRounds) := by
    have hstop : dispatchRound (devEnvironment (some "RuntimeError")) (devCall 0) devTime faultyRounds =
        (.ok false, faultyRounds) := by
      have hready : readyAgents faultyRounds.frame.completed faultyRounds.frame.deviceRiskAvailable
          faultyRounds.frame.riskRecAvailable = [] := by decide +kernel
      rw [round_unchecked _ devAddressable, roundUnchecked, run_bind (rfl : read World.frame faultyRounds = _)]
      simp only [hready]
      rfl
    rw [maxIterations, dispatchLoop_goesOn _ (round_unchecked_ends devAddressable (by decide +kernel)),
      dispatchLoop_goesOn _ (round_unchecked_ends devAddressable (by decide +kernel)),
      dispatchLoop_goesOn _ (round_unchecked_ends devAddressable (by decide +kernel))]
    exact dispatchLoop_stops _ hstop
  have htimed : (devCall 0).logicalTimestamp.filter (· ≠ "") = some devTime := by decide +kernel
  have hstart : publishWindow (devEnvironment (some "RuntimeError")) (devCall 0)
      (.workflowWindowStarted (devCall 0).workflowId) (some devTime) devRegistered = (.ok (), faultyStart) := rfl
  exact executeWindow_run _ _ htimed devRegister hstart hloop

/-- The agents that have finished, in order. -/
def finishedAgents (record : List (Happening devRuntime)) : List AgentId :=
  record.filterMap fun h => match h with
    | .finished a => some a
    | _ => none

theorem mem_finishedAgents {a : AgentId} {record : List (Happening devRuntime)} :
    a ∈ finishedAgents record ↔ .finished a ∈ record := by
  simp only [finishedAgents, List.mem_filterMap]
  constructor
  · rintro ⟨h, hmem, hsome⟩
    split at hsome
    · cases hsome
      exact hmem
    · cases hsome
  · intro hmem
    exact ⟨.finished a, hmem, rfl⟩

/-- The propagation raises when the second detector joins: three agents complete, and the
window is completed. -/
theorem completed_with_three : Registers 64 devWorld.windows (devCall 0).windowId ∧
    (executeWindow (devEnvironment (some "RuntimeError")) (devCall 0) 64 devWorld).2.windows.map (fun w => (w.windowId, w.status)) = [(0, .completed)] ∧
    finishedAgents (executeWindow (devEnvironment (some "RuntimeError")) (devCall 0) 64 devWorld).2.frame.record =
      [.iotBehavioralProfiler, .networkAnomalyDetector, .threatIntelligenceCorrelator] ∧
    .finished .trustAccessController ∉ (executeWindow (devEnvironment (some "RuntimeError")) (devCall 0) 64 devWorld).2.frame.record := by
  have hfinished : finishedAgents (executeWindow (devEnvironment (some "RuntimeError")) (devCall 0) 64 devWorld).2.frame.record =
      [.iotBehavioralProfiler, .networkAnomalyDetector, .threatIntelligenceCorrelator] := by
    rw [faulty_after]
    decide +kernel
  refine ⟨devRegisters 0, ?_, hfinished, fun hmem => ?_⟩
  · rw [faulty_after]
    decide +kernel
  · have hin := (mem_finishedAgents).mpr hmem
    rw [hfinished] at hin
    simp at hin

end Small

end WorkflowOutcomes
