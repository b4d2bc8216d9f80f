import AgenticSoc.ReplaySteps
import AgenticSoc.WorkflowScience

/-!
# The two paths of a replay

With the workflow and without it a replay comes to the same device model, the same gateway
and the same accepted findings, when the workflow is not disturbed. The findings emitted
agree when there are no rejected ones: the workflow counts what was accepted, the direct
path all that was found.
-/
namespace ReplayPaths

open Procedure WorkflowReadiness DeviceAbm FindingGateway WorkflowService WorkflowDispatch WorkflowWindows WorkflowOutcomes
open WorkflowSteps WorkflowScience GatewayOrder WorkflowRequests
open ReplayRunner ReplayMerge ReplayWorkflow ReplaySteps WindowSorting
open OrchestrationMessages (Runtime)

/-! ## Undisturbed windows -/

section Undisturbed

variable {P : Type} {R : Runtime P} {F σ δ π γ ρ : Type}

theorem round_finished {valid blocked : Prop} {windowId : Int} {c c' : Control R} {b : Except String Bool}
    (h : Round valid blocked windowId c b c') (hgoing : Going valid c) {a : AgentId} (ha : .finished a ∈ c'.record) :
    a ∈ c'.completed := by
  have hold : .finished a ∈ c.record → a ∈ c.completed := (hgoing.finished a).mp
  cases h with
  | idle hready => exact hold ha
  | requestRaised request e hready hraised => exact hold (by simpa [Control.noting] using ha)
  | refused request answer hready hvalid hnone =>
    exact hold (by simpa [Control.answering, Control.noting, Control.failing, Control.setting, Control.publishing] using ha)
  | refusedUntold request answer r hready hvalid hnone hblocked hr =>
    exact hold (by simpa [Control.answering, Control.noting, Control.failing, Control.setting] using ha)
  | dispatchRaised request answer a e hchosen hblocked => exact hold (by simpa [Control.answering, Control.noting] using ha)
  | executed request answer a' c' hvalid hasked hchosen hexecuted =>
    exact ((going_step (.executed request answer a' c' hvalid hasked hchosen hexecuted : Round valid blocked windowId c _ c')
      hgoing).1.finished a).mp ha
  | failed request answer a d hvalid hasked hchosen =>
    exact hold (by simpa [Control.answering, Control.noting, Control.failing, Control.setting] using ha)
  | failureRaised request answer a d e hasked hchosen hblocked =>
    exact hold (by simpa [Control.answering, Control.noting] using ha)

theorem windowed_finished {valid blocked : Prop} {windowId : Int} {c c' : Control R} (h : Windowed valid blocked windowId c c')
    (hgoing : Going valid c) {a : AgentId} (ha : .finished a ∈ c'.record) : a ∈ c'.completed := by
  cases h with
  | startRaised hblocked => exact (hgoing.finished a).mp ha
  | loopRaised hstart last => exact round_finished last.round last.going ha
  | finished hstart last hfinished =>
    rw [finished_record hfinished] at ha
    have hdone := round_finished last.round last.going ha
    cases hfinished <;> exact hdone

variable [RiskNumber F] (E : Environment R F σ δ π ρ) (replayId : String) (limit : Nat)

/-- The window is completed, and no join in it has failed: every dispatch was decided for an
agent that was ready, and nothing was raised. -/
structure Undisturbed (w : Window (Row ρ)) (s : World R F σ δ π) : Prop where
  returned : ∃ result, (executeWindow E (callOf replayId w) limit s).1 = .ok (some result) ∧ result.status = .completed
  joined : .joinFailed ∉ (calledBack E replayId limit w s).frame.record

variable {E replayId limit}

theorem returned_registers {call : Call ρ} {s : World R F σ δ π} {x : Option WindowResult}
    (h : (executeWindow E call limit s).1 = .ok x) : Registers limit s.windows call.windowId := by
  have hrest : ∀ now s₁, s₁.windows = s.windows → Ends (registerWindow call limit now >>= fun _ => runWindow E call now) s₁
      fun r _ => ∀ x, r = .ok x → Registers limit s.windows call.windowId := by
    intro now s₁ hwindows
    refine ends_bind (registerWindow_spec call limit now s₁) (fun _ s₂ h₂ => ?_) fun _ _ _ => nofun
    rcases h₂ with ⟨e, -, hr, -⟩ | ⟨windows, hremember, -, -⟩
    · cases hr
    · obtain ⟨hnew, room, hroom, -⟩ := (remember_ok).mp hremember
      rw [hwindows] at hnew hroom
      exact fun _ _ => ⟨hnew, room, hroom⟩
  refine (?_ : Ends (executeWindow E call limit) s fun r _ => ∀ x, r = .ok x → Registers limit s.windows call.windowId) x h
  unfold executeWindow
  refine ends_bind (M := fun _ s' => s'.windows = s.windows) rfl (fun _ s₁ h₁ => ?_) fun _ _ _ => nofun
  refine ends_bind (M := fun _ s' => s'.windows = s.windows) h₁ (fun _ s₂ h₂ => ?_) fun _ _ _ => nofun
  split
  · exact hrest _ s₂ h₂
  · exact ends_bind (M := fun _ s' => s'.windows = s.windows) h₂ (fun now s₃ h₃ => hrest now s₃ h₃) fun _ _ _ => nofun

/-- In an undisturbed window both detectors have finished. -/
theorem Undisturbed.both {w : Window (Row ρ)} {s : World R F σ δ π} (h : Undisturbed E replayId limit w s) :
    bothDetectors (calledBack E replayId limit w s).frame.completed := by
  obtain ⟨result, hreturned, hstatus⟩ := h.returned
  have hregisters := returned_registers hreturned
  obtain ⟨room, hnew, hroom, hwindowed⟩ :=
    (executeWindow_spec E (callOf replayId w) limit s).resolve_left fun h => h.1 hregisters
  have hstarted := statusOf_registered (R := R) s.published fun w hw => hnew w ((makeRoom_sublist hroom).subset hw)
  have hresult := executeWindow_result limit s (some result) hreturned
  have hgoing := going_registered (R := R) (Addressable (callOf replayId w) (windowTime E (callOf replayId w) s)) room
    (callOf replayId w).windowId s.published
  have hjoined := h.joined
  unfold calledBack at hjoined ⊢
  generalize (executeWindow E (callOf replayId w) limit s).2 = s' at hwindowed hresult hjoined ⊢
  have hcompleted : (control s').statusOf (callOf replayId w).windowId = some .completed := by
    rw [statusOf_control, Option.map_eq_some_iff]
    obtain ⟨entry, hentry, rfl⟩ := Option.map_eq_some_iff.mp hresult.symm
    exact ⟨entry, hentry, hstatus⟩
  have hall := (windowed_complete hwindowed hgoing rfl hstarted).mpr (fun hfault => hjoined hfault.1) hcompleted
  exact ⟨windowed_finished hwindowed hgoing (hall _), windowed_finished hwindowed hgoing (hall _)⟩

end Undisturbed

/-! ## Counts -/

section Counts

variable {F : Type}

def isNetwork : Finding F → Bool
  | .network _ => true
  | .behavior _ => false

def isAbsent : Finding F → Bool
  | .network _ => false
  | .behavior f => isAbsence f

@[simp] theorem isNetwork_network (f : NetworkFinding F) : isNetwork (.network f) = true := rfl
@[simp] theorem isNetwork_behavior (f : BehaviorFinding F) : isNetwork (.behavior f) = false := rfl
@[simp] theorem isAbsent_network (f : NetworkFinding F) : isAbsent (.network f) = false := rfl
@[simp] theorem isAbsent_behavior (f : BehaviorFinding F) : isAbsent (.behavior f) = isAbsence f := rfl

/-- A behaviour finding is observed or an absence. -/
theorem behavior_split (fs : List (Finding F)) :
    (fs.countP fun f => !isNetwork f) = (fs.countP fun f => !isNetwork f && !isAbsent f) + fs.countP isAbsent := by
  induction fs with
  | nil => rfl
  | cons f fs ih =>
    cases f with
    | network f => simpa [List.countP_cons] using ih
    | behavior f => cases hf : isAbsence f <;> simp [hf, ih] <;> omega

/-- What the counts of a run gain by these findings. -/
def tallyOf (accepted : Finding F → Bool) (fs : List (Finding F)) : Tally where
  acceptedNetwork := fs.countP fun f => accepted f && isNetwork f
  acceptedBehavior := fs.countP fun f => accepted f && !isNetwork f
  findingsNetwork := fs.countP isNetwork
  behaviorObserved := fs.countP fun f => !isNetwork f && !isAbsent f
  behaviorAbsence := fs.countP isAbsent

def Tally.plus (t u : Tally) : Tally :=
  ⟨t.acceptedNetwork + u.acceptedNetwork, t.acceptedBehavior + u.acceptedBehavior, t.findingsNetwork + u.findingsNetwork,
    t.behaviorObserved + u.behaviorObserved, t.behaviorAbsence + u.behaviorAbsence⟩

theorem Tally.plus_assoc (t u v : Tally) : Tally.plus (Tally.plus t u) v = Tally.plus t (Tally.plus u v) := by
  simp only [Tally.plus, Nat.add_assoc]

theorem Tally.plus_nil (accepted : Finding F → Bool) (t : Tally) : Tally.plus t (tallyOf accepted []) = t := rfl

theorem tallyOf_append (accepted : Finding F → Bool) (fs fs' : List (Finding F)) :
    tallyOf accepted (fs ++ fs') = Tally.plus (tallyOf accepted fs) (tallyOf accepted fs') := by
  simp only [tallyOf, Tally.plus, List.countP_append]

theorem tallyOf_perm (accepted : Finding F → Bool) {fs fs' : List (Finding F)} (h : fs.Perm fs') :
    tallyOf accepted fs = tallyOf accepted fs' := by
  simp only [tallyOf, h.countP_eq]

/-- The counts that the callback returns are those of the accepted findings. -/
theorem add_windowResult (accepted : Finding F → Bool) {fs : List (Finding F)} (h : ∀ f ∈ fs, accepted f = true) (t : Tally)
    (w : WorkflowWindowState) : t.add (windowResult fs w) = Tally.plus t (tallyOf accepted fs) := by
  have hnetwork : networkCount fs = fs.countP isNetwork := List.countP_congr fun f _ => by cases f <;> simp
  have hbehavior : behaviorCount fs = fs.countP fun f => !isNetwork f := List.countP_congr fun f _ => by cases f <;> simp
  have habsence : absenceCount fs = fs.countP isAbsent := List.countP_congr fun f _ => by cases f <;> simp
  have hfirst : (fs.countP fun f => accepted f && isNetwork f) = fs.countP isNetwork :=
    List.countP_congr fun f hf => by simp [h f hf]
  have hsecond : (fs.countP fun f => accepted f && !isNetwork f) = fs.countP fun f => !isNetwork f :=
    List.countP_congr fun f hf => by simp [h f hf]
  simp only [Tally.add, windowResult, Tally.plus, tallyOf, hnetwork, hbehavior, habsence, hfirst, hsecond]
  rw [behavior_split, Nat.add_sub_cancel]

theorem countP_accepted (accepted q : Finding F → Bool) (fs : List (Finding F)) :
    ((fs.filter accepted).countP fun f => accepted f && q f) = fs.countP fun f => accepted f && q f := by
  rw [List.countP_filter]
  refine List.countP_congr fun f _ => ?_
  cases accepted f <;> simp

def emittedOf (t : Tally) : Emitted := ⟨t.findingsNetwork, t.behaviorObserved + t.behaviorAbsence, t.behaviorAbsence⟩

/-- The findings emitted agree with and without the rejected ones exactly when there are none. -/
theorem emitted_agree (accepted : Finding F → Bool) (fs : List (Finding F)) (t : Tally) :
    emittedOf (Tally.plus t (tallyOf accepted (fs.filter accepted))) = emittedOf (Tally.plus t (tallyOf accepted fs)) ↔
      ∀ f ∈ fs, accepted f = true := by
  have hlength : ∀ l : List (Finding F), l.length =
      l.countP isNetwork + ((l.countP fun f => !isNetwork f && !isAbsent f) + l.countP isAbsent) := by
    intro l
    rw [← behavior_split]
    simpa using List.length_eq_countP_add_countP (l := l) isNetwork
  constructor
  · intro h
    simp only [emittedOf, Tally.plus, tallyOf, Emitted.mk.injEq] at h
    refine List.length_filter_eq_length_iff.mp ?_
    rw [hlength, hlength]
    omega
  · intro hall
    rw [List.filter_eq_self.mpr hall]

end Counts

/-! ## The direct path -/

section Direct

variable {P : Type} {R : Runtime P} {F σ δ π γ ρ : Type} [RiskNumber F] (E : Environment R F σ δ π ρ)

/-- Findings submitted one after the other, and counted. -/
structure Submitted (fs : List (Finding F)) (s s' : Scene R F σ δ π γ) : Prop where
  gateway : s'.world.gateway = absorb E.validTimestamp s.world.gateway fs
  tally : s'.tally = Tally.plus s.tally (tallyOf (accepts E (roster s.world.gateway.abm)) fs)

theorem Submitted.trans {fs fs' : List (Finding F)} {s s' s'' : Scene R F σ δ π γ} (h : Submitted E fs s s')
    (h' : Submitted E fs' s' s'') : Submitted E (fs ++ fs') s s'' := by
  have hroster : roster s'.world.gateway.abm = roster s.world.gateway.abm := by rw [h.gateway, roster_absorb]
  refine ⟨?_, ?_⟩
  · rw [h'.gateway, h.gateway, absorb_append]
  · rw [h'.tally, h.tally, hroster, tallyOf_append, Tally.plus_assoc]

theorem Submitted.refl (s : Scene R F σ δ π γ) : Submitted E [] s s := ⟨rfl, rfl⟩

/-- A finding is submitted, and counted when it is accepted. -/
theorem submit_counted (f : Finding F) (accepting : Tally → Tally) (s : Scene R F σ δ π γ) :
    Ends (do
      let accepted ← inWorld (submitFinding E f)
      if accepted then onTally accepting else return () : Proc String (Scene R F σ δ π γ) Unit) s fun r s' =>
        instruments s'.world = instruments s.world ∧ (r = .ok () → s'.world.gateway = absorb E.validTimestamp s.world.gateway [f] ∧
          s'.tally = if accepts E (roster s.world.gateway.abm) f then accepting s.tally else s.tally) := by
  have hsubmit := submitFinding_ok E f s.world
  refine ends_bind (M := fun r s₂ => s₂.tally = s.tally ∧ instruments s₂.world = instruments s.world ∧
    ∀ b, r = .ok b → b = accepts E (roster s.world.gateway.abm) f ∧
      s₂.world.gateway = absorb E.validTimestamp s.world.gateway [f]) ⟨rfl, hsubmit.1, hsubmit.2.2⟩ ?_
    fun e s₂ h₂ => ⟨h₂.2.1, nofun⟩
  rintro b s₂ ⟨htally, hinstruments, hok⟩
  obtain ⟨hb, hgateway⟩ := hok b rfl
  rw [← hb, ← htally]
  cases b with
  | true => exact ⟨hinstruments, fun _ => ⟨hgateway, rfl⟩⟩
  | false => exact ⟨hinstruments, fun _ => ⟨hgateway, rfl⟩⟩

theorem directNetworks_ok (ns : List (NetworkFinding F)) (s : Scene R F σ δ π γ) :
    Ends (each (directNetwork E) ns) s fun r s' => instruments s'.world = instruments s.world ∧ (r = .ok () →
      s'.world.gateway = absorb E.validTimestamp s.world.gateway (ns.map .network) ∧
      s'.tally = { s.tally with acceptedNetwork := s.tally.acceptedNetwork +
        (ns.map .network).countP (accepts E (roster s.world.gateway.abm)) }) := by
  induction ns generalizing s with
  | nil => exact ⟨rfl, fun _ => ⟨rfl, rfl⟩⟩
  | cons f ns ih =>
    refine ends_bind (submit_counted E (.network f) _ s) (fun _ s₁ h₁ => ?_) fun e s₁ h₁ => ⟨h₁.1, nofun⟩
    obtain ⟨hgateway, htally⟩ := h₁.2 rfl
    have hroster : roster s₁.world.gateway.abm = roster s.world.gateway.abm := by rw [hgateway, roster_absorb]
    refine (ih s₁).mono fun r s₂ h₂ => ⟨h₂.1.trans h₁.1, fun hr => ?_⟩
    obtain ⟨hgateway₂, htally₂⟩ := h₂.2 hr
    refine ⟨?_, ?_⟩
    · rw [hgateway₂, hgateway, ← absorb_append]
      rfl
    · rw [htally₂, hroster, htally]
      cases haccepted : accepts E (roster s.world.gateway.abm) (.network f)
      · simp [haccepted]
      · simp [haccepted]
        omega

omit [RiskNumber F] in
theorem tallyOf_network (accepted : Finding F → Bool) (ns : List (NetworkFinding F)) :
    tallyOf accepted (ns.map .network) = ⟨(ns.map .network).countP accepted, 0, ns.length, 0, 0⟩ := by
  induction ns with
  | nil => rfl
  | cons f ns ih =>
    simp only [tallyOf, Tally.mk.injEq] at ih ⊢
    obtain ⟨hfirst, hsecond, hthird, hfourth, hfifth⟩ := ih
    simp [List.countP_cons, hfirst, hsecond, hthird, hfourth, hfifth]

theorem directDetectors_ok (w : Window (Row ρ)) (s : Scene R F σ δ π γ) :
    Ends (directDetectors E w) s fun r s' => r = .ok () →
      instruments s'.world = ((networkOf E w.network s.world.detector).2, s.world.profiler) ∧
      Submitted E ((networkOf E w.network s.world.detector).1.map .network) s s' := by
  unfold directDetectors networkOf
  simp only
  split
  · exact fun _ => ⟨rfl, .refl E s⟩
  · cases hdetect : E.findingsFromRecords (w.network.filter Row.observed) s.world.detector with
    | mk found d =>
      cases found with
      | error e =>
        have hraised : inWorld (detect E (w.network.filter Row.observed)) s =
            (.error e, { s with world := { s.world with detector := d } }) := by
          unfold inWorld detect
          rw [hdetect]
        rw [Ends, run_bind_error hraised]
        intro hr
        cases hr
      | ok ns =>
        have hfound : inWorld (detect E (w.network.filter Row.observed)) s =
            (.ok ns, { s with world := { s.world with detector := d } }) := by
          unfold inWorld detect
          rw [hdetect]
        rw [Ends, run_bind hfound]
        intro hr
        have hrest := directNetworks_ok E ns { s with
          world := { s.world with detector := d }
          tally := { s.tally with findingsNetwork := s.tally.findingsNetwork + ns.length } }
        obtain ⟨hgateway, htally⟩ := hrest.2 hr
        refine ⟨hrest.1, hgateway, ?_⟩
        rw [tallyOf_network]
        exact htally

theorem directBehaviors_ok (contextActive : Bool) (windowId : Int) (rows : List (Row ρ)) (s : Scene R F σ δ π γ) :
    Ends (each (directBehavior E contextActive windowId) rows) s fun r s' => r = .ok () →
      instruments s'.world = (s.world.detector, (behaviorOf E contextActive windowId rows s.world.profiler).2) ∧
      Submitted E ((behaviorOf E contextActive windowId rows s.world.profiler).1.map .behavior) s s' := by
  induction rows generalizing s with
  | nil => exact fun _ => ⟨rfl, .refl E s⟩
  | cons row rows ih =>
    unfold behaviorOf
    cases hpredict : E.predictRecord row contextActive windowId s.world.profiler with
    | mk found p =>
      have hrow : inWorld (predict E row contextActive windowId) s =
          (found, { s with world := { s.world with profiler := p } }) := by
        unfold inWorld predict
        rw [hpredict]
      cases found with
      | error e =>
        have hraised : directBehavior E contextActive windowId row s =
            (.error e, { s with world := { s.world with profiler := p } }) := run_bind_error hrow
        rw [each, Ends, run_bind_error hraised]
        intro hr
        cases hr
      | ok found =>
        cases found with
        | none =>
          have hnone : directBehavior E contextActive windowId row s =
              (.ok (), { s with world := { s.world with profiler := p } }) := run_bind hrow
          rw [each, Ends, run_bind hnone]
          intro hr
          obtain ⟨hinstruments, hsubmitted⟩ := ih { s with world := { s.world with profiler := p } } hr
          exact ⟨hinstruments, hsubmitted.gateway, hsubmitted.tally⟩
        | some f =>
          have hone : Ends (directBehavior E contextActive windowId row) s fun r s₁ =>
              instruments s₁.world = (s.world.detector, p) ∧ (r = .ok () → Submitted E [.behavior f] s s₁) := by
            unfold directBehavior
            rw [Ends, run_bind hrow]
            have hrest := submit_counted E (.behavior f)
              (fun t => { t with acceptedBehavior := t.acceptedBehavior + 1 }) { s with
                world := { s.world with profiler := p }
                tally := noteBehavior f s.tally }
            refine ⟨hrest.1, fun hr => ⟨(hrest.2 hr).1, (hrest.2 hr).2.trans ?_⟩⟩
            change (if accepts E (roster s.world.gateway.abm) (.behavior f) then _ else _) = _
            cases haccepted : accepts E (roster s.world.gateway.abm) (.behavior f) <;> cases hf : isAbsence f <;>
              simp [noteBehavior, tallyOf, Tally.plus, haccepted, hf]
          refine ends_bind hone (fun _ s₁ h₁ hr => ?_) fun e s₁ h₁ hr => by cases hr
          have hdetector : s₁.world.detector = s.world.detector := congrArg Prod.fst h₁.1
          have hprofiler : s₁.world.profiler = p := congrArg Prod.snd h₁.1
          obtain ⟨hinstruments, hsubmitted⟩ := ih s₁ hr
          rw [hprofiler] at hinstruments hsubmitted
          rw [hdetector] at hinstruments
          exact ⟨hinstruments, (h₁.2 rfl).trans E hsubmitted⟩

/-- The findings of a window, and the instruments behind them. -/
def findingsIn (w : Window (Row ρ)) (d : δ) (p : π) : List (Finding F) :=
  (networkOf E w.network d).1.map .network ++
    (behaviorOf E (w.behavior.any Row.observed) w.windowId w.behavior p).1.map .behavior

def instrumentsAfter (w : Window (Row ρ)) (d : δ) (p : π) : δ × π :=
  ((networkOf E w.network d).2, (behaviorOf E (w.behavior.any Row.observed) w.windowId w.behavior p).2)

/-- The step of the direct path is taken on what the gateway holds. -/
theorem takeStep_ok (windowId : Int) (s : Scene R F σ δ π γ) :
    Ends (do
      inWorld (setCurrentWindow windowId)
      inWorld (propagate E)
      inWorld (recordStep E) : Proc String (Scene R F σ δ π γ) Unit) s fun r s' => r = .ok () →
        stepped windowId s.world.gateway = some s'.world.gateway ∧ instruments s'.world = instruments s.world ∧
        s'.tally = s.tally := by
  refine ends_bind (M := fun r s₁ => s₁ = { s with
    world := { s.world with gateway := current (some windowId) s.world.gateway } }) rfl ?_ (fun _ _ _ => nofun)
  rintro ⟨⟩ s₁ rfl
  refine ends_bind (M := fun r s₂ => instruments s₂.world = instruments s.world ∧ s₂.tally = s.tally ∧ (r = .ok () →
    s₂.world.gateway.stats = s.world.gateway.stats ∧
    (current (some windowId) s.world.gateway).abm.propagate = .ok s₂.world.gateway.abm)) ?_ ?_ (fun _ _ _ => nofun)
  · have hends := propagate_ends E { s.world with gateway := current (some windowId) s.world.gateway }
    refine ⟨propagate_instruments E _, rfl, fun hr => ?_⟩
    unfold Ends at hends
    change (propagate E _).1 = _ at hr
    rw [hr] at hends
    exact ⟨hends.2.2.2.1, hends.2.2.2.2.2⟩
  · rintro ⟨⟩ s₂ ⟨hinstruments, htally, hok⟩ hr
    obtain ⟨hstats, hpropagate⟩ := hok rfl
    have hends := recordStep_ends E s₂.world
    unfold Ends at hends
    change (recordStep E _).1 = _ at hr
    rw [hr] at hends
    refine ⟨?_, (recordStep_instruments E _).trans hinstruments, htally⟩
    unfold stepped
    rw [hpropagate]
    change some _ = some (recordStep E s₂.world).2.gateway
    rw [← hends.2.2.2, ← hstats, ← hends.2.1]

theorem directWindow_ok (G : GraphOps γ ρ) (w : Window (Row ρ)) (s : Scene R F σ δ π γ) :
    Ends (inWindow (directBody E G) w) s fun r s' => r = .ok () →
      stepped w.windowId (absorb E.validTimestamp s.world.gateway (findingsIn E w s.world.detector s.world.profiler)) =
        some s'.world.gateway ∧
      instruments s'.world = instrumentsAfter E w s.world.detector s.world.profiler ∧
      s'.tally = Tally.plus s.tally (tallyOf (accepts E (roster s.world.gateway.abm))
        (findingsIn E w s.world.detector s.world.profiler)) := by
  refine ends_bind (M := fun r s₁ => s₁.world = s.world ∧ s₁.tally = s.tally) ⟨rfl, rfl⟩ (fun _ s₁ h₁ => ?_) fun _ _ _ => nofun
  refine ends_bind (M := fun r s₂ => s₂.world = s.world ∧ s₂.tally = s.tally) h₁ (fun _ s₂ h₂ => ?_) fun _ _ _ => nofun
  refine ends_bind (directDetectors_ok E w s₂) (fun _ s₃ h₃ => ?_) fun _ _ _ => nofun
  obtain ⟨hinstruments₃, hsubmitted₃⟩ := h₃ rfl
  refine ends_bind (directBehaviors_ok E (w.behavior.any Row.observed) w.windowId w.behavior s₃) (fun _ s₄ h₄ => ?_)
    fun _ _ _ => nofun
  obtain ⟨hinstruments₄, hsubmitted₄⟩ := h₄ rfl
  refine (takeStep_ok E w.windowId s₄).mono fun r s₅ h₅ hr => ?_
  obtain ⟨hstepped, hinstruments₅, htally₅⟩ := h₅ hr
  have hdetector : s₃.world.detector = (networkOf E w.network s.world.detector).2 :=
    (congrArg Prod.fst hinstruments₃).trans (by rw [h₂.1])
  have hprofiler : s₃.world.profiler = s.world.profiler := (congrArg Prod.snd hinstruments₃).trans (by rw [h₂.1])
  have hall : Submitted E (findingsIn E w s.world.detector s.world.profiler) s₂ s₄ := by
    have hboth := hsubmitted₃.trans E hsubmitted₄
    rw [h₂.1, hprofiler] at hboth
    exact hboth
  refine ⟨?_, ?_, ?_⟩
  · rw [← hstepped, hall.gateway, h₂.1]
  · rw [hinstruments₅, hinstruments₄, hdetector, hprofiler]
    rfl
  · rw [htally₅, hall.tally, h₂.1, h₂.2]

/-! ## The workflow's path -/

theorem workflowWindow_ok (G : GraphOps γ ρ) {replayId : String} {limit : Nat} (w : Window (Row ρ)) (s : Scene R F σ δ π γ)
    (h : Undisturbed E replayId limit w s.world) :
    Ends (inWindow (workflowBody E G replayId limit) w) s fun r s' => r = .ok () ∧
      stepped w.windowId (absorb E.validTimestamp s.world.gateway (findingsIn E w s.world.detector s.world.profiler)) =
        some s'.world.gateway ∧
      instruments s'.world = instrumentsAfter E w s.world.detector s.world.profiler ∧
      s'.tally = Tally.plus s.tally (tallyOf (accepts E (roster s.world.gateway.abm))
        ((findingsIn E w s.world.detector s.world.profiler).filter (accepts E (roster s.world.gateway.abm)))) := by
  have hboth := h.both
  obtain ⟨result, hreturned, -⟩ := h.returned
  have hjoined := h.joined
  have htracks := (executeWindow_tracks limit s.world).resolve_right (not_not_intro hboth)
  have hread := executeWindow_result limit s.world (some result) hreturned
  obtain ⟨hresult, hworld, htally⟩ := process_world E G replayId limit w s
  unfold calledBack at hresult hworld hboth hjoined
  generalize (executeWindow E (callOf replayId w) limit s.world).2 = s₁ at hresult hworld hboth hjoined htracks hread
  have hfound : foundBy E (callOf replayId w) s.world.detector s.world.profiler s₁.frame.completed =
      findingsIn E w s.world.detector s.world.profiler := by
    rw [foundBy, if_pos hboth.1, if_pos hboth.2]
    rfl
  have hstepped : stepped w.windowId
      (absorb E.validTimestamp s.world.gateway (findingsIn E w s.world.detector s.world.profiler)) = some s₁.gateway := by
    rw [← hfound]
    exact htracks.joined hboth hjoined
  rw [fallback_current E (current_stepped hstepped)] at hresult hworld
  have hperm : s₁.frame.findings.Perm ((findingsIn E w s.world.detector s.world.profiler).filter
      (accepts E (roster s.world.gateway.abm))) := by
    rw [← hfound]
    exact htracks.findings
  obtain ⟨entry, -, hentry⟩ := Option.map_eq_some_iff.mp hread.symm
  refine ⟨hresult, ?_, ?_, ?_⟩
  · rw [hworld]
    exact hstepped
  · rw [hworld]
    exact Prod.ext (htracks.detector.trans (if_pos hboth.1)) (htracks.profiler.trans (if_pos hboth.2))
  · rw [htally, hreturned, ← tallyOf_perm _ hperm]
    change s.tally.add result = _
    rw [← hentry]
    refine add_windowResult _ (fun f hf => ?_) s.tally entry
    exact (List.mem_filter.mp (hperm.mem_iff.mp hf)).2

/-! ## Whole replays -/

/-- All that is found in the windows, with the instruments taken from one to the next. -/
def findingsOf : List (Window (Row ρ)) → δ → π → List (Finding F)
  | [], _, _ => []
  | w :: windows, d, p =>
    findingsIn E w d p ++ findingsOf windows (instrumentsAfter E w d p).1 (instrumentsAfter E w d p).2

theorem each_returned {ε τ β : Type} {body : β → Proc ε τ Unit} {x : β} {xs : List β} {s : τ}
    (h : (each body (x :: xs) s).1 = .ok ()) :
    (body x s).1 = .ok () ∧ each body (x :: xs) s = each body xs (body x s).2 := by
  rcases hrun : body x s with ⟨e | ⟨⟩, s'⟩
  · rw [each, run_bind_error hrun] at h
    cases h
  · exact ⟨rfl, by rw [each, run_bind hrun]⟩

/-- From gateways and instruments that agree, the two paths come to the same gateway. The
counts of the workflow are those of the accepted findings. -/
theorem paths_matched (G : GraphOps γ ρ) {replayId : String} {limit : Nat} {windows : List (Window (Row ρ))}
    {s s' : Scene R F σ δ π γ} (hgateway : s.world.gateway = s'.world.gateway)
    (hinstruments : instruments s.world = instruments s'.world)
    (hworkflow : Along (inWindow (workflowBody E G replayId limit)) (fun w s => Undisturbed E replayId limit w s.world) windows s)
    (hdirect : (each (inWindow (directBody E G)) windows s').1 = .ok ()) :
    (each (inWindow (workflowBody E G replayId limit)) windows s).1 = .ok () ∧
    (each (inWindow (workflowBody E G replayId limit)) windows s).2.world.gateway =
      (each (inWindow (directBody E G)) windows s').2.world.gateway ∧
    (each (inWindow (workflowBody E G replayId limit)) windows s).2.tally =
      Tally.plus s.tally (tallyOf (accepts E (roster s.world.gateway.abm))
        ((findingsOf E windows s.world.detector s.world.profiler).filter (accepts E (roster s.world.gateway.abm)))) ∧
    (each (inWindow (directBody E G)) windows s').2.tally =
      Tally.plus s'.tally (tallyOf (accepts E (roster s.world.gateway.abm))
        (findingsOf E windows s.world.detector s.world.profiler)) := by
  induction windows generalizing s s' with
  | nil => exact ⟨rfl, hgateway, rfl, rfl⟩
  | cons w windows ih =>
    obtain ⟨hreturned, hdirectRest⟩ := each_returned hdirect
    obtain ⟨hok, hstepped, hinst, htally⟩ := workflowWindow_ok E G w s hworkflow.1
    obtain ⟨hstepped', hinst', htally'⟩ := directWindow_ok E G w s' hreturned
    have hrest : each (inWindow (workflowBody E G replayId limit)) (w :: windows) s =
        each (inWindow (workflowBody E G replayId limit)) windows (inWindow (workflowBody E G replayId limit) w s).2 := by
      rw [each, run_bind (Prod.ext hok rfl : inWindow (workflowBody E G replayId limit) w s = (.ok (), _))]
    have hdetector : s.world.detector = s'.world.detector := congrArg Prod.fst hinstruments
    have hprofiler : s.world.profiler = s'.world.profiler := congrArg Prod.snd hinstruments
    have halong := hworkflow.2
    rw [hdirectRest] at hdirect ⊢
    rw [hrest]
    rw [← hgateway, ← hdetector, ← hprofiler] at hstepped' htally'
    rw [← hdetector, ← hprofiler] at hinst'
    generalize (inWindow (workflowBody E G replayId limit) w s).2 = t at hstepped hinst htally halong ⊢
    generalize (inWindow (directBody E G) w s').2 = t' at hstepped' hinst' htally' hdirect ⊢
    have hsame : t.world.gateway = t'.world.gateway := Option.some.inj (hstepped.symm.trans hstepped')
    have hroster : roster t.world.gateway.abm = roster s.world.gateway.abm := by
      rw [roster_stepped hstepped, roster_absorb]
    have hnext : findingsOf E (w :: windows) s.world.detector s.world.profiler =
        findingsIn E w s.world.detector s.world.profiler ++ findingsOf E windows t.world.detector t.world.profiler := by
      rw [show t.world.detector = (instrumentsAfter E w s.world.detector s.world.profiler).1 from congrArg Prod.fst hinst,
        show t.world.profiler = (instrumentsAfter E w s.world.detector s.world.profiler).2 from congrArg Prod.snd hinst]
      rfl
    obtain ⟨hreturned', hgateway', hcount, hcount'⟩ := ih hsame (hinst.trans hinst'.symm) halong hdirect
    refine ⟨hreturned', hgateway', ?_, ?_⟩
    · rw [hcount, hroster, htally, hnext, List.filter_append, tallyOf_append, Tally.plus_assoc]
    · rw [hcount', hroster, htally', hnext, tallyOf_append, Tally.plus_assoc]

/-- When no window of the workflow is disturbed and the direct path raises nothing, the two
paths of a replay come to the same digest, the same gateway and the same accepted findings;
they report the same emitted findings exactly when the gateway accepts all of them. -/
theorem paths_agree (G : GraphOps γ ρ) (replayId : String) (limit : Nat) (codec : RowCodec (Row ρ)) (chunkRows : ChunkRows)
    (mergeFanIn : Int) (network behavior communication : List (Row ρ)) (s : Scene R F σ δ π γ)
    (hworkflow : Along (inWindow (workflowBody E G replayId limit)) (fun w s => Undisturbed E replayId limit w s.world)
      (windowsOf codec network behavior communication) s)
    (hdirect : ∀ e, (run codec (directBody E G) report (.separate codec chunkRows mergeFanIn network behavior communication) s).1 ≠
      .error e) :
    ∃ workflow direct, (run codec (workflowBody E G replayId limit) report
        (.separate codec chunkRows mergeFanIn network behavior communication) s).1 = .ok workflow ∧
      (run codec (directBody E G) report (.separate codec chunkRows mergeFanIn network behavior communication) s).1 = .ok direct ∧
      workflow.report.abmFinalDigest = direct.report.abmFinalDigest ∧
      workflow.report.gatewayStats = direct.report.gatewayStats ∧
      workflow.report.findingsAccepted = direct.report.findingsAccepted ∧
      (workflow.report.findingsEmitted = direct.report.findingsEmitted ↔
        ∀ f ∈ findingsOf E (windowsOf codec network behavior communication) s.world.detector s.world.profiler,
          (FindingGateway.submit E.validTimestamp s.world.gateway (.finding f)).2 = .ok true) := by
  have haccepted : ∀ f : Finding F, (FindingGateway.submit E.validTimestamp s.world.gateway (.finding f)).2 = .ok true ↔
      accepts E (roster s.world.gateway.abm) f = true := by
    intro f
    rw [submit_verdict, accepts, decide_eq_true_iff]
    cases verdict E.validTimestamp (roster s.world.gateway.abm) f <;> simp [Verdict.answer]
  rw [run_separate] at hdirect ⊢
  rw [run_separate]
  have hreturned : (each (inWindow (directBody E G)) (windowsOf codec network behavior communication) s).1 = .ok () := by
    rcases hrun : each (inWindow (directBody E G)) (windowsOf codec network behavior communication) s with ⟨e | ⟨⟩, s'⟩
    · rw [hrun] at hdirect
      exact absurd rfl (hdirect _)
    · rfl
  obtain ⟨hok, hgateway, htally, htally'⟩ := paths_matched E G rfl rfl hworkflow hreturned
  generalize each (inWindow (workflowBody E G replayId limit)) (windowsOf codec network behavior communication) s = out
    at hok hgateway htally
  generalize each (inWindow (directBody E G)) (windowsOf codec network behavior communication) s = out'
    at hreturned hgateway htally' hdirect
  obtain ⟨r, t⟩ := out
  obtain ⟨r', t'⟩ := out'
  cases hok
  cases hreturned
  refine ⟨_, _, rfl, rfl, ?_, ?_, ?_, ?_⟩
  · exact congrArg (fun g => g.abm.finalDigest) hgateway
  · exact congrArg (fun g => (⟨g.stats.submitted, g.stats.rejectedUnknownEntity, g.stats.rejectedSchema,
      g.stats.rejectedTimestamp⟩ : RejectedStats)) hgateway
  · change (t.tally.acceptedNetwork, t.tally.acceptedBehavior) = (t'.tally.acceptedNetwork, t'.tally.acceptedBehavior)
    rw [show t.tally = _ from htally, show t'.tally = _ from htally']
    simp only [Tally.plus, tallyOf, countP_accepted]
  · have hagree := emitted_agree (accepts E (roster s.world.gateway.abm))
      (findingsOf E (windowsOf codec network behavior communication) s.world.detector s.world.profiler) s.tally
    rw [← show t.tally = _ from htally, ← show t'.tally = _ from htally'] at hagree
    simp only [haccepted]
    exact hagree

end Direct

/-! ## A replay with a rejected finding -/

section Small

open OrchestrationReplica (devRuntime)

/-- A finding for a device that there is not. -/
def ghost : NetworkFinding Percent := ⟨"ghost", 0, devTime, (90 : Nat), "ddos", (95 : Nat)⟩

/-- Every dispatch is decided, nothing is raised, and each window finds the ghost. -/
def ghostly : Environment devRuntime Percent Unit Unit Unit Unit :=
  { devEnvironment none with findingsFromRecords := fun _ _ => (.ok [ghost], ()) }

def ghostStart : World devRuntime Percent Unit Unit Unit :=
  (publishWindow ghostly rowCall (.workflowWindowStarted rowCall.workflowId) (some devTime) devRegistered).2

def ghostRound (s : World devRuntime Percent Unit Unit Unit) : World devRuntime Percent Unit Unit Unit :=
  (roundUnchecked ghostly rowCall devTime s).2

/-- The rounds of the two detectors, and of the three other agents. -/
def ghostJoined : World devRuntime Percent Unit Unit Unit := ghostRound (ghostRound ghostStart)

def ghostRounds : World devRuntime Percent Unit Unit Unit := ghostRound (ghostRound (ghostRound ghostJoined))

theorem ghost_after : executeWindow ghostly rowCall 64 devWorld = closeWindow ghostly rowCall ghostRounds := by
  have hloop : dispatchLoop ghostly rowCall devTime maxIterations ghostStart = (.ok (), ghostRounds) := by
    have hstop : dispatchRound ghostly rowCall devTime ghostRounds = (.ok false, ghostRounds) := by
      have hready : readyAgents ghostRounds.frame.completed ghostRounds.frame.deviceRiskAvailable
          ghostRounds.frame.riskRecAvailable = [] := by decide +kernel
      rw [round_unchecked _ rowAddressable, roundUnchecked, run_bind (rfl : read World.frame ghostRounds = _)]
      simp only [hready]
      rfl
    rw [maxIterations, dispatchLoop_goesOn _ (round_unchecked_ends rowAddressable (by decide +kernel)),
      dispatchLoop_goesOn _ (round_unchecked_ends rowAddressable (by decide +kernel)),
      dispatchLoop_goesOn _ (round_unchecked_ends rowAddressable (by decide +kernel)),
      dispatchLoop_goesOn _ (round_unchecked_ends rowAddressable (by decide +kernel)),
      dispatchLoop_goesOn _ (round_unchecked_ends rowAddressable (by decide +kernel))]
    exact dispatchLoop_stops _ hstop
  have htimed : rowCall.logicalTimestamp.filter (· ≠ "") = some devTime := by decide +kernel
  have hregister : registerWindow rowCall 64 devTime { devWorld with
      frame := .start devRuntime Percent
      gateway := { devWorld.gateway with abm := { devWorld.gateway.abm with currentWindowId := some rowCall.windowId } } } =
      (.ok (), devRegistered) := rfl
  have hstart : publishWindow ghostly rowCall (.workflowWindowStarted rowCall.workflowId) (some devTime) devRegistered =
      (.ok (), ghostStart) := rfl
  exact executeWindow_run _ _ htimed hregister hstart hloop

/-- The status that a window returned, if it returned one. -/
def statusIn : Except String (Option WindowResult) → Option WindowStatus
  | .ok (some result) => some result.status
  | _ => none

theorem undisturbed_of_closed {E : Environment devRuntime Percent Unit Unit Unit Unit} {w : Window (Row Unit)}
    {s s' : World devRuntime Percent Unit Unit Unit}
    (hrun : executeWindow E (callOf "replay-1" w) 64 s = closeWindow E (callOf "replay-1" w) s')
    (hstatus : statusIn (closeWindow E (callOf "replay-1" w) s').1 = some .completed)
    (hunfailed : unfailed s'.frame.record = true) : Undisturbed E "replay-1" 64 w s := by
  refine ⟨?_, ?_⟩
  · rw [hrun]
    rcases hclosed : (closeWindow E (callOf "replay-1" w) s').1 with e | _ | result
    · rw [hclosed] at hstatus
      cases hstatus
    · rw [hclosed] at hstatus
      cases hstatus
    · rw [hclosed] at hstatus
      exact ⟨result, rfl, Option.some.inj hstatus⟩
  · rw [calledBack, hrun]
    refine (congrArg (fun v => ¬ v.joinFailed) (closeWindow_course E (callOf "replay-1" w) s')).mpr fun hmem => ?_
    exact absurd (List.all_eq_true.mp hunfailed _ hmem) (by decide)

theorem ghost_windows : windowsOf plainRows [devRow 0] [] [] = [⟨0, [devRow 0], [], []⟩] := rfl

theorem ghost_undisturbed : Along (inWindow (workflowBody ghostly noGraph "replay-1" 64))
    (fun w s => Undisturbed ghostly "replay-1" 64 w s.world) (windowsOf plainRows [devRow 0] [] []) devScene := by
  have hcall : callOf "replay-1" ⟨0, [devRow 0], [], []⟩ = rowCall := rfl
  have hrun : executeWindow ghostly (callOf "replay-1" ⟨0, [devRow 0], [], []⟩) 64 devWorld =
      closeWindow ghostly (callOf "replay-1" ⟨0, [devRow 0], [], []⟩) ghostRounds := by
    rw [hcall]
    exact ghost_after
  have hstatus : statusIn (closeWindow ghostly (callOf "replay-1" ⟨0, [devRow 0], [], []⟩) ghostRounds).1 = some .completed := by
    rw [hcall]
    decide +kernel
  rw [ghost_windows]
  exact ⟨undisturbed_of_closed hrun hstatus (by decide +kernel), trivial⟩

theorem ghost_direct : (each (inWindow (directBody ghostly noGraph)) (windowsOf plainRows [devRow 0] [] []) devScene).1 = .ok () :=
  rfl

theorem ghost_returns (e : RunError String) : (run plainRows (directBody ghostly noGraph) report
    (.separate plainRows ⟨1, Nat.le_refl 1⟩ 8 [devRow 0] [] []) devScene).1 ≠ .error e := by
  have hreturned := ghost_direct
  rw [run_separate]
  generalize each (inWindow (directBody ghostly noGraph)) (windowsOf plainRows [devRow 0] [] []) devScene = out at hreturned ⊢
  obtain ⟨r, s'⟩ := out
  cases hreturned
  exact nofun

theorem paths_agree_ghost : ∃ workflow direct, (run plainRows (workflowBody ghostly noGraph "replay-1" 64) report
        (.separate plainRows ⟨1, Nat.le_refl 1⟩ 8 [devRow 0] [] []) devScene).1 = .ok workflow ∧
      (run plainRows (directBody ghostly noGraph) report
        (.separate plainRows ⟨1, Nat.le_refl 1⟩ 8 [devRow 0] [] []) devScene).1 = .ok direct ∧
      workflow.report.abmFinalDigest = direct.report.abmFinalDigest ∧
      workflow.report.gatewayStats = direct.report.gatewayStats ∧
      workflow.report.findingsAccepted = direct.report.findingsAccepted ∧
      (workflow.report.findingsEmitted = direct.report.findingsEmitted ↔
        ∀ f ∈ findingsOf ghostly (windowsOf plainRows [devRow 0] [] []) devScene.world.detector devScene.world.profiler,
          (FindingGateway.submit ghostly.validTimestamp devScene.world.gateway (.finding f)).2 = .ok true) :=
  paths_agree ghostly noGraph "replay-1" 64 plainRows _ 8 [devRow 0] [] [] devScene ghost_undisturbed ghost_returns

/-- The ghost is rejected: the direct path reports one finding, the workflow none. -/
theorem rejected_emitted :
    Along (inWindow (workflowBody ghostly noGraph "replay-1" 64)) (fun w s => Undisturbed ghostly "replay-1" 64 w s.world)
      (windowsOf plainRows [devRow 0] [] []) devScene ∧
    ∃ workflow direct, (run plainRows (workflowBody ghostly noGraph "replay-1" 64) report
        (.separate plainRows ⟨1, Nat.le_refl 1⟩ 8 [devRow 0] [] []) devScene).1 = .ok workflow ∧
      (run plainRows (directBody ghostly noGraph) report
        (.separate plainRows ⟨1, Nat.le_refl 1⟩ 8 [devRow 0] [] []) devScene).1 = .ok direct ∧
      workflow.report.findingsEmitted = ⟨0, 0, 0⟩ ∧ direct.report.findingsEmitted = ⟨1, 0, 0⟩ := by
  have hreturned := ghost_direct
  obtain ⟨hok, -, htally, htally'⟩ := paths_matched ghostly noGraph rfl rfl ghost_undisturbed ghost_direct
  have hnone : tallyOf (accepts ghostly (roster devScene.world.gateway.abm)) ((findingsOf ghostly
      (windowsOf plainRows [devRow 0] [] []) devScene.world.detector devScene.world.profiler).filter
      (accepts ghostly (roster devScene.world.gateway.abm))) = ⟨0, 0, 0, 0, 0⟩ := rfl
  have hone : tallyOf (accepts ghostly (roster devScene.world.gateway.abm)) (findingsOf ghostly
      (windowsOf plainRows [devRow 0] [] []) devScene.world.detector devScene.world.profiler) = ⟨0, 0, 1, 0, 0⟩ := rfl
  rw [hnone] at htally
  rw [hone] at htally'
  refine ⟨ghost_undisturbed, ?_⟩
  rw [run_separate, run_separate]
  generalize each (inWindow (workflowBody ghostly noGraph "replay-1" 64)) (windowsOf plainRows [devRow 0] [] []) devScene = out
    at hok htally
  generalize each (inWindow (directBody ghostly noGraph)) (windowsOf plainRows [devRow 0] [] []) devScene = out'
    at hreturned htally'
  obtain ⟨r, t⟩ := out
  obtain ⟨r', t'⟩ := out'
  cases hok
  cases hreturned
  exact ⟨_, _, rfl, rfl, congrArg emittedOf htally, congrArg emittedOf htally'⟩

end Small

end ReplayPaths
