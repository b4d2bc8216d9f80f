import AgenticSoc.ReplayWorkflow
import AgenticSoc.WorkflowOutcomes
import AgenticSoc.WorkflowSteps

/-!
# One step for each window of a replay

When the workflow of a window comes to its step, the runner adds none. When it leaves a later
window as the current one, the runner makes up for the step. When it ends before its step with
the window still current, nobody takes the step.
-/
namespace ReplaySteps

open Procedure WorkflowReadiness DeviceAbm FindingGateway WorkflowService WorkflowDispatch WorkflowSteps
open ReplayRunner ReplayMerge ReplayWorkflow WindowSorting
open OrchestrationMessages (Runtime)

variable {P : Type} {R : Runtime P} {F σ δ π γ ρ : Type}

/-- One step more, recorded for the window, propagated on the evidence since the window began. -/
def SteppedOnce (w : Window (Row ρ)) (s s' : World R F σ δ π) : Prop :=
  s'.gateway.abm.steps = s.gateway.abm.steps + 1 ∧
  ∃ (findings : List (Finding F)) (again : Nat), s'.abmCalls = s.abmCalls ++
    (findings.map .evidence ++ [.propagated, .recorded (some w.windowId)]) ++ List.replicate again .propagated

section Windows

variable [RiskNumber F] (E : Environment R F σ δ π ρ) (G : GraphOps γ ρ) (replayId : String) (limit : Nat)

/-- The world in which the callback of a window returns or raises. -/
def calledBack (w : Window (Row ρ)) (s : World R F σ δ π) : World R F σ δ π :=
  (executeWindow E (callOf replayId w) limit s).2

/-- With this window as the current one, the propagation and the recording return. -/
def Recordable (windowId : Int) (s : World R F σ δ π) : Prop :=
  returns (do setCurrentWindow windowId; propagate E; recordStep E) s

/-- Both detectors have finished and joined; or not both, the current window has moved on, and
the runner can take the step. -/
def ComesToStep (w : Window (Row ρ)) (s : World R F σ δ π) : Prop :=
  bothDetectors s.frame.completed ∧ .joinFailed ∉ s.frame.record ∨
  ¬ bothDetectors s.frame.completed ∧ s.gateway.abm.currentWindowId ≠ some w.windowId ∧ Recordable E w.windowId s

/-- A window that has joined comes to its step. -/
theorem comes_of_course {s s' : World R F σ δ π} (w : Window (Row ρ)) (h : course s = course s')
    (hboth : bothDetectors s'.frame.completed) (hjoined : .joinFailed ∉ s'.frame.record) : ComesToStep E w s :=
  .inl ⟨(congrArg (fun v => bothDetectors v.completed) h).mpr hboth, (congrArg (fun v => ¬ v.joinFailed) h).mpr hjoined⟩

/-- The step that the runner makes up for. -/
theorem fallback_steps {windowId : Int} {calls : List (AbmCall F)} {steps : Nat} (s : World R F σ δ π)
    (hmoved : s.gateway.abm.currentWindowId ≠ some windowId) (h : Gathering calls steps (course s))
    (hreturns : Recordable E windowId s) :
    (fallback E windowId s).1 = .ok () ∧ Recorded windowId calls steps (course (fallback E windowId s).2) := by
  obtain ⟨findings, hcalls, hsteps⟩ := h
  obtain ⟨⟨⟩, hok⟩ := hreturns
  let s₁ : World R F σ δ π :=
    { s with gateway := { s.gateway with abm := { s.gateway.abm with currentWindowId := some windowId } } }
  have hset : setCurrentWindow windowId s = (.ok (), s₁) := rfl
  rw [run_bind hset] at hok
  have hfallback : fallback E windowId s = (attempt (propagate E) (fun _ => pure ()) >>= fun _ => recordStep E) s₁ := by
    rw [fallback, run_read, if_pos hmoved, run_bind hset]
  rcases hpropagate : propagate E s₁ with ⟨e | ⟨⟩, s₂⟩
  · rw [run_bind_error hpropagate] at hok
    cases hok
  rw [run_bind hpropagate] at hok
  have hattempt : attempt (propagate E) (fun _ => pure ()) s₁ = (.ok (), s₂) := by
    unfold attempt
    rw [hpropagate]
  rw [hfallback, run_bind hattempt]
  have hprop := propagate_ends E s₁
  unfold Ends at hprop
  rw [hpropagate] at hprop
  obtain ⟨-, hsteps₂, hmovedTo, -, hcalls₂, -⟩ := hprop
  have hcurrent₂ : s₂.gateway.abm.currentWindowId = some windowId := hmovedTo
  have hrecord := recordStep_ends E s₂
  unfold Ends at hrecord
  rw [hok] at hrecord
  obtain ⟨-, -, hcalls₃, habm₃⟩ := hrecord
  refine ⟨hok, findings, 0, ?_, ?_, ?_⟩
  · change (recordStep E s₂).2.abmCalls = _
    rw [hcalls₃, hcalls₂, hcurrent₂, show s₁.abmCalls = calls ++ findings.map .evidence from hcalls]
    simp
  · change (recordStep E s₂).2.gateway.abm.steps = _
    rw [habm₃]
    exact congrArg (· + 1) (hsteps₂.trans hsteps)
  · change (recordStep E s₂).2.gateway.abm.currentWindowId = _
    rw [habm₃]
    exact hcurrent₂

/-- The current window is left alone when it is the one of the runner. -/
theorem fallback_current {windowId : Int} {s : World R F σ δ π} (h : s.gateway.abm.currentWindowId = some windowId) :
    fallback E windowId s = (.ok (), s) := by
  rw [fallback, run_read, if_neg (not_not_intro h)]
  rfl

/-- The counts behind a callback. -/
def counted (r : Except String (Option WindowResult)) (t : Tally) : Tally :=
  match r with
  | .ok (some result) => t.add result
  | _ => t

theorem workflowCallback_run (w : Window (Row ρ)) (s : Scene R F σ δ π γ) :
    workflowCallback E replayId limit w s = (.ok (), { s with
      world := calledBack E replayId limit w s.world
      tally := counted (executeWindow E (callOf replayId w) limit s.world).1 s.tally }) := by
  unfold workflowCallback calledBack
  rcases hrun : executeWindow E (callOf replayId w) limit s.world with ⟨e | _ | r, s'⟩
  · have hresult : attempt (inWorld (executeWindow E (callOf replayId w) limit)) (fun _ => pure none) s =
        (.ok none, { s with world := s' }) := by
      simp only [attempt, inWorld, hrun]
      rfl
    exact run_bind hresult
  · have hresult : attempt (inWorld (executeWindow E (callOf replayId w) limit)) (fun _ => pure none) s =
        (.ok none, { s with world := s' }) := by
      simp only [attempt, inWorld, hrun]
    exact run_bind hresult
  · have hresult : attempt (inWorld (executeWindow E (callOf replayId w) limit)) (fun _ => pure none) s =
        (.ok (some r), { s with world := s' }) := by
      simp only [attempt, inWorld, hrun]
    exact run_bind hresult

/-- What a window has done: its callback, and the runner's fallback. -/
theorem process_world (w : Window (Row ρ)) (s : Scene R F σ δ π γ) :
    (inWindow (workflowBody E G replayId limit) w s).1 = (fallback E w.windowId (calledBack E replayId limit w s.world)).1 ∧
    (inWindow (workflowBody E G replayId limit) w s).2.world =
      (fallback E w.windowId (calledBack E replayId limit w s.world)).2 ∧
    (inWindow (workflowBody E G replayId limit) w s).2.tally =
      counted (executeWindow E (callOf replayId w) limit s.world).1 s.tally := by
  let begun : Scene R F σ δ π γ := beginWindow G w.windowId s
  let graph : γ := if w.communication.isEmpty then begun.graph else G.applyMany w.communication begun.graph
  have hprocess : inWindow (workflowBody E G replayId limit) w s =
      (workflowCallback E replayId limit w >>= fun _ => inWorld (fallback E w.windowId)) { s with graph := graph } := rfl
  rw [hprocess, run_bind (workflowCallback_run E replayId limit w { s with graph := graph })]
  exact ⟨rfl, rfl, rfl⟩

/-- A window that comes to its step returns, and takes it once. -/
theorem window_steps (w : Window (Row ρ)) (s : Scene R F σ δ π γ) (h : ComesToStep E w (calledBack E replayId limit w s.world)) :
    (inWindow (workflowBody E G replayId limit) w s).1 = .ok () ∧
    SteppedOnce w s.world (inWindow (workflowBody E G replayId limit) w s).2.world := by
  obtain ⟨hresult, hworld, -⟩ := process_world E G replayId limit w s
  have hcourse : OnCourse w.windowId s.world.abmCalls s.world.gateway.abm.steps
      (course (calledBack E replayId limit w s.world)) := executeWindow_onCourse E (callOf replayId w) limit s.world
  rw [hresult, hworld]
  rcases h with ⟨hboth, hjoined⟩ | ⟨hnot, hmoved, hreturns⟩
  · obtain ⟨findings, again, hcalls, hsteps, hcurrent⟩ := (hcourse.resolve_left fun hearly => hearly.1 hboth).2 hjoined
    rw [fallback_current E hcurrent]
    exact ⟨rfl, hsteps, findings, again, hcalls⟩
  · obtain ⟨-, -, hgathering⟩ := hcourse.resolve_right fun hlate => hnot hlate.1
    obtain ⟨hok, findings, again, hcalls, hsteps, -⟩ := fallback_steps E _ hmoved hgathering hreturns
    exact ⟨hok, hsteps, findings, again, hcalls⟩

/-- Windows that each take one step take as many as they are. -/
theorem steps_along {windows : List (Window (Row ρ))} {s : Scene R F σ δ π γ}
    (h : Along (inWindow (workflowBody E G replayId limit))
      (fun w s => SteppedOnce w s.world (inWindow (workflowBody E G replayId limit) w s).2.world) windows s)
    (hreturned : (each (inWindow (workflowBody E G replayId limit)) windows s).1 = .ok ()) :
    (each (inWindow (workflowBody E G replayId limit)) windows s).2.world.gateway.abm.steps =
      s.world.gateway.abm.steps + windows.length := by
  induction windows generalizing s with
  | nil => rfl
  | cons w windows ih =>
    rcases hrun : inWindow (workflowBody E G replayId limit) w s with ⟨e | ⟨⟩, s'⟩
    · rw [each, run_bind_error hrun] at hreturned
      cases hreturned
    · obtain ⟨hstep, hrest⟩ := h
      rw [hrun] at hstep hrest
      rw [each, run_bind hrun] at hreturned ⊢
      rw [ih hrest hreturned, hstep.1, List.length_cons]
      omega

/-- In a replay whose windows all come to their step, every window takes exactly one, with its
own id and after a propagation on its evidence. -/
theorem one_step_per_window (codec : RowCodec (Row ρ)) (chunkRows : ChunkRows) (mergeFanIn : Int)
    (network behavior communication : List (Row ρ)) (s : Scene R F σ δ π γ)
    (h : Along (inWindow (workflowBody E G replayId limit))
      (fun w s => ComesToStep E w (calledBack E replayId limit w s.world)) (windowsOf codec network behavior communication) s) :
    Along (inWindow (workflowBody E G replayId limit))
      (fun w s => SteppedOnce w s.world (inWindow (workflowBody E G replayId limit) w s).2.world)
      (windowsOf codec network behavior communication) s ∧
    ∃ summary s', run codec (workflowBody E G replayId limit) report
        (.separate codec chunkRows mergeFanIn network behavior communication) s = (.ok summary, s') ∧
      s'.world.gateway.abm.steps =
        s.world.gateway.abm.steps + (windowsOf codec network behavior communication).length := by
  obtain ⟨hreturned, hsteps⟩ := along_each (fun w s => window_steps E G replayId limit w s) h
  refine ⟨hsteps, ?_⟩
  rw [run_separate]
  have hcount := steps_along E G replayId limit hsteps hreturned
  rcases hrun : each (inWindow (workflowBody E G replayId limit)) (windowsOf codec network behavior communication) s
    with ⟨e | ⟨⟩, s'⟩
  · rw [hrun] at hreturned
    cases hreturned
  · rw [hrun] at hcount
    exact ⟨_, s', rfl, hcount⟩

/-! ## Without a decision -/

/-- No adjudication comes to a decision. -/
def Undecided (E : Environment R F σ δ π ρ) : Prop :=
  ∀ request env answer, (E.adjudicate request env).1 = .ok answer → answer.decision.outcome ≠ .decided

/-- An answer, if there is one, that selects nothing. -/
def Fruitless : Except String (Option Answer) → Prop
  | .ok answer => selectedRoute answer = none
  | .error _ => True

section Undecided

variable {E} {G} (hundecided : Undecided E)

include hundecided

omit [RiskNumber F] in
theorem dispatch_fruitless (call : Call ρ) (ts : String) (ready : List AgentId) (s : World R F σ δ π) :
    Ends (dispatchViaOrchestration E call ts ready) s fun r _ => Fruitless r := by
  have hasked : ∀ request (requestPublished : Bool) s, Ends (attempt (do
      let answer ← ask (E.adjudicate request)
      return some answer) fun e => do
        if requestPublished then
          let _ ← publish E call (.adjudicationError request.requestId request.roundId e) none request.logicalTimestamp
        return none : Work R F σ δ π (Option Answer)) s fun r _ => Fruitless r := by
    intro request requestPublished s
    refine ends_attempt (M := fun r _ => Fruitless r) ?_ (fun _ _ h => h) fun e s' _ => ?_
    · refine ends_bind (M := fun r _ => ∀ answer, r = .ok answer → answer.decision.outcome ≠ .decided)
        (fun answer h => hundecided request s.env answer h) (fun answer s' h => ?_) fun _ _ _ => trivial
      exact if_neg (h answer rfl)
    · cases requestPublished with
      | false => exact (rfl : selectedRoute none = none)
      | true => exact ends_bind (M := fun _ _ => True) trivial (fun _ _ _ => (rfl : selectedRoute none = none)) fun _ _ _ => trivial
  unfold dispatchViaOrchestration
  split
  · exact (rfl : selectedRoute none = none)
  refine ends_bind (M := fun _ _ => True) trivial (fun requestHex s₁ _ => ?_) fun _ _ _ => trivial
  refine ends_bind (M := fun _ _ => True) trivial (fun roundHex s₂ _ => ?_) fun _ _ _ => trivial
  refine ends_bind (M := fun _ _ => True) trivial (fun _ s₃ _ => ?_) fun _ _ _ => trivial
  split
  · trivial
  split
  · exact (rfl : selectedRoute none = none)
  refine ends_bind (M := fun _ _ => True) trivial (fun requestPublished s₄ _ => ?_) fun _ _ _ => trivial
  refine ends_bind (hasked _ _ s₄) (fun answer s₅ h₅ => ?_) fun _ _ _ => trivial
  cases answer with
  | none => exact h₅
  | some answer =>
    cases requestPublished with
    | false => exact h₅
    | true => exact ends_bind (M := fun _ _ => True) trivial (fun _ _ _ => h₅) fun _ _ _ => trivial

theorem dispatchRound_undecided (call : Call ρ) (ts : String) : Keeps course (dispatchRound E call ts) := by
  intro s
  unfold dispatchRound
  refine ends_bind (M := fun r s' => r = .ok s.frame ∧ s' = s) (Q := fun _ s' => course s' = course s) ⟨rfl, rfl⟩ ?_ (by simp)
  rintro frame s' ⟨hr, rfl⟩
  cases hr
  simp only
  split
  · exact rfl
  refine ends_bind (M := fun r s₁ => course s₁ = course s' ∧ Fruitless r)
    ⟨dispatch_course E call ts _ s', dispatch_fruitless hundecided call ts _ s'⟩ (fun answer s₁ h₁ => ?_) fun _ _ h₁ => h₁.1
  have hnone : selectedRoute answer = none := h₁.2
  have hsettled : Keeps course (settleAnswer E call ts (readyAgents s'.frame.completed s'.frame.deviceRiskAvailable
      s'.frame.riskRecAvailable) answer) := by
    unfold settleAnswer
    rw [hnone]
    exact (onWindow_course _ _).bind fun _ => (onWindow_course _ _).bind fun _ =>
      (publishWindow_course E call _ _).bind fun _ => keeps_pure _
  exact (((noteHappening_course (by nofun)).bind fun _ => hsettled) s₁).trans h₁.1

/-- A window without a decision leaves itself as the current one, and nothing else. -/
theorem calledBack_undecided (w : Window (Row ρ)) (s : World R F σ δ π) :
    (calledBack E replayId limit w s).gateway =
      { s.gateway with abm := { s.gateway.abm with currentWindowId := some w.windowId } } ∧
    (calledBack E replayId limit w s).abmCalls = s.abmCalls := by
  have hloop : ∀ ts n, Keeps course (dispatchLoop E (callOf replayId w) ts n) := by
    intro ts n
    induction n with
    | zero => exact keeps_pure ()
    | succ n ih =>
      refine (dispatchRound_undecided hundecided _ ts).bind fun goesOn => ?_
      split
      · exact ih
      · exact keeps_pure ()
  have hregister : ∀ now, Keeps course (registerWindow (callOf replayId w) limit now : Work R F σ δ π Unit) := by
    intro now
    refine (keeps_read _).bind fun windows => ?_
    split
    · exact keeps_raise _
    · exact keeps_update fun s => rfl
  have hrest : ∀ now, Keeps course (registerWindow (callOf replayId w) limit now >>= fun _ => runWindow E (callOf replayId w) now) :=
    fun now => (hregister now).bind fun _ => (publishWindow_course E _ _ _).bind fun _ => (hloop now _).bind fun _ =>
      closeWindow_course E _
  have hcourse : course (calledBack E replayId limit w s) = course { s with
      frame := .start R F, gateway := { s.gateway with abm := { s.gateway.abm with currentWindowId := some w.windowId } } } := by
    unfold calledBack executeWindow
    split
    · exact hrest _ _
    · exact ((fresh_course E.utcNow).bind hrest) _
  exact ⟨congrArg View.gateway hcourse, congrArg View.abmCalls hcourse⟩

/-- Without a decision a replay goes through all its windows, and no window takes a step. -/
theorem undecided_windows (windows : List (Window (Row ρ))) (s : Scene R F σ δ π γ) :
    (each (inWindow (workflowBody E G replayId limit)) windows s).1 = .ok () ∧
    Along (inWindow (workflowBody E G replayId limit)) (fun w s => ¬ SteppedOnce w s.world
      (inWindow (workflowBody E G replayId limit) w s).2.world) windows s := by
  refine along_each (Q := fun _ _ => True) (fun w s _ => ?_) ?_
  · obtain ⟨hresult, hworld, -⟩ := process_world E G replayId limit w s
    obtain ⟨hgateway, -⟩ := calledBack_undecided replayId limit hundecided w s.world
    have hcurrent : (calledBack E replayId limit w s.world).gateway.abm.currentWindowId = some w.windowId := by
      rw [hgateway]
    rw [hresult, hworld, fallback_current E hcurrent]
    refine ⟨rfl, fun hstep => ?_⟩
    have hsteps := hstep.1
    rw [hgateway] at hsteps
    exact absurd hsteps (Nat.ne_of_lt (Nat.lt_succ_self _))
  · induction windows generalizing s with
    | nil => trivial
    | cons w windows ih => exact ⟨trivial, ih _⟩

end Undecided

end Windows

/-! ## Small replays -/

section Small

open WorkflowOutcomes WorkflowRequests WorkflowWindows
open OrchestrationReplica (devRuntime)

/-- Rows as lines: the window before a bar, then whether it was observed, and its start. -/
def plainRows : RowCodec (Row Unit) where
  windowId := Row.windowId
  dumps row := String.ofList (JsonText.intText row.windowId ++ '|' :: (if row.observed then '1' else '0') ::
    match row.windowStartUtc with
    | none => []
    | some start => '|' :: start.toList)
  loads line := match line.toList.dropWhile (· ≠ '|') with
    | _ :: observed :: rest =>
      { windowId := JsonText.ofIntText (line.toList.takeWhile (· ≠ '|'))
        observed := observed = '1'
        windowStartUtc := match rest with
          | [] => none
          | _ :: start => some (String.ofList start)
        content := () }
    | _ => ⟨0, false, none, ()⟩
  loads_dumps row := by
    have hbar : ∀ c ∈ JsonText.intText row.windowId, decide (c ≠ '|') = true := by
      obtain ⟨sign, digits, htext, hsign, hdigits, -⟩ := JsonText.intText_parts row.windowId
      intro c hc
      rw [htext, List.mem_append] at hc
      refine decide_eq_true ?_
      rintro rfl
      rcases hc with hc | hc
      · rcases hsign with rfl | rfl
        · cases hc
        · exact absurd (List.mem_singleton.mp hc) (by decide)
      · exact absurd (hdigits _ hc) (by decide)
    rw [String.toList_ofList, List.takeWhile_append_of_pos hbar, List.dropWhile_append_of_pos hbar]
    obtain ⟨windowId, observed, start, content⟩ := row
    cases observed <;> cases start <;> simp [JsonText.ofIntText_intText]

def noGraph : GraphOps Unit Unit := ⟨fun _ g => g, fun _ g => g⟩

/-- The world before a run, with an empty communication graph and no counts. -/
def devScene : Scene devRuntime Percent Unit Unit Unit Unit := ⟨devWorld, (), .zero⟩

def devRow (windowId : Int) : Row Unit := ⟨windowId, true, some devTime, ()⟩

/-- Every adjudication ends without a quorum. -/
def quorumless : Environment devRuntime Percent Unit Unit Unit Unit :=
  { devEnvironment none with adjudicate := fun request _ =>
      (.ok { devAnswer request none with
        decision := { (devAnswer request none).decision with outcome := .noQuorum, quorumFormed := false } }, ()) }

/-- One row, no quorum: the run completes its window, which has taken no step. -/
theorem no_quorum_no_step : (∃ summary s', run plainRows (workflowBody quorumless noGraph "replay-1" 64) report
      (.separate plainRows ⟨1, Nat.le_refl 1⟩ 8 [devRow 0] [] []) devScene = (.ok summary, s') ∧ summary.windows = 1) ∧
    ¬ Along (inWindow (workflowBody quorumless noGraph "replay-1" 64))
      (fun w s => SteppedOnce w s.world (inWindow (workflowBody quorumless noGraph "replay-1" 64) w s).2.world)
      (windowsOf plainRows [devRow 0] [] []) devScene := by
  have hundecided : Undecided quorumless := by
    rintro request env answer ⟨⟩
    exact nofun
  obtain ⟨hreturned, hnone⟩ := undecided_windows (G := noGraph) "replay-1" 64 hundecided (windowsOf plainRows [devRow 0] [] []) devScene
  refine ⟨?_, fun h => hnone.1 h.1⟩
  rw [run_separate]
  rcases hrun : each (inWindow (workflowBody quorumless noGraph "replay-1" 64)) (windowsOf plainRows [devRow 0] [] []) devScene
    with ⟨e | ⟨⟩, s'⟩
  · rw [hrun] at hreturned
    cases hreturned
  · exact ⟨_, s', rfl, rfl⟩

/-- The call of the window of that row. -/
def rowCall : Call Unit := ⟨"replay-1", 0, some devTime, [devRow 0], []⟩

theorem rowAddressable : Addressable rowCall devTime := ⟨(devAddressable).window, (devAddressable).identity, (devAddressable).timestamp⟩

/-- Only the detectors are decided for. -/
def detectorsOnly : Environment devRuntime Percent Unit Unit Unit Unit :=
  { devEnvironment none with adjudicate := fun request env =>
      if request.candidateRoutes.any fun c => c.routeId = agentToRoute .networkAnomalyDetector
      then (devEnvironment none).adjudicate request env else quorumless.adjudicate request env }

/-- The window before its first round, with both detectors done, and after its last round. -/
def joinStart : World devRuntime Percent Unit Unit Unit :=
  (publishWindow detectorsOnly rowCall (.workflowWindowStarted rowCall.workflowId) (some devTime) devRegistered).2

def joinRound (s : World devRuntime Percent Unit Unit Unit) : World devRuntime Percent Unit Unit Unit :=
  (roundUnchecked detectorsOnly rowCall devTime s).2

def joinRounds : World devRuntime Percent Unit Unit Unit := joinRound (joinRound (joinRound joinStart))

theorem join_after : executeWindow detectorsOnly rowCall 64 devWorld = closeWindow detectorsOnly rowCall joinRounds := by
  have hloop : dispatchLoop detectorsOnly rowCall devTime maxIterations joinStart = (.ok (), joinRounds) := by
    rw [maxIterations, dispatchLoop_goesOn _ (round_unchecked_ends rowAddressable (by decide +kernel)),
      dispatchLoop_goesOn _ (round_unchecked_ends rowAddressable (by decide +kernel))]
    exact dispatchLoop_stops _ (round_unchecked_ends rowAddressable (by decide +kernel))
  have htimed : rowCall.logicalTimestamp.filter (· ≠ "") = some devTime := by decide +kernel
  have hregister : registerWindow rowCall 64 devTime { devWorld with
      frame := .start devRuntime Percent
      gateway := { devWorld.gateway with abm := { devWorld.gateway.abm with currentWindowId := some rowCall.windowId } } } =
      (.ok (), devRegistered) := rfl
  have hstart : publishWindow detectorsOnly rowCall (.workflowWindowStarted rowCall.workflowId) (some devTime) devRegistered =
      (.ok (), joinStart) := rfl
  exact executeWindow_run _ _ htimed hregister hstart hloop

/-- No join of these happenings has failed. -/
def unfailed (record : List (Happening devRuntime)) : Bool :=
  record.all fun h => match h with
    | .joinFailed => false
    | _ => true

theorem one_step_dev :
    Along (inWindow (workflowBody detectorsOnly noGraph "replay-1" 64))
      (fun w s => SteppedOnce w s.world (inWindow (workflowBody detectorsOnly noGraph "replay-1" 64) w s).2.world)
      (windowsOf plainRows [devRow 0] [] []) devScene ∧
    ∃ summary s', run plainRows (workflowBody detectorsOnly noGraph "replay-1" 64) report
        (.separate plainRows ⟨1, Nat.le_refl 1⟩ 8 [devRow 0] [] []) devScene = (.ok summary, s') ∧
      s'.world.gateway.abm.steps = devScene.world.gateway.abm.steps + (windowsOf plainRows [devRow 0] [] []).length := by
  refine one_step_per_window detectorsOnly noGraph "replay-1" 64 plainRows _ 8 [devRow 0] [] [] devScene ?_
  have hwindows : windowsOf plainRows [devRow 0] [] [] = [⟨0, [devRow 0], [], []⟩] := rfl
  have hafter : course (calledBack detectorsOnly "replay-1" 64 ⟨0, [devRow 0], [], []⟩ devWorld) = course joinRounds := by
    have hcall : callOf "replay-1" ⟨0, [devRow 0], [], []⟩ = rowCall := rfl
    rw [calledBack, hcall, join_after]
    exact closeWindow_course _ _ _
  have hboth : bothDetectors joinRounds.frame.completed := by
    unfold bothDetectors
    decide +kernel
  have hunfailed : unfailed joinRounds.frame.record = true := by decide +kernel
  have hjoined : .joinFailed ∉ joinRounds.frame.record := fun hmem => absurd (List.all_eq_true.mp hunfailed _ hmem) (by decide)
  rw [hwindows]
  exact ⟨comes_of_course detectorsOnly _ hafter hboth hjoined, trivial⟩

end Small

end ReplaySteps
