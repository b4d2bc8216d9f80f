import AgenticSoc.WorkflowDispatch
import Mathlib.Data.List.Nodup

/-!
# Whole windows

From the rounds of the dispatch loop to a window. While the loop goes on, every agent that
ran was chosen and has completed; the last round decides how the window ends.
-/
namespace WorkflowWindows

open Procedure WorkflowReadiness WorkflowGateway DeviceAbm FindingGateway WorkflowService WorkflowDispatch
open OrchestrationMessages OrchestrationRound WorkflowRequests
open EventPublishing (ReplayEventType)

section Justification

variable {P : Type} {R : Runtime P}

/-- What has happened before an agent is executed. -/
structure Justified (before : List (Happening R)) (a : AgentId) : Prop where
  selected : ∃ earlier request ready answer,
    before = earlier ++ [.requested request, .answered ready (some answer)] ∧
    answer.decision.outcome = .decided ∧ answer.decision.selectedRouteId = some (agentToRoute a) ∧
    ⟨agentToRoute a, 0⟩ ∈ request.candidateRoutes
  supplied : ∀ b ∈ dependencies a, .finished b ∈ before
  first : .executing a ∉ before

/-- Every execution of a record is justified by what came before it. -/
def Safe (record : List (Happening R)) : Prop :=
  ∀ before a after, record = before ++ .executing a :: after → Justified before a

/-- Every dispatch is decided for an agent that it offers. -/
def Decided (record : List (Happening R)) : Prop :=
  ∀ ready answer, .answered ready answer ∈ record → ∃ a, Chosen ready answer a

theorem safe_nil : Safe ([] : List (Happening R)) := by
  intro before a after h
  cases before <;> cases h

theorem decided_nil : Decided ([] : List (Happening R)) := by
  intro ready answer h
  cases h

theorem Safe.snoc {record : List (Happening R)} (h : Safe record) {x : Happening R}
    (hx : ∀ a, x = .executing a → Justified record a) : Safe (record ++ [x]) := by
  intro before a after hsplit
  rcases List.eq_nil_or_concat after with rfl | ⟨after, y, rfl⟩
  · obtain ⟨hbefore, hlast⟩ := List.append_inj' hsplit rfl
    rw [← hbefore]
    exact hx a (List.head_eq_of_cons_eq hlast)
  · rw [List.concat_eq_append, ← List.cons_append, ← List.append_assoc] at hsplit
    exact h before a after (List.append_inj' hsplit rfl).1

/-- What is no execution needs no justification. -/
theorem Safe.append {record notes : List (Happening R)} (h : Safe record) (hnotes : ∀ a, .executing a ∉ notes) :
    Safe (record ++ notes) := by
  induction notes generalizing record with
  | nil =>
    rw [List.append_nil]
    exact h
  | cons x notes ih =>
    have hx : Safe (record ++ [x]) := by
      refine h.snoc fun a hx => ?_
      exact absurd (hx ▸ List.mem_cons_self) (hnotes a)
    have hrest := ih hx fun a ha => hnotes a (List.mem_cons_of_mem x ha)
    rwa [List.append_assoc, List.singleton_append] at hrest

theorem Decided.append {record notes : List (Happening R)} (h : Decided record) (hnotes : Decided notes) :
    Decided (record ++ notes) := fun ready answer hmem => (List.mem_append.mp hmem).elim (h ready answer) (hnotes ready answer)

/-- An answer that is decided for an agent on offer keeps a record decided. -/
theorem Decided.answered {c : Control R} (h : Decided c.record) {request : OrchestrationRequestV1 R.floats}
    {answer : Option Answer} {a : AgentId} (hchosen : Chosen c.ready answer a) :
    Decided ((c.answering request answer).noting (.executing a)).record := by
  have hnotes : Decided [.requested request, .answered c.ready answer, .executing a] := by
    intro ready answer' hmem
    simp only [List.mem_cons, List.not_mem_nil, or_false, Happening.answered.injEq, reduceCtorEq, false_or] at hmem
    rw [hmem.1, hmem.2]
    exact ⟨a, hchosen⟩
  simpa [Control.answering, Control.noting] using h.append hnotes

end Justification

section Goings

variable {P : Type} {R : Runtime P}

/-- What an execution leaves and what it adds. -/
theorem executed_effect {a : AgentId} {c c' : Control R} (h : Executed a c c') :
    c'.completed = c.completed ++ [a] ∧ c'.statuses = c.statuses ∧ c'.windowEvents = c.windowEvents ∧
    ∃ joins, c'.record = c.record ++ .finished a :: joins ∧ (∀ x ∈ joins, x = .joined ∨ x = .joinFailed) := by
  cases h with
  | detector ha hnot => exact ⟨rfl, rfl, rfl, [], rfl, by simp⟩
  | joined ha hboth => exact ⟨rfl, rfl, rfl, [.joined], by simp [Control.noting, Control.completing], by simp⟩
  | joinFailed ha hboth => exact ⟨rfl, rfl, rfl, [.joinFailed], by simp [Control.noting, Control.completing], by simp⟩
  | threat => exact ⟨rfl, rfl, rfl, [], rfl, by simp⟩
  | risk => exact ⟨rfl, rfl, rfl, [], rfl, by simp⟩
  | access => exact ⟨rfl, rfl, rfl, [], rfl, by simp⟩

/-- The flags tell whether the join of the detectors has failed. -/
structure Flagged (c : Control R) : Prop where
  flag : c.deviceRisk = true → bothDetectors c.completed
  join : bothDetectors c.completed → c.deviceRisk = true ∨ .joinFailed ∈ c.record
  fault : .joinFailed ∈ c.record → bothDetectors c.completed ∧ c.deviceRisk = false
  risk : .riskPropagationAnalyst ∈ c.completed → c.deviceRisk = true ∧ c.riskRec = true

/-- The invariant of a loop that goes on. -/
structure Going (valid : Prop) (c : Control R) : Prop extends Flagged c where
  safe : Safe c.record
  decided : Decided c.record
  begun : c.completed = [] ∨ valid
  finished : ∀ a, .finished a ∈ c.record ↔ a ∈ c.completed
  executed : ∀ a, .executing a ∈ c.record → a ∈ c.completed
  once : c.completed.Nodup

theorem Going.publishing {valid : Prop} {c : Control R} (h : Going valid c) (windowId : Int) (t : ReplayEventType) :
    Going valid (c.publishing windowId t) :=
  ⟨⟨h.flag, h.join, h.fault, h.risk⟩, h.safe, h.decided, h.begun, h.finished, h.executed, h.once⟩

theorem Flagged.noting {c : Control R} (h : Flagged c) {x : Happening R} (hx : x ≠ .joinFailed) : Flagged (c.noting x) := by
  have hmem : .joinFailed ∈ (c.noting x).record ↔ .joinFailed ∈ c.record := by
    simp [Control.noting, hx.symm]
  refine ⟨h.flag, fun hboth => ?_, fun hfault => h.fault (hmem.mp hfault), h.risk⟩
  exact (h.join hboth).imp_right hmem.mpr

/-- A ready detector joins for the first time, and the others need the join to have succeeded. -/
theorem Flagged.executed {a : AgentId} {c c' : Control R} (h : Flagged c) (hexecuted : Executed a c c')
    (hready : a ∈ c.ready) : Flagged c' := by
  obtain ⟨hmissing, hsupplied⟩ := ready_spec hready
  have hfirst : a = .networkAnomalyDetector ∨ a = .iotBehavioralProfiler → ¬ bothDetectors c.completed := by
    rintro (rfl | rfl) ⟨hnetwork, hbehavior⟩
    · exact hmissing hnetwork
    · exact hmissing hbehavior
  have hrisk : a = .networkAnomalyDetector ∨ a = .iotBehavioralProfiler →
      .riskPropagationAnalyst ∉ c.completed ++ [a] := by
    intro ha hmem
    rcases List.mem_append.mp hmem with hold | hnew
    · exact hfirst ha (h.flag (h.risk hold).1)
    · rw [List.mem_singleton] at hnew
      subst hnew
      simp at ha
  have hunfailed : ¬ bothDetectors c.completed → .joinFailed ∉ c.record := fun hnot hfault => hnot (h.fault hfault).1
  have hsame : a ≠ .networkAnomalyDetector → a ≠ .iotBehavioralProfiler →
      (bothDetectors (c.completed ++ [a]) ↔ bothDetectors c.completed) := by
    intro hn hb
    simp [bothDetectors, hn.symm, hb.symm]
  cases hexecuted with
  | detector ha hnot =>
    have hoff : c.deviceRisk ≠ true := fun hd => hfirst ha (h.flag hd)
    refine ⟨fun hd => absurd hd hoff, fun hboth => absurd hboth hnot, fun hfault => ?_, fun hmem => absurd hmem (hrisk ha)⟩
    have hold : .joinFailed ∈ c.record := by simpa [Control.completing] using hfault
    exact absurd hold (hunfailed (hfirst ha))
  | joined ha hboth =>
    refine ⟨fun _ => hboth, fun _ => .inl rfl, fun hfault => ?_, fun hmem => absurd hmem (hrisk ha)⟩
    have hold : .joinFailed ∈ c.record := by simpa [Control.completing, Control.noting] using hfault
    exact absurd hold (hunfailed (hfirst ha))
  | joinFailed ha hboth =>
    have hoff : c.deviceRisk = false := Bool.eq_false_iff.mpr fun hd => hfirst ha (h.flag hd)
    refine ⟨fun hd => absurd hd (Bool.eq_false_iff.mp hoff), fun _ => .inr ?_, fun _ => ⟨hboth, hoff⟩,
      fun hmem => absurd hmem (hrisk ha)⟩
    simp [Control.completing, Control.noting]
  | threat =>
    have hsame := hsame (by decide) (by decide)
    refine ⟨fun hd => hsame.mpr (h.flag hd), fun hboth => ?_, fun hfault => ?_, fun hmem => ?_⟩
    · exact (h.join (hsame.mp hboth)).imp_right (List.mem_append_left _)
    · have hold : .joinFailed ∈ c.record := by simpa [Control.completing] using hfault
      exact ⟨hsame.mpr (h.fault hold).1, (h.fault hold).2⟩
    · have hold : .riskPropagationAnalyst ∈ c.completed := by simpa [Control.completing] using hmem
      exact h.risk hold
  | risk =>
    have hon : c.deviceRisk = true := ready_flag hready
    have hboth := (hsame (by decide) (by decide)).mpr (h.flag hon)
    refine ⟨fun _ => hboth, fun _ => .inl rfl, fun hfault => ?_, fun _ => ⟨rfl, rfl⟩⟩
    have hold : .joinFailed ∈ c.record := by simpa [Control.completing] using hfault
    exact absurd ((h.fault hold).2.symm.trans hon) (by decide)
  | access =>
    have hon := (h.risk (hsupplied _ (List.mem_singleton.mpr rfl))).1
    have hboth := (hsame (by decide) (by decide)).mpr (h.flag hon)
    refine ⟨fun _ => hboth, fun _ => .inl hon, fun hfault => ?_, fun _ => ⟨hon, rfl⟩⟩
    have hold : .joinFailed ∈ c.record := by simpa [Control.completing] using hfault
    exact absurd ((h.fault hold).2.symm.trans hon) (by decide)

/-- The record of a dispatch of which the agent is executed. -/
theorem justified_of_chosen {valid : Prop} {c : Control R} (hgoing : Going valid c) {request : OrchestrationRequestV1 R.floats}
    {answer : Option Answer} {a : AgentId} (hasked : Asked c.ready request) (hchosen : Chosen c.ready answer a) :
    Justified (c.answering request answer).record a := by
  obtain ⟨ans, rfl, hdecided, hselected, hready⟩ := hchosen
  have hrecord : (c.answering request (some ans)).record =
      c.record ++ [.requested request, .answered c.ready (some ans)] := by
    simp [Control.answering, Control.noting]
  obtain ⟨hmissing, hsupplied⟩ := ready_spec hready
  rw [hrecord]
  refine ⟨⟨c.record, request, c.ready, ans, rfl, hdecided, hselected, ?_⟩, fun b hb => ?_, fun hmem => ?_⟩
  · rw [hasked]
    exact List.mem_map.mpr ⟨a, Sorting.mem_sortBy.mpr hready, rfl⟩
  · exact List.mem_append_left _ ((hgoing.finished b).mpr (hsupplied b hb))
  · have hold : .executing a ∈ c.record := by simpa using hmem
    exact hmissing (hgoing.executed a hold)

/-- The loop goes on only past an executed agent, which was justified. -/
theorem going_step {valid blocked : Prop} {windowId : Int} {c c' : Control R} (h : Round valid blocked windowId c (.ok true) c')
    (hgoing : Going valid c) :
    Going valid c' ∧ c'.completed.length = c.completed.length + 1 ∧ c'.statuses = c.statuses ∧
      c'.windowEvents = c.windowEvents := by
  cases h with
  | refusedUntold _ _ _ _ _ _ _ hr => exact absurd rfl hr
  | executed request answer a _ hvalid hasked hchosen hexecuted =>
    have hready : a ∈ c.ready := by
      obtain ⟨_, _, _, _, ha⟩ := hchosen
      exact ha
    obtain ⟨hcompleted, hstatuses, hevents, joins, hrecord, hjoins⟩ := executed_effect hexecuted
    have hcompleted : c'.completed = c.completed ++ [a] := hcompleted
    have hjustified := justified_of_chosen hgoing hasked hchosen
    have hmem : ∀ x, x ∈ c'.record ↔ x ∈ c.record ∨ x = .requested request ∨ x = .answered c.ready answer ∨
        x = .executing a ∨ x = .finished a ∨ x ∈ joins := by
      intro x
      rw [hrecord]
      simp [Control.answering, Control.noting]
    have hflagged : Flagged c' := by
      have hnoted : Flagged ((c.answering request answer).noting (.executing a)) :=
        ((hgoing.toFlagged.noting (by simp)).noting (by simp)).noting (by simp)
      exact hnoted.executed hexecuted hready
    have hsafe : Safe c'.record := by
      have hanswered : Safe (c.answering request answer).record :=
        (hgoing.safe.snoc (by simp)).snoc (by simp)
      rw [hrecord]
      refine (hanswered.snoc fun b hb => ?_).append fun b hb => ?_
      · cases hb
        exact hjustified
      · rcases List.mem_cons.mp hb with hb | hb
        · cases hb
        · rcases hjoins _ hb with hb | hb <;> cases hb
    have hdecided : Decided c'.record := by
      rw [hrecord]
      refine (hgoing.decided.answered hchosen).append fun ready answer' hin => ?_
      rcases List.mem_cons.mp hin with hin | hin
      · cases hin
      · rcases hjoins _ hin with hin | hin <;> cases hin
    refine ⟨⟨hflagged, hsafe, hdecided, .inr hvalid, fun b => ?_, fun b hb => ?_, ?_⟩, ?_, hstatuses, hevents⟩
    · have hnew : .finished b ∉ joins := fun hin => by rcases hjoins _ hin with hin | hin <;> cases hin
      rw [hmem, hcompleted, List.mem_append, List.mem_singleton]
      simpa [hnew] using or_congr_left (hgoing.finished b)
    · have hnew : .executing b ∉ joins := fun hin => by rcases hjoins _ hin with hin | hin <;> cases hin
      rw [hmem] at hb
      rw [hcompleted, List.mem_append, List.mem_singleton]
      rcases hb with hb | hb | hb | hb | hb | hb
      · exact .inl (hgoing.executed b hb)
      · cases hb
      · cases hb
      · cases hb
        exact .inr rfl
      · cases hb
      · exact absurd hb hnew
    · rw [hcompleted]
      refine List.Nodup.append hgoing.once (List.nodup_singleton a) (List.disjoint_singleton.mpr ?_)
      exact (ready_spec hready).1
    · rw [hcompleted, List.length_append]
      rfl

/-- All that happens in a round is justified. -/
theorem round_safe {valid blocked : Prop} {windowId : Int} {c c' : Control R} {b : Except String Bool}
    (h : Round valid blocked windowId c b c') (hgoing : Going valid c) : Safe c'.record := by
  have hanswered : ∀ request answer, Safe (c.answering request answer).record := fun request answer =>
    (hgoing.safe.snoc (by simp)).snoc (by simp)
  have hexecuting : ∀ {request answer a}, Asked c.ready request → Chosen c.ready answer a →
      Safe ((c.answering request answer).noting (.executing a)).record := by
    intro request answer a hasked hchosen
    refine (hanswered request answer).snoc fun b hb => ?_
    cases hb
    exact justified_of_chosen hgoing hasked hchosen
  cases h with
  | idle hready => exact hgoing.safe
  | requestRaised request e hready hraised => exact hgoing.safe.snoc (by simp)
  | refused request answer hready hvalid hnone => exact hanswered request answer
  | refusedUntold request answer r hready hvalid hnone hblocked hr => exact hanswered request answer
  | dispatchRaised request answer a e hchosen hblocked => exact hanswered request answer
  | executed request answer a c' hvalid hasked hchosen hexecuted =>
    exact (going_step (.executed request answer a c' hvalid hasked hchosen hexecuted : Round valid blocked windowId c _ c')
      hgoing).1.safe
  | failed request answer a d hvalid hasked hchosen => exact hexecuting hasked hchosen
  | failureRaised request answer a d e hasked hchosen hblocked => exact hexecuting hasked hchosen

end Goings

/-! ## The loop -/

section Loops

variable {P : Type} {R : Runtime P}

/-- The rounds of a loop one after the other. -/
inductive Loop (valid blocked : Prop) (windowId : Int) : Nat → Control R → Except String Unit → Control R → Prop where
  | over (c : Control R) : Loop valid blocked windowId 0 c (.ok ()) c
  | goesOn {n : Nat} {c c' c'' : Control R} {r : Except String Unit} : Round valid blocked windowId c (.ok true) c' →
      Loop valid blocked windowId n c' r c'' → Loop valid blocked windowId (n + 1) c r c''
  | stops {n : Nat} {c c' : Control R} : Round valid blocked windowId c (.ok false) c' → Loop valid blocked windowId (n + 1) c (.ok ()) c'
  | raises {n : Nat} {c c' : Control R} {e : String} : Round valid blocked windowId c (.error e) c' →
      Loop valid blocked windowId (n + 1) c (.error e) c'

/-- The round in which a loop ends, with what came before it. -/
structure LastRound (valid blocked : Prop) (windowId : Int) (c : Control R) (r : Except String Unit) (c' : Control R) where
  before : Control R
  ending : Except String Bool
  going : Going valid before
  sameStatuses : before.statuses = c.statuses
  sameEvents : before.windowEvents = c.windowEvents
  round : Round valid blocked windowId before ending c'
  result : ending = .ok false ∧ r = .ok () ∨ ∃ e, ending = .error e ∧ r = .error e

/-- Six rounds are more than the agents: a loop ends in a round. -/
theorem loop_last {valid blocked : Prop} {windowId : Int} {n : Nat} {c c' : Control R} {r : Except String Unit}
    (h : Loop valid blocked windowId n c r c') (hgoing : Going valid c) (hrounds : c.completed.length + n = 6) :
    Nonempty (LastRound valid blocked windowId c r c') := by
  induction h with
  | «over» c =>
    have hle : c.completed.length ≤ agentIds.length :=
      (List.subperm_of_subset hgoing.once fun a _ => mem_agentIds a).length_le
    change _ ≤ 5 at hle
    omega
  | goesOn hround _ ih =>
    obtain ⟨hgoing', hlength, hstatuses, hevents⟩ := going_step hround hgoing
    obtain ⟨last⟩ := ih hgoing' (by omega)
    exact ⟨{ last with
      sameStatuses := last.sameStatuses.trans hstatuses
      sameEvents := last.sameEvents.trans hevents }⟩
  | stops hround => exact ⟨⟨_, _, hgoing, rfl, rfl, hround, .inl ⟨rfl, rfl⟩⟩⟩
  | raises hround => exact ⟨⟨_, _, hgoing, rfl, rfl, hround, .inr ⟨_, rfl, rfl⟩⟩⟩

/-! ## The window -/

/-- The end of a window: it is completed unless it has failed. -/
inductive Finished (blocked : Prop) (windowId : Int) (c : Control R) : Control R → Prop where
  | completed : c.statusOf windowId ≠ some .failed →
      Finished blocked windowId c ((c.setting windowId .completed).publishing windowId .workflowWindowCompleted)
  | completedUntold : c.statusOf windowId ≠ some .failed → blocked →
      Finished blocked windowId c (c.setting windowId .completed)
  | failed : c.statusOf windowId = some .failed →
      Finished blocked windowId c (c.publishing windowId .workflowWindowFailed)
  | failedUntold : c.statusOf windowId = some .failed → blocked → Finished blocked windowId c c

/-- A registered window, from its registration on. -/
inductive Windowed (valid blocked : Prop) (windowId : Int) (c : Control R) : Control R → Prop where
  | startRaised : blocked → Windowed valid blocked windowId c c
  | loopRaised {c₁ c₂ : Control R} {e : String} : c₁ = c.publishing windowId .workflowWindowStarted ∨ blocked ∧ c₁ = c →
      LastRound valid blocked windowId c₁ (.error e) c₂ → Windowed valid blocked windowId c c₂
  | finished {c₁ c₂ c₃ : Control R} : c₁ = c.publishing windowId .workflowWindowStarted ∨ blocked ∧ c₁ = c →
      LastRound valid blocked windowId c₁ (.ok ()) c₂ → Finished blocked windowId c₂ c₃ → Windowed valid blocked windowId c c₃

theorem statusOf_setting (c : Control R) (windowId : Int) (status : WindowStatus) :
    (c.setting windowId status).statusOf windowId = (c.statusOf windowId).map fun _ => status := by
  simp only [Control.statusOf, Control.setting, List.find?_map, Option.map_map]
  have hsame : ((fun e : Int × WindowStatus => decide (e.1 = windowId)) ∘ fun e =>
      if e.1 = windowId then (e.1, status) else e) = fun e => decide (e.1 = windowId) := by
    funext e
    by_cases he : e.1 = windowId <;> simp [he]
  rw [hsame]
  cases hfound : c.statuses.find? fun e => decide (e.1 = windowId) with
  | none => rfl
  | some e =>
    have he := List.find?_some hfound
    simp only [decide_eq_true_eq] at he
    simp [he]

/-- The last round fails the window, or leaves its state. -/
theorem LastRound.statusOf {valid blocked : Prop} {windowId : Int} {c c' : Control R} {r : Except String Unit}
    (last : LastRound valid blocked windowId c r c') :
    c'.statusOf windowId = c.statusOf windowId ∨
      c'.statusOf windowId = (c.statusOf windowId).map fun _ => .failed := by
  obtain ⟨before, ending, hgoing, hstatuses, hevents, hround, hresult⟩ := last
  have hbefore : before.statusOf windowId = c.statusOf windowId := by
    simp only [Control.statusOf, hstatuses]
  rw [← hbefore]
  cases hround with
  | idle hready => exact .inl rfl
  | requestRaised request e hready hraised => exact .inl rfl
  | refused request answer hready hvalid hnone => exact .inr (statusOf_setting (before.answering request answer) _ _)
  | refusedUntold request answer r hready hvalid hnone hblocked hr =>
    exact .inr (statusOf_setting (before.answering request answer) _ _)
  | dispatchRaised request answer a e hchosen hblocked => exact .inl rfl
  | executed request answer a _ hvalid hasked hchosen hexecuted =>
    rcases hresult with ⟨h, -⟩ | ⟨e, h, -⟩ <;> cases h
  | failed request answer a d hvalid hasked hchosen =>
    exact .inr (statusOf_setting
      { (before.answering request answer).noting (.executing a) with deviceRisk := d } _ _)
  | failureRaised request answer a d e hasked hchosen hblocked => exact .inl rfl

end Loops

section Windows

variable {P : Type} {R : Runtime P} {F σ δ π ρ : Type}

theorem statusOf_control (s : World R F σ δ π) (windowId : Int) :
    (control s).statusOf windowId = (findWindow windowId s.windows).map WorkflowWindowState.status := by
  simp only [Control.statusOf, WorkflowDispatch.control, statuses, findWindow, List.find?_map, Option.map_map]
  rfl

variable (E : Environment R F σ δ π ρ) (call : Call ρ)

theorem finishWindow_spec (w : WorkflowWindowState) (s : World R F σ δ π)
    (hw : findWindow call.windowId s.windows = some w) :
    Ends (finishWindow E call w) s fun _ s' => Finished (Blocked E) call.windowId (control s) (control s') := by
  have hstatus : (control s).statusOf call.windowId = some w.status := by
    rw [statusOf_control, hw]
    rfl
  unfold finishWindow
  by_cases hfailed : w.status = .failed
  · rw [hfailed] at hstatus
    rw [if_neg (not_not_intro hfailed)]
    refine (publishWindow_ends E call rfl none s).mono fun r s₁ h₁ => ?_
    rcases h₁.2 with ⟨-, htold⟩ | ⟨hblocked, hsame⟩
    · rw [htold]
      exact .failed hstatus
    · rw [hsame]
      exact .failedUntold hstatus hblocked
  · have hne : (control s).statusOf call.windowId ≠ some .failed := by
      rw [hstatus]
      exact fun h => hfailed (Option.some.inj h)
    rw [if_pos hfailed]
    refine ends_bind (setStatus_ends call.windowId .completed s) (fun _ s₁ h₁ => ?_) fun e s₁ h₁ => nomatch h₁.1
    refine (publishWindow_ends E call rfl none s₁).mono fun r s₂ h₂ => ?_
    rcases h₂.2 with ⟨-, htold⟩ | ⟨hblocked, hsame⟩
    · rw [htold, h₁.2.1]
      exact .completed hne
    · rw [hsame, h₁.2.1]
      exact .completedUntold hne hblocked

theorem closeWindow_spec (w : WorkflowWindowState) (s : World R F σ δ π)
    (hw : findWindow call.windowId s.windows = some w) :
    Ends (closeWindow E call) s fun _ s' => Finished (Blocked E) call.windowId (control s) (control s') := by
  refine ends_bind (M := fun r s' => r = .ok (some w) ∧ s' = s) ⟨by rw [← hw]; rfl, rfl⟩ ?_ (by simp)
  rintro found s' ⟨hfound, rfl⟩
  cases hfound
  have hfinish : Ends (each (finishWindow E call) (some w).toList) s'
      fun _ s'' => Finished (Blocked E) call.windowId (control s') (control s'') := by
    change Ends (finishWindow E call w >>= fun _ => pure ()) s' _
    exact ends_bind (finishWindow_spec E call w s' hw) (fun _ s'' h => h) fun _ s'' h => h
  exact ends_bind hfinish (fun _ s'' h => h) fun _ s'' h => h

variable [RiskNumber F]

theorem dispatchLoop_spec (ts : String) (n : Nat) (s : World R F σ δ π) :
    Ends (dispatchLoop E call ts n) s fun r s' => Loop (Addressable call ts) (Blocked E) call.windowId n (control s) r (control s') := by
  induction n generalizing s with
  | zero => exact .over _
  | succ n ih =>
    refine ends_bind (dispatchRound_spec E call ts s) (fun goesOn s₁ h₁ => ?_) fun e s₁ h₁ => .raises h₁
    cases goesOn with
    | true => exact (ih s₁).mono fun r s₂ h₂ => .goesOn h₁ h₂
    | false => exact .stops h₁

theorem runWindow_spec (ts : String) (s : World R F σ δ π) (hin : ((control s).statusOf call.windowId).isSome = true)
    (hgoing : Going (Addressable call ts) (control s)) (hnone : s.frame.completed = []) :
    Ends (runWindow E call ts) s fun _ s' => Windowed (Addressable call ts) (Blocked E) call.windowId (control s) (control s') := by
  have hstart : Ends (publishWindow E call (.workflowWindowStarted call.workflowId) (some ts)) s fun r s₁ =>
      (control s₁ = (control s).publishing call.windowId .workflowWindowStarted ∨ Blocked E ∧ control s₁ = control s) ∧
      ∀ e, r = .error e → Blocked E ∧ control s₁ = control s := by
    refine (publishWindow_ends E call rfl (some ts) s).mono fun r s₁ h₁ => ?_
    rcases h₁.2 with ⟨rfl, htold⟩ | hblocked
    · exact ⟨.inl htold, nofun⟩
    · exact ⟨.inr hblocked, fun _ _ => hblocked⟩
  refine ends_bind hstart (fun _ s₁ h₁ => ?_) fun e s₁ h₁ => ?_
  · have hin₁ : ((control s₁).statusOf call.windowId).isSome = true := by
      rcases h₁.1 with h | ⟨-, h⟩ <;> rw [h] <;> exact hin
    have hgoing₁ : Going (Addressable call ts) (control s₁) := by
      rcases h₁.1 with h | ⟨-, h⟩ <;> rw [h]
      · exact hgoing.publishing call.windowId .workflowWindowStarted
      · exact hgoing
    have hlength₁ : (control s₁).completed.length + maxIterations = 6 := by
      rcases h₁.1 with h | ⟨-, h⟩ <;> rw [h]
      all_goals
        change s.frame.completed.length + 6 = 6
        rw [hnone]
        rfl
    refine ends_bind (dispatchLoop_spec E call ts _ s₁) (fun _ s₂ h₂ => ?_) fun e s₂ h₂ => ?_
    · obtain ⟨last⟩ := loop_last h₂ hgoing₁ hlength₁
      have hin₂ : ((control s₂).statusOf call.windowId).isSome = true := by
        rcases last.statusOf with h | h <;> rw [h] <;> simpa using hin₁
      rw [statusOf_control, Option.isSome_map, Option.isSome_iff_exists] at hin₂
      obtain ⟨w, hw⟩ := hin₂
      exact (closeWindow_spec E call w s₂ hw).mono fun r s₃ h₃ => .finished h₁.1 last h₃
    · obtain ⟨last⟩ := loop_last h₂ hgoing₁ hlength₁
      exact .loopRaised h₁.1 last
  · obtain ⟨hblocked, hsame⟩ := h₁.2 e rfl
    rw [hsame]
    exact .startRaised hblocked

end Windows

/-! ## The call -/

section Calls

variable {P : Type} {R : Runtime P} {F σ δ π ρ : Type}

/-- The window is new, and there is room for it. -/
def Registers (limit : Nat) (windows : List WorkflowWindowState) (windowId : Int) : Prop :=
  (∀ w ∈ windows, w.windowId ≠ windowId) ∧ ∃ room, makeRoom limit windows.length windows = .ok room

/-- The control of a window that has just been registered. -/
def registered (room : List WorkflowWindowState) (windowId : Int) (published : List (WorkflowEvent R)) : Control R :=
  ⟨[], false, false, [], statuses room ++ [(windowId, .started)], windowEvents published⟩

theorem going_registered (valid : Prop) (room : List WorkflowWindowState) (windowId : Int) (published : List (WorkflowEvent R)) :
    Going valid (registered room windowId published) := by
  refine ⟨⟨nofun, fun h => ?_, nofun, nofun⟩, safe_nil, decided_nil, .inl rfl, fun a => ?_, nofun, List.nodup_nil⟩
  · cases h.1
  · exact ⟨nofun, nofun⟩

theorem evictTerminal_sublist {windows kept : List WorkflowWindowState} (h : evictTerminal windows = some kept) :
    kept.Sublist windows := by
  induction windows generalizing kept with
  | nil => cases h
  | cons w windows ih =>
    rw [evictTerminal] at h
    split at h
    · obtain ⟨rest, hrest, rfl⟩ := Option.map_eq_some_iff.mp h
      exact (ih hrest).cons_cons w
    · cases h
      exact List.sublist_cons_self w windows

theorem makeRoom_sublist {limit n : Nat} {windows room : List WorkflowWindowState}
    (h : makeRoom limit n windows = .ok room) : room.Sublist windows := by
  induction n generalizing windows with
  | zero =>
    cases h
    exact List.Sublist.refl _
  | succ n ih =>
    rw [makeRoom] at h
    split at h
    · cases h
      exact List.Sublist.refl _
    · split at h
      · cases h
      · rename_i kept hkept
        exact (ih h).trans (evictTerminal_sublist hkept)

theorem statusOf_registered {room : List WorkflowWindowState} {windowId : Int} (published : List (WorkflowEvent R))
    (h : ∀ w ∈ room, w.windowId ≠ windowId) : (registered room windowId published).statusOf windowId = some .started := by
  have hnone : (statuses room).find? (fun e => decide (e.1 = windowId)) = none := by
    rw [List.find?_eq_none]
    intro e he
    obtain ⟨w, hw, rfl⟩ := List.mem_map.mp he
    simpa using h w hw
  simp [Control.statusOf, registered, List.find?_append, hnone]

theorem remember_ok {limit : Nat} {windows after : List WorkflowWindowState} {w : WorkflowWindowState} :
    rememberWindowState limit windows w = .ok after ↔
      (∀ w' ∈ windows, w'.windowId ≠ w.windowId) ∧
        ∃ room, makeRoom limit windows.length windows = .ok room ∧ after = room ++ [w] := by
  unfold rememberWindowState
  by_cases hduplicate : windows.any fun w' => w'.windowId = w.windowId
  · rw [if_pos hduplicate]
    obtain ⟨w', hw', hid⟩ := List.any_eq_true.mp hduplicate
    exact ⟨nofun, fun h => absurd (of_decide_eq_true hid) (h.1 w' hw')⟩
  · rw [if_neg hduplicate]
    have hnew : ∀ w' ∈ windows, w'.windowId ≠ w.windowId := by
      intro w' hw' hid
      exact hduplicate (List.any_eq_true.mpr ⟨w', hw', decide_eq_true hid⟩)
    cases makeRoom limit windows.length windows with
    | error message => exact ⟨nofun, fun ⟨_, _, h, _⟩ => nomatch h⟩
    | ok room =>
      refine ⟨fun h => ⟨hnew, room, rfl, ?_⟩, fun ⟨_, room', hroom, hafter⟩ => ?_⟩
      · cases h
        rfl
      · cases hroom
        rw [hafter]
        rfl

variable (E : Environment R F σ δ π ρ) (call : Call ρ)

theorem registerWindow_spec (limit : Nat) (ts : String) (s : World R F σ δ π) :
    Ends (registerWindow call limit ts) s fun r s' =>
      (∃ e, rememberWindowState limit s.windows (newWindow call ts) = .error e ∧ r = .error e ∧ s' = s) ∨
      ∃ windows, rememberWindowState limit s.windows (newWindow call ts) = .ok windows ∧ r = .ok () ∧
        s' = { s with windows := windows } := by
  refine ends_bind (M := fun r s' => r = .ok s.windows ∧ s' = s) ⟨rfl, rfl⟩ ?_ (by simp)
  rintro windows s' ⟨hwindows, rfl⟩
  cases hwindows
  cases rememberWindowState limit s'.windows (newWindow call ts) with
  | error e => exact .inl ⟨e, rfl, rfl, rfl⟩
  | ok windows => exact .inr ⟨windows, rfl, rfl, rfl⟩

variable [RiskNumber F]

/-- What a call ends in: it registers its window and runs it, or it only raises. -/
def CallEnds (limit : Nat) (ts : String) (s s' : World R F σ δ π) : Prop :=
  ¬ Registers limit s.windows call.windowId ∧ s'.frame.record = [] ∧ s'.windows = s.windows ∨
  ∃ room, (∀ w ∈ s.windows, w.windowId ≠ call.windowId) ∧ makeRoom limit s.windows.length s.windows = .ok room ∧
    Windowed (Addressable call ts) (Blocked E) call.windowId (registered room call.windowId s.published) (control s')

theorem timedWindow_spec (limit : Nat) (ts : String) (s : World R F σ δ π) (hframe : s.frame = .start R F) :
    Ends (registerWindow call limit ts >>= fun _ => runWindow E call ts) s fun _ s' => CallEnds E call limit ts s s' := by
  refine ends_bind (registerWindow_spec call limit ts s) (fun _ s₁ h₁ => ?_) fun e s₁ h₁ => ?_
  · rcases h₁ with ⟨e, -, hr, -⟩ | ⟨windows, hremember, -, rfl⟩
    · cases hr
    obtain ⟨hnew, room, hroom, rfl⟩ := (remember_ok).mp hremember
    have hcontrol : control { s with windows := room ++ [newWindow call ts] } =
        registered room call.windowId s.published := by
      rw [WorkflowDispatch.control, hframe, statuses, List.map_append]
      rfl
    have hroomNew : ∀ w ∈ room, w.windowId ≠ call.windowId := fun w hw =>
      hnew w ((makeRoom_sublist hroom).subset hw)
    have hrun := runWindow_spec E call ts { s with windows := room ++ [newWindow call ts] }
      (by rw [hcontrol, statusOf_registered s.published hroomNew]; rfl)
      (by rw [hcontrol]; exact going_registered _ room _ _) (congrArg Frame.completed hframe)
    refine hrun.mono fun r s' h' => .inr ⟨room, hnew, hroom, ?_⟩
    rw [hcontrol] at h'
    exact h'
  · rcases h₁ with ⟨e, hremember, -, rfl⟩ | ⟨windows, -, hr, -⟩
    · refine .inl ⟨fun hregisters => ?_, ?_, rfl⟩
      · obtain ⟨hnew, room, hroom⟩ := hregisters
        rw [(remember_ok).mpr ⟨hnew, room, hroom, rfl⟩] at hremember
        cases hremember
      · rw [hframe]
        rfl
    · cases hr

/-- A window with a time of its own does not ask for one. -/
theorem executeWindow_timed (limit : Nat) {ts : String} (h : call.logicalTimestamp.filter (· ≠ "") = some ts) :
    executeWindow E call limit = (do
      onFrame fun _ => .start R F
      setCurrentWindow call.windowId
      registerWindow call limit ts
      runWindow E call ts) := by
  unfold executeWindow
  simp only [h]
  rfl

/-- The course of a window whose loop returns. -/
theorem executeWindow_run {limit : Nat} {ts : String} (h : call.logicalTimestamp.filter (· ≠ "") = some ts)
    {s s₁ s₂ s₃ : World R F σ δ π}
    (hregister : registerWindow call limit ts { s with
      frame := .start R F
      gateway := { s.gateway with abm := { s.gateway.abm with currentWindowId := some call.windowId } } } = (.ok (), s₁))
    (hstart : publishWindow E call (.workflowWindowStarted call.workflowId) (some ts) s₁ = (.ok (), s₂))
    (hloop : dispatchLoop E call ts maxIterations s₂ = (.ok (), s₃)) :
    executeWindow E call limit s = closeWindow E call s₃ := by
  rw [executeWindow_timed E call limit h]
  have hrun : (registerWindow call limit ts >>= fun _ => runWindow E call ts) { s with
      frame := .start R F
      gateway := { s.gateway with abm := { s.gateway.abm with currentWindowId := some call.windowId } } } =
      closeWindow E call s₃ :=
    (run_bind hregister).trans ((run_bind hstart).trans (run_bind hloop))
  exact hrun

/-- The time that a window is given: its own, or else that of the clock. -/
def windowTime (s : World R F σ δ π) : String := (call.logicalTimestamp.filter (· ≠ "")).getD (E.utcNow s.env).1

theorem executeWindow_spec (limit : Nat) (s : World R F σ δ π) :
    Ends (executeWindow E call limit) s fun _ s' => CallEnds E call limit (windowTime E call s) s s' := by
  unfold executeWindow windowTime
  refine ends_bind (M := fun r s' => r = .ok () ∧ s'.frame = .start R F ∧ s'.windows = s.windows ∧
    s'.published = s.published ∧ s'.env = s.env) ⟨rfl, rfl, rfl, rfl, rfl⟩ (fun _ s₁ h₁ => ?_) (by simp)
  refine ends_bind (M := fun r s' => r = .ok () ∧ s'.frame = .start R F ∧ s'.windows = s.windows ∧
    s'.published = s.published ∧ s'.env = s.env) ⟨rfl, h₁.2⟩ (fun _ s₂ h₂ => ?_) (by simp)
  have htimed : ∀ (ts : String) {s₃ : World R F σ δ π}, s₃.frame = s₂.frame → s₃.windows = s₂.windows →
      s₃.published = s₂.published → Ends (registerWindow call limit ts >>= fun _ => runWindow E call ts) s₃
        fun _ s' => CallEnds E call limit ts s s' := by
    intro ts s₃ hframe hwindows hpublished
    refine (timedWindow_spec E call limit ts s₃ (hframe.trans h₂.2.1)).mono fun r s' h' => ?_
    rw [CallEnds, hwindows, hpublished, h₂.2.2.1, h₂.2.2.2.1] at h'
    exact h'
  cases call.logicalTimestamp.filter (· ≠ "") with
  | some text => exact htimed text rfl rfl rfl
  | none =>
    refine ends_bind (M := fun r s' => r = .ok (E.utcNow s.env).1 ∧ s'.frame = s₂.frame ∧ s'.windows = s₂.windows ∧
      s'.published = s₂.published) ⟨by rw [← h₂.2.2.2.2]; rfl, rfl, rfl, rfl⟩ (fun now s₃ h₃ => ?_) (by simp)
    obtain ⟨hnow, hframe, hwindows, hpublished⟩ := h₃
    cases hnow
    exact htimed _ hframe hwindows hpublished

end Calls

end WorkflowWindows
