import AgenticSoc.FindingGateway

/-!
# The order of evidence

What the gateway says of a finding depends on the devices that there are, and no evidence
changes these. So findings of the two kinds may be submitted in either order: up to the
current window, the gateway comes out the same.
-/
namespace GatewayOrder

open DeviceAbm FindingGateway

section Folds

variable {α β : Type}

/-- Two lists of updates that commute pairwise may be applied in either order. -/
theorem foldl_swap {f : β → α → β} {l m : List α} (h : ∀ x ∈ l, ∀ y ∈ m, ∀ b, f (f b x) y = f (f b y) x) (b : β) :
    (l ++ m).foldl f b = (m ++ l).foldl f b := by
  have hone : ∀ x ∈ l, ∀ b, m.foldl f (f b x) = f (m.foldl f b) x := by
    intro x hx
    have hsub : ∀ y ∈ m, ∀ b, f (f b x) y = f (f b y) x := h x hx
    clear h
    induction m with
    | nil => exact fun b => rfl
    | cons y m ih =>
      intro b
      rw [List.foldl_cons, hsub y List.mem_cons_self, ih (fun z hz => hsub z (List.mem_cons_of_mem y hz))]
      rfl
  induction l generalizing b with
  | nil => rw [List.append_nil, List.nil_append]
  | cons x l ih =>
    rw [List.cons_append, List.foldl_cons, ih (fun z hz => h z (List.mem_cons_of_mem x hz)) _
      (fun z hz => hone z (List.mem_cons_of_mem x hz)), List.foldl_append, hone x List.mem_cons_self, List.foldl_append,
      List.foldl_cons]

end Folds

/-- What the gateway says of a finding. -/
inductive Verdict where
  | accepted | unknownEntity | badTimestamp | unsupported
  deriving DecidableEq

section Verdicts

variable {F : Type}

/-- The devices, with whether behaviour evidence is supported for them. -/
def roster (abm : Abm F) : List (String × Bool) := abm.states.map fun st => (st.nodeId, st.behaviorSupported)

def verdict (validTimestamp : String → Bool) (devices : List (String × Bool)) (f : Finding F) : Verdict :=
  if !validTimestamp f.timestampUtc then .badTimestamp
  else
    match devices.find? fun e => e.1 = f.entityId with
    | none => .unknownEntity
    | some e =>
      match f with
      | .network _ => .accepted
      | .behavior _ => if e.2 then .accepted else .unsupported

/-- The answer to the submitter. -/
def Verdict.answer (entityId : String) : Verdict → Except String Bool
  | .accepted => .ok true
  | .unknownEntity => .ok false
  | .badTimestamp => .ok false
  | .unsupported => .error ("behavior evidence for unsupported device " ++ entityId)

variable [RiskNumber F]

def note : Finding F → List (DeviceState F) → List (DeviceState F)
  | .network f => withState f.entityId (DeviceState.noteNetwork f)
  | .behavior f => withState f.entityId (DeviceState.noteBehavior f)

def enterStats (f : Finding F) (v : Verdict) (stats : GatewayStats) : GatewayStats :=
  let stats := { stats with submitted := stats.submitted + 1 }
  match v with
  | .accepted => stats.accept f
  | .unknownEntity => { stats with rejectedUnknownEntity := stats.rejectedUnknownEntity + 1 }
  | .badTimestamp => { stats with rejectedTimestamp := stats.rejectedTimestamp + 1 }
  | .unsupported => stats

def enact (f : Finding F) (v : Verdict) (g : Gateway F) : Gateway F where
  abm := if v = .accepted then { g.abm with
      states := note f g.abm.states
      currentWindowId := some (laterWindow g.abm.currentWindowId f.windowId) } else g.abm
  stats := enterStats f v g.stats

omit [RiskNumber F] in
theorem resolve_roster (abm : Abm F) (entityId : String) :
    (roster abm).find? (fun e => e.1 = entityId) = (abm.resolve entityId).map fun st => (st.nodeId, st.behaviorSupported) := by
  rw [roster, List.find?_map]
  rfl

/-- A submission gives its verdict and enacts it. -/
theorem submit_verdict (validTimestamp : String → Bool) (g : Gateway F) (f : Finding F) :
    FindingGateway.submit validTimestamp g (.finding f) =
      (enact f (verdict validTimestamp (roster g.abm) f) g,
        (verdict validTimestamp (roster g.abm) f).answer f.entityId) := by
  unfold FindingGateway.submit verdict
  rw [resolve_roster]
  cases f with
  | network f =>
    by_cases hvalid : validTimestamp f.timestampUtc = true
    · cases hfound : g.abm.resolve f.entityId <;>
        simp [Submission.findingType, Submission.timestampUtc, Finding.timestampUtc, Finding.entityId, hvalid, hfound,
          applyEvidence, applyNetworkEvidence, enact, Verdict.answer, enterStats, note, Finding.windowId]
    · simp [Submission.findingType, Submission.timestampUtc, Finding.timestampUtc, hvalid, enact, Verdict.answer,
        enterStats]
  | behavior f =>
    by_cases hvalid : validTimestamp f.timestampUtc = true
    · cases hfound : g.abm.resolve f.entityId with
      | none =>
        simp [Submission.findingType, Submission.timestampUtc, Finding.timestampUtc, Finding.entityId, hvalid, hfound,
          enact, Verdict.answer, enterStats]
      | some st =>
        cases hsupported : st.behaviorSupported <;>
          simp [Submission.findingType, Submission.timestampUtc, Finding.timestampUtc, Finding.entityId, hvalid, hfound,
            hsupported, applyEvidence, applyBehaviorEvidence, enact, Verdict.answer, enterStats, note,
            Finding.windowId]
    · simp [Submission.findingType, Submission.timestampUtc, Finding.timestampUtc, hvalid, enact, Verdict.answer,
        enterStats]

theorem roster_note (f : Finding F) (states : List (DeviceState F)) :
    (note f states).map (fun st => (st.nodeId, st.behaviorSupported)) =
      states.map fun st => (st.nodeId, st.behaviorSupported) := by
  cases f <;>
  · simp only [note, withState, List.map_map]
    refine List.map_congr_left fun st _ => ?_
    simp only [Function.comp]
    split <;> rfl

/-- Evidence changes no device's identity nor its support. -/
theorem roster_enact (f : Finding F) (v : Verdict) (g : Gateway F) : roster (enact f v g).abm = roster g.abm := by
  unfold enact
  split
  · exact roster_note f g.abm.states
  · rfl

/-- The gateway with this window as the current one. -/
def current (windowId : Option Int) (g : Gateway F) : Gateway F := { g with abm := { g.abm with currentWindowId := windowId } }

omit [RiskNumber F] in
@[simp] theorem current_current (w w' : Option Int) (g : Gateway F) : current w (current w' g) = current w g := rfl

omit [RiskNumber F] in
@[simp] theorem roster_current (w : Option Int) (g : Gateway F) : roster (current w g).abm = roster g.abm := rfl

omit [RiskNumber F] in
/-- What agrees without a current window agrees with any. -/
theorem current_congr {g g' : Gateway F} (h : current none g = current none g') (w : Option Int) :
    current w g = current w g' := by
  rw [← current_current w none g, h, current_current]

theorem current_enact (f : Finding F) (v : Verdict) (g : Gateway F) :
    current none (enact f v (current none g)) = current none (enact f v g) := by
  unfold enact current
  split <;> rfl

/-- Evidence of the two kinds commutes, up to the current window. -/
theorem enact_comm (f : NetworkFinding F) (h : BehaviorFinding F) (v v' : Verdict) (g : Gateway F) :
    current none (enact (.network f) v (enact (.behavior h) v' g)) =
      current none (enact (.behavior h) v' (enact (.network f) v g)) := by
  have hstates := note_comm f.entityId h.entityId f h g.abm.states
  cases v <;> cases v' <;> simp [enact, current, enterStats, GatewayStats.accept, note, hstates]

/-! ## Many findings -/

variable (validTimestamp : String → Bool)

/-- One finding after the other. -/
def absorb (g : Gateway F) (fs : List (Finding F)) : Gateway F :=
  fs.foldl (fun g f => (FindingGateway.submit validTimestamp g (.finding f)).1) g

theorem roster_absorb (g : Gateway F) (fs : List (Finding F)) : roster (absorb validTimestamp g fs).abm = roster g.abm := by
  induction fs generalizing g with
  | nil => rfl
  | cons f fs ih =>
    have hstep := ih (FindingGateway.submit validTimestamp g (.finding f)).1
    rw [submit_verdict] at hstep
    rw [absorb, List.foldl_cons, submit_verdict]
    exact hstep.trans (roster_enact f _ g)

/-- The same without a current window. -/
def absorbBare (devices : List (String × Bool)) (g : Gateway F) (f : Finding F) : Gateway F :=
  current none (enact f (verdict validTimestamp devices f) g)

theorem current_absorb (g : Gateway F) (fs : List (Finding F)) :
    current none (absorb validTimestamp g fs) = fs.foldl (absorbBare validTimestamp (roster g.abm)) (current none g) := by
  induction fs generalizing g with
  | nil => rfl
  | cons f fs ih =>
    have hstep := ih (enact f (verdict validTimestamp (roster g.abm) f) g)
    rw [roster_enact] at hstep
    rw [absorb, List.foldl_cons, submit_verdict, List.foldl_cons, absorbBare, current_enact]
    exact hstep

/-- Findings of the two kinds may be absorbed in either order, up to the current window. -/
theorem absorb_swap (g : Gateway F) (ns : List (NetworkFinding F)) (bs : List (BehaviorFinding F)) :
    current none (absorb validTimestamp g (ns.map .network ++ bs.map .behavior)) =
      current none (absorb validTimestamp g (bs.map .behavior ++ ns.map .network)) := by
  rw [current_absorb, current_absorb]
  refine foldl_swap (fun x hx y hy g => ?_) _
  obtain ⟨f, -, rfl⟩ := List.mem_map.mp hx
  obtain ⟨h, -, rfl⟩ := List.mem_map.mp hy
  unfold absorbBare
  rw [current_enact, current_enact, enact_comm]

/-! ## The step -/

/-- The step of a window on what the gateway holds, if the propagation returns. -/
def stepped (windowId : Int) (g : Gateway F) : Option (Gateway F) :=
  match (current (some windowId) g).abm.propagate with
  | .ok abm => some { g with abm := abm.recordStep }
  | .error _ => none

theorem stepped_congr {g g' : Gateway F} (h : current none g = current none g') (windowId : Int) :
    stepped windowId g = stepped windowId g' := by
  have hstats : (current none g).stats = (current none g').stats := congrArg Gateway.stats h
  change g.stats = g'.stats at hstats
  unfold stepped
  rw [current_congr h, hstats]

theorem propagate_parts {abm abm' : Abm F} (h : abm.propagate = .ok abm') : ∃ propagated,
    abm.newPropagated = .ok propagated ∧ abm' = { abm with states := abm.states.map (DeviceState.refresh propagated) } := by
  unfold Abm.propagate at h
  cases hnew : abm.newPropagated with
  | error e =>
    rw [hnew] at h
    cases h
  | ok propagated =>
    rw [hnew] at h
    cases h
    exact ⟨propagated, rfl, rfl⟩

/-- A recorded step leaves nothing for another propagation to change. -/
theorem propagate_stepped {windowId : Int} {g g' : Gateway F} (h : stepped windowId g = some g') :
    g'.abm.propagate = .ok g'.abm := by
  unfold stepped at h
  cases hpropagate : (current (some windowId) g).abm.propagate with
  | error e =>
    rw [hpropagate] at h
    cases h
  | ok abm =>
    rw [hpropagate] at h
    cases h
    obtain ⟨propagated, hnew, habm⟩ := propagate_parts (propagate_again hpropagate)
    have hrecorded : abm.recordStep.newPropagated = .ok propagated := hnew
    have hstates : abm.states = abm.states.map (DeviceState.refresh propagated) := congrArg Abm.states habm
    unfold Abm.propagate
    simp only [hrecorded]
    change Except.ok ({ abm.recordStep with states := abm.states.map (DeviceState.refresh propagated) } : Abm F) = _
    rw [← hstates]
    rfl

theorem current_stepped {windowId : Int} {g g' : Gateway F} (h : stepped windowId g = some g') :
    g'.abm.currentWindowId = some windowId := by
  unfold stepped at h
  cases hpropagate : (current (some windowId) g).abm.propagate with
  | error e =>
    rw [hpropagate] at h
    cases h
  | ok abm =>
    rw [hpropagate] at h
    cases h
    obtain ⟨propagated, -, rfl⟩ := propagate_parts hpropagate
    rfl

theorem roster_stepped {windowId : Int} {g g' : Gateway F} (h : stepped windowId g = some g') :
    roster g'.abm = roster g.abm := by
  unfold stepped at h
  cases hpropagate : (current (some windowId) g).abm.propagate with
  | error e =>
    rw [hpropagate] at h
    cases h
  | ok abm =>
    rw [hpropagate] at h
    cases h
    obtain ⟨propagated, -, rfl⟩ := propagate_parts hpropagate
    change (g.abm.states.map (DeviceState.refresh propagated)).map _ = _
    rw [List.map_map]
    rfl

end Verdicts

end GatewayOrder
