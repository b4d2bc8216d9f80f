import AgenticSoc.Sorting
import Mathlib.Data.String.Basic
import Mathlib.Tactic.Common

/-!
# The device model

One state for each device. Evidence sets the risks of its own kind, and propagation sets
the propagated and the systemic risks of all devices from the evidence alone. So it may be
repeated, and evidence of the two kinds may come in either order.
-/
namespace DeviceAbm

/-- The numbers of risks, with a half and the least risk that is pushed on. -/
class RiskNumber (F : Type) extends LinearOrder F where
  zero : F
  half : F
  least : F
  plus : F → F → F
  times : F → F → F
  power : F → Nat → F
  round6 : F → F

structure SrepParams (F : Type) where
  propagationWeight : F
  hopDecay : F
  maxHops : Int
  criticality : String → F

structure NetworkFinding (F : Type) where
  entityId : String
  windowId : Int
  timestampUtc : String
  attackProbability : F
  predictedClass : String
  confidence : F

structure BehaviorFinding (F : Type) where
  entityId : String
  windowId : Int
  timestampUtc : String
  deviationScore : F
  profileType : String
  confidence : F
  explanation : String

structure DeviceState (F : Type) where
  nodeId : String
  role : String
  isProtectedAsset : Bool
  isAttacker : Bool
  behaviorSupported : Bool
  networkRisk : Option F
  behaviorRisk : Option F
  networkObserved : Bool
  behaviorObserved : Bool
  propagatedRisk : F
  systemicRisk : F
  compromised : Bool
  lastNetworkUpdate : Option String
  lastBehaviorUpdate : Option String
  lastNetworkWindow : Option Int
  lastBehaviorWindow : Option Int

/-- A device in the history: its risks, the last two rounded. -/
structure CompactState (F : Type) where
  nodeId : String
  nr : Option F
  br : Option F
  pr : F
  sr : F
  comp : Bool

structure Snapshot (F : Type) where
  step : Nat
  windowId : Option Int
  states : List (CompactState F)
  defendedBlastRadius : F

/-- The neighbours of a node on either side of an edge; a node outside the topology has none
to ask for. -/
abbrev Topology := String → Option (List String)

structure Abm (F : Type) where
  params : SrepParams F
  topology : Topology
  historyLimit : Nat
  states : List (DeviceState F)
  history : List (Snapshot F)
  currentWindowId : Option Int
  steps : Nat

section Model

variable {F : Type}

def Abm.resolve (abm : Abm F) (entityId : String) : Option (DeviceState F) :=
  abm.states.find? fun st => st.nodeId = entityId

def withState (entityId : String) (f : DeviceState F → DeviceState F) (states : List (DeviceState F)) :
    List (DeviceState F) := states.map fun st => if st.nodeId = entityId then f st else st

theorem resolve_withState (states : List (DeviceState F)) (entityId id : String) (f : DeviceState F → DeviceState F)
    (hf : ∀ st, (f st).nodeId = st.nodeId) :
    (withState entityId f states).find? (fun st => st.nodeId = id) =
      (states.find? fun st => st.nodeId = id).map fun st => if st.nodeId = entityId then f st else st := by
  induction states with
  | nil => rfl
  | cons st states ih =>
    have hsame : (if st.nodeId = entityId then f st else st).nodeId = st.nodeId := by
      split
      · exact hf st
      · rfl
    simp only [withState, List.map_cons, List.find?_cons, hsame] at ih ⊢
    cases decide (st.nodeId = id) with
    | true => rfl
    | false => exact ih

/-- The later of the window and the current one; window zero counts as none. -/
def laterWindow (current : Option Int) (windowId : Int) : Int :=
  max (match current with | none => windowId | some c => if c = 0 then windowId else c) windowId

variable [RiskNumber F]

def DeviceState.noteNetwork (f : NetworkFinding F) (st : DeviceState F) : DeviceState F :=
  { st with
    networkRisk := some f.attackProbability
    networkObserved := true
    lastNetworkUpdate := some f.timestampUtc
    lastNetworkWindow := some f.windowId
    compromised := st.compromised || (st.isProtectedAsset && RiskNumber.half ≤ f.attackProbability) }

def DeviceState.noteBehavior (f : BehaviorFinding F) (st : DeviceState F) : DeviceState F :=
  { st with
    behaviorRisk := some f.deviationScore
    behaviorObserved := true
    lastBehaviorUpdate := some f.timestampUtc
    lastBehaviorWindow := some f.windowId }

def applyNetworkEvidence (abm : Abm F) (f : NetworkFinding F) : Except String (Abm F) :=
  match abm.resolve f.entityId with
  | none => .error "KeyError"
  | some _ => .ok { abm with
      states := withState f.entityId (DeviceState.noteNetwork f) abm.states
      currentWindowId := some (laterWindow abm.currentWindowId f.windowId) }

def applyBehaviorEvidence (abm : Abm F) (f : BehaviorFinding F) : Except String (Abm F) :=
  match abm.resolve f.entityId with
  | none => .error "KeyError"
  | some st =>
    if !st.behaviorSupported then .error ("behavior evidence for unsupported device " ++ f.entityId)
    else .ok { abm with
      states := withState f.entityId (DeviceState.noteBehavior f) abm.states
      currentWindowId := some (laterWindow abm.currentWindowId f.windowId) }

/-! ## Propagation -/

/-- The greater of the direct risks, where what is missing counts as zero. -/
def DeviceState.source (st : DeviceState F) : F :=
  max (st.networkRisk.getD RiskNumber.zero) (st.behaviorRisk.getD RiskNumber.zero)

def Abm.sources (abm : Abm F) : List (String × F) :=
  abm.states.filterMap fun st =>
    if st.isProtectedAsset && RiskNumber.zero < st.source then some (st.nodeId, st.source) else none

def Abm.isProtected (abm : Abm F) (node : String) : Bool :=
  (abm.resolve node).any DeviceState.isProtectedAsset

/-- A search from one source: what it has reached, whom it still asks, and the greatest risk
pushed to each node so far. -/
structure Search (F : Type) where
  visited : List String
  frontier : List (String × F × Nat)
  propagated : String → F

section Searching

variable (params : SrepParams F) (topology : Topology) (guarded : String → Bool)

def pushTo (r : F) (hops : Nat) (s : Search F) (neighbor : String) : Search F :=
  if neighbor ∈ s.visited then s
  else if !guarded neighbor then s
  else
    let pushed := RiskNumber.times (RiskNumber.times r params.propagationWeight) (RiskNumber.power params.hopDecay (hops + 1))
    if pushed ≤ RiskNumber.least then s
    else
      { visited := s.visited ++ [neighbor]
        frontier := s.frontier ++ [(neighbor, pushed, hops + 1)]
        propagated := fun node =>
          if node = neighbor ∧ s.propagated neighbor < pushed then pushed else s.propagated node }

/-- The search with at most so many rounds. -/
def spread : Nat → Search F → Except String (Search F)
  | 0, s => .ok s
  | fuel + 1, s =>
    match s.frontier with
    | [] => .ok s
    | (node, r, hops) :: rest =>
      if params.maxHops ≤ hops then spread fuel { s with frontier := rest }
      else
        match topology node with
        | none => .error "NetworkXError"
        | some neighbors => spread fuel (neighbors.foldl (pushTo params guarded r hops) { s with frontier := rest })

/-- One search after the other, with the greatest risks of all. -/
def spreadAll (fuel : Nat) : List (String × F) → (String → F) → Except String (String → F)
  | [], propagated => .ok propagated
  | (source, risk) :: sources, propagated =>
    match spread params topology guarded fuel ⟨[source], [(source, risk, 0)], propagated⟩ with
    | .error e => .error e
    | .ok s => spreadAll fuel sources s.propagated

end Searching

/-- The risks that the propagation pushes. A search asks each device at most once. -/
def Abm.newPropagated (abm : Abm F) : Except String (String → F) :=
  spreadAll abm.params abm.topology abm.isProtected abm.states.length abm.sources fun _ => RiskNumber.zero

def DeviceState.systemic (st : DeviceState F) (propagated : F) : F :=
  match st.networkRisk, st.behaviorRisk with
  | none, none => propagated
  | some nr, none => max nr propagated
  | none, some br => max br propagated
  | some nr, some br => max (max nr br) propagated

def DeviceState.refresh (propagated : String → F) (st : DeviceState F) : DeviceState F :=
  { st with
    propagatedRisk := propagated st.nodeId
    systemicRisk := st.systemic (propagated st.nodeId) }

def Abm.propagate (abm : Abm F) : Except String (Abm F) :=
  match abm.newPropagated with
  | .error e => .error e
  | .ok propagated => .ok { abm with states := abm.states.map (DeviceState.refresh propagated) }

/-! ## History -/

def Abm.defendedBlastRadius (abm : Abm F) : F :=
  RiskNumber.round6 (abm.states.foldl (fun total st =>
    if st.isAttacker || !st.isProtectedAsset then total
    else RiskNumber.plus total (RiskNumber.times st.systemicRisk (abm.params.criticality st.role))) RiskNumber.zero)

def Abm.snapshot (abm : Abm F) : Snapshot F :=
  { step := abm.steps
    windowId := abm.currentWindowId
    states := abm.states.map fun st =>
      ⟨st.nodeId, st.networkRisk, st.behaviorRisk, RiskNumber.round6 st.propagatedRisk,
        RiskNumber.round6 st.systemicRisk, st.compromised⟩
    defendedBlastRadius := abm.defendedBlastRadius }

/-- The two halves of recording a step: the count, and the snapshot in the bounded history. -/
def Abm.countStep (abm : Abm F) : Abm F := { abm with steps := abm.steps + 1 }

def Abm.remember (abm : Abm F) : Abm F :=
  { abm with history := (abm.history ++ [abm.snapshot]).drop (abm.history.length + 1 - abm.historyLimit) }

def Abm.recordStep (abm : Abm F) : Abm F := abm.countStep.remember

structure DigestState (F : Type) where
  nodeId : String
  networkRisk : Option F
  behaviorRisk : Option F
  propagatedRisk : F
  systemicRisk : F
  behaviorSupported : Bool
  behaviorObserved : Bool
  networkObserved : Bool
  isAttacker : Bool
  isProtectedAsset : Bool
  deriving DecidableEq

structure Digest (F : Type) where
  steps : Nat
  lastWindowId : Option Int
  defendedBlastRadius : F
  compromisedProtected : List String
  state : List (DigestState F)
  deriving DecidableEq

def DeviceState.digest (st : DeviceState F) : DigestState F :=
  ⟨st.nodeId, st.networkRisk, st.behaviorRisk, st.propagatedRisk, st.systemicRisk, st.behaviorSupported,
    st.behaviorObserved, st.networkObserved, st.isAttacker, st.isProtectedAsset⟩

def Abm.finalDigest (abm : Abm F) : Digest F :=
  { steps := abm.steps
    lastWindowId := abm.currentWindowId
    defendedBlastRadius := abm.defendedBlastRadius
    compromisedProtected := Sorting.sortBy id
      ((abm.states.filter fun st => st.compromised && st.isProtectedAsset).map DeviceState.nodeId)
    state := abm.states.map DeviceState.digest }

/-! ## Evidence and propagation -/

/-- Evidence of the two kinds may come in either order. -/
theorem note_comm (a b : String) (f : NetworkFinding F) (g : BehaviorFinding F) (states : List (DeviceState F)) :
    withState a (DeviceState.noteNetwork f) (withState b (DeviceState.noteBehavior g) states) =
      withState b (DeviceState.noteBehavior g) (withState a (DeviceState.noteNetwork f) states) := by
  induction states with
  | nil => rfl
  | cons st states ih =>
    simp only [withState, List.map_cons, List.cons.injEq] at ih ⊢
    refine ⟨?_, ih⟩
    by_cases ha : st.nodeId = a <;> by_cases hb : st.nodeId = b <;>
      simp [ha, hb, DeviceState.noteNetwork, DeviceState.noteBehavior] <;> simp_all

/-- Propagation reads what evidence sets, and sets nothing of it. -/
theorem newPropagated_refresh (abm : Abm F) (propagated : String → F) :
    ({ abm with states := abm.states.map (DeviceState.refresh propagated) } : Abm F).newPropagated = abm.newPropagated := by
  have hsources : ({ abm with states := abm.states.map (DeviceState.refresh propagated) } : Abm F).sources = abm.sources := by
    simp only [Abm.sources, List.filterMap_map]
    rfl
  have hprotected : ({ abm with states := abm.states.map (DeviceState.refresh propagated) } : Abm F).isProtected =
      abm.isProtected := by
    funext node
    simp only [Abm.isProtected, Abm.resolve, List.find?_map, Option.any_map]
    rfl
  simp only [Abm.newPropagated, hsources, hprotected, List.length_map]

/-- A second propagation changes nothing. -/
theorem propagate_again {abm abm' : Abm F} (h : abm.propagate = .ok abm') : abm'.propagate = .ok abm' := by
  unfold Abm.propagate at h
  cases hnew : abm.newPropagated with
  | error e => rw [hnew] at h; cases h
  | ok propagated =>
    rw [hnew] at h
    cases h
    unfold Abm.propagate
    rw [newPropagated_refresh, hnew]
    simp only [List.map_map]
    rfl

/-! ## The searches end -/

/-- How many rounds a search may still take: the nodes it asks, and those it may reach. -/
def Search.potential (nodes : List String) (s : Search F) : Nat :=
  s.frontier.length + (nodes.filter fun node => node ∉ s.visited).length

theorem pushTo_potential (params : SrepParams F) (guarded : String → Bool) {nodes : List String}
    (hnodes : ∀ node, guarded node = true → node ∈ nodes) (r : F) (hops : Nat) (s : Search F) (neighbor : String) :
    (pushTo params guarded r hops s neighbor).potential nodes ≤ s.potential nodes := by
  unfold pushTo
  split
  · exact Nat.le_refl _
  · rename_i hnew
    split
    · exact Nat.le_refl _
    · rename_i hguarded
      simp only
      split
      · exact Nat.le_refl _
      · -- the neighbour joins the frontier and is no longer to be reached
        have hin : neighbor ∈ nodes.filter fun node => node ∉ s.visited :=
          List.mem_filter.mpr ⟨hnodes neighbor (by simpa using hguarded), by simpa using hnew⟩
        have hfewer : nodes.filter (fun node => node ∉ s.visited ++ [neighbor]) =
            (nodes.filter fun node => node ∉ s.visited).filter fun node => node ≠ neighbor := by
          rw [List.filter_filter]
          congr 1
          funext node
          by_cases hv : node ∈ s.visited <;> simp [hv]
        have hlt : ((nodes.filter fun node => node ∉ s.visited).filter fun node => node ≠ neighbor).length <
            (nodes.filter fun node => node ∉ s.visited).length :=
          List.length_filter_lt_length_iff_exists.mpr ⟨neighbor, hin, by simp⟩
        simp only [Search.potential, List.length_append, List.length_singleton]
        rw [hfewer]
        omega

theorem pushAll_potential (params : SrepParams F) (guarded : String → Bool) {nodes : List String}
    (hnodes : ∀ node, guarded node = true → node ∈ nodes) (r : F) (hops : Nat) (neighbors : List String) (s : Search F) :
    (neighbors.foldl (pushTo params guarded r hops) s).potential nodes ≤ s.potential nodes := by
  induction neighbors generalizing s with
  | nil => exact Nat.le_refl _
  | cons neighbor neighbors ih => exact (ih _).trans (pushTo_potential params guarded hnodes r hops s neighbor)

/-- With rounds for its potential, a search leaves nobody to ask. -/
theorem spread_ends (params : SrepParams F) (topology : Topology) (guarded : String → Bool) {nodes : List String}
    (hnodes : ∀ node, guarded node = true → node ∈ nodes) (fuel : Nat) (s s' : Search F)
    (hfuel : s.potential nodes ≤ fuel) (h : spread params topology guarded fuel s = .ok s') : s'.frontier = [] := by
  induction fuel generalizing s with
  | zero =>
    cases h
    exact List.eq_nil_of_length_eq_zero (by unfold Search.potential at hfuel; omega)
  | succ fuel ih =>
    unfold spread at h
    cases hfrontier : s.frontier with
    | nil =>
      rw [hfrontier] at h
      cases h
      exact hfrontier
    | cons asked rest =>
      have hrest : ({ s with frontier := rest } : Search F).potential nodes ≤ fuel := by
        simp only [Search.potential, hfrontier, List.length_cons] at hfuel ⊢
        omega
      rw [hfrontier] at h
      simp only at h
      split at h
      · exact ih _ hrest h
      · cases hnode : topology asked.1 with
        | none => rw [hnode] at h; cases h
        | some neighbors =>
          rw [hnode] at h
          exact ih _ ((pushAll_potential params guarded hnodes _ _ neighbors _).trans hrest) h

/-- The rounds of a propagation are enough for each of its searches. -/
theorem propagate_searches_end (abm : Abm F) {source : String} {risk : F} (hsource : (source, risk) ∈ abm.sources)
    (propagated : String → F) (s : Search F)
    (h : spread abm.params abm.topology abm.isProtected abm.states.length ⟨[source], [(source, risk, 0)], propagated⟩ =
      .ok s) : s.frontier = [] := by
  have hnodes : ∀ node, abm.isProtected node = true → node ∈ abm.states.map DeviceState.nodeId := by
    intro node hnode
    unfold Abm.isProtected Abm.resolve at hnode
    cases hst : abm.states.find? fun st => st.nodeId = node with
    | none => rw [hst] at hnode; cases hnode
    | some st =>
      have hid := List.find?_some hst
      exact List.mem_map.mpr ⟨st, List.mem_of_find?_eq_some hst, of_decide_eq_true hid⟩
  have hin : source ∈ abm.states.map DeviceState.nodeId := by
    obtain ⟨st, hst, hsome⟩ := List.mem_filterMap.mp hsource
    split at hsome
    · cases hsome
      exact List.mem_map.mpr ⟨st, hst, rfl⟩
    · cases hsome
  refine spread_ends abm.params abm.topology abm.isProtected hnodes _ _ s ?_ h
  have hfewer : ((abm.states.map DeviceState.nodeId).filter fun node => node ∉ [source]).length <
      (abm.states.map DeviceState.nodeId).length :=
    List.length_filter_lt_length_iff_exists.mpr ⟨source, hin, by simp⟩
  rw [List.length_map] at hfewer
  simp only [Search.potential, List.length_singleton]
  omega

end Model

end DeviceAbm
