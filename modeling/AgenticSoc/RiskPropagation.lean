import AgenticSoc.DeviceAbm
import AgenticSoc.ShortestHops
import Mathlib.Algebra.Order.Floor.Div
import Mathlib.Algebra.Order.Ring.Rat
import Mathlib.Data.Rat.Floor
import Mathlib.Tactic.Linarith
import Mathlib.Tactic.Positivity
import Mathlib.Tactic.Ring

/-!
# What propagation computes

A search asks its nodes in the order of their hops, so it reaches each device on a shortest
way through protected devices, and what it pushes there depends on the hops alone. Cut-off
and cap only end the ways, because the risk falls with each hop.
-/
namespace RiskPropagation

open DeviceAbm ShortestHops

/-- The nearest whole number, of two the even one. -/
def roundHalfEven (x : ℚ) : Int :=
  if x - ⌊x⌋ < 1 / 2 then ⌊x⌋
  else if 1 / 2 < x - ⌊x⌋ then ⌊x⌋ + 1
  else if ⌊x⌋ % 2 = 0 then ⌊x⌋ else ⌊x⌋ + 1

instance : RiskNumber ℚ where
  zero := 0
  half := 1 / 2
  least := 1 / 10 ^ 9
  plus := (· + ·)
  times := (· * ·)
  power := (· ^ ·)
  round6 x := roundHalfEven (x * 10 ^ 6) / 10 ^ 6

/-! ## The topology -/

structure DiGraph where
  nodes : List String
  edges : List (String × String)
  ends : ∀ e ∈ edges, e.1 ∈ nodes ∧ e.2 ∈ nodes

namespace DiGraph

def predecessors (g : DiGraph) (node : String) : List String :=
  g.edges.filterMap fun e => if e.2 = node then some e.1 else none

def successors (g : DiGraph) (node : String) : List String :=
  g.edges.filterMap fun e => if e.1 = node then some e.2 else none

def allNeighbors (g : DiGraph) : Topology := fun node =>
  if node ∈ g.nodes then some (g.predecessors node ++ g.successors node) else none

/-- Joined by an edge, whichever way it goes. -/
def Joined (g : DiGraph) (u v : String) : Prop := (u, v) ∈ g.edges ∨ (v, u) ∈ g.edges

theorem Joined.symm {g : DiGraph} {u v : String} (h : g.Joined u v) : g.Joined v u := Or.symm h

/-- The devices that pass risk on, and the edges between them without their direction. -/
def protectedGraph (g : DiGraph) (guarded : String → Bool) : SimpleGraph String where
  Adj u v := u ≠ v ∧ guarded u = true ∧ guarded v = true ∧ g.Joined u v
  symm := ⟨fun _ _ h => ⟨h.1.symm, h.2.2.1, h.2.1, h.2.2.2.symm⟩⟩
  loopless := ⟨fun _ h => h.1 rfl⟩

def addNode (g : DiGraph) (node : String) : DiGraph where
  nodes := if node ∈ g.nodes then g.nodes else g.nodes ++ [node]
  edges := g.edges
  ends e he := by
    split
    · exact g.ends e he
    · exact ⟨List.mem_append_left _ (g.ends e he).1, List.mem_append_left _ (g.ends e he).2⟩

theorem mem_addNode (g : DiGraph) (node v : String) : v ∈ (g.addNode node).nodes ↔ v ∈ g.nodes ∨ v = node := by
  simp only [addNode]
  split
  · rename_i hold
    exact ⟨.inl, fun h => h.elim id fun hv => hv ▸ hold⟩
  · rw [List.mem_append, List.mem_singleton]

/-- An edge brings its ends with it. -/
def addEdge (g : DiGraph) (a b : String) : DiGraph where
  nodes := ((g.addNode a).addNode b).nodes
  edges := if (a, b) ∈ g.edges then g.edges else g.edges ++ [(a, b)]
  ends e he := by
    simp only [mem_addNode]
    have hcases : e ∈ g.edges ∨ e = (a, b) := by
      split at he
      · exact .inl he
      · simpa using he
    rcases hcases with he | rfl
    · exact ⟨.inl (.inl (g.ends e he).1), .inl (.inl (g.ends e he).2)⟩
    · exact ⟨.inl (.inr rfl), .inr rfl⟩

theorem mem_addEdge {g : DiGraph} {v : String} (a b : String) (h : v ∈ g.nodes) : v ∈ (g.addEdge a b).nodes :=
  (mem_addNode _ _ _).mpr (.inl ((mem_addNode _ _ _).mpr (.inl h)))

def addBoth (g : DiGraph) (a b : String) : DiGraph := (g.addEdge a b).addEdge b a

/-- An edge from each of these devices that there are to another. -/
def addEdgesTo (target : String) (g : DiGraph) (names : List String) : DiGraph :=
  names.foldl (fun g name => if name ∈ g.nodes then g.addEdge name target else g) g

theorem mem_addEdgesTo {g : DiGraph} {v : String} (target : String) (names : List String) (h : v ∈ g.nodes) :
    v ∈ (g.addEdgesTo target names).nodes := by
  unfold addEdgesTo
  induction names generalizing g with
  | nil => exact h
  | cons name names ih =>
    refine ih ?_
    dsimp only
    split
    · exact mem_addEdge name target h
    · exact h

end DiGraph

def sensors : List String :=
  ["weather-sensor", "water-sensor", "soil-sensor", "steam-sensor", "gas-sensor", "sound-sensor", "vibration-sensor",
    "ultrasonic-sensor", "light-sensor", "accelerometer-sensor", "proximity-collision-sensor", "motion-sensor",
    "rfid-sensor", "flame-sensor"]

def cameras : List String :=
  ["yi-camera", "blurams-camera", "dekco-camera", "myq-camera", "geeni-camera", "wisenet-camera"]

def plugs : List String :=
  ["plug-all-cameras", "plug-all-rpb", "plug-mqtt", "plug-rfid", "plug-edge1", "plug-motion", "plug-flame",
    "plug-proximity", "plug-vibration", "plug-cameras-yi", "plug-cameras-geeni", "plug-cameras-dekco-blurams",
    "plug-all-sensors"]

/-- The topology over the names in an inventory. -/
def buildTopology (names : List String) : DiGraph :=
  let g := names.foldl DiGraph.addNode ⟨[], [], nofun⟩
  let g := g.addEdgesTo "ap" (sensors ++ cameras)
  let g := ((g.addBoth "ap" "switch").addBoth "switch" "mqtt-broker").addBoth "switch" "edge1"
  let g := g.addEdge "router" "switch"
  let g := ["attacker1", "attacker2", "attacker3", "attacker4", "attacker5"].foldl (DiGraph.addEdge · "attacker0") g
  let g := g.addEdge "router" "iot-cloud"
  let g := g.addEdgesTo "mqtt-broker" sensors
  g.addEdgesTo "ap" plugs

theorem mem_addNodes {names : List String} {g : DiGraph} {v : String} (h : v ∈ names ∨ v ∈ g.nodes) :
    v ∈ (names.foldl DiGraph.addNode g).nodes := by
  induction names generalizing g with
  | nil => exact h.resolve_left List.not_mem_nil
  | cons name names ih =>
    refine ih ?_
    rw [DiGraph.mem_addNode]
    rcases h with h | h
    · rcases List.mem_cons.mp h with rfl | h
      · exact .inr (.inr rfl)
      · exact .inl h
    · exact .inr (.inl h)

/-- Every device of the inventory is in the topology. -/
theorem mem_buildTopology {names : List String} {v : String} (h : v ∈ names) : v ∈ (buildTopology names).nodes := by
  refine DiGraph.mem_addEdgesTo _ _ (DiGraph.mem_addEdgesTo _ _ (DiGraph.mem_addEdge _ _ ?_))
  refine DiGraph.mem_addEdge _ _ (DiGraph.mem_addEdge _ _ (DiGraph.mem_addEdge _ _ ?_))
  refine DiGraph.mem_addEdge _ _ (DiGraph.mem_addEdge _ _ (DiGraph.mem_addEdge _ _ ?_))
  refine DiGraph.mem_addEdge _ _ (DiGraph.mem_addEdge _ _ (DiGraph.mem_addEdge _ _ ?_))
  refine DiGraph.mem_addEdge _ _ (DiGraph.mem_addEdge _ _ (DiGraph.mem_addEdge _ _ ?_))
  exact DiGraph.mem_addEdgesTo _ _ (mem_addNodes (.inl h))

/-- A topology that names the neighbours in a graph, in whatever order and however often. -/
structure Lists (topology : Topology) (g : DiGraph) : Prop where
  nodes : ∀ node, (topology node).isSome = true ↔ node ∈ g.nodes
  neighbors : ∀ node neighbors, topology node = some neighbors → ∀ v, v ∈ neighbors ↔ g.Joined node v

theorem lists_allNeighbors (g : DiGraph) : Lists g.allNeighbors g where
  nodes node := by
    unfold DiGraph.allNeighbors
    split <;> simp [*]
  neighbors node neighbors h v := by
    unfold DiGraph.allNeighbors at h
    split at h
    · cases h
      simp only [DiGraph.predecessors, DiGraph.successors, DiGraph.Joined, List.mem_append, List.mem_filterMap]
      constructor
      · rintro (⟨⟨a, b⟩, he, hv⟩ | ⟨⟨a, b⟩, he, hv⟩)
        · split at hv
          · cases hv
            subst node
            exact .inr he
          · cases hv
        · split at hv
          · cases hv
            subst node
            exact .inl he
          · cases hv
      · rintro (he | he)
        · exact .inr ⟨_, he, by simp⟩
        · exact .inl ⟨_, he, by simp⟩
    · cases h

/-! ## The risk after so many hops -/

def pushedRisk (params : SrepParams ℚ) (risk : ℚ) (hops : Nat) : ℚ :=
  risk * params.propagationWeight ^ hops * params.hopDecay ^ (hops * (hops + 1) / 2)

/-- Each hop passes on a part of the risk. -/
structure Weakening (params : SrepParams ℚ) : Prop where
  weight_pos : 0 < params.propagationWeight
  weight_le : params.propagationWeight ≤ 1
  decay_pos : 0 < params.hopDecay
  decay_le : params.hopDecay ≤ 1

section Values

variable {params : SrepParams ℚ} {risk : ℚ}

theorem pushedRisk_zero : pushedRisk params risk 0 = risk := by simp [pushedRisk]

/-- The code multiplies hop by hop. -/
theorem pushedRisk_succ (hops : Nat) :
    RiskNumber.times (RiskNumber.times (pushedRisk params risk hops) params.propagationWeight)
      (RiskNumber.power params.hopDecay (hops + 1)) = pushedRisk params risk (hops + 1) := by
  have hsum : (hops + 1) * (hops + 1 + 1) / 2 = hops * (hops + 1) / 2 + (hops + 1) := by
    have hsplit : (hops + 1) * (hops + 1 + 1) = hops * (hops + 1) + 2 * (hops + 1) := by ring
    omega
  change pushedRisk params risk hops * params.propagationWeight * params.hopDecay ^ (hops + 1) = _
  unfold pushedRisk
  rw [hsum, pow_add, pow_succ]
  ring

theorem pushedRisk_pos (hw : Weakening params) (hrisk : 0 < risk) (hops : Nat) : 0 < pushedRisk params risk hops := by
  have hweight := hw.weight_pos
  have hdecay := hw.decay_pos
  unfold pushedRisk
  positivity

theorem pushedRisk_succ_le (hw : Weakening params) (hrisk : 0 < risk) (hops : Nat) :
    pushedRisk params risk (hops + 1) ≤ pushedRisk params risk hops := by
  have hpos := (pushedRisk_pos hw hrisk hops).le
  have hdecay : params.hopDecay ^ (hops + 1) ≤ 1 := pow_le_one₀ hw.decay_pos.le hw.decay_le
  rw [← pushedRisk_succ]
  calc pushedRisk params risk hops * params.propagationWeight * params.hopDecay ^ (hops + 1)
      ≤ pushedRisk params risk hops * params.propagationWeight :=
        mul_le_of_le_one_right (mul_nonneg hpos hw.weight_pos.le) hdecay
    _ ≤ pushedRisk params risk hops := mul_le_of_le_one_right hpos hw.weight_le

theorem pushedRisk_anti (hw : Weakening params) (hrisk : 0 < risk) : Antitone (pushedRisk params risk) :=
  antitone_nat_of_succ_le (pushedRisk_succ_le hw hrisk)

theorem pushedRisk_le_one (hw : Weakening params) (hrisk : 0 < risk) (hle : risk ≤ 1) (hops : Nat) :
    pushedRisk params risk hops ≤ 1 := by
  have hfirst := pushedRisk_anti hw hrisk (Nat.zero_le hops)
  rw [pushedRisk_zero] at hfirst
  exact hfirst.trans hle

end Values

/-! ## One search -/

/-- A device that risk from the source comes to. -/
structure Reaches (G : SimpleGraph String) (params : SrepParams ℚ) (source : String) (risk : ℚ) (node : String) : Prop where
  reachable : G.Reachable source node
  within : (G.dist source node : Int) ≤ params.maxHops
  noticeable : 1 / 10 ^ 9 < pushedRisk params risk (G.dist source node)

/-- What holds whenever a search asks its next node. -/
structure Searched (G : SimpleGraph String) (guarded : String → Bool) (params : SrepParams ℚ) (source : String) (risk : ℚ)
    (base : String → ℚ) (s : Search ℚ) : Prop where
  source_visited : source ∈ s.visited
  visited_guarded : ∀ v ∈ s.visited, guarded v = true
  visited_reached : ∀ v ∈ s.visited, v ≠ source → Reaches G params source risk v
  entries : ∀ e ∈ s.frontier, e.1 ∈ s.visited ∧ G.Reachable source e.1 ∧ e.2.2 = G.dist source e.1 ∧
    e.2.1 = pushedRisk params risk e.2.2
  order : s.frontier.Pairwise fun a b => a.2.2 ≤ b.2.2 ∧ b.2.2 ≤ a.2.2 + 1
  asked : ∀ v ∈ s.visited, (∀ e ∈ s.frontier, e.1 ≠ v) → ∀ u, G.Adj v u → G.dist source u = G.dist source v + 1 →
    Reaches G params source risk u → u ∈ s.visited
  propagated : ∀ node, s.propagated node =
    if node ∈ s.visited ∧ node ≠ source then max (base node) (pushedRisk params risk (G.dist source node)) else base node

section Searching

variable {G : SimpleGraph String} {guarded : String → Bool} {params : SrepParams ℚ} {source : String} {risk : ℚ}
  {base : String → ℚ}

theorem searched_start (hguarded : guarded source = true) :
    Searched G guarded params source risk base ⟨[source], [(source, risk, 0)], base⟩ where
  source_visited := List.mem_singleton_self _
  visited_guarded v hv := by rwa [List.mem_singleton.mp hv]
  visited_reached v hv hne := absurd (List.mem_singleton.mp hv) hne
  entries e he := by
    rw [List.mem_singleton.mp he]
    exact ⟨List.mem_singleton_self _, .refl _, SimpleGraph.dist_self.symm, (pushedRisk_zero).symm⟩
  order := List.pairwise_singleton _ _
  asked v hv hnone := absurd (List.mem_singleton.mp hv).symm (hnone _ (List.mem_singleton_self _))
  propagated node := by simp

/-- A node one hop before another that risk comes to. -/
theorem Reaches.before (hw : Weakening params) (hrisk : 0 < risk) {u v : String} (h : Reaches G params source risk u)
    (hreach : G.Reachable source v) (hle : G.dist source v ≤ G.dist source u) : Reaches G params source risk v where
  reachable := hreach
  within := by
    have := h.within
    omega
  noticeable := h.noticeable.trans_le (pushedRisk_anti hw hrisk hle)

/-- All nodes up to the hops of the next node to ask are visited. -/
theorem Searched.near (hw : Weakening params) (hrisk : 0 < risk) {s : Search ℚ}
    (h : Searched G guarded params source risk base s) {k : Nat} (hnext : ∀ e ∈ s.frontier, k ≤ e.2.2) {u : String}
    (hu : Reaches G params source risk u) (hdist : G.dist source u ≤ k) : u ∈ s.visited := by
  refine all_reached (Reaches G params source risk) (fun v => v ∈ s.visited) h.source_visited ?_ ?_ hu
    hu.reachable hdist
  · intro u v hu hv hhop
    exact .inr (hu.before hw hrisk hv (by omega))
  · intro v hv hlt u hadj hhop hu
    refine h.asked v hv ?_ u hadj hhop hu
    rintro e he rfl
    have hlater := hnext e he
    rw [(h.entries e he).2.2.1] at hlater
    omega

variable {g : DiGraph}

theorem pushTo_visited (r : ℚ) (hops : Nat) (s : Search ℚ) (neighbor : String) {v : String} (hv : v ∈ s.visited) :
    v ∈ (pushTo params guarded r hops s neighbor).visited := by
  simp only [pushTo]
  split
  · exact hv
  · split
    · exact hv
    · split
      · exact hv
      · exact List.mem_append_left _ hv

/-- A new node in the search, next to be asked after all the others. -/
def visit (node : String) (pushed : ℚ) (hops : Nat) (s : Search ℚ) : Search ℚ where
  visited := s.visited ++ [node]
  frontier := s.frontier ++ [(node, pushed, hops)]
  propagated n := if n = node ∧ s.propagated node < pushed then pushed else s.propagated n

theorem visit_searched {s : Search ℚ} (h : Searched G guarded params source risk base s) {node : String}
    (hnew : node ∉ s.visited) (hguarded : guarded node = true) (hnode : Reaches G params source risk node)
    (hrange : ∀ e ∈ s.frontier, e.2.2 ≤ G.dist source node ∧ G.dist source node ≤ e.2.2 + 1) :
    Searched G guarded params source risk base
      (visit node (pushedRisk params risk (G.dist source node)) (G.dist source node) s) where
  source_visited := List.mem_append_left _ h.source_visited
  visited_guarded v hv := by
    rcases List.mem_append.mp hv with hv | hv
    · exact h.visited_guarded v hv
    · rwa [List.mem_singleton.mp hv]
  visited_reached v hv hne := by
    rcases List.mem_append.mp hv with hv | hv
    · exact h.visited_reached v hv hne
    · rwa [List.mem_singleton.mp hv]
  entries e he := by
    rcases List.mem_append.mp he with he | he
    · obtain ⟨hv, hrest⟩ := h.entries e he
      exact ⟨List.mem_append_left _ hv, hrest⟩
    · rw [List.mem_singleton.mp he]
      exact ⟨List.mem_append_right _ (List.mem_singleton_self _), hnode.reachable, rfl, rfl⟩
  order := by
    refine List.pairwise_append.mpr ⟨h.order, List.pairwise_singleton _ _, ?_⟩
    intro e he last hlast
    rw [List.mem_singleton.mp hlast]
    exact hrange e he
  asked v hv hnone u hadj hdist hu := by
    refine List.mem_append_left _ (h.asked v ?_ ?_ u hadj hdist hu)
    · rcases List.mem_append.mp hv with hv | hv
      · exact hv
      · exact absurd (List.mem_singleton.mp hv).symm (hnone _ (List.mem_append_right _ (List.mem_singleton_self _)))
    · exact fun e he => hnone e (List.mem_append_left _ he)
  propagated n := by
    have hne : node ≠ source := fun hsame => hnew (hsame ▸ h.source_visited)
    have hbase : s.propagated node = base node := by rw [h.propagated node, if_neg fun hin => hnew hin.1]
    simp only [visit, List.mem_append, List.mem_singleton]
    by_cases hn : n = node
    · subst hn
      simp only [hbase, true_and, or_true, hne, ne_eq, not_false_eq_true, and_true, if_true]
      split
      · rename_i hlt
        exact (max_eq_right hlt.le).symm
      · rename_i hge
        exact (max_eq_left (not_lt.mp hge)).symm
    · simp only [hn, false_and, if_false, or_false]
      exact h.propagated n

/-- The node asked stands before the frontier until all its neighbours have been looked at. -/
def asking (node : String) (r : ℚ) (hops : Nat) (s : Search ℚ) : Search ℚ :=
  { s with frontier := (node, r, hops) :: s.frontier }

/-- A neighbour that was not visited is one hop further on. -/
theorem dist_new (hw : Weakening params) (hrisk : 0 < risk) {s : Search ℚ} {node : String} {r : ℚ} {hops : Nat}
    (h : Searched G guarded params source risk base (asking node r hops s)) (hmore : (hops : Int) < params.maxHops)
    {neighbor : String} (hadj : G.Adj node neighbor) (hnew : neighbor ∉ s.visited)
    (hnoticeable : 1 / 10 ^ 9 < pushedRisk params risk (hops + 1)) : G.dist source neighbor = hops + 1 := by
  obtain ⟨hnode, hreach, hhops, hr⟩ := h.entries _ List.mem_cons_self
  dsimp only at hreach hhops
  have hhop := dist_hop hreach hadj
  have hfar : ¬ G.dist source neighbor ≤ hops := by
    intro hle
    refine hnew (h.near hw hrisk ?_ ⟨hreach.trans hadj.reachable, by omega, ?_⟩ hle)
    · rintro e he
      rcases List.mem_cons.mp he with rfl | he
      · exact le_refl _
      · exact ((List.pairwise_cons.mp h.order).1 e he).1
    · exact hnoticeable.trans_le (pushedRisk_anti hw hrisk (by omega))
  omega

theorem pushTo_searched (hw : Weakening params) (hrisk : 0 < risk) {s : Search ℚ} {node : String} {r : ℚ} {hops : Nat}
    (h : Searched (g.protectedGraph guarded) guarded params source risk base (asking node r hops s))
    (hmore : (hops : Int) < params.maxHops) {neighbor : String} (hjoined : g.Joined node neighbor) :
    Searched (g.protectedGraph guarded) guarded params source risk base
        (asking node r hops (pushTo params guarded r hops s neighbor)) ∧
      ((g.protectedGraph guarded).Adj node neighbor → (g.protectedGraph guarded).dist source neighbor = hops + 1 →
        Reaches (g.protectedGraph guarded) params source risk neighbor →
        neighbor ∈ (pushTo params guarded r hops s neighbor).visited) := by
  obtain ⟨hnode, hreach, hhops, hr⟩ := h.entries _ List.mem_cons_self
  dsimp only at hnode hreach hhops hr
  simp only [pushTo]
  rw [hr, pushedRisk_succ]
  split
  · rename_i hold
    exact ⟨hr ▸ h, fun _ _ _ => hold⟩
  · rename_i hnew
    split
    · rename_i hguarded
      refine ⟨hr ▸ h, fun hadj => ?_⟩
      rw [hadj.2.2.1] at hguarded
      cases hguarded
    · rename_i hguarded
      split
      · rename_i hleast
        refine ⟨hr ▸ h, fun _ hdist hreaches => absurd hreaches.noticeable ?_⟩
        rw [hdist]
        exact not_lt.mpr hleast
      · rename_i hleast
        refine ⟨?_, fun _ _ _ => List.mem_append_right _ (List.mem_singleton_self _)⟩
        have hadj : (g.protectedGraph guarded).Adj node neighbor :=
          ⟨fun hsame => hnew (hsame ▸ hnode), h.visited_guarded node hnode, by simpa using hguarded, hjoined⟩
        have hdist := dist_new hw hrisk h hmore hadj hnew (not_le.mp hleast)
        have hvisit := visit_searched h hnew hadj.2.2.1
          ⟨hreach.trans hadj.reachable, by rw [hdist]; exact hmore, by rw [hdist]; exact not_le.mp hleast⟩ ?_
        · rw [hdist, hr] at hvisit
          exact hvisit
        · intro e he
          rw [hdist]
          rcases List.mem_cons.mp he with rfl | he
          · exact ⟨Nat.le_succ _, le_refl _⟩
          · have hrange := (List.pairwise_cons.mp h.order).1 e he
            exact ⟨hrange.2, Nat.succ_le_succ hrange.1⟩

theorem pushAll_searched (hw : Weakening params) (hrisk : 0 < risk) {node : String} {r : ℚ} {hops : Nat}
    (hmore : (hops : Int) < params.maxHops) {neighbors : List String} (hjoined : ∀ v ∈ neighbors, g.Joined node v)
    {s : Search ℚ} (h : Searched (g.protectedGraph guarded) guarded params source risk base (asking node r hops s)) :
    Searched (g.protectedGraph guarded) guarded params source risk base
        (asking node r hops (neighbors.foldl (pushTo params guarded r hops) s)) ∧
      (∀ v ∈ s.visited, v ∈ (neighbors.foldl (pushTo params guarded r hops) s).visited) ∧
      ∀ v ∈ neighbors, (g.protectedGraph guarded).Adj node v → (g.protectedGraph guarded).dist source v = hops + 1 →
        Reaches (g.protectedGraph guarded) params source risk v →
        v ∈ (neighbors.foldl (pushTo params guarded r hops) s).visited := by
  induction neighbors generalizing s with
  | nil => exact ⟨h, fun v hv => hv, fun v hv => absurd hv List.not_mem_nil⟩
  | cons neighbor neighbors ih =>
    obtain ⟨hfirst, hpushed⟩ := pushTo_searched hw hrisk h hmore (hjoined neighbor List.mem_cons_self)
    obtain ⟨hall, hkept, hrest⟩ := ih (fun v hv => hjoined v (List.mem_cons_of_mem _ hv)) hfirst
    refine ⟨hall, fun v hv => hkept v (pushTo_visited r hops s neighbor hv), ?_⟩
    intro v hv hadj hdist hreaches
    rcases List.mem_cons.mp hv with rfl | hv
    · exact hkept v (hpushed hadj hdist hreaches)
    · exact hrest v hv hadj hdist hreaches

/-- A node whose neighbours have been looked at leaves the search. -/
theorem searched_asked {s : Search ℚ} {node : String} {r : ℚ} {hops : Nat}
    (h : Searched G guarded params source risk base (asking node r hops s))
    (hall : ∀ u, G.Adj node u → G.dist source u = hops + 1 → Reaches G params source risk u → u ∈ s.visited) :
    Searched G guarded params source risk base s where
  source_visited := h.source_visited
  visited_guarded := h.visited_guarded
  visited_reached := h.visited_reached
  entries e he := h.entries e (List.mem_cons_of_mem _ he)
  order := (List.pairwise_cons.mp h.order).2
  asked v hv hnone u hadj hdist hu := by
    by_cases hsame : node = v
    · subst hsame
      have hhops := (h.entries _ List.mem_cons_self).2.2.1
      dsimp only at hhops
      exact hall u hadj (by omega) hu
    · refine h.asked v hv ?_ u hadj hdist hu
      intro e he
      rcases List.mem_cons.mp he with rfl | he
      · exact hsame
      · exact hnone e he
  propagated := h.propagated

/-- Past the cap nothing is reached. -/
theorem capped_searched {s : Search ℚ} {node : String} {r : ℚ} {hops : Nat} (hcap : params.maxHops ≤ hops)
    (h : Searched G guarded params source risk base (asking node r hops s)) :
    Searched G guarded params source risk base s := by
  refine searched_asked h fun u _ hdist hu => ?_
  have := hu.within
  omega

theorem pushed_searched (hw : Weakening params) (hrisk : 0 < risk) {topology : Topology} (hlists : Lists topology g)
    {s : Search ℚ} {node : String} {r : ℚ} {hops : Nat} (hcap : ¬ params.maxHops ≤ hops) {neighbors : List String}
    (hnode : topology node = some neighbors)
    (h : Searched (g.protectedGraph guarded) guarded params source risk base (asking node r hops s)) :
    Searched (g.protectedGraph guarded) guarded params source risk base (neighbors.foldl (pushTo params guarded r hops) s) := by
  have hjoined := hlists.neighbors node neighbors hnode
  obtain ⟨hall, -, hpushed⟩ := pushAll_searched hw hrisk (not_le.mp hcap) (fun v hv => (hjoined v).mp hv) h
  exact searched_asked hall fun u hadj => hpushed u ((hjoined u).mpr hadj.2.2.2) hadj

theorem spread_searched (hw : Weakening params) (hrisk : 0 < risk) {topology : Topology} (hlists : Lists topology g)
    (fuel : Nat) {s s' : Search ℚ} (h : Searched (g.protectedGraph guarded) guarded params source risk base s)
    (hspread : spread params topology guarded fuel s = .ok s') :
    Searched (g.protectedGraph guarded) guarded params source risk base s' := by
  induction fuel generalizing s with
  | zero =>
    cases hspread
    exact h
  | succ fuel ih =>
    obtain ⟨visited, frontier, propagated⟩ := s
    cases frontier with
    | nil =>
      cases hspread
      exact h
    | cons asked rest =>
      simp only [spread] at hspread
      split at hspread
      · rename_i hcap
        exact ih (capped_searched (s := ⟨visited, rest, propagated⟩) hcap h) hspread
      · rename_i hcap
        cases hnode : topology asked.1 with
        | none =>
          rw [hnode] at hspread
          cases hspread
        | some neighbors =>
          rw [hnode] at hspread
          exact ih (pushed_searched (s := ⟨visited, rest, propagated⟩) hw hrisk hlists hcap hnode h) hspread

/-- A search that has asked everyone has pushed to all devices that risk comes to. -/
theorem searched_done (hw : Weakening params) (hrisk : 0 < risk) {s : Search ℚ}
    (h : Searched G guarded params source risk base s) (hdone : s.frontier = []) (node : String) :
    (node ∈ s.visited ∧ node ≠ source) ↔ (node ≠ source ∧ Reaches G params source risk node) := by
  constructor
  · rintro ⟨hv, hne⟩
    exact ⟨hne, h.visited_reached node hv hne⟩
  · rintro ⟨hne, hreaches⟩
    refine ⟨h.near hw hrisk (k := G.dist source node) ?_ hreaches (le_refl _), hne⟩
    rw [hdone]
    exact fun e he => absurd he List.not_mem_nil

/-- A search only asks devices, and those are all in the topology. -/
theorem spread_ok (hw : Weakening params) (hrisk : 0 < risk) {topology : Topology} (hlists : Lists topology g)
    (hnodes : ∀ node, guarded node = true → node ∈ g.nodes) (fuel : Nat) {s : Search ℚ}
    (h : Searched (g.protectedGraph guarded) guarded params source risk base s) :
    ∃ s', spread params topology guarded fuel s = .ok s' := by
  induction fuel generalizing s with
  | zero => exact ⟨s, rfl⟩
  | succ fuel ih =>
    obtain ⟨visited, frontier, propagated⟩ := s
    cases frontier with
    | nil => exact ⟨_, rfl⟩
    | cons asked rest =>
      simp only [spread]
      split
      · rename_i hcap
        exact ih (capped_searched (s := ⟨visited, rest, propagated⟩) hcap h)
      · rename_i hcap
        have hasked : asked.1 ∈ g.nodes := hnodes _ (h.visited_guarded _ (h.entries asked List.mem_cons_self).1)
        obtain ⟨neighbors, hnode⟩ := Option.isSome_iff_exists.mp ((hlists.nodes asked.1).mpr hasked)
        rw [hnode]
        exact ih (pushed_searched (s := ⟨visited, rest, propagated⟩) hw hrisk hlists hcap hnode h)

end Searching

/-! ## All searches -/

section Sources

variable {params : SrepParams ℚ} {guarded : String → Bool} {topology : Topology} {g : DiGraph}

/-- The risks that come to a device from these sources. -/
def Coming (G : SimpleGraph String) (params : SrepParams ℚ) (sources : List (String × ℚ)) (node : String) : Set ℚ :=
  {x | ∃ e ∈ sources, e.1 ≠ node ∧ Reaches G params e.1 e.2 node ∧ x = pushedRisk params e.2 (G.dist e.1 node)}

theorem coming_cons (G : SimpleGraph String) (source : String) (risk : ℚ) (sources : List (String × ℚ)) (node : String) :
    Coming G params ((source, risk) :: sources) node =
      {x | source ≠ node ∧ Reaches G params source risk node ∧ x = pushedRisk params risk (G.dist source node)} ∪
        Coming G params sources node := by
  ext x
  simp [Coming]

/-- The greatest of some risks and the greatest of it and more. -/
theorem greatest_union {A B : Set ℚ} {a m r : ℚ} (hm : IsGreatest (insert a A) m) (hr : IsGreatest (insert m B) r) :
    IsGreatest (insert a (A ∪ B)) r := by
  obtain ⟨hmin, hmax⟩ := hm
  obtain ⟨hrin, hrmax⟩ := hr
  have hle : m ≤ r := hrmax (Set.mem_insert _ _)
  constructor
  · rcases hrin with rfl | hr
    · rcases hmin with rfl | hm
      · exact .inl rfl
      · exact .inr (.inl hm)
    · exact .inr (.inr hr)
  · rintro x (rfl | hx | hx)
    · exact (hmax (Set.mem_insert _ _)).trans hle
    · exact (hmax (Set.mem_insert_of_mem _ hx)).trans hle
    · exact hrmax (Set.mem_insert_of_mem _ hx)

theorem spread_greatest (hw : Weakening params) (hlists : Lists topology g) {source : String} {risk : ℚ} (hrisk : 0 < risk)
    (hguarded : guarded source = true) {base : String → ℚ} {fuel : Nat} {s : Search ℚ}
    (h : spread params topology guarded fuel ⟨[source], [(source, risk, 0)], base⟩ = .ok s) (hdone : s.frontier = [])
    (node : String) :
    IsGreatest (insert (base node) {x | source ≠ node ∧ Reaches (g.protectedGraph guarded) params source risk node ∧
      x = pushedRisk params risk ((g.protectedGraph guarded).dist source node)}) (s.propagated node) := by
  have hstart : Searched (g.protectedGraph guarded) guarded params source risk base _ := searched_start hguarded
  have hsearched := spread_searched hw hrisk hlists fuel hstart h
  rw [hsearched.propagated node]
  by_cases hreaches : node ≠ source ∧ Reaches (g.protectedGraph guarded) params source risk node
  · rw [if_pos ((searched_done hw hrisk hsearched hdone node).mpr hreaches)]
    constructor
    · rcases max_choice (base node) (pushedRisk params risk ((g.protectedGraph guarded).dist source node)) with hmax | hmax
      · exact .inl hmax
      · exact .inr ⟨hreaches.1.symm, hreaches.2, hmax⟩
    · rintro x (rfl | ⟨-, -, rfl⟩)
      · exact le_max_left _ _
      · exact le_max_right _ _
  · rw [if_neg fun hin => hreaches ((searched_done hw hrisk hsearched hdone node).mp hin)]
    refine ⟨Set.mem_insert _ _, ?_⟩
    rintro x (rfl | ⟨hne, hx, -⟩)
    · exact le_refl _
    · exact absurd ⟨hne.symm, hx⟩ hreaches

theorem spreadAll_greatest (hw : Weakening params) (hlists : Lists topology g) (fuel : Nat) {sources : List (String × ℚ)}
    (hsources : ∀ e ∈ sources, guarded e.1 = true ∧ 0 < e.2)
    (hends : ∀ e ∈ sources, ∀ base s, spread params topology guarded fuel ⟨[e.1], [(e.1, e.2, 0)], base⟩ = .ok s →
      s.frontier = [])
    {base propagated : String → ℚ} (h : spreadAll params topology guarded fuel sources base = .ok propagated) (node : String) :
    IsGreatest (insert (base node) (Coming (g.protectedGraph guarded) params sources node)) (propagated node) := by
  induction sources generalizing base with
  | nil =>
    cases h
    have hnone : Coming (g.protectedGraph guarded) params [] node = ∅ := by simp [Coming]
    rw [hnone]
    exact ⟨Set.mem_insert _ _, by simp [upperBounds]⟩
  | cons e sources ih =>
    obtain ⟨source, risk⟩ := e
    rw [spreadAll] at h
    cases hspread : spread params topology guarded fuel ⟨[source], [(source, risk, 0)], base⟩ with
    | error err =>
      rw [hspread] at h
      cases h
    | ok s =>
      rw [hspread] at h
      obtain ⟨hguarded, hrisk⟩ := hsources _ List.mem_cons_self
      have hfirst := spread_greatest hw hlists hrisk hguarded hspread (hends _ List.mem_cons_self base s hspread) node
      have hrest := ih (fun e he => hsources e (List.mem_cons_of_mem _ he)) (fun e he => hends e (List.mem_cons_of_mem _ he)) h
      rw [coming_cons]
      exact greatest_union hfirst hrest

theorem spreadAll_ok (hw : Weakening params) (hlists : Lists topology g) (hnodes : ∀ node, guarded node = true → node ∈ g.nodes)
    (fuel : Nat) {sources : List (String × ℚ)} (hsources : ∀ e ∈ sources, guarded e.1 = true ∧ 0 < e.2) (base : String → ℚ) :
    ∃ propagated, spreadAll params topology guarded fuel sources base = .ok propagated := by
  induction sources generalizing base with
  | nil => exact ⟨base, rfl⟩
  | cons e sources ih =>
    obtain ⟨hguarded, hrisk⟩ := hsources _ List.mem_cons_self
    have hstart : Searched (g.protectedGraph guarded) guarded params e.1 e.2 base _ := searched_start hguarded
    obtain ⟨s, hs⟩ := spread_ok hw hrisk hlists hnodes fuel hstart
    rw [spreadAll, hs]
    exact ih (fun e he => hsources e (List.mem_cons_of_mem _ he)) s.propagated

end Sources

/-! ## The propagation -/

section Propagation

variable {abm : Abm ℚ} {g : DiGraph}

/-- The ways that risk may take. -/
def ways (abm : Abm ℚ) (g : DiGraph) : SimpleGraph String := g.protectedGraph abm.isProtected

/-- The risks that other protected devices push to a device. -/
def pushes (abm : Abm ℚ) (g : DiGraph) (node : String) : Set ℚ :=
  {x | ∃ st ∈ abm.states, st.isProtectedAsset = true ∧ st.nodeId ≠ node ∧ 0 < st.source ∧
    (ways abm g).Reachable st.nodeId node ∧ ((ways abm g).dist st.nodeId node : Int) ≤ abm.params.maxHops ∧
    x = pushedRisk abm.params st.source ((ways abm g).dist st.nodeId node) ∧ 1 / 10 ^ 9 < x}

theorem isProtected_iff (hids : (abm.states.map DeviceState.nodeId).Nodup) (node : String) :
    abm.isProtected node = true ↔ ∃ st ∈ abm.states, st.nodeId = node ∧ st.isProtectedAsset = true := by
  simp only [Abm.isProtected, Abm.resolve, Option.any_eq_true]
  constructor
  · rintro ⟨st, hst, hprotected⟩
    exact ⟨st, List.mem_of_find?_eq_some hst, by simpa using List.find?_some hst, hprotected⟩
  · rintro ⟨st, hst, hid, hprotected⟩
    have hsome : (abm.states.find? fun st => st.nodeId = node).isSome = true :=
      List.find?_isSome.mpr ⟨st, hst, decide_eq_true hid⟩
    obtain ⟨found, hfound⟩ := Option.isSome_iff_exists.mp hsome
    have hfoundId : found.nodeId = node := by simpa using List.find?_some hfound
    have hsame : found = st :=
      List.inj_on_of_nodup_map hids (List.mem_of_find?_eq_some hfound) hst (hfoundId.trans hid.symm)
    exact ⟨found, hfound, hsame ▸ hprotected⟩

theorem mem_sources {e : String × ℚ} : e ∈ abm.sources ↔
    ∃ st ∈ abm.states, st.isProtectedAsset = true ∧ 0 < st.source ∧ e = (st.nodeId, st.source) := by
  simp only [Abm.sources, List.mem_filterMap]
  refine exists_congr fun st => and_congr_right fun _ => ?_
  split
  · rename_i hsource
    rw [Bool.and_eq_true, decide_eq_true_eq] at hsource
    rw [Option.some_inj]
    exact ⟨fun h => ⟨hsource.1, hsource.2, h.symm⟩, fun h => h.2.2.symm⟩
  · rename_i hsource
    rw [Bool.and_eq_true, decide_eq_true_eq] at hsource
    refine ⟨fun h => ?_, fun h => absurd ⟨h.1, h.2.1⟩ hsource⟩
    cases h

theorem pushes_eq (node : String) : pushes abm g node = Coming (ways abm g) abm.params abm.sources node := by
  ext x
  constructor
  · rintro ⟨st, hst, hprotected, hne, hsource, hreach, hwithin, rfl, hnoticeable⟩
    exact ⟨(st.nodeId, st.source), (mem_sources).mpr ⟨st, hst, hprotected, hsource, rfl⟩, hne,
      ⟨hreach, hwithin, hnoticeable⟩, rfl⟩
  · rintro ⟨e, he, hne, hreaches, rfl⟩
    obtain ⟨st, hst, hprotected, hsource, rfl⟩ := (mem_sources).mp he
    exact ⟨st, hst, hprotected, hne, hsource, hreaches.reachable, hreaches.within, rfl, hreaches.noticeable⟩

theorem newPropagated_greatest (hlists : Lists abm.topology g) (hids : (abm.states.map DeviceState.nodeId).Nodup)
    (hw : Weakening abm.params) {propagated : String → ℚ} (h : abm.newPropagated = .ok propagated) (node : String) :
    IsGreatest (insert 0 (pushes abm g node)) (propagated node) := by
  rw [pushes_eq]
  refine spreadAll_greatest hw hlists abm.states.length ?_ ?_ h node
  · intro e he
    obtain ⟨st, hst, hprotected, hsource, rfl⟩ := (mem_sources).mp he
    exact ⟨(isProtected_iff hids _).mpr ⟨st, hst, rfl, hprotected⟩, hsource⟩
  · intro e he base s hspread
    exact propagate_searches_end abm he base s hspread

/-- Nothing comes to a device that is not protected. -/
theorem pushes_unprotected {node : String} (h : abm.isProtected node = false) : pushes abm g node = ∅ := by
  refine Set.eq_empty_of_forall_notMem ?_
  rintro x ⟨st, -, -, hne, -, hreach, -⟩
  obtain ⟨walk⟩ := hreach.symm
  cases walk with
  | nil => exact hne rfl
  | cons hadj _ =>
    rw [hadj.2.1] at h
    cases h

/-- All network and behaviour risks lie between zero and one. -/
def RisksIn (states : List (DeviceState ℚ)) : Prop :=
  ∀ st ∈ states, ∀ r, st.networkRisk = some r ∨ st.behaviorRisk = some r → 0 ≤ r ∧ r ≤ 1

theorem source_in (hrisks : RisksIn abm.states) {st : DeviceState ℚ} (hst : st ∈ abm.states) :
    0 ≤ st.source ∧ st.source ≤ 1 := by
  have hbounds : ∀ risk : Option ℚ, (∀ r, risk = some r → 0 ≤ r ∧ r ≤ 1) → 0 ≤ risk.getD 0 ∧ risk.getD 0 ≤ 1 := by
    intro risk h
    cases risk with
    | none => exact ⟨le_refl 0, zero_le_one⟩
    | some r => exact h r rfl
  have hnetwork := hbounds st.networkRisk fun r hr => hrisks st hst r (.inl hr)
  have hbehavior := hbounds st.behaviorRisk fun r hr => hrisks st hst r (.inr hr)
  exact ⟨le_max_of_le_left hnetwork.1, max_le hnetwork.2 hbehavior.2⟩

theorem propagated_in (hw : Weakening abm.params) (hrisks : RisksIn abm.states) {node : String} {x : ℚ}
    (hx : x ∈ insert 0 (pushes abm g node)) : 0 ≤ x ∧ x ≤ 1 := by
  rcases hx with rfl | ⟨st, hst, -, -, hsource, -, -, rfl, -⟩
  · exact ⟨le_refl 0, zero_le_one⟩
  · exact ⟨(pushedRisk_pos hw hsource _).le, pushedRisk_le_one hw hsource (source_in hrisks hst).2 _⟩

/-- The systemic risk is the greater of the direct and the propagated one. -/
theorem systemic_eq (hrisks : RisksIn abm.states) {st : DeviceState ℚ} (hst : st ∈ abm.states) {propagated : ℚ}
    (hpropagated : 0 ≤ propagated) : st.systemic propagated = max st.source propagated := by
  have hin := hrisks st hst
  unfold DeviceState.systemic DeviceState.source
  cases hnetwork : st.networkRisk with
  | none =>
    cases hbehavior : st.behaviorRisk with
    | none => exact (max_eq_right ((max_self (0 : ℚ)).trans_le hpropagated)).symm
    | some br =>
      have hbr := (hin br (.inr hbehavior)).1
      exact congrArg (max · propagated) (max_eq_right hbr).symm
  | some nr =>
    have hnr := (hin nr (.inl hnetwork)).1
    cases hbehavior : st.behaviorRisk with
    | none => exact congrArg (max · propagated) (max_eq_left hnr).symm
    | some br => rfl

theorem propagate_ok {abm' : Abm ℚ} (h : abm.propagate = .ok abm') : ∃ propagated, abm.newPropagated = .ok propagated ∧
    abm' = { abm with states := abm.states.map (DeviceState.refresh propagated) } := by
  unfold Abm.propagate at h
  cases hnew : abm.newPropagated with
  | error e =>
    rw [hnew] at h
    cases h
  | ok propagated =>
    rw [hnew] at h
    cases h
    exact ⟨propagated, rfl, rfl⟩

/-- What propagation is to leave of the devices. -/
structure ClosedForm (abm : Abm ℚ) (g : DiGraph) (abm' : Abm ℚ) : Prop where
  rest : abm' = { abm with states := abm'.states }
  states : List.Forall₂ (fun st st' : DeviceState ℚ =>
    st' = { st with propagatedRisk := st'.propagatedRisk, systemicRisk := st'.systemicRisk } ∧
      (st.isProtectedAsset = true → IsGreatest (insert 0 (pushes abm g st.nodeId)) st'.propagatedRisk) ∧
      (st.isProtectedAsset = false → st'.propagatedRisk = 0) ∧
      st'.systemicRisk = max st.source st'.propagatedRisk ∧ 0 ≤ st'.systemicRisk ∧ st'.systemicRisk ≤ 1)
    abm.states abm'.states

theorem refresh_closed (hlists : Lists abm.topology g) (hids : (abm.states.map DeviceState.nodeId).Nodup)
    (hw : Weakening abm.params) (hrisks : RisksIn abm.states) {propagated : String → ℚ}
    (h : abm.newPropagated = .ok propagated) :
    ClosedForm abm g { abm with states := abm.states.map (DeviceState.refresh propagated) } where
  rest := rfl
  states := by
    refine List.forall₂_map_right_iff.mpr (List.forall₂_same.mpr fun st hst => ?_)
    have hgreatest := newPropagated_greatest hlists hids hw h st.nodeId
    obtain ⟨hnonneg, hle⟩ := propagated_in hw hrisks hgreatest.1
    obtain ⟨hsource, hsourceLe⟩ := source_in hrisks hst
    have hsystemic : st.systemic (propagated st.nodeId) = max st.source (propagated st.nodeId) :=
      systemic_eq hrisks hst hnonneg
    refine ⟨rfl, fun _ => hgreatest, fun hunprotected => ?_, hsystemic, ?_, ?_⟩
    · have hnot : abm.isProtected st.nodeId = false := by
        rw [← Bool.not_eq_true, isProtected_iff hids]
        rintro ⟨st', hst', hid, hprotected⟩
        rw [List.inj_on_of_nodup_map hids hst' hst hid, hunprotected] at hprotected
        cases hprotected
      rw [pushes_unprotected hnot] at hgreatest
      rcases hgreatest.1 with hzero | hnone
      · exact hzero
      · cases hnone
    · change 0 ≤ st.systemic (propagated st.nodeId)
      rw [hsystemic]
      exact le_max_of_le_left hsource
    · change st.systemic (propagated st.nodeId) ≤ 1
      rw [hsystemic]
      exact max_le hsourceLe hle

/-- Neither the order of the devices nor that of the neighbours changes what is pushed. -/
theorem pushes_perm {other : Abm ℚ} (hids : (abm.states.map DeviceState.nodeId).Nodup) (hparams : other.params = abm.params)
    (hstates : other.states.Perm abm.states) : pushes other g = pushes abm g := by
  have hotherIds : (other.states.map DeviceState.nodeId).Nodup := (hstates.map _).nodup_iff.mpr hids
  have hprotected : other.isProtected = abm.isProtected := by
    funext node
    rw [Bool.eq_iff_iff, isProtected_iff hotherIds, isProtected_iff hids]
    exact exists_congr fun st => and_congr_left fun _ => hstates.mem_iff
  funext node
  ext x
  simp only [pushes, ways, hprotected, hparams, hstates.mem_iff]

/-- Propagation gives each protected device the greatest risk that comes to it on a shortest
way, whatever the order of the search. -/
theorem propagate_closed_form (abm : Abm ℚ) (g : DiGraph) (hlists : Lists abm.topology g)
    (hids : (abm.states.map DeviceState.nodeId).Nodup) (hw : Weakening abm.params) (hrisks : RisksIn abm.states) :
    ((∀ st ∈ abm.states, st.isProtectedAsset = true → st.nodeId ∈ g.nodes) → ∃ abm', abm.propagate = .ok abm') ∧
      ∀ abm', abm.propagate = .ok abm' → ClosedForm abm g abm' ∧ abm'.propagate = .ok abm' ∧
        ∀ other other' : Abm ℚ, other.params = abm.params → other.states.Perm abm.states → Lists other.topology g →
          other.propagate = .ok other' → other'.states.Perm abm'.states := by
  constructor
  · intro hnodes
    have hguarded : ∀ node, abm.isProtected node = true → node ∈ g.nodes := by
      intro node hnode
      obtain ⟨st, hst, rfl, hprotected⟩ := (isProtected_iff hids node).mp hnode
      exact hnodes st hst hprotected
    have hsources : ∀ e ∈ abm.sources, abm.isProtected e.1 = true ∧ 0 < e.2 := by
      intro e he
      obtain ⟨st, hst, hprotected, hsource, rfl⟩ := (mem_sources).mp he
      exact ⟨(isProtected_iff hids _).mpr ⟨st, hst, rfl, hprotected⟩, hsource⟩
    obtain ⟨propagated, h⟩ := spreadAll_ok hw hlists hguarded abm.states.length hsources fun _ => RiskNumber.zero
    refine ⟨{ abm with states := abm.states.map (DeviceState.refresh propagated) }, ?_⟩
    have hnew : abm.newPropagated = .ok propagated := h
    rw [Abm.propagate, hnew]
  · intro abm' h
    refine ⟨?_, propagate_again h, ?_⟩
    · obtain ⟨propagated, hnew, rfl⟩ := propagate_ok h
      exact refresh_closed hlists hids hw hrisks hnew
    · intro other other' hparams hstates hotherLists hother
      obtain ⟨propagated, hnew, rfl⟩ := propagate_ok h
      obtain ⟨propagated', hnew', rfl⟩ := propagate_ok hother
      have hotherIds : (other.states.map DeviceState.nodeId).Nodup := (hstates.map _).nodup_iff.mpr hids
      have hsame : propagated' = propagated := by
        funext node
        have hgreatest' := newPropagated_greatest hotherLists hotherIds (hparams ▸ hw) hnew' node
        rw [pushes_perm hids hparams hstates] at hgreatest'
        exact hgreatest'.unique (newPropagated_greatest hlists hids hw hnew node)
      rw [hsame]
      exact hstates.map _

def threeNodes : DiGraph := buildTopology ["rfid-sensor", "ap", "router"]

/-- A sensor under attack, beside it a device that passes its risk on, and the router. -/
def threeDevices : Abm ℚ :=
  let device : String → Option ℚ → DeviceState ℚ := fun nodeId networkRisk =>
    ⟨nodeId, "", true, false, false, networkRisk, none, networkRisk.isSome, false, 0, 0, false, none, none, none, none⟩
  { params := ⟨1 / 2, 1 / 2, 3, fun _ => 1 / 2⟩
    topology := threeNodes.allNeighbors
    historyLimit := 500
    states := [device "rfid-sensor" (some (9 / 10)), device "ap" none, device "router" (some (1 / 5))]
    history := []
    currentWindowId := none
    steps := 0 }

theorem threeDevices_closed_form : ∃ abm' : Abm ℚ, threeDevices.propagate = .ok abm' ∧
    ClosedForm threeDevices threeNodes abm' := by
  have htopology : threeDevices.topology = threeNodes.allNeighbors := by simp only [threeDevices]
  have hlists : Lists threeDevices.topology threeNodes := by
    rw [htopology]
    exact lists_allNeighbors threeNodes
  have hclosed := propagate_closed_form threeDevices threeNodes hlists (by decide)
    ⟨by decide +kernel, by decide +kernel, by decide +kernel, by decide +kernel⟩ (by
      intro st hst r hr
      simp only [threeDevices, List.mem_cons, List.not_mem_nil, or_false] at hst
      rcases hst with rfl | rfl | rfl <;> rcases hr with hr | hr <;> cases hr <;> decide +kernel)
  obtain ⟨abm', h⟩ := hclosed.1 fun st hst _ => mem_buildTopology (by
    simp only [threeDevices, List.mem_cons, List.not_mem_nil, or_false] at hst
    rcases hst with rfl | rfl | rfl <;> decide)
  exact ⟨abm', h, (hclosed.2 abm' h).1⟩

end Propagation

end RiskPropagation
