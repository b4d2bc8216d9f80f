import AgenticSoc.CommunicationCounts

/-!
# The communication graph

A node for every endpoint and an edge for every directed pair that a record shows. An edge
carries running totals; what the current window adds stands beside it until the next
window begins.
-/
namespace CommunicationGraph

open DeviceInventory Sorting

/-- The fields of a record that the graph reads. -/
structure CommunicationRecord where
  srcEntityId : String
  dstEntityId : String
  windowId : Int
  windowStartUtc : Option String
  packetCount : Int
  capturedByteCount : Int
  protocols : List String
  broadcastIndicator : Bool
  multicastIndicator : Bool
  deriving DecidableEq, Repr

abbrev Pair := String × String

def CommunicationRecord.pair (r : CommunicationRecord) : Pair := (r.srcEntityId, r.dstEntityId)

def externalPrefixes : List String := ["mac:", "ip:"]

def protocolCap : Nat := 32

structure NodeData where
  isProtectedAsset : Bool
  isAttacker : Bool
  role : String
  deriving DecidableEq, Repr

/-- What a node is, by the inventory or else by its name. -/
def nodeData (inventory : Inventory) (entityId : String) : NodeData :=
  match byName inventory entityId with
  | some rec =>
    { isProtectedAsset := rec.role ≠ "attacker" ∧ rec.role ≠ "cloud"
      isAttacker := rec.role = "attacker"
      role := rec.role }
  | none =>
    if entityId = "broadcast" ∨ entityId = "multicast" then ⟨false, false, entityId⟩
    else if externalPrefixes.any fun p => p.toList.isPrefixOf entityId.toList then ⟨false, false, "external"⟩
    else ⟨false, false, "unknown"⟩

structure EdgeData where
  packetCountTotal : Int
  capturedByteTotal : Int
  firstWindowId : Int
  lastWindowId : Int
  firstTimestampUtc : Option String
  lastTimestampUtc : Option String
  protocolsEver : List String
  broadcastEver : Bool
  multicastEver : Bool
  deriving DecidableEq, Repr

structure WindowDelta where
  packetCountDelta : Int
  capturedByteDelta : Int
  protocolsInWindow : Finset String
  deriving DecidableEq

structure Graph where
  nodes : List (String × NodeData)
  edges : AList fun _ : Pair => EdgeData
  recordsApplied : Nat
  currentWindowId : Option Int
  windowDeltas : AList fun _ : Pair => WindowDelta

def Graph.empty : Graph := ⟨[], ∅, 0, none, ∅⟩

def WindowDelta.zero : WindowDelta := ⟨0, 0, ∅⟩

def ensureNode (inventory : Inventory) (g : Graph) (entityId : String) : Graph :=
  if entityId ∈ g.nodes.map Prod.fst then g
  else { g with nodes := g.nodes ++ [(entityId, nodeData inventory entityId)] }

/-- The edge that a first record makes, before the record counts. -/
def EdgeData.new (r : CommunicationRecord) : EdgeData where
  packetCountTotal := 0
  capturedByteTotal := 0
  firstWindowId := r.windowId
  lastWindowId := r.windowId
  firstTimestampUtc := r.windowStartUtc
  lastTimestampUtc := r.windowStartUtc
  protocolsEver := []
  broadcastEver := false
  multicastEver := false

/-- A protocol is noted, in order, while there is room. -/
def noteProtocol (protocols : List String) (proto : String) : List String :=
  if proto ∈ protocols then protocols
  else if protocols.length < protocolCap then sortBy id (protocols ++ [proto])
  else protocols

def EdgeData.add (e : EdgeData) (r : CommunicationRecord) : EdgeData where
  packetCountTotal := e.packetCountTotal + r.packetCount
  capturedByteTotal := e.capturedByteTotal + r.capturedByteCount
  firstWindowId := if r.windowId < e.firstWindowId then r.windowId else e.firstWindowId
  lastWindowId := if e.lastWindowId < r.windowId then r.windowId else e.lastWindowId
  firstTimestampUtc := if r.windowId < e.firstWindowId then r.windowStartUtc else e.firstTimestampUtc
  lastTimestampUtc := if e.lastWindowId < r.windowId then r.windowStartUtc else e.lastTimestampUtc
  protocolsEver := r.protocols.foldl noteProtocol e.protocolsEver
  broadcastEver := e.broadcastEver || r.broadcastIndicator
  multicastEver := e.multicastEver || r.multicastIndicator

def WindowDelta.add (d : WindowDelta) (r : CommunicationRecord) : WindowDelta where
  packetCountDelta := d.packetCountDelta + r.packetCount
  capturedByteDelta := d.capturedByteDelta + r.capturedByteCount
  protocolsInWindow := d.protocolsInWindow ∪ r.protocols.toFinset

/-- The deltas of another window are dropped. -/
def beginWindow (g : Graph) (windowId : Int) : Graph :=
  if g.currentWindowId = some windowId then g
  else { g with currentWindowId := some windowId, windowDeltas := ∅ }

section Applying

variable (inventory : Inventory)

def apply (g : Graph) (r : CommunicationRecord) : Graph :=
  let g := ensureNode inventory (ensureNode inventory (beginWindow g r.windowId) r.srcEntityId) r.dstEntityId
  { g with
    edges := g.edges.insert r.pair (((g.edges.lookup r.pair).getD (.new r)).add r)
    windowDeltas := g.windowDeltas.insert r.pair (((g.windowDeltas.lookup r.pair).getD .zero).add r)
    recordsApplied := g.recordsApplied + 1 }

def applyMany (g : Graph) (records : List CommunicationRecord) : Graph := records.foldl (apply inventory) g

/-- What the runner does with the records of a window. -/
def playWindow (g : Graph) (window : Int × List CommunicationRecord) : Graph :=
  applyMany inventory (beginWindow g window.1) window.2

def play (windows : List (Int × List CommunicationRecord)) : Graph :=
  windows.foldl (playWindow inventory) .empty

end Applying

def getWindowDelta (g : Graph) (pair : Pair) : WindowDelta := (g.windowDeltas.lookup pair).getD .zero

/-! ## What an edge says of its records -/

/-- The records along a pair. -/
def along (pair : Pair) (records : List CommunicationRecord) : List CommunicationRecord :=
  records.filter fun r => r.pair = pair

def protocolsOf (records : List CommunicationRecord) : Finset String :=
  (records.flatMap CommunicationRecord.protocols).toFinset

/-- The protocols noted are some that were seen, in order, and all of them where there is room. -/
structure Noted (seen : Finset String) (protocols : List String) : Prop where
  ordered : protocols.Pairwise (· < ·)
  bounded : protocols.length ≤ protocolCap
  known : ∀ p ∈ protocols, p ∈ seen
  complete : seen.card ≤ protocolCap → ∀ p ∈ seen, p ∈ protocols

structure Summarises (records : List CommunicationRecord) (e : EdgeData) : Prop where
  packets : e.packetCountTotal = (records.map CommunicationRecord.packetCount).sum
  bytes : e.capturedByteTotal = (records.map CommunicationRecord.capturedByteCount).sum
  first : ∃ r ∈ records, r.windowId = e.firstWindowId ∧ r.windowStartUtc = e.firstTimestampUtc
  first_le : ∀ r ∈ records, e.firstWindowId ≤ r.windowId
  last : ∃ r ∈ records, r.windowId = e.lastWindowId ∧ r.windowStartUtc = e.lastTimestampUtc
  le_last : ∀ r ∈ records, r.windowId ≤ e.lastWindowId
  protocols : Noted (protocolsOf records) e.protocolsEver
  broadcast : e.broadcastEver = records.any CommunicationRecord.broadcastIndicator
  multicast : e.multicastEver = records.any CommunicationRecord.multicastIndicator

theorem noted_nil : Noted ∅ [] where
  ordered := .nil
  bounded := Nat.zero_le _
  known := fun _ h => nomatch h
  complete := fun _ _ h => absurd h (Finset.notMem_empty _)

theorem Noted.note {seen : Finset String} {protocols : List String} (h : Noted seen protocols) (proto : String) :
    Noted (insert proto seen) (noteProtocol protocols proto) := by
  unfold noteProtocol
  by_cases hin : proto ∈ protocols
  · rw [if_pos hin, Finset.insert_eq_of_mem (h.known proto hin)]
    exact h
  rw [if_neg hin]
  by_cases hroom : protocols.length < protocolCap
  · rw [if_pos hroom]
    have hnodup : ((protocols ++ [proto]).map id).Nodup := by
      rw [List.map_id, List.nodup_append]
      refine ⟨h.ordered.imp ne_of_lt, List.nodup_singleton _, fun p hp q hq => ?_⟩
      rw [List.mem_singleton.mp hq]
      exact fun he => hin (he ▸ hp)
    refine ⟨sortBy_strict hnodup, ?_, fun p hp => ?_, fun hcard p hp => ?_⟩
    · rw [(sortBy_perm id _).length_eq, List.length_append, List.length_singleton]
      omega
    · rcases List.mem_append.mp ((mem_sortBy).mp hp) with hp | hp
      · exact Finset.mem_insert_of_mem (h.known p hp)
      · rw [List.mem_singleton.mp hp]
        exact Finset.mem_insert_self _ _
    · rw [mem_sortBy, List.mem_append, List.mem_singleton]
      rcases Finset.mem_insert.mp hp with rfl | hp
      · exact .inr rfl
      · exact .inl (h.complete ((Finset.card_le_card (Finset.subset_insert _ _)).trans hcard) p hp)
  · rw [if_neg hroom]
    refine ⟨h.ordered, h.bounded, fun p hp => Finset.mem_insert_of_mem (h.known p hp), fun hcard => ?_⟩
    -- a full list and one more protocol do not fit under the cap
    have hfull : protocols.toFinset.card = protocols.length :=
      List.toFinset_card_of_nodup (h.ordered.imp ne_of_lt)
    have hsub : insert proto protocols.toFinset ⊆ insert proto seen :=
      Finset.insert_subset_insert _ fun p hp => h.known p (List.mem_toFinset.mp hp)
    have hle := Finset.card_le_card hsub
    rw [Finset.card_insert_of_notMem (by rwa [List.mem_toFinset]), hfull] at hle
    omega

theorem Noted.noteAll {seen : Finset String} {protocols : List String} (h : Noted seen protocols) (more : List String) :
    Noted (seen ∪ more.toFinset) (more.foldl noteProtocol protocols) := by
  induction more generalizing seen protocols with
  | nil => simpa using h
  | cons proto more ih =>
    have hstep := ih (h.note proto)
    rwa [Finset.insert_union, ← Finset.union_insert, ← List.toFinset_cons] at hstep

theorem protocolsOf_append (records : List CommunicationRecord) (r : CommunicationRecord) :
    protocolsOf (records ++ [r]) = protocolsOf records ∪ r.protocols.toFinset := by
  simp [protocolsOf, List.flatMap_append, List.toFinset_append]

theorem summarises_new (r : CommunicationRecord) : Summarises [r] ((EdgeData.new r).add r) where
  packets := by simp [EdgeData.add, EdgeData.new]
  bytes := by simp [EdgeData.add, EdgeData.new]
  first := ⟨r, by simp, by simp [EdgeData.add, EdgeData.new]⟩
  first_le := by simp [EdgeData.add, EdgeData.new]
  last := ⟨r, by simp, by simp [EdgeData.add, EdgeData.new]⟩
  le_last := by simp [EdgeData.add, EdgeData.new]
  protocols := by
    have h := noted_nil.noteAll r.protocols
    simpa [protocolsOf, EdgeData.add, EdgeData.new] using h
  broadcast := by simp [EdgeData.add, EdgeData.new]
  multicast := by simp [EdgeData.add, EdgeData.new]

/-- One more record. -/
theorem Summarises.add {records : List CommunicationRecord} {e : EdgeData} (h : Summarises records e)
    (r : CommunicationRecord) : Summarises (records ++ [r]) (e.add r) where
  packets := by simp [EdgeData.add, h.packets]
  bytes := by simp [EdgeData.add, h.bytes]
  first := by
    by_cases hlt : r.windowId < e.firstWindowId
    · exact ⟨r, by simp, by simp [EdgeData.add, hlt]⟩
    · obtain ⟨s, hs, hw, ht⟩ := h.first
      exact ⟨s, List.mem_append_left _ hs, by simp [EdgeData.add, hlt, hw, ht]⟩
  first_le := by
    intro s hs
    have hle : (e.add r).firstWindowId ≤ e.firstWindowId ∧ (e.add r).firstWindowId ≤ r.windowId := by
      simp only [EdgeData.add]
      split <;> omega
    rcases List.mem_append.mp hs with hs | hs
    · exact hle.1.trans (h.first_le s hs)
    · rw [List.mem_singleton.mp hs]
      exact hle.2
  last := by
    by_cases hlt : e.lastWindowId < r.windowId
    · exact ⟨r, by simp, by simp [EdgeData.add, hlt]⟩
    · obtain ⟨s, hs, hw, ht⟩ := h.last
      exact ⟨s, List.mem_append_left _ hs, by simp [EdgeData.add, hlt, hw, ht]⟩
  le_last := by
    intro s hs
    have hle : e.lastWindowId ≤ (e.add r).lastWindowId ∧ r.windowId ≤ (e.add r).lastWindowId := by
      simp only [EdgeData.add]
      split <;> omega
    rcases List.mem_append.mp hs with hs | hs
    · exact (h.le_last s hs).trans hle.1
    · rw [List.mem_singleton.mp hs]
      exact hle.2
  protocols := by
    rw [protocolsOf_append]
    exact h.protocols.noteAll r.protocols
  broadcast := by simp [EdgeData.add, h.broadcast]
  multicast := by simp [EdgeData.add, h.multicast]

/-! ## Records in their order -/

/-- What a graph has for a pair whose records are these. -/
def Shows (records : List CommunicationRecord) : Option EdgeData → Prop
  | none => records = []
  | some e => Summarises records e

theorem Shows.add {records : List CommunicationRecord} {data : Option EdgeData} (h : Shows records data)
    (r : CommunicationRecord) : Shows (records ++ [r]) (some ((data.getD (.new r)).add r)) := by
  cases data with
  | none =>
    have hnil : records = [] := h
    subst hnil
    exact summarises_new r
  | some e => exact Summarises.add h r

structure DeltaOf (records : List CommunicationRecord) (d : WindowDelta) : Prop where
  packets : d.packetCountDelta = (records.map CommunicationRecord.packetCount).sum
  bytes : d.capturedByteDelta = (records.map CommunicationRecord.capturedByteCount).sum
  protocols : d.protocolsInWindow = protocolsOf records

theorem deltaOf_zero : DeltaOf [] .zero := ⟨rfl, rfl, rfl⟩

theorem DeltaOf.add {records : List CommunicationRecord} {d : WindowDelta} (h : DeltaOf records d)
    (r : CommunicationRecord) : DeltaOf (records ++ [r]) (d.add r) where
  packets := by simp [WindowDelta.add, h.packets]
  bytes := by simp [WindowDelta.add, h.bytes]
  protocols := by rw [protocolsOf_append, ← h.protocols]; rfl

section Playing

variable (inventory : Inventory) (g : Graph)

@[simp] theorem beginWindow_edges (w : Int) : (beginWindow g w).edges = g.edges := by
  unfold beginWindow
  split <;> rfl

@[simp] theorem beginWindow_current (w : Int) : (beginWindow g w).currentWindowId = some w := by
  unfold beginWindow
  split
  · assumption
  · rfl

@[simp] theorem beginWindow_nodes (w : Int) : (beginWindow g w).nodes = g.nodes := by
  unfold beginWindow
  split <;> rfl

theorem beginWindow_same {w : Int} (h : g.currentWindowId = some w) : beginWindow g w = g := if_pos h

theorem beginWindow_other {w : Int} (h : g.currentWindowId ≠ some w) : (beginWindow g w).windowDeltas = ∅ := by
  rw [beginWindow, if_neg h]

@[simp] theorem ensureNode_edges (id : String) : (ensureNode inventory g id).edges = g.edges := by
  unfold ensureNode
  split <;> rfl

@[simp] theorem ensureNode_deltas (id : String) : (ensureNode inventory g id).windowDeltas = g.windowDeltas := by
  unfold ensureNode
  split <;> rfl

@[simp] theorem ensureNode_current (id : String) : (ensureNode inventory g id).currentWindowId = g.currentWindowId := by
  unfold ensureNode
  split <;> rfl

theorem apply_edges (r : CommunicationRecord) : (apply inventory g r).edges =
    g.edges.insert r.pair (((g.edges.lookup r.pair).getD (.new r)).add r) := by
  simp [apply]

theorem apply_current (r : CommunicationRecord) : (apply inventory g r).currentWindowId = some r.windowId := by
  simp [apply]

theorem apply_deltas {r : CommunicationRecord} (h : g.currentWindowId = some r.windowId) :
    (apply inventory g r).windowDeltas =
      g.windowDeltas.insert r.pair (((g.windowDeltas.lookup r.pair).getD .zero).add r) := by
  simp [apply, beginWindow_same g h]

theorem along_append (pair : Pair) (records : List CommunicationRecord) (r : CommunicationRecord) :
    along pair (records ++ [r]) = along pair records ++ if r.pair = pair then [r] else [] := by
  rw [along, List.filter_append, List.filter_singleton]
  simp only [along, Bool.cond_decide]

/-- One record. -/
theorem apply_shows {records : List CommunicationRecord}
    (h : ∀ pair, Shows (along pair records) (g.edges.lookup pair)) (r : CommunicationRecord) (pair : Pair) :
    Shows (along pair (records ++ [r])) ((apply inventory g r).edges.lookup pair) := by
  rw [apply_edges, along_append]
  by_cases hp : r.pair = pair
  · subst hp
    rw [AList.lookup_insert, if_pos rfl]
    exact (h r.pair).add r
  · rw [AList.lookup_insert_ne (Ne.symm hp), if_neg hp, List.append_nil]
    exact h pair

theorem applyMany_shows {records : List CommunicationRecord}
    (h : ∀ pair, Shows (along pair records) (g.edges.lookup pair)) (more : List CommunicationRecord) (pair : Pair) :
    Shows (along pair (records ++ more)) ((applyMany inventory g more).edges.lookup pair) := by
  induction more generalizing g records with
  | nil => simpa [applyMany] using h pair
  | cons r more ih =>
    have hstep := ih (apply inventory g r) (apply_shows inventory g h r)
    rwa [List.append_assoc, List.singleton_append] at hstep

/-- The edges of a replay say what its records say, whichever windows they came in. -/
theorem play_shows (windows : List (Int × List CommunicationRecord)) (pair : Pair) :
    Shows (along pair (windows.flatMap Prod.snd)) ((play inventory windows).edges.lookup pair) := by
  induction windows using List.reverseRecOn generalizing pair with
  | nil => exact rfl
  | append_singleton windows window ih =>
    rw [List.flatMap_append, play, List.foldl_append]
    have hbefore : ∀ pair, Shows (along pair (windows.flatMap Prod.snd))
        ((beginWindow (play inventory windows) window.1).edges.lookup pair) := by
      intro pair
      rw [beginWindow_edges]
      exact ih pair
    rw [List.flatMap_singleton]
    exact applyMany_shows inventory _ hbefore window.2 pair

/-! ## The current window -/

theorem apply_delta {records : List CommunicationRecord} {r : CommunicationRecord}
    (hcurrent : g.currentWindowId = some r.windowId)
    (h : ∀ pair, DeltaOf (along pair records) (getWindowDelta g pair)) (pair : Pair) :
    DeltaOf (along pair (records ++ [r])) (getWindowDelta (apply inventory g r) pair) := by
  rw [getWindowDelta, apply_deltas inventory g hcurrent, along_append]
  by_cases hp : r.pair = pair
  · subst hp
    rw [AList.lookup_insert, if_pos rfl]
    exact (h r.pair).add r
  · rw [AList.lookup_insert_ne (Ne.symm hp), if_neg hp, List.append_nil]
    exact h pair

theorem applyMany_delta {records more : List CommunicationRecord} {w : Int} (hcurrent : g.currentWindowId = some w)
    (h : ∀ pair, DeltaOf (along pair records) (getWindowDelta g pair)) (hmore : ∀ r ∈ more, r.windowId = w) :
    (applyMany inventory g more).currentWindowId = some w ∧
      ∀ pair, DeltaOf (along pair (records ++ more)) (getWindowDelta (applyMany inventory g more) pair) := by
  induction more generalizing g records with
  | nil => exact ⟨hcurrent, by simpa [applyMany] using h⟩
  | cons r more ih =>
    have hr : r.windowId = w := hmore r List.mem_cons_self
    have hstep := ih (apply inventory g r) (by rw [apply_current, hr])
      (apply_delta inventory g (by rw [hcurrent, hr]) h) fun s hs => hmore s (List.mem_cons_of_mem r hs)
    rwa [List.append_assoc, List.singleton_append] at hstep

/-- The windows of a replay ascend, and every record comes in its own. -/
structure Timely (windows : List (Int × List CommunicationRecord)) : Prop where
  ascending : (windows.map Prod.fst).Pairwise (· < ·)
  own : ∀ window ∈ windows, ∀ r ∈ window.2, r.windowId = window.1

theorem Timely.init {windows : List (Int × List CommunicationRecord)} {window : Int × List CommunicationRecord}
    (h : Timely (windows ++ [window])) : Timely windows where
  ascending := by
    have hasc := h.ascending
    rw [List.map_append, List.pairwise_append] at hasc
    exact hasc.1
  own := fun w hw => h.own w (List.mem_append_left _ hw)

theorem play_current {windows : List (Int × List CommunicationRecord)} (h : Timely windows) :
    (play inventory windows).currentWindowId = (windows.map Prod.fst).getLast? := by
  induction windows using List.reverseRecOn with
  | nil => rfl
  | append_singleton windows window ih =>
    rw [play, List.foldl_append, List.map_append, List.map_singleton, List.getLast?_append_of_ne_nil _ (List.cons_ne_nil _ _),
      List.getLast?_singleton]
    have hmore := h.own window (List.mem_append_right _ (List.mem_singleton_self _))
    generalize windows.foldl (playWindow inventory) Graph.empty = g
    have hrun : ∀ (rows : List CommunicationRecord) (g : Graph), g.currentWindowId = some window.1 →
        (∀ r ∈ rows, r.windowId = window.1) → (applyMany inventory g rows).currentWindowId = some window.1 := by
      intro rows
      induction rows with
      | nil => exact fun g hg _ => hg
      | cons r rows ih =>
        intro g _ hrows
        refine ih (apply inventory g r) ?_ fun s hs => hrows s (List.mem_cons_of_mem r hs)
        rw [apply_current, hrows r List.mem_cons_self]
    exact hrun window.2 _ (beginWindow_current g window.1) hmore

/-- Beside the totals stands what the last window added, and nothing of the windows before it. -/
theorem play_delta {windows : List (Int × List CommunicationRecord)} {w : Int} {rows : List CommunicationRecord}
    (h : Timely (windows ++ [(w, rows)])) (pair : Pair) :
    DeltaOf (along pair rows) (getWindowDelta (play inventory (windows ++ [(w, rows)])) pair) := by
  have hother : (play inventory windows).currentWindowId ≠ some w := by
    rw [play_current inventory h.init]
    intro hlast
    have hasc := h.ascending
    rw [List.map_append, List.pairwise_append] at hasc
    exact lt_irrefl w (hasc.2.2 w (List.mem_of_getLast? hlast) w (List.mem_singleton_self w))
  rw [play, List.foldl_append]
  have hbegun : ∀ pair, DeltaOf (along pair []) (getWindowDelta (beginWindow (play inventory windows) w) pair) := by
    intro pair
    rw [getWindowDelta, beginWindow_other _ hother]
    exact deltaOf_zero
  exact (applyMany_delta inventory _ (beginWindow_current _ _) hbegun (h.own (w, rows) (by simp))).2 pair

end Playing

/-! ## From packets to edges -/

section Counting

open EventWindows LiveTables WatermarkedTables FeatureStatistics NetworkFeatures Collecting
open CommunicationRecords (CommunicationRow CommunicationSetup CommunicationWindowManager CommunicationEdgeAccumulator
  EdgeKey edgeKey Direction newEdge countEdge isMulticastIpv4)
open CommunicationCounts (windowOf RowOf managed)

variable (L : Library) (S : CommunicationSetup)

def recordOf (row : CommunicationRow) : CommunicationRecord where
  srcEntityId := row.src.entityId
  dstEntityId := row.dst.entityId
  windowId := row.windowId
  windowStartUtc := some row.windowStartUtc
  packetCount := row.packetCount
  capturedByteCount := row.capturedByteCount
  protocols := row.protocols
  broadcastIndicator := row.broadcastIndicator
  multicastIndicator := row.multicastIndicator

/-- The packets that run along a pair. -/
def packetsAlong (pair : Pair) (packets : List Packet) : List Packet :=
  packets.filter fun p => edgeKey (S.direction L p) = toLex pair

def inWindow (w : Int) (packets : List Packet) : List Packet := packets.filter fun p => windowOf S p = w

def protocolOf (p : Packet) : String := p.view.l3Proto.text

def isBroadcast (p : Packet) : Bool := p.view.dstMac = broadcastMac

def isMulticast (p : Packet) : Bool := isMulticastIpv4 p.view.dstIp

/-- What a record says of the packets of its cell. -/
structure RecordCounts (packets : List Packet) (r : CommunicationRecord) : Prop where
  count : r.packetCount = packets.length
  bytes : r.capturedByteCount = (packets.map fun p => (p.caplen : Int)).sum
  protocols : r.protocols.toFinset = (packets.map protocolOf).toFinset
  broadcast : r.broadcastIndicator = packets.any isBroadcast
  multicast : r.multicastIndicator = packets.any isMulticast

theorem countEdges (fed : List (Direction × Packet)) (edge : CommunicationEdgeAccumulator) :
    ((fed.foldl countEdge edge).capturedByteCount : Int) =
        edge.capturedByteCount + (fed.map fun f => (f.2.caplen : Int)).sum ∧
      (∀ p, p ∈ (fed.foldl countEdge edge).protocolCounts.keys ↔
        p ∈ edge.protocolCounts.keys ∨ p ∈ fed.map fun f => protocolOf f.2) ∧
      (fed.foldl countEdge edge).broadcastSeen = (edge.broadcastSeen || fed.any fun f => isBroadcast f.2) ∧
      (fed.foldl countEdge edge).multicastSeen = (edge.multicastSeen || fed.any fun f => isMulticast f.2) := by
  induction fed generalizing edge with
  | nil => simp
  | cons f fed ih =>
    obtain ⟨hbytes, hprotocols, hbroadcast, hmulticast⟩ := ih (countEdge edge f)
    rw [List.foldl_cons]
    refine ⟨?_, fun p => ?_, ?_, ?_⟩
    · rw [hbytes]
      simp only [countEdge, CommunicationRecords.update, List.map_cons, List.sum_cons]
      push_cast
      omega
    · rw [hprotocols]
      simp only [countEdge, CommunicationRecords.update, Counter.bump, ← AList.mem_keys, AList.mem_insert, List.map_cons,
        List.mem_cons, protocolOf]
      tauto
    · rw [hbroadcast]
      simp [countEdge, CommunicationRecords.update, isBroadcast, Bool.or_assoc]
    · rw [hmulticast]
      simp [countEdge, CommunicationRecords.update, isMulticast, Bool.or_assoc]

theorem feedsAt_packets (packets : List Packet) (w : Int) (pair : Pair) :
    feedsAt (w, toLex pair) (feedsOf (windowOf S) (S.feeds L) packets) =
      (inWindow S w (packetsAlong L S pair packets)).map fun p => (S.direction L p, p) := by
  induction packets with
  | nil => rfl
  | cons p packets ih =>
    have hsplit : feedsOf (windowOf S) (S.feeds L) (p :: packets) =
        ((windowOf S p, edgeKey (S.direction L p)), (S.direction L p, p)) :: feedsOf (windowOf S) (S.feeds L) packets := rfl
    rw [hsplit, feedsAt, List.filter_cons]
    by_cases hpair : edgeKey (S.direction L p) = toLex pair
    · by_cases hw : windowOf S p = w
      · simpa [packetsAlong, inWindow, hpair, hw, feedsAt] using ih
      · simpa [packetsAlong, inWindow, hpair, hw, feedsAt] using ih
    · simpa [packetsAlong, inWindow, hpair, feedsAt] using ih

/-- The record of a row of the manager says what the packets of its cell are. -/
theorem recordOf_counts {packets : List Packet} {row : CommunicationRow} {w : Int} {pair : Pair}
    {acc : CommunicationEdgeAccumulator} (hrow : RowOf L S row ((w, toLex pair), acc))
    (hbook : bookOf newEdge countEdge (feedsOf (windowOf S) (S.feeds L) packets) (w, toLex pair) = some acc) :
    (recordOf row).pair = pair ∧ (recordOf row).windowId = w ∧
      inWindow S w (packetsAlong L S pair packets) ≠ [] ∧
      RecordCounts (inWindow S w (packetsAlong L S pair packets)) (recordOf row) := by
  obtain ⟨f, fs, hfed, hacc⟩ := bookOf_some newEdge countEdge hbook
  have hcells := (feedsAt_packets L S packets w pair).symm.trans hfed
  generalize inWindow S w (packetsAlong L S pair packets) = cell at hcells
  obtain ⟨hbytes, hprotocols, hbroadcast, hmulticast⟩ := countEdges (f :: fs) (newEdge (w, toLex pair) f)
  have hcount := (CommunicationCounts.count_fold (f :: fs) (newEdge (w, toLex pair) f)).1
  rw [← hacc, ← hcells] at hbytes hprotocols hbroadcast hmulticast hcount
  obtain ⟨hfinal, hwid, hkey⟩ := hrow
  subst hfinal
  refine ⟨?_, hwid, ?_, ?_⟩
  · exact congrArg ofLex hkey
  · rintro rfl
    cases hcells
  · refine ⟨?_, ?_, ?_, ?_, ?_⟩
    · simp only [recordOf, CommunicationSetup.finalize]
      rw [hcount]
      simp [newEdge, CommunicationEdgeAccumulator.new]
    · simp only [recordOf, CommunicationSetup.finalize]
      rw [hbytes]
      simp [newEdge, CommunicationEdgeAccumulator.new, List.map_map, Function.comp_def]
    · simp only [recordOf, CommunicationSetup.finalize]
      ext p
      rw [List.mem_toFinset, Finset.mem_sort, List.mem_toFinset, hprotocols]
      simp [newEdge, CommunicationEdgeAccumulator.new]
    · simp only [recordOf, CommunicationSetup.finalize]
      rw [hbroadcast]
      simp [newEdge, CommunicationEdgeAccumulator.new, List.any_map, Function.comp_def]
    · simp only [recordOf, CommunicationSetup.finalize]
      rw [hmulticast]
      simp [newEdge, CommunicationEdgeAccumulator.new, List.any_map, Function.comp_def]

/-- The records along a pair share out its packets by windows. -/
structure SharedOut (packets : List Packet) (records : List CommunicationRecord) : Prop where
  ids : (records.map CommunicationRecord.windowId).Nodup
  covered : ∀ p ∈ packets, windowOf S p ∈ records.map CommunicationRecord.windowId
  occupied : ∀ r ∈ records, inWindow S r.windowId packets ≠ []
  counts : ∀ r ∈ records, RecordCounts (inWindow S r.windowId packets) r

theorem SharedOut.perm {packets : List Packet} {records records' : List CommunicationRecord}
    (h : SharedOut S packets records) (hp : records.Perm records') : SharedOut S packets records' where
  ids := (hp.map _).nodup_iff.mp h.ids
  covered := fun p hpk => (hp.map _).mem_iff.mp (h.covered p hpk)
  occupied := fun r hr => h.occupied r (hp.mem_iff.mpr hr)
  counts := fun r hr => h.counts r (hp.mem_iff.mpr hr)

theorem managed_records {lateness : Nat} {packets : List Packet} {rows : List CommunicationRow}
    {m : CommunicationWindowManager}
    (h : collect (CommunicationWindowManager.add L) (.new S lateness) packets = .ok (rows, m)) (pair : Pair) :
    SharedOut S (packetsAlong L S pair packets) (along pair ((rows ++ (m.finish L).1).map recordOf)) := by
  obtain ⟨cells, hnodup, hcells, hrel⟩ := (managed L S).rows_of_run ⟨rfl, rfl, counting_new _ _⟩ h
  generalize rows ++ (m.finish L).1 = all at hrel ⊢
  have hkeys : all.map (fun row => ((recordOf row).windowId, (recordOf row).pair)) = cells.map fun c => (c.1.1, ofLex c.1.2) :=
    map_related (fun row c hc => by rw [← hc.2.1, ← hc.2.2, hc.1]; rfl) hrel
  have hdistinct : (all.map fun row => ((recordOf row).windowId, (recordOf row).pair)).Nodup := by
    rw [hkeys]
    have hinj : Function.Injective fun k : Int × EdgeKey => (k.1, ofLex k.2) := fun _ _ he => he
    simpa [List.map_map, Function.comp_def] using hnodup.map hinj
  have hrecord : ∀ r ∈ along pair (all.map recordOf), inWindow S r.windowId (packetsAlong L S pair packets) ≠ [] ∧
      RecordCounts (inWindow S r.windowId (packetsAlong L S pair packets)) r := by
    intro r hr
    obtain ⟨hr, hpair⟩ := List.mem_filter.mp hr
    obtain ⟨row, hrow, rfl⟩ := List.mem_map.mp hr
    obtain ⟨⟨⟨w, key⟩, acc⟩, hc, hrowOf⟩ := exists_related hrel hrow
    have hbook : bookOf newEdge countEdge (feedsOf (windowOf S) (S.feeds L) packets) (w, toLex (ofLex key)) = some acc :=
      (hcells _ _).mp hc
    obtain ⟨hp, hw, hne, hcounts⟩ := recordOf_counts L S hrowOf hbook
    rw [of_decide_eq_true hpair] at hp
    subst hp
    rw [hw]
    exact ⟨hne, hcounts⟩
  refine ⟨?_, fun p hp => ?_, fun r hr => (hrecord r hr).1, fun r hr => (hrecord r hr).2⟩
  · have hsub : ((along pair (all.map recordOf)).map fun r => (r.windowId, r.pair)).Nodup := by
      refine List.Nodup.sublist (List.filter_sublist.map _) ?_
      simpa [List.map_map, Function.comp_def] using hdistinct
    rw [List.Nodup, List.pairwise_map] at hsub ⊢
    refine hsub.imp_of_mem fun {a b} ha hb hab he => hab ?_
    rw [he, of_decide_eq_true (List.mem_filter.mp ha).2, of_decide_eq_true (List.mem_filter.mp hb).2]
  · obtain ⟨hp, hpair⟩ := List.mem_filter.mp hp
    have hfed : ((windowOf S p, edgeKey (S.direction L p)), (S.direction L p, p)) ∈ feedsOf (windowOf S) (S.feeds L) packets :=
      (mem_feedsOf).mpr ⟨p, hp, _, List.mem_singleton_self _, rfl⟩
    obtain ⟨acc, hbook⟩ := bookOf_fed newEdge countEdge hfed
    have hmem : (windowOf S p, pair) ∈ cells.map fun c => (c.1.1, ofLex c.1.2) :=
      List.mem_map.mpr ⟨_, (hcells _ _).mpr hbook, by rw [of_decide_eq_true hpair]; rfl⟩
    rw [← hkeys] at hmem
    obtain ⟨row, hrow, he⟩ := List.mem_map.mp hmem
    rw [Prod.mk.injEq] at he
    exact List.mem_map.mpr ⟨recordOf row,
      List.mem_filter.mpr ⟨List.mem_map_of_mem hrow, decide_eq_true he.2⟩, he.1⟩

/-- A sum over groups with different keys that leave nothing out. -/
theorem sum_groups {α κ : Type} [DecidableEq κ] (key : α → κ) (g : α → Int) {ks : List κ} (hks : ks.Nodup) {l : List α}
    (hall : ∀ a ∈ l, key a ∈ ks) : (ks.map fun k => ((l.filter fun a => key a = k).map g).sum).sum = (l.map g).sum := by
  induction ks generalizing l with
  | nil =>
    cases l with
    | nil => rfl
    | cons a l => exact nomatch hall a List.mem_cons_self
  | cons k ks ih =>
    obtain ⟨hk, hks⟩ := List.nodup_cons.mp hks
    have hrest := ih hks (l := l.filter fun a => ¬ key a = k) fun a ha => by
      obtain ⟨ha, hne⟩ := List.mem_filter.mp ha
      exact (List.mem_cons.mp (hall a ha)).resolve_left (of_decide_eq_true hne)
    have hsame : ∀ k' ∈ ks, (l.filter fun a => ¬ key a = k).filter (fun a => key a = k') = l.filter fun a => key a = k' := by
      intro k' hk'
      rw [List.filter_filter]
      refine List.filter_congr fun a _ => ?_
      by_cases he : key a = k'
      · have hne : ¬ k' = k := fun h => hk (h ▸ hk')
        simp [he, hne]
      · simp [he]
    have hsum : (l.map g).sum =
        ((l.filter fun a => key a = k).map g).sum + ((l.filter fun a => ¬ key a = k).map g).sum := by
      clear hrest hsame ih hall
      induction l with
      | nil => rfl
      | cons a l ih =>
        by_cases he : key a = k <;> simp [he, ih] <;> omega
    rw [List.map_cons, List.sum_cons, hsum, ← hrest]
    congr 2
    exact List.map_congr_left fun k' hk' => by rw [hsame k' hk']

/-- What an edge says of the packets along it. -/
structure EdgeCounts (packets : List Packet) (e : EdgeData) : Prop where
  count : e.packetCountTotal = packets.length
  bytes : e.capturedByteTotal = (packets.map fun p => (p.caplen : Int)).sum
  first : ∃ p ∈ packets, windowOf S p = e.firstWindowId
  first_le : ∀ p ∈ packets, e.firstWindowId ≤ windowOf S p
  last : ∃ p ∈ packets, windowOf S p = e.lastWindowId
  le_last : ∀ p ∈ packets, windowOf S p ≤ e.lastWindowId
  protocols : Noted (packets.map protocolOf).toFinset e.protocolsEver
  broadcast : e.broadcastEver = packets.any isBroadcast
  multicast : e.multicastEver = packets.any isMulticast

section Shared

variable {S} {packets : List Packet} {records : List CommunicationRecord} (h : SharedOut S packets records)

include h

theorem SharedOut.sum (f : CommunicationRecord → Int) (g : Packet → Int)
    (hf : ∀ cell r, RecordCounts cell r → f r = (cell.map g).sum) : (records.map f).sum = (packets.map g).sum := by
  rw [← sum_groups (windowOf S) g h.ids h.covered, List.map_map]
  exact congrArg List.sum (List.map_congr_left fun r hr => hf _ r (h.counts r hr))

/-- Some record has what some packet of its cell has. -/
theorem SharedOut.exists_iff {P : CommunicationRecord → Prop} {Q : Packet → Prop}
    (hP : ∀ cell r, RecordCounts cell r → (P r ↔ ∃ p ∈ cell, Q p)) : (∃ r ∈ records, P r) ↔ ∃ p ∈ packets, Q p := by
  constructor
  · rintro ⟨r, hr, hPr⟩
    obtain ⟨p, hp, hQ⟩ := (hP _ r (h.counts r hr)).mp hPr
    exact ⟨p, List.mem_of_mem_filter hp, hQ⟩
  · rintro ⟨p, hp, hQ⟩
    obtain ⟨r, hr, hw⟩ := List.mem_map.mp (h.covered p hp)
    exact ⟨r, hr, (hP _ r (h.counts r hr)).mpr ⟨p, List.mem_filter.mpr ⟨hp, decide_eq_true hw.symm⟩, hQ⟩⟩

theorem SharedOut.protocols : protocolsOf records = (packets.map protocolOf).toFinset := by
  ext proto
  have hcell : ∀ cell r, RecordCounts cell r → (proto ∈ r.protocols ↔ ∃ p ∈ cell, protocolOf p = proto) := by
    intro cell r hr
    rw [← List.mem_toFinset, hr.protocols, List.mem_toFinset, List.mem_map]
  simpa [protocolsOf] using h.exists_iff hcell

theorem SharedOut.any (f : CommunicationRecord → Bool) (g : Packet → Bool)
    (hf : ∀ cell r, RecordCounts cell r → f r = cell.any g) : records.any f = packets.any g := by
  rw [Bool.eq_iff_iff, List.any_eq_true, List.any_eq_true]
  exact h.exists_iff fun cell r hr => by rw [hf cell r hr, List.any_eq_true]

theorem SharedOut.edgeCounts {e : EdgeData} (he : Summarises records e) : EdgeCounts S packets e where
  count := by
    rw [he.packets, h.sum _ (fun _ => 1) fun cell r hr => by rw [hr.count]; simp]
    simp
  bytes := by rw [he.bytes, h.sum _ _ fun cell r hr => hr.bytes]
  first := by
    obtain ⟨r, hr, hw, -⟩ := he.first
    obtain ⟨p, hp⟩ := List.exists_mem_of_ne_nil _ (h.occupied r hr)
    obtain ⟨hp, hpw⟩ := List.mem_filter.mp hp
    exact ⟨p, hp, (of_decide_eq_true hpw).trans hw⟩
  first_le := fun p hp => by
    obtain ⟨r, hr, hw⟩ := List.mem_map.mp (h.covered p hp)
    exact hw ▸ he.first_le r hr
  last := by
    obtain ⟨r, hr, hw, -⟩ := he.last
    obtain ⟨p, hp⟩ := List.exists_mem_of_ne_nil _ (h.occupied r hr)
    obtain ⟨hp, hpw⟩ := List.mem_filter.mp hp
    exact ⟨p, hp, (of_decide_eq_true hpw).trans hw⟩
  le_last := fun p hp => by
    obtain ⟨r, hr, hw⟩ := List.mem_map.mp (h.covered p hp)
    exact hw ▸ he.le_last r hr
  protocols := h.protocols ▸ he.protocols
  broadcast := by rw [he.broadcast, h.any _ _ fun cell r hr => hr.broadcast]
  multicast := by rw [he.multicast, h.any _ _ fun cell r hr => hr.multicast]

end Shared

/-- Of the windows that a predicate picks, the records share out the packets. -/
theorem SharedOut.filter {packets : List Packet} {records : List CommunicationRecord} (h : SharedOut S packets records)
    (pick : Int → Bool) :
    SharedOut S (packets.filter fun p => pick (windowOf S p)) (records.filter fun r => pick r.windowId) := by
  have hcell : ∀ r ∈ records.filter fun r => pick r.windowId, r ∈ records ∧
      inWindow S r.windowId (packets.filter fun p => pick (windowOf S p)) = inWindow S r.windowId packets := by
    intro r hr
    obtain ⟨hr, hpick⟩ := List.mem_filter.mp hr
    refine ⟨hr, ?_⟩
    rw [inWindow, List.filter_filter, inWindow]
    refine List.filter_congr fun p _ => ?_
    by_cases hw : windowOf S p = r.windowId
    · simp [hw, hpick]
    · simp [hw]
  refine ⟨h.ids.sublist (List.filter_sublist.map _), fun p hp => ?_, fun r hr => ?_, fun r hr => ?_⟩
  · obtain ⟨hp, hpick⟩ := List.mem_filter.mp hp
    obtain ⟨r, hr, he⟩ := List.mem_map.mp (h.covered p hp)
    exact List.mem_map.mpr ⟨r, List.mem_filter.mpr ⟨hr, by rw [he]; exact hpick⟩, he⟩
  · rw [(hcell r hr).2]
    exact h.occupied r (hcell r hr).1
  · rw [(hcell r hr).2]
    exact h.counts r (hcell r hr).1

/-- An edge stands for the packets along it; without packets there is no edge. -/
def EdgeStands (packets : List Packet) : Option EdgeData → Prop
  | none => packets = []
  | some e => EdgeCounts S packets e

theorem SharedOut.edgeStands {packets : List Packet} {records : List CommunicationRecord} (h : SharedOut S packets records)
    {data : Option EdgeData} (hshows : Shows records data) : EdgeStands S packets data := by
  cases data with
  | none =>
    have hnil : records = [] := hshows
    subst hnil
    exact List.eq_nil_iff_forall_not_mem.mpr fun p hp => nomatch h.covered p hp
  | some e => exact h.edgeCounts hshows

/-- A delta stands for the packets of its window. -/
structure DeltaCounts (packets : List Packet) (d : WindowDelta) : Prop where
  count : d.packetCountDelta = packets.length
  bytes : d.capturedByteDelta = (packets.map fun p => (p.caplen : Int)).sum
  protocols : d.protocolsInWindow = (packets.map protocolOf).toFinset

theorem SharedOut.deltaCounts {packets : List Packet} {records : List CommunicationRecord} (h : SharedOut S packets records)
    {d : WindowDelta} (hd : DeltaOf records d) : DeltaCounts packets d where
  count := by
    rw [hd.packets, h.sum _ (fun _ => 1) fun cell r hr => by rw [hr.count]; simp]
    simp
  bytes := by rw [hd.bytes, h.sum _ _ fun cell r hr => hr.bytes]
  protocols := by rw [hd.protocols, h.protocols]

end Counting

end CommunicationGraph
