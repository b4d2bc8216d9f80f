import AgenticSoc.CommunicationRecords

/-!
# What a communication manager counts

A packet runs along one edge, and its accumulator keeps the ends that it was made for.
-/
namespace CommunicationCounts

open EventWindows LiveTables WatermarkedTables FeatureStatistics NetworkFeatures CommunicationRecords Collecting

variable (L : Library) (S : CommunicationSetup)

/-- The window of a packet. -/
def windowOf (packet : Packet) : Int := S.grid.windowOf S.clockToleranceNs packet.tsNs

def edgesOf (packet : Packet) : List EdgeKey := (S.feeds L packet).map Prod.fst

theorem edgesOf_nodup (packet : Packet) : (edgesOf L S packet).Nodup := List.nodup_singleton _

def RowOf (row : CommunicationRow) (cell : (Int × EdgeKey) × CommunicationEdgeAccumulator) : Prop :=
  row = S.finalize L cell.2 ∧ cell.2.windowId = cell.1.1 ∧ edgeKey ⟨cell.2.src, cell.2.dst⟩ = cell.1.2

theorem RowOf.key {row : CommunicationRow} {cell : (Int × EdgeKey) × CommunicationEdgeAccumulator} (h : RowOf L S row cell) :
    row.key = cell.1 := by
  obtain ⟨rfl, hw, hd⟩ := h
  exact Prod.ext hw hd

theorem count_fold (fed : List (Direction × Packet)) (edge : CommunicationEdgeAccumulator) :
    (fed.foldl countEdge edge).packetCount = edge.packetCount + fed.length ∧
      (fed.foldl countEdge edge).windowId = edge.windowId ∧ (fed.foldl countEdge edge).src = edge.src ∧
      (fed.foldl countEdge edge).dst = edge.dst := by
  induction fed generalizing edge with
  | nil => simp
  | cons f fed ih =>
    obtain ⟨hn, hw, hs, hd⟩ := ih (countEdge edge f)
    rw [List.foldl_cons, List.length_cons]
    refine ⟨?_, hw, hs, hd⟩
    rw [hn]
    simp only [countEdge, CommunicationRecords.update]
    omega

/-- What is fed to an edge runs along it. -/
theorem feeds_direction {packets : List Packet} {k : Int × EdgeKey} {f : Direction × Packet} {fs : List (Direction × Packet)}
    (h : feedsAt k (feedsOf (windowOf S) (S.feeds L) packets) = f :: fs) : edgeKey f.1 = k.2 := by
  have hmem : f ∈ feedsAt k (feedsOf (windowOf S) (S.feeds L) packets) := h ▸ List.mem_cons_self
  obtain ⟨g, hg, rfl⟩ := List.mem_map.mp hmem
  obtain ⟨hg, hk⟩ := List.mem_filter.mp hg
  obtain ⟨packet, -, e, he, rfl⟩ := (mem_feedsOf).mp hg
  rw [← of_decide_eq_true hk]
  rw [List.mem_singleton.mp he]

/-- Rows made of edges that hold what was fed to them. -/
theorem rows_of_cells {cells : List ((Int × EdgeKey) × CommunicationEdgeAccumulator)} {packets : List Packet}
    (h : ∀ c ∈ cells, bookOf newEdge countEdge (feedsOf (windowOf S) (S.feeds L) packets) c.1 = some c.2) :
    List.Forall₂ (RowOf L S) (cells.map fun cell => S.finalize L cell.2) cells := by
  rw [List.forall₂_map_left_iff, List.forall₂_same]
  intro c hc
  obtain ⟨f, fs, hfs, hacc⟩ := bookOf_some newEdge countEdge (h c hc)
  obtain ⟨-, hw, hs, hd⟩ := count_fold (f :: fs) (newEdge c.1 f)
  rw [← hacc] at hw hs hd
  refine ⟨rfl, hw, ?_⟩
  rw [hs, hd]
  exact feeds_direction L S hfs

theorem add_ok {m m' : CommunicationWindowManager} {packet : Packet} {rows : List CommunicationRow}
    (h : m.add L packet = .ok (rows, m')) :
    m.tracker.ensureAcceptable (windowOf m.toCommunicationSetup packet) "communication packet" = .ok () ∧
      m'.toCommunicationSetup = m.toCommunicationSetup ∧
      m'.diagnostics.packetsSeen = m.diagnostics.packetsSeen + 1 ∧
      ∃ due, due = finalizeDue (m.tracker.observe packet.tsNs (windowOf m.toCommunicationSetup packet)).2
          (((m.feeds L packet).map fun f => ((windowOf m.toCommunicationSetup packet, f.1), f.2)).foldl
            (feedTable newEdge countEdge) m.edges) ∧
        rows = due.cells.map (fun cell => m.finalize L cell.2) ∧ m'.edges = due.live ∧ m'.tracker = due.tracker := by
  simp only [CommunicationWindowManager.add, CommunicationWindowManager.addPacket] at h
  cases hok : m.tracker.ensureAcceptable (windowOf m.toCommunicationSetup packet) "communication packet" with
  | error e =>
    simp only [windowOf, WindowGrid.windowOf] at hok
    rw [hok] at h
    cases h
  | ok u =>
    simp only [windowOf, WindowGrid.windowOf] at hok
    rw [hok] at h
    change (if _ then _ else _) = _ at h
    split at h
    · cases h
    · cases h
      exact ⟨rfl, rfl, rfl, _, rfl, rfl, rfl, rfl⟩

/-- A packet is refused by the watermark or by the capacity. -/
theorem add_error {m : CommunicationWindowManager} {packet : Packet} {err : ExtractionError}
    (h : m.add L packet = .error err) :
    err.isOlder = true ∨ ∃ live capacity wid, err = .capacityExceeded live capacity wid := by
  simp only [CommunicationWindowManager.add, CommunicationWindowManager.addPacket] at h
  cases hok : m.tracker.ensureAcceptable (windowOf m.toCommunicationSetup packet) "communication packet" with
  | error e =>
    have holder := ensureAcceptable_error hok
    simp only [windowOf, WindowGrid.windowOf] at hok
    rw [hok] at h
    cases h
    exact .inl holder
  | ok u =>
    simp only [windowOf, WindowGrid.windowOf] at hok
    rw [hok] at h
    change (if _ then _ else _) = _ at h
    split at h
    · cases h
      exact .inr ⟨_, _, _, rfl⟩
    · cases h

/-- The state of a manager after packets that gave the rows. -/
def Run (done : List Packet) (rows : List CommunicationRow) (m : CommunicationWindowManager) : Prop :=
  m.toCommunicationSetup = S ∧ m.diagnostics.packetsSeen = done.length ∧
    Counting newEdge countEdge (windowOf S) (S.feeds L) (fun _ => true) (RowOf L S) done rows m.tracker m.edges

theorem managed : Managed (CommunicationWindowManager.add L) (CommunicationWindowManager.finish L)
    CommunicationWindowManager.tracker CommunicationWindowManager.edges newEdge countEdge (windowOf S) (S.feeds L)
    (fun _ => true) (RowOf L S) (Run L S) where
  preserved done rows m packet new m' hrun hadd := by
    obtain ⟨hsetup, hseen, hcounting⟩ := hrun
    obtain ⟨hok, hsame, hcount, due, hdue, rfl, hedges, htracker⟩ := add_ok L hadd
    rw [hsetup] at hok hdue
    refine ⟨hsame.trans hsetup, by rw [hcount, hseen, List.length_append]; rfl, ?_⟩
    rw [hedges, htracker, hsetup]
    exact hcounting.accept rfl hok packet.tsNs hdue (rows_of_cells L S)
  counting _ _ _ hrun := hrun.2.2
  acceptable done rows m packet r hrun hadd _ := by
    obtain ⟨new, m'⟩ := r
    obtain ⟨hok, -⟩ := add_ok L hadd
    rw [hrun.1] at hok
    exact ⟨_, hok⟩
  finished done rows m hrun hcells := by
    rw [CommunicationWindowManager.finish, hrun.1]
    exact rows_of_cells L S hcells

/-- Every packet is counted once on its edge, or refused as older than the watermark. -/
theorem packets_acceptedOnce (lateness : Nat) (packets : List Packet)
    (hcapacity : ∀ live capacity wid,
      collect (CommunicationWindowManager.add L) (.new S lateness) packets ≠ .error (.capacityExceeded live capacity wid)) :
    AcceptedOnce (CommunicationWindowManager.add L) (CommunicationWindowManager.finish L) (.new S lateness) (windowOf S)
      (edgesOf L S) (fun _ => true) CommunicationRow.key CommunicationRow.packetCount packets := by
  refine ((managed L S).acceptedOnce (edgesOf_nodup L S) CommunicationEdgeAccumulator.packetCount
    (fun row cell h => h.key L S) (fun row cell h => ?_) (fun k f fs => ?_) ⟨rfl, rfl, counting_new _ _⟩ packets).mpr
    fun err herr => ?_
  · rw [h.1]
    rfl
  · rw [(count_fold (f :: fs) _).1]
    exact Nat.zero_add _
  · obtain ⟨done, packet, rest, rows, m, -, -, hadd⟩ := collect_error herr
    rcases add_error L hadd with holder | ⟨live, capacity, wid, rfl⟩
    · exact holder
    · exact absurd herr (hcapacity live capacity wid)

/-- The counter of packets seen is the number of packets added. -/
theorem packetsSeen_eq {lateness : Nat} {packets : List Packet} {rows : List CommunicationRow} {m : CommunicationWindowManager}
    (h : collect (CommunicationWindowManager.add L) (.new S lateness) packets = .ok (rows, m)) :
    m.diagnostics.packetsSeen = packets.length :=
  (collect_induct (managed L S).preserved h ⟨rfl, rfl, counting_new _ _⟩).2.1

end CommunicationCounts
