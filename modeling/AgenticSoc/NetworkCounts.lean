import AgenticSoc.NetworkFeatures

/-!
# What a network manager counts

The participants of a packet are different devices, so a packet is counted once for each;
the rows of a run hold what was fed to the accumulators.
-/
namespace NetworkCounts

open EventWindows LiveTables WatermarkedTables DeviceInventory FeatureStatistics NetworkFeatures Collecting

variable (L : Library) (S : NetworkSetup)

/-- The window of a packet. -/
def windowOf (packet : Packet) : Int := S.grid.windowOf S.clockToleranceNs packet.tsNs

def devicesOf (packet : Packet) : List String := (S.feeds L packet).map Prod.fst

theorem devicesOf_nodup (packet : Packet) : (devicesOf L S packet).Nodup := by
  simp only [devicesOf, NetworkSetup.feeds, List.map_map, NetworkSetup.participants]
  split
  · simp
  · split
    · simp
    · simp [*]
  · simp
  · simp

/-- A row is made of a cell that it names. -/
def RowOf (row : NetworkRow) (cell : (Int × String) × DeviceWindowAccumulator) : Prop :=
  row = S.finalize L cell.2 ∧ cell.2.windowId = cell.1.1 ∧ cell.2.deviceName = cell.1.2

theorem RowOf.key {row : NetworkRow} {cell : (Int × String) × DeviceWindowAccumulator} (h : RowOf L S row cell) :
    row.key = cell.1 := by
  obtain ⟨rfl, hw, hd⟩ := h
  exact Prod.ext hw hd

theorem count_fold (fed : List (Participant × Packet)) (acc : DeviceWindowAccumulator) :
    (fed.foldl S.count acc).packetsInvolving = acc.packetsInvolving + fed.length ∧
      (fed.foldl S.count acc).windowId = acc.windowId ∧ (fed.foldl S.count acc).deviceName = acc.deviceName := by
  induction fed generalizing acc with
  | nil => simp
  | cons f fed ih =>
    obtain ⟨hn, hw, hd⟩ := ih (S.count acc f)
    rw [List.foldl_cons, List.length_cons]
    refine ⟨?_, hw, hd⟩
    rw [hn]
    simp only [NetworkSetup.count, update]
    omega

/-- What one packet does: it is refused, or it is counted and the rows that are due come out. -/
theorem add_ok {m m' : NetworkWindowManager} {packet : Packet} {rows : List NetworkRow}
    (h : m.add L packet = .ok (rows, m')) :
    m.tracker.ensureAcceptable (windowOf m.toNetworkSetup packet) "network packet" = .ok () ∧
      m'.toNetworkSetup = m.toNetworkSetup ∧
      ((m.feeds L packet = [] ∧ rows = [] ∧ m'.windows = m.windows ∧
          m'.tracker = (m.tracker.observe packet.tsNs (windowOf m.toNetworkSetup packet)).2) ∨
        (m.feeds L packet ≠ [] ∧ ∃ due, due = finalizeDue (m.tracker.observe packet.tsNs (windowOf m.toNetworkSetup packet)).2
            (((m.feeds L packet).map fun f => ((windowOf m.toNetworkSetup packet, f.1), f.2)).foldl
              (feedTable newAccumulator m.count) m.windows) ∧
          rows = due.cells.map (fun cell => m.finalize L cell.2) ∧ m'.windows = due.live ∧ m'.tracker = due.tracker)) := by
  simp only [NetworkWindowManager.add, NetworkWindowManager.addPacket] at h
  cases hok : m.tracker.ensureAcceptable (windowOf m.toNetworkSetup packet) "network packet" with
  | error e =>
    simp only [windowOf, WindowGrid.windowOf] at hok
    rw [hok] at h
    cases h
  | ok u =>
    simp only [windowOf, WindowGrid.windowOf] at hok
    rw [hok] at h
    refine ⟨rfl, ?_⟩
    simp only [bind, Except.bind] at h
    split at h
    · cases h
      exact ⟨rfl, .inl ⟨by assumption, rfl, rfl, rfl⟩⟩
    · cases h
      refine ⟨rfl, .inr ⟨by assumption, _, rfl, rfl, rfl, rfl⟩⟩

theorem add_error {m : NetworkWindowManager} {packet : Packet} {err : ExtractionError}
    (h : m.add L packet = .error err) : err.isOlder = true := by
  simp only [NetworkWindowManager.add, NetworkWindowManager.addPacket] at h
  cases hok : m.tracker.ensureAcceptable (windowOf m.toNetworkSetup packet) "network packet" with
  | error e =>
    have holder := ensureAcceptable_error hok
    simp only [windowOf, WindowGrid.windowOf] at hok
    rw [hok] at h
    cases h
    exact holder
  | ok u =>
    simp only [windowOf, WindowGrid.windowOf] at hok
    rw [hok] at h
    simp only [bind, Except.bind] at h
    split at h <;> cases h

/-- The state of a manager after packets that gave the rows. -/
def Run (done : List Packet) (rows : List NetworkRow) (m : NetworkWindowManager) : Prop :=
  m.toNetworkSetup = S ∧ Counting newAccumulator S.count (windowOf S) (S.feeds L) (fun _ => true) (RowOf L S) done rows m.tracker m.windows

/-- Rows made of cells that hold what was fed to them. -/
theorem rows_of_cells {cells : List ((Int × String) × DeviceWindowAccumulator)} {feeds : List ((Int × String) × (Participant × Packet))}
    (h : ∀ c ∈ cells, bookOf newAccumulator S.count feeds c.1 = some c.2) :
    List.Forall₂ (RowOf L S) (cells.map fun cell => S.finalize L cell.2) cells := by
  rw [List.forall₂_map_left_iff, List.forall₂_same]
  intro c hc
  obtain ⟨f, fs, -, hacc⟩ := bookOf_some newAccumulator S.count (h c hc)
  obtain ⟨-, hw, hd⟩ := count_fold S (f :: fs) (newAccumulator c.1 f)
  rw [← hacc] at hw hd
  exact ⟨rfl, hw, hd⟩

theorem managed : Managed (NetworkWindowManager.add L) (NetworkWindowManager.finish L) NetworkWindowManager.tracker
    NetworkWindowManager.windows newAccumulator S.count (windowOf S) (S.feeds L) (fun _ => true) (RowOf L S) (Run L S) where
  preserved done rows m packet new m' hrun hadd := by
    obtain ⟨hsetup, hcounting⟩ := hrun
    obtain ⟨hok, hsame, hout⟩ := add_ok L hadd
    refine ⟨hsame.trans hsetup, ?_⟩
    rw [hsetup] at hok hout
    obtain ⟨hfeeds, rfl, hwindows, htracker⟩ | ⟨-, due, hdue, rfl, hwindows, htracker⟩ := hout
    · rw [hwindows, htracker]
      exact hcounting.observe hfeeds rfl packet.tsNs
    · rw [hwindows, htracker]
      exact hcounting.accept rfl hok packet.tsNs hdue (rows_of_cells L S)
  counting _ _ _ hrun := hrun.2
  acceptable done rows m packet r hrun hadd _ := by
    obtain ⟨new, m'⟩ := r
    obtain ⟨hok, -⟩ := add_ok L hadd
    rw [hrun.1] at hok
    exact ⟨_, hok⟩
  finished done rows m hrun hcells := by
    rw [NetworkWindowManager.finish, hrun.1]
    exact rows_of_cells L S hcells

/-- Every packet is counted once for each of its devices, or refused as older than the watermark. -/
theorem packets_acceptedOnce (lateness : Nat) (packets : List Packet) :
    AcceptedOnce (NetworkWindowManager.add L) (NetworkWindowManager.finish L) (.new S lateness) (windowOf S) (devicesOf L S)
      (fun _ => true) NetworkRow.key NetworkRow.packetsAllCount packets := by
  refine ((managed L S).acceptedOnce (devicesOf_nodup L S) DeviceWindowAccumulator.packetsInvolving
    (fun row cell h => h.key L S) (fun row cell h => ?_) (fun k f fs => ?_) ⟨rfl, counting_new _ _⟩ packets).mpr fun err herr => ?_
  · rw [h.1]
    rfl
  · rw [(count_fold S (f :: fs) _).1]
    exact Nat.zero_add _
  · obtain ⟨done, packet, rest, rows, m, -, -, hadd⟩ := collect_error herr
    exact add_error L hadd

end NetworkCounts
