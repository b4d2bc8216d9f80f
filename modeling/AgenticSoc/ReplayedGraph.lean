import AgenticSoc.CommunicationGraph
import AgenticSoc.NetworkArrival
import AgenticSoc.ReplayMerge

/-!
# The graph of a replay

A replay hands the rows of a capture to the communication graph window by window. At the end
of each window the edges stand for the packets so far, and the deltas for those of the window.
-/
namespace ReplayedGraph

open Procedure Sorting StableOrder WindowSorting ReplayRunner ReplayMerge CommunicationGraph DeviceInventory

variable {Row E : Type}

/-! ## The windows that the graph sees -/

section Windows

variable (codec : RowCodec Row) (inventory : Inventory) (record : Row → CommunicationRecord)

/-- The part of a run that concerns the graph. -/
def graphBody : Body Row E Graph where
  beginWindow := fun w g => beginWindow g w
  process := fun window => update fun g => applyMany inventory g (window.communication.map record)

def graphWindow (window : Window Row) : Int × List CommunicationRecord :=
  (window.windowId, window.communication.map record)

/-- The graph after some windows is the graph of their records. -/
theorem each_graph (windows : List (Window Row)) (g : Graph) :
    each (inWindow (graphBody (E := E) inventory record)) windows g =
      (.ok (), (windows.map (graphWindow record)).foldl (playWindow inventory) g) := by
  induction windows generalizing g with
  | nil => rfl
  | cons window windows ih =>
    have hfirst : inWindow (graphBody (E := E) inventory record) window g =
        (.ok (), playWindow inventory g (graphWindow record window)) := rfl
    have heach : each (inWindow (graphBody (E := E) inventory record)) (window :: windows) g =
        each (inWindow (graphBody (E := E) inventory record)) windows (playWindow inventory g (graphWindow record window)) :=
      run_bind hfirst
    rw [heach, ih]
    rfl

/-- The windows of streams ascend, and each has its own rows. -/
theorem windowsOf_timely (hwindow : ∀ row, (record row).windowId = codec.windowId row)
    (network behavior communication : List Row) :
    Timely ((windowsOf codec network behavior communication).map (graphWindow record)) where
  ascending := by
    have hids : ((windowsOf codec network behavior communication).map (graphWindow record)).map Prod.fst =
        windowIds codec (network ++ behavior ++ communication) := by
      rw [windowsOf, List.map_map, List.map_map]
      exact List.map_id _
    rw [hids]
    exact windowIds_strict _
  own := by
    intro window hmem r hr
    obtain ⟨w, hw, rfl⟩ := List.mem_map.mp hmem
    obtain ⟨id, -, rfl⟩ := List.mem_map.mp hw
    obtain ⟨row, hrow, rfl⟩ := List.mem_map.mp hr
    rw [hwindow, ((mem_under).mp hrow).2]
    rfl

/-- No row is lost between a stream and its windows. -/
theorem windowsOf_records (network behavior communication : List Row) :
    (((windowsOf codec network behavior communication).map (graphWindow record)).flatMap Prod.snd).Perm
      (communication.map record) := by
  have hall : ∀ row ∈ communication, codec.windowId row ∈ windowIds codec (network ++ behavior ++ communication) :=
    fun row hrow => (mem_windowIds).mpr ⟨row, List.mem_append_right _ hrow, rfl⟩
  have hflat : ((windowsOf codec network behavior communication).map (graphWindow record)).flatMap Prod.snd =
      ((windowIds codec (network ++ behavior ++ communication)).flatMap (under codec.windowId · communication)).map record := by
    simp [windowsOf, List.flatMap_map, List.map_flatMap, graphWindow]
  rw [hflat, flatMap_under (windowIds_strict _) hall]
  exact (sortBy_perm codec.windowId communication).map record

end Windows

/-! ## The graph at the end of a window -/

/-- Of ascending windows, those up to one have the records of its identity and below. -/
theorem Timely.upTo {windows later : List (Int × List CommunicationRecord)} {window : Int × List CommunicationRecord}
    (h : Timely (windows ++ window :: later)) :
    ((windows ++ window :: later).flatMap Prod.snd).filter (fun r => r.windowId ≤ window.1) =
      (windows ++ [window]).flatMap Prod.snd := by
  have hasc := h.ascending
  rw [List.map_append, List.map_cons, List.pairwise_append, List.pairwise_cons] at hasc
  obtain ⟨-, ⟨hlater, -⟩, hbefore⟩ := hasc
  have hkept : ∀ w ∈ windows ++ [window], ∀ r ∈ w.2, r.windowId ≤ window.1 := by
    intro w hw r hr
    rcases List.mem_append.mp hw with hw | hw
    · rw [h.own w (by simp [hw]) r hr]
      exact le_of_lt (hbefore w.1 (List.mem_map_of_mem hw) window.1 List.mem_cons_self)
    · rw [List.mem_singleton.mp hw] at hr
      rw [h.own window (by simp) r hr]
  have hgone : ∀ w ∈ later, ∀ r ∈ w.2, ¬ r.windowId ≤ window.1 := by
    intro w hw r hr
    rw [h.own w (by simp [hw]) r hr]
    exact not_le_of_gt (hlater w.1 (List.mem_map_of_mem hw))
  rw [List.append_cons, List.flatMap_append, List.filter_append]
  have hfirst : ((windows ++ [window]).flatMap Prod.snd).filter (fun r => r.windowId ≤ window.1) =
      (windows ++ [window]).flatMap Prod.snd := List.filter_eq_self.mpr fun r hr => by
    obtain ⟨w, hw, hr⟩ := List.mem_flatMap.mp hr
    exact decide_eq_true (hkept w hw r hr)
  have hrest : (later.flatMap Prod.snd).filter (fun r => r.windowId ≤ window.1) = [] :=
    List.filter_eq_nil_iff.mpr fun r hr => by
      obtain ⟨w, hw, hr⟩ := List.mem_flatMap.mp hr
      exact fun hle => hgone w hw r hr (of_decide_eq_true hle)
  rw [hfirst, hrest, List.append_nil]

theorem Timely.at {windows later : List (Int × List CommunicationRecord)} {window : Int × List CommunicationRecord}
    (h : Timely (windows ++ window :: later)) :
    ((windows ++ window :: later).flatMap Prod.snd).filter (fun r => r.windowId = window.1) = window.2 := by
  have hasc := h.ascending
  rw [List.map_append, List.map_cons, List.pairwise_append, List.pairwise_cons] at hasc
  obtain ⟨-, ⟨hlater, -⟩, hbefore⟩ := hasc
  have hnone : ∀ ws : List (Int × List CommunicationRecord), (∀ w ∈ ws, w ∈ windows ++ window :: later) →
      (∀ w ∈ ws, w.1 ≠ window.1) → (ws.flatMap Prod.snd).filter (fun r => r.windowId = window.1) = [] := by
    intro ws hws hne
    refine List.filter_eq_nil_iff.mpr fun r hr => ?_
    obtain ⟨w, hw, hr⟩ := List.mem_flatMap.mp hr
    rw [h.own w (hws w hw) r hr, decide_eq_true_eq]
    exact hne w hw
  have hown : window.2.filter (fun r => r.windowId = window.1) = window.2 :=
    List.filter_eq_self.mpr fun r hr => decide_eq_true (h.own window (by simp) r hr)
  rw [List.flatMap_append, List.flatMap_cons, List.filter_append, List.filter_append, hown,
    hnone windows (fun w hw => by simp [hw]) fun w hw =>
      ne_of_lt (hbefore w.1 (List.mem_map_of_mem hw) window.1 List.mem_cons_self),
    hnone later (fun w hw => by simp [hw]) fun w hw => ne_of_gt (hlater w.1 (List.mem_map_of_mem hw)),
    List.nil_append, List.append_nil]

section Replay

open EventWindows LiveTables WatermarkedTables FeatureStatistics NetworkFeatures Collecting
open CommunicationRecords (CommunicationRow CommunicationSetup CommunicationWindowManager)
open CommunicationCounts (windowOf)

variable (L : Library) (S : CommunicationSetup) (codec : RowCodec Row) (record : Row → CommunicationRecord)

/-- When the records of a capture are replayed, in whatever order they come: after each window
an edge stands for the packets along it so far, none lost and none counted twice, a pair
without such packets has no edge, and the delta stands for the packets in the window. -/
theorem replay_counts_packets {lateness : Nat} {packets : List Packet} {rows : List CommunicationRow}
    {m : CommunicationWindowManager}
    (hrun : collect (CommunicationWindowManager.add L) (.new S lateness) packets = .ok (rows, m)) (inventory : Inventory)
    (hwindow : ∀ row, (record row).windowId = codec.windowId row) {network behavior communication : List Row}
    (hrecords : (communication.map record).Perm ((rows ++ (m.finish L).1).map recordOf)) {before after : List (Window Row)}
    {window : Window Row} (hwindows : windowsOf codec network behavior communication = before ++ window :: after) (pair : Pair) :
    let g := (each (ReplayMerge.inWindow (graphBody (E := E) inventory record)) (before ++ [window]) .empty).2
    EdgeStands S ((packetsAlong L S pair packets).filter fun p => windowOf S p ≤ window.windowId) (g.edges.lookup pair) ∧
      DeltaCounts (CommunicationGraph.inWindow S window.windowId (packetsAlong L S pair packets)) (getWindowDelta g pair) := by
  intro g
  have hg : g = play inventory ((before ++ [window]).map (graphWindow record)) := by
    have heach := each_graph (E := E) inventory record (before ++ [window]) .empty
    exact congrArg Prod.snd heach
  have htimely := windowsOf_timely codec record hwindow network behavior communication
  have hshared := (managed_records L S hrun pair).perm S
    (((windowsOf_records codec record network behavior communication).trans hrecords).filter _).symm
  rw [hwindows, List.map_append, List.map_cons] at htimely hshared
  rw [hg, List.map_append, List.map_singleton]
  constructor
  · have hupTo := hshared.filter S (fun w => w ≤ window.windowId)
    have hsame : (((before.map (graphWindow record) ++ graphWindow record window :: after.map (graphWindow record)).flatMap
        Prod.snd).filter (fun r => r.pair = pair)).filter (fun r => r.windowId ≤ window.windowId) =
        along pair ((before.map (graphWindow record) ++ [graphWindow record window]).flatMap Prod.snd) := by
      rw [List.filter_comm]
      exact congrArg (List.filter _) (Timely.upTo htimely)
    rw [hsame] at hupTo
    exact hupTo.edgeStands S (play_shows inventory _ pair)
  · have hat := hshared.filter S (fun w => w = window.windowId)
    have hsame : (((before.map (graphWindow record) ++ graphWindow record window :: after.map (graphWindow record)).flatMap
        Prod.snd).filter (fun r => r.pair = pair)).filter (fun r => r.windowId = window.windowId) =
        along pair (graphWindow record window).2 := by
      rw [List.filter_comm]
      exact congrArg (List.filter _) (Timely.at htimely)
    rw [hsame] at hat
    have hinit : Timely (before.map (graphWindow record) ++ [graphWindow record window]) := by
      refine ⟨?_, fun w hw => htimely.own w ?_⟩
      · have hasc := htimely.ascending
        rw [List.append_cons, List.map_append, List.pairwise_append] at hasc
        exact hasc.1
      · rw [List.append_cons]
        exact List.mem_append_left _ hw
    exact hat.deltaCounts S (play_delta inventory hinit pair)

end Replay

/-! ## A sensor that sends twice -/

section Sensor

open CommunicationRecords (CommunicationSetup CommunicationWindowManager)
open NetworkFeatures (Packet)
open Collecting

def sensorSetup : CommunicationSetup := ⟨ExactlyOnce.fiveSeconds, "s", [ExactlyOnce.rfidSensor], 0, ⟨100, by decide⟩⟩

def sensorPackets : List Packet := [NetworkArrival.sensorPacket 0, NetworkArrival.sensorPacket 1000000000]

def sensorPair : Pair := ("rfid-sensor", "mac:cc:dd")

def sensorRecord : CommunicationRecord :=
  ⟨sensorPair.1, sensorPair.2, 0, some "", 2, 120, ["other"], false, false⟩

/-- The rows of a store that has the record of the sensor alone. -/
def sensorRows : RowCodec Unit := ⟨fun _ => 0, fun _ => "", fun _ => (), fun _ => rfl⟩

theorem sensor_run : ∃ rows m,
    collect (CommunicationWindowManager.add ExactlyOnce.plainLibrary) (.new sensorSetup 60000000000) sensorPackets = .ok (rows, m) ∧
      (rows ++ (m.finish ExactlyOnce.plainLibrary).1).map recordOf = [sensorRecord] := by
  have hrecords : ((collect (CommunicationWindowManager.add ExactlyOnce.plainLibrary) (.new sensorSetup 60000000000)
      sensorPackets).toOption.map fun run => (run.1 ++ (run.2.finish ExactlyOnce.plainLibrary).1).map recordOf) =
        some [sensorRecord] := by decide +kernel
  cases hrun : collect (CommunicationWindowManager.add ExactlyOnce.plainLibrary) (.new sensorSetup 60000000000) sensorPackets with
  | error e =>
    rw [hrun] at hrecords
    cases hrecords
  | ok run =>
    rw [hrun] at hrecords
    exact ⟨run.1, run.2, rfl, Option.some.inj hrecords⟩

/-- The graph of the one window has an edge that counts both packets, and so does its delta. -/
theorem replay_counts_sensor :
    let g := (each (ReplayMerge.inWindow (graphBody (E := Empty) sensorSetup.inventory fun _ : Unit => sensorRecord))
      [⟨0, [], [], [()]⟩] .empty).2
    EdgeStands sensorSetup sensorPackets (g.edges.lookup sensorPair) ∧
      DeltaCounts sensorPackets (getWindowDelta g sensorPair) := by
  obtain ⟨rows, m, hrun, hrows⟩ := sensor_run
  have hrecords : ([()].map fun _ : Unit => sensorRecord).Perm
      ((rows ++ (m.finish ExactlyOnce.plainLibrary).1).map recordOf) := .of_eq hrows.symm
  have hwindows : windowsOf sensorRows [] [] [()] = [] ++ ⟨0, [], [], [()]⟩ :: [] := rfl
  have hupTo : ((packetsAlong ExactlyOnce.plainLibrary sensorSetup sensorPair sensorPackets).filter fun p =>
      CommunicationCounts.windowOf sensorSetup p ≤ 0) = sensorPackets := by decide +kernel
  have hat : CommunicationGraph.inWindow sensorSetup 0
      (packetsAlong ExactlyOnce.plainLibrary sensorSetup sensorPair sensorPackets) = sensorPackets := by decide +kernel
  have hcounts := replay_counts_packets (E := Empty) ExactlyOnce.plainLibrary sensorSetup sensorRows (fun _ => sensorRecord)
    hrun sensorSetup.inventory (fun _ => rfl) hrecords hwindows sensorPair
  dsimp only at hcounts
  rwa [hupTo, hat] at hcounts

end Sensor

end ReplayedGraph
