import AgenticSoc.NetworkFeatures

/-!
# Communication records

One accumulator for every directed relationship that a packet of a window shows. The number
of open accumulators is bounded; a packet that would exceed the bound stops the session.
-/
namespace CommunicationRecords

open EventWindows LiveTables WatermarkedTables DeviceInventory FeatureStatistics NetworkFeatures

inductive ResolutionStatus where
  | resolvedMac | resolvedIp | external | broadcast | multicast
  deriving DecidableEq, Repr

def portCap : Nat := 32

/-- The first number of an address is that of an IPv4 multicast group. -/
def isMulticastIpv4 (ip : Option String) : Bool :=
  match nonEmpty ip with
  | none => false
  | some ip =>
    match ((ip.splitOn ".").headD "").toInt? with
    | none => false
    | some first => 224 ≤ first && first ≤ 239

structure Endpoint where
  entityId : String
  status : ResolutionStatus
  deriving DecidableEq, Repr

section Resolver

variable (L : Library)

/-- An endpoint by its addresses when no inventory device has its hardware address. -/
def resolveAddress (inventory : Inventory) (norm ip : Option String) : Endpoint :=
  let external : Endpoint :=
    match norm, nonEmpty ip with
    | some norm, _ => ⟨"mac:" ++ norm, .external⟩
    | none, some ip => ⟨"ip:" ++ ip, .external⟩
    | none, none => ⟨"unknown", .external⟩
  match nonEmpty ip with
  | none => external
  | some address =>
    if isMulticastIpv4 ip then ⟨"multicast", .multicast⟩
    else
      match byIp inventory (BlackboardFirewall.strip address) with
      | some rec => ⟨rec.deviceName, .resolvedIp⟩
      | none => external

def resolveEndpoint (inventory : Inventory) (mac ip : Option String) : Endpoint :=
  match normalizeMac L.lowerCase mac with
  | none => resolveAddress inventory none ip
  | some norm =>
    if norm = broadcastMac then ⟨"broadcast", .broadcast⟩
    else
      match byMac L.lowerCase inventory norm with
      | some rec => ⟨rec.deviceName, .resolvedMac⟩
      | none => resolveAddress inventory (some norm) ip

end Resolver

structure CommunicationEdgeAccumulator where
  windowId : Int
  src : Endpoint
  dst : Endpoint
  srcMac : Option String
  dstMac : Option String
  srcIp : Option String
  dstIp : Option String
  packetCount : Nat
  capturedByteCount : Nat
  wireByteCount : Nat
  firstTsNs : Option Int
  lastTsNs : Option Int
  protocolCounts : Counter String
  srcPorts : Finset Nat
  dstPorts : Finset Nat
  srcPortsTruncated : Bool
  dstPortsTruncated : Bool
  broadcastSeen : Bool
  multicastSeen : Bool

/-- A directed relationship: where a packet comes from and where it goes. -/
structure Direction where
  src : Endpoint
  dst : Endpoint

def CommunicationEdgeAccumulator.new (windowId : Int) (d : Direction) : CommunicationEdgeAccumulator :=
  ⟨windowId, d.src, d.dst, none, none, none, none, 0, 0, 0, none, none, ∅, ∅, ∅, false, false, false, false⟩

/-- The ports seen, as long as there is room for them. -/
def notePort (port : Option Nat) (ports : Finset Nat) (truncated : Bool) : Finset Nat × Bool :=
  match port with
  | none => (ports, truncated)
  | some port => if ports.card < portCap ∨ port ∈ ports then (insert port ports, truncated) else (ports, true)

def update (edge : CommunicationEdgeAccumulator) (packet : Packet) : CommunicationEdgeAccumulator :=
  let view := packet.view
  let srcPorts := notePort view.sport edge.srcPorts edge.srcPortsTruncated
  let dstPorts := notePort view.dport edge.dstPorts edge.dstPortsTruncated
  { edge with
    packetCount := edge.packetCount + 1
    capturedByteCount := edge.capturedByteCount + packet.caplen
    wireByteCount := edge.wireByteCount + packet.wirelen
    firstTsNs := some (WatermarkTracker.smaller edge.firstTsNs packet.tsNs)
    lastTsNs := some (WatermarkTracker.larger edge.lastTsNs packet.tsNs)
    srcMac := (nonEmpty (some view.srcMac)).or edge.srcMac
    dstMac := (nonEmpty (some view.dstMac)).or edge.dstMac
    srcIp := (nonEmpty view.srcIp).or edge.srcIp
    dstIp := (nonEmpty view.dstIp).or edge.dstIp
    protocolCounts := edge.protocolCounts.bump view.l3Proto.text
    srcPorts := srcPorts.1
    dstPorts := dstPorts.1
    srcPortsTruncated := srcPorts.2
    dstPortsTruncated := dstPorts.2
    broadcastSeen := edge.broadcastSeen || decide (view.dstMac = broadcastMac)
    multicastSeen := edge.multicastSeen || isMulticastIpv4 view.dstIp }

structure CommunicationRow where
  scenarioId : String
  windowId : Int
  windowStartUtc : String
  windowEndUtc : String
  src : Endpoint
  dst : Endpoint
  srcMac : Option String
  dstMac : Option String
  srcIp : Option String
  dstIp : Option String
  packetCount : Nat
  capturedByteCount : Nat
  wireByteCount : Nat
  firstTimestampUtc : Option String
  lastTimestampUtc : Option String
  protocols : List String
  protocolPacketCounts : List Nat
  srcPorts : List Nat
  dstPorts : List Nat
  srcPortsTruncated : Bool
  dstPortsTruncated : Bool
  broadcastIndicator : Bool
  multicastIndicator : Bool
  rawSource : String
  extractorVersion : String
  schemaVersion : String

/-- Source and destination of an edge. -/
abbrev EdgeKey := String ×ₗ String

def edgeKey (d : Direction) : EdgeKey := toLex (d.src.entityId, d.dst.entityId)

def CommunicationRow.key (row : CommunicationRow) : Int × EdgeKey := (row.windowId, edgeKey ⟨row.src, row.dst⟩)

structure CommunicationDiagnostics where
  packetsSeen : Nat
  packetsWithoutTimestamp : Nat
  edgesCreated : Nat
  unresolvedEndpointPackets : Nat
  placements : Placements
  capacityPeakUsage : Nat
  deriving DecidableEq, Repr

structure CommunicationSetup where
  grid : WindowGrid
  scenarioId : String
  inventory : Inventory
  clockToleranceNs : Int
  activeWindowCapacity : { n : Nat // 1 ≤ n }

structure CommunicationWindowManager extends CommunicationSetup where
  edges : Table EdgeKey CommunicationEdgeAccumulator
  tracker : WatermarkTracker
  diagnostics : CommunicationDiagnostics

section Manager

variable (L : Library)

def CommunicationWindowManager.new (S : CommunicationSetup) (maxEventLatenessNs : Nat) : CommunicationWindowManager :=
  { S with
    edges := ∅
    tracker := .new S.grid.windowNs maxEventLatenessNs
    diagnostics := ⟨0, 0, 0, 0, .none, 0⟩ }

def CommunicationSetup.direction (S : CommunicationSetup) (packet : Packet) : Direction :=
  { src := resolveEndpoint L S.inventory (some packet.view.srcMac) packet.view.srcIp
    dst := resolveEndpoint L S.inventory (some packet.view.dstMac) packet.view.dstIp }

/-- A packet is fed to the one edge it runs along. -/
def CommunicationSetup.feeds (S : CommunicationSetup) (packet : Packet) : List (EdgeKey × (Direction × Packet)) :=
  [(edgeKey (S.direction L packet), (S.direction L packet, packet))]

def newEdge (key : Int × EdgeKey) (feed : Direction × Packet) : CommunicationEdgeAccumulator := .new key.1 feed.1

def countEdge (edge : CommunicationEdgeAccumulator) (feed : Direction × Packet) : CommunicationEdgeAccumulator :=
  update edge feed.2

def CommunicationSetup.finalize (S : CommunicationSetup) (edge : CommunicationEdgeAccumulator) : CommunicationRow :=
  let bounds := S.grid.windowBounds edge.windowId
  let protocols := edge.protocolCounts.keys.toFinset.sort
  { scenarioId := S.scenarioId
    windowId := edge.windowId
    windowStartUtc := L.isoUtcFromNs bounds.1
    windowEndUtc := L.isoUtcFromNs bounds.2
    src := edge.src
    dst := edge.dst
    srcMac := edge.srcMac
    dstMac := edge.dstMac
    srcIp := edge.srcIp
    dstIp := edge.dstIp
    packetCount := edge.packetCount
    capturedByteCount := edge.capturedByteCount
    wireByteCount := edge.wireByteCount
    firstTimestampUtc := edge.firstTsNs.map L.isoUtcFromNs
    lastTimestampUtc := edge.lastTsNs.map L.isoUtcFromNs
    protocols := protocols
    protocolPacketCounts := protocols.map edge.protocolCounts.get
    srcPorts := edge.srcPorts.sort
    dstPorts := edge.dstPorts.sort
    srcPortsTruncated := edge.srcPortsTruncated
    dstPortsTruncated := edge.dstPortsTruncated
    broadcastIndicator := edge.broadcastSeen
    multicastIndicator := edge.multicastSeen
    rawSource := "pcap"
    extractorVersion := "datasense_raw_extractor_v2"
    schemaVersion := "communication_feature_schema_v1" }

def CommunicationWindowManager.finalizeDue (m : CommunicationWindowManager) :
    List CommunicationRow × CommunicationWindowManager :=
  let due := WatermarkedTables.finalizeDue m.tracker m.edges
  (due.cells.map fun cell => m.finalize L cell.2, { m with tracker := due.tracker, edges := due.live })

def CommunicationWindowManager.addPacket (m : CommunicationWindowManager) (tsNs : Option Int) (view : FrameView)
    (caplen wirelen : Nat) : Except ExtractionError (List CommunicationRow × CommunicationWindowManager) := do
  let m := { m with diagnostics := { m.diagnostics with packetsSeen := m.diagnostics.packetsSeen + 1 } }
  match tsNs with
  | none =>
    pure ([], { m with diagnostics :=
      { m.diagnostics with packetsWithoutTimestamp := m.diagnostics.packetsWithoutTimestamp + 1 } })
  | some tsNs =>
    let packet : Packet := ⟨tsNs, view, caplen, wirelen⟩
    let (wid, disposition) := m.grid.assign tsNs m.clockToleranceNs
    let placements := m.diagnostics.placements.note m.grid m.tracker tsNs wid disposition
    m.tracker.ensureAcceptable wid "communication packet"
    let tracker := (m.tracker.observe tsNs wid).2
    let direction := m.direction L packet
    let unresolved := direction.src.status = .external && direction.dst.status = .external
    let created := !(m.edges.lookup (wid, edgeKey direction)).isSome
    if created && m.activeWindowCapacity.val ≤ m.edges.keys.length then
      throw (.capacityExceeded m.edges.keys.length m.activeWindowCapacity.val wid)
    let edges := ((m.feeds L packet).map fun f => ((wid, f.1), f.2)).foldl (feedTable newEdge countEdge) m.edges
    let m := { m with
      tracker := tracker
      edges := edges
      diagnostics := { m.diagnostics with
        placements := placements
        unresolvedEndpointPackets := m.diagnostics.unresolvedEndpointPackets + oneWhen unresolved
        edgesCreated := m.diagnostics.edgesCreated + oneWhen created
        capacityPeakUsage := if created then max m.diagnostics.capacityPeakUsage edges.keys.length else m.diagnostics.capacityPeakUsage } }
    pure (m.finalizeDue L)

/-- The records of all the edges still open. -/
def CommunicationWindowManager.finish (m : CommunicationWindowManager) :
    List CommunicationRow × CommunicationWindowManager :=
  ((taken m.edges (allKeys m.edges)).map fun cell => m.finalize L cell.2, { m with edges := ∅ })

def CommunicationWindowManager.add (m : CommunicationWindowManager) (packet : Packet) :
    Except ExtractionError (List CommunicationRow × CommunicationWindowManager) :=
  m.addPacket L (some packet.tsNs) packet.view packet.caplen packet.wirelen

end Manager

end CommunicationRecords
