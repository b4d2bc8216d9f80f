import AgenticSoc.Collecting
import AgenticSoc.DeviceInventory
import AgenticSoc.FeatureStatistics
import AgenticSoc.WatermarkedTables
import Mathlib.Data.String.Basic

/-!
# Network features

Packets are counted for the devices at their ends, one accumulator for a device in a
window; the accumulators of windows behind the watermark become feature rows.
-/
namespace NetworkFeatures

open EventWindows LiveTables WatermarkedTables DeviceInventory FeatureStatistics

inductive L3Proto where
  | tcp | udp | icmp | icmpv6 | arp | other
  deriving DecidableEq, Repr

def L3Proto.text : L3Proto → String
  | .tcp => "tcp"
  | .udp => "udp"
  | .icmp => "icmp"
  | .icmpv6 => "icmpv6"
  | .arp => "arp"
  | .other => "other"

/-- The header fields of a decoded frame that features are made of. -/
structure FrameView where
  srcMac : String
  dstMac : String
  l2HeaderLen : Nat
  l3Proto : L3Proto
  srcIp : Option String
  dstIp : Option String
  ttl : Option Nat
  ipTotalLen : Option Nat
  ipHeaderLen : Option Nat
  ipMf : Bool
  ipFragOffset : Nat
  sport : Option Nat
  dport : Option Nat
  tcpFlags : Option Nat
  tcpWindow : Option Nat
  tcpHeaderLen : Option Nat
  udpLength : Option Nat
  mss : Option Nat
  deriving DecidableEq, Repr

/-- A length that is there and not zero, else the default. -/
def lengthOr (length : Option Nat) (default : Int) : Int :=
  match length with
  | none => default
  | some n => if n = 0 then default else n

def FrameView.headerLength (view : FrameView) : Int :=
  let total : Int := view.l2HeaderLen + lengthOr view.ipHeaderLen 0
  match view.l3Proto with
  | .tcp => total + lengthOr view.tcpHeaderLen 20
  | .udp | .icmp | .icmpv6 => total + 8
  | .arp | .other => total

def FrameView.payloadLength (view : FrameView) : Int :=
  match view.ipTotalLen with
  | none => 0
  | some ipTotalLen =>
    let inner : Int := ipTotalLen - lengthOr view.ipHeaderLen 0
    match view.l3Proto with
    | .tcp => max 0 (inner - lengthOr view.tcpHeaderLen 20)
    | .udp => max 0 (min (inner - 8) (lengthOr view.udpLength (inner + 8) - 8))
    | .icmp | .icmpv6 => max 0 (inner - 8)
    | .arp | .other => max 0 inner

inductive TcpFlag where
  | syn | ack | fin | rst | psh | urg
  deriving DecidableEq, Repr

def TcpFlag.mask : TcpFlag → Nat
  | .syn => 0x02
  | .ack => 0x10
  | .fin => 0x01
  | .rst => 0x04
  | .psh => 0x08
  | .urg => 0x20

def tcpFlagOrder : List TcpFlag := [.syn, .ack, .fin, .rst, .psh, .urg]

structure DeviceWindowAccumulator where
  deviceName : String
  windowId : Int
  packetsSrc : Nat
  packetsDst : Nat
  packetsInvolving : Nat
  lastTsNs : Option Int
  timeDeltas : OnlineStats
  ipsSrc : Finset String
  ipsDst : Finset String
  peerMacs : Finset String
  portsSrc : Finset Nat
  portsDst : Finset Nat
  protoCounts : Counter L3Proto
  tcpFlags : Counter TcpFlag
  fragmentedPackets : Nat
  packetSize : OnlineStats
  wireSize : OnlineStats
  ipLength : OnlineStats
  headerLength : OnlineStats
  payloadLength : OnlineStats
  ttlStats : OnlineStats
  tcpWindowStats : OnlineStats
  mssValues : Finset Nat
  observedIpsAll : Finset String
  observedIpsSrc : Finset String
  observedIpsDst : Finset String
  observedMacsAll : Finset String
  observedPortsAll : Finset String
  observedProtocolsAll : Finset String
  attackerContact : Bool
  broadcastSeen : Bool
  multicastSeen : Bool

def DeviceWindowAccumulator.new (deviceName : String) (windowId : Int) : DeviceWindowAccumulator :=
  { deviceName, windowId
    packetsSrc := 0, packetsDst := 0, packetsInvolving := 0, lastTsNs := none, timeDeltas := .empty
    ipsSrc := ∅, ipsDst := ∅, peerMacs := ∅, portsSrc := ∅, portsDst := ∅, protoCounts := ∅, tcpFlags := ∅
    fragmentedPackets := 0, packetSize := .empty, wireSize := .empty, ipLength := .empty, headerLength := .empty
    payloadLength := .empty, ttlStats := .empty, tcpWindowStats := .empty, mssValues := ∅
    observedIpsAll := ∅, observedIpsSrc := ∅, observedIpsDst := ∅, observedMacsAll := ∅, observedPortsAll := ∅
    observedProtocolsAll := ∅, attackerContact := false, broadcastSeen := false, multicastSeen := false }

/-- A device at one end of a packet or at both. -/
structure Participant where
  device : DeviceRecord
  isSrc : Bool
  isDst : Bool

/-- The counters of a device in a window after one more packet. -/
def update (inventory : Inventory) (attackerNames : List String) (acc : DeviceWindowAccumulator) (p : Participant)
    (view : FrameView) (caplen wirelen : Nat) (tsNs : Int) : DeviceWindowAccumulator :=
  let srcIp := nonEmpty view.srcIp
  let dstIp := nonEmpty view.dstIp
  let broadcast := decide (view.dstMac = broadcastMac)
  let endpointMacs := insertSome (nonEmpty (some view.dstMac)) (insertSome (nonEmpty (some view.srcMac)) acc.observedMacsAll)
  let sport := if p.isSrc then view.sport else none
  let dport := if p.isDst then view.dport else none
  let raised := fun (flags : Nat) (counts : Counter TcpFlag) (flag : TcpFlag) =>
    if flags &&& flag.mask ≠ 0 then counts.bump flag else counts
  let inContact := fun name => match byName inventory name with
    | none => false
    | some rec => some rec.ip = view.srcIp || some rec.ip = view.dstIp || rec.mac = view.srcMac || rec.mac = view.dstMac
  { acc with
    packetsSrc := acc.packetsSrc + oneWhen p.isSrc
    packetsDst := acc.packetsDst + oneWhen p.isDst
    packetsInvolving := acc.packetsInvolving + 1
    lastTsNs := some tsNs
    timeDeltas := acc.timeDeltas.addSome (acc.lastTsNs.map fun last => ((tsNs - last : Int) : ℚ) / 1000000000)
    ipsSrc := insertSome srcIp acc.ipsSrc
    ipsDst := insertSome dstIp acc.ipsDst
    peerMacs := insertSome (if p.isDst then some view.srcMac else none)
      (insertSome (if p.isSrc then some view.dstMac else none) acc.peerMacs)
    portsSrc := insertSome sport acc.portsSrc
    portsDst := insertSome dport acc.portsDst
    protoCounts := acc.protoCounts.bump view.l3Proto
    tcpFlags := match view.l3Proto, view.tcpFlags with
      | .tcp, some flags => tcpFlagOrder.foldl (raised flags) acc.tcpFlags
      | _, _ => acc.tcpFlags
    fragmentedPackets := acc.fragmentedPackets + oneWhen (view.ipMf || decide (0 < view.ipFragOffset))
    packetSize := acc.packetSize.add caplen
    wireSize := acc.wireSize.add wirelen
    ipLength := acc.ipLength.addSome (view.ipTotalLen.map Nat.cast)
    headerLength := acc.headerLength.add view.headerLength
    payloadLength := acc.payloadLength.add view.payloadLength
    ttlStats := acc.ttlStats.addSome (view.ttl.map Nat.cast)
    tcpWindowStats := acc.tcpWindowStats.addSome (view.tcpWindow.map Nat.cast)
    mssValues := insertSome view.mss acc.mssValues
    observedIpsAll := insertSome dstIp (insertSome srcIp acc.observedIpsAll)
    observedIpsSrc := insertSome srcIp acc.observedIpsSrc
    observedIpsDst := insertSome dstIp acc.observedIpsDst
    observedMacsAll := if broadcast then insert view.dstMac endpointMacs else endpointMacs
    observedPortsAll := insertSome (dport.map toString) (insertSome (sport.map toString) acc.observedPortsAll)
    observedProtocolsAll := insert view.l3Proto.text acc.observedProtocolsAll
    attackerContact := acc.attackerContact || attackerNames.any inContact
    broadcastSeen := acc.broadcastSeen || broadcast
    multicastSeen := acc.multicastSeen || (dstIp.any fun ip => ip.endsWith ".255") }

/-! ## Rows -/

structure NetworkFeatureValues where
  packetsAllCount : Nat
  packetsSrcCount : Nat
  packetsDstCount : Nat
  timeDelta : StatsRow
  uniqueIpsAllCount : Nat
  uniqueIpsSrcCount : Nat
  uniqueIpsDstCount : Nat
  uniquePeerCount : Nat
  portsAllCount : Nat
  portsSrcCount : Nat
  portsDstCount : Nat
  protoTcpCount : Nat
  protoUdpCount : Nat
  protoIcmpCount : Nat
  protoArpCount : Nat
  protoOtherCount : Nat
  protocolDiversity : Nat
  tcpFlagCounts : TcpFlag → Nat
  fragmentedPacketCount : Nat
  packetSize : StatsRow
  wireSize : StatsRow
  ipLength : StatsRow
  headerLength : StatsRow
  payloadLength : StatsRow
  ttl : StatsRow
  tcpWindow : StatsRow
  mssObservedMin : Option Nat
  mssObservedMax : Option Nat

structure NetworkGraphMetadata where
  observedIpsAll : List String
  observedIpsSrc : List String
  observedIpsDst : List String
  observedMacsAll : List String
  observedPortsAll : List String
  observedProtocolsAll : List String
  attackerContactObserved : Bool
  broadcastMacObserved : Bool
  multicastIpObserved : Bool

/-- A row without features stands for one whose feature values are all null. -/
structure NetworkRow where
  scenarioId : String
  deviceId : String
  windowId : Int
  windowStartUtc : String
  windowEndUtc : String
  networkObserved : Bool
  behaviorObserved : Bool
  behaviorSupported : Bool
  features : Option NetworkFeatureValues
  metadata : NetworkGraphMetadata

def NetworkRow.key (row : NetworkRow) : Int × String := (row.windowId, row.deviceId)

/-- The packets that a row counts. -/
def NetworkRow.packetsAllCount (row : NetworkRow) : Nat :=
  match row.features with
  | none => 0
  | some features => features.packetsAllCount

def listMetadataCap : Nat := 64

def capped (values : Finset String) : List String := values.sort.take listMetadataCap

structure NetworkDiagnostics where
  packetsTotal : Nat
  packetsWithoutTimestamp : Nat
  placements : Placements
  capacityPeakUsage : Nat
  unresolvedEndpointPackets : Nat
  undecodableFrames : Nat
  deriving DecidableEq, Repr

/-- What stays the same for a manager. -/
structure NetworkSetup where
  grid : WindowGrid
  scenarioId : String
  inventory : Inventory
  attackerNames : List String
  clockToleranceNs : Int

structure NetworkWindowManager extends NetworkSetup where
  windows : Table String DeviceWindowAccumulator
  tracker : WatermarkTracker
  diagnostics : NetworkDiagnostics

section Manager

variable (L : Library)

def NetworkWindowManager.new (S : NetworkSetup) (maxEventLatenessNs : Nat) : NetworkWindowManager :=
  { S with
    windows := ∅
    tracker := .new S.grid.windowNs maxEventLatenessNs
    diagnostics := ⟨0, 0, .none, 0, 0, 0⟩ }

def NetworkSetup.finalize (S : NetworkSetup) (acc : DeviceWindowAccumulator) : NetworkRow :=
  let bounds := S.grid.windowBounds acc.windowId
  { scenarioId := S.scenarioId
    deviceId := acc.deviceName
    windowId := acc.windowId
    windowStartUtc := L.isoUtcFromNs bounds.1
    windowEndUtc := L.isoUtcFromNs bounds.2
    networkObserved := true
    behaviorObserved := false
    behaviorSupported := decide (behaviorProfileFor S.inventory acc.deviceName ≠ .unsupported)
    features := some
      { packetsAllCount := acc.packetsInvolving
        packetsSrcCount := acc.packetsSrc
        packetsDstCount := acc.packetsDst
        timeDelta := acc.timeDeltas.asTuple L
        uniqueIpsAllCount := (acc.ipsSrc ∪ acc.ipsDst).card
        uniqueIpsSrcCount := acc.ipsSrc.card
        uniqueIpsDstCount := acc.ipsDst.card
        uniquePeerCount := acc.peerMacs.card
        portsAllCount := (acc.portsSrc ∪ acc.portsDst).card
        portsSrcCount := acc.portsSrc.card
        portsDstCount := acc.portsDst.card
        protoTcpCount := acc.protoCounts.get .tcp
        protoUdpCount := acc.protoCounts.get .udp
        protoIcmpCount := acc.protoCounts.get .icmp + acc.protoCounts.get .icmpv6
        protoArpCount := acc.protoCounts.get .arp
        protoOtherCount := acc.protoCounts.get .other
        protocolDiversity := acc.protoCounts.keys.length
        tcpFlagCounts := acc.tcpFlags.get
        fragmentedPacketCount := acc.fragmentedPackets
        packetSize := acc.packetSize.asTuple L
        wireSize := acc.wireSize.asTuple L
        ipLength := acc.ipLength.asTuple L
        headerLength := acc.headerLength.asTuple L
        payloadLength := acc.payloadLength.asTuple L
        ttl := acc.ttlStats.asTuple L
        tcpWindow := acc.tcpWindowStats.asTuple L
        mssObservedMin := acc.mssValues.sort.head?
        mssObservedMax := acc.mssValues.sort.getLast? }
    metadata :=
      { observedIpsAll := capped acc.observedIpsAll
        observedIpsSrc := capped acc.observedIpsSrc
        observedIpsDst := capped acc.observedIpsDst
        observedMacsAll := capped acc.observedMacsAll
        observedPortsAll := capped acc.observedPortsAll
        observedProtocolsAll := capped acc.observedProtocolsAll
        attackerContactObserved := acc.attackerContact
        broadcastMacObserved := acc.broadcastSeen
        multicastIpObserved := acc.multicastSeen } }

/-- A row for a device and a window without any evidence. -/
def emptyNetworkRow (scenarioId deviceName : String) (windowId : Int) (grid : WindowGrid) : NetworkRow :=
  let bounds := grid.windowBounds windowId
  { scenarioId := scenarioId
    deviceId := deviceName
    windowId := windowId
    windowStartUtc := L.isoUtcFromNs bounds.1
    windowEndUtc := L.isoUtcFromNs bounds.2
    networkObserved := false
    behaviorObserved := false
    behaviorSupported := false
    features := none
    metadata := ⟨[], [], [], [], [], [], false, false, false⟩ }

/-- The devices at the ends of a packet; addresses count when no hardware address is known. -/
def NetworkSetup.participants (S : NetworkSetup) (view : FrameView) : List Participant :=
  let byMac := fun mac => resolve L.lowerCase S.inventory (some mac) none
  let byIp := fun ip => resolve L.lowerCase S.inventory none ip
  let (srcDev, dstDev) := match byMac view.srcMac, byMac view.dstMac with
    | none, none => (byIp view.srcIp, byIp view.dstIp)
    | src, dst => (src, dst)
  match srcDev, dstDev with
  | none, none => []
  | some src, some dst =>
    if src.deviceName = dst.deviceName then [⟨dst, true, true⟩] else [⟨src, true, false⟩, ⟨dst, false, true⟩]
  | some src, none => [⟨src, true, false⟩]
  | none, some dst => [⟨dst, false, true⟩]

/-- A packet with its timestamp. -/
structure Packet where
  tsNs : Int
  view : FrameView
  caplen : Nat
  wirelen : Nat
  deriving DecidableEq, Repr

def newAccumulator (key : Int × String) (_ : Participant × Packet) : DeviceWindowAccumulator := .new key.2 key.1

/-- A packet is fed to the accumulators of its participants, by their names. -/
def NetworkSetup.feeds (S : NetworkSetup) (packet : Packet) : List (String × (Participant × Packet)) :=
  (S.participants L packet.view).map fun p => (p.device.deviceName, (p, packet))

def NetworkSetup.count (S : NetworkSetup) (acc : DeviceWindowAccumulator) (feed : Participant × Packet) : DeviceWindowAccumulator :=
  update S.inventory S.attackerNames acc feed.1 feed.2.view feed.2.caplen feed.2.wirelen feed.2.tsNs

def NetworkWindowManager.finalizeDue (m : NetworkWindowManager) : List NetworkRow × NetworkWindowManager :=
  let due := WatermarkedTables.finalizeDue m.tracker m.windows
  (due.cells.map fun cell => m.finalize L cell.2, { m with tracker := due.tracker, windows := due.live })

def NetworkWindowManager.addPacket (m : NetworkWindowManager) (tsNs : Option Int) (view : FrameView) (caplen wirelen : Nat) :
    Except ExtractionError (List NetworkRow × NetworkWindowManager) := do
  let m := { m with diagnostics := { m.diagnostics with packetsTotal := m.diagnostics.packetsTotal + 1 } }
  match tsNs with
  | none =>
    pure ([], { m with diagnostics :=
      { m.diagnostics with packetsWithoutTimestamp := m.diagnostics.packetsWithoutTimestamp + 1 } })
  | some tsNs =>
    let (wid, disposition) := m.grid.assign tsNs m.clockToleranceNs
    let placements := m.diagnostics.placements.note m.grid m.tracker tsNs wid disposition
    m.tracker.ensureAcceptable wid "network packet"
    let tracker := (m.tracker.observe tsNs wid).2
    let m := { m with
      tracker := tracker
      diagnostics := { m.diagnostics with placements := placements } }
    match m.feeds L ⟨tsNs, view, caplen, wirelen⟩ with
    | [] =>
      pure ([], { m with diagnostics :=
        { m.diagnostics with unresolvedEndpointPackets := m.diagnostics.unresolvedEndpointPackets + 1 } })
    | feeds =>
      let windows := (feeds.map fun f => ((wid, f.1), f.2)).foldl (feedTable newAccumulator m.count) m.windows
      let m := { m with
        windows := windows
        diagnostics :=
          { m.diagnostics with capacityPeakUsage := max m.diagnostics.capacityPeakUsage windows.keys.length } }
      pure (m.finalizeDue L)

/-- The rows of everything still open. -/
def NetworkWindowManager.finish (m : NetworkWindowManager) : List NetworkRow × NetworkWindowManager :=
  ((taken m.windows (allKeys m.windows)).map fun cell => m.finalize L cell.2, { m with windows := ∅ })

def NetworkWindowManager.add (m : NetworkWindowManager) (packet : Packet) :
    Except ExtractionError (List NetworkRow × NetworkWindowManager) :=
  m.addPacket L (some packet.tsNs) packet.view packet.caplen packet.wirelen

/-- The rows of a sequence of packets: those that come out while packets are added, then the rest. -/
def networkRows (S : NetworkSetup) (maxEventLatenessNs : Nat) (packets : List Packet) :
    Except ExtractionError (List NetworkRow) := do
  let (rows, m) ← Collecting.collect (NetworkWindowManager.add L) (.new S maxEventLatenessNs) packets
  pure (rows ++ (m.finish L).1)

end Manager

end NetworkFeatures
