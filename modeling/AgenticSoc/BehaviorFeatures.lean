import AgenticSoc.Bisection
import AgenticSoc.Collecting
import AgenticSoc.DeviceInventory
import AgenticSoc.FeatureStatistics
import AgenticSoc.WatermarkedTables
import Mathlib.Data.String.Basic

/-!
# Behaviour features

Telemetry events are counted for the sensors that sent them. The values of a window are
kept in the order of their timestamps, and a history of timestamps per device serves the
time since the previous event; the history before the watermark is forgotten.
-/
namespace BehaviorFeatures

open EventWindows LiveTables WatermarkedTables DeviceInventory FeatureStatistics Bisection

/-! ## Events and their values -/

inductive MessageValue where
  | bool (b : Bool)
  | number (q : ℚ)
  | text (s : String)
  /-- The entries that are numbers, and gaps for the others. -/
  | array (entries : List (Option ℚ))
  | other
  deriving DecidableEq

/-- A whole number or a text that does not spell one. -/
inductive Ident where
  | int (n : Int)
  | text (s : String)
  deriving DecidableEq

structure MqttEvent where
  tsNs : Int
  internalDeviceName : Option String
  application : Option String
  ip : Option String
  mac : Option String
  topic : Option String
  messageType : Option String
  messageValue : MessageValue
  qos : Option Ident
  retained : Option Bool
  duplicate : Option Bool
  messageId : Option Ident
  deriving DecidableEq

/-- What a value is in an event sequence: its kind, and the value when there is one. -/
inductive SeqItem where
  | array (mean : Option ℚ)
  | numeric (v : ℚ)
  | string (v : Option String)
  | unknown
  deriving DecidableEq

inductive SeqValue where
  | number (v : ℚ)
  | text (s : String)
  deriving DecidableEq

def SeqItem.ofMessage : MessageValue → SeqItem
  | .bool b => .numeric (if b then 1 else 0)
  | .number q => .numeric q
  | .text s => .string (nonEmpty (some (BlackboardFirewall.strip s)))
  | .array entries =>
    let numbers := entries.filterMap id
    .array (if numbers.isEmpty then none else some (numbers.sum / numbers.length))
  | .other => .unknown

/-- Kinds are compared by their names. -/
def SeqItem.kindRank : SeqItem → Nat
  | .array _ => 0
  | .numeric _ => 1
  | .string _ => 2
  | .unknown => 3

def SeqItem.value : SeqItem → Option SeqValue
  | .array mean => mean.map .number
  | .numeric v => some (.number v)
  | .string v => v.map .text
  | .unknown => none

structure SeqEntry where
  tsNs : Int
  item : SeqItem
  deriving DecidableEq

/-- Comparison of tuples: a missing value cannot be compared with one that is there. -/
def SeqEntry.lessThan (a b : SeqEntry) : Except ExtractionError Bool :=
  if a.tsNs ≠ b.tsNs then .ok (decide (a.tsNs < b.tsNs))
  else if a.item.kindRank ≠ b.item.kindRank then .ok (decide (a.item.kindRank < b.item.kindRank))
  else
    match a.item, b.item with
    | .numeric x, .numeric y | .array (some x), .array (some y) => .ok (decide (x < y))
    | .string (some x), .string (some y) => .ok (decide (x < y))
    | .array none, .array (some _) | .array (some _), .array none
    | .string none, .string (some _) | .string (some _), .string none => .error .typeError
    | _, _ => .ok false

/-! ## Accumulators -/

def topicCap : Nat := 64
def tsListCap : Nat := 100000

structure BehaviorWindowAccumulator where
  deviceName : String
  windowId : Int
  messages : Nat
  lastTsNs : Option Int
  tsList : List Int
  tsOverflow : Bool
  eventSeq : List SeqEntry
  seqOverflow : Bool
  topicCounts : Counter String
  typeCounts : Counter String
  qosLevels : Finset Ident
  retainedCount : Nat
  duplicateCount : Nat
  messageIds : Finset Ident
  arrayLenStats : OnlineStats
  stringValues : Finset String
  distinctNumericValues : Finset ℚ
  secondBins : Counter Int
  topicsMeta : Finset String
  appsMeta : Finset String
  srcMac : Option String
  srcIp : Option String
  internalName : Option String

def BehaviorWindowAccumulator.new (deviceName : String) (windowId : Int) : BehaviorWindowAccumulator :=
  { deviceName, windowId
    messages := 0, lastTsNs := none, tsList := [], tsOverflow := false, eventSeq := [], seqOverflow := false
    topicCounts := ∅, typeCounts := ∅, qosLevels := ∅, retainedCount := 0, duplicateCount := 0, messageIds := ∅
    arrayLenStats := .empty, stringValues := ∅, distinctNumericValues := ∅, secondBins := ∅
    topicsMeta := ∅, appsMeta := ∅, srcMac := none, srcIp := none, internalName := none }

def bumpSome (topic : Option String) (counts : Counter String) : Counter String :=
  match topic with
  | none => counts
  | some topic => counts.bump topic

/-- The name that a message type is counted under. -/
def typeName (L : Library) (messageType : Option String) : String :=
  let mtype := L.lowerCase.lower (messageType.getD "")
  if mtype = "" then "unknown" else mtype

/-- An accumulator after an event, apart from the sequence of its values. -/
def noteEvent (L : Library) (grid : WindowGrid) (acc : BehaviorWindowAccumulator) (event : MqttEvent) :
    BehaviorWindowAccumulator :=
  let room := decide (acc.tsList.length < tsListCap)
  let startNs := (grid.windowBounds acc.windowId).1
  let topic := nonEmpty event.topic
  { acc with
    tsList := if room then acc.tsList.orderedInsert (· ≤ ·) event.tsNs else acc.tsList
    tsOverflow := acc.tsOverflow || !room
    lastTsNs := some (WatermarkTracker.larger acc.lastTsNs event.tsNs)
    messages := acc.messages + 1
    secondBins := acc.secondBins.bump ((event.tsNs - startNs) / 1000000000)
    topicCounts := bumpSome topic acc.topicCounts
    topicsMeta := insertSome topic acc.topicsMeta
    appsMeta := insertSome (nonEmpty event.application) acc.appsMeta
    srcMac := ((nonEmpty event.mac).map L.lowerCase.lower).or acc.srcMac
    srcIp := (nonEmpty event.ip).or acc.srcIp
    internalName := (nonEmpty event.internalDeviceName).or acc.internalName
    typeCounts := acc.typeCounts.bump (typeName L event.messageType)
    qosLevels := insertSome event.qos acc.qosLevels
    retainedCount := acc.retainedCount + oneWhen (event.retained = some true)
    duplicateCount := acc.duplicateCount + oneWhen (event.duplicate = some true)
    messageIds := insertSome event.messageId acc.messageIds
    arrayLenStats := match event.messageValue with
      | .array entries => acc.arrayLenStats.add entries.length
      | _ => acc.arrayLenStats
    distinctNumericValues := match SeqItem.ofMessage event.messageValue with
      | .numeric v => insert v acc.distinctNumericValues
      | _ => acc.distinctNumericValues
    stringValues := match SeqItem.ofMessage event.messageValue with
      | .string (some s) => insert (String.ofList (s.toList.take 64)) acc.stringValues
      | _ => acc.stringValues }

def update (L : Library) (grid : WindowGrid) (acc : BehaviorWindowAccumulator) (event : MqttEvent) :
    Except ExtractionError BehaviorWindowAccumulator := do
  let noted := noteEvent L grid acc event
  if acc.eventSeq.length < tsListCap then
    let eventSeq ← insort SeqEntry.lessThan acc.eventSeq ⟨event.tsNs, .ofMessage event.messageValue⟩
    pure { noted with eventSeq := eventSeq }
  else pure { noted with seqOverflow := true }

/-! ## Statistics of a window -/

/-- Entropy of the topics: none without any, zero with one. -/
def topicEntropy (L : Library) (counts : Counter String) : Option ℚ :=
  let total := counts.total
  if total = 0 ∨ counts.keys.length ≤ 1 then (if 0 < total then some 0 else none)
  else some (counts.values.foldl (fun entropy c => entropy - (c : ℚ) / total * L.log2 ((c : ℚ) / total)) 0)

/-- The times between neighbours, in seconds. -/
def deltaStats (sortedTs : List Int) : OnlineStats :=
  statsOf (sortedTs.zipWith (fun earlier later => ((later - earlier : Int) : ℚ) / 1000000000) sortedTs.tail)

structure SequenceStats where
  deltaAbs : OnlineStats
  transitions : Nat
  binaryFlips : Nat
  lastValue : Option SeqValue

def binaryTexts : List String := ["0", "1", "true", "false", "True", "False"]

/-- The statistics after one more value. -/
def SequenceStats.next (s : SequenceStats) (value : SeqValue) : SequenceStats :=
  let s' := { s with lastValue := some value }
  match s.lastValue, value with
  | none, _ => s'
  | some (.number last), .number v =>
    let delta := |v - last|
    let binary := delta ≠ 0 ∧ (last = 0 ∨ last = 1) ∧ (v = 0 ∨ v = 1)
    { s' with
      deltaAbs := s.deltaAbs.add delta
      transitions := s.transitions + oneWhen (delta ≠ 0)
      binaryFlips := s.binaryFlips + oneWhen binary }
  | some last, value =>
    let binary := match value with
      | .text text => decide (text ∈ binaryTexts)
      | .number _ => false
    { s' with
      transitions := s.transitions + oneWhen (value ≠ last)
      binaryFlips := s.binaryFlips + oneWhen (decide (value ≠ last) && binary) }

def sequenceStats (eventSeq : List SeqEntry) : SequenceStats :=
  (eventSeq.filterMap fun e => e.item.value).foldl SequenceStats.next ⟨.empty, 0, 0, none⟩

def SequenceStats.lastNumericValue (s : SequenceStats) : Option ℚ :=
  match s.lastValue with
  | some (.number v) => some v
  | _ => none

/-! ## Rows -/

structure BehaviorCommonFeatures where
  messagesCount : Nat
  interMessageDelta : StatsRow
  secondsSincePreviousEvent : Option ℚ
  topicsActiveCount : Nat
  topicEntropy : Option ℚ
  topTopicMessageShare : Option ℚ
  numericMessagesCount : Nat
  arrayMessagesCount : Nat
  stringMessagesCount : Nat
  qosLevelsDistinctCount : Nat
  retainedMessagesCount : Nat
  duplicateMessagesCount : Nat
  distinctMessageIdsCount : Nat
  valueChangeTransitionsCount : Nat
  burstMaxMessagesPerSecond : Option Nat
  activeFractionOfWindow : ℚ
  deriving DecidableEq

structure ContinuousProfileFeatures where
  value : StatsRow
  valueLast : Option ℚ
  valueDeltaAbs : StatsRow
  arrayLengthAvg : Option ℚ
  arrayLengthMax : Option ℚ
  arrayLengthMin : Option ℚ
  stringValuesDistinctCount : Nat
  constantValueStream : Bool
  deriving DecidableEq

structure SparseProfileFeatures where
  eventPresent : Bool
  binaryStateFlipCount : Nat
  lastEventOffsetSeconds : Option ℚ
  deriving DecidableEq

/-- Where the telemetry of a row came from, as the last event said. -/
structure TelemetrySource where
  mac : Option String
  ip : Option String
  internalDeviceName : Option String
  deriving DecidableEq

/-- A block that is not there stands for one whose values are all null. -/
structure BehaviorRow where
  scenarioId : String
  deviceId : String
  windowId : Int
  windowStartUtc : String
  windowEndUtc : String
  networkObserved : Bool
  behaviorObserved : Bool
  behaviorSupported : Bool
  behaviorProfile : Option BehaviorProfile
  common : Option BehaviorCommonFeatures
  continuous : Option ContinuousProfileFeatures
  sparse : Option SparseProfileFeatures
  observedTopics : List String
  observedApplications : List String
  source : TelemetrySource
  deriving DecidableEq

def BehaviorRow.key (row : BehaviorRow) : Int × String := (row.windowId, row.deviceId)

def BehaviorRow.messagesCount (row : BehaviorRow) : Nat :=
  match row.common with
  | none => 0
  | some common => common.messagesCount

structure BehaviorDiagnostics where
  messagesValidTotal : Nat
  eventsAppliedToAccumulators : Nat
  messagesIgnoredUnsupported : Nat
  unresolvedTelemetrySources : Nat
  placements : Placements
  capacityPeakUsage : Nat
  deriving DecidableEq, Repr

structure BehaviorSetup where
  grid : WindowGrid
  scenarioId : String
  inventory : Inventory
  clockToleranceNs : Int

/-- The timestamps of the events of each device, in order. -/
abbrev History := String → List Int

structure BehaviorWindowManager extends BehaviorSetup where
  windows : Table String BehaviorWindowAccumulator
  tracker : WatermarkTracker
  historyByDevice : History
  diagnostics : BehaviorDiagnostics

section Manager

variable (L : Library)

def BehaviorWindowManager.new (S : BehaviorSetup) (maxEventLatenessNs : Nat) : BehaviorWindowManager :=
  { S with
    windows := ∅
    tracker := .new S.grid.windowNs maxEventLatenessNs
    historyByDevice := fun _ => []
    diagnostics := ⟨0, 0, 0, 0, .none, 0⟩ }

/-- The time from the latest strictly earlier timestamp of the history to the first of the window. -/
def crossWindowGap (history : History) (acc : BehaviorWindowAccumulator) : Option ℚ :=
  match acc.tsList with
  | [] => none
  | first :: _ =>
    (((history acc.deviceName).filter (· < first)).max?).map fun latest => ((first - latest : Int) : ℚ) / 1000000000

/-- The history from the start of the first window that is not finalized. -/
def BehaviorSetup.pruneHistory (S : BehaviorSetup) (finalizedUptoWid : Int) (history : History) : History :=
  let keepFromNs := (S.grid.windowBounds (finalizedUptoWid + 1)).1
  fun device => (history device).filter (keepFromNs ≤ ·)

/-- The row of an accumulator, given the time since the previous event. -/
def BehaviorSetup.rowOf (S : BehaviorSetup) (gapSeconds : Option ℚ) (acc : BehaviorWindowAccumulator) : BehaviorRow :=
  let bounds := S.grid.windowBounds acc.windowId
  let profile := behaviorProfileFor S.inventory acc.deviceName
  let valueStats := statsOf (acc.eventSeq.filterMap fun e => match e.item with
    | .numeric v => some v
    | _ => none)
  let seqStats := sequenceStats acc.eventSeq
  let arrayLength := acc.arrayLenStats.asTuple L
  { scenarioId := S.scenarioId
    deviceId := acc.deviceName
    windowId := acc.windowId
    windowStartUtc := L.isoUtcFromNs bounds.1
    windowEndUtc := L.isoUtcFromNs bounds.2
    networkObserved := false
    behaviorObserved := true
    behaviorSupported := true
    behaviorProfile := some profile
    common := some
      { messagesCount := acc.messages
        interMessageDelta := (deltaStats acc.tsList).asTuple L
        secondsSincePreviousEvent := gapSeconds
        topicsActiveCount := acc.topicCounts.keys.length
        topicEntropy := BehaviorFeatures.topicEntropy L acc.topicCounts
        topTopicMessageShare := (acc.topicCounts.values.max?).map fun top => (top : ℚ) / acc.messages
        numericMessagesCount := acc.typeCounts.get "numeric"
        arrayMessagesCount := acc.typeCounts.get "array"
        stringMessagesCount := acc.typeCounts.get "string"
        qosLevelsDistinctCount := acc.qosLevels.card
        retainedMessagesCount := acc.retainedCount
        duplicateMessagesCount := acc.duplicateCount
        distinctMessageIdsCount := acc.messageIds.card
        valueChangeTransitionsCount := seqStats.transitions
        burstMaxMessagesPerSecond := acc.secondBins.values.max?
        activeFractionOfWindow := (max 1 acc.secondBins.keys.length : Nat) / max (1 / 1000000000) S.grid.windowSeconds }
    continuous :=
      if profile = .continuous ∨ profile = .degenerate then some
        { value := (valueStats.asTuple L)
          valueLast := seqStats.lastNumericValue
          valueDeltaAbs := seqStats.deltaAbs.asTuple L
          arrayLengthAvg := arrayLength.avg
          arrayLengthMax := arrayLength.max
          arrayLengthMin := arrayLength.min
          stringValuesDistinctCount := acc.stringValues.card
          constantValueStream := decide (profile = .degenerate) ||
            (decide (acc.distinctNumericValues.card ≤ 1) && decide (0 < acc.typeCounts.get "numeric")) }
      else none
    sparse :=
      if profile = .sparse then some
        { eventPresent := decide (0 < acc.messages)
          binaryStateFlipCount := seqStats.binaryFlips
          lastEventOffsetSeconds := (acc.tsList.getLast?).map fun last => ((last - bounds.1 : Int) : ℚ) / 1000000000 }
      else none
    observedTopics := acc.topicsMeta.sort.take topicCap
    observedApplications := acc.appsMeta.sort.take topicCap
    source := ⟨acc.srcMac, acc.srcIp, acc.internalName⟩ }

def BehaviorSetup.finalize (S : BehaviorSetup) (history : History) (acc : BehaviorWindowAccumulator) : BehaviorRow :=
  S.rowOf L (crossWindowGap history acc) acc

/-- A row where there is no telemetry. -/
def emptyBehaviorRow (scenarioId deviceName : String) (windowId : Int) (grid : WindowGrid) (behaviorSupported : Bool) :
    BehaviorRow :=
  let bounds := grid.windowBounds windowId
  { scenarioId := scenarioId
    deviceId := deviceName
    windowId := windowId
    windowStartUtc := L.isoUtcFromNs bounds.1
    windowEndUtc := L.isoUtcFromNs bounds.2
    networkObserved := false
    behaviorObserved := false
    behaviorSupported := behaviorSupported
    behaviorProfile := none
    common := none
    continuous := none
    sparse := none
    observedTopics := []
    observedApplications := []
    source := ⟨none, none, none⟩ }

/-- Rows of what is due, made before the history is pruned. -/
def BehaviorWindowManager.finalizeDue (m : BehaviorWindowManager) : List BehaviorRow × BehaviorWindowManager :=
  let due := WatermarkedTables.finalizeDue m.tracker m.windows
  (due.cells.map fun cell => m.finalize L m.historyByDevice cell.2,
    { m with
      tracker := due.tracker
      windows := due.live
      historyByDevice := match due.upTo with
        | none => m.historyByDevice
        | some hi => m.pruneHistory hi m.historyByDevice })

def BehaviorWindowManager.addEvent (m : BehaviorWindowManager) (event : MqttEvent) :
    Except ExtractionError (List BehaviorRow × BehaviorWindowManager) := do
  let diag := { m.diagnostics with messagesValidTotal := m.diagnostics.messagesValidTotal + 1 }
  match resolve L.lowerCase m.inventory event.mac event.ip with
  | none =>
    pure ([], { m with diagnostics := { diag with unresolvedTelemetrySources := diag.unresolvedTelemetrySources + 1 } })
  | some rec =>
    if behaviorProfileFor m.inventory rec.deviceName = .unsupported then
      pure ([], { m with diagnostics := { diag with messagesIgnoredUnsupported := diag.messagesIgnoredUnsupported + 1 } })
    else
      let (wid, disposition) := m.grid.assign event.tsNs m.clockToleranceNs
      let placements := diag.placements.note m.grid m.tracker event.tsNs wid disposition
      m.tracker.ensureAcceptable wid "telemetry event"
      let key := (wid, rec.deviceName)
      let acc ← update L m.grid ((m.windows.lookup key).getD (.new rec.deviceName wid)) event
      let windows := m.windows.insert key acc
      let m := { m with
        tracker := (m.tracker.observe event.tsNs wid).2
        windows := windows
        historyByDevice := Function.update m.historyByDevice rec.deviceName
          ((m.historyByDevice rec.deviceName).orderedInsert (· ≤ ·) event.tsNs)
        diagnostics := { diag with
          placements := placements
          capacityPeakUsage :=
            if (m.windows.lookup key).isSome then diag.capacityPeakUsage else max diag.capacityPeakUsage windows.keys.length
          eventsAppliedToAccumulators := diag.eventsAppliedToAccumulators + 1 } }
      pure (m.finalizeDue L)

/-- The rows of everything still open. -/
def BehaviorWindowManager.finish (m : BehaviorWindowManager) : List BehaviorRow × BehaviorWindowManager :=
  ((taken m.windows (allKeys m.windows)).map fun cell => m.finalize L m.historyByDevice cell.2, { m with windows := ∅ })

end Manager

end BehaviorFeatures
