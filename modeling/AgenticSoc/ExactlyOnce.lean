import AgenticSoc.BehaviorCounts
import AgenticSoc.CommunicationCounts
import AgenticSoc.NetworkCounts

/-!
# Every accepted event is counted exactly once

The three managers over any packets and any telemetry. Only a telemetry value that cannot
be compared with another one of the same moment makes an exception.
-/
namespace ExactlyOnce

open EventWindows LiveTables WatermarkedTables FeatureStatistics NetworkFeatures CommunicationRecords BehaviorFeatures
  EventSequences Collecting

variable (L : Library)

def NetworkCounted (S : NetworkSetup) (lateness : Nat) (packets : List Packet) : Prop :=
  AcceptedOnce (NetworkWindowManager.add L) (NetworkWindowManager.finish L) (.new S lateness) (NetworkCounts.windowOf S)
    (NetworkCounts.devicesOf L S) (fun _ => true) NetworkRow.key NetworkRow.packetsAllCount packets

/-- Unless the capacity is exceeded, the packets are counted on their edges and add up. -/
def CommunicationCounted (S : CommunicationSetup) (lateness : Nat) (packets : List Packet) : Prop :=
  (∀ live capacity wid, collect (CommunicationWindowManager.add L) (.new S lateness) packets ≠
    .error (.capacityExceeded live capacity wid)) →
  AcceptedOnce (CommunicationWindowManager.add L) (CommunicationWindowManager.finish L) (.new S lateness)
    (CommunicationCounts.windowOf S) (CommunicationCounts.edgesOf L S) (fun _ => true) CommunicationRow.key
    CommunicationRow.packetCount packets ∧
  ∀ rows m, collect (CommunicationWindowManager.add L) (.new S lateness) packets = .ok (rows, m) →
    m.diagnostics.packetsSeen = ((rows ++ (m.finish L).1).map CommunicationRow.packetCount).sum

/-- The events are counted for their devices and add up with the ignored ones. -/
def BehaviorCounted (S : BehaviorSetup) (lateness : Nat) (events : List MqttEvent) : Prop :=
  AcceptedOnce (BehaviorWindowManager.addEvent L) (BehaviorWindowManager.finish L) (.new S lateness)
    (BehaviorCounts.windowOf S) (BehaviorCounts.devicesOf L S) (BehaviorCounts.observed L S) BehaviorRow.key
    BehaviorRow.messagesCount events ∧
  ∀ rows m, collect (BehaviorWindowManager.addEvent L) (.new S lateness) events = .ok (rows, m) →
    m.diagnostics.messagesValidTotal = m.diagnostics.unresolvedTelemetrySources + m.diagnostics.messagesIgnoredUnsupported +
      ((rows ++ (m.finish L).1).map BehaviorRow.messagesCount).sum

theorem communication_counted (S : CommunicationSetup) (lateness : Nat) (packets : List Packet) :
    CommunicationCounted L S lateness packets := by
  intro hcapacity
  have honce := CommunicationCounts.packets_acceptedOnce L S lateness packets hcapacity
  refine ⟨honce, fun rows m hok => ?_⟩
  obtain ⟨err, herr, -⟩ | ⟨rows', m', hok', hcounted, -⟩ := honce
  · rw [hok] at herr
    cases herr
  · rw [hok] at hok'
    cases hok'
    rw [CommunicationCounts.packetsSeen_eq L S hok, hcounted.total]
    -- every packet runs along one edge
    simp [CommunicationCounts.edgesOf, CommunicationSetup.feeds]

theorem behavior_counted (S : BehaviorSetup) (lateness : Nat) (events : List MqttEvent) :
    BehaviorCounted L S lateness events ↔ ¬ BehaviorCounts.Incomparable L S lateness events := by
  rw [← BehaviorCounts.events_acceptedOnce]
  refine ⟨fun h => h.1, fun honce => ⟨honce, fun rows m hok => ?_⟩⟩
  obtain ⟨err, herr, -⟩ | ⟨rows', m', hok', hcounted, -⟩ := honce
  · rw [hok] at herr
    cases herr
  · rw [hok] at hok'
    cases hok'
    exact BehaviorCounts.messages_accounted L S hok hcounted

def plainLibrary : Library := ⟨BlackboardFirewall.asciiLowerCase, id, id, fun _ => ""⟩

def fiveSeconds : WindowGrid := ⟨0, 5, by decide +kernel⟩

def rfidSensor : DeviceInventory.DeviceRecord := ⟨"rfid-sensor", "aa:bb", "10.0.0.9", "sensor"⟩

def rfidSetup : BehaviorSetup := ⟨fiveSeconds, "s", [rfidSensor], 0⟩

/-- A text from the sensor one second after the start. -/
def rfidText (text : String) : MqttEvent :=
  ⟨1000000000, none, none, some "10.0.0.9", none, none, some "string", .text text, none, none, none, none⟩

end ExactlyOnce
