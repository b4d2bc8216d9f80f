import AgenticSoc.JsonStyles
import AgenticSoc.TextLines
import AgenticSoc.Calendar
import AgenticSoc.Sorting
import Mathlib.Data.String.Basic

/-!
# The feature store

The writer collects rows in a buffer and appends a full buffer to a part file of its
own; finalising appends what is left and renames the directory. The reader goes
through the part files in the order of their names.
-/
namespace FeatureStore

open JsonText TextLines Sorting BlackboardFirewall

inductive Modality where
  | network
  | behavior
  | communication
deriving DecidableEq, Repr

/-! ## The fields of a row -/

def maskFields : List String := ["network_observed", "behavior_observed", "behavior_supported"]

def networkModelFeatures : List String :=
  ["packets_all_count", "packets_src_count", "packets_dst_count", "time_delta_avg", "time_delta_max",
    "time_delta_min", "time_delta_std", "unique_ips_all_count", "unique_ips_src_count", "unique_ips_dst_count",
    "unique_peer_count", "ports_all_count", "ports_src_count", "ports_dst_count", "proto_tcp_count",
    "proto_udp_count", "proto_icmp_count", "proto_arp_count", "proto_other_count", "protocol_diversity",
    "tcp_syn_count", "tcp_ack_count", "tcp_fin_count", "tcp_rst_count", "tcp_psh_count", "tcp_urg_count",
    "fragmented_packet_count", "packet_size_avg", "packet_size_max", "packet_size_min", "packet_size_std",
    "wire_size_avg", "wire_size_max", "wire_size_min", "wire_size_std", "ip_length_avg", "ip_length_max",
    "ip_length_min", "ip_length_std", "header_length_avg", "header_length_max", "header_length_min",
    "header_length_std", "payload_length_avg", "payload_length_max", "payload_length_min", "payload_length_std",
    "ttl_avg", "ttl_max", "ttl_min", "ttl_std", "tcp_window_avg", "tcp_window_max", "tcp_window_min",
    "tcp_window_std", "mss_observed_min", "mss_observed_max"]

def networkGraphMetadataFields : List String :=
  ["observed_ips_all", "observed_ips_src", "observed_ips_dst", "observed_macs_all", "observed_ports_all",
    "observed_protocols_all", "attacker_contact_observed", "broadcast_mac_observed", "multicast_ip_observed"]

def behaviorCommonFeatures : List String :=
  ["messages_count", "inter_message_delta_avg", "inter_message_delta_max", "inter_message_delta_min",
    "inter_message_delta_std", "seconds_since_previous_event", "topics_active_count", "topic_entropy",
    "top_topic_message_share", "numeric_messages_count", "array_messages_count", "string_messages_count",
    "qos_levels_distinct_count", "retained_messages_count", "duplicate_messages_count",
    "distinct_message_ids_count", "value_change_transitions_count", "burst_max_messages_per_second",
    "active_fraction_of_window"]

def continuousProfileFeatures : List String :=
  ["value_avg", "value_max", "value_min", "value_std", "value_last", "value_delta_abs_avg", "value_delta_abs_max",
    "value_delta_abs_min", "value_delta_abs_std", "array_length_avg", "array_length_max", "array_length_min",
    "string_values_distinct_count", "constant_value_stream"]

def sparseProfileFeatures : List String := ["event_present", "binary_state_flip_count", "last_event_offset_seconds"]

def behaviorGraphMetadataFields : List String :=
  ["observed_topics", "observed_applications", "telemetry_source_mac", "telemetry_source_ip", "internal_device_name"]

def communicationEndpointFields : List String :=
  ["src_entity_id", "dst_entity_id", "src_resolution_status", "dst_resolution_status", "src_mac", "dst_mac", "src_ip",
    "dst_ip"]

def communicationProvenanceFields : List String := ["raw_source", "extractor_version", "schema_version"]

def networkFieldTypes : List String :=
  ["scenario_id", "device_id", "window_start_utc", "window_end_utc", "window_id"] ++ maskFields ++
    networkModelFeatures ++ networkGraphMetadataFields

def behaviorFieldTypes : List String :=
  ["scenario_id", "device_id", "window_start_utc", "window_end_utc", "window_id"] ++ maskFields ++
    ["behavior_profile"] ++ behaviorCommonFeatures ++ continuousProfileFeatures ++ sparseProfileFeatures ++
    behaviorGraphMetadataFields

def communicationFieldTypes : List String :=
  ["scenario_id", "window_start_utc", "window_end_utc", "first_timestamp_utc", "last_timestamp_utc"] ++
    communicationEndpointFields ++
    ["window_id", "broadcast_indicator", "multicast_indicator", "src_ports_truncated", "dst_ports_truncated",
      "packet_count", "captured_byte_count", "wire_byte_count", "protocols", "protocol_packet_counts", "src_ports",
      "dst_ports"] ++ communicationProvenanceFields

/-- The fields that a row must have; no other is allowed. -/
def fieldTypes : Modality → List String
  | .network => networkFieldTypes
  | .behavior => behaviorFieldTypes
  | .communication => communicationFieldTypes

/-! ## The writer -/

/-- The files of a directory, by their names. -/
abbrev Directory := List (String × List Char)

/-- The output directories, by modality and scenario. -/
abbrev Store := Modality → String → Option Directory

/-- Appends to a file, which is there afterwards. -/
def appendFile (dir : Directory) (name : String) (text : List Char) : Directory :=
  if dir.any fun f => f.1 = name then dir.map fun f => if f.1 = name then (f.1, f.2 ++ text) else f
  else dir ++ [(name, text)]

/-- Five digits, and more where five are not enough. -/
def fiveDigits (n : Nat) : List Char :=
  let ds := Nat.toDigits 10 n
  List.replicate (5 - ds.length) '0' ++ ds

def partName (index : Nat) : String :=
  String.ofList ("part-".toList ++ fiveDigits index ++ ".jsonl".toList)

section Writing

variable {F : Type} (fmt : FloatFormat F)

abbrev Row (F : Type) := List (String × Json F)

def dumps (row : Row F) : List Char := writeIn fmt defaultStyle (.obj row)

structure Writer (F : Type) where
  scenarioId : String
  modality : Modality
  bufferRows : Nat
  tmpDir : Directory
  buffer : List (Row F)
  partIndex : Nat
  rowsWritten : Nat

def Writer.create (scenarioId : String) (modality : Modality) (bufferRows : Int) : Writer F where
  scenarioId := scenarioId
  modality := modality
  bufferRows := (max 1 bufferRows).toNat
  tmpDir := []
  buffer := []
  partIndex := 0
  rowsWritten := 0

/-- A row that is refused, with the fields it is refused for. -/
inductive RowError where
  | missing (modality : Modality) (fields : List String)
  | unexpected (modality : Modality) (fields : List String)

def flush (w : Writer F) : Writer F :=
  if w.buffer = [] then w
  else
    { w with
      buffer := []
      tmpDir := appendFile w.tmpDir (partName w.partIndex) (w.buffer.flatMap fun row => dumps fmt row ++ ['\n'])
      rowsWritten := w.rowsWritten + w.buffer.length
      partIndex := w.partIndex + 1 }

def missing (modality : Modality) (row : Row F) : List String :=
  (fieldTypes modality).filter fun f => f ∉ row.map Prod.fst

def unknown (modality : Modality) (row : Row F) : List String :=
  (row.map Prod.fst).filter fun f => f ∉ fieldTypes modality

def bufferRow (w : Writer F) (row : Row F) : Writer F :=
  let w := { w with buffer := w.buffer ++ [row] }
  if w.bufferRows ≤ w.buffer.length then flush fmt w else w

def writeRows (w : Writer F) : List (Row F) → Except RowError (Writer F)
  | [] => .ok w
  | row :: rows =>
    if missing w.modality row ≠ [] then .error (.missing w.modality (sortBy id (missing w.modality row)))
    else if unknown w.modality row ≠ [] then .error (.unexpected w.modality (sortBy id (unknown w.modality row)))
    else writeRows (bufferRow fmt w row) rows

/-- One call after the other. -/
def writeAll (w : Writer F) (calls : List (List (Row F))) : Except RowError (Writer F) := calls.foldlM (writeRows fmt) w

/-- The directory takes the place of an earlier one; the marker is gone by then. -/
def finalize (store : Store) (w : Writer F) : Store :=
  let w := flush fmt w
  let marked := appendFile w.tmpDir "_FINALIZING" []
  let dir := marked.filter fun f => f.1 ≠ "_FINALIZING"
  fun modality scenarioId => if modality = w.modality ∧ scenarioId = w.scenarioId then some dir else store modality scenarioId

end Writing

/-! ## The reader -/

section Reading

variable {F : Type} (fmt : FloatFormat F)

/-- A directory is scanned in an order of its own. -/
structure FileSystem where
  scan : Directory → Directory
  scan_perm : ∀ dir, (scan dir).Perm dir

inductive ReadError where
  | noOutput (modality : Modality) (scenarioId : String)
  | badLine (line : String)

def readLines : List String → Except ReadError (List (Json F))
  | [] => .ok []
  | line :: lines =>
    let line := strip line
    if line = "" then readLines lines
    else
      match read fmt line.toList with
      | none => .error (.badLine line)
      | some j => (readLines lines).map (j :: ·)

def readParts : Directory → Except ReadError (List (Json F))
  | [] => .ok []
  | part :: parts => do
    let rows ← readLines fmt (fileLines part.2)
    let rest ← readParts parts
    return rows ++ rest

def iterParts (fs : FileSystem) (store : Store) (scenarioId : String) (modality : Modality) :
    Except ReadError (List (Json F)) :=
  match store modality scenarioId with
  | none => .error (.noOutput modality scenarioId)
  | some dir => readParts fmt (sortBy Prod.fst ((fs.scan dir).filter fun f => "part-".toList.isPrefixOf f.1.toList))

end Reading

end FeatureStore
