import AgenticSoc.BlackboardViews
import AgenticSoc.OrchestrationFirewall

/-!
# The snapshot of the Blackboard

The snapshot projects the first rows of the view: the newest item of each of the first keys,
the last items, and what the replicas and the instrumentation count. Before it is returned
its dump passes the ground-truth firewall, in which the record keys are dictionary keys.
-/
namespace BlackboardSnapshots

open BlackboardRecord BlackboardStorage BlackboardReplica BlackboardCoordinator BlackboardViews
open BlackboardFirewall PythonJson

/-! ## What the snapshot reads besides the view -/

structure LatencySnapshot (F : Type) where
  count : Nat
  p50Ms : F
  p95Ms : F
  maxMs : F
  meanMs : F

inductive SeriesName where
  | writeGlobal
  | readGlobal
  | replica (ρ : ReplicaId) (kind : ReplicaOperationKind) (statusOk : Bool)

def kindText : ReplicaOperationKind → String
  | .prepare => "prepare"
  | .commit => "commit"
  | .abort => "abort"
  | .externalUpsert => "external_upsert"

def SeriesName.text : SeriesName → String
  | .writeGlobal => "write_global_ms"
  | .readGlobal => "read_global_ms"
  | .replica ρ kind statusOk =>
    "replica[" ++ ReplicaId.text ρ ++ "]." ++ kindText kind ++ (if statusOk then "" else ".unhealthy")

structure Rejection (F : Type) where
  operationId : String
  outcome : String
  recordKey : Option String
  recordVersion : Option Nat
  contentHash : Option String
  durationMs : F
  atUtc : String
  reason : Option String

def counterKeys : List String :=
  ["writes_started", "committed", "committed_with_divergence", "partial_commit", "rejected_stale",
    "rejected_conflict", "rejected_schema", "rejected_integrity", "rejected_authorization", "failed_quorum",
    "failed_storage", "listener_errors", "aborts_issued", "resyncs_applied", "resyncs_refused", "reads_started",
    "read_consistent", "read_degraded_consistent", "read_not_found", "read_insufficient_quorum",
    "read_inconsistent", "read_unavailable", "read_authorization_rejected"]

/-- A latency series without samples has no statistics. -/
structure Instrumentation (F : Type) where
  counter : String → Nat
  latencies : List (SeriesName × Option (LatencySnapshot F))
  recentRejections : List (Rejection F)
  storageErrorCount : ReplicaId → Nat
  lastError : ReplicaId → Option String

/-! ## The contracts -/

structure ReplicaStatusV1 where
  replicaId : ReplicaId
  health : ReplicaHealth
  available : Bool
  storageErrorCount : Nat
  lastError : Option String
  committedRecordCount : Nat
  pendingRecordCount : Nat
  divergenceHistory : List String

/-- A summary has the fields of an item. -/
abbrev RecordSummaryV1 : Type := ViewItem

structure BlackboardSnapshotV1 (F : Type) where
  snapshotId : String
  generatedAtUtc : String
  latestByKey : List (String × RecordSummaryV1)
  recentRecords : List RecordSummaryV1
  replicaStatuses : List ReplicaStatusV1
  divergentReplicas : List ReplicaId
  counters : List (String × Nat)
  latencies : List (SeriesName × Option (LatencySnapshot F))
  recentRejections : List (Rejection F)
  unverifiedRowsExcluded : Nat
  truncated : Bool
  truncatedReplicas : List ReplicaId
  committedScanMaxRows : Nat
  committedScanChunkSize : Nat

def snapshotRecentLimit : Nat := 100
def snapshotMaxKeys : Nat := 500

/-! ## Dumps -/

section Dumps

variable {F : Type}

/-- A dictionary with text keys, and a list, each at one place only. -/
def dictOf (fields : List (String × PyValue F)) : PyValue F := .dict none (fields.map fun f => (.str f.1, f.2))

def listOf (items : List (PyValue F)) : PyValue F := .list none items

def textOrNone : Option String → PyValue F
  | none => .none
  | some s => .str s

def intOrNone : Option Nat → PyValue F
  | none => .none
  | some n => .int n

def healthText : ReplicaHealth → String
  | .healthy => "HEALTHY"
  | .unavailable => "UNAVAILABLE"
  | .diverged => "DIVERGED"

def replicaTexts (replicas : List ReplicaId) : PyValue F := listOf (replicas.map fun ρ => .str (ReplicaId.text ρ))

def summaryDump (i : RecordSummaryV1) : PyValue F := dictOf
  [("record_key", .str i.recordKey), ("record_type", .str (BlackboardRoundTrip.BlackboardRecordType.value i.recordType)),
    ("record_version", .int i.recordVersion), ("record_id", .str i.recordId), ("content_hash", .str i.contentHash),
    ("author_id", .str i.authorId), ("source_component", .str i.sourceComponent),
    ("logical_timestamp", textOrNone i.logicalTimestamp), ("window_id", intOrNone i.windowId),
    ("supporting_replicas", replicaTexts i.supportingReplicas)]

def statusDump (s : ReplicaStatusV1) : PyValue F := dictOf
  [("replica_id", .str (ReplicaId.text s.replicaId)), ("health", .str (healthText s.health)),
    ("available", .bool s.available), ("storage_error_count", .int s.storageErrorCount),
    ("last_error", textOrNone s.lastError), ("committed_record_count", .int s.committedRecordCount),
    ("pending_record_count", .int s.pendingRecordCount), ("divergence_history", listOf (s.divergenceHistory.map .str)),
    ("head", .none)]

def latencyDump : Option (LatencySnapshot F) → PyValue F
  | none => dictOf [("count", .int 0)]
  | some l => dictOf [("count", .int l.count), ("p50_ms", .float l.p50Ms), ("p95_ms", .float l.p95Ms),
      ("max_ms", .float l.maxMs), ("mean_ms", .float l.meanMs)]

def rejectionDump (r : Rejection F) : PyValue F := dictOf
  [("operation_id", .str r.operationId), ("outcome", .str r.outcome), ("record_key", textOrNone r.recordKey),
    ("record_version", intOrNone r.recordVersion), ("content_hash", textOrNone r.contentHash),
    ("duration_ms", .float r.durationMs), ("at_utc", .str r.atUtc), ("reason", textOrNone r.reason)]

def BlackboardSnapshotV1.modelDump (s : BlackboardSnapshotV1 F) : PyValue F := dictOf
  [("schema_version", .str "blackboard_snapshot_v1"), ("snapshot_id", .str s.snapshotId),
    ("generated_at_utc", .str s.generatedAtUtc), ("scope_replay_id", .none),
    ("latest_by_key", dictOf (s.latestByKey.map fun e => (e.1, summaryDump e.2))),
    ("recent_records", listOf (s.recentRecords.map summaryDump)),
    ("replica_statuses", listOf (s.replicaStatuses.map statusDump)),
    ("divergent_replicas", replicaTexts s.divergentReplicas),
    ("counters", dictOf (s.counters.map fun e => (e.1, .int e.2))),
    ("latencies", dictOf (s.latencies.map fun e => (e.1.text, latencyDump e.2))),
    ("recent_rejections", listOf (s.recentRejections.map rejectionDump)),
    ("unverified_rows_excluded", .int s.unverifiedRowsExcluded), ("truncated", .bool s.truncated),
    ("truncated_replicas", replicaTexts s.truncatedReplicas),
    ("bounds", dictOf [("snapshot_recent_limit", .int snapshotRecentLimit), ("snapshot_max_keys", .int snapshotMaxKeys),
      ("committed_scan_max_rows", .int s.committedScanMaxRows),
      ("committed_scan_chunk_size", .int s.committedScanChunkSize), ("view_complete", .bool (!s.truncated))]),
    ("provenance", dictOf [("source_component", .str "backend.app.services.blackboard_service"),
      ("note", .str "operational projection of the Stage-4A replicated core")])]

end Dumps

/-! ## The snapshot -/

/-- The last item of a key is its newest; keys beyond the limit are left out. -/
def noteLatest (latest : List (String × RecordSummaryV1)) (item : ViewItem) : List (String × RecordSummaryV1) :=
  if latest.any fun e => e.1 = item.recordKey then
    latest.map fun e => if e.1 = item.recordKey then (e.1, item) else e
  else if latest.length < snapshotMaxKeys then latest ++ [(item.recordKey, item)]
  else latest

def latestByKey (items : List ViewItem) : List (String × RecordSummaryV1) := items.foldl noteLatest []

section Snapshots

variable {F : Type} (fmt : PyFloats F) (lc : LowerCase) (instr : Instrumentation F)
variable (c : Coordinator) (settings : ScanSettings) (status : ReplicaId → ReplicaStatus) (tables : ReplicaId → Tables)

def replicaStatus (ρ : ReplicaId) : ReplicaStatusV1 where
  replicaId := ρ
  health := (status ρ).health
  available := decide ((status ρ).health ≠ .unavailable)
  storageErrorCount := instr.storageErrorCount ρ
  lastError := instr.lastError ρ
  committedRecordCount := (tables ρ).committedRecords.length
  pendingRecordCount := (tables ρ).pendingPrepares.length
  divergenceHistory := (status ρ).divergenceHistory

/-- The view behind the snapshot. -/
def snapshotView : CommittedView := committedView c settings status tables none settings.committedScanMaxRows 0 none

def project (snapshotId generatedAtUtc : String) : BlackboardSnapshotV1 F :=
  let view := snapshotView c settings status tables
  { snapshotId := snapshotId
    generatedAtUtc := generatedAtUtc
    latestByKey := latestByKey view.items
    recentRecords := view.items.drop (view.items.length - snapshotRecentLimit)
    replicaStatuses := c.replicas.map (replicaStatus instr status tables)
    divergentReplicas := c.replicas.filter fun ρ => (status ρ).health = .diverged
    counters := counterKeys.map fun k => (k, instr.counter k)
    latencies := instr.latencies
    recentRejections := instr.recentRejections
    unverifiedRowsExcluded := view.unverifiedExcluded
    truncated := view.truncated
    truncatedReplicas := view.truncatedReplicas
    committedScanMaxRows := settings.committedScanMaxRows
    committedScanChunkSize := settings.committedScanChunkSize }

/-- The error names the first paths. -/
def assertNoGroundTruth (value : PyValue F) (what : String) : Except String Unit :=
  let violations := findGroundTruthViolations fmt lc value "$"
  if violations.isEmpty then .ok ()
  else .error ("ground-truth leakage in " ++ what ++ " at: " ++ listText (violations.take 10))

def snapshot (snapshotId generatedAtUtc : String) : Except String (BlackboardSnapshotV1 F) := do
  let snap := project instr c settings status tables snapshotId generatedAtUtc
  assertNoGroundTruth fmt lc snap.modelDump "blackboard_snapshot"
  return snap

end Snapshots

/-! ## The firewall on the dump -/

section Firewall

variable {F : Type} {lc : LowerCase}

/-- Nothing of the value is shared and none of its keys is objected to. -/
structure Passes (lc : LowerCase) (v : PyValue F) : Prop where
  unshared : OrchestrationFirewall.Unshared v
  clear : Clear (keyHitsForbidden lc) v

theorem unshared_dictOf {fields : List (String × PyValue F)} (h : ∀ f ∈ fields, OrchestrationFirewall.Unshared f.2) :
    OrchestrationFirewall.Unshared (dictOf fields) := by
  intro u hu
  cases hu with
  | self => rfl
  | entry hu he =>
    obtain ⟨f, hf, rfl⟩ := List.mem_map.mp he
    exact h f hf u hu

theorem clear_dictOf {hits : String → Bool} {fields : List (String × PyValue F)} :
    Clear hits (dictOf fields) ↔ ∀ f ∈ fields, hits f.1 = false ∧ Clear hits f.2 := by
  unfold dictOf
  rw [clear_dict]
  simp only [List.mem_map, forall_exists_index, and_imp, forall_apply_eq_imp_iff₂, keyClear, Bool.not_eq_true']

theorem passes_listOf {items : List (PyValue F)} (h : ∀ v ∈ items, Passes lc v) : Passes lc (listOf items) where
  unshared := by
    intro u hu
    cases hu with
    | self => rfl
    | item hu hv => exact (h _ hv).unshared u hu
  clear := (clear_list).mpr fun v hv => (h v (List.mem_of_mem_take hv)).clear

theorem passes_scalar {v : PyValue F} (hl : ∀ i items, v ≠ .list i items) (hd : ∀ i entries, v ≠ .dict i entries) :
    Passes lc v where
  unshared := by
    intro u hu
    cases hu with
    | self =>
      cases v with
      | list i items => exact absurd rfl (hl i items)
      | dict i entries => exact absurd rfl (hd i entries)
      | _ => rfl
    | item hu hv => exact absurd rfl (hl _ _)
    | entry hu he => exact absurd rfl (hd _ _)
  clear := clear_scalar hl hd

theorem passes_str (s : String) : Passes lc (.str s : PyValue F) := passes_scalar (fun _ _ h => by cases h) fun _ _ h => by cases h
theorem passes_int (n : Int) : Passes lc (.int n : PyValue F) := passes_scalar (fun _ _ h => by cases h) fun _ _ h => by cases h
theorem passes_bool (b : Bool) : Passes lc (.bool b : PyValue F) := passes_scalar (fun _ _ h => by cases h) fun _ _ h => by cases h
theorem passes_float (x : F) : Passes lc (.float x : PyValue F) := passes_scalar (fun _ _ h => by cases h) fun _ _ h => by cases h
theorem passes_none : Passes lc (.none : PyValue F) := passes_scalar (fun _ _ h => by cases h) fun _ _ h => by cases h

theorem passes_textOrNone (s : Option String) : Passes lc (textOrNone s : PyValue F) := by
  cases s with
  | none => exact passes_none
  | some s => exact passes_str s

theorem passes_intOrNone (n : Option Nat) : Passes lc (intOrNone n : PyValue F) := by
  cases n with
  | none => exact passes_none
  | some n => exact passes_int n

/-- The forbidden names by characters. -/
def forbiddenChars : List (List Char) :=
  [['l', 'a', 'b', 'e', 'l'], ['l', 'a', 'b', 'e', 'l', '1'], ['l', 'a', 'b', 'e', 'l', '2'],
    ['l', 'a', 'b', 'e', 'l', '3'], ['l', 'a', 'b', 'e', 'l', '4'],
    ['l', 'a', 'b', 'e', 'l', '_', 'f', 'u', 'l', 'l'], ['i', 's', '_', 'a', 't', 't', 'a', 'c', 'k'],
    ['a', 't', 't', 'a', 'c', 'k'],
    ['a', 't', 't', 'a', 'c', 'k', '_', 'c', 'a', 't', 'e', 'g', 'o', 'r', 'y'],
    ['a', 't', 't', 'a', 'c', 'k', '_', 'n', 'a', 'm', 'e'],
    ['a', 't', 't', 'a', 'c', 'k', '_', 'n', 'a', 'm', 'e', 's'], ['t', 'a', 'r', 'g', 'e', 't'],
    ['t', 'a', 'r', 'g', 'e', 't', 's'], ['t', 'a', 'r', 'g', 'e', 't', '_', 'd', 'e', 'v', 'i', 'c', 'e'],
    ['w', 'h', 'o', 'l', 'e', '_', 'n', 'e', 't', 'w', 'o', 'r', 'k', '_', 't', 'a', 'r', 'g', 'e', 't'],
    ['g', 'r', 'o', 'u', 'n', 'd', '_', 't', 'r', 'u', 't', 'h']]

theorem forbiddenChars_eq : forbiddenGroundTruthKeys.map String.toList = forbiddenChars := by decide

def isNameChar (c : Char) : Bool := isTokenChar c || ['_', '[', ']', '.'].contains c

/-- The name is in lower case, and neither it nor a run of letters and digits in it is forbidden. -/
def plainName (name : List Char) : Bool :=
  name.all isNameChar && !forbiddenChars.contains name &&
    (name.splitOnP fun c => !isTokenChar c).all fun t => !forbiddenChars.contains t

def plainNames (names : List String) : Bool := names.all fun k => plainName k.toList

theorem isNameChar_plain {c : Char} (h : isNameChar c = true) :
    c.toNat < 128 ∧ c.toLower = c ∧ BlackboardRecord.isSpace c = false := by
  have hlt : c.toNat < 128 := by
    unfold isNameChar isTokenChar at h
    simp only [Bool.or_eq_true, Bool.and_eq_true, decide_eq_true_iff, List.contains_iff_mem, List.mem_cons,
      List.not_mem_nil, or_false] at h
    rcases h with (⟨-, hz⟩ | hdigit) | rfl | rfl | rfl | rfl
    · exact Nat.lt_of_le_of_lt hz (by decide)
    · unfold Char.isDigit at hdigit
      simp only [Bool.and_eq_true, decide_eq_true_iff] at hdigit
      exact Nat.lt_of_le_of_lt hdigit.2 (by decide)
    all_goals decide
  have hall : ∀ n : Fin 128, isNameChar (Char.ofNat n) = true →
      (Char.ofNat n).toLower = Char.ofNat n ∧ BlackboardRecord.isSpace (Char.ofNat n) = false := by
    decide
  have hc := hall ⟨c.toNat, hlt⟩
  rw [Char.ofNat_toNat] at hc
  exact ⟨hlt, hc h⟩

theorem not_forbidden_of_chars {k : String} (h : forbiddenChars.contains k.toList = false) :
    forbiddenGroundTruthKeys.contains k = false := by
  rw [← forbiddenChars_eq] at h
  by_contra hmem
  rw [Bool.not_eq_false, List.contains_iff_mem] at hmem
  have hchars := List.mem_map_of_mem (f := String.toList) hmem
  rw [← List.contains_iff_mem, h] at hchars
  cases hchars

theorem dropWhile_eq_self {p : Char → Bool} {l : List Char} (h : ∀ c ∈ l, p c = false) : l.dropWhile p = l := by
  cases l with
  | nil => rfl
  | cons c l => rw [List.dropWhile_cons_of_neg]; simpa using h c List.mem_cons_self

/-- The shared walk does not object to a plain name, whatever the rule of lower case. -/
theorem plainName_not_hit {k : String} (h : plainName k.toList = true) : keyHitsForbidden lc k = false := by
  unfold plainName at h
  rw [Bool.and_eq_true, Bool.and_eq_true, List.all_eq_true, List.all_eq_true, Bool.not_eq_true'] at h
  obtain ⟨⟨hchars, hname⟩, htokens⟩ := h
  have hspace : ∀ c ∈ k.toList, BlackboardRecord.isSpace c = false := fun c hc => (isNameChar_plain (hchars c hc)).2.2
  have hstrip : strip k = k := by
    unfold strip
    rw [dropWhile_eq_self hspace, dropWhile_eq_self fun c hc => hspace c (List.mem_reverse.mp hc), List.reverse_reverse,
      String.ofList_toList]
  have hnormal : normalKey lc k = k := by
    unfold normalKey
    rw [hstrip, String.ext_iff, lc.lower_ascii k fun c hc => (isNameChar_plain (hchars c hc)).1]
    exact (List.map_congr_left fun c hc => (isNameChar_plain (hchars c hc)).2.1).trans (List.map_id _)
  unfold keyHitsForbidden
  rw [hnormal, not_forbidden_of_chars hname, Bool.false_or, List.any_eq_false]
  intro t ht hcompound
  obtain ⟨l, hl, rfl⟩ := List.mem_map.mp ht
  have hl := (List.mem_filter.mp hl).1
  have hmem : forbiddenGroundTruthKeys.contains (String.ofList l) = true :=
    List.contains_iff_mem.mpr (List.mem_filter.mp (List.contains_iff_mem.mp hcompound)).1
  rw [not_forbidden_of_chars (by simpa using htokens l hl)] at hmem
  cases hmem

theorem plain_not_hit {names : List String} (h : plainNames names = true) {k : String} (hk : k ∈ names) :
    keyHitsForbidden lc k = false :=
  plainName_not_hit (List.all_eq_true.mp h k hk)

theorem passes_dictOf {fields : List (String × PyValue F)} (hnames : plainNames (fields.map Prod.fst) = true)
    (h : ∀ f ∈ fields, Passes lc f.2) : Passes lc (dictOf fields) where
  unshared := unshared_dictOf fun f hf => (h f hf).unshared
  clear := (clear_dictOf).mpr fun f hf => ⟨plain_not_hit hnames (List.mem_map_of_mem hf), (h f hf).clear⟩

theorem passes_replicaTexts (replicas : List ReplicaId) : Passes lc (replicaTexts replicas : PyValue F) := by
  refine passes_listOf fun v hv => ?_
  obtain ⟨ρ, -, rfl⟩ := List.mem_map.mp hv
  exact passes_str _

theorem passes_summary (i : RecordSummaryV1) : Passes lc (summaryDump i : PyValue F) := by
  refine passes_dictOf (by simp only [List.map]; decide) ?_
  simp only [List.forall_mem_cons, List.not_mem_nil, false_implies, implies_true, and_true]
  exact ⟨passes_str _, passes_str _, passes_int _, passes_str _, passes_str _, passes_str _, passes_str _,
    passes_textOrNone _, passes_intOrNone _, passes_replicaTexts _⟩

theorem passes_status (s : ReplicaStatusV1) : Passes lc (statusDump s : PyValue F) := by
  have hhistory : Passes lc (listOf (s.divergenceHistory.map .str) : PyValue F) := by
    refine passes_listOf fun v hv => ?_
    obtain ⟨entry, -, rfl⟩ := List.mem_map.mp hv
    exact passes_str _
  refine passes_dictOf (by simp only [List.map]; decide) ?_
  simp only [List.forall_mem_cons, List.not_mem_nil, false_implies, implies_true, and_true]
  exact ⟨passes_str _, passes_str _, passes_bool _, passes_int _, passes_textOrNone _, passes_int _, passes_int _,
    hhistory, passes_none⟩

theorem passes_latency (l : Option (LatencySnapshot F)) : Passes lc (latencyDump l) := by
  cases l with
  | none =>
    refine passes_dictOf (by simp only [List.map]; decide) ?_
    simp only [List.forall_mem_cons, List.not_mem_nil, false_implies, implies_true, and_true]
    exact passes_int _
  | some l =>
    refine passes_dictOf (by simp only [List.map]; decide) ?_
    simp only [List.forall_mem_cons, List.not_mem_nil, false_implies, implies_true, and_true]
    exact ⟨passes_int _, passes_float _, passes_float _, passes_float _, passes_float _⟩

theorem passes_rejection (r : Rejection F) : Passes lc (rejectionDump r) := by
  refine passes_dictOf (by simp only [List.map]; decide) ?_
  simp only [List.forall_mem_cons, List.not_mem_nil, false_implies, implies_true, and_true]
  exact ⟨passes_str _, passes_str _, passes_textOrNone _, passes_intOrNone _, passes_textOrNone _, passes_float _,
    passes_str _, passes_textOrNone _⟩

theorem series_plain (n : SeriesName) : keyHitsForbidden lc n.text = false := by
  have hplain : plainNames [n.text] = true := by
    cases n with
    | writeGlobal => decide
    | readGlobal => decide
    | replica ρ kind statusOk => cases ρ <;> cases kind <;> cases statusOk <;> decide
  exact plain_not_hit hplain (List.mem_singleton_self _)

theorem passes_series (latencies : List (SeriesName × Option (LatencySnapshot F))) :
    Passes lc (dictOf (latencies.map fun e => (e.1.text, latencyDump e.2))) where
  unshared := by
    refine unshared_dictOf fun f hf => ?_
    obtain ⟨e, -, rfl⟩ := List.mem_map.mp hf
    have hpasses : Passes lc (latencyDump e.2) := passes_latency e.2
    exact hpasses.unshared
  clear := by
    refine (clear_dictOf).mpr fun f hf => ?_
    obtain ⟨e, -, rfl⟩ := List.mem_map.mp hf
    exact ⟨series_plain e.1, (passes_latency e.2).clear⟩

theorem passes_counters (counter : String → Nat) :
    Passes lc (dictOf ((counterKeys.map fun k => (k, counter k)).map fun e => (e.1, .int e.2)) : PyValue F) := by
  refine passes_dictOf ?_ ?_
  · rw [List.map_map, List.map_map]
    exact (by decide : plainNames counterKeys = true)
  · intro f hf
    obtain ⟨e, -, rfl⟩ := List.mem_map.mp hf
    exact passes_int _

theorem passes_each {α : Type} {items : List α} {dump : α → PyValue F} (h : ∀ a, Passes lc (dump a)) :
    Passes lc (listOf (items.map dump)) := by
  refine passes_listOf fun v hv => ?_
  obtain ⟨a, -, rfl⟩ := List.mem_map.mp hv
  exact h a

theorem unshared_latest (latest : List (String × RecordSummaryV1)) :
    OrchestrationFirewall.Unshared (dictOf (latest.map fun e => (e.1, summaryDump e.2)) : PyValue F) := by
  refine unshared_dictOf fun f hf => ?_
  obtain ⟨e, -, rfl⟩ := List.mem_map.mp hf
  have hpasses : Passes asciiLowerCase (summaryDump e.2 : PyValue F) := passes_summary e.2
  exact hpasses.unshared

/-- The record keys are dictionary keys of the projection. -/
theorem clear_latest {latest : List (String × RecordSummaryV1)} :
    Clear (keyHitsForbidden lc) (dictOf (latest.map fun e => (e.1, summaryDump e.2)) : PyValue F) ↔
      ∀ e ∈ latest, keyHitsForbidden lc e.1 = false := by
  rw [clear_dictOf]
  constructor
  · intro h e he
    exact (h (e.1, summaryDump e.2) (List.mem_map_of_mem he)).1
  · intro h f hf
    obtain ⟨e, he, rfl⟩ := List.mem_map.mp hf
    exact ⟨h e he, (passes_summary e.2).clear⟩

theorem passes_bounds (s : BlackboardSnapshotV1 F) : Passes lc (dictOf [("snapshot_recent_limit", .int snapshotRecentLimit),
    ("snapshot_max_keys", .int snapshotMaxKeys), ("committed_scan_max_rows", .int s.committedScanMaxRows),
    ("committed_scan_chunk_size", .int s.committedScanChunkSize), ("view_complete", .bool (!s.truncated))] : PyValue F) := by
  refine passes_dictOf (by simp only [List.map]; decide) ?_
  simp only [List.forall_mem_cons, List.not_mem_nil, false_implies, implies_true, and_true]
  exact ⟨passes_int _, passes_int _, passes_int _, passes_int _, passes_bool _⟩

theorem passes_provenance : Passes lc (dictOf [("source_component", .str "backend.app.services.blackboard_service"),
    ("note", .str "operational projection of the Stage-4A replicated core")] : PyValue F) := by
  refine passes_dictOf (by simp only [List.map]; decide) ?_
  simp only [List.forall_mem_cons, List.not_mem_nil, false_implies, implies_true, and_true]
  exact ⟨passes_str _, passes_str _⟩

/-- The fields of the dump around the one by key. -/
theorem modelDump_fields (lc : LowerCase) {s : BlackboardSnapshotV1 F} {counter : String → Nat}
    (hcounters : s.counters = counterKeys.map fun k => (k, counter k)) :
    ∃ before after : List (String × PyValue F), plainNames ((before ++ after).map Prod.fst) = true ∧
      (∀ f ∈ before ++ after, Passes lc f.2) ∧ s.modelDump =
        dictOf (before ++ ("latest_by_key", dictOf (s.latestByKey.map fun e => (e.1, summaryDump e.2))) :: after) := by
  have hcount : Passes lc (dictOf (s.counters.map fun e => (e.1, .int e.2)) : PyValue F) := by
    rw [hcounters]
    exact passes_counters counter
  refine ⟨_ :: _ :: _ :: _ :: [], _, ?_, ?_, rfl⟩
  · simp only [List.cons_append, List.nil_append, List.map]
    decide
  · simp only [List.cons_append, List.nil_append, List.forall_mem_cons, List.not_mem_nil, false_implies, implies_true,
      and_true]
    exact ⟨passes_str _, passes_str _, passes_str _, passes_none, passes_each passes_summary, passes_each passes_status,
      passes_replicaTexts _, hcount, passes_series _, passes_each passes_rejection, passes_int _, passes_bool _,
      passes_replicaTexts _, passes_bounds s, passes_provenance⟩

/-- The firewall objects to the dump just when it objects to a record key in it. -/
theorem violations_nil_iff {fmt : PyFloats F} {s : BlackboardSnapshotV1 F} {counter : String → Nat}
    (hcounters : s.counters = counterKeys.map fun k => (k, counter k)) :
    findGroundTruthViolations fmt lc s.modelDump "$" = [] ↔ ∀ e ∈ s.latestByKey, keyHitsForbidden lc e.1 = false := by
  obtain ⟨before, after, hnames, hpass, hdump⟩ := modelDump_fields lc hcounters
  have hunshared : OrchestrationFirewall.Unshared s.modelDump := by
    rw [hdump]
    refine unshared_dictOf fun f hf => ?_
    rcases List.mem_append.mp hf with hf | hf
    · exact (hpass f (List.mem_append_left _ hf)).unshared
    · rcases List.mem_cons.mp hf with rfl | hf
      · exact unshared_latest _
      · exact (hpass f (List.mem_append_right _ hf)).unshared
  rw [findGroundTruthViolations_nil fmt lc (BlackboardRoundTrip.coherent_of_unshared hunshared), hdump, clear_dictOf]
  constructor
  · intro h
    exact (clear_latest).mp (h _ (List.mem_append_right _ List.mem_cons_self)).2
  · intro h f hf
    have hplain : f ∈ before ++ after → keyHitsForbidden lc f.1 = false ∧ Clear (keyHitsForbidden lc) f.2 :=
      fun hf => ⟨plain_not_hit hnames (List.mem_map_of_mem hf), (hpass f hf).clear⟩
    rcases List.mem_append.mp hf with hf | hf
    · exact hplain (List.mem_append_left _ hf)
    · rcases List.mem_cons.mp hf with rfl | hf
      · have hname : plainNames ["latest_by_key"] = true := by decide
        exact ⟨plain_not_hit hname (List.mem_singleton_self _), (clear_latest).mpr h⟩
      · exact hplain (List.mem_append_right _ hf)

end Firewall

end BlackboardSnapshots
