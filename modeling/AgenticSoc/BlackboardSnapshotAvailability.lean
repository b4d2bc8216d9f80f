import AgenticSoc.BlackboardListings
import AgenticSoc.BlackboardTrace

/-!
# When the snapshot is available

The snapshot returns and lists what it reads as long as the firewall has no objection to a
record key that it lists. A key that is fit for a record may be one that the firewall objects
to; after the first such record the snapshot is not available any more.
-/
namespace BlackboardSnapshotAvailability

open BlackboardRecord BlackboardStorage BlackboardReplica BlackboardCoordinator BlackboardViews BlackboardSnapshots
open BlackboardFirewall PythonJson

/-! ## The keys listed -/

/-- The keys in order of first appearance. -/
def firstKeys (ks : List String) : List String := ks.reverse.dedup.reverse

theorem firstKeys_append (ks : List String) (k : String) :
    firstKeys (ks ++ [k]) = if k ∈ ks then firstKeys ks else firstKeys ks ++ [k] := by
  unfold firstKeys
  rw [List.reverse_append, List.reverse_singleton, List.singleton_append]
  by_cases hk : k ∈ ks
  · rw [List.dedup_cons_of_mem (List.mem_reverse.mpr hk), if_pos hk]
  · rw [List.dedup_cons_of_notMem (mt List.mem_reverse.mp hk), List.reverse_cons, if_neg hk]

theorem mem_firstKeys {ks : List String} {k : String} : k ∈ firstKeys ks ↔ k ∈ ks := by
  unfold firstKeys
  rw [List.mem_reverse, List.mem_dedup, List.mem_reverse]

/-- What the newest items by key have to do with the items seen. -/
structure Noted (seen : List ViewItem) (latest : List (String × RecordSummaryV1)) : Prop where
  keys : latest.map Prod.fst = (firstKeys (seen.map ViewItem.recordKey)).take snapshotMaxKeys
  newest : ∀ e ∈ latest, ∃ before after, seen = before ++ e.2 :: after ∧ e.2.recordKey = e.1 ∧
    ∀ i ∈ after, i.recordKey ≠ e.1

/-- An entry stays the newest of its key when another key follows. -/
theorem newest_append {seen : List ViewItem} {e : String × RecordSummaryV1} {x : ViewItem} (hx : x.recordKey ≠ e.1)
    (h : ∃ before after, seen = before ++ e.2 :: after ∧ e.2.recordKey = e.1 ∧ ∀ i ∈ after, i.recordKey ≠ e.1) :
    ∃ before after, seen ++ [x] = before ++ e.2 :: after ∧ e.2.recordKey = e.1 ∧ ∀ i ∈ after, i.recordKey ≠ e.1 := by
  obtain ⟨before, after, rfl, hkey, hafter⟩ := h
  refine ⟨before, after ++ [x], by rw [List.append_assoc, List.cons_append], hkey, ?_⟩
  intro i hi
  rcases List.mem_append.mp hi with hi | hi
  · exact hafter i hi
  · rw [List.mem_singleton.mp hi]
    exact hx

theorem noted_step {seen : List ViewItem} {latest : List (String × RecordSummaryV1)} (h : Noted seen latest)
    (x : ViewItem) : Noted (seen ++ [x]) (noteLatest latest x) := by
  have hmem : (latest.any fun e => e.1 = x.recordKey) = true ↔ x.recordKey ∈ latest.map Prod.fst := by
    rw [List.any_eq_true, List.mem_map]
    simp only [decide_eq_true_iff]
  have hlen : latest.length = min snapshotMaxKeys (firstKeys (seen.map ViewItem.recordKey)).length := by
    rw [← List.length_map (f := Prod.fst), h.keys, List.length_take]
  unfold noteLatest
  by_cases hany : (latest.any fun e => e.1 = x.recordKey) = true
  · have hseen : x.recordKey ∈ seen.map ViewItem.recordKey := by
      have hk := hmem.mp hany
      rw [h.keys] at hk
      exact (mem_firstKeys).mp (List.mem_of_mem_take hk)
    rw [if_pos hany]
    constructor
    · rw [List.map_append, List.map_singleton, firstKeys_append, if_pos hseen, ← h.keys, List.map_map]
      apply List.map_congr_left
      intro e he
      dsimp only [Function.comp_apply]
      split <;> rfl
    · intro e he
      obtain ⟨e', he', rfl⟩ := List.mem_map.mp he
      by_cases hk : e'.1 = x.recordKey
      · rw [if_pos hk]
        exact ⟨seen, [], rfl, hk.symm, fun i hi => absurd hi List.not_mem_nil⟩
      · rw [if_neg hk]
        exact newest_append (fun he => hk he.symm) (h.newest e' he')
  · have hnew : x.recordKey ∉ latest.map Prod.fst := mt hmem.mpr hany
    have hother : ∀ e ∈ latest, x.recordKey ≠ e.1 := by
      intro e he hk
      exact hnew (hk ▸ List.mem_map_of_mem he)
    rw [if_neg hany]
    by_cases hroom : latest.length < snapshotMaxKeys
    · have hall : (firstKeys (seen.map ViewItem.recordKey)).take snapshotMaxKeys =
          firstKeys (seen.map ViewItem.recordKey) := List.take_of_length_le (by omega)
      have hunseen : x.recordKey ∉ seen.map ViewItem.recordKey := by
        intro hk
        rw [h.keys, hall] at hnew
        exact hnew ((mem_firstKeys).mpr hk)
      rw [if_pos hroom]
      constructor
      · rw [List.map_append, List.map_append, List.map_singleton, List.map_singleton, firstKeys_append, if_neg hunseen,
          h.keys, hall, List.take_of_length_le]
        rw [List.length_append, List.length_singleton]
        omega
      · intro e he
        rcases List.mem_append.mp he with he | he
        · exact newest_append (hother e he) (h.newest e he)
        · rw [List.mem_singleton.mp he]
          exact ⟨seen, [], rfl, rfl, fun i hi => absurd hi List.not_mem_nil⟩
    · rw [if_neg hroom]
      constructor
      · rw [h.keys, List.map_append, List.map_singleton, firstKeys_append]
        split
        · rfl
        · rw [List.take_append_of_le_length (by omega)]
      · intro e he
        exact newest_append (hother e he) (h.newest e he)

theorem latestByKey_noted (items : List ViewItem) : Noted items (latestByKey items) := by
  induction items using List.reverseRecOn with
  | nil => exact ⟨rfl, fun e he => absurd he List.not_mem_nil⟩
  | append_singleton seen x ih =>
    unfold latestByKey at ih ⊢
    rw [List.foldl_append]
    exact noted_step ih x

/-! ## Availability -/

section Availability

variable {F : Type} (fmt : PyFloats F) (lc : LowerCase) (instr : Instrumentation F)
variable (c : Coordinator) (settings : ScanSettings) (status : ReplicaId → ReplicaStatus) (tables : ReplicaId → Tables)
variable (snapshotId generatedAtUtc : String)

/-- The rows that the snapshot reads: the first of those that a quorum was seen to hold. -/
def readRows : List RowKey :=
  (held c.settings.quorumSize (responsive c status)
    (scannedRows settings tables none settings.committedScanMaxRows)).sort.take settings.committedScanMaxRows

def listedKeys : List String := (firstKeys ((readRows c settings status tables).map keyOf)).take snapshotMaxKeys

/-- The snapshot lists the newest row of each of the first keys that it read, and the last rows. -/
structure Lists (snap : BlackboardSnapshotV1 F) : Prop where
  keys : snap.latestByKey.map Prod.fst = listedKeys c settings status tables
  newest : ∀ e ∈ snap.latestByKey, e.2.key ∈ readRows c settings status tables ∧ keyOf e.2.key = e.1 ∧
    ∀ k ∈ readRows c settings status tables, keyOf k = e.1 → k ≤ e.2.key
  recent : snap.recentRecords.map ViewItem.key =
    (readRows c settings status tables).drop ((readRows c settings status tables).length - snapshotRecentLimit)

def Available : Prop :=
  ∃ snap, snapshot fmt lc instr c settings status tables snapshotId generatedAtUtc = .ok snap ∧
    Lists c settings status tables snap

variable {c settings status tables}

theorem items_read : (snapshotView c settings status tables).items.map ViewItem.key = readRows c settings status tables := by
  unfold snapshotView
  rw [view_keys, slice_zero, Option.getD_none]
  rfl

theorem items_keyed : (snapshotView c settings status tables).items.map ViewItem.recordKey =
    (readRows c settings status tables).map keyOf := by
  rw [← items_read, List.map_map]
  rfl

theorem project_lists : Lists c settings status tables (project instr c settings status tables snapshotId generatedAtUtc) := by
  have hnoted := latestByKey_noted (snapshotView c settings status tables).items
  constructor
  · rw [listedKeys, ← items_keyed]
    exact hnoted.keys
  · intro e he
    obtain ⟨before, after, hitems, hkey, hafter⟩ := hnoted.newest e he
    have hread := (items_read (c := c)).symm.trans (congrArg (List.map ViewItem.key) hitems)
    rw [List.map_append, List.map_cons] at hread
    have hsorted : (readRows c settings status tables).Pairwise (· ≤ ·) :=
      (Finset.pairwise_sort _ _).sublist (List.take_sublist _ _)
    rw [hread] at hsorted ⊢
    refine ⟨List.mem_append_right _ List.mem_cons_self, hkey, ?_⟩
    intro k hk hsame
    rcases List.mem_append.mp hk with hk | hk
    · exact (List.pairwise_append.mp hsorted).2.2 k hk _ List.mem_cons_self
    · rcases List.mem_cons.mp hk with rfl | hk
      · exact le_refl _
      · obtain ⟨i, hi, rfl⟩ := List.mem_map.mp hk
        exact absurd hsame (hafter i hi)
  · rw [← items_read, List.length_map, ← List.map_drop]
    rfl

/-- The snapshot is available just when the firewall has no objection to a key that it lists. -/
theorem available_iff : Available fmt lc instr c settings status tables snapshotId generatedAtUtc ↔
    ∀ k ∈ listedKeys c settings status tables, keyHitsForbidden lc k = false := by
  have hlists : Lists c settings status tables (project instr c settings status tables snapshotId generatedAtUtc) :=
    project_lists instr snapshotId generatedAtUtc
  have hviolations : findGroundTruthViolations fmt lc
      (project instr c settings status tables snapshotId generatedAtUtc).modelDump "$" = [] ↔
      ∀ k ∈ listedKeys c settings status tables, keyHitsForbidden lc k = false := by
    rw [violations_nil_iff (show _ = counterKeys.map fun k => (k, instr.counter k) from rfl), ← hlists.keys,
      List.forall_mem_map]
  rw [← hviolations]
  unfold Available snapshot assertNoGroundTruth
  dsimp only
  constructor
  · rintro ⟨snap, hsnap, -⟩
    by_contra hsome
    rw [if_neg (by simpa using hsome)] at hsnap
    cases hsnap
  · intro hnone
    rw [if_pos (by simpa using hnone)]
    exact ⟨_, rfl, hlists⟩

/-- A key that is listed stands in a committed row. -/
theorem listed_committed {k : String} (hk : k ∈ listedKeys c settings status tables) :
    ∃ ρ, ∃ row ∈ (tables ρ).committedRecords, row.recordKey = k := by
  obtain ⟨key, hkey, rfl⟩ := List.mem_map.mp ((mem_firstKeys).mp (List.mem_of_mem_take hk))
  have hheld := (Finset.mem_sort _).mp (List.mem_of_mem_take hkey)
  obtain ⟨row, hrow, hrowKey⟩ := List.mem_map.mp (List.mem_toFinset.mp (Finset.mem_filter.mp hheld).1)
  obtain ⟨ρ, -, hscanned⟩ := List.mem_flatMap.mp hrow
  refine ⟨ρ, row, ?_, by rw [← hrowKey]; rfl⟩
  by_cases hfit : PagesFit settings settings.committedScanMaxRows
  · rw [scannedRows_fit hfit] at hscanned
    exact (List.mem_insertionSort _).mp (List.mem_of_mem_take hscanned)
  · rw [scannedRows_unfit hfit] at hscanned
    exact (List.mem_insertionSort _).mp (List.mem_of_mem_take hscanned)

end Availability

/-! ## Runs -/

section Runs

open BlackboardSystem hiding devCoordinator
open BlackboardTrace Interleaving
open BlackboardListings (devInstr devCoordinator devScan)

variable {V F : Type} {S : System V} {as : List (Step V)} {d : Configuration S}
variable (fmt : PyFloats F) (lc : LowerCase) (instr : Instrumentation F) (c : Coordinator) (settings : ScanSettings)

/-- The snapshot that a coordinator's process takes of a world. -/
def AvailableIn (w : World S.codec) : Prop := ∀ snapshotId generatedAtUtc,
  Available fmt lc instr c settings (w.status c.site) (fun ρ => (w.store ρ).tables) snapshotId generatedAtUtc

/-- The key of a committed row is that of a record named in the run. -/
theorem committed_named (h : Reaches S as d) {ρ : ReplicaId} {row : CommittedRow}
    (hrow : row ∈ (d.state.store ρ).tables.committedRecords) : ∃ r, Named S as r ∧ row.recordKey = r.recordKey := by
  obtain ⟨r, hnamed, -, hform⟩ := (stored_forms h ρ).committed row hrow
  exact ⟨r, hnamed, congrArg StagedRecord.recordKey hform⟩

/-- When the firewall has no objection to a key written in the run, the snapshot is
available in every state reached. -/
theorem snapshot_available (h : Reaches S as d)
    (hkeys : ∀ r, Named S as r → keyHitsForbidden lc r.recordKey = false) :
    AvailableIn fmt lc instr c settings d.state := by
  intro snapshotId generatedAtUtc
  refine (available_iff fmt lc instr snapshotId generatedAtUtc).mpr fun k hk => ?_
  obtain ⟨ρ, row, hrow, rfl⟩ := listed_committed hk
  obtain ⟨r, hnamed, hkey⟩ := committed_named h hrow
  rw [hkey]
  exact hkeys r hnamed

def devCommitRun : List (Step String) :=
  [devPropose devCoordinator "bbw-1" 1 1] ++ calls 0 6 0 ++ [.finish 0]

theorem snapshot_available_dev : ∃ d, Reaches devSystem devCommitRun d ∧
    ((d.state.store .replicaA).tables.committedRecords.length = 1 ∧
      AvailableIn nanOnly asciiLowerCase devInstr devCoordinator
        devScan d.state) := by
  obtain ⟨d, hd, hcheck⟩ := reaches_of_any devSystem devCommitRun
    (fun d => decide ((d.state.store .replicaA).tables.committedRecords.length = 1)) (by decide)
  have hkeys : ∀ r ∈ devCommitRun.filterMap (namedRecord devSystem),
      keyHitsForbidden asciiLowerCase r.recordKey = false := by
    decide
  exact ⟨d, hd, of_decide_eq_true hcheck, snapshot_available nanOnly asciiLowerCase _ _ _ hd hkeys⟩

/-- The codec of the deployment with the digest of a record whose key is a ground-truth name. -/
def labelCodec : RecordCodec String :=
  { devCodec with
    computeContentHash := fun f =>
      if f.recordKey = "label" ∧ f.recordVersion = 1 ∧ f.payload = devPayload 1 then
        some "64eee33d326fcddca6c881c2cedbd9060eb7e305c406ffd308b3146a88955c96"
      else none }

def labelSystem : System String := ⟨labelCodec, fun _ _ => ⟨262144, 300, 16⟩⟩

/-- The key is fit for a record. -/
def labelDraft : BlackboardRecordDraft String := { devDraft 1 1 with recordKey := "label" }

def labelRun : List (Step String) :=
  [.start ⟨devCoordinator, "bbw-1", .propose (.draft labelDraft) "agent"⟩] ++ calls 0 6 0 ++ [.finish 0]

/-- The keys that the snapshot would list by key. -/
def projectedKeys (d : Configuration labelSystem) : List String :=
  (latestByKey (snapshotView devCoordinator devScan (d.state.status 0)
    (fun ρ => (d.state.store ρ).tables)).items).map Prod.fst

def writesCommitted : LogEvent String → Bool
  | .finished _ _ (.write (.ok r)) => r.outcome = .committed
  | _ => false

/-- A write of a record with this key is committed, and the snapshot raises from then on. -/
theorem snapshot_unavailable : ∃ d, Reaches labelSystem labelRun d ∧ d.trace.any writesCommitted = true ∧
    ¬ AvailableIn nanOnly asciiLowerCase devInstr devCoordinator
      devScan d.state := by
  obtain ⟨d, hd, hcheck⟩ := reaches_of_any labelSystem labelRun
    (fun d => d.trace.any writesCommitted && decide (projectedKeys d = ["label"])) (by decide)
  rw [Bool.and_eq_true, decide_eq_true_iff] at hcheck
  refine ⟨d, hd, hcheck.1, ?_⟩
  intro havailable
  have hpass := (available_iff nanOnly asciiLowerCase devInstr "" "").mp (havailable "" "")
  have hlists : Lists devCoordinator devScan (d.state.status 0)
      (fun ρ => (d.state.store ρ).tables) (project devInstr devCoordinator
        devScan (d.state.status 0) (fun ρ => (d.state.store ρ).tables) "" "") :=
    project_lists devInstr "" ""
  have hlabel : "label" ∈ listedKeys devCoordinator devScan (d.state.status 0)
      (fun ρ => (d.state.store ρ).tables) := by
    rw [← hlists.keys, show (project _ _ _ _ _ _ _).latestByKey.map Prod.fst = ["label"] from hcheck.2]
    exact List.mem_singleton_self _
  have hhit : keyHitsForbidden asciiLowerCase "label" = true := by decide
  exact absurd (hpass "label" hlabel) (by rw [hhit]; decide)

end Runs

end BlackboardSnapshotAvailability
