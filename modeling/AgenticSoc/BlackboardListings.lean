import AgenticSoc.BlackboardSnapshots

/-!
# What the listings leave out

The view, the listing of records and the snapshot say when they are truncated. What they
say is right while no page of the scan exceeds what the storage serves, and the listing's
total is the number of rows only while the verified rows fit in its scan bound.
-/
namespace BlackboardListings

open BlackboardRecord BlackboardStorage BlackboardReplica BlackboardCoordinator BlackboardViews BlackboardSnapshots
open BlackboardFirewall PythonJson

/-- A request for a listing. -/
inductive Listing where
  | committedView (keyStart : Option String) (limit offset : Int) (scanMaxRows : Option Nat)
  | listRecords (recordType keyStart : Option String) (limit offset : Int)
  | snapshot (snapshotId generatedAtUtc : String)

def Listing.keyStart : Listing → Option String
  | .committedView k .. => k
  | .listRecords _ k .. => k
  | .snapshot .. => none

def Listing.recordType : Listing → Option String
  | .listRecords t .. => t
  | _ => none

/-- A snapshot has no total. -/
structure Report where
  truncated : Bool
  total : Option Nat
  deriving DecidableEq

section Listings

variable {F : Type} (fmt : PyFloats F) (lc : LowerCase) (instr : Instrumentation F)
variable (c : Coordinator) (settings : ScanSettings) (status : ReplicaId → ReplicaStatus) (tables : ReplicaId → Tables)

def Listing.bound : Listing → Nat
  | .committedView _ _ _ scanMaxRows => scanMaxRows.getD settings.committedScanMaxRows
  | _ => settings.committedScanMaxRows

def Listing.report : Listing → Except String Report
  | .committedView k limit offset scanMaxRows =>
    let view := BlackboardViews.committedView c settings status tables k limit offset scanMaxRows
    .ok ⟨view.truncated, some view.totalVerified⟩
  | .listRecords t k limit offset =>
    let listing := BlackboardViews.listRecords c settings status tables t k limit offset
    .ok ⟨listing.truncated, some listing.total⟩
  | .snapshot snapshotId generatedAtUtc => do
    let snap ← BlackboardSnapshots.snapshot fmt lc instr c settings status tables snapshotId generatedAtUtc
    return ⟨snap.truncated, none⟩

/-- The type of a row is that of the first responsive replica that holds it. -/
def typeOf (keyStart : Option String) (k : RowKey) : Option BlackboardRecordType :=
  ((shown (responsive c status) fun ρ => selected keyStart (tables ρ)).find? fun x => rowKey x.2 = k).map fun x => x.2.recordType

/-- The rows that a listing is to count. -/
def Listing.wanted (l : Listing) (k : RowKey) : Bool :=
  match l.recordType with
  | none => true
  | some t => (typeOf c status tables l.keyStart k).any fun r => BlackboardRoundTrip.BlackboardRecordType.value r = t

/-- Everything was scanned, and the total is the number of rows that a quorum holds. -/
structure Complete (l : Listing) (r : Report) : Prop where
  scanned : Scanned c settings status tables l.keyStart (l.bound settings)
  total : ∀ n, r.total = some n →
    n = ((quorumHeld c status tables l.keyStart).filter fun k => l.wanted c status tables k = true).card

/-- The rows that the listing counts are among the first of those that a quorum holds. -/
def FitsListing (l : Listing) : Prop :=
  ∀ k ∈ (quorumHeld c status tables l.keyStart).sort.drop settings.committedScanMaxRows, l.wanted c status tables k = false

def TotalFits : Listing → Prop
  | .listRecords t k limit offset =>
    (∀ ρ ∈ responsive c status, (selected k (tables ρ)).length ≤ settings.committedScanMaxRows) →
      FitsListing c settings status tables (.listRecords t k limit offset)
  | _ => True

variable {fmt lc instr c settings status tables}

/-- An item has the type of the first row with its key. -/
theorem item_type {keyStart : Option String} {limit offset : Int} {i : ViewItem}
    (h : Scanned c settings status tables keyStart settings.committedScanMaxRows)
    (hi : i ∈ (committedView c settings status tables keyStart limit offset none).items) :
    typeOf c status tables keyStart i.key = some i.recordType := by
  obtain ⟨g, hg, hitem⟩ := List.mem_filterMap.mp hi
  obtain ⟨i', hi', hkey, x, hfind, htype⟩ := viewItem_some (ordered_subset (slice_subset hg))
  have hsame : i' = i := Option.some.inj (hi'.symm.trans hitem)
  subst hsame
  rw [Option.getD_none, responsive_shown h] at hfind
  rw [typeOf, hkey, hfind, htype]
  rfl

/-- The total counts the wanted rows among the first of those that a quorum holds. -/
theorem listRecords_total {t keyStart : Option String} {limit offset : Int}
    (h : Scanned c settings status tables keyStart settings.committedScanMaxRows) :
    (listRecords c settings status tables t keyStart limit offset).total =
      (((quorumHeld c status tables keyStart).sort.take settings.committedScanMaxRows).filter
        fun k => Listing.wanted c status tables (.listRecords t keyStart limit offset) k).length := by
  have hkeys : (committedView c settings status tables keyStart settings.committedScanMaxRows 0 none).items.map
      ViewItem.key = (quorumHeld c status tables keyStart).sort.take settings.committedScanMaxRows := by
    rw [view_keys, slice_zero, Option.getD_none, responsive_held h]
    rfl
  rw [← hkeys, List.filter_map, List.length_map]
  cases t with
  | none => exact congrArg List.length (List.filter_eq_self.mpr fun _ _ => rfl).symm
  | some t =>
    refine congrArg List.length (List.filter_congr ?_)
    intro i hi
    unfold Listing.wanted
    dsimp only [Listing.recordType, Listing.keyStart, Function.comp_apply]
    rw [item_type h hi]
    rfl

theorem filter_take_length_iff {α : Type} (l : List α) (n : Nat) (p : α → Bool) :
    ((l.take n).filter p).length = (l.filter p).length ↔ ∀ a ∈ l.drop n, p a = false := by
  have hsplit : (l.filter p).length = ((l.take n).filter p).length + ((l.drop n).filter p).length := by
    rw [← List.length_append, ← List.filter_append, List.take_append_drop]
  have hnone : ((l.drop n).filter p).length = 0 ↔ ∀ a ∈ l.drop n, p a = false := by
    rw [List.length_eq_zero_iff, List.filter_eq_nil_iff]
    simp only [Bool.not_eq_true]
  rw [← hnone]
  omega

theorem filter_card (s : Finset RowKey) (p : RowKey → Bool) :
    (s.filter fun k => p k = true).card = (s.sort.filter p).length := by
  rw [← List.toFinset_card_of_nodup ((Finset.sort_nodup s (· ≤ ·)).filter p), List.toFinset_filter, Finset.sort_toFinset]

/-- The listing's total is right when nothing that it is to count lies behind its bound. -/
theorem listRecords_total_iff {t keyStart : Option String} {limit offset : Int}
    (h : Scanned c settings status tables keyStart settings.committedScanMaxRows) :
    (listRecords c settings status tables t keyStart limit offset).total =
        ((quorumHeld c status tables keyStart).filter fun k =>
          Listing.wanted c status tables (.listRecords t keyStart limit offset) k = true).card ↔
      FitsListing c settings status tables (.listRecords t keyStart limit offset) := by
  rw [listRecords_total h, filter_card]
  exact filter_take_length_iff _ _ _

theorem report_truncated {l : Listing} {r : Report} (h : l.report fmt lc instr c settings status tables = .ok r) :
    r.truncated = false ↔ (PagesFit settings (l.bound settings) →
      ∀ ρ ∈ responsive c status, (selected l.keyStart (tables ρ)).length ≤ l.bound settings) := by
  cases l with
  | committedView k limit offset scanMaxRows =>
    cases h
    exact not_truncated_iff limit offset
  | listRecords t k limit offset =>
    cases h
    exact not_truncated_iff settings.committedScanMaxRows 0
  | snapshot snapshotId generatedAtUtc =>
    unfold Listing.report BlackboardSnapshots.snapshot at h
    dsimp only at h
    cases hpass : assertNoGroundTruth fmt lc
      (project instr c settings status tables snapshotId generatedAtUtc).modelDump "blackboard_snapshot" with
    | error m =>
      rw [hpass] at h
      cases h
    | ok u =>
      rw [hpass] at h
      cases h
      exact not_truncated_iff settings.committedScanMaxRows 0

/-- An untruncated report is complete just when no page was cut silently and, for the
listing of records, everything to be counted stands before its bound. -/
theorem untruncated_complete_iff {l : Listing} {r : Report} (h : l.report fmt lc instr c settings status tables = .ok r) :
    (r.truncated = false → Complete c settings status tables l r) ↔
      WithinCap c settings status tables l.keyStart (l.bound settings) ∧ TotalFits c settings status tables l := by
  rw [report_truncated h]
  have hscan : (_ → Scanned c settings status tables l.keyStart (l.bound settings)) ↔ _ := scanned_iff
  constructor
  · intro hcomplete
    refine ⟨hscan.mp fun hshort => (hcomplete hshort).scanned, ?_⟩
    cases l with
    | committedView k limit offset scanMaxRows => trivial
    | snapshot snapshotId generatedAtUtc => trivial
    | listRecords t k limit offset =>
      intro hshort
      have hdone := hcomplete fun _ => hshort
      cases h
      exact (listRecords_total_iff hdone.scanned).mp (hdone.total _ rfl)
  · rintro ⟨hcap, hfits⟩ hshort
    have hall := hscan.mpr hcap hshort
    refine ⟨hall, fun n hn => ?_⟩
    cases l with
    | committedView k limit offset scanMaxRows =>
      cases h
      cases hn
      exact (view_total_scanned hall).trans (congrArg Finset.card (Finset.filter_true_of_mem fun _ _ => rfl).symm)
    | snapshot snapshotId generatedAtUtc =>
      unfold Listing.report at h
      cases hsnap : BlackboardSnapshots.snapshot fmt lc instr c settings status tables snapshotId generatedAtUtc with
      | error m =>
        dsimp only at h
        rw [hsnap] at h
        cases h
      | ok snap =>
        dsimp only at h
        rw [hsnap] at h
        cases h
        cases hn
    | listRecords t k limit offset =>
      cases h
      cases hn
      refine (listRecords_total_iff hall).mpr (hfits fun ρ hρ => ?_)
      by_cases hpages : PagesFit settings settings.committedScanMaxRows
      · exact hshort hpages ρ hρ
      · have hlong : (selected k (tables ρ)).length ≤ pageCap := hcap.resolve_left hpages ρ hρ
        have hcap' : pageCap < min settings.committedScanChunkSize settings.committedScanMaxRows :=
          Nat.lt_of_not_le hpages
        omega

end Listings

/-! ## Silent caps -/

def plainRow (k : String) (v : Nat) : CommittedRow where
  schemaVersion := "blackboard_record_v1"
  recordId := k ++ "#v" ++ Nat.repr v ++ "#0123456789ab"
  recordKey := k
  recordType := .systemRecord
  recordVersion := v
  logicalTimestamp := none
  windowId := none
  authorId := "dev"
  sourceComponent := "api.development_write"
  payloadJson := "\x7b\x7d"
  provenanceJson := "\x7b\x7d"
  contentHash := "0123456789ab"
  operationId := "bbw-" ++ Nat.repr v
  committedAtUtc := "2026-01-01T00:00:00Z"

/-- A key with this many versions. -/
def versions (k : String) (n : Nat) : Tables :=
  ⟨(List.range n).map fun v => plainRow k (v + 1), [(k, n)], []⟩

theorem versions_selected (k : String) (n : Nat) : (selected none (versions k n)).length = n := by
  unfold selected
  rw [List.length_insertionSort]
  exact (List.length_map ..).trans List.length_range

def devInstr : Instrumentation Unit := ⟨fun _ => 0, [], [], fun _ => 0, fun _ => none⟩

def devCoordinator : Coordinator := BlackboardSystem.devCoordinator 0 0 2 BlackboardSystem.devQuorum_pos
def healthy (_ : ReplicaId) : ReplicaStatus := newStatus

def devScan : ScanSettings := ⟨10, 4, by decide, by decide⟩

def devListing : Listing := .listRecords none none 50 0

theorem untruncated_complete_dev :
    devListing.report nanOnly asciiLowerCase devInstr devCoordinator devScan healthy (fun _ => versions "dev" 3) =
      .ok ⟨false, some 3⟩ ∧
    ((false = false → Complete devCoordinator devScan healthy (fun _ => versions "dev" 3) devListing ⟨false, some 3⟩) ↔
      WithinCap devCoordinator devScan healthy (fun _ => versions "dev" 3) none 10 ∧
        TotalFits devCoordinator devScan healthy (fun _ => versions "dev" 3) devListing) := by
  have hreport : devListing.report nanOnly asciiLowerCase devInstr devCoordinator devScan healthy
      (fun _ => versions "dev" 3) = .ok ⟨false, some 3⟩ := by
    decide
  exact ⟨hreport, untruncated_complete_iff hreport⟩

/-- Pages longer than the storage serves. -/
def wideScan : ScanSettings := ⟨20000, 20000, by decide, by decide⟩

def wholeView : Listing := .committedView none 100 0 none

/-- One replica has a key that the others lack, and a single row is scanned and counted. -/
def singleScan : ScanSettings := ⟨1, 1, by decide, by decide⟩

def loneCoordinator : Coordinator := BlackboardSystem.devCoordinator 0 0 1 (by decide)

def oneEach : ReplicaId → Tables
  | .replicaA => versions "a" 1
  | .replicaB => versions "b" 1
  | .replicaC => emptyTables

theorem wide_view_incomplete {tables : ReplicaId → Tables} (hlong : pageCap < (selected none (tables .replicaA)).length) :
    ∃ r, wholeView.report nanOnly asciiLowerCase devInstr devCoordinator wideScan healthy tables = .ok r ∧
      r.truncated = false ∧ ¬ Complete devCoordinator wideScan healthy tables wholeView r := by
  have hunfit : ¬ PagesFit wideScan 20000 := by decide
  refine ⟨_, rfl, ?_, ?_⟩
  · exact (not_truncated_iff 100 0).mpr fun hfit => absurd hfit hunfit
  · intro hcomplete
    have hall : scannedRows wideScan tables none 20000 .replicaA = selected none (tables .replicaA) :=
      hcomplete.scanned .replicaA (by decide)
    rw [scannedRows_unfit hunfit] at hall
    have hlen := congrArg List.length hall
    rw [List.length_take] at hlen
    omega

/-- With pages of 20 000 rows a view of 10 001 versions is cut at 10 000 and says that it is
whole; with one row per listing two verified rows are counted as one. -/
theorem untruncated_incomplete :
    (∃ r, wholeView.report nanOnly asciiLowerCase devInstr devCoordinator wideScan healthy
        (fun _ => versions "dev" 10001) = .ok r ∧ r.truncated = false ∧
      ¬ Complete devCoordinator wideScan healthy (fun _ => versions "dev" 10001) wholeView r) ∧
    devListing.report nanOnly asciiLowerCase devInstr loneCoordinator singleScan healthy oneEach =
        .ok ⟨false, some 1⟩ ∧
      (quorumHeld loneCoordinator healthy oneEach none).card = 2 := by
  refine ⟨wide_view_incomplete ?_, by decide, by decide⟩
  rw [versions_selected]
  decide

end BlackboardListings
