import AgenticSoc.BlackboardCoordinator
import AgenticSoc.BlackboardRoundTrip
import AgenticSoc.PagedScan
import AgenticSoc.Sorting
import Mathlib.Data.Finset.Sort

/-!
# The merged view of the committed rows

Each responsive replica is scanned by pages; a row is verified when a quorum of replicas
shows its key, version and record id. The view lists a page of the verified rows in order.
-/
namespace BlackboardViews

open BlackboardRecord BlackboardStorage BlackboardReplica BlackboardCoordinator

/-- The settings that only the scan reads. -/
structure ScanSettings where
  committedScanMaxRows : Nat
  committedScanChunkSize : Nat
  maxRowsPositive : 1 ≤ committedScanMaxRows
  chunkSizePositive : 1 ≤ committedScanChunkSize

/-- Key, version and record id, in the order of the listing. -/
abbrev RowKey : Type := String ×ₗ (Nat ×ₗ String)

instance rowKey_trans : IsTrans RowKey (fun a b => a ≤ b) := inferInstance
instance rowKey_antisymm : Std.Antisymm (fun a b : RowKey => a ≤ b) := inferInstance
instance rowKey_total : Std.Total (fun a b : RowKey => a ≤ b) := inferInstance

def rowKey (row : CommittedRow) : RowKey := toLex (row.recordKey, toLex (row.recordVersion, row.recordId))

def keyOf (k : RowKey) : String := (ofLex k).1

structure ViewItem where
  recordKey : String
  recordType : BlackboardRecordType
  recordVersion : Nat
  recordId : String
  contentHash : String
  authorId : String
  sourceComponent : String
  logicalTimestamp : Option String
  windowId : Option Nat
  supportingReplicas : List ReplicaId
  deriving DecidableEq, Repr

structure CommittedView where
  items : List ViewItem
  totalVerified : Nat
  unverifiedExcluded : Nat
  responsiveReplicas : List ReplicaId
  truncated : Bool
  truncatedReplicas : List ReplicaId
  scannedRowsPerReplica : List (ReplicaId × Nat)
  maxRowsPerReplica : Nat
  chunkSize : Nat
  deriving DecidableEq, Repr

/-- A slice of a list: a negative bound counts from the end. -/
def slice {α : Type} (l : List α) (start stop : Int) : List α :=
  let clamp (i : Int) : Nat := if i < 0 then (l.length + i).toNat else min i.toNat l.length
  (l.drop (clamp start)).take (clamp stop - clamp start)

/-! ## Merging what the replicas show -/

section Merge

variable (quorum : Nat) (replicas : List ReplicaId) (rows : ReplicaId → List CommittedRow)

def shown : List (ReplicaId × CommittedRow) := replicas.flatMap fun ρ => (rows ρ).map fun row => (ρ, row)

/-- The replicas that support each row, with the rows they show. -/
def support : List (RowKey × List (ReplicaId × CommittedRow)) := Grouping.groupOn (fun x => rowKey x.2) (shown replicas rows)

def members (g : RowKey × List (ReplicaId × CommittedRow)) : List ReplicaId := (g.2.map Prod.fst).dedup

def verified : List (RowKey × List (ReplicaId × CommittedRow)) :=
  (support replicas rows).filter fun g => quorum ≤ (members g).length

def ordered : List (RowKey × List (ReplicaId × CommittedRow)) := Sorting.sortBy Prod.fst (verified quorum replicas rows)

def itemOf (supporting : List ReplicaId) (row : CommittedRow) : ViewItem where
  recordKey := row.recordKey
  recordType := row.recordType
  recordVersion := row.recordVersion
  recordId := row.recordId
  contentHash := row.contentHash
  authorId := row.authorId
  sourceComponent := row.sourceComponent
  logicalTimestamp := row.logicalTimestamp
  windowId := row.windowId
  supportingReplicas := Sorting.sortBy ReplicaId.text supporting

/-- The sample is the row of the first replica that showed it. -/
def viewItem (g : RowKey × List (ReplicaId × CommittedRow)) : Option ViewItem :=
  g.2.head?.map fun x => itemOf (members g) x.2

end Merge

/-! ## The view -/

section Views

variable (c : Coordinator) (settings : ScanSettings) (status : ReplicaId → ReplicaStatus) (tables : ReplicaId → Tables)

def responsive : List ReplicaId := c.replicas.filter fun ρ => (status ρ).health ≠ .unavailable

/-- The rows of one replica's scan, and whether a short page ended it. -/
def scanReplica (keyStart : Option String) (bound : Nat) (t : Tables) : List CommittedRow × Bool :=
  PagedScan.scan (iterCommittedRows t keyStart) settings.committedScanChunkSize bound bound []

def scannedRows (keyStart : Option String) (bound : Nat) (ρ : ReplicaId) : List CommittedRow :=
  (scanReplica settings keyStart bound (tables ρ)).1

/-- The probe for rows beyond the bound. -/
def cutShort (keyStart : Option String) (bound : Nat) (ρ : ReplicaId) : Bool :=
  PagedScan.cutShort (iterCommittedRows (tables ρ) keyStart) (scanReplica settings keyStart bound (tables ρ))

def committedView (keyStart : Option String) (limit offset : Int) (scanMaxRows : Option Nat) : CommittedView :=
  let bound := scanMaxRows.getD settings.committedScanMaxRows
  let replicas := responsive c status
  let rows := scannedRows settings tables keyStart bound
  let orderedKeys := ordered c.settings.quorumSize replicas rows
  let truncatedReplicas := replicas.filter (cutShort settings tables keyStart bound)
  { items := (slice orderedKeys offset (offset + limit)).filterMap viewItem
    totalVerified := orderedKeys.length
    unverifiedExcluded := (support replicas rows).length - (verified c.settings.quorumSize replicas rows).length
    responsiveReplicas := Sorting.sortBy ReplicaId.text replicas
    truncated := !truncatedReplicas.isEmpty
    truncatedReplicas := truncatedReplicas
    scannedRowsPerReplica := replicas.map fun ρ => (ρ, (rows ρ).length)
    maxRowsPerReplica := bound
    chunkSize := settings.committedScanChunkSize }

structure RecordListing where
  items : List ViewItem
  total : Nat
  limit : Int
  offset : Int
  unverifiedRowsExcluded : Nat
  responsiveReplicas : List ReplicaId
  truncated : Bool
  truncatedReplicas : List ReplicaId
  scannedRowsPerReplica : List (ReplicaId × Nat)
  maxRowsPerReplica : Nat
  chunkSize : Nat
  deriving DecidableEq, Repr

/-- The listing filters the first rows of the view and counts what is left. -/
def listRecords (recordType keyStart : Option String) (limit offset : Int) : RecordListing :=
  let view := committedView c settings status tables keyStart settings.committedScanMaxRows 0 none
  let items := match recordType with
    | none => view.items
    | some t => view.items.filter fun i => BlackboardRoundTrip.BlackboardRecordType.value i.recordType = t
  { items := slice items offset (offset + limit)
    total := items.length
    limit := limit
    offset := offset
    unverifiedRowsExcluded := view.unverifiedExcluded
    responsiveReplicas := view.responsiveReplicas
    truncated := view.truncated
    truncatedReplicas := view.truncatedReplicas
    scannedRowsPerReplica := view.scannedRowsPerReplica
    maxRowsPerReplica := view.maxRowsPerReplica
    chunkSize := view.chunkSize }

end Views

/-! ## What the merge holds -/

section Held

variable (quorum : Nat) (replicas : List ReplicaId) (rows : ReplicaId → List CommittedRow)

/-- The replicas that show a row with this key, version and record id. -/
def holders (k : RowKey) : List ReplicaId := replicas.filter fun ρ => (rows ρ).any fun row => rowKey row = k

/-- The rows that a quorum of the replicas holds. -/
def held : Finset RowKey :=
  ((replicas.flatMap rows).map rowKey).toFinset.filter fun k => quorum ≤ (holders replicas rows k).length

variable {quorum replicas rows}

theorem mem_shown {x : ReplicaId × CommittedRow} : x ∈ shown replicas rows ↔ x.1 ∈ replicas ∧ x.2 ∈ rows x.1 := by
  unfold shown
  rw [List.mem_flatMap]
  constructor
  · rintro ⟨ρ, hρ, hx⟩
    obtain ⟨row, hrow, rfl⟩ := List.mem_map.mp hx
    exact ⟨hρ, hrow⟩
  · rintro ⟨hρ, hrow⟩
    exact ⟨x.1, hρ, List.mem_map.mpr ⟨x.2, hrow, rfl⟩⟩

theorem mem_holders {k : RowKey} {ρ : ReplicaId} :
    ρ ∈ holders replicas rows k ↔ ρ ∈ replicas ∧ ∃ row ∈ rows ρ, rowKey row = k := by
  unfold holders
  rw [List.mem_filter, List.any_eq_true]
  simp only [decide_eq_true_iff]

theorem mem_held (hq : 1 ≤ quorum) {k : RowKey} :
    k ∈ held quorum replicas rows ↔ quorum ≤ (holders replicas rows k).length := by
  unfold held
  rw [Finset.mem_filter, List.mem_toFinset]
  refine and_iff_right_of_imp ?_
  intro hk
  have hsome : holders replicas rows k ≠ [] := by
    intro hnil
    rw [hnil, List.length_nil] at hk
    omega
  obtain ⟨ρ, hρ⟩ := List.exists_mem_of_ne_nil _ hsome
  obtain ⟨hmem, row, hrow, rfl⟩ := (mem_holders).mp hρ
  exact List.mem_map_of_mem (List.mem_flatMap.mpr ⟨ρ, hmem, hrow⟩)

theorem support_rows {g : RowKey × List (ReplicaId × CommittedRow)} (hg : g ∈ support replicas rows) :
    g.2 = (shown replicas rows).filter fun x => rowKey x.2 = g.1 :=
  (Grouping.covers_groupOn (fun x : ReplicaId × CommittedRow => rowKey x.2) (shown replicas rows)).members g hg

/-- The members of a group are the replicas that hold its row. -/
theorem members_length (hnodup : replicas.Nodup) {g : RowKey × List (ReplicaId × CommittedRow)}
    (hg : g ∈ support replicas rows) : (members g).length = (holders replicas rows g.1).length := by
  have hperm : (members g).Perm (holders replicas rows g.1) := by
    refine (List.perm_ext_iff_of_nodup (List.nodup_dedup _) (hnodup.filter _)).mpr ?_
    intro ρ
    change ρ ∈ (g.2.map Prod.fst).dedup ↔ ρ ∈ holders replicas rows g.1
    rw [mem_holders, List.mem_dedup, List.mem_map, support_rows hg]
    simp only [List.mem_filter, decide_eq_true_iff, mem_shown]
    constructor
    · rintro ⟨x, ⟨⟨hρ, hrow⟩, hk⟩, rfl⟩
      exact ⟨hρ, x.2, hrow, hk⟩
    · rintro ⟨hρ, row, hrow, hk⟩
      exact ⟨(ρ, row), ⟨⟨hρ, hrow⟩, hk⟩, rfl⟩
  exact hperm.length_eq

theorem mem_support_keys {k : RowKey} :
    k ∈ (support replicas rows).map Prod.fst ↔ ∃ ρ ∈ replicas, ∃ row ∈ rows ρ, rowKey row = k := by
  unfold support
  rw [Grouping.mem_groupOn_keys]
  constructor
  · rintro ⟨x, hx, hk⟩
    obtain ⟨hρ, hrow⟩ := (mem_shown).mp hx
    exact ⟨x.1, hρ, x.2, hrow, hk⟩
  · rintro ⟨ρ, hρ, row, hrow, hk⟩
    exact ⟨(ρ, row), (mem_shown).mpr ⟨hρ, hrow⟩, hk⟩

theorem mem_verified_keys (hnodup : replicas.Nodup) (hq : 1 ≤ quorum) {k : RowKey} :
    k ∈ (verified quorum replicas rows).map Prod.fst ↔ k ∈ held quorum replicas rows := by
  rw [mem_held hq, List.mem_map]
  unfold verified
  simp only [List.mem_filter, decide_eq_true_iff]
  constructor
  · rintro ⟨g, ⟨hg, hmany⟩, rfl⟩
    rwa [← members_length hnodup hg]
  · intro hk
    have hin := (mem_held hq).mpr hk
    have hshown : ∃ ρ ∈ replicas, ∃ row ∈ rows ρ, rowKey row = k := by
      have hlist := (Finset.mem_filter.mp hin).1
      rw [List.mem_toFinset, List.mem_map] at hlist
      obtain ⟨row, hrow, hkey⟩ := hlist
      obtain ⟨ρ, hρ, hrow⟩ := List.mem_flatMap.mp hrow
      exact ⟨ρ, hρ, row, hrow, hkey⟩
    obtain ⟨g, hg, rfl⟩ := List.mem_map.mp ((mem_support_keys).mpr hshown)
    exact ⟨g, ⟨hg, by rwa [members_length hnodup hg]⟩, rfl⟩

theorem verified_keys_nodup : ((verified quorum replicas rows).map Prod.fst).Nodup :=
  (Grouping.groupOn_keys_nodup _ _).sublist (List.filter_sublist.map Prod.fst)

/-- The verified keys in order are the held rows in order. -/
theorem ordered_keys (hnodup : replicas.Nodup) (hq : 1 ≤ quorum) :
    (ordered quorum replicas rows).map Prod.fst = (held quorum replicas rows).sort := by
  have hstrict : ((ordered quorum replicas rows).map Prod.fst).Pairwise (· < ·) :=
    List.pairwise_map.mpr (Sorting.sortBy_strict verified_keys_nodup)
  have hsorted : ((held quorum replicas rows).sort).Pairwise (· < ·) :=
    (Finset.sortedLT_sort _).pairwise
  refine List.Perm.eq_of_pairwise (fun _ _ _ _ hab hba => absurd hab (lt_asymm hba)) hstrict hsorted ?_
  rw [List.perm_ext_iff_of_nodup (hstrict.imp ne_of_lt) (hsorted.imp ne_of_lt)]
  intro k
  rw [Finset.mem_sort, ← mem_verified_keys hnodup hq]
  exact ((Sorting.sortBy_perm _ _).map Prod.fst).mem_iff

theorem ordered_length (hnodup : replicas.Nodup) (hq : 1 ≤ quorum) :
    (ordered quorum replicas rows).length = (held quorum replicas rows).card := by
  rw [← List.length_map (f := Prod.fst), ordered_keys hnodup hq, Finset.length_sort]

def ViewItem.key (i : ViewItem) : RowKey := toLex (i.recordKey, toLex (i.recordVersion, i.recordId))

/-- The item of a group is that of the first row shown with its key. -/
theorem viewItem_some {g : RowKey × List (ReplicaId × CommittedRow)} (hg : g ∈ support replicas rows) :
    ∃ i, viewItem g = some i ∧ i.key = g.1 ∧
      ∃ x, (shown replicas rows).find? (fun x => rowKey x.2 = g.1) = some x ∧ i.recordType = x.2.recordType := by
  have hnonempty : g.2 ≠ [] :=
    (Grouping.covers_groupOn (fun x : ReplicaId × CommittedRow => rowKey x.2) (shown replicas rows)).nonempty g hg
  obtain ⟨x, rest, hx⟩ := List.exists_cons_of_ne_nil hnonempty
  have hrows := support_rows hg
  have hfind : (shown replicas rows).find? (fun x => rowKey x.2 = g.1) = some x := by
    rw [← List.head?_filter, ← hrows, hx]
    rfl
  have hkey : rowKey x.2 = g.1 := by simpa using List.find?_some hfind
  refine ⟨itemOf (members g) x.2, ?_, hkey, x, hfind, rfl⟩
  rw [viewItem, hx]
  rfl

theorem ordered_subset {g : RowKey × List (ReplicaId × CommittedRow)} (hg : g ∈ ordered quorum replicas rows) :
    g ∈ support replicas rows :=
  (List.mem_filter.mp (Sorting.mem_sortBy.mp hg)).1

/-- Every group of a part of the ordered list has its item. -/
theorem items_keys {page : List (RowKey × List (ReplicaId × CommittedRow))} (h : ∀ g ∈ page, g ∈ support replicas rows) :
    (page.filterMap viewItem).map ViewItem.key = page.map Prod.fst := by
  induction page with
  | nil => rfl
  | cons g page ih =>
    rw [List.forall_mem_cons] at h
    obtain ⟨i, hi, hkey, -⟩ := viewItem_some h.1
    rw [List.filterMap_cons_some hi, List.map_cons, List.map_cons, hkey, ih h.2]

end Held

/-! ## What a scan holds -/

section Scans

variable (settings : ScanSettings) (keyStart : Option String) (bound : Nat) (t : Tables)

/-- The committed rows of the request, in key and version order. -/
def selected : List CommittedRow :=
  (match keyStart with
    | none => t.committedRecords
    | some p => t.committedRecords.filter fun r => likeMatch (p ++ "%").toList r.recordKey.toList).insertionSort rowBefore

/-- The storage serves no page longer than this. -/
def pageCap : Nat := 10000

/-- No page that the scan asks for exceeds what the storage serves. -/
def PagesFit : Prop := min settings.committedScanChunkSize bound ≤ pageCap

instance : Decidable (PagesFit settings bound) := inferInstanceAs (Decidable (_ ≤ _))

variable {settings keyStart bound t}

theorem iterCommittedRows_query :
    iterCommittedRows t keyStart = PagedScan.query (selected keyStart t) pageCap := rfl

theorem scanReplica_fit (hfit : PagesFit settings bound) : scanReplica settings keyStart bound t =
    ((selected keyStart t).take bound, decide ((selected keyStart t).length < bound)) := by
  have h := PagedScan.scan_below (l := selected keyStart t) settings.chunkSizePositive hfit bound 0
    (Nat.zero_le _) (Nat.zero_le _) (Nat.sub_le _ _)
  rw [List.take_zero] at h
  exact h

theorem scanReplica_unfit (hfit : ¬ PagesFit settings bound) :
    scanReplica settings keyStart bound t = ((selected keyStart t).take pageCap, true) := by
  have hcap : pageCap < min settings.committedScanChunkSize bound := Nat.lt_of_not_le hfit
  obtain ⟨fuel, rfl⟩ : ∃ fuel, bound = fuel + 1 := ⟨bound - 1, by omega⟩
  exact PagedScan.scan_above hcap fuel

/-- A replica counts as cut short when the pages fit and it has rows beyond the bound. -/
theorem cutShort_iff {tables : ReplicaId → Tables} {ρ : ReplicaId} : cutShort settings tables keyStart bound ρ = true ↔
    PagesFit settings bound ∧ bound < (selected keyStart (tables ρ)).length := by
  unfold cutShort
  by_cases hfit : PagesFit settings bound
  · rw [scanReplica_fit hfit, iterCommittedRows_query, PagedScan.cutShort_below (by decide), decide_eq_true_iff]
    exact (and_iff_right hfit).symm
  · rw [scanReplica_unfit hfit]
    constructor
    · intro h
      cases h
    · intro h
      exact absurd h.1 hfit

end Scans

/-! ## What a view reports -/

theorem slice_zero {α : Type} (l : List α) (n : Nat) : slice l 0 (0 + n) = l.take n := by
  unfold slice
  have hzero : ¬ (0 : Int) < 0 := by omega
  have hn : ¬ (0 : Int) + n < 0 := by omega
  simp only [if_neg hzero, if_neg hn, Int.toNat_zero, Nat.zero_min, List.drop_zero, Nat.sub_zero]
  rw [Int.zero_add, Int.toNat_natCast]
  rcases Nat.le_total n l.length with hle | hle
  · rw [Nat.min_eq_left hle]
  · rw [Nat.min_eq_right hle, List.take_length, List.take_of_length_le hle]

theorem slice_subset {α : Type} {l : List α} {start stop : Int} {a : α} (h : a ∈ slice l start stop) : a ∈ l :=
  List.mem_of_mem_drop (List.mem_of_mem_take h)

theorem slice_map {α β : Type} (f : α → β) (l : List α) (start stop : Int) :
    (slice l start stop).map f = slice (l.map f) start stop := by
  unfold slice
  rw [List.map_take, List.map_drop, List.length_map]

section Reports

variable (c : Coordinator) (settings : ScanSettings) (status : ReplicaId → ReplicaStatus) (tables : ReplicaId → Tables)
variable (keyStart : Option String) (bound : Nat)

/-- Every committed row of the request was scanned on every responsive replica. -/
def Scanned : Prop :=
  ∀ ρ ∈ responsive c status, scannedRows settings tables keyStart bound ρ = selected keyStart (tables ρ)

/-- The rows of the request that a quorum of the responsive replicas holds. -/
def quorumHeld : Finset RowKey :=
  held c.settings.quorumSize (responsive c status) fun ρ => selected keyStart (tables ρ)

/-- Either no page exceeds what the storage serves, or no responsive replica has that many rows. -/
def WithinCap : Prop :=
  PagesFit settings bound ∨ ∀ ρ ∈ responsive c status, (selected keyStart (tables ρ)).length ≤ pageCap

variable {c settings status tables keyStart bound}

theorem responsive_nodup : (responsive c status).Nodup := c.distinct.filter _

theorem not_truncated_iff (limit offset : Int) {scanMaxRows : Option Nat} :
    (committedView c settings status tables keyStart limit offset scanMaxRows).truncated = false ↔
      (PagesFit settings (scanMaxRows.getD settings.committedScanMaxRows) → ∀ ρ ∈ responsive c status,
        (selected keyStart (tables ρ)).length ≤ scanMaxRows.getD settings.committedScanMaxRows) := by
  unfold committedView
  dsimp only
  rw [Bool.not_eq_false', List.isEmpty_iff, List.filter_eq_nil_iff]
  constructor
  · intro h hfit ρ hρ
    exact Nat.le_of_not_lt fun hlong => h ρ hρ ((cutShort_iff).mpr ⟨hfit, hlong⟩)
  · intro h ρ hρ hcut
    obtain ⟨hfit, hlong⟩ := (cutShort_iff).mp hcut
    exact absurd (h hfit ρ hρ) (Nat.not_le_of_lt hlong)

theorem scannedRows_fit (hfit : PagesFit settings bound) (ρ : ReplicaId) :
    scannedRows settings tables keyStart bound ρ = (selected keyStart (tables ρ)).take bound := by
  rw [scannedRows, scanReplica_fit hfit]

theorem scannedRows_unfit (hfit : ¬ PagesFit settings bound) (ρ : ReplicaId) :
    scannedRows settings tables keyStart bound ρ = (selected keyStart (tables ρ)).take pageCap := by
  rw [scannedRows, scanReplica_unfit hfit]

/-- A view that does not say that it is truncated has scanned everything within the cap only. -/
theorem scanned_iff :
    ((PagesFit settings bound → ∀ ρ ∈ responsive c status, (selected keyStart (tables ρ)).length ≤ bound) →
      Scanned c settings status tables keyStart bound) ↔ WithinCap c settings status tables keyStart bound := by
  by_cases hfit : PagesFit settings bound
  · refine iff_of_true ?_ (.inl hfit)
    intro hshort ρ hρ
    rw [scannedRows_fit hfit, List.take_of_length_le (hshort hfit ρ hρ)]
  · constructor
    · intro h
      refine .inr fun ρ hρ => ?_
      have hall := h (fun hfit' => absurd hfit' hfit) ρ hρ
      rw [scannedRows_unfit hfit] at hall
      exact List.take_eq_self_iff _ |>.mp hall
    · rintro (hfit' | hshort)
      · exact absurd hfit' hfit
      · intro _ ρ hρ
        rw [scannedRows_unfit hfit, List.take_of_length_le (hshort ρ hρ)]

theorem responsive_shown {rows rows' : ReplicaId → List CommittedRow}
    (h : ∀ ρ ∈ responsive c status, rows ρ = rows' ρ) : shown (responsive c status) rows = shown (responsive c status) rows' :=
  List.flatMap_congr fun ρ hρ => by rw [h ρ hρ]

theorem responsive_held {rows rows' : ReplicaId → List CommittedRow} (h : ∀ ρ ∈ responsive c status, rows ρ = rows' ρ) :
    held c.settings.quorumSize (responsive c status) rows = held c.settings.quorumSize (responsive c status) rows' := by
  ext k
  have hholders : holders (responsive c status) rows k = holders (responsive c status) rows' k :=
    List.filter_congr fun ρ hρ => by rw [h ρ hρ]
  rw [mem_held c.settings.quorumPositive, mem_held c.settings.quorumPositive, hholders]

/-- Whatever the page, the total counts the rows that a quorum was seen to hold. -/
theorem view_total {limit offset : Int} {scanMaxRows : Option Nat} :
    (committedView c settings status tables keyStart limit offset scanMaxRows).totalVerified =
      (held c.settings.quorumSize (responsive c status)
        (scannedRows settings tables keyStart (scanMaxRows.getD settings.committedScanMaxRows))).card :=
  ordered_length responsive_nodup c.settings.quorumPositive

theorem view_total_scanned {limit offset : Int} {scanMaxRows : Option Nat}
    (h : Scanned c settings status tables keyStart (scanMaxRows.getD settings.committedScanMaxRows)) :
    (committedView c settings status tables keyStart limit offset scanMaxRows).totalVerified =
      (quorumHeld c status tables keyStart).card := by
  rw [view_total, responsive_held h]
  rfl

/-- The items are the page of the held rows. -/
theorem view_keys {limit offset : Int} {scanMaxRows : Option Nat} :
    (committedView c settings status tables keyStart limit offset scanMaxRows).items.map ViewItem.key =
      slice (held c.settings.quorumSize (responsive c status)
        (scannedRows settings tables keyStart (scanMaxRows.getD settings.committedScanMaxRows))).sort
        offset (offset + limit) := by
  rw [← ordered_keys responsive_nodup c.settings.quorumPositive, ← slice_map]
  exact items_keys fun g hg => ordered_subset (slice_subset hg)

end Reports

end BlackboardViews
