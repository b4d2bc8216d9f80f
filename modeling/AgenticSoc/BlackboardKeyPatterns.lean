import AgenticSoc.BlackboardListings

/-!
# Selecting by the start of a key

The view hands the start of a key to the pattern operator of the storage. The pattern takes
`_` for any character and ignores the case of ASCII letters, so it matches every key with
that start and others besides; the page limit and the cap of the storage may drop some.
-/
namespace BlackboardKeyPatterns

open BlackboardRecord BlackboardStorage BlackboardReplica BlackboardCoordinator BlackboardViews BlackboardListings

/-! ## The pattern -/

/-- A text matches the pattern made of one of its starts. -/
theorem like_of_start : ∀ (p s : List Char), p <+: s → likeMatch (p ++ ['%']) s = true
  | [], s, _ => by
    have hnil : [] ∈ s.tails := (List.mem_tails _ _).mpr s.nil_suffix
    exact List.any_eq_true.mpr ⟨[], hnil, rfl⟩
  | c :: p, s, h => by
    obtain ⟨rest, rfl⟩ := h
    have ih := like_of_start p (p ++ rest) (List.prefix_append p rest)
    rw [List.cons_append, List.cons_append, likeMatch]
    split
    · refine List.any_eq_true.mpr ⟨p ++ rest, ?_, ih⟩
      exact (List.mem_tails _ _).mpr (List.suffix_cons c _)
    · rw [ih, decide_eq_true (rfl : c.toLower = c.toLower), Bool.or_true, Bool.and_true]

theorem mem_selected_none {t : Tables} {row : CommittedRow} : row ∈ selected none t ↔ row ∈ t.committedRecords :=
  List.mem_insertionSort _

theorem mem_selected_some {p : String} {t : Tables} {row : CommittedRow} : row ∈ selected (some p) t ↔
    row ∈ t.committedRecords ∧ likeMatch (p ++ "%").toList row.recordKey.toList = true := by
  unfold selected
  rw [List.mem_insertionSort, List.mem_filter]

theorem selected_of_start {p : String} {t : Tables} {row : CommittedRow} (hrow : row ∈ t.committedRecords)
    (hstart : startsWithText p row.recordKey = true) : row ∈ selected (some p) t := by
  refine (mem_selected_some).mpr ⟨hrow, ?_⟩
  rw [String.toList_append]
  exact like_of_start _ _ (List.isPrefixOf_iff_prefix.mp hstart)

/-! ## The rows with a start -/

section Starts

variable (c : Coordinator) (settings : ScanSettings) (status : ReplicaId → ReplicaStatus) (tables : ReplicaId → Tables)
variable (p : String)

/-- The rows held by a quorum whose key starts with the text. -/
def heldWithStart : Finset RowKey := (quorumHeld c status tables none).filter fun k => startsWithText p (keyOf k) = true

/-- The rows that the pattern matches, up to the cap of the storage when a page exceeds it. -/
def inReach (ρ : ReplicaId) : List CommittedRow :=
  if PagesFit settings settings.committedScanMaxRows then selected (some p) (tables ρ)
  else (selected (some p) (tables ρ)).take pageCap

/-- The rows in reach on a quorum of the responsive replicas. -/
def heldInReach : Finset RowKey := held c.settings.quorumSize (responsive c status) (inReach settings tables p)

/-- The items are the rows held with the start, each once. -/
def Exactly (items : List ViewItem) : Prop :=
  (items.map ViewItem.key).Nodup ∧ ∀ k, k ∈ items.map ViewItem.key ↔ k ∈ heldWithStart c status tables p

variable {c settings status tables p}

theorem inReach_subset {ρ : ReplicaId} {row : CommittedRow} (h : row ∈ inReach settings tables p ρ) :
    row ∈ (tables ρ).committedRecords := by
  unfold inReach at h
  split at h
  · exact ((mem_selected_some).mp h).1
  · exact ((mem_selected_some).mp (List.mem_of_mem_take h)).1

/-- A row in reach is held. -/
theorem heldInReach_subset : heldInReach c settings status tables p ⊆ quorumHeld c status tables none := by
  intro k hk
  rw [heldInReach, mem_held c.settings.quorumPositive] at hk
  rw [quorumHeld, mem_held c.settings.quorumPositive]
  refine hk.trans (List.Sublist.length_le ?_)
  apply List.monotone_filter_right
  intro ρ hρ
  obtain ⟨row, hrow, hkey⟩ := List.any_eq_true.mp hρ
  exact List.any_eq_true.mpr ⟨row, (mem_selected_none).mpr (inReach_subset hrow), hkey⟩

/-- While the pages fit, every row with the start is in reach. -/
theorem heldWithStart_subset (hfit : PagesFit settings settings.committedScanMaxRows) :
    heldWithStart c status tables p ⊆ heldInReach c settings status tables p := by
  intro k hk
  obtain ⟨hheld, hstart⟩ := Finset.mem_filter.mp hk
  rw [quorumHeld, mem_held c.settings.quorumPositive] at hheld
  rw [heldInReach, mem_held c.settings.quorumPositive]
  refine hheld.trans (List.Sublist.length_le ?_)
  apply List.monotone_filter_right
  intro ρ hρ
  obtain ⟨row, hrow, hkey⟩ := List.any_eq_true.mp hρ
  have hkey' : rowKey row = k := by simpa using hkey
  refine List.any_eq_true.mpr ⟨row, ?_, hkey⟩
  rw [inReach, if_pos hfit]
  refine selected_of_start ((mem_selected_none).mp hrow) ?_
  rw [← hkey'] at hstart
  exact hstart

/-- The items of an untruncated view are the first rows in reach. -/
theorem items_in_reach {limit : Nat}
    (h : (committedView c settings status tables (some p) limit 0 none).truncated = false) :
    (committedView c settings status tables (some p) limit 0 none).items.map ViewItem.key =
      (heldInReach c settings status tables p).sort.take limit := by
  have hshort := (not_truncated_iff limit 0).mp h
  rw [Option.getD_none] at hshort
  rw [view_keys, slice_zero, Option.getD_none]
  refine congrArg (fun s : Finset RowKey => s.sort.take limit) (responsive_held ?_)
  intro ρ hρ
  unfold inReach
  by_cases hfit : PagesFit settings settings.committedScanMaxRows
  · rw [if_pos hfit, scannedRows_fit hfit, List.take_of_length_le (hshort hfit ρ hρ)]
  · rw [if_neg hfit, scannedRows_unfit hfit]

/-- A view that is not truncated lists exactly the rows with the start when these are in reach,
fit on the page and no other row in reach takes a place on it. -/
theorem items_exactly_iff (limit : Nat)
    (h : (committedView c settings status tables (some p) limit 0 none).truncated = false) :
    Exactly c status tables p (committedView c settings status tables (some p) limit 0 none).items ↔
      heldWithStart c status tables p ⊆ heldInReach c settings status tables p ∧
        (heldWithStart c status tables p).card ≤ limit ∧
        ∀ k ∈ (heldInReach c settings status tables p).sort.take limit, startsWithText p (keyOf k) = true := by
  have hpage : ((heldInReach c settings status tables p).sort.take limit).Nodup :=
    (Finset.sort_nodup _ _).sublist (List.take_sublist _ _)
  have hsub : ((heldInReach c settings status tables p).sort.take limit).toFinset ⊆
      heldInReach c settings status tables p := by
    intro k hk
    exact (Finset.mem_sort _).mp (List.mem_of_mem_take (List.mem_toFinset.mp hk))
  unfold Exactly
  rw [items_in_reach h]
  constructor
  · rintro ⟨-, hsame⟩
    have hpageSet : ((heldInReach c settings status tables p).sort.take limit).toFinset =
        heldWithStart c status tables p := by
      ext k
      rw [List.mem_toFinset]
      exact hsame k
    refine ⟨hpageSet ▸ hsub, ?_, ?_⟩
    · rw [← hpageSet, List.toFinset_card_of_nodup hpage]
      exact List.length_take_le _ _
    · intro k hk
      exact (Finset.mem_filter.mp ((hsame k).mp hk)).2
  · rintro ⟨hreach, hfits, hstarts⟩
    refine ⟨hpage, fun k => ?_⟩
    have hinto : ((heldInReach c settings status tables p).sort.take limit).toFinset ⊆
        heldWithStart c status tables p := by
      intro k hk
      exact Finset.mem_filter.mpr ⟨heldInReach_subset (hsub hk), hstarts k (List.mem_toFinset.mp hk)⟩
    rw [← List.mem_toFinset]
    suffices hcard : (heldWithStart c status tables p).card ≤
        ((heldInReach c settings status tables p).sort.take limit).toFinset.card by
      rw [Finset.eq_of_subset_of_card_le hinto hcard]
    rw [List.toFinset_card_of_nodup hpage, List.length_take, Finset.length_sort]
    exact Nat.le_min.mpr ⟨hfits, Finset.card_le_card hreach⟩

end Starts

def defaultScan : ScanSettings := ⟨10000, 1000, by decide, by decide⟩

/-- Three replicas with one version of each key. -/
def withKeys (keys : List String) (_ : ReplicaId) : Tables :=
  ⟨keys.map fun k => plainRow k 1, keys.map fun k => (k, 1), []⟩

def devView (keys : List String) (p : String) : CommittedView :=
  committedView devCoordinator defaultScan healthy (withKeys keys) (some p) 100 0 none

def devKeys : List String := ["dev/b1", "other"]

theorem items_exactly_dev :
    (devView devKeys "dev/").truncated = false ∧
    (Exactly devCoordinator healthy (withKeys devKeys) "dev/" (devView devKeys "dev/").items ↔
      heldWithStart devCoordinator healthy (withKeys devKeys) "dev/" ⊆
          heldInReach devCoordinator defaultScan healthy (withKeys devKeys) "dev/" ∧
        (heldWithStart devCoordinator healthy (withKeys devKeys) "dev/").card ≤ 100 ∧
        ∀ k ∈ (heldInReach devCoordinator defaultScan healthy (withKeys devKeys) "dev/").sort.take 100,
          startsWithText "dev/" (keyOf k) = true) := by
  have huncut : (devView devKeys "dev/").truncated = false := by decide
  exact ⟨huncut, items_exactly_iff 100 huncut⟩

def lookalikes : List String := ["dev_b1", "dev-b2", "DEV_b3"]

/-- The underscore of the start matches any character, and letters match in either case. -/
theorem pattern_lists_others :
    (devView lookalikes "dev_").truncated = false ∧ (devView lookalikes "dev_").items.length = 3 ∧
    ¬ Exactly devCoordinator healthy (withKeys lookalikes) "dev_" (devView lookalikes "dev_").items := by
  refine ⟨by decide, by decide, ?_⟩
  intro hexact
  have hlisted : rowKey (plainRow "dev-b2" 1) ∈ (devView lookalikes "dev_").items.map ViewItem.key := by
    decide
  have hstart := (Finset.mem_filter.mp ((hexact.2 _).mp hlisted)).2
  exact absurd hstart (by decide)

end BlackboardKeyPatterns
