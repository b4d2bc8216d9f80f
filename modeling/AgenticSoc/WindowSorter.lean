import AgenticSoc.StableOrder

/-!
# The window sorter

An external sort: rows are buffered, sorted and written in chunks, and the chunks are merged
a bounded number at a time. A chunk file is the list of its lines.
-/
namespace WindowSorting

open Sorting StableOrder

/-- Rows with their window, and the lines they are written as. -/
structure RowCodec (Row : Type) where
  windowId : Row → Int
  dumps : Row → String
  loads : String → Row
  loads_dumps : ∀ row, loads (dumps row) = row

abbrev ChunkRows := { n : Nat // 1 ≤ n }
abbrev FanIn := { n : Nat // 2 ≤ n }

structure WindowSorter where
  chunkRows : ChunkRows
  mergeFanIn : FanIn
  chunks : List (List String)
  inversions : Nat
  maxInversionWindows : Int
  rowsSeen : Nat
  totalChunksWritten : Nat
  lastWid : Option Int
  buffer : List (Int × String)
  deriving DecidableEq

def WindowSorter.new (chunkRows : ChunkRows) (mergeFanIn : Int) : WindowSorter :=
  ⟨chunkRows, ⟨max 2 mergeFanIn.toNat, Nat.le_max_left 2 _⟩, [], 0, 0, 0, 0, none, []⟩

def WindowSorter.spill (s : WindowSorter) : WindowSorter :=
  if s.buffer.isEmpty then s
  else { s with
    chunks := s.chunks ++ [(sortBy Prod.fst s.buffer).map Prod.snd]
    totalChunksWritten := s.totalChunksWritten + 1
    buffer := [] }

def WindowSorter.noteOrder (s : WindowSorter) (wid : Int) : WindowSorter :=
  match s.lastWid with
  | none => s
  | some last =>
    if wid < last then
      { s with inversions := s.inversions + 1, maxInversionWindows := max s.maxInversionWindows (last - wid) }
    else s

section Rows

variable {Row : Type} (codec : RowCodec Row)

def WindowSorter.add (s : WindowSorter) (row : Row) : WindowSorter :=
  let wid := codec.windowId row
  let s := s.noteOrder wid
  let s := { s with lastWid := some wid, buffer := s.buffer ++ [(wid, codec.dumps row)], rowsSeen := s.rowsSeen + 1 }
  if s.chunkRows.val ≤ s.buffer.length then s.spill else s

def grouped {α : Type} (size : FanIn) (items : List α) : List (List α) :=
  if items.isEmpty then [] else items.take size :: grouped size (items.drop size)
termination_by items.length
decreasing_by
  rename_i hne
  have hpos : 0 < items.length := List.length_pos_iff.mpr fun h => hne (by rw [h]; rfl)
  have := size.2
  simp only [List.length_drop]
  omega

/-- The rows of chunk files, merged. -/
def mergeFiles (files : List (List String)) : List Row := merge codec.windowId (files.map fun f => f.map codec.loads)

def mergeGroup : List (List String) → List String
  | [file] => file
  | group => (mergeFiles codec group).map codec.dumps

def mergePass (fanIn : FanIn) (levels : List (List String)) : List (List String) :=
  (grouped fanIn levels).map (mergeGroup codec)

/-- The readers open at once while the groups of a pass are merged. -/
def openedIn (fanIn : FanIn) (levels : List (List String)) : Nat :=
  ((grouped fanIn levels).map fun group => if group.length = 1 then 0 else group.length).foldl max 0

theorem grouped_length {α : Type} (size : FanIn) (items : List α) : 2 * (grouped size items).length ≤ items.length + 1 := by
  fun_induction grouped size items with
  | case1 items _ =>
    rw [List.length_nil]
    omega
  | case2 items hne ih =>
    have hpos : 0 < items.length := List.length_pos_iff.mpr fun h => hne (by rw [h]; rfl)
    have := size.2
    rw [List.length_drop] at ih
    rw [List.length_cons]
    omega

/-- The passes until few enough files remain: the files, the passes, the readers open at once. -/
def mergeLevels (fanIn : FanIn) (levels : List (List String)) (passNo maxOpen : Nat) : List (List String) × Nat × Nat :=
  if fanIn.val < levels.length then
    mergeLevels fanIn (mergePass codec fanIn levels) (passNo + 1) (max maxOpen (openedIn fanIn levels))
  else (levels, passNo, maxOpen)
termination_by levels.length
decreasing_by
  have hgroups := grouped_length fanIn levels
  have := fanIn.2
  simp only [mergePass, List.length_map]
  omega

structure OrderingDiagnostics where
  rows : Nat
  inversions : Nat
  maxInversionWindows : Int
  chunksWritten : Nat
  mergePasses : Nat
  maxOpenReaders : Nat
  mergeFanIn : Nat
  deriving DecidableEq

/-- The rows in the order of their windows, and the statistics once they are all read. -/
def WindowSorter.iterSorted (s : WindowSorter) : List Row × OrderingDiagnostics :=
  let s := s.spill
  let diagnostics (passes opened : Nat) : OrderingDiagnostics :=
    ⟨s.rowsSeen, s.inversions, s.maxInversionWindows, s.totalChunksWritten, passes, opened, s.mergeFanIn⟩
  if s.chunks.isEmpty then ((sortBy Prod.fst s.buffer).map fun p => codec.loads p.2, diagnostics 0 0)
  else
    let (levels, passes, opened) := mergeLevels codec s.mergeFanIn s.chunks 0 0
    (mergeFiles codec levels, diagnostics passes (max opened levels.length))

/-- A sorter that has been given the rows. -/
def feed (chunkRows : ChunkRows) (mergeFanIn : Int) (rows : List Row) : WindowSorter :=
  rows.foldl (WindowSorter.add codec) (.new chunkRows mergeFanIn)

/-! ## What a sorter holds -/

variable {codec}

def loadAll (codec : RowCodec Row) (lines : List String) : List Row := lines.map codec.loads

/-- The chunks and the buffer hold the rows, each chunk in ascending order. -/
structure Holds (codec : RowCodec Row) (s : WindowSorter) (rows : List Row) : Prop where
  chunks : ∀ file ∈ s.chunks, Ascending codec.windowId (loadAll codec file)
  buffer : ∀ p ∈ s.buffer, p.1 = codec.windowId (codec.loads p.2)
  contents : ∀ k, under codec.windowId k (loadAll codec (s.chunks.flatten ++ s.buffer.map Prod.snd)) =
    under codec.windowId k rows

theorem loadAll_append (l l' : List String) : loadAll codec (l ++ l') = loadAll codec l ++ loadAll codec l' :=
  List.map_append

theorem loadAll_dumps (rows : List Row) : loadAll codec (rows.map codec.dumps) = rows := by
  rw [loadAll, List.map_map]
  exact (List.map_congr_left fun row _ => codec.loads_dumps row).trans (List.map_id rows)

/-- A sorted buffer, loaded, is the sorted rows of the buffer. -/
theorem load_sorted {buffer : List (Int × String)} (h : ∀ p ∈ buffer, p.1 = codec.windowId (codec.loads p.2)) :
    loadAll codec ((sortBy Prod.fst buffer).map Prod.snd) =
      sortBy codec.windowId (loadAll codec (buffer.map Prod.snd)) := by
  rw [loadAll, loadAll, List.map_map, List.map_map]
  refine sortBy_map fun a ha b hb => ?_
  rw [h a ha, h b hb]
  rfl

theorem holds_new (chunkRows : ChunkRows) (mergeFanIn : Int) : Holds codec (.new chunkRows mergeFanIn) [] :=
  ⟨fun _ h => absurd h List.not_mem_nil, fun _ h => absurd h List.not_mem_nil, fun _ => rfl⟩

theorem holds_spill {s : WindowSorter} {rows : List Row} (h : Holds codec s rows) : Holds codec s.spill rows := by
  unfold WindowSorter.spill
  split
  · exact h
  · refine ⟨fun file hfile => ?_, fun _ hp => absurd hp List.not_mem_nil, fun k => ?_⟩
    · rcases List.mem_append.mp hfile with hfile | hfile
      · exact h.chunks file hfile
      · rw [List.mem_singleton.mp hfile, load_sorted h.buffer]
        exact sortBy_pairwise _ _
    · have hcontents := h.contents k
      rw [loadAll_append, under_append] at hcontents
      simp only [List.flatten_append, List.flatten_cons, List.flatten_nil, List.append_nil, List.map_nil]
      rw [loadAll_append, under_append, load_sorted h.buffer, under_sortBy, hcontents]

theorem holds_note {s : WindowSorter} {rows : List Row} (h : Holds codec s rows) (wid : Int) :
    Holds codec (s.noteOrder wid) rows := by
  unfold WindowSorter.noteOrder
  split
  · exact h
  · split
    · exact ⟨h.chunks, h.buffer, h.contents⟩
    · exact h

theorem holds_add {s : WindowSorter} {rows : List Row} (h : Holds codec s rows) (row : Row) :
    Holds codec (s.add codec row) (rows ++ [row]) := by
  have hnoted := holds_note h (codec.windowId row)
  have hadded : Holds codec { s.noteOrder (codec.windowId row) with
      lastWid := some (codec.windowId row)
      buffer := (s.noteOrder (codec.windowId row)).buffer ++ [(codec.windowId row, codec.dumps row)]
      rowsSeen := (s.noteOrder (codec.windowId row)).rowsSeen + 1 } (rows ++ [row]) := by
    refine ⟨hnoted.chunks, fun p hp => ?_, fun k => ?_⟩
    · rcases List.mem_append.mp hp with hp | hp
      · exact hnoted.buffer p hp
      · rw [List.mem_singleton.mp hp, codec.loads_dumps]
    · have hcontents := hnoted.contents k
      simp only [List.map_append, List.map_cons, List.map_nil]
      rw [← List.append_assoc, loadAll_append, under_append, hcontents, under_append]
      simp only [loadAll, List.map_cons, List.map_nil, codec.loads_dumps]
  simp only [WindowSorter.add]
  split
  · exact holds_spill hadded
  · exact hadded

theorem holds_feed (chunkRows : ChunkRows) (mergeFanIn : Int) (rows : List Row) :
    Holds codec (feed codec chunkRows mergeFanIn rows) rows := by
  have hrun : ∀ (rows done : List Row) (s : WindowSorter), Holds codec s done →
      Holds codec (rows.foldl (WindowSorter.add codec) s) (done ++ rows) := by
    intro rows
    induction rows with
    | nil =>
      intro done s h
      rw [List.append_nil]
      exact h
    | cons row rows ih =>
      intro done s h
      have hnext := ih (done ++ [row]) (s.add codec row) (holds_add h row)
      rw [List.append_assoc] at hnext
      exact hnext
  exact hrun rows [] _ (holds_new chunkRows mergeFanIn)

/-! ## Merging the chunks -/

theorem grouped_flatten {α : Type} (size : FanIn) (items : List α) : (grouped size items).flatten = items := by
  fun_induction grouped size items with
  | case1 items hempty => rw [List.isEmpty_iff.mp hempty, List.flatten_nil]
  | case2 items hne ih => rw [List.flatten_cons, ih, List.take_append_drop]

theorem mergeFiles_eq {files : List (List String)} (h : ∀ file ∈ files, Ascending codec.windowId (loadAll codec file)) :
    mergeFiles codec files = sortBy codec.windowId (loadAll codec files.flatten) := by
  have hall : ∀ l ∈ files.map fun f => f.map codec.loads, Ascending codec.windowId l := List.forall_mem_map.mpr h
  rw [mergeFiles, merge_eq hall, loadAll, List.map_flatten]

theorem mergeGroup_spec {group : List (List String)} (h : ∀ file ∈ group, Ascending codec.windowId (loadAll codec file)) :
    Ascending codec.windowId (loadAll codec (mergeGroup codec group)) ∧
      ∀ k, under codec.windowId k (loadAll codec (mergeGroup codec group)) =
        under codec.windowId k (loadAll codec group.flatten) := by
  have hmerged : Ascending codec.windowId (loadAll codec ((mergeFiles codec group).map codec.dumps)) ∧
      ∀ k, under codec.windowId k (loadAll codec ((mergeFiles codec group).map codec.dumps)) =
        under codec.windowId k (loadAll codec group.flatten) := by
    rw [loadAll_dumps, mergeFiles_eq h]
    exact ⟨sortBy_pairwise _ _, fun k => under_sortBy k _⟩
  unfold mergeGroup
  split
  · rename_i file
    refine ⟨h file (List.mem_cons_self ..), fun k => ?_⟩
    rw [List.flatten_cons, List.flatten_nil, List.append_nil]
  · exact hmerged

/-- A pass leaves ascending files with the same rows under each window. -/
theorem mergePass_spec (fanIn : FanIn) {levels : List (List String)}
    (h : ∀ file ∈ levels, Ascending codec.windowId (loadAll codec file)) :
    (∀ file ∈ mergePass codec fanIn levels, Ascending codec.windowId (loadAll codec file)) ∧
      ∀ k, under codec.windowId k (loadAll codec (mergePass codec fanIn levels).flatten) =
        under codec.windowId k (loadAll codec levels.flatten) := by
  have hgroups : ∀ group ∈ grouped fanIn levels, ∀ file ∈ group, Ascending codec.windowId (loadAll codec file) := by
    intro group hgroup file hfile
    refine h file ?_
    rw [← grouped_flatten fanIn levels]
    exact List.mem_flatten_of_mem hgroup hfile
  have hrows : ∀ groups : List (List (List String)),
      (∀ group ∈ groups, ∀ file ∈ group, Ascending codec.windowId (loadAll codec file)) → ∀ k,
      under codec.windowId k (loadAll codec (groups.map (mergeGroup codec)).flatten) =
        under codec.windowId k (loadAll codec groups.flatten.flatten) := by
    intro groups hall k
    induction groups with
    | nil => rfl
    | cons group groups ih =>
      rw [List.map_cons, List.flatten_cons, loadAll_append, under_append,
        (mergeGroup_spec (hall group (List.mem_cons_self ..))).2 k,
        ih fun g hg => hall g (List.mem_cons_of_mem _ hg), List.flatten_cons, List.flatten_append, loadAll_append,
        under_append]
  constructor
  · refine List.forall_mem_map.mpr fun group hgroup => ?_
    exact (mergeGroup_spec (hgroups group hgroup)).1
  · intro k
    rw [mergePass, hrows _ hgroups k, grouped_flatten]

theorem mergeLevels_spec (fanIn : FanIn) (levels : List (List String)) (passNo maxOpen : Nat)
    (h : ∀ file ∈ levels, Ascending codec.windowId (loadAll codec file)) :
    (∀ file ∈ (mergeLevels codec fanIn levels passNo maxOpen).1, Ascending codec.windowId (loadAll codec file)) ∧
      ∀ k, under codec.windowId k (loadAll codec (mergeLevels codec fanIn levels passNo maxOpen).1.flatten) =
        under codec.windowId k (loadAll codec levels.flatten) := by
  fun_induction mergeLevels codec fanIn levels passNo maxOpen with
  | case1 levels passNo maxOpen _ ih =>
    obtain ⟨hascending, hrows⟩ := mergePass_spec fanIn h
    obtain ⟨hascending', hrows'⟩ := ih hascending
    exact ⟨hascending', fun k => (hrows' k).trans (hrows k)⟩
  | case2 levels passNo maxOpen _ => exact ⟨h, fun _ => rfl⟩

/-- The sorter yields the rows it was given, stably sorted by window. -/
theorem iterSorted_rows (chunkRows : ChunkRows) (mergeFanIn : Int) (rows : List Row) :
    ((feed codec chunkRows mergeFanIn rows).iterSorted codec).1 = sortBy codec.windowId rows := by
  have hholds : Holds codec (feed codec chunkRows mergeFanIn rows).spill rows :=
    holds_spill (holds_feed chunkRows mergeFanIn rows)
  have hbuffer : (feed codec chunkRows mergeFanIn rows).spill.buffer = [] := by
    unfold WindowSorter.spill
    split
    · rename_i hempty
      exact List.isEmpty_iff.mp hempty
    · rfl
  have hcontents : ∀ k, under codec.windowId k (loadAll codec (feed codec chunkRows mergeFanIn rows).spill.chunks.flatten) =
      under codec.windowId k rows := by
    intro k
    have := hholds.contents k
    rwa [hbuffer, List.map_nil, List.append_nil] at this
  simp only [WindowSorter.iterSorted, hbuffer]
  split
  · rename_i hempty
    have hnone : rows = [] := by
      refine List.eq_nil_iff_forall_not_mem.mpr fun row hrow => ?_
      have hmem := (mem_of_under hcontents row).mpr hrow
      rw [List.isEmpty_iff.mp hempty] at hmem
      exact absurd hmem List.not_mem_nil
    rw [hnone]
    rfl
  · obtain ⟨hascending, hrows⟩ :=
      mergeLevels_spec (feed codec chunkRows mergeFanIn rows).spill.mergeFanIn _ 0 0 hholds.chunks
    change mergeFiles codec _ = _
    rw [mergeFiles_eq hascending]
    exact eq_sortBy (sortBy_pairwise _ _) fun k => by rw [under_sortBy, hrows, hcontents]

/-! ## Readers -/

theorem grouped_bound {α : Type} (size : FanIn) (items : List α) : ∀ group ∈ grouped size items, group.length ≤ size.val := by
  fun_induction grouped size items with
  | case1 items _ => exact fun group hgroup => nomatch hgroup
  | case2 items _ ih =>
    refine List.forall_mem_cons.mpr ⟨?_, ih⟩
    rw [List.length_take]
    exact Nat.min_le_left _ _

theorem foldl_max_le {bound : Nat} {counts : List Nat} (h : ∀ n ∈ counts, n ≤ bound) {seen : Nat} (hseen : seen ≤ bound) :
    counts.foldl max seen ≤ bound := by
  induction counts generalizing seen with
  | nil => exact hseen
  | cons n counts ih =>
    obtain ⟨hn, hcounts⟩ := List.forall_mem_cons.mp h
    exact ih hcounts (max_le hseen hn)

/-- The groups of a pass are never larger than the fan-in. -/
theorem openedIn_le (fanIn : FanIn) (levels : List (List String)) : openedIn fanIn levels ≤ fanIn.val := by
  refine foldl_max_le (List.forall_mem_map.mpr fun group hgroup => ?_) (Nat.zero_le _)
  split
  · exact Nat.zero_le _
  · exact grouped_bound fanIn levels group hgroup

theorem mergeLevels_bound (codec : RowCodec Row) (fanIn : FanIn) (levels : List (List String)) (passNo maxOpen : Nat)
    (h : maxOpen ≤ fanIn.val) :
    (mergeLevels codec fanIn levels passNo maxOpen).1.length ≤ fanIn.val ∧
      (mergeLevels codec fanIn levels passNo maxOpen).2.2 ≤ fanIn.val := by
  fun_induction mergeLevels codec fanIn levels passNo maxOpen with
  | case1 levels passNo maxOpen _ ih => exact ih (max_le h (openedIn_le fanIn levels))
  | case2 levels passNo maxOpen hlevels => exact ⟨not_lt.mp hlevels, h⟩

theorem spill_fanIn (s : WindowSorter) : s.spill.mergeFanIn = s.mergeFanIn := by
  unfold WindowSorter.spill
  split <;> rfl

theorem note_fanIn (s : WindowSorter) (wid : Int) : (s.noteOrder wid).mergeFanIn = s.mergeFanIn := by
  unfold WindowSorter.noteOrder
  split
  · rfl
  · split <;> rfl

theorem add_fanIn (s : WindowSorter) (row : Row) : (s.add codec row).mergeFanIn = s.mergeFanIn := by
  rw [← note_fanIn s (codec.windowId row)]
  simp only [WindowSorter.add]
  split
  · rw [spill_fanIn]
  · rfl

theorem feed_fanIn (chunkRows : ChunkRows) (mergeFanIn : Int) (rows : List Row) :
    (feed codec chunkRows mergeFanIn rows).mergeFanIn.val = max 2 mergeFanIn.toNat := by
  suffices hrun : ∀ s : WindowSorter, (rows.foldl (WindowSorter.add codec) s).mergeFanIn = s.mergeFanIn by
    rw [feed, hrun]
    rfl
  induction rows with
  | nil => exact fun s => rfl
  | cons row rows ih =>
    intro s
    rw [List.foldl_cons, ih, add_fanIn]

theorem iterSorted_readers (s : WindowSorter) : (s.iterSorted codec).2.maxOpenReaders ≤ s.mergeFanIn.val := by
  rw [← spill_fanIn s]
  simp only [WindowSorter.iterSorted]
  split
  · exact Nat.zero_le _
  · obtain ⟨hlevels, hopened⟩ := mergeLevels_bound codec s.spill.mergeFanIn s.spill.chunks 0 0 (Nat.zero_le _)
    exact max_le hopened hlevels

/-- The sorter is a stable sort: it yields the rows it was given in ascending order of their
windows, those of one window in the order of arrival, and no more chunk files are open at
once than the fan-in allows. -/
theorem sorts_stably (codec : RowCodec Row) (chunkRows : ChunkRows) (mergeFanIn : Int) (rows : List Row) :
    let sorted := (feed codec chunkRows mergeFanIn rows).iterSorted codec
    sorted.1 = sortBy codec.windowId rows ∧ sorted.1.Perm rows ∧ Ascending codec.windowId sorted.1 ∧
      (∀ wid, (sorted.1.filter fun row => codec.windowId row = wid) = rows.filter fun row => codec.windowId row = wid) ∧
      sorted.2.maxOpenReaders ≤ max 2 mergeFanIn.toNat := by
  refine ⟨iterSorted_rows chunkRows mergeFanIn rows, ?_, ?_, fun wid => ?_, ?_⟩
  · rw [iterSorted_rows]
    exact sortBy_perm _ _
  · rw [iterSorted_rows]
    exact sortBy_pairwise _ _
  · rw [iterSorted_rows]
    exact under_sortBy wid rows
  · rw [← @feed_fanIn Row codec chunkRows mergeFanIn rows]
    exact iterSorted_readers _

end Rows

end WindowSorting
