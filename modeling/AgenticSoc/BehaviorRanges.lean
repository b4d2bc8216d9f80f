import AgenticSoc.ExactlyOnce
import Mathlib.Data.Finset.Card
import Mathlib.Order.Interval.Finset.Defs
import Mathlib.Data.Int.Interval

/-!
# Features relative to a window

The seconds of a window that had events and the offset of its last event are taken from the
start of the window. An event before the start that is moved into window 0 lies before the
start of its window, so both can leave their range there and nowhere else.
-/
namespace BehaviorRanges

open EventWindows LiveTables WatermarkedTables DeviceInventory FeatureStatistics BehaviorFeatures BehaviorCounts Collecting

/-! ## Windows of whole seconds -/

theorem pyRound_int (n : Int) : pyRound (n : ℚ) = n := by
  unfold pyRound
  simp

theorem windowNs_whole {grid : WindowGrid} {seconds : Nat} (h : grid.windowSeconds = seconds) :
    grid.windowNs = seconds * 1000000000 := by
  have hcast : ((seconds : ℚ) * 1000000000) = (((seconds : Int) * 1000000000 : Int) : ℚ) := by push_cast; ring
  rw [WindowGrid.windowNs, h, hcast, pyRound_int]

/-- An event lies inside of its window, or it was moved into window 0 from before the start. -/
theorem windowOf_cases (grid : WindowGrid) (clockToleranceNs tsNs : Int) :
    let wid := grid.windowOf clockToleranceNs tsNs
    ((grid.windowBounds wid).1 ≤ tsNs ∧ tsNs < (grid.windowBounds wid).1 + grid.windowNs) ∨
      (wid = 0 ∧ tsNs < grid.scenarioStartNs) := by
  have hneg := grid.windowId_neg tsNs
  have hlow := grid.windowId_lt tsNs (grid.windowId tsNs)
  have hhigh := grid.windowId_lt tsNs (grid.windowId tsNs + 1)
  have hinside : (grid.windowBounds (grid.windowId tsNs)).1 ≤ tsNs ∧
      tsNs < (grid.windowBounds (grid.windowId tsNs)).1 + grid.windowNs := by
    simp only [WindowGrid.windowBounds] at hlow hhigh ⊢
    rw [add_mul, one_mul] at hhigh
    omega
  simp only [WindowGrid.windowOf, WindowGrid.assign]
  split
  · exact .inl hinside
  · split
    · exact .inr ⟨rfl, by omega⟩
    · exact .inl hinside

/-! ## What an accumulator holds of its timestamps -/

section Accumulators

variable (L : Library) (S : BehaviorSetup)

/-- The second of an event, counted from the start of a window. -/
def secondOf (wid : Int) (event : MqttEvent) : Int := (event.tsNs - (S.grid.windowBounds wid).1) / 1000000000

theorem bins_fold (k : Int × String) (fed : List MqttEvent) :
    ((fed.foldl (count L S) (.new k.2 k.1)).secondBins.keys).toFinset = (fed.map (secondOf S k.1)).toFinset := by
  induction fed using List.reverseRecOn with
  | nil => rfl
  | append_singleton fed event ih =>
    have hwid : (fed.foldl (count L S) (BehaviorWindowAccumulator.new k.2 k.1)).windowId = k.1 := (count_fold L S fed _).2.1
    rw [List.foldl_append, List.foldl_cons, List.foldl_nil, count_noted L S _ event]
    simp only [noteEvent, Counter.bump, AList.keys_insert, hwid]
    rw [List.map_append, List.toFinset_append, ← ih]
    ext second
    simp only [List.mem_toFinset, List.mem_cons, Finset.mem_union, List.map_cons, List.map_nil, List.not_mem_nil, or_false]
    by_cases hsame : second = secondOf S k.1 event
    · simp [hsame, secondOf]
    · have hne : second ≠ (event.tsNs - (S.grid.windowBounds k.1).1) / 1000000000 := hsame
      simp [hne, hsame, List.mem_erase_of_ne hne]

/-- The first timestamps of a window are kept in order, as many as there is room for. -/
theorem tsList_spec (k : Int × String) (fed : List MqttEvent) :
    (fed.foldl (count L S) (.new k.2 k.1)).tsList.Perm ((fed.take tsListCap).map MqttEvent.tsNs) ∧
      (fed.foldl (count L S) (.new k.2 k.1)).tsList.Pairwise (· ≤ ·) := by
  induction fed using List.reverseRecOn with
  | nil => exact ⟨.nil, .nil⟩
  | append_singleton fed event ih =>
    obtain ⟨hperm, hsorted⟩ := ih
    have hlen := hperm.length_eq
    rw [List.length_map, List.length_take] at hlen
    rw [List.foldl_append, List.foldl_cons, List.foldl_nil, count_noted L S _ event]
    simp only [noteEvent]
    by_cases hroom : fed.length < tsListCap
    · rw [if_pos (decide_eq_true (by omega))]
      refine ⟨?_, List.Pairwise.orderedInsert _ _ hsorted⟩
      rw [List.take_of_length_le (by omega)] at hperm
      rw [List.take_of_length_le (by rw [List.length_append]; exact hroom), List.map_append]
      exact (List.perm_orderedInsert _ _ _).trans ((hperm.cons _).trans (List.perm_append_singleton _ _).symm)
    · rw [if_neg (by rw [decide_eq_true_eq]; omega), List.take_append_of_le_length (by omega)]
      exact ⟨hperm, hsorted⟩

/-- The last of the timestamps is not before a moment exactly when one of them is not. -/
theorem last_ge {times : List Int} (hsorted : times.Pairwise (· ≤ ·)) {last : Int} (h : last ∈ times.getLast?) (moment : Int) :
    moment ≤ last ↔ ∃ t ∈ times, moment ≤ t := by
  rw [Option.mem_def] at h
  have hmem : last ∈ times := List.mem_of_getLast? h
  refine ⟨fun hle => ⟨last, hmem, hle⟩, ?_⟩
  rintro ⟨t, ht, hle⟩
  obtain ⟨front, rfl⟩ := List.getLast?_eq_some_iff.mp h
  rcases List.mem_append.mp ht with ht | ht
  · exact hle.trans ((List.pairwise_append.mp hsorted).2.2 t ht last List.mem_cons_self)
  · rwa [List.mem_singleton.mp ht] at hle

end Accumulators

/-! ## Rows -/

section Rows

variable (L : Library) (S : BehaviorSetup)

/-- The window-relative features of a row, where present, lie in their ranges. -/
def InRange (row : BehaviorRow) : Prop :=
  (∀ common ∈ row.common, 0 < common.activeFractionOfWindow ∧ common.activeFractionOfWindow ≤ 1) ∧
    ∀ sparse ∈ row.sparse, ∀ x ∈ sparse.lastEventOffsetSeconds, 0 ≤ x ∧ x < S.grid.windowSeconds

/-- The events of a device in window 0. -/
def firstWindow (events : List MqttEvent) (d : String) : List MqttEvent := cellEvents L S events (0, d)

def isEarly (event : MqttEvent) : Bool := event.tsNs < S.grid.scenarioStartNs

/-- Seconds before the start that were moved into window 0. -/
def earlySeconds (events : List MqttEvent) (d : String) : Finset Int :=
  (((firstWindow L S events d).filter (isEarly S)).map (secondOf S 0)).toFinset

def busySeconds (events : List MqttEvent) (d : String) : Finset Int :=
  (((firstWindow L S events d).filter fun e => !isEarly S e).map (secondOf S 0)).toFinset

def allSeconds (seconds : Nat) : Finset Int := ((List.range seconds).map Int.ofNat).toFinset

/-- Seconds of window 0 without an event. -/
def idleSeconds (seconds : Nat) (events : List MqttEvent) (d : String) : Finset Int :=
  allSeconds seconds \ busySeconds L S events d

/-- The events that were moved into window 0 find room there: they take no more seconds than
are idle, and they are not the only ones kept of a sparse sensor. -/
def EarlyFit (seconds : Nat) (events : List MqttEvent) (d : String) : Prop :=
  (earlySeconds L S events d).card ≤ (idleSeconds L S seconds events d).card ∧
    (firstWindow L S events d ≠ [] → behaviorProfileFor S.inventory d = .sparse →
      ∃ e ∈ (firstWindow L S events d).take tsListCap, isEarly S e = false)

variable {S} {seconds : Nat} (hseconds : S.grid.windowSeconds = seconds)

include hseconds

theorem seconds_pos : 0 < seconds := by
  have hpos := S.grid.windowNs_pos
  rw [windowNs_whole hseconds] at hpos
  omega

/-- The ranges of a row, by the accumulator that it is made of. -/
theorem inRange_iff (history : History) (acc : BehaviorWindowAccumulator) : InRange S (S.finalize L history acc) ↔
    acc.secondBins.keys.length ≤ seconds ∧ (behaviorProfileFor S.inventory acc.deviceName = .sparse →
      ∀ last ∈ acc.tsList.getLast?, (S.grid.windowBounds acc.windowId).1 ≤ last ∧
        last < (S.grid.windowBounds acc.windowId).1 + S.grid.windowNs) := by
  have hpos := seconds_pos hseconds
  have hcast : (1 : ℚ) ≤ seconds := by exact_mod_cast hpos
  have hmax : max (1 / 1000000000 : ℚ) S.grid.windowSeconds = seconds := by
    rw [hseconds]
    exact max_eq_right (le_trans (by norm_num) hcast)
  have hfraction : (0 : ℚ) < ((max 1 acc.secondBins.keys.length : Nat) : ℚ) / seconds ∧
      (((max 1 acc.secondBins.keys.length : Nat) : ℚ) / seconds ≤ 1 ↔ acc.secondBins.keys.length ≤ seconds) := by
    have hone : 1 ≤ max 1 acc.secondBins.keys.length := le_max_left _ _
    have honecast : (1 : ℚ) ≤ (max 1 acc.secondBins.keys.length : Nat) := by exact_mod_cast hone
    refine ⟨div_pos (by linarith) (by linarith), ?_⟩
    rw [div_le_one (by linarith), Nat.cast_le]
    omega
  have hoffset : ∀ last : Int,
      (0 ≤ ((last - (S.grid.windowBounds acc.windowId).1 : Int) : ℚ) / 1000000000 ∧
        ((last - (S.grid.windowBounds acc.windowId).1 : Int) : ℚ) / 1000000000 < S.grid.windowSeconds) ↔
      (S.grid.windowBounds acc.windowId).1 ≤ last ∧ last < (S.grid.windowBounds acc.windowId).1 + S.grid.windowNs := by
    intro last
    rw [hseconds, windowNs_whole hseconds, le_div_iff₀ (by norm_num), zero_mul, Int.cast_nonneg_iff, div_lt_iff₀ (by norm_num)]
    have hns : ((seconds : ℚ) * 1000000000) = (((seconds : Int) * 1000000000 : Int) : ℚ) := by push_cast; ring
    rw [hns, Int.cast_lt]
    omega
  simp only [InRange, BehaviorSetup.finalize, BehaviorSetup.rowOf, Option.mem_def, Option.some.injEq, forall_eq', hmax]
  refine and_congr ⟨fun h => hfraction.2.mp h.2, fun h => ⟨hfraction.1, hfraction.2.mpr h⟩⟩ ?_
  by_cases hprofile : behaviorProfileFor S.inventory acc.deviceName = .sparse
  · simp only [hprofile, if_true, Option.some.injEq, forall_eq', Option.map_eq_some_iff, forall_const]
    constructor
    · intro h last hlast
      exact (hoffset last).mp (h _ ⟨last, hlast, rfl⟩)
    · rintro h _ ⟨last, hlast, rfl⟩
      exact (hoffset last).mpr (h last hlast)
  · simp [hprofile]

omit L S hseconds in
theorem mem_allSeconds {seconds : Nat} {second : Int} : second ∈ allSeconds seconds ↔ 0 ≤ second ∧ second < seconds := by
  unfold allSeconds
  rw [List.mem_toFinset, List.mem_map]
  constructor
  · rintro ⟨n, hn, rfl⟩
    have := List.mem_range.mp hn
    exact ⟨Int.natCast_nonneg n, Int.ofNat_lt.mpr this⟩
  · rintro ⟨hlow, hhigh⟩
    exact ⟨second.toNat, List.mem_range.mpr (by omega), Int.toNat_of_nonneg hlow⟩

omit L S hseconds in
theorem card_allSeconds (seconds : Nat) : (allSeconds seconds).card = seconds := by
  unfold allSeconds
  rw [List.toFinset_card_of_nodup (List.nodup_range.map Int.ofNat_injective), List.length_map, List.length_range]

/-- Seconds of a window that its events lie in. -/
theorem secondOf_inside {wid : Int} {event : MqttEvent} (hlow : (S.grid.windowBounds wid).1 ≤ event.tsNs)
    (hhigh : event.tsNs < (S.grid.windowBounds wid).1 + S.grid.windowNs) :
    secondOf S wid event ∈ allSeconds seconds := by
  rw [windowNs_whole hseconds] at hhigh
  rw [mem_allSeconds, secondOf]
  omega

omit hseconds in
theorem cellEvents_window {events : List MqttEvent} {k : Int × String} {e : MqttEvent} (he : e ∈ cellEvents L S events k) :
    ((S.grid.windowBounds k.1).1 ≤ e.tsNs ∧ e.tsNs < (S.grid.windowBounds k.1).1 + S.grid.windowNs) ∨
      (k.1 = 0 ∧ isEarly S e = true) := by
  obtain ⟨-, hk⟩ := List.mem_filter.mp he
  obtain ⟨hw, -⟩ := of_decide_eq_true hk
  rw [← hw]
  exact (windowOf_cases S.grid S.clockToleranceNs e.tsNs).imp id fun h => ⟨h.1, decide_eq_true h.2⟩

omit hseconds in
theorem start_zero : (S.grid.windowBounds 0).1 = S.grid.scenarioStartNs := by simp [WindowGrid.windowBounds]

/-- The events of a cell take no more seconds than its window has, unless early ones do. -/
theorem seconds_fit (events : List MqttEvent) (k : Int × String) :
    ((cellEvents L S events k).map (secondOf S k.1)).toFinset.card ≤ seconds ↔
      (k.1 = 0 → (earlySeconds L S events k.2).card ≤ (idleSeconds L S seconds events k.2).card) := by
  have hroom : (allSeconds seconds).card = seconds := card_allSeconds seconds
  obtain ⟨wid, d⟩ := k
  by_cases hw : wid = 0
  · subst hw
    have hbusy : busySeconds L S events d ⊆ allSeconds seconds := by
      intro second hsecond
      obtain ⟨e, he, rfl⟩ := List.mem_map.mp (List.mem_toFinset.mp hsecond)
      obtain ⟨he, hlate⟩ := List.mem_filter.mp he
      rcases cellEvents_window L he with ⟨hlow, hhigh⟩ | ⟨-, hearly⟩
      · exact secondOf_inside hseconds hlow hhigh
      · rw [hearly] at hlate
        cases hlate
    have hdisjoint : Disjoint (earlySeconds L S events d) (busySeconds L S events d) := by
      refine Finset.disjoint_left.mpr fun second hearly hsecond => ?_
      have hnonneg := ((mem_allSeconds).mp (hbusy hsecond)).1
      obtain ⟨e, he, rfl⟩ := List.mem_map.mp (List.mem_toFinset.mp hearly)
      have hlt : e.tsNs < S.grid.scenarioStartNs := of_decide_eq_true (List.mem_filter.mp he).2
      rw [secondOf, start_zero] at hnonneg
      omega
    have hall : ((cellEvents L S events (0, d)).map (secondOf S 0)).toFinset =
        earlySeconds L S events d ∪ busySeconds L S events d := by
      ext second
      simp only [earlySeconds, busySeconds, firstWindow, List.mem_toFinset, List.mem_map, List.mem_filter, Finset.mem_union]
      constructor
      · rintro ⟨e, he, rfl⟩
        cases hearly : isEarly S e with
        | true => exact .inl ⟨e, ⟨he, hearly⟩, rfl⟩
        | false => exact .inr ⟨e, ⟨he, by rw [hearly]; rfl⟩, rfl⟩
      · rintro (⟨e, ⟨he, -⟩, rfl⟩ | ⟨e, ⟨he, -⟩, rfl⟩)
        · exact ⟨e, he, rfl⟩
        · exact ⟨e, he, rfl⟩
    have hidle := Finset.card_sdiff_of_subset hbusy
    have hcard := Finset.card_le_card hbusy
    rw [hroom] at hidle hcard
    rw [hall, Finset.card_union_of_disjoint hdisjoint, idleSeconds, hidle]
    simp only [forall_const]
    omega
  · refine iff_of_true ?_ fun h => absurd h hw
    rw [← hroom]
    refine Finset.card_le_card fun second hsecond => ?_
    obtain ⟨e, he, rfl⟩ := List.mem_map.mp (List.mem_toFinset.mp hsecond)
    rcases cellEvents_window L he with ⟨hlow, hhigh⟩ | ⟨hzero, -⟩
    · exact secondOf_inside hseconds hlow hhigh
    · exact absurd hzero hw

omit hseconds in
/-- The offset of the last event kept of a cell is in the window, unless all that is kept is early. -/
theorem last_fit {events : List MqttEvent} {k : Int × String} (hne : cellEvents L S events k ≠ []) :
    (∀ last ∈ ((cellEvents L S events k).foldl (count L S) (.new k.2 k.1)).tsList.getLast?,
      (S.grid.windowBounds k.1).1 ≤ last ∧ last < (S.grid.windowBounds k.1).1 + S.grid.windowNs) ↔
      (k.1 = 0 → ∃ e ∈ (cellEvents L S events k).take tsListCap, isEarly S e = false) := by
  obtain ⟨hperm, hsorted⟩ := tsList_spec L S k (cellEvents L S events k)
  generalize ((cellEvents L S events k).foldl (count L S) (.new k.2 k.1)).tsList = times at hperm hsorted
  have hkept : ∀ e ∈ (cellEvents L S events k).take tsListCap, e ∈ cellEvents L S events k :=
    fun e he => (List.take_sublist _ _).subset he
  have hlength : times ≠ [] := by
    intro hnil
    have hlen := hperm.length_eq
    have hpos := List.length_pos_iff.mpr hne
    rw [hnil, List.length_map, List.length_take, List.length_nil] at hlen
    have hcap : 0 < tsListCap := by decide
    omega
  obtain ⟨last, hlast⟩ : ∃ last, times.getLast? = some last := ⟨_, List.getLast?_eq_some_getLast hlength⟩
  obtain ⟨e, he, hts⟩ := List.mem_map.mp (hperm.mem_iff.mp (List.mem_of_getLast? hlast))
  have hupper : last < (S.grid.windowBounds k.1).1 + S.grid.windowNs := by
    rw [← hts]
    rcases cellEvents_window L (hkept e he) with ⟨-, hhigh⟩ | ⟨hzero, hearly⟩
    · exact hhigh
    · have hlt : e.tsNs < S.grid.scenarioStartNs := of_decide_eq_true hearly
      have hpos := S.grid.windowNs_pos
      rw [hzero, start_zero]
      omega
  have hstart : ∀ e ∈ cellEvents L S events k, (S.grid.windowBounds k.1).1 ≤ e.tsNs ↔ (k.1 = 0 → isEarly S e = false) := by
    intro e he
    rcases cellEvents_window L he with ⟨hlow, -⟩ | ⟨hzero, hearly⟩
    · refine iff_of_true hlow fun hzero => ?_
      rw [hzero, start_zero] at hlow
      exact decide_eq_false (not_lt.mpr hlow)
    · have hlt : e.tsNs < S.grid.scenarioStartNs := of_decide_eq_true hearly
      refine iff_of_false ?_ fun h => ?_
      · rw [hzero, start_zero]
        omega
      · rw [h hzero] at hearly
        cases hearly
  rw [hlast]
  simp only [Option.mem_def, Option.some.injEq, forall_eq', hupper, and_true]
  rw [last_ge hsorted hlast]
  constructor
  · rintro ⟨t, ht, hle⟩ hzero
    obtain ⟨e, he, rfl⟩ := List.mem_map.mp (hperm.mem_iff.mp ht)
    exact ⟨e, he, (hstart e (hkept e he)).mp hle hzero⟩
  · intro h
    by_cases hzero : k.1 = 0
    · obtain ⟨e, he, hlate⟩ := h hzero
      exact ⟨e.tsNs, hperm.mem_iff.mpr (List.mem_map_of_mem he), (hstart e (hkept e he)).mpr fun _ => hlate⟩
    · exact ⟨e.tsNs, hperm.mem_iff.mpr (List.mem_map_of_mem he),
        (hstart e (hkept e he)).mpr fun h => absurd h hzero⟩

theorem cell_inRange (history : History) {events : List MqttEvent} {k : Int × String} (hne : cellEvents L S events k ≠ []) :
    InRange S (S.finalize L history ((cellEvents L S events k).foldl (count L S) (.new k.2 k.1))) ↔
      (k.1 = 0 → EarlyFit L S seconds events k.2) := by
  obtain ⟨-, hwid, hdevice⟩ := count_fold L S (cellEvents L S events k) (.new k.2 k.1)
  rw [inRange_iff L hseconds, hwid, hdevice]
  change _ ≤ seconds ∧ (behaviorProfileFor S.inventory k.2 = .sparse → ∀ last ∈ _, (S.grid.windowBounds k.1).1 ≤ last ∧
    last < (S.grid.windowBounds k.1).1 + S.grid.windowNs) ↔ _
  have hkeys : ((cellEvents L S events k).foldl (count L S) (.new k.2 k.1)).secondBins.keys.length =
      ((cellEvents L S events k).map (secondOf S k.1)).toFinset.card := by
    rw [← bins_fold L S k, List.toFinset_card_of_nodup (AList.keys_nodup _)]
  rw [hkeys, seconds_fit L hseconds]
  have hlast := last_fit L hne
  obtain ⟨wid, d⟩ := k
  by_cases hzero : wid = 0
  · subst hzero
    simp only [forall_const] at hlast ⊢
    exact and_congr Iff.rfl ⟨fun h _ hsparse => hlast.mp (h hsparse), fun h hsparse => hlast.mpr (h hne hsparse)⟩
  · exact iff_of_true ⟨fun h => absurd h hzero, fun _ => hlast.mpr fun h => absurd h hzero⟩ fun h => absurd h hzero

omit hseconds in
/-- Nothing has to find room when a device has no events in window 0. -/
theorem earlyFit_none {events : List MqttEvent} {d : String} (h : firstWindow L S events d = []) : EarlyFit L S seconds events d := by
  refine ⟨?_, fun hne => absurd h hne⟩
  simp [earlySeconds, h]

/-- With windows of whole seconds, the window-relative features of all rows of a run are in
range if and only if the events moved into window 0 find room there. -/
theorem ranges_iff (lateness : Nat) {events : List MqttEvent} {rows : List BehaviorRow} {m : BehaviorWindowManager}
    (hok : collect (BehaviorWindowManager.addEvent L) (.new S lateness) events = .ok (rows, m)) :
    (∀ row ∈ rows ++ (m.finish L).1, InRange S row) ↔ ∀ d, EarlyFit L S seconds events d := by
  obtain ⟨cells, -, hcells, hrel⟩ := (managed L S lateness).rows_of_run (run_new L S lateness) hok
  have hcell : ∀ k a, (k, a) ∈ cells ↔ cellEvents L S events k ≠ [] ∧ a = (cellEvents L S events k).foldl (count L S) (.new k.2 k.1) := by
    intro k a
    rw [hcells, bookOf_apply, feedsAt_cell]
    cases cellEvents L S events k with
    | nil => simp [filled]
    | cons e es => simp [filled, newAccumulator, eq_comm]
  constructor
  · intro h d
    by_cases hne : cellEvents L S events (0, d) = []
    · exact earlyFit_none L hne
    · obtain ⟨row, hrow, ⟨history, hfinal⟩, -⟩ := exists_related hrel.flip ((hcell (0, d) _).mpr ⟨hne, rfl⟩)
      have hin := h row hrow
      rw [hfinal] at hin
      exact (cell_inRange L hseconds history hne).mp hin rfl
  · intro h row hrow
    obtain ⟨⟨k, a⟩, hmem, ⟨history, hfinal⟩, -⟩ := exists_related hrel hrow
    obtain ⟨hne, ha⟩ := (hcell k a).mp hmem
    rw [hfinal]
    change InRange S (S.finalize L history a)
    rw [ha]
    exact (cell_inRange L hseconds history hne).mpr fun _ => h k.2

end Rows

/-! ## Events just before the start -/

def tolerantSetup : BehaviorSetup := ⟨ExactlyOnce.fiveSeconds, "s", [ExactlyOnce.rfidSensor], 10000000⟩

/-- A tag that was read some nanoseconds after the start, or before it. -/
def tagAt (tsNs : Int) : MqttEvent := { ExactlyOnce.rfidText "tag" with tsNs := tsNs }

theorem collected (m : BehaviorWindowManager) (events : List MqttEvent)
    (h : (collect (BehaviorWindowManager.addEvent ExactlyOnce.plainLibrary) m events).toOption.isSome) :
    ∃ rows m', collect (BehaviorWindowManager.addEvent ExactlyOnce.plainLibrary) m events = .ok (rows, m') := by
  cases hrun : collect (BehaviorWindowManager.addEvent ExactlyOnce.plainLibrary) m events with
  | error err =>
    rw [hrun] at h
    cases h
  | ok r => exact ⟨r.1, r.2, rfl⟩

theorem firstWindow_other {events : List MqttEvent} {d : String}
    (h : ∀ e ∈ events, deviceOf ExactlyOnce.plainLibrary tolerantSetup e = some "rfid-sensor") (hd : d ≠ "rfid-sensor") :
    firstWindow ExactlyOnce.plainLibrary tolerantSetup events d = [] := by
  refine List.filter_eq_nil_iff.mpr fun e he hmatch => hd ?_
  obtain ⟨-, hdevice⟩ := of_decide_eq_true hmatch
  rw [h e he] at hdevice
  exact (Option.some.inj hdevice).symm

/-- A tag five milliseconds before the start and one a second after it. -/
theorem ranges_early_and_late : ∃ rows m,
    collect (BehaviorWindowManager.addEvent ExactlyOnce.plainLibrary) (.new tolerantSetup 60000000000)
      [tagAt (-5000000), tagAt 1000000000] = .ok (rows, m) ∧
    ∀ row ∈ rows ++ (m.finish ExactlyOnce.plainLibrary).1, InRange tolerantSetup row := by
  obtain ⟨rows, m, hok⟩ := collected (.new tolerantSetup 60000000000) [tagAt (-5000000), tagAt 1000000000]
    (by decide +kernel)
  refine ⟨rows, m, hok, (ranges_iff ExactlyOnce.plainLibrary (show tolerantSetup.grid.windowSeconds = (5 : Nat) from rfl) 60000000000 hok).mpr fun d => ?_⟩
  by_cases hd : d = "rfid-sensor"
  · subst hd
    exact ⟨by decide +kernel, fun _ _ => ⟨tagAt 1000000000, by decide +kernel, by decide +kernel⟩⟩
  · refine earlyFit_none _ (firstWindow_other ?_ hd)
    decide

/-- The offsets of the last events in the rows of a run. -/
def lastOffsets (run : Except ExtractionError (List BehaviorRow × BehaviorWindowManager)) : Option (List (Option (Option ℚ))) :=
  run.toOption.map fun r => (r.1 ++ (r.2.finish ExactlyOnce.plainLibrary).1).map fun row =>
    row.sparse.map SparseProfileFeatures.lastEventOffsetSeconds

/-- A single tag five milliseconds before the start: its row has a negative offset. -/
theorem early_tag_offset : ∃ rows m,
    collect (BehaviorWindowManager.addEvent ExactlyOnce.plainLibrary) (.new tolerantSetup 60000000000)
      [tagAt (-5000000)] = .ok (rows, m) ∧
    ∃ row ∈ rows ++ (m.finish ExactlyOnce.plainLibrary).1, ∃ sparse ∈ row.sparse,
      sparse.lastEventOffsetSeconds = some (-1 / 200) ∧ ¬ InRange tolerantSetup row := by
  obtain ⟨rows, m, hok⟩ := collected (.new tolerantSetup 60000000000) [tagAt (-5000000)] (by decide)
  have heval : lastOffsets (collect (BehaviorWindowManager.addEvent ExactlyOnce.plainLibrary) (.new tolerantSetup 60000000000)
      [tagAt (-5000000)]) = some [some (some (-1 / 200))] := by decide +kernel
  rw [hok, lastOffsets] at heval
  have hrows := Option.some.inj heval
  obtain ⟨row, rest, hall, hoffset, -⟩ := List.map_eq_cons_iff.mp hrows
  obtain ⟨sparse, hsparse, hvalue⟩ := Option.map_eq_some_iff.mp hoffset
  refine ⟨rows, m, hok, row, ?_, sparse, hsparse, hvalue, fun h => ?_⟩
  · change row ∈ rows ++ _ at *
    rw [hall]
    exact List.mem_cons_self
  · have hrange := (h.2 sparse hsparse (-1 / 200) hvalue).1
    norm_num at hrange

end BehaviorRanges
