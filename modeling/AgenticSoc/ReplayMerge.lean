import AgenticSoc.JsonText
import AgenticSoc.ReplayRunner
import Mathlib.Data.List.Dedup

/-!
# The windows of a replay

A run goes through the windows that occur in its streams, each once and in order, with the
rows of each window in the order in which they came.
-/
namespace ReplayMerge

open Procedure Sorting StableOrder WindowSorting ReplayRunner

variable {Row E σ ρ : Type} (codec : RowCodec Row)

/-- The window ids that occur in the rows, in ascending order. -/
def windowIds (rows : List Row) : List Int := sortBy id (rows.map codec.windowId).dedup

/-- The windows of three streams. -/
def windowsOf (network behavior communication : List Row) : List (Window Row) :=
  (windowIds codec (network ++ behavior ++ communication)).map fun w =>
    ⟨w, under codec.windowId w network, under codec.windowId w behavior, under codec.windowId w communication⟩

/-- What a run does with one window. -/
def inWindow (body : Body Row E σ) (w : Window Row) : Proc E σ Unit :=
  update (body.beginWindow w.windowId) >>= fun _ => body.process w

variable {codec}

theorem mem_windowIds {rows : List Row} {w : Int} : w ∈ windowIds codec rows ↔ ∃ row ∈ rows, codec.windowId row = w := by
  rw [windowIds, mem_sortBy, List.mem_dedup, List.mem_map]

theorem windowIds_strict (rows : List Row) : (windowIds codec rows).Pairwise (· < ·) := by
  have hnodup : ((rows.map codec.windowId).dedup.map id).Nodup := by
    rw [List.map_id]
    exact List.nodup_dedup _
  exact sortBy_strict hnodup

/-- Strictly ascending lists with the same members are equal. -/
theorem strict_ext {l l' : List Int} (h : l.Pairwise (· < ·)) (h' : l'.Pairwise (· < ·)) (hmem : ∀ w, w ∈ l ↔ w ∈ l') :
    l = l' := by
  have hp : l.Perm l' := (List.perm_ext_iff_of_nodup (h.imp ne_of_lt) (h'.imp ne_of_lt)).mpr hmem
  have hkeys : ∀ {l : List Int}, l.Pairwise (· < ·) → l.Pairwise fun a b => id a < id b := fun h => h
  exact eq_of_perm_of_strict hp (hkeys h) (hkeys h')

theorem windowIds_congr {rows rows' : List Row} (h : ∀ row, row ∈ rows ↔ row ∈ rows') :
    windowIds codec rows = windowIds codec rows' := by
  refine strict_ext (windowIds_strict _) (windowIds_strict _) fun w => ?_
  simp only [mem_windowIds, h]

theorem windowsOf_sorted (network behavior communication : List Row) :
    windowsOf codec (sortBy codec.windowId network) (sortBy codec.windowId behavior)
      (sortBy codec.windowId communication) = windowsOf codec network behavior communication := by
  have hids : windowIds codec (sortBy codec.windowId network ++ sortBy codec.windowId behavior ++
      sortBy codec.windowId communication) = windowIds codec (network ++ behavior ++ communication) :=
    windowIds_congr fun row => by simp only [List.mem_append, mem_sortBy]
  rw [windowsOf, hids]
  refine List.map_congr_left fun w _ => ?_
  rw [under_sortBy, under_sortBy, under_sortBy]

/-! ## The least window -/

/-- In an ascending list the rows of the least window come first. -/
theorem front_eq {l : List Row} {target : Int} (hl : Ascending codec.windowId l) (hleast : ∀ row ∈ l, target ≤ codec.windowId row) :
    l.takeWhile (codec.windowId · = target) = under codec.windowId target l ∧
      l.dropWhile (codec.windowId · = target) = l.filter (codec.windowId · ≠ target) := by
  induction l with
  | nil => exact ⟨rfl, rfl⟩
  | cons row l ih =>
    obtain ⟨htake, hdrop⟩ := ih hl.of_cons fun r hr => hleast r (List.mem_cons_of_mem _ hr)
    by_cases hrow : codec.windowId row = target
    · rw [under_cons, if_pos hrow, List.takeWhile_cons, List.dropWhile_cons, if_pos (decide_eq_true hrow),
        if_pos (decide_eq_true hrow), htake, hdrop, List.filter_cons, if_neg (by simpa using hrow)]
      exact ⟨rfl, rfl⟩
    · have hlater : ∀ r ∈ row :: l, codec.windowId r ≠ target := by
        intro r hr heq
        have hfirst := head_least hl hr
        have hbound := hleast row (List.mem_cons_self ..)
        exact hrow (le_antisymm (heq ▸ hfirst) hbound)
      have hnone : under codec.windowId target (row :: l) = [] :=
        List.filter_eq_nil_iff.mpr fun r hr => by simpa using hlater r hr
      have hall : (row :: l).filter (codec.windowId · ≠ target) = row :: l :=
        List.filter_eq_self.mpr fun r hr => by simpa using hlater r hr
      rw [hnone, hall, List.takeWhile_cons, List.dropWhile_cons, if_neg (by simpa using hrow), if_neg (by simpa using hrow)]
      exact ⟨rfl, rfl⟩

theorem under_later {l : List Row} {target w : Int} (h : w ≠ target) :
    under codec.windowId w (l.filter (codec.windowId · ≠ target)) = under codec.windowId w l := by
  rw [under, List.filter_filter, under]
  refine List.filter_congr fun row _ => ?_
  by_cases hrow : codec.windowId row = w
  · simp [hrow, h]
  · simp [hrow]

/-- The least window, then the windows of the other rows. -/
theorem windowsOf_least {network behavior communication : List Row} {target : Int}
    (hmem : target ∈ windowIds codec (network ++ behavior ++ communication))
    (hleast : ∀ row ∈ network ++ behavior ++ communication, target ≤ codec.windowId row) :
    windowsOf codec network behavior communication =
      ⟨target, under codec.windowId target network, under codec.windowId target behavior,
        under codec.windowId target communication⟩ ::
      windowsOf codec (network.filter (codec.windowId · ≠ target)) (behavior.filter (codec.windowId · ≠ target))
        (communication.filter (codec.windowId · ≠ target)) := by
  have hlater : ∀ w ∈ windowIds codec (network.filter (codec.windowId · ≠ target) ++
      behavior.filter (codec.windowId · ≠ target) ++ communication.filter (codec.windowId · ≠ target)), w ≠ target := by
    intro w hw
    obtain ⟨row, hrow, rfl⟩ := (mem_windowIds).mp hw
    rw [← List.filter_append, ← List.filter_append] at hrow
    simpa using (List.mem_filter.mp hrow).2
  have hids : windowIds codec (network ++ behavior ++ communication) = target ::
      windowIds codec (network.filter (codec.windowId · ≠ target) ++ behavior.filter (codec.windowId · ≠ target) ++
        communication.filter (codec.windowId · ≠ target)) := by
    refine strict_ext (windowIds_strict _) (List.pairwise_cons.mpr ⟨fun w hw => ?_, windowIds_strict _⟩) fun w => ?_
    · have hne := hlater w hw
      obtain ⟨row, hrow, rfl⟩ := (mem_windowIds).mp hw
      rw [← List.filter_append, ← List.filter_append] at hrow
      exact lt_of_le_of_ne (hleast row (List.mem_filter.mp hrow).1) hne.symm
    · rw [List.mem_cons, ← List.filter_append, ← List.filter_append]
      constructor
      · intro hw
        by_cases heq : w = target
        · exact .inl heq
        · obtain ⟨row, hrow, rfl⟩ := (mem_windowIds).mp hw
          exact .inr ((mem_windowIds).mpr ⟨row, List.mem_filter.mpr ⟨hrow, by simpa using heq⟩, rfl⟩)
      · rintro (rfl | hw)
        · exact hmem
        · obtain ⟨row, hrow, rfl⟩ := (mem_windowIds).mp hw
          exact (mem_windowIds).mpr ⟨row, (List.mem_filter.mp hrow).1, rfl⟩
  rw [windowsOf, hids, List.map_cons, windowsOf]
  congr 1
  refine List.map_congr_left fun w hw => ?_
  have hne := hlater w hw
  rw [under_later hne, under_later hne, under_later hne]

/-! ## The loop -/

/-- How the loop ends, given how its windows end. -/
def EndsAs (r : Runner Row) (windows : List (Window Row)) (ended : Except (RunError E) (Runner Row)) : Except E Unit → Prop
  | .error e => ended = .error (.processing e)
  | .ok () => ∃ r', ended = .ok r' ∧ r'.sorters = r.sorters ∧ r'.windowIdsSeen = r.windowIdsSeen + windows.length ∧
      r'.minProcessedWid = r.minProcessedWid.or ((windows.map Window.windowId).head?) ∧
      r'.lastProcessedWid = ((windows.map Window.windowId).getLast?).or r.lastProcessedWid

/-- Three heads with ascending rows, all of windows after the last one. -/
structure Loaded (codec : RowCodec Row) (r : Runner Row) (network behavior communication : Peeker Row) : Prop where
  heads : r.heads = ⟨some network, some behavior, some communication⟩
  ascending : ∀ p ∈ [network, behavior, communication], Ascending codec.windowId p.pending
  later : ∀ last, r.lastProcessedWid = some last →
    ∀ row ∈ network.pending ++ behavior.pending ++ communication.pending, last < codec.windowId row

/-- The least head is the least window of ascending streams. -/
theorem least_window {l m n : List Row} {target : Int} (hl : Ascending codec.windowId l) (hm : Ascending codec.windowId m)
    (hn : Ascending codec.windowId n) (h : (([l, m, n].filterMap List.head?).map codec.windowId).min? = some target) :
    target ∈ windowIds codec (l ++ m ++ n) ∧ ∀ row ∈ l ++ m ++ n, target ≤ codec.windowId row := by
  have hbound : ∀ stream ∈ [l, m, n], Ascending codec.windowId stream → ∀ row ∈ stream, target ≤ codec.windowId row := by
    intro stream hstream hascending row hrow
    cases stream with
    | nil => exact absurd hrow List.not_mem_nil
    | cons first rest =>
      have hfirst : codec.windowId first ∈ ([l, m, n].filterMap List.head?).map codec.windowId :=
        List.mem_map_of_mem (List.mem_filterMap.mpr ⟨_, hstream, rfl⟩)
      exact ((List.min?_eq_some_iff.mp h).2 _ hfirst).trans (head_least hascending hrow)
  constructor
  · obtain ⟨row, hrow, hwid⟩ := List.mem_map.mp (List.min?_mem h)
    obtain ⟨stream, hstream, hhead⟩ := List.mem_filterMap.mp hrow
    have hmem := List.mem_of_mem_head? hhead
    refine (mem_windowIds).mpr ⟨row, ?_, hwid⟩
    simp only [List.mem_cons, List.not_mem_nil, or_false] at hstream
    simp only [List.mem_append]
    rcases hstream with rfl | rfl | rfl
    · exact .inl (.inl hmem)
    · exact .inl (.inr hmem)
    · exact .inr hmem
  · intro row hrow
    rcases List.mem_append.mp hrow with hrow | hrow
    · rcases List.mem_append.mp hrow with hrow | hrow
      · exact hbound l (by simp) hl row hrow
      · exact hbound m (by simp) hm row hrow
    · exact hbound n (by simp) hn row hrow

/-- A turn of the loop: nothing is left, or the least window is run. -/
theorem iteration_spec (body : Body Row E σ) {r : Runner Row} {network behavior communication : Peeker Row}
    (h : Loaded codec r network behavior communication) (s : σ) :
    (network.pending ++ behavior.pending ++ communication.pending = [] ∧
      ∃ heads, iteration codec body r s = .finished { r with heads := heads } s) ∨
    ∃ target network' behavior' communication',
      windowsOf codec network.pending behavior.pending communication.pending =
        ⟨target, under codec.windowId target network.pending, under codec.windowId target behavior.pending,
          under codec.windowId target communication.pending⟩ ::
        windowsOf codec network'.pending behavior'.pending communication'.pending ∧
      Loaded codec { r with
        heads := ⟨some network', some behavior', some communication'⟩
        windowIdsSeen := r.windowIdsSeen + 1
        minProcessedWid := some (r.minProcessedWid.getD target)
        lastProcessedWid := some target } network' behavior' communication' ∧
      iteration codec body r s =
        match inWindow body ⟨target, under codec.windowId target network.pending, under codec.windowId target behavior.pending,
            under codec.windowId target communication.pending⟩ s with
        | (.error e, s) => .raised (.processing e) s
        | (.ok (), s) => .again { r with
            heads := ⟨some network', some behavior', some communication'⟩
            windowIdsSeen := r.windowIdsSeen + 1
            minProcessedWid := some (r.minProcessedWid.getD target)
            lastProcessedWid := some target } s := by
  have hwaiting := waiting_heads r.heads
  have hvalues : r.heads.values = [network, behavior, communication] := by
    rw [h.heads]
    rfl
  have hfirst : r.heads.values.filterMap (fun p => p.pending.head?) =
      [network.pending, behavior.pending, communication.pending].filterMap List.head? := by
    rw [hvalues]
    rfl
  rw [hfirst] at hwaiting
  cases hmin : (([network.pending, behavior.pending, communication.pending].filterMap List.head?).map codec.windowId).min? with
  | none =>
    left
    have hnone := List.map_eq_nil_iff.mp (List.min?_eq_none_iff.mp hmin)
    have hempty : ∀ stream ∈ [network.pending, behavior.pending, communication.pending], stream = [] :=
      fun stream hstream => List.head?_eq_none_iff.mp (List.filterMap_eq_nil_iff.mp hnone stream hstream)
    have hnetwork := hempty network.pending (by simp)
    have hbehavior := hempty behavior.pending (by simp)
    have hcommunication := hempty communication.pending (by simp)
    refine ⟨?_, r.heads.map fun p => p.hasNext.2, ?_⟩
    · rw [hnetwork, hbehavior, hcommunication]
      rfl
    · unfold iteration
      simp only [hwaiting, hmin]
  | some target =>
    right
    obtain ⟨hmem, hleast⟩ := least_window (h.ascending network (by simp)) (h.ascending behavior (by simp))
      (h.ascending communication (by simp)) hmin
    have hnot : (r.lastProcessedWid.any (target < ·)) = false := by
      cases hlast : r.lastProcessedWid with
      | none => rfl
      | some last =>
        obtain ⟨row, hrow, hwid⟩ := (mem_windowIds).mp hmem
        have hlater := h.later last hlast row hrow
        rw [hwid] at hlater
        simpa using le_of_lt hlater
    have hdrain : ∀ p ∈ [network, behavior, communication],
        (drain codec p.hasNext.2 target).1 = under codec.windowId target p.pending ∧
          (drain codec p.hasNext.2 target).2.pending = p.pending.filter (codec.windowId · ≠ target) := by
      intro p hp
      have hbound : ∀ row ∈ p.pending, target ≤ codec.windowId row := by
        intro row hrow
        refine hleast row ?_
        simp only [List.mem_cons, List.not_mem_nil, or_false] at hp
        simp only [List.mem_append]
        rcases hp with rfl | rfl | rfl
        · exact .inl (.inl hrow)
        · exact .inl (.inr hrow)
        · exact .inr hrow
      have hspec : (drain codec p.hasNext.2 target).1 = _ ∧ _ = _ := drain_spec p.hasNext.2 target
      rw [hasNext_pending] at hspec
      obtain ⟨htake, hdrop⟩ := front_eq (h.ascending p hp) hbound
      exact ⟨hspec.1.trans htake, hspec.2.trans hdrop⟩
    have hn := hdrain network (by simp)
    have hb := hdrain behavior (by simp)
    have hc := hdrain communication (by simp)
    refine ⟨target, (drain codec network.hasNext.2 target).2, (drain codec behavior.hasNext.2 target).2,
      (drain codec communication.hasNext.2 target).2, ?_, ?_, ?_⟩
    · rw [windowsOf_least hmem hleast, hn.2, hb.2, hc.2]
    · refine ⟨rfl, ?_, ?_⟩
      · intro p hp
        simp only [List.mem_cons, List.not_mem_nil, or_false] at hp
        rcases hp with rfl | rfl | rfl
        · rw [hn.2]
          exact (h.ascending network (by simp)).filter _
        · rw [hb.2]
          exact (h.ascending behavior (by simp)).filter _
        · rw [hc.2]
          exact (h.ascending communication (by simp)).filter _
      · intro last hlast row hrow
        rw [hn.2, hb.2, hc.2, ← List.filter_append, ← List.filter_append, List.mem_filter] at hrow
        have hne : codec.windowId row ≠ target := by simpa using hrow.2
        rw [← Option.some.inj hlast]
        exact lt_of_le_of_ne (hleast row hrow.1) hne.symm
    · unfold iteration
      simp only [hwaiting, hmin, hnot, Bool.false_eq_true, if_false]
      simp only [h.heads, Streams.map, Option.map_some, hn.1, hb.1, hc.1]
      rfl

theorem loop_again {body : Body Row E σ} {r r' : Runner Row} {s s' : σ} (h : iteration codec body r s = .again r' s') :
    loop codec body r s = loop codec body r' s' := by
  rw [loop]
  split <;> rename_i h' <;> rw [h] at h' <;> cases h'
  rfl

theorem loop_finished {body : Body Row E σ} {r r' : Runner Row} {s s' : σ} (h : iteration codec body r s = .finished r' s') :
    loop codec body r s = (.ok r', s') := by
  rw [loop]
  split <;> rename_i h' <;> rw [h] at h' <;> cases h'
  rfl

theorem loop_raised {body : Body Row E σ} {r : Runner Row} {s s' : σ} {e : RunError E}
    (h : iteration codec body r s = .raised e s') : loop codec body r s = (.error e, s') := by
  rw [loop]
  split <;> rename_i h' <;> rw [h] at h' <;> cases h'
  rfl

theorem windowsOf_nil {network behavior communication : List Row} (h : network ++ behavior ++ communication = []) :
    windowsOf codec network behavior communication = [] := by
  rw [windowsOf, h]
  rfl

/-- The loop runs the windows of the rows that are left, in order. -/
theorem loop_windows (body : Body Row E σ) {windows : List (Window Row)} {r : Runner Row}
    {network behavior communication : Peeker Row} (h : Loaded codec r network behavior communication)
    (hwindows : windowsOf codec network.pending behavior.pending communication.pending = windows) (s : σ) :
    EndsAs r windows (loop codec body r s).1 (each (inWindow body) windows s).1 ∧
      (loop codec body r s).2 = (each (inWindow body) windows s).2 := by
  induction windows generalizing r network behavior communication s with
  | nil =>
    rcases iteration_spec body h s with ⟨-, heads, hfinished⟩ | ⟨target, n, b, c, hcons, -, -⟩
    · rw [loop_finished hfinished]
      exact ⟨⟨_, rfl, rfl, rfl, (Option.or_none ..).symm, rfl⟩, rfl⟩
    · rw [hwindows] at hcons
      cases hcons
  | cons window windows ih =>
    rcases iteration_spec body h s with ⟨hempty, -⟩ | ⟨target, n, b, c, hcons, hloaded, hturn⟩
    · rw [windowsOf_nil hempty] at hwindows
      cases hwindows
    · rw [hwindows] at hcons
      obtain ⟨hwindow, hrest⟩ := List.cons.inj hcons
      rw [← hwindow] at hturn
      rcases hrun : inWindow body window s with ⟨e | ⟨⟩, s'⟩
      · rw [hrun] at hturn
        rw [loop_raised hturn]
        have heach : each (inWindow body) (window :: windows) s = (.error e, s') := run_bind_error hrun
        rw [heach]
        exact ⟨rfl, rfl⟩
      · rw [hrun] at hturn
        rw [loop_again hturn]
        have heach : each (inWindow body) (window :: windows) s = each (inWindow body) windows s' := run_bind hrun
        obtain ⟨hends, hstate⟩ := ih hloaded hrest.symm s'
        rw [heach]
        refine ⟨?_, hstate⟩
        cases hresult : (each (inWindow body) windows s').1 with
        | error e =>
          rw [hresult] at hends
          exact hends
        | ok u =>
          rw [hresult] at hends
          obtain ⟨r', hended, hsorters, hseen, hmin, hlast⟩ := hends
          have htarget : window.windowId = target := by rw [hwindow]
          refine ⟨r', hended, hsorters, ?_, ?_, ?_⟩
          · rw [hseen, List.length_cons]
            exact Nat.add_right_comm _ _ _
          · rw [hmin, List.map_cons, List.head?_cons, htarget]
            cases r.minProcessedWid <;> rfl
          · rw [hlast, List.map_cons, htarget]
            cases windows with
            | nil => rfl
            | cons w ws =>
              rw [List.map_cons, List.getLast?_cons_cons]
              cases hgot : (w.windowId :: ws.map Window.windowId).getLast? with
              | none => exact absurd (List.getLast?_eq_none_iff.mp hgot) (List.cons_ne_nil _ _)
              | some last => rfl

/-! ## Runs over whole streams -/

/-- The rows under ascending windows, one window after the other, are the sorted rows. -/
theorem flatMap_under {ids : List Int} {rows : List Row} (hstrict : ids.Pairwise (· < ·))
    (hall : ∀ row ∈ rows, codec.windowId row ∈ ids) :
    ids.flatMap (under codec.windowId · rows) = sortBy codec.windowId rows := by
  refine eq_sortBy ?_ fun k => ?_
  · clear hall
    induction ids with
    | nil => exact List.Pairwise.nil
    | cons w ids ih =>
      obtain ⟨hfirst, hrest⟩ := List.pairwise_cons.mp hstrict
      refine List.pairwise_append.mpr ⟨List.pairwise_of_forall_mem_list fun a ha b hb => ?_, ih hrest, fun a ha b hb => ?_⟩
      · rw [((mem_under).mp ha).2, ((mem_under).mp hb).2]
      · obtain ⟨w', hw', hb⟩ := List.mem_flatMap.mp hb
        rw [((mem_under).mp ha).2, ((mem_under).mp hb).2]
        exact le_of_lt (hfirst w' hw')
  · have hunder : ∀ ids : List Int, ids.Pairwise (· < ·) → under codec.windowId k (ids.flatMap (under codec.windowId · rows)) =
        if k ∈ ids then under codec.windowId k rows else [] := by
      intro ids hids
      induction ids with
      | nil => rfl
      | cons w ids ih =>
        obtain ⟨hfirst, hrest⟩ := List.pairwise_cons.mp hids
        rw [List.flatMap_cons, under_append, ih hrest]
        by_cases hk : k = w
        · have hnot : k ∉ ids := fun h => lt_irrefl w (hk ▸ hfirst k h)
          rw [if_neg hnot, if_pos (hk ▸ List.mem_cons_self ..), List.append_nil, ← hk]
          simp [under]
        · have hnone : under codec.windowId k (under codec.windowId w rows) = [] := by
            refine List.filter_eq_nil_iff.mpr fun row hrow => ?_
            rw [decide_eq_true_eq, ((mem_under).mp hrow).2]
            exact Ne.symm hk
          rw [hnone, List.nil_append]
          simp only [List.mem_cons, hk, false_or]
    rw [hunder ids hstrict]
    by_cases hk : k ∈ ids
    · rw [if_pos hk]
    · rw [if_neg hk]
      refine (List.filter_eq_nil_iff.mpr fun row hrow => ?_).symm
      rw [decide_eq_true_eq]
      intro heq
      exact hk (heq ▸ hall row hrow)

/-- How a run over the windows ends, given how the windows end. -/
def summed (codec : RowCodec Row) (sorters : Streams WindowSorter) (report : σ → ρ) (windows : List (Window Row)) :
    Except E Unit × σ → Except (RunError E) (Summary ρ) × σ
  | (.error e, s) => (.error (.processing e), s)
  | (.ok (), s) =>
    (.ok ⟨windows.length, ((windows.map Window.windowId).head?, (windows.map Window.windowId).getLast?),
      sorters.map fun x => (x.iterSorted codec).2, report s⟩, s)

theorem separate_loaded (chunkRows : ChunkRows) (mergeFanIn : Int) (network behavior communication : List Row) :
    Loaded codec (Runner.separate codec chunkRows mergeFanIn network behavior communication)
      (.fresh (sortBy codec.windowId network)) (.fresh (sortBy codec.windowId behavior))
      (.fresh (sortBy codec.windowId communication)) := by
  refine ⟨?_, ?_, fun last h => by cases h⟩
  · simp only [Runner.separate, Runner.of, Streams.map, Option.map_some, iterSorted_rows]
  · intro p hp
    simp only [List.mem_cons, List.not_mem_nil, or_false] at hp
    rcases hp with rfl | rfl | rfl <;> exact sortBy_pairwise _ _

theorem run_separate (chunkRows : ChunkRows) (mergeFanIn : Int) (network behavior communication : List Row)
    (body : Body Row E σ) (report : σ → ρ) (s : σ) :
    run codec body report (.separate codec chunkRows mergeFanIn network behavior communication) s =
      summed codec (Runner.separate codec chunkRows mergeFanIn network behavior communication).sorters report
        (windowsOf codec network behavior communication)
        (each (inWindow body) (windowsOf codec network behavior communication) s) := by
  obtain ⟨hends, hstate⟩ := loop_windows body
    (separate_loaded chunkRows mergeFanIn network behavior communication)
    (windowsOf_sorted network behavior communication) s
  rcases hrun : each (inWindow body) (windowsOf codec network behavior communication) s with ⟨e | ⟨⟩, s'⟩
  · rw [hrun] at hends hstate
    have hloop : loop codec body (.separate codec chunkRows mergeFanIn network behavior communication) s =
        (.error (.processing e), s') := Prod.ext hends hstate
    rw [run, hloop]
    rfl
  · rw [hrun] at hends hstate
    obtain ⟨r', hended, hsorters, hseen, hmin, hlast⟩ := hends
    have hloop : loop codec body (.separate codec chunkRows mergeFanIn network behavior communication) s = (.ok r', s') :=
      Prod.ext hended hstate
    rw [run, hloop]
    simp only [hseen, hmin, hlast, hsorters]
    change (Except.ok (Summary.mk (0 + _) ((none : Option Int).or _, Option.or _ none) _ _), s') = _
    rw [Nat.zero_add, Option.none_or, Option.or_none]
    rfl

/-- A run goes through the windows that occur, each once, in ascending order, with each row
of the streams once, in its window and in its order; it ends as the windows do. -/
theorem windows_merged (chunkRows : ChunkRows) (mergeFanIn : Int) (network behavior communication : List Row)
    (body : Body Row E σ) (report : σ → ρ) (s : σ) :
    ((windowsOf codec network behavior communication).map Window.windowId).Pairwise (· < ·) ∧
    (∀ w, w ∈ (windowsOf codec network behavior communication).map Window.windowId ↔
      ∃ row ∈ network ++ behavior ++ communication, codec.windowId row = w) ∧
    ((windowsOf codec network behavior communication).flatMap Window.network = sortBy codec.windowId network ∧
      (windowsOf codec network behavior communication).flatMap Window.behavior = sortBy codec.windowId behavior ∧
      (windowsOf codec network behavior communication).flatMap Window.communication =
        sortBy codec.windowId communication) ∧
    (∀ w ∈ windowsOf codec network behavior communication,
      w.network = network.filter (codec.windowId · = w.windowId) ∧
      w.behavior = behavior.filter (codec.windowId · = w.windowId) ∧
      w.communication = communication.filter (codec.windowId · = w.windowId)) ∧
    run codec body report (.separate codec chunkRows mergeFanIn network behavior communication) s =
      summed codec (Runner.separate codec chunkRows mergeFanIn network behavior communication).sorters report
        (windowsOf codec network behavior communication)
        (each (inWindow body) (windowsOf codec network behavior communication) s) := by
  have hids : (windowsOf codec network behavior communication).map Window.windowId =
      windowIds codec (network ++ behavior ++ communication) := by
    rw [windowsOf, List.map_map]
    exact List.map_id _
  have hstrict : (windowIds codec (network ++ behavior ++ communication)).Pairwise (· < ·) := windowIds_strict _
  have hin : ∀ rows : List Row, (∀ row ∈ rows, row ∈ network ++ behavior ++ communication) → ∀ row ∈ rows,
      codec.windowId row ∈ windowIds codec (network ++ behavior ++ communication) :=
    fun rows hrows row hrow => (mem_windowIds).mpr ⟨row, hrows row hrow, rfl⟩
  refine ⟨by rw [hids]; exact hstrict, fun w => by rw [hids]; exact mem_windowIds, ⟨?_, ?_, ?_⟩, ?_,
    run_separate chunkRows mergeFanIn network behavior communication body report s⟩
  · rw [windowsOf, List.flatMap_map]
    exact flatMap_under hstrict (hin network fun row h => by simp [h])
  · rw [windowsOf, List.flatMap_map]
    exact flatMap_under hstrict (hin behavior fun row h => by simp [h])
  · rw [windowsOf, List.flatMap_map]
    exact flatMap_under hstrict (hin communication fun row h => by simp [h])
  · intro w hw
    obtain ⟨id, -, rfl⟩ := List.mem_map.mp hw
    exact ⟨rfl, rfl, rfl⟩

/-! ## Fused records -/

/-- The rows of the records with a tag. -/
def tagged (tag : FusedTag) (records : List (FusedTag × Row)) : List Row :=
  records.filterMap fun r => if r.1 = tag then some r.2 else none

/-- The sorter of a tag, there if the tag has rows. -/
def sorterOf (codec : RowCodec Row) (chunkRows : ChunkRows) (mergeFanIn : Int) (rows : List Row) : Option WindowSorter :=
  if rows.isEmpty then none else some (feed codec chunkRows mergeFanIn rows)

theorem sorterOf_append (chunkRows : ChunkRows) (mergeFanIn : Int) (rows : List Row) (row : Row) :
    sorterOf codec chunkRows mergeFanIn (rows ++ [row]) =
      some (((sorterOf codec chunkRows mergeFanIn rows).getD (.new chunkRows mergeFanIn)).add codec row) := by
  have hne : (rows ++ [row]).isEmpty = false := by simp
  rw [sorterOf, hne, if_neg Bool.false_ne_true, feed, List.foldl_append]
  cases rows <;> rfl

theorem routed (chunkRows : ChunkRows) (mergeFanIn : Int) (records : List (FusedTag × Row)) :
    records.foldl (route codec chunkRows mergeFanIn) ⟨none, none, none⟩ =
      ⟨sorterOf codec chunkRows mergeFanIn (tagged .network records), none,
        sorterOf codec chunkRows mergeFanIn (tagged .communication records)⟩ := by
  have hrun : ∀ done : List (FusedTag × Row),
      records.foldl (route codec chunkRows mergeFanIn) ⟨sorterOf codec chunkRows mergeFanIn (tagged .network done), none,
        sorterOf codec chunkRows mergeFanIn (tagged .communication done)⟩ =
      ⟨sorterOf codec chunkRows mergeFanIn (tagged .network (done ++ records)), none,
        sorterOf codec chunkRows mergeFanIn (tagged .communication (done ++ records))⟩ := by
    induction records with
    | nil =>
      intro done
      rw [List.append_nil]
      rfl
    | cons record records ih =>
      intro done
      obtain ⟨tag, row⟩ := record
      have hsplit : done ++ (tag, row) :: records = (done ++ [(tag, row)]) ++ records := by
        rw [List.append_assoc]
        rfl
      rw [hsplit, ← ih (done ++ [(tag, row)]), List.foldl_cons]
      congr 1
      have hkept : ∀ t, t ≠ tag → tagged t (done ++ [(tag, row)]) = tagged t done := by
        intro t ht
        simp [tagged, ht.symm]
      have hgrown : tagged tag (done ++ [(tag, row)]) = tagged tag done ++ [row] := by simp [tagged]
      cases tag with
      | network =>
        rw [hgrown, sorterOf_append, hkept .communication (by decide)]
        rfl
      | communication =>
        rw [hgrown, sorterOf_append, hkept .network (by decide)]
        rfl
  exact hrun []

theorem fused_runner (chunkRows : ChunkRows) (mergeFanIn : Int) (records : List (FusedTag × Row)) (behavior : List Row) :
    Runner.fused codec chunkRows mergeFanIn records behavior =
      .of codec ⟨sorterOf codec chunkRows mergeFanIn (tagged .network records),
        some (feed codec chunkRows mergeFanIn behavior),
        sorterOf codec chunkRows mergeFanIn (tagged .communication records)⟩ := by
  rw [Runner.fused, routed]

/-- Without one of the streams a run fails at its first window. -/
theorem missing_raises (body : Body Row E σ) {sorters : Streams WindowSorter} (s : σ)
    (hmissing : sorters.network = none ∨ sorters.communication = none)
    (hrows : (sorters.values.filterMap fun x => (x.iterSorted codec).1.head?) ≠ []) :
    ∃ tag s', loop codec body (.of codec sorters) s = (.error (.keyError tag), s') := by
  have hwaiting : ((Runner.of codec sorters).heads.map fun h => h.hasNext.2).values.filterMap Peeker.next =
      sorters.values.filterMap fun x => (x.iterSorted codec).1.head? := by
    rw [waiting_heads]
    obtain ⟨_ | network, _ | behavior, _ | communication⟩ := sorters <;> rfl
  have hsome : ((sorters.values.filterMap fun x => (x.iterSorted codec).1.head?).map codec.windowId).min? ≠ none :=
    fun h => hrows (List.map_eq_nil_iff.mp (List.min?_eq_none_iff.mp h))
  obtain ⟨target, htarget⟩ := Option.ne_none_iff_exists'.mp hsome
  have hturn : ∃ tag s', iteration codec body (.of codec sorters) s = .raised (.keyError tag) s' := by
    unfold iteration
    simp only [hwaiting, htarget]
    obtain ⟨_ | network, _ | behavior, _ | communication⟩ := sorters
    all_goals first | exact ⟨_, _, rfl⟩ | exact absurd hmissing (by simp)
  obtain ⟨tag, s', hturn⟩ := hturn
  exact ⟨tag, s', loop_raised hturn⟩

/-- With no row at all a run ends at once. -/
theorem empty_ends (body : Body Row E σ) {sorters : Streams WindowSorter} (s : σ)
    (hrows : (sorters.values.filterMap fun x => (x.iterSorted codec).1.head?) = []) :
    ∃ r', loop codec body (.of codec sorters) s = (.ok r', s) ∧ r'.sorters = sorters := by
  have hwaiting : ((Runner.of codec sorters).heads.map fun h => h.hasNext.2).values.filterMap Peeker.next = [] := by
    rw [waiting_heads, ← hrows]
    obtain ⟨_ | network, _ | behavior, _ | communication⟩ := sorters <;> rfl
  refine ⟨{ Runner.of codec sorters with heads := (Runner.of codec sorters).heads.map fun h => h.hasNext.2 },
    loop_finished ?_, rfl⟩
  unfold iteration
  simp only [hwaiting]
  rfl

theorem sorterOf_none (codec : RowCodec Row) (chunkRows : ChunkRows) (mergeFanIn : Int) {rows : List Row} :
    sorterOf codec chunkRows mergeFanIn rows = none ↔ rows = [] := by
  unfold sorterOf
  cases rows <;> simp

/-- A tag without rows has no sorter, and so no head and no diagnostics. -/
theorem fused_differs (chunkRows : ChunkRows) (mergeFanIn : Int) (records : List (FusedTag × Row)) (behavior : List Row)
    (body : Body Row E σ) (report : σ → ρ) (s : σ)
    (hmissing : tagged .network records = [] ∨ tagged .communication records = []) :
    run codec body report (.fused codec chunkRows mergeFanIn records behavior) s ≠
      run codec body report
        (.separate codec chunkRows mergeFanIn (tagged .network records) behavior (tagged .communication records)) s := by
  rw [fused_runner, run_separate]
  rw [← sorterOf_none codec chunkRows mergeFanIn, ← sorterOf_none codec chunkRows mergeFanIn] at hmissing
  intro hsame
  rcases hrun : each (inWindow body) (windowsOf codec (tagged .network records) behavior (tagged .communication records)) s
    with ⟨e | ⟨⟩, s'⟩
  all_goals
    rw [hrun] at hsame
    by_cases hrows : ((⟨sorterOf codec chunkRows mergeFanIn (tagged .network records),
        some (feed codec chunkRows mergeFanIn behavior), sorterOf codec chunkRows mergeFanIn (tagged .communication records)⟩ :
        Streams WindowSorter).values.filterMap fun x => (x.iterSorted codec).1.head?) = []
  · obtain ⟨r', hloop, hsorters⟩ := empty_ends body s hrows
    rw [run, hloop] at hsame
    cases (Prod.ext_iff.mp hsame).1
  · obtain ⟨tag, s', hloop⟩ := missing_raises body s hmissing hrows
    rw [run, hloop] at hsame
    cases (Prod.ext_iff.mp hsame).1
  · obtain ⟨r', hloop, hsorters⟩ := empty_ends body s hrows
    rw [run, hloop] at hsame
    have hsummary := Except.ok.inj (Prod.ext_iff.mp hsame).1
    have hdiagnostics := congrArg Summary.orderingDiagnostics hsummary
    simp only [hsorters, Streams.map, Runner.separate, Runner.of, Streams.mk.injEq, Option.map_some] at hdiagnostics
    rcases hmissing with hnone | hnone
    · rw [hnone] at hdiagnostics
      cases hdiagnostics.1
    · rw [hnone] at hdiagnostics
      cases hdiagnostics.2.2
  · obtain ⟨tag, s', hloop⟩ := missing_raises body s hmissing hrows
    rw [run, hloop] at hsame
    cases (Prod.ext_iff.mp hsame).1

/-- Fused records run as their separate streams do exactly when both tags occur. -/
theorem fused_agrees (chunkRows : ChunkRows) (mergeFanIn : Int) (records : List (FusedTag × Row)) (behavior : List Row)
    (body : Body Row E σ) (report : σ → ρ) (s : σ) :
    run codec body report (.fused codec chunkRows mergeFanIn records behavior) s =
      run codec body report
        (.separate codec chunkRows mergeFanIn (tagged .network records) behavior (tagged .communication records)) s ↔
    tagged .network records ≠ [] ∧ tagged .communication records ≠ [] := by
  constructor
  · intro hsame
    by_contra hnot
    exact fused_differs chunkRows mergeFanIn records behavior body report s (by tauto) hsame
  · rintro ⟨hnetwork, hcommunication⟩
    have hgiven : ∀ rows : List Row, rows ≠ [] →
        sorterOf codec chunkRows mergeFanIn rows = some (feed codec chunkRows mergeFanIn rows) := by
      intro rows hne
      rw [sorterOf, if_neg (by simpa using hne)]
    rw [fused_runner, hgiven _ hnetwork, hgiven _ hcommunication]
    rfl

/-- Rows that are only their windows. -/
def bareRows : RowCodec Int where
  windowId := id
  dumps n := String.ofList (JsonText.intText n)
  loads s := JsonText.ofIntText s.toList
  loads_dumps n := by rw [String.toList_ofList, JsonText.ofIntText_intText]

/-- One network row and nothing else cannot be replayed from fused records. -/
theorem network_only :
    run bareRows (E := Empty) ⟨fun _ s => s, fun _ => pure ()⟩ id (.fused bareRows ⟨1, Nat.le_refl 1⟩ 8 [(.network, 0)] []) () ≠
      run bareRows ⟨fun _ s => s, fun _ => pure ()⟩ id (.separate bareRows ⟨1, Nat.le_refl 1⟩ 8 [0] [] []) () :=
  fused_differs _ _ _ _ _ _ _ (.inr rfl)

end ReplayMerge
