import AgenticSoc.Collecting
import AgenticSoc.EventWindows
import AgenticSoc.LiveTables
import Mathlib.Data.List.Induction

/-!
# Tables behind a watermark

A table of open cells with the tracker that says which windows are due. The windows that
are closed end at a floor of the tracker, and no open cell lies before the first window
that the tracker has yet to close.
-/
namespace WatermarkedTables

open EventWindows LiveTables WatermarkTracker

variable {κ α : Type} [LinearOrder κ]

/-- What is finalized now: the last window of the range, the cells taken out and what is left. -/
structure Due (κ α : Type) where
  upTo : Option Int
  cells : List ((Int × κ) × α)
  tracker : WatermarkTracker
  live : Table κ α

def finalizeDue (tracker : WatermarkTracker) (live : Table κ α) : Due κ α :=
  match tracker.dueWindows with
  | (none, tracker) => ⟨none, [], tracker, live⟩
  | (some (lo, hi), tracker) => ⟨some hi, taken live (dueKeys live lo hi), tracker, without live (dueKeys live lo hi)⟩

/-! ## What the tracker has seen -/

/-- The highest of the windows. -/
def highest (wids : List Int) : Option Int := wids.foldl (fun m w => some (larger m w)) none

theorem highest_append (wids : List Int) (w : Int) : highest (wids ++ [w]) = some (larger (highest wids) w) := by
  simp [highest]

theorem le_highest {wids : List Int} : ∀ w ∈ wids, ∃ m ∈ highest wids, w ≤ m := by
  induction wids using List.reverseRecOn with
  | nil => simp
  | append_singleton wids v ih =>
    intro w hw
    refine ⟨_, by rw [highest_append]; rfl, ?_⟩
    rcases List.mem_append.mp hw with hw | hw
    · obtain ⟨m, hm, hle⟩ := ih w hw
      rw [Option.mem_def] at hm
      simp only [hm, larger]
      split <;> omega
    · rw [List.mem_singleton.mp hw]
      unfold larger
      split
      · exact le_rfl
      · split <;> omega

theorem highest_mem {wids : List Int} {m : Int} (h : highest wids = some m) : m ∈ wids := by
  induction wids using List.reverseRecOn generalizing m with
  | nil => simp [highest] at h
  | append_singleton wids v ih =>
    rw [highest_append, Option.some.injEq] at h
    rw [List.mem_append, List.mem_singleton]
    cases hm : highest wids with
    | none =>
      rw [hm] at h
      exact .inr h.symm
    | some m' =>
      rw [hm] at h
      simp only [larger] at h
      split at h
      · exact .inr h.symm
      · exact .inl (h ▸ ih hm)

/-- The tracker has seen events of the windows, in this order. -/
structure Follows (t : WatermarkTracker) (wids : List Int) : Prop where
  highest : t.maxWidSeen = highest wids
  floor : t.finalizedFloor = (WatermarkedTables.highest wids).map (· - t.latenessWindows)

theorem follows_new (windowNs : Int) (lateness : Nat) : Follows (.new windowNs lateness) [] := ⟨rfl, rfl⟩

theorem Follows.observe {t : WatermarkTracker} {wids : List Int} (h : Follows t wids) (tsNs wid : Int) :
    Follows (t.observe tsNs wid).2 (wids ++ [wid]) where
  highest := by rw [highest_append, ← h.highest]; rfl
  floor := by
    rw [highest_append, ← h.highest, Option.map_some]
    simp only [WatermarkTracker.observe, h.floor, h.highest]
    cases WatermarkedTables.highest wids with
    | none => simp [larger]
    | some m =>
      simp only [Option.map_some, larger]
      split_ifs <;> simp_all

@[simp] theorem observe_lateness (t : WatermarkTracker) (tsNs wid : Int) :
    (t.observe tsNs wid).2.latenessWindows = t.latenessWindows := rfl

@[simp] theorem observe_windowNs (t : WatermarkTracker) (tsNs wid : Int) : (t.observe tsNs wid).2.windowNs = t.windowNs := rfl

/-- Either nothing is due, or all windows before the floor that are not closed yet. -/
theorem dueWindows_cases (t : WatermarkTracker) :
    (t.dueWindows = (none, t) ∧ ∀ f ∈ t.finalizedFloor, ∀ m ∈ t.minWidSeen, f ≤ m) ∨
      ∃ f ∈ t.finalizedFloor, ∃ m ∈ t.minWidSeen, m < f ∧
        t.dueWindows = (some (m, f - 1), { t with minWidSeen := some f }) := by
  unfold dueWindows
  split
  · rename_i f m hf hm
    rw [hf, hm]
    simp only [Option.mem_def, Option.some.injEq]
    split
    · exact .inl ⟨rfl, by rintro _ rfl _ rfl; omega⟩
    · exact .inr ⟨f, rfl, m, rfl, by omega, rfl⟩
  · rename_i hnone
    exact .inl ⟨rfl, fun f hf m hm => absurd hm (hnone f m hf)⟩

/-- Finding out what is due changes the first open window only. -/
theorem dueWindows_tracker (t : WatermarkTracker) : ∃ m, t.dueWindows.2 = { t with minWidSeen := m } := by
  rcases dueWindows_cases t with ⟨h, -⟩ | ⟨f, -, m, -, -, h⟩
  · exact ⟨t.minWidSeen, by rw [h]⟩
  · exact ⟨some f, by rw [h]⟩

theorem finalizeDue_tracker (t : WatermarkTracker) (live : Table κ α) :
    (finalizeDue t live).tracker = t.dueWindows.2 := by
  unfold finalizeDue
  split <;> simp_all

@[simp] theorem finalizeDue_lateness (t : WatermarkTracker) (live : Table κ α) :
    (finalizeDue t live).tracker.latenessWindows = t.latenessWindows := by
  obtain ⟨m, hm⟩ := dueWindows_tracker t
  rw [finalizeDue_tracker, hm]

theorem Follows.due {t : WatermarkTracker} {wids : List Int} (h : Follows t wids) (live : Table κ α) :
    Follows (finalizeDue t live).tracker wids := by
  rw [finalizeDue_tracker]
  obtain ⟨m, hm⟩ := dueWindows_tracker t
  rw [hm]
  exact ⟨h.highest, h.floor⟩

/-- An event is refused when an event before it was assigned to a window beyond the lateness bound. -/
theorem Follows.acceptable {t : WatermarkTracker} {wids : List Int} (h : Follows t wids) (wid : Int) (what : String) :
    t.ensureAcceptable wid what = .ok () ↔ ∀ w ∈ wids, w - t.latenessWindows ≤ wid := by
  unfold ensureAcceptable
  rw [h.floor]
  cases hm : WatermarkedTables.highest wids with
  | none =>
    simp only [Option.map_none, true_iff]
    intro w hw
    obtain ⟨m, hm', -⟩ := le_highest w hw
    rw [hm] at hm'
    cases hm'
  | some m =>
    simp only [Option.map_some]
    constructor
    · intro hok w hw
      obtain ⟨m', hm', hle⟩ := le_highest w hw
      rw [hm, Option.mem_def, Option.some.injEq] at hm'
      subst hm'
      split at hok
      · cases hok
      · omega
    · intro hall
      have := hall m (highest_mem hm)
      rw [if_neg (by omega)]

/-- A refusal is the error of the watermark. -/
theorem ensureAcceptable_error {t : WatermarkTracker} {wid : Int} {what : String} {e : ExtractionError}
    (h : t.ensureAcceptable wid what = .error e) : e.isOlder = true := by
  unfold ensureAcceptable at h
  split at h
  · cases h
  · split at h
    · cases h
      rfl
    · cases h

/-! ## The table and the tracker together -/

structure Kept (tracker : WatermarkTracker) (live : Table κ α) (book : Book κ α) (closed : Option Int)
    (emitted : List ((Int × κ) × α)) : Prop extends Ledger book closed live emitted where
  floored : ∀ d ∈ closed, ∃ f ∈ tracker.finalizedFloor, d ≤ f
  bounded : ∀ k a, Open closed k.1 → book k = some a → ∃ m ∈ tracker.minWidSeen, m ≤ k.1

section Steps

variable {tracker : WatermarkTracker} {live : Table κ α} {book : Book κ α} {closed : Option Int}
  {emitted : List ((Int × κ) × α)}

theorem kept_new (windowNs : Int) (lateness : Nat) :
    Kept (.new windowNs lateness) (∅ : Table κ α) (fun _ => none) none [] where
  toLedger := ledger_empty
  floored := fun _ h => by cases h
  bounded := fun _ _ _ h => by cases h

/-- The window of an acceptable event is open. -/
theorem Kept.acceptable (h : Kept tracker live book closed emitted) {wid : Int} {what : String}
    (hok : tracker.ensureAcceptable wid what = .ok ()) : Open closed wid := by
  intro d hd
  obtain ⟨f, hf, hle⟩ := h.floored d hd
  unfold ensureAcceptable at hok
  rw [Option.mem_def.mp hf] at hok
  simp only [] at hok
  split at hok
  · cases hok
  · omega

theorem observe_min (t : WatermarkTracker) (tsNs wid : Int) : ∃ m ∈ (t.observe tsNs wid).2.minWidSeen,
    m ≤ wid ∧ ∀ m' ∈ t.minWidSeen, m ≤ m' := by
  refine ⟨_, rfl, ?_⟩
  unfold smaller
  split <;> rename_i hm
  · simp [hm]
  · rw [hm]
    simp only [Option.mem_def, Option.some.injEq, forall_eq']
    split <;> omega

theorem observe_floor (t : WatermarkTracker) (tsNs wid : Int) : ∀ f ∈ t.finalizedFloor,
    ∃ f' ∈ (t.observe tsNs wid).2.finalizedFloor, f ≤ f' := by
  intro f hf
  rw [Option.mem_def] at hf
  simp only [WatermarkTracker.observe, hf]
  split
  · rename_i hlt
    exact ⟨_, rfl, by simp at hlt; omega⟩
  · exact ⟨f, rfl, le_rfl⟩

theorem Kept.observe (h : Kept tracker live book closed emitted) (tsNs wid : Int) :
    Kept (tracker.observe tsNs wid).2 live book closed emitted where
  toLedger := h.toLedger
  floored := by
    intro d hd
    obtain ⟨f, hf, hle⟩ := h.floored d hd
    obtain ⟨f', hf', hle'⟩ := observe_floor tracker tsNs wid f hf
    exact ⟨f', hf', hle.trans hle'⟩
  bounded := by
    intro k a hopen ha
    obtain ⟨m, hm, hle⟩ := h.bounded k a hopen ha
    obtain ⟨m', hm', -, hle'⟩ := observe_min tracker tsNs wid
    exact ⟨m', hm', (hle' m hm).trans hle⟩

theorem Kept.put (h : Kept tracker live book closed emitted) {k : Int × κ} (hopen : Open closed k.1)
    (hmin : ∃ m ∈ tracker.minWidSeen, m ≤ k.1) (a : α) :
    Kept tracker (live.insert k a) (book.put k a) closed emitted where
  toLedger := h.toLedger.put hopen a
  floored := h.floored
  bounded := by
    intro k' a' hopen' ha'
    by_cases he : k' = k
    · subst he
      exact hmin
    · rw [Book.put, Function.update_of_ne he] at ha'
      exact h.bounded k' a' hopen' ha'

/-- A table that is fed an event for cells of its window keeps up with the book. -/
theorem Kept.feed {β : Type} {start : Int × κ → β → α} {step : α → β → α} {wid : Int} (hopen : Open closed wid)
    (hmin : ∃ m ∈ tracker.minWidSeen, m ≤ wid) {feeds : List ((Int × κ) × β)} (hwid : ∀ f ∈ feeds, f.1.1 = wid)
    (h : Kept tracker live book closed emitted) :
    Kept tracker (feeds.foldl (feedTable start step) live) (feeds.foldl (Book.feed start step) book) closed emitted := by
  induction feeds generalizing live book with
  | nil => exact h
  | cons f feeds ih =>
    have hf : f.1.1 = wid := hwid f List.mem_cons_self
    rw [List.foldl_cons, List.foldl_cons, h.toLedger.feed (hf ▸ hopen)]
    exact ih (fun g hg => hwid g (List.mem_cons_of_mem f hg)) (h.put (hf ▸ hopen) (hf ▸ hmin) _)

/-- The windows closed after what is due has been finalized. -/
def closedAfter (tracker : WatermarkTracker) (closed : Option Int) : Option Int :=
  match tracker.dueWindows.1 with
  | none => closed
  | some (_, hi) => some (hi + 1)

theorem Kept.due (h : Kept tracker live book closed emitted) :
    Kept (finalizeDue tracker live).tracker (finalizeDue tracker live).live book (closedAfter tracker closed)
      (emitted ++ (finalizeDue tracker live).cells) := by
  unfold finalizeDue closedAfter
  rcases dueWindows_cases tracker with ⟨hdue, -⟩ | ⟨floor, hfloor, lo, hlo, -, hdue⟩
  · rw [hdue]
    simpa only [List.append_nil] using h
  · rw [hdue]
    have hhi : ∀ d ∈ closed, d ≤ floor - 1 + 1 := by
      intro d hd
      obtain ⟨f, hf, hle⟩ := h.floored d hd
      rw [Option.mem_unique hf hfloor] at hle
      omega
    have hmin : ∀ k a, live.lookup k = some a → lo ≤ k.1 := by
      intro k a hk
      rw [h.live] at hk
      split at hk
      · rename_i hopen
        obtain ⟨m, hm, hle⟩ := h.bounded k a hopen hk
        rwa [Option.mem_unique hm hlo] at hle
      · cases hk
    refine ⟨h.toLedger.close hmin hhi, fun d hd => ⟨floor, hfloor, ?_⟩, fun k a hopen _ => ⟨floor, rfl, ?_⟩⟩
    · rw [Option.mem_def, Option.some.injEq] at hd
      omega
    · rw [open_some] at hopen
      omega

end Steps

/-! ## Counting events -/

section Related

variable {A B C : Type} {R : A → B → Prop} {l : List A} {l' : List B}

theorem exists_related (h : List.Forall₂ R l l') {a : A} (ha : a ∈ l) : ∃ b ∈ l', R a b := by
  induction h with
  | nil => cases ha
  | @cons a' b l l' hab _ ih =>
    rcases List.mem_cons.mp ha with rfl | ha
    · exact ⟨b, List.mem_cons_self, hab⟩
    · obtain ⟨b', hb', hrel⟩ := ih ha
      exact ⟨b', List.mem_cons_of_mem b hb', hrel⟩

theorem map_related {f : A → C} {g : B → C} (hfg : ∀ a b, R a b → f a = g b) (h : List.Forall₂ R l l') :
    l.map f = l'.map g := by
  induction h with
  | nil => rfl
  | cons hab _ ih => rw [List.map_cons, List.map_cons, hfg _ _ hab, ih]

end Related

section Counting

variable {E Row β : Type} {start : Int × κ → β → α} {step : α → β → α} {window : E → Int} {feeds : E → List (κ × β)}
  {observed : E → Bool} {R : Row → (Int × κ) × α → Prop} {done : List E} {rows : List Row} {tracker : WatermarkTracker}
  {live : Table κ α}

/-- The tracker has seen the observed events, the table and the cells that the rows were made of hold what was fed. -/
structure Counting (start : Int × κ → β → α) (step : α → β → α) (window : E → Int) (feeds : E → List (κ × β))
    (observed : E → Bool) (R : Row → (Int × κ) × α → Prop) (done : List E) (rows : List Row) (tracker : WatermarkTracker)
    (live : Table κ α) : Prop where
  follows : Follows tracker ((done.filter observed).map window)
  kept : ∃ closed emitted, Kept tracker live (bookOf start step (feedsOf window feeds done)) closed emitted ∧
    List.Forall₂ R rows emitted

theorem counting_new (windowNs : Int) (lateness : Nat) :
    Counting start step window feeds observed R [] [] (.new windowNs lateness) ∅ :=
  ⟨follows_new windowNs lateness, none, [], kept_new windowNs lateness, .nil⟩

/-- An event that is fed nowhere leaves the book as it is. -/
theorem bookOf_unfed {e : E} (h : feeds e = []) :
    bookOf start step (feedsOf window feeds (done ++ [e])) = bookOf start step (feedsOf window feeds done) := by
  rw [feedsOf_append]
  simp [feedsOf, h]

theorem Counting.skip (hc : Counting start step window feeds observed R done rows tracker live) {e : E}
    (hfeeds : feeds e = []) (hobserved : observed e = false) :
    Counting start step window feeds observed R (done ++ [e]) (rows ++ []) tracker live := by
  refine ⟨?_, ?_⟩
  · rw [List.filter_append, List.filter_singleton, hobserved]
    simpa using hc.follows
  · rw [bookOf_unfed hfeeds, List.append_nil]
    exact hc.kept

theorem Counting.observe (hc : Counting start step window feeds observed R done rows tracker live) {e : E}
    (hfeeds : feeds e = []) (hobserved : observed e = true) (tsNs : Int) :
    Counting start step window feeds observed R (done ++ [e]) (rows ++ []) (tracker.observe tsNs (window e)).2 live := by
  refine ⟨?_, ?_⟩
  · rw [List.filter_append, List.filter_singleton, hobserved]
    simpa using hc.follows.observe tsNs (window e)
  · obtain ⟨closed, emitted, hk, hr⟩ := hc.kept
    rw [bookOf_unfed hfeeds, List.append_nil]
    exact ⟨closed, emitted, hk.observe tsNs (window e), hr⟩

/-- An event is fed to its cells, and what is due after it becomes rows. -/
theorem Counting.accept (hc : Counting start step window feeds observed R done rows tracker live) {e : E} {what : String}
    (hobserved : observed e = true) (hok : tracker.ensureAcceptable (window e) what = .ok ()) (tsNs : Int)
    {due : Due κ α} (hdue : due = finalizeDue (tracker.observe tsNs (window e)).2
      (((feeds e).map fun f => ((window e, f.1), f.2)).foldl (feedTable start step) live))
    {new : List Row}
    (hnew : (∀ c ∈ due.cells, bookOf start step (feedsOf window feeds (done ++ [e])) c.1 = some c.2) →
      List.Forall₂ R new due.cells) :
    Counting start step window feeds observed R (done ++ [e]) (rows ++ new) due.tracker due.live := by
  subst hdue
  refine ⟨Follows.due ?_ _, ?_⟩
  · rw [List.filter_append, List.filter_singleton, hobserved]
    simpa using hc.follows.observe tsNs (window e)
  · obtain ⟨closed, emitted, hk, hr⟩ := hc.kept
    have hmin : ∃ m ∈ (tracker.observe tsNs (window e)).2.minWidSeen, m ≤ window e := by
      obtain ⟨m, hm, hle, -⟩ := observe_min tracker tsNs (window e)
      exact ⟨m, hm, hle⟩
    have hbook : bookOf start step (feedsOf window feeds (done ++ [e])) =
        ((feeds e).map fun f => ((window e, f.1), f.2)).foldl (Book.feed start step)
          (bookOf start step (feedsOf window feeds done)) := by
      rw [feedsOf_append, bookOf_append]
      simp [feedsOf]
    have hwid : ∀ f ∈ (feeds e).map fun f => ((window e, f.1), f.2), f.1.1 = window e := by
      intro f hf
      obtain ⟨g, -, rfl⟩ := List.mem_map.mp hf
      rfl
    have hfed : Kept _ _ (((feeds e).map fun f => ((window e, f.1), f.2)).foldl (Book.feed start step)
        (bookOf start step (feedsOf window feeds done))) closed emitted :=
      (hk.observe tsNs (window e)).feed (hk.acceptable hok) hmin hwid
    rw [← hbook] at hfed
    refine ⟨_, _, hfed.due, List.rel_append hr (hnew fun c hc => ?_)⟩
    exact ((hfed.due.settled c.1 c.2).mp (List.mem_append_right _ hc)).2

/-- The table holds what the book says of the window of an event that is still accepted. -/
theorem Counting.lookup (hc : Counting start step window feeds observed R done rows tracker live) {wid : Int}
    {what : String} (hok : tracker.ensureAcceptable wid what = .ok ()) (part : κ) :
    live.lookup (wid, part) = bookOf start step (feedsOf window feeds done) (wid, part) := by
  obtain ⟨closed, emitted, hk, -⟩ := hc.kept
  rw [hk.live, if_pos (hk.acceptable hok)]

/-- No row has been made for the window of an event that is still accepted. -/
theorem Counting.not_late (hc : Counting start step window feeds observed R done rows tracker live) {key : Row → Int × κ}
    (hkey : ∀ row cell, R row cell → key row = cell.1) {wid : Int} {what : String}
    (hok : tracker.ensureAcceptable wid what = .ok ()) : ∀ row ∈ rows, (key row).1 ≠ wid := by
  intro row hrow he
  obtain ⟨closed, emitted, hk, hr⟩ := hc.kept
  obtain ⟨cell, hcell, hrel⟩ := exists_related hr hrow
  refine hk.not_taken hcell ?_
  rw [← hkey row cell hrel, he]
  exact hk.acceptable hok

/-- The rows made so far and those of all that is still open count every event once. -/
theorem Counting.finish (hparts : ∀ e, ((feeds e).map Prod.fst).Nodup)
    (hc : Counting start step window feeds observed R done rows tracker live) {rest : List Row}
    (hrest : (∀ c ∈ taken live (allKeys live), bookOf start step (feedsOf window feeds done) c.1 = some c.2) →
      List.Forall₂ R rest (taken live (allKeys live))) {key : Row → Int × κ} {count : Row → Nat} {size : α → Nat}
    (hkey : ∀ row cell, R row cell → key row = cell.1) (hcount : ∀ row cell, R row cell → count row = size cell.2)
    (hsize : ∀ k f fs, size ((f :: fs).foldl step (start k f)) = fs.length + 1) :
    CountedOnce window (fun e => (feeds e).map Prod.fst) key count done (rows ++ rest) := by
  obtain ⟨closed, emitted, hk, hr⟩ := hc.kept
  obtain ⟨hnodup, hcells⟩ := hk.toLedger.finish
  have hall := List.rel_append hr (hrest fun c hc => (hcells c.1 c.2).mp (List.mem_append_right _ hc))
  refine countedOnce start step hparts hnodup hcells ?_ ?_
  · exact map_related hkey hall
  · intro row hrow
    obtain ⟨cell, hcell, hrel⟩ := exists_related hall hrow
    obtain ⟨f, fs, hfs, hacc⟩ := bookOf_some start step ((hcells cell.1 cell.2).mp hcell)
    rw [hkey row cell hrel, hcount row cell hrel, hfs, hacc, hsize, List.length_cons]

end Counting

/-! ## Runs of a manager -/

section Runs

variable {M E Row α β : Type} {start : Int × κ → β → α} {step : α → β → α} {window : E → Int} {feeds : E → List (κ × β)}
  {observed : E → Bool} {R : Row → (Int × κ) × α → Prop} {key : Row → Int × κ} {count : Row → Nat}

/-- Either an event is refused as older than the watermark, or every event is counted once and
no row comes out for the window of an event that is yet to be accepted. -/
def AcceptedOnce (add : M → E → Except ExtractionError (List Row × M)) (finish : M → List Row × M) (m : M)
    (window : E → Int) (parts : E → List κ) (observed : E → Bool) (key : Row → Int × κ) (count : Row → Nat)
    (events : List E) : Prop :=
  (∃ err, Collecting.collect add m events = .error err ∧ err.isOlder = true) ∨
    ∃ rows m', Collecting.collect add m events = .ok (rows, m') ∧
      CountedOnce window parts key count events (rows ++ (finish m').1) ∧
      ∀ before e after emitted m₁, events = before ++ e :: after → observed e = true →
        Collecting.collect add m before = .ok (emitted, m₁) → ∀ row ∈ emitted, (key row).1 ≠ window e

/-- A manager with its tracker and its table. -/
structure Managed (add : M → E → Except ExtractionError (List Row × M)) (finish : M → List Row × M)
    (tracker : M → WatermarkTracker) (live : M → Table κ α) (start : Int × κ → β → α) (step : α → β → α) (window : E → Int)
    (feeds : E → List (κ × β)) (observed : E → Bool) (R : Row → (Int × κ) × α → Prop)
    (I : List E → List Row → M → Prop) : Prop where
  preserved : ∀ done rows m e new m', I done rows m → add m e = .ok (new, m') → I (done ++ [e]) (rows ++ new) m'
  counting : ∀ done rows m, I done rows m → Counting start step window feeds observed R done rows (tracker m) (live m)
  acceptable : ∀ done rows m e r, I done rows m → add m e = .ok r → observed e = true →
    ∃ what, (tracker m).ensureAcceptable (window e) what = .ok ()
  finished : ∀ done rows m, I done rows m →
    (∀ c ∈ taken (live m) (allKeys (live m)), bookOf start step (feedsOf window feeds done) c.1 = some c.2) →
    List.Forall₂ R (finish m).1 (taken (live m) (allKeys (live m)))

/-- Unless something else than the watermark stops the run, every event is counted once. -/
theorem Managed.acceptedOnce {add : M → E → Except ExtractionError (List Row × M)} {finish : M → List Row × M}
    {tracker : M → WatermarkTracker} {live : M → Table κ α} {I : List E → List Row → M → Prop}
    (h : Managed add finish tracker live start step window feeds observed R I)
    (hparts : ∀ e, ((feeds e).map Prod.fst).Nodup)
    (size : α → Nat) (hkey : ∀ row cell, R row cell → key row = cell.1) (hcount : ∀ row cell, R row cell → count row = size cell.2)
    (hsize : ∀ k f fs, size ((f :: fs).foldl step (start k f)) = fs.length + 1) {m : M} (hm : I [] [] m) (events : List E) :
    AcceptedOnce add finish m window (fun e => (feeds e).map Prod.fst) observed key count events ↔
      ∀ err, Collecting.collect add m events = .error err → err.isOlder = true := by
  constructor
  · rintro (⟨err, herr, holder⟩ | ⟨rows, m', hok, -⟩) err' herr'
    · rw [herr] at herr'
      cases herr'
      exact holder
    · rw [hok] at herr'
      cases herr'
  · intro holder
    cases hrun : Collecting.collect add m events with
    | error err => exact .inl ⟨err, hrun, holder err hrun⟩
    | ok r =>
      obtain ⟨rows, m'⟩ := r
      have hend := Collecting.collect_induct h.preserved hrun hm
      refine .inr ⟨rows, m', hrun, ?_, ?_⟩
      · exact (h.counting _ _ _ hend).finish hparts (h.finished _ _ _ hend) hkey hcount hsize
      · rintro before e after emitted m₁ rfl hobserved hbefore
        obtain ⟨first, m₂, rest, hfirst, hrest, -⟩ := Collecting.collect_append_ok.mp hrun
        rw [hbefore] at hfirst
        cases hfirst
        obtain ⟨new, m₃, more, hadd, -, -⟩ := Collecting.collect_cons_ok.mp hrest
        have hmid := Collecting.collect_induct h.preserved hbefore hm
        obtain ⟨what, hok⟩ := h.acceptable _ _ _ _ _ hmid hadd hobserved
        exact (h.counting _ _ _ hmid).not_late hkey hok

/-- The rows of a whole run are made of all the cells of the book, each once. -/
theorem Managed.rows_of_run {add : M → E → Except ExtractionError (List Row × M)} {finish : M → List Row × M}
    {tracker : M → WatermarkTracker} {live : M → Table κ α} {I : List E → List Row → M → Prop}
    (h : Managed add finish tracker live start step window feeds observed R I) {m m' : M} (hm : I [] [] m) {events : List E}
    {rows : List Row} (hok : Collecting.collect add m events = .ok (rows, m')) :
    ∃ cells : List ((Int × κ) × α), (cells.map Prod.fst).Nodup ∧
      (∀ k a, (k, a) ∈ cells ↔ bookOf start step (feedsOf window feeds events) k = some a) ∧
      List.Forall₂ R (rows ++ (finish m').1) cells := by
  have hend := Collecting.collect_induct h.preserved hok hm
  obtain ⟨closed, emitted, hk, hr⟩ := (h.counting _ _ _ hend).kept
  obtain ⟨hnodup, hcells⟩ := hk.toLedger.finish
  have hrest := h.finished _ _ _ hend fun c hc => (hcells c.1 c.2).mp (List.mem_append_right _ hc)
  exact ⟨_, hnodup, hcells, List.rel_append hr hrest⟩

end Runs

end WatermarkedTables
