import AgenticSoc.NetworkCounts
import Mathlib.Tactic.Linarith

/-!
# How late an event may be

The lateness bound is given in nanoseconds and kept in whole windows. Rounding up is enough
for events that lie in their windows. An event shortly before the start of the scenario is
moved into window zero, and the floor of the watermark with it, so an event still before
that one may be refused although it is not too late.
-/
namespace LatenessGuarantee

open EventWindows EventWindows.WatermarkTracker WatermarkedTables

/-- An event as a window manager takes it; some managers finalize only after part of them. -/
structure Offered where
  tsNs : Int
  finalizes : Bool
  deriving DecidableEq, Repr

section Managers

variable (grid : WindowGrid) (clockToleranceNs : Int) (what : String)

def accept (t : WatermarkTracker) (e : Offered) : Except ExtractionError WatermarkTracker := do
  let (wid, _) := grid.assign e.tsNs clockToleranceNs
  t.ensureAcceptable wid what
  let t := (t.observe e.tsNs wid).2
  pure (if e.finalizes then t.dueWindows.2 else t)

/-- All the events in turn, up to the first that is refused. -/
def acceptAll : WatermarkTracker → List Offered → Except ExtractionError WatermarkTracker
  | t, [] => .ok t
  | t, e :: es => do
    let t ← accept grid clockToleranceNs what t e
    acceptAll t es

def windowOf (e : Offered) : Int := grid.windowOf clockToleranceNs e.tsNs

/-- A network manager takes its packets so. -/
theorem add_accept (L : FeatureStatistics.Library) (m : NetworkFeatures.NetworkWindowManager) (packet : NetworkFeatures.Packet) :
    (m.add L packet).map (fun r => r.2.tracker) =
      accept m.grid m.clockToleranceNs "network packet" m.tracker ⟨packet.tsNs, !(m.feeds L packet).isEmpty⟩ := by
  simp only [NetworkFeatures.NetworkWindowManager.add, NetworkFeatures.NetworkWindowManager.addPacket, accept]
  cases m.tracker.ensureAcceptable (m.grid.assign packet.tsNs m.clockToleranceNs).1 "network packet" with
  | error e => rfl
  | ok u =>
    simp only [bind, Except.bind]
    split
    · rename_i hfeeds
      rw [hfeeds]
      rfl
    · rename_i hfeeds
      have hsome : (m.feeds L packet).isEmpty = false := by simpa using hfeeds
      rw [hsome]
      exact congrArg Except.ok (finalizeDue_tracker _ _)

variable {grid clockToleranceNs what}

theorem accept_eq (t : WatermarkTracker) (e : Offered) : accept grid clockToleranceNs what t e =
    (t.ensureAcceptable (windowOf grid clockToleranceNs e) what).map fun _ =>
      if e.finalizes then (t.observe e.tsNs (windowOf grid clockToleranceNs e)).2.dueWindows.2
      else (t.observe e.tsNs (windowOf grid clockToleranceNs e)).2 := by
  simp only [accept, windowOf, WindowGrid.windowOf]
  cases t.ensureAcceptable (grid.assign e.tsNs clockToleranceNs).1 what <;> rfl

theorem accept_ok {t : WatermarkTracker} {wids : List Int} (h : Follows t wids) (e : Offered) :
    (∃ t', accept grid clockToleranceNs what t e = .ok t') ↔
      ∀ w ∈ wids, w - t.latenessWindows ≤ windowOf grid clockToleranceNs e := by
  rw [← h.acceptable _ what, accept_eq]
  cases t.ensureAcceptable (windowOf grid clockToleranceNs e) what with
  | error err => simp [Except.map]
  | ok u => simp [Except.map]

theorem accept_follows {t t' : WatermarkTracker} {wids : List Int} (h : Follows t wids) {e : Offered}
    (haccept : accept grid clockToleranceNs what t e = .ok t') :
    Follows t' (wids ++ [windowOf grid clockToleranceNs e]) ∧ t'.latenessWindows = t.latenessWindows := by
  rw [accept_eq] at haccept
  cases hok : t.ensureAcceptable (windowOf grid clockToleranceNs e) what with
  | error err =>
    rw [hok] at haccept
    cases haccept
  | ok u =>
    rw [hok] at haccept
    cases haccept
    have hobserved := h.observe e.tsNs (windowOf grid clockToleranceNs e)
    cases e.finalizes with
    | false => exact ⟨hobserved, rfl⟩
    | true =>
      obtain ⟨m, hm⟩ := dueWindows_tracker (t.observe e.tsNs (windowOf grid clockToleranceNs e)).2
      rw [if_pos rfl, hm]
      exact ⟨⟨hobserved.highest, hobserved.floor⟩, rfl⟩

/-- The events are accepted when no window lies further back than the bound from one before it. -/
theorem acceptAll_ok {t : WatermarkTracker} {wids : List Int} (h : Follows t wids) (es : List Offered) :
    (∃ t', acceptAll grid clockToleranceNs what t es = .ok t') ↔
      (∀ e ∈ es, ∀ w ∈ wids, w - t.latenessWindows ≤ windowOf grid clockToleranceNs e) ∧
        es.Pairwise fun b e => windowOf grid clockToleranceNs b - t.latenessWindows ≤ windowOf grid clockToleranceNs e := by
  induction es generalizing t wids with
  | nil => simp [acceptAll]
  | cons e es ih =>
    have hfirst : (∃ t', accept grid clockToleranceNs what t e = .ok t') ↔ _ := accept_ok h e
    rw [List.forall_mem_cons, List.pairwise_cons, ← hfirst, acceptAll]
    cases haccept : accept grid clockToleranceNs what t e with
    | error err =>
      constructor
      · rintro ⟨_, h⟩
        cases h
      · rintro ⟨⟨⟨_, h⟩, -⟩, -⟩
        cases h
    | ok t₁ =>
      obtain ⟨hfollows, hlateness⟩ := accept_follows h haccept
      change (∃ t', acceptAll grid clockToleranceNs what t₁ es = .ok t') ↔ _
      rw [ih hfollows, hlateness]
      simp only [List.forall_mem_append, List.forall_mem_singleton]
      constructor
      · rintro ⟨hall, hpairwise⟩
        exact ⟨⟨⟨t₁, rfl⟩, fun x hx => (hall x hx).1⟩, fun x hx => (hall x hx).2, hpairwise⟩
      · rintro ⟨⟨-, hall⟩, hlater, hpairwise⟩
        exact ⟨fun x hx => ⟨hall x hx, hlater x hx⟩, hpairwise⟩

theorem acceptAll_follows {t t' : WatermarkTracker} {wids : List Int} (h : Follows t wids) {es : List Offered}
    (hall : acceptAll grid clockToleranceNs what t es = .ok t') :
    Follows t' (wids ++ es.map (windowOf grid clockToleranceNs)) ∧ t'.latenessWindows = t.latenessWindows := by
  induction es generalizing t wids with
  | nil =>
    cases hall
    exact ⟨by simpa using h, rfl⟩
  | cons e es ih =>
    rw [acceptAll] at hall
    cases haccept : accept grid clockToleranceNs what t e with
    | error err =>
      rw [haccept] at hall
      cases hall
    | ok t₁ =>
      rw [haccept] at hall
      obtain ⟨hfollows, hlateness⟩ := accept_follows h haccept
      obtain ⟨hrest, hlateness'⟩ := ih hfollows hall
      refine ⟨?_, hlateness'.trans hlateness⟩
      rwa [List.append_assoc, List.singleton_append] at hrest

end Managers

/-! ## The bound in windows -/

section Bound

variable (grid : WindowGrid) (clockToleranceNs : Int) (lateness : Nat)

/-- So many nanoseconds in windows, rounded up. -/
def windowsFor (ns : Int) : Int := -(-ns / grid.windowNs)

/-- An event before the start that is moved into window zero. -/
def Snapped (tsNs : Int) : Prop := grid.scenarioStartNs - clockToleranceNs ≤ tsNs ∧ tsNs < grid.scenarioStartNs

instance (tsNs : Int) : Decidable (Snapped grid clockToleranceNs tsNs) := inferInstanceAs (Decidable (_ ∧ _))

theorem windowsFor_nonneg {ns : Int} (h : 0 ≤ ns) : 0 ≤ windowsFor grid ns := by
  have hle : -ns / grid.windowNs ≤ 0 := Int.ediv_le_of_le_mul grid.windowNs_pos (by omega)
  unfold windowsFor
  omega

variable {grid clockToleranceNs lateness}

theorem windowOf_snapped {tsNs : Int} (h : Snapped grid clockToleranceNs tsNs) : grid.windowOf clockToleranceNs tsNs = 0 := by
  have hneg := (grid.windowId_neg tsNs).mpr h.2
  obtain ⟨hfrom, hbefore⟩ := h
  simp only [WindowGrid.windowOf, WindowGrid.assign]
  rw [if_neg (by omega), if_pos (by omega)]

theorem windowOf_placed {tsNs : Int} (h : ¬ Snapped grid clockToleranceNs tsNs) :
    grid.windowOf clockToleranceNs tsNs = grid.windowId tsNs := by
  have hneg := grid.windowId_neg tsNs
  simp only [Snapped, not_and] at h
  simp only [WindowGrid.windowOf, WindowGrid.assign]
  split
  · rfl
  · rw [if_neg (by omega)]

/-- The windows of two events lie no further apart than the bound in windows. -/
theorem windowId_late {a b : Int} (h : a ≤ b + lateness) : grid.windowId a - windowsFor grid lateness ≤ grid.windowId b := by
  have hsplit := Int.ediv_add_ediv_le_add_ediv (x := a - grid.scenarioStartNs) (y := -lateness) grid.windowNs_pos
  have hmono : (a - grid.scenarioStartNs + -lateness) / grid.windowNs ≤ (b - grid.scenarioStartNs) / grid.windowNs :=
    Int.ediv_le_ediv grid.windowNs_pos (by omega)
  unfold WindowGrid.windowId windowsFor
  omega

/-- An event that is not too late falls behind the floor only when an event before it was
moved into window zero and it was not. -/
theorem windowOf_late {a b : Int} (h : a ≤ b + lateness) :
    grid.windowOf clockToleranceNs a - windowsFor grid lateness ≤ grid.windowOf clockToleranceNs b ↔
      (Snapped grid clockToleranceNs a → b < grid.scenarioStartNs - clockToleranceNs →
        -windowsFor grid lateness ≤ grid.windowId b) := by
  have hlate : grid.windowId a - _ ≤ grid.windowId b := windowId_late h
  have hneg := grid.windowId_neg b
  have hbound := windowsFor_nonneg grid (Int.natCast_nonneg lateness)
  by_cases ha : Snapped grid clockToleranceNs a
  · rw [windowOf_snapped ha]
    by_cases hb : Snapped grid clockToleranceNs b
    · rw [windowOf_snapped hb]
      obtain ⟨hfrom, -⟩ := hb
      exact ⟨fun _ _ hlt => absurd hlt (by omega), fun _ => by omega⟩
    · rw [windowOf_placed hb]
      obtain ⟨hfrom, hbefore⟩ := ha
      constructor
      · intro hle _ _
        omega
      · intro hle
        by_cases hlt : b < grid.scenarioStartNs - clockToleranceNs
        · have := hle ⟨hfrom, hbefore⟩ hlt
          omega
        · have hin : ¬ b < grid.scenarioStartNs := fun hb' => hb ⟨by omega, hb'⟩
          omega
  · rw [windowOf_placed ha]
    refine ⟨fun _ hsnapped => absurd hsnapped ha, fun _ => ?_⟩
    by_cases hb : Snapped grid clockToleranceNs b
    · rw [windowOf_snapped hb]
      have := hneg.mpr hb.2
      omega
    · rw [windowOf_placed hb]
      exact hlate

end Bound

/-! ## The guarantee -/

section Guarantee

variable (grid : WindowGrid) (clockToleranceNs : Int) (what : String) (lateness : Nat)

/-- No timestamp accepted before is further ahead than the lateness bound. -/
def InTime (before : List Offered) (e : Offered) : Prop := ∀ b ∈ before, b.tsNs ≤ e.tsNs + lateness

/-- After any events that were accepted, one that is not too late is accepted. -/
def Guaranteed (events : List Offered) : Prop :=
  ∀ before e after t, events = before ++ e :: after →
    acceptAll grid clockToleranceNs what (.new grid.windowNs lateness) before = .ok t → InTime lateness before e →
    ∃ t', accept grid clockToleranceNs what t e = .ok t'

/-- No event lies in a window further back than the bound from that of one before it. -/
def Admitted (events : List Offered) : Prop :=
  events.Pairwise fun b e => windowOf grid clockToleranceNs b - windowsFor grid lateness ≤ windowOf grid clockToleranceNs e

/-- After an event that was moved into window zero, one before the tolerance that is not too
late lies in a window within the bound from zero. -/
def Clear (events : List Offered) : Prop :=
  ∀ before e after, events = before ++ e :: after → Admitted grid clockToleranceNs lateness before →
    InTime lateness before e → ∀ b ∈ before, Snapped grid clockToleranceNs b.tsNs →
    e.tsNs < grid.scenarioStartNs - clockToleranceNs → -windowsFor grid lateness ≤ grid.windowId e.tsNs

/-- The tolerance fits into what rounding the bound up to windows adds to it. -/
def Covered : Prop :=
  lateness = 0 ∨ clockToleranceNs ≤ 0 ∨ windowsFor grid (lateness + clockToleranceNs) ≤ windowsFor grid lateness

instance : Decidable (Covered grid clockToleranceNs lateness) := inferInstanceAs (Decidable (_ ∨ _ ∨ _))

variable {grid clockToleranceNs what lateness}

theorem admitted_iff (events : List Offered) : Admitted grid clockToleranceNs lateness events ↔
    ∃ t, acceptAll grid clockToleranceNs what (.new grid.windowNs lateness) events = .ok t := by
  rw [acceptAll_ok (follows_new grid.windowNs lateness)]
  simp [Admitted, WatermarkTracker.new, windowsFor]

theorem guaranteed_iff_clear (events : List Offered) :
    Guaranteed grid clockToleranceNs what lateness events ↔ Clear grid clockToleranceNs lateness events := by
  have hstep : ∀ (before : List Offered) e t,
      acceptAll grid clockToleranceNs what (.new grid.windowNs lateness) before = .ok t → InTime lateness before e →
      ((∃ t', accept grid clockToleranceNs what t e = .ok t') ↔ ∀ b ∈ before, Snapped grid clockToleranceNs b.tsNs →
        e.tsNs < grid.scenarioStartNs - clockToleranceNs → -windowsFor grid lateness ≤ grid.windowId e.tsNs) := by
    intro before e t hbefore hin
    obtain ⟨hfollows, hlateness⟩ := acceptAll_follows (follows_new grid.windowNs lateness) hbefore
    rw [accept_ok hfollows, List.nil_append, List.forall_mem_map, hlateness]
    exact forall₂_congr fun b hb => windowOf_late (hin b hb)
  constructor
  · intro h before e after hevents hadmitted hin
    obtain ⟨t, ht⟩ : ∃ t, acceptAll grid clockToleranceNs what _ before = .ok t := (admitted_iff before).mp hadmitted
    exact (hstep before e t ht hin).mp (h before e after t hevents ht hin)
  · intro h before e after t hevents ht hin
    have hadmitted := (admitted_iff before).mpr ⟨t, ht⟩
    exact (hstep before e t ht hin).mpr (h before e after hevents hadmitted hin)

theorem Covered.clear (h : Covered grid clockToleranceNs lateness) (events : List Offered) :
    Clear grid clockToleranceNs lateness events := by
  intro before e after hevents hadmitted hin b hb hsnapped hlt
  have hle := hin b hb
  obtain ⟨hfrom, hbefore⟩ := hsnapped
  rcases h with rfl | hnone | hcovered
  · omega
  · omega
  · -- at worst the event lies the tolerance and the bound before the start
    have hmono : -(lateness + clockToleranceNs) / grid.windowNs ≤ (e.tsNs - grid.scenarioStartNs) / grid.windowNs :=
      Int.ediv_le_ediv grid.windowNs_pos (by omega)
    unfold windowsFor at hcovered ⊢
    unfold WindowGrid.windowId
    omega

/-- The events at the edge of the tolerance and as late as the bound allows. -/
def edgeEvents (grid : WindowGrid) (clockToleranceNs : Int) (lateness : Nat) : List Offered :=
  [⟨grid.scenarioStartNs - clockToleranceNs, true⟩, ⟨grid.scenarioStartNs - clockToleranceNs - lateness, true⟩]

theorem covered_of_edge (h : Clear grid clockToleranceNs lateness (edgeEvents grid clockToleranceNs lateness)) :
    Covered grid clockToleranceNs lateness := by
  by_contra hnot
  simp only [Covered, not_or, not_le] at hnot
  obtain ⟨hlate, htolerance, hbeyond⟩ := hnot
  have hedge := h [⟨grid.scenarioStartNs - clockToleranceNs, true⟩]
    ⟨grid.scenarioStartNs - clockToleranceNs - lateness, true⟩ [] rfl (List.pairwise_singleton _ _)
    (by
      intro b hb
      rw [List.mem_singleton.mp hb]
      simp only []
      omega)
    _ (List.mem_singleton_self _) ⟨le_refl _, by simp only []; omega⟩ (by simp only []; omega)
  have hsame : grid.scenarioStartNs - clockToleranceNs - lateness - grid.scenarioStartNs = -(lateness + clockToleranceNs) := by
    omega
  unfold WindowGrid.windowId at hedge
  rw [hsame] at hedge
  unfold windowsFor at hbeyond hedge
  omega

/-- Events that are not too late are accepted in all sequences of a clear kind and in no
others, and in all sequences when the tolerance fits into the rounding of the bound. -/
theorem lateness_guaranteed (grid : WindowGrid) (clockToleranceNs : Int) (what : String) (lateness : Nat) :
    (∀ events, Guaranteed grid clockToleranceNs what lateness events ↔ Clear grid clockToleranceNs lateness events) ∧
      ((∀ events, Guaranteed grid clockToleranceNs what lateness events) ↔ Covered grid clockToleranceNs lateness) := by
  refine ⟨guaranteed_iff_clear, fun h => ?_, fun h events => (guaranteed_iff_clear events).mpr (h.clear events)⟩
  exact covered_of_edge ((guaranteed_iff_clear _).mp (h _))

theorem fiveSeconds_positive : 0 < pyRound (5 * 1000000000) := by decide +kernel

/-- Windows of five seconds from the epoch on. -/
def fiveSecondGrid : WindowGrid := ⟨0, 5, fiveSeconds_positive⟩

/-- A minute of lateness and ten milliseconds of tolerance: ten milliseconds before the start,
then exactly a minute before that. -/
theorem minute_late_refused : ¬ Guaranteed fiveSecondGrid 10000000 "network packet" 60000000000
    (edgeEvents fiveSecondGrid 10000000 60000000000) := by
  rw [guaranteed_iff_clear]
  exact fun h => absurd (covered_of_edge h) (by decide +kernel)

end Guarantee

end LatenessGuarantee
