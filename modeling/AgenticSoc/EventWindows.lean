import Mathlib

/-!
# Windows and the watermark

Events are assigned to the windows of a grid that starts with the scenario. A tracker
follows the windows seen: windows that lie further back than the lateness bound are
finalized, and an event of such a window is refused.
-/
namespace EventWindows

/-- Rounding to the nearest integer, halves to the even one. -/
def pyRound (q : ℚ) : Int :=
  let below := ⌊q⌋
  if q - below < 1 / 2 then below
  else if 1 / 2 < q - below then below + 1
  else if below % 2 = 0 then below else below + 1

inductive Disposition where
  | inGrid | prestartSnapped | prestartNegative
  deriving DecidableEq, Repr

structure WindowGrid where
  scenarioStartNs : Int
  windowSeconds : ℚ
  /-- A window shorter than a nanosecond is refused by the tracker. -/
  positive : 0 < pyRound (windowSeconds * 1000000000)

namespace WindowGrid

variable (grid : WindowGrid)

def windowNs : Int := pyRound (grid.windowSeconds * 1000000000)

theorem windowNs_pos : 0 < grid.windowNs := grid.positive

/-- The divisor is positive, so the quotient is the floor. -/
def windowId (tsNs : Int) : Int := (tsNs - grid.scenarioStartNs) / grid.windowNs

def assign (tsNs clockToleranceNs : Int) : Int × Disposition :=
  let rawWid := grid.windowId tsNs
  if 0 ≤ rawWid then (rawWid, .inGrid)
  else
    let displacement := grid.scenarioStartNs - tsNs
    if 0 ≤ displacement ∧ displacement ≤ clockToleranceNs then (0, .prestartSnapped)
    else (rawWid, .prestartNegative)

def windowBounds (windowId : Int) : Int × Int :=
  let start := grid.scenarioStartNs + windowId * grid.windowNs
  (start, start + grid.windowNs)

/-- The window that an event is assigned to. -/
def windowOf (clockToleranceNs tsNs : Int) : Int := (grid.assign tsNs clockToleranceNs).1

theorem windowId_lt (tsNs wid : Int) : grid.windowId tsNs < wid ↔ tsNs < (grid.windowBounds wid).1 := by
  unfold windowId windowBounds
  rw [Int.ediv_lt_iff_lt_mul grid.windowNs_pos]
  constructor <;> intro h <;> simp only [] at * <;> omega

theorem windowId_neg (tsNs : Int) : grid.windowId tsNs < 0 ↔ tsNs < grid.scenarioStartNs := by
  rw [windowId_lt]
  simp [windowBounds]

/-- Later events are never assigned to earlier windows. -/
theorem windowOf_mono (clockToleranceNs : Int) {a b : Int} (h : a ≤ b) :
    grid.windowOf clockToleranceNs a ≤ grid.windowOf clockToleranceNs b := by
  have hraw : grid.windowId a ≤ grid.windowId b := Int.ediv_le_ediv grid.windowNs_pos (by omega)
  have hb := grid.windowId_neg b
  simp only [windowOf, assign]
  by_cases ha : 0 ≤ grid.windowId a
  · rw [if_pos ha, if_pos (by omega)]
    exact hraw
  · rw [if_neg ha]
    split <;> split <;> try split
    all_goals simp only []
    all_goals omega

end WindowGrid

inductive ExtractionError where
  | eventOlderThanWatermark (what : String) (wid finalizedFloor maxLatenessNs : Int)
  | capacityExceeded (liveEdges capacity : Nat) (windowId : Int)
  /-- Two values of an event sequence that cannot be compared. -/
  | typeError
  deriving DecidableEq, Repr

def ExtractionError.message : ExtractionError → String
  | .eventOlderThanWatermark what wid finalizedFloor maxLatenessNs =>
    s!"{what} belongs to window {wid}, but all windows < {finalizedFloor} are already finalized " ++
      s!"(max_lateness={maxLatenessNs} ns). Failing explicitly rather than losing the event."
  | .capacityExceeded liveEdges capacity windowId =>
    s!"live communication-edge accumulators ({liveEdges}) exceeded active_window_capacity ({capacity}) " ++
      s!"while inserting an edge in window {windowId}. Session aborted without data loss; increase " ++
      "the capacity or reduce max_event_lateness."
  | .typeError => "'<' not supported between these values"

def ExtractionError.isOlder : ExtractionError → Bool
  | .eventOlderThanWatermark .. => true
  | _ => false

structure WatermarkTracker where
  windowNs : Int
  latenessWindows : Int
  maxWidSeen : Option Int
  minWidSeen : Option Int
  finalizedFloor : Option Int
  maxTsNs : Option Int
  maxObservedLatenessNs : Int
  deriving DecidableEq, Repr

namespace WatermarkTracker

/-- The lateness bound in windows, rounded up. -/
def new (windowNs : Int) (maxEventLatenessNs : Nat) : WatermarkTracker :=
  ⟨windowNs, -(-(maxEventLatenessNs : Int) / windowNs), none, none, none, none, 0⟩

variable (t : WatermarkTracker)

def ensureAcceptable (wid : Int) (what : String) : Except ExtractionError Unit :=
  match t.finalizedFloor with
  | none => .ok ()
  | some floor =>
    if wid < floor then .error (.eventOlderThanWatermark what wid floor (t.latenessWindows * t.windowNs)) else .ok ()

/-- The larger of a value seen so far and a new one. -/
def larger (seen : Option Int) (x : Int) : Int :=
  match seen with
  | none => x
  | some y => if y < x then x else y

def smaller (seen : Option Int) (x : Int) : Int :=
  match seen with
  | none => x
  | some y => if x < y then x else y

/-- Take note of an accepted event; the answer says whether the watermark advanced. -/
def observe (tsNs wid : Int) : Bool × WatermarkTracker :=
  let maxWid := larger t.maxWidSeen wid
  let maxTs := larger t.maxTsNs tsNs
  let newFloor := maxWid - t.latenessWindows
  let advanced := match t.finalizedFloor with
    | none => true
    | some floor => decide (floor < newFloor)
  (advanced, { t with
    maxWidSeen := some maxWid
    minWidSeen := some (smaller t.minWidSeen wid)
    maxTsNs := some maxTs
    maxObservedLatenessNs := larger (some t.maxObservedLatenessNs) (maxTs - tsNs)
    finalizedFloor := if advanced then some newFloor else t.finalizedFloor })

/-- The windows to be finalized now, first and last; they are not due again. -/
def dueWindows : Option (Int × Int) × WatermarkTracker :=
  match t.finalizedFloor, t.minWidSeen with
  | some floor, some lo =>
    if floor - 1 < lo then (none, t) else (some (lo, floor - 1), { t with minWidSeen := some floor })
  | _, _ => (none, t)

end WatermarkTracker

/-- What managers note about where their events fall. -/
structure Placements where
  prestartSnappedEvents : Nat
  prestartSnappedMaxDisplacementNs : Int
  prestartNegativeEvents : Nat
  lateEvents : Nat
  maxObservedLatenessNs : Int
  deriving DecidableEq, Repr

def Placements.none : Placements := ⟨0, 0, 0, 0, 0⟩

def Placements.note (d : Placements) (grid : WindowGrid) (tracker : WatermarkTracker) (tsNs wid : Int)
    (disposition : Disposition) : Placements :=
  let displacement := grid.scenarioStartNs - tsNs
  { prestartSnappedEvents := if disposition = .prestartSnapped then d.prestartSnappedEvents + 1 else d.prestartSnappedEvents
    prestartSnappedMaxDisplacementNs :=
      if disposition = .prestartSnapped then max d.prestartSnappedMaxDisplacementNs displacement
      else d.prestartSnappedMaxDisplacementNs
    prestartNegativeEvents := if disposition = .prestartNegative then d.prestartNegativeEvents + 1 else d.prestartNegativeEvents
    lateEvents := if tracker.maxWidSeen.any fun highest => wid < highest then d.lateEvents + 1 else d.lateEvents
    maxObservedLatenessNs := (tracker.observe tsNs wid).2.maxObservedLatenessNs }

end EventWindows
