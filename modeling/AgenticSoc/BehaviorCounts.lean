import AgenticSoc.EventSequences

/-!
# What a behaviour manager counts

Events of unknown sources and of devices without behaviour rows are ignored. The others are
counted for their device, unless the watermark refuses them or their value cannot be
compared with one of the same moment.
-/
namespace BehaviorCounts

open EventWindows LiveTables WatermarkedTables DeviceInventory FeatureStatistics BehaviorFeatures EventSequences Collecting

variable (L : Library) (S : BehaviorSetup)

/-- The window of an event. -/
def windowOf (event : MqttEvent) : Int := S.grid.windowOf S.clockToleranceNs event.tsNs

/-- The device that an event counts for. -/
def deviceOf (event : MqttEvent) : Option String :=
  match resolve L.lowerCase S.inventory event.mac event.ip with
  | none => none
  | some rec => if behaviorProfileFor S.inventory rec.deviceName = .unsupported then none else some rec.deviceName

def observed (event : MqttEvent) : Bool := (deviceOf L S event).isSome

def feeds (event : MqttEvent) : List (String × MqttEvent) := (deviceOf L S event).toList.map fun d => (d, event)

def devicesOf (event : MqttEvent) : List String := (feeds L S event).map Prod.fst

theorem devicesOf_eq (event : MqttEvent) : devicesOf L S event = (deviceOf L S event).toList := by
  rw [devicesOf, feeds, List.map_map]
  exact List.map_id' _

theorem devicesOf_nodup (event : MqttEvent) : (devicesOf L S event).Nodup := by
  rw [devicesOf_eq]
  cases deviceOf L S event <;> simp

def newAccumulator (key : Int × String) (_ : MqttEvent) : BehaviorWindowAccumulator := .new key.2 key.1

/-- An accumulator after an event, whether its value can be kept or not. -/
def count (acc : BehaviorWindowAccumulator) (event : MqttEvent) : BehaviorWindowAccumulator :=
  match update L S.grid acc event with
  | .ok acc' => acc'
  | .error _ => noteEvent L S.grid acc event

def RowOf (row : BehaviorRow) (cell : (Int × String) × BehaviorWindowAccumulator) : Prop :=
  (∃ history, row = S.finalize L history cell.2) ∧ cell.2.windowId = cell.1.1 ∧ cell.2.deviceName = cell.1.2

theorem RowOf.key {row : BehaviorRow} {cell : (Int × String) × BehaviorWindowAccumulator} (h : RowOf L S row cell) :
    row.key = cell.1 := by
  obtain ⟨⟨history, rfl⟩, hw, hd⟩ := h
  exact Prod.ext hw hd

/-- What is fed to the cell of a device in a window: its events of the window, in order. -/
def cellEvents (events : List MqttEvent) (k : Int × String) : List MqttEvent :=
  events.filter fun e => windowOf S e = k.1 ∧ deviceOf L S e = some k.2

theorem feedsAt_cell (events : List MqttEvent) (k : Int × String) :
    feedsAt k (feedsOf (windowOf S) (feeds L S) events) = cellEvents L S events k := by
  induction events with
  | nil => rfl
  | cons e events ih =>
    have hone : feedsAt k ((feeds L S e).map fun f => ((windowOf S e, f.1), f.2)) = cellEvents L S [e] k := by
      obtain ⟨w, d⟩ := k
      unfold feeds cellEvents feedsAt
      cases hdev : deviceOf L S e with
      | none => simp [hdev]
      | some d' => by_cases hw : windowOf S e = w <;> by_cases hd : d' = d <;> simp [hdev, hw, hd]
    rw [feedsOf, List.flatMap_cons, feedsAt_append, hone, ← feedsOf, ih]
    simp [cellEvents, List.filter_cons]
    split <;> rfl

theorem count_update {acc acc' : BehaviorWindowAccumulator} {event : MqttEvent}
    (h : update L S.grid acc event = .ok acc') : count L S acc event = acc' := by
  unfold count
  rw [h]

theorem count_noted (acc : BehaviorWindowAccumulator) (event : MqttEvent) :
    Noted L S.grid acc event (count L S acc event) := by
  unfold count update
  split
  · rename_i acc' h
    split at h
    · cases hinsort : Bisection.insort SeqEntry.lessThan acc.eventSeq ⟨event.tsNs, .ofMessage event.messageValue⟩ with
      | error e =>
        rw [hinsort] at h
        cases h
      | ok l =>
        rw [hinsort] at h
        cases h
        rfl
    · cases h
      rfl
  · rfl

theorem count_fold (fed : List MqttEvent) (acc : BehaviorWindowAccumulator) :
    (fed.foldl (count L S) acc).messages = acc.messages + fed.length ∧
      (fed.foldl (count L S) acc).windowId = acc.windowId ∧ (fed.foldl (count L S) acc).deviceName = acc.deviceName := by
  induction fed generalizing acc with
  | nil => simp
  | cons e fed ih =>
    have hnoted := count_noted L S acc e
    obtain ⟨hn, hw, hd⟩ := ih (count L S acc e)
    rw [List.foldl_cons, List.length_cons, hn, hw, hd, hnoted]
    refine ⟨?_, rfl, rfl⟩
    simp only [noteEvent]
    omega

/-- Rows made of cells that hold what was fed to them. -/
theorem rows_of_cells (history : History) {cells : List ((Int × String) × BehaviorWindowAccumulator)}
    {feeds : List ((Int × String) × MqttEvent)} (h : ∀ c ∈ cells, bookOf newAccumulator (count L S) feeds c.1 = some c.2) :
    List.Forall₂ (RowOf L S) (cells.map fun cell => S.finalize L history cell.2) cells := by
  rw [List.forall₂_map_left_iff, List.forall₂_same]
  intro c hc
  obtain ⟨f, fs, -, hacc⟩ := bookOf_some newAccumulator (count L S) (h c hc)
  obtain ⟨-, hw, hd⟩ := count_fold L S (f :: fs) (newAccumulator c.1 f)
  rw [← hacc] at hw hd
  exact ⟨⟨history, rfl⟩, hw, hd⟩

/-! ## One event -/

section OneEvent

variable (m : BehaviorWindowManager) (event : MqttEvent)

/-- An ignored event is only counted as such. -/
theorem add_ignored (h : deviceOf L m.toBehaviorSetup event = none) :
    ∃ diag, m.addEvent L event = .ok ([], { m with diagnostics := diag }) ∧
      diag.messagesValidTotal = m.diagnostics.messagesValidTotal + 1 ∧
      diag.unresolvedTelemetrySources + diag.messagesIgnoredUnsupported =
        m.diagnostics.unresolvedTelemetrySources + m.diagnostics.messagesIgnoredUnsupported + 1 := by
  cases hres : resolve L.lowerCase m.inventory event.mac event.ip with
  | none =>
    refine ⟨_, by simp only [BehaviorWindowManager.addEvent, hres]; rfl, rfl, ?_⟩
    simp only []
    omega
  | some rec =>
    have hunsupported : behaviorProfileFor m.inventory rec.deviceName = .unsupported := by
      by_contra hsupported
      simp only [deviceOf, hres, if_neg hsupported] at h
      cases h
    refine ⟨_, by simp only [BehaviorWindowManager.addEvent, hres, if_pos hunsupported]; rfl, rfl, ?_⟩
    simp only []
    omega

/-- An event of a device with rows is refused by the watermark or by its accumulator, or taken. -/
theorem add_observed {d : String} (h : deviceOf L m.toBehaviorSetup event = some d) :
    m.addEvent L event = (do
      m.tracker.ensureAcceptable (windowOf m.toBehaviorSetup event) "telemetry event"
      let acc ← update L m.grid ((m.windows.lookup (windowOf m.toBehaviorSetup event, d)).getD
        (.new d (windowOf m.toBehaviorSetup event))) event
      let windows := m.windows.insert (windowOf m.toBehaviorSetup event, d) acc
      pure (BehaviorWindowManager.finalizeDue L { m with
        tracker := (m.tracker.observe event.tsNs (windowOf m.toBehaviorSetup event)).2
        windows := windows
        historyByDevice := Function.update m.historyByDevice d ((m.historyByDevice d).orderedInsert (· ≤ ·) event.tsNs)
        diagnostics := { m.diagnostics with
          messagesValidTotal := m.diagnostics.messagesValidTotal + 1
          placements := m.diagnostics.placements.note m.grid m.tracker event.tsNs (windowOf m.toBehaviorSetup event)
            (m.grid.assign event.tsNs m.clockToleranceNs).2
          capacityPeakUsage :=
            if (m.windows.lookup (windowOf m.toBehaviorSetup event, d)).isSome then m.diagnostics.capacityPeakUsage
            else max m.diagnostics.capacityPeakUsage windows.keys.length
          eventsAppliedToAccumulators := m.diagnostics.eventsAppliedToAccumulators + 1 } })) := by
  cases hres : resolve L.lowerCase m.inventory event.mac event.ip with
  | none =>
    simp only [deviceOf, hres] at h
    cases h
  | some rec =>
    by_cases hsupported : behaviorProfileFor m.inventory rec.deviceName = .unsupported
    · simp only [deviceOf, hres, if_pos hsupported] at h
      cases h
    · simp only [deviceOf, hres, if_neg hsupported, Option.some.injEq] at h
      subst h
      simp only [BehaviorWindowManager.addEvent, hres, if_neg hsupported]
      rfl

/-- The history with a new timestamp of a device. -/
def noteHistory (history : History) (d : String) (tsNs : Int) : History :=
  Function.update history d ((history d).orderedInsert (· ≤ ·) tsNs)

/-- The history after a range of windows has been finalized. -/
def historyAfter (upTo : Option Int) (history : History) : History :=
  match upTo with
  | none => history
  | some hi => S.pruneHistory hi history

/-- An event was counted for a device, and what was due became rows. -/
structure Taken (m : BehaviorWindowManager) (event : MqttEvent) (d : String) (rows : List BehaviorRow)
    (m' : BehaviorWindowManager) (due : Due String BehaviorWindowAccumulator) : Prop where
  acceptable : m.tracker.ensureAcceptable (windowOf m.toBehaviorSetup event) "telemetry event" = .ok ()
  updated : ∃ acc, update L m.grid ((m.windows.lookup (windowOf m.toBehaviorSetup event, d)).getD
    (.new d (windowOf m.toBehaviorSetup event))) event = .ok acc
  setup : m'.toBehaviorSetup = m.toBehaviorSetup
  found : due = finalizeDue (m.tracker.observe event.tsNs (windowOf m.toBehaviorSetup event)).2
    (((feeds L m.toBehaviorSetup event).map fun f => ((windowOf m.toBehaviorSetup event, f.1), f.2)).foldl
      (feedTable newAccumulator (count L m.toBehaviorSetup)) m.windows)
  rows : rows = due.cells.map fun cell => m.finalize L (noteHistory m.historyByDevice d event.tsNs) cell.2
  windows : m'.windows = due.live
  tracker : m'.tracker = due.tracker
  history : m'.historyByDevice = historyAfter m.toBehaviorSetup due.upTo (noteHistory m.historyByDevice d event.tsNs)
  valid : m'.diagnostics.messagesValidTotal = m.diagnostics.messagesValidTotal + 1
  ignored : m'.diagnostics.unresolvedTelemetrySources + m'.diagnostics.messagesIgnoredUnsupported =
    m.diagnostics.unresolvedTelemetrySources + m.diagnostics.messagesIgnoredUnsupported

theorem taken_of_ok {m : BehaviorWindowManager} {event : MqttEvent} {d : String} (hd : deviceOf L m.toBehaviorSetup event = some d) {rows : List BehaviorRow}
    {m' : BehaviorWindowManager} (h : m.addEvent L event = .ok (rows, m')) : ∃ due, Taken L m event d rows m' due := by
  rw [add_observed L m event hd] at h
  cases hok : m.tracker.ensureAcceptable (windowOf m.toBehaviorSetup event) "telemetry event" with
  | error e =>
    rw [hok] at h
    cases h
  | ok u =>
    rw [hok] at h
    cases hup : update L m.grid ((m.windows.lookup (windowOf m.toBehaviorSetup event, d)).getD
        (.new d (windowOf m.toBehaviorSetup event))) event with
    | error e =>
      rw [hup] at h
      cases h
    | ok acc =>
      rw [hup] at h
      have hfed : ((feeds L m.toBehaviorSetup event).map fun f => ((windowOf m.toBehaviorSetup event, f.1), f.2)).foldl
          (feedTable newAccumulator (count L m.toBehaviorSetup)) m.windows =
          m.windows.insert (windowOf m.toBehaviorSetup event, d) acc := by
        rw [feeds, hd]
        simp only [Option.toList, List.map_cons, List.map_nil, List.foldl_cons, List.foldl_nil, feedTable]
        rw [← count_update L m.toBehaviorSetup hup]
        rfl
      cases h
      refine ⟨_, hok, ⟨acc, hup⟩, rfl, by rw [hfed], rfl, rfl, rfl, rfl, rfl, rfl⟩

end OneEvent

/-! ## Runs -/

def latenessWindows (lateness : Nat) : Int := (WatermarkTracker.new S.grid.windowNs lateness).latenessWindows

/-- No event lies further behind an earlier one than the lateness bound allows. -/
def OnTime (lateness : Nat) (events : List MqttEvent) : Prop :=
  ((events.filter (observed L S)).map (windowOf S)).Pairwise fun a b => a - latenessWindows S lateness ≤ b

instance (lateness : Nat) (events : List MqttEvent) : Decidable (OnTime L S lateness events) :=
  inferInstanceAs (Decidable (List.Pairwise _ _))

/-- The state of a manager after events that gave the rows. -/
structure Run (lateness : Nat) (done : List MqttEvent) (rows : List BehaviorRow) (m : BehaviorWindowManager) : Prop where
  setup : m.toBehaviorSetup = S
  bound : m.tracker.latenessWindows = latenessWindows S lateness
  counting : Counting newAccumulator (count L S) (windowOf S) (feeds L S) (observed L S) (RowOf L S) done rows m.tracker
    m.windows
  sound : ∀ k a, bookOf newAccumulator (count L S) (feedsOf (windowOf S) (feeds L S) done) k = some a →
    Sound (cellEvents L S done k) a
  onTime : OnTime L S lateness done
  valid : m.diagnostics.messagesValidTotal = done.length
  ignored : m.diagnostics.unresolvedTelemetrySources + m.diagnostics.messagesIgnoredUnsupported =
    done.countP fun e => !observed L S e

theorem run_new (lateness : Nat) : Run L S lateness [] [] (.new S lateness) :=
  { setup := rfl
    bound := rfl
    counting := counting_new _ _
    sound := fun _ _ h => nomatch h
    onTime := List.Pairwise.nil
    valid := rfl
    ignored := rfl }

section Steps

variable {L S} {lateness : Nat} {done : List MqttEvent} {rows : List BehaviorRow} {m : BehaviorWindowManager}

theorem cellEvents_append (k : Int × String) (event : MqttEvent) : cellEvents L S (done ++ [event]) k =
    if windowOf S event = k.1 ∧ deviceOf L S event = some k.2 then cellEvents L S done k ++ [event]
    else cellEvents L S done k := by
  unfold cellEvents
  rw [List.filter_append, List.filter_singleton]
  by_cases h : windowOf S event = k.1 ∧ deviceOf L S event = some k.2
  · rw [if_pos h, decide_eq_true h]
    rfl
  · rw [if_neg h, decide_eq_false h]
    exact List.append_nil _

/-- The accumulator that an acceptable event goes to, with the events it holds. -/
theorem Run.cell (h : Run L S lateness done rows m) {event : MqttEvent} {d : String}
    (hok : m.tracker.ensureAcceptable (windowOf S event) "telemetry event" = .ok ()) :
    Sound (cellEvents L S done (windowOf S event, d)) ((m.windows.lookup (windowOf S event, d)).getD
      (.new d (windowOf S event))) := by
  rw [h.counting.lookup hok d]
  cases hb : bookOf newAccumulator (count L S) (feedsOf (windowOf S) (feeds L S) done) (windowOf S event, d) with
  | some a => exact h.sound _ _ hb
  | none =>
    rw [bookOf_apply, feedsAt_cell] at hb
    cases hfs : cellEvents L S done (windowOf S event, d) with
    | nil => exact ⟨.nil, inOrder_nil⟩
    | cons f fs =>
      rw [hfs] at hb
      cases hb

theorem Run.onTime_snoc (h : Run L S lateness done rows m) {event : MqttEvent} (hobserved : observed L S event = true) :
    OnTime L S lateness (done ++ [event]) ↔
      m.tracker.ensureAcceptable (windowOf S event) "telemetry event" = .ok () := by
  rw [h.counting.follows.acceptable, h.bound, OnTime, List.filter_append, List.filter_singleton, hobserved,
    cond_true, List.map_append, List.pairwise_append]
  simp only [List.map_cons, List.map_nil, List.pairwise_singleton, List.mem_singleton, forall_eq, true_and]
  exact ⟨fun hall => hall.2, fun hall => ⟨h.onTime, hall⟩⟩

theorem Run.step (h : Run L S lateness done rows m) {event : MqttEvent} {new : List BehaviorRow} {m' : BehaviorWindowManager}
    (hadd : m.addEvent L event = .ok (new, m')) : Run L S lateness (done ++ [event]) (rows ++ new) m' := by
  have hsetup := h.setup
  cases hd : deviceOf L S event with
  | none =>
    have hobserved : observed L S event = false := by rw [observed, hd]; rfl
    have hfeeds : feeds L S event = [] := by rw [feeds, hd]; rfl
    obtain ⟨diag, hadd', hvalid, hignored⟩ := add_ignored L m event (by rw [hsetup]; exact hd)
    rw [hadd'] at hadd
    cases hadd
    refine ⟨hsetup, h.bound, h.counting.skip hfeeds hobserved, ?_, ?_, ?_, ?_⟩
    · intro k a ha
      rw [bookOf_unfed hfeeds] at ha
      rw [cellEvents_append, if_neg (by rw [hd]; simp)]
      exact h.sound k a ha
    · have hsame : (done ++ [event]).filter (observed L S) = done.filter (observed L S) := by
        rw [List.filter_append, List.filter_singleton, hobserved]
        simp
      rw [OnTime, hsame]
      exact h.onTime
    · rw [hvalid, h.valid, List.length_append]
      rfl
    · rw [hignored, h.ignored, List.countP_append, List.countP_singleton, hobserved]
      rfl
  | some d =>
    have hobserved : observed L S event = true := by rw [observed, hd]; rfl
    obtain ⟨due, ht⟩ := taken_of_ok L (by rw [hsetup]; exact hd) hadd
    have hok := ht.acceptable
    have hfound := ht.found
    rw [hsetup] at hok hfound
    obtain ⟨acc, hup⟩ := ht.updated
    rw [hsetup] at hup
    refine ⟨ht.setup.trans hsetup, ?_, ?_, ?_, ?_, ?_, ?_⟩
    · rw [ht.tracker, hfound, finalizeDue_lateness, observe_lateness]
      exact h.bound
    · rw [ht.tracker, ht.windows]
      refine h.counting.accept hobserved hok event.tsNs hfound fun hcells => ?_
      rw [ht.rows, hsetup]
      exact rows_of_cells L S _ hcells
    · intro k a ha
      rw [bookOf_apply, feedsAt_cell, cellEvents_append, hd] at ha
      rw [cellEvents_append, hd]
      split at ha
      · rename_i hk
        obtain ⟨w, d'⟩ := k
        obtain ⟨rfl, hd'⟩ := hk
        obtain rfl : d = d' := Option.some.inj hd'
        rw [if_pos ⟨rfl, rfl⟩]
        rw [filled_append, ← feedsAt_cell, ← bookOf_apply, ← h.counting.lookup hok d] at ha
        cases ha
        rcases update_cases L S.grid (h.cell hok) event with ⟨-, -, herror⟩ | ⟨-, acc', hup', -, hsound⟩
        · rw [herror] at hup
          cases hup
        · change Sound _ (count L S ((m.windows.lookup (windowOf S event, d)).getD (.new d (windowOf S event))) event)
          rw [count_update L S hup']
          exact hsound
      · rename_i hk
        rw [if_neg hk]
        rw [← feedsAt_cell, ← bookOf_apply] at ha
        exact h.sound k a ha
    · exact (h.onTime_snoc hobserved).mpr hok
    · rw [ht.valid, h.valid, List.length_append]
      rfl
    · rw [ht.ignored, h.ignored, List.countP_append, List.countP_singleton, hobserved]
      rfl

/-- A value that cannot be compared stops the run at an event that is not late. -/
theorem Run.fails_iff (h : Run L S lateness done rows m) {event : MqttEvent} {d : String}
    (hd : deviceOf L S event = some d) : m.addEvent L event = .error .typeError ↔
      OnTime L S lateness (done ++ [event]) ∧ (cellEvents L S done (windowOf S event, d)).length < tsListCap ∧
        ∃ e ∈ cellEvents L S done (windowOf S event, d), Clash (entryOf event) (entryOf e) := by
  have hobserved : observed L S event = true := by rw [observed, hd]; rfl
  have hadd := add_observed L m event (by rw [h.setup]; exact hd)
  rw [h.setup] at hadd
  rw [h.onTime_snoc hobserved, hadd]
  cases hok : m.tracker.ensureAcceptable (windowOf S event) "telemetry event" with
  | error e =>
    have holder := ensureAcceptable_error hok
    constructor
    · intro herror
      cases herror
      cases holder
    · rintro ⟨hfalse, -⟩
      cases hfalse
  | ok u =>
    rcases update_cases L S.grid (h.cell hok) event with ⟨hlen, hclash, herror⟩ | ⟨hnone, acc', hup, -, -⟩
    · refine iff_of_true ?_ ⟨rfl, hlen, hclash⟩
      change (update L S.grid _ event >>= _) = _
      rw [herror]
      rfl
    · refine iff_of_false ?_ ?_
      · intro herror
        change (update L S.grid _ event >>= _) = _ at herror
        rw [hup] at herror
        cases herror
      · rintro ⟨-, hlen, e, he, hclash⟩
        exact hnone hlen e he hclash

/-- An event is refused by the watermark, or its value cannot be compared. -/
theorem Run.error_cases (h : Run L S lateness done rows m) {event : MqttEvent} {err : ExtractionError}
    (hadd : m.addEvent L event = .error err) : err.isOlder = true ∨ (err = .typeError ∧ ∃ d, deviceOf L S event = some d) := by
  cases hd : deviceOf L S event with
  | none =>
    obtain ⟨diag, hadd', -⟩ := add_ignored L m event (by rw [h.setup]; exact hd)
    rw [hadd'] at hadd
    cases hadd
  | some d =>
    rw [add_observed L m event (by rw [h.setup]; exact hd), h.setup] at hadd
    cases hok : m.tracker.ensureAcceptable (windowOf S event) "telemetry event" with
    | error e =>
      have holder := ensureAcceptable_error hok
      rw [hok] at hadd
      cases hadd
      exact .inl holder
    | ok u =>
      rw [hok] at hadd
      change (update L S.grid _ event >>= _) = _ at hadd
      rcases update_cases L S.grid (h.cell hok) event with ⟨-, -, herror⟩ | ⟨-, acc', hup, -, -⟩
      · rw [herror] at hadd
        cases hadd
        exact .inr ⟨rfl, d, rfl⟩
      · rw [hup] at hadd
        cases hadd

end Steps

/-- Before any event is late, an event comes whose value cannot be compared with one of its
device, its window and its moment. -/
def Incomparable (lateness : Nat) (events : List MqttEvent) : Prop :=
  ∃ before event after d, events = before ++ event :: after ∧ OnTime L S lateness (before ++ [event]) ∧
    deviceOf L S event = some d ∧ (cellEvents L S before (windowOf S event, d)).length < tsListCap ∧
    ∃ e ∈ cellEvents L S before (windowOf S event, d), Clash (entryOf event) (entryOf e)

theorem managed (lateness : Nat) : Managed (BehaviorWindowManager.addEvent L) (BehaviorWindowManager.finish L)
    BehaviorWindowManager.tracker BehaviorWindowManager.windows newAccumulator (count L S) (windowOf S) (feeds L S)
    (observed L S) (RowOf L S) (Run L S lateness) where
  preserved _ _ _ _ _ _ hrun hadd := hrun.step hadd
  counting _ _ _ hrun := hrun.counting
  acceptable done rows m event r hrun hadd hobserved := by
    obtain ⟨new, m'⟩ := r
    obtain ⟨d, hd⟩ := Option.isSome_iff_exists.mp hobserved
    obtain ⟨due, ht⟩ := taken_of_ok L (by rw [hrun.setup]; exact hd) hadd
    have hok := ht.acceptable
    rw [hrun.setup] at hok
    exact ⟨_, hok⟩
  finished done rows m hrun hcells := by
    rw [BehaviorWindowManager.finish, hrun.setup]
    exact rows_of_cells L S _ hcells

/-- The state after events that are all taken. -/
theorem run_of_ok {lateness : Nat} {events : List MqttEvent} {rows : List BehaviorRow} {m : BehaviorWindowManager}
    (h : collect (BehaviorWindowManager.addEvent L) (.new S lateness) events = .ok (rows, m)) :
    Run L S lateness events rows m := collect_induct (managed L S lateness).preserved h (run_new L S lateness)

theorem onTime_prefix {lateness : Nat} {events more : List MqttEvent} (h : OnTime L S lateness (events ++ more)) :
    OnTime L S lateness events := by
  rw [OnTime, List.filter_append, List.map_append] at h
  exact (List.pairwise_append.mp h).1

/-- A run stops at a value that cannot be compared exactly when such an event comes before any late one. -/
theorem fails_iff_incomparable (lateness : Nat) (events : List MqttEvent) :
    collect (BehaviorWindowManager.addEvent L) (.new S lateness) events = .error .typeError ↔
      Incomparable L S lateness events := by
  constructor
  · intro h
    obtain ⟨done, event, rest, rows, m, rfl, hdone, hadd⟩ := collect_error h
    have hrun := run_of_ok L S hdone
    rcases hrun.error_cases hadd with holder | ⟨-, d, hd⟩
    · cases holder
    · obtain ⟨hontime, hlen, hclash⟩ := (hrun.fails_iff hd).mp hadd
      exact ⟨done, event, rest, d, rfl, hontime, hd, hlen, hclash⟩
  · rintro ⟨before, event, after, d, rfl, hontime, hd, hlen, hclash⟩
    cases hbefore : collect (BehaviorWindowManager.addEvent L) (.new S lateness) before with
    | ok r =>
      obtain ⟨rows, m⟩ := r
      have hrun := run_of_ok L S hbefore
      exact collect_stops hbefore ((hrun.fails_iff hd).mpr ⟨hontime, hlen, hclash⟩)
    | error err =>
      -- an earlier event stops the run, and it is not late either
      obtain ⟨done, event', rest, rows, m, rfl, hdone, hadd⟩ := collect_error hbefore
      have hrun := run_of_ok L S hdone
      rw [List.append_assoc]
      refine collect_stops hdone ?_
      rcases hrun.error_cases hadd with holder | ⟨rfl, -⟩
      · exfalso
        cases hd' : deviceOf L S event' with
        | none =>
          obtain ⟨diag, hadd', -⟩ := add_ignored L m event' (by rw [hrun.setup]; exact hd')
          rw [hadd'] at hadd
          cases hadd
        | some d' =>
          have hobserved : observed L S event' = true := by rw [observed, hd']; rfl
          have hprefix : OnTime L S lateness (done ++ [event']) := by
            have hall : OnTime L S lateness ((done ++ [event']) ++ (rest ++ [event])) := by simpa using hontime
            exact onTime_prefix L S hall
          have hok := (hrun.onTime_snoc hobserved).mp hprefix
          rw [add_observed L m event' (by rw [hrun.setup]; exact hd'), hrun.setup, hok] at hadd
          change (update L S.grid _ event' >>= _) = _ at hadd
          rcases update_cases L S.grid (hrun.cell hok) event' with ⟨-, -, herror⟩ | ⟨-, acc', hup, -, -⟩
          · rw [herror] at hadd
            cases hadd
            cases holder
          · rw [hup] at hadd
            cases hadd
      · exact hadd

/-- Every event is counted once for its device or refused as older than the watermark, unless
two values cannot be compared. -/
theorem events_acceptedOnce (lateness : Nat) (events : List MqttEvent) :
    AcceptedOnce (BehaviorWindowManager.addEvent L) (BehaviorWindowManager.finish L) (.new S lateness) (windowOf S)
      (devicesOf L S) (observed L S) BehaviorRow.key BehaviorRow.messagesCount events ↔
      ¬ Incomparable L S lateness events := by
  refine ((managed L S lateness).acceptedOnce (devicesOf_nodup L S) BehaviorWindowAccumulator.messages
    (fun row cell h => h.key L S) (fun row cell h => ?_) (fun k f fs => ?_) (run_new L S lateness) events).trans ?_
  · obtain ⟨⟨history, rfl⟩, -⟩ := h
    rfl
  · rw [(count_fold L S (f :: fs) _).1]
    exact Nat.zero_add _
  · rw [← fails_iff_incomparable]
    constructor
    · intro holder herror
      cases holder _ herror
    · intro hnot err herr
      obtain ⟨done, event, rest, rows, m, rfl, hdone, hadd⟩ := collect_error herr
      rcases (run_of_ok L S hdone).error_cases hadd with holder | ⟨rfl, -⟩
      · exact holder
      · exact absurd herr hnot

/-- The valid messages are the unresolved, the ignored and the counted ones. -/
theorem messages_accounted {lateness : Nat} {events : List MqttEvent} {rows : List BehaviorRow} {m : BehaviorWindowManager}
    (h : collect (BehaviorWindowManager.addEvent L) (.new S lateness) events = .ok (rows, m))
    {all : List BehaviorRow} (hall : CountedOnce (windowOf S) (devicesOf L S) BehaviorRow.key BehaviorRow.messagesCount events all) :
    m.diagnostics.messagesValidTotal = m.diagnostics.unresolvedTelemetrySources + m.diagnostics.messagesIgnoredUnsupported +
      (all.map BehaviorRow.messagesCount).sum := by
  have hrun := run_of_ok L S h
  have hobserved : (events.map fun e => (devicesOf L S e).length).sum = events.countP (observed L S) := by
    clear h hall hrun
    induction events with
    | nil => rfl
    | cons e events ih =>
      rw [List.map_cons, List.sum_cons, ih, List.countP_cons, devicesOf_eq, observed]
      cases deviceOf L S e <;> simp [Nat.add_comm]
  rw [hrun.valid, hrun.ignored, hall.total, hobserved, Nat.add_comm]
  simpa using List.length_eq_countP_add_countP (l := events) (observed L S)

end BehaviorCounts
