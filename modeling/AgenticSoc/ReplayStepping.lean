import Mathlib.Tactic.Common

/-!
# Stepping a paused replay

Two threads share the control object of a replay and the runner's progress counter. The
runner checks the step limit between windows and clears the pause event when the limit is
reached; a step call reads the counter, overwrites the limit and sets the event. The calls
of one replay hold the controller's lock and so follow one another; the runner does not.
-/
namespace ReplayStepping

structure ReplayControl where
  pauseEvent : Bool
  stepLimit : Option Nat
  cancelled : Bool
  deriving DecidableEq, Repr

/-- The runner passes a checkpoint before it looks for a window and after each window. -/
inductive Site where
  | loopStart | afterWindow
  deriving DecidableEq, Repr

/-- Where the runner is: inside a checkpoint, in a window before or after it is counted as
seen, pacing, or out of its loop. -/
inductive RunnerAt where
  | check (site : Site)
  | clear (site : Site)
  | test (site : Site)
  | wait (site : Site)
  | window
  | counted
  | pace
  | finished
  | cancelled
  deriving DecidableEq, Repr

inductive CallAt where
  | idle
  | targeted (target : Nat)
  | limited (target : Nat)
  deriving DecidableEq, Repr

structure State where
  control : ReplayControl
  windowIdsSeen : Nat
  windowsCompleted : Nat
  runner : RunnerAt
  call : CallAt
  calls : Nat
  deriving DecidableEq, Repr

/-- The checkpoint ends with a second look at the cancellation. -/
def leave (s : State) (site : Site) : State :=
  if s.control.cancelled then { s with runner := .cancelled }
  else match site with
  | .loopStart => { s with runner := .window }
  | .afterWindow => { s with runner := .pace }

def limitReached (s : State) : Bool := s.control.stepLimit.any fun limit => limit ≤ s.windowsCompleted

/-- One step of the runner over a replay of so many windows; none while it waits. -/
def runnerStep (total : Nat) (s : State) : Option State :=
  match s.runner with
  | .check site =>
    if s.control.cancelled then some { s with runner := .cancelled }
    else if limitReached s then some { s with runner := .clear site }
    else some { s with runner := .test site }
  | .clear site => some { s with control := { s.control with pauseEvent := false }, runner := .test site }
  | .test site => if s.control.pauseEvent then some (leave s site) else some { s with runner := .wait site }
  | .wait site => if s.control.pauseEvent then some (leave s site) else none
  | .window =>
    if s.windowsCompleted < total then some { s with windowIdsSeen := s.windowIdsSeen + 1, runner := .counted }
    else some { s with runner := .finished }
  | .counted => some { s with windowsCompleted := s.windowsCompleted + 1, runner := .check .afterWindow }
  | .pace => some { s with runner := .check .loopStart }
  | .finished => none
  | .cancelled => none

/-- One step of a step call: the target is read, becomes the limit, and the event is set. -/
def callStep (s : State) : State :=
  match s.call with
  | .idle => { s with call := .targeted (s.windowIdsSeen + 1), calls := s.calls + 1 }
  | .targeted target => { s with control := { s.control with stepLimit := some target }, call := .limited target }
  | .limited _ => { s with control := { s.control with pauseEvent := true }, call := .idle }

inductive Mover where
  | runner | call
  deriving DecidableEq, Repr

def step (total : Nat) (s : State) : Mover → Option State
  | .runner => runnerStep total s
  | .call => some (callStep s)

def run (total : Nat) (s : State) : List Mover → Option State
  | [] => some s
  | m :: ms => (step total s m).bind fun s' => run total s' ms

/-- Paused, with the runner waiting at a checkpoint after so many windows. -/
def paused (windows : Nat) (site : Site) (limit : Option Nat) : State where
  control := ⟨false, limit, false⟩
  windowIdsSeen := windows
  windowsCompleted := windows
  runner := .wait site
  call := .idle
  calls := 0

/-- The runner waits and no step call is under way. -/
def Settled (s : State) : Prop := (∃ site, s.runner = .wait site) ∧ s.control.pauseEvent = false ∧ s.call = .idle

/-! ## Steps that count -/

/-- The runner has found a limit reached and is about to clear the event. -/
def Clearing (s : State) : Prop := ∃ site, s.runner = .clear site

/-- A call reads the counter after the window of the call before it was seen, and does not
set the event while the runner is about to clear it short of the new limit. -/
def GoodStep (windows : Nat) (s : State) : Mover → Prop
  | .runner => True
  | .call =>
    match s.call with
    | .idle => s.windowIdsSeen = windows + s.calls
    | .targeted _ => True
    | .limited target => Clearing s → target ≤ s.windowsCompleted

/-- Every step of the run is good. -/
def AllGood (total windows : Nat) (s : State) : List Mover → Prop
  | [] => True
  | m :: ms => GoodStep windows s m ∧ ∀ s', step total s m = some s' → AllGood total windows s' ms

/-! ## What a step keeps -/

/-- The runner is between the window and the pacing after it, held there while the event is clear. -/
def HeldAfter (s : State) : Prop :=
  s.runner = .counted ∨ s.runner = .check .afterWindow ∨ s.runner = .clear .afterWindow ∨
    (s.control.pauseEvent = false ∧ (s.runner = .test .afterWindow ∨ s.runner = .wait .afterWindow))

/-- The runner goes on to a window without looking at the limit again. -/
def PastLimit (s : State) : Prop :=
  s.runner = .window ∨ (s.control.pauseEvent = true ∧ (s.runner = .test .loopStart ∨ s.runner = .wait .loopStart))

/-- The state once a first call has set its limit: `target` is the target of the last call. -/
structure Going (s : State) (target : Nat) : Prop where
  uncancelled : s.control.cancelled = false
  limit : ∃ l, s.control.stepLimit = some l ∧ l ≤ target ∧ target ≤ l + 1
  current : (∀ t, s.call ≠ .targeted t) → s.control.stepLimit = some target
  calling : ∀ t, s.call = .targeted t ∨ s.call = .limited t → t = target
  counted : s.windowIdsSeen = s.windowsCompleted + (if s.runner = .counted then 1 else 0)
  seen : s.windowIdsSeen ≤ target ∧ target ≤ s.windowIdsSeen + 1
  ahead : PastLimit s → s.windowsCompleted < target
  held : s.call ≠ .idle → s.windowIdsSeen = target → HeldAfter s

section Steps

variable {total : Nat} {s s' : State} {target : Nat}

theorem leave_eq (h : s.control.cancelled = false) (site : Site) :
    leave s site = { s with runner := match site with | .loopStart => .window | .afterWindow => .pace } := by
  unfold leave
  rw [if_neg (by rw [h]; decide)]
  cases site <;> rfl

theorem limitReached_iff {l : Nat} (h : s.control.stepLimit = some l) : limitReached s = true ↔ l ≤ s.windowsCompleted := by
  unfold limitReached
  rw [h, Option.any_some, decide_eq_true_iff]

/-- A state that differs in the runner, the event and the counters keeps what is about the limit. -/
theorem Going.moved (h : Going s target) (hcancelled : s'.control.cancelled = s.control.cancelled)
    (hlimit : s'.control.stepLimit = s.control.stepLimit) (hcall : s'.call = s.call)
    (hcounted : s'.windowIdsSeen = s'.windowsCompleted + (if s'.runner = .counted then 1 else 0))
    (hseen : s'.windowIdsSeen ≤ target ∧ target ≤ s'.windowIdsSeen + 1)
    (hahead : PastLimit s' → s'.windowsCompleted < target)
    (hheld : s'.call ≠ .idle → s'.windowIdsSeen = target → HeldAfter s') : Going s' target where
  uncancelled := hcancelled.trans h.uncancelled
  limit := by
    rw [hlimit]
    exact h.limit
  current := by
    rw [hlimit, hcall]
    exact h.current
  calling := by
    rw [hcall]
    exact h.calling
  counted := hcounted
  seen := hseen
  ahead := hahead
  held := hheld

/-- A checkpoint is passed short of the limit only. -/
theorem going_check (h : Going s target) {site : Site} (hr : s.runner = .check site)
    (hstep : runnerStep total s = some s') : Going s' target := by
  obtain ⟨l, hl, hle, -⟩ := h.limit
  have hreached := limitReached_iff hl
  have hcounted : s.windowIdsSeen = s.windowsCompleted := by simpa [hr] using h.counted
  have hheld : s.call ≠ .idle → s.windowIdsSeen = target → site = .afterWindow := by simpa [HeldAfter, hr] using h.held
  simp only [runnerStep, hr, h.uncancelled, Bool.false_eq_true, if_false] at hstep
  by_cases hlimited : limitReached s = true
  · rw [if_pos hlimited] at hstep
    cases hstep
    refine h.moved rfl rfl rfl ?_ h.seen ?_ ?_
    · simpa using hcounted
    · simp [PastLimit]
    · intro hcall hall
      simp [HeldAfter, hheld hcall hall]
  · rw [if_neg hlimited] at hstep
    cases hstep
    rw [hreached] at hlimited
    refine h.moved rfl rfl rfl ?_ h.seen ?_ ?_
    · simpa using hcounted
    · intro _
      show s.windowsCompleted < target
      omega
    · intro _ hall
      have hall : s.windowIdsSeen = target := hall
      omega

theorem going_clear (h : Going s target) {site : Site} (hr : s.runner = .clear site)
    (hstep : runnerStep total s = some s') : Going s' target := by
  have hcounted : s.windowIdsSeen = s.windowsCompleted := by simpa [hr] using h.counted
  have hheld : s.call ≠ .idle → s.windowIdsSeen = target → site = .afterWindow := by simpa [HeldAfter, hr] using h.held
  simp only [runnerStep, hr] at hstep
  cases hstep
  refine h.moved rfl rfl rfl ?_ h.seen ?_ ?_
  · simpa using hcounted
  · simp [PastLimit]
  · intro hcall hall
    simp [HeldAfter, hheld hcall hall]

/-- A runner that finds the event set leaves the checkpoint. -/
theorem going_leave (h : Going s target) {site : Site} (hr : s.runner = .test site ∨ s.runner = .wait site)
    (hpause : s.control.pauseEvent = true) : Going (leave s site) target := by
  have hcounted : s.windowIdsSeen = s.windowsCompleted := by rcases hr with hr | hr <;> simpa [hr] using h.counted
  have hheld : s.call ≠ .idle → s.windowIdsSeen ≠ target := by
    rcases hr with hr | hr <;> simpa [HeldAfter, hr, hpause] using h.held
  have hahead : site = .loopStart → s.windowsCompleted < target := by
    rcases hr with hr | hr <;> simpa [PastLimit, hr, hpause] using h.ahead
  rw [leave_eq h.uncancelled]
  refine h.moved rfl rfl rfl ?_ h.seen ?_ ?_
  · cases site <;> simpa using hcounted
  · cases site with
    | loopStart => exact fun _ => hahead rfl
    | afterWindow => simp [PastLimit]
  · intro hcall hall
    exact absurd hall (hheld hcall)

theorem going_test (h : Going s target) {site : Site} (hr : s.runner = .test site)
    (hstep : runnerStep total s = some s') : Going s' target := by
  have hcounted : s.windowIdsSeen = s.windowsCompleted := by simpa [hr] using h.counted
  simp only [runnerStep, hr] at hstep
  by_cases hpause : s.control.pauseEvent = true
  · rw [if_pos hpause] at hstep
    cases hstep
    exact going_leave h (.inl hr) hpause
  · have hheld : s.call ≠ .idle → s.windowIdsSeen = target → site = .afterWindow := by
      intro hcall hall
      have := h.held hcall hall
      simp only [HeldAfter, hr, RunnerAt.test.injEq, reduceCtorEq, false_or, or_false] at this
      exact this.2
    rw [if_neg hpause] at hstep
    cases hstep
    rw [Bool.not_eq_true] at hpause
    refine h.moved rfl rfl rfl ?_ h.seen ?_ ?_
    · simpa using hcounted
    · simp [PastLimit, hpause]
    · intro hcall hall
      simp [HeldAfter, hheld hcall hall, hpause]

theorem going_window (h : Going s target) (hr : s.runner = .window) (hstep : runnerStep total s = some s') :
    Going s' target := by
  have hcounted : s.windowIdsSeen = s.windowsCompleted := by simpa [hr] using h.counted
  have hahead : s.windowsCompleted < target := h.ahead (.inl hr)
  have hseen := h.seen
  have hheld : s.call ≠ .idle → s.windowIdsSeen ≠ target := by simpa [HeldAfter, hr] using h.held
  simp only [runnerStep, hr] at hstep
  by_cases hmore : s.windowsCompleted < total
  · rw [if_pos hmore] at hstep
    cases hstep
    refine h.moved rfl rfl rfl ?_ ?_ ?_ ?_
    · simpa using hcounted
    · exact ⟨by show s.windowIdsSeen + 1 ≤ target; omega, by show target ≤ s.windowIdsSeen + 1 + 1; omega⟩
    · simp [PastLimit]
    · simp [HeldAfter]
  · rw [if_neg hmore] at hstep
    cases hstep
    refine h.moved rfl rfl rfl ?_ hseen ?_ ?_
    · simpa using hcounted
    · simp [PastLimit]
    · intro hcall hall
      exact absurd hall (hheld hcall)

/-- A step of the runner keeps the invariant. -/
theorem going_runner (h : Going s target) (hstep : runnerStep total s = some s') : Going s' target := by
  cases hr : s.runner with
  | check site => exact going_check h hr hstep
  | clear site => exact going_clear h hr hstep
  | test site => exact going_test h hr hstep
  | wait site =>
    simp only [runnerStep, hr] at hstep
    split at hstep
    · rename_i hpause
      cases hstep
      exact going_leave h (.inr hr) hpause
    · cases hstep
  | window => exact going_window h hr hstep
  | counted =>
    have hcounted : s.windowIdsSeen = s.windowsCompleted + 1 := by simpa [hr] using h.counted
    simp only [runnerStep, hr] at hstep
    cases hstep
    refine h.moved rfl rfl rfl ?_ h.seen ?_ ?_
    · simpa using hcounted
    · simp [PastLimit]
    · simp [HeldAfter]
  | pace =>
    have hcounted : s.windowIdsSeen = s.windowsCompleted := by simpa [hr] using h.counted
    have hheld : s.call ≠ .idle → s.windowIdsSeen ≠ target := by simpa [HeldAfter, hr] using h.held
    simp only [runnerStep, hr] at hstep
    cases hstep
    refine h.moved rfl rfl rfl ?_ h.seen ?_ ?_
    · simpa using hcounted
    · simp [PastLimit]
    · intro hcall hall
      exact absurd hall (hheld hcall)
  | finished =>
    simp only [runnerStep, hr] at hstep
    cases hstep
  | cancelled =>
    simp only [runnerStep, hr] at hstep
    cases hstep

/-- A call that reads the counter has a target that is at least the last one. -/
theorem going_read (h : Going s target) (hidle : s.call = .idle) : Going (callStep s) (s.windowIdsSeen + 1) := by
  obtain ⟨huncancelled, -, hcurrent, -, hcounted, hseen, hahead, -⟩ := h
  have hlimit := hcurrent (by rw [hidle]; exact fun t ht => CallAt.noConfusion ht)
  have hstep : callStep s = { s with call := .targeted (s.windowIdsSeen + 1), calls := s.calls + 1 } := by
    unfold callStep
    rw [hidle]
  rw [hstep]
  refine ⟨huncancelled, ⟨target, hlimit, hseen.2, Nat.succ_le_succ hseen.1⟩, ?_, ?_, hcounted, ⟨Nat.le_succ _, Nat.le_refl _⟩,
    ?_, ?_⟩
  · intro hnone
    exact absurd rfl (hnone (s.windowIdsSeen + 1))
  · intro t ht
    rcases ht with ht | ht <;> cases ht
    rfl
  · intro _
    change s.windowsCompleted < s.windowIdsSeen + 1
    omega
  · intro _ hsame
    exact absurd hsame (Nat.ne_of_lt (Nat.lt_succ_self _))

theorem going_limit {t : Nat} (h : Going s target) (hcall : s.call = .targeted t) : Going (callStep s) target := by
  obtain rfl : t = target := h.calling t (.inl hcall)
  have hstep : callStep s = { s with control := { s.control with stepLimit := some t }, call := .limited t } := by
    unfold callStep
    rw [hcall]
  rw [hstep]
  refine ⟨h.uncancelled, ⟨t, rfl, Nat.le_refl _, Nat.le_succ _⟩, fun _ => rfl, ?_, h.counted, h.seen, h.ahead, ?_⟩
  · intro t' ht
    rcases ht with ht | ht <;> cases ht
    rfl
  · intro _ hsame
    exact h.held (by rw [hcall]; exact CallAt.noConfusion) hsame

/-- The event wakes a runner that has seen all windows of the target only behind the pacing,
where it looks at the limit again. -/
theorem going_set {t : Nat} (h : Going s target) (hcall : s.call = .limited t) : Going (callStep s) target := by
  have hstep : callStep s = { s with control := { s.control with pauseEvent := true }, call := .idle } := by
    unfold callStep
    rw [hcall]
  have hlimit := h.current (by rw [hcall]; exact fun t ht => CallAt.noConfusion ht)
  have hheld := h.held (by rw [hcall]; exact CallAt.noConfusion)
  have hseen := h.seen
  have hcounted := h.counted
  have hahead := h.ahead
  rw [hstep]
  refine ⟨h.uncancelled, ⟨target, hlimit, Nat.le_refl _, Nat.le_succ _⟩, fun _ => hlimit, ?_, hcounted, hseen, ?_, ?_⟩
  · intro t' ht
    rcases ht with ht | ht <;> cases ht
  · intro hpast
    unfold PastLimit at hahead hpast
    unfold HeldAfter at hheld
    dsimp only at hpast ⊢
    by_cases hall : s.windowIdsSeen = target
    · grind
    · omega
  · intro hidle
    exact absurd rfl hidle

end Steps

/-! ## Counting steps -/

/-- All windows of the last target are seen, or the runner is not held back. -/
def Live (s : State) (target : Nat) : Prop :=
  s.windowIdsSeen = target ∨ (s.control.pauseEvent = true ∧ ¬ Clearing s)

/-- The runner waits short of the last target, or is bound to. -/
def Stuck (s : State) (target : Nat) : Prop :=
  s.call = .idle ∧ s.windowIdsSeen + 1 = target ∧
    (Clearing s ∨ (s.control.pauseEvent = false ∧ ∃ site, s.runner = .test site ∨ s.runner = .wait site))

/-- No call has set a limit yet. -/
def Before (windows : Nat) (s : State) : Prop :=
  ∃ site limit, s = paused windows site limit ∨
    s = { paused windows site limit with call := .targeted (windows + 1), calls := 1 }

/-- Every call so far has its own target. -/
def Counting (windows : Nat) (s : State) : Prop :=
  ∃ target, Going s target ∧ target = windows + s.calls ∧ (s.call = .idle → Live s target)

/-- A call so far shares its target with the one before, or the last one was lost. -/
def Short (windows : Nat) (s : State) : Prop :=
  ∃ target, Going s target ∧ (target < windows + s.calls ∨ (target = windows + s.calls ∧ Stuck s target))

section Counting

variable {total windows : Nat} {s s' : State} {m : Mover}

theorem runner_keeps (h : runnerStep total s = some s') : s'.call = s.call ∧ s'.calls = s.calls ∧
    s.windowIdsSeen ≤ s'.windowIdsSeen := by
  unfold runnerStep leave at h
  grind

theorem live_runner {target : Nat} (hgoing : Going s target) (hidle : s.call = .idle) (hlive : Live s target)
    (h : runnerStep total s = some s') : Live s' target := by
  have hgoing' := going_runner hgoing h
  have hcurrent := hgoing.current (by rw [hidle]; exact fun t ht => CallAt.noConfusion ht)
  have hreached := limitReached_iff hcurrent
  have hleave := leave_eq hgoing.uncancelled
  have hcounted := hgoing.counted
  have hseen := hgoing'.seen
  have hseen' := hgoing.seen
  obtain ⟨-, -, hmono⟩ := runner_keeps h
  unfold Live Clearing at hlive ⊢
  unfold runnerStep at h
  grind

theorem stuck_runner {target : Nat} (hstuck : Stuck s target) (h : runnerStep total s = some s') : Stuck s' target := by
  unfold Stuck Clearing at hstuck ⊢
  unfold runnerStep at h
  grind

theorem callStep_calls : (callStep s).calls = s.calls + (if s.call = .idle then 1 else 0) := by
  unfold callStep
  cases s.call <;> rfl

theorem callStep_idle_iff : (callStep s).call = .idle ↔ ∃ t, s.call = .limited t := by
  unfold callStep
  cases s.call <;> simp

/-- Before the first limit the runner cannot move and every step is good. -/
theorem before_step (h : Before windows s) (hstep : step total s m = some s') :
    GoodStep windows s m ∧ (Before windows s' ∨ Counting windows s') := by
  obtain ⟨site, limit, rfl | rfl⟩ := h
  · cases m with
    | runner => cases hstep
    | call =>
      cases hstep
      exact ⟨rfl, .inl ⟨site, limit, .inr rfl⟩⟩
  · cases m with
    | runner => cases hstep
    | call =>
      cases hstep
      refine ⟨trivial, .inr ⟨windows + 1, ?_, rfl, fun hidle => CallAt.noConfusion hidle⟩⟩
      refine ⟨rfl, ⟨windows + 1, rfl, Nat.le_refl _, Nat.le_succ _⟩, fun _ => rfl, ?_, rfl, ⟨Nat.le_succ _, Nat.le_refl _⟩,
        ?_, ?_⟩
      · intro t ht
        rcases ht with ht | ht <;> cases ht
        rfl
      · intro _
        exact Nat.lt_succ_self windows
      · intro _ hsame
        exact absurd hsame (Nat.ne_of_lt (Nat.lt_succ_self windows))

theorem counting_good (h : Counting windows s) (hgood : GoodStep windows s m) (hstep : step total s m = some s') :
    Counting windows s' := by
  obtain ⟨target, hgoing, htarget, hlive⟩ := h
  cases m with
  | runner =>
    obtain ⟨hcall, hcalls, -⟩ := runner_keeps hstep
    refine ⟨target, going_runner hgoing hstep, by rw [htarget, hcalls], fun hidle => ?_⟩
    rw [hcall] at hidle
    exact live_runner hgoing hidle (hlive hidle) hstep
  | call =>
    cases hstep
    unfold GoodStep at hgood
    cases hcall : s.call with
    | idle =>
      rw [hcall] at hgood
      refine ⟨s.windowIdsSeen + 1, going_read hgoing hcall, ?_, fun hidle => ?_⟩
      · rw [callStep_calls, if_pos hcall, show s.windowIdsSeen = _ from hgood, Nat.add_assoc]
      · obtain ⟨t, ht⟩ := (callStep_idle_iff).mp hidle
        rw [hcall] at ht
        cases ht
    | targeted t =>
      refine ⟨target, going_limit hgoing hcall, ?_, fun hidle => ?_⟩
      · rw [callStep_calls, if_neg (by rw [hcall]; exact CallAt.noConfusion), htarget, Nat.add_zero]
      · obtain ⟨t', ht⟩ := (callStep_idle_iff).mp hidle
        rw [hcall] at ht
        cases ht
    | limited t =>
      obtain rfl : t = target := hgoing.calling t (.inr hcall)
      rw [hcall] at hgood
      refine ⟨t, going_set hgoing hcall, ?_, fun _ => ?_⟩
      · rw [callStep_calls, if_neg (by rw [hcall]; exact CallAt.noConfusion), htarget, Nat.add_zero]
      · have hset : callStep s = { s with control := { s.control with pauseEvent := true }, call := .idle } := by
          unfold callStep
          rw [hcall]
        have hcounted := hgoing.counted
        have hseen := hgoing.seen
        rw [hset]
        by_cases hclearing : Clearing s
        · have hdone : t ≤ s.windowsCompleted := hgood hclearing
          refine .inl ?_
          change s.windowIdsSeen = t
          omega
        · exact .inr ⟨rfl, hclearing⟩

/-- The first step that is not good leaves the calls short. -/
theorem counting_bad (h : Counting windows s) (hbad : ¬ GoodStep windows s m) (hstep : step total s m = some s') :
    Short windows s' := by
  obtain ⟨target, hgoing, htarget, hlive⟩ := h
  cases m with
  | runner => exact absurd trivial hbad
  | call =>
    cases hstep
    unfold GoodStep at hbad
    have hseen := hgoing.seen
    cases hcall : s.call with
    | idle =>
      rw [hcall] at hbad
      refine ⟨s.windowIdsSeen + 1, going_read hgoing hcall, .inl ?_⟩
      rw [callStep_calls, if_pos hcall]
      have hstale : s.windowIdsSeen ≠ windows + s.calls := hbad
      omega
    | targeted t =>
      rw [hcall] at hbad
      exact absurd trivial hbad
    | limited t =>
      obtain rfl : t = target := hgoing.calling t (.inr hcall)
      rw [hcall] at hbad
      have hset : callStep s = { s with control := { s.control with pauseEvent := true }, call := .idle } := by
        unfold callStep
        rw [hcall]
      obtain ⟨hclearing, hnot⟩ := Classical.not_imp.mp hbad
      have hcounted := hgoing.counted
      refine ⟨t, going_set hgoing hcall, .inr ⟨?_, ?_⟩⟩
      · rw [callStep_calls, if_neg (by rw [hcall]; exact CallAt.noConfusion), htarget, Nat.add_zero]
      · rw [hset]
        obtain ⟨site, hsite⟩ := hclearing
        rw [hsite, if_neg RunnerAt.noConfusion] at hcounted
        refine ⟨rfl, ?_, .inl ⟨site, hsite⟩⟩
        change s.windowIdsSeen + 1 = t
        omega

theorem short_step (h : Short windows s) (hstep : step total s m = some s') : Short windows s' := by
  obtain ⟨target, hgoing, hshort⟩ := h
  cases m with
  | runner =>
    obtain ⟨hcall, hcalls, -⟩ := runner_keeps hstep
    refine ⟨target, going_runner hgoing hstep, ?_⟩
    rw [hcalls]
    exact hshort.imp_right fun h => ⟨h.1, stuck_runner h.2 hstep⟩
  | call =>
    cases hstep
    have hseen := hgoing.seen
    cases hcall : s.call with
    | idle =>
      refine ⟨s.windowIdsSeen + 1, going_read hgoing hcall, .inl ?_⟩
      rw [callStep_calls, if_pos hcall]
      rcases hshort with hless | ⟨hsame, -, hstuck, -⟩ <;> omega
    | targeted t =>
      have hless := hshort.resolve_right fun h => CallAt.noConfusion (hcall.symm.trans h.2.1)
      refine ⟨target, going_limit hgoing hcall, .inl ?_⟩
      rwa [callStep_calls, if_neg (by rw [hcall]; exact CallAt.noConfusion), Nat.add_zero]
    | limited t =>
      have hless := hshort.resolve_right fun h => CallAt.noConfusion (hcall.symm.trans h.2.1)
      refine ⟨target, going_set hgoing hcall, .inl ?_⟩
      rwa [callStep_calls, if_neg (by rw [hcall]; exact CallAt.noConfusion), Nat.add_zero]

/-! ## Runs -/

theorem short_run {ms : List Mover} (h : Short windows s) (hrun : run total s ms = some s') : Short windows s' := by
  induction ms generalizing s with
  | nil =>
    cases hrun
    exact h
  | cons m ms ih =>
    obtain ⟨t, ht, hrest⟩ := Option.bind_eq_some_iff.mp hrun
    exact ih (short_step h ht) hrest

/-- A run counts its calls just when all its steps are good. -/
theorem counting_run {ms : List Mover} (h : Before windows s ∨ Counting windows s) (hrun : run total s ms = some s') :
    (AllGood total windows s ms → Before windows s' ∨ Counting windows s') ∧
      (¬ AllGood total windows s ms → Short windows s') := by
  induction ms generalizing s with
  | nil =>
    cases hrun
    exact ⟨fun _ => h, fun hbad => absurd trivial hbad⟩
  | cons m ms ih =>
    obtain ⟨t, ht, hrest⟩ := Option.bind_eq_some_iff.mp hrun
    have hnext : GoodStep windows s m → Before windows t ∨ Counting windows t := by
      intro hgood
      rcases h with h | h
      · exact (before_step h ht).2
      · exact .inr (counting_good h hgood ht)
    constructor
    · rintro ⟨hgood, hall⟩
      exact (ih (hnext hgood) hrest).1 (hall t ht)
    · intro hbad
      by_cases hgood : GoodStep windows s m
      · refine (ih (hnext hgood) hrest).2 fun hall => hbad ⟨hgood, fun t' ht' => ?_⟩
        rw [ht] at ht'
        cases ht'
        exact hall
      · rcases h with h | h
        · exact absurd (before_step h ht).1 hgood
        · exact short_run (counting_bad h hgood ht) hrest

end Counting

/-- When the runner waits again after `n` calls, it has completed `n` more windows just when
every step of the run was good. -/
theorem steps_counted_iff {total windows n : Nat} {site : Site} {limit : Option Nat} {ms : List Mover} {s : State}
    (hrun : run total (paused windows site limit) ms = some s) (hsettled : Settled s) (hcalls : s.calls = n) :
    s.windowsCompleted = windows + n ↔ AllGood total windows (paused windows site limit) ms := by
  subst hcalls
  obtain ⟨⟨site', hwait⟩, hevent, hidle⟩ := hsettled
  have hcounting := counting_run (.inl ⟨site, limit, .inl rfl⟩) hrun
  have hcompleted : ∀ target, Going s target → s.windowIdsSeen = s.windowsCompleted := by
    intro target hgoing
    have hcounted := hgoing.counted
    rwa [hwait, if_neg RunnerAt.noConfusion, Nat.add_zero] at hcounted
  constructor
  · intro hdone
    by_contra hbad
    obtain ⟨target, hgoing, hshort⟩ := hcounting.2 hbad
    have hseen := hgoing.seen
    have hsame := hcompleted target hgoing
    rcases hshort with hless | ⟨htarget, -, hstuck, -⟩ <;> omega
  · intro hall
    rcases hcounting.1 hall with ⟨site₀, limit₀, rfl | rfl⟩ | ⟨target, hgoing, htarget, hlive⟩
    · rfl
    · cases hidle
    · have hsame := hcompleted target hgoing
      rcases hlive hidle with hseen | ⟨hset, -⟩
      · omega
      · rw [hevent] at hset
        cases hset

/-- One call, and the runner passes one window up to its next wait. -/
def oneStep : List Mover := .call :: .call :: .call :: List.replicate 6 .runner

theorem steps_counted_one : ∃ s, run 5 (paused 2 .loopStart none) oneStep = some s ∧ Settled s ∧ s.calls = 1 ∧
    (s.windowsCompleted = 2 + 1 ↔ AllGood 5 2 (paused 2 .loopStart none) oneStep) := by
  refine ⟨_, rfl, ?_, rfl, ?_⟩
  · exact ⟨⟨.afterWindow, rfl⟩, rfl, rfl⟩
  · exact steps_counted_iff rfl ⟨⟨.afterWindow, rfl⟩, rfl, rfl⟩ rfl

/-- Two calls before the runner moves: both have the same target and one window is completed. -/
def twoCallsAtOnce : List Mover := List.replicate 6 .call ++ List.replicate 6 .runner

theorem step_lost : ∃ s, run 5 (paused 2 .loopStart none) twoCallsAtOnce = some s ∧ Settled s ∧ s.calls = 2 ∧
    s.windowsCompleted = 3 :=
  ⟨_, rfl, ⟨⟨.afterWindow, rfl⟩, rfl, rfl⟩, rfl, rfl⟩

end ReplayStepping
